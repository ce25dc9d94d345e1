import Veilence.Foundation.Discipline
import Veilence.Foundation.Observed

/-!
# Proof outlines for concurrent calls

The rely-guarantee method for calls over a shared store.  What a call may do depends on
what it has been answered so far.  An outline names an invariant of the store, a relation
that every step of every call stays within, and for each answer a fact that it gives and
that no step takes away again.  Each body is checked once against the outline, each
command once against the invariant; every run then keeps the invariant, and any two
moments of a run are related.

A recorder adds a value that is worked out along the run, such as a list of what has
happened; outlines speak about it as about the store.

Main results:

- Theorem {lit}`Outline.Sound.run`: runs keep a sound outline.
- Theorem {lit}`Outline.Sound.invariant`: the invariant holds in every state reached.
-/

namespace Veilence
namespace Foundation

variable {Store Op C : Type} {R : C → Type} {α Γ : Type}

/-! ## Values worked out along a run -/

/-- How commands that take effect and results of calls change a value. -/
structure Recorder (Store Op C : Type) (R : C → Type) (α Γ : Type) where
  ran : Γ → Store → Op → (c : C) → R c → Γ
  returned : Γ → Store → Op → α → Γ

/-- The recorder that keeps nothing. -/
def Recorder.nothing : Recorder Store Op C R α Unit :=
  ⟨fun _ _ _ _ _ => (), fun _ _ _ _ => ()⟩

/-- The recorder that keeps the stores before all commands. -/
def Recorder.history : Recorder Store Op C R α (List Store) :=
  ⟨fun past s _ _ _ => s :: past, fun past _ _ _ => past⟩

namespace System

variable (S : System Store Op C R α)

/-- The value after a step. -/
def record (rec : Recorder Store Op C R α Γ) (w : World Store Op C R α) (g : Γ) :
    Label Op → Γ
  | .exec i =>
      match w.threads i with
      | some ⟨op, .cmd c _, _⟩ => rec.ran g w.store op c (S.exec w.store c).2
      | _ => g
  | .finish i =>
      match w.threads i with
      | some ⟨op, .ret a, _⟩ => rec.returned g w.store op a
      | _ => g
  | _ => g

variable {S} in
/-- The value after a command. -/
theorem record_exec {rec : Recorder Store Op C R α Γ} {w : World Store Op C R α} {g : Γ} {i : Nat}
    {op : Op} {c : C} {k : Option (R c) → Prog C R α} {failed : Bool}
    (hthread : w.threads i = some ⟨op, .cmd c k, failed⟩) :
    S.record rec w g (.exec i) = rec.ran g w.store op c (S.exec w.store c).2 := by
  simp only [record, hthread]

variable {S} in
/-- The value after the end of a call. -/
theorem record_finish {rec : Recorder Store Op C R α Γ} {w : World Store Op C R α} {g : Γ}
    {i : Nat} {op : Op} {a : α} {failed : Bool}
    (hthread : w.threads i = some ⟨op, .ret a, failed⟩) :
    S.record rec w g (.finish i) = rec.returned g w.store op a := by
  simp only [record, hthread]

/-- The next command of a call takes effect only where it is allowed. -/
def Admits (allowed : Store → Op → C → Prop) (w : World Store Op C R α) (l : Label Op) : Prop :=
  ∀ i op c k failed, l = .exec i → w.threads i = some ⟨op, .cmd c k, failed⟩ →
    allowed w.store op c

/-- Whether the next command of a call is allowed. -/
def admits (allowed : Store → Op → C → Prop) [∀ s op c, Decidable (allowed s op c)]
    (w : World Store Op C R α) : Label Op → Bool
  | .exec i =>
      match w.threads i with
      | some ⟨op, .cmd c _, _⟩ => decide (allowed w.store op c)
      | _ => true
  | _ => true

theorem admits_sound {allowed : Store → Op → C → Prop} [∀ s op c, Decidable (allowed s op c)]
    {w : World Store Op C R α} {l : Label Op} (hcheck : admits allowed w l = true) :
    Admits allowed w l := by
  intro i op c k failed hl hthread
  subst hl
  simpa [admits, hthread] using hcheck

variable {S} {w w' : World Store Op C R α}

/-- A store that is kept after a step is the one before the step or was kept already. -/
theorem mem_record_history {past : List Store} {l : Label Op} {s : Store}
    (hs : s ∈ S.record .history w past l) : s = w.store ∨ s ∈ past := by
  cases l with
  | exec i =>
      simp only [record] at hs
      split at hs
      · exact List.mem_cons.mp hs
      · exact Or.inr hs
  | finish i =>
      simp only [record] at hs
      split at hs
      · exact Or.inr hs
      · exact Or.inr hs
  | _ => exact Or.inr hs

/-- The stores that are kept along a run are those of moments of the run. -/
theorem exists_history {ok : World Store Op C R α → Label Op → Prop}
    (hrun : Run S.Step ok w w') :
    ∃ past, Run (S.Tracked (S.record .history)) (fun s l => ok s.1 l) (w, []) (w', past) ∧
      ∀ s ∈ past, ∃ mid, Run S.Step ok w mid ∧ Run S.Step ok mid w' ∧ mid.store = s := by
  induction hrun with
  | refl => exact ⟨[], Run.refl _, by simp⟩
  | @tail mid w' hfirst hlast ih =>
      obtain ⟨past, htracked, hpast⟩ := ih
      obtain ⟨l, hstep, hok⟩ := hlast
      refine ⟨_, htracked.snoc ⟨hstep, rfl⟩ hok, fun s hs => ?_⟩
      rcases mem_record_history hs with rfl | hold
      · exact ⟨mid, hfirst, (Run.refl mid).snoc hstep hok, rfl⟩
      · obtain ⟨mid', hbefore, hafter, heq⟩ := hpast s hold
        exact ⟨mid', hbefore, hafter.snoc hstep hok, heq⟩

end System

/-! ## What a call has been answered -/

/-- What a call has been answered: its commands with their answers, the latest first. -/
abbrev Memory (C : Type) (R : C → Type) :=
  List (Σ c : C, R c)

/-- A call has sent a command and got an answer. -/
def Told (m : Memory C R) (c : C) (r : R c) : Prop :=
  (⟨c, r⟩ : Σ c, R c) ∈ m

/-- What a call has been answered after one more command; a failure tells nothing. -/
def remember (m : Memory C R) (c : C) : Option (R c) → Memory C R
  | none => m
  | some r => ⟨c, r⟩ :: m

/-- The last answer has been given. -/
theorem told_remember (m : Memory C R) (c : C) (r : R c) : Told (remember m c (some r)) c r :=
  List.mem_cons_self

/-- What has been answered is not forgotten. -/
theorem suffix_remember (m : Memory C R) (c : C) (r : Option (R c)) : m <:+ remember m c r := by
  cases r with
  | none => exact List.suffix_rfl
  | some r => exact List.suffix_cons _ m

/-- Earlier answers have been given. -/
theorem Told.mono {m m' : Memory C R} {c : C} {r : R c} (htold : Told m c r) (hm : m <:+ m') :
    Told m' c r :=
  hm.subset htold

/-- The discipline of calls that act on what they have been answered. -/
def informed (permitted : Op → Memory C R → C → Prop) (result : Op → Memory C R → α → Prop) :
    Discipline Op C R α (Memory C R) where
  idle := []
  first := fun _ => []
  next := fun m c r => ⟨c, r⟩ :: m
  permitted := permitted
  answer := fun _ _ => True
  result := result

/-! ## Bodies that act on what they have been answered -/

section Bodies

variable (permitted : Op → Memory C R → C → Prop)

/-- Every command of a body is permitted after the answers before it, and the body ends as
it should. -/
def Safe {β : Type} (op : Op) (final : Memory C R → β → Prop) : Memory C R → Prog C R β → Prop
  | m, .ret b => final m b
  | m, .cmd c k => permitted op m c ∧ ∀ r, Safe op final (remember m c r) (k r)

variable {permitted} {op : Op} {m : Memory C R} {β β' : Type} {final final' : Memory C R → β → Prop}

/-- A command followed by the rest of the body. -/
theorem safe_call {c : C} {f : Option (R c) → Prog C R β} (hc : permitted op m c)
    (hf : ∀ r, Safe permitted op final (remember m c r) (f r)) :
    Safe permitted op final m (Prog.call c >>= f) :=
  ⟨hc, hf⟩

/-- A body in two parts. -/
theorem Safe.bind {first : Memory C R → β' → Prop} {p : Prog C R β'}
    (hp : Safe permitted op first m p) {f : β' → Prog C R β}
    (hf : ∀ m' b, first m' b → Safe permitted op final m' (f b)) :
    Safe permitted op final m (p >>= f) := by
  induction p generalizing m with
  | ret b => exact hf m b hp
  | cmd c k ih =>
      rw [Prog.cmd_bind]
      exact ⟨hp.1, fun r => ih r (hp.2 r)⟩

/-- What a body guarantees at its end may be weakened. -/
theorem Safe.mono {p : Prog C R β} (hp : Safe permitted op final m p)
    (hfinal : ∀ m' b, final m' b → final' m' b) : Safe permitted op final' m p := by
  induction p generalizing m with
  | ret b => exact hfinal m b hp
  | cmd c k ih => exact ⟨hp.1, fun r => ih r (hp.2 r)⟩

/-- A body forgets nothing. -/
theorem Safe.grow {p : Prog C R β} (hp : Safe permitted op final m p) :
    Safe permitted op (fun m' b => m <:+ m' ∧ final m' b) m p := by
  induction p generalizing m with
  | ret b => exact ⟨List.suffix_rfl, hp⟩
  | cmd c k ih =>
      refine ⟨hp.1, fun r => (ih r (hp.2 r)).mono ?_⟩
      rintro m' b ⟨hm', hb⟩
      exact ⟨(suffix_remember m c r).trans hm', hb⟩

/-- A safe body keeps the discipline, whether the call has failed or not. -/
theorem Safe.follows {S : System Store Op C R α} {p : Prog C R β}
    (hp : Safe permitted op final m p) (failed : Bool) (result : Op → Memory C R → α → Prop) :
    (informed permitted result).Follows S op (fun _ => final) failed m p := by
  induction p generalizing m failed with
  | ret b => exact hp
  | cmd c k ih =>
      constructor
      · intro _
        exact ⟨hp.1, fun r _ => ih (some r) (hp.2 (some r)) failed⟩
      · intro _
        exact ih none (hp.2 none) true

end Bodies

/-! ## Outlines -/

/-- An outline: the commands that a call may send and the results that it may return after
some answers, the invariant, the relation within which every step stays, and the fact
that an answer gives. -/
structure Outline (Store Op C : Type) (R : C → Type) (α Γ : Type) where
  permitted : Op → Memory C R → C → Prop
  result : Op → Memory C R → α → Prop
  inv : Store → Γ → Prop
  grows : Store → Γ → Store → Γ → Prop
  fact : Store → Γ → (c : C) → R c → Prop

namespace Outline

variable (O : Outline Store Op C R α Γ)

/-- The facts that a call has been given. -/
def Knows (s : Store) (g : Γ) (m : Memory C R) : Prop :=
  ∀ e ∈ m, O.fact s g e.1 e.2

/-- A step leads to a store with the invariant, within the relation. -/
def Leads (s : Store) (g : Γ) (s' : Store) (g' : Γ) : Prop :=
  O.inv s' g' ∧ O.grows s g s' g'

/-- The outline holds of a system whose commands take effect only where they are
allowed. -/
structure Sound (S : System Store Op C R α) (rec : Recorder Store Op C R α Γ)
    (allowed : Store → Op → C → Prop) : Prop where
  refl : ∀ s g, O.grows s g s g
  trans : ∀ s g s' g' s'' g'', O.grows s g s' g' → O.grows s' g' s'' g'' → O.grows s g s'' g''
  stable : ∀ s g s' g' c r, O.grows s g s' g' → O.fact s g c r → O.fact s' g' c r
  safe : ∀ op, Safe O.permitted op (O.result op) [] (S.body op)
  exec : ∀ s g op m c, O.inv s g → O.Knows s g m → O.permitted op m c → allowed s op c →
    O.Leads s g (S.exec s c).1 (rec.ran g s op c (S.exec s c).2) ∧
      O.fact (S.exec s c).1 (rec.ran g s op c (S.exec s c).2) c (S.exec s c).2
  begins : ∀ s g op, O.inv s g → S.enabled s op → O.Leads s g (S.begin s op) g
  finish : ∀ s g op m a, O.inv s g → O.Knows s g m → O.result op m a →
    O.Leads s g (S.done s op a) (rec.returned g s op a)
  stop : ∀ s g op, O.inv s g → O.Leads s g (S.stop s op) g
  env : ∀ s g s', O.inv s g → S.env s s' → O.Leads s g s' g

/-- The outline holds at a moment of a run. -/
def Holds (S : System Store Op C R α) (w : World Store Op C R α) (g : Γ) : Prop :=
  O.inv w.store g ∧
    ∃ known : Nat → Memory C R, (informed O.permitted O.result).Kept S known w ∧
      ∀ i, O.Knows w.store g (known i)

variable {O} {S : System Store Op C R α} {rec : Recorder Store Op C R α Γ}
  {allowed : Store → Op → C → Prop}

/-- The outline holds before the first call. -/
theorem Holds.initial {s : Store} {g : Γ} (hinv : O.inv s g) :
    O.Holds S (World.initial s) g :=
  ⟨hinv, fun _ => [], ⟨by simp [World.initial], by simp [World.initial, informed]⟩, by simp [Knows]⟩

section Steps

variable {w : World Store Op C R α} {g : Γ}

/-- What a call knows stays true within the relation. -/
theorem Knows.grow (hsound : O.Sound S rec allowed) {s s' : Store} {g g' : Γ}
    {m : Memory C R} (hknows : O.Knows s g m) (hgrows : O.grows s g s' g') : O.Knows s' g' m :=
  fun e he => hsound.stable s g s' g' e.1 e.2 hgrows (hknows e he)

/-- What is known after one call has learnt something and the others have not. -/
theorem knows_update (hsound : O.Sound S rec allowed) {s s' : Store} {g g' : Γ}
    {known : Nat → Memory C R} (hknown : ∀ i, O.Knows s g (known i))
    (hgrows : O.grows s g s' g') {i : Nat} {m : Memory C R} (hm : O.Knows s' g' m) (j : Nat) :
    O.Knows s' g' (Function.update known i m j) := by
  by_cases hj : j = i
  · subst hj
    rwa [Function.update_self]
  · rw [Function.update_of_ne hj]
    exact (hknown j).grow hsound hgrows

/-- One step keeps a sound outline and stays within its relation. -/
theorem Sound.step (hsound : O.Sound S rec allowed) {w' : World Store Op C R α} {l : Label Op}
    (hholds : O.Holds S w g) (hadmits : System.Admits allowed w l) (hstep : S.Step w l w') :
    O.Holds S w' (S.record rec w g l) ∧ O.grows w.store g w'.store (S.record rec w g l) := by
  obtain ⟨hinv, known, hkept, hknown⟩ := hholds
  have hnil : ∀ s g', O.Knows s g' [] := by simp [Knows]
  cases hstep with
  | @start i op hfree henabled =>
      have hleads := hsound.begins w.store g op hinv henabled
      refine ⟨⟨hleads.1, _, hkept.start ((hsound.safe op).follows false O.result), ?_⟩, hleads.2⟩
      exact knows_update hsound hknown hleads.2 (hnil _ _)
  | @exec i op c k failed hthread hlive =>
      have hpermitted : O.permitted op (known i) c := hkept.permitted hthread hlive
      have hallowed := hadmits i op c k failed rfl hthread
      rw [System.record_exec hthread]
      obtain ⟨hleads, hfact⟩ :=
        hsound.exec w.store g op (known i) c hinv (hknown i) hpermitted hallowed
      refine ⟨⟨hleads.1, _, hkept.exec hthread hlive trivial, ?_⟩, hleads.2⟩
      apply knows_update hsound hknown hleads.2
      intro e he
      rcases List.mem_cons.mp he with rfl | he
      · exact hfact
      · exact hsound.stable _ _ _ _ _ _ hleads.2 (hknown i e he)
  | @fail i op c k failed hthread hfallible =>
      exact ⟨⟨hinv, known, hkept.fail hthread hfallible, hknown⟩, hsound.refl _ _⟩
  | @stop i t hthread =>
      have hleads := hsound.stop w.store g t.op hinv
      refine ⟨⟨hleads.1, _, hkept.leave _ _, ?_⟩, hleads.2⟩
      exact knows_update hsound hknown hleads.2 (hnil _ _)
  | @finish i op a failed hthread =>
      rw [System.record_finish hthread]
      have hleads :=
        hsound.finish w.store g op (known i) a hinv (hknown i) (hkept.result hthread)
      refine ⟨⟨hleads.1, _, hkept.leave _ _, ?_⟩, hleads.2⟩
      exact knows_update hsound hknown hleads.2 (hnil _ _)
  | env henv =>
      have hleads := hsound.env w.store g _ hinv henv
      refine ⟨⟨hleads.1, known, ⟨hkept.follows, hkept.idle⟩, fun i => ?_⟩, hleads.2⟩
      exact (hknown i).grow hsound hleads.2

end Steps

section Runs

variable {w w' : World Store Op C R α} {g g' : Γ}
  {ok : World Store Op C R α × Γ → Label Op → Prop}

/-- A run keeps a sound outline and stays within its relation. -/
theorem Sound.run (hsound : O.Sound S rec allowed)
    (hok : ∀ s l, ok s l → System.Admits allowed s.1 l)
    (hrun : Run (S.Tracked (S.record rec)) ok (w, g) (w', g')) (hholds : O.Holds S w g) :
    O.Holds S w' g' ∧ O.grows w.store g w'.store g' := by
  refine hrun.invariant
    (I := fun s => O.Holds S s.1 s.2 ∧ O.grows w.store g s.1.store s.2)
    ⟨hholds, hsound.refl _ _⟩ ?_
  intro s l s' hs hl hstep
  obtain ⟨hstep, htrack⟩ := hstep
  obtain ⟨hnext, hgrows⟩ := hsound.step hs.1 (hok s l hl) hstep
  rw [htrack]
  exact ⟨hnext, hsound.trans _ _ _ _ _ _ hs.2 hgrows⟩

/-- The invariant holds in every state that a run from the first state reaches. -/
theorem Sound.invariant (hsound : O.Sound S rec allowed)
    (hok : ∀ s l, ok s l → System.Admits allowed s.1 l) {s : Store}
    (hrun : Run (S.Tracked (S.record rec)) ok (World.initial s, g) (w, g'))
    (hinv : O.inv s g) : O.inv w.store g' :=
  (hsound.run hok hrun (.initial hinv)).1.1

end Runs

section Plain

variable {O : Outline Store Op C R α Unit} {w w' : World Store Op C R α}
  {ok : World Store Op C R α → Label Op → Prop}

/-- A run keeps a sound outline that records nothing. -/
theorem Sound.plain_run (hsound : O.Sound S .nothing allowed)
    (hok : ∀ w l, ok w l → System.Admits allowed w l) (hrun : Run S.Step ok w w')
    (hholds : O.Holds S w ()) : O.Holds S w' () ∧ O.grows w.store () w'.store () := by
  obtain ⟨g, hg⟩ := System.exists_tracked (S.record .nothing) hrun ()
  exact hsound.run (fun s l hl => hok s.1 l hl) hg hholds

end Plain

end Outline
end Foundation
end Veilence

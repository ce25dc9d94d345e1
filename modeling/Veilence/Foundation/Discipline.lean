import Veilence.Foundation.Program

/-!
# Calls that keep a discipline

What a call may do next depends on what it has done so far.  A discipline gives every
call a mode, which its commands change, and says which commands a call may send in a
mode, on which answers it relies and with which results it may end.  Bodies are checked
once; in a run every call then sends only commands that its mode permits.

In a sticky system a call that has failed gets only infallible commands through, so its
mode is checked along the failing path only.

Main results:

- Theorem {lit}`Follows.bind`: a body in two parts.
- Theorems {lit}`Kept.start`, {lit}`Kept.exec`, {lit}`Kept.fail` and {lit}`Kept.leave`: the
  calls in progress keep the discipline in every step.
- Theorem {lit}`Kept.step`: the same for any step, with the modes after it.
-/

namespace Veilence
namespace Foundation

variable {Store Op C : Type} {R : C → Type} {α M : Type}

/-- The mode of a call before it starts, when it starts and after a command; the commands
permitted in a mode; the answers that are relied on; and the results for a mode. -/
structure Discipline (Op C : Type) (R : C → Type) (α M : Type) where
  idle : M
  first : Op → M
  next : M → (c : C) → R c → M
  permitted : Op → M → C → Prop
  answer : (c : C) → R c → Prop
  result : Op → M → α → Prop

namespace Discipline

variable (D : Discipline Op C R α M) (S : System Store Op C R α)

/-- A command can still take effect in a call that has failed or not. -/
def Effective (failed : Bool) (c : C) : Prop :=
  S.sticky = true → S.fallible c = true → failed = false

/-- Every command of a body that can take effect is permitted, and the body ends as it
should. -/
def Follows {β : Type} (op : Op) (final : Bool → M → β → Prop) : Bool → M → Prog C R β → Prop
  | failed, m, .ret b => final failed m b
  | failed, m, .cmd c k =>
      (Effective S failed c → D.permitted op m c ∧
        ∀ r, D.answer c r → Follows op final failed (D.next m c r) (k (some r))) ∧
      (S.fallible c = true → Follows op final true m (k none))

/-- A call follows the discipline to a result that it may end with. -/
def FollowsThread (m : M) (t : Thread Op C R α) : Prop :=
  D.Follows S t.op (fun _ => D.result t.op) t.failed m t.prog

/-- All calls in progress follow the discipline. -/
structure Kept (modes : Nat → M) (w : World Store Op C R α) : Prop where
  follows : ∀ i t, w.threads i = some t → D.FollowsThread S (modes i) t
  idle : ∀ i, w.threads i = none → modes i = D.idle

variable {D S} {op : Op} {failed : Bool} {m : M} {β γ : Type}

section Bodies

variable {first : Bool → M → β → Prop} {final final' : Bool → M → γ → Prop}

/-- A body in two parts. -/
theorem Follows.bind {p : Prog C R β} (hp : D.Follows S op first failed m p)
    {f : β → Prog C R γ}
    (hf : ∀ failed' m' b, first failed' m' b → D.Follows S op final failed' m' (f b)) :
    D.Follows S op final failed m (p >>= f) := by
  induction p generalizing failed m with
  | ret b => exact hf failed m b hp
  | cmd c k ih =>
      rw [Prog.cmd_bind]
      constructor
      · intro heffective
        obtain ⟨hpermitted, hrest⟩ := hp.1 heffective
        exact ⟨hpermitted, fun r hr => ih (some r) (hrest r hr)⟩
      · intro hfallible
        exact ih none (hp.2 hfallible)

/-- What a body guarantees at its end may be weakened. -/
theorem Follows.mono {p : Prog C R γ} (hp : D.Follows S op final failed m p)
    (hfinal : ∀ failed' m' c, final failed' m' c → final' failed' m' c) :
    D.Follows S op final' failed m p := by
  induction p generalizing failed m with
  | ret c => exact hfinal failed m c hp
  | cmd c k ih =>
      constructor
      · intro heffective
        obtain ⟨hpermitted, hrest⟩ := hp.1 heffective
        exact ⟨hpermitted, fun r hr => ih (some r) (hrest r hr)⟩
      · intro hfallible
        exact ih none (hp.2 hfallible)

/-- A command followed by the rest of the body. -/
theorem follows_call {c : C} {f : Option (R c) → Prog C R γ} (hpermitted : D.permitted op m c)
    (hok : ∀ r, D.answer c r → D.Follows S op final failed (D.next m c r) (f (some r)))
    (hfail : S.fallible c = true → D.Follows S op final true m (f none)) :
    D.Follows S op final failed m (Prog.call c >>= f) :=
  ⟨fun _ => ⟨hpermitted, hok⟩, hfail⟩

/-- What is left of a call that has failed is without effect if infallible commands are. -/
theorem follows_of_failed (hsticky : S.sticky = true)
    (hinfallible : ∀ c, S.fallible c = false → D.permitted op m c ∧ ∀ r, D.next m c r = m)
    {p : Prog C R γ} (hfinal : ∀ c, final true m c) : D.Follows S op final true m p := by
  induction p with
  | ret c => exact hfinal c
  | cmd c k ih =>
      constructor
      · intro heffective
        have hc : S.fallible c = false := by
          by_contra hfallible
          exact absurd (heffective hsticky (by simpa using hfallible)) (by simp)
        obtain ⟨hpermitted, hnext⟩ := hinfallible c hc
        refine ⟨hpermitted, fun r _ => ?_⟩
        rw [hnext r]
        exact ih (some r)
      · intro _
        exact ih none

end Bodies

section Runs

variable {modes : Nat → M} {w : World Store Op C R α} {i : Nat} {c : C}
  {k : Option (R c) → Prog C R α}

/-- The other calls keep the discipline when one of them changes. -/
theorem Kept.setThread (hkept : D.Kept S modes w) {t : Option (Thread Op C R α)} {m' : M}
    (hsome : ∀ u, t = some u → D.FollowsThread S m' u) (hnone : t = none → m' = D.idle)
    (store : Store) (log : List (Event Op C α)) :
    D.Kept S (Function.update modes i m') ⟨store, w.setThread i t, log⟩ := by
  constructor
  · apply World.forall_setThread (P := fun j u =>
      D.FollowsThread S (Function.update modes i m' j) u)
    · intro j hj u hu
      rw [Function.update_of_ne hj]
      exact hkept.follows j u hu
    · intro u hu
      rw [Function.update_self]
      exact hsome u hu
  · intro j hj
    by_cases hji : j = i
    · subst hji
      rw [Function.update_self]
      exact hnone (by simpa using hj)
    · rw [Function.update_of_ne hji]
      apply hkept.idle
      rw [← hj]
      exact (w.setThread_of_ne t hji).symm

/-- A call that starts. -/
theorem Kept.start (hkept : D.Kept S modes w)
    (hbody : D.Follows S op (fun _ => D.result op) false (D.first op) (S.body op)) :
    D.Kept S (Function.update modes i (D.first op))
      ⟨S.begin w.store op, w.setThread i (some ⟨op, S.body op, false⟩), w.log⟩ := by
  apply hkept.setThread
  · rintro u ⟨⟩
    exact hbody
  · simp

/-- The command that a call sends is permitted. -/
theorem Kept.permitted (hkept : D.Kept S modes w)
    (hthread : w.threads i = some ⟨op, .cmd c k, failed⟩)
    (heffective : Effective S failed c) : D.permitted op (modes i) c :=
  ((hkept.follows i _ hthread).1 heffective).1

/-- A command of a call. -/
theorem Kept.exec (hkept : D.Kept S modes w)
    (hthread : w.threads i = some ⟨op, .cmd c k, failed⟩)
    (heffective : Effective S failed c) (hanswer : D.answer c (S.exec w.store c).2) :
    D.Kept S (Function.update modes i (D.next (modes i) c (S.exec w.store c).2))
      ⟨(S.exec w.store c).1, w.setThread i (some ⟨op, k (some (S.exec w.store c).2), failed⟩),
        .ran op c :: w.log⟩ := by
  apply hkept.setThread
  · rintro u ⟨⟩
    exact ((hkept.follows i _ hthread).1 heffective).2 _ hanswer
  · simp

/-- A command that fails. -/
theorem Kept.fail (hkept : D.Kept S modes w)
    (hthread : w.threads i = some ⟨op, .cmd c k, failed⟩) (hfallible : S.fallible c = true) :
    D.Kept S modes ⟨w.store, w.setThread i (some ⟨op, k none, true⟩), w.log⟩ := by
  rw [← Function.update_eq_self i modes]
  apply hkept.setThread
  · rintro u ⟨⟩
    exact (hkept.follows i _ hthread).2 hfallible
  · simp

/-- A call that ends or stops. -/
theorem Kept.leave (hkept : D.Kept S modes w) (store : Store) (log : List (Event Op C α)) :
    D.Kept S (Function.update modes i D.idle) ⟨store, w.setThread i none, log⟩ := by
  apply hkept.setThread
  · simp
  · simp

variable (D S) in
/-- The modes after a step. -/
def after (modes : Nat → M) (w : World Store Op C R α) : Label Op → Nat → M
  | .start i op => Function.update modes i (D.first op)
  | .exec i =>
      match w.threads i with
      | some ⟨_, .cmd c _, _⟩ => Function.update modes i (D.next (modes i) c (S.exec w.store c).2)
      | _ => modes
  | .fail _ | .env => modes
  | .stop i | .finish i => Function.update modes i D.idle

theorem after_exec (hthread : w.threads i = some ⟨op, .cmd c k, failed⟩) :
    D.after S modes w (.exec i) =
      Function.update modes i (D.next (modes i) c (S.exec w.store c).2) := by
  simp only [after, hthread]

/-- Where every answer can be relied on, the calls keep the discipline in any step. -/
theorem Kept.step (hkept : D.Kept S modes w) (hanswer : ∀ c r, D.answer c r)
    (hbody : ∀ op, D.Follows S op (fun _ => D.result op) false (D.first op) (S.body op))
    {l : Label Op} {w' : World Store Op C R α} (hstep : S.Step w l w') :
    D.Kept S (D.after S modes w l) w' := by
  cases hstep with
  | start hfree henabled => exact hkept.start (hbody _)
  | exec hthread hlive =>
      rw [after_exec hthread]
      exact hkept.exec hthread hlive (hanswer _ _)
  | fail hthread hfallible => exact hkept.fail hthread hfallible
  | stop hthread => exact hkept.leave _ _
  | finish hthread => exact hkept.leave _ _
  | env henv => exact ⟨hkept.follows, hkept.idle⟩

/-- The result of a call that is over is one that it may end with. -/
theorem Kept.result (hkept : D.Kept S modes w) {a : α}
    (hthread : w.threads i = some ⟨op, .ret a, failed⟩) : D.result op (modes i) a :=
  hkept.follows i _ hthread

end Runs

end Discipline
end Foundation
end Veilence

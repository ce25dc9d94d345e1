import Veilence.Foundation.Outline

/-!
# Tickets that calls are given and use up

Some answers give a call a ticket that nobody has been given before, and some answers and
results use one up.  If every body uses only tickets that it holds, no ticket is ever used
twice, whatever the other calls do.

Main results:

- Theorem {lit}`Tickets.run`: along a run no ticket is used twice, and only tickets that have
  been issued are used.
-/

namespace Veilence
namespace Foundation

variable {Store Op C : Type} {R : C → Type} {α ι : Type}

/-- Which answers give a ticket, and which answers and results use one up. -/
structure Tickets (Op C : Type) (R : C → Type) (α ι : Type) where
  gives : (c : C) → R c → Option ι
  uses : (c : C) → R c → Option ι
  redeems : Op → α → Option ι

namespace Tickets

/-! ## Where tickets are -/

/-- What the calls hold and what has been used: all of it has been issued, and every ticket
is in one place. -/
structure Placed (issued : ι → Prop) (hands : Nat → List ι) (g : List ι) : Prop where
  nodup : g.Nodup
  used : ∀ x ∈ g, issued x
  held : ∀ i, ∀ x ∈ hands i, issued x ∧ x ∉ g ∧ ∀ j, x ∈ hands j → j = i

section Places

variable {here here' : ι → Prop} {hands : Nat → List ι} {g : List ι} {i : Nat}

/-- What is in one place stays there when more tickets may be issued. -/
theorem Placed.mono (hplaced : Placed here hands g) (hstay : ∀ x, here x → here' x) :
    Placed here' hands g where
  nodup := hplaced.nodup
  used := fun x hx => hstay x (hplaced.used x hx)
  held := fun i x hx => ⟨hstay x (hplaced.held i x hx).1, (hplaced.held i x hx).2⟩

/-- A ticket that a call holds is used, and the call keeps others. -/
theorem Placed.use (hplaced : Placed here hands g) (spent : Option ι) (rest : List ι)
    (hspent : ∀ x, spent = some x → x ∈ hands i)
    (hrest : ∀ x ∈ rest, x ∈ hands i ∧ spent ≠ some x) :
    Placed here (Function.update hands i rest) (spent.toList ++ g) := by
  have hold : ∀ j x, x ∈ Function.update hands i rest j → x ∈ hands j := by
    intro j x hx
    by_cases hj : j = i
    · subst hj
      rw [Function.update_self] at hx
      exact (hrest x hx).1
    · rwa [Function.update_of_ne hj] at hx
  refine ⟨?_, ?_, fun j x hx => ?_⟩
  · refine List.nodup_append.mpr ⟨by cases spent <;> simp, hplaced.nodup, ?_⟩
    rintro x hx y hy rfl
    exact (hplaced.held i x (hspent x (by simpa using hx))).2.1 hy
  · intro x hx
    rcases List.mem_append.mp hx with hx | hx
    · exact (hplaced.held i x (hspent x (by simpa using hx))).1
    · exact hplaced.used x hx
  · obtain ⟨hissued, hunused, hsole⟩ := hplaced.held j x (hold j x hx)
    refine ⟨hissued, ?_, fun j' hx' => hsole j' (hold j' x hx')⟩
    intro hmem
    rcases List.mem_append.mp hmem with hmem | hmem
    · have hspend : spent = some x := by simpa using hmem
      obtain rfl := hsole i (hspent x hspend)
      rw [Function.update_self] at hx
      exact (hrest x hx).2 hspend
    · exact hunused hmem

/-- A call that starts or is over holds nothing. -/
theorem Placed.clear (hplaced : Placed here hands g) (i : Nat) :
    Placed here (Function.update hands i []) g :=
  hplaced.use none [] (by simp) (by simp)

/-- A call gets a new ticket. -/
theorem Placed.give (hplaced : Placed here hands g) {given : Option ι}
    (hgiven : ∀ x, given = some x → ¬here x ∧ here' x) (hstay : ∀ x, here x → here' x) :
    Placed here' (Function.update hands i (given.toList ++ hands i)) g := by
  refine ⟨hplaced.nodup, fun x hx => hstay x (hplaced.used x hx), fun j x hx => ?_⟩
  have hcases : ∀ j, x ∈ Function.update hands i (given.toList ++ hands i) j →
      (j = i ∧ given = some x) ∨ x ∈ hands j := by
    intro j hx
    by_cases hj : j = i
    · subst hj
      rw [Function.update_self] at hx
      exact (List.mem_append.mp hx).imp_left fun h => ⟨rfl, by simpa using h⟩
    · rw [Function.update_of_ne hj] at hx
      exact Or.inr hx
  rcases hcases j hx with ⟨rfl, hnew⟩ | hold
  · obtain ⟨hfresh, hissued⟩ := hgiven x hnew
    refine ⟨hissued, fun hmem => hfresh (hplaced.used x hmem), fun j' hj' => ?_⟩
    rcases hcases j' hj' with ⟨heq, -⟩ | hold'
    · exact heq
    · exact absurd (hplaced.held j' x hold').1 hfresh
  · obtain ⟨hissued, hunused, hsole⟩ := hplaced.held j x hold
    refine ⟨hstay x hissued, hunused, fun j' hj' => ?_⟩
    rcases hcases j' hj' with ⟨-, hnew⟩ | hold'
    · exact absurd hissued (hgiven x hnew).1
    · exact hsole j' hold'

end Places

/-! ## Runs -/

variable (T : Tickets Op C R α ι)

section Hand

variable [DecidableEq ι]

/-- The tickets that a call holds after some answers. -/
def hand : Memory C R → List ι
  | [] => []
  | ⟨c, r⟩ :: m => (T.gives c r).toList ++ (hand m).filter fun x => T.uses c r ≠ some x

/-- A call uses a ticket only if it holds it. -/
def Holds (_ : Op) (m : Memory C R) (c : C) : Prop :=
  ∀ r x, T.uses c r = some x → x ∈ T.hand m

/-- The result of a call uses a ticket only if the call holds it. -/
def Redeems (op : Op) (m : Memory C R) (a : α) : Prop :=
  ∀ x, T.redeems op a = some x → x ∈ T.hand m

end Hand

/-- The tickets that have been used along a run. -/
def used : Recorder Store Op C R α (List ι) where
  ran := fun g _ _ c r => (T.uses c r).toList ++ g
  returned := fun g _ op a => (T.redeems op a).toList ++ g

variable [DecidableEq ι]

/-- Tickets are issued once and stay issued, and the bodies use only what they hold. -/
structure Issued (S : System Store Op C R α) (issued : Store → ι → Prop) : Prop where
  fresh : ∀ s c x, T.gives c (S.exec s c).2 = some x → ¬issued s x ∧ issued (S.exec s c).1 x
  exec : ∀ s c x, issued s x → issued (S.exec s c).1 x
  begins : ∀ s op x, issued s x → issued (S.begin s op) x
  done : ∀ s op a x, issued s x → issued (S.done s op a) x
  stop : ∀ s op x, issued s x → issued (S.stop s op) x
  env : ∀ s s' x, S.env s s' → issued s x → issued s' x
  safe : ∀ op, Safe T.Holds op (T.Redeems op) [] (S.body op)

/-- All tickets are in one place at a moment of a run. -/
def Kept (S : System Store Op C R α) (issued : Store → ι → Prop) (w : World Store Op C R α)
    (g : List ι) : Prop :=
  ∃ known : Nat → Memory C R, (informed T.Holds T.Redeems).Kept S known w ∧
    Placed (issued w.store) (fun i => T.hand (known i)) g

variable {T} {S : System Store Op C R α} {issued : Store → ι → Prop}

section Steps

variable {g : List ι}

/-- The hands after one call has learnt something. -/
theorem hands_update (known : Nat → Memory C R) (i : Nat) (m : Memory C R) :
    (fun j => T.hand (Function.update known i m j)) =
      Function.update (fun j => T.hand (known j)) i (T.hand m) := by
  funext j
  by_cases hj : j = i
  · subst hj
    rw [Function.update_self, Function.update_self]
  · rw [Function.update_of_ne hj, Function.update_of_ne hj]

/-- One step keeps all tickets in one place. -/
theorem Kept.step (hissued : T.Issued S issued) {w w' : World Store Op C R α} {l : Label Op}
    (hkept : T.Kept S issued w g) (hstep : S.Step w l w') :
    T.Kept S issued w' (S.record T.used w g l) := by
  obtain ⟨known, hkept, hplaced⟩ := hkept
  cases hstep with
  | @start i op hfree henabled =>
      refine ⟨_, hkept.start ((hissued.safe op).follows false _), ?_⟩
      rw [hands_update]
      exact (hplaced.mono (hissued.begins w.store op)).clear i
  | @exec i op c k failed hthread hlive =>
      have hpermitted : T.Holds op (known i) c := hkept.permitted hthread hlive
      rw [System.record_exec hthread]
      refine ⟨_, hkept.exec hthread hlive trivial, ?_⟩
      rw [hands_update]
      -- first the ticket that is used leaves the hand, then the new one comes into it
      have hused := hplaced.use (T.uses c (S.exec w.store c).2)
        ((T.hand (known i)).filter fun x => T.uses c (S.exec w.store c).2 ≠ some x)
        (hpermitted _) fun x hx => ⟨(List.mem_filter.mp hx).1,
          of_decide_eq_true (List.mem_filter.mp hx).2⟩
      have hgiven := hused.give (i := i) (hissued.fresh w.store c) (hissued.exec w.store c)
      rwa [Function.update_self, Function.update_idem] at hgiven
  | @fail i op c k failed hthread hfallible =>
      exact ⟨known, hkept.fail hthread hfallible, hplaced⟩
  | @stop i t hthread =>
      refine ⟨_, hkept.leave _ _, ?_⟩
      rw [hands_update]
      exact (hplaced.mono (hissued.stop w.store t.op)).clear i
  | @finish i op a failed hthread =>
      rw [System.record_finish hthread]
      refine ⟨_, hkept.leave _ _, ?_⟩
      rw [hands_update]
      have hstay := hplaced.mono (hissued.done w.store op a)
      exact hstay.use _ _ (hkept.result hthread) (by simp [informed, hand])
  | env henv =>
      refine ⟨known, ⟨hkept.follows, hkept.idle⟩, ?_⟩
      exact hplaced.mono fun x => hissued.env w.store _ x henv

end Steps

/-- Along a run no ticket is used twice, and only tickets that have been issued are used. -/
theorem run (hissued : T.Issued S issued) {s : Store} {w : World Store Op C R α} {g : List ι}
    {ok : World Store Op C R α × List ι → Label Op → Prop}
    (hrun : Run (S.Tracked (S.record T.used)) ok (World.initial s, []) (w, g)) :
    g.Nodup ∧ ∀ x ∈ g, issued w.store x := by
  have hstart : T.Kept S issued (World.initial s) [] :=
    ⟨fun _ => [], ⟨by simp [World.initial], by simp [World.initial, informed]⟩,
      ⟨List.nodup_nil, by simp, by simp [hand]⟩⟩
  have hkept := hrun.invariant (I := fun p => T.Kept S issued p.1 p.2) hstart ?_
  · obtain ⟨known, -, hplaced⟩ := hkept
    exact ⟨hplaced.nodup, hplaced.used⟩
  · rintro p l p' hp - ⟨hstep, htrack⟩
    rw [htrack]
    exact hp.step hissued hstep

end Tickets
end Foundation
end Veilence

import Veilence.Foundation.Commands
import Veilence.Foundation.Observed

/-!
# Allowances of calls

Some operations may carry out a limited number of commands of a kind, and the others none.
If every body keeps to this, the commands carried out are bounded by the number of such
operations that were started, however the calls interleave and wherever they end.

Main results:

- Theorem {lit}`Within.bind`: the allowances of the parts of a body add up.
- Theorem {lit}`Kept.step`: every step keeps to what has been allowed.
- Theorem {lit}`run`: so a count of the store is bounded along every run.
-/

namespace Veilence
namespace Foundation

variable {Store Op C : Type} {R : C → Type} {α β : Type}

/-- What a command uses up, which operations have an allowance, and how much it is. -/
structure Allowance (Op C : Type) where
  cost : C → Nat
  takes : Op → Bool
  limit : Nat

namespace Allowance

variable (A : Allowance Op C)

/-- The allowance of an operation. -/
def allowed (op : Op) : Nat :=
  if A.takes op then A.limit else 0

/-- How many operations with an allowance were started. -/
def starts (_ : World Store Op C R α) (started : Nat) : Label Op → Nat
  | .start _ op => if A.takes op then started + 1 else started
  | _ => started

/-- A body uses up at most so much.  A command that fails is free. -/
def Within : Nat → Prog C R α → Prop
  | _, .ret _ => True
  | n, .cmd c k =>
      A.cost c ≤ n ∧ (∀ r, Within (n - A.cost c) (k (some r))) ∧ Within n (k none)

variable {A} {n m : Nat}

/-- A body may be allowed more. -/
theorem Within.mono {p : Prog C R α} (hp : A.Within n p) (hnm : n ≤ m) : A.Within m p := by
  induction p generalizing n m with
  | ret a => trivial
  | cmd c k ih =>
      refine ⟨hp.1.trans hnm, fun r => ?_, ih none hp.2.2 hnm⟩
      exact ih (some r) (hp.2.1 r) (Nat.sub_le_sub_right hnm _)

/-- The allowances of the parts of a body add up. -/
theorem Within.bind {p : Prog C R β} (hp : A.Within n p) {f : β → Prog C R α}
    (hf : ∀ b, A.Within m (f b)) : A.Within (n + m) (p >>= f) := by
  induction p generalizing n with
  | ret b => exact (hf b).mono (Nat.le_add_left m n)
  | cmd c k ih =>
      rw [Prog.cmd_bind]
      refine ⟨hp.1.trans (Nat.le_add_right n m), fun r => ?_, ih none hp.2.2⟩
      have hrest := ih (some r) (hp.2.1 r)
      rwa [← Nat.sub_add_comm hp.1] at hrest

/-- A part that uses up nothing adds nothing. -/
theorem Within.bind_free {p : Prog C R β} (hp : A.Within n p) {f : β → Prog C R α}
    (hf : ∀ b, A.Within 0 (f b)) : A.Within n (p >>= f) :=
  hp.bind hf

/-- A body whose commands are free needs no allowance. -/
theorem within_of_only {p : Prog C R α} (hp : p.Only fun c => A.cost c = 0) :
    A.Within n p := by
  induction p with
  | ret a => trivial
  | cmd c k ih =>
      refine ⟨Nat.le_trans (Nat.le_of_eq hp.1) (Nat.zero_le n), fun r => ?_, ih none (hp.2 none)⟩
      rw [hp.1]
      exact ih (some r) (hp.2 (some r))

/-! ## Runs -/

/-- A count of a store goes up by the cost of a command at most and with nothing else, and
all bodies keep to their allowances. -/
structure Bounds (A : Allowance Op C) (S : System Store Op C R α) (count : Store → Nat) :
    Prop where
  within : ∀ op, A.Within (A.allowed op) (S.body op)
  exec : ∀ s c, count (S.exec s c).1 ≤ count s + A.cost c
  begins : ∀ s op, count (S.begin s op) ≤ count s
  done : ∀ s op a, count (S.done s op a) ≤ count s
  stop : ∀ s op, count (S.stop s op) ≤ count s
  env : ∀ s s', S.env s s' → count s' ≤ count s

/-- The calls in progress keep to what is left of their allowances, and with that the count
stays below what has been allowed. -/
structure Kept (A : Allowance Op C) (count : Store → Nat) (left : Nat →₀ Nat)
    (w : World Store Op C R α) (started : Nat) : Prop where
  within : ∀ i t, w.threads i = some t → A.Within (left i) t.prog
  bound : count w.store + (left.sum fun _ n => n) ≤ A.limit * started

variable {S : System Store Op C R α} {count : Store → Nat} {left : Nat →₀ Nat}
  {w : World Store Op C R α} {started : Nat}

/-- One call changes, with what is left of its allowance. -/
theorem Kept.change (hkept : A.Kept count left w started) {i : Nat}
    {t : Option (Thread Op C R α)} (n : Nat) (store : Store) (log : List (Event Op C α))
    {started' : Nat} (hwithin : ∀ u, t = some u → A.Within n u.prog)
    (hcount : count store + n + A.limit * started ≤
      count w.store + left i + A.limit * started') :
    A.Kept count (left.update i n) ⟨store, w.setThread i t, log⟩ started' := by
  constructor
  · apply World.forall_setThread (P := fun j u => A.Within (left.update i n j) u.prog)
    · intro j hj u hu
      rw [Finsupp.coe_update, Function.update_of_ne hj]
      exact hkept.within j u hu
    · intro u hu
      rw [Finsupp.coe_update, Function.update_self]
      exact hwithin u hu
  · have hsum := Finsupp.sum_update_add left i n (fun _ n => n) (fun _ => rfl) fun _ _ _ => rfl
    have hbound := hkept.bound
    change count store + ((left.update i n).sum fun _ n => n) ≤ A.limit * started'
    omega

/-- Every step keeps to what has been allowed. -/
theorem Kept.step (hbounds : A.Bounds S count) {w' : World Store Op C R α} {l : Label Op}
    (hkept : A.Kept count left w started) (hstep : S.Step w l w') :
    ∃ left', A.Kept count left' w' (A.starts w started l) := by
  cases hstep with
  | @start i op _ _ =>
      refine ⟨_, hkept.change (A.allowed op) _ _ ?_ ?_⟩
      · rintro u ⟨⟩
        exact hbounds.within op
      · have hbegin := hbounds.begins w.store op
        rw [starts, allowed]
        split_ifs
        · rw [Nat.mul_succ]
          omega
        · omega
  | @exec i op c k failed hthread _ =>
      obtain ⟨hcost, hrest, -⟩ := hkept.within i _ hthread
      refine ⟨_, hkept.change (left i - A.cost c) _ _ ?_ ?_⟩
      · rintro u ⟨⟩
        exact hrest _
      · have hexec := hbounds.exec w.store c
        change count (S.exec w.store c).1 + (left i - A.cost c) + A.limit * started ≤
          count w.store + left i + A.limit * started
        omega
  | @fail i op c k failed hthread _ =>
      obtain ⟨-, -, hrest⟩ := hkept.within i _ hthread
      refine ⟨_, hkept.change (left i) _ _ ?_ (Nat.le_refl _)⟩
      rintro u ⟨⟩
      exact hrest
  | @stop i t _ =>
      refine ⟨_, hkept.change 0 _ _ (by simp) ?_⟩
      exact Nat.add_le_add_right ((hbounds.stop w.store t.op).trans (Nat.le_add_right _ _)) _
  | @finish i op a failed _ =>
      refine ⟨_, hkept.change 0 _ _ (by simp) ?_⟩
      exact Nat.add_le_add_right ((hbounds.done w.store op a).trans (Nat.le_add_right _ _)) _
  | env henv =>
      refine ⟨left, hkept.within, ?_⟩
      exact (Nat.add_le_add_right (hbounds.env w.store _ henv) _).trans hkept.bound

/-- The count is bounded along every run by what the operations that were started allow. -/
theorem run (hbounds : A.Bounds S count) {s : Store} (hstart : count s = 0)
    {ok : World Store Op C R α × Nat → Label Op → Prop}
    (hrun : Run (S.Tracked A.starts) ok (World.initial s, 0) (w, started)) :
    count w.store ≤ A.limit * started := by
  have hinitial : A.Kept count 0 (World.initial s : World Store Op C R α) 0 :=
    ⟨by simp [World.initial], by simp [World.initial, hstart]⟩
  have hkept := hrun.invariant (I := fun p => ∃ left, A.Kept count left p.1 p.2)
    ⟨0, hinitial⟩ ?_
  · obtain ⟨left, hkept⟩ := hkept
    exact (Nat.le_add_right _ _).trans hkept.bound
  · rintro p l p' ⟨left, hp⟩ - ⟨hstep, htrack⟩
    rw [htrack]
    exact hp.step hbounds hstep

end Allowance
end Foundation
end Veilence

import Veilence.Foundation.Commands
import Veilence.Foundation.Observed

/-!
# Dues that calls leave and pay

Some answers leave something due, and the call that got the answer pays it with the very
next command.  A due is lost when this command fails and when the call stops before it.
Whatever the other calls do, the dues that have been left are then the payments, the losses
and what is about to be paid.

Main results:

- Theorem {lit}`Prompt.bind`: a prompt body in two parts.
- Theorem {lit}`Balanced.step`: every step keeps the balance.
- Theorem {lit}`run`: so the balance holds along every run.
-/

namespace Veilence
namespace Foundation

variable {Store Op C : Type} {R : C → Type} {α β ι : Type}

/-- Which answers leave something due, and which commands pay. -/
structure Dues (C : Type) (R : C → Type) (ι : Type) where
  leaves : (c : C) → R c → Option ι
  pays : C → Option ι

namespace Dues

variable (D : Dues C R ι)

/-! ## Prompt bodies -/

/-- A body pays what is due with its first command, and so on after every answer. -/
def Prompt : Option ι → Prog C R α → Prop
  | due, .ret _ => due = none
  | due, .cmd c k =>
      D.pays c = due ∧ (∀ r, Prompt (D.leaves c r) (k (some r))) ∧ Prompt none (k none)

/-- What a body pays with its first command. -/
def first : Prog C R α → Option ι
  | .ret _ => none
  | .cmd c _ => D.pays c

variable {D} {due : Option ι}

theorem Prompt.first_eq {p : Prog C R α} (hp : D.Prompt due p) : D.first p = due := by
  cases p with
  | ret a => exact Eq.symm hp
  | cmd c k => exact hp.1

/-- A prompt body in two parts. -/
theorem Prompt.bind {p : Prog C R β} (hp : D.Prompt due p) {f : β → Prog C R α}
    (hf : ∀ b, D.Prompt none (f b)) : D.Prompt due (p >>= f) := by
  induction p generalizing due with
  | ret b =>
      obtain rfl : due = none := hp
      exact hf b
  | cmd c k ih =>
      rw [Prog.cmd_bind]
      exact ⟨hp.1, fun r => ih (some r) (hp.2.1 r), ih none hp.2.2⟩

/-- A body whose commands leave and pay nothing is prompt. -/
theorem prompt_of_only {p : Prog C R α}
    (hp : p.Only fun c => D.pays c = none ∧ ∀ r, D.leaves c r = none) : D.Prompt none p := by
  induction p with
  | ret a => rfl
  | cmd c k ih =>
      refine ⟨hp.1.1, fun r => ?_, ih none (hp.2 none)⟩
      rw [hp.1.2 r]
      exact ih (some r) (hp.2 (some r))

/-! ## The balance of a run -/

/-- What a call is about to pay. -/
def pending (D : Dues C R ι) (w : World Store Op C R α) (i : Nat) : Option ι :=
  (w.threads i).bind fun t => D.first t.prog

/-- What is lost with a step. -/
def lostBy (D : Dues C R ι) (w : World Store Op C R α) : Label Op → Option ι
  | .fail i | .stop i => D.pending w i
  | _ => none

theorem pending_of_thread {w : World Store Op C R α} {i : Nat} {t : Thread Op C R α}
    (hthread : w.threads i = some t) : D.pending w i = D.first t.prog := by
  rw [pending, hthread]
  rfl

theorem pending_of_none {w : World Store Op C R α} {i : Nat} (hthread : w.threads i = none) :
    D.pending w i = none := by
  rw [pending, hthread]
  rfl

theorem pending_setThread (w : World Store Op C R α) (i : Nat) (t : Option (Thread Op C R α))
    (store : Store) (log : List (Event Op C α)) :
    D.pending ⟨store, w.setThread i t, log⟩ =
      Function.update (D.pending w) i (t.bind fun t => D.first t.prog) := by
  ext1 j
  unfold pending
  dsimp only
  by_cases hj : j = i
  · subst hj
    rw [Function.update_self, w.setThread_self]
  · rw [Function.update_of_ne hj, w.setThread_of_ne t hj]

/-- The calls in progress are prompt, and what has been left due has been paid, is lost or is
about to be paid. -/
structure Balanced (D : Dues C R ι) (x : ι) (left paid : Store → Nat) (w : World Store Op C R α)
    (lost : Nat) : Prop where
  prompt : ∀ i t, w.threads i = some t → D.Prompt (D.first t.prog) t.prog
  balance : ∃ calls : Finset Nat, (∀ i, i ∈ calls ↔ D.pending w i = some x) ∧
    paid w.store + lost + calls.card = left w.store

section Balance

variable {x : ι} {left paid : Store → Nat} {w : World Store Op C R α} {lost : Nat}

/-- Never more is paid and lost than was left due. -/
theorem Balanced.le (hbalanced : D.Balanced x left paid w lost) :
    paid w.store + lost ≤ left w.store := by
  obtain ⟨calls, -, hbalance⟩ := hbalanced.balance
  omega

/-- Where no call is about to pay, all that was left due has been paid or is lost. -/
theorem Balanced.eq (hbalanced : D.Balanced x left paid w lost)
    (hsettled : ∀ i, D.pending w i ≠ some x) : paid w.store + lost = left w.store := by
  obtain ⟨calls, hcalls, hbalance⟩ := hbalanced.balance
  have hempty : calls = ∅ :=
    Finset.eq_empty_of_forall_notMem fun i hi => hsettled i ((hcalls i).mp hi)
  rwa [hempty, Finset.card_empty, Nat.add_zero] at hbalance

end Balance

section Counting

variable [DecidableEq ι] (x : ι)

/-- How often something is due: once or not at all. -/
def once (due : Option ι) : Nat :=
  if due = some x then 1 else 0

@[simp]
theorem once_none : once x none = 0 :=
  if_neg fun h => Option.some_ne_none x h.symm

/-- How often something has been lost after a step. -/
def lose (D : Dues C R ι) (w : World Store Op C R α) (lost : Nat) (l : Label Op) : Nat :=
  lost + once x (D.lostBy w l)

/-- The calls that are about to pay, counted after one of them has changed. -/
theorem exists_calls_update {due : Nat → Option ι} {calls : Finset Nat}
    (hcalls : ∀ i, i ∈ calls ↔ due i = some x) (i : Nat) (new : Option ι) :
    ∃ calls' : Finset Nat, (∀ j, j ∈ calls' ↔ Function.update due i new j = some x) ∧
      calls'.card + once x (due i) = calls.card + once x new := by
  have herase : (calls.erase i).card + once x (due i) = calls.card := by
    by_cases hi : due i = some x
    · rw [once, if_pos hi]
      exact Finset.card_erase_add_one ((hcalls i).mpr hi)
    · rw [once, if_neg hi, Finset.erase_eq_of_notMem fun h => hi ((hcalls i).mp h)]
      rfl
  have hother : ∀ j, j ≠ i → (j ∈ calls ↔ Function.update due i new j = some x) := by
    intro j hj
    rw [Function.update_of_ne hj]
    exact hcalls j
  by_cases hnew : new = some x
  · refine ⟨insert i (calls.erase i), fun j => ?_, ?_⟩
    · by_cases hj : j = i
      · subst hj
        simp [hnew]
      · simpa [hj] using hother j hj
    · rw [Finset.card_insert_of_notMem (Finset.notMem_erase i calls), once.eq_1 x new,
        if_pos hnew]
      omega
  · refine ⟨calls.erase i, fun j => ?_, ?_⟩
    · by_cases hj : j = i
      · subst hj
        simp [hnew]
      · simpa [hj] using hother j hj
    · rw [once.eq_1 x new, if_neg hnew]
      exact herase

/-- Two counts of a store go up with the dues and with the payments of one kind and stay
otherwise, and all bodies are prompt. -/
structure Counted (D : Dues C R ι) (S : System Store Op C R α) (left paid : Store → Nat) :
    Prop where
  prompt : ∀ op, D.Prompt none (S.body op)
  left_exec : ∀ s c, left (S.exec s c).1 = left s + once x (D.leaves c (S.exec s c).2)
  paid_exec : ∀ s c, paid (S.exec s c).1 = paid s + once x (D.pays c)
  begins : ∀ s op, left (S.begin s op) = left s ∧ paid (S.begin s op) = paid s
  done : ∀ s op a, left (S.done s op a) = left s ∧ paid (S.done s op a) = paid s
  stop : ∀ s op, left (S.stop s op) = left s ∧ paid (S.stop s op) = paid s
  env : ∀ s s', S.env s s' → left s' = left s ∧ paid s' = paid s

section Runs

variable {x} {S : System Store Op C R α} {left paid : Store → Nat} {w : World Store Op C R α}
  {lost : Nat}

/-- One call changes: the counts make up for what it is about to pay. -/
theorem Balanced.change (hbalanced : D.Balanced x left paid w lost) {i : Nat}
    {t : Option (Thread Op C R α)} (store : Store) (log : List (Event Op C α)) {lost' : Nat}
    (hprompt : ∀ u, t = some u → D.Prompt (D.first u.prog) u.prog)
    (hcount : paid store + lost' + once x (t.bind fun t => D.first t.prog) + left w.store =
      left store + paid w.store + lost + once x (D.pending w i)) :
    D.Balanced x left paid ⟨store, w.setThread i t, log⟩ lost' := by
  refine ⟨World.forall_setThread (P := fun _ u => D.Prompt (D.first u.prog) u.prog)
    (fun j _ u hu => hbalanced.prompt j u hu) hprompt, ?_⟩
  obtain ⟨calls, hcalls, hbalance⟩ := hbalanced.balance
  obtain ⟨calls', hcalls', hcard⟩ :=
    exists_calls_update x hcalls i (t.bind fun t => D.first t.prog)
  refine ⟨calls', fun j => ?_, ?_⟩
  · rw [pending_setThread]
    exact hcalls' j
  · change paid store + lost' + calls'.card = left store
    omega

/-- Every step keeps the balance. -/
theorem Balanced.step (hcounted : D.Counted x S left paid) {w' : World Store Op C R α}
    {l : Label Op} (hbalanced : D.Balanced x left paid w lost) (hstep : S.Step w l w') :
    D.Balanced x left paid w' (D.lose x w lost l) := by
  cases hstep with
  | @start i op hfree _ =>
      have hbody := hcounted.prompt op
      obtain ⟨hleft, hpaid⟩ := hcounted.begins w.store op
      apply hbalanced.change
      · rintro u ⟨⟩
        rwa [hbody.first_eq]
      · rw [hleft, hpaid, pending_of_none hfree]
        simp only [Option.bind_some, hbody.first_eq, lose, lostBy, once_none]
        omega
  | @exec i op c k failed hthread _ =>
      obtain ⟨hpays, hrest, -⟩ := hbalanced.prompt i _ hthread
      have hanswer := hrest (S.exec w.store c).2
      have hpending : D.pending w i = D.pays c := pending_of_thread hthread
      apply hbalanced.change
      · rintro u ⟨⟩
        rwa [hanswer.first_eq]
      · rw [hcounted.left_exec, hcounted.paid_exec, hpending]
        simp only [Option.bind_some, hanswer.first_eq, lose, lostBy, once_none]
        omega
  | @fail i op c k failed hthread _ =>
      obtain ⟨hpays, -, hrest⟩ := hbalanced.prompt i _ hthread
      apply hbalanced.change
      · rintro u ⟨⟩
        rwa [hrest.first_eq]
      · simp only [Option.bind_some, hrest.first_eq, lose, lostBy, once_none]
        omega
  | @stop i t hthread =>
      obtain ⟨hleft, hpaid⟩ := hcounted.stop w.store t.op
      apply hbalanced.change
      · simp
      · rw [hleft, hpaid]
        simp only [Option.bind_none, lose, lostBy, once_none]
        omega
  | @finish i op a failed hthread =>
      obtain ⟨hleft, hpaid⟩ := hcounted.done w.store op a
      have hpending : D.pending w i = none := pending_of_thread hthread
      apply hbalanced.change
      · simp
      · rw [hleft, hpaid, hpending]
        simp only [Option.bind_none, lose, lostBy, once_none]
        omega
  | env henv =>
      obtain ⟨hleft, hpaid⟩ := hcounted.env w.store _ henv
      obtain ⟨calls, hcalls, hbalance⟩ := hbalanced.balance
      refine ⟨hbalanced.prompt, calls, hcalls, ?_⟩
      rw [← hleft, ← hpaid] at hbalance
      simpa only [lose, lostBy, once_none, Nat.add_zero] using hbalance

/-- The balance holds along every run that starts with nothing due. -/
theorem run (hcounted : D.Counted x S left paid) {s : Store} (hstart : paid s = left s)
    {ok : World Store Op C R α × Nat → Label Op → Prop}
    (hrun : Run (S.Tracked (D.lose x)) ok (World.initial s, 0) (w, lost)) :
    D.Balanced x left paid w lost := by
  have hinitial : D.Balanced x left paid (World.initial s : World Store Op C R α) 0 := by
    refine ⟨by simp [World.initial], ∅, by simp [pending, World.initial], ?_⟩
    simpa [World.initial] using hstart
  have hbalanced := hrun.invariant (I := fun p => D.Balanced x left paid p.1 p.2) hinitial ?_
  · exact hbalanced
  · rintro p l p' hp - ⟨hstep, htrack⟩
    rw [htrack]
    exact hp.step hcounted hstep

end Runs

end Counting

end Dues
end Foundation
end Veilence

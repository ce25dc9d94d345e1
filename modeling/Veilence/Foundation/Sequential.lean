import Veilence.Foundation.Program

/-!
# Programs that run alone

A program whose commands nobody else interferes with.  Its runs are all the ways in which
its commands succeed or fail.  {lit}`Always` says of a program and a state that an
invariant holds in every state on the way and a postcondition at every end; it is
computed along the program, so a loop over a list is treated by induction over the list.

Main results:

- Theorem {lit}`Always.bind`: two parts of a program.
- Theorem {lit}`Always.of_steps`: every run of the program stays within the invariant.
- Theorem {lit}`Machine.steps_run`: the run without a failure is one of the runs.
-/

namespace Veilence
namespace Foundation

/-- How commands work on a store, and which of them can fail. -/
structure Machine (Store C : Type) (R : C → Type) where
  exec : Store → (c : C) → Store × R c
  fallible : C → Bool

variable {Store C : Type} {R : C → Type} {α β : Type}

namespace Machine

variable (m : Machine Store C R)

/-- A store and the rest of a program that a program can reach. -/
inductive Steps (p : Prog C R α) (s : Store) : Prog C R α → Store → Prop where
  | refl : Steps p s p s
  | exec {c : C} {k : Option (R c) → Prog C R α} {s' : Store} (hsteps : Steps p s (.cmd c k) s') :
      Steps p s (k (some (m.exec s' c).2)) (m.exec s' c).1
  | fail {c : C} {k : Option (R c) → Prog C R α} {s' : Store} (hsteps : Steps p s (.cmd c k) s')
      (hfallible : m.fallible c = true) : Steps p s (k none) s'

/-- The run of a program in which no command fails. -/
def run : Prog C R α → Store → Store × α
  | .ret a, s => (s, a)
  | .cmd c k, s => run (k (some (m.exec s c).2)) (m.exec s c).1

/-- The run of a program in which the command at a position fails, if there is one. -/
def runFailing : Option Nat → Prog C R α → Store → Store × α
  | _, .ret a, s => (s, a)
  | some 0, .cmd _ k, s => runFailing none (k none) s
  | some (n + 1), .cmd c k, s =>
      runFailing (some n) (k (some (m.exec s c).2)) (m.exec s c).1
  | none, .cmd c k, s => runFailing none (k (some (m.exec s c).2)) (m.exec s c).1

/-- The position of the failing command, counted from the second command on. -/
def advance : Option Nat → Option Nat
  | some (n + 1) => some n
  | _ => none

/-- The invariant holds at every moment of every run, and the postcondition at the end. -/
def Always (inv : Store → Prop) (post : Store → α → Prop) : Prog C R α → Store → Prop
  | .ret a, s => inv s ∧ post s a
  | .cmd c k, s =>
      inv s ∧ Always inv post (k (some (m.exec s c).2)) (m.exec s c).1 ∧
        (m.fallible c = true → Always inv post (k none) s)

variable {m} {inv : Store → Prop} {s s' : Store}

/-- The invariant holds now. -/
theorem Always.now {post : Store → α → Prop} {p : Prog C R α} (hp : m.Always inv post p s) :
    inv s := by
  cases p with
  | ret a => exact hp.1
  | cmd c k => exact hp.1

/-- A command whose answer does not matter. -/
theorem Always.command {post : Store → α → Prop} {c : C} {k : Option (R c) → Prog C R α}
    (hnow : inv s) (hok : ∀ r, m.Always inv post (k (some r)) (m.exec s c).1)
    (hfail : m.Always inv post (k none) s) : m.Always inv post (.cmd c k) s :=
  ⟨hnow, hok _, fun _ => hfail⟩

/-- A weaker postcondition holds as well. -/
theorem Always.mono {post post' : Store → α → Prop} {p : Prog C R α}
    (hp : m.Always inv post p s) (hpost : ∀ s a, post s a → post' s a) :
    m.Always inv post' p s := by
  induction p generalizing s with
  | ret a => exact ⟨hp.1, hpost s a hp.2⟩
  | cmd c k ih =>
      refine ⟨hp.1, ih _ hp.2.1, fun hfallible => ?_⟩
      exact ih _ (hp.2.2 hfallible)

/-- The second part of a program starts where the first one ends. -/
theorem Always.bind {post : Store → α → Prop} {p : Prog C R β} {f : β → Prog C R α}
    (hp : m.Always inv (fun s b => m.Always inv post (f b) s) p s) :
    m.Always inv post (p >>= f) s := by
  induction p generalizing s with
  | ret b => exact hp.2
  | cmd c k ih =>
      rw [Prog.cmd_bind]
      refine ⟨hp.1, ih _ hp.2.1, fun hfallible => ?_⟩
      exact ih _ (hp.2.2 hfallible)

/-- What is true of a program is true of the rest of it. -/
theorem Always.of_steps {post : Store → α → Prop} {p p' : Prog C R α}
    (hp : m.Always inv post p s) (hsteps : m.Steps p s p' s') : m.Always inv post p' s' := by
  induction hsteps with
  | refl => exact hp
  | exec _ ih => exact ih.2.1
  | fail _ hfallible ih => exact ih.2.2 hfallible

/-- The steps before a step. -/
theorem Steps.cons {c : C} {k : Option (R c) → Prog C R α} {p' : Prog C R α}
    (hsteps : m.Steps (k (some (m.exec s c).2)) (m.exec s c).1 p' s') :
    m.Steps (.cmd c k) s p' s' := by
  induction hsteps with
  | refl => exact .exec .refl
  | exec _ ih => exact .exec ih
  | fail _ hfallible ih => exact .fail ih hfallible

/-- A run without failures is a run. -/
theorem steps_run (p : Prog C R α) (s : Store) :
    m.Steps p s (.ret (m.run p s).2) (m.run p s).1 := by
  induction p generalizing s with
  | ret a => exact .refl
  | cmd c k ih => exact .cons (ih _ _)

/-- The run of a program in two parts. -/
theorem run_bind (p : Prog C R β) (f : β → Prog C R α) (s : Store) :
    m.run (p >>= f) s = m.run (f (m.run p s).2) (m.run p s).1 := by
  induction p generalizing s with
  | ret b => rfl
  | cmd c k ih => exact ih _ _

/-- The run of a program whose first part is known. -/
theorem run_bind_of {p : Prog C R β} {b : β} (hp : m.run p s = (s', b)) (f : β → Prog C R α) :
    m.run (p >>= f) s = m.run (f b) s' := by
  rw [run_bind, hp]

/-! ### Runs with one failure -/

@[simp]
theorem advance_eq_some {position : Option Nat} {n : Nat} :
    advance position = some n ↔ position = some (n + 1) := by
  rcases position with _ | _ | n <;> simp [advance]

/-- The first command fails, or the failing command is among the rest. -/
theorem runFailing_cmd (position : Option Nat) (c : C) (k : Option (R c) → Prog C R α) (s : Store) :
    m.runFailing position (.cmd c k) s =
      if position = some 0 then m.runFailing none (k none) s
      else m.runFailing (advance position) (k (some (m.exec s c).2)) (m.exec s c).1 := by
  rcases position with _ | _ | n <;> rfl

@[simp]
theorem runFailing_ret (position : Option Nat) (a : α) (s : Store) :
    m.runFailing position (.ret a) s = (s, a) := by
  rcases position with _ | _ | n <;> rfl

/-- A run without a failing command is the run without failures. -/
theorem runFailing_none (p : Prog C R α) (s : Store) : m.runFailing none p s = m.run p s := by
  induction p generalizing s with
  | ret a => rfl
  | cmd c k ih => exact ih _ _

/-- A program whose result is changed at the end. -/
theorem runFailing_map (g : β → α) (position : Option Nat) (p : Prog C R β) (s : Store) :
    m.runFailing position (p >>= fun b => .ret (g b)) s =
      ((m.runFailing position p s).1, g (m.runFailing position p s).2) := by
  induction p generalizing position s with
  | ret b => rw [Prog.ret_bind, runFailing_ret, runFailing_ret]
  | cmd c k ih =>
      rw [Prog.cmd_bind, runFailing_cmd, runFailing_cmd]
      split_ifs
      · exact ih _ _ _
      · exact ih _ _ _

/-- What the second part of a program returns in any case, the whole program returns. -/
theorem runFailing_bind_result {Q : α → Prop} {f : β → Prog C R α}
    (hf : ∀ position b s, Q (m.runFailing position (f b) s).2) (position : Option Nat)
    (p : Prog C R β) (s : Store) : Q (m.runFailing position (p >>= f) s).2 := by
  induction p generalizing position s with
  | ret b => exact hf position b s
  | cmd c k ih =>
      rw [Prog.cmd_bind, runFailing_cmd]
      split_ifs
      · exact ih _ _ _
      · exact ih _ _ _

end Machine
end Foundation
end Veilence

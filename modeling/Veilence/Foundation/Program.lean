import Mathlib
import Veilence.Foundation.Transition

/-!
# Concurrent calls over a shared store

Calls of a program that works on a shared store through atomic commands.  The body
of a call is a tree of commands: each command either succeeds, with a response, or
fails, and the rest of the body depends on which.  Any number of calls run at the
same time, one command of one call at a time; a call may stop after any command.

Main results:

- Theorems {lit}`Prog.cmd_bind` and {lit}`Prog.call_bind`: a body written with
  {lit}`do` is a chain of commands.
- Theorem {lit}`System.Step.threads_of_ne`: a step touches at most one call.
- Theorems {lit}`System.run_of_steps?` and {lit}`System.run_of_steps?_alone`: executed
  steps are a run.
-/

namespace Veilence
namespace Foundation

/-! ## Programs -/

/-- The body of a call: a result, or a command and what follows its response.  The
response {lit}`none` says that the command failed. -/
inductive Prog (C : Type) (R : C → Type) (α : Type) where
  | ret (a : α)
  | cmd (c : C) (k : Option (R c) → Prog C R α)

namespace Prog

variable {C : Type} {R : C → Type} {α β : Type}

/-- Run one program after another. -/
def bind : Prog C R α → (α → Prog C R β) → Prog C R β
  | .ret a, f => f a
  | .cmd c k, f => .cmd c fun r => (k r).bind f

instance : Monad (Prog C R) where
  pure := .ret
  bind := bind

/-- A single command. -/
def call (c : C) : Prog C R (Option (R c)) :=
  .cmd c .ret

@[simp]
theorem pure_eq (a : α) : (pure a : Prog C R α) = .ret a :=
  rfl

@[simp]
theorem ret_bind (a : α) (f : α → Prog C R β) : (Prog.ret a : Prog C R α) >>= f = f a :=
  rfl

@[simp]
theorem cmd_bind (c : C) (k : Option (R c) → Prog C R α) (f : α → Prog C R β) :
    Prog.cmd c k >>= f = .cmd c fun r => k r >>= f :=
  rfl

@[simp]
theorem call_bind (c : C) (f : Option (R c) → Prog C R β) : call c >>= f = .cmd c f :=
  rfl

theorem bind_assoc {γ : Type} (p : Prog C R α) (f : α → Prog C R β) (g : β → Prog C R γ) :
    p >>= f >>= g = p >>= fun a => f a >>= g := by
  induction p with
  | ret a => rfl
  | cmd c k ih => exact congrArg (Prog.cmd c) (funext ih)

end Prog

/-! ## Systems and their steps -/

/-- A program of calls: what each call does, and how commands work on the store.
`sticky` says that after one failed command the later ones of the same call fail as
well; `begin`, `done` and `stop` are what the start, the end and the loss of a call do to
the store. -/
structure System (Store Op C : Type) (R : C → Type) (α : Type) where
  body : Op → Prog C R α
  exec : Store → (c : C) → Store × R c
  fallible : C → Bool
  sticky : Bool
  enabled : Store → Op → Prop
  begin : Store → Op → Store
  done : Store → Op → α → Store
  stop : Store → Op → Store
  env : Store → Store → Prop

/-- A call in progress. -/
structure Thread (Op C : Type) (R : C → Type) (α : Type) where
  op : Op
  prog : Prog C R α
  failed : Bool

/-- What has happened: the commands that took effect and the results of calls. -/
inductive Event (Op C α : Type) where
  | ran (op : Op) (c : C)
  | returned (op : Op) (a : α)
deriving DecidableEq

/-- The store, the calls in progress and the events so far, the latest first. -/
structure World (Store Op C : Type) (R : C → Type) (α : Type) where
  store : Store
  threads : Nat → Option (Thread Op C R α)
  log : List (Event Op C α)

/-- What a step is about. -/
inductive Label (Op : Type) where
  | start (i : Nat) (op : Op)
  | exec (i : Nat)
  | fail (i : Nat)
  | stop (i : Nat)
  | finish (i : Nat)
  | env

/-- The next commands of a call take effect. -/
def Label.execs {Op : Type} (i commands : Nat) : List (Label Op) :=
  List.replicate commands (.exec i)

/-- A call that runs alone and whose commands take effect. -/
def Label.alone {Op : Type} (i : Nat) (op : Op) (commands : Nat) : List (Label Op) :=
  .start i op :: (Label.execs i commands ++ [.finish i])

/-- The call that a label is about. -/
def Label.thread {Op : Type} : Label Op → Option Nat
  | .start i _ | .exec i | .fail i | .stop i | .finish i => some i
  | .env => none

variable {Store Op C : Type} {R : C → Type} {α : Type}

namespace World

/-- The world before the first call. -/
def initial (store : Store) : World Store Op C R α :=
  ⟨store, fun _ => none, []⟩

/-- No call is in progress. -/
def Quiescent (w : World Store Op C R α) : Prop :=
  ∀ i, w.threads i = none

/-- The threads with one of them replaced. -/
def setThread (w : World Store Op C R α) (i : Nat) (t : Option (Thread Op C R α)) :
    Nat → Option (Thread Op C R α) :=
  Function.update w.threads i t

@[simp]
theorem setThread_self (w : World Store Op C R α) (i : Nat) (t : Option (Thread Op C R α)) :
    w.setThread i t i = t := by
  simp [setThread]

theorem setThread_of_ne (w : World Store Op C R α) {i j : Nat} (t : Option (Thread Op C R α))
    (hij : j ≠ i) : w.setThread i t j = w.threads j := by
  simp [setThread, hij]

/-- The operations in progress. -/
def ops (w : World Store Op C R α) (i : Nat) : Option Op :=
  (w.threads i).map Thread.op

/-- The operations after a call has changed. -/
theorem ops_setThread (w : World Store Op C R α) (i : Nat) (t : Option (Thread Op C R α))
    (store : Store) (log : List (Event Op C α)) :
    ops ⟨store, w.setThread i t, log⟩ = Function.update w.ops i (t.map Thread.op) := by
  ext1 j
  unfold ops
  dsimp only
  by_cases hj : j = i
  · subst hj
    rw [Function.update_self, w.setThread_self]
  · rw [Function.update_of_ne hj, w.setThread_of_ne t hj]

/-- What the calls satisfy, they satisfy after one of them has changed. -/
theorem forall_setThread {w : World Store Op C R α} {i : Nat}
    {t : Option (Thread Op C R α)} {P : Nat → Thread Op C R α → Prop}
    (hold : ∀ j, j ≠ i → ∀ u, w.threads j = some u → P j u) (hnew : ∀ u, t = some u → P i u) :
    ∀ j u, w.setThread i t j = some u → P j u := by
  intro j u hu
  by_cases hj : j = i
  · subst hj
    rw [w.setThread_self] at hu
    exact hnew u hu
  · rw [w.setThread_of_ne t hj] at hu
    exact hold j hj u hu

end World

namespace System

variable (S : System Store Op C R α)

/-- One step of the system. -/
inductive Step : World Store Op C R α → Label Op → World Store Op C R α → Prop where
  | start {w : World Store Op C R α} {i : Nat} {op : Op} (hfree : w.threads i = none)
      (henabled : S.enabled w.store op) :
      Step w (.start i op)
        ⟨S.begin w.store op, w.setThread i (some ⟨op, S.body op, false⟩), w.log⟩
  | exec {w : World Store Op C R α} {i : Nat} {op : Op} {c : C}
      {k : Option (R c) → Prog C R α} {failed : Bool}
      (hthread : w.threads i = some ⟨op, .cmd c k, failed⟩)
      (hlive : S.sticky = true → S.fallible c = true → failed = false) :
      Step w (.exec i)
        ⟨(S.exec w.store c).1,
          w.setThread i (some ⟨op, k (some (S.exec w.store c).2), failed⟩),
          .ran op c :: w.log⟩
  | fail {w : World Store Op C R α} {i : Nat} {op : Op} {c : C}
      {k : Option (R c) → Prog C R α} {failed : Bool}
      (hthread : w.threads i = some ⟨op, .cmd c k, failed⟩)
      (hfallible : S.fallible c = true) :
      Step w (.fail i) ⟨w.store, w.setThread i (some ⟨op, k none, true⟩), w.log⟩
  | stop {w : World Store Op C R α} {i : Nat} {t : Thread Op C R α}
      (hthread : w.threads i = some t) :
      Step w (.stop i) ⟨S.stop w.store t.op, w.setThread i none, w.log⟩
  | finish {w : World Store Op C R α} {i : Nat} {op : Op} {a : α} {failed : Bool}
      (hthread : w.threads i = some ⟨op, .ret a, failed⟩) :
      Step w (.finish i)
        ⟨S.done w.store op a, w.setThread i none, .returned op a :: w.log⟩
  | env {w : World Store Op C R α} {store : Store} (henv : S.env w.store store) :
      Step w .env ⟨store, w.threads, w.log⟩

/-- A step touches at most one call. -/
theorem Step.threads_of_ne {S : System Store Op C R α} {w w' : World Store Op C R α}
    {l : Label Op} (hstep : S.Step w l w') {j : Nat} (hj : l.thread ≠ some j) :
    w'.threads j = w.threads j := by
  cases hstep with
  | start _ _ => exact w.setThread_of_ne _ fun heq => hj (heq ▸ rfl)
  | exec _ _ => exact w.setThread_of_ne _ fun heq => hj (heq ▸ rfl)
  | fail _ _ => exact w.setThread_of_ne _ fun heq => hj (heq ▸ rfl)
  | stop _ => exact w.setThread_of_ne _ fun heq => hj (heq ▸ rfl)
  | finish _ => exact w.setThread_of_ne _ fun heq => hj (heq ▸ rfl)
  | env _ => rfl

/-- An operation in progress after a step has started with it, or it has been in progress and
has not been left. -/
theorem Step.of_ops {S : System Store Op C R α} {w w' : World Store Op C R α} {l : Label Op}
    (hstep : S.Step w l w') {i : Nat} {op : Op} (hop : w'.ops i = some op) :
    l = .start i op ∨ (w.ops i = some op ∧ l ≠ .stop i ∧ l ≠ .finish i) := by
  by_cases hi : l.thread = some i
  · cases hstep with
    | start _ _ =>
        obtain rfl := Option.some.inj hi
        rw [w.ops_setThread, Function.update_self] at hop
        exact Or.inl (by rw [← Option.some.inj hop])
    | exec hthread _ =>
        obtain rfl := Option.some.inj hi
        rw [w.ops_setThread, Function.update_self] at hop
        exact Or.inr ⟨(congrArg (Option.map Thread.op) hthread).trans hop, by simp, by simp⟩
    | fail hthread _ =>
        obtain rfl := Option.some.inj hi
        rw [w.ops_setThread, Function.update_self] at hop
        exact Or.inr ⟨(congrArg (Option.map Thread.op) hthread).trans hop, by simp, by simp⟩
    | stop _ =>
        obtain rfl := Option.some.inj hi
        rw [w.ops_setThread, Function.update_self] at hop
        exact absurd hop.symm (Option.some_ne_none op)
    | finish _ =>
        obtain rfl := Option.some.inj hi
        rw [w.ops_setThread, Function.update_self] at hop
        exact absurd hop.symm (Option.some_ne_none op)
    | env _ => exact absurd hi.symm (Option.some_ne_none i)
  · rw [World.ops, hstep.threads_of_ne hi] at hop
    exact Or.inr ⟨hop, fun h => hi (by rw [h]; rfl), fun h => hi (by rw [h]; rfl)⟩

/-! ## Executing runs -/

section Execution

variable [∀ s op, Decidable (S.enabled s op)]

/-- Take the step with a given label, if it is possible.  Steps of the environment are
not taken. -/
def step? (w : World Store Op C R α) : Label Op → Option (World Store Op C R α)
  | .start i op =>
      match w.threads i with
      | some _ => none
      | none =>
          if S.enabled w.store op then
            some ⟨S.begin w.store op, w.setThread i (some ⟨op, S.body op, false⟩), w.log⟩
          else none
  | .exec i =>
      match w.threads i with
      | some ⟨op, .cmd c k, failed⟩ =>
          if S.sticky = true ∧ S.fallible c = true ∧ failed = true then none
          else
            some ⟨(S.exec w.store c).1,
              w.setThread i (some ⟨op, k (some (S.exec w.store c).2), failed⟩),
              .ran op c :: w.log⟩
      | _ => none
  | .fail i =>
      match w.threads i with
      | some ⟨op, .cmd c k, _⟩ =>
          if S.fallible c = true then
            some ⟨w.store, w.setThread i (some ⟨op, k none, true⟩), w.log⟩
          else none
      | _ => none
  | .stop i =>
      match w.threads i with
      | some t => some ⟨S.stop w.store t.op, w.setThread i none, w.log⟩
      | none => none
  | .finish i =>
      match w.threads i with
      | some ⟨op, .ret a, _⟩ =>
          some ⟨S.done w.store op a, w.setThread i none, .returned op a :: w.log⟩
      | _ => none
  | .env => none

/-- Take steps with given labels as long as each passes a check. -/
def steps? (check : World Store Op C R α → Label Op → Bool) (w : World Store Op C R α) :
    List (Label Op) → Option (World Store Op C R α)
  | [] => some w
  | l :: ls =>
      if check w l then (S.step? w l).bind fun w' => steps? check w' ls else none

variable {S} {w w' : World Store Op C R α}

/-- An executed step is a step. -/
theorem step_of_step? {l : Label Op} (hstep : S.step? w l = some w') : S.Step w l w' := by
  cases l with
  | start i op =>
      simp only [step?] at hstep
      split at hstep
      · simp at hstep
      · rename_i hfree
        split_ifs at hstep with henabled
        obtain rfl := Option.some.inj hstep
        exact .start hfree henabled
  | exec i =>
      simp only [step?] at hstep
      split at hstep
      · rename_i op c k failed hthread
        split_ifs at hstep with hdead
        obtain rfl := Option.some.inj hstep
        refine .exec hthread fun hsticky hfallible => ?_
        simpa [hsticky, hfallible] using hdead
      · simp at hstep
  | fail i =>
      simp only [step?] at hstep
      split at hstep
      · rename_i op c k failed hthread
        split_ifs at hstep with hfallible
        obtain rfl := Option.some.inj hstep
        exact .fail hthread hfallible
      · simp at hstep
  | stop i =>
      simp only [step?] at hstep
      split at hstep
      · rename_i t hthread
        obtain rfl := Option.some.inj hstep
        exact .stop hthread
      · simp at hstep
  | finish i =>
      simp only [step?] at hstep
      split at hstep
      · rename_i op a failed hthread
        obtain rfl := Option.some.inj hstep
        exact .finish hthread
      · simp at hstep
  | env => simp [step?] at hstep

variable {check : World Store Op C R α → Label Op → Bool}

/-- The first executed step and the rest. -/
theorem exists_of_steps?_cons {l : Label Op} {ls : List (Label Op)}
    (hsteps : S.steps? check w (l :: ls) = some w') :
    ∃ mid, check w l = true ∧ S.Step w l mid ∧ S.steps? check mid ls = some w' := by
  rw [steps?] at hsteps
  split_ifs at hsteps with hcheck
  obtain ⟨mid, hmid, hrest⟩ := Option.bind_eq_some_iff.mp hsteps
  exact ⟨mid, hcheck, step_of_step? hmid, hrest⟩

/-- Executed steps are a run under any condition that the check implies. -/
theorem run_of_steps? {ok : World Store Op C R α → Label Op → Prop}
    (hok : ∀ w l, check w l = true → ok w l) {ls : List (Label Op)}
    (hsteps : S.steps? check w ls = some w') : Run S.Step ok w w' := by
  induction ls generalizing w with
  | nil =>
      obtain rfl := Option.some.inj hsteps
      exact Run.refl _
  | cons l ls ih =>
      obtain ⟨mid, hcheck, hstep, hrest⟩ := exists_of_steps?_cons hsteps
      exact ((Run.refl w).snoc hstep (hok w l hcheck)).trans (ih hrest)

/-- The same for steps of a single call, while no other call is in progress. -/
theorem run_of_steps?_alone {ok : World Store Op C R α → Label Op → Prop} {i : Nat}
    (hok : ∀ w l, (∀ j ≠ i, w.threads j = none) → check w l = true → ok w l)
    {ls : List (Label Op)} (hls : ∀ l ∈ ls, l.thread = some i)
    (halone : ∀ j ≠ i, w.threads j = none) (hsteps : S.steps? check w ls = some w') :
    Run S.Step ok w w' := by
  induction ls generalizing w with
  | nil =>
      obtain rfl := Option.some.inj hsteps
      exact Run.refl _
  | cons l ls ih =>
      obtain ⟨mid, hcheck, hstep, hrest⟩ := exists_of_steps?_cons hsteps
      have hstay : ∀ j ≠ i, mid.threads j = none := by
        intro j hj
        rw [hstep.threads_of_ne (by simpa [hls l] using Ne.symm hj), halone j hj]
      exact ((Run.refl w).snoc hstep (hok w l halone hcheck)).trans
        (ih (fun l' hl' => hls l' (List.mem_cons_of_mem l hl')) hstay hrest)

/-- Executed steps whose last state passes a test reach a state that passes it. -/
theorem exists_of_steps? (S : System Store Op C R α) [∀ s op, Decidable (S.enabled s op)]
    (check : World Store Op C R α → Label Op → Bool) (w : World Store Op C R α)
    (ls : List (Label Op)) (test : World Store Op C R α → Bool)
    (htest : (S.steps? check w ls).any test = true) :
    ∃ w', S.steps? check w ls = some w' ∧ test w' = true := by
  cases hsteps : S.steps? check w ls with
  | none => simp [hsteps] at htest
  | some w' => exact ⟨w', rfl, by simpa [hsteps] using htest⟩

/-- Calls that no label is about are as before. -/
theorem threads_of_steps? {ls : List (Label Op)} (hsteps : S.steps? check w ls = some w')
    {j : Nat} (hj : ∀ l ∈ ls, l.thread ≠ some j) : w'.threads j = w.threads j := by
  induction ls generalizing w with
  | nil =>
      obtain rfl := Option.some.inj hsteps
      rfl
  | cons l ls ih =>
      obtain ⟨mid, _, hstep, hrest⟩ := exists_of_steps?_cons hsteps
      rw [ih hrest fun l' hl' => hj l' (List.mem_cons_of_mem l hl'),
        hstep.threads_of_ne (hj l (by simp))]

/-- A run that ends with its calls finished ends without calls. -/
theorem quiescent_of_steps? {ls : List (Label Op)} (hsteps : S.steps? check w ls = some w')
    (hquiet : w.Quiescent)
    (hdone : ∀ i ∈ ls.filterMap Label.thread, (w'.threads i).isNone = true) :
    w'.Quiescent := by
  intro j
  by_cases hj : ∀ l ∈ ls, l.thread ≠ some j
  · rw [threads_of_steps? hsteps hj, hquiet j]
  · simp only [not_forall, not_not] at hj
    obtain ⟨l, hl, hthread⟩ := hj
    simpa using hdone j (List.mem_filterMap.mpr ⟨l, hl, hthread⟩)

end Execution

end System
end Foundation
end Veilence

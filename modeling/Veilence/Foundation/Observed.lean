import Veilence.Foundation.Program

/-!
# Notes on calls

Some properties of concurrent calls depend on what a call has met on its way: the row that
it has read, or whether its deletion found anything.  An observer keeps such a note for
each call.  Notes never hold a step back, so they only describe runs.  The same goes for any
value that is worked out along a run, such as a count of events.

Main results:

- Theorem {lit}`System.exists_tracked`: every run is the run of some value.
- Theorem {lit}`System.exists_observed`: every run is the run of some notes.
- Theorem {lit}`System.observed_of_notedSteps?`: executed steps with notes are a run.
-/

namespace Veilence
namespace Foundation

/-- What is noted of a call: the first note, and the note after a command from the store
before it and the response. -/
structure Observer (Store C : Type) (R : C → Type) (Γ : Type) where
  first : Γ
  next : Γ → Store → (c : C) → Option (R c) → Γ

namespace System

variable {Store Op C : Type} {R : C → Type} {α Γ : Type}
variable (S : System Store Op C R α) (O : Observer Store C R Γ)

/-- The notes after a step. -/
def note (w : World Store Op C R α) (notes : Nat → Γ) : Label Op → Nat → Γ
  | .start i _ => Function.update notes i O.first
  | .exec i =>
      Function.update notes i <|
        match w.threads i with
        | some ⟨_, .cmd c _, _⟩ => O.next (notes i) w.store c (some (S.exec w.store c).2)
        | _ => notes i
  | .fail i =>
      Function.update notes i <|
        match w.threads i with
        | some ⟨_, .cmd c _, _⟩ => O.next (notes i) w.store c none
        | _ => notes i
  | _ => notes

/-- A step together with a value that is worked out along the run. -/
def Tracked (track : World Store Op C R α → Γ → Label Op → Γ) (s : World Store Op C R α × Γ)
    (l : Label Op) (s' : World Store Op C R α × Γ) : Prop :=
  S.Step s.1 l s'.1 ∧ s'.2 = track s.1 s.2 l

/-- A step together with the notes. -/
def Observed (s : World Store Op C R α × (Nat → Γ)) (l : Label Op)
    (s' : World Store Op C R α × (Nat → Γ)) : Prop :=
  S.Step s.1 l s'.1 ∧ s'.2 = S.note O s.1 s.2 l

/-- The next command of a call takes effect only when it is allowed, given the note of the
call. -/
def Allows (allowed : Γ → Store → Op → C → Prop) (s : World Store Op C R α × (Nat → Γ))
    (l : Label Op) : Prop :=
  ∀ i op c k failed, l = .exec i → s.1.threads i = some ⟨op, .cmd c k, failed⟩ →
    allowed (s.2 i) s.1.store op c

variable {S O} {w w' : World Store Op C R α} {notes : Nat → Γ}

section Notes

variable {i : Nat} {op : Op} {c : C} {k : Option (R c) → Prog C R α} {failed : Bool}

theorem note_exec (hthread : w.threads i = some ⟨op, .cmd c k, failed⟩) :
    S.note O w notes (.exec i) =
      Function.update notes i (O.next (notes i) w.store c (some (S.exec w.store c).2)) := by
  simp only [note, hthread]

theorem note_fail (hthread : w.threads i = some ⟨op, .cmd c k, failed⟩) :
    S.note O w notes (.fail i) =
      Function.update notes i (O.next (notes i) w.store c none) := by
  simp only [note, hthread]

/-- Only the note of the call that takes the step changes. -/
theorem note_of_ne {l : Label Op} {j : Nat} (hj : l.thread ≠ some j) :
    S.note O w notes l j = notes j := by
  have hne : ∀ i, l.thread = some i → j ≠ i := fun i hi heq => hj (heq ▸ hi)
  cases l with
  | start i op => exact Function.update_of_ne (hne i rfl) _ _
  | exec i => exact Function.update_of_ne (hne i rfl) _ _
  | fail i => exact Function.update_of_ne (hne i rfl) _ _
  | stop i => rfl
  | finish i => rfl
  | env => rfl

end Notes

/-- Every run is the run of some value. -/
theorem exists_tracked (track : World Store Op C R α → Γ → Label Op → Γ)
    {ok : World Store Op C R α → Label Op → Prop} (hrun : Run S.Step ok w w') (g : Γ) :
    ∃ g', Run (S.Tracked track) (fun s l => ok s.1 l) (w, g) (w', g') := by
  induction hrun with
  | refl => exact ⟨g, Run.refl _⟩
  | tail _ hlast ih =>
      obtain ⟨g', hg'⟩ := ih
      obtain ⟨l, hstep, hok⟩ := hlast
      exact ⟨_, hg'.snoc ⟨hstep, rfl⟩ hok⟩

/-- Every run is the run of some notes. -/
theorem exists_observed {ok : World Store Op C R α → Label Op → Prop}
    (hrun : Run S.Step ok w w') (notes : Nat → Γ) :
    ∃ notes', Run (S.Observed O) (fun s l => ok s.1 l) (w, notes) (w', notes') :=
  exists_tracked (S.note O) hrun notes

/-! ## Executing runs -/

section Execution

variable [∀ s op, Decidable (S.enabled s op)]

variable (S) in
/-- Take steps with given labels and work out a value, as long as each passes a check. -/
def trackedSteps? (track : World Store Op C R α → Γ → Label Op → Γ)
    (check : World Store Op C R α × Γ → Label Op → Bool) (s : World Store Op C R α × Γ) :
    List (Label Op) → Option (World Store Op C R α × Γ)
  | [] => some s
  | l :: ls =>
      if check s l then
        (S.step? s.1 l).bind fun w => trackedSteps? track check (w, track s.1 s.2 l) ls
      else none

/-- Executed steps with a value are a run under any condition that the check implies where an
invariant holds. -/
theorem tracked_of_trackedSteps?_invariant {track : World Store Op C R α → Γ → Label Op → Γ}
    {check : World Store Op C R α × Γ → Label Op → Bool}
    {ok : World Store Op C R α × Γ → Label Op → Prop} {I : World Store Op C R α × Γ → Prop}
    (hpres : ∀ s l s', I s → check s l = true → S.Tracked track s l s' → I s')
    (hok : ∀ s l, I s → check s l = true → ok s l) {s s' : World Store Op C R α × Γ}
    {ls : List (Label Op)} (hstart : I s)
    (hsteps : S.trackedSteps? track check s ls = some s') : Run (S.Tracked track) ok s s' := by
  induction ls generalizing s with
  | nil =>
      obtain rfl := Option.some.inj hsteps
      exact Run.refl _
  | cons l ls ih =>
      rw [trackedSteps?] at hsteps
      split_ifs at hsteps with hcheck
      obtain ⟨mid, hmid, hrest⟩ := Option.bind_eq_some_iff.mp hsteps
      have hstep : S.Tracked track s l (mid, track s.1 s.2 l) := ⟨step_of_step? hmid, rfl⟩
      have hfirst : Run (S.Tracked track) ok s (mid, track s.1 s.2 l) :=
        (Run.refl s).snoc hstep (hok s l hstart hcheck)
      exact hfirst.trans (ih (hpres s l _ hstart hcheck hstep) hrest)

/-- Executed steps with a value are a run. -/
theorem tracked_of_trackedSteps? {track : World Store Op C R α → Γ → Label Op → Γ}
    {check : World Store Op C R α × Γ → Label Op → Bool}
    {ok : World Store Op C R α × Γ → Label Op → Prop}
    (hok : ∀ s l, check s l = true → ok s l) {s s' : World Store Op C R α × Γ}
    {ls : List (Label Op)} (hsteps : S.trackedSteps? track check s ls = some s') :
    Run (S.Tracked track) ok s s' :=
  tracked_of_trackedSteps?_invariant (I := fun _ => True) (fun _ _ _ _ _ _ => trivial)
    (fun s l _ => hok s l) trivial hsteps

/-- Executed steps whose last state passes a test reach a state that passes it. -/
theorem exists_of_trackedSteps? (S : System Store Op C R α)
    [∀ s op, Decidable (S.enabled s op)] (track : World Store Op C R α → Γ → Label Op → Γ)
    (check : World Store Op C R α × Γ → Label Op → Bool) (s : World Store Op C R α × Γ)
    (ls : List (Label Op)) (test : World Store Op C R α × Γ → Bool)
    (htest : (S.trackedSteps? track check s ls).any test = true) :
    ∃ w g, S.trackedSteps? track check s ls = some (w, g) ∧ test (w, g) = true := by
  cases hsteps : S.trackedSteps? track check s ls with
  | none => simp [hsteps] at htest
  | some s' => exact ⟨s'.1, s'.2, rfl, by simpa [hsteps] using htest⟩

variable (S O) in
/-- Take steps with given labels and keep the notes, as long as each passes a check. -/
def notedSteps? (check : World Store Op C R α × (Nat → Γ) → Label Op → Bool)
    (s : World Store Op C R α × (Nat → Γ)) :
    List (Label Op) → Option (World Store Op C R α × (Nat → Γ))
  | [] => some s
  | l :: ls =>
      if check s l then
        (S.step? s.1 l).bind fun w => notedSteps? check (w, S.note O s.1 s.2 l) ls
      else none

/-- The next command of a call is allowed. -/
def allows (allowed : Γ → Store → Op → C → Prop) [∀ γ s op c, Decidable (allowed γ s op c)]
    (s : World Store Op C R α × (Nat → Γ)) : Label Op → Bool
  | .exec i =>
      match s.1.threads i with
      | some ⟨op, .cmd c _, _⟩ => decide (allowed (s.2 i) s.1.store op c)
      | _ => true
  | _ => true

theorem allows_sound {allowed : Γ → Store → Op → C → Prop}
    [∀ γ s op c, Decidable (allowed γ s op c)] {s : World Store Op C R α × (Nat → Γ)}
    {l : Label Op} (hcheck : allows allowed s l = true) : Allows allowed s l := by
  intro i op c k failed hl hthread
  subst hl
  simpa [allows, hthread] using hcheck

/-- Executed steps with notes are a run. -/
theorem observed_of_notedSteps? {check : World Store Op C R α × (Nat → Γ) → Label Op → Bool}
    {ok : World Store Op C R α × (Nat → Γ) → Label Op → Prop}
    (hok : ∀ s l, check s l = true → ok s l) {s s' : World Store Op C R α × (Nat → Γ)}
    {ls : List (Label Op)} (hsteps : S.notedSteps? O check s ls = some s') :
    Run (S.Observed O) ok s s' := by
  induction ls generalizing s with
  | nil =>
      obtain rfl := Option.some.inj hsteps
      exact Run.refl _
  | cons l ls ih =>
      rw [notedSteps?] at hsteps
      split_ifs at hsteps with hcheck
      obtain ⟨mid, hmid, hrest⟩ := Option.bind_eq_some_iff.mp hsteps
      have hfirst : Run (S.Observed O) ok s (mid, S.note O s.1 s.2 l) :=
        (Run.refl s).snoc ⟨step_of_step? hmid, rfl⟩ (hok s l hcheck)
      exact hfirst.trans (ih hrest)

/-- Executed steps whose last state passes a test reach a state that passes it. -/
theorem exists_of_notedSteps? (S : System Store Op C R α) (O : Observer Store C R Γ)
    [∀ s op, Decidable (S.enabled s op)]
    (check : World Store Op C R α × (Nat → Γ) → Label Op → Bool)
    (s : World Store Op C R α × (Nat → Γ)) (ls : List (Label Op))
    (test : World Store Op C R α → Bool)
    (htest : ((S.notedSteps? O check s ls).map Prod.fst).any test = true) :
    ∃ w notes, S.notedSteps? O check s ls = some (w, notes) ∧ test w = true := by
  cases hsteps : S.notedSteps? O check s ls with
  | none => simp [hsteps] at htest
  | some s' => exact ⟨s'.1, s'.2, rfl, by simpa [hsteps] using htest⟩

end Execution

end System
end Foundation
end Veilence

import Mathlib

/-!
# Confined procedures

A procedure on a state ends with a result or an error, and with the next state.  A compartment
names the part of a state that one party owns and the rest of it.  A procedure is confined to a
compartment if it does to the whole state what it would do to the part alone, with the same
outcome, and leaves the rest as it is.

Main results:

- Theorems {lit}`Confined.bind`, {lit}`Confined.attempt` and {lit}`Confined.foldl`: procedures that
  are composed of confined procedures are confined.
- Theorem {lit}`Confined.agree`: a confined procedure does the same in any two states that have the
  same part.
- Theorem {lit}`confined_whole_iff`: to be confined to the whole state is to preserve its
  invariant.
-/

namespace Veilence
namespace Foundation

/-! ## Procedures -/

/-- A procedure on a state: a result or an error, and the next state. -/
def Procedure (σ ε α : Type) : Type :=
  σ → Except ε α × σ

variable {σ τ ε α β : Type}

namespace Procedure

/-- What follows an outcome: an error is the end. -/
def next (f : α → Procedure σ ε β) : Except ε α × σ → Except ε β × σ
  | (.ok a, s) => f a s
  | (.error e, s) => (.error e, s)

instance : Monad (Procedure σ ε) where
  pure a := fun s => (.ok a, s)
  bind p f := fun s => next f (p s)

/-- End with an error. -/
def fail (e : ε) : Procedure σ ε α :=
  fun s => (.error e, s)

/-- Hand the outcome on, an error too. -/
def attempt (p : Procedure σ ε α) : Procedure σ ε (Except ε α) :=
  fun s => (.ok (p s).1, (p s).2)

/-- Change the error. -/
def mapError (f : ε → ε) (p : Procedure σ ε α) : Procedure σ ε α :=
  fun s => ((p s).1.mapError f, (p s).2)

/-- End with an error under a condition. -/
def failIf (cond : Bool) (e : ε) : Procedure σ ε Unit :=
  if cond then fail e else pure ()

/-- Run through a list with an accumulator. -/
def foldl (f : β → α → Procedure σ ε β) : β → List α → Procedure σ ε β
  | b, [] => pure b
  | b, a :: as => do
      let b ← f b a
      foldl f b as

end Procedure

/-! ## Compartments -/

/-- The part of a state that one party owns, and the rest, in the states that keep an
invariant. -/
structure Compartment (σ τ : Type) where
  Valid : σ → Prop
  part : σ → σ
  rest : σ → τ

/-- The procedure does to the part of the state what it does to the state, leaves the rest as it
is, keeps the invariant, and its result is as stated. -/
structure Confines (A : Compartment σ τ) (p : Procedure σ ε α) (fact : α → Prop) (s : σ) : Prop where
  mirrored : p (A.part s) = ((p s).1, A.part (p s).2)
  rest : A.rest (p s).2 = A.rest s
  valid : A.Valid (p s).2
  holds : ∀ a, (p s).1 = .ok a → fact a

/-- The procedure is confined to the compartment, and its result is as stated. -/
def Confined (A : Compartment σ τ) (p : Procedure σ ε α) (fact : α → Prop) : Prop :=
  ∀ s, A.Valid s → Confines A p fact s

/-- The same, read off the two runs. -/
theorem Confines.of_eq {A : Compartment σ τ} {p : Procedure σ ε α} {fact : α → Prop} {s s' : σ}
    {r : Except ε α} (hwhole : p s = (r, s')) (hpart : p (A.part s) = (r, A.part s'))
    (hrest : A.rest s' = A.rest s) (hvalid : A.Valid s') (hholds : ∀ a, r = .ok a → fact a) :
    Confines A p fact s := by
  constructor
  · rw [hpart, hwhole]
  · rw [hwhole]
    exact hrest
  · rw [hwhole]
    exact hvalid
  · rw [hwhole]
    exact hholds

namespace Confined

variable {A : Compartment σ τ} {p q : Procedure σ ε α} {f : α → Procedure σ ε β}
  {fact weaker : α → Prop} {final : β → Prop} {a : α}

/-- Less is said of the result. -/
theorem mono (h : Confined A p fact) (himp : ∀ a, fact a → weaker a) : Confined A p weaker := by
  intro s hs
  have hp := h s hs
  exact ⟨hp.mirrored, hp.rest, hp.valid, fun a ha => himp a (hp.holds a ha)⟩

/-- A result. -/
theorem pure (h : fact a) : Confined A (Pure.pure a : Procedure σ ε α) fact := by
  intro s hs
  refine ⟨rfl, rfl, hs, ?_⟩
  intro b hb
  rw [← Except.ok.inj hb]
  exact h

/-- An error. -/
theorem fail (e : ε) : Confined A (Procedure.fail e : Procedure σ ε α) fact := by
  intro s hs
  refine ⟨rfl, rfl, hs, ?_⟩
  intro b hb
  injection hb

/-- One procedure after another. -/
theorem bind (hp : Confined A p fact) (hf : ∀ a, fact a → Confined A (f a) final) :
    Confined A (p >>= f) final := by
  intro s hs
  have h := hp s hs
  have hstep : ∀ s, (p >>= f) s = Procedure.next f (p s) := fun _ => rfl
  cases hresult : (p s).1 with
  | error e =>
      have hwhole : (p >>= f) s = (.error e, (p s).2) := by
        rw [hstep, ← Prod.mk.eta (p := p s), hresult]
        rfl
      refine ⟨?_, ?_, ?_, ?_⟩
      · rw [hwhole, hstep, h.mirrored, hresult]
        rfl
      · rw [hwhole]
        exact h.rest
      · rw [hwhole]
        exact h.valid
      · intro b hb
        rw [hwhole] at hb
        injection hb
  | ok a =>
      have hnext := hf a (h.holds a hresult) (p s).2 h.valid
      have hwhole : (p >>= f) s = f a (p s).2 := by
        rw [hstep, ← Prod.mk.eta (p := p s), hresult]
        rfl
      refine ⟨?_, ?_, ?_, ?_⟩
      · rw [hwhole, hstep, h.mirrored, hresult]
        exact hnext.mirrored
      · rw [hwhole]
        exact hnext.rest.trans h.rest
      · rw [hwhole]
        exact hnext.valid
      · rw [hwhole]
        exact hnext.holds

/-- The outcome of a confined procedure. -/
theorem attempt (h : Confined A p fact) :
    Confined A (Procedure.attempt p) fun r => ∀ a, r = .ok a → fact a := by
  intro s hs
  have hp := h s hs
  refine ⟨?_, hp.rest, hp.valid, ?_⟩
  · unfold Procedure.attempt
    rw [hp.mirrored]
  · intro r hr a ha
    apply hp.holds a
    rw [← ha]
    exact Except.ok.inj hr

/-- A change of the error. -/
theorem mapError {g : ε → ε} (h : Confined A p fact) : Confined A (Procedure.mapError g p) fact := by
  intro s hs
  have hp := h s hs
  refine ⟨?_, hp.rest, hp.valid, ?_⟩
  · unfold Procedure.mapError
    rw [hp.mirrored]
  · intro a ha
    apply hp.holds a
    unfold Procedure.mapError at ha
    cases hresult : (p s).1 with
    | error e =>
        rw [hresult] at ha
        injection ha
    | ok b =>
        rw [hresult] at ha
        injection ha with ha
        rw [ha]

/-- One procedure or another. -/
theorem ite {c : Prop} [Decidable c] (hp : c → Confined A p fact) (hq : ¬c → Confined A q fact) :
    Confined A (if c then p else q) fact := by
  split_ifs with hc
  · exact hp hc
  · exact hq hc

/-- An error under a condition: behind it, what the condition excludes. -/
theorem failIf {cond : Bool} (e : ε) :
    Confined A (Procedure.failIf cond e : Procedure σ ε Unit) fun _ => cond = false := by
  cases cond with
  | true => exact fail e
  | false => exact pure rfl

/-- A loop with confined steps. -/
theorem foldl {f : β → α → Procedure σ ε β} {as : List α} {b : β} (hb : final b)
    (hf : ∀ b a, a ∈ as → final b → Confined A (f b a) final) :
    Confined A (Procedure.foldl f b as) final := by
  induction as generalizing b with
  | nil => exact pure hb
  | cons a as ih =>
      apply bind (hf b a List.mem_cons_self hb)
      intro b hb
      exact ih hb fun b a ha => hf b a (List.mem_cons_of_mem _ ha)

/-- In two states with the same part the outcomes are the same, and so are the parts after. -/
theorem agree {B : Compartment σ τ} {factB : α → Prop} {s₁ s₂ : σ} (h₁ : Confined A p fact)
    (h₂ : Confined B p factB) (hs₁ : A.Valid s₁) (hs₂ : B.Valid s₂)
    (hpart : A.part s₁ = B.part s₂) :
    (p s₁).1 = (p s₂).1 ∧ A.part (p s₁).2 = B.part (p s₂).2 := by
  have hsame := (h₁ s₁ hs₁).mirrored
  rw [hpart, (h₂ s₂ hs₂).mirrored] at hsame
  obtain ⟨hresult, hstate⟩ := Prod.mk.inj hsame
  exact ⟨hresult.symm, hstate.symm⟩

end Confined

/-! ## Invariants -/

/-- The whole state, in the states that keep an invariant. -/
def Compartment.whole (I : σ → Prop) : Compartment σ Unit where
  Valid := I
  part s := s
  rest _ := ()

/-- To be confined to the whole state is to preserve its invariant. -/
theorem confined_whole_iff {I : σ → Prop} {p : Procedure σ ε α} {fact : α → Prop} :
    Confined (Compartment.whole I) p fact ↔
      ∀ s, I s → I (p s).2 ∧ ∀ a, (p s).1 = .ok a → fact a := by
  constructor
  · intro h s hs
    have hp := h s hs
    exact ⟨hp.valid, hp.holds⟩
  · intro h s hs
    obtain ⟨hvalid, hholds⟩ := h s hs
    exact ⟨rfl, rfl, hvalid, hholds⟩

end Foundation
end Veilence

import Veilence.Go.Utf8

/-!
# Valid texts next to each other

When a byte string that is made of several ones is valid UTF-8.

Main results:

- Theorem {lit}`utf8Valid_append_ascii`: an ASCII character separates two texts.
-/

namespace Veilence
namespace Go

/-- The first byte of an encoding of two bytes. -/
def leadsTwo (c : Char) : Bool :=
  !byteIn 0x00 0x7F c && byteIn 0xC2 0xDF c

/-- The first byte of an encoding of three bytes. -/
def leadsThree (c : Char) : Bool :=
  !byteIn 0x00 0x7F c && !byteIn 0xC2 0xDF c && byteIn 0xE0 0xEF c

/-- The first byte of an encoding of four bytes. -/
def leadsFour (c : Char) : Bool :=
  !byteIn 0x00 0x7F c && !byteIn 0xC2 0xDF c && !byteIn 0xE0 0xEF c && byteIn 0xF0 0xF4 c

variable {c c1 c2 c3 : Char} {s rest : GoString}

/-! ## Encodings -/

theorem utf8Valid_two (hc : leadsTwo c = true) :
    utf8Valid (c :: c1 :: rest) = (byteIn 0x80 0xBF c1 && utf8Valid rest) := by
  simp only [leadsTwo, Bool.and_eq_true, Bool.not_eq_true'] at hc
  rw [utf8Valid.eq_def]
  simp [hc]

theorem utf8Valid_three (hc : leadsThree c = true) :
    utf8Valid (c :: c1 :: c2 :: rest) =
      (byteIn (if c.toNat = 0xE0 then 0xA0 else 0x80) (if c.toNat = 0xED then 0x9F else 0xBF) c1 &&
        byteIn 0x80 0xBF c2 && utf8Valid rest) := by
  simp only [leadsThree, Bool.and_eq_true, Bool.not_eq_true'] at hc
  rw [utf8Valid.eq_def]
  simp [hc]

theorem utf8Valid_four (hc : leadsFour c = true) :
    utf8Valid (c :: c1 :: c2 :: c3 :: rest) =
      (byteIn (if c.toNat = 0xF0 then 0x90 else 0x80) (if c.toNat = 0xF4 then 0x8F else 0xBF) c1 &&
        byteIn 0x80 0xBF c2 && byteIn 0x80 0xBF c3 && utf8Valid rest) := by
  simp only [leadsFour, Bool.and_eq_true, Bool.not_eq_true'] at hc
  rw [utf8Valid.eq_def]
  simp [hc]

/-- A first byte begins an encoding of one, two, three or four bytes or none. -/
theorem lead_cases (c : Char) :
    byteIn 0x00 0x7F c = true ∨ leadsTwo c = true ∨ leadsThree c = true ∨ leadsFour c = true ∨
      ∀ rest, utf8Valid (c :: rest) = false := by
  by_cases h1 : byteIn 0x00 0x7F c = true
  · exact Or.inl h1
  by_cases h2 : byteIn 0xC2 0xDF c = true
  · exact Or.inr (Or.inl (by simp [leadsTwo, h1, h2]))
  by_cases h3 : byteIn 0xE0 0xEF c = true
  · exact Or.inr (Or.inr (Or.inl (by simp [leadsThree, h1, h2, h3])))
  by_cases h4 : byteIn 0xF0 0xF4 c = true
  · exact Or.inr (Or.inr (Or.inr (Or.inl (by simp [leadsFour, h1, h2, h3, h4]))))
  · refine Or.inr (Or.inr (Or.inr (Or.inr fun rest => ?_)))
    rw [utf8Valid.eq_def]
    dsimp only
    rw [if_neg h1, if_neg h2, if_neg h3, if_neg h4]

theorem utf8Valid_two_short (hc : leadsTwo c = true) : utf8Valid [c] = false := by
  simp only [leadsTwo, Bool.and_eq_true, Bool.not_eq_true'] at hc
  simp [utf8Valid.eq_def, hc]

theorem utf8Valid_three_short (hc : leadsThree c = true) (hshort : rest.length < 2) :
    utf8Valid (c :: rest) = false := by
  simp only [leadsThree, Bool.and_eq_true, Bool.not_eq_true'] at hc
  match rest with
  | [] => simp [utf8Valid.eq_def, hc]
  | [_] => simp [utf8Valid.eq_def, hc]
  | _ :: _ :: _ => exact absurd hshort (by simp)

theorem utf8Valid_four_short (hc : leadsFour c = true) (hshort : rest.length < 3) :
    utf8Valid (c :: rest) = false := by
  simp only [leadsFour, Bool.and_eq_true, Bool.not_eq_true'] at hc
  match rest with
  | [] => simp [utf8Valid.eq_def, hc]
  | [_] => simp [utf8Valid.eq_def, hc]
  | [_, _] => simp [utf8Valid.eq_def, hc]
  | _ :: _ :: _ :: _ => exact absurd hshort (by simp)

/-! ## Two texts -/

/-- A byte that begins no encoding of several bytes does not continue one. -/
theorem byteIn_of_ascii {d : Char} (hd : d.toNat < 0x80) {low high : Nat} (hlow : 0x80 ≤ low) :
    byteIn low high d = false := by
  unfold byteIn
  rw [Bool.and_eq_false_iff, decide_eq_false_iff_not]
  left
  omega

/-- An ASCII character separates two texts: they are valid together if each of them is. -/
theorem utf8Valid_append_ascii {d : Char} (hd : d.toNat < 0x80) (s t : GoString) :
    utf8Valid (s ++ d :: t) = (utf8Valid s && utf8Valid t) := by
  have hcont : byteIn 0x80 0xBF d = false := byteIn_of_ascii hd (le_refl _)
  have hsecond : ∀ (p q : Prop) [Decidable p] [Decidable q] (low high low' : Nat), 0x80 ≤ low →
      byteIn (if p then low else 0x80) (if q then high else low') d = false := by
    intro p q _ _ low high low' hlow
    apply byteIn_of_ascii hd
    split_ifs
    · exact hlow
    · exact le_refl _
  induction hn : s.length using Nat.strong_induction_on generalizing s with
  | _ n ih =>
  rcases s with _ | ⟨c, rest⟩
  · exact utf8Valid_one (by simp only [byteIn, Bool.and_eq_true, decide_eq_true_iff]; omega)
  have hlt : ∀ rest' : GoString, rest'.length ≤ rest.length →
      utf8Valid (rest' ++ d :: t) = (utf8Valid rest' && utf8Valid t) := by
    intro rest' hle
    exact ih rest'.length (by rw [← hn, List.length_cons]; omega) rest' rfl
  rw [List.cons_append]
  rcases lead_cases c with hc | hc | hc | hc | hc
  · rw [utf8Valid_one hc, utf8Valid_one hc, hlt rest (le_refl _)]
  · rcases rest with _ | ⟨c1, rest⟩
    · simp [utf8Valid_two hc, utf8Valid_two_short hc, hcont]
    · rw [List.cons_append, utf8Valid_two hc, utf8Valid_two hc, hlt rest (by simp),
        Bool.and_assoc]
  · rcases rest with _ | ⟨c1, _ | ⟨c2, rest⟩⟩
    · have hshort : utf8Valid [c] = false := utf8Valid_three_short hc (by simp)
      rw [hshort, Bool.false_and]
      rcases t with _ | ⟨_, _⟩
      · exact utf8Valid_three_short hc (by simp)
      · simp [utf8Valid_three hc, hsecond]
    · simp [utf8Valid_three hc, utf8Valid_three_short hc, hcont]
    · rw [List.cons_append, List.cons_append, utf8Valid_three hc, utf8Valid_three hc,
        hlt rest (by simp; omega), Bool.and_assoc _ (utf8Valid rest)]
  · rcases rest with _ | ⟨c1, _ | ⟨c2, _ | ⟨c3, rest⟩⟩⟩
    · have hshort : utf8Valid [c] = false := utf8Valid_four_short hc (by simp)
      rw [hshort, Bool.false_and]
      rcases t with _ | ⟨_, _ | ⟨_, _⟩⟩
      · exact utf8Valid_four_short hc (by simp)
      · exact utf8Valid_four_short hc (by simp)
      · simp [utf8Valid_four hc, hsecond]
    · have hshort : utf8Valid [c, c1] = false := utf8Valid_four_short hc (by simp)
      rw [hshort, Bool.false_and]
      rcases t with _ | ⟨_, _⟩
      · exact utf8Valid_four_short hc (by simp)
      · simp [utf8Valid_four hc, hcont]
    · simp [utf8Valid_four hc, utf8Valid_four_short hc, hcont]
    · rw [List.cons_append, List.cons_append, List.cons_append, utf8Valid_four hc,
        utf8Valid_four hc, hlt rest (by simp; omega), Bool.and_assoc _ (utf8Valid rest)]
  · rw [hc, hc, Bool.false_and]

end Go
end Veilence

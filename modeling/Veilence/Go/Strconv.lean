import Veilence.Go.Text

/-!
# Go integers from text

{lit}`strconv.Atoi` as callers see it that ignore the error: zero for a text that is no
number, the nearest 64-bit integer for a number that is out of range.  Callers that look at the
error see a number only if it is one and is in range.

Main results:

- Theorem {lit}`atoi_range`: the value is a 64-bit integer.
- Theorem {lit}`atoi_of_atoi?`: a number that comes without an error is the value.
-/

namespace Veilence
namespace Go

/-- {lit}`strconv.ParseUint` at base ten, after the digits that make the given number.  A
number that is out of range ends the reading; another byte than a digit is an error. -/
def parseUint (n : Nat) : GoString → Option Nat
  | [] => some n
  | c :: s =>
      if c.isDigit then
        let n := 10 * n + (c.toNat - '0'.toNat)
        if n < 2 ^ 64 then parseUint n s else some (2 ^ 64 - 1)
      else none

/-- {lit}`strconv.ParseInt` of the text after the sign. -/
def parseMagnitude (negative : Bool) (digits : GoString) : Int :=
  if digits = [] then 0
  else
    match parseUint 0 digits with
    | none => 0
    | some n => if negative then -min n (2 ^ 63) else min n (2 ^ 63 - 1)

/-- The value of {lit}`strconv.Atoi`. -/
def atoi : GoString → Int
  | '+' :: digits => parseMagnitude false digits
  | '-' :: digits => parseMagnitude true digits
  | digits => parseMagnitude false digits

/-- The number after a sign is a 64-bit integer. -/
theorem parseMagnitude_range (negative : Bool) (digits : GoString) :
    -2 ^ 63 ≤ parseMagnitude negative digits ∧ parseMagnitude negative digits < 2 ^ 63 := by
  unfold parseMagnitude
  by_cases hdigits : digits = []
  · simp [hdigits]
  · rw [if_neg hdigits]
    cases parseUint 0 digits with
    | none => simp
    | some n =>
        dsimp only
        split_ifs
        · omega
        · omega

/-- The value of a text is a 64-bit integer. -/
theorem atoi_range (s : GoString) : -2 ^ 63 ≤ atoi s ∧ atoi s < 2 ^ 63 := by
  unfold atoi
  split
  · exact parseMagnitude_range false _
  · exact parseMagnitude_range true _
  · exact parseMagnitude_range false _

/-! ## With the error -/

/-- The number that follows some digits that make a number. -/
def digitsValue (n : Nat) (digits : GoString) : Nat :=
  digits.foldl (fun n c => 10 * n + (c.toNat - '0'.toNat)) n

/-- {lit}`strconv.ParseInt` of the text after the sign, without a value if it has an error. -/
def parseMagnitude? (negative : Bool) (digits : GoString) : Option Int :=
  let v : Int := if negative then -digitsValue 0 digits else digitsValue 0 digits
  if digits ≠ [] ∧ digits.all Char.isDigit = true ∧ -2 ^ 63 ≤ v ∧ v < 2 ^ 63 then some v else none

/-- {lit}`strconv.Atoi`, without a value if it has an error. -/
def atoi? : GoString → Option Int
  | '+' :: digits => parseMagnitude? false digits
  | '-' :: digits => parseMagnitude? true digits
  | digits => parseMagnitude? false digits

/-- More digits make a larger number. -/
theorem le_digitsValue (n : Nat) (digits : GoString) : n ≤ digitsValue n digits := by
  induction digits generalizing n with
  | nil => exact le_rfl
  | cons c digits ih =>
      have hrest := ih (10 * n + (c.toNat - '0'.toNat))
      unfold digitsValue at hrest ⊢
      rw [List.foldl_cons]
      omega

/-- The reading of digits that stay in range. -/
theorem parseUint_eq {n : Nat} {digits : GoString} (hdigits : digits.all Char.isDigit = true)
    (hrange : digitsValue n digits < 2 ^ 64) : parseUint n digits = some (digitsValue n digits) := by
  induction digits generalizing n with
  | nil => rfl
  | cons c digits ih =>
      rw [List.all_cons, Bool.and_eq_true] at hdigits
      have hnext : digitsValue n (c :: digits) =
          digitsValue (10 * n + (c.toNat - '0'.toNat)) digits := rfl
      rw [hnext] at hrange ⊢
      have hle := le_digitsValue (10 * n + (c.toNat - '0'.toNat)) digits
      rw [parseUint, if_pos hdigits.1]
      simp only [show 10 * n + (c.toNat - '0'.toNat) < 2 ^ 64 by omega, if_true]
      exact ih hdigits.2 hrange

theorem parseMagnitude_of_parseMagnitude? {negative : Bool} {digits : GoString} {v : Int}
    (h : parseMagnitude? negative digits = some v) : parseMagnitude negative digits = v := by
  unfold parseMagnitude? at h
  cases negative with
  | false =>
      simp only [Bool.false_eq_true, if_false] at h
      split_ifs at h with hcond
      obtain ⟨hne, hdigits, -, hhigh⟩ := hcond
      rw [← Option.some.inj h, parseMagnitude, if_neg hne, parseUint_eq hdigits (by omega)]
      simp only [Bool.false_eq_true, if_false]
      omega
  | true =>
      simp only [if_true] at h
      split_ifs at h with hcond
      obtain ⟨hne, hdigits, hlow, -⟩ := hcond
      rw [← Option.some.inj h, parseMagnitude, if_neg hne, parseUint_eq hdigits (by omega)]
      simp only [if_true]
      omega

/-- A number that comes without an error is the value. -/
theorem atoi_of_atoi? {s : GoString} {v : Int} (h : atoi? s = some v) : atoi s = v := by
  unfold atoi? at h
  unfold atoi
  split at h
  · exact parseMagnitude_of_parseMagnitude? h
  · exact parseMagnitude_of_parseMagnitude? h
  · exact parseMagnitude_of_parseMagnitude? h

example : atoi "-17".toList = -17 ∧ atoi "1x".toList = 0 ∧
    atoi "99999999999999999999x".toList = 2 ^ 63 - 1 := by
  decide

end Go
end Veilence

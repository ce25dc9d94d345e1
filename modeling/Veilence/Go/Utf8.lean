import Mathlib
import Veilence.Go.Text

/-!
# UTF-8

{lit}`unicode/utf8` on byte strings: which strings are valid, and how many characters a
string has when every byte that belongs to no valid encoding counts as one.
-/

namespace Veilence
namespace Go

/-- A byte between two bounds. -/
def byteIn (low high : Nat) (c : Char) : Bool :=
  low ≤ c.toNat && c.toNat ≤ high

/-- {lit}`utf8.Valid`. -/
def utf8Valid : GoString → Bool
  | [] => true
  | c :: rest =>
      if byteIn 0x00 0x7F c then utf8Valid rest
      else if byteIn 0xC2 0xDF c then
        match rest with
        | c1 :: rest => byteIn 0x80 0xBF c1 && utf8Valid rest
        | _ => false
      else if byteIn 0xE0 0xEF c then
        match rest with
        | c1 :: c2 :: rest =>
            byteIn (if c.toNat = 0xE0 then 0xA0 else 0x80)
                (if c.toNat = 0xED then 0x9F else 0xBF) c1 &&
              byteIn 0x80 0xBF c2 && utf8Valid rest
        | _ => false
      else if byteIn 0xF0 0xF4 c then
        match rest with
        | c1 :: c2 :: c3 :: rest =>
            byteIn (if c.toNat = 0xF0 then 0x90 else 0x80)
                (if c.toNat = 0xF4 then 0x8F else 0xBF) c1 &&
              byteIn 0x80 0xBF c2 && byteIn 0x80 0xBF c3 && utf8Valid rest
        | _ => false
      else false

/-- A first byte below 0x80 is a character of its own. -/
theorem utf8Valid_one {c : Char} {rest : GoString} (hc : byteIn 0x00 0x7F c = true) :
    utf8Valid (c :: rest) = utf8Valid rest := by
  rw [utf8Valid.eq_def]
  dsimp only
  rw [if_pos hc]

/-- The number of bytes of the first character. -/
def runeWidth (s : GoString) : Nat :=
  if utf8Valid (s.take 1) then 1
  else if utf8Valid (s.take 2) then 2
  else if utf8Valid (s.take 3) then 3
  else if utf8Valid (s.take 4) then 4
  else 1

/-- The number of characters that begin after so many bytes. -/
def runeCountAfter : Nat → GoString → Nat
  | _, [] => 0
  | skip + 1, _ :: rest => runeCountAfter skip rest
  | 0, c :: rest => runeCountAfter (runeWidth (c :: rest) - 1) rest + 1

/-- {lit}`utf8.RuneCountInString`. -/
def runeCount (s : GoString) : Nat :=
  runeCountAfter 0 s

end Go
end Veilence

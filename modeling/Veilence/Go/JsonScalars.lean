import Veilence.Go.Json

/-!
# Strings and numbers of JSON

What {lit}`encoding/json` makes of the bytes of a string and of a number.  A string is
decoded to valid UTF-8, with U+FFFD for everything that is none.  A number becomes the
nearest number that a {lit}`float64` can hold, written as a rational number.
-/

namespace Veilence
namespace Go

namespace Json

/-! ## Strings -/

/-- {lit}`utf8.AppendRune` of a valid code point. -/
def encodeRune (r : Nat) : GoString :=
  if r < 0x80 then [Char.ofNat r]
  else if r < 0x800 then [0xC0 + r / 0x40, 0x80 + r % 0x40].map Char.ofNat
  else if r < 0x10000 then
    [0xE0 + r / 0x1000, 0x80 + r / 0x40 % 0x40, 0x80 + r % 0x40].map Char.ofNat
  else
    [0xF0 + r / 0x40000, 0x80 + r / 0x1000 % 0x40, 0x80 + r / 0x40 % 0x40,
      0x80 + r % 0x40].map Char.ofNat

/-- {lit}`unicode.ReplacementChar`. -/
def replacementChar : Nat :=
  0xFFFD

/-- The value of a hexadecimal digit. -/
def hexDigit (c : Char) : Nat :=
  if c.isDigit then c.toNat - '0'.toNat
  else if 'a' ≤ c then c.toNat - 'a'.toNat + 10
  else c.toNat - 'A'.toNat + 10

/-- {lit}`getu4`: the value of four hexadecimal digits. -/
def getu4 (a b c d : Char) : Nat :=
  ((hexDigit a * 16 + hexDigit b) * 16 + hexDigit c) * 16 + hexDigit d

/-- {lit}`utf16.IsSurrogate`. -/
def isSurrogate (r : Nat) : Bool :=
  0xD800 ≤ r && r < 0xE000

/-- {lit}`utf16.DecodeRune`: the code point of a surrogate pair, if it is one. -/
def decodePair (r r' : Nat) : Option Nat :=
  if 0xD800 ≤ r ∧ r < 0xDC00 ∧ 0xDC00 ≤ r' ∧ r' < 0xE000 then
    some ((r - 0xD800) * 0x400 + (r' - 0xDC00) + 0x10000)
  else none

/-- The byte of an escape of one letter. -/
def unescape (c : Char) : Char :=
  if c = 'b' then '\x08'
  else if c = 'f' then '\x0c'
  else if c = 'n' then '\n'
  else if c = 'r' then '\r'
  else if c = 't' then '\t'
  else c

/-- The code point of a surrogate and the escape after it, if they are a pair. -/
def pairAfter (r : Nat) : GoString → Option Nat
  | '\\' :: 'u' :: a :: b :: c :: d :: _ => decodePair r (getu4 a b c d)
  | _ => none

/-- What an escape stands for, given the bytes after its backslash, and how many of them
it has. -/
def decodeEscape : GoString → GoString × Nat
  | 'u' :: a :: b :: c :: d :: rest =>
      if isSurrogate (getu4 a b c d) then
        match pairAfter (getu4 a b c d) rest with
        | some r => (encodeRune r, 11)
        | none => (encodeRune replacementChar, 5)
      else (encodeRune (getu4 a b c d), 5)
  | c :: _ => ([unescape c], 1)
  | [] => ([], 0)

/-- The loop of {lit}`unquote`, with so many bytes that are passed and so many after them
that are copied as they are.  The bytes of a valid encoding are copied, any other byte
becomes U+FFFD. -/
def unquoteAfter : Nat → Nat → GoString → GoString
  | _, _, [] => []
  | pass + 1, copy, _ :: rest => unquoteAfter pass copy rest
  | 0, copy + 1, c :: rest => c :: unquoteAfter 0 copy rest
  | 0, 0, c :: rest =>
      if c = '\\' then (decodeEscape rest).1 ++ unquoteAfter (decodeEscape rest).2 0 rest
      else if c.toNat < 0x80 then c :: unquoteAfter 0 0 rest
      else if runeWidth (c :: rest) = 1 then
        encodeRune replacementChar ++ unquoteAfter 0 0 rest
      else c :: unquoteAfter 0 (runeWidth (c :: rest) - 1) rest

/-- {lit}`unquote`: the string of a literal. -/
def unquote (body : GoString) : GoString :=
  unquoteAfter 0 0 body

/-! ## Numbers -/

/-- A power of two. -/
def pow2 (e : Int) : Rat :=
  if 0 ≤ e then ((2 ^ e.toNat : Nat) : Rat) else 1 / ((2 ^ (-e).toNat : Nat) : Rat)

/-- The exponent of the power of two at or below a positive number. -/
def binade (q : Rat) : Int :=
  let e := (Nat.log2 q.num.natAbs : Int) - Nat.log2 q.den
  if q < pow2 e then e - 1 else e

/-- The nearest integer, the even one between two. -/
def roundHalfEven (q : Rat) : Int :=
  let n := q.floor
  if q - n < 1 / 2 then n
  else if 1 / 2 < q - n then n + 1
  else if n % 2 = 0 then n
  else n + 1

/-- The nearest number that a {lit}`float64` can hold, nothing if it is out of range. -/
def toFloat64 (q : Rat) : Option Rat :=
  if q = 0 then some 0
  else
    let unit := pow2 (max (binade |q| - 52) (-1074))
    let rounded := roundHalfEven (|q| / unit) * unit
    if pow2 1024 ≤ rounded then none else some (if q < 0 then -rounded else rounded)

/-- The value of digits. -/
def digitsValue (s : GoString) : Nat :=
  Nat.ofDigitChars 10 s 0

/-- The sign, the digits before and after the point and the exponent of a number. -/
def numberParts (s : GoString) : Bool × GoString × GoString × Int :=
  let negative := s.head? = some '-'
  let s := if negative then s.tail else s
  let int := s.takeWhile Char.isDigit
  let s := s.dropWhile Char.isDigit
  let frac := if s.head? = some '.' then s.tail.takeWhile Char.isDigit else []
  let s := if s.head? = some '.' then s.tail.dropWhile Char.isDigit else s
  let exp := s.tail
  let down := exp.head? = some '-'
  let digits := exp.dropWhile fun c => !c.isDigit
  (negative, int, frac, if down then -digitsValue digits else digitsValue digits)

/-- {lit}`strconv.ParseFloat` of the text of a number, nothing for a range error. -/
def parseFloat (s : GoString) : Option Rat :=
  let (negative, int, frac, exp) := numberParts s
  let mantissa : Rat := digitsValue (int ++ frac)
  let shift : Int := exp - frac.length
  let q := if 0 ≤ shift then mantissa * ((10 ^ shift.toNat : Nat) : Rat)
    else mantissa / ((10 ^ (-shift).toNat : Nat) : Rat)
  toFloat64 (if negative then -q else q)

example : parseFloat "-12.5e1".toList = some (-125) := by
  decide +kernel

example : unquote "a\\u00e9\\ud83d\\ude00\\n".toList =
    ['a', '\xc3', '\xa9', '\xf0', '\x9f', '\x98', '\x80', '\n'] := by
  decide +kernel

end Json

end Go
end Veilence

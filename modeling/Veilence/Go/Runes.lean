import Mathlib
import Veilence.Go.Text
import Veilence.Go.Utf8

/-!
# Characters of a string

The characters that a {lit}`range` loop gets from a byte string, and the bytes of a character.
Here a character is a Unicode scalar value; a byte that belongs to no valid encoding is read as
{lit}`utf8.RuneError`.

Main results:

- Theorem {lit}`runes_encodeRunes`: encoded characters are read back.
- Theorem {lit}`runes_append_ascii`: an ASCII character ends every encoding before it.
-/

namespace Veilence
namespace Go

/-- {lit}`utf8.RuneError`. -/
def runeError : Char :=
  Char.ofNat 0xFFFD

/-- A byte that continues an encoding. -/
def isContinuation (c : Char) : Bool :=
  byteIn 0x80 0xBF c

/-- The six bits of a byte that continues an encoding. -/
def payload (c : Char) : Nat :=
  c.toNat - 0x80

/-- A byte that may follow the first byte of a longer encoding, {lit}`acceptRanges`. -/
def isSecond (c c1 : Char) : Bool :=
  byteIn (if c.toNat = 0xE0 then 0xA0 else if c.toNat = 0xF0 then 0x90 else 0x80)
    (if c.toNat = 0xED then 0x9F else if c.toNat = 0xF4 then 0x8F else 0xBF) c1

/-- {lit}`utf8.DecodeRune`: the first character, and the number of bytes that continue it. -/
def decodeRune (c : Char) (rest : GoString) : Char × Nat :=
  if c.toNat < 0x80 then (c, 0)
  else if byteIn 0xC2 0xDF c then
    match rest with
    | c1 :: _ =>
        if isContinuation c1 then (Char.ofNat ((c.toNat - 0xC0) * 64 + payload c1), 1)
        else (runeError, 0)
    | [] => (runeError, 0)
  else if byteIn 0xE0 0xEF c then
    match rest with
    | c1 :: c2 :: _ =>
        if isSecond c c1 && isContinuation c2 then
          (Char.ofNat (((c.toNat - 0xE0) * 64 + payload c1) * 64 + payload c2), 2)
        else (runeError, 0)
    | _ => (runeError, 0)
  else if byteIn 0xF0 0xF4 c then
    match rest with
    | c1 :: c2 :: c3 :: _ =>
        if isSecond c c1 && isContinuation c2 && isContinuation c3 then
          (Char.ofNat ((((c.toNat - 0xF0) * 64 + payload c1) * 64 + payload c2) * 64 +
            payload c3), 3)
        else (runeError, 0)
    | _ => (runeError, 0)
  else (runeError, 0)

/-- The characters that begin after so many bytes. -/
def runesAfter : Nat → GoString → List Char
  | _, [] => []
  | skip + 1, _ :: rest => runesAfter skip rest
  | 0, c :: rest => (decodeRune c rest).1 :: runesAfter (decodeRune c rest).2 rest

/-- The characters of a byte string. -/
def runes (s : GoString) : List Char :=
  runesAfter 0 s

/-- {lit}`utf8.AppendRune`: the bytes of a character. -/
def encodeRune (r : Char) : GoString :=
  let n := r.toNat
  if n < 0x80 then [r]
  else if n < 0x800 then [Char.ofNat (0xC0 + n / 64), Char.ofNat (0x80 + n % 64)]
  else if n < 0x10000 then
    [Char.ofNat (0xE0 + n / 4096), Char.ofNat (0x80 + n / 64 % 64), Char.ofNat (0x80 + n % 64)]
  else
    [Char.ofNat (0xF0 + n / 262144), Char.ofNat (0x80 + n / 4096 % 64),
      Char.ofNat (0x80 + n / 64 % 64), Char.ofNat (0x80 + n % 64)]

/-- The bytes of a text. -/
def encodeRunes (rs : List Char) : GoString :=
  rs.flatMap encodeRune

/-! ## Numbers and characters -/

theorem toNat_ofNat_of_lt {n : Nat} (hn : n < 0xD800) : (Char.ofNat n).toNat = n := by
  rw [Char.toNat_ofNat, if_pos (Or.inl hn)]

theorem toNat_ofNat_of_gt {n : Nat} (hlow : 0xDFFF < n) (hhigh : n < 0x110000) :
    (Char.ofNat n).toNat = n := by
  rw [Char.toNat_ofNat, if_pos (Or.inr ⟨hlow, hhigh⟩)]

/-- A character is a scalar value. -/
theorem toNat_valid (r : Char) : r.toNat < 0xD800 ∨ 0xDFFF < r.toNat ∧ r.toNat < 0x110000 :=
  r.valid

theorem byteIn_iff {low high : Nat} {c : Char} :
    byteIn low high c = true ↔ low ≤ c.toNat ∧ c.toNat ≤ high := by
  simp [byteIn]

theorem isSecond_iff {c c1 : Char} :
    isSecond c c1 = true ↔
      (if c.toNat = 0xE0 then 0xA0 else if c.toNat = 0xF0 then 0x90 else 0x80) ≤ c1.toNat ∧
        c1.toNat ≤ (if c.toNat = 0xED then 0x9F else if c.toNat = 0xF4 then 0x8F else 0xBF) :=
  byteIn_iff

theorem isContinuation_iff {c : Char} :
    isContinuation c = true ↔ 0x80 ≤ c.toNat ∧ c.toNat ≤ 0xBF :=
  byteIn_iff

theorem ofNat_eq {n : Nat} {r : Char} (hn : n = r.toNat) : Char.ofNat n = r := by
  rw [hn]
  exact Char.ofNat_toNat r

/-! ## Reading encoded characters -/

/-- The first character of an encoded one. -/
theorem decodeRune_encodeRune (r : Char) :
    ∃ c rest, encodeRune r = c :: rest ∧ ∀ s, decodeRune c (rest ++ s) = (r, rest.length) := by
  have hvalid := toNat_valid r
  unfold encodeRune
  dsimp only
  split_ifs with h1 h2 h3
  · refine ⟨r, [], rfl, fun s => ?_⟩
    rw [decodeRune.eq_def, if_pos h1]
    rfl
  · refine ⟨_, _, rfl, fun s => ?_⟩
    have hc := toNat_ofNat_of_lt (n := 0xC0 + r.toNat / 64) (by omega)
    have hc1 := toNat_ofNat_of_lt (n := 0x80 + r.toNat % 64) (by omega)
    rw [decodeRune.eq_def, if_neg (by omega), if_pos (byteIn_iff.mpr (by omega)), List.singleton_append]
    dsimp only
    rw [if_pos (isContinuation_iff.mpr (by omega)), ofNat_eq (r := r)]
    · rfl
    · unfold payload
      omega
  · refine ⟨_, _, rfl, fun s => ?_⟩
    have hc := toNat_ofNat_of_lt (n := 0xE0 + r.toNat / 4096) (by omega)
    have hc1 := toNat_ofNat_of_lt (n := 0x80 + r.toNat / 64 % 64) (by omega)
    have hc2 := toNat_ofNat_of_lt (n := 0x80 + r.toNat % 64) (by omega)
    rw [decodeRune.eq_def, if_neg (by omega), if_neg (by rw [byteIn_iff]; omega),
      if_pos (byteIn_iff.mpr (by omega))]
    dsimp only [List.cons_append]
    rw [if_pos, ofNat_eq (r := r)]
    · rfl
    · unfold payload
      omega
    · rw [Bool.and_eq_true, isContinuation_iff, isSecond_iff]
      split_ifs <;> omega
  · refine ⟨_, _, rfl, fun s => ?_⟩
    have hc := toNat_ofNat_of_lt (n := 0xF0 + r.toNat / 262144) (by omega)
    have hc1 := toNat_ofNat_of_lt (n := 0x80 + r.toNat / 4096 % 64) (by omega)
    have hc2 := toNat_ofNat_of_lt (n := 0x80 + r.toNat / 64 % 64) (by omega)
    have hc3 := toNat_ofNat_of_lt (n := 0x80 + r.toNat % 64) (by omega)
    rw [decodeRune.eq_def, if_neg (by omega), if_neg (by rw [byteIn_iff]; omega),
      if_neg (by rw [byteIn_iff]; omega), if_pos (byteIn_iff.mpr (by omega))]
    dsimp only [List.cons_append]
    rw [if_pos, ofNat_eq (r := r)]
    · rfl
    · unfold payload
      omega
    · rw [Bool.and_eq_true, Bool.and_eq_true, isContinuation_iff, isContinuation_iff,
        isSecond_iff]
      split_ifs <;> omega

/-- Bytes that are skipped. -/
theorem runesAfter_append (t s : GoString) : runesAfter t.length (t ++ s) = runesAfter 0 s := by
  induction t with
  | nil => rfl
  | cons c t ih => exact ih

theorem runes_encodeRune (r : Char) (s : GoString) : runes (encodeRune r ++ s) = r :: runes s := by
  obtain ⟨c, rest, hencode, hdecode⟩ := decodeRune_encodeRune r
  rw [hencode, List.cons_append, runes, runesAfter, hdecode, runesAfter_append]
  rfl

/-- Encoded characters are read back. -/
theorem runes_encodeRunes (rs : List Char) : runes (encodeRunes rs) = rs := by
  induction rs with
  | nil => rfl
  | cons r rs ih =>
      rw [encodeRunes, List.flatMap_cons, runes_encodeRune]
      exact congrArg (r :: ·) ih

/-- Different texts have different bytes. -/
theorem encodeRunes_injective : Function.Injective encodeRunes :=
  Function.LeftInverse.injective runes_encodeRunes

/-! ## ASCII characters -/

/-- A byte that does not continue an encoding leaves what is before it as it is. -/
theorem decodeRune_append {d : Char} (hd : d.toNat < 0x80) (c : Char) (rest t : GoString) :
    decodeRune c (rest ++ d :: t) = decodeRune c rest := by
  have hcont : isContinuation d = false := by
    rw [← Bool.not_eq_true, isContinuation_iff]
    omega
  have hsecond : isSecond c d = false := by
    rw [← Bool.not_eq_true, isSecond_iff]
    split_ifs <;> omega
  unfold decodeRune
  match rest with
  | [] =>
      match t with
      | [] => simp [hcont]
      | [_] => simp [hcont, hsecond]
      | _ :: _ :: _ => simp [hcont, hsecond]
  | [c1] =>
      match t with
      | [] => simp [hcont]
      | _ :: _ => simp [hcont]
  | [c1, c2] => simp [hcont]
  | c1 :: c2 :: c3 :: rest => rfl

/-- The bytes that continue an encoding are there. -/
theorem decodeRune_le (c : Char) (rest : GoString) : (decodeRune c rest).2 ≤ rest.length := by
  unfold decodeRune
  split_ifs with h1 h2 h3 h4
  · exact Nat.zero_le _
  · split
    · split_ifs <;> simp
    · exact Nat.zero_le _
  · split
    · split_ifs <;> simp
    · exact Nat.zero_le _
  · split
    · split_ifs <;> simp
    · exact Nat.zero_le _
  · exact Nat.zero_le _

theorem runesAfter_append_ascii {d : Char} (hd : d.toNat < 0x80) {skip : Nat} {s : GoString}
    (hskip : skip ≤ s.length) (t : GoString) :
    runesAfter skip (s ++ d :: t) = runesAfter skip s ++ d :: runes t := by
  induction s generalizing skip with
  | nil =>
      obtain rfl := Nat.le_zero.mp hskip
      change runesAfter 0 (d :: t) = d :: runes t
      rw [runesAfter, decodeRune.eq_def, if_pos hd]
      rfl
  | cons c s ih =>
      cases skip with
      | succ skip => exact ih (Nat.le_of_succ_le_succ hskip)
      | zero =>
          rw [List.cons_append, runesAfter, runesAfter, decodeRune_append hd,
            ih (decodeRune_le c s), List.cons_append]

/-- An ASCII character stands by itself. -/
theorem runes_append_ascii {d : Char} (hd : d.toNat < 0x80) (s t : GoString) :
    runes (s ++ d :: t) = runes s ++ d :: runes t :=
  runesAfter_append_ascii hd (Nat.zero_le _) t

/-- A decoded character is the byte itself or not an ASCII one. -/
theorem decodeRune_cases (c : Char) (rest : GoString) :
    (decodeRune c rest).1 = c ∨ 0x80 ≤ (decodeRune c rest).1.toNat := by
  have herror : 0x80 ≤ runeError.toNat := by decide
  unfold decodeRune
  split_ifs with h1 h2 h3 h4
  · exact Or.inl rfl
  · right
    rw [byteIn_iff] at h2
    split
    · split_ifs with hc1
      · rw [isContinuation_iff] at hc1
        rw [toNat_ofNat_of_lt] <;> unfold payload <;> omega
      · exact herror
    · exact herror
  · right
    rw [byteIn_iff] at h3
    split
    · rename_i c1 c2 _
      split_ifs with hc
      · rw [Bool.and_eq_true, isContinuation_iff, isSecond_iff] at hc
        have hn : ((c.toNat - 0xE0) * 64 + payload c1) * 64 + payload c2 < 0xD800 ∨
            0xDFFF < ((c.toNat - 0xE0) * 64 + payload c1) * 64 + payload c2 := by
          unfold payload
          split_ifs at hc <;> omega
        rcases hn with hn | hn
        · rw [toNat_ofNat_of_lt hn]
          unfold payload
          split_ifs at hc <;> omega
        · rw [toNat_ofNat_of_gt hn]
          · omega
          · unfold payload
            split_ifs at hc <;> omega
      · exact herror
    · exact herror
  · right
    rw [byteIn_iff] at h4
    split
    · split_ifs with hc
      · rw [Bool.and_eq_true, Bool.and_eq_true, isContinuation_iff, isContinuation_iff,
          isSecond_iff] at hc
        rw [toNat_ofNat_of_gt] <;> unfold payload <;> split_ifs at hc <;> omega
      · exact herror
    · exact herror
  · exact Or.inr herror

/-- A character of a byte string is one of its bytes or not an ASCII one. -/
theorem mem_of_mem_runesAfter {r : Char} {skip : Nat} {s : GoString} (h : r ∈ runesAfter skip s) :
    r ∈ s ∨ 0x80 ≤ r.toNat := by
  induction s generalizing skip with
  | nil =>
      cases skip <;> exact absurd h List.not_mem_nil
  | cons c s ih =>
      cases skip with
      | succ skip => exact (ih h).imp_left (List.mem_cons_of_mem c)
      | zero =>
          rcases List.mem_cons.mp h with rfl | h
          · refine (decodeRune_cases c s).imp_left fun heq => ?_
            rw [heq]
            exact List.mem_cons_self
          · exact (ih h).imp_left (List.mem_cons_of_mem c)

end Go
end Veilence

import Mathlib

/-!
# Go strings and integers

The Go values that the modelled packages compute with.  A Go string is a finite
sequence of bytes; it is written here as a list of characters, the character of
code {lit}`b` standing for the byte {lit}`b`, so that the ASCII literals of the
source read as themselves and {lit}`len` is the length of the list.  No theorem
of the development needs the characters to stay below 256.
-/

namespace Veilence
namespace Go

/-- A Go string, byte by byte. -/
abbrev GoString := List Char

instance : LawfulBEq GoString :=
  inferInstanceAs (LawfulBEq (List Char))

/-- Two's complement wrap-around of a 64-bit {lit}`int`. -/
def int64 (x : Int) : Int :=
  Int.bmod x (2 ^ 64)

/-- Numbers in the range are kept. -/
theorem int64_of_range {x : Int} (hlow : -2 ^ 63 ≤ x) (hhigh : x < 2 ^ 63) : int64 x = x := by
  unfold int64
  apply Int.bmod_eq_of_le <;> omega

/-- {lit}`strings.Split` at a one-byte separator. -/
def split (sep : Char) (s : GoString) : List GoString :=
  s.splitOn sep

/-- {lit}`strings.Join` with a one-byte separator. -/
def join (sep : Char) (parts : List GoString) : GoString :=
  [sep].intercalate parts

/-- The text of a non-negative integer under the verb {lit}`%d`. -/
def itoa (n : Nat) : GoString :=
  Nat.toDigits 10 n

/-- {lit}`strings.ToLower`, exact as far as the ASCII text can see:
besides the ASCII capitals only U+0130 and U+212A lower to an ASCII letter, and
every other non-ASCII sequence stays outside ASCII. -/
def toLower : GoString → GoString
  | [] => []
  | '\xc4' :: '\xb0' :: cs => 'i' :: toLower cs
  | '\xe2' :: '\x84' :: '\xaa' :: cs => 'k' :: toLower cs
  | c :: cs => c.toLower :: toLower cs

/-- The encodings of the characters that {lit}`unicode.IsSpace` accepts. -/
def spaces : List GoString :=
  [['\t'], ['\n'], ['\x0b'], ['\x0c'], ['\r'], [' '], ['\xc2', '\x85'], ['\xc2', '\xa0'],
    ['\xe1', '\x9a', '\x80'], ['\xe2', '\x80', '\x80'], ['\xe2', '\x80', '\x81'],
    ['\xe2', '\x80', '\x82'], ['\xe2', '\x80', '\x83'], ['\xe2', '\x80', '\x84'],
    ['\xe2', '\x80', '\x85'], ['\xe2', '\x80', '\x86'], ['\xe2', '\x80', '\x87'],
    ['\xe2', '\x80', '\x88'], ['\xe2', '\x80', '\x89'], ['\xe2', '\x80', '\x8a'],
    ['\xe2', '\x80', '\xa8'], ['\xe2', '\x80', '\xa9'], ['\xe2', '\x80', '\xaf'],
    ['\xe2', '\x81', '\x9f'], ['\xe3', '\x80', '\x80']]

/-- Remove any of the given prefixes, at most so many times. -/
def trimPrefixes (prefixes : List GoString) : Nat → GoString → GoString
  | 0, s => s
  | n + 1, s =>
      match prefixes.find? fun p => p.isPrefixOf s with
      | some p => trimPrefixes prefixes n (s.drop p.length)
      | none => s

/-- {lit}`strings.TrimSpace`. -/
def trimSpace (s : GoString) : GoString :=
  let left := trimPrefixes spaces s.length s
  (trimPrefixes (spaces.map List.reverse) left.length left.reverse).reverse

/-- Joining the pieces of a split string gives the string back. -/
@[simp]
theorem join_split (sep : Char) (s : GoString) : join sep (split sep s) = s :=
  List.intercalate_splitOn sep

/-- A split string has at least one piece. -/
theorem split_ne_nil (sep : Char) (s : GoString) : split sep s ≠ [] :=
  List.splitOn_ne_nil sep s

/-- Splitting is injective: different strings have different pieces. -/
theorem split_injective (sep : Char) : Function.Injective (split sep) := by
  intro s t hst
  rw [← join_split sep s, hst, join_split]

/-- A joined text has the characters of its parts and the separator. -/
theorem notMem_join {c sep : Char} (hsep : c ≠ sep) {parts : List GoString}
    (hparts : ∀ part ∈ parts, c ∉ part) : c ∉ join sep parts := by
  induction parts with
  | nil => exact List.not_mem_nil
  | cons part parts ih =>
      have hrest := ih fun p hp => hparts p (List.mem_cons_of_mem part hp)
      have hpart := hparts part List.mem_cons_self
      cases parts with
      | nil => simpa [join, List.intercalate] using hpart
      | cons next parts =>
          have hjoin : join sep (part :: next :: parts) =
              part ++ sep :: join sep (next :: parts) := by
            simp [join, List.intercalate]
          rw [hjoin]
          intro hmem
          rcases List.mem_append.mp hmem with hin | hin
          · exact hpart hin
          · rcases List.mem_cons.mp hin with heq | hin
            · exact hsep heq
            · exact hrest hin

/-- Different numbers have different texts. -/
theorem itoa_injective : Function.Injective itoa := by
  intro m n hmn
  have hread : Nat.ofDigitChars 10 (Nat.toDigits 10 m) 0 =
      Nat.ofDigitChars 10 (Nat.toDigits 10 n) 0 := congrArg (Nat.ofDigitChars 10 · 0) hmn
  simpa using hread

/-- No piece of a split string contains the separator. -/
theorem notMem_of_mem_split {sep : Char} {s part : GoString}
    (hpart : part ∈ split sep s) : sep ∉ part := by
  induction s generalizing part with
  | nil =>
      have hnil : part = [] := by
        simpa [split] using hpart
      simp [hnil]
  | cons c cs ih =>
      simp only [split, List.splitOn_cons_eq_if_modifyHead] at hpart
      split_ifs at hpart with hc
      · rcases List.mem_cons.mp hpart with rfl | hrest
        · simp
        · exact ih hrest
      · have hne : c ≠ sep := by
          simpa using hc
        obtain ⟨head, tail, hsplit⟩ :=
          List.exists_cons_of_ne_nil (List.splitOn_ne_nil sep cs)
        rw [hsplit, List.modifyHead_cons] at hpart
        rcases List.mem_cons.mp hpart with rfl | hrest
        · have hhead : sep ∉ head := ih (by simp [split, hsplit])
          simp [hne.symm, hhead]
        · exact ih (by simp [split, hsplit, hrest])

/-! ## Literals beside a foreign character -/

section

variable {a b s : GoString} {c : Char}

/-- A prefix without a character ends before it. -/
theorem prefix_of_prefix_append_cons (hc : c ∉ s) (h : s <+: a ++ c :: b) : s <+: a := by
  rcases Nat.lt_or_ge a.length s.length with hlt | hle
  · have hmem : c ∈ s := by
      have hget : s[a.length]? = (a ++ c :: b)[a.length]? := by
        obtain ⟨t, ht⟩ := h
        rw [← ht, List.getElem?_append_left hlt]
      rw [List.getElem?_append_right (Nat.le_refl _), Nat.sub_self] at hget
      exact List.mem_of_getElem? hget
    exact absurd hmem hc
  · exact List.prefix_of_prefix_length_le h (List.prefix_append a (c :: b)) hle

/-- An infix without a character is on one side of it. -/
theorem infix_append_cons (hc : c ∉ s) (h : s <:+: a ++ c :: b) : s <:+: a ∨ s <:+: b := by
  induction a with
  | nil =>
      rcases List.infix_cons_iff.mp h with hinit | hinfix
      · have hnil : s = [] := List.prefix_nil.mp (prefix_of_prefix_append_cons (a := []) hc hinit)
        exact Or.inl (by rw [hnil])
      · exact Or.inr hinfix
  | cons d a ih =>
      rcases List.infix_cons_iff.mp h with hinit | hinfix
      · exact Or.inl (prefix_of_prefix_append_cons hc hinit).isInfix
      · exact (ih hinfix).imp_left fun h => h.trans (List.suffix_cons d a).isInfix

end

/-! ## Trimming -/

/-- Trimming removes a prefix. -/
theorem trimPrefixes_suffix (prefixes : List GoString) (n : Nat) (s : GoString) :
    trimPrefixes prefixes n s <:+ s := by
  induction n generalizing s with
  | zero => exact List.suffix_refl s
  | succ n ih =>
      rw [trimPrefixes]
      split
      · exact (ih _).trans (List.drop_suffix _ s)
      · exact List.suffix_refl s

/-- Trimming stops at a character that none of the prefixes has. -/
theorem exists_trimPrefixes {prefixes : List GoString} {c : Char}
    (hc : ∀ p ∈ prefixes, c ∉ p) (n : Nat) (a rest : GoString) :
    ∃ a', a' <:+ a ∧ trimPrefixes prefixes n (a ++ c :: rest) = a' ++ c :: rest := by
  induction n generalizing a with
  | zero => exact ⟨a, List.suffix_refl a, rfl⟩
  | succ n ih =>
      rw [trimPrefixes]
      split
      · rename_i p hfind
        have hinit : p <+: a := by
          apply prefix_of_prefix_append_cons (hc p (List.mem_of_find?_eq_some hfind))
          simpa using List.find?_some hfind
        obtain ⟨a', hsuffix, htrim⟩ := ih (a.drop p.length)
        refine ⟨a', hsuffix.trans (List.drop_suffix _ a), ?_⟩
        rw [List.drop_append_of_le_length hinit.length_le, htrim]
      · exact ⟨a, List.suffix_refl a, rfl⟩

/-- The characters that no encoding of white space has. -/
def Solid (c : Char) : Prop :=
  ∀ p ∈ spaces, c ∉ p

instance : DecidablePred Solid :=
  fun c => inferInstanceAs (Decidable (∀ p ∈ spaces, c ∉ p))

theorem Solid.reverse {c : Char} (hc : Solid c) : ∀ p ∈ spaces.map List.reverse, c ∉ p := by
  intro p hp
  obtain ⟨q, hq, rfl⟩ := List.mem_map.mp hp
  simpa using hc q hq

/-- Trimming keeps what is between two solid characters. -/
theorem exists_trimSpace {c d : Char} (hc : Solid c) (hd : Solid d) (a m b : GoString) :
    ∃ a' b', a' <:+ a ∧ b' <+: b ∧
      trimSpace (a ++ (c :: m ++ [d]) ++ b) = a' ++ (c :: m ++ [d]) ++ b' := by
  obtain ⟨a', ha', hleft⟩ :=
    exists_trimPrefixes hc (a ++ (c :: m ++ [d]) ++ b).length a (m ++ [d] ++ b)
  have hstart : a ++ (c :: m ++ [d]) ++ b = a ++ c :: (m ++ [d] ++ b) := by simp
  have hend : (a' ++ c :: (m ++ [d] ++ b)).reverse = b.reverse ++ d :: (a' ++ c :: m).reverse := by
    simp
  unfold trimSpace
  dsimp only
  rw [hstart] at hleft ⊢
  rw [hleft, hend]
  obtain ⟨b', hb', hright⟩ := exists_trimPrefixes hd.reverse (a' ++ c :: (m ++ [d] ++ b)).length
    b.reverse (a' ++ c :: m).reverse
  refine ⟨a', b'.reverse, ha', ?_, ?_⟩
  · simpa using List.reverse_prefix.mpr hb'
  · rw [hright]
    simp

/-- Trimming a text that begins with a solid character leaves a prefix. -/
theorem trimSpace_prefix {c : Char} (hc : Solid c) (s : GoString) :
    trimSpace (c :: s) <+: c :: s := by
  obtain ⟨a', ha', hleft⟩ := exists_trimPrefixes hc (c :: s).length [] s
  have hnil : a' = [] := List.suffix_nil.mp ha'
  rw [hnil, List.nil_append] at hleft
  unfold trimSpace
  dsimp only
  rw [hleft]
  have hsuffix := trimPrefixes_suffix (spaces.map List.reverse) (c :: s).length (c :: s).reverse
  simpa using List.reverse_prefix.mpr hsuffix

/-- What is trimmed is a part of the text. -/
theorem infix_trimSpace (s : GoString) : trimSpace s <:+: s := by
  have hleft := trimPrefixes_suffix spaces s.length s
  have hright := trimPrefixes_suffix (spaces.map List.reverse)
    (trimPrefixes spaces s.length s).length (trimPrefixes spaces s.length s).reverse
  have hprefix := List.reverse_prefix.mpr hright
  rw [List.reverse_reverse] at hprefix
  exact hprefix.isInfix.trans hleft.isInfix

/-! ## Texts in lower case -/

/-- A text in lower case begins with a character in lower case. -/
theorem toLower_cons_eq_self {c : Char} {s : GoString} (hs : toLower (c :: s) = c :: s) :
    c.toLower = c ∧ toLower s = s := by
  rw [toLower.eq_def] at hs
  split at hs
  · exact absurd hs (by simp)
  · rename_i heq
    obtain ⟨rfl, rfl⟩ := List.cons_eq_cons.mp heq
    exact absurd (List.cons_eq_cons.mp hs).1 (by decide)
  · rename_i heq
    obtain ⟨rfl, rfl⟩ := List.cons_eq_cons.mp heq
    exact absurd (List.cons_eq_cons.mp hs).1 (by decide)
  · rename_i heq
    obtain ⟨rfl, rfl⟩ := List.cons_eq_cons.mp heq
    exact List.cons_eq_cons.mp hs

/-- The end of a text in lower case is in lower case. -/
theorem toLower_append_right {s t : GoString} (hst : toLower (s ++ t) = s ++ t) :
    toLower t = t := by
  induction s with
  | nil => exact hst
  | cons c s ih => exact ih (toLower_cons_eq_self hst).2

/-- The beginning of a text in lower case is in lower case. -/
theorem toLower_append_left {s t : GoString} (hst : toLower (s ++ t) = s ++ t) :
    toLower s = s := by
  induction s with
  | nil => rfl
  | cons c s ih =>
      obtain ⟨hc, hrest⟩ := toLower_cons_eq_self hst
      rw [toLower.eq_def]
      split
      · rename_i heq
        exact absurd heq (by simp)
      · rename_i heq
        obtain ⟨rfl, rfl⟩ := List.cons_eq_cons.mp heq
        exact absurd (List.cons_eq_cons.mp hst).1 (by decide)
      · rename_i heq
        obtain ⟨rfl, rfl⟩ := List.cons_eq_cons.mp heq
        exact absurd (List.cons_eq_cons.mp hst).1 (by decide)
      · rename_i heq
        obtain ⟨rfl, rfl⟩ := List.cons_eq_cons.mp heq
        rw [hc, ih hrest]

/-- A part of a text in lower case is in lower case. -/
theorem toLower_of_infix {s t : GoString} (ht : toLower t = t) (hpart : s <:+: t) :
    toLower s = s := by
  obtain ⟨a, b, rfl⟩ := hpart
  exact toLower_append_right (toLower_append_left ht)

end Go
end Veilence

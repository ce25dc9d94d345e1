import Veilence.Go.Text

/-!
# Searching strings and decoding paths

Main results:

- Theorem {lit}`pathUnescape_append`: text without a percent sign is kept by decoding.
- Theorem {lit}`isPrefixOf_of_pathUnescape`: so is a prefix of that kind.
- Theorem {lit}`pathUnescape_toLower_escapePath`: an escaped path without upper case letters can
  be read when upper and lower case are not told apart.
-/

namespace Veilence
namespace Go

/-- {lit}`strings.Contains`. -/
def contains (s substr : GoString) : Bool :=
  s.tails.any fun t => substr.isPrefixOf t

theorem contains_singleton_iff {s : GoString} {c : Char} : contains s [c] = true ↔ c ∈ s := by
  induction s with
  | nil => simp [contains]
  | cons d s ih =>
      unfold contains at ih ⊢
      rw [List.tails_cons, List.any_cons, Bool.or_eq_true, ih, List.mem_cons]
      simp [List.isPrefixOf]

/-- {lit}`strings.LastIndex` of a byte. -/
def lastIndex (c : Char) (s : GoString) : Option Nat :=
  (s.reverse.idxOf? c).map fun i => s.length - 1 - i

/-- {lit}`strings.CutPrefix`. -/
def cutPrefix (s pre : GoString) : Option GoString :=
  if pre.isPrefixOf s then some (s.drop pre.length) else none

/-- {lit}`strings.ToUpper`, exact as far as the ASCII text can see: besides the ASCII letters
only U+0131 and U+017F have an ASCII letter as their capital. -/
def toUpper : GoString → GoString
  | [] => []
  | '\xc4' :: '\xb1' :: cs => 'I' :: toUpper cs
  | '\xc5' :: '\xbf' :: cs => 'S' :: toUpper cs
  | c :: cs => c.toUpper :: toUpper cs

/-- The value of a hexadecimal digit. -/
def unhex (c : Char) : Option Nat :=
  if '0' ≤ c ∧ c ≤ '9' then some (c.toNat - '0'.toNat)
  else if 'a' ≤ c ∧ c ≤ 'f' then some (c.toNat - 'a'.toNat + 10)
  else if 'A' ≤ c ∧ c ≤ 'F' then some (c.toNat - 'A'.toNat + 10)
  else none

/-- Decode the percent signs of a path, {lit}`unescape` of {lit}`net/url` in the mode of a
path. -/
def pathUnescape : GoString → Option GoString
  | [] => some []
  | c :: cs =>
      if c = '%' then
        match cs with
        | hi :: lo :: rest =>
            match unhex hi, unhex lo with
            | some h, some l => (pathUnescape rest).map (Char.ofNat (16 * h + l) :: ·)
            | _, _ => none
        | _ => none
      else (pathUnescape cs).map (c :: ·)

/-- A byte that is not a percent sign is kept. -/
theorem pathUnescape_cons {c : Char} (hc : c ≠ '%') (cs : GoString) :
    pathUnescape (c :: cs) = (pathUnescape cs).map (c :: ·) := by
  rw [pathUnescape.eq_def]
  exact if_neg hc

/-- Text without a percent sign is kept. -/
theorem pathUnescape_append {s : GoString} (hs : '%' ∉ s) (t : GoString) :
    pathUnescape (s ++ t) = (pathUnescape t).map (s ++ ·) := by
  induction s with
  | nil => simp
  | cons c cs ih =>
      have hc : c ≠ '%' := by
        rintro rfl
        exact hs List.mem_cons_self
      have hcs : '%' ∉ cs := fun h => hs (List.mem_cons_of_mem c h)
      rw [List.cons_append, pathUnescape_cons hc, ih hcs, Option.map_map]
      rfl

/-- A prefix without a percent sign is one of the decoded path too. -/
theorem isPrefixOf_of_pathUnescape {s raw path : GoString} (hs : '%' ∉ s) (hraw : s <+: raw)
    (hpath : pathUnescape raw = some path) : s <+: path := by
  obtain ⟨t, rfl⟩ := hraw
  rw [pathUnescape_append hs, Option.map_eq_some_iff] at hpath
  obtain ⟨t', -, rfl⟩ := hpath
  exact List.prefix_append s t'

/-! ## Escaping -/

/-- {lit}`shouldEscape` of {lit}`net/url` in the mode of a path segment. -/
def shouldEscape (c : Char) : Bool :=
  !(c.isAlphanum || c ∈ ['-', '_', '.', '~', '$', '&', '+', ':', '=', '@'])

/-- A digit of {lit}`upperhex`. -/
def upperhex (n : Nat) : Char :=
  if n < 10 then Char.ofNat ('0'.toNat + n) else Char.ofNat ('A'.toNat + (n - 10))

/-- A byte behind a percent sign. -/
def percentByte (c : Char) : GoString :=
  ['%', upperhex (c.toNat / 16), upperhex (c.toNat % 16)]

/-- {lit}`url.PathEscape`. -/
def pathEscape (s : GoString) : GoString :=
  s.flatMap fun c => if shouldEscape c then percentByte c else [c]

/-- The same for each segment of a path. -/
def escapePath (s : GoString) : GoString :=
  s.flatMap fun c => if shouldEscape c ∧ c ≠ '/' then percentByte c else [c]

/-- In a segment it is the same. -/
theorem escapePath_of_notMem {s : GoString} (hs : '/' ∉ s) : escapePath s = pathEscape s := by
  refine List.flatMap_congr fun c hc => ?_
  have hne : c ≠ '/' := by
    rintro rfl
    exact hs hc
  simp [hne]

/-- The digits are letters and numbers. -/
theorem upperhex_cases {n : Nat} (hn : n < 16) :
    unhex (upperhex n).toLower = some n ∧ (upperhex n).isAlphanum = true := by
  interval_cases n <;> decide

/-- An escaped segment holds no character that is escaped. -/
theorem notMem_pathEscape {s : GoString} (hbytes : ∀ c ∈ s, c.toNat < 256) {d : Char}
    (hd : shouldEscape d = true) (hpercent : d ≠ '%') : d ∉ pathEscape s := by
  intro hmem
  obtain ⟨c, hc, hd'⟩ := List.mem_flatMap.mp hmem
  have halnum : d.isAlphanum = true → False := by
    intro halnum
    simp [shouldEscape, halnum] at hd
  have hlt := hbytes c hc
  split_ifs at hd' with hescape
  · simp only [percentByte, List.mem_cons, List.not_mem_nil, or_false] at hd'
    rcases hd' with rfl | rfl | rfl
    · exact hpercent rfl
    · exact halnum (upperhex_cases (by omega)).2
    · exact halnum (upperhex_cases (by omega)).2
  · rw [List.mem_singleton] at hd'
    rw [← hd'] at hescape
    exact hescape hd

/-- A path that has been escaped and put into lower case is read back if it has no upper case
letters. -/
theorem pathUnescape_toLower_escapePath {s : GoString} (hbytes : ∀ c ∈ s, c.toNat < 256)
    (hlower : ∀ c ∈ s, c.toLower = c) :
    pathUnescape ((escapePath s).map Char.toLower) = some s := by
  induction s with
  | nil => simp [escapePath, pathUnescape]
  | cons c s ih =>
      have hrest := ih (fun c hc => hbytes c (List.mem_cons_of_mem _ hc))
        fun c hc => hlower c (List.mem_cons_of_mem _ hc)
      have hc := hbytes c List.mem_cons_self
      have hsplit : escapePath (c :: s) =
          (if shouldEscape c ∧ c ≠ '/' then percentByte c else [c]) ++ escapePath s := rfl
      rw [hsplit]
      split_ifs with hescape
      · have hhigh := (upperhex_cases (n := c.toNat / 16) (by omega)).1
        have hlow := (upperhex_cases (n := c.toNat % 16) (by omega)).1
        have hvalue : Char.ofNat (16 * (c.toNat / 16) + c.toNat % 16) = c := by
          rw [Nat.div_add_mod]
          exact Char.ofNat_toNat c
        simp only [percentByte, List.cons_append, List.nil_append, List.map_cons]
        rw [show '%'.toLower = '%' from rfl, pathUnescape.eq_def]
        simp only [if_true, hhigh, hlow, hrest, Option.map_some, hvalue]
      · have hne : c ≠ '%' := by
          rintro rfl
          exact hescape ⟨by decide, by decide⟩
        rw [List.singleton_append, List.map_cons, hlower c List.mem_cons_self,
          pathUnescape_cons hne, hrest, Option.map_some]

end Go
end Veilence

import Mathlib
import Veilence.Go.Runes
import Veilence.Go.Url

/-!
# Module paths of the Go proxy

{lit}`encodeModulePath` writes an upper case letter as an exclamation mark and its lower case
letter, and then escapes each segment for a URL.  The validation of a path does not reject
exclamation marks, letters beyond ASCII or invalid bytes.

Main results:

- Theorem {lit}`escapeCase_eq_iff`: when two texts become the same.
- Theorem {lit}`encodeModulePath_eq`: the encoding of a whole path.
- Theorem {lit}`encodeModulePath_ne_iff`: which paths have different URLs.
-/

namespace Veilence
namespace Registry

open Go

/-! ## Paths -/

/-- The letter cases of Unicode, {lit}`unicode.IsUpper` and {lit}`unicode.ToLower`.  They are those
of ASCII for its characters, and a capital whose small letter is an ASCII character is a
capital of a letter. -/
structure LetterCases where
  isUpper : Char → Bool
  toLower : Char → Char
  isUpper_ascii : ∀ c, c.toNat < 0x80 → isUpper c = c.isUpper
  toLower_ascii : ∀ c, c.toNat < 0x80 → toLower c = c.toLower
  isLower_of_ascii : ∀ c, isUpper c = true → (toLower c).toNat < 0x80 →
    (toLower c).isLower = true

/-- {lit}`unicode.IsControl`. -/
def isControl (r : Char) : Bool :=
  r.toNat < 0x20 || 0x7F ≤ r.toNat && r.toNat < 0xA0

/-- {lit}`unicode.IsSpace`. -/
def isSpace (r : Char) : Bool :=
  r.toNat ∈ [0x09, 0x0A, 0x0B, 0x0C, 0x0D, 0x20, 0x85, 0xA0, 0x1680, 0x2028, 0x2029, 0x202F,
    0x205F, 0x3000] || 0x2000 ≤ r.toNat && r.toNat ≤ 0x200A

/-- {lit}`validateModulePath`. -/
def validateModulePath (path : GoString) : Except GoString Unit :=
  let segments := split '/' path
  if path = [] then .error "empty module path".toList
  else if 500 < path.length then
    .error "module path exceeds maximum length of 500 characters".toList
  else if (runes path).any fun r => isControl r || isSpace r then
    .error "module path contains invalid characters".toList
  else if '?' ∈ path ∨ '#' ∈ path then .error "module path contains invalid characters".toList
  else if '.' ∉ segments.headD [] then .error "module path must start with a domain".toList
  else if segments.any fun segment => segment = "..".toList ∨ segment = ".".toList then
    .error "module path contains invalid segment".toList
  else .ok ()

variable (L : LetterCases)

/-- The escape of the upper case letters. -/
def escapeCase (rs : List Char) : List Char :=
  rs.flatMap fun r => if L.isUpper r then ['!', L.toLower r] else [r]

/-- The encoding of a segment. -/
def encodeSegment (segment : GoString) : GoString :=
  pathEscape (encodeRunes (escapeCase L (runes segment)))

/-- {lit}`encodeModulePath`. -/
def encodeModulePath (path : GoString) : GoString :=
  join '/' ((split '/' path).map (encodeSegment L))

/-- Two texts that differ only in this: where one has an upper case letter, the other has another
one with the same lower case letter, or an exclamation mark and that letter. -/
inductive Alike : List Char → List Char → Prop
  | nil : Alike [] []
  | same {rs ss : List Char} (r : Char) : Alike rs ss → Alike (r :: rs) (r :: ss)
  | capitals {rs ss : List Char} {r s : Char} : L.isUpper r = true → L.isUpper s = true →
      L.toLower r = L.toLower s → Alike rs ss → Alike (r :: rs) (s :: ss)
  | markRight {rs ss : List Char} {r : Char} : L.isUpper r = true →
      L.isUpper (L.toLower r) = false → Alike rs ss →
        Alike (r :: rs) ('!' :: L.toLower r :: ss)
  | markLeft {rs ss : List Char} {s : Char} : L.isUpper s = true →
      L.isUpper (L.toLower s) = false → Alike rs ss →
        Alike ('!' :: L.toLower s :: rs) (s :: ss)

variable {L}

/-! ## Upper case letters -/

theorem isUpper_mark : L.isUpper '!' = false :=
  L.isUpper_ascii '!' (by decide)

theorem isUpper_slash : L.isUpper '/' = false :=
  L.isUpper_ascii '/' (by decide)

/-- The small letter of a capital is no other ASCII character. -/
theorem toLower_ne {r : Char} (hr : L.isUpper r = true) {c : Char} (hc : c.toNat < 0x80)
    (hletter : c.isLower = false) : L.toLower r ≠ c := by
  intro heq
  have hlower := L.isLower_of_ascii r hr (by rw [heq]; exact hc)
  rw [heq, hletter] at hlower
  exact absurd hlower Bool.false_ne_true

theorem escapeCase_cons (r : Char) (rs : List Char) :
    escapeCase L (r :: rs) =
      (if L.isUpper r then ['!', L.toLower r] else [r]) ++ escapeCase L rs :=
  rfl

theorem escapeCase_upper {r : Char} (hr : L.isUpper r = true) (rs : List Char) :
    escapeCase L (r :: rs) = '!' :: L.toLower r :: escapeCase L rs := by
  rw [escapeCase_cons, if_pos hr]
  rfl

theorem escapeCase_other {r : Char} (hr : L.isUpper r = false) (rs : List Char) :
    escapeCase L (r :: rs) = r :: escapeCase L rs := by
  rw [escapeCase_cons, hr]
  rfl

theorem escapeCase_append (rs ss : List Char) :
    escapeCase L (rs ++ ss) = escapeCase L rs ++ escapeCase L ss :=
  List.flatMap_append

/-- Texts that are alike become the same. -/
theorem escapeCase_eq_of_alike {rs ss : List Char} (h : Alike L rs ss) :
    escapeCase L rs = escapeCase L ss := by
  induction h with
  | nil => rfl
  | same r _ ih => rw [escapeCase_cons, escapeCase_cons, ih]
  | capitals hr hs hsame _ ih => rw [escapeCase_upper hr, escapeCase_upper hs, hsame, ih]
  | markRight hr hlower _ ih =>
      rw [escapeCase_upper hr, escapeCase_other isUpper_mark, escapeCase_other hlower, ih]
  | markLeft hs hlower _ ih =>
      rw [escapeCase_upper hs, escapeCase_other isUpper_mark, escapeCase_other hlower, ih]

/-- A capital that becomes the same as a text without a capital in front. -/
theorem exists_of_escapeCase_eq {r s : Char} {rs ss : List Char} (hr : L.isUpper r = true)
    (hs : L.isUpper s = false) (heq : escapeCase L (r :: rs) = escapeCase L (s :: ss)) :
    ∃ ts, s = '!' ∧ ss = L.toLower r :: ts ∧ L.isUpper (L.toLower r) = false ∧
      escapeCase L rs = escapeCase L ts := by
  rw [escapeCase_upper hr, escapeCase_other hs] at heq
  obtain ⟨hmark, hrest⟩ := List.cons.inj heq
  cases ss with
  | nil => exact absurd hrest (List.cons_ne_nil _ _)
  | cons t ts =>
      cases ht : L.isUpper t with
      | true =>
          rw [escapeCase_upper ht] at hrest
          exact absurd (List.cons.inj hrest).1 (toLower_ne hr (by decide) (by decide))
      | false =>
          rw [escapeCase_other ht] at hrest
          obtain ⟨hlower, hrest⟩ := List.cons.inj hrest
          exact ⟨ts, hmark.symm, by rw [hlower], by rw [hlower]; exact ht, hrest⟩

/-- Texts become the same exactly if they are alike. -/
theorem escapeCase_eq_iff {rs ss : List Char} :
    escapeCase L rs = escapeCase L ss ↔ Alike L rs ss := by
  refine ⟨?_, escapeCase_eq_of_alike⟩
  intro heq
  induction hn : rs.length using Nat.strong_induction_on generalizing rs ss with
  | _ n ih =>
      cases rs with
      | nil =>
          cases ss with
          | nil => exact .nil
          | cons s ss =>
              cases hs : L.isUpper s with
              | true => rw [escapeCase_upper hs] at heq; exact absurd heq.symm (List.cons_ne_nil _ _)
              | false => rw [escapeCase_other hs] at heq; exact absurd heq.symm (List.cons_ne_nil _ _)
      | cons r rs =>
          have hlt : rs.length < n := by
            rw [← hn]
            exact Nat.lt_succ_self _
          cases ss with
          | nil =>
              cases hr : L.isUpper r with
              | true => rw [escapeCase_upper hr] at heq; exact absurd heq (List.cons_ne_nil _ _)
              | false => rw [escapeCase_other hr] at heq; exact absurd heq (List.cons_ne_nil _ _)
          | cons s ss =>
              cases hr : L.isUpper r with
              | true =>
                  cases hs : L.isUpper s with
                  | true =>
                      rw [escapeCase_upper hr, escapeCase_upper hs] at heq
                      obtain ⟨hlower, hrest⟩ := List.cons.inj (List.cons.inj heq).2
                      exact .capitals hr hs hlower (ih _ hlt hrest rfl)
                  | false =>
                      obtain ⟨ts, rfl, rfl, hlower, hrest⟩ := exists_of_escapeCase_eq hr hs heq
                      exact .markRight hr hlower (ih _ hlt hrest rfl)
              | false =>
                  cases hs : L.isUpper s with
                  | true =>
                      obtain ⟨ts, rfl, rfl, hlower, hrest⟩ :=
                        exists_of_escapeCase_eq hs hr heq.symm
                      exact .markLeft hs hlower
                        (ih _ ((Nat.lt_succ_self _).trans hlt) hrest.symm rfl)
                  | false =>
                      rw [escapeCase_other hr, escapeCase_other hs] at heq
                      obtain ⟨rfl, hrest⟩ := List.cons.inj heq
                      exact .same r (ih _ hlt hrest rfl)

/-! ## Bytes -/

/-- A character that is not in upper case is in lower case already. -/
theorem toLower_of_isUpper {c : Char} (hc : c.isUpper = false) : c.toLower = c := by
  unfold Char.toLower
  rw [dif_neg]
  intro hupper
  exact absurd (hc.symm.trans (decide_eq_true hupper)) Bool.false_ne_true

/-- Characters beyond ASCII are no upper case letters of ASCII. -/
theorem isUpper_of_ge {c : Char} (hc : 0x80 ≤ c.toNat) : c.isUpper = false := by
  rw [← Bool.not_eq_true]
  intro hupper
  have hle : c.val ≤ 'Z'.val := (of_decide_eq_true hupper).2
  have hnat : c.toNat ≤ 90 := UInt32.le_iff_toNat_le.mp hle
  omega

theorem toLower_of_isLower {c : Char} (hc : c.isLower = true) : c.toLower = c := by
  apply toLower_of_isUpper
  rw [← Bool.not_eq_true]
  intro hupper
  have hle : c.val ≤ 'Z'.val := (of_decide_eq_true hupper).2
  have hge : 'a'.val ≤ c.val := of_decide_eq_true ((Bool.and_eq_true ..).mp hc).1
  have hnat : c.toNat ≤ 90 := UInt32.le_iff_toNat_le.mp hle
  have hnat' : 97 ≤ c.toNat := UInt32.le_iff_toNat_le.mp hge
  omega

/-- What comes of the escape of the upper case letters is in lower case. -/
theorem toLower_of_mem_escapeCase {r : Char} {rs : List Char} (hr : r ∈ escapeCase L rs) :
    r.toLower = r := by
  obtain ⟨s, -, hs⟩ := List.mem_flatMap.mp hr
  split_ifs at hs with hupper
  · rcases List.mem_cons.mp hs with rfl | hs
    · rfl
    · rw [List.mem_singleton.mp hs]
      rcases Nat.lt_or_ge (L.toLower s).toNat 0x80 with hascii | hge
      · exact toLower_of_isLower (L.isLower_of_ascii s hupper hascii)
      · exact toLower_of_isUpper (isUpper_of_ge hge)
  · rw [List.mem_singleton.mp hs]
    rcases Nat.lt_or_ge s.toNat 0x80 with hascii | hge
    · rw [L.isUpper_ascii s hascii, Bool.not_eq_true] at hupper
      exact toLower_of_isUpper hupper
    · exact toLower_of_isUpper (isUpper_of_ge hge)

/-- The bytes of a character: itself or bytes beyond ASCII. -/
theorem of_mem_encodeRune {r c : Char} (hc : c ∈ encodeRune r) :
    c = r ∧ r.toNat < 0x80 ∨ 0x80 ≤ c.toNat ∧ c.toNat < 256 := by
  have hvalid := toNat_valid r
  have hbyte : ∀ n, c = Char.ofNat n → 0x80 ≤ n → n < 256 → 0x80 ≤ c.toNat ∧ c.toNat < 256 := by
    rintro n rfl hlow hhigh
    rw [toNat_ofNat_of_lt (by omega)]
    exact ⟨hlow, hhigh⟩
  unfold encodeRune at hc
  dsimp only at hc
  split_ifs at hc with hascii h2 h3
  · exact Or.inl ⟨List.mem_singleton.mp hc, hascii⟩
  all_goals
    right
    simp only [List.mem_cons, List.not_mem_nil, or_false] at hc
  · rcases hc with hc | hc
    all_goals exact hbyte _ hc (by omega) (by omega)
  · rcases hc with hc | hc | hc
    all_goals exact hbyte _ hc (by omega) (by omega)
  · rcases hc with hc | hc | hc | hc
    all_goals exact hbyte _ hc (by omega) (by omega)

/-- The bytes of a text in lower case. -/
theorem of_mem_encodeRunes {rs : List Char} (hrs : ∀ r ∈ rs, r.toLower = r) {c : Char}
    (hc : c ∈ encodeRunes rs) : c.toNat < 256 ∧ c.toLower = c := by
  obtain ⟨r, hr, hc⟩ := List.mem_flatMap.mp hc
  rcases of_mem_encodeRune hc with ⟨rfl, hascii⟩ | ⟨hlow, hhigh⟩
  · exact ⟨by omega, hrs c hr⟩
  · exact ⟨hhigh, toLower_of_isUpper (isUpper_of_ge hlow)⟩

theorem encodeRunes_append (rs ss : List Char) :
    encodeRunes (rs ++ ss) = encodeRunes rs ++ encodeRunes ss :=
  List.flatMap_append

/-- Without a slash before, there is none after. -/
theorem slash_notMem {segment : GoString} (hsegment : '/' ∉ segment) :
    '/' ∉ encodeRunes (escapeCase L (runes segment)) := by
  intro hmem
  obtain ⟨r, hr, hslash⟩ := List.mem_flatMap.mp hmem
  rcases of_mem_encodeRune hslash with ⟨rfl, -⟩ | ⟨hlow, -⟩
  · obtain ⟨s, hs, hr⟩ := List.mem_flatMap.mp hr
    split_ifs at hr with hupper
    · rcases List.mem_cons.mp hr with hmark | hr
      · exact absurd hmark (by decide)
      · exact toLower_ne hupper (c := '/') (by decide) (by decide) (List.mem_singleton.mp hr).symm
    · rw [← List.mem_singleton.mp hr] at hs
      rcases mem_of_mem_runesAfter hs with hmem | hge
      · exact hsegment hmem
      · exact absurd hge (by decide)
  · exact absurd hlow (by decide)

/-! ## The encoding -/

theorem join_cons_cons (sep : Char) (a b : GoString) (rest : List GoString) :
    join sep (a :: b :: rest) = a ++ sep :: join sep (b :: rest) := by
  unfold join
  rw [List.intercalate_cons_cons, List.append_assoc]
  rfl

/-- The encoding of a path, segment by segment or as a whole. -/
theorem join_map_encodeSegment {segments : List GoString} (hne : segments ≠ [])
    (hslash : ∀ segment ∈ segments, '/' ∉ segment) :
    join '/' (segments.map (encodeSegment L)) =
      escapePath (encodeRunes (escapeCase L (runes (join '/' segments)))) := by
  induction segments with
  | nil => exact absurd rfl hne
  | cons segment rest ih =>
      have hsegment := hslash segment List.mem_cons_self
      have hfirst : encodeSegment L segment =
          escapePath (encodeRunes (escapeCase L (runes segment))) :=
        (escapePath_of_notMem (slash_notMem hsegment)).symm
      cases rest with
      | nil => simpa [join] using hfirst
      | cons next rest =>
          have hrest := ih (List.cons_ne_nil _ _) fun s hs => hslash s (List.mem_cons_of_mem _ hs)
          rw [List.map_cons] at hrest
          rw [List.map_cons, List.map_cons, join_cons_cons, hrest, join_cons_cons,
            runes_append_ascii (by decide), escapeCase_append, escapeCase_other isUpper_slash,
            encodeRunes_append, hfirst]
          unfold escapePath
          rw [List.flatMap_append]
          rfl

/-- The encoding of a whole path. -/
theorem encodeModulePath_eq (path : GoString) :
    encodeModulePath L path = escapePath (encodeRunes (escapeCase L (runes path))) := by
  unfold encodeModulePath
  rw [join_map_encodeSegment (split_ne_nil '/' path) fun _ => notMem_of_mem_split, join_split]

/-- The encoding can be read when upper and lower case are not told apart. -/
theorem pathUnescape_encodeModulePath (path : GoString) :
    pathUnescape ((encodeModulePath L path).map Char.toLower) =
      some (encodeRunes (escapeCase L (runes path))) := by
  have hbytes : ∀ c ∈ encodeRunes (escapeCase L (runes path)), c.toNat < 256 ∧ c.toLower = c :=
    fun c hc => of_mem_encodeRunes (fun r => toLower_of_mem_escapeCase) hc
  rw [encodeModulePath_eq, pathUnescape_toLower_escapePath]
  · exact fun c hc => (hbytes c hc).1
  · exact fun c hc => (hbytes c hc).2

/-- The encodings of two paths are the same, up to the case, exactly if the paths are alike. -/
theorem encodeModulePath_eq_iff {p q : GoString} :
    (encodeModulePath L p).map Char.toLower = (encodeModulePath L q).map Char.toLower ↔
      Alike L (runes p) (runes q) := by
  rw [← escapeCase_eq_iff]
  constructor
  · intro heq
    have hread := congrArg pathUnescape heq
    rw [pathUnescape_encodeModulePath, pathUnescape_encodeModulePath] at hread
    exact encodeRunes_injective (Option.some.inj hread)
  · intro heq
    rw [encodeModulePath_eq, encodeModulePath_eq, heq]

/-- An encoded segment has none of the characters that are escaped. -/
theorem notMem_encodeSegment {segment : GoString} {d : Char} (hd : shouldEscape d = true)
    (hpercent : d ≠ '%') : d ∉ encodeSegment L segment := by
  apply notMem_pathEscape _ hd hpercent
  intro c hc
  exact (of_mem_encodeRunes (fun r => toLower_of_mem_escapeCase) hc).1

/-- An encoded path has the segments of the path. -/
theorem split_encodeModulePath (path : GoString) :
    split '/' (encodeModulePath L path) = (split '/' path).map (encodeSegment L) := by
  apply List.splitOn_intercalate
  · intro encoded hencoded
    obtain ⟨segment, -, rfl⟩ := List.mem_map.mp hencoded
    exact notMem_encodeSegment (by decide) (by decide)
  · simp [split_ne_nil]

/-- A character of a joined text is one of a part or the separator. -/
theorem mem_of_mem_join {sep c : Char} {parts : List GoString} (hc : c ∈ join sep parts) :
    c = sep ∨ ∃ part ∈ parts, c ∈ part := by
  induction parts with
  | nil => exact absurd hc List.not_mem_nil
  | cons part rest ih =>
      cases rest with
      | nil =>
          have hpart : c ∈ part := by
            simpa [join] using hc
          exact Or.inr ⟨part, List.mem_cons_self, hpart⟩
      | cons next rest =>
          rw [join_cons_cons] at hc
          rcases List.mem_append.mp hc with hpart | hc
          · exact Or.inr ⟨part, List.mem_cons_self, hpart⟩
          · rcases List.mem_cons.mp hc with hsep | hc
            · exact Or.inl hsep
            · refine (ih hc).imp_right fun hrest => ?_
              obtain ⟨other, hother, hmem⟩ := hrest
              exact ⟨other, List.mem_cons_of_mem _ hother, hmem⟩

/-- An encoded path has no character that would end it. -/
theorem notMem_encodeModulePath {path : GoString} {d : Char} (hd : shouldEscape d = true)
    (hpercent : d ≠ '%') (hslash : d ≠ '/') : d ∉ encodeModulePath L path := by
  intro hmem
  rcases mem_of_mem_join hmem with heq | ⟨encoded, hencoded, hmem⟩
  · exact hslash heq
  · obtain ⟨segment, -, rfl⟩ := List.mem_map.mp hencoded
    exact notMem_encodeSegment hd hpercent hmem

/-- Two paths have different encodings, even when the case of letters is not told apart, exactly
if they are not alike; and an encoded path has as many segments as the path and no character
that would end it. -/
theorem encodeModulePath_ne_iff (L : LetterCases) (p q : GoString) :
    ((encodeModulePath L p).map Char.toLower ≠ (encodeModulePath L q).map Char.toLower ↔
      ¬Alike L (runes p) (runes q)) ∧
    (split '/' (encodeModulePath L p)).length = (split '/' p).length ∧
    '?' ∉ encodeModulePath L p ∧ '#' ∉ encodeModulePath L p := by
  refine ⟨not_congr encodeModulePath_eq_iff, ?_, ?_, ?_⟩
  · rw [split_encodeModulePath, List.length_map]
  · exact notMem_encodeModulePath (by decide) (by decide) (by decide)
  · exact notMem_encodeModulePath (by decide) (by decide) (by decide)

/-! ### Two modules -/

/-- The small letter of a capital of ASCII. -/
theorem isLower_toLower {c : Char} (hc : c.isUpper = true) : c.toLower.isLower = true := by
  have hbounds : 'A'.val ≤ c.val ∧ c.val ≤ 'Z'.val := of_decide_eq_true hc
  have hlow : 65 ≤ c.toNat := UInt32.le_iff_toNat_le.mp hbounds.1
  have hhigh : c.toNat ≤ 90 := UInt32.le_iff_toNat_le.mp hbounds.2
  have hall : ∀ n, 65 ≤ n → n ≤ 90 → (Char.ofNat n).toLower.isLower = true := by
    intro n hlow hhigh
    interval_cases n <;> decide
  rw [← Char.ofNat_toNat c]
  exact hall c.toNat hlow hhigh

/-- The letter cases of ASCII, with no other upper case letters. -/
def asciiCases : LetterCases where
  isUpper := Char.isUpper
  toLower := Char.toLower
  isUpper_ascii _ _ := rfl
  toLower_ascii _ _ := rfl
  isLower_of_ascii _ hc _ := isLower_toLower hc

/-- Two modules have the same URL, as the exclamation mark is not rejected. -/
theorem encodeModulePath_collision :
    validateModulePath "a.b/X".toList = .ok () ∧ validateModulePath "a.b/!x".toList = .ok () ∧
      "a.b/X".toList ≠ "a.b/!x".toList ∧
      encodeModulePath asciiCases "a.b/X".toList = encodeModulePath asciiCases "a.b/!x".toList := by
  decide +kernel

end Registry
end Veilence

import Veilence.Go.Url

/-!
# Query strings

The escaping of {lit}`net/url` in the mode of a query component.

Main results:

- Theorem {lit}`queryUnescape_queryEscape`: what is escaped is read back.
- Theorem {lit}`split_encodeValues`: the ampersands of encoded parameters separate them.
-/

namespace Veilence
namespace Go

/-- {lit}`shouldEscape` of {lit}`net/url` in the mode of a query component. -/
def shouldEscapeQuery (c : Char) : Bool :=
  !(c.isAlphanum || c ∈ ['-', '_', '.', '~'])

/-- The spelling of a byte in a query. -/
def queryByte (c : Char) : GoString :=
  if c = ' ' then ['+'] else if shouldEscapeQuery c then percentByte c else [c]

/-- {lit}`url.QueryEscape`. -/
def queryEscape (s : GoString) : GoString :=
  s.flatMap queryByte

/-- {lit}`url.QueryUnescape`. -/
def queryUnescape : GoString → Option GoString
  | [] => some []
  | c :: cs =>
      if c = '%' then
        match cs with
        | hi :: lo :: rest =>
            match unhex hi, unhex lo with
            | some h, some l => (queryUnescape rest).map (Char.ofNat (16 * h + l) :: ·)
            | _, _ => none
        | _ => none
      else (queryUnescape cs).map ((if c = '+' then ' ' else c) :: ·)

theorem unhex_upperhex {n : Nat} (hn : n < 16) : unhex (upperhex n) = some n := by
  interval_cases n <;> decide

/-- What is escaped is read back. -/
theorem queryUnescape_queryEscape {s : GoString} (hbytes : (s.all fun c => c.toNat < 256) = true) :
    queryUnescape (queryEscape s) = some s := by
  induction s with
  | nil => rfl
  | cons c s ih =>
      rw [List.all_cons, Bool.and_eq_true, decide_eq_true_eq] at hbytes
      obtain ⟨hc, hs⟩ := hbytes
      have hsplit : queryEscape (c :: s) = queryByte c ++ queryEscape s := rfl
      rw [hsplit]
      unfold queryByte
      split_ifs with hspace hescape
      · rw [hspace, List.singleton_append, queryUnescape.eq_def]
        simp only [show ('+' : Char) ≠ '%' by decide, if_false, if_true, ih hs, Option.map_some]
      · have hhigh := unhex_upperhex (n := c.toNat / 16) (by omega)
        have hlow := unhex_upperhex (n := c.toNat % 16) (by omega)
        have hvalue : Char.ofNat (16 * (c.toNat / 16) + c.toNat % 16) = c := by
          rw [Nat.div_add_mod]
          exact Char.ofNat_toNat c
        simp only [percentByte, List.cons_append, List.nil_append]
        rw [queryUnescape.eq_def]
        simp only [if_true, hhigh, hlow, ih hs, Option.map_some, hvalue]
      · have hpercent : c ≠ '%' := by
          rintro rfl
          exact hescape (by decide)
        have hplus : c ≠ '+' := by
          rintro rfl
          exact hescape (by decide)
        rw [List.singleton_append, queryUnescape.eq_def]
        simp only [hpercent, hplus, if_false, ih hs, Option.map_some]

/-- The characters of an escaped text. -/
def queryChar (c : Char) : Bool :=
  c.isAlphanum || c ∈ ['-', '_', '.', '~', '%', '+']

theorem all_queryEscape {s : GoString} (hbytes : (s.all fun c => c.toNat < 256) = true) :
    (queryEscape s).all queryChar = true := by
  rw [List.all_eq_true] at hbytes ⊢
  intro d hd
  obtain ⟨c, hc, hd'⟩ := List.mem_flatMap.mp hd
  have hlt : c.toNat < 256 := of_decide_eq_true (hbytes c hc)
  have halnum : ∀ n < 16, queryChar (upperhex n) = true := by
    intro n hn
    simp [queryChar, (upperhex_cases hn).2]
  unfold queryByte at hd'
  split_ifs at hd' with hspace hescape
  · rw [List.mem_singleton.mp hd']
    rfl
  · simp only [percentByte, List.mem_cons, List.not_mem_nil, or_false] at hd'
    rcases hd' with rfl | rfl | rfl
    · rfl
    · exact halnum _ (by omega)
    · exact halnum _ (by omega)
  · rw [List.mem_singleton.mp hd']
    unfold shouldEscapeQuery at hescape
    unfold queryChar
    simp only [Bool.not_eq_true', Bool.not_eq_false, Bool.or_eq_true, decide_eq_true_eq,
      List.mem_cons] at hescape ⊢
    tauto

theorem notMem_queryEscape {s : GoString} (hbytes : (s.all fun c => c.toNat < 256) = true)
    {d : Char} (hd : queryChar d = false) : d ∉ queryEscape s := by
  intro hmem
  rw [List.all_eq_true.mp (all_queryEscape hbytes) d hmem] at hd
  exact nomatch hd

/-- {lit}`Encode` of {lit}`url.Values`: the parameters in the order of their names. -/
def encodeValues (params : List (GoString × GoString)) : GoString :=
  join '&' ((params.insertionSort fun p q => p.1 ≤ q.1).map fun p =>
    queryEscape p.1 ++ '=' :: queryEscape p.2)

/-- The texts of names and values. -/
def BytesParams (params : List (GoString × GoString)) : Prop :=
  ∀ p ∈ params, (p.1.all fun c => c.toNat < 256) = true ∧ (p.2.all fun c => c.toNat < 256) = true

/-- The parts between the ampersands. -/
theorem split_encodeValues {params : List (GoString × GoString)} (hne : params ≠ [])
    (hbytes : BytesParams params) :
    split '&' (encodeValues params) = (params.insertionSort fun p q => p.1 ≤ q.1).map fun p =>
      queryEscape p.1 ++ '=' :: queryEscape p.2 := by
  apply List.splitOn_intercalate
  · intro part hpart hmem
    obtain ⟨p, hp, rfl⟩ := List.mem_map.mp hpart
    obtain ⟨hname, hvalue⟩ := hbytes p ((List.perm_insertionSort _ _).mem_iff.mp hp)
    rcases List.mem_append.mp hmem with hin | hin
    · exact notMem_queryEscape hname rfl hin
    · rcases List.mem_cons.mp hin with heq | hin
      · exact absurd heq (by decide)
      · exact notMem_queryEscape hvalue rfl hin
  · intro hnil
    rw [List.map_eq_nil_iff] at hnil
    have hlength := List.length_insertionSort (fun p q : GoString × GoString => p.1 ≤ q.1) params
    rw [hnil] at hlength
    exact hne (List.length_eq_zero_iff.mp hlength.symm)

/-- The characters of encoded parameters. -/
theorem notMem_encodeValues {params : List (GoString × GoString)} (hbytes : BytesParams params)
    {d : Char} (hd : queryChar d = false) (hamp : d ≠ '&') (heq : d ≠ '=') :
    d ∉ encodeValues params := by
  apply notMem_join hamp
  intro part hpart hmem
  obtain ⟨p, hp, rfl⟩ := List.mem_map.mp hpart
  obtain ⟨hname, hvalue⟩ := hbytes p ((List.perm_insertionSort _ _).mem_iff.mp hp)
  rcases List.mem_append.mp hmem with hin | hin
  · exact notMem_queryEscape hname hd hin
  · rcases List.mem_cons.mp hin with hin | hin
    · exact heq hin
    · exact notMem_queryEscape hvalue hd hin

end Go
end Veilence

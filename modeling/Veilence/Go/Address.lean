import Veilence.Go.Url

/-!
# IP addresses from text

The two kinds of texts that {lit}`net.ParseIP` reads.  An address has eight groups of sixteen
bits; an IPv4 address is the IPv6 address that it is mapped to.

Main results:

- Theorem {lit}`parseIPv4_injective`: an IPv4 address is spelled in one way.
- Theorem {lit}`exists_lastColon`: an IPv6 address has a colon before its last one.
- Theorem {lit}`isAddressChar_of_parseIPv6`: it has no other characters than digits, colons and
  periods.
-/

namespace Veilence
namespace Go

/-- Eight groups of an address. -/
abbrev Address : Type := List Nat

/-- A decimal number below 256 without a leading zero. -/
def parseOctet (s : GoString) : Option Nat :=
  (List.range 256).find? fun n => itoa n = s

/-- The octets of the texts between periods. -/
def parseOctets : List GoString → Option (List Nat)
  | [] => some []
  | s :: parts => (parseOctet s).bind fun n => (parseOctets parts).map fun ns => n :: ns

/-- The four octets of an IPv4 address. -/
def parseIPv4 (s : GoString) : Option (List Nat) :=
  if (split '.' s).length = 4 then parseOctets (split '.' s) else none

/-- The two groups of four octets. -/
def groupsOfOctets : List Nat → List Nat
  | [a, b, c, d] => [256 * a + b, 256 * c + d]
  | _ => []

/-- A group of one to four hexadecimal digits. -/
def parseGroup (s : GoString) : Option Nat :=
  if s ≠ [] ∧ s.length ≤ 4 ∧ (s.all fun c => (unhex c).isSome) = true then
    some (s.foldl (fun n c => 16 * n + (unhex c).getD 0) 0)
  else none

/-- The groups between colons; the last one may be an IPv4 address where this is allowed. -/
def parseGroups (octets : Bool) : List GoString → Option (List Nat)
  | [] => some []
  | [s] =>
      if octets = true ∧ '.' ∈ s then (parseIPv4 s).map groupsOfOctets
      else (parseGroup s).map fun n => [n]
  | s :: parts => (parseGroup s).bind fun n => (parseGroups octets parts).map fun ns => n :: ns

/-- The groups of a text on one side of two colons. -/
def parseSide (octets : Bool) (s : GoString) : Option (List Nat) :=
  if s = [] then some [] else parseGroups octets (split ':' s)

/-- The texts before and after the first two colons in a row. -/
def cutColons : GoString → Option (GoString × GoString)
  | ':' :: ':' :: rest => some ([], rest)
  | c :: rest => (cutColons rest).map fun (front, back) => (c :: front, back)
  | [] => none

/-- An IPv6 address without a zone. -/
def parseIPv6 (s : GoString) : Option Address :=
  match cutColons s with
  | none => (parseGroups true (split ':' s)).filter fun groups => groups.length = 8
  | some (front, back) =>
      (parseSide false front).bind fun first => (parseSide true back).bind fun last =>
        if first.length + last.length < 8 then
          some (first ++ List.replicate (8 - first.length - last.length) 0 ++ last)
        else none

/-- The address of four octets. -/
def mapped (octets : List Nat) : Address :=
  [0, 0, 0, 0, 0, 0xffff] ++ groupsOfOctets octets

/-! ## IPv4 -/

theorem itoa_of_parseOctet {s : GoString} {n : Nat} (hparse : parseOctet s = some n) :
    itoa n = s ∧ n < 256 := by
  unfold parseOctet at hparse
  constructor
  · have hfound := List.find?_some hparse
    simpa using hfound
  · exact List.mem_range.mp (List.mem_of_find?_eq_some hparse)

theorem itoa_of_parseOctets {parts : List GoString} {ns : List Nat}
    (hparse : parseOctets parts = some ns) :
    parts = ns.map itoa ∧ ∀ n ∈ ns, n < 256 := by
  induction parts generalizing ns with
  | nil =>
      obtain rfl := Option.some.inj hparse
      exact ⟨rfl, nofun⟩
  | cons s parts ih =>
      unfold parseOctets at hparse
      rw [Option.bind_eq_some_iff] at hparse
      obtain ⟨n, hn, hrest⟩ := hparse
      rw [Option.map_eq_some_iff] at hrest
      obtain ⟨ns', hns', rfl⟩ := hrest
      obtain ⟨htext, hlt⟩ := itoa_of_parseOctet hn
      obtain ⟨hparts, hall⟩ := ih hns'
      constructor
      · rw [List.map_cons, htext, ← hparts]
      · intro m hm
        rcases List.mem_cons.mp hm with rfl | hmem
        · exact hlt
        · exact hall m hmem

/-- The text of an IPv4 address. -/
theorem eq_join_of_parseIPv4 {s : GoString} {ns : List Nat} (hparse : parseIPv4 s = some ns) :
    s = join '.' (ns.map itoa) ∧ ns.length = 4 ∧ ∀ n ∈ ns, n < 256 := by
  unfold parseIPv4 at hparse
  split_ifs at hparse with hlength
  obtain ⟨hparts, hlt⟩ := itoa_of_parseOctets hparse
  refine ⟨?_, ?_, hlt⟩
  · rw [← hparts, join_split]
  · rw [hparts, List.length_map] at hlength
    exact hlength

/-- Different octets make different groups. -/
theorem mapped_injective {ns ns' : List Nat} (hlength : ns.length = 4) (hlength' : ns'.length = 4)
    (hlt : ∀ n ∈ ns, n < 256) (hlt' : ∀ n ∈ ns', n < 256) (hmapped : mapped ns = mapped ns') :
    ns = ns' := by
  match ns, ns', hlength, hlength' with
  | [a, b, c, d], [a', b', c', d'], _, _ =>
      simp only [mapped, groupsOfOctets, List.append_cancel_left_eq, List.cons.injEq,
        and_true] at hmapped
      simp only [List.mem_cons, List.not_mem_nil, or_false, forall_eq_or_imp, forall_eq]
        at hlt hlt'
      obtain ⟨hfirst, hsecond⟩ := hmapped
      simp only [List.cons.injEq, and_true]
      omega

/-- An IPv4 address is spelled in one way. -/
theorem parseIPv4_injective {s s' : GoString} {ns ns' : List Nat}
    (hparse : parseIPv4 s = some ns) (hparse' : parseIPv4 s' = some ns')
    (hmapped : mapped ns = mapped ns') : s = s' := by
  obtain ⟨htext, hlength, hlt⟩ := eq_join_of_parseIPv4 hparse
  obtain ⟨htext', hlength', hlt'⟩ := eq_join_of_parseIPv4 hparse'
  rw [htext, htext', mapped_injective hlength hlength' hlt hlt' hmapped]

/-- The characters of an IPv4 address. -/
theorem isDigit_of_parseIPv4 {s : GoString} {ns : List Nat} (hparse : parseIPv4 s = some ns)
    {c : Char} (hc : c ∈ s) : c.isDigit = true ∨ c = '.' := by
  obtain ⟨htext, -, -⟩ := eq_join_of_parseIPv4 hparse
  by_contra hnot
  rw [not_or] at hnot
  rw [htext] at hc
  refine notMem_join hnot.2 ?_ hc
  intro part hpart hmem
  obtain ⟨n, -, rfl⟩ := List.mem_map.mp hpart
  exact hnot.1 (Nat.isDigit_of_mem_toDigits (by decide) (by decide) hmem)

/-! ## IPv6 -/

/-- The characters of addresses. -/
def isAddressChar (c : Char) : Bool :=
  (unhex c).isSome ∨ c = '.' ∨ c = ':'

theorem isAddressChar_of_isDigit {c : Char} (hc : c.isDigit = true ∨ c = '.') :
    isAddressChar c = true := by
  unfold isAddressChar
  rcases hc with hdigit | rfl
  · have hhex : (unhex c).isSome = true := by
      unfold unhex
      rw [if_pos]
      · rfl
      · simpa [Char.isDigit, Char.le_def] using hdigit
    simp [hhex]
  · decide

/-- The characters of groups. -/
theorem isAddressChar_of_parseGroups {octets : Bool} {parts : List GoString} {groups : List Nat}
    (hparse : parseGroups octets parts = some groups) :
    ∀ part ∈ parts, ∀ c ∈ part, isAddressChar c = true := by
  have hgroup : ∀ s n, parseGroup s = some n → ∀ c ∈ s, isAddressChar c = true := by
    intro s n hs c hc
    unfold parseGroup at hs
    split_ifs at hs with hcond
    simp [isAddressChar, List.all_eq_true.mp hcond.2.2 c hc]
  induction parts generalizing groups with
  | nil => exact nofun
  | cons s parts ih =>
      cases parts with
      | nil =>
          intro part hpart c hc
          obtain rfl := List.mem_singleton.mp hpart
          simp only [parseGroups] at hparse
          split_ifs at hparse
          · rw [Option.map_eq_some_iff] at hparse
            obtain ⟨ns, hns, -⟩ := hparse
            exact isAddressChar_of_isDigit (isDigit_of_parseIPv4 hns hc)
          · rw [Option.map_eq_some_iff] at hparse
            obtain ⟨n, hn, -⟩ := hparse
            exact hgroup part n hn c hc
      | cons next parts =>
          simp only [parseGroups] at hparse
          rw [Option.bind_eq_some_iff] at hparse
          obtain ⟨n, hn, hrest⟩ := hparse
          rw [Option.map_eq_some_iff] at hrest
          obtain ⟨ns, hns, -⟩ := hrest
          intro part hpart
          rcases List.mem_cons.mp hpart with rfl | hmem
          · exact hgroup part n hn
          · exact ih hns part hmem

/-- There are hardly more groups than texts. -/
theorem length_parseGroups {octets : Bool} {parts : List GoString} {groups : List Nat}
    (hparse : parseGroups octets parts = some groups) : groups.length ≤ parts.length + 1 := by
  induction parts generalizing groups with
  | nil =>
      obtain rfl := Option.some.inj hparse
      exact Nat.zero_le _
  | cons s parts ih =>
      cases parts with
      | nil =>
          simp only [parseGroups] at hparse
          split_ifs at hparse
          · rw [Option.map_eq_some_iff] at hparse
            obtain ⟨ns, -, rfl⟩ := hparse
            unfold groupsOfOctets
            split
            · exact le_rfl
            · exact Nat.zero_le _
          · rw [Option.map_eq_some_iff] at hparse
            obtain ⟨n, -, rfl⟩ := hparse
            exact Nat.le_succ _
      | cons next parts =>
          simp only [parseGroups] at hparse
          rw [Option.bind_eq_some_iff] at hparse
          obtain ⟨n, -, hrest⟩ := hparse
          rw [Option.map_eq_some_iff] at hrest
          obtain ⟨ns, hns, rfl⟩ := hrest
          have hle := ih hns
          simp only [List.length_cons] at hle ⊢
          omega

/-- The characters of a text whose parts have only some characters. -/
theorem isAddressChar_of_split {s : GoString}
    (hparts : ∀ part ∈ split ':' s, ∀ c ∈ part, isAddressChar c = true) :
    ∀ c ∈ s, isAddressChar c = true := by
  intro c hc
  by_contra hnot
  have hne : c ≠ ':' := by
    rintro rfl
    exact hnot rfl
  rw [← join_split ':' s] at hc
  exact notMem_join hne (fun part hpart hmem => hnot (hparts part hpart c hmem)) hc

theorem isAddressChar_of_parseSide {octets : Bool} {s : GoString} {groups : List Nat}
    (hparse : parseSide octets s = some groups) : ∀ c ∈ s, isAddressChar c = true := by
  unfold parseSide at hparse
  split_ifs at hparse with hempty
  · rw [hempty]
    exact nofun
  · exact isAddressChar_of_split (isAddressChar_of_parseGroups hparse)

/-- The text around two colons. -/
theorem eq_of_cutColons {s front back : GoString} (hcut : cutColons s = some (front, back)) :
    s = front ++ ':' :: ':' :: back := by
  induction s generalizing front with
  | nil => exact nomatch hcut
  | cons c s ih =>
      unfold cutColons at hcut
      split at hcut
      · rename_i rest heq
        obtain ⟨rfl, rfl⟩ := Prod.mk.inj (Option.some.inj hcut)
        exact heq
      · rename_i c' rest _ heq
        obtain ⟨rfl, rfl⟩ := List.cons_eq_cons.mp heq
        rw [Option.map_eq_some_iff] at hcut
        obtain ⟨⟨front', back'⟩, hrest, hpair⟩ := hcut
        obtain ⟨rfl, rfl⟩ := Prod.mk.inj hpair
        rw [ih hrest]
        rfl
      · rename_i heq
        exact nomatch heq

/-- The characters of an IPv6 address. -/
theorem isAddressChar_of_parseIPv6 {s : GoString} {a : Address} (hparse : parseIPv6 s = some a)
    {c : Char} (hc : c ∈ s) : isAddressChar c = true := by
  unfold parseIPv6 at hparse
  cases hcut : cutColons s with
  | none =>
      rw [hcut] at hparse
      dsimp only at hparse
      rw [Option.filter_eq_some_iff] at hparse
      exact isAddressChar_of_split (isAddressChar_of_parseGroups hparse.1) c hc
  | some sides =>
      obtain ⟨front, back⟩ := sides
      rw [hcut] at hparse
      dsimp only at hparse
      rw [Option.bind_eq_some_iff] at hparse
      obtain ⟨first, hfirst, hrest⟩ := hparse
      rw [Option.bind_eq_some_iff] at hrest
      obtain ⟨last, hlast, -⟩ := hrest
      rw [eq_of_cutColons hcut] at hc
      rcases List.mem_append.mp hc with hmem | hmem
      · exact isAddressChar_of_parseSide hfirst c hmem
      · simp only [List.mem_cons] at hmem
        rcases hmem with rfl | rfl | hback
        · rfl
        · rfl
        · exact isAddressChar_of_parseSide hlast c hback

/-! ## The last colon -/

/-- The last of the characters. -/
theorem exists_last {c : Char} {s : GoString} (hc : c ∈ s) :
    ∃ front back, s = front ++ c :: back ∧ c ∉ back := by
  obtain ⟨front, back, hs, hnot⟩ := List.eq_append_cons_of_mem (List.mem_reverse.mpr hc)
  refine ⟨back.reverse, front.reverse, ?_, ?_⟩
  · rw [← List.reverse_reverse s, hs]
    simp
  · rwa [List.mem_reverse]

theorem idxOf?_append_cons {c : Char} {front back : GoString} (hfront : c ∉ front) :
    (front ++ c :: back).idxOf? c = some front.length := by
  induction front with
  | nil => simp [List.idxOf?_cons]
  | cons d front ih =>
      have hne : d ≠ c := fun heq => hfront (heq ▸ List.mem_cons_self)
      rw [List.cons_append, List.idxOf?_cons, ih fun hmem => hfront (List.mem_cons_of_mem d hmem)]
      simp [hne]

/-- {lit}`strings.LastIndex` finds the last of the bytes. -/
theorem lastIndex_append_cons {c : Char} {front back : GoString} (hback : c ∉ back) :
    lastIndex c (front ++ c :: back) = some front.length := by
  have hreverse : (front ++ c :: back).reverse = back.reverse ++ c :: front.reverse := by
    simp
  unfold lastIndex
  rw [hreverse, idxOf?_append_cons (by rwa [List.mem_reverse]), Option.map_some,
    List.length_reverse, List.length_append, List.length_cons]
  congr 1
  omega

theorem lastIndex_eq_none {c : Char} {s : GoString} (hc : c ∉ s) : lastIndex c s = none := by
  unfold lastIndex
  rw [List.idxOf?_eq_none_iff.mpr (by rwa [List.mem_reverse])]
  rfl

/-- An IPv6 address has a colon before its last one. -/
theorem exists_lastColon {s : GoString} {a : Address} (hparse : parseIPv6 s = some a) :
    ∃ front back, s = front ++ ':' :: back ∧ ':' ∉ back ∧ ':' ∈ front := by
  have htwo : ∃ first rest, s = first ++ ':' :: rest ∧ ':' ∈ rest := by
    unfold parseIPv6 at hparse
    cases hcut : cutColons s with
    | none =>
        rw [hcut] at hparse
        dsimp only at hparse
        rw [Option.filter_eq_some_iff, decide_eq_true_eq] at hparse
        have hlength := length_parseGroups hparse.1
        rw [hparse.2] at hlength
        have hjoin := join_split ':' s
        match hparts : split ':' s with
        | [] => simp [hparts] at hlength
        | [_] => simp [hparts] at hlength
        | first :: second :: rest =>
            rw [hparts] at hjoin hlength
            cases rest with
            | nil => simp at hlength
            | cons third rest =>
                refine ⟨first, second ++ ':' :: join ':' (third :: rest), ?_, by simp⟩
                rw [← hjoin]
                simp [join, List.intercalate]
    | some sides =>
        obtain ⟨front, back⟩ := sides
        exact ⟨front, ':' :: back, eq_of_cutColons hcut, List.mem_cons_self⟩
  obtain ⟨first, rest, rfl, hrest⟩ := htwo
  obtain ⟨front, back, rfl, hback⟩ := exists_last hrest
  exact ⟨first ++ ':' :: front, back, by simp, hback, by simp⟩

end Go
end Veilence

import Veilence.Go.Text

/-!
# Requirements files

The import of packages reads a requirements file line by line.  Of a line with a requirement it
keeps what comes before the first comment, comparison, marker or bracket, by cutting the line at
each of them in turn.

A file is given here by its lines: blank lines, comments, options, and requirements with all their
parts and any spaces between them.

Main results:

- Theorem {lit}`nameOf_eq`: the name of a requirement is found, whatever follows it.
- Theorem {lit}`parseRequirementsTxt_content`: the names of all requirements are found, in order.
-/

namespace Veilence
namespace Restapi

open Go

/-! ## The parser -/

/-- The text before the first {lit}`strings.Index` of a separator. -/
def before (sep : GoString) : GoString → GoString
  | [] => []
  | c :: s => if sep.isPrefixOf (c :: s) then [] else c :: before sep s

/-- {lit}`importPackageEntry`. -/
structure ImportPackageEntry where
  name : GoString
  ecosystem : GoString
deriving DecidableEq

/-- The separators at which a requirement is cut, in the order of the source. -/
def separators : List GoString :=
  ["==".toList, ">=".toList, "<=".toList, "~=".toList, "!=".toList, ">".toList, "<".toList,
    ";".toList]

/-- The name of a requirement: the line without what comes after a separator or a bracket. -/
def packageName (line : GoString) : GoString :=
  trimSpace (before "[".toList (separators.foldl (fun name sep => before sep name) line))

/-- One turn of the loop of {lit}`parseRequirementsTxt`. -/
def parseLine (line : GoString) : Option ImportPackageEntry :=
  let line := trimSpace line
  if line = [] ∨ "#".toList.isPrefixOf line ∨ "-".toList.isPrefixOf line then none
  else
    let line := if '#' ∈ line then trimSpace (before "#".toList line) else line
    if line = [] then none
    else
      let name := packageName line
      if name = [] then none else some ⟨name, "python".toList⟩

/-- {lit}`parseRequirementsTxt`. -/
def parseRequirementsTxt (content : GoString) : Except GoString (List ImportPackageEntry) :=
  let entries := (split '\n' content).filterMap parseLine
  if entries = [] then .error "no packages found in requirements.txt content".toList
  else .ok entries

/-! ## Requirements files -/

/-- Spaces and tabs. -/
structure Gap where
  text : GoString
  blank : ∀ c ∈ text, c = ' ' ∨ c = '\t'

/-- A text within a line. -/
structure Inline where
  text : GoString
  line : '\n' ∉ text

/-- A character of a project name. -/
def isNameChar (c : Char) : Bool :=
  c.isAlphanum ∨ c = '.' ∨ c = '_' ∨ c = '-'

/-- The name of a project. -/
structure ProjectName where
  first : Char
  rest : GoString
  first_alphanum : first.isAlphanum = true
  rest_chars : ∀ c ∈ rest, isNameChar c = true

/-- The text of a name. -/
def ProjectName.text (n : ProjectName) : GoString :=
  n.first :: n.rest

/-- A comparison. -/
inductive Comparison where
  | equal
  | identical
  | atLeast
  | atMost
  | compatible
  | different
  | greater
  | less
deriving DecidableEq

/-- The text of a comparison. -/
def Comparison.text : Comparison → GoString
  | .equal => "==".toList
  | .identical => "===".toList
  | .atLeast => ">=".toList
  | .atMost => "<=".toList
  | .compatible => "~=".toList
  | .different => "!=".toList
  | .greater => ">".toList
  | .less => "<".toList

/-- A specifier: a comparison with a version, which does not begin with an equals sign. -/
structure Specifier where
  indent : Gap
  comparison : Comparison
  gap : Gap
  version : Inline
  version_head : ∃ c ∈ version.text.head?, c ≠ '='

/-- The text of a specifier. -/
def Specifier.text (s : Specifier) : GoString :=
  s.indent.text ++ (s.comparison.text ++ (s.gap.text ++ s.version.text))

/-- A requirement with its optional parts: extras in brackets, specifiers, a marker after a
semicolon, a backslash, and a comment.  There is a backslash only after a specifier or a marker. -/
structure Requirement where
  indent : Gap
  name : ProjectName
  afterName : Gap
  extras : Option Inline
  afterExtras : Gap
  specifiers : List Specifier
  afterSpecifiers : Gap
  marker : Option Inline
  backslash : Bool
  afterBackslash : Gap
  comment : Option Inline
  backslash_after : backslash = true → specifiers ≠ [] ∨ marker.isSome = true

/-- An optional part between two texts. -/
def optional (opening : GoString) (part : Option Inline) (closing : GoString) : GoString :=
  match part with
  | some text => opening ++ (text.text ++ closing)
  | none => []

/-- The text of a requirement after its name. -/
def Requirement.afterNameText (r : Requirement) : GoString :=
  r.afterName.text ++ (optional "[".toList r.extras "]".toList ++ (r.afterExtras.text ++
    (join ',' (r.specifiers.map Specifier.text) ++ (r.afterSpecifiers.text ++
      (optional ";".toList r.marker [] ++ ((if r.backslash then ['\\'] else []) ++
        (r.afterBackslash.text ++ optional "#".toList r.comment [])))))))

/-- A line of a requirements file. -/
inductive Line where
  | blank (gap : Gap)
  | comment (indent : Gap) (text : Inline)
  | option (indent : Gap) (text : Inline)
  | requirement (r : Requirement)

/-- The text of a line. -/
def Line.text : Line → GoString
  | .blank gap => gap.text
  | .comment indent text => indent.text ++ '#' :: text.text
  | .option indent text => indent.text ++ '-' :: text.text
  | .requirement r => r.indent.text ++ (r.name.text ++ r.afterNameText)

/-- The name that a line requires. -/
def Line.name? : Line → Option GoString
  | .requirement r => some r.name.text
  | _ => none

/-- The end of a line before the line feed. -/
inductive Ending where
  | lf
  | crlf
deriving DecidableEq

/-- The text of an end of a line before the line feed. -/
def Ending.text : Ending → GoString
  | .lf => []
  | .crlf => ['\r']

/-- The text of a file. -/
def content (lines : List (Line × Ending)) : GoString :=
  join '\n' (lines.map fun l => l.1.text ++ l.2.text)

/-- The names that a file requires, in order. -/
def requiredNames (lines : List (Line × Ending)) : List GoString :=
  lines.filterMap fun l => l.1.name?

/-! ## Trimming -/

/-- A blank character within a line. -/
def isSpaceChar (c : Char) : Bool :=
  c = ' ' ∨ c = '\t' ∨ c = '\r'

/-- A text of blank characters. -/
def Blank (s : GoString) : Prop :=
  ∀ c ∈ s, isSpaceChar c = true

theorem Blank.append {s t : GoString} (hs : Blank s) (ht : Blank t) : Blank (s ++ t) := by
  intro c hc
  rcases List.mem_append.mp hc with hmem | hmem
  · exact hs c hmem
  · exact ht c hmem

theorem Blank.of_prefix {s t : GoString} (ht : Blank t) (hst : s <+: t) : Blank s :=
  fun c hc => ht c (hst.subset hc)

theorem blank_gap (g : Gap) : Blank g.text := by
  intro c hc
  rcases g.blank c hc with rfl | rfl
  · rfl
  · rfl

theorem blank_ending (e : Ending) : Blank e.text := by
  cases e with
  | lf => exact nofun
  | crlf =>
      intro c hc
      rw [Ending.text, List.mem_singleton] at hc
      rw [hc]
      rfl

/-- A blank character is a white space by itself, from both sides. -/
theorem find?_spaces {prefixes : List GoString}
    (hprefixes : prefixes = spaces ∨ prefixes = spaces.map List.reverse) {c : Char}
    (hc : isSpaceChar c = true) (s : GoString) :
    prefixes.find? (fun p => p.isPrefixOf (c :: s)) = some [c] := by
  unfold isSpaceChar at hc
  rcases of_decide_eq_true hc with rfl | rfl | rfl
  · rcases hprefixes with rfl | rfl
    · rfl
    · rfl
  · rcases hprefixes with rfl | rfl
    · rfl
    · rfl
  · rcases hprefixes with rfl | rfl
    · rfl
    · rfl

/-- Blank characters are trimmed. -/
theorem trimPrefixes_blank {prefixes : List GoString}
    (hprefixes : prefixes = spaces ∨ prefixes = spaces.map List.reverse) {b : GoString}
    (hb : Blank b) (n : Nat) (s : GoString) :
    trimPrefixes prefixes (b.length + n) (b ++ s) = trimPrefixes prefixes n s := by
  induction b with
  | nil => rw [List.length_nil, Nat.zero_add, List.nil_append]
  | cons c b ih =>
      have hrest := ih fun c' hc' => hb c' (List.mem_cons_of_mem c hc')
      rw [List.length_cons, Nat.add_right_comm, List.cons_append, trimPrefixes,
        find?_spaces hprefixes (hb c List.mem_cons_self)]
      exact hrest

/-- Trimming drops blank characters on the left. -/
theorem trimSpace_blank_append {b : GoString} (hb : Blank b) (s : GoString) :
    trimSpace (b ++ s) = trimSpace s := by
  unfold trimSpace
  rw [List.length_append, trimPrefixes_blank (Or.inl rfl) hb]

theorem trimSpace_blank {b : GoString} (hb : Blank b) : trimSpace b = [] := by
  have hdrop := trimSpace_blank_append hb []
  rwa [List.append_nil] at hdrop

/-- Nothing is trimmed before a solid character. -/
theorem trimPrefixes_cons_solid {prefixes : List GoString} {c : Char}
    (hc : ∀ p ∈ prefixes, c ∉ p) (n : Nat) (s : GoString) :
    trimPrefixes prefixes n (c :: s) = c :: s := by
  obtain ⟨a', ha', htrim⟩ := exists_trimPrefixes hc n [] s
  rw [List.suffix_nil.mp ha'] at htrim
  exact htrim

/-- A text that begins with a solid character is kept up to each of its solid characters. -/
theorem exists_trimSpace_of_solid {c d : Char} (hc : Solid c) (hd : Solid d)
    {rest u v : GoString} (htext : c :: rest = u ++ d :: v) :
    ∃ v', v' <+: v ∧ trimSpace (c :: rest) = u ++ d :: v' := by
  have hreverse : (c :: rest).reverse = v.reverse ++ d :: u.reverse := by
    rw [htext]
    simp
  obtain ⟨b, hb, htrim⟩ := exists_trimPrefixes hd.reverse (c :: rest).length v.reverse u.reverse
  refine ⟨b.reverse, ?_, ?_⟩
  · simpa using List.reverse_prefix.mpr hb
  · unfold trimSpace
    rw [trimPrefixes_cons_solid hc]
    dsimp only
    rw [hreverse, htrim]
    simp

/-- Trimming drops blank characters after a solid one. -/
theorem trimSpace_append_blank {c d : Char} (hc : Solid c) (hd : Solid d) {rest u b : GoString}
    (htext : c :: rest = u ++ d :: b) (hb : Blank b) : trimSpace (c :: rest) = u ++ [d] := by
  have hreverse : (c :: rest).reverse = b.reverse ++ d :: u.reverse := by
    rw [htext]
    simp
  have hlength : (c :: rest).length = b.reverse.length + (u.length + 1) := by
    rw [htext]
    simp
    omega
  have hblank : Blank b.reverse := fun c' hc' => hb c' (List.mem_reverse.mp hc')
  unfold trimSpace
  rw [trimPrefixes_cons_solid hc]
  dsimp only
  rw [hreverse, hlength, trimPrefixes_blank (Or.inr rfl) hblank,
    trimPrefixes_cons_solid hd.reverse]
  simp

/-! ## Cutting -/

section Cutting

variable {sep p s t v : GoString} {c h : Char}

@[simp]
theorem before_nil (sep : GoString) : before sep [] = [] :=
  rfl

/-- A cut keeps the first character or everything is cut. -/
theorem before_cons (sep : GoString) (c : Char) (s : GoString) :
    before sep (c :: s) = [] ∨ before sep (c :: s) = c :: before sep s := by
  rw [before]
  split_ifs
  · exact Or.inl rfl
  · exact Or.inr rfl

/-- Before the first character of a separator nothing is cut. -/
theorem before_append (hsep : sep.head? = some h) (hp : h ∉ p) :
    before sep (p ++ t) = p ++ before sep t := by
  induction p with
  | nil => rfl
  | cons c p ih =>
      rw [List.mem_cons, not_or] at hp
      cases sep with
      | nil => exact nomatch hsep
      | cons h' sep =>
          obtain rfl := Option.some.inj hsep
          have hno : (h' :: sep).isPrefixOf (c :: (p ++ t)) = false := by
            rw [List.isPrefixOf_cons_cons]
            simp [hp.1]
          rw [List.cons_append, before, hno, ih hp.2]
          rfl

/-- From a separator on everything is cut. -/
theorem before_self (hsep : sep.head? = some h) (v : GoString) : before sep (sep ++ v) = [] := by
  cases sep with
  | nil => exact nomatch hsep
  | cons h' sep =>
      rw [List.cons_append, before, if_pos]
      rw [← List.cons_append, List.isPrefixOf_iff_prefix]
      exact List.prefix_append _ _

/-- What is cut at several separators. -/
def cutAll (seps : List GoString) (s : GoString) : GoString :=
  seps.foldl (fun name sep => before sep name) s

@[simp]
theorem cutAll_nil (seps : List GoString) : cutAll seps [] = [] := by
  induction seps with
  | nil => rfl
  | cons sep seps ih => exact ih

theorem cutAll_append {seps : List GoString}
    (hseps : ∀ sep ∈ seps, ∃ h, sep.head? = some h ∧ h ∉ p) :
    cutAll seps (p ++ t) = p ++ cutAll seps t := by
  induction seps generalizing t with
  | nil => rfl
  | cons sep seps ih =>
      obtain ⟨h, hhead, hp⟩ := hseps sep List.mem_cons_self
      unfold cutAll
      rw [List.foldl_cons, List.foldl_cons, before_append hhead hp]
      exact ih fun sep' hsep' => hseps sep' (List.mem_cons_of_mem sep hsep')

/-- Several cuts keep the first character or everything is cut. -/
theorem cutAll_cons (seps : List GoString) (c : Char) (s : GoString) :
    cutAll seps (c :: s) = [] ∨ ∃ s', cutAll seps (c :: s) = c :: s' := by
  induction seps generalizing s with
  | nil => exact Or.inr ⟨s, rfl⟩
  | cons sep seps ih =>
      unfold cutAll
      rw [List.foldl_cons]
      rcases before_cons sep c s with hnil | hcons
      · rw [hnil]
        exact Or.inl (cutAll_nil seps)
      · rw [hcons]
        exact ih _

/-- A cut at the first character cuts everything. -/
theorem cutAll_of_mem {seps : List GoString} (hmem : [c] ∈ seps) (s : GoString) :
    cutAll seps (c :: s) = [] := by
  induction seps generalizing s with
  | nil => exact absurd hmem List.not_mem_nil
  | cons sep seps ih =>
      unfold cutAll
      rw [List.foldl_cons]
      rcases before_cons sep c s with hnil | hcons
      · rw [hnil]
        exact cutAll_nil seps
      · rw [hcons]
        rcases List.mem_cons.mp hmem with rfl | hrest
        · have hself : before [c] ([c] ++ s) = [] := before_self rfl s
          rw [List.singleton_append] at hself
          rw [hself] at hcons
          exact nomatch hcons
        · exact ih hrest _

/-- What comes after the name and blank characters: nothing, or a comparison, a marker, extras or
a comment. -/
inductive Starts : GoString → Prop where
  | nothing : Starts []
  | single (c : Char) (v : GoString) (hc : c ∈ ['>', '<', ';', '[', '#']) : Starts (c :: v)
  | equal (v : GoString) : Starts ('=' :: '=' :: v)
  | pair (c : Char) (v : GoString) (hc : c = '~' ∨ c = '!') (hv : v.head? ≠ some '=') :
      Starts (c :: '=' :: v)

/-- The first character of a prefix. -/
theorem head?_ne_of_isPrefix (hpre : s <+: t) (ht : t.head? ≠ some h) : s.head? ≠ some h := by
  cases s with
  | nil => exact nofun
  | cons c s =>
      obtain ⟨rest, rfl⟩ := hpre
      exact ht

theorem prefix_before (sep s : GoString) : before sep s <+: s := by
  induction s with
  | nil => exact List.prefix_refl _
  | cons c s ih =>
      rcases before_cons sep c s with hnil | hcons
      · rw [hnil]
        exact List.nil_prefix
      · rw [hcons]
        exact (List.prefix_cons_inj c).mpr ih

/-- Without a comment in front everything is cut. -/
theorem cut_starts (hstarts : Starts t) (ht : t.head? ≠ some '#') :
    before "[".toList (cutAll separators t) = [] := by
  cases hstarts with
  | nothing => rfl
  | single c v hc =>
      simp only [List.mem_cons, List.not_mem_nil, or_false] at hc
      rcases hc with rfl | rfl | rfl | rfl | rfl
      · rw [cutAll_of_mem (by decide), before_nil]
      · rw [cutAll_of_mem (by decide), before_nil]
      · rw [cutAll_of_mem (by decide), before_nil]
      · rcases cutAll_cons separators '[' v with hnil | ⟨v', hcons⟩
        · rw [hnil, before_nil]
        · rw [hcons]
          exact (before_self rfl v' : before "[".toList ("[".toList ++ v') = [])
      · exact absurd rfl ht
  | equal v =>
      have hfirst : before "==".toList ('=' :: '=' :: v) = [] :=
        (before_self rfl v : before "==".toList ("==".toList ++ v) = [])
      unfold cutAll separators
      rw [List.foldl_cons, hfirst]
      exact congrArg (before "[".toList) (cutAll_nil separators.tail)
  | pair c v hc hv =>
      -- the first cut does not begin at the equals sign of the comparison
      have hno : "==".toList.isPrefixOf ('=' :: v) = false := by
        cases v with
        | nil => rfl
        | cons d v =>
            have hd : d ≠ '=' := fun heq => hv (congrArg some heq)
            change (('=' == '=') && (('=' == d) && true)) = false
            simp [Ne.symm hd]
      have hfirst : before "==".toList (c :: '=' :: v) = [c, '='] ++ before "==".toList v := by
        have hc' : '=' ∉ [c] := by
          rcases hc with rfl | rfl
          · decide
          · decide
        have happend : before "==".toList ([c] ++ '=' :: v) = [c] ++ before "==".toList ('=' :: v) :=
          before_append (h := '=') rfl hc'
        rw [List.singleton_append] at happend
        rw [happend, before, hno]
        rfl
      have hrest : cutAll separators.tail ([c, '='] ++ before "==".toList v) = [] := by
        generalize before "==".toList v = v'
        unfold cutAll separators
        rw [List.tail_cons, List.foldl_cons,
          before_append (h := '>') rfl (by rcases hc with rfl | rfl <;> decide), List.foldl_cons,
          before_append (h := '<') rfl (by rcases hc with rfl | rfl <;> decide), List.foldl_cons]
        rcases hc with rfl | rfl
        · rw [show ['~', '='] = "~=".toList from rfl, before_self (h := '~') rfl]
          exact cutAll_nil _
        · rw [before_append (h := '~') rfl (by decide), List.foldl_cons,
            show ['!', '='] = "!=".toList from rfl, before_self (h := '!') rfl]
          exact cutAll_nil _
      unfold cutAll separators at hrest ⊢
      rw [List.foldl_cons, hfirst]
      exact congrArg (before "[".toList) hrest

/-- A comment is cut off. -/
theorem starts_before (hstarts : Starts t) :
    Starts (before "#".toList t) ∧ (before "#".toList t).head? ≠ some '#' := by
  have hsingle : ∀ c v, c ≠ '#' → before "#".toList (c :: v) = c :: before "#".toList v := by
    intro c v hc
    have happend : before "#".toList ([c] ++ v) = [c] ++ before "#".toList v :=
      before_append (h := '#') rfl (by simpa using Ne.symm hc)
    exact happend
  cases hstarts with
  | nothing => exact ⟨.nothing, nofun⟩
  | single c v hc =>
      by_cases hhash : c = '#'
      · subst hhash
        have hcut : before "#".toList ("#".toList ++ v) = [] := before_self rfl v
        change Starts (before "#".toList ("#".toList ++ v)) ∧ _
        rw [hcut]
        exact ⟨.nothing, nofun⟩
      · rw [hsingle c v hhash]
        exact ⟨.single c _ hc, by simpa using hhash⟩
  | equal v =>
      rw [hsingle _ _ (by decide), hsingle _ _ (by decide)]
      exact ⟨.equal _, by simp⟩
  | pair c v hc hv =>
      have hne : c ≠ '#' := by
        rcases hc with rfl | rfl
        · decide
        · decide
      rw [hsingle _ _ hne, hsingle _ _ (by decide)]
      exact ⟨.pair c _ hc (head?_ne_of_isPrefix (prefix_before _ _) hv), by simpa using hne⟩

end Cutting

/-! ## The name of a requirement -/

section Names

variable {n : ProjectName} {w t : GoString}

/-- The characters of names are solid. -/
theorem solid_of_isNameChar {c : Char} (hc : isNameChar c = true) : Solid c := by
  have hspaces : ∀ p ∈ spaces, ∀ d ∈ p, isNameChar d = false := by
    simp [spaces, isNameChar]
  intro p hp hmem
  rw [hspaces p hp c hmem] at hc
  exact Bool.false_ne_true hc

theorem ProjectName.chars (n : ProjectName) {c : Char} (hc : c ∈ n.text) :
    isNameChar c = true := by
  unfold ProjectName.text at hc
  rcases List.mem_cons.mp hc with rfl | hmem
  · simp [isNameChar, n.first_alphanum]
  · exact n.rest_chars c hmem

theorem ProjectName.solid_first (n : ProjectName) : Solid n.first :=
  solid_of_isNameChar (n.chars List.mem_cons_self)

/-- The last character of a name. -/
theorem ProjectName.exists_last (n : ProjectName) : ∃ u d, n.text = u ++ [d] ∧ Solid d := by
  have hne : n.text ≠ [] := List.cons_ne_nil _ _
  refine ⟨n.text.dropLast, n.text.getLast hne, (List.dropLast_append_getLast hne).symm, ?_⟩
  exact solid_of_isNameChar (n.chars (List.getLast_mem hne))

/-- A name before blank characters. -/
theorem trimSpace_name (hw : Blank w) : trimSpace (n.text ++ w) = n.text := by
  obtain ⟨u, d, hname, hd⟩ := n.exists_last
  have htext : n.first :: (n.rest ++ w) = u ++ d :: w := by
    have happend : n.text ++ w = u ++ d :: w := by rw [hname]; simp
    exact happend
  exact (trimSpace_append_blank n.solid_first hd htext hw).trans hname.symm

/-- Trimming keeps the name and how the text goes on. -/
theorem trimSpace_starts (hw : Blank w) (hstarts : Starts t) :
    ∃ w' t', Blank w' ∧ Starts t' ∧ t' <+: t ∧
      trimSpace (n.text ++ (w ++ t)) = n.text ++ (w' ++ t') := by
  have hkeep : ∀ (front : GoString) (d : Char) (v : GoString), Solid d →
      ∃ v', v' <+: v ∧
        trimSpace (n.text ++ (w ++ (front ++ d :: v))) = n.text ++ (w ++ (front ++ d :: v')) := by
    intro front d v hd
    have htext : n.first :: (n.rest ++ (w ++ (front ++ d :: v))) =
        (n.text ++ (w ++ front)) ++ d :: v := by
      unfold ProjectName.text
      simp
    obtain ⟨v', hv', htrim⟩ := exists_trimSpace_of_solid n.solid_first hd htext
    refine ⟨v', hv', ?_⟩
    rw [show n.text ++ (w ++ (front ++ d :: v')) = (n.text ++ (w ++ front)) ++ d :: v' by simp]
    exact htrim
  cases hstarts with
  | nothing =>
      refine ⟨[], [], nofun, .nothing, List.prefix_refl _, ?_⟩
      rw [List.append_nil, trimSpace_name hw]
      simp
  | single c v hc =>
      have hsolid : ∀ c ∈ ['>', '<', ';', '[', '#'], Solid c := by
        simp [Solid, spaces]
      obtain ⟨v', hv', htrim⟩ := hkeep [] c v (hsolid c hc)
      exact ⟨w, c :: v', hw, .single c v' hc, (List.prefix_cons_inj c).mpr hv', htrim⟩
  | equal v =>
      obtain ⟨v', hv', htrim⟩ := hkeep ['='] '=' v (by decide)
      refine ⟨w, '=' :: '=' :: v', hw, .equal v', ?_, htrim⟩
      exact (List.prefix_cons_inj _).mpr ((List.prefix_cons_inj _).mpr hv')
  | pair c v hc hv =>
      obtain ⟨v', hv', htrim⟩ := hkeep [c] '=' v (by decide)
      refine ⟨w, c :: '=' :: v', hw, .pair c v' hc (head?_ne_of_isPrefix hv' hv), ?_, htrim⟩
      exact (List.prefix_cons_inj _).mpr ((List.prefix_cons_inj _).mpr hv')

/-- The characters at which a line is cut are neither in names nor blank. -/
theorem notMem_name {h : Char} (hname : isNameChar h = false) (hspace : isSpaceChar h = false)
    (hw : Blank w) : h ∉ n.text ++ w := by
  intro hmem
  rcases List.mem_append.mp hmem with hin | hin
  · rw [n.chars hin] at hname
    exact Bool.false_ne_true hname.symm
  · rw [hw h hin] at hspace
    exact Bool.false_ne_true hspace.symm

/-- The name of a requirement is found, whatever follows it. -/
theorem packageName_eq (hw : Blank w) (hstarts : Starts t) (ht : t.head? ≠ some '#') :
    packageName (n.text ++ (w ++ t)) = n.text := by
  have hheads : ∀ sep ∈ separators, ∃ h, sep.head? = some h ∧ h ∉ n.text ++ w := by
    intro sep hsep
    have hall : ∀ sep ∈ separators, ∃ h, sep.head? = some h ∧ isNameChar h = false ∧
        isSpaceChar h = false := by
      intro sep hsep
      simp only [separators, List.mem_cons, List.not_mem_nil, or_false] at hsep
      rcases hsep with rfl | rfl | rfl | rfl | rfl | rfl | rfl | rfl
      all_goals exact ⟨_, rfl, rfl, rfl⟩
    obtain ⟨h, hhead, hname, hspace⟩ := hall sep hsep
    exact ⟨h, hhead, notMem_name hname hspace hw⟩
  have hcut : before "[".toList (cutAll separators (n.text ++ (w ++ t))) = n.text ++ w := by
    rw [← List.append_assoc, cutAll_append hheads,
      before_append (h := '[') rfl (notMem_name rfl rfl hw), cut_starts hstarts ht,
      List.append_nil]
  unfold packageName
  exact (congrArg trimSpace hcut).trans (trimSpace_name hw)

/-- A line with a requirement. -/
theorem parseLine_name {b : GoString} (hb : Blank b) (hw : Blank w) (hstarts : Starts t) :
    parseLine (b ++ (n.text ++ (w ++ t))) = some ⟨n.text, "python".toList⟩ := by
  obtain ⟨w', t', hw', hstarts', -, htrim⟩ := trimSpace_starts (n := n) hw hstarts
  have hfirst : ∀ rest, n.text ++ rest ≠ [] ∧ "#".toList.isPrefixOf (n.text ++ rest) = false ∧
      "-".toList.isPrefixOf (n.text ++ rest) = false := by
    intro rest
    have halphanum := n.first_alphanum
    have hhash : '#' ≠ n.first := fun heq => absurd (heq ▸ halphanum) (by decide)
    have hdash : '-' ≠ n.first := fun heq => absurd (heq ▸ halphanum) (by decide)
    refine ⟨List.cons_ne_nil _ _, ?_, ?_⟩
    · change (('#' == n.first) && true) = false
      simp [hhash]
    · change (('-' == n.first) && true) = false
      simp [hdash]
  -- what is left after the comment has been cut off
  have hcomment : ∃ w₁ t₁, Blank w₁ ∧ Starts t₁ ∧ t₁.head? ≠ some '#' ∧
      (if '#' ∈ n.text ++ (w' ++ t') then trimSpace (before "#".toList (n.text ++ (w' ++ t')))
        else n.text ++ (w' ++ t')) = n.text ++ (w₁ ++ t₁) := by
    split_ifs with hhash
    · obtain ⟨hcut, hhead⟩ := starts_before hstarts'
      obtain ⟨w₁, t₁, hw₁, hstarts₁, hpre, htrim₁⟩ := trimSpace_starts (n := n) hw' hcut
      refine ⟨w₁, t₁, hw₁, hstarts₁, head?_ne_of_isPrefix hpre hhead, ?_⟩
      rw [← List.append_assoc, before_append (h := '#') rfl (notMem_name rfl rfl hw'),
        List.append_assoc]
      exact htrim₁
    · refine ⟨w', t', hw', hstarts', ?_, rfl⟩
      intro hhead
      apply hhash
      apply List.mem_append_right
      apply List.mem_append_right
      exact List.mem_of_mem_head? hhead
  obtain ⟨w₁, t₁, hw₁, hstarts₁, hhead₁, hline⟩ := hcomment
  unfold parseLine
  dsimp only
  rw [trimSpace_blank_append hb, htrim, if_neg, hline, if_neg (hfirst _).1,
    packageName_eq hw₁ hstarts₁ hhead₁,
    if_neg (show n.text ≠ [] from List.cons_ne_nil _ _)]
  rw [(hfirst _).2.1, (hfirst _).2.2]
  simp [(hfirst _).1]

end Names

/-! ## Lines -/

section Lines

variable {s t w rest : GoString}

/-- Blank characters and a text that may follow a name. -/
def MayFollow (s : GoString) : Prop :=
  ∃ w t, s = w ++ t ∧ Blank w ∧ Starts t

theorem mayFollow_of_starts (hstarts : Starts t) : MayFollow t :=
  ⟨[], t, rfl, nofun, hstarts⟩

theorem mayFollow_of_blank (hw : Blank w) : MayFollow w :=
  ⟨w, [], (List.append_nil w).symm, hw, .nothing⟩

/-- Blank characters may come first. -/
theorem MayFollow.blank_append (hs : MayFollow s) (hw : Blank w) : MayFollow (w ++ s) := by
  obtain ⟨w', t, rfl, hw', hstarts⟩ := hs
  exact ⟨w ++ w', t, (List.append_assoc ..).symm, hw.append hw', hstarts⟩

/-- An optional part may come first. -/
theorem MayFollow.optional_append (hs : MayFollow s) {c : Char}
    (hc : c ∈ ['>', '<', ';', '[', '#']) (part : Option Inline) (closing : GoString) :
    MayFollow (optional [c] part closing ++ s) := by
  cases part with
  | none => exact hs
  | some text => exact mayFollow_of_starts (.single c _ hc)

/-- A specifier may come first. -/
theorem follows_specifier (spec : Specifier) (rest : GoString) :
    MayFollow (spec.text ++ rest) := by
  -- what comes after the comparison does not begin with an equals sign
  have hhead : (spec.gap.text ++ spec.version.text ++ rest).head? ≠ some '=' := by
    obtain ⟨c, hc, hne⟩ := spec.version_head
    cases hgap : spec.gap.text with
    | nil =>
        cases hversion : spec.version.text with
        | nil =>
            rw [hversion] at hc
            exact nomatch hc
        | cons d version =>
            rw [hversion] at hc
            obtain rfl := Option.some.inj hc
            intro heq
            exact hne (Option.some.inj heq)
    | cons d gap =>
        intro heq
        obtain rfl := Option.some.inj heq
        have hblank := spec.gap.blank '=' (hgap ▸ List.mem_cons_self)
        exact absurd hblank (by decide)
  have hstarts : Starts (spec.comparison.text ++ (spec.gap.text ++ spec.version.text ++ rest)) := by
    cases spec.comparison with
    | equal => exact .equal _
    | identical => exact .equal _
    | atLeast => exact .single '>' _ (by decide)
    | atMost => exact .single '<' _ (by decide)
    | compatible => exact .pair '~' _ (Or.inl rfl) hhead
    | different => exact .pair '!' _ (Or.inr rfl) hhead
    | greater => exact .single '>' _ (by decide)
    | less => exact .single '<' _ (by decide)
  have htext : spec.text ++ rest =
      spec.indent.text ++ (spec.comparison.text ++ (spec.gap.text ++ spec.version.text ++ rest)) := by
    unfold Specifier.text
    simp
  rw [htext]
  exact (mayFollow_of_starts hstarts).blank_append (blank_gap spec.indent)

/-- The first part of a joined text. -/
theorem exists_join_cons (sep : Char) (part : GoString) (parts : List GoString) :
    ∃ rest, join sep (part :: parts) = part ++ rest := by
  cases parts with
  | nil => exact ⟨[], by simp [join, List.intercalate]⟩
  | cons next parts =>
      exact ⟨sep :: join sep (next :: parts), by simp [join, List.intercalate]⟩

/-- The text after the name of a requirement. -/
theorem follows_afterNameText (r : Requirement) (hrest : Blank rest) :
    MayFollow (r.afterNameText ++ rest) := by
  have hcomment : MayFollow (r.afterBackslash.text ++ (optional "#".toList r.comment [] ++ rest)) := by
    apply MayFollow.blank_append _ (blank_gap _)
    exact (mayFollow_of_blank hrest).optional_append (by decide) r.comment []
  -- a backslash comes only after a specifier or a marker
  have hmarker : r.specifiers = [] → MayFollow (optional ";".toList r.marker [] ++
      ((if r.backslash then ['\\'] else []) ++
        (r.afterBackslash.text ++ (optional "#".toList r.comment [] ++ rest)))) := by
    intro hnone
    cases hm : r.marker with
    | some text => exact mayFollow_of_starts (.single ';' _ (by decide))
    | none =>
        have hback : r.backslash = false := by
          by_contra htrue
          rcases r.backslash_after (Bool.not_eq_false _ ▸ htrue) with hspecs | hsome
          · exact hspecs hnone
          · rw [hm] at hsome
            exact Bool.false_ne_true hsome
        rw [hback]
        exact hcomment
  have hspecs : MayFollow (join ',' (r.specifiers.map Specifier.text) ++ (r.afterSpecifiers.text ++
      (optional ";".toList r.marker [] ++ ((if r.backslash then ['\\'] else []) ++
        (r.afterBackslash.text ++ (optional "#".toList r.comment [] ++ rest)))))) := by
    cases hs : r.specifiers with
    | nil => exact (hmarker hs).blank_append (blank_gap _)
    | cons spec specs =>
        obtain ⟨others, hjoin⟩ := exists_join_cons ',' spec.text (specs.map Specifier.text)
        rw [List.map_cons, hjoin, List.append_assoc]
        exact follows_specifier spec _
  have htext : r.afterNameText ++ rest = r.afterName.text ++ (optional "[".toList r.extras
      "]".toList ++ (r.afterExtras.text ++ (join ',' (r.specifiers.map Specifier.text) ++
        (r.afterSpecifiers.text ++ (optional ";".toList r.marker [] ++
          ((if r.backslash then ['\\'] else []) ++
            (r.afterBackslash.text ++ (optional "#".toList r.comment [] ++ rest)))))))) := by
    unfold Requirement.afterNameText
    simp only [List.append_assoc]
  rw [htext]
  apply MayFollow.blank_append _ (blank_gap _)
  apply MayFollow.optional_append _ (by decide)
  exact hspecs.blank_append (blank_gap _)

/-- A line that begins with a number sign or a hyphen names nothing. -/
theorem parseLine_skipped {b : GoString} (hb : Blank b) {c : Char} (hc : c = '#' ∨ c = '-')
    (text : GoString) : parseLine (b ++ c :: text) = none := by
  have hsolid : Solid c := by
    rcases hc with rfl | rfl
    · decide
    · decide
  obtain ⟨v, -, htrim⟩ := exists_trimSpace_of_solid hsolid hsolid (u := []) rfl
  unfold parseLine
  dsimp only
  rw [trimSpace_blank_append hb, htrim, if_pos]
  rcases hc with rfl | rfl
  · exact Or.inr (Or.inl rfl)
  · exact Or.inr (Or.inr rfl)

/-- A line gives the name that it requires. -/
theorem parseLine_text (line : Line) (ending : Ending) :
    parseLine (line.text ++ ending.text) =
      line.name?.map fun name => ⟨name, "python".toList⟩ := by
  have hending := blank_ending ending
  cases line with
  | blank gap =>
      have hblank : Blank (gap.text ++ ending.text) := (blank_gap gap).append hending
      change parseLine (gap.text ++ ending.text) = none
      unfold parseLine
      rw [trimSpace_blank hblank]
      rfl
  | comment indent text =>
      change parseLine (indent.text ++ '#' :: text.text ++ ending.text) = none
      rw [List.append_assoc]
      exact parseLine_skipped (blank_gap indent) (Or.inl rfl) _
  | option indent text =>
      change parseLine (indent.text ++ '-' :: text.text ++ ending.text) = none
      rw [List.append_assoc]
      exact parseLine_skipped (blank_gap indent) (Or.inr rfl) _
  | requirement r =>
      obtain ⟨w, t, hrest, hw, hstarts⟩ := follows_afterNameText r hending
      change parseLine (r.indent.text ++ (r.name.text ++ r.afterNameText) ++ ending.text) = _
      rw [List.append_assoc, List.append_assoc, hrest]
      exact parseLine_name (blank_gap r.indent) hw hstarts

end Lines

/-! ## Files -/

section Files

theorem notMem_gap (g : Gap) : '\n' ∉ g.text := by
  intro hmem
  exact absurd (g.blank '\n' hmem) (by decide)

theorem notMem_optional (opening closing : GoString) (hopening : '\n' ∉ opening)
    (hclosing : '\n' ∉ closing) (part : Option Inline) :
    '\n' ∉ optional opening part closing := by
  cases part with
  | none => exact List.not_mem_nil
  | some text =>
      unfold optional
      simp [hopening, hclosing, text.line]

theorem notMem_specifier (s : Specifier) : '\n' ∉ s.text := by
  have hcomparison : '\n' ∉ s.comparison.text := by
    cases s.comparison <;> decide
  unfold Specifier.text
  simp [notMem_gap, hcomparison, s.version.line]

theorem notMem_requirement (r : Requirement) : '\n' ∉ r.afterNameText := by
  have hspecs : '\n' ∉ join ',' (r.specifiers.map Specifier.text) := by
    apply notMem_join (by decide)
    intro part hpart
    obtain ⟨s, -, rfl⟩ := List.mem_map.mp hpart
    exact notMem_specifier s
  have hback : '\n' ∉ (if r.backslash then ['\\'] else []) := by
    split_ifs
    · decide
    · decide
  have hextras := notMem_optional "[".toList "]".toList (by decide)
    (by decide) r.extras
  have hmarker := notMem_optional ";".toList [] (by decide) (by decide)
    r.marker
  have hcomment := notMem_optional "#".toList [] (by decide) (by decide)
    r.comment
  unfold Requirement.afterNameText
  simp only [List.mem_append, not_or]
  exact ⟨notMem_gap _, hextras, notMem_gap _, hspecs, notMem_gap _, hmarker, hback, notMem_gap _,
    hcomment⟩

/-- A line has no line feed. -/
theorem notMem_line (line : Line) (ending : Ending) : '\n' ∉ line.text ++ ending.text := by
  have hending : '\n' ∉ ending.text := by
    cases ending <;> decide
  have hname : ∀ n : ProjectName, '\n' ∉ n.text := by
    intro n hmem
    exact absurd (n.chars hmem) (by decide)
  rw [List.mem_append, not_or]
  refine ⟨?_, hending⟩
  cases line with
  | blank gap => exact notMem_gap gap
  | comment indent text =>
      unfold Line.text
      simp [notMem_gap, text.line]
  | option indent text =>
      unfold Line.text
      simp [notMem_gap, text.line]
  | requirement r =>
      unfold Line.text
      simp [notMem_gap, hname, notMem_requirement]

/-- The lines of a file are parsed one by one. -/
theorem filterMap_parseLine (lines : List (Line × Ending)) :
    (lines.map fun l => l.1.text ++ l.2.text).filterMap parseLine =
      (requiredNames lines).map fun name => ⟨name, "python".toList⟩ := by
  unfold requiredNames
  rw [List.filterMap_map, List.map_filterMap]
  congr 1
  funext l
  exact parseLine_text l.1 l.2

end Files

/-- For every file the names that it requires are found, in order, and there is an error if and
only if there is none. -/
theorem parseRequirementsTxt_content (lines : List (Line × Ending)) :
    parseRequirementsTxt (content lines) =
      if requiredNames lines = [] then
        .error "no packages found in requirements.txt content".toList
      else .ok ((requiredNames lines).map fun name => ⟨name, "python".toList⟩) := by
  have hentries : (split '\n' (content lines)).filterMap parseLine =
      (requiredNames lines).map fun name => ⟨name, "python".toList⟩ := by
    cases lines with
    | nil => rfl
    | cons line lines =>
        unfold split content join
        rw [List.splitOn_intercalate]
        · exact filterMap_parseLine (line :: lines)
        · intro text htext
          obtain ⟨l, -, rfl⟩ := List.mem_map.mp htext
          exact notMem_line l.1 l.2
        · exact List.cons_ne_nil _ _
  unfold parseRequirementsTxt
  dsimp only
  rw [hentries]
  simp only [List.map_eq_nil_iff]

end Restapi
end Veilence

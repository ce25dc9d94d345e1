import Mathlib

/-!
# Messages with header fields

The syntax of RFC 5322 for the header section of a message.  Lines end with CR and LF.  A field is
a name, a colon and a text of printable ASCII characters, spaces and tabs; it goes on in the next
line if this begins with a space or a tab.  An empty line ends the section, and the body follows.

Main results:

- Theorem {lit}`clean_of_parse`: the values of a message that has been read are clean.
- Theorem {lit}`parse_lines`: a message with one line for each field is read as these fields.
-/

namespace Veilence
namespace Mail

/-- A text, character by character. -/
abbrev Text : Type := List Char

/-! ## The grammar -/

/-- A visible ASCII character. -/
def isVisible (c : Char) : Bool :=
  33 ≤ c.toNat ∧ c.toNat ≤ 126

/-- A space or a tab. -/
def isBlank (c : Char) : Bool :=
  c = ' ' ∨ c = '\t'

/-- A text of visible characters, spaces and tabs. -/
def Clean (s : Text) : Prop :=
  (s.all fun c => isVisible c || isBlank c) = true

instance (s : Text) : Decidable (Clean s) :=
  inferInstanceAs (Decidable (_ = true))

/-- The end of a line. -/
def crlf : Text :=
  ['\r', '\n']

/-- A field of a header section. -/
structure Field where
  name : Text
  value : Text
deriving DecidableEq

/-- A message; the body is missing if no empty line ends the header section. -/
structure Message where
  fields : List Field
  body : Option Text
deriving DecidableEq

/-- The lines of the header section, after the beginning of the first one in reverse, and the body.
-/
def splitHeader : Text → Text → Option (List Text × Option Text)
  | line, '\r' :: '\n' :: rest =>
      if line = [] then some ([], some rest)
      else (splitHeader [] rest).map fun (lines, body) => (line.reverse :: lines, body)
  | line, c :: rest => splitHeader (c :: line) rest
  | line, [] => if line = [] then some ([], none) else none

/-- A line that continues the one before. -/
def continues (line : Text) : Bool :=
  line.head?.any isBlank

/-- Put a line before the rest of the section: a text that continues it and the fields after. -/
def unfoldLine (line : Text) (rest : Text × List Text) : Text × List Text :=
  if continues line then (line ++ rest.1, rest.2) else ([], (line ++ rest.1) :: rest.2)

/-- The fields of a section, each in one line; the first line continues nothing. -/
def unfoldLines (lines : List Text) : Option (List Text) :=
  let unfolded := lines.foldr unfoldLine ([], [])
  if unfolded.1 = [] then some unfolded.2 else none

/-- The value of a field is what comes after the colon, less one space. -/
def dropSpace : Text → Text
  | ' ' :: value => value
  | value => value

/-- A field in one line. -/
def parseField (line : Text) : Option Field :=
  let name := line.takeWhile (· ≠ ':')
  let value := line.drop (name.length + 1)
  if name ≠ [] ∧ name.all isVisible = true ∧ name.length < line.length ∧ Clean value then
    some ⟨name, dropSpace value⟩
  else none

/-- The fields of a section. -/
def parseFields : List Text → Option (List Field)
  | [] => some []
  | line :: lines => (parseField line).bind fun f => (parseFields lines).map fun fs => f :: fs

/-- A message. -/
def parse (text : Text) : Option Message :=
  (splitHeader [] text).bind fun (lines, body) =>
    ((unfoldLines lines).bind parseFields).map fun fields => ⟨fields, body⟩

/-! ## Clean texts -/

theorem clean_iff {s : Text} : Clean s ↔ ∀ c ∈ s, isVisible c = true ∨ isBlank c = true := by
  unfold Clean
  rw [List.all_eq_true]
  simp only [Bool.or_eq_true]

theorem Clean.of_subset {s t : Text} (ht : Clean t) (hst : s ⊆ t) : Clean s := by
  rw [clean_iff] at ht ⊢
  exact fun c hc => ht c (hst hc)

/-- A clean text has no ends of lines. -/
theorem Clean.notMem {s : Text} (hs : Clean s) : '\r' ∉ s := by
  intro hmem
  exact absurd (clean_iff.mp hs '\r' hmem) (by decide)

theorem dropSpace_subset (value : Text) : dropSpace value ⊆ value := by
  unfold dropSpace
  split
  · exact List.subset_cons_self ..
  · exact List.Subset.refl _

theorem length_dropSpace_le (value : Text) : (dropSpace value).length ≤ value.length := by
  unfold dropSpace
  split
  · exact Nat.le_succ _
  · exact le_rfl

/-! ## What has been read -/

/-- A field that has been read has a clean value, which is shorter than the line. -/
theorem of_parseField {line : Text} {f : Field} (hparse : parseField line = some f) :
    Clean f.value ∧ f.value.length < line.length := by
  unfold parseField at hparse
  dsimp only at hparse
  split_ifs at hparse with hfield
  obtain rfl := Option.some.inj hparse
  constructor
  · exact hfield.2.2.2.of_subset (dropSpace_subset _)
  · refine (length_dropSpace_le _).trans_lt ?_
    rw [List.length_drop]
    have hlength := hfield.2.2.1
    omega

/-- Each field has been read from its line. -/
theorem forall₂_of_parseFields {lines : List Text} {fields : List Field}
    (hparse : parseFields lines = some fields) :
    List.Forall₂ (fun line f => parseField line = some f) lines fields := by
  induction lines generalizing fields with
  | nil =>
      obtain rfl := Option.some.inj hparse
      exact List.Forall₂.nil
  | cons line lines ih =>
      unfold parseFields at hparse
      rw [Option.bind_eq_some_iff] at hparse
      obtain ⟨f, hf, hrest⟩ := hparse
      rw [Option.map_eq_some_iff] at hrest
      obtain ⟨fs, hfs, rfl⟩ := hrest
      exact List.Forall₂.cons hf (ih hfs)

/-- The values of fields that have been read are clean. -/
theorem clean_of_forall₂ {lines : List Text} {fields : List Field}
    (hforall : List.Forall₂ (fun line f => parseField line = some f) lines fields) {f : Field}
    (hf : f ∈ fields) : Clean f.value := by
  induction hforall with
  | nil => exact absurd hf List.not_mem_nil
  | cons hline _ ih =>
      rcases List.mem_cons.mp hf with rfl | hmem
      · exact (of_parseField hline).1
      · exact ih hmem

/-- A message that has been read, step by step. -/
theorem parse_eq_some {text : Text} {m : Message} (hparse : parse text = some m) :
    ∃ lines fields, splitHeader [] text = some (lines, m.body) ∧
      unfoldLines lines = some fields ∧ parseFields fields = some m.fields := by
  unfold parse at hparse
  rw [Option.bind_eq_some_iff] at hparse
  obtain ⟨⟨lines, body⟩, hsplit, hrest⟩ := hparse
  rw [Option.map_eq_some_iff] at hrest
  obtain ⟨parsed, hfields, rfl⟩ := hrest
  rw [Option.bind_eq_some_iff] at hfields
  obtain ⟨fields, hunfold, hparsed⟩ := hfields
  exact ⟨lines, fields, hsplit, hunfold, hparsed⟩

/-- The values of a message that has been read are clean. -/
theorem clean_of_parse {text : Text} {m : Message} (hparse : parse text = some m) {f : Field}
    (hf : f ∈ m.fields) : Clean f.value := by
  obtain ⟨lines, fields, -, -, hfields⟩ := parse_eq_some hparse
  exact clean_of_forall₂ (forall₂_of_parseFields hfields) hf

/-! ## Reading lines -/

/-- A line without ends of lines before the rest of the section. -/
theorem splitHeader_line {line : Text} (rest : Text) (hline : '\r' ∉ line) (start : Text) :
    splitHeader start (line ++ crlf ++ rest) =
      if start.reverse ++ line = [] then some ([], some rest)
      else (splitHeader [] rest).map fun (lines, body) =>
        ((start.reverse ++ line) :: lines, body) := by
  induction line generalizing start with
  | nil =>
      simp only [List.nil_append, List.append_nil, List.reverse_eq_nil_iff]
      rfl
  | cons c line ih =>
      rw [List.mem_cons, not_or] at hline
      have hstep : splitHeader start (c :: line ++ crlf ++ rest) =
          splitHeader (c :: start) (line ++ crlf ++ rest) := by
        rw [List.cons_append, List.cons_append]
        rw [splitHeader]
        rintro rest' rfl
        exact absurd rfl hline.1
      rw [hstep, ih hline.2]
      simp

/-- An empty line ends the section. -/
theorem splitHeader_empty (rest : Text) : splitHeader [] (crlf ++ rest) = some ([], some rest) :=
  rfl

/-- Another line is the first one of the section. -/
theorem splitHeader_first {line rest : Text} (hline : '\r' ∉ line) (hne : line ≠ []) :
    splitHeader [] (line ++ crlf ++ rest) =
      (splitHeader [] rest).map fun (lines, body) => (line :: lines, body) := by
  have hsplit := splitHeader_line rest hline []
  rwa [if_neg (by simpa using hne)] at hsplit

/-- The text of lines, the empty line and a body. -/
def render (lines : List Text) (body : Text) : Text :=
  (lines.flatMap fun line => line ++ crlf) ++ crlf ++ body

/-- Lines that are not empty are the lines of the section. -/
theorem splitHeader_render {lines : List Text} (hlines : ∀ line ∈ lines, '\r' ∉ line ∧ line ≠ [])
    (body : Text) : splitHeader [] (render lines body) = some (lines, some body) := by
  induction lines with
  | nil => exact splitHeader_empty body
  | cons line lines ih =>
      have hline := hlines line List.mem_cons_self
      have hrest := ih fun l hl => hlines l (List.mem_cons_of_mem line hl)
      have hrender : render (line :: lines) body = line ++ crlf ++ render lines body := by
        unfold render
        simp
      rw [hrender, splitHeader_first hline.1 hline.2, hrest]
      rfl

/-- Lines that continue nothing are fields of their own. -/
theorem unfoldLines_of_not_continues (lines : List Text)
    (hlines : ∀ line ∈ lines, continues line = false) : unfoldLines lines = some lines := by
  have hunfolded : lines.foldr unfoldLine ([], []) = ([], lines) := by
    induction lines with
    | nil => rfl
    | cons line lines ih =>
        rw [List.foldr_cons, ih fun l hl => hlines l (List.mem_cons_of_mem line hl)]
        unfold unfoldLine
        rw [hlines line List.mem_cons_self]
        simp
  unfold unfoldLines
  rw [hunfolded]
  rfl

/-- Not more fields than lines, and fewer if some line continues another. -/
theorem length_unfoldLines_lt {lines fields : List Text} (hunfold : unfoldLines lines = some fields)
    {line : Text} (hline : line ∈ lines) (hcontinues : continues line = true) :
    fields.length < lines.length := by
  have hcount : ∀ lines : List Text, (lines.foldr unfoldLine ([], [])).2.length =
      lines.countP fun l => !continues l := by
    intro lines
    induction lines with
    | nil => rfl
    | cons l lines ih =>
        rw [List.foldr_cons, List.countP_cons, ← ih]
        unfold unfoldLine
        cases continues l with
        | true => rfl
        | false => rfl
  unfold unfoldLines at hunfold
  dsimp only at hunfold
  split_ifs at hunfold
  obtain rfl := Option.some.inj hunfold
  rw [hcount]
  apply lt_of_le_of_ne List.countP_le_length
  intro hall
  have hnot := List.countP_eq_length.mp hall line hline
  rw [hcontinues] at hnot
  exact absurd hnot (by decide)

/-- The line of a field. -/
def Field.line (f : Field) : Text :=
  f.name ++ ':' :: ' ' :: f.value

/-- A name of a field. -/
def IsName (name : Text) : Prop :=
  name ≠ [] ∧ (name.all fun c => isVisible c && c ≠ ':') = true

instance (name : Text) : Decidable (IsName name) :=
  inferInstanceAs (Decidable (_ ∧ _))

theorem IsName.visible {name : Text} (hname : IsName name) {c : Char} (hc : c ∈ name) :
    isVisible c = true ∧ c ≠ ':' := by
  have hall := List.all_eq_true.mp hname.2 c hc
  rw [Bool.and_eq_true, decide_eq_true_eq] at hall
  exact hall

/-- The line of a field is read as this field. -/
theorem parseField_line {f : Field} (hname : IsName f.name) (hvalue : Clean f.value) :
    parseField f.line = some f := by
  have htake : f.line.takeWhile (· ≠ ':') = f.name := by
    unfold Field.line
    rw [List.takeWhile_append_of_pos fun c hc => decide_eq_true (hname.visible hc).2,
      List.takeWhile_cons_of_neg (by simp), List.append_nil]
  have hdrop : f.line.drop (f.name.length + 1) = ' ' :: f.value := by
    unfold Field.line
    rw [List.drop_append]
    simp
  have hvisible : f.name.all isVisible = true :=
    List.all_eq_true.mpr fun c hc => (hname.visible hc).1
  have hlength : f.name.length < f.line.length := by
    unfold Field.line
    simp
  unfold parseField
  rw [htake]
  dsimp only
  rw [hdrop, if_pos ⟨hname.1, hvisible, hlength, hvalue⟩]
  rfl

theorem continues_line {f : Field} (hname : IsName f.name) : continues f.line = false := by
  unfold continues Field.line
  cases hf : f.name with
  | nil => exact absurd hf hname.1
  | cons c name =>
      have hc := (hname.visible (hf ▸ List.mem_cons_self)).1
      unfold isVisible at hc
      have hbounds := of_decide_eq_true hc
      change isBlank c = false
      unfold isBlank
      apply decide_eq_false
      rintro (rfl | rfl)
      · exact absurd hbounds.1 (by decide)
      · exact absurd hbounds.1 (by decide)

theorem notMem_line {f : Field} (hname : IsName f.name) (hvalue : Clean f.value) :
    '\r' ∉ f.line ∧ f.line ≠ [] := by
  unfold Field.line
  constructor
  · intro hmem
    rcases List.mem_append.mp hmem with hinname | hrest
    · exact absurd (hname.visible hinname).1 (by decide)
    · simp only [List.mem_cons] at hrest
      rcases hrest with hcolon | hspace | hinvalue
      · exact absurd hcolon (by decide)
      · exact absurd hspace (by decide)
      · exact hvalue.notMem hinvalue
  · simp

theorem parseFields_lines {fields : List Field}
    (hfields : ∀ f ∈ fields, IsName f.name ∧ Clean f.value) :
    parseFields (fields.map Field.line) = some fields := by
  induction fields with
  | nil => rfl
  | cons f fields ih =>
      have hfirst := hfields f List.mem_cons_self
      rw [List.map_cons, parseFields, parseField_line hfirst.1 hfirst.2, Option.bind_some,
        ih fun f' hf' => hfields f' (List.mem_cons_of_mem f hf')]
      rfl

/-- A message with one line for each field is read as these fields and the body. -/
theorem parse_lines {fields : List Field}
    (hfields : ∀ f ∈ fields, IsName f.name ∧ Clean f.value) (body : Text) :
    parse (render (fields.map Field.line) body) = some ⟨fields, some body⟩ := by
  have hsplit : splitHeader [] (render (fields.map Field.line) body) =
      some (fields.map Field.line, some body) := by
    apply splitHeader_render
    intro line hline
    obtain ⟨f, hf, rfl⟩ := List.mem_map.mp hline
    exact notMem_line (hfields f hf).1 (hfields f hf).2
  have hunfold : unfoldLines (fields.map Field.line) = some (fields.map Field.line) := by
    apply unfoldLines_of_not_continues
    intro line hline
    obtain ⟨f, hf, rfl⟩ := List.mem_map.mp hline
    exact continues_line (hfields f hf).1
  unfold parse
  rw [hsplit, Option.bind_some]
  dsimp only
  rw [hunfold, Option.bind_some, parseFields_lines hfields]
  rfl

end Mail
end Veilence

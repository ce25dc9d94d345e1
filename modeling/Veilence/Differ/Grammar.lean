import Veilence.Differ.Render

/-!
# The block grammar of a diff text

A reader for the text that {lit}`generateDiff` writes.  A text is a sequence of
blocks, each a pair of header lines, a body and a blank line, and possibly the
truncation notice at its end.  The bodies of added and removed files run to the
blank line; a hunk body is as long as its header says.

Main results:

- Theorem {lit}`parseHunkHeader_hunkHeader`: a hunk header is read back exactly.
- Theorem {lit}`parseBlocks_diffLines`: reading back the lines of readable entries
  gives exactly these entries and the truncation flag.
- Theorem {lit}`parseDiff_flatMap`: the same for the text, when no line holds a
  newline.
-/

namespace Veilence
namespace Differ

open Go Foundation

/-! ## Entries -/

/-- What a block says about its file. -/
inductive Change where
  | added (lines : List GoString)
  | removed (lines : List GoString)
  | modified (hunks : List Hunk)
deriving DecidableEq

/-- One block of a diff. -/
structure Entry where
  path : GoString
  change : Change
deriving DecidableEq

/-- How a path changed between two file maps. -/
def changeOf (oldFiles newFiles : FileMap) (path : GoString) : Change :=
  if oldFiles.get? path = none then .added (split '\n' (newFiles.content path))
  else if newFiles.get? path = none then .removed (split '\n' (oldFiles.content path))
  else
    .modified (computeUnifiedHunks (split '\n' (oldFiles.content path))
      (split '\n' (newFiles.content path)) 3)

/-- The entry of a changed path of two file maps. -/
def entryOf (oldFiles newFiles : FileMap) (path : GoString) : Entry :=
  ⟨path, changeOf oldFiles newFiles path⟩

/-- The lines of a hunk in the text. -/
def hunkLines (h : Hunk) : List GoString :=
  hunkHeader h :: h.lines.map (·.text)

/-- The lines of a block, without the blank line at its end. -/
def entryLines (e : Entry) : List GoString :=
  match e.change with
  | .added lines =>
      "--- /dev/null".toList :: ("+++ b/".toList ++ e.path) :: lines.map ('+' :: ·)
  | .removed lines =>
      ("--- a/".toList ++ e.path) :: "+++ /dev/null".toList :: lines.map ('-' :: ·)
  | .modified hunks =>
      ("--- a/".toList ++ e.path) :: ("+++ b/".toList ++ e.path) :: hunks.flatMap hunkLines

/-- All lines of a diff text. -/
def diffLines (entries : List Entry) (truncated : Bool) : List GoString :=
  entries.flatMap (fun e => entryLines e ++ [[]]) ++
    if truncated then [[], noticeLine] else []

/-- Carry out a change on the old content of its file. -/
def Change.apply (old : Option GoString) : Change → Option GoString
  | .added lines => some (join '\n' lines)
  | .removed _ => none
  | .modified hunks =>
      old.map fun content =>
        join '\n' (splice 0 (hunks.map Hunk.oldEdit) (split '\n' content))

/-! ## The reader -/

/-- The rest of a line after a fixed prefix. -/
def afterPrefix (start line : GoString) : Option GoString :=
  if start <+: line then some (line.drop start.length) else none

/-- Read a decimal number and the text that follows it. -/
def parseNat (s : GoString) : Option (Nat × GoString) :=
  let digits := s.takeWhile Char.isDigit
  if digits = [] then none
  else some (Nat.ofDigitChars 10 digits 0, s.dropWhile Char.isDigit)

/-- Read a number after a fixed text. -/
def parseField (start s : GoString) : Option (Nat × GoString) :=
  (afterPrefix start s).bind parseNat

/-- Read a hunk header: one-based starts and the counts of both sides. -/
def parseHunkHeader (line : GoString) : Option (Nat × Nat × Nat × Nat) := do
  let (oldStart, s) ← parseField "@@ -".toList line
  let (oldCount, s) ← parseField ",".toList s
  let (newStart, s) ← parseField " +".toList s
  let (newCount, s) ← parseField ",".toList s
  if s = " @@".toList ∧ 0 < oldStart ∧ 0 < newStart then
    some (oldStart - 1, oldCount, newStart - 1, newCount)
  else none

/-- The kind of a body line. -/
def lineKind : GoString → Option OpKind
  | ' ' :: _ => some .ctx
  | '+' :: _ => some .add
  | '-' :: _ => some .del
  | _ => none

/-- How many old lines a body line stands for. -/
def OpKind.oldSize : OpKind → Nat
  | .add => 0
  | _ => 1

/-- How many new lines a body line stands for. -/
def OpKind.newSize : OpKind → Nat
  | .del => 0
  | _ => 1

/-- Read a hunk body until the counts of both sides are used up. -/
def parseHunkBody : List GoString → Nat → Nat → Option (List DiffLine × List GoString)
  | [], oldLeft, newLeft =>
      if oldLeft = 0 ∧ newLeft = 0 then some ([], []) else none
  | line :: rest, oldLeft, newLeft =>
      if oldLeft = 0 ∧ newLeft = 0 then some ([], line :: rest)
      else do
        let kind ← lineKind line
        if kind.oldSize ≤ oldLeft ∧ kind.newSize ≤ newLeft then
          let (lines, rest) ←
            parseHunkBody rest (oldLeft - kind.oldSize) (newLeft - kind.newSize)
          some (⟨kind, line⟩ :: lines, rest)
        else none

/-- Read hunks up to the blank line.  Each hunk takes at least one line. -/
def parseHunks : Nat → List GoString → Option (List Hunk × List GoString)
  | _, [] => none
  | _, [] :: rest => some ([], rest)
  | 0, _ => none
  | fuel + 1, header :: rest => do
      let (oldStart, oldCount, newStart, newCount) ← parseHunkHeader header
      let (lines, rest) ← parseHunkBody rest oldCount newCount
      let (hunks, rest) ← parseHunks fuel rest
      some (⟨oldStart, oldCount, newStart, newCount, lines⟩ :: hunks, rest)

/-- Read lines with a fixed one-byte prefix up to the blank line. -/
def parsePrefixed (mark : Char) : List GoString → Option (List GoString × List GoString)
  | [] => none
  | [] :: rest => some ([], rest)
  | (c :: line) :: rest =>
      if c = mark then (parsePrefixed mark rest).map fun r => (line :: r.1, r.2) else none

/-- Read one block after its two header lines. -/
def parseBlock (first second : GoString) (rest : List GoString) :
    Option (Entry × List GoString) :=
  if first = "--- /dev/null".toList then do
    let path ← afterPrefix "+++ b/".toList second
    let (lines, rest) ← parsePrefixed '+' rest
    some (⟨path, .added lines⟩, rest)
  else do
    let path ← afterPrefix "--- a/".toList first
    if second = "+++ /dev/null".toList then
      let (lines, rest) ← parsePrefixed '-' rest
      some (⟨path, .removed lines⟩, rest)
    else
      let path' ← afterPrefix "+++ b/".toList second
      let (hunks, rest) ← parseHunks rest.length rest
      if path = path' then some (⟨path, .modified hunks⟩, rest) else none

/-- Read blocks to the end of the text, with the truncation notice if it is there. -/
def parseBlocks : Nat → List GoString → Option (List Entry × Bool)
  | _, [] => some ([], false)
  | fuel + 1, first :: second :: rest =>
      if first = [] ∧ second = noticeLine ∧ rest = [] then some ([], true)
      else do
        let (e, rest) ← parseBlock first second rest
        let (entries, truncated) ← parseBlocks fuel rest
        some (e :: entries, truncated)
  | _, _ => none

/-- Read a diff text, every line of which ends in a newline. -/
def parseDiff (text : GoString) : Option (List Entry × Bool) :=
  let lines := split '\n' text
  if lines.getLast? = some [] then parseBlocks lines.length lines.dropLast else none

/-! ## Reading back a hunk -/

/-- Nonempty pieces are at most as many as the items of their concatenation. -/
theorem length_le_length_flatMap {α β : Type*} {f : α → List β} (xs : List α)
    (hf : ∀ x, f x ≠ []) : xs.length ≤ (xs.flatMap f).length := by
  induction xs with
  | nil => simp
  | cons x xs ih =>
      have hx : 0 < (f x).length := List.length_pos_iff.mpr (hf x)
      simp only [List.length_cons, List.flatMap_cons, List.length_append]
      omega

@[simp]
theorem afterPrefix_append (start rest : GoString) :
    afterPrefix start (start ++ rest) = some rest := by
  simp [afterPrefix]

/-- A written number holds digits only. -/
theorem isDigit_of_mem_itoa {n : Nat} {c : Char} (hc : c ∈ itoa n) : c.isDigit = true :=
  Nat.isDigit_of_mem_toDigits (by decide) (by decide) hc

/-- The digits of a number followed by something else are read back exactly. -/
theorem parseNat_itoa (n : Nat) {rest : GoString} {c : Char} (hhead : rest.head? = some c)
    (hc : c.isDigit = false) : parseNat (itoa n ++ rest) = some (n, rest) := by
  obtain ⟨tail, rfl⟩ : ∃ tail, rest = c :: tail := by
    cases rest with
    | nil => simp at hhead
    | cons d tail => exact ⟨tail, by simpa using hhead⟩
  have htake : (itoa n ++ c :: tail).takeWhile Char.isDigit = itoa n := by
    rw [List.takeWhile_append_of_pos fun d hd => isDigit_of_mem_itoa hd]
    simp [hc]
  have hdrop : (itoa n ++ c :: tail).dropWhile Char.isDigit = c :: tail := by
    rw [List.dropWhile_append_of_pos fun d hd => isDigit_of_mem_itoa hd]
    simp [hc]
  have hne : itoa n ≠ [] := Nat.toDigits_ne_nil
  simp only [parseNat, htake, hdrop, if_neg hne]
  rw [show itoa n = Nat.toDigits 10 n from rfl, Nat.ofDigitChars_ten_toDigits]

/-- A field of a hunk header is read back exactly. -/
theorem parseField_append (start : GoString) (n : Nat) {rest : GoString} {c : Char}
    (hhead : rest.head? = some c) (hc : c.isDigit = false) :
    parseField start (start ++ (itoa n ++ rest)) = some (n, rest) := by
  rw [parseField, afterPrefix_append, Option.bind_some, parseNat_itoa n hhead hc]

/-- A hunk header is read back exactly. -/
theorem parseHunkHeader_hunkHeader (h : Hunk) :
    parseHunkHeader (hunkHeader h) =
      some (h.oldStart, h.oldCount, h.newStart, h.newCount) := by
  have hcomma : ∀ rest : GoString, (",".toList ++ rest).head? = some ',' := by simp
  have hplus : ∀ rest : GoString, (" +".toList ++ rest).head? = some ' ' := by simp
  have hend : ∀ rest : GoString, (" @@".toList ++ rest).head? = some ' ' := by simp
  simp only [hunkHeader, parseHunkHeader, List.flatten_cons, List.flatten_nil]
  rw [parseField_append _ _ (hcomma _) (by decide)]
  simp only [Option.bind_eq_bind, Option.bind_some]
  rw [parseField_append _ _ (hplus _) (by decide)]
  simp only [Option.bind_some]
  rw [parseField_append _ _ (hcomma _) (by decide)]
  simp only [Option.bind_some]
  rw [parseField_append _ _ (hend _) (by decide)]
  simp

/-- The old lines that a hunk body stands for. -/
def oldTotal (lines : List DiffLine) : Nat :=
  (lines.map (·.kind.oldSize)).sum

/-- The new lines that a hunk body stands for. -/
def newTotal (lines : List DiffLine) : Nat :=
  (lines.map (·.kind.newSize)).sum

@[simp]
theorem oldTotal_cons (l : DiffLine) (lines : List DiffLine) :
    oldTotal (l :: lines) = l.kind.oldSize + oldTotal lines :=
  rfl

@[simp]
theorem newTotal_cons (l : DiffLine) (lines : List DiffLine) :
    newTotal (l :: lines) = l.kind.newSize + newTotal lines :=
  rfl

/-- Hunks that can be read back: the counts fit the body and the lines carry the
prefix of their kind. -/
structure Hunk.Readable (h : Hunk) : Prop where
  oldCount : h.oldCount = oldTotal h.lines
  newCount : h.newCount = newTotal h.lines
  prefixed : ∀ l ∈ h.lines, l.text.head? = some (prefixOf l.kind)

/-- The prefix of a body line tells its kind. -/
theorem lineKind_of_head {l : DiffLine} (hl : l.text.head? = some (prefixOf l.kind)) :
    lineKind l.text = some l.kind := by
  obtain ⟨kind, text⟩ := l
  cases text with
  | nil => simp at hl
  | cons c line =>
      have hc : c = prefixOf kind := by simpa using hl
      subst hc
      cases kind <;> rfl

/-- Every body line takes something from one of the counts. -/
theorem OpKind.size_pos (kind : OpKind) : 0 < kind.oldSize + kind.newSize := by
  cases kind <;> decide

/-- A hunk body is read back exactly, whatever follows it. -/
theorem parseHunkBody_lines (lines : List DiffLine) (rest : List GoString)
    (hprefixed : ∀ l ∈ lines, l.text.head? = some (prefixOf l.kind)) :
    parseHunkBody (lines.map (·.text) ++ rest) (oldTotal lines) (newTotal lines) =
      some (lines, rest) := by
  induction lines with
  | nil => cases rest <;> simp [parseHunkBody, oldTotal, newTotal]
  | cons l lines ih =>
      have hrest := ih fun l' hl' => hprefixed l' (List.mem_cons_of_mem l hl')
      have hkind := lineKind_of_head (hprefixed l (by simp))
      have hpos := l.kind.size_pos
      have hmore : ¬(oldTotal (l :: lines) = 0 ∧ newTotal (l :: lines) = 0) := by
        simp only [oldTotal_cons, newTotal_cons]
        omega
      simp only [List.map_cons, List.cons_append, parseHunkBody, if_neg hmore, hkind,
        Option.bind_eq_bind, Option.bind_some]
      simp [hrest]

/-- Hunks are read back exactly, up to the blank line after them. -/
theorem parseHunks_flatMap (hunks : List Hunk) (rest : List GoString)
    (hreadable : ∀ h ∈ hunks, h.Readable) {fuel : Nat} (hfuel : hunks.length ≤ fuel) :
    parseHunks fuel (hunks.flatMap hunkLines ++ [] :: rest) = some (hunks, rest) := by
  induction hunks generalizing fuel with
  | nil => cases fuel <;> simp [parseHunks]
  | cons h hunks ih =>
      obtain ⟨fuel, rfl⟩ : ∃ n, fuel = n + 1 :=
        ⟨fuel - 1, by simp only [List.length_cons] at hfuel; omega⟩
      have hlength : hunks.length ≤ fuel := by simpa using hfuel
      have hrest := ih (fun h' hh' => hreadable h' (List.mem_cons_of_mem h hh')) hlength
      have hh := hreadable h (by simp)
      have hbody := parseHunkBody_lines h.lines (hunks.flatMap hunkLines ++ [] :: rest)
        hh.prefixed
      rw [← hh.oldCount, ← hh.newCount] at hbody
      simp only [List.flatMap_cons, hunkLines, List.cons_append, List.append_assoc]
      obtain ⟨c, cs, hheader⟩ : ∃ c cs, hunkHeader h = c :: cs :=
        ⟨'@', (hunkHeader h).tail, by simp [hunkHeader]⟩
      have hread := parseHunkHeader_hunkHeader h
      rw [hheader] at hread ⊢
      simp only [parseHunks, hread, Option.bind_eq_bind, Option.bind_some]
      simp [hbody, hrest]

/-! ## Reading back a block -/

/-- Lines with a fixed prefix are read back exactly, up to the blank line. -/
theorem parsePrefixed_map (mark : Char) (lines rest : List GoString) :
    parsePrefixed mark (lines.map (mark :: ·) ++ [] :: rest) = some (lines, rest) := by
  induction lines with
  | nil => simp [parsePrefixed]
  | cons line lines ih => simp [parsePrefixed, ih]

/-- Entries that can be read back: the hunks of a modified file can. -/
def Entry.Readable (e : Entry) : Prop :=
  ∀ hunks, e.change = .modified hunks → ∀ h ∈ hunks, h.Readable

/-- A path name after {lit}`a/` is never the null device. -/
theorem fromPath_ne_devNull (path : GoString) :
    "--- a/".toList ++ path ≠ "--- /dev/null".toList := by
  simp

theorem toPath_ne_devNull (path : GoString) :
    "+++ b/".toList ++ path ≠ "+++ /dev/null".toList := by
  simp

/-- A block is its two header lines and its body; it is read back exactly. -/
theorem parseBlock_entryLines {e : Entry} (he : e.Readable) (rest : List GoString) :
    ∃ first second body, entryLines e = first :: second :: body ∧ first ≠ [] ∧
      parseBlock first second (body ++ [] :: rest) = some (e, rest) := by
  obtain ⟨path, change⟩ := e
  cases change with
  | added lines =>
      refine ⟨_, _, _, rfl, by simp, ?_⟩
      simp only [parseBlock, if_pos, afterPrefix_append, Option.bind_eq_bind,
        Option.bind_some, parsePrefixed_map]
  | removed lines =>
      refine ⟨_, _, _, rfl, by simp, ?_⟩
      simp only [parseBlock, if_neg (fromPath_ne_devNull path), if_pos, afterPrefix_append,
        Option.bind_eq_bind, Option.bind_some, parsePrefixed_map]
  | modified hunks =>
      refine ⟨_, _, _, rfl, by simp, ?_⟩
      have hfuel : hunks.length ≤ (hunks.flatMap hunkLines ++ [] :: rest).length := by
        have hlen := length_le_length_flatMap (f := hunkLines) hunks (by simp [hunkLines])
        simp only [List.length_append]
        omega
      have hread := parseHunks_flatMap hunks rest (he hunks rfl) hfuel
      simp only [parseBlock, if_neg (fromPath_ne_devNull path),
        if_neg (toPath_ne_devNull path), if_pos, afterPrefix_append,
        Option.bind_eq_bind, Option.bind_some, hread]

/-- The lines of a diff are read back exactly. -/
theorem parseBlocks_diffLines (entries : List Entry) (truncated : Bool)
    (hreadable : ∀ e ∈ entries, e.Readable) {fuel : Nat} (hfuel : entries.length < fuel) :
    parseBlocks fuel (diffLines entries truncated) = some (entries, truncated) := by
  induction entries generalizing fuel with
  | nil =>
      obtain ⟨fuel, rfl⟩ : ∃ n, fuel = n + 1 := ⟨fuel - 1, by simp at hfuel; omega⟩
      cases truncated <;> simp [diffLines, parseBlocks]
  | cons e entries ih =>
      obtain ⟨fuel, rfl⟩ : ∃ n, fuel = n + 1 := ⟨fuel - 1, by simp at hfuel; omega⟩
      have hlength : entries.length < fuel := by simpa using hfuel
      have hrest := ih (fun e' he' => hreadable e' (List.mem_cons_of_mem e he')) hlength
      obtain ⟨first, second, body, hlines, hfirst, hblock⟩ :=
        parseBlock_entryLines (hreadable e (by simp)) (diffLines entries truncated)
      have hcut : diffLines (e :: entries) truncated =
          first :: second :: (body ++ [] :: diffLines entries truncated) := by
        simp [diffLines, hlines]
      rw [hcut, parseBlocks, if_neg (by simp [hfirst]), hblock]
      simp [hrest]

/-! ## Splitting the written text into lines -/

/-- The lines of a written text are split off exactly. -/
theorem split_flatMap_textLine (lines : List GoString) (hlines : ∀ l ∈ lines, '\n' ∉ l) :
    split '\n' (lines.flatMap textLine) = lines ++ [[]] := by
  induction lines with
  | nil => simp [split]
  | cons l lines ih =>
      have hrest := ih fun l' hl' => hlines l' (List.mem_cons_of_mem l hl')
      rw [List.flatMap_cons, textLine, List.append_assoc, List.singleton_append, split,
        List.splitOn_append_cons_self_of_not_mem (hlines l (by simp))]
      exact congrArg (l :: ·) hrest

/-- A diff text whose lines hold no newline is read back exactly. -/
theorem parseDiff_flatMap {entries : List Entry} {truncated : Bool}
    (hlines : ∀ l ∈ diffLines entries truncated, '\n' ∉ l)
    (hreadable : ∀ e ∈ entries, e.Readable) :
    parseDiff ((diffLines entries truncated).flatMap textLine) =
      some (entries, truncated) := by
  have hfuel : entries.length < (diffLines entries truncated ++ [[]]).length := by
    have hlen := length_le_length_flatMap (f := fun e => entryLines e ++ [[]]) entries
      (by simp)
    simp only [diffLines, List.length_append, List.length_cons, List.length_nil]
    omega
  simp only [parseDiff, split_flatMap_textLine _ hlines, List.getLast?_concat, if_pos,
    List.dropLast_concat]
  exact parseBlocks_diffLines entries truncated hreadable hfuel

end Differ
end Veilence

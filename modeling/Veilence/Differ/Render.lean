import Veilence.Differ.Filter
import Veilence.Differ.Patch
import Veilence.Foundation.Table

/-!
# Rendering a diff of two file maps

The part of {lit}`generateDiff` that follows the two calls of {lit}`walkFiles`: the
text of one file, the three passes over the tiers with their size budget, and the
truncation notice.

Main results:

- Theorem {lit}`generateFileDiff_of_ne`: two different contents always give a
  nonempty block, counted as one changed file.
- Theorem {lit}`emitPass_spec`: what one pass appends, and when it truncates.
- Theorem {lit}`generateDiffFiles_text`: the text is the blocks of the emitted paths,
  followed by the notice exactly when the result is marked truncated.
-/

namespace Veilence
namespace Differ

open Go Foundation

/-! ## File maps -/

/-- A map from paths to contents, as {lit}`walkFiles` returns it. -/
abbrev FileMap := Table GoString GoString

/-- The content at a path, the empty string where there is none. -/
def FileMap.content (files : FileMap) (path : GoString) : GoString :=
  (files.get? path).getD []

/-- The paths of both maps, each once. -/
def allPaths (oldFiles newFiles : FileMap) : List GoString :=
  oldFiles.keys ++ newFiles.keys.filter (· ∉ oldFiles.keys)

/-- A path is listed when either map has it. -/
theorem mem_allPaths {oldFiles newFiles : FileMap} {path : GoString} :
    path ∈ allPaths oldFiles newFiles ↔ path ∈ oldFiles.keys ∨ path ∈ newFiles.keys := by
  by_cases hold : path ∈ oldFiles.keys <;> simp [allPaths, hold]

/-- A path whose contents differ is listed. -/
theorem mem_allPaths_of_content_ne {oldFiles newFiles : FileMap} {path : GoString}
    (hne : oldFiles.content path ≠ newFiles.content path) :
    path ∈ allPaths oldFiles newFiles := by
  rw [mem_allPaths, Table.mem_keys_iff, Table.mem_keys_iff]
  by_contra hnone
  rw [not_or, Bool.not_eq_true, Bool.not_eq_true, Option.isSome_eq_false_iff,
    Option.isSome_eq_false_iff, Option.isNone_iff_eq_none, Option.isNone_iff_eq_none] at hnone
  exact hne (by simp [FileMap.content, hnone.1, hnone.2])

/-! ## The text of one file -/

/-- What {lit}`generateFileDiff` returns: the text, whether the file counts as
changed, and the added and removed lines. -/
structure FileDiff where
  text : GoString
  changed : Nat
  added : Nat
  removed : Nat
deriving DecidableEq

/-- The result for a file without changes. -/
def FileDiff.none : FileDiff :=
  ⟨[], 0, 0, 0⟩

/-- A line of the text. -/
def textLine (line : GoString) : GoString :=
  line ++ ['\n']

/-- The header line of a hunk. -/
def hunkHeader (h : Hunk) : GoString :=
  ["@@ -".toList, itoa (h.oldStart + 1), ",".toList, itoa h.oldCount, " +".toList,
    itoa (h.newStart + 1), ",".toList, itoa h.newCount, " @@".toList].flatten

/-- The text of a hunk: its header and its body lines. -/
def hunkText (h : Hunk) : GoString :=
  textLine (hunkHeader h) ++ h.lines.flatMap fun l => textLine l.text

/-- The number of body lines of one kind. -/
def countKind (kind : OpKind) (hunks : List Hunk) : Nat :=
  (hunks.flatMap (·.lines)).countP (·.kind = kind)

/-- Close a file's text with the blank separator line; a text without changes is
dropped. -/
def closeFileDiff (text : GoString) (added removed : Nat) : FileDiff :=
  if added = 0 ∧ removed = 0 then FileDiff.none
  else ⟨text ++ ['\n'], 1, added, removed⟩

/-- The text of one file. -/
def generateFileDiff (oldFiles newFiles : FileMap) (path : GoString) : FileDiff :=
  let oldContent := oldFiles.content path
  let newContent := newFiles.content path
  if oldContent = newContent then FileDiff.none
  else if oldFiles.get? path = none then
    let lines := split '\n' newContent
    closeFileDiff
      (textLine "--- /dev/null".toList ++ textLine ("+++ b/".toList ++ path) ++
        lines.flatMap fun line => textLine ('+' :: line))
      lines.length 0
  else if newFiles.get? path = none then
    let lines := split '\n' oldContent
    closeFileDiff
      (textLine ("--- a/".toList ++ path) ++ textLine "+++ /dev/null".toList ++
        lines.flatMap fun line => textLine ('-' :: line))
      0 lines.length
  else
    let hunks := computeUnifiedHunks (split '\n' oldContent) (split '\n' newContent) 3
    closeFileDiff
      (textLine ("--- a/".toList ++ path) ++ textLine ("+++ b/".toList ++ path) ++
        hunks.flatMap hunkText)
      (countKind .add hunks) (countKind .del hunks)

/-! ## The three passes -/

/-- The text written so far with its statistics. -/
structure DiffState where
  text : GoString
  filesChanged : Nat
  linesAdded : Nat
  linesRemoved : Nat
  truncated : Bool
deriving DecidableEq

/-- The state before the first pass. -/
def DiffState.start : DiffState :=
  ⟨[], 0, 0, 0, false⟩

/-- Append one file to the text. -/
def DiffState.write (s : DiffState) (d : FileDiff) : DiffState :=
  { s with
    text := s.text ++ d.text
    filesChanged := s.filesChanged + d.changed
    linesAdded := s.linesAdded + d.added
    linesRemoved := s.linesRemoved + d.removed }

/-- One pass over the sorted paths of a tier.  `firstFile` is the variable of the
first pass that lets the very first changed file through whatever its size; the
other passes run without this exception. -/
def emitPass (gen : GoString → FileDiff) (sizeLimit : Int) :
    Bool → List GoString → DiffState → DiffState
  | _, [], s => s
  | firstFile, path :: paths, s =>
      if (gen path).changed = 0 then emitPass gen sizeLimit firstFile paths s
      else if s.text.length + (gen path).text.length > sizeLimit then
        if firstFile then { s.write (gen path) with truncated := true }
        else { s with truncated := true }
      else emitPass gen sizeLimit false paths (s.write (gen path))

/-- The size below which documentation is still shown: {lit}`sizeLimit*80/100`. -/
def docBudget (sizeLimit : Int) : Int :=
  (int64 (sizeLimit * 80)).tdiv 100

/-- The line of the truncation notice. -/
def noticeLine : GoString :=
  "--- DIFF TRUNCATED (exceeded size limit, more files not shown".toList ++
    " - recommend manual audit) ---".toList

/-- The notice at the end of a truncated text. -/
def truncationNotice : GoString :=
  textLine [] ++ textLine noticeLine

/-- The first two passes: code, then CI directories if nothing was truncated. -/
def codePasses (oldFiles newFiles : FileMap) (ecosystem : GoString) (sizeLimit : Int) :
    DiffState :=
  let gen := generateFileDiff oldFiles newFiles
  let paths := partitionPaths (allPaths oldFiles newFiles) ecosystem
  let s := emitPass gen sizeLimit true (paths .tier1) .start
  if s.truncated then s else emitPass gen sizeLimit false (paths .tier2) s

/-- Whether the pass over the documentation runs. -/
def docsShown (oldFiles newFiles : FileMap) (ecosystem : GoString) (sizeLimit : Int) : Bool :=
  let s := codePasses oldFiles newFiles ecosystem sizeLimit
  !s.truncated && s.text.length < docBudget sizeLimit

/-- All three passes. -/
def allPasses (oldFiles newFiles : FileMap) (ecosystem : GoString) (sizeLimit : Int) :
    DiffState :=
  let s := codePasses oldFiles newFiles ecosystem sizeLimit
  if docsShown oldFiles newFiles ecosystem sizeLimit then
    emitPass (generateFileDiff oldFiles newFiles) sizeLimit false
      (partitionPaths (allPaths oldFiles newFiles) ecosystem .tier3) s
  else s

/-- {lit}`generateDiff` on the two file maps it has read. -/
def generateDiffFiles (oldFiles newFiles : FileMap) (ecosystem : GoString) (sizeLimit : Int) :
    DiffState :=
  let s := allPasses oldFiles newFiles ecosystem sizeLimit
  if s.truncated then { s with text := s.text ++ truncationNotice } else s

/-! ## The text of one file -/

/-- A closed text counts as unchanged only when nothing was added or removed. -/
theorem closeFileDiff_of_pos {text : GoString} {added removed : Nat}
    (hpos : 0 < added ∨ 0 < removed) :
    closeFileDiff text added removed = ⟨text ++ ['\n'], 1, added, removed⟩ := by
  rw [closeFileDiff, if_neg (by omega)]

/-- The hunks between different line lists add or remove a line. -/
theorem countKind_pos {oldLines newLines : List GoString} (hne : oldLines ≠ newLines)
    (contextLines : Nat) :
    0 < countKind .add (computeUnifiedHunks oldLines newLines contextLines) ∨
      0 < countKind .del (computeUnifiedHunks oldLines newLines contextLines) := by
  by_contra hzero
  simp only [countKind, not_or, Nat.not_lt, Nat.le_zero, List.countP_eq_zero,
    decide_eq_true_eq] at hzero
  refine hne (eq_of_lines_ctx contextLines fun l hl => ?_)
  have hadd := hzero.1 l hl
  have hdel := hzero.2 l hl
  cases hkind : l.kind <;> simp_all

/-- A closed text that counts as changed is not empty. -/
theorem closeFileDiff_text_ne_nil {text : GoString} {added removed : Nat}
    (hchanged : (closeFileDiff text added removed).changed ≠ 0) :
    (closeFileDiff text added removed).text ≠ [] := by
  rw [closeFileDiff] at hchanged ⊢
  split_ifs at hchanged ⊢ with hzero
  · exact absurd rfl hchanged
  · simp

/-- A file whose contents agree gives no text. -/
theorem generateFileDiff_of_eq {oldFiles newFiles : FileMap} {path : GoString}
    (heq : oldFiles.content path = newFiles.content path) :
    generateFileDiff oldFiles newFiles path = FileDiff.none := by
  rw [generateFileDiff, if_pos heq]

/-- A file whose contents differ counts as one changed file. -/
theorem generateFileDiff_of_ne {oldFiles newFiles : FileMap} {path : GoString}
    (hne : oldFiles.content path ≠ newFiles.content path) :
    (generateFileDiff oldFiles newFiles path).changed = 1 := by
  have hlines : ∀ content, 0 < (split '\n' content).length :=
    fun content => List.length_pos_iff.mpr (split_ne_nil '\n' content)
  simp only [generateFileDiff, if_neg hne]
  split_ifs with hold hnew
  · rw [closeFileDiff_of_pos (Or.inl (hlines _))]
  · rw [closeFileDiff_of_pos (Or.inr (hlines _))]
  · have hsplit : split '\n' (oldFiles.content path) ≠ split '\n' (newFiles.content path) :=
      fun heq => hne (split_injective '\n' heq)
    rw [closeFileDiff_of_pos (countKind_pos hsplit 3)]

/-- The text of a changed file is not empty. -/
theorem generateFileDiff_text_ne_nil {oldFiles newFiles : FileMap} {path : GoString}
    (hne : oldFiles.content path ≠ newFiles.content path) :
    (generateFileDiff oldFiles newFiles path).text ≠ [] := by
  have hchanged : (generateFileDiff oldFiles newFiles path).changed ≠ 0 := by
    rw [generateFileDiff_of_ne hne]
    decide
  simp only [generateFileDiff, if_neg hne] at hchanged ⊢
  split_ifs at hchanged ⊢ with hold hnew
  · exact closeFileDiff_text_ne_nil hchanged
  · exact closeFileDiff_text_ne_nil hchanged
  · exact closeFileDiff_text_ne_nil hchanged

/-- A file counts as changed exactly when its contents differ. -/
theorem generateFileDiff_changed_iff {oldFiles newFiles : FileMap} {path : GoString} :
    (generateFileDiff oldFiles newFiles path).changed = 0 ↔
      oldFiles.content path = newFiles.content path := by
  constructor
  · intro hzero
    by_contra hne
    rw [generateFileDiff_of_ne hne] at hzero
    exact absurd hzero (by decide)
  · intro heq
    rw [generateFileDiff_of_eq heq]
    rfl

/-! ## What the passes write -/

/-- A pass over unchanged files writes nothing. -/
theorem emitPass_unchanged {gen : GoString → FileDiff} {sizeLimit : Int} {firstFile : Bool}
    {paths : List GoString} {s : DiffState} (hpaths : ∀ p ∈ paths, (gen p).changed = 0) :
    emitPass gen sizeLimit firstFile paths s = s := by
  induction paths with
  | nil => rfl
  | cons path paths ih =>
      rw [emitPass, if_pos (hpaths path (by simp))]
      exact ih fun p hp => hpaths p (List.mem_cons_of_mem path hp)

/-- One pass writes a prefix of its changed files, and all of them if it does not
truncate. -/
theorem emitPass_spec (gen : GoString → FileDiff) (sizeLimit : Int) (firstFile : Bool)
    (paths : List GoString) {s : DiffState} (hs : s.truncated = false) :
    ∃ emitted, emitted <+: paths.filter (fun p => (gen p).changed ≠ 0) ∧
      (emitPass gen sizeLimit firstFile paths s).text =
        s.text ++ emitted.flatMap (fun p => (gen p).text) ∧
      ((emitPass gen sizeLimit firstFile paths s).truncated = false →
        emitted = paths.filter fun p => (gen p).changed ≠ 0) := by
  induction paths generalizing firstFile s with
  | nil => exact ⟨[], by simp, by simp [emitPass], by simp⟩
  | cons path paths ih =>
      rw [emitPass]
      split_ifs with hsame hsize hfirst
      · simpa [hsame] using ih firstFile hs
      · refine ⟨[path], ?_, ?_, by simp⟩
        · simp [hsame]
        · simp [DiffState.write]
      · exact ⟨[], by simp, by simp, by simp⟩
      · obtain ⟨emitted, hpre, htext, hall⟩ :=
          ih false (s := s.write (gen path)) (by simpa [DiffState.write] using hs)
        refine ⟨path :: emitted, ?_, ?_, ?_⟩
        · simpa [hsame] using hpre
        · rw [htext]
          simp [DiffState.write]
        · intro huntruncated
          simp [hsame, hall huntruncated]

/-- The paths that the passes run over when nothing is truncated. -/
def shownPaths (oldFiles newFiles : FileMap) (ecosystem : GoString) (sizeLimit : Int) :
    List GoString :=
  let paths := partitionPaths (allPaths oldFiles newFiles) ecosystem
  paths .tier1 ++ paths .tier2 ++
    if docsShown oldFiles newFiles ecosystem sizeLimit then paths .tier3 else []

/-- The paths among them whose contents differ. -/
def changedPaths (oldFiles newFiles : FileMap) (paths : List GoString) : List GoString :=
  paths.filter fun p => oldFiles.content p ≠ newFiles.content p

theorem mem_changedPaths {oldFiles newFiles : FileMap} {paths : List GoString}
    {p : GoString} :
    p ∈ changedPaths oldFiles newFiles paths ↔
      p ∈ paths ∧ oldFiles.content p ≠ newFiles.content p := by
  simp [changedPaths]

/-- The changed files of a pass are the paths whose contents differ. -/
theorem filter_changed (oldFiles newFiles : FileMap) (paths : List GoString) :
    paths.filter (fun p => (generateFileDiff oldFiles newFiles p).changed ≠ 0) =
      changedPaths oldFiles newFiles paths := by
  simp only [changedPaths, ne_eq, generateFileDiff_changed_iff]

theorem changedPaths_append (oldFiles newFiles : FileMap) (ps qs : List GoString) :
    changedPaths oldFiles newFiles (ps ++ qs) =
      changedPaths oldFiles newFiles ps ++ changedPaths oldFiles newFiles qs := by
  simp [changedPaths]

/-- `Emitted gen s ps`: the state `s` holds the blocks of a prefix of `ps`, and of
all of `ps` unless it is truncated. -/
def Emitted (gen : GoString → FileDiff) (s : DiffState) (ps : List GoString) : Prop :=
  ∃ emitted, emitted <+: ps ∧ s.text = emitted.flatMap (fun p => (gen p).text) ∧
    (s.truncated = false → emitted = ps)

/-- A pass over one more tier extends what an untruncated state holds. -/
theorem Emitted.emitPass {oldFiles newFiles : FileMap} {s : DiffState}
    {ps : List GoString}
    (hs : Emitted (generateFileDiff oldFiles newFiles) s (changedPaths oldFiles newFiles ps))
    (huntruncated : s.truncated = false) (sizeLimit : Int) (firstFile : Bool)
    (paths : List GoString) :
    Emitted (generateFileDiff oldFiles newFiles)
      (emitPass (generateFileDiff oldFiles newFiles) sizeLimit firstFile paths s)
      (changedPaths oldFiles newFiles (ps ++ paths)) := by
  obtain ⟨before, _, hbefore, hall⟩ := hs
  obtain ⟨emitted, hpre, htext, hrest⟩ :=
    emitPass_spec (generateFileDiff oldFiles newFiles) sizeLimit firstFile paths huntruncated
  rw [filter_changed] at hpre hrest
  have heq := hall huntruncated
  refine ⟨before ++ emitted, ?_, ?_, ?_⟩
  · rw [changedPaths_append, heq]
    exact (List.prefix_append_right_inj _).mpr hpre
  · rw [htext, hbefore, List.flatMap_append]
  · intro hdone
    rw [changedPaths_append, heq, hrest hdone]

/-- A truncated state holds a prefix of any longer list of paths. -/
theorem Emitted.of_truncated {gen : GoString → FileDiff} {s : DiffState}
    {ps qs : List GoString} (hs : Emitted gen s ps) (htruncated : s.truncated = true)
    (hpre : ps <+: qs) : Emitted gen s qs := by
  obtain ⟨emitted, hemitted, htext, _⟩ := hs
  exact ⟨emitted, hemitted.trans hpre, htext, by simp [htruncated]⟩

/-- The first two passes write the changed files of their tiers. -/
theorem emitted_codePasses (oldFiles newFiles : FileMap) (ecosystem : GoString)
    (sizeLimit : Int) :
    Emitted (generateFileDiff oldFiles newFiles)
      (codePasses oldFiles newFiles ecosystem sizeLimit)
      (changedPaths oldFiles newFiles
        (partitionPaths (allPaths oldFiles newFiles) ecosystem .tier1 ++
          partitionPaths (allPaths oldFiles newFiles) ecosystem .tier2)) := by
  have hstart : Emitted (generateFileDiff oldFiles newFiles) .start
      (changedPaths oldFiles newFiles []) := ⟨[], by simp, rfl, fun _ => rfl⟩
  have hfirst := hstart.emitPass rfl sizeLimit true
    (partitionPaths (allPaths oldFiles newFiles) ecosystem .tier1)
  rw [List.nil_append] at hfirst
  simp only [codePasses]
  split_ifs with htruncated
  · refine hfirst.of_truncated htruncated ?_
    rw [changedPaths_append]
    exact List.prefix_append _ _
  · exact hfirst.emitPass (by simpa using htruncated) sizeLimit _ _

/-- All passes together write the changed files of the shown tiers. -/
theorem emitted_allPasses (oldFiles newFiles : FileMap) (ecosystem : GoString)
    (sizeLimit : Int) :
    Emitted (generateFileDiff oldFiles newFiles)
      (allPasses oldFiles newFiles ecosystem sizeLimit)
      (changedPaths oldFiles newFiles
        (shownPaths oldFiles newFiles ecosystem sizeLimit)) := by
  have hcode := emitted_codePasses oldFiles newFiles ecosystem sizeLimit
  simp only [allPasses, shownPaths]
  split_ifs with hdocs
  · refine hcode.emitPass ?_ sizeLimit _ _
    simp only [docsShown, Bool.and_eq_true, Bool.not_eq_true'] at hdocs
    exact hdocs.1
  · rw [List.append_nil]
    exact hcode

/-- The text is the blocks of the emitted paths, followed by the notice exactly when
the result is marked truncated.  An untruncated result emits every shown path whose
contents differ. -/
theorem generateDiffFiles_text (oldFiles newFiles : FileMap) (ecosystem : GoString)
    (sizeLimit : Int) :
    ∃ emitted,
      emitted <+: changedPaths oldFiles newFiles
        (shownPaths oldFiles newFiles ecosystem sizeLimit) ∧
      (generateDiffFiles oldFiles newFiles ecosystem sizeLimit).text =
        emitted.flatMap (fun p => (generateFileDiff oldFiles newFiles p).text) ++
          (if (generateDiffFiles oldFiles newFiles ecosystem sizeLimit).truncated then
            truncationNotice else []) ∧
      ((generateDiffFiles oldFiles newFiles ecosystem sizeLimit).truncated = false →
        emitted = changedPaths oldFiles newFiles
          (shownPaths oldFiles newFiles ecosystem sizeLimit)) := by
  obtain ⟨emitted, hpre, htext, hall⟩ :=
    emitted_allPasses oldFiles newFiles ecosystem sizeLimit
  refine ⟨emitted, hpre, ?_⟩
  simp only [generateDiffFiles]
  split_ifs with htruncated
  · simp [htext, htruncated]
  · simpa [htext, htruncated] using hall

end Differ
end Veilence

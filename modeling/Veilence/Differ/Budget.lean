import Veilence.Differ.Enumeration
import Veilence.Differ.RoundTrip

/-!
# Budget, order and statistics of a diff

The three passes of {lit}`generateDiff` share one text, one record of statistics and
the truncation flag.  {lit}`Written` says that the record counts exactly the blocks in
the text, and each pass keeps it.

Main results:

- Theorem {lit}`Written.emitPass`: what a pass adds, and the two ways in which the
  size limit comes out.
- Theorem {lit}`generateDiffFiles_budget`: the text is the blocks of changed files in
  the order of the tiers and within the limit, apart from one oversized block, and
  the statistics count these blocks and their lines.
-/

namespace Veilence
namespace Differ

open Go Foundation

/-! ## Blocks and their lines -/

/-- The body lines of a block. -/
def Change.body : Change → List DiffLine
  | .added lines => lines.map fun line => diffLine ⟨.add, line⟩
  | .removed lines => lines.map fun line => diffLine ⟨.del, line⟩
  | .modified hunks => hunks.flatMap (·.lines)

/-- The number of body lines of one kind. -/
def Change.count (kind : OpKind) (change : Change) : Nat :=
  change.body.countP (·.kind = kind)

/-- The text of a block. -/
def Entry.block (e : Entry) : GoString :=
  (entryLines e ++ [[]]).flatMap textLine

theorem count_map_diffLine (kind kind' : OpKind) (lines : List GoString) :
    (lines.map fun line => diffLine ⟨kind, line⟩).countP (·.kind = kind') =
      if kind = kind' then lines.length else 0 := by
  rw [List.countP_map]
  split_ifs with h
  · exact List.countP_eq_length.mpr (by simp [diffLine, h])
  · exact List.countP_eq_zero.mpr (by simp [diffLine, h])

/-- The counters of a changed file count the lines of its block. -/
theorem generateFileDiff_counts {oldFiles newFiles : FileMap} {path : GoString}
    (hne : oldFiles.content path ≠ newFiles.content path) :
    (generateFileDiff oldFiles newFiles path).added =
        (entryOf oldFiles newFiles path).change.count .add ∧
      (generateFileDiff oldFiles newFiles path).removed =
        (entryOf oldFiles newFiles path).change.count .del := by
  have hlines : ∀ content, 0 < (split '\n' content).length :=
    fun content => List.length_pos_iff.mpr (split_ne_nil '\n' content)
  simp only [generateFileDiff, if_neg hne, entryOf, changeOf]
  split_ifs with hold hnew
  · rw [closeFileDiff_of_pos (Or.inl (hlines _))]
    simp only [Change.count, Change.body, count_map_diffLine]
    simp
  · rw [closeFileDiff_of_pos (Or.inr (hlines _))]
    simp only [Change.count, Change.body, count_map_diffLine]
    simp
  · have hsplit : split '\n' (oldFiles.content path) ≠ split '\n' (newFiles.content path) :=
      fun heq => hne (split_injective '\n' heq)
    rw [closeFileDiff_of_pos (countKind_pos hsplit 3)]
    simp only [Change.count, Change.body, countKind, and_self]

/-! ## What the passes write -/

/-- `Written gen s ps`: the state holds the blocks of `ps`, and its statistics count
them. -/
structure Written (gen : GoString → FileDiff) (s : DiffState) (ps : List GoString) : Prop where
  text : s.text = ps.flatMap fun p => (gen p).text
  filesChanged : s.filesChanged = (ps.map fun p => (gen p).changed).sum
  linesAdded : s.linesAdded = (ps.map fun p => (gen p).added).sum
  linesRemoved : s.linesRemoved = (ps.map fun p => (gen p).removed).sum

theorem Written.write {gen : GoString → FileDiff} {s : DiffState} {ps : List GoString}
    (hs : Written gen s ps) (p : GoString) : Written gen (s.write (gen p)) (ps ++ [p]) where
  text := by simp [DiffState.write, hs.text]
  filesChanged := by simp [DiffState.write, hs.filesChanged]
  linesAdded := by simp [DiffState.write, hs.linesAdded]
  linesRemoved := by simp [DiffState.write, hs.linesRemoved]

/-- The truncation flag is not counted. -/
theorem Written.truncate {gen : GoString → FileDiff} {s : DiffState} {ps : List GoString}
    (hs : Written gen s ps) : Written gen { s with truncated := true } ps :=
  ⟨hs.text, hs.filesChanged, hs.linesAdded, hs.linesRemoved⟩

/-- A pass adds changed files in their order.  The text stays within the limit, or the
pass has let one oversized first file through and truncated. -/
theorem Written.emitPass {gen : GoString → FileDiff} {sizeLimit : Int} {s : DiffState}
    {ps : List GoString} (hs : Written gen s ps) (hsize : s.text.length ≤ sizeLimit)
    (firstFile : Bool) (paths : List GoString) :
    ∃ emitted, emitted.Sublist (paths.filter fun p => (gen p).changed ≠ 0) ∧
      Written gen (emitPass gen sizeLimit firstFile paths s) (ps ++ emitted) ∧
      ((emitPass gen sizeLimit firstFile paths s).text.length ≤ sizeLimit ∨
        firstFile = true ∧ (emitPass gen sizeLimit firstFile paths s).truncated = true ∧
          ∃ p, emitted = [p]) := by
  induction paths generalizing firstFile s ps with
  | nil => exact ⟨[], List.Sublist.refl _, by simpa [Differ.emitPass] using hs, Or.inl hsize⟩
  | cons path paths ih =>
      rw [Differ.emitPass]
      split_ifs with hsame hlarge hfirst
      · -- Unchanged files are passed over.
        simpa [hsame] using ih hs hsize firstFile
      · -- The oversized first file.
        refine ⟨[path], ?_, (hs.write path).truncate, Or.inr ⟨hfirst, rfl, path, rfl⟩⟩
        simp [hsame]
      · exact ⟨[], List.nil_sublist _, by simpa using hs.truncate, Or.inl hsize⟩
      · have hsize' : (s.write (gen path)).text.length ≤ sizeLimit := by
          simp only [DiffState.write, List.length_append, Nat.cast_add]
          omega
        obtain ⟨emitted, hsub, hwritten, hlimit⟩ := ih (hs.write path) hsize' false
        refine ⟨path :: emitted, ?_, by simpa using hwritten, Or.inl ?_⟩
        · simpa [hsame] using hsub
        · rcases hlimit with hlimit | ⟨hfalse, -⟩
          · exact hlimit
          · exact absurd hfalse Bool.false_ne_true

/-- `InTier files tier ps`: changed files of one tier in ascending order. -/
structure InTier (oldFiles newFiles : FileMap) (ecosystem : GoString) (tier : Tier)
    (ps : List GoString) : Prop where
  ascending : ps.Pairwise (· < ·)
  tier : ∀ p ∈ ps, classifyFile p ecosystem = tier
  changed : ∀ p ∈ ps, oldFiles.content p ≠ newFiles.content p

theorem InTier.nil {oldFiles newFiles : FileMap} {ecosystem : GoString} {tier : Tier} :
    InTier oldFiles newFiles ecosystem tier [] :=
  ⟨List.Pairwise.nil, by simp, by simp⟩

/-- The changed files of a slice, or some of them. -/
theorem inTier_of_sublist {oldFiles newFiles : FileMap} {ecosystem : GoString} {tier : Tier}
    {ps : List GoString}
    (hsub : ps.Sublist ((partitionPaths (allPaths oldFiles newFiles) ecosystem tier).filter
      fun p => (generateFileDiff oldFiles newFiles p).changed ≠ 0)) :
    InTier oldFiles newFiles ecosystem tier ps := by
  rw [filter_changed] at hsub
  refine ⟨?_, ?_, ?_⟩
  · exact (pairwise_lt_partitionPaths (nodup_allPaths oldFiles newFiles) ecosystem tier).sublist
      (hsub.trans List.filter_sublist)
  · intro p hp
    exact (mem_partitionPaths.mp (mem_changedPaths.mp (hsub.subset hp)).1).2
  · intro p hp
    exact (mem_changedPaths.mp (hsub.subset hp)).2

/-- The blocks of the three tiers, and the size of the text. -/
structure Budgeted (oldFiles newFiles : FileMap) (ecosystem : GoString) (sizeLimit : Int)
    (s : DiffState) (code ci docs : List GoString) : Prop where
  written : Written (generateFileDiff oldFiles newFiles) s (code ++ ci ++ docs)
  inCode : InTier oldFiles newFiles ecosystem .tier1 code
  inCi : InTier oldFiles newFiles ecosystem .tier2 ci
  inDocs : InTier oldFiles newFiles ecosystem .tier3 docs
  limit : s.text.length ≤ sizeLimit ∨
    s.truncated = true ∧ ∃ p, code = [p] ∧ ci = [] ∧ docs = []

/-- The first two passes. -/
theorem budgeted_codePasses (oldFiles newFiles : FileMap) (ecosystem : GoString)
    {sizeLimit : Int} (hlimit : 0 ≤ sizeLimit) :
    ∃ code ci, Budgeted oldFiles newFiles ecosystem sizeLimit
      (codePasses oldFiles newFiles ecosystem sizeLimit) code ci [] := by
  have hstart : Written (generateFileDiff oldFiles newFiles) .start [] := ⟨rfl, rfl, rfl, rfl⟩
  have hbound : (DiffState.start.text.length : Int) ≤ sizeLimit := by
    simpa [DiffState.start] using hlimit
  obtain ⟨code, hcode, hwritten, hsize⟩ := hstart.emitPass hbound true
    (partitionPaths (allPaths oldFiles newFiles) ecosystem .tier1)
  rw [List.nil_append] at hwritten
  simp only [codePasses]
  split_ifs with htruncated
  · refine ⟨code, [], by simpa using hwritten, inTier_of_sublist hcode, InTier.nil, InTier.nil, ?_⟩
    rcases hsize with hsize | ⟨-, -, p, hp⟩
    · exact Or.inl hsize
    · exact Or.inr ⟨htruncated, p, hp, rfl, rfl⟩
  · have hsize' := hsize.resolve_right fun h => htruncated h.2.1
    obtain ⟨ci, hci, hwritten', hsize''⟩ := hwritten.emitPass hsize' false
      (partitionPaths (allPaths oldFiles newFiles) ecosystem .tier2)
    refine ⟨code, ci, by simpa using hwritten', inTier_of_sublist hcode, inTier_of_sublist hci,
      InTier.nil, Or.inl ?_⟩
    exact hsize''.resolve_right fun h => Bool.false_ne_true h.1

/-- All passes. -/
theorem budgeted_allPasses (oldFiles newFiles : FileMap) (ecosystem : GoString)
    {sizeLimit : Int} (hlimit : 0 ≤ sizeLimit) :
    ∃ code ci docs, Budgeted oldFiles newFiles ecosystem sizeLimit
      (allPasses oldFiles newFiles ecosystem sizeLimit) code ci docs := by
  obtain ⟨code, ci, h⟩ := budgeted_codePasses oldFiles newFiles ecosystem hlimit
  simp only [allPasses]
  split_ifs with hdocs
  · simp only [docsShown, Bool.and_eq_true, Bool.not_eq_true'] at hdocs
    have hsize := h.limit.resolve_right fun h => by simp [hdocs.1] at h
    have hwritten := h.written
    rw [List.append_nil] at hwritten
    obtain ⟨docs, hsub, hwritten', hsize'⟩ := hwritten.emitPass hsize false
      (partitionPaths (allPaths oldFiles newFiles) ecosystem .tier3)
    exact ⟨code, ci, docs, hwritten', h.inCode, h.inCi, inTier_of_sublist hsub,
      Or.inl (hsize'.resolve_right fun h => Bool.false_ne_true h.1)⟩
  · exact ⟨code, ci, [], h⟩

/-- Without the notice, the text of a diff is the blocks of changed files, Tier 1
before Tier 2 before Tier 3 and each tier in ascending order.  It is within the size
limit, or it is one oversized block of Tier 1 and marked truncated.  The statistics
count the blocks and their added and removed lines. -/
theorem generateDiffFiles_budget (oldFiles newFiles : FileMap) (ecosystem : GoString)
    (sizeLimit : Int) (hlimit : 0 < sizeLimit) :
    ∃ code ci docs : List GoString, ∃ text : GoString,
      (generateDiffFiles oldFiles newFiles ecosystem sizeLimit).text =
        text ++ (if (generateDiffFiles oldFiles newFiles ecosystem sizeLimit).truncated then
          truncationNotice else []) ∧
      text = ((code ++ ci ++ docs).map (entryOf oldFiles newFiles)).flatMap Entry.block ∧
      InTier oldFiles newFiles ecosystem .tier1 code ∧
      InTier oldFiles newFiles ecosystem .tier2 ci ∧
      InTier oldFiles newFiles ecosystem .tier3 docs ∧
      ((text.length : Int) ≤ sizeLimit ∨
        (generateDiffFiles oldFiles newFiles ecosystem sizeLimit).truncated = true ∧
          ∃ p, code = [p] ∧ ci = [] ∧ docs = []) ∧
      (generateDiffFiles oldFiles newFiles ecosystem sizeLimit).filesChanged =
        (code ++ ci ++ docs).length ∧
      (generateDiffFiles oldFiles newFiles ecosystem sizeLimit).linesAdded =
        ((code ++ ci ++ docs).map fun p =>
          (entryOf oldFiles newFiles p).change.count .add).sum ∧
      (generateDiffFiles oldFiles newFiles ecosystem sizeLimit).linesRemoved =
        ((code ++ ci ++ docs).map fun p =>
          (entryOf oldFiles newFiles p).change.count .del).sum := by
  obtain ⟨code, ci, docs, h⟩ := budgeted_allPasses oldFiles newFiles ecosystem hlimit.le
  have hchanged : ∀ p ∈ code ++ ci ++ docs, oldFiles.content p ≠ newFiles.content p := by
    intro p hp
    rcases List.mem_append.mp hp with hp | hp
    · rcases List.mem_append.mp hp with hp | hp
      · exact h.inCode.changed p hp
      · exact h.inCi.changed p hp
    · exact h.inDocs.changed p hp
  -- The notice changes the text only.
  have hdiff : ∀ s : DiffState, (if s.truncated then { s with text := s.text ++ truncationNotice }
      else s) = { s with text := s.text ++ if s.truncated then truncationNotice else [] } := by
    intro s
    split_ifs with htruncated
    · rfl
    · rw [List.append_nil]
  simp only [generateDiffFiles, hdiff]
  refine ⟨code, ci, docs, _, rfl, ?_, h.inCode, h.inCi, h.inDocs, h.limit, ?_, ?_, ?_⟩
  · rw [h.written.text, List.flatMap_map]
    exact List.flatMap_congr fun p hp => generateFileDiff_text (hchanged p hp)
  · have hone : (code ++ ci ++ docs).map
        (fun p => (generateFileDiff oldFiles newFiles p).changed) =
          (code ++ ci ++ docs).map fun _ => 1 :=
      List.map_congr_left fun p hp => generateFileDiff_of_ne (hchanged p hp)
    rw [h.written.filesChanged, hone]
    simp
  · rw [h.written.linesAdded]
    exact congrArg List.sum
      (List.map_congr_left fun p hp => (generateFileDiff_counts (hchanged p hp)).1)
  · rw [h.written.linesRemoved]
    exact congrArg List.sum
      (List.map_congr_left fun p hp => (generateFileDiff_counts (hchanged p hp)).2)

/-- One added file under a limit of a thousand bytes. -/
theorem generateDiffFiles_budget_added : ∃ text : GoString,
    (generateDiffFiles Table.empty (Table.single "a.js".toList "1".toList) "npm".toList
        1000).text =
      text ++ (if (generateDiffFiles Table.empty (Table.single "a.js".toList "1".toList)
        "npm".toList 1000).truncated then truncationNotice else []) ∧
      ((text.length : Int) ≤ 1000 ∨
        (generateDiffFiles Table.empty (Table.single "a.js".toList "1".toList) "npm".toList
          1000).truncated = true) := by
  obtain ⟨code, ci, docs, text, htext, -, -, -, -, hlimit, -⟩ :=
    generateDiffFiles_budget Table.empty (Table.single "a.js".toList "1".toList) "npm".toList
      1000 (by decide)
  exact ⟨text, htext, hlimit.imp id And.left⟩

end Differ
end Veilence

import Veilence.Differ.Grammar

/-!
# Reading back a generated diff

The text of {lit}`generateDiff` is the text of the entries of its emitted paths, so
the reader of the block grammar gives them back.  The contents cannot disturb it:
every content line carries a prefix byte.  The path names are written as they are,
so a name with a newline can.

Main results:

- Theorem {lit}`generateFileDiff_text`: the text of a changed file is the block of
  its entry.
- Theorem {lit}`apply_changeOf`: the entry of a changed path turns its old content
  into its new content.
- Theorem {lit}`generateDiffFiles_parse`: over path names without a newline, reading
  the text gives exactly the emitted entries and the truncation flag.
- Theorem {lit}`no_reader_of_newline_names`: over all path names no reader can.
-/

namespace Veilence
namespace Differ

open Go Foundation

/-! ## The text of a changed file -/

/-- The truncation notice is its two lines. -/
theorem truncationNotice_eq : truncationNotice = [[], noticeLine].flatMap textLine := by
  simp [truncationNotice]

/-- The text of hunks is the text of their lines. -/
theorem flatMap_hunkText (hunks : List Hunk) :
    hunks.flatMap hunkText = (hunks.flatMap hunkLines).flatMap textLine := by
  rw [List.flatMap_assoc]
  refine List.flatMap_congr fun h _ => ?_
  rw [hunkText, hunkLines, List.flatMap_cons, List.flatMap_map]

/-- The text of a modified file, closed, is the text of its block. -/
theorem flatMap_entryLines_modified (path : GoString) (hunks : List Hunk) :
    (entryLines ⟨path, .modified hunks⟩ ++ [[]]).flatMap textLine =
      textLine ("--- a/".toList ++ path) ++ textLine ("+++ b/".toList ++ path) ++
        hunks.flatMap hunkText ++ ['\n'] := by
  have hblank : textLine [] = ['\n'] := rfl
  simp only [entryLines, hblank, flatMap_hunkText, List.flatMap_append, List.flatMap_cons,
    List.flatMap_nil, List.cons_append, List.append_nil, List.append_assoc]

/-- The text of a changed file is the block of its entry. -/
theorem generateFileDiff_text {oldFiles newFiles : FileMap} {path : GoString}
    (hne : oldFiles.content path ≠ newFiles.content path) :
    (generateFileDiff oldFiles newFiles path).text =
      (entryLines (entryOf oldFiles newFiles path) ++ [[]]).flatMap textLine := by
  have hlines : ∀ content, 0 < (split '\n' content).length :=
    fun content => List.length_pos_iff.mpr (split_ne_nil '\n' content)
  have hblank : textLine [] = ['\n'] := rfl
  simp only [generateFileDiff, if_neg hne, entryOf, changeOf]
  split_ifs with hold hnew
  · rw [closeFileDiff_of_pos (Or.inl (hlines _))]
    simp only [entryLines, hblank, List.flatMap_append, List.flatMap_cons, List.flatMap_nil,
      List.flatMap_map, List.cons_append, List.append_nil, List.append_assoc]
  · rw [closeFileDiff_of_pos (Or.inr (hlines _))]
    simp only [entryLines, hblank, List.flatMap_append, List.flatMap_cons, List.flatMap_nil,
      List.flatMap_map, List.cons_append, List.append_nil, List.append_assoc]
  · have hsplit : split '\n' (oldFiles.content path) ≠ split '\n' (newFiles.content path) :=
      fun heq => hne (split_injective '\n' heq)
    rw [closeFileDiff_of_pos (countKind_pos hsplit 3), flatMap_entryLines_modified]

/-- The text of several changed files is the text of the lines of their entries. -/
theorem flatMap_generateFileDiff_text {oldFiles newFiles : FileMap} {paths : List GoString}
    (hne : ∀ p ∈ paths, oldFiles.content p ≠ newFiles.content p) (truncated : Bool) :
    paths.flatMap (fun p => (generateFileDiff oldFiles newFiles p).text) ++
        (if truncated then truncationNotice else []) =
      (diffLines (paths.map (entryOf oldFiles newFiles)) truncated).flatMap textLine := by
  have hblocks : paths.flatMap (fun p => (generateFileDiff oldFiles newFiles p).text) =
      paths.flatMap fun p =>
        (entryLines (entryOf oldFiles newFiles p) ++ [[]]).flatMap textLine :=
    List.flatMap_congr fun p hp => generateFileDiff_text (hne p hp)
  rw [hblocks, diffLines, List.flatMap_append, List.flatMap_map, List.flatMap_assoc,
    truncationNotice_eq]
  cases truncated <;> rfl

/-! ## The entry of a changed path -/

/-- The body lines of a hunk count its operations on both sides. -/
theorem oldTotal_map_diffLine (body : List EditOp) :
    oldTotal (body.map diffLine) = (oldSide body).length := by
  induction body with
  | nil => rfl
  | cons op body ih =>
      obtain ⟨kind, line⟩ := op
      cases kind <;> simp [oldSide, ih, diffLine, OpKind.oldSize, Nat.add_comm]

theorem newTotal_map_diffLine (body : List EditOp) :
    newTotal (body.map diffLine) = (newSide body).length := by
  induction body with
  | nil => rfl
  | cons op body ih =>
      obtain ⟨kind, line⟩ := op
      cases kind <;> simp [newSide, ih, diffLine, OpKind.newSize, Nat.add_comm]

/-- The hunks of a unified diff can be read back. -/
theorem readable_computeUnifiedHunks {oldLines newLines : List GoString}
    {contextLines : Nat} :
    ∀ h ∈ computeUnifiedHunks oldLines newLines contextLines, h.Readable := by
  intro h hh
  obtain ⟨chunks, _, _, hhunks, _⟩ := exists_alignment oldLines newLines contextLines
  rw [hhunks] at hh
  obtain ⟨_, _, c, _, rfl⟩ := exists_of_mem_hunksAt hh
  exact ⟨(oldTotal_map_diffLine c.body).symm, (newTotal_map_diffLine c.body).symm,
    prefixed_hunkAt⟩

/-- The hunks of an entry can be read back. -/
theorem readable_entryOf (oldFiles newFiles : FileMap) (path : GoString) :
    (entryOf oldFiles newFiles path).Readable := by
  intro hunks hchange
  simp only [entryOf, changeOf] at hchange
  split_ifs at hchange with hold hnew
  obtain rfl := Change.modified.inj hchange
  exact readable_computeUnifiedHunks

/-- The entry of a changed path turns its old content into its new content. -/
theorem apply_changeOf {oldFiles newFiles : FileMap} {path : GoString}
    (hne : oldFiles.content path ≠ newFiles.content path) :
    (changeOf oldFiles newFiles path).apply (oldFiles.get? path) = newFiles.get? path := by
  have hget : ∀ files : FileMap, files.get? path ≠ none →
      files.get? path = some (files.content path) := by
    intro files hsome
    obtain ⟨content, hcontent⟩ := Option.ne_none_iff_exists'.mp hsome
    simp [FileMap.content, hcontent]
  simp only [changeOf]
  split_ifs with hold hnew
  · have hnew : newFiles.get? path ≠ none := by
      intro hnone
      exact hne (by simp [FileMap.content, hold, hnone])
    rw [hget newFiles hnew, Change.apply, join_split]
  · rw [hnew, Change.apply]
  · rw [hget newFiles hnew, hget oldFiles hold, Change.apply, Option.map_some,
      splice_oldEdits, join_split]

/-! ## Lines without newlines -/

/-- A written number holds no newline. -/
theorem newline_notMem_itoa (n : Nat) : '\n' ∉ itoa n :=
  fun hmem => absurd (isDigit_of_mem_itoa hmem) (by decide)

/-- A hunk header holds no newline. -/
theorem newline_notMem_hunkHeader (h : Hunk) : '\n' ∉ hunkHeader h := by
  simp [hunkHeader, newline_notMem_itoa]

/-- The lines of a hunk between two split texts hold no newline. -/
theorem newline_notMem_hunkLines {oldContent newContent : GoString} {contextLines : Nat}
    {h : Hunk}
    (hh : h ∈ computeUnifiedHunks (split '\n' oldContent) (split '\n' newContent) contextLines) :
    ∀ l ∈ hunkLines h, '\n' ∉ l := by
  obtain ⟨chunks, tail, hops, _, _, hhunks⟩ :=
    exists_chunks (split '\n' oldContent) (split '\n' newContent) contextLines
  rw [hhunks] at hh
  obtain ⟨_, _, c, hc, rfl⟩ := exists_of_mem_hunksAt hh
  intro l hl
  rcases List.mem_cons.mp hl with rfl | hl
  · exact newline_notMem_hunkHeader _
  · obtain ⟨line, hline, rfl⟩ := List.mem_map.mp hl
    obtain ⟨op, hop, rfl⟩ := List.mem_map.mp hline
    have hscript : op ∈ computeEditScript (split '\n' oldContent) (split '\n' newContent) := by
      rw [hops]
      exact List.mem_append_left _
        (List.mem_flatMap.mpr ⟨c, hc, List.mem_append_right _ hop⟩)
    have hline : '\n' ∉ op.line := by
      rcases line_mem_of_mem_computeEditScript hscript with hmem | hmem
      · exact notMem_of_mem_split hmem
      · exact notMem_of_mem_split hmem
    cases hkind : op.kind <;> simp [diffLine, hkind, prefixOf, hline]

/-- Split content behind a mark holds no newline. -/
theorem newline_notMem_marked {mark : Char} (hmark : mark ≠ '\n') (content : GoString) :
    ∀ l ∈ (split '\n' content).map (mark :: ·), '\n' ∉ l := by
  intro l hl
  obtain ⟨line, hline, rfl⟩ := List.mem_map.mp hl
  simp [hmark.symm, notMem_of_mem_split hline]

/-- The lines of an entry hold no newline when its path holds none. -/
theorem newline_notMem_entryLines (oldFiles newFiles : FileMap) {path : GoString}
    (hpath : '\n' ∉ path) :
    ∀ l ∈ entryLines (entryOf oldFiles newFiles path), '\n' ∉ l := by
  have hfrom : '\n' ∉ "--- a/".toList ++ path := by simp [hpath]
  have hto : '\n' ∉ "+++ b/".toList ++ path := by simp [hpath]
  have hnone : '\n' ∉ "--- /dev/null".toList ∧ '\n' ∉ "+++ /dev/null".toList := by decide
  intro l hl
  simp only [entryOf, changeOf] at hl
  split_ifs at hl with hold hnew
  · rcases List.mem_cons.mp hl with rfl | hl
    · exact hnone.1
    rcases List.mem_cons.mp hl with rfl | hl
    · exact hto
    exact newline_notMem_marked (by decide) _ l hl
  · rcases List.mem_cons.mp hl with rfl | hl
    · exact hfrom
    rcases List.mem_cons.mp hl with rfl | hl
    · exact hnone.2
    exact newline_notMem_marked (by decide) _ l hl
  · rcases List.mem_cons.mp hl with rfl | hl
    · exact hfrom
    rcases List.mem_cons.mp hl with rfl | hl
    · exact hto
    obtain ⟨h, hh, hl⟩ := List.mem_flatMap.mp hl
    exact newline_notMem_hunkLines hh l hl

/-- The lines of a diff hold no newline when the paths hold none. -/
theorem newline_notMem_diffLines (oldFiles newFiles : FileMap) {paths : List GoString}
    (hpaths : ∀ p ∈ paths, '\n' ∉ p) (truncated : Bool) :
    ∀ l ∈ diffLines (paths.map (entryOf oldFiles newFiles)) truncated, '\n' ∉ l := by
  have hnotice : '\n' ∉ noticeLine := by decide
  intro l hl
  rcases List.mem_append.mp hl with hl | hl
  · rw [List.flatMap_map] at hl
    obtain ⟨p, hp, hl⟩ := List.mem_flatMap.mp hl
    rcases List.mem_append.mp hl with hl | hl
    · exact newline_notMem_entryLines oldFiles newFiles (hpaths p hp) l hl
    · rw [List.mem_singleton.mp hl]
      simp
  · cases truncated with
    | false => simp at hl
    | true =>
        rcases List.mem_cons.mp hl with rfl | hl
        · simp
        · rw [List.mem_singleton.mp hl]
          exact hnotice

/-! ## Reading back a generated diff -/

/-- Over path names without a newline, reading the text of a diff gives exactly the
entries of its emitted paths and its truncation flag, and every entry turns the old
content of its path into the new one. -/
theorem generateDiffFiles_parse (oldFiles newFiles : FileMap) (ecosystem : GoString)
    (sizeLimit : Int) (hpaths : ∀ p ∈ allPaths oldFiles newFiles, '\n' ∉ p) :
    ∃ emitted,
      emitted <+: changedPaths oldFiles newFiles
        (shownPaths oldFiles newFiles ecosystem sizeLimit) ∧
      ((generateDiffFiles oldFiles newFiles ecosystem sizeLimit).truncated = false →
        emitted = changedPaths oldFiles newFiles
          (shownPaths oldFiles newFiles ecosystem sizeLimit)) ∧
      parseDiff (generateDiffFiles oldFiles newFiles ecosystem sizeLimit).text =
        some (emitted.map (entryOf oldFiles newFiles),
          (generateDiffFiles oldFiles newFiles ecosystem sizeLimit).truncated) ∧
      ∀ p ∈ emitted, (entryOf oldFiles newFiles p).change.apply (oldFiles.get? p) =
        newFiles.get? p := by
  obtain ⟨emitted, hpre, htext, hall⟩ :=
    generateDiffFiles_text oldFiles newFiles ecosystem sizeLimit
  have hchanged : ∀ p ∈ emitted,
      oldFiles.content p ≠ newFiles.content p ∧ p ∈ allPaths oldFiles newFiles := by
    intro p hp
    have hne := (mem_changedPaths.mp (hpre.subset hp)).2
    exact ⟨hne, mem_allPaths_of_content_ne hne⟩
  refine ⟨emitted, hpre, hall, ?_, fun p hp => apply_changeOf (hchanged p hp).1⟩
  rw [htext, flatMap_generateFileDiff_text fun p hp => (hchanged p hp).1]
  refine parseDiff_flatMap (newline_notMem_diffLines _ _ ?_ _) ?_
  · exact fun p hp => hpaths p (hchanged p hp).2
  · intro e he
    obtain ⟨p, _, rfl⟩ := List.mem_map.mp he
    exact readable_entryOf oldFiles newFiles p

/-- One new code file is shown by the first pass. -/
theorem partitionPaths_single {p content ecosystem : GoString}
    (htier : classifyFile p ecosystem = .tier1) (tier : Tier) :
    partitionPaths (allPaths .empty (.single p content)) ecosystem tier =
      if tier = .tier1 then [p] else [] := by
  have hpaths : allPaths .empty (.single p content) = [p] := rfl
  rw [partitionPaths, hpaths, List.filter_singleton, htier]
  cases tier with
  | tier1 => rfl
  | tier2 => rfl
  | tier3 => rfl
  | tier4 => rfl

/-- The diff of one new code file is what the first pass writes. -/
theorem generateDiffFiles_single (content : GoString) {p ecosystem : GoString} {sizeLimit : Int}
    (htier : classifyFile p ecosystem = .tier1)
    (hfits : (emitPass (generateFileDiff .empty (.single p content)) sizeLimit true [p]
      .start).truncated = false) :
    generateDiffFiles .empty (.single p content) ecosystem sizeLimit =
      emitPass (generateFileDiff .empty (.single p content)) sizeLimit true [p] .start := by
  have hnil : ∀ s, emitPass (generateFileDiff .empty (.single p content)) sizeLimit false [] s = s :=
    fun _ => rfl
  have hcode : codePasses .empty (.single p content) ecosystem sizeLimit =
      emitPass (generateFileDiff .empty (.single p content)) sizeLimit true [p] .start := by
    simp only [codePasses, partitionPaths_single htier, if_true, reduceCtorEq, if_false, hnil,
      ite_self]
  have hall : allPasses .empty (.single p content) ecosystem sizeLimit =
      emitPass (generateFileDiff .empty (.single p content)) sizeLimit true [p] .start := by
    simp only [allPasses, hcode, partitionPaths_single htier, reduceCtorEq, if_false, hnil,
      ite_self]
  rw [generateDiffFiles, hall]
  simp only [hfits, Bool.false_eq_true, if_false]

/-- So its path is the only one that is shown. -/
theorem shownPaths_single {p content ecosystem : GoString} {sizeLimit : Int}
    (htier : classifyFile p ecosystem = .tier1) :
    shownPaths .empty (.single p content) ecosystem sizeLimit = [p] := by
  simp only [shownPaths, partitionPaths_single htier, if_true, reduceCtorEq, if_false, ite_self,
    List.append_nil]

/-- Three names of code files. -/
theorem tier1_of_mem : ∀ p ∈ ["a".toList, "x".toList, "x\n+foo".toList],
    classifyFile p [] = .tier1 := by
  decide +kernel

/-- The round trip at an added file with two lines. -/
theorem generateDiffFiles_parse_added :
    parseDiff (generateDiffFiles .empty (.single "a".toList "x\ny".toList) [] 1000).text =
      some ([⟨"a".toList, .added ["x".toList, "y".toList]⟩], false) := by
  have htier : classifyFile "a".toList [] = .tier1 := tier1_of_mem _ (by simp)
  obtain ⟨emitted, _, hall, hparse, _⟩ :=
    generateDiffFiles_parse .empty (.single "a".toList "x\ny".toList) [] 1000
      (by decide +kernel)
  have hfits : (emitPass (generateFileDiff .empty (.single "a".toList "x\ny".toList)) 1000 true
      ["a".toList] .start).truncated = false := by
    decide +kernel
  have huntruncated :
      (generateDiffFiles .empty (.single "a".toList "x\ny".toList) [] 1000).truncated = false := by
    rw [generateDiffFiles_single _ htier hfits, hfits]
  rw [hparse, hall huntruncated, huntruncated, shownPaths_single htier]
  decide +kernel

/-- No reader can tell all diffs apart: a name with a newline reads as the name and
first line of another file. -/
theorem no_reader_of_newline_names :
    ¬∃ read : GoString → List Entry, ∀ oldFiles newFiles ecosystem sizeLimit,
      (generateDiffFiles oldFiles newFiles ecosystem sizeLimit).truncated = false →
        read (generateDiffFiles oldFiles newFiles ecosystem sizeLimit).text =
          (changedPaths oldFiles newFiles
            (shownPaths oldFiles newFiles ecosystem sizeLimit)).map
              (entryOf oldFiles newFiles) := by
  rintro ⟨read, hread⟩
  have htierName : classifyFile "x\n+foo".toList [] = .tier1 := tier1_of_mem _ (by simp)
  have htierContent : classifyFile "x".toList [] = .tier1 := tier1_of_mem _ (by simp)
  have hfitsName : (emitPass (generateFileDiff .empty (.single "x\n+foo".toList "c".toList)) 1000
      true ["x\n+foo".toList] .start).truncated = false := by
    decide +kernel
  have hfitsContent : (emitPass (generateFileDiff .empty (.single "x".toList "foo\nc".toList)) 1000
      true ["x".toList] .start).truncated = false := by
    decide +kernel
  have hgenName := generateDiffFiles_single "c".toList htierName hfitsName
  have hgenContent := generateDiffFiles_single "foo\nc".toList htierContent hfitsContent
  have hname := hread .empty (.single "x\n+foo".toList "c".toList) [] 1000
    (by rw [hgenName, hfitsName])
  have hcontent := hread .empty (.single "x".toList "foo\nc".toList) [] 1000
    (by rw [hgenContent, hfitsContent])
  have htext : (generateDiffFiles .empty (.single "x\n+foo".toList "c".toList) [] 1000).text =
      (generateDiffFiles .empty (.single "x".toList "foo\nc".toList) [] 1000).text := by
    rw [hgenName, hgenContent]
    decide +kernel
  rw [htext, hcontent, shownPaths_single htierName, shownPaths_single htierContent] at hname
  exact absurd hname (by decide +kernel)

end Differ
end Veilence

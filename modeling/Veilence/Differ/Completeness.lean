import Veilence.Differ.Render

/-!
# Which changes an untruncated diff shows

A diff that is not marked truncated shows every changed file of the code and CI
tiers.  Documentation is shown only while the text of the first two passes is
below 80% of the size limit, by an explicit gate that does not mark the result as
truncated.  Contents are compared with an absent file read as the empty string,
so adding or removing an empty file is no change here.

Main results:

- Theorem {lit}`generateDiffFiles_empty_iff`: a diff is empty exactly when no change
  is in a shown tier.
- Theorem {lit}`generateDiffFiles_complete`: the changes that an untruncated diff
  shows, and the notice of a truncated one.
- Theorem {lit}`docs_left_out_untruncated`: a changed documentation file that an
  untruncated diff leaves out.
-/

namespace Veilence
namespace Differ

open Go Foundation

/-- The text has a header line that names the path. -/
def NamesPath (text path : GoString) : Prop :=
  textLine ("--- a/".toList ++ path) <:+: text ∨ textLine ("+++ b/".toList ++ path) <:+: text

instance (text path : GoString) : Decidable (NamesPath text path) :=
  inferInstanceAs (Decidable (_ ∨ _))

/-- A text that opens with two header lines names the path of either. -/
theorem namesPath_of_header {first second body path : GoString}
    (hheader : first = textLine ("--- a/".toList ++ path) ∨
      second = textLine ("+++ b/".toList ++ path)) :
    NamesPath (first ++ second ++ body ++ ['\n']) path := by
  have hpre : first ++ second <+: first ++ second ++ body ++ ['\n'] :=
    (List.prefix_append _ body).trans (List.prefix_append _ _)
  rcases hheader with rfl | rfl
  · exact Or.inl ((List.prefix_append _ second).trans hpre).isInfix
  · exact Or.inr ((List.suffix_append first _).isInfix.trans hpre.isInfix)

/-- The block of a changed file names its path. -/
theorem namesPath_generateFileDiff {oldFiles newFiles : FileMap} {path : GoString}
    (hne : oldFiles.content path ≠ newFiles.content path) :
    NamesPath (generateFileDiff oldFiles newFiles path).text path := by
  have hchanged := generateFileDiff_of_ne hne
  simp only [generateFileDiff, if_neg hne] at hchanged ⊢
  split_ifs at hchanged ⊢ with hold hnew
  all_goals
    rw [closeFileDiff] at hchanged ⊢
    split_ifs at hchanged ⊢
  · exact absurd hchanged (by decide)
  · exact namesPath_of_header (Or.inr rfl)
  · exact absurd hchanged (by decide)
  · exact namesPath_of_header (Or.inl rfl)
  · exact absurd hchanged (by decide)
  · exact namesPath_of_header (Or.inl rfl)

/-- A path of a shown tier whose contents differ is among the changed shown paths. -/
theorem mem_changedPaths_shownPaths {oldFiles newFiles : FileMap} {ecosystem : GoString}
    {sizeLimit : Int} {path : GoString}
    (hne : oldFiles.content path ≠ newFiles.content path)
    (htier : classifyFile path ecosystem = .tier1 ∨ classifyFile path ecosystem = .tier2 ∨
      (classifyFile path ecosystem = .tier3 ∧
        docsShown oldFiles newFiles ecosystem sizeLimit = true)) :
    path ∈ changedPaths oldFiles newFiles
      (shownPaths oldFiles newFiles ecosystem sizeLimit) := by
  have hlisted := mem_allPaths_of_content_ne hne
  refine List.mem_filter.mpr ⟨?_, by simpa using hne⟩
  rcases htier with h1 | h2 | ⟨h3, hdocs⟩
  · simp [shownPaths, hlisted, h1]
  · simp [shownPaths, hlisted, h2]
  · simp [shownPaths, hlisted, h3, hdocs]

/-- When the result is not truncated, the documentation pass ran exactly when the
text of the first two passes was below its budget. -/
theorem docsShown_of_untruncated {oldFiles newFiles : FileMap} {ecosystem : GoString}
    {sizeLimit : Int}
    (huntruncated : (generateDiffFiles oldFiles newFiles ecosystem sizeLimit).truncated = false)
    (hbudget : (codePasses oldFiles newFiles ecosystem sizeLimit).text.length <
      docBudget sizeLimit) :
    docsShown oldFiles newFiles ecosystem sizeLimit = true := by
  by_contra hdocs
  have hcode : (codePasses oldFiles newFiles ecosystem sizeLimit).truncated = true := by
    simpa [docsShown, hbudget] using hdocs
  have hall : allPasses oldFiles newFiles ecosystem sizeLimit =
      codePasses oldFiles newFiles ecosystem sizeLimit := by
    simp [allPasses, hdocs]
  simp [generateDiffFiles, hall, hcode] at huntruncated

/-- An untruncated diff has the block of every code and CI file whose content
differs, and of every such documentation file while the first two passes stay
below the documentation budget.  A truncated diff ends with the notice. -/
theorem generateDiffFiles_complete (oldFiles newFiles : FileMap) (ecosystem : GoString)
    (sizeLimit : Int) :
    ((generateDiffFiles oldFiles newFiles ecosystem sizeLimit).truncated = false →
      ∃ emitted : List GoString,
        (generateDiffFiles oldFiles newFiles ecosystem sizeLimit).text =
          emitted.flatMap (fun p => (generateFileDiff oldFiles newFiles p).text) ∧
        ∀ path, oldFiles.content path ≠ newFiles.content path →
          (classifyFile path ecosystem = .tier1 ∨ classifyFile path ecosystem = .tier2 ∨
            (classifyFile path ecosystem = .tier3 ∧
              (codePasses oldFiles newFiles ecosystem sizeLimit).text.length <
                docBudget sizeLimit)) →
          path ∈ emitted ∧ NamesPath (generateFileDiff oldFiles newFiles path).text path) ∧
    ((generateDiffFiles oldFiles newFiles ecosystem sizeLimit).truncated = true →
      truncationNotice <:+ (generateDiffFiles oldFiles newFiles ecosystem sizeLimit).text) := by
  obtain ⟨emitted, _, htext, hall⟩ :=
    generateDiffFiles_text oldFiles newFiles ecosystem sizeLimit
  constructor
  · intro huntruncated
    refine ⟨emitted, by simpa [huntruncated] using htext, ?_⟩
    intro path hne htier
    refine ⟨?_, namesPath_generateFileDiff hne⟩
    rw [hall huntruncated]
    refine mem_changedPaths_shownPaths hne ?_
    rcases htier with h1 | h2 | ⟨h3, hbudget⟩
    · exact Or.inl h1
    · exact Or.inr (Or.inl h2)
    · exact Or.inr (Or.inr ⟨h3, docsShown_of_untruncated huntruncated hbudget⟩)
  · intro htruncated
    rw [htext, if_pos htruncated]
    exact List.suffix_append _ _

/-- One new code file and one new documentation file. -/
def codeAndDocs : FileMap :=
  ⟨[("a".toList, "x".toList), ("b.md".toList, "y".toList)], by decide⟩

/-- Under a limit of 30 bytes the 26 bytes of the code file close the documentation
gate: the new {lit}`b.md` is left out and the result is not marked truncated. -/
theorem docs_left_out_untruncated :
    (generateDiffFiles .empty codeAndDocs "npm".toList 30).truncated = false ∧
      (.empty : FileMap).get? "b.md".toList ≠ codeAndDocs.get? "b.md".toList ∧
      classifyFile "b.md".toList "npm".toList ≠ .tier4 ∧
      ¬ NamesPath (generateDiffFiles .empty codeAndDocs "npm".toList 30).text
        "b.md".toList := by
  decide +kernel

/-! ## Empty diffs -/

/-- Paths whose changes are not shown even in a diff without other content: the left
out tier, and documentation under a limit that leaves it no budget. -/
def Hidden (ecosystem : GoString) (sizeLimit : Int) (path : GoString) : Prop :=
  classifyFile path ecosystem = .tier4 ∨
    (classifyFile path ecosystem = .tier3 ∧ docBudget sizeLimit ≤ 0)

instance (ecosystem : GoString) (sizeLimit : Int) (path : GoString) :
    Decidable (Hidden ecosystem sizeLimit path) :=
  inferInstanceAs (Decidable (_ ∨ _))

/-- The text of the first two passes begins the text of the diff. -/
theorem codePasses_text_prefix (oldFiles newFiles : FileMap) (ecosystem : GoString)
    (sizeLimit : Int) :
    (codePasses oldFiles newFiles ecosystem sizeLimit).text <+:
      (generateDiffFiles oldFiles newFiles ecosystem sizeLimit).text := by
  have hall : (codePasses oldFiles newFiles ecosystem sizeLimit).text <+:
      (allPasses oldFiles newFiles ecosystem sizeLimit).text := by
    simp only [allPasses]
    split_ifs with hdocs
    · simp only [docsShown, Bool.and_eq_true, Bool.not_eq_true'] at hdocs
      obtain ⟨emitted, _, htext, _⟩ :=
        emitPass_spec (generateFileDiff oldFiles newFiles) sizeLimit false
          (partitionPaths (allPaths oldFiles newFiles) ecosystem .tier3) hdocs.1
      rw [htext]
      exact List.prefix_append _ _
    · exact List.prefix_rfl
  simp only [generateDiffFiles]
  split_ifs with htruncated
  · exact hall.trans (List.prefix_append _ _)
  · exact hall

/-- An empty diff emits no path and is not truncated. -/
theorem changedPaths_eq_nil_of_empty {oldFiles newFiles : FileMap} {ecosystem : GoString}
    {sizeLimit : Int}
    (hempty : (generateDiffFiles oldFiles newFiles ecosystem sizeLimit).text = []) :
    (generateDiffFiles oldFiles newFiles ecosystem sizeLimit).truncated = false ∧
      changedPaths oldFiles newFiles
        (shownPaths oldFiles newFiles ecosystem sizeLimit) = [] := by
  obtain ⟨emitted, hpre, htext, hall⟩ :=
    generateDiffFiles_text oldFiles newFiles ecosystem sizeLimit
  obtain ⟨hblocks, hnotice⟩ := List.append_eq_nil_iff.mp (htext.symm.trans hempty)
  have huntruncated :
      (generateDiffFiles oldFiles newFiles ecosystem sizeLimit).truncated = false := by
    by_contra htruncated
    rw [if_pos (by simpa using htruncated)] at hnotice
    simp [truncationNotice, textLine] at hnotice
  refine ⟨huntruncated, ?_⟩
  rw [← hall huntruncated]
  cases emitted with
  | nil => rfl
  | cons p ps =>
      have hne := (mem_changedPaths.mp (hpre.subset (List.mem_cons_self))).2
      rw [List.flatMap_cons, List.append_eq_nil_iff] at hblocks
      exact absurd hblocks.1 (generateFileDiff_text_ne_nil hne)

/-- In an empty diff every changed path is hidden. -/
theorem hidden_of_empty {oldFiles newFiles : FileMap} {ecosystem : GoString}
    {sizeLimit : Int}
    (hempty : (generateDiffFiles oldFiles newFiles ecosystem sizeLimit).text = [])
    {path : GoString} (hne : oldFiles.content path ≠ newFiles.content path) :
    Hidden ecosystem sizeLimit path := by
  obtain ⟨huntruncated, hnone⟩ := changedPaths_eq_nil_of_empty hempty
  have hnotShown : ¬(classifyFile path ecosystem = .tier1 ∨
      classifyFile path ecosystem = .tier2 ∨ (classifyFile path ecosystem = .tier3 ∧
        docsShown oldFiles newFiles ecosystem sizeLimit = true)) := fun htier =>
    List.not_mem_nil (hnone ▸ mem_changedPaths_shownPaths hne htier)
  cases htier : classifyFile path ecosystem with
  | tier1 => exact absurd (Or.inl htier) hnotShown
  | tier2 => exact absurd (Or.inr (Or.inl htier)) hnotShown
  | tier4 => exact Or.inl htier
  | tier3 =>
      refine Or.inr ⟨htier, ?_⟩
      by_contra hbudget
      have hcode : (codePasses oldFiles newFiles ecosystem sizeLimit).text = [] :=
        List.prefix_nil.mp (hempty ▸ codePasses_text_prefix oldFiles newFiles ecosystem sizeLimit)
      have hdocs := docsShown_of_untruncated huntruncated (by simpa [hcode] using hbudget)
      exact hnotShown (Or.inr (Or.inr ⟨htier, hdocs⟩))

/-- When every changed path is hidden, no pass writes anything. -/
theorem generateDiffFiles_of_hidden {oldFiles newFiles : FileMap} {ecosystem : GoString}
    {sizeLimit : Int}
    (hhidden : ∀ path, oldFiles.content path ≠ newFiles.content path →
      Hidden ecosystem sizeLimit path) :
    generateDiffFiles oldFiles newFiles ecosystem sizeLimit = .start := by
  have hpass : ∀ tier firstFile, tier = .tier1 ∨ tier = .tier2 ∨
      (tier = .tier3 ∧ 0 < docBudget sizeLimit) →
      emitPass (generateFileDiff oldFiles newFiles) sizeLimit firstFile
        (partitionPaths (allPaths oldFiles newFiles) ecosystem tier) .start = .start := by
    intro tier firstFile htier
    refine emitPass_unchanged fun p hp => ?_
    rw [generateFileDiff_changed_iff]
    by_contra hne
    have hclass := (mem_partitionPaths.mp hp).2
    rcases hhidden p hne with h4 | ⟨h3, hbudget⟩
    · rw [h4] at hclass
      simp [← hclass] at htier
    · rw [h3] at hclass
      simp only [← hclass, reduceCtorEq, true_and, false_or] at htier
      omega
  have hcode : codePasses oldFiles newFiles ecosystem sizeLimit = .start := by
    simp only [codePasses]
    rw [hpass .tier1 true (Or.inl rfl)]
    exact hpass .tier2 false (Or.inr (Or.inl rfl))
  have hall : allPasses oldFiles newFiles ecosystem sizeLimit = .start := by
    simp only [allPasses, hcode]
    split_ifs with hdocs
    · have hbudget : 0 < docBudget sizeLimit := by
        simpa [docsShown, hcode, DiffState.start] using hdocs
      exact hpass .tier3 false (Or.inr (Or.inr ⟨rfl, hbudget⟩))
    · rfl
  simp [generateDiffFiles, hall, DiffState.start]

/-- A diff is empty exactly when every changed path is hidden. -/
theorem generateDiffFiles_empty_iff (oldFiles newFiles : FileMap) (ecosystem : GoString)
    (sizeLimit : Int) :
    ((generateDiffFiles oldFiles newFiles ecosystem sizeLimit).text = [] ∧
        (generateDiffFiles oldFiles newFiles ecosystem sizeLimit).filesChanged = 0) ↔
      ∀ path, oldFiles.content path ≠ newFiles.content path →
        Hidden ecosystem sizeLimit path := by
  constructor
  · rintro ⟨hempty, _⟩ path hne
    exact hidden_of_empty hempty hne
  · intro hhidden
    rw [generateDiffFiles_of_hidden hhidden]
    exact ⟨rfl, rfl⟩

end Differ
end Veilence

import Veilence.Differ.Render

/-!
# The order of the file maps

A Go map is enumerated in an arbitrary order.  {lit}`generateDiff` collects its
paths from two such enumerations; what follows sorts them within their tiers, so
that the order does not reach the text.

Main results:

- Theorem {lit}`sortStrings_eq_of_perm`: sorting forgets the order of the paths.
- Theorem {lit}`partitionPaths_perm`: the four slices hold every path once.
- Theorem {lit}`generateDiffFiles_enumeration`: the diff is the same for every
  enumeration of the two maps.
-/

namespace Veilence
namespace Differ

open Go Foundation

/-! ## Sorted slices -/

theorem perm_sortStrings (paths : List GoString) : (sortStrings paths).Perm paths :=
  List.perm_insertionSort _ paths

theorem pairwise_sortStrings (paths : List GoString) :
    (sortStrings paths).Pairwise (· ≤ ·) :=
  List.pairwise_insertionSort _ paths

/-- Sorting forgets the order of the paths. -/
theorem sortStrings_eq_of_perm {paths paths' : List GoString} (hperm : paths.Perm paths') :
    sortStrings paths = sortStrings paths' := by
  have hsorted : (sortStrings paths).Perm (sortStrings paths') :=
    ((perm_sortStrings paths).trans hperm).trans (perm_sortStrings paths').symm
  exact hsorted.eq_of_pairwise' (pairwise_sortStrings paths) (pairwise_sortStrings paths')

/-- The slices of a tier do not depend on the order of the paths. -/
theorem partitionPaths_eq_of_perm {paths paths' : List GoString} (hperm : paths.Perm paths')
    (ecosystem : GoString) : partitionPaths paths ecosystem = partitionPaths paths' ecosystem := by
  ext1 tier
  exact sortStrings_eq_of_perm (hperm.filter _)

/-- Different paths are in strictly ascending order in their slice. -/
theorem pairwise_lt_partitionPaths {paths : List GoString} (hnodup : paths.Nodup)
    (ecosystem : GoString) (tier : Tier) :
    (partitionPaths paths ecosystem tier).Pairwise (· < ·) := by
  have hsorted := pairwise_sortStrings (paths.filter fun p => classifyFile p ecosystem = tier)
  have hdistinct : (partitionPaths paths ecosystem tier).Nodup :=
    (perm_sortStrings _).nodup_iff.mpr (hnodup.filter _)
  exact (hsorted.and hdistinct).imp fun h => lt_of_le_of_ne h.1 h.2

/-- The four slices hold the paths, each once. -/
theorem partitionPaths_perm (paths : List GoString) (ecosystem : GoString) :
    (partitionPaths paths ecosystem .tier1 ++ partitionPaths paths ecosystem .tier2 ++
      partitionPaths paths ecosystem .tier3 ++ partitionPaths paths ecosystem .tier4).Perm
      paths := by
  rw [List.perm_iff_count]
  intro p
  have hcount : ∀ tier, (partitionPaths paths ecosystem tier).count p =
      if classifyFile p ecosystem = tier then paths.count p else 0 := by
    intro tier
    rw [partitionPaths, (perm_sortStrings _).count_eq]
    split_ifs with htier
    · exact List.count_filter (by simpa using htier)
    · exact List.count_eq_zero.mpr (by simp [htier])
  simp only [List.count_append, hcount]
  cases classifyFile p ecosystem with
  | tier1 => simp
  | tier2 => simp
  | tier3 => simp
  | tier4 => simp

/-! ## Enumerations of a file map -/

/-- Two enumerations of a map hold the same contents. -/
theorem get?_eq_of_perm {files files' : FileMap} (hperm : files.entries.Perm files'.entries)
    (path : GoString) : files.get? path = files'.get? path := by
  ext content
  rw [Table.get?_eq_some_iff, Table.get?_eq_some_iff]
  exact hperm.mem_iff

theorem nodup_allPaths (oldFiles newFiles : FileMap) :
    (allPaths oldFiles newFiles).Nodup := by
  refine List.Nodup.append oldFiles.nodup (newFiles.nodup.filter _) ?_
  intro path hold hnew
  have hnot := (List.mem_filter.mp hnew).2
  simp [hold] at hnot

/-- The collected paths of two enumerations are the same up to their order. -/
theorem allPaths_perm {oldFiles oldFiles' newFiles newFiles' : FileMap}
    (hold : ∀ p, oldFiles.get? p = oldFiles'.get? p)
    (hnew : ∀ p, newFiles.get? p = newFiles'.get? p) :
    (allPaths oldFiles newFiles).Perm (allPaths oldFiles' newFiles') := by
  apply (List.perm_ext_iff_of_nodup (nodup_allPaths _ _) (nodup_allPaths _ _)).mpr
  intro path
  simp only [mem_allPaths, Table.mem_keys_iff, hold, hnew]

/-- The text of a file is read from the contents. -/
theorem generateFileDiff_congr {oldFiles oldFiles' newFiles newFiles' : FileMap}
    (hold : ∀ p, oldFiles.get? p = oldFiles'.get? p)
    (hnew : ∀ p, newFiles.get? p = newFiles'.get? p) :
    generateFileDiff oldFiles newFiles = generateFileDiff oldFiles' newFiles' := by
  ext1 path
  unfold generateFileDiff FileMap.content
  rw [hold path, hnew path]

/-- Maps with the same contents have the same diff. -/
theorem generateDiffFiles_congr {oldFiles oldFiles' newFiles newFiles' : FileMap}
    (hold : ∀ p, oldFiles.get? p = oldFiles'.get? p)
    (hnew : ∀ p, newFiles.get? p = newFiles'.get? p) (ecosystem : GoString) (sizeLimit : Int) :
    generateDiffFiles oldFiles newFiles ecosystem sizeLimit =
      generateDiffFiles oldFiles' newFiles' ecosystem sizeLimit := by
  have hpaths := partitionPaths_eq_of_perm (allPaths_perm hold hnew) ecosystem
  have hgen := generateFileDiff_congr hold hnew
  have hcode : codePasses oldFiles newFiles ecosystem sizeLimit =
      codePasses oldFiles' newFiles' ecosystem sizeLimit := by
    unfold codePasses
    rw [hpaths, hgen]
  unfold generateDiffFiles allPasses docsShown
  rw [hcode, hpaths, hgen]

/-- The diff is the same for every enumeration of the two maps, and
{lit}`PartitionPaths` returns four ascending slices that hold every path once, each
in the slice of its tier, whatever the order of the paths. -/
theorem generateDiffFiles_enumeration (ecosystem : GoString) :
    (∀ oldFiles oldFiles' newFiles newFiles' : FileMap,
      oldFiles.entries.Perm oldFiles'.entries → newFiles.entries.Perm newFiles'.entries →
      ∀ sizeLimit, generateDiffFiles oldFiles newFiles ecosystem sizeLimit =
        generateDiffFiles oldFiles' newFiles' ecosystem sizeLimit) ∧
    ∀ paths : List GoString,
      (∀ tier, (partitionPaths paths ecosystem tier).Pairwise (· ≤ ·)) ∧
      (partitionPaths paths ecosystem .tier1 ++ partitionPaths paths ecosystem .tier2 ++
        partitionPaths paths ecosystem .tier3 ++ partitionPaths paths ecosystem .tier4).Perm
        paths ∧
      (∀ tier, ∀ p ∈ partitionPaths paths ecosystem tier, classifyFile p ecosystem = tier) ∧
      ∀ paths', paths'.Perm paths →
        ∀ tier, partitionPaths paths' ecosystem tier = partitionPaths paths ecosystem tier := by
  constructor
  · intro oldFiles oldFiles' newFiles newFiles' hold hnew sizeLimit
    exact generateDiffFiles_congr (get?_eq_of_perm hold) (get?_eq_of_perm hnew) ecosystem sizeLimit
  · intro paths
    refine ⟨fun tier => pairwise_sortStrings _, partitionPaths_perm paths ecosystem, ?_, ?_⟩
    · intro tier p hp
      exact (mem_partitionPaths.mp hp).2
    · intro paths' hperm tier
      rw [partitionPaths_eq_of_perm hperm]

/-- Two enumerations of a map with two files. -/
theorem generateDiffFiles_enumeration_twoFiles :
    generateDiffFiles Table.empty
        ⟨[("a.js".toList, "1".toList), ("b.js".toList, "2".toList)], by decide⟩ "npm".toList 1000 =
      generateDiffFiles Table.empty
        ⟨[("b.js".toList, "2".toList), ("a.js".toList, "1".toList)], by decide⟩ "npm".toList 1000 :=
  (generateDiffFiles_enumeration "npm".toList).1 _ _ _ _ (List.Perm.refl _)
    (List.Perm.swap _ _ []) 1000

end Differ
end Veilence

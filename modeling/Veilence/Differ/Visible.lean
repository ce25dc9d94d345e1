import Veilence.Differ.Archive

/-!
# What an extraction shows

After a successful extraction every regular file of the archive with an ordinary name
lies in the destination directory, with its content and readable.  Two kinds of files
are not: those with two dots in a row in their name, which both extractors skip, and
those of a tarball whose permission bits do not let the owner read, since
{lit}`extractTarball` takes the bits from the archive.

Main results:

- Theorem {lit}`extractArchive_shows`: the files with ordinary names are there.
- Theorem {lit}`files_hidden`: a tarball with one file of each of the two kinds.
-/

namespace Veilence
namespace Differ

open Go Foundation

/-- Different cleaned names ask for different files. -/
theorem nodup_entryFile {cfg : Config} (dest : TempDir) {fileMode : ArchiveEntry → Nat}
    {entries : List ArchiveEntry} (hdistinct : (entries.map fun e => clean e.name).Nodup) :
    ((entries.filterMap (entryFile cfg dest.path fileMode)).map Prod.fst).Nodup := by
  apply nodup_map_filterMap hdistinct
  intro e he e' he' b b' hb hb' hpath
  have htarget : ∀ e b, entryFile cfg dest.path fileMode e = some b →
      clean e.name = join '/' b.1 := by
    intro e b hb
    unfold entryFile at hb
    split_ifs at hb
    obtain ⟨path, hsome, rfl⟩ := Option.map_eq_some_iff.mp hb
    exact (names_of_entryTarget dest hsome).2.2
  rw [htarget e b hb, htarget e' b' hb', hpath]

/-- The permission bits that an extractor gives a file let the owner read it. -/
theorem canRead_fileModeOf {ecosystem : GoString} {e : ArchiveEntry}
    (hread : ecosystem = "go".toList ∨ e.mode &&& 0o400 ≠ 0) :
    Host.owner.canRead (fileModeOf ecosystem e) = true := by
  by_cases hgo : ecosystem = "go".toList
  · rw [fileModeOf, if_pos hgo]
    change Host.owner.canRead 0o640 = true
    decide
  · rw [fileModeOf, if_neg hgo]
    have hbits : (e.mode &&& 0o750) &&& 0o400 = e.mode &&& 0o400 := by
      rw [Nat.land_assoc]
      rfl
    have hmode : e.mode &&& 0o400 ≠ 0 := hread.resolve_left hgo
    simpa [Host.owner, tarFileMode, hbits] using hmode

/-- A regular file with a relative name other than the dot and without two dots in a row
is in the directory after a successful extraction, with its content and readable, if the
file is within the size limit and is not a file of a tarball that its owner may not
read. -/
theorem extractArchive_shows {cfg : Config} {dest : TempDir} {ecosystem : GoString}
    {archive : Archive} {tree : Tree}
    (hok : extractArchive .owner cfg dest.path ecosystem archive = .ok tree)
    (hdistinct : (archive.entries.map fun e => clean e.name).Nodup) {e : ArchiveEntry}
    (he : e ∈ archive.entries) (hkind : e.kind = .file)
    (habs : isAbs (clean e.name) = false) (hdots : hasDotDot (clean e.name) = false)
    (hdot : clean e.name ≠ ['.']) (hsize : e.body.length ≤ cfg.maxFileExtractSize)
    (hread : ecosystem = "go".toList ∨ e.mode &&& 0o400 ≠ 0) :
    ∃ mode, tree.file? (split '/' (clean e.name)) = some (mode, e.body) ∧
      Host.owner.canRead mode = true := by
  obtain ⟨s, hrun, rfl⟩ := exists_of_extractArchive hok
  have htarget := (entryTarget_eq_some_iff dest).mpr ⟨habs, hdots, hdot, rfl⟩
  have hbody : limitedBody cfg e = e.body := by
    unfold limitedBody
    exact List.take_of_length_le (by omega)
  refine ⟨fileModeOf ecosystem e, ?_, canRead_fileModeOf hread⟩
  apply (extractEntries_file? hrun (nodup_entryFile dest hdistinct) ?_ _ _).mpr
  · left
    rw [List.mem_filterMap]
    refine ⟨e, he, ?_⟩
    rw [entryFile, if_pos hkind, htarget, hbody]
    rfl
  · intro f _
    rfl

/-- A file of an archive. -/
def fileOf (name : String) (mode : Nat) (body : String) : ArchiveEntry :=
  ⟨name.toList, .file, mode, body.length, body.toList, false⟩

/-- An npm package with one file. -/
def plainArchive : Archive :=
  ⟨[fileOf "package/a.js" 0o644 "x"], true⟩

theorem extractArchive_shows_plainArchive :
    ∃ tree mode, extractArchive .owner defaultConfig tmpDir.path "npm".toList plainArchive =
        .ok tree ∧
      tree.file? ["package".toList, "a.js".toList] = some (mode, "x".toList) ∧
      Host.owner.canRead mode = true := by
  cases hrun : extractArchive .owner defaultConfig tmpDir.path "npm".toList plainArchive with
  | error err =>
      have hok : (extractArchive .owner defaultConfig tmpDir.path "npm".toList
        plainArchive).isOk = true := by decide +kernel
      rw [hrun] at hok
      cases hok
  | ok tree =>
      obtain ⟨mode, hfile, hread⟩ := extractArchive_shows hrun (by decide +kernel)
        (e := fileOf "package/a.js" 0o644 "x") (by simp [plainArchive]) rfl (by decide +kernel)
        (by decide +kernel) (by decide +kernel) (by decide +kernel) (by decide)
      exact ⟨tree, mode, rfl, hfile, hread⟩

/-- An npm package with a file whose name has two dots in a row and a file that its owner
may not read. -/
def hidingArchive : Archive :=
  ⟨[fileOf "package/a..js" 0o644 "x", fileOf "package/b.js" 0 "y"], true⟩

/-- Nothing of the two files can be read after the extraction. -/
theorem files_hidden :
    (hidingArchive.entries.map fun e => clean e.name).Nodup ∧
      (∀ e ∈ hidingArchive.entries, e.kind = .file ∧ isAbs (clean e.name) = false ∧
        ['.', '.'] ∉ split '/' (clean e.name)) ∧
      (extractArchive .owner defaultConfig tmpDir.path "npm".toList hidingArchive).map
          (·.entries) = .ok [(["package".toList, "b.js".toList], .file 0 "y".toList),
            (["package".toList], .dir)] ∧
      Host.owner.canRead 0 = false := by
  decide +kernel

end Differ
end Veilence

import Veilence.Differ.Completeness
import Veilence.Differ.Walk

/-!
# Version prefixes

Every ecosystem puts the files of a release under a prefix of its own: `M@v` for the
module `M`, `package` for npm and `name-v` for a source distribution.
{lit}`walkFiles` drops one path element, which is the whole prefix unless it belongs
to a module path of several elements: then the version stays in every path.

Main results:

- Theorem {lit}`walkFiles_archive`: the file map of an extracted archive.
- Theorem {lit}`generateDiff_reprefixed_iff`: the diff of two archives of one file
  tree is empty exactly when, for every file that can be shown, the prefixes end
  alike or the file's paths are hidden.
- Theorem {lit}`generateDiff_reprefixed_twoElements`: a module path of two elements
  makes an unchanged tree a change.
-/

namespace Veilence
namespace Differ

open Go Foundation

/-! ## File trees and their archives -/

/-- A regular file of a release. -/
structure TreeFile where
  path : List GoString
  mode : Nat
  content : GoString

/-- The files and directories of a release, without the archive prefix. -/
structure FileTree where
  files : List TreeFile
  dirs : List (List GoString)
  fileNames : ∀ f ∈ files, f.path ≠ [] ∧ ∀ p ∈ f.path, IsName p
  dirNames : ∀ d ∈ dirs, ∀ p ∈ d, IsName p
  nodup : (files.map (·.path)).Nodup

/-- A version as it appears in a file name. -/
structure Version where
  text : GoString
  noSlash : '/' ∉ text

/-- A package of an ecosystem.  A module path is its leading elements and its last one. -/
inductive Package where
  | go (leading : List GoString) (last : GoString) (hleading : ∀ p ∈ leading, IsName p)
      (hlast : '/' ∉ last)
  | npm (name : GoString)
  | python (name : GoString) (hname : '/' ∉ name)

/-- The ecosystem of a package. -/
def Package.ecosystem : Package → GoString
  | .go .. => "go".toList
  | .npm _ => "npm".toList
  | .python .. => "python".toList

/-- The elements of the archive prefix of a version. -/
def Package.archivePrefix (v : Version) : Package → List GoString
  | .go leading last _ _ => leading ++ [last ++ '@' :: v.text]
  | .npm _ => ["package".toList]
  | .python name _ => [name ++ '-' :: v.text]

/-- The number of path elements that {lit}`walkFiles` would have to drop. -/
def Package.prefixLength : Package → Nat
  | .go leading .. => leading.length + 1
  | _ => 1

/-- The archive entry of a file. -/
def fileEntry (start : List GoString) (f : TreeFile) : ArchiveEntry :=
  ⟨join '/' (start ++ f.path), .file, f.mode, f.content.length, f.content, false⟩

/-- The archive entry of a directory. -/
def dirEntry (start : List GoString) (d : List GoString) : ArchiveEntry :=
  ⟨join '/' (start ++ d) ++ ['/'], .dir, 0o755, 0, [], false⟩

/-- An archive that holds exactly the tree below the prefix, in any order. -/
def Archive.Holds (archive : Archive) (start : List GoString) (tree : FileTree) : Prop :=
  archive.entries.Perm (tree.files.map (fileEntry start) ++ tree.dirs.map (dirEntry start))

/-! ## Prefixes -/

/-- A name with a mark inside is a proper name. -/
theorem isName_marked {before after : GoString} {mark : Char} (hbefore : '/' ∉ before)
    (hafter : '/' ∉ after) (hmark : mark ≠ '/') (hdot : mark ≠ '.') :
    IsName (before ++ mark :: after) := by
  have hmem : mark ∈ before ++ mark :: after := by simp
  refine ⟨by simp, by simp [hbefore, hafter, hmark.symm], ?_, ?_⟩
  · intro heq
    rw [heq] at hmem
    exact hdot (by simpa using hmem)
  · intro heq
    rw [heq] at hmem
    exact hdot (by simpa using hmem)

/-- The elements of a prefix are proper names. -/
theorem isName_of_mem_archivePrefix (pkg : Package) (v : Version) :
    ∀ p ∈ pkg.archivePrefix v, IsName p := by
  intro p hp
  cases pkg with
  | go leading last hleading hlast =>
      rcases List.mem_append.mp hp with hp | hp
      · exact hleading p hp
      · rw [List.mem_singleton.mp hp]
        exact isName_marked hlast v.noSlash (by decide) (by decide)
  | npm name =>
      rw [List.mem_singleton.mp hp]
      decide
  | python name hname =>
      rw [List.mem_singleton.mp hp]
      exact isName_marked hname v.noSlash (by decide) (by decide)

@[simp]
theorem length_archivePrefix (pkg : Package) (v : Version) :
    (pkg.archivePrefix v).length = pkg.prefixLength := by
  cases pkg <;> simp [Package.archivePrefix, Package.prefixLength]

theorem archivePrefix_ne_nil (pkg : Package) (v : Version) : pkg.archivePrefix v ≠ [] := by
  cases pkg <;> simp [Package.archivePrefix]

/-- Two prefixes of one package end alike exactly when they are one element long or
belong to the same version. -/
theorem tail_archivePrefix_eq_iff (pkg : Package) (v w : Version) :
    (pkg.archivePrefix v).tail = (pkg.archivePrefix w).tail ↔
      pkg.prefixLength = 1 ∨ v.text = w.text := by
  cases pkg with
  | go leading last _ _ =>
      cases leading with
      | nil => simp [Package.archivePrefix, Package.prefixLength]
      | cons first leading => simp [Package.archivePrefix, Package.prefixLength]
  | npm name => simp [Package.archivePrefix, Package.prefixLength]
  | python name _ => simp [Package.archivePrefix, Package.prefixLength]

/-! ## The file map of an extracted archive -/

/-- The text that a file of a release shows, if any. -/
def TreeFile.text (f : TreeFile) (host : Host) (cfg : Config) (ecosystem : GoString) :
    Option GoString :=
  textOf host cfg.maxFileReadSize
    (.file (fileModeOf ecosystem (fileEntry [] f)) (limitedBody cfg (fileEntry [] f)))

/-- Whether the extraction keeps a file below a prefix: two dots in a row anywhere in
its path make the extractor skip it. -/
def Kept (start : List GoString) (f : TreeFile) : Prop :=
  hasDotDot (join '/' (start ++ f.path)) = false

instance (start : List GoString) (f : TreeFile) : Decidable (Kept start f) :=
  inferInstanceAs (Decidable (_ = _))

section Extraction

variable {host : Host} {cfg : Config} {dest : TempDir} {pkg : Package} {v : Version}
  {tree : FileTree} {archive : Archive} {dir : Tree}

/-- The elements of a file's path in an archive are proper names. -/
theorem isName_of_mem_entryPath (pkg : Package) (v : Version) {f : TreeFile}
    (hf : f ∈ tree.files) : ∀ p ∈ pkg.archivePrefix v ++ f.path, IsName p := by
  intro p hp
  rcases List.mem_append.mp hp with hp | hp
  · exact isName_of_mem_archivePrefix pkg v p hp
  · exact (tree.fileNames f hf).2 p hp

/-- The permission bits and the content do not depend on the prefix. -/
theorem fileModeOf_fileEntry (ecosystem : GoString) (start : List GoString) (f : TreeFile) :
    fileModeOf ecosystem (fileEntry start f) = fileModeOf ecosystem (fileEntry [] f) := by
  simp only [fileModeOf]
  split_ifs <;> rfl

/-- The file that the entry of a tree file asks for. -/
theorem entryFile_fileEntry {f : TreeFile} (hf : f ∈ tree.files) :
    entryFile cfg dest.path (fileModeOf pkg.ecosystem) (fileEntry (pkg.archivePrefix v) f) =
      if hasDotDot (join '/' (pkg.archivePrefix v ++ f.path)) then none
      else some (pkg.archivePrefix v ++ f.path, fileModeOf pkg.ecosystem (fileEntry [] f),
        limitedBody cfg (fileEntry [] f)) := by
  have htarget := entryTarget_join dest (isName_of_mem_entryPath pkg v hf)
    (by simp [archivePrefix_ne_nil])
  have hkind : (fileEntry (pkg.archivePrefix v) f).kind = .file := rfl
  have hname : (fileEntry (pkg.archivePrefix v) f).name =
      join '/' (pkg.archivePrefix v ++ f.path) := rfl
  rw [entryFile, if_pos hkind, fileModeOf_fileEntry, hname, htarget]
  split_ifs <;> rfl

/-- The files that the entries of an archive ask for. -/
theorem mem_filterMap_entryFile (hholds : archive.Holds (pkg.archivePrefix v) tree)
    {x : List GoString × Nat × GoString} :
    x ∈ archive.entries.filterMap
        (entryFile cfg dest.path (fileModeOf pkg.ecosystem)) ↔
      ∃ f ∈ tree.files, Kept (pkg.archivePrefix v) f ∧
        x = (pkg.archivePrefix v ++ f.path, fileModeOf pkg.ecosystem (fileEntry [] f),
          limitedBody cfg (fileEntry [] f)) := by
  rw [List.mem_filterMap]
  constructor
  · rintro ⟨e, he, hx⟩
    rcases List.mem_append.mp (hholds.mem_iff.mp he) with he | he
    · obtain ⟨f, hf, rfl⟩ := List.mem_map.mp he
      rw [entryFile_fileEntry hf] at hx
      split_ifs at hx with hdots
      exact ⟨f, hf, by simpa [Kept] using hdots, (Option.some.inj hx).symm⟩
    · obtain ⟨d, _, rfl⟩ := List.mem_map.mp he
      simp [entryFile, dirEntry] at hx
  · rintro ⟨f, hf, hkept, rfl⟩
    refine ⟨fileEntry (pkg.archivePrefix v) f, ?_, ?_⟩
    · exact hholds.mem_iff.mpr (List.mem_append_left _ (List.mem_map_of_mem hf))
    · rw [entryFile_fileEntry hf, if_neg (by simpa [Kept] using hkept)]

/-- Different files of the tree ask for different paths. -/
theorem nodup_filterMap_entryFile (hholds : archive.Holds (pkg.archivePrefix v) tree) :
    ((archive.entries.filterMap
        (entryFile cfg dest.path (fileModeOf pkg.ecosystem))).map Prod.fst).Nodup := by
  have hdirs : (tree.dirs.map (dirEntry (pkg.archivePrefix v))).filterMap
      (entryFile cfg dest.path (fileModeOf pkg.ecosystem)) = [] := by
    simp [List.filterMap_eq_nil_iff, entryFile, dirEntry]
  rw [((hholds.filterMap _).map Prod.fst).nodup_iff, List.filterMap_append, hdirs,
    List.append_nil, List.filterMap_map]
  refine nodup_map_filterMap tree.nodup fun f hf f' hf' b b' hb hb' hpath => ?_
  rw [Function.comp_apply, entryFile_fileEntry hf] at hb
  rw [Function.comp_apply, entryFile_fileEntry hf'] at hb'
  split_ifs at hb hb'
  obtain rfl := Option.some.inj hb
  obtain rfl := Option.some.inj hb'
  exact List.append_cancel_left hpath

/-- The files of an extracted archive. -/
theorem extractArchive_file? (hholds : archive.Holds (pkg.archivePrefix v) tree)
    (hok : extractArchive host cfg dest.path pkg.ecosystem archive = .ok dir)
    (path : List GoString) (x : Nat × GoString) :
    dir.file? path = some x ↔
      ∃ f ∈ tree.files, Kept (pkg.archivePrefix v) f ∧ path = pkg.archivePrefix v ++ f.path ∧
        x = (fileModeOf pkg.ecosystem (fileEntry [] f), limitedBody cfg (fileEntry [] f)) := by
  obtain ⟨s, hrun, rfl⟩ := exists_of_extractArchive hok
  rw [extractEntries_file? hrun (nodup_filterMap_entryFile hholds) (fun _ _ => rfl),
    mem_filterMap_entryFile hholds]
  simp [ExtractState.start]

/-- The file map of an extracted archive: the kept text files, by their path without
the first element of the prefix. -/
theorem walkFiles_archive (hholds : archive.Holds (pkg.archivePrefix v) tree)
    (hok : extractArchive host cfg dest.path pkg.ecosystem archive = .ok dir)
    (key content : GoString) :
    (walkFiles host cfg.maxFileReadSize dir).get? key = some content ↔
      ∃ f ∈ tree.files, Kept (pkg.archivePrefix v) f ∧
        f.text host cfg pkg.ecosystem = some content ∧
        join '/' ((pkg.archivePrefix v).tail ++ f.path) = key := by
  obtain ⟨first, rest, hpre⟩ := List.exists_cons_of_ne_nil (archivePrefix_ne_nil pkg v)
  have hnames : ∀ f ∈ tree.files, ∀ p ∈ first :: (rest ++ f.path), IsName p := by
    intro f hf
    have hall := isName_of_mem_entryPath pkg v hf
    rwa [hpre, List.cons_append] at hall
  have hkey : ∀ f ∈ tree.files, walkKey (pkg.archivePrefix v ++ f.path) =
      join '/' (rest ++ f.path) := by
    intro f hf
    rw [hpre, List.cons_append,
      walkKey_cons (hnames f hf first (by simp)).2.1 (by simp [(tree.fileNames f hf).1])]
  -- The text files of the directory are the kept text files of the tree.
  have htext : ∀ e ∈ dir.entries, ∀ text, textOf host cfg.maxFileReadSize e.2 = some text →
      ∃ f ∈ tree.files, Kept (pkg.archivePrefix v) f ∧ e.1 = pkg.archivePrefix v ++ f.path ∧
        f.text host cfg pkg.ecosystem = some text := by
    rintro ⟨path, node⟩ he text hnode
    cases node with
    | dir => simp [textOf] at hnode
    | file mode body =>
        obtain ⟨f, hf, hkept, hpath, hx⟩ :=
          (extractArchive_file? hholds hok path (mode, body)).mp (file?_eq_some_iff.mpr he)
        obtain ⟨rfl, rfl⟩ := Prod.mk.inj hx
        exact ⟨f, hf, hkept, hpath, hnode⟩
  rw [walkFiles_get?]
  · constructor
    · rintro ⟨e, he, hnode, rfl⟩
      obtain ⟨f, hf, hkept, hpath, hshown⟩ := htext e he content hnode
      exact ⟨f, hf, hkept, hshown, by rw [hpath, hkey f hf, hpre, List.tail_cons]⟩
    · rintro ⟨f, hf, hkept, hshown, rfl⟩
      have hfile := (extractArchive_file? hholds hok _ _).mpr ⟨f, hf, hkept, rfl, rfl⟩
      exact ⟨_, file?_eq_some_iff.mp hfile, hshown,
        by rw [hkey f hf, hpre, List.tail_cons]⟩
  · intro e he e' he' hsome hsome' hkeys
    obtain ⟨text, hnode⟩ := Option.isSome_iff_exists.mp hsome
    obtain ⟨text', hnode'⟩ := Option.isSome_iff_exists.mp hsome'
    obtain ⟨f, hf, _, hpath, _⟩ := htext e he text hnode
    obtain ⟨f', hf', _, hpath', _⟩ := htext e' he' text' hnode'
    have hslash : ∀ f ∈ tree.files, ∀ p ∈ rest ++ f.path, '/' ∉ p :=
      fun f hf p hp => (hnames f hf p (List.mem_cons_of_mem _ hp)).2.1
    rw [hpath, hpath', hkey f hf, hkey f' hf'] at hkeys
    have hrest := join_inj (hslash f hf) (hslash f' hf') (by simp [(tree.fileNames f hf).1])
      (by simp [(tree.fileNames f' hf').1]) hkeys
    rw [hpath, hpath', List.append_cancel_left hrest]

end Extraction

/-! ## Two archives of one tree -/

/-- Where a file of the tree stands in the file map of an archive. -/
def diffPath (start : List GoString) (f : TreeFile) : GoString :=
  join '/' (start.tail ++ f.path)

section TwoArchives

variable {host : Host} {cfg : Config} {oldDest newDest : TempDir} {pkg : Package}
  {v w : Version} {tree : FileTree} {oldArchive newArchive : Archive} {oldDir newDir : Tree}

/-- The content of a file map at the path of a file that is kept and shown. -/
theorem content_walkFiles {dest : TempDir} {archive : Archive} {dir : Tree}
    (hholds : archive.Holds (pkg.archivePrefix v) tree)
    (hok : extractArchive host cfg dest.path pkg.ecosystem archive = .ok dir)
    {f : TreeFile} (hf : f ∈ tree.files) (hkept : Kept (pkg.archivePrefix v) f)
    {text : GoString} (htext : f.text host cfg pkg.ecosystem = some text) :
    (walkFiles host cfg.maxFileReadSize dir).content (diffPath (pkg.archivePrefix v) f) =
      text := by
  have hget := (walkFiles_archive hholds hok (diffPath (pkg.archivePrefix v) f) text).mpr
    ⟨f, hf, hkept, htext, rfl⟩
  rw [FileMap.content, hget, Option.getD_some]

/-- Nonempty content of a file map comes from a file that is kept and shown. -/
theorem exists_of_content_walkFiles {dest : TempDir} {archive : Archive} {dir : Tree}
    (hholds : archive.Holds (pkg.archivePrefix v) tree)
    (hok : extractArchive host cfg dest.path pkg.ecosystem archive = .ok dir)
    {path text : GoString}
    (hcontent : (walkFiles host cfg.maxFileReadSize dir).content path = text)
    (hne : text ≠ []) :
    ∃ f ∈ tree.files, Kept (pkg.archivePrefix v) f ∧
      f.text host cfg pkg.ecosystem = some text ∧ diffPath (pkg.archivePrefix v) f = path := by
  cases hget : (walkFiles host cfg.maxFileReadSize dir).get? path with
  | none =>
      rw [FileMap.content, hget, Option.getD_none] at hcontent
      exact absurd hcontent.symm hne
  | some content =>
      rw [FileMap.content, hget, Option.getD_some] at hcontent
      subst hcontent
      exact (walkFiles_archive hholds hok path content).mp hget

/-- Files of one tree at one path below prefixes of equal length: the prefixes end
alike and the files are the same. -/
theorem eq_of_diffPath_eq {f g : TreeFile} (hf : f ∈ tree.files) (hg : g ∈ tree.files)
    (hpath : diffPath (pkg.archivePrefix v) f = diffPath (pkg.archivePrefix w) g) :
    (pkg.archivePrefix v).tail = (pkg.archivePrefix w).tail ∧ f = g := by
  have hslash : ∀ (u : Version), ∀ f ∈ tree.files,
      ∀ p ∈ (pkg.archivePrefix u).tail ++ f.path, '/' ∉ p := by
    intro u f hf p hp
    rcases List.mem_append.mp hp with hp | hp
    · exact (isName_of_mem_archivePrefix pkg u p (List.mem_of_mem_tail hp)).2.1
    · exact ((tree.fileNames f hf).2 p hp).2.1
  have happend := join_inj (hslash v f hf) (hslash w g hg) (by simp [(tree.fileNames f hf).1])
    (by simp [(tree.fileNames g hg).1]) hpath
  have hlen : (pkg.archivePrefix v).tail.length = (pkg.archivePrefix w).tail.length := by
    simp
  obtain ⟨htail, hfile⟩ := List.append_inj happend hlen
  exact ⟨htail, List.inj_on_of_nodup_map tree.nodup hf hg hfile⟩

/-- A file has the same place in both archives: the prefixes end alike, and both or
neither archive keep the file. -/
def SamePlace (pkg : Package) (v w : Version) (f : TreeFile) : Prop :=
  (pkg.prefixLength = 1 ∨ v.text = w.text) ∧
    (Kept (pkg.archivePrefix v) f ↔ Kept (pkg.archivePrefix w) f)

theorem SamePlace.symm {f : TreeFile} (hsame : SamePlace pkg v w f) :
    SamePlace pkg w v f :=
  ⟨hsame.1.imp_right Eq.symm, hsame.2.symm⟩

/-- A file kept on one side and not placed alike on the other is a change, so its path
is hidden when all changes are. -/
theorem hidden_of_not_samePlace {sizeLimit : Int}
    (hold : oldArchive.Holds (pkg.archivePrefix v) tree)
    (hnew : newArchive.Holds (pkg.archivePrefix w) tree)
    (hextractOld : extractArchive host cfg oldDest.path pkg.ecosystem oldArchive = .ok oldDir)
    (hextractNew : extractArchive host cfg newDest.path pkg.ecosystem newArchive = .ok newDir)
    (hhidden : ∀ path, (walkFiles host cfg.maxFileReadSize oldDir).content path ≠
        (walkFiles host cfg.maxFileReadSize newDir).content path →
      Hidden pkg.ecosystem sizeLimit path)
    {f : TreeFile} (hf : f ∈ tree.files) {text : GoString}
    (htext : f.text host cfg pkg.ecosystem = some text) (hne : text ≠ [])
    (hplace : ¬SamePlace pkg v w f) (hkept : Kept (pkg.archivePrefix v) f) :
    Hidden pkg.ecosystem sizeLimit (diffPath (pkg.archivePrefix v) f) := by
  refine hhidden _ fun hsame => hplace ?_
  rw [content_walkFiles hold hextractOld hf hkept htext] at hsame
  obtain ⟨g, hg, hkeptg, _, hpath⟩ :=
    exists_of_content_walkFiles hnew hextractNew hsame.symm hne
  obtain ⟨htail, rfl⟩ := eq_of_diffPath_eq hf hg hpath.symm
  exact ⟨(tail_archivePrefix_eq_iff pkg v w).mp htail, iff_of_true hkept hkeptg⟩

/-- A path where one side shows a text and the other does not show it is hidden when
every file is placed alike or hidden. -/
theorem hidden_of_content_ne {sizeLimit : Int}
    (hold : oldArchive.Holds (pkg.archivePrefix v) tree)
    (hnew : newArchive.Holds (pkg.archivePrefix w) tree)
    (hextractOld : extractArchive host cfg oldDest.path pkg.ecosystem oldArchive = .ok oldDir)
    (hextractNew : extractArchive host cfg newDest.path pkg.ecosystem newArchive = .ok newDir)
    (hfiles : ∀ f ∈ tree.files, ∀ text, f.text host cfg pkg.ecosystem = some text →
      text ≠ [] → SamePlace pkg v w f ∨ (Kept (pkg.archivePrefix v) f →
        Hidden pkg.ecosystem sizeLimit (diffPath (pkg.archivePrefix v) f)))
    {path text : GoString}
    (hcontent : (walkFiles host cfg.maxFileReadSize oldDir).content path = text)
    (hne : text ≠ []) (hdiff : (walkFiles host cfg.maxFileReadSize newDir).content path ≠ text) :
    Hidden pkg.ecosystem sizeLimit path := by
  obtain ⟨f, hf, hkept, htext, rfl⟩ :=
    exists_of_content_walkFiles hold hextractOld hcontent hne
  rcases hfiles f hf text htext hne with ⟨hpre, hkeeps⟩ | hhidden
  · have htail := (tail_archivePrefix_eq_iff pkg v w).mpr hpre
    have hpath : diffPath (pkg.archivePrefix v) f = diffPath (pkg.archivePrefix w) f := by
      rw [diffPath, diffPath, htail]
    rw [hpath] at hdiff
    exact absurd (content_walkFiles hnew hextractNew hf (hkeeps.mp hkept) htext) hdiff
  · exact hhidden hkept

/-- Two archives of one tree give an empty diff exactly when every file that shows some
text either has the same place in both archives, or is hidden wherever it is kept. -/
theorem generateDiff_reprefixed_iff (sizeLimit : Int)
    (hold : oldArchive.Holds (pkg.archivePrefix v) tree)
    (hnew : newArchive.Holds (pkg.archivePrefix w) tree)
    (hextractOld : extractArchive host cfg oldDest.path pkg.ecosystem oldArchive = .ok oldDir)
    (hextractNew : extractArchive host cfg newDest.path pkg.ecosystem newArchive = .ok newDir) :
    ((generateDiff host oldDir newDir cfg.maxFileReadSize pkg.ecosystem sizeLimit).text = [] ∧
      (generateDiff host oldDir newDir cfg.maxFileReadSize pkg.ecosystem
        sizeLimit).filesChanged = 0) ↔
      ∀ f ∈ tree.files, ∀ text, f.text host cfg pkg.ecosystem = some text → text ≠ [] →
        SamePlace pkg v w f ∨
          ((Kept (pkg.archivePrefix v) f →
              Hidden pkg.ecosystem sizeLimit (diffPath (pkg.archivePrefix v) f)) ∧
            (Kept (pkg.archivePrefix w) f →
              Hidden pkg.ecosystem sizeLimit (diffPath (pkg.archivePrefix w) f))) := by
  rw [generateDiff, generateDiffFiles_empty_iff]
  constructor
  · intro hhidden f hf text htext hne
    by_cases hplace : SamePlace pkg v w f
    · exact Or.inl hplace
    · refine Or.inr ⟨?_, ?_⟩
      · exact hidden_of_not_samePlace hold hnew hextractOld hextractNew hhidden hf htext hne
          hplace
      · exact hidden_of_not_samePlace hnew hold hextractNew hextractOld
          (fun path hdiff => hhidden path hdiff.symm) hf htext hne
          fun hsame => hplace hsame.symm
  · intro hfiles path hdiff
    rcases eq_or_ne ((walkFiles host cfg.maxFileReadSize oldDir).content path) [] with
      hempty | hne
    · refine hidden_of_content_ne hnew hold hextractNew hextractOld ?_ rfl ?_ hdiff
      · exact fun f hf text htext hne =>
          (hfiles f hf text htext hne).imp SamePlace.symm And.right
      · exact fun hnil => hdiff (hempty.trans hnil.symm)
    · refine hidden_of_content_ne hold hnew hextractOld hextractNew ?_ rfl hne hdiff.symm
      exact fun f hf text htext hne => (hfiles f hf text htext hne).imp_right And.left

end TwoArchives

/-! ## Module paths of one and of two elements -/

/-- The module {lit}`m`. -/
def oneElementModule : Package :=
  .go [] "m".toList (by simp) (by decide)

/-- The module {lit}`m/x`. -/
def twoElementModule : Package :=
  .go ["m".toList] "x".toList (by decide) (by decide)

/-- The first two versions. -/
def version1 : Version :=
  ⟨"v1".toList, by decide⟩

def version2 : Version :=
  ⟨"v2".toList, by decide⟩

/-- A tree with one source file. -/
def oneFileTree : FileTree where
  files := [⟨["a.go".toList], 0o644, "x".toList⟩]
  dirs := []
  fileNames := by decide
  dirNames := by simp
  nodup := by decide

/-- The archive of a tree below a prefix. -/
def archiveOf (start : List GoString) (tree : FileTree) : Archive :=
  ⟨tree.files.map (fileEntry start) ++ tree.dirs.map (dirEntry start), true⟩

/-- The directory that an archive is extracted to, the empty one on an error. -/
def extracted (pkg : Package) (v : Version) (tree : FileTree) : Tree :=
  match extractArchive .owner defaultConfig tmpDir.path pkg.ecosystem
      (archiveOf (pkg.archivePrefix v) tree) with
  | .ok dir => dir
  | .error _ => .empty

/-- An extraction without an error returns that directory. -/
theorem extractArchive_eq_extracted {pkg : Package} {v : Version} {tree : FileTree}
    (hok : (extractArchive .owner defaultConfig tmpDir.path pkg.ecosystem
      (archiveOf (pkg.archivePrefix v) tree)).isOk = true) :
    extractArchive .owner defaultConfig tmpDir.path pkg.ecosystem
      (archiveOf (pkg.archivePrefix v) tree) = .ok (extracted pkg v tree) := by
  rw [extracted]
  cases hrun : extractArchive .owner defaultConfig tmpDir.path pkg.ecosystem
      (archiveOf (pkg.archivePrefix v) tree) with
  | ok dir => rfl
  | error err => simp [hrun, Except.isOk, Except.toBool] at hok

/-- A module path of one element: the unchanged tree shows no change. -/
theorem generateDiff_reprefixed_oneElement :
    (generateDiff .owner (extracted oneElementModule version1 oneFileTree)
        (extracted oneElementModule version2 oneFileTree) defaultConfig.maxFileReadSize
        oneElementModule.ecosystem defaultConfig.diffSizeLimit).text = [] ∧
      (generateDiff .owner (extracted oneElementModule version1 oneFileTree)
        (extracted oneElementModule version2 oneFileTree) defaultConfig.maxFileReadSize
        oneElementModule.ecosystem defaultConfig.diffSizeLimit).filesChanged = 0 := by
  have hold : extractArchive .owner defaultConfig tmpDir.path oneElementModule.ecosystem
      (archiveOf (oneElementModule.archivePrefix version1) oneFileTree) =
        .ok (extracted oneElementModule version1 oneFileTree) :=
    extractArchive_eq_extracted (by decide +kernel)
  have hnew : extractArchive .owner defaultConfig tmpDir.path oneElementModule.ecosystem
      (archiveOf (oneElementModule.archivePrefix version2) oneFileTree) =
        .ok (extracted oneElementModule version2 oneFileTree) :=
    extractArchive_eq_extracted (by decide +kernel)
  have hholds (v : Version) : (archiveOf (oneElementModule.archivePrefix v)
      oneFileTree).Holds (oneElementModule.archivePrefix v) oneFileTree := List.Perm.refl _
  refine (generateDiff_reprefixed_iff defaultConfig.diffSizeLimit (hholds version1)
    (hholds version2) hold hnew).mpr ?_
  intro f hf _ _ _
  obtain rfl := List.mem_singleton.mp hf
  exact Or.inl ⟨Or.inl rfl, iff_of_true (by decide) (by decide)⟩

/-- A module path of two elements: the unchanged tree shows one file removed and one
file added. -/
theorem generateDiff_reprefixed_twoElements :
    ∃ oldArchive newArchive oldDir newDir,
      Archive.Holds oldArchive (twoElementModule.archivePrefix version1) oneFileTree ∧
      Archive.Holds newArchive (twoElementModule.archivePrefix version2) oneFileTree ∧
      extractArchive .owner defaultConfig tmpDir.path twoElementModule.ecosystem oldArchive =
        .ok oldDir ∧
      extractArchive .owner defaultConfig tmpDir.path twoElementModule.ecosystem newArchive =
        .ok newDir ∧
      (generateDiff .owner oldDir newDir defaultConfig.maxFileReadSize
        twoElementModule.ecosystem defaultConfig.diffSizeLimit).filesChanged = 2 := by
  refine ⟨archiveOf (twoElementModule.archivePrefix version1) oneFileTree,
    archiveOf (twoElementModule.archivePrefix version2) oneFileTree,
    extracted twoElementModule version1 oneFileTree,
    extracted twoElementModule version2 oneFileTree, List.Perm.refl _, List.Perm.refl _,
    extractArchive_eq_extracted (by decide +kernel),
    extractArchive_eq_extracted (by decide +kernel), by decide +kernel⟩

end Differ
end Veilence

import Veilence.Foundation.Table
import Veilence.Go.Filepath

/-!
# Archive extraction

{lit}`extractArchive` with its two extractors.  The destination directory is a file
system of its own: a table from the path below the directory to a node.  Both
extractors make the same checks in the same order and differ in the permission bits
of the files they create and in when a damaged archive is noticed.

Main results:

- Theorem {lit}`mkdirAll_file?` and theorem {lit}`createFile_file?`: what the two
  file system calls do to the files of the tree.
- Theorem {lit}`extractEntry_file?`: one entry adds the file it names or none.
- Theorem {lit}`extractEntries_file?`: a successful extraction of files with
  different names holds exactly these files.
-/

namespace Veilence
namespace Differ

open Go Foundation

/-! ## Configuration and file system -/

/-- The limits of the differ. -/
structure Config where
  diffSizeLimit : Int
  maxArchiveFileCount : Int
  maxArchiveSize : Int
  maxFileExtractSize : Int
  maxFileReadSize : Int
deriving DecidableEq

/-- The default limits. -/
def defaultConfig : Config :=
  ⟨150 * 1024, 50000, 500 * 1024 * 1024, 50 * 1024 * 1024, 1024 * 1024⟩

/-- What the process may do with a file it owns, by the file's permission bits. -/
structure Host where
  canRead : Nat → Bool
  canWrite : Nat → Bool

/-- A process that is bound by the owner's permission bits. -/
def Host.owner : Host :=
  ⟨fun mode => mode &&& 0o400 ≠ 0, fun mode => mode &&& 0o200 ≠ 0⟩

/-- A node of the file system. -/
inductive Node where
  | dir
  | file (mode : Nat) (content : GoString)
deriving DecidableEq

/-- The nodes below a directory, by the elements of their relative path. -/
abbrev Tree := Table (List GoString) Node

/-- The permission bits and the content of a file. -/
def Tree.file? (t : Tree) (path : List GoString) : Option (Nat × GoString) :=
  match t.get? path with
  | some (.file mode content) => some (mode, content)
  | _ => none

/-- {lit}`os.MkdirAll`: create the directories of `rest` below `done`.  A file in the
way or a NUL byte in a name is an error. -/
def mkdirAll (done : List GoString) : List GoString → Tree → Option Tree
  | [], t => some t
  | part :: rest, t =>
      if '\x00' ∈ part then none
      else
        match t.get? (done ++ [part]) with
        | some (.file _ _) => none
        | some .dir => mkdirAll (done ++ [part]) rest t
        | none => mkdirAll (done ++ [part]) rest (t.insert (done ++ [part]) .dir)

/-- {lit}`os.OpenFile` to create or truncate a file, and the write that follows.  A file
that exists keeps its permission bits. -/
def createFile (host : Host) (t : Tree) (path : List GoString) (mode : Nat)
    (content : GoString) : Option Tree :=
  if path.any ('\x00' ∈ ·) then none
  else
    match t.get? path with
    | some .dir => none
    | some (.file old _) =>
        if host.canWrite old then some (t.insert path (.file old content)) else none
    | none => some (t.insert path (.file mode content))

/-! ## Archives -/

/-- The kinds of entries: regular files, directories and everything else. -/
inductive EntryKind where
  | file
  | dir
  | other
deriving DecidableEq

/-- An archive entry.  `body` is what reading it delivers, and `damaged` says that the
reading ends with an error. -/
structure ArchiveEntry where
  name : GoString
  kind : EntryKind
  mode : Nat
  size : Nat
  body : GoString
  damaged : Bool
deriving DecidableEq

/-- An archive: its entries in order, and whether the whole of it can be listed. -/
structure Archive where
  entries : List ArchiveEntry
  intact : Bool

/-- Why an extraction fails. -/
inductive ExtractError where
  | unreadableArchive
  | tempDirectory
  | tooManyFiles
  | tooLarge
  | createDirectory
  | createFile
  | openEntry
  | extractFile
deriving DecidableEq

/-- What an extraction carries from entry to entry. -/
structure ExtractState where
  tree : Tree
  fileCount : Nat
  totalSize : Int

/-- The state before the first entry. -/
def ExtractState.start : ExtractState :=
  ⟨.empty, 0, 0⟩

/-! ## The extractors -/

/-- The checks on an entry's name: the path below the destination directory, if the
entry is not skipped. -/
def entryTarget (destDir name : GoString) : Option (List GoString) :=
  let cleanName := clean name
  if hasDotDot cleanName then none
  else if isAbs cleanName then none
  else
    let target := joinPath destDir cleanName
    let cleanDest := clean destDir ++ ['/']
    if cleanDest <+: target then some (split '/' (target.drop cleanDest.length)) else none

/-- What {lit}`io.LimitReader` lets through of an entry. -/
def limitedBody (cfg : Config) (e : ArchiveEntry) : GoString :=
  e.body.take cfg.maxFileExtractSize.toNat

/-- Create the file of an entry below its parent directories and copy the content. -/
def writeEntry (host : Host) (cfg : Config) (fileMode : ArchiveEntry → Nat) (t : Tree)
    (path : List GoString) (e : ArchiveEntry) : Except ExtractError Tree :=
  match mkdirAll [] path.dropLast t with
  | none => .error .createDirectory
  | some t =>
      match createFile host t path (fileMode e) (limitedBody cfg e) with
      | none => .error .createFile
      | some t =>
          if e.damaged ∧ e.body.length < cfg.maxFileExtractSize then .error .extractFile
          else .ok t

/-- Extract one entry.  `fileMode` is the permission bits of a new file. -/
def extractEntry (host : Host) (cfg : Config) (destDir : GoString)
    (fileMode : ArchiveEntry → Nat) (s : ExtractState) (e : ArchiveEntry) :
    Except ExtractError ExtractState :=
  match entryTarget destDir e.name with
  | none => .ok s
  | some path =>
      match e.kind with
      | .other => .ok s
      | .dir =>
          if s.fileCount + 1 > cfg.maxArchiveFileCount then .error .tooManyFiles
          else
            match mkdirAll [] path s.tree with
            | none => .error .createDirectory
            | some tree => .ok { s with tree := tree, fileCount := s.fileCount + 1 }
      | .file =>
          if s.fileCount + 1 > cfg.maxArchiveFileCount then .error .tooManyFiles
          else
            let totalSize := int64 (s.totalSize + int64 e.size)
            if totalSize > cfg.maxArchiveSize then .error .tooLarge
            else
              (writeEntry host cfg fileMode s.tree path e).map
                fun tree => ⟨tree, s.fileCount + 1, totalSize⟩

/-- Extract all entries. -/
def extractEntries (host : Host) (cfg : Config) (destDir : GoString)
    (fileMode : ArchiveEntry → Nat) :
    List ArchiveEntry → ExtractState → Except ExtractError ExtractState
  | [], s => .ok s
  | e :: es, s =>
      (extractEntry host cfg destDir fileMode s e).bind
        (extractEntries host cfg destDir fileMode es)

/-- The permission bits of the files that {lit}`extractZip` creates. -/
def zipFileMode (_ : ArchiveEntry) : Nat :=
  0o640

/-- The permission bits of the files that {lit}`extractTarball` creates. -/
def tarFileMode (e : ArchiveEntry) : Nat :=
  e.mode &&& 0o750

/-- {lit}`extractZip`: the directory is listed before anything is extracted. -/
def extractZip (host : Host) (cfg : Config) (destDir : GoString) (archive : Archive) :
    Except ExtractError Tree :=
  if archive.intact then
    (extractEntries host cfg destDir zipFileMode archive.entries .start).map (·.tree)
  else .error .unreadableArchive

/-- {lit}`extractTarball`: damage is noticed after the entries before it. -/
def extractTarball (host : Host) (cfg : Config) (destDir : GoString) (archive : Archive) :
    Except ExtractError Tree :=
  (extractEntries host cfg destDir tarFileMode archive.entries .start).bind fun s =>
    if archive.intact then .ok s.tree else .error .unreadableArchive

/-- {lit}`extractArchive`: Go modules are zip files, everything else is a tarball. -/
def extractArchive (host : Host) (cfg : Config) (destDir ecosystem : GoString)
    (archive : Archive) : Except ExtractError Tree :=
  if ecosystem = "go".toList then extractZip host cfg destDir archive
  else extractTarball host cfg destDir archive

/-- The permission bits of extracted files, by ecosystem. -/
def fileModeOf (ecosystem : GoString) : ArchiveEntry → Nat :=
  if ecosystem = "go".toList then zipFileMode else tarFileMode

/-- A successful extraction is a successful pass over all entries. -/
theorem exists_of_extractArchive {host : Host} {cfg : Config} {destDir ecosystem : GoString}
    {archive : Archive} {tree : Tree}
    (hok : extractArchive host cfg destDir ecosystem archive = .ok tree) :
    ∃ s, extractEntries host cfg destDir (fileModeOf ecosystem) archive.entries .start = .ok s ∧
      s.tree = tree := by
  simp only [extractArchive, extractZip, extractTarball, fileModeOf] at hok ⊢
  split_ifs at hok ⊢ with heco hintact
  · cases hrun : extractEntries host cfg destDir zipFileMode archive.entries .start with
    | error err => simp [hrun, Except.map] at hok
    | ok s => exact ⟨s, rfl, by simpa [hrun, Except.map] using hok⟩
  · cases hrun : extractEntries host cfg destDir tarFileMode archive.entries .start with
    | error err => simp [hrun, Except.bind] at hok
    | ok s => exact ⟨s, rfl, by simpa [hrun, Except.bind] using hok⟩
  · cases hrun : extractEntries host cfg destDir tarFileMode archive.entries .start with
    | error err => simp [hrun, Except.bind] at hok
    | ok s => simp [hrun, Except.bind] at hok

/-! ## Targets -/

/-- A fresh extraction directory: a clean absolute path. -/
structure TempDir where
  parts : List GoString
  names : ∀ p ∈ parts, IsName p
  ne_nil : parts ≠ []

/-- The path of the directory. -/
def TempDir.path (dir : TempDir) : GoString :=
  '/' :: join '/' dir.parts

/-- An extraction directory. -/
def tmpDir : TempDir :=
  ⟨["tmp".toList], by decide, by decide⟩

/-- A path of proper names is a target unless two dots stand in it. -/
theorem entryTarget_join (dest : TempDir) {parts : List GoString}
    (hparts : ∀ p ∈ parts, IsName p) (hne : parts ≠ []) :
    entryTarget dest.path (join '/' parts) =
      if hasDotDot (join '/' parts) then none else some parts := by
  have habs : isAbs (join '/' parts) = false := by
    simpa [isAbs] using head?_join_names hparts
  have hclean : clean dest.path = dest.path := clean_rooted_join dest.names dest.ne_nil
  have hjoin : joinPath dest.path (join '/' parts) =
      dest.path ++ ['/'] ++ join '/' parts := by
    rw [TempDir.path, joinPath_join dest.names dest.ne_nil hparts hne]
    simp
  simp only [entryTarget, clean_join hparts hne, habs, hclean, hjoin, Bool.false_eq_true,
    if_false, List.prefix_append, if_true, List.drop_left,
    split_join (slash_notMem_of_names hparts) hne]

/-- The dot is the directory itself, which is no target. -/
theorem entryTarget_dot (dest : TempDir) {name : GoString} (hdot : clean name = ['.']) :
    entryTarget dest.path name = none := by
  have hclean : clean dest.path = dest.path := clean_rooted_join dest.names dest.ne_nil
  have hjoin : joinPath dest.path ['.'] = dest.path := joinPath_dot dest.names dest.ne_nil
  have hlonger : ¬dest.path ++ ['/'] <+: dest.path := by
    intro hpre
    have hle := hpre.length_le
    rw [List.length_append, List.length_singleton] at hle
    omega
  simp only [entryTarget, hdot, hclean, hjoin, if_neg hlonger]
  split_ifs <;> rfl

/-- The target of an entry is its cleaned name, if that is relative, not the dot and
without two dots in a row. -/
theorem entryTarget_eq_some_iff (dest : TempDir) {name : GoString} {path : List GoString} :
    entryTarget dest.path name = some path ↔
      isAbs (clean name) = false ∧ hasDotDot (clean name) = false ∧ clean name ≠ ['.'] ∧
        path = split '/' (clean name) := by
  by_cases habs : isAbs (clean name) = true
  · simp [entryTarget, habs]
  by_cases hdots : hasDotDot (clean name) = true
  · simp [entryTarget, hdots]
  by_cases hdot : clean name = ['.']
  · simp [entryTarget_dot dest hdot, hdot]
  rw [Bool.not_eq_true] at habs hdots
  obtain ⟨parts, hne, hnames, hclean⟩ := exists_names_of_clean habs hdots hdot
  have hsame : entryTarget dest.path name = entryTarget dest.path (join '/' parts) := by
    simp only [entryTarget, hclean, clean_join hnames hne]
  have hsome : entryTarget dest.path name = some (split '/' (clean name)) := by
    rw [hclean] at hdots
    rw [hsame, entryTarget_join dest hnames hne, hdots, hclean,
      split_join (slash_notMem_of_names hnames) hne]
    rfl
  simp [hsome, habs, hdots, hdot, eq_comm]

/-- A target is made of proper names, and the cleaned name is these names joined. -/
theorem names_of_entryTarget (dest : TempDir) {name : GoString} {path : List GoString}
    (htarget : entryTarget dest.path name = some path) :
    path ≠ [] ∧ (∀ p ∈ path, IsName p) ∧ clean name = join '/' path := by
  obtain ⟨habs, hdots, hdot, hpath⟩ := (entryTarget_eq_some_iff dest).mp htarget
  obtain ⟨parts, hne, hnames, hclean⟩ := exists_names_of_clean habs hdots hdot
  rw [hclean, split_join (slash_notMem_of_names hnames) hne] at hpath
  subst hpath
  exact ⟨hne, hnames, hclean⟩

/-! ## What extraction does to the files -/

@[simp]
theorem file?_empty (path : List GoString) : Tree.file? .empty path = none :=
  rfl

/-- A file of the tree is an entry of its table. -/
theorem file?_eq_some_iff {t : Tree} {path : List GoString} {mode : Nat}
    {content : GoString} :
    t.file? path = some (mode, content) ↔ (path, Node.file mode content) ∈ t.entries := by
  rw [← Table.get?_eq_some_iff, Tree.file?]
  split
  · rename_i hget
    simp [hget]
  · rename_i hget
    simpa using fun heq => hget _ _ heq

/-- Creating directories changes no file. -/
theorem mkdirAll_file? {done rest : List GoString} {t t' : Tree}
    (hok : mkdirAll done rest t = some t') (path : List GoString) :
    t'.file? path = t.file? path := by
  induction rest generalizing done t with
  | nil =>
      rw [mkdirAll, Option.some.injEq] at hok
      rw [hok]
  | cons part rest ih =>
      rw [mkdirAll] at hok
      split_ifs at hok
      split at hok
      · simp at hok
      · exact ih hok
      · rename_i hnone
        rw [ih hok, Tree.file?, Tree.file?, Table.get?_insert]
        split_ifs with hpath
        · simp [hpath, hnone]
        · rfl

/-- Creating a file that is not there adds that file. -/
theorem createFile_file? {host : Host} {t t' : Tree} {path : List GoString} {mode : Nat}
    {content : GoString} (hok : createFile host t path mode content = some t')
    (hfresh : t.file? path = none) (q : List GoString) :
    t'.file? q = if q = path then some (mode, content) else t.file? q := by
  rw [createFile] at hok
  split_ifs at hok
  split at hok
  · simp at hok
  · rename_i hget
    simp [Tree.file?, hget] at hfresh
  · rw [Option.some.injEq] at hok
    subst hok
    rw [Tree.file?, Tree.file?, Table.get?_insert]
    split_ifs with hq
    · simp
    · rfl

/-- The file that an entry asks for. -/
def entryFile (cfg : Config) (destDir : GoString) (fileMode : ArchiveEntry → Nat)
    (e : ArchiveEntry) : Option (List GoString × Nat × GoString) :=
  if e.kind = .file then
    (entryTarget destDir e.name).map fun path => (path, fileMode e, limitedBody cfg e)
  else none

/-- Writing an entry adds its file. -/
theorem writeEntry_file? {host : Host} {cfg : Config} {fileMode : ArchiveEntry → Nat}
    {t t' : Tree} {path : List GoString} {e : ArchiveEntry}
    (hok : writeEntry host cfg fileMode t path e = .ok t') (hfresh : t.file? path = none)
    (q : List GoString) :
    t'.file? q = if q = path then some (fileMode e, limitedBody cfg e) else t.file? q := by
  rw [writeEntry] at hok
  split at hok
  · simp at hok
  rename_i tree hmkdir
  split at hok
  · simp at hok
  rename_i tree' hcreate
  split_ifs at hok
  rw [Except.ok.injEq] at hok
  subst hok
  rw [createFile_file? hcreate (by rw [mkdirAll_file? hmkdir, hfresh]), mkdirAll_file? hmkdir]

/-- One entry adds the file it asks for, if that file is not there yet. -/
theorem extractEntry_file? {host : Host} {cfg : Config} {destDir : GoString}
    {fileMode : ArchiveEntry → Nat} {s s' : ExtractState} {e : ArchiveEntry}
    (hok : extractEntry host cfg destDir fileMode s e = .ok s')
    (hfresh : ∀ f ∈ entryFile cfg destDir fileMode e, s.tree.file? f.1 = none)
    (q : List GoString) :
    s'.tree.file? q =
      match entryFile cfg destDir fileMode e with
      | none => s.tree.file? q
      | some f => if q = f.1 then some f.2 else s.tree.file? q := by
  cases htarget : entryTarget destDir e.name with
  | none =>
      have hnone : entryFile cfg destDir fileMode e = none := by simp [entryFile, htarget]
      simp only [extractEntry, htarget, Except.ok.injEq] at hok
      rw [hnone, hok]
  | some path =>
      cases hkind : e.kind with
      | other =>
          have hnone : entryFile cfg destDir fileMode e = none := by simp [entryFile, hkind]
          simp only [extractEntry, htarget, hkind, Except.ok.injEq] at hok
          rw [hnone, hok]
      | dir =>
          have hnone : entryFile cfg destDir fileMode e = none := by simp [entryFile, hkind]
          simp only [extractEntry, htarget, hkind] at hok
          split_ifs at hok
          split at hok
          · simp at hok
          rename_i tree hmkdir
          rw [Except.ok.injEq] at hok
          subst hok
          rw [hnone]
          exact mkdirAll_file? hmkdir q
      | file =>
          have hsome : entryFile cfg destDir fileMode e =
              some (path, fileMode e, limitedBody cfg e) := by simp [entryFile, hkind, htarget]
          simp only [extractEntry, htarget, hkind] at hok
          split_ifs at hok
          cases hwrite : writeEntry host cfg fileMode s.tree path e with
          | error err => simp [hwrite, Except.map] at hok
          | ok tree =>
              simp only [hwrite, Except.map, Except.ok.injEq] at hok
              subst hok
              rw [hsome]
              exact writeEntry_file? hwrite (hfresh _ hsome) q

/-- A successful extraction of files with different paths holds exactly these files,
besides those that were there before. -/
theorem extractEntries_file? {host : Host} {cfg : Config} {destDir : GoString}
    {fileMode : ArchiveEntry → Nat} {entries : List ArchiveEntry} {s s' : ExtractState}
    (hok : extractEntries host cfg destDir fileMode entries s = .ok s')
    (hnodup : ((entries.filterMap (entryFile cfg destDir fileMode)).map Prod.fst).Nodup)
    (hfresh : ∀ f ∈ entries.filterMap (entryFile cfg destDir fileMode),
      s.tree.file? f.1 = none) (q : List GoString) (x : Nat × GoString) :
    s'.tree.file? q = some x ↔
      (q, x) ∈ entries.filterMap (entryFile cfg destDir fileMode) ∨
        s.tree.file? q = some x := by
  induction entries generalizing s with
  | nil =>
      rw [extractEntries, Except.ok.injEq] at hok
      simp [hok]
  | cons e es ih =>
      rw [extractEntries] at hok
      cases hstep : extractEntry host cfg destDir fileMode s e with
      | error err => simp [hstep, Except.bind] at hok
      | ok mid =>
          rw [hstep, Except.bind] at hok
          cases hfile : entryFile cfg destDir fileMode e with
          | none =>
              rw [List.filterMap_cons_none hfile] at hnodup hfresh ⊢
              have hmid : ∀ p, mid.tree.file? p = s.tree.file? p := by
                intro p
                have hp := extractEntry_file? hstep (by simp [hfile]) p
                simpa [hfile] using hp
              rw [ih hok hnodup (fun f hf => by rw [hmid, hfresh f hf]), hmid]
          | some f =>
              rw [List.filterMap_cons_some hfile] at hnodup hfresh ⊢
              have hmid : ∀ p, mid.tree.file? p =
                  if p = f.1 then some f.2 else s.tree.file? p := by
                intro p
                have hf : ∀ g ∈ entryFile cfg destDir fileMode e, s.tree.file? g.1 = none := by
                  intro g hg
                  rw [hfile, Option.mem_some] at hg
                  exact hfresh g (by simp [hg])
                have hp := extractEntry_file? hstep hf p
                simpa [hfile] using hp
              simp only [List.map_cons, List.nodup_cons] at hnodup
              have hrest : ∀ g ∈ es.filterMap (entryFile cfg destDir fileMode),
                  mid.tree.file? g.1 = none := by
                intro g hg
                have hne : g.1 ≠ f.1 :=
                  fun heq => hnodup.1 (heq ▸ List.mem_map_of_mem hg)
                rw [hmid, if_neg hne]
                exact hfresh g (List.mem_cons_of_mem _ hg)
              rw [ih hok hnodup.2 hrest, hmid]
              have hhead : s.tree.file? f.1 = none := hfresh f (by simp)
              obtain ⟨p, y⟩ := f
              by_cases hq : q = p
              · subst hq
                simp only at hhead
                simp [hhead, or_comm, eq_comm]
              · simp [hq]

end Differ
end Veilence

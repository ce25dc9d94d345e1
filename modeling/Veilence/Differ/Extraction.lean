import Veilence.Differ.Archive
import Veilence.Foundation.Sequential

/-!
# Extraction call by call

The two extractors as programs of single file system calls, each of which can fail, on the
file system of the host.  Whatever fails, nothing outside the fresh directory changes, the
number of processed entries stays within its limit, and after an error the directory is
gone.  The bytes written stay within the limit for the archive as long as the running sum
of the declared sizes does not leave the range of {lit}`int64`.

Main results:

- Theorem {lit}`confined_of_steps`: these properties at every moment of an extraction.
- Theorem {lit}`limit_passed_by_wrapped_size`: an entry that declares almost 2^64 bytes
  lets the entries after it pass the limit.
-/

namespace Veilence
namespace Differ
namespace Extraction

open Go Foundation

/-! ## The host -/

/-- The file system, by the elements of absolute paths, with the number of entries whose
directories were created and the number of bytes written so far. -/
structure Disk where
  tree : Tree
  processed : Nat
  written : Nat

/-- The host before an extraction. -/
def Disk.start (tree : Tree) : Disk :=
  ⟨tree, 0, 0⟩

/-- The elements of an absolute path. -/
def elements (path : GoString) : List GoString :=
  (split '/' path).filter (· ≠ [])

/-- How {lit}`os.MkdirTemp` chooses directories: below {lit}`os.TempDir`, with a name that
nothing has yet. -/
structure TempDirs where
  root : List GoString
  name : Tree → GoString
  rootNames : ∀ p ∈ root, IsName p
  isName : ∀ t, IsName (name t)
  fresh : ∀ t path, root ++ [name t] <+: path → t.get? path = none

/-- The next temporary directory. -/
def TempDirs.next (temp : TempDirs) (t : Tree) : TempDir where
  parts := temp.root ++ [temp.name t]
  names := by
    intro p hp
    cases List.mem_append.mp hp with
    | inl hp => exact temp.rootNames p hp
    | inr hp =>
        rw [List.mem_singleton.mp hp]
        exact temp.isName t
  ne_nil := by simp

/-- Every directory on the way is there. -/
def isDirPath (t : Tree) (path : List GoString) : Bool :=
  path.inits.all fun p => p = [] ∨ t.get? p = some .dir

/-- {lit}`os.MkdirAll` of `rest` below `done`, with what it leaves behind when it fails. -/
def makeDirs (done : List GoString) : List GoString → Tree → Tree × Bool
  | [], t => (t, true)
  | part :: rest, t =>
      if '\x00' ∈ part then (t, false)
      else
        match t.get? (done ++ [part]) with
        | some (.file _ _) => (t, false)
        | some .dir => makeDirs (done ++ [part]) rest t
        | none => makeDirs (done ++ [part]) rest (t.insert (done ++ [part]) .dir)

/-- {lit}`os.OpenFile` that creates or truncates a file. -/
def openFile (host : Host) (t : Tree) (path : List GoString) (mode : Nat) : Tree × Bool :=
  match createFile host t path mode [] with
  | none => (t, false)
  | some t => (t, true)

/-- Append a byte to an open file. -/
def appendByte (t : Tree) (path : List GoString) (byte : Char) : Tree :=
  match t.get? path with
  | some (.file mode content) => t.insert path (.file mode (content ++ [byte]))
  | _ => t

/-- {lit}`os.RemoveAll`. -/
def removeAll (t : Tree) (path : List GoString) : Tree where
  entries := t.entries.filter fun e => ¬path <+: e.1
  nodup := t.nodup.sublist (List.filter_sublist.map Prod.fst)

/-! ## Calls -/

/-- The calls of an extraction. -/
inductive Call where
  | openArchive
  | mkdirTemp
  | readHeader
  | mkdirAll (target : GoString)
  | openFile (target : GoString) (mode : Nat)
  | openEntry
  | write (target : GoString) (byte : Char)
  | endOfEntry
  | removeAll (target : GoString)
deriving DecidableEq

/-- What a call answers. -/
abbrev Answer : Call → Type
  | .mkdirTemp => Option GoString
  | .mkdirAll _ | .openFile _ _ => Bool
  | _ => Unit

/-- Carry out a call. -/
def Disk.exec (host : Host) (temp : TempDirs) (s : Disk) : (c : Call) → Disk × Answer c
  | .mkdirTemp =>
      if isDirPath s.tree temp.root then
        ({ s with tree := s.tree.insert (temp.next s.tree).parts .dir },
          some (temp.next s.tree).path)
      else (s, none)
  | .mkdirAll target =>
      let (tree, ok) := makeDirs [] (elements target) s.tree
      ({ s with tree := tree, processed := s.processed + if ok then 1 else 0 }, ok)
  | .openFile target mode =>
      let (tree, ok) := Extraction.openFile host s.tree (elements target) mode
      ({ s with tree := tree }, ok)
  | .write target byte =>
      ({ s with tree := appendByte s.tree (elements target) byte, written := s.written + 1 }, ())
  | .removeAll target => ({ s with tree := Extraction.removeAll s.tree (elements target) }, ())
  | .openArchive => (s, ())
  | .readHeader => (s, ())
  | .openEntry => (s, ())
  | .endOfEntry => (s, ())

/-- Every call can fail except the removal of the directory, whose error the code does not
look at. -/
def fallible : Call → Bool
  | .removeAll _ => false
  | _ => true

/-- The host as a machine. -/
def machine (host : Host) (temp : TempDirs) : Machine Disk Call Answer :=
  ⟨Disk.exec host temp, fallible⟩

/-- A program of calls. -/
abbrev Body := Prog Call Answer

/-- A single call. -/
def send (c : Call) : Body (Option (Answer c)) :=
  Prog.call c

/-! ## The extractors -/

/-- What an extraction returns: the directory or an error. -/
abbrev Result := Except ExtractError GoString

/-- In what the extractors differ: the permission bits of files, whether the archive is
read header by header, and whether an entry is opened before it is read. -/
structure Extractor where
  fileMode : ArchiveEntry → Nat
  readsHeaders : Bool
  opensEntries : Bool

/-- The checks on an entry's name: the path to create, if the entry is not skipped. -/
def targetOf (destDir name : GoString) : Option GoString :=
  let cleanName := clean name
  if hasDotDot cleanName then none
  else if isAbs cleanName then none
  else
    let target := joinPath destDir cleanName
    if clean destDir ++ ['/'] <+: target then some target else none

/-- Remove the directory and return an error. -/
def removeAndFail (destDir : GoString) (err : ExtractError) : Body Result := do
  let _ ← send (.removeAll destDir)
  return .error err

/-- {lit}`io.Copy` of what the reader delivers. -/
def copyBytes (target : GoString) : GoString → Body Bool
  | [] => do
      match ← send .endOfEntry with
      | none => return false
      | some _ => return true
  | byte :: bytes => do
      match ← send (.write target byte) with
      | none => return false
      | some _ => copyBytes target bytes

/-- Open an entry, for the extractor that does so. -/
def openEntry (x : Extractor) : Body Bool := do
  if x.opensEntries then
    match ← send .openEntry with
    | none => return false
    | some _ => return true
  else return true

/-- Create the file of an entry below its parent directories and copy the content. -/
def extractFile (x : Extractor) (cfg : Config) (destDir target : GoString) (e : ArchiveEntry)
    (next : Body Result) : Body Result := do
  match ← send (.mkdirAll (dir target)) with
  | some true =>
      match ← send (.openFile target (x.fileMode e)) with
      | some true =>
          match ← openEntry x with
          | false => removeAndFail destDir .openEntry
          | true =>
              match ← copyBytes target (limitedBody cfg e) with
              | false => removeAndFail destDir .extractFile
              | true => next
      | _ => removeAndFail destDir .createFile
  | _ => removeAndFail destDir .createDirectory

/-- Extract one entry and go on with the counters. -/
def extractOne (x : Extractor) (cfg : Config) (destDir : GoString) (e : ArchiveEntry)
    (fileCount : Nat) (totalSize : Int) (next : Nat → Int → Body Result) : Body Result :=
  match targetOf destDir e.name with
  | none => next fileCount totalSize
  | some target =>
      match e.kind with
      | .other => next fileCount totalSize
      | .dir =>
          if fileCount + 1 > cfg.maxArchiveFileCount then removeAndFail destDir .tooManyFiles
          else do
            match ← send (.mkdirAll target) with
            | some true => next (fileCount + 1) totalSize
            | _ => removeAndFail destDir .createDirectory
      | .file =>
          if fileCount + 1 > cfg.maxArchiveFileCount then removeAndFail destDir .tooManyFiles
          else if int64 (totalSize + int64 e.size) > cfg.maxArchiveSize then
            removeAndFail destDir .tooLarge
          else
            extractFile x cfg destDir target e
              (next (fileCount + 1) (int64 (totalSize + int64 e.size)))

/-- Read the next header, for the extractor that does so. -/
def afterHeader (x : Extractor) (destDir : GoString) (next : Body Result) : Body Result :=
  if x.readsHeaders then do
    match ← send .readHeader with
    | none => removeAndFail destDir .unreadableArchive
    | some _ => next
  else next

/-- The loop over the entries. -/
def extractLoop (x : Extractor) (cfg : Config) (destDir : GoString) :
    List ArchiveEntry → Nat → Int → Body Result
  | [], _, _ => afterHeader x destDir (return .ok destDir)
  | e :: entries, fileCount, totalSize =>
      afterHeader x destDir
        (extractOne x cfg destDir e fileCount totalSize (extractLoop x cfg destDir entries))

/-- Open the archive, create the directory and extract all entries. -/
def extract (x : Extractor) (cfg : Config) (entries : List ArchiveEntry) : Body Result := do
  match ← send .openArchive with
  | none => return .error .unreadableArchive
  | some _ =>
      match ← send .mkdirTemp with
      | some (some destDir) => extractLoop x cfg destDir entries 0 0
      | _ => return .error .tempDirectory

/-- {lit}`extractZip`. -/
def extractZip : Config → List ArchiveEntry → Body Result :=
  extract ⟨zipFileMode, false, true⟩

/-- {lit}`extractTarball`. -/
def extractTarball : Config → List ArchiveEntry → Body Result :=
  extract ⟨tarFileMode, true, false⟩

/-- The limits with the defaults that {lit}`New` sets for those that are not positive. -/
def newConfig (cfg : Config) : Config where
  diffSizeLimit := if cfg.diffSizeLimit ≤ 0 then 150 * 1024 else cfg.diffSizeLimit
  maxArchiveFileCount :=
    if cfg.maxArchiveFileCount ≤ 0 then 50000 else cfg.maxArchiveFileCount
  maxArchiveSize := if cfg.maxArchiveSize ≤ 0 then 500 * 1024 * 1024 else cfg.maxArchiveSize
  maxFileExtractSize :=
    if cfg.maxFileExtractSize ≤ 0 then 50 * 1024 * 1024 else cfg.maxFileExtractSize
  maxFileReadSize := if cfg.maxFileReadSize ≤ 0 then 1024 * 1024 else cfg.maxFileReadSize

/-! ## What the calls do to the file system -/

/-- The elements of an absolute path of proper names. -/
theorem elements_join {parts : List GoString} (hparts : ∀ p ∈ parts, IsName p)
    (hne : parts ≠ []) : elements ('/' :: join '/' parts) = parts := by
  have hsplit : split '/' ('/' :: join '/' parts) = [] :: parts := by
    have hroot := split_append_cons '/' [] (join '/' parts)
    rw [split_join (slash_notMem_of_names hparts) hne] at hroot
    simpa [split] using hroot
  have hkeep : parts.filter (· ≠ []) = parts := by
    rw [List.filter_eq_self]
    intro p hp
    simpa using (hparts p hp).1
  rw [elements, hsplit, List.filter_cons_of_neg (by simp), hkeep]

/-- Creating directories changes only what is missing on the way. -/
theorem makeDirs_get? (done rest : List GoString) (t : Tree) (q : List GoString) :
    (makeDirs done rest t).1.get? q = t.get? q ∨
      (t.get? q = none ∧ (makeDirs done rest t).1.get? q = some .dir ∧
        ∃ pre, pre ≠ [] ∧ pre <+: rest ∧ q = done ++ pre) := by
  induction rest generalizing done t with
  | nil => exact Or.inl rfl
  | cons part rest ih =>
      have hdeeper : (∃ pre, pre ≠ [] ∧ pre <+: rest ∧ q = done ++ [part] ++ pre) →
          ∃ pre, pre ≠ [] ∧ pre <+: part :: rest ∧ q = done ++ pre := by
        rintro ⟨pre, _, hpre, rfl⟩
        exact ⟨part :: pre, by simp, List.cons_prefix_cons.mpr ⟨rfl, hpre⟩, by simp⟩
      rw [makeDirs]
      split_ifs
      · exact Or.inl rfl
      split
      · exact Or.inl rfl
      · apply (ih (done ++ [part]) t).imp_right
        rintro ⟨hnone, hdir, hpre⟩
        exact ⟨hnone, hdir, hdeeper hpre⟩
      · rename_i hmissing
        by_cases hq : q = done ++ [part]
        · subst hq
          right
          refine ⟨hmissing, ?_, [part], by simp, by simp, rfl⟩
          cases ih (done ++ [part]) (t.insert (done ++ [part]) .dir) with
          | inl hsame => rw [hsame, Table.get?_insert_self]
          | inr hnew => exact hnew.2.1
        · cases ih (done ++ [part]) (t.insert (done ++ [part]) .dir) with
          | inl hsame =>
              left
              rw [hsame, Table.get?_insert_of_ne hq]
          | inr hnew =>
              right
              rw [Table.get?_insert_of_ne hq] at hnew
              exact ⟨hnew.1, hnew.2.1, hdeeper hnew.2.2⟩

/-- Opening a file changes nothing else and no directory. -/
theorem openFile_get? (host : Host) (t : Tree) (path : List GoString) (mode : Nat)
    (q : List GoString) :
    (openFile host t path mode).1.get? q = t.get? q ∨ (q = path ∧ t.get? path ≠ some .dir) := by
  by_cases hq : q = path
  · subst hq
    by_cases hdir : t.get? q = some .dir
    · left
      unfold openFile createFile
      split_ifs
      · rfl
      · simp [hdir]
    · exact Or.inr ⟨rfl, hdir⟩
  · left
    unfold openFile createFile
    split_ifs
    · rfl
    · cases hget : t.get? path with
      | none => simp [Table.get?_insert_of_ne hq]
      | some node =>
          cases node with
          | dir => rfl
          | file old content =>
              dsimp only
              by_cases hwrite : host.canWrite old = true
              · simp [hwrite, Table.get?_insert_of_ne hq]
              · simp [hwrite]

/-- Writing to a file changes nothing else and no directory. -/
theorem appendByte_get? (t : Tree) (path : List GoString) (byte : Char) (q : List GoString) :
    (appendByte t path byte).get? q = t.get? q ∨ (q = path ∧ t.get? path ≠ some .dir) := by
  unfold appendByte
  split
  · rename_i mode content hfile
    by_cases hq : q = path
    · right
      refine ⟨hq, ?_⟩
      rw [hfile]
      simp
    · left
      rw [Table.get?_insert_of_ne hq]
  · exact Or.inl rfl

/-- Removing a directory removes what lies at and below it. -/
theorem removeAll_get? (t : Tree) (path q : List GoString) :
    (removeAll t path).get? q = if path <+: q then none else t.get? q := by
  apply Option.ext
  intro node
  rw [Table.get?_eq_some_iff]
  split_ifs with hpre
  · simp [removeAll, hpre]
  · rw [Table.get?_eq_some_iff]
    simp [removeAll, hpre]

/-! ## Targets -/

/-- The path that an entry creates, as an absolute path below the directory. -/
theorem target_eq (dest : TempDir) {name target : GoString}
    (htarget : targetOf dest.path name = some target) :
    ∃ rel, rel ≠ [] ∧ (∀ p ∈ rel, IsName p) ∧
      target = '/' :: join '/' (dest.parts ++ rel) := by
  have hsame : entryTarget dest.path name = (targetOf dest.path name).map
      fun target => split '/' (target.drop (clean dest.path ++ ['/']).length) := by
    unfold entryTarget targetOf
    dsimp only
    split_ifs <;> rfl
  obtain ⟨rel, hrel⟩ : ∃ rel, entryTarget dest.path name = some rel := by
    rw [hsame, htarget]
    exact ⟨_, rfl⟩
  obtain ⟨hne, hnames, hclean⟩ := names_of_entryTarget dest hrel
  refine ⟨rel, hne, hnames, ?_⟩
  unfold targetOf at htarget
  dsimp only at htarget
  split_ifs at htarget
  rw [← Option.some.inj htarget, hclean, TempDir.path,
    joinPath_join dest.names dest.ne_nil hnames hne,
    join_append (slash_notMem_of_names dest.names) (slash_notMem_of_names hnames) dest.ne_nil hne]
  rfl

/-- Names below the directory. -/
theorem names_append (dest : TempDir) {rel : List GoString} (hrel : ∀ p ∈ rel, IsName p) :
    ∀ p ∈ dest.parts ++ rel, IsName p := by
  intro p hp
  cases List.mem_append.mp hp with
  | inl hp => exact dest.names p hp
  | inr hp => exact hrel p hp

/-- The elements of a target and of its parent directory. -/
theorem elements_target (dest : TempDir) {name target : GoString}
    (htarget : targetOf dest.path name = some target) :
    (∃ rel, rel ≠ [] ∧ elements target = dest.parts ++ rel) ∧
      ∃ rel, elements (dir target) = dest.parts ++ rel := by
  obtain ⟨rel, hne, hnames, rfl⟩ := target_eq dest htarget
  constructor
  · exact ⟨rel, hne, elements_join (names_append dest hnames) (by simp [hne])⟩
  · have hfront : ∀ p ∈ rel.dropLast, IsName p := fun p hp => hnames p (List.mem_of_mem_dropLast hp)
    have hparts := names_append dest hfront
    have hnonempty : dest.parts ++ rel.dropLast ≠ [] := by simp [dest.ne_nil]
    have hlast : IsName (rel.getLast hne) := hnames _ (List.getLast_mem hne)
    refine ⟨rel.dropLast, ?_⟩
    rw [← List.dropLast_append_getLast hne, ← List.append_assoc, dir_join hparts hnonempty hlast,
      elements_join hparts hnonempty, List.dropLast_append_getLast hne]

theorem elements_path (dest : TempDir) : elements dest.path = dest.parts :=
  elements_join dest.names dest.ne_nil

/-! ## The invariant -/

/-- The entry is a regular file that is not skipped. -/
def isAccepted (e : ArchiveEntry) : Bool :=
  e.kind = .file && !isAbs (clean e.name) && !hasDotDot (clean e.name) && clean e.name ≠ ['.']

/-- The sum of the declared sizes of the accepted entries. -/
def declared (entries : List ArchiveEntry) : Nat :=
  ((entries.filter isAccepted).map (·.size)).sum

/-- No accepted entry that comes while the sum is within the limit takes the sum out of
the range of {lit}`int64`. -/
def NoWrap (cfg : Config) (entries : List ArchiveEntry) : Prop :=
  ∀ pre e post, entries = pre ++ e :: post → isAccepted e = true →
    declared pre ≤ cfg.maxArchiveSize → declared pre + e.size < 2 ^ 63

/-- What holds at every moment: outside the directory everything is as before, the
directory itself is not a file, and the limits are kept. -/
structure Confined (cfg : Config) (entries : List ArchiveEntry) (t : Tree) (dest : TempDir)
    (s : Disk) : Prop where
  outside : ∀ path, ¬dest.parts <+: path → s.tree.get? path = t.get? path
  root : ∀ mode content, s.tree.get? dest.parts ≠ some (.file mode content)
  count : s.processed ≤ cfg.maxArchiveFileCount
  size : NoWrap cfg entries → s.written ≤ cfg.maxArchiveSize

/-- What holds at the end: after an error everything is as before. -/
def Restored (t : Tree) (s : Disk) : Result → Prop
  | .ok _ => True
  | .error _ => ∀ path, s.tree.get? path = t.get? path

/-- What holds between the calls of the loop: the directory is there, at most `n` entries
were processed, and the bytes written are within `room`. -/
structure Extracting (cfg : Config) (entries : List ArchiveEntry) (t : Tree) (dest : TempDir)
    (n : Nat) (room : Int) (s : Disk) : Prop where
  outside : ∀ path, ¬dest.parts <+: path → s.tree.get? path = t.get? path
  dirs : ∀ path, path <+: dest.parts → path ≠ [] → s.tree.get? path = some .dir
  processed : s.processed ≤ n
  count : n ≤ cfg.maxArchiveFileCount
  size : NoWrap cfg entries → s.written ≤ room ∧ room ≤ cfg.maxArchiveSize

section Extraction

variable {host : Host} {temp : TempDirs} {cfg : Config} {entries : List ArchiveEntry}
  {t : Tree} {dest : TempDir} {n : Nat} {room : Int} {s : Disk}

theorem Extracting.confined (hs : Extracting cfg entries t dest n room s) :
    Confined cfg entries t dest s where
  outside := hs.outside
  root mode content := by
    rw [hs.dirs dest.parts (List.prefix_refl _) dest.ne_nil]
    simp
  count := by
    have hcount := hs.count
    have hprocessed := hs.processed
    omega
  size hwrap := by
    obtain ⟨hwritten, hroom⟩ := hs.size hwrap
    omega

/-- A change below the directory keeps the invariant. -/
theorem Extracting.change (hs : Extracting cfg entries t dest n room s) {s' : Disk} {n' : Nat}
    {room' : Int}
    (hdirs : ∀ q, s.tree.get? q = some .dir → s'.tree.get? q = some .dir)
    (hchange : ∀ q, s'.tree.get? q ≠ s.tree.get? q → q <+: dest.parts ∨ dest.parts <+: q)
    (hprocessed : s'.processed ≤ n') (hcount : n' ≤ cfg.maxArchiveFileCount)
    (hsize : NoWrap cfg entries → s'.written ≤ room' ∧ room' ≤ cfg.maxArchiveSize)
    (hroot : s'.tree.get? [] = s.tree.get? []) :
    Extracting cfg entries t dest n' room' s' where
  outside path hpath := by
    rw [← hs.outside path hpath]
    by_contra hne
    cases hchange path hne with
    | inl hbefore =>
        by_cases hnil : path = []
        · subst hnil
          exact hne hroot
        · have hdir := hs.dirs path hbefore hnil
          exact hne ((hdirs path hdir).trans hdir.symm)
    | inr hbelow => exact hpath hbelow
  dirs path hpath hnil := hdirs path (hs.dirs path hpath hnil)
  processed := hprocessed
  count := hcount
  size := hsize

/-! ## The invariant along the calls -/

/-- A path through the directory is above or below it. -/
theorem prefix_or_of_append {rel q : List GoString} (hq : q <+: dest.parts ++ rel) :
    q <+: dest.parts ∨ dest.parts <+: q :=
  List.prefix_or_prefix_of_prefix hq (List.prefix_append dest.parts rel)

theorem Extracting.mkdirAll (hs : Extracting cfg entries t dest n room s) {target : GoString}
    {rel : List GoString} (htarget : elements target = dest.parts ++ rel)
    (hcount : (n + 1 : Nat) ≤ cfg.maxArchiveFileCount) :
    Extracting cfg entries t dest (n + 1) room (s.exec host temp (.mkdirAll target)).1 := by
  have hget := makeDirs_get? [] (elements target) s.tree
  apply hs.change
  · intro q hq
    cases hget q with
    | inl hsame => exact hsame.trans hq
    | inr hnew =>
        rw [hq] at hnew
        cases hnew.1
  · intro q hne
    cases hget q with
    | inl hsame => exact absurd hsame hne
    | inr hnew =>
        obtain ⟨_, _, pre, _, hpre, rfl⟩ := hnew
        rw [htarget] at hpre
        exact prefix_or_of_append hpre
  · have hprocessed := hs.processed
    simp only [Disk.exec]
    split_ifs <;> omega
  · exact hcount
  · exact hs.size
  · cases hget [] with
    | inl hsame => exact hsame
    | inr hnew =>
        obtain ⟨_, _, pre, hpre, _, hnil⟩ := hnew
        exact absurd hnil.symm hpre

/-- A change of one file below the directory keeps the invariant. -/
theorem Extracting.touch (hs : Extracting cfg entries t dest n room s) {s' : Disk}
    {path rel : List GoString} (hpath : path = dest.parts ++ rel)
    (hget : ∀ q, s'.tree.get? q = s.tree.get? q ∨ (q = path ∧ s.tree.get? path ≠ some .dir))
    (hprocessed : s'.processed = s.processed)
    (hsize : NoWrap cfg entries → s'.written ≤ room) :
    Extracting cfg entries t dest n room s' := by
  apply hs.change
  · intro q hq
    cases hget q with
    | inl hsame => exact hsame.trans hq
    | inr hnew =>
        obtain ⟨rfl, hdir⟩ := hnew
        exact absurd hq hdir
  · intro q hne
    cases hget q with
    | inl hsame => exact absurd hsame hne
    | inr hnew =>
        right
        rw [hnew.1, hpath]
        exact List.prefix_append _ _
  · rw [hprocessed]
    exact hs.processed
  · exact hs.count
  · intro hwrap
    exact ⟨hsize hwrap, (hs.size hwrap).2⟩
  · cases hget [] with
    | inl hsame => exact hsame
    | inr hnew =>
        rw [hpath] at hnew
        exact absurd (List.append_eq_nil_iff.mp hnew.1.symm).1 dest.ne_nil

theorem Extracting.openFile (hs : Extracting cfg entries t dest n room s) {target : GoString}
    {rel : List GoString} (htarget : elements target = dest.parts ++ rel) (mode : Nat) :
    Extracting cfg entries t dest n room (s.exec host temp (.openFile target mode)).1 :=
  hs.touch htarget (openFile_get? host s.tree (elements target) mode) rfl
    fun hwrap => (hs.size hwrap).1

/-- A byte written takes room for one. -/
theorem Extracting.write (hs : Extracting cfg entries t dest n room s) {target : GoString}
    {rel : List GoString} (htarget : elements target = dest.parts ++ rel) (byte : Char)
    (hroom : NoWrap cfg entries → s.written + 1 ≤ room) :
    Extracting cfg entries t dest n room (s.exec host temp (.write target byte)).1 :=
  hs.touch htarget (appendByte_get? s.tree (elements target) byte) rfl hroom

/-- After the removal of the directory everything is as before. -/
theorem always_removeAndFail (hs : Extracting cfg entries t dest n room s)
    (hfresh : ∀ path, dest.parts <+: path → t.get? path = none) (err : ExtractError) :
    (machine host temp).Always (Confined cfg entries t dest) (Restored t)
      (removeAndFail dest.path err) s := by
  have hrestored : ∀ q, (removeAll s.tree (elements dest.path)).get? q = t.get? q := by
    intro q
    rw [removeAll_get?, elements_path]
    split_ifs with hpre
    · exact (hfresh q hpre).symm
    · exact hs.outside q hpre
  have hconfined := hs.confined
  refine ⟨hconfined, ⟨⟨fun q _ => hrestored q, fun mode content => ?_, hconfined.count,
    hconfined.size⟩, hrestored⟩, fun hfallible => ?_⟩
  · change (removeAll s.tree (elements dest.path)).get? dest.parts ≠ _
    rw [hrestored, hfresh dest.parts (List.prefix_refl _)]
    simp
  · cases hfallible

/-- Copying keeps the invariant as long as there is room for all bytes. -/
theorem always_copyBytes {target : GoString} {rel : List GoString}
    (htarget : elements target = dest.parts ++ rel) (bytes : GoString)
    (hs : Extracting cfg entries t dest n room s)
    (hroom : NoWrap cfg entries → s.written + bytes.length ≤ room) :
    (machine host temp).Always (Confined cfg entries t dest)
      (fun s _ => Extracting cfg entries t dest n room s) (copyBytes target bytes) s := by
  induction bytes generalizing s with
  | nil => exact ⟨hs.confined, ⟨hs.confined, hs⟩, fun _ => ⟨hs.confined, hs⟩⟩
  | cons byte bytes ih =>
      have hone : NoWrap cfg entries → (s.written : Int) + 1 ≤ room := by
        intro hwrap
        have hall := hroom hwrap
        rw [List.length_cons] at hall
        omega
      have hnext : Extracting cfg entries t dest n room
          (s.exec host temp (.write target byte)).1 := hs.write htarget byte hone
      refine ⟨hs.confined, ih hnext ?_, fun _ => ⟨hs.confined, hs⟩⟩
      intro hwrap
      have hall := hroom hwrap
      rw [List.length_cons] at hall
      change ((s.written + 1 : Nat) : Int) + bytes.length ≤ room
      omega

/-- More room, within the limit. -/
theorem Extracting.grow (hs : Extracting cfg entries t dest n room s) {room' : Int}
    (hroom : NoWrap cfg entries → room ≤ room' ∧ room' ≤ cfg.maxArchiveSize) :
    Extracting cfg entries t dest n room' s where
  outside := hs.outside
  dirs := hs.dirs
  processed := hs.processed
  count := hs.count
  size hwrap := by
    obtain ⟨hwritten, _⟩ := hs.size hwrap
    obtain ⟨hle, hmax⟩ := hroom hwrap
    omega

/-- The accepted entries are the regular files with a target. -/
theorem isAccepted_eq (dest : TempDir) (e : ArchiveEntry) :
    isAccepted e = (e.kind = .file && (targetOf dest.path e.name).isSome) := by
  have hsame : (targetOf dest.path e.name).isSome = (entryTarget dest.path e.name).isSome := by
    unfold entryTarget targetOf
    dsimp only
    split_ifs <;> rfl
  have hiff := fun path => @entryTarget_eq_some_iff dest e.name path
  rw [Bool.eq_iff_iff, hsame]
  simp only [isAccepted, Bool.and_eq_true, decide_eq_true_eq, Bool.not_eq_true',
    Option.isSome_iff_exists, hiff]
  constructor
  · rintro ⟨⟨⟨hkind, habs⟩, hdots⟩, hdot⟩
    exact ⟨hkind, _, habs, hdots, hdot, rfl⟩
  · rintro ⟨hkind, _, habs, hdots, hdot, _⟩
    exact ⟨⟨⟨hkind, habs⟩, hdots⟩, hdot⟩

/-- One more entry. -/
theorem declared_append (done : List ArchiveEntry) (e : ArchiveEntry) :
    declared (done ++ [e]) = declared done + if isAccepted e = true then e.size else 0 := by
  unfold declared
  rw [List.filter_append, List.map_append, List.sum_append]
  split_ifs with haccepted
  · simp [haccepted]
  · simp [haccepted]

section Loop

variable {x : Extractor} (hfresh : ∀ path, dest.parts <+: path → t.get? path = none)
include hfresh

/-- Reading a header keeps the invariant. -/
theorem always_afterHeader {next : Body Result} (hs : Extracting cfg entries t dest n room s)
    (hnext : (machine host temp).Always (Confined cfg entries t dest) (Restored t) next s) :
    (machine host temp).Always (Confined cfg entries t dest) (Restored t)
      (afterHeader x dest.path next) s := by
  unfold afterHeader
  split_ifs
  · exact ⟨hs.confined, hnext, fun _ => always_removeAndFail hs hfresh _⟩
  · exact hnext

omit hfresh in
/-- Opening an entry changes nothing. -/
theorem always_openEntry (hs : Extracting cfg entries t dest n room s) :
    (machine host temp).Always (Confined cfg entries t dest) (fun s' _ => s' = s)
      (openEntry x) s := by
  unfold openEntry
  split_ifs
  · exact ⟨hs.confined, ⟨hs.confined, rfl⟩, fun _ => ⟨hs.confined, rfl⟩⟩
  · exact ⟨hs.confined, rfl⟩

/-- Extracting a file keeps the invariant when there is room for its bytes. -/
theorem always_extractFile {e : ArchiveEntry} {target : GoString} {next : Body Result}
    (htarget : targetOf dest.path e.name = some target) {room' : Int}
    (hs : Extracting cfg entries t dest n room s)
    (hcount : (n + 1 : Nat) ≤ cfg.maxArchiveFileCount)
    (hroom : NoWrap cfg entries → room + (limitedBody cfg e).length ≤ room' ∧
      room' ≤ cfg.maxArchiveSize)
    (hnext : ∀ s, Extracting cfg entries t dest (n + 1) room' s →
      (machine host temp).Always (Confined cfg entries t dest) (Restored t) next s) :
    (machine host temp).Always (Confined cfg entries t dest) (Restored t)
      (extractFile x cfg dest.path target e next) s := by
  obtain ⟨⟨rel, _, hfile⟩, ⟨parent, hparent⟩⟩ := elements_target dest htarget
  have hmade : Extracting cfg entries t dest (n + 1) room
      (s.exec host temp (.mkdirAll (dir target))).1 := hs.mkdirAll hparent hcount
  have hopened : Extracting cfg entries t dest (n + 1) room
      (((s.exec host temp (.mkdirAll (dir target))).1.exec host temp
        (.openFile target (x.fileMode e))).1) := hmade.openFile hfile _
  apply Machine.Always.command hs.confined _ (always_removeAndFail hs hfresh _)
  intro made
  cases made with
  | false => exact always_removeAndFail hmade hfresh _
  | true =>
      apply Machine.Always.command hmade.confined _ (always_removeAndFail hmade hfresh _)
      intro opened
      cases opened with
      | false => exact always_removeAndFail hopened hfresh _
      | true =>
          apply Machine.Always.bind (p := openEntry x)
          apply (always_openEntry hopened).mono
          rintro s' entryOpen rfl
          cases entryOpen with
          | false => exact always_removeAndFail hopened hfresh _
          | true =>
              apply Machine.Always.bind (p := copyBytes target (limitedBody cfg e))
              have hgrown : Extracting cfg entries t dest (n + 1) room' _ :=
                hopened.grow fun hwrap => ⟨by have := hroom hwrap; omega, (hroom hwrap).2⟩
              apply (always_copyBytes hfile (limitedBody cfg e) hgrown _).mono
              · intro s' copied hs'
                cases copied with
                | false => exact always_removeAndFail hs' hfresh _
                | true => exact hnext s' hs'
              · intro hwrap
                have hwritten := (hopened.size hwrap).1
                have hle := (hroom hwrap).1
                omega

/-- Extracting an entry keeps the invariant, and without a wrap the total stays the sum of
the declared sizes. -/
theorem always_extractOne {e : ArchiveEntry} {done rest : List ArchiveEntry}
    {next : Nat → Int → Body Result} (hsplit : entries = done ++ e :: rest)
    (hbody : e.body.length ≤ e.size) (hs : Extracting cfg entries t dest n room s)
    (htotal : NoWrap cfg entries → room = declared done)
    (hnext : ∀ n room s, Extracting cfg entries t dest n room s →
      (NoWrap cfg entries → room = declared (done ++ [e])) →
      (machine host temp).Always (Confined cfg entries t dest) (Restored t) (next n room) s) :
    (machine host temp).Always (Confined cfg entries t dest) (Restored t)
      (extractOne x cfg dest.path e n room next) s := by
  have hskip : isAccepted e = false → (NoWrap cfg entries → room = declared (done ++ [e])) := by
    intro hskipped hwrap
    rw [declared_append, htotal hwrap, hskipped]
    simp
  unfold extractOne
  cases htarget : targetOf dest.path e.name with
  | none =>
      apply hnext n room s hs
      apply hskip
      rw [isAccepted_eq dest, htarget]
      simp
  | some target =>
      cases hkind : e.kind with
      | other =>
          apply hnext n room s hs
          apply hskip
          rw [isAccepted_eq dest, hkind]
          simp
      | dir =>
          dsimp only
          split_ifs with hmany
          · exact always_removeAndFail hs hfresh _
          · obtain ⟨⟨rel, _, hrel⟩, _⟩ := elements_target dest htarget
            have hmade : Extracting cfg entries t dest (n + 1) room
                (s.exec host temp (.mkdirAll target)).1 := hs.mkdirAll hrel (by omega)
            apply Machine.Always.command hs.confined _ (always_removeAndFail hs hfresh _)
            intro made
            cases made with
            | false => exact always_removeAndFail hmade hfresh _
            | true =>
                apply hnext (n + 1) room _ hmade
                apply hskip
                rw [isAccepted_eq dest, hkind]
                simp
      | file =>
          dsimp only
          split_ifs with hmany hlarge
          · exact always_removeAndFail hs hfresh _
          · exact always_removeAndFail hs hfresh _
          · have haccepted : isAccepted e = true := by
              rw [isAccepted_eq dest, htarget, hkind]
              rfl
            have hexact : NoWrap cfg entries →
                int64 (room + int64 e.size) = room + e.size := by
              intro hwrap
              have hroom := (hs.size hwrap).2
              have hrange := hwrap done e rest hsplit haccepted (by rw [← htotal hwrap]; exact hroom)
              have heq := htotal hwrap
              have hsize : int64 e.size = e.size := int64_of_range (by omega) (by omega)
              rw [hsize]
              exact int64_of_range (by omega) (by omega)
            have hroom : NoWrap cfg entries →
                room + (limitedBody cfg e).length ≤ int64 (room + int64 e.size) ∧
                  int64 (room + int64 e.size) ≤ cfg.maxArchiveSize := by
              intro hwrap
              have hbytes : (limitedBody cfg e).length ≤ e.body.length := by
                unfold limitedBody
                exact List.length_take_le' _ _
              rw [hexact hwrap] at hlarge ⊢
              omega
            apply always_extractFile hfresh htarget hs (by omega) hroom
            intro s' hs'
            apply hnext _ _ _ hs'
            intro hwrap
            rw [hexact hwrap, declared_append, htotal hwrap, haccepted]
            simp

/-- The loop keeps the invariant. -/
theorem always_extractLoop {rest done : List ArchiveEntry} (hsplit : entries = done ++ rest)
    (hbodies : ∀ e ∈ entries, e.body.length ≤ e.size)
    (hs : Extracting cfg entries t dest n room s)
    (htotal : NoWrap cfg entries → room = declared done) :
    (machine host temp).Always (Confined cfg entries t dest) (Restored t)
      (extractLoop x cfg dest.path rest n room) s := by
  induction rest generalizing done n room s with
  | nil => exact always_afterHeader hfresh hs ⟨hs.confined, trivial⟩
  | cons e rest ih =>
      apply always_afterHeader hfresh hs
      apply always_extractOne hfresh hsplit (hbodies e (by simp [hsplit])) hs htotal
      intro n' room' s' hs' htotal'
      exact ih (by simp [hsplit]) hs' htotal'

end Loop

end Extraction

/-! ## Whole extractions -/

/-- The limits of a differ are positive. -/
theorem newConfig_pos (cfg : Config) :
    0 < (newConfig cfg).maxArchiveFileCount ∧ 0 < (newConfig cfg).maxArchiveSize := by
  unfold newConfig
  dsimp only
  constructor <;> split_ifs <;> omega

/-- The new directory is in place and empty. -/
theorem extracting_mkdirTemp {temp : TempDirs} {cfg : Config} {entries : List ArchiveEntry}
    {t : Tree} (hroot : isDirPath t temp.root = true) :
    Extracting (newConfig cfg) entries t (temp.next t) 0 0
      ⟨t.insert (temp.next t).parts .dir, 0, 0⟩ where
  outside path hpath := by
    apply Table.get?_insert_of_ne
    rintro rfl
    exact hpath (List.prefix_refl _)
  dirs path hpath hnil := by
    by_cases hself : path = (temp.next t).parts
    · rw [hself, Table.get?_insert_self]
    · rw [Table.get?_insert_of_ne hself]
      have habove : path <+: temp.root := by
        cases List.prefix_concat_iff.mp hpath with
        | inl heq => exact absurd heq hself
        | inr hroot => exact hroot
      have hall := List.all_eq_true.mp hroot path ((List.mem_inits _ _).mpr habove)
      simpa [hnil] using hall
  processed := le_refl 0
  count := by
    have hpos := (newConfig_pos cfg).1
    omega
  size _ := by
    have hpos := (newConfig_pos cfg).2
    exact ⟨le_refl 0, by omega⟩

/-- An extraction keeps the invariant from its first call on. -/
theorem always_extract {host : Host} {temp : TempDirs} {cfg : Config} {x : Extractor}
    {entries : List ArchiveEntry} {t : Tree} (hbodies : ∀ e ∈ entries, e.body.length ≤ e.size) :
    (machine host temp).Always (Confined (newConfig cfg) entries t (temp.next t)) (Restored t)
      (extract x (newConfig cfg) entries) (Disk.start t) := by
  obtain ⟨hcount, hsize⟩ := newConfig_pos cfg
  have hfresh : ∀ path, (temp.next t).parts <+: path → t.get? path = none := temp.fresh t
  have hstart : Confined (newConfig cfg) entries t (temp.next t) (Disk.start t) := by
    refine ⟨fun _ _ => rfl, fun mode content hfile => ?_, ?_, fun _ => ?_⟩
    · change t.get? (temp.next t).parts = _ at hfile
      rw [hfresh _ (List.prefix_refl _)] at hfile
      cases hfile
    · change ((0 : Nat) : Int) ≤ _
      omega
    · change ((0 : Nat) : Int) ≤ _
      omega
  have hnothing (err : ExtractError) :
      (machine host temp).Always (Confined (newConfig cfg) entries t (temp.next t)) (Restored t)
        (.ret (.error err)) (Disk.start t) := ⟨hstart, fun _ => rfl⟩
  apply Machine.Always.command hstart _ (hnothing _)
  intro _
  refine ⟨hstart, ?_, fun _ => hnothing _⟩
  by_cases hroot : isDirPath t temp.root = true
  · have hexec : (machine host temp).exec (Disk.start t) .mkdirTemp =
        (⟨t.insert (temp.next t).parts .dir, 0, 0⟩, some (temp.next t).path) := by
      simp [machine, Disk.exec, Disk.start, hroot]
    rw [show (machine host temp).exec ((machine host temp).exec (Disk.start t) .openArchive).1
      .mkdirTemp = _ from hexec]
    exact always_extractLoop hfresh (List.nil_append entries).symm hbodies
      (extracting_mkdirTemp hroot) fun _ => rfl
  · have hexec : (machine host temp).exec (Disk.start t) .mkdirTemp = (Disk.start t, none) := by
      simp [machine, Disk.exec, Disk.start, hroot]
    rw [show (machine host temp).exec ((machine host temp).exec (Disk.start t) .openArchive).1
      .mkdirTemp = _ from hexec]
    exact hnothing _

/-- At every moment of an extraction nothing outside the fresh directory has changed, the
limits are kept as long as no declared size wraps the total, and after an error
everything is as before. -/
theorem confined_of_steps {host : Host} {temp : TempDirs} {cfg : Config} {x : Extractor}
    {entries : List ArchiveEntry} {t : Tree} (hbodies : ∀ e ∈ entries, e.body.length ≤ e.size)
    {p : Body Result} {s : Disk}
    (hsteps : (machine host temp).Steps (extract x (newConfig cfg) entries) (Disk.start t) p s) :
    Confined (newConfig cfg) entries t (temp.next t) s ∧
      ∀ err, p = .ret (.error err) → ∀ path, s.tree.get? path = t.get? path := by
  have halways := (always_extract hbodies).of_steps hsteps
  refine ⟨halways.now, ?_⟩
  rintro err rfl
  exact halways.2

/-! ## Two archives -/

/-- A name that is longer than all names of the file system together. -/
def freshName (t : Tree) : GoString :=
  List.replicate ((t.entries.map fun e => (e.1.map List.length).sum).sum + 1) 'x'

/-- Nothing below {lit}`/tmp` has that name. -/
theorem get?_freshName (t : Tree) (path : List GoString)
    (hpath : ["tmp".toList] ++ [freshName t] <+: path) : t.get? path = none := by
  cases hget : t.get? path with
  | none => rfl
  | some node =>
      have hentry := Table.get?_eq_some_iff.mp hget
      have hname : freshName t ∈ path := hpath.subset (by simp)
      have hpart : (freshName t).length ≤ (path.map List.length).sum :=
        List.le_sum_of_mem (List.mem_map_of_mem hname)
      have hsum : (path.map List.length).sum ≤
          (t.entries.map fun e => (e.1.map List.length).sum).sum :=
        List.le_sum_of_mem (List.mem_map.mpr ⟨_, hentry, rfl⟩)
      simp only [freshName, List.length_replicate] at hpart
      omega

/-- The fresh name is a name, and so is {lit}`tmp`. -/
theorem isName_freshName (t : Tree) : IsName (freshName t) := by
  have hx : 'x' ∈ freshName t := by simp [freshName]
  refine ⟨by simp [freshName], by simp [freshName], fun heq => ?_, fun heq => ?_⟩
  · rw [heq] at hx
    revert hx
    decide
  · rw [heq] at hx
    revert hx
    decide

theorem isName_tmp : ∀ p ∈ ["tmp".toList], IsName p := by
  decide

/-- Temporary directories below {lit}`/tmp`. -/
def tmpDirs : TempDirs where
  root := ["tmp".toList]
  name := freshName
  rootNames := isName_tmp
  isName := isName_freshName
  fresh := get?_freshName

/-- A host with a temporary directory and nothing else. -/
def emptyHost : Tree :=
  .single ["tmp".toList] .dir

/-- Limits of a few bytes. -/
def smallConfig : Config :=
  ⟨1, 10, 3, 2, 1⟩

/-- A zip entry. -/
def zipEntry (name : String) (size : Nat) (body : String) : ArchiveEntry :=
  ⟨name.toList, .file, 0o644, size, body.toList, false⟩

/-- The extraction of one small file ends with the file in place. -/
theorem confined_of_steps_oneFile :
    ∃ s, (machine .owner tmpDirs).Steps (extractZip (newConfig smallConfig) [zipEntry "a" 2 "bb"])
        (Disk.start emptyHost) (.ret (.ok (tmpDirs.next emptyHost).path)) s ∧
      s.written = 2 ∧
      Confined (newConfig smallConfig) [zipEntry "a" 2 "bb"] emptyHost (tmpDirs.next emptyHost)
        s := by
  have hsteps := Machine.steps_run (m := machine .owner tmpDirs)
    (extractZip (newConfig smallConfig) [zipEntry "a" 2 "bb"]) (Disk.start emptyHost)
  have hresult : ((machine .owner tmpDirs).run
      (extractZip (newConfig smallConfig) [zipEntry "a" 2 "bb"]) (Disk.start emptyHost)).2 =
        .ok (tmpDirs.next emptyHost).path := by decide +kernel
  rw [hresult] at hsteps
  refine ⟨_, hsteps, by decide +kernel, ?_⟩
  exact (confined_of_steps (by decide) hsteps).1

/-- The first entry declares five bytes less than 2^64, so the total becomes negative and
the second entry passes the limit of three bytes. -/
theorem limit_passed_by_wrapped_size :
    ∃ p s, (machine .owner tmpDirs).Steps
        (extractZip (newConfig smallConfig)
          [zipEntry "a" (2 ^ 64 - 5) "bb", zipEntry "b" 2 "cc"])
        (Disk.start emptyHost) p s ∧ (newConfig smallConfig).maxArchiveSize < s.written := by
  refine ⟨_, _, Machine.steps_run (m := machine .owner tmpDirs) _ _, ?_⟩
  decide +kernel

end Extraction
end Differ
end Veilence

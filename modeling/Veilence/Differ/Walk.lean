import Veilence.Differ.Archive
import Veilence.Go.Utf8
import Veilence.Differ.Render

/-!
# Reading an extracted directory

{lit}`walkFiles` visits the files of a directory in lexical order, leaves out what
cannot be shown as text and drops the first element of every path.
{lit}`generateDiff` reads two directories and renders their difference.

Main results:

- Theorem {lit}`walkFiles_get?`: when the shortened paths of the text files differ,
  the map holds exactly the text files.
- Theorem {lit}`walkFiles_keeps`: a text file whose shortened path is its own is in the
  map.
- Theorem {lit}`text_files_lost`: a directory with an unreadable text file and two that
  share their shortened path.
-/

namespace Veilence
namespace Differ

open Go Foundation

/-! ## Text files -/

/-- The text of a node, if it is a file that the diff can show. -/
def textOf (host : Host) (maxFileReadSize : Int) : Node → Option GoString
  | .dir => none
  | .file mode content =>
      if content.length > maxFileReadSize then none
      else if !host.canRead mode then none
      else if !utf8Valid content then none
      else if '\x00' ∈ content then none
      else some content

/-! ## Walking a directory -/

/-- The part of a path after its first element, or the path if it has only one. -/
def stripFirst (relPath : GoString) : GoString :=
  if '/' ∈ relPath then (relPath.dropWhile (· ≠ '/')).tail else relPath

/-- The key of a file in the map of a walk. -/
def walkKey (path : List GoString) : GoString :=
  stripFirst (join '/' path)

/-- The nodes in the order of {lit}`filepath.Walk`. -/
def walkOrder (root : Tree) : List (List GoString × Node) :=
  root.entries.insertionSort fun a b => a.1 ≤ b.1

/-- One visit of a walk. -/
def walkVisit (host : Host) (maxFileReadSize : Int) (files : FileMap)
    (e : List GoString × Node) : FileMap :=
  match textOf host maxFileReadSize e.2 with
  | none => files
  | some content => files.insert (walkKey e.1) content

/-- {lit}`walkFiles`. -/
def walkFiles (host : Host) (maxFileReadSize : Int) (root : Tree) : FileMap :=
  (walkOrder root).foldl (walkVisit host maxFileReadSize) .empty

/-- {lit}`generateDiff`: the diff of two extracted directories. -/
def generateDiff (host : Host) (oldDir newDir : Tree) (maxFileReadSize : Int)
    (ecosystem : GoString) (sizeLimit : Int) : DiffState :=
  generateDiffFiles (walkFiles host maxFileReadSize oldDir)
    (walkFiles host maxFileReadSize newDir) ecosystem sizeLimit

/-! ## What a walk returns -/

/-- The first element of a path of names is dropped. -/
theorem walkKey_cons {first : GoString} {rest : List GoString} (hfirst : '/' ∉ first)
    (hrest : rest ≠ []) : walkKey (first :: rest) = join '/' rest := by
  have hall : ∀ c ∈ first, (decide (c ≠ '/')) = true := by
    intro c hc
    simp only [ne_eq, decide_not, Bool.not_eq_true', decide_eq_false_iff_not]
    rintro rfl
    exact hfirst hc
  rw [walkKey, join_cons '/' first hrest, stripFirst, if_pos (by simp),
    List.dropWhile_append_of_pos hall]
  simp

/-- The entry that a visit adds. -/
def walkEntry (host : Host) (maxFileReadSize : Int) (e : List GoString × Node) :
    Option (GoString × GoString) :=
  (textOf host maxFileReadSize e.2).map fun content => (walkKey e.1, content)

/-- A walk inserts the entries of its visits in order. -/
theorem foldl_walkVisit (host : Host) (maxFileReadSize : Int)
    (es : List (List GoString × Node)) (files : FileMap) :
    es.foldl (walkVisit host maxFileReadSize) files =
      files.insertAll (es.filterMap (walkEntry host maxFileReadSize)) := by
  induction es generalizing files with
  | nil => rfl
  | cons e es ih =>
      rw [List.foldl_cons, ih]
      cases htext : textOf host maxFileReadSize e.2 with
      | none =>
          have hentry : walkEntry host maxFileReadSize e = none := by simp [walkEntry, htext]
          rw [List.filterMap_cons_none hentry, walkVisit, htext]
      | some content =>
          have hentry : walkEntry host maxFileReadSize e = some (walkKey e.1, content) := by
            simp [walkEntry, htext]
          rw [List.filterMap_cons_some hentry, walkVisit, htext]
          rfl

/-- When no two text files share a shortened path, the map holds exactly the text files. -/
theorem walkFiles_get? {host : Host} {maxFileReadSize : Int} {root : Tree}
    (hkeys : ∀ e ∈ root.entries, ∀ e' ∈ root.entries,
      (textOf host maxFileReadSize e.2).isSome → (textOf host maxFileReadSize e'.2).isSome →
        walkKey e.1 = walkKey e'.1 → e.1 = e'.1) (key content : GoString) :
    (walkFiles host maxFileReadSize root).get? key = some content ↔
      ∃ e ∈ root.entries, textOf host maxFileReadSize e.2 = some content ∧
        walkKey e.1 = key := by
  have hperm : (walkOrder root).Perm root.entries := List.perm_insertionSort _ _
  have hnodup : ((walkOrder root).map Prod.fst).Nodup :=
    (hperm.map Prod.fst).nodup_iff.mpr root.nodup
  have hentries : (((walkOrder root).filterMap (walkEntry host maxFileReadSize)).map
      Prod.fst).Nodup := by
    refine nodup_map_filterMap hnodup fun e he e' he' b b' hb hb' hkey => ?_
    obtain ⟨text, htext, rfl⟩ := Option.map_eq_some_iff.mp hb
    obtain ⟨text', htext', rfl⟩ := Option.map_eq_some_iff.mp hb'
    exact hkeys e (hperm.mem_iff.mp he) e' (hperm.mem_iff.mp he') (by simp [htext])
      (by simp [htext']) hkey
  rw [walkFiles, foldl_walkVisit, Table.get?_insertAll hentries (by simp)]
  simp only [Table.get?_empty, reduceCtorEq, or_false, List.mem_filterMap]
  constructor
  · rintro ⟨e, he, hentry⟩
    obtain ⟨text, htext, hpair⟩ := Option.map_eq_some_iff.mp hentry
    obtain ⟨rfl, rfl⟩ := Prod.mk.inj hpair
    exact ⟨e, hperm.mem_iff.mp he, htext, rfl⟩
  · rintro ⟨e, he, htext, rfl⟩
    exact ⟨e, hperm.mem_iff.mpr he, by simp [walkEntry, htext]⟩

/-! ## Single files -/

/-- A content that is short enough, valid UTF-8 and without a NUL byte. -/
def IsText (maxFileReadSize : Int) (content : GoString) : Prop :=
  content.length ≤ maxFileReadSize ∧ utf8Valid content = true ∧ '\x00' ∉ content

instance (maxFileReadSize : Int) (content : GoString) :
    Decidable (IsText maxFileReadSize content) :=
  inferInstanceAs (Decidable (_ ∧ _))

/-- A readable text file is shown. -/
theorem textOf_file {host : Host} {maxFileReadSize : Int} {mode : Nat} {content : GoString}
    (hread : host.canRead mode = true) (htext : IsText maxFileReadSize content) :
    textOf host maxFileReadSize (.file mode content) = some content := by
  obtain ⟨hlength, hvalid, hnul⟩ := htext
  simp only [textOf]
  rw [if_neg (by omega), if_neg (by simp [hread]), if_neg (by simp [hvalid]), if_neg hnul]

/-- What is shown is a readable text file. -/
theorem exists_of_textOf {host : Host} {maxFileReadSize : Int} {node : Node} {text : GoString}
    (hnode : textOf host maxFileReadSize node = some text) :
    ∃ mode, node = .file mode text ∧ host.canRead mode = true ∧ IsText maxFileReadSize text := by
  cases node with
  | dir => cases hnode
  | file mode content =>
      simp only [textOf] at hnode
      split_ifs at hnode with hlength hread hvalid hnul
      cases hnode
      refine ⟨mode, rfl, by simpa using hread, by omega, by simpa using hvalid, hnul⟩

/-- A readable text file that shares its key with no other one is in the map with its
content. -/
theorem walkFiles_keeps {host : Host} {maxFileReadSize : Int} {root : Tree}
    {path : List GoString} {mode : Nat} {content : GoString}
    (hfile : root.file? path = some (mode, content)) (hread : host.canRead mode = true)
    (htext : IsText maxFileReadSize content)
    (hsole : ∀ path' mode' content', root.file? path' = some (mode', content') →
      host.canRead mode' = true → IsText maxFileReadSize content' →
      walkKey path' = walkKey path → path' = path) :
    (walkFiles host maxFileReadSize root).get? (walkKey path) = some content := by
  have hperm : (walkOrder root).Perm root.entries := List.perm_insertionSort _ _
  have hshown := textOf_file hread htext
  have hentry : (path, Node.file mode content) ∈ root.entries := file?_eq_some_iff.mp hfile
  rw [walkFiles, foldl_walkVisit]
  apply Table.get?_insertAll_of_sole
  · left
    rw [List.mem_filterMap]
    exact ⟨_, hperm.mem_iff.mpr hentry, by simp [walkEntry, hshown]⟩
  · rintro ⟨key, text⟩ hmem hkey
    obtain ⟨⟨path', node⟩, he, hvisit⟩ := List.mem_filterMap.mp hmem
    obtain ⟨text', hnode, hpair⟩ := Option.map_eq_some_iff.mp hvisit
    obtain ⟨rfl, rfl⟩ := Prod.mk.inj hpair
    obtain ⟨mode', rfl, hread', htext'⟩ := exists_of_textOf hnode
    have hfile' := file?_eq_some_iff.mpr (hperm.mem_iff.mp he)
    have hpath := hsole path' mode' text' hfile' hread' htext' hkey
    subst hpath
    rw [hfile] at hfile'
    cases hfile'
    rfl

/-- A directory with the one file {lit}`p/a`. -/
def oneFile : Tree :=
  .single ["p".toList, "a".toList] (.file 0o640 "x".toList)

theorem walkFiles_keeps_oneFile :
    (walkFiles .owner 1024 oneFile).get? "a".toList = some "x".toList := by
  have hpath (path : List GoString) (mode : Nat) (content : GoString)
      (hfile : oneFile.file? path = some (mode, content)) :
      path = ["p".toList, "a".toList] := by
    have hmem := file?_eq_some_iff.mp hfile
    simp only [oneFile, Table.single, List.mem_singleton, Prod.mk.injEq] at hmem
    exact hmem.1
  exact @walkFiles_keeps .owner 1024 oneFile ["p".toList, "a".toList] 0o640 "x".toList
    (by decide) (by decide) (by decide) fun path mode content hfile _ _ _ =>
      hpath path mode content hfile

/-- A directory with a text file that may not be read and two text files with the name
{lit}`b` below different directories. -/
def threeFiles : Tree :=
  ((Table.single ["d".toList, "a".toList] (.file 0 "s".toList)).insert
    ["p".toList, "b".toList] (.file 0o640 "x".toList)).insert
    ["q".toList, "b".toList] (.file 0o640 "y".toList)

/-- The unreadable text file is not in the map, and the two others share their key, so
that the map holds one content only. -/
theorem text_files_lost :
    threeFiles.file? ["d".toList, "a".toList] = some (0, "s".toList) ∧
      threeFiles.file? ["p".toList, "b".toList] = some (0o640, "x".toList) ∧
      threeFiles.file? ["q".toList, "b".toList] = some (0o640, "y".toList) ∧
      IsText 1024 "s".toList ∧ IsText 1024 "x".toList ∧ IsText 1024 "y".toList ∧
      walkKey ["p".toList, "b".toList] = walkKey ["q".toList, "b".toList] ∧
      (walkFiles .owner 1024 threeFiles).entries = [("b".toList, "y".toList)] := by
  decide +kernel

end Differ
end Veilence

import Veilence.Go.Text

/-!
# Edit scripts of the differ

{lit}`computeEditScript` turns two line lists into one list of edit operations.
Below ten million table cells it fills the longest-common-subsequence table and
walks back through it; above, it deletes every old line and adds every new one.

Main results:

- Theorems {lit}`oldSide_computeEditScript` and {lit}`newSide_computeEditScript`:
  on both paths the script spells the old lines on its old side and the new
  lines on its new side.  The proofs use nothing about the table, so they hold
  for any tie-breaking of the walk.
-/

namespace Veilence
namespace Differ

open Go

/-! ## Edit operations -/

/-- The kinds {lit}`opCtx`, {lit}`opAdd` and {lit}`opDel`. -/
inductive OpKind where
  | ctx
  | add
  | del
deriving DecidableEq, Repr

/-- One operation of an edit script. -/
structure EditOp where
  kind : OpKind
  line : GoString
deriving DecidableEq, Repr

/-- The lines of the old file that a script runs over. -/
def oldSide (ops : List EditOp) : List GoString :=
  (ops.filter (·.kind ≠ .add)).map (·.line)

/-- The lines of the new file that a script runs over. -/
def newSide (ops : List EditOp) : List GoString :=
  (ops.filter (·.kind ≠ .del)).map (·.line)

@[simp]
theorem oldSide_nil : oldSide [] = [] :=
  rfl

@[simp]
theorem newSide_nil : newSide [] = [] :=
  rfl

@[simp]
theorem oldSide_append (ops rest : List EditOp) :
    oldSide (ops ++ rest) = oldSide ops ++ oldSide rest := by
  simp [oldSide]

@[simp]
theorem newSide_append (ops rest : List EditOp) :
    newSide (ops ++ rest) = newSide ops ++ newSide rest := by
  simp [newSide]

@[simp]
theorem oldSide_ctx (line : GoString) : oldSide [⟨.ctx, line⟩] = [line] :=
  rfl

@[simp]
theorem newSide_ctx (line : GoString) : newSide [⟨.ctx, line⟩] = [line] :=
  rfl

@[simp]
theorem oldSide_del (line : GoString) : oldSide [⟨.del, line⟩] = [line] :=
  rfl

@[simp]
theorem newSide_del (line : GoString) : newSide [⟨.del, line⟩] = [] :=
  rfl

@[simp]
theorem oldSide_add (line : GoString) : oldSide [⟨.add, line⟩] = [] :=
  rfl

@[simp]
theorem newSide_add (line : GoString) : newSide [⟨.add, line⟩] = [line] :=
  rfl

/-- A run of context lines reads the same on both sides. -/
theorem oldSide_eq_newSide_of_ctx {ops : List EditOp}
    (hctx : ∀ op ∈ ops, op.kind = .ctx) : oldSide ops = newSide ops := by
  have hold : ops.filter (·.kind ≠ .add) = ops :=
    List.filter_eq_self.mpr fun op hop => by simp [hctx op hop]
  have hnew : ops.filter (·.kind ≠ .del) = ops :=
    List.filter_eq_self.mpr fun op hop => by simp [hctx op hop]
  rw [oldSide, newSide, hold, hnew]

/-! ## The longest-common-subsequence table -/

/-- One cell of the table, from its diagonal, upper and left neighbours. -/
def lcsCell (x y : GoString) (diag up left : Nat) : Nat :=
  if x = y then diag + 1
  else if up ≥ left then up
  else left

/-- The cells of one row right of `left`, above which the previous row reads
`diag, up, …`. -/
def lcsRow (x : GoString) (left : Nat) : List GoString → List Nat → List Nat
  | y :: ys, diag :: up :: prev =>
      lcsCell x y diag up left ::
        lcsRow x (lcsCell x y diag up left) ys (up :: prev)
  | _, _ => []

/-- The rows of the table below and including `prev`. -/
def lcsRows (newLines : List GoString) (prev : List Nat) :
    List GoString → List (List Nat)
  | [] => [prev]
  | x :: xs => prev :: lcsRows newLines (0 :: lcsRow x 0 newLines prev) xs

/-- The filled table {lit}`dp`. -/
def lcsTable (oldLines newLines : List GoString) : List (List Nat) :=
  lcsRows newLines (List.replicate (newLines.length + 1) 0) oldLines

/-- The cell {lit}`dp[i][j]`. -/
def lcsAt (table : List (List Nat)) (i j : Nat) : Nat :=
  (table.getD i []).getD j 0

/-! ## Walking back through the table -/

/-- The backtracking loop, from row `i` and column `j`, in the order in which
the source appends.  Every turn lowers `i + j`, which bounds the fuel. -/
def backtrack (dp : Nat → Nat → Nat) (oldLines newLines : List GoString) :
    Nat → Nat → Nat → List EditOp
  | 0, _, _ => []
  | fuel + 1, i, j =>
      if i = 0 ∧ j = 0 then []
      else if 0 < i ∧ 0 < j ∧ oldLines.getD (i - 1) [] = newLines.getD (j - 1) [] then
        ⟨.ctx, oldLines.getD (i - 1) []⟩ ::
          backtrack dp oldLines newLines fuel (i - 1) (j - 1)
      else if 0 < j ∧ (i = 0 ∨ dp i (j - 1) ≥ dp (i - 1) j) then
        ⟨.add, newLines.getD (j - 1) []⟩ ::
          backtrack dp oldLines newLines fuel i (j - 1)
      else
        ⟨.del, oldLines.getD (i - 1) []⟩ ::
          backtrack dp oldLines newLines fuel (i - 1) j

/-- Above the cell limit: every old line removed, then every new line added. -/
def fallbackEditScript (oldLines newLines : List GoString) : List EditOp :=
  oldLines.map (⟨.del, ·⟩) ++ newLines.map (⟨.add, ·⟩)

/-- The largest table the differ fills. -/
def maxCells : Int :=
  10000000

/-- The edit script between two line lists. -/
def computeEditScript (oldLines newLines : List GoString) : List EditOp :=
  let m := oldLines.length
  let n := newLines.length
  if int64 (m * n) > maxCells then
    fallbackEditScript oldLines newLines
  else
    (backtrack (lcsAt (lcsTable oldLines newLines)) oldLines newLines (m + n) m n).reverse

/-! ## Both sides of the script -/

/-- The last line of a nonempty prefix. -/
theorem take_eq_append_getD {lines : List GoString} {i : Nat}
    (hpos : 0 < i) (hi : i ≤ lines.length) :
    lines.take i = lines.take (i - 1) ++ [lines.getD (i - 1) []] := by
  obtain ⟨k, rfl⟩ : ∃ k, i = k + 1 := ⟨i - 1, by omega⟩
  have hk : k < lines.length := hi
  rw [List.take_add_one, Nat.add_sub_cancel, List.getD_eq_getElem?_getD,
    List.getElem?_eq_getElem hk]
  rfl

/-- Read forwards, the walk from `(i, j)` spells the first `i` old lines and the
first `j` new lines, whatever the table says. -/
theorem sides_backtrack (dp : Nat → Nat → Nat) {oldLines newLines : List GoString} :
    ∀ {fuel i j : Nat}, i ≤ oldLines.length → j ≤ newLines.length → i + j ≤ fuel →
      oldSide (backtrack dp oldLines newLines fuel i j).reverse = oldLines.take i ∧
        newSide (backtrack dp oldLines newLines fuel i j).reverse = newLines.take j := by
  intro fuel
  induction fuel with
  | zero =>
      intro i j hi hj hfuel
      have hi0 : i = 0 := by omega
      have hj0 : j = 0 := by omega
      subst hi0 hj0
      simp [backtrack]
  | succ fuel ih =>
      intro i j hi hj hfuel
      rw [backtrack]
      split_ifs with hdone hctx hadd
      · obtain ⟨rfl, rfl⟩ := hdone
        simp
      · obtain ⟨hipos, hjpos, hline⟩ := hctx
        obtain ⟨hold, hnew⟩ := ih (i := i - 1) (j := j - 1) (by omega) (by omega) (by omega)
        constructor
        · rw [List.reverse_cons, oldSide_append, hold, oldSide_ctx,
            take_eq_append_getD hipos hi]
        · rw [List.reverse_cons, newSide_append, hnew, newSide_ctx, hline,
            take_eq_append_getD hjpos hj]
      · obtain ⟨hjpos, _⟩ := hadd
        obtain ⟨hold, hnew⟩ := ih (i := i) (j := j - 1) hi (by omega) (by omega)
        constructor
        · rw [List.reverse_cons, oldSide_append, hold, oldSide_add, List.append_nil]
        · rw [List.reverse_cons, newSide_append, hnew, newSide_add,
            take_eq_append_getD hjpos hj]
      · -- Neither a match nor an addition is left, so a deletion has a line to delete.
        have hipos : 0 < i := by
          by_contra hzero
          have hi0 : i = 0 := by omega
          exact hadd ⟨by omega, Or.inl hi0⟩
        obtain ⟨hold, hnew⟩ := ih (i := i - 1) (j := j) (by omega) hj (by omega)
        constructor
        · rw [List.reverse_cons, oldSide_append, hold, oldSide_del,
            take_eq_append_getD hipos hi]
        · rw [List.reverse_cons, newSide_append, hnew, newSide_del, List.append_nil]

/-- The fallback script spells the old lines on its old side. -/
theorem oldSide_fallbackEditScript (oldLines newLines : List GoString) :
    oldSide (fallbackEditScript oldLines newLines) = oldLines := by
  simp [oldSide, fallbackEditScript, List.filter_map, Function.comp_def]

/-- The fallback script spells the new lines on its new side. -/
theorem newSide_fallbackEditScript (oldLines newLines : List GoString) :
    newSide (fallbackEditScript oldLines newLines) = newLines := by
  simp [newSide, fallbackEditScript, List.filter_map, Function.comp_def]

/-- The context and deleted lines of the script are the old file. -/
theorem oldSide_computeEditScript (oldLines newLines : List GoString) :
    oldSide (computeEditScript oldLines newLines) = oldLines := by
  simp only [computeEditScript]
  split_ifs
  · exact oldSide_fallbackEditScript oldLines newLines
  · rw [(sides_backtrack _ le_rfl le_rfl le_rfl).1, List.take_length]

/-- The context and added lines of the script are the new file. -/
theorem newSide_computeEditScript (oldLines newLines : List GoString) :
    newSide (computeEditScript oldLines newLines) = newLines := by
  simp only [computeEditScript]
  split_ifs
  · exact newSide_fallbackEditScript oldLines newLines
  · rw [(sides_backtrack _ le_rfl le_rfl le_rfl).2, List.take_length]

example :
    computeEditScript ["a".toList, "b".toList] ["b".toList, "c".toList] =
      [⟨.del, "a".toList⟩, ⟨.ctx, "b".toList⟩, ⟨.add, "c".toList⟩] := by
  decide

/-- Every operation of a script carries a line of one of the files. -/
theorem line_mem_of_mem_computeEditScript {oldLines newLines : List GoString} {op : EditOp}
    (hop : op ∈ computeEditScript oldLines newLines) :
    op.line ∈ oldLines ∨ op.line ∈ newLines := by
  have hold := oldSide_computeEditScript oldLines newLines
  have hnew := newSide_computeEditScript oldLines newLines
  by_cases hkind : op.kind = .add
  · right
    rw [← hnew]
    exact List.mem_map_of_mem (List.mem_filter.mpr ⟨hop, by simp [hkind]⟩)
  · left
    rw [← hold]
    exact List.mem_map_of_mem (List.mem_filter.mpr ⟨hop, by simp [hkind]⟩)

end Differ
end Veilence

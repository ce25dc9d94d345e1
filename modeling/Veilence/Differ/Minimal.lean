import Veilence.Foundation.Subsequence
import Veilence.Differ.Hunks

/-!
# The edit script is minimal

Each cell {lit}`dp[i][j]` bounds the common subsequences of the first {lit}`i` old and the first
{lit}`j` new lines, and the walk back from it keeps exactly {lit}`dp[i][j]` lines.  The kept
lines of any script between the two files are a common subsequence of them, so no script keeps
more.

Main results:

- Theorem {lit}`lcsAt_succ_succ`: the table satisfies the recurrence of the double loop.
- Theorem {lit}`bounds_lcsAt`: its cells bound the common subsequences of the prefixes.
- Theorem {lit}`kept_backtrack`: the walk keeps as many lines as its cell says.
- Theorem {lit}`computeEditScript_minimal`: the script is correct, and below the cell limit no
  script between the files has fewer changes.
-/

namespace Veilence
namespace Differ

open Go Foundation

/-! ## The table -/

/-- A row has a cell for each new line. -/
theorem length_lcsRow (x : GoString) {newLines : List GoString} {prev : List Nat} (left : Nat)
    (hprev : prev.length = newLines.length + 1) :
    (lcsRow x left newLines prev).length = newLines.length := by
  induction newLines generalizing prev left with
  | nil => rw [lcsRow.eq_def]; simp
  | cons y ys ih =>
      match prev, hprev with
      | diag :: up :: rest, hprev =>
          rw [lcsRow, List.length_cons, ih _ (by simpa using hprev), List.length_cons]

/-- A cell of a row from its three neighbours. -/
theorem getD_lcsRow (x : GoString) {newLines : List GoString} {prev : List Nat} (left : Nat)
    (hprev : prev.length = newLines.length + 1) {j : Nat} (hj : j < newLines.length) :
    (left :: lcsRow x left newLines prev).getD (j + 1) 0 =
      lcsCell x (newLines.getD j []) (prev.getD j 0) (prev.getD (j + 1) 0)
        ((left :: lcsRow x left newLines prev).getD j 0) := by
  induction newLines generalizing prev left j with
  | nil => exact absurd hj (Nat.not_lt_zero j)
  | cons y ys ih =>
      match prev, hprev with
      | diag :: up :: rest, hprev =>
          rw [lcsRow]
          cases j with
          | zero => rfl
          | succ j =>
              have hrest : (up :: rest).length = ys.length + 1 := by simpa using hprev
              exact ih _ hrest (Nat.lt_of_succ_lt_succ hj)

/-- A row of the table from the row before it. -/
theorem getD_lcsRows {newLines : List GoString} {prev : List Nat} {oldLines : List GoString}
    {i : Nat} (hi : i < oldLines.length) :
    (lcsRows newLines prev oldLines).getD (i + 1) [] =
      0 :: lcsRow (oldLines.getD i []) 0 newLines
        ((lcsRows newLines prev oldLines).getD i []) := by
  induction oldLines generalizing prev i with
  | nil => exact absurd hi (Nat.not_lt_zero i)
  | cons x xs ih =>
      rw [lcsRows]
      cases i with
      | zero =>
          cases xs with
          | nil => rfl
          | cons x' xs => rfl
      | succ i => exact ih (Nat.lt_of_succ_lt_succ hi)

section Recurrence

variable {oldLines newLines : List GoString}

/-- The first row of the table. -/
theorem getD_lcsTable_zero :
    (lcsTable oldLines newLines).getD 0 [] = List.replicate (newLines.length + 1) 0 := by
  cases oldLines with
  | nil => rfl
  | cons x xs => rfl

/-- Every row of the table has a cell for each prefix of the new lines. -/
theorem length_getD_lcsTable {i : Nat} (hi : i ≤ oldLines.length) :
    ((lcsTable oldLines newLines).getD i []).length = newLines.length + 1 := by
  induction i with
  | zero => rw [getD_lcsTable_zero, List.length_replicate]
  | succ i ih =>
      rw [lcsTable] at ih ⊢
      rw [getD_lcsRows hi, List.length_cons, length_lcsRow _ 0 (ih (Nat.le_of_succ_le hi))]

/-- The cells of the first row. -/
theorem lcsAt_zero_left {j : Nat} (hj : j ≤ newLines.length) :
    lcsAt (lcsTable oldLines newLines) 0 j = 0 := by
  rw [lcsAt, getD_lcsTable_zero, List.getD_eq_getElem?_getD, List.getElem?_replicate,
    if_pos (by omega), Option.getD_some]

/-- The cells of the first column. -/
theorem lcsAt_zero_right {i : Nat} (hi : i ≤ oldLines.length) :
    lcsAt (lcsTable oldLines newLines) i 0 = 0 := by
  cases i with
  | zero => exact lcsAt_zero_left (Nat.zero_le _)
  | succ i => rw [lcsAt, lcsTable, getD_lcsRows hi, List.getD_cons_zero]

/-- The other cells. -/
theorem lcsAt_succ_succ {i j : Nat} (hi : i < oldLines.length) (hj : j < newLines.length) :
    lcsAt (lcsTable oldLines newLines) (i + 1) (j + 1) =
      lcsCell (oldLines.getD i []) (newLines.getD j [])
        (lcsAt (lcsTable oldLines newLines) i j)
        (lcsAt (lcsTable oldLines newLines) i (j + 1))
        (lcsAt (lcsTable oldLines newLines) (i + 1) j) := by
  have hlength : ((lcsTable oldLines newLines).getD i []).length = newLines.length + 1 :=
    length_getD_lcsTable hi.le
  rw [lcsTable] at hlength ⊢
  simp only [lcsAt, getD_lcsRows hi]
  exact getD_lcsRow _ 0 hlength hj

/-- A prefix that is one line longer. -/
theorem take_succ_eq_concat {lines : List GoString} {i : Nat} (hi : i < lines.length) :
    lines.take (i + 1) = lines.take i ++ [lines.getD i []] :=
  take_eq_append_getD (Nat.succ_pos i) hi

/-- The cells bound the common subsequences of the prefixes. -/
theorem bounds_lcsAt {i j : Nat} (hi : i ≤ oldLines.length) (hj : j ≤ newLines.length) :
    BoundsCommon (oldLines.take i) (newLines.take j)
      (lcsAt (lcsTable oldLines newLines) i j) := by
  induction i generalizing j with
  | zero =>
      rw [lcsAt_zero_left hj, List.take_zero]
      exact .nil_left _
  | succ i ihi =>
      induction j with
      | zero =>
          rw [lcsAt_zero_right hi, List.take_zero]
          exact .nil_right _
      | succ j ihj =>
          have hup := ihi (Nat.le_of_succ_le hi) hj
          have hleft := ihj (Nat.le_of_succ_le hj)
          rw [take_succ_eq_concat hj] at hup
          rw [take_succ_eq_concat hi] at hleft
          rw [lcsAt_succ_succ hi hj, take_succ_eq_concat hi, take_succ_eq_concat hj, lcsCell]
          split_ifs with heq hge
          · rw [heq]
            exact (ihi (Nat.le_of_succ_le hi) (Nat.le_of_succ_le hj)).concat _
          · exact .concat_of_ne heq hup (hleft.mono hge)
          · exact .concat_of_ne heq (hup.mono (Nat.le_of_not_le hge)) hleft

end Recurrence

/-! ## The walk -/

/-- The number of lines that a script keeps. -/
def keptLines (ops : List EditOp) : Nat :=
  ops.countP (·.kind = .ctx)

/-- The number of lines that a script adds or deletes. -/
def changedLines (ops : List EditOp) : Nat :=
  ops.countP EditOp.isChange

/-- The walk keeps as many lines as its cell says. -/
theorem kept_backtrack {oldLines newLines : List GoString} {fuel i j : Nat}
    (hi : i ≤ oldLines.length) (hj : j ≤ newLines.length) (hfuel : i + j ≤ fuel) :
    keptLines (backtrack (lcsAt (lcsTable oldLines newLines)) oldLines newLines fuel i j) =
      lcsAt (lcsTable oldLines newLines) i j := by
  induction fuel generalizing i j with
  | zero =>
      obtain rfl : i = 0 := by omega
      rw [lcsAt_zero_left hj]
      rfl
  | succ fuel ih =>
      rw [backtrack]
      split_ifs with hdone hmatch hadd
      · obtain ⟨rfl, rfl⟩ := hdone
        rw [lcsAt_zero_left hj]
        rfl
      · -- A common line is kept, and the cell counts it.
        obtain ⟨hipos, hjpos, hline⟩ := hmatch
        obtain ⟨i, rfl⟩ : ∃ k, i = k + 1 := ⟨i - 1, by omega⟩
        obtain ⟨j, rfl⟩ : ∃ k, j = k + 1 := ⟨j - 1, by omega⟩
        simp only [Nat.add_sub_cancel] at hline ⊢
        have hrest := ih (i := i) (j := j) (by omega) (by omega) (by omega)
        rw [lcsAt_succ_succ hi hj, lcsCell, if_pos hline, ← hrest]
        simp [keptLines]
      · -- The cell on the left is the larger neighbour.
        obtain ⟨hjpos, hchoice⟩ := hadd
        obtain ⟨j, rfl⟩ : ∃ k, j = k + 1 := ⟨j - 1, by omega⟩
        simp only [Nat.add_sub_cancel] at hmatch hchoice ⊢
        have hrest := ih (i := i) (j := j) hi (by omega) (by omega)
        have hcell : lcsAt (lcsTable oldLines newLines) i (j + 1) =
            lcsAt (lcsTable oldLines newLines) i j := by
          cases i with
          | zero => rw [lcsAt_zero_left hj, lcsAt_zero_left (Nat.le_of_succ_le hj)]
          | succ i =>
              have hne : oldLines.getD i [] ≠ newLines.getD j [] :=
                fun heq => hmatch ⟨Nat.succ_pos i, Nat.succ_pos j, heq⟩
              obtain hzero | hge := hchoice
              · exact absurd hzero (Nat.succ_ne_zero i)
              · rw [Nat.add_sub_cancel] at hge
                rw [lcsAt_succ_succ hi hj, lcsCell, if_neg hne]
                split_ifs with hup
                · omega
                · rfl
        rw [hcell, ← hrest]
        simp [keptLines]
      · -- The cell above is the larger neighbour.
        have hipos : 0 < i := by
          by_contra hzero
          exact hadd ⟨by omega, Or.inl (by omega)⟩
        obtain ⟨i, rfl⟩ : ∃ k, i = k + 1 := ⟨i - 1, by omega⟩
        simp only [Nat.add_sub_cancel] at hmatch hadd ⊢
        have hrest := ih (i := i) (j := j) (by omega) hj (by omega)
        have hcell : lcsAt (lcsTable oldLines newLines) (i + 1) j =
            lcsAt (lcsTable oldLines newLines) i j := by
          cases j with
          | zero => rw [lcsAt_zero_right hi, lcsAt_zero_right (Nat.le_of_succ_le hi)]
          | succ j =>
              have hne : oldLines.getD i [] ≠ newLines.getD j [] :=
                fun heq => hmatch ⟨Nat.succ_pos i, Nat.succ_pos j, heq⟩
              have hlt : ¬lcsAt (lcsTable oldLines newLines) (i + 1) j ≥
                  lcsAt (lcsTable oldLines newLines) i (j + 1) :=
                fun hge => hadd ⟨Nat.succ_pos j, Or.inr hge⟩
              rw [lcsAt_succ_succ hi hj, lcsCell, if_neg hne, if_pos (by omega)]
        rw [hcell, ← hrest]
        simp [keptLines]

/-! ## Minimality -/

/-- The kept lines of a script. -/
def keptSide (ops : List EditOp) : List GoString :=
  (ops.filter (·.kind = .ctx)).map (·.line)

theorem length_keptSide (ops : List EditOp) : (keptSide ops).length = keptLines ops := by
  rw [keptSide, List.length_map, keptLines, List.countP_eq_length_filter]

/-- The kept lines are lines of the old file in their order. -/
theorem keptSide_sublist_oldSide (ops : List EditOp) : (keptSide ops).Sublist (oldSide ops) := by
  apply List.Sublist.map
  refine List.monotone_filter_right ops fun op hop => ?_
  simp_all

/-- The kept lines are lines of the new file in their order. -/
theorem keptSide_sublist_newSide (ops : List EditOp) : (keptSide ops).Sublist (newSide ops) := by
  apply List.Sublist.map
  refine List.monotone_filter_right ops fun op hop => ?_
  simp_all

/-- Kept lines count on both sides, changed lines on one. -/
theorem length_sides (ops : List EditOp) :
    (oldSide ops).length + (newSide ops).length = 2 * keptLines ops + changedLines ops := by
  induction ops with
  | nil => rfl
  | cons op ops ih =>
      obtain ⟨kind, line⟩ := op
      cases kind with
      | ctx =>
          simp [oldSide, newSide, keptLines, changedLines, EditOp.isChange] at ih ⊢
          omega
      | add =>
          simp [oldSide, newSide, keptLines, changedLines, EditOp.isChange] at ih ⊢
          omega
      | del =>
          simp [oldSide, newSide, keptLines, changedLines, EditOp.isChange] at ih ⊢
          omega

/-- Below the cell limit the script keeps as many lines as any common subsequence has. -/
theorem bounds_keptLines {oldLines newLines : List GoString}
    (hcells : oldLines.length * newLines.length ≤ 10000000) :
    BoundsCommon oldLines newLines (keptLines (computeEditScript oldLines newLines)) := by
  have hbelow : ¬int64 (oldLines.length * newLines.length) > maxCells := by
    have hcells' : (oldLines.length * newLines.length : Int) ≤ 10000000 := by exact_mod_cast hcells
    have hnonneg : (0 : Int) ≤ oldLines.length * newLines.length := by positivity
    rw [int64_of_range (by omega) (by omega), maxCells]
    omega
  have hkept : keptLines (computeEditScript oldLines newLines) =
      lcsAt (lcsTable oldLines newLines) oldLines.length newLines.length := by
    simp only [computeEditScript, if_neg hbelow]
    rw [keptLines, List.countP_reverse]
    exact kept_backtrack le_rfl le_rfl le_rfl
  have hbound := bounds_lcsAt (le_refl oldLines.length) (le_refl newLines.length)
  rwa [List.take_length, List.take_length, ← hkept] at hbound

/-- The script spells the old file on its old side and the new file on its new side, and below
the cell limit it keeps as many lines as any common subsequence has, so that no script between
the files has fewer changes. -/
theorem computeEditScript_minimal (oldLines newLines : List GoString) :
    oldSide (computeEditScript oldLines newLines) = oldLines ∧
      newSide (computeEditScript oldLines newLines) = newLines ∧
      (oldLines.length * newLines.length ≤ 10000000 →
        (∀ common : List GoString, common.Sublist oldLines → common.Sublist newLines →
          common.length ≤ keptLines (computeEditScript oldLines newLines)) ∧
        ∀ ops : List EditOp, oldSide ops = oldLines → newSide ops = newLines →
          changedLines (computeEditScript oldLines newLines) ≤ changedLines ops) := by
  have hold := oldSide_computeEditScript oldLines newLines
  have hnew := newSide_computeEditScript oldLines newLines
  refine ⟨hold, hnew, fun hcells => ⟨bounds_keptLines hcells, fun ops hops hops' => ?_⟩⟩
  have hkept : keptLines ops ≤ keptLines (computeEditScript oldLines newLines) := by
    rw [← length_keptSide ops]
    exact bounds_keptLines hcells _ (hops ▸ keptSide_sublist_oldSide ops)
      (hops' ▸ keptSide_sublist_newSide ops)
  have hscript := length_sides (computeEditScript oldLines newLines)
  have hother := length_sides ops
  rw [hold, hnew] at hscript
  rw [hops, hops'] at hother
  omega

/-- Two files of two lines with one line in common: the script keeps it. -/
theorem computeEditScript_minimal_twoLines :
    1 ≤ keptLines
      (computeEditScript ["a".toList, "b".toList] ["b".toList, "c".toList]) :=
  ((computeEditScript_minimal _ _).2.2 (by decide)).1 ["b".toList] (by decide) (by decide)

end Differ
end Veilence

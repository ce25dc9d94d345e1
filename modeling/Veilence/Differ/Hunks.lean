import Veilence.Differ.EditScript

/-!
# Grouping an edit script into hunks

The loop of {lit}`computeUnifiedHunks`.  It keeps two running line counters, the
hunks already closed and the hunk still open, and decides at each context line,
from the operations around it, whether the line joins the open hunk, opens one,
closes one or is left out.

The relation {lit}`Grouped` lists what one turn of the loop can do to the closed
and the open hunks and forgets how the loop decides.  Theorem
{lit}`grouped_groupOps` shows that every run of the loop is such a derivation;
the correctness of the hunks then needs no further look at the distances.
-/

namespace Veilence
namespace Differ

open Go

/-! ## Hunks -/

/-- A line of a hunk body, with its one-byte prefix in the text. -/
structure DiffLine where
  kind : OpKind
  text : GoString
deriving DecidableEq, Repr

/-- A hunk: where it starts on both sides, how far it reaches, and its body. -/
structure Hunk where
  oldStart : Nat
  oldCount : Nat
  newStart : Nat
  newCount : Nat
  lines : List DiffLine
deriving DecidableEq, Repr

/-- The prefix byte of a body line. -/
def prefixOf : OpKind → Char
  | .ctx => ' '
  | .add => '+'
  | .del => '-'

/-- The body line of an edit operation. -/
def diffLine (op : EditOp) : DiffLine :=
  ⟨op.kind, prefixOf op.kind :: op.line⟩

/-- Append one operation to a hunk and count it on the sides it belongs to. -/
def Hunk.push (h : Hunk) (op : EditOp) : Hunk :=
  match op.kind with
  | .ctx =>
      { h with
        lines := h.lines ++ [diffLine op]
        oldCount := h.oldCount + 1
        newCount := h.newCount + 1 }
  | .del => { h with lines := h.lines ++ [diffLine op], oldCount := h.oldCount + 1 }
  | .add => { h with lines := h.lines ++ [diffLine op], newCount := h.newCount + 1 }

/-! ## One turn of the grouping loop -/

/-- Whether an operation changes a line. -/
def EditOp.isChange (op : EditOp) : Bool :=
  op.kind ≠ .ctx

/-- Whether a change lies within `contextLines` of the current operation, before
it (`before`, nearest first) or after it. -/
def nearChange (contextLines : Nat) (before after : List EditOp) : Bool :=
  (before.take contextLines).any EditOp.isChange ||
    (after.take contextLines).any EditOp.isChange

/-- The distance to the next change, or 0 when none is left. -/
def nextChangeDist (after : List EditOp) : Nat :=
  match after.findIdx? EditOp.isChange with
  | some k => k + 1
  | none => 0

/-- What the loop carries from one operation to the next. -/
structure GroupState where
  hunks : List Hunk
  current : Option Hunk
  oldIdx : Nat
  newIdx : Nat

/-- The state before the first operation. -/
def GroupState.start : GroupState :=
  ⟨[], none, 0, 0⟩

/-- The hunk that a change opens when none is open: it is back-filled with the
context lines just before the change. -/
def openHunk (contextLines : Nat) (before : List EditOp) (oldIdx newIdx : Nat) : Hunk :=
  let ctx := ((before.takeWhile (!·.isChange)).take contextLines).reverse
  { oldStart := oldIdx - ctx.length
    oldCount := ctx.length
    newStart := newIdx - ctx.length
    newCount := ctx.length
    lines := ctx.map diffLine }

/-- One turn of the loop at operation `op`, with the operations already passed
in `before` (nearest first) and those still to come in `after`. -/
def groupStep (contextLines : Nat) (flushDistance : Int) (before : List EditOp)
    (op : EditOp) (after : List EditOp) (s : GroupState) : GroupState :=
  match op.kind with
  | .ctx =>
      let grouped :=
        if nearChange contextLines before after then
          { s with
            current := some ((s.current.getD ⟨s.oldIdx, 0, s.newIdx, 0, []⟩).push op) }
        else
          match s.current with
          | none => s
          | some current =>
              if 0 < nextChangeDist after ∧ nextChangeDist after ≤ flushDistance then
                { s with current := some (current.push op) }
              else
                { s with hunks := s.hunks ++ [current], current := none }
      { grouped with oldIdx := s.oldIdx + 1, newIdx := s.newIdx + 1 }
  | .del =>
      { s with
        current := some
          ((s.current.getD (openHunk contextLines before s.oldIdx s.newIdx)).push op)
        oldIdx := s.oldIdx + 1 }
  | .add =>
      { s with
        current := some
          ((s.current.getD (openHunk contextLines before s.oldIdx s.newIdx)).push op)
        newIdx := s.newIdx + 1 }

/-- The loop over the operations. -/
def groupOps (contextLines : Nat) (flushDistance : Int) :
    List EditOp → List EditOp → GroupState → GroupState
  | _, [], s => s
  | before, op :: after, s =>
      groupOps contextLines flushDistance (op :: before) after
        (groupStep contextLines flushDistance before op after s)

/-- The hunks of a finished loop: a hunk still open is closed. -/
def GroupState.finish (s : GroupState) : List Hunk :=
  match s.current with
  | some current => s.hunks ++ [current]
  | none => s.hunks

/-- The hunks of a unified diff with the given number of context lines. -/
def computeUnifiedHunks (oldLines newLines : List GoString) (contextLines : Nat) :
    List Hunk :=
  let ops := computeEditScript oldLines newLines
  if ops = [] then []
  else (groupOps contextLines (int64 (contextLines * 2 + 1)) [] ops .start).finish

/-! ## What the loop can do -/

/-- `Grouped ops hunks current`: after the operations `ops` the loop may have
closed `hunks` and hold `current` open.  A context line between two hunks is left
out by {lit}`skip` or by {lit}`close`. -/
inductive Grouped : List EditOp → List Hunk → Option Hunk → Prop
  | start : Grouped [] [] none
  | skip {ops hunks} {e : EditOp} :
      Grouped ops hunks none → e.kind = .ctx → Grouped (ops ++ [e]) hunks none
  | enter {ops hunks} {e : EditOp} :
      Grouped ops hunks none →
        Grouped (ops ++ [e]) hunks
          (some (Hunk.push ⟨(oldSide ops).length, 0, (newSide ops).length, 0, []⟩ e))
  | extend {ops hunks current} {e : EditOp} :
      Grouped ops hunks (some current) →
        Grouped (ops ++ [e]) hunks (some (current.push e))
  | close {ops hunks current} {e : EditOp} :
      Grouped ops hunks (some current) → e.kind = .ctx →
        Grouped (ops ++ [e]) (hunks ++ [current]) none

/-- The loop invariant.  The last field says that a hunk is already open when a
change with context before it is reached, so back-filling never finds a line. -/
structure GroupInv (contextLines : Nat) (before after : List EditOp)
    (s : GroupState) : Prop where
  grouped : Grouped before.reverse s.hunks s.current
  oldIdx : s.oldIdx = (oldSide before.reverse).length
  newIdx : s.newIdx = (newSide before.reverse).length
  quiet : s.current = none → 0 < contextLines → before ≠ [] →
    ∀ op ∈ after.head?, op.kind = .ctx

/-- When no change is near, the next operation is a context line. -/
theorem head_ctx_of_not_nearChange {contextLines : Nat} {before after : List EditOp}
    (hfar : nearChange contextLines before after = false) (hpos : 0 < contextLines) :
    ∀ op ∈ after.head?, op.kind = .ctx := by
  intro op hop
  cases after with
  | nil => simp at hop
  | cons next rest =>
      obtain ⟨c, rfl⟩ : ∃ c, contextLines = c + 1 := ⟨contextLines - 1, by omega⟩
      have hnext : next = op := by simpa using hop
      subst hnext
      simp only [nearChange, List.take_succ_cons, List.any_cons, Bool.or_eq_false_iff] at hfar
      simpa [EditOp.isChange] using hfar.2.1

/-- With no open hunk a change back-fills nothing. -/
theorem openHunk_eq_empty {contextLines : Nat} {before : List EditOp} {op : EditOp}
    {after : List EditOp} {s : GroupState} (hinv : GroupInv contextLines before (op :: after) s)
    (hnone : s.current = none) (hchange : op.kind ≠ .ctx) :
    openHunk contextLines before s.oldIdx s.newIdx = ⟨s.oldIdx, 0, s.newIdx, 0, []⟩ := by
  have hempty : (before.takeWhile (!·.isChange)).take contextLines = [] := by
    rcases Nat.eq_zero_or_pos contextLines with hzero | hpos
    · simp [hzero]
    · have hbefore : before = [] := by
        by_contra hne
        exact hchange (hinv.quiet hnone hpos hne op (by simp))
      simp [hbefore]
  simp [openHunk, hempty]

/-- A change keeps the invariant: it extends the open hunk or opens an empty one. -/
theorem GroupInv.current_change {contextLines : Nat} {before after : List EditOp}
    {op : EditOp} {s : GroupState} (hinv : GroupInv contextLines before (op :: after) s)
    (hchange : op.kind ≠ .ctx) :
    Grouped (before.reverse ++ [op]) s.hunks
      (some ((s.current.getD (openHunk contextLines before s.oldIdx s.newIdx)).push op)) := by
  have hgrouped := hinv.grouped
  cases hcur : s.current with
  | none =>
      rw [hcur] at hgrouped
      rw [Option.getD_none, openHunk_eq_empty hinv hcur hchange, hinv.oldIdx, hinv.newIdx]
      exact Grouped.enter hgrouped
  | some current =>
      rw [hcur] at hgrouped
      exact Grouped.extend hgrouped

/-- One turn of the loop keeps the invariant. -/
theorem GroupInv.groupStep {contextLines : Nat} {flushDistance : Int}
    {before after : List EditOp} {op : EditOp} {s : GroupState}
    (hinv : GroupInv contextLines before (op :: after) s) :
    GroupInv contextLines (op :: before) after
      (groupStep contextLines flushDistance before op after s) := by
  obtain ⟨kind, line⟩ := op
  have hgrouped := hinv.grouped
  cases kind with
  | del =>
      refine ⟨?_, ?_, ?_, by simp [Differ.groupStep]⟩
      · simpa [Differ.groupStep] using hinv.current_change (by simp)
      · simp [Differ.groupStep, hinv.oldIdx]
      · simp [Differ.groupStep, hinv.newIdx]
  | add =>
      refine ⟨?_, ?_, ?_, by simp [Differ.groupStep]⟩
      · simpa [Differ.groupStep] using hinv.current_change (by simp)
      · simp [Differ.groupStep, hinv.oldIdx]
      · simp [Differ.groupStep, hinv.newIdx]
  | ctx =>
      have hold : s.oldIdx + 1 = (oldSide (before.reverse ++ [⟨.ctx, line⟩])).length := by
        simp [hinv.oldIdx]
      have hnew : s.newIdx + 1 = (newSide (before.reverse ++ [⟨.ctx, line⟩])).length := by
        simp [hinv.newIdx]
      by_cases hnear : nearChange contextLines before after = true
      · -- A change is near: the line joins the open hunk or opens one.
        simp only [Differ.groupStep, hnear, if_true]
        refine ⟨?_, by simpa using hold, by simpa using hnew, by simp⟩
        cases hcur : s.current with
        | none =>
            rw [hcur] at hgrouped
            simpa [hinv.oldIdx, hinv.newIdx] using Grouped.enter (e := ⟨.ctx, line⟩) hgrouped
        | some current =>
            rw [hcur] at hgrouped
            simpa using Grouped.extend (e := ⟨.ctx, line⟩) hgrouped
      · have hquiet : 0 < contextLines → ∀ op ∈ after.head?, op.kind = .ctx :=
          head_ctx_of_not_nearChange (by simpa using hnear)
        simp only [Differ.groupStep, if_neg hnear]
        cases hcur : s.current with
        | none =>
            rw [hcur] at hgrouped
            refine ⟨?_, by simpa using hold, by simpa using hnew, fun _ hpos _ => hquiet hpos⟩
            simpa [hcur] using Grouped.skip (e := ⟨.ctx, line⟩) hgrouped rfl
        | some current =>
            rw [hcur] at hgrouped
            dsimp only
            split_ifs with hmerge
            · refine ⟨?_, by simpa using hold, by simpa using hnew, by simp⟩
              simpa using Grouped.extend (e := ⟨.ctx, line⟩) hgrouped
            · refine ⟨?_, by simpa using hold, by simpa using hnew, fun _ hpos _ => hquiet hpos⟩
              simpa using Grouped.close (e := ⟨.ctx, line⟩) hgrouped rfl

/-- The loop keeps the invariant to its end. -/
theorem GroupInv.groupOps {contextLines : Nat} {before after : List EditOp} {s : GroupState}
    (hinv : GroupInv contextLines before after s) (flushDistance : Int) :
    GroupInv contextLines (after.reverse ++ before) []
      (groupOps contextLines flushDistance before after s) := by
  induction after generalizing before s with
  | nil => simpa [Differ.groupOps] using hinv
  | cons op after ih =>
      rw [Differ.groupOps]
      simpa using ih hinv.groupStep

/-- A run of the loop over a whole script is a derivation of {lit}`Grouped`. -/
theorem grouped_groupOps (contextLines : Nat) (flushDistance : Int) (ops : List EditOp) :
    Grouped ops (groupOps contextLines flushDistance [] ops .start).hunks
      (groupOps contextLines flushDistance [] ops .start).current := by
  have hstart : GroupInv contextLines [] ops .start :=
    ⟨Grouped.start, rfl, rfl, fun _ _ hne => absurd rfl hne⟩
  simpa using (hstart.groupOps flushDistance).grouped

end Differ
end Veilence

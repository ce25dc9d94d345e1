import Veilence.Differ.Hunks
import Veilence.Foundation.Runs

/-!
# The canonical form of hunks

Which operations of an edit script the hunks of {lit}`computeUnifiedHunks` show,
and where one hunk ends and the next begins.  {lit}`Shown` says it without the
loop: an operation is shown if it is within the context width of a change, or if
it lies between two changes with at most three context widths and one line
between them.  The loop is the scan of the maximal runs of {lit}`Shown`.

Main results:

- Theorem {lit}`SpanInv.groupStep`: at each turn the loop holds the closed runs
  and the open run of the scan.
- Theorem {lit}`computeUnifiedHunks_eq_spans`: the hunks are the maximal runs.
- Theorem {lit}`computeUnifiedHunks_canonical`: every change is in one hunk, the
  context around a hunk is as wide as the width and the file allow, and two
  neighbouring changes share a hunk exactly if the gap between them is short.
-/

namespace Veilence
namespace Differ

open Go Foundation

/-! ## The operations that are shown -/

/-- Whether operation `i` of a script adds or deletes a line. -/
def ChangeAt (ops : List EditOp) (i : Nat) : Prop :=
  ∃ op ∈ ops[i]?, op.isChange

instance (ops : List EditOp) (i : Nat) : Decidable (ChangeAt ops i) :=
  inferInstanceAs (Decidable (∃ op ∈ ops[i]?, op.isChange))

theorem ChangeAt.lt {ops : List EditOp} {i : Nat} (hi : ChangeAt ops i) : i < ops.length := by
  obtain ⟨op, hop, -⟩ := hi
  exact (List.getElem?_eq_some_iff.mp hop).1

/-- Operation `i` is within the context width of a change. -/
def Near (contextLines : Nat) (ops : List EditOp) (i : Nat) : Prop :=
  ∃ j < ops.length, ChangeAt ops j ∧ i ≤ j + contextLines ∧ j ≤ i + contextLines

/-- Operation `i` lies between two changes that are close enough to share a
hunk. -/
def Between (contextLines : Nat) (ops : List EditOp) (i : Nat) : Prop :=
  ∃ j < i, ChangeAt ops j ∧
    ∃ k < ops.length, ChangeAt ops k ∧ i < k ∧ k ≤ j + (3 * contextLines + 2)

/-- Operation `i` is shown in a hunk. -/
def Shown (contextLines : Nat) (ops : List EditOp) (i : Nat) : Prop :=
  Near contextLines ops i ∨ Between contextLines ops i

instance (contextLines : Nat) (ops : List EditOp) :
    DecidablePred (Shown contextLines ops) := fun i =>
  inferInstanceAs (Decidable
    ((∃ j < ops.length, ChangeAt ops j ∧ i ≤ j + contextLines ∧ j ≤ i + contextLines) ∨
      ∃ j < i, ChangeAt ops j ∧
        ∃ k < ops.length, ChangeAt ops k ∧ i < k ∧ k ≤ j + (3 * contextLines + 2)))

section

variable {contextLines : Nat} {ops : List EditOp} {i : Nat}

theorem ChangeAt.near (hi : ChangeAt ops i) {j : Nat} (hle : j ≤ i + contextLines)
    (hge : i ≤ j + contextLines) : Near contextLines ops j :=
  ⟨i, hi.lt, hi, hle, hge⟩

theorem ChangeAt.shown (hi : ChangeAt ops i) : Shown contextLines ops i :=
  Or.inl (hi.near (by omega) (by omega))

/-- Away from all changes, an operation after one that is not shown is not shown
either. -/
theorem not_shown_of_not_shown (hfar : ¬Near contextLines ops i)
    (hprev : ∀ j, j + 1 = i → ¬Shown contextLines ops j) : ¬Shown contextLines ops i := by
  intro hshown
  rcases hshown with hnear | hbetween
  · exact hfar hnear
  · obtain ⟨j, hji, hj, k, hk, hkc, hik, hwide⟩ := hbetween
    rcases Nat.lt_or_eq_of_le (Nat.le_sub_one_of_lt hji) with hlt | heq
    · exact hprev (i - 1) (by omega) (Or.inr ⟨j, hlt, hj, k, hk, hkc, by omega, hwide⟩)
    · exact hprev j (by omega) hj.shown

/-- Away from all changes, an operation after one that is shown comes more than
the context width after the first change. -/
theorem lt_of_shown {prev : Nat} (hfar : ¬Near contextLines ops (prev + 1))
    (hprev : Shown contextLines ops prev) : contextLines < prev + 1 := by
  by_contra hle
  rcases hprev with ⟨j, -, hj, hge, hle'⟩ | ⟨j, hji, hj, -⟩
  · exact hfar (hj.near (by omega) (by omega))
  · exact hfar (hj.near (by omega) (by omega))

/-- Away from all changes, an operation after one that is shown is shown exactly
if a change follows within twice the context width and one. -/
theorem shown_iff_of_shown {prev : Nat} (hfar : ¬Near contextLines ops (prev + 1))
    (hprev : Shown contextLines ops prev) :
    Shown contextLines ops (prev + 1) ↔
      ∃ k, ChangeAt ops k ∧ prev + 1 < k ∧ k ≤ prev + 1 + (contextLines * 2 + 1) := by
  -- Every change is farther away than the context width.
  have haway : ∀ j, ChangeAt ops j → j + contextLines < prev + 1 ∨
      prev + 1 + contextLines < j := by
    intro j hj
    by_contra hclose
    exact hfar (hj.near (by omega) (by omega))
  constructor
  · intro hshown
    rcases hshown with hnear | hbetween
    · exact absurd hnear hfar
    · obtain ⟨j, hji, hj, k, hk, hkc, hik, hwide⟩ := hbetween
      have := haway j hj
      exact ⟨k, hkc, hik, by omega⟩
  · intro hnext
    obtain ⟨k, hk, hlt, hle⟩ := hnext
    have hkaway := haway k hk
    rcases hprev with ⟨j, -, hj, hge, hle'⟩ | ⟨j, hji, hj, k', hk', hkc', hik', hwide⟩
    · have := haway j hj
      exact Or.inr ⟨j, by omega, hj, k, hk.lt, hk, hlt, by omega⟩
    · have := haway k' hkc'
      exact Or.inr ⟨j, by omega, hj, k', hk', hkc', by omega, hwide⟩

end

/-! ## The loop as a scan -/

/-- The hunk of the operations from `a` to before `b`. -/
def hunkOver (ops : List EditOp) (a b : Nat) : Hunk :=
  { oldStart := (oldSide (ops.take a)).length
    oldCount := (oldSide ((ops.take b).drop a)).length
    newStart := (newSide (ops.take a)).length
    newCount := (newSide ((ops.take b).drop a)).length
    lines := ((ops.take b).drop a).map diffLine }

/-- The operations that the hunks of a script show, in maximal runs. -/
def spans (contextLines : Nat) (ops : List EditOp) : List (Nat × Nat) :=
  runs (Shown contextLines ops) ops.length

theorem hunkOver_self (ops : List EditOp) (a : Nat) :
    hunkOver ops a a = ⟨(oldSide (ops.take a)).length, 0, (newSide (ops.take a)).length, 0, []⟩ := by
  have hempty : (ops.take a).drop a = [] := List.drop_eq_nil_of_le (by simp)
  simp [hunkOver, hempty]

/-- The next operation extends a hunk by its line. -/
theorem hunkOver_push {ops : List EditOp} {a i : Nat} {op : EditOp} (hop : ops[i]? = some op)
    (hle : a ≤ i) : (hunkOver ops a i).push op = hunkOver ops a (i + 1) := by
  have hlt := (List.getElem?_eq_some_iff.mp hop).1
  have htake : (ops.take (i + 1)).drop a = (ops.take i).drop a ++ [op] := by
    rw [List.take_add_one, hop, List.drop_append_of_le_length (by simp; omega)]
    rfl
  obtain ⟨kind, line⟩ := op
  cases kind with
  | ctx => simp [Hunk.push, hunkOver, htake]
  | add => simp [Hunk.push, hunkOver, htake]
  | del => simp [Hunk.push, hunkOver, htake]

/-- The loop invariant: the loop holds what the scan holds. -/
structure SpanInv (contextLines : Nat) (before after : List EditOp) (s : GroupState) :
    Prop where
  loop : GroupInv contextLines before after s
  closed : s.hunks = (scan (Shown contextLines (before.reverse ++ after)) before.length).closed.map
    fun r => hunkOver (before.reverse ++ after) r.1 r.2
  current : s.current =
    (scan (Shown contextLines (before.reverse ++ after)) before.length).start.map
      fun a => hunkOver (before.reverse ++ after) a before.length

section

variable {contextLines : Nat} {before after : List EditOp} {op : EditOp} {s : GroupState}

/-- The operations before the current one, nearest first, by their place in the
script. -/
theorem changeAt_before {k : Nat} (hk : k < before.length) :
    ChangeAt (before.reverse ++ after) (before.length - 1 - k) ↔
      ∃ e ∈ before[k]?, e.isChange := by
  have hget : (before.reverse ++ after)[before.length - 1 - k]? = before[k]? := by
    rw [List.getElem?_append_left (by simp; omega), List.getElem?_reverse (by omega)]
    congr 1
    omega
  rw [ChangeAt, hget]

/-- The operations after the current one by their place in the script. -/
theorem changeAt_after {k : Nat} :
    ChangeAt (before.reverse ++ op :: after) (before.length + 1 + k) ↔
      ∃ e ∈ after[k]?, e.isChange := by
  have hget : (before.reverse ++ op :: after)[before.length + 1 + k]? = after[k]? := by
    rw [List.getElem?_append_right (by simp; omega), List.length_reverse,
      show before.length + 1 + k - before.length = k + 1 by omega, List.getElem?_cons_succ]
  rw [ChangeAt, hget]

theorem getElem?_current :
    (before.reverse ++ op :: after)[before.length]? = some op := by
  rw [List.getElem?_append_right (by simp)]
  simp

theorem any_take_iff {l : List EditOp} {n : Nat} :
    (l.take n).any EditOp.isChange = true ↔
      ∃ k < n, ∃ e ∈ l[k]?, e.isChange := by
  rw [List.any_eq_true]
  constructor
  · intro h
    obtain ⟨e, he, hchange⟩ := h
    obtain ⟨k, hk, hget⟩ := List.mem_take_iff_getElem.mp he
    exact ⟨k, by omega, e, List.getElem?_eq_some_iff.mpr ⟨by omega, hget⟩, hchange⟩
  · intro h
    obtain ⟨k, hk, e, he, hchange⟩ := h
    obtain ⟨hlt, hget⟩ := List.getElem?_eq_some_iff.mp he
    exact ⟨e, List.mem_take_iff_getElem.mpr ⟨k, by omega, hget⟩, hchange⟩

/-- The scans around a context line find a change exactly if it is near one. -/
theorem nearChange_iff (hctx : op.kind = .ctx) :
    nearChange contextLines before after = true ↔
      Near contextLines (before.reverse ++ op :: after) before.length := by
  rw [nearChange, Bool.or_eq_true, any_take_iff, any_take_iff]
  constructor
  · intro h
    rcases h with ⟨k, hk, hchange⟩ | ⟨k, hk, hchange⟩
    · have hlt : k < before.length := by
        obtain ⟨e, he, -⟩ := hchange
        exact (List.getElem?_eq_some_iff.mp he).1
      exact ((changeAt_before hlt).mpr hchange).near (by omega) (by omega)
    · exact (changeAt_after.mpr hchange).near (by omega) (by omega)
  · intro h
    obtain ⟨j, hj, hchange, hge, hle⟩ := h
    rcases Nat.lt_trichotomy j before.length with hlt | heq | hgt
    · left
      rw [show j = before.length - 1 - (before.length - 1 - j) by omega] at hchange
      exact ⟨before.length - 1 - j, by omega, (changeAt_before (by omega)).mp hchange⟩
    · obtain ⟨e, he, hise⟩ := hchange
      rw [heq, getElem?_current] at he
      have heop : op = e := by simpa using he
      subst heop
      simp [EditOp.isChange, hctx] at hise
    · right
      rw [show j = before.length + 1 + (j - before.length - 1) by omega] at hchange
      exact ⟨j - before.length - 1, by omega, changeAt_after.mp hchange⟩

/-- The distance scan finds a change within `d` operations exactly if there is
one. -/
theorem nextChangeDist_le_iff {d : Nat} :
    (0 < nextChangeDist after ∧ nextChangeDist after ≤ d) ↔
      ∃ k < d, ∃ e ∈ after[k]?, e.isChange := by
  unfold nextChangeDist
  cases hfind : after.findIdx? EditOp.isChange with
  | none =>
      rw [List.findIdx?_eq_none_iff] at hfind
      constructor
      · intro h
        exact absurd h.1 (lt_irrefl 0)
      · intro h
        obtain ⟨k, -, e, he, hchange⟩ := h
        rw [hfind e (List.mem_of_getElem? he)] at hchange
        exact absurd hchange Bool.false_ne_true
  | some m =>
      obtain ⟨hm, hchange, hfirst⟩ := List.findIdx?_eq_some_iff_getElem.mp hfind
      constructor
      · intro h
        have hmd : m + 1 ≤ d := h.2
        exact ⟨m, by omega, after[m], by simp [hm], hchange⟩
      · intro h
        obtain ⟨k, hk, e, he, hise⟩ := h
        obtain ⟨hlt, hget⟩ := List.getElem?_eq_some_iff.mp he
        have hmk : m ≤ k := by
          by_contra hlt'
          exact hfirst k (by omega) (hget ▸ hise)
        exact ⟨Nat.succ_pos m, by show m + 1 ≤ d; omega⟩

/-- A shown operation puts its line into the open hunk, or into a new one. -/
theorem SpanInv.enter {fresh : Hunk} (hinv : SpanInv contextLines before (op :: after) s)
    (hshown : Shown contextLines (before.reverse ++ op :: after) before.length)
    (hfresh : s.current = none → fresh = ⟨s.oldIdx, 0, s.newIdx, 0, []⟩) :
    s.hunks =
        (scan (Shown contextLines (before.reverse ++ op :: after))
          (before.length + 1)).closed.map
          (fun r => hunkOver (before.reverse ++ op :: after) r.1 r.2) ∧
      some ((s.current.getD fresh).push op) =
        (scan (Shown contextLines (before.reverse ++ op :: after))
          (before.length + 1)).start.map
          fun a => hunkOver (before.reverse ++ op :: after) a (before.length + 1) := by
  have hclosed := hinv.closed
  have hcurrent := hinv.current
  cases hstart :
      (scan (Shown contextLines (before.reverse ++ op :: after)) before.length).start with
  | none =>
      rw [hstart] at hcurrent
      rw [scan_succ_of_closed hstart, if_pos hshown]
      refine ⟨hclosed, ?_⟩
      have htake : (before.reverse ++ op :: after).take before.length = before.reverse :=
        List.take_left' (by simp)
      rw [Option.map_some, ← hunkOver_push getElem?_current le_rfl, hunkOver_self, htake, hcurrent,
        Option.map_none, Option.getD_none, hfresh hcurrent, hinv.loop.oldIdx, hinv.loop.newIdx]
  | some a =>
      rw [hstart] at hcurrent
      rw [scan_succ_of_open hstart, if_pos hshown]
      refine ⟨hclosed, ?_⟩
      have hle : a ≤ before.length := (start_eq_some_iff.mp hstart).nonempty.le
      rw [hstart, Option.map_some, hcurrent, Option.map_some, Option.getD_some,
        hunkOver_push getElem?_current hle]

/-- Away from all changes the distance scan decides whether the line is shown. -/
theorem nextChangeDist_iff_shown
    (hlen : (before.reverse ++ op :: after).length < 2 ^ 63)
    (hfar : ¬Near contextLines (before.reverse ++ op :: after) before.length)
    (hopen : ∃ prev, prev + 1 = before.length ∧
      Shown contextLines (before.reverse ++ op :: after) prev) :
    (0 < nextChangeDist after ∧
        (nextChangeDist after : Int) ≤ int64 ((contextLines : Int) * 2 + 1)) ↔
      Shown contextLines (before.reverse ++ op :: after) before.length := by
  obtain ⟨prev, hprev, hshown⟩ := hopen
  have hdist : ∀ d, (0 < nextChangeDist after ∧ nextChangeDist after ≤ d) ↔
      ∃ k, ChangeAt (before.reverse ++ op :: after) k ∧ before.length < k ∧
        k ≤ before.length + d := by
    intro d
    rw [nextChangeDist_le_iff]
    constructor
    · intro h
      obtain ⟨m, hm, hchange⟩ := h
      exact ⟨before.length + 1 + m, changeAt_after.mpr hchange, by omega, by omega⟩
    · intro h
      obtain ⟨k, hchange, hlt, hle⟩ := h
      rw [show k = before.length + 1 + (k - before.length - 1) by omega] at hchange
      exact ⟨k - before.length - 1, by omega, changeAt_after.mp hchange⟩
  rw [← hprev] at hfar
  have hshown' := shown_iff_of_shown hfar hshown
  rw [hprev] at hfar hshown'
  rw [hshown', ← hdist]
  have hwidth := lt_of_shown (hprev ▸ hfar) hshown
  by_cases hnext : 0 < nextChangeDist after
  · -- The next change is in the list, so twice the width and one is a small number.
    obtain ⟨k, hk, hlt, -⟩ := (hdist (nextChangeDist after)).mp ⟨hnext, le_rfl⟩
    have hkaway : before.length + contextLines < k := by
      by_contra hle
      exact hfar (hk.near (by omega) (by omega))
    have hklt := hk.lt
    rw [int64_of_range (by omega) (by omega)]
    omega
  · simp [hnext]

/-- One turn of the loop is one position of the scan. -/
theorem SpanInv.groupStep (hinv : SpanInv contextLines before (op :: after) s)
    (hlen : (before.reverse ++ op :: after).length < 2 ^ 63) :
    SpanInv contextLines (op :: before) after
      (groupStep contextLines (int64 (contextLines * 2 + 1)) before op after s) := by
  have hops : (op :: before).reverse ++ after = before.reverse ++ op :: after := by simp
  have hlength : (op :: before).length = before.length + 1 := rfl
  have hloop : GroupInv contextLines (op :: before) after
      (Differ.groupStep contextLines (int64 (contextLines * 2 + 1)) before op after s) :=
    hinv.loop.groupStep
  by_cases hctx : op.kind = .ctx
  · by_cases hnear : nearChange contextLines before after = true
    · -- A change is near: the line is shown.
      have henter := hinv.enter (Or.inl ((nearChange_iff hctx).mp hnear)) (fun _ => rfl)
      refine ⟨hloop, ?_, ?_⟩
      · rw [hops, hlength, ← henter.1]
        simp [Differ.groupStep, hctx, hnear]
      · rw [hops, hlength, ← henter.2]
        simp [Differ.groupStep, hctx, hnear]
    · have hfar := mt (nearChange_iff hctx).mpr hnear
      cases hstart :
          (scan (Shown contextLines (before.reverse ++ op :: after)) before.length).start with
      | none =>
          -- No hunk is open and the line is left out.
          have hcurrent : s.current = none := by rw [hinv.current, hstart, Option.map_none]
          have hhidden : ¬Shown contextLines (before.reverse ++ op :: after) before.length := by
            refine not_shown_of_not_shown hfar ?_
            intro j hj hshown
            have hopen := (isSome_start_succ j).mpr hshown
            rw [hj, hstart] at hopen
            exact absurd hopen Bool.false_ne_true
          have hscan := scan_succ_of_closed hstart
          rw [if_neg hhidden] at hscan
          refine ⟨hloop, ?_, ?_⟩
          · rw [hops, hlength, hscan, ← hinv.closed]
            simp [Differ.groupStep, hctx, hnear, hcurrent]
          · rw [hops, hlength, hscan, hstart]
            simp [Differ.groupStep, hctx, hnear, hcurrent]
      | some a =>
          -- A hunk is open: the distance to the next change decides.
          have hcurrent : s.current =
              some (hunkOver (before.reverse ++ op :: after) a before.length) := by
            rw [hinv.current, hstart, Option.map_some]
          have hreach := start_eq_some_iff.mp hstart
          have hopen : ∃ prev, prev + 1 = before.length ∧
              Shown contextLines (before.reverse ++ op :: after) prev := by
            have hlt := hreach.nonempty
            exact ⟨before.length - 1, by omega, hreach.holds _ (by omega) (by omega)⟩
          have hdecide := nextChangeDist_iff_shown hlen hfar hopen
          have hscan := scan_succ_of_open hstart
          by_cases hshown : Shown contextLines (before.reverse ++ op :: after) before.length
          · have hfresh : s.current = none → s.current.getD ⟨s.oldIdx, 0, s.newIdx, 0, []⟩ =
                ⟨s.oldIdx, 0, s.newIdx, 0, []⟩ :=
              fun hnone => by rw [hnone, Option.getD_none]
            have henter := hinv.enter hshown hfresh
            refine ⟨hloop, ?_, ?_⟩
            · rw [hops, hlength, ← henter.1]
              simp [Differ.groupStep, hctx, hnear, hcurrent, hdecide.mpr hshown]
            · rw [hops, hlength, ← henter.2]
              simp [Differ.groupStep, hctx, hnear, hcurrent, hdecide.mpr hshown]
          · rw [if_neg hshown] at hscan
            have hclose := mt hdecide.mp hshown
            refine ⟨hloop, ?_, ?_⟩
            · rw [hops, hlength, hscan, List.map_append, ← hinv.closed]
              simp only [Differ.groupStep, hctx, hnear, hcurrent, if_neg hclose]
              simp
            · rw [hops, hlength, hscan]
              simp only [Differ.groupStep, hctx, hnear, hcurrent, if_neg hclose]
              simp
  · -- A change is shown, and back-filling finds no line.
    have hchange : op.isChange = true := by simpa [EditOp.isChange] using hctx
    have hat : ChangeAt (before.reverse ++ op :: after) before.length :=
      ⟨op, getElem?_current, hchange⟩
    have henter := hinv.enter hat.shown (fun hnone => openHunk_eq_empty hinv.loop hnone hctx)
    refine ⟨hloop, ?_, ?_⟩
    · rw [hops, hlength, ← henter.1]
      obtain ⟨kind, line⟩ := op
      cases kind with
      | ctx => exact absurd rfl hctx
      | add => rfl
      | del => rfl
    · rw [hops, hlength, ← henter.2]
      obtain ⟨kind, line⟩ := op
      cases kind with
      | ctx => exact absurd rfl hctx
      | add => rfl
      | del => rfl

/-- The whole loop is the scan of the script. -/
theorem SpanInv.groupOps (hinv : SpanInv contextLines before after s)
    (hlen : (before.reverse ++ after).length < 2 ^ 63) :
    SpanInv contextLines (after.reverse ++ before) []
      (groupOps contextLines (int64 (contextLines * 2 + 1)) before after s) := by
  induction after generalizing before s with
  | nil => simpa [Differ.groupOps] using hinv
  | cons op after ih =>
      rw [Differ.groupOps]
      have hops : (op :: before).reverse ++ after = before.reverse ++ op :: after := by simp
      simpa using ih (hinv.groupStep hlen) (hops ▸ hlen)

end

/-- A closed or open scan is read off as its runs. -/
theorem finish_of_scan {contextLines : Nat} {ops : List EditOp} {s : GroupState}
    (hclosed : s.hunks = (scan (Shown contextLines ops) ops.length).closed.map
      fun r => hunkOver ops r.1 r.2)
    (hcurrent : s.current = (scan (Shown contextLines ops) ops.length).start.map
      fun a => hunkOver ops a ops.length) :
    s.finish = (spans contextLines ops).map fun r => hunkOver ops r.1 r.2 := by
  unfold GroupState.finish spans runs
  cases hscan : (scan (Shown contextLines ops) ops.length).start with
  | none =>
      rw [hscan, Option.map_none] at hcurrent
      rw [hcurrent, hclosed]
  | some a =>
      rw [hscan, Option.map_some] at hcurrent
      rw [hcurrent, hclosed, List.map_append, List.map_singleton]

/-- The finished loop holds the maximal runs of shown operations. -/
theorem finish_groupOps {ops : List EditOp} (contextLines : Nat) (hlen : ops.length < 2 ^ 63) :
    (groupOps contextLines (int64 (contextLines * 2 + 1)) [] ops .start).finish =
      (spans contextLines ops).map fun r => hunkOver ops r.1 r.2 := by
  have hstart : SpanInv contextLines [] ops .start :=
    ⟨⟨Grouped.start, rfl, rfl, fun _ _ hne => absurd rfl hne⟩, rfl, rfl⟩
  have hinv := hstart.groupOps hlen
  rw [List.append_nil] at hinv
  have hops : ops.reverse.reverse ++ [] = ops := by simp
  have hclosed := hinv.closed
  have hcurrent := hinv.current
  rw [hops, List.length_reverse] at hclosed hcurrent
  exact finish_of_scan hclosed hcurrent

/-- The hunks are the maximal runs of shown operations. -/
theorem computeUnifiedHunks_eq_spans {oldLines newLines : List GoString} (contextLines : Nat)
    (hlen : (computeEditScript oldLines newLines).length < 2 ^ 63) :
    computeUnifiedHunks oldLines newLines contextLines =
      (spans contextLines (computeEditScript oldLines newLines)).map
        fun r => hunkOver (computeEditScript oldLines newLines) r.1 r.2 := by
  have hunfold : computeUnifiedHunks oldLines newLines contextLines =
      if computeEditScript oldLines newLines = [] then []
      else (groupOps contextLines (int64 (contextLines * 2 + 1)) []
        (computeEditScript oldLines newLines) .start).finish := rfl
  by_cases hempty : computeEditScript oldLines newLines = []
  · rw [hunfold, if_pos hempty, hempty]
    rfl
  · rw [hunfold, if_neg hempty]
    exact finish_groupOps contextLines hlen

/-! ## Unchanged lines around a change -/

/-- The number of unchanged lines between operation `i` and the change before it,
or the start of the script. -/
def unchangedBefore (ops : List EditOp) (i : Nat) : Nat :=
  ((ops.take i).reverse.takeWhile (!·.isChange)).length

/-- The number of unchanged lines between operation `i` and the change after it,
or the end of the script. -/
def unchangedAfter (ops : List EditOp) (i : Nat) : Nat :=
  ((ops.drop (i + 1)).takeWhile (!·.isChange)).length

/-- A list of operations starts with its unchanged lines, and the next operation
is a change. -/
theorem length_takeWhile_unchanged (l : List EditOp) :
    (l.takeWhile (!·.isChange)).length ≤ l.length ∧
      (∀ k < (l.takeWhile (!·.isChange)).length, ¬∃ e ∈ l[k]?, e.isChange) ∧
      ((l.takeWhile (!·.isChange)).length < l.length →
        ∃ e ∈ l[(l.takeWhile (!·.isChange)).length]?, e.isChange) := by
  induction l with
  | nil => simp
  | cons op l ih =>
      by_cases hop : op.isChange = true
      · simp [hop]
      · rw [List.takeWhile_cons_of_pos (by simpa using hop)]
        refine ⟨Nat.succ_le_succ ih.1, ?_, ?_⟩
        · intro k hk
          cases k with
          | zero => simpa using hop
          | succ k => simpa using ih.2.1 k (Nat.lt_of_succ_lt_succ hk)
        · intro hlt
          simpa using ih.2.2 (Nat.lt_of_succ_lt_succ hlt)

/-- The unchanged lines before an operation reach to a change or to the start. -/
theorem unchangedBefore_spec {ops : List EditOp} {i : Nat} (hi : i ≤ ops.length) :
    unchangedBefore ops i ≤ i ∧
      (∀ j, i ≤ j + unchangedBefore ops i → j < i → ¬ChangeAt ops j) ∧
      (unchangedBefore ops i < i → ChangeAt ops (i - 1 - unchangedBefore ops i)) := by
  have hlength : (ops.take i).reverse.length = i := by simp [hi]
  have hget : ∀ k < i, (ops.take i).reverse[k]? = ops[i - 1 - k]? := by
    intro k hk
    rw [List.getElem?_reverse (by simp; omega), List.getElem?_take_of_lt (by simp; omega)]
    congr 1
    simp [hi]
  have hspec := length_takeWhile_unchanged (ops.take i).reverse
  rw [hlength, ← unchangedBefore] at hspec
  refine ⟨hspec.1, ?_, ?_⟩
  · intro j hj hji hchange
    refine hspec.2.1 (i - 1 - j) (by omega) ?_
    rw [hget _ (by omega), show i - 1 - (i - 1 - j) = j by omega]
    exact hchange
  · intro hlt
    have hchange := hspec.2.2 hlt
    rwa [hget _ hlt] at hchange

/-- The unchanged lines after an operation reach to a change or to the end. -/
theorem unchangedAfter_spec {ops : List EditOp} {i : Nat} (hi : i < ops.length) :
    i + 1 + unchangedAfter ops i ≤ ops.length ∧
      (∀ j, i < j → j < i + 1 + unchangedAfter ops i → ¬ChangeAt ops j) ∧
      (i + 1 + unchangedAfter ops i < ops.length →
        ChangeAt ops (i + 1 + unchangedAfter ops i)) := by
  have hspec := length_takeWhile_unchanged (ops.drop (i + 1))
  rw [List.length_drop, ← unchangedAfter] at hspec
  refine ⟨by omega, ?_, ?_⟩
  · intro j hj hlt hchange
    refine hspec.2.1 (j - (i + 1)) (by omega) ?_
    rw [List.getElem?_drop, show i + 1 + (j - (i + 1)) = j by omega]
    exact hchange
  · intro hlt
    have hchange := hspec.2.2 (by omega)
    rwa [List.getElem?_drop] at hchange

/-! ## The canonical form -/

/-- `Canonical contextLines ops spans`: the intervals `spans` of the script are
its hunks in canonical form. -/
structure Canonical (contextLines : Nat) (ops : List EditOp) (spans : List (Nat × Nat)) :
    Prop where
  /-- The hunks come in order and do not touch. -/
  ordered : spans.Pairwise fun r s => r.2 < s.1
  /-- The hunks lie in the script. -/
  inside : ∀ r ∈ spans, r.2 ≤ ops.length
  /-- Every change is in exactly one hunk. -/
  once : ∀ i, ChangeAt ops i → spans.countP (fun r => r.1 ≤ i ∧ i < r.2) = 1
  /-- Every hunk has a first and a last change, with the context that the width
  and the file allow around them. -/
  context : ∀ r ∈ spans, ∃ first last,
    r.1 ≤ first ∧ first ≤ last ∧ last < r.2 ∧ ChangeAt ops first ∧ ChangeAt ops last ∧
    (∀ i, r.1 ≤ i → i < first → ¬ChangeAt ops i) ∧
    (∀ i, last < i → i < r.2 → ¬ChangeAt ops i) ∧
    first - r.1 = min contextLines (unchangedBefore ops first) ∧
    r.2 - (last + 1) = min contextLines (unchangedAfter ops last)
  /-- Two neighbouring changes share a hunk exactly if the gap is short. -/
  merged : ∀ i gap, ChangeAt ops i → ChangeAt ops (i + gap + 1) →
    (∀ k, i < k → k < i + gap + 1 → ¬ChangeAt ops k) →
    ((∃ r ∈ spans, r.1 ≤ i ∧ i + gap + 1 < r.2) ↔ gap ≤ 3 * contextLines + 1)

section

variable {contextLines : Nat} {ops : List EditOp} {a b : Nat}

/-- A hunk ends after the operations near to a change in it. -/
theorem lt_of_near {j : Nat} (hrun : IsRun (Shown contextLines ops) ops.length a b)
    (hj : ChangeAt ops j) {i : Nat} (hi : i < b) (hle : j ≤ i + contextLines) : j < b := by
  by_contra hge
  have hjlt := hj.lt
  exact hrun.right (by omega) (Or.inl (hj.near (by omega) (by omega)))

/-- A hunk starts at most the context width before a change. -/
theorem exists_change (hrun : IsRun (Shown contextLines ops) ops.length a b) :
    ∃ j, ChangeAt ops j ∧ a ≤ j ∧ j < b ∧ j ≤ a + contextLines := by
  have hne := hrun.nonempty
  rcases hrun.holds a le_rfl hne with ⟨j, -, hj, hge, hle⟩ | ⟨j, hja, hj, k, hk, hkc, hak, hwide⟩
  · rcases Nat.lt_or_ge j a with hlt | haj
    · exact absurd (Or.inl (hj.near (by omega) (by omega))) (hrun.left (a - 1) (by omega))
    · exact ⟨j, hj, haj, lt_of_near hrun hj hne hle, hle⟩
  · have hprev : Shown contextLines ops (a - 1) := by
      rcases Nat.lt_or_eq_of_le (Nat.le_sub_one_of_lt hja) with hlt | heq
      · exact Or.inr ⟨j, hlt, hj, k, hk, hkc, by omega, hwide⟩
      · exact heq ▸ hj.shown
    exact absurd hprev (hrun.left (a - 1) (by omega))

/-- The first change of a hunk, and the context before it. -/
theorem exists_first (hrun : IsRun (Shown contextLines ops) ops.length a b) :
    ∃ first, a ≤ first ∧ first < b ∧ ChangeAt ops first ∧
      (∀ i, a ≤ i → i < first → ¬ChangeAt ops i) ∧
      first - a = min contextLines (unchangedBefore ops first) := by
  have hexists : ∃ j, a ≤ j ∧ ChangeAt ops j := by
    obtain ⟨j, hj, haj, -⟩ := exists_change hrun
    exact ⟨j, haj, hj⟩
  have hfirst := Nat.find_spec hexists
  have hmin : ∀ i, a ≤ i → i < Nat.find hexists → ¬ChangeAt ops i :=
    fun i hai hi hchange => Nat.find_min hexists hi ⟨hai, hchange⟩
  obtain ⟨j, hj, haj, hjb, hjc⟩ := exists_change hrun
  have hle : Nat.find hexists ≤ j := Nat.find_min' hexists ⟨haj, hj⟩
  generalize Nat.find hexists = first at hfirst hmin hle
  refine ⟨first, hfirst.1, by omega, hfirst.2, hmin, ?_⟩
  have hspec := unchangedBefore_spec hfirst.2.lt.le
  -- The hunk starts no earlier than the change before, and no later than it can.
  have hroom : first - a ≤ unchangedBefore ops first := by
    by_contra hlt
    exact hmin (first - 1 - unchangedBefore ops first) (by omega) (by omega)
      (hspec.2.2 (by omega))
  have hfull : ¬(first - a < contextLines ∧ first - a < unchangedBefore ops first) := by
    intro h
    exact hrun.left (a - 1) (by omega) (Or.inl (hfirst.2.near (by omega) (by omega)))
  omega

/-- The last change of a hunk, and the context after it. -/
theorem exists_last (hrun : IsRun (Shown contextLines ops) ops.length a b) {first : Nat}
    (hfirst : ChangeAt ops first) (hfb : first < b) :
    ∃ last, first ≤ last ∧ last < b ∧ ChangeAt ops last ∧
      (∀ i, last < i → i < b → ¬ChangeAt ops i) ∧
      b - (last + 1) = min contextLines (unchangedAfter ops last) := by
  have hin := hrun.inside
  have hle : first ≤ b - 1 := by omega
  have hlast : ChangeAt ops (Nat.findGreatest (ChangeAt ops) (b - 1)) :=
    Nat.findGreatest_spec hle hfirst
  have hge : first ≤ Nat.findGreatest (ChangeAt ops) (b - 1) := Nat.le_findGreatest hle hfirst
  have hbound : Nat.findGreatest (ChangeAt ops) (b - 1) ≤ b - 1 := Nat.findGreatest_le (b - 1)
  have hmax : ∀ i, Nat.findGreatest (ChangeAt ops) (b - 1) < i → i < b → ¬ChangeAt ops i :=
    fun i hi hib => Nat.findGreatest_is_greatest hi (by omega)
  generalize Nat.findGreatest (ChangeAt ops) (b - 1) = last at hlast hge hbound hmax
  refine ⟨last, hge, by omega, hlast, hmax, ?_⟩
  have hspec := unchangedAfter_spec hlast.lt
  have hroom : b - (last + 1) ≤ unchangedAfter ops last := by
    by_contra hlt
    exact hmax (last + 1 + unchangedAfter ops last) (by omega) (by omega) (hspec.2.2 (by omega))
  -- A change near the last line would be in the hunk, so the line is near the last one.
  have hwidth : b - (last + 1) ≤ contextLines := by
    rcases hrun.holds (b - 1) (by have := hrun.nonempty; omega) (by omega) with
      ⟨j, -, hj, hjge, hjle⟩ | ⟨j, hjb, hj, k, hk, hkc, hbk, hwide⟩
    · rcases Nat.lt_or_ge (b - 1) j with hlt | hle
      · have := lt_of_near hrun hj (i := b - 1) (by omega) hjle
        omega
      · have hjlast : j ≤ last := by
          by_contra hlt
          exact hmax j (by omega) (by omega) hj
        omega
    · have hkb : ¬ChangeAt ops b := fun hb => hrun.right hb.lt hb.shown
      have hne : k ≠ b := fun h => hkb (h ▸ hkc)
      exact absurd (Or.inr ⟨j, by omega, hj, k, hk, hkc, by omega, hwide⟩)
        (hrun.right (by omega))
  have hfull : ¬(b - (last + 1) < contextLines ∧ b - (last + 1) < unchangedAfter ops last) := by
    intro h
    exact hrun.right (by omega) (Or.inl (hlast.near (by omega) (by omega)))
  omega

/-- Two neighbouring changes with a short gap between them are in one hunk. -/
theorem shown_of_short_gap {i gap : Nat} (hi : ChangeAt ops i)
    (hnext : ChangeAt ops (i + gap + 1)) (hgap : gap ≤ 3 * contextLines + 1) {k : Nat}
    (hik : i ≤ k) (hki : k ≤ i + gap + 1) : Shown contextLines ops k := by
  rcases Nat.lt_or_eq_of_le hik with hlt | heq
  · rcases Nat.lt_or_eq_of_le hki with hlt' | heq'
    · exact Or.inr ⟨i, hlt, hi, i + gap + 1, hnext.lt, hnext, hlt', by omega⟩
    · exact heq' ▸ hnext.shown
  · exact heq ▸ hi.shown

/-- In a long gap the line after the context of the first change is left out. -/
theorem not_shown_of_long_gap {i gap : Nat}
    (hbetween : ∀ k, i < k → k < i + gap + 1 → ¬ChangeAt ops k)
    (hgap : 3 * contextLines + 1 < gap) :
    ¬Shown contextLines ops (i + contextLines + 1) := by
  -- Every change is at or before the first one, or at or after the second one.
  have hout : ∀ j, ChangeAt ops j → j ≤ i ∨ i + gap + 1 ≤ j := by
    intro j hj
    by_contra h
    exact hbetween j (by omega) (by omega) hj
  intro hshown
  rcases hshown with ⟨j, -, hj, hge, hle⟩ | ⟨j, hji, hj, k, -, hk, hik, hwide⟩
  · have := hout j hj
    omega
  · have := hout j hj
    have := hout k hk
    omega

end

/-- The maximal runs of shown operations are in canonical form. -/
theorem canonical_spans (contextLines : Nat) (ops : List EditOp) :
    Canonical contextLines ops (spans contextLines ops) where
  ordered := pairwise_runs ops.length
  inside := fun _ hr => (mem_runs.mp hr).inside
  once := fun _ hi => countP_runs hi.lt hi.shown
  context := by
    intro r hr
    have hrun := mem_runs.mp hr
    obtain ⟨first, haf, hfb, hfirst, hbefore, hlead⟩ := exists_first hrun
    obtain ⟨last, hfl, hlb, hlast, hafter, htrail⟩ := exists_last hrun hfirst hfb
    exact ⟨first, last, haf, hfl, hlb, hfirst, hlast, hbefore, hafter, hlead, htrail⟩
  merged := by
    intro i gap hi hnext hbetween
    constructor
    · intro h
      obtain ⟨r, hr, hri, hrb⟩ := h
      by_contra hgap
      exact not_shown_of_long_gap hbetween (by omega)
        ((mem_runs.mp hr).holds _ (by omega) (by omega))
    · intro hgap
      obtain ⟨r, hr, hri, hir⟩ := exists_mem_runs (p := Shown contextLines ops) hi.lt hi.shown
      have hrun := mem_runs.mp hr
      have hnextlt := hnext.lt
      refine ⟨r, hr, hri, ?_⟩
      by_contra hge
      exact hrun.right (by omega) (shown_of_short_gap hi hnext hgap (by omega) (by omega))

/-- The hunks of two files are intervals of their edit script in canonical form. -/
theorem computeUnifiedHunks_canonical (oldLines newLines : List GoString) (contextLines : Nat)
    (hlen : (computeEditScript oldLines newLines).length < 2 ^ 63) :
    ∃ spans, computeUnifiedHunks oldLines newLines contextLines =
        spans.map (fun r => hunkOver (computeEditScript oldLines newLines) r.1 r.2) ∧
      Canonical contextLines (computeEditScript oldLines newLines) spans :=
  ⟨_, computeUnifiedHunks_eq_spans contextLines hlen, canonical_spans _ _⟩

/-- Two files of one changed line, without context. -/
theorem computeUnifiedHunks_canonical_oneLine :
    ∃ spans, computeUnifiedHunks ["a".toList] ["b".toList] 0 =
        spans.map (fun r => hunkOver (computeEditScript ["a".toList] ["b".toList]) r.1 r.2) ∧
      Canonical 0 (computeEditScript ["a".toList] ["b".toList]) spans :=
  computeUnifiedHunks_canonical _ _ 0 (by decide)

end Differ
end Veilence

import Mathlib

/-!
# Maximal runs of a predicate

A scan over the positions {lit}`0, …, n - 1` that opens a run at the first
position with a property and closes it at the next position without it.  The
scan holds the closed runs and the start of the run still open, so that a loop
that carries the same data can be compared with it turn by turn.

Main results:

- Theorem {lit}`mem_runs`: the scan finds exactly the maximal runs.
- Theorem {lit}`pairwise_runs`: it finds them in order, with a gap between two.
- Theorem {lit}`exists_mem_runs`: every position with the property is in one.
- Theorem {lit}`countP_runs`: and in only one.
-/

namespace Veilence
namespace Foundation

variable (p : Nat → Prop) [DecidablePred p]

/-! ## The scan -/

/-- The closed runs, first position and position after the last, and the start
of the open run. -/
structure Scan where
  closed : List (Nat × Nat)
  start : Option Nat

/-- One position of the scan. -/
def Scan.step (s : Scan) (i : Nat) : Scan :=
  match s.start with
  | none => if p i then ⟨s.closed, some i⟩ else s
  | some a => if p i then s else ⟨s.closed ++ [(a, i)], none⟩

/-- The scan of the positions below `n`. -/
def scan : Nat → Scan
  | 0 => ⟨[], none⟩
  | n + 1 => (scan n).step p n

/-- The runs below `n`: a run still open ends at `n`. -/
def runs (n : Nat) : List (Nat × Nat) :=
  match (scan p n).start with
  | none => (scan p n).closed
  | some a => (scan p n).closed ++ [(a, n)]

/-- `IsRun p n a b`: the positions from `a` to before `b` are a maximal run
below `n`. -/
structure IsRun (p : Nat → Prop) (n a b : Nat) : Prop where
  nonempty : a < b
  inside : b ≤ n
  holds : ∀ i, a ≤ i → i < b → p i
  left : ∀ i, i + 1 = a → ¬p i
  right : b < n → ¬p b

/-- Two runs do not touch, in the order in which they start. -/
theorem IsRun.lt_or_lt_or_eq {p : Nat → Prop} {n a b c d : Nat} (hab : IsRun p n a b)
    (hcd : IsRun p n c d) :
    b < c ∨ d < a ∨ (a = c ∧ b = d) := by
  have hab' := hab.nonempty
  have hcd' := hcd.nonempty
  have hbn := hab.inside
  have hdn := hcd.inside
  by_cases hbc : b < c
  · exact Or.inl hbc
  by_cases hda : d < a
  · exact Or.inr (Or.inl hda)
  have hac : a = c := by
    by_contra hne
    rcases Nat.lt_or_gt_of_ne hne with hlt | hlt
    · exact hcd.left (c - 1) (by omega) (hab.holds (c - 1) (by omega) (by omega))
    · exact hab.left (a - 1) (by omega) (hcd.holds (a - 1) (by omega) (by omega))
  have hbd : b = d := by
    by_contra hne
    rcases Nat.lt_or_gt_of_ne hne with hlt | hlt
    · exact hab.right (by omega) (hcd.holds b (by omega) (by omega))
    · exact hcd.right (by omega) (hab.holds d (by omega) (by omega))
  exact Or.inr (Or.inr ⟨hac, hbd⟩)

/-! ## What the scan holds -/

variable {p}

theorem scan_succ_of_closed {n : Nat} (hstart : (scan p n).start = none) :
    scan p (n + 1) = if p n then ⟨(scan p n).closed, some n⟩ else scan p n := by
  rw [scan, Scan.step, hstart]

theorem scan_succ_of_open {n a : Nat} (hstart : (scan p n).start = some a) :
    scan p (n + 1) =
      if p n then scan p n else ⟨(scan p n).closed ++ [(a, n)], none⟩ := by
  rw [scan, Scan.step, hstart]

/-- After a position the scan is in a run exactly if the position has the
property. -/
theorem isSome_start_succ (n : Nat) : ((scan p (n + 1)).start.isSome = true) ↔ p n := by
  cases hstart : (scan p n).start with
  | none =>
      rw [scan_succ_of_closed hstart]
      by_cases hn : p n
      · simp [hn]
      · simp [hn, hstart]
  | some a =>
      rw [scan_succ_of_open hstart]
      by_cases hn : p n
      · simp [hn, hstart]
      · simp [hn]

/-- The open run is the maximal run that reaches the position of the scan. -/
theorem start_eq_some_iff {n a : Nat} : (scan p n).start = some a ↔ IsRun p n a n := by
  induction n generalizing a with
  | zero =>
      constructor
      · intro hstart
        simp [scan] at hstart
      · intro hrun
        exact absurd hrun.nonempty (Nat.not_lt_zero a)
  | succ n ih =>
      by_cases hn : p n
      · cases hstart : (scan p n).start with
        | none =>
            -- The run opens here: no run reaches the position before.
            rw [scan_succ_of_closed hstart, if_pos hn]
            constructor
            · intro ha
              have han : n = a := by simpa using ha
              subst han
              refine ⟨Nat.lt_succ_self n, le_rfl, ?_, ?_, fun h => absurd h (lt_irrefl _)⟩
              · intro i hge hlt
                rwa [show i = n by omega]
              · intro i hi hpi
                subst hi
                have hopen := (isSome_start_succ i).mpr hpi
                rw [hstart] at hopen
                exact absurd hopen Bool.false_ne_true
            · intro hrun
              have ha := hrun.nonempty
              by_contra hne
              have hlt : a < n := by
                have : a ≠ n := fun h => hne (by simp [h])
                omega
              have hreach : IsRun p n a n :=
                ⟨hlt, le_rfl, fun i hge hi => hrun.holds i hge (by omega), hrun.left,
                  fun h => absurd h (lt_irrefl n)⟩
              rw [ih.mpr hreach] at hstart
              exact absurd hstart (Option.some_ne_none a)
        | some b =>
            rw [scan_succ_of_open hstart, if_pos hn, ih]
            constructor
            · intro hrun
              refine ⟨by have := hrun.nonempty; omega, le_rfl, ?_, hrun.left,
                fun h => absurd h (lt_irrefl _)⟩
              intro i hge hlt
              rcases Nat.lt_succ_iff_lt_or_eq.mp hlt with hi | hi
              · exact hrun.holds i hge hi
              · rwa [hi]
            · intro hrun
              have hb := ih.mp hstart
              have hlt : a < n := by
                have hbn := hb.nonempty
                by_contra hge
                have han : a = n := by
                  have := hrun.nonempty
                  omega
                exact hrun.left (n - 1) (by omega) (hb.holds (n - 1) (by omega) (by omega))
              exact ⟨hlt, le_rfl, fun i hge hi => hrun.holds i hge (by omega), hrun.left,
                fun h => absurd h (lt_irrefl n)⟩
      · have hclosed : (scan p (n + 1)).start = none := by
          have hopen := mt (isSome_start_succ n).mp hn
          simpa using hopen
        rw [hclosed]
        constructor
        · intro ha
          exact absurd ha (Option.some_ne_none a).symm
        · intro hrun
          have := hrun.nonempty
          exact absurd (hrun.holds n (by omega) (by omega)) hn

/-- The closed runs are the maximal runs that end before the position of the
scan. -/
theorem mem_closed_iff {n a b : Nat} :
    (a, b) ∈ (scan p n).closed ↔ b < n ∧ IsRun p n a b := by
  induction n with
  | zero => simp [scan]
  | succ n ih =>
      have hgrow : b < n → (IsRun p n a b ↔ IsRun p (n + 1) a b) := fun hlt =>
        ⟨fun hrun => ⟨hrun.nonempty, by omega, hrun.holds, hrun.left, fun _ => hrun.right hlt⟩,
          fun hrun => ⟨hrun.nonempty, hlt.le, hrun.holds, hrun.left,
            fun _ => hrun.right (by omega)⟩⟩
      -- Only a run that ends at `n` can be new.
      have hnew : b < n + 1 ∧ IsRun p (n + 1) a b ↔
          (b < n ∧ IsRun p n a b) ∨ (b = n ∧ ¬p n ∧ IsRun p n a n) := by
        constructor
        · intro h
          rcases Nat.lt_succ_iff_lt_or_eq.mp h.1 with hlt | heq
          · exact Or.inl ⟨hlt, (hgrow hlt).mpr h.2⟩
          · subst heq
            exact Or.inr ⟨rfl, h.2.right (Nat.lt_succ_self b),
              ⟨h.2.nonempty, le_rfl, h.2.holds, h.2.left, fun h => absurd h (lt_irrefl b)⟩⟩
        · intro h
          rcases h with ⟨hlt, hrun⟩ | ⟨heq, hn, hrun⟩
          · exact ⟨by omega, (hgrow hlt).mp hrun⟩
          · subst heq
            exact ⟨Nat.lt_succ_self b,
              ⟨hrun.nonempty, by omega, hrun.holds, hrun.left, fun _ => hn⟩⟩
      rw [hnew, ← ih, ← start_eq_some_iff]
      cases hstart : (scan p n).start with
      | none =>
          rw [scan_succ_of_closed hstart]
          by_cases hn : p n
          · simp [hn]
          · simp [hn]
      | some c =>
          rw [scan_succ_of_open hstart]
          by_cases hn : p n
          · simp [hn]
          · simp [hn, eq_comm, and_comm]

/-! ## The runs -/

/-- The scan finds exactly the maximal runs. -/
theorem mem_runs {n a b : Nat} : (a, b) ∈ runs p n ↔ IsRun p n a b := by
  have hclosed : (a, b) ∈ (scan p n).closed ↔ b < n ∧ IsRun p n a b := mem_closed_iff
  have hopen := @start_eq_some_iff p _ n a
  have hsplit : IsRun p n a b ↔ (b < n ∧ IsRun p n a b) ∨ (b = n ∧ IsRun p n a n) := by
    constructor
    · intro hrun
      rcases Nat.lt_or_eq_of_le hrun.inside with hlt | heq
      · exact Or.inl ⟨hlt, hrun⟩
      · exact Or.inr ⟨heq, heq ▸ hrun⟩
    · intro h
      rcases h with h | ⟨heq, hrun⟩
      · exact h.2
      · exact heq ▸ hrun
  rw [hsplit, ← hclosed, ← hopen]
  unfold runs
  cases hstart : (scan p n).start with
  | none => simp
  | some c => simp [eq_comm, and_comm]

theorem pairwise_closed (n : Nat) :
    (scan p n).closed.Pairwise (fun r s => r.2 < s.1) := by
  induction n with
  | zero => simp [scan]
  | succ n ih =>
      cases hstart : (scan p n).start with
      | none =>
          rw [scan_succ_of_closed hstart]
          by_cases hn : p n
          · simpa [hn] using ih
          · simpa [hn] using ih
      | some a =>
          rw [scan_succ_of_open hstart]
          by_cases hn : p n
          · simpa [hn] using ih
          · rw [if_neg hn, List.pairwise_append]
            refine ⟨ih, by simp, ?_⟩
            intro r hr s hs
            have hsa : s = (a, n) := by simpa using hs
            have hrun := mem_closed_iff.mp hr
            have hreach := start_eq_some_iff.mp hstart
            have := hrun.2.nonempty
            rcases hrun.2.lt_or_lt_or_eq hreach with h | h | h
            · rw [hsa]
              exact h
            · omega
            · omega

/-- The runs come in order, with a gap between two of them. -/
theorem pairwise_runs (n : Nat) : (runs p n).Pairwise (fun r s => r.2 < s.1) := by
  unfold runs
  cases hstart : (scan p n).start with
  | none => exact pairwise_closed n
  | some a =>
      rw [List.pairwise_append]
      refine ⟨pairwise_closed n, by simp, ?_⟩
      intro r hr s hs
      have hsa : s = (a, n) := by simpa using hs
      have hrun := mem_closed_iff.mp hr
      have hreach := start_eq_some_iff.mp hstart
      have := hrun.2.nonempty
      rcases hrun.2.lt_or_lt_or_eq hreach with h | h | h
      · rw [hsa]
        exact h
      · omega
      · omega

/-- Every position with the property is in a run. -/
theorem exists_mem_runs {n i : Nat} (hin : i < n) (hi : p i) :
    ∃ r ∈ runs p n, r.1 ≤ i ∧ i < r.2 := by
  -- By induction on `n`: the scan has the position in a closed run or in the open one.
  have hscan : ∀ m, i < m →
      (∃ r ∈ (scan p m).closed, r.1 ≤ i ∧ i < r.2) ∨ ∃ a, (scan p m).start = some a ∧ a ≤ i := by
    intro m him
    induction m with
    | zero => omega
    | succ m ih =>
        cases hstart : (scan p m).start with
        | none =>
            rw [scan_succ_of_closed hstart]
            rcases Nat.lt_succ_iff_lt_or_eq.mp him with hlt | heq
            · rcases ih hlt with hclosed | hopen
              · left
                split_ifs
                · exact hclosed
                · exact hclosed
              · obtain ⟨a, ha, -⟩ := hopen
                rw [hstart] at ha
                exact absurd ha.symm (Option.some_ne_none a)
            · right
              subst heq
              exact ⟨i, by simp [hi], le_rfl⟩
        | some a =>
            rw [scan_succ_of_open hstart]
            have hreach := start_eq_some_iff.mp hstart
            have ham := hreach.nonempty
            by_cases hm : p m
            · rw [if_pos hm]
              rcases Nat.lt_succ_iff_lt_or_eq.mp him with hlt | heq
              · exact ih hlt
              · exact Or.inr ⟨a, hstart, by omega⟩
            · rw [if_neg hm]
              have hlt : i < m := by
                rcases Nat.lt_succ_iff_lt_or_eq.mp him with hlt | heq
                · exact hlt
                · exact absurd (heq ▸ hi) hm
              left
              rcases ih hlt with ⟨r, hr, hri⟩ | ⟨b, hb, hbi⟩
              · exact ⟨r, List.mem_append_left _ hr, hri⟩
              · rw [hstart] at hb
                have hab : a = b := Option.some.inj hb
                exact ⟨(a, m), by simp, by simpa [hab] using hbi, hlt⟩
  unfold runs
  rcases hscan n hin with ⟨r, hr, hri⟩ | ⟨a, ha, hai⟩
  · cases hstart : (scan p n).start with
    | none => exact ⟨r, hr, hri⟩
    | some b => exact ⟨r, List.mem_append_left _ hr, hri⟩
  · rw [ha]
    exact ⟨(a, n), by simp, hai, hin⟩

/-- In ordered intervals that do not meet, a position in one of them is in no
other. -/
theorem countP_eq_one_of_pairwise {l : List (Nat × Nat)} {i : Nat}
    (hl : l.Pairwise (fun r s => r.2 < s.1)) (hmem : ∃ r ∈ l, r.1 ≤ i ∧ i < r.2) :
    l.countP (fun r => r.1 ≤ i ∧ i < r.2) = 1 := by
  induction l with
  | nil => simp at hmem
  | cons r l ih =>
      have hr := (List.pairwise_cons.mp hl).1
      by_cases hri : r.1 ≤ i ∧ i < r.2
      · have hrest : l.countP (fun r => r.1 ≤ i ∧ i < r.2) = 0 := by
          rw [List.countP_eq_zero]
          intro s hs hsi
          have hrs := hr s hs
          have hsi' : s.1 ≤ i ∧ i < s.2 := by simpa using hsi
          omega
        rw [List.countP_cons, hrest]
        simp [hri]
      · have hrest : ∃ r ∈ l, r.1 ≤ i ∧ i < r.2 := by
          obtain ⟨s, hs, hsi⟩ := hmem
          rcases List.mem_cons.mp hs with heq | hs
          · exact absurd (heq ▸ hsi) hri
          · exact ⟨s, hs, hsi⟩
        rw [List.countP_cons, ih (List.pairwise_cons.mp hl).2 hrest]
        simp [hri]

/-- Every position with the property is in exactly one run. -/
theorem countP_runs {n i : Nat} (hin : i < n) (hi : p i) :
    (runs p n).countP (fun r => r.1 ≤ i ∧ i < r.2) = 1 :=
  countP_eq_one_of_pairwise (pairwise_runs n) (exists_mem_runs hin hi)

end Foundation
end Veilence

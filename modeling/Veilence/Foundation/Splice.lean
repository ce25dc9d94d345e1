import Mathlib

/-!
# Segmented alignments and positional edits

Two sequences that agree outside finitely many places can be cut into aligned
segments: a kept run followed by a run of the old sequence and the run of the
new sequence that replaces it.  Reading the segments from the left gives a list
of positional edits of the old sequence.  This module proves that carrying out
those edits turns the old sequence into the new one, that the edits are ordered
and disjoint, and that every edit covers exactly the run it replaces.

Main results:

- Theorem {lit}`Segment.splice_edits`: splicing the edits of an alignment into
  its left side gives its right side.
- Theorem {lit}`Segment.edits_pairwise`: the edits of an alignment with kept
  runs between its segments are strictly ordered and disjoint.
- Theorem {lit}`Segment.edits_forall₂_slice`: every edit covers exactly the run
  of the left side that its segment replaces.
-/

namespace Veilence
namespace Foundation

variable {α : Type*}

/-- A positional edit: replace `count` items from position `start` by `repl`. -/
structure Edit (α : Type*) where
  start : Nat
  count : Nat
  repl : List α
deriving DecidableEq

/-- Carry out ordered edits on a sequence whose first item has position `pos`. -/
def splice : Nat → List (Edit α) → List α → List α
  | _, [], xs => xs
  | pos, e :: es, xs =>
      xs.take (e.start - pos) ++ e.repl ++
        splice (e.start + e.count) es (xs.drop (e.start - pos + e.count))

/-- Two edits are apart when the second starts strictly after the end of the first. -/
def Edit.Before (a b : Edit α) : Prop :=
  a.start + a.count < b.start

/-- One aligned segment of two sequences: a kept run, then a run of the old
sequence and the run of the new sequence that replaces it. -/
structure Segment (α : Type*) where
  keep : List α
  old : List α
  new : List α

namespace Segment

/-- The same alignment read from the new sequence to the old one. -/
def swap (s : Segment α) : Segment α :=
  ⟨s.keep, s.new, s.old⟩

/-- The old sequence described by a list of segments. -/
def left (segs : List (Segment α)) : List α :=
  segs.flatMap fun s => s.keep ++ s.old

/-- The new sequence described by a list of segments. -/
def right (segs : List (Segment α)) : List α :=
  segs.flatMap fun s => s.keep ++ s.new

/-- The edits of the old sequence described by segments that begin at `pos`. -/
def edits (pos : Nat) : List (Segment α) → List (Edit α)
  | [] => []
  | s :: ss =>
      ⟨pos + s.keep.length, s.old.length, s.new⟩ ::
        edits (pos + s.keep.length + s.old.length) ss

@[simp]
theorem left_nil : left ([] : List (Segment α)) = [] :=
  rfl

@[simp]
theorem right_nil : right ([] : List (Segment α)) = [] :=
  rfl

@[simp]
theorem left_cons (s : Segment α) (ss : List (Segment α)) :
    left (s :: ss) = s.keep ++ s.old ++ left ss :=
  rfl

@[simp]
theorem right_cons (s : Segment α) (ss : List (Segment α)) :
    right (s :: ss) = s.keep ++ s.new ++ right ss :=
  rfl

@[simp]
theorem left_append (ss ts : List (Segment α)) :
    left (ss ++ ts) = left ss ++ left ts := by
  simp [left]

@[simp]
theorem right_append (ss ts : List (Segment α)) :
    right (ss ++ ts) = right ss ++ right ts := by
  simp [right]

@[simp]
theorem left_map_swap (segs : List (Segment α)) :
    left (segs.map swap) = right segs := by
  simp [left, right, swap, List.flatMap_map]

@[simp]
theorem right_map_swap (segs : List (Segment α)) :
    right (segs.map swap) = left segs := by
  simp [left, right, swap, List.flatMap_map]

/-- Splicing the edits of an alignment into its left side gives its right side. -/
theorem splice_edits (pos : Nat) (segs : List (Segment α)) (tail : List α) :
    splice pos (edits pos segs) (left segs ++ tail) = right segs ++ tail := by
  induction segs generalizing pos with
  | nil => simp [edits, splice]
  | cons s ss ih =>
      have htake : (left (s :: ss) ++ tail).take s.keep.length = s.keep := by
        simp
      have hdrop :
          (left (s :: ss) ++ tail).drop (s.keep.length + s.old.length) =
            left ss ++ tail := by
        have hlen : s.keep.length + s.old.length = (s.keep ++ s.old).length := by
          simp
        rw [left_cons, List.append_assoc, hlen, List.drop_left]
      simp only [edits, splice, Nat.add_sub_cancel_left]
      rw [htake, hdrop, ih]
      simp

/-- Every edit of an alignment starts at or after the alignment's position. -/
theorem le_start_of_mem_edits {pos : Nat} {segs : List (Segment α)} {e : Edit α}
    (he : e ∈ edits pos segs) : pos ≤ e.start := by
  induction segs generalizing pos with
  | nil => simp [edits] at he
  | cons s ss ih =>
      rcases List.mem_cons.mp he with rfl | hrest
      · simp
      · have hstart := ih hrest
        omega

/-- If the first segment keeps something, every edit starts strictly later. -/
theorem lt_start_of_mem_edits {pos : Nat} {segs : List (Segment α)} {e : Edit α}
    (hkeep : ∀ s ∈ segs, s.keep ≠ []) (he : e ∈ edits pos segs) : pos < e.start := by
  cases segs with
  | nil => simp [edits] at he
  | cons s ss =>
      have hpos : 0 < s.keep.length := List.length_pos_iff.mpr (hkeep s (by simp))
      rcases List.mem_cons.mp he with rfl | hrest
      · simp only
        omega
      · have hstart := le_start_of_mem_edits hrest
        omega

/-- Edits of an alignment are strictly ordered when something is kept between
any two of its segments. -/
theorem edits_pairwise (pos : Nat) {segs : List (Segment α)}
    (hkeep : ∀ s ∈ segs.tail, s.keep ≠ []) :
    (edits pos segs).Pairwise Edit.Before := by
  induction segs generalizing pos with
  | nil => simp [edits]
  | cons s ss ih =>
      simp only [List.tail_cons] at hkeep
      simp only [edits, List.pairwise_cons]
      refine ⟨?_, ih _ fun t ht => hkeep t (List.mem_of_mem_tail ht)⟩
      intro e he
      exact lt_start_of_mem_edits hkeep he

/-- Every edit covers exactly the run of the left side that its segment replaces. -/
theorem edits_forall₂_slice (before : List α) (segs : List (Segment α)) (tail : List α) :
    List.Forall₂
      (fun s e => ((before ++ left segs ++ tail).drop e.start).take e.count = s.old ∧
        e.start + e.count ≤ (before ++ left segs ++ tail).length ∧ e.repl = s.new)
      segs (edits before.length segs) := by
  induction segs generalizing before with
  | nil => simp [edits]
  | cons s ss ih =>
      have hrest := ih (before ++ s.keep ++ s.old)
      simp only [List.append_assoc, List.length_append] at hrest
      simp only [edits]
      refine List.Forall₂.cons ⟨?_, ?_, rfl⟩ ?_
      · have hcut : before ++ left (s :: ss) ++ tail =
            (before ++ s.keep) ++ (s.old ++ (left ss ++ tail)) := by
          simp
        have hlen : before.length + s.keep.length = (before ++ s.keep).length := by
          simp
        simp only [hcut, hlen, List.drop_left, List.take_left]
      · simp only [left_cons, List.length_append]
        omega
      · simpa [Nat.add_assoc] using hrest

end Segment
end Foundation
end Veilence

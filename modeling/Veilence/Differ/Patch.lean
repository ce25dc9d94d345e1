import Veilence.Differ.Hunks
import Veilence.Foundation.Splice

/-!
# Hunks are patches

The grouped script is cut into chunks, a run of left-out context lines followed
by the operations of one hunk.  Reading the chunks as aligned segments of the
old and the new file, the hunks are exactly the positional edits of that
alignment, so the general theory of alignments gives the patch properties.

Main results:

- Theorem {lit}`exists_chunks`: every hunk list the loop builds comes from a
  chunking of the edit script.
- Theorem {lit}`isPatch_computeUnifiedHunks`: the hunks are ordered and disjoint
  on both sides, their bodies spell the ranges they name, and replacing the old
  ranges by the new lines turns the old file into the new one, and conversely.
-/

namespace Veilence
namespace Differ

open Go Foundation

/-! ## Reading a hunk -/

/-- The context and deleted lines of a hunk body, without their prefix. -/
def Hunk.oldBody (h : Hunk) : List GoString :=
  (h.lines.filter (·.kind ≠ .add)).map (·.text.tail)

/-- The context and added lines of a hunk body, without their prefix. -/
def Hunk.newBody (h : Hunk) : List GoString :=
  (h.lines.filter (·.kind ≠ .del)).map (·.text.tail)

/-- Replace the hunk's old range by its new lines. -/
def Hunk.oldEdit (h : Hunk) : Edit GoString :=
  ⟨h.oldStart, h.oldCount, h.newBody⟩

/-- Replace the hunk's new range by its old lines. -/
def Hunk.newEdit (h : Hunk) : Edit GoString :=
  ⟨h.newStart, h.newCount, h.oldBody⟩

/-- Hunks form a correct patch between two line lists. -/
structure IsPatch (oldLines newLines : List GoString) (hunks : List Hunk) : Prop where
  oldOrdered : hunks.Pairwise fun a b => a.oldStart + a.oldCount < b.oldStart
  newOrdered : hunks.Pairwise fun a b => a.newStart + a.newCount < b.newStart
  oldBody : ∀ h ∈ hunks, h.oldStart + h.oldCount ≤ oldLines.length ∧
    h.oldBody = (oldLines.drop h.oldStart).take h.oldCount
  newBody : ∀ h ∈ hunks, h.newStart + h.newCount ≤ newLines.length ∧
    h.newBody = (newLines.drop h.newStart).take h.newCount
  prefixed : ∀ h ∈ hunks, ∀ l ∈ h.lines, l.text.head? = some (prefixOf l.kind)
  forward : splice 0 (hunks.map Hunk.oldEdit) oldLines = newLines
  backward : splice 0 (hunks.map Hunk.newEdit) newLines = oldLines

/-! ## Chunks of a script -/

/-- The context lines left out before a hunk and the operations of the hunk. -/
structure Chunk where
  skip : List EditOp
  body : List EditOp

/-- The operations of a list of chunks. -/
def Chunk.ops (chunks : List Chunk) : List EditOp :=
  chunks.flatMap fun c => c.skip ++ c.body

/-- The hunk with the given operations at the given positions. -/
def hunkAt (oldStart newStart : Nat) (body : List EditOp) : Hunk :=
  ⟨oldStart, (oldSide body).length, newStart, (newSide body).length, body.map diffLine⟩

/-- The hunks of a list of chunks that starts at the given positions. -/
def hunksAt (oldPos newPos : Nat) : List Chunk → List Hunk
  | [] => []
  | c :: cs =>
      let oldStart := oldPos + (oldSide c.skip).length
      let newStart := newPos + (newSide c.skip).length
      hunkAt oldStart newStart c.body ::
        hunksAt (oldStart + (oldSide c.body).length) (newStart + (newSide c.body).length) cs

@[simp]
theorem Chunk.ops_append (cs ds : List Chunk) :
    Chunk.ops (cs ++ ds) = Chunk.ops cs ++ Chunk.ops ds := by
  simp [Chunk.ops]

@[simp]
theorem Chunk.ops_singleton (c : Chunk) : Chunk.ops [c] = c.skip ++ c.body := by
  simp [Chunk.ops]

/-- The hunks of a longer chunking extend the hunks of its prefix. -/
theorem hunksAt_append (oldPos newPos : Nat) (cs ds : List Chunk) :
    hunksAt oldPos newPos (cs ++ ds) =
      hunksAt oldPos newPos cs ++
        hunksAt (oldPos + (oldSide (Chunk.ops cs)).length)
          (newPos + (newSide (Chunk.ops cs)).length) ds := by
  induction cs generalizing oldPos newPos with
  | nil => simp [hunksAt, Chunk.ops]
  | cons c cs ih =>
      have hops : Chunk.ops (c :: cs) = c.skip ++ c.body ++ Chunk.ops cs := rfl
      simp [hunksAt, ih, hops, Nat.add_assoc]

/-- Pushing an operation onto a hunk appends it to the hunk's operations. -/
theorem push_hunkAt (oldStart newStart : Nat) (body : List EditOp) (op : EditOp) :
    (hunkAt oldStart newStart body).push op = hunkAt oldStart newStart (body ++ [op]) := by
  obtain ⟨kind, line⟩ := op
  cases kind <;> simp [hunkAt, Hunk.push]

/-- Chunks are well formed when only context lines are left out and something is
left out before every hunk but the first. -/
structure Chunk.WellFormed (chunks : List Chunk) : Prop where
  skip_ctx : ∀ c ∈ chunks, ∀ op ∈ c.skip, op.kind = .ctx
  skip_ne_nil : ∀ c ∈ chunks.tail, c.skip ≠ []

/-- Appending a chunk with a nonempty run of context lines keeps chunks well formed. -/
theorem Chunk.WellFormed.append {chunks : List Chunk} {c : Chunk}
    (hwf : Chunk.WellFormed chunks) (hctx : ∀ op ∈ c.skip, op.kind = .ctx)
    (hne : chunks ≠ [] → c.skip ≠ []) : Chunk.WellFormed (chunks ++ [c]) where
  skip_ctx := by
    intro d hd
    rcases List.mem_append.mp hd with hd | hd
    · exact hwf.skip_ctx d hd
    · rw [List.mem_singleton.mp hd]
      exact hctx
  skip_ne_nil := by
    intro d hd
    cases chunks with
    | nil => simp at hd
    | cons first rest =>
        rcases List.mem_append.mp hd with hd | hd
        · exact hwf.skip_ne_nil d hd
        · rw [List.mem_singleton.mp hd]
          exact hne (by simp)

/-- Replacing the body of the last chunk keeps chunks well formed. -/
theorem Chunk.WellFormed.replace_body {chunks : List Chunk} {c : Chunk}
    (hwf : Chunk.WellFormed (chunks ++ [c])) (body : List EditOp) :
    Chunk.WellFormed (chunks ++ [⟨c.skip, body⟩]) where
  skip_ctx := by
    intro d hd
    rcases List.mem_append.mp hd with hd | hd
    · exact hwf.skip_ctx d (by simp [hd])
    · rw [List.mem_singleton.mp hd]
      exact hwf.skip_ctx c (by simp)
  skip_ne_nil := by
    intro d hd
    cases chunks with
    | nil => simp at hd
    | cons first rest =>
        rcases List.mem_append.mp hd with hd | hd
        · exact hwf.skip_ne_nil d (by simp [hd])
        · rw [List.mem_singleton.mp hd]
          exact hwf.skip_ne_nil c (by simp)

/-! ## Every grouping is a chunking -/

/-- The chunking behind the closed hunks and the open hunk of a loop state. -/
inductive Chunked : List EditOp → List Hunk → Option Hunk → Prop
  | closed {chunks : List Chunk} {tail : List EditOp} (hwf : Chunk.WellFormed chunks)
      (hctx : ∀ op ∈ tail, op.kind = .ctx) (hne : chunks ≠ [] → tail ≠ []) :
      Chunked (Chunk.ops chunks ++ tail) (hunksAt 0 0 chunks) none
  | opened {chunks : List Chunk} {c : Chunk} (hwf : Chunk.WellFormed (chunks ++ [c])) :
      Chunked (Chunk.ops (chunks ++ [c])) (hunksAt 0 0 chunks)
        (some (hunkAt (oldSide (Chunk.ops chunks ++ c.skip)).length
          (newSide (Chunk.ops chunks ++ c.skip)).length c.body))

/-- Closing the open hunk lists the hunks of all chunks. -/
theorem hunksAt_close (chunks : List Chunk) (c : Chunk) :
    hunksAt 0 0 chunks ++
        [hunkAt (oldSide (Chunk.ops chunks ++ c.skip)).length
          (newSide (Chunk.ops chunks ++ c.skip)).length c.body] =
      hunksAt 0 0 (chunks ++ [c]) := by
  simp [hunksAt_append, hunksAt]

/-- Appending a context line to a run of context lines. -/
theorem forall_ctx_append {ops : List EditOp} {op : EditOp}
    (hops : ∀ p ∈ ops, p.kind = .ctx) (hop : op.kind = .ctx) :
    ∀ p ∈ ops ++ [op], p.kind = .ctx := by
  intro p hp
  rcases List.mem_append.mp hp with hp | hp
  · exact hops p hp
  · rw [List.mem_singleton.mp hp]
    exact hop

/-- Every grouping derivation is a chunking of the operations passed. -/
theorem chunked_of_grouped {ops : List EditOp} {hunks : List Hunk} {current : Option Hunk}
    (hgrouped : Grouped ops hunks current) : Chunked ops hunks current := by
  induction hgrouped with
  | start => exact @Chunked.closed [] [] ⟨by simp, by simp⟩ (by simp) (by simp)
  | @skip ops hunks op _ hctx ih =>
      cases ih with
      | @closed chunks tail hwf htail _ =>
          rw [List.append_assoc]
          exact Chunked.closed hwf (forall_ctx_append htail hctx) (by simp)
  | @enter ops hunks op _ ih =>
      cases ih with
      | @closed chunks tail hwf htail hne =>
          have hopen := Chunked.opened (c := ⟨tail, [op]⟩) (hwf.append htail hne)
          rw [Chunk.ops_append, Chunk.ops_singleton, ← List.append_assoc] at hopen
          exact push_hunkAt _ _ [] op ▸ hopen
  | @extend ops hunks current op _ ih =>
      cases ih with
      | @opened chunks c hwf =>
          have hopen := Chunked.opened (hwf.replace_body (c.body ++ [op]))
          rw [Chunk.ops_append, Chunk.ops_singleton, ← List.append_assoc,
            ← List.append_assoc] at hopen
          rw [push_hunkAt, Chunk.ops_append, Chunk.ops_singleton, ← List.append_assoc]
          exact hopen
  | @close ops hunks current op _ hctx ih =>
      cases ih with
      | @opened chunks c hwf =>
          rw [hunksAt_close]
          exact Chunked.closed hwf (by simpa using hctx) (by simp)

/-- The hunks of a finished grouping loop come from a chunking of its operations. -/
theorem exists_chunks_groupOps (contextLines : Nat) (flushDistance : Int)
    (ops : List EditOp) :
    ∃ chunks tail, ops = Chunk.ops chunks ++ tail ∧ Chunk.WellFormed chunks ∧
      (∀ op ∈ tail, op.kind = .ctx) ∧
      (groupOps contextLines flushDistance [] ops .start).finish = hunksAt 0 0 chunks := by
  have hchunked := chunked_of_grouped (grouped_groupOps contextLines flushDistance ops)
  generalize groupOps contextLines flushDistance [] ops .start = s at hchunked ⊢
  obtain ⟨hunks, current, oldIdx, newIdx⟩ := s
  cases hchunked with
  | @closed chunks tail hwf htail _ =>
      exact ⟨chunks, tail, rfl, hwf, htail, rfl⟩
  | @opened chunks c hwf =>
      exact ⟨chunks ++ [c], [], by simp, hwf, by simp, hunksAt_close chunks c⟩

/-- The hunks of a unified diff come from a chunking of the edit script. -/
theorem exists_chunks (oldLines newLines : List GoString) (contextLines : Nat) :
    ∃ chunks tail, computeEditScript oldLines newLines = Chunk.ops chunks ++ tail ∧
      Chunk.WellFormed chunks ∧ (∀ op ∈ tail, op.kind = .ctx) ∧
      computeUnifiedHunks oldLines newLines contextLines = hunksAt 0 0 chunks := by
  simp only [computeUnifiedHunks]
  split_ifs with hempty
  · exact ⟨[], [], by simp [hempty, Chunk.ops], ⟨by simp, by simp⟩, by simp, rfl⟩
  · exact exists_chunks_groupOps _ _ _

/-! ## Chunks as aligned segments -/

/-- A chunk as an aligned segment of the old and the new file. -/
def Chunk.segment (c : Chunk) : Segment GoString :=
  ⟨oldSide c.skip, oldSide c.body, newSide c.body⟩

/-- The body of a hunk spells its operations on both sides. -/
theorem oldBody_hunkAt (oldStart newStart : Nat) (body : List EditOp) :
    (hunkAt oldStart newStart body).oldBody = oldSide body := by
  simp only [hunkAt, Hunk.oldBody, oldSide, List.filter_map, List.map_map]
  rfl

theorem newBody_hunkAt (oldStart newStart : Nat) (body : List EditOp) :
    (hunkAt oldStart newStart body).newBody = newSide body := by
  simp only [hunkAt, Hunk.newBody, newSide, List.filter_map, List.map_map]
  rfl

/-- The hunks of a chunking, read on the old side, are the edits of its segments. -/
theorem map_oldEdit_hunksAt (oldPos newPos : Nat) (chunks : List Chunk) :
    (hunksAt oldPos newPos chunks).map Hunk.oldEdit =
      Segment.edits oldPos (chunks.map Chunk.segment) := by
  induction chunks generalizing oldPos newPos with
  | nil => rfl
  | cons c cs ih =>
      simp only [hunksAt, List.map_cons, ih, Segment.edits, Hunk.oldEdit, newBody_hunkAt]
      rfl

/-- Read on the new side, they are the edits of the swapped segments. -/
theorem map_newEdit_hunksAt (oldPos newPos : Nat) {chunks : List Chunk}
    (hctx : ∀ c ∈ chunks, ∀ op ∈ c.skip, op.kind = .ctx) :
    (hunksAt oldPos newPos chunks).map Hunk.newEdit =
      Segment.edits newPos ((chunks.map Chunk.segment).map Segment.swap) := by
  induction chunks generalizing oldPos newPos with
  | nil => rfl
  | cons c cs ih =>
      have hskip : oldSide c.skip = newSide c.skip :=
        oldSide_eq_newSide_of_ctx (hctx c (by simp))
      have hrest := fun d hd => hctx d (List.mem_cons_of_mem c hd)
      simp only [hunksAt, List.map_cons, ih _ _ hrest, Segment.edits, Hunk.newEdit,
        oldBody_hunkAt, Chunk.segment, Segment.swap, hskip]
      rfl

/-- The left side of the segments is the old side of the operations. -/
theorem left_map_segment (chunks : List Chunk) :
    Segment.left (chunks.map Chunk.segment) = oldSide (Chunk.ops chunks) := by
  induction chunks with
  | nil => rfl
  | cons c cs ih =>
      have hops : Chunk.ops (c :: cs) = c.skip ++ c.body ++ Chunk.ops cs := rfl
      simp [Chunk.segment, ih, hops]

/-- The right side of the segments is the new side of the operations. -/
theorem right_map_segment {chunks : List Chunk}
    (hctx : ∀ c ∈ chunks, ∀ op ∈ c.skip, op.kind = .ctx) :
    Segment.right (chunks.map Chunk.segment) = newSide (Chunk.ops chunks) := by
  induction chunks with
  | nil => rfl
  | cons c cs ih =>
      have hops : Chunk.ops (c :: cs) = c.skip ++ c.body ++ Chunk.ops cs := rfl
      have hskip : oldSide c.skip = newSide c.skip :=
        oldSide_eq_newSide_of_ctx (hctx c (by simp))
      have hrest := ih fun d hd => hctx d (List.mem_cons_of_mem c hd)
      simp [Chunk.segment, hrest, hops, hskip]

/-- Kept runs between segments are the nonempty runs left out between hunks. -/
theorem keep_ne_nil_of_wellFormed {chunks : List Chunk} (hwf : Chunk.WellFormed chunks) :
    ∀ s ∈ (chunks.map Chunk.segment).tail, s.keep ≠ [] := by
  intro s hs
  rw [← List.map_tail] at hs
  obtain ⟨c, hc, rfl⟩ := List.mem_map.mp hs
  have hne := hwf.skip_ne_nil c hc
  have hctx := hwf.skip_ctx c (List.mem_of_mem_tail hc)
  obtain ⟨op, rest, hskip⟩ := List.exists_cons_of_ne_nil hne
  have hop : op.kind = .ctx := hctx op (by simp [hskip])
  simp [Chunk.segment, oldSide, hskip, hop]

/-- Every hunk of a chunking spells the operations of one of its chunks. -/
theorem exists_of_mem_hunksAt {oldPos newPos : Nat} {chunks : List Chunk} {h : Hunk}
    (hh : h ∈ hunksAt oldPos newPos chunks) :
    ∃ oldStart newStart, ∃ c ∈ chunks, h = hunkAt oldStart newStart c.body := by
  induction chunks generalizing oldPos newPos with
  | nil => simp [hunksAt] at hh
  | cons c cs ih =>
      simp only [hunksAt] at hh
      rcases List.mem_cons.mp hh with rfl | hrest
      · exact ⟨_, _, c, by simp, rfl⟩
      · obtain ⟨oldStart, newStart, d, hd, heq⟩ := ih hrest
        exact ⟨oldStart, newStart, d, List.mem_cons_of_mem c hd, heq⟩

/-- The body lines of a hunk carry the prefix of their kind. -/
theorem prefixed_hunkAt {oldStart newStart : Nat} {body : List EditOp} :
    ∀ l ∈ (hunkAt oldStart newStart body).lines, l.text.head? = some (prefixOf l.kind) := by
  intro l hl
  obtain ⟨op, _, rfl⟩ := List.mem_map.mp hl
  rfl

/-- The body lines of all hunks are the operations of all chunk bodies. -/
theorem flatMap_lines_hunksAt (oldPos newPos : Nat) (chunks : List Chunk) :
    (hunksAt oldPos newPos chunks).flatMap (·.lines) =
      (chunks.flatMap (·.body)).map diffLine := by
  induction chunks generalizing oldPos newPos with
  | nil => rfl
  | cons c cs ih => simp [hunksAt, hunkAt, ih]

/-- Hunks whose body lines are all context come from equal files. -/
theorem eq_of_lines_ctx {oldLines newLines : List GoString} (contextLines : Nat)
    (hctx : ∀ l ∈ (computeUnifiedHunks oldLines newLines contextLines).flatMap (·.lines),
      l.kind = .ctx) : oldLines = newLines := by
  obtain ⟨chunks, tail, hops, hwf, htail, hhunks⟩ :=
    exists_chunks oldLines newLines contextLines
  rw [hhunks, flatMap_lines_hunksAt] at hctx
  have hall : ∀ op ∈ computeEditScript oldLines newLines, op.kind = .ctx := by
    intro op hop
    rw [hops, List.mem_append] at hop
    rcases hop with hop | hop
    · obtain ⟨c, hc, hop⟩ := List.mem_flatMap.mp hop
      rcases List.mem_append.mp hop with hop | hop
      · exact hwf.skip_ctx c hc op hop
      · exact hctx (diffLine op)
          (List.mem_map_of_mem (List.mem_flatMap.mpr ⟨c, hc, hop⟩))
    · exact htail op hop
  rw [← oldSide_computeEditScript oldLines newLines, oldSide_eq_newSide_of_ctx hall,
    newSide_computeEditScript]

/-! ## The patch theorem -/

/-- The chunks behind the hunks align the two files. -/
theorem exists_alignment (oldLines newLines : List GoString) (contextLines : Nat) :
    ∃ chunks tail, Chunk.WellFormed chunks ∧
      computeUnifiedHunks oldLines newLines contextLines = hunksAt 0 0 chunks ∧
      oldLines = Segment.left (chunks.map Chunk.segment) ++ tail ∧
      newLines = Segment.right (chunks.map Chunk.segment) ++ tail := by
  obtain ⟨chunks, tail, hops, hwf, htail, hhunks⟩ :=
    exists_chunks oldLines newLines contextLines
  refine ⟨chunks, oldSide tail, hwf, hhunks, ?_, ?_⟩
  · rw [left_map_segment, ← oldSide_append, ← hops, oldSide_computeEditScript]
  · rw [right_map_segment hwf.skip_ctx, oldSide_eq_newSide_of_ctx htail,
      ← newSide_append, ← hops, newSide_computeEditScript]

/-- Carrying out the hunks on the old lines gives the new lines. -/
theorem splice_oldEdits (oldLines newLines : List GoString) (contextLines : Nat) :
    splice 0 ((computeUnifiedHunks oldLines newLines contextLines).map Hunk.oldEdit)
      oldLines = newLines := by
  obtain ⟨chunks, tail, _, hhunks, hold, hnew⟩ :=
    exists_alignment oldLines newLines contextLines
  rw [hhunks, map_oldEdit_hunksAt]
  nth_rewrite 1 [hold]
  rw [Segment.splice_edits, ← hnew]

/-- Two facts about the same pairing hold together at every right member. -/
theorem exists_left_of_forall₂ {α β : Type*} {R S : α → β → Prop} {as : List α}
    {bs : List β} (hR : List.Forall₂ R as bs) (hS : List.Forall₂ S as bs) :
    ∀ b ∈ bs, ∃ a, R a b ∧ S a b := by
  induction hR with
  | nil => simp
  | @cons a b as bs hab _ ih =>
      cases hS with
      | cons hab' hS =>
          intro c hc
          rcases List.mem_cons.mp hc with rfl | hc
          · exact ⟨a, hab, hab'⟩
          · exact ih hS c hc

/-- The hunks of a unified diff are a correct patch, for every context width and
on both paths of the edit script. -/
theorem isPatch_computeUnifiedHunks (oldLines newLines : List GoString)
    (contextLines : Nat) :
    IsPatch oldLines newLines (computeUnifiedHunks oldLines newLines contextLines) := by
  have hforward := splice_oldEdits oldLines newLines contextLines
  obtain ⟨chunks, tail, hwf, hhunks, hold, hnew⟩ :=
    exists_alignment oldLines newLines contextLines
  rw [hhunks] at hforward ⊢
  set segs := chunks.map Chunk.segment with hsegs
  have hnewLeft : newLines = Segment.left (segs.map Segment.swap) ++ tail := by
    rw [Segment.left_map_swap, hnew]
  have holdEdits := map_oldEdit_hunksAt 0 0 chunks
  have hnewEdits := map_newEdit_hunksAt 0 0 hwf.skip_ctx
  have hkeep := keep_ne_nil_of_wellFormed hwf
  have hkeepSwap : ∀ s ∈ (segs.map Segment.swap).tail, s.keep ≠ [] := by
    intro s hs
    rw [← List.map_tail] at hs
    obtain ⟨t, ht, rfl⟩ := List.mem_map.mp hs
    exact hkeep t ht
  -- The slices of both files, paired with the hunks in their order.
  have holdSlices := Segment.edits_forall₂_slice [] segs tail
  have hnewSlices := Segment.edits_forall₂_slice [] (segs.map Segment.swap) tail
  rw [List.nil_append, ← hold, List.length_nil, ← holdEdits,
    List.forall₂_map_right_iff] at holdSlices
  rw [List.nil_append, ← hnewLeft, List.length_nil, ← hnewEdits,
    List.forall₂_map_right_iff, List.forall₂_map_left_iff] at hnewSlices
  have hslices := exists_left_of_forall₂ holdSlices hnewSlices
  refine ⟨?_, ?_, ?_, ?_, ?_, hforward, ?_⟩
  · have hpairs := Segment.edits_pairwise 0 hkeep
    rw [← holdEdits, List.pairwise_map] at hpairs
    exact hpairs
  · have hpairs := Segment.edits_pairwise 0 hkeepSwap
    rw [← hnewEdits, List.pairwise_map] at hpairs
    exact hpairs
  · intro h hh
    obtain ⟨s, ⟨hslice, hrange, _⟩, _, _, hrepl⟩ := hslices h hh
    exact ⟨hrange, hrepl.trans hslice.symm⟩
  · intro h hh
    obtain ⟨s, ⟨_, _, hrepl⟩, hslice, hrange, _⟩ := hslices h hh
    exact ⟨hrange, hrepl.trans hslice.symm⟩
  · intro h hh
    obtain ⟨_, _, c, _, rfl⟩ := exists_of_mem_hunksAt hh
    exact prefixed_hunkAt
  · rw [hnewEdits]
    nth_rewrite 1 [hnewLeft]
    rw [Segment.splice_edits, Segment.right_map_swap, ← hold]

example :
    (computeUnifiedHunks ["a".toList, "b".toList, "c".toList]
        ["a".toList, "x".toList, "c".toList] 0).map (fun h => (h.oldStart, h.oldCount)) =
      [(1, 1)] := by
  decide

end Differ
end Veilence

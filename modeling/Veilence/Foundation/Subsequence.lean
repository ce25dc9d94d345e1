import Mathlib

/-!
# Common subsequences

Bounds on the length of the common subsequences of two lists, built up from the ends of the
lists.  A table of such bounds for all prefixes is what the usual algorithm for a longest
common subsequence fills.

Main results:

- Theorem {lit}`BoundsCommon.concat`: lists that end alike.
- Theorem {lit}`BoundsCommon.concat_of_ne`: lists that end differently.
-/

namespace Veilence
namespace Foundation

variable {α : Type*}

/-- No common subsequence of the two lists is longer. -/
def BoundsCommon (xs ys : List α) (bound : Nat) : Prop :=
  ∀ zs : List α, zs.Sublist xs → zs.Sublist ys → zs.length ≤ bound

/-- A subsequence of a list with one more element at its end, without its own last element. -/
theorem dropLast_sublist_of_concat {zs xs : List α} {x : α} (h : zs.Sublist (xs ++ [x])) :
    zs.dropLast.Sublist xs := by
  have hreverse := h.reverse.tail
  rw [List.reverse_append, List.tail_reverse] at hreverse
  exact List.reverse_sublist.mp hreverse

/-- A subsequence that does not end with the last element does not use it. -/
theorem sublist_of_concat_of_ne {zs xs : List α} {z x : α} (hne : z ≠ x)
    (h : (zs ++ [z]).Sublist (xs ++ [x])) : (zs ++ [z]).Sublist xs := by
  have hreverse := h.reverse
  rw [List.reverse_append, List.reverse_append] at hreverse
  have hrest := List.Sublist.of_cons_of_ne hne hreverse
  rw [← List.reverse_sublist, List.reverse_append]
  exact hrest

namespace BoundsCommon

/-- Nothing is common with the empty list. -/
theorem nil_left (ys : List α) : BoundsCommon [] ys 0 := by
  intro zs hx _
  rw [List.sublist_nil.mp hx, List.length_nil]

/-- Nothing is common with the empty list. -/
theorem nil_right (xs : List α) : BoundsCommon xs [] 0 := by
  intro zs _ hy
  rw [List.sublist_nil.mp hy, List.length_nil]

variable {xs ys : List α} {bound boundX boundY : Nat}

/-- A larger bound. -/
theorem mono (h : BoundsCommon xs ys boundX) (hle : boundX ≤ boundY) :
    BoundsCommon xs ys boundY :=
  fun zs hx hy => (h zs hx hy).trans hle

/-- Lists that end alike. -/
theorem concat (h : BoundsCommon xs ys bound) (x : α) :
    BoundsCommon (xs ++ [x]) (ys ++ [x]) (bound + 1) := by
  intro zs hx hy
  have hshort := h zs.dropLast (dropLast_sublist_of_concat hx) (dropLast_sublist_of_concat hy)
  rw [List.length_dropLast] at hshort
  omega

/-- Lists that end differently: a common subsequence leaves out one of the ends. -/
theorem concat_of_ne {x y : α} (hne : x ≠ y) (hx : BoundsCommon xs (ys ++ [y]) bound)
    (hy : BoundsCommon (xs ++ [x]) ys bound) :
    BoundsCommon (xs ++ [x]) (ys ++ [y]) bound := by
  intro zs hzx hzy
  cases zs using List.reverseRecOn with
  | nil => exact Nat.zero_le bound
  | append_singleton zs z =>
      by_cases hz : z = y
      · have hzne : z ≠ x := fun heq => hne (heq.symm.trans hz)
        exact hx (zs ++ [z]) (sublist_of_concat_of_ne hzne hzx) hzy
      · exact hy (zs ++ [z]) hzx (sublist_of_concat_of_ne hz hzy)

end BoundsCommon
end Foundation
end Veilence

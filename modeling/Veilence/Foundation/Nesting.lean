import Mathlib

/-!
# Nested words

Words in which every letter raises or lowers a height: opening letters weigh 1, closing
letters -1 and all others 0.  A word is neutral if it ends at the height where it starts
and never falls below it.

Main results:

- Theorem {lit}`Neutral.append`: neutral words one after the other.
- Theorem {lit}`Neutral.wrap`: a neutral word between an opening and a closing letter.
- Theorem {lit}`one_le_height_of_prefix`: inside the two letters the height is positive.
-/

namespace Veilence
namespace Foundation

variable {α : Type*} (w : α → Int)

/-- The height that a word reaches from zero. -/
def height (u : List α) : Int :=
  (u.map w).sum

/-- A word that ends at the height where it starts and never falls below it. -/
structure Neutral (u : List α) : Prop where
  total : height w u = 0
  nonneg : ∀ v, v <+: u → 0 ≤ height w v

variable {w}

@[simp]
theorem height_nil : height w [] = 0 :=
  rfl

@[simp]
theorem height_cons (a : α) (u : List α) : height w (a :: u) = w a + height w u := by
  simp [height]

@[simp]
theorem height_append (u v : List α) : height w (u ++ v) = height w u + height w v := by
  simp [height]

/-- The prefixes of two words one after the other. -/
theorem prefix_append_cases {u v t : List α} (ht : t <+: u ++ v) :
    t <+: u ∨ ∃ s, s <+: v ∧ t = u ++ s := by
  induction u generalizing t with
  | nil => exact Or.inr ⟨t, ht, rfl⟩
  | cons a u ih =>
      rcases List.prefix_cons_iff.mp ht with hnil | ⟨s, hs, hsu⟩
      · exact Or.inl (hnil ▸ List.nil_prefix)
      · rcases ih hsu with hin | ⟨r, hr, hsr⟩
        · exact Or.inl (hs ▸ (List.prefix_cons_inj a).mpr hin)
        · exact Or.inr ⟨r, hr, by rw [hs, hsr, List.cons_append]⟩

theorem Neutral.nil : Neutral w [] where
  total := rfl
  nonneg := by
    intro v hv
    rw [List.prefix_nil.mp hv, height_nil]

/-- Neutral words one after the other. -/
theorem Neutral.append {u v : List α} (hu : Neutral w u) (hv : Neutral w v) :
    Neutral w (u ++ v) where
  total := by rw [height_append, hu.total, hv.total, add_zero]
  nonneg := by
    intro t ht
    rcases prefix_append_cases ht with hin | ⟨s, hs, hts⟩
    · exact hu.nonneg t hin
    · rw [hts, height_append, hu.total, zero_add]
      exact hv.nonneg s hs

/-- A letter without weight. -/
theorem Neutral.single {a : α} (ha : w a = 0) : Neutral w [a] where
  total := by rw [height_cons, height_nil, ha, add_zero]
  nonneg := by
    intro v hv
    rcases List.prefix_cons_iff.mp hv with hnil | ⟨s, hs, hsnil⟩
    · rw [hnil, height_nil]
    · rw [hs, List.prefix_nil.mp hsnil, height_cons, height_nil, ha, add_zero]

/-- A word of letters without weight. -/
theorem Neutral.of_weightless {u : List α} (hu : ∀ a ∈ u, w a = 0) : Neutral w u := by
  induction u with
  | nil => exact Neutral.nil
  | cons a u ih =>
      have ha : Neutral w [a] := Neutral.single (hu a List.mem_cons_self)
      exact ha.append (ih fun b hb => hu b (List.mem_cons_of_mem a hb))

/-- After an opening letter the height is positive as long as the word inside lasts. -/
theorem one_le_height_of_prefix {a : α} {u t : List α} (ha : w a = 1)
    (hu : ∀ v, v <+: u → 0 ≤ height w v) (ht : t <+: a :: u) (hne : t ≠ []) :
    1 ≤ height w t := by
  rcases List.prefix_cons_iff.mp ht with hnil | ⟨s, hs, hsu⟩
  · exact absurd hnil hne
  · have hnonneg := hu s hsu
    rw [hs, height_cons, ha]
    omega

/-- A neutral word between an opening and a closing letter. -/
theorem Neutral.wrap {a b : α} {u : List α} (ha : w a = 1) (hb : w b = -1)
    (hu : Neutral w u) : Neutral w (a :: u ++ [b]) where
  total := by
    rw [height_append, height_cons, height_cons, height_nil, ha, hb, hu.total]
    rfl
  nonneg := by
    intro t ht
    rcases prefix_append_cases ht with hin | ⟨s, hs, hts⟩
    · rcases List.eq_nil_or_concat t with hnil | ⟨_, _, hconcat⟩
      · rw [hnil, height_nil]
      · have hpos := one_le_height_of_prefix ha hu.nonneg hin (by simp [hconcat])
        omega
    · rcases List.prefix_cons_iff.mp hs with hnil | ⟨r, hr, hrnil⟩
      · simp [hts, hnil, ha, hu.total]
      · simp [hts, hr, List.prefix_nil.mp hrnil, ha, hb, hu.total]

end Foundation
end Veilence

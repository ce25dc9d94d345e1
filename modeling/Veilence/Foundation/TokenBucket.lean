import Mathlib

/-!
# Token buckets

A bucket holds tokens up to a capacity.  It is refilled at a constant rate, and a demand is granted
if there is a token, which is then taken.  Times and numbers of tokens are elements of an ordered
field.

Main results:

- Theorem {lit}`TokenBucket.level_take`: the tokens stay between zero and the capacity.
- Theorem {lit}`TokenBucket.granted_le`: within a time, no more demands are granted than the
  capacity and what is refilled in this time.
- Theorem {lit}`TokenBucket.take_of_wait`: after the time in which a missing token is refilled a
  demand is granted.
-/

namespace Veilence
namespace Foundation

/-- The parameters of a bucket. -/
structure TokenBucket (K : Type*) where
  rate : K
  capacity : K

/-- The tokens of a bucket at the last demand. -/
structure Level (K : Type*) where
  tokens : K
  last : K

namespace TokenBucket

variable {K : Type*} [Field K] [LinearOrder K]

/-- The tokens at a time, at most the capacity. -/
def refill (p : TokenBucket K) (b : Level K) (now : K) : K :=
  min (b.tokens + (now - b.last) * p.rate) p.capacity

/-- A demand: the level after it and whether it is granted. -/
def take (p : TokenBucket K) (b : Level K) (now : K) : Level K × Bool :=
  if 1 ≤ p.refill b now then (⟨p.refill b now - 1, now⟩, true) else (⟨p.refill b now, now⟩, false)

/-- Demands one after the other: their times and whether they are granted. -/
def grants (p : TokenBucket K) (b : Level K) : List K → List (K × Bool)
  | [] => []
  | now :: times => (now, (p.take b now).2) :: p.grants (p.take b now).1 times

/-- The number of demands that are granted within a time. -/
def grantedIn {K : Type*} [LinearOrder K] (first last : K) (log : List (K × Bool)) : Nat :=
  log.countP fun e => e.2 ∧ first ≤ e.1 ∧ e.1 ≤ last

/-- The tokens are between zero and the capacity. -/
def Within (p : TokenBucket K) (b : Level K) : Prop :=
  0 ≤ b.tokens ∧ b.tokens ≤ p.capacity

variable {p : TokenBucket K} {b : Level K} {now : K}

@[simp]
theorem last_take (p : TokenBucket K) (b : Level K) (now : K) : (p.take b now).1.last = now := by
  unfold take
  split_ifs
  · rfl
  · rfl

/-- What is granted is paid with a token. -/
theorem tokens_take (p : TokenBucket K) (b : Level K) (now : K) :
    (p.take b now).1.tokens + (if (p.take b now).2 = true then 1 else 0) = p.refill b now := by
  unfold take
  by_cases hgranted : 1 ≤ p.refill b now
  · rw [if_pos hgranted, if_pos rfl]
    exact sub_add_cancel _ _
  · rw [if_neg hgranted, if_neg Bool.false_ne_true]
    exact add_zero _

/-- The number of grants within a time, after one more demand. -/
theorem grantedIn_cons {K : Type*} [LinearOrder K] (first last : K) (e : K × Bool)
    (log : List (K × Bool)) :
    grantedIn first last (e :: log) =
      grantedIn first last log + if e.2 ∧ first ≤ e.1 ∧ e.1 ≤ last then 1 else 0 := by
  unfold grantedIn
  rw [List.countP_cons]
  simp only [decide_eq_true_eq]

/-- No demand after a time is granted within it. -/
theorem grantedIn_eq_zero {first last : K} {times : List K} (b : Level K)
    (hlate : ∀ now ∈ times, last < now) : grantedIn first last (p.grants b times) = 0 := by
  induction times generalizing b with
  | nil => rfl
  | cons now times ih =>
      have hnow := hlate now List.mem_cons_self
      have hrest := ih (p.take b now).1 fun t ht => hlate t (List.mem_cons_of_mem now ht)
      unfold grants
      rw [grantedIn_cons, hrest, if_neg]
      intro hin
      exact absurd hin.2.2 (not_le.mpr hnow)

section Order

variable [IsStrictOrderedRing K]

/-- A refill leaves the tokens between zero and the capacity. -/
theorem refill_within (hrate : 0 ≤ p.rate) (hb : p.Within b) (hnow : b.last ≤ now) :
    0 ≤ p.refill b now ∧ p.refill b now ≤ p.capacity := by
  have hgain : 0 ≤ (now - b.last) * p.rate := mul_nonneg (sub_nonneg.mpr hnow) hrate
  unfold refill
  constructor
  · apply le_min
    · exact add_nonneg hb.1 hgain
    · exact hb.1.trans hb.2
  · exact min_le_right _ _

/-- The tokens stay between zero and the capacity. -/
theorem level_take (hrate : 0 ≤ p.rate) (hb : p.Within b) (hnow : b.last ≤ now) :
    p.Within (p.take b now).1 := by
  obtain ⟨hlow, hhigh⟩ := refill_within hrate hb hnow
  unfold take
  split_ifs with hgranted
  · exact ⟨sub_nonneg.mpr hgranted, (sub_le_self _ zero_le_one).trans hhigh⟩
  · exact ⟨hlow, hhigh⟩

/-- From a demand on, no more is granted than the tokens that are left and those that are refilled.
-/
theorem granted_le_of_level (hrate : 0 ≤ p.rate) (first : K) {last : K} {times : List K}
    (hb : p.Within b) (hlast : b.last ≤ last) (hsorted : (b.last :: times).Pairwise (· ≤ ·)) :
    (grantedIn first last (p.grants b times) : K) ≤ b.tokens + (last - b.last) * p.rate := by
  have hgain : 0 ≤ (last - b.last) * p.rate := mul_nonneg (sub_nonneg.mpr hlast) hrate
  induction times generalizing b with
  | nil =>
      have hzero : grantedIn first last (p.grants b []) = 0 := rfl
      rw [hzero, Nat.cast_zero]
      exact add_nonneg hb.1 hgain
  | cons now times ih =>
      rw [List.pairwise_cons] at hsorted
      have hnow : b.last ≤ now := hsorted.1 now List.mem_cons_self
      by_cases hlate : last < now
      · -- this demand and all later ones are too late
        have hzero : grantedIn first last (p.grants b (now :: times)) = 0 := by
          apply grantedIn_eq_zero
          intro t ht
          rcases List.mem_cons.mp ht with rfl | hmem
          · exact hlate
          · exact hlate.trans_le ((List.pairwise_cons.mp hsorted.2).1 t hmem)
        rw [hzero, Nat.cast_zero]
        exact add_nonneg hb.1 hgain
      · rw [not_lt] at hlate
        have hrest := ih (level_take hrate hb hnow) (by rwa [last_take])
          (by rw [last_take]; exact hsorted.2)
          (by rw [last_take]; exact mul_nonneg (sub_nonneg.mpr hlate) hrate)
        rw [last_take] at hrest
        have hpaid := tokens_take p b now
        have hrefill : p.refill b now ≤ b.tokens + (now - b.last) * p.rate := min_le_left _ _
        have hone : ((if (p.take b now).2 = true ∧ first ≤ now ∧ now ≤ last then 1 else 0 : Nat) :
            K) ≤ if (p.take b now).2 = true then 1 else 0 := by
          split_ifs with hin hgranted
          · rw [Nat.cast_one]
          · exact absurd hin.1 hgranted
          · rw [Nat.cast_zero]
            exact zero_le_one
          · rw [Nat.cast_zero]
        unfold grants
        rw [grantedIn_cons, Nat.cast_add]
        calc (grantedIn first last (p.grants (p.take b now).1 times) : K) +
              ((if (p.take b now).2 = true ∧ first ≤ now ∧ now ≤ last then 1 else 0 : Nat) : K)
            ≤ (p.take b now).1.tokens + (last - now) * p.rate +
                (if (p.take b now).2 = true then 1 else 0) := add_le_add hrest hone
          _ = p.refill b now + (last - now) * p.rate := by rw [← hpaid]; ring
          _ ≤ b.tokens + (now - b.last) * p.rate + (last - now) * p.rate := by gcongr
          _ = b.tokens + (last - b.last) * p.rate := by ring

/-- Within a time, no more demands are granted than the capacity and what is refilled in this
time. -/
theorem granted_le (hrate : 0 ≤ p.rate) {first last : K} (hle : first ≤ last) {times : List K}
    (hb : p.Within b) (hsorted : (b.last :: times).Pairwise (· ≤ ·)) :
    (grantedIn first last (p.grants b times) : K) ≤ p.capacity + (last - first) * p.rate := by
  have hgain : 0 ≤ (last - first) * p.rate := mul_nonneg (sub_nonneg.mpr hle) hrate
  induction times generalizing b with
  | nil =>
      have hzero : grantedIn first last (p.grants b []) = 0 := rfl
      rw [hzero, Nat.cast_zero]
      exact add_nonneg (hb.1.trans hb.2) hgain
  | cons now times ih =>
      rw [List.pairwise_cons] at hsorted
      have hnow : b.last ≤ now := hsorted.1 now List.mem_cons_self
      by_cases hearly : now < first
      · -- a demand before the time does not count
        have hrest := ih (level_take hrate hb hnow) (by rw [last_take]; exact hsorted.2)
        unfold grants
        rw [grantedIn_cons, if_neg]
        · exact hrest
        · intro hin
          exact absurd hin.2.1 (not_le.mpr hearly)
      · -- from the first demand within the time on, the bucket has at most its capacity
        rw [not_lt] at hearly
        by_cases hlate : last < now
        · have hzero : grantedIn first last (p.grants b (now :: times)) = 0 := by
            apply grantedIn_eq_zero
            intro t ht
            rcases List.mem_cons.mp ht with rfl | hmem
            · exact hlate
            · exact hlate.trans_le ((List.pairwise_cons.mp hsorted.2).1 t hmem)
          rw [hzero, Nat.cast_zero]
          exact add_nonneg (hb.1.trans hb.2) hgain
        · rw [not_lt] at hlate
          have hfull : p.Within ⟨p.refill b now, now⟩ := refill_within hrate hb hnow
          have hsame : p.grants b (now :: times) = p.grants ⟨p.refill b now, now⟩ (now :: times) := by
            have hrefill : p.refill ⟨p.refill b now, now⟩ now = p.refill b now := by
              unfold refill
              simp
            unfold grants take
            rw [hrefill]
          have hbound := granted_le_of_level hrate first hfull hlate
            (List.pairwise_cons.mpr ⟨fun t ht => ?_, hsorted.2⟩)
          · rw [hsame]
            refine hbound.trans ?_
            have hcap := (refill_within hrate hb hnow).2
            gcongr
          · rcases List.mem_cons.mp ht with rfl | hmem
            · exact le_rfl
            · exact (List.pairwise_cons.mp hsorted.2).1 t hmem

/-- After the time in which a missing token is refilled a demand is granted. -/
theorem take_of_wait (hrate : 0 < p.rate) (hcapacity : 1 ≤ p.capacity)
    (hwait : b.last + (1 - b.tokens) / p.rate ≤ now) : (p.take b now).2 = true := by
  have htoken : 1 ≤ p.refill b now := by
    unfold refill
    apply le_min
    · have hgain : 1 - b.tokens ≤ (now - b.last) * p.rate := by
        rw [← div_le_iff₀ hrate]
        linarith
      linarith
    · exact hcapacity
  unfold take
  rw [if_pos htoken]

end Order

end TokenBucket
end Foundation
end Veilence

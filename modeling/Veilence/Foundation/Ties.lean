import Veilence.Foundation.Selection

/-!
# Pages of rows with equal keys

A query sorts its rows by keys, and rows with equal keys come in any order, in another one each
time.  A border between two pages cuts a group of equal rows if some of them are above it and some
below, and then a row can be on both sides or on none.

Main results:

- Theorem {lit}`take_perm`: the rows above a border that cuts no group are always the same.
- Theorem {lit}`pagedExactly_iff`: the pages list every row once and in order, whatever the orders,
  if and only if no border cuts a group.
-/

namespace Veilence
namespace Foundation

/-- An order of rows by keys, in which different rows can be equal. -/
structure SortOrder (α : Type*) where
  before : α → α → Bool
  total : ∀ a b, before a b = true ∨ before b a = true
  trans : ∀ a b c, before a b = true → before b c = true → before a c = true

namespace SortOrder

/-! ## Orders from orders -/

section Orders

variable {α β : Type*}

/-- The order by values of a linear order. -/
def ofLinear (α : Type*) [LinearOrder α] : SortOrder α where
  before := fun a b => decide (a ≤ b)
  total := fun a b => by simpa using le_total a b
  trans := fun a b c hab hbc => by
    simp only [decide_eq_true_iff] at hab hbc ⊢
    exact hab.trans hbc

/-- The order by a key. -/
def comap (s : SortOrder β) (key : α → β) : SortOrder α where
  before := fun a b => s.before (key a) (key b)
  total := fun a b => s.total (key a) (key b)
  trans := fun a b c => s.trans (key a) (key b) (key c)

/-- The order from the end. -/
def reverse (s : SortOrder α) : SortOrder α where
  before := fun a b => s.before b a
  total := fun a b => s.total b a
  trans := fun a b c hab hbc => s.trans c b a hbc hab

/-- Every row is equal to every other one. -/
def unordered (α : Type*) : SortOrder α where
  before := fun _ _ => true
  total := fun _ _ => Or.inl rfl
  trans := fun _ _ _ _ _ => rfl

/-- The first order, and the second one among rows that the first one leaves equal. -/
def thenBy (s t : SortOrder α) : SortOrder α where
  before := fun a b => s.before a b && (!s.before b a || t.before a b)
  total := fun a b => by
    have hs := s.total a b
    have ht := t.total a b
    cases hab : s.before a b <;> cases hba : s.before b a <;> simp_all
  trans := fun a b c hab hbc => by
    simp only [Bool.and_eq_true, Bool.or_eq_true, Bool.not_eq_true'] at hab hbc ⊢
    refine ⟨s.trans a b c hab.1 hbc.1, ?_⟩
    by_cases hca : s.before c a = true
    · -- all three are equal by the first order
      have hba := s.trans b c a hbc.1 hca
      have hcb := s.trans c a b hca hab.1
      rcases hab.2 with hnot | htab
      · exact absurd hba (by simp [hnot])
      · rcases hbc.2 with hnot | htbc
        · exact absurd hcb (by simp [hnot])
        · exact Or.inr (t.trans a b c htab htbc)
    · exact Or.inl (by simpa using hca)

end Orders

variable {α : Type*} (s : SortOrder α)

/-- The rows are in order. -/
def Sorted (rows : List α) : Prop :=
  rows.Pairwise fun a b => s.before a b = true

/-- The number of rows that come before a row in every order. -/
def above (rows : List α) (a : α) : Nat :=
  rows.countP fun b => !s.before a b

/-- The number of rows that do not come after a row in every order. -/
def upTo (rows : List α) (a : α) : Nat :=
  rows.countP fun b => s.before b a

/-- The border after so many rows is within a group of equal rows. -/
def Cuts (rows : List α) (n : Nat) : Prop :=
  ∃ a ∈ rows, s.above rows a < n ∧ n < s.upTo rows a

instance (rows : List α) (n : Nat) : Decidable (s.Cuts rows n) :=
  inferInstanceAs (Decidable (∃ a ∈ rows, _))

variable {s} {rows rows' : List α} {a b : α} {i n : Nat}

theorem before_self (s : SortOrder α) (a : α) : s.before a a = true :=
  (s.total a a).elim id id

theorem above_perm (h : rows.Perm rows') (a : α) : s.above rows a = s.above rows' a :=
  h.countP_eq _

theorem upTo_perm (h : rows.Perm rows') (a : α) : s.upTo rows a = s.upTo rows' a :=
  h.countP_eq _

theorem cuts_perm (h : rows.Perm rows') : s.Cuts rows n ↔ s.Cuts rows' n := by
  unfold Cuts
  refine exists_congr fun a => ?_
  rw [h.mem_iff, above_perm h, upTo_perm h]

/-- Rows can be put in order. -/
theorem exists_sorted (s : SortOrder α) (rows : List α) :
    ∃ ordered : List α, ordered.Perm rows ∧ s.Sorted ordered := by
  refine ⟨rows.mergeSort s.before, List.mergeSort_perm rows _, ?_⟩
  refine List.pairwise_mergeSort s.trans (fun a b => ?_) rows
  rw [Bool.or_eq_true]
  exact s.total a b

/-! ## Positions in order -/

/-- The rows in front of a row in order. -/
theorem Sorted.before_of_mem_take (hsorted : s.Sorted rows) (ha : rows[i]? = some a)
    (hb : b ∈ rows.take (i + 1)) : s.before b a = true := by
  obtain ⟨j, hj, hget⟩ := List.mem_take_iff_getElem.mp hb
  obtain ⟨hi, rfl⟩ := List.getElem?_eq_some_iff.mp ha
  subst hget
  rcases Nat.lt_or_ge j i with hlt | hge
  · exact List.pairwise_iff_getElem.mp hsorted j i (by omega) hi hlt
  · obtain rfl : j = i := by omega
    exact before_self s _

/-- The rows behind a row in order. -/
theorem Sorted.before_of_mem_drop (hsorted : s.Sorted rows) (ha : rows[i]? = some a)
    (hb : b ∈ rows.drop i) : s.before a b = true := by
  obtain ⟨j, hj, hget⟩ := List.mem_drop_iff_getElem.mp hb
  obtain ⟨hi, rfl⟩ := List.getElem?_eq_some_iff.mp ha
  subst hget
  rcases Nat.eq_zero_or_pos j with rfl | hpos
  · exact before_self s _
  · exact List.pairwise_iff_getElem.mp hsorted i (i + j) hi (by omega) (by omega)

/-- No more rows come before a row in every order than do in one. -/
theorem Sorted.above_le (hsorted : s.Sorted rows) (ha : rows[i]? = some a) :
    s.above rows a ≤ i := by
  have hdrop : s.above (rows.drop i) a = 0 := by
    unfold above
    rw [List.countP_eq_zero]
    intro b hb
    simp [hsorted.before_of_mem_drop ha hb]
  have htake : s.above (rows.take i) a ≤ (rows.take i).length := List.countP_le_length
  have hsplit : s.above rows a = s.above (rows.take i) a + s.above (rows.drop i) a := by
    unfold above
    rw [← List.countP_append, List.take_append_drop]
  have hlength := List.length_take_le i rows
  omega

/-- The rows up to a row in one order do not come after it in another. -/
theorem Sorted.lt_upTo (hsorted : s.Sorted rows) (ha : rows[i]? = some a) :
    i < s.upTo rows a := by
  have hi := (List.getElem?_eq_some_iff.mp ha).1
  have htake : s.upTo (rows.take (i + 1)) a = (rows.take (i + 1)).length := by
    unfold upTo
    rw [List.countP_eq_length]
    intro b hb
    exact hsorted.before_of_mem_take ha hb
  have hsplit : s.upTo rows a = s.upTo (rows.take (i + 1)) a + s.upTo (rows.drop (i + 1)) a := by
    unfold upTo
    rw [← List.countP_append, List.take_append_drop]
  rw [List.length_take] at htake
  omega

/-! ## The rows above a border -/

/-- The rows above a border that cuts no group are told by the number of rows up to them. -/
theorem Sorted.take_eq_filter (hsorted : s.Sorted rows) (huncut : ¬s.Cuts rows n) :
    rows.take n = rows.filter fun b => decide (s.upTo rows b ≤ n) := by
  have hfront : ∀ b ∈ rows.take n, s.upTo rows b ≤ n := by
    intro b hb
    obtain ⟨j, hj, hget⟩ := List.mem_take_iff_getElem.mp hb
    have hle := hsorted.above_le (List.getElem?_eq_some_iff.mpr ⟨by omega, hget⟩)
    by_contra hlt
    exact huncut ⟨b, List.mem_of_mem_take hb, by omega, by omega⟩
  have hback : ∀ b ∈ rows.drop n, ¬s.upTo rows b ≤ n := by
    intro b hb
    obtain ⟨j, hj, hget⟩ := List.mem_drop_iff_getElem.mp hb
    have hlt := hsorted.lt_upTo (List.getElem?_eq_some_iff.mpr ⟨by omega, hget⟩)
    omega
  conv_rhs => enter [2]; rw [← List.take_append_drop n rows]
  rw [List.filter_append, List.filter_eq_self.mpr fun b hb => decide_eq_true (hfront b hb),
    List.filter_eq_nil_iff.mpr fun b hb => by simpa using hback b hb, List.append_nil]

/-- The rows above a border that cuts no group are the same in every order. -/
theorem take_perm (hsorted : s.Sorted rows) (hsorted' : s.Sorted rows') (hperm : rows.Perm rows')
    (huncut : ¬s.Cuts rows n) : (rows.take n).Perm (rows'.take n) := by
  rw [hsorted.take_eq_filter huncut, hsorted'.take_eq_filter (mt (cuts_perm hperm).mpr huncut)]
  have hcongr : (rows.filter fun b => decide (s.upTo rows b ≤ n)) =
      rows.filter fun b => decide (s.upTo rows' b ≤ n) :=
    List.filter_congr fun b _ => by rw [upTo_perm hperm]
  rw [hcongr]
  exact hperm.filter _

/-! ## Pages in several orders -/

/-- What a query for a page may answer: the page of the rows in some order. -/
def IsPage (s : SortOrder α) (rows : List α) (page limit : Nat) (out : List α) : Prop :=
  ∃ ordered : List α, ordered.Perm rows ∧ s.Sorted ordered ∧ out = pageOf ordered page limit

/-- The first pages, one after the other. -/
def firstPages (pages : Nat → List α) (n : Nat) : List α :=
  (List.range n).flatMap fun k => pages (k + 1)

/-- The number of pages of so many rows. -/
def pageCount (total limit : Nat) : Nat :=
  (total + limit - 1) / limit

theorem firstPages_succ (pages : Nat → List α) (n : Nat) :
    firstPages pages (n + 1) = firstPages pages n ++ pages (n + 1) := by
  simp [firstPages, List.range_succ]

theorem firstPages_congr {pages pages' : Nat → List α}
    (h : ∀ page, page ≤ n → pages page = pages' page) :
    firstPages pages n = firstPages pages' n := by
  induction n with
  | zero => rfl
  | succ n ih =>
      rw [firstPages_succ, firstPages_succ, ih fun page hpage => h page (by omega),
        h (n + 1) (le_refl _)]

/-- The pages of one order are its first rows. -/
theorem firstPages_pageOf (ordered : List α) (limit n : Nat) :
    firstPages (fun page => pageOf ordered page limit) n = ordered.take (n * limit) :=
  flatMap_pageOf ordered limit n

theorem firstPages_sublist (pages : Nat → List α) {m : Nat} (hn : n ≤ m) :
    (firstPages pages n).Sublist (firstPages pages m) := by
  induction m with
  | zero =>
      rw [Nat.le_zero.mp hn]
  | succ m ih =>
      rcases Nat.lt_or_ge m n with hlt | hge
      · rw [show n = m + 1 by omega]
      · rw [firstPages_succ]
        exact (ih hge).trans (List.sublist_append_left _ _)

theorem length_le_pageCount_mul {limit : Nat} (hlimit : 0 < limit) (total : Nat) :
    total ≤ pageCount total limit * limit := by
  have hmod := Nat.div_add_mod (total + limit - 1) limit
  have hlt := Nat.mod_lt (total + limit - 1) hlimit
  unfold pageCount
  rw [Nat.mul_comm]
  omega

theorem lt_pageCount {limit total k : Nat} (hlimit : 0 < limit) (hk : k * limit < total) :
    k < pageCount total limit := by
  unfold pageCount
  rw [Nat.lt_iff_add_one_le, Nat.le_div_iff_mul_le hlimit, Nat.succ_mul]
  omega

section Borders

variable {limit : Nat} {pages : Nat → List α}

/-- Two answers for one page have the same rows, where its borders cut no group. -/
theorem IsPage.perm_pageOf {ordered out : List α} {k : Nat}
    (hpage : IsPage s rows (k + 1) limit out) (hperm : ordered.Perm rows)
    (hsorted : s.Sorted ordered) (hupper : ¬s.Cuts rows (k * limit))
    (hlower : ¬s.Cuts rows ((k + 1) * limit)) :
    out.Perm (pageOf ordered (k + 1) limit) := by
  obtain ⟨other, hperm', hsorted', rfl⟩ := hpage
  have hsame : other.Perm ordered := hperm'.trans hperm.symm
  have hlow := take_perm hsorted' hsorted hsame (mt (cuts_perm hperm').mp hlower)
  have hup := take_perm hsorted' hsorted hsame (mt (cuts_perm hperm').mp hupper)
  have hsplit : ∀ l : List α,
      l.take ((k + 1) * limit) = l.take (k * limit) ++ pageOf l (k + 1) limit := by
    intro l
    rw [Nat.succ_mul, List.take_add, pageOf, Nat.add_sub_cancel]
  rw [hsplit, hsplit] at hlow
  exact (List.perm_append_left_iff _).mp ((hup.symm.append_right _).trans hlow)

/-- Pages whose borders cut no group are together the first rows, in order. -/
theorem firstPages_of_uncut (hpages : ∀ page, IsPage s rows page limit (pages page))
    (huncut : ∀ k, ¬s.Cuts rows (k * limit)) {ordered : List α} (hperm : ordered.Perm rows)
    (hsorted : s.Sorted ordered) (n : Nat) :
    (firstPages pages n).Perm (ordered.take (n * limit)) ∧ s.Sorted (firstPages pages n) := by
  induction n with
  | zero =>
      rw [Nat.zero_mul]
      exact ⟨.refl _, List.Pairwise.nil⟩
  | succ n ih =>
      have hnext := (hpages (n + 1)).perm_pageOf hperm hsorted (huncut n) (huncut (n + 1))
      have hsplit : ordered.take ((n + 1) * limit) =
          ordered.take (n * limit) ++ pageOf ordered (n + 1) limit := by
        rw [Nat.succ_mul, List.take_add, pageOf, Nat.add_sub_cancel]
      rw [firstPages_succ]
      constructor
      · rw [hsplit]
        exact ih.1.append hnext
      · obtain ⟨other, -, hsorted', hpage⟩ := hpages (n + 1)
        unfold Sorted
        rw [List.pairwise_append]
        refine ⟨ih.2, ?_, ?_⟩
        · rw [hpage, pageOf]
          exact (hsorted'.drop).take
        · intro a ha b hb
          have ha' := ih.1.mem_iff.mp ha
          have hb' := List.mem_of_mem_take (hnext.mem_iff.mp hb)
          rw [Nat.add_sub_cancel] at hb'
          have hwhole := hsorted
          unfold Sorted at hwhole
          rw [← List.take_append_drop (n * limit) ordered, List.pairwise_append] at hwhole
          exact hwhole.2.2 a ha' b hb'

/-- Equal neighbours can change places. -/
theorem Sorted.swap {front back : List α} {x y : α} (hsorted : s.Sorted (front ++ x :: y :: back))
    (hyx : s.before y x = true) : s.Sorted (front ++ y :: x :: back) := by
  unfold Sorted at hsorted ⊢
  rw [List.pairwise_append, List.pairwise_cons, List.pairwise_cons] at hsorted ⊢
  obtain ⟨hfront, ⟨hx, hy, hback⟩, hcross⟩ := hsorted
  refine ⟨hfront, ⟨?_, fun b hb => hx b (List.mem_cons_of_mem y hb), hback⟩, ?_⟩
  · rw [List.forall_mem_cons]
    exact ⟨hyx, hy⟩
  · intro a ha b hb
    refine hcross a ha b ?_
    simp only [List.mem_cons] at hb ⊢
    tauto

/-- Two neighbours at a border that cuts a group can change places. -/
theorem exists_swap {ordered : List α} (hsorted : s.Sorted ordered) (hcuts : s.Cuts ordered n) :
    ∃ front x y back, ordered = front ++ x :: y :: back ∧ n = front.length + 1 ∧
      s.Sorted (front ++ y :: x :: back) := by
  obtain ⟨a, ha, hlow, hup⟩ := hcuts
  have hlength : n < ordered.length := hup.trans_le List.countP_le_length
  obtain ⟨i, rfl⟩ : ∃ i, n = i + 1 := ⟨n - 1, by omega⟩
  have hx : ordered[i]? = some ordered[i] := List.getElem?_eq_getElem (by omega)
  have hy : ordered[i + 1]? = some ordered[i + 1] := List.getElem?_eq_getElem hlength
  -- the row above the border does not come before the group
  have hax : s.before a ordered[i] = true := by
    by_contra hnot
    have hall : s.above (ordered.take (i + 1)) a = (ordered.take (i + 1)).length := by
      unfold above
      rw [List.countP_eq_length]
      intro b hb
      rw [Bool.not_eq_true', Bool.eq_false_iff]
      exact fun hab => hnot (s.trans a b _ hab (hsorted.before_of_mem_take hx hb))
    have hle : s.above (ordered.take (i + 1)) a ≤ s.above ordered a :=
      (List.take_sublist _ _).countP_le
    rw [List.length_take] at hall
    omega
  -- the row below it does not come after the group
  have hya : s.before ordered[i + 1] a = true := by
    by_contra hnot
    have hnone : s.upTo (ordered.drop (i + 1)) a = 0 := by
      unfold upTo
      rw [List.countP_eq_zero]
      intro b hb hba
      exact hnot (s.trans _ b a (hsorted.before_of_mem_drop hy hb) hba)
    have hsplit : s.upTo ordered a =
        s.upTo (ordered.take (i + 1)) a + s.upTo (ordered.drop (i + 1)) a := by
      unfold upTo
      rw [← List.countP_append, List.take_append_drop]
    have hle : s.upTo (ordered.take (i + 1)) a ≤ (ordered.take (i + 1)).length :=
      List.countP_le_length
    rw [List.length_take] at hle
    omega
  have hyx : s.before ordered[i + 1] ordered[i] = true := s.trans _ a _ hya hax
  have hsplit : ordered = ordered.take i ++ ordered[i] :: ordered[i + 1] :: ordered.drop (i + 2) := by
    rw [← List.drop_eq_getElem_cons, ← List.drop_eq_getElem_cons, List.take_append_drop]
  refine ⟨ordered.take i, ordered[i], ordered[i + 1], ordered.drop (i + 2), hsplit, ?_, ?_⟩
  · rw [List.length_take]
    omega
  · rw [hsplit] at hsorted
    exact hsorted.swap hyx

/-- Where a border cuts a group, the pages can show a row twice. -/
theorem exists_pages_of_cuts (hlimit : 0 < limit) (hnodup : rows.Nodup) {k : Nat}
    (hcuts : s.Cuts rows (k * limit)) :
    ∃ pages : Nat → List α, (∀ page, IsPage s rows page limit (pages page)) ∧
      ¬(firstPages pages (pageCount rows.length limit)).Perm rows := by
  obtain ⟨ordered, hperm, hsorted⟩ := s.exists_sorted rows
  obtain ⟨front, x, y, back, hsplit, hn, hswap⟩ :=
    exists_swap hsorted ((cuts_perm hperm).mpr hcuts)
  subst hsplit
  have hperm' : (front ++ y :: x :: back).Perm rows :=
    ((List.Perm.swap x y back).append_left front).trans hperm
  refine ⟨fun page => if page ≤ k then pageOf (front ++ x :: y :: back) page limit
    else pageOf (front ++ y :: x :: back) page limit, ?_, ?_⟩
  · intro page
    dsimp only
    split_ifs
    · exact ⟨_, hperm, hsorted, rfl⟩
    · exact ⟨_, hperm', hswap, rfl⟩
  · intro hall
    have hlength : k * limit < rows.length := by
      rw [← hperm.length_eq, hn]
      simp
    have hfirst := (hall.nodup_iff.mpr hnodup).sublist
      (firstPages_sublist _ (Nat.succ_le_of_lt (lt_pageCount hlimit hlength)))
    rw [Nat.succ_eq_add_one, firstPages_succ, List.nodup_append] at hfirst
    -- the row is the last one above the border and the first one below it
    have habove : x ∈ (front ++ x :: y :: back).take (k * limit) := by
      rw [hn, List.take_append, List.take_of_length_le (by omega)]
      simp
    have hbelow : x ∈ pageOf (front ++ y :: x :: back) (k + 1) limit := by
      rw [pageOf, Nat.add_sub_cancel, hn, List.drop_append, List.drop_of_length_le (by omega)]
      cases limit with
      | zero => exact absurd hlimit (lt_irrefl 0)
      | succ limit => simp
    refine hfirst.2.2 x ?_ x ?_ rfl
    · have hfirsts : firstPages (fun page => if page ≤ k then
            pageOf (front ++ x :: y :: back) page limit
          else pageOf (front ++ y :: x :: back) page limit) k =
          firstPages (fun page => pageOf (front ++ x :: y :: back) page limit) k :=
        firstPages_congr fun page hpage => if_pos hpage
      rw [hfirsts, firstPages_pageOf]
      exact habove
    · rw [if_neg (by omega)]
      exact hbelow

end Borders

/-! ## Every row once -/

/-- However a query for the number of rows and the queries for the pages choose among the results
that they may have and among the orders, the pages list every matching row once, in order. -/
def PagedExactly {ι : Type*} (s : SortOrder α) (limit : Nat) (rowsOf : ι → List α)
    (matching : List α) : Prop :=
  ∀ (count : ι) (choice : Nat → ι) (pages : Nat → List α),
    (∀ page, IsPage s (rowsOf (choice page)) page limit (pages page)) →
      (firstPages pages (pageCount (rowsOf count).length limit)).Perm matching ∧
        s.Sorted (firstPages pages (pageCount (rowsOf count).length limit))

theorem IsPage.of_perm {page limit : Nat} {out : List α} (h : IsPage s rows page limit out)
    (hperm : rows.Perm rows') : IsPage s rows' page limit out := by
  obtain ⟨ordered, hordered, hsorted, rfl⟩ := h
  exact ⟨ordered, hordered.trans hperm, hsorted, rfl⟩

/-- All pages of one order are its rows. -/
theorem firstPages_all (ordered : List α) {limit : Nat} (hlimit : 0 < limit) :
    firstPages (fun page => pageOf ordered page limit) (pageCount ordered.length limit) =
      ordered := by
  rw [firstPages_pageOf, List.take_of_length_le (length_le_pageCount_mul hlimit _)]

/-- The pages list every matching row once and in order if and only if every result has just the
matching rows and no border between two pages cuts a group of equal rows. -/
theorem pagedExactly_iff {ι : Type*} [Nonempty ι] {limit : Nat} (hlimit : 0 < limit)
    {rowsOf : ι → List α} {matching : List α} (hnodup : matching.Nodup) :
    PagedExactly s limit rowsOf matching ↔
      (∀ o, (rowsOf o).Perm matching) ∧ ∀ k, ¬s.Cuts matching (k * limit) := by
  constructor
  · intro hexact
    have hresults : ∀ o, (rowsOf o).Perm matching := by
      intro o
      obtain ⟨ordered, hperm, hsorted⟩ := s.exists_sorted (rowsOf o)
      have hall := (hexact o (fun _ => o) (fun page => pageOf ordered page limit)
        fun page => ⟨ordered, hperm, hsorted, rfl⟩).1
      rw [← hperm.length_eq, firstPages_all ordered hlimit] at hall
      exact hperm.symm.trans hall
    refine ⟨hresults, fun k hcuts => ?_⟩
    obtain ⟨pages, hpages, hnot⟩ := exists_pages_of_cuts hlimit hnodup hcuts
    obtain ⟨o⟩ := ‹Nonempty ι›
    have hall := (hexact o (fun _ => o) pages fun page =>
      (hpages page).of_perm (hresults o).symm).1
    rw [(hresults o).length_eq] at hall
    exact hnot hall
  · rintro ⟨hresults, huncut⟩ count choice pages hpages
    obtain ⟨ordered, hperm, hsorted⟩ := s.exists_sorted matching
    have hpages' := fun page => (hpages page).of_perm (hresults (choice page))
    obtain ⟨hfirst, horder⟩ := firstPages_of_uncut hpages' huncut hperm hsorted
      (pageCount (rowsOf count).length limit)
    refine ⟨?_, horder⟩
    rw [(hresults count).length_eq, ← hperm.length_eq,
      List.take_of_length_le (length_le_pageCount_mul hlimit _)] at hfirst
    rw [(hresults count).length_eq, ← hperm.length_eq]
    exact hfirst.trans hperm

/-! ## Rows behind a border -/

/-- A row stands before its border in every order, if no more rows than that can. -/
theorem Sorted.mem_take_of_upTo_le (hsorted : s.Sorted rows) (ha : a ∈ rows)
    (hup : s.upTo rows a ≤ n) : a ∈ rows.take n := by
  obtain ⟨i, hi⟩ := List.mem_iff_getElem?.mp ha
  have hlt := hsorted.lt_upTo hi
  obtain ⟨hlength, rfl⟩ := List.getElem?_eq_some_iff.mp hi
  exact List.mem_take_iff_getElem.mpr ⟨i, by omega, rfl⟩

/-- Rows of one kind are of one of two others. -/
theorem countP_le_add {p q r : α → Bool}
    (h : ∀ b ∈ rows, p b = true → q b = true ∨ r b = true) :
    rows.countP p ≤ rows.countP q + rows.countP r := by
  induction rows with
  | nil => simp
  | cons b rows ih =>
      have hrest := ih fun c hc => h c (List.mem_cons_of_mem b hc)
      have hb := h b List.mem_cons_self
      simp only [List.countP_cons]
      split_ifs <;> simp_all <;> omega

/-- A row can be the last one of its group. -/
theorem exists_notMem_take [DecidableEq α] (hnodup : rows.Nodup)
    (hup : n < s.upTo rows a) :
    ∃ ordered : List α, ordered.Perm rows ∧ s.Sorted ordered ∧ a ∉ ordered.take n := by
  -- the row comes after those that are equal to it
  let last : SortOrder α := (ofLinear Nat).comap fun b => if b = a then 1 else 0
  obtain ⟨ordered, hperm, hsorted⟩ := (s.thenBy last).exists_sorted rows
  have hsorted' : s.Sorted ordered :=
    List.Pairwise.imp (fun h => (Bool.and_eq_true _ _ ▸ h).1) hsorted
  refine ⟨ordered, hperm, hsorted', fun hmem => ?_⟩
  obtain ⟨i, hi, hget⟩ := List.mem_take_iff_getElem.mp hmem
  have habove := hsorted.above_le (List.getElem?_eq_some_iff.mpr ⟨by omega, hget⟩)
  have hothers : s.upTo ordered a ≤ (s.thenBy last).above ordered a + ordered.count a := by
    refine countP_le_add fun b _ hba => ?_
    by_cases hb : b = a
    · exact Or.inr (beq_iff_eq.mpr hb)
    · left
      have hlast : last.before a b = false := by
        simp [last, comap, ofLinear, hb]
      simp [thenBy, hba, hlast]
  have hone := List.nodup_iff_count_le_one.mp (hperm.nodup_iff.mpr hnodup) a
  rw [upTo_perm hperm] at hothers
  omega

end SortOrder

end Foundation
end Veilence

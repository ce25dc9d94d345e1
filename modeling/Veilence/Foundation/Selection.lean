import Veilence.Foundation.Table

/-!
# Rows in an order that nobody has fixed

A query without an order returns its rows in any order.  {lit}`RowOrder` is one way to order
them, and a property that holds for every row order does not depend on it.  A table of the last
row for each key is what a loop over the rows leaves in a map.

Main results:

- Theorems {lit}`RowOrder.head?_firstly` and {lit}`RowOrder.getLast?_lastly`: any row can come
  first, and any row can come last.
- Theorem {lit}`get?_lastBy`: a map filled by a loop holds the last row of each key.
- Theorem {lit}`nodup_iff_pages`: the pages of a list without duplicates are disjoint.
- Theorem {lit}`exists_pages`: the pages up to the first empty one are the whole list.
-/

namespace Veilence
namespace Foundation

/-- A way to order the rows of every result. -/
structure RowOrder (α : Type*) where
  order : List α → List α
  perm : ∀ rows, (order rows).Perm rows

namespace RowOrder

variable {α : Type*}

/-- The rows as they are stored. -/
def stored : RowOrder α :=
  ⟨id, fun rows => .refl rows⟩

/-- A narrower selection among selected rows in any order. -/
theorem filter_order_perm (o : RowOrder α) {rows : List α} {p q : α → Bool}
    (hpq : ∀ a ∈ rows, q a = true → p a = true) :
    ((o.order (rows.filter p)).filter q).Perm (rows.filter q) := by
  refine ((o.perm _).filter q).trans (.of_eq ?_)
  rw [List.filter_filter]
  refine List.filter_congr fun a ha => ?_
  cases hq : q a with
  | false => simp
  | true => simp [hpq a ha hq]

/-- No rows in any order. -/
theorem order_nil (o : RowOrder α) : o.order [] = [] :=
  (o.perm []).eq_nil

/-- One row in any order. -/
theorem order_singleton (o : RowOrder α) (a : α) : o.order [a] = [a] :=
  (o.perm [a]).eq_singleton

variable [DecidableEq α]

/-- A row first, where it is one of the rows. -/
def firstly (a : α) : RowOrder α where
  order := fun rows => rows.filter (fun b => decide (b = a)) ++ rows.filter fun b => !decide (b = a)
  perm := List.filter_append_perm fun b => decide (b = a)

/-- A row last, where it is one of the rows. -/
def lastly (a : α) : RowOrder α where
  order := fun rows => (rows.filter fun b => !decide (b = a)) ++ rows.filter fun b => decide (b = a)
  perm := fun rows =>
    List.perm_append_comm.trans (List.filter_append_perm (fun b => decide (b = a)) rows)

/-- The row itself is the only row that is equal to it. -/
theorem filter_eq_replicate (a : α) (rows : List α) :
    rows.filter (fun b => decide (b = a)) = List.replicate (rows.count a) a := by
  rw [← List.filter_beq]
  congr

/-- Any row can come first. -/
theorem head?_firstly {a : α} {rows : List α} (ha : a ∈ rows) :
    ((firstly a).order rows).head? = some a := by
  have hcount : rows.count a ≠ 0 := (List.count_pos_iff.mpr ha).ne'
  have horder : (firstly a).order rows =
      List.replicate (rows.count a) a ++ rows.filter fun b => !decide (b = a) := by
    rw [← filter_eq_replicate]
    rfl
  rw [horder, List.head?_append, List.head?_replicate, if_neg hcount]
  rfl

/-- Any row that is selected can be the last one of the selection. -/
theorem getLast?_lastly {a : α} {rows : List α} {p : α → Bool} (ha : a ∈ rows) (hp : p a = true) :
    (((lastly a).order rows).filter p).getLast? = some a := by
  have hcount : rows.count a ≠ 0 := (List.count_pos_iff.mpr ha).ne'
  have hlast : (List.replicate (rows.count a) a).filter p = List.replicate (rows.count a) a := by
    rw [List.filter_replicate, if_pos hp]
  have horder : (lastly a).order rows =
      (rows.filter fun b => !decide (b = a)) ++ List.replicate (rows.count a) a := by
    rw [← filter_eq_replicate]
    rfl
  rw [horder, List.filter_append, hlast, List.getLast?_append, List.getLast?_replicate,
    if_neg hcount]
  rfl

end RowOrder

/-! ## Rows with unique keys -/

section UniqueKeys

variable {α κ : Type*} {key : α → κ} {rows : List α} {p : α → Bool}

/-- The only row of a key is the one that is found. -/
theorem find?_eq_of_key (hnodup : (rows.map key).Nodup) {a : α} (ha : a ∈ rows) (hpa : p a = true)
    (hp : ∀ b ∈ rows, p b = true → key b = key a) : rows.find? p = some a := by
  cases hfind : rows.find? p with
  | none => exact absurd hpa (by simpa using List.find?_eq_none.mp hfind a ha)
  | some b =>
      have hb := List.mem_of_find?_eq_some hfind
      have hkey := hp b hb (List.find?_some hfind)
      rw [List.inj_on_of_nodup_map hnodup hb ha hkey]

/-- All rows of one key are at most one. -/
theorem filter_eq_toList_find? (hnodup : (rows.map key).Nodup) {k : κ}
    (hp : ∀ b ∈ rows, p b = true → key b = k) : rows.filter p = (rows.find? p).toList := by
  induction rows with
  | nil => rfl
  | cons a rows ih =>
      rw [List.map_cons, List.nodup_cons] at hnodup
      cases ha : p a with
      | false =>
          rw [List.filter_cons_of_neg (by simp [ha]), List.find?_cons_of_neg (by simp [ha])]
          exact ih hnodup.2 fun b hb => hp b (List.mem_cons_of_mem a hb)
      | true =>
          have hnone : rows.filter p = [] := by
            rw [List.filter_eq_nil_iff]
            intro b hb hpb
            have hkey : key b = key a :=
              (hp b (List.mem_cons_of_mem a hb) hpb).trans (hp a List.mem_cons_self ha).symm
            exact hnodup.1 (hkey ▸ List.mem_map_of_mem hb)
          rw [List.filter_cons_of_pos ha, List.find?_cons_of_pos ha, hnone]
          rfl

/-- Looking up the image of a row by the key of the row. -/
theorem find?_filterMap_of_key {β : Type*} [DecidableEq κ] {f : α → Option β} {out : β → κ}
    (hnodup : (rows.map key).Nodup) (hout : ∀ a ∈ rows, ∀ b, f a = some b → out b = key a) {a : α}
    (ha : a ∈ rows) : (rows.filterMap f).find? (fun b => decide (out b = key a)) = f a := by
  have himages : ((rows.filterMap f).map out).Nodup := by
    refine nodup_map_filterMap hnodup ?_
    intro a ha a' ha' b b' hb hb' heq
    rw [← hout a ha b hb, ← hout a' ha' b' hb', heq]
  cases hf : f a with
  | some b =>
      refine find?_eq_of_key himages (List.mem_filterMap.mpr ⟨a, ha, hf⟩)
        (decide_eq_true (hout a ha b hf)) ?_
      intro b' _ hb'
      rw [of_decide_eq_true hb', hout a ha b hf]
  | none =>
      rw [List.find?_eq_none]
      intro b hb hkey
      obtain ⟨a', ha', hfa'⟩ := List.mem_filterMap.mp hb
      have hsame : key a' = key a := by
        rw [← hout a' ha' b hfa', of_decide_eq_true hkey]
      rw [List.inj_on_of_nodup_map hnodup ha' ha hsame, hf] at hfa'
      exact nomatch hfa'

end UniqueKeys

/-! ## The last row of each key -/

section LastBy

variable {α K : Type*} [DecidableEq K] (key : α → K)

/-- A map that a loop over rows fills: each row replaces the one of the same key. -/
def lastBy (rows : List α) : Table K α :=
  rows.foldl (fun t a => t.insert (key a) a) .empty

/-- The map holds the last row of each key. -/
theorem get?_lastBy (rows : List α) (k : K) :
    (lastBy key rows).get? k = (rows.filter fun a => decide (key a = k)).getLast? := by
  induction rows using List.reverseRecOn with
  | nil => exact Table.get?_empty k
  | append_singleton rows a ih =>
      rw [lastBy, List.foldl_append, List.foldl_cons, List.foldl_nil, Table.get?_insert,
        List.filter_append]
      by_cases hk : key a = k
      · simp [hk]
      · have hnil : [a].filter (fun b => decide (key b = k)) = [] := by
          simp [hk]
        rw [if_neg fun h => hk h.symm, hnil, List.append_nil]
        exact ih

end LastBy

/-! ## Pages -/

section Pages

variable {α : Type*}

/-- A page of a list, counted from one. -/
def pageOf (rows : List α) (page limit : Nat) : List α :=
  (rows.drop ((page - 1) * limit)).take limit

/-- The rows of a page. -/
theorem getElem?_pageOf {rows : List α} {page limit i : Nat} (hi : i < limit) :
    (pageOf rows page limit)[i]? = rows[(page - 1) * limit + i]? := by
  rw [pageOf, List.getElem?_take, if_pos hi, List.getElem?_drop]

/-- A row is on a page at a position below the limit. -/
theorem lt_of_getElem?_pageOf {rows : List α} {page limit i : Nat} {a : α}
    (h : (pageOf rows page limit)[i]? = some a) : i < limit := by
  by_contra hi
  rw [pageOf, List.getElem?_take, if_neg hi] at h
  exact nomatch h

/-- Every row is on some page. -/
theorem mem_iff_exists_page {rows : List α} {limit : Nat} (hlimit : 0 < limit) {a : α} :
    a ∈ rows ↔ ∃ page, 0 < page ∧ a ∈ pageOf rows page limit := by
  constructor
  · intro ha
    obtain ⟨n, hn⟩ := List.mem_iff_getElem?.mp ha
    refine ⟨n / limit + 1, Nat.succ_pos _, List.mem_iff_getElem?.mpr ⟨n % limit, ?_⟩⟩
    rw [getElem?_pageOf (Nat.mod_lt n hlimit), Nat.add_sub_cancel, Nat.div_add_mod' n limit, hn]
  · rintro ⟨page, -, ha⟩
    exact List.mem_of_mem_drop (List.mem_of_mem_take ha)

/-- A page is empty exactly if it starts after the last row. -/
theorem pageOf_eq_nil_iff {rows : List α} {n limit : Nat} (hlimit : 0 < limit) :
    pageOf rows (n + 1) limit = [] ↔ rows.length ≤ n * limit := by
  rw [pageOf, List.take_eq_nil_iff, List.drop_eq_nil_iff, Nat.add_sub_cancel]
  constructor
  · intro h
    rcases h with hzero | hlength
    · omega
    · exact hlength
  · exact Or.inr

/-- The first pages together are the first rows. -/
theorem flatMap_pageOf (rows : List α) (limit n : Nat) :
    (List.range n).flatMap (fun k => pageOf rows (k + 1) limit) = rows.take (n * limit) := by
  induction n with
  | zero => simp
  | succ n ih =>
      rw [List.range_succ, List.flatMap_append, ih, Nat.succ_mul, List.take_add]
      simp [pageOf]

/-- The pages up to the first empty one are the whole list. -/
theorem exists_pages (rows : List α) {limit : Nat} (hlimit : 0 < limit) :
    ∃ n, (∀ k < n, pageOf rows (k + 1) limit ≠ []) ∧ pageOf rows (n + 1) limit = [] ∧
      (List.range n).flatMap (fun k => pageOf rows (k + 1) limit) = rows := by
  have hexists : ∃ n, rows.length ≤ n * limit :=
    ⟨rows.length, Nat.le_mul_of_pos_right rows.length hlimit⟩
  refine ⟨Nat.find hexists, ?_, ?_, ?_⟩
  · intro k hk hnil
    exact Nat.find_min hexists hk ((pageOf_eq_nil_iff hlimit).mp hnil)
  · exact (pageOf_eq_nil_iff hlimit).mpr (Nat.find_spec hexists)
  · rw [flatMap_pageOf, List.take_of_length_le (Nat.find_spec hexists)]

/-- No row is on two pages or twice on one page if and only if the list has no duplicates. -/
theorem nodup_iff_pages {β : Type*} {rows : List α} {f : α → β} {limit : Nat}
    (hlimit : 0 < limit) :
    (rows.map f).Nodup ↔ ∀ (page page' i i' : Nat) (a a' : α), 0 < page → 0 < page' →
      (pageOf rows page limit)[i]? = some a → (pageOf rows page' limit)[i']? = some a' →
      f a = f a' → page = page' ∧ i = i' := by
  constructor
  · intro hnodup page page' i i' a a' hpage hpage' ha ha' hf
    have hi := lt_of_getElem?_pageOf ha
    have hi' := lt_of_getElem?_pageOf ha'
    rw [getElem?_pageOf hi] at ha
    rw [getElem?_pageOf hi'] at ha'
    have hlt : (page - 1) * limit + i < (rows.map f).length := by
      rw [List.length_map]
      exact (List.getElem?_eq_some_iff.mp ha).1
    have hsame : (rows.map f)[(page - 1) * limit + i]? =
        (rows.map f)[(page' - 1) * limit + i']? := by
      rw [List.getElem?_map, List.getElem?_map, ha, ha', Option.map_some, Option.map_some, hf]
    have hindex := (List.getElem?_inj hlt hnodup).mp hsame
    have hdiv := congrArg (· / limit) hindex
    have hmod := congrArg (· % limit) hindex
    simp only [Nat.mul_comm _ limit, Nat.mul_add_div hlimit, Nat.div_eq_of_lt hi,
      Nat.div_eq_of_lt hi', Nat.mul_add_mod, Nat.mod_eq_of_lt hi, Nat.mod_eq_of_lt hi'] at hdiv hmod
    exact ⟨by omega, hmod⟩
  · intro hpages
    rw [List.nodup_iff_getElem?_ne_getElem?]
    intro n m hnm hm hsame
    rw [List.length_map] at hm
    have hn : n < rows.length := hnm.trans hm
    have hentry : ∀ {k : Nat} (hk : k < rows.length),
        (pageOf rows (k / limit + 1) limit)[k % limit]? = some rows[k] := by
      intro k hk
      rw [getElem?_pageOf (Nat.mod_lt k hlimit), Nat.add_sub_cancel, Nat.div_add_mod' k limit,
        List.getElem?_eq_getElem hk]
    have hf : f rows[n] = f rows[m] := by
      rw [List.getElem?_map, List.getElem?_map, List.getElem?_eq_getElem hn,
        List.getElem?_eq_getElem hm] at hsame
      exact Option.some.inj hsame
    obtain ⟨hpage, hposition⟩ := hpages _ _ _ _ _ _ (Nat.succ_pos _) (Nat.succ_pos _)
      (hentry hn) (hentry hm) hf
    have hdivn := Nat.div_add_mod n limit
    have hdivm := Nat.div_add_mod m limit
    have hquotient : n / limit = m / limit := by omega
    rw [hquotient, hposition, hdivm] at hdivn
    omega

end Pages

end Foundation
end Veilence

import Mathlib

/-!
# Finite tables

A finite map with decidable keys, kept as a list with at most one entry a key.
File maps, file systems and database tables are instances.

Main results:

- Theorem {lit}`Table.get?_eq_some_iff`: looking a key up is membership.
- Theorems {lit}`Table.get?_insert` and {lit}`Table.get?_erase`: what one update
  does to every key.
- Theorem {lit}`Table.get?_insertAll`: many insertions with different keys.
- Theorem {lit}`Table.get?_insertAll_of_sole`: many insertions that agree on one key.
-/

namespace Veilence
namespace Foundation

/-- Selected images stay different when the chosen parts tell the sources apart. -/
theorem nodup_map_filterMap {α β κ ι : Type*} {g : α → Option β} {out : β → ι}
    {key : α → κ} {xs : List α} (hnodup : (xs.map key).Nodup)
    (hinj : ∀ a ∈ xs, ∀ a' ∈ xs, ∀ b b', g a = some b → g a' = some b' → out b = out b' →
      key a = key a') : ((xs.filterMap g).map out).Nodup := by
  induction xs with
  | nil => simp
  | cons x xs ih =>
      simp only [List.map_cons, List.nodup_cons] at hnodup
      have hrest := ih hnodup.2 fun a ha a' ha' =>
        hinj a (List.mem_cons_of_mem x ha) a' (List.mem_cons_of_mem x ha')
      cases hx : g x with
      | none => rwa [List.filterMap_cons_none hx]
      | some b =>
          rw [List.filterMap_cons_some hx, List.map_cons, List.nodup_cons]
          refine ⟨fun hmem => ?_, hrest⟩
          obtain ⟨b', hb', hout⟩ := List.mem_map.mp hmem
          obtain ⟨a, ha, hab⟩ := List.mem_filterMap.mp hb'
          have hkey : key x = key a :=
            hinj x (by simp) a (List.mem_cons_of_mem x ha) b b' hx hab hout.symm
          exact hnodup.1 (hkey ▸ List.mem_map_of_mem ha)

/-- A finite map: a list of entries with different keys. -/
structure Table (K : Type*) (V : Type*) where
  entries : List (K × V)
  nodup : (entries.map Prod.fst).Nodup

namespace Table

variable {K V : Type*} [DecidableEq K]

/-- The keys of a table. -/
def keys (t : Table K V) : List K :=
  t.entries.map Prod.fst

/-- The value at a key, if there is one. -/
def get? (t : Table K V) (k : K) : Option V :=
  t.entries.lookup k

/-- The table without entries. -/
def empty : Table K V :=
  ⟨[], by simp⟩

/-- The table with one entry. -/
def single (k : K) (v : V) : Table K V :=
  ⟨[(k, v)], by simp⟩

/-- Remove a key. -/
def erase (t : Table K V) (k : K) : Table K V where
  entries := t.entries.filter (·.1 ≠ k)
  nodup := t.nodup.sublist (List.filter_sublist.map Prod.fst)

/-- Set the value at a key. -/
def insert (t : Table K V) (k : K) (v : V) : Table K V where
  entries := (k, v) :: (t.erase k).entries
  nodup := by
    refine List.nodup_cons.mpr ⟨?_, (t.erase k).nodup⟩
    simp [erase]

/-- Set the values of a list of entries, one after the other. -/
def insertAll (t : Table K V) (entries : List (K × V)) : Table K V :=
  entries.foldl (fun t e => t.insert e.1 e.2) t

/-- Keep the entries whose keys satisfy a condition. -/
def filterKeys (t : Table K V) (p : K → Bool) : Table K V where
  entries := t.entries.filter (p ·.1)
  nodup := t.nodup.sublist (List.filter_sublist.map Prod.fst)

/-- Looking a key up is membership of the entry. -/
theorem get?_eq_some_iff {t : Table K V} {k : K} {v : V} :
    t.get? k = some v ↔ (k, v) ∈ t.entries := by
  obtain ⟨entries, hnodup⟩ := t
  simp only [get?]
  induction entries with
  | nil => simp
  | cons e entries ih =>
      obtain ⟨k', v'⟩ := e
      simp only [List.map_cons, List.nodup_cons] at hnodup
      by_cases hk : k = k'
      · subst hk
        have hnone : ∀ w, (k, w) ∉ entries :=
          fun w hw => hnodup.1 (List.mem_map.mpr ⟨(k, w), hw, rfl⟩)
        simp [List.lookup, hnone, eq_comm]
      · have hbeq : (k == k') = false := by simpa using hk
        simp [List.lookup, hbeq, hk, ih hnodup.2]

/-- A key is listed exactly when it has a value. -/
theorem mem_keys_iff {t : Table K V} {k : K} : k ∈ t.keys ↔ (t.get? k).isSome := by
  constructor
  · intro hk
    obtain ⟨⟨_, v⟩, he, rfl⟩ := List.mem_map.mp hk
    rw [get?_eq_some_iff.mpr he]
    rfl
  · intro hsome
    obtain ⟨v, hv⟩ := Option.isSome_iff_exists.mp hsome
    exact List.mem_map.mpr ⟨(k, v), get?_eq_some_iff.mp hv, rfl⟩

@[simp]
theorem get?_empty (k : K) : (empty : Table K V).get? k = none :=
  rfl

/-- Removing a key changes the table at that key only. -/
theorem get?_erase (t : Table K V) (k q : K) :
    (t.erase k).get? q = if q = k then none else t.get? q := by
  refine Option.ext fun v => ?_
  rw [get?_eq_some_iff]
  split_ifs with hq
  · simp [erase, hq]
  · simp [erase, hq, get?_eq_some_iff]

/-- Setting a key changes the table at that key only. -/
theorem get?_insert (t : Table K V) (k : K) (v : V) (q : K) :
    (t.insert k v).get? q = if q = k then some v else t.get? q := by
  have herase := get?_erase t k q
  simp only [get?, insert] at herase ⊢
  split_ifs at herase ⊢ with hq
  · simp [List.lookup, hq]
  · have hbeq : (q == k) = false := by simpa using hq
    simpa [List.lookup, hbeq] using herase

@[simp]
theorem get?_insert_self (t : Table K V) (k : K) (v : V) : (t.insert k v).get? k = some v := by
  simp [get?_insert]

theorem get?_insert_of_ne {t : Table K V} {k q : K} {v : V} (hq : q ≠ k) :
    (t.insert k v).get? q = t.get? q := by
  simp [get?_insert, hq]

omit [DecidableEq K] in
@[simp]
theorem mem_keys_filterKeys {t : Table K V} {p : K → Bool} {k : K} :
    k ∈ (t.filterKeys p).keys ↔ k ∈ t.keys ∧ p k = true := by
  simp only [keys, filterKeys, List.mem_map, List.mem_filter]
  constructor
  · rintro ⟨e, ⟨he, hp⟩, rfl⟩
    exact ⟨⟨e, he, rfl⟩, hp⟩
  · rintro ⟨⟨e, he, rfl⟩, hp⟩
    exact ⟨e, ⟨he, hp⟩, rfl⟩

/-- An entry that is kept was there. -/
theorem get?_of_filterKeys {t : Table K V} {p : K → Bool} {k : K} {v : V}
    (hget : (t.filterKeys p).get? k = some v) : t.get? k = some v := by
  rw [get?_eq_some_iff] at hget ⊢
  exact List.mem_of_mem_filter hget

@[simp]
theorem mem_keys_insert {t : Table K V} {k q : K} {v : V} :
    q ∈ (t.insert k v).keys ↔ q = k ∨ q ∈ t.keys := by
  rw [mem_keys_iff, mem_keys_iff, get?_insert]
  split_ifs with hq
  · simp [hq]
  · simp [hq]

@[simp]
theorem mem_keys_erase {t : Table K V} {k q : K} :
    q ∈ (t.erase k).keys ↔ q ≠ k ∧ q ∈ t.keys := by
  rw [mem_keys_iff, mem_keys_iff, get?_erase]
  split_ifs with hq
  · simp [hq]
  · simp [hq]

/-- A list of entries with different keys adds exactly its entries to the empty table. -/
theorem get?_insertAll {entries : List (K × V)} (hnodup : (entries.map Prod.fst).Nodup)
    {t : Table K V} (hfresh : ∀ e ∈ entries, t.get? e.1 = none) {k : K} {v : V} :
    (t.insertAll entries).get? k = some v ↔ (k, v) ∈ entries ∨ t.get? k = some v := by
  induction entries generalizing t with
  | nil => simp [insertAll]
  | cons e entries ih =>
      obtain ⟨k', v'⟩ := e
      simp only [List.map_cons, List.nodup_cons] at hnodup
      have hrest : ∀ e ∈ entries, (t.insert k' v').get? e.1 = none := by
        intro e he
        have hne : e.1 ≠ k' := fun heq => hnodup.1 (heq ▸ List.mem_map_of_mem he)
        rw [get?_insert_of_ne hne]
        exact hfresh e (List.mem_cons_of_mem _ he)
      have hstep := ih hnodup.2 hrest
      have hhead : t.get? k' = none := hfresh (k', v') (by simp)
      simp only [insertAll, List.foldl_cons] at hstep ⊢
      rw [hstep, get?_insert]
      by_cases hk : k = k'
      · subst hk
        simp [hhead, or_comm, eq_comm]
      · simp [hk]

/-- A key whose entries all have one value gets that value. -/
theorem get?_insertAll_of_sole {entries : List (K × V)} {t : Table K V} {k : K} {v : V}
    (hmem : (k, v) ∈ entries ∨ t.get? k = some v) (hsole : ∀ e ∈ entries, e.1 = k → e.2 = v) :
    (t.insertAll entries).get? k = some v := by
  induction entries generalizing t with
  | nil =>
      cases hmem with
      | inl hmem => cases hmem
      | inr hold => exact hold
  | cons e entries ih =>
      apply ih
      · by_cases hk : e.1 = k
        · right
          rw [← hk, get?_insert_self, hsole e (by simp) hk]
        · rw [get?_insert_of_ne (Ne.symm hk)]
          apply hmem.imp_left
          intro hmem
          cases hmem with
          | head => exact absurd rfl hk
          | tail _ hmem => exact hmem
      · intro e' he'
        exact hsole e' (List.mem_cons_of_mem e he')

/-! ### Numbers as keys -/

/-- A number is at most the maximum of a list that it is in. -/
theorem le_foldr_max {k : Nat} {keys : List Nat} (hk : k ∈ keys) : k ≤ keys.foldr max 0 := by
  induction keys with
  | nil => exact absurd hk List.not_mem_nil
  | cons k' keys ih =>
      rcases List.mem_cons.mp hk with rfl | hk
      · exact Nat.le_max_left _ _
      · exact (ih hk).trans (Nat.le_max_right _ _)

/-- A number above every key. -/
def freshKey (t : Table Nat V) : Nat :=
  t.keys.foldr max 0 + 1

theorem lt_freshKey {t : Table Nat V} {k : Nat} (hk : k ∈ t.keys) : k < t.freshKey :=
  Nat.lt_succ_of_le (le_foldr_max hk)

@[simp]
theorem get?_freshKey (t : Table Nat V) : t.get? t.freshKey = none := by
  by_contra hsome
  have hmem : t.freshKey ∈ t.keys := mem_keys_iff.mpr (Option.isSome_iff_ne_none.mpr hsome)
  exact absurd (lt_freshKey hmem) (Nat.lt_irrefl _)

end Table
end Foundation
end Veilence

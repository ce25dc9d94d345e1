import Veilence.Foundation.Table

/-!
# Tables whose keys are given out by a counter

Rows are added under the next number, changed and removed.  The counter stays above every
key, so a new row replaces none, and a smaller key means an earlier row.

Main results:

- Theorems {lit}`Ledger.get?_add`, {lit}`Ledger.get?_addAll`, {lit}`Ledger.get?_modify`,
  {lit}`Ledger.get?_remove` and {lit}`Ledger.get?_removeWhere`: what one change does to every
  key.
- Theorem {lit}`Ledger.lt_next`: the counter is above every key.
-/

namespace Veilence
namespace Foundation

/-- There are at most as many different numbers as there are below a bound. -/
theorem length_le_of_nodup {l : List Nat} {n : Nat} (hnodup : l.Nodup) (hlt : ∀ x ∈ l, x < n) :
    l.length ≤ n := by
  have hrange : l ⊆ List.range n := fun x hx => List.mem_range.mpr (hlt x hx)
  simpa using (hnodup.subperm hrange).length_le

/-- A table with a counter above its keys. -/
structure Ledger (V : Type*) where
  rows : Table Nat V
  next : Nat
  lt_next : ∀ id ∈ rows.keys, id < next

namespace Ledger

variable {V : Type*}

/-- The ledger without rows. -/
def empty : Ledger V :=
  ⟨.empty, 0, by simp [Table.keys, Table.empty]⟩

/-- The row of a key. -/
def get? (t : Ledger V) (id : Nat) : Option V :=
  t.rows.get? id

/-- Add a row under the next key. -/
def add (t : Ledger V) (v : V) : Ledger V where
  rows := t.rows.insert t.next v
  next := t.next + 1
  lt_next := by
    intro id hid
    rcases Table.mem_keys_insert.mp hid with rfl | hid
    · omega
    · have hlt := t.lt_next id hid
      omega

/-- Add rows under the next keys, in order. -/
def addAll (t : Ledger V) (vs : List V) : Ledger V :=
  vs.foldl add t

/-- Replace the row of a key that has one. -/
def modify (t : Ledger V) (id : Nat) (f : V → V) : Ledger V :=
  match hget : t.rows.get? id with
  | none => t
  | some v =>
      { t with
        rows := t.rows.insert id (f v)
        lt_next := by
          intro id' hid
          rcases Table.mem_keys_insert.mp hid with rfl | hid
          · exact t.lt_next _ (Table.mem_keys_iff.mpr (by simp [hget]))
          · exact t.lt_next id' hid }

/-- Set the row of a key that has been given out. -/
def put (t : Ledger V) (id : Nat) (v : V) : Ledger V :=
  if hid : id < t.next then
    { t with
      rows := t.rows.insert id v
      lt_next := by
        intro id' hid'
        rcases Table.mem_keys_insert.mp hid' with rfl | hid'
        · exact hid
        · exact t.lt_next id' hid' }
  else t

/-- Remove a row. -/
def remove (t : Ledger V) (id : Nat) : Ledger V where
  rows := t.rows.erase id
  next := t.next
  lt_next := fun id' hid => t.lt_next id' (Table.mem_keys_erase.mp hid).2

/-- Remove the rows that satisfy a condition. -/
def removeWhere (t : Ledger V) (p : V → Bool) : Ledger V where
  rows :=
    ⟨t.rows.entries.filter fun e => !p e.2,
      t.rows.nodup.sublist (List.filter_sublist.map Prod.fst)⟩
  next := t.next
  lt_next := fun id hid =>
    t.lt_next id ((List.filter_sublist.map Prod.fst).subset hid)

/-- A key with a row is below the counter. -/
theorem lt_of_get? {t : Ledger V} {id : Nat} {v : V} (hget : t.get? id = some v) :
    id < t.next :=
  t.lt_next id (Table.mem_keys_iff.mpr (by simp [show t.rows.get? id = some v from hget]))

@[simp]
theorem get?_empty (id : Nat) : (empty : Ledger V).get? id = none :=
  rfl

@[simp]
theorem get?_next (t : Ledger V) : t.get? t.next = none := by
  cases hget : t.get? t.next with
  | none => rfl
  | some v => exact absurd (lt_of_get? hget) (Nat.lt_irrefl _)

/-- A new row changes no other one. -/
theorem get?_add (t : Ledger V) (v : V) (id : Nat) :
    (t.add v).get? id = if id = t.next then some v else t.get? id :=
  Table.get?_insert t.rows t.next v id

/-- After a row has been added there are that row and the old ones. -/
theorem of_get?_add {t : Ledger V} {v v' : V} {id : Nat} (hget : (t.add v).get? id = some v') :
    (id = t.next ∧ v' = v) ∨ t.get? id = some v' := by
  rw [get?_add] at hget
  split_ifs at hget with hid
  · exact Or.inl ⟨hid, (Option.some.inj hget).symm⟩
  · exact Or.inr hget

/-- What was there stays when a row is added. -/
theorem get?_add_of_some {t : Ledger V} {v v' : V} {id : Nat} (hget : t.get? id = some v') :
    (t.add v).get? id = some v' := by
  have hne : id ≠ t.next := Nat.ne_of_lt (lt_of_get? hget)
  rw [get?_add, if_neg hne, hget]

/-- New rows follow the old ones in order. -/
theorem get?_addAll (t : Ledger V) (vs : List V) (id : Nat) :
    (t.addAll vs).get? id = if id < t.next then t.get? id else vs[id - t.next]? := by
  induction vs generalizing t with
  | nil =>
      split_ifs with hid
      · rfl
      · change t.get? id = none
        cases hget : t.get? id with
        | none => rfl
        | some v => exact absurd (lt_of_get? hget) hid
  | cons v vs ih =>
      rw [show t.addAll (v :: vs) = (t.add v).addAll vs from rfl, ih, get?_add]
      rcases Nat.lt_trichotomy id t.next with hid | hid | hid
      · have hnew : id < (t.add v).next := Nat.lt_succ_of_lt hid
        rw [if_pos hnew, if_pos hid, if_neg (Nat.ne_of_lt hid)]
      · have hnew : id < (t.add v).next := hid ▸ Nat.lt_succ_self _
        rw [if_pos hnew, if_neg (Nat.not_lt_of_ge hid.ge), if_pos hid]
        simp [hid]
      · have hnew : ¬id < (t.add v).next := Nat.not_lt_of_ge hid
        have hsub : id - t.next = id - (t.add v).next + 1 := by
          change id - t.next = id - (t.next + 1) + 1
          omega
        rw [if_neg hnew, if_neg (Nat.not_lt_of_ge (Nat.le_of_lt hid)), hsub]
        rfl

/-- A change changes the row of its key. -/
theorem get?_modify (t : Ledger V) (id : Nat) (f : V → V) (id' : Nat) :
    (t.modify id f).get? id' = if id' = id then (t.get? id).map f else t.get? id' := by
  simp only [modify]
  split
  · rename_i hget
    split_ifs with hid
    · simp [hid, get?, hget]
    · rfl
  · rename_i v hget
    split_ifs with hid
    · simp [hid, get?, hget]
    · simp [get?, Table.get?_insert_of_ne hid]

/-- A change removes no row. -/
theorem isSome_get?_modify {t : Ledger V} {id id' : Nat} {f : V → V}
    (hget : (t.get? id').isSome = true) : ((t.modify id f).get? id').isSome = true := by
  rw [get?_modify]
  split_ifs with hid
  · simpa [hid] using hget
  · exact hget

/-- A removal removes the row of its key. -/
theorem get?_remove (t : Ledger V) (id id' : Nat) :
    (t.remove id).get? id' = if id' = id then none else t.get? id' :=
  Table.get?_erase t.rows id id'

/-- A removal by a condition keeps the rows that do not satisfy it. -/
theorem get?_removeWhere (t : Ledger V) (p : V → Bool) (id : Nat) :
    (t.removeWhere p).get? id = (t.get? id).filter fun v => !p v := by
  ext v
  have hmem : (t.removeWhere p).get? id = some v ↔ (id, v) ∈ t.rows.entries ∧ p v = false := by
    simp [get?, removeWhere, Table.get?_eq_some_iff]
  rw [hmem, Option.filter_eq_some_iff]
  simp [get?, Table.get?_eq_some_iff]

/-- There are no more rows than keys have been given out. -/
theorem length_le_next (t : Ledger V) : t.rows.entries.length ≤ t.next := by
  have hlen : t.rows.keys.length ≤ t.next := length_le_of_nodup t.rows.nodup t.lt_next
  rwa [Table.keys, List.length_map] at hlen

@[simp]
theorem next_modify (t : Ledger V) (id : Nat) (f : V → V) : (t.modify id f).next = t.next := by
  simp only [modify]
  split <;> rfl

end Ledger
end Foundation
end Veilence

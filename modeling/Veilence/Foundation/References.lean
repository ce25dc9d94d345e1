import Mathlib
import Veilence.Foundation.Table

/-!
# Tables that refer to each other

A relational store: tables of rows, and foreign keys between them.  A row that is deleted takes
the rows that refer to it along, clears their column, or cannot be deleted, whichever action the
foreign key names.

Rows belong to an owner.  An owner is closed if the rows that refer to its rows are its rows as
well; what deletes only rows of a closed owner leaves every other row as it is.

Main results:

- Theorem {lit}`Spares.deleteRows`: a deletion of rows of a closed owner spares the others.
- Theorem {lit}`get?_of_deleteRows`: the deleted rows are gone.
- Theorem {lit}`deleteRows_eq_of_rank`: in an acyclic schema the depth of the recursion does not
  matter once it exceeds the rank of the table.
-/

namespace Veilence
namespace Foundation

/-! ## Tables -/

namespace Table

variable {K V : Type*}

/-- Delete the rows that meet a condition. -/
def deleteWhere (t : Table K V) (p : K → V → Bool) : Table K V where
  entries := t.entries.filter fun e => !p e.1 e.2
  nodup := t.nodup.sublist (List.filter_sublist.map Prod.fst)

/-- Change the rows that meet a condition. -/
def updateWhere (t : Table K V) (p : K → V → Bool) (f : V → V) : Table K V where
  entries := t.entries.map fun e => (e.1, if p e.1 e.2 then f e.2 else e.2)
  nodup := by
    rw [List.map_map]
    exact t.nodup

/-- The keys of the rows that meet a condition. -/
def keysWhere (t : Table K V) (p : K → V → Bool) : List K :=
  (t.entries.filter fun e => p e.1 e.2).map Prod.fst

variable [DecidableEq K]

/-- A key is selected when its row meets the condition. -/
theorem mem_keysWhere {t : Table K V} {p : K → V → Bool} {k : K} :
    k ∈ t.keysWhere p ↔ ∃ v, t.get? k = some v ∧ p k v = true := by
  constructor
  · intro hk
    obtain ⟨⟨_, v⟩, he, rfl⟩ := List.mem_map.mp hk
    obtain ⟨hmem, hp⟩ := List.mem_filter.mp he
    exact ⟨v, get?_eq_some_iff.mpr hmem, hp⟩
  · intro h
    obtain ⟨v, hv, hp⟩ := h
    exact List.mem_map.mpr ⟨(k, v), List.mem_filter.mpr ⟨get?_eq_some_iff.mp hv, hp⟩, rfl⟩

/-- A row is left when it does not meet the condition. -/
theorem get?_deleteWhere_eq_some_iff {t : Table K V} {p : K → V → Bool} {k : K} {v : V} :
    (t.deleteWhere p).get? k = some v ↔ t.get? k = some v ∧ p k v = false := by
  rw [get?_eq_some_iff, get?_eq_some_iff]
  simp [deleteWhere]

/-- A row that does not meet the condition stays, and so does an absent one. -/
theorem get?_deleteWhere_of_not {t : Table K V} {p : K → V → Bool} {k : K}
    (h : ∀ v, t.get? k = some v → p k v = false) :
    (t.deleteWhere p).get? k = t.get? k := by
  ext v
  rw [get?_deleteWhere_eq_some_iff]
  exact ⟨fun hv => hv.1, fun hv => ⟨hv, h v hv⟩⟩

/-- An update changes the rows that meet the condition. -/
theorem get?_updateWhere (t : Table K V) (p : K → V → Bool) (f : V → V) (k : K) :
    (t.updateWhere p f).get? k = (t.get? k).map fun v => if p k v then f v else v := by
  ext v
  rw [get?_eq_some_iff, Option.map_eq_some_iff]
  constructor
  · intro hmem
    obtain ⟨⟨_, u⟩, he, heq⟩ := List.mem_map.mp hmem
    obtain ⟨rfl, rfl⟩ := Prod.mk.inj heq
    exact ⟨u, get?_eq_some_iff.mpr he, rfl⟩
  · intro h
    obtain ⟨u, hu, rfl⟩ := h
    exact List.mem_map.mpr ⟨(k, u), get?_eq_some_iff.mp hu, rfl⟩

end Table

/-! ## Foreign keys -/

variable {Tab K : Type} {Row : Tab → Type}

/-- A table for each name. -/
abbrev Store (K : Type) (Row : Tab → Type) : Type :=
  (t : Tab) → Table K (Row t)

/-- What becomes of the rows that refer to a deleted row. -/
inductive Action where
  | cascade
  | setNull
  | restrict
deriving DecidableEq

/-- A column of the rows of `child` that refers to rows of `parent`; `clear` sets it to
NULL. -/
structure ForeignKey (Row : Tab → Type) (K : Type) where
  child : Tab
  parent : Tab
  column : Row child → Option K
  clear : Row child → Row child
  action : Action

section Deletion

variable [DecidableEq Tab] [DecidableEq K]

/-- Does the row refer to one of the listed rows? -/
def ForeignKey.refersTo (fk : ForeignKey Row K) (ids : List K) (_ : K) (row : Row fk.child) :
    Bool :=
  (fk.column row).any (· ∈ ids)

/-- A reference to one of the listed rows. -/
theorem ForeignKey.refersTo_iff {fk : ForeignKey Row K} {ids : List K} {k : K}
    {row : Row fk.child} : fk.refersTo ids k row = true ↔ ∃ q ∈ ids, fk.column row = some q := by
  unfold ForeignKey.refersTo
  cases hcolumn : fk.column row with
  | none => simp
  | some q => simp

/-- Replace one table. -/
def Store.set (db : Store K Row) (t : Tab) (table : Table K (Row t)) : Store K Row :=
  Function.update db t table

@[simp]
theorem Store.set_self (db : Store K Row) (t : Tab) (table : Table K (Row t)) :
    db.set t table t = table := by
  simp [Store.set]

theorem Store.set_of_ne (db : Store K Row) {t t' : Tab} (table : Table K (Row t))
    (hne : t' ≠ t) : db.set t table t' = db t' := by
  simp [Store.set, hne]

/-- What a deletion of the listed parents does to the rows behind one foreign key; `delete`
deletes the rows of a table. -/
def ForeignKey.react (delete : (t : Tab) → List K → Store K Row → Option (Store K Row))
    (fk : ForeignKey Row K) (ids : List K) (db : Store K Row) : Option (Store K Row) :=
  match fk.action with
  | .cascade => delete fk.child ((db fk.child).keysWhere (fk.refersTo ids)) db
  | .setNull => some (db.set fk.child ((db fk.child).updateWhere (fk.refersTo ids) fk.clear))
  | .restrict => if (db fk.child).keysWhere (fk.refersTo ids) = [] then some db else none

/-- Delete the listed rows of a table and let the foreign keys react, `depth` tables deep. -/
def deleteRows (schema : List (ForeignKey Row K)) : Nat → (t : Tab) → List K → Store K Row →
    Option (Store K Row)
  | 0, t, ids, db => some (db.set t ((db t).deleteWhere fun k _ => k ∈ ids))
  | depth + 1, t, ids, db =>
      (schema.filter fun fk => fk.parent = t).foldlM
        (fun db fk => fk.react (deleteRows schema depth) ids db)
        (db.set t ((db t).deleteWhere fun k _ => k ∈ ids))

/-- What every step of a fold preserves, and what it starts with. -/
theorem holds_of_foldlM {σ α : Type*} {I : σ → Prop} {f : σ → α → Option σ} {xs : List α}
    (hstep : ∀ x ∈ xs, ∀ s s', I s → f s x = some s' → I s') {s s' : σ} (hs : I s)
    (h : xs.foldlM f s = some s') : I s' := by
  induction xs generalizing s with
  | nil =>
      obtain rfl := Option.some.inj h
      exact hs
  | cons x xs ih =>
      rw [List.foldlM_cons] at h
      obtain ⟨mid, hmid, hrest⟩ := Option.bind_eq_some_iff.mp h
      exact ih (fun y hy => hstep y (List.mem_cons_of_mem x hy)) (hstep x (by simp) s mid hs hmid)
        hrest

/-- Folds whose steps agree. -/
theorem foldlM_eq_of_steps {σ α : Type*} {f g : σ → α → Option σ} {xs : List α}
    (h : ∀ x ∈ xs, ∀ s, f s x = g s x) (s : σ) : xs.foldlM f s = xs.foldlM g s := by
  induction xs generalizing s with
  | nil => rfl
  | cons x xs ih =>
      rw [List.foldlM_cons, List.foldlM_cons, h x (by simp) s]
      cases g s x with
      | none => rfl
      | some mid => exact ih (fun y hy => h y (List.mem_cons_of_mem x hy)) mid

variable {schema : List (ForeignKey Row K)}

/-- In a schema whose foreign keys lead to tables of lower rank, the depth does not matter once
it exceeds the rank. -/
theorem deleteRows_eq_of_rank {rank : Tab → Nat}
    (hrank : ∀ fk ∈ schema, rank fk.child < rank fk.parent) {n m : Nat} {t : Tab}
    (hn : rank t < n) (hm : rank t < m) (ids : List K) (db : Store K Row) :
    deleteRows schema n t ids db = deleteRows schema m t ids db := by
  induction n generalizing m t ids db with
  | zero => omega
  | succ n ih =>
      cases m with
      | zero => omega
      | succ m =>
          unfold deleteRows
          apply foldlM_eq_of_steps
          intro fk hfk s
          obtain ⟨hmem, hparent⟩ := List.mem_filter.mp hfk
          have hlower : rank fk.child < rank t := by
            have hlt := hrank fk hmem
            rwa [of_decide_eq_true hparent] at hlt
          unfold ForeignKey.react
          rw [ih (by omega) (show rank fk.child < m by omega)]

/-! ## Owners -/

variable (schema) in
/-- What may become of a row that stays: it may lose references, but it gains none. -/
structure Wear where
  rel : (t : Tab) → Row t → Row t → Prop
  refl : ∀ t row, rel t row row
  trans : ∀ t a b c, rel t a b → rel t b c → rel t a c
  clear : ∀ fk ∈ schema, fk.action = .setNull → ∀ row, rel fk.child row (fk.clear row)
  column : ∀ fk ∈ schema, ∀ old new q, rel fk.child old new → fk.column new = some q →
    fk.column old = some q

variable (schema) in
/-- The rows that refer to rows of the owner are its rows as well. -/
def Closed (own : Tab → K → Prop) (db : Store K Row) : Prop :=
  ∀ fk ∈ schema, ∀ k row q, (db fk.child).get? k = some row → fk.column row = some q →
    own fk.parent q → own fk.child k

/-- The rows of others are as before, and every row was there before. -/
structure Spares (wear : Wear schema) (own : Tab → K → Prop) (db db' : Store K Row) : Prop where
  kept : ∀ t k, ¬own t k → (db' t).get? k = (db t).get? k
  source : ∀ t k new, (db' t).get? k = some new →
    ∃ old, (db t).get? k = some old ∧ wear.rel t old new

variable {wear : Wear schema} {own : Tab → K → Prop} {db db' db'' : Store K Row}

namespace Spares

/-- Nothing has happened. -/
theorem refl (db : Store K Row) : Spares wear own db db where
  kept _ _ _ := rfl
  source t _ new hnew := ⟨new, hnew, wear.refl t new⟩

/-- One change after another. -/
theorem trans (h : Spares wear own db db') (h' : Spares wear own db' db'') :
    Spares wear own db db'' where
  kept t k hk := (h'.kept t k hk).trans (h.kept t k hk)
  source t k new hnew := by
    obtain ⟨mid, hmid, hlate⟩ := h'.source t k new hnew
    obtain ⟨old, hold, hearly⟩ := h.source t k mid hmid
    exact ⟨old, hold, wear.trans t old mid new hearly hlate⟩

/-- An owner of more rows. -/
theorem mono {more : Tab → K → Prop} (hmore : ∀ t k, own t k → more t k)
    (h : Spares wear own db db') : Spares wear more db db' where
  kept t k hk := h.kept t k fun hown => hk (hmore t k hown)
  source := h.source

/-- A row that was not there is not there. -/
theorem get?_eq_none (h : Spares wear own db db') {t : Tab} {k : K}
    (hnone : (db t).get? k = none) : (db' t).get? k = none := by
  rw [Option.eq_none_iff_forall_ne_some]
  intro new hnew
  obtain ⟨old, hold, -⟩ := h.source t k new hnew
  rw [hnone] at hold
  exact nomatch hold

/-- A closed owner stays closed. -/
theorem closed (h : Spares wear own db db') (hclosed : Closed schema own db) :
    Closed schema own db' := by
  intro fk hfk k new q hnew hcolumn hown
  obtain ⟨old, hold, hrel⟩ := h.source fk.child k new hnew
  exact hclosed fk hfk k old q hold (wear.column fk hfk old new q hrel hcolumn) hown

/-- One table is replaced. -/
theorem set {t : Tab} {table : Table K (Row t)}
    (hkept : ∀ k, ¬own t k → table.get? k = (db t).get? k)
    (hsource : ∀ k new, table.get? k = some new →
      ∃ old, (db t).get? k = some old ∧ wear.rel t old new) :
    Spares wear own db (db.set t table) where
  kept t' k hk := by
    by_cases ht : t' = t
    · subst ht
      rw [db.set_self]
      exact hkept k hk
    · rw [db.set_of_ne table ht]
  source t' k new hnew := by
    by_cases ht : t' = t
    · subst ht
      rw [db.set_self] at hnew
      exact hsource k new hnew
    · rw [db.set_of_ne table ht] at hnew
      exact ⟨new, hnew, wear.refl t' new⟩

/-- Rows of the owner are deleted. -/
theorem deleteWhere {t : Tab} {p : K → Row t → Bool}
    (hp : ∀ k row, (db t).get? k = some row → p k row = true → own t k) :
    Spares wear own db (db.set t ((db t).deleteWhere p)) := by
  apply Spares.set
  · intro k hk
    refine Table.get?_deleteWhere_of_not fun row hrow => ?_
    rw [← Bool.not_eq_true]
    exact fun hsel => hk (hp k row hrow hsel)
  · intro k new hnew
    exact ⟨new, (Table.get?_deleteWhere_eq_some_iff.mp hnew).1, wear.refl t new⟩

/-- Rows of the owner are changed. -/
theorem updateWhere {t : Tab} {p : K → Row t → Bool} {f : Row t → Row t}
    (hp : ∀ k row, (db t).get? k = some row → p k row = true → own t k)
    (hf : ∀ k row, (db t).get? k = some row → p k row = true → wear.rel t row (f row)) :
    Spares wear own db (db.set t ((db t).updateWhere p f)) := by
  apply Spares.set
  · intro k hk
    rw [Table.get?_updateWhere]
    cases hrow : (db t).get? k with
    | none => rfl
    | some row =>
        have hsel : ¬p k row = true := fun hsel => hk (hp k row hrow hsel)
        simp [hsel]
  · intro k new hnew
    rw [Table.get?_updateWhere, Option.map_eq_some_iff] at hnew
    obtain ⟨old, hold, rfl⟩ := hnew
    refine ⟨old, hold, ?_⟩
    split_ifs with hsel
    · exact hf k old hold hsel
    · exact wear.refl t old

/-- The reaction of a foreign key to the deletion of rows of a closed owner. -/
theorem react {delete : (t : Tab) → List K → Store K Row → Option (Store K Row)}
    (hdelete : ∀ t ids db db', Closed schema own db → (∀ k ∈ ids, own t k) →
      delete t ids db = some db' → Spares wear own db db')
    {fk : ForeignKey Row K} (hfk : fk ∈ schema) {ids : List K} (hids : ∀ k ∈ ids, own fk.parent k)
    (hclosed : Closed schema own db) (h : fk.react delete ids db = some db') :
    Spares wear own db db' := by
  have hreferring : ∀ k row, (db fk.child).get? k = some row → fk.refersTo ids k row = true →
      own fk.child k := by
    intro k row hrow hrefers
    obtain ⟨q, hq, hcolumn⟩ := ForeignKey.refersTo_iff.mp hrefers
    exact hclosed fk hfk k row q hrow hcolumn (hids q hq)
  unfold ForeignKey.react at h
  cases haction : fk.action with
  | cascade =>
      simp only [haction] at h
      refine hdelete fk.child _ db db' hclosed (fun k hk => ?_) h
      obtain ⟨row, hrow, hrefers⟩ := Table.mem_keysWhere.mp hk
      exact hreferring k row hrow hrefers
  | setNull =>
      simp only [haction] at h
      obtain rfl := Option.some.inj h
      exact updateWhere hreferring fun _ row _ _ => wear.clear fk hfk haction row
  | restrict =>
      simp only [haction] at h
      split_ifs at h
      obtain rfl := Option.some.inj h
      exact refl db

/-- A deletion of rows of a closed owner. -/
theorem deleteRows {depth : Nat} {t : Tab} {ids : List K} (hids : ∀ k ∈ ids, own t k)
    (hclosed : Closed schema own db)
    (h : Foundation.deleteRows schema depth t ids db = some db') : Spares wear own db db' := by
  induction depth generalizing t ids db db' with
  | zero =>
      obtain rfl := Option.some.inj h
      exact deleteWhere fun k _ _ hk => hids k (of_decide_eq_true hk)
  | succ depth ih =>
      have hfirst : Spares wear own db (db.set t ((db t).deleteWhere fun k _ => k ∈ ids)) :=
        deleteWhere fun k _ _ hk => hids k (of_decide_eq_true hk)
      refine holds_of_foldlM (I := fun s => Spares wear own db s) ?_ hfirst h
      intro fk hfk s s' hs hreact
      obtain ⟨hmem, hparent⟩ := List.mem_filter.mp hfk
      obtain rfl := of_decide_eq_true hparent
      exact hs.trans
        (react (fun _ _ _ _ hc hi => ih hi hc) hmem hids (hs.closed hclosed) hreact)

end Spares

/-- The owner of everything is closed. -/
theorem closed_all (db : Store K Row) : Closed schema (fun _ _ => True) db :=
  fun _ _ _ _ _ _ _ _ => trivial

/-- The deleted rows are gone. -/
theorem get?_of_deleteRows (wear : Wear schema) {depth : Nat} {t : Tab} {ids : List K}
    (h : deleteRows schema depth t ids db = some db') {k : K} (hk : k ∈ ids) :
    (db' t).get? k = none := by
  have hfirst : ((db.set t ((db t).deleteWhere fun k _ => k ∈ ids)) t).get? k = none := by
    rw [db.set_self, Option.eq_none_iff_forall_ne_some]
    intro row hrow
    have hnot := (Table.get?_deleteWhere_eq_some_iff.mp hrow).2
    simp [hk] at hnot
  cases depth with
  | zero =>
      obtain rfl := Option.some.inj h
      exact hfirst
  | succ depth =>
      refine holds_of_foldlM (I := fun s => (s t).get? k = none) ?_ hfirst h
      intro fk hfk s s' hs hreact
      have hspares : Spares wear (fun _ _ => True) s s' :=
        Spares.react (fun _ _ _ _ hc hi => Spares.deleteRows hi hc) (List.mem_filter.mp hfk).1
          (fun _ _ => trivial) (closed_all s) hreact
      exact hspares.get?_eq_none hs

end Deletion
end Foundation
end Veilence

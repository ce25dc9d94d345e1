import Mathlib
import Veilence.Foundation.Confinement
import Veilence.Foundation.Transaction

/-!
# Regions of a store

A region names some keys of each table.  It divides a store into the rows inside and the rows
outside.  A statement that selects rows inside only, in a store where no row outside refers to
one inside, does to the rows inside what it does to the store, and leaves the rows outside as
they are; so does a transaction of such statements.

Main results:

- Theorem {lit}`inside_deleteRows`: a deletion of rows inside, with all that the foreign keys do.
- Theorem {lit}`Statement.execute_inside`: the same for every statement.
- Theorem {lit}`transaction_part`: a transaction whose statements keep to a compartment keeps
  to it.
-/

namespace Veilence
namespace Foundation

/-! ## Tables -/

namespace Table

variable {K V : Type*} {t : Table K V} {p : K → V → Bool} {q : K → Bool}

/-- A table is its entries. -/
theorem ext_entries {t t' : Table K V} (h : t.entries = t'.entries) : t = t' := by
  cases t
  cases t'
  congr

/-- The condition selects rows with such keys only. -/
def Selects (t : Table K V) (p : K → V → Bool) (q : K → Bool) : Prop :=
  ∀ e ∈ t.entries, p e.1 e.2 = true → q e.1 = true

theorem filterKeys_deleteWhere (t : Table K V) (p : K → V → Bool) (q : K → Bool) :
    (t.deleteWhere p).filterKeys q = (t.filterKeys q).deleteWhere p := by
  apply ext_entries
  exact List.filter_comm _ _ t.entries

theorem filterKeys_updateWhere (t : Table K V) (p : K → V → Bool) (f : V → V) (q : K → Bool) :
    (t.updateWhere p f).filterKeys q = (t.filterKeys q).updateWhere p f := by
  apply ext_entries
  exact List.filter_map

/-- A deletion of such rows leaves the others. -/
theorem filterKeys_not_deleteWhere (h : t.Selects p q) :
    (t.deleteWhere p).filterKeys (fun k => !q k) = t.filterKeys fun k => !q k := by
  apply ext_entries
  refine (List.filter_filter ..).trans (List.filter_congr fun e he => ?_)
  cases hp : p e.1 e.2 with
  | false => simp
  | true => simp [h e he hp]

/-- An update of such rows leaves the others. -/
theorem filterKeys_not_updateWhere {f : V → V} (h : t.Selects p q) :
    (t.updateWhere p f).filterKeys (fun k => !q k) = t.filterKeys fun k => !q k := by
  rw [filterKeys_updateWhere]
  apply ext_entries
  refine (List.map_congr_left fun e he => ?_).trans (List.map_id _)
  obtain ⟨hmem, hq⟩ := List.mem_filter.mp he
  have hp : ¬p e.1 e.2 = true := by
    intro hp
    have hkey := h e hmem hp
    simp [hkey] at hq
  simp [hp]

/-- Selected rows are the same among the rows with such keys. -/
theorem filter_filterKeys {sel sel' : K × V → Bool}
    (hin : ∀ e ∈ t.entries, sel e = true → q e.1 = true)
    (hsame : ∀ e ∈ t.entries, q e.1 = true → sel' e = sel e) :
    (t.filterKeys q).entries.filter sel' = t.entries.filter sel := by
  refine (List.filter_filter ..).trans (List.filter_congr fun e he => ?_)
  cases hq : q e.1 with
  | true => rw [hsame e he hq, Bool.and_true]
  | false =>
      rw [Bool.and_false]
      cases hsel : sel e with
      | false => rfl
      | true => exact absurd ((hin e he hsel).symm.trans hq) (Ne.symm Bool.false_ne_true)

/-- The same for rows that are selected and changed. -/
theorem filterMap_filterKeys {β : Type*} {f g : K × V → Option β}
    (hin : ∀ e ∈ t.entries, ∀ b, f e = some b → q e.1 = true)
    (hsame : ∀ e ∈ t.entries, q e.1 = true → g e = f e) :
    (t.filterKeys q).entries.filterMap g = t.entries.filterMap f := by
  have hfilter : (t.filterKeys q).entries.filterMap g =
      t.entries.filterMap fun e => if q e.1 then g e else none := by
    unfold filterKeys
    dsimp only
    rw [← List.filterMap_eq_filter, List.filterMap_filterMap]
    refine List.filterMap_congr fun e _ => ?_
    cases hq : q e.1 with
    | true => simp [Option.guard, hq]
    | false => simp [Option.guard, hq]
  rw [hfilter]
  refine List.filterMap_congr fun e he => ?_
  cases hq : q e.1 with
  | true => exact hsame e he hq
  | false =>
      cases hf : f e with
      | none => rfl
      | some b => exact absurd ((hin e he b hf).symm.trans hq) (Ne.symm Bool.false_ne_true)

/-- The rows that a condition selects are among the rows with such keys. -/
theorem filter_entries_filterKeys (h : t.Selects p q) :
    (t.filterKeys q).entries.filter (fun e => p e.1 e.2) =
      t.entries.filter fun e => p e.1 e.2 :=
  filter_filterKeys h fun _ _ _ => rfl

theorem keysWhere_filterKeys (h : t.Selects p q) :
    (t.filterKeys q).keysWhere p = t.keysWhere p :=
  congrArg (List.map Prod.fst) (filter_entries_filterKeys h)

theorem find?_entries_filterKeys (h : t.Selects p q) :
    (t.filterKeys q).entries.find? (fun e => p e.1 e.2) =
      t.entries.find? fun e => p e.1 e.2 := by
  rw [← List.head?_filter, ← List.head?_filter, filter_entries_filterKeys h]

variable [DecidableEq K]

/-- An entry is found by its key. -/
theorem get?_of_mem {e : K × V} (he : e ∈ t.entries) : t.get? e.1 = some e.2 :=
  get?_eq_some_iff.mpr he

theorem get?_filterKeys (t : Table K V) (q : K → Bool) (k : K) :
    (t.filterKeys q).get? k = if q k then t.get? k else none := by
  ext v
  rw [get?_eq_some_iff]
  split_ifs with hq
  · simp [filterKeys, hq, get?_eq_some_iff]
  · simp [filterKeys, hq]

theorem filterKeys_erase (t : Table K V) (k : K) (q : K → Bool) :
    (t.erase k).filterKeys q = (t.filterKeys q).erase k := by
  apply ext_entries
  exact List.filter_comm _ _ t.entries

/-- A new row with such a key. -/
theorem filterKeys_insert {k : K} (v : V) (hk : q k = true) :
    (t.insert k v).filterKeys q = (t.filterKeys q).insert k v := by
  apply ext_entries
  refine (List.filter_cons_of_pos (p := fun e : K × V => q e.1) hk).trans ?_
  exact congrArg ((k, v) :: ·) (congrArg Table.entries (filterKeys_erase t k q))

/-- A new row with such a key leaves the others. -/
theorem filterKeys_not_insert {k : K} (v : V) (hk : q k = true) :
    (t.insert k v).filterKeys (fun k => !q k) = t.filterKeys fun k => !q k := by
  apply ext_entries
  refine (List.filter_cons_of_neg (p := fun e : K × V => !q e.1) (by simp [hk])).trans ?_
  refine (List.filter_filter ..).trans (List.filter_congr fun e _ => ?_)
  by_cases he : e.1 = k
  · simp [he, hk]
  · simp [he]

end Table

/-! ## Stores -/

section Regions

variable {Tab K : Type} {Row : Tab → Type} [DecidableEq Tab] [DecidableEq K]

/-- The rows inside a region. -/
def inside (R : Tab → K → Bool) (db : Store K Row) : Store K Row :=
  fun t => (db t).filterKeys (R t)

/-- The rows outside a region. -/
def outside (R : Tab → K → Bool) (db : Store K Row) : Store K Row :=
  fun t => (db t).filterKeys fun k => !R t k

/-- The keys of a region. -/
def Region (R : Tab → K → Bool) (t : Tab) (k : K) : Prop :=
  R t k = true

variable {R : Tab → K → Bool} {schema : List (ForeignKey Row K)} {db db' : Store K Row}

theorem inside_set (db : Store K Row) (t : Tab) (table : Table K (Row t)) :
    inside R (db.set t table) = (inside R db).set t (table.filterKeys (R t)) := by
  funext t'
  by_cases ht : t' = t
  · subst ht
    simp [inside]
  · rw [Store.set_of_ne _ _ ht, inside, Store.set_of_ne _ _ ht]
    rfl

/-- A change of one table that leaves its rows outside. -/
theorem outside_set {t : Tab} {table : Table K (Row t)}
    (h : table.filterKeys (fun k => !R t k) = (db t).filterKeys fun k => !R t k) :
    outside R (db.set t table) = outside R db := by
  funext t'
  by_cases ht : t' = t
  · subst ht
    simpa [outside] using h
  · rw [outside, Store.set_of_ne _ _ ht]
    rfl

/-! ## Deletions -/

/-- A partial step does to the rows inside what it does to the store and leaves the rows
outside. -/
structure Keeps (R : Tab → K → Bool) (step : Store K Row → Option (Store K Row))
    (db : Store K Row) : Prop where
  inside : step (inside R db) = (step db).map (Foundation.inside R)
  outside : ∀ db', step db = some db' → Foundation.outside R db' = Foundation.outside R db

omit [DecidableEq Tab] [DecidableEq K] in
/-- A fold of such steps. -/
theorem Keeps.foldlM {α : Type} {I : Store K Row → Prop}
    {step : Store K Row → α → Option (Store K Row)} {xs : List α}
    (hstep : ∀ x ∈ xs, ∀ db, I db → Keeps R (step · x) db ∧ ∀ db', step db x = some db' → I db')
    (hdb : I db) : Keeps R (xs.foldlM step ·) db := by
  induction xs generalizing db with
  | nil =>
      refine ⟨rfl, ?_⟩
      intro db' h
      obtain rfl := Option.some.inj h
      rfl
  | cons x xs ih =>
      obtain ⟨hfirst, hnext⟩ := hstep x List.mem_cons_self db hdb
      have hrest : ∀ mid, step db x = some mid → Keeps R (xs.foldlM step ·) mid :=
        fun mid hmid =>
          ih (fun y hy => hstep y (List.mem_cons_of_mem _ hy)) (hnext mid hmid)
      have hinside := hfirst.inside
      cases hmid : step db x with
      | none =>
          rw [hmid] at hinside
          constructor
          · simp [List.foldlM_cons, hinside, hmid]
          · intro db' h
            simp [List.foldlM_cons, hmid] at h
      | some mid =>
          rw [hmid] at hinside
          constructor
          · simp only [List.foldlM_cons, hinside, hmid]
            exact (hrest mid hmid).inside
          · intro db' h
            simp only [List.foldlM_cons, hmid] at h
            exact ((hrest mid hmid).outside db' h).trans (hfirst.outside mid hmid)

omit [DecidableEq Tab] in
/-- A condition that selects rows of the region. -/
theorem selects_of_region {t : Tab} {p : K → Row t → Bool}
    (h : ∀ k row, (db t).get? k = some row → p k row = true → R t k = true) :
    (db t).Selects p (R t) :=
  fun e he hp => h e.1 e.2 (Table.get?_eq_some_iff.mpr he) hp

/-- The reaction of a foreign key to a deletion of rows inside. -/
theorem keeps_react {delete : (t : Tab) → List K → Store K Row → Option (Store K Row)}
    (hdelete : ∀ t ids db, Closed schema (Region R) db → (∀ k ∈ ids, R t k = true) →
      Keeps R (delete t ids) db)
    {fk : ForeignKey Row K} (hfk : fk ∈ schema) {ids : List K}
    (hids : ∀ k ∈ ids, R fk.parent k = true) (hclosed : Closed schema (Region R) db) :
    Keeps R (fk.react delete ids) db := by
  have hselects : (db fk.child).Selects (fk.refersTo ids) (R fk.child) := by
    apply selects_of_region
    intro k row hrow hrefers
    obtain ⟨q, hq, hcolumn⟩ := ForeignKey.refersTo_iff.mp hrefers
    exact hclosed fk hfk k row q hrow hcolumn (hids q hq)
  have hkeys : (inside R db fk.child).keysWhere (fk.refersTo ids) =
      (db fk.child).keysWhere (fk.refersTo ids) :=
    Table.keysWhere_filterKeys hselects
  unfold ForeignKey.react
  cases haction : fk.action with
  | cascade =>
      have hkeep := hdelete fk.child ((db fk.child).keysWhere (fk.refersTo ids)) db hclosed
        (fun k hk => by
          obtain ⟨row, hrow, hsel⟩ := Table.mem_keysWhere.mp hk
          exact hselects (k, row) (Table.get?_eq_some_iff.mp hrow) hsel)
      constructor
      · simp only [hkeys]
        exact hkeep.inside
      · exact hkeep.outside
  | setNull =>
      constructor
      · simp only [Option.map_some, inside_set, Table.filterKeys_updateWhere]
        rfl
      · intro db' h
        obtain rfl := Option.some.inj h
        exact outside_set (Table.filterKeys_not_updateWhere hselects)
  | restrict =>
      constructor
      · simp only [hkeys]
        split_ifs
        · rfl
        · rfl
      · intro db' h
        simp only at h
        split_ifs at h
        obtain rfl := Option.some.inj h
        rfl

/-- A deletion of rows inside, in a store where no row outside refers to one inside. -/
theorem inside_deleteRows (wear : Wear schema) {depth : Nat} {t : Tab} {ids : List K}
    (hids : ∀ k ∈ ids, R t k = true) (hclosed : Closed schema (Region R) db) :
    Keeps R (deleteRows schema depth t ids) db := by
  induction depth generalizing t ids db with
  | zero =>
      constructor
      · simp only [deleteRows, Option.map_some, inside_set, Table.filterKeys_deleteWhere]
        rfl
      · intro db' h
        obtain rfl := Option.some.inj h
        exact outside_set (Table.filterKeys_not_deleteWhere fun e _ he =>
          hids e.1 (of_decide_eq_true he))
  | succ depth ih =>
      have hspares : Spares wear (Region R) db
          (db.set t ((db t).deleteWhere fun k _ => k ∈ ids)) :=
        Spares.deleteWhere fun k _ _ hk => hids k (of_decide_eq_true hk)
      have hinside : inside R (db.set t ((db t).deleteWhere fun k _ => k ∈ ids)) =
          (inside R db).set t ((inside R db t).deleteWhere fun k _ => k ∈ ids) := by
        rw [inside_set, Table.filterKeys_deleteWhere]
        rfl
      have houtside : outside R (db.set t ((db t).deleteWhere fun k _ => k ∈ ids)) =
          outside R db :=
        outside_set (Table.filterKeys_not_deleteWhere fun e _ he =>
          hids e.1 (of_decide_eq_true he))
      have hfold : Keeps R
          (fun db => (schema.filter fun fk => fk.parent = t).foldlM
            (fun db fk => fk.react (deleteRows schema depth) ids db) db)
          (db.set t ((db t).deleteWhere fun k _ => k ∈ ids)) := by
        refine Keeps.foldlM (I := Closed schema (Region R)) ?_ (hspares.closed hclosed)
        intro fk hfk s hs
        obtain ⟨hmem, hparent⟩ := List.mem_filter.mp hfk
        obtain rfl := of_decide_eq_true hparent
        refine ⟨keeps_react (fun _ _ _ hc hi => ih hi hc) hmem hids hs, ?_⟩
        intro s' hreact
        have hs' : Spares wear (Region R) s s' :=
          Spares.react (fun _ _ _ _ hc hi => Spares.deleteRows hi hc) hmem hids hs hreact
        exact hs'.closed hs
      constructor
      · rw [deleteRows, ← hinside]
        exact hfold.inside
      · intro db' h
        exact (hfold.outside db' h).trans houtside

/-! ## Statements -/

/-- The statement selects rows inside only. -/
def Statement.Within (R : Tab → K → Bool) (db : Store K Row) : Statement K Row → Prop
  | .first t p | .pluck t p | .delete t p | .update t p _ => (db t).Selects p (R t)

/-- A statement that selects rows inside only does to them what it does to the store. -/
theorem Statement.execute_inside (wear : Wear schema) {depth : Nat} {c : Statement K Row}
    (hclosed : Closed schema (Region R) db) (hwithin : c.Within R db) :
    c.execute schema depth (inside R db) =
        (c.execute schema depth db).map (Prod.map (inside R) id) ∧
      ∀ r, c.execute schema depth db = some r → outside R r.1 = outside R db := by
  cases c with
  | first t p =>
      constructor
      · have hfind : (inside R db t).entries.find? (fun e => p e.1 e.2) =
            (db t).entries.find? fun e => p e.1 e.2 :=
          Table.find?_entries_filterKeys hwithin
        simp only [Statement.execute, hfind]
        rfl
      · intro r h
        rw [← Option.some.inj h]
  | pluck t p =>
      constructor
      · have hkeys : (inside R db t).keysWhere p = (db t).keysWhere p :=
          Table.keysWhere_filterKeys hwithin
        simp only [Statement.execute, hkeys]
        rfl
      · intro r h
        rw [← Option.some.inj h]
  | delete t p =>
      have hkeys : (inside R db t).keysWhere p = (db t).keysWhere p :=
        Table.keysWhere_filterKeys hwithin
      have hids : ∀ k ∈ (db t).keysWhere p, R t k = true := by
        intro k hk
        obtain ⟨row, hrow, hsel⟩ := Table.mem_keysWhere.mp hk
        exact hwithin (k, row) (Table.get?_eq_some_iff.mp hrow) hsel
      have hkeep : Keeps R (deleteRows schema depth t ((db t).keysWhere p)) db :=
        inside_deleteRows wear hids hclosed
      constructor
      · simp only [Statement.execute, hkeys, hkeep.inside, Option.map_map]
        rfl
      · intro r h
        obtain ⟨db', hdelete, rfl⟩ := Option.map_eq_some_iff.mp h
        exact hkeep.outside db' hdelete
  | update t p f =>
      constructor
      · have hkeys : (inside R db t).keysWhere p = (db t).keysWhere p :=
          Table.keysWhere_filterKeys hwithin
        simp only [Statement.execute, hkeys, Option.map_some, Prod.map, inside_set,
          Table.filterKeys_updateWhere]
        rfl
      · intro r h
        rw [← Option.some.inj h]
        exact outside_set (Table.filterKeys_not_updateWhere hwithin)

/-- An update changes rows only as they wear. -/
def Statement.Wears (wear : Wear schema) : Statement K Row → Prop
  | .update t _ f => ∀ row, wear.rel t row (f row)
  | _ => True

/-- A statement that selects rows inside only spares the others. -/
theorem Statement.spares_of_execute {wear : Wear schema} {depth : Nat} {c : Statement K Row}
    {r : c.Reply} (hclosed : Closed schema (Region R) db) (hwithin : c.Within R db)
    (hwears : c.Wears wear) (h : c.execute schema depth db = some (db', r)) :
    Spares wear (Region R) db db' := by
  cases c with
  | first t p =>
      obtain ⟨rfl, -⟩ := Prod.mk.inj (Option.some.inj h)
      exact .refl db
  | pluck t p =>
      obtain ⟨rfl, -⟩ := Prod.mk.inj (Option.some.inj h)
      exact .refl db
  | delete t p =>
      obtain ⟨db₁, hdelete, heq⟩ := Option.map_eq_some_iff.mp h
      obtain ⟨rfl, -⟩ := Prod.mk.inj heq
      refine .deleteRows (fun k hk => ?_) hclosed hdelete
      obtain ⟨row, hrow, hsel⟩ := Table.mem_keysWhere.mp hk
      exact hwithin (k, row) (Table.get?_eq_some_iff.mp hrow) hsel
  | update t p f =>
      obtain ⟨rfl, -⟩ := Prod.mk.inj (Option.some.inj h)
      exact .updateWhere (fun k row hrow => hwithin (k, row) (Table.get?_eq_some_iff.mp hrow))
        fun _ row _ _ => hwears row

end Regions

/-! ## Transactions -/

section Transactions

variable {σ τ C E α β : Type} {Rep : C → Type}

/-- A command keeps to the compartment, and its reply is as stated. -/
def KeepsTo (A : Compartment σ τ) (execute : σ → (c : C) → Option (σ × Rep c)) (c : C)
    (fact : Rep c → Prop) : Prop :=
  ∀ s, A.Valid s → execute (A.part s) c = (execute s c).map (Prod.map A.part id) ∧
    ∀ s' r, execute s c = some (s', r) → A.Valid s' ∧ A.rest s' = A.rest s ∧ fact r

/-- All commands of a program keep to the compartment, and its result is as stated. -/
def Tamed (A : Compartment σ τ) (execute : σ → (c : C) → Option (σ × Rep c)) (fact : α → Prop) :
    Prog C Rep α → Prop
  | .ret a => fact a
  | .cmd c k => ∃ reply : Rep c → Prop, KeepsTo A execute c reply ∧
      (∀ r, reply r → Tamed A execute fact (k (some r))) ∧ Tamed A execute fact (k none)

variable {A : Compartment σ τ} {execute : σ → (c : C) → Option (σ × Rep c)} {fact : α → Prop}

/-- A command that preserves an invariant keeps to the whole state. -/
theorem keepsTo_whole {I : σ → Prop} {c : C}
    (h : ∀ s s' r, I s → execute s c = some (s', r) → I s') :
    KeepsTo (Compartment.whole I) execute c fun _ => True := by
  intro s hs
  refine ⟨?_, fun s' r hexec => ⟨h s s' r hs hexec, rfl, trivial⟩⟩
  change execute s c = (execute s c).map (Prod.map id id)
  rw [Prod.map_id, Option.map_id]
  rfl

/-- A result behind what is known of it. -/
def OnOk (fact : α → Prop) (r : Except E α) : Prop :=
  ∀ a, r = .ok a → fact a

namespace Tamed

/-- One program after another. -/
theorem prog_bind {p : Prog C Rep α} {f : α → Prog C Rep β} {final : β → Prop}
    (hp : Tamed A execute fact p) (hf : ∀ a, fact a → Tamed A execute final (f a)) :
    Tamed A execute final (p.bind f) := by
  induction p with
  | ret a => exact hf a hp
  | cmd c k ih =>
      obtain ⟨reply, hc, hsome, hnone⟩ := hp
      exact ⟨reply, hc, fun r hr => ih (some r) (hsome r hr), ih none hnone⟩

/-- One body after another. -/
theorem bind {p : Tx C Rep E α} {f : α → Tx C Rep E β} {final : β → Prop}
    (hp : Tamed A execute (OnOk fact) p)
    (hf : ∀ a, fact a → Tamed A execute (OnOk final) (f a)) :
    Tamed A execute (OnOk final) (p >>= f : Tx C Rep E β) := by
  refine prog_bind hp ?_
  intro r hr
  cases r with
  | error e =>
      intro b hb
      injection hb
  | ok a => exact hf a (hr a rfl)

/-- A result. -/
theorem pure {a : α} (h : fact a) :
    Tamed A execute (OnOk fact) (Pure.pure a : Tx C Rep E α) := by
  intro b hb
  rw [← Except.ok.inj hb]
  exact h

/-- An error. -/
theorem fail (e : E) : Tamed A execute (OnOk fact) (Tx.fail e : Tx C Rep E α) := by
  intro b hb
  injection hb

/-- A statement whose failure is an error. -/
theorem exec {c : C} {reply : Rep c → Prop} {e : E} (h : KeepsTo A execute c reply) :
    Tamed A execute (OnOk reply) (Tx.exec c e) := by
  refine ⟨reply, h, ?_, ?_⟩
  · intro r hr a ha
    rw [← Except.ok.inj ha]
    exact hr
  · intro a ha
    injection ha

/-- A statement whose failure is not looked at. -/
theorem read {c : C} {reply : Rep c → Prop} {default : Rep c} (h : KeepsTo A execute c reply)
    (hdefault : reply default) :
    Tamed A execute (OnOk reply) (Tx.read c default : Tx C Rep E (Rep c)) := by
  refine ⟨reply, h, ?_, ?_⟩
  · intro r hr a ha
    rw [← Except.ok.inj ha]
    exact hr
  · intro a ha
    rw [← Except.ok.inj ha]
    exact hdefault

/-- A part that is executed under a condition only. -/
theorem onlyIf {cond : Bool} {p : Tx C Rep E Unit}
    (hp : Tamed A execute (OnOk fun _ => True) p) :
    Tamed A execute (OnOk fun _ => True) (Tx.onlyIf cond p) := by
  cases cond with
  | true => exact hp
  | false => exact pure trivial

/-- An error under a condition: behind it, what the condition excludes. -/
theorem require {cond : Bool} {e : E} :
    Tamed A execute (OnOk fun _ => cond = false)
      (Tx.onlyIf cond (Tx.fail e : Tx C Rep E Unit)) := by
  cases cond with
  | true => exact fail e
  | false => exact pure rfl

end Tamed

/-- A run of statements that keep to the compartment. -/
theorem runTx_part {p : Prog C Rep α} (hp : Tamed A execute fact p) (budget : Option Nat) {s : σ}
    (hs : A.Valid s) :
    runTx execute budget (some (A.part s)) p =
        ((runTx execute budget (some s) p).1, (runTx execute budget (some s) p).2.map A.part) ∧
      ∀ s', (runTx execute budget (some s) p).2 = some s' →
        A.Valid s' ∧ A.rest s' = A.rest s := by
  induction p generalizing budget s with
  | ret a =>
      refine ⟨rfl, ?_⟩
      intro s' h
      obtain rfl := Option.some.inj h
      exact ⟨hs, rfl⟩
  | cmd c k ih =>
      obtain ⟨reply, hc, hsome, hnone⟩ := hp
      obtain ⟨hmirror, hkeeps⟩ := hc s hs
      have hanswer : answer execute budget (A.part s) c =
          (answer execute budget s c).map (Prod.map A.part id) := by
        unfold answer
        split_ifs
        · rfl
        · exact hmirror
      cases hrun : answer execute budget s c with
      | none =>
          have haborted := runTx_aborted execute budget (k none)
          rw [hrun] at hanswer
          simp only [runTx, hrun, hanswer, Option.map_none, haborted]
          refine ⟨Prod.ext rfl haborted, ?_⟩
          intro s' h
          exact absurd h.symm (Option.some_ne_none s')
      | some r =>
          obtain ⟨s₁, r⟩ := r
          rw [hrun] at hanswer
          have hexec : execute s c = some (s₁, r) := by
            unfold answer at hrun
            split_ifs at hrun
            exact hrun
          obtain ⟨hvalid, hrest, hreply⟩ := hkeeps s₁ r hexec
          obtain ⟨hlater, hend⟩ := ih (some r) (hsome r hreply) (budget.map (· - 1)) hvalid
          simp only [runTx, hrun, hanswer, Option.map_some, Prod.map, id]
          refine ⟨hlater, ?_⟩
          intro s' h
          exact ⟨(hend s' h).1, (hend s' h).2.trans hrest⟩

/-- A transaction whose statements keep to the compartment. -/
theorem transaction_part {p : Tx C Rep E α} {fact : Except E α → Prop}
    (hp : Tamed A execute fact p) (budget : Option Nat) (commits : Bool) (commitError : E) {s : σ}
    (hs : A.Valid s) :
    transaction execute budget commits commitError (A.part s) p =
        ((transaction execute budget commits commitError s p).1,
          A.part (transaction execute budget commits commitError s p).2) ∧
      A.Valid (transaction execute budget commits commitError s p).2 ∧
      A.rest (transaction execute budget commits commitError s p).2 = A.rest s := by
  obtain ⟨hmirror, hend⟩ := runTx_part hp budget hs
  unfold transaction
  rw [hmirror]
  cases hrun : runTx execute budget (some s) p with
  | mk result store =>
      rw [hrun] at hend
      cases result with
      | error e => exact ⟨rfl, hs, rfl⟩
      | ok a =>
          cases store with
          | none => exact ⟨rfl, hs, rfl⟩
          | some s' =>
              obtain ⟨hvalid, hrest⟩ := hend s' rfl
              cases commits with
              | true => exact ⟨rfl, hvalid, hrest⟩
              | false => exact ⟨rfl, hs, rfl⟩

end Transactions

end Foundation
end Veilence

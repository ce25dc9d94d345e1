import Mathlib
import Veilence.Foundation.Program
import Veilence.Foundation.References

/-!
# Transactions

The body of a transaction is a program of statements that ends with a result or an error.  A
statement that fails aborts the transaction: every later statement fails as well, and nothing
can be committed.  A transaction is committed when its body has a result, no statement has
failed and the commit itself succeeds; otherwise the store is restored.

Main results:

- Theorem {lit}`transaction_error`: a transaction that returns an error leaves the store as it
  was.
- Theorem {lit}`evaluate_of_transaction`: a transaction that returns a result has executed all
  of its statements.
- Theorem {lit}`Swept.delete`: a deletion of the rows of a closed owner in one table.
-/

namespace Veilence
namespace Foundation

/-! ## Bodies -/

/-- The body of a transaction: statements, and then a result or an error. -/
def Tx (C : Type) (R : C → Type) (E α : Type) : Type :=
  Prog C R (Except E α)

section Bodies

variable {Store C E α β : Type} {R : C → Type}

namespace Tx

/-- The rest of a body, after a result. -/
def next (f : α → Tx C R E β) : Except E α → Tx C R E β
  | .ok a => f a
  | .error e => Prog.ret (.error e)

instance : Monad (Tx C R E) where
  pure a := Prog.ret (.ok a)
  bind p f := Prog.bind p (next f)

/-- End with an error. -/
def fail (e : E) : Tx C R E α :=
  Prog.ret (.error e)

/-- What follows a statement whose failure is an error. -/
def checked {c : C} (e : E) : Option (R c) → Tx C R E (R c)
  | some r => Prog.ret (.ok r)
  | none => Prog.ret (.error e)

/-- A statement whose failure is an error. -/
def exec (c : C) (e : E) : Tx C R E (R c) :=
  Prog.cmd c (checked e)

/-- A statement whose failure is not looked at: the result is then the given one. -/
def read (c : C) (default : R c) : Tx C R E (R c) :=
  Prog.cmd c fun r => Prog.ret (.ok (r.getD default))

/-- A part of the body that is executed under a condition only. -/
def onlyIf (cond : Bool) (p : Tx C R E Unit) : Tx C R E Unit :=
  if cond then p else pure ()

end Tx

variable (execute : Store → (c : C) → Option (Store × R c))

/-- Execute a statement, unless the database has stopped answering. -/
def answer (budget : Option Nat) (s : Store) (c : C) : Option (Store × R c) :=
  if budget = some 0 then none else execute s c

/-- Run a body in a transaction whose store is {lit}`none` once a statement has failed.  The
budget is the number of statements after which the database stops answering. -/
def runTx : Option Nat → Option Store → Prog C R α → α × Option Store
  | _, s, .ret a => (a, s)
  | budget, none, .cmd _ k => runTx budget none (k none)
  | budget, some s, .cmd c k =>
      match answer execute budget s c with
      | some (s', r) => runTx (budget.map (· - 1)) (some s') (k (some r))
      | none => runTx budget none (k none)

/-- Run a body, commit or restore the store. -/
def transaction (budget : Option Nat) (commits : Bool) (commitError : E) (s : Store)
    (p : Tx C R E α) : Except E α × Store :=
  match runTx execute budget (some s) p with
  | (.ok a, some s') => if commits then (.ok a, s') else (.error commitError, s)
  | (.ok _, none) => (.error commitError, s)
  | (.error e, _) => (.error e, s)

/-- The result of a body all of whose statements succeed, and the store after it. -/
def evaluate : Store → Tx C R E α → Option (α × Store)
  | s, Prog.ret (.ok a) => some (a, s)
  | _, Prog.ret (.error _) => none
  | s, Prog.cmd c k => (execute s c).bind fun r => evaluate r.1 (k (some r.2))

variable {execute}

variable (execute) in
/-- Nothing is left of an aborted transaction. -/
theorem runTx_aborted (budget : Option Nat) (p : Prog C R α) :
    (runTx execute budget none p).2 = none := by
  induction p generalizing budget with
  | ret a => rfl
  | cmd c k ih =>
      unfold runTx
      exact ih none budget

/-- A body that ends with a result and a store has executed its statements. -/
theorem evaluate_of_runTx {budget : Option Nat} {s s' : Store} {p : Tx C R E α} {a : α}
    (h : runTx execute budget (some s) p = (.ok a, some s')) :
    evaluate execute s p = some (a, s') := by
  induction p generalizing budget s with
  | ret result =>
      unfold runTx at h
      obtain ⟨rfl, hs⟩ := Prod.mk.inj h
      obtain rfl := Option.some.inj hs
      rfl
  | cmd c k ih =>
      rw [runTx] at h
      split at h
      · rename_i s₁ r hanswer
        unfold answer at hanswer
        split_ifs at hanswer
        rw [evaluate, hanswer]
        exact ih (some r) h
      · have hnone := runTx_aborted execute budget (k none)
        rw [h] at hnone
        exact nomatch hnone

/-- A transaction that returns a result has executed all of its statements. -/
theorem evaluate_of_transaction {budget : Option Nat} {commits : Bool} {commitError : E}
    {s s' : Store} {p : Tx C R E α} {a : α}
    (h : transaction execute budget commits commitError s p = (.ok a, s')) :
    evaluate execute s p = some (a, s') := by
  unfold transaction at h
  split at h
  · rename_i hrun
    split_ifs at h
    · obtain ⟨hresult, rfl⟩ := Prod.mk.inj h
      rw [← Except.ok.inj hresult]
      exact evaluate_of_runTx hrun
    · exact nomatch (Prod.mk.inj h).1
  · exact nomatch (Prod.mk.inj h).1
  · exact nomatch (Prod.mk.inj h).1

/-- A transaction that returns an error leaves the store as it was. -/
theorem transaction_error {budget : Option Nat} {commits : Bool} {commitError e : E}
    {s s' : Store} {p : Tx C R E α}
    (h : transaction execute budget commits commitError s p = (.error e, s')) : s' = s := by
  unfold transaction at h
  split at h
  · split_ifs at h
    · exact nomatch (Prod.mk.inj h).1
    · exact (Prod.mk.inj h).2.symm
  · exact (Prod.mk.inj h).2.symm
  · exact (Prod.mk.inj h).2.symm

/-! ## Rules -/

/-- One body after another. -/
theorem evaluate_bind (s : Store) (p : Tx C R E α) (f : α → Tx C R E β) :
    evaluate execute s (p >>= f) =
      (evaluate execute s p).bind fun r => evaluate execute r.2 (f r.1) := by
  change evaluate execute s (Prog.bind p (Tx.next f)) = _
  induction p generalizing s with
  | ret result =>
      cases result with
      | ok a => rfl
      | error e => rfl
  | cmd c k ih =>
      simp only [Prog.bind, evaluate, Option.bind_assoc]
      congr 1
      funext r
      exact ih (some r.2) r.1

variable (execute) in
/-- What holds after a body that ends with a result. -/
def Spec (pre : Store → Prop) (p : Tx C R E α) (post : α → Store → Prop) : Prop :=
  ∀ s, pre s → ∀ a s', evaluate execute s p = some (a, s') → post a s'

namespace Spec

variable {pre : Store → Prop} {post : α → Store → Prop}

/-- One body after another. -/
theorem bind {p : Tx C R E α} {f : α → Tx C R E β} {final : β → Store → Prop}
    (hp : Spec execute pre p post) (hf : ∀ a, Spec execute (post a) (f a) final) :
    Spec execute pre (p >>= f) final := by
  intro s hs b s' h
  rw [evaluate_bind] at h
  obtain ⟨⟨a, mid⟩, hmid, hrest⟩ := Option.bind_eq_some_iff.mp h
  exact hf a mid (hp s hs a mid hmid) b s' hrest

/-- The condition before may be stronger. -/
theorem of_imp {p : Tx C R E α} {pre' : Store → Prop} (hpre : ∀ s, pre' s → pre s)
    (hp : Spec execute pre p post) : Spec execute pre' p post :=
  fun s hs => hp s (hpre s hs)

/-- A fact that does not depend on the store. -/
theorem of_fact {p : Tx C R E α} {fact : Prop} (hp : fact → Spec execute pre p post) :
    Spec execute (fun s => pre s ∧ fact) p post :=
  fun s hs => hp hs.2 s hs.1

/-- A result without statements. -/
theorem pure {a : α} (h : ∀ s, pre s → post a s) :
    Spec execute pre (Pure.pure a : Tx C R E α) post := by
  intro s hs a' s' heq
  obtain ⟨rfl, rfl⟩ := Prod.mk.inj (Option.some.inj heq)
  exact h s hs

/-- An error is no result. -/
theorem fail (e : E) : Spec execute pre (Tx.fail e : Tx C R E α) post :=
  fun _ _ _ _ heq => nomatch heq

/-- A statement whose failure is an error. -/
theorem exec {c : C} {e : E} {post : R c → Store → Prop}
    (h : ∀ s s' r, pre s → execute s c = some (s', r) → post r s') :
    Spec execute pre (Tx.exec c e) post := by
  intro s hs r s' heq
  obtain ⟨⟨s₁, r₁⟩, hexec, hrest⟩ := Option.bind_eq_some_iff.mp heq
  obtain ⟨rfl, rfl⟩ := Prod.mk.inj (Option.some.inj hrest)
  exact h s s₁ r₁ hs hexec

/-- A statement whose failure is not looked at. -/
theorem read {c : C} {default : R c} {post : R c → Store → Prop}
    (h : ∀ s s' r, pre s → execute s c = some (s', r) → post r s') :
    Spec execute pre (Tx.read c default : Tx C R E (R c)) post := by
  intro s hs r s' heq
  obtain ⟨⟨s₁, r₁⟩, hexec, hrest⟩ := Option.bind_eq_some_iff.mp heq
  obtain ⟨rfl, rfl⟩ := Prod.mk.inj (Option.some.inj hrest)
  exact h s s₁ r₁ hs hexec

/-- A part that is executed under a condition only. -/
theorem onlyIf {cond : Bool} {p : Tx C R E Unit} {final : Unit → Store → Prop}
    (hp : cond = true → Spec execute pre p final)
    (hskip : cond = false → ∀ s, pre s → final () s) :
    Spec execute pre (Tx.onlyIf cond p) final := by
  cases hcond : cond with
  | true => exact hp hcond
  | false => exact pure (hskip hcond)

/-- An error under a condition: behind it, what the condition excludes. -/
theorem require {cond : Bool} {e : E} {fact : Prop} (h : cond = false → fact) :
    Spec execute pre (Tx.onlyIf cond (Tx.fail e : Tx C R E Unit)) fun _ s => pre s ∧ fact :=
  onlyIf (fun _ => fail e) fun hcond _ hs => ⟨hs, h hcond⟩

end Spec

end Bodies

/-! ## Statements -/

variable {Tab K : Type} {Row : Tab → Type}

/-- The statements on a store of tables.  A condition sees the key and the row. -/
inductive Statement (K : Type) (Row : Tab → Type) where
  | first (t : Tab) (p : K → Row t → Bool)
  | pluck (t : Tab) (p : K → Row t → Bool)
  | delete (t : Tab) (p : K → Row t → Bool)
  | update (t : Tab) (p : K → Row t → Bool) (f : Row t → Row t)

/-- What a statement answers: a row, keys, nothing, or the number of rows affected. -/
def Statement.Reply : Statement K Row → Type
  | .first t _ => Option (Row t)
  | .pluck _ _ => List K
  | .delete _ _ => Unit
  | .update _ _ _ => Nat

section Execution

variable [DecidableEq Tab] [DecidableEq K]

/-- Execute a statement.  It fails where a foreign key forbids the deletion. -/
def Statement.execute (schema : List (ForeignKey Row K)) (depth : Nat) (db : Store K Row) :
    (c : Statement K Row) → Option (Store K Row × c.Reply)
  | .first t p => some (db, ((db t).entries.find? fun e => p e.1 e.2).map Prod.snd)
  | .pluck t p => some (db, (db t).keysWhere p)
  | .delete t p => (deleteRows schema depth t ((db t).keysWhere p) db).map fun db' => (db', ())
  | .update t p f =>
      some (db.set t ((db t).updateWhere p f), ((db t).keysWhere p).length)

variable {schema : List (ForeignKey Row K)} {depth : Nat}

/-- A first row that meets a condition. -/
theorem Statement.first_eq_some {db db' : Store K Row} {t : Tab} {p : K → Row t → Bool}
    {row : Row t} (h : (Statement.first t p).execute schema depth db = some (db', some row)) :
    db' = db ∧ ∃ k, (db t).get? k = some row ∧ p k row = true := by
  obtain ⟨rfl, hfind⟩ := Prod.mk.inj (Option.some.inj h)
  obtain ⟨⟨k, _⟩, hentry, rfl⟩ := Option.map_eq_some_iff.mp hfind
  have hsel := List.find?_some hentry
  exact ⟨rfl, k, Table.get?_eq_some_iff.mpr (List.mem_of_find?_eq_some hentry), hsel⟩

/-- The rows of a table after an update. -/
theorem Statement.get?_of_update {db db' : Store K Row} {t : Tab} {p : K → Row t → Bool}
    {f : Row t → Row t} {n : Nat}
    (h : (Statement.update t p f).execute schema depth db = some (db', n)) (k : K) :
    (db' t).get? k = ((db t).get? k).map fun row => if p k row then f row else row := by
  obtain ⟨rfl, -⟩ := Prod.mk.inj (Option.some.inj h)
  rw [Store.set_self, Table.get?_updateWhere]

/-- A row that meets the condition is changed. -/
theorem Statement.get?_of_update_of_sel {db db' : Store K Row} {t : Tab} {p : K → Row t → Bool}
    {f : Row t → Row t} {n : Nat} {k : K} {row : Row t}
    (h : (Statement.update t p f).execute schema depth db = some (db', n))
    (hrow : (db t).get? k = some row) (hp : p k row = true) : (db' t).get? k = some (f row) := by
  rw [get?_of_update h, hrow, Option.map_some, if_pos hp]

/-- A row that does not meet the condition stays, and so does an absent one. -/
theorem Statement.get?_of_update_of_not {db db' : Store K Row} {t : Tab} {p : K → Row t → Bool}
    {f : Row t → Row t} {n : Nat} {k : K}
    (h : (Statement.update t p f).execute schema depth db = some (db', n))
    (hp : ∀ row, ¬p k row = true) : (db' t).get? k = (db t).get? k := by
  rw [get?_of_update h]
  cases (db t).get? k with
  | none => rfl
  | some row => rw [Option.map_some, if_neg (hp row)]

/-- A row after an update has been changed or does not meet the condition. -/
theorem Statement.of_update {db db' : Store K Row} {t : Tab} {p : K → Row t → Bool}
    {f : Row t → Row t} {n : Nat} {k : K} {new : Row t}
    (h : (Statement.update t p f).execute schema depth db = some (db', n))
    (hnew : (db' t).get? k = some new) :
    ∃ old, (db t).get? k = some old ∧ (new = f old ∨ new = old ∧ ¬p k old = true) := by
  rw [get?_of_update h] at hnew
  obtain ⟨old, hold, rfl⟩ := Option.map_eq_some_iff.mp hnew
  refine ⟨old, hold, ?_⟩
  split_ifs with hp
  · exact Or.inl rfl
  · exact Or.inr ⟨rfl, hp⟩

/-- The other tables after an update. -/
theorem Statement.eq_of_update {db db' : Store K Row} {t t' : Tab} {p : K → Row t → Bool}
    {f : Row t → Row t} {n : Nat}
    (h : (Statement.update t p f).execute schema depth db = some (db', n)) (ht : t' ≠ t) :
    db' t' = db t' := by
  obtain ⟨rfl, -⟩ := Prod.mk.inj (Option.some.inj h)
  exact db.set_of_ne _ ht

/-! ## Sweeping the rows of an owner -/

/-- Only rows of the owner have been touched since the first store, and none of them is left in
the listed tables. -/
structure Swept (wear : Wear schema) (own : Tab → K → Prop) (before : Store K Row)
    (done : List Tab) (db : Store K Row) : Prop where
  spares : Spares wear own before db
  gone : ∀ t ∈ done, ∀ k, own t k → (db t).get? k = none

namespace Swept

variable {wear : Wear schema} {own : Tab → K → Prop} {before db db' : Store K Row}
  {done : List Tab}

/-- Nothing has happened. -/
theorem refl (db : Store K Row) : Swept wear own db [] db :=
  ⟨.refl db, fun _ ht => nomatch ht⟩

/-- What was gone stays gone. -/
theorem step (h : Swept wear own before done db) (hspares : Spares wear own db db') :
    Swept wear own before done db' :=
  ⟨h.spares.trans hspares, fun t ht k hk => hspares.get?_eq_none (h.gone t ht k hk)⟩

/-- A table in which the owner has no row. -/
theorem skip {t : Tab} (hnone : ∀ k, ¬own t k) (h : Swept wear own before done db) :
    Swept wear own before (t :: done) db where
  spares := h.spares
  gone t' ht' k hk := by
    cases ht' with
    | head => exact absurd hk (hnone k)
    | tail _ ht' => exact h.gone t' ht' k hk

/-- The rows of the owner in one table are deleted. -/
theorem delete {t : Tab} {p : K → Row t → Bool} (hclosed : Closed schema own before)
    (hp : ∀ k old new, (before t).get? k = some old → wear.rel t old new →
      (p k new = true ↔ own t k))
    (h : Swept wear own before done db)
    (hexec : (Statement.delete t p).execute schema depth db = some (db', ())) :
    Swept wear own before (t :: done) db' := by
  obtain ⟨db₁, hdelete, heq⟩ := Option.map_eq_some_iff.mp hexec
  obtain ⟨rfl, -⟩ := Prod.mk.inj heq
  have hselected : ∀ k row, (db t).get? k = some row → (p k row = true ↔ own t k) := by
    intro k row hrow
    obtain ⟨old, hold, hrel⟩ := h.spares.source t k row hrow
    exact hp k old row hold hrel
  have hids : ∀ k ∈ (db t).keysWhere p, own t k := by
    intro k hk
    obtain ⟨row, hrow, hsel⟩ := Table.mem_keysWhere.mp hk
    exact (hselected k row hrow).mp hsel
  have hspares : Spares wear own db db₁ :=
    Spares.deleteRows hids (h.spares.closed hclosed) hdelete
  refine ⟨h.spares.trans hspares, fun t' ht' k hk => ?_⟩
  cases ht' with
  | head =>
      cases hrow : (db t).get? k with
      | none => exact hspares.get?_eq_none hrow
      | some row =>
          exact get?_of_deleteRows wear hdelete
            (Table.mem_keysWhere.mpr ⟨row, hrow, (hselected k row hrow).mpr hk⟩)
  | tail _ ht' => exact hspares.get?_eq_none (h.gone t' ht' k hk)

/-- Rows of the owner are updated. -/
theorem update {t : Tab} {p : K → Row t → Bool} {f : Row t → Row t} {n : Nat}
    (hp : ∀ k old new, (before t).get? k = some old → wear.rel t old new →
      p k new = true → own t k ∧ wear.rel t new (f new))
    (h : Swept wear own before done db)
    (hexec : (Statement.update t p f).execute schema depth db = some (db', n)) :
    Swept wear own before done db' := by
  obtain ⟨rfl, -⟩ := Prod.mk.inj (Option.some.inj hexec)
  have hrows : ∀ k row, (db t).get? k = some row → p k row = true →
      own t k ∧ wear.rel t row (f row) := by
    intro k row hrow hsel
    obtain ⟨old, hold, hrel⟩ := h.spares.source t k row hrow
    exact hp k old row hold hrel hsel
  exact h.step (.updateWhere (fun k row hrow hsel => (hrows k row hrow hsel).1)
    fun k row hrow hsel => (hrows k row hrow hsel).2)

end Swept

end Execution
end Foundation
end Veilence

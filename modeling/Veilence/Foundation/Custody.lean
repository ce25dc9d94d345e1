import Veilence.Foundation.Program

/-!
# Items in the custody of concurrent calls

Calls move items out of a store and back.  A call owes an item when the commands that
are left of it put the item back into the store as long as none of them fails.  An item
is covered when the store holds it or some call owes it.  Once no call is in progress
a covered item is in the store.

Main results:

- Theorem {lit}`Custody.covered_exec_guarded`: a command of a guarded body keeps an item
  covered unless it is an excused command that takes the item.
- Theorems {lit}`Custody.covered_fail` and {lit}`Custody.covered_stop`: a failure or a
  stop keeps an item covered when the call does not cover it alone.
- Theorem {lit}`Custody.covered_finish`: so does the end of a call when its result
  settles what it owes.
- Theorem {lit}`Custody.secured_of_quiescent`: without calls, covered means secured.
-/

namespace Veilence
namespace Foundation

variable {Store Op C : Type} {R : C → Type} {α ι : Type}

/-- Where items are: which of them a store holds, which commands put an item into it or
take it out, which responses occur at all, which responses a call relies on while it
moves an item, and which results of a call put an item back. -/
structure Custody (S : System Store Op C R α) (ι : Type) where
  secured : Store → ι → Prop
  adds : C → ι → Prop
  takes : (c : C) → R c → ι → Prop
  sound : (c : C) → R c → Prop
  usable : ι → (c : C) → R c → Prop
  settles : Op → α → ι → Prop
  secured_of_adds : ∀ {s : Store} {c : C} {x : ι}, adds c x → secured (S.exec s c).1 x
  secured_or_takes : ∀ {s : Store} {c : C} {x : ι}, secured s x →
    secured (S.exec s c).1 x ∨ takes c (S.exec s c).2 x
  fallible_of_takes : ∀ {c : C} {r : R c} {x : ι}, takes c r x → S.fallible c = true

namespace Custody

variable {S : System Store Op C R α} (K : Custody S ι)

/-- The rest of a body puts the item back if nothing fails, by a command or by a result
that settles it. -/
def Owes {β : Type} (settled : β → Prop) (x : ι) : Prog C R β → Prop
  | .ret b => settled b
  | .cmd c k => K.adds c x ∨ ∀ r, K.usable x c r → Owes settled x (k (some r))

/-- Every command of a body that takes the item is excused, or the rest of the body owes
the item. -/
def Guarded {β : Type} (excused : C → Prop) (settled : β → Prop) (x : ι) :
    Prog C R β → Prop
  | .ret _ => True
  | .cmd c k =>
      (∀ r, K.sound c r →
        (K.takes c r x → excused c ∨ K.Owes settled x (k (some r))) ∧
          Guarded excused settled x (k (some r))) ∧
        Guarded excused settled x (k none)

/-- A call owes an item; where failures stick it owes nothing after the first one. -/
def OwesThread (x : ι) (t : Thread Op C R α) : Prop :=
  (S.sticky = true → t.failed = false) ∧ K.Owes (fun a => K.settles t.op a x) x t.prog

/-- The store holds the item, or some call other than `i` owes it. -/
def CoveredBut (w : World Store Op C R α) (i : Nat) (x : ι) : Prop :=
  K.secured w.store x ∨ ∃ j ≠ i, ∃ t, w.threads j = some t ∧ K.OwesThread x t

/-- The store holds the item or some call owes it. -/
def Covered (w : World Store Op C R α) (x : ι) : Prop :=
  K.secured w.store x ∨ ∃ i t, w.threads i = some t ∧ K.OwesThread x t

variable {K} {w : World Store Op C R α} {x : ι} {i : Nat}

/-- What the first part of a body owes, the whole body owes when the second part owes
what the first did not settle. -/
theorem Owes.bind {β γ : Type} {settled : β → Prop} {settled' : γ → Prop} {p : Prog C R β}
    (hp : K.Owes settled x p) {f : β → Prog C R γ}
    (hf : ∀ b, settled b → K.Owes settled' x (f b)) : K.Owes settled' x (p >>= f) := by
  induction p with
  | ret b => exact hf b hp
  | cmd c k ih =>
      rw [Prog.cmd_bind]
      rcases hp with hadds | hrest
      · exact Or.inl hadds
      · exact Or.inr fun r hr => ih (some r) (hrest r hr)

/-- A body is guarded when its parts are. -/
theorem Guarded.bind {β γ : Type} {excused : C → Prop} {settled : β → Prop}
    {settled' : γ → Prop} {p : Prog C R β} (hp : K.Guarded excused settled x p)
    {f : β → Prog C R γ} (hf : ∀ b, K.Guarded excused settled' x (f b))
    (howes : ∀ b, settled b → K.Owes settled' x (f b)) :
    K.Guarded excused settled' x (p >>= f) := by
  induction p with
  | ret b => exact hf b
  | cmd c k ih =>
      rw [Prog.cmd_bind]
      refine ⟨fun r hsound => ⟨fun htakes => ?_, ih _ (hp.1 r hsound).2⟩, ih _ hp.2⟩
      exact ((hp.1 r hsound).1 htakes).imp_right fun hrest => hrest.bind howes

/-- Without calls, covered means secured. -/
theorem secured_of_quiescent (hcovered : K.Covered w x) (hquiet : w.Quiescent) :
    K.secured w.store x := by
  rcases hcovered with hsecured | ⟨i, t, hthread, _⟩
  · exact hsecured
  · rw [hquiet i] at hthread
    exact absurd hthread (by simp)

/-- Either the call at `i` owes the item or the item is covered without it. -/
theorem Covered.owes_or_but (hcovered : K.Covered w x) (i : Nat) :
    (∃ t, w.threads i = some t ∧ K.OwesThread x t) ∨ K.CoveredBut w i x := by
  rcases hcovered with hsecured | ⟨j, t, hthread, howes⟩
  · exact Or.inr (Or.inl hsecured)
  · by_cases hij : j = i
    · exact Or.inl ⟨t, hij ▸ hthread, howes⟩
    · exact Or.inr (Or.inr ⟨j, hij, t, hthread, howes⟩)

/-- What covers an item besides the call at `i` still does when only that call changes
and the store keeps the item. -/
theorem CoveredBut.covered (hbut : K.CoveredBut w i x) {store : Store}
    {log : List (Event Op C α)} {t : Option (Thread Op C R α)}
    (hkeep : K.secured w.store x → K.Covered ⟨store, w.setThread i t, log⟩ x) :
    K.Covered ⟨store, w.setThread i t, log⟩ x := by
  rcases hbut with hsecured | ⟨j, hj, u, hthread, howes⟩
  · exact hkeep hsecured
  · refine Or.inr ⟨j, u, ?_, howes⟩
    rw [← hthread]
    exact w.setThread_of_ne t hj

/-- A new call keeps an item covered unless its start takes the item. -/
theorem covered_start {op : Op} (hfree : w.threads i = none) (hcovered : K.Covered w x)
    (hkeep : K.secured w.store x →
      K.secured (S.begin w.store op) x ∨ K.Owes (fun a => K.settles op a x) x (S.body op)) :
    K.Covered ⟨S.begin w.store op, w.setThread i (some ⟨op, S.body op, false⟩), w.log⟩ x := by
  have hbut : K.CoveredBut w i x := by
    rcases hcovered.owes_or_but i with ⟨t, hthread, _⟩ | hbut
    · rw [hfree] at hthread
      exact absurd hthread (by simp)
    · exact hbut
  refine hbut.covered fun hsecured => ?_
  rcases hkeep hsecured with hstill | howes
  · exact Or.inl hstill
  · exact Or.inr ⟨i, _, w.setThread_self i _, fun _ => rfl, howes⟩

/-- A command keeps an item covered unless it takes the item out of the store and the
rest of its call does not owe it. -/
theorem covered_exec {op : Op} {c : C} {k : Option (R c) → Prog C R α} {failed : Bool}
    (hthread : w.threads i = some ⟨op, .cmd c k, failed⟩) (hcovered : K.Covered w x)
    (husable : K.usable x c (S.exec w.store c).2)
    (hkeep : K.secured w.store x →
      K.Covered ⟨(S.exec w.store c).1,
        w.setThread i (some ⟨op, k (some (S.exec w.store c).2), failed⟩),
        .ran op c :: w.log⟩ x) :
    K.Covered ⟨(S.exec w.store c).1,
      w.setThread i (some ⟨op, k (some (S.exec w.store c).2), failed⟩),
      .ran op c :: w.log⟩ x := by
  rcases hcovered.owes_or_but i with ⟨t, ht, hlive, howes⟩ | hbut
  · obtain rfl := Option.some.inj (hthread.symm.trans ht)
    rcases howes with hadds | hrest
    · exact Or.inl (K.secured_of_adds hadds)
    · exact Or.inr ⟨i, _, w.setThread_self i _, hlive, hrest _ husable⟩
  · exact hbut.covered hkeep

/-- A command of a guarded body keeps an item covered unless it is an excused command
that takes the item. -/
theorem covered_exec_guarded {op : Op} {c : C} {k : Option (R c) → Prog C R α}
    {failed : Bool} {excused : C → Prop}
    (hthread : w.threads i = some ⟨op, .cmd c k, failed⟩)
    (hlive : S.sticky = true → S.fallible c = true → failed = false)
    (hguarded : K.Guarded excused (fun a => K.settles op a x) x (.cmd c k))
    (hcovered : K.Covered w x)
    (hsound : K.sound c (S.exec w.store c).2) (husable : K.usable x c (S.exec w.store c).2) :
    (excused c ∧ K.takes c (S.exec w.store c).2 x) ∨
      K.Covered ⟨(S.exec w.store c).1,
        w.setThread i (some ⟨op, k (some (S.exec w.store c).2), failed⟩),
        .ran op c :: w.log⟩ x := by
  by_cases hexcused : excused c ∧ K.takes c (S.exec w.store c).2 x
  · exact Or.inl hexcused
  · refine Or.inr (covered_exec hthread hcovered husable fun hsecured => ?_)
    rcases K.secured_or_takes hsecured with hstill | htakes
    · exact Or.inl hstill
    · rcases (hguarded.1 _ hsound).1 htakes with hexc | howes
      · exact absurd ⟨hexc, htakes⟩ hexcused
      · exact Or.inr ⟨i, _, w.setThread_self i _,
          fun hsticky => hlive hsticky (K.fallible_of_takes htakes), howes⟩

/-- A failing command keeps an item covered that the rest of the call still owes, or that
is covered without the call. -/
theorem covered_fail {op : Op} {p : Prog C R α}
    (hkeep : K.OwesThread x ⟨op, p, true⟩ ∨ K.CoveredBut w i x) :
    K.Covered ⟨w.store, w.setThread i (some ⟨op, p, true⟩), w.log⟩ x := by
  rcases hkeep with howes | hbut
  · exact Or.inr ⟨i, _, w.setThread_self i _, howes⟩
  · exact hbut.covered Or.inl

/-- A call that stops keeps an item covered that is covered without the call. -/
theorem covered_stop {op : Op} (hbut : K.CoveredBut w i x)
    (hkeep : K.secured w.store x → K.secured (S.stop w.store op) x) :
    K.Covered ⟨S.stop w.store op, w.setThread i none, w.log⟩ x :=
  hbut.covered fun hsecured => Or.inl (hkeep hsecured)

/-- A finishing call keeps every item that its result keeps in the store or settles. -/
theorem covered_finish {op : Op} {a : α} {failed : Bool}
    (hthread : w.threads i = some ⟨op, .ret a, failed⟩) (hcovered : K.Covered w x)
    (hkeep : K.secured w.store x → K.secured (S.done w.store op a) x)
    (hsettle : K.settles op a x → K.secured (S.done w.store op a) x) :
    K.Covered ⟨S.done w.store op a, w.setThread i none, .returned op a :: w.log⟩ x := by
  rcases hcovered.owes_or_but i with ⟨t, ht, _, howes⟩ | hbut
  · obtain rfl := Option.some.inj (hthread.symm.trans ht)
    exact Or.inl (hsettle howes)
  · exact hbut.covered fun hsecured => Or.inl (hkeep hsecured)

end Custody
end Foundation
end Veilence

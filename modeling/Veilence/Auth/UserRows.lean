import Veilence.Foundation.Observed
import Veilence.Auth.Discipline

/-!
# Lost updates on user rows

Seven operations read a user row, change some fields and write the whole row back.  What
an operation has set stays as long as no other operation writes back values that were
overtaken since it read them; otherwise the write undoes what the other operation has set.

Main results:

- Theorem {lit}`updates_kept_of_run`: no update is lost while the fields that a call does
  not set are, at its write, as it has read them.
- Theorem {lit}`deactivation_undone`: a login that overlaps a deactivation activates the
  user again.
-/

namespace Veilence
namespace Auth

open Go Foundation

/-! ## What is written to a row -/

/-- The row of the latest write to a user by an operation that is there to set the field. -/
def lastSet (id : Nat) (f : Field) : List (Event Op Call Result) → Option User
  | [] => none
  | .ran op (.updateUser id' row) :: earlier =>
      if id' = id ∧ op.sets f = true then some row else lastSet id f earlier
  | _ :: earlier => lastSet id f earlier

/-- Once a call that set a field of a user has returned without an error, the field keeps
its value until another call that is there to set it writes the row. -/
def NoLostUpdate (w : AuthWorld) : Prop :=
  ∀ later earlier op id row f result,
    w.log = later ++ .ran op (.updateUser id row) :: earlier → op.sets f = true →
      .returned op result ∈ later → (∀ message, result ≠ .error message) →
      (∀ op' row', .ran op' (.updateUser id row') ∈ later → op'.sets f = false) →
      ∃ user, w.store.users.get? id = some user ∧ f.Same user row

/-- The note of the user row that a call has read last. -/
def readRow : Observer Database Call Answer (Option (Nat × User)) where
  first := none
  next := fun seen _ c r => rowRead seen c r

/-- The user whose row a call writes. -/
def Call.userWritten : Call → Option Nat
  | .updateUser id _ => some id
  | _ => none

/-- At a write, the fields that the call is not there to set are still as it has read
them. -/
def Unchanged (seen : Option (Nat × User)) (db : Database) (op : Op) (c : Call) : Prop :=
  ∀ id ∈ c.userWritten, ∀ e ∈ seen, e.1 = id → ∀ f, op.sets f = false →
    ∃ current ∈ db.users.get? id, f.Same e.2 current

instance (seen : Option (Nat × User)) (db : Database) (op : Op) (c : Call) :
    Decidable (Unchanged seen db op c) :=
  inferInstanceAs (Decidable (∀ id ∈ c.userWritten, _))

/-! ## The invariant -/

/-- Every field has the value of the latest write that was there to set it. -/
def Kept (w : AuthWorld) : Prop :=
  ∀ id f row, lastSet id f w.log = some row →
    ∃ user, w.store.users.get? id = some user ∧ f.Same user row

/-- Every call writes what it has in hand, and its note is the row that it has read. -/
def InHand (w : AuthWorld) (notes : Nat → Option (Nat × User)) : Prop :=
  ∀ i t, w.threads i = some t → ∃ h, Careful t.op (Final t.op) h t.prog ∧ h.seen = notes i

theorem lastSet_ran_of_ne {id : Nat} {f : Field} {op : Op} {c : Call}
    (hc : ∀ id row, c ≠ .updateUser id row) (log : List (Event Op Call Result)) :
    lastSet id f (.ran op c :: log) = lastSet id f log := by
  cases c with
  | updateUser id' row => exact absurd rfl (hc id' row)
  | _ => rfl

/-- A write that leaves the other fields as they are keeps what was set. -/
theorem kept_update {users : Table Nat User} {log : List (Event Op Call Result)} {op : Op}
    {id : Nat} {row : User}
    (hkept : ∀ id f row, lastSet id f log = some row →
      ∃ user, users.get? id = some user ∧ f.Same user row)
    (hrow : ∀ f, op.sets f = false → ∃ current, users.get? id = some current ∧
      f.Same row current) (x : Nat) (f : Field) (set : User)
    (hset : lastSet x f (.ran op (.updateUser id row) :: log) = some set) :
    ∃ user, (users.insert id row).get? x = some user ∧ f.Same user set := by
  unfold lastSet at hset
  split_ifs at hset with hwrite
  · obtain ⟨rfl, -⟩ := hwrite
    obtain rfl := Option.some.inj hset
    exact ⟨row, Table.get?_insert_self users id row, .refl f row⟩
  · obtain ⟨user, huser, hsame⟩ := hkept x f set hset
    by_cases hx : x = id
    · subst hx
      have hunset : op.sets f = false := by
        simpa using fun hsets => hwrite ⟨rfl, hsets⟩
      obtain ⟨current, hcurrent, hold⟩ := hrow f hunset
      obtain rfl : user = current := Option.some.inj (huser.symm.trans hcurrent)
      exact ⟨row, Table.get?_insert_self users x row, hold.trans hsame⟩
    · exact ⟨user, by rw [Table.get?_insert_of_ne hx, huser], hsame⟩

section Runs

variable {cfg : Config} {w w' : AuthWorld} {notes : Nat → Option (Nat × User)} {l : Label Op}

/-- A call keeps to what it has in hand. -/
theorem InHand.step (hhand : InHand w notes)
    (hstep : (authSystem cfg).Step w l w') :
    InHand w' ((authSystem cfg).note readRow w notes l) := by
  have hframe : ∀ i, l.thread = some i → ∀ j, j ≠ i → ∀ t, w.threads j = some t →
      ∃ h, Careful t.op (Final t.op) h t.prog ∧
        h.seen = (authSystem cfg).note readRow w notes l j := by
    intro i hi j hj t ht
    rw [System.note_of_ne (by simp [hi, Ne.symm hj])]
    exact hhand j t ht
  cases hstep with
  | start _ _ =>
      refine World.forall_setThread (hframe _ rfl) ?_
      rintro _ ⟨⟩
      exact ⟨Hand.empty, careful_bodyOf _, by simp [System.note, readRow, Hand.empty]⟩
  | @exec i op c k failed hthread _ =>
      refine World.forall_setThread (hframe _ rfl) ?_
      rintro _ ⟨⟩
      obtain ⟨h, hcareful, hseen⟩ := hhand i _ hthread
      refine ⟨_, hcareful.2 _, ?_⟩
      rw [System.note_exec hthread, Function.update_self]
      exact congrArg (rowRead · c _) hseen
  | @fail i op c k failed hthread _ =>
      refine World.forall_setThread (hframe _ rfl) ?_
      rintro _ ⟨⟩
      obtain ⟨h, hcareful, hseen⟩ := hhand i _ hthread
      refine ⟨_, hcareful.2 _, ?_⟩
      rw [System.note_fail hthread, Function.update_self]
      exact congrArg (rowRead · c _) hseen
  | stop _ =>
      refine World.forall_setThread (hframe _ rfl) ?_
      rintro _ ⟨⟩
  | finish _ =>
      refine World.forall_setThread (hframe _ rfl) ?_
      rintro _ ⟨⟩
  | env _ => exact hhand

/-- An allowed step keeps what was set. -/
theorem Kept.step (hkept : Kept w) (hhand : InHand w notes)
    (hallowed : System.Allows Unchanged (w, notes) l)
    (hstep : (authSystem cfg).Step w l w') : Kept w' := by
  cases hstep with
  | start _ _ => exact hkept
  | @exec i op c k failed hthread _ =>
      obtain ⟨h, ⟨hpermitted, -⟩, hseen⟩ := hhand i _ hthread
      by_cases hc : ∀ id row, c ≠ .updateUser id row
      · intro id f row hset
        rw [lastSet_ran_of_ne hc] at hset
        change ∃ user, (w.store.exec c).1.users.get? id = some user ∧ _
        rw [users_of_exec w.store hc]
        exact hkept id f row hset
      · simp only [ne_eq, not_forall, not_not] at hc
        obtain ⟨id, row, rfl⟩ := hc
        obtain ⟨user, huser, hsame⟩ := hpermitted
        have hunchanged := hallowed i op _ k failed rfl hthread id rfl _ (hseen.symm.trans huser) rfl
        apply kept_update hkept
        intro f hf
        obtain ⟨current, hcurrent, hread⟩ := hunchanged f hf
        exact ⟨current, hcurrent, (hsame f hf).trans hread⟩
  | fail _ _ => exact hkept
  | stop _ => exact hkept
  | finish _ => exact hkept
  | env henv =>
      obtain ⟨t, -, rfl⟩ := henv
      exact hkept

/-- The latest write that is there to set a field is the one that no such write follows. -/
theorem lastSet_append {id : Nat} {f : Field} {op : Op} {row : User}
    (hsets : op.sets f = true) (earlier : List (Event Op Call Result))
    {later : List (Event Op Call Result)}
    (hlater : ∀ op' row', .ran op' (.updateUser id row') ∈ later → op'.sets f = false) :
    lastSet id f (later ++ .ran op (.updateUser id row) :: earlier) = some row := by
  induction later with
  | nil => simp [lastSet, hsets]
  | cons e later ih =>
      have hrest := ih fun op' row' hmem => hlater op' row' (List.mem_cons_of_mem e hmem)
      rw [List.cons_append]
      unfold lastSet
      split
      · simp at *
      · rename_i op' id' row' _ heq
        obtain ⟨rfl, rfl⟩ := List.cons_eq_cons.mp heq
        rw [if_neg, hrest]
        rintro ⟨rfl, hop'⟩
        simp [hlater op' row' (by simp)] at hop'
      · rename_i heq
        obtain ⟨rfl, rfl⟩ := List.cons_eq_cons.mp heq
        exact hrest

/-- No update is lost while the fields that a call does not set are, at its write, as it
has read them. -/
theorem updates_kept_of_run {cfg : Config} {db : Database} {w : AuthWorld}
    {notes : Nat → Option (Nat × User)}
    (hrun : Run ((authSystem cfg).Observed readRow) (System.Allows Unchanged)
      (World.initial db, fun _ => none) (w, notes)) : NoLostUpdate w := by
  have hinv : InHand w notes ∧ Kept w := by
    apply hrun.invariant (I := fun s => InHand s.1 s.2 ∧ Kept s.1)
    · constructor
      · intro i t ht
        simp [World.initial] at ht
      · intro id f row hset
        simp [World.initial, lastSet] at hset
    · rintro ⟨w, notes⟩ l ⟨w', _⟩ ⟨hhand, hkept⟩ hallowed ⟨hstep, rfl⟩
      exact ⟨hhand.step hstep, hkept.step hhand hallowed hstep⟩
  intro later earlier op id row f result hlog hsets _ _ hlater
  apply hinv.2 id f row
  rw [hlog, lastSet_append hsets earlier hlater]

end Runs

/-! ## A login that overlaps a deactivation -/

/-- The super admin deactivates the user. -/
def deactivation : Op :=
  .adminUpdateUser 0 1 "secret-0".toList ⟨none, none, none, some false⟩

/-- The row that the deactivation writes. -/
def deactivated : User :=
  { activeUser "user@x" "secret-1" false with isActive := false, deactivatedAt := some 0 }

/-- The login of the user. -/
def memberLogin : Op :=
  .login "user@x".toList "secret-1".toList "127.0.0.1".toList "agent".toList

/-- A deactivation that runs alone keeps its effect. -/
theorem updates_kept_deactivation :
    ∃ w, .returned deactivation (.user deactivated) ∈ w.log ∧ NoLostUpdate w := by
  obtain ⟨w, notes, hsteps, htest⟩ := System.exists_of_notedSteps? (authSystem plainConfig)
    readRow (System.allows Unchanged) (World.initial twoUsers, fun _ => none)
    (aloneLabels 0 deactivation 6)
    (fun w => .returned deactivation (.user deactivated) ∈ w.log) (by decide +kernel)
  refine ⟨w, of_decide_eq_true htest, ?_⟩
  exact updates_kept_of_run
    (System.observed_of_notedSteps? (fun _ _ => System.allows_sound) hsteps)

/-- A login reads the row of the user, the deactivation runs, and the login writes the row
back. -/
def overlapLabels : List (Label Op) :=
  [[.start 0 memberLogin], execs 0 10, aloneLabels 1 deactivation 6, execs 0 1,
    [.finish 0]].flatten

/-- The row that the login writes. -/
def loggedIn : User :=
  { activeUser "user@x" "secret-1" false with lastLoginAt := some 0 }

/-- The tokens that the login returns. -/
def memberTokens : TokenPair :=
  ⟨⟨1, "user@x".toList, accessTokenDuration⟩, ⟨0⟩⟩

/-- What happens after the deactivation has written the row, the latest event first. -/
def eventsAfterWrite : List (Event Op Call Result) :=
  [.returned memberLogin (.login loggedIn memberTokens),
    .ran memberLogin (.updateUser 1 loggedIn), .returned deactivation (.user deactivated)]

/-- After the deactivation has returned, the user is active again. -/
theorem deactivation_undone :
    ∃ w, Run (authSystem plainConfig).Step (fun _ _ => True) (World.initial twoUsers) w ∧
      w.store.users.get? 1 = some loggedIn ∧ ¬NoLostUpdate w := by
  obtain ⟨w, hsteps, htest⟩ := System.exists_of_steps? (authSystem plainConfig)
    (fun _ _ => true) (World.initial twoUsers) overlapLabels
    (fun w => w.store.users.get? 1 = some loggedIn ∧
      w.log.take 4 = eventsAfterWrite ++ [.ran deactivation (.updateUser 1 deactivated)])
    (by decide +kernel)
  obtain ⟨huser, htake⟩ := of_decide_eq_true htest
  refine ⟨w, System.run_of_steps? (fun _ _ _ => trivial) hsteps, huser, fun hkept => ?_⟩
  have hlog : w.log = eventsAfterWrite ++
      .ran deactivation (.updateUser 1 deactivated) :: w.log.drop 4 := by
    conv_lhs => rw [← List.take_append_drop 4 w.log, htake]
    simp
  have hlater : ∀ op' row', .ran op' (.updateUser 1 row') ∈ eventsAfterWrite →
      op'.sets .isActive = false := by
    intro op' row' hmem
    obtain ⟨rfl, -⟩ : op' = memberLogin ∧ row' = loggedIn := by
      simpa [eventsAfterWrite] using hmem
    rfl
  obtain ⟨user, hstored, hsame⟩ := hkept _ _ deactivation 1 deactivated .isActive
    (.user deactivated) hlog rfl (by simp [eventsAfterWrite]) (by simp) hlater
  obtain rfl := Option.some.inj (huser.symm.trans hstored)
  cases hsame

end Auth
end Veilence

import Veilence.Sso.Discipline

/-!
# Pending sign-ins are used once

A callback looks its pending sign-in up when it starts and deletes it when it returns, and
the exchange with the identity provider lies in between.  A call that has found the row
holds it until its own deletion has taken effect.  If no other call finds the row while it is
held, and a call that holds a row does not lose it by a failed deletion or by being cut off,
then a pending sign-in lets one call past at most.  Nothing in the code ensures either.

Main results:

- Theorem {lit}`consumed_of_run`: then every state value lets one call past, and none after
  a call has returned.
- Theorem {lit}`used_twice`: two calls that overlap both get past, and so does a later call
  when the deletion of the first one fails.
-/

namespace Veilence
namespace Sso

open Go Foundation

open Auth (Token rowsWhere of_head?_rowsWhere)

/-! ## What happens to a state value -/

/-- The state value that a callback presents. -/
def Op.state : Op → Option Token
  | .samlCallback _ state _ _ => some state
  | .oauthCallback _ state _ _ => some state
  | _ => none

/-- What happens to a state value: a look-up finds its row and the call gets past, a look-up
finds none, a look-up fails, or a call that has presented the value returns. -/
inductive Mark where
  | passed (state : Token)
  | missed (state : Token)
  | unanswered (state : Token)
  | returned (state : Token)
deriving DecidableEq

/-- The state value with which a call gets past. -/
def Mark.passes : Mark → Option Token
  | .passed state => some state
  | _ => none

/-- One call at most gets past with a state value, and none after a call with it has returned,
unless the look-up of a call with it has failed. -/
structure Consumed (marks : List Mark) : Prop where
  once : (marks.filterMap Mark.passes).Nodup
  closed : ∀ later earlier state, marks = later ++ .passed state :: earlier →
    .returned state ∈ earlier → .unanswered state ∈ earlier

/-- What a command does to a state value. -/
def marksOf : (c : Call) → Option (Answer c) → List Mark
  | .findByState state, none => [.unanswered state]
  | .findByState state, some none => [.missed state]
  | .findByState state, some (some _) => [.passed state]
  | _, _ => []

/-- The pending sign-in that a call holds, by its state value and the ID of its row: from the
look-up that finds it to the deletion. -/
def nextHeld (held : Option (Token × Nat)) : (c : Call) → Answer c → Option (Token × Nat)
  | .findByState state, some (id, _) => some (state, id)
  | .deleteState _, _ => none
  | _, _ => held

/-- What has happened to the state values, the latest first, and what the calls hold. -/
structure Trace where
  marks : List Mark
  held : Nat → Option (Token × Nat)

/-- Nothing has happened. -/
def Trace.start : Trace :=
  ⟨[], fun _ => none⟩

/-- The trace after a step. -/
def trace (w : SsoWorld) (g : Trace) : Label Op → Trace
  | .start i _ => { g with held := Function.update g.held i none }
  | .exec i =>
      match w.threads i with
      | some ⟨_, .cmd c _, _⟩ =>
          ⟨marksOf c (some (w.store.exec c).2) ++ g.marks,
            Function.update g.held i (nextHeld (g.held i) c (w.store.exec c).2)⟩
      | _ => g
  | .fail i =>
      match w.threads i with
      | some ⟨_, .cmd c _, _⟩ => { g with marks := marksOf c none ++ g.marks }
      | _ => g
  | .stop i => { g with held := Function.update g.held i none }
  | .finish i =>
      match w.threads i with
      | some t =>
          ⟨(t.op.state.map Mark.returned).toList ++ g.marks, Function.update g.held i none⟩
      | _ => g
  | .env => g

/-- A look-up finds no row that another call holds, the deletion of a pending sign-in does not
fail, and a call that holds one is not cut off. -/
structure Exclusive (s : SsoWorld × Trace) (l : Label Op) : Prop where
  alone : ∀ i op state k failed id row, l = .exec i →
    s.1.threads i = some ⟨op, .cmd (.findByState state) k, failed⟩ →
    (s.1.store.exec (.findByState state)).2 = some (id, row) → ∀ j, s.2.held j ≠ some (state, id)
  deleted : ∀ i op id k failed, l = .fail i →
    s.1.threads i ≠ some ⟨op, .cmd (.deleteState id) k, failed⟩
  stays : ∀ i, l = .stop i → s.2.held i = none

/-! ## What commands do to the pending sign-ins -/

/-- A row of a pending sign-in that has not expired. -/
def Live (db : Database) (state : Token) : Prop :=
  ∃ id row, db.states.get? id = some row ∧ row.state = state ∧ db.auth.now < row.expiresAt

/-- The state values of the rows differ. -/
def UniqueStates (db : Database) : Prop :=
  ∀ id id' row row', db.states.get? id = some row → db.states.get? id' = some row' →
    row.state = row'.state → id = id'

/-- There are no more pending sign-ins, and they last no longer. -/
structure Closes (db db' : Database) : Prop where
  states : ∀ id row, db'.states.get? id = some row → db.states.get? id = some row
  now : db.auth.now ≤ db'.auth.now

theorem Closes.refl (db : Database) : Closes db db :=
  ⟨fun _ _ hget => hget, le_refl _⟩

theorem Closes.unique {db db' : Database} (hcloses : Closes db db') (hunique : UniqueStates db) :
    UniqueStates db' :=
  fun id id' row row' hget hget' =>
    hunique id id' row row' (hcloses.states id row hget) (hcloses.states id' row' hget')

/-- What has expired or gone does not come back. -/
theorem Closes.live {db db' : Database} (hcloses : Closes db db') {state : Token}
    (hlive : Live db' state) : Live db state := by
  obtain ⟨id, row, hget, hstate, hexpires⟩ := hlive
  exact ⟨id, row, hcloses.states id row hget, hstate, lt_of_le_of_lt hcloses.now hexpires⟩

/-- A look-up that finds a row finds a live one. -/
theorem of_findByState {db : Database} {state : Token} {id : Nat} {row : SSOState}
    (hfound : (db.exec (.findByState state)).2 = some (id, row)) :
    db.states.get? id = some row ∧ row.state = state ∧ db.auth.now < row.expiresAt := by
  obtain ⟨hget, hcond⟩ := of_head?_rowsWhere hfound
  exact ⟨hget, by simpa using hcond⟩

/-- A look-up that finds none is of a state value without a live row. -/
theorem of_findByState_none {db : Database} {state : Token}
    (hfound : (db.exec (.findByState state)).2 = none) : ¬Live db state := by
  rintro ⟨id, row, hget, hstate, hexpires⟩
  have hmem : (id, row) ∈ rowsWhere db.states fun s => s.state = state ∧ db.auth.now < s.expiresAt :=
    Auth.mem_rowsWhere.mpr ⟨hget, by simp [hstate, hexpires]⟩
  rw [List.head?_eq_none_iff.mp hfound] at hmem
  exact List.not_mem_nil hmem

/-- The commands that look up or delete a pending sign-in. -/
def Call.onState : Call → Bool
  | .findByState _ => true
  | .deleteState _ => true
  | _ => false

/-- The time does not change while a command of the auth service is carried out. -/
theorem now_of_auth_exec (db : Auth.Database) (c : Auth.Call) : (db.exec c).1.now = db.now := by
  cases c with
  | createRefreshToken row =>
      simp only [Auth.Database.exec]
      split_ifs <;> rfl
  | createSession session =>
      simp only [Auth.Database.exec]
      split_ifs <;> rfl
  | updateSessionTokenHash id tokenHash =>
      simp only [Auth.Database.exec]
      split_ifs <;> rfl
  | deleteOldestSessionByUserID userID =>
      simp only [Auth.Database.exec]
      split <;> rfl
  | _ => rfl

/-- A command adds no pending sign-in and takes no time. -/
theorem closes_exec (db : Database) (c : Call) : Closes db (db.exec c).1 := by
  have hsame : ∀ db', db'.states = db.states → db'.auth.now = db.auth.now → Closes db db' := by
    intro db' hstates hnow
    exact ⟨fun id row hget => hstates ▸ hget, hnow.ge⟩
  cases c with
  | auth c => exact hsame _ rfl (now_of_auth_exec db.auth c)
  | createUser user =>
      simp only [Database.exec]
      split_ifs <;> exact hsame _ rfl rfl
  | allow key cooldown =>
      simp only [Database.exec]
      split_ifs <;> exact hsame _ rfl rfl
  | createPasswordReset row =>
      simp only [Database.exec]
      split_ifs <;> exact hsame _ rfl rfl
  | createEmailVerification row =>
      simp only [Database.exec]
      split_ifs <;> exact hsame _ rfl rfl
  | createIdentity identity =>
      simp only [Database.exec]
      split_ifs <;> exact hsame _ rfl rfl
  | updateIdentity id identity =>
      simp only [Database.exec]
      split_ifs <;> exact hsame _ rfl rfl
  | deleteState id =>
      refine ⟨fun id' row hget => ?_, le_refl _⟩
      rw [show (db.exec (.deleteState id)).1.states = db.states.remove id from rfl,
        Ledger.get?_remove] at hget
      split_ifs at hget
      exact hget
  | _ => exact hsame _ rfl rfl

/-! ## What a call holds -/

/-- A call looks a pending sign-in up while it holds none, deletes the one that it holds, and
holds none when it returns. -/
def holding : Discipline Op Call Answer Result (Option (Token × Nat)) where
  idle := none
  first := fun _ => none
  next := nextHeld
  permitted := fun _ held c =>
    match c with
    | .findByState _ => held = none
    | .deleteState id => ∃ state, held = some (state, id)
    | _ => True
  answer := fun _ _ => True
  result := fun _ held _ => held = none

/-- The services when no deletion of a pending sign-in fails. -/
def deletingSystem (cfg : Config) : System Database Op Call Answer Result :=
  { ssoSystem cfg with
    fallible := fun c => (ssoSystem cfg).fallible c &&
      match c with
      | .deleteState _ => false
      | _ => true }

/-- A step without such a failure is a step of these services. -/
theorem deleting_of_step {cfg : Config} {w w' : SsoWorld} {l : Label Op}
    (hstep : (ssoSystem cfg).Step w l w')
    (hdeleted : ∀ i op id k failed, l = .fail i →
      w.threads i ≠ some ⟨op, .cmd (.deleteState id) k, failed⟩) :
    (deletingSystem cfg).Step w l w' := by
  cases hstep with
  | start hfree henabled => exact .start hfree henabled
  | exec hthread hlive => exact .exec hthread fun hsticky => absurd hsticky Bool.false_ne_true
  | @fail i op c k failed hthread hfallible =>
      refine .fail hthread (Bool.and_eq_true_iff.mpr ⟨hfallible, ?_⟩)
      cases c with
      | deleteState id => exact absurd hthread (hdeleted i op id k failed rfl)
      | _ => rfl
  | stop hthread => exact .stop hthread
  | finish hthread => exact .finish hthread
  | env henv => exact .env henv

section Holding

variable {cfg : Config} {op : Op} {failed : Bool} {held : Option (Token × Nat)}

/-- The other commands leave what a call holds as it is. -/
theorem nextHeld_of_not_onState {c : Call} (hc : c.onState = false) (r : Answer c) :
    nextHeld held c r = held := by
  cases c with
  | findByState state => exact absurd hc (by simp [Call.onState])
  | deleteState id => exact absurd hc (by simp [Call.onState])
  | _ => rfl

/-- A body without such commands leaves what the call holds as it is. -/
theorem follows_of_safe {α : Type} {m : Answers} {p : Body α}
    (hp : Safe (fun _ _ c => c.onState = false) op anything m p) :
    holding.Follows (deletingSystem cfg) op (fun _ held' _ => held' = held) failed held p := by
  induction p generalizing m failed with
  | ret a => rfl
  | cmd c k ih =>
      constructor
      · intro _
        constructor
        · have hc := hp.1
          cases c with
          | findByState state => exact absurd hc (by simp [Call.onState])
          | deleteState id => exact absurd hc (by simp [Call.onState])
          | _ => trivial
        · intro r _
          rw [show holding.next held c r = held from nextHeld_of_not_onState hp.1 r]
          exact ih (some r) (hp.2 (some r))
      · intro _
        exact ih none (hp.2 none)

/-- The frame of a callback: what is found is deleted. -/
theorem follows_withState (handler : String) (state : Token) {f : SSOState → Body Result}
    (hf : ∀ ssoState m, Safe (fun _ _ c => c.onState = false) op anything m (f ssoState)) :
    holding.Follows (deletingSystem cfg) op (fun _ held' _ => held' = none) failed none
      (withState handler state f) := by
  unfold withState
  apply Discipline.follows_call
  · rfl
  · rintro (_ | ⟨id, row⟩) -
    · rfl
    · apply (follows_of_safe (hf row [])).bind
      rintro failed' _ result rfl
      apply Discipline.follows_call
      · exact ⟨state, rfl⟩
      · exact fun _ _ => rfl
      · -- the deletion does not fail
        exact fun hfallible => absurd hfallible (by simp [deletingSystem])
  · exact fun _ => rfl

/-- The rule that no pending sign-in is looked up or deleted is lenient. -/
theorem lenient_onState (op : Op) :
    Lenient (fun _ _ c => c.onState = false) op anything where
  command := by
    intro m c hc
    cases c with
    | findByState state => exact absurd hc (by simp [Call.guarded])
    | deleteState id => exact absurd hc (by simp [Call.guarded])
    | _ => rfl
  result := fun _ _ _ => trivial

/-- A session is created without such commands. -/
theorem safe_createSession (m : Answers) (userID : Nat) (provider : Provider) (req : Request) :
    Safe (fun _ _ c => c.onState = false) op anything m (createSession userID provider req) := by
  unfold createSession
  apply (safe_lift (fun _ _ => rfl) _).bind
  intro m result _
  cases result <;> trivial

/-- Every operation looks up and deletes as it should. -/
theorem follows_bodyOf (op : Op) :
    holding.Follows (deletingSystem cfg) op (fun _ held' _ => held' = none) false none
      (bodyOf cfg op) := by
  have hlenient := lenient_onState op
  have hcreate : ∀ email, MayCreate cfg (fun _ _ c => c.onState = false) op email :=
    fun _ _ _ _ => rfl
  have hplain : ∀ {α : Type} {p : Body α},
      Safe (fun _ _ c => c.onState = false) op anything [] p → ∀ f : α → Result,
        holding.Follows (deletingSystem cfg) op (fun _ held' _ => held' = none) false none
          (p >>= fun a => .ret (f a)) :=
    fun hp _ => (follows_of_safe hp).bind fun _ _ _ hheld => hheld
  have hwhole : ∀ {p : Body Result},
      Safe (fun _ _ c => c.onState = false) op anything [] p →
        holding.Follows (deletingSystem cfg) op (fun _ held' _ => held' = none) false none p :=
    fun hp => follows_of_safe hp
  cases op with
  | auth op => exact hplain (safe_lift (fun _ _ => rfl) _) _
  | register email password firstName lastName =>
      exact hwhole (safe_register hlenient (hcreate _) _ _ _)
  | createUserWithoutPassword email firstName lastName =>
      exact hplain (safe_createUserWithoutPassword hlenient.command (hcreate _) _ _) _
  | createUserWithPassword email firstName lastName password =>
      exact hplain (safe_createUserWithPassword hlenient.command (hcreate _) _ _ _) _
  | createSSOUser email firstName lastName =>
      exact hplain (safe_createSSOUser hlenient.command (hcreate _) _ _) _
  | setupInitialize email password firstName lastName =>
      exact hwhole (safe_setupInitialize hlenient (hcreate _) (fun _ _ _ => trivial) _ _ _)
  | getUserByEmail email => exact hwhole (safe_getUserByEmail hlenient email)
  | forgotPassword email => exact hwhole (safe_forgotPassword hlenient email)
  | samlCallback samlResponse relayState ipAddress userAgent =>
      obtain ⟨handler, f, hbody, hf⟩ := framed_handleSAMLCallback hlenient hcreate
        safe_createSession samlResponse relayState ipAddress userAgent
      rw [bodyOf, hbody]
      exact follows_withState handler relayState hf
  | oauthCallback code state ipAddress userAgent =>
      obtain ⟨handler, f, hbody, hf⟩ := framed_handleOAuthCallback hlenient hcreate
        safe_createSession code state ipAddress userAgent
      rw [bodyOf, hbody]
      exact follows_withState handler state hf
  | samlSLO samlRequest signature sigAlg =>
      exact hwhole (safe_handleSAMLSLO hlenient (fun _ _ => rfl) _ _ _)

end Holding

/-- The next command is the look-up of a state value. -/
def LooksUp (state : Token) (p : Body Result) : Prop :=
  ∃ k, p = .cmd (.findByState state) k

/-- A callback begins with its look-up. -/
theorem looksUp_bodyOf (cfg : Config) {op : Op} {state : Token} (hstate : op.state = some state) :
    LooksUp state (bodyOf cfg op) := by
  cases op with
  | samlCallback samlResponse relayState ipAddress userAgent =>
      obtain rfl := Option.some.inj hstate
      exact ⟨_, rfl⟩
  | oauthCallback code state' ipAddress userAgent =>
      obtain rfl := Option.some.inj hstate
      exact ⟨_, rfl⟩
  | _ => exact absurd hstate (by simp [Op.state])

/-! ## Every run -/

/-- The look-up of a state value has been answered or has failed. -/
def LookedUp (marks : List Mark) (state : Token) : Prop :=
  .passed state ∈ marks ∨ .missed state ∈ marks ∨ .unanswered state ∈ marks

/-- What is looked up stays so. -/
theorem LookedUp.append {marks : List Mark} {state : Token} (hlooked : LookedUp marks state)
    (new : List Mark) : LookedUp (new ++ marks) state := by
  unfold LookedUp at *
  simp only [List.mem_append]
  tauto

/-- A call with a state value is before its look-up, or this has been answered or has failed. -/
def PastLookUp (marks : List Mark) (t : Thread Op Call Answer Result) : Prop :=
  ∀ state, t.op.state = some state → LookedUp marks state ∨ LooksUp state t.prog

/-- The calls keep the discipline, a row whose state value has let a call past is held, a state
value that was not found has no live row, and a call that is past its look-up has been
answered. -/
structure Guarded (cfg : Config) (w : SsoWorld) (g : Trace) : Prop where
  kept : holding.Kept (deletingSystem cfg) g.held w
  unique : UniqueStates w.store
  passed : ∀ state, .passed state ∈ g.marks → ∀ id row, w.store.states.get? id = some row →
    row.state = state → ∃ i, g.held i = some (state, id)
  missed : ∀ state, .missed state ∈ g.marks → ¬Live w.store state
  looked : ∀ i t, w.threads i = some t → PastLookUp g.marks t
  returned : ∀ state, .returned state ∈ g.marks → LookedUp g.marks state
  consumed : Consumed g.marks

/-- One more mark. -/
theorem Consumed.cons {marks : List Mark} {mark : Mark} (hconsumed : Consumed marks)
    (hnew : ∀ state, mark = .passed state → .passed state ∉ marks ∧
      (.returned state ∈ marks → .unanswered state ∈ marks)) :
    Consumed (mark :: marks) where
  once := by
    cases mark with
    | passed state =>
        refine List.nodup_cons.mpr ⟨fun hmem => ?_, hconsumed.once⟩
        obtain ⟨mark', hmark', hpasses⟩ := List.mem_filterMap.mp hmem
        cases mark' with
        | passed state' =>
            obtain rfl := Option.some.inj hpasses
            exact (hnew state' rfl).1 hmark'
        | _ => exact absurd hpasses (by simp [Mark.passes])
    | _ => exact hconsumed.once
  closed := by
    intro later earlier state hsplit hreturned
    cases later with
    | nil =>
        obtain ⟨rfl, rfl⟩ := List.cons_eq_cons.mp hsplit
        exact (hnew state rfl).2 hreturned
    | cons mark' later =>
        exact hconsumed.closed later earlier state (List.cons_eq_cons.mp hsplit).2 hreturned

/-- More marks that are no passes. -/
theorem Consumed.append {marks : List Mark} (hconsumed : Consumed marks) {new : List Mark}
    (hnew : ∀ mark ∈ new, mark.passes = none) : Consumed (new ++ marks) := by
  induction new with
  | nil => exact hconsumed
  | cons mark new ih =>
      apply (ih fun mark' hmark' => hnew mark' (List.mem_cons_of_mem _ hmark')).cons
      rintro state rfl
      exact absurd (hnew _ List.mem_cons_self) (by simp [Mark.passes])

/-- The mark of a command that has taken effect. -/
theorem of_mem_marksOf {db : Database} {c : Call} {mark : Mark}
    (hmark : mark ∈ marksOf c (some (db.exec c).2)) :
    ∃ state, c = .findByState state ∧
      ((mark = .passed state ∧
          ∃ id row, (db.exec (.findByState state)).2 = some (id, row)) ∨
        (mark = .missed state ∧ (db.exec (.findByState state)).2 = none)) := by
  cases c with
  | findByState state =>
      refine ⟨state, rfl, ?_⟩
      cases hfound : (db.exec (.findByState state)).2 with
      | none =>
          rw [hfound] at hmark
          exact Or.inr ⟨List.mem_singleton.mp hmark, rfl⟩
      | some found =>
          rw [hfound] at hmark
          exact Or.inl ⟨List.mem_singleton.mp hmark, found.1, found.2, rfl⟩
  | _ => exact absurd hmark List.not_mem_nil

/-- A look-up that is answered leaves a mark. -/
theorem lookedUp_marksOf (db : Database) (state : Token) (marks : List Mark) :
    LookedUp (marksOf (.findByState state) (some (db.exec (.findByState state)).2) ++ marks)
      state := by
  cases hfound : (db.exec (.findByState state)).2 with
  | none => exact Or.inr (Or.inl List.mem_cons_self)
  | some found => exact Or.inl List.mem_cons_self

section Steps

variable {cfg : Config} {w : SsoWorld} {g : Trace} {i : Nat}

/-- A step that looks no state value up and at which no call gets or loses anything. -/
theorem Guarded.quiet (hguarded : Guarded cfg w g) {w' : SsoWorld}
    (hkept : holding.Kept (deletingSystem cfg) g.held w') (hcloses : Closes w.store w'.store)
    (new : List Mark)
    (hnew : ∀ mark ∈ new, ∃ state, mark = .unanswered state ∨
      (mark = .returned state ∧ LookedUp g.marks state))
    (hlooked : ∀ j t, w'.threads j = some t → PastLookUp (new ++ g.marks) t) :
    Guarded cfg w' { g with marks := new ++ g.marks } := by
  refine ⟨hkept, hcloses.unique hguarded.unique, ?_, ?_, hlooked, ?_, ?_⟩
  · intro state hpassed id row hget hstate
    rcases List.mem_append.mp hpassed with hmark | hmark
    · obtain ⟨_, h | ⟨h, _⟩⟩ := hnew _ hmark <;> exact absurd h (by simp)
    · exact hguarded.passed state hmark id row (hcloses.states id row hget) hstate
  · intro state hmissed hlive
    rcases List.mem_append.mp hmissed with hmark | hmark
    · obtain ⟨_, h | ⟨h, _⟩⟩ := hnew _ hmark <;> exact absurd h (by simp)
    · exact hguarded.missed state hmark (hcloses.live hlive)
  · intro state hreturned
    rcases List.mem_append.mp hreturned with hmark | hmark
    · obtain ⟨state', h | ⟨h, hlook⟩⟩ := hnew _ hmark
      · exact absurd h (by simp)
      · obtain rfl := Mark.returned.inj h
        exact hlook.append new
    · exact (hguarded.returned state hmark).append new
  · apply hguarded.consumed.append
    intro mark hmark
    obtain ⟨state, rfl | ⟨rfl, _⟩⟩ := hnew mark hmark <;> rfl

/-- A command that takes effect. -/
theorem Guarded.exec (hguarded : Guarded cfg w g) {op : Op} {c : Call}
    {k : Option (Answer c) → Body Result} {failed : Bool}
    (hthread : w.threads i = some ⟨op, .cmd c k, failed⟩)
    (halone : ∀ state id row, c = .findByState state →
      (w.store.exec (.findByState state)).2 = some (id, row) →
        ∀ j, g.held j ≠ some (state, id)) :
    Guarded cfg
      ⟨(w.store.exec c).1, w.setThread i (some ⟨op, k (some (w.store.exec c).2), failed⟩),
        .ran op c :: w.log⟩
      ⟨marksOf c (some (w.store.exec c).2) ++ g.marks,
        Function.update g.held i (nextHeld (g.held i) c (w.store.exec c).2)⟩ := by
  have heffective : Discipline.Effective (deletingSystem cfg) failed c :=
    fun hsticky => absurd hsticky Bool.false_ne_true
  have hpermitted := hguarded.kept.permitted hthread heffective
  have hcloses := closes_exec w.store c
  -- what a call holds it keeps, unless the command deletes it
  have hstay : ∀ j state id row, g.held j = some (state, id) →
      (w.store.exec c).1.states.get? id = some row →
        Function.update g.held i (nextHeld (g.held i) c (w.store.exec c).2) j =
          some (state, id) := by
    intro j state id row hheld hget
    by_cases hj : j = i
    · subst hj
      rw [Function.update_self]
      cases c with
      | findByState state' => exact absurd (hpermitted ▸ hheld) (by simp)
      | deleteState id' =>
          obtain ⟨state', heq⟩ := hpermitted
          rw [heq] at hheld
          obtain ⟨rfl, rfl⟩ := Prod.mk.inj (Option.some.inj hheld)
          rw [show (w.store.exec (.deleteState id')).1.states = w.store.states.remove id' from rfl,
            Ledger.get?_remove, if_pos rfl] at hget
          exact absurd hget (by simp)
      | _ => exact hheld
    · rw [Function.update_of_ne hj, hheld]
  -- a state value that lets the call past has let nobody past before
  have hfirst : ∀ state id row, c = .findByState state →
      (w.store.exec (.findByState state)).2 = some (id, row) →
        .passed state ∉ g.marks ∧ .missed state ∉ g.marks := by
    intro state id row hc hfound
    obtain ⟨hget, hstate, hlive⟩ := of_findByState hfound
    constructor
    · intro hpassed
      obtain ⟨j, hj⟩ := hguarded.passed state hpassed id row hget hstate
      exact halone state id row hc hfound j hj
    · intro hmissed
      exact hguarded.missed state hmissed ⟨id, row, hget, hstate, hlive⟩
  refine ⟨hguarded.kept.exec hthread heffective trivial, hcloses.unique hguarded.unique,
    ?_, ?_, ?_, ?_, ?_⟩
  · intro state hpassed id row hget hstate
    rcases List.mem_append.mp hpassed with hmark | hmark
    · obtain ⟨state', rfl, ⟨heq, id', row', hfound⟩ | ⟨heq, _⟩⟩ := of_mem_marksOf hmark
      · obtain rfl := Mark.passed.inj heq
        obtain ⟨hget', hstate', _⟩ := of_findByState hfound
        obtain rfl := hguarded.unique id id' row row' hget hget' (hstate.trans hstate'.symm)
        refine ⟨i, ?_⟩
        change Function.update g.held i _ i = _
        rw [Function.update_self, hfound]
        rfl
      · exact absurd heq (by simp)
    · obtain ⟨j, hj⟩ := hguarded.passed state hmark id row (hcloses.states id row hget) hstate
      exact ⟨j, hstay j state id row hj hget⟩
  · intro state hmissed hlive
    rcases List.mem_append.mp hmissed with hmark | hmark
    · obtain ⟨state', rfl, ⟨heq, _⟩ | ⟨heq, hfound⟩⟩ := of_mem_marksOf hmark
      · exact absurd heq (by simp)
      · obtain rfl := Mark.missed.inj heq
        exact of_findByState_none hfound (hcloses.live hlive)
    · exact hguarded.missed state hmark (hcloses.live hlive)
  · apply World.forall_setThread
      (P := fun _ => PastLookUp (marksOf c (some (w.store.exec c).2) ++ g.marks))
    · intro j _ t ht state hstate
      exact (hguarded.looked j t ht state hstate).imp_left (LookedUp.append · _)
    · rintro _ ⟨⟩ state hstate
      rcases hguarded.looked i _ hthread state hstate with hlooked | ⟨k', hprog⟩
      · exact Or.inl (hlooked.append _)
      · obtain ⟨rfl, _⟩ := Prog.cmd.inj hprog
        exact Or.inl (lookedUp_marksOf w.store state g.marks)
  · intro state hreturned
    rcases List.mem_append.mp hreturned with hmark | hmark
    · obtain ⟨state', _, ⟨heq, _⟩ | ⟨heq, _⟩⟩ := of_mem_marksOf hmark <;>
        exact absurd heq (by simp)
    · exact (hguarded.returned state hmark).append _
  · by_cases hpasses : ∃ state id row, c = .findByState state ∧
        (w.store.exec (.findByState state)).2 = some (id, row)
    · obtain ⟨state, id, row, rfl, hfound⟩ := hpasses
      obtain ⟨hnew, hfirst⟩ := hfirst state id row rfl hfound
      rw [hfound]
      apply hguarded.consumed.cons
      rintro _ ⟨⟩
      refine ⟨hnew, fun hreturned => ?_⟩
      -- the call that has returned has not been answered, so its look-up has failed
      rcases hguarded.returned state hreturned with hpassed | hmissed | hunanswered
      · exact absurd hpassed hnew
      · exact absurd hmissed hfirst
      · exact hunanswered
    · apply hguarded.consumed.append
      intro mark hmark
      obtain ⟨state, rfl, ⟨_, id, row, hfound⟩ | ⟨rfl, _⟩⟩ := of_mem_marksOf hmark
      · exact absurd ⟨state, id, row, rfl, hfound⟩ hpasses
      · rfl

/-- A step that is exclusive. -/
theorem Guarded.step (hguarded : Guarded cfg w g) {w' : SsoWorld} {l : Label Op}
    (hstep : (ssoSystem cfg).Step w l w') (hexclusive : Exclusive (w, g) l) :
    Guarded cfg w' (trace w g l) := by
  have hclear : ∀ j, g.held j = none → Function.update g.held j none = g.held :=
    fun j hj => Function.update_eq_self_iff.mpr hj.symm
  have hsteady := deleting_of_step hstep hexclusive.deleted
  cases hsteady with
  | @start j op hfree _ =>
      have hidle : g.held j = none := hguarded.kept.idle j hfree
      have hkept := hguarded.kept.start (i := j) (follows_bodyOf op)
      rw [trace, hclear j hidle]
      rw [show Function.update g.held j (holding.first op) = g.held from hclear j hidle] at hkept
      apply hguarded.quiet hkept (.refl _) [] (by simp)
      apply World.forall_setThread (P := fun _ => PastLookUp ([] ++ g.marks))
      · exact fun j' _ t ht => hguarded.looked j' t ht
      · rintro _ ⟨⟩ state hstate
        exact Or.inr (looksUp_bodyOf cfg hstate)
  | @exec j op c k failed hthread _ =>
      simp only [trace, hthread]
      apply hguarded.exec hthread
      rintro state id row rfl hfound
      exact hexclusive.alone j op state k failed id row rfl hthread hfound
  | @fail j op c k failed hthread hfallible =>
      simp only [trace, hthread]
      apply hguarded.quiet (hguarded.kept.fail hthread hfallible) (.refl _)
      · intro mark hmark
        cases c with
        | findByState state => exact ⟨state, Or.inl (List.mem_singleton.mp hmark)⟩
        | _ => exact absurd hmark List.not_mem_nil
      · apply World.forall_setThread (P := fun _ => PastLookUp (marksOf c none ++ g.marks))
        · intro j' _ t ht state hstate
          exact (hguarded.looked j' t ht state hstate).imp_left (LookedUp.append · _)
        · rintro _ ⟨⟩ state hstate
          rcases hguarded.looked j _ hthread state hstate with hlooked | ⟨k', hprog⟩
          · exact Or.inl (hlooked.append _)
          · obtain ⟨rfl, _⟩ := Prog.cmd.inj hprog
            exact Or.inl (Or.inr (Or.inr List.mem_cons_self))
  | @stop j t hthread =>
      have hnone : g.held j = none := hexclusive.stays j rfl
      have hkept := hguarded.kept.leave (i := j) w.store w.log
      rw [trace, hclear j hnone]
      rw [show Function.update g.held j holding.idle = g.held from hclear j hnone] at hkept
      apply hguarded.quiet hkept (.refl _) [] (by simp)
      apply World.forall_setThread (P := fun _ => PastLookUp ([] ++ g.marks))
      · exact fun j' _ t' ht' => hguarded.looked j' t' ht'
      · exact fun _ heq => absurd heq (by simp)
  | @finish j op result failed hthread =>
      have hnone : g.held j = none := hguarded.kept.result hthread
      have hkept := hguarded.kept.leave (i := j) w.store (.returned op result :: w.log)
      simp only [trace, hthread]
      rw [hclear j hnone]
      rw [show Function.update g.held j holding.idle = g.held from hclear j hnone] at hkept
      apply hguarded.quiet hkept (.refl _)
      · intro mark hmark
        obtain ⟨state, hstate, rfl⟩ := Option.map_eq_some_iff.mp (Option.mem_toList.mp hmark)
        refine ⟨state, Or.inr ⟨rfl, ?_⟩⟩
        rcases hguarded.looked j _ hthread state hstate with hlooked | ⟨k, hprog⟩
        · exact hlooked
        · exact absurd hprog (by simp)
      · apply World.forall_setThread (P := fun _ =>
          PastLookUp ((op.state.map Mark.returned).toList ++ g.marks))
        · intro j' _ t ht state hstate
          exact (hguarded.looked j' t ht state hstate).imp_left (LookedUp.append · _)
        · exact fun _ heq => absurd heq (by simp)
  | env henv =>
      obtain ⟨t, ht, rfl⟩ := henv
      have hkept : holding.Kept (deletingSystem cfg) g.held
          ⟨{ w.store with auth := { w.store.auth with now := t } }, w.threads, w.log⟩ :=
        ⟨hguarded.kept.follows, hguarded.kept.idle⟩
      exact hguarded.quiet hkept ⟨fun _ _ hget => hget, ht⟩ [] (by simp) hguarded.looked

end Steps

/-- Along every run whose steps are exclusive, a state value lets one call past at most, and
none after a call with it has returned, unless the look-up of a call with it has failed. -/
theorem consumed_of_run {cfg : Config} {db : Database} (hunique : UniqueStates db) {w : SsoWorld}
    {g : Trace}
    (hrun : Run ((ssoSystem cfg).Tracked trace) Exclusive (World.initial db, Trace.start) (w, g)) :
    Consumed g.marks := by
  have hstart : Guarded cfg (World.initial db) Trace.start :=
    { kept := ⟨by simp [World.initial], fun _ _ => rfl⟩
      unique := hunique
      passed := by simp [Trace.start]
      missed := by simp [Trace.start]
      looked := by simp [World.initial]
      returned := by simp [Trace.start]
      consumed := ⟨List.nodup_nil, by simp [Trace.start]⟩ }
  have hend := hrun.invariant (I := fun s => Guarded cfg s.1 s.2) hstart ?_
  · exact hend.consumed
  · rintro s l s' hs hl ⟨hstep, htrace⟩
    rw [htrace]
    exact hs.step hstep hl

/-! ## One call, and two -/

/-- A pending sign-in of a user whose identity is linked. -/
def onePending : Database :=
  { twoAccounts with
    auth := { Auth.twoUsers with drawn := 1 }
    identities := Ledger.empty.add ⟨1, .google, "1001".toList, "user@x".toList⟩
    states := Ledger.empty.add
      { configID := 0
        state := ⟨0⟩
        provider := .google
        callbackURL := "https://app".toList
        mode := .login
        codeVerifier := "verifier".toList
        samlRequestID := []
        expiresAt := 600 } }

theorem onePending_unique : UniqueStates onePending := by
  have hone : ∀ id row, onePending.states.get? id = some row → id = 0 := by
    intro id row hget
    rcases Ledger.of_get?_add hget with ⟨hid, _⟩ | hnone
    · exact hid
    · exact absurd hnone (by simp)
  intro id id' row row' hget hget' _
  rw [hone id row hget, hone id' row' hget']

/-- A callback with the state value of the pending sign-in. -/
def callback (code : String) : Op :=
  .oauthCallback code.toList ⟨0⟩ [] []

/-- A step of one call that neither loses a deletion nor is cut off, and that looks up only while
the call holds nothing. -/
def checkAlone (s : SsoWorld × Trace) : Label Op → Bool
  | .start 0 _ => true
  | .exec 0 =>
      match s.1.threads 0 with
      | some ⟨_, .cmd (.findByState _) _, _⟩ => s.2.held 0 = none
      | _ => true
  | .finish 0 => true
  | _ => false

/-- The other calls hold nothing. -/
def OthersIdle (s : SsoWorld × Trace) : Prop :=
  ∀ j ≠ 0, s.2.held j = none

/-- Such a step leaves them so. -/
theorem othersIdle_step {s s' : SsoWorld × Trace} {l : Label Op} (hidle : OthersIdle s)
    (hcheck : checkAlone s l = true) (hstep : (ssoSystem signInConfig).Tracked trace s l s') :
    OthersIdle s' := by
  have hupdate : ∀ x, ∀ j ≠ 0, Function.update s.2.held 0 x j = none := by
    intro x j hj
    rw [Function.update_of_ne hj, hidle j hj]
  intro j hj
  rw [hstep.2]
  match l with
  | .start 0 op => exact hupdate none j hj
  | .exec 0 =>
      simp only [trace]
      split
      · exact hupdate _ j hj
      · exact hidle j hj
  | .finish 0 =>
      simp only [trace]
      split
      · exact hupdate none j hj
      · exact hidle j hj
  | .start (i + 1) _ => exact absurd hcheck (by simp [checkAlone])
  | .exec (i + 1) => exact absurd hcheck (by simp [checkAlone])
  | .finish (i + 1) => exact absurd hcheck (by simp [checkAlone])
  | .fail _ => exact absurd hcheck (by simp [checkAlone])
  | .stop _ => exact absurd hcheck (by simp [checkAlone])
  | .env => exact absurd hcheck (by simp [checkAlone])

/-- Such a step is exclusive. -/
theorem exclusive_of_checkAlone {s : SsoWorld × Trace} {l : Label Op} (hidle : OthersIdle s)
    (hcheck : checkAlone s l = true) : Exclusive s l where
  alone := by
    rintro i op state k failed id row rfl hthread _ j
    match i with
    | 0 =>
        by_cases hj : j = 0
        · subst hj
          have hnone : s.2.held 0 = none := by simpa [checkAlone, hthread] using hcheck
          simp [hnone]
        · simp [hidle j hj]
    | i + 1 => exact absurd hcheck (by simp [checkAlone])
  deleted := by
    rintro i op id k failed rfl
    exact absurd hcheck (by simp [checkAlone])
  stays := by
    rintro i rfl
    exact absurd hcheck (by simp [checkAlone])

/-- The operations that have signed a user in, the latest first. -/
def signIns (log : List (Event Op Call Result)) : List Op :=
  log.filterMap fun e =>
    match e with
    | .returned op (.callback result) => result.tokenPair.map fun _ => op
    | _ => none

/-- A call signs the user in, and a later one is told that there is no such state. -/
theorem consumed_of_run_alone :
    ∃ (w : SsoWorld) (g : Trace), signIns w.log = [callback "c"] ∧
      .returned (callback "d") (.error "sso state not found or expired".toList) ∈ w.log ∧
      Consumed g.marks := by
  obtain ⟨w, g, hsteps, htest⟩ := System.exists_of_trackedSteps? (ssoSystem signInConfig) trace
    checkAlone (World.initial onePending, Trace.start)
    (Label.alone 0 (callback "c") 17 ++ Label.alone 0 (callback "d") 1)
    (fun s => signIns s.1.log = [callback "c"] ∧
      .returned (callback "d") (.error "sso state not found or expired".toList) ∈ s.1.log)
    (by decide +kernel)
  obtain ⟨hsigned, htold⟩ := of_decide_eq_true htest
  refine ⟨w, g, hsigned, htold, ?_⟩
  apply consumed_of_run onePending_unique
  exact System.tracked_of_trackedSteps?_invariant (I := OthersIdle)
    (fun _ _ _ hidle hcheck hstep => othersIdle_step hidle hcheck hstep)
    (fun _ _ hidle hcheck => exclusive_of_checkAlone hidle hcheck) (fun _ _ => rfl) hsteps

/-- Both calls exchange their codes before the first one deletes the state. -/
def bothLookUpLabels : List (Label Op) :=
  [.start 0 (callback "c"), .start 1 (callback "d")] ++ Label.execs 0 3 ++ Label.execs 1 3 ++
    Label.execs 0 14 ++ [.finish 0] ++ Label.execs 1 14 ++ [.finish 1]

/-- The deletion of the first call fails. -/
def undeletedLabels : List (Label Op) :=
  [.start 0 (callback "c")] ++ Label.execs 0 16 ++ [.fail 0, .finish 0] ++
    Label.alone 0 (callback "d") 17

/-- The label is not about a failure. -/
def neverFails : Label Op → Bool
  | .fail _ => false
  | _ => true

/-- One state value signs in two overlapping calls without a failure, and two calls one after the
other when the deletion fails. -/
theorem used_twice :
    (∃ (w : SsoWorld) (g : Trace),
      Run ((ssoSystem signInConfig).Tracked trace) (fun _ l => ∀ i, l ≠ .fail i)
        (World.initial onePending, Trace.start) (w, g) ∧
      signIns w.log = [callback "d", callback "c"] ∧ ¬Consumed g.marks) ∧
    ∃ (w : SsoWorld) (g : Trace),
      Run ((ssoSystem signInConfig).Tracked trace) (fun _ l => l.thread = some 0)
        (World.initial onePending, Trace.start) (w, g) ∧
      signIns w.log = [callback "d", callback "c"] ∧ ¬Consumed g.marks := by
  have hnot : ∀ g : Trace, g.marks.filterMap Mark.passes = [⟨0⟩, ⟨0⟩] → ¬Consumed g.marks := by
    intro g htwice hconsumed
    have honce := hconsumed.once
    simp [htwice] at honce
  constructor
  · obtain ⟨w, g, hsteps, htest⟩ := System.exists_of_trackedSteps? (ssoSystem signInConfig) trace
      (fun _ l => neverFails l) (World.initial onePending, Trace.start) bothLookUpLabels
      (fun s => signIns s.1.log = [callback "d", callback "c"] ∧
        s.2.marks.filterMap Mark.passes = [⟨0⟩, ⟨0⟩]) (by decide +kernel)
    obtain ⟨hsigned, htwice⟩ := of_decide_eq_true htest
    refine ⟨w, g, System.tracked_of_trackedSteps? ?_ hsteps, hsigned, hnot g htwice⟩
    rintro _ _ hcheck i rfl
    cases hcheck
  · obtain ⟨w, g, hsteps, htest⟩ := System.exists_of_trackedSteps? (ssoSystem signInConfig) trace
      (fun _ l => l.thread = some 0) (World.initial onePending, Trace.start) undeletedLabels
      (fun s => signIns s.1.log = [callback "d", callback "c"] ∧
        s.2.marks.filterMap Mark.passes = [⟨0⟩, ⟨0⟩]) (by decide +kernel)
    obtain ⟨hsigned, htwice⟩ := of_decide_eq_true htest
    refine ⟨w, g, System.tracked_of_trackedSteps? ?_ hsteps, hsigned, hnot g htwice⟩
    exact fun _ _ hcheck => of_decide_eq_true hcheck

end Sso
end Veilence

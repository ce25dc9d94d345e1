import Veilence.Foundation.Observed
import Veilence.Auth.Discipline

/-!
# Refresh tokens are exchanged once

{lit}`RefreshTokens` deletes the row of the presented token and then stores a new token.
The right to exchange a token is in one place: nobody has drawn it yet, a call has drawn
it, it is stored, a call has removed it, or it is spent.  It moves along as long as a call
stores a new token only after its own deletion has removed the row of the old one.  The
code does not look at whether it has.

Main results:

- Theorem {lit}`singleUse_of_run`: then every token is exchanged at most once.
- Theorem {lit}`two_exchanges`: two calls that have both found the token exchange it twice,
  and so do two calls one after the other when the deletion of the first one fails.
-/

namespace Veilence
namespace Auth

open Go Foundation

/-! ## Single use -/

/-- The token that an event exchanges. -/
def exchangeOf : Event Op Call Result → Option Token
  | .returned (.refreshTokens token) (.tokens _) => some token
  | _ => none

/-- No token is exchanged twice, and after a token has been exchanged every call with it
is answered with an error. -/
structure SingleUse (log : List (Event Op Call Result)) : Prop where
  once : (log.filterMap exchangeOf).Nodup
  rejected : ∀ later earlier token tokens,
    log = later ++ .returned (.refreshTokens token) (.tokens tokens) :: earlier →
      ∀ result, .returned (.refreshTokens token) result ∈ later →
        ∃ message, result = .error message

/-- The note whether the call itself has removed a refresh token by its ID. -/
def removal : Observer Database Call Answer Bool where
  first := false
  next := fun removed db c r =>
    removed || match c, r with
      | .deleteRefreshToken id, some _ => (db.refreshTokens.get? id).isSome
      | _, _ => false

/-- The operation exchanges a token. -/
def Op.exchanges : Op → Bool
  | .refreshTokens _ => true
  | _ => false

/-- The call stores a refresh token. -/
def Call.storesToken : Call → Bool
  | .createRefreshToken _ => true
  | _ => false

/-- An exchange stores a new token only if its own deletion has removed the old one. -/
def OwnRemoval (removed : Bool) (_ : Database) (op : Op) (c : Call) : Prop :=
  op.exchanges = true → c.storesToken = true → removed = true

instance (removed : Bool) (db : Database) (op : Op) (c : Call) :
    Decidable (OwnRemoval removed db op c) :=
  inferInstanceAs (Decidable (_ → _ → _))

/-! ## The place of a token -/

/-- Where the right to exchange a token is. -/
inductive Place where
  | undrawn
  | held (i : Nat)
  | stored (id : Nat)
  | taken (i : Nat)
  | spent
deriving DecidableEq

/-- A call has the right to exchange a token, or is about to give it out. -/
def Place.WithCall (i : Nat) (p : Place) : Prop :=
  p = .held i ∨ p = .taken i

/-- The stored hashes differ, and their tokens have been drawn. -/
structure Database.Valid (db : Database) : Prop where
  drawn : ∀ id row, db.refreshTokens.get? id = some row →
    row.tokenHash.token.serial < db.drawn
  unique : ∀ id id' row row', db.refreshTokens.get? id = some row →
    db.refreshTokens.get? id' = some row' → row.tokenHash = row'.tokenHash → id = id'

/-- The tokens that the database knows are where it says. -/
structure Placed (place : Token → Place) (db : Database) : Prop where
  drawn : ∀ token : Token, db.drawn ≤ token.serial → place token = .undrawn
  stored : ∀ id row, db.refreshTokens.get? id = some row →
    place row.tokenHash.token = .stored id

/-- What a call has in hand fits to the places of the tokens. -/
structure Fits (place : Token → Place) (db : Database) (removed : Bool) (i : Nat) (op : Op)
    (h : Hand) : Prop where
  held : ∀ token, h.held = some token → place token = .held i
  found : ∀ id, h.found = some id → ∃ token, op = .refreshTokens token ∧
    id < db.refreshTokens.next ∧
      ∀ row, db.refreshTokens.get? id = some row → row.tokenHash = hashRefreshToken token
  taken : ∀ token, op = .refreshTokens token → removed = true → place token = .taken i
  paid : op.exchanges = true → h.stored = true → removed = true

/-- Tokens move only from the places that a call may take them from, and the stored tokens
are among those of before. -/
structure Moves (i : Nat) (place place' : Token → Place) (db db' : Database) : Prop where
  frame : ∀ token, place' token = place token ∨
    (place token ≠ .spent ∧ ∀ j, j ≠ i → ¬(place token).WithCall j)
  kept : ∀ id row, id < db.refreshTokens.next → db'.refreshTokens.get? id = some row →
    db.refreshTokens.get? id = some row
  next : db.refreshTokens.next ≤ db'.refreshTokens.next

section Steps

variable {place place' : Token → Place} {db db' : Database} {removed : Bool} {i j : Nat}
  {op : Op} {h : Hand} {c : Call}

/-- Nothing moves. -/
theorem Moves.stay (hkept : ∀ id row, db'.refreshTokens.get? id = some row →
    db.refreshTokens.get? id = some row)
    (hnext : db.refreshTokens.next ≤ db'.refreshTokens.next) : Moves i place place db db' where
  frame := fun _ => Or.inl rfl
  kept := fun id row _ hrow => hkept id row hrow
  next := hnext

/-- One token moves. -/
theorem Moves.update {token : Token} {p : Place} (hspent : place token ≠ .spent)
    (hcall : ∀ j, j ≠ i → ¬(place token).WithCall j)
    (hkept : ∀ id row, id < db.refreshTokens.next → db'.refreshTokens.get? id = some row →
      db.refreshTokens.get? id = some row)
    (hnext : db.refreshTokens.next ≤ db'.refreshTokens.next) :
    Moves i place (Function.update place token p) db db' where
  frame := by
    intro token'
    by_cases htoken : token' = token
    · subst htoken
      exact Or.inr ⟨hspent, hcall⟩
    · exact Or.inl (Function.update_of_ne htoken _ _)
  kept := hkept
  next := hnext

/-- What another call has stays where it is. -/
theorem Moves.withCall (hmoves : Moves i place place' db db') (hj : j ≠ i) {token : Token}
    (hplace : (place token).WithCall j) : place' token = place token := by
  rcases hmoves.frame token with hsame | ⟨_, hcall⟩
  · exact hsame
  · exact absurd hplace (hcall j hj)

/-- What another call has in hand still fits. -/
theorem Fits.frame (hfits : Fits place db removed j op h) (hj : j ≠ i)
    (hmoves : Moves i place place' db db') : Fits place' db' removed j op h where
  held := by
    intro token hheld
    have hplace := hfits.held token hheld
    rw [hmoves.withCall hj (Or.inl hplace), hplace]
  found := by
    intro id hid
    obtain ⟨token, hop, hlt, hrow⟩ := hfits.found id hid
    refine ⟨token, hop, Nat.lt_of_lt_of_le hlt hmoves.next, fun row hget => ?_⟩
    exact hrow row (hmoves.kept id row hlt hget)
  taken := by
    intro token hop hremoved
    have hplace := hfits.taken token hop hremoved
    rw [hmoves.withCall hj (Or.inr hplace), hplace]
  paid := hfits.paid

/-- A call that has just started has nothing in hand. -/
theorem fits_empty (place : Token → Place) (db : Database) (i : Nat) (op : Op) :
    Fits place db false i op Hand.empty where
  held := by simp [Hand.empty]
  found := by simp [Hand.empty]
  taken := by simp
  paid := by simp [Hand.empty]

/-- A row that a query by the hash finds has the hash. -/
theorem get?_of_head? {tokenHash : TokenHash} {id : Nat} {row : RefreshToken}
    (hhead : (rowsWhere db.refreshTokens fun t => t.tokenHash = tokenHash).head? =
      some (id, row)) :
    db.refreshTokens.get? id = some row ∧ row.tokenHash = tokenHash := by
  have hmem := List.mem_of_head? hhead
  simp only [rowsWhere, List.mem_filter, decide_eq_true_eq] at hmem
  exact ⟨Table.get?_eq_some_iff.mpr hmem.1, hmem.2⟩

/-- The other commands leave the tokens in hand as they are. -/
theorem hand_of_not_onTokens (hc : ¬c.OnTokens) (r : Option (Answer c)) :
    h.nextTokens c r = h := by
  cases c with
  | generateRefreshToken => exact absurd trivial hc
  | createRefreshToken row => exact absurd trivial hc
  | deleteRefreshToken id => exact absurd trivial hc
  | findRefreshTokenByTokenHash tokenHash => exact absurd trivial hc
  | _ => rfl

theorem removal_of_not_onTokens (hc : ¬c.OnTokens) (r : Option (Answer c)) :
    removal.next removed db c r = removed := by
  cases c with
  | deleteRefreshToken id => exact absurd trivial hc
  | _ => exact Bool.or_false removed

/-- A new row is found under the next ID only. -/
theorem get?_add_cases {t : Ledger RefreshToken} {row row' : RefreshToken} {id : Nat}
    (hget : (t.add row).get? id = some row') :
    (id = t.next ∧ row' = row) ∨ t.get? id = some row' := by
  rw [Ledger.get?_add] at hget
  split_ifs at hget with hid
  · exact Or.inl ⟨hid, (Option.some.inj hget).symm⟩
  · exact Or.inr hget

/-- A token at another place does not move. -/
theorem update_of_place {token token' : Token} {p : Place}
    (hne : place token' ≠ place token) : Function.update place token p token' = place token' :=
  Function.update_of_ne (fun heq => hne (congrArg place heq)) _ _

/-- The effect of a command of a call on the tokens. -/
def Effect (place : Token → Place) (db : Database) (removed : Bool) (i : Nat) (op : Op)
    (h : Hand) (c : Call) : Prop :=
  ∃ place', Moves i place place' db (db.exec c).1 ∧ Placed place' (db.exec c).1 ∧
    Fits place' (db.exec c).1 (removal.next removed db c (some (db.exec c).2)) i op
      (h.next c (some (db.exec c).2))

/-- A drawn token is held by the call that has drawn it. -/
theorem Fits.effect_generateRefreshToken (hplaced : Placed place db)
    (hfits : Fits place db removed i op h) :
    Effect place db removed i op h .generateRefreshToken := by
  have hundrawn : place ⟨db.drawn⟩ = .undrawn := hplaced.drawn _ (Nat.le_refl _)
  have hother : ∀ token, place token ≠ .undrawn →
      Function.update place ⟨db.drawn⟩ (.held i) token = place token :=
    fun token hne => update_of_place (hundrawn ▸ hne)
  refine ⟨Function.update place ⟨db.drawn⟩ (.held i), .update ?_ ?_ ?_ (Nat.le_refl _), ?_, ?_⟩
  · simp [hundrawn]
  · simp [hundrawn, Place.WithCall]
  · exact fun _ _ _ hrow => hrow
  · constructor
    · intro token htoken
      have hne : token ≠ ⟨db.drawn⟩ := by
        rintro rfl
        exact absurd htoken (Nat.not_succ_le_self _)
      rw [Function.update_of_ne hne]
      exact hplaced.drawn token (Nat.le_of_succ_le htoken)
    · intro id row hrow
      have hstored := hplaced.stored id row hrow
      rw [hother _ (by simp [hstored]), hstored]
  · constructor
    · rintro token ⟨⟩
      exact Function.update_self _ _ _
    · exact hfits.found
    · intro token hop hremoved
      have htaken := hfits.taken token hop (by simpa [removal] using hremoved)
      rw [hother _ (by simp [htaken]), htaken]
    · intro hop hstored
      simpa [removal] using hfits.paid hop hstored

/-- A token that is stored was held by the call. -/
theorem Fits.effect_createRefreshToken {row : RefreshToken} (hplaced : Placed place db)
    (hfits : Fits place db removed i op h) (hheld : h.held = some row.tokenHash.token)
    (hown : op.exchanges = true → removed = true) :
    Effect place db removed i op h (.createRefreshToken row) := by
  have hplace := hfits.held _ hheld
  have hother : ∀ token, place token ≠ .held i →
      Function.update place row.tokenHash.token (.stored db.refreshTokens.next) token =
        place token :=
    fun token hne => update_of_place (hplace ▸ hne)
  unfold Effect
  simp only [Database.exec]
  split_ifs
  · refine ⟨Function.update place row.tokenHash.token (.stored db.refreshTokens.next),
      .update ?_ ?_ ?_ (Nat.le_succ _), ?_, ?_⟩
    · simp [hplace]
    · intro j hj
      simp [hplace, Place.WithCall, Ne.symm hj]
    · intro id row' hid hrow
      rcases get?_add_cases hrow with ⟨rfl, -⟩ | hrow
      · exact absurd hid (Nat.lt_irrefl _)
      · exact hrow
    · constructor
      · intro token htoken
        have hundrawn := hplaced.drawn token htoken
        rw [hother _ (by simp [hundrawn]), hundrawn]
      · intro id row' hrow
        rcases get?_add_cases hrow with ⟨rfl, rfl⟩ | hrow
        · exact Function.update_self _ _ _
        · have hstored := hplaced.stored id row' hrow
          rw [hother _ (by simp [hstored]), hstored]
    · constructor
      · rintro token ⟨⟩
      · intro id hid
        obtain ⟨token, hop, hlt, hrow⟩ := hfits.found id hid
        refine ⟨token, hop, Nat.lt_succ_of_lt hlt, fun row' hget => ?_⟩
        rcases get?_add_cases hget with ⟨rfl, -⟩ | hget
        · exact absurd hlt (Nat.lt_irrefl _)
        · exact hrow row' hget
      · intro token hop hremoved
        have htaken := hfits.taken token hop (by simpa [removal] using hremoved)
        rw [hother _ (by simp [htaken]), htaken]
      · intro hop _
        simpa [removal] using hown hop
  · refine ⟨place, .stay (fun _ _ hrow => hrow) (Nat.le_refl _), hplaced, ?_⟩
    constructor
    · rintro token ⟨⟩
    · exact hfits.found
    · intro token hop hremoved
      exact hfits.taken token hop (by simpa [removal] using hremoved)
    · intro hop hstored
      simpa [removal] using hfits.paid hop hstored

/-- A token whose row the call removes is taken by the call. -/
theorem Fits.effect_deleteRefreshToken {id : Nat} (hplaced : Placed place db)
    (hfits : Fits place db removed i op h) (hfound : h.found = some id) :
    Effect place db removed i op h (.deleteRefreshToken id) := by
  obtain ⟨token, rfl, hlt, hrow⟩ := hfits.found id hfound
  have hkept : ∀ id' row, (db.refreshTokens.remove id).get? id' = some row →
      id' ≠ id ∧ db.refreshTokens.get? id' = some row := by
    intro id' row hget
    rw [Ledger.get?_remove] at hget
    split_ifs at hget with hid
    exact ⟨hid, hget⟩
  cases hget : db.refreshTokens.get? id with
  | none =>
      refine ⟨place, .stay (fun id' row hrow => (hkept id' row hrow).2) (Nat.le_refl _), ?_, ?_⟩
      · exact ⟨hplaced.drawn, fun id' row hrow => hplaced.stored id' row (hkept id' row hrow).2⟩
      · constructor
        · exact hfits.held
        · intro id' hid
          obtain ⟨token', hop, hlt', hrow'⟩ := hfits.found id' hid
          exact ⟨token', hop, hlt', fun row hget' => hrow' row (hkept id' row hget').2⟩
        · intro token' hop hremoved
          exact hfits.taken token' hop (by simpa [removal, hget] using hremoved)
        · intro hop hstored
          simpa [removal, hget] using hfits.paid hop hstored
  | some row =>
      have hplace : place token = .stored id := by
        have hstored := hplaced.stored id row hget
        rwa [hrow row hget] at hstored
      have hother : ∀ token', place token' ≠ .stored id →
          Function.update place token (.taken i) token' = place token' :=
        fun token' hne => update_of_place (hplace ▸ hne)
      refine ⟨Function.update place token (.taken i), .update ?_ ?_ ?_ (Nat.le_refl _), ?_, ?_⟩
      · simp [hplace]
      · simp [hplace, Place.WithCall]
      · exact fun id' row' _ hrow' => (hkept id' row' hrow').2
      · constructor
        · intro token' htoken
          have hundrawn := hplaced.drawn token' htoken
          rw [hother _ (by simp [hundrawn]), hundrawn]
        · intro id' row' hrow'
          obtain ⟨hne, hget'⟩ := hkept id' row' hrow'
          have hstored := hplaced.stored id' row' hget'
          rw [hother _ (by simp [hstored, hne]), hstored]
      · constructor
        · intro token' hheld
          have hplace' := hfits.held token' hheld
          rw [hother _ (by simp [hplace']), hplace']
        · intro id' hid
          obtain ⟨token', hop, hlt', hrow'⟩ := hfits.found id' hid
          exact ⟨token', hop, hlt', fun row hget' => hrow' row (hkept id' row hget').2⟩
        · rintro token' ⟨⟩ _
          exact Function.update_self _ _ _
        · intro _ _
          simp [removal, hget]

/-- What a call finds is the row of the presented token. -/
theorem Fits.effect_findRefreshTokenByTokenHash {token : Token} (hplaced : Placed place db)
    (hfits : Fits place db removed i (.refreshTokens token) h) :
    Effect place db removed i (.refreshTokens token) h
      (.findRefreshTokenByTokenHash (hashRefreshToken token)) := by
  refine ⟨place, .stay (fun _ _ hrow => hrow) (Nat.le_refl _), hplaced, ?_⟩
  have hremoval : removal.next removed db
      (.findRefreshTokenByTokenHash (hashRefreshToken token))
      (some (db.exec (.findRefreshTokenByTokenHash (hashRefreshToken token))).2) = removed :=
    Bool.or_false removed
  rw [hremoval]
  cases hhead : (rowsWhere db.refreshTokens fun t => t.tokenHash = hashRefreshToken token).head? with
  | none =>
      simp only [Hand.next, Database.exec, hhead]
      exact ⟨hfits.held, hfits.found, hfits.taken, hfits.paid⟩
  | some e =>
      obtain ⟨hget, hhash⟩ := get?_of_head? hhead
      simp only [Hand.next, Database.exec, hhead]
      refine ⟨hfits.held, ?_, hfits.taken, hfits.paid⟩
      rintro id ⟨⟩
      refine ⟨token, rfl, Ledger.lt_of_get? hget, fun row hrow => ?_⟩
      rw [hget] at hrow
      rw [← Option.some.inj hrow, hhash]

/-- What a command does to the tokens and to what its call has in hand. -/
theorem Fits.effect (hplaced : Placed place db) (hfits : Fits place db removed i op h)
    (hpermitted : Permitted op h c) (hown : OwnRemoval removed db op c) :
    Effect place db removed i op h c := by
  by_cases hc : c.OnTokens
  · cases c with
    | generateRefreshToken => exact hfits.effect_generateRefreshToken hplaced
    | createRefreshToken row =>
        exact hfits.effect_createRefreshToken hplaced hpermitted fun hop => hown hop rfl
    | deleteRefreshToken id => exact hfits.effect_deleteRefreshToken hplaced hpermitted
    | findRefreshTokenByTokenHash tokenHash =>
        obtain ⟨token, rfl, rfl⟩ := hpermitted
        exact hfits.effect_findRefreshTokenByTokenHash hplaced
    | _ => exact hc.elim
  · obtain ⟨hkept, hnext, hdrawn⟩ := @refreshTokens_of_exec db c hc
    refine ⟨place, .stay hkept (Nat.le_of_eq hnext.symm), ?_, ?_⟩
    · constructor
      · exact fun token htoken => hplaced.drawn token (hdrawn.trans htoken)
      · exact fun id row hrow => hplaced.stored id row (hkept id row hrow)
    · rw [removal_of_not_onTokens hc]
      constructor
      · simpa only [Hand.next, hand_of_not_onTokens hc] using hfits.held
      · intro id hid
        simp only [Hand.next, hand_of_not_onTokens hc] at hid
        obtain ⟨token, hop, hlt, hrow⟩ := hfits.found id hid
        exact ⟨token, hop, hnext ▸ hlt, fun row hget => hrow row (hkept id row hget)⟩
      · exact hfits.taken
      · simpa only [Hand.next, hand_of_not_onTokens hc] using hfits.paid

/-- A command that fails takes at most the token that was to be stored. -/
theorem Fits.fail (hfits : Fits place db removed i op h) (c : Call) :
    Fits place db (removal.next removed db c none) i op (h.next c none) := by
  have hremoval : removal.next removed db c none = removed := by
    cases c <;> exact Bool.or_false removed
  rw [hremoval]
  cases c with
  | createRefreshToken row =>
      refine ⟨?_, hfits.found, hfits.taken, hfits.paid⟩
      rintro token ⟨⟩
  | _ => exact ⟨hfits.held, hfits.found, hfits.taken, hfits.paid⟩

end Steps

/-! ## The invariant -/

/-- Every token has one place, and only spent tokens have been exchanged. -/
structure OnePlace (place : Token → Place) (w : AuthWorld) (notes : Nat → Bool) : Prop where
  placed : Placed place w.store
  calls : ∀ i t, w.threads i = some t → ∃ h, Careful t.op (Final t.op) h t.prog ∧
    Fits place w.store (notes i) i t.op h
  spent : ∀ token ∈ w.log.filterMap exchangeOf, place token = .spent
  once : (w.log.filterMap exchangeOf).Nodup
  answers : ∀ token result, .returned (.refreshTokens token) result ∈ w.log →
    (∃ message, result = .error message) ∨ ∃ tokens, result = .tokens tokens

section Runs

variable {cfg : Config} {place place' : Token → Place} {w : AuthWorld} {notes : Nat → Bool}
  {l : Label Op} {i : Nat}

/-- The calls that do not take a step keep what they have. -/
theorem OnePlace.frame (hinv : OnePlace place w notes) {db' : Database}
    (hl : l.thread = some i) (hmoves : Moves i place place' w.store db') :
    ∀ j, j ≠ i → ∀ t, w.threads j = some t → ∃ h, Careful t.op (Final t.op) h t.prog ∧
      Fits place' db' ((authSystem cfg).note removal w notes l j) j t.op h := by
  intro j hj t ht
  obtain ⟨h, hcareful, hfits⟩ := hinv.calls j t ht
  rw [System.note_of_ne (by simp [hl, Ne.symm hj])]
  exact ⟨h, hcareful, hfits.frame hj hmoves⟩

/-- Spent tokens stay spent. -/
theorem OnePlace.spent_of_moves (hinv : OnePlace place w notes) {db' : Database}
    (hmoves : Moves i place place' w.store db') :
    ∀ token ∈ w.log.filterMap exchangeOf, place' token = .spent := by
  intro token htoken
  have hspent := hinv.spent token htoken
  rcases hmoves.frame token with hsame | ⟨hne, -⟩
  · rw [hsame, hspent]
  · exact absurd hspent hne

/-- The invariant holds in the beginning. -/
theorem onePlace_initial {db : Database} (hvalid : db.Valid) :
    ∃ place, OnePlace place (World.initial db) fun _ => false := by
  classical
  refine ⟨fun token =>
    if hstored : ∃ id row, db.refreshTokens.get? id = some row ∧ row.tokenHash.token = token
    then .stored hstored.choose else .undrawn, ?_, ?_, ?_, ?_, ?_⟩
  · constructor
    · intro token htoken
      rw [dif_neg]
      rintro ⟨id, row, hget, rfl⟩
      exact absurd (hvalid.drawn id row hget) (Nat.not_lt.mpr htoken)
    · intro id row hget
      have hstored : ∃ id' row', db.refreshTokens.get? id' = some row' ∧
          row'.tokenHash.token = row.tokenHash.token := ⟨id, row, hget, rfl⟩
      rw [dif_pos hstored]
      obtain ⟨row', hget', htoken⟩ := hstored.choose_spec
      rw [hvalid.unique _ id row' row hget' hget (congrArg TokenHash.mk htoken)]
  · simp [World.initial]
  · simp [World.initial]
  · simp [World.initial]
  · simp [World.initial]

/-- Only an exchange that returns tokens exchanges one. -/
theorem exchangeOf_eq_some {e : Event Op Call Result} {token : Token}
    (he : exchangeOf e = some token) :
    ∃ tokens, e = .returned (.refreshTokens token) (.tokens tokens) := by
  unfold exchangeOf at he
  split at he
  · rename_i tokens
    cases he
    exact ⟨tokens, rfl⟩
  · cases he

/-- A token that is exchanged was taken and is spent from then on. -/
theorem OnePlace.finish (hinv : OnePlace place w notes) {op : Op} {a : Result} {failed : Bool}
    (hthread : w.threads i = some ⟨op, .ret a, failed⟩) :
    ∃ place', OnePlace place' ⟨w.store, w.setThread i none, .returned op a :: w.log⟩ notes := by
  obtain ⟨h, hfinal, hfits⟩ := hinv.calls i _ hthread
  have hcalls : ∀ place', Moves i place place' w.store w.store →
      ∀ j t, w.setThread i none j = some t → ∃ h, Careful t.op (Final t.op) h t.prog ∧
        Fits place' w.store (notes j) j t.op h := by
    intro place' hmoves
    apply World.forall_setThread
    · intro j hj t ht
      obtain ⟨h, hcareful, hfits⟩ := hinv.calls j t ht
      exact ⟨h, hcareful, hfits.frame hj hmoves⟩
    · rintro _ ⟨⟩
  have hanswers : ∀ token result, .returned (.refreshTokens token) result ∈
      Event.returned op a :: w.log →
        (∃ message, result = .error message) ∨ ∃ tokens, result = .tokens tokens := by
    intro token result hmem
    rcases List.mem_cons.mp hmem with heq | hmem
    · cases heq
      exact (hfinal token rfl).imp_right And.left
    · exact hinv.answers token result hmem
  cases hexchange : exchangeOf (.returned op a) with
  | none =>
      have hlog : (Event.returned op a :: w.log).filterMap exchangeOf =
          w.log.filterMap exchangeOf := List.filterMap_cons_none hexchange
      refine ⟨place, hinv.placed, hcalls place ?_, ?_, ?_, hanswers⟩
      · exact .stay (fun _ _ hrow => hrow) (Nat.le_refl _)
      · rw [hlog]
        exact hinv.spent
      · rw [hlog]
        exact hinv.once
  | some token =>
      obtain ⟨tokens, heq⟩ := exchangeOf_eq_some hexchange
      cases heq
      have hstored : h.stored = true := by
        rcases hfinal token rfl with ⟨message, hmessage⟩ | ⟨-, hstored⟩
        · cases hmessage
        · exact hstored
      have hplace : place token = .taken i := hfits.taken token rfl (hfits.paid rfl hstored)
      have hmoves : Moves i place (Function.update place token .spent) w.store w.store := by
        refine .update (by simp [hplace]) ?_ (fun _ _ _ hrow => hrow) (Nat.le_refl _)
        intro j hj
        simp [hplace, Place.WithCall, Ne.symm hj]
      have hnot : token ∉ w.log.filterMap exchangeOf := by
        intro hmem
        simp [hinv.spent token hmem] at hplace
      have hlog : (Event.returned (.refreshTokens token) (.tokens tokens) :: w.log).filterMap
          exchangeOf = token :: w.log.filterMap exchangeOf := List.filterMap_cons_some hexchange
      refine ⟨Function.update place token .spent, ⟨?_, ?_⟩, hcalls _ hmoves, ?_, ?_, hanswers⟩
      · intro token' htoken'
        have hundrawn := hinv.placed.drawn token' htoken'
        rw [update_of_place (by simp [hundrawn, hplace]), hundrawn]
      · intro id row hrow
        have hrowPlace := hinv.placed.stored id row hrow
        rw [update_of_place (by simp [hrowPlace, hplace]), hrowPlace]
      · rw [hlog]
        intro token' hmem
        rcases List.mem_cons.mp hmem with rfl | hmem
        · exact Function.update_self _ _ _
        · exact hinv.spent_of_moves hmoves token' hmem
      · rw [hlog]
        exact List.nodup_cons.mpr ⟨hnot, hinv.once⟩

/-- An allowed step keeps every token at one place. -/
theorem OnePlace.step {w' : AuthWorld} (hinv : OnePlace place w notes)
    (hallowed : System.Allows OwnRemoval (w, notes) l)
    (hstep : (authSystem cfg).Step w l w') :
    ∃ place', OnePlace place' w' ((authSystem cfg).note removal w notes l) := by
  cases hstep with
  | @start i op _ _ =>
      refine ⟨place, hinv.placed, ?_, hinv.spent, hinv.once, hinv.answers⟩
      refine World.forall_setThread
        (hinv.frame rfl (.stay (fun _ _ hrow => hrow) (Nat.le_refl _))) ?_
      rintro _ ⟨⟩
      have hnote : (authSystem cfg).note removal w notes (.start i op) i = false := by
        simp [System.note, removal]
      refine ⟨Hand.empty, careful_bodyOf op, ?_⟩
      rw [hnote]
      exact fits_empty place w.store i op
  | @exec i op c k failed hthread _ =>
      obtain ⟨h, ⟨hpermitted, hnext⟩, hfits⟩ := hinv.calls i _ hthread
      obtain ⟨place', hmoves, hplaced, hfits'⟩ := hfits.effect hinv.placed hpermitted
        (hallowed i op c k failed rfl hthread)
      refine ⟨place', hplaced, ?_, hinv.spent_of_moves hmoves, hinv.once, ?_⟩
      · refine World.forall_setThread (hinv.frame rfl hmoves) ?_
        rintro _ ⟨⟩
        refine ⟨_, hnext _, ?_⟩
        rw [System.note_exec hthread, Function.update_self]
        exact hfits'
      · simpa using hinv.answers
  | @fail i op c k failed hthread _ =>
      obtain ⟨h, ⟨hpermitted, hnext⟩, hfits⟩ := hinv.calls i _ hthread
      refine ⟨place, hinv.placed, ?_, hinv.spent, hinv.once, hinv.answers⟩
      refine World.forall_setThread
        (hinv.frame rfl (.stay (fun _ _ hrow => hrow) (Nat.le_refl _))) ?_
      rintro _ ⟨⟩
      refine ⟨_, hnext none, ?_⟩
      rw [System.note_fail hthread, Function.update_self]
      exact hfits.fail c
  | stop _ =>
      refine ⟨place, hinv.placed, ?_, hinv.spent, hinv.once, hinv.answers⟩
      refine World.forall_setThread
        (hinv.frame rfl (.stay (fun _ _ hrow => hrow) (Nat.le_refl _))) ?_
      rintro _ ⟨⟩
  | finish hthread => exact hinv.finish hthread
  | env henv =>
      obtain ⟨t, -, rfl⟩ := henv
      refine ⟨place, ⟨hinv.placed.drawn, hinv.placed.stored⟩, ?_, hinv.spent, hinv.once,
        hinv.answers⟩
      intro j t ht
      obtain ⟨h, hcareful, hfits⟩ := hinv.calls j t ht
      exact ⟨h, hcareful, hfits.held, hfits.found, hfits.taken, hfits.paid⟩

/-- No token is exchanged twice while every exchange stores a new token only after its own
deletion has removed the old one. -/
theorem singleUse_of_run {cfg : Config} {db : Database} {w : AuthWorld} {notes : Nat → Bool}
    (hvalid : db.Valid)
    (hrun : Run ((authSystem cfg).Observed removal) (System.Allows OwnRemoval)
      (World.initial db, fun _ => false) (w, notes)) : SingleUse w.log := by
  have hinv : ∃ place, OnePlace place w notes := by
    apply hrun.invariant (I := fun s => ∃ place, OnePlace place s.1 s.2)
    · exact onePlace_initial hvalid
    · rintro ⟨w, notes⟩ l ⟨w', _⟩ ⟨place, hinv⟩ hallowed ⟨hstep, rfl⟩
      exact hinv.step hallowed hstep
  obtain ⟨place, hinv⟩ := hinv
  refine ⟨hinv.once, ?_⟩
  intro later earlier token tokens hlog result hresult
  rcases hinv.answers token result (by simp [hlog, hresult]) with herror | ⟨tokens', rfl⟩
  · exact herror
  · have honce := hinv.once
    rw [hlog, List.filterMap_append] at honce
    have hlater : token ∈ later.filterMap exchangeOf :=
      List.mem_filterMap.mpr ⟨_, hresult, rfl⟩
    exact absurd rfl
      ((List.nodup_append.mp honce).2.2 token hlater token (by simp [exchangeOf]))

end Runs

/-! ## Exchanging a token twice -/

/-- The database with one refresh token of the user. -/
def oneToken : Database where
  users := twoUsers.users
  refreshTokens := Ledger.empty.add ⟨1, hashRefreshToken ⟨0⟩, refreshTokenDuration⟩
  sessions := .empty
  passwordResets := .empty
  emailVerifications := .empty
  drawn := 1
  now := 0

theorem oneToken_valid : oneToken.Valid where
  drawn := by
    intro id row hget
    have hadd : (Ledger.empty.add _).get? id = some row := hget
    rcases get?_add_cases hadd with ⟨-, rfl⟩ | hget
    · exact Nat.zero_lt_one
    · simp at hget
  unique := by
    intro id id' row row' hget hget' _
    have hadd : (Ledger.empty.add _).get? id = some row := hget
    have hadd' : (Ledger.empty.add _).get? id' = some row' := hget'
    rcases get?_add_cases hadd with ⟨rfl, -⟩ | hget
    · rcases get?_add_cases hadd' with ⟨rfl, -⟩ | hget'
      · rfl
      · simp at hget'
    · simp at hget

/-- The tokens of the user with a given serial number. -/
def tokensWith (serial : Nat) : TokenPair :=
  ⟨⟨1, "user@x".toList, accessTokenDuration⟩, ⟨serial⟩⟩

/-- The exchange of the token. -/
def exchange : Op :=
  .refreshTokens ⟨0⟩

/-- A call exchanges the token, and a second one after it is rejected. -/
theorem singleUse_exchange :
    ∃ w : AuthWorld, w.log.head? = some (.returned exchange (.error "invalid refresh token".toList)) ∧
      .returned exchange (.tokens (tokensWith 1)) ∈ w.log ∧ SingleUse w.log := by
  obtain ⟨w, notes, hsteps, htest⟩ := System.exists_of_notedSteps? (authSystem plainConfig)
    removal (System.allows OwnRemoval) (World.initial oneToken, fun _ => false)
    [aloneLabels 0 exchange 9, aloneLabels 0 exchange 1].flatten
    (fun w => w.log.head? = some (.returned exchange (.error "invalid refresh token".toList)) ∧
      .returned exchange (.tokens (tokensWith 1)) ∈ w.log) (by decide +kernel)
  obtain ⟨hrejected, hexchanged⟩ := of_decide_eq_true htest
  refine ⟨w, hrejected, hexchanged, ?_⟩
  exact singleUse_of_run oneToken_valid
    (System.observed_of_notedSteps? (fun _ _ => System.allows_sound) hsteps)

/-- Both calls find the token before the first one deletes it. -/
def bothFindLabels : List (Label Op) :=
  [[.start 0 exchange, .start 1 exchange], execs 0 3, execs 1 3, execs 0 6, [.finish 0],
    execs 1 6, [.finish 1]].flatten

/-- The deletion of the first call fails. -/
def deletionFailsLabels : List (Label Op) :=
  [[.start 0 exchange], execs 0 4, [.fail 0], execs 0 4, [.finish 0],
    aloneLabels 0 exchange 9].flatten

/-- The label is not about a failure. -/
def noFailure : Label Op → Bool
  | .fail _ => false
  | _ => true

/-- The token is exchanged twice by two overlapping calls without a failure, and by two
calls one after the other when a deletion fails. -/
theorem two_exchanges :
    (∃ w, Run (authSystem plainConfig).Step (fun _ l => ∀ i, l ≠ .fail i)
      (World.initial oneToken) w ∧ ¬SingleUse w.log) ∧
    ∃ w, Run (authSystem plainConfig).Step (fun _ l => l.thread = some 0)
      (World.initial oneToken) w ∧ ¬SingleUse w.log := by
  have hnot : ∀ w : AuthWorld, w.log.filterMap exchangeOf = [⟨0⟩, ⟨0⟩] → ¬SingleUse w.log := by
    intro w htwice hsingle
    have honce := hsingle.once
    simp [htwice] at honce
  constructor
  · obtain ⟨w, hsteps, htest⟩ := System.exists_of_steps? (authSystem plainConfig)
      (fun _ l => noFailure l)
      (World.initial oneToken) bothFindLabels
      (fun w => w.log.filterMap exchangeOf = [⟨0⟩, ⟨0⟩]) (by decide +kernel)
    refine ⟨w, System.run_of_steps? ?_ hsteps, hnot w (of_decide_eq_true htest)⟩
    rintro _ _ hcheck i rfl
    cases hcheck
  · obtain ⟨w, hsteps, htest⟩ := System.exists_of_steps? (authSystem plainConfig)
      (fun _ l => l.thread = some 0) (World.initial oneToken) deletionFailsLabels
      (fun w => w.log.filterMap exchangeOf = [⟨0⟩, ⟨0⟩]) (by decide +kernel)
    refine ⟨w, System.run_of_steps? ?_ hsteps, hnot w (of_decide_eq_true htest)⟩
    exact fun _ _ hcheck => of_decide_eq_true hcheck

end Auth
end Veilence

import Veilence.Sso.Discipline

/-!
# One e-mail address, one account

The operations that create an account store it under the normalised e-mail address: trimmed,
in lower case and without a {lit}`+` tag.  {lit}`Login` looks an account up under the normalised
address, {lit}`ForgotPassword` and {lit}`GetUserByEmail` under the address as it is given, and
the SSO callbacks under the address in lower case.  They all mean the same account if the three
spellings are one, and else only if no account is there under any of them.

Main results:

- Theorem {lit}`plainEmail_iff`: the e-mail addresses whose three spellings are one.
- Theorem {lit}`oneAccount_iff_of_run`: in every state that the creation of accounts reaches,
  the look-ups agree exactly in these cases.
-/

namespace Veilence
namespace Sso

open Go Foundation

open Auth (User normalizeEmail)

/-! ## Which account an operation means -/

/-- The account that an operation looks up first, if it looks one up: the look-up answers with
the ID, or with none. -/
def addressed {α : Type} : Body α → Database → Option (Option Nat)
  | .ret _, _ => none
  | .cmd (.auth (.findUserByEmail email)) _, db =>
      some ((db.auth.exec (.findUserByEmail email)).2.map Prod.fst)
  | .cmd c k, db => addressed (k (some (db.exec c).2)) (db.exec c).1

/-- The operations that find an account by an e-mail address, with what else they are given. -/
inductive EntryPoint where
  | login (password ipAddress userAgent : GoString)
  | forgotPassword
  | getUserByEmail
  | ssoCallback (config : SSOConfig) (u : ProviderUser) (req : Request)

/-- What such an operation does with an e-mail address; of an SSO callback the part that looks
an account up. -/
def EntryPoint.body (cfg : Config) (email : GoString) : EntryPoint → Body Result
  | .login password ipAddress userAgent => bodyOf cfg (.auth (.login email password ipAddress userAgent))
  | .forgotPassword => Sso.forgotPassword cfg email
  | .getUserByEmail => Sso.getUserByEmail email
  | .ssoCallback config u req => loginUnlinked cfg config { u with email := email } req

/-- The e-mail address for which an operation creates an account. -/
def Op.createsFor : Op → Option GoString
  | .register email _ _ _ => some email
  | .createUserWithoutPassword email _ _ => some email
  | .createUserWithPassword email _ _ _ => some email
  | .createSSOUser email _ _ => some email
  | .setupInitialize email _ _ _ => some email
  | _ => none

/-- The accounts that have been created: for which e-mail address, and the ID. -/
def creations : Recorder Database Op Call Answer Result (List (GoString × Nat)) where
  ran := fun g _ op c r =>
    match op.createsFor, c, r with
    | some email, .createUser _, some id => (email, id) :: g
    | _, _, _ => g
  returned := fun g _ _ _ => g

/-- All look-ups by an e-mail address mean the same account or find none, and an account that has
been created for the address is the one that they find. -/
structure OneAccount (cfg : Config) (db : Database) (created : List (GoString × Nat))
    (email : GoString) : Prop where
  agree : ∃ account, ∀ (p : EntryPoint) found, addressed (p.body cfg email) db = some found →
    found = account
  own : ∀ id, (email, id) ∈ created → ∀ (p : EntryPoint) found,
    addressed (p.body cfg email) db = some found → found = some id

/-- The address has no white space around it, no letters in upper case and no {lit}`+` before
the {lit}`@`. -/
def PlainEmail (cfg : Config) (email : GoString) : Prop :=
  trimSpace email = email ∧ cfg.auth.lower email = email ∧
    ('@' ∈ email → '+' ∉ email.takeWhile (· ≠ '@'))

instance (cfg : Config) (email : GoString) : Decidable (PlainEmail cfg email) :=
  inferInstanceAs (Decidable (_ ∧ _ ∧ (_ → _)))

/-- No account is there under the address, normalised, as it is given or in lower case. -/
def Unused (cfg : Config) (db : Database) (email : GoString) : Prop :=
  ∀ key ∈ [normalizeEmail cfg.auth email, email, cfg.auth.lower email], db.usersWith key = []

/-- A step in which only an operation that creates an account does something. -/
def ByCreation (_ : Database) (op : Op) (_ : Call) : Prop :=
  op.createsFor.isSome = true

instance (db : Database) (op : Op) (c : Call) : Decidable (ByCreation db op c) :=
  inferInstanceAs (Decidable (_ = true))

/-! ## The three spellings -/

/-- The normalised address is the trimmed one in lower case, without the part between the first
{lit}`+` and the first {lit}`@`. -/
theorem normalizeEmail_cases {cfg : Auth.Config} {email s : GoString}
    (hs : cfg.lower (trimSpace email) = s) :
    ('@' ∉ s ∧ normalizeEmail cfg email = s) ∨
      ('@' ∈ s ∧ normalizeEmail cfg email =
        (s.takeWhile (· ≠ '@')).takeWhile (· ≠ '+') ++ s.dropWhile (· ≠ '@')) := by
  unfold normalizeEmail
  simp only [hs, List.span_eq_takeWhile_dropWhile]
  cases hrest : s.dropWhile (· ≠ '@') with
  | nil =>
      left
      refine ⟨fun hmem => ?_, rfl⟩
      have hall := List.dropWhile_eq_nil_iff.mp hrest '@' hmem
      simp at hall
  | cons c rest =>
      right
      refine ⟨?_, rfl⟩
      by_contra hnot
      have hnil : s.dropWhile (· ≠ '@') = [] := by
        apply List.dropWhile_eq_nil_iff.mpr
        intro d hd
        simpa using fun heq : d = '@' => hnot (heq ▸ hd)
      rw [hnil] at hrest
      exact absurd hrest (by simp)

/-- Nothing is cut exactly if there is no {lit}`+` before the {lit}`@`. -/
theorem cutTag_eq_self_iff (s : GoString) :
    (s.takeWhile (· ≠ '@')).takeWhile (· ≠ '+') ++ s.dropWhile (· ≠ '@') = s ↔
      '+' ∉ s.takeWhile (· ≠ '@') := by
  have hsplit := List.takeWhile_append_dropWhile (p := (· ≠ '@')) (l := s)
  conv_lhs => rhs; rw [← hsplit]
  rw [List.append_left_inj, List.takeWhile_eq_self_iff]
  constructor
  · intro hall hplus
    simpa using hall '+' hplus
  · intro hplus c hc
    simpa using fun heq : c = '+' => hplus (heq ▸ hc)

/-- A normalised address is no longer than the trimmed one in lower case. -/
theorem length_normalizeEmail_le (cfg : Auth.Config) (email : GoString) :
    (normalizeEmail cfg email).length ≤ (cfg.lower (trimSpace email)).length := by
  have hs : cfg.lower (trimSpace email) = cfg.lower (trimSpace email) := rfl
  rcases normalizeEmail_cases hs with ⟨_, heq⟩ | ⟨_, heq⟩
  · rw [heq]
  · have hcut := (List.takeWhile_prefix (p := (· ≠ '+'))
      (l := (cfg.lower (trimSpace email)).takeWhile (· ≠ '@'))).length_le
    have hsplit := congrArg List.length (List.takeWhile_append_dropWhile (p := (· ≠ '@'))
      (l := cfg.lower (trimSpace email)))
    rw [List.length_append] at hsplit
    rw [heq, List.length_append]
    omega

/-- The three spellings of an address are one exactly if it is plain. -/
theorem plainEmail_iff {cfg : Config} {email : GoString}
    (hlower : cfg.auth.lower email = email →
      cfg.auth.lower (trimSpace email) = trimSpace email) :
    PlainEmail cfg email ↔
      normalizeEmail cfg.auth email = email ∧ cfg.auth.lower email = email := by
  constructor
  · rintro ⟨htrim, hlow, hplus⟩
    refine ⟨?_, hlow⟩
    have hs : cfg.auth.lower (trimSpace email) = email := by rw [htrim, hlow]
    rcases normalizeEmail_cases hs with ⟨_, heq⟩ | ⟨hat, heq⟩
    · exact heq
    · rw [heq]
      exact (cutTag_eq_self_iff email).mpr (hplus hat)
  · rintro ⟨hnormal, hlow⟩
    have hshort := length_normalizeEmail_le cfg.auth email
    rw [hnormal, hlower hlow] at hshort
    have htrim : trimSpace email = email :=
      (infix_trimSpace email).eq_of_length_le hshort
    refine ⟨htrim, hlow, fun hat => ?_⟩
    have hs : cfg.auth.lower (trimSpace email) = email := by rw [htrim, hlow]
    rcases normalizeEmail_cases hs with ⟨hnot, _⟩ | ⟨_, heq⟩
    · exact absurd hat hnot
    · exact (cutTag_eq_self_iff email).mp (heq.symm.trans hnormal)

/-! ## What the look-ups find -/

/-- The account that is stored under a spelling of an address. -/
def accountOf (db : Database) (key : GoString) : Option Nat :=
  (db.usersWith key).head?.map Prod.fst

/-- The e-mail addresses of the accounts differ. -/
def DistinctEmails (db : Database) : Prop :=
  ∀ id id' user user', db.auth.users.get? id = some user → db.auth.users.get? id' = some user' →
    user.email = user'.email → id = id'

theorem mem_usersWith {db : Database} {key : GoString} {id : Nat} {user : User} :
    (id, user) ∈ db.usersWith key ↔ db.auth.users.get? id = some user ∧ user.email = key := by
  simp [Database.usersWith, Table.get?_eq_some_iff]

section Lookups

variable {cfg : Config} {db : Database} {email key : GoString}

/-- No account is found where there is none. -/
theorem accountOf_eq_none_iff : accountOf db key = none ↔ db.usersWith key = [] := by
  simp [accountOf]

/-- An account that is found has the address. -/
theorem of_accountOf_eq_some {id : Nat} (hfound : accountOf db key = some id) :
    ∃ user, db.auth.users.get? id = some user ∧ user.email = key := by
  obtain ⟨⟨id', user⟩, hhead, rfl⟩ := Option.map_eq_some_iff.mp hfound
  exact ⟨user, mem_usersWith.mp (List.mem_of_mem_head? hhead)⟩

/-- The account with an address is found. -/
theorem accountOf_eq_some (hdistinct : DistinctEmails db) {id : Nat} {user : User}
    (hget : db.auth.users.get? id = some user) (hemail : user.email = key) :
    accountOf db key = some id := by
  cases hfound : accountOf db key with
  | none =>
      have hmem : (id, user) ∈ db.usersWith key := mem_usersWith.mpr ⟨hget, hemail⟩
      rw [accountOf_eq_none_iff.mp hfound] at hmem
      exact absurd hmem List.not_mem_nil
  | some id' =>
      obtain ⟨user', hget', hemail'⟩ := of_accountOf_eq_some hfound
      rw [hdistinct id' id user' user hget' hget (hemail'.trans hemail.symm)]

theorem addressed_login (password ipAddress userAgent : GoString) :
    addressed ((EntryPoint.login password ipAddress userAgent).body cfg email) db =
      some (accountOf db (normalizeEmail cfg.auth email)) :=
  rfl

theorem addressed_getUserByEmail :
    addressed (EntryPoint.getUserByEmail.body cfg email) db = some (accountOf db email) :=
  rfl

theorem addressed_ssoCallback (config : SSOConfig) (u : ProviderUser) (req : Request) :
    addressed ((EntryPoint.ssoCallback config u req).body cfg email) db =
      some (accountOf db (cfg.auth.lower email)) :=
  rfl

/-- A key is in its cooldown, or it begins one. -/
theorem allow_cases (db : Database) (key : GoString) (cooldown : Int) :
    db.exec (.allow key cooldown) = (db, false) ∨
      db.exec (.allow key cooldown) =
        ({ db with cooldowns := db.cooldowns.insert key (db.auth.now + cooldown) }, true) := by
  simp only [Database.exec]
  split_ifs
  · exact Or.inl rfl
  · exact Or.inr rfl

/-- The rate limiter looks no account up and changes none. -/
theorem addressed_heldBack {α : Type} (cfg : Config) (db : Database) (key : GoString) (f : Bool → Body α) :
    ∃ db' held, db'.auth = db.auth ∧
      addressed (heldBack cfg key >>= f) db = addressed (f held) db' := by
  unfold heldBack
  by_cases hlimited : cfg.rateLimiter = true
  · rw [if_pos hlimited, Prog.bind_assoc]
    have hsend : ∀ k : Option Bool → Body α, addressed (send (.allow key emailCooldown) >>= k) db =
        addressed (k (some (db.exec (.allow key emailCooldown)).2))
          (db.exec (.allow key emailCooldown)).1 := fun _ => rfl
    rw [hsend]
    rcases allow_cases db key emailCooldown with hheld | hpass
    · rw [hheld]
      exact ⟨db, true, rfl, rfl⟩
    · rw [hpass]
      exact ⟨{ db with cooldowns := db.cooldowns.insert key (db.auth.now + emailCooldown) },
        false, rfl, rfl⟩
  · rw [if_neg hlimited]
    exact ⟨db, false, rfl, rfl⟩

/-- A request for a new password is held back, or it looks the address up as it is. -/
theorem addressed_forgotPassword {found : Option Nat}
    (hfound : addressed (EntryPoint.forgotPassword.body cfg email) db = some found) :
    found = accountOf db email := by
  unfold EntryPoint.body forgotPassword at hfound
  obtain ⟨db', held, hauth, heq⟩ := addressed_heldBack cfg db
    ("password_reset:".toList ++ email) _
  rw [heq] at hfound
  cases held with
  | true => exact absurd hfound (by simp [addressed])
  | false =>
      obtain rfl := Option.some.inj hfound
      unfold accountOf Database.usersWith
      rw [← hauth]
      rfl

/-- The spellings under which the look-ups search. -/
theorem addressed_cases (p : EntryPoint) {found : Option Nat}
    (hfound : addressed (p.body cfg email) db = some found) :
    found = accountOf db (normalizeEmail cfg.auth email) ∨ found = accountOf db email ∨
      found = accountOf db (cfg.auth.lower email) := by
  cases p with
  | login password ipAddress userAgent =>
      exact Or.inl (Option.some.inj hfound).symm
  | forgotPassword =>
      exact Or.inr (Or.inl (addressed_forgotPassword hfound))
  | getUserByEmail => exact Or.inr (Or.inl (Option.some.inj hfound).symm)
  | ssoCallback config u req => exact Or.inr (Or.inr (Option.some.inj hfound).symm)

/-- The look-ups agree exactly if the three spellings are one or no account is there under
any of them. -/
theorem agree_iff :
    (∃ account, ∀ (p : EntryPoint) found, addressed (p.body cfg email) db = some found →
      found = account) ↔
      (normalizeEmail cfg.auth email = email ∧ cfg.auth.lower email = email) ∨
        Unused cfg db email := by
  constructor
  · rintro ⟨account, hagree⟩
    have hnormal : accountOf db (normalizeEmail cfg.auth email) = account :=
      hagree (.login [] [] []) _ (addressed_login [] [] [])
    have hgiven : accountOf db email = account := hagree .getUserByEmail _ addressed_getUserByEmail
    have hlow : accountOf db (cfg.auth.lower email) = account :=
      hagree (.ssoCallback googleSignIn ⟨.google, [], [], [], []⟩ ⟨[], [], []⟩) _
        (addressed_ssoCallback _ _ _)
    cases account with
    | none =>
        right
        intro key hkey
        simp only [List.mem_cons, List.not_mem_nil, or_false] at hkey
        rcases hkey with rfl | rfl | rfl
        · exact accountOf_eq_none_iff.mp hnormal
        · exact accountOf_eq_none_iff.mp hgiven
        · exact accountOf_eq_none_iff.mp hlow
    | some id =>
        -- one account has one address, so the spellings under which it is found are one
        left
        obtain ⟨user, hget, hemail⟩ := of_accountOf_eq_some hnormal
        obtain ⟨user', hget', hemail'⟩ := of_accountOf_eq_some hgiven
        obtain ⟨user'', hget'', hemail''⟩ := of_accountOf_eq_some hlow
        obtain rfl := Option.some.inj (hget.symm.trans hget')
        obtain rfl := Option.some.inj (hget.symm.trans hget'')
        exact ⟨hemail.symm.trans hemail', hemail''.symm.trans hemail'⟩
  · rintro (⟨hnormal, hlow⟩ | hunused)
    · refine ⟨accountOf db email, fun p found hfound => ?_⟩
      have hcases := addressed_cases p hfound
      rw [hnormal, hlow] at hcases
      tauto
    · refine ⟨none, fun p found hfound => ?_⟩
      rcases addressed_cases p hfound with rfl | rfl | rfl
      · exact accountOf_eq_none_iff.mpr (hunused _ (by simp))
      · exact accountOf_eq_none_iff.mpr (hunused _ (by simp))
      · exact accountOf_eq_none_iff.mpr (hunused _ (by simp))

end Lookups

/-! ## The accounts that are created -/

/-- The accounts have different addresses, and the account that has been created for an address
is stored under the normalised one. -/
structure Stored (cfg : Config) (db : Database) (created : List (GoString × Nat)) : Prop where
  distinct : DistinctEmails db
  normalized : ∀ email id, (email, id) ∈ created →
    ∃ user, db.auth.users.get? id = some user ∧ user.email = normalizeEmail cfg.auth email

/-- A creation stores an account under the normalised address and writes no other user row. -/
def storing (cfg : Config) : Outline Database Op Call Answer Result (List (GoString × Nat)) where
  permitted := fun op _ c =>
    ∀ email, op.createsFor = some email →
      match c with
      | .createUser user => user.email = normalizeEmail cfg.auth email
      | .auth (.updateUser _ _) => False
      | _ => True
  result := fun _ _ _ => True
  inv := Stored cfg
  grows := fun _ _ _ _ => True
  fact := fun _ _ _ _ => True

section Creations

variable {cfg : Config} {op : Op} {m : Answers}

/-- An operation that creates accounts for an address. -/
theorem lenient_storing (cfg : Config) (op : Op) :
    Lenient (storing cfg).permitted op anything where
  command := by
    intro m c hc email _
    cases c with
    | createUser user => exact absurd hc (by simp [Call.guarded])
    | auth c =>
        cases c with
        | updateUser id user => exact absurd hc (by simp [Call.guarded])
        | _ => trivial
    | _ => trivial
  result := fun _ _ _ => trivial

/-- What such an operation may create. -/
theorem mayCreate_storing {email : GoString} (hop : op.createsFor = some email) :
    MayCreate cfg (storing cfg).permitted op email := by
  intro m user huser email' hemail'
  obtain rfl := Option.some.inj (hop.symm.trans hemail')
  exact huser

/-- Every operation creates accounts under the normalised address. -/
theorem safe_storing (cfg : Config) (op : Op) :
    Safe (storing cfg).permitted op ((storing cfg).result op) [] ((ssoSystem cfg).body op) := by
  have hlenient := lenient_storing cfg op
  have hothers : op.createsFor = none →
      Safe (storing cfg).permitted op anything [] (bodyOf cfg op) := by
    intro hop
    exact safe_of_forall (fun _ _ email hemail => absurd (hop.symm.trans hemail) (by simp)) _
  have hpart : ∀ {α : Type} {p : Body α}, Safe (storing cfg).permitted op anything [] p →
      ∀ f : α → Result, Safe (storing cfg).permitted op anything [] (p >>= fun a => .ret (f a)) :=
    fun hp _ => hp.bind fun _ _ _ => trivial
  cases op with
  | register email password firstName lastName =>
      exact safe_register hlenient (mayCreate_storing rfl) _ _ _
  | createUserWithoutPassword email firstName lastName =>
      exact hpart (safe_createUserWithoutPassword hlenient.command (mayCreate_storing rfl) _ _) _
  | createUserWithPassword email firstName lastName password =>
      exact hpart (safe_createUserWithPassword hlenient.command (mayCreate_storing rfl) _ _ _) _
  | createSSOUser email firstName lastName =>
      exact hpart (safe_createSSOUser hlenient.command (mayCreate_storing rfl) _ _) _
  | setupInitialize email password firstName lastName =>
      exact safe_setupInitialize hlenient (mayCreate_storing rfl) (fun _ _ _ => trivial) _ _ _
  | _ => exact hothers rfl

end Creations

/-- Only the creation of an account and the {lit}`Update` of the auth service change user rows. -/
theorem users_of_exec (db : Database) {c : Call} (hcreate : ∀ user, c ≠ .createUser user)
    (hupdate : ∀ id user, c ≠ .auth (.updateUser id user)) :
    (db.exec c).1.auth.users = db.auth.users := by
  cases c with
  | auth c => exact Auth.users_of_exec db.auth fun id user heq => hupdate id user (heq ▸ rfl)
  | createUser user => exact absurd rfl (hcreate user)
  | allow key cooldown =>
      simp only [Database.exec]
      split_ifs <;> rfl
  | createPasswordReset row =>
      simp only [Database.exec]
      split_ifs <;> rfl
  | createEmailVerification row =>
      simp only [Database.exec]
      split_ifs <;> rfl
  | createIdentity identity =>
      simp only [Database.exec]
      split_ifs <;> rfl
  | updateIdentity id identity =>
      simp only [Database.exec]
      split_ifs <;> rfl
  | _ => rfl

section Rows

variable {cfg : Config} {db db' : Database} {created : List (GoString × Nat)}

/-- The same user rows. -/
theorem Stored.congr (hstored : Stored cfg db created) (husers : db'.auth.users = db.auth.users) :
    Stored cfg db' created := by
  refine ⟨?_, ?_⟩
  · unfold DistinctEmails
    rw [husers]
    exact hstored.distinct
  · rw [husers]
    exact hstored.normalized

/-- The unique index accepts an address that no account has. -/
theorem ne_of_acceptsUser {user : User} (haccepts : db.acceptsUser user = true) {id : Nat}
    {other : User} (hget : db.auth.users.get? id = some other) : other.email ≠ user.email := by
  intro hemail
  have hmem : (id, other) ∈ db.usersWith user.email := mem_usersWith.mpr ⟨hget, hemail⟩
  have hnone : db.usersWith user.email = [] := by
    simp only [Database.acceptsUser, Bool.and_eq_true] at haccepts
    exact List.isEmpty_iff.mp haccepts.2
  rw [hnone] at hmem
  exact List.not_mem_nil hmem

/-- A new account has an address of its own. -/
theorem Stored.create (hstored : Stored cfg db created) {user : User} {email : GoString}
    (haccepts : db.acceptsUser user = true)
    (huser : user.email = normalizeEmail cfg.auth email) :
    Stored cfg (db.withUser user) ((email, db.auth.users.freshKey) :: created) := by
  have hget : ∀ id, (db.withUser user).auth.users.get? id =
      if id = db.auth.users.freshKey then some user else db.auth.users.get? id :=
    Table.get?_insert db.auth.users db.auth.users.freshKey user
  refine ⟨?_, ?_⟩
  · intro id id' u u' hu hu' hemail
    rw [hget] at hu hu'
    split_ifs at hu hu' with hid hid' hid'
    · rw [hid, hid']
    · obtain rfl := Option.some.inj hu
      exact absurd hemail.symm (ne_of_acceptsUser haccepts hu')
    · obtain rfl := Option.some.inj hu'
      exact absurd hemail (ne_of_acceptsUser haccepts hu)
    · exact hstored.distinct id id' u u' hu hu' hemail
  · intro email' id hmem
    rw [hget]
    rcases List.mem_cons.mp hmem with heq | hmem
    · obtain ⟨rfl, rfl⟩ := Prod.mk.inj heq
      exact ⟨user, if_pos rfl, huser⟩
    · obtain ⟨user', hget', hemail⟩ := hstored.normalized email' id hmem
      refine ⟨user', ?_, hemail⟩
      rw [if_neg, hget']
      rintro rfl
      exact absurd hget' (by simp)

end Rows

/-- The creation of accounts keeps the addresses apart and records where they are. -/
theorem sound_storing (cfg : Config) :
    (storing cfg).Sound (ssoSystem cfg) creations ByCreation where
  refl := fun _ _ => trivial
  trans := fun _ _ _ _ _ _ _ _ => trivial
  stable := fun _ _ _ _ _ _ _ _ => trivial
  safe := safe_storing cfg
  exec := by
    intro db g op m c hinv _ hpermitted hallowed
    refine ⟨⟨?_, trivial⟩, trivial⟩
    obtain ⟨email, hop⟩ := Option.isSome_iff_exists.mp hallowed
    have hsent := hpermitted email hop
    change Stored cfg (db.exec c).1 (creations.ran g db op c (db.exec c).2)
    by_cases hcreate : ∃ user, c = .createUser user
    · obtain ⟨user, rfl⟩ := hcreate
      rcases createUser_cases db user with ⟨haccepts, hexec⟩ | ⟨_, hexec⟩
      · rw [hexec]
        simp only [creations, hop]
        exact Stored.create hinv haccepts hsent
      · rw [hexec]
        simp only [creations, hop]
        exact hinv
    · have hnew : creations.ran g db op c (db.exec c).2 = g := by
        simp only [creations, hop]
        cases c with
        | createUser user => exact absurd ⟨user, rfl⟩ hcreate
        | _ => rfl
      rw [hnew]
      apply Stored.congr hinv
      apply users_of_exec
      · exact fun user heq => hcreate ⟨user, heq⟩
      · rintro id user rfl
        exact hsent
  begins := fun _ _ _ hinv _ => ⟨hinv, trivial⟩
  finish := fun _ _ _ _ _ hinv _ _ => ⟨hinv, trivial⟩
  stop := fun _ _ _ hinv => ⟨hinv, trivial⟩
  env := by
    rintro db g _ hinv ⟨t, _, rfl⟩
    exact ⟨Stored.congr hinv rfl, trivial⟩

/-! ## One account for an address -/

/-- In every state that the creation of accounts reaches, the look-ups by an address agree, and
find the account that has been created for it, exactly if the address is plain or no account is
there under any of its spellings. -/
theorem oneAccount_iff_of_run {cfg : Config}
    (hlower : ∀ s, cfg.auth.lower s = s → cfg.auth.lower (trimSpace s) = trimSpace s)
    {db : Database} (hdistinct : DistinctEmails db) {w : SsoWorld}
    {created : List (GoString × Nat)}
    (hrun : Run ((ssoSystem cfg).Tracked ((ssoSystem cfg).record creations))
      (fun s l => System.Admits ByCreation s.1 l) (World.initial db, []) (w, created))
    (email : GoString) :
    OneAccount cfg w.store created email ↔ PlainEmail cfg email ∨ Unused cfg w.store email := by
  have hstored : Stored cfg w.store created :=
    (sound_storing cfg).invariant (fun _ _ hl => hl) hrun ⟨hdistinct, by simp⟩
  rw [plainEmail_iff (hlower email)]
  constructor
  · exact fun hone => agree_iff.mp hone.agree
  · intro hcases
    refine ⟨agree_iff.mpr hcases, fun id hmem p found hfound => ?_⟩
    obtain ⟨user, hget, hemail⟩ := hstored.normalized email id hmem
    rcases hcases with ⟨hnormal, hlow⟩ | hunused
    · rw [hnormal] at hemail
      have hfinds : accountOf w.store email = some id :=
        accountOf_eq_some hstored.distinct hget hemail
      have hcases := addressed_cases p hfound
      rw [hnormal, hlow, hfinds] at hcases
      tauto
    · -- an account that has been created is there under the normalised address
      have hnone := hunused _ List.mem_cons_self
      have hin := mem_usersWith.mpr ⟨hget, hemail⟩
      rw [hnone] at hin
      exact absurd hin List.not_mem_nil

/-- Somebody registers. -/
def registration (email : String) : Op :=
  .register email.toList "password-c".toList [] []

theorem distinctEmails_twoAccounts : DistinctEmails twoAccounts := by
  have hentries : ∀ e ∈ twoAccounts.auth.users.entries, ∀ e' ∈ twoAccounts.auth.users.entries,
      e.2.email = e'.2.email → e.1 = e'.1 := by decide +kernel
  intro id id' user user' hget hget' hemail
  exact hentries _ (Table.get?_eq_some_iff.mp hget) _ (Table.get?_eq_some_iff.mp hget') hemail

/-- Lower case is kept when a text is trimmed. -/
theorem lower_signInConfig (s : GoString) (hs : signInConfig.auth.lower s = s) :
    signInConfig.auth.lower (trimSpace s) = trimSpace s :=
  toLower_of_infix hs (infix_trimSpace s)

/-- The look-ups find the account that has been registered under a plain address. -/
theorem oneAccount_of_run_registration :
    ∃ (w : SsoWorld) (created : List (GoString × Nat)), created = [("c@x".toList, 2)] ∧
      OneAccount signInConfig w.store created "c@x".toList := by
  obtain ⟨w, created, hsteps, htest⟩ := System.exists_of_trackedSteps? (ssoSystem signInConfig)
    ((ssoSystem signInConfig).record creations) (fun s l => System.admits ByCreation s.1 l)
    (World.initial twoAccounts, []) (Label.alone 0 (registration "c@x") 3)
    (fun s => s.2 = [("c@x".toList, 2)]) (by decide +kernel)
  refine ⟨w, created, of_decide_eq_true htest, ?_⟩
  have hrun := System.tracked_of_trackedSteps? (fun _ _ => System.admits_sound) hsteps
  exact (oneAccount_iff_of_run lower_signInConfig distinctEmails_twoAccounts hrun _).mpr
    (Or.inl (by decide +kernel))

/-- An account that is registered with a tag is found by a login with the same address, but
neither by {lit}`ForgotPassword` nor by {lit}`GetUserByEmail`. -/
theorem tagged_account :
    ∃ (w : SsoWorld) (created : List (GoString × Nat)),
      Run ((ssoSystem signInConfig).Tracked ((ssoSystem signInConfig).record creations))
        (fun s l => System.Admits ByCreation s.1 l) (World.initial twoAccounts, []) (w, created) ∧
      created = [("c+news@x".toList, 2)] ∧
      ¬OneAccount signInConfig w.store created "c+news@x".toList ∧
      addressed ((EntryPoint.login [] [] []).body signInConfig "c+news@x".toList) w.store =
        some (some 2) ∧
      addressed (EntryPoint.forgotPassword.body signInConfig "c+news@x".toList) w.store =
        some none ∧
      addressed (EntryPoint.getUserByEmail.body signInConfig "c+news@x".toList) w.store =
        some none := by
  obtain ⟨w, created, hsteps, htest⟩ := System.exists_of_trackedSteps? (ssoSystem signInConfig)
    ((ssoSystem signInConfig).record creations) (fun s l => System.admits ByCreation s.1 l)
    (World.initial twoAccounts, []) (Label.alone 0 (registration "c+news@x") 3)
    (fun s => s.2 = [("c+news@x".toList, 2)] ∧
      addressed ((EntryPoint.login [] [] []).body signInConfig "c+news@x".toList) s.1.store =
        some (some 2) ∧
      addressed (EntryPoint.forgotPassword.body signInConfig "c+news@x".toList) s.1.store =
        some none ∧
      addressed (EntryPoint.getUserByEmail.body signInConfig "c+news@x".toList) s.1.store =
        some none) (by decide +kernel)
  obtain ⟨hcreated, hlogin, hforgot, hget⟩ := of_decide_eq_true htest
  refine ⟨w, created, System.tracked_of_trackedSteps? (fun _ _ => System.admits_sound) hsteps,
    hcreated, ?_, hlogin, hforgot, hget⟩
  rintro ⟨⟨account, hagree⟩, _⟩
  have hfirst := hagree _ _ hlogin
  have hsecond := hagree _ _ hget
  simp [← hfirst] at hsecond

end Sso
end Veilence

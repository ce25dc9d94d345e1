import Veilence.Audit.Service
import Veilence.Foundation.Sequential
import Veilence.Foundation.Transition
import Veilence.Rbac.Access
import Veilence.Settings.Database
import Veilence.Sso.Database

/-!
# The administration of single sign-on

The operations that administer the configurations of single sign-on, and the setting of the login
with a password.  They check a configuration, and then write one row after another without a
transaction, so that every call of a repository may be the first one that fails.

The login with a password can be disabled only while a configuration is enabled.  Nothing checks
that when a configuration is disabled or deleted later.

Main results:

- Theorem {lit}`keeps_bodyOf`: what the writes of an operation preserve, the operation preserves.
- Theorem {lit}`wellKept_of_run`: in every run all configurations are valid, their domains are
  allowed, and no provider has two of them.
- Theorem {lit}`wayIn_of_run`: in every run in which no operation takes the last enabled
  configuration away while the login with a password is disabled, there is a way to sign in.
-/

namespace Veilence
namespace Sso
namespace Configs

open Go Foundation

open Audit (fitsText)
open Auth (fitsColumn)

/-! ## Configurations -/

/-- A configuration, with any text as its provider. -/
structure SSOConfig where
  provider : GoString
  displayName : GoString
  isEnabled : Bool
  allowedDomains : List GoString
  autoCreateUser : Bool
  samlEntityID : GoString
  samlSsoURL : GoString
  samlCertificate : GoString
  samlAttrEmail : GoString
  samlAttrFirstName : GoString
  samlAttrLastName : GoString
  oauthClientID : GoString
  oauthClientSecret : GoString
  googleHostedDomain : GoString
  gitHubOrgs : List GoString
deriving DecidableEq

/-- What is wrong with a configuration. -/
inductive Invalid where
  | provider (provider : GoString)
  | domainsRequired
  | samlEntityID
  | samlSsoURL
  | samlCertificate
  | oauthClientID
  | oauthClientSecret
  | emptyDomain
  | protocol (domain : GoString)
  | path (domain : GoString)
deriving DecidableEq

namespace SSOConfig

/-- {lit}`SetDefaults`. -/
def setDefaults (c : SSOConfig) : SSOConfig :=
  if c.provider = Provider.saml.name then
    { c with
      samlAttrEmail := if c.samlAttrEmail = [] then "email".toList else c.samlAttrEmail
      samlAttrFirstName :=
        if c.samlAttrFirstName = [] then "firstName".toList else c.samlAttrFirstName
      samlAttrLastName :=
        if c.samlAttrLastName = [] then "lastName".toList else c.samlAttrLastName }
  else c

/-- What is wrong with an allowed domain. -/
def domainError (d : GoString) : Option Invalid :=
  if d = [] then some .emptyDomain
  else if "://".toList <:+: d then some (.protocol d)
  else if '/' ∈ d then some (.path d)
  else none

/-- The field that the provider needs and that is empty. -/
def missingField (c : SSOConfig) : Option Invalid :=
  if c.provider = Provider.saml.name then
    if c.samlEntityID = [] then some .samlEntityID
    else if c.samlSsoURL = [] then some .samlSsoURL
    else if c.samlCertificate = [] then some .samlCertificate
    else none
  else if c.oauthClientID = [] then some .oauthClientID
  else if c.oauthClientSecret = [] then some .oauthClientSecret
  else none

/-- {lit}`Validate`. -/
def validate (c : SSOConfig) : Option Invalid :=
  if c.provider ∉ [Provider.saml.name, Provider.google.name, Provider.github.name] then
    some (.provider c.provider)
  else if c.autoCreateUser = true ∧ c.allowedDomains = [] then some .domainsRequired
  else c.missingField.or (c.allowedDomains.findSome? domainError)

end SSOConfig

/-- {lit}`validateConfigDomainsSubset`: a domain that the platform does not allow. -/
def validateConfigDomainsSubset (cfg : Rbac.Config) (configDomains : List GoString) :
    Option GoString :=
  if cfg.allowedEmailDomains = [] then none
  else
    configDomains.find? fun d =>
      Rbac.normalizeDomain cfg d ∉ cfg.allowedEmailDomains.map (Rbac.normalizeDomain cfg)

/-! ## The database -/

/-- The tables; configurations are filed under their IDs. -/
structure Database where
  configs : Table Nat SSOConfig
  identities : Ledger UserIdentity
  settings : Settings.Database

/-- The columns and the unique indexes accept a configuration under an ID. -/
def Database.accepts (db : Database) (id : Nat) (c : SSOConfig) : Bool :=
  fitsColumn 20 c.provider && fitsColumn 100 c.displayName && fitsText c.samlEntityID &&
    fitsText c.samlSsoURL && fitsText c.samlCertificate && fitsColumn 100 c.samlAttrEmail &&
    fitsColumn 100 c.samlAttrFirstName && fitsColumn 100 c.samlAttrLastName &&
    fitsColumn 255 c.oauthClientID && fitsColumn 255 c.googleHostedDomain &&
    db.configs.entries.all fun e =>
      e.1 = id || (e.2.provider ≠ c.provider &&
        (c.oauthClientID = [] || e.2.oauthClientID ≠ c.oauthClientID))

/-- The calls of the repositories. -/
inductive Call where
  | findEnabled
  | findByProvider (provider : GoString)
  | findByID (id : Nat)
  | create (config : SSOConfig)
  | update (id : Nat) (config : SSOConfig)
  | delete (id : Nat)
  | deleteByProvider (provider : GoString)
  | upsertPlatformSetting (key value : GoString)

/-- What a call answers; a {lit}`Bool` says whether the row has been accepted or found. -/
abbrev Answer : Call → Type
  | .findEnabled => List (Nat × SSOConfig)
  | .findByProvider _ => Option (Nat × SSOConfig)
  | .findByID _ => Option SSOConfig
  | .create _ | .update _ _ | .delete _ => Bool
  | .deleteByProvider _ | .upsertPlatformSetting _ _ => Unit

/-- Carry out a call.  {lit}`Update` saves a record, which inserts a row if there is none. -/
def Database.exec (db : Database) : (c : Call) → Database × Answer c
  | .findEnabled => (db, db.configs.entries.filter fun e => e.2.isEnabled)
  | .findByProvider provider => (db, db.configs.entries.find? fun e => e.2.provider = provider)
  | .findByID id => (db, db.configs.get? id)
  | .create config =>
      if db.accepts db.configs.freshKey config then
        ({ db with configs := db.configs.insert db.configs.freshKey config }, true)
      else (db, false)
  | .update id config =>
      if db.accepts id config then ({ db with configs := db.configs.insert id config }, true)
      else (db, false)
  | .delete id => ({ db with configs := db.configs.erase id }, (db.configs.get? id).isSome)
  | .deleteByProvider provider =>
      ({ db with identities := db.identities.removeWhere fun i => i.provider.name = provider }, ())
  | .upsertPlatformSetting key value =>
      ({ db with settings := db.settings.upsert none key value }, ())

/-- The repositories; every call may fail. -/
def machine : Machine Database Call Answer :=
  ⟨Database.exec, fun _ => true⟩

/-! ## The service -/

/-- How an operation fails. -/
inductive Failure where
  | invalid (reason : Invalid)
  | domainNotAllowed (domain : GoString)
  | noEnabledProvider
  | configExists
  | wrapped (context : GoString)
deriving DecidableEq

/-- A part of an operation. -/
abbrev Body : Type := Prog Call Answer (Except Failure Unit)

/-- A single call. -/
abbrev send (c : Call) : Prog Call Answer (Option (Answer c)) :=
  Prog.call c

/-- The key of the login with a password. -/
def passwordLoginEnabled : GoString :=
  "auth.password_login_enabled".toList

/-- The value that {lit}`UpdateAuthSettings` stores. -/
def passwordVal (enabled : Bool) : GoString :=
  if enabled then "true".toList else "false".toList

/-- {lit}`UpdateAuthSettings` from the storing of the setting on. -/
def storePasswordLogin (enabled : Bool) : Body := do
  match ← send (.upsertPlatformSetting passwordLoginEnabled (passwordVal enabled)) with
  | none => return .error (.wrapped "UpdateAuthSettings: ".toList)
  | some _ => return .ok ()

/-- {lit}`UpdateAuthSettings`. -/
def updateAuthSettings (enabled : Bool) : Body :=
  if enabled = true then storePasswordLogin true
  else do
    match ← send .findEnabled with
    | none => return .error (.wrapped "UpdateAuthSettings: ".toList)
    | some configs =>
        if configs = [] then return .error .noEnabledProvider
        else storePasswordLogin false

/-- The checks that a configuration passes before it is stored. -/
def checked (cfg : Rbac.Config) (config : SSOConfig) (store : SSOConfig → Body) : Body :=
  match config.setDefaults.validate with
  | some reason => .ret (.error (.invalid reason))
  | none =>
      match validateConfigDomainsSubset cfg config.setDefaults.allowedDomains with
      | some domain => .ret (.error (.domainNotAllowed domain))
      | none => store config.setDefaults

/-- {lit}`CreateSSOConfig`. -/
def createSSOConfig (cfg : Rbac.Config) (config : SSOConfig) : Body :=
  checked cfg config fun config => do
    match ← send (.findByProvider config.provider) with
    | none => return .error (.wrapped "CreateSSOConfig: checking existing provider: ".toList)
    | some (some _) => return .error .configExists
    | some none =>
        match ← send (.create config) with
        | some true => return .ok ()
        | _ => return .error (.wrapped "CreateSSOConfig: ".toList)

/-- {lit}`UpdateSSOConfig`. -/
def updateSSOConfig (cfg : Rbac.Config) (id : Nat) (config : SSOConfig) : Body :=
  checked cfg config fun config => do
    match ← send (.update id config) with
    | some true => return .ok ()
    | _ => return .error (.wrapped "UpdateSSOConfig: ".toList)

/-- {lit}`DeleteSSOConfig`: the configuration first, and then the identities of its provider. -/
def deleteSSOConfig (id : Nat) : Body := do
  match ← send (.findByID id) with
  | some (some config) =>
      match ← send (.delete id) with
      | some true =>
          match ← send (.deleteByProvider config.provider) with
          | some _ => return .ok ()
          | none =>
              return .error (.wrapped "DeleteSSOConfig: removing linked identities: ".toList)
      | _ => return .error (.wrapped "DeleteSSOConfig: ".toList)
  | _ => return .error (.wrapped "DeleteSSOConfig: finding config: ".toList)

/-- The operations. -/
inductive Op where
  | updateAuthSettings (enabled : Bool)
  | createSSOConfig (config : SSOConfig)
  | updateSSOConfig (id : Nat) (config : SSOConfig)
  | deleteSSOConfig (id : Nat)

/-- The body of an operation. -/
def bodyOf (cfg : Rbac.Config) : Op → Body
  | .updateAuthSettings enabled => Configs.updateAuthSettings enabled
  | .createSSOConfig config => Configs.createSSOConfig cfg config
  | .updateSSOConfig id config => Configs.updateSSOConfig cfg id config
  | .deleteSSOConfig id => Configs.deleteSSOConfig id

/-- One operation after another; any calls of an operation may fail. -/
def Step (cfg : Rbac.Config) (db : Database) (op : Op) (db' : Database) : Prop :=
  ∃ result, machine.Steps (bodyOf cfg op) db (.ret result) db'

/-! ## What an operation writes -/

/-- The checks let the configuration pass. -/
structure Checked (cfg : Rbac.Config) (c : SSOConfig) : Prop where
  validate : c.validate = none
  domains : validateConfigDomainsSubset cfg c.allowedDomains = none

/-- A configuration is enabled. -/
def Database.SomeEnabled (db : Database) : Prop :=
  ∃ id c, db.configs.get? id = some c ∧ c.isEnabled = true

/-- The writes of an operation, with what it has made sure of before. -/
inductive Writes (cfg : Rbac.Config) (db : Database) : Op → Call → Prop where
  | setting {enabled : Bool} (henabled : enabled = true ∨ db.SomeEnabled) :
      Writes cfg db (.updateAuthSettings enabled)
        (.upsertPlatformSetting passwordLoginEnabled (passwordVal enabled))
  | create {config : SSOConfig} (hchecked : Checked cfg config.setDefaults) :
      Writes cfg db (.createSSOConfig config) (.create config.setDefaults)
  | update {id : Nat} {config : SSOConfig} (hchecked : Checked cfg config.setDefaults) :
      Writes cfg db (.updateSSOConfig id config) (.update id config.setDefaults)
  | delete (id : Nat) : Writes cfg db (.deleteSSOConfig id) (.delete id)
  | deleteByProvider (id : Nat) (provider : GoString) :
      Writes cfg db (.deleteSSOConfig id) (.deleteByProvider provider)

section Keeping

variable {cfg : Rbac.Config} {db : Database} {I : Database → Prop}

/-- The property holds at every moment of a part of an operation. -/
def Keeps (I : Database → Prop) (p : Body) (db : Database) : Prop :=
  machine.Always I (fun db _ => I db) p db

theorem keeps_ret (hinv : I db) (result : Except Failure Unit) : Keeps I (.ret result) db :=
  ⟨hinv, hinv⟩

/-- A call, with what follows it or its failure. -/
theorem keeps_call {c : Call} {f : Option (Answer c) → Body} (hinv : I db)
    (hok : Keeps I (f (some (db.exec c).2)) (db.exec c).1) (hfail : Keeps I (f none) db) :
    Keeps I (send c >>= f) db :=
  ⟨hinv, hok, fun _ => hfail⟩

/-- The last call of an operation. -/
theorem keeps_last {c : Call} {f : Option (Answer c) → Body} (hinv : I db)
    (hwrite : I (db.exec c).1) (hf : ∀ answer, ∃ result, f answer = .ret result) :
    Keeps I (send c >>= f) db := by
  obtain ⟨result, hok⟩ := hf (some (db.exec c).2)
  obtain ⟨message, hfail⟩ := hf none
  apply keeps_call hinv
  · rw [hok]
    exact keeps_ret hwrite result
  · rw [hfail]
    exact keeps_ret hinv message

/-- Behind the checks a configuration has passed them. -/
theorem keeps_checked {config : SSOConfig} {store : SSOConfig → Body} (hinv : I db)
    (hstore : Checked cfg config.setDefaults → Keeps I (store config.setDefaults) db) :
    Keeps I (checked cfg config store) db := by
  unfold checked
  cases hvalid : config.setDefaults.validate with
  | some reason => exact keeps_ret hinv _
  | none =>
      dsimp only
      cases hdomains : validateConfigDomainsSubset cfg config.setDefaults.allowedDomains with
      | some domain => exact keeps_ret hinv _
      | none => exact hstore ⟨hvalid, hdomains⟩

/-- The property survives the writes of the operation. -/
def SurvivesWrites (cfg : Rbac.Config) (I : Database → Prop) (op : Op) : Prop :=
  ∀ db c, I db → Writes cfg db op c → I (db.exec c).1

theorem keeps_storePasswordLogin {enabled : Bool}
    (hkeep : SurvivesWrites cfg I (.updateAuthSettings enabled)) (hinv : I db)
    (henabled : enabled = true ∨ db.SomeEnabled) : Keeps I (storePasswordLogin enabled) db := by
  apply keeps_last hinv (hkeep _ _ hinv (.setting henabled))
  intro answer
  cases answer with
  | none => exact ⟨_, rfl⟩
  | some _ => exact ⟨_, rfl⟩

theorem keeps_updateAuthSettings (enabled : Bool)
    (hkeep : SurvivesWrites cfg I (.updateAuthSettings enabled)) (hinv : I db) :
    Keeps I (updateAuthSettings enabled) db := by
  unfold updateAuthSettings
  cases enabled with
  | true => exact keeps_storePasswordLogin hkeep hinv (.inl rfl)
  | false =>
      rw [if_neg Bool.false_ne_true]
      apply keeps_call hinv
      · dsimp only [Database.exec]
        split_ifs with hnone
        · exact keeps_ret hinv _
        · obtain ⟨⟨id, c⟩, hmem⟩ := List.exists_mem_of_ne_nil _ hnone
          obtain ⟨hentry, henabled⟩ := List.mem_filter.mp hmem
          exact keeps_storePasswordLogin hkeep hinv
            (.inr ⟨id, c, Table.get?_eq_some_iff.mpr hentry, henabled⟩)
      · exact keeps_ret hinv _

theorem keeps_createSSOConfig (config : SSOConfig)
    (hkeep : SurvivesWrites cfg I (.createSSOConfig config)) (hinv : I db) :
    Keeps I (createSSOConfig cfg config) db := by
  apply keeps_checked hinv
  intro hchecked
  apply keeps_call hinv
  · dsimp only [Database.exec]
    split
    · exact keeps_ret hinv _
    · exact keeps_ret hinv _
    · apply keeps_last hinv (hkeep _ _ hinv (.create hchecked))
      intro answer
      rcases answer with _ | _ | _
      · exact ⟨_, rfl⟩
      · exact ⟨_, rfl⟩
      · exact ⟨_, rfl⟩
  · exact keeps_ret hinv _

theorem keeps_updateSSOConfig (id : Nat) (config : SSOConfig)
    (hkeep : SurvivesWrites cfg I (.updateSSOConfig id config)) (hinv : I db) :
    Keeps I (updateSSOConfig cfg id config) db := by
  apply keeps_checked hinv
  intro hchecked
  apply keeps_last hinv (hkeep _ _ hinv (.update hchecked))
  intro answer
  rcases answer with _ | _ | _
  · exact ⟨_, rfl⟩
  · exact ⟨_, rfl⟩
  · exact ⟨_, rfl⟩

theorem keeps_deleteSSOConfig (id : Nat) (hkeep : SurvivesWrites cfg I (.deleteSSOConfig id))
    (hinv : I db) : Keeps I (deleteSSOConfig id) db := by
  have hdeleted := hkeep _ _ hinv (.delete id)
  apply keeps_call hinv
  · change Keeps I _ db
    generalize (db.exec (.findByID id)).2 = found
    cases found with
    | none => exact keeps_ret hinv _
    | some config =>
        apply keeps_call hinv
        · generalize (db.exec (.delete id)).2 = deleted
          cases deleted with
          | false => exact keeps_ret hdeleted _
          | true =>
              apply keeps_last hdeleted (hkeep _ _ hdeleted (.deleteByProvider id _))
              intro answer
              cases answer with
              | none => exact ⟨_, rfl⟩
              | some _ => exact ⟨_, rfl⟩
        · exact keeps_ret hinv _
  · exact keeps_ret hinv _

/-- What the writes of an operation preserve, the operation preserves, whichever of its calls
fail. -/
theorem keeps_bodyOf {op : Op} (hkeep : SurvivesWrites cfg I op) (hinv : I db) :
    Keeps I (bodyOf cfg op) db := by
  cases op with
  | updateAuthSettings enabled => exact keeps_updateAuthSettings enabled hkeep hinv
  | createSSOConfig config => exact keeps_createSSOConfig config hkeep hinv
  | updateSSOConfig id config => exact keeps_updateSSOConfig id config hkeep hinv
  | deleteSSOConfig id => exact keeps_deleteSSOConfig id hkeep hinv

theorem step_invariant {op : Op} {db' : Database} (hkeep : SurvivesWrites cfg I op) (hinv : I db)
    (hstep : Step cfg db op db') : I db' := by
  obtain ⟨result, hsteps⟩ := hstep
  exact ((keeps_bodyOf hkeep hinv).of_steps hsteps).1

end Keeping

/-! ## Valid configurations -/

/-- Every configuration has passed the checks and has its defaults, and no two have the same
provider. -/
structure WellKept (cfg : Rbac.Config) (db : Database) : Prop where
  checked : ∀ id c, db.configs.get? id = some c → Checked cfg c ∧ c.setDefaults = c
  unique : ∀ id id' c c', db.configs.get? id = some c → db.configs.get? id' = some c' →
    c.provider = c'.provider → id = id'

section WellKept

variable {cfg : Rbac.Config} {db db' : Database}

theorem setDefaults_setDefaults (c : SSOConfig) : c.setDefaults.setDefaults = c.setDefaults := by
  by_cases hsaml : c.provider = Provider.saml.name
  · have hne : ∀ s : GoString, ∀ t : GoString, t ≠ [] → (if s = [] then t else s) ≠ [] := by
      intro s t ht
      split_ifs with hs
      · exact ht
      · exact hs
    simp only [SSOConfig.setDefaults, if_pos hsaml]
    rw [if_neg (hne _ _ (by decide)), if_neg (hne _ _ (by decide)), if_neg (hne _ _ (by decide))]
  · simp only [SSOConfig.setDefaults, if_neg hsaml]

/-- The row is the only one of its provider. -/
theorem eq_of_accepts {id id' : Nat} {c c' : SSOConfig} (haccepts : db.accepts id c = true)
    (hget : db.configs.get? id' = some c') (hprovider : c'.provider = c.provider) : id' = id := by
  simp only [Database.accepts, Bool.and_eq_true] at haccepts
  have hentry := List.all_eq_true.mp haccepts.2 _ (Table.get?_eq_some_iff.mp hget)
  rw [Bool.or_eq_true, decide_eq_true_iff, Bool.and_eq_true, decide_eq_true_iff] at hentry
  rcases hentry with heq | ⟨hne, -⟩
  · exact heq
  · exact absurd hprovider hne

theorem WellKept.insert {id : Nat} {c : SSOConfig} (h : WellKept cfg db)
    (hchecked : Checked cfg c.setDefaults) (haccepts : db.accepts id c.setDefaults = true) :
    WellKept cfg { db with configs := db.configs.insert id c.setDefaults } := by
  constructor
  · intro k row hrow
    rw [Table.get?_insert] at hrow
    split_ifs at hrow
    · obtain rfl := Option.some.inj hrow
      exact ⟨hchecked, setDefaults_setDefaults c⟩
    · exact h.checked k row hrow
  · intro k k' row row' hrow hrow' hprovider
    rw [Table.get?_insert] at hrow hrow'
    split_ifs at hrow with hk
    · obtain rfl := Option.some.inj hrow
      split_ifs at hrow' with hk'
      · rw [hk, hk']
      · rw [hk, eq_of_accepts haccepts hrow' hprovider.symm]
    · split_ifs at hrow' with hk'
      · obtain rfl := Option.some.inj hrow'
        rw [hk', eq_of_accepts haccepts hrow hprovider]
      · exact h.unique k k' row row' hrow hrow' hprovider

theorem WellKept.erase (h : WellKept cfg db) (id : Nat) :
    WellKept cfg { db with configs := db.configs.erase id } := by
  have hkept : ∀ k row, (db.configs.erase id).get? k = some row → db.configs.get? k = some row := by
    intro k row hrow
    rw [Table.get?_erase] at hrow
    split_ifs at hrow
    exact hrow
  constructor
  · intro k row hrow
    exact h.checked k row (hkept k row hrow)
  · intro k k' row row' hrow hrow'
    exact h.unique k k' row row' (hkept k row hrow) (hkept k' row' hrow')

theorem WellKept.survives (op : Op) : SurvivesWrites cfg (WellKept cfg) op := by
  intro db c h hwrites
  cases hwrites with
  | setting _ => exact ⟨h.checked, h.unique⟩
  | create hchecked =>
      dsimp only [Database.exec]
      split_ifs with haccepts
      · exact h.insert hchecked haccepts
      · exact h
  | update hchecked =>
      dsimp only [Database.exec]
      split_ifs with haccepts
      · exact h.insert hchecked haccepts
      · exact h
  | delete id => exact h.erase id
  | deleteByProvider _ _ => exact ⟨h.checked, h.unique⟩

/-- In every run, whichever calls fail, all configurations have passed the checks, and no two
have the same provider. -/
theorem wellKept_of_run (h : WellKept cfg db)
    (hrun : Run (Step cfg) (fun _ _ => True) db db') : WellKept cfg db' :=
  hrun.invariant h fun _ op _ h _ hstep => step_invariant (WellKept.survives op) h hstep

end WellKept

/-! ## Ways to sign in -/

/-- What {lit}`GetAuthSettings` says about the login with a password. -/
def Database.passwordLogin (db : Database) : Bool :=
  db.settings.get? none passwordLoginEnabled ≠ some "false".toList

/-- A configuration other than that of an ID is enabled. -/
def Database.EnabledBeside (db : Database) (id : Nat) : Prop :=
  ∃ id' c, id' ≠ id ∧ db.configs.get? id' = some c ∧ c.isEnabled = true

/-- The login with a password is enabled, or a configuration is. -/
def WayIn (db : Database) : Prop :=
  db.passwordLogin = true ∨ db.SomeEnabled

/-- While the login with a password is disabled, the operation does not take the last enabled
configuration away. -/
def KeepsLast (db : Database) : Op → Prop
  | .updateSSOConfig id config =>
      config.isEnabled = true ∨ db.passwordLogin = true ∨ db.EnabledBeside id
  | .deleteSSOConfig id => db.passwordLogin = true ∨ db.EnabledBeside id
  | _ => True

section WayIn

variable {cfg : Rbac.Config} {db db' : Database}

/-- A row that is written leaves the other ones. -/
theorem WayIn.insert {id : Nat} {config : SSOConfig}
    (hkeeps : config.isEnabled = true ∨ db.passwordLogin = true ∨ db.EnabledBeside id) :
    WayIn { db with configs := db.configs.insert id config } := by
  rcases hkeeps with henabled | hpassword | ⟨id', c, hne, hget, henabled⟩
  · exact .inr ⟨id, config, Table.get?_insert_self _ _ _, henabled⟩
  · exact .inl hpassword
  · exact .inr ⟨id', c, (Table.get?_insert_of_ne hne).trans hget, henabled⟩

/-- No configuration is filed under a free ID. -/
theorem WayIn.beside_freshKey (hway : WayIn db) :
    db.passwordLogin = true ∨ db.EnabledBeside db.configs.freshKey := by
  rcases hway with hpassword | ⟨id, c, hget, henabled⟩
  · exact .inl hpassword
  · refine .inr ⟨id, c, ?_, hget, henabled⟩
    rintro rfl
    rw [Table.get?_freshKey] at hget
    exact Option.some_ne_none c hget.symm

theorem Database.EnabledBeside.insert {id : Nat} (h : db.EnabledBeside id) (config : SSOConfig) :
    Database.EnabledBeside { db with configs := db.configs.insert id config } id := by
  obtain ⟨id', c, hne, hget, henabled⟩ := h
  exact ⟨id', c, hne, (Table.get?_insert_of_ne hne).trans hget, henabled⟩

theorem Database.EnabledBeside.erase {id : Nat} (h : db.EnabledBeside id) :
    Database.EnabledBeside { db with configs := db.configs.erase id } id := by
  obtain ⟨id', c, hne, hget, henabled⟩ := h
  exact ⟨id', c, hne, (Table.get?_erase _ _ _).trans ((if_neg hne).trans hget), henabled⟩

theorem Database.EnabledBeside.some {id : Nat} (h : db.EnabledBeside id) : db.SomeEnabled := by
  obtain ⟨id', c, -, hget, henabled⟩ := h
  exact ⟨id', c, hget, henabled⟩

theorem isEnabled_setDefaults (config : SSOConfig) :
    config.setDefaults.isEnabled = config.isEnabled := by
  by_cases hsaml : config.provider = Provider.saml.name
  · rw [SSOConfig.setDefaults, if_pos hsaml]
  · rw [SSOConfig.setDefaults, if_neg hsaml]

/-- The setting is stored while it leaves a way to sign in. -/
theorem wayIn_of_setting {enabled : Bool} (henabled : enabled = true ∨ db.SomeEnabled) :
    WayIn (db.exec (.upsertPlatformSetting passwordLoginEnabled (passwordVal enabled))).1 := by
  rcases henabled with rfl | hconfig
  · left
    have htrue : passwordVal true ≠ [] := by decide
    have hget := Settings.get?_upsert db.settings none passwordLoginEnabled htrue none
      passwordLoginEnabled
    rw [if_pos ⟨rfl, rfl⟩] at hget
    refine decide_eq_true ?_
    dsimp only [Database.exec]
    rw [hget]
    decide
  · exact .inr hconfig

theorem WayIn.survives (op : Op) :
    SurvivesWrites cfg (fun db => WayIn db ∧ KeepsLast db op) op := by
  rintro db c ⟨hway, hkeeps⟩ hwrites
  cases hwrites with
  | setting henabled => exact ⟨wayIn_of_setting henabled, trivial⟩
  | create _ =>
      refine ⟨?_, trivial⟩
      dsimp only [Database.exec]
      split_ifs
      · exact WayIn.insert (.inr hway.beside_freshKey)
      · exact hway
  | @update id config _ =>
      dsimp only [Database.exec]
      split_ifs
      · constructor
        · apply WayIn.insert
          rw [isEnabled_setDefaults]
          exact hkeeps
        · exact hkeeps.imp_right fun h => h.imp_right fun h => h.insert _
      · exact ⟨hway, hkeeps⟩
  | delete id =>
      constructor
      · rcases hkeeps with hpassword | hbeside
        · exact .inl hpassword
        · exact .inr hbeside.erase.some
      · exact hkeeps.imp_right fun h => h.erase
  | deleteByProvider _ _ => exact ⟨hway, hkeeps⟩

/-- In every run in which no operation takes the last enabled configuration away while the login
with a password is disabled, there is a way to sign in. -/
theorem wayIn_of_run (hway : WayIn db) (hrun : Run (Step cfg) KeepsLast db db') : WayIn db' :=
  hrun.invariant hway fun _ op _ hway hkeeps hstep =>
    (step_invariant (WayIn.survives op) ⟨hway, hkeeps⟩ hstep).1

end WayIn

/-! ## Runs -/

/-- No configuration and no setting is stored. -/
def initial : Database where
  configs := .empty
  identities := .empty
  settings := ⟨.empty⟩

/-- An enabled configuration of a provider with its client. -/
def enabledConfig (provider client : String) : SSOConfig where
  provider := provider.toList
  displayName := []
  isEnabled := true
  allowedDomains := []
  autoCreateUser := false
  samlEntityID := []
  samlSsoURL := []
  samlCertificate := []
  samlAttrEmail := []
  samlAttrFirstName := []
  samlAttrLastName := []
  oauthClientID := client.toList
  oauthClientSecret := "secret".toList
  googleHostedDomain := []
  gitHubOrgs := []

/-- The database after operations without failures. -/
def runAll (db : Database) (ops : List Op) : Database :=
  ops.foldl (fun db op => (machine.run (bodyOf Rbac.openConfig op) db).1) db

theorem step_run (db : Database) (op : Op) :
    Step Rbac.openConfig db op (machine.run (bodyOf Rbac.openConfig op) db).1 :=
  ⟨_, machine.steps_run _ _⟩

theorem run_runAll (db : Database) (ops : List Op) :
    Run (Step Rbac.openConfig) (fun _ _ => True) db (runAll db ops) := by
  induction ops generalizing db with
  | nil => exact .refl db
  | cons op ops ih => exact ((Run.refl db).snoc (step_run db op) trivial).trans (ih _)

/-- A configuration is created and the login with a password disabled. -/
def disabling : List Op :=
  [.createSSOConfig (enabledConfig "google" "client-1"), .updateAuthSettings false]

/-- Then a second configuration is created and the first one deleted. -/
def replacing : List Op :=
  disabling ++ [.createSSOConfig (enabledConfig "github" "client-2"), .deleteSSOConfig 1]

theorem wellKept_initial : WellKept Rbac.openConfig initial := by
  have hnone : ∀ id, initial.configs.get? id = none := fun _ => rfl
  constructor
  · intro id c hget
    exact absurd (hget.symm.trans (hnone id)) (Option.some_ne_none c)
  · intro id _ c _ hget
    exact absurd (hget.symm.trans (hnone id)) (Option.some_ne_none c)

theorem wellKept_replacing : WellKept Rbac.openConfig (runAll initial replacing) :=
  wellKept_of_run wellKept_initial (run_runAll initial replacing)

theorem run_replacing :
    Run (Step Rbac.openConfig) KeepsLast initial (runAll initial replacing) := by
  have hstart : Run (Step Rbac.openConfig) KeepsLast initial initial := .refl initial
  have hfirst := hstart.snoc
    (step_run _ (.createSSOConfig (enabledConfig "google" "client-1"))) trivial
  have hdisabled := hfirst.snoc (step_run _ (.updateAuthSettings false)) trivial
  have hsecond := hdisabled.snoc
    (step_run _ (.createSSOConfig (enabledConfig "github" "client-2"))) trivial
  exact hsecond.snoc (step_run _ (.deleteSSOConfig 1))
    (.inr ⟨2, enabledConfig "github" "client-2", by decide, by decide +kernel, rfl⟩)

/-- At its end only the second configuration leads in. -/
theorem wayIn_replacing :
    (runAll initial replacing).passwordLogin = false ∧ WayIn (runAll initial replacing) :=
  ⟨by decide +kernel, wayIn_of_run (.inl rfl) run_replacing⟩

/-- The deletion of the only configuration locks everybody out. -/
theorem lockedOut_disabling : ¬WayIn (runAll initial (disabling ++ [.deleteSSOConfig 1])) := by
  rintro (hpassword | ⟨id, c, hget, -⟩)
  · have hdisabled :
        (runAll initial (disabling ++ [.deleteSSOConfig 1])).passwordLogin = false := by
      decide +kernel
    exact absurd (hpassword.symm.trans hdisabled) (by decide)
  · have hempty : (runAll initial (disabling ++ [.deleteSSOConfig 1])).configs.entries = [] := by
      decide +kernel
    have hentry := Table.get?_eq_some_iff.mp hget
    rw [hempty] at hentry
    exact absurd hentry List.not_mem_nil

end Configs
end Sso
end Veilence

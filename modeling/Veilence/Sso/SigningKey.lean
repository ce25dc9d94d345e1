import Veilence.Foundation.Discipline
import Veilence.Foundation.Transition
import Veilence.Settings.Database

/-!
# The signing key of the platform

The private key and the certificate that sign SAML requests are two settings.  A process that does
not find both makes a new pair and stores it with two calls, and keeps what it has found or made.

Main results:

- Theorem {lit}`Inv.step`: what one step preserves of the settings, of the calls in progress and of
  the pairs that processes keep.
- Theorem {lit}`belongs_of_undisturbed`: in every run in which no process stores its key after
  another certificate, or its certificate after another key, keys and certificates belong together.
-/

namespace Veilence
namespace Sso
namespace SigningKey

open Go Foundation

open Settings (Setting)

/-! ## Keys, certificates and processes -/

/-- The keys that are generated, counted from zero: the PEM texts of a key and of the certificate
that is made for it, and what is read from a text. -/
structure Crypto where
  privateKeyPEM : Nat → GoString
  certificatePEM : Nat → GoString
  parsePrivateKey : GoString → Except GoString Nat
  privateKeyPEM_ne : ∀ n, privateKeyPEM n ≠ []
  certificatePEM_ne : ∀ n, certificatePEM n ≠ []
  parse_privateKeyPEM : ∀ n, parsePrivateKey (privateKeyPEM n) = .ok n

/-- What a call returns: the key and the text of the certificate. -/
abbrev Result : Type := Except GoString (Nat × GoString)

/-- The state of {lit}`spKeyOnce` in a process, with the values that it guards. -/
inductive Once where
  | fresh
  | running
  | done (result : Result)

/-- A function is being run. -/
def Once.isRunning : Once → Bool
  | .running => true
  | _ => false

/-- The settings, how many keys have been generated, and the state of every process. -/
structure Store where
  settings : Settings.Database
  generated : Nat
  once : Nat → Once

/-- The calls. -/
inductive Call where
  | onceResult (process : Nat)
  | settings (c : Settings.Call)
  | generateKey
  | createCertificate (key : Nat)

/-- What a call answers. -/
abbrev Answer : Call → Type
  | .onceResult _ => Option Result
  | .settings c => Settings.Response c
  | .generateKey => Nat
  | .createCertificate _ => GoString

variable (crypto : Crypto)

/-- Carry out a call. -/
def Store.exec (s : Store) : (c : Call) → Store × Answer c
  | .onceResult process =>
      (s, match s.once process with
        | .done result => some result
        | _ => none)
  | .settings c => ({ s with settings := (s.settings.exec c).1 }, (s.settings.exec c).2)
  | .generateKey => ({ s with generated := s.generated + 1 }, s.generated)
  | .createCertificate key => (s, crypto.certificatePEM key)

/-! ## The service -/

/-- A part of a call. -/
abbrev Body : Type := Prog Call Answer Result

/-- A single call. -/
abbrev send (c : Call) : Prog Call Answer (Option (Answer c)) :=
  Prog.call c

/-- The setting of the private key. -/
def spPrivateKey : GoString :=
  "saml.sp_private_key".toList

/-- The setting of the certificate. -/
def spCertificate : GoString :=
  "saml.sp_certificate".toList

/-- The value of a key in a listing; the empty string if there is none. -/
def valueOf (settings : List Setting) (key : GoString) : GoString :=
  settings.foldl (fun value s => if s.1 = key then s.2 else value) []

/-- {lit}`loadOrGenerateSPKey` from the storing of the certificate on. -/
def storeCertificate (key : Nat) (certPEM : GoString) : Body := do
  match ← send (.settings (.upsertPlatformSetting spCertificate certPEM)) with
  | none => return .error "EnsureSPSigningKey: storing certificate".toList
  | some _ => return .ok (key, certPEM)

/-- {lit}`loadOrGenerateSPKey` from the storing of the private key on. -/
def storeKey (key : Nat) (certPEM : GoString) : Body := do
  match ← send (.settings (.upsertPlatformSetting spPrivateKey (crypto.privateKeyPEM key))) with
  | none => return .error "EnsureSPSigningKey: storing private key".toList
  | some _ => storeCertificate key certPEM

/-- {lit}`loadOrGenerateSPKey` from the creation of the certificate on. -/
def certify (key : Nat) : Body := do
  match ← send (.createCertificate key) with
  | none => return .error "EnsureSPSigningKey: creating certificate".toList
  | some certPEM => storeKey crypto key certPEM

/-- {lit}`loadOrGenerateSPKey` from the generation of the key on. -/
def generate : Body := do
  match ← send .generateKey with
  | none => return .error "EnsureSPSigningKey: generating RSA key".toList
  | some key => certify crypto key

/-- {lit}`loadOrGenerateSPKey`.  The texts of both settings are used if there are both. -/
def loadOrGenerateSPKey : Body := do
  match ← send (.settings (.findPlatformSettings [spPrivateKey, spCertificate])) with
  | none => return .error "EnsureSPSigningKey: loading settings".toList
  | some settings =>
      if valueOf settings spPrivateKey ≠ [] ∧ valueOf settings spCertificate ≠ [] then
        match crypto.parsePrivateKey (valueOf settings spPrivateKey) with
        | .error message => return .error ("EnsureSPSigningKey: ".toList ++ message)
        | .ok key => return .ok (key, valueOf settings spCertificate)
      else generate crypto

/-- {lit}`EnsureSPSigningKey` in a process. -/
def ensureSPSigningKey (process : Nat) : Body := do
  match ← send (.onceResult process) with
  | some (some result) => return result
  | _ => loadOrGenerateSPKey crypto

/-- Any number of processes, each with one call at a time that runs the function: calls that wait
for it begin when it has ended, and a process that stops in it never calls again.  Other settings
change at any time. -/
def keySystem : System Store Nat Call Answer Result where
  body := ensureSPSigningKey crypto
  exec := Store.exec crypto
  fallible
    | .onceResult _ => false
    | _ => true
  sticky := false
  enabled s process := (s.once process).isRunning = false
  begin s process :=
    match s.once process with
    | .fresh => { s with once := Function.update s.once process .running }
    | _ => s
  done s process result := { s with once := Function.update s.once process (.done result) }
  stop s _ := s
  env s s' := s'.once = s.once ∧ s'.generated = s.generated ∧
    ∀ key ∈ [spPrivateKey, spCertificate], s'.settings.get? none key = s.settings.get? none key

instance (s : Store) (process : Nat) : Decidable ((keySystem crypto).enabled s process) :=
  inferInstanceAs (Decidable ((s.once process).isRunning = false))

/-- The state of the system. -/
abbrev KeyWorld : Type := World Store Nat Call Answer Result

/-! ## Keys and certificates that belong together -/

/-- The value of a setting of the platform; the empty string if it is not stored. -/
def Store.value (s : Store) (key : GoString) : GoString :=
  (s.settings.get? none key).getD []

/-- A certificate that is stored is the one that was made for the stored key. -/
def Belongs (s : Store) : Prop :=
  s.value spCertificate ≠ [] →
    ∃ n, s.value spPrivateKey = crypto.privateKeyPEM n ∧
      s.value spCertificate = crypto.certificatePEM n

/-- A call that returns a key returns its certificate. -/
def Good (result : Result) : Prop :=
  ∀ key certPEM, result = .ok (key, certPEM) → certPEM = crypto.certificatePEM key

/-! ## Undisturbed writes -/

/-- A process has loaded the settings. -/
def loads (process : Nat) : Event Nat Call Result → Bool
  | .ran p (.settings (.findPlatformSettings _)) => p = process
  | _ => false

/-- A setting has been stored. -/
def stores (key : GoString) : Event Nat Call Result → Bool
  | .ran _ (.settings (.upsertPlatformSetting k _)) => k = key
  | _ => false

/-- A process has stored a setting. -/
def storesOwn (process : Nat) (key : GoString) : Event Nat Call Result → Bool
  | .ran p (.settings (.upsertPlatformSetting k _)) => p = process ∧ k = key
  | _ => false

/-- A certificate has been stored since a process has loaded the settings. -/
def certificateSince (log : List (Event Nat Call Result)) (process : Nat) : Bool :=
  (log.takeWhile fun e => !loads process e).any (stores spCertificate)

/-- Another private key has been stored since a process has stored its own. -/
def keySince (log : List (Event Nat Call Result)) (process : Nat) : Bool :=
  (log.takeWhile fun e => !storesOwn process spPrivateKey e).any (stores spPrivateKey)

/-- A process does not store its private key after a certificate has been stored, nor its
certificate after another private key has. -/
def undisturbed (w : KeyWorld) : Label Nat → Bool
  | .exec i =>
      match w.threads i with
      | some ⟨process, .cmd (.settings (.upsertPlatformSetting key _)) _, _⟩ =>
          !(key = spPrivateKey && certificateSince w.log process) &&
            !(key = spCertificate && keySince w.log process)
      | _ => true
  | _ => true

/-! ## Values of settings -/

/-- A key that is not in a listing has no value there. -/
theorem foldl_of_notMem {settings : List Setting} {key : GoString}
    (hkey : key ∉ settings.map Prod.fst) (value : GoString) :
    settings.foldl (fun value s => if s.1 = key then s.2 else value) value = value := by
  induction settings with
  | nil => rfl
  | cons s settings ih =>
      rw [List.map_cons, List.mem_cons, not_or] at hkey
      rw [List.foldl_cons, if_neg (Ne.symm hkey.1)]
      exact ih hkey.2

/-- The value of a key that is in a listing once. -/
theorem foldl_of_mem {settings : List Setting} (hnodup : (settings.map Prod.fst).Nodup)
    {key value : GoString} (hmem : (key, value) ∈ settings) (old : GoString) :
    settings.foldl (fun value s => if s.1 = key then s.2 else value) old = value := by
  induction settings generalizing old with
  | nil => exact nomatch hmem
  | cons s settings ih =>
      rw [List.map_cons, List.nodup_cons] at hnodup
      rw [List.foldl_cons]
      rcases List.mem_cons.mp hmem with heq | hrest
      · subst heq
        rw [if_pos rfl]
        exact foldl_of_notMem hnodup.1 value
      · exact ih hnodup.2 hrest _

/-- The listing of the two settings has their values. -/
theorem valueOf_find (s : Store) {keys : List GoString} {key : GoString} (hkey : key ∈ keys) :
    valueOf ((s.settings.ofOwner none).filter fun e => e.1 ∈ keys) key = s.value key := by
  have hnodup : (((s.settings.ofOwner none).filter fun e => e.1 ∈ keys).map Prod.fst).Nodup := by
    apply List.Nodup.sublist (List.filter_sublist.map Prod.fst)
    unfold Settings.Database.ofOwner
    rw [List.map_map]
    have hkeys := s.settings.settings.nodup.sublist
      ((List.filter_sublist (p := fun e => e.1.1 = none)).map Prod.fst)
    have hsnd := hkeys.map_on (f := Prod.snd) ?_
    · rwa [List.map_map] at hsnd
    · intro x hx y hy heq
      obtain ⟨e, he, rfl⟩ := List.mem_map.mp hx
      obtain ⟨e', he', rfl⟩ := List.mem_map.mp hy
      have howner := of_decide_eq_true (List.mem_filter.mp he).2
      have howner' := of_decide_eq_true (List.mem_filter.mp he').2
      exact Prod.ext (howner.trans howner'.symm) heq
  unfold Store.value valueOf
  cases hget : s.settings.get? none key with
  | some value =>
      apply foldl_of_mem hnodup
      rw [List.mem_filter, decide_eq_true_eq]
      exact ⟨Settings.mem_ofOwner.mpr hget, hkey⟩
  | none =>
      apply foldl_of_notMem
      intro hmem
      obtain ⟨⟨key', value⟩, hin, rfl⟩ := List.mem_map.mp hmem
      rw [Settings.mem_ofOwner.mp (List.mem_filter.mp hin).1] at hget
      exact nomatch hget

/-- A value is stored under its key. -/
theorem value_upsert (s : Store) (key : GoString) {value : GoString} (hvalue : value ≠ []) (key' : GoString) :
    (s.exec crypto (.settings (.upsertPlatformSetting key value))).1.value key' =
      if key' = key then value else s.value key' := by
  have hget := Settings.get?_upsert s.settings none key hvalue none key'
  unfold Store.value
  rw [show (s.exec crypto (.settings (.upsertPlatformSetting key value))).1.settings =
    s.settings.upsert none key value from rfl, hget]
  simp only [true_and]
  split_ifs <;> rfl

/-! ## The discipline of a call -/

/-- How far a call has come. -/
inductive Mode where
  | idle
  | asked
  | cached (result : Result)
  | loading
  | found (settings : List Setting)
  | generated (key : Nat)
  | certified (key : Nat)
  | keyStored (key : Nat)
  | complete (key : Nat)

/-- Both values are in a listing. -/
def HasBoth (settings : List Setting) : Prop :=
  valueOf settings spPrivateKey ≠ [] ∧ valueOf settings spCertificate ≠ []

instance (settings : List Setting) : Decidable (HasBoth settings) :=
  inferInstanceAs (Decidable (_ ∧ _))

/-- The mode after a setting has been stored. -/
def Mode.stored : Mode → Mode
  | .certified key => .keyStored key
  | .keyStored key => .complete key
  | m => m

/-- The mode after an answer. -/
def Mode.next (m : Mode) : (c : Call) → Answer c → Mode
  | .onceResult _, some result => .cached result
  | .onceResult _, none => .loading
  | .settings (.findPlatformSettings _), settings => .found settings
  | .settings _, _ => m.stored
  | .generateKey, key => .generated key
  | .createCertificate key, _ => .certified key

/-- The calls that are sent in a mode. -/
def Mode.permits (process : Nat) : Mode → Call → Prop
  | .asked, .onceResult p => p = process
  | .loading, .settings (.findPlatformSettings keys) => keys = [spPrivateKey, spCertificate]
  | .found settings, .generateKey => ¬HasBoth settings
  | .generated n, .createCertificate key => key = n
  | .certified n, .settings (.upsertPlatformSetting key value) =>
      key = spPrivateKey ∧ value = crypto.privateKeyPEM n
  | .keyStored n, .settings (.upsertPlatformSetting key value) =>
      key = spCertificate ∧ value = crypto.certificatePEM n
  | _, _ => False

/-- The results that are returned in a mode; an error always may be. -/
def Mode.returns : Mode → Result → Prop
  | _, .error _ => True
  | .cached kept, result => result = kept
  | .found settings, .ok (key, certPEM) =>
      HasBoth settings ∧ crypto.parsePrivateKey (valueOf settings spPrivateKey) = .ok key ∧
        certPEM = valueOf settings spCertificate
  | .complete n, .ok (key, certPEM) => key = n ∧ certPEM = crypto.certificatePEM n
  | _, .ok _ => False

/-- The discipline of {lit}`EnsureSPSigningKey`. -/
def keyDiscipline : Discipline Nat Call Answer Result Mode where
  idle := .idle
  first _ := .asked
  next := Mode.next
  permitted := Mode.permits crypto
  answer
    | .createCertificate key, certPEM => certPEM = crypto.certificatePEM key
    | _, _ => True
  result _ := Mode.returns crypto

/-- A part of a call that follows the discipline from a mode on. -/
def FollowsFrom (process : Nat) (failed : Bool) (m : Mode) (p : Body) : Prop :=
  (keyDiscipline crypto).Follows (keySystem crypto) process
    (fun _ => (keyDiscipline crypto).result process) failed m p

section

variable {crypto} {process : Nat} {failed : Bool}

theorem followsFrom_error (m : Mode) (message : GoString) :
    FollowsFrom crypto process failed m (.ret (.error message)) := by
  cases m <;> exact trivial

theorem follows_storeCertificate (key : Nat) :
    FollowsFrom crypto process failed (.keyStored key)
      (storeCertificate key (crypto.certificatePEM key)) := by
  have hpermitted : (keyDiscipline crypto).permitted process (.keyStored key)
      (.settings (.upsertPlatformSetting spCertificate (crypto.certificatePEM key))) := ⟨rfl, rfl⟩
  apply Discipline.follows_call hpermitted
  · intro _ _
    exact ⟨rfl, rfl⟩
  · intro _
    exact followsFrom_error _ _

theorem follows_storeKey (key : Nat) :
    FollowsFrom crypto process failed (.certified key)
      (storeKey crypto key (crypto.certificatePEM key)) := by
  have hpermitted : (keyDiscipline crypto).permitted process (.certified key)
      (.settings (.upsertPlatformSetting spPrivateKey (crypto.privateKeyPEM key))) := ⟨rfl, rfl⟩
  apply Discipline.follows_call hpermitted
  · intro _ _
    exact follows_storeCertificate key
  · intro _
    exact followsFrom_error _ _

theorem follows_certify (key : Nat) :
    FollowsFrom crypto process failed (.generated key) (certify crypto key) := by
  apply Discipline.follows_call rfl
  · rintro certPEM rfl
    exact follows_storeKey key
  · intro _
    exact followsFrom_error _ _

theorem follows_generate {settings : List Setting} (hboth : ¬HasBoth settings) :
    FollowsFrom crypto process failed (.found settings) (generate crypto) := by
  apply Discipline.follows_call hboth
  · intro key _
    exact follows_certify key
  · intro _
    exact followsFrom_error _ _

theorem follows_loadOrGenerateSPKey :
    FollowsFrom crypto process failed .loading (loadOrGenerateSPKey crypto) := by
  apply Discipline.follows_call rfl
  · intro settings _
    change FollowsFrom crypto process failed (.found settings) _
    dsimp only
    split_ifs with hboth
    · split
      · exact followsFrom_error _ _
      · rename_i key hparse
        exact ⟨hboth, hparse, rfl⟩
    · exact follows_generate hboth
  · intro _
    exact followsFrom_error _ _

/-- Every call follows the discipline. -/
theorem follows_ensureSPSigningKey :
    FollowsFrom crypto process false .asked (ensureSPSigningKey crypto process) := by
  apply Discipline.follows_call rfl
  · intro answer _
    cases answer with
    | none => exact follows_loadOrGenerateSPKey
    | some result =>
        cases result with
        | error message => exact followsFrom_error _ _
        | ok pair => exact rfl
  · intro hfallible
    exact nomatch hfallible

end

/-- What a mode permits, mode by mode. -/
theorem permits_cases {process : Nat} {m : Mode} {c : Call} (hpermits : m.permits crypto process c) :
    (m = .asked ∧ c = .onceResult process) ∨
      (m = .loading ∧ c = .settings (.findPlatformSettings [spPrivateKey, spCertificate])) ∨
      (∃ settings, m = .found settings ∧ c = .generateKey ∧ ¬HasBoth settings) ∨
      (∃ n, m = .generated n ∧ c = .createCertificate n) ∨
      (∃ n, m = .certified n ∧
        c = .settings (.upsertPlatformSetting spPrivateKey (crypto.privateKeyPEM n))) ∨
      ∃ n, m = .keyStored n ∧
        c = .settings (.upsertPlatformSetting spCertificate (crypto.certificatePEM n)) := by
  unfold Mode.permits at hpermits
  split at hpermits
  · exact .inl ⟨rfl, congrArg _ hpermits⟩
  · exact .inr (.inl ⟨rfl, by rw [hpermits]⟩)
  · exact .inr (.inr (.inl ⟨_, rfl, rfl, hpermits⟩))
  · exact .inr (.inr (.inr (.inl ⟨_, rfl, congrArg _ hpermits⟩)))
  · obtain ⟨rfl, rfl⟩ := hpermits
    exact .inr (.inr (.inr (.inr (.inl ⟨_, rfl, rfl⟩))))
  · obtain ⟨rfl, rfl⟩ := hpermits
    exact .inr (.inr (.inr (.inr (.inr ⟨_, rfl, rfl⟩))))
  · exact hpermits.elim

/-! ## What holds in every state -/

/-- A certificate that is stored has been stored since a process has loaded the settings. -/
def Clear (s : Store) (log : List (Event Nat Call Result)) (process : Nat) : Prop :=
  s.value spCertificate ≠ [] → certificateSince log process = true

/-- A private key that is not the one of a process has been stored since that one. -/
def Own (s : Store) (log : List (Event Nat Call Result)) (process n : Nat) : Prop :=
  s.value spPrivateKey ≠ crypto.privateKeyPEM n → keySince log process = true

/-- The state fits the mode of a call of a process. -/
def Mode.Fits (s : Store) (log : List (Event Nat Call Result)) (process : Nat) : Mode → Prop
  | .cached result => Good crypto result
  | .loading => (s.once process).isRunning = true
  | .found settings =>
      if HasBoth settings then
        ∃ n, valueOf settings spPrivateKey = crypto.privateKeyPEM n ∧
          valueOf settings spCertificate = crypto.certificatePEM n
      else (s.once process).isRunning = true ∧ Clear s log process
  | .generated _ => (s.once process).isRunning = true ∧ Clear s log process
  | .certified _ => (s.once process).isRunning = true ∧ Clear s log process
  | .keyStored n => (s.once process).isRunning = true ∧ Own crypto s log process n
  | _ => True

/-- What holds in every state: settings, results and kept pairs belong together, a function runs
in one call of a process only, and the state fits the modes of the calls. -/
structure Inv (w : KeyWorld) : Prop where
  belongs : Belongs crypto w.store
  returned : ∀ process result, .returned process result ∈ w.log → Good crypto result
  kept : ∀ process result, w.store.once process = .done result → Good crypto result
  begun : ∀ i t, w.threads i = some t → w.store.once t.op ≠ .fresh
  alone : ∀ i j t u, w.threads i = some t → w.threads j = some u → t.op = u.op →
    (w.store.once t.op).isRunning = true → i = j
  modes : ∃ modes, (keyDiscipline crypto).Kept (keySystem crypto) modes w ∧
    ∀ i t, w.threads i = some t → (modes i).Fits crypto w.store w.log t.op

section

variable {crypto} {s s' : Store} {log log' : List (Event Nat Call Result)} {process : Nat}

/-- A mode still fits where a running function still runs. -/
theorem Mode.Fits.mono {m : Mode} (hfits : m.Fits crypto s log process)
    (hrunning : (s.once process).isRunning = true → (s'.once process).isRunning = true)
    (hclear : (s.once process).isRunning = true → Clear s log process → Clear s' log' process)
    (hown : (s.once process).isRunning = true → ∀ n, Own crypto s log process n →
      Own crypto s' log' process n) : m.Fits crypto s' log' process := by
  cases m with
  | idle => trivial
  | asked => trivial
  | cached result => exact hfits
  | loading => exact hrunning hfits
  | found settings =>
      simp only [Mode.Fits] at hfits ⊢
      split_ifs at hfits ⊢ with hboth
      · exact hfits
      · exact ⟨hrunning hfits.1, hclear hfits.1 hfits.2⟩
  | generated n => exact ⟨hrunning hfits.1, hclear hfits.1 hfits.2⟩
  | certified n => exact ⟨hrunning hfits.1, hclear hfits.1 hfits.2⟩
  | keyStored n => exact ⟨hrunning hfits.1, hown hfits.1 n hfits.2⟩
  | complete n => trivial

theorem certificateSince_cons {e : Event Nat Call Result} (he : loads process e = false) :
    certificateSince (e :: log) process =
      (stores spCertificate e || certificateSince log process) := by
  simp [certificateSince, he]

theorem keySince_cons {e : Event Nat Call Result} (he : storesOwn process spPrivateKey e = false) :
    keySince (e :: log) process = (stores spPrivateKey e || keySince log process) := by
  simp [keySince, he]

/-- What another process does is no load of this one. -/
theorem loads_of_ne {p : Nat} (hne : p ≠ process) (c : Call) :
    loads process (.ran p c) = false := by
  unfold loads
  split
  · rename_i heq
    cases heq
    simpa using hne
  · rfl

theorem storesOwn_of_ne {p : Nat} (hne : p ≠ process) (c : Call) :
    storesOwn process spPrivateKey (.ran p c) = false := by
  unfold storesOwn
  split
  · rename_i heq
    cases heq
    simp [hne]
  · rfl

theorem once_exec (s : Store) (c : Call) : (s.exec crypto c).1.once = s.once := by
  cases c <;> rfl

/-- A certificate that is still clear after an event. -/
theorem Clear.cons (hclear : Clear s log process) {e : Event Nat Call Result}
    (he : loads process e = false)
    (hvalue : s'.value spCertificate = s.value spCertificate ∨ stores spCertificate e = true) :
    Clear s' (e :: log) process := by
  intro hne
  rw [certificateSince_cons he, Bool.or_eq_true]
  rcases hvalue with hsame | hstores
  · right
    apply hclear
    rwa [← hsame]
  · exact .inl hstores

/-- A private key that is still the own one after an event. -/
theorem Own.cons {n : Nat} (hown : Own crypto s log process n) {e : Event Nat Call Result}
    (he : storesOwn process spPrivateKey e = false)
    (hvalue : s'.value spPrivateKey = s.value spPrivateKey ∨ stores spPrivateKey e = true) :
    Own crypto s' (e :: log) process n := by
  intro hne
  rw [keySince_cons he, Bool.or_eq_true]
  rcases hvalue with hsame | hstores
  · right
    apply hown
    rwa [← hsame]
  · exact .inl hstores

end

/-! ## The steps -/

section

variable {crypto} {w : KeyWorld} {i process : Nat} {failed : Bool}

/-- The result of a call that ends is good. -/
theorem good_of_returns {m : Mode} {s : Store} {log : List (Event Nat Call Result)}
    (hfits : m.Fits crypto s log process) {result : Result} (hreturns : m.returns crypto result) :
    Good crypto result := by
  rintro key certPEM rfl
  cases m with
  | cached kept => exact hfits key certPEM hreturns.symm
  | found settings =>
      obtain ⟨hboth, hparse, rfl⟩ := hreturns
      simp only [Mode.Fits] at hfits
      rw [if_pos hboth] at hfits
      obtain ⟨n, hkey, hcert⟩ := hfits
      rw [hkey, crypto.parse_privateKeyPEM] at hparse
      rw [hcert, Except.ok.inj hparse]
  | complete n =>
      obtain ⟨rfl, rfl⟩ := hreturns
      rfl
  | idle => exact hreturns.elim
  | asked => exact hreturns.elim
  | loading => exact hreturns.elim
  | generated n => exact hreturns.elim
  | certified n => exact hreturns.elim
  | keyStored n => exact hreturns.elim

/-- Calls that are those of before, or fewer. -/
theorem Inv.calls (hinv : Inv crypto w) (threads : Nat → Option (Thread Nat Call Answer Result))
    (hold : ∀ j t, threads j = some t → ∃ u, w.threads j = some u ∧ u.op = t.op) :
    (∀ j t, threads j = some t → w.store.once t.op ≠ .fresh) ∧
      ∀ j j' t u, threads j = some t → threads j' = some u → t.op = u.op →
        (w.store.once t.op).isRunning = true → j = j' := by
  constructor
  · intro j t ht
    obtain ⟨t', ht', hop⟩ := hold j t ht
    rw [← hop]
    exact hinv.begun j t' ht'
  · intro j j' t u ht hu hop hrunning
    obtain ⟨t', ht', htop⟩ := hold j t ht
    obtain ⟨u', hu', huop⟩ := hold j' u hu
    rw [← htop] at hrunning
    exact hinv.alone j j' t' u' ht' hu' (by rw [htop, huop, hop]) hrunning

/-- A call that goes on is a call of the same process. -/
theorem exists_of_setThread {t : Thread Nat Call Answer Result} (hthread : w.threads i = some t)
    (t' : Thread Nat Call Answer Result) (hop : t.op = t'.op) :
    ∀ j u, w.setThread i (some t') j = some u → ∃ v, w.threads j = some v ∧ v.op = u.op := by
  refine World.forall_setThread (P := fun j u => ∃ v, w.threads j = some v ∧ v.op = u.op)
    (fun j _ u hu => ⟨u, hu, rfl⟩) ?_
  rintro u ⟨⟩
  exact ⟨t, hthread, hop⟩

/-- A command keeps the invariant if the settings still belong together, the settings change only
by events that say so, and the new mode of its call fits. -/
theorem Inv.exec {c : Call} {k : Option (Answer c) → Body} (hinv : Inv crypto w)
    {modes : Nat → Mode} (hkept : (keyDiscipline crypto).Kept (keySystem crypto) modes w)
    (hfits : ∀ j t, w.threads j = some t → (modes j).Fits crypto w.store w.log t.op)
    (hthread : w.threads i = some ⟨process, .cmd c k, failed⟩)
    (hanswer : (keyDiscipline crypto).answer c (w.store.exec crypto c).2)
    (hbelongs : Belongs crypto (w.store.exec crypto c).1)
    (hcertificate : (w.store.exec crypto c).1.value spCertificate = w.store.value spCertificate ∨
      stores spCertificate (.ran process c) = true)
    (hkey : (w.store.exec crypto c).1.value spPrivateKey = w.store.value spPrivateKey ∨
      stores spPrivateKey (.ran process c) = true)
    (hnext : ((modes i).next c (w.store.exec crypto c).2).Fits crypto (w.store.exec crypto c).1
      (.ran process c :: w.log) process) :
    Inv crypto ⟨(w.store.exec crypto c).1,
      w.setThread i (some ⟨process, k (some (w.store.exec crypto c).2), failed⟩),
      .ran process c :: w.log⟩ := by
  have honce : (w.store.exec crypto c).1.once = w.store.once := once_exec w.store c
  constructor
  case belongs => exact hbelongs
  case returned =>
    intro p result hmem
    exact hinv.returned p result ((List.mem_cons.mp hmem).resolve_left nofun)
  case kept =>
    intro p result hdone
    exact hinv.kept p result (by rwa [← honce])
  case begun =>
    rw [honce]
    exact (hinv.calls _ (exists_of_setThread hthread ⟨process, k _, failed⟩ rfl)).1
  case alone =>
    rw [honce]
    exact (hinv.calls _ (exists_of_setThread hthread ⟨process, k _, failed⟩ rfl)).2
  case modes =>
    refine ⟨_, hkept.exec hthread nofun hanswer, ?_⟩
    apply World.forall_setThread (P := fun j t => (Function.update modes i _ j).Fits crypto _ _ t.op)
    · intro j hj t ht
      rw [Function.update_of_ne hj]
      -- a running function of the same process would be the same call
      have hne : (w.store.once t.op).isRunning = true → process ≠ t.op := fun hrunning hop =>
        hj (hinv.alone j i t _ ht hthread hop.symm hrunning)
      refine (hfits j t ht).mono ?_ ?_ ?_
      · intro hrunning
        rwa [honce]
      · intro hrunning hclear
        exact hclear.cons (loads_of_ne (hne hrunning) c) hcertificate
      · intro hrunning n hown
        exact hown.cons (storesOwn_of_ne (hne hrunning) c) hkey
    · rintro t ⟨⟩
      rw [Function.update_self]
      exact hnext

/-- One command of a call that is not disturbed. -/
theorem Inv.exec_undisturbed {c : Call} {k : Option (Answer c) → Body} (hinv : Inv crypto w)
    (hthread : w.threads i = some ⟨process, .cmd c k, failed⟩)
    (hundisturbed : undisturbed w (.exec i) = true) :
    Inv crypto ⟨(w.store.exec crypto c).1,
      w.setThread i (some ⟨process, k (some (w.store.exec crypto c).2), failed⟩),
      .ran process c :: w.log⟩ := by
  obtain ⟨modes, hkept, hfits⟩ := hinv.modes
  have hmode : (modes i).Fits crypto w.store w.log process := hfits i _ hthread
  have hpermitted : (modes i).permits crypto process c := hkept.permitted hthread nofun
  simp only [undisturbed] at hundisturbed
  rw [hthread] at hundisturbed
  rcases permits_cases crypto hpermitted with ⟨hm, rfl⟩ | ⟨hm, rfl⟩ | ⟨settings, hm, rfl, hboth⟩ |
    ⟨n, hm, rfl⟩ | ⟨n, hm, rfl⟩ | ⟨n, hm, rfl⟩
  · -- the state of the process
    refine hinv.exec hkept hfits hthread trivial hinv.belongs (.inl rfl) (.inl rfl) ?_
    have hbegun := hinv.begun i _ hthread
    cases honce : w.store.once process with
    | fresh => exact absurd honce hbegun
    | running =>
        have hanswer : (w.store.exec crypto (.onceResult process)).2 = none := by
          simp only [Store.exec, honce]
        rw [hanswer]
        exact congrArg Once.isRunning honce
    | done result =>
        have hanswer : (w.store.exec crypto (.onceResult process)).2 = some result := by
          simp only [Store.exec, honce]
        rw [hanswer]
        exact hinv.kept process result honce
  · -- the settings
    refine hinv.exec hkept hfits hthread trivial hinv.belongs (.inl rfl) (.inl rfl) ?_
    rw [hm] at hmode
    have hvalue : ∀ key ∈ [spPrivateKey, spCertificate],
        valueOf (w.store.exec crypto
          (.settings (.findPlatformSettings [spPrivateKey, spCertificate]))).2 key =
        w.store.value key := fun key hkey => valueOf_find w.store hkey
    have hkey := hvalue spPrivateKey (by simp)
    have hcert := hvalue spCertificate (by simp)
    change (Mode.found _).Fits crypto _ _ _
    simp only [Mode.Fits]
    split_ifs with hboth
    · rw [hkey, hcert]
      apply hinv.belongs
      rw [← hcert]
      exact hboth.2
    · refine ⟨hmode, fun hne => ?_⟩
      obtain ⟨n, hn, -⟩ := hinv.belongs hne
      refine absurd ⟨?_, ?_⟩ hboth
      · rw [hkey, hn]
        exact crypto.privateKeyPEM_ne n
      · rwa [hcert]
  · -- a new key
    rw [hm] at hmode
    simp only [Mode.Fits] at hmode
    rw [if_neg hboth] at hmode
    refine hinv.exec hkept hfits hthread trivial hinv.belongs (.inl rfl) (.inl rfl) ?_
    exact ⟨hmode.1, hmode.2.cons rfl (.inl rfl)⟩
  · -- its certificate
    rw [hm] at hmode
    refine hinv.exec hkept hfits hthread rfl hinv.belongs (.inl rfl) (.inl rfl) ?_
    exact ⟨hmode.1, hmode.2.cons rfl (.inl rfl)⟩
  · -- the key is stored
    rw [hm] at hmode
    have hvalue := value_upsert crypto w.store spPrivateKey
      (crypto.privateKeyPEM_ne n)
    have hsame := (hvalue spCertificate).trans (if_neg (by decide))
    have hown := (hvalue spPrivateKey).trans (if_pos rfl)
    have hnone : w.store.value spCertificate = [] := by
      by_contra hne
      simp [hmode.2 hne] at hundisturbed
    refine hinv.exec hkept hfits hthread trivial ?_ (.inl hsame) (.inr (by simp [stores])) ?_
    · intro hne
      rw [hsame, hnone] at hne
      exact absurd rfl hne
    · rw [hm]
      exact ⟨hmode.1, fun hne => absurd hown hne⟩
  · -- the certificate is stored
    rw [hm] at hmode
    have hvalue := value_upsert crypto w.store spCertificate
      (crypto.certificatePEM_ne n)
    have hsame := (hvalue spPrivateKey).trans (if_neg (by decide))
    have hcert := (hvalue spCertificate).trans (if_pos rfl)
    have hown : w.store.value spPrivateKey = crypto.privateKeyPEM n := by
      by_contra hne
      simp [hmode.2 hne] at hundisturbed
    refine hinv.exec hkept hfits hthread trivial ?_ (.inr (by simp [stores])) (.inl hsame) ?_
    · intro _
      exact ⟨n, hsame.trans hown, hcert⟩
    · rw [hm]
      trivial

/-- What the beginning of a call does to the state of its process. -/
theorem begin_facts (hinv : Inv crypto w) (henabled : (w.store.once process).isRunning = false) :
    ((keySystem crypto).begin w.store process).settings = w.store.settings ∧
      (∀ p, p ≠ process → ((keySystem crypto).begin w.store process).once p = w.store.once p) ∧
      ((keySystem crypto).begin w.store process).once process ≠ .fresh ∧
      (∀ result, ((keySystem crypto).begin w.store process).once process = .done result →
        w.store.once process = .done result) ∧
      ((((keySystem crypto).begin w.store process).once process).isRunning = true →
        ∀ j t, w.threads j = some t → t.op ≠ process) := by
  cases honce : w.store.once process with
  | running =>
      rw [honce] at henabled
      exact nomatch henabled
  | fresh =>
      have hbegin : (keySystem crypto).begin w.store process =
          { w.store with once := Function.update w.store.once process .running } := by
        simp only [keySystem, honce]
      have hself : ((keySystem crypto).begin w.store process).once process = .running := by
        rw [hbegin]
        exact Function.update_self _ _ _
      refine ⟨by rw [hbegin], ?_, ?_, ?_, ?_⟩
      · intro p hp
        rw [hbegin]
        exact Function.update_of_ne hp _ _
      · rw [hself]
        exact nofun
      · rw [hself]
        exact nofun
      · exact fun _ j t ht hop => hinv.begun j t ht (hop ▸ honce)
  | done result =>
      have hbegin : (keySystem crypto).begin w.store process = w.store := by
        simp only [keySystem, honce]
      rw [hbegin, honce]
      exact ⟨rfl, fun p _ => rfl, nofun, fun _ hdone => hdone, nofun⟩

/-- A call of a process that is not running the function begins. -/
theorem Inv.start (hinv : Inv crypto w) (henabled : (w.store.once process).isRunning = false) :
    Inv crypto ⟨(keySystem crypto).begin w.store process,
      w.setThread i (some ⟨process, ensureSPSigningKey crypto process, false⟩), w.log⟩ := by
  obtain ⟨modes, hkept, hfits⟩ := id hinv.modes
  obtain ⟨hsettings, hother, hbegun, hdone, halone⟩ := begin_facts hinv henabled
  have hvalue : ∀ key, ((keySystem crypto).begin w.store process).value key = w.store.value key := by
    intro key
    unfold Store.value
    rw [hsettings]
  have hnew : ∀ j t, w.setThread i (some ⟨process, ensureSPSigningKey crypto process, false⟩) j =
      some t → (j = i ∧ t.op = process) ∨ w.threads j = some t := by
    refine World.forall_setThread (P := fun j t => (j = i ∧ t.op = process) ∨ w.threads j = some t)
      (fun j _ t ht => .inr ht) ?_
    rintro t ⟨⟩
    exact .inl ⟨rfl, rfl⟩
  constructor
  case belongs =>
    unfold Belongs
    rw [hvalue, hvalue]
    exact hinv.belongs
  case returned => exact hinv.returned
  case kept =>
    intro p result hkeeps
    by_cases hp : p = process
    · subst hp
      exact hinv.kept p result (hdone result hkeeps)
    · rw [hother p hp] at hkeeps
      exact hinv.kept p result hkeeps
  case begun =>
    intro j t ht
    by_cases hp : t.op = process
    · rw [hp]
      exact hbegun
    · rw [hother _ hp]
      exact hinv.begun j t ((hnew j t ht).resolve_left fun h => hp h.2)
  case alone =>
    intro j j' t u ht hu hop hrunning
    by_cases hp : t.op = process
    · rw [hp] at hrunning
      have hj := (hnew j t ht).resolve_right fun h => halone hrunning j t h hp
      have hj' := (hnew j' u hu).resolve_right fun h => halone hrunning j' u h (hop ▸ hp)
      rw [hj.1, hj'.1]
    · rw [hother _ hp] at hrunning
      exact hinv.alone j j' t u ((hnew j t ht).resolve_left fun h => hp h.2)
        ((hnew j' u hu).resolve_left fun h => hp (hop ▸ h.2)) hop hrunning
  case modes =>
    refine ⟨_, hkept.start follows_ensureSPSigningKey, ?_⟩
    apply World.forall_setThread (P := fun j t => (Function.update modes i _ j).Fits crypto _ _ t.op)
    · intro j hj t ht
      rw [Function.update_of_ne hj]
      refine (hfits j t ht).mono ?_ ?_ ?_
      · intro hrunning
        have hp : t.op ≠ process := by
          rintro hop
          rw [hop, henabled] at hrunning
          exact nomatch hrunning
        rwa [hother _ hp]
      · intro _ hclear
        unfold Clear
        rwa [hvalue]
      · intro _ n hown
        unfold Own
        rwa [hvalue]
    · rintro t ⟨⟩
      rw [Function.update_self]
      trivial

/-- A call ends with a good result, which the process keeps. -/
theorem Inv.finish {result : Result} (hinv : Inv crypto w)
    (hthread : w.threads i = some ⟨process, .ret result, failed⟩) :
    Inv crypto ⟨(keySystem crypto).done w.store process result, w.setThread i none,
      .returned process result :: w.log⟩ := by
  obtain ⟨modes, hkept, hfits⟩ := id hinv.modes
  have hgood : Good crypto result := good_of_returns (hfits i _ hthread) (hkept.result hthread)
  have hleft : ∀ j t, w.setThread i none j = some t → j ≠ i ∧ w.threads j = some t :=
    World.forall_setThread (P := fun j t => j ≠ i ∧ w.threads j = some t)
      (fun j hj t ht => ⟨hj, ht⟩) nofun
  have honce : ∀ p, p ≠ process →
      ((keySystem crypto).done w.store process result).once p = w.store.once p := fun p hp =>
    Function.update_of_ne hp _ _
  have hdone : ((keySystem crypto).done w.store process result).once process = .done result :=
    Function.update_self _ _ _
  have hcalls := hinv.calls (w.setThread i none) fun j t ht => ⟨t, (hleft j t ht).2, rfl⟩
  constructor
  case belongs => exact hinv.belongs
  case returned =>
    intro p result' hmem
    rcases List.mem_cons.mp hmem with heq | hmem
    · cases heq
      exact hgood
    · exact hinv.returned p result' hmem
  case kept =>
    intro p result' hkeeps
    by_cases hp : p = process
    · subst hp
      rw [hdone] at hkeeps
      cases hkeeps
      exact hgood
    · rw [honce p hp] at hkeeps
      exact hinv.kept p result' hkeeps
  case begun =>
    intro j t ht
    by_cases hp : t.op = process
    · rw [hp, hdone]
      exact nofun
    · rw [honce _ hp]
      exact hcalls.1 j t ht
  case alone =>
    intro j j' t u ht hu hop hrunning
    by_cases hp : t.op = process
    · rw [hp, hdone] at hrunning
      exact nomatch hrunning
    · rw [honce _ hp] at hrunning
      exact hcalls.2 j j' t u ht hu hop hrunning
  case modes =>
    refine ⟨_, hkept.leave _ _, ?_⟩
    intro j t ht
    obtain ⟨hj, ht⟩ := hleft j t ht
    rw [Function.update_of_ne hj]
    refine (hfits j t ht).mono ?_ ?_ ?_
    · intro hrunning
      have hp : t.op ≠ process := fun hop =>
        hj (hinv.alone j i t _ ht hthread hop hrunning)
      rwa [honce _ hp]
    · intro _ hclear
      exact hclear.cons rfl (.inl rfl)
    · intro _ n hown
      exact hown.cons rfl (.inl rfl)

/-- What one step preserves. -/
theorem Inv.step {w' : KeyWorld} {l : Label Nat} (hinv : Inv crypto w)
    (hundisturbed : undisturbed w l = true) (hstep : (keySystem crypto).Step w l w') :
    Inv crypto w' := by
  obtain ⟨modes, hkept, hfits⟩ := id hinv.modes
  cases hstep with
  | start hfree henabled => exact hinv.start henabled
  | exec hthread hlive => exact hinv.exec_undisturbed hthread hundisturbed
  | @fail i process c k failed hthread hfallible =>
      have hcalls := hinv.calls _ (exists_of_setThread hthread ⟨process, k none, true⟩ rfl)
      refine ⟨hinv.belongs, hinv.returned, hinv.kept, hcalls.1, hcalls.2,
        modes, hkept.fail hthread hfallible, ?_⟩
      apply World.forall_setThread (P := fun j t => (modes j).Fits crypto w.store w.log t.op)
      · exact fun j _ t ht => hfits j t ht
      · have hmode := hfits i _ hthread
        rintro t ⟨⟩
        exact hmode
  | @stop i t hthread =>
      have hleft : ∀ j t, w.setThread i none j = some t → j ≠ i ∧ w.threads j = some t :=
        World.forall_setThread (P := fun j t => j ≠ i ∧ w.threads j = some t)
          (fun j hj t ht => ⟨hj, ht⟩) nofun
      have hcalls := hinv.calls (w.setThread i none) fun j t ht =>
        ⟨t, (hleft j t ht).2, rfl⟩
      refine ⟨hinv.belongs, hinv.returned, hinv.kept, hcalls.1, hcalls.2, _, hkept.leave _ _, ?_⟩
      intro j u hu
      obtain ⟨hj, hu⟩ := hleft j u hu
      rw [Function.update_of_ne hj]
      exact hfits j u hu
  | finish hthread => exact hinv.finish hthread
  | @env store henv =>
      obtain ⟨honce, -, hvalues⟩ := henv
      have hvalue : ∀ key ∈ [spPrivateKey, spCertificate], store.value key = w.store.value key :=
        fun key hkey => congrArg (Option.getD · []) (hvalues key hkey)
      have hkey := hvalue spPrivateKey (by simp)
      have hcert := hvalue spCertificate (by simp)
      refine ⟨?_, hinv.returned, ?_, ?_, ?_, modes, ⟨hkept.follows, hkept.idle⟩, ?_⟩
      · unfold Belongs
        rw [hkey, hcert]
        exact hinv.belongs
      · rw [honce]
        exact hinv.kept
      · rw [honce]
        exact hinv.begun
      · rw [honce]
        exact hinv.alone
      · intro j t ht
        refine (hfits j t ht).mono ?_ ?_ ?_
        · intro hrunning
          rwa [honce]
        · intro _ hclear
          unfold Clear
          rwa [hcert]
        · intro _ n hown
          unfold Own
          rwa [hkey]

/-- Before the first call. -/
theorem Inv.initial {s : Store} (hbelongs : Belongs crypto s) (hfresh : ∀ p, s.once p = .fresh) :
    Inv crypto (World.initial s) where
  belongs := hbelongs
  returned _ _ hmem := nomatch hmem
  kept p result hdone := by
    rw [show (World.initial s).store.once p = .fresh from hfresh p] at hdone
    exact nomatch hdone
  begun _ _ ht := nomatch ht
  alone _ _ _ _ ht := nomatch ht
  modes := ⟨fun _ => .idle, ⟨by simp [World.initial], fun _ _ => rfl⟩, by simp [World.initial]⟩

end

/-- In every run in which no process stores its private key after a certificate has been stored,
nor its certificate after another private key has been stored, every key is returned with its
certificate, and the stored certificate is that of the stored key. -/
theorem belongs_of_undisturbed (s : Store) (hbelongs : Belongs crypto s)
    (hfresh : ∀ process, s.once process = .fresh) {w : KeyWorld}
    (hrun : Run (keySystem crypto).Step (fun w l => undisturbed w l = true) (World.initial s) w) :
    (∀ process key certPEM, .returned process (.ok (key, certPEM)) ∈ w.log →
      certPEM = crypto.certificatePEM key) ∧
    (w.store.value spPrivateKey ≠ [] → w.store.value spCertificate ≠ [] →
      ∃ n, w.store.value spPrivateKey = crypto.privateKeyPEM n ∧
        w.store.value spCertificate = crypto.certificatePEM n) := by
  have hinv : Inv crypto w := hrun.invariant (Inv.initial hbelongs hfresh)
    fun _ _ _ hinv hundisturbed hstep => hinv.step hundisturbed hstep
  constructor
  · intro process key certPEM hmem
    exact hinv.returned process _ hmem key certPEM rfl
  · intro _ hcert
    exact hinv.belongs hcert

/-! ## Two runs -/

/-- Keys whose texts are as long as their numbers say. -/
def tally : Crypto where
  privateKeyPEM n := List.replicate (n + 1) 'k'
  certificatePEM n := List.replicate (n + 1) 'c'
  parsePrivateKey text := .ok (text.length - 1)
  privateKeyPEM_ne n := List.cons_ne_nil _ _
  certificatePEM_ne n := List.cons_ne_nil _ _
  parse_privateKeyPEM n := by rw [List.length_replicate, Nat.add_sub_cancel]

/-- No setting is stored and no process has called. -/
def noKeys : Store where
  settings := ⟨.empty⟩
  generated := 0
  once _ := .fresh

/-- The keys and certificates that have been returned, the latest first. -/
def returnedPairs (log : List (Event Nat Call Result)) : List (Nat × Nat × GoString) :=
  log.filterMap fun e =>
    match e with
    | .returned process (.ok pair) => some (process, pair)
    | _ => none

theorem mem_of_mem_returnedPairs {log : List (Event Nat Call Result)} {process key : Nat}
    {certPEM : GoString} (hmem : (process, key, certPEM) ∈ returnedPairs log) :
    .returned process (.ok (key, certPEM)) ∈ log := by
  obtain ⟨e, he, hpair⟩ := List.mem_filterMap.mp hmem
  split at hpair
  · cases hpair
    exact he
  · exact nomatch hpair

/-- A process that has been stopped, a process that makes a pair, and one that loads it. -/
def oneAfterAnotherLabels : List (Label Nat) :=
  [.start 0 0] ++ Label.execs 0 5 ++ [.stop 0] ++ Label.alone 1 1 6 ++ Label.alone 2 2 2

/-- A certificate is stored, and a process that has not made the pair returns it. -/
theorem belongs_of_undisturbed_oneAfterAnother :
    ∃ w : KeyWorld, .returned 2 (.ok (1, tally.certificatePEM 1)) ∈ w.log ∧
      (∀ process key certPEM, .returned process (.ok (key, certPEM)) ∈ w.log →
        certPEM = tally.certificatePEM key) ∧
      (w.store.value spPrivateKey ≠ [] → w.store.value spCertificate ≠ [] →
        ∃ n, w.store.value spPrivateKey = tally.privateKeyPEM n ∧
          w.store.value spCertificate = tally.certificatePEM n) := by
  obtain ⟨w, hsteps, htest⟩ := System.exists_of_steps? (keySystem tally) undisturbed
    (World.initial noKeys) oneAfterAnotherLabels
    (fun w => (2, 1, tally.certificatePEM 1) ∈ returnedPairs w.log) (by decide +kernel)
  refine ⟨w, mem_of_mem_returnedPairs (of_decide_eq_true htest), ?_⟩
  apply belongs_of_undisturbed tally noKeys
  · intro hne
    exact absurd rfl hne
  · exact fun _ => rfl
  · exact System.run_of_steps? (fun _ _ hcheck => hcheck) hsteps

/-- The label is not about a failure or a process that stops. -/
def succeeds : Label Nat → Bool
  | .fail _ => false
  | .stop _ => false
  | _ => true

/-- Two processes find no pair; the certificate of the first is stored last. -/
def bothGenerateLabels : List (Label Nat) :=
  [.start 0 0, .start 1 1] ++ Label.execs 0 5 ++ Label.execs 1 6 ++ [.finish 1] ++
    Label.execs 0 1 ++ [.finish 0] ++ Label.alone 2 2 2

/-- Without a failure, the certificate of one key is stored with another key, and a process
returns it. -/
theorem mismatched_of_bothGenerate :
    ∃ w : KeyWorld,
      Run (keySystem tally).Step (fun _ l => (∀ i, l ≠ .fail i) ∧ ∀ i, l ≠ .stop i)
        (World.initial noKeys) w ∧
      .returned 2 (.ok (1, tally.certificatePEM 0)) ∈ w.log ∧
      tally.certificatePEM 0 ≠ tally.certificatePEM 1 ∧
      w.store.value spPrivateKey = tally.privateKeyPEM 1 ∧
      w.store.value spCertificate = tally.certificatePEM 0 := by
  obtain ⟨w, hsteps, htest⟩ := System.exists_of_steps? (keySystem tally)
    (fun _ l => succeeds l) (World.initial noKeys) bothGenerateLabels
    (fun w => (2, 1, tally.certificatePEM 0) ∈ returnedPairs w.log ∧
      w.store.value spPrivateKey = tally.privateKeyPEM 1 ∧
      w.store.value spCertificate = tally.certificatePEM 0) (by decide +kernel)
  obtain ⟨hreturned, hstored⟩ := of_decide_eq_true htest
  refine ⟨w, ?_, mem_of_mem_returnedPairs hreturned, by decide, hstored⟩
  refine System.run_of_steps? ?_ hsteps
  intro _ l hsucceeds
  cases l with
  | fail i => exact nomatch hsucceeds
  | stop i => exact nomatch hsucceeds
  | _ => exact ⟨nofun, nofun⟩

end SigningKey
end Sso
end Veilence

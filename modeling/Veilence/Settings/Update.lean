import Veilence.Go.Strconv
import Veilence.Settings.Database

/-!
# Updates of the settings of a workspace

{lit}`UpdateSettings` goes through the given map in any order and checks and stores one setting
after the other, without a transaction.  A setting that is rejected or cannot be stored ends the
update, but what has been stored before stays.  The same happens when the settings cannot be read
at the end.

Main results:

- Theorem {lit}`runFailing_updateSettings`: what every update stores and when it succeeds.
- Theorem {lit}`unchanged_or_updated_iff`: an update is done completely or not at all if and only
  if nothing is rejected and nothing fails, or all that is stored before was so already.
- Theorem {lit}`rejected_update_changes`: a rejected update that stores a setting.
-/

namespace Veilence
namespace Settings

open Go Foundation

/-! ## Checks -/

/-- The readers of texts that the checks use: {lit}`time.ParseDuration`, in nanoseconds and without
a value after an error, and whether {lit}`mail.ParseAddress` accepts a text.  The empty text is no
duration. -/
structure Readers where
  parseDuration : GoString → Option Int
  parseAddress : GoString → Bool
  parseDuration_nil : parseDuration [] = none

/-- {lit}`SettingDiscoveryScanDepth`. -/
def settingDiscoveryScanDepth : GoString := "discovery_scan_depth".toList

/-- {lit}`SettingDiscoveryInterval`. -/
def settingDiscoveryInterval : GoString := "discovery_interval".toList

/-- {lit}`SettingMonitoringInterval`. -/
def settingMonitoringInterval : GoString := "monitoring_interval".toList

/-- {lit}`SettingEmailDigestEnabled`. -/
def settingEmailDigestEnabled : GoString := "email_digest_enabled".toList

/-- {lit}`SettingEmailDigestFrequency`. -/
def settingEmailDigestFrequency : GoString := "email_digest_frequency".toList

/-- {lit}`SettingEmailDigestRecipients`. -/
def settingEmailDigestRecipients : GoString := "email_digest_recipients".toList

/-- {lit}`SettingDiscoveryAutoApprove`. -/
def settingDiscoveryAutoApprove : GoString := "discovery_auto_approve".toList

/-- {lit}`SettingStaleAutoRemoveMonths`. -/
def settingStaleAutoRemoveMonths : GoString := "stale_auto_remove_months".toList

/-- {lit}`SettingPackageCountWarningThreshold`. -/
def settingPackageCountWarningThreshold : GoString := "package_count_warning_threshold".toList

/-- {lit}`ValidSettingKeys`. -/
def validSettingKeys : List GoString :=
  [settingDiscoveryScanDepth, settingDiscoveryInterval, settingMonitoringInterval,
    settingEmailDigestEnabled, settingEmailDigestFrequency, settingEmailDigestRecipients,
    settingDiscoveryAutoApprove, settingStaleAutoRemoveMonths,
    settingPackageCountWarningThreshold]

/-- An integer in a range: the message, if it is none. -/
def validateIntRange (value : GoString) (low high : Int) (message : String) : Option GoString :=
  match atoi? value with
  | none => some message.toList
  | some n => if n < low ∨ high < n then some message.toList else none

/-- One of two words: the message, if it is neither. -/
def validateChoice (value : GoString) (first second message : String) : Option GoString :=
  if value ≠ first.toList ∧ value ≠ second.toList then some message.toList else none

/-- A minute in nanoseconds. -/
def minute : Int := 60 * 10 ^ 9

/-- An hour in nanoseconds. -/
def hour : Int := 60 * minute

/-- {lit}`validateDurationRange`: the message of the error, if there is one. -/
def validateDurationRange (R : Readers) (value : GoString) (fieldName : String) :
    Option GoString :=
  match R.parseDuration value with
  | none => some (fieldName.toList ++ " must be a valid duration (e.g. '5m', '1h')".toList)
  | some d =>
      if d < minute ∨ 168 * hour < d then
        some (fieldName.toList ++ " must be between 1m and 168h".toList)
      else none

/-- {lit}`validateEmailRecipients`: the message of the error, if there is one. -/
def validateEmailRecipients (R : Readers) (value : GoString) : Option GoString :=
  if trimSpace value = [] then
    some "Email digest recipients must contain at least one email address".toList
  else
    (split ',' value).findSome? fun part =>
      let addr := trimSpace part
      if addr = [] then none
      else if R.parseAddress addr then none
      else some ("Email digest recipients contains invalid email: ".toList ++ addr)

/-- The checks of {lit}`UpdateSettings` for one setting: the message of the validation error, if
there is one. -/
def validateSetting (R : Readers) (key value : GoString) : Option GoString :=
  if key ∉ validSettingKeys then some ("invalid setting key: ".toList ++ key)
  else if key = settingDiscoveryScanDepth then
    validateIntRange value 1 1000 "Discovery scan depth must be an integer between 1 and 1000"
  else if key = settingMonitoringInterval then
    validateDurationRange R value "Monitoring interval"
  else if key = settingDiscoveryInterval then
    validateDurationRange R value "Discovery interval"
  else if key = settingEmailDigestEnabled then
    validateChoice value "true" "false" "Email digest enabled must be 'true' or 'false'"
  else if key = settingEmailDigestFrequency then
    validateChoice value "daily" "weekly" "Email digest frequency must be 'daily' or 'weekly'"
  else if key = settingEmailDigestRecipients then validateEmailRecipients R value
  else if key = settingDiscoveryAutoApprove then
    validateChoice value "true" "false" "Discovery auto-approve must be 'true' or 'false'"
  else if key = settingStaleAutoRemoveMonths then
    validateIntRange value 0 36 "Stale auto-remove months must be an integer between 0 and 36"
  else if key = settingPackageCountWarningThreshold then
    validateIntRange value 0 100000
      "Package count warning threshold must be an integer between 0 and 100000"
  else none

/-- No check lets an empty value pass. -/
theorem value_ne_nil {R : Readers} {key value : GoString}
    (hvalid : validateSetting R key value = none) : value ≠ [] := by
  rintro rfl
  have hint : ∀ low high message, validateIntRange [] low high message ≠ none := by
    intro low high message
    exact Option.some_ne_none _
  have hduration : ∀ fieldName, validateDurationRange R [] fieldName ≠ none := by
    intro fieldName
    unfold validateDurationRange
    rw [R.parseDuration_nil]
    exact Option.some_ne_none _
  have hrecipients : validateEmailRecipients R [] ≠ none := Option.some_ne_none _
  have hbool : ∀ message, validateChoice [] "true" "false" message ≠ none := by
    intro message
    exact Option.some_ne_none _
  unfold validateSetting at hvalid
  split_ifs at hvalid with hkey
  · exact hint _ _ _ hvalid
  · exact hduration _ hvalid
  · exact hduration _ hvalid
  · exact hbool _ hvalid
  · exact absurd hvalid (Option.some_ne_none _)
  · exact hrecipients hvalid
  · exact hbool _ hvalid
  · exact hint _ _ _ hvalid
  · exact hint _ _ _ hvalid
  · simp_all [validSettingKeys]

/-! ## The service -/

/-- An error: that of a check with its message, or that of a call with the text it begins with. -/
inductive Error where
  | validation (message : GoString)
  | repository (message : GoString)
deriving DecidableEq

/-- {lit}`GetSettings`. -/
def getSettings (workspaceID : GoString) :
    Prog Call Response (Except Error (Table GoString GoString)) := do
  match ← .call (.findByWorkspaceID workspaceID) with
  | none => pure (.error (.repository "listing settings".toList))
  | some settings => pure (.ok (Table.empty.insertAll settings))

/-- {lit}`UpdateSettings` for the entries of a map in the order of the iteration. -/
def updateSettings (R : Readers) (workspaceID : GoString) :
    List Setting → Prog Call Response (Except Error (Table GoString GoString))
  | [] => getSettings workspaceID
  | (key, value) :: settings =>
      match validateSetting R key value with
      | some message => pure (.error (.validation message))
      | none => do
          match ← .call (.upsertByWorkspaceAndKey workspaceID key value) with
          | none => pure (.error (.repository ("upserting ".toList ++ key)))
          | some _ => updateSettings R workspaceID settings

/-- A setting passes its checks. -/
def Valid (R : Readers) (s : Setting) : Bool :=
  validateSetting R s.1 s.2 = none

/-- The settings before the first one that is rejected or whose call, at the given position, fails.
-/
def beforeFirst (R : Readers) (settings : List Setting) (position : Option Nat) : List Setting :=
  (settings.take (position.getD settings.length)).takeWhile (Valid R)

/-- Nothing is rejected, and no call fails: neither one that stores a setting nor the one that
reads them at the end. -/
def Succeeds (R : Readers) (settings : List Setting) (position : Option Nat) : Prop :=
  (∀ s ∈ settings, Valid R s = true) ∧ ∀ n, position = some n → settings.length < n

/-- An update whose result is an error has changed no setting of anyone, and one that succeeds has
stored exactly the given settings of the workspace. -/
def UnchangedOrUpdated (db : Database) (workspaceID : GoString) (settings : List Setting)
    (result : Database × Except Error (Table GoString GoString)) : Prop :=
  (∀ e, result.2 = .error e → ∀ owner key, result.1.get? owner key = db.get? owner key) ∧
  ∀ updated, result.2 = .ok updated →
    (∀ s ∈ settings, result.1.get? (some workspaceID) s.1 = some s.2) ∧
    ∀ owner key, (owner = some workspaceID → key ∉ settings.map Prod.fst) →
      result.1.get? owner key = db.get? owner key

section Runs

variable {R : Readers} {workspaceID : GoString}

/-- An update stores what comes before the first rejection or failure, and it succeeds if there is
none. -/
theorem runFailing_updateSettings (settings : List Setting) (position : Option Nat)
    (db : Database) :
    (machine.runFailing position (updateSettings R workspaceID settings) db).1 =
        db.upsertAll (some workspaceID) (beforeFirst R settings position) ∧
      ((∃ updated, (machine.runFailing position (updateSettings R workspaceID settings) db).2 =
        .ok updated) ↔ Succeeds R settings position) := by
  induction settings generalizing position db with
  | nil =>
      unfold updateSettings getSettings
      rw [Prog.call_bind, Machine.runFailing_cmd]
      cases position with
      | none => exact ⟨rfl, fun _ => ⟨nofun, nofun⟩, fun _ => ⟨_, rfl⟩⟩
      | some n =>
          cases n with
          | zero =>
              refine ⟨rfl, fun h => ?_, fun h => absurd (h.2 0 rfl) (Nat.lt_irrefl 0)⟩
              rcases h with ⟨updated, hupdated⟩
              exact nomatch hupdated
          | succ n =>
              refine ⟨by simp [beforeFirst]; rfl, fun _ => ⟨nofun, ?_⟩, fun _ => ⟨_, rfl⟩⟩
              intro n' hn'
              obtain rfl := Option.some.inj hn'
              exact Nat.succ_pos n
  | cons s settings ih =>
      obtain ⟨key, value⟩ := s
      unfold updateSettings
      cases hvalid : validateSetting R key value with
      | some message =>
          have hnot : Valid R (key, value) = false := by simp [Valid, hvalid]
          dsimp only
          rw [Prog.pure_eq, Machine.runFailing_ret]
          refine ⟨?_, fun h => ?_, fun h => ?_⟩
          · have hnone : beforeFirst R ((key, value) :: settings) position = [] := by
              unfold beforeFirst
              cases hn : position.getD ((key, value) :: settings).length with
              | zero => rfl
              | succ n => rw [List.take_succ_cons, List.takeWhile_cons_of_neg (by simp [hnot])]
            rw [hnone]
            rfl
          · rcases h with ⟨updated, hupdated⟩
            exact nomatch hupdated
          · exact absurd (h.1 _ List.mem_cons_self) (by simp [hnot])
      | none =>
          have hok : Valid R (key, value) = true := by simp [Valid, hvalid]
          dsimp only
          rw [Prog.call_bind, Machine.runFailing_cmd]
          by_cases hzero : position = some 0
          · subst hzero
            rw [if_pos rfl]
            refine ⟨rfl, fun h => ?_, fun h => ?_⟩
            · rcases h with ⟨updated, hupdated⟩
              exact nomatch hupdated
            · exact absurd (h.2 0 rfl) (Nat.not_lt_zero _)
          · rw [if_neg hzero]
            have hrest := ih (Machine.advance position)
              (db.upsert (some workspaceID) key value)
            have hbefore : beforeFirst R ((key, value) :: settings) position =
                (key, value) :: beforeFirst R settings (Machine.advance position) := by
              unfold beforeFirst
              rcases position with _ | _ | n
              · simp [Machine.advance, hok]
              · exact absurd rfl hzero
              · simp [Machine.advance, hok]
            have hsucceeds : Succeeds R ((key, value) :: settings) position ↔
                Succeeds R settings (Machine.advance position) := by
              unfold Succeeds
              rw [List.forall_mem_cons, and_iff_right hok]
              apply and_congr_right
              intro _
              rcases position with _ | _ | n
              · simp [Machine.advance]
              · exact absurd rfl hzero
              · simp [Machine.advance]
            rw [hbefore, hsucceeds]
            exact hrest

/-- What is stored has passed its checks. -/
theorem valid_of_mem_beforeFirst {settings : List Setting} {position : Option Nat} {s : Setting}
    (hs : s ∈ beforeFirst R settings position) : validateSetting R s.1 s.2 = none := by
  have hvalid : Valid R s = true := List.mem_takeWhile_imp hs
  exact of_decide_eq_true hvalid

theorem beforeFirst_sublist {settings : List Setting} {position : Option Nat} :
    (beforeFirst R settings position).Sublist settings :=
  (List.takeWhile_sublist _).trans (List.take_sublist _ _)

/-- Without a rejection or a failure everything is stored. -/
theorem beforeFirst_of_succeeds {settings : List Setting} {position : Option Nat}
    (hsucceeds : Succeeds R settings position) : beforeFirst R settings position = settings := by
  unfold beforeFirst
  have hlength : settings.length ≤ position.getD settings.length := by
    cases position with
    | none => exact le_rfl
    | some n => exact (hsucceeds.2 n rfl).le
  rw [List.take_of_length_le hlength, List.takeWhile_eq_self_iff.mpr hsucceeds.1]

end Runs

/-- For every map of settings in every order and every failing call, an update that returns an
error has changed nothing and one that succeeds has stored exactly what is given, if and only if
nothing is rejected and nothing fails, or every setting before the first that is rejected or whose
call fails has been stored with its value before. -/
theorem unchanged_or_updated_iff (R : Readers) (workspaceID : GoString) (settings : List Setting)
    (hkeys : (settings.map Prod.fst).Nodup) (position : Option Nat) (db : Database) :
    UnchangedOrUpdated db workspaceID settings
        (machine.runFailing position (updateSettings R workspaceID settings) db) ↔
      Succeeds R settings position ∨
        ∀ s ∈ beforeFirst R settings position, db.get? (some workspaceID) s.1 = some s.2 := by
  obtain ⟨hstate, hresult⟩ := @runFailing_updateSettings R workspaceID settings position db
  have hbefore : ((beforeFirst R settings position).map Prod.fst).Nodup :=
    hkeys.sublist (beforeFirst_sublist.map Prod.fst)
  have hvalues : ∀ s ∈ beforeFirst R settings position, s.2 ≠ [] := by
    intro s hs
    exact value_ne_nil (valid_of_mem_beforeFirst hs)
  have hunchanged : ∀ owner key,
      (owner = some workspaceID → key ∉ (beforeFirst R settings position).map Prod.fst) →
        (db.upsertAll (some workspaceID) (beforeFirst R settings position)).get? owner key =
          db.get? owner key := by
    intro owner key hother
    exact get?_upsertAll_of_notMem hvalues hother
  unfold UnchangedOrUpdated
  rw [hstate]
  constructor
  · intro hall
    by_cases hsucceeds : Succeeds R settings position
    · exact Or.inl hsucceeds
    · right
      intro s hs
      cases hout : (machine.runFailing position (updateSettings R workspaceID settings) db).2 with
      | ok updated => exact absurd (hresult.mp ⟨updated, hout⟩) hsucceeds
      | error e =>
          rw [← hall.1 e hout]
          exact get?_upsertAll hbefore hvalues hs
  · intro hcondition
    constructor
    · intro e he owner key
      rcases hcondition with hsucceeds | hstored
      · rcases hresult.mpr hsucceeds with ⟨updated, hupdated⟩
        rw [hupdated] at he
        exact nomatch he
      · by_cases hother : owner = some workspaceID →
            key ∉ (beforeFirst R settings position).map Prod.fst
        · exact hunchanged owner key hother
        · -- the stored value is the one that was there
          rw [Classical.not_imp, not_not] at hother
          obtain ⟨rfl, hmem⟩ := hother
          rcases List.mem_map.mp hmem with ⟨s, hs, rfl⟩
          rw [get?_upsertAll hbefore hvalues hs, hstored s hs]
    · intro updated hupdated
      have hsucceeds := hresult.mp ⟨updated, hupdated⟩
      rw [beforeFirst_of_succeeds hsucceeds] at hvalues hunchanged ⊢
      constructor
      · intro s hs
        exact get?_upsertAll hkeys hvalues hs
      · exact hunchanged

/-! ## A rejected update -/

/-- Readers that know one duration and no address. -/
def exampleReaders : Readers where
  parseDuration value := if value = "5m".toList then some (5 * minute) else none
  parseAddress _ := false
  parseDuration_nil := rfl

/-- No settings. -/
def noSettings : Database :=
  ⟨Table.empty⟩

/-- An update of one setting. -/
theorem unchanged_or_updated_iff_interval :
    UnchangedOrUpdated noSettings "w".toList [(settingMonitoringInterval, "5m".toList)]
      (machine.runFailing none
        (updateSettings exampleReaders "w".toList [(settingMonitoringInterval, "5m".toList)])
        noSettings) :=
  (unchanged_or_updated_iff exampleReaders "w".toList
    [(settingMonitoringInterval, "5m".toList)] (by decide) none noSettings).mpr
    (Or.inl ⟨by decide, nofun⟩)

/-- A setting is stored before the next one is rejected. -/
theorem rejected_update_changes :
    ¬UnchangedOrUpdated noSettings "w".toList
      [(settingDiscoveryScanDepth, "5".toList), (settingEmailDigestFrequency, "monthly".toList)]
      (machine.runFailing none
        (updateSettings exampleReaders "w".toList
          [(settingDiscoveryScanDepth, "5".toList),
            (settingEmailDigestFrequency, "monthly".toList)]) noSettings) := by
  intro hall
  cases hout : (machine.runFailing none (updateSettings exampleReaders "w".toList
      [(settingDiscoveryScanDepth, "5".toList), (settingEmailDigestFrequency, "monthly".toList)])
      noSettings).2 with
  | ok updated =>
      have hsucceeds := (runFailing_updateSettings _ none noSettings).2.mp ⟨updated, hout⟩
      exact absurd (hsucceeds.1 (settingEmailDigestFrequency, "monthly".toList) (by decide))
        (by decide)
  | error e =>
      have hunchanged := hall.1 e hout (some "w".toList) settingDiscoveryScanDepth
      exact absurd hunchanged (by decide +kernel)

end Settings
end Veilence

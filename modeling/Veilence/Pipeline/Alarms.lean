import Veilence.Foundation.Dues
import Veilence.Pipeline.Baseline

/-!
# Alerts of the release pipeline

An analysis that finds a release suspicious or malicious asks for an alert, and the worker
creates it right after it has stored the analysis.  Analyses and alerts have no transaction in
common, so an alert is lost when its creation fails and when the worker dies between the two;
no later job makes up for it.  Apart from that the alerts of a release are exactly those that
its analyses ask for, one for each, whatever is processed at the same time or again.

Main results:

- Theorem {lit}`prompt_bodyOf`: an alert is created right after its analysis and never
  otherwise.
- Theorem {lit}`alerts_of_run`: in every run the alerts and the lost ones are those that the
  analyses ask for.
-/

namespace Veilence
namespace Pipeline

open Go Foundation

/-! ## Alerts as dues -/

/-- The alert that an analysis asks for, with the release and the severity. -/
def alertFor (diffID : DiffID) (classification : Classification) : Option (Nat × AlertSeverity) :=
  (alertSeverity classification).map fun severity => (diffID.release, severity)

/-- A stored analysis leaves its alert due. -/
def alerting : Dues Call Answer (Nat × AlertSeverity) where
  leaves
    | .createAnalysis diffID classification, _ => alertFor diffID classification
    | _, _ => none
  pays
    | .createAlert releaseID severity => some (releaseID, severity)
    | _ => none

/-- How many alerts of a release have a severity. -/
def State.alertCount (s : State) (alert : Nat × AlertSeverity) : Nat :=
  s.alerts.count alert

/-- How many analyses ask for such an alert. -/
def State.alarmCount (s : State) (alert : Nat × AlertSeverity) : Nat :=
  s.analyses.countP fun e => alertFor e.1 e.2 = some alert

/-! ## Operations that store no results -/

/-- The call stores no diff, analysis or alert. -/
def Call.Plain : Call → Prop
  | .createDiff _ _ | .createAnalysis _ _ | .createAlert _ _ => False
  | _ => True

/-- Besides, the call completes no release, and a release that it creates is pending. -/
def Call.Preparing : Call → Prop
  | .createDiff _ _ | .createAnalysis _ _ | .createAlert _ _ => False
  | .updateReleaseStatus _ .completed => False
  | .createRelease release => release.status = .pending
  | _ => True

/-- The call stores no analysis or alert, creates no release and completes only this one. -/
def Call.Diffing (releaseID : Nat) : Call → Prop
  | .createAnalysis _ _ | .createAlert _ _ | .createRelease _ => False
  | .updateReleaseStatus r .completed => r = releaseID
  | _ => True

theorem Call.Preparing.plain {c : Call} (hc : c.Preparing) : c.Plain := by
  cases c with
  | createDiff releaseID prevReleaseID => exact hc
  | createAnalysis diffID classification => exact hc
  | createAlert releaseID severity => exact hc
  | _ => trivial

section Plain

variable {cfg : Config}

theorem preparing_goVersions (name : GoString) (versionCount : Nat)
    (versions : List RegistryVersionInfo) (lines : List GoString) :
    (goVersions cfg name versionCount versions lines).Only Call.Preparing := by
  induction lines generalizing versionCount versions with
  | nil => trivial
  | cons line lines ih =>
      simp only [goVersions]
      split_ifs
      · trivial
      · exact ih _ _
      · exact ⟨trivial, by rintro (_ | _) <;> exact ih _ _⟩

theorem preparing_getPackage (pkg : Package) : (getPackage cfg pkg).Only Call.Preparing := by
  rw [getPackage]
  split
  · split_ifs
    · trivial
    · refine ⟨trivial, ?_⟩
      rintro (_ | body)
      · trivial
      · refine (preparing_goVersions _ _ _ _).bind fun versions => ?_
        split_ifs <;> trivial
  · exact ⟨trivial, by rintro (_ | _) <;> trivial⟩

theorem preparing_createReleases (packageID : Nat) (versions : List RegistryVersionInfo) :
    (createReleases packageID versions).Only Call.Preparing := by
  induction versions with
  | nil => trivial
  | cons v versions ih =>
      refine ⟨trivial, ?_⟩
      rintro (_ | _ | id)
      · exact ih
      · refine ⟨rfl, ?_⟩
        rintro (_ | id)
        · exact ih
        · exact ⟨trivial, fun _ => ih⟩
      · exact ih

theorem preparing_checkPackageForNewReleases (packageID : Nat) (pkg : Package) :
    (checkPackageForNewReleases cfg packageID pkg).Only Call.Preparing := by
  refine (preparing_getPackage pkg).bind ?_
  rintro (_ | _ | ⟨v, versions⟩)
  · trivial
  · trivial
  · exact ⟨trivial, fun _ => preparing_createReleases _ _⟩

theorem preparing_markError (releaseID : Nat) (message : GoString) :
    (markError releaseID message).Only Call.Preparing :=
  ⟨trivial, fun _ => trivial⟩

/-- The last part of a re-analysis without a diff. -/
theorem preparing_requeueDiff (releaseID : Nat) :
    Prog.Only Call.Preparing (do
      match ← send (.updateReleaseStatus releaseID .pending) with
      | none => return .error "updating status".toList
      | some _ =>
          match ← send (.enqueue (.diff releaseID)) with
          | none => return .error "enqueue diff".toList
          | some _ => return .ok : Body Result) := by
  refine ⟨trivial, ?_⟩
  rintro (_ | _)
  · trivial
  · exact ⟨trivial, by rintro (_ | _) <;> trivial⟩

theorem preparing_reanalyzeRelease (workspaceID : GoString) (releaseID : Nat) :
    (reanalyzeRelease workspaceID releaseID).Only Call.Preparing := by
  refine ⟨trivial, ?_⟩
  rintro (_ | _ | _)
  · trivial
  · trivial
  · refine ⟨trivial, ?_⟩
    rintro (_ | _ | diffID)
    · exact preparing_requeueDiff _
    · exact preparing_requeueDiff _
    · refine ⟨trivial, ?_⟩
      rintro (_ | _)
      · trivial
      · exact ⟨trivial, by rintro (_ | _) <;> trivial⟩

theorem plain_recoverRelease (releaseID : Nat) (release : Release) :
    (recoverRelease releaseID release).Only Call.Plain := by
  have hlast (c : Call) (hc : c.Plain) :
      (Prog.cmd c fun _ => .ret () : Body Unit).Only Call.Plain :=
    ⟨hc, fun _ => trivial⟩
  have hdiff : (Prog.cmd (.updateReleaseStatus releaseID .pending) fun _ =>
      (Prog.cmd (.enqueue (.diff releaseID)) fun _ => .ret () : Body Unit)).Only Call.Plain :=
    ⟨trivial, fun _ => hlast _ trivial⟩
  rw [recoverRelease]
  split
  · exact hdiff
  · refine ⟨trivial, ?_⟩
    rintro (_ | _ | diffID)
    · exact hdiff
    · exact hdiff
    · refine ⟨trivial, fun analysisCount => ?_⟩
      change Prog.Only Call.Plain (if analysisCount.getD 0 = 0 then _ else _)
      split_ifs
      · exact hlast _ trivial
      · exact hlast _ trivial
  · trivial

theorem plain_recoverStuckReleases : recoverStuckReleases.Only Call.Plain := by
  have hloop (stuck : List (Nat × Release)) : (recoverReleases stuck).Only Call.Plain := by
    induction stuck with
    | nil => trivial
    | cons e stuck ih =>
        obtain ⟨releaseID, release⟩ := e
        exact (plain_recoverRelease releaseID release).bind fun _ => ih
  exact ⟨trivial, fun stuck => hloop _⟩

theorem diffing_diffAgainst (releaseID : Nat) (release : Release) (pkg : Package)
    (prevReleaseID : Nat) (prevRelease : Release) :
    (diffAgainst cfg releaseID release pkg prevReleaseID prevRelease).Only
      (Call.Diffing releaseID) := by
  have hfail (message : GoString) : (markError releaseID message).Only (Call.Diffing releaseID) :=
    ⟨trivial, fun _ => trivial⟩
  rw [diffAgainst]
  split_ifs
  · trivial
  · refine ⟨trivial, Option.rec (hfail _) fun _ => ?_⟩
    refine ⟨trivial, Option.rec (hfail _) fun _ => ?_⟩
    refine ⟨trivial, Option.rec (hfail _) fun _ => ?_⟩
    refine ⟨trivial, Option.rec (hfail _) fun _ => ?_⟩
    refine ⟨trivial, Option.rec (hfail _) fun _ => ?_⟩
    refine ⟨trivial, Option.rec (hfail _) fun diffID => ?_⟩
    refine ⟨trivial, fun _ => ⟨trivial, ?_⟩⟩
    rintro (_ | _) <;> trivial

theorem diffing_processRelease (releaseID : Nat) :
    (processRelease cfg releaseID).Only (Call.Diffing releaseID) := by
  have hcomplete : (Prog.cmd (.updateReleaseStatus releaseID .completed) fun _ => .ret .ok :
      Body Result).Only (Call.Diffing releaseID) :=
    ⟨rfl, fun _ => trivial⟩
  refine ⟨trivial, ?_⟩
  rintro (_ | _ | ⟨release, pkg⟩)
  · trivial
  · trivial
  · refine ⟨trivial, fun _ => ⟨trivial, ?_⟩⟩
    rintro (_ | _ | ⟨prevReleaseID, prevRelease⟩)
    · exact hcomplete
    · exact hcomplete
    · exact diffing_diffAgainst _ _ _ _ _

end Plain

/-! ## Every operation is prompt -/

section Bodies

variable {cfg : Config}

theorem prompt_of_plain {α : Type} {p : Body α} (hp : p.Only Call.Plain) :
    alerting.Prompt none p := by
  refine Dues.prompt_of_only (hp.mono fun c hc => ?_)
  cases c with
  | createDiff releaseID prevReleaseID => exact hc.elim
  | createAnalysis diffID classification => exact hc.elim
  | createAlert releaseID severity => exact hc.elim
  | _ => exact ⟨rfl, fun _ => rfl⟩

theorem prompt_of_preparing {α : Type} {p : Body α} (hp : p.Only Call.Preparing) :
    alerting.Prompt none p :=
  prompt_of_plain (hp.mono fun _ => Call.Preparing.plain)

theorem prompt_processRelease (releaseID : Nat) :
    alerting.Prompt none (processRelease cfg releaseID) := by
  refine Dues.prompt_of_only ((diffing_processRelease releaseID).mono fun c hc => ?_)
  cases c with
  | createAnalysis diffID classification => exact hc.elim
  | createAlert releaseID severity => exact hc.elim
  | _ => exact ⟨rfl, fun _ => rfl⟩

/-- The only place where analyses and alerts are created. -/
theorem prompt_analyzeWith (diffID : DiffID) (analysisCreated : Bool)
    (providers : List GoString) :
    alerting.Prompt none (analyzeWith diffID analysisCreated providers) := by
  induction providers generalizing analysisCreated with
  | nil => rfl
  | cons provider providers ih =>
      refine ⟨rfl, fun classification => ?_, ih _⟩
      refine ⟨rfl, fun _ => ?_, ih _⟩
      cases classification with
      | benign => exact ih _
      | suspicious => exact ⟨rfl, fun _ => ih _, ih _⟩
      | malicious => exact ⟨rfl, fun _ => ih _, ih _⟩

theorem prompt_processDiff (diffID : DiffID) :
    alerting.Prompt none (processDiff cfg diffID) := by
  refine ⟨rfl, ?_, rfl⟩
  rintro (_ | ⟨diff, _⟩)
  · rfl
  · refine ⟨rfl, ?_, rfl⟩
    rintro (_ | _)
    · rfl
    · refine (prompt_analyzeWith _ _ _).bind ?_
      rintro (_ | _)
      · rfl
      · exact ⟨rfl, fun _ => rfl, rfl⟩

/-- An alert is created right after its analysis and never otherwise. -/
theorem prompt_bodyOf (op : Op) : alerting.Prompt none (bodyOf cfg op) := by
  cases op with
  | poll packageID pkg =>
      exact prompt_of_preparing (preparing_checkPackageForNewReleases packageID pkg)
  | processRelease jobID releaseID => exact prompt_processRelease releaseID
  | processDiff jobID diffID => exact prompt_processDiff diffID
  | reanalyzeRelease workspaceID releaseID =>
      exact prompt_of_preparing (preparing_reanalyzeRelease workspaceID releaseID)
  | recoverStuckReleases => exact prompt_of_plain plain_recoverStuckReleases

end Bodies

/-! ## Alerts along a run -/

/-- Starting and ending an operation creates neither analyses nor alerts. -/
theorem counts_setRunning (s : State) (op : Op) (running : Bool) (alert : Nat × AlertSeverity) :
    (s.setRunning op running).alarmCount alert = s.alarmCount alert ∧
      (s.setRunning op running).alertCount alert = s.alertCount alert := by
  rw [State.setRunning]
  split <;> exact ⟨rfl, rfl⟩

theorem counts_done (s : State) (op : Op) (result : Result) (alert : Nat × AlertSeverity) :
    (s.done op result).alarmCount alert = s.alarmCount alert ∧
      (s.done op result).alertCount alert = s.alertCount alert := by
  cases result with
  | error message => exact counts_setRunning s op false alert
  | ok =>
      rw [State.done]
      split <;> exact ⟨rfl, rfl⟩

/-- Analyses and alerts are counted where they are stored. -/
theorem counted_pipeline (cfg : Config) (alert : Nat × AlertSeverity) :
    alerting.Counted alert (pipelineSystem cfg) (State.alarmCount · alert)
      (State.alertCount · alert) where
  prompt := prompt_bodyOf
  left_exec := by
    intro s c
    cases c with
    | createAnalysis diffID classification =>
        change ((diffID, classification) :: s.analyses).countP _ = _
        rw [List.countP_cons]
        simp only [decide_eq_true_eq]
        rfl
    | _ => rfl
  paid_exec := by
    intro s c
    cases c with
    | createAlert releaseID severity =>
        change ((releaseID, severity) :: s.alerts).count alert = _
        rw [List.count_cons]
        simp [Dues.once, alerting, State.alertCount]
    | _ => rfl
  begins s op := counts_setRunning s op true alert
  done s op result := counts_done s op result alert
  stop s op := counts_setRunning s op false alert
  env := by
    intro s s' henv
    cases henv with
    | outside outside => exact ⟨rfl, rfl⟩
    | package hnew pkg => exact ⟨rfl, rfl⟩

section Runs

variable {cfg : Config} {packages : Table Nat Package} {outside : Outside}
  {alert : Nat × AlertSeverity} {w : PipelineWorld} {lost : Nat}

theorem balanced_of_run
    (hrun : Run ((pipelineSystem cfg).Tracked (alerting.lose alert)) (fun _ _ => True)
      (start packages outside, 0) (w, lost)) :
    alerting.Balanced alert (State.alarmCount · alert) (State.alertCount · alert) w lost :=
  Dues.run (counted_pipeline cfg alert) rfl hrun

/-- In every run, the alerts of a release with a severity and those lost are never more than
the analyses of the release ask for, and as many where no worker is about to create one. -/
theorem alerts_of_run
    (hrun : Run ((pipelineSystem cfg).Tracked (alerting.lose alert)) (fun _ _ => True)
      (start packages outside, 0) (w, lost)) :
    w.store.alertCount alert + lost ≤ w.store.alarmCount alert ∧
      ((∀ i, alerting.pending w i ≠ some alert) →
        w.store.alertCount alert + lost = w.store.alarmCount alert) :=
  ⟨(balanced_of_run hrun).le, (balanced_of_run hrun).eq⟩

/-- An alert is never without an analysis that asks for it. -/
theorem exists_analysis_of_alert
    (hrun : Run (pipelineSystem cfg).Step (fun _ _ => True) (start packages outside) w)
    (halert : alert ∈ w.store.alerts) :
    ∃ e ∈ w.store.analyses, e.1.release = alert.1 ∧ alertSeverity e.2 = some alert.2 := by
  obtain ⟨lost, htracked⟩ := System.exists_tracked (alerting.lose alert) hrun 0
  have hle := (balanced_of_run htracked).le
  have hpos : 0 < w.store.alertCount alert := List.count_pos_iff.mpr halert
  have hasked : 0 < w.store.alarmCount alert := by omega
  obtain ⟨e, he, hfor⟩ := List.countP_pos_iff.mp hasked
  obtain ⟨severity, hseverity, rfl⟩ := Option.map_eq_some_iff.mp (of_decide_eq_true hfor)
  exact ⟨e, he, rfl, hseverity⟩

end Runs

/-! ## A worker that dies before the alert -/

/-- The pipeline when the registry lists two versions and the provider finds everything
malicious. -/
def monitoringMalicious : PipelineWorld :=
  start (.single 0 onePackage)
    { oneVersionOutside with
      listed := fun _ _ => [secondVersion, firstVersion]
      verdict := fun _ _ => .malicious }

/-- The second release is analysed twice: the first worker dies when it has stored its
analysis. -/
def diesBeforeAlertLabels : List (Label Op) :=
  Label.alone 0 (.poll 0 onePackage) 8 ++ Label.alone 0 (.processRelease 0 0) 4 ++
    Label.alone 0 (.processRelease 1 1) 11 ++
    .start 0 (.processDiff 2 ⟨1, 0⟩) :: (Label.execs 0 4 ++ [.stop 0]) ++
    Label.alone 0 (.processDiff 2 ⟨1, 0⟩) 6

/-- Of the two critical alerts that are asked for one is created and one lost. -/
theorem alerts_of_run_diesBeforeAlert :
    ∃ w lost, Run ((pipelineSystem defaultConfig).Tracked (alerting.lose (1, .critical)))
        (fun _ _ => True) (monitoringMalicious, 0) (w, lost) ∧
      w.store.alertCount (1, .critical) = 1 ∧ w.store.alarmCount (1, .critical) = 2 ∧
      lost = 1 := by
  obtain ⟨w, hsteps, htest⟩ := System.exists_of_steps? (pipelineSystem defaultConfig)
    (fun _ _ => true) monitoringMalicious diesBeforeAlertLabels
    (fun w => w.store.alertCount (1, .critical) = 1 ∧ w.store.alarmCount (1, .critical) = 2 ∧
      (w.threads 0).isNone = true)
    (by decide +kernel)
  obtain ⟨halerts, halarms, hdone⟩ := of_decide_eq_true htest
  have hrun : Run (pipelineSystem defaultConfig).Step (fun _ _ => True) monitoringMalicious w :=
    System.run_of_steps? (fun _ _ _ => trivial) hsteps
  have hquiet : w.Quiescent := by
    refine System.quiescent_of_steps? hsteps (fun _ => rfl) fun i hi => ?_
    obtain rfl : i = 0 := by simpa [diesBeforeAlertLabels, Label.alone, Label.execs,
      Label.thread] using hi
    exact hdone
  obtain ⟨lost, htracked⟩ := System.exists_tracked (alerting.lose (1, .critical)) hrun 0
  have hbalance := (alerts_of_run htracked).2 fun i => by
    rw [Dues.pending_of_none (hquiet i)]
    exact Option.some_ne_none _ ∘ Eq.symm
  exact ⟨w, lost, htracked, halerts, halarms, by omega⟩

end Pipeline
end Veilence

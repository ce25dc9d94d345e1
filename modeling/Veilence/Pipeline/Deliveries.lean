import Veilence.Foundation.Allowance
import Veilence.Pipeline.Alarms

/-!
# What the deliveries of a job produce

A worker that takes a job does not look for what an earlier delivery of the job has already
stored, and no index of the database forbids a second diff of a release or a second analysis
of a diff.  So there may be several.  But each delivery of a diff job stores one diff of its
release at most, each delivery of an analyze job one analysis of its diff for every provider
at most, and nothing else stores any.

Main results:

- Theorem {lit}`within_bodyOf`: what one delivery stores.
- Theorem {lit}`products_of_run`: in every run the diffs and analyses are bounded by the
  deliveries.
-/

namespace Veilence
namespace Pipeline

open Go Foundation

/-! ## Products and deliveries -/

/-- What the jobs of a release and of a diff produce. -/
inductive Product where
  | diff (releaseID : Nat)
  | analysis (diffID : DiffID)
deriving DecidableEq

/-- How much a command adds to a product. -/
def Product.cost (x : Product) : Call → Nat
  | .createDiff releaseID _ => if x = .diff releaseID then 1 else 0
  | .createAnalysis diffID _ => if x = .analysis diffID then 1 else 0
  | _ => 0

/-- The operation processes a job that produces it. -/
def Product.delivered (x : Product) : Op → Bool
  | .processRelease _ releaseID => x = .diff releaseID
  | .processDiff _ diffID => x = .analysis diffID
  | _ => false

/-- What one delivery produces at most. -/
def Product.perDelivery (cfg : Config) : Product → Nat
  | .diff _ => 1
  | .analysis _ => cfg.providers.length

/-- The allowance of a delivery. -/
def producing (cfg : Config) (x : Product) : Allowance Op Call :=
  ⟨x.cost, x.delivered, x.perDelivery cfg⟩

/-- How often a product is stored. -/
def State.productCount (s : State) : Product → Nat
  | .diff releaseID => s.diffs.keys.countP fun d => d.release = releaseID
  | .analysis diffID => s.analyses.countP fun e => e.1 = diffID

/-! ## What one delivery stores -/

section Bodies

variable {cfg : Config} {x : Product} {n : Nat}

theorem within_of_plain {α : Type} {p : Body α} (hp : p.Only Call.Plain) :
    (producing cfg x).Within n p := by
  refine Allowance.within_of_only (hp.mono fun c hc => ?_)
  cases c with
  | createDiff releaseID prevReleaseID => exact hc.elim
  | createAnalysis diffID classification => exact hc.elim
  | createAlert releaseID severity => exact hc.elim
  | _ => rfl

theorem within_of_preparing {α : Type} {p : Body α} (hp : p.Only Call.Preparing) :
    (producing cfg x).Within n p :=
  within_of_plain (hp.mono fun _ => Call.Preparing.plain)

/-- One diff is stored at the end. -/
theorem within_diffAgainst (releaseID : Nat) (release : Release) (pkg : Package)
    (prevReleaseID : Nat) (prevRelease : Release)
    (hn : x.cost (.createDiff releaseID prevReleaseID) ≤ n) :
    (producing cfg x).Within n
      (diffAgainst cfg releaseID release pkg prevReleaseID prevRelease) := by
  rw [diffAgainst]
  split_ifs
  · trivial
  · have hfail (m : Nat) (message : GoString) :
        (producing cfg x).Within m (markError releaseID message) :=
      within_of_preparing (preparing_markError releaseID message)
    refine ⟨Nat.zero_le _, fun _ => ?_, hfail _ _⟩
    refine ⟨Nat.zero_le _, fun _ => ?_, hfail _ _⟩
    refine ⟨Nat.zero_le _, fun _ => ?_, hfail _ _⟩
    refine ⟨Nat.zero_le _, fun _ => ?_, hfail _ _⟩
    refine ⟨Nat.zero_le _, fun _ => ?_, hfail _ _⟩
    refine ⟨hn, fun diffID => ?_, hfail _ _⟩
    refine ⟨Nat.zero_le _, fun _ => ?_, ?_⟩
    · exact ⟨Nat.zero_le _, fun _ => trivial, trivial⟩
    · exact ⟨Nat.zero_le _, fun _ => trivial, trivial⟩

theorem within_afterDiffing (releaseID : Nat) (release : Release) (pkg : Package)
    (hn : ∀ prevReleaseID, x.cost (.createDiff releaseID prevReleaseID) ≤ n) :
    (producing cfg x).Within n (do
      match ← send (.findPreviousCompletedRelease release.packageID release.publishedAt) with
      | some (some (prevReleaseID, prevRelease)) =>
          diffAgainst cfg releaseID release pkg prevReleaseID prevRelease
      | _ =>
          let _ ← send (.updateReleaseStatus releaseID .completed)
          return .ok) := by
  have hcomplete : (producing cfg x).Within n
      (Prog.cmd (.updateReleaseStatus releaseID .completed) fun _ => .ret .ok : Body Result) :=
    ⟨Nat.zero_le _, fun _ => trivial, trivial⟩
  refine ⟨Nat.zero_le _, ?_, hcomplete⟩
  rintro (_ | ⟨prevReleaseID, prevRelease⟩)
  · exact hcomplete
  · exact within_diffAgainst _ _ _ _ _ (hn prevReleaseID)

theorem within_processRelease (releaseID : Nat) (hn : x = .diff releaseID → 1 ≤ n) :
    (producing cfg x).Within n (processRelease cfg releaseID) := by
  have hcost : ∀ prevReleaseID, x.cost (.createDiff releaseID prevReleaseID) ≤ n := by
    intro prevReleaseID
    rw [Product.cost]
    split_ifs with hx
    · exact hn hx
    · exact Nat.zero_le n
  refine ⟨Nat.zero_le _, ?_, trivial⟩
  rintro (_ | ⟨release, pkg⟩)
  · trivial
  · exact ⟨Nat.zero_le _, fun _ => within_afterDiffing _ _ _ hcost,
      within_afterDiffing _ _ _ hcost⟩

theorem within_createAlertFor (releaseID : Nat) (classification : Classification) :
    (producing cfg x).Within 0 (createAlertFor releaseID classification) := by
  cases classification with
  | benign => trivial
  | suspicious => exact ⟨Nat.zero_le _, fun _ => trivial, trivial⟩
  | malicious => exact ⟨Nat.zero_le _, fun _ => trivial, trivial⟩

/-- Every provider makes one analysis at most. -/
theorem within_analyzeWith (diffID : DiffID) (analysisCreated : Bool)
    (providers : List GoString) :
    (producing cfg x).Within ((if x = .analysis diffID then 1 else 0) * providers.length)
      (analyzeWith diffID analysisCreated providers) := by
  induction providers generalizing analysisCreated with
  | nil => trivial
  | cons provider providers ih =>
      rw [List.length_cons, Nat.mul_succ]
      have hmore (created : Bool) := (ih created).mono (Nat.le_add_right _
        (if x = .analysis diffID then 1 else 0))
      refine ⟨Nat.zero_le _, fun classification => ?_, hmore _⟩
      refine ⟨Nat.le_add_left _ _, fun _ => ?_, hmore _⟩
      have halert : (producing cfg x).Within 0 (createAlertFor diffID.release classification) :=
        within_createAlertFor _ _
      have hrest := halert.bind fun _ => ih true
      rw [Nat.zero_add] at hrest
      change (producing cfg x).Within (_ + _ - (if x = .analysis diffID then 1 else 0)) _
      rwa [Nat.add_sub_cancel]

theorem within_processDiff (diffID : DiffID) :
    (producing cfg x).Within ((if x = .analysis diffID then 1 else 0) * cfg.providers.length)
      (processDiff cfg diffID) := by
  refine ⟨Nat.zero_le _, ?_, trivial⟩
  rintro (_ | ⟨diff, _⟩)
  · trivial
  · refine ⟨Nat.zero_le _, ?_, trivial⟩
    rintro (_ | _)
    · trivial
    · refine (within_analyzeWith _ _ _).bind_free ?_
      rintro (_ | _)
      · trivial
      · exact ⟨Nat.zero_le _, fun _ => trivial, trivial⟩

/-- Every operation keeps to its allowance. -/
theorem within_bodyOf (op : Op) :
    (producing cfg x).Within ((producing cfg x).allowed op) (bodyOf cfg op) := by
  cases op with
  | poll packageID pkg =>
      exact within_of_preparing (preparing_checkPackageForNewReleases packageID pkg)
  | processRelease jobID releaseID =>
      apply within_processRelease
      rintro rfl
      simp [Allowance.allowed, producing, Product.delivered, Product.perDelivery]
  | processDiff jobID diffID =>
      have hallowed : (producing cfg x).allowed (.processDiff jobID diffID) =
          (if x = .analysis diffID then 1 else 0) * cfg.providers.length := by
        by_cases hx : x = .analysis diffID
        · subst hx
          simp [Allowance.allowed, producing, Product.delivered, Product.perDelivery]
        · simp [Allowance.allowed, producing, Product.delivered, hx]
      rw [hallowed]
      exact within_processDiff diffID
  | reanalyzeRelease workspaceID releaseID =>
      exact within_of_preparing (preparing_reanalyzeRelease workspaceID releaseID)
  | recoverStuckReleases => exact within_of_plain plain_recoverStuckReleases

end Bodies

/-! ## Products along a run -/

theorem productCount_setRunning (s : State) (op : Op) (running : Bool) (x : Product) :
    (s.setRunning op running).productCount x = s.productCount x := by
  cases x <;> (rw [State.setRunning]; split <;> rfl)

theorem productCount_done (s : State) (op : Op) (result : Result) (x : Product) :
    (s.done op result).productCount x = s.productCount x := by
  cases result with
  | error message => exact productCount_setRunning s op false x
  | ok =>
      cases x <;> (rw [State.done]; split <;> rfl)

/-- A call adds to a product what it costs at most. -/
theorem productCount_exec (s : State) (c : Call) (x : Product) :
    (s.exec c).1.productCount x ≤ s.productCount x + x.cost c := by
  cases c with
  | createDiff releaseID prevReleaseID =>
      cases x with
      | analysis diffID => exact Nat.le_add_right _ _
      | diff r =>
          have hsub : ((s.diffs.erase ⟨releaseID, s.diffs.entries.length⟩).entries.map
              Prod.fst).countP (fun d => d.release = r) ≤
                s.diffs.keys.countP fun d => d.release = r :=
            (List.filter_sublist.map Prod.fst).countP_le
          change List.countP _ (_ :: _) ≤ _
          rw [List.countP_cons]
          refine Nat.add_le_add hsub ?_
          by_cases hr : releaseID = r
          · subst hr
            simp [Product.cost]
          · simp [hr]
  | createAnalysis diffID classification =>
      cases x with
      | diff releaseID => exact Nat.le_add_right _ _
      | analysis d =>
          change List.countP _ (_ :: _) ≤ _
          rw [List.countP_cons]
          refine Nat.add_le_add (Nat.le_refl _) ?_
          by_cases hd : diffID = d
          · subst hd
            simp [Product.cost]
          · simp [hd]
  | _ => cases x <;> exact Nat.le_add_right _ _

/-- Products are counted where they are stored. -/
theorem bounds_pipeline (cfg : Config) (x : Product) :
    (producing cfg x).Bounds (pipelineSystem cfg) (State.productCount · x) where
  within := within_bodyOf
  exec s c := productCount_exec s c x
  begins s op := (productCount_setRunning s op true x).le
  done s op result := (productCount_done s op result x).le
  stop s op := (productCount_setRunning s op false x).le
  env := by
    intro s s' henv
    cases henv with
    | outside outside => cases x <;> exact Nat.le_refl _
    | package hnew pkg => cases x <;> exact Nat.le_refl _

/-- In every run a release has at most as many diffs as its diff jobs were delivered, and a
diff at most as many analyses as there are providers for each delivery of its analyze
jobs. -/
theorem products_of_run {cfg : Config} {packages : Table Nat Package} {outside : Outside}
    {x : Product} {w : PipelineWorld} {deliveries : Nat}
    (hrun : Run ((pipelineSystem cfg).Tracked (producing cfg x).starts) (fun _ _ => True)
      (start packages outside, 0) (w, deliveries)) :
    w.store.productCount x ≤ x.perDelivery cfg * deliveries := by
  refine Allowance.run (bounds_pipeline cfg x) ?_ hrun
  cases x <;> rfl

/-- Two deliveries of an analyze job make two analyses with one provider. -/
theorem products_of_run_diesBeforeAlert :
    ∃ w deliveries, Run ((pipelineSystem defaultConfig).Tracked
        (producing defaultConfig (.analysis ⟨1, 0⟩)).starts) (fun _ _ => True)
        (monitoringMalicious, 0) (w, deliveries) ∧
      deliveries = 2 ∧ w.store.productCount (.analysis ⟨1, 0⟩) = 2 ∧
      w.store.productCount (.analysis ⟨1, 0⟩) ≤
        Product.perDelivery defaultConfig (.analysis ⟨1, 0⟩) * deliveries := by
  obtain ⟨w, deliveries, hsteps, htest⟩ := System.exists_of_trackedSteps?
    (pipelineSystem defaultConfig) (producing defaultConfig (.analysis ⟨1, 0⟩)).starts
    (fun _ _ => true) (monitoringMalicious, 0) diesBeforeAlertLabels
    (fun s => s.2 = 2 ∧ s.1.store.productCount (.analysis ⟨1, 0⟩) = 2) (by decide +kernel)
  obtain ⟨hdeliveries, hcount⟩ := of_decide_eq_true htest
  have hrun : Run ((pipelineSystem defaultConfig).Tracked
      (producing defaultConfig (.analysis ⟨1, 0⟩)).starts) (fun _ _ => True)
      (monitoringMalicious, 0) (w, deliveries) :=
    System.tracked_of_trackedSteps? (fun _ _ _ => trivial) hsteps
  exact ⟨w, deliveries, hrun, hdeliveries, hcount, products_of_run hrun⟩

end Pipeline
end Veilence

import Veilence.Foundation.Discipline
import Veilence.Reanalysis.System

/-!
# What requests and workers send

A request queues the diffs that it has found, one after another.  A worker with an analyze job
creates at most one analysis for each provider and at most one alert for each analysis, and it
fails only when something that the job needs is not there.

Main results:

- Theorem {lit}`follows_bodyOf`: every operation keeps the discipline.
-/

namespace Veilence
namespace Reanalysis

open Go Foundation

open Pipeline (Classification alertSeverity)

/-! ## Modes -/

/-- Where a call is: a request before its query and with the diffs that are left, a worker that
loads the rows of its diff, one that has missed a row, and one with the providers whose analyses
may follow, the analysis whose alert may follow, and whether it has created one. -/
inductive Mode where
  | free
  | requesting (left : Option (List Nat))
  | loading (prevReleaseID : Option Nat)
  | missing
  | analyzing (todo : List GoString) (pending : Option Nat) (created : Bool)

/-- The mode in which an operation starts. -/
def Mode.first : Op → Mode
  | .reanalyzeAll _ => .requesting none
  | .processRelease _ _ => .free
  | .processDiff _ _ => .loading none

/-- The mode after a call. -/
def Mode.next (cfg : Config) (m : Mode) : (c : Call) → Answer c → Mode
  | .getUnanalyzedDiffIDs _, diffIDs => .requesting (some diffIDs)
  | .enqueue _ _ _, _ =>
      match m with
      | .requesting (some (_ :: left)) => .requesting (some left)
      | m => m
  | .findDiffWithRelease _, some (diff, _, _) => .loading (some diff.prevReleaseID)
  | .findDiffWithRelease _, none => .missing
  | .findReleaseByID _, some _ => .analyzing cfg.providers none false
  | .findReleaseByID _, none => .missing
  | .createAnalysis a, id =>
      match m with
      | .analyzing todo _ _ => .analyzing (todo.filter (· ≠ a.analyzerType)) (some id) true
      | m => m
  | .createAlert _, _ =>
      match m with
      | .analyzing todo _ created => .analyzing todo none created
      | m => m
  | _, _ => m

/-- The calls that a mode permits. -/
def Mode.Permits (op : Op) (m : Mode) : Call → Prop
  | .getUnanalyzedDiffIDs workspaceID => op = .reanalyzeAll workspaceID ∧ m = .requesting none
  | .enqueue ref _ _ =>
      m = .free ∨ ∃ diffID left, m = .requesting (some (diffID :: left)) ∧ ref = .analyze diffID
  | .findDiffWithRelease diffID => ∃ jobID, op = .processDiff jobID diffID ∧ m = .loading none
  | .findReleaseByID id => ∃ jobID diffID, op = .processDiff jobID diffID ∧ m = .loading (some id)
  | .createAnalysis a => ∃ jobID todo pending created, op = .processDiff jobID a.diffID ∧
      m = .analyzing todo pending created ∧ a.analyzerType ∈ todo
  | .createAlert alert => ∃ jobID diffID todo pending created,
      op = .processDiff jobID diffID ∧ m = .analyzing todo (some pending) created ∧
        alert.analysisID = some pending
  | _ => True

/-- The results of the modes: a request has queued all that it has found, a worker has completed
its job after an analysis and failed after a missing row. -/
def Mode.Results (op : Op) (m : Mode) : Result → Prop
  | .reanalyzed _ none => m = .requesting (some [])
  | .ok => ∀ jobID diffID, op = .processDiff jobID diffID →
      ∃ todo pending, m = .analyzing todo pending true
  | .error _ => ∀ jobID diffID, op = .processDiff jobID diffID → m = .missing
  | .reanalyzed _ (some _) => op.job = none

/-- The discipline of the requests and the workers. -/
def discipline (cfg : Config) : Discipline Op Call Answer Result Mode where
  idle := .free
  first := Mode.first
  next := Mode.next cfg
  permitted := Mode.Permits
  answer := fun _ _ => True
  result := Mode.Results

/-! ## Bodies -/

section Bodies

variable {cfg : Config} {op : Op} {m : Mode} {failed : Bool}

/-- A body, with what it guarantees at its end. -/
abbrev Keeps {β : Type} (cfg : Config) (op : Op) (m : Mode) (final : Bool → Mode → β → Prop)
    (failed : Bool) (p : Body β) : Prop :=
  (discipline cfg).Follows (reanalysisSystem cfg) op final failed m p

/-- The end of an operation. -/
abbrev Ends (op : Op) (_ : Bool) (m : Mode) (result : Result) : Prop :=
  m.Results op result

/-- A call of a worker does not fail. -/
theorem keeps_work {β : Type} {final : Bool → Mode → β → Prop} {c : Call}
    {f : Option (Answer c) → Body β} (hwork : c.ofRequest = false) (hpermitted : m.Permits op c)
    (hok : ∀ r, Keeps cfg op (m.next cfg c r) final failed (f (some r))) :
    Keeps cfg op m final failed (send c >>= f) := by
  refine Discipline.follows_call hpermitted (fun r _ => hok r) fun hfallible => ?_
  exact absurd (hwork.symm.trans hfallible) Bool.false_ne_true

/-- The loop of a request works the list off that its mode holds. -/
theorem keeps_queueDiffs {workspaceID : GoString} (hop : op = .reanalyzeAll workspaceID)
    (queued : Nat) (diffIDs : List Nat) :
    Keeps cfg op (.requesting (some diffIDs)) (Ends op) failed
      (queueDiffs workspaceID queued diffIDs) := by
  induction diffIDs generalizing queued failed with
  | nil => rfl
  | cons id diffIDs ih =>
      unfold queueDiffs
      apply Discipline.follows_call
      · exact Or.inr ⟨id, diffIDs, rfl, rfl⟩
      · intro r _
        exact ih _
      · intro _
        rw [hop]
        rfl

theorem keeps_reanalyzeAll (workspaceID : GoString) :
    Keeps cfg (.reanalyzeAll workspaceID) (.requesting none) (Ends (.reanalyzeAll workspaceID))
      failed (reanalyzeAll cfg workspaceID) := by
  unfold reanalyzeAll
  by_cases hqueue : cfg.queue = false
  · rw [if_pos hqueue]
    rfl
  · rw [if_neg hqueue]
    apply Discipline.follows_call
    · exact ⟨rfl, rfl⟩
    · intro diffIDs _
      exact keeps_queueDiffs rfl _ _
    · intro _
      rfl

section Differ

variable {jobID releaseID : Nat}

/-- A differ may end with an error. -/
theorem error_processRelease (message : GoString) :
    m.Results (.processRelease jobID releaseID) (.error message) :=
  fun _ _ hop => Op.noConfusion hop

/-- A differ may complete its job. -/
theorem ok_processRelease : m.Results (.processRelease jobID releaseID) .ok :=
  fun _ _ hop => Op.noConfusion hop

theorem keeps_markError (message : GoString) :
    Keeps cfg (.processRelease jobID releaseID) .free (Ends (.processRelease jobID releaseID))
      failed (markError releaseID message) := by
  unfold markError
  exact keeps_work rfl trivial fun _ => error_processRelease message

theorem keeps_diffAgainst (release : Pipeline.Release) (pkg : Package) (prevReleaseID : Nat)
    (prevRelease : Pipeline.Release) :
    Keeps cfg (.processRelease jobID releaseID) .free (Ends (.processRelease jobID releaseID))
      failed (diffAgainst cfg releaseID release pkg prevReleaseID prevRelease) := by
  unfold diffAgainst
  by_cases hclient : cfg.clients pkg.ecosystem = false
  · rw [if_pos hclient]
    exact error_processRelease "unknown ecosystem".toList
  · rw [if_neg hclient]
    refine keeps_work rfl trivial fun _ => ?_
    refine keeps_work rfl trivial fun _ => ?_
    refine keeps_work rfl trivial fun _ => ?_
    refine keeps_work rfl trivial fun _ => ?_
    refine keeps_work rfl trivial fun _ => ?_
    refine keeps_work rfl trivial fun found => ?_
    cases found with
    | none => exact keeps_markError _
    | some diffID =>
        refine keeps_work rfl trivial fun _ => ?_
        refine keeps_work rfl (Or.inl rfl) fun _ => ?_
        exact ok_processRelease

theorem keeps_processRelease :
    Keeps cfg (.processRelease jobID releaseID) .free (Ends (.processRelease jobID releaseID))
      failed (processRelease cfg releaseID) := by
  unfold processRelease
  refine keeps_work rfl trivial fun found => ?_
  cases found with
  | none => exact error_processRelease "loading release".toList
  | some found =>
      refine keeps_work rfl trivial fun _ => ?_
      refine keeps_work rfl trivial fun previous => ?_
      cases previous with
      | none => exact keeps_work rfl trivial fun _ => ok_processRelease
      | some previous => exact keeps_diffAgainst _ _ _ _

end Differ

section Analyzer

variable {jobID diffID : Nat}

/-- A mode of the loop over the providers. -/
def Mode.Looping (todo : List GoString) (created : Bool) (m : Mode) : Prop :=
  ∃ todo' pending, m = .analyzing todo' pending created ∧ todo ⊆ todo'

/-- The loop creates an analysis for every provider, and says whether there is one. -/
theorem keeps_analyzeWith (diff : Diff) (release : Pipeline.Release) (pkg : Package)
    {providers : List GoString} (hnodup : providers.Nodup) {created : Bool}
    (hm : m.Looping providers created) :
    Keeps cfg (.processDiff jobID diffID) m
      (fun _ m' created' => m'.Looping [] created' ∧
        (created = true ∨ providers ≠ [] → created' = true))
      failed (analyzeWith diffID diff release pkg created providers) := by
  induction providers generalizing created m with
  | nil => exact ⟨hm, fun h => h.elim id fun hne => absurd rfl hne⟩
  | cons provider providers ih =>
      obtain ⟨hnew, hrest⟩ := List.nodup_cons.mp hnodup
      obtain ⟨todo, pending, rfl, hsub⟩ := hm
      unfold analyzeWith
      refine keeps_work rfl trivial fun classification => ?_
      refine keeps_work rfl ⟨jobID, todo, pending, created, rfl, rfl, hsub List.mem_cons_self⟩
        fun id => ?_
      -- The rest of the loop, whether there is an alert or not.
      have hloop : ∀ pending', Keeps cfg (.processDiff jobID diffID)
          (.analyzing (todo.filter (· ≠ provider)) pending' true)
          (fun _ m' created' => m'.Looping [] created' ∧
            (created = true ∨ provider :: providers ≠ [] → created' = true))
          failed (analyzeWith diffID diff release pkg true providers) := by
        intro pending'
        have hm : Mode.Looping providers true
            (.analyzing (todo.filter (· ≠ provider)) pending' true) := by
          refine ⟨_, pending', rfl, fun p hp => ?_⟩
          rw [List.mem_filter, decide_eq_true_iff]
          exact ⟨hsub (List.mem_cons_of_mem _ hp), fun heq => hnew (heq ▸ hp)⟩
        exact (ih hrest hm).mono fun _ m' created' hend => ⟨hend.1, fun _ => hend.2 (Or.inl rfl)⟩
      unfold createAlertFor
      cases alertSeverity classification with
      | none => exact hloop _
      | some severity =>
          refine keeps_work rfl ⟨jobID, diffID, _, id, true, rfl, rfl, rfl⟩ fun _ => ?_
          exact hloop none

theorem keeps_processDiff :
    Keeps cfg (.processDiff jobID diffID) (.loading none) (Ends (.processDiff jobID diffID))
      failed (processDiff cfg diffID) := by
  unfold processDiff
  refine keeps_work rfl ⟨jobID, rfl, rfl⟩ fun found => ?_
  cases found with
  | none => exact fun _ _ _ => rfl
  | some found =>
      obtain ⟨diff, release, pkg⟩ := found
      refine keeps_work rfl ⟨jobID, diffID, rfl, rfl⟩ fun previous => ?_
      cases previous with
      | none => exact fun _ _ _ => rfl
      | some previous =>
          have hm : Mode.Looping cfg.providers false (.analyzing cfg.providers none false) :=
            ⟨cfg.providers, none, rfl, List.Subset.refl _⟩
          refine (keeps_analyzeWith diff release pkg cfg.nodup_providers hm).bind
            fun failed' m' created hend => ?_
          obtain rfl := hend.2 (Or.inr cfg.providers_ne_nil)
          refine keeps_work rfl trivial fun _ => ?_
          obtain ⟨todo, pending, hm, -⟩ := hend.1
          exact fun _ _ _ => ⟨todo, pending, hm⟩

end Analyzer

/-- Every operation keeps the discipline. -/
theorem follows_bodyOf (cfg : Config) (op : Op) :
    (discipline cfg).Follows (reanalysisSystem cfg) op (fun _ => (discipline cfg).result op) false
      ((discipline cfg).first op) ((reanalysisSystem cfg).body op) := by
  cases op with
  | reanalyzeAll workspaceID => exact keeps_reanalyzeAll workspaceID
  | processRelease jobID releaseID => exact keeps_processRelease
  | processDiff jobID diffID => exact keeps_processDiff

end Bodies

end Reanalysis
end Veilence

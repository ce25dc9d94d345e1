import Veilence.Foundation.Commands
import Veilence.Foundation.Discipline
import Veilence.Pipeline.Alarms

/-!
# What a completed release rests on

A release is completed at three places: by the worker that has stored an analysis of one of its
diffs, by the recovery that has counted such an analysis, and by the worker of a diff job that
knows no previous release.  So whatever fails, a completed release has an analysis or was
completed by one of its own diff jobs.

Main results:

- Theorem {lit}`follows_bodyOf`: an operation completes a release only with an analysis that it
  knows of, or as the diff job of the release.
- Theorem {lit}`analysed_of_run`: so every completed release has an analysis, or a diff job of it
  has completed it.
-/

namespace Veilence
namespace Pipeline

open Go Foundation

/-! ## Knowing an analysis -/

/-- The diffs of which a call knows an analysis, and what it needs to complete a release. -/
def completing : Discipline Op Call Answer Result (DiffID → Prop) where
  idle := fun _ => False
  first _ := fun _ => False
  next m
    | .createAnalysis diffID _, _ => fun d => d = diffID ∨ m d
    | .countAnalyses diffID, count => fun d => (d = diffID ∧ 0 < count) ∨ m d
    | _, _ => m
  permitted op m
    | .updateReleaseStatus releaseID .completed =>
        (∃ d, m d ∧ d.release = releaseID) ∨ ∃ jobID, op = .processRelease jobID releaseID
    | .createRelease release => release.status = .pending
    | _ => True
  answer := Sound
  result _ _ _ := True

section Bodies

variable {cfg : Config} {op : Op} {failed : Bool} {m : DiffID → Prop} {α : Type}
  {final : Bool → (DiffID → Prop) → α → Prop}

theorem follows_of_preparing {p : Body α} (hp : p.Only Call.Preparing)
    (hfinal : ∀ failed m a, final failed m a) :
    completing.Follows (pipelineSystem cfg) op final failed m p := by
  refine Discipline.follows_of_only (hp.mono fun c hc m => ?_) hfinal
  cases c with
  | updateReleaseStatus releaseID status =>
      cases status with
      | completed => exact hc.elim
      | _ => trivial
  | createRelease release => exact hc
  | _ => trivial

theorem follows_processRelease (jobID releaseID : Nat) :
    completing.Follows (pipelineSystem cfg) (.processRelease jobID releaseID) (fun _ _ _ => True)
      failed m (processRelease cfg releaseID) := by
  refine Discipline.follows_of_only ((diffing_processRelease releaseID).mono fun c hc m => ?_)
    fun _ _ _ => trivial
  cases c with
  | updateReleaseStatus r status =>
      cases status with
      | completed =>
          obtain rfl : r = releaseID := hc
          exact Or.inr ⟨jobID, rfl⟩
      | _ => trivial
  | createRelease release => exact hc.elim
  | _ => trivial

theorem follows_createAlertFor (releaseID : Nat) (classification : Classification)
    {f : Unit → Body α}
    (hf : ∀ failed, completing.Follows (pipelineSystem cfg) op final failed m (f ())) :
    completing.Follows (pipelineSystem cfg) op final failed m
      (createAlertFor releaseID classification >>= f) := by
  cases classification with
  | benign => exact hf failed
  | suspicious => exact ⟨fun _ => ⟨trivial, fun _ _ => hf failed⟩, fun _ => hf true⟩
  | malicious => exact ⟨fun _ => ⟨trivial, fun _ _ => hf failed⟩, fun _ => hf true⟩

/-- A worker that says it has created an analysis knows one. -/
theorem follows_analyzeWith (diffID : DiffID) (analysisCreated : Bool)
    (providers : List GoString) (hcreated : analysisCreated = true → m diffID) :
    completing.Follows (pipelineSystem cfg) op
      (fun _ m created => created = true → m diffID) failed m
      (analyzeWith diffID analysisCreated providers) := by
  induction providers generalizing failed m analysisCreated with
  | nil => exact hcreated
  | cons provider providers ih =>
      refine ⟨fun _ => ⟨trivial, fun classification _ => ?_⟩, fun _ => ih _ hcreated⟩
      refine ⟨fun _ => ⟨trivial, fun _ _ => ?_⟩, fun _ => ih _ hcreated⟩
      exact follows_createAlertFor _ _ fun _ => ih true fun _ => Or.inl rfl

theorem follows_processDiff (diffID : DiffID) :
    completing.Follows (pipelineSystem cfg) op (fun _ _ _ => True) failed m
      (processDiff cfg diffID) := by
  refine ⟨fun _ => ⟨trivial, ?_⟩, fun _ => trivial⟩
  rintro (_ | ⟨diff, _⟩) _
  · trivial
  · refine ⟨fun _ => ⟨trivial, ?_⟩, fun _ => trivial⟩
    rintro (_ | _) _
    · trivial
    · refine Discipline.Follows.bind (follows_analyzeWith diffID false cfg.providers ?_) ?_
      · exact fun hfalse => absurd hfalse Bool.false_ne_true
      · rintro failed m (_ | _) hcreated
        · trivial
        · exact ⟨fun _ => ⟨Or.inl ⟨diffID, hcreated rfl, rfl⟩, fun _ _ => trivial⟩,
            fun _ => trivial⟩

theorem follows_recoverRelease (releaseID : Nat) (release : Release) :
    completing.Follows (pipelineSystem cfg) op (fun _ _ _ => True) failed m
      (recoverRelease releaseID release) := by
  have hdiff (failed : Bool) (m : DiffID → Prop) :
      completing.Follows (pipelineSystem cfg) op (fun _ _ _ => True) failed m
        (Prog.cmd (.updateReleaseStatus releaseID .pending) fun _ =>
          (Prog.cmd (.enqueue (.diff releaseID)) fun _ => .ret () : Body Unit)) :=
    follows_of_preparing ⟨trivial, fun _ => ⟨trivial, fun _ => trivial⟩⟩ fun _ _ _ => trivial
  have henqueue (failed : Bool) (m : DiffID → Prop) (diffID : DiffID) :
      completing.Follows (pipelineSystem cfg) op (fun _ _ _ => True) failed m
        (Prog.cmd (.enqueue (.analyze diffID)) fun _ => .ret () : Body Unit) :=
    follows_of_preparing ⟨trivial, fun _ => trivial⟩ fun _ _ _ => trivial
  rw [recoverRelease]
  split
  · exact hdiff _ _
  · refine ⟨fun _ => ⟨trivial, ?_⟩, fun _ => hdiff _ _⟩
    rintro (_ | diffID) hsound
    · exact hdiff _ _
    · have hrelease := hsound diffID rfl
      refine ⟨fun _ => ⟨trivial, fun analysisCount _ => ?_⟩, fun _ => henqueue _ _ _⟩
      change completing.Follows _ _ _ _ _ (if analysisCount = 0 then _ else _)
      split_ifs with hcount
      · exact henqueue _ _ _
      · refine ⟨fun _ => ⟨Or.inl ⟨diffID, ?_, hrelease⟩, fun _ _ => trivial⟩, fun _ => trivial⟩
        exact Or.inl ⟨rfl, Nat.pos_of_ne_zero hcount⟩
  · trivial

theorem follows_recoverStuckReleases :
    completing.Follows (pipelineSystem cfg) op (fun _ _ _ => True) failed m
      recoverStuckReleases := by
  have hloop (stuck : List (Nat × Release)) (failed : Bool) (m : DiffID → Prop) :
      completing.Follows (pipelineSystem cfg) op (fun _ _ _ => True) failed m
        (recoverReleases stuck) := by
    induction stuck generalizing failed m with
    | nil => trivial
    | cons e stuck ih =>
        obtain ⟨releaseID, release⟩ := e
        exact (follows_recoverRelease releaseID release).bind fun _ _ _ _ => ih _ _
  exact ⟨fun _ => ⟨trivial, fun stuck _ => hloop _ _ _⟩, fun _ => hloop _ _ _⟩

/-- An operation completes a release only with an analysis that it knows of, or as a diff job
of the release. -/
theorem follows_bodyOf (op : Op) :
    completing.Follows (pipelineSystem cfg) op (fun _ => completing.result op) failed m
      (bodyOf cfg op) := by
  cases op with
  | poll packageID pkg =>
      exact follows_of_preparing (preparing_checkPackageForNewReleases packageID pkg)
        fun _ _ _ => trivial
  | processRelease jobID releaseID => exact follows_processRelease jobID releaseID
  | processDiff jobID diffID => exact follows_processDiff diffID
  | reanalyzeRelease workspaceID releaseID =>
      exact follows_of_preparing (preparing_reanalyzeRelease workspaceID releaseID)
        fun _ _ _ => trivial
  | recoverStuckReleases => exact follows_recoverStuckReleases

end Bodies

/-! ## Completed releases along a run -/

/-- A diff of the release has an analysis. -/
def Analysed (s : State) (releaseID : Nat) : Prop :=
  ∃ e ∈ s.analyses, e.1.release = releaseID

/-- A diff job of the release has completed it. -/
def CompletedByDiffJob (log : List (Event Op Call Result)) (releaseID : Nat) : Prop :=
  ∃ jobID, .ran (.processRelease jobID releaseID) (.updateReleaseStatus releaseID .completed) ∈ log

/-- Analyses are not removed. -/
theorem analyses_exec {s : State} {e : DiffID × Classification} (he : e ∈ s.analyses) (c : Call) :
    e ∈ (s.exec c).1.analyses := by
  cases c with
  | createAnalysis diffID classification => exact List.mem_cons_of_mem _ he
  | _ => exact he

theorem analyses_setRunning (s : State) (op : Op) (running : Bool) :
    (s.setRunning op running).analyses = s.analyses := by
  rw [State.setRunning]
  split <;> rfl

theorem analyses_done (s : State) (op : Op) (result : Result) :
    (s.done op result).analyses = s.analyses := by
  cases result with
  | error message => exact analyses_setRunning s op false
  | ok =>
      rw [State.done]
      split <;> rfl

/-- What a call comes to know is so. -/
theorem known_exec {s : State} {m : DiffID → Prop} (hknown : ∀ d, m d → ∃ e ∈ s.analyses, e.1 = d)
    (c : Call) {d : DiffID} (hd : completing.next m c (s.exec c).2 d) :
    ∃ e ∈ (s.exec c).1.analyses, e.1 = d := by
  have hstay : m d → ∃ e ∈ (s.exec c).1.analyses, e.1 = d := by
    intro hm
    obtain ⟨e, he, hdiff⟩ := hknown d hm
    exact ⟨e, analyses_exec he c, hdiff⟩
  cases c with
  | createAnalysis diffID classification =>
      rcases hd with rfl | hm
      · exact ⟨(d, classification), List.mem_cons_self, rfl⟩
      · exact hstay hm
  | countAnalyses diffID =>
      rcases hd with ⟨rfl, hcount⟩ | hm
      · obtain ⟨e, he⟩ := List.exists_mem_of_length_pos hcount
        obtain ⟨hmem, hdiff⟩ := List.mem_filter.mp he
        exact ⟨e, hmem, of_decide_eq_true hdiff⟩
      · exact hstay hm
  | _ => exact hstay hd

/-- The calls in progress know only analyses that are stored, and every completed release rests
on one or on its diff job. -/
structure Rested (cfg : Config) (modes : Nat → DiffID → Prop) (w : PipelineWorld) : Prop where
  kept : completing.Kept (pipelineSystem cfg) modes w
  known : ∀ i d, modes i d → ∃ e ∈ w.store.analyses, e.1 = d
  completed : ∀ r release, w.store.releases.get? r = some release →
    release.status = .completed → Analysed w.store r ∨ CompletedByDiffJob w.log r

section Runs

variable {cfg : Config} {modes : Nat → DiffID → Prop} {w : PipelineWorld} {i : Nat}

/-- A call that starts or is over knows nothing. -/
theorem known_update_idle (hknown : ∀ i d, modes i d → ∃ e ∈ w.store.analyses, e.1 = d) (i : Nat) :
    ∀ j d, Function.update modes i (fun _ => False) j d → ∃ e ∈ w.store.analyses, e.1 = d := by
  intro j d hd
  by_cases hj : j = i
  · subst hj
    rw [Function.update_self] at hd
    exact hd.elim
  · rw [Function.update_of_ne hj] at hd
    exact hknown j d hd

/-- A step without a call to the database changes nothing. -/
theorem Rested.frame (hrested : Rested cfg modes w) {modes' : Nat → DiffID → Prop}
    {w' : PipelineWorld} (hkept : completing.Kept (pipelineSystem cfg) modes' w')
    (hknown : ∀ i d, modes' i d → ∃ e ∈ w.store.analyses, e.1 = d)
    (hreleases : w'.store.releases = w.store.releases)
    (hanalyses : w'.store.analyses = w.store.analyses) (hlog : w.log ⊆ w'.log) :
    Rested cfg modes' w' := by
  refine ⟨hkept, ?_, fun r release hget hstatus => ?_⟩
  · rw [hanalyses]
    exact hknown
  · rw [hreleases] at hget
    rcases hrested.completed r release hget hstatus with hanalysed | ⟨jobID, hran⟩
    · rw [Analysed, hanalyses]
      exact Or.inl hanalysed
    · exact Or.inr ⟨jobID, hlog hran⟩

/-- A call to the database. -/
theorem Rested.exec (hrested : Rested cfg modes w) {op : Op} {c : Call}
    {k : Option (Answer c) → Body Result} {failed : Bool}
    (hthread : w.threads i = some ⟨op, .cmd c k, failed⟩) :
    ∃ modes', Rested cfg modes' ⟨(w.store.exec c).1,
      w.setThread i (some ⟨op, k (some (w.store.exec c).2), failed⟩), .ran op c :: w.log⟩ := by
  have hlive : Discipline.Effective (pipelineSystem cfg) failed c := fun hsticky =>
    absurd hsticky Bool.false_ne_true
  have hpermitted := hrested.kept.permitted hthread hlive
  refine ⟨_, hrested.kept.exec hthread hlive (sound_exec w.store c), fun j d hd => ?_,
    fun r release hget hstatus => ?_⟩
  · by_cases hj : j = i
    · subst hj
      rw [Function.update_self] at hd
      exact known_exec (hrested.known j) c hd
    · rw [Function.update_of_ne hj] at hd
      obtain ⟨e, he, hdiff⟩ := hrested.known j d hd
      exact ⟨e, analyses_exec he c, hdiff⟩
  · rcases release_of_exec hget with
      ⟨before, hbefore, rfl | ⟨status, rfl, rfl⟩ | ⟨message, rfl, rfl⟩⟩ | ⟨rfl, -⟩
    · rcases hrested.completed r release hbefore hstatus with ⟨e, he, hrelease⟩ | ⟨jobID, hran⟩
      · exact Or.inl ⟨e, analyses_exec he c, hrelease⟩
      · exact Or.inr ⟨jobID, List.mem_cons_of_mem _ hran⟩
    · obtain rfl : status = .completed := hstatus
      rcases hpermitted with ⟨d, hd, hrelease⟩ | ⟨jobID, rfl⟩
      · obtain ⟨e, he, rfl⟩ := hrested.known i d hd
        exact Or.inl ⟨e, he, hrelease⟩
      · exact Or.inr ⟨jobID, List.mem_cons_self⟩
    · cases hstatus
    · have hpending : release.status = .pending := hpermitted
      rw [hpending] at hstatus
      cases hstatus

/-- Every step keeps it so. -/
theorem Rested.step (hrested : Rested cfg modes w) {l : Label Op} {w' : PipelineWorld}
    (hstep : (pipelineSystem cfg).Step w l w') : ∃ modes', Rested cfg modes' w' := by
  cases hstep with
  | @start i op hfree henabled =>
      refine ⟨_, hrested.frame (hrested.kept.start (follows_bodyOf op))
        (known_update_idle hrested.known i) ?_ ?_ (List.Subset.refl _)⟩
      · exact releases_setRunning w.store op true
      · exact analyses_setRunning w.store op true
  | exec hthread hlive => exact hrested.exec hthread
  | fail hthread hfallible =>
      exact ⟨_, hrested.frame (hrested.kept.fail hthread hfallible) hrested.known rfl rfl
        (List.Subset.refl _)⟩
  | @stop i t hthread =>
      refine ⟨_, hrested.frame (hrested.kept.leave _ _) (known_update_idle hrested.known i)
        ?_ ?_ (List.Subset.refl _)⟩
      · exact releases_setRunning w.store t.op false
      · exact analyses_setRunning w.store t.op false
  | @finish i op result failed hthread =>
      refine ⟨_, hrested.frame (hrested.kept.leave _ _) (known_update_idle hrested.known i)
        ?_ ?_ (List.subset_cons_self _ _)⟩
      · exact releases_done w.store op result
      · exact analyses_done w.store op result
  | env henv =>
      refine ⟨modes, hrested.frame ⟨hrested.kept.follows, hrested.kept.idle⟩ hrested.known
        ?_ ?_ (List.Subset.refl _)⟩
      · cases henv <;> rfl
      · cases henv <;> rfl

/-- In every run a completed release has an analysis of one of its diffs, or a diff job of the
release has completed it. -/
theorem analysed_of_run {packages : Table Nat Package} {outside : Outside}
    (hrun : Run (pipelineSystem cfg).Step (fun _ _ => True) (start packages outside) w)
    {releaseID : Nat} {release : Release}
    (hrelease : w.store.releases.get? releaseID = some release)
    (hstatus : release.status = .completed) :
    Analysed w.store releaseID ∨ CompletedByDiffJob w.log releaseID := by
  have hstart : Rested cfg (fun _ _ => False) (start packages outside) := by
    refine ⟨⟨fun i t hthread => ?_, fun _ _ => rfl⟩, fun _ _ hd => hd.elim, fun r row hget => ?_⟩
    · cases hthread
    · cases hget
  have hrested := hrun.invariant (I := fun w => ∃ modes, Rested cfg modes w) ⟨_, hstart⟩ ?_
  · obtain ⟨modes, hrested⟩ := hrested
    exact hrested.completed releaseID release hrelease hstatus
  · rintro w l w' ⟨modes, hrested⟩ - hstep
    exact hrested.step hstep

end Runs

/-- The second release is completed with the analyses of both workers. -/
theorem analysed_of_run_diesBeforeAlert :
    ∃ w release, Run (pipelineSystem defaultConfig).Step (fun _ _ => True) monitoringMalicious w ∧
      w.store.releases.get? 1 = some release ∧ release.status = .completed ∧
      (Analysed w.store 1 ∨ CompletedByDiffJob w.log 1) := by
  obtain ⟨w, hsteps, htest⟩ := System.exists_of_steps? (pipelineSystem defaultConfig)
    (fun _ _ => true) monitoringMalicious diesBeforeAlertLabels
    (fun w => (w.store.releases.get? 1).any fun release => release.status = .completed)
    (by decide +kernel)
  obtain ⟨release, hrelease, hstatus⟩ := (Option.any_eq_true _ _).mp htest
  have hrun : Run (pipelineSystem defaultConfig).Step (fun _ _ => True) monitoringMalicious w :=
    System.run_of_steps? (fun _ _ _ => trivial) hsteps
  exact ⟨w, release, hrun, hrelease, of_decide_eq_true hstatus,
    analysed_of_run hrun hrelease (of_decide_eq_true hstatus)⟩

end Pipeline
end Veilence

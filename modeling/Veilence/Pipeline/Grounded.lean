import Veilence.Pipeline.Operations

/-!
# What the operations may rely on

Two facts about every operation of the pipeline.  It queues the analysis of a diff only
when it knows that the diff is stored.  And it completes a release only when it knows a
stored diff of the release, or right after it looked for a previous release in vain.

Main results:

- Theorem {lit}`grounded_bodyOf`: every operation is grounded in what it has learned.
- Theorem {lit}`Grounds.step`: so all operations in progress stay grounded.
-/

namespace Veilence
namespace Pipeline

open Go Foundation

/-! ## Grounded bodies -/

/-- What an operation can know: that a release or a diff is stored. -/
inductive Fact where
  | release (releaseID : Nat)
  | diff (diffID : DiffID)

/-- The fact holds in a state. -/
def Fact.Holds (s : State) : Fact → Prop
  | .release releaseID => (s.releases.get? releaseID).isSome = true
  | .diff diffID => diffID ∈ s.diffs.keys

/-- The facts that an answer shows. -/
def Learns : (c : Call) → Answer c → Fact → Prop
  | .findReleaseByIDWithPackage id, found, .release r => found.isSome ∧ id = r
  | .createDiff _ _, created, .diff d => created = d
  | .findDiffWithRelease id, found, .diff d => found.isSome ∧ id = d
  | .findFirstByReleaseID _, found, .diff d => found = some d
  | _, _, _ => False

/-- The answers that occur: a diff is found or created under the release asked for. -/
def Sound : (c : Call) → Answer c → Prop
  | .createDiff releaseID _, created => created.release = releaseID
  | .findFirstByReleaseID releaseID, found => ∀ d, found = some d → d.release = releaseID
  | _, _ => True

/-- The call has looked for a previous release in vain: none was found or the lookup
failed. -/
def vainAfter : (c : Call) → Option (Answer c) → Bool
  | .findPreviousCompletedRelease _ _, some (some _) => false
  | .findPreviousCompletedRelease _ _, _ => true
  | _, _ => false

/-- What a call needs to be known before it. -/
def Justified (op : Op) (known : Fact → Prop) (vain : Bool) : Call → Prop
  | .enqueue (.analyze d) => known (.diff d)
  | .updateReleaseStatus releaseID .completed =>
      (∃ d, known (.diff d) ∧ d.release = releaseID) ∨
        (vain = true ∧ known (.release releaseID) ∧
          ∃ jobID, op = .processRelease jobID releaseID)
  | _ => True

/-- Every call of a body is justified by what is known before it. -/
def Grounded {α : Type} (op : Op) (known : Fact → Prop) (vain : Bool) : Body α → Prop
  | .ret _ => True
  | .cmd c k =>
      Justified op known vain c ∧
        (∀ r, Sound c r →
          Grounded op (fun a => known a ∨ Learns c r a) (vainAfter c (some r)) (k (some r))) ∧
        Grounded op known (vainAfter c none) (k none)

section Bodies

variable {cfg : Config} {op : Op} {known : Fact → Prop} {vain : Bool} {α β : Type}

/-- Knowing more justifies more. -/
theorem Justified.mono {known' : Fact → Prop} {c : Call} (hc : Justified op known vain c)
    (hknown : ∀ a, known a → known' a) : Justified op known' vain c := by
  cases c with
  | enqueue ref =>
      cases ref with
      | diff releaseID => trivial
      | analyze d => exact hknown _ hc
  | updateReleaseStatus releaseID status =>
      cases status with
      | completed =>
          rcases hc with ⟨d, hd, hrelease⟩ | ⟨hvain, hrelease, hop⟩
          · exact Or.inl ⟨d, hknown _ hd, hrelease⟩
          · exact Or.inr ⟨hvain, hknown _ hrelease, hop⟩
      | _ => trivial
  | _ => trivial

/-- Knowing more keeps a body grounded. -/
theorem Grounded.mono {known' : Fact → Prop} {p : Body α} (hp : Grounded op known vain p)
    (hknown : ∀ a, known a → known' a) : Grounded op known' vain p := by
  induction p generalizing known known' vain with
  | ret a => trivial
  | cmd c k ih =>
      refine ⟨hp.1.mono hknown, fun r hr => ?_, ih none hp.2.2 hknown⟩
      exact ih (some r) (hp.2.1 r hr) fun a => Or.imp_left (hknown a)

/-- A body in two parts is grounded when the second part is, whatever the first part has
learned. -/
theorem Grounded.bind {p : Body β} (hp : Grounded op known vain p) {f : β → Body α}
    (hf : ∀ b (known' : Fact → Prop) vain', (∀ a, known a → known' a) →
      Grounded op known' vain' (f b)) : Grounded op known vain (p >>= f) := by
  induction p generalizing known vain with
  | ret b => exact hf b known vain fun _ => id
  | cmd c k ih =>
      rw [Prog.cmd_bind]
      refine ⟨hp.1, fun r hr => ?_, ih none hp.2.2 hf⟩
      exact ih (some r) (hp.2.1 r hr) fun b known' vain' hknown =>
        hf b known' vain' fun a ha => hknown a (Or.inl ha)

/-! ## Every operation is grounded -/

theorem grounded_goVersions (name : GoString) (versionCount : Nat)
    (versions : List RegistryVersionInfo) (lines : List GoString) :
    Grounded op known vain (goVersions cfg name versionCount versions lines) := by
  induction lines generalizing known vain versionCount versions with
  | nil => trivial
  | cons line lines ih =>
      simp only [goVersions]
      split_ifs
      · trivial
      · exact ih _ _
      · exact ⟨trivial, fun _ _ => ih _ _, ih _ _⟩

theorem grounded_getPackage (pkg : Package) :
    Grounded op known vain (getPackage cfg pkg) := by
  rw [getPackage]
  split
  · split_ifs
    · trivial
    · refine ⟨trivial, fun body _ => ?_, trivial⟩
      refine (grounded_goVersions _ _ _ _).bind fun versions known' vain' _ => ?_
      split_ifs <;> trivial
  · exact ⟨trivial, fun _ _ => trivial, trivial⟩

theorem grounded_createReleases (packageID : Nat) (versions : List RegistryVersionInfo) :
    Grounded op known vain (createReleases packageID versions) := by
  induction versions generalizing known vain with
  | nil => trivial
  | cons v versions ih =>
      refine ⟨trivial, ?_, ih⟩
      rintro (_ | id) _
      · exact ⟨trivial, fun id _ => ⟨trivial, fun _ _ => ih, ih⟩, ih⟩
      · exact ih

theorem grounded_checkPackageForNewReleases (packageID : Nat) (pkg : Package) :
    Grounded op known vain (checkPackageForNewReleases cfg packageID pkg) := by
  refine (grounded_getPackage pkg).bind ?_
  rintro (_ | _ | ⟨v, versions⟩) known' vain' _
  · trivial
  · trivial
  · exact ⟨trivial, fun _ _ => grounded_createReleases _ _, grounded_createReleases _ _⟩

theorem grounded_markError (releaseID : Nat) (message : GoString) :
    Grounded op known vain (markError releaseID message) :=
  ⟨trivial, fun _ _ => trivial, trivial⟩

/-- A stored diff is queued. -/
theorem grounded_diffAgainst (releaseID : Nat) (release : Release) (pkg : Package)
    (prevReleaseID : Nat) (prevRelease : Release) :
    Grounded op known vain
      (diffAgainst cfg releaseID release pkg prevReleaseID prevRelease) := by
  rw [diffAgainst]
  split_ifs
  · trivial
  · refine ⟨trivial, fun _ _ => ?_, grounded_markError _ _⟩
    refine ⟨trivial, fun _ _ => ?_, grounded_markError _ _⟩
    refine ⟨trivial, fun _ _ => ?_, grounded_markError _ _⟩
    refine ⟨trivial, fun _ _ => ?_, grounded_markError _ _⟩
    refine ⟨trivial, fun _ _ => ?_, grounded_markError _ _⟩
    refine ⟨trivial, fun diffID _ => ?_, grounded_markError _ _⟩
    refine ⟨trivial, fun _ _ => ?_, ?_⟩
    · exact ⟨Or.inl (Or.inr rfl), fun _ _ => trivial, trivial⟩
    · exact ⟨Or.inr rfl, fun _ _ => trivial, trivial⟩

/-- What follows the update to diffing completes the release only after a lookup in
vain. -/
theorem grounded_afterDiffing {jobID releaseID : Nat} (release : Release) (pkg : Package)
    (hknown : known (.release releaseID)) :
    Grounded (.processRelease jobID releaseID) known vain (do
      match ← send (.findPreviousCompletedRelease release.packageID release.publishedAt) with
      | some (some (prevReleaseID, prevRelease)) =>
          diffAgainst cfg releaseID release pkg prevReleaseID prevRelease
      | _ =>
          let _ ← send (.updateReleaseStatus releaseID .completed)
          return .ok) := by
  have hlookup (known : Fact → Prop) (hknown : known (.release releaseID))
      (r : Option (Option (Nat × Release)))
      (hr : vainAfter (.findPreviousCompletedRelease release.packageID release.publishedAt) r =
        true) :
      Grounded (.processRelease jobID releaseID) known
        (vainAfter (.findPreviousCompletedRelease release.packageID release.publishedAt) r)
        (Prog.cmd (.updateReleaseStatus releaseID .completed) fun _ => .ret Result.ok) :=
    ⟨Or.inr ⟨hr, hknown, jobID, rfl⟩, fun _ _ => trivial, trivial⟩
  refine ⟨trivial, ?_, hlookup _ hknown none rfl⟩
  rintro (_ | ⟨prevReleaseID, prevRelease⟩) _
  · exact hlookup _ (Or.inl hknown) (some none) rfl
  · exact grounded_diffAgainst _ _ _ _ _

/-- Without a previous release the release is completed, after a lookup in vain. -/
theorem grounded_processRelease (jobID releaseID : Nat) :
    Grounded (.processRelease jobID releaseID) known vain (processRelease cfg releaseID) := by
  refine ⟨trivial, ?_, trivial⟩
  rintro (_ | ⟨release, pkg⟩) _
  · trivial
  · exact ⟨trivial, fun _ _ => grounded_afterDiffing _ _ (Or.inl (Or.inr ⟨rfl, rfl⟩)),
      grounded_afterDiffing _ _ (Or.inr ⟨rfl, rfl⟩)⟩

theorem grounded_analyzeWith (diffID : DiffID) (analysisCreated : Bool)
    (providers : List GoString) :
    Grounded op known vain (analyzeWith diffID analysisCreated providers) := by
  induction providers generalizing known vain analysisCreated with
  | nil => trivial
  | cons provider providers ih =>
      refine ⟨trivial, fun classification _ => ?_, ih _⟩
      refine ⟨trivial, fun _ _ => ?_, ih _⟩
      cases classification with
      | benign => exact ih _
      | suspicious => exact ⟨trivial, fun _ _ => ih _, ih _⟩
      | malicious => exact ⟨trivial, fun _ _ => ih _, ih _⟩

/-- An analysis completes the release of the diff that it has found. -/
theorem grounded_processDiff (diffID : DiffID) :
    Grounded op known vain (processDiff cfg diffID) := by
  refine ⟨trivial, ?_, trivial⟩
  rintro (_ | ⟨diff, _⟩) _
  · trivial
  · refine ⟨trivial, ?_, trivial⟩
    rintro (_ | _) _
    · trivial
    · refine (grounded_analyzeWith _ _ _).bind ?_
      rintro (_ | _) known' vain' hknown
      · trivial
      · refine ⟨Or.inl ⟨diffID, hknown _ ?_, rfl⟩, fun _ _ => trivial, trivial⟩
        exact Or.inl (Or.inr ⟨rfl, rfl⟩)

/-- The last part of a re-analysis without a diff. -/
theorem grounded_requeueDiff (releaseID : Nat) :
    Grounded op known vain (do
      match ← send (.updateReleaseStatus releaseID .pending) with
      | none => return .error "updating status".toList
      | some _ =>
          match ← send (.enqueue (.diff releaseID)) with
          | none => return .error "enqueue diff".toList
          | some _ => return .ok : Body Result) :=
  ⟨trivial, fun _ _ => ⟨trivial, fun _ _ => trivial, trivial⟩, trivial⟩

theorem grounded_reanalyzeRelease (workspaceID : GoString) (releaseID : Nat) :
    Grounded op known vain (reanalyzeRelease workspaceID releaseID) := by
  refine ⟨trivial, ?_, trivial⟩
  rintro (_ | _) _
  · trivial
  · refine ⟨trivial, ?_, grounded_requeueDiff _⟩
    rintro (_ | diffID) _
    · exact grounded_requeueDiff _
    · refine ⟨trivial, fun _ _ => ?_, trivial⟩
      exact ⟨Or.inl (Or.inr rfl), fun _ _ => trivial, trivial⟩

theorem grounded_recoverRelease (releaseID : Nat) (release : Release) :
    Grounded op known vain (recoverRelease releaseID release) := by
  have hdiff (known : Fact → Prop) (vain : Bool) :
      Grounded op known vain (Prog.cmd (.updateReleaseStatus releaseID .pending) fun _ =>
        (Prog.cmd (.enqueue (.diff releaseID)) fun _ => .ret () : Body Unit)) :=
    ⟨trivial, fun _ _ => ⟨trivial, fun _ _ => trivial, trivial⟩,
      trivial, fun _ _ => trivial, trivial⟩
  rw [recoverRelease]
  split
  · exact hdiff _ _
  · refine ⟨trivial, ?_, hdiff _ _⟩
    rintro (_ | diffID) hsound
    · exact hdiff _ _
    · have hrelease := hsound diffID rfl
      refine ⟨trivial, fun analysisCount _ => ?_, ?_⟩
      · change Grounded op _ _ (if analysisCount = 0 then _ else _)
        split_ifs
        · exact ⟨Or.inl (Or.inr rfl), fun _ _ => trivial, trivial⟩
        · refine ⟨Or.inl ⟨diffID, Or.inl (Or.inr rfl), hrelease⟩, fun _ _ => trivial, trivial⟩
      · exact ⟨Or.inr rfl, fun _ _ => trivial, trivial⟩
  · trivial

theorem grounded_recoverStuckReleases :
    Grounded op known vain (recoverStuckReleases) := by
  have hloop (stuck : List (Nat × Release)) (known : Fact → Prop) (vain : Bool) :
      Grounded op known vain (recoverReleases stuck) := by
    induction stuck generalizing known vain with
    | nil => trivial
    | cons e stuck ih =>
        obtain ⟨releaseID, release⟩ := e
        exact (grounded_recoverRelease releaseID release).bind fun _ _ _ _ => ih _ _
  exact ⟨trivial, fun stuck _ => hloop _ _ _, hloop _ _ _⟩

/-- Every operation is grounded in what it has learned. -/
theorem grounded_bodyOf (op : Op) : Grounded op known vain (bodyOf cfg op) := by
  cases op with
  | poll packageID pkg => exact grounded_checkPackageForNewReleases packageID pkg
  | processRelease jobID releaseID => exact grounded_processRelease jobID releaseID
  | processDiff jobID diffID => exact grounded_processDiff diffID
  | reanalyzeRelease workspaceID releaseID => exact grounded_reanalyzeRelease _ _
  | recoverStuckReleases => exact grounded_recoverStuckReleases

end Bodies

/-! ## What calls do to diffs and jobs -/

/-- Answers are sound. -/
theorem sound_exec (s : State) (c : Call) : Sound c (s.exec c).2 := by
  cases c with
  | createDiff releaseID prevReleaseID => rfl
  | findFirstByReleaseID releaseID =>
      intro d hd
      simpa using (List.mem_filter.mp (List.argmin_mem hd)).2
  | _ => trivial

/-- Releases and diffs are not removed. -/
theorem holds_exec {s : State} {a : Fact} (ha : a.Holds s) (c : Call) :
    a.Holds (s.exec c).1 := by
  cases a with
  | release releaseID =>
      obtain ⟨release, hrelease⟩ := Option.isSome_iff_exists.mp ha
      cases c with
      | createRelease new =>
          exact Option.isSome_iff_exists.mpr ⟨release, Ledger.get?_add_of_some hrelease⟩
      | updateReleaseStatus id status => exact Ledger.isSome_get?_modify ha
      | updateReleaseError id message => exact Ledger.isSome_get?_modify ha
      | _ => exact ha
  | diff d =>
      cases c with
      | createDiff releaseID prevReleaseID => exact Table.mem_keys_insert.mpr (Or.inr ha)
      | _ => exact ha

/-- What an answer shows holds. -/
theorem holds_of_learns {s : State} {c : Call} {a : Fact} (ha : Learns c (s.exec c).2 a) :
    a.Holds (s.exec c).1 := by
  cases c with
  | findReleaseByIDWithPackage id =>
      cases a with
      | release releaseID =>
          obtain ⟨hfound, rfl⟩ := ha
          simp only [State.exec, State.releaseWithPackage] at hfound
          cases hget : s.releases.get? id with
          | none => simp [hget] at hfound
          | some release => exact Option.isSome_iff_exists.mpr ⟨release, hget⟩
      | diff d => exact ha.elim
  | createDiff releaseID prevReleaseID =>
      cases a with
      | release releaseID => exact ha.elim
      | diff d => exact Table.mem_keys_insert.mpr (Or.inl ha.symm)
  | findDiffWithRelease id =>
      cases a with
      | release releaseID => exact ha.elim
      | diff d =>
          obtain ⟨hfound, rfl⟩ := ha
          simp only [State.exec] at hfound
          split at hfound
          · rename_i diff _ _ hdiff _
            change id ∈ s.diffs.keys
            simp [Table.mem_keys_iff, hdiff]
          · exact absurd hfound (by simp)
  | findFirstByReleaseID releaseID =>
      cases a with
      | release releaseID => exact ha.elim
      | diff d => exact List.mem_of_mem_filter (List.argmin_mem ha)
  | _ => exact ha.elim

/-- Calls add jobs and change none. -/
theorem job_of_exec {s : State} {c : Call} {id : Nat} {job : Job}
    (hjob : (s.exec c).1.queue.get? id = some job) :
    s.queue.get? id = some job ∨ (c = .enqueue job.ref ∧ id = s.queue.next) := by
  cases c with
  | enqueue ref =>
      have hadd : (s.queue.add ⟨ref, false⟩).get? id = some job := hjob
      rw [Ledger.get?_add] at hadd
      split_ifs at hadd with hid
      · obtain rfl := Option.some.inj hadd
        exact Or.inr ⟨rfl, hid⟩
      · exact Or.inl hadd
  | _ => exact Or.inl hjob

/-- The rows of releases do not depend on who processes a job. -/
@[simp]
theorem releases_setRunning (s : State) (op : Op) (running : Bool) :
    (s.setRunning op running).releases = s.releases := by
  simp only [State.setRunning]
  split <;> rfl

@[simp]
theorem releases_done (s : State) (op : Op) (result : Result) :
    (s.done op result).releases = s.releases := by
  cases result with
  | error message => exact releases_setRunning s op false
  | ok =>
      simp only [State.done]
      split <;> rfl

@[simp]
theorem diffs_setRunning (s : State) (op : Op) (running : Bool) :
    (s.setRunning op running).diffs = s.diffs := by
  simp only [State.setRunning]
  split <;> rfl

@[simp]
theorem diffs_done (s : State) (op : Op) (result : Result) :
    (s.done op result).diffs = s.diffs := by
  cases result with
  | error message => exact diffs_setRunning s op false
  | ok =>
      simp only [State.done]
      split <;> rfl

/-- Starting and ending operations change no reference of a job. -/
theorem job_of_setRunning {s : State} {op : Op} {running : Bool} {id : Nat} {job : Job}
    (hjob : (s.setRunning op running).queue.get? id = some job) :
    ∃ before, s.queue.get? id = some before ∧ before.ref = job.ref := by
  simp only [State.setRunning] at hjob
  split at hjob
  · exact ⟨job, hjob, rfl⟩
  · rename_i jobID ref hop
    simp only [Ledger.get?_modify] at hjob
    split_ifs at hjob with hid
    · obtain ⟨before, hbefore, rfl⟩ := Option.map_eq_some_iff.mp hjob
      exact ⟨before, hid ▸ hbefore, rfl⟩
    · exact ⟨job, hjob, rfl⟩

theorem job_of_done {s : State} {op : Op} {result : Result} {id : Nat} {job : Job}
    (hjob : (s.done op result).queue.get? id = some job) :
    ∃ before, s.queue.get? id = some before ∧ before.ref = job.ref := by
  cases result with
  | error message => exact job_of_setRunning hjob
  | ok =>
      simp only [State.done] at hjob
      split at hjob
      · exact ⟨job, hjob, rfl⟩
      · simp only [Ledger.get?_remove] at hjob
        split_ifs at hjob
        exact ⟨job, hjob, rfl⟩

/-! ## The operations in progress -/

/-- All operations are grounded in facts, and all queued analyses are about stored
diffs. -/
structure Grounds (vain : Nat → Bool) (w : PipelineWorld) : Prop where
  bodies : ∀ i t, w.threads i = some t → Grounded t.op (Fact.Holds w.store) (vain i) t.prog
  jobs : ∀ id job d, w.store.queue.get? id = some job → job.ref = .analyze d →
    d ∈ w.store.diffs.keys

/-- Which operations have just looked for a previous release in vain after a step. -/
def vainStep (w : PipelineWorld) (vain : Nat → Bool) : Label Op → Nat → Bool
  | .start i _ => Function.update vain i false
  | .exec i =>
      match w.threads i with
      | some ⟨_, .cmd c _, _⟩ =>
          Function.update vain i (vainAfter c (some (w.store.exec c).2))
      | _ => vain
  | .fail i =>
      match w.threads i with
      | some ⟨_, .cmd c _, _⟩ => Function.update vain i (vainAfter c none)
      | _ => vain
  | _ => vain

section Preservation

variable {cfg : Config} {vain : Nat → Bool} {w : PipelineWorld} {i : Nat}

/-- The bodies stay grounded when one operation changes and facts are kept. -/
theorem Grounds.bodies_setThread (hgrounds : Grounds vain w) {store : State}
    {t : Option (Thread Op Call Answer Result)} {b : Bool}
    (hkeep : ∀ a : Fact, a.Holds w.store → a.Holds store)
    (hnew : ∀ u, t = some u → Grounded u.op (Fact.Holds store) b u.prog) :
    ∀ j u, w.setThread i t j = some u →
      Grounded u.op (Fact.Holds store) (Function.update vain i b j) u.prog := by
  refine World.forall_setThread (P := fun j (u : Thread Op Call Answer Result) =>
    Grounded u.op (Fact.Holds store) (Function.update vain i b j) u.prog) ?_ ?_
  · intro j hj u hu
    rw [Function.update_of_ne hj]
    exact (hgrounds.bodies j u hu).mono hkeep
  · intro u hu
    rw [Function.update_self]
    exact hnew u hu

/-- A finished or stopped operation leaves the others grounded. -/
theorem Grounds.bodies_gone (hgrounds : Grounds vain w) {store : State}
    (hkeep : ∀ a : Fact, a.Holds w.store → a.Holds store) :
    ∀ j u, w.setThread i none j = some u →
      Grounded u.op (Fact.Holds store) (vain j) u.prog :=
  World.forall_setThread (P := fun j (u : Thread Op Call Answer Result) =>
    Grounded u.op (Fact.Holds store) (vain j) u.prog)
    (fun j _ u hu => (hgrounds.bodies j u hu).mono hkeep) (by simp)

/-- Facts hold in a state with the same releases and diffs. -/
theorem holds_of_eq {s s' : State} (hreleases : s'.releases = s.releases)
    (hdiffs : s'.diffs = s.diffs) (a : Fact) (ha : a.Holds s) : a.Holds s' := by
  cases a with
  | release releaseID => simpa [Fact.Holds, hreleases] using ha
  | diff d => simpa [Fact.Holds, hdiffs] using ha

/-- Every step keeps all operations grounded. -/
theorem Grounds.step (hgrounds : Grounds vain w) {l : Label Op} {w' : PipelineWorld}
    (hstep : (pipelineSystem cfg).Step w l w') : Grounds (vainStep w vain l) w' := by
  cases hstep with
  | start hfree henabled =>
      refine ⟨hgrounds.bodies_setThread ?_ ?_, fun id job d hjob href => ?_⟩
      · exact holds_of_eq (releases_setRunning _ _ _) (diffs_setRunning _ _ _)
      · rintro u ⟨⟩
        exact grounded_bodyOf _
      · obtain ⟨before, hbefore, hsame⟩ := job_of_setRunning hjob
        simpa [pipelineSystem] using hgrounds.jobs id before d hbefore (hsame.trans href)
  | @exec i op c k failed hthread _ =>
      have hbody := hgrounds.bodies i _ hthread
      simp only [vainStep, hthread]
      refine ⟨hgrounds.bodies_setThread (fun a ha => holds_exec ha c) ?_, ?_⟩
      · rintro u ⟨⟩
        refine (hbody.2.1 _ (sound_exec w.store c)).mono ?_
        rintro a (ha | ha)
        · exact holds_exec ha c
        · exact holds_of_learns ha
      · intro id job d hjob href
        rcases job_of_exec hjob with hbefore | ⟨hc, _⟩
        · have hstored : (Fact.diff d).Holds w.store := hgrounds.jobs id job d hbefore href
          exact holds_exec hstored c
        · rw [href] at hc
          subst hc
          have hstored : (Fact.diff d).Holds w.store := hbody.1
          exact holds_exec hstored _
  | fail hthread _ =>
      simp only [vainStep, hthread]
      refine ⟨hgrounds.bodies_setThread (fun a ha => ha) ?_, hgrounds.jobs⟩
      rintro u ⟨⟩
      exact (hgrounds.bodies _ _ hthread).2.2
  | stop hthread =>
      refine ⟨hgrounds.bodies_gone ?_, fun id job d hjob href => ?_⟩
      · exact holds_of_eq (releases_setRunning _ _ _) (diffs_setRunning _ _ _)
      · obtain ⟨before, hbefore, hsame⟩ := job_of_setRunning hjob
        simpa [pipelineSystem] using hgrounds.jobs id before d hbefore (hsame.trans href)
  | finish hthread =>
      refine ⟨hgrounds.bodies_gone ?_, fun id job d hjob href => ?_⟩
      · exact holds_of_eq (releases_done _ _ _) (diffs_done _ _ _)
      · obtain ⟨before, hbefore, hsame⟩ := job_of_done hjob
        simpa [pipelineSystem] using hgrounds.jobs id before d hbefore (hsame.trans href)
  | env henv =>
      cases henv with
      | outside outside =>
          exact ⟨fun i t ht => (hgrounds.bodies i t ht).mono (holds_of_eq rfl rfl),
            hgrounds.jobs⟩
      | package hnew pkg =>
          exact ⟨fun i t ht => (hgrounds.bodies i t ht).mono (holds_of_eq rfl rfl),
            hgrounds.jobs⟩

end Preservation

/-- Before the first operation everything is grounded. -/
theorem grounds_start (packages : Table Nat Package) (outside : Outside) :
    Grounds (fun _ => false) (start packages outside) where
  bodies := by simp [start, World.initial]
  jobs := by simp [start, World.initial, State.initial]

end Pipeline
end Veilence

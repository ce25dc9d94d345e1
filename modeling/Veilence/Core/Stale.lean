import Veilence.Core.Discovery

/-!
# The removal of stale packages

At the end of a discovery cycle the active packages without a recent release are removed.  A
package that has never been polled has no release at all, and so a package that the same cycle
has approved is removed, like one that was approved a moment ago.

The removal is right if it hits only packages that have been active since before the threshold
and have a known release, all releases being older than the threshold.

Main results:

- Theorem {lit}`traced_scanned`: the scans leave the active packages active, and if they approve
  a package without a recent release, it is active at their end.
- Theorem {lit}`removesOnlyStale_round`: when the removal of a workspace is right.
- Theorem {lit}`runDiscoveryCycle_removesOnlyStale_iff`: the same for a whole cycle.
- Theorem {lit}`removes_approved`: a cycle that removes the package it has approved.
-/

namespace Veilence
namespace Core

open Go Foundation

variable {r : Round} {s : Monitored} {db db' db₀ : Database} {k : ID} {t : Time}

/-! ## The property and the condition -/

/-- The package is an active one of the workspace. -/
def ActiveIn (w : ID) (db : Database) (k : ID) : Prop :=
  ∃ p, db.packages.get? k = some p ∧ p.workspaceID = w ∧ p.status = .active

/-- The package has been active since before a time, and it has a known release. -/
def Seasoned (s : Monitored) (t : Time) (k : ID) : Prop :=
  (∃ since, s.activeSince k = some since ∧ since < t) ∧ releasesOfPackage s.db k ≠ []

/-- The removal changes only active packages, none that the cycle has approved, that have been
active since before the threshold and have releases, all of them older. -/
def RemovesOnlyStale (r : Round) (s : Monitored) : Prop :=
  r.Scans → ∀ k p p', (scanned s r).db.packages.get? k = some p →
    (discoverWorkspace s r).db.packages.get? k = some p' → p' ≠ p →
      p.status = .active ∧ ActiveIn r.workspaceID s.db k ∧ Seasoned s r.staleBefore k ∧
        ∀ e ∈ releasesOfPackage s.db k, e.2.publishedAt < r.staleBefore

/-- The visit approves a package without a recent release. -/
def Approves (r : Round) (db : Database) (scan : Scan) (v : Visit) : Prop :=
  r.autoApprove = true ∧ (Creates r.workspaceID scan r.autoApprove db v ∨
    ∃ e, Revives r.workspaceID scan db v e ∧ e.1 ∉ PackageRepo.releasedSince db r.staleBefore)

/-- One of the visits of a round approves a package without a recent release. -/
def ApprovesSome (r : Round) (db : Database) : Prop :=
  ∃ scan ∈ r.scans, ∃ visits ∈ scan.rankings, ∃ v ∈ visits, Approves r db scan v

/-- Every active package of the workspace without a recent release has been active for long and
has a release, and the scans approve none without a recent release. -/
def Ripe (r : Round) (s : Monitored) : Prop :=
  (∀ k, ActiveIn r.workspaceID s.db k → k ∉ PackageRepo.releasedSince s.db r.staleBefore →
    Seasoned s r.staleBefore k) ∧ ¬ApprovesSome r s.db

/-- Every release is one of a package that exists. -/
def ReleasesReferred (db : Database) : Prop :=
  ∀ e ∈ db.releases.entries, (db.packages.get? e.2.packageID).isSome = true

instance : Decidable (ReleasesReferred db) :=
  inferInstanceAs (Decidable (∀ e ∈ db.releases.entries,
    (db.packages.get? e.2.packageID).isSome = true))

/-! ## The releases -/

/-- A package has no recent release if all of its releases are older. -/
theorem notMem_releasedSince_iff :
    k ∉ PackageRepo.releasedSince db t ↔
      ∀ e ∈ releasesOfPackage db k, e.2.publishedAt < t := by
  unfold PackageRepo.releasedSince releasesOfPackage
  simp only [List.mem_map, List.mem_filter, decide_eq_true_eq, not_exists, not_and]
  constructor
  · intro h e he
    by_contra hlate
    exact h e ⟨he.1, Int.not_lt.mp hlate⟩ he.2
  · intro h e he hk
    exact absurd (h e ⟨he.1, hk⟩) (Int.not_lt.mpr he.2)

/-- A package with a release exists. -/
theorem isSome_of_mem_releasedSince (h : ReleasesReferred db)
    (hk : k ∈ PackageRepo.releasedSince db t) : (db.packages.get? k).isSome = true := by
  obtain ⟨e, he, rfl⟩ := List.mem_map.mp hk
  exact h e (List.mem_of_mem_filter he)

theorem releasedSince_of_releases (h : db'.releases = db.releases) :
    PackageRepo.releasedSince db' t = PackageRepo.releasedSince db t := by
  unfold PackageRepo.releasedSince
  rw [h]

/-! ## Updates of packages -/

section Updates

variable {sel : ID → Package → Bool} {f : Package → Package}

theorem creates_updateWhere_iff (hf : KeepsName f) {w : ID} {scan : Scan} {autoApprove : Bool}
    {v : Visit} :
    Creates w scan autoApprove (db.set .packages (db.packages.updateWhere sel f)) v ↔
      Creates w scan autoApprove db v := by
  unfold Creates PollerRepo.Insertable
  rw [updateWhere_get?_eq_none_iff, find?_updateWhere hf, Option.map_eq_none_iff, workspaces_set]

/-- An update that makes no package without a recent release a removed one or another one. -/
theorem approves_updateWhere_iff (hf : KeepsName f)
    (hstatus : ∀ k p, db.packages.get? k = some p → sel k p = true →
      k ∉ PackageRepo.releasedSince db r.staleBefore →
      ((f p).status = .removed ↔ p.status = .removed)) {scan : Scan} {v : Visit} :
    Approves r (db.set .packages (db.packages.updateWhere sel f)) scan v ↔
      Approves r db scan v := by
  unfold Approves
  rw [creates_updateWhere_iff hf]
  refine and_congr_right fun _ => or_congr_right ?_
  have hreleases := releasedSince_of_releases (t := r.staleBefore)
    (releases_set db (db.packages.updateWhere sel f))
  unfold Revives
  rw [hreleases, find?_updateWhere hf]
  constructor
  · intro h
    obtain ⟨e', ⟨hfind, hwrite, hmap, hremoved⟩, hold⟩ := h
    obtain ⟨e, he, rfl⟩ := Option.map_eq_some_iff.mp hmap
    refine ⟨e, ⟨hfind, hwrite, he, ?_⟩, hold⟩
    dsimp only at hremoved hold
    split_ifs at hremoved with hsel
    · exact (hstatus e.1 e.2 (of_findPackage he).1 hsel hold).mp hremoved
    · exact hremoved
  · intro h
    obtain ⟨e, ⟨hfind, hwrite, he, hremoved⟩, hold⟩ := h
    refine ⟨_, ⟨hfind, hwrite, congrArg (Option.map _) he, ?_⟩, hold⟩
    dsimp only
    split_ifs with hsel
    · exact (hstatus e.1 e.2 (of_findPackage he).1 hsel hold).mpr hremoved
    · exact hremoved

end Updates

/-! ## What the scans preserve -/

/-- Since the start of the cycle no release has changed, no package has gone, and no package has
ceased to be active. -/
structure Tracks (r : Round) (db₀ db : Database) : Prop where
  releases : db.releases = db₀.releases
  keys : ∀ k, (db₀.packages.get? k).isSome = true → (db.packages.get? k).isSome = true
  active : ∀ k, ActiveIn r.workspaceID db₀ k → ActiveIn r.workspaceID db k

/-- And no package without a recent release has become active. -/
structure Quiet (r : Round) (db₀ db : Database) : Prop extends Tracks r db₀ db where
  source : ∀ k, ActiveIn r.workspaceID db k →
    k ∉ PackageRepo.releasedSince db₀ r.staleBefore → ActiveIn r.workspaceID db₀ k
  approves : ∀ scan v, Approves r db scan v ↔ Approves r db₀ scan v

/-- A package without a recent release has become active. -/
structure Loud (r : Round) (db₀ db : Database) : Prop extends Tracks r db₀ db where
  hit : ∃ k, ActiveIn r.workspaceID db k ∧ ¬ActiveIn r.workspaceID db₀ k ∧
    k ∉ PackageRepo.releasedSince db₀ r.staleBefore

/-- Whether a package without a recent release has been approved tells whether one has become
active. -/
structure Traced (r : Round) (db₀ : Database) (approved : Prop) (db : Database) : Prop where
  quiet : ¬approved → Quiet r db₀ db
  loud : approved → Loud r db₀ db

/-- The same said in other words. -/
theorem Traced.of_iff {approved approved' : Prop} (h : Traced r db₀ approved db)
    (hiff : approved ↔ approved') : Traced r db₀ approved' db :=
  ⟨fun hnot => h.quiet (mt hiff.mp hnot), fun happroved => h.loud (hiff.mpr happroved)⟩

/-- The start of the cycle. -/
theorem Quiet.refl (db₀ : Database) : Quiet r db₀ db₀ where
  releases := rfl
  keys _ h := h
  active _ h := h
  source _ h _ := h
  approves _ _ := Iff.rfl

/-- Nothing is lost if the packages are kept and the active ones stay active. -/
theorem Tracks.step (h : Tracks r db₀ db) (hreleases : db'.releases = db.releases)
    (hkeys : ∀ k, (db.packages.get? k).isSome = true → (db'.packages.get? k).isSome = true)
    (hactive : ∀ k, ActiveIn r.workspaceID db k → ActiveIn r.workspaceID db' k) :
    Tracks r db₀ db' where
  releases := hreleases.trans h.releases
  keys k hk := hkeys k (h.keys k hk)
  active k hk := hactive k (h.active k hk)

theorem Loud.step (h : Loud r db₀ db) (htracks : Tracks r db₀ db')
    (hactive : ∀ k, ActiveIn r.workspaceID db k → ActiveIn r.workspaceID db' k) :
    Loud r db₀ db' where
  toTracks := htracks
  hit := by
    obtain ⟨k, hk, hnew, hold⟩ := h.hit
    exact ⟨k, hactive k hk, hnew, hold⟩

section Steps

variable {sel : ID → Package → Bool} {f : Package → Package}

/-- An update that keeps the active packages active. -/
theorem active_updateWhere (hf : KeepsName f)
    (hactive : ∀ k p, db.packages.get? k = some p → sel k p = true → p.status = .active →
      (f p).status = .active) {w : ID} (hk : ActiveIn w db k) :
    ActiveIn w (db.set .packages (db.packages.updateWhere sel f)) k := by
  obtain ⟨p, hp, hw, hstatus⟩ := hk
  refine ⟨_, updateWhere_get? hp, ?_, ?_⟩
  · split_ifs
    · rw [hf.workspaceID, hw]
    · exact hw
  · split_ifs with hsel
    · exact hactive k p hp hsel hstatus
    · exact hstatus

theorem Tracks.updateWhere (h : Tracks r db₀ db) (hf : KeepsName f)
    (hactive : ∀ k p, db.packages.get? k = some p → sel k p = true → p.status = .active →
      (f p).status = .active) :
    Tracks r db₀ (db.set .packages (db.packages.updateWhere sel f)) := by
  apply h.step (releases_set db _)
  · intro k hk
    obtain ⟨p, hp⟩ := Option.isSome_iff_exists.mp hk
    rw [updateWhere_get? hp]
    rfl
  · exact fun k hk => active_updateWhere hf hactive hk

/-- An update that leaves the status of every package. -/
theorem Traced.updateWhere {approved : Prop} (h : Traced r db₀ approved db) (hf : KeepsName f)
    (hstatus : ∀ p, (f p).status = p.status) :
    Traced r db₀ approved (db.set .packages (db.packages.updateWhere sel f)) := by
  have hactive : ∀ k p, db.packages.get? k = some p → sel k p = true → p.status = .active →
      (f p).status = .active := fun k p _ _ hp => (hstatus p).trans hp
  constructor
  · intro happroved
    have hquiet := h.quiet happroved
    refine ⟨hquiet.toTracks.updateWhere hf hactive, ?_, ?_⟩
    · intro k hk hold
      apply hquiet.source k _ hold
      obtain ⟨p', hp', hw, hp⟩ := hk
      obtain ⟨p, hget, rfl⟩ := get?_of_updateWhere hp'
      refine ⟨p, hget, ?_, ?_⟩
      · split_ifs at hw
        · rwa [hf.workspaceID] at hw
        · exact hw
      · split_ifs at hp
        · rwa [hstatus] at hp
        · exact hp
    · intro scan v
      rw [← hquiet.approves]
      exact approves_updateWhere_iff hf fun k p _ _ _ => by rw [hstatus]
  · intro happroved
    have hloud := h.loud happroved
    exact hloud.step (hloud.toTracks.updateWhere hf hactive)
      fun k hk => active_updateWhere hf hactive hk

end Steps

/-! ## The scan of a ranking -/

section Visits

variable {w : ID} {scan : Scan} {autoApprove : Bool} {u : Upserted} {v : Visit}

/-- The update of the metrics of a package. -/
theorem keepsName_metrics (status : Option PackageStatus) (downloadCount : Int) (now : Time) :
    KeepsName fun p =>
      { p with
        status := status.getD p.status
        downloadCount := downloadCount
        downloadCountUpdatedAt := some now
        updatedAt := now } :=
  ⟨fun _ => rfl, fun _ => rfl, fun _ => rfl⟩

/-- Without approval there is nothing to do. -/
theorem not_approves_of_idle (hcreates : ¬Creates r.workspaceID scan r.autoApprove db v)
    (hrevives : ∀ e, ¬Revives r.workspaceID scan db v e) : ¬Approves r db scan v := by
  intro h
  rcases h.2 with h | ⟨e, h, -⟩
  · exact hcreates h
  · exact hrevives e h

/-- A new row is active if it has been approved. -/
theorem activeIn_insert_iff {id : ID} {pkg : Package} (hnew : db.packages.get? id = none) :
    ActiveIn w (db.set .packages (db.packages.insert id pkg)) k ↔
      k = id ∧ pkg.workspaceID = w ∧ pkg.status = .active ∨ ActiveIn w db k := by
  unfold ActiveIn
  rw [packages_set]
  by_cases hk : k = id
  · subst hk
    simp [hnew]
  · rw [Table.get?_insert_of_ne hk]
    simp [hk]

theorem Tracks.insert {id : ID} {pkg : Package} (h : Tracks r db₀ db)
    (hnew : db.packages.get? id = none) :
    Tracks r db₀ (db.set .packages (db.packages.insert id pkg)) := by
  apply h.step (releases_set db _)
  · intro k hk
    have hne : k ≠ id := by
      rintro rfl
      rw [hnew] at hk
      exact absurd hk (by decide)
    rwa [packages_set, Table.get?_insert_of_ne hne]
  · exact fun k hk => (activeIn_insert_iff hnew).mpr (Or.inr hk)

/-- An approved package without a recent release that was not active. -/
theorem Quiet.loud (h : Quiet r db₀ db) (htracks : Tracks r db₀ db')
    (hactive : ActiveIn r.workspaceID db' k) (hinactive : ¬ActiveIn r.workspaceID db k)
    (hold : k ∉ PackageRepo.releasedSince db₀ r.staleBefore) : Loud r db₀ db' where
  toTracks := htracks
  hit := ⟨k, hactive, fun hk => hinactive (h.active k hk), hold⟩

theorem Traced.tracks {approved : Prop} (h : Traced r db₀ approved db) : Tracks r db₀ db := by
  by_cases happroved : approved
  · exact (h.loud happroved).toTracks
  · exact (h.quiet happroved).toTracks

/-- Without automatic approval the visits approve nothing. -/
theorem approves_iff_of_not (h : r.autoApprove ≠ true) :
    Approves r db scan v ↔ Approves r db₀ scan v :=
  ⟨fun happroves => absurd happroves.1 h, fun happroves => absurd happroves.1 h⟩

/-- A visit that creates a package. -/
theorem Traced.created {approved : Prop} (hrefs : ReleasesReferred db₀)
    (h : Traced r db₀ approved db) (hcreates : Creates r.workspaceID scan r.autoApprove db v) :
    Traced r db₀ (approved ∨ Approves r db₀ scan v)
      (db.set .packages (db.packages.insert v.newID
        (discoveredPackage r.workspaceID scan r.autoApprove v.ranking))) := by
  have hnew : db.packages.get? v.newID = none := hcreates.2.2.1
  have htracks : Tracks r db₀ (db.set .packages (db.packages.insert v.newID
      (discoveredPackage r.workspaceID scan r.autoApprove v.ranking))) := h.tracks.insert hnew
  constructor
  · intro hnot
    have hquiet := h.quiet fun happroved => hnot (Or.inl happroved)
    have hsuggested : r.autoApprove ≠ true := by
      intro hauto
      exact hnot (Or.inr ((hquiet.approves scan v).mp ⟨hauto, Or.inl hcreates⟩))
    refine ⟨htracks, ?_, fun _ _ => approves_iff_of_not hsuggested⟩
    intro k hk hold
    rcases (activeIn_insert_iff hnew).mp hk with ⟨-, -, hactive⟩ | hk
    · simp [discoveredPackage, newStatus, hsuggested] at hactive
    · exact hquiet.source k hk hold
  · intro hor
    by_cases happroved : approved
    · exact (h.loud happroved).step htracks fun k hk => (activeIn_insert_iff hnew).mpr (Or.inr hk)
    · have hquiet := h.quiet happroved
      have hauto := (hor.resolve_left happroved).1
      apply hquiet.loud htracks
      · refine (activeIn_insert_iff hnew).mpr (Or.inl ⟨rfl, rfl, ?_⟩)
        simp [discoveredPackage, newStatus, hauto]
      · intro hactive
        obtain ⟨p, hp, -⟩ := hactive
        exact absurd (hnew.symm.trans hp) (Option.some_ne_none p).symm
      · intro hreleased
        have hsome := hquiet.keys _ (isSome_of_mem_releasedSince hrefs hreleased)
        rw [hnew] at hsome
        exact absurd hsome (by decide)

/-- A visit that revives a package. -/
theorem Traced.revived {approved : Prop} {e : Entry Package} (h : Traced r db₀ approved db)
    (hrevives : Revives r.workspaceID scan db v e) :
    Traced r db₀ (approved ∨ Approves r db₀ scan v)
      (PollerRepo.updatePackageDiscoveryMetrics db e.1 (some (newStatus r.autoApprove))
        v.ranking.downloadCount scan.now) := by
  have hnames := keepsName_metrics (some (newStatus r.autoApprove)) v.ranking.downloadCount scan.now
  obtain ⟨hget, hw, -⟩ := of_findPackage hrevives.2.2.1
  have hremoved := hrevives.2.2.2
  have hrow : ∀ k p, db.packages.get? k = some p → decide (k = e.1) = true → p = e.2 := by
    intro k p hp hk
    rw [of_decide_eq_true hk, hget] at hp
    exact (Option.some.inj hp).symm
  have hstays : ∀ k p, db.packages.get? k = some p → decide (k = e.1) = true →
      p.status = .active → (some (newStatus r.autoApprove)).getD p.status = .active := by
    intro k p hp hk hactive
    rw [hrow k p hp hk, hremoved] at hactive
    exact nomatch hactive
  have htracks : Tracks r db₀
      (PollerRepo.updatePackageDiscoveryMetrics db e.1 (some (newStatus r.autoApprove))
        v.ranking.downloadCount scan.now) := h.tracks.updateWhere hnames hstays
  have hactive : ∀ k, ActiveIn r.workspaceID db k → ActiveIn r.workspaceID
      (PollerRepo.updatePackageDiscoveryMetrics db e.1 (some (newStatus r.autoApprove))
        v.ranking.downloadCount scan.now) k :=
    fun k hk => active_updateWhere hnames hstays hk
  have hreleases : PackageRepo.releasedSince db r.staleBefore =
      PackageRepo.releasedSince db₀ r.staleBefore :=
    releasedSince_of_releases h.tracks.releases
  constructor
  · intro hnot
    have hquiet := h.quiet fun happroved => hnot (Or.inl happroved)
    -- What is approved has a recent release.
    have hrecent : r.autoApprove = true → e.1 ∈ PackageRepo.releasedSince db₀ r.staleBefore := by
      intro hauto
      by_contra hold
      rw [← hreleases] at hold
      exact hnot (Or.inr ((hquiet.approves scan v).mp ⟨hauto, Or.inr ⟨e, hrevives, hold⟩⟩))
    refine ⟨htracks, ?_, ?_⟩
    · intro k hk hold
      obtain ⟨p', hp', hw', hstatus⟩ := hk
      obtain ⟨p, hp, rfl⟩ := get?_of_updateWhere hp'
      apply hquiet.source k _ hold
      by_cases hkey : k = e.1
      · subst hkey
        cases hauto : r.autoApprove with
        | true => exact absurd (hrecent hauto) hold
        | false => simp [newStatus, hauto] at hstatus
      · simp only [hkey, decide_false, Bool.false_eq_true, if_false] at hw' hstatus
        exact ⟨p, hp, hw', hstatus⟩
    · intro scan' v'
      by_cases hauto : r.autoApprove = true
      · rw [← hquiet.approves]
        apply approves_updateWhere_iff hnames
        intro k p hp hk hold
        rw [hreleases, of_decide_eq_true hk] at hold
        exact absurd (hrecent hauto) hold
      · exact approves_iff_of_not hauto
  · intro hor
    by_cases happroved : approved
    · exact (h.loud happroved).step htracks hactive
    · have hquiet := h.quiet happroved
      obtain ⟨hauto, hcause⟩ := (hquiet.approves scan v).mpr (hor.resolve_left happroved)
      rcases hcause with hcreates | ⟨e', hrevives', hold⟩
      · exact absurd hcreates (not_creates_of_find hrevives.2.2.1)
      · have hsame := hrevives'.2.2.1
        rw [hrevives.2.2.1] at hsame
        obtain rfl := Option.some.inj hsame
        rw [hreleases] at hold
        refine hquiet.loud htracks ⟨_, updateWhere_get? hget, ?_, ?_⟩ ?_ hold
        · simpa using hw
        · simp [newStatus, hauto]
        · intro hactive
          obtain ⟨p, hp, -, hp'⟩ := hactive
          rw [hget] at hp
          obtain rfl := Option.some.inj hp
          exact nomatch hremoved.symm.trans hp'

/-- The turn of a ranking. -/
theorem Traced.upsert {approved : Prop} {u : Upserted} (hrefs : ReleasesReferred db₀)
    (h : Traced r db₀ approved u.state.db) (scan : Scan) (v : Visit) :
    Traced r db₀ (approved ∨ Approves r db₀ scan v)
      (Core.upsert r.workspaceID scan r.autoApprove u v).state.db := by
  have hidle : ¬Creates r.workspaceID scan r.autoApprove u.state.db v →
      (∀ e, ¬Revives r.workspaceID scan u.state.db v e) →
      Traced r db₀ (approved ∨ Approves r db₀ scan v) u.state.db := by
    intro hcreates hrevives
    have hnot := not_approves_of_idle hcreates hrevives
    constructor
    · exact fun hneither => h.quiet fun happroved => hneither (Or.inl happroved)
    · intro hor
      by_cases happroved : approved
      · exact h.loud happroved
      · exact absurd (((h.quiet happroved).approves scan v).mpr (hor.resolve_left happroved)) hnot
  rcases upsert_cases r.workspaceID scan r.autoApprove u v with
    ⟨⟨hcreates, hrevives⟩, hsame | ⟨k, hmetrics⟩⟩ | ⟨hcreates, hcreated⟩ | ⟨e, hrevives, hrevived⟩
  · rw [hsame]
    exact hidle hcreates hrevives
  · rw [hmetrics]
    exact (hidle hcreates hrevives).updateWhere (keepsName_metrics none _ _) fun _ => rfl
  · rw [hcreated]
    exact h.created hrefs hcreates
  · rw [hrevived]
    exact h.revived hrevives

end Visits

/-! ## The scans of a workspace -/

/-- The download counts. -/
theorem Traced.updateDownloadCounts {approved : Prop} (h : Traced r db₀ approved db) (w : ID)
    (now : Time) (updates : List (ID × Int)) :
    Traced r db₀ approved (PollerRepo.updateDownloadCounts db w now updates) := by
  unfold PollerRepo.updateDownloadCounts
  induction updates generalizing db with
  | nil => exact h
  | cons update updates ih =>
      rw [List.foldl_cons]
      exact ih (h.updateWhere ⟨fun _ => rfl, fun _ => rfl, fun _ => rfl⟩ fun _ => rfl)

/-- The turns of the rankings of a scan. -/
theorem Traced.foldl_upsert {approved : Prop} {u : Upserted} (hrefs : ReleasesReferred db₀)
    (h : Traced r db₀ approved u.state.db) (scan : Scan) (visits : List Visit) :
    Traced r db₀ (approved ∨ ∃ v ∈ visits, Approves r db₀ scan v)
      (visits.foldl (Core.upsert r.workspaceID scan r.autoApprove) u).state.db := by
  induction visits generalizing u approved with
  | nil => simpa using h
  | cons v visits ih =>
      rw [List.foldl_cons]
      apply (ih (h.upsert hrefs scan v)).of_iff
      rw [List.exists_mem_cons_iff, or_assoc]

/-- A scan. -/
theorem Traced.discoverPackages {approved : Prop} (hrefs : ReleasesReferred db₀)
    (h : Traced r db₀ approved s.db) (scan : Scan) :
    Traced r db₀ (approved ∨ ∃ visits ∈ scan.rankings, ∃ v ∈ visits, Approves r db₀ scan v)
      (Core.discoverPackages r.workspaceID scan r.autoApprove s).db := by
  unfold Core.discoverPackages
  cases hrankings : scan.rankings with
  | none =>
      apply h.of_iff
      simp
  | some visits =>
      have hstart : Traced r db₀ approved (Upserted.mk s 0 []).state.db := h
      apply ((hstart.foldl_upsert hrefs scan visits).updateDownloadCounts r.workspaceID scan.now
        _).of_iff
      simp

/-- The scans leave the active packages active, and whether they approve a package without a
recent release tells whether one has become active. -/
theorem traced_scanned (hrefs : ReleasesReferred s.db) :
    Traced r s.db (ApprovesSome r s.db) (scanned s r).db := by
  have hstart : Traced r s.db False s.db :=
    ⟨fun _ => Quiet.refl s.db, fun h => h.elim⟩
  have hfold : ∀ (scans : List Scan) (approved : Prop) (s' : Monitored),
      Traced r s.db approved s'.db →
        Traced r s.db (approved ∨ ∃ scan ∈ scans, ∃ visits ∈ scan.rankings, ∃ v ∈ visits,
          Approves r s.db scan v)
          (scans.foldl (fun s scan => discoverPackages r.workspaceID scan r.autoApprove s) s').db := by
    intro scans
    induction scans with
    | nil =>
        intro approved s' h
        simpa using h
    | cons scan scans ih =>
        intro approved s' h
        rw [List.foldl_cons]
        apply (ih _ _ (h.discoverPackages hrefs scan)).of_iff
        rw [List.exists_mem_cons_iff, or_assoc]
  exact (hfold r.scans False s hstart).of_iff (iff_of_eq (false_or _))

/-! ## The removal -/

/-- The row of a package before the removal and the row after it. -/
theorem get?_discoverWorkspace (hscans : r.Scans) {p p' : Package}
    (hp : (scanned s r).db.packages.get? k = some p)
    (hp' : (discoverWorkspace s r).db.packages.get? k = some p') :
    p' ≠ p ↔ r.Removes ∧ p.workspaceID = r.workspaceID ∧ p.status = .active ∧
      k ∉ PackageRepo.releasedSince (scanned s r).db r.staleBefore := by
  unfold discoverWorkspace removeStalePackages at hp'
  rw [if_pos hscans] at hp'
  by_cases hremoves : r.Removes
  · have hnot : ¬(r.staleMonths ≤ 0 ∨ r.removalFails = true) := by
      simp [hremoves.2.1, hremoves.2.2]
    rw [if_neg hnot] at hp'
    obtain ⟨q, hq, rfl⟩ := get?_of_updateWhere hp'
    rw [hp] at hq
    obtain rfl := Option.some.inj hq
    have hstale : PollerRepo.isStale (scanned s r).db r.workspaceID r.staleBefore k p = true ↔
        p.workspaceID = r.workspaceID ∧ p.status = .active ∧
          k ∉ PackageRepo.releasedSince (scanned s r).db r.staleBefore := by
      simp [PollerRepo.isStale, and_assoc]
    rw [← hstale]
    split_ifs with hsel
    · simp only [hsel, hremoves, and_self, iff_true]
      intro heq
      have hstatus := (hstale.mp hsel).2.1
      rw [← heq] at hstatus
      exact nomatch hstatus
    · simp [hsel]
  · have hfail : r.staleMonths ≤ 0 ∨ r.removalFails = true := by
      by_contra hneither
      push Not at hneither
      exact hremoves ⟨hscans, hneither.1, Bool.not_eq_true _ ▸ hneither.2⟩
    rw [if_pos hfail, hp] at hp'
    obtain rfl := Option.some.inj hp'
    simp [hremoves]

/-- The removal deletes no package. -/
theorem exists_get?_discoverWorkspace (hscans : r.Scans) {p : Package}
    (hp : (scanned s r).db.packages.get? k = some p) :
    ∃ p', (discoverWorkspace s r).db.packages.get? k = some p' := by
  unfold discoverWorkspace removeStalePackages
  rw [if_pos hscans]
  split_ifs
  · exact ⟨p, hp⟩
  · exact ⟨_, updateWhere_get? hp⟩

/-- The removal is right exactly if each active package without a recent release has been active
for long and has a release, and the scans approve none without a recent release. -/
theorem removesOnlyStale_round (hrefs : ReleasesReferred s.db) :
    RemovesOnlyStale r s ↔ (r.Removes → Ripe r s) := by
  have htraced := traced_scanned (r := r) hrefs
  have hreleases : PackageRepo.releasedSince (scanned s r).db r.staleBefore =
      PackageRepo.releasedSince s.db r.staleBefore :=
    releasedSince_of_releases htraced.tracks.releases
  -- An active package without a recent release is removed.
  have hremoved : RemovesOnlyStale r s → r.Removes → ∀ k,
      ActiveIn r.workspaceID (scanned s r).db k →
        k ∉ PackageRepo.releasedSince s.db r.staleBefore →
          ActiveIn r.workspaceID s.db k ∧ Seasoned s r.staleBefore k := by
    intro honly hremoves k hactive hold
    obtain ⟨p, hp, hw, hstatus⟩ := hactive
    obtain ⟨p', hp'⟩ := exists_get?_discoverWorkspace hremoves.1 hp
    have hne := (get?_discoverWorkspace hremoves.1 hp hp').mpr
      ⟨hremoves, hw, hstatus, by rwa [hreleases]⟩
    obtain ⟨-, hstart, hseasoned, -⟩ := honly hremoves.1 k p p' hp hp' hne
    exact ⟨hstart, hseasoned⟩
  constructor
  · intro honly hremoves
    refine ⟨fun k hk hold => ?_, fun happroves => ?_⟩
    · exact (hremoved honly hremoves k (htraced.tracks.active k hk) hold).2
    · obtain ⟨k, hk, hnew, hold⟩ := (htraced.loud happroves).hit
      exact hnew (hremoved honly hremoves k hk hold).1
  · intro hripe hscans k p p' hp hp' hne
    obtain ⟨hremoves, hw, hstatus, hold⟩ := (get?_discoverWorkspace hscans hp hp').mp hne
    rw [hreleases] at hold
    obtain ⟨hseasoned, hquiet⟩ := hripe hremoves
    have hstart := (htraced.quiet hquiet).source k ⟨p, hp, hw, hstatus⟩ hold
    exact ⟨hstatus, hstart, hseasoned k hstart hold, notMem_releasedSince_iff.mp hold⟩

/-! ## Cycles -/

/-- The turn of a workspace neither changes a release nor deletes a package. -/
theorem releasesReferred_discoverWorkspace (hrefs : ReleasesReferred s.db) (r : Round) :
    ReleasesReferred (discoverWorkspace s r).db := by
  by_cases hscans : r.Scans
  · have htracks := (traced_scanned (r := r) hrefs).tracks
    have hreleases : (discoverWorkspace s r).db.releases = s.db.releases := by
      unfold discoverWorkspace removeStalePackages
      rw [if_pos hscans]
      split_ifs
      · exact htracks.releases
      · exact (releases_set _ _).trans htracks.releases
    intro e he
    rw [hreleases] at he
    obtain ⟨p, hp⟩ := Option.isSome_iff_exists.mp (htracks.keys _ (hrefs e he))
    obtain ⟨p', hp'⟩ := exists_get?_discoverWorkspace hscans hp
    rw [hp']
    rfl
  · unfold discoverWorkspace
    rwa [if_neg hscans]

/-- What holds at the turn of each workspace of a cycle. -/
def Throughout (P : Round → Monitored → Prop) : Monitored → List Round → Prop
  | _, [] => True
  | s, r :: rounds => P r s ∧ Throughout P (discoverWorkspace s r) rounds

/-- In a discovery cycle every removal is right exactly if at the turn of each workspace that has
one, each active package without a recent release has been active for long and has a release, and
the scans approve none without a recent release. -/
theorem runDiscoveryCycle_removesOnlyStale_iff (hrefs : ReleasesReferred s.db)
    (rounds : List Round) :
    Throughout RemovesOnlyStale s rounds ↔
      Throughout (fun r s => r.Removes → Ripe r s) s rounds := by
  induction rounds generalizing s with
  | nil => exact Iff.rfl
  | cons r rounds ih =>
      exact and_congr (removesOnlyStale_round hrefs)
        (ih (releasesReferred_discoverWorkspace hrefs r))

/-! ## A package that its own cycle removes -/

/-- A workspace without packages. -/
def freshWorkspace : Monitored where
  db := Store.set (fun _ => Table.empty) .workspaces (Table.single 1 ⟨⟩)
  activeSince := fun _ => none
  events := []

/-- A scan that finds one package. -/
def soleScan : Scan where
  registry := "python".toList
  now := 1700000000
  rankings := some [⟨⟨"requests".toList, 1⟩, 7, false, false⟩]
  countsWritten := 0

/-- Discovery approves what it finds, and packages are stale after six months. -/
def approvingRound : Round where
  workspaceID := 1
  due := true
  scanDepthStr := "50".toList
  autoApproveStr := "true".toList
  staleMonthsStr := "6".toList
  python := some fun _ => soleScan
  npm := none
  golang := none
  now := 1700000060
  removalFails := false

/-- The same without approval. -/
def suggestingRound : Round :=
  { approvingRound with autoApproveStr := "false".toList }

/-- A cycle that removes the package it has approved. -/
theorem removes_approved :
    ReleasesReferred freshWorkspace.db ∧
      ((scanned freshWorkspace approvingRound).db.packages.get? 7).map Package.status =
        some .active ∧
      ((runDiscoveryCycle freshWorkspace (some [approvingRound])).db.packages.get? 7).map
        Package.status = some .removed ∧
      ¬Throughout RemovesOnlyStale freshWorkspace [approvingRound] := by
  have hbefore : ((scanned freshWorkspace approvingRound).db.packages.get? 7).map
      Package.status = some .active := by
    decide +kernel
  have hafter : ((discoverWorkspace freshWorkspace approvingRound).db.packages.get? 7).map
      Package.status = some .removed := by
    decide +kernel
  refine ⟨by decide +kernel, hbefore, hafter, ?_⟩
  intro honly
  obtain ⟨p, hp, hactive⟩ := Option.map_eq_some_iff.mp hbefore
  obtain ⟨p', hp', hremoved⟩ := Option.map_eq_some_iff.mp hafter
  have hne : p' ≠ p := by
    rintro rfl
    exact nomatch hactive.symm.trans hremoved
  obtain ⟨-, hstart, -⟩ := honly.1 (by decide +kernel) 7 p p' hp hp' hne
  obtain ⟨q, hq, -⟩ := hstart
  exact nomatch hq

/-- A cycle that only suggests packages removes nothing. -/
theorem removesOnlyStale_suggesting :
    Throughout RemovesOnlyStale freshWorkspace [suggestingRound] := by
  have hrefs : ReleasesReferred freshWorkspace.db := by decide +kernel
  refine (runDiscoveryCycle_removesOnlyStale_iff hrefs [suggestingRound]).mpr
    ⟨fun _ => ⟨?_, ?_⟩, trivial⟩
  · intro k hk
    obtain ⟨p, hp, -⟩ := hk
    exact nomatch hp
  · intro happroves
    obtain ⟨scan, -, visits, -, v, -, hauto, -⟩ := happroves
    exact absurd hauto (by decide +kernel)

end Core
end Veilence

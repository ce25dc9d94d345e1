import Veilence.Core.Repositories
import Veilence.Go.Strconv

/-!
# Discovery

The discovery cycle of the poller, on the tables of the core services.  For each workspace that
is due it scans the rankings of the registries: names without a row get one, removed packages are
suggested or approved again, the download counts of the others are updated.  At the end the
active packages without a recent release are removed.

Which calls fail, and the IDs and times that they generate, are inputs of a cycle.  The database
does not keep since when a package is active; the state carries that time along.

Main results:

- Theorem {lit}`upsert_cases`: what the scan of one ranking does.
- Theorem {lit}`find?_updateWhere`: an update that leaves the names finds the same packages.
-/

namespace Veilence
namespace Core

open Go Foundation

/-! ## Dates -/

/-- The days from the first of January 1970 to a date.  Years are counted from March here, in
cycles of 400. -/
def dayOfDate (year month day : Int) : Int :=
  let y := if month ≤ 2 then year - 1 else year
  let yearOfCycle := y % 400
  let dayOfYear := (153 * ((month + 9) % 12) + 2) / 5 + day - 1
  let dayOfCycle := 365 * yearOfCycle + yearOfCycle / 4 - yearOfCycle / 100 + dayOfYear
  y / 400 * 146097 + dayOfCycle - 719468

/-- The year, the month and the day of the month. -/
def dateOfDay (day : Int) : Int × Int × Int :=
  let cycle := (day + 719468) / 146097
  let dayOfCycle := (day + 719468) % 146097
  let yearOfCycle :=
    (dayOfCycle - dayOfCycle / 1460 + dayOfCycle / 36524 - dayOfCycle / 146096) / 365
  let dayOfYear := dayOfCycle - (365 * yearOfCycle + yearOfCycle / 4 - yearOfCycle / 100)
  let m := (5 * dayOfYear + 2) / 153
  let month := if m < 10 then m + 3 else m - 9
  let year := 400 * cycle + yearOfCycle
  (if month ≤ 2 then year + 1 else year, month, dayOfYear - (153 * m + 2) / 5 + 1)

/-- {lit}`AddDate`: a day that the month does not have is carried over into the next month. -/
def addDate (t : Time) (years months days : Int) : Time :=
  let date := dateOfDay (t / 86400)
  let month := date.2.1 - 1 + months
  86400 * (dayOfDate (date.1 + years + month / 12) (month % 12 + 1) 1 + date.2.2 - 1 + days) +
    t % 86400

/-- The 31st of May 2023, three months before, is the 3rd of March. -/
example : addDate (86400 * dayOfDate 2023 5 31 + 7) 0 (-3) 0 = 86400 * dayOfDate 2023 3 3 + 7 := by
  decide

/-! ## Settings -/

/-- {lit}`getDiscoveryScanDepth`, from the text of the setting. -/
def getDiscoveryScanDepth (depthStr : GoString) : Int :=
  match atoi? depthStr with
  | some v => if 0 ≤ v then v else 50
  | none => 50

/-- {lit}`getDiscoveryAutoApprove`, from the text of the setting. -/
def getDiscoveryAutoApprove (value : GoString) : Bool :=
  value = "true".toList

/-- {lit}`getStaleAutoRemoveMonths`, from the text of the setting. -/
def getStaleAutoRemoveMonths (monthsStr : GoString) : Int :=
  match atoi? monthsStr with
  | some v => if 0 ≤ v then v else 0
  | none => 0

/-! ## The repository -/

/-- {lit}`PackageRanking`. -/
structure PackageRanking where
  name : GoString
  downloadCount : Int

namespace PollerRepo

variable (db : Database)

/-- {lit}`FindPackageByWorkspaceAndName`. -/
def findPackageByWorkspaceAndName (workspaceID : ID) (name ecosystem : GoString) :
    Option (Entry Package) :=
  (packagesOf db workspaceID).find? fun p => p.2.name = name ∧ p.2.ecosystem = ecosystem

/-- The columns, the unique index and the foreign key of the packages allow a new row. -/
def Insertable (id : ID) (pkg : Package) : Prop :=
  runeCount pkg.ecosystem ≤ 10 ∧ db.packages.get? id = none ∧
    findPackageByWorkspaceAndName db pkg.workspaceID pkg.name pkg.ecosystem = none ∧
    (db.workspaces.get? pkg.workspaceID).isSome

instance (id : ID) (pkg : Package) : Decidable (Insertable db id pkg) :=
  inferInstanceAs (Decidable (_ ∧ _ ∧ _ ∧ _))

/-- {lit}`CreatePackage`. -/
def createPackage (id : ID) (pkg : Package) : Option Database :=
  if Insertable db id pkg then some (db.set .packages (db.packages.insert id pkg)) else none

/-- {lit}`UpdatePackageDiscoveryMetrics`. -/
def updatePackageDiscoveryMetrics (packageID : ID) (status : Option PackageStatus)
    (downloadCount : Int) (now : Time) : Database :=
  db.set .packages (db.packages.updateWhere (fun k _ => k = packageID) fun p =>
    { p with
      status := status.getD p.status
      downloadCount := downloadCount
      downloadCountUpdatedAt := some now
      updatedAt := now })

/-- One update of {lit}`UpdateDownloadCounts`. -/
def updateDownloadCount (workspaceID : ID) (now : Time) (update : ID × Int) : Database :=
  db.set .packages (db.packages.updateWhere
    (fun k p => k = update.1 ∧ p.workspaceID = workspaceID) fun p =>
    { p with
      downloadCount := update.2
      downloadCountUpdatedAt := some now
      updatedAt := now })

/-- {lit}`UpdateDownloadCounts`. -/
def updateDownloadCounts (workspaceID : ID) (now : Time) (updates : List (ID × Int)) : Database :=
  updates.foldl (fun db update => updateDownloadCount db workspaceID now update) db

/-- The condition of {lit}`RemoveStalePackages`. -/
def isStale (workspaceID : ID) (staleBefore : Time) (k : ID) (p : Package) : Bool :=
  p.workspaceID = workspaceID && p.status = .active &&
    decide (k ∉ PackageRepo.releasedSince db staleBefore)

/-- {lit}`RemoveStalePackages`. -/
def removeStalePackages (workspaceID : ID) (staleBefore now : Time) : Database :=
  db.set .packages (db.packages.updateWhere (isStale db workspaceID staleBefore) fun p =>
    { p with status := .removed, updatedAt := now })

end PollerRepo

/-! ## Scans -/

/-- {lit}`NotificationEvent`. -/
structure NotificationEvent where
  severity : GoString
  eventType : GoString
  title : GoString
  message : GoString
  referenceType : GoString

/-- The database, since when each package is active, and what has been dispatched to the
notifier. -/
structure Monitored where
  db : Database
  activeSince : ID → Option Time
  events : List NotificationEvent

/-- A package gets a status. -/
def Monitored.enter (s : Monitored) (db : Database) (k : ID) (status : PackageStatus)
    (now : Time) : Monitored :=
  { s with
    db := db
    activeSince :=
      if status = .active then Function.update s.activeSince k (some now) else s.activeSince }

/-- A ranking as a scan meets it: which of its calls fail, and the ID of a new row. -/
structure Visit where
  ranking : PackageRanking
  newID : ID
  findFails : Bool
  writeFails : Bool

/-- What a scan gets: the name of the registry, the rankings, none if they cannot be fetched, and
how many of the download counts are updated before an update fails. -/
structure Scan where
  registry : GoString
  now : Time
  rankings : Option (List Visit)
  countsWritten : Nat

/-- The accumulators of {lit}`upsertDiscoveredPackages`. -/
structure Upserted where
  state : Monitored
  suggested : Nat
  downloadUpdates : List (ID × Int)

/-- The status of what a scan finds. -/
def newStatus (autoApprove : Bool) : PackageStatus :=
  if autoApprove then .active else .suggested

/-- The row of a package that is new. -/
def discoveredPackage (workspaceID : ID) (scan : Scan) (autoApprove : Bool)
    (ranking : PackageRanking) : Package where
  workspaceID := workspaceID
  name := ranking.name
  ecosystem := scan.registry
  latestVersion := []
  description := []
  source := .discovered
  status := newStatus autoApprove
  downloadCount := ranking.downloadCount
  downloadCountUpdatedAt := some scan.now
  blockedAt := none
  blockedReason := []
  createdAt := scan.now
  updatedAt := scan.now

section Scanning

variable (workspaceID : ID) (scan : Scan) (autoApprove : Bool)

/-- A new package: a row, unless that fails. -/
def discover (u : Upserted) (v : Visit) : Upserted :=
  if v.writeFails then u
  else
    match PollerRepo.createPackage u.state.db v.newID
        (discoveredPackage workspaceID scan autoApprove v.ranking) with
    | none => u
    | some db =>
        { u with
          state := u.state.enter db v.newID (newStatus autoApprove) scan.now
          suggested := u.suggested + 1 }

/-- An update of the metrics, unless that fails. -/
def remeasure (s : Monitored) (v : Visit) (k : ID) : Monitored :=
  if v.writeFails then s
  else
    { s with
      db := PollerRepo.updatePackageDiscoveryMetrics s.db k none v.ranking.downloadCount scan.now }

/-- The same with a new status. -/
def revive (s : Monitored) (v : Visit) (k : ID) : Monitored :=
  if v.writeFails then s
  else
    s.enter (PollerRepo.updatePackageDiscoveryMetrics s.db k (some (newStatus autoApprove))
      v.ranking.downloadCount scan.now) k (newStatus autoApprove) scan.now

/-- The turn of a ranking in {lit}`upsertDiscoveredPackages`. -/
def upsert (u : Upserted) (v : Visit) : Upserted :=
  match if v.findFails then none
    else PollerRepo.findPackageByWorkspaceAndName u.state.db workspaceID v.ranking.name
      scan.registry with
  | none => discover workspaceID scan autoApprove u v
  | some existing =>
      match existing.2.status with
      | .active =>
          { u with
            downloadUpdates := u.downloadUpdates ++ [(existing.1, v.ranking.downloadCount)] }
      | .suggested => { u with state := remeasure scan u.state v existing.1 }
      | .blocked => u
      | .removed =>
          { u with
            state := revive scan autoApprove u.state v existing.1
            suggested := u.suggested + 1 }

/-- The event of a scan. -/
def discoveryEvent (suggested : Nat) : NotificationEvent where
  severity := "medium".toList
  eventType := "discovery.packages_added".toList
  title := "Discovery: ".toList ++ itoa suggested ++ " new ".toList ++ scan.registry ++
    " packages found".toList
  message := "Discovery scan found ".toList ++ itoa suggested ++ " new ".toList ++ scan.registry ++
    " packages (".toList ++ (if autoApprove then "auto-approved" else "suggested").toList ++
    "). Review them in the Packages page.".toList
  referenceType := "package".toList

/-- The end of {lit}`upsertDiscoveredPackages`: the download counts, and the event. -/
def settle (u : Upserted) : Monitored :=
  { u.state with
    db := PollerRepo.updateDownloadCounts u.state.db workspaceID scan.now
      (u.downloadUpdates.take scan.countsWritten)
    events := u.state.events ++
      if 0 < u.suggested then [discoveryEvent scan autoApprove u.suggested] else [] }

/-- {lit}`upsertDiscoveredPackages`. -/
def upsertDiscoveredPackages (s : Monitored) (visits : List Visit) : Monitored :=
  settle workspaceID scan autoApprove
    (visits.foldl (upsert workspaceID scan autoApprove) ⟨s, 0, []⟩)

/-- {lit}`discoverPackages`. -/
def discoverPackages (s : Monitored) : Monitored :=
  match scan.rankings with
  | none => s
  | some visits => upsertDiscoveredPackages workspaceID scan autoApprove s visits

end Scanning

/-! ## Cycles -/

/-- A workspace in a discovery cycle: is it due, the texts of its settings, what each registry
that there is gives at a depth, and the time and the failure of the removal. -/
structure Round where
  workspaceID : ID
  due : Bool
  scanDepthStr : GoString
  autoApproveStr : GoString
  staleMonthsStr : GoString
  python : Option (Int → Scan)
  npm : Option (Int → Scan)
  golang : Option (Int → Scan)
  now : Time
  removalFails : Bool

namespace Round

variable (r : Round)

def scanDepth : Int := getDiscoveryScanDepth r.scanDepthStr
def autoApprove : Bool := getDiscoveryAutoApprove r.autoApproveStr
def staleMonths : Int := getStaleAutoRemoveMonths r.staleMonthsStr

/-- The scans of the registries that there are. -/
def scans : List Scan :=
  ([r.python, r.npm, r.golang].filterMap id).map fun scan => scan r.scanDepth

/-- The time before which a package is stale. -/
def staleBefore : Time :=
  addDate r.now 0 (-r.staleMonths) 0

/-- The workspace is scanned. -/
def Scans : Prop :=
  r.due = true ∧ 0 < r.scanDepth

/-- At the end of the scans stale packages are removed. -/
def Removes : Prop :=
  r.Scans ∧ 0 < r.staleMonths ∧ r.removalFails = false

instance : Decidable r.Scans := inferInstanceAs (Decidable (_ ∧ _))
instance : Decidable r.Removes := inferInstanceAs (Decidable (_ ∧ _ ∧ _))

end Round

/-- The event of a removal. -/
def staleEvent (months : Int) (removed : Nat) : NotificationEvent where
  severity := "medium".toList
  eventType := "packages.stale_removed".toList
  title := itoa removed ++ " stale packages auto-removed".toList
  message := itoa removed ++ " packages with no updates in ".toList ++ itoa months.toNat ++
    " months were automatically removed from monitoring.".toList
  referenceType := []

/-- {lit}`removeStalePackages`. -/
def removeStalePackages (r : Round) (s : Monitored) : Monitored :=
  if r.staleMonths ≤ 0 ∨ r.removalFails = true then s
  else
    let removed :=
      (s.db.packages.keysWhere (PollerRepo.isStale s.db r.workspaceID r.staleBefore)).length
    { s with
      db := PollerRepo.removeStalePackages s.db r.workspaceID r.staleBefore r.now
      events := s.events ++ if 0 < removed then [staleEvent r.staleMonths removed] else [] }

/-- The scans of a workspace. -/
def scanned (s : Monitored) (r : Round) : Monitored :=
  r.scans.foldl (fun s scan => discoverPackages r.workspaceID scan r.autoApprove s) s

/-- The turn of a workspace in {lit}`runDiscoveryCycle`. -/
def discoverWorkspace (s : Monitored) (r : Round) : Monitored :=
  if r.Scans then removeStalePackages r (scanned s r) else s

/-- {lit}`runDiscoveryCycle`: the turns of the workspaces, if these can be loaded. -/
def runDiscoveryCycle (s : Monitored) : Option (List Round) → Monitored
  | none => s
  | some rounds => rounds.foldl discoverWorkspace s

/-! ## Updates of packages -/

/-- The update leaves the names of a package. -/
structure KeepsName (f : Package → Package) : Prop where
  workspaceID : ∀ p, (f p).workspaceID = p.workspaceID
  name : ∀ p, (f p).name = p.name
  ecosystem : ∀ p, (f p).ecosystem = p.ecosystem

section Updates

variable {db : Database} {sel : ID → Package → Bool} {f : Package → Package}

/-- The packages after they have been replaced. -/
theorem packages_set (db : Database) (table : Table ID Package) :
    Database.packages (db.set .packages table) = table :=
  Store.set_self db .packages table

theorem releases_set (db : Database) (table : Table ID Package) :
    Database.releases (db.set .packages table) = db.releases :=
  Store.set_of_ne _ _ (by decide)

theorem workspaces_set (db : Database) (table : Table ID Package) :
    Database.workspaces (db.set .packages table) = db.workspaces :=
  Store.set_of_ne _ _ (by decide)

/-- A row after an update. -/
theorem get?_of_updateWhere {k : ID} {p' : Package}
    (h : (Database.packages (db.set .packages (db.packages.updateWhere sel f))).get? k = some p') :
    ∃ p, db.packages.get? k = some p ∧ p' = if sel k p then f p else p := by
  rw [packages_set] at h
  have hget := Table.get?_updateWhere db.packages sel f k
  rw [h] at hget
  obtain ⟨p, hp, heq⟩ := Option.map_eq_some_iff.mp hget.symm
  exact ⟨p, hp, heq.symm⟩

theorem updateWhere_get? {k : ID} {p : Package} (h : db.packages.get? k = some p) :
    (Database.packages (db.set .packages (db.packages.updateWhere sel f))).get? k =
      some (if sel k p then f p else p) := by
  rw [packages_set]
  exact (Table.get?_updateWhere db.packages sel f k).trans (congrArg (Option.map _) h)

theorem updateWhere_get?_eq_none_iff {k : ID} :
    (Database.packages (db.set .packages (db.packages.updateWhere sel f))).get? k = none ↔
      db.packages.get? k = none := by
  rw [packages_set]
  exact (congrArg (· = none) (Table.get?_updateWhere db.packages sel f k)).to_iff.trans
    Option.map_eq_none_iff

theorem packagesOf_updateWhere (hf : KeepsName f) (w : ID) :
    packagesOf (db.set .packages (db.packages.updateWhere sel f)) w =
      (packagesOf db w).map fun e => (e.1, if sel e.1 e.2 then f e.2 else e.2) := by
  unfold packagesOf
  rw [packages_set]
  refine List.filter_map.trans (congrArg (List.map _) (List.filter_congr fun e _ => ?_))
  dsimp only [Function.comp]
  split_ifs
  · rw [hf.workspaceID]
  · rfl

/-- An update that leaves the names finds the same packages. -/
theorem find?_updateWhere (hf : KeepsName f) (w : ID) (name ecosystem : GoString) :
    PollerRepo.findPackageByWorkspaceAndName
        (db.set .packages (db.packages.updateWhere sel f)) w name ecosystem =
      (PollerRepo.findPackageByWorkspaceAndName db w name ecosystem).map
        fun e => (e.1, if sel e.1 e.2 then f e.2 else e.2) := by
  unfold PollerRepo.findPackageByWorkspaceAndName
  rw [packagesOf_updateWhere hf, List.find?_map]
  congr 2
  funext e
  dsimp only [Function.comp]
  split_ifs
  · rw [hf.name, hf.ecosystem]
  · rfl

end Updates

/-- A package that is found has its names and is in the table. -/
theorem of_findPackage {db : Database} {w : ID} {name ecosystem : GoString} {e : Entry Package}
    (h : PollerRepo.findPackageByWorkspaceAndName db w name ecosystem = some e) :
    db.packages.get? e.1 = some e.2 ∧ e.2.workspaceID = w ∧ e.2.name = name ∧
      e.2.ecosystem = ecosystem := by
  have hnames := List.find?_some h
  obtain ⟨hmem, hw⟩ := List.mem_filter.mp (List.mem_of_find?_eq_some h)
  obtain ⟨hname, hecosystem⟩ := of_decide_eq_true hnames
  exact ⟨Table.get?_of_mem hmem, of_decide_eq_true hw, hname, hecosystem⟩

/-! ## What a visit does -/

section Upsert

variable {w : ID} {scan : Scan} {autoApprove : Bool} {u : Upserted} {v : Visit}

/-- A visit gives a new package a row. -/
def Creates (w : ID) (scan : Scan) (autoApprove : Bool) (db : Database) (v : Visit) : Prop :=
  v.writeFails = false ∧
    PollerRepo.Insertable db v.newID (discoveredPackage w scan autoApprove v.ranking)

/-- A visit gives a removed package a new status. -/
def Revives (w : ID) (scan : Scan) (db : Database) (v : Visit) (e : Entry Package) : Prop :=
  v.findFails = false ∧ v.writeFails = false ∧
    PollerRepo.findPackageByWorkspaceAndName db w v.ranking.name scan.registry = some e ∧
    e.2.status = .removed

/-- A package that is found is not created. -/
theorem not_creates_of_find {e : Entry Package} {db : Database}
    (h : PollerRepo.findPackageByWorkspaceAndName db w v.ranking.name scan.registry = some e) :
    ¬Creates w scan autoApprove db v := by
  intro hcreates
  have hnone : PollerRepo.findPackageByWorkspaceAndName db w v.ranking.name scan.registry = none :=
    hcreates.2.2.2.1
  rw [h] at hnone
  exact Option.some_ne_none e hnone

/-- A package that is revived has been found. -/
theorem not_revives_of_find {e e' : Entry Package} {db : Database}
    (h : PollerRepo.findPackageByWorkspaceAndName db w v.ranking.name scan.registry = some e)
    (hstatus : v.writeFails = false → e.2.status ≠ .removed) : ¬Revives w scan db v e' := by
  intro hrevives
  obtain ⟨-, hwrite, hfind, hremoved⟩ := hrevives
  rw [h] at hfind
  obtain rfl := Option.some.inj hfind
  exact hstatus hwrite hremoved

/-- What a new package comes to. -/
theorem discover_cases :
    (¬Creates w scan autoApprove u.state.db v ∧
      (discover w scan autoApprove u v).state = u.state) ∨
      (Creates w scan autoApprove u.state.db v ∧
        (discover w scan autoApprove u v).state =
          u.state.enter
            (u.state.db.set .packages (u.state.db.packages.insert v.newID
              (discoveredPackage w scan autoApprove v.ranking)))
            v.newID (newStatus autoApprove) scan.now) := by
  unfold discover
  cases hwrite : v.writeFails with
  | true =>
      left
      refine ⟨?_, rfl⟩
      intro hcreates
      exact absurd (hwrite.symm.trans hcreates.1) (by decide)
  | false =>
      simp only [Bool.false_eq_true, if_false, PollerRepo.createPackage]
      split_ifs with hinsertable
      · exact Or.inr ⟨⟨hwrite, hinsertable⟩, rfl⟩
      · exact Or.inl ⟨fun hcreates => hinsertable hcreates.2, rfl⟩

variable (w scan autoApprove u v) in
/-- What a visit does: nothing or an update of metrics, a new row, or a new status. -/
theorem upsert_cases :
    ((¬Creates w scan autoApprove u.state.db v ∧ ∀ e, ¬Revives w scan u.state.db v e) ∧
      ((upsert w scan autoApprove u v).state = u.state ∨
        ∃ k, (upsert w scan autoApprove u v).state =
          { u.state with
            db := PollerRepo.updatePackageDiscoveryMetrics u.state.db k none
              v.ranking.downloadCount scan.now })) ∨
      (Creates w scan autoApprove u.state.db v ∧
        (upsert w scan autoApprove u v).state =
          u.state.enter
            (u.state.db.set .packages (u.state.db.packages.insert v.newID
              (discoveredPackage w scan autoApprove v.ranking)))
            v.newID (newStatus autoApprove) scan.now) ∨
      ∃ e, Revives w scan u.state.db v e ∧
        (upsert w scan autoApprove u v).state =
          u.state.enter
            (PollerRepo.updatePackageDiscoveryMetrics u.state.db e.1 (some (newStatus autoApprove))
              v.ranking.downloadCount scan.now)
            e.1 (newStatus autoApprove) scan.now := by
  unfold upsert
  cases hfind : v.findFails with
  | true =>
      have hrevives : ∀ e, ¬Revives w scan u.state.db v e :=
        fun e he => absurd (hfind.symm.trans he.1) (by decide)
      simp only [if_true]
      rcases discover_cases with ⟨hnot, hsame⟩ | hnew
      · exact Or.inl ⟨⟨hnot, hrevives⟩, Or.inl hsame⟩
      · exact Or.inr (Or.inl hnew)
  | false =>
      simp only [Bool.false_eq_true, if_false]
      cases hexisting : PollerRepo.findPackageByWorkspaceAndName u.state.db w v.ranking.name
          scan.registry with
      | none =>
          have hrevives : ∀ e, ¬Revives w scan u.state.db v e :=
            fun e he => absurd (hexisting.symm.trans he.2.2.1) (Option.some_ne_none e).symm
          rcases discover_cases with ⟨hnot, hsame⟩ | hnew
          · exact Or.inl ⟨⟨hnot, hrevives⟩, Or.inl hsame⟩
          · exact Or.inr (Or.inl hnew)
      | some e =>
          have hidle : (v.writeFails = false → e.2.status ≠ .removed) →
              ¬Creates w scan autoApprove u.state.db v ∧ ∀ e, ¬Revives w scan u.state.db v e :=
            fun hstatus => ⟨not_creates_of_find hexisting,
              fun _ => not_revives_of_find hexisting hstatus⟩
          dsimp only
          cases hstatus : e.2.status with
          | active =>
              refine Or.inl ⟨hidle fun _ => ?_, Or.inl rfl⟩
              rw [hstatus]
              decide
          | blocked =>
              refine Or.inl ⟨hidle fun _ => ?_, Or.inl rfl⟩
              rw [hstatus]
              decide
          | suggested =>
              have hkept : e.2.status ≠ .removed := by
                rw [hstatus]
                decide
              refine Or.inl ⟨hidle fun _ => hkept, ?_⟩
              cases hwrite : v.writeFails with
              | true =>
                  left
                  simp only [remeasure, hwrite, if_true]
              | false =>
                  right
                  refine ⟨e.1, ?_⟩
                  simp only [remeasure, hwrite, Bool.false_eq_true, if_false]
          | removed =>
              cases hwrite : v.writeFails with
              | true =>
                  left
                  refine ⟨hidle fun h => absurd (hwrite.symm.trans h) (by decide), Or.inl ?_⟩
                  simp only [revive, hwrite, if_true]
              | false =>
                  right
                  right
                  refine ⟨e, ⟨hfind, hwrite, hexisting, hstatus⟩, ?_⟩
                  simp only [revive, hwrite, Bool.false_eq_true, if_false]

end Upsert

end Core
end Veilence

import Veilence.Core.Database
import Veilence.Foundation.Selection
import Veilence.Go.Utf8

/-!
# The repositories of the core services

The methods of the package, release, diff, analysis, alert, alert-note, user and dashboard
repositories that the core services call, each query and statement a call of the database that
may fail.  A query that does not ask for an order gets its rows as they are stored, and so do
rows that the order does not tell apart.

What is not in the database comes from an environment: the failures of calls, the IDs and times
that a call generates, the answers of the registries, and how the database compares texts.
-/

namespace Veilence
namespace Core

open Go Foundation

/-! ## Operations -/

/-- What an error wraps. -/
inductive Cause where
  | notFound
  | conflict
  | forbidden
  | validation
  | driver (text : GoString)
  | violates (constraint : GoString)
  | aborted
  | commit
  | plain
deriving DecidableEq

/-- An error: the texts in front of the wrapped one. -/
structure Failure where
  text : GoString
  cause : Cause
deriving DecidableEq

/-- {lit}`fmt.Errorf` with the error at the end. -/
def Failure.wrap (text : String) (e : Failure) : Failure :=
  { e with text := text.toList ++ e.text }

/-- What {lit}`errors.Is` with {lit}`ErrNotFound` is answered for: a new error, else the wrapped
one. -/
def Failure.onNotFound (notFound other : String) (e : Failure) : Failure :=
  if e.cause = .notFound then ⟨notFound.toList, .notFound⟩ else e.wrap other

/-- What an operation does outside the database. -/
inductive Effect where
  | enqueue (jobType : GoString) (workspaceID referenceID : ID)
      (metadata : Option (GoString × GoString × GoString))
  | logAction (action resource : GoString) (resourceID : Option ID) (details : GoString)
  | triggerMonitoring (workspaceID : ID)
deriving DecidableEq

/-- The database, the effects so far, and the number of calls so far. -/
structure World where
  db : Database
  outbox : List Effect
  calls : Nat

/-- An operation of a service or a repository. -/
abbrev Op (α : Type) : Type :=
  Procedure World Failure α

/-- What the services are connected to.  The failures, the generated IDs and times and the fate
of transactions are those of the call with the given number. -/
structure Env where
  failure : Nat → Option GoString
  newID : Nat → ID
  now : Nat → Time
  jobID : Nat → ID
  budget : Nat → Option Nat
  commits : Nat → Bool
  hasQueue : Bool
  hasTrigger : Bool
  registries : GoString → Option (GoString → Bool)
  lower : GoString → GoString
  collate : GoString → GoString → Ordering
  quote : GoString → GoString
  showID : ID → GoString
  formatDate : Time → GoString
  formatTime : Time → GoString

variable (env : Env)

section Calls

variable {α : Type}

/-- A call of the database: its number, the failure if it fails, and what it does. -/
def call (context : String) (f : Nat → Database → Except Cause (α × Database)) : Op α := fun w =>
  match env.failure w.calls with
  | some text => (.error ⟨context.toList, .driver text⟩, { w with calls := w.calls + 1 })
  | none =>
      match f w.calls w.db with
      | .error cause => (.error ⟨context.toList, cause⟩, { w with calls := w.calls + 1 })
      | .ok r => (.ok r.1, { w with db := r.2, calls := w.calls + 1 })

/-- A query. -/
def query (context : String) (q : Database → α) : Op α :=
  call env context fun _ db => .ok (q db, db)

/-- The row that a query has found. -/
def required (what : String) : Option α → Op α
  | some a => pure a
  | none => Procedure.fail ⟨what.toList, .notFound⟩

/-- {lit}`First`. -/
def first (context what : String) (q : Database → Option α) : Op α := do
  let r ← query env context q
  required what r

/-- {lit}`Update` and {lit}`Updates`: the number of rows affected. -/
def update (context : String) (t : TableName) (p : ID → Row t → Bool)
    (f : Time → Row t → Row t) : Op Nat :=
  call env context fun n db =>
    .ok (((db t).keysWhere p).length, db.set t ((db t).updateWhere p (f (env.now n))))

/-- {lit}`RowsAffected` must not be zero. -/
def affected (what : String) (n : Nat) : Op Unit :=
  Procedure.failIf (n = 0) ⟨what.toList, .notFound⟩

/-- {lit}`Enqueue`: the ID of the job. -/
def enqueue (jobType : String) (workspaceID referenceID : ID)
    (metadata : Option (GoString × GoString × GoString)) : Op ID := fun w =>
  match env.failure w.calls with
  | some text => (.error ⟨[], .driver text⟩, { w with calls := w.calls + 1 })
  | none =>
      (.ok (env.jobID w.calls),
        { w with
          outbox := w.outbox ++ [.enqueue jobType.toList workspaceID referenceID metadata]
          calls := w.calls + 1 })

/-- {lit}`LogAction`, which keeps its failures to itself. -/
def logAction (action resource : String) (resourceID : Option ID) (details : GoString) :
    Op Unit := fun w =>
  (.ok (),
    { w with
      outbox := w.outbox ++
        if (env.failure w.calls).isSome then []
        else [.logAction action.toList resource.toList resourceID details]
      calls := w.calls + 1 })

/-- {lit}`TriggerMonitoring`, where there is a trigger. -/
def triggerMonitoring (workspaceID : ID) : Op Unit := fun w =>
  (.ok (),
    { w with
      outbox := w.outbox ++ if env.hasTrigger then [.triggerMonitoring workspaceID] else [] })

/-- {lit}`Transaction`. -/
def inTransaction (p : Time → Tx (Statement ID Row) Statement.Reply Failure α) : Op α := fun w =>
  let outcome := transaction execute (env.budget w.calls) (env.commits w.calls) ⟨[], .commit⟩ w.db
    (p (env.now w.calls))
  (outcome.1, { w with db := outcome.2, calls := w.calls + 1 })

end Calls

/-! ## Texts, orders and pages -/

/-- A part of a LIKE pattern. -/
inductive LikeToken where
  | anyText
  | anyChar
  | char (c : Char)

/-- The parts of a LIKE pattern; a backslash makes the next character a plain one. -/
def likeTokens : GoString → List LikeToken
  | [] => []
  | '%' :: s => .anyText :: likeTokens s
  | '_' :: s => .anyChar :: likeTokens s
  | '\\' :: c :: s => .char c :: likeTokens s
  | c :: s => .char c :: likeTokens s

/-- Does the text match the parts of a pattern? -/
def likeMatches : List LikeToken → GoString → Bool
  | [], s => s.isEmpty
  | .anyText :: ts, s => s.tails.any (likeMatches ts)
  | .anyChar :: _, [] => false
  | .anyChar :: ts, _ :: s => likeMatches ts s
  | .char _ :: _, [] => false
  | .char c :: ts, d :: s => c = d && likeMatches ts s

/-- Put a backslash in front of the listed characters. -/
def escapeChars (special : List Char) (s : GoString) : GoString :=
  s.flatMap fun c => if c ∈ special then ['\\', c] else [c]

/-- {lit}`escapeLikeRepo`. -/
def escapeLikeRepo (s : GoString) : GoString :=
  escapeChars ['\\', '%', '_'] s

/-- The two replacements of the package repository, which leave backslashes. -/
def escapeWildcards (s : GoString) : GoString :=
  escapeChars ['%', '_'] s

/-- The search filter: {lit}`LOWER(name) LIKE LOWER(?)`, unless there is no search. -/
def searchMatches (escape : GoString → GoString) (search : Option GoString) (name : GoString) :
    Bool :=
  search.all fun s =>
    s = [] || likeMatches (likeTokens (env.lower ('%' :: escape s ++ ['%']))) (env.lower name)

/-- What a column gives to an order. -/
inductive SortKey where
  | text (s : GoString)
  | number (x : Int)

/-- Compare two values of one column. -/
def SortKey.compare : SortKey → SortKey → Ordering
  | .text s, .text s' => env.collate s s'
  | .number x, .number x' => Ord.compare x x'
  | _, _ => .eq

/-- A column and its direction in a sort clause. -/
structure SortTerm (Column : Type) where
  column : Column
  descending : Bool

/-- The first of two rows in the order of a sort clause, either if the clause does not tell. -/
def before {Column α : Type} (key : Column → α → SortKey) : List (SortTerm Column) → α → α → Bool
  | [], _, _ => true
  | term :: terms, a, b =>
      match SortKey.compare env (key term.column a) (key term.column b) with
      | .lt => !term.descending
      | .gt => term.descending
      | .eq => before key terms a b

/-- {lit}`Order`. -/
def ordered {Column α : Type} (key : Column → α → SortKey) (terms : List (SortTerm Column))
    (rows : List α) : List α :=
  rows.insertionSort fun a b => before env key terms a b = true

/-- {lit}`Offset` and {lit}`Limit`: an offset that is not positive and a negative limit are
left out. -/
def paged {α : Type} (page limit : Int) (rows : List α) : List α :=
  let rest := rows.drop (int64 (int64 (page - 1) * limit)).toNat
  if limit < 0 then rest else rest.take limit.toNat

/-- A row of a page is one of the ordered rows. -/
theorem mem_of_paged_ordered {Column α : Type} {key : Column → α → SortKey}
    {terms : List (SortTerm Column)} {page limit : Int} {rows : List α} {a : α}
    (h : a ∈ paged page limit (ordered env key terms rows)) : a ∈ rows := by
  have hrest : a ∈ (ordered env key terms rows).drop (int64 (int64 (page - 1) * limit)).toNat := by
    unfold paged at h
    dsimp only at h
    split_ifs at h
    · exact h
    · exact List.mem_of_mem_take h
  exact (List.mem_insertionSort _).mp (List.mem_of_mem_drop hrest)

/-- {lit}`GROUP BY`, with the number of rows of each group. -/
def countBy {κ α : Type} [DecidableEq κ] (key : α → κ) (rows : List α) : List (κ × Nat) :=
  (rows.map key).dedup.map fun k => (k, rows.countP fun a => key a = k)

/-- The columns that packages are ordered by. -/
inductive PackageColumn where
  | name
  | ecosystem
  | latestVersion
  | downloadCount
  | source
  | status
  | createdAt
deriving DecidableEq

/-- The value of a column of a package. -/
def PackageColumn.key : PackageColumn → Package → SortKey
  | .name, p => .text p.name
  | .ecosystem, p => .text p.ecosystem
  | .latestVersion, p => .text p.latestVersion
  | .downloadCount, p => .number p.downloadCount
  | .source, p => .text p.source.text
  | .status, p => .text p.status.text
  | .createdAt, p => .number p.createdAt

/-- The columns that releases are ordered by. -/
inductive ReleaseColumn where
  | createdAt
  | version
  | publishedAt
  | status
  | packageName
  | packageEcosystem
deriving DecidableEq

/-- The value of a column of a release and its package. -/
def ReleaseColumn.key : ReleaseColumn → Release → Package → SortKey
  | .createdAt, r, _ => .number r.createdAt
  | .version, r, _ => .text r.version
  | .publishedAt, r, _ => .number r.publishedAt
  | .status, r, _ => .text r.status.text
  | .packageName, _, p => .text p.name
  | .packageEcosystem, _, p => .text p.ecosystem

/-! ## Joins -/

/-- A row with its ID. -/
abbrev Entry (V : Type) : Type :=
  ID × V

section Joins

variable (db : Database)

/-- A release with its package, if the package is one of the workspace. -/
def releaseIn (workspaceID : ID) (r : Entry Release) : Option (Entry Release × Entry Package) :=
  ((db.packages.get? r.2.packageID).filter fun p => p.workspaceID = workspaceID).map
    fun p => (r, (r.2.packageID, p))

/-- {lit}`JOIN packages ON packages.id = releases.package_id`, for the packages of a
workspace. -/
def releasesOf (workspaceID : ID) : List (Entry Release × Entry Package) :=
  db.releases.entries.filterMap (releaseIn db workspaceID)

/-- The same for its active packages. -/
def activeReleasesOf (workspaceID : ID) : List (Entry Release × Entry Package) :=
  (releasesOf db workspaceID).filter fun row => row.2.2.status = .active

/-- Is it a release of an active package of the workspace? -/
def isActiveRelease (workspaceID releaseID : ID) : Bool :=
  (db.releases.get? releaseID).any fun r =>
    (releaseIn db workspaceID (releaseID, r)).any fun row => row.2.2.status = .active

/-- {lit}`JOIN releases` and {lit}`JOIN packages`, for the active packages of a workspace. -/
def activeDiffsOf (workspaceID : ID) : List (Entry Diff) :=
  db.diffs.entries.filter fun d => isActiveRelease db workspaceID d.2.releaseID

/-- {lit}`JOIN diffs`, {lit}`JOIN releases` and {lit}`JOIN packages`, for the active packages of
a workspace. -/
def activeAnalysesOf (workspaceID : ID) : List (Entry Analysis) :=
  db.analyses.entries.filter fun a =>
    (db.diffs.get? a.2.diffID).any fun d => isActiveRelease db workspaceID d.releaseID

/-- The releases of a package. -/
def releasesOfPackage (packageID : ID) : List (Entry Release) :=
  db.releases.entries.filter fun r => r.2.packageID = packageID

/-- The diffs of a release. -/
def diffsOf (releaseID : ID) : List (Entry Diff) :=
  db.diffs.entries.filter fun d => d.2.releaseID = releaseID

/-- The analyses of a diff. -/
def analysesOf (diffID : ID) : List (Entry Analysis) :=
  db.analyses.entries.filter fun a => a.2.diffID = diffID

/-- The packages of a workspace. -/
def packagesOf (workspaceID : ID) : List (Entry Package) :=
  db.packages.entries.filter fun p => p.2.workspaceID = workspaceID

/-- The alerts of a workspace. -/
def alertsOf (workspaceID : ID) : List (Entry Alert) :=
  db.alerts.entries.filter fun a => a.2.workspaceID = workspaceID

/-- The notes on the alerts of a workspace. -/
def notesOf (workspaceID : ID) : List (Entry AlertNote) :=
  db.alertNotes.entries.filter fun n => n.2.workspaceID = workspaceID

end Joins

/-! ## Packages -/

/-- {lit}`PackageFilters`. -/
structure PackageFilters where
  ecosystem : Option GoString
  source : Option GoString
  status : Option GoString
  search : Option GoString

/-- Count rows, and then read some of them. -/
def listed {α β : Type} (counting listing : String) (rows : Database → List α)
    (read : Database → List β) : Op (List β × Nat) := do
  let total ← query env counting fun db => (rows db).length
  let ms ← query env listing read
  pure (ms, total)

namespace PackageRepo

/-- {lit}`FindByIDAndWorkspaceID`. -/
def findByIDAndWorkspaceID (id workspaceID : ID) : Op (Entry Package) :=
  first env "finding package: " "package " fun db =>
    (packagesOf db workspaceID).find? fun p => p.1 = id

/-- The conditions of {lit}`FindByWorkspaceID`. -/
def matchesFilters (filters : PackageFilters) (p : Package) : Bool :=
  (filters.status.elim (p.status = .active : Bool) fun status => p.status.text = status) &&
    (filters.ecosystem.all fun ecosystem => p.ecosystem = ecosystem) &&
    (filters.source.all fun source => p.source.text = source) &&
    searchMatches env escapeWildcards filters.search p.name

/-- {lit}`FindByWorkspaceID`. -/
def findByWorkspaceID (workspaceID : ID) (page limit : Int)
    (sortClause : List (SortTerm PackageColumn)) (filters : PackageFilters) :
    Op (List (Entry Package) × Nat) :=
  let rows := fun db => (packagesOf db workspaceID).filter fun p => matchesFilters env filters p.2
  listed env "counting packages: " "listing packages: " rows fun db =>
    paged page limit (ordered env (fun c p => c.key p.2) sortClause (rows db))

/-- {lit}`Create`: a new row with the unique index and the foreign key of the table. -/
def create (pkg : Package) : Op (Entry Package) :=
  call env "creating package: " fun n db =>
    let id := env.newID n
    let row := { pkg with createdAt := env.now n, updatedAt := env.now n }
    if 10 < runeCount row.ecosystem then .error (.driver "value too long".toList)
    else if (db.packages.get? id).isSome then .error (.violates "packages_pkey".toList)
    else if (packagesOf db row.workspaceID).any fun p =>
        p.2.name = row.name ∧ p.2.ecosystem = row.ecosystem then
      .error (.violates "idx_packages_workspace_name_ecosystem".toList)
    else if (db.workspaces.get? row.workspaceID).isNone then
      .error (.violates "packages_workspace_id_fkey".toList)
    else .ok ((id, row), db.set .packages (db.packages.insert id row))

/-- The updates of a package in one of the states. -/
def changeStatus (context : String) (workspaceID pkgID : ID) (status : PackageStatus)
    (f : Time → Package → Package) : Op Unit := do
  let n ← update env context .packages
    (fun k (p : Package) => k = pkgID ∧ p.workspaceID = workspaceID ∧ p.status = status)
    fun now (p : Package) => { f now p with updatedAt := now }
  affected "package " n

/-- {lit}`BlockPackage`. -/
def blockPackage (workspaceID pkgID : ID) (reason : GoString) : Op Unit :=
  changeStatus env "blocking package: " workspaceID pkgID .active fun now p =>
    { p with status := .blocked, blockedAt := some now, blockedReason := reason }

/-- {lit}`UnblockPackage`. -/
def unblockPackage (workspaceID pkgID : ID) : Op Unit :=
  changeStatus env "unblocking package: " workspaceID pkgID .blocked fun _ p =>
    { p with status := .active, blockedAt := none, blockedReason := [] }

/-- {lit}`ApprovePackage`. -/
def approvePackage (workspaceID pkgID : ID) : Op Unit :=
  changeStatus env "approving package: " workspaceID pkgID .suggested fun _ p =>
    { p with status := .active }

/-- {lit}`RejectPackage`. -/
def rejectPackage (workspaceID pkgID : ID) : Op Unit :=
  changeStatus env "rejecting package: " workspaceID pkgID .suggested fun _ p =>
    { p with status := .removed }

/-- {lit}`BulkApprovePackages`. -/
def bulkApprovePackages (workspaceID : ID) (pkgIDs : List ID) : Op Nat :=
  if pkgIDs = [] then pure 0
  else
    update env "bulk approving packages: " .packages
      (fun k (p : Package) =>
        p.workspaceID = workspaceID ∧ k ∈ pkgIDs ∧ p.status = .suggested)
      fun now (p : Package) => { p with status := .active, updatedAt := now }

/-- {lit}`BulkApproveAllSuggestions`. -/
def bulkApproveAllSuggestions (workspaceID : ID) : Op Nat :=
  update env "bulk approving all suggestions: " .packages
    (fun _ (p : Package) => p.workspaceID = workspaceID ∧ p.status = .suggested)
    fun now (p : Package) => { p with status := .active, updatedAt := now }

/-- {lit}`CountByWorkspace`, without an ecosystem. -/
def countByWorkspace (workspaceID : ID) : Op Nat :=
  query env "counting packages: " fun db =>
    ((packagesOf db workspaceID).filter fun p => p.2.status = .active).length

/-- {lit}`ExistsByWorkspaceAndName`. -/
def existsByWorkspaceAndName (workspaceID : ID) (name ecosystem : GoString) : Op Bool :=
  query env "checking package existence: " fun db =>
    (packagesOf db workspaceID).any fun p => p.2.name = name ∧ p.2.ecosystem = ecosystem

/-- The conditions of the other listings. -/
def matchesNamed (filters : PackageFilters) (p : Package) : Bool :=
  (filters.ecosystem.all fun ecosystem => p.ecosystem = ecosystem) &&
    searchMatches env escapeWildcards filters.search p.name

/-- {lit}`FindSuggestionsByWorkspaceID`. -/
def findSuggestionsByWorkspaceID (workspaceID : ID) (page limit : Int)
    (sortClause : List (SortTerm PackageColumn)) (filters : PackageFilters) :
    Op (List (Entry Package) × Nat) :=
  let rows := fun db => (packagesOf db workspaceID).filter fun p =>
    p.2.status = .suggested && matchesNamed env filters p.2
  listed env "counting suggestions: " "listing suggestions: " rows fun db =>
    paged page limit (ordered env (fun c p => c.key p.2) sortClause (rows db))

/-- The packages with a release since a time. -/
def releasedSince (db : Database) (staleBefore : Time) : List ID :=
  (db.releases.entries.filter fun r => staleBefore ≤ r.2.publishedAt).map fun r => r.2.packageID

/-- The active packages of {lit}`FindStaleByWorkspaceID`. -/
def staleRows (workspaceID : ID) (staleBefore : Time) (filters : PackageFilters)
    (db : Database) : List (Entry Package) :=
  (packagesOf db workspaceID).filter fun p =>
    p.2.status = .active && decide (p.1 ∉ releasedSince db staleBefore) &&
      matchesNamed env filters p.2

/-- The column {lit}`last_release_at`. -/
def lastReleaseAt (db : Database) (packageID : ID) : Option Time :=
  ((releasesOfPackage db packageID).map fun r => r.2.publishedAt).max?

/-- {lit}`FindStaleByWorkspaceID`: packages with the time of their last release. -/
def findStaleByWorkspaceID (workspaceID : ID) (staleBefore : Time) (page limit : Int)
    (sortClause : List (SortTerm PackageColumn)) (filters : PackageFilters) :
    Op (List (Entry Package × Option Time) × Nat) :=
  let rows := staleRows env workspaceID staleBefore filters
  listed env "counting stale packages: " "listing stale packages: " rows fun db =>
    (paged page limit (ordered env (fun c p => c.key p.2) sortClause (rows db))).map fun p =>
      (p, lastReleaseAt db p.1)

/-- A statement of {lit}`RemovePackage` that deletes rows. -/
def removing (t : TableName) (p : ID → Row t → Bool) (context : String) :
    Tx (Statement ID Row) Statement.Reply Failure Unit :=
  Tx.exec (Statement.delete t p)
    ⟨("removing package: deleting " ++ context ++ ": ").toList, .aborted⟩

/-- A query of {lit}`RemovePackage` that collects IDs, none if it fails. -/
def plucking (t : TableName) (p : ID → Row t → Bool) :
    Tx (Statement ID Row) Statement.Reply Failure (List ID) :=
  Tx.read (Statement.pluck t p) ([] : List ID)

/-- The IDs of the diffs of releases; without releases there is no query. -/
def pluckingDiffs (releaseIDs : List ID) :
    Tx (Statement ID Row) Statement.Reply Failure (List ID) :=
  if releaseIDs = [] then pure []
  else plucking .diffs fun _ (d : Diff) => d.releaseID ∈ releaseIDs

/-- The body of {lit}`RemovePackage`. -/
def removeBody (workspaceID pkgID : ID) (now : Time) :
    Tx (Statement ID Row) Statement.Reply Failure Unit := do
  let pkg ← Tx.exec
    (Statement.first .packages fun k (p : Package) =>
      k = pkgID ∧ p.workspaceID = workspaceID ∧ (p.status = .active ∨ p.status = .blocked))
    ⟨"removing package: ".toList, .aborted⟩
  Tx.onlyIf (Option.isNone pkg) (Tx.fail ⟨"package ".toList, .notFound⟩)
  let releaseIDs ← plucking .releases fun _ (r : Release) =>
    r.packageID = pkgID ∧ r.workspaceID = workspaceID
  let diffIDs ← pluckingDiffs releaseIDs
  let alertIDs ← plucking .alerts fun _ (a : Alert) =>
    a.packageID = pkgID ∧ a.workspaceID = workspaceID
  Tx.onlyIf (alertIDs ≠ [])
    (removing .alertNotes (fun _ (n : AlertNote) => n.alertID ∈ alertIDs) "alert notes")
  removing .alerts (fun _ (a : Alert) => a.packageID = pkgID ∧ a.workspaceID = workspaceID)
    "alerts"
  Tx.onlyIf (diffIDs ≠ [])
    (removing .analyses (fun _ (a : Analysis) => a.diffID ∈ diffIDs) "analyses")
  Tx.onlyIf (releaseIDs ≠ [])
    (removing .diffs (fun _ (d : Diff) => d.releaseID ∈ releaseIDs) "diffs")
  removing .releases
    (fun _ (r : Release) => r.packageID = pkgID ∧ r.workspaceID = workspaceID) "releases"
  let _ ← Tx.exec
    (Statement.update .packages (fun k (_ : Package) => k = pkgID)
      fun (p : Package) => { p with status := .removed, updatedAt := now })
    ⟨"removing package: ".toList, .aborted⟩

/-- {lit}`RemovePackage`. -/
def removePackage (workspaceID pkgID : ID) : Op Unit :=
  inTransaction env (removeBody workspaceID pkgID)

end PackageRepo

/-! ## Releases, diffs and analyses -/

/-- {lit}`ReleaseFilters`. -/
structure ReleaseFilters where
  ecosystem : Option GoString
  status : Option GoString
  search : Option GoString
  classification : Option GoString
  latestPerPackage : Bool

/-- {lit}`ReleaseWithDetails`. -/
structure ReleaseWithDetails where
  release : Entry Release
  packageName : GoString
  packageEcosystem : GoString
  classification : GoString

/-- {lit}`PipelineStatus`. -/
structure PipelineStatus where
  pending : Nat
  diffing : Nat
  analyzing : Nat
  completed : Nat
  error : Nat

namespace ReleaseRepo

/-- {lit}`FindByPackageIDAndWorkspace`. -/
def findByPackageIDAndWorkspace (packageID workspaceID : ID) (page limit : Int) :
    Op (List (Entry Release) × Nat) :=
  let rows := fun db => ((releasesOf db workspaceID).filter fun row =>
    row.1.2.packageID = packageID).map Prod.fst
  listed env "counting releases: " "listing releases: " rows fun db =>
    paged page limit ((rows db).insertionSort fun r r' => r'.2.createdAt ≤ r.2.createdAt)

/-- {lit}`FindByIDWithPackageAndWorkspace`. -/
def findByIDWithPackageAndWorkspace (id workspaceID : ID) : Op (Entry Release × Entry Package) := do
  let m ← first env "finding release: " "release " fun db =>
    ((releasesOf db workspaceID).find? fun row => row.1.1 = id).map Prod.fst
  let pkg ← first env "finding release package: " "package " fun db =>
    (packagesOf db workspaceID).find? fun p => p.1 = m.2.packageID
  pure (m, pkg)

/-- The latest release of its package. -/
def isLatest (db : Database) (r : Entry Release) : Bool :=
  ((releasesOfPackage db r.2.packageID).insertionSort fun r r' =>
    r'.2.createdAt ≤ r.2.createdAt).head?.any fun latest => latest.1 = r.1

/-- The conditions of {lit}`FindByWorkspaceIDWithDetails` that do not speak of the
classification. -/
def matchesFilters (filters : ReleaseFilters) (db : Database)
    (row : Entry Release × Entry Package) : Bool :=
  (filters.ecosystem.all fun ecosystem => row.2.2.ecosystem = ecosystem) &&
    (filters.status.all fun status =>
      if status = "in_progress".toList then
        row.1.2.status ∈ [.pending, .diffing, .analyzing]
      else row.1.2.status.text = status) &&
    searchMatches env escapeLikeRepo filters.search row.2.2.name &&
    (!filters.latestPerPackage || isLatest db row.1)

/-- The rows of a release under the filter on the classification: one for each joined analysis
of that classification, for the baseline the release itself. -/
def classifiedRows (classification : Option GoString) (db : Database)
    (row : Entry Release × Entry Package) : List (Entry Release × Entry Package) :=
  match classification with
  | none => [row]
  | some cls =>
      if cls = [] then [row]
      else if cls = "baseline".toList then
        if row.1.2.status = .completed ∧ diffsOf db row.1.1 = [] then [row] else []
      else
        ((diffsOf db row.1.1).flatMap fun d =>
          (analysesOf db d.1).filter fun a => a.2.classification.text = cls).map fun _ => row

/-- All rows of {lit}`FindByWorkspaceIDWithDetails`. -/
def detailRows (workspaceID : ID) (filters : ReleaseFilters) (db : Database) :
    List (Entry Release × Entry Package) :=
  ((activeReleasesOf db workspaceID).filter (matchesFilters env filters db)).flatMap
    (classifiedRows filters.classification db)

/-- The analyses of the diffs of a release. -/
def analysesOfRelease (db : Database) (releaseID : ID) : List (Entry Analysis) :=
  db.analyses.entries.filter fun a =>
    (db.diffs.get? a.2.diffID).any fun d => d.releaseID = releaseID

/-- The column {lit}`classification`. -/
def classificationColumn (db : Database) (releaseID : ID) : GoString :=
  (((analysesOfRelease db releaseID).insertionSort fun a a' =>
    a'.2.createdAt ≤ a.2.createdAt).head?.map fun a => a.2.classification.text).getD []

/-- A row of the listing. -/
def toDetails (db : Database) (row : Entry Release × Entry Package) : ReleaseWithDetails :=
  let cls := classificationColumn db row.1.1
  ⟨row.1, row.2.2.name, row.2.2.ecosystem,
    if cls = [] ∧ row.1.2.status = .completed then "baseline".toList else cls⟩

/-- {lit}`FindByWorkspaceIDWithDetails`. -/
def findByWorkspaceIDWithDetails (workspaceID : ID) (page limit : Int)
    (sortClause : List (SortTerm ReleaseColumn)) (filters : ReleaseFilters) :
    Op (List ReleaseWithDetails × Nat) := do
  let total ← query env "counting releases with details: " fun db =>
    (detailRows env workspaceID filters db).length
  if total = 0 then pure ([], 0)
  else do
    let rows ← query env "listing releases with details by workspace: " fun db =>
      (paged page limit (ordered env (fun c row => c.key row.1.2 row.2.2) sortClause
        (detailRows env workspaceID filters db))).map (toDetails db)
    pure (rows, total)

/-- {lit}`FindByPackageIDAll`. -/
def findByPackageIDAll (packageID : ID) : Op (List (Entry Release)) :=
  query env "listing all releases for package: " fun db =>
    (releasesOfPackage db packageID).insertionSort fun r r' => r'.2.createdAt ≤ r.2.createdAt

/-- {lit}`UpdateStatus`. -/
def updateStatus (id : ID) (status : ReleaseStatus) : Op Unit := do
  let n ← update env "updating release status: " .releases (fun k (_ : Release) => k = id)
    fun _ (r : Release) => { r with status }
  affected "release " n

/-- {lit}`CountByWorkspaceAndStatus`. -/
def countByWorkspaceAndStatus (workspaceID : ID) : Op PipelineStatus := do
  let rows ← query env "counting releases by status: " fun db =>
    countBy (fun row => row.1.2.status) (activeReleasesOf db workspaceID)
  let count := fun status => (rows.lookup status).getD 0
  pure ⟨count .pending, count .diffing, count .analyzing, count .completed, count .error⟩

end ReleaseRepo

namespace DiffRepo

/-- {lit}`FindFirstByReleaseID`. -/
def findFirstByReleaseID (releaseID : ID) : Op (Option (Entry Diff)) :=
  query env "finding first diff by release: " fun db =>
    ((diffsOf db releaseID).insertionSort fun d d' => d.2.createdAt ≤ d'.2.createdAt).head?

/-- {lit}`FindByReleaseIDs`. -/
def findByReleaseIDs (releaseIDs : List ID) : Op (List (Entry Diff)) :=
  if releaseIDs = [] then pure []
  else
    query env "finding diffs by release IDs: " fun db =>
      db.diffs.entries.filter fun d => d.2.releaseID ∈ releaseIDs

end DiffRepo

namespace AnalysisRepo

/-- {lit}`FindByDiffID`. -/
def findByDiffID (diffID : ID) : Op (List (Entry Analysis)) :=
  query env "finding analyses by diff: " fun db => analysesOf db diffID

/-- {lit}`FindByDiffIDs`. -/
def findByDiffIDs (diffIDs : List ID) : Op (List (Entry Analysis)) :=
  if diffIDs = [] then pure []
  else
    query env "finding analyses by diff IDs: " fun db =>
      db.analyses.entries.filter fun a => a.2.diffID ∈ diffIDs

end AnalysisRepo

/-! ## Alerts, notes and users -/

/-- {lit}`AlertRepo.FindByIDAndWorkspaceID`. -/
def AlertRepo.findByIDAndWorkspaceID (id workspaceID : ID) : Op (Entry Alert) :=
  first env "finding alert: " "alert " fun db =>
    (alertsOf db workspaceID).find? fun a => a.1 = id

/-- {lit}`UserRepo.FindByID`, among the users that are not deleted. -/
def UserRepo.findByID (id : ID) : Op User :=
  first env "finding user by id: " "user " fun db =>
    (db.users.get? id).filter fun u => u.deletedAt.isNone

namespace AlertNoteRepo

/-- {lit}`FindByAlertID`. -/
def findByAlertID (alertID workspaceID : ID) : Op (List (Entry AlertNote)) :=
  query env "listing alert notes: " fun db =>
    ((notesOf db workspaceID).filter fun n => n.2.alertID = alertID).insertionSort
      fun n n' => n'.2.createdAt ≤ n.2.createdAt

/-- {lit}`Create`: a new row with the foreign keys of the table. -/
def create (note : AlertNote) : Op (Entry AlertNote) :=
  call env "creating alert note: " fun n db =>
    let id := env.newID n
    let row := { note with createdAt := env.now n, updatedAt := env.now n }
    if (db.alertNotes.get? id).isSome then .error (.violates "alert_notes_pkey".toList)
    else if (db.alerts.get? row.alertID).isNone then
      .error (.violates "alert_notes_alert_id_fkey".toList)
    else if (db.workspaces.get? row.workspaceID).isNone then
      .error (.violates "alert_notes_workspace_id_fkey".toList)
    else if (db.users.get? row.userID).isNone then
      .error (.violates "alert_notes_user_id_fkey".toList)
    else .ok ((id, row), db.set .alertNotes (db.alertNotes.insert id row))

/-- {lit}`FindByID`. -/
def findByID (id workspaceID : ID) : Op (Entry AlertNote) :=
  first env "finding alert note: " "alert note " fun db =>
    (notesOf db workspaceID).find? fun n => n.1 = id

/-- {lit}`Update`: the row with the ID of the note gets its content. -/
def updateContent (note : Entry AlertNote) : Op (Entry AlertNote) :=
  call env "updating alert note: " fun n db =>
    .ok ((note.1, { note.2 with updatedAt := env.now n }),
      db.set .alertNotes (db.alertNotes.updateWhere (fun k _ => k = note.1) fun row =>
        { row with content := note.2.content, updatedAt := env.now n }))

/-- {lit}`Delete`. -/
def delete (id workspaceID : ID) : Op Unit := do
  let n ← call env "deleting alert note: " fun _ db =>
    let sel := fun k (row : AlertNote) => decide (k = id ∧ row.workspaceID = workspaceID)
    .ok ((db.alertNotes.keysWhere sel).length,
      db.set .alertNotes (db.alertNotes.deleteWhere sel))
  affected "alert note " n

end AlertNoteRepo

/-! ## The dashboard -/

/-- {lit}`DashboardStats`. -/
structure DashboardStats where
  totalPackages : Nat
  totalReleases : Nat
  pendingAnalyses : Nat
  activeAlerts : Nat
  recentMalicious : Nat

/-- {lit}`DATE`: the beginning of the day. -/
def dateOf (t : Time) : Time :=
  t - t % 86400

/-- A time between two others. -/
def within (fromTime toTime t : Time) : Bool :=
  fromTime ≤ t ∧ t ≤ toTime

namespace DashboardRepo

/-- {lit}`GetStats`. -/
def getStats (workspaceID : ID) : Op DashboardStats := do
  let totalPackages ← query env "counting packages: " fun db =>
    ((packagesOf db workspaceID).filter fun p => p.2.status = .active).length
  let totalReleases ← query env "counting releases: " fun db =>
    (activeReleasesOf db workspaceID).length
  let pendingAnalyses ← query env "counting pending analyses: " fun db =>
    ((activeReleasesOf db workspaceID).filter fun row =>
      row.1.2.status ∈ [.pending, .diffing, .analyzing]).length
  let activeAlerts ← query env "counting active alerts: " fun db =>
    ((alertsOf db workspaceID).filter fun a => a.2.status = .new).length
  let recentMalicious ← query env "counting malicious analyses: " fun db =>
    ((activeAnalysesOf db workspaceID).filter fun a => a.2.classification = .malicious).length
  pure ⟨totalPackages, totalReleases, pendingAnalyses, activeAlerts, recentMalicious⟩

/-- The releases of active packages that were created between two times. -/
def createdReleases (workspaceID : ID) (fromTime toTime : Time) (db : Database) :
    List (Entry Release × Entry Package) :=
  (activeReleasesOf db workspaceID).filter fun row => within fromTime toTime row.1.2.createdAt

/-- {lit}`GetReleaseActivity`. -/
def getReleaseActivity (workspaceID : ID) (fromTime toTime : Time) : Op (List (Time × Nat)) :=
  query env "querying release activity: " fun db =>
    (countBy (fun row => dateOf row.1.2.createdAt)
      (createdReleases workspaceID fromTime toTime db)).insertionSort fun x y => x.1 ≤ y.1

/-- {lit}`GetClassificationDistribution`. -/
def getClassificationDistribution (workspaceID : ID) (fromTime toTime : Time) :
    Op (List (GoString × Nat)) :=
  query env "querying classification distribution: " fun db =>
    countBy (fun a => a.2.classification.text)
      ((activeAnalysesOf db workspaceID).filter fun a => within fromTime toTime a.2.createdAt)

/-- {lit}`GetBaselineCount`. -/
def getBaselineCount (workspaceID : ID) (fromTime toTime : Time) : Op Nat :=
  query env "counting baselines: " fun db =>
    ((createdReleases workspaceID fromTime toTime db).filter fun row =>
      row.1.2.status = .completed ∧
        row.1.1 ∉ db.diffs.entries.map fun d => d.2.releaseID).length

/-- {lit}`GetEcosystemDistribution`. -/
def getEcosystemDistribution (workspaceID : ID) : Op (List (GoString × Nat)) :=
  query env "querying ecosystem distribution: " fun db =>
    countBy (fun p => p.2.ecosystem)
      ((packagesOf db workspaceID).filter fun p => p.2.status = .active)

/-- {lit}`GetAlertsBySeverity`. -/
def getAlertsBySeverity (workspaceID : ID) (fromTime toTime : Time) : Op (List (AlertSeverity × Nat)) :=
  query env "querying alerts by severity: " fun db =>
    countBy (fun a => a.2.severity)
      ((alertsOf db workspaceID).filter fun a => within fromTime toTime a.2.createdAt)

/-- {lit}`GetReleaseStatusDistribution`. -/
def getReleaseStatusDistribution (workspaceID : ID) (fromTime toTime : Time) :
    Op (List (ReleaseStatus × Nat)) :=
  query env "querying release status distribution: " fun db =>
    countBy (fun row => row.1.2.status) (createdReleases workspaceID fromTime toTime db)

/-- {lit}`GetUnanalyzedDiffIDs`. -/
def getUnanalyzedDiffIDs (workspaceID : ID) : Op (List ID) :=
  query env "querying unanalyzed diff IDs: " fun db =>
    ((activeDiffsOf db workspaceID).filter fun d => analysesOf db d.1 = []).map Prod.fst

end DashboardRepo

end Core
end Veilence

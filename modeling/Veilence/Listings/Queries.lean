import Veilence.Foundation.Like
import Veilence.Foundation.Selection
import Veilence.Go.Text

/-!
# The listings of packages, releases, alerts and users

The rows that six listings select, the patterns they search with, and the orders they sort by.
The strings of this module are lists of characters, and {lit}`LOWER` maps one character to one.
A query returns its rows in some order that its clause allows, and it is free to order rows with
equal sort keys otherwise next time.
-/

namespace Veilence
namespace Listings

open Go Foundation

/-! ## Tables -/

/-- A package. -/
structure Package where
  id : Nat
  workspaceID : Nat
  name : GoString
  ecosystem : GoString
  latestVersion : GoString
  source : GoString
  status : GoString
  downloadCount : Int
  createdAt : Int
deriving DecidableEq

/-- A release. -/
structure Release where
  id : Nat
  packageID : Nat
  version : GoString
  publishedAt : Int
  status : GoString
  createdAt : Int
deriving DecidableEq

/-- A diff. -/
structure Diff where
  id : Nat
  releaseID : Nat
deriving DecidableEq

/-- An analysis of a diff. -/
structure Analysis where
  id : Nat
  diffID : Nat
  classification : GoString
deriving DecidableEq

/-- An alert. -/
structure Alert where
  id : Nat
  workspaceID : Nat
  packageID : Nat
  severity : GoString
  status : GoString
  message : GoString
  createdAt : Int
deriving DecidableEq

/-- A user. -/
structure User where
  id : Nat
  email : GoString
  firstName : GoString
  lastName : GoString
  isActive : Bool
  isSuperAdmin : Bool
deriving DecidableEq

/-- The tables, with unique IDs. -/
structure Database where
  packages : List Package
  releases : List Release
  diffs : List Diff
  analyses : List Analysis
  alerts : List Alert
  users : List User
  packageIDs : (packages.map Package.id).Nodup
  releaseIDs : (releases.map Release.id).Nodup
  alertIDs : (alerts.map Alert.id).Nodup
  userIDs : (users.map User.id).Nodup

/-- {lit}`PackageStatusActive`. -/
def statusActive : GoString :=
  "active".toList

/-- {lit}`PackageStatusSuggested`. -/
def statusSuggested : GoString :=
  "suggested".toList

/-- {lit}`ReleaseStatusInProgress`. -/
def statusInProgress : GoString :=
  "in_progress".toList

/-- {lit}`InProgressStatuses`. -/
def inProgressStatuses : List GoString :=
  ["pending".toList, "diffing".toList, "analyzing".toList]

/-! ## Searches -/

/-- The symbols of {lit}`LIKE`. -/
def likeSymbols : Like.Symbols Char where
  escape := '\\'
  many := '%'
  one := '_'
  escape_ne_many := by decide
  escape_ne_one := by decide
  many_ne_one := by decide

/-- {lit}`LOWER`, character by character. -/
structure LowerCase where
  map : Char → Char
  keeps : Like.Keeps likeSymbols map

/-- {lit}`strings.ReplaceAll` of a character. -/
def replaceAll (s : GoString) (old : Char) (new : GoString) : GoString :=
  s.flatMap fun c => if c = old then new else [c]

/-- The escaping in {lit}`package_repo.go`. -/
def escapeWildcards (search : GoString) : GoString :=
  replaceAll (replaceAll search '%' "\\%".toList) '_' "\\_".toList

/-- {lit}`escapeLikeRepo`. -/
def escapeLikeRepo (s : GoString) : GoString :=
  let s := replaceAll s '\\' "\\\\".toList
  let s := replaceAll s '%' "\\%".toList
  let s := replaceAll s '_' "\\_".toList
  s

/-- {lit}`LOWER(column) LIKE LOWER(pattern)`, which {lit}`ILIKE` means as well. -/
def lowerLike (lower : LowerCase) (column pattern : GoString) : Bool :=
  Like.like likeSymbols (pattern.map lower.map) (column.map lower.map)

/-- The condition of a search on some columns, whose pattern is built in one of three ways. -/
def searched (lower : LowerCase) (escape : GoString → GoString) (columns : List GoString) :
    Option GoString → Bool
  | none => true
  | some [] => true
  | some search =>
      columns.any fun column => lowerLike lower column ('%' :: (escape search ++ "%".toList))

/-! ## Packages -/

/-- {lit}`PackageFilters`. -/
structure PackageFilters where
  ecosystem : Option GoString
  source : Option GoString
  status : Option GoString
  search : Option GoString

/-- The filters of packages that admit every row. -/
def noPackageFilters : PackageFilters :=
  ⟨none, none, none, none⟩

/-- The rows of {lit}`FindByWorkspaceID`. -/
def packageRows (lower : LowerCase) (db : Database) (workspaceID : Nat)
    (filters : PackageFilters) : List Package :=
  db.packages.filter fun pkg =>
    pkg.workspaceID = workspaceID && pkg.status = filters.status.getD statusActive &&
      filters.ecosystem.all (fun ecosystem => pkg.ecosystem = ecosystem) &&
      filters.source.all (fun source => pkg.source = source) &&
      searched lower escapeWildcards [pkg.name] filters.search

/-- The rows of {lit}`FindSuggestionsByWorkspaceID`. -/
def suggestionRows (lower : LowerCase) (db : Database) (workspaceID : Nat)
    (filters : PackageFilters) : List Package :=
  db.packages.filter fun pkg =>
    pkg.workspaceID = workspaceID && pkg.status = statusSuggested &&
      filters.ecosystem.all (fun ecosystem => pkg.ecosystem = ecosystem) &&
      searched lower escapeWildcards [pkg.name] filters.search

/-- The rows of {lit}`FindStaleByWorkspaceID`. -/
def staleRows (lower : LowerCase) (db : Database) (workspaceID : Nat) (staleBefore : Int)
    (filters : PackageFilters) : List Package :=
  db.packages.filter fun pkg =>
    pkg.workspaceID = workspaceID && pkg.status = statusActive &&
      !(db.releases.any fun release =>
        staleBefore ≤ release.publishedAt && release.packageID = pkg.id) &&
      filters.ecosystem.all (fun ecosystem => pkg.ecosystem = ecosystem) &&
      searched lower escapeWildcards [pkg.name] filters.search

/-! ## Releases -/

/-- {lit}`ReleaseFilters`. -/
structure ReleaseFilters where
  ecosystem : Option GoString
  status : Option GoString
  search : Option GoString
  classification : Option GoString
  latestPerPackage : Bool

/-- The releases with their packages. -/
def Database.joinedReleases (db : Database) : List (Release × Package) :=
  db.releases.filterMap fun release =>
    (db.packages.find? fun pkg => pkg.id = release.packageID).map fun pkg => (release, pkg)

/-- The filters on the columns of a release and its package. -/
def releaseMatches (lower : LowerCase) (workspaceID : Nat) (filters : ReleaseFilters)
    (row : Release × Package) : Bool :=
  row.2.workspaceID = workspaceID && row.2.status = statusActive &&
    filters.ecosystem.all (fun ecosystem => row.2.ecosystem = ecosystem) &&
    filters.status.all (fun status =>
      if status = statusInProgress then row.1.status ∈ inProgressStatuses
      else row.1.status = status) &&
    searched lower escapeLikeRepo [row.2.name] filters.search

/-- The release that {lit}`DISTINCT ON` takes for a package: the newest one, or any of them. -/
def Database.latestRelease (db : Database) (o : RowOrder Release) (packageID : Nat) :
    Option Release :=
  ((o.order (db.releases.filter fun release => release.packageID = packageID)).insertionSort
    fun release release' => release'.createdAt ≤ release.createdAt).head?

/-- How many rows a release has after the joins of the filter by classification. -/
def classifiedCount (db : Database) (classification : Option GoString) (release : Release) :
    Nat :=
  let diffs := db.diffs.filter fun diff => diff.releaseID = release.id
  match classification with
  | none => 1
  | some [] => 1
  | some classification =>
      if classification = "baseline".toList then
        if release.status = "completed".toList && diffs.isEmpty then 1 else 0
      else
        (diffs.flatMap fun diff => db.analyses.filter fun analysis =>
          analysis.diffID = diff.id && analysis.classification = classification).length

/-- The rows of {lit}`FindByWorkspaceIDWithDetails`. -/
def releaseRows (lower : LowerCase) (db : Database) (o : RowOrder Release) (workspaceID : Nat)
    (filters : ReleaseFilters) : List (Release × Package) :=
  (db.joinedReleases.filter fun row =>
    releaseMatches lower workspaceID filters row &&
      (!filters.latestPerPackage || db.latestRelease o row.1.packageID = some row.1)).flatMap
    fun row => List.replicate (classifiedCount db filters.classification row.1) row

/-! ## Alerts -/

/-- {lit}`AlertFilters`. -/
structure AlertFilters where
  severity : Option GoString
  status : Option GoString
  search : Option GoString

/-- The rows of {lit}`FindByWorkspaceIDWithPackage`. -/
def alertRows (lower : LowerCase) (db : Database) (workspaceID : Nat) (filters : AlertFilters) :
    List (Alert × Package) :=
  (db.alerts.filterMap fun alert =>
    (db.packages.find? fun pkg => pkg.id = alert.packageID).map fun pkg => (alert, pkg)).filter
    fun row =>
      row.1.workspaceID = workspaceID &&
        searched lower escapeLikeRepo [row.2.name, row.1.message] filters.search &&
        filters.severity.all (fun severity => row.1.severity = severity) &&
        filters.status.all (fun status => row.1.status = status)

/-! ## Users -/

/-- {lit}`UserFilters`. -/
structure UserFilters where
  search : Option GoString
  status : Option GoString
  role : Option GoString

/-- The rows of {lit}`FindAll`.  Its pattern is the text as it is. -/
def userRows (lower : LowerCase) (db : Database) (filters : UserFilters) : List User :=
  db.users.filter fun user =>
    searched lower id [user.email, user.firstName, user.lastName] filters.search &&
      filters.status.all (fun status =>
        if status = "active".toList then user.isActive
        else if status = "inactive".toList then !user.isActive
        else true) &&
      filters.role.all fun role =>
        if role = "super_admin".toList then user.isSuperAdmin
        else if role = "user".toList then !user.isSuperAdmin
        else true

end Listings
end Veilence

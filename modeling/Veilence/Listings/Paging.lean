import Veilence.Foundation.Ties
import Veilence.Listings.Queries

/-!
# The pages of the listings

A listing sorts by the one column that the client names, or by its default, and nothing breaks
ties.  Its pages show every row once where no border between two pages cuts a group of rows with
equal keys.  The listing of releases joins the analyses and so repeats a release with several ones,
and it takes any of the newest releases of a package.

Main results:

- Theorem {lit}`releaseRows_perm_iff`: when the listing of releases has every matching row once.
- Theorem {lit}`paging_exact_iff`: when the pages of the five listings show every matching row once
  and in order.
-/

namespace Veilence
namespace Listings

open Go Foundation

/-! ## Sort clauses -/

/-- {lit}`parseSort`: the columns to sort by, each with whether it descends. -/
def parseSort {C : Type} (allowedColumns : List (GoString × C)) (defaultSort : List (C × Bool))
    (sortBy sortDir : GoString) : List (C × Bool) :=
  match allowedColumns.lookup sortBy with
  | none => defaultSort
  | some col => [(col, sortDir = "desc".toList)]

/-- The order of a clause. -/
def clauseOrder {C α : Type} (column : C → SortOrder α) (clause : List (C × Bool)) :
    SortOrder α :=
  clause.foldr
    (fun key rest => (if key.2 then (column key.1).reverse else column key.1).thenBy rest)
    (.unordered α)

/-- The columns that packages are sorted by. -/
inductive PackageColumn where
  | name
  | ecosystem
  | latestVersion
  | downloadCount
  | source
  | status
  | createdAt

/-- The order of packages by a column, in which texts are compared with a collation. -/
def PackageColumn.order (collation : SortOrder GoString) : PackageColumn → SortOrder Package
  | .name => collation.comap Package.name
  | .ecosystem => collation.comap Package.ecosystem
  | .latestVersion => collation.comap Package.latestVersion
  | .downloadCount => (SortOrder.ofLinear Int).comap Package.downloadCount
  | .source => collation.comap Package.source
  | .status => collation.comap Package.status
  | .createdAt => (SortOrder.ofLinear Int).comap Package.createdAt

/-- {lit}`download_count DESC, name ASC`. -/
def defaultPackageSort : List (PackageColumn × Bool) :=
  [(.downloadCount, true), (.name, false)]

/-- The sort clause of {lit}`ListPackages`. -/
def packageSort (sortBy sortDir : GoString) : List (PackageColumn × Bool) :=
  parseSort [("name".toList, .name), ("ecosystem".toList, .ecosystem),
    ("latestVersion".toList, .latestVersion), ("downloadCount".toList, .downloadCount),
    ("source".toList, .source), ("status".toList, .status), ("createdAt".toList, .createdAt)]
    defaultPackageSort sortBy sortDir

/-- The sort clause of {lit}`ListSuggestions`. -/
def suggestionSort (sortBy sortDir : GoString) : List (PackageColumn × Bool) :=
  parseSort [("name".toList, .name), ("ecosystem".toList, .ecosystem),
    ("downloadCount".toList, .downloadCount)] defaultPackageSort sortBy sortDir

/-- The sort clause of {lit}`ListStalePackages`. -/
def staleSort (sortBy sortDir : GoString) : List (PackageColumn × Bool) :=
  parseSort [("name".toList, .name), ("ecosystem".toList, .ecosystem),
    ("latestVersion".toList, .latestVersion), ("downloadCount".toList, .downloadCount),
    ("source".toList, .source), ("createdAt".toList, .createdAt)]
    defaultPackageSort sortBy sortDir

/-- The columns that releases are sorted by. -/
inductive ReleaseColumn where
  | createdAt
  | version
  | publishedAt
  | status
  | packageName
  | packageEcosystem

/-- The order of releases by a column. -/
def ReleaseColumn.order (collation : SortOrder GoString) :
    ReleaseColumn → SortOrder (Release × Package)
  | .createdAt => (SortOrder.ofLinear Int).comap fun row => row.1.createdAt
  | .version => collation.comap fun row => row.1.version
  | .publishedAt => (SortOrder.ofLinear Int).comap fun row => row.1.publishedAt
  | .status => collation.comap fun row => row.1.status
  | .packageName => collation.comap fun row => row.2.name
  | .packageEcosystem => collation.comap fun row => row.2.ecosystem

/-- The sort clause of {lit}`GetRecentReleases`. -/
def releaseSort (sortBy sortDir : GoString) : List (ReleaseColumn × Bool) :=
  parseSort [("createdAt".toList, .createdAt), ("version".toList, .version),
    ("publishedAt".toList, .publishedAt), ("status".toList, .status),
    ("packageName".toList, .packageName), ("packageEcosystem".toList, .packageEcosystem)]
    [(.createdAt, true)] sortBy sortDir

/-- The columns that alerts are sorted by. -/
inductive AlertColumn where
  | severity
  | status
  | createdAt
  | message
  | packageName

/-- The order of alerts by a column. -/
def AlertColumn.order (collation : SortOrder GoString) : AlertColumn → SortOrder (Alert × Package)
  | .severity => collation.comap fun row => row.1.severity
  | .status => collation.comap fun row => row.1.status
  | .createdAt => (SortOrder.ofLinear Int).comap fun row => row.1.createdAt
  | .message => collation.comap fun row => row.1.message
  | .packageName => collation.comap fun row => row.2.name

/-- The sort clause of {lit}`ListAlerts`. -/
def alertSort (sortBy sortDir : GoString) : List (AlertColumn × Bool) :=
  parseSort [("severity".toList, .severity), ("status".toList, .status),
    ("createdAt".toList, .createdAt), ("message".toList, .message),
    ("packageName".toList, .packageName)] [(.createdAt, true)] sortBy sortDir

/-! ## The releases that match -/

/-- No release of the package is newer. -/
def Database.isNewest (db : Database) (release : Release) : Bool :=
  db.releases.all fun other =>
    other.packageID ≠ release.packageID || other.createdAt ≤ release.createdAt

/-- The releases that satisfy the filters, each once. -/
def matchingReleases (lower : LowerCase) (db : Database) (workspaceID : Nat)
    (filters : ReleaseFilters) : List (Release × Package) :=
  db.joinedReleases.filter fun row =>
    releaseMatches lower workspaceID filters row &&
      (!filters.latestPerPackage || db.isNewest row.1) &&
      decide (0 < classifiedCount db filters.classification row.1)

/-- A release that matches has one analysis of the classification, and a newest one is the only
one of its time. -/
structure OneRowEach (lower : LowerCase) (db : Database) (workspaceID : Nat)
    (filters : ReleaseFilters) : Prop where
  single : ∀ row ∈ matchingReleases lower db workspaceID filters,
    classifiedCount db filters.classification row.1 = 1
  newest : filters.latestPerPackage = true →
    ∀ row ∈ matchingReleases lower db workspaceID filters, ∀ other ∈ db.releases,
      other.packageID = row.1.packageID → other.createdAt = row.1.createdAt → other = row.1

section Releases

variable {lower : LowerCase} {db : Database} {o : RowOrder Release} {workspaceID packageID : Nat}
  {filters : ReleaseFilters} {release : Release}

theorem isNewest_iff : db.isNewest release = true ↔
    ∀ other ∈ db.releases, other.packageID = release.packageID →
      other.createdAt ≤ release.createdAt := by
  unfold Database.isNewest
  rw [List.all_eq_true]
  refine forall₂_congr fun other _ => ?_
  rw [Bool.or_eq_true, decide_eq_true_iff, decide_eq_true_iff]
  exact Decidable.imp_iff_not_or.symm

/-- The release that is taken is one of the newest ones. -/
theorem latestRelease_spec (hlatest : db.latestRelease o packageID = some release) :
    release ∈ db.releases ∧ release.packageID = packageID ∧ db.isNewest release = true := by
  have htotal : Std.Total fun r r' : Release => r'.createdAt ≤ r.createdAt :=
    ⟨fun r r' => le_total r'.createdAt r.createdAt⟩
  have htrans : IsTrans Release fun r r' => r'.createdAt ≤ r.createdAt :=
    ⟨fun _ _ _ h h' => h'.trans h⟩
  unfold Database.latestRelease at hlatest
  obtain ⟨rest, hsorted⟩ := List.head?_eq_some_iff.mp hlatest
  have hmem : ∀ other, other ∈ release :: rest ↔
      other ∈ db.releases ∧ other.packageID = packageID := by
    intro other
    rw [← hsorted, List.mem_insertionSort, (o.perm _).mem_iff, List.mem_filter,
      decide_eq_true_iff]
  have hpairs := List.pairwise_insertionSort (fun r r' : Release => r'.createdAt ≤ r.createdAt)
    (o.order (db.releases.filter fun r => r.packageID = packageID))
  rw [hsorted, List.pairwise_cons] at hpairs
  obtain ⟨hrelease, hpackage⟩ := (hmem release).mp List.mem_cons_self
  refine ⟨hrelease, hpackage, isNewest_iff.mpr fun other hother hsame => ?_⟩
  rcases List.mem_cons.mp ((hmem other).mpr ⟨hother, hsame.trans hpackage⟩) with rfl | hrest
  · exact le_refl _
  · exact hpairs.1 other hrest

/-- Any of the newest releases can be the one that is taken. -/
theorem latestRelease_firstly (hrelease : release ∈ db.releases)
    (hnewest : db.isNewest release = true) :
    db.latestRelease (.firstly release) release.packageID = some release := by
  have hmem : release ∈ db.releases.filter fun r => r.packageID = release.packageID :=
    List.mem_filter.mpr ⟨hrelease, decide_eq_true rfl⟩
  obtain ⟨rest, horder⟩ := List.head?_eq_some_iff.mp (RowOrder.head?_firstly hmem)
  unfold Database.latestRelease
  rw [horder, List.insertionSort_cons_of_forall_rel]
  · rfl
  · intro other hother
    have hrows : other ∈ db.releases.filter fun r => r.packageID = release.packageID := by
      rw [← ((RowOrder.firstly release).perm _).mem_iff, horder]
      exact List.mem_cons_of_mem _ hother
    rw [List.mem_filter, decide_eq_true_iff] at hrows
    exact isNewest_iff.mp hnewest other hrows.1 hrows.2

/-- A package with a release has one that is taken. -/
theorem exists_latestRelease (o : RowOrder Release) (hrelease : release ∈ db.releases) :
    ∃ latest, db.latestRelease o release.packageID = some latest := by
  unfold Database.latestRelease
  rw [← Option.isSome_iff_exists, List.isSome_head?]
  refine List.ne_nil_of_mem (a := release) ?_
  rw [List.mem_insertionSort, (o.perm _).mem_iff, List.mem_filter, decide_eq_true_iff]
  exact ⟨hrelease, rfl⟩

/-- The only release of its time is the one that is taken, if it is a newest one. -/
theorem latestRelease_of_only (o : RowOrder Release) (hrelease : release ∈ db.releases)
    (hnewest : db.isNewest release = true)
    (honly : ∀ other ∈ db.releases, other.packageID = release.packageID →
      other.createdAt = release.createdAt → other = release) :
    db.latestRelease o release.packageID = some release := by
  obtain ⟨latest, hlatest⟩ := exists_latestRelease o hrelease
  obtain ⟨hmem, hpackage, hnewest'⟩ := latestRelease_spec hlatest
  have hle := isNewest_iff.mp hnewest latest hmem hpackage
  have hge := isNewest_iff.mp hnewest' release hrelease hpackage.symm
  rw [hlatest, honly latest hmem hpackage (le_antisymm hle hge)]

/-! ### Counting rows -/

theorem count_flatMap_replicate {α : Type} [BEq α] [LawfulBEq α] (rows : List α) (n : α → Nat) (a : α) :
    (rows.flatMap fun b => List.replicate (n b) b).count a = rows.count a * n a := by
  induction rows with
  | nil => simp
  | cons b rows ih =>
      rw [List.flatMap_cons, List.count_append, ih, List.count_replicate, List.count_cons]
      by_cases hb : b = a
      · simp [hb, Nat.add_mul, Nat.add_comm]
      · simp [hb]

theorem count_filter_eq {α : Type} [BEq α] [LawfulBEq α] (rows : List α) (p : α → Bool) (a : α) :
    (rows.filter p).count a = if p a then rows.count a else 0 := by
  by_cases hp : p a = true
  · rw [if_pos hp, List.count_filter hp]
  · rw [if_neg hp, List.count_eq_zero]
    intro hmem
    exact hp (List.mem_filter.mp hmem).2

theorem nodup_joinedReleases (db : Database) : db.joinedReleases.Nodup := by
  have hids : (db.joinedReleases.map fun row => row.1.id).Nodup := by
    refine nodup_map_filterMap db.releaseIDs ?_
    intro release _ release' _ row row' hjoin hjoin' hid
    obtain ⟨pkg, -, rfl⟩ := Option.map_eq_some_iff.mp hjoin
    obtain ⟨pkg', -, rfl⟩ := Option.map_eq_some_iff.mp hjoin'
    exact hid
  exact hids.of_map

theorem mem_releases_of_joined {row : Release × Package} (hrow : row ∈ db.joinedReleases) :
    row.1 ∈ db.releases := by
  obtain ⟨release, hrelease, hjoin⟩ := List.mem_filterMap.mp hrow
  obtain ⟨pkg, -, rfl⟩ := Option.map_eq_some_iff.mp hjoin
  exact hrelease

/-- The listing of releases has every matching row once, whichever newest releases it takes, if
and only if each has one analysis of the classification and is the only newest one. -/
theorem releaseRows_perm_iff :
    (∀ o, (releaseRows lower db o workspaceID filters).Perm
      (matchingReleases lower db workspaceID filters)) ↔
      OneRowEach lower db workspaceID filters := by
  have hnodup := nodup_joinedReleases db
  constructor
  · intro hperm
    -- a row that matches is selected and not repeated
    have hrows : ∀ o, ∀ row ∈ matchingReleases lower db workspaceID filters,
        (releaseMatches lower workspaceID filters row &&
          (!filters.latestPerPackage || db.latestRelease o row.1.packageID = some row.1)) = true ∧
        classifiedCount db filters.classification row.1 = 1 := by
      intro o row hrow
      have hjoined : db.joinedReleases.count row = 1 :=
        List.count_eq_one_of_mem hnodup (List.mem_filter.mp hrow).1
      have hcount := (hperm o).count_eq row
      have hone : (matchingReleases lower db workspaceID filters).count row = 1 :=
        List.count_eq_one_of_mem (hnodup.filter _) hrow
      rw [hone, releaseRows, count_flatMap_replicate,
        count_filter_eq, hjoined] at hcount
      split_ifs at hcount with hselected
      · exact ⟨hselected, by simpa using hcount⟩
      · simp at hcount
    refine ⟨fun row hrow => (hrows .stored row hrow).2, ?_⟩
    intro hlatest row hrow other hother hpackage htime
    have hnewest : db.isNewest row.1 = true := by
      have hcond := (List.mem_filter.mp hrow).2
      rw [hlatest] at hcond
      simp only [Bool.not_true, Bool.false_or, Bool.and_eq_true] at hcond
      exact hcond.1.2
    have hother' : db.isNewest other = true := by
      rw [isNewest_iff] at hnewest ⊢
      intro third hthird hsame
      rw [htime]
      exact hnewest third hthird (hsame.trans hpackage)
    have htaken := (hrows (.firstly other) row hrow).1
    rw [hlatest, ← hpackage, latestRelease_firstly hother hother'] at htaken
    simp only [Bool.not_true, Bool.false_or, Bool.and_eq_true, decide_eq_true_iff,
      Option.some.injEq] at htaken
    exact htaken.2
  · rintro ⟨hsingle, hnewest⟩ o
    rw [List.perm_iff_count]
    intro row
    by_cases hmatches : row ∈ matchingReleases lower db workspaceID filters
    · have hone : (matchingReleases lower db workspaceID filters).count row = 1 :=
        List.count_eq_one_of_mem (hnodup.filter _) hmatches
      obtain ⟨hjoined, hcond⟩ := List.mem_filter.mp hmatches
      simp only [Bool.and_eq_true] at hcond
      have hlatest : (!filters.latestPerPackage ||
          db.latestRelease o row.1.packageID = some row.1) = true := by
        cases hfilter : filters.latestPerPackage with
        | false => rfl
        | true =>
            have hisNewest := hcond.1.2
            rw [hfilter] at hisNewest
            exact decide_eq_true (latestRelease_of_only o (mem_releases_of_joined hjoined)
              hisNewest (hnewest hfilter row hmatches))
      rw [hone, releaseRows, count_flatMap_replicate, count_filter_eq, hcond.1.1, hlatest,
        Bool.and_true, if_pos rfl, hsingle row hmatches, List.count_eq_one_of_mem hnodup hjoined]
    · rw [List.count_eq_zero_of_not_mem hmatches, List.count_eq_zero]
      intro hmem
      obtain ⟨row', hrow', hrepeat⟩ := List.mem_flatMap.mp hmem
      obtain ⟨hpos, rfl⟩ := List.mem_replicate.mp hrepeat
      obtain ⟨hjoined, hcond⟩ := List.mem_filter.mp hrow'
      refine hmatches (List.mem_filter.mpr ⟨hjoined, ?_⟩)
      rw [Bool.and_eq_true] at hcond
      rw [hcond.1, Bool.true_and, Bool.and_eq_true, decide_eq_true_iff]
      refine ⟨?_, Nat.pos_of_ne_zero hpos⟩
      cases hfilter : filters.latestPerPackage with
      | false => rfl
      | true =>
          have htaken := hcond.2
          rw [hfilter] at htaken
          exact (latestRelease_spec (of_decide_eq_true htaken)).2.2

end Releases

/-! ## The five listings -/

section Pages

variable (lower : LowerCase) (collation : SortOrder GoString) (db : Database)
  (workspaceID limit : Nat) (staleBefore : Int) (sortBy sortDir : GoString)

/-- The pages of the packages list every matching row once and in order. -/
def PackagesPaged (filters : PackageFilters) : Prop :=
  (clauseOrder (PackageColumn.order collation) (packageSort sortBy sortDir)).PagedExactly limit
    (fun _ : Unit => packageRows lower db workspaceID filters)
    (packageRows lower db workspaceID filters)

/-- The pages of the suggestions list every matching row once and in order. -/
def SuggestionsPaged (filters : PackageFilters) : Prop :=
  (clauseOrder (PackageColumn.order collation) (suggestionSort sortBy sortDir)).PagedExactly limit
    (fun _ : Unit => suggestionRows lower db workspaceID filters)
    (suggestionRows lower db workspaceID filters)

/-- The pages of the stale packages list every matching row once and in order. -/
def StalePaged (filters : PackageFilters) : Prop :=
  (clauseOrder (PackageColumn.order collation) (staleSort sortBy sortDir)).PagedExactly limit
    (fun _ : Unit => staleRows lower db workspaceID staleBefore filters)
    (staleRows lower db workspaceID staleBefore filters)

/-- The pages of the releases list every matching row once and in order. -/
def ReleasesPaged (filters : ReleaseFilters) : Prop :=
  (clauseOrder (ReleaseColumn.order collation) (releaseSort sortBy sortDir)).PagedExactly limit
    (fun o => releaseRows lower db o workspaceID filters)
    (matchingReleases lower db workspaceID filters)

/-- The pages of the alerts list every matching row once and in order. -/
def AlertsPaged (filters : AlertFilters) : Prop :=
  (clauseOrder (AlertColumn.order collation) (alertSort sortBy sortDir)).PagedExactly limit
    (fun _ : Unit => alertRows lower db workspaceID filters)
    (alertRows lower db workspaceID filters)

variable {lower collation db workspaceID limit staleBefore sortBy sortDir}

/-- A query that has one result only. -/
theorem pagedExactly_unit_iff {α : Type} {s : SortOrder α} {rows : List α} (hlimit : 0 < limit)
    (hnodup : rows.Nodup) :
    s.PagedExactly limit (fun _ : Unit => rows) rows ↔ ∀ k, ¬s.Cuts rows (k * limit) := by
  rw [SortOrder.pagedExactly_iff hlimit hnodup]
  exact and_iff_right fun _ => .refl rows

theorem nodup_packages (db : Database) : db.packages.Nodup :=
  db.packageIDs.of_map

theorem nodup_alertRows (filters : AlertFilters) :
    (alertRows lower db workspaceID filters).Nodup := by
  refine List.Nodup.filter _ (List.Nodup.of_map (fun row => row.1.id) ?_)
  refine nodup_map_filterMap db.alertIDs ?_
  intro alert _ alert' _ row row' hjoin hjoin' hid
  obtain ⟨pkg, -, rfl⟩ := Option.map_eq_some_iff.mp hjoin
  obtain ⟨pkg', -, rfl⟩ := Option.map_eq_some_iff.mp hjoin'
  exact hid

variable (lower collation db workspaceID staleBefore sortBy sortDir) in
/-- The pages of a listing show every matching row once and in order if and only if no border
between two pages is within a group of rows with equal sort keys; for the releases, each
matching one moreover has to have one row. -/
theorem paging_exact_iff (hlimit : 0 < limit) (filters : PackageFilters)
    (releaseFilters : ReleaseFilters) (alertFilters : AlertFilters) :
    (PackagesPaged lower collation db workspaceID limit sortBy sortDir filters ↔
      ∀ k, ¬(clauseOrder (PackageColumn.order collation) (packageSort sortBy sortDir)).Cuts
        (packageRows lower db workspaceID filters) (k * limit)) ∧
    (SuggestionsPaged lower collation db workspaceID limit sortBy sortDir filters ↔
      ∀ k, ¬(clauseOrder (PackageColumn.order collation) (suggestionSort sortBy sortDir)).Cuts
        (suggestionRows lower db workspaceID filters) (k * limit)) ∧
    (StalePaged lower collation db workspaceID limit staleBefore sortBy sortDir filters ↔
      ∀ k, ¬(clauseOrder (PackageColumn.order collation) (staleSort sortBy sortDir)).Cuts
        (staleRows lower db workspaceID staleBefore filters) (k * limit)) ∧
    (ReleasesPaged lower collation db workspaceID limit sortBy sortDir releaseFilters ↔
      OneRowEach lower db workspaceID releaseFilters ∧
        ∀ k, ¬(clauseOrder (ReleaseColumn.order collation) (releaseSort sortBy sortDir)).Cuts
          (matchingReleases lower db workspaceID releaseFilters) (k * limit)) ∧
    (AlertsPaged lower collation db workspaceID limit sortBy sortDir alertFilters ↔
      ∀ k, ¬(clauseOrder (AlertColumn.order collation) (alertSort sortBy sortDir)).Cuts
        (alertRows lower db workspaceID alertFilters) (k * limit)) := by
  have hpackages := nodup_packages db
  refine ⟨?_, ?_, ?_, ?_, ?_⟩
  · exact pagedExactly_unit_iff hlimit (hpackages.filter _)
  · exact pagedExactly_unit_iff hlimit (hpackages.filter _)
  · exact pagedExactly_unit_iff hlimit (hpackages.filter _)
  · have hmatching : (matchingReleases lower db workspaceID releaseFilters).Nodup :=
      (nodup_joinedReleases db).filter _
    have hone : Nonempty (RowOrder Release) := ⟨.stored⟩
    unfold ReleasesPaged
    rw [SortOrder.pagedExactly_iff hlimit hmatching, releaseRows_perm_iff]
  · exact pagedExactly_unit_iff hlimit (nodup_alertRows alertFilters)

end Pages

/-! ## Packages of one status -/

/-- Texts in the order of their characters. -/
def byCharacters : SortOrder GoString :=
  SortOrder.ofLinear (List Char)

/-- {lit}`LOWER` on texts without capital letters. -/
def lowerNothing : LowerCase :=
  ⟨id, fun _ _ _ => Iff.rfl⟩

/-- Two active packages of a workspace. -/
def twoActive : Database where
  packages := [⟨0, 0, "left-pad".toList, "npm".toList, [], "manual".toList, statusActive, 5, 0⟩,
    ⟨1, 0, "right-pad".toList, "npm".toList, [], "manual".toList, statusActive, 7, 0⟩]
  releases := []
  diffs := []
  analyses := []
  alerts := []
  users := []
  packageIDs := by decide
  releaseIDs := List.nodup_nil
  alertIDs := List.nodup_nil
  userIDs := List.nodup_nil

/-- All packages on one page. -/
theorem paging_exact_iff_onePage :
    PackagesPaged lowerNothing byCharacters twoActive 0 20 "status".toList "asc".toList
      noPackageFilters := by
  have hpages := (paging_exact_iff lowerNothing byCharacters twoActive 0 0 "status".toList
    "asc".toList (show 0 < 20 by decide) noPackageFilters ⟨none, none, none, none, false⟩
    ⟨none, none, none⟩).1
  refine hpages.mpr ?_
  rintro k ⟨a, -, habove, hup⟩
  have hlength : (packageRows lowerNothing twoActive 0 noPackageFilters).length ≤ 2 :=
    List.length_filter_le _ twoActive.packages
  have hle := hup.trans_le List.countP_le_length
  omega

/-- Pages of one package, sorted by the status that both packages have: a package can be on both
pages, and the other one on none. -/
theorem pages_repeat :
    ¬PackagesPaged lowerNothing byCharacters twoActive 0 1 "status".toList "asc".toList
      noPackageFilters := by
  have hnodup : (packageRows lowerNothing twoActive 0 noPackageFilters).Nodup :=
    (nodup_packages twoActive).filter _
  unfold PackagesPaged
  rw [pagedExactly_unit_iff Nat.one_pos hnodup]
  intro huncut
  exact huncut 1 (by decide +kernel)

end Listings
end Veilence

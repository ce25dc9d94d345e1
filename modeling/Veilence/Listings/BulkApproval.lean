import Veilence.Listings.Paging

/-!
# Approving many suggestions at once

A request to approve suggestions lists IDs, names an ecosystem or asks for all of them.  For an
ecosystem the handler fetches the first ten thousand suggestions of the workspace and keeps those
of the ecosystem; the other two modes are one statement each.

Main results:

- Theorem {lit}`handle_of_ecosystem`: what a request for an ecosystem approves.
- Theorem {lit}`bulkApproval_exact_iff`: when a request approves just the suggestions that it is
  for.
-/

namespace Veilence
namespace Listings

open Go Foundation

/-! ## Requests -/

/-- The texts of IDs: what {lit}`uuid.Parse` accepts, what the database reads a text as, and the
text of an ID that comes from the database. -/
structure IDFormat where
  parse : GoString → Bool
  cast : GoString → Option Nat
  text : Nat → GoString
  cast_text : ∀ id, cast (text id) = some id

/-- {lit}`bulkApproveRequest`. -/
structure BulkApproveRequest where
  packageIDs : List GoString
  ecosystem : GoString
  approveAll : Bool

/-- What a client is answered. -/
inductive Response where
  | approved (count : Nat)
  | error (status : Nat) (message : GoString)

/-! ## Statements -/

/-- A package after its approval. -/
def Package.activate (pkg : Package) : Package :=
  { pkg with status := statusActive }

/-- The database after the approval of some packages. -/
def Database.activateWhere (db : Database) (cond : Package → Bool) : Database :=
  { db with
    packages := db.packages.map fun pkg => if cond pkg then pkg.activate else pkg
    packageIDs := by
      have hids : (db.packages.map fun pkg => if cond pkg then pkg.activate else pkg).map
          Package.id = db.packages.map Package.id := by
        rw [List.map_map]
        refine List.map_congr_left fun pkg _ => ?_
        dsimp only [Function.comp]
        split_ifs <;> rfl
      rw [hids]
      exact db.packageIDs }

/-- {lit}`BulkApproveAllSuggestions`. -/
def bulkApproveAllSuggestions (db : Database) (workspaceID : Nat) : Database × Nat :=
  let cond := fun pkg : Package => pkg.workspaceID = workspaceID && pkg.status = statusSuggested
  (db.activateWhere cond, db.packages.countP cond)

/-- The condition of the statement that approves listed packages. -/
def approvable (workspaceID : Nat) (ids : List Nat) (pkg : Package) : Bool :=
  pkg.workspaceID = workspaceID && ids.contains pkg.id && pkg.status = statusSuggested

/-- {lit}`BulkApprovePackages` of the repository, which fails if a text is no ID. -/
def bulkApprovePackages (f : IDFormat) (db : Database) (workspaceID : Nat)
    (pkgIDs : List GoString) : Option (Database × Nat) :=
  if pkgIDs = [] then some (db, 0)
  else
    match pkgIDs.mapM f.cast with
    | none => none
    | some ids =>
        some (db.activateWhere (approvable workspaceID ids),
          db.packages.countP (approvable workspaceID ids))

/-! ## The handler -/

/-- The answer to a request that approves packages by their IDs. -/
def respondApproved (f : IDFormat) (db : Database) (workspaceID : Nat) (pkgIDs : List GoString) :
    Database × Response :=
  match bulkApprovePackages f db workspaceID pkgIDs with
  | none => (db, .error 500 "failed to bulk approve packages".toList)
  | some (db, count) => (db, .approved count)

/-- {lit}`BulkApprovePackages` of the handlers.  The suggestions are what {lit}`ListSuggestions`
answers, if it is called. -/
def handleBulkApprove (f : IDFormat) (maxBulkApprove : Nat) (db : Database) (workspaceID : Nat)
    (suggestions : List Package) : Option BulkApproveRequest → Database × Response
  | none => (db, .error 400 "invalid request body".toList)
  | some req =>
      if req.approveAll then
        let (db, count) := bulkApproveAllSuggestions db workspaceID
        (db, .approved count)
      else if req.packageIDs ≠ [] then
        if maxBulkApprove < req.packageIDs.length then
          (db, .error 400 ("cannot approve more than ".toList ++ itoa maxBulkApprove ++
            " packages at once".toList))
        else
          match req.packageIDs.find? fun id => !f.parse id with
          | some id => (db, .error 400 ("invalid package ID: ".toList ++ id))
          | none => respondApproved f db workspaceID req.packageIDs
      else if req.ecosystem ≠ [] then
        if req.ecosystem ≠ "python".toList ∧ req.ecosystem ≠ "npm".toList ∧
            req.ecosystem ≠ "go".toList then
          (db, .error 400 "ecosystem must be 'python', 'npm', or 'go'".toList)
        else
          let pkgIDs := (suggestions.filter fun pkg => pkg.ecosystem = req.ecosystem).map
            fun pkg => f.text pkg.id
          if pkgIDs = [] then (db, .approved 0)
          else respondApproved f db workspaceID pkgIDs
      else (db, .error 400 "either 'packageIds' or 'ecosystem' is required".toList)

/-- The limit of the listing of suggestions. -/
def suggestionLimit : Nat :=
  10000

/-- What {lit}`ListSuggestions` may answer for the first page, sorted by its default. -/
def IsSuggestions (lower : LowerCase) (collation : SortOrder GoString) (db : Database)
    (workspaceID : Nat) (suggestions : List Package) : Prop :=
  (clauseOrder (PackageColumn.order collation) defaultPackageSort).IsPage
    (suggestionRows lower db workspaceID noPackageFilters) 1 suggestionLimit suggestions

/-! ## What a request is for -/

/-- The packages that a request is to approve. -/
def intended (f : IDFormat) (workspaceID : Nat) (req : BulkApproveRequest) (pkg : Package) :
    Bool :=
  pkg.workspaceID = workspaceID && pkg.status = statusSuggested &&
    (req.approveAll ||
      if req.packageIDs ≠ [] then (req.packageIDs.filterMap f.cast).contains pkg.id
      else pkg.ecosystem = req.ecosystem)

/-- A request that is answered with a number approves just the packages that it is for, which are
so many, and one that is rejected changes nothing. -/
def ApprovedExactly (f : IDFormat) (db : Database) (workspaceID : Nat)
    (req : Option BulkApproveRequest) : Database × Response → Prop
  | (db', .approved count) => ∃ r, req = some r ∧
      db' = db.activateWhere (intended f workspaceID r) ∧
        count = db.packages.countP (intended f workspaceID r)
  | (db', .error _ _) => db' = db

/-- The request fetches the suggestions of an ecosystem. -/
def BulkApproveRequest.Fetches (req : BulkApproveRequest) : Prop :=
  req.approveAll = false ∧ req.packageIDs = [] ∧
    (req.ecosystem = "python".toList ∨ req.ecosystem = "npm".toList ∨ req.ecosystem = "go".toList)

section Approval

variable {f : IDFormat} {maxBulkApprove workspaceID : Nat} {db : Database}
  {suggestions : List Package} {lower : LowerCase} {collation : SortOrder GoString}

/-- Two sets of suggestions that are approved alike are the same set. -/
theorem activateWhere_eq_iff {p q : Package → Bool}
    (hp : ∀ pkg, p pkg = true → pkg.status = statusSuggested)
    (hq : ∀ pkg, q pkg = true → pkg.status = statusSuggested) :
    db.activateWhere p = db.activateWhere q ↔ ∀ pkg ∈ db.packages, p pkg = q pkg := by
  have hne : ∀ pkg : Package, pkg.status = statusSuggested → pkg.activate ≠ pkg := by
    intro pkg hstatus heq
    have hsame := congrArg Package.status heq
    rw [hstatus] at hsame
    have hdiffer : statusActive ≠ statusSuggested := by decide
    exact hdiffer hsame
  constructor
  · intro heq pkg hpkg
    have hrows := List.map_inj_left.mp (congrArg Database.packages heq) pkg hpkg
    cases hpp : p pkg with
    | false =>
        cases hqq : q pkg with
        | false => rfl
        | true =>
            rw [hpp, hqq] at hrows
            exact absurd hrows.symm (hne pkg (hq pkg hqq))
    | true =>
        cases hqq : q pkg with
        | false =>
            rw [hpp, hqq] at hrows
            exact absurd hrows (hne pkg (hp pkg hpp))
        | true => rfl
  · intro hall
    have hrows : (db.packages.map fun pkg => if p pkg then pkg.activate else pkg) =
        db.packages.map fun pkg => if q pkg then pkg.activate else pkg :=
      List.map_congr_left fun pkg hpkg => by rw [hall pkg hpkg]
    unfold Database.activateWhere
    congr 1

theorem activateWhere_of_none {p : Package → Bool} (hp : ∀ pkg ∈ db.packages, p pkg = false) :
    db.activateWhere p = db := by
  have hrows : (db.packages.map fun pkg => if p pkg then pkg.activate else pkg) = db.packages := by
    conv_rhs => rw [← List.map_id db.packages]
    exact List.map_congr_left fun pkg hpkg => by simp [hp pkg hpkg]
  unfold Database.activateWhere
  congr 1

theorem mapM_cast {texts : List GoString} {ids : List Nat}
    (hcast : texts.mapM f.cast = some ids) : texts.filterMap f.cast = ids := by
  induction texts generalizing ids with
  | nil => simpa using hcast
  | cons text texts ih =>
      rw [List.mapM_cons] at hcast
      cases hid : f.cast text with
      | none => simp [hid] at hcast
      | some id =>
          cases hrest : texts.mapM f.cast with
          | none => simp [hid, hrest] at hcast
          | some rest =>
              simp only [hid, hrest, Option.bind_eq_bind, Option.bind_some, Option.pure_def,
                Option.some.injEq] at hcast
              rw [List.filterMap_cons_some hid, ih hrest, hcast]

theorem mapM_text (ids : List Nat) : (ids.map f.text).mapM f.cast = some ids := by
  induction ids with
  | nil => rfl
  | cons id ids ih => simp [f.cast_text, ih]

/-- A request for an ecosystem approves the fetched suggestions of the ecosystem. -/
theorem handle_of_ecosystem {req : BulkApproveRequest} (hreq : req.Fetches) {ids : List Nat}
    (hids : (suggestions.filter fun pkg => pkg.ecosystem = req.ecosystem).map Package.id = ids) :
    handleBulkApprove f maxBulkApprove db workspaceID suggestions (some req) =
      (db.activateWhere (approvable workspaceID ids),
        .approved (db.packages.countP (approvable workspaceID ids))) := by
  obtain ⟨hall, hlist, hecosystem⟩ := hreq
  have hnonempty : req.ecosystem ≠ [] := by
    rcases hecosystem with h | h | h <;> rw [h] <;> decide
  have hvalid : ¬(req.ecosystem ≠ "python".toList ∧ req.ecosystem ≠ "npm".toList ∧
      req.ecosystem ≠ "go".toList) := by
    tauto
  have htexts : ((suggestions.filter fun pkg => pkg.ecosystem = req.ecosystem).map fun pkg =>
      f.text pkg.id) = ids.map f.text := by
    rw [← hids, List.map_map]
    rfl
  unfold handleBulkApprove
  dsimp only
  rw [if_neg (by simp [hall]), if_neg (by simp [hlist]), if_pos hnonempty, if_neg hvalid, htexts]
  by_cases hnil : ids = []
  · have hnone : ∀ pkg ∈ db.packages, approvable workspaceID ids pkg = false := by
      intro pkg _
      simp [approvable, hnil]
    rw [if_pos (by rw [hnil]; rfl), activateWhere_of_none hnone,
      List.countP_eq_zero.mpr fun pkg hpkg => by simp [hnone pkg hpkg]]
  · have hmap : ids.map f.text ≠ [] := by simpa using hnil
    rw [if_neg hmap, respondApproved, bulkApprovePackages, if_neg hmap, mapM_text]

/-! ## The modes -/

/-- Approvals that are alike on the packages of the database. -/
theorem approvedExactly_iff {req : BulkApproveRequest} {p : Package → Bool}
    (hp : ∀ pkg, p pkg = true → pkg.status = statusSuggested) :
    ApprovedExactly f db workspaceID (some req)
        (db.activateWhere p, .approved (db.packages.countP p)) ↔
      ∀ pkg ∈ db.packages, p pkg = intended f workspaceID req pkg := by
  have hintended : ∀ pkg, intended f workspaceID req pkg = true →
      pkg.status = statusSuggested := by
    intro pkg h
    simp only [intended, Bool.and_eq_true, decide_eq_true_iff] at h
    exact h.1.2
  rw [← activateWhere_eq_iff hp hintended]
  constructor
  · rintro ⟨r, hr, hdb, -⟩
    rw [Option.some.inj hr]
    exact hdb
  · intro hdb
    refine ⟨req, rfl, hdb, List.countP_congr fun pkg hpkg => ?_⟩
    rw [(activateWhere_eq_iff hp hintended).mp hdb pkg hpkg]

theorem status_of_approvable {ids : List Nat} {pkg : Package}
    (h : approvable workspaceID ids pkg = true) : pkg.status = statusSuggested := by
  simp only [approvable, Bool.and_eq_true, decide_eq_true_iff] at h
  exact h.2

/-- A request that fetches nothing is always exact. -/
theorem approvedExactly_of_not_fetches {req : Option BulkApproveRequest}
    (hreq : ∀ r, req = some r → ¬r.Fetches) :
    ApprovedExactly f db workspaceID req
      (handleBulkApprove f maxBulkApprove db workspaceID suggestions req) := by
  cases req with
  | none => rfl
  | some req =>
  unfold handleBulkApprove
  dsimp only
  by_cases hall : req.approveAll = true
  · rw [if_pos hall]
    refine (approvedExactly_iff fun pkg h => ?_).mpr fun pkg _ => ?_
    · simp only [Bool.and_eq_true, decide_eq_true_iff] at h
      exact h.2
    · simp [intended, hall]
  rw [if_neg hall]
  by_cases hlist : req.packageIDs ≠ []
  · rw [if_pos hlist]
    split_ifs
    · rfl
    · split
      · rfl
      · rw [respondApproved, bulkApprovePackages, if_neg hlist]
        cases hcast : req.packageIDs.mapM f.cast with
        | none => rfl
        | some ids =>
            refine (approvedExactly_iff fun pkg => status_of_approvable).mpr fun pkg _ => ?_
            simp only [approvable, intended, Bool.eq_false_iff.mpr hall, if_pos hlist,
              mapM_cast hcast, Bool.false_or]
            ac_rfl
  · rw [if_neg hlist]
    by_cases hnonempty : req.ecosystem ≠ []
    · rw [if_pos hnonempty]
      by_cases hinvalid : req.ecosystem ≠ "python".toList ∧ req.ecosystem ≠ "npm".toList ∧
          req.ecosystem ≠ "go".toList
      · rw [if_pos hinvalid]
        rfl
      · refine absurd ⟨Bool.eq_false_iff.mpr hall, not_not.mp hlist, ?_⟩ (hreq req rfl)
        tauto
    · rw [if_neg hnonempty]
      rfl

/-! ## The first ten thousand -/

theorem mem_suggestionRows {pkg : Package} :
    pkg ∈ suggestionRows lower db workspaceID noPackageFilters ↔
      pkg ∈ db.packages ∧ pkg.workspaceID = workspaceID ∧ pkg.status = statusSuggested := by
  simp [suggestionRows, noPackageFilters, searched]

theorem nodup_suggestionRows : (suggestionRows lower db workspaceID noPackageFilters).Nodup :=
  (List.Nodup.of_map Package.id db.packageIDs).filter _

/-- What a request for an ecosystem is for. -/
theorem intended_of_fetches {req : BulkApproveRequest} (hreq : req.Fetches) (pkg : Package) :
    intended f workspaceID req pkg = true ↔
      (pkg.workspaceID = workspaceID ∧ pkg.status = statusSuggested) ∧
        pkg.ecosystem = req.ecosystem := by
  obtain ⟨hall, hlist, -⟩ := hreq
  simp [intended, hall, hlist]

/-- The packages whose IDs are those of fetched suggestions are these suggestions. -/
theorem approvable_fetched_iff {ecosystem : GoString}
    (hfetched : ∀ pkg ∈ suggestions, pkg ∈ suggestionRows lower db workspaceID noPackageFilters)
    {pkg : Package} (hpkg : pkg ∈ db.packages) :
    approvable workspaceID
        ((suggestions.filter fun pkg => pkg.ecosystem = ecosystem).map Package.id) pkg = true ↔
      pkg ∈ suggestions ∧ pkg.ecosystem = ecosystem := by
  constructor
  · intro h
    simp only [approvable, Bool.and_eq_true, List.contains_iff_mem, List.mem_map,
      List.mem_filter, decide_eq_true_iff] at h
    obtain ⟨⟨-, other, ⟨hother, hecosystem⟩, hid⟩, -⟩ := h
    have hrow := (mem_suggestionRows.mp (hfetched other hother)).1
    obtain rfl : other = pkg := List.inj_on_of_nodup_map db.packageIDs hrow hpkg hid
    exact ⟨hother, hecosystem⟩
  · rintro ⟨hmem, hecosystem⟩
    obtain ⟨-, hworkspace, hstatus⟩ := mem_suggestionRows.mp (hfetched pkg hmem)
    simp only [approvable, Bool.and_eq_true, List.contains_iff_mem, List.mem_map,
      List.mem_filter, decide_eq_true_iff]
    exact ⟨⟨hworkspace, pkg, ⟨hmem, hecosystem⟩, rfl⟩, hstatus⟩

theorem IsSuggestions.mem_rows (h : IsSuggestions lower collation db workspaceID suggestions)
    {pkg : Package} (hpkg : pkg ∈ suggestions) :
    pkg ∈ suggestionRows lower db workspaceID noPackageFilters := by
  obtain ⟨ordered, hperm, -, rfl⟩ := h
  exact hperm.mem_iff.mp (List.mem_of_mem_drop (List.mem_of_mem_take hpkg))

/-- A request for an ecosystem is exact if and only if every suggestion of the ecosystem is
fetched. -/
theorem approvedExactly_of_fetches
    (h : IsSuggestions lower collation db workspaceID suggestions) {req : BulkApproveRequest}
    (hreq : req.Fetches) :
    ApprovedExactly f db workspaceID (some req)
        (handleBulkApprove f maxBulkApprove db workspaceID suggestions (some req)) ↔
      ∀ pkg ∈ suggestionRows lower db workspaceID noPackageFilters,
        pkg.ecosystem = req.ecosystem → pkg ∈ suggestions := by
  rw [handle_of_ecosystem hreq rfl, approvedExactly_iff fun pkg => status_of_approvable]
  constructor
  · intro hexact pkg hpkg hecosystem
    obtain ⟨hrow, hof⟩ := mem_suggestionRows.mp hpkg
    have hintended := (intended_of_fetches (f := f) hreq pkg).mpr ⟨hof, hecosystem⟩
    rw [← hexact pkg hrow, approvable_fetched_iff (fun _ => h.mem_rows) hrow] at hintended
    exact hintended.1
  · intro hall pkg hrow
    rw [Bool.eq_iff_iff, approvable_fetched_iff (fun _ => h.mem_rows) hrow,
      intended_of_fetches hreq]
    constructor
    · rintro ⟨hmem, hecosystem⟩
      exact ⟨(mem_suggestionRows.mp (h.mem_rows hmem)).2, hecosystem⟩
    · rintro ⟨hof, hecosystem⟩
      exact ⟨hall pkg (mem_suggestionRows.mpr ⟨hrow, hof⟩) hecosystem, hecosystem⟩

theorem firstPage (ordered : List Package) :
    pageOf ordered 1 suggestionLimit = ordered.take suggestionLimit := by
  simp [pageOf]

variable (f maxBulkApprove lower collation) in
/-- A request approves just the suggestions that it is for, whatever the order of equal ones, if
and only if it is not for an ecosystem, or at most ten thousand suggestions of the workspace come
before or with any one of the ecosystem. -/
theorem bulkApproval_exact_iff (db : Database) (workspaceID : Nat)
    (req : Option BulkApproveRequest) :
    (∀ suggestions, IsSuggestions lower collation db workspaceID suggestions →
      ApprovedExactly f db workspaceID req
        (handleBulkApprove f maxBulkApprove db workspaceID suggestions req)) ↔
      ∀ r, req = some r → r.Fetches →
        ∀ pkg ∈ suggestionRows lower db workspaceID noPackageFilters,
          pkg.ecosystem = r.ecosystem →
            (clauseOrder (PackageColumn.order collation) defaultPackageSort).upTo
              (suggestionRows lower db workspaceID noPackageFilters) pkg ≤ suggestionLimit := by
  constructor
  · intro hexact r hr hfetches pkg hpkg hecosystem
    subst hr
    by_contra hmany
    obtain ⟨ordered, hperm, hsorted, hnot⟩ :=
      SortOrder.exists_notMem_take nodup_suggestionRows (not_le.mp hmany)
    have hanswer : IsSuggestions lower collation db workspaceID (ordered.take suggestionLimit) :=
      ⟨ordered, hperm, hsorted, (firstPage ordered).symm⟩
    exact hnot ((approvedExactly_of_fetches hanswer hfetches).mp (hexact _ hanswer) pkg hpkg
      hecosystem)
  · intro hfew suggestions hanswer
    by_cases hfetches : ∃ r, req = some r ∧ r.Fetches
    · obtain ⟨r, rfl, hfetches⟩ := hfetches
      refine (approvedExactly_of_fetches hanswer hfetches).mpr fun pkg hpkg hecosystem => ?_
      have hup := hfew r rfl hfetches pkg hpkg hecosystem
      obtain ⟨ordered, hperm, hsorted, rfl⟩ := hanswer
      rw [firstPage]
      rw [← SortOrder.upTo_perm hperm] at hup
      exact hsorted.mem_take_of_upTo_le (hperm.mem_iff.mpr hpkg) hup
    · exact approvedExactly_of_not_fetches fun r hr hf => hfetches ⟨r, hr, hf⟩

end Approval

/-! ## A crowded workspace -/

/-- IDs that are written as numbers. -/
def numberIDs : IDFormat where
  parse := fun s => (String.ofList s).isNat
  cast := fun s => (String.ofList s).toNat?
  text := itoa
  cast_text := Nat.toNat?_repr

/-- Suggestions in the order of their downloads: Go packages and, after ten thousand of them, npm
packages. -/
def crowdedPackage (i : Nat) : Package :=
  ⟨i, 0, itoa i, if i < suggestionLimit then "go".toList else "npm".toList, [], "auto".toList,
    statusSuggested, -i, 0⟩

/-- Ten thousand Go packages and an npm package are suggested. -/
def crowded : Database where
  packages := (List.range (suggestionLimit + 1)).map crowdedPackage
  releases := []
  diffs := []
  analyses := []
  alerts := []
  users := []
  packageIDs := by
    rw [List.map_map]
    exact (List.map_id _).symm ▸ List.nodup_range
  releaseIDs := List.nodup_nil
  alertIDs := List.nodup_nil
  userIDs := List.nodup_nil

theorem crowded_packages :
    crowded.packages = (List.range (suggestionLimit + 1)).map crowdedPackage := by
  rw [crowded]

theorem sorted_crowded :
    (clauseOrder (PackageColumn.order byCharacters) defaultPackageSort).Sorted
      crowded.packages := by
  unfold SortOrder.Sorted
  rw [crowded_packages, List.pairwise_map]
  refine List.Pairwise.imp (fun {i j} hlt => ?_) List.pairwise_lt_range
  have hdownloads : (-(j : Int)) ≤ -i := by omega
  have hless : ¬(-(i : Int)) ≤ -j := by omega
  simp [clauseOrder, defaultPackageSort, SortOrder.thenBy, SortOrder.reverse, SortOrder.comap,
    SortOrder.ofLinear, PackageColumn.order, crowdedPackage, hlt.le, hlt]

/-- The npm package is not among the first ten thousand. -/
theorem notMem_take_crowded :
    crowdedPackage suggestionLimit ∉ crowded.packages.take suggestionLimit := by
  intro hmem
  rw [crowded_packages, ← List.map_take, List.take_range, List.mem_map] at hmem
  obtain ⟨i, hi, hsame⟩ := hmem
  have hid : i = suggestionLimit := congrArg Package.id hsame
  rw [hid, List.mem_range] at hi
  omega

/-- The npm package stays a suggestion when the suggested npm packages are approved. -/
theorem npm_left_out :
    ¬∀ suggestions, IsSuggestions lowerNothing byCharacters crowded 0 suggestions →
      ApprovedExactly numberIDs crowded 0 (some ⟨[], "npm".toList, false⟩)
        (handleBulkApprove numberIDs 1000 crowded 0 suggestions
          (some ⟨[], "npm".toList, false⟩)) := by
  have hrows : suggestionRows lowerNothing crowded 0 noPackageFilters = crowded.packages := by
    refine List.filter_eq_self.mpr fun pkg hpkg => ?_
    rw [crowded_packages, List.mem_map] at hpkg
    obtain ⟨i, -, rfl⟩ := hpkg
    rfl
  have hanswer : IsSuggestions lowerNothing byCharacters crowded 0
      (crowded.packages.take suggestionLimit) :=
    ⟨crowded.packages, List.Perm.of_eq hrows.symm, sorted_crowded, (firstPage _).symm⟩
  have hfetches : BulkApproveRequest.Fetches ⟨[], "npm".toList, false⟩ :=
    ⟨rfl, rfl, Or.inr (Or.inl rfl)⟩
  have hlast : crowdedPackage suggestionLimit ∈ crowded.packages := by
    rw [crowded_packages]
    exact List.mem_map_of_mem (List.mem_range.mpr (Nat.lt_succ_self _))
  have hnpm : (crowdedPackage suggestionLimit).ecosystem = "npm".toList := by
    rw [crowdedPackage, if_neg (Nat.lt_irrefl _)]
  have hnot := notMem_take_crowded
  -- no more of the workspace is needed, which is too large to be computed with
  generalize crowded = db at hrows hanswer hlast hnot ⊢
  generalize crowdedPackage suggestionLimit = pkg at hlast hnpm hnot
  intro hexact
  have hfetched := (approvedExactly_of_fetches hanswer hfetches).mp (hexact _ hanswer)
  rw [hrows] at hfetched
  exact hnot (hfetched pkg hlast hnpm)

end Listings
end Veilence

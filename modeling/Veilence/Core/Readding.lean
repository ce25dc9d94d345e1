import Veilence.Core.Lifecycle

/-!
# Adding a package again

A package that exists in its registry can be added if none with its name is monitored, suggested
or blocked.  The code asks whether there is a row with the name, and a removed package keeps its
row.

Main results:

- Theorems {lit}`createPackage_of_row` and {lit}`createPackage_of_none`: {lit}`CreatePackage`
  where there is a row with the name, and where there is none.
- Theorem {lit}`rowsNamed_importPackages`: what {lit}`ImportPackages` makes of a name.
- Theorem {lit}`readdable_iff`: after every history, when a package can be added.
- Theorem {lit}`not_readdable_removed`: a package that has been removed cannot.
-/

namespace Veilence
namespace Core

open Go Foundation

variable {env : Env} {db db₀ : Database} {w : ID} {name ecosystem : GoString} {s : World}

/-! ## The property -/

/-- The packages of a workspace with a name and an ecosystem. -/
def rowsNamed (db : Database) (w : ID) (name ecosystem : GoString) : List (Entry Package) :=
  (packagesOf db w).filter fun p => p.2.name = name ∧ p.2.ecosystem = ecosystem

/-- One of them is active, suggested or blocked. -/
def Taken (db : Database) (w : ID) (name ecosystem : GoString) : Prop :=
  ∃ e ∈ rowsNamed db w name ecosystem, e.2.status ≠ .removed

instance : Decidable (Taken db w name ecosystem) :=
  inferInstanceAs (Decidable (∃ e ∈ rowsNamed db w name ecosystem, e.2.status ≠ .removed))

/-- The registry of the ecosystem knows the package. -/
def ExistsInRegistry (env : Env) (name ecosystem : GoString) : Prop :=
  ∃ getPackage, env.registries ecosystem = some getPackage ∧ getPackage name = true

/-- The database answers, generated IDs are new, the workspace exists, and there are registries
for the three ecosystems only. -/
structure Works (env : Env) (w : ID) (s : World) : Prop where
  answers : ∀ n, env.failure n = none
  fresh : ∀ n, s.calls ≤ n → s.db.packages.get? (env.newID n) = none
  distinct : Function.Injective env.newID
  workspace : (s.db.workspaces.get? w).isSome = true
  registries : ∀ e, (env.registries e).isSome = true →
    e ∈ ["python".toList, "npm".toList, "go".toList]

/-- {lit}`CreatePackage` returns a conflict, {lit}`ImportPackages` skips the package, and
nothing changes; nor do the packages with the name change in a longer import. -/
structure Refused (env : Env) (w : ID) (name ecosystem : GoString) (s : World) : Prop where
  conflict : (PackageService.createPackage env w name ecosystem s).1 =
    .error ⟨"package already monitored: ".toList, .conflict⟩
  created_db : (PackageService.createPackage env w name ecosystem s).2.db = s.db
  skipped : (PackageService.importPackages env w [⟨name, ecosystem⟩] s).1 = .ok ⟨0, 1, []⟩
  imported_db : (PackageService.importPackages env w [⟨name, ecosystem⟩] s).2.db = s.db
  listed : ∀ entries,
    rowsNamed (PackageService.importPackages env w entries s).2.db w name ecosystem =
      rowsNamed s.db w name ecosystem

/-- {lit}`CreatePackage` and {lit}`ImportPackages` leave one package with the name, an active
one. -/
structure Added (env : Env) (w : ID) (name ecosystem : GoString) (s : World) : Prop where
  created : ∃ e, (PackageService.createPackage env w name ecosystem s).1 = .ok e ∧
    e.2.status = .active ∧
      rowsNamed (PackageService.createPackage env w name ecosystem s).2.db w name ecosystem = [e]
  imported : (PackageService.importPackages env w [⟨name, ecosystem⟩] s).1 = .ok ⟨1, 0, []⟩
  listed : ∀ entries, ⟨name, ecosystem⟩ ∈ entries → ∃ e,
    rowsNamed (PackageService.importPackages env w entries s).2.db w name ecosystem = [e] ∧
      e.2.status = .active

/-- The package can be added, unless one with its name is active, suggested or blocked. -/
def Readdable (env : Env) (w : ID) (name ecosystem : GoString) (s : World) : Prop :=
  (Taken s.db w name ecosystem → Refused env w name ecosystem s) ∧
    (¬Taken s.db w name ecosystem → Added env w name ecosystem s)

/-! ## Rows with a name -/

/-- A new row comes first. -/
theorem entries_insert_of_new {K V : Type} [DecidableEq K] {t : Table K V} {k : K} {v : V}
    (h : t.get? k = none) : (t.insert k v).entries = (k, v) :: t.entries := by
  have hkeys : ∀ e ∈ t.entries, e.1 ≠ k := by
    intro e he hk
    have hget := Table.get?_of_mem he
    rw [hk, h] at hget
    exact Option.some_ne_none e.2 hget.symm
  change (k, v) :: t.entries.filter (fun e => e.1 ≠ k) = _
  rw [List.filter_eq_self.mpr fun e he => decide_eq_true (hkeys e he)]

/-- The rows with a name after a new row. -/
theorem rowsNamed_insert {id : ID} {pkg : Package} (h : db.packages.get? id = none) :
    rowsNamed (db.set .packages (db.packages.insert id pkg)) w name ecosystem =
      if pkg.workspaceID = w ∧ pkg.name = name ∧ pkg.ecosystem = ecosystem then
        (id, pkg) :: rowsNamed db w name ecosystem
      else rowsNamed db w name ecosystem := by
  unfold rowsNamed packagesOf
  rw [packages_set, entries_insert_of_new h]
  by_cases hw : pkg.workspaceID = w
  · by_cases hname : pkg.name = name ∧ pkg.ecosystem = ecosystem
    · simp [hw, hname]
    · simp [hw, hname]
  · simp [hw]

/-- There is a row with the name exactly if the repository finds one. -/
theorem any_eq_decide :
    ((packagesOf db w).any fun p => p.2.name = name ∧ p.2.ecosystem = ecosystem) =
      decide (rowsNamed db w name ecosystem ≠ []) := by
  rw [Bool.eq_iff_iff, decide_eq_true_iff, List.any_eq_true, rowsNamed, ne_eq,
    List.filter_eq_nil_iff]
  push Not
  rfl

/-- Two packages with one name are the same one. -/
theorem eq_of_mem_rowsNamed (h : UniqueNames db) {e e' : Entry Package}
    (he : e ∈ rowsNamed db w name ecosystem) (he' : e' ∈ rowsNamed db w name ecosystem) :
    e = e' := by
  have hrow : ∀ e ∈ rowsNamed db w name ecosystem, db.packages.get? e.1 = some e.2 ∧
      e.2.workspaceID = w ∧ e.2.name = name ∧ e.2.ecosystem = ecosystem := by
    intro e he
    obtain ⟨hmem, hname⟩ := List.mem_filter.mp he
    obtain ⟨hin, hw⟩ := List.mem_filter.mp hmem
    exact ⟨Table.get?_of_mem hin, of_decide_eq_true hw, of_decide_eq_true hname⟩
  obtain ⟨hget, hw, hname, heco⟩ := hrow e he
  obtain ⟨hget', hw', hname', heco'⟩ := hrow e' he'
  have hkey : e.1 = e'.1 := h e.1 e'.1 e.2 e'.2 hget hget' (hw.trans hw'.symm)
    (hname.trans hname'.symm) (heco.trans heco'.symm)
  rw [hkey, hget'] at hget
  exact Prod.ext hkey (Option.some.inj hget).symm

/-! ## The calls -/

section Calls

theorem bind_eq_of_ok {α β : Type} {p : Op α} {f : α → Op β} {a : α} {s' : World}
    (h : p s = (.ok a, s')) : (p >>= f) s = f a s' := by
  change Procedure.next f (p s) = _
  rw [h]
  rfl

theorem bind_eq_of_error {α β : Type} {p : Op α} {f : α → Op β} {e : Failure} {s' : World}
    (h : p s = (.error e, s')) : (p >>= f) s = (.error e, s') := by
  change Procedure.next f (p s) = _
  rw [h]
  rfl

/-- The check of the registry passes exactly if the name has a proper length. -/
theorem validatePackageExists_eq (hknown : ExistsInRegistry env name ecosystem) :
    PackageService.validatePackageExists env name ecosystem =
      if name = [] ∨ 200 < name.length then
        Procedure.fail ⟨"invalid package name".toList, .validation⟩
      else pure () := by
  obtain ⟨getPackage, hregistry, hget⟩ := hknown
  unfold PackageService.validatePackageExists
  rw [hregistry]
  simp only [hget, Bool.not_true]
  rfl

/-- The database answers whether there is a row with the name. -/
theorem existsByWorkspaceAndName_eq (h : Works env w s) :
    PackageRepo.existsByWorkspaceAndName env w name ecosystem s =
      (.ok (decide (rowsNamed s.db w name ecosystem ≠ [])), { s with calls := s.calls + 1 }) := by
  simp only [PackageRepo.existsByWorkspaceAndName, query, call, h.answers, any_eq_decide]

/-- The database has one more call behind it. -/
theorem Works.count (h : Works env w s) : Works env w { s with calls := s.calls + 1 } where
  answers := h.answers
  fresh n hn := h.fresh n (Nat.le_of_succ_le hn)
  distinct := h.distinct
  workspace := h.workspace
  registries := h.registries

/-- The row that is created from a package. -/
def stamped (env : Env) (n : Nat) (pkg : Package) : Package :=
  { pkg with createdAt := env.now n, updatedAt := env.now n }

/-- The world after a new row. -/
def withRow (env : Env) (s : World) (pkg : Package) : World :=
  { s with
    db := s.db.set .packages (s.db.packages.insert (env.newID s.calls) (stamped env s.calls pkg))
    calls := s.calls + 1 }

/-- A package is created if no row has its name. -/
theorem create_eq (h : Works env w s) {pkg : Package} (hw : pkg.workspaceID = w)
    (heco : runeCount pkg.ecosystem ≤ 10) (hnone : rowsNamed s.db w pkg.name pkg.ecosystem = []) :
    PackageRepo.create env pkg s =
      (.ok (env.newID s.calls, stamped env s.calls pkg), withRow env s pkg) := by
  have hname : ((packagesOf s.db pkg.workspaceID).any fun p =>
      p.2.name = pkg.name ∧ p.2.ecosystem = pkg.ecosystem) = false := by
    rw [any_eq_decide, hw, hnone]
    rfl
  have hworkspace : (s.db.workspaces.get? pkg.workspaceID).isNone = false := by
    have hsome := h.workspace
    rw [← hw] at hsome
    rw [← Option.not_isSome, hsome]
    rfl
  simp only [PackageRepo.create, call, h.answers, Nat.not_lt.mpr heco, if_false,
    h.fresh s.calls le_rfl, Option.isSome_none, Bool.false_eq_true, hname, hworkspace]
  rfl

/-- The world still works after a new row. -/
theorem Works.withRow (h : Works env w s) (pkg : Package) : Works env w (withRow env s pkg) where
  answers := h.answers
  fresh n hn := by
    have hne : env.newID n ≠ env.newID s.calls := by
      intro heq
      have hsame := h.distinct heq
      subst hsame
      exact absurd hn (Nat.not_succ_le_self _)
    change (Database.packages (s.db.set .packages _)).get? (env.newID n) = none
    rw [packages_set, Table.get?_insert_of_ne hne]
    exact h.fresh n (Nat.le_of_succ_le hn)
  distinct := h.distinct
  workspace := by
    change ((Database.workspaces (s.db.set .packages _)).get? w).isSome = true
    rw [workspaces_set]
    exact h.workspace
  registries := h.registries

/-- The ecosystems of the registries fit into their column. -/
theorem runeCount_ecosystem (h : Works env w s) (hknown : ExistsInRegistry env name ecosystem) :
    runeCount ecosystem ≤ 10 := by
  obtain ⟨getPackage, hregistry, -⟩ := hknown
  have hmem := h.registries ecosystem (by rw [hregistry]; rfl)
  simp only [List.mem_cons, List.not_mem_nil, or_false] at hmem
  rcases hmem with rfl | rfl | rfl
  · decide
  · decide
  · decide

/-- A name of an improper length. -/
theorem createPackage_of_length (hknown : ExistsInRegistry env name ecosystem)
    (hlength : name = [] ∨ 200 < name.length) :
    (PackageService.createPackage env w name ecosystem s).1 =
      .error ⟨"invalid package name".toList, .validation⟩ := by
  have hvalidate : PackageService.validatePackageExists env name ecosystem s =
      (.error ⟨"invalid package name".toList, .validation⟩, s) := by
    rw [validatePackageExists_eq hknown, if_pos hlength]
    rfl
  unfold PackageService.createPackage
  rw [bind_eq_of_error hvalidate]

theorem validatePackageExists_of_length (hknown : ExistsInRegistry env name ecosystem)
    (hlength : ¬(name = [] ∨ 200 < name.length)) :
    PackageService.validatePackageExists env name ecosystem s = (.ok (), s) := by
  rw [validatePackageExists_eq hknown, if_neg hlength]
  rfl

theorem wrapped_existsByWorkspaceAndName (h : Works env w s) :
    wrapped "checking existence: "
        (PackageRepo.existsByWorkspaceAndName env w name ecosystem) s =
      (.ok (decide (rowsNamed s.db w name ecosystem ≠ [])), { s with calls := s.calls + 1 }) := by
  unfold wrapped Procedure.mapError
  rw [existsByWorkspaceAndName_eq h]
  rfl

/-- {lit}`CreatePackage` where there is a row with the name. -/
theorem createPackage_of_row (h : Works env w s) (hknown : ExistsInRegistry env name ecosystem)
    (hlength : ¬(name = [] ∨ 200 < name.length)) (hrow : rowsNamed s.db w name ecosystem ≠ []) :
    PackageService.createPackage env w name ecosystem s =
      (.error ⟨"package already monitored: ".toList, .conflict⟩,
        { s with calls := s.calls + 1 }) := by
  unfold PackageService.createPackage
  rw [bind_eq_of_ok (validatePackageExists_of_length hknown hlength),
    bind_eq_of_ok (wrapped_existsByWorkspaceAndName h)]
  simp only [hrow, ne_eq, not_false_eq_true, decide_true]
  rfl

/-- {lit}`CreatePackage` where there is none. -/
theorem createPackage_of_none (h : Works env w s) (hknown : ExistsInRegistry env name ecosystem)
    (hlength : ¬(name = [] ∨ 200 < name.length)) (hnone : rowsNamed s.db w name ecosystem = []) :
    let pkg := PackageService.newPackage w name ecosystem .manual
    let s' := { s with calls := s.calls + 1 }
    (PackageService.createPackage env w name ecosystem s).1 =
        .ok (env.newID s'.calls, stamped env s'.calls pkg) ∧
      (PackageService.createPackage env w name ecosystem s).2.db = (withRow env s' pkg).db := by
  intro pkg s'
  have hcreate : PackageRepo.create env pkg s' =
      (.ok (env.newID s'.calls, stamped env s'.calls pkg), withRow env s' pkg) :=
    create_eq h.count rfl (runeCount_ecosystem h hknown) hnone
  unfold PackageService.createPackage
  rw [bind_eq_of_ok (validatePackageExists_of_length hknown hlength),
    bind_eq_of_ok (wrapped_existsByWorkspaceAndName h)]
  simp only [hnone, ne_eq, not_true_eq_false, decide_false]
  have hfree : (Procedure.failIf false ⟨"package already monitored: ".toList, .conflict⟩ : Op Unit)
      s' = (.ok (), s') := rfl
  rw [bind_eq_of_ok hfree, bind_eq_of_ok hcreate]
  exact ⟨rfl, rfl⟩

end Calls

/-! ## Imports -/

section Imports

variable {result : ImportResult} {entry : ImportEntry}

theorem attempt_eq {α : Type} {p : Op α} {r : Except Failure α} {s' : World} (h : p s = (r, s')) :
    p.attempt s = (.ok r, s') := by
  unfold Procedure.attempt
  rw [h]

/-- An entry whose name has a row is skipped. -/
theorem importEntry_of_row (h : Works env w s)
    (hrow : rowsNamed s.db w entry.name entry.ecosystem ≠ []) :
    PackageService.importEntry env w result entry s =
      (.ok { result with skipped := result.skipped + 1 }, { s with calls := s.calls + 1 }) := by
  unfold PackageService.importEntry
  rw [bind_eq_of_ok (attempt_eq (existsByWorkspaceAndName_eq h))]
  simp only [hrow, ne_eq, not_false_eq_true, decide_true]
  rfl

/-- An entry whose name has none is looked up in the registry. -/
theorem importEntry_of_no_row (h : Works env w s)
    (hnone : rowsNamed s.db w entry.name entry.ecosystem = []) :
    PackageService.importEntry env w result entry s =
      PackageService.importUnknown env w result entry { s with calls := s.calls + 1 } := by
  unfold PackageService.importEntry
  rw [bind_eq_of_ok (attempt_eq (existsByWorkspaceAndName_eq h))]
  simp only [hnone, ne_eq, not_true_eq_false, decide_false]

/-- The row of an entry. -/
def importedPackage (w : ID) (entry : ImportEntry) : Package :=
  PackageService.newPackage w entry.name entry.ecosystem .imported

/-- An entry is imported if its name has no row and exists in the registry. -/
theorem importEntry_of_none (h : Works env w s)
    (hknown : ExistsInRegistry env entry.name entry.ecosystem)
    (hlength : ¬(entry.name = [] ∨ 200 < entry.name.length))
    (hnone : rowsNamed s.db w entry.name entry.ecosystem = []) :
    PackageService.importEntry env w result entry s =
      (.ok { result with imported := result.imported + 1 },
        withRow env { s with calls := s.calls + 1 } (importedPackage w entry)) := by
  have hcreate : PackageRepo.create env (importedPackage w entry)
        { s with calls := s.calls + 1 } =
      (.ok (env.newID (s.calls + 1), stamped env (s.calls + 1) (importedPackage w entry)),
        withRow env { s with calls := s.calls + 1 } (importedPackage w entry)) :=
    create_eq h.count rfl (runeCount_ecosystem h hknown) hnone
  rw [importEntry_of_no_row h hnone]
  unfold PackageService.importUnknown
  rw [bind_eq_of_ok (attempt_eq (validatePackageExists_of_length hknown hlength))]
  exact bind_eq_of_ok (attempt_eq hcreate)

/-- A package is created or nothing changes. -/
theorem create_cases (h : Works env w s) {pkg : Package} (hw : pkg.workspaceID = w)
    (hnone : rowsNamed s.db w pkg.name pkg.ecosystem = []) :
    (∃ e, PackageRepo.create env pkg s = (.error e, { s with calls := s.calls + 1 })) ∨
      ∃ e, PackageRepo.create env pkg s = (.ok e, withRow env s pkg) := by
  by_cases heco : runeCount pkg.ecosystem ≤ 10
  · exact Or.inr ⟨_, create_eq h hw heco hnone⟩
  · left
    refine ⟨⟨"creating package: ".toList, .driver "value too long".toList⟩, ?_⟩
    simp only [PackageRepo.create, call, h.answers, Nat.not_le.mp heco, if_true]

/-- The check of the registry leaves the database. -/
theorem validatePackageExists_state :
    (PackageService.validatePackageExists env name ecosystem s).2 = s := by
  unfold PackageService.validatePackageExists
  split_ifs
  · rfl
  · cases env.registries ecosystem with
    | none => rfl
    | some getPackage =>
        unfold Procedure.failIf
        dsimp only
        split_ifs
        · rfl
        · rfl

/-- An entry adds a row with its name, where there was none, or changes nothing. -/
theorem importEntry_cases (h : Works env w s) (result : ImportResult) (entry : ImportEntry) :
    ∃ result' s', PackageService.importEntry env w result entry s = (.ok result', s') ∧
      Works env w s' ∧
        (s'.db = s.db ∨ rowsNamed s.db w entry.name entry.ecosystem = [] ∧
          s'.db = (withRow env { s with calls := s.calls + 1 } (importedPackage w entry)).db) := by
  by_cases hrow : rowsNamed s.db w entry.name entry.ecosystem = []
  · rw [importEntry_of_no_row h hrow]
    have hvalidate : PackageService.validatePackageExists env entry.name entry.ecosystem
        { s with calls := s.calls + 1 } =
          ((PackageService.validatePackageExists env entry.name entry.ecosystem
            { s with calls := s.calls + 1 }).1, { s with calls := s.calls + 1 }) :=
      Prod.ext rfl validatePackageExists_state
    unfold PackageService.importUnknown
    rw [bind_eq_of_ok (attempt_eq hvalidate)]
    cases (PackageService.validatePackageExists env entry.name entry.ecosystem
        { s with calls := s.calls + 1 }).1 with
    | error e => exact ⟨_, _, rfl, h.count, Or.inl rfl⟩
    | ok _ =>
        have hnone : rowsNamed s.db w (importedPackage w entry).name
            (importedPackage w entry).ecosystem = [] := hrow
        rcases create_cases h.count rfl hnone with ⟨e, hcreate⟩ | ⟨e, hcreate⟩
        · exact ⟨_, _, bind_eq_of_ok (attempt_eq hcreate), h.count.count, Or.inl rfl⟩
        · exact ⟨_, _, bind_eq_of_ok (attempt_eq hcreate), h.count.withRow _, Or.inr ⟨hrow, rfl⟩⟩
  · exact ⟨_, _, importEntry_of_row h hrow, h.count, Or.inl rfl⟩

variable (name ecosystem) in
/-- An entry leaves the rows with a name that has one. -/
theorem rowsNamed_importEntry (h : Works env w s) (result : ImportResult) (entry : ImportEntry) :
    ∃ result' s', PackageService.importEntry env w result entry s = (.ok result', s') ∧
      Works env w s' ∧
        (rowsNamed s'.db w name ecosystem = rowsNamed s.db w name ecosystem ∨
          rowsNamed s.db w name ecosystem = [] ∧ entry = ⟨name, ecosystem⟩) := by
  obtain ⟨result', s', hrun, hworks, hsame | ⟨hnone, hdb⟩⟩ := importEntry_cases h result entry
  · exact ⟨result', s', hrun, hworks, Or.inl (by rw [hsame])⟩
  · refine ⟨result', s', hrun, hworks, ?_⟩
    rw [hdb, withRow, rowsNamed_insert (h.count.fresh _ le_rfl)]
    split_ifs with hnames
    · right
      obtain ⟨-, rfl, rfl⟩ := hnames
      exact ⟨hnone, rfl⟩
    · exact Or.inl rfl

/-- An import leaves the rows with a name that has one. -/
theorem rowsNamed_foldl_of_ne_nil (h : Works env w s) (hrow : rowsNamed s.db w name ecosystem ≠ [])
    (result : ImportResult) (entries : List ImportEntry) :
    rowsNamed (Procedure.foldl (PackageService.importEntry env w) result entries s).2.db w name
      ecosystem = rowsNamed s.db w name ecosystem := by
  induction entries generalizing s result with
  | nil => rfl
  | cons entry entries ih =>
      obtain ⟨result', s', hrun, hworks, hsame | ⟨hnone, -⟩⟩ :=
        rowsNamed_importEntry name ecosystem h result entry
      · unfold Procedure.foldl
        rw [bind_eq_of_ok hrun, ih hworks (by rwa [hsame]), hsame]
      · exact absurd hnone hrow

/-- An import with the name adds one active row, where there was none. -/
theorem rowsNamed_foldl_of_nil (h : Works env w s) (hknown : ExistsInRegistry env name ecosystem)
    (hlength : ¬(name = [] ∨ 200 < name.length)) (hnone : rowsNamed s.db w name ecosystem = [])
    (result : ImportResult) {entries : List ImportEntry}
    (hmem : (⟨name, ecosystem⟩ : ImportEntry) ∈ entries) :
    ∃ e, rowsNamed (Procedure.foldl (PackageService.importEntry env w) result entries s).2.db w name
      ecosystem = [e] ∧ e.2.status = .active := by
  induction entries generalizing s result with
  | nil => exact absurd hmem List.not_mem_nil
  | cons entry entries ih =>
      unfold Procedure.foldl
      by_cases hentry : entry = ⟨name, ecosystem⟩
      · subst hentry
        have hrow : rowsNamed (withRow env { s with calls := s.calls + 1 }
              (importedPackage w ⟨name, ecosystem⟩)).db w name ecosystem =
            [(env.newID (s.calls + 1),
              stamped env (s.calls + 1) (importedPackage w ⟨name, ecosystem⟩))] := by
          rw [withRow, rowsNamed_insert (h.count.fresh _ le_rfl), hnone]
          exact if_pos ⟨rfl, rfl, rfl⟩
        rw [bind_eq_of_ok (importEntry_of_none h hknown hlength hnone),
          rowsNamed_foldl_of_ne_nil (h.count.withRow _) (by rw [hrow]; exact List.cons_ne_nil _ _),
          hrow]
        exact ⟨_, rfl, rfl⟩
      · have hrest : (⟨name, ecosystem⟩ : ImportEntry) ∈ entries :=
          (List.mem_cons.mp hmem).resolve_left (Ne.symm hentry)
        obtain ⟨result', s', hrun, hworks, hsame | ⟨-, heq⟩⟩ :=
          rowsNamed_importEntry name ecosystem h result entry
        · rw [bind_eq_of_ok hrun]
          exact ih hworks (by rwa [hsame]) result' hrest
        · exact absurd heq hentry

end Imports

/-! ## Adding a package -/

/-- Where there is a row with the name, the package is refused. -/
theorem refused_of_row (h : Works env w s) (hknown : ExistsInRegistry env name ecosystem)
    (hlength : ¬(name = [] ∨ 200 < name.length)) (hrow : rowsNamed s.db w name ecosystem ≠ []) :
    Refused env w name ecosystem s := by
  have hcreate := createPackage_of_row h hknown hlength hrow
  have himport : PackageService.importPackages env w [⟨name, ecosystem⟩] s =
      (.ok ⟨0, 1, []⟩, { s with calls := s.calls + 1 }) := by
    unfold PackageService.importPackages Procedure.foldl
    rw [bind_eq_of_ok (importEntry_of_row h hrow)]
    rfl
  constructor
  · rw [hcreate]
  · rw [hcreate]
  · rw [himport]
  · rw [himport]
  · exact fun entries => rowsNamed_foldl_of_ne_nil h hrow _ entries

/-- Where there is none, the package is added. -/
theorem added_of_none (h : Works env w s) (hknown : ExistsInRegistry env name ecosystem)
    (hlength : ¬(name = [] ∨ 200 < name.length)) (hnone : rowsNamed s.db w name ecosystem = []) :
    Added env w name ecosystem s := by
  obtain ⟨hresult, hdb⟩ := createPackage_of_none h hknown hlength hnone
  constructor
  · refine ⟨_, hresult, rfl, ?_⟩
    rw [hdb, withRow, rowsNamed_insert (h.count.fresh _ le_rfl), hnone]
    exact if_pos ⟨rfl, rfl, rfl⟩
  · unfold PackageService.importPackages Procedure.foldl
    rw [bind_eq_of_ok (importEntry_of_none h hknown hlength hnone)]
    rfl
  · exact fun entries hmem => rowsNamed_foldl_of_nil h hknown hlength hnone _ hmem

/-- After every history a package that its registry knows can be added exactly if its name has a
proper length and no removed package has it. -/
theorem readdable_iff (hinit : UniqueNames db₀) (history : List LifeStep)
    (hreached : s.db = runHistory db₀ history) (h : Works env w s)
    (hknown : ExistsInRegistry env name ecosystem) :
    Readdable env w name ecosystem s ↔ name ≠ [] ∧ name.length ≤ 200 ∧
      ∀ e ∈ rowsNamed s.db w name ecosystem, e.2.status ≠ .removed := by
  have hunique : UniqueNames s.db := hreached ▸ uniqueNames_history hinit history
  constructor
  · intro hreaddable
    have hlength : ¬(name = [] ∨ 200 < name.length) := by
      intro hbad
      have hinvalid := createPackage_of_length (w := w) (s := s) hknown hbad
      by_cases htaken : Taken s.db w name ecosystem
      · have hconflict := (hreaddable.1 htaken).conflict
        rw [hinvalid] at hconflict
        injection hconflict with hfailure
        exact nomatch congrArg Failure.cause hfailure
      · obtain ⟨e, hok, -⟩ := (hreaddable.2 htaken).created
        rw [hinvalid] at hok
        injection hok
    push Not at hlength
    refine ⟨hlength.1, hlength.2, fun e he hremoved => ?_⟩
    -- The removed package is the only one with its name, and it has a row.
    have hfree : ¬Taken s.db w name ecosystem := by
      intro htaken
      obtain ⟨e', he', hstatus⟩ := htaken
      rw [eq_of_mem_rowsNamed hunique he' he] at hstatus
      exact hstatus hremoved
    have himported := (hreaddable.2 hfree).imported
    have hrefused := (refused_of_row h hknown (by push Not; exact hlength)
      (List.ne_nil_of_mem he)).skipped
    rw [himported] at hrefused
    injection hrefused with hresult
    exact absurd (congrArg ImportResult.imported hresult) (by decide)
  · intro hcond
    obtain ⟨hne, hlength, hkept⟩ := hcond
    have hproper : ¬(name = [] ∨ 200 < name.length) := by
      push Not
      exact ⟨hne, hlength⟩
    constructor
    · intro htaken
      obtain ⟨e, he, -⟩ := htaken
      exact refused_of_row h hknown hproper (List.ne_nil_of_mem he)
    · intro hfree
      apply added_of_none h hknown hproper
      rw [List.eq_nil_iff_forall_not_mem]
      exact fun e he => hfree ⟨e, he, hkept e he⟩

/-! ## A removed package -/

/-- A workspace without packages. -/
def newDatabase : Database :=
  Store.set (fun _ => Table.empty) .workspaces (Table.single 1 ⟨⟩)

theorem uniqueNames_newDatabase : UniqueNames newDatabase := by
  intro k k' p p' hp
  have hnone : newDatabase.packages.get? k = none := rfl
  rw [hnone] at hp
  exact absurd hp.symm (Option.some_ne_none p)

/-- The packages of npm exist, and nothing fails. -/
def sampleEnv : Env where
  failure := fun _ => none
  newID := fun n => 100 + n
  now := fun n => n
  jobID := fun n => n
  budget := fun _ => none
  commits := fun _ => true
  hasQueue := true
  hasTrigger := true
  registries := fun e => if e = "npm".toList then some fun _ => true else none
  lower := id
  collate := fun _ _ => .eq
  quote := id
  showID := fun _ => []
  formatDate := fun _ => []
  formatTime := fun _ => []

/-- A package is created and removed. -/
def removedHistory : List LifeStep :=
  [.createPackage sampleEnv 0 1 "react".toList "npm".toList, .removePackage sampleEnv 3 1 101]

/-- In the environment the database works with the packages that it has so far. -/
theorem works_sampleEnv {db : Database} {keys : List ID} (hkeys : db.packages.keys = keys)
    {calls : Nat} (hlow : ∀ k ∈ keys, k < 100 + calls)
    (hworkspace : (db.workspaces.get? 1).isSome = true) : Works sampleEnv 1 ⟨db, [], calls⟩ where
  answers := fun _ => rfl
  fresh n hn := by
    cases hget : db.packages.get? (sampleEnv.newID n) with
    | none => rfl
    | some p =>
        have hmem : sampleEnv.newID n ∈ db.packages.keys := by
          rw [Table.mem_keys_iff, hget]
          rfl
        rw [hkeys] at hmem
        have hlt : 100 + n < 100 + calls := hlow _ hmem
        have hle : calls ≤ n := hn
        omega
  distinct := fun n m h => Nat.add_left_cancel h
  workspace := hworkspace
  registries e he := by
    have hnpm : e = "npm".toList := by
      by_contra hne
      simp only [sampleEnv, if_neg hne] at he
      exact absurd he (by decide)
    simp [hnpm]

/-- A package that has been removed cannot be added again. -/
theorem not_readdable_removed :
    UniqueNames newDatabase ∧
      Works sampleEnv 1 ⟨runHistory newDatabase removedHistory, [], 9⟩ ∧
      ExistsInRegistry sampleEnv "react".toList "npm".toList ∧
      ¬Readdable sampleEnv 1 "react".toList "npm".toList
        ⟨runHistory newDatabase removedHistory, [], 9⟩ := by
  have hkeys : (runHistory newDatabase removedHistory).packages.keys = [101] := by
    decide +kernel
  have hworks : Works sampleEnv 1 ⟨runHistory newDatabase removedHistory, [], 9⟩ :=
    works_sampleEnv hkeys (by decide) (by decide +kernel)
  refine ⟨uniqueNames_newDatabase, hworks, ⟨fun _ => true, rfl, rfl⟩, ?_⟩
  intro hreaddable
  have himported := (hreaddable.2 (by decide +kernel)).imported
  have hskipped : (PackageService.importPackages sampleEnv 1 [⟨"react".toList, "npm".toList⟩]
      ⟨runHistory newDatabase removedHistory, [], 9⟩).1 = .ok ⟨0, 1, []⟩ := by
    decide +kernel
  rw [hskipped] at himported
  injection himported with hresult
  exact absurd (congrArg ImportResult.imported hresult) (by decide)

/-- A new package can be added. -/
theorem readdable_new : Readdable sampleEnv 1 "react".toList "npm".toList ⟨newDatabase, [], 0⟩ := by
  have hempty : newDatabase.packages.keys = [] := rfl
  refine (readdable_iff uniqueNames_newDatabase [] rfl
    (works_sampleEnv hempty (by decide) rfl) ⟨fun _ => true, rfl, rfl⟩).mpr
    ⟨by decide, by decide, fun e he => ?_⟩
  exact absurd he List.not_mem_nil

end Core
end Veilence

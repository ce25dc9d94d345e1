import Veilence.Core.Scope

/-!
# Calls and packages inside a region

The methods of the package repository are confined to the region of a workspace: its rows, the
users, and the IDs that calls generate.  The queries read inside what they read in the whole
database, and the statements touch rows inside only, those without a workspace because an earlier
query has found their ID inside.

Main results:

- Theorems {lit}`confined_query` and {lit}`isolated_write`: the rules for the calls.
- Theorem {lit}`confined_findPackage`: a package that is found is inside.
- Theorem {lit}`isolated_create`: a new row with its unique index and foreign keys.
- Theorem {lit}`isolated_removePackage`: the transaction that removes a package, with all that
  the foreign keys do.
-/

namespace Veilence
namespace Core

open Go Foundation

variable {env : Env} {R : TableName → ID → Bool} {w : ID} {db : Database}

/-! ## Calls -/

section Calls

variable {α β : Type}

/-- The generated IDs are inside, and they are different. -/
structure Generates (env : Env) (R : TableName → ID → Bool) : Prop where
  inside : ∀ n t, R t (env.newID n) = true
  injective : Function.Injective env.newID

/-- The region is one of the database, and the IDs that calls will generate are unused. -/
structure Sound (env : Env) (R : TableName → ID → Bool) (w : ID) (s : World) : Prop where
  region : InRegion R w s.db
  generates : Generates env R
  unused : ∀ n, s.calls ≤ n → ∀ t, (s.db t).get? (env.newID n) = none

/-- The rows inside the region, and the rows outside. -/
def compartment (env : Env) (R : TableName → ID → Bool) (w : ID) : Compartment World Database where
  Valid := Sound env R w
  part s := { s with db := inside R s.db }
  rest s := outside R s.db

variable (env R w) in
/-- The operation is confined to the region. -/
def Isolated (p : Op α) : Prop :=
  Confined (compartment env R w) p fun _ => True

/-- A call is counted. -/
theorem Sound.count {s : World} (h : Sound env R w s) :
    Sound env R w { s with calls := s.calls + 1 } where
  region := h.region
  generates := h.generates
  unused n hn := h.unused n (Nat.le_of_succ_le hn)

/-- A confined operation is isolated. -/
theorem isolated_of_confined {p : Op α} {fact : α → Prop}
    (h : Confined (compartment env R w) p fact) : Isolated env R w p :=
  h.mono fun _ _ => trivial

theorem call_of_failure {context : String} {f : Nat → Database → Except Cause (α × Database)}
    {s : World} {text : GoString} (h : env.failure s.calls = some text) :
    call env context f s =
      (.error ⟨context.toList, .driver text⟩, { s with calls := s.calls + 1 }) := by
  rw [call, h]

theorem call_of_error {context : String} {f : Nat → Database → Except Cause (α × Database)}
    {s : World} {cause : Cause} (h : env.failure s.calls = none)
    (hf : f s.calls s.db = .error cause) :
    call env context f s = (.error ⟨context.toList, cause⟩, { s with calls := s.calls + 1 }) := by
  simp only [call, h, hf]

theorem call_of_ok {context : String} {f : Nat → Database → Except Cause (α × Database)}
    {s : World} {r : α × Database} (h : env.failure s.calls = none)
    (hf : f s.calls s.db = .ok r) :
    call env context f s = (.ok r.1, { s with db := r.2, calls := s.calls + 1 }) := by
  simp only [call, h, hf]

/-- A call of the database that does inside what it does to the whole. -/
theorem confined_call {context : String}
    {f : Nat → Database → Except Cause (α × Database)} {fact : α → Prop}
    (h : ∀ s, Sound env R w s →
      f s.calls (inside R s.db) = (f s.calls s.db).map (Prod.map id (inside R)) ∧
        ∀ r, f s.calls s.db = .ok r → outside R r.2 = outside R s.db ∧
          Sound env R w { s with db := r.2, calls := s.calls + 1 } ∧ fact r.1) :
    Confined (compartment env R w) (call env context f) fact := by
  intro s hs
  obtain ⟨hmirror, hkeeps⟩ := h s hs
  cases hfailure : env.failure s.calls with
  | some text =>
      refine .of_eq (call_of_failure hfailure) (call_of_failure hfailure) rfl hs.count ?_
      intro a ha
      injection ha
  | none =>
      cases hf : f s.calls s.db with
      | error cause =>
          rw [hf] at hmirror
          refine .of_eq (call_of_error hfailure hf) (call_of_error hfailure hmirror) rfl hs.count ?_
          intro a ha
          injection ha
      | ok r =>
          rw [hf] at hmirror
          obtain ⟨hrest, hsound, hfact⟩ := hkeeps r hf
          refine .of_eq (call_of_ok hfailure hf)
            (call_of_ok (r := (r.1, inside R r.2)) hfailure hmirror) hrest hsound ?_
          intro a ha
          rw [← Except.ok.inj ha]
          exact hfact

/-- The query reads inside what it reads in the whole database. -/
def Local (R : TableName → ID → Bool) (w : ID) (q : Database → α) : Prop :=
  ∀ db, InRegion R w db → q (inside R db) = q db

/-- A query: its answer is one that some such database gives. -/
theorem confined_query {context : String} {q : Database → α} (h : Local R w q) :
    Confined (compartment env R w) (query env context q)
      fun a => ∃ db, InRegion R w db ∧ q db = a := by
  apply confined_call
  intro s hs
  refine ⟨?_, ?_⟩
  · rw [h s.db hs.region]
    rfl
  · intro r hr
    rw [← Except.ok.inj hr]
    exact ⟨rfl, hs.count, s.db, hs.region, rfl⟩

theorem isolated_query {context : String} {q : Database → α} (h : Local R w q) :
    Isolated env R w (query env context q) :=
  isolated_of_confined (confined_query h)

/-- The row that a query has found. -/
theorem confined_required {what : String} {r : Option α} :
    Confined (compartment env R w) (required what r) fun a => r = some a := by
  cases r with
  | none => exact Confined.fail _
  | some a => exact Confined.pure rfl

/-- A first row. -/
theorem confined_first {context what : String} {q : Database → Option α} (h : Local R w q) :
    Confined (compartment env R w) (first env context what q)
      fun a => ∃ db, InRegion R w db ∧ q db = some a := by
  unfold first
  apply (confined_query h).bind
  intro r hr
  obtain ⟨db, hdb, rfl⟩ := hr
  apply confined_required.mono
  exact fun a ha => ⟨db, hdb, ha⟩

/-- Rows that lose references and rows that are deleted leave the state sound. -/
theorem Sound.of_spares {s : World} (h : Sound env R w s) {own : TableName → ID → Prop}
    {db : Database} (hspares : Spares wear own s.db db) : Sound env R w { s with db } where
  region := h.region.of_spares hspares
  generates := h.generates
  unused n hn t := hspares.get?_eq_none (h.unused n hn t)

/-- A change of one table that touches rows inside only. -/
theorem isolated_write {context : String} {t : TableName} {reply : Nat → Database → α}
    {g : Nat → Table ID (Row t) → Table ID (Row t)} (hreply : ∀ n, Local R w (reply n))
    (hpart : ∀ n table, (g n table).filterKeys (R t) = g n (table.filterKeys (R t)))
    (hrest : ∀ n db, InRegion R w db →
      (g n (db t)).filterKeys (fun k => !R t k) = (db t).filterKeys fun k => !R t k)
    (hspares : ∀ n db, InRegion R w db → Spares wear (Region R) db (db.set t (g n (db t)))) :
    Isolated env R w
      (call env context fun n db => .ok (reply n db, db.set t (g n (db t)))) := by
  apply confined_call
  intro s hs
  constructor
  · have hset : inside R (s.db.set t (g s.calls (s.db t))) =
        (inside R s.db).set t (g s.calls (inside R s.db t)) := by
      rw [inside_set, hpart]
      rfl
    rw [hreply s.calls s.db hs.region, ← hset]
    rfl
  · intro r hr
    rw [← Except.ok.inj hr]
    exact ⟨outside_set (hrest s.calls s.db hs.region),
      (hs.of_spares (hspares s.calls s.db hs.region)).count, trivial⟩

/-- An update of rows inside. -/
theorem isolated_update {context : String} {t : TableName} {p : ID → Row t → Bool}
    {f : Time → Row t → Row t} (hsel : ∀ db, InRegion R w db → (db t).Selects p (R t))
    (hf : ∀ now row, wearRel t row (f now row)) :
    Isolated env R w (update env context t p f) := by
  apply isolated_write (g := fun n table => table.updateWhere p (f (env.now n)))
  · intro n db h
    exact congrArg List.length (Table.keysWhere_filterKeys (hsel db h))
  · intro n table
    exact Table.filterKeys_updateWhere ..
  · intro n db h
    exact Table.filterKeys_not_updateWhere (hsel db h)
  · intro n db h
    exact Spares.updateWhere
      (fun k row hrow => hsel db h (k, row) (Table.get?_eq_some_iff.mp hrow))
      fun _ row _ _ => hf _ row

/-- A new row inside, behind the checks of its table. -/
theorem Sound.insert {s : World} (h : Sound env R w s) {t : TableName} {row : Row t}
    (hcolumn : ∀ v, workspaceColumn t (env.newID s.calls) row = some v → v = w)
    (hrefers : ∀ fk ∈ schema, ∀ hchild : t = fk.child, ∀ q,
      fk.column (hchild ▸ row) = some q → R fk.parent q = true) :
    Sound env R w
      { s with
        db := s.db.set t ((s.db t).insert (env.newID s.calls) row)
        calls := s.calls + 1 } where
  region := h.region.insert (h.generates.inside _ t) hcolumn hrefers
  generates := h.generates
  unused n hn t' := by
    have hne : env.newID n ≠ env.newID s.calls := by
      intro heq
      have hsame := h.generates.injective heq
      exact absurd hn (by rw [hsame]; exact Nat.not_succ_le_self s.calls)
    change (s.db.set t ((s.db t).insert (env.newID s.calls) row) t').get? (env.newID n) = none
    by_cases ht : t' = t
    · subst ht
      rw [Store.set_self, Table.get?_insert_of_ne hne]
      exact h.unused n (Nat.le_of_succ_le hn) t'
    · rw [Store.set_of_ne _ _ ht]
      exact h.unused n (Nat.le_of_succ_le hn) t'

theorem isolated_enqueue {jobType : String} {workspaceID referenceID : ID}
    {metadata : Option (GoString × GoString × GoString)} :
    Isolated env R w (enqueue env jobType workspaceID referenceID metadata) := by
  intro s hs
  cases hfailure : env.failure s.calls with
  | some text =>
      have hrun : ∀ s' : World, s'.calls = s.calls →
          enqueue env jobType workspaceID referenceID metadata s' =
            (.error ⟨[], .driver text⟩, { s' with calls := s'.calls + 1 }) := by
        intro s' hcalls
        rw [enqueue, hcalls, hfailure]
      exact .of_eq (hrun s rfl) (hrun _ rfl) rfl hs.count fun _ _ => trivial
  | none =>
      have hrun : ∀ s' : World, s'.calls = s.calls →
          enqueue env jobType workspaceID referenceID metadata s' =
            (.ok (env.jobID s'.calls),
              { s' with
                outbox := s'.outbox ++
                  [.enqueue jobType.toList workspaceID referenceID metadata]
                calls := s'.calls + 1 }) := by
        intro s' hcalls
        rw [enqueue, hcalls, hfailure]
      refine .of_eq (hrun s rfl) (hrun _ rfl) rfl ?_ fun _ _ => trivial
      exact ⟨hs.region, hs.generates, hs.count.unused⟩

theorem isolated_logAction {action resource : String} {resourceID : Option ID}
    {details : GoString} : Isolated env R w (logAction env action resource resourceID details) := by
  intro s hs
  refine .of_eq rfl rfl rfl ?_ fun _ _ => trivial
  exact ⟨hs.region, hs.generates, hs.count.unused⟩

theorem isolated_triggerMonitoring {workspaceID : ID} :
    Isolated env R w (triggerMonitoring env workspaceID) := by
  intro s hs
  refine .of_eq rfl rfl rfl ?_ fun _ _ => trivial
  exact ⟨hs.region, hs.generates, hs.unused⟩

end Calls

/-! ## Repositories -/

section Repositories

/-- A count and a listing. -/
theorem isolated_listed {α β : Type} {counting listing : String} {rows : Database → List α}
    {read : Database → List β} (hrows : Local R w rows) (hread : Local R w read) :
    Isolated env R w (listed env counting listing rows read) := by
  have hcount : Local R w fun db => (rows db).length :=
    fun db h => congrArg List.length (hrows db h)
  unfold listed
  apply (confined_query hcount).bind
  intro total _
  apply (confined_query hread).bind
  intro ms _
  exact Confined.pure trivial

/-- The rows that a query must have affected. -/
theorem isolated_affected {what : String} {n : Nat} : Isolated env R w (affected what n) :=
  isolated_of_confined (Confined.failIf _)

/-- A package that has been found is inside. -/
theorem confined_findPackage {id : ID} :
    Confined (compartment env R w) (PackageRepo.findByIDAndWorkspaceID env id w)
      fun _ => R .packages id = true := by
  have hlocal : Local R w fun db => (packagesOf db w).find? fun p => p.1 = id := by
    intro db h
    simp only [packagesOf_inside h]
  apply (confined_first hlocal).mono
  intro p hp
  obtain ⟨db, h, hfind⟩ := hp
  obtain ⟨hmem, hid⟩ := of_find? hfind
  rw [← hid]
  exact inside_of_packagesOf h hmem

theorem isolated_findPackage {id : ID} :
    Isolated env R w (PackageRepo.findByIDAndWorkspaceID env id w) :=
  isolated_of_confined confined_findPackage

theorem isolated_findByWorkspaceID {page limit : Int} {sortClause : List (SortTerm PackageColumn)}
    {filters : PackageFilters} :
    Isolated env R w
      (PackageRepo.findByWorkspaceID env w page limit sortClause filters) := by
  apply isolated_listed
  · intro db h
    simp only [packagesOf_inside h]
  · intro db h
    simp only [packagesOf_inside h]

theorem isolated_findSuggestionsByWorkspaceID {page limit : Int}
    {sortClause : List (SortTerm PackageColumn)} {filters : PackageFilters} :
    Isolated env R w
      (PackageRepo.findSuggestionsByWorkspaceID env w page limit sortClause filters) := by
  apply isolated_listed
  · intro db h
    simp only [packagesOf_inside h]
  · intro db h
    simp only [packagesOf_inside h]

theorem isolated_findStaleByWorkspaceID {staleBefore : Time} {page limit : Int}
    {sortClause : List (SortTerm PackageColumn)} {filters : PackageFilters} :
    Isolated env R w
      (PackageRepo.findStaleByWorkspaceID env w staleBefore page limit sortClause filters) := by
  apply isolated_listed
  · intro db h
    exact staleRows_inside h
  · intro db h
    simp only [staleRows_inside h]
    refine List.map_congr_left fun p hp => ?_
    rw [lastReleaseAt_inside h]
    exact inside_of_packagesOf h (List.mem_of_mem_filter (mem_of_paged_ordered env hp))

theorem isolated_countByWorkspace : Isolated env R w (PackageRepo.countByWorkspace env w) := by
  apply isolated_query
  intro db h
  simp only [packagesOf_inside h]

theorem isolated_existsByWorkspaceAndName {name ecosystem : GoString} :
    Isolated env R w (PackageRepo.existsByWorkspaceAndName env w name ecosystem) := by
  apply isolated_query
  intro db h
  simp only [packagesOf_inside h]

/-- The workspace is found inside. -/
theorem workspaces_inside {db : Database} (h : InRegion R w db) :
    (Database.workspaces (inside R db)).get? w = db.workspaces.get? w := by
  refine (Table.get?_filterKeys ..).trans ?_
  split_ifs with hk
  · rfl
  · cases hget : db.workspaces.get? w with
    | none => rfl
    | some row => exact absurd ((h.owner .workspaces w row w hget rfl).mpr rfl) hk

/-- A new row inside. -/
theorem inside_insert (hgenerates : Generates env R) {n : Nat} {t : TableName} (row : Row t) :
    inside R (db.set t ((db t).insert (env.newID n) row)) =
      (inside R db).set t ((inside R db t).insert (env.newID n) row) := by
  rw [inside_set, Table.filterKeys_insert _ (hgenerates.inside n t)]
  rfl

/-- A new row leaves those outside. -/
theorem outside_insert (hgenerates : Generates env R) {n : Nat} {t : TableName} (row : Row t) :
    outside R (db.set t ((db t).insert (env.newID n) row)) = outside R db :=
  outside_set (Table.filterKeys_not_insert _ (hgenerates.inside n t))

/-- A new package. -/
theorem isolated_create {pkg : Package} (hpkg : pkg.workspaceID = w) :
    Isolated env R w (PackageRepo.create env pkg) := by
  subst hpkg
  apply confined_call
  intro s hs
  have hnew : R .packages (env.newID s.calls) = true := hs.generates.inside s.calls .packages
  constructor
  · simp only [packages_inside hnew, packagesOf_inside hs.region, workspaces_inside hs.region]
    split_ifs
    · rfl
    · rfl
    · rfl
    · rfl
    · exact congrArg Except.ok (Prod.ext rfl (inside_insert hs.generates _).symm)
  · intro r hr
    dsimp only at hr
    split_ifs at hr
    rw [← Except.ok.inj hr]
    refine ⟨outside_insert hs.generates _, hs.insert ?_ ?_, trivial⟩
    · intro v hv
      exact (Option.some.inj hv).symm
    · intro fk hfk hchild q hq
      simp only [schema, List.mem_cons, List.not_mem_nil, or_false] at hfk
      rcases hfk with rfl | rfl | rfl | rfl | rfl | rfl | rfl | rfl | rfl <;>
        exact absurd hchild (by decide)

/-- The packages of the workspace are inside. -/
theorem selects_packages (h : InRegion R w db) {p : ID → Row .packages → Bool}
    (hp : ∀ k (row : Package), p k row = true → row.workspaceID = w) :
    (db .packages).Selects p (R .packages) :=
  fun e he hsel => (h.package_owner (Table.get?_of_mem he)).mpr (hp e.1 e.2 hsel)

theorem isolated_changeStatus {context : String} {pkgID : ID} {status : PackageStatus}
    {f : Time → Package → Package} (hf : ∀ now p, (f now p).workspaceID = p.workspaceID) :
    Isolated env R w (PackageRepo.changeStatus env context w pkgID status f) := by
  have hupdate : Isolated env R w (update env context .packages
      (fun k (p : Package) => k = pkgID ∧ p.workspaceID = w ∧ p.status = status)
      fun now (p : Package) => { f now p with updatedAt := now }) := by
    apply isolated_update
    · intro db h
      exact selects_packages h fun k row hsel => (of_decide_eq_true hsel).2.1
    · exact hf
  exact hupdate.bind fun n _ => isolated_affected

theorem isolated_bulkApprovePackages {pkgIDs : List ID} :
    Isolated env R w (PackageRepo.bulkApprovePackages env w pkgIDs) := by
  apply Confined.ite
  · exact fun _ => Confined.pure trivial
  · intro _
    apply isolated_update
    · intro db h
      exact selects_packages h fun k row hsel => (of_decide_eq_true hsel).1
    · exact fun _ _ => rfl

theorem isolated_bulkApproveAllSuggestions :
    Isolated env R w (PackageRepo.bulkApproveAllSuggestions env w) := by
  apply isolated_update
  · intro db h
    exact selects_packages h fun k row hsel => (of_decide_eq_true hsel).1
  · exact fun _ _ => rfl

/-! ## The removal of a package -/

/-- The rows inside and outside as a compartment of the tables, with IDs that stay unused. -/
def tables (unused : ID → Prop) (R : TableName → ID → Bool) (w : ID) :
    Compartment Database Database where
  Valid db := InRegion R w db ∧ ∀ k, unused k → ∀ t, (db t).get? k = none
  part := inside R
  rest := outside R

variable {unused : ID → Prop}

/-- A statement that selects rows inside only. -/
theorem keepsTo_statement {c : Statement ID Row} {P : c.Reply → Prop}
    (hwithin : ∀ db, InRegion R w db → c.Within R db) (hwears : c.Wears wear)
    (hreply : ∀ db db' r, InRegion R w db → execute db c = some (db', r) → P r) :
    KeepsTo (tables unused R w) execute c P := by
  intro db hdb
  have hsel := hwithin db hdb.1
  refine ⟨(Statement.execute_inside wear hdb.1.closed hsel).1, fun db' r hexec => ?_⟩
  have hrest := (Statement.execute_inside wear hdb.1.closed hsel).2 (db', r) hexec
  have hspares := Statement.spares_of_execute hdb.1.closed hsel hwears hexec
  exact ⟨⟨hdb.1.of_spares hspares, fun k hk t => hspares.get?_eq_none (hdb.2 k hk t)⟩,
    hrest, hreply db db' r hdb.1 hexec⟩

/-- A first row: its key is inside. -/
theorem keepsTo_first_inside {t : TableName} {p : ID → Row t → Bool} {q : ID}
    (hsel : ∀ db, InRegion R w db → (db t).Selects p (R t))
    (hid : ∀ k row, p k row = true → k = q) :
    KeepsTo (tables unused R w) execute (Statement.first t p) fun (r : Option (Row t)) =>
      r.isNone = false → R t q = true := by
  refine keepsTo_statement hsel trivial ?_
  intro db db' r h hexec hr
  cases r with
  | none => exact absurd hr (by simp)
  | some row =>
      obtain ⟨-, k, hget, hp⟩ := Statement.first_eq_some hexec
      rw [← hid k row hp]
      exact hsel db h (k, row) (Table.get?_eq_some_iff.mp hget) hp

/-- The keys of rows inside. -/
theorem tamed_plucking_inside {t : TableName} {p : ID → Row t → Bool}
    (hsel : ∀ db, InRegion R w db → (db t).Selects p (R t)) :
    Tamed (tables unused R w) execute (OnOk fun ids => ∀ k ∈ ids, R t k = true)
      (PackageRepo.plucking t p) := by
  refine Tamed.read (keepsTo_statement hsel trivial ?_) ?_
  · intro db db' r h hexec k hk
    obtain ⟨-, hkeys⟩ := Prod.mk.inj (Option.some.inj hexec)
    rw [← hkeys] at hk
    obtain ⟨row, hrow, hp⟩ := Table.mem_keysWhere.mp hk
    exact hsel db h (k, row) (Table.get?_eq_some_iff.mp hrow) hp
  · exact fun k hk => absurd hk List.not_mem_nil

/-- A deletion of rows inside. -/
theorem tamed_removing_inside {t : TableName} {p : ID → Row t → Bool} {context : String}
    (hsel : ∀ db, InRegion R w db → (db t).Selects p (R t)) :
    Tamed (tables unused R w) execute (OnOk fun _ => True) (PackageRepo.removing t p context) :=
  Tamed.exec (keepsTo_statement hsel trivial fun _ _ _ _ _ => trivial)

/-- A transaction of statements that select rows inside only. -/
theorem isolated_inTransaction {α : Type} {fact : α → Prop}
    {p : Time → Tx (Statement ID Row) Statement.Reply Failure α}
    (h : ∀ unused now, Tamed (tables unused R w) execute (OnOk fact) (p now)) :
    Isolated env R w (inTransaction env p) := by
  intro s hs
  have hvalid : (tables (fun k => ∃ n, s.calls ≤ n ∧ env.newID n = k) R w).Valid s.db := by
    refine ⟨hs.region, ?_⟩
    rintro k ⟨n, hn, rfl⟩ t
    exact hs.unused n hn t
  obtain ⟨hmirror, hkept, hrest⟩ := transaction_part (h _ (env.now s.calls)) (env.budget s.calls)
    (env.commits s.calls) ⟨[], .commit⟩ hvalid
  refine .of_eq rfl ?_ hrest ?_ fun _ _ => trivial
  · exact congrArg (fun r : Except Failure α × Database =>
      (r.1, { s with db := r.2, calls := s.calls + 1 })) hmirror
  · exact ⟨hkept.1, hs.generates, fun n hn t => hkept.2 _ ⟨n, Nat.le_of_succ_le hn, rfl⟩ t⟩

/-- The statements select rows of the workspace, or rows that an earlier one has found inside. -/
theorem tamed_removeBody {pkgID : ID} {now : Time} :
    Tamed (tables unused R w) execute (OnOk fun _ => True)
      (PackageRepo.removeBody w pkgID now) := by
  have hreleases : ∀ db, InRegion R w db → (db .releases).Selects
      (fun _ (r : Release) => r.packageID = pkgID ∧ r.workspaceID = w) (R .releases) :=
    fun db h e he hsel =>
      (h.release_owner (Table.get?_of_mem he)).mpr (of_decide_eq_true hsel).2
  have halerts : ∀ db, InRegion R w db → (db .alerts).Selects
      (fun _ (a : Alert) => a.packageID = pkgID ∧ a.workspaceID = w) (R .alerts) :=
    fun db h e he hsel =>
      (h.owner .alerts e.1 e.2 _ (Table.get?_of_mem he) rfl).mpr (of_decide_eq_true hsel).2
  have hdiffs : ∀ ids : List ID, (∀ k ∈ ids, R .releases k = true) → ∀ db, InRegion R w db →
      (db .diffs).Selects (fun _ (d : Diff) => d.releaseID ∈ ids) (R .diffs) :=
    fun ids hids db h e he hsel =>
      (h.diff_iff (Table.get?_of_mem he)).trans (hids _ (of_decide_eq_true hsel))
  have hanalyses : ∀ ids : List ID, (∀ k ∈ ids, R .diffs k = true) → ∀ db, InRegion R w db →
      (db .analyses).Selects (fun _ (a : Analysis) => a.diffID ∈ ids) (R .analyses) :=
    fun ids hids db h e he hsel =>
      (h.analysis_iff (Table.get?_of_mem he)).trans (hids _ (of_decide_eq_true hsel))
  have hnotes : ∀ ids : List ID, (∀ k ∈ ids, R .alerts k = true) → ∀ db, InRegion R w db →
      (db .alertNotes).Selects (fun _ (n : AlertNote) => n.alertID ∈ ids) (R .alertNotes) :=
    fun ids hids db h e he hsel =>
      (h.alertNote_iff (Table.get?_of_mem he)).trans (hids _ (of_decide_eq_true hsel))
  unfold PackageRepo.removeBody
  apply (Tamed.exec (keepsTo_first_inside (q := pkgID) ?_ ?_)).bind
  · intro pkg hpkg
    apply Tamed.require.bind
    intro _ hsome
    have hinside := hpkg hsome
    apply (tamed_plucking_inside hreleases).bind
    intro releaseIDs hreleaseIDs
    have hplucked : Tamed (tables unused R w) execute (OnOk fun ids => ∀ k ∈ ids, R .diffs k = true)
        (PackageRepo.pluckingDiffs releaseIDs) := by
      unfold PackageRepo.pluckingDiffs
      split_ifs
      · exact Tamed.pure fun k hk => absurd hk List.not_mem_nil
      · exact tamed_plucking_inside (hdiffs releaseIDs hreleaseIDs)
    apply hplucked.bind
    intro diffIDs hdiffIDs
    apply (tamed_plucking_inside halerts).bind
    intro alertIDs halertIDs
    apply (Tamed.onlyIf (tamed_removing_inside (hnotes alertIDs halertIDs))).bind
    intro _ _
    apply (tamed_removing_inside halerts).bind
    intro _ _
    apply (Tamed.onlyIf (tamed_removing_inside (hanalyses diffIDs hdiffIDs))).bind
    intro _ _
    apply (Tamed.onlyIf (tamed_removing_inside (hdiffs releaseIDs hreleaseIDs))).bind
    intro _ _
    apply (tamed_removing_inside hreleases).bind
    intro _ _
    apply (Tamed.exec (keepsTo_statement (P := fun _ => True) ?_ ?_ ?_)).bind
    · exact fun _ _ => Tamed.pure trivial
    · exact fun db h e he hsel => (of_decide_eq_true hsel : e.1 = pkgID) ▸ hinside
    · exact fun _ => rfl
    · exact fun _ _ _ _ _ => trivial
  · intro db h
    exact selects_packages h fun k row hsel => (of_decide_eq_true hsel).2.1
  · exact fun k row hsel => (of_decide_eq_true hsel).1

/-- The transaction that removes a package, with all that the foreign keys do. -/
theorem isolated_removePackage {pkgID : ID} :
    Isolated env R w (PackageRepo.removePackage env w pkgID) :=
  isolated_inTransaction fun _ _ => tamed_removeBody

end Repositories

end Core
end Veilence

import Veilence.Foundation.Sequential
import Veilence.Foundation.Table
import Veilence.Go.Text

/-!
# The settings table

Settings belong to a workspace or to the platform, and there is one value for each key of
either.  The repository updates a setting with a record whose empty fields are left out, so an
empty value does not replace a stored one; a setting that is not stored is added with any value.

Main results:

- Theorem {lit}`get?_upsertAll`: what settings one after the other do to every key.
-/

namespace Veilence
namespace Settings

open Go Foundation

/-- Whose setting it is: that of a workspace, or, without one, that of the platform. -/
abbrev Owner : Type := Option GoString

/-- A key and its value. -/
abbrev Setting : Type := GoString × GoString

/-- The settings table. -/
structure Database where
  settings : Table (Owner × GoString) GoString

/-- The value that is stored for a key. -/
def Database.get? (db : Database) (owner : Owner) (key : GoString) : Option GoString :=
  db.settings.get? (owner, key)

/-- {lit}`FirstOrCreate` with the assignment of a value. -/
def Database.upsert (db : Database) (owner : Owner) (key value : GoString) : Database :=
  match db.get? owner key with
  | some _ => if value = [] then db else ⟨db.settings.insert (owner, key) value⟩
  | none => ⟨db.settings.insert (owner, key) value⟩

/-- The settings of an owner. -/
def Database.ofOwner (db : Database) (owner : Owner) : List Setting :=
  (db.settings.entries.filter fun e => e.1.1 = owner).map fun e => (e.1.2, e.2)

/-! ## Calls of the repository -/

/-- A call of the repository. -/
inductive Call where
  | findByWorkspaceID (workspaceID : GoString)
  | upsertByWorkspaceAndKey (workspaceID key value : GoString)
  | findPlatformSettings (keys : List GoString)
  | upsertPlatformSetting (key value : GoString)

/-- What a call answers; the rows of a listing have different keys, in any order. -/
abbrev Response : Call → Type
  | .findByWorkspaceID _ => List Setting
  | .upsertByWorkspaceAndKey .. => Unit
  | .findPlatformSettings _ => List Setting
  | .upsertPlatformSetting .. => Unit

/-- A call that succeeds. -/
def Database.exec (db : Database) : (c : Call) → Database × Response c
  | .findByWorkspaceID workspaceID => (db, db.ofOwner (some workspaceID))
  | .upsertByWorkspaceAndKey workspaceID key value => (db.upsert (some workspaceID) key value, ())
  | .findPlatformSettings keys => (db, (db.ofOwner none).filter fun s => s.1 ∈ keys)
  | .upsertPlatformSetting key value => (db.upsert none key value, ())

/-- The repository; every call may fail. -/
def machine : Machine Database Call Response :=
  ⟨Database.exec, fun _ => true⟩

/-! ## Updates of settings -/

section Updates

variable {db : Database} {owner : Owner} {key value : GoString}

/-- A value that is not empty is stored under its key, and nothing else changes. -/
theorem get?_upsert (db : Database) (owner : Owner) (key : GoString) {value : GoString}
    (hvalue : value ≠ []) (owner' : Owner) (key' : GoString) :
    (db.upsert owner key value).get? owner' key' =
      if owner' = owner ∧ key' = key then some value else db.get? owner' key' := by
  have hinsert : (⟨db.settings.insert (owner, key) value⟩ : Database).get? owner' key' =
      if owner' = owner ∧ key' = key then some value else db.get? owner' key' := by
    unfold Database.get?
    rw [Table.get?_insert]
    simp only [Prod.mk.injEq]
  unfold Database.upsert
  cases db.get? owner key with
  | none => exact hinsert
  | some old =>
      dsimp only
      rw [if_neg hvalue]
      exact hinsert

/-- The settings of an owner are what is stored under the keys. -/
theorem mem_ofOwner : (key, value) ∈ db.ofOwner owner ↔ db.get? owner key = some value := by
  unfold Database.ofOwner Database.get?
  rw [Table.get?_eq_some_iff, List.mem_map]
  constructor
  · rintro ⟨⟨⟨owner', key'⟩, value'⟩, he, hkey⟩
    rw [List.mem_filter, decide_eq_true_eq] at he
    simp only [Prod.mk.injEq] at hkey
    obtain ⟨rfl, rfl⟩ := hkey
    exact he.2 ▸ he.1
  · intro he
    exact ⟨((owner, key), value), List.mem_filter.mpr ⟨he, decide_eq_true rfl⟩, rfl⟩

/-- Settings of a workspace one after the other. -/
def Database.upsertAll (db : Database) (owner : Owner) (settings : List Setting) : Database :=
  settings.foldl (fun db s => db.upsert owner s.1 s.2) db

/-- Settings with other keys are not changed. -/
theorem get?_upsertAll_of_notMem {settings : List Setting} (hvalues : ∀ s ∈ settings, s.2 ≠ [])
    {owner' : Owner} {key' : GoString}
    (hother : owner' = owner → key' ∉ settings.map Prod.fst) :
    (db.upsertAll owner settings).get? owner' key' = db.get? owner' key' := by
  induction settings generalizing db with
  | nil => rfl
  | cons s settings ih =>
      obtain ⟨key, value⟩ := s
      have hfirst := get?_upsert db owner key
        (hvalues (key, value) List.mem_cons_self) owner' key'
      have hne : ¬(owner' = owner ∧ key' = key) := by
        intro heq
        apply hother heq.1
        rw [List.map_cons, heq.2]
        exact List.mem_cons_self
      rw [if_neg hne] at hfirst
      refine (ih (fun s hs => hvalues s (List.mem_cons_of_mem _ hs)) ?_).trans hfirst
      intro howner hmem
      exact hother howner (List.mem_cons_of_mem _ hmem)

/-- Settings with different keys are stored under their keys. -/
theorem get?_upsertAll {settings : List Setting} (hkeys : (settings.map Prod.fst).Nodup)
    (hvalues : ∀ s ∈ settings, s.2 ≠ []) {s : Setting} (hs : s ∈ settings) :
    (db.upsertAll owner settings).get? owner s.1 = some s.2 := by
  induction settings generalizing db with
  | nil => exact absurd hs List.not_mem_nil
  | cons first settings ih =>
      rw [List.map_cons, List.nodup_cons] at hkeys
      have hrest : ∀ s ∈ settings, s.2 ≠ [] := fun s hs => hvalues s (List.mem_cons_of_mem _ hs)
      rcases List.mem_cons.mp hs with rfl | hmem
      · -- the key does not come again
        refine (get?_upsertAll_of_notMem hrest fun _ => hkeys.1).trans ?_
        rw [get?_upsert db owner s.1 (hvalues s List.mem_cons_self), if_pos ⟨rfl, rfl⟩]
      · exact ih hkeys.2 hrest hmem

end Updates

end Settings
end Veilence

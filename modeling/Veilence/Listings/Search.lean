import Veilence.Go.Runes
import Veilence.Listings.Queries

/-!
# What the listings find

A listing with a search is to show the rows that it shows without one and in which a searched
column contains the text, ignoring case.  Three listings of packages escape the two wildcards but
not the backslash, the listings of releases and alerts escape all three symbols, and the listing of
users escapes none.

Main results:

- Theorem {lit}`finds_iff`: which texts a way of escaping finds.
- Theorem {lit}`search_exact_iff`: the texts that each of the six listings searches for exactly.
-/

namespace Veilence
namespace Listings

open Go Foundation

/-! ## Escaping -/

theorem replaceAll_cons (c : Char) (s : GoString) (old : Char) (new : GoString) :
    replaceAll (c :: s) old new = (if c = old then new else [c]) ++ replaceAll s old new :=
  List.flatMap_cons

theorem replaceAll_append (s t : GoString) (old : Char) (new : GoString) :
    replaceAll (s ++ t) old new = replaceAll s old new ++ replaceAll t old new :=
  List.flatMap_append

/-- The symbols that {lit}`package_repo.go` escapes. -/
def isWildcard (c : Char) : Bool :=
  c = '%' || c = '_'

/-- The symbols that {lit}`escapeLikeRepo` escapes. -/
def isSymbol (c : Char) : Bool :=
  c = '\\' || c = '%' || c = '_'

theorem special_iff (c : Char) : likeSymbols.Special c ↔ isSymbol c = true := by
  simp [Like.Symbols.Special, likeSymbols, isSymbol, or_assoc]

/-- Replacing one wildcard after the other escapes both. -/
theorem escapeWildcards_eq (s : GoString) :
    escapeWildcards s = Like.escaped likeSymbols isWildcard s := by
  induction s with
  | nil => rfl
  | cons c s ih =>
      unfold escapeWildcards at ih ⊢
      rw [replaceAll_cons, replaceAll_append, ih]
      by_cases hpercent : c = '%'
      · rw [if_pos hpercent, Like.escaped_cons_of_pos likeSymbols (by simp [isWildcard, hpercent]),
          hpercent]
        rfl
      · rw [if_neg hpercent, replaceAll_cons]
        by_cases hunderscore : c = '_'
        · rw [if_pos hunderscore,
            Like.escaped_cons_of_pos likeSymbols (by simp [isWildcard, hunderscore]), hunderscore]
          rfl
        · rw [if_neg hunderscore,
            Like.escaped_cons_of_not likeSymbols (by simp [isWildcard, hpercent, hunderscore])]
          rfl

/-- The backslashes are escaped first, so that those of the other replacements stay single. -/
theorem escapeLikeRepo_eq (s : GoString) :
    escapeLikeRepo s = Like.escaped likeSymbols isSymbol s := by
  induction s with
  | nil => rfl
  | cons c s ih =>
      unfold escapeLikeRepo at ih ⊢
      dsimp only at ih ⊢
      rw [replaceAll_cons, replaceAll_append, replaceAll_append, ih]
      by_cases hbackslash : c = '\\'
      · rw [if_pos hbackslash, Like.escaped_cons_of_pos likeSymbols (by simp [isSymbol, hbackslash]),
          hbackslash]
        rfl
      · rw [if_neg hbackslash, replaceAll_cons, replaceAll_append]
        by_cases hpercent : c = '%'
        · rw [if_pos hpercent, Like.escaped_cons_of_pos likeSymbols (by simp [isSymbol, hpercent]),
            hpercent]
          rfl
        · rw [if_neg hpercent, replaceAll_cons]
          by_cases hunderscore : c = '_'
          · rw [if_pos hunderscore,
              Like.escaped_cons_of_pos likeSymbols (by simp [isSymbol, hunderscore]), hunderscore]
            rfl
          · rw [if_neg hunderscore, Like.escaped_cons_of_not likeSymbols (by
              simp [isSymbol, hbackslash, hpercent, hunderscore])]
            rfl

theorem id_eq_escaped (s : GoString) :
    id s = Like.escaped likeSymbols (fun _ => false) s := by
  induction s with
  | nil => rfl
  | cons c s ih =>
      rw [Like.escaped_cons_of_not likeSymbols Bool.false_ne_true, ← ih]
      rfl

/-! ## Finding a text -/

section Finding

variable (lower : LowerCase) (escape : GoString → GoString) (search : GoString)

/-- A column contains the text, ignoring case. -/
def contains (column : GoString) : Bool :=
  decide (search.map lower.map <:+: column.map lower.map)

/-- The pattern of a search matches the columns that contain the text. -/
def Finds : Prop :=
  ∀ column, lowerLike lower column ('%' :: (escape search ++ "%".toList)) =
    contains lower search column

variable {lower escape search}

/-- A text is found just if all symbols in it are escaped. -/
theorem finds_iff {p : Char → Bool} (hp : ∀ c, p c = true → likeSymbols.Special c)
    (hescape : ∀ s, escape s = Like.escaped likeSymbols p s) :
    Finds lower escape search ↔ ∀ c ∈ search, isSymbol c = true → p c = true := by
  have hexact := Like.exact_iff lower.keeps hp search
  simp only [special_iff] at hexact
  rw [← hexact]
  refine forall_congr' fun column => ?_
  rw [Bool.eq_iff_iff, contains, decide_eq_true_iff, lowerLike, hescape]
  exact Iff.rfl

theorem searched_none (columns : List GoString) :
    searched lower escape columns none = true :=
  rfl

/-- The condition of a search on columns, for a text that is found. -/
theorem searched_eq (hfinds : Finds lower escape search) (hsearch : search ≠ [])
    (columns : List GoString) :
    searched lower escape columns (some search) = columns.any (contains lower search) := by
  cases search with
  | nil => exact absurd rfl hsearch
  | cons c search =>
      rw [searched]
      exact List.any_congr rfl fun column => hfinds column
      simp

/-- A single column is searched with the pattern. -/
theorem searched_replicate (hsearch : search ≠ []) (column : GoString) (n : Nat) :
    searched lower escape (List.replicate (n + 1) column) (some search) =
      lowerLike lower column ('%' :: (escape search ++ "%".toList)) := by
  cases search with
  | nil => exact absurd rfl hsearch
  | cons c search =>
      rw [searched]
      induction n with
      | zero => simp
      | succ n ih => rw [List.replicate_succ, List.any_cons, ih, Bool.or_self]
      simp

end Finding

/-! ## The six listings -/

section Listings

variable (lower : LowerCase) (search : GoString)

/-- The listing of packages shows the rows whose name contains the text. -/
def PackagesExact : Prop :=
  ∀ (db : Database) (workspaceID : Nat) (filters : PackageFilters),
    packageRows lower db workspaceID { filters with search := some search } =
      (packageRows lower db workspaceID { filters with search := none }).filter fun pkg =>
        contains lower search pkg.name

/-- The listing of suggestions shows the rows whose name contains the text. -/
def SuggestionsExact : Prop :=
  ∀ (db : Database) (workspaceID : Nat) (filters : PackageFilters),
    suggestionRows lower db workspaceID { filters with search := some search } =
      (suggestionRows lower db workspaceID { filters with search := none }).filter fun pkg =>
        contains lower search pkg.name

/-- The listing of stale packages shows the rows whose name contains the text. -/
def StaleExact : Prop :=
  ∀ (db : Database) (workspaceID : Nat) (staleBefore : Int) (filters : PackageFilters),
    staleRows lower db workspaceID staleBefore { filters with search := some search } =
      (staleRows lower db workspaceID staleBefore { filters with search := none }).filter
        fun pkg => contains lower search pkg.name

/-- The listing of releases shows the rows whose package has a name that contains the text. -/
def ReleasesExact : Prop :=
  ∀ (db : Database) (o : RowOrder Release) (workspaceID : Nat) (filters : ReleaseFilters),
    releaseRows lower db o workspaceID { filters with search := some search } =
      (releaseRows lower db o workspaceID { filters with search := none }).filter fun row =>
        contains lower search row.2.name

/-- The listing of alerts shows the rows that contain the text in the name of the package or in
the message. -/
def AlertsExact : Prop :=
  ∀ (db : Database) (workspaceID : Nat) (filters : AlertFilters),
    alertRows lower db workspaceID { filters with search := some search } =
      (alertRows lower db workspaceID { filters with search := none }).filter fun row =>
        contains lower search row.2.name || contains lower search row.1.message

/-- The listing of users shows the rows that contain the text in the e-mail address or in one of
the names. -/
def UsersExact : Prop :=
  ∀ (db : Database) (filters : UserFilters),
    userRows lower db { filters with search := some search } =
      (userRows lower db { filters with search := none }).filter fun user =>
        contains lower search user.email || contains lower search user.firstName ||
          contains lower search user.lastName

variable {lower search}

/-- One row is selected by two conditions alike. -/
theorem eq_of_filter_singleton {α : Type} {a : α} {p q : α → Bool}
    (h : [a].filter p = [a].filter q) : p a = q a := by
  rw [List.filter_singleton, List.filter_singleton] at h
  cases hp : p a with
  | false =>
      cases hq : q a with
      | false => rfl
      | true => simp [hp, hq] at h
  | true =>
      cases hq : q a with
      | false => simp [hp, hq] at h
      | true => rfl

/-- A database with a package, with an alert and a user that show its name. -/
def oneOfEach (text status : GoString) : Database where
  packages := [⟨0, 0, text, [], [], [], status, 0, 0⟩]
  releases := [⟨0, 0, [], 0, [], 0⟩]
  diffs := []
  analyses := []
  alerts := [⟨0, 0, 0, [], [], text, 0⟩]
  users := [⟨0, text, text, text, true, false⟩]
  packageIDs := List.nodup_singleton _
  releaseIDs := List.nodup_singleton _
  alertIDs := List.nodup_singleton _
  userIDs := List.nodup_singleton _

theorem packagesExact_iff (hsearch : search ≠ []) :
    PackagesExact lower search ↔ Finds lower escapeWildcards search := by
  constructor
  · intro hexact name
    have hrows := hexact (oneOfEach name statusActive) 0 noPackageFilters
    unfold packageRows at hrows
    rw [List.filter_filter] at hrows
    have hselected := eq_of_filter_singleton hrows
    rw [← searched_replicate hsearch name 0]
    simpa [noPackageFilters, searched_none, oneOfEach] using hselected
  · intro hfinds db workspaceID filters
    unfold packageRows
    rw [List.filter_filter]
    refine List.filter_congr fun pkg _ => ?_
    rw [searched_eq hfinds hsearch]
    simp only [searched_none, List.any_cons, List.any_nil, Bool.or_false, Bool.and_true]
    ac_rfl

theorem suggestionsExact_iff (hsearch : search ≠ []) :
    SuggestionsExact lower search ↔ Finds lower escapeWildcards search := by
  constructor
  · intro hexact name
    have hrows := hexact (oneOfEach name statusSuggested) 0 noPackageFilters
    unfold suggestionRows at hrows
    rw [List.filter_filter] at hrows
    have hselected := eq_of_filter_singleton hrows
    rw [← searched_replicate hsearch name 0]
    simpa [noPackageFilters, searched_none, oneOfEach] using hselected
  · intro hfinds db workspaceID filters
    unfold suggestionRows
    rw [List.filter_filter]
    refine List.filter_congr fun pkg _ => ?_
    rw [searched_eq hfinds hsearch]
    simp only [searched_none, List.any_cons, List.any_nil, Bool.or_false, Bool.and_true]
    ac_rfl

theorem staleExact_iff (hsearch : search ≠ []) :
    StaleExact lower search ↔ Finds lower escapeWildcards search := by
  constructor
  · intro hexact name
    have hrows := hexact (oneOfEach name statusActive) 0 1 noPackageFilters
    unfold staleRows at hrows
    rw [List.filter_filter] at hrows
    have hselected := eq_of_filter_singleton hrows
    rw [← searched_replicate hsearch name 0]
    simpa [noPackageFilters, searched_none, oneOfEach] using hselected
  · intro hfinds db workspaceID staleBefore filters
    unfold staleRows
    rw [List.filter_filter]
    refine List.filter_congr fun pkg _ => ?_
    rw [searched_eq hfinds hsearch]
    simp only [searched_none, List.any_cons, List.any_nil, Bool.or_false, Bool.and_true]
    ac_rfl

/-- A condition on rows that are repeated. -/
theorem filter_flatMap_replicate {α : Type} (rows : List α) (n : α → Nat) (q : α → Bool) :
    (rows.flatMap fun a => List.replicate (n a) a).filter q =
      (rows.filter q).flatMap fun a => List.replicate (n a) a := by
  induction rows with
  | nil => rfl
  | cons a rows ih =>
      rw [List.flatMap_cons, List.filter_append, ih, List.filter_replicate, List.filter_cons]
      split_ifs
      · rw [List.flatMap_cons]
      · rfl


theorem releasesExact (hfinds : Finds lower escapeLikeRepo search) (hsearch : search ≠ []) :
    ReleasesExact lower search := by
  intro db o workspaceID filters
  unfold releaseRows releaseMatches
  rw [filter_flatMap_replicate, List.filter_filter]
  refine congrArg (List.flatMap _) (List.filter_congr fun row _ => ?_)
  rw [searched_eq hfinds hsearch]
  simp only [searched_none, List.any_cons, List.any_nil, Bool.or_false, Bool.and_true]
  ac_rfl

theorem alertsExact (hfinds : Finds lower escapeLikeRepo search) (hsearch : search ≠ []) :
    AlertsExact lower search := by
  intro db workspaceID filters
  unfold alertRows
  rw [List.filter_filter]
  refine List.filter_congr fun row _ => ?_
  rw [searched_eq hfinds hsearch]
  simp only [searched_none, List.any_cons, List.any_nil, Bool.or_false, Bool.and_true]
  ac_rfl

theorem usersExact_iff (hsearch : search ≠ []) :
    UsersExact lower search ↔ Finds lower id search := by
  constructor
  · intro hexact text
    have hrows := hexact (oneOfEach text []) ⟨none, none, none⟩
    unfold userRows at hrows
    rw [List.filter_filter] at hrows
    have hselected := eq_of_filter_singleton hrows
    rw [← searched_replicate hsearch text 2]
    simp only [searched_none, Option.all_none, Bool.and_true, Bool.or_self] at hselected
    exact hselected
  · intro hfinds db filters
    unfold userRows
    rw [List.filter_filter]
    refine List.filter_congr fun user _ => ?_
    rw [searched_eq hfinds hsearch]
    simp only [searched_none, List.any_cons, List.any_nil, Bool.or_false, Bool.true_and]
    ac_rfl

/-! ## All searches -/

theorem isWildcard_special (c : Char) (hc : isWildcard c = true) : likeSymbols.Special c := by
  rw [special_iff]
  unfold isWildcard at hc
  unfold isSymbol
  rw [Bool.or_assoc, hc, Bool.or_true]

/-- The listings of packages find the texts without a backslash. -/
theorem finds_escapeWildcards_iff : Finds lower escapeWildcards search ↔ '\\' ∉ search := by
  rw [finds_iff isWildcard_special escapeWildcards_eq]
  constructor
  · intro hall hmem
    exact absurd (hall _ hmem (by decide)) (by decide)
  · intro hnone c hc hsymbol
    unfold isSymbol at hsymbol
    unfold isWildcard
    have hc' : c ≠ '\\' := fun h => hnone (h ▸ hc)
    simpa [hc'] using hsymbol

/-- The listings of releases and alerts find every text. -/
theorem finds_escapeLikeRepo : Finds lower escapeLikeRepo search := by
  rw [finds_iff (fun c hc => (special_iff c).mpr hc) escapeLikeRepo_eq]
  intro c hc hsymbol
  exact hsymbol

/-- The listing of users finds the texts without any of the symbols. -/
theorem finds_id_iff : Finds lower id search ↔ ∀ c ∈ search, isSymbol c = false := by
  rw [finds_iff (p := fun _ => false) nofun id_eq_escaped]
  refine forall₂_congr fun c _ => ?_
  simp

variable (lower) in
/-- The listings of packages, suggestions and stale packages are exact for the texts without a
backslash, those of releases and alerts for every text, and the listing of users for the texts
without a percent sign, underscore or backslash. -/
theorem search_exact_iff (hsearch : search ≠ []) :
    (PackagesExact lower search ↔ '\\' ∉ search) ∧
      (SuggestionsExact lower search ↔ '\\' ∉ search) ∧
      (StaleExact lower search ↔ '\\' ∉ search) ∧
      ReleasesExact lower search ∧
      AlertsExact lower search ∧
      (UsersExact lower search ↔ ∀ c ∈ search, isSymbol c = false) := by
  have hpackages : Finds lower escapeWildcards search ↔ '\\' ∉ search :=
    finds_escapeWildcards_iff
  have hall : Finds lower escapeLikeRepo search := finds_escapeLikeRepo
  have husers : Finds lower id search ↔ ∀ c ∈ search, isSymbol c = false := finds_id_iff
  refine ⟨?_, ?_, ?_, releasesExact hall hsearch, alertsExact hall hsearch, ?_⟩
  · exact (packagesExact_iff hsearch).trans hpackages
  · exact (suggestionsExact_iff hsearch).trans hpackages
  · exact (staleExact_iff hsearch).trans hpackages
  · exact (usersExact_iff hsearch).trans husers

end Listings

/-! ## Searches that fail -/

/-- {lit}`LOWER` on letters of the alphabet. -/
def lowerLetters : LowerCase where
  map := fun c => if 65 ≤ c.toNat ∧ c.toNat ≤ 90 then Char.ofNat (c.toNat + 32) else c
  keeps := by
    intro c d hd
    have hnat : d.toNat = 92 ∨ d.toNat = 37 ∨ d.toNat = 95 := by
      rcases hd with rfl | rfl | rfl
      · exact Or.inl rfl
      · exact Or.inr (Or.inl rfl)
      · exact Or.inr (Or.inr rfl)
    dsimp only
    split_ifs with hc
    · refine iff_of_false ?_ ?_
      · intro heq
        have hsame := congrArg Char.toNat heq
        rw [toNat_ofNat_of_lt (by omega)] at hsame
        omega
      · rintro rfl
        omega
    · exact Iff.rfl

theorem search_exact_iff_react :
    (PackagesExact lowerLetters "React".toList ↔ '\\' ∉ "React".toList) ∧
      (SuggestionsExact lowerLetters "React".toList ↔ '\\' ∉ "React".toList) ∧
      (StaleExact lowerLetters "React".toList ↔ '\\' ∉ "React".toList) ∧
      ReleasesExact lowerLetters "React".toList ∧
      AlertsExact lowerLetters "React".toList ∧
      (UsersExact lowerLetters "React".toList ↔ ∀ c ∈ "React".toList, isSymbol c = false) :=
  search_exact_iff lowerLetters (by decide)

/-- Two users, one of them with an underscore in the first name. -/
def twoNames : Database where
  packages := []
  releases := []
  diffs := []
  analyses := []
  alerts := []
  users := [⟨0, "a@x.org".toList, "Ann_Lee".toList, [], true, false⟩,
    ⟨1, "b@x.org".toList, "Bob".toList, [], true, false⟩]
  packageIDs := List.nodup_nil
  releaseIDs := List.nodup_nil
  alertIDs := List.nodup_nil
  userIDs := by decide

/-- A search for an underscore shows users without one, and a search for a backslash does not show
the package that has one. -/
theorem search_inexact :
    ¬UsersExact lowerLetters "_".toList ∧ ¬PackagesExact lowerLetters "\\".toList := by
  constructor
  · intro hexact
    have hrows := hexact twoNames ⟨none, none, none⟩
    exact absurd (congrArg List.length hrows) (by decide +kernel)
  · intro hexact
    have hrows := hexact (oneOfEach "a\\b".toList statusActive) 0 noPackageFilters
    exact absurd (congrArg List.length hrows) (by decide +kernel)

end Listings
end Veilence

import Mathlib
import Veilence.Pipeline.Registry
import Veilence.Registry.ModulePath

/-!
# Versions of the Go proxy

{lit}`GetPackage` of the Go modules client with the URLs that it requests.  The regular
expression for versions has no hyphen in the classes of the pre-release and the build, and the
version is put into the URLs as it is, while the proxy encodes its upper case letters.

Main results:

- Theorem {lit}`goSemver_iff`: which semantic versions the regular expression matches.
- Theorem {lit}`versionsOf_eq`: the loop over a list whose versions are all requested as the
  proxy encodes them.
- Theorem {lit}`getPackage_complete_iff`: when every listed version is returned.
-/

namespace Veilence
namespace Registry

open Go Pipeline

/-! ## Requests -/

/-- A response. -/
structure Response where
  status : Nat
  body : GoString
deriving DecidableEq

/-- {lit}`GoModulesClient`: its base URL, the requests that it sends, and how an info body is
decoded. -/
structure GoModulesClient where
  baseURL : GoString
  get : GoString → Except GoString Response
  decodeInfo : GoString → Except GoString Int

/-- The URL of a file of a module. -/
def GoModulesClient.fileURL (c : GoModulesClient) (encoded file : GoString) : GoString :=
  c.baseURL ++ '/' :: encoded ++ "/@v/".toList ++ file

/-- {lit}`getVersionInfo`: the publish time. -/
def getVersionInfo (c : GoModulesClient) (encodedModule version : GoString) :
    Except GoString Int :=
  match c.get (c.fileURL encodedModule (version ++ ".info".toList)) with
  | .error e => .error ("fetching version info: ".toList ++ e)
  | .ok resp =>
      if resp.status ≠ 200 then
        .error ("version info returned status ".toList ++ itoa resp.status)
      else
        (c.decodeInfo (resp.body.take (1024 * 1024))).mapError
          ("decoding version info: ".toList ++ ·)

/-- The loop over the lines, with the number of versions looked up so far. -/
def versionsOf (c : GoModulesClient) (encoded : GoString) (versionCount : Nat) :
    List GoString → List RegistryVersionInfo
  | [] => []
  | line :: lines =>
      if goMaxVersions ≤ versionCount then []
      else
        let version := trimSpace line
        if version = [] ∨ goSemver version = false then versionsOf c encoded versionCount lines
        else
          match getVersionInfo c encoded version with
          | .error _ => versionsOf c encoded (versionCount + 1) lines
          | .ok publishedAt =>
              { version := version.tail
                publishedAt
                tarballURL := c.fileURL encoded (version ++ ".zip".toList) } ::
              versionsOf c encoded (versionCount + 1) lines

/-- {lit}`RegistryPackageInfo`. -/
structure RegistryPackageInfo where
  name : GoString
  version : GoString
  versions : List RegistryVersionInfo

/-- The versions of a list response.  A line that fills the buffer of the scanner is an error. -/
def readVersions (c : GoModulesClient) (name encoded body : GoString) :
    Except GoString RegistryPackageInfo :=
  let versions := newestFirst (versionsOf c encoded 0 (goLines body))
  if (goLines body).any fun line => goMaxVersionListLen ≤ line.length then
    .error "reading version list: bufio.Scanner: token too long".toList
  else .ok ⟨name, (versions.head?.map RegistryVersionInfo.version).getD [], versions⟩

/-- {lit}`GetPackage`. -/
def getPackage (L : LetterCases) (c : GoModulesClient) (name : GoString) :
    Except GoString RegistryPackageInfo :=
  match validateModulePath name with
  | .error e => .error ("invalid module path: ".toList ++ e)
  | .ok () =>
      let encoded := encodeModulePath L name
      match c.get (c.fileURL encoded "list".toList) with
      | .error e => .error ("fetching version list for module: ".toList ++ e)
      | .ok resp =>
          if resp.status = 404 then .error "module not found on Go proxy".toList
          else if resp.status = 429 then .error "go proxy rate limited".toList
          else if resp.status ≠ 200 then
            .error ("go proxy returned status ".toList ++ itoa resp.status ++
              " for module".toList)
          else readVersions c name encoded resp.body

/-! ## Semantic versions -/

/-- A character of an identifier. -/
def isIdentifierChar (c : Char) : Bool :=
  c.isAlphanum || c = '-'

/-- An identifier of a pre-release or a build. -/
abbrev Identifier : Type :=
  { s : GoString // s ≠ [] ∧ s.all isIdentifierChar = true }

/-- A semantic version. -/
structure Semver where
  major : Nat
  minor : Nat
  patch : Nat
  prerelease : List Identifier
  build : List Identifier

/-- Identifiers between dots. -/
def dotted (ids : List Identifier) : GoString :=
  join '.' (ids.map Subtype.val)

/-- A pre-release or a build behind its mark. -/
def suffixText (mark : Char) (ids : List Identifier) : GoString :=
  if ids = [] then [] else mark :: dotted ids

/-- The canonical text of a version. -/
def Semver.text (v : Semver) : GoString :=
  'v' :: (itoa v.major ++ '.' :: (itoa v.minor ++ '.' :: (itoa v.patch ++
    (suffixText '-' v.prerelease ++ suffixText '+' v.build))))

/-- The case-encoding of the module proxy: an exclamation mark and the lower case letter for each
upper case letter. -/
def caseEncode (version : GoString) : GoString :=
  version.flatMap fun c => if c.isUpper then ['!', c.toLower] else [c]

/-- A version that the client can get: no hyphen in an identifier, no upper case letter, and
shorter than the buffer of the scanner. -/
def Plain (v : Semver) : Prop :=
  '-' ∉ dotted v.prerelease ∧ '-' ∉ dotted v.build ∧ v.text.any Char.isUpper = false ∧
    v.text.length < goMaxVersionListLen

instance : DecidablePred Plain :=
  fun _ => inferInstanceAs (Decidable (_ ∧ _ ∧ _ ∧ _))

/-- The body of a list response, with or without a newline at the end. -/
def listBody (versions : List Semver) (newline : Bool) : GoString :=
  join '\n' (versions.map Semver.text ++ if newline then [[]] else [])

/-! ## The regular expression -/

section Matching

variable {cls : Char → Bool} {s t : GoString} {ids : List Identifier} {mark : Char}

/-- A repetition takes a nonempty text of its class that ends there. -/
theorem many_append (hne : s ≠ []) (hs : ∀ c ∈ s, cls c = true)
    (ht : ∀ c ∈ t.head?, cls c = false) : many cls (s ++ t) = some t := by
  have hdrop : t.dropWhile cls = t := by
    cases t with
    | nil => rfl
    | cons c t => rw [List.dropWhile_cons, ht c rfl, if_neg Bool.false_ne_true]
  unfold many
  rw [List.takeWhile_append_of_pos hs, List.dropWhile_append_of_pos hs, hdrop, if_neg]
  intro hnil
  exact hne (List.append_eq_nil_iff.mp hnil).1

/-- A number takes its digits. -/
theorem many_itoa (n : Nat) (ht : ∀ c ∈ t.head?, isDigit c = false) :
    many isDigit (itoa n ++ t) = some t := by
  apply many_append Nat.toDigits_ne_nil _ ht
  intro c hc
  exact Nat.isDigit_of_mem_toDigits (by decide) (by decide) hc

/-- Identifiers consist of characters of the class and of hyphens. -/
theorem isLabel_of_mem_dotted {c : Char} (hc : c ∈ dotted ids) (hne : c ≠ '-') :
    isLabel c = true := by
  rcases mem_of_mem_join hc with rfl | ⟨part, hpart, hc⟩
  · decide
  · obtain ⟨id, -, rfl⟩ := List.mem_map.mp hpart
    have hchar := List.all_eq_true.mp id.2.2 c hc
    simp only [isIdentifierChar, Bool.or_eq_true, decide_eq_true_eq, hne, or_false] at hchar
    simp only [Char.isAlphanum, Char.isAlpha, Bool.or_eq_true] at hchar
    rcases hchar with (hupper | hlower) | hdigit
    · have hrange : 'A' ≤ c ∧ c ≤ 'Z' := of_decide_eq_true hupper
      simp [isLabel, hrange]
    · have hrange : ('a' ≤ c : Bool) = true ∧ (c ≤ 'z' : Bool) = true :=
        (Bool.and_eq_true ..).mp hlower
      simp [isLabel, of_decide_eq_true hrange.1, of_decide_eq_true hrange.2]
    · have hclass : isDigit c = true := hdigit
      simp [isLabel, hclass]

theorem dotted_ne_nil (hids : ids ≠ []) : dotted ids ≠ [] := by
  cases ids with
  | nil => exact absurd rfl hids
  | cons id rest =>
      cases rest with
      | nil => simpa [dotted, join] using id.2.1
      | cons next rest =>
          intro hnil
          unfold dotted at hnil
          rw [List.map_cons, List.map_cons, join_cons_cons] at hnil
          exact absurd (List.append_eq_nil_iff.mp hnil).2 (List.cons_ne_nil _ _)

/-- Identifiers without a hyphen are taken by the group. -/
theorem group_suffixText (hplain : '-' ∉ dotted ids) (ht : ∀ c ∈ t.head?, isLabel c = false)
    (hmark : ∀ c ∈ t.head?, c ≠ mark) : group mark (suffixText mark ids ++ t) = some t := by
  unfold suffixText
  split_ifs with hids
  · cases t with
    | nil => rfl
    | cons c t => exact if_neg (hmark c rfl)
  · rw [List.cons_append, group, if_pos rfl]
    apply many_append (dotted_ne_nil hids) _ ht
    intro c hc
    apply isLabel_of_mem_dotted hc
    rintro rfl
    exact hplain hc

/-- A hyphen in an identifier stops the group. -/
theorem group_suffixText_of_mem (hhyphen : '-' ∈ dotted ids) :
    group mark (suffixText mark ids ++ t) = none ∨
      ∃ rest, group mark (suffixText mark ids ++ t) = some ('-' :: rest) := by
  have hids : ids ≠ [] := by
    rintro rfl
    exact absurd hhyphen List.not_mem_nil
  obtain ⟨before, after, heq, hnot⟩ := List.eq_append_cons_of_mem hhyphen
  unfold suffixText
  rw [if_neg hids, List.cons_append, group, if_pos rfl, heq, List.append_assoc, List.cons_append]
  cases before with
  | nil =>
      left
      rfl
  | cons c before =>
      right
      refine ⟨after ++ t, many_append (List.cons_ne_nil _ _) ?_ ?_⟩
      · intro d hd
        have hmem : d ∈ dotted ids := by
          rw [heq]
          exact List.mem_append_left _ hd
        apply isLabel_of_mem_dotted hmem
        rintro rfl
        exact hnot hd
      · intro d hd
        obtain rfl := Option.some.inj hd
        decide

end Matching

/-- The regular expression matches a semantic version exactly if no identifier has a hyphen. -/
theorem goSemver_iff (v : Semver) :
    goSemver v.text = true ↔ '-' ∉ dotted v.prerelease ∧ '-' ∉ dotted v.build := by
  have hbuild : ∀ c ∈ (suffixText '+' v.build).head?, c = '+' := by
    intro c hc
    unfold suffixText at hc
    split_ifs at hc
    · exact absurd hc (by simp)
    · exact (Option.some.inj hc).symm
  have htail : ∀ c ∈ (suffixText '-' v.prerelease ++ suffixText '+' v.build).head?,
      isDigit c = false := by
    intro c hc
    unfold suffixText at hc
    split_ifs at hc
    · exact absurd hc (by simp)
    · obtain rfl := Option.some.inj hc
      decide
    · obtain rfl := Option.some.inj hc
      decide
    · obtain rfl := Option.some.inj hc
      decide
  have hcore : (char 'v' v.text >>= many isDigit >>= char '.' >>= many isDigit >>= char '.' >>=
      many isDigit) = some (suffixText '-' v.prerelease ++ suffixText '+' v.build) := by
    have hdot : ∀ t, ∀ c ∈ ('.' :: t : GoString).head?, isDigit c = false := by
      intro t c hc
      obtain rfl := Option.some.inj hc
      decide
    have hchar : ∀ mark t, char mark (mark :: t) = some t := fun mark t => if_pos rfl
    simp only [Semver.text, hchar, Option.bind_eq_bind, Option.bind_some, many_itoa _ (hdot _),
      many_itoa _ htail]
  have hmatch : goSemver v.text =
      decide ((group '-' (suffixText '-' v.prerelease ++ suffixText '+' v.build) >>=
        group '+') = some []) := by
    unfold goSemver
    rw [hcore]
    rfl
  have hend : group '+' (suffixText '+' v.build) = some [] ↔ '-' ∉ dotted v.build := by
    constructor
    · intro hgroup hhyphen
      have hstop : group '+' (suffixText '+' v.build ++ []) = none ∨
          ∃ rest, group '+' (suffixText '+' v.build ++ []) = some ('-' :: rest) :=
        group_suffixText_of_mem hhyphen
      rw [List.append_nil, hgroup] at hstop
      rcases hstop with hnone | ⟨rest, hrest⟩
      · exact Option.some_ne_none _ hnone
      · exact absurd (Option.some.inj hrest) (List.cons_ne_nil _ _).symm
    · intro hplain
      have hgroup : group '+' (suffixText '+' v.build ++ []) = some [] :=
        group_suffixText hplain (by simp) (by simp)
      rwa [List.append_nil] at hgroup
  rw [hmatch, decide_eq_true_iff]
  by_cases hpre : '-' ∈ dotted v.prerelease
  · simp only [hpre, not_true, false_and, iff_false]
    have hstop : group '-' (suffixText '-' v.prerelease ++ suffixText '+' v.build) = none ∨
        ∃ rest, group '-' (suffixText '-' v.prerelease ++ suffixText '+' v.build) =
          some ('-' :: rest) :=
      group_suffixText_of_mem hpre
    rcases hstop with hnone | ⟨rest, hrest⟩
    · rw [hnone]
      exact fun h => Option.some_ne_none _ h.symm
    · rw [hrest]
      intro h
      have hstop : group '+' ('-' :: rest) = some ('-' :: rest) := by
        rw [group, if_neg (by decide)]
      exact absurd (Option.some.inj (hstop.symm.trans h)) (List.cons_ne_nil _ _)
  · simp only [hpre, not_false_eq_true, true_and]
    rw [group_suffixText hpre, Option.bind_eq_bind, Option.bind_some]
    · exact hend
    · intro c hc
      rw [hbuild c hc]
      decide
    · intro c hc
      rw [hbuild c hc]
      decide

/-! ## Lines -/

/-- The visible characters of ASCII. -/
def Visible (c : Char) : Prop :=
  0x21 ≤ c.toNat ∧ c.toNat ≤ 0x7E

theorem Visible.solid {c : Char} (hc : Visible c) : Solid c := by
  have hspaces : ∀ p ∈ spaces, ∀ d ∈ p, d.toNat ≤ 0x20 ∨ 0x7F ≤ d.toNat := by
    simp [spaces]
  intro p hp hmem
  have hspace := hspaces p hp c hmem
  unfold Visible at hc
  omega

theorem visible_of_isAlphanum {c : Char} (hc : c.isAlphanum = true) : Visible c := by
  simp only [Char.isAlphanum, Char.isAlpha, Bool.or_eq_true] at hc
  rcases hc with (hupper | hlower) | hdigit
  · have hrange : 'A'.val ≤ c.val ∧ c.val ≤ 'Z'.val := of_decide_eq_true hupper
    have hlow : 65 ≤ c.toNat := UInt32.le_iff_toNat_le.mp hrange.1
    have hhigh : c.toNat ≤ 90 := UInt32.le_iff_toNat_le.mp hrange.2
    exact ⟨by omega, by omega⟩
  · obtain ⟨hge, hle⟩ := (Bool.and_eq_true ..).mp hlower
    have hlow : 97 ≤ c.toNat := UInt32.le_iff_toNat_le.mp (of_decide_eq_true hge)
    have hhigh : c.toNat ≤ 122 := UInt32.le_iff_toNat_le.mp (of_decide_eq_true hle)
    exact ⟨by omega, by omega⟩
  · obtain ⟨hge, hle⟩ := (Bool.and_eq_true ..).mp hdigit
    have hlow : 48 ≤ c.toNat := UInt32.le_iff_toNat_le.mp (of_decide_eq_true hge)
    have hhigh : c.toNat ≤ 57 := UInt32.le_iff_toNat_le.mp (of_decide_eq_true hle)
    exact ⟨by omega, by omega⟩

theorem visible_of_mem_itoa {n : Nat} {c : Char} (hc : c ∈ itoa n) : Visible c := by
  apply visible_of_isAlphanum
  rw [Char.isAlphanum, Nat.isDigit_of_mem_toDigits (by decide) (by decide) hc, Bool.or_true]

theorem visible_of_mem_suffixText {mark : Char} (hmark : Visible mark) {ids : List Identifier}
    {c : Char} (hc : c ∈ suffixText mark ids) : Visible c := by
  unfold suffixText at hc
  split_ifs at hc
  · exact absurd hc List.not_mem_nil
  · rcases List.mem_cons.mp hc with rfl | hc
    · exact hmark
    · rcases mem_of_mem_join hc with rfl | ⟨part, hpart, hc⟩
      · exact ⟨by decide, by decide⟩
      · obtain ⟨id, -, rfl⟩ := List.mem_map.mp hpart
        rcases (Bool.or_eq_true ..).mp (List.all_eq_true.mp id.2.2 c hc) with halnum | hhyphen
        · exact visible_of_isAlphanum halnum
        · rw [of_decide_eq_true hhyphen]
          exact ⟨by decide, by decide⟩

theorem visible_of_mem_text {v : Semver} {c : Char} (hc : c ∈ v.text) : Visible c := by
  simp only [Semver.text, List.mem_cons, List.mem_append] at hc
  rcases hc with rfl | hc | rfl | hc | rfl | hc | hc | hc
  · exact ⟨by decide, by decide⟩
  · exact visible_of_mem_itoa hc
  · exact ⟨by decide, by decide⟩
  · exact visible_of_mem_itoa hc
  · exact ⟨by decide, by decide⟩
  · exact visible_of_mem_itoa hc
  · exact visible_of_mem_suffixText ⟨by decide, by decide⟩ hc
  · exact visible_of_mem_suffixText ⟨by decide, by decide⟩ hc

/-- A version has no space around it. -/
theorem trimSpace_text (v : Semver) : trimSpace v.text = v.text := by
  have htail : v.text.tail ≠ [] := by simp [Semver.text]
  have hsplit : v.text = [] ++ ('v' :: v.text.tail.dropLast ++ [v.text.tail.getLast htail]) ++ [] := by
    rw [List.nil_append, List.append_nil, List.cons_append, List.dropLast_append_getLast]
    rfl
  have hlast : Visible (v.text.tail.getLast htail) :=
    visible_of_mem_text (List.mem_of_mem_tail (List.getLast_mem htail))
  obtain ⟨a, b, ha, hb, htrim⟩ := exists_trimSpace (c := 'v') (by decide) hlast.solid []
    v.text.tail.dropLast []
  rw [List.suffix_nil.mp ha, List.prefix_nil.mp hb, ← hsplit] at htrim
  exact htrim

/-- The lines of a list: the versions, and perhaps an empty one. -/
theorem goLines_listBody {versions : List Semver} {newline : Bool}
    (hlength : (listBody versions newline).length ≤ goMaxVersionListLen) :
    ∃ blank, goLines (listBody versions newline) = versions.map Semver.text ++ blank ∧
      ∀ line ∈ blank, line = [] := by
  unfold goLines
  rw [List.take_of_length_le hlength]
  by_cases hnil : versions.map Semver.text ++ (if newline then [[]] else []) = []
  · refine ⟨[[]], ?_, by simp⟩
    rw [(List.append_eq_nil_iff.mp hnil).1]
    unfold listBody
    rw [hnil]
    rfl
  · refine ⟨if newline then [[]] else [], List.splitOn_intercalate _ ?_ hnil, ?_⟩
    · intro line hline hmem
      rcases List.mem_append.mp hline with hline | hline
      · obtain ⟨v, -, rfl⟩ := List.mem_map.mp hline
        exact absurd (visible_of_mem_text hmem).1 (by decide)
      · split_ifs at hline
        · rw [List.mem_singleton.mp hline] at hmem
          exact absurd hmem List.not_mem_nil
        · exact absurd hline List.not_mem_nil
    · intro line hline
      split_ifs at hline
      · exact List.mem_singleton.mp hline
      · exact absurd hline List.not_mem_nil

/-! ## The loop -/

section Loop

variable {c : GoModulesClient} {encoded : GoString} {n : Nat} {lines : List GoString}
  {published : GoString → Int}

/-- What the loop returns comes of a line that the regular expression matches, with the version
of that line in the URL. -/
theorem of_mem_versionsOf {info : RegistryVersionInfo} (h : info ∈ versionsOf c encoded n lines) :
    ∃ line ∈ lines, goSemver (trimSpace line) = true ∧ info.version = (trimSpace line).tail ∧
      info.tarballURL = c.fileURL encoded (trimSpace line ++ ".zip".toList) := by
  induction lines generalizing n with
  | nil => exact absurd h List.not_mem_nil
  | cons line lines ih =>
      have hrest : ∀ n, info ∈ versionsOf c encoded n lines →
          ∃ other ∈ line :: lines, goSemver (trimSpace other) = true ∧
            info.version = (trimSpace other).tail ∧
            info.tarballURL = c.fileURL encoded (trimSpace other ++ ".zip".toList) := by
        intro n hmem
        obtain ⟨other, hother, hinfo⟩ := ih hmem
        exact ⟨other, List.mem_cons_of_mem _ hother, hinfo⟩
      rw [versionsOf] at h
      split_ifs at h with hcount
      · exact absurd h List.not_mem_nil
      · dsimp only at h
        split_ifs at h with hskip
        · exact hrest _ h
        · split at h
          · exact hrest _ h
          · rcases List.mem_cons.mp h with rfl | h
            · obtain ⟨-, hmatch⟩ := not_or.mp hskip
              rw [Bool.not_eq_false] at hmatch
              exact ⟨line, List.mem_cons_self, hmatch, rfl, rfl⟩
            · exact hrest _ h

/-- The entry of a version, with the URL that the proxy serves. -/
def entryOf (c : GoModulesClient) (encoded : GoString) (published : GoString → Int)
    (v : Semver) : RegistryVersionInfo where
  version := v.text.tail
  publishedAt := published v.text
  tarballURL := c.fileURL encoded (caseEncode v.text ++ ".zip".toList)

/-- The proxy answers the requests that follow its encoding. -/
def Answers (c : GoModulesClient) (encoded : GoString) (published : GoString → Int)
    (versions : List Semver) : Prop :=
  ∀ v ∈ versions, getVersionInfo c encoded (caseEncode v.text) = .ok (published v.text)

theorem versionsOf_blank {blank : List GoString} (hblank : ∀ line ∈ blank, line = []) (n : Nat) :
    versionsOf c encoded n blank = [] := by
  induction blank with
  | nil => rfl
  | cons line blank ih =>
      have hline := hblank line List.mem_cons_self
      have hrest := ih fun l hl => hblank l (List.mem_cons_of_mem _ hl)
      have hempty : trimSpace [] = [] := rfl
      rw [versionsOf, hline]
      split_ifs
      · rfl
      · dsimp only
        rw [hempty, if_pos (Or.inl rfl)]
        exact hrest

/-- Text without upper case letters is its own encoding. -/
theorem caseEncode_of_lower {s : GoString} (hs : s.any Char.isUpper = false) :
    caseEncode s = s := by
  induction s with
  | nil => rfl
  | cons c s ih =>
      obtain ⟨hc, hs⟩ := (Bool.or_eq_false_iff ..).mp hs
      have hrest := ih hs
      unfold caseEncode at hrest ⊢
      rw [List.flatMap_cons, hc, hrest]
      rfl

/-- The encoding of text with upper case letters is longer. -/
theorem lower_of_caseEncode {s : GoString} (hs : caseEncode s = s) :
    s.any Char.isUpper = false := by
  have hcons : ∀ c (s : GoString),
      caseEncode (c :: s) = (if c.isUpper then ['!', c.toLower] else [c]) ++ caseEncode s :=
    fun _ _ => rfl
  have hlength : ∀ s : GoString, s.length ≤ (caseEncode s).length := by
    intro s
    induction s with
    | nil => exact Nat.le_refl _
    | cons c s ih =>
        rw [hcons, List.length_append, List.length_cons]
        split_ifs
        · simp only [List.length_cons, List.length_nil]
          omega
        · simp only [List.length_cons, List.length_nil]
          omega
  induction s with
  | nil => rfl
  | cons c s ih =>
      rw [hcons] at hs
      cases hc : c.isUpper with
      | true =>
          have hlen := congrArg List.length hs
          have hle := hlength s
          simp only [hc, if_true, List.length_append, List.length_cons, List.length_nil] at hlen
          omega
      | false =>
          rw [hc] at hs
          rw [List.any_cons, hc, ih (List.cons.inj hs).2, Bool.or_false]

/-- The loop over the texts of plain versions. -/
theorem versionsOf_eq {versions : List Semver} (hplain : ∀ v ∈ versions, Plain v)
    (hanswers : Answers c encoded published versions) {blank : List GoString}
    (hblank : ∀ line ∈ blank, line = []) (hcount : n + versions.length ≤ goMaxVersions) :
    versionsOf c encoded n (versions.map Semver.text ++ blank) =
      versions.map (entryOf c encoded published) := by
  induction versions generalizing n with
  | nil => exact versionsOf_blank hblank n
  | cons v versions ih =>
      obtain ⟨hpre, hbuild, hlower, -⟩ := hplain v List.mem_cons_self
      have hrest := ih (n := n + 1) (fun v hv => hplain v (List.mem_cons_of_mem _ hv))
        (fun v hv => hanswers v (List.mem_cons_of_mem _ hv))
        (by rw [List.length_cons] at hcount; omega)
      have hencode := caseEncode_of_lower hlower
      have hinfo := hanswers v List.mem_cons_self
      have hmatch := (goSemver_iff v).mpr ⟨hpre, hbuild⟩
      have hcontinue : ¬goMaxVersions ≤ n := by
        rw [List.length_cons] at hcount
        omega
      have hkeep : ¬(v.text = [] ∨ goSemver v.text = false) := by
        rw [hmatch]
        simp [Semver.text]
      rw [hencode] at hinfo
      rw [List.map_cons, List.cons_append, versionsOf, if_neg hcontinue]
      dsimp only
      rw [trimSpace_text, if_neg hkeep, hinfo]
      dsimp only
      rw [hrest, List.map_cons, entryOf, hencode]

end Loop

/-! ## Completeness -/

/-- Every listed version has exactly one entry, with its publish time and the URL that the proxy
serves. -/
def CompleteListing (L : LetterCases) (c : GoModulesClient) (name : GoString)
    (published : GoString → Int) (versions : List Semver) : Prop :=
  ∃ info, getPackage L c name = .ok info ∧
    info.versions.Perm (versions.map (entryOf c (encodeModulePath L name) published))

/-- A list response of at most 1 MB and 10000 versions, with the answers that the proxy gives. -/
structure Listing (L : LetterCases) (c : GoModulesClient) (name : GoString)
    (published : GoString → Int) (versions : List Semver) (newline : Bool) : Prop where
  valid : validateModulePath name = .ok ()
  list : c.get (c.fileURL (encodeModulePath L name) "list".toList) =
    .ok ⟨200, listBody versions newline⟩
  length : (listBody versions newline).length ≤ goMaxVersionListLen
  count : versions.length ≤ goMaxVersions
  answers : Answers c (encodeModulePath L name) published versions

variable {L : LetterCases} {c : GoModulesClient} {name : GoString} {published : GoString → Int}
  {versions : List Semver} {newline : Bool}

theorem getPackage_of_listing (h : Listing L c name published versions newline) :
    getPackage L c name =
      readVersions c name (encodeModulePath L name) (listBody versions newline) := by
  simp only [getPackage, h.valid, h.list]
  rfl

/-- Every listed version is returned exactly if all of them are plain. -/
theorem getPackage_complete_iff (h : Listing L c name published versions newline) :
    CompleteListing L c name published versions ↔ ∀ v ∈ versions, Plain v := by
  obtain ⟨blank, hlines, hblank⟩ := goLines_listBody h.length
  unfold CompleteListing
  rw [getPackage_of_listing h, readVersions, hlines]
  constructor
  · intro hcomplete v hv
    obtain ⟨info, hok, hperm⟩ := hcomplete
    split_ifs at hok with hlong
    have hinfo := Except.ok.inj hok
    have hmem : entryOf c (encodeModulePath L name) published v ∈ info.versions :=
      hperm.mem_iff.mpr (List.mem_map_of_mem hv)
    rw [← hinfo] at hmem
    obtain ⟨line, hline, hmatch, hversion, hurl⟩ :=
      of_mem_versionsOf ((List.mem_insertionSort _).mp hmem)
    have htext : trimSpace line = v.text := by
      rcases List.mem_append.mp hline with hline | hline
      · obtain ⟨v', -, rfl⟩ := List.mem_map.mp hline
        rw [trimSpace_text] at hversion ⊢
        exact congrArg ('v' :: ·) hversion.symm
      · rw [hblank line hline] at hmatch
        exact absurd hmatch (by decide)
    rw [htext] at hmatch hurl
    obtain ⟨hpre, hbuild⟩ := (goSemver_iff v).mp hmatch
    refine ⟨hpre, hbuild, lower_of_caseEncode ?_, ?_⟩
    · exact List.append_cancel_right (List.append_cancel_left hurl)
    · simp only [List.any_eq_true, decide_eq_true_eq, not_exists, not_and, Nat.not_le] at hlong
      exact hlong v.text (List.mem_append_left _ (List.mem_map_of_mem hv))
  · intro hplain
    have hshort : ¬((versions.map Semver.text ++ blank).any fun line =>
        decide (goMaxVersionListLen ≤ line.length)) = true := by
      simp only [List.any_eq_true, decide_eq_true_eq, not_exists, not_and, Nat.not_le]
      intro line hline
      rcases List.mem_append.mp hline with hline | hline
      · obtain ⟨v, hv, rfl⟩ := List.mem_map.mp hline
        exact (hplain v hv).2.2.2
      · rw [hblank line hline]
        decide
    rw [if_neg hshort]
    refine ⟨_, rfl, ?_⟩
    rw [versionsOf_eq hplain h.answers hblank (by rw [Nat.zero_add]; exact h.count)]
    exact List.perm_insertionSort _ _

/-! ### Two lists -/

/-- A proxy that serves a list of versions of one module, each published at time 1. -/
def someProxy (versions : List Semver) : GoModulesClient where
  baseURL := "https://proxy".toList
  get url :=
    if url = "https://proxy/a.b/m/@v/list".toList then .ok ⟨200, listBody versions true⟩
    else if versions.any fun v =>
        url = "https://proxy/a.b/m/@v/".toList ++ caseEncode v.text ++ ".info".toList then
      .ok ⟨200, []⟩
    else .ok ⟨404, []⟩
  decodeInfo _ := .ok 1

theorem identifier_alpha :
    "alpha-1".toList ≠ [] ∧ "alpha-1".toList.all isIdentifierChar = true := by
  decide +kernel

theorem identifier_rc : "rc".toList ≠ [] ∧ "rc".toList.all isIdentifierChar = true := by
  decide +kernel

/-- A version with a hyphen in an identifier. -/
def hyphenated : Semver :=
  ⟨1, 0, 0, [⟨"alpha-1".toList, identifier_alpha⟩], []⟩

/-- A release and a pre-release without hyphens and upper case letters. -/
def plainVersions : List Semver :=
  [⟨1, 0, 0, [], []⟩, ⟨1, 1, 0, [⟨"rc".toList, identifier_rc⟩], []⟩]

/-- The version is not returned. -/
theorem getPackage_misses :
    Listing asciiCases (someProxy [hyphenated]) "a.b/m".toList (fun _ => 1) [hyphenated] true ∧
      ¬CompleteListing asciiCases (someProxy [hyphenated]) "a.b/m".toList (fun _ => 1) [hyphenated] := by
  constructor
  · refine ⟨by decide +kernel, by decide +kernel, by decide +kernel, by decide, ?_⟩
    intro v hv
    rw [List.mem_singleton.mp hv]
    decide +kernel
  · intro hcomplete
    obtain ⟨info, hok, hperm⟩ := hcomplete
    have hresult : (getPackage asciiCases (someProxy [hyphenated]) "a.b/m".toList).toOption.map
        RegistryPackageInfo.versions = some [] := by
      decide +kernel
    rw [hok] at hresult
    have hnone : info.versions = [] := Option.some.inj hresult
    rw [hnone] at hperm
    exact absurd hperm.length_eq (by decide)

/-- The versions are returned. -/
theorem getPackage_finds :
    CompleteListing asciiCases (someProxy plainVersions) "a.b/m".toList (fun _ => 1) plainVersions := by
  have hlisting : Listing asciiCases (someProxy plainVersions) "a.b/m".toList (fun _ => 1)
      plainVersions true := by
    refine ⟨by decide +kernel, by decide +kernel, by decide +kernel, by decide, ?_⟩
    have hanswers : ∀ v ∈ plainVersions,
        getVersionInfo (someProxy plainVersions) "a.b/m".toList (caseEncode v.text) = .ok 1 := by
      decide +kernel
    exact hanswers
  exact (getPackage_complete_iff hlisting).mpr (by decide +kernel)

end Registry
end Veilence

import Veilence.Go.Authority
import Veilence.Registry.Download

/-!
# The origin of an archive

A registry client downloads an archive only from a URL that starts with the text of a base URL.
The host of a URL is more than a text at its beginning: if the base URL ends with its authority,
a URL with that beginning can go on with more of a host name, with a port, or with an at sign and
another host.

Main results:

- Theorem {lit}`originChecked_iff`: the check keeps the origin for every URL if and only if the
  base URL goes on after its authority.
- Theorem {lit}`foreign_host`: a URL with another host that passes against the base URL of npm.
-/

namespace Veilence
namespace Registry

open Go

/-- Every URL that passes the check against a base URL and that {lit}`net/http` can parse has the
scheme and the host, with the port, of the base URL. -/
def OriginChecked (isIPv6 : GoString → Bool) (baseURL : GoString) : Prop :=
  ∀ tarballURL u v, validateTarballURL tarballURL baseURL = true →
    requestURL isIPv6 tarballURL = some u → requestURL isIPv6 baseURL = some v →
      u.scheme = v.scheme ∧ u.host = v.host

variable {isIPv6 : GoString → Bool}

/-- A URL with the scheme and the authority of another one has its origin. -/
theorem sameOrigin_of_authority {a b : AbsoluteURL} (hscheme : a.scheme = b.scheme)
    (hauthority : a.authority = b.authority) {u v : URL} (hu : requestURL isIPv6 a.text = some u)
    (hv : requestURL isIPv6 b.text = some v) : u.scheme = v.scheme ∧ u.host = v.host := by
  obtain ⟨huscheme, user, host, hparse, huhost⟩ := a.host_of_requestURL hu
  obtain ⟨hvscheme, user', host', hparse', hvhost⟩ := b.host_of_requestURL hv
  rw [hauthority, hparse', Option.some.injEq, Prod.mk.injEq] at hparse
  refine ⟨?_, ?_⟩
  · rw [huscheme, hvscheme, hscheme]
  · rw [huhost, hvhost, hparse.2]

/-- A base URL with text after its authority, continued. -/
def continued (b : AbsoluteURL) (htail : b.tail ≠ []) (s : GoString) : AbsoluteURL where
  scheme := b.scheme
  authority := b.authority
  tail := b.tail ++ s
  scheme_alpha := b.scheme_alpha
  scheme_bytes := b.scheme_bytes
  authority_bytes := b.authority_bytes
  tail_head := fun c hc =>
    b.tail_head c (List.head?_append_of_ne_nil b.tail htail ▸ hc)

/-- The continuations have no delimiters. -/
theorem bytes_of_continuation {e : GoString} (he : e = "0".toList ∨ e = ":0".toList) :
    ∀ c ∈ e, c ≠ '/' ∧ c ≠ '?' ∧ c ≠ '#' := by
  rcases he with rfl | rfl <;> simp

/-- A base URL whose authority is continued. -/
def longer (b : AbsoluteURL) (e : GoString) (he : e = "0".toList ∨ e = ":0".toList) :
    AbsoluteURL where
  scheme := b.scheme
  authority := b.authority ++ e
  tail := []
  scheme_alpha := b.scheme_alpha
  scheme_bytes := b.scheme_bytes
  authority_bytes := fun c hc =>
    (List.mem_append.mp hc).elim (b.authority_bytes c) (bytes_of_continuation he c)
  tail_head := nofun

/-- A host without an empty port is no longer. -/
theorem length_removeEmptyPort_le (host : GoString) :
    (removeEmptyPort host).length ≤ host.length := by
  unfold removeEmptyPort
  split
  · rename_i before hcut
    rw [eq_of_cutLast hcut]
    simp
  · exact Nat.le_refl _

/-- A continued host keeps its port. -/
theorem removeEmptyPort_longer (host : GoString) {e : GoString}
    (he : e = "0".toList ∨ e = ":0".toList) : removeEmptyPort (host ++ e) = host ++ e := by
  have hdigit : ∀ s : GoString, removeEmptyPort (s ++ "0".toList) = s ++ "0".toList := by
    intro s
    unfold removeEmptyPort
    rw [cutLast_append (by decide)]
    cases cutLast ':' s with
    | none => rfl
    | some parts =>
        obtain ⟨before, after⟩ := parts
        cases after <;> rfl
  rcases he with rfl | rfl
  · exact hdigit host
  · have hsplit : host ++ ":0".toList = (host ++ ":".toList) ++ "0".toList := by
      simp
    rw [hsplit]
    exact hdigit _

/-- The check keeps the origin for every URL if and only if the base URL goes on after its
authority. -/
theorem originChecked_iff (isIPv6 : GoString → Bool) (b : AbsoluteURL)
    (hparse : (requestURL isIPv6 b.text).isSome = true) :
    OriginChecked isIPv6 b.text ↔ b.tail ≠ [] := by
  constructor
  · intro hchecked htail
    obtain ⟨v, hv⟩ := Option.isSome_iff_exists.mp hparse
    obtain ⟨-, user, host, hauthority, hvhost⟩ := b.host_of_requestURL hv
    -- a continued authority has a longer host
    obtain ⟨e, he, hlonger⟩ := parseAuthority_longer hauthority
    have htext : (longer b e he).text = b.text ++ e := by
      simp [AbsoluteURL.text, AbsoluteURL.front, longer, htail]
    have hctl : (longer b e he).text.any ctlByte = false := by
      have hbase := b.any_ctlByte_of_requestURL hv
      have hfront : b.text = b.front ++ b.query := by
        rw [AbsoluteURL.text, htail, b.query_of_tail_nil htail]
      rw [← hfront] at hbase
      rw [htext, List.any_append, hbase, Bool.false_or]
      rcases he with rfl | rfl <;> rfl
    obtain ⟨u, hu, huhost⟩ := (longer b e he).requestURL_of_tail_nil rfl hlonger hctl
    have hprefix : validateTarballURL (longer b e he).text b.text = true := by
      unfold validateTarballURL
      rw [htext, List.isPrefixOf_iff_prefix]
      exact List.prefix_append _ _
    have hsame := (hchecked _ u v hprefix hu hv).2
    rw [huhost, hvhost, removeEmptyPort_longer host he] at hsame
    have hlength := length_removeEmptyPort_le host
    rw [← hsame, List.length_append] at hlength
    rcases he with rfl | rfl
    · simp at hlength
    · simp at hlength
  · intro htail tarballURL u v hprefix hu hv
    unfold validateTarballURL at hprefix
    obtain ⟨s, rfl⟩ := List.isPrefixOf_iff_prefix.mp hprefix
    have htext : (continued b htail s).text = b.text ++ s := by
      simp [AbsoluteURL.text, AbsoluteURL.front, continued]
    rw [← htext] at hu
    exact sameOrigin_of_authority (a := continued b htail s) (b := b) rfl rfl hu hv

/-! ## The default base URLs -/

theorem pypiBase_bytes :
    (∀ c ∈ "https".toList, schemeByte c = true) ∧
      (∀ c ∈ "files.pythonhosted.org".toList, c ≠ '/' ∧ c ≠ '?' ∧ c ≠ '#') ∧
      ∀ c ∈ "/".toList.head?, c = '/' ∨ c = '?' ∨ c = '#' := by
  refine ⟨List.all_eq_true.mp (by decide), ?_, ?_⟩
  · simp
  · simp

/-- The base URL of archives on PyPI. -/
def pypiBase : AbsoluteURL where
  scheme := "https".toList
  authority := "files.pythonhosted.org".toList
  tail := "/".toList
  scheme_alpha := ⟨'h', "ttps".toList, rfl, rfl⟩
  scheme_bytes := pypiBase_bytes.1
  authority_bytes := pypiBase_bytes.2.1
  tail_head := pypiBase_bytes.2.2

theorem originChecked_iff_pypiBase :
    OriginChecked (fun _ => false) pypiBase.text ↔ pypiBase.tail ≠ [] :=
  originChecked_iff (fun _ => false) pypiBase (by decide +kernel)

/-- The base URL of npm, which ends with its host. -/
def npmBase : GoString :=
  "https://registry.npmjs.org".toList

/-- A URL on another host that starts with that text. -/
def foreignURL : GoString :=
  "https://registry.npmjs.org.evil.example/a-1.tgz".toList

/-- The URL passes the check and leads to the other host. -/
theorem foreign_host :
    validateTarballURL foreignURL (npmClient npmBase 0).base = true ∧
      (requestURL (fun _ => false) foreignURL).map URL.host =
        some "registry.npmjs.org.evil.example".toList ∧
      ¬OriginChecked (fun _ => false) (npmClient npmBase 0).base := by
  have hforeign : (requestURL (fun _ => false) foreignURL).map URL.host =
      some "registry.npmjs.org.evil.example".toList := by
    decide +kernel
  have hbase : (requestURL (fun _ => false) npmBase).map URL.host =
      some "registry.npmjs.org".toList := by
    decide +kernel
  refine ⟨by decide, hforeign, fun hchecked => ?_⟩
  obtain ⟨u, hu, huhost⟩ := Option.map_eq_some_iff.mp hforeign
  obtain ⟨v, hv, hvhost⟩ := Option.map_eq_some_iff.mp hbase
  have hsame := (hchecked foreignURL u v (by decide) hu hv).2
  rw [huhost, hvhost] at hsame
  exact absurd hsame (by decide)

end Registry
end Veilence

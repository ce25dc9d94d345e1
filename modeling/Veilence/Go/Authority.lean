import Veilence.Go.Url

/-!
# Parsing a URL

{lit}`Parse` of {lit}`net/url` and what {lit}`net/http` makes of it for a request.  The authority
of a URL ends with the first slash, question mark or hash sign; the host is what comes after the
last at sign in it.  Which texts in brackets are IPv6 addresses is a parameter.

Main results:

- Theorem {lit}`AbsoluteURL.host_of_requestURL`: the host of a request comes from the authority
  alone.
- Theorem {lit}`parseAuthority_longer`: an authority can be continued by a digit or a port so that
  the host is longer.
-/

namespace Veilence
namespace Go

/-! ## Cutting -/

/-- The text before and after the last occurrence of a byte. -/
def cutLast (c : Char) (s : GoString) : Option (GoString × GoString) :=
  match s.reverse.span (· ≠ c) with
  | (_, []) => none
  | (after, _ :: before) => some (before.reverse, after.reverse)

/-- The text before and after the first occurrence of a text. -/
def cutAt (sep : GoString) : GoString → Option (GoString × GoString)
  | [] => if sep = [] then some ([], []) else none
  | c :: cs =>
      if sep.isPrefixOf (c :: cs) then some ([], (c :: cs).drop sep.length)
      else (cutAt sep cs).map fun e => (c :: e.1, e.2)

/-- A continuation without the byte continues the text after its last occurrence. -/
theorem cutLast_append {c : Char} {e : GoString} (he : c ∉ e) (s : GoString) :
    cutLast c (s ++ e) = (cutLast c s).map fun parts => (parts.1, parts.2 ++ e) := by
  have hspan : ((s ++ e).reverse.span (· ≠ c)) =
      (e.reverse ++ (s.reverse.span (· ≠ c)).1, (s.reverse.span (· ≠ c)).2) := by
    have hall : ∀ x ∈ e.reverse, decide (x ≠ c) = true := by
      intro x hx
      rw [decide_eq_true_eq]
      rintro rfl
      exact he (List.mem_reverse.mp hx)
    rw [List.reverse_append, List.span_eq_takeWhile_dropWhile, List.span_eq_takeWhile_dropWhile,
      List.takeWhile_append_of_pos hall, List.dropWhile_append_of_pos hall]
  unfold cutLast
  rw [hspan]
  obtain ⟨after, rest⟩ := s.reverse.span (· ≠ c)
  cases rest with
  | nil => rfl
  | cons d before => simp

/-- The parts of a text that is cut. -/
theorem eq_of_cutLast {c : Char} {s before after : GoString}
    (hcut : cutLast c s = some (before, after)) : s = before ++ c :: after := by
  unfold cutLast at hcut
  rw [List.span_eq_takeWhile_dropWhile] at hcut
  have hparts := List.takeWhile_append_dropWhile (p := fun x => decide (x ≠ c)) (l := s.reverse)
  cases hdrop : s.reverse.dropWhile (· ≠ c) with
  | nil =>
      rw [hdrop] at hcut
      exact nomatch hcut
  | cons d rest =>
      have hd : d = c := by
        have hhead := List.head?_dropWhile_not (· ≠ c) s.reverse
        rw [hdrop] at hhead
        simpa using hhead
      rw [hdrop] at hcut hparts
      simp only [Option.some.injEq, Prod.mk.injEq] at hcut
      obtain ⟨rfl, rfl⟩ := hcut
      have hwhole := congrArg List.reverse hparts
      rw [List.reverse_append, List.reverse_cons, List.reverse_reverse, List.append_assoc,
        hd] at hwhole
      exact hwhole.symm

/-- A text without the byte is not cut. -/
theorem cutLast_eq_none_iff {c : Char} {s : GoString} : cutLast c s = none ↔ c ∉ s := by
  unfold cutLast
  rw [List.span_eq_takeWhile_dropWhile]
  cases hdrop : s.reverse.dropWhile (· ≠ c) with
  | nil =>
      have hall := List.dropWhile_eq_nil_iff.mp hdrop
      constructor
      · intro _ hc
        have hne := hall c (List.mem_reverse.mpr hc)
        simp at hne
      · intro _
        rfl
  | cons d before =>
      constructor
      · intro hnone
        exact nomatch hnone
      · intro hc
        have hd : d = c := by
          have hhead := List.head?_dropWhile_not (· ≠ c) s.reverse
          rw [hdrop] at hhead
          simpa using hhead
        have hmem : d ∈ s.reverse.dropWhile (· ≠ c) := by
          rw [hdrop]
          exact List.mem_cons_self
        rw [← hd] at hc
        exact absurd (List.mem_reverse.mp (List.dropWhile_sublist _ |>.mem hmem)) hc

/-! ## The host -/

/-- The bytes that {lit}`shouldEscape` lets stand in a host. -/
def hostByte (c : Char) : Bool :=
  c.isAlphanum || "-_.~!$&'()*+,;=:[]<>\"".toList.contains c

/-- The byte of an escape in a host or, with {lit}`zone`, in a zone, if it may be written so. -/
def decodeEscape (zone : Bool) (hi lo : Char) : Option Char :=
  match unhex hi, unhex lo with
  | some h, some l =>
      let v := Char.ofNat (16 * h + l)
      if (hi = '2' ∧ lo = '5') ∨ (if zone then v = ' ' ∨ hostByte v else 8 ≤ h) then some v
      else none
  | _, _ => none

/-- {lit}`unescape` in the mode of a host or, with {lit}`zone`, of a zone. -/
def unescapeHost (zone : Bool) : GoString → Option GoString
  | [] => some []
  | c :: cs =>
      if c = '%' then
        match cs with
        | hi :: lo :: rest =>
            match decodeEscape zone hi lo with
            | some v => (unescapeHost zone rest).map (v :: ·)
            | none => none
        | _ => none
      else if 128 ≤ c.toNat ∨ hostByte c then (unescapeHost zone cs).map (c :: ·)
      else none

/-- {lit}`validOptionalPort`. -/
def validOptionalPort : GoString → Bool
  | [] => true
  | c :: digits => c = ':' ∧ digits.all Char.isDigit

/-- The host between brackets in {lit}`parseHost`, with a zone after an escaped percent sign. -/
def unescapeLiteral (hostname : GoString) : Option GoString :=
  match cutAt "%25".toList hostname with
  | none => unescapeHost false hostname
  | some (hostPart, zonePart) =>
      match unescapeHost false hostPart, unescapeHost true ("%25".toList ++ zonePart) with
      | some host, some zone => some (host ++ zone)
      | _, _ => none

/-- {lit}`parseHost`. -/
def parseHost (isIPv6 : GoString → Bool) (host : GoString) : Option GoString :=
  if '[' ∈ host then
    match cutLast ']' host with
    | none => none
    | some (before, colonPort) =>
        if validOptionalPort colonPort = false then none
        else
          match (cutLast '[' before).bind fun parts => unescapeLiteral parts.2,
              unescapeHost false colonPort with
          | some hostname, some port =>
              if isIPv6 hostname then some ('[' :: hostname ++ ']' :: port) else none
          | _, _ => none
  else
    match cutLast ':' host with
    | none => unescapeHost false host
    | some (_, digits) =>
        if validOptionalPort (':' :: digits) then unescapeHost false host else none

/-! ## The authority -/

/-- {lit}`validUserinfo`. -/
def validUserinfo (s : GoString) : Bool :=
  s.all fun c => c.isAlphanum || "-._:~!$&'()*+,;=%@".toList.contains c

/-- {lit}`Userinfo`: the name and the password, if there is one. -/
structure Userinfo where
  username : GoString
  password : Option GoString
deriving DecidableEq

/-- The user of an authority in {lit}`parseAuthority`. -/
def parseUserinfo (userinfo : GoString) : Option Userinfo :=
  if validUserinfo userinfo = false then none
  else
    match userinfo.span (· ≠ ':') with
    | (_, []) => (pathUnescape userinfo).map fun username => ⟨username, none⟩
    | (username, _ :: password) =>
        match pathUnescape username, pathUnescape password with
        | some username, some password => some ⟨username, some password⟩
        | _, _ => none

/-- {lit}`parseAuthority`. -/
def parseAuthority (isIPv6 : GoString → Bool) (authority : GoString) :
    Option (Option Userinfo × GoString) :=
  match cutLast '@' authority with
  | none => (parseHost isIPv6 authority).map fun host => (none, host)
  | some (userinfo, hostport) =>
      match parseHost isIPv6 hostport, parseUserinfo userinfo with
      | some host, some user => some (some user, host)
      | _, _ => none

/-! ## The URL -/

/-- {lit}`URL`; the path and the fragment are decoded. -/
structure URL where
  scheme : GoString
  opaquePart : GoString
  user : Option Userinfo
  host : GoString
  path : GoString
  forceQuery : Bool
  rawQuery : GoString
  omitHost : Bool
  fragment : GoString
deriving DecidableEq

/-- A byte of a scheme. -/
def schemeByte (c : Char) : Bool :=
  c.isAlphanum || "+-.".toList.contains c

/-- {lit}`getScheme`: the scheme and the rest. -/
def getScheme (rawURL : GoString) : Option (GoString × GoString) :=
  match rawURL.span schemeByte with
  | ([], ':' :: _) => none
  | (c :: scheme, ':' :: rest) =>
      if c.isAlpha then some (c :: scheme, rest) else some ([], rawURL)
  | _ => some ([], rawURL)

/-- A control character. -/
def ctlByte (c : Char) : Bool :=
  c.toNat < 0x20 || c.toNat = 0x7f

/-- The end of {lit}`parse` from the path on. -/
def parsePath (u : URL) (rest : GoString) : Option URL :=
  (pathUnescape rest).map fun path => { u with path := path }

/-- The rest of {lit}`parse` from the authority on. -/
def parseHierarchy (isIPv6 : GoString → Bool) (u : URL) (rest : GoString) : Option URL :=
  if (u.scheme ≠ [] ∨ ¬"///".toList.isPrefixOf rest) ∧ "//".toList.isPrefixOf rest then
    let parts := (rest.drop 2).span (· ≠ '/')
    match parseAuthority isIPv6 parts.1 with
    | none => none
    | some (user, host) => parsePath { u with user := user, host := host } parts.2
  else parsePath { u with omitHost := u.scheme ≠ [] ∧ "/".toList.isPrefixOf rest } rest

/-- {lit}`parse` of {lit}`net/url`, of the text before a hash sign. -/
def parse (isIPv6 : GoString → Bool) (rawURL : GoString) : Option URL :=
  if rawURL.any ctlByte then none
  else if rawURL = "*".toList then some ⟨[], [], none, [], "*".toList, false, [], false, []⟩
  else
    match getScheme rawURL with
    | none => none
    | some (scheme, rest) =>
        let scheme := toLower scheme
        let query := rest.span (· ≠ '?')
        let u : URL := ⟨scheme, [], none, [], [], query.2 = "?".toList, query.2.drop 1, false, []⟩
        if "/".toList.isPrefixOf query.1 then parseHierarchy isIPv6 u query.1
        else if scheme ≠ [] then some { u with opaquePart := query.1 }
        else if ':' ∈ query.1.takeWhile (· ≠ '/') then none
        else parseHierarchy isIPv6 u query.1

/-- {lit}`Parse`. -/
def parseURL (isIPv6 : GoString → Bool) (rawURL : GoString) : Option URL :=
  let parts := rawURL.span (· ≠ '#')
  match parse isIPv6 parts.1 with
  | none => none
  | some u => (pathUnescape (parts.2.drop 1)).map fun fragment => { u with fragment := fragment }

/-- {lit}`removeEmptyPort` of {lit}`net/http`. -/
def removeEmptyPort (host : GoString) : GoString :=
  match cutLast ':' host with
  | some (before, []) => before
  | _ => host

/-- The URL of {lit}`http.NewRequest`. -/
def requestURL (isIPv6 : GoString → Bool) (rawURL : GoString) : Option URL :=
  (parseURL isIPv6 rawURL).map fun u => { u with host := removeEmptyPort u.host }

/-! ## Continuing an authority -/

section Longer

variable {isIPv6 : GoString → Bool} {zone : Bool}

/-- A byte that is no percent sign. -/
theorem unescapeHost_cons {c : Char} (hc : c ≠ '%') (cs : GoString) :
    unescapeHost zone (c :: cs) =
      if 128 ≤ c.toNat ∨ hostByte c then (unescapeHost zone cs).map (c :: ·) else none := by
  rw [unescapeHost.eq_def]
  exact if_neg hc

/-- What has been decoded stays when text is added. -/
theorem unescapeHost_append {s x : GoString} (hs : unescapeHost zone s = some x) (t : GoString) :
    unescapeHost zone (s ++ t) = (unescapeHost zone t).map (x ++ ·) := by
  induction s using unescapeHost.induct zone generalizing x with
  | case1 =>
      obtain rfl := Option.some.inj hs
      simp
  | case2 hi lo rest v hv ih =>
      simp only [unescapeHost, if_true, hv, Option.map_eq_some_iff] at hs
      obtain ⟨y, hy, rfl⟩ := hs
      simp [unescapeHost, hv, ih hy, Function.comp_def]
  | case3 hi lo rest hnone =>
      simp [unescapeHost, hnone] at hs
  | case4 cs hshort =>
      rw [unescapeHost, if_pos rfl] at hs
      · exact nomatch hs
      · exact hshort
  | case5 c cs hc hbyte ih =>
      rw [unescapeHost_cons hc, if_pos hbyte, Option.map_eq_some_iff] at hs
      obtain ⟨y, hy, rfl⟩ := hs
      rw [List.cons_append, unescapeHost_cons hc, if_pos hbyte, ih hy, Option.map_map]
      rfl
  | case6 c cs hc hbyte =>
      rw [unescapeHost_cons hc, if_neg hbyte] at hs
      exact nomatch hs

/-- A port is continued by digits. -/
theorem validOptionalPort_append {port digits : GoString} (hport : validOptionalPort port = true)
    (hne : port ≠ []) (hdigits : digits.all Char.isDigit = true) :
    validOptionalPort (port ++ digits) = true := by
  cases port with
  | nil => exact absurd rfl hne
  | cons c rest =>
      unfold validOptionalPort at hport ⊢
      simp only [List.cons_append, List.all_append, hdigits, Bool.and_true]
      exact hport

/-- A host can be continued by a digit or a port. -/
theorem parseHost_longer {H host : GoString} (hparse : parseHost isIPv6 H = some host) :
    ∃ e : GoString, (e = "0".toList ∨ e = ":0".toList) ∧
      parseHost isIPv6 (H ++ e) = some (host ++ e) := by
  have hdecode : ∀ {s x e : GoString}, unescapeHost false s = some x →
      (e = "0".toList ∨ e = ":0".toList) → unescapeHost false (s ++ e) = some (x ++ e) := by
    intro s x e hs he
    rw [unescapeHost_append hs]
    rcases he with rfl | rfl <;> rfl
  unfold parseHost at hparse
  split_ifs at hparse with hbracket
  · -- a literal: its port is continued, or one is added
    cases hclose : cutLast ']' H with
    | none => simp [hclose] at hparse
    | some parts =>
        obtain ⟨before, colonPort⟩ := parts
        simp only [hclose] at hparse
        split_ifs at hparse with hport
        rw [Bool.not_eq_false] at hport
        cases hname : (cutLast '[' before).bind fun parts => unescapeLiteral parts.2 with
        | none => simp [hname] at hparse
        | some hostname =>
            cases hun : unescapeHost false colonPort with
            | none => simp [hname, hun] at hparse
            | some port =>
                simp only [hname, hun] at hparse
                split_ifs at hparse with hip
                obtain rfl := Option.some.inj hparse
                have hlonger : ∀ e : GoString, (e = "0".toList ∨ e = ":0".toList) →
                    validOptionalPort (colonPort ++ e) = true →
                    parseHost isIPv6 (H ++ e) = some ('[' :: hostname ++ ']' :: port ++ e) := by
                  intro e he hvalid
                  have hnotin : ']' ∉ e := by
                    rcases he with rfl | rfl <;> decide
                  unfold parseHost
                  rw [if_pos (List.mem_append_left e hbracket), cutLast_append hnotin, hclose]
                  simp [hvalid, hname, hdecode hun he, hip]
                by_cases hnone : colonPort = []
                · subst hnone
                  exact ⟨":0".toList, Or.inr rfl, hlonger _ (Or.inr rfl) (by decide)⟩
                · exact ⟨"0".toList, Or.inl rfl, hlonger _ (Or.inl rfl)
                    (validOptionalPort_append hport hnone (by decide))⟩
  · -- a name: a digit continues it or its port
    refine ⟨"0".toList, Or.inl rfl, ?_⟩
    have hnotin : '[' ∉ H ++ "0".toList := by
      simpa using hbracket
    have hcolon : ':' ∉ "0".toList := by decide
    unfold parseHost
    rw [if_neg hnotin, cutLast_append hcolon]
    cases hcut : cutLast ':' H with
    | none =>
        simp only [hcut] at hparse
        exact hdecode hparse (Or.inl rfl)
    | some parts =>
        simp only [hcut] at hparse
        split_ifs at hparse with hport
        have hvalid : validOptionalPort (':' :: (parts.2 ++ "0".toList)) = true :=
          validOptionalPort_append hport (List.cons_ne_nil _ _) (by decide)
        simp only [Option.map_some, hvalid, if_true]
        exact hdecode hparse (Or.inl rfl)

/-- An authority can be continued by a digit or a port so that the host is longer. -/
theorem parseAuthority_longer {authority host : GoString} {user : Option Userinfo}
    (hparse : parseAuthority isIPv6 authority = some (user, host)) :
    ∃ e : GoString, (e = "0".toList ∨ e = ":0".toList) ∧
      parseAuthority isIPv6 (authority ++ e) = some (user, host ++ e) := by
  have hat : ∀ {e : GoString}, (e = "0".toList ∨ e = ":0".toList) → '@' ∉ e := by
    intro e he
    rcases he with rfl | rfl <;> decide
  unfold parseAuthority at hparse
  cases hcut : cutLast '@' authority with
  | none =>
      simp only [hcut, Option.map_eq_some_iff, Prod.mk.injEq] at hparse
      obtain ⟨host', hhost, rfl, rfl⟩ := hparse
      obtain ⟨e, he, hlonger⟩ := parseHost_longer hhost
      refine ⟨e, he, ?_⟩
      unfold parseAuthority
      simp [cutLast_append (hat he), hcut, hlonger]
  | some parts =>
      simp only [hcut] at hparse
      cases hhost : parseHost isIPv6 parts.2 with
      | none => simp [hhost] at hparse
      | some host' =>
          cases huser : parseUserinfo parts.1 with
          | none => simp [hhost, huser] at hparse
          | some user' =>
              simp only [hhost, huser, Option.some.injEq, Prod.mk.injEq] at hparse
              obtain ⟨rfl, rfl⟩ := hparse
              obtain ⟨e, he, hlonger⟩ := parseHost_longer hhost
              refine ⟨e, he, ?_⟩
              unfold parseAuthority
              simp [cutLast_append (hat he), hcut, hlonger, huser]

end Longer

/-! ## Absolute URLs -/

/-- The beginning of a text up to the first byte that fails a test. -/
theorem span_append {p : Char → Bool} {s : GoString} (hs : ∀ c ∈ s, p c = true) (t : GoString) :
    (s ++ t).span p = (s ++ (t.span p).1, (t.span p).2) := by
  simp only [List.span_eq_takeWhile_dropWhile]
  rw [List.takeWhile_append_of_pos hs, List.dropWhile_append_of_pos hs]

/-- A text with a scheme and an authority; what comes after the authority is empty or starts with
a slash, a question mark or a hash sign. -/
structure AbsoluteURL where
  scheme : GoString
  authority : GoString
  tail : GoString
  scheme_alpha : ∃ c cs, scheme = c :: cs ∧ c.isAlpha = true
  scheme_bytes : ∀ c ∈ scheme, schemeByte c = true
  authority_bytes : ∀ c ∈ authority, c ≠ '/' ∧ c ≠ '?' ∧ c ≠ '#'
  tail_head : ∀ c ∈ tail.head?, c = '/' ∨ c = '?' ∨ c = '#'

namespace AbsoluteURL

variable {isIPv6 : GoString → Bool} (a : AbsoluteURL)

/-- The text up to the end of the authority. -/
def front : GoString :=
  a.scheme ++ "://".toList ++ a.authority

/-- The text of the URL. -/
def text : GoString :=
  a.front ++ a.tail

/-- The scheme of the text. -/
theorem getScheme_front (t : GoString) :
    getScheme (a.front ++ t) = some (a.scheme, "//".toList ++ (a.authority ++ t)) := by
  obtain ⟨c, cs, hscheme, hc⟩ := a.scheme_alpha
  have hspan : (a.front ++ t).span schemeByte =
      (a.scheme, ':' :: ("//".toList ++ (a.authority ++ t))) := by
    have htext : a.front ++ t = a.scheme ++ ':' :: ("//".toList ++ (a.authority ++ t)) := by
      simp [front]
    have hcolon : (':' :: ("//".toList ++ (a.authority ++ t))).span schemeByte =
        ([], ':' :: ("//".toList ++ (a.authority ++ t))) := by
      rw [List.span_eq_takeWhile_dropWhile]
      rfl
    rw [htext, span_append a.scheme_bytes, hcolon, List.append_nil]
  unfold getScheme
  rw [hspan, hscheme]
  exact if_pos hc

/-- The scheme stays one in lower case. -/
theorem toLower_scheme_ne : toLower a.scheme ≠ [] := by
  obtain ⟨c, cs, hscheme, hc⟩ := a.scheme_alpha
  rw [hscheme, toLower.eq_def]
  split <;> simp_all

/-- What comes before the path of the text. -/
theorem parseHierarchy_front {u : URL} (hscheme : u.scheme ≠ []) {t : GoString}
    (ht : ∀ c ∈ t.head?, c = '/') :
    parseHierarchy isIPv6 u ("//".toList ++ (a.authority ++ t)) =
      (parseAuthority isIPv6 a.authority).bind fun parts =>
        parsePath { u with user := parts.1, host := parts.2 } t := by
  have hslash : "//".toList.isPrefixOf ("//".toList ++ (a.authority ++ t)) = true := by
    rw [List.isPrefixOf_iff_prefix]
    exact List.prefix_append _ _
  have hspan : (("//".toList ++ (a.authority ++ t)).drop 2).span (· ≠ '/') = (a.authority, t) := by
    have hbytes : ∀ c ∈ a.authority, decide (c ≠ '/') = true := by
      intro c hc
      exact decide_eq_true (a.authority_bytes c hc).1
    have ht' : t.span (· ≠ '/') = ([], t) := by
      cases t with
      | nil => rfl
      | cons c cs =>
          obtain rfl := ht c rfl
          rw [List.span_eq_takeWhile_dropWhile]
          rfl
    change (a.authority ++ t).span (· ≠ '/') = _
    rw [span_append hbytes, ht', List.append_nil]
  unfold parseHierarchy
  rw [if_pos ⟨Or.inl hscheme, hslash⟩]
  simp only [hspan]
  cases parseAuthority isIPv6 a.authority <;> rfl

/-- The text is parsed through its authority. -/
theorem parse_front (isIPv6 : GoString → Bool) {t : GoString} (ht : ∀ c ∈ t.head?, c = '/' ∨ c = '?') :
    parse isIPv6 (a.front ++ t) =
      if (a.front ++ t).any ctlByte then none
      else (parseAuthority isIPv6 a.authority).bind fun parts =>
        parsePath ⟨toLower a.scheme, [], parts.1, parts.2, [], (t.span (· ≠ '?')).2 = "?".toList,
          (t.span (· ≠ '?')).2.drop 1, false, []⟩ (t.span (· ≠ '?')).1 := by
  have hstar : a.front ++ t ≠ "*".toList := by
    intro heq
    have hlength := congrArg List.length heq
    simp [front] at hlength
    omega
  have hquery : ("//".toList ++ (a.authority ++ t)).span (· ≠ '?') =
      ("//".toList ++ (a.authority ++ (t.span (· ≠ '?')).1), (t.span (· ≠ '?')).2) := by
    have hbytes : ∀ c ∈ "//".toList ++ a.authority, decide (c ≠ '?') = true := by
      intro c hc
      rcases List.mem_append.mp hc with hslash | hc
      · rcases List.mem_cons.mp hslash with rfl | hslash
        · rfl
        · rw [List.mem_singleton.mp hslash]
          rfl
      · exact decide_eq_true (a.authority_bytes c hc).2.1
    rw [← List.append_assoc, span_append hbytes, List.append_assoc]
  have hslash : "/".toList.isPrefixOf
      ("//".toList ++ (a.authority ++ (t.span (· ≠ '?')).1)) = true := by
    rw [List.isPrefixOf_iff_prefix]
    exact ⟨_, rfl⟩
  have hpath : ∀ c ∈ (t.span (· ≠ '?')).1.head?, c = '/' := by
    intro c hc
    rw [List.span_eq_takeWhile_dropWhile] at hc
    cases t with
    | nil => exact nomatch hc
    | cons d ds =>
        rcases ht d rfl with rfl | rfl
        · simpa using hc.symm
        · exact nomatch hc
  unfold parse
  cases hctl : (a.front ++ t).any ctlByte with
  | true => rfl
  | false =>
      rw [if_neg Bool.false_ne_true, if_neg hstar, a.getScheme_front t]
      simp only [hquery, hslash, if_true]
      rw [a.parseHierarchy_front a.toLower_scheme_ne hpath]
      rfl

/-- The part of the tail before a hash sign. -/
def query : GoString :=
  a.tail.takeWhile (· ≠ '#')

/-- The text is cut at the hash sign of the tail. -/
theorem span_text : a.text.span (· ≠ '#') = (a.front ++ a.query, a.tail.dropWhile (· ≠ '#')) := by
  have hbytes : ∀ c ∈ a.front, decide (c ≠ '#') = true := by
    intro c hc
    rw [decide_eq_true_eq]
    rintro rfl
    unfold front at hc
    rcases List.mem_append.mp hc with hc | hc
    · rcases List.mem_append.mp hc with hc | hc
      · exact absurd (a.scheme_bytes _ hc) (by decide)
      · exact absurd hc (by decide)
    · exact (a.authority_bytes _ hc).2.2 rfl
  unfold text query
  rw [span_append hbytes, List.span_eq_takeWhile_dropWhile]

/-- The query and the path start with their delimiters. -/
theorem query_head : ∀ c ∈ a.query.head?, c = '/' ∨ c = '?' := by
  intro c hc
  unfold query at hc
  cases htail : a.tail with
  | nil =>
      rw [htail] at hc
      exact nomatch hc
  | cons d ds =>
      rw [htail] at hc
      rcases a.tail_head d (by rw [htail]; rfl) with rfl | rfl | rfl
      · exact Or.inl (by simpa using hc.symm)
      · exact Or.inr (by simpa using hc.symm)
      · exact nomatch hc

/-- A text that is parsed has no control character before its hash sign. -/
theorem any_ctlByte_of_requestURL {u : URL} (hu : requestURL isIPv6 a.text = some u) :
    (a.front ++ a.query).any ctlByte = false := by
  unfold requestURL parseURL at hu
  rw [a.span_text] at hu
  simp only [a.parse_front isIPv6 a.query_head] at hu
  split_ifs at hu with hctl
  · exact nomatch hu
  · simpa using hctl

/-- The scheme and the host of a request come from the text before the tail. -/
theorem host_of_requestURL {u : URL} (hu : requestURL isIPv6 a.text = some u) :
    u.scheme = toLower a.scheme ∧ ∃ user host,
      parseAuthority isIPv6 a.authority = some (user, host) ∧ u.host = removeEmptyPort host := by
  unfold requestURL parseURL at hu
  rw [a.span_text] at hu
  simp only [a.parse_front isIPv6 a.query_head] at hu
  split_ifs at hu with hctl
  · exact nomatch hu
  · cases hauthority : parseAuthority isIPv6 a.authority with
    | none => simp [hauthority] at hu
    | some parts =>
        simp only [hauthority, Option.bind_some, parsePath] at hu
        cases hpath : pathUnescape (a.query.span (· ≠ '?')).1 with
        | none =>
            rw [hpath] at hu
            exact nomatch hu
        | some path =>
            simp only [hpath, Option.map_some, Option.map_map, Option.map_eq_some_iff] at hu
            obtain ⟨fragment, -, rfl⟩ := hu
            exact ⟨rfl, parts.1, parts.2, rfl, rfl⟩

/-- A text that ends with its authority has no query. -/
theorem query_of_tail_nil (htail : a.tail = []) : a.query = [] := by
  unfold query
  rw [htail]
  rfl

/-- A text that ends with its authority is parsed if the authority is. -/
theorem requestURL_of_tail_nil (htail : a.tail = []) {user : Option Userinfo} {host : GoString}
    (hauthority : parseAuthority isIPv6 a.authority = some (user, host))
    (hctl : a.text.any ctlByte = false) :
    ∃ u, requestURL isIPv6 a.text = some u ∧ u.host = removeEmptyPort host := by
  have hquery := a.query_of_tail_nil htail
  have hfront : a.text = a.front ++ [] := by
    unfold text
    rw [htail]
  have hnone : ∀ c ∈ ([] : GoString).head?, c = '/' ∨ c = '?' := by simp
  have hparse := a.parse_front isIPv6 hnone
  rw [← hfront, hctl, if_neg Bool.false_ne_true, hauthority] at hparse
  have hspan := a.span_text
  rw [hquery, ← hfront, htail] at hspan
  unfold requestURL parseURL
  simp only [hspan, hparse]
  exact ⟨_, rfl, rfl⟩

end AbsoluteURL

end Go
end Veilence

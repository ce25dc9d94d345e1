import Veilence.Go.Query
import Veilence.Web.Url

/-!
# Redirects at the end of a sign-in

The check of a callback URL, the redirects that carry tokens, errors or nothing back to it, and
what a browser makes of them.

Main results:

- Theorem {lit}`parse_location`: where a browser goes after a redirect that starts with the URL of
  the frontend.
- Theorem {lit}`protects_iff`: all redirects to a callback URL end at the frontend and carry their
  parameters in the query if and only if the text behind the URL of the frontend has no hash sign
  and leaves the host and the port as they are.
-/

namespace Veilence
namespace Restapi

open Go Web

/-! ## The handlers -/

/-- The text of an integer under the verb {lit}`%d`. -/
def formatInt (n : Int) : GoString :=
  if n < 0 then '-' :: itoa n.natAbs else itoa n.natAbs

/-- The tokens of a new session. -/
structure TokenPair where
  accessToken : GoString
  refreshToken : GoString
  expiresIn : Int
deriving DecidableEq

/-- {lit}`SSOCallbackResult`. -/
structure SSOCallbackResult where
  callbackURL : GoString
  tokenPair : Option TokenPair
  isError : Bool
  errorCode : GoString
  errorMsg : GoString
deriving DecidableEq

/-- {lit}`HandleSSOLogin` and {lit}`HandleLinkIdentity` go on with a callback URL. -/
def acceptsCallback (frontendURL callbackURL : GoString) : Bool :=
  !(callbackURL ≠ [] ∧ frontendURL.isPrefixOf callbackURL = false)

/-- {lit}`resolveCallbackURL`. -/
def resolveCallbackURL (frontendURL callbackURL : GoString) : GoString :=
  if callbackURL ≠ [] ∧ frontendURL.isPrefixOf callbackURL then callbackURL else frontendURL

/-- {lit}`appendQueryParams`. -/
def appendQueryParams (base : GoString) (params : List (GoString × GoString)) : GoString :=
  if contains base "?".toList then base ++ "&".toList ++ encodeValues params
  else base ++ "?".toList ++ encodeValues params

/-- The parameters of tokens. -/
def successParams (tokens : TokenPair) : List (GoString × GoString) :=
  [("access_token".toList, tokens.accessToken), ("refresh_token".toList, tokens.refreshToken),
    ("expires_in".toList, formatInt tokens.expiresIn)]

/-- The parameters of an error. -/
def errorParams (result : SSOCallbackResult) : List (GoString × GoString) :=
  ("error".toList, result.errorCode) ::
    if result.errorMsg ≠ [] then [("message".toList, result.errorMsg)] else []

/-- {lit}`buildSuccessRedirect`. -/
def buildSuccessRedirect (frontendURL : GoString) (result : SSOCallbackResult)
    (tokens : TokenPair) : GoString :=
  appendQueryParams (resolveCallbackURL frontendURL result.callbackURL) (successParams tokens)

/-- {lit}`buildErrorRedirect`. -/
def buildErrorRedirect (frontendURL : GoString) (result : SSOCallbackResult) : GoString :=
  appendQueryParams (resolveCallbackURL frontendURL result.callbackURL) (errorParams result)

/-- The redirect at the end of {lit}`HandleSAMLACS` and {lit}`HandleOAuthCallback`. -/
def callbackRedirect (frontendURL : GoString) (result : SSOCallbackResult) : GoString :=
  if result.isError then buildErrorRedirect frontendURL result
  else
    match result.tokenPair with
    | some tokens => buildSuccessRedirect frontendURL result tokens
    | none => resolveCallbackURL frontendURL result.callbackURL

/-- The parameters that the redirect is to carry. -/
def callbackParams (result : SSOCallbackResult) : List (GoString × GoString) :=
  if result.isError then errorParams result
  else
    match result.tokenPair with
    | some tokens => successParams tokens
    | none => []

/-! ## The Location header -/

/-- A small hexadecimal digit. -/
def lowerhex (n : Nat) : Char :=
  (upperhex n).toLower

/-- {lit}`hexEscapeNonASCII` of {lit}`net/http`, byte by byte. -/
def hexEscapeNonASCII (s : GoString) : GoString :=
  s.flatMap fun c =>
    if 128 ≤ c.toNat then ['%', lowerhex (c.toNat / 16 % 16), lowerhex (c.toNat % 16)] else [c]

/-- {lit}`headerNewlineToSpace` of {lit}`net/http`. -/
def headerNewlineToSpace (s : GoString) : GoString :=
  s.map fun c => if c = '\n' ∨ c = '\r' then ' ' else c

/-- The blanks that {lit}`textproto.TrimString` removes. -/
def isHeaderSpace (c : Char) : Bool :=
  c = ' ' ∨ c = '\t' ∨ c = '\n' ∨ c = '\r'

/-- The value of the Location header that {lit}`http.Redirect` sends for a URL with a scheme. -/
def location (url : GoString) : GoString :=
  ((headerNewlineToSpace (hexEscapeNonASCII url)).dropWhile isHeaderSpace).rdropWhile isHeaderSpace

/-- Characters that are sent as they are. -/
def isGraphic (c : Char) : Bool :=
  33 ≤ c.toNat ∧ c.toNat ≤ 126

/-- What a browser sees of the text behind a URL. -/
def visible (rest : GoString) : GoString :=
  (headerNewlineToSpace (hexEscapeNonASCII rest)).filter fun c => !isTabOrNewline c

theorem not_isBlank_of_isGraphic {c : Char} (hc : isGraphic c = true) : isBlank c = false := by
  simp only [isGraphic, isBlank, decide_eq_true_eq, decide_eq_false_iff_not] at hc ⊢
  omega

theorem isBlank_of_isHeaderSpace {c : Char} (hc : isHeaderSpace c = true) : isBlank c = true := by
  unfold isHeaderSpace at hc
  rw [decide_eq_true_eq] at hc
  rcases hc with rfl | rfl | rfl | rfl <;> rfl

theorem isBlank_of_isTabOrNewline {c : Char} (hc : isTabOrNewline c = true) : isBlank c = true := by
  unfold isTabOrNewline at hc
  rw [decide_eq_true_eq] at hc
  rcases hc with rfl | rfl | rfl <;> rfl

theorem all_not_of_graphic {p : Char → Bool} (hp : ∀ c, p c = true → isBlank c = true)
    {s : GoString} (hs : s.all isGraphic = true) : (s.all fun c => !p c) = true := by
  rw [List.all_eq_true] at hs ⊢
  intro c hc
  have hnot := not_isBlank_of_isGraphic (hs c hc)
  cases hpc : p c with
  | false => rfl
  | true =>
      rw [hp c hpc] at hnot
      exact nomatch hnot

theorem header_append (s t : GoString) :
    headerNewlineToSpace (hexEscapeNonASCII (s ++ t)) =
      headerNewlineToSpace (hexEscapeNonASCII s) ++ headerNewlineToSpace (hexEscapeNonASCII t) := by
  unfold headerNewlineToSpace hexEscapeNonASCII
  rw [List.flatMap_append, List.map_append]

theorem header_of_graphic {s : GoString} (hs : s.all isGraphic = true) :
    headerNewlineToSpace (hexEscapeNonASCII s) = s := by
  induction s with
  | nil => rfl
  | cons c s ih =>
      rw [List.all_cons, Bool.and_eq_true] at hs
      have hhead : headerNewlineToSpace (hexEscapeNonASCII [c]) = [c] := by
        obtain ⟨hc, -⟩ := hs
        simp only [isGraphic, decide_eq_true_eq] at hc
        have hlf : c ≠ '\n' := by
          rintro rfl
          exact absurd hc.1 (by decide)
        have hcr : c ≠ '\r' := by
          rintro rfl
          exact absurd hc.1 (by decide)
        have hascii : ¬128 ≤ c.toNat := by
          omega
        simp [headerNewlineToSpace, hexEscapeNonASCII, hlf, hcr, hascii]
      have happend := header_append [c] s
      rw [hhead, ih hs.2] at happend
      exact happend

theorem visible_append (s t : GoString) : visible (s ++ t) = visible s ++ visible t := by
  unfold visible
  rw [header_append, List.filter_append]

theorem visible_of_graphic {s : GoString} (hs : s.all isGraphic = true) : visible s = s := by
  unfold visible
  rw [header_of_graphic hs, List.filter_eq_self]
  exact List.all_eq_true.mp (all_not_of_graphic (fun c => isBlank_of_isTabOrNewline) hs)

/-- A separator is seen where it stands in the text. -/
theorem mem_visible_iff {c : Char} (hc : isGraphic c = true) (halnum : c.isAlphanum = false)
    (hpercent : c ≠ '%') {s : GoString} : c ∈ visible s ↔ c ∈ s := by
  have hhex : ∀ n < 16, (lowerhex n).isAlphanum = true := by
    intro n hn
    interval_cases n <;> decide
  have hlines : isTabOrNewline c = false := by
    by_contra hline
    rw [Bool.not_eq_false] at hline
    have hblank := not_isBlank_of_isGraphic hc
    rw [isBlank_of_isTabOrNewline hline] at hblank
    exact nomatch hblank
  have hspace : c ≠ ' ' := by
    rintro rfl
    exact nomatch hc
  have hheader : ∀ d, (if d = '\n' ∨ d = '\r' then ' ' else d) = c ↔ d = c := by
    intro d
    split_ifs with hd
    · constructor
      · intro heq
        exact absurd heq.symm hspace
      · rintro rfl
        unfold isTabOrNewline at hlines
        rw [decide_eq_false_iff_not] at hlines
        exact absurd (Or.inr hd) hlines
    · rfl
  have hbyte : ∀ d : Char, (c ∈ if 128 ≤ d.toNat then
      ['%', lowerhex (d.toNat / 16 % 16), lowerhex (d.toNat % 16)] else [d]) ↔ c = d := by
    intro d
    split_ifs with hd
    · constructor
      · intro hmem
        simp only [List.mem_cons, List.not_mem_nil, or_false] at hmem
        rcases hmem with rfl | rfl | rfl
        · exact absurd rfl hpercent
        · rw [hhex _ (Nat.mod_lt _ (by decide))] at halnum
          exact nomatch halnum
        · rw [hhex _ (Nat.mod_lt _ (by decide))] at halnum
          exact nomatch halnum
      · rintro rfl
        simp only [isGraphic, decide_eq_true_eq] at hc
        omega
    · exact List.mem_singleton
  unfold visible headerNewlineToSpace hexEscapeNonASCII
  simp only [List.mem_filter, List.mem_map, hheader, exists_eq_right, List.mem_flatMap, hbyte,
    exists_eq_right', hlines, Bool.not_false, and_true]

/-- What is parsed of a redirect. -/
theorem stripped_location {front : GoString} (hne : front ≠ []) (hfront : front.all isGraphic = true)
    (rest : GoString) :
    stripped (location (front ++ rest)) = front ++ (visible rest).rdropWhile isBlank := by
  have hspace := all_not_of_graphic (fun c => isBlank_of_isHeaderSpace) hfront
  have hblank := all_not_of_graphic (fun c hc => hc) hfront
  have hlines : ∀ c, (!isTabOrNewline c) = false → isBlank c = true := fun c hc =>
    isBlank_of_isTabOrNewline (by simpa using hc)
  unfold stripped location
  rw [header_append, header_of_graphic hfront, dropWhile_append_of_none hne hspace,
    rdropWhile_append_of_none hne hspace, dropWhile_append_of_none hne hblank,
    rdropWhile_append_of_none hne hblank, rdropWhile_rdropWhile fun c => isBlank_of_isHeaderSpace,
    List.filter_append, filter_rdropWhile hlines]
  congr 1
  rw [List.filter_eq_self]
  exact List.all_eq_true.mp (all_not_of_graphic (fun c => isBlank_of_isTabOrNewline) hfront)

/-! ## Parameters in a query -/

/-- What is escaped is read by the browser. -/
theorem formDecode_queryEscape {s : GoString} (hbytes : (s.all fun c => c.toNat < 256) = true) :
    formDecode (queryEscape s) = s := by
  induction s with
  | nil => rfl
  | cons c s ih =>
      rw [List.all_cons, Bool.and_eq_true, decide_eq_true_eq] at hbytes
      obtain ⟨hc, hs⟩ := hbytes
      have hsplit : queryEscape (c :: s) = queryByte c ++ queryEscape s := rfl
      rw [hsplit]
      unfold queryByte
      split_ifs with hspace hescape
      · rw [hspace, List.singleton_append, formDecode, ih hs]
        · rfl
        · exact nofun
      · have hhigh := unhex_upperhex (n := c.toNat / 16) (by omega)
        have hlow := unhex_upperhex (n := c.toNat % 16) (by omega)
        simp only [percentByte, List.cons_append, List.nil_append]
        rw [formDecode, hhigh, hlow]
        dsimp only
        rw [ih hs, Nat.div_add_mod, Char.ofNat_toNat]
      · have hpercent : c ≠ '%' := by
          rintro rfl
          exact hescape (by decide)
        have hplus : c ≠ '+' := by
          rintro rfl
          exact hescape (by decide)
        rw [List.singleton_append, formDecode, ih hs, if_neg hplus]
        intro hi lo rest hpercent'
        exact absurd hpercent' hpercent

/-- A parameter is read back. -/
theorem formPair_queryEscape {name value : GoString}
    (hname : (name.all fun c => c.toNat < 256) = true)
    (hvalue : (value.all fun c => c.toNat < 256) = true) :
    formPair (queryEscape name ++ '=' :: queryEscape value) = (name, value) := by
  have hall : ((queryEscape name).all fun c => c ≠ '=') = true := by
    rw [List.all_eq_true]
    intro c hc
    rw [decide_eq_true_eq]
    rintro rfl
    exact notMem_queryEscape hname rfl hc
  have htake : (queryEscape name ++ '=' :: queryEscape value).takeWhile (· ≠ '=') =
      queryEscape name := by
    rw [takeWhile_append_of_all hall]
    exact List.append_nil _
  have hdrop : (queryEscape name ++ '=' :: queryEscape value).dropWhile (· ≠ '=') =
      '=' :: queryEscape value := by
    rw [dropWhile_append_of_all hall]
    rfl
  unfold formPair
  rw [htake, hdrop, List.drop_one, List.tail_cons, formDecode_queryEscape hname,
    formDecode_queryEscape hvalue]

/-- All encoded parameters are read back. -/
theorem mem_formPairs_encodeValues {params : List (GoString × GoString)}
    (hbytes : BytesParams params) {p : GoString × GoString} (hp : p ∈ params) :
    p ∈ formPairs (encodeValues params) := by
  have hsplit := split_encodeValues (List.ne_nil_of_mem hp) hbytes
  unfold formPairs
  rw [show (encodeValues params).splitOn '&' = _ from hsplit, List.mem_map]
  refine ⟨queryEscape p.1 ++ '=' :: queryEscape p.2, ?_, ?_⟩
  · rw [List.mem_filter, List.mem_map]
    exact ⟨⟨p, (List.perm_insertionSort _ _).mem_iff.mpr hp, rfl⟩, by simp⟩
  · exact formPair_queryEscape (hbytes p hp).1 (hbytes p hp).2

theorem isGraphic_of_queryChar {c : Char} (hc : queryChar c = true) : isGraphic c = true := by
  unfold queryChar at hc
  rw [Bool.or_eq_true, decide_eq_true_eq] at hc
  rcases hc with halnum | hmem
  · simp only [Char.isAlphanum, Char.isAlpha, Char.isUpper, Char.isLower, Char.isDigit,
      Bool.or_eq_true, decide_eq_true_eq, Bool.and_eq_true, UInt32.le_iff_toNat_le, ge_iff_le]
      at halnum
    have hupper : 'A'.val.toNat = 65 ∧ 'Z'.val.toNat = 90 := ⟨rfl, rfl⟩
    have hlower : 'a'.val.toNat = 97 ∧ 'z'.val.toNat = 122 := ⟨rfl, rfl⟩
    have hdigit : '0'.val.toNat = 48 ∧ '9'.val.toNat = 57 := ⟨rfl, rfl⟩
    unfold isGraphic Char.toNat
    rw [decide_eq_true_eq]
    omega
  · simp only [List.mem_cons, List.not_mem_nil, or_false] at hmem
    rcases hmem with rfl | rfl | rfl | rfl | rfl | rfl <;> rfl

/-- The encoded parameters are sent as they are. -/
theorem graphic_encodeValues {params : List (GoString × GoString)} (hbytes : BytesParams params) :
    (encodeValues params).all isGraphic = true := by
  rw [List.all_eq_true]
  intro c hc
  by_contra hnot
  rw [Bool.not_eq_true] at hnot
  refine notMem_encodeValues hbytes ?_ ?_ ?_ hc
  · rw [Bool.eq_false_iff]
    intro hquery
    rw [isGraphic_of_queryChar hquery] at hnot
    exact nomatch hnot
  · rintro rfl
    exact nomatch hnot
  · rintro rfl
    exact nomatch hnot

/-! ## Where a browser goes -/

/-- The characters of a host with its port. -/
def authorityChar (c : Char) : Bool :=
  33 ≤ c.toNat ∧ c.toNat ≤ 126 ∧ endsAuthority c = false ∧ c ≠ '@'

/-- The URL of the frontend: a scheme, a host with an optional port, and an optional slash. -/
structure FrontendURL {Host : Type} (parseHost : List Char → Option Host) where
  scheme : Scheme
  authority : GoString
  slash : Bool
  place : Host × Option Nat
  chars : authority.all authorityChar = true
  resolves : parseAuthority parseHost scheme authority = some place

namespace FrontendURL

variable {Host : Type} {parseHost : List Char → Option Host} (f : FrontendURL parseHost)

/-- The slash at the end. -/
def slashText : GoString :=
  if f.slash then "/".toList else []

/-- The text of the URL. -/
def text : GoString :=
  f.scheme.name ++ "://".toList ++ f.authority ++ f.slashText

/-- A redirect ends at the frontend, with some parameters in the query. -/
def Lands (redirect : GoString) (params : List (GoString × GoString)) : Prop :=
  ∃ u, Web.parse parseHost (location redirect) = some u ∧ u.scheme = f.scheme ∧
    (u.host, u.port) = f.place ∧ ∀ p ∈ params, p ∈ formPairs (u.query.getD [])

/-- A callback URL that is accepted or resolved leads to the frontend in every case. -/
def Protects (callbackURL : GoString) : Prop :=
  acceptsCallback f.text callbackURL = true ∨
      resolveCallbackURL f.text callbackURL = callbackURL →
    ∀ result : SSOCallbackResult, result.callbackURL = callbackURL →
      BytesParams (callbackParams result) →
      f.Lands (callbackRedirect f.text result) (callbackParams result)

/-- With this text behind the URL, host and port are still the same. -/
def SamePlace (t : GoString) : Prop :=
  parseAuthority parseHost f.scheme
    (f.authority ++ (f.slashText ++ t).takeWhile fun c => !endsAuthority c) = some f.place

/-- The text behind the URL has no hash sign and leaves host and port as they are, with its blanks
at the end and without them. -/
def Continues (rest : GoString) : Prop :=
  '#' ∉ rest ∧ f.SamePlace (visible rest) ∧ f.SamePlace ((visible rest).rdropWhile isBlank)

/-! ## Reading a redirect -/

theorem authority_ne_nil : f.authority ≠ [] := by
  intro hnil
  have hresolves := f.resolves
  rw [hnil] at hresolves
  exact nomatch hresolves

theorem authority_all : (f.authority.all fun c => !endsAuthority c) = true := by
  rw [List.all_eq_true]
  intro c hc
  have hchar := List.all_eq_true.mp f.chars c hc
  simp only [authorityChar, decide_eq_true_eq] at hchar
  rw [hchar.2.2.1]
  rfl

theorem text_ne_nil : f.text ≠ [] := by
  intro hnil
  have hlength := congrArg List.length hnil
  simp [text] at hlength

/-- The URL of the frontend is sent as it is. -/
theorem text_graphic : f.text.all isGraphic = true := by
  have hauthority : f.authority.all isGraphic = true := by
    rw [List.all_eq_true]
    intro c hc
    have hchar := List.all_eq_true.mp f.chars c hc
    simp only [authorityChar, decide_eq_true_eq] at hchar
    exact decide_eq_true ⟨hchar.1, hchar.2.1⟩
  have hscheme : f.scheme.name.all isGraphic = true := by
    cases f.scheme <;> decide +kernel
  have hslash : f.slashText.all isGraphic = true := by
    unfold slashText
    cases f.slash <;> decide +kernel
  unfold text
  rw [List.all_append, List.all_append, List.all_append, hscheme, hauthority, hslash]
  decide +kernel

/-- Where a browser goes after a redirect that starts with the URL of the frontend. -/
theorem parse_location (rest : GoString) :
    Web.parse parseHost (location (f.text ++ rest)) =
      (parseAuthority parseHost f.scheme (f.authority ++
        (f.slashText ++ (visible rest).rdropWhile isBlank).takeWhile
          fun c => !endsAuthority c)).map
        fun (host, port) =>
          ⟨f.scheme, host, port, queryOf (f.slashText ++ (visible rest).rdropWhile isBlank)⟩ := by
  unfold Web.parse
  rw [stripped_location f.text_ne_nil f.text_graphic, text, List.append_assoc _ f.slashText,
    read_text parseHost f.scheme f.authority_all f.authority_ne_nil]

/-- A redirect ends at the frontend where host and port are still the same and the query has the
parameters. -/
theorem lands_iff (rest : GoString) (params : List (GoString × GoString)) :
    f.Lands (f.text ++ rest) params ↔
      f.SamePlace ((visible rest).rdropWhile isBlank) ∧
        ∀ p ∈ params, p ∈ formPairs
          ((queryOf (f.slashText ++ (visible rest).rdropWhile isBlank)).getD []) := by
  unfold Lands SamePlace
  rw [parse_location]
  constructor
  · rintro ⟨u, hu, -, hplace, hparams⟩
    rw [Option.map_eq_some_iff] at hu
    obtain ⟨⟨host, port⟩, hauthority, rfl⟩ := hu
    exact ⟨hauthority.trans (congrArg some hplace), hparams⟩
  · rintro ⟨hplace, hparams⟩
    rw [hplace]
    exact ⟨_, rfl, rfl, rfl, hparams⟩

/-! ## Appending parameters -/

theorem notMem_text {c : Char} (hends : endsAuthority c = true) (hslash : c ≠ '/') :
    c ∉ f.text := by
  have hauthority : c ∉ f.authority := by
    intro hmem
    have hnot := List.all_eq_true.mp f.authority_all c hmem
    rw [hends] at hnot
    exact nomatch hnot
  have hscheme : c ∉ f.scheme.name ++ "://".toList := by
    intro hmem
    have hchars : ((f.scheme.name ++ "://".toList).all fun d => d = '/' ∨ endsAuthority d = false) =
        true := by
      cases f.scheme <;> decide +kernel
    have hchar := of_decide_eq_true (List.all_eq_true.mp hchars c hmem)
    rw [hends] at hchar
    rcases hchar with heq | hnot
    · exact hslash heq
    · exact nomatch hnot
  have hslashText : c ∉ f.slashText := by
    unfold slashText
    cases f.slash with
    | true => simpa using hslash
    | false => simp
  unfold text
  rw [List.mem_append, List.mem_append]
  rintro ((hmem | hmem) | hmem)
  · exact hscheme hmem
  · exact hauthority hmem
  · exact hslashText hmem

/-- The character in front of appended parameters. -/
def separator (rest : GoString) : Char :=
  if '?' ∈ rest then '&' else '?'

theorem appendQueryParams_text (rest : GoString) (params : List (GoString × GoString)) :
    appendQueryParams (f.text ++ rest) params =
      f.text ++ (rest ++ separator rest :: encodeValues params) := by
  have hmem : contains (f.text ++ rest) "?".toList = true ↔ '?' ∈ rest := by
    rw [show "?".toList = ['?'] from rfl, contains_singleton_iff, List.mem_append]
    exact or_iff_right (f.notMem_text rfl (by decide))
  unfold appendQueryParams separator
  rw [if_congr hmem rfl rfl]
  split_ifs <;> simp

/-- The parameters are seen as they are. -/
theorem visible_append_params {params : List (GoString × GoString)} (hbytes : BytesParams params)
    (rest : GoString) :
    (visible (rest ++ separator rest :: encodeValues params)).rdropWhile isBlank =
      visible rest ++ separator rest :: encodeValues params := by
  have hgraphic : (separator rest :: encodeValues params).all isGraphic = true := by
    rw [List.all_cons, graphic_encodeValues hbytes, Bool.and_true]
    unfold separator
    split_ifs <;> rfl
  rw [visible_append, visible_of_graphic hgraphic]
  exact rdropWhile_append_eq_self (List.cons_ne_nil _ _)
    (all_not_of_graphic (fun c hc => hc) hgraphic)

/-- The parameters do not belong to the authority. -/
theorem takeWhile_append_params (rest enc : GoString) :
    (f.slashText ++ (visible rest ++ separator rest :: enc)).takeWhile (fun c => !endsAuthority c) =
      (f.slashText ++ visible rest).takeWhile fun c => !endsAuthority c := by
  rw [← List.append_assoc, List.takeWhile_append]
  split_ifs with hlength
  · have htake := (List.takeWhile_prefix (fun c => !endsAuthority c)).eq_of_length hlength
    have hquestion : '?' ∉ rest := by
      intro hmem
      have hvisible := (mem_visible_iff (c := '?') rfl rfl (by decide)).mpr hmem
      have hpass := List.mem_takeWhile_imp (htake ▸ List.mem_append_right f.slashText hvisible)
      exact nomatch hpass
    rw [htake, separator, if_neg hquestion]
    exact List.append_nil _
  · rfl

/-- Parameters that are appended to a URL without a hash sign are in its query. -/
theorem mem_formPairs_append_params {rest : GoString} (hrest : '#' ∉ rest)
    {params : List (GoString × GoString)} (hbytes : BytesParams params) {p : GoString × GoString}
    (hp : p ∈ params) :
    p ∈ formPairs ((queryOf
      (f.slashText ++ (visible rest ++ separator rest :: encodeValues params))).getD []) := by
  have hparams := mem_formPairs_encodeValues hbytes hp
  have hhash : '#' ∉ encodeValues params :=
    notMem_encodeValues hbytes rfl (by decide) (by decide)
  have hslash : ∀ c, c ≠ '/' → (c ∈ f.slashText ++ visible rest ↔ c ∈ visible rest) := by
    intro c hc
    rw [List.mem_append]
    apply or_iff_right
    unfold slashText
    cases f.slash with
    | true => simpa using hc
    | false => simp
  have hfront : '#' ∉ f.slashText ++ visible rest := by
    rw [hslash '#' (by decide), mem_visible_iff rfl rfl (by decide)]
    exact hrest
  rw [← List.append_assoc]
  unfold separator
  split_ifs with hquestion
  · have hmem : '?' ∈ f.slashText ++ visible rest := by
      rw [hslash '?' (by decide), mem_visible_iff rfl rfl (by decide)]
      exact hquestion
    obtain ⟨front, hquery⟩ := exists_queryOf_append (s := '&' :: encodeValues params) hfront hmem
      (by simp [hhash])
    rw [hquery]
    exact mem_formPairs_append hparams
  · have hmem : '?' ∉ f.slashText ++ visible rest := by
      rw [hslash '?' (by decide), mem_visible_iff rfl rfl (by decide)]
      exact hquestion
    rw [queryOf_append_question hfront hmem hhash]
    exact hparams

/-- A redirect with parameters ends at the frontend where host and port are still the same, if
there is no hash sign. -/
theorem lands_append {rest : GoString} (hrest : '#' ∉ rest) (hplace : f.SamePlace (visible rest))
    {params : List (GoString × GoString)} (hbytes : BytesParams params) :
    f.Lands (appendQueryParams (f.text ++ rest) params) params := by
  rw [appendQueryParams_text, lands_iff, visible_append_params hbytes]
  constructor
  · unfold SamePlace
    rw [takeWhile_append_params]
    exact hplace
  · intro p hp
    exact f.mem_formPairs_append_params hrest hbytes hp

/-- With the text of a boundary behind the URL, or with a slash at its end, the host is over. -/
theorem samePlace_of_boundary {t : GoString}
    (ht : ∀ c ∈ (f.slashText ++ t).head?, endsAuthority c = true) : f.SamePlace t := by
  unfold SamePlace
  have hnil : (f.slashText ++ t).takeWhile (fun c => !endsAuthority c) = [] := by
    cases hhead : f.slashText ++ t with
    | nil => rfl
    | cons c cs =>
        rw [hhead] at ht
        rw [List.takeWhile_cons, ht c rfl]
        rfl
  rw [hnil, List.append_nil]
  exact f.resolves

theorem continues_nil : f.Continues [] := by
  have hboundary : ∀ c ∈ (f.slashText ++ []).head?, endsAuthority c = true := by
    intro c hc
    unfold slashText at hc
    cases hslash : f.slash with
    | true =>
        rw [hslash] at hc
        obtain rfl := Option.some.inj hc
        rfl
    | false =>
        rw [hslash] at hc
        exact nomatch hc
  exact ⟨List.not_mem_nil, f.samePlace_of_boundary hboundary, f.samePlace_of_boundary hboundary⟩

/-- Tokens with a long access token. -/
def longTokens (n : Nat) : TokenPair :=
  ⟨List.replicate n 'a', [], 0⟩

theorem bytes_longTokens (n : Nat) : BytesParams (successParams (longTokens n)) := by
  intro p hp
  simp only [successParams, longTokens, List.mem_cons, List.not_mem_nil, or_false] at hp
  rcases hp with rfl | rfl | rfl
  · have hname : ("access_token".toList.all fun c => c.toNat < 256) = true := by
      decide +kernel
    refine ⟨hname, ?_⟩
    rw [List.all_replicate]
    split_ifs <;> rfl
  · exact ⟨by decide +kernel, rfl⟩
  · exact ⟨by decide +kernel, by decide +kernel⟩

/-- Some token is not among finitely many parameters. -/
theorem exists_token (pairs : List (GoString × GoString)) :
    ∃ n, ("access_token".toList, List.replicate n 'a') ∉ pairs := by
  refine ⟨(pairs.map fun p => p.2.length).sum + 1, fun hmem => ?_⟩
  have hle := List.le_sum_of_mem (List.mem_map_of_mem (f := fun p => p.2.length) hmem)
  rw [List.length_replicate] at hle
  exact Nat.not_succ_le_self _ hle

/-- The callback URL is taken as it is, or the URL of the frontend in its place. -/
theorem exists_resolveCallbackURL {callbackURL : GoString}
    (hcontinues : ∀ rest, callbackURL = f.text ++ rest → f.Continues rest) :
    ∃ rest, resolveCallbackURL f.text callbackURL = f.text ++ rest ∧ f.Continues rest := by
  unfold resolveCallbackURL
  split_ifs with hprefix
  · obtain ⟨rest, hrest⟩ := List.isPrefixOf_iff_prefix.mp hprefix.2
    exact ⟨rest, hrest.symm, hcontinues rest hrest.symm⟩
  · exact ⟨[], (List.append_nil _).symm, f.continues_nil⟩

/-- Every redirect lands where the text behind the URL allows it. -/
theorem lands_of_continues {rest : GoString} (hcontinues : f.Continues rest)
    {result : SSOCallbackResult} (hbytes : BytesParams (callbackParams result))
    (hresolve : resolveCallbackURL f.text result.callbackURL = f.text ++ rest) :
    f.Lands (callbackRedirect f.text result) (callbackParams result) := by
  obtain ⟨hhash, hplace, htrimmed⟩ := hcontinues
  unfold callbackRedirect callbackParams at *
  split_ifs at hbytes ⊢ with herror
  · unfold buildErrorRedirect
    rw [hresolve]
    exact f.lands_append hhash hplace hbytes
  · cases htokens : result.tokenPair with
    | some tokens =>
        rw [htokens] at hbytes
        unfold buildSuccessRedirect
        rw [hresolve]
        exact f.lands_append hhash hplace hbytes
    | none =>
        rw [hresolve, lands_iff]
        exact ⟨htrimmed, nofun⟩

/-- All redirects to a callback URL end at the frontend and carry their parameters in the query if
and only if the text behind the URL of the frontend allows it. -/
theorem protects_iff (callbackURL : GoString) :
    f.Protects callbackURL ↔ ∀ rest, callbackURL = f.text ++ rest → f.Continues rest := by
  constructor
  · rintro hprotects rest rfl
    have hne : f.text ++ rest ≠ [] := List.append_ne_nil_of_left_ne_nil f.text_ne_nil rest
    have hprefix : f.text.isPrefixOf (f.text ++ rest) = true :=
      List.isPrefixOf_iff_prefix.mpr (List.prefix_append _ _)
    have hresolve : resolveCallbackURL f.text (f.text ++ rest) = f.text ++ rest :=
      if_pos ⟨hne, hprefix⟩
    have hlands := hprotects (.inr hresolve)
    have htokens : ∀ n, f.Lands (appendQueryParams (f.text ++ rest)
        (successParams (longTokens n))) (successParams (longTokens n)) := by
      intro n
      have hsuccess := hlands ⟨f.text ++ rest, some (longTokens n), false, [], []⟩ rfl
        (bytes_longTokens n)
      rw [show callbackRedirect f.text _ = appendQueryParams
        (resolveCallbackURL f.text (f.text ++ rest)) (successParams (longTokens n)) from rfl,
        hresolve] at hsuccess
      exact hsuccess
    have hlink : f.Lands (f.text ++ rest) [] := by
      have hplain := hlands ⟨f.text ++ rest, none, false, [], []⟩ rfl nofun
      rw [show callbackRedirect f.text _ = resolveCallbackURL f.text (f.text ++ rest) from rfl,
        hresolve] at hplain
      exact hplain
    simp only [appendQueryParams_text, lands_iff, visible_append_params (bytes_longTokens _)]
      at htokens
    refine ⟨?hash, ?place, ((f.lands_iff _ _).mp hlink).1⟩
    case hash =>
      intro hhash
      have hfront : '#' ∈ f.slashText ++ visible rest :=
        List.mem_append_right _ ((mem_visible_iff rfl rfl (by decide)).mpr hhash)
      obtain ⟨n, hn⟩ := exists_token (formPairs ((queryOf (f.slashText ++ visible rest)).getD []))
      have hmem := (htokens n).2 ("access_token".toList, List.replicate n 'a') List.mem_cons_self
      rw [← List.append_assoc, queryOf_append_of_hash hfront] at hmem
      exact hn hmem
    case place =>
      have hplace := (htokens 0).1
      unfold SamePlace at hplace ⊢
      rw [takeWhile_append_params] at hplace
      exact hplace
  · intro hcontinues _ result hcallback hbytes
    subst hcallback
    obtain ⟨rest, hresolve, hrest⟩ := f.exists_resolveCallbackURL hcontinues
    exact f.lands_of_continues hrest hbytes hresolve

end FrontendURL

/-! ## A foreign site -/

/-- A frontend without a slash at the end; names of hosts are taken as they are. -/
def exampleFrontend : FrontendURL (some : List Char → Option (List Char)) where
  scheme := .https
  authority := "app.example".toList
  slash := false
  place := ("app.example".toList, none)
  chars := by decide +kernel
  resolves := by decide +kernel

/-- The result of a sign-in with a callback URL that only begins like the frontend. -/
def foreignResult : SSOCallbackResult :=
  ⟨"https://app.example.evil/".toList, some ⟨"at".toList, "rt".toList, 900⟩, false, [], []⟩

/-- The URL is accepted, and the tokens are sent to another host. -/
theorem tokens_to_foreign_host :
    acceptsCallback exampleFrontend.text foreignResult.callbackURL = true ∧
      Web.parse some (location (callbackRedirect exampleFrontend.text foreignResult)) =
        some ⟨.https, "app.example.evil".toList, none,
          some "access_token=at&expires_in=900&refresh_token=rt".toList⟩ ∧
      ¬exampleFrontend.Protects foreignResult.callbackURL := by
  have haccepts : acceptsCallback exampleFrontend.text foreignResult.callbackURL = true := by
    decide +kernel
  have hparse : Web.parse some (location (callbackRedirect exampleFrontend.text foreignResult)) =
      some ⟨.https, "app.example.evil".toList, none,
        some "access_token=at&expires_in=900&refresh_token=rt".toList⟩ := by
    decide +kernel
  refine ⟨haccepts, hparse, ?_⟩
  intro hprotects
  obtain ⟨u, hu, -, hplace, -⟩ := hprotects (.inl haccepts) foreignResult rfl (by
    unfold BytesParams
    decide +kernel)
  rw [hparse] at hu
  obtain rfl := Option.some.inj hu
  exact absurd hplace (by decide +kernel)

end Restapi
end Veilence

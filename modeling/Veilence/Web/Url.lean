import Veilence.Go.Url
import Mathlib.Data.List.DropRight

/-!
# URLs in a browser

What a browser makes of an absolute URL with one of the schemes that have a host, and of the
parameters in a query.  The parser of host names is a parameter.

Main results:

- Theorem {lit}`read_text`: the authority of a text goes up to the first slash, backslash,
  question mark or hash sign, and its query is what stands behind the question mark.
- Theorem {lit}`mem_formPairs_append`: parameters that are appended to a query are among its
  parameters.
-/

namespace Veilence
namespace Web

/-! ## Texts -/

/-- Control characters and the space, which are removed at the ends of a text. -/
def isBlank (c : Char) : Bool :=
  c.toNat ≤ 32

/-- Tabs and line breaks, which are removed everywhere. -/
def isTabOrNewline (c : Char) : Bool :=
  c = '\t' ∨ c = '\n' ∨ c = '\r'

/-- The text that is parsed. -/
def stripped (s : List Char) : List Char :=
  ((s.dropWhile isBlank).rdropWhile isBlank).filter fun c => !isTabOrNewline c

section

variable {p q : Char → Bool} {l s t : List Char}

/-- Blanks are removed in one go. -/
theorem dropWhile_dropWhile (hpq : ∀ c, q c = true → p c = true) :
    (l.dropWhile q).dropWhile p = l.dropWhile p := by
  induction l with
  | nil => rfl
  | cons c l ih =>
      rw [List.dropWhile_cons (p := q)]
      split_ifs with hc
      · rw [ih, List.dropWhile_cons_of_pos (hpq c hc)]
      · rfl

/-- What is removed anyway can be removed before the blanks. -/
theorem filter_dropWhile (hpq : ∀ c, q c = false → p c = true) :
    (l.dropWhile p).filter q = (l.filter q).dropWhile p := by
  induction l with
  | nil => rfl
  | cons c l ih =>
      rw [List.dropWhile_cons]
      split_ifs with hc
      · rw [ih, List.filter_cons]
        split_ifs with hq
        · rw [List.dropWhile_cons_of_pos hc]
        · rfl
      · have hq : q c = true := by
          by_contra hq
          exact hc (hpq c (Bool.eq_false_iff.mpr hq))
        rw [List.filter_cons_of_pos hq, List.dropWhile_cons_of_neg hc]

theorem rdropWhile_rdropWhile (hpq : ∀ c, q c = true → p c = true) :
    (l.rdropWhile q).rdropWhile p = l.rdropWhile p := by
  simp only [List.rdropWhile, List.reverse_reverse, dropWhile_dropWhile hpq]

theorem filter_rdropWhile (hpq : ∀ c, q c = false → p c = true) :
    (l.rdropWhile p).filter q = (l.filter q).rdropWhile p := by
  simp only [List.rdropWhile, List.filter_reverse, filter_dropWhile hpq]

/-- A text that does not start with a blank keeps its beginning. -/
theorem dropWhile_append_of_none (hne : s ≠ []) (hs : (s.all fun c => !p c) = true) :
    (s ++ t).dropWhile p = s ++ t := by
  cases s with
  | nil => exact absurd rfl hne
  | cons c s =>
      rw [List.all_cons, Bool.and_eq_true, Bool.not_eq_true'] at hs
      rw [List.cons_append, List.dropWhile_cons_of_neg (by rw [hs.1]; exact nofun)]

/-- No blanks are removed before the last character that is none. -/
theorem rdropWhile_append_of_none (hne : s ≠ []) (hs : (s.all fun c => !p c) = true) :
    (s ++ t).rdropWhile p = s ++ t.rdropWhile p := by
  induction t using List.reverseRecOn with
  | nil =>
      have hall : (s.reverse.all fun c => !p c) = true := by
        rw [List.all_reverse]
        exact hs
      have hdrop := dropWhile_append_of_none (t := []) (List.reverse_ne_nil_iff.mpr hne) hall
      rw [List.append_nil] at hdrop ⊢
      rw [List.rdropWhile, hdrop, List.reverse_reverse, List.rdropWhile_nil, List.append_nil]
  | append_singleton t c ih =>
      rw [← List.append_assoc, List.rdropWhile_concat, List.rdropWhile_concat]
      split_ifs
      · exact ih
      · rw [List.append_assoc]

/-- A text that ends with other characters than blanks is kept. -/
theorem rdropWhile_append_eq_self (hne : t ≠ []) (ht : (t.all fun c => !p c) = true) :
    (s ++ t).rdropWhile p = s ++ t := by
  have hall : (t.reverse.all fun c => !p c) = true := by
    rw [List.all_reverse]
    exact ht
  rw [List.rdropWhile, List.reverse_append,
    dropWhile_append_of_none (List.reverse_ne_nil_iff.mpr hne) hall, ← List.reverse_append,
    List.reverse_reverse]

end

/-! ## Parts of a URL -/

/-- The schemes that have a host. -/
inductive Scheme where
  | http
  | https
  | ws
  | wss
  | ftp
deriving DecidableEq

/-- The name of a scheme. -/
def Scheme.name : Scheme → List Char
  | .http => "http".toList
  | .https => "https".toList
  | .ws => "ws".toList
  | .wss => "wss".toList
  | .ftp => "ftp".toList

/-- The port of a scheme, which is left out of a URL. -/
def Scheme.defaultPort : Scheme → Nat
  | .http => 80
  | .https => 443
  | .ws => 80
  | .wss => 443
  | .ftp => 21

/-- The scheme of a name, in capital or small letters. -/
def Scheme.ofName (name : List Char) : Option Scheme :=
  [Scheme.http, .https, .ws, .wss, .ftp].find? fun scheme => scheme.name = name.map Char.toLower

/-- The characters that end an authority. -/
def endsAuthority (c : Char) : Bool :=
  c = '/' ∨ c = '\\' ∨ c = '?' ∨ c = '#'

/-- What stands behind the last at sign, or everything. -/
def afterUserinfo (authority : List Char) : List Char :=
  authority.rtakeWhile (· ≠ '@')

/-- A host with what stands behind its colon; a colon in brackets belongs to the host. -/
def cutPort : Bool → List Char → List Char × Option (List Char)
  | _, [] => ([], none)
  | bracketed, c :: cs =>
      if c = ':' ∧ bracketed = false then ([], some cs)
      else
        let (host, port) :=
          cutPort (if c = '[' then true else if c = ']' then false else bracketed) cs
        (c :: host, port)

/-- A port: none if there are no digits, or if it is the one of the scheme. -/
def parsePort (defaultPort : Nat) (digits : List Char) : Option (Option Nat) :=
  if digits.all Char.isDigit = false then none
  else if digits = [] then some none
  else if 65535 < Nat.ofDigitChars 10 digits 0 then none
  else if Nat.ofDigitChars 10 digits 0 = defaultPort then some none
  else some (some (Nat.ofDigitChars 10 digits 0))

section

variable {Host : Type} (parseHost : List Char → Option Host)

/-- The host and the port of an authority. -/
def parseAuthority (scheme : Scheme) (authority : List Char) : Option (Host × Option Nat) :=
  match cutPort false (afterUserinfo authority) with
  | ([], _) => none
  | (c :: cs, none) => (parseHost (c :: cs)).map fun host => (host, none)
  | (c :: cs, some digits) =>
      (parseHost (c :: cs)).bind fun host =>
        (parsePort scheme.defaultPort digits).map fun port => (host, port)

/-- The query of what stands behind an authority. -/
def queryOf (tail : List Char) : Option (List Char) :=
  match (tail.takeWhile (· ≠ '#')).dropWhile (· ≠ '?') with
  | [] => none
  | _ :: query => some query

/-- A URL without its user information, path and fragment. -/
structure URL (Host : Type) where
  scheme : Scheme
  host : Host
  port : Option Nat
  query : Option (List Char)
deriving DecidableEq

/-- Read what stands behind the slashes. -/
def readAuthority (scheme : Scheme) (rest : List Char) : Option (URL Host) :=
  (parseAuthority parseHost scheme (rest.takeWhile fun c => !endsAuthority c)).map
    fun (host, port) => ⟨scheme, host, port, queryOf (rest.dropWhile fun c => !endsAuthority c)⟩

/-- Read a text without tabs, line breaks and blanks at its ends. -/
def read (s : List Char) : Option (URL Host) :=
  (Scheme.ofName (s.takeWhile (· ≠ ':'))).bind fun scheme =>
    match s.dropWhile (· ≠ ':') with
    | ':' :: '/' :: '/' :: rest =>
        readAuthority parseHost scheme (rest.dropWhile fun c => c = '/' ∨ c = '\\')
    | _ => none

/-- Parse a URL. -/
def parse (s : List Char) : Option (URL Host) :=
  read parseHost (stripped s)

end

/-! ## Parameters -/

/-- Decode a name or a value of a parameter; a percent sign without two digits is kept. -/
def formDecode : List Char → List Char
  | '%' :: hi :: lo :: rest =>
      match Go.unhex hi, Go.unhex lo with
      | some h, some l => Char.ofNat (16 * h + l) :: formDecode rest
      | _, _ => '%' :: formDecode (hi :: lo :: rest)
  | c :: cs => (if c = '+' then ' ' else c) :: formDecode cs
  | [] => []

/-- The name and the value of a parameter. -/
def formPair (part : List Char) : List Char × List Char :=
  (formDecode (part.takeWhile (· ≠ '=')), formDecode ((part.dropWhile (· ≠ '=')).drop 1))

/-- The parameters of a query. -/
def formPairs (query : List Char) : List (List Char × List Char) :=
  ((query.splitOn '&').filter (· ≠ [])).map formPair

/-! ## Reading a text -/

section

variable {Host : Type} (parseHost : List Char → Option Host) {a t : List Char}

theorem takeWhile_append_of_all {p : Char → Bool} (ha : a.all p = true) :
    (a ++ t).takeWhile p = a ++ t.takeWhile p :=
  List.takeWhile_append_of_pos fun c hc => List.all_eq_true.mp ha c hc

theorem dropWhile_append_of_all {p : Char → Bool} (ha : a.all p = true) :
    (a ++ t).dropWhile p = t.dropWhile p :=
  List.dropWhile_append_of_pos fun c hc => List.all_eq_true.mp ha c hc

theorem Scheme.ofName_name (scheme : Scheme) : Scheme.ofName scheme.name = some scheme := by
  cases scheme <;> decide +kernel

theorem Scheme.all_name (scheme : Scheme) : (scheme.name.all fun c => c ≠ ':') = true := by
  cases scheme <;> decide +kernel

/-- What belongs to the authority has no query. -/
theorem queryOf_dropWhile (t : List Char) :
    queryOf (t.dropWhile fun c => !endsAuthority c) = queryOf t := by
  induction t with
  | nil => rfl
  | cons c t ih =>
      rw [List.dropWhile_cons]
      split_ifs with hc
      · rw [ih]
        have hhash : c ≠ '#' := by
          rintro rfl
          exact nomatch hc
        have hquestion : c ≠ '?' := by
          rintro rfl
          exact nomatch hc
        unfold queryOf
        simp [hhash, hquestion]
      · rfl

/-- The reading of a text with a scheme and the beginning of an authority. -/
theorem read_text (scheme : Scheme) (ha : (a.all fun c => !endsAuthority c) = true) (hne : a ≠ []) :
    read parseHost (scheme.name ++ "://".toList ++ a ++ t) =
      (parseAuthority parseHost scheme (a ++ t.takeWhile fun c => !endsAuthority c)).map
        fun (host, port) => ⟨scheme, host, port, queryOf t⟩ := by
  have htake : (scheme.name ++ "://".toList ++ a ++ t).takeWhile (· ≠ ':') = scheme.name := by
    rw [List.append_assoc, List.append_assoc, takeWhile_append_of_all scheme.all_name]
    exact List.append_nil _
  have hdrop : (scheme.name ++ "://".toList ++ a ++ t).dropWhile (· ≠ ':') =
      ':' :: '/' :: '/' :: (a ++ t) := by
    rw [List.append_assoc, List.append_assoc, dropWhile_append_of_all scheme.all_name]
    rfl
  have hslashes : (a ++ t).dropWhile (fun c => c = '/' ∨ c = '\\') = a ++ t := by
    cases a with
    | nil => exact absurd rfl hne
    | cons c a =>
        rw [List.all_cons, Bool.and_eq_true] at ha
        rw [List.cons_append, List.dropWhile_cons, if_neg]
        intro hslash
        have hends : endsAuthority c = true := by
          unfold endsAuthority
          rw [decide_eq_true_eq] at hslash ⊢
          rcases hslash with rfl | rfl
          · exact .inl rfl
          · exact .inr (.inl rfl)
        rw [hends] at ha
        exact nomatch ha.1
  have hread : read parseHost (scheme.name ++ "://".toList ++ a ++ t) =
      readAuthority parseHost scheme ((a ++ t).dropWhile fun c => c = '/' ∨ c = '\\') := by
    unfold read
    rw [htake, Scheme.ofName_name, Option.bind_some, hdrop]
    rfl
  rw [hread, hslashes]
  unfold readAuthority
  rw [takeWhile_append_of_all ha, dropWhile_append_of_all ha, queryOf_dropWhile]

end

/-! ## Queries -/

theorem takeWhile_ne_of_notMem {c : Char} {s : List Char} (hs : c ∉ s) :
    s.takeWhile (· ≠ c) = s := by
  rw [List.takeWhile_eq_self_iff]
  intro d hd
  rw [decide_eq_true_eq]
  rintro rfl
  exact hs hd

/-- The part up to a character that is there. -/
theorem takeWhile_ne_append_of_mem {c : Char} {s : List Char} (hs : c ∈ s) (t : List Char) :
    (s ++ t).takeWhile (· ≠ c) = s.takeWhile (· ≠ c) := by
  induction s with
  | nil => exact nomatch hs
  | cons d s ih =>
      rw [List.cons_append, List.takeWhile_cons, List.takeWhile_cons]
      split_ifs with hd
      · have hne : c ≠ d := fun heq => of_decide_eq_true hd heq.symm
        rw [ih ((List.mem_cons.mp hs).resolve_left hne)]
      · rfl

theorem dropWhile_ne_append_of_mem {c : Char} {s : List Char} (hs : c ∈ s) (t : List Char) :
    (s ++ t).dropWhile (· ≠ c) = s.dropWhile (· ≠ c) ++ t := by
  induction s with
  | nil => exact nomatch hs
  | cons d s ih =>
      rw [List.cons_append, List.dropWhile_cons, List.dropWhile_cons]
      split_ifs with hd
      · have hne : c ≠ d := fun heq => of_decide_eq_true hd heq.symm
        exact ih ((List.mem_cons.mp hs).resolve_left hne)
      · rfl

/-- Nothing behind a hash sign belongs to the query. -/
theorem queryOf_append_of_hash {b : List Char} (hb : '#' ∈ b) (s : List Char) :
    queryOf (b ++ s) = queryOf b := by
  unfold queryOf
  rw [takeWhile_ne_append_of_mem hb]

/-- A query behind a question mark. -/
theorem queryOf_append_question {b s : List Char} (hhash : '#' ∉ b) (hb : '?' ∉ b)
    (hs : '#' ∉ s) : queryOf (b ++ '?' :: s) = some s := by
  have hall : (b.all fun c => c ≠ '?') = true := by
    rw [List.all_eq_true]
    intro c hc
    rw [decide_eq_true_eq]
    rintro rfl
    exact hb hc
  unfold queryOf
  rw [takeWhile_ne_of_notMem (by simp [hhash, hs]), dropWhile_append_of_all hall]
  rfl

/-- A text that has a query is continued in it. -/
theorem exists_queryOf_append {b s : List Char} (hhash : '#' ∉ b) (hb : '?' ∈ b) (hs : '#' ∉ s) :
    ∃ front, queryOf (b ++ s) = some (front ++ s) := by
  unfold queryOf
  rw [takeWhile_ne_of_notMem (by simp [hhash, hs]), dropWhile_ne_append_of_mem hb]
  cases hdrop : b.dropWhile (· ≠ '?') with
  | nil =>
      have hall := List.dropWhile_eq_nil_iff.mp hdrop '?' hb
      exact absurd hall (by decide)
  | cons c front => exact ⟨front, rfl⟩

/-! ## Appended parameters -/

/-- The parameters behind an ampersand are parameters of the query. -/
theorem mem_formPairs_append {front back : List Char} {pair : List Char × List Char}
    (hpair : pair ∈ formPairs back) : pair ∈ formPairs (front ++ '&' :: back) := by
  unfold formPairs at hpair ⊢
  rw [List.splitOn_append_cons_self, List.filter_append, List.map_append]
  exact List.mem_append_right _ hpair

end Web
end Veilence

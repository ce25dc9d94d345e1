import Veilence.Go.Utf8

/-!
# JSON texts

The grammar that {lit}`encoding/json` accepts, on bytes, and a reader for it.  A value keeps
the bytes of its numbers and strings as they stand in the text.

Main results:

- Theorem {lit}`syntax_of_readText`: what the reader accepts is a text of the grammar.
-/

namespace Veilence
namespace Go

namespace Json

/-! ## Tokens -/

/-- White space between tokens. -/
def isSpace (c : Char) : Bool :=
  c = ' ' || c = '\t' || c = '\r' || c = '\n'

/-- A text of white space. -/
def Ws (s : GoString) : Prop :=
  ∀ c ∈ s, isSpace c = true

/-- The letters after a backslash that stand for one character. -/
def escapes : List Char :=
  ['b', 'f', 'n', 'r', 't', '\\', '/', '"']

/-- A hexadecimal digit. -/
def isHex (c : Char) : Bool :=
  c.isDigit || ('a' ≤ c && c ≤ 'f') || ('A' ≤ c && c ≤ 'F')

/-- The bytes that a string holds as they are. -/
def isPlain (c : Char) : Bool :=
  c ≠ '"' && c ≠ '\\' && ' ' ≤ c

/-- The bytes between the quotes of a string. -/
inductive StringBody : GoString → Prop where
  | nil : StringBody []
  | plain {c : Char} {s : GoString} (hc : isPlain c = true) (hs : StringBody s) :
      StringBody (c :: s)
  | escape {c : Char} {s : GoString} (hc : c ∈ escapes) (hs : StringBody s) :
      StringBody ('\\' :: c :: s)
  | unicode {a b c d : Char} {s : GoString} (ha : isHex a = true) (hb : isHex b = true)
      (hc : isHex c = true) (hd : isHex d = true) (hs : StringBody s) :
      StringBody ('\\' :: 'u' :: a :: b :: c :: d :: s)

/-- A text of digits. -/
def Digits (s : GoString) : Prop :=
  ∀ c ∈ s, c.isDigit = true

/-- The integer part of a number, without superfluous zeros. -/
inductive IntPart : GoString → Prop where
  | zero : IntPart ['0']
  | digits {c : Char} {s : GoString} (hc : c.isDigit = true) (hne : c ≠ '0') (hs : Digits s) :
      IntPart (c :: s)

/-- The fraction of a number, if it has one. -/
inductive FracPart : GoString → Prop where
  | none : FracPart []
  | digits {s : GoString} (hne : s ≠ []) (hs : Digits s) : FracPart ('.' :: s)

/-- The exponent of a number, if it has one. -/
inductive ExpPart : GoString → Prop where
  | none : ExpPart []
  | digits {e : Char} {sign s : GoString} (he : e = 'e' ∨ e = 'E')
      (hsign : sign = [] ∨ sign = ['+'] ∨ sign = ['-']) (hne : s ≠ []) (hs : Digits s) :
      ExpPart (e :: sign ++ s)

/-- A number. -/
inductive NumberText : GoString → Prop where
  | mk {sign int frac exp : GoString} (hsign : sign = [] ∨ sign = ['-']) (hint : IntPart int)
      (hfrac : FracPart frac) (hexp : ExpPart exp) : NumberText (sign ++ int ++ frac ++ exp)

/-! ## The grammar -/

/-- A value, with the bytes of its numbers and strings. -/
inductive Value where
  | null
  | bool (b : Bool)
  | number (text : GoString)
  | string (body : GoString)
  | array (elements : List Value)
  | object (members : List (GoString × Value))

/-- The parts of a text: a value, or what stands between the brackets of an array or an
object. -/
inductive Form where
  | value (v : Value)
  | elements (vs : List Value)
  | members (ms : List (GoString × Value))

/-- `Syntax d form s`: the text `s` is the form, with at most `d` arrays and objects inside
each other. -/
inductive Syntax : Nat → Form → GoString → Prop where
  | null {d : Nat} : Syntax d (.value .null) "null".toList
  | bool {d : Nat} (b : Bool) :
      Syntax d (.value (.bool b)) (if b then "true".toList else "false".toList)
  | number {d : Nat} {s : GoString} (hs : NumberText s) : Syntax d (.value (.number s)) s
  | string {d : Nat} {s : GoString} (hs : StringBody s) :
      Syntax d (.value (.string s)) ('"' :: s ++ ['"'])
  | array {d : Nat} {vs : List Value} {s : GoString} (hs : Syntax d (.elements vs) s) :
      Syntax (d + 1) (.value (.array vs)) ('[' :: s ++ [']'])
  | object {d : Nat} {ms : List (GoString × Value)} {s : GoString}
      (hs : Syntax d (.members ms) s) : Syntax (d + 1) (.value (.object ms)) ('{' :: s ++ ['}'])
  | noElements {d : Nat} {w₁ : GoString} (hw₁ : Ws w₁) : Syntax d (.elements []) w₁
  | lastElement {d : Nat} {v : Value} {w₁ s w₂ : GoString} (hw₁ : Ws w₁)
      (hs : Syntax d (.value v) s) (hw₂ : Ws w₂) : Syntax d (.elements [v]) (w₁ ++ s ++ w₂)
  | moreElements {d : Nat} {v : Value} {vs : List Value} {w₁ s w₂ rest : GoString} (hw₁ : Ws w₁)
      (hs : Syntax d (.value v) s) (hw₂ : Ws w₂) (hrest : Syntax d (.elements vs) rest)
      (hne : vs ≠ []) : Syntax d (.elements (v :: vs)) (w₁ ++ s ++ w₂ ++ [','] ++ rest)
  | noMembers {d : Nat} {w₁ : GoString} (hw₁ : Ws w₁) : Syntax d (.members []) w₁
  | lastMember {d : Nat} {k : GoString} {v : Value} {w₁ w₂ w₃ s w₄ : GoString} (hw₁ : Ws w₁)
      (hk : StringBody k) (hw₂ : Ws w₂) (hw₃ : Ws w₃) (hs : Syntax d (.value v) s)
      (hw₄ : Ws w₄) :
      Syntax d (.members [(k, v)])
        (w₁ ++ ('"' :: k ++ ['"']) ++ w₂ ++ [':'] ++ w₃ ++ s ++ w₄)
  | moreMembers {d : Nat} {k : GoString} {v : Value} {ms : List (GoString × Value)}
      {w₁ w₂ w₃ s w₄ rest : GoString} (hw₁ : Ws w₁) (hk : StringBody k) (hw₂ : Ws w₂)
      (hw₃ : Ws w₃) (hs : Syntax d (.value v) s) (hw₄ : Ws w₄)
      (hrest : Syntax d (.members ms) rest) (hne : ms ≠ []) :
      Syntax d (.members ((k, v) :: ms))
        (w₁ ++ ('"' :: k ++ ['"']) ++ w₂ ++ [':'] ++ w₃ ++ s ++ w₄ ++ [','] ++ rest)

/-! ## The reader -/

/-- The text after its leading white space. -/
def skipWs (s : GoString) : GoString :=
  s.dropWhile isSpace

/-- Read the integer part of a number. -/
def readInt : GoString → Option (GoString × GoString)
  | [] => none
  | c :: rest =>
      if c = '0' then some (['0'], rest)
      else if c.isDigit then
        some (c :: rest.takeWhile Char.isDigit, rest.dropWhile Char.isDigit)
      else none

/-- Read the fraction of a number, if there is one. -/
def readFrac : GoString → Option (GoString × GoString)
  | '.' :: rest =>
      if rest.takeWhile Char.isDigit = [] then none
      else some ('.' :: rest.takeWhile Char.isDigit, rest.dropWhile Char.isDigit)
  | s => some ([], s)

/-- Read the sign of an exponent, if there is one. -/
def readSign : GoString → GoString × GoString
  | '+' :: rest => (['+'], rest)
  | '-' :: rest => (['-'], rest)
  | s => ([], s)

/-- Read the exponent of a number, if there is one. -/
def readExp : GoString → Option (GoString × GoString)
  | [] => some ([], [])
  | c :: rest =>
      if c = 'e' ∨ c = 'E' then
        if (readSign rest).2.takeWhile Char.isDigit = [] then none
        else some (c :: (readSign rest).1 ++ (readSign rest).2.takeWhile Char.isDigit,
          (readSign rest).2.dropWhile Char.isDigit)
      else some ([], c :: rest)

/-- Read a number after its sign. -/
def readUnsigned (sign s : GoString) : Option (GoString × GoString) := do
  let (int, s) ← readInt s
  let (frac, s) ← readFrac s
  let (exp, s) ← readExp s
  some (sign ++ int ++ frac ++ exp, s)

/-- Read a number. -/
def readNumber : GoString → Option (GoString × GoString)
  | '-' :: rest => readUnsigned ['-'] rest
  | s => readUnsigned [] s

/-- Read the bytes of a string up to its closing quote. -/
def readString : GoString → Option (GoString × GoString)
  | [] => none
  | '"' :: rest => some ([], rest)
  | '\\' :: 'u' :: a :: b :: c :: d :: rest =>
      if isHex a ∧ isHex b ∧ isHex c ∧ isHex d then
        (readString rest).map fun r => ('\\' :: 'u' :: a :: b :: c :: d :: r.1, r.2)
      else none
  | '\\' :: c :: rest =>
      if c ∈ escapes then (readString rest).map fun r => ('\\' :: c :: r.1, r.2) else none
  | c :: rest => if isPlain c then (readString rest).map fun r => (c :: r.1, r.2) else none

mutual

/-- Read a value with at most so many arrays and objects inside each other. -/
def readValue : Nat → Nat → GoString → Option (Value × GoString)
  | 0, _, _ => none
  | fuel + 1, depth, s =>
      match s with
      | '"' :: rest => (readString rest).map fun r => (.string r.1, r.2)
      | 'n' :: 'u' :: 'l' :: 'l' :: rest => some (.null, rest)
      | 't' :: 'r' :: 'u' :: 'e' :: rest => some (.bool true, rest)
      | 'f' :: 'a' :: 'l' :: 's' :: 'e' :: rest => some (.bool false, rest)
      | '[' :: rest =>
          match depth with
          | 0 => none
          | depth + 1 =>
              match readElements fuel depth rest with
              | some (vs, ']' :: rest) => some (.array vs, rest)
              | _ => none
      | '{' :: rest =>
          match depth with
          | 0 => none
          | depth + 1 =>
              match readMembers fuel depth rest with
              | some (ms, '}' :: rest) => some (.object ms, rest)
              | _ => none
      | s => (readNumber s).map fun r => (.number r.1, r.2)

/-- Read the values of an array up to its closing bracket. -/
def readElements : Nat → Nat → GoString → Option (List Value × GoString)
  | 0, _, _ => none
  | fuel + 1, depth, s =>
      match skipWs s with
      | ']' :: rest => some ([], ']' :: rest)
      | s =>
          match readValue fuel depth s with
          | none => none
          | some (v, s) =>
              match skipWs s with
              | ',' :: s =>
                  match readElements fuel depth s with
                  | some (v' :: vs, s) => some (v :: v' :: vs, s)
                  | _ => none
              | s => some ([v], s)

/-- Read the members of an object up to its closing brace. -/
def readMembers : Nat → Nat → GoString → Option (List (GoString × Value) × GoString)
  | 0, _, _ => none
  | fuel + 1, depth, s =>
      match skipWs s with
      | '}' :: rest => some ([], '}' :: rest)
      | '"' :: s =>
          match readString s with
          | none => none
          | some (key, s) =>
              match skipWs s with
              | ':' :: s =>
                  match readValue fuel depth (skipWs s) with
                  | none => none
                  | some (v, s) =>
                      match skipWs s with
                      | ',' :: s =>
                          match readMembers fuel depth s with
                          | some (m :: ms, s) => some ((key, v) :: m :: ms, s)
                          | _ => none
                      | s => some ([(key, v)], s)
              | _ => none
      | _ => none

end

/-- The deepest nesting that {lit}`encoding/json` accepts. -/
def maxNestingDepth : Nat :=
  10000

/-- Read a whole text: a value and white space around it.  Every two steps of the reader
pass a byte, which bounds the fuel. -/
def readText (s : GoString) : Option Value :=
  match readValue (2 * s.length + 2) maxNestingDepth (skipWs s) with
  | some (v, rest) => if skipWs rest = [] then some v else none
  | none => none

/-! ## What the reader accepts -/

theorem ws_skipWs (s : GoString) : ∃ w, Ws w ∧ s = w ++ skipWs s :=
  ⟨s.takeWhile isSpace, fun _ hc => List.mem_takeWhile_imp hc,
    (List.takeWhile_append_dropWhile).symm⟩

theorem digits_takeWhile (s : GoString) : Digits (s.takeWhile Char.isDigit) :=
  fun _ hc => List.mem_takeWhile_imp hc

theorem syntax_of_readInt {s t rest : GoString} (hread : readInt s = some (t, rest)) :
    IntPart t ∧ s = t ++ rest := by
  cases s with
  | nil => simp [readInt] at hread
  | cons c s =>
      rw [readInt] at hread
      split_ifs at hread with hzero hdigit
      · obtain ⟨ht, hrest⟩ := Prod.mk.inj (Option.some.inj hread)
        subst ht hrest
        exact ⟨IntPart.zero, by rw [hzero, List.singleton_append]⟩
      · obtain ⟨ht, hrest⟩ := Prod.mk.inj (Option.some.inj hread)
        subst ht hrest
        exact ⟨IntPart.digits hdigit hzero (digits_takeWhile s), by simp⟩

theorem syntax_of_readFrac {s t rest : GoString} (hread : readFrac s = some (t, rest)) :
    FracPart t ∧ s = t ++ rest := by
  unfold readFrac at hread
  split at hread
  · split_ifs at hread with hnone
    obtain ⟨ht, hrest⟩ := Prod.mk.inj (Option.some.inj hread)
    subst ht hrest
    exact ⟨FracPart.digits hnone (digits_takeWhile _), by simp⟩
  · obtain ⟨ht, hrest⟩ := Prod.mk.inj (Option.some.inj hread)
    subst ht hrest
    exact ⟨FracPart.none, rfl⟩

theorem syntax_of_readSign (s : GoString) :
    ((readSign s).1 = [] ∨ (readSign s).1 = ['+'] ∨ (readSign s).1 = ['-']) ∧
      s = (readSign s).1 ++ (readSign s).2 := by
  unfold readSign
  split
  · exact ⟨Or.inr (Or.inl rfl), rfl⟩
  · exact ⟨Or.inr (Or.inr rfl), rfl⟩
  · exact ⟨Or.inl rfl, rfl⟩

theorem syntax_of_readExp {s t rest : GoString} (hread : readExp s = some (t, rest)) :
    ExpPart t ∧ s = t ++ rest := by
  cases s with
  | nil =>
      obtain ⟨ht, hrest⟩ := Prod.mk.inj (Option.some.inj hread)
      subst ht hrest
      exact ⟨ExpPart.none, rfl⟩
  | cons c s =>
      rw [readExp] at hread
      obtain ⟨hsign, hs⟩ := syntax_of_readSign s
      split_ifs at hread with he hnone
      · obtain ⟨ht, hrest⟩ := Prod.mk.inj (Option.some.inj hread)
        subst ht hrest
        refine ⟨ExpPart.digits he hsign hnone (digits_takeWhile _), ?_⟩
        rw [List.cons_append, List.cons_append, List.append_assoc,
          List.takeWhile_append_dropWhile, ← hs]
      · obtain ⟨ht, hrest⟩ := Prod.mk.inj (Option.some.inj hread)
        subst ht hrest
        exact ⟨ExpPart.none, rfl⟩

theorem syntax_of_readUnsigned {sign s t rest : GoString} (hsign : sign = [] ∨ sign = ['-'])
    (hread : readUnsigned sign s = some (t, rest)) : NumberText t ∧ sign ++ s = t ++ rest := by
  simp only [readUnsigned, Option.bind_eq_bind, Option.bind_eq_some_iff, Prod.exists] at hread
  obtain ⟨int, s₁, hint, frac, s₂, hfrac, exp, s₃, hexp, hresult⟩ := hread
  obtain ⟨ht, hrest⟩ := Prod.mk.inj (Option.some.inj hresult)
  subst ht hrest
  obtain ⟨hint, hs⟩ := syntax_of_readInt hint
  obtain ⟨hfrac, hs₁⟩ := syntax_of_readFrac hfrac
  obtain ⟨hexp, hs₂⟩ := syntax_of_readExp hexp
  refine ⟨NumberText.mk hsign hint hfrac hexp, ?_⟩
  rw [hs, hs₁, hs₂]
  simp only [List.append_assoc]

theorem syntax_of_readNumber {s t rest : GoString} (hread : readNumber s = some (t, rest)) :
    NumberText t ∧ s = t ++ rest := by
  unfold readNumber at hread
  split at hread
  · exact syntax_of_readUnsigned (Or.inr rfl) hread
  · exact syntax_of_readUnsigned (Or.inl rfl) hread

theorem syntax_of_readString {s t rest : GoString} (hread : readString s = some (t, rest)) :
    StringBody t ∧ s = t ++ '"' :: rest := by
  induction s using readString.induct generalizing t with
  | case1 => simp [readString] at hread
  | case2 s =>
      obtain ⟨ht, hrest⟩ := Prod.mk.inj (Option.some.inj hread)
      subst ht hrest
      exact ⟨StringBody.nil, rfl⟩
  | case3 a b c d s hhex ih =>
      rw [readString, if_pos hhex, Option.map_eq_some_iff] at hread
      obtain ⟨⟨t', rest'⟩, hread, hresult⟩ := hread
      obtain ⟨ht, hrest⟩ := Prod.mk.inj hresult
      dsimp only at ht hrest
      subst ht hrest
      obtain ⟨hbody, hs⟩ := ih hread
      exact ⟨StringBody.unicode hhex.1 hhex.2.1 hhex.2.2.1 hhex.2.2.2 hbody, by simp [hs]⟩
  | case4 a b c d s hhex => simp [readString, hhex] at hread
  | case5 c s _ hescape ih =>
      rw [readString, if_pos hescape, Option.map_eq_some_iff] at hread
      · obtain ⟨⟨t', rest'⟩, hread, hresult⟩ := hread
        obtain ⟨ht, hrest⟩ := Prod.mk.inj hresult
        dsimp only at ht hrest
        subst ht hrest
        obtain ⟨hbody, hs⟩ := ih hread
        exact ⟨StringBody.escape hescape hbody, by simp [hs]⟩
      · assumption
  | case6 c s _ hescape => 
      rw [readString, if_neg hescape] at hread
      · exact absurd hread.symm (Option.some_ne_none _)
      · assumption
  | case7 c s _ _ _ hplain ih =>
      rw [readString, if_pos hplain, Option.map_eq_some_iff] at hread
      · obtain ⟨⟨t', rest'⟩, hread, hresult⟩ := hread
        obtain ⟨ht, hrest⟩ := Prod.mk.inj hresult
        dsimp only at ht hrest
        subst ht hrest
        obtain ⟨hbody, hs⟩ := ih hread
        exact ⟨StringBody.plain hplain hbody, by simp [hs]⟩
      all_goals assumption
  | case8 c s _ _ _ hplain =>
      rw [readString, if_neg hplain] at hread
      · exact absurd hread.symm (Option.some_ne_none _)
      all_goals assumption

/-- What one round of the reader accepts is a text of the grammar. -/
structure Reads (fuel : Nat) : Prop where
  value : ∀ {d : Nat} {v : Value} {s rest : GoString}, readValue fuel d s = some (v, rest) →
    ∃ t, s = t ++ rest ∧ Syntax d (.value v) t
  elements : ∀ {d : Nat} {vs : List Value} {s rest : GoString},
    readElements fuel d s = some (vs, rest) → ∃ t, s = t ++ rest ∧ Syntax d (.elements vs) t
  members : ∀ {d : Nat} {ms : List (GoString × Value)} {s rest : GoString},
    readMembers fuel d s = some (ms, rest) → ∃ t, s = t ++ rest ∧ Syntax d (.members ms) t

theorem syntax_of_readValue {fuel d : Nat} {v : Value} {s rest : GoString} (ih : Reads fuel)
    (hread : readValue (fuel + 1) d s = some (v, rest)) :
    ∃ t, s = t ++ rest ∧ Syntax d (.value v) t := by
  unfold readValue at hread
  split at hread
  · obtain ⟨r, hstring, hresult⟩ := Option.map_eq_some_iff.mp hread
    obtain ⟨hbody, hs⟩ := syntax_of_readString hstring
    obtain ⟨hv, hrest⟩ := Prod.mk.inj hresult
    subst hv hrest
    exact ⟨'"' :: r.1 ++ ['"'], by simp [hs], Syntax.string hbody⟩
  · obtain ⟨hv, hrest⟩ := Prod.mk.inj (Option.some.inj hread)
    subst hv hrest
    exact ⟨"null".toList, rfl, Syntax.null⟩
  · obtain ⟨hv, hrest⟩ := Prod.mk.inj (Option.some.inj hread)
    subst hv hrest
    exact ⟨"true".toList, rfl, Syntax.bool true⟩
  · obtain ⟨hv, hrest⟩ := Prod.mk.inj (Option.some.inj hread)
    subst hv hrest
    exact ⟨"false".toList, rfl, Syntax.bool false⟩
  · split at hread
    · exact absurd hread.symm (Option.some_ne_none _)
    · split at hread
      · rename_i _ _ helements
        obtain ⟨t, hs, ht⟩ := ih.elements helements
        obtain ⟨hv, hrest⟩ := Prod.mk.inj (Option.some.inj hread)
        subst hv hrest
        exact ⟨'[' :: t ++ [']'], by simp [hs], Syntax.array ht⟩
      · exact absurd hread.symm (Option.some_ne_none _)
  · split at hread
    · exact absurd hread.symm (Option.some_ne_none _)
    · split at hread
      · rename_i _ _ hmembers
        obtain ⟨t, hs, ht⟩ := ih.members hmembers
        obtain ⟨hv, hrest⟩ := Prod.mk.inj (Option.some.inj hread)
        subst hv hrest
        exact ⟨'{' :: t ++ ['}'], by simp [hs], Syntax.object ht⟩
      · exact absurd hread.symm (Option.some_ne_none _)
  · obtain ⟨r, hnumber, hresult⟩ := Option.map_eq_some_iff.mp hread
    obtain ⟨htext, hs⟩ := syntax_of_readNumber hnumber
    obtain ⟨hv, hrest⟩ := Prod.mk.inj hresult
    subst hv hrest
    exact ⟨r.1, hs, Syntax.number htext⟩

theorem syntax_of_readElements {fuel d : Nat} {vs : List Value} {s rest : GoString}
    (ih : Reads fuel) (hread : readElements (fuel + 1) d s = some (vs, rest)) :
    ∃ t, s = t ++ rest ∧ Syntax d (.elements vs) t := by
  obtain ⟨w, hw, hs⟩ := ws_skipWs s
  rw [readElements] at hread
  split at hread
  · rename_i hskip
    obtain ⟨hvs, hrest⟩ := Prod.mk.inj (Option.some.inj hread)
    subst hvs hrest
    exact ⟨w, by rw [← hskip, ← hs], Syntax.noElements hw⟩
  · split at hread
    · exact absurd hread.symm (Option.some_ne_none _)
    · rename_i v s₁ hvalue
      obtain ⟨t, ht, hsyntax⟩ := ih.value hvalue
      obtain ⟨w', hw', hs₁⟩ := ws_skipWs s₁
      split at hread
      · rename_i s₂ hskip
        split at hread
        · rename_i v' vs' s₃ helements
          obtain ⟨t', ht', hsyntax'⟩ := ih.elements helements
          obtain ⟨hvs, hrest⟩ := Prod.mk.inj (Option.some.inj hread)
          subst hvs hrest
          refine ⟨w ++ t ++ w' ++ [','] ++ t', ?_,
            Syntax.moreElements hw hsyntax hw' hsyntax' (by simp)⟩
          rw [hs, ht, hs₁, hskip, ht']
          simp
        · exact absurd hread.symm (Option.some_ne_none _)
      · obtain ⟨hvs, hrest⟩ := Prod.mk.inj (Option.some.inj hread)
        subst hvs hrest
        refine ⟨w ++ t ++ w', ?_, Syntax.lastElement hw hsyntax hw'⟩
        rw [List.append_assoc, ← hs₁, List.append_assoc, ← ht, ← hs]

theorem syntax_of_readMembers {fuel d : Nat} {ms : List (GoString × Value)} {s rest : GoString}
    (ih : Reads fuel) (hread : readMembers (fuel + 1) d s = some (ms, rest)) :
    ∃ t, s = t ++ rest ∧ Syntax d (.members ms) t := by
  obtain ⟨w, hw, hs⟩ := ws_skipWs s
  rw [readMembers] at hread
  split at hread
  · rename_i hskip
    obtain ⟨hms, hrest⟩ := Prod.mk.inj (Option.some.inj hread)
    subst hms hrest
    exact ⟨w, by rw [← hskip, ← hs], Syntax.noMembers hw⟩
  · rename_i s₁ hquote
    split at hread
    · exact absurd hread.symm (Option.some_ne_none _)
    · rename_i key s₂ hkey
      obtain ⟨hbody, hs₁⟩ := syntax_of_readString hkey
      obtain ⟨w', hw', hs₂⟩ := ws_skipWs s₂
      split at hread
      · rename_i s₃ hcolon
        obtain ⟨w'', hw'', hs₃⟩ := ws_skipWs s₃
        split at hread
        · exact absurd hread.symm (Option.some_ne_none _)
        · rename_i v s₄ hvalue
          obtain ⟨t, ht, hsyntax⟩ := ih.value hvalue
          obtain ⟨after, hafter, hs₄⟩ := ws_skipWs s₄
          split at hread
          · rename_i s₅ hcomma
            split at hread
            · rename_i m ms' s₆ hmembers
              obtain ⟨t', ht', hsyntax'⟩ := ih.members hmembers
              obtain ⟨hms, hrest⟩ := Prod.mk.inj (Option.some.inj hread)
              subst hms hrest
              refine ⟨_, ?_, Syntax.moreMembers hw hbody hw' hw'' hsyntax hafter hsyntax' (by simp)⟩
              rw [hs, hquote, hs₁, hs₂, hcolon, hs₃, ht, hs₄, hcomma, ht']
              simp
            · exact absurd hread.symm (Option.some_ne_none _)
          · obtain ⟨hms, hrest⟩ := Prod.mk.inj (Option.some.inj hread)
            subst hms hrest
            refine ⟨_, ?_, Syntax.lastMember hw hbody hw' hw'' hsyntax hafter⟩
            have hend : t ++ s₄ = t ++ after ++ skipWs s₄ := by rw [List.append_assoc, ← hs₄]
            rw [hs, hquote, hs₁, hs₂, hcolon, hs₃, ht, hend]
            simp
      · exact absurd hread.symm (Option.some_ne_none _)
  · exact absurd hread.symm (Option.some_ne_none _)

theorem reads (fuel : Nat) : Reads fuel := by
  induction fuel with
  | zero =>
      refine ⟨?_, ?_, ?_⟩
      · intro d v s rest hread
        exact absurd hread.symm (Option.some_ne_none _)
      · intro d vs s rest hread
        exact absurd hread.symm (Option.some_ne_none _)
      · intro d ms s rest hread
        exact absurd hread.symm (Option.some_ne_none _)
  | succ fuel ih =>
      exact ⟨syntax_of_readValue ih, syntax_of_readElements ih, syntax_of_readMembers ih⟩

/-- What the reader accepts is a value with white space around it. -/
theorem syntax_of_readText {s : GoString} {v : Value} (hread : readText s = some v) :
    ∃ w t w', Ws w ∧ Ws w' ∧ s = w ++ t ++ w' ∧ Syntax maxNestingDepth (.value v) t := by
  obtain ⟨w, hw, hs⟩ := ws_skipWs s
  unfold readText at hread
  split at hread
  · rename_i v' rest hvalue
    split_ifs at hread with hend
    obtain ⟨t, ht, hsyntax⟩ := (reads _).value hvalue
    obtain ⟨w', hw', hrest⟩ := ws_skipWs rest
    rw [hend, List.append_nil] at hrest
    have hv : v' = v := Option.some.inj hread
    subst hv
    exact ⟨w, t, w', hw, hw', by rw [List.append_assoc, ← hrest, ← ht, ← hs], hsyntax⟩
  · exact absurd hread.symm (Option.some_ne_none _)

/-! ## What the reader must accept -/

/-- A text after a number: its first byte does not continue the number. -/
def Stops (rest : GoString) : Prop :=
  ∀ c ∈ rest.head?, c.isDigit = false ∧ c ≠ '.' ∧ c ≠ 'e' ∧ c ≠ 'E'

theorem stops_cons {c : Char} {rest : GoString} (hdigit : c.isDigit = false) (hpoint : c ≠ '.')
    (he : c ≠ 'e') (he' : c ≠ 'E') : Stops (c :: rest) := by
  intro d hd
  have hdc : c = d := by simpa using hd
  subst hdc
  exact ⟨hdigit, hpoint, he, he'⟩

theorem stops_ws_append {w rest : GoString} (hw : Ws w) (hrest : Stops rest) :
    Stops (w ++ rest) := by
  cases w with
  | nil => exact hrest
  | cons c w =>
      have hc := hw c List.mem_cons_self
      apply stops_cons
      · by_contra hdigit
        simp only [isSpace, Bool.or_eq_true, decide_eq_true_eq] at hc
        rcases hc with ((hc | hc) | hc) | hc <;>
          · rw [hc] at hdigit
            exact hdigit (by decide)
      all_goals
        intro heq
        rw [heq] at hc
        exact absurd hc (by decide)

/-- White space is skipped up to the first byte that is none. -/
theorem skipWs_append {w s : GoString} (hw : Ws w) (hs : ∀ c ∈ s.head?, isSpace c = false) :
    skipWs (w ++ s) = s := by
  rw [skipWs, List.dropWhile_append_of_pos hw]
  cases s with
  | nil => rfl
  | cons c s => rw [List.dropWhile_cons_of_neg (by simp [hs c (by simp)])]

/-- Digits are read up to the first byte that is none. -/
theorem span_digits {ds rest : GoString} (hds : Digits ds)
    (hrest : ∀ c ∈ rest.head?, c.isDigit = false) :
    (ds ++ rest).takeWhile Char.isDigit = ds ∧ (ds ++ rest).dropWhile Char.isDigit = rest := by
  rw [List.takeWhile_append_of_pos hds, List.dropWhile_append_of_pos hds]
  cases rest with
  | nil => simp
  | cons c rest =>
      have hc : ¬c.isDigit = true := by simp [hrest c (by simp)]
      rw [List.takeWhile_cons_of_neg hc, List.dropWhile_cons_of_neg hc, List.append_nil]
      exact ⟨rfl, rfl⟩

theorem readInt_append {int rest : GoString} (hint : IntPart int)
    (hrest : ∀ c ∈ rest.head?, c.isDigit = false) : readInt (int ++ rest) = some (int, rest) := by
  cases hint with
  | zero => rfl
  | digits hc hne hs =>
      obtain ⟨htake, hdrop⟩ := span_digits hs hrest
      rw [List.cons_append, readInt, if_neg hne, if_pos hc, htake, hdrop]

theorem readFrac_append {frac rest : GoString} (hfrac : FracPart frac)
    (hrest : ∀ c ∈ rest.head?, c.isDigit = false ∧ c ≠ '.') :
    readFrac (frac ++ rest) = some (frac, rest) := by
  cases hfrac with
  | none =>
      rw [List.nil_append]
      unfold readFrac
      split
      · exact absurd rfl (hrest '.' (by simp)).2
      · rfl
  | digits hne hs =>
      obtain ⟨htake, hdrop⟩ := span_digits hs fun c hc => (hrest c hc).1
      rw [List.cons_append, readFrac, htake, hdrop, if_neg hne]

theorem readSign_append {sign s : GoString} (hsign : sign = [] ∨ sign = ['+'] ∨ sign = ['-'])
    (hs : ∀ c ∈ s.head?, c.isDigit = true) : readSign (sign ++ s) = (sign, s) := by
  rcases hsign with rfl | rfl | rfl
  · rw [List.nil_append]
    unfold readSign
    split
    · exact absurd (hs '+' (by simp)) (by decide)
    · exact absurd (hs '-' (by simp)) (by decide)
    · rfl
  · rfl
  · rfl

theorem readExp_append {exp rest : GoString} (hexp : ExpPart exp) (hrest : Stops rest) :
    readExp (exp ++ rest) = some (exp, rest) := by
  cases hexp with
  | none =>
      cases rest with
      | nil => rfl
      | cons c rest =>
          have hc := hrest c (by simp)
          rw [List.nil_append, readExp, if_neg]
          intro he
          rcases he with he | he
          · exact hc.2.2.1 he
          · exact hc.2.2.2 he
  | @digits e sign s he hsign hne hs =>
      obtain ⟨htake, hdrop⟩ := span_digits hs fun c hc => (hrest c hc).1
      have hhead : ∀ c ∈ (s ++ rest).head?, c.isDigit = true := by
        intro c hc
        obtain ⟨d, s', rfl⟩ := List.exists_cons_of_ne_nil hne
        have hdc : d = c := by simpa using hc
        exact hdc ▸ hs d List.mem_cons_self
      rw [List.append_assoc, List.cons_append, readExp, if_pos he, readSign_append hsign hhead,
        htake, hdrop, if_neg hne]

/-- A number is read to its end. -/
theorem readNumber_append {t rest : GoString} (ht : NumberText t) (hrest : Stops rest) :
    readNumber (t ++ rest) = some (t, rest) := by
  obtain ⟨hsign, hint, hfrac, hexp⟩ := ht
  rename_i sign int frac exp
  have hafterFrac : ∀ c ∈ (exp ++ rest).head?, c.isDigit = false ∧ c ≠ '.' := by
    intro c hc
    cases hexp with
    | none => exact ⟨(hrest c hc).1, (hrest c hc).2.1⟩
    | @digits e _ _ he _ _ _ =>
        have hce : e = c := by simpa using hc
        subst hce
        rcases he with rfl | rfl <;> exact ⟨by decide, by decide⟩
  have hafterInt : ∀ c ∈ (frac ++ (exp ++ rest)).head?, c.isDigit = false := by
    intro c hc
    cases hfrac with
    | none => exact (hafterFrac c hc).1
    | digits _ _ =>
        have hcp : '.' = c := by simpa using hc
        subst hcp
        decide
  have hunsigned : readUnsigned sign (int ++ (frac ++ (exp ++ rest))) =
      some (sign ++ int ++ frac ++ exp, rest) := by
    unfold readUnsigned
    rw [readInt_append hint hafterInt]
    simp only [Option.bind_eq_bind, Option.bind_some]
    rw [readFrac_append hfrac hafterFrac]
    simp only [Option.bind_some]
    rw [readExp_append hexp hrest]
    rfl
  rw [List.append_assoc, List.append_assoc, List.append_assoc]
  rcases hsign with rfl | rfl
  · simp only [List.nil_append] at hunsigned ⊢
    rw [← hunsigned]
    unfold readNumber
    split
    · -- The integer part does not begin with a sign.
      rename_i hminus
      cases hint with
      | zero => simp at hminus
      | digits hc _ _ =>
          have hcm := (List.cons.inj hminus).1
          rw [hcm] at hc
          exact absurd hc (by decide)
    · rfl
  · exact hunsigned

/-- A string is read to its closing quote. -/
theorem readString_append {b rest : GoString} (hb : StringBody b) :
    readString (b ++ '"' :: rest) = some (b, rest) := by
  induction hb with
  | nil => rfl
  | @plain c s hc _ ih =>
      have hquote : c ≠ '"' := by
        intro h
        rw [h] at hc
        exact absurd hc (by decide)
      have hback : c ≠ '\\' := by
        intro h
        rw [h] at hc
        exact absurd hc (by decide)
      rw [List.cons_append, readString, if_pos hc, ih, Option.map_some]
      all_goals simp [hquote, hback]
  | @escape c s hc _ ih =>
      have hu : c ≠ 'u' := by
        intro h
        rw [h] at hc
        exact absurd hc (by decide)
      rw [List.cons_append, List.cons_append, readString, if_pos hc, ih, Option.map_some]
      simp [hu]
  | unicode ha hb hc hd _ ih =>
      simp only [List.cons_append]
      rw [readString, if_pos ⟨ha, hb, hc, hd⟩, ih, Option.map_some]

/-- The bytes that begin the values other than numbers. -/
def keywords : List Char :=
  ['"', 'n', 't', 'f', '[', '{']

/-- A text that begins like no other value is read as a number. -/
theorem readValue_number {fuel d : Nat} {c : Char} {s : GoString} (hc : c ∉ keywords) :
    readValue (fuel + 1) d (c :: s) =
      (readNumber (c :: s)).map fun r => (Value.number r.1, r.2) := by
  have hne : ∀ k ∈ keywords, c ≠ k := fun k hk h => hc (h ▸ hk)
  simp only [keywords, List.mem_cons, List.not_mem_nil, or_false, forall_eq_or_imp,
    forall_eq] at hne
  obtain ⟨hquote, hn, ht, hf, hbracket, hbrace⟩ := hne
  unfold readValue
  split <;> simp_all

/-- A number begins with a sign or a digit. -/
theorem head_of_number {t : GoString} (ht : NumberText t) :
    ∃ c s, t = c :: s ∧ (c = '-' ∨ c.isDigit = true) := by
  obtain ⟨hsign, hint, _, _⟩ := ht
  rcases hsign with rfl | rfl
  · cases hint with
    | zero => exact ⟨'0', _, rfl, Or.inr (by decide)⟩
    | digits hc _ _ => exact ⟨_, _, rfl, Or.inr hc⟩
  · exact ⟨'-', _, rfl, Or.inl rfl⟩

/-- A value begins with a byte that is neither white space nor a closing bracket. -/
theorem head_of_value {d : Nat} {v : Value} {t : GoString} (ht : Syntax d (.value v) t) :
    ∃ c s, t = c :: s ∧ isSpace c = false ∧ c ≠ ']' := by
  cases ht with
  | null => exact ⟨'n', _, rfl, by decide, by decide⟩
  | bool b =>
      cases b with
      | true => exact ⟨'t', _, rfl, by decide, by decide⟩
      | false => exact ⟨'f', _, rfl, by decide, by decide⟩
  | number hs =>
      obtain ⟨c, s, rfl, hc⟩ := head_of_number hs
      refine ⟨c, s, rfl, ?_, ?_⟩
      · by_contra hspace
        simp only [isSpace, Bool.not_eq_false, Bool.or_eq_true, decide_eq_true_eq] at hspace
        rcases hspace with ((h | h) | h) | h <;>
          · subst h
            exact absurd hc (by decide)
      · intro h
        subst h
        exact absurd hc (by decide)
  | string _ => exact ⟨'"', _, rfl, by decide, by decide⟩
  | array _ => exact ⟨'[', _, rfl, by decide, by decide⟩
  | object _ => exact ⟨'{', _, rfl, by decide, by decide⟩

/-- What the reader makes of a text of a form, given enough fuel and a text after it at
which the form ends. -/
def Accepts (d : Nat) (t : GoString) : Form → Prop
  | .value v => ∀ fuel rest, 2 * t.length ≤ fuel → Stops rest →
      readValue fuel d (t ++ rest) = some (v, rest)
  | .elements vs => ∀ fuel rest, 2 * t.length + 1 ≤ fuel →
      readElements fuel d (t ++ ']' :: rest) = some (vs, ']' :: rest)
  | .members ms => ∀ fuel rest, 2 * t.length + 1 ≤ fuel →
      readMembers fuel d (t ++ '}' :: rest) = some (ms, '}' :: rest)

theorem stops_bracket (rest : GoString) : Stops (']' :: rest) :=
  stops_cons (by decide) (by decide) (by decide) (by decide)

theorem stops_brace (rest : GoString) : Stops ('}' :: rest) :=
  stops_cons (by decide) (by decide) (by decide) (by decide)

theorem stops_comma (rest : GoString) : Stops (',' :: rest) :=
  stops_cons (by decide) (by decide) (by decide) (by decide)

/-- The reader skips the white space before a value. -/
theorem skipWs_value {d : Nat} {v : Value} {w t rest : GoString} (hw : Ws w)
    (ht : Syntax d (.value v) t) : skipWs (w ++ (t ++ rest)) = t ++ rest := by
  obtain ⟨c, s, rfl, hspace, -⟩ := head_of_value ht
  refine skipWs_append hw ?_
  intro c' hc'
  have hcc : c = c' := by simpa using hc'
  exact hcc ▸ hspace

theorem skipWs_cons {w rest : GoString} {c : Char} (hw : Ws w) (hc : isSpace c = false) :
    skipWs (w ++ c :: rest) = c :: rest := by
  refine skipWs_append hw ?_
  intro c' hc'
  have hcc : c = c' := by simpa using hc'
  exact hcc ▸ hc

/-- One step of the element reader at a value. -/
theorem readElements_step {fuel d : Nat} {v : Value} {w t s : GoString} (hw : Ws w)
    (ht : Syntax d (.value v) t) (hvalue : readValue fuel d (t ++ s) = some (v, s)) :
    readElements (fuel + 1) d (w ++ (t ++ s)) =
      match skipWs s with
      | ',' :: s =>
          match readElements fuel d s with
          | some (v' :: vs, s) => some (v :: v' :: vs, s)
          | _ => none
      | s => some ([v], s) := by
  have hskip : skipWs (w ++ (t ++ s)) = t ++ s := skipWs_value hw ht
  obtain ⟨c, t', ht', -, hbracket⟩ := head_of_value ht
  have hcons : t ++ s = c :: (t' ++ s) := by rw [ht', List.cons_append]
  rw [readElements, hskip, hcons]
  rw [hcons] at hvalue
  split
  · rename_i heq
    exact absurd (List.cons.inj heq).1 hbracket
  · rw [hvalue]

/-- The reader accepts every text of the grammar. -/
theorem accepts_of_syntax {d : Nat} {form : Form} {t : GoString} (ht : Syntax d form t) :
    Accepts d t form := by
  induction ht with
  | null =>
      intro fuel rest hfuel _
      obtain ⟨fuel, rfl⟩ : ∃ n, fuel = n + 1 := ⟨fuel - 1, by simp at hfuel; omega⟩
      rfl
  | bool b =>
      intro fuel rest hfuel _
      obtain ⟨fuel, rfl⟩ : ∃ n, fuel = n + 1 :=
        ⟨fuel - 1, by cases b <;> simp at hfuel <;> omega⟩
      cases b with
      | true => rfl
      | false => rfl
  | number hs =>
      intro fuel rest hfuel hrest
      obtain ⟨c, s, rfl, hc⟩ := head_of_number hs
      obtain ⟨fuel, rfl⟩ : ∃ n, fuel = n + 1 := ⟨fuel - 1, by simp at hfuel; omega⟩
      have hkey : c ∉ keywords := by
        intro hmem
        simp only [keywords, List.mem_cons, List.not_mem_nil, or_false] at hmem
        rcases hmem with h | h | h | h | h | h <;>
          · subst h
            exact absurd hc (by decide)
      rw [List.cons_append, readValue_number hkey, ← List.cons_append,
        readNumber_append hs hrest]
      rfl
  | string hs =>
      intro fuel rest hfuel _
      obtain ⟨fuel, rfl⟩ : ∃ n, fuel = n + 1 := ⟨fuel - 1, by simp at hfuel; omega⟩
      rw [List.cons_append, List.cons_append, List.append_assoc, List.singleton_append]
      unfold readValue
      simp only [readString_append hs]
      rfl
  | array _ ih =>
      intro fuel rest hfuel _
      obtain ⟨fuel, rfl⟩ : ∃ n, fuel = n + 1 := ⟨fuel - 1, by simp at hfuel; omega⟩
      rw [List.cons_append, List.cons_append, List.append_assoc, List.singleton_append]
      unfold readValue
      simp only [ih fuel rest (by simp at hfuel; omega)]
  | object _ ih =>
      intro fuel rest hfuel _
      obtain ⟨fuel, rfl⟩ : ∃ n, fuel = n + 1 := ⟨fuel - 1, by simp at hfuel; omega⟩
      rw [List.cons_append, List.cons_append, List.append_assoc, List.singleton_append]
      unfold readValue
      simp only [ih fuel rest (by simp at hfuel; omega)]
  | noElements hw =>
      intro fuel rest hfuel
      obtain ⟨fuel, rfl⟩ : ∃ n, fuel = n + 1 := ⟨fuel - 1, by omega⟩
      rw [readElements, skipWs_cons hw (by decide)]
      rfl
  | @lastElement d v w s w' hw hs hw' ih =>
      intro fuel rest hfuel
      obtain ⟨fuel, rfl⟩ : ∃ n, fuel = n + 1 := ⟨fuel - 1, by omega⟩
      have hvalue := ih fuel (w' ++ ']' :: rest) (by simp at hfuel; omega)
        (stops_ws_append hw' (stops_bracket rest))
      rw [List.append_assoc, List.append_assoc, readElements_step hw hs hvalue,
        skipWs_cons hw' (by decide)]
      rfl
  | @moreElements d v vs w s w' more hw hs hw' hmore hne ih ihmore =>
      intro fuel rest hfuel
      obtain ⟨fuel, rfl⟩ : ∃ n, fuel = n + 1 := ⟨fuel - 1, by omega⟩
      have hvalue := ih fuel (w' ++ ',' :: (more ++ ']' :: rest)) (by simp at hfuel; omega)
        (stops_ws_append hw' (stops_comma _))
      have hrest := ihmore fuel rest (by simp at hfuel; omega)
      have hassoc : w ++ s ++ w' ++ [','] ++ more ++ ']' :: rest =
          w ++ (s ++ (w' ++ ',' :: (more ++ ']' :: rest))) := by simp
      obtain ⟨v', vs', rfl⟩ := List.exists_cons_of_ne_nil hne
      rw [hassoc, readElements_step hw hs hvalue, skipWs_cons hw' (by decide)]
      simp only [hrest]
  | noMembers hw =>
      intro fuel rest hfuel
      obtain ⟨fuel, rfl⟩ : ∃ n, fuel = n + 1 := ⟨fuel - 1, by omega⟩
      rw [readMembers, skipWs_cons hw (by decide)]
      rfl
  | @lastMember d k v w w' w'' s after hw hk hw' hw'' hs hafter ih =>
      intro fuel rest hfuel
      obtain ⟨fuel, rfl⟩ : ∃ n, fuel = n + 1 := ⟨fuel - 1, by omega⟩
      have hvalue := ih fuel (after ++ '}' :: rest) (by simp at hfuel; omega)
        (stops_ws_append hafter (stops_brace rest))
      have hassoc : w ++ ('"' :: k ++ ['"']) ++ w' ++ [':'] ++ w'' ++ s ++ after ++ '}' :: rest =
          w ++ '"' :: (k ++ '"' :: (w' ++ ':' :: (w'' ++ (s ++ (after ++ '}' :: rest))))) := by
        simp
      rw [hassoc, readMembers, skipWs_cons hw (by decide)]
      simp only [readString_append hk, skipWs_cons hw' (show isSpace ':' = false by decide),
        skipWs_value hw'' hs, hvalue, skipWs_cons hafter (show isSpace '}' = false by decide)]
      rfl
  | @moreMembers d k v ms w w' w'' s after more hw hk hw' hw'' hs hafter hmore hne ih ihmore =>
      intro fuel rest hfuel
      obtain ⟨fuel, rfl⟩ : ∃ n, fuel = n + 1 := ⟨fuel - 1, by omega⟩
      have hvalue := ih fuel (after ++ ',' :: (more ++ '}' :: rest)) (by simp at hfuel; omega)
        (stops_ws_append hafter (stops_comma _))
      have hrest := ihmore fuel rest (by simp at hfuel; omega)
      have hassoc : w ++ ('"' :: k ++ ['"']) ++ w' ++ [':'] ++ w'' ++ s ++ after ++ [','] ++ more ++
            '}' :: rest =
          w ++ '"' :: (k ++ '"' :: (w' ++ ':' :: (w'' ++ (s ++
            (after ++ ',' :: (more ++ '}' :: rest)))))) := by
        simp
      obtain ⟨m, ms', rfl⟩ := List.exists_cons_of_ne_nil hne
      rw [hassoc, readMembers, skipWs_cons hw (by decide)]
      simp only [readString_append hk, skipWs_cons hw' (show isSpace ':' = false by decide),
        skipWs_value hw'' hs, hvalue, skipWs_cons hafter (show isSpace ',' = false by decide),
        hrest]

/-- The reader accepts exactly the values with white space around them. -/
theorem readText_eq_some_iff {s : GoString} {v : Value} :
    readText s = some v ↔
      ∃ w t w', Ws w ∧ Ws w' ∧ s = w ++ t ++ w' ∧ Syntax maxNestingDepth (.value v) t := by
  constructor
  · exact syntax_of_readText
  · intro h
    obtain ⟨w, t, w', hw, hw', rfl, ht⟩ := h
    have hstops : Stops w' := by simpa using stops_ws_append hw' (show Stops [] by simp [Stops])
    have hvalue := accepts_of_syntax ht (2 * (w ++ t ++ w').length + 2) w'
      (by simp only [List.length_append]; omega) hstops
    have hend : skipWs w' = [] := List.dropWhile_eq_nil_iff.mpr hw'
    rw [readText, List.append_assoc, skipWs_value hw ht, ← List.append_assoc, hvalue]
    simp only [hend, if_true]

end Json

end Go
end Veilence

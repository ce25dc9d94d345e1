import Veilence.Foundation.Nesting
import Veilence.Go.Json

/-!
# Extracting a JSON object

{lit}`extractJSONObject` scans a text from its first opening brace with a depth and two
flags for string literals.  {lit}`Outside` says without the flags which characters of a
text are outside its string literals, and {lit}`Balanced` that the braces among them are
nested.

Main results:

- Theorem {lit}`scan_eq_some_iff`: the scan ends at the shortest balanced prefix.
- Theorem {lit}`balanced_of_object`: a JSON object is balanced, and none of its shorter
  prefixes is.
- Theorem {lit}`extractJSONObject_object`: both for {lit}`extractJSONObject`.
-/

namespace Veilence
namespace Llm

open Go Foundation

/-! ## The scanner -/

/-- The loop of {lit}`extractJSONObject`: the bytes up to the brace that closes the first
one. -/
def scan (depth : Int) (inString escaped : Bool) : GoString → Option GoString
  | [] => none
  | ch :: rest =>
      if escaped then (scan depth inString false rest).map (ch :: ·)
      else if ch = '\\' ∧ inString = true then (scan depth inString true rest).map (ch :: ·)
      else if ch = '"' then (scan depth (!inString) false rest).map (ch :: ·)
      else if inString then (scan depth inString false rest).map (ch :: ·)
      else if ch = '{' then (scan (depth + 1) inString false rest).map (ch :: ·)
      else if ch = '}' then
        if depth - 1 = 0 then some [ch]
        else (scan (depth - 1) inString false rest).map (ch :: ·)
      else (scan depth inString false rest).map (ch :: ·)

/-- {lit}`extractJSONObject`. -/
def extractJSONObject (text : GoString) : Option GoString :=
  if '{' ∈ text then scan 0 false false (text.dropWhile (· ≠ '{')) else none

/-! ## Braces outside string literals -/

/-- The bytes between the quotes of a literal: a backslash is followed by any byte. -/
inductive Quoted : GoString → Prop where
  | nil : Quoted []
  | char {c : Char} {b : GoString} (hquote : c ≠ '"') (hback : c ≠ '\\') (hb : Quoted b) :
      Quoted (c :: b)
  | escape {c : Char} {b : GoString} (hb : Quoted b) : Quoted ('\\' :: c :: b)

/-- `Outside t u`: the text `t` has only whole string literals, and `u` is what is left of
it without them. -/
inductive Outside : GoString → GoString → Prop where
  | nil : Outside [] []
  | char {c : Char} {t u : GoString} (hc : c ≠ '"') (ht : Outside t u) :
      Outside (c :: t) (c :: u)
  | literal {b t u : GoString} (hb : Quoted b) (ht : Outside t u) :
      Outside ('"' :: b ++ '"' :: t) u

/-- The weight of a byte in the nesting of braces. -/
def brace (c : Char) : Int :=
  if c = '{' then 1 else if c = '}' then -1 else 0

/-- The braces outside the string literals of the text are nested. -/
def Balanced (t : GoString) : Prop :=
  ∃ u, Outside t u ∧ Neutral brace u

theorem Outside.append {t u t' u' : GoString} (h : Outside t u) (h' : Outside t' u') :
    Outside (t ++ t') (u ++ u') := by
  induction h with
  | nil => exact h'
  | char hc _ ih => exact ih.char hc
  | literal hb _ ih =>
      have hlit := ih.literal hb
      simpa using hlit

theorem Balanced.append {t t' : GoString} (h : Balanced t) (h' : Balanced t') :
    Balanced (t ++ t') := by
  obtain ⟨u, hu, hneutral⟩ := h
  obtain ⟨u', hu', hneutral'⟩ := h'
  exact ⟨u ++ u', hu.append hu', hneutral.append hneutral'⟩

/-- A text without quotes and braces. -/
theorem balanced_of_plain {t : GoString} (ht : ∀ c ∈ t, c ≠ '"' ∧ c ≠ '{' ∧ c ≠ '}') :
    Balanced t := by
  refine ⟨t, ?_, Neutral.of_weightless fun c hc => ?_⟩
  · induction t with
    | nil => exact Outside.nil
    | cons c t ih =>
        exact (ih fun d hd => ht d (List.mem_cons_of_mem c hd)).char (ht c List.mem_cons_self).1
  · simp [brace, (ht c hc).2.1, (ht c hc).2.2]

/-- A string literal. -/
theorem balanced_of_quoted {b : GoString} (hb : Quoted b) : Balanced ('"' :: b ++ ['"']) :=
  ⟨[], Outside.nil.literal hb, Neutral.nil⟩

/-! ## The scan of a text -/

section

attribute [local simp] scan

/-- A byte outside the literals that is no brace. -/
theorem scan_other {c : Char} {rest : GoString} {depth : Int} (hquote : c ≠ '"')
    (hopen : c ≠ '{') (hclose : c ≠ '}') :
    scan depth false false (c :: rest) = (scan depth false false rest).map (c :: ·) := by
  simp [scan, hquote, hopen, hclose]

theorem scan_open {rest : GoString} {depth : Int} :
    scan depth false false ('{' :: rest) =
      (scan (depth + 1) false false rest).map ('{' :: ·) := by
  simp [scan]

theorem scan_close {rest : GoString} {depth : Int} :
    scan depth false false ('}' :: rest) =
      if depth - 1 = 0 then some ['}']
      else (scan (depth - 1) false false rest).map ('}' :: ·) := by
  simp [scan]

/-- Inside a literal the scan runs to the closing quote. -/
theorem scan_quoted {b rest : GoString} {depth : Int} (hb : Quoted b) :
    scan depth true false (b ++ '"' :: rest) =
      (scan depth false false rest).map (b ++ '"' :: ·) := by
  induction hb with
  | nil => simp [scan]
  | char hquote hback _ ih =>
      rw [List.cons_append, scan]
      simp only [Bool.false_eq_true, if_false, hback, hquote, false_and, if_true, ih,
        Option.map_map]
      rfl
  | escape _ ih =>
      rw [List.cons_append, List.cons_append, scan]
      simp only [Bool.false_eq_true, if_false, and_self, if_true]
      rw [scan]
      simp only [if_true, ih, Option.map_map]
      rfl

end

/-- A scan inside a literal that ends has passed the closing quote. -/
theorem exists_quoted_of_scan {depth : Int} {s t : GoString}
    (hscan : scan depth true false s = some t) :
    ∃ b rest t', Quoted b ∧ s = b ++ '"' :: rest ∧ t = b ++ '"' :: t' ∧
      scan depth false false rest = some t' := by
  -- By induction on the length: an escaped byte is passed together with its backslash.
  induction hlength : s.length using Nat.strong_induction_on generalizing s t with
  | _ n ih =>
      subst hlength
      cases s with
      | nil => simp [scan] at hscan
      | cons c rest =>
          by_cases hback : c = '\\'
          · subst hback
            rw [scan] at hscan
            simp only [Bool.false_eq_true, if_false, and_self, if_true,
              Option.map_eq_some_iff] at hscan
            obtain ⟨t₁, hscan, ht⟩ := hscan
            cases rest with
            | nil => simp [scan] at hscan
            | cons d rest =>
                rw [scan] at hscan
                simp only [if_true, Option.map_eq_some_iff] at hscan
                obtain ⟨t₂, hscan, ht₁⟩ := hscan
                obtain ⟨b, after, t', hb, hrest, ht₂, hafter⟩ := ih rest.length (by simp) hscan rfl
                refine ⟨'\\' :: d :: b, after, t', hb.escape, ?_, ?_, hafter⟩
                · rw [hrest]
                  rfl
                · rw [← ht, ← ht₁, ht₂]
                  rfl
          · by_cases hquote : c = '"'
            · subst hquote
              rw [scan] at hscan
              simp only [Bool.false_eq_true, if_false, hback, false_and, if_true, Bool.not_true,
                Option.map_eq_some_iff] at hscan
              obtain ⟨t', hafter, ht⟩ := hscan
              exact ⟨[], rest, t', Quoted.nil, rfl, ht.symm, hafter⟩
            · rw [scan] at hscan
              simp only [Bool.false_eq_true, if_false, hback, hquote, false_and, if_true,
                Option.map_eq_some_iff] at hscan
              obtain ⟨t₁, hscan, ht⟩ := hscan
              obtain ⟨b, after, t', hb, hrest, ht₁, hafter⟩ := ih rest.length (by simp) hscan rfl
              refine ⟨c :: b, after, t', hb.char hquote hback, ?_, ?_, hafter⟩
              · rw [hrest]
                rfl
              · rw [← ht, ht₁]
                rfl

theorem height_brace_cons {c : Char} {u : GoString} :
    height brace (c :: u) = brace c + height brace u :=
  height_cons c u

/-- A scan that ends stops at the closing brace where the depth is one, and the depth
was positive all the way. -/
theorem outside_of_scan {depth : Int} {s t : GoString} (hdepth : 1 ≤ depth)
    (hscan : scan depth false false s = some t) :
    ∃ inner u, t = inner ++ ['}'] ∧ t <+: s ∧ Outside inner u ∧
      depth + height brace u = 1 ∧ ∀ v, v <+: u → 1 ≤ depth + height brace v := by
  induction hlength : s.length using Nat.strong_induction_on generalizing s t depth with
  | _ n ih =>
      subst hlength
      cases s with
      | nil => simp [scan] at hscan
      | cons c rest =>
          -- One byte outside the literals.
          have hbyte : ∀ depth' t', c ≠ '"' → depth' = depth + brace c → 1 ≤ depth' →
              scan depth' false false rest = some t' → t = c :: t' →
              ∃ inner u, t = inner ++ ['}'] ∧ t <+: c :: rest ∧ Outside inner u ∧
                depth + height brace u = 1 ∧ ∀ v, v <+: u → 1 ≤ depth + height brace v := by
            intro depth' t' hquote hdepth' hpos hscan' ht
            obtain ⟨inner, u, ht', hinit, houtside, htotal, hinside⟩ :=
              ih rest.length (by simp) hpos hscan' rfl
            refine ⟨c :: inner, c :: u, ?_, ?_, houtside.char hquote, ?_, ?_⟩
            · rw [ht, ht', List.cons_append]
            · rw [ht]
              exact (List.prefix_cons_inj c).mpr hinit
            · rw [height_brace_cons]
              omega
            · intro v hv
              rcases List.prefix_cons_iff.mp hv with hnil | ⟨v', hv', hvu⟩
              · rw [hnil, height_nil]
                omega
              · have := hinside v' hvu
                rw [hv', height_brace_cons]
                omega
          by_cases hquote : c = '"'
          · subst hquote
            rw [scan] at hscan
            simp only [Bool.false_eq_true, if_false, and_false, if_true, Bool.not_false,
              Option.map_eq_some_iff] at hscan
            obtain ⟨t₁, hscan, ht⟩ := hscan
            obtain ⟨b, after, t', hb, hrest, ht₁, hafter⟩ := exists_quoted_of_scan hscan
            obtain ⟨inner, u, ht', hinit, houtside, htotal, hinside⟩ :=
              ih after.length (by rw [hrest]; simp only [List.length_cons, List.length_append]; omega)
                hdepth hafter rfl
            refine ⟨'"' :: b ++ '"' :: inner, u, ?_, ?_, houtside.literal hb, htotal, hinside⟩
            · rw [← ht, ht₁, ht']
              simp
            · rw [← ht, ht₁, hrest]
              simpa using hinit
          · by_cases hopen : c = '{'
            · subst hopen
              rw [scan_open, Option.map_eq_some_iff] at hscan
              obtain ⟨t', hscan, ht⟩ := hscan
              exact hbyte (depth + 1) t' hquote rfl (by omega) hscan ht.symm
            · by_cases hclose : c = '}'
              · subst hclose
                rw [scan_close] at hscan
                split_ifs at hscan with hzero
                · have ht : t = ['}'] := by simpa using hscan.symm
                  refine ⟨[], [], ht, ?_, Outside.nil, ?_, ?_⟩
                  · rw [ht]
                    exact ⟨rest, rfl⟩
                  · rw [height_nil]
                    omega
                  · intro v hv
                    rw [List.prefix_nil.mp hv, height_nil]
                    omega
                · rw [Option.map_eq_some_iff] at hscan
                  obtain ⟨t', hscan, ht⟩ := hscan
                  exact hbyte (depth - 1) t' hquote rfl (by omega) hscan ht.symm
              · rw [scan_other hquote hopen hclose, Option.map_eq_some_iff] at hscan
                obtain ⟨t', hscan, ht⟩ := hscan
                have hweight : brace c = 0 := by simp [brace, hopen, hclose]
                exact hbyte depth t' hquote (by omega) hdepth hscan ht.symm

/-- The scan of a text in which the depth falls to zero ends. -/
theorem scan_ne_none {depth : Int} {t u : GoString} (houtside : Outside t u)
    (hdepth : 1 ≤ depth) (htotal : depth + height brace u = 0) (rest : GoString) :
    scan depth false false (t ++ rest) ≠ none := by
  induction houtside generalizing depth with
  | nil =>
      rw [height_nil] at htotal
      omega
  | @char c t u hc _ ih =>
      rw [height_brace_cons] at htotal
      rw [List.cons_append]
      by_cases hopen : c = '{'
      · subst hopen
        have hweight : brace '{' = 1 := rfl
        rw [scan_open]
        simpa using ih (by omega) (by omega)
      · by_cases hclose : c = '}'
        · subst hclose
          have hweight : brace '}' = -1 := rfl
          rw [scan_close]
          split_ifs with hzero
          · exact Option.some_ne_none _
          · simpa using ih (by omega) (by omega)
        · have hweight : brace c = 0 := by simp [brace, hopen, hclose]
          rw [scan_other hc hopen hclose]
          simpa using ih hdepth (by omega)
  | @literal b t u hb _ ih =>
      have hstep : scan depth false false ('"' :: b ++ '"' :: t ++ rest) =
          (scan depth true false (b ++ '"' :: (t ++ rest))).map ('"' :: ·) := by
        simp [scan]
      rw [hstep, scan_quoted hb]
      simpa using ih hdepth htotal

/-! ## Shortest balanced prefixes -/

/-- A literal ends at its first quote that is not escaped. -/
theorem Quoted.unique {b b' x y : GoString} (hb : Quoted b) (hb' : Quoted b')
    (heq : b ++ '"' :: x = b' ++ '"' :: y) : b = b' ∧ x = y := by
  induction hb generalizing b' with
  | nil =>
      cases hb' with
      | nil => simpa using heq
      | char hquote _ _ =>
          simp only [List.nil_append, List.cons_append, List.cons.injEq] at heq
          exact absurd heq.1.symm hquote
      | escape _ => simp at heq
  | char hquote hback _ ih =>
      cases hb' with
      | nil =>
          simp only [List.nil_append, List.cons_append, List.cons.injEq] at heq
          exact absurd heq.1 hquote
      | char _ _ hb' =>
          simp only [List.cons_append, List.cons.injEq] at heq
          obtain ⟨hbody, hrest⟩ := ih hb' heq.2
          exact ⟨by rw [heq.1, hbody], hrest⟩
      | escape _ =>
          simp only [List.cons_append, List.cons.injEq] at heq
          exact absurd heq.1 hback
  | escape _ ih =>
      cases hb' with
      | nil => simp at heq
      | char _ hback _ =>
          simp only [List.cons_append, List.cons.injEq] at heq
          exact absurd heq.1.symm hback
      | escape hb' =>
          simp only [List.cons_append, List.cons.injEq, true_and] at heq
          obtain ⟨hbody, hrest⟩ := ih hb' heq.2
          exact ⟨by rw [heq.1, hbody], hrest⟩

/-- What is outside the literals of a prefix is a prefix of what is outside the literals
of the text. -/
theorem Outside.of_prefix {t u t' u' : GoString} (h : Outside t u) (h' : Outside t' u')
    (hinit : t' <+: t) : u' <+: u := by
  induction h' generalizing t u with
  | nil => exact List.nil_prefix
  | @char c t' u' hc _ ih =>
      cases h with
      | nil => simp at hinit
      | char _ ht =>
          obtain ⟨hcc, hrest⟩ := List.cons_prefix_cons.mp hinit
          rw [hcc]
          exact (List.prefix_cons_inj _).mpr (ih ht hrest)
      | literal _ _ => exact absurd (List.cons_prefix_cons.mp hinit).1 hc
  | @literal b t' u' hb _ ih =>
      cases h with
      | nil => simp at hinit
      | char hc _ => exact absurd (List.cons_prefix_cons.mp hinit).1.symm hc
      | @literal b₂ t₂ _ hb₂ ht =>
          obtain ⟨r, hr⟩ := (List.cons_prefix_cons.mp hinit).2
          have hr' : b ++ '"' :: (t' ++ r) = b₂ ++ '"' :: t₂ := by
            rw [← List.cons_append, ← List.append_assoc]
            exact hr
          obtain ⟨-, hrest⟩ := hb.unique hb₂ hr'
          exact ih ht ⟨r, hrest⟩

/-- Inside the first brace and its closing one no prefix is balanced. -/
theorem not_balanced_of_prefix {inner u t : GoString} (houtside : Outside inner u)
    (hnonneg : ∀ v, v <+: u → 0 ≤ height brace v) (hinit : t <+: '{' :: inner)
    (hne : t ≠ []) : ¬Balanced t := by
  intro hbalanced
  obtain ⟨u', hu', hneutral⟩ := hbalanced
  have hopen : Outside ('{' :: inner) ('{' :: u) := houtside.char (by decide)
  have hin := hopen.of_prefix hu' hinit
  have hne' : u' ≠ [] := by
    intro hnil
    subst hnil
    -- A text of literals only does not begin with a brace.
    rcases List.prefix_cons_iff.mp hinit with ht | ⟨s, ht, -⟩
    · exact hne ht
    · rw [ht] at hu'
      cases hu'
  have hpos := one_le_height_of_prefix (w := brace) rfl hnonneg hin hne'
  rw [hneutral.total] at hpos
  omega

/-- The scan from a brace ends at the shortest balanced prefix. -/
theorem scan_eq_some_iff {rest t : GoString} :
    scan 0 false false ('{' :: rest) = some t ↔
      (t <+: '{' :: rest ∧ t ≠ [] ∧ Balanced t) ∧
        ∀ t', t' <+: '{' :: rest → t' ≠ [] → Balanced t' → t.length ≤ t'.length := by
  -- What the scan returns is balanced, and no shorter prefix is.
  have hsound : ∀ t, scan 0 false false ('{' :: rest) = some t →
      (t <+: '{' :: rest ∧ t ≠ [] ∧ Balanced t) ∧
        ∀ t', t' <+: '{' :: rest → t' ≠ [] → Balanced t' → t.length ≤ t'.length := by
    intro t hscan
    rw [scan_open, Option.map_eq_some_iff] at hscan
    obtain ⟨t₁, hscan, ht⟩ := hscan
    obtain ⟨inner, u, ht₁, hinit, houtside, htotal, hinside⟩ :=
      outside_of_scan (by decide) hscan
    have hneutral : Neutral brace u :=
      ⟨by omega, fun v hv => by have := hinside v hv; omega⟩
    have hinit' : t <+: '{' :: rest := by
      rw [← ht]
      exact (List.prefix_cons_inj _).mpr hinit
    refine ⟨⟨hinit', by simp [← ht], ?_⟩, ?_⟩
    · refine ⟨'{' :: u ++ ['}'], ?_, hneutral.wrap rfl rfl⟩
      rw [← ht, ht₁]
      have hclose : Outside ['}'] ['}'] := Outside.nil.char (by decide)
      exact (houtside.append hclose).char (by decide)
    · intro t' ht' hne hbalanced
      by_contra hlt
      have hshort : t' <+: '{' :: inner := by
        have hin : t' <+: t := List.prefix_of_prefix_length_le ht' hinit' (by omega)
        rw [← ht, ht₁, ← List.cons_append] at hin
        rcases List.prefix_concat_iff.mp hin with heq | hin
        · simp [← ht, ht₁, heq] at hlt
        · exact hin
      exact not_balanced_of_prefix houtside hneutral.nonneg hshort hne hbalanced
  constructor
  · exact hsound t
  · intro h
    obtain ⟨⟨hinit, hne, hbalanced⟩, hshortest⟩ := h
    have hsome : scan 0 false false ('{' :: rest) ≠ none := by
      obtain ⟨r, hr⟩ := hinit
      obtain ⟨u, hu, hneutral⟩ := hbalanced
      cases hu with
      | nil => exact absurd rfl hne
      | @char c t' u' hc ht' =>
          obtain ⟨hopen, hrest⟩ := List.cons.inj hr
          subst hopen
          have htotal := hneutral.total
          have hweight : brace '{' = 1 := rfl
          rw [height_brace_cons] at htotal
          rw [scan_open, ← hrest]
          simpa using scan_ne_none ht' (by decide) (show (0 : Int) + 1 + height brace u' = 0 by omega) r
      | literal _ _ => simp at hr
    obtain ⟨t', hscan⟩ := Option.ne_none_iff_exists'.mp hsome
    obtain ⟨⟨hinit', hne', hbalanced'⟩, hshortest'⟩ := hsound t' hscan
    have hlength : t.length = t'.length :=
      Nat.le_antisymm (hshortest t' hinit' hne' hbalanced')
        (hshortest' t hinit hne hbalanced)
    rw [hscan, List.prefix_of_prefix_length_le hinit hinit' hlength.le |>.eq_of_length hlength]

/-- The scan from a brace does not end if no prefix is balanced. -/
theorem scan_eq_none_iff {rest : GoString} :
    scan 0 false false ('{' :: rest) = none ↔
      ∀ t, t <+: '{' :: rest → t ≠ [] → ¬Balanced t := by
  constructor
  · intro hnone t hinit hne hbalanced
    classical
    -- A shortest balanced prefix would be the result.
    have hexists : ∃ n t, List.length t = n ∧ t <+: '{' :: rest ∧ t ≠ [] ∧ Balanced t :=
      ⟨t.length, t, rfl, hinit, hne, hbalanced⟩
    obtain ⟨t', hlength, hinit', hne', hbalanced'⟩ := Nat.find_spec hexists
    have hscan := scan_eq_some_iff.mpr ⟨⟨hinit', hne', hbalanced'⟩, fun t'' ht'' hne'' hb'' => by
      rw [hlength]
      exact Nat.find_min' hexists ⟨t'', rfl, ht'', hne'', hb''⟩⟩
    rw [hnone] at hscan
    exact absurd hscan.symm (Option.some_ne_none t')
  · intro hall
    by_contra hsome
    obtain ⟨t, hscan⟩ := Option.ne_none_iff_exists'.mp hsome
    obtain ⟨⟨hinit, hne, hbalanced⟩, -⟩ := scan_eq_some_iff.mp hscan
    exact hall t hinit hne hbalanced

/-! ## JSON texts -/

/-- The escapes of a JSON string are escapes of the scanner. -/
theorem quoted_of_stringBody {b : GoString} (hb : Json.StringBody b) : Quoted b := by
  have hhex : ∀ c, Json.isHex c = true → c ≠ '"' ∧ c ≠ '\\' := by
    intro c hc
    constructor
    · intro hquote
      rw [hquote] at hc
      exact absurd hc (by decide)
    · intro hback
      rw [hback] at hc
      exact absurd hc (by decide)
  induction hb with
  | nil => exact Quoted.nil
  | plain hc _ ih =>
      simp only [Json.isPlain, Bool.and_eq_true, decide_eq_true_eq] at hc
      exact ih.char hc.1.1 hc.1.2
  | escape _ _ ih => exact ih.escape
  | unicode ha hb hc hd _ ih =>
      have hdigits := (((ih.char (hhex _ hd).1 (hhex _ hd).2).char (hhex _ hc).1
        (hhex _ hc).2).char (hhex _ hb).1 (hhex _ hb).2).char (hhex _ ha).1 (hhex _ ha).2
      exact hdigits.escape

theorem balanced_of_ws {w : GoString} (hw : Json.Ws w) : Balanced w := by
  refine balanced_of_plain fun c hc => ?_
  have hspace := hw c hc
  refine ⟨?_, ?_, ?_⟩ <;>
    · intro heq
      rw [heq] at hspace
      exact absurd hspace (by decide)

theorem balanced_of_digits {s : GoString} (hs : Json.Digits s) : Balanced s := by
  refine balanced_of_plain fun c hc => ?_
  have hdigit := hs c hc
  refine ⟨?_, ?_, ?_⟩ <;>
    · intro heq
      rw [heq] at hdigit
      exact absurd hdigit (by decide)

/-- A number has neither quotes nor braces. -/
theorem balanced_of_number {s : GoString} (hs : Json.NumberText s) : Balanced s := by
  obtain ⟨hsign, hint, hfrac, hexp⟩ := hs
  have hpoint : Balanced ['.'] := balanced_of_plain (by simp)
  refine ((Balanced.append ?_ ?_).append ?_).append ?_
  · rcases hsign with rfl | rfl
    · exact balanced_of_plain (by simp)
    · exact balanced_of_plain (by simp)
  · cases hint with
    | zero => exact balanced_of_plain (by simp)
    | digits hc _ hs => exact balanced_of_digits (List.forall_mem_cons.mpr ⟨hc, hs⟩)
  · cases hfrac with
    | none => exact balanced_of_plain (by simp)
    | digits _ hs => exact hpoint.append (balanced_of_digits hs)
  · cases hexp with
    | none => exact balanced_of_plain (by simp)
    | digits he hsign _ hs =>
        refine Balanced.append ?_ (balanced_of_digits hs)
        rcases he with rfl | rfl <;> rcases hsign with rfl | rfl | rfl <;>
          exact balanced_of_plain (by simp)

/-- A balanced text between braces. -/
theorem Balanced.wrap {s : GoString} (hs : Balanced s) : Balanced ('{' :: s ++ ['}']) := by
  obtain ⟨u, hu, hneutral⟩ := hs
  have hclose : Outside ['}'] ['}'] := Outside.nil.char (by decide)
  exact ⟨'{' :: u ++ ['}'], (hu.append hclose).char (by decide), hneutral.wrap rfl rfl⟩

/-- Every part of a JSON text is balanced. -/
theorem balanced_of_syntax {d : Nat} {form : Json.Form} {s : GoString}
    (hs : Json.Syntax d form s) : Balanced s := by
  have hcomma : Balanced [','] := balanced_of_plain (by simp)
  have hcolon : Balanced [':'] := balanced_of_plain (by simp)
  have hopen : Balanced ['['] := balanced_of_plain (by simp)
  have hclose : Balanced [']'] := balanced_of_plain (by simp)
  induction hs with
  | null => exact balanced_of_plain (by simp)
  | bool b =>
      cases b with
      | true => exact balanced_of_plain (by simp)
      | false => exact balanced_of_plain (by simp)
  | number hs => exact balanced_of_number hs
  | string hs => exact balanced_of_quoted (quoted_of_stringBody hs)
  | array _ ih => exact hopen.append (ih.append hclose)
  | object _ ih => exact ih.wrap
  | noElements hw => exact balanced_of_ws hw
  | lastElement hw _ hw' ih => exact ((balanced_of_ws hw).append ih).append (balanced_of_ws hw')
  | moreElements hw _ hw' _ _ ih ihrest =>
      exact ((((balanced_of_ws hw).append ih).append (balanced_of_ws hw')).append hcomma).append
        ihrest
  | noMembers hw => exact balanced_of_ws hw
  | lastMember hw hk hw' hw'' _ hafter ih =>
      have hkey := balanced_of_quoted (quoted_of_stringBody hk)
      exact ((((((balanced_of_ws hw).append hkey).append (balanced_of_ws hw')).append
        hcolon).append (balanced_of_ws hw'')).append ih).append (balanced_of_ws hafter)
  | moreMembers hw hk hw' hw'' _ hafter _ _ ih ihrest =>
      have hkey := balanced_of_quoted (quoted_of_stringBody hk)
      exact ((((((((balanced_of_ws hw).append hkey).append (balanced_of_ws hw')).append
        hcolon).append (balanced_of_ws hw'')).append ih).append (balanced_of_ws hafter)).append
        hcomma).append ihrest

/-- An object stands between braces, and what is inside is balanced. -/
theorem exists_inner_of_object {d : Nat} {ms : List (GoString × Json.Value)} {o : GoString}
    (ho : Json.Syntax d (.value (.object ms)) o) :
    ∃ inner, o = '{' :: inner ++ ['}'] ∧ Balanced inner := by
  cases ho with
  | object hs => exact ⟨_, rfl, balanced_of_syntax hs⟩

/-- The scan from the brace of an object ends at its closing brace, whatever follows. -/
theorem scan_object {d : Nat} {ms : List (GoString × Json.Value)} {o : GoString}
    (ho : Json.Syntax d (.value (.object ms)) o) (rest : GoString) :
    scan 0 false false (o ++ rest) = some o := by
  obtain ⟨inner, rfl, u, hu, hneutral⟩ := exists_inner_of_object ho
  rw [show '{' :: inner ++ ['}'] ++ rest = '{' :: (inner ++ ['}'] ++ rest) from rfl]
  refine scan_eq_some_iff.mpr ⟨⟨⟨rest, rfl⟩, by simp, Balanced.wrap ⟨u, hu, hneutral⟩⟩, ?_⟩
  intro t' ht' hne hbalanced
  by_contra hlt
  have hin : t' <+: '{' :: inner := by
    have hshort : t' <+: '{' :: inner ++ ['}'] :=
      List.prefix_of_prefix_length_le ht' ⟨rest, rfl⟩ (by omega)
    rcases List.prefix_concat_iff.mp hshort with heq | hin
    · simp [heq] at hlt
    · exact hin
  exact not_balanced_of_prefix hu hneutral.nonneg hin hne hbalanced

/-! ## The function -/

/-- The scan begins at the first brace. -/
theorem extractJSONObject_append {p : GoString} (hp : '{' ∉ p) (rest : GoString) :
    extractJSONObject (p ++ '{' :: rest) = scan 0 false false ('{' :: rest) := by
  have hdrop : (p ++ '{' :: rest).dropWhile (· ≠ '{') = '{' :: rest := by
    rw [List.dropWhile_append_of_pos]
    · simp
    · intro c hc
      have hne : c ≠ '{' := fun h => hp (h ▸ hc)
      simpa using hne
  rw [extractJSONObject, if_pos (by simp), hdrop]

/-- A JSON object after a text without braces is found, whatever follows it.  What is found
is the shortest balanced prefix from the first brace on and ends with a brace; if nothing
is found, no such prefix is balanced. -/
theorem extractJSONObject_object :
    (∀ (p o s : GoString) (d : Nat) (ms : List (GoString × Json.Value)), '{' ∉ p →
      Json.Syntax d (.value (.object ms)) o → extractJSONObject (p ++ o ++ s) = some o) ∧
    (∀ text t : GoString, extractJSONObject text = some t →
      ∃ p rest, '{' ∉ p ∧ text = p ++ '{' :: rest ∧ t <+: '{' :: rest ∧
        t.getLast? = some '}' ∧ Balanced t ∧
        ∀ t', t' <+: '{' :: rest → t' ≠ [] → Balanced t' → t.length ≤ t'.length) ∧
    ∀ text : GoString, extractJSONObject text = none →
      ∀ p rest, '{' ∉ p → text = p ++ '{' :: rest →
        ∀ t, t <+: '{' :: rest → t ≠ [] → ¬Balanced t := by
  refine ⟨?_, ?_, ?_⟩
  · intro p o s d ms hp ho
    have hscan := scan_object ho s
    obtain ⟨inner, rfl, -⟩ := exists_inner_of_object ho
    rw [List.append_assoc, List.cons_append, List.cons_append, extractJSONObject_append hp]
    exact hscan
  · intro text t hextract
    have hmem : '{' ∈ text := by
      by_contra hnot
      rw [extractJSONObject, if_neg hnot] at hextract
      exact absurd hextract.symm (Option.some_ne_none t)
    obtain ⟨p, rest, htext, hp⟩ := List.eq_append_cons_of_mem hmem
    subst htext
    rw [extractJSONObject_append hp] at hextract
    obtain ⟨⟨hinit, hne, hbalanced⟩, hshortest⟩ := scan_eq_some_iff.mp hextract
    refine ⟨p, rest, hp, rfl, hinit, ?_, hbalanced, hshortest⟩
    rw [scan_open, Option.map_eq_some_iff] at hextract
    obtain ⟨t₁, hscan, ht⟩ := hextract
    obtain ⟨inner, u, ht₁, -⟩ := outside_of_scan (by decide) hscan
    rw [← ht, ht₁, ← List.cons_append, List.getLast?_concat]
  · intro text hnone p rest hp htext
    rw [htext, extractJSONObject_append hp] at hnone
    exact scan_eq_none_iff.mp hnone

/-- An object with a brace in a string, in the middle of a sentence. -/
theorem extractJSONObject_object_braces :
    extractJSONObject ("see ".toList ++ "\x7b\"a\":\"\x7d\"\x7d".toList ++ " and more".toList) =
      some "\x7b\"a\":\"\x7d\"\x7d".toList := by
  have hnone : Json.Ws [] := by simp [Json.Ws]
  have hkey : Json.StringBody ['a'] := Json.StringBody.nil.plain (by decide)
  have hvalue : Json.StringBody ['}'] := Json.StringBody.nil.plain (by decide)
  exact extractJSONObject_object.1 "see ".toList "\x7b\"a\":\"\x7d\"\x7d".toList
    " and more".toList 1 _ (by decide)
    (.object (.lastMember hnone hkey hnone hnone (.string hvalue) hnone))

end Llm
end Veilence

import Veilence.Llm.Response

/-!
# Answers around a result

A language model may put its result into a code fence and may write prose around it.
{lit}`Prose` is text without braces and code fences, and {lit}`fenced` a text in a code
fence.  The pattern for code fences ends at the first three backticks, also where these are
part of a string of the result.

Main results:

- Theorem {lit}`stripMarkdownFences_fenced`: without backticks in the result the whole
  result comes out of its fence.
- Theorem {lit}`parseResponse_fenced`: with them the answer cannot be read.
- Theorem {lit}`meansTheSame_iff`: a result means the same however it is wrapped
  exactly if it has no three backticks in a row.
-/

namespace Veilence
namespace Llm

open Go

/-! ## Objects in a text -/

section

variable {ms : List (GoString × Json.Value)} {o : GoString}

/-- A text of a result in a form that {lit}`Json.readText` accepts. -/
abbrev ObjectText (ms : List (GoString × Json.Value)) (o : GoString) : Prop :=
  Json.Syntax Json.maxNestingDepth (.value (.object ms)) o

theorem not_mem_ws {c : Char} {w : GoString} (hw : Json.Ws w) (hc : Json.isSpace c = false) :
    c ∉ w :=
  fun hmem => absurd (hw c hmem) (by rw [hc]; exact Bool.false_ne_true)

/-- An object begins and ends with a brace. -/
theorem exists_braces (ho : ObjectText ms o) : ∃ inner, o = '{' :: inner ++ ['}'] := by
  obtain ⟨inner, h, -⟩ := exists_inner_of_object ho
  exact ⟨inner, h⟩

theorem readText_object (ho : ObjectText ms o) : Json.readText o = some (.object ms) := by
  apply Json.readText_eq_some_iff.mpr
  exact ⟨[], o, [], by simp [Json.Ws], by simp [Json.Ws], by simp, ho⟩

/-- A text with a brace is decoded as the object in it or leaves the result as it was. -/
theorem unmarshal_of_mem {text : GoString} (hmem : '{' ∈ text) (result : Result) :
    (∃ w t w' ms, '{' ∉ w ∧ text = w ++ t ++ w' ∧ ObjectText ms t ∧
      unmarshal text result = storeMembers result ms) ∨
      unmarshal text result = (result, false) := by
  cases hread : Json.readText text with
  | none => exact Or.inr (unmarshal_of_none hread result)
  | some v =>
      obtain ⟨w, t, w', hw, hw', htext, ht⟩ := Json.readText_eq_some_iff.mp hread
      have hnot : '{' ∉ w ∧ '{' ∉ w' := ⟨not_mem_ws hw rfl, not_mem_ws hw' rfl⟩
      cases v with
      | object ms =>
          refine Or.inl ⟨w, t, w', ms, hnot.1, htext, ht, ?_⟩
          unfold unmarshal
          rw [hread]
      | null =>
          cases ht
          simp [htext, hnot] at hmem
      | _ =>
          right
          unfold unmarshal
          rw [hread]

/-- The object that is read from a text is the object in the text. -/
theorem unmarshal_append {a : GoString} (ha : '{' ∉ a) (ho : ObjectText ms o) (b : GoString)
    (result : Result) :
    unmarshal (a ++ o ++ b) result = unmarshal o result ∨
      unmarshal (a ++ o ++ b) result = (result, false) := by
  obtain ⟨inner, hinner⟩ := exists_braces ho
  have hmem : '{' ∈ a ++ o ++ b := by
    rw [hinner]
    simp
  rcases unmarshal_of_mem hmem result with ⟨w, t, w', ms', hw, htext, ht, hstore⟩ | hfail
  · have hfound := extractJSONObject_object.1 a o b _ ms ha ho
    rw [htext, extractJSONObject_object.1 w t w' _ ms' hw ht] at hfound
    have hto : t = o := Option.some.inj hfound
    left
    rw [hstore]
    unfold unmarshal
    rw [readText_object (hto ▸ ht)]
  · exact Or.inr hfail

/-- In a proper prefix of an object no object is found. -/
theorem extractJSONObject_of_prefix (ho : ObjectText ms o) {t : GoString} (ht : t <+: o)
    (hlt : t.length < o.length) : extractJSONObject t = none := by
  obtain ⟨inner, hinner⟩ := exists_braces ho
  have hwhole := scan_object ho []
  rw [List.append_nil] at hwhole
  rw [hinner, List.cons_append] at ht hwhole
  rcases List.prefix_cons_iff.mp ht with hnil | ⟨s, hs, -⟩
  · rw [hnil]
    rfl
  · have hstart : extractJSONObject t = scan 0 false false ('{' :: s) := by
      rw [hs]
      exact extractJSONObject_append (p := []) List.not_mem_nil s
    rw [hstart]
    cases hscan : scan 0 false false ('{' :: s) with
    | none => rfl
    | some t₁ =>
        obtain ⟨⟨hinit, hne, hbalanced⟩, -⟩ := scan_eq_some_iff.mp hscan
        rw [← hs] at hinit
        have hle := (scan_eq_some_iff.mp hwhole).2 t₁ (hinit.trans ht) hne hbalanced
        have hshort := hinit.length_le
        rw [hinner, List.cons_append] at hlt
        omega

/-- A proper prefix of an object cannot be decoded. -/
theorem unmarshal_of_prefix (ho : ObjectText ms o) {t : GoString} (ht : t <+: o)
    (hlt : t.length < o.length) (result : Result) : unmarshal t result = (result, false) := by
  obtain ⟨inner, hinner⟩ := exists_braces ho
  have hbegin := ht
  rw [hinner, List.cons_append] at hbegin
  rcases List.prefix_cons_iff.mp hbegin with hnil | ⟨s, hs, -⟩
  · rw [hnil]
    rfl
  · have hmem : '{' ∈ t := by
      rw [hs]
      exact List.mem_cons_self
    rcases unmarshal_of_mem hmem result with ⟨w, t₁, w', ms', hw, htext, ht₁, -⟩ | hfail
    · have hfound := extractJSONObject_object.1 w t₁ w' _ ms' hw ht₁
      rw [← htext, extractJSONObject_of_prefix ho ht hlt] at hfound
      exact absurd hfound.symm (Option.some_ne_none t₁)
    · exact hfail

/-- A text that begins with a backtick cannot be decoded. -/
theorem unmarshal_backtick (t : GoString) (result : Result) :
    unmarshal ('`' :: t) result = (result, false) := by
  apply unmarshal_of_none
  have hvalue : ∀ fuel depth, Json.readValue fuel depth ('`' :: t) = none := by
    intro fuel depth
    cases fuel with
    | zero => simp [Json.readValue]
    | succ fuel =>
        rw [Json.readValue_number (by simp [Json.keywords])]
        rfl
  have hskip : Json.skipWs ('`' :: t) = '`' :: t := rfl
  unfold Json.readText
  rw [hskip, hvalue]

end

/-! ## The end of a code block -/

theorem notMem_fence {c : Char} (hc : c ≠ '`') : c ∉ fence := by
  simp [fence, hc]

/-- White space and a fence end a code block. -/
theorem exists_matchPieces_end {w' : GoString} (hw' : ∀ c ∈ w', reSpace c = true)
    (s : GoString) : ∃ taken, matchPieces codeBlockEnd (w' ++ (fence ++ s)) = some taken := by
  have hlit : matchPieces [.lit fence] (fence ++ s) = some [fence] := by
    rw [matchPieces_lit]
    rfl
  have hgreedy : ∀ w : GoString, (∀ c ∈ w, reSpace c = true) →
      matchPieces [.greedy reSpace, .lit fence] (w ++ (fence ++ s)) = some [w, fence] := by
    intro w hw
    apply matchPieces_greedy hw _ hlit
    simp [fence, reSpace]
  by_cases hnewline : ['\n'] <+: w' ++ (fence ++ s)
  · cases w' with
    | nil => simp [fence] at hnewline
    | cons c w =>
        have hc : '\n' = c := by
          obtain ⟨t, ht⟩ := hnewline
          exact (List.cons.inj ht).1
        subst hc
        exact ⟨_, matchPieces_opt (s := ['\n']) (hgreedy w fun c hc =>
          hw' c (List.mem_cons_of_mem _ hc))⟩
  · exact ⟨_, matchPieces_opt_of_not hnewline (hgreedy w' hw')⟩

/-- A code block does not end before a brace that comes before its fence. -/
theorem matchPieces_end_eq_none {x t : GoString} (hfence : ¬fence <:+: x) :
    matchPieces codeBlockEnd (x ++ '}' :: t) = none := by
  -- The white space ends before the brace, and there is no fence after it.
  have hgreedy : ∀ x, ¬fence <:+: x →
      matchPieces [.greedy reSpace, .lit fence] (x ++ '}' :: t) = none := by
    intro x hfence
    apply matchPieces_greedy_eq_none
    intro u v huv hu
    apply matchPieces_lit_of_not
    intro hinit
    rcases List.append_eq_append_iff.mp huv with ⟨y, hy, hv⟩ | ⟨y, hy, hv⟩
    · cases y with
      | nil =>
          rw [List.nil_append] at hv
          rw [← hv] at hinit
          have hnil := prefix_of_prefix_append_cons (a := []) (notMem_fence (by decide)) hinit
          exact absurd (List.prefix_nil.mp hnil) (by decide)
      | cons c y =>
          have hc : c = '}' := by
            rw [List.cons_append] at hv
            exact (List.cons.inj hv).1.symm
          have hspace := hu '}' (by rw [hy, hc]; simp)
          exact absurd hspace (by decide)
    · rw [hv] at hinit
      have hin := prefix_of_prefix_append_cons (notMem_fence (by decide)) hinit
      apply hfence
      rw [hy]
      exact hin.isInfix.trans (List.suffix_append u y).isInfix
  apply matchPieces_opt_eq_none (hgreedy x hfence)
  intro v hv
  cases x with
  | nil => simp at hv
  | cons c x =>
      have hxv : x ++ '}' :: t = v := by
        rw [List.cons_append, List.cons_append] at hv
        exact (List.cons.inj hv).2
      rw [← hxv]
      exact hgreedy x fun h => hfence (h.trans (List.suffix_cons c x).isInfix)

/-! ## Stripping a fence -/

/-- The names of a language after an opening fence. -/
def fenceTags : List GoString :=
  ["json".toList, []]

/-- A text in a code fence. -/
def fenced (lang w w' o : GoString) : GoString :=
  fence ++ lang ++ w ++ o ++ w' ++ fence

/-- What the body of a code block takes, given where its group ends. -/
theorem exists_matchPieces_body {j sp t u : GoString} {taken : List GoString}
    (hj : j = "json".toList ∨ j = [] ∧ ¬"json".toList <+: sp ++ t)
    (hsp : ∀ x ∈ sp, reSpace x = true) (hc : ∀ x ∈ t.head?, reSpace x = false)
    (hlazy : matchPieces (.lazy (fun _ => true) :: codeBlockEnd) t = some (u :: taken)) :
    ∃ taken', matchPieces codeBlockBody (j ++ (sp ++ t)) = some taken' ∧
      taken'.getD 3 [] = u := by
  have hnewline : ¬['\n'] <+: t := by
    rintro ⟨t', ht'⟩
    exact absurd (hc '\n' (by rw [← ht']; rfl)) (by decide)
  have hspace := matchPieces_greedy hsp hc (matchPieces_opt_of_not hnewline hlazy)
  rcases hj with rfl | ⟨rfl, hnot⟩
  · exact ⟨_, matchPieces_opt hspace, rfl⟩
  · exact ⟨_, matchPieces_opt_of_not hnot hspace, rfl⟩

/-- A text ends with some backticks, and what is before them does not. -/
theorem exists_backticks (p : GoString) :
    ∃ q k, p = q ++ List.replicate k '`' ∧ ∀ c ∈ q.getLast?, c ≠ '`' := by
  induction p using List.reverseRecOn with
  | nil => exact ⟨[], 0, rfl, by simp⟩
  | append_singleton p c ih =>
      by_cases hc : c = '`'
      · obtain ⟨q, k, hp, hq⟩ := ih
        refine ⟨q, k + 1, ?_, hq⟩
        rw [hp, hc, List.append_assoc, List.replicate_succ']
      · refine ⟨p ++ [c], 0, by simp, ?_⟩
        simpa using hc

/-- No code block begins before the backticks. -/
theorem findSubmatch_skip {q t : GoString} (hfence : ¬fence <:+: q)
    (hlast : ∀ c ∈ q.getLast?, c ≠ '`') :
    findSubmatch codeBlockRe (q ++ t) = findSubmatch codeBlockRe t := by
  apply findSubmatch_of_skip
  intro v hv hlt
  apply matchPieces_lit_of_not
  intro hinit
  obtain ⟨x, hx⟩ := hv
  rcases List.append_eq_append_iff.mp hx with ⟨y, hq, hvt⟩ | ⟨y, -, hty⟩
  · rcases List.eq_nil_or_concat y with hnil | ⟨z, c, hyc⟩
    · rw [hvt, hnil] at hlt
      simp at hlt
    · have hc : c ≠ '`' := by
        apply hlast
        rw [hq, hyc]
        simp
      rw [hvt, hyc, List.concat_eq_append, List.append_assoc] at hinit
      have hin := prefix_of_prefix_append_cons (notMem_fence hc) hinit
      apply hfence
      rw [hq, hyc, List.concat_eq_append]
      exact (hin.isInfix.trans (List.prefix_append z [c]).isInfix).trans
        (List.suffix_append x (z ++ [c])).isInfix
  · have hle := congrArg List.length hty
    rw [List.length_append] at hle
    omega

/-- The fence that a text begins with is stripped. -/
theorem stripMarkdownFences_eq {q t u : GoString} (hfence : ¬fence <:+: q)
    (hlast : ∀ c ∈ q.getLast?, c ≠ '`')
    (hbody : ∃ taken, matchPieces codeBlockBody t = some taken ∧ taken.getD 3 [] = u) :
    stripMarkdownFences (q ++ (fence ++ t)) = trimSpace u := by
  obtain ⟨taken, hmatch, hu⟩ := hbody
  have hfound : findSubmatch codeBlockRe (fence ++ t) = some (fence :: taken) := by
    apply findSubmatch_of_match
    rw [codeBlockRe, matchPieces_lit, hmatch]
    rfl
  unfold stripMarkdownFences
  rw [findSubmatch_skip hfence hlast, hfound]
  dsimp only
  rw [List.getD_cons_succ, hu]

/-- A text without a fence is left as it is. -/
theorem stripMarkdownFences_of_not {t : GoString} (h : ¬fence <:+: t) :
    stripMarkdownFences t = t := by
  unfold stripMarkdownFences
  rw [codeBlockRe, findSubmatch_eq_none (by decide) h]

/-! ## Results without backticks -/

section

variable {ms : List (GoString × Json.Value)} {o : GoString}

/-- There is no fence in a text of which no part between two other characters has one. -/
theorem not_fence_append_cons {a b : GoString} {c : Char} (hc : c ≠ '`') (ha : ¬fence <:+: a)
    (hb : ¬fence <:+: b) : ¬fence <:+: a ++ c :: b := by
  intro h
  rcases infix_append_cons (notMem_fence hc) h with h | h
  · exact ha h
  · exact hb h

/-- There is no fence without backticks. -/
theorem not_fence_of_notMem {a : GoString} (ha : '`' ∉ a) : ¬fence <:+: a :=
  fun h => ha (h.subset (by simp [fence]))

/-- There is no fence in an object after a text, or before one, if neither has one. -/
theorem not_fence_object (ho : ObjectText ms o) {a b : GoString} (ha : ¬fence <:+: a)
    (hno : ¬fence <:+: o) (hb : ¬fence <:+: b) : ¬fence <:+: a ++ o ++ b := by
  obtain ⟨inner, rfl⟩ := exists_braces ho
  have hinner : ¬fence <:+: inner := fun h =>
    hno ((h.trans (List.prefix_append inner ['}']).isInfix).trans
      (List.suffix_cons '{' _).isInfix)
  have hopen := not_fence_append_cons (c := '{') (by decide) ha
    (not_fence_append_cons (c := '}') (by decide) hinner hb)
  simpa using hopen

/-- The group of a code block takes a text before an object and the whole object. -/
theorem exists_matchPieces_group (ho : ObjectText ms o) (hno : ¬fence <:+: o) {m w' : GoString}
    (hm : ¬fence <:+: m) (hw' : ∀ c ∈ w', reSpace c = true) (s : GoString) :
    ∃ taken, matchPieces (.lazy (fun _ => true) :: codeBlockEnd)
      (m ++ o ++ (w' ++ (fence ++ s))) = some ((m ++ o) :: taken) := by
  obtain ⟨taken, hmatch⟩ := exists_matchPieces_end hw' s
  refine ⟨taken, matchPieces_lazy (fun _ _ => rfl) ?_ hmatch⟩
  intro u v huv hne
  have hfence : ¬fence <:+: m ++ o := by
    simpa using not_fence_object ho hm hno (not_fence_of_notMem (a := []) (by simp))
  obtain ⟨inner, hinner⟩ := exists_braces ho
  -- The rest of the object ends with its closing brace.
  obtain ⟨x, c, hv⟩ := (List.eq_nil_or_concat v).resolve_left hne
  rw [List.concat_eq_append] at hv
  have hc : c = '}' := by
    have hlast := congrArg List.getLast? huv
    rw [hinner, hv, ← List.append_assoc, ← List.append_assoc, List.getLast?_concat,
      List.getLast?_concat] at hlast
    exact (Option.some.inj hlast).symm
  rw [hv, hc, List.append_assoc]
  apply matchPieces_end_eq_none
  intro hx
  apply hfence
  rw [huv, hv]
  exact (hx.trans (List.prefix_append x [c]).isInfix).trans (List.suffix_append u _).isInfix

theorem notMem_of_space {c : Char} {w : GoString} (hw : ∀ c ∈ w, reSpace c = true)
    (hc : reSpace c = false) : c ∉ w :=
  fun hmem => absurd (hw c hmem) (by rw [hc]; exact Bool.false_ne_true)

theorem notMem_fenceTag {c : Char} {lang : GoString} (hlang : lang ∈ fenceTags)
    (hc : c ∉ "json".toList) : c ∉ lang := by
  simp only [fenceTags, List.mem_cons, List.not_mem_nil, or_false] at hlang
  rcases hlang with rfl | rfl
  · exact hc
  · exact List.not_mem_nil

/-- What follows an opening fence is its tag. -/
theorem fenceTag_cases {lang w : GoString} (hlang : lang ∈ fenceTags)
    (hw : ∀ c ∈ w, reSpace c = true) (rest : GoString) :
    lang = "json".toList ∨ lang = [] ∧ ¬"json".toList <+: w ++ '{' :: rest := by
  simp only [fenceTags, List.mem_cons, List.not_mem_nil, or_false] at hlang
  rcases hlang with h | h
  · exact Or.inl h
  · refine Or.inr ⟨h, ?_⟩
    rintro ⟨t, ht⟩
    cases w with
    | nil => exact absurd (List.cons.inj ht).1 (by decide)
    | cons c w =>
        have hj : 'j' = c := (List.cons.inj ht).1
        exact absurd (hw c List.mem_cons_self) (by rw [← hj]; decide)

/-- A fence around an object is stripped together with the text before it, except for some
backticks. -/
theorem stripMarkdownFences_fenced (ho : ObjectText ms o) (hno : ¬fence <:+: o)
    {p lang w w' : GoString} (hp : ¬fence <:+: p) (hlang : lang ∈ fenceTags)
    (hw : ∀ c ∈ w, reSpace c = true) (hw' : ∀ c ∈ w', reSpace c = true) (s : GoString) :
    ∃ a, '{' ∉ a ∧ stripMarkdownFences (p ++ fenced lang w w' o ++ s) = a ++ o := by
  obtain ⟨q, k, hpq, hlast⟩ := exists_backticks p
  have hq : ¬fence <:+: q := fun h =>
    hp (by rw [hpq]; exact h.trans (List.prefix_append q _).isInfix)
  have hbefore : '`' ∉ lang ++ w :=
    List.not_mem_append (notMem_fenceTag hlang (by decide)) (notMem_of_space hw (by decide))
  obtain ⟨inner, hinner⟩ := exists_braces ho
  -- What the group takes before the object.
  have hgroup : ∃ m, '{' ∉ m ∧
      ∃ taken, matchPieces codeBlockBody
        (List.replicate k '`' ++ (lang ++ w ++ o ++ (w' ++ (fence ++ s)))) = some taken ∧
          taken.getD 3 [] = m ++ o := by
    cases k with
    | zero =>
        obtain ⟨taken, hlazy⟩ := exists_matchPieces_group ho hno
          (m := []) (not_fence_of_notMem (by simp)) hw' s
        refine ⟨[], by simp, ?_⟩
        have htag := fenceTag_cases hlang hw (inner ++ ['}'] ++ (w' ++ (fence ++ s)))
        rw [List.nil_append, hinner] at hlazy
        have hbody := exists_matchPieces_body htag hw (by simp [reSpace]) hlazy
        rw [hinner]
        simpa using hbody
    | succ k =>
        have hm : ¬fence <:+: List.replicate (k + 1) '`' ++ (lang ++ w) := by
          have hticks : ¬fence <:+: List.replicate (k + 1) '`' := fun h =>
            hp (by rw [hpq]; exact h.trans (List.suffix_append q _).isInfix)
          cases hlw : lang ++ w with
          | nil => simpa using hticks
          | cons c rest =>
              rw [hlw] at hbefore
              have hcrest : '`' ≠ c ∧ '`' ∉ rest := by simpa using hbefore
              exact not_fence_append_cons hcrest.1.symm hticks (not_fence_of_notMem hcrest.2)
        obtain ⟨taken, hlazy⟩ := exists_matchPieces_group ho hno hm hw' s
        refine ⟨List.replicate (k + 1) '`' ++ (lang ++ w), ?_, ?_⟩
        · have hopen : '{' ∉ lang ++ w :=
            List.not_mem_append (notMem_fenceTag hlang (by decide))
              (notMem_of_space hw (by decide))
          refine List.not_mem_append ?_ hopen
          simp
        · have hbody := @exists_matchPieces_body [] [] _ _ _ ?_ (by simp) ?_ hlazy
          · simpa using hbody
          · refine Or.inr ⟨rfl, ?_⟩
            rintro ⟨t, ht⟩
            exact absurd (List.cons.inj ht).1 (by decide)
          · simp [List.replicate_succ, reSpace]
  obtain ⟨m, hm, hbody⟩ := hgroup
  have hstrip := stripMarkdownFences_eq hq hlast hbody
  have htext : p ++ fenced lang w w' o ++ s =
      q ++ (fence ++ (List.replicate k '`' ++ (lang ++ w ++ o ++ (w' ++ (fence ++ s))))) := by
    have hticks : List.replicate k '`' ++ fence = fence ++ List.replicate k '`' := by
      rw [show fence = List.replicate 3 '`' from rfl, List.replicate_append_replicate,
        List.replicate_append_replicate, Nat.add_comm]
    rw [hpq, fenced]
    simp only [List.append_assoc]
    rw [← List.append_assoc (List.replicate k '`') fence, hticks]
    simp only [List.append_assoc]
  obtain ⟨a, b, ha, hb, htrim⟩ :=
    exists_trimSpace (c := '{') (d := '}') (by decide) (by decide) m inner []
  refine ⟨a, fun h => hm (ha.subset h), ?_⟩
  rw [htext, hstrip]
  rw [List.prefix_nil.mp hb, ← hinner, List.append_nil, List.append_nil] at htrim
  exact htrim

end

/-! ## What the parser returns -/

section

variable {ms : List (GoString × Json.Value)} {o : GoString}

/-- Attempts that leave the result as it was do not matter. -/
theorem decodeFirst_object {rawResponse : GoString} {result : Result} {texts : List GoString}
    (hok : (unmarshal o result).2 = true)
    (htexts : ∀ t ∈ texts, unmarshal t result = unmarshal o result ∨
      unmarshal t result = (result, false)) :
    decodeFirst rawResponse result (texts ++ [o]) =
      finish rawResponse (unmarshal o result).1 := by
  induction texts with
  | nil =>
      rw [List.nil_append, decodeFirst, if_pos hok]
  | cons t texts ih =>
      rw [List.cons_append, decodeFirst]
      rcases htexts t List.mem_cons_self with hsame | hfail
      · rw [hsame, if_pos hok]
      · rw [hfail, if_neg (by simp)]
        exact ih fun t ht => htexts t (List.mem_cons_of_mem _ ht)

/-- An object that can be found in the answer decides. -/
theorem parseResponse_of_object (ho : ObjectText ms o)
    (hok : (unmarshal o Result.zero).2 = true) {rawResponse a b a' b' : GoString}
    (ha : '{' ∉ a) (htrim : trimSpace rawResponse = a ++ o ++ b) (ha' : '{' ∉ a')
    (hstrip : stripMarkdownFences (trimSpace rawResponse) = a' ++ o ++ b') :
    parseResponse rawResponse = finish rawResponse (unmarshal o Result.zero).1 := by
  rw [parseResponse_eq]
  unfold attempts
  dsimp only
  rw [hstrip, extractJSONObject_object.1 a' o b' _ ms ha' ho, Option.toList_some,
    ← List.cons_append]
  apply decodeFirst_object hok
  intro t ht
  rcases List.mem_cons.mp ht with rfl | ht
  · rw [htrim]
    exact unmarshal_append ha ho b Result.zero
  · have hmem : t = a' ++ o ++ b' := by
      split_ifs at ht with hne
      · exact List.mem_singleton.mp ht
      · exact absurd ht List.not_mem_nil
    rw [hmem]
    exact unmarshal_append ha' ho b' Result.zero

/-- Attempts that cannot be decoded lead to the fallback. -/
theorem decodeFirst_eq_fallback {rawResponse : GoString} {result : Result}
    {texts : List GoString} (htexts : ∀ t ∈ texts, unmarshal t result = (result, false)) :
    decodeFirst rawResponse result texts = fallback rawResponse := by
  induction texts with
  | nil => rfl
  | cons t texts ih =>
      rw [decodeFirst, htexts t List.mem_cons_self, if_neg (by simp)]
      exact ih fun t ht => htexts t (List.mem_cons_of_mem _ ht)

/-- Text without braces and code fences. -/
structure Prose (p : GoString) : Prop where
  noOpen : '{' ∉ p
  noClose : '}' ∉ p
  noFence : ¬fence <:+: p

theorem prose_nil : Prose [] where
  noOpen := List.not_mem_nil
  noClose := List.not_mem_nil
  noFence := not_fence_of_notMem List.not_mem_nil

/-- An object without a fence in it, with prose around it. -/
theorem parseResponse_prose (ho : ObjectText ms o) (hok : (unmarshal o Result.zero).2 = true)
    (hno : ¬fence <:+: o) {p s : GoString} (hp : Prose p) (hs : Prose s) :
    parseResponse (p ++ o ++ s) = finish (p ++ o ++ s) (unmarshal o Result.zero).1 := by
  obtain ⟨inner, hinner⟩ := exists_braces ho
  obtain ⟨a, b, ha, hb, htrim⟩ :=
    exists_trimSpace (c := '{') (d := '}') (by decide) (by decide) p inner s
  rw [← hinner] at htrim
  have hopen : '{' ∉ a := fun h => hp.noOpen (ha.subset h)
  have hfence : ¬fence <:+: a ++ o ++ b :=
    not_fence_object ho (fun h => hp.noFence (h.trans ha.isInfix)) hno
      (fun h => hs.noFence (h.trans hb.isInfix))
  refine @parseResponse_of_object _ _ ho hok _ _ _ _ b hopen htrim hopen ?_
  rw [htrim, stripMarkdownFences_of_not hfence]

/-- A fenced text begins and ends with a backtick. -/
theorem exists_fenced (lang w w' o : GoString) :
    ∃ inner, fenced lang w w' o = '`' :: inner ++ ['`'] := by
  refine ⟨"``".toList ++ lang ++ w ++ o ++ w' ++ "``".toList, ?_⟩
  simp [fenced, fence]

/-- An object without a fence in it, in a fence with prose around it. -/
theorem parseResponse_fenced_prose (ho : ObjectText ms o)
    (hok : (unmarshal o Result.zero).2 = true) (hno : ¬fence <:+: o) {p s lang w w' : GoString}
    (hp : Prose p) (hlang : lang ∈ fenceTags) (hw : ∀ c ∈ w, reSpace c = true)
    (hw' : ∀ c ∈ w', reSpace c = true) :
    parseResponse (p ++ fenced lang w w' o ++ s) =
      finish (p ++ fenced lang w w' o ++ s) (unmarshal o Result.zero).1 := by
  obtain ⟨inner, hinner⟩ := exists_fenced lang w w' o
  obtain ⟨a, b, ha, hb, htrim⟩ :=
    exists_trimSpace (c := '`') (d := '`') (by decide) (by decide) p inner s
  rw [← hinner] at htrim
  obtain ⟨a', ha', hstrip⟩ := stripMarkdownFences_fenced ho hno
    (fun h => hp.noFence (h.trans ha.isInfix)) hlang hw hw' b
  have hbefore : '{' ∉ a ++ fence ++ lang ++ w := by
    simp only [List.mem_append, not_or]
    exact ⟨⟨⟨fun h => hp.noOpen (ha.subset h), notMem_fence (by decide)⟩,
      notMem_fenceTag hlang (by decide)⟩, notMem_of_space hw (by decide)⟩
  refine @parseResponse_of_object _ _ ho hok _ _ (w' ++ fence ++ b) _ [] hbefore ?_ ha' ?_
  · rw [htrim, fenced]
    simp only [List.append_assoc]
  · rw [htrim, hstrip, List.append_nil]

/-- A fenced object with a fence in it cannot be read. -/
theorem parseResponse_fenced (ho : ObjectText ms o) (hin : fence <:+: o)
    {lang w w' : GoString} (hlang : lang ∈ fenceTags) (hw : ∀ c ∈ w, reSpace c = true) :
    parseResponse (fenced lang w w' o) = fallback (fenced lang w w' o) := by
  obtain ⟨inner, hinner⟩ := exists_fenced lang w w' o
  obtain ⟨a, b, ha, hb, htrim⟩ :=
    exists_trimSpace (c := '`') (d := '`') (by decide) (by decide) [] inner []
  rw [← hinner, List.suffix_nil.mp ha, List.prefix_nil.mp hb, List.append_nil,
    List.nil_append] at htrim
  -- The group ends in the object at the latest where the fence in it begins.
  obtain ⟨u, v, huv⟩ := hin
  obtain ⟨rest, hrest⟩ : ∃ rest, o ++ (w' ++ fence) = '{' :: rest := by
    obtain ⟨inner, rfl⟩ := exists_braces ho
    exact ⟨_, rfl⟩
  have hsplit : o ++ (w' ++ fence) = u ++ (fence ++ (v ++ (w' ++ fence))) := by
    rw [← huv]
    simp only [List.append_assoc]
  obtain ⟨taken, hend⟩ := @exists_matchPieces_end [] (by simp) (v ++ (w' ++ fence))
  obtain ⟨c, after, taken', hu, hlazy⟩ := exists_matchPieces_lazy (s := u) (fun _ _ => rfl) hend
  rw [List.nil_append, ← hsplit, hrest] at hlazy
  have hbody := exists_matchPieces_body (fenceTag_cases hlang hw rest) hw (by simp [reSpace]) hlazy
  have hstrip := stripMarkdownFences_eq (q := []) (not_fence_of_notMem (by simp)) (by simp) hbody
  rw [← hrest, List.nil_append, show fence ++ (lang ++ (w ++ (o ++ (w' ++ fence)))) =
    fenced lang w w' o by simp [fenced]] at hstrip
  have hinit : trimSpace c <+: o ∧ (trimSpace c).length < o.length := by
    have hco : c <+: o := ⟨after ++ (fence ++ v), by rw [← huv, hu]; simp⟩
    have hlt : c.length < o.length := by
      rw [← huv, hu]
      simp [fence]
    cases c with
    | nil => exact ⟨List.nil_prefix, hlt⟩
    | cons x c =>
        have hx : x = '{' := by
          obtain ⟨inner, rfl⟩ := exists_braces ho
          exact (List.cons_prefix_cons.mp hco).1
        have htrimmed := trimSpace_prefix (c := x) (by rw [hx]; decide) c
        exact ⟨htrimmed.trans hco, htrimmed.length_le.trans_lt hlt⟩
  rw [parseResponse_eq]
  unfold attempts
  dsimp only
  rw [htrim, hstrip, extractJSONObject_of_prefix ho hinit.1 hinit.2]
  apply decodeFirst_eq_fallback
  intro t ht
  rcases List.mem_cons.mp ht with rfl | ht
  · rw [hinner]
    exact unmarshal_backtick _ Result.zero
  · have hmem : t = trimSpace c := by
      rw [Option.toList_none, List.append_nil] at ht
      split_ifs at ht with hne
      · exact List.mem_singleton.mp ht
      · exact absurd ht List.not_mem_nil
    rw [hmem]
    exact unmarshal_of_prefix ho hinit.1 hinit.2 Result.zero

/-- What a result says does not depend on the answer that it was read from. -/
theorem verdict_finish (rawResponse : GoString) (result : Result) :
    (finish rawResponse result).verdict = (validateResult result).verdict := by
  unfold finish validateResult validateClassification Result.verdict
  dsimp only
  split_ifs <;> rfl

/-- The fallbacks of different answers quote them. -/
theorem verdict_fallback_injective {t t' : GoString}
    (h : (fallback t).verdict = (fallback t').verdict) : t = t' := by
  have hreasoning : (fallback t).reasoning = (fallback t').reasoning := by
    simp only [Result.verdict, Prod.mk.injEq] at h
    exact h.2.2
  exact List.append_cancel_left hreasoning

/-- A fenced object with a fence in it does not mean the same under both tags. -/
theorem exists_verdict_ne (ho : ObjectText ms o) (hin : fence <:+: o)
    (verdict : GoString × Rat × GoString) :
    ∃ lang ∈ fenceTags, (parseResponse (fenced lang [] [] o)).verdict ≠ verdict := by
  have hspace : ∀ c ∈ ([] : GoString), reSpace c = true := by simp
  have hjson : "json".toList ∈ fenceTags := by simp [fenceTags]
  have hplain : [] ∈ fenceTags := by simp [fenceTags]
  by_contra hall
  push Not at hall
  have hsame := (hall _ hjson).trans (hall _ hplain).symm
  rw [parseResponse_fenced ho hin hjson hspace, parseResponse_fenced ho hin hplain hspace] at hsame
  have hlength := congrArg List.length (verdict_fallback_injective hsame)
  simp only [fenced, List.length_append, List.length_nil] at hlength
  simp at hlength

/-- The text that is read as an object from brace to brace is the text of the object. -/
theorem objectText_of_readText (hread : Json.readText o = some (.object ms))
    (hhead : o.head? = some '{') (hlast : o.getLast? = some '}') : ObjectText ms o := by
  obtain ⟨w, t, w', hw, hw', htext, ht⟩ := Json.readText_eq_some_iff.mp hread
  have hbefore : w = [] := by
    cases w with
    | nil => rfl
    | cons c w =>
        have hc : c = '{' := by simpa [htext] using hhead
        exact absurd (hw c List.mem_cons_self) (by rw [hc]; decide)
  have hafter : w' = [] := by
    rcases List.eq_nil_or_concat w' with hnil | ⟨x, c, hxc⟩
    · exact hnil
    · rw [htext, hxc, List.concat_eq_append, ← List.append_assoc, List.getLast?_concat] at hlast
      have hc : c = '}' := Option.some.inj hlast
      exact absurd (hw' c (by rw [hxc]; simp)) (by rw [hc]; decide)
  rw [hbefore, hafter, List.nil_append, List.append_nil] at htext
  rw [htext]
  exact ht

/-- Whether a value is an object. -/
def isObject : Json.Value → Bool
  | .object _ => true
  | _ => false

theorem exists_objectText (hread : (Json.readText o).any isObject = true)
    (hhead : o.head? = some '{') (hlast : o.getLast? = some '}') : ∃ ms, ObjectText ms o := by
  cases hvalue : Json.readText o with
  | none => simp [hvalue] at hread
  | some v =>
      cases v with
      | object ms => exact ⟨ms, objectText_of_readText hvalue hhead hlast⟩
      | _ => simp [hvalue, isObject] at hread

/-- However the result is wrapped, the answer means what the result alone means. -/
def MeansTheSame (o : GoString) : Prop :=
  ∀ p s lang w w' : GoString, Prose p → Prose s → lang ∈ fenceTags →
    (∀ c ∈ w, reSpace c = true) → (∀ c ∈ w', reSpace c = true) →
    ∀ text ∈ [o, fenced lang w w' o, p ++ o ++ s, p ++ fenced lang w w' o ++ s],
      (parseResponse text).verdict = (validateResult (unmarshal o Result.zero).1).verdict

/-- A result that can be decoded means the same alone, in a code fence, between prose and in
a code fence between prose exactly if it has no three backticks in a row. -/
theorem meansTheSame_iff (ho : ObjectText ms o) (hok : (unmarshal o Result.zero).2 = true) :
    MeansTheSame o ↔ ¬fence <:+: o := by
  constructor
  · intro hall hin
    have hspace : ∀ c ∈ ([] : GoString), reSpace c = true := by simp
    obtain ⟨lang, hlang, hne⟩ :=
      exists_verdict_ne ho hin (validateResult (unmarshal o Result.zero).1).verdict
    exact hne (hall [] [] lang [] [] prose_nil prose_nil hlang hspace hspace _ (by simp))
  · intro hno p s lang w w' hp hs hlang hw hw' text htext
    simp only [List.mem_cons, List.not_mem_nil, or_false] at htext
    rcases htext with htext | htext | htext | htext
    · have halone := parseResponse_prose ho hok hno prose_nil prose_nil
      rw [List.nil_append, List.append_nil] at halone
      rw [htext, halone, verdict_finish]
    · have halone := parseResponse_fenced_prose (s := []) ho hok hno prose_nil hlang hw hw'
      rw [List.nil_append, List.append_nil] at halone
      rw [htext, halone, verdict_finish]
    · rw [htext, parseResponse_prose ho hok hno hp hs, verdict_finish]
    · rw [htext, parseResponse_fenced_prose ho hok hno hp hlang hw hw', verdict_finish]

/-- A result with one backtick in its reasoning. -/
theorem meansTheSame_iff_backtick :
    MeansTheSame "\x7b\"classification\":\"benign\",\"reasoning\":\"uses `sh`\"\x7d".toList ↔
      ¬fence <:+: "\x7b\"classification\":\"benign\",\"reasoning\":\"uses `sh`\"\x7d".toList := by
  obtain ⟨ms, ho⟩ := exists_objectText
    (o := "\x7b\"classification\":\"benign\",\"reasoning\":\"uses `sh`\"\x7d".toList)
    (by decide +kernel) (by decide +kernel) (by decide +kernel)
  exact meansTheSame_iff ho (by decide +kernel)

/-- A malicious verdict that quotes a command between backticks is lost in a code fence. -/
theorem not_meansTheSame_quoted :
    ¬∀ (ms : List (GoString × Json.Value)) (o : GoString), ObjectText ms o →
      (unmarshal o Result.zero).2 = true → MeansTheSame o := by
  intro hall
  obtain ⟨ms, ho⟩ := exists_objectText
    (o := "\x7b\"classification\":\"malicious\",\"confidence\":1,".toList ++
      "\"reasoning\":\"runs ```curl``` on install\"\x7d".toList)
    (by decide +kernel) (by decide +kernel) (by decide +kernel)
  have hspace : ∀ c ∈ ['\n'], reSpace c = true := by simp [reSpace]
  have hsame := hall ms _ ho (by decide +kernel) [] [] "json".toList ['\n'] ['\n'] prose_nil
    prose_nil (by simp [fenceTags]) hspace hspace _ (List.mem_cons_of_mem _ List.mem_cons_self)
  exact absurd (congrArg Prod.fst hsame) (by decide +kernel)

end

end Llm
end Veilence

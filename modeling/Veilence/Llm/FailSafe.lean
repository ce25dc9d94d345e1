import Veilence.Llm.Wrapping

/-!
# What a benign verdict rests on

All decodings of an answer share one result, so a text with a field of the wrong kind can
leave its classification to a later text that has none.  {lit}`FailSafe` says that this does
not happen, {lit}`Leftover` when it does.

Main results:

- Theorem {lit}`parseResponse_valid`: every result is well formed.
- Theorem {lit}`failSafe_iff`: a benign verdict is that of the decoded text exactly if no
  classification is left over.
-/

namespace Veilence
namespace Llm

open Go

/-! ## Well-formed results -/

/-- A result that {lit}`ValidateResult` may return, read from the answer. -/
structure WellFormed (rawResponse : GoString) (result : Result) : Prop where
  classification : result.classification ∈ validClassifications
  confidence : 0 ≤ result.confidence ∧ result.confidence ≤ 1
  reasoning : result.reasoning ≠ []
  rawResponse : result.rawResponse = rawResponse

theorem validateClassification_mem (result : Result) :
    (validateClassification result).classification ∈ validClassifications := by
  unfold validateClassification
  by_cases hvalid : result.classification ∈ validClassifications
  · rw [if_pos hvalid]
    exact hvalid
  · rw [if_neg hvalid]
    simp [validClassifications]

theorem clampConfidence_range (q : Rat) : 0 ≤ clampConfidence q ∧ clampConfidence q ≤ 1 := by
  unfold clampConfidence
  dsimp only
  split_ifs with hlow hhigh hhigh
  · exact ⟨zero_le_one, le_refl 1⟩
  · exact ⟨le_refl 0, zero_le_one⟩
  · exact ⟨zero_le_one, le_refl 1⟩
  · exact ⟨not_lt.mp hlow, not_lt.mp hhigh⟩

theorem wellFormed_finish (rawResponse : GoString) (result : Result) :
    WellFormed rawResponse (finish rawResponse result) where
  classification := validateClassification_mem _
  confidence := clampConfidence_range _
  reasoning := by
    unfold finish validateResult
    dsimp only
    split_ifs with hempty
    · simp
    · exact hempty
  rawResponse := by
    unfold finish validateResult validateClassification
    dsimp only
    split_ifs <;> rfl

theorem suspicious_mem : "suspicious".toList ∈ validClassifications := by
  simp [validClassifications]

theorem half_range : (0 : Rat) ≤ 1 / 2 ∧ (1 / 2 : Rat) ≤ 1 := by
  norm_num

theorem wellFormed_fallback (rawResponse : GoString) :
    WellFormed rawResponse (fallback rawResponse) where
  classification := suspicious_mem
  confidence := half_range
  reasoning := by
    change "Failed to parse LLM response. Raw: ".toList ++ rawResponse ≠ []
    simp
  rawResponse := rfl

/-- Every result is well formed. -/
theorem parseResponse_valid (rawResponse : GoString) :
    WellFormed rawResponse (parseResponse rawResponse) := by
  rw [parseResponse_eq]
  generalize Result.zero = result
  induction attempts (trimSpace rawResponse) generalizing result with
  | nil => exact wellFormed_fallback rawResponse
  | cons t texts ih =>
      rw [decodeFirst]
      split_ifs
      · exact wellFormed_finish rawResponse _
      · exact ih _

/-- Only a benign classification becomes benign. -/
theorem finish_benign (rawResponse : GoString) (result : Result) :
    (finish rawResponse result).classification = "benign".toList ↔
      result.classification = "benign".toList := by
  have heq : (finish rawResponse result).classification =
      if result.classification ∈ validClassifications then result.classification
      else "suspicious".toList := by
    unfold finish validateResult validateClassification
    dsimp only
    split_ifs <;> rfl
  rw [heq]
  split_ifs with hvalid
  · exact Iff.rfl
  · constructor
    · intro h
      exact absurd h (by decide)
    · intro h
      exact absurd (by rw [h]; simp [validClassifications]) hvalid

/-! ## The classification of a text -/

/-- The classification in a member of an object. -/
def classificationMember (m : GoString × Json.Value) : Option GoString :=
  match fieldOf (Json.unquote m.1), m.2 with
  | some .classification, .string body => some (Json.unquote body)
  | _, _ => none

/-- The classification in an object, the last one if there are several. -/
def classificationOf (ms : List (GoString × Json.Value)) : Option GoString :=
  (ms.filterMap classificationMember).getLast?

/-- The classification that a text contains. -/
def ownClassification (text : GoString) : Option GoString :=
  match Json.readText text with
  | some (.object ms) => classificationOf ms
  | _ => none

/-- Only a classification of its own replaces the classification of a field. -/
theorem storeField_classification {result result' : Result} {key : GoString} {field : Field}
    {v : Json.Value} (hfield : fieldOf (Json.unquote key) = some field)
    (hstore : storeField result field v = some result') :
    result'.classification = (classificationMember (key, v)).getD result.classification := by
  cases field <;> cases v <;>
    simp only [storeField, Option.some.injEq, Option.map_eq_some_iff, reduceCtorEq] at hstore <;>
    simp only [classificationMember, hfield, Option.getD_none, Option.getD_some]
  all_goals first
    | (subst hstore; rfl)
    | (obtain ⟨q, -, hq⟩ := hstore; subst hq; rfl)

/-- A value that does not fit is no classification. -/
theorem classificationMember_of_none {result : Result} {key : GoString} {field : Field}
    {v : Json.Value} (hfield : fieldOf (Json.unquote key) = some field)
    (hstore : storeField result field v = none) : classificationMember (key, v) = none := by
  cases field <;> cases v <;> simp [storeField] at hstore <;> simp [classificationMember, hfield]

/-- The classification after an object is its own, or the one before. -/
theorem storeMembers_classification (result : Result) (ms : List (GoString × Json.Value)) :
    (storeMembers result ms).1.classification =
      (classificationOf ms).getD result.classification := by
  -- The classification after the first member is the one before the others.
  have hcons : ∀ (m : GoString × Json.Value) (ms : List (GoString × Json.Value)) (c : GoString),
      (classificationOf (m :: ms)).getD c =
        (classificationOf ms).getD ((classificationMember m).getD c) := by
    intro m ms c
    unfold classificationOf
    rw [List.filterMap_cons]
    cases classificationMember m with
    | none => rfl
    | some own =>
        rw [List.getLast?_cons]
        rfl
  induction ms generalizing result with
  | nil => rfl
  | cons m ms ih =>
      obtain ⟨key, v⟩ := m
      rw [storeMembers, hcons]
      cases hfield : fieldOf (Json.unquote key) with
      | none =>
          have hnone : classificationMember (key, v) = none := by
            simp [classificationMember, hfield]
          rw [hnone]
          exact ih result
      | some field =>
          dsimp only
          cases hstore : storeField result field v with
          | none =>
              rw [classificationMember_of_none hfield hstore]
              exact ih result
          | some result' =>
              rw [← storeField_classification hfield hstore]
              exact ih result'

theorem unmarshal_classification (text : GoString) (result : Result) :
    (unmarshal text result).1.classification =
      (ownClassification text).getD result.classification := by
  unfold unmarshal ownClassification
  cases Json.readText text with
  | none => rfl
  | some v =>
      cases v with
      | object ms => exact storeMembers_classification result ms
      | _ => rfl

/-! ## What is left over -/

/-- Whether a text can be decoded. -/
def decodes (text : GoString) : Bool :=
  (unmarshal text Result.zero).2

theorem unmarshal_snd_eq (text : GoString) (result : Result) :
    (unmarshal text result).2 = decodes text :=
  unmarshal_snd text result Result.zero

/-- Without a text that can be decoded the result is the fallback. -/
theorem decodeFirst_of_find?_none {rawResponse : GoString} {result : Result}
    {texts : List GoString} (hfind : texts.find? decodes = none) :
    decodeFirst rawResponse result texts = fallback rawResponse := by
  induction texts generalizing result with
  | nil => rfl
  | cons t texts ih =>
      rw [List.find?_cons] at hfind
      rw [decodeFirst, unmarshal_snd_eq]
      cases hdecodes : decodes t with
      | true => simp [hdecodes] at hfind
      | false =>
          rw [hdecodes] at hfind
          rw [if_neg Bool.false_ne_true]
          exact ih hfind

/-- The object that is extracted from the text of an object is that object. -/
theorem readText_extracted {text t : GoString} {ms : List (GoString × Json.Value)}
    (hread : Json.readText text = some (.object ms)) (hextract : extractJSONObject text = some t) :
    Json.readText t = some (.object ms) := by
  obtain ⟨w, t', w', hw, hw', htext, ht'⟩ := Json.readText_eq_some_iff.mp hread
  have hfound := extractJSONObject_object.1 w t' w' _ ms (not_mem_ws hw rfl) ht'
  rw [← htext, hextract] at hfound
  rw [Option.some.inj hfound]
  exact readText_object ht'

/-- If the object in a text can be decoded but the text cannot, the text leaves no trace. -/
theorem unmarshal_of_extracted {text t : GoString} (hextract : extractJSONObject text = some t)
    (ht : decodes t = true) (htext : decodes text = false) (result : Result) :
    unmarshal text result = (result, false) := by
  unfold decodes unmarshal at ht htext
  unfold unmarshal
  cases hread : Json.readText text with
  | none => rfl
  | some v =>
      cases v with
      | object ms =>
          rw [readText_extracted hread hextract] at ht
          rw [hread] at htext
          rw [ht] at htext
          exact absurd htext.symm Bool.false_ne_true
      | null =>
          rw [hread] at htext
          exact absurd htext.symm Bool.false_ne_true
      | _ => rfl

/-- The text that is decoded in the end. -/
def decidedText (rawResponse : GoString) : Option GoString :=
  (attempts (trimSpace rawResponse)).find? decodes

/-- The result is well formed, and a benign one has its classification from the text that
is decoded in the end. -/
structure FailSafe (rawResponse : GoString) : Prop where
  wellFormed : WellFormed rawResponse (parseResponse rawResponse)
  grounded : (parseResponse rawResponse).classification = "benign".toList →
    ∃ t, decidedText rawResponse = some t ∧ ownClassification t = some "benign".toList

/-- The answer is a benign object with a field of the wrong kind, and the text in its fence,
or the object in that text, can be decoded and has no classification. -/
structure Leftover (trimmed t : GoString) : Prop where
  benign : ownClassification trimmed = some "benign".toList
  mismatch : decodes trimmed = false
  inner : t = stripMarkdownFences trimmed ∨
    extractJSONObject (stripMarkdownFences trimmed) = some t
  decoded : decodes t = true
  unclassified : ownClassification t = none

/-- The attempts after the first one. -/
def laterAttempts (trimmed : GoString) : List GoString :=
  (if stripMarkdownFences trimmed ≠ trimmed then [stripMarkdownFences trimmed] else []) ++
    (extractJSONObject (stripMarkdownFences trimmed)).toList

/-- The first of the later attempts that can be decoded decides, and the others leave no
trace. -/
theorem decodeFirst_laterAttempts {trimmed t : GoString}
    (hfind : (laterAttempts trimmed).find? decodes = some t) (rawResponse : GoString)
    (result : Result) :
    decodeFirst rawResponse result (laterAttempts trimmed) =
      finish rawResponse (unmarshal t result).1 := by
  -- One attempt that can be decoded, whatever follows.
  have hnow : ∀ t texts, decodes t = true → decodeFirst rawResponse result (t :: texts) =
      finish rawResponse (unmarshal t result).1 := by
    intro t texts ht
    rw [decodeFirst, unmarshal_snd_eq, if_pos ht]
  unfold laterAttempts at hfind ⊢
  generalize stripMarkdownFences trimmed = stripped at hfind ⊢
  have hextracted : ∀ e, extractJSONObject stripped = some e → decodes e = true →
      decodes stripped = false →
      decodeFirst rawResponse result [stripped, e] = finish rawResponse (unmarshal e result).1 := by
    intro e hextract he hstripped
    rw [decodeFirst, unmarshal_snd_eq, hstripped, if_neg Bool.false_ne_true,
      unmarshal_of_extracted hextract he hstripped result]
    exact hnow e [] he
  split_ifs at hfind ⊢ with hne
  · cases hextract : extractJSONObject stripped with
    | none =>
        rw [hextract] at hfind
        have hmem := List.mem_of_find?_eq_some hfind
        have ht : t = stripped := by simpa using hmem
        rw [ht] at hfind ⊢
        exact hnow stripped _ (List.find?_some hfind)
    | some e =>
        rw [hextract, Option.toList_some, List.singleton_append, List.find?_cons] at hfind
        cases hstripped : decodes stripped with
        | true =>
            rw [hstripped] at hfind
            rw [← Option.some.inj hfind]
            exact hnow stripped _ hstripped
        | false =>
            rw [hstripped] at hfind
            have ht : t = e := by simpa using List.mem_of_find?_eq_some hfind
            rw [ht] at hfind ⊢
            exact hextracted e hextract (List.find?_some hfind) hstripped
  · cases hextract : extractJSONObject stripped with
    | none =>
        rw [hextract] at hfind
        exact absurd hfind.symm (Option.some_ne_none t)
    | some e =>
        rw [hextract] at hfind
        have ht : t = e := by simpa using List.mem_of_find?_eq_some hfind
        rw [ht] at hfind ⊢
        exact hnow e [] (List.find?_some hfind)

/-- What is left over comes from an attempt after the first one. -/
theorem Leftover.exists_later {trimmed t : GoString} (h : Leftover trimmed t) :
    ∃ t', (laterAttempts trimmed).find? decodes = some t' ∧ ownClassification t' = none := by
  have hdecoded := h.decoded
  have hnone := h.unclassified
  unfold laterAttempts
  by_cases hsame : stripMarkdownFences trimmed = trimmed
  · -- Without a fence only the extracted object is left.
    rw [hsame, if_neg (by simp), List.nil_append]
    rcases h.inner with hinner | hinner
    · rw [hinner, hsame, h.mismatch] at hdecoded
      exact absurd hdecoded Bool.false_ne_true
    · rw [hsame] at hinner
      exact ⟨t, by simp [hinner, hdecoded], hnone⟩
  · rw [if_pos hsame, List.singleton_append, List.find?_cons]
    cases hstripped : decodes (stripMarkdownFences trimmed) with
    | true =>
        refine ⟨_, rfl, ?_⟩
        rcases h.inner with hinner | hinner
        · rw [← hinner]
          exact hnone
        · -- The extracted object is the whole text.
          unfold ownClassification
          cases hread : Json.readText (stripMarkdownFences trimmed) with
          | none => rfl
          | some v =>
              cases v with
              | object ms =>
                  unfold ownClassification at hnone
                  rw [readText_extracted hread hinner] at hnone
                  exact hnone
              | _ => rfl
    | false =>
        rcases h.inner with hinner | hinner
        · rw [hinner, hstripped] at hdecoded
          exact absurd hdecoded Bool.false_ne_true
        · exact ⟨t, by simp [hinner, hdecoded], hnone⟩

/-- One of the later attempts is the text in the fence or the object in it. -/
theorem of_mem_laterAttempts {trimmed t : GoString} (ht : t ∈ laterAttempts trimmed) :
    t = stripMarkdownFences trimmed ∨
      extractJSONObject (stripMarkdownFences trimmed) = some t := by
  unfold laterAttempts at ht
  rcases List.mem_append.mp ht with ht | ht
  · split_ifs at ht with hne
    · exact Or.inl (List.mem_singleton.mp ht)
    · exact absurd ht List.not_mem_nil
  · exact Or.inr (Option.mem_toList.mp ht)

theorem benign_ne_nil : ([] : GoString) ≠ "benign".toList := by
  simp

/-- A benign verdict is that of the decoded text exactly if no classification is left
over. -/
theorem failSafe_iff (rawResponse : GoString) :
    FailSafe rawResponse ↔ ¬∃ t, Leftover (trimSpace rawResponse) t := by
  have hparse := parseResponse_eq rawResponse
  have hattempts : attempts (trimSpace rawResponse) =
      trimSpace rawResponse :: laterAttempts (trimSpace rawResponse) := rfl
  have hdecided : decidedText rawResponse = (attempts (trimSpace rawResponse)).find? decodes := rfl
  rw [hattempts, decodeFirst, unmarshal_snd_eq] at hparse
  rw [hattempts, List.find?_cons] at hdecided
  have hfirst := unmarshal_classification (trimSpace rawResponse) Result.zero
  cases hdirect : decodes (trimSpace rawResponse) with
  | true =>
      rw [hdirect, if_pos rfl] at hparse
      rw [hdirect] at hdecided
      constructor
      · rintro - ⟨t, h⟩
        rw [h.mismatch] at hdirect
        exact absurd hdirect Bool.false_ne_true
      · refine fun _ => ⟨parseResponse_valid rawResponse, fun hbenign => ⟨_, hdecided, ?_⟩⟩
        rw [hparse, finish_benign, hfirst] at hbenign
        cases hown : ownClassification (trimSpace rawResponse) with
        | none =>
            rw [hown] at hbenign
            exact absurd hbenign benign_ne_nil
        | some own =>
            rw [hown] at hbenign
            exact congrArg some hbenign
  | false =>
      rw [hdirect, if_neg Bool.false_ne_true] at hparse
      rw [hdirect] at hdecided
      dsimp only at hdecided
      -- What the later attempts begin with.
      generalize (unmarshal (trimSpace rawResponse) Result.zero).1 = result at hparse hfirst
      constructor
      · rintro hsafe ⟨t, h⟩
        obtain ⟨t', hfind, hnone⟩ := h.exists_later
        have hlater := decodeFirst_laterAttempts hfind rawResponse result
        have hbenign : (parseResponse rawResponse).classification = "benign".toList := by
          rw [hparse, hlater, finish_benign, unmarshal_classification, hnone, hfirst, h.benign]
          rfl
        obtain ⟨t'', hdecides, hown⟩ := hsafe.grounded hbenign
        rw [hdecided, hfind] at hdecides
        rw [← Option.some.inj hdecides, hnone] at hown
        exact absurd hown.symm (Option.some_ne_none _)
      · intro hno
        refine ⟨parseResponse_valid rawResponse, fun hbenign => ?_⟩
        cases hfind : (laterAttempts (trimSpace rawResponse)).find? decodes with
        | none =>
            rw [hparse, decodeFirst_of_find?_none hfind] at hbenign
            have hne : "suspicious".toList ≠ "benign".toList := by decide
            exact absurd hbenign hne
        | some t =>
            rw [hparse, decodeFirst_laterAttempts hfind, finish_benign,
              unmarshal_classification] at hbenign
            refine ⟨t, by rw [hdecided, hfind], ?_⟩
            cases hown : ownClassification t with
            | some own =>
                rw [hown] at hbenign
                exact congrArg some hbenign
            | none =>
                rw [hown, Option.getD_none, hfirst] at hbenign
                exfalso
                refine hno ⟨t, ?_, hdirect, of_mem_laterAttempts (List.mem_of_find?_eq_some hfind),
                  List.find?_some hfind, hown⟩
                cases hfirstOwn : ownClassification (trimSpace rawResponse) with
                | none =>
                    rw [hfirstOwn] at hbenign
                    exact absurd hbenign benign_ne_nil
                | some own =>
                    rw [hfirstOwn] at hbenign
                    exact congrArg some hbenign

/-- A benign answer with a confidence of the wrong kind that quotes an empty object between
backticks. -/
theorem not_failSafe_quoted :
    ¬∀ rawResponse : GoString, FailSafe rawResponse := by
  intro hall
  have hsafe := hall ("\x7b\"classification\":\"benign\",\"confidence\":\"high\",".toList ++
    "\"reasoning\":\"```\x7b\x7d```\"\x7d".toList)
  obtain ⟨t, hdecided, hown⟩ := hsafe.grounded (by decide +kernel)
  have hempty : decidedText ("\x7b\"classification\":\"benign\",\"confidence\":\"high\",".toList ++
      "\"reasoning\":\"```\x7b\x7d```\"\x7d".toList) = some "\x7b\x7d".toList := by
    decide +kernel
  rw [hempty] at hdecided
  rw [← Option.some.inj hdecided] at hown
  exact absurd hown (by decide +kernel)

end Llm
end Veilence

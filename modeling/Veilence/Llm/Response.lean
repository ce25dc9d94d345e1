import Veilence.Go.JsonScalars
import Veilence.Go.Regexp
import Veilence.Llm.Extract

/-!
# Parsing the answer of a language model

{lit}`ParseResponse` and {lit}`ValidateResult`.  The answer is decoded up to three times
into one result: as it is, without its code fence and as the first object in it.  A text
that is no JSON leaves the result as it was, while one with a field of the wrong kind
stores the other fields before it fails.

Main results:

- Theorem {lit}`unmarshal_snd`: whether a text can be decoded does not depend on the
  result it is decoded into.
- Theorem {lit}`parseResponse_eq`: the decoding that succeeds first decides.
-/

namespace Veilence
namespace Llm

open Go

/-! ## Results -/

/-- {lit}`Result`. -/
@[ext]
structure Result where
  classification : GoString
  confidence : Rat
  reasoning : GoString
  rawResponse : GoString
  deriving DecidableEq

/-- The zero {lit}`Result`. -/
def Result.zero : Result where
  classification := []
  confidence := 0
  reasoning := []
  rawResponse := []

/-- What a result says, without the answer that it was read from. -/
def Result.verdict (result : Result) : GoString × Rat × GoString :=
  (result.classification, result.confidence, result.reasoning)

/-- {lit}`validClassifications`. -/
def validClassifications : List GoString :=
  ["benign".toList, "suspicious".toList, "malicious".toList]

/-- The first step of {lit}`ValidateResult`: an invalid classification. -/
def validateClassification (result : Result) : Result :=
  if result.classification ∈ validClassifications then result
  else
    { result with
      classification := "suspicious".toList
      confidence := if 1 / 2 < result.confidence then 1 / 2 else result.confidence }

/-- The confidence between 0 and 1. -/
def clampConfidence (confidence : Rat) : Rat :=
  let confidence := if confidence < 0 then 0 else confidence
  if 1 < confidence then 1 else confidence

/-- {lit}`ValidateResult`. -/
def validateResult (result : Result) : Result :=
  let result := validateClassification result
  { result with
    confidence := clampConfidence result.confidence
    reasoning :=
      if result.reasoning = [] then "No reasoning provided by LLM.".toList
      else result.reasoning }

/-! ## Decoding into a result -/

/-- The fields of a result. -/
inductive Field where
  | classification
  | confidence
  | reasoning
  | rawResponse
  deriving DecidableEq

/-- {lit}`foldName` of {lit}`encoding/json`: names that differ only in the case of their
letters are the same.  Outside ASCII only U+017F and U+212A fold to an ASCII letter. -/
def foldName : GoString → GoString
  | [] => []
  | '\xc5' :: '\xbf' :: rest => 'S' :: foldName rest
  | '\xe2' :: '\x84' :: '\xaa' :: rest => 'K' :: foldName rest
  | c :: rest => c.toUpper :: foldName rest

/-- The field that a key names. -/
def fieldOf (key : GoString) : Option Field :=
  if foldName key = foldName "classification".toList then some .classification
  else if foldName key = foldName "confidence".toList then some .confidence
  else if foldName key = foldName "reasoning".toList then some .reasoning
  else if foldName key = foldName "rawResponse".toList then some .rawResponse
  else none

/-- Store a value in a field, nothing if the kinds do not fit.  A null is no change. -/
def storeField (result : Result) : Field → Json.Value → Option Result
  | _, .null => some result
  | .classification, .string body => some { result with classification := Json.unquote body }
  | .confidence, .number text =>
      (Json.parseFloat text).map fun q => { result with confidence := q }
  | .reasoning, .string body => some { result with reasoning := Json.unquote body }
  | .rawResponse, .string body => some { result with rawResponse := Json.unquote body }
  | _, _ => none

/-- Store the members of an object one after the other.  A member that does not fit its
field is passed over, and the decoding fails in the end. -/
def storeMembers (result : Result) : List (GoString × Json.Value) → Result × Bool
  | [] => (result, true)
  | (key, v) :: ms =>
      match fieldOf (Json.unquote key) with
      | none => storeMembers result ms
      | some field =>
          match storeField result field v with
          | some result => storeMembers result ms
          | none => ((storeMembers result ms).1, false)

/-- {lit}`json.Unmarshal` into a result: the result and whether there is no error. -/
def unmarshal (text : GoString) (result : Result) : Result × Bool :=
  match Json.readText text with
  | some (.object ms) => storeMembers result ms
  | some .null => (result, true)
  | _ => (result, false)

/-! ## The response -/

/-- The class {lit}`\s`. -/
def reSpace (c : Char) : Bool :=
  c = '\t' || c = '\n' || c = '\x0c' || c = '\r' || c = ' '

/-- Three backticks. -/
def fence : GoString :=
  "```".toList

/-- What {lit}`codeBlockRe` has after the group. -/
def codeBlockEnd : List Piece :=
  [.opt ['\n'], .greedy reSpace, .lit fence]

/-- What {lit}`codeBlockRe` has after the opening fence. -/
def codeBlockBody : List Piece :=
  .opt "json".toList :: .greedy reSpace :: .opt ['\n'] :: .lazy (fun _ => true) :: codeBlockEnd

/-- {lit}`codeBlockRe`. -/
def codeBlockRe : List Piece :=
  .lit fence :: codeBlockBody

/-- {lit}`stripMarkdownFences`: the text of the group, the fifth piece of the pattern. -/
def stripMarkdownFences (raw : GoString) : GoString :=
  match findSubmatch codeBlockRe raw with
  | some taken => trimSpace (taken.getD 4 [])
  | none => raw

/-- The result of a decoding that succeeded. -/
def finish (rawResponse : GoString) (result : Result) : Result :=
  validateResult { result with rawResponse := rawResponse }

/-- The result if nothing could be decoded. -/
def fallback (rawResponse : GoString) : Result where
  classification := "suspicious".toList
  confidence := 1 / 2
  reasoning := "Failed to parse LLM response. Raw: ".toList ++ rawResponse
  rawResponse := rawResponse

/-- {lit}`ParseResponse`. -/
def parseResponse (rawResponse : GoString) : Result :=
  let trimmed := trimSpace rawResponse
  let direct := unmarshal trimmed Result.zero
  if direct.2 then finish rawResponse direct.1
  else
    let stripped := stripMarkdownFences trimmed
    let inner := if stripped ≠ trimmed then unmarshal stripped direct.1 else (direct.1, false)
    if inner.2 then finish rawResponse inner.1
    else
      match extractJSONObject stripped with
      | some extracted =>
          let object := unmarshal extracted inner.1
          if object.2 then finish rawResponse object.1 else fallback rawResponse
      | none => fallback rawResponse

/-! ## The decoding that decides -/

/-- The texts that are decoded one after the other. -/
def attempts (trimmed : GoString) : List GoString :=
  let stripped := stripMarkdownFences trimmed
  trimmed :: ((if stripped ≠ trimmed then [stripped] else []) ++
    (extractJSONObject stripped).toList)

/-- Decode texts into one result until one succeeds. -/
def decodeFirst (rawResponse : GoString) (result : Result) : List GoString → Result
  | [] => fallback rawResponse
  | text :: texts =>
      if (unmarshal text result).2 then finish rawResponse (unmarshal text result).1
      else decodeFirst rawResponse (unmarshal text result).1 texts

/-- {lit}`ParseResponse` decodes its attempts until one succeeds. -/
theorem parseResponse_eq (rawResponse : GoString) :
    parseResponse rawResponse =
      decodeFirst rawResponse Result.zero (attempts (trimSpace rawResponse)) := by
  unfold parseResponse attempts
  dsimp only
  generalize stripMarkdownFences (trimSpace rawResponse) = stripped
  by_cases hstripped : stripped ≠ trimSpace rawResponse
  · simp only [if_pos hstripped]
    cases extractJSONObject stripped with
    | none => simp [decodeFirst]
    | some extracted => simp [decodeFirst]
  · simp only [if_neg hstripped]
    cases extractJSONObject stripped with
    | none => simp [decodeFirst]
    | some extracted => simp [decodeFirst]

/-- The values that fit a field. -/
def fits : Field → Json.Value → Bool
  | _, .null => true
  | .confidence, .number text => (Json.parseFloat text).isSome
  | .confidence, _ => false
  | _, .string _ => true
  | _, _ => false

theorem isSome_storeField (result : Result) (field : Field) (v : Json.Value) :
    (storeField result field v).isSome = fits field v := by
  cases field <;> cases v <;> simp [storeField, fits]

/-- Whether the members of an object fit does not depend on the result. -/
theorem storeMembers_snd (result result' : Result) (ms : List (GoString × Json.Value)) :
    (storeMembers result ms).2 = (storeMembers result' ms).2 := by
  induction ms generalizing result result' with
  | nil => rfl
  | cons m ms ih =>
      obtain ⟨key, v⟩ := m
      rw [storeMembers, storeMembers]
      cases hfield : fieldOf (Json.unquote key) with
      | none => exact ih result result'
      | some field =>
          have hsome := isSome_storeField result field v
          have hsome' := isSome_storeField result' field v
          rw [← hsome'] at hsome
          dsimp only
          cases hstore : storeField result field v with
          | none =>
              cases hstore' : storeField result' field v with
              | none => rfl
              | some r' => simp [hstore, hstore'] at hsome
          | some r =>
              cases hstore' : storeField result' field v with
              | none => simp [hstore, hstore'] at hsome
              | some r' => exact ih r r'

/-- Whether a text can be decoded does not depend on the result it is decoded into. -/
theorem unmarshal_snd (text : GoString) (result result' : Result) :
    (unmarshal text result).2 = (unmarshal text result').2 := by
  unfold unmarshal
  split
  · exact storeMembers_snd result result' _
  · rfl
  · rfl

/-- A text that is no JSON leaves the result as it was. -/
theorem unmarshal_of_none {text : GoString} (htext : Json.readText text = none)
    (result : Result) : unmarshal text result = (result, false) := by
  simp [unmarshal, htext]

end Llm
end Veilence

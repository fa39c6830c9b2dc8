import Clear.Ai.Retrieval.Context
import Clear.Lib.Scan
import Mathlib.Algebra.Order.Field.Rat
import Mathlib.Data.List.Dedup

/-!
# RAG engine

`app/ai/rag/engine.py`: an answer is generated from a context package, or streamed and validated once
the stream completes. What the model does with the prompt is given. Models, tokens, cost and latency
are left out.
-/

namespace Clear

namespace Rag

open Retrieval

/-- `round(x, digits)` of an exact number: halves go to the even neighbour. -/
def roundTo (digits : Nat) (x : Rat) : Rat :=
  let scaled := x * 10 ^ digits
  let floor := scaled.floor
  let rest := scaled - floor
  (if rest < 1 / 2 || (rest = 1 / 2 && floor % 2 = 0) then floor else floor + 1 : Int) / 10 ^ digits

/-! ## Citation labels -/

/-- `int(part.strip())` of a number that was matched; absent where it raises a `ValueError`: more
than 4300 digits are refused. -/
def label? (value digits : Nat) : Option Nat := if digits ≤ 4300 then some value else none

/-- Where the match of `\d+(?:\s*,\s*\d+)*` stands: before its first digit, in or after a number, or
after a comma. -/
inductive Phase where
  | first | comma
  | number (value digits : Nat)
  | after (label : Option Nat)

/-- What a character does to a group: it is no part of one, closes it, or is read. -/
inductive Move where
  | stop
  | close (labels : List (Option Nat))
  | go (labels : List (Option Nat)) (phase : Phase)

def move (labels : List (Option Nat)) (phase : Phase) (c : Char) : Move :=
  match phase, Text.digit? c with
  | .first, some d | .comma, some d => .go labels (.number d 1)
  | .number value digits, some d => .go labels (.number (10 * value + d) (digits + 1))
  | .after _, some _ => .stop
  | .first, none => .stop
  | .comma, none => if Text.isSpace c then .go labels .comma else .stop
  | .number value digits, none =>
    if c = ']' then .close (labels ++ [label? value digits])
    else if c = ',' then .go (labels ++ [label? value digits]) .comma
    else if Text.isSpace c then .go labels (.after (label? value digits))
    else .stop
  | .after label, none =>
    if c = ',' then .go (labels ++ [label]) .comma
    else if Text.isSpace c then .go labels (.after label)
    else .stop

def group (labels : List (Option Nat)) (phase : Phase) :
    List Char → Option (List (Option Nat) × List Char)
  | [] => none
  | c :: cs =>
    match move labels phase c with
    | .stop => none
    | .close read => some (read, cs)
    | .go labels phase => group labels phase cs

/-- The match of `_CITATION` at the start of a text, and what follows it. -/
def matchAt : List Char → Option (List (Option Nat) × List Char)
  | [] => none
  | c :: cs => if c = '[' then group [] .first cs else none

def bracketedLabels (text : String) : List (Option Nat) :=
  (Scan.found (Scan.scan matchAt text.toList)).flatten

def citedLabels (text : String) : List Nat := (bracketedLabels text).filterMap id

def invalidLabels (text : String) (valid : List Nat) : List Nat :=
  ((citedLabels text).filter (· ∉ valid)).dedup.insertionSort (· ≤ ·)

def bracketed (label : Nat) : String := "[" ++ toString label ++ "]"

def resolving (invalid : List Nat) (labels : List (Option Nat)) : List Nat :=
  (labels.filterMap id).filter (· ∉ invalid)

/-- Remove unresolvable labels while leaving valid ones intact. -/
def stripLabels (text : String) (invalid : List Nat) : String :=
  String.ofList
    (Scan.sub (fun label => (bracketed label).toList) (resolving invalid) matchAt text.toList)

example : citedLabels "a [1][2, 7] [x] [3 ]" = [1, 2, 7] := by decide +kernel

example : stripLabels "a [1][2, 7] [9]" [7, 9] = "a [1][2] " := by decide +kernel

/-! ## Answers -/

/-- What the model does with a prompt. `generate` sees a text whole, `stream` in tokens; a refusal
may come after some tokens; `ProviderError` comes before the first. -/
inductive Generation where
  | text (tokens : List String)
  | refusal (tokens : List String)
  | failure (error : String)

structure Answer where
  text : String
  citations : List Citation := []
  confidence : Rat := 0
  confidenceBand : ConfidenceBand := .low
  refused : Bool := false
  invalidCitations : List Nat := []
  warnings : List String := []
  needsReview : Bool := false

def bandOf (score : Rat) : ConfidenceBand :=
  if 4 / 5 ≤ score then .high else if 11 / 20 ≤ score then .medium else .low

def trivialAnswerChars : Nat := 160

def nonAnswerMarkers : List String :=
  ["does not address", "does not say", "does not specify", "does not contain", "is silent",
    "no evidence", "not covered by the retrieved", "retrieved material does not", "cannot answer",
    "could not find", "insufficient evidence", "no supporting evidence"]

def evidenceStrength (citations : List Citation) : Rat :=
  let measured := citations.filterMap fun c => c.rerankScore.or c.similarity
  -- evidence found by keyword only is unmeasured, not weak
  if measured.isEmpty then 1 / 2 else max 0 (min (measured.sum / measured.length) 1)

/-- Score how well grounded the answer is. -/
def confidenceOf (answer : Answer) (package : ContextPackage) (honestNonAnswer : Bool) : Rat :=
  if answer.refused then 0
  else if honestNonAnswer && answer.citations.isEmpty then
    if package.citations.isEmpty then 3 / 5 else 3 / 4
  else if answer.citations.isEmpty then 3 / 20
  else
    let offered := max package.citations.length 1
    let coverage : Rat := min (answer.citations.length / (min offered 5 : Nat)) 1
    let score := 11 / 20 * coverage + 9 / 20 * evidenceStrength answer.citations
    let score := if answer.invalidCitations.isEmpty then score else score / 2
    let score := if package.dropped = 0 then score else score * (9 / 10)
    roundTo 4 (max 0 (min score 1))

def withdrawnWarning (invalid : List Nat) : String :=
  "The answer cited " ++ toString invalid.length ++ " source(s) that were not provided (" ++
    ", ".intercalate (invalid.map bracketed) ++
    "); those references were removed. Verify the answer against the cited pages."

def uncitedWarning : String :=
  "The answer cites no supporting evidence, so it cannot be verified against the source documents."

def subsetWarning (dropped : Nat) : String :=
  toString dropped ++ " retrieved passage(s) did not fit the context budget; this answer is based " ++
    "on the highest-scoring subset."

def answerText (text : String) (package : ContextPackage) : String :=
  let text := Text.strip text
  let invalid := invalidLabels text package.validLabels
  if invalid.isEmpty then text else stripLabels text invalid

/-- Check the answer's citations and score its grounding. -/
def validate (std : Stdlib) (text : String) (package : ContextPackage) : Answer :=
  let cited := citedLabels (Text.strip text)
  let invalid := invalidLabels (Text.strip text) package.validLabels
  let final := answerText text package
  let honestNonAnswer := nonAnswerMarkers.any (Text.contains · (std.lower final))
  let uncited := trivialAnswerChars < final.length &&
    cited.all (· ∉ package.validLabels) && !honestNonAnswer
  let answer : Answer :=
    { text := final
      invalidCitations := invalid
      citations := package.citations.filter (·.label ∈ cited) }
  let confidence := confidenceOf answer package honestNonAnswer
  { answer with
    confidence
    confidenceBand := bandOf confidence
    needsReview := !invalid.isEmpty || uncited || bandOf confidence = .low
    warnings :=
      (if invalid.isEmpty then [] else [withdrawnWarning invalid]) ++
      (if uncited then [uncitedWarning] else []) ++
      (if package.dropped = 0 then [] else [subsetWarning package.dropped]) ++ package.warnings }

@[simp] theorem validate_text (std : Stdlib) (text : String) (package : ContextPackage) :
    (validate std text package).text = answerText text package := by
  unfold validate
  dsimp only

@[simp] theorem validate_invalid (std : Stdlib) (text : String) (package : ContextPackage) :
    (validate std text package).invalidCitations =
      invalidLabels (Text.strip text) package.validLabels := by
  unfold validate
  dsimp only

@[simp] theorem validate_refused (std : Stdlib) (text : String) (package : ContextPackage) :
    (validate std text package).refused = false := by
  unfold validate
  dsimp only

def refusedText : String :=
  "The model declined to answer this question. This can happen when contract language resembles a " ++
    "restricted topic. Rephrasing the question, or narrowing it to a specific clause, usually " ++
    "resolves it."

/-- A first-class outcome, not an exception. -/
def refusedAnswer : Answer := { text := refusedText, refused := true, needsReview := true }

def emptyAnswer (package : ContextPackage) : Answer where
  text :=
    "I could not find anything in the accessible contracts that answers this question. It may help " ++
      "to name a specific contract or clause, widen the date range, or check that the relevant " ++
      "document has finished processing."
  warnings := package.warnings

/-- `RAGEngine.answer`; the error is a `ProviderError`. -/
def answer (std : Stdlib) (package : ContextPackage) (generation : Generation) :
    Except String Answer :=
  if package.isEmpty then .ok (emptyAnswer package)
  else
    match generation with
    | .failure error => .error error
    | .refusal _ => .ok refusedAnswer
    | .text tokens => .ok (validate std (String.join tokens) package)

structure TokenStream where
  tokens : List String
  raised : Option String := none

def Generation.tokenStream : Generation → TokenStream
  | .text tokens | .refusal tokens => { tokens }
  | .failure error => { tokens := [], raised := some error }

def stream (package : ContextPackage) (generation : Generation) : Option TokenStream :=
  if package.isEmpty then none else some generation.tokenStream

end Rag

end Clear

/-!
## The prompt orchestrator

`PromptOrchestrator._user_message` (`app/ai/rag/orchestrator.py`): the volatile half of an answering
prompt. The tags of the evidence are fragments of their own.
-/

namespace Clear

namespace Rag

open Fragment Retrieval

def openTag : String := "<untrusted_evidence>"

def closeTag : String := "</untrusted_evidence>"

def historySection (std : Stdlib) (history : List Turn) : List Fragment :=
  join "\n" <| [[ours "CONVERSATION SO FAR:"], [ours ""]] ++ history.filterMap fun turn =>
    let content := Text.strip (turn.content.getD "")
    if content = "" then none
    else some [ours (std.upper (turn.role.getD "user") ++ ": " ++ content)]

def evidenceSection (nfkc : String → String) (package : ContextPackage) : List Fragment :=
  [ours "EVIDENCE:\n\n", ours openTag, ours "\n"] ++ package.renderEvidence nfkc ++
    [ours "\n", ours closeTag]

/-- What the model is told about evidence that is not there. -/
def notes (package : ContextPackage) : List (List Fragment) :=
  (if package.dropped = 0 then []
    else
      [[ours ("NOTE: " ++ toString package.dropped ++ " further passage(s) were retrieved but did " ++
        "not fit. If the evidence above is insufficient, say so rather than speculating about what " ++
        "the omitted material might contain.")]]) ++
  if package.citations.isEmpty then
    [[ours ("NOTE: no supporting evidence was retrieved for this question. Say that plainly and " ++
      "suggest how the question could be narrowed. Do not answer from general knowledge.")]]
  else []

def userMessage (std : Stdlib) (nfkc : String → String) (package : ContextPackage) : List Fragment :=
  join "\n\n" <|
    (if package.history.isEmpty then [] else [historySection std package.history]) ++
    (if package.metadataRows.isEmpty then [] else [package.renderMetadata std]) ++
    evidenceSection nfkc package :: (notes package ++ [[ours "QUESTION:\n\n", ours package.query]])

end Rag

end Clear

import Clear.Ai.Extraction.Models
import Clear.Lib.Dict
import Mathlib.Algebra.Order.Ring.Unbundled.Rat

/-!
# Extraction validation

The checks of one extracted item (`app/ai/extraction/validation.py`): its citations, its quote, its
confidence, and the conventions that hold for the attributes of every category. An item whose checks
record an error is dropped by the engine. The counters of the checks, from which a score is
computed, are left out.
-/

namespace Clear

structure FieldOutcome where
  issues : List ValidationIssue := []
  /-- Fields the validator corrected. -/
  corrections : ValueDict := []

namespace FieldOutcome

def error (o : FieldOutcome) (code message field : String) : FieldOutcome :=
  { o with issues := o.issues ++ [{ code, message, field := some field }] }

def warning (o : FieldOutcome) (code message field : String) : FieldOutcome :=
  { o with issues := o.issues ++ [{ code, message, field := some field, severity := "warning" }] }

def correct (o : FieldOutcome) (field : String) (value : Value) (reason : String) : FieldOutcome :=
  { o with corrections := Dict.assign o.corrections field value }.warning "auto_corrected"
    (field ++ " was corrected: " ++ reason) field

def errors (o : FieldOutcome) : List ValidationIssue := o.issues.filter (·.isError)

def hasErrors (o : FieldOutcome) : Bool := o.issues.any (·.isError)

def merge (o o' : FieldOutcome) : FieldOutcome where
  issues := o.issues ++ o'.issues
  corrections := o'.corrections.foldl (fun d e => Dict.assign d e.1 e.2) o.corrections

end FieldOutcome

/-- Everything validation needs beyond the payload itself. -/
structure ValidationContext where
  /-- Evidence the model was given. -/
  bundle : Option EvidenceBundle := none
  /-- Names that identify our own organisation. -/
  organisationAliases : List String := []
  /-- Extracted party names, normalised, mapped to whether they are ours. -/
  partySides : List (String × Bool) := []
  /-- `profile.validation_rules`. -/
  rules : ValueDict := []
  /-- Unset when the call carried no document evidence. -/
  requiresCitations : Bool := true

/-- The suffixes that a party name is compared without. -/
def companySuffixes : List String :=
  ["private", "pvt", "limited", "ltd", "llc", "inc", "incorporated", "corp", "corporation", "plc",
    "gmbh", "llp", "company", "co", "sa", "bv", "nv", "ag", "pte"]

def normalisePartyName (value : String) : String :=
  let keep (c : Char) : Bool := ('a' ≤ c && c ≤ 'z') || ('0' ≤ c && c ≤ '9') || c = ' '
  let lowered := String.ofList (Text.replaceRuns keep ' ' false (Text.lower value).toList)
  " ".intercalate ((Text.split lowered).filter (!companySuffixes.contains ·))

namespace ValidationContext

def allowedChunkIds (ctx : ValidationContext) : List String :=
  match ctx.bundle with
  | none => []
  | some bundle => bundle.chunkIds

def evidenceText (std : Stdlib) (ctx : ValidationContext) : String :=
  match ctx.bundle with
  | none => normaliseQuote std ""
  | some bundle => normaliseQuote std ("\n".intercalate (bundle.chunks.map (·.text)))

def evidenceWords (std : Stdlib) (ctx : ValidationContext) : List String :=
  Text.split (ctx.evidenceText std)

def rule (ctx : ValidationContext) (path : String) : Option Value :=
  (Text.splitOn '.' path).foldl
    (fun node part => node.bind fun v => v.asDict?.bind fun d => d.lookup part)
    (some (.dict ctx.rules))

def flag (ctx : ValidationContext) (path : String) (default : Bool) : Bool :=
  ((ctx.rule path).map Value.truthy).getD default

def isOurs (ctx : ValidationContext) (partyName : String) : Bool :=
  let needle := normalisePartyName partyName
  needle ≠ "" && ctx.organisationAliases.any fun known =>
    let candidate := normalisePartyName known
    candidate ≠ "" && (Text.contains candidate needle || Text.contains needle candidate)

end ValidationContext

namespace Validation

/-! ## Grounding checks -/

def checkCitations (std : Stdlib) (chunkIds : Value) (ctx : ValidationContext)
    (outcome : FieldOutcome) (fieldName : String) : List String × FieldOutcome :=
  if !ctx.requiresCitations then ([], outcome)
  else
    let ids := match chunkIds with
      | .list l => l.map (Value.text std)
      | _ => []
    if ids.isEmpty then
      ([], outcome.error "missing_citation"
        ("The item cites no evidence. Every extracted fact must reference the " ++
          "evidence block it came from.") fieldName)
    else
      let valid := ids.filter ctx.allowedChunkIds.contains
      let invented := ids.filter (!ctx.allowedChunkIds.contains ·)
      if invented.isEmpty then (valid, outcome)
      else
        (valid, outcome.error "unknown_evidence_citation"
          ("The item cites evidence ids that were not supplied: " ++
            ", ".intercalate (invented.take 5) ++
            ". A citation to evidence the model did not " ++
            "receive cannot be verified and the item is rejected.") fieldName)

/-- `_sequence_coverage`: the fraction of the words of `needle` matched, in order, inside
`haystack`. -/
def sequenceCoverage (std : Stdlib) (needle haystack : List String) : Rat :=
  if needle.isEmpty then 0
  else
    let blocks := std.matchingBlocks (needle.take 2000) (haystack.take 20000)
    min 1 ((CommonBlocks.total blocks : Rat) / (needle.take 2000).length)

def quoteMatchThreshold : Rat := 85 / 100

/-- Above this, a near-match is accepted silently. -/
def quoteCleanThreshold : Rat := 98 / 100

/-- `check_quote`: verify that quoted text appears in the supplied evidence. -/
def checkQuote (std : Stdlib) (quote : String) (ctx : ValidationContext) (outcome : FieldOutcome)
    (fieldName : String) : FieldOutcome :=
  if !ctx.requiresCitations || ctx.bundle.isNone then outcome
  else
    let stripped := Text.strip quote
    if stripped = "" then outcome.error "empty_quote" "The quoted clause text is empty." fieldName
    else
      let normalised := normaliseQuote std stripped
      if normalised ≠ "" && Text.contains normalised (ctx.evidenceText std) then outcome
      else
        let ratio := sequenceCoverage std (Text.split normalised) (ctx.evidenceWords std)
        -- white space or hyphenation noise from PDF extraction
        if quoteCleanThreshold ≤ ratio then outcome
        else if quoteMatchThreshold ≤ ratio then
          outcome.warning "quote_partially_matched"
            ("Only " ++ Text.percent ratio ++ " of the quoted text was found in the evidence. The " ++
              "wording may have been altered or joined across passages; verify before " ++
              "relying on it.") fieldName
        else
          outcome.error "quote_not_in_evidence"
            ("The quoted text does not appear in the supplied evidence (matched " ++
              Text.percent ratio ++ "). Rejected: extracted clause text must be a verbatim quote, " ++
              "never composed or paraphrased.") fieldName

/-- `check_confidence`: coerce and range-check a confidence value. An integer beyond the range of
`float` raises an `OverflowError`, which is not caught. -/
def checkConfidence (std : Stdlib) (value : Value) (outcome : FieldOutcome) :
    Except String (Rat × FieldOutcome) :=
  match value.toFloat std with
  | .error .overflowError => .error "int too large to convert to float"
  | .error _ =>
    .ok (0, outcome.warning "invalid_confidence"
      "Confidence was not a number; treated as zero and flagged for review." "confidence")
  | .ok confidence =>
    if 0 ≤ confidence ∧ confidence ≤ 1 then .ok (confidence, outcome)
    else
      let clamped := min (max confidence 0) 1
      .ok (clamped, outcome.warning "confidence_out_of_range"
        ("Confidence " ++ Value.text std (.float confidence) ++ " is outside 0..1; clamped to " ++
          Value.text std (.float clamped) ++ ".") "confidence")

/-! ## Generic attribute rules -/

def parseDate (value : Value) : Option Date :=
  match value with
  | .str s =>
    match (Text.strip s).toList with
    | [y₁, y₂, y₃, y₄, '-', m₁, m₂, '-', d₁, d₂] => do
      let thousands ← Text.digit? y₁
      let hundreds ← Text.digit? y₂
      let tens ← Text.digit? y₃
      let ones ← Text.digit? y₄
      -- `strptime` reads the month and the tens of the day in ASCII only
      let month ← if m₁.isDigit && m₂.isDigit then
        some ((m₁.toNat - 0x30) * 10 + (m₂.toNat - 0x30)) else none
      let dayTens ← if d₁.isDigit then some (d₁.toNat - 0x30) else none
      let dayOnes ← if dayTens = 1 || dayTens = 2 then Text.digit? d₂
        else if d₂.isDigit then some (d₂.toNat - 0x30) else none
      Date.ofYmd? (thousands * 1000 + hundreds * 100 + tens * 10 + ones) month
        (dayTens * 10 + dayOnes)
    | _ => none
  | _ => none

def durationSuffixes : List (String × String) :=
  [("_days", "days"), ("_months", "months"), ("_years", "years"), ("_hours", "hours")]

def durationUnit? (key : String) : Option String :=
  (durationSuffixes.find? fun e => Text.endsWith e.1 key).map (·.2)

def implausibleMonths : Rat := 1200

/-- The duration in months: days divide, and an integer whose quotient is beyond the range of `float`
raises an `OverflowError`. -/
def months (unit : String) (value : Value) (x : Rat) : Except String Rat :=
  if unit = "months" then .ok x
  else if unit = "days" then
    match value with
    | .int n =>
      if n.natAbs < 30 * Value.floatBound then .ok (x / 30)
      else .error "integer division result too large for a float"
    | _ => .ok (x / 30)
  else if unit = "years" then .ok (x * 12)
  else .ok 0

def checkDuration (std : Stdlib) (key : String) (value : Value) (outcome : FieldOutcome) :
    Except String FieldOutcome :=
  match durationUnit? key, value.num? with
  | some unit, some x =>
    let outcome := if 0 ≤ x then outcome
      else outcome.error "negative_duration"
        (key ++ " is " ++ Value.text std value ++ "; a duration cannot be negative.") key
    (months unit value x).map fun months =>
      if months = 0 ∨ months ≤ implausibleMonths then outcome
      else outcome.warning "implausible_duration"
        (key ++ " is " ++ Value.text std value ++ " " ++ unit ++
          ", which is implausibly long. Verify the units stated in the agreement.") key
  | _, _ => .ok outcome

def pairedCurrency (attributes : ValueDict) (amountKey : String) : Option String :=
  let stem := match Text.rsplit1 '_' amountKey with
    | some (stem, _) => stem
    | none => amountKey
  let stated (value : Value) : Option String :=
    match value with
    | .str s => if Text.isBlank s then none else some s
    | _ => none
  (stated (Value.get attributes (stem ++ "_currency"))).or
    ((stated (Value.get attributes "currency")).or
      (attributes.findSome? fun e => if Text.contains "currency" e.1 then stated e.2 else none))

def amountHints : List String := ["amount", "value", "fee", "price", "penalty", "premium"]

def dateFieldHints : List String := ["date", "deadline"]

def hinted (hints : List String) (key : String) : Bool := hints.any (Text.contains · key)

def exceedsCeiling (std : Stdlib) (maxValue : Value) (x : Rat) : Except String Bool :=
  if maxValue.truthy then
    match maxValue.toFloat std with
    | .ok ceiling => .ok (ceiling < x)
    | .error .typeError => .error "TypeError"
    | .error .valueError => .error "ValueError"
    | .error .overflowError => .error "OverflowError"
  else .ok false

def checkMoney (std : Stdlib) (ctx : ValidationContext) (attributes : ValueDict) (key : String)
    (value : Value) (outcome : FieldOutcome) : Except String FieldOutcome :=
  match value.real? with
  | some x =>
    if hinted amountHints key then
      let outcome := if 0 ≤ x then outcome
        else outcome.error "negative_amount"
          (key ++ " is " ++ Value.text std value ++ "; a monetary amount cannot be negative.") key
      (exceedsCeiling std ((ctx.rule "money.max_reasonable_value").getD .null) x).map fun exceeds =>
        let outcome := if exceeds then
            outcome.warning "implausible_amount"
              (key ++ " is " ++ Value.text std value ++
                ", above the configured plausibility ceiling. Verify the figure and its units.") key
          else outcome
        if ctx.flag "money.require_currency_with_amount" true &&
            (pairedCurrency attributes key).isNone then
          outcome.warning "amount_without_currency"
            (key ++ " has a value but no currency was stated, so the amount " ++
              "cannot be compared or reported.") key
        else outcome
    else .ok outcome
  | none => .ok outcome

def isCurrencyCode (std : Stdlib) (code : String) : Bool :=
  code.length = 3 && code.toList.all std.isAlpha

def checkCurrency (std : Stdlib) (key : String) (value : Value) (outcome : FieldOutcome) :
    FieldOutcome :=
  match value with
  | .str s =>
    if Text.contains "currency" key then
      let code := std.upper (Text.strip s)
      if !isCurrencyCode std code then
        outcome.warning "invalid_currency_code"
          (key ++ " is " ++ std.repr value ++ "; expected a three-letter ISO 4217 code.") key
      else if code ≠ s then
        outcome.correct key (.str code) "normalised to upper-case ISO 4217"
      else outcome
    else outcome
  | _ => outcome

/-- The rule for dates. -/
def checkDate (std : Stdlib) (ctx : ValidationContext) (key : String) (value : Value)
    (outcome : FieldOutcome) : FieldOutcome :=
  match value with
  | .str s =>
    if hinted dateFieldHints key && !Text.isBlank s && !Text.endsWith "_expression" key &&
        (parseDate value).isNone && ctx.flag "dates.reject_impossible_dates" true then
      outcome.warning "invalid_date"
        (key ++ " is " ++ std.repr value ++ ", which is not a valid YYYY-MM-DD date. If " ++
          "the agreement expresses it relatively, it belongs in an expression field instead.") key
    else outcome
  | _ => outcome

def checkAttribute (std : Stdlib) (ctx : ValidationContext) (attributes : ValueDict)
    (outcome : FieldOutcome) (entry : String × Value) : Except String FieldOutcome :=
  if entry.2.isNull then .ok outcome
  else do
    let outcome ← checkDuration std entry.1 entry.2 outcome
    let outcome ← checkMoney std ctx attributes entry.1 entry.2 outcome
    return checkDate std ctx entry.1 entry.2 (checkCurrency std entry.1 entry.2 outcome)

def checkGenericAttributes (std : Stdlib) (attributes : ValueDict) (ctx : ValidationContext)
    (outcome : FieldOutcome) : Except String FieldOutcome :=
  attributes.foldlM (checkAttribute std ctx attributes) outcome

def checkDateOrder (std : Stdlib) (facts : ValueDict) (outcome : FieldOutcome)
    (ctx : ValidationContext) : FieldOutcome :=
  if !ctx.flag "dates.effective_before_expiration" true then outcome
  else
    let effective := parseDate (Value.get facts "effective_date")
    let expiration := parseDate (Value.get facts "expiration_date")
    let execution := parseDate (Value.get facts "execution_date")
    let outcome := match effective, expiration with
      | some effective, some expiration =>
        if effective ≤ expiration then outcome
        else outcome.error "effective_after_expiration"
          ("The effective date (" ++ std.isoformat effective ++ ") is after the expiration date (" ++
            std.isoformat expiration ++ "). One of the two was misread.") "effective_date"
      | _, _ => outcome
    match execution, effective with
    | some execution, some effective =>
      if ctx.flag "dates.execution_not_after_effective" false && !(execution ≤ effective) then
        outcome.warning "execution_after_effective"
          ("The execution date (" ++ std.isoformat execution ++ ") is after the effective date (" ++
            std.isoformat effective ++ ").") "execution_date"
      else outcome
    | _, _ => outcome

end Validation

end Clear

import Clear.Ai.Extraction.Validation

/-!
# The attribute rules of the clauses

`validate_clause_attributes` of `app/ai/extraction/validation.py`: the schema of the clause
category, the conventions that hold for every category, the sides of the named parties, and the
business rules of four categories. Values that are implied by others are corrected, and the caller
applies the corrections.
-/

/-!
## Schema conformance

The subset of JSON Schema that the platform emits, and the check of a payload against it
(`validate_against_schema` of `app/ai/extraction/validation.py`).
-/

namespace Clear

namespace Value

mutual

/-- `v == w`: two dicts are equal if they hold equal values under the same keys. -/
def same : Value → Value → Bool
  | list l, list m => sameList l m
  | dict d, dict e => d.length = e.length && sameDict d e
  | str s, str t => s = t
  | null, null => true
  | v, w =>
    match v.num?, w.num? with
    | some x, some y => x = y
    | _, _ => false

def sameList : List Value → List Value → Bool
  | [], [] => true
  | v :: l, w :: m => same v w && sameList l m
  | _, _ => false

/-- Whether every entry has its equal in `e`. -/
def sameDict : ValueDict → ValueDict → Bool
  | [], _ => true
  | (k, v) :: d, e => (match e.lookup k with | some w => same v w | none => false) && sameDict d e

end

def typeName : Value → String
  | null => "NoneType"
  | bool _ => "bool"
  | int _ => "int"
  | float _ => "float"
  | str _ => "str"
  | list _ => "list"
  | dict _ => "dict"

end Value

structure Schema where
  /-- `type`: one name, a union of several, or none. -/
  types : List String := []
  enum : Option (List Value) := none
  properties : List (String × Schema) := []
  required : List String := []
  /-- `additionalProperties` is false. -/
  closed : Bool := false
  items : Option Schema := none

namespace Validation

/-- Whether `value` is of one declared type. A boolean where a number is expected is a genuine type
error. -/
def matchesOne (value : Value) (declared : String) : Bool :=
  match value with
  | .null => declared = "null"
  | .bool _ => declared = "boolean"
  | .int _ => declared = "integer" || declared = "number"
  | .float _ => declared = "number"
  | .str _ => declared = "string"
  | .list _ => declared = "array"
  | .dict _ => declared = "object"

def matchesType (value : Value) (types : List String) : Bool := types.any (matchesOne value)

def typeIssues (types : List String) (payload : Value) (path : String) : List ValidationIssue :=
  if !types.isEmpty && !matchesType payload types then
    [{ code := "schema_type_mismatch"
       message := "Expected " ++ "|".intercalate types ++ ", received " ++ payload.typeName ++ "."
       field := some path }]
  else []

def enumIssues (std : Stdlib) (enum : Option (List Value)) (payload : Value) (path : String) :
    List ValidationIssue :=
  match enum with
  | some permitted =>
    if permitted.any payload.same then []
    else
      [{ code := "schema_enum_violation"
         message := "Value " ++ std.repr payload ++ " is not one of the permitted values."
         field := some path }]
  | none => []

def missingIssues (required : List String) (payload : ValueDict) (path : String) :
    List ValidationIssue :=
  (required.filter fun name => (payload.lookup name).isNone).map fun name =>
    { code := "schema_missing_field"
      message := "Required field '" ++ name ++ "' is absent."
      field := some (path ++ "." ++ name) }

def unexpectedIssues (closed : Bool) (properties : List String) (payload : ValueDict)
    (path : String) : List ValidationIssue :=
  if closed then
    (payload.filter fun e => !properties.contains e.1).map fun e =>
      { code := "schema_unexpected_field"
        message := "Field '" ++ e.1 ++ "' is not part of this schema."
        field := some (path ++ "." ++ e.1)
        severity := "warning" }
  else []

mutual

def validateAgainstSchema (std : Stdlib) : Schema → Value → String → List ValidationIssue
  | ⟨types, enum, properties, required, closed, items⟩, payload, path =>
    let mismatch := typeIssues types payload path
    if !mismatch.isEmpty then mismatch
    else if payload.isNull then []
    else
      enumIssues std enum payload path ++
      match payload with
      | .dict d =>
        if types.contains "object" then
          missingIssues required d path ++
            unexpectedIssues closed (properties.map (·.1)) d path ++
            validateProperties std properties d path
        else []
      | .list l => if types.contains "array" then validateItems std items l path else []
      | _ => []

def validateProperties (std : Stdlib) :
    List (String × Schema) → ValueDict → String → List ValidationIssue
  | [], _, _ => []
  | (name, sub) :: rest, d, path =>
    (match d.lookup name with
      | some v => validateAgainstSchema std sub v (path ++ "." ++ name)
      | none => []) ++ validateProperties std rest d path

/-- The entries of an array. -/
def validateItems (std : Stdlib) : Option Schema → List Value → String → List ValidationIssue
  | none, _, _ => []
  | some sub, l, path =>
    (l.mapIdx fun index entry =>
      validateAgainstSchema std sub entry (path ++ "[" ++ toString index ++ "]")).flatten

end

end Validation

end Clear

namespace Clear

namespace ValidationContext

def sideOf (ctx : ValidationContext) (partyName : String) : String :=
  let needle := normalisePartyName partyName
  if needle = "" then PartySide.unknown
  else if ctx.isOurs partyName then PartySide.ourOrganisation
  else
    match ctx.partySides.lookup needle with
    | some true => PartySide.ourOrganisation
    | some false => PartySide.counterparty
    | none => PartySide.unknown

end ValidationContext

namespace Validation

/-! ## Sides -/

def sideStem (key : String) : String := String.ofList (key.toList.take (key.length - 5))

def name? (v : Value) : Option String :=
  match v with
  | .str name => if Text.isBlank name then none else some name
  | _ => none

def partyName? (attributes : ValueDict) (stem : String) : Option String :=
  name? ((Value.get attributes (stem ++ "_party")).or (Value.get attributes (stem ++ "_name")))

def resolvedSide? (ctx : ValidationContext) (attributes : ValueDict) (key : String) :
    Option (String × String) :=
  if Text.endsWith "_side" key then
    (partyName? attributes (sideStem key)).bind fun name =>
      let resolved := ctx.sideOf name
      if resolved = PartySide.unknown then none else some (name, resolved)
  else none

def checkPartySide (std : Stdlib) (ctx : ValidationContext) (attributes : ValueDict)
    (outcome : FieldOutcome) (entry : String × Value) : FieldOutcome :=
  match resolvedSide? ctx attributes entry.1 with
  | none => outcome
  | some (name, resolved) =>
    if entry.2.isNull || entry.2.isStr PartySide.unknown then
      outcome.correct entry.1 (.str resolved)
        ("resolved from the party name " ++ std.repr (.str name))
    else if entry.2.isStr resolved then outcome
    else
      let outcome := outcome.warning "party_side_conflict"
        (entry.1 ++ " is " ++ std.repr entry.2 ++ " but " ++ std.repr (.str name) ++
          " resolves to " ++ resolved ++
          ". Corrected from the party name, which is deterministic.") entry.1
      { outcome with corrections := Dict.assign outcome.corrections entry.1 (.str resolved) }

def checkPartySides (std : Stdlib) (attributes : ValueDict) (ctx : ValidationContext)
    (outcome : FieldOutcome) : FieldOutcome :=
  attributes.foldl (checkPartySide std ctx attributes) outcome

/-! ## Rules of single categories

A rule that raises leaves what it has recorded until then. -/

abbrev RuleResult := Except FieldOutcome FieldOutcome

def expectedMultiple (basis : Value) : Option Rat :=
  if basis.isStr LiabilityCapBasis.oneXFeesPaid.value then some 1
  else if basis.isStr LiabilityCapBasis.twoXFeesPaid.value then some 2
  else none

def checkMultiple (std : Stdlib) (basis multiple : Value) (outcome : FieldOutcome) : RuleResult :=
  match expectedMultiple basis with
  | none => .ok outcome
  | some expected =>
    if multiple.isNull then
      .ok (outcome.correct "cap_multiple" (.float expected)
        ("implied by cap_basis " ++ basis.text std))
    else
      match multiple.toFloat std with
      | .error _ => .error outcome
      | .ok x =>
        if x = expected then .ok outcome
        else
          .ok (outcome.error "cap_multiple_conflicts_with_basis"
            ("cap_basis is " ++ basis.text std ++ " but cap_multiple is " ++ multiple.text std ++
              ". These state different caps; the clause cannot be recorded until they agree.")
            "cap_multiple")

def checkBasis (std : Stdlib) (basis multiple amount period : Value) (outcome : FieldOutcome) :
    FieldOutcome :=
  let is (b : LiabilityCapBasis) : Bool := basis.isStr b.value
  let values := "(multiple=" ++ multiple.text std ++ ", amount=" ++ amount.text std ++ ")"
  let outcome := if is .otherMultipleOfFees && multiple.isNull then
      outcome.error "cap_multiple_required"
        ("cap_basis is a multiple of fees but no multiple was extracted, so " ++
          "the cap has no value.") "cap_multiple"
    else outcome
  let outcome := if is .fixedAmount && amount.isNull then
      outcome.error "cap_amount_required"
        "cap_basis is a fixed amount but no amount was extracted, so the cap has no value."
        "cap_amount"
    else outcome
  let outcome := if is .uncapped && !(multiple.isNull && amount.isNull) then
      outcome.error "uncapped_with_cap_value"
        ("cap_basis is uncapped but a cap value was also extracted " ++ values ++
          ". Liability is either limited or it is not.") "cap_basis"
    else outcome
  let outcome :=
    if (basis.isNull || is .notSpecified) && !(multiple.isNull && amount.isNull) then
      outcome.error "cap_value_without_basis"
        ("cap_basis is " ++ std.repr basis ++ " but a cap value was extracted " ++ values ++
          ". The basis must state how the cap is expressed.") "cap_basis"
    else outcome
  if is .feesPaidInPeriod && period.isNull then
    outcome.warning "cap_period_missing"
      ("The cap is fees paid in a period, but the period length was not " ++
        "extracted, so the cap cannot be quantified.") "cap_reference_period_months"
  else outcome

/-- `len(v)`, absent where it raises. -/
def length? : Value → Option Nat
  | .list l => some l.length
  | .str s => some s.length
  | .dict d => some d.length
  | _ => none

def checkCarveOuts (carveOuts carveText hasCarveOuts : Value) (outcome : FieldOutcome) :
    RuleResult :=
  if carveOuts.truthy && hasCarveOuts.isFalse then
    match length? carveOuts with
    | none => .error outcome
    | some n =>
      .ok (outcome.correct "has_carve_outs" (.bool true)
        (toString n ++ " carve-out(s) were extracted, which contradicts the flag"))
  else if hasCarveOuts.truthy && !carveOuts.truthy && !carveText.truthy then
    .ok (outcome.warning "carve_outs_unspecified"
      ("Carve-outs are flagged but none were identified. A carve-out is " ++
        "unlimited exposure, so it must be named to be assessable.") "carve_outs")
  else .ok outcome

def checkLiabilityCap (std : Stdlib) (attributes : ValueDict) (outcome : FieldOutcome) :
    RuleResult := do
  let basis := Value.get attributes "cap_basis"
  let multiple := Value.get attributes "cap_multiple"
  let outcome ← checkMultiple std basis multiple outcome
  checkCarveOuts (Value.get attributes "carve_outs") (Value.get attributes "carve_out_text")
    (Value.get attributes "has_carve_outs")
    (checkBasis std basis multiple (Value.get attributes "cap_amount")
      (Value.get attributes "cap_reference_period_months") outcome)

def isOneSided (posture : Value) : Bool :=
  posture.isStr IndemnityPosture.oneSidedInOurFavour.value ||
    posture.isStr IndemnityPosture.oneSidedAgainstUs.value

/-- `check_indemnity`: coherence of an indemnity's direction and symmetry. A posture that cannot
stand in a set raises. -/
def checkIndemnity (std : Stdlib) (attributes : ValueDict) (outcome : FieldOutcome) : RuleResult :=
  let posture := Value.get attributes "posture"
  let isMutual := Value.get attributes "is_mutual"
  if isMutual.isTrue && !posture.hashable then .error outcome
  else
    let outcome := if isMutual.isTrue && isOneSided posture then
        outcome.error "indemnity_posture_conflict"
          ("The indemnity is marked mutual but its posture is " ++ posture.text std ++
            ". An indemnity cannot be both reciprocal and one-sided.") "posture"
      else if isMutual.isFalse && posture.isStr IndemnityPosture.mutual.value then
        outcome.error "indemnity_posture_conflict" "The posture is mutual but is_mutual is false."
          "is_mutual"
      else outcome
    if posture.isStr IndemnityPosture.mutual.value && isMutual.isNull then
      .ok (outcome.correct "is_mutual" (.bool true) "implied by a mutual posture")
    else .ok outcome

def checkNotice (std : Stdlib) (notice cure : Value) (outcome : FieldOutcome) : FieldOutcome :=
  match notice.num?, cure.num? with
  | some n, some c =>
    if c ≤ n ∨ n = 0 then outcome
    else outcome.warning "cure_exceeds_notice"
      ("The cure period (" ++ cure.text std ++ " days) is longer than the notice period (" ++
        notice.text std ++ " days), so the breach could never be cured in time. " ++
        "Unusual drafting - verify against the clause.") "cure_period_days"
  | _, _ => outcome

/-- A breach that is not curable has no cure period. `general` is `f"{x:g}"`, which raises for an
integer beyond the range of `float`. -/
def checkCurable (std : Stdlib) (general : Rat → String) (isCurable cure : Value)
    (outcome : FieldOutcome) : RuleResult :=
  match cure.num? with
  | some c =>
    if isCurable.isFalse = true ∧ 0 < c then
      match cure.toFloat std with
      | .error _ => .error outcome
      | .ok x =>
        .ok (outcome.warning "cure_period_contradicts_incurable"
          ("The clause is marked not curable but states a " ++ general x ++ "-day cure " ++
            "period. Verify which the wording actually provides.") "is_curable")
    else .ok outcome
  | none => .ok outcome

def checkTerminationPeriods (std : Stdlib) (general : Rat → String) (attributes : ValueDict)
    (outcome : FieldOutcome) : RuleResult :=
  let cure := Value.get attributes "cure_period_days"
  checkCurable std general (Value.get attributes "is_curable") cure
    (checkNotice std (Value.get attributes "notice_days") cure outcome)

structure ClauseRule where
  name : String
  run : ValueDict → FieldOutcome → RuleResult

def clauseRules (std : Stdlib) (general : Rat → String) (clauseKey : String) : List ClauseRule :=
  if clauseKey = ClauseType.limitationOfLiability.value then
    [{ name := "check_liability_cap", run := checkLiabilityCap std }]
  else if clauseKey = ClauseType.indemnification.value then
    [{ name := "check_indemnity", run := checkIndemnity std }]
  else if clauseKey = ClauseType.terminationForConvenience.value ||
      clauseKey = ClauseType.terminationForCause.value then
    [{ name := "check_termination_periods", run := checkTerminationPeriods std general }]
  else []

/-- One rule. A bug in it must not fail the extraction. -/
def runRule (attributes : ValueDict) (outcome : FieldOutcome) (rule : ClauseRule) : FieldOutcome :=
  match rule.run attributes outcome with
  | .ok outcome => outcome
  | .error outcome =>
    { outcome with issues := outcome.issues ++
        [{ code := "rule_error"
           message := "A validation rule failed to run: " ++ rule.name ++ "."
           severity := "warning" }] }

def validateClauseAttributes (std : Stdlib) (general : Rat → String) (clauseKey : String)
    (attributes : ValueDict) (schema : Schema) (ctx : ValidationContext) :
    Except String FieldOutcome := do
  let issues := validateAgainstSchema std schema (.dict attributes) "attributes"
  let outcome ← checkGenericAttributes std attributes ctx { issues }
  return (clauseRules std general clauseKey).foldl (runRule attributes)
    (checkPartySides std attributes ctx outcome)

/-- `attributes.update(outcome.corrections)`, as the engine applies them. -/
def applyCorrections (attributes corrections : ValueDict) : ValueDict :=
  corrections.foldl (fun d e => Dict.assign d e.1 e.2) attributes

end Validation

end Clear

import Clear.Ai.Extraction.AttributeRules
import Clear.Lib.Except

/-!
# What the attribute rules add

Each rule is described by the errors it adds and the corrections it makes (`Adds`), which depend on
the values it reads and not on what other rules have recorded. A rule of a clause category settles:
with its corrections applied, it corrects nothing and finds no new error (`clauseRules_cases`).
-/

namespace Clear

namespace Corrections

open Validation

/-! ## What a check adds -/

structure Adds (o o' : FieldOutcome) (errors : List ValidationIssue) (items : ValueDict) : Prop where
  errors : o'.errors = o.errors ++ errors
  corrections : o'.corrections = items.foldl (fun d e => Dict.assign d e.1 e.2) o.corrections

section Adds

variable {o o' o'' : FieldOutcome} {errors errors' : List ValidationIssue} {items items' : ValueDict}

theorem Adds.refl (o : FieldOutcome) : Adds o o [] [] := ⟨by simp, rfl⟩

theorem Adds.trans (h : Adds o o' errors items) (h' : Adds o' o'' errors' items') :
    Adds o o'' (errors ++ errors') (items ++ items') where
  errors := by rw [h'.errors, h.errors, List.append_assoc]
  corrections := by rw [h'.corrections, h.corrections, List.foldl_append]

theorem adds_error (o : FieldOutcome) (code message field : String) :
    Adds o (o.error code message field) [{ code, message, field := some field }] [] where
  errors := by
    unfold FieldOutcome.errors FieldOutcome.error
    rw [List.filter_append]
    rfl
  corrections := rfl

theorem adds_warning (o : FieldOutcome) (code message field : String) :
    Adds o (o.warning code message field) [] [] where
  errors := by
    unfold FieldOutcome.errors FieldOutcome.warning
    rw [List.filter_append]
    rfl
  corrections := rfl

theorem adds_correct (o : FieldOutcome) (field : String) (value : Value) (reason : String) :
    Adds o (o.correct field value reason) [] [(field, value)] where
  errors := (adds_warning _ "auto_corrected" (field ++ " was corrected: " ++ reason) field).errors
  corrections := rfl

/-- One of two outcomes, by a condition that the outcome does not enter. -/
theorem Adds.ite {c : Prop} [Decidable c] (h : Adds o o' errors items)
    (h' : Adds o o'' errors' items') :
    Adds o (if c then o' else o'') (if c then errors else errors') (if c then items else items') := by
  split
  · exact h
  · exact h'

end Adds

theorem adds_foldl {α : Type} {f : FieldOutcome → α → FieldOutcome} {errors : α → List ValidationIssue}
    {items : α → ValueDict} (h : ∀ o a, Adds o (f o a) (errors a) (items a)) (l : List α)
    (o : FieldOutcome) : Adds o (l.foldl f o) (l.flatMap errors) (l.flatMap items) := by
  induction l generalizing o with
  | nil => exact Adds.refl _
  | cons a l ih => exact (h o a).trans (ih (f o a))

/-- The same for checks that may raise. -/
theorem adds_foldlM {α : Type} {f : FieldOutcome → α → Except String FieldOutcome}
    {errors : α → List ValidationIssue} {items : α → ValueDict}
    (h : ∀ o a o', f o a = .ok o' → Adds o o' (errors a) (items a)) {l : List α}
    {o o' : FieldOutcome} (hrun : l.foldlM f o = .ok o') :
    Adds o o' (l.flatMap errors) (l.flatMap items) := by
  induction l generalizing o with
  | nil =>
    cases hrun
    exact Adds.refl _
  | cons a l ih =>
    rw [List.foldlM_cons] at hrun
    obtain ⟨o₁, hstep, hrest⟩ := Except.bind_eq_ok.1 hrun
    exact (h o a o₁ hstep).trans (ih hrest)

/-! ## The generic rules -/

section Generic

variable {std : Stdlib} {ctx : ValidationContext} {attributes attributes' : ValueDict}
  {o o' : FieldOutcome} {key : String} {value : Value}

def durationErrors (std : Stdlib) (key : String) (value : Value) : List ValidationIssue :=
  match durationUnit? key, value.num? with
  | some _, some x =>
    if 0 ≤ x then []
    else
      [{ code := "negative_duration"
         message := key ++ " is " ++ Value.text std value ++ "; a duration cannot be negative."
         field := some key }]
  | _, _ => []

def moneyErrors (std : Stdlib) (key : String) (value : Value) : List ValidationIssue :=
  match value.real? with
  | some x =>
    if hinted amountHints key then
      if 0 ≤ x then []
      else
        [{ code := "negative_amount"
           message := key ++ " is " ++ Value.text std value ++
             "; a monetary amount cannot be negative."
           field := some key }]
    else []
  | none => []

def currencyCorrection (std : Stdlib) (key : String) (value : Value) : Option Value :=
  match value with
  | .str s =>
    let code := std.upper (Text.strip s)
    if Text.contains "currency" key = true ∧ isCurrencyCode std code = true ∧ code ≠ s then
      some (.str code)
    else none
  | _ => none

theorem checkDuration_adds (h : checkDuration std key value o = .ok o') :
    Adds o o' (durationErrors std key value) [] := by
  unfold checkDuration at h
  unfold durationErrors
  cases hunit : durationUnit? key with
  | none =>
    rw [hunit] at h
    cases h
    exact Adds.refl _
  | some unit =>
    cases hnum : value.num? with
    | none =>
      rw [hunit, hnum] at h
      cases h
      exact Adds.refl _
    | some x =>
      rw [hunit, hnum] at h
      obtain ⟨months, -, rfl⟩ := Except.map_eq_ok.1 h
      have hsign := (Adds.refl o).ite (c := 0 ≤ x) (adds_error o "negative_duration"
        (key ++ " is " ++ Value.text std value ++ "; a duration cannot be negative.") key)
      rw [ite_self] at hsign
      have hsize := fun o : FieldOutcome => (Adds.refl o).ite
        (c := months = 0 ∨ months ≤ implausibleMonths) (adds_warning o "implausible_duration"
          (key ++ " is " ++ Value.text std value ++ " " ++ unit ++
            ", which is implausibly long. Verify the units stated in the agreement.") key)
      simp only [ite_self] at hsize
      simpa using hsign.trans (hsize _)

theorem checkMoney_adds (h : checkMoney std ctx attributes key value o = .ok o') :
    Adds o o' (moneyErrors std key value) [] := by
  unfold checkMoney at h
  unfold moneyErrors
  cases hreal : value.real? with
  | none =>
    rw [hreal] at h
    cases h
    exact Adds.refl _
  | some x =>
    rw [hreal] at h
    dsimp only at h ⊢
    by_cases hhint : hinted amountHints key = true
    · rw [if_pos hhint] at h ⊢
      obtain ⟨exceeds, -, rfl⟩ := Except.map_eq_ok.1 h
      have hsign := (Adds.refl o).ite (c := 0 ≤ x) (adds_error o "negative_amount"
        (key ++ " is " ++ Value.text std value ++ "; a monetary amount cannot be negative.") key)
      have hceiling := fun o : FieldOutcome => (adds_warning o "implausible_amount"
        (key ++ " is " ++ Value.text std value ++
          ", above the configured plausibility ceiling. Verify the figure and its units.") key).ite
        (c := exceeds = true) (Adds.refl o)
      have hcurrency := fun o : FieldOutcome => (adds_warning o "amount_without_currency"
        (key ++ " has a value but no currency was stated, so the amount " ++
          "cannot be compared or reported.") key).ite
        (c := (ctx.flag "money.require_currency_with_amount" true &&
            (pairedCurrency attributes key).isNone) = true) (Adds.refl o)
      simp only [ite_self] at hsign hceiling hcurrency
      simpa using (hsign.trans (hceiling _)).trans (hcurrency _)
    · rw [if_neg hhint] at h ⊢
      cases h
      exact Adds.refl _

theorem checkCurrency_adds (std : Stdlib) (key : String) (value : Value) (o : FieldOutcome) :
    Adds o (checkCurrency std key value o) []
      ((currencyCorrection std key value).map (key, ·)).toList := by
  unfold checkCurrency currencyCorrection
  cases value with
  | str s =>
    dsimp only
    by_cases hkey : Text.contains "currency" key = true
    · by_cases hcode : isCurrencyCode std (std.upper (Text.strip s)) = true
      · by_cases hsame : std.upper (Text.strip s) = s
        · rw [if_pos hkey, if_neg (by simp [hcode]), if_neg (by simp [hsame]),
            if_neg (by simp [hsame])]
          exact Adds.refl _
        · rw [if_pos hkey, if_neg (by simp [hcode]), if_pos hsame, if_pos ⟨hkey, hcode, hsame⟩]
          exact adds_correct o key _ _
      · rw [if_pos hkey, if_pos (by simpa using hcode), if_neg (by simp [hcode])]
        exact adds_warning o _ _ key
    · rw [if_neg hkey, if_neg (by simp [hkey])]
      exact Adds.refl _
  | _ => exact Adds.refl _

theorem checkDate_adds (std : Stdlib) (ctx : ValidationContext) (key : String) (value : Value)
    (o : FieldOutcome) : Adds o (checkDate std ctx key value o) [] [] := by
  unfold checkDate
  cases value with
  | str s =>
    have h := (adds_warning o "invalid_date" (key ++ " is " ++ std.repr (.str s) ++
        ", which is not a valid YYYY-MM-DD date. If " ++
        "the agreement expresses it relatively, it belongs in an expression field instead.") key).ite
      (c := (hinted dateFieldHints key && !Text.isBlank s && !Text.endsWith "_expression" key &&
        (parseDate (.str s)).isNone && ctx.flag "dates.reject_impossible_dates" true) = true)
      (Adds.refl o)
    rw [ite_self, ite_self] at h
    exact h
  | _ => exact Adds.refl _

def attributeErrors (std : Stdlib) (entry : String × Value) : List ValidationIssue :=
  durationErrors std entry.1 entry.2 ++ moneyErrors std entry.1 entry.2

theorem checkAttribute_adds {entry : String × Value}
    (h : checkAttribute std ctx attributes o entry = .ok o') :
    Adds o o' (attributeErrors std entry)
      ((currencyCorrection std entry.1 entry.2).map (entry.1, ·)).toList := by
  obtain ⟨key, value⟩ := entry
  unfold checkAttribute at h
  by_cases hnull : value.isNull = true
  · rw [if_pos hnull] at h
    cases h
    obtain rfl := Value.isNull_eq_true.1 hnull
    have hduration : durationErrors std key .null = [] := by
      unfold durationErrors
      cases durationUnit? key <;> rfl
    show Adds o o (durationErrors std key .null ++ []) []
    rw [hduration]
    exact Adds.refl _
  · rw [if_neg hnull] at h
    obtain ⟨o₁, hduration, h⟩ := Except.bind_eq_ok.1 h
    obtain ⟨o₂, hmoney, h⟩ := Except.bind_eq_ok.1 h
    cases h
    have hrest := (checkCurrency_adds std key value o₂).trans
      (checkDate_adds std ctx key value (checkCurrency std key value o₂))
    simpa [attributeErrors] using ((checkDuration_adds hduration).trans (checkMoney_adds hmoney)).trans
      hrest

theorem checkGenericAttributes_adds (h : checkGenericAttributes std attributes ctx o = .ok o') :
    Adds o o' (attributes.flatMap (attributeErrors std))
      (attributes.filterMap fun e => (currencyCorrection std e.1 e.2).map (e.1, ·)) := by
  rw [List.filterMap_eq_flatMap_toList]
  exact adds_foldlM (fun _ _ _ hstep => checkAttribute_adds hstep) h

/-- No rule raises on an attribute. -/
def Readable (std : Stdlib) (ctx : ValidationContext) (key : String) (value : Value) : Prop :=
  value.isNull = true ∨
    (∀ unit x, durationUnit? key = some unit → value.num? = some x →
      ∃ m, months unit value x = .ok m) ∧
    ∀ x, value.real? = some x → hinted amountHints key = true →
      ∃ b, exceedsCeiling std ((ctx.rule "money.max_reasonable_value").getD .null) x = .ok b

theorem checkDuration_ok_iff :
    (∃ o', checkDuration std key value o = .ok o') ↔
      ∀ unit x, durationUnit? key = some unit → value.num? = some x →
        ∃ m, months unit value x = .ok m := by
  unfold checkDuration
  cases durationUnit? key with
  | none => simp
  | some unit =>
    cases value.num? with
    | none => simp
    | some x =>
      dsimp only
      rw [Except.exists_map_ok]
      exact ⟨fun h unit' x' hunit hx => by cases hunit; cases hx; exact h,
        fun h => h unit x rfl rfl⟩

theorem checkMoney_ok_iff :
    (∃ o', checkMoney std ctx attributes key value o = .ok o') ↔
      ∀ x, value.real? = some x → hinted amountHints key = true →
        ∃ b, exceedsCeiling std ((ctx.rule "money.max_reasonable_value").getD .null) x = .ok b := by
  unfold checkMoney
  cases value.real? with
  | none => simp
  | some x =>
    dsimp only
    by_cases hhint : hinted amountHints key = true
    · rw [if_pos hhint, Except.exists_map_ok]
      exact ⟨fun h x' hx _ => by cases hx; exact h, fun h => h x rfl hhint⟩
    · rw [if_neg hhint]
      exact ⟨fun _ x' _ hkey => absurd hkey hhint, fun _ => ⟨o, rfl⟩⟩

theorem checkAttribute_ok_iff {entry : String × Value} :
    (∃ o', checkAttribute std ctx attributes o entry = .ok o') ↔
      Readable std ctx entry.1 entry.2 := by
  obtain ⟨key, value⟩ := entry
  unfold checkAttribute Readable
  by_cases hnull : value.isNull = true
  · simp [hnull]
  · rw [if_neg hnull, or_iff_right hnull]
    constructor
    · intro h
      obtain ⟨o', h⟩ := h
      obtain ⟨o₁, hduration, h⟩ := Except.bind_eq_ok.1 h
      obtain ⟨o₂, hmoney, -⟩ := Except.bind_eq_ok.1 h
      exact ⟨checkDuration_ok_iff.1 ⟨o₁, hduration⟩, checkMoney_ok_iff.1 ⟨o₂, hmoney⟩⟩
    · intro h
      obtain ⟨o₁, hduration⟩ := checkDuration_ok_iff (o := o).2 h.1
      have hmoney : ∃ o₂, checkMoney std ctx attributes key value o₁ = .ok o₂ :=
        checkMoney_ok_iff.2 h.2
      obtain ⟨o₂, hmoney⟩ := hmoney
      exact ⟨_, Except.bind_eq_ok.2 ⟨o₁, hduration, Except.bind_eq_ok.2 ⟨o₂, hmoney, rfl⟩⟩⟩

theorem checkGenericAttributes_ok_iff :
    (∃ o', checkGenericAttributes std attributes ctx o = .ok o') ↔
      ∀ e ∈ attributes, Readable std ctx e.1 e.2 :=
  Except.foldlM_ok_iff (f := checkAttribute std ctx attributes) (fun _ _ => checkAttribute_ok_iff)
    attributes o

end Generic

/-! ## Sides -/

section Sides

variable {std : Stdlib} {ctx : ValidationContext} {attributes attributes' : ValueDict}
  {key : String} {value : Value}

def sideCorrection (ctx : ValidationContext) (attributes : ValueDict) (key : String)
    (value : Value) : Option Value :=
  (resolvedSide? ctx attributes key).bind fun r =>
    if value.isStr r.2 = true then none else some (.str r.2)

theorem resolvedSide_spec {name side : String}
    (h : resolvedSide? ctx attributes key = some (name, side)) :
    Text.endsWith "_side" key = true ∧ partyName? attributes (sideStem key) = some name ∧
      ctx.sideOf name = side ∧ side ≠ PartySide.unknown := by
  unfold resolvedSide? at h
  split at h
  next hkey =>
    obtain ⟨name', hname, h⟩ := Option.bind_eq_some_iff.1 h
    dsimp only at h
    split at h
    · cases h
    next hside =>
      cases h
      exact ⟨hkey, hname, rfl, hside⟩
  · cases h

theorem resolvedSide_eq {name : String} (hkey : Text.endsWith "_side" key = true)
    (hname : partyName? attributes (sideStem key) = some name)
    (hside : ctx.sideOf name ≠ PartySide.unknown) :
    resolvedSide? ctx attributes key = some (name, ctx.sideOf name) := by
  unfold resolvedSide?
  rw [if_pos hkey, hname, Option.bind_some]
  dsimp only
  rw [if_neg hside]

theorem checkPartySide_adds (std : Stdlib) (ctx : ValidationContext) (attributes : ValueDict)
    (o : FieldOutcome) (entry : String × Value) :
    Adds o (checkPartySide std ctx attributes o entry) []
      ((sideCorrection ctx attributes entry.1 entry.2).map (entry.1, ·)).toList := by
  obtain ⟨key, value⟩ := entry
  unfold checkPartySide sideCorrection
  dsimp only
  cases hresolved : resolvedSide? ctx attributes key with
  | none => exact Adds.refl _
  | some r =>
    obtain ⟨name, side⟩ := r
    obtain ⟨-, -, -, hside⟩ := resolvedSide_spec hresolved
    dsimp only [Option.bind_some]
    by_cases hopen : (value.isNull || value.isStr PartySide.unknown) = true
    · -- an open side is none of the two that a name resolves to
      have hother : ¬value.isStr side = true := by
        intro hvalue
        cases value with
        | str s =>
          rw [show s = side by simpa [Value.isStr] using hvalue] at hopen
          exact hside (by simpa [Value.isNull, Value.isStr] using hopen)
        | _ => cases hvalue
      rw [if_pos hopen, if_neg hother]
      exact adds_correct o key _ _
    · rw [if_neg hopen]
      by_cases hsame : value.isStr side = true
      · rw [if_pos hsame, if_pos hsame]
        exact Adds.refl _
      · rw [if_neg hsame, if_neg hsame]
        exact ⟨(adds_warning o _ _ key).errors, rfl⟩

/-- `check_party_sides` records no error, and corrects the sides that their names resolve otherwise.
-/
theorem checkPartySides_adds (std : Stdlib) (attributes : ValueDict) (ctx : ValidationContext)
    (o : FieldOutcome) : Adds o (checkPartySides std attributes ctx o) []
      (attributes.filterMap fun e => (sideCorrection ctx attributes e.1 e.2).map (e.1, ·)) := by
  have h := adds_foldl (checkPartySide_adds std ctx attributes) attributes o
  rw [List.flatMap_eq_nil_iff.2 fun _ _ => rfl] at h
  rw [List.filterMap_eq_flatMap_toList]
  exact h

end Sides

/-! ## Rules of single categories -/

section Rules

variable {std : Stdlib} {f g : FieldOutcome → RuleResult} {raised : Bool}
  {errors errors' : List ValidationIssue} {items items' attributes attributes' : ValueDict}

def Acts (f : FieldOutcome → RuleResult) (raised : Bool) (errors : List ValidationIssue)
    (items : ValueDict) : Prop :=
  ∀ o, ∃ o', Adds o o' errors items ∧ f o = if raised then .error o' else .ok o'

theorem Acts.ok {f : FieldOutcome → FieldOutcome} (h : ∀ o, Adds o (f o) errors items) :
    Acts (fun o => .ok (f o)) false errors items :=
  fun o => ⟨f o, h o, rfl⟩

theorem Acts.raise : Acts (fun o => .error o) true [] [] := fun o => ⟨o, Adds.refl o, rfl⟩

theorem Acts.bind (hf : Acts f false errors items) (hg : Acts g raised errors' items') :
    Acts (fun o => f o >>= g) raised (errors ++ errors') (items ++ items') := by
  intro o
  obtain ⟨o₁, hadds, hok⟩ := hf o
  obtain ⟨o₂, hadds', hok'⟩ := hg o₁
  refine ⟨o₂, hadds.trans hadds', ?_⟩
  show f o >>= g = _
  rw [hok]
  exact hok'

theorem Acts.bind_raised (hf : Acts f true errors items) :
    Acts (fun o => f o >>= g) true errors items := by
  intro o
  obtain ⟨o₁, hadds, hraise⟩ := hf o
  refine ⟨o₁, hadds, ?_⟩
  show f o >>= g = _
  rw [hraise]
  rfl

/-- A check that cannot raise, and then a rule. -/
theorem Acts.after {b : FieldOutcome → FieldOutcome} (hb : ∀ o, Adds o (b o) errors items)
    (hg : Acts g raised errors' items') :
    Acts (fun o => g (b o)) raised (errors ++ errors') (items ++ items') :=
  (Acts.ok hb).bind hg

theorem Acts.runRule {rule : ClauseRule} (h : Acts (rule.run attributes) raised errors items)
    (o : FieldOutcome) : Adds o (runRule attributes o rule) errors items := by
  obtain ⟨o', hadds, heq⟩ := h o
  unfold Validation.runRule
  rw [heq]
  cases raised with
  | false => exact hadds
  | true =>
    refine ⟨?_, hadds.corrections⟩
    rw [← hadds.errors]
    unfold FieldOutcome.errors
    show List.filter _ (o'.issues ++ _) = _
    rw [List.filter_append]
    exact List.append_nil _

def RuleItem (e : String × Value) : Prop :=
  (∃ x, e = ("cap_multiple", .float x)) ∨ e = ("has_carve_outs", .bool true) ∨
    e = ("is_mutual", .bool true)

/-- Where a rule reads, `attributes'` is `attributes` with the rule's corrections. -/
def Rerun (items attributes attributes' : ValueDict) : Prop :=
  ∀ key, Text.contains "currency" key = false → Text.endsWith "_side" key = false →
    attributes'.lookup key = ((Dict.ofItems items).lookup key).or (attributes.lookup key)

theorem Rerun.get_eq {key : String} (h : Rerun items attributes attributes')
    (hcurrency : Text.contains "currency" key = false) (hside : Text.endsWith "_side" key = false)
    (hkey : (Dict.ofItems items).lookup key = none) :
    Value.get attributes' key = Value.get attributes key := by
  unfold Value.get
  rw [h key hcurrency hside, hkey, Option.none_or]

theorem Rerun.get_item {key : String} {value : Value} (h : Rerun items attributes attributes')
    (hcurrency : Text.contains "currency" key = false) (hside : Text.endsWith "_side" key = false)
    (hkey : (Dict.ofItems items).lookup key = some value) :
    Value.get attributes' key = value := by
  unfold Value.get
  rw [h key hcurrency hside, hkey, Option.some_or, Option.getD_some]

def Settles (run : ValueDict → FieldOutcome → RuleResult) : Prop :=
  ∀ attributes, ∃ raised errors items, Acts (run attributes) raised errors items ∧
    (∀ e ∈ items, RuleItem e) ∧
    ∀ attributes', Rerun items attributes attributes' →
      ∃ raised' errors', Acts (run attributes') raised' errors' [] ∧ errors' ⊆ errors

theorem exists_adds_error {b : FieldOutcome → FieldOutcome} (c : Bool) (code message field : String)
    (h : ∃ errors, ∀ o, Adds o (b o) errors []) :
    ∃ errors, ∀ o, Adds o (if c = true then (b o).error code message field else b o) errors [] := by
  obtain ⟨errors, h⟩ := h
  cases c with
  | false => exact ⟨errors, h⟩
  | true => exact ⟨_, fun o => (h o).trans (adds_error _ code message field)⟩

theorem exists_adds_warning {b : FieldOutcome → FieldOutcome} (c : Bool)
    (code message field : String) (h : ∃ errors, ∀ o, Adds o (b o) errors []) :
    ∃ errors, ∀ o,
      Adds o (if c = true then (b o).warning code message field else b o) errors [] := by
  obtain ⟨errors, h⟩ := h
  cases c with
  | false => exact ⟨errors, h⟩
  | true => exact ⟨_, fun o => (h o).trans (adds_warning _ code message field)⟩

theorem checkBasis_adds (std : Stdlib) (basis multiple amount period : Value) :
    ∃ errors, ∀ o, Adds o (checkBasis std basis multiple amount period o) errors [] := by
  unfold checkBasis
  dsimp only
  apply exists_adds_warning
  apply exists_adds_error
  apply exists_adds_error
  apply exists_adds_error
  apply exists_adds_error
  exact ⟨[], Adds.refl⟩

theorem checkBasis_eq_self {basis multiple amount period : Value} {x : Rat} {o : FieldOutcome}
    (h : expectedMultiple basis = some x) :
    checkBasis std basis multiple amount period o = o := by
  have hbasis : basis = .str "1x_fees_paid" ∨ basis = .str "2x_fees_paid" := by
    cases basis with
    | str s =>
      by_cases hone : s = "1x_fees_paid"
      · exact .inl (by rw [hone])
      · by_cases htwo : s = "2x_fees_paid"
        · exact .inr (by rw [htwo])
        · simp [expectedMultiple, Value.isStr, LiabilityCapBasis.value, hone, htwo] at h
    | _ => cases h
  rcases hbasis with rfl | rfl <;>
    simp [checkBasis, Value.isStr, Value.isNull, LiabilityCapBasis.value]

def capValue (std : Stdlib) (basis amount period multiple : Value) (o : FieldOutcome) : RuleResult :=
  checkMultiple std basis multiple o >>= fun o =>
    .ok (checkBasis std basis multiple amount period o)

/-- A multiple that is filled in is the one that its basis implies. Otherwise nothing is corrected,
and the checks are the same again. -/
theorem capValue_cases (std : Stdlib) (basis amount period multiple : Value) :
    Acts (capValue std basis amount period multiple) true [] [] ∨
    ∃ errors items multiple', Acts (capValue std basis amount period multiple) false errors items ∧
      (items = [] ∧ multiple' = multiple ∨
        (∃ x, multiple' = .float x) ∧ items = [("cap_multiple", multiple')]) ∧
      ∃ errors', Acts (capValue std basis amount period multiple') false errors' [] ∧
        errors' ⊆ errors := by
  obtain ⟨basisErrors, hbasis⟩ := checkBasis_adds std basis multiple amount period
  cases hexpected : expectedMultiple basis with
  | none =>
    have hacts : Acts (capValue std basis amount period multiple) false basisErrors [] := by
      unfold capValue checkMultiple
      rw [hexpected]
      exact Acts.ok hbasis
    exact .inr ⟨_, _, multiple, hacts, .inl ⟨rfl, rfl⟩, _, hacts, List.Subset.refl _⟩
  | some x =>
    by_cases hnull : multiple.isNull = true
    · refine .inr ⟨[], [("cap_multiple", .float x)], .float x, ?_, .inr ⟨⟨x, rfl⟩, rfl⟩, [], ?_,
        List.Subset.refl _⟩
      · unfold capValue checkMultiple
        rw [hexpected]
        simp only [if_pos hnull, checkBasis_eq_self hexpected]
        exact Acts.ok fun o => adds_correct o "cap_multiple" (.float x) _
      · unfold capValue checkMultiple
        rw [hexpected]
        simp only [Value.isNull, Bool.false_eq_true, if_false, Value.toFloat, if_true,
          checkBasis_eq_self hexpected]
        exact Acts.ok Adds.refl
    · cases hfloat : multiple.toFloat std with
      | error e =>
        left
        unfold capValue checkMultiple
        rw [hexpected]
        simp only [if_neg hnull, hfloat]
        exact Acts.raise
      | ok y =>
        have hacts : ∃ errors, Acts (capValue std basis amount period multiple) false errors [] := by
          unfold capValue checkMultiple
          rw [hexpected]
          simp only [if_neg hnull, hfloat, checkBasis_eq_self hexpected]
          by_cases heq : y = x
          · simp only [if_pos heq]
            exact ⟨[], Acts.ok Adds.refl⟩
          · simp only [if_neg heq]
            exact ⟨_, Acts.ok fun o => adds_error o _ _ _⟩
        obtain ⟨errors, hacts⟩ := hacts
        exact .inr ⟨_, _, multiple, hacts, .inl ⟨rfl, rfl⟩, _, hacts, List.Subset.refl _⟩

theorem checkCarveOuts_cases (carveOuts carveText hasCarveOuts : Value) :
    ∃ raised items flag, Acts (checkCarveOuts carveOuts carveText hasCarveOuts) raised [] items ∧
      (items = [] ∧ flag = hasCarveOuts ∨
        flag = .bool true ∧ items = [("has_carve_outs", flag)]) ∧
      ∃ raised', Acts (checkCarveOuts carveOuts carveText flag) raised' [] [] := by
  by_cases hflag : (carveOuts.truthy && hasCarveOuts.isFalse) = true
  · cases hlength : length? carveOuts with
    | none =>
      have hacts : Acts (checkCarveOuts carveOuts carveText hasCarveOuts) true [] [] := by
        unfold checkCarveOuts
        simp only [if_pos hflag, hlength]
        exact Acts.raise
      exact ⟨_, _, hasCarveOuts, hacts, .inl ⟨rfl, rfl⟩, _, hacts⟩
    | some n =>
      refine ⟨false, [("has_carve_outs", .bool true)], .bool true, ?_, .inr ⟨rfl, rfl⟩, false, ?_⟩
      · unfold checkCarveOuts
        simp only [if_pos hflag, hlength]
        exact Acts.ok fun o => adds_correct o "has_carve_outs" (.bool true) _
      · have htruthy : carveOuts.truthy = true := (Bool.and_eq_true_iff.1 hflag).1
        unfold checkCarveOuts
        simp only [Value.isFalse, htruthy, Bool.and_false, Bool.not_true, Bool.false_and,
          Bool.false_eq_true, if_false]
        exact Acts.ok Adds.refl
  · have hacts : Acts (checkCarveOuts carveOuts carveText hasCarveOuts) false [] [] := by
      unfold checkCarveOuts
      simp only [if_neg hflag]
      split
      · exact Acts.ok fun o => adds_warning o _ _ _
      · exact Acts.ok Adds.refl
    exact ⟨_, _, hasCarveOuts, hacts, .inl ⟨rfl, rfl⟩, _, hacts⟩

theorem checkLiabilityCap_eq (std : Stdlib) (attributes : ValueDict) :
    checkLiabilityCap std attributes = fun o =>
      capValue std (Value.get attributes "cap_basis") (Value.get attributes "cap_amount")
          (Value.get attributes "cap_reference_period_months") (Value.get attributes "cap_multiple")
          o >>=
        checkCarveOuts (Value.get attributes "carve_outs") (Value.get attributes "carve_out_text")
          (Value.get attributes "has_carve_outs") := by
  funext o
  unfold checkLiabilityCap capValue
  dsimp only
  cases checkMultiple std (Value.get attributes "cap_basis") (Value.get attributes "cap_multiple") o
    <;> rfl

theorem checkLiabilityCap_settles (std : Stdlib) : Settles (checkLiabilityCap std) := by
  intro attributes
  rw [checkLiabilityCap_eq]
  rcases capValue_cases std (Value.get attributes "cap_basis") (Value.get attributes "cap_amount")
    (Value.get attributes "cap_reference_period_months") (Value.get attributes "cap_multiple") with
    hraise | ⟨errors, items, multiple, hvalue, hitems, errors', hvalue', hsub⟩
  · refine ⟨true, [], [], hraise.bind_raised, by simp, fun attributes' h => ⟨true, [], ?_, by simp⟩⟩
    rw [checkLiabilityCap_eq, h.get_eq (by decide) (by decide) rfl,
      h.get_eq (by decide) (by decide) rfl, h.get_eq (by decide) (by decide) rfl,
      h.get_eq (by decide) (by decide) rfl]
    exact hraise.bind_raised
  · obtain ⟨raised, items', flag, hcarve, hitems', raised', hcarve'⟩ :=
      checkCarveOuts_cases (Value.get attributes "carve_outs")
        (Value.get attributes "carve_out_text") (Value.get attributes "has_carve_outs")
    refine ⟨raised, _, items ++ items', hvalue.bind hcarve, ?_, fun attributes' h => ?_⟩
    · intro e he
      rcases List.mem_append.1 he with he | he
      · rcases hitems with ⟨rfl, -⟩ | ⟨⟨x, rfl⟩, rfl⟩
        · cases he
        · exact .inl ⟨x, List.mem_singleton.1 he⟩
      · rcases hitems' with ⟨rfl, -⟩ | ⟨rfl, rfl⟩
        · cases he
        · exact .inr (.inl (List.mem_singleton.1 he))
    · have hother : ∀ key, key ≠ "cap_multiple" → key ≠ "has_carve_outs" →
          (Dict.ofItems (items ++ items')).lookup key = none := by
        intro key hne hne'
        rcases hitems with ⟨rfl, -⟩ | ⟨-, rfl⟩
        · rcases hitems' with ⟨rfl, -⟩ | ⟨-, rfl⟩ <;> simp [Dict.ofItems, Dict.assign, hne']
        · rcases hitems' with ⟨rfl, -⟩ | ⟨-, rfl⟩ <;> simp [Dict.ofItems, Dict.assign, hne, hne']
      have hmultiple : Value.get attributes' "cap_multiple" = multiple := by
        rcases hitems with ⟨rfl, rfl⟩ | ⟨-, rfl⟩
        · rcases hitems' with ⟨rfl, -⟩ | ⟨-, rfl⟩ <;> exact h.get_eq (by decide) (by decide) rfl
        · rcases hitems' with ⟨rfl, -⟩ | ⟨-, rfl⟩ <;> exact h.get_item (by decide) (by decide) rfl
      have hflag : Value.get attributes' "has_carve_outs" = flag := by
        rcases hitems' with ⟨rfl, rfl⟩ | ⟨-, rfl⟩
        · rcases hitems with ⟨rfl, -⟩ | ⟨-, rfl⟩ <;> exact h.get_eq (by decide) (by decide) rfl
        · rcases hitems with ⟨rfl, -⟩ | ⟨-, rfl⟩ <;> exact h.get_item (by decide) (by decide) rfl
      have hread : ∀ key, Text.contains "currency" key = false → Text.endsWith "_side" key = false →
          key ≠ "cap_multiple" → key ≠ "has_carve_outs" →
          Value.get attributes' key = Value.get attributes key :=
        fun key hcurrency hside hne hne' => h.get_eq hcurrency hside (hother key hne hne')
      refine ⟨raised', errors', ?_, by simpa using hsub⟩
      rw [checkLiabilityCap_eq, hmultiple, hflag,
        hread "cap_basis" (by decide) (by decide) (by decide) (by decide),
        hread "cap_amount" (by decide) (by decide) (by decide) (by decide),
        hread "cap_reference_period_months" (by decide) (by decide) (by decide) (by decide),
        hread "carve_outs" (by decide) (by decide) (by decide) (by decide),
        hread "carve_out_text" (by decide) (by decide) (by decide) (by decide)]
      simpa using hvalue'.bind hcarve'

theorem checkIndemnity_settles (std : Stdlib) : Settles (checkIndemnity std) := by
  intro attributes
  by_cases hunset : ((Value.get attributes "posture").isStr IndemnityPosture.mutual.value &&
    (Value.get attributes "is_mutual").isNull) = true
  · -- the flag is filled in, and a mutual posture is not one-sided
    obtain ⟨hposture, hnull⟩ := Bool.and_eq_true_iff.1 hunset
    have hmutual : Value.get attributes "posture" = .str "mutual" := by
      cases hvalue : Value.get attributes "posture" with
      | str s =>
        rw [hvalue] at hposture
        rw [show s = "mutual" from of_decide_eq_true hposture]
      | _ =>
        rw [hvalue] at hposture
        cases hposture
    have hnull := Value.isNull_eq_true.1 hnull
    refine ⟨false, [], [("is_mutual", .bool true)], ?_, ?_, fun attributes' h =>
      ⟨false, [], ?_, List.Subset.refl _⟩⟩
    · unfold checkIndemnity
      simp only [hmutual, hnull]
      exact Acts.ok fun o => adds_correct o "is_mutual" (.bool true) _
    · intro e he
      exact .inr (.inr (List.mem_singleton.1 he))
    · unfold checkIndemnity
      have hflag : Value.get attributes' "is_mutual" = .bool true :=
        h.get_item (by decide) (by decide) rfl
      have hposture' : Value.get attributes' "posture" = .str "mutual" :=
        (h.get_eq (by decide) (by decide) rfl).trans hmutual
      simp only [hflag, hposture']
      exact Acts.ok Adds.refl
  · -- nothing is corrected
    have hacts : ∃ raised errors, Acts (checkIndemnity std attributes) raised errors [] := by
      unfold checkIndemnity
      simp only [if_neg hunset]
      split
      · exact ⟨true, [], Acts.raise⟩
      · split
        · exact ⟨false, _, Acts.ok fun o => adds_error o _ _ _⟩
        · split
          · exact ⟨false, _, Acts.ok fun o => adds_error o _ _ _⟩
          · exact ⟨false, [], Acts.ok Adds.refl⟩
    obtain ⟨raised, errors, hacts⟩ := hacts
    refine ⟨raised, errors, [], hacts, by simp, fun attributes' h =>
      ⟨raised, errors, ?_, List.Subset.refl _⟩⟩
    have hposture : Value.get attributes' "posture" = Value.get attributes "posture" :=
      h.get_eq (by decide) (by decide) rfl
    have hflag : Value.get attributes' "is_mutual" = Value.get attributes "is_mutual" :=
      h.get_eq (by decide) (by decide) rfl
    have hsame : checkIndemnity std attributes' = checkIndemnity std attributes := by
      unfold checkIndemnity
      rw [hposture, hflag]
    rw [hsame]
    exact hacts

theorem checkNotice_adds (std : Stdlib) (notice cure : Value) (o : FieldOutcome) :
    Adds o (checkNotice std notice cure o) [] [] := by
  unfold checkNotice
  cases notice.num? with
  | none => exact Adds.refl _
  | some n =>
    cases cure.num? with
    | none => exact Adds.refl _
    | some c =>
      dsimp only
      split
      · exact Adds.refl _
      · exact adds_warning o _ _ _

theorem checkCurable_acts (std : Stdlib) (general : Rat → String) (isCurable cure : Value) :
    ∃ raised, Acts (checkCurable std general isCurable cure) raised [] [] := by
  unfold checkCurable
  cases cure.num? with
  | none => exact ⟨false, Acts.ok Adds.refl⟩
  | some c =>
    dsimp only
    split
    · cases cure.toFloat std with
      | error e => exact ⟨true, Acts.raise⟩
      | ok x => exact ⟨false, Acts.ok fun o => adds_warning o _ _ _⟩
    · exact ⟨false, Acts.ok Adds.refl⟩

theorem checkTerminationPeriods_settles (std : Stdlib) (general : Rat → String) :
    Settles (checkTerminationPeriods std general) := by
  intro attributes
  obtain ⟨raised, hcurable⟩ := checkCurable_acts std general (Value.get attributes "is_curable")
    (Value.get attributes "cure_period_days")
  have hacts : Acts (checkTerminationPeriods std general attributes) raised [] [] :=
    Acts.after (checkNotice_adds std (Value.get attributes "notice_days")
      (Value.get attributes "cure_period_days")) hcurable
  refine ⟨raised, [], [], hacts, by simp, fun attributes' h =>
    ⟨raised, [], ?_, List.Subset.refl _⟩⟩
  have hnotice : Value.get attributes' "notice_days" = Value.get attributes "notice_days" :=
    h.get_eq (by decide) (by decide) rfl
  have hcure : Value.get attributes' "cure_period_days" = Value.get attributes "cure_period_days" :=
    h.get_eq (by decide) (by decide) rfl
  have hcurable : Value.get attributes' "is_curable" = Value.get attributes "is_curable" :=
    h.get_eq (by decide) (by decide) rfl
  have hsame : checkTerminationPeriods std general attributes' =
      checkTerminationPeriods std general attributes := by
    unfold checkTerminationPeriods
    rw [hnotice, hcure, hcurable]
  rw [hsame]
  exact hacts

theorem clauseRules_cases (std : Stdlib) (general : Rat → String) (clauseKey : String) :
    clauseRules std general clauseKey = [] ∨
      ∃ rule, clauseRules std general clauseKey = [rule] ∧ Settles rule.run := by
  unfold clauseRules
  split
  · exact .inr ⟨_, rfl, checkLiabilityCap_settles std⟩
  · split
    · exact .inr ⟨_, rfl, checkIndemnity_settles std⟩
    · split
      · exact .inr ⟨_, rfl, checkTerminationPeriods_settles std general⟩
      · exact .inl rfl

theorem runRules_again (std : Stdlib) (general : Rat → String) (clauseKey : String)
    (attributes : ValueDict) :
    ∃ errors items,
      (∀ o, Adds o ((clauseRules std general clauseKey).foldl (runRule attributes) o) errors
        items) ∧
      (∀ e ∈ items, RuleItem e) ∧
      ∀ attributes', Rerun items attributes attributes' → ∃ errors',
        (∀ o, Adds o ((clauseRules std general clauseKey).foldl (runRule attributes') o) errors'
          []) ∧ errors' ⊆ errors := by
  rcases clauseRules_cases std general clauseKey with hnone | ⟨rule, hrule, hsettles⟩
  · rw [hnone]
    exact ⟨[], [], Adds.refl, by simp, fun _ _ => ⟨[], Adds.refl, List.Subset.refl _⟩⟩
  · rw [hrule]
    obtain ⟨raised, errors, items, hacts, hitems, hagain⟩ := hsettles attributes
    refine ⟨errors, items, hacts.runRule, hitems, fun attributes' h => ?_⟩
    obtain ⟨raised', errors', hacts', hsub⟩ := hagain attributes' h
    exact ⟨errors', hacts'.runRule, hsub⟩

end Rules

end Corrections

end Clear

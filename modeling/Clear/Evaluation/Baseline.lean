import Clear.Evaluation.Scorecard
import Mathlib.Tactic.NormNum

/-!
# The regression gate

`app/evaluation/benchmark/baseline.py`: the metrics of a run are judged against a baseline, gate by
gate. The texts of the reasons are left out. The gate is monotone, and a run passes against its own
baseline; but it takes every metric for one that was measured (`holds_iff`).
-/

namespace Clear

namespace Baseline

open Scorecard

inductive Direction where
  | higherIsBetter | lowerIsBetter
  deriving DecidableEq, Repr

inductive Verdict where
  | improved | regressed | unchanged | missing | new
  deriving DecidableEq, Repr

structure Gate where
  metric : String
  direction : Direction
  tolerance : Rat := 1 / 100
  relativeTolerance : Option Rat := none
  blocking : Bool := true
  absoluteLimit : Option Rat := none
  deriving DecidableEq

def defaultGates : List Gate :=
  [{ metric := "recall@10", direction := .higherIsBetter, tolerance := 2 / 100 },
    { metric := "recall@5", direction := .higherIsBetter, tolerance := 2 / 100 },
    { metric := "mrr", direction := .higherIsBetter, tolerance := 2 / 100 },
    { metric := "ndcg@10", direction := .higherIsBetter, tolerance := 2 / 100 },
    { metric := "citation_precision", direction := .higherIsBetter, tolerance := 3 / 100 },
    { metric := "citation_recall", direction := .higherIsBetter, tolerance := 5 / 100,
      blocking := false },
    { metric := "hallucination_rate", direction := .lowerIsBetter, tolerance := 1 / 100 },
    { metric := "broken_citations", direction := .lowerIsBetter, tolerance := 0,
      absoluteLimit := some 0 },
    { metric := "guardrail_accuracy", direction := .higherIsBetter, tolerance := 3 / 100 },
    { metric := "false_accept_rate", direction := .lowerIsBetter, tolerance := 2 / 100 },
    { metric := "latency_p95_ms", direction := .lowerIsBetter, tolerance := 250,
      relativeTolerance := some (20 / 100) },
    { metric := "mean_cost_usd", direction := .lowerIsBetter, tolerance := 5 / 10000,
      relativeTolerance := some (25 / 100) },
    { metric := "composite", direction := .higherIsBetter, tolerance := 2 / 100 },
    { metric := "intent_accuracy", direction := .higherIsBetter, tolerance := 5 / 100,
      blocking := false },
    { metric := "document_type_accuracy", direction := .higherIsBetter, tolerance := 5 / 100,
      blocking := false },
    { metric := "false_filtering_rate", direction := .lowerIsBetter, tolerance := 5 / 100,
      blocking := false },
    { metric := "ece", direction := .lowerIsBetter, tolerance := 5 / 100, blocking := false },
    { metric := "duplicate_rate", direction := .lowerIsBetter, tolerance := 5 / 100,
      blocking := false }]

structure MetricComparison where
  metric : String
  baseline : Option Rat
  current : Option Rat
  verdict : Verdict
  direction : Direction
  blocking : Bool

def MetricComparison.failed (c : MetricComparison) : Bool :=
  c.blocking && (c.verdict = .regressed || c.verdict = .missing)

abbrev Metrics := List (String × Rat)

/-- `from_dict(as_dict(from_scorecard(…)))`: what is saved of a run. -/
def saved (metrics : Metrics) : Metrics :=
  metrics.map fun metric => (metric.1, Rounding.toDigits 6 metric.2)

def breachesLimit (gate : Gate) (value : Rat) : Bool :=
  match gate.absoluteLimit with
  | none => false
  | some limit =>
    match gate.direction with
    | .lowerIsBetter => limit < value
    | .higherIsBetter => value < limit

/-- The movement that `_judge` takes for noise. -/
def allowance (gate : Gate) (before : Rat) : Rat :=
  match gate.relativeTolerance with
  | none => gate.tolerance
  | some relative => max gate.tolerance (|before| * relative)

def judge (gate : Gate) (before after : Rat) : Verdict :=
  let delta := after - before
  let improved : Bool :=
    match gate.direction with
    | .higherIsBetter => 0 < delta
    | .lowerIsBetter => delta < 0
  if |delta| ≤ allowance gate before then .unchanged
  else if improved then .improved
  else .regressed

/-- The body of the loop of `compare`. -/
def comparison (current : Metrics) (baseline : Option Metrics) (gate : Gate) : MetricComparison :=
  let before := baseline.bind fun metrics => metrics.lookup gate.metric
  match current.lookup gate.metric with
  | none =>
    { metric := gate.metric, baseline := before, current := none, verdict := .missing,
      direction := gate.direction, blocking := gate.blocking }
  | some value =>
    if breachesLimit gate value then
      { metric := gate.metric, baseline := before, current := some value, verdict := .regressed,
        direction := gate.direction, blocking := gate.blocking }
    else
      match before with
      | none =>
        { metric := gate.metric, baseline := none, current := some value, verdict := .new,
          direction := gate.direction, blocking := false }
      | some before =>
        { metric := gate.metric, baseline := some before, current := some value,
          verdict := judge gate before value, direction := gate.direction,
          blocking := gate.blocking }

def compare (current : Metrics) (baseline : Option Metrics) (gates : List Gate) :
    List MetricComparison :=
  gates.map (comparison current baseline)

def passed (comparisons : List MetricComparison) : Bool :=
  (comparisons.filter MetricComparison.failed).isEmpty

/-! ## What the gate should do -/

def AtLeastAsGood (gate : Gate) (value value' : Option Rat) : Prop :=
  match gate.direction with
  | .higherIsBetter => value.elim (value' = none) fun x => ∃ y ∈ value', x ≤ y
  | .lowerIsBetter => value.elim (value' = none) fun x => ∃ y ∈ value', y ≤ x

variable (std : Stdlib) (log2 : Log2)

/-- The gate cannot be passed by measuring less. -/
structure Holds (baseline : Option Metrics) (gates : List Gate) (results : List CaseResult) :
    Prop where
  monotone : ∀ results', (∀ gate ∈ gates, AtLeastAsGood gate
      ((metricsForComparison std log2 results).lookup gate.metric)
      ((metricsForComparison std log2 results').lookup gate.metric)) →
    passed (compare (metricsForComparison std log2 results) baseline gates) = true →
    passed (compare (metricsForComparison std log2 results') baseline gates) = true
  itself : (∀ gate ∈ defaultGates,
      ∀ value ∈ (metricsForComparison std log2 results).lookup gate.metric,
        breachesLimit gate value = false) →
    passed (compare (metricsForComparison std log2 results)
      (some (saved (metricsForComparison std log2 results))) defaultGates) = true
  missing : ∀ gate ∈ gates, (∀ r ∈ results, contributes std gate.metric r = false) →
    (comparison (metricsForComparison std log2 results) baseline gate).verdict = .missing ∧
      (gate.blocking = true →
        passed (compare (metricsForComparison std log2 results) baseline gates) = false)

def Measured (gates : List Gate) (results : List CaseResult) : Prop :=
  ∀ gate ∈ gates, gate.metric ∈ names → ∃ r ∈ results, contributes std gate.metric r = true

/-! ## One gate -/

section Gates

variable {std log2} {gate : Gate} {gates : List Gate} {current current' : Metrics}
  {baseline : Option Metrics} {before value value' : Rat}

/-- How much worse a metric is than before. -/
def loss (gate : Gate) (before after : Rat) : Rat :=
  match gate.direction with
  | .higherIsBetter => before - after
  | .lowerIsBetter => after - before

theorem judge_eq_regressed_iff : judge gate before value = .regressed ↔
    0 ≤ loss gate before value ∧ allowance gate before < loss gate before value := by
  have hsplit : ∀ delta worse : Rat, (worse = delta ∨ worse = -delta) →
      (¬ |delta| ≤ allowance gate before ∧ 0 ≤ worse ↔
        0 ≤ worse ∧ allowance gate before < worse) := by
    intro delta worse hworse
    rw [and_comm]
    refine and_congr_right fun hnonneg => ?_
    have habs : |delta| = worse := by
      rcases hworse with h | h
      · rw [← h, abs_of_nonneg hnonneg]
      · rw [← abs_neg, ← h, abs_of_nonneg hnonneg]
    rw [habs, not_le]
  unfold judge loss
  cases gate.direction with
  | higherIsBetter =>
    dsimp only
    rw [← hsplit (value - before) (before - value) (.inr (by ring))]
    split
    · next h => simp [h]
    · next h =>
      split
      · next himproved =>
        have hpos : 0 < value - before := by simpa using himproved
        simp only [reduceCtorEq, false_iff, not_and, not_le]
        intro
        linarith
      · next hworse =>
        have hnonpos : ¬ 0 < value - before := by simpa using hworse
        simp only [true_iff]
        exact ⟨h, by linarith⟩
  | lowerIsBetter =>
    dsimp only
    rw [← hsplit (value - before) (value - before) (.inl rfl)]
    split
    · next h => simp [h]
    · next h =>
      split
      · next himproved =>
        have hneg : value - before < 0 := by simpa using himproved
        simp only [reduceCtorEq, false_iff, not_and, not_le]
        intro
        exact hneg
      · next hworse =>
        have hnonneg : ¬ value - before < 0 := by simpa using hworse
        simp only [true_iff]
        exact ⟨h, not_lt.1 hnonneg⟩

def NotWorse (gate : Gate) (value value' : Rat) : Prop :=
  match gate.direction with
  | .higherIsBetter => value ≤ value'
  | .lowerIsBetter => value' ≤ value

theorem breachesLimit_mono (h : NotWorse gate value value')
    (hbreach : breachesLimit gate value' = true) : breachesLimit gate value = true := by
  unfold breachesLimit NotWorse at *
  cases hlimit : gate.absoluteLimit with
  | none => simp [hlimit] at hbreach
  | some limit =>
    rw [hlimit] at hbreach
    cases hdirection : gate.direction with
    | higherIsBetter =>
      rw [hdirection] at h hbreach
      dsimp only at *
      rw [decide_eq_true_iff] at *
      linarith
    | lowerIsBetter =>
      rw [hdirection] at h hbreach
      dsimp only at *
      rw [decide_eq_true_iff] at *
      linarith

theorem loss_mono (before : Rat) (h : NotWorse gate value value') :
    loss gate before value' ≤ loss gate before value := by
  unfold loss NotWorse at *
  cases hdirection : gate.direction with
  | higherIsBetter =>
    rw [hdirection] at h
    dsimp only at *
    linarith
  | lowerIsBetter =>
    rw [hdirection] at h
    dsimp only at *
    linarith

theorem judge_mono (h : NotWorse gate value value')
    (hjudge : judge gate before value' = .regressed) : judge gate before value = .regressed := by
  rw [judge_eq_regressed_iff] at *
  have hloss := loss_mono before h
  exact ⟨hjudge.1.trans hloss, hjudge.2.trans_le hloss⟩

/-! ## All gates -/

theorem passed_iff : passed (compare current baseline gates) = true ↔
    ∀ gate ∈ gates, (comparison current baseline gate).failed = false := by
  unfold passed compare
  rw [List.isEmpty_iff, List.filter_eq_nil_iff]
  simp

theorem judge_ne_missing : judge gate before value ≠ .missing := by
  unfold judge
  dsimp only
  split
  · simp
  · split
    · split <;> simp
    · split <;> simp

theorem failed_eq_true {c : MetricComparison} : c.failed = true ↔
    c.blocking = true ∧ (c.verdict = .regressed ∨ c.verdict = .missing) := by
  simp [MetricComparison.failed]

theorem failed_iff : (comparison current baseline gate).failed = true ↔ gate.blocking = true ∧
    (current.lookup gate.metric = none ∨ ∃ value ∈ current.lookup gate.metric,
      breachesLimit gate value = true ∨
      ∃ before ∈ baseline.bind fun metrics => metrics.lookup gate.metric,
        judge gate before value = .regressed) := by
  rw [failed_eq_true]
  unfold comparison
  cases current.lookup gate.metric with
  | none => simp
  | some value =>
    dsimp only
    by_cases hbreach : breachesLimit gate value = true
    · simp [hbreach]
    · rw [if_neg hbreach]
      cases baseline.bind fun metrics => metrics.lookup gate.metric with
      | none => simp [hbreach]
      | some before =>
        simp [hbreach, judge_ne_missing]

theorem failed_mono
    (h : AtLeastAsGood gate (current.lookup gate.metric) (current'.lookup gate.metric))
    (hfailed : (comparison current' baseline gate).failed = true) :
    (comparison current baseline gate).failed = true := by
  rw [failed_iff] at *
  refine ⟨hfailed.1, ?_⟩
  have hcases : current.lookup gate.metric = none ∨ ∃ value ∈ current.lookup gate.metric,
      ∃ value' ∈ current'.lookup gate.metric, NotWorse gate value value' := by
    unfold AtLeastAsGood at h
    unfold NotWorse
    cases hvalue : current.lookup gate.metric with
    | none => exact .inl rfl
    | some value =>
      refine .inr ⟨value, rfl, ?_⟩
      rw [hvalue] at h
      cases hdirection : gate.direction with
      | higherIsBetter => simpa [hdirection] using h
      | lowerIsBetter => simpa [hdirection] using h
  rcases hcases with hnone | ⟨value, hvalue, value', hvalue', hworse⟩
  · exact .inl hnone
  · refine .inr ⟨value, hvalue, ?_⟩
    rcases hfailed.2 with hnone | ⟨value'', hvalue'', hbad⟩
    · rw [hnone] at hvalue'
      cases hvalue'
    · obtain rfl : value' = value'' := Option.mem_unique hvalue' hvalue''
      rcases hbad with hbreach | ⟨before, hbefore, hjudge⟩
      · exact .inl (breachesLimit_mono hworse hbreach)
      · exact .inr ⟨before, hbefore, judge_mono hworse hjudge⟩

theorem passed_mono
    (h : ∀ gate ∈ gates,
      AtLeastAsGood gate (current.lookup gate.metric) (current'.lookup gate.metric))
    (hpassed : passed (compare current baseline gates) = true) :
    passed (compare current' baseline gates) = true := by
  rw [passed_iff] at *
  intro gate hgate
  cases hfailed : (comparison current' baseline gate).failed with
  | false => rfl
  | true =>
    have hbefore := failed_mono (h gate hgate) hfailed
    rw [hpassed gate hgate] at hbefore
    cases hbefore

/-! ## A run and its own baseline -/

theorem lookup_saved (name : String) :
    (saved current).lookup name = (current.lookup name).map (Rounding.toDigits 6) := by
  unfold saved
  induction current with
  | nil => rfl
  | cons metric metrics ih =>
    rw [List.map_cons, List.lookup_cons, List.lookup_cons]
    cases name == metric.1 with
    | true => rfl
    | false => exact ih

theorem tolerance_le_allowance : gate.tolerance ≤ allowance gate before := by
  unfold allowance
  cases gate.relativeTolerance with
  | none => exact le_rfl
  | some relative => exact le_max_left _ _

theorem judge_of_close (h : |value - before| ≤ gate.tolerance) :
    judge gate before value = .unchanged := by
  unfold judge
  dsimp only
  rw [if_pos (h.trans tolerance_le_allowance)]

/-- Each default gate is on a metric that is computed, and tolerates the rounding of its value, or
is on a number that rounding keeps. -/
theorem defaultGates_tolerant : ∀ gate ∈ defaultGates, gate.metric ∈ names ∧
    0 ≤ gate.tolerance ∧
      (1 / 2 / 10 ^ 6 ≤ gate.tolerance ∨ gate.metric = "broken_citations") := by
  decide +kernel

theorem lookup_broken (results : List CaseResult) :
    (metricsForComparison std log2 results).lookup "broken_citations" =
      some (brokenCitations std results : Rat) := by
  unfold metricsForComparison
  rw [Dict.lookup_assign_ne (by decide)]
  rfl

theorem close_saved (results : List CaseResult) (hgate : gate ∈ defaultGates)
    (hvalue : (metricsForComparison std log2 results).lookup gate.metric = some value) :
    |value - Rounding.toDigits 6 value| ≤ gate.tolerance := by
  obtain ⟨-, hnonneg, htolerant | hbroken⟩ := defaultGates_tolerant gate hgate
  · exact (Rounding.abs_sub_toDigits_le 6 value).trans htolerant
  · rw [hbroken, lookup_broken, Option.some_inj] at hvalue
    have hkept := Rounding.toDigits_intCast 6 (brokenCitations std results : Int)
    rw [Int.cast_natCast, hvalue] at hkept
    rw [hkept, sub_self, abs_zero]
    exact hnonneg

theorem passed_itself (results : List CaseResult)
    (h : ∀ gate ∈ defaultGates,
      ∀ value ∈ (metricsForComparison std log2 results).lookup gate.metric,
        breachesLimit gate value = false) :
    passed (compare (metricsForComparison std log2 results)
      (some (saved (metricsForComparison std log2 results))) defaultGates) = true := by
  rw [passed_iff]
  intro gate hgate
  obtain ⟨value, hvalue⟩ := Option.isSome_iff_exists.1
    (isSome_lookup_iff.2 (defaultGates_tolerant gate hgate).1 :
      ((metricsForComparison std log2 results).lookup gate.metric).isSome = true)
  rw [← Bool.not_eq_true, failed_iff]
  rintro ⟨-, hbad⟩
  simp only [hvalue, lookup_saved, reduceCtorEq, false_or, Option.bind_some, Option.map_some,
    Option.mem_some_iff, exists_eq_left'] at hbad
  rcases hbad with hbreach | hjudge
  · rw [h gate hgate value hvalue] at hbreach
    cases hbreach
  · rw [judge_of_close (close_saved results hgate hvalue)] at hjudge
    cases hjudge

/-! ## Metrics that nothing was measured for -/

theorem verdict_missing_iff : (comparison current baseline gate).verdict = .missing ↔
    current.lookup gate.metric = none := by
  unfold comparison
  cases current.lookup gate.metric with
  | none => simp
  | some value =>
    dsimp only
    split
    · simp
    · cases baseline.bind fun metrics => metrics.lookup gate.metric with
      | none => simp
      | some before => simp [judge_ne_missing]

/-- For every baseline, gates and run: the gate is monotone, a run passes against itself, and every
gated metric to which no case contributes is missing, if and only if each gated metric that is
computed has a case that contributes to it. -/
theorem holds_iff (baseline : Option Metrics) (gates : List Gate) (results : List CaseResult) :
    Holds std log2 baseline gates results ↔ Measured std gates results := by
  constructor
  · intro h gate hgate hname
    by_contra hnone
    have hall : ∀ r ∈ results, contributes std gate.metric r = false := by
      intro r hr
      rw [← Bool.not_eq_true]
      exact fun hr' => hnone ⟨r, hr, hr'⟩
    have hmissing := verdict_missing_iff.1 (h.missing gate hgate hall).1
    have hsome : ((metricsForComparison std log2 results).lookup gate.metric).isSome = true :=
      isSome_lookup_iff.2 hname
    rw [hmissing] at hsome
    cases hsome
  · intro hmeasured
    refine ⟨fun results' h => passed_mono h, passed_itself results, fun gate hgate hnone => ?_⟩
    have hname : gate.metric ∉ names := by
      intro hname
      obtain ⟨r, hr, hcontributes⟩ := hmeasured gate hgate hname
      rw [hnone r hr] at hcontributes
      cases hcontributes
    have hlookup : (metricsForComparison std log2 results).lookup gate.metric = none := by
      rw [← Option.not_isSome_iff_eq_none, isSome_lookup_iff]
      exact hname
    refine ⟨verdict_missing_iff.2 hlookup, fun hblocking => ?_⟩
    rw [← Bool.not_eq_true, passed_iff]
    intro hpassed
    have hfailed := failed_iff.2 (⟨hblocking, .inl hlookup⟩ :
      gate.blocking = true ∧ (_ ∨ ∃ value ∈ _, breachesLimit gate value = true ∨
        ∃ before ∈ baseline.bind fun metrics => metrics.lookup gate.metric, _))
    rw [hpassed gate hgate] at hfailed
    cases hfailed

/-- In a run without an answer the hallucination rate is taken for a measured zero: the gate that
blocks on it passes. -/
theorem holds_fails : ¬ Holds Stdlib.ascii Log2.floor (some [("hallucination_rate", 0)])
    [{ metric := "hallucination_rate", direction := .lowerIsBetter }] [{}] := by
  intro h
  have hmissing := (h.missing _ List.mem_cons_self (by decide +kernel)).1
  revert hmissing
  decide +kernel

end Gates

end Baseline

end Clear

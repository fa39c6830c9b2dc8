import Clear.Services.AlertEvaluator
import Mathlib.Data.List.ReduceOption

/-!
# What a sweep collects

The conditions that hold, stated without the order of the evaluation and without the window that the
obligations are selected by (`Holds`). `collect` drafts exactly these (`mem_collect`), at most one for
each dedupe key (`collect_nodup`): the key of a draft names its type and the contract or obligation it
is about (`About`).
-/

namespace Clear

namespace Alerts

variable {std : Stdlib} {db : Database} {rules : Rules} {today : Date} {only : Option Uuid}

/-! ## Keys -/

def keyStart : AlertType → List Char
  | .contractExpiring => "expiring".toList
  | .autoRenewalNotice => "renewal".toList
  | .highRisk => "high_risk".toList
  | .missingMandatoryClause => "missing_clause".toList
  | .reviewRequired => "review_required".toList
  | .obligationDue => "obligation".toList
  | .processingFailed => []

def KeyOf (alertType : AlertType) (subject : Uuid) (key : String) : Prop :=
  ∃ rest, key.toList = keyStart alertType ++ ':' :: subject.str.toList ++ rest

theorem keyStart_inj {t t' : AlertType} (h : keyStart t = keyStart t') : t = t' := by
  revert h
  cases t <;> cases t' <;> decide

theorem colon_not_mem_keyStart (t : AlertType) : ':' ∉ keyStart t := by
  cases t <;> decide

theorem append_cons_inj {α : Type} {sep : α} {xs xs' ys ys' : List α} (hxs : sep ∉ xs)
    (hxs' : sep ∉ xs') (h : xs ++ sep :: ys = xs' ++ sep :: ys') : xs = xs' ∧ ys = ys' := by
  induction xs generalizing xs' with
  | nil =>
    cases xs' with
    | nil => exact ⟨rfl, (List.cons.inj h).2⟩
    | cons x xs' =>
      obtain ⟨rfl, -⟩ := List.cons.inj h
      exact absurd List.mem_cons_self hxs'
  | cons x xs ih =>
    cases xs' with
    | nil =>
      obtain ⟨rfl, -⟩ := List.cons.inj h
      exact absurd List.mem_cons_self hxs
    | cons x' xs' =>
      obtain ⟨rfl, hrest⟩ := List.cons.inj h
      obtain ⟨rfl, rfl⟩ := ih (fun hmem => hxs (List.mem_cons_of_mem _ hmem))
        (fun hmem => hxs' (List.mem_cons_of_mem _ hmem)) hrest
      exact ⟨rfl, rfl⟩

theorem KeyOf.inj {t t' : AlertType} {subject subject' : Uuid} {key : String}
    (h : KeyOf t subject key) (h' : KeyOf t' subject' key) : t = t' ∧ subject = subject' := by
  obtain ⟨rest, hrest⟩ := h
  obtain ⟨rest', hrest'⟩ := h'
  rw [hrest, List.append_assoc, List.append_assoc] at hrest'
  obtain ⟨hstart, hsubject⟩ := append_cons_inj (colon_not_mem_keyStart t)
    (colon_not_mem_keyStart t') hrest'
  have hlength : subject.str.toList.length = subject'.str.toList.length := by
    rw [Uuid.str_length, Uuid.str_length]
  exact ⟨keyStart_inj hstart,
    Uuid.str_inj.1 (String.toList_inj.1 (List.append_inj_left hsubject hlength))⟩

theorem keyOf_plain {t : AlertType} {start : String} (h : start.toList = keyStart t ++ [':'])
    (subject : Uuid) : KeyOf t subject (start ++ subject.str) := by
  refine ⟨[], ?_⟩
  rw [String.toList_append, h]
  simp

theorem keyOf_dated {t : AlertType} {start : String} (h : start.toList = keyStart t ++ [':'])
    (subject : Uuid) (text : String) : KeyOf t subject (start ++ subject.str ++ ":" ++ text) := by
  refine ⟨':' :: text.toList, ?_⟩
  rw [String.toList_append, String.toList_append, String.toList_append, h]
  simp

theorem length_plain {start : String} (h : start.length ≤ 16) (subject : Uuid) :
    (start ++ subject.str).length ≤ 255 := by
  have hlength : subject.str.length = 36 := subject.str_length
  rw [String.length_append, hlength]
  omega

theorem length_dated {start text : String} (h : start.length ≤ 16) (subject : Uuid)
    (htext : text.length = 10) : (start ++ subject.str ++ ":" ++ text).length ≤ 255 := by
  have hlength : subject.str.length = 36 := subject.str_length
  have hcolon : ":".length = 1 := rfl
  rw [String.length_append, String.length_append, String.length_append, hlength, htext, hcolon]
  omega

/-! ## What the evaluators draft -/

structure About (std : Stdlib) (t : AlertType) (subject project : Uuid) (d : AlertDraft) :
    Prop where
  alertType : d.alertType = t
  projectId : d.projectId = project
  key : KeyOf t subject d.dedupeKey
  short : (∀ day, (std.isoformat day).length = 10) → d.dedupeKey.length ≤ 255
  unmarked : "escalated_at" ∉ d.details.map (·.1)

section

variable {contract : ContractRow} {metadata : ContractMetadata} {rule : ResolvedRule}
variable {d : AlertDraft}

theorem evaluateExpiring_about (h : evaluateExpiring std contract metadata rule today = some d) :
    About std .contractExpiring contract.id contract.projectId d := by
  unfold evaluateExpiring at h
  split at h
  · cases h
  next expiry _ =>
    dsimp only at h
    split at h
    · cases h
    · cases h
      exact ⟨rfl, rfl, keyOf_dated (by decide) _ _,
        fun hiso => length_dated (by decide) _ (hiso expiry), by simp⟩

theorem evaluateAutoRenewal_about
    (h : evaluateAutoRenewal std contract metadata rule today = .ok (some d)) :
    About std .autoRenewalNotice contract.id contract.projectId d := by
  unfold evaluateAutoRenewal at h
  split at h
  · cases h
  · obtain ⟨found, -, h⟩ := Except.map_eq_ok.1 h
    obtain ⟨⟨deadline, derived⟩, -, h⟩ := Option.bind_eq_some_iff.1 h
    dsimp only at h
    split at h
    · cases h
    · cases h
      exact ⟨rfl, rfl, keyOf_dated (by decide) _ _,
        fun hiso => length_dated (by decide) _ (hiso deadline), by simp⟩

theorem evaluateHighRisk_about (h : evaluateHighRisk std contract metadata rule today = some d) :
    About std .highRisk contract.id contract.projectId d := by
  unfold evaluateHighRisk at h
  split at h
  · cases h
  · dsimp only at h
    split at h
    · cases h
    · cases h
      exact ⟨rfl, rfl, keyOf_plain (by decide) _, fun _ => length_plain (by decide) _, by simp⟩

theorem evaluateMissingClause_about
    (h : evaluateMissingClause std contract metadata rule today = .ok (some d)) :
    About std .missingMandatoryClause contract.id contract.projectId d := by
  unfold evaluateMissingClause at h
  obtain ⟨watched, -, h⟩ := Except.map_eq_ok.1 h
  dsimp only at h
  split at h
  · cases h
  · cases h
    exact ⟨rfl, rfl, keyOf_plain (by decide) _, fun _ => length_plain (by decide) _, by simp⟩

theorem evaluateReviewRequired_about {pending : Nat}
    (h : evaluateReviewRequired contract rule today pending = some d) :
    About std .reviewRequired contract.id contract.projectId d := by
  unfold evaluateReviewRequired at h
  dsimp only at h
  split at h
  · cases h
  · cases h
    exact ⟨rfl, rfl, keyOf_plain (by decide) _, fun _ => length_plain (by decide) _, by simp⟩

theorem evaluateObligation_about {obligation : Obligation}
    (h : evaluateObligation std obligation contract rule today = some d) :
    About std .obligationDue obligation.id obligation.projectId d := by
  unfold evaluateObligation at h
  split at h
  next status due _ _ =>
    dsimp only at h
    split at h
    · cases h
    · cases h
      exact ⟨rfl, rfl, keyOf_dated (by decide) _ _,
        fun hiso => length_dated (by decide) _ (hiso due), by simp⟩
  · cases h

theorem evaluators_about {e : AlertType × Evaluator} (he : e ∈ evaluators std)
    (h : e.2 contract metadata rule today = .ok (some d)) :
    About std e.1 contract.id contract.projectId d := by
  simp only [evaluators, List.mem_cons, List.not_mem_nil, or_false] at he
  rcases he with rfl | rfl | rfl | rfl
  · exact evaluateExpiring_about (Except.ok.inj h)
  · exact evaluateAutoRenewal_about h
  · exact evaluateHighRisk_about (Except.ok.inj h)
  · exact @evaluateMissingClause_about std today contract metadata rule d h

end

def contractTypes : List AlertType :=
  [.contractExpiring, .autoRenewalNotice, .highRisk, .missingMandatoryClause]

theorem map_evaluators : (evaluators std).map (·.1) = contractTypes := rfl

theorem evaluators_type {e : AlertType × Evaluator} (he : e ∈ evaluators std) :
    e.1 ∈ evaluatedTypes := by
  have hsubset : contractTypes ⊆ evaluatedTypes := by decide
  exact hsubset (List.mem_map_of_mem he)

/-! ## The conditions -/

/-- A draft is a condition that holds now: what an evaluator answers under the rule that governs its
type in the project. -/
inductive Holds (std : Stdlib) (db : Database) (rules : Rules) (today : Date)
    (only : Option Uuid) : AlertDraft → Prop
  | contract {contract : ContractRow} {metadata : ContractMetadata} {e : AlertType × Evaluator}
      {rule : ResolvedRule} {d : AlertDraft} (hcontract : contract ∈ examined db only)
      (hmetadata : db.metadata.getForContract contract.id = some metadata)
      (he : e ∈ evaluators std) (hrule : ruleFor rules contract.projectId e.1 = some rule)
      (h : e.2 contract metadata rule today = .ok (some d)) : Holds std db rules today only d
  | review {contract : ContractRow} {rule : ResolvedRule} {d : AlertDraft}
      (hcontract : contract ∈ examined db only)
      (hrule : ruleFor rules contract.projectId .reviewRequired = some rule)
      (h : evaluateReviewRequired contract rule today (pendingClauses db only contract.id) =
        some d) : Holds std db rules today only d
  | obligation {obligation : Obligation} {contract : ContractRow} {rule : ResolvedRule}
      {d : AlertDraft} (hobligation : obligation ∈ db.obligations)
      (hcontract : contract ∈ db.contracts) (hid : contract.id = obligation.contractId)
      (hlive : contract.deletedAt = none) (honly : only = none ∨ only = some obligation.projectId)
      (hrule : ruleFor rules obligation.projectId .obligationDue = some rule)
      (h : evaluateObligation std obligation contract rule today = some d) :
      Holds std db rules today only d

def Subject (db : Database) (t : AlertType) (subject project : Uuid) : Prop :=
  if t = .obligationDue then ∃ o ∈ db.obligations, o.id = subject ∧ o.projectId = project
  else ∃ c ∈ db.contracts, c.id = subject ∧ c.projectId = project

theorem mem_examined {contract : ContractRow} (h : contract ∈ examined db only) :
    contract ∈ db.contracts ∧ (only = none ∨ only = some contract.projectId) := by
  unfold examined at h
  rw [List.mem_filter] at h
  simp only [Bool.and_eq_true, Bool.or_eq_true, decide_eq_true_eq] at h
  exact ⟨h.1, h.2.2⟩

theorem Holds.about {d : AlertDraft} (h : Holds std db rules today only d) :
    ∃ subject, About std d.alertType subject d.projectId d ∧
      Subject db d.alertType subject d.projectId ∧ d.alertType ∈ evaluatedTypes ∧
      (ruleFor rules d.projectId d.alertType).isSome = true ∧
      (only = none ∨ only = some d.projectId) := by
  have hne : ∀ t ∈ contractTypes ++ [AlertType.reviewRequired], t ≠ .obligationDue := by decide
  cases h with
  | @contract contract metadata e rule _ hcontract hmetadata he hrule h =>
    have habout := evaluators_about he h
    obtain ⟨hmem, honly⟩ := mem_examined hcontract
    refine ⟨contract.id, ?_⟩
    rw [habout.alertType, habout.projectId]
    refine ⟨habout, ?_, evaluators_type he, by rw [hrule]; rfl, honly⟩
    unfold Subject
    rw [if_neg (hne _ (List.mem_append_left _ (List.mem_map_of_mem he)))]
    exact ⟨_, hmem, rfl, rfl⟩
  | @review contract rule _ hcontract hrule h =>
    have habout : About std .reviewRequired contract.id contract.projectId d :=
      evaluateReviewRequired_about h
    obtain ⟨hmem, honly⟩ := mem_examined hcontract
    refine ⟨contract.id, ?_⟩
    rw [habout.alertType, habout.projectId]
    exact ⟨habout, ⟨_, hmem, rfl, rfl⟩, by decide, by rw [hrule]; rfl, honly⟩
  | @obligation obligation contract rule _ hobligation hcontract hid hlive honly hrule h =>
    have habout := evaluateObligation_about h
    refine ⟨obligation.id, ?_⟩
    rw [habout.alertType, habout.projectId]
    exact ⟨habout, ⟨_, hobligation, rfl, rfl⟩, by decide, by rw [hrule]; rfl, honly⟩

/-! ## What is collected -/

theorem mem_contractDrafts {contract : ContractRow} {drafts : List AlertDraft} {d : AlertDraft}
    (h : contractDrafts std db rules today only contract = .ok drafts) :
    d ∈ drafts ↔
      (∃ metadata e rule, db.metadata.getForContract contract.id = some metadata ∧
        e ∈ evaluators std ∧ ruleFor rules contract.projectId e.1 = some rule ∧
        e.2 contract metadata rule today = .ok (some d)) ∨
      ∃ rule, ruleFor rules contract.projectId .reviewRequired = some rule ∧
        evaluateReviewRequired contract rule today (pendingClauses db only contract.id) =
          some d := by
  unfold contractDrafts at h
  obtain ⟨found, hfound, rfl⟩ := Except.map_eq_ok.1 h
  rw [List.reduceOption_mem_iff, List.mem_append, List.mem_singleton,
    Except.mem_of_mapM hfound]
  refine or_congr ?_ ?_
  · constructor
    · rintro ⟨e, he, heval⟩
      unfold evaluate at heval
      split at heval
      next rule metadata hrule hmetadata => exact ⟨metadata, e, rule, hmetadata, he, hrule, heval⟩
      · cases heval
    · rintro ⟨metadata, e, rule, hmetadata, he, hrule, heval⟩
      refine ⟨e, he, ?_⟩
      unfold evaluate
      rw [hrule, hmetadata]
      exact heval
  · rw [eq_comm, Option.bind_eq_some_iff]

theorem governing_mem {rule : ResolvedRule} {project : Uuid} {t : AlertType}
    (hrule : ruleFor rules project t = some rule) :
    ∃ k : Option Uuid × AlertType, k.2 = t ∧ (k, rule) ∈ rules := by
  rcases Option.or_eq_some_iff.1 hrule with h | ⟨-, h⟩
  · exact ⟨_, rfl, Dict.mem_of_lookup h⟩
  · exact ⟨_, rfl, Dict.mem_of_lookup h⟩

theorem mem_thresholds {k : Option Uuid × AlertType} {rule : ResolvedRule} {key : String}
    {default : Int} (hk : k.2 = .obligationDue) (hmem : (k, rule) ∈ rules) :
    rule.days key default ∈ thresholds rules key default :=
  List.mem_map.2 ⟨(k, rule), List.mem_filter.2 ⟨hmem, by simpa using hk⟩, rfl⟩

theorem threshold_le {rule : ResolvedRule} {project : Uuid} {key : String} {default width : Int}
    (hrule : ruleFor rules project .obligationDue = some rule)
    (hmax : (thresholds rules key default).max? = some width) : rule.days key default ≤ width := by
  obtain ⟨k, hk, hmem⟩ := governing_mem hrule
  exact (List.max?_eq_some_iff.1 hmax).2 _ (mem_thresholds hk hmem)

theorem thresholds_ne_nil {rule : ResolvedRule} {project : Uuid} {key : String} {default : Int}
    (hrule : ruleFor rules project .obligationDue = some rule) :
    ∃ width, (thresholds rules key default).max? = some width := by
  obtain ⟨k, hk, hmem⟩ := governing_mem hrule
  exact Option.isSome_iff_exists.1 (List.isSome_max?_of_mem (mem_thresholds hk hmem))

theorem evaluateObligation_some {obligation : Obligation} {contract : ContractRow}
    {rule : ResolvedRule} {d : AlertDraft}
    (h : evaluateObligation std obligation contract rule today = some d) :
    obligation.status ∈ [.open, .inProgress] ∧ ∃ due, obligation.dueDate = some due ∧
      (due : Int) - today ≤ rule.days "window_days" 14 ∧
      -rule.days "overdue_days" 30 ≤ (due : Int) - today := by
  unfold evaluateObligation at h
  split at h
  next status due hstatus hdue =>
    dsimp only at h
    split at h
    · cases h
    next hwindow =>
      refine ⟨?_, due, hdue, by omega, by omega⟩
      revert hstatus
      cases obligation.status <;> simp [openStatus?]
  · cases h

theorem mem_dueObligations {rows : List (Obligation × ContractRow)} {row : Obligation × ContractRow}
    (h : dueObligations db rules today only = .ok rows) (hrow : row ∈ rows) :
    row.1 ∈ db.obligations ∧ row.2 ∈ db.contracts ∧ row.2.id = row.1.contractId ∧
      row.2.deletedAt = none ∧ (only = none ∨ only = some row.1.projectId) := by
  unfold dueObligations at h
  split at h
  · split at h
    · cases h
      obtain ⟨o, ho, hrow⟩ := List.mem_flatMap.1 hrow
      obtain ⟨c, hc, rfl⟩ := List.mem_map.1 hrow
      rw [List.mem_filter] at hc
      simp only [Bool.and_eq_true, Bool.or_eq_true, decide_eq_true_eq,
        Option.isNone_iff_eq_none] at hc
      obtain ⟨hc, ⟨⟨⟨hid, hlive⟩, -⟩, -⟩, honly⟩ := hc
      exact ⟨ho, hc, hid, hlive, honly⟩
    · cases h
  · cases h
    cases hrow

theorem mem_dueObligations_of_holds {rows : List (Obligation × ContractRow)}
    {obligation : Obligation} {contract : ContractRow} {rule : ResolvedRule} {d : AlertDraft}
    (h : dueObligations db rules today only = .ok rows) (hobligation : obligation ∈ db.obligations)
    (hcontract : contract ∈ db.contracts) (hid : contract.id = obligation.contractId)
    (hlive : contract.deletedAt = none) (honly : only = none ∨ only = some obligation.projectId)
    (hrule : ruleFor rules obligation.projectId .obligationDue = some rule)
    (hd : evaluateObligation std obligation contract rule today = some d) :
    (obligation, contract) ∈ rows := by
  obtain ⟨hstatus, due, hdue, hwindow, hoverdue⟩ := evaluateObligation_some hd
  obtain ⟨window, hmaxWindow⟩ : ∃ w, (thresholds rules "window_days" 14).max? = some w :=
    thresholds_ne_nil hrule
  obtain ⟨overdue, hmaxOverdue⟩ : ∃ w, (thresholds rules "overdue_days" 30).max? = some w :=
    thresholds_ne_nil hrule
  have hwindow' := threshold_le hrule hmaxWindow
  have hoverdue' := threshold_le hrule hmaxOverdue
  unfold dueObligations at h
  rw [hmaxWindow, hmaxOverdue] at h
  dsimp only at h
  split at h
  next last first hlast hfirst =>
    cases h
    have hlastEq := Date.addDays?_eq_some hlast
    have hfirstEq := Date.addDays?_eq_some hfirst
    have hafter : (first : Int) ≤ due := by omega
    have hbefore : (due : Int) ≤ last := by omega
    refine List.mem_flatMap.2 ⟨obligation, hobligation, List.mem_map.2 ⟨contract, ?_, rfl⟩⟩
    rw [List.mem_filter]
    have hrange : first ≤ due ∧ due ≤ last :=
      ⟨Int.ofNat_le.1 hafter, Int.ofNat_le.1 hbefore⟩
    simp only [Bool.and_eq_true, Bool.or_eq_true, decide_eq_true_eq, Option.isNone_iff_eq_none,
      hdue, Option.any_some]
    exact ⟨hcontract, ⟨⟨⟨hid, hlive⟩, hrange⟩, hstatus⟩, honly⟩
  · cases h

theorem mem_collect {drafts : List AlertDraft} {d : AlertDraft}
    (h : collect std db rules today only = .ok drafts) :
    d ∈ drafts ↔ Holds std db rules today only d := by
  unfold collect at h
  obtain ⟨found, hfound, h⟩ := Except.bind_eq_ok.1 h
  obtain ⟨due, hdue, h⟩ := Except.bind_eq_ok.1 h
  obtain rfl := Except.pure_eq_ok.1 h
  rw [List.mem_append, List.mem_flatten, List.mem_filterMap]
  constructor
  · rintro (⟨list, hlist, hd⟩ | ⟨⟨obligation, contract⟩, hrow, hd⟩)
    · obtain ⟨contract, hcontract, hdrafts⟩ := (Except.mem_of_mapM hfound).1 hlist
      rcases (mem_contractDrafts hdrafts).1 hd with
        ⟨metadata, e, rule, hmetadata, he, hrule, heval⟩ | ⟨rule, hrule, heval⟩
      · exact .contract hcontract hmetadata he hrule heval
      · exact .review hcontract hrule heval
    · obtain ⟨rule, hrule, heval⟩ := Option.bind_eq_some_iff.1 hd
      obtain ⟨hobligation, hcontract, hid, hlive, honly⟩ := mem_dueObligations hdue hrow
      exact .obligation hobligation hcontract hid hlive honly hrule heval
  · intro hholds
    have hdrafts : ∀ contract ∈ examined db only, ∃ list ∈ found,
        contractDrafts std db rules today only contract = .ok list := by
      intro contract hcontract
      obtain ⟨list, hlist⟩ := Except.ok_of_mapM hfound hcontract
      exact ⟨list, (Except.mem_of_mapM hfound).2 ⟨contract, hcontract, hlist⟩, hlist⟩
    cases hholds with
    | contract hcontract hmetadata he hrule heval =>
      obtain ⟨list, hlist, hok⟩ := hdrafts _ hcontract
      exact .inl ⟨list, hlist,
        (mem_contractDrafts hok).2 (.inl ⟨_, _, _, hmetadata, he, hrule, heval⟩)⟩
    | review hcontract hrule heval =>
      obtain ⟨list, hlist, hok⟩ := hdrafts _ hcontract
      exact .inl ⟨list, hlist, (mem_contractDrafts hok).2 (.inr ⟨_, hrule, heval⟩)⟩
    | obligation hobligation hcontract hid hlive honly hrule heval =>
      refine .inr ⟨_, mem_dueObligations_of_holds hdue hobligation hcontract hid hlive honly hrule
        heval, ?_⟩
      unfold obligationDraft
      rw [hrule]
      exact heval

/-! ## One draft for each key -/

theorem contractDrafts_types {contract : ContractRow} {drafts : List AlertDraft}
    (h : contractDrafts std db rules today only contract = .ok drafts) :
    (drafts.map (·.alertType)).Sublist (contractTypes ++ [.reviewRequired]) := by
  have hevaluators : ∀ (es : List (AlertType × Evaluator)) (found : List (Option AlertDraft)),
      es ⊆ evaluators std →
      es.mapM (evaluate rules today contract (db.metadata.getForContract contract.id)) =
        .ok found →
      (found.reduceOption.map (·.alertType)).Sublist (es.map (·.1)) := by
    intro es
    induction es with
    | nil =>
      intro found _ hfound
      obtain rfl : [] = found := by simpa [pure, Except.pure] using hfound
      exact List.Sublist.refl _
    | cons e es ih =>
      intro found hes hfound
      rw [List.mapM_cons] at hfound
      obtain ⟨o, ho, hfound⟩ := Except.bind_eq_ok.1 hfound
      obtain ⟨rest, hrest, hfound⟩ := Except.bind_eq_ok.1 hfound
      obtain rfl := Except.pure_eq_ok.1 hfound
      have hsub := ih rest (fun e' he' => hes (List.mem_cons_of_mem e he')) hrest
      cases o with
      | none => exact hsub.cons e.1
      | some d =>
        have htype : d.alertType = e.1 := by
          unfold evaluate at ho
          split at ho
          · exact (evaluators_about (hes List.mem_cons_self) ho).alertType
          · cases ho
        rw [List.reduceOption_cons_of_some, List.map_cons, List.map_cons, htype]
        exact hsub.cons_cons e.1
  unfold contractDrafts at h
  obtain ⟨found, hfound, rfl⟩ := Except.map_eq_ok.1 h
  rw [List.reduceOption_append, List.map_append, ← @map_evaluators std]
  refine (hevaluators _ found (fun _ he => he) hfound).append ?_
  cases hreview : (ruleFor rules contract.projectId .reviewRequired).bind fun rule =>
    evaluateReviewRequired contract rule today (pendingClauses db only contract.id) with
  | none => exact List.nil_sublist _
  | some d =>
    obtain ⟨rule, -, hd⟩ := Option.bind_eq_some_iff.1 hreview
    have habout : About std .reviewRequired contract.id contract.projectId d :=
      evaluateReviewRequired_about hd
    have htype := habout.alertType
    rw [List.reduceOption_singleton]
    simp [htype]

theorem contractDrafts_about {contract : ContractRow} {drafts : List AlertDraft} {d : AlertDraft}
    (h : contractDrafts std db rules today only contract = .ok drafts) (hd : d ∈ drafts) :
    About std d.alertType contract.id contract.projectId d ∧ d.alertType ≠ .obligationDue := by
  rcases (mem_contractDrafts h).1 hd with
    ⟨metadata, e, rule, hmetadata, he, hrule, heval⟩ | ⟨rule, hrule, heval⟩
  · have habout := evaluators_about he heval
    have hne : ∀ t ∈ contractTypes, t ≠ .obligationDue := by decide
    rw [habout.alertType]
    exact ⟨habout, hne e.1 (List.mem_map_of_mem he)⟩
  · have habout : About std .reviewRequired contract.id contract.projectId d :=
      evaluateReviewRequired_about heval
    rw [habout.alertType]
    exact ⟨habout, by decide⟩

theorem contractDrafts_nodup {contract : ContractRow} {drafts : List AlertDraft}
    (h : contractDrafts std db rules today only contract = .ok drafts) :
    (drafts.map (·.dedupeKey)).Nodup := by
  have htypes : (drafts.map (·.alertType)).Nodup :=
    (by decide : (contractTypes ++ [AlertType.reviewRequired]).Nodup).sublist (contractDrafts_types h)
  refine List.Nodup.map_on (fun d hd d' hd' hkey => ?_) htypes.of_map
  have habout := (contractDrafts_about h hd).1.key
  rw [hkey] at habout
  exact Keyed.inj htypes hd hd' (habout.inj (contractDrafts_about h hd').1.key).1

theorem dueObligations_nodup {rows : List (Obligation × ContractRow)}
    (hcontracts : (db.contracts.map (·.id)).Nodup)
    (hobligations : (db.obligations.map (·.id)).Nodup)
    (h : dueObligations db rules today only = .ok rows) : (rows.map (·.1.id)).Nodup := by
  unfold dueObligations at h
  split at h
  · split at h
    · cases h
      have hjoin : ((db.obligations.flatMap fun o =>
          (db.contracts.filter (·.id = o.contractId)).map (o, ·)).map (·.1.id)).Nodup :=
        Keyed.join_nodup hobligations hcontracts
      refine hjoin.sublist (List.Sublist.map _ ?_)
      refine List.Sublist.flatMap_right _ fun obligation _ => List.Sublist.map _ ?_
      refine List.monotone_filter_right _ fun contract hc => ?_
      simp only [Bool.and_eq_true] at hc
      exact hc.1.1.1.1
    · cases h
  · cases h
    exact List.nodup_nil

theorem collect_nodup {drafts : List AlertDraft} (hcontracts : (db.contracts.map (·.id)).Nodup)
    (hobligations : (db.obligations.map (·.id)).Nodup)
    (h : collect std db rules today only = .ok drafts) :
    (drafts.map (·.dedupeKey)).Nodup := by
  unfold collect at h
  obtain ⟨found, hfound, h⟩ := Except.bind_eq_ok.1 h
  obtain ⟨due, hdue, h⟩ := Except.bind_eq_ok.1 h
  obtain rfl := Except.pure_eq_ok.1 h
  have hobligation : ∀ row ∈ due, ∀ d, obligationDraft std rules today row = some d →
      About std .obligationDue row.1.id row.1.projectId d := by
    intro row _ d hd
    obtain ⟨rule, -, hd⟩ := Option.bind_eq_some_iff.1 hd
    exact evaluateObligation_about hd
  -- keys of different contracts differ in the contract, keys of one contract in the type
  have hfirst : (found.flatten.map (·.dedupeKey)).Nodup := by
    rw [List.Nodup, List.pairwise_map, List.pairwise_flatten]
    refine ⟨fun drafts hdrafts => ?_, ?_⟩
    · obtain ⟨contract, -, hok⟩ := (Except.mem_of_mapM hfound).1 hdrafts
      exact List.pairwise_map.1 (contractDrafts_nodup hok)
    · refine Except.pairwise_mapM (R := fun c c' : ContractRow => c.id ≠ c'.id) ?_
        (List.pairwise_map.1 (hcontracts.sublist (List.filter_sublist.map _))) hfound
      intro c c' drafts drafts' hne hok hok' d hd d' hd' hkey
      have habout := (contractDrafts_about hok hd).1.key
      rw [hkey] at habout
      exact hne (habout.inj (contractDrafts_about hok' hd').1.key).2
  have hsecond : ((due.filterMap (obligationDraft std rules today)).map
      (·.dedupeKey)).Nodup := by
    rw [List.Nodup, List.pairwise_map, List.pairwise_filterMap]
    refine List.Pairwise.imp_of_mem ?_
      (List.pairwise_map.1 (dueObligations_nodup hcontracts hobligations hdue))
    intro row row' hrow hrow' hne d hd d' hd' hkey
    have habout := (hobligation row hrow d hd).key
    rw [hkey] at habout
    exact hne (habout.inj (hobligation row' hrow' d' hd').key).2
  rw [List.map_append]
  refine hfirst.append hsecond ?_
  intro key hmem hmem'
  obtain ⟨d, hd, rfl⟩ := List.mem_map.1 hmem
  obtain ⟨d', hd', hkey⟩ := List.mem_map.1 hmem'
  obtain ⟨drafts, hdrafts, hd⟩ := List.mem_flatten.1 hd
  obtain ⟨contract, -, hok⟩ := (Except.mem_of_mapM hfound).1 hdrafts
  obtain ⟨row, hrow, hd'⟩ := List.mem_filterMap.1 hd'
  have habout := (hobligation row hrow d' hd').key
  rw [hkey] at habout
  exact (contractDrafts_about hok hd).2 ((contractDrafts_about hok hd).1.key.inj habout).1

end Alerts

end Clear

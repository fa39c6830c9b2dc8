import Clear.Ai.Resilience

/-!
# The requests of one call

The retries of the client run inside the retries of the platform, each with a budget of its own. A
call stays within one budget exactly if none of the two is there, or the first requests end it, each
on the attempt of its own, or all in the first attempt with a failure that the platform gives up on
(`budget_iff`).
-/

namespace Clear

namespace Resilience

/-! ## What is promised -/

def Outcome.failed (o : Outcome) : Bool := o.late || o.failure.isSome

/-- A completion, or a failure that no retry fixes. -/
def Outcome.Decisive (o : Outcome) : Prop :=
  o.late = false ∧ ∀ f, o.failure = some f → f.sdkRetries = false

structure KeepsBudget (settings : LlmSettings) (attemptTimeout : Rat) (draw : Nat → Rat)
    (endpoint : Endpoint) : Prop where
  requests : (generate settings attemptTimeout draw endpoint).2 ≤ settings.maxRetries + 1
  stops : ∀ k, k + 1 < (generate settings attemptTimeout draw endpoint).2 →
    ¬ (endpoint.outcome k).Decisive
  raises : (∃ e, (generate settings attemptTimeout draw endpoint).1 = .error e) ↔
    (endpoint.outcome ((generate settings attemptTimeout draw endpoint).2 - 1)).failed = true
  deadline : ∀ (σ α : Type) (limits : Limits) (operation : Operation σ α) (s : σ) (deadline : Rat),
    limits.deadlineSeconds = some deadline →
      ∀ start ∈ (callWithRetries settings limits draw operation s).2.retries,
        start + limits.attemptTimeout ≤ deadline

/-- The first requests end the call. -/
def Settles (maxRetries : Nat) (endpoint : Endpoint) : Prop :=
  maxRetries = 0 ∨ (∃ k ≤ maxRetries, (endpoint.outcome k).Decisive) ∨
    (∀ k ≤ maxRetries, (endpoint.outcome k).late = true) ∨
    (∀ k ≤ maxRetries, (endpoint.outcome k).late = false) ∧
      ∃ f, (endpoint.outcome maxRetries).failure = some f ∧ classifyRetryable (sdkError f) = none

/-! ## The deadline -/

theorem retries_end {σ α : Type} {settings : LlmSettings} {limits : Limits} {draw : Nat → Rat}
    {operation : Operation σ α} {deadline : Rat} (hd : limits.deadlineSeconds = some deadline)
    {left : Nat} {s : Clock σ} {r : Except PyError α × Clock σ}
    (h : Retry.Ran (attempt settings limits draw operation) (again settings limits draw) left s r)
    (hnext : s.attempts ≠ 0 →
      s.now + pause settings draw s.attempts + limits.attemptTimeout ≤ deadline)
    (hs : ∀ start ∈ s.retries, start + limits.attemptTimeout ≤ deadline) :
    ∀ start ∈ r.2.retries, start + limits.attemptTimeout ≤ deadline := by
  have hstep : ∀ s : Clock σ, (s.attempts ≠ 0 →
      s.now + pause settings draw s.attempts + limits.attemptTimeout ≤ deadline) →
      (∀ start ∈ s.retries, start + limits.attemptTimeout ≤ deadline) →
      ∀ start ∈ (attempt settings limits draw operation s).2.retries,
        start + limits.attemptTimeout ≤ deadline := by
    intro s hnext hs start hstart
    unfold attempt at hstart
    dsimp only at hstart
    split at hstart
    · exact hs start hstart
    next hne =>
      rcases List.mem_append.1 hstart with hstart | hstart
      · exact hs start hstart
      · rw [List.mem_singleton.1 hstart]
        exact hnext hne
  induction h with
  | @stop left s hstop => exact hstep s hnext hs
  | @again left s s' e r hattempt hagain hr ih =>
    apply ih
    · intro _
      unfold again at hagain
      rw [hd, Bool.and_eq_true] at hagain
      simpa using hagain.2
    · have := hstep s hnext hs
      rw [hattempt] at this
      exact this

/-! ## An attempt -/

variable {endpoint : Endpoint} {settings : LlmSettings} {attemptTimeout : Rat} {draw : Nat → Rat}

theorem request_cut {k : Nat} :
    (request endpoint k).1 = .error .cut ↔ (endpoint.outcome k).late = true := by
  unfold request
  dsimp only
  split
  next hlate => simp [hlate]
  next hlate => split <;> simp [hlate]

theorem request_failed {k : Nat} {f : Failure} :
    (request endpoint k).1 = .error (.failed f) ↔
      (endpoint.outcome k).late = false ∧ (endpoint.outcome k).failure = some f := by
  unfold request
  dsimp only
  split
  next hlate => simp [hlate]
  next hlate => split <;> simp_all

theorem failed_iff {k : Nat} :
    (endpoint.outcome k).failed = true ↔ ∃ e, (request endpoint k).1 = .error e := by
  unfold request Outcome.failed
  dsimp only
  split
  next hlate => simp [hlate]
  next hlate => split <;> simp_all

theorem sdkRetries_of_classify {f : Failure}
    (h : (classifyRetryable (sdkError f)).isSome = true) : f.sdkRetries = true := by
  cases f with
  | connection | timeout => rfl
  | status code =>
    unfold sdkError at h
    unfold Failure.sdkRetries
    by_cases hserver : 500 ≤ code
    · simp [hserver]
    by_cases hrate : code = 429
    · simp [hrate]
    have hint : ¬ (500 : Int) ≤ code := by omega
    exfalso
    revert h
    simp only [hserver, hrate, if_false]
    split_ifs <;> simp [classifyRetryable, hint]

/-- What the client has sent from request `k` on, with `left` retries. -/
structure Sent (endpoint : Endpoint) (left k : Nat) (r : Except Raised Unit × Nat) : Prop where
  lt : k < r.2
  le : r.2 ≤ k + left + 1
  before : ∀ i, k ≤ i → i + 1 < r.2 →
    (endpoint.outcome i).late = false ∧ ¬ (endpoint.outcome i).Decisive
  last : (request endpoint (r.2 - 1)).1 = r.1
  exhausted : ∀ f, r.1 = .error (.failed f) → f.sdkRetries = true → r.2 = k + left + 1

theorem sent_create (maxRetries k : Nat) :
    Sent endpoint maxRetries k (create endpoint maxRetries k) := by
  have h : Retry.Ran (request endpoint) sdkAgain _ _ _ := Retry.ran_run maxRetries k
  unfold create
  generalize Retry.run (request endpoint) sdkAgain maxRetries k = r at h ⊢
  induction h with
  | @stop left k hstop =>
    have hsent : (request endpoint k).2 = k + 1 := rfl
    refine ⟨by omega, by omega, fun i hi hlt => by omega, by rw [hsent]; rfl,
      fun f hf hretries => ?_⟩
    rcases hstop _ hf with rfl | hagain
    · rfl
    · exact absurd hretries (by simpa [sdkAgain] using hagain)
  | @again left k k' e r hrequest hagain hr ih =>
    have hk : k' = k + 1 := (congrArg Prod.snd hrequest).symm
    subst hk
    have hthis : (endpoint.outcome k).late = false ∧ ¬ (endpoint.outcome k).Decisive := by
      have he : (request endpoint k).1 = .error e := congrArg Prod.fst hrequest
      cases e with
      | cut => exact absurd hagain (by simp [sdkAgain])
      | failed f =>
        obtain ⟨hlate, hf⟩ := request_failed.1 he
        refine ⟨hlate, fun hdecisive => ?_⟩
        exact absurd hagain (by simp [sdkAgain, hdecisive.2 f hf])
    refine ⟨by have := ih.lt; omega, by have := ih.le; omega, fun i hi hlt => ?_, ih.last,
      fun f hf hretries => by have := ih.exhausted f hf hretries; omega⟩
    rcases Nat.eq_or_lt_of_le hi with rfl | hi
    · exact hthis
    · exact ih.before i hi hlt

/-! ## The attempts of a call -/

/-- The loop of `generate`. -/
abbrev Attempts (settings : LlmSettings) (attemptTimeout : Rat) (draw : Nat → Rat)
    (endpoint : Endpoint) :=
  Retry.Ran (attempt settings { attemptTimeout } draw (operation settings endpoint))
    (again settings { attemptTimeout } draw)

/-- An attempt that is followed by another was cut, or the client and the platform retry how its
last request failed. -/
structure TriedAgain (settings : LlmSettings) (endpoint : Endpoint) (k k' : Nat) : Prop where
  lt : k < k'
  le : k' ≤ k + settings.maxRetries + 1
  undecided : ∀ i, k ≤ i → i < k' → ¬ (endpoint.outcome i).Decisive
  why : (endpoint.outcome (k' - 1)).late = true ∨
    k' = k + settings.maxRetries + 1 ∧
      ∃ f, (endpoint.outcome (k' - 1)).failure = some f ∧
        (classifyRetryable (sdkError f)).isSome = true

theorem again_eq (e : PyError) (s : Clock Nat) :
    again settings { attemptTimeout } draw e s = (classifyRetryable e).isSome := by
  simp [again]

theorem triedAgain {s s' : Clock Nat} {e : PyError}
    (h : attempt settings { attemptTimeout } draw (operation settings endpoint) s = (.error e, s'))
    (hagain : again settings { attemptTimeout } draw e s' = true) :
    TriedAgain settings endpoint s.inner s'.inner := by
  rw [again_eq] at hagain
  have hsent : Sent endpoint _ _ _ := sent_create settings.maxRetries s.inner
  have hinner : s'.inner = (create endpoint settings.maxRetries s.inner).2 :=
    congrArg (fun r => r.2.inner) h.symm
  have herror : (create endpoint settings.maxRetries s.inner).1.mapError Raised.toPyError =
      .error e := congrArg Prod.fst h
  generalize create endpoint settings.maxRetries s.inner = c at hsent hinner herror
  obtain ⟨result, k'⟩ := c
  dsimp only at hinner herror
  subst hinner
  have hlt : s.inner < s'.inner := hsent.lt
  cases result with
  | ok a => exact nomatch herror
  | error raised =>
    have hlast := hsent.last
    cases Except.error.inj herror
    have hwhy : ¬ (endpoint.outcome (s'.inner - 1)).Decisive ∧
        ((endpoint.outcome (s'.inner - 1)).late = true ∨
          s'.inner = s.inner + settings.maxRetries + 1 ∧
            ∃ f, (endpoint.outcome (s'.inner - 1)).failure = some f ∧
              (classifyRetryable (sdkError f)).isSome = true) := by
      cases raised with
      | cut =>
        have hlate := request_cut.1 hlast
        exact ⟨fun hdecisive => by simp [hdecisive.1] at hlate, .inl hlate⟩
      | failed f =>
        obtain ⟨hlate, hf⟩ := request_failed.1 hlast
        have hretries := sdkRetries_of_classify hagain
        refine ⟨fun hdecisive => ?_, .inr ⟨hsent.exhausted f rfl hretries, f, hf, hagain⟩⟩
        rw [hdecisive.2 f hf] at hretries
        exact absurd hretries (by simp)
    refine ⟨hlt, hsent.le, fun i hi hik => ?_, hwhy.2⟩
    by_cases hnext : i + 1 < s'.inner
    · exact (hsent.before i hi hnext).2
    · have : i = s'.inner - 1 := by omega
      rw [this]
      exact hwhy.1

/-- What a call has sent from request `k` on. -/
structure Called (settings : LlmSettings) (endpoint : Endpoint) (left k : Nat)
    (r : Except PyError Unit × Clock Nat) : Prop where
  lt : k < r.2.inner
  le : r.2.inner ≤ k + (left + 1) * (settings.maxRetries + 1)
  before : ∀ i, k ≤ i → i + 1 < r.2.inner → ¬ (endpoint.outcome i).Decisive
  last : (∃ e, r.1 = .error e) ↔ (endpoint.outcome (r.2.inner - 1)).failed = true

theorem Called.of_attempts {left : Nat} {s : Clock Nat} {r : Except PyError Unit × Clock Nat}
    (h : Attempts settings attemptTimeout draw endpoint left s r) :
    Called settings endpoint left s.inner r := by
  induction h with
  | @stop left s hstop =>
    have hsent : Sent endpoint _ _ _ := sent_create settings.maxRetries s.inner
    refine ⟨hsent.lt, ?_, fun i hi hlt => (hsent.before i hi hlt).2, ?_⟩
    · apply hsent.le.trans
      have := Nat.mul_le_mul_right (settings.maxRetries + 1) (Nat.le_add_left 1 left)
      omega
    · show (∃ e, (create endpoint settings.maxRetries s.inner).1.mapError Raised.toPyError =
          .error e) ↔
        (endpoint.outcome ((create endpoint settings.maxRetries s.inner).2 - 1)).failed = true
      rw [failed_iff, hsent.last]
      cases (create endpoint settings.maxRetries s.inner).1 with
      | ok a => simp [Except.mapError]
      | error e => simp [Except.mapError]
  | @again left s s' e r hattempt hagain hr ih =>
    have htried := triedAgain hattempt hagain
    have hlt := htried.lt
    have hle := htried.le
    refine ⟨hlt.trans ih.lt, ?_, fun i hi hlast => ?_, ih.last⟩
    · have := ih.le
      rw [Nat.add_one_mul (left + 1)]
      omega
    · by_cases hi' : i < s'.inner
      · exact htried.undecided i hi hi'
      · exact ih.before i (by omega) hlast

/-! ## More than one budget -/

/-- Every attempt before the last has a budget of its own: a call that cannot be decided goes on for
as long as attempts are left, one for each request. -/
theorem overruns {left : Nat} {s : Clock Nat} {r : Except PyError Unit × Clock Nat}
    (h : Attempts settings attemptTimeout draw endpoint left s r)
    (hretries : settings.maxRetries ≠ 0) (hs : s.inner ≤ settings.maxRetries)
    (hundecided : ∀ k ≤ settings.maxRetries, ¬ (endpoint.outcome k).Decisive)
    (hlast : (∀ k ≤ settings.maxRetries, (endpoint.outcome k).late = false) →
      ∀ f, (endpoint.outcome settings.maxRetries).failure = some f →
        (classifyRetryable (sdkError f)).isSome = true)
    (hleft : settings.maxRetries < s.inner + left ∨ settings.maxRetries ≤ s.inner + left ∧
      ∃ k, s.inner ≤ k ∧ k ≤ settings.maxRetries ∧ (endpoint.outcome k).late = false) :
    settings.maxRetries + 1 < r.2.inner := by
  induction h with
  | @stop left s hstop =>
    have hsent : Sent endpoint _ _ _ := sent_create settings.maxRetries s.inner
    show settings.maxRetries + 1 < (create endpoint settings.maxRetries s.inner).2
    replace hstop : ∀ raised, (create endpoint settings.maxRetries s.inner).1 = .error raised →
        (classifyRetryable raised.toPyError).isSome = true → left = 0 := by
      intro raised hraised hretryable
      have := hstop raised.toPyError (by
        show (create endpoint settings.maxRetries s.inner).1.mapError _ = _
        rw [hraised]; rfl)
      rw [again_eq, hretryable] at this
      simpa using this
    generalize create endpoint settings.maxRetries s.inner = c at hsent hstop
    obtain ⟨result, k'⟩ := c
    have hlt : s.inner < k' := hsent.lt
    have hrequest : (request endpoint (k' - 1)).1 = result := hsent.last
    by_contra hle
    replace hle : k' - 1 ≤ settings.maxRetries := by dsimp only at hle; omega
    cases hlate : (endpoint.outcome (k' - 1)).late with
    | true =>
      -- The last attempt was cut, and none is left.
      have hcut := request_cut.2 hlate
      have hzero := hstop .cut (hrequest ▸ hcut) rfl
      obtain hleft | ⟨hleft, k, hk, hkle, hnot⟩ := hleft
      · omega
      · have : k = k' - 1 := by omega
        rw [this, hlate] at hnot
        exact absurd hnot (by simp)
    | false =>
      cases hfailure : (endpoint.outcome (k' - 1)).failure with
      | none => exact hundecided _ hle ⟨hlate, by simp [hfailure]⟩
      | some f =>
        have hresult := hrequest ▸ request_failed.2 ⟨hlate, hfailure⟩
        by_cases hf : f.sdkRetries = true
        · have hk' : k' = s.inner + settings.maxRetries + 1 := hsent.exhausted f hresult hf
          have hall : ∀ k ≤ settings.maxRetries, (endpoint.outcome k).late = false := by
            intro k hk
            by_cases hk1 : k + 1 < k'
            · exact (hsent.before k (by omega) hk1).1
            · have : k = k' - 1 := by omega
              rw [this, hlate]
          have : k' - 1 = settings.maxRetries := by omega
          rw [this] at hfailure
          have := hstop _ hresult (hlast hall f hfailure)
          omega
        · exact hundecided _ hle ⟨hlate, by simpa [hfailure] using hf⟩
  | @again left s s' e r hattempt hagain hr ih =>
    have htried := triedAgain hattempt hagain
    have hlt := htried.lt
    by_cases hs' : s'.inner ≤ settings.maxRetries
    · apply ih hs'
      obtain hleft | ⟨hleft, k, hk, hkle, hnot⟩ := hleft
      · omega
      · by_cases hnext : s'.inner = s.inner + 1
        · refine .inr ⟨by omega, k, ?_, hkle, hnot⟩
          -- The only request of this attempt was late.
          have hlate := htried.why.resolve_right (by omega)
          have : k ≠ s.inner := by
            intro h
            rw [hnext, Nat.add_sub_cancel, ← h, hnot] at hlate
            exact absurd hlate (by simp)
          omega
        · omega
    · have := (Called.of_attempts hr).lt
      omega

theorem one_each {left : Nat} {s : Clock Nat} {r : Except PyError Unit × Clock Nat}
    (h : Attempts settings attemptTimeout draw endpoint left s r)
    (hs : s.inner + left = settings.maxRetries)
    (hlate : ∀ k ≤ settings.maxRetries, (endpoint.outcome k).late = true) :
    r.2.inner ≤ settings.maxRetries + 1 := by
  have hone : ∀ k ≤ settings.maxRetries, (create endpoint settings.maxRetries k).2 = k + 1 := by
    intro k hk
    have hsent : Sent endpoint _ _ _ := sent_create settings.maxRetries k
    have hlt := hsent.lt
    by_contra hne
    have := (hsent.before k le_rfl (by omega)).1
    rw [hlate k hk] at this
    exact absurd this (by simp)
  induction h with
  | @stop left s hstop =>
    show (create endpoint settings.maxRetries s.inner).2 ≤ _
    rw [hone _ (by omega)]
    omega
  | @again left s s' e r hattempt hagain hr ih =>
    apply ih
    have : s'.inner = (create endpoint settings.maxRetries s.inner).2 :=
      congrArg (fun r => r.2.inner) hattempt.symm
    rw [this, hone _ (by omega)]
    omega

theorem first_only {left : Nat} {s : Clock Nat} {r : Except PyError Unit × Clock Nat}
    (h : Attempts settings attemptTimeout draw endpoint left s r) (hs : s.inner = 0)
    (hall : ∀ k ≤ settings.maxRetries, (endpoint.outcome k).late = false) {f : Failure}
    (hf : (endpoint.outcome settings.maxRetries).failure = some f)
    (hnone : classifyRetryable (sdkError f) = none) : r.2.inner ≤ settings.maxRetries + 1 := by
  cases h with
  | stop =>
    show (create endpoint settings.maxRetries s.inner).2 ≤ _
    have := (sent_create (settings.maxRetries) s.inner : Sent endpoint _ _ _).le
    omega
  | @again left s s' e r hattempt hagain hr =>
    have htried := triedAgain hattempt hagain
    have hle := htried.le
    rcases htried.why with hlate | ⟨heq, f', hf', hsome⟩
    · rw [hall _ (by omega)] at hlate
      exact absurd hlate (by simp)
    · have : s'.inner - 1 = settings.maxRetries := by omega
      rw [this, hf] at hf'
      cases hf'
      rw [hnone] at hsome
      exact absurd hsome (by simp)

theorem attempts_generate (settings : LlmSettings) (attemptTimeout : Rat) (draw : Nat → Rat)
    (endpoint : Endpoint) :
    Attempts settings attemptTimeout draw endpoint settings.maxRetries { inner := 0 }
      (callWithRetries settings { attemptTimeout } draw (operation settings endpoint) 0) := by
  have hallowed : attemptsAllowed settings { attemptTimeout } - 1 = settings.maxRetries := by
    unfold attemptsAllowed
    simp only [Option.getD_none]
    omega
  have : Attempts settings attemptTimeout draw endpoint _ _ _ :=
    Retry.ran_run (attemptsAllowed settings { attemptTimeout } - 1) { inner := 0 }
  rw [hallowed] at this
  unfold callWithRetries
  rw [hallowed]
  exact this

/-- A call keeps its budget exactly if it is given none, or its first requests settle it. -/
theorem budget_iff (settings : LlmSettings) (attemptTimeout : Rat) (draw : Nat → Rat)
    (endpoint : Endpoint) :
    KeepsBudget settings attemptTimeout draw endpoint ↔ Settles settings.maxRetries endpoint := by
  have hattempts := attempts_generate settings attemptTimeout draw endpoint
  have hcalled := Called.of_attempts hattempts
  have hrequests : (generate settings attemptTimeout draw endpoint).2 ≤ settings.maxRetries + 1 ↔
      Settles settings.maxRetries endpoint := by
    unfold generate
    generalize callWithRetries settings { attemptTimeout } draw (operation settings endpoint) 0 = r
      at hattempts hcalled
    dsimp only
    constructor
    · intro hle
      by_contra hnot
      unfold Settles at hnot
      push Not at hnot
      obtain ⟨hretries, hundecided, ⟨k, hk, hlate⟩, hlast⟩ := hnot
      have := overruns hattempts hretries (Nat.zero_le _) hundecided
        (fun hall f hf => Option.isSome_iff_ne_none.2 (hlast hall f hf))
        (.inr ⟨by simp, k, Nat.zero_le _, hk, by simpa using hlate⟩)
      omega
    · rintro (hzero | ⟨k, hk, hdecisive⟩ | hlate | ⟨hall, f, hf, hnone⟩)
      · have := hcalled.le
        rw [hzero] at this ⊢
        simpa using this
      · by_contra hlt
        exact hcalled.before k (Nat.zero_le _) (by omega) hdecisive
      · exact one_each hattempts (by simp) hlate
      · exact first_only hattempts rfl hall hf hnone
  constructor
  · exact fun h => hrequests.1 h.requests
  · intro h
    refine ⟨hrequests.2 h, fun k hk => hcalled.before k (Nat.zero_le _) hk, ?_, ?_⟩
    · refine Iff.trans ?_ hcalled.last
      unfold generate
      dsimp only
      cases (callWithRetries settings { attemptTimeout } draw (operation settings endpoint) 0).1 with
      | ok a => simp [Except.mapError]
      | error e => simp [Except.mapError]
    · intro σ α limits operation s deadline hd
      exact retries_end hd (Retry.ran_run _ _) (fun h => absurd rfl h) (by simp)

/-- One retry is configured, and the endpoint is down: four requests are sent. -/
theorem unavailable_fails :
    ¬ KeepsBudget { maxRetries := 1 } 30 (fun _ => 0)
      { outcome := fun _ => { failure := some (.status 503) } } := by
  intro h
  exact absurd h.requests (by decide +kernel)

end Resilience

end Clear

import Clear.Lib.Retry
import Mathlib.Algebra.Order.Ring.Rat

/-!
# Retries of provider calls

`app/ai/resilience.py` and `OpenAIProvider.generate` (`app/ai/rag/openai_provider.py`). The client of
the OpenAI SDK sends a request again on its own, as its documentation says; the platform retries what
the client gives up on. Both are given `max_retries`. Times are exact, and the draws of the jitter
are a parameter. Logging, metrics and what is made of a completion are left out.
-/

namespace Clear

namespace Resilience

/-- An exception, as far as it is classified. -/
inductive PyError where
  | timeoutError
  | providerRateLimit
  | providerUnavailable
  | providerError (retryable : Bool)
  /-- Any other, by the name of its type. -/
  | other (name : String) (statusCode : Option Int)
  deriving DecidableEq, Repr

def classifyRetryable : PyError → Option String
  | .timeoutError => some "timeout"
  | .providerRateLimit => some "rate_limit"
  | .providerUnavailable => some "server"
  | .providerError retryable => if retryable then some "server" else none
  | .other name statusCode =>
    if name ∈ ["APIConnectionError", "ConnectError", "RemoteProtocolError"] then some "transport"
    else if name ∈ ["APITimeoutError", "ConnectTimeout", "ReadTimeout", "PoolTimeout"] then
      some "timeout"
    else if name = "RateLimitError" then some "rate_limit"
    else if name ∈ ["InternalServerError", "APIStatusError"] then
      if statusCode.any (500 ≤ ·) then some "server" else none
    else none

structure LlmSettings where
  maxRetries : Nat := 3
  retryBackoffSeconds : Rat := 1

def backoffDelay (draw : Rat) (attempt : Nat) (base : Rat) : Rat :=
  draw * min 60 (base * 2 ^ (attempt - 1))

/-- The limits of one call. -/
structure Limits where
  attemptTimeout : Rat
  maxAttempts : Option Int := none
  deadlineSeconds : Option Rat := none

/-- The attempts that were made, the time on the clock, and when the retries started. -/
structure Clock (σ : Type) where
  inner : σ
  attempts : Nat := 0
  now : Rat := 0
  retries : List Rat := []

section

variable {σ α : Type} (settings : LlmSettings) (limits : Limits) (draw : Nat → Rat)

/-- What an operation leaves within the time of an attempt, as `asyncio.wait_for` ends it, and how
long it took. -/
abbrev Operation (σ α : Type) := Rat → σ → Except PyError α × σ × Rat

def attemptsAllowed : Nat :=
  (max 1 (limits.maxAttempts.getD (settings.maxRetries + 1))).toNat

def pause (attempt : Nat) : Rat :=
  backoffDelay (draw attempt) attempt
    (if settings.retryBackoffSeconds = 0 then 1 else settings.retryBackoffSeconds)

/-- The pause after the attempts before it, if there are any, and one attempt. -/
def attempt (operation : Operation σ α) (s : Clock σ) : Except PyError α × Clock σ :=
  let start := if s.attempts = 0 then s.now else s.now + pause settings draw s.attempts
  let r := operation limits.attemptTimeout s.inner
  (r.1, {
    inner := r.2.1
    attempts := s.attempts + 1
    now := start + r.2.2
    retries := if s.attempts = 0 then s.retries else s.retries ++ [start] })

/-- A retry can help, and it ends before the deadline. -/
def again (e : PyError) (s : Clock σ) : Bool :=
  (classifyRetryable e).isSome && limits.deadlineSeconds.all fun deadline =>
    s.now + pause settings draw s.attempts + limits.attemptTimeout ≤ deadline

def callWithRetries (operation : Operation σ α) (s : σ) : Except PyError α × Clock σ :=
  Retry.run (attempt settings limits draw operation) (again settings limits draw)
    (attemptsAllowed settings limits - 1) { inner := s }

end

/-! ## The client -/

/-- How a request fails at the endpoint. -/
inductive Failure where
  | connection
  | timeout
  | status (code : Nat)
  deriving DecidableEq, Repr

/-- What became of a request. -/
structure Outcome where
  /-- How it failed; `none` is a completion. -/
  failure : Option Failure
  /-- The time of the attempt runs out during the request, or in the pause before the next. -/
  late : Bool := false
  deriving DecidableEq, Repr

/-- The exception of the SDK. -/
def sdkError : Failure → PyError
  | .connection => .other "APIConnectionError" none
  | .timeout => .other "APITimeoutError" none
  | .status code =>
    let name :=
      if code = 400 then "BadRequestError"
      else if code = 401 then "AuthenticationError"
      else if code = 403 then "PermissionDeniedError"
      else if code = 404 then "NotFoundError"
      else if code = 409 then "ConflictError"
      else if code = 422 then "UnprocessableEntityError"
      else if code = 429 then "RateLimitError"
      else if 500 ≤ code then "InternalServerError"
      else "APIStatusError"
    .other name (some code)

/-- The SDK sends the request again. -/
def Failure.sdkRetries : Failure → Bool
  | connection | timeout => true
  | status code => code ∈ [408, 409, 429] || 500 ≤ code

/-- The endpoint, request by request, and the time between two requests. -/
structure Endpoint where
  outcome : Nat → Outcome
  elapsed : Nat → Nat → Rat := fun _ _ => 0

/-- The failure of a request within an attempt. An attempt out of time raises `TimeoutError`. -/
inductive Raised where
  | cut
  | failed (f : Failure)

def Raised.toPyError : Raised → PyError
  | cut => .timeoutError
  | failed f => sdkError f

def request (endpoint : Endpoint) (sent : Nat) : Except Raised Unit × Nat :=
  let outcome := endpoint.outcome sent
  (if outcome.late then .error .cut
    else
      match outcome.failure with
      | none => .ok ()
      | some f => .error (.failed f), sent + 1)

def sdkAgain (e : Raised) (_ : Nat) : Bool :=
  match e with
  | .cut => false
  | .failed f => f.sdkRetries

/-- `client.chat.completions.create`, with the client's own `max_retries`. -/
def create (endpoint : Endpoint) (maxRetries sent : Nat) : Except Raised Unit × Nat :=
  Retry.run (request endpoint) sdkAgain maxRetries sent

/-- `_attempt`, within its time. -/
def operation (settings : LlmSettings) (endpoint : Endpoint) : Operation Nat Unit := fun _ sent =>
  let r := create endpoint settings.maxRetries sent
  (r.1.mapError Raised.toPyError, r.2, endpoint.elapsed sent r.2)

/-- `_translate_openai_error`: the exception that the caller sees. -/
def translate : PyError → PyError
  | .other name statusCode =>
    if name = "RateLimitError" then .providerRateLimit
    else if name ∈ ["APIConnectionError", "APITimeoutError"] then .providerUnavailable
    else if name ∈ ["NotFoundError", "AuthenticationError", "PermissionDeniedError",
        "BadRequestError"] then .providerError false
    else
      match statusCode with
      | some code => if 500 ≤ code then .providerUnavailable else .providerError false
      | none => .providerError true
  | _ => .providerError true

/-- `OpenAIProvider.generate`: the answer or the exception, and the number of requests sent. -/
def generate (settings : LlmSettings) (attemptTimeout : Rat) (draw : Nat → Rat)
    (endpoint : Endpoint) : Except PyError Unit × Nat :=
  let r := callWithRetries settings { attemptTimeout } draw (operation settings endpoint) 0
  (r.1.mapError translate, r.2.inner)

end Resilience

end Clear

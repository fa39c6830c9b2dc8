import Clear.Core.Text
import Clear.Lib.Retry
import Clear.Lib.Slices
import Clear.Models.Processing

/-!
# The NVIDIA embeddings endpoint

`app/ai/embedding/nvidia.py`, with `_validate`, `normalise` and `truncate` of `providers.py`. What
the endpoint answers is untrusted: any status, any body. The floats are a parameter, as are the texts
of the values that an error quotes. How long the pauses last, the metrics and the details of the
errors other than the provider are left out.
-/

namespace Clear

namespace Nvidia

/-! ## What the endpoint answers -/

/-- What `json.loads` returns. The floats include the infinities and not-a-number. -/
inductive Decoded (ν : Type) where
  | null
  | bool (b : Bool)
  | int (n : Int)
  | float (x : ν)
  | str (s : String)
  | list (l : List (Decoded ν))
  | dict (d : List (String × Decoded ν))

/-- The floats. -/
structure Floats (ν : Type) where
  /-- `float(n)`; nothing is an `OverflowError`. -/
  ofInt : Int → Option ν
  /-- `float(s)`; nothing is a `ValueError`. -/
  parse : String → Option ν
  /-- `int(x)`, absent for the infinities and not-a-number. -/
  toInt : ν → Option Int
  isZero : ν → Bool
  isNan : ν → Bool
  isInf : ν → Bool
  sum : List ν → ν
  mul : ν → ν → ν
  div : ν → ν → ν
  sqrt : ν → ν
  repr : Decoded ν → String

/-- What `response.json()` makes of a body. -/
inductive Body (ν : Type) where
  | notJson
  /-- The decoder recurses until it raises. -/
  | tooDeep
  | json (v : Decoded ν)

structure Response (ν : Type) where
  status : Nat
  body : Body ν
  retryAfter : String := ""
  text : String := ""

/-- What becomes of a request. -/
inductive Reply (ν : Type) where
  | timeout
  | transportError (text : String)
  | response (r : Response ν)

inductive InputType where
  | query | passage
  deriving DecidableEq

/-- `get_settings().embedding`. -/
structure Settings where
  model : String := "nvidia/nemotron-3-embed-1b"
  dim : Nat := 2048
  batchSize : Nat := 64
  batchSize_pos : 0 < batchSize := by decide
  maxRetries : Nat := 3
  timeoutSeconds : Nat := 60
  nvidiaBaseUrl : String := "https://integrate.api.nvidia.com/v1"
  nvidiaQueryPrefix : String := "query:"
  nvidiaPassagePrefix : String := "passage:"

structure EmbeddingUsage where
  inputTokens : Int := 0
  requests : Nat := 0

def EmbeddingUsage.add (u v : EmbeddingUsage) : EmbeddingUsage :=
  ⟨u.inputTokens + v.inputTokens, u.requests + v.requests⟩

/-- A provider with its client: the reply to a request, by the number of requests before it and the
input. -/
structure Provider (ν : Type) extends Floats ν, Settings where
  client : Nat → List String → Reply ν

/-! ## Errors -/

def providerError (message : String) (retryable : Bool := true) : Raised :=
  .app
    { exception := "ProviderError"
      code := "provider_error"
      message
      details := [("provider", .str "nvidia")]
      retryable }

def unavailable (message : String) : Raised :=
  .app
    { exception := "ProviderUnavailableError"
      code := "provider_unavailable"
      message
      details := [("provider", .str "nvidia")]
      retryable := true }

def rateLimited (message : String) : Raised :=
  .app
    { exception := "ProviderRateLimitError"
      code := "rate_limited"
      message
      details := [("provider", .str "nvidia")]
      retryable := true }

section

variable {ν : Type} (p : Provider ν)

def translate (r : Response ν) : Raised :=
  let body := Text.take 400 r.text
  if r.status = 429 then
    rateLimited "The NVIDIA embeddings endpoint is rate limiting this deployment."
  else if r.status ∈ [401, 403] then
    providerError "NVIDIA rejected the credentials. Check NVIDIA_API_KEY." false
  else if r.status = 404 then
    providerError ("NVIDIA does not recognise the model '" ++ p.model ++ "' at " ++
      p.nvidiaBaseUrl ++ ". Check EMBEDDING_MODEL and NVIDIA_BASE_URL.") false
  else if r.status ∈ [400, 422] then
    providerError ("NVIDIA rejected the embeddings request: " ++ body) false
  else if 500 ≤ r.status then
    unavailable ("The NVIDIA embeddings endpoint returned " ++ r.status.repr ++ ".")
  else
    providerError ("The NVIDIA embeddings endpoint returned " ++ r.status.repr ++ ": " ++ body)

/-! ## Requests -/

def retryableStatus : List Nat := [408, 409, 425, 429, 500, 502, 503, 504]

/-- `_retry_after_seconds`, before it is cut at zero. -/
def retryAfterSeconds (r : Response ν) : Option ν :=
  if r.retryAfter = "" then none else p.parse r.retryAfter

/-- `_backoff` raises: `2.0 ** 1024` is no float. -/
def backoffOverflows (attempt : Nat) (retryAfter : Option ν) : Bool :=
  retryAfter.isNone && 1024 ≤ attempt - 1

/-- An error that ends the call, or one that is kept for when no attempt is left. -/
inductive Missed where
  | raise (e : Raised)
  | retry (e : Raised)

/-- The pause after an attempt, if another one follows. -/
def pause (attempt : Nat) (error : Raised) (retryAfter : Option ν) : Missed :=
  if attempt ≤ p.maxRetries && backoffOverflows attempt retryAfter then
    .raise (.other "OverflowError")
  else .retry error

/-- One round of the loop of `_post_with_retry`, whose first request was number `start`. -/
def attempt (reply : Nat → Reply ν) (start sent : Nat) :
    Except Missed (List (String × Decoded ν)) × Nat :=
  let number := sent - start + 1
  (match reply sent with
    | .timeout =>
      .error (pause p number (unavailable ("The NVIDIA embeddings endpoint timed out after " ++
        p.timeoutSeconds.repr ++ "s.")) (none : Option ν))
    | .transportError text =>
      .error (pause p number
        (unavailable ("The NVIDIA embeddings endpoint is unreachable: " ++ text)) (none : Option ν))
    | .response r =>
      if r.status < 400 then
        match r.body with
        | .notJson =>
          .error (.raise (providerError "The NVIDIA embeddings endpoint returned a non-JSON body."))
        | .tooDeep => .error (.raise (.other "RecursionError"))
        | .json (.dict d) => .ok d
        | .json _ =>
          .error (.raise
            (providerError "The NVIDIA embeddings endpoint returned an unexpected body."))
      else if r.status ∉ retryableStatus then .error (.raise (translate p r))
      else .error (pause p number (translate p r) (retryAfterSeconds p r)),
    sent + 1)

def again (e : Missed) (_ : Nat) : Bool :=
  match e with
  | .raise _ => false
  | .retry _ => true

def Missed.error : Missed → Raised
  | raise e | retry e => e

/-- `_post_with_retry`, and the number of requests sent. -/
def postWithRetry (reply : Nat → Reply ν) (start : Nat) :
    Except Raised (List (String × Decoded ν)) × Nat :=
  let r := Retry.run (attempt p reply start) again p.maxRetries start
  (r.1.mapError Missed.error, r.2)

/-! ## A response -/

def get (d : List (String × Decoded ν)) (key : String) : Decoded ν := (d.lookup key).getD .null

/-- `float(v)`. -/
def toFloat : Decoded ν → Except Raised ν
  | .bool b => (p.ofInt b.toNat).elim (.error (.other "OverflowError")) .ok
  | .int n => (p.ofInt n).elim (.error (.other "OverflowError")) .ok
  | .float x => .ok x
  | .str s => (p.parse s).elim (.error (.other "ValueError")) .ok
  | _ => .error (.other "TypeError")

def normalise (vector : List ν) : List ν :=
  let magnitude := p.sqrt (p.sum (vector.map fun x => p.mul x x))
  if p.isZero magnitude then vector else vector.map fun x => p.div x magnitude

def truncate (vector : List ν) : List ν :=
  if vector.length ≤ p.dim then vector
  else normalise p (vector.take p.dim)

/-- `_finalise` of the numbers. -/
def finaliseFloats (vector : List ν) : List ν :=
  normalise p (if p.dim < vector.length then truncate p vector else vector)

def finalise : Decoded ν → Except Raised (List ν)
  | .list l => do return finaliseFloats p (← l.mapM (toFloat p))
  | _ => .error (providerError "The NVIDIA embeddings response contained a non-array embedding.")

/-- `isinstance(index, int) and 0 <= index < n`; a boolean is an integer. -/
def index? (n : Nat) : Decoded ν → Option Nat
  | .int i => if 0 ≤ i ∧ i < n then some i.toNat else none
  | .bool b => if b.toNat < n then some b.toNat else none
  | _ => none

/-- One round of the loop over the entries: `ordered` and `seen`. -/
def place (n : Nat) (held : List (List ν) × List Nat) (entry : Decoded ν) :
    Except Raised (List (List ν) × List Nat) :=
  match entry with
  | .dict d =>
    match index? n (get d "index") with
    | none =>
      .error (providerError ("The NVIDIA embeddings response carried an out-of-range index " ++
        p.repr (get d "index") ++ " for a batch of " ++ n.repr ++ "."))
    | some i =>
      if i ∈ held.2 then
        .error (providerError ("The NVIDIA embeddings response repeated index " ++ i.repr ++ "."))
      else do
        let vector ← finalise p (get d "embedding")
        return (held.1.set i vector, i :: held.2)
  | _ => .error (providerError "The NVIDIA embeddings response contained a malformed entry.")

/-- `bool(v)`. -/
def Decoded.truthy : Decoded ν → Bool
  | null => false
  | bool b => b
  | int n => n ≠ 0
  | float x => !p.isZero x
  | str s => s ≠ ""
  | list l => !l.isEmpty
  | dict d => !d.isEmpty

/-- `int(v)`. -/
def toInt : Decoded ν → Except Raised Int
  | .bool b => .ok b.toNat
  | .int n => .ok n
  | .float x =>
    (p.toInt x).elim
      (.error (.other (if p.isNan x then "ValueError" else "OverflowError"))) .ok
  | .str s => (Text.toInt? s).elim (.error (.other "ValueError")) .ok
  | _ => .error (.other "TypeError")

/-- The tokens that a response reports. -/
def inputTokens (data : List (String × Decoded ν)) : Except Raised Int :=
  let usage := get data "usage"
  if usage.truthy p then
    match usage with
    | .dict reported =>
      let total := get reported "total_tokens"
      let prompt := get reported "prompt_tokens"
      toInt p
        (if total.truthy p then total else if prompt.truthy p then prompt else .int 0)
    | _ => .error (.other "AttributeError")
  else .ok 0

/-- `_embed_batch` after the request, for `n` texts. -/
def readBatch (n : Nat) (data : List (String × Decoded ν)) :
    Except Raised (List (List ν) × EmbeddingUsage) :=
  match get data "data" with
  | .list raw => do
    let (ordered, seen) ← raw.foldlM (place p n) (List.replicate n [], [])
    if seen.length ≠ n then
      .error (providerError ("The NVIDIA embeddings response was missing " ++
        (n - seen.length).repr ++ " of " ++ n.repr ++
        " vectors. A partial batch cannot be matched to its inputs by position."))
    else do
      return (ordered, ⟨← inputTokens p data, 1⟩)
  | _ => .error (providerError "The NVIDIA embeddings response had no 'data' array.")

/-! ## A call -/

/-- `_prefix`. -/
def prefixed (inputType : InputType) (text : String) : String :=
  let mark :=
    match inputType with
    | .query => p.nvidiaQueryPrefix
    | .passage => p.nvidiaPassagePrefix
  if mark = "" then text else mark ++ " " ++ text

variable (inputType : InputType)

/-- What the endpoint replies to the requests of one window. -/
def replies (texts : List String) (sent : Nat) : Reply ν :=
  p.client sent (texts.map (prefixed p inputType))

def embedBatch (texts : List String) (sent : Nat) :
    Except Raised (List (List ν) × EmbeddingUsage) × Nat :=
  let r := postWithRetry p (replies p inputType texts) sent
  (r.1.bind (readBatch p texts.length), r.2)

/-- The loop of `embed_many` over its windows. -/
def embedWindows : List (List String) → Nat → Except Raised (List (List ν) × EmbeddingUsage) × Nat
  | [], sent => (.ok ([], {}), sent)
  | texts :: windows, sent =>
    match embedBatch p inputType texts sent with
    | (.error e, sent) => (.error e, sent)
    | (.ok (vectors, usage), sent) =>
      let r := embedWindows windows sent
      (r.1.map fun rest => (vectors ++ rest.1, usage.add rest.2), r.2)

/-- `validate_vector`: why a vector is not used. -/
def objection (vector : List ν) : Option String :=
  if vector.length ≠ p.dim then
    some ("expected " ++ p.dim.repr ++ " dimensions, got " ++ vector.length.repr ++
      ". Set EMBEDDING_DIM to the model's real width and re-embed - a mismatched vector is never " ++
      "truncated or padded to fit")
  else
    vector.findSome? fun x =>
      if p.isNan x then some "the vector contains NaN"
      else if p.isInf x then some "the vector contains infinity"
      else none

/-- `_validate`. -/
def validate (vectors : List (List ν)) (expected : Nat) : Except Raised Unit :=
  if vectors.length ≠ expected then
    .error (providerError ("The embedding provider returned " ++ vectors.length.repr ++
      " vectors for " ++ expected.repr ++ " inputs. Vectors are matched to their source by " ++
      "position, so a partial batch cannot be used safely."))
  else
    match vectors.findSome? (objection p) with
    | some reason =>
      .error (providerError ("The embedding provider returned an unusable vector: " ++ reason ++ "."))
    | none => .ok ()

/-- `embed_many`, and the number of requests sent. -/
def embedMany (texts : List String) : Except Raised (List (List ν) × EmbeddingUsage) × Nat :=
  if texts.isEmpty then (.ok ([], {}), 0)
  else
    let r := embedWindows p inputType
      (Slices.slices p.batchSize p.batchSize texts) 0
    (do
      let result ← r.1
      validate p result.1 texts.length
      return result, r.2)

end

end Nvidia

end Clear

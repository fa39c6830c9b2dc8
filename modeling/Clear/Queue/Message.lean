import Clear.Core.Text
import Clear.Core.Value
import Clear.Lib.Dict
import Clear.Lib.Rounding
import Clear.Models.Processing

/-!
# A stage message on its way

What becomes of a `StageMessage` between two Python processes: `to_payload` writes it as JSON, the
dispatcher parses it (`Node.dict`) and checks it against `enqueueSchema`, the worker posts it with the
attempt count of BullMQ (`workerBody`), and the stage endpoint validates it as a `StageRunRequest`.

Dictionaries are taken up to the order of their keys, which JavaScript does not keep.
-/

namespace Clear

namespace Wire

/-- A `StageMessage` whose options hold any JSON values. -/
structure Message where
  jobId : Uuid
  contractId : Uuid
  projectId : Uuid
  stage : PipelineStage
  attempt : Nat
  priority : JobPriority
  trace : List (String × String)
  traceKeys : (trace.map (·.1)).Nodup
  continuePipeline : Bool
  options : ValueDict
  optionKeys : (options.map (·.1)).Nodup
  dispatchId : String

def Message.toPayload (m : Message) : ValueDict :=
  [("job_id", .str m.jobId.str), ("contract_id", .str m.contractId.str),
    ("project_id", .str m.projectId.str), ("stage", .str m.stage.value),
    ("attempt", .int m.attempt), ("priority", .str m.priority.value),
    ("trace", .dict (m.trace.map fun e => (e.1, .str e.2))),
    ("continue_pipeline", .bool m.continuePipeline), ("options", .dict m.options),
    ("dispatch_id", .str m.dispatchId)]

/-! ## The dispatcher -/

namespace Node

def double (n : Int) : Value :=
  if n.natAbs < 10 ^ 21 then .int (n.sign * Js.printed n.natAbs) else .float n

/-- What is printed for an integer that was read. An infinity is printed as `null`. -/
def int (n : Int) : Value :=
  let d := Js.toDouble n.natAbs
  if Js.isFinite d then double (n.sign * d) else .null

def float (x : Rat) : Value := if x.den = 1 then double x.num else .float x

mutual

/-- The JSON that Node prints for the JSON it has read. -/
def value : Value → Value
  | .int n => int n
  | .float x => float x
  | .list l => .list (list l)
  | .dict d => .dict (dict d)
  | v => v

def list : List Value → List Value
  | [] => []
  | v :: l => value v :: list l

def dict : ValueDict → ValueDict
  | [] => []
  | (k, v) :: d => (k, value v) :: dict d

end

end Node

def isUuid (s : String) : Bool :=
  let digits := Uuid.ungroup s.toList
  digits.length = 32 && Uuid.group digits = s.toList && digits.all fun c => (Uuid.hexValue? c).isSome

def utf16Length (s : String) : Nat :=
  s.toList.foldl (fun n c => n + if 0xFFFF < c.toNat then 2 else 1) 0

def stages : List String :=
  ["validation", "parser", "docpipeline", "extraction", "enrichment", "classification", "chunking",
    "ai_extraction", "embedding", "indexing"]

def zText (check : String → Bool) : Value → Option Value
  | .str s => if check s then some (.str s) else none
  | _ => none

def zInt (lo hi : Int) : Value → Option Value
  | .int n => if lo ≤ n ∧ n ≤ hi then some (.int n) else none
  | _ => none

def zBool : Value → Option Value
  | .bool b => some (.bool b)
  | _ => none

def zRecord (value : Value → Option Value) : Value → Option Value
  | .dict d =>
    (d.mapM fun e => (value e.2).map (e.1, ·)).map fun d => .dict (d.filter (·.1 ≠ "__proto__"))
  | _ => none

structure Field where
  key : String
  optional : Bool := false
  check : Value → Option Value

def enqueueFields : List Field :=
  [{ key := "job_id", check := zText isUuid },
    { key := "contract_id", check := zText isUuid },
    { key := "project_id", check := zText isUuid },
    { key := "stage", check := zText stages.contains },
    { key := "attempt", optional := true, check := zInt 1 100 },
    { key := "priority", optional := true, check := zText fun _ => true },
    { key := "trace", optional := true, check := zRecord (zText fun _ => true) },
    { key := "continue_pipeline", optional := true, check := zBool },
    { key := "options", optional := true, check := zRecord some },
    { key := "dispatch_id", optional := true
      check := zText fun s => 1 ≤ utf16Length s && utf16Length s ≤ 64 },
    { key := "delay_ms", optional := true, check := zInt 0 86400000 }]

/-- One key of `z.object`: a missing optional key stays missing. -/
def Field.parse (body : ValueDict) (f : Field) : Option (Option (String × Value)) :=
  match body.lookup f.key with
  | none => if f.optional then some none else none
  | some v => (f.check v).map fun w => some (f.key, w)

def enqueueSchema (body : ValueDict) : Option ValueDict :=
  (enqueueFields.mapM (Field.parse body)).map fun found => found.filterMap id

def jobData (data : ValueDict) : ValueDict := data.filter (·.1 ≠ "delay_ms")

def workerBody (data : ValueDict) (attemptsMade : Nat) : ValueDict :=
  Dict.assign data "attempt" (.int (attemptsMade + 1))

/-! ## The stage endpoint -/

def isWhitespace (c : Char) : Bool := Text.isSpace c && !(0x1C ≤ c.toNat && c.toNat ≤ 0x1F)

def stripped (s : String) : String := Text.trim isWhitespace s

/-- The queue message, as the dispatcher forwards it. -/
structure StageRunRequest where
  jobId : Uuid
  contractId : Uuid
  projectId : Uuid
  stage : PipelineStage
  attempt : Nat
  priority : JobPriority
  trace : List (String × String)
  continuePipeline : Bool
  options : ValueDict
  dispatchId : Option String

namespace StageRunRequest

def fieldNames : List String :=
  ["job_id", "contract_id", "project_id", "stage", "attempt", "priority", "trace",
    "continue_pipeline", "options", "dispatch_id"]

def text {α : Type} (read : String → Option α) : Value → Option α
  | .str s => read (stripped s)
  | _ => none

/-- `int` between 1 and 100, of a number as Node prints it. -/
def attemptOf : Value → Option Nat
  | .int n => if 1 ≤ n ∧ n ≤ 100 then some n.toNat else none
  | _ => none

def boolOf : Value → Option Bool
  | .bool b => some b
  | _ => none

def textsOf : Value → Option (List (String × String))
  | .dict d => (d.mapM fun e => (text some e.2).map (stripped e.1, ·)).map Dict.ofItems
  | _ => none

/-- `dict[str, Any]`. -/
def dictOf : Value → Option ValueDict
  | .dict d => some (Dict.ofItems (d.map fun e => (stripped e.1, e.2)))
  | _ => none

def dispatchIdOf : Value → Option (Option String)
  | .null => some none
  | v => (text (fun s => if s.length ≤ 64 then some s else none) v).map some

def field {α : Type} (body : ValueDict) (key : String) (default_ : Option α)
    (read : Value → Option α) : Option α :=
  match body.lookup key with
  | none => default_
  | some v => read v

def validate (body : ValueDict) : Option StageRunRequest :=
  if body.all fun e => fieldNames.contains e.1 then do
    let jobId ← field body "job_id" none (text Uuid.parse?)
    let contractId ← field body "contract_id" none (text Uuid.parse?)
    let projectId ← field body "project_id" none (text Uuid.parse?)
    let stage ← field body "stage" none (text PipelineStage.ofValue?)
    let attempt ← field body "attempt" (some 1) attemptOf
    let priority ← field body "priority" (some .normal) (text JobPriority.ofValue?)
    let trace ← field body "trace" (some []) textsOf
    let continuePipeline ← field body "continue_pipeline" (some true) boolOf
    let options ← field body "options" (some []) dictOf
    let dispatchId ← field body "dispatch_id" (some none) dispatchIdOf
    return { jobId, contractId, projectId, stage, attempt, priority, trace, continuePipeline
             options, dispatchId }
  else none

end StageRunRequest

def received (m : Message) (attemptsMade : Nat) : Option StageRunRequest :=
  (enqueueSchema (Node.dict m.toPayload)).bind fun data =>
    StageRunRequest.validate (workerBody (jobData data) attemptsMade)

end Wire

end Clear

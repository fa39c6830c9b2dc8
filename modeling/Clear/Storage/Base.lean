import Mathlib.Logic.Function.Basic
import Clear.Core.Uuid
import Clear.Core.Enums
import Clear.Core.Text

/-!
# Object storage

The key layout (`StorageKey`) and the writes: `putJson`, which the pipeline makes, serialises a
payload and stores it at a key, overwriting any existing object; `putStream` stores an upload;
`deletePrefix` removes what a purge names. The JSON encoder and the digest are third-party code,
taken as the fields of a `Codec`.
-/

namespace Clear

abbrev Bytes := List UInt8

structure Codec (Payload : Type) where
  dumps : Payload → Bytes
  sha256 : Bytes → String

/-- What a write returns. -/
structure UploadResult where
  key : String
  size : Nat
  checksum : Option String := none

abbrev Objects := String → Option Bytes

namespace Objects

def putBytes {Payload : Type} (codec : Codec Payload) (objects : Objects) (key : String)
    (data : Bytes) : Objects × UploadResult :=
  (Function.update objects key (some data),
    { key, size := data.length, checksum := some (codec.sha256 data) })

/-- Store a JSON artifact and return its checksum. -/
def putJson {Payload : Type} (codec : Codec Payload) (objects : Objects) (key : String)
    (payload : Payload) : Objects × UploadResult :=
  objects.putBytes codec key (codec.dumps payload)

def putStream (sha256 : Bytes → String) (objects : Objects) (key : String) (data : Bytes) :
    Objects × UploadResult :=
  (Function.update objects key (some data),
    { key, size := data.length, checksum := some (sha256 data) })

def deletePrefix (objects : Objects) (start : String) : Objects :=
  fun key => if Text.startsWith start key then none else objects key

end Objects

namespace StorageKey

def artifact (projectId contractId : Uuid) (kind : ArtifactKind) (generation : Nat) : String :=
  "projects/" ++ projectId.str ++ "/contracts/" ++ contractId.str ++
    "/artifacts/" ++ kind.value ++ "/g" ++ generation.repr ++ ".json"

/-- The characters of a file name that are stored as they are. -/
def isSafe (c : Char) : Bool :=
  ('A' ≤ c && c ≤ 'Z') || ('a' ≤ c && c ≤ 'z') || ('0' ≤ c && c ≤ '9') || c ∈ ['.', '_', '-', ' ']

/-- Strip anything that could escape the key of its contract or confuse a backend. -/
def safe (name : String) : String :=
  let slashed := String.ofList (name.toList.map fun c => if c = '\\' then '/' else c)
  let base := (Text.splitOn '/' slashed).getLastD ""
  let cleaned := Text.trim (· ∈ ['.', ' '])
    (String.ofList (Text.replaceRuns isSafe '_' false base.toList))
  Text.take 255 (if cleaned = "" then "file" else cleaned)

def contractPrefix (projectId contractId : Uuid) : String :=
  "projects/" ++ projectId.str ++ "/contracts/" ++ contractId.str ++ "/"

def contractFile (projectId contractId : Uuid) (version : Nat) (filename : String) : String :=
  "projects/" ++ projectId.str ++ "/contracts/" ++ contractId.str ++
    "/v" ++ version.repr ++ "/" ++ safe filename

/-- `projects/{project_id}/exports/{export_id}/{filename}`; without a project under
`application`. -/
def exportFile (projectId : Option Uuid) (exportId : Uuid) (filename : String) : String :=
  (match projectId with
    | some project => "projects/" ++ project.str
    | none => "application") ++ "/exports/" ++ exportId.str ++ "/" ++ safe filename

end StorageKey

end Clear

import Clear.Core.Proof.Text
import Clear.Models.Processing
import Clear.Storage.Base
import Mathlib.Algebra.Ring.Nat

/-!
# Archives

`app/services/archive.py`: an uploaded ZIP file is unpacked into its supported documents. A ZIP file
is the list of the entries of its directory; an entry carries what the `zipfile` library finds when
it opens and reads it. Beside its outcome, `extract` gives the names of the entries of which
something was decompressed, in order.
-/

namespace Clear

/-! ## The library -/

/-- What `zipfile` raises. -/
inductive ZipError where
  | badZipFile (text : String)
  | osError (text : String)
  | runtimeError (text : String)
  | other (exception : String)
  deriving DecidableEq

namespace ZipError

/-- `str(exc)` of an exception that a member may raise without failing the archive. -/
def caught : ZipError → Option String
  | badZipFile text => some text
  | osError text => some text
  | runtimeError text => some text
  | other _ => none

def exception : ZipError → String
  | badZipFile _ => "BadZipFile"
  | osError _ => "OSError"
  | runtimeError _ => "RuntimeError"
  | other exception => exception

end ZipError

/-- An entry of the directory: what opening it raises, and what is decompressed then, up to the
error that ends it. -/
structure ZipInfo where
  filename : String
  fileSize : Nat
  refused : Option ZipError := none
  stream : Bytes := []
  failure : Option ZipError := none
  deriving DecidableEq

namespace ZipInfo

def isDir (e : ZipInfo) : Bool := Text.endsWith "/" e.filename

def read (e : ZipInfo) : Except ZipError Bytes :=
  match e.refused with
  | some error => .error error
  | none =>
    match e.failure with
    | some error => .error error
    | none => .ok e.stream

def decompressed (e : ZipInfo) : Bytes := if e.refused.isSome then [] else e.stream

/-- The name of the entry, if reading it decompresses something. -/
def trace (e : ZipInfo) : List String := if e.decompressed.isEmpty then [] else [e.filename]

end ZipInfo

namespace ZipFile

def opened (archive : List ZipInfo) (e : ZipInfo) : ZipInfo :=
  ((archive.filter (·.filename = e.filename)).getLast?).getD e

/-- The loop of `testzip`: the name of the first entry that is corrupt, after its trace. -/
def testFrom (archive : List ZipInfo) :
    List ZipInfo → Except ZipError (Option String) × List String
  | [] => (.ok none, [])
  | e :: entries =>
    let tested := opened archive e
    match tested.read with
    | .error (.badZipFile _) => (.ok (some e.filename), tested.trace)
    | .error error => (.error error, tested.trace)
    | .ok _ =>
      let rest := testFrom archive entries
      (rest.1, tested.trace ++ rest.2)

/-- `testzip`: every entry is read by its name. -/
def testzip (archive : List ZipInfo) : Except ZipError (Option String) × List String :=
  testFrom archive archive

end ZipFile

/-! ## Members -/

structure ArchiveLimits where
  maxArchiveMembers : Nat := 500
  maxArchiveUncompressedMb : Nat := 2048

def ArchiveLimits.maxTotal (limits : ArchiveLimits) : Nat :=
  limits.maxArchiveUncompressedMb * 1024 * 1024

structure ArchiveMember where
  fileName : String
  content : Bytes
  fileType : FileType
  deriving DecidableEq

/-- What an archive yielded, with the names and reasons of what was left out. -/
structure ArchiveContents where
  members : List ArchiveMember := []
  ignored : List (String × String) := []
  deriving DecidableEq

namespace ArchiveService

/-- Directories some archivers add that never hold documents. -/
def junkDirectory : String := "__MACOSX/"

def junkNames : List String := [".DS_Store", "Thumbs.db"]

def slashed (name : String) : String :=
  String.ofList (name.toList.map fun c => if c = '\\' then '/' else c)

/-- Reduce an archive path to a bare file name. -/
def safeMemberName (name : String) : String :=
  match Text.rsplit1 '/' (slashed name) with
  | none => slashed name
  | some (_, base) => base

/-- Archiver debris, as opposed to a document the user chose not to send. -/
def isJunk (name : String) : Bool :=
  let base := safeMemberName name
  Text.startsWith junkDirectory name || base ∈ junkNames || Text.startsWith "._" base || base = ""

def numbered (stem suffix : String) (counter : Nat) : String :=
  stem ++ String.ofList (' ' :: '(' :: counter.repr.toList ++ ')' :: suffix.toList)

theorem numbered_inj {stem suffix : String} {i j : Nat}
    (h : numbered stem suffix i = numbered stem suffix j) : i = j := by
  have hchars := congrArg String.toList h
  unfold numbered at hchars
  simp only [String.toList_append, String.toList_ofList, List.cons_append,
    List.append_cancel_left_eq, List.cons.injEq, true_and] at hchars
  exact Text.repr_inj
    (Text.split_inj (Text.notMem_repr (by decide) i) (Text.notMem_repr (by decide) j) hchars).1

def untried (taken : List String) (stem suffix : String) (counter : Nat) : List String :=
  taken.filter fun name => ∀ k < counter, name ≠ numbered stem suffix k

/-- A round of the loop uses up a name that is taken. -/
theorem untried_lt {taken : List String} {stem suffix : String} {counter : Nat}
    (h : numbered stem suffix counter ∈ taken) :
    (untried taken stem suffix (counter + 1)).length <
      (untried taken stem suffix counter).length := by
  have hsub : untried taken stem suffix (counter + 1) =
      (untried taken stem suffix counter).filter (· ≠ numbered stem suffix counter) := by
    unfold untried
    rw [List.filter_filter]
    refine List.filter_congr fun name _ => ?_
    rw [← Bool.decide_and, decide_eq_decide]
    constructor
    · intro hall
      exact ⟨hall counter (Nat.lt_succ_self counter), fun k hk => hall k (Nat.lt_succ_of_lt hk)⟩
    · intro ⟨hne, hall⟩ k hk
      rcases Nat.lt_succ_iff_lt_or_eq.1 hk with hlt | rfl
      · exact hall k hlt
      · exact hne
  have hin : numbered stem suffix counter ∈ untried taken stem suffix counter :=
    List.mem_filter.2 ⟨h, decide_eq_true fun k hk heq => absurd (numbered_inj heq) (by omega)⟩
  rw [hsub]
  exact List.length_filter_lt_length_iff_exists.2 ⟨_, hin, by simp⟩

/-- The loop of `_disambiguate`: the first counter whose name is free. It ends because a round uses
up a name that is taken. -/
def freeCounter (taken : List String) (stem suffix : String) (counter : Nat) : Nat :=
  if h : numbered stem suffix counter ∈ taken then freeCounter taken stem suffix (counter + 1)
  else counter
termination_by (untried taken stem suffix counter).length
decreasing_by exact untried_lt h

def stemAndSuffix (name : String) : String × String :=
  let parts := (Text.rsplit1 '.' name).getD ("", name)
  (if parts.1 = "" then name else parts.1,
    if parts.2 = "" then "" else String.ofList ('.' :: parts.2.toList))

def folderOf (originalPath : String) : String :=
  Text.strip
    ((Text.splitOn '/' (Text.trim (· = '/') (slashed originalPath))).dropLast.getLastD "")

/-- Make a flattened name unique without losing what distinguished it. -/
def disambiguate (name originalPath : String) (taken : List String) : String :=
  if name ∉ taken then name
  else
    let folder := folderOf originalPath
    let candidate := if folder = "" then name else folder ++ " - " ++ name
    if candidate ∉ taken then candidate
    else
      let parts := stemAndSuffix name
      numbered parts.1 parts.2 (freeCounter taken parts.1 parts.2 2)

/-! ## Extraction -/

def archiveError (message : String) (details : JsonDict) : AppError :=
  { exception := "ArchiveError", code := "archive_error", message, details }

def extensionOf (name : String) : String :=
  match Text.rsplit1 '.' name with
  | none => ""
  | some (_, extension) => Text.lower extension

/-- What the loop of `extract` carries. -/
structure Unpacking where
  contents : ArchiveContents := {}
  taken : List String := []

namespace Unpacking

def ignore (u : Unpacking) (name reason : String) : Unpacking :=
  { u with contents := { u.contents with ignored := u.contents.ignored ++ [(name, reason)] } }

def keep (u : Unpacking) (member : ArchiveMember) : Unpacking :=
  { contents := { u.contents with members := u.contents.members ++ [member] }
    taken := u.taken ++ [member.fileName] }

end Unpacking

def readMember (u : Unpacking) (name : String) (fileType : FileType) (info : ZipInfo) :
    Except Raised Unpacking :=
  match info.read with
  | .error error =>
    match error.caught with
    | some text => .ok (u.ignore name ("could not be read (" ++ text ++ ")"))
    | none => .error (.other error.exception)
  | .ok content =>
    if content.isEmpty then .ok (u.ignore name "the file is empty")
    else .ok (u.keep { fileName := name, content, fileType })

/-- One round of the loop of `extract`, with the trace of what it reads. -/
def unpackOne (u : Unpacking) (info : ZipInfo) : Except Raised Unpacking × List String :=
  if isJunk info.filename then (.ok u, [])
  else
    let name := disambiguate (safeMemberName info.filename) info.filename u.taken
    let extension := extensionOf name
    if extension = "zip" then (.ok (u.ignore name "nested archives are not unpacked"), [])
    else
      match FileType.ofValue? extension with
      | none =>
        (.ok (u.ignore name ("'" ++ (if extension = "" then "no extension" else extension) ++
          "' is not a supported document type")), [])
      | some fileType => (readMember u name fileType info, info.trace)

def unpack (u : Unpacking) : List ZipInfo → Except Raised ArchiveContents × List String
  | [] => (.ok u.contents, [])
  | info :: entries =>
    let first := unpackOne u info
    match first.1 with
    | .error e => (.error e, first.2)
    | .ok u =>
      let rest := unpack u entries
      (rest.1, first.2 ++ rest.2)

def entries (archive : List ZipInfo) : List ZipInfo := archive.filter fun info => !info.isDir

def declared (archive : List ZipInfo) : Nat := ((entries archive).map (·.fileSize)).sum

/-- The guards on what the directory declares. -/
def refusal (limits : ArchiveLimits) (archiveName : String) (archive : List ZipInfo) :
    Option AppError :=
  if limits.maxArchiveMembers < (entries archive).length then
    some (archiveError
      ("'" ++ archiveName ++ "' contains " ++ (entries archive).length.repr ++
        " files, more than the " ++ limits.maxArchiveMembers.repr ++ " allowed in one archive.")
      [("file_name", .str archiveName), ("members", .int (entries archive).length)])
  else if limits.maxTotal < declared archive then
    some (archiveError
      ("'" ++ archiveName ++ "' expands to " ++ (declared archive / (1024 * 1024)).repr ++
        " MB, more than the " ++ limits.maxArchiveUncompressedMb.repr ++ " MB allowed.")
      [("file_name", .str archiveName), ("uncompressed_bytes", .int (declared archive))])
  else none

/-- Unpack an archive into its supported documents. `zipFile` reads the directory. -/
def extract (limits : ArchiveLimits) (zipFile : Bytes → Except ZipError (List ZipInfo))
    (content : Bytes) (archiveName : String) : Except Raised ArchiveContents × List String :=
  match zipFile content with
  | .error (.badZipFile _) | .error (.osError _) =>
    (.error (.app (archiveError ("'" ++ archiveName ++ "' is not a readable ZIP archive.")
      [("file_name", .str archiveName)])), [])
  | .error error => (.error (.other error.exception), [])
  | .ok archive =>
    let tested := ZipFile.testzip archive
    match tested.1 with
    | .error error => (.error (.other error.exception), tested.2)
    | .ok (some bad) =>
      (.error (.app (archiveError
        ("'" ++ archiveName ++ "' is corrupt - '" ++ bad ++ "' failed its checksum.")
        [("file_name", .str archiveName), ("member", .str bad)])), tested.2)
    | .ok none =>
      match refusal limits archiveName archive with
      | some e => (.error (.app e), tested.2)
      | none =>
        let unpacked := unpack {} (entries archive)
        (unpacked.1, tested.2 ++ unpacked.2)

end ArchiveService

end Clear

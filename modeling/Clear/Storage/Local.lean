import Clear.Lib.FileTree
import Clear.Storage.Base
import Mathlib.Data.List.Sort

/-!
# Local storage

`LocalStorage` of `app/storage/local.py` on a POSIX file system without symbolic links. A key is
resolved to a path below the root, and accepted if the text of the path starts with the text of the
container's; writes go through a temporary sibling. Glob patterns are matched by a given function.
-/

namespace Clear

namespace LocalStorage

/-- What can stand in a directory. -/
def IsName (s : String) : Prop :=
  s ≠ "" ∧ s ≠ "." ∧ s ≠ ".." ∧ ∀ c ∈ s.toList, c ≠ '/' ∧ c ≠ Char.ofNat 0

instance (s : String) : Decidable (IsName s) :=
  decidable_of_iff (s ≠ "" ∧ s ≠ "." ∧ s ≠ ".." ∧
    (s.toList.all fun c => c ≠ '/' && c ≠ Char.ofNat 0) = true) (by simp [IsName])

structure FileName where
  text : String
  isName : IsName text
  deriving DecidableEq

/-- An absolute path without dot segments. -/
abbrev Path := List FileName

abbrev Fs := FileTree FileName Bytes

/-- What an operation raises besides what the operating system does. -/
inductive StoreError where
  | notFound | storage
  deriving DecidableEq, Repr

/-! ## Paths -/

def descend (p : Path) (part : String) : Path :=
  if part = ".." then p.dropLast
  else if h : IsName part then p ++ [⟨part, h⟩]
  else p

def resolve (base : Path) (key : String) : Option Path :=
  if key.toList.contains (Char.ofNat 0) then none
  else some ((Text.splitOn '/' key).foldl descend (if Text.startsWith "/" key then [] else base))

def pathChars (p : Path) : List Char := p.flatMap fun name => '/' :: name.text.toList

def pathStr (p : Path) : String := if p = [] then "/" else String.ofList (pathChars p)

structure Object where
  container : FileName
  key : String
  deriving DecidableEq

def bucketRoot (root : Path) (container : FileName) : Path := root ++ [container]

def path? (root : Path) (o : Object) : Option Path :=
  (resolve (bucketRoot root o.container) o.key).filter fun target =>
    Text.startsWith (pathStr (bucketRoot root o.container)) (pathStr target)

theorem isName_tmp {s : String} (h : IsName s) : IsName (s ++ ".tmp") := by
  have hlength : 4 < (s ++ ".tmp").toList.length := by
    have hpos : 0 < s.toList.length := by
      rw [List.length_pos_iff]
      exact fun hnil => h.1 (String.toList_inj.1 hnil)
    rw [String.toList_append, List.length_append, show ".tmp".toList.length = 4 by decide]
    omega
  refine ⟨?_, ?_, ?_, ?_⟩
  · intro heq
    rw [heq] at hlength
    exact absurd hlength (by decide)
  · intro heq
    rw [heq] at hlength
    exact absurd hlength (by decide)
  · intro heq
    rw [heq] at hlength
    exact absurd hlength (by decide)
  · intro c hc
    rw [String.toList_append, List.mem_append] at hc
    rcases hc with hc | hc
    · exact h.2.2.2 c hc
    · rw [show ".tmp".toList = ['.', 't', 'm', 'p'] by decide] at hc
      simp only [List.mem_cons, List.not_mem_nil, or_false] at hc
      rcases hc with rfl | rfl | rfl | rfl <;> decide

def FileName.tmp (name : FileName) : FileName := ⟨name.text ++ ".tmp", isName_tmp name.isName⟩

def tmp (p : Path) : Path :=
  match p.getLast? with
  | none => p
  | some name => p.dropLast ++ [name.tmp]

/-! ## Writing -/

def replace (fs : Fs) (source p : Path) : Option Fs :=
  match fs.node source with
  | some (.file data) => (fs.removeFiles (· = source)).write p data
  | _ => none

def putBytes (fs : Fs) (p : Path) (data : Bytes) : Fs × Except StoreError Unit :=
  match fs.mkdirs p.dropLast with
  | none => (fs, .error .storage)
  | some fs =>
    match fs.write (tmp p) data with
    | none => (fs, .error .storage)
    | some fs =>
      match replace fs (tmp p) p with
      | none => (fs, .error .storage)
      | some fs => (fs, .ok ())

/-- How reading an upload ends: all is read, or an `OSError` or another exception is raised. -/
inductive StreamEnd where
  | done | osError | raised
  deriving DecidableEq, Repr

def putStream (fs : Fs) (p : Path) (data : Bytes) (ended : StreamEnd) :
    Fs × Except StoreError Unit :=
  match fs.mkdirs p.dropLast with
  | none => (fs, .error .storage)
  | some fs =>
    match fs.write (tmp p) data with
    | none => (fs, .error .storage)
    | some fs =>
      match ended with
      | .raised => (fs, .error .storage)
      | .osError => (fs.removeFiles (· = tmp p), .error .storage)
      | .done =>
        match replace fs (tmp p) p with
        | none => (fs.removeFiles (· = tmp p), .error .storage)
        | some fs => (fs, .ok ())

/-! ## Reading and deleting -/

def getBytes (fs : Fs) (p : Path) : Except StoreError Bytes :=
  match fs.read p with
  | .ok data => .ok data
  | .error .notFound => .error .notFound
  | .error _ => .error .storage

def fileExists (fs : Fs) (p : Path) : Bool := (fs.node p).isSome

def delete (fs : Fs) (p : Path) : Fs × Except StoreError Bool :=
  match fs.read p with
  | .ok _ => (fs.removeFiles (· = p), .ok true)
  | .error .notFound => (fs, .ok false)
  | .error _ => (fs, .error .storage)

def copy (fs : Fs) (source p : Path) : Fs × Except StoreError Unit :=
  match getBytes fs source with
  | .ok data => putBytes fs p data
  | .error e => (fs, .error e)

/-! ## Prefixes -/

/-- What `directory.glob(pattern)` yields, of the paths below the directory; a pattern that is not
valid raises. -/
abbrev Glob := String → Option (Path → Bool)

def filesBelow (fs : Fs) (top : Path) : List Path :=
  (fs.entries.filter fun e => e.2.isFile && (top <+: e.1 ∧ e.1 ≠ top)).map (·.1)

/-- The files that a prefix deletes; a pattern that is not valid raises. -/
def doomed (glob : Glob) (fs : Fs) (base : Path) : Option (Path → Bool) :=
  if fs.node base = some .dir then some fun p => base <+: p ∧ p ≠ base
  else
    (glob ((base.getLast?.map (·.text)).getD "" ++ "*")).map fun yields p =>
      base.dropLast <+: p ∧ p ≠ base.dropLast ∧ yields (p.drop base.dropLast.length) = true

def deletePrefix (glob : Glob) (fs : Fs) (base : Path) : Fs × Option Nat :=
  if fs.node base = some .dir then (fs.removeTree base, some (filesBelow fs base).length)
  else if fs.node base.dropLast = none then (fs, some 0)
  else
    match doomed glob fs base with
    | none => (fs, none)
    | some named =>
      (fs.removeFiles named, some ((filesBelow fs base.dropLast).filter named).length)

def isTemporary (p : Path) : Bool :=
  p.getLast?.any fun name => 4 < name.text.length && Text.endsWith ".tmp" name.text

def before (p q : Path) : Bool :=
  List.lex (p.map (·.text.toList)) (q.map (·.text.toList))
    fun s t => List.lex s t fun c d => c.toNat < d.toNat

def candidates (fs : Fs) (base : Path) : List Path :=
  let searchRoot := if fs.node base = some .dir then base else base.dropLast
  ((filesBelow fs searchRoot).insertionSort fun p q => !before q p).filter fun p => !isTemporary p

def relativeTo (root p : Path) : Option Path :=
  if root <+: p then some (p.drop root.length) else none

def keyStr (relative : Path) : String :=
  if relative = [] then "." else String.ofList ((pathChars relative).drop 1)

def collect (bucket : Path) (start : String) (limit : Nat) :
    List String → List Path → Option (List String)
  | keys, [] => some keys
  | keys, p :: paths =>
    match relativeTo bucket p with
    | none => none
    | some relative =>
      let key := keyStr relative
      let keys := if Text.startsWith start key then keys ++ [key] else keys
      if limit ≤ keys.length then some keys else collect bucket start limit keys paths

/-- `list_keys`, which raises if it meets a file outside the container. -/
def listKeys (fs : Fs) (bucket base : Path) (start : String) (limit : Nat) :
    Option (List String) :=
  let searchRoot := if fs.node base = some .dir then base else base.dropLast
  if fs.node searchRoot = none then some []
  else collect bucket start limit [] (candidates fs base)

def defaultLimit : Nat := 1000

/-! ## What the store should keep apart -/

def SameView (fs fs' : Fs) (q : Path) : Prop :=
  getBytes fs' q = getBytes fs q ∧ fileExists fs' q = fileExists fs q

/-- No write to `p` and no deletion of it is seen at `q`, in any tree with the root. -/
def Isolated (root p q : Path) : Prop :=
  ∀ fs : Fs, fs.node root = some .dir →
    (∀ data, SameView fs (putBytes fs p data).1 q) ∧
    (∀ data ended, SameView fs (putStream fs p data ended).1 q) ∧
    SameView fs (delete fs p).1 q ∧ ∀ source, SameView fs (copy fs source p).1 q

def RemovesListed (glob : Glob) (root : Path) (fs : Fs) (start : Object) : Prop :=
  ∀ base ∈ path? root start, ∃ keys,
    listKeys fs (bucketRoot root start.container) base start.key defaultLimit = some keys ∧
    ∀ p, (fs.node p).any FileNode.isFile = true →
      ((deletePrefix glob fs base).1.node p = none ↔
        ∃ key ∈ keys, path? root ⟨start.container, key⟩ = some p)

/-- An operation on an object touches that object only, accepted keys stay in their container, and a
prefix deletes what it lists. -/
structure TouchesOwn (glob : Glob) (root : Path) (fs : Fs) (a b start : Object) : Prop where
  frame : a ≠ b → ∀ p ∈ path? root a, ∀ q ∈ path? root b, Isolated root p q
  inside : ∀ o ∈ [a, b, start], ∀ p ∈ path? root o, bucketRoot root o.container <+: p
  listed : RemovesListed glob root fs start

def Apart (p q : Path) : Prop := ¬ p <+: q ∧ ¬ q <+: p ∧ ¬ tmp p <+: q

def NoSibling (root : Path) (o : Object) : Prop :=
  ∀ p ∈ path? root o, ∀ name rest, p = root ++ name :: rest → name = o.container

def isNamed (bucket : Path) (start : String) (p : Path) : Bool :=
  Text.startsWith start (keyStr (p.drop bucket.length))

/-- A directory holds at most a thousand files, none is temporary, and their keys start with the
prefix as it is written. -/
def PlainDirectory (fs : Fs) (bucket base : Path) (start : String) : Prop :=
  (∀ p ∈ filesBelow fs base, isTemporary p = false ∧ isNamed bucket start p = true) ∧
    (filesBelow fs base).length ≤ defaultLimit

/-- Where the prefix is no directory, its parent's files are in the container, and the pattern finds
the first thousand of them that are not temporary and have a key with the prefix. -/
def PlainNames (glob : Glob) (fs : Fs) (bucket base : Path) (start : String) : Prop :=
  (∀ p ∈ filesBelow fs base.dropLast, isTemporary p = false → bucket <+: p) ∧
    ∀ p ∈ filesBelow fs base.dropLast, (doomed glob fs base).any (· p) = true ↔
      p ∈ ((candidates fs base).filter (isNamed bucket start)).take defaultLimit

def SameFiles (glob : Glob) (root : Path) (fs : Fs) (start : Object) : Prop :=
  ∀ base ∈ path? root start,
    if fs.node base = some .dir then
      PlainDirectory fs (bucketRoot root start.container) base start.key
    else PlainNames glob fs (bucketRoot root start.container) base start.key

end LocalStorage

end Clear

import Mathlib.Data.List.Basic

/-!
# Units of work

A session of an object mapper over a database: changes are recorded, a flush sends them in order, a
commit flushes and makes them durable. A change is refused where it yields no state. A refused
statement fails the whole transaction: everything after it is refused until a rollback.

A caller that swallows the refusal of a flush still commits exactly what it would have committed
without that flush (`commit_flush`), so a change that is refused costs the changes before it
(`commit_swallowed`).
-/

namespace UnitOfWork

/-- A statement: the state it leaves, none where the database refuses it. -/
abbrev Change (δ : Type) := δ → Option δ

structure Session (δ : Type) where
  /-- What the transaction has written, over what others have committed. -/
  view : δ
  /-- Recorded for the next flush. -/
  pending : List (Change δ) := []
  failed : Bool := false

variable {δ : Type}

def applyAll (changes : List (Change δ)) (view : δ) : Option δ :=
  changes.foldlM (fun view change => change view) view

namespace Session

def add (change : Change δ) (s : Session δ) : Session δ :=
  { s with pending := s.pending ++ [change] }

def interleave (others : δ → δ) (s : Session δ) : Session δ := { s with view := others s.view }

/-- A statement has been refused. -/
def fail (s : Session δ) : Session δ := { s with failed := true }

/-- Send what is pending. The flag tells whether it was accepted. -/
def flush (s : Session δ) : Bool × Session δ :=
  if s.failed then (false, s)
  else
    match applyAll s.pending s.view with
    | some view => (true, { s with view, pending := [] })
    | none => (false, s.fail)

/-- What becomes durable, if anything does. -/
def commit (s : Session δ) : Option δ := if s.failed then none else applyAll s.pending s.view

end Session

open Session

@[simp]
theorem applyAll_nil (view : δ) : applyAll [] view = some view := rfl

theorem applyAll_append (first rest : List (Change δ)) (view : δ) :
    applyAll (first ++ rest) view = (applyAll first view).bind (applyAll rest) := by
  unfold applyAll
  rw [List.foldlM_append]
  rfl

@[simp]
theorem applyAll_singleton (change : Change δ) (view : δ) :
    applyAll [change] view = change view := by
  unfold applyAll
  simp

@[simp]
theorem commit_fail (s : Session δ) : s.fail.commit = none := rfl

theorem commit_eq {s : Session δ} (h : s.failed = false) :
    s.commit = applyAll s.pending s.view := by
  unfold commit
  simp [h]

theorem commit_add {s : Session δ} {change : Change δ} (h : s.failed = false) :
    (s.add change).commit = s.commit.bind change := by
  rw [commit_eq (s := s.add change) h, commit_eq h]
  show applyAll (s.pending ++ [change]) s.view = _
  rw [applyAll_append]
  congr 1
  funext view
  exact applyAll_singleton change view

/-- A flush brings forward what the commit would have done: accepted or not, the same becomes
durable. -/
theorem commit_flush (s : Session δ) : s.flush.2.commit = s.commit := by
  unfold flush
  by_cases hf : s.failed = true
  · simp [hf]
  · have hf' : s.failed = false := by simpa using hf
    rw [if_neg hf, commit_eq hf']
    cases happly : applyAll s.pending s.view with
    | none => rfl
    | some view => exact commit_eq hf'

/-- Swallowing the refusal of a flush does not undo it: the commit that follows is that of the
changes together. -/
theorem commit_swallowed {s : Session δ} {change : Change δ} (h : s.failed = false) :
    (s.add change).flush.2.commit = s.commit.bind change := by
  rw [commit_flush, commit_add h]

end UnitOfWork

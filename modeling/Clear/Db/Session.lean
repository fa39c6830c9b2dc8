import Clear.Models.Processing

/-!
# Sessions

`app/db/session.py`: the transaction of a request. A handler works on its session's view of the
database and ends by answering or by raising; what it has written by then is in the view either way.
-/

namespace Clear

variable {δ α : Type}

/-- A coroutine that works in a session: how it ends, and the session's view of the database. -/
abbrev Handler (δ α : Type) := δ → Except Raised α × δ

namespace Handler

def andThen {β : Type} (first : Handler δ α) (rest : α → Handler δ β) : Handler δ β :=
  fun session =>
    match first session with
    | (.ok a, session) => rest a session
    | (.error e, session) => (.error e, session)

/-- `get_db`: one transaction per request. A handler that raised never reaches the commit, and its
session is rolled back. -/
def getDb (handler : Handler δ α) : Handler δ α := fun committed =>
  match handler committed with
  | (.ok a, session) => (.ok a, session)
  | (.error e, _) => (.error e, committed)

theorem getDb_ok {handler : Handler δ α} {committed session : δ} {a : α}
    (h : handler committed = (.ok a, session)) : getDb handler committed = (.ok a, session) := by
  unfold getDb
  rw [h]

theorem getDb_error {handler : Handler δ α} {committed : δ} {e : Raised}
    (h : (handler committed).1 = .error e) : getDb handler committed = (.error e, committed) := by
  unfold getDb
  cases hrun : handler committed with
  | mk result session =>
    rw [hrun] at h
    rw [show result = .error e from h]

theorem getDb_cases (handler : Handler δ α) (committed : δ) :
    (∃ a, getDb handler committed = (.ok a, (handler committed).2) ∧
      (handler committed).1 = .ok a) ∨
    (∃ e, getDb handler committed = (.error e, committed) ∧ (handler committed).1 = .error e) := by
  cases h : (handler committed).1 with
  | ok a =>
    refine .inl ⟨a, ?_, rfl⟩
    exact getDb_ok (Prod.ext h rfl)
  | error e => exact .inr ⟨e, getDb_error h, rfl⟩

end Handler

end Clear

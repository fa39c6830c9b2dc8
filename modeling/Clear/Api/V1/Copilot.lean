import Clear.Core.Deps
import Clear.Services.Copilot

/-!
# Copilot endpoints

`query` and `ask_stream` of `app/api/v1/search.py`, what they store of a conversation, and what the
chat page makes of a stream (`frontend/src/pages/CopilotPage.tsx`). The audit rows, the timestamps of
a conversation and the layout of JSON are left out.
-/

namespace Clear

open Retrieval

/-! ## Conversations -/

structure ChatSession where
  id : Uuid
  userId : Uuid
  title : String := "New conversation"
  messageCount : Nat := 0
  deletedAt : Option Timestamp := none

/-- One turn in a conversation. -/
structure ChatMessage where
  sessionId : Uuid
  role : ChatRole
  content : String
  citations : List Citation := []
  confidence : Option Rat := none
  needsReview : Bool := false

structure ChatTables where
  sessions : List ChatSession
  messages : List ChatMessage

namespace ChatTables

def session (chat : ChatTables) (sessionId : Uuid) (user : User) : Option ChatSession :=
  chat.sessions.find? fun s => s.id = sessionId && (s.userId = user.id && s.deletedAt.isNone)

def history (chat : ChatTables) (sessionId : Option Uuid) (user : User) : List Turn :=
  match sessionId with
  | none => []
  | some sessionId =>
    if (chat.session sessionId user).isSome then
      let messages := chat.messages.filter (·.sessionId = sessionId)
      (messages.drop (messages.length - 6)).map fun message =>
        { role := some message.role.value, content := some message.content }
    else []

def titled (session : ChatSession) (query : String) : ChatSession :=
  { session with
    title :=
      if session.title = "" ∨ session.title = "New conversation" then Text.take 120 query
      else session.title
    messageCount := session.messageCount + 2 }

end ChatTables

namespace Copilot

def CopilotResult.citations (result : CopilotResult) : List Citation :=
  (result.generated.map (·.citations)).getD []

/-- `_persist_query_turn`: store the question and the answer, when they belong to a conversation. -/
def persistTurn (chat : ChatTables) (sessionId : Option Uuid) (query : String) (user : User)
    (result : CopilotResult) : Except Raised ChatTables :=
  match sessionId with
  | none => .ok chat
  | some sessionId =>
    match chat.session sessionId user with
    | none => .error (.app (.notFound "Conversation" sessionId))
    | some session =>
      .ok
        { sessions := chat.sessions.map fun s =>
            if s.id = session.id then ChatTables.titled s query else s
          messages := chat.messages ++
            [{ sessionId := session.id, role := .user, content := query },
              { sessionId := session.id, role := .assistant, content := result.answer
                citations := result.citations
                confidence := some (Rag.roundTo 4 result.confidence)
                needsReview := result.needsReview }] }

def saveStreamTurn (chat : ChatTables) (sessionId : Option Uuid) (query : String) (user : User)
    (result : CopilotResult) : ChatTables :=
  (persistTurn chat sessionId query user result).toOption.getD chat

/-! ## The plain answer -/

structure QueryRequest where
  query : String
  projectId : Option Uuid := none
  contractId : Option Uuid := none
  sessionId : Option Uuid := none

variable {ν : Type} (service : Service ν) (store : Store ν)

def prepareFor (chat : ChatTables) (scope : AccessScope) (payload : QueryRequest) :
    Except Raised Preparation := do
  let projectIds ← (scope.resolve payload.projectId).mapError Raised.app
  prepare service store payload.query projectIds payload.contractId
    (chat.history payload.sessionId scope.user)

def query (chat : ChatTables) (scope : AccessScope) (payload : QueryRequest)
    (generation : Rag.Generation) : Except Raised CopilotResult × ChatTables :=
  match prepareFor service store chat scope payload with
  | .error e => (.error e, chat)
  | .ok p =>
    let result := resultOf service p generation
    match persistTurn chat payload.sessionId payload.query scope.user result with
    | .error e => (.error e, chat)
    | .ok chat => (.ok result, chat)

/-! ## The streamed answer -/

/-- The fields of `AskRequest` that the stream reads, besides the format of the prompt. -/
structure AskRequest where
  query : String
  projectId : Option Uuid := none
  contractIds : List Uuid := []
  sessionId : Option Uuid := none

/-- The same question for the other transport. -/
def QueryRequest.streamed (payload : QueryRequest) : AskRequest where
  query := payload.query
  projectId := payload.projectId
  contractIds := payload.contractId.toList
  sessionId := payload.sessionId

/-- A stream narrows to the first contract that it is given. -/
def AskRequest.plain (payload : AskRequest) : QueryRequest where
  query := payload.query
  projectId := payload.projectId
  contractId := payload.contractIds.head?
  sessionId := payload.sessionId

/-- The payload of the last event. -/
structure StreamDone where
  result : CopilotResult
  citations : List Citation := []
  /-- Given if the client must re-render the cleaned text. -/
  text : Option String := none

inductive Event where
  | plan (plan : RetrievalPlan)
  | token (text : String)
  | error (message : String)
  | answered (payload : StreamDone)

def interruptedMessage : String := "The answer stream was interrupted. Please try again."

def eventsOf (p : Preparation) (generation : Rag.Generation) : List Event × Option CopilotResult :=
  match p.package.bind fun package => (Rag.stream package generation).map (package, ·) with
  | none =>
    -- the guardrail fired, or there was nothing to stream
    let result := guardrailResult p
    ([.plan p.plan, .token result.answer, .answered { result }], some result)
  | some (package, tokens) =>
    let sent := .plan p.plan :: tokens.tokens.map .token
    match tokens.raised with
    | some _ => (sent ++ [.error interruptedMessage], none)
    | none =>
      let answer := Rag.validate service.std (String.join tokens.tokens) package
      let result := finish service p answer
      (sent ++ [.answered
        { result
          citations := answer.citations
          text := if answer.invalidCitations.isEmpty then none else some answer.text }], some result)

/-- `POST /copilot/stream`, with the conversations that it leaves. -/
def askStream (chat : ChatTables) (scope : AccessScope) (payload : AskRequest)
    (generation : Rag.Generation) : Except Raised (List Event) × ChatTables :=
  match prepareFor service store chat scope payload.plain with
  | .error e => (.error e, chat)
  | .ok p =>
    let (events, result) := eventsOf service p generation
    (.ok events,
      (result.map (saveStreamTurn chat payload.sessionId payload.query scope.user)).getD chat)

/-! ## The client -/

structure ClientTurn where
  answer : String := ""
  payload : Option StreamDone := none
  error : Option String := none

/-- `onEvent`: `payload.text` replaces what was streamed, unless it is empty. -/
def ClientTurn.receive (turn : ClientTurn) : Event → ClientTurn
  | .plan _ => turn
  | .token text => { turn with answer := turn.answer ++ text }
  | .error message => { turn with error := some message }
  | .answered payload =>
    { turn with
      payload := some payload
      answer := (payload.text.filter (· ≠ "")).getD turn.answer }

/-- What a stream leaves on the page. -/
def clientTurn (events : List Event) : ClientTurn := events.foldl ClientTurn.receive {}

/-- What a client ends with. -/
structure Delivered where
  answer : String
  citations : List Citation
  sources : List SourceRef
  insufficientContext : Bool
  refused : Bool
  generationFailed : Bool
  warnings : List String
  confidence : Rat

def CopilotResult.shown (result : CopilotResult) (answer : String) (citations : List Citation) :
    Delivered where
  answer
  citations
  sources := result.sources
  insufficientContext := result.insufficientContext
  refused := result.refused
  generationFailed := result.generationFailed
  warnings := result.warnings
  confidence := Rag.roundTo 4 result.confidence

def CopilotResult.delivered (result : CopilotResult) : Delivered :=
  result.shown result.answer result.citations

def delivered (events : List Event) : Option Delivered :=
  let turn := clientTurn events
  turn.payload.map fun payload => payload.result.shown turn.answer payload.citations

end Copilot

end Clear

import Clear.Ai.Retrieval.Proof.Scope
import Clear.Api.V1.Copilot

/-!
# One question over two transports

`agree_iff`: the streamed answer leaves the client and the conversation where the plain answer leaves
them exactly if the model answers with a text that is shown as it is stored, from a package that is
not empty, and the conversation is the caller's. A provider failure ends one transport with sources
and the other with an error (`failed_answer_streamed`).
-/

namespace Clear

namespace Transports

open Copilot Retrieval

variable {ν : Type} {service : Service ν} {store : Store ν} {chat : ChatTables} {scope : AccessScope}
  {payload : QueryRequest} {p : Preparation} {package : ContextPackage} {generation : Rag.Generation}

/-! ## What agreement is -/

/-- Both transports deliver the same answer, or the same error, and store the same turn. -/
def Agree (plain : Except Raised CopilotResult × ChatTables)
    (streamed : Except Raised (List Event) × ChatTables) : Prop :=
  streamed.1.map delivered = plain.1.map (fun result => some result.delivered) ∧
    streamed.2 = plain.2

/-- A question belongs to no conversation, or to one of the caller's. -/
def Owned (chat : ChatTables) (sessionId : Option Uuid) (user : User) : Prop :=
  ∀ id, sessionId = some id → (chat.session id user).isSome

/-- What is streamed is what is stored: nothing is trimmed where no label is withdrawn, and something
is left where one is. -/
def Kept (text : String) (package : ContextPackage) : Prop :=
  (Rag.invalidLabels (Text.strip text) package.validLabels = [] → Text.strip text = text) ∧
    (Rag.invalidLabels (Text.strip text) package.validLabels ≠ [] → Rag.answerText text package ≠ "")

def Streams (package : ContextPackage) (generation : Rag.Generation) : Prop :=
  package.isEmpty = false ∧
    ∃ tokens, generation = .text tokens ∧ Kept (String.join tokens) package

/-! ## The client -/

theorem foldl_token (tokens : List String) (turn : ClientTurn) :
    (tokens.map Event.token).foldl ClientTurn.receive turn =
      { turn with answer := turn.answer ++ String.join tokens } := by
  induction tokens generalizing turn with
  | nil => simp
  | cons token tokens ih =>
    rw [List.map_cons, List.foldl_cons, ih]
    simp [ClientTurn.receive, String.append_assoc]

theorem clientTurn_tokens (plan : RetrievalPlan) (tokens : List String) (last : Event) :
    clientTurn (.plan plan :: tokens.map .token ++ [last]) =
      ClientTurn.receive { answer := String.join tokens } last := by
  have htokens : (tokens.map Event.token).foldl ClientTurn.receive (.receive {} (.plan plan)) =
      { answer := String.join tokens } := by
    rw [foldl_token]
    simp [ClientTurn.receive]
  unfold clientTurn
  rw [List.foldl_append]
  show ClientTurn.receive
    ((tokens.map Event.token).foldl ClientTurn.receive (.receive {} (.plan plan))) last = _
  rw [htokens]

theorem delivered_answered (plan : RetrievalPlan) (tokens : List String) (last : StreamDone) :
    delivered (.plan plan :: tokens.map .token ++ [.answered last]) =
      some (last.result.shown ((last.text.filter (· ≠ "")).getD (String.join tokens))
        last.citations) := by
  unfold delivered
  rw [clientTurn_tokens]
  rfl

theorem delivered_error (plan : RetrievalPlan) (tokens : List String) (message : String) :
    delivered (.plan plan :: tokens.map .token ++ [.error message]) = none := by
  unfold delivered
  rw [clientTurn_tokens]
  rfl

/-! ## One lemma for each outcome -/

theorem eventsOf_fixed
    (h : (p.package.bind fun package => (Rag.stream package generation).map (package, ·)) = none) :
    eventsOf service p generation =
      ([.plan p.plan, .token (guardrailResult p).answer, .answered { result := guardrailResult p }],
        some (guardrailResult p)) := by
  unfold eventsOf
  rw [h]

theorem delivered_fixed :
    delivered [.plan p.plan, .token (guardrailResult p).answer,
      .answered { result := guardrailResult p }] = some (guardrailResult p).delivered := by
  have h := delivered_answered p.plan [(guardrailResult p).answer] { result := guardrailResult p }
  rw [List.map_singleton, List.cons_append, List.singleton_append] at h
  rw [h]
  simp [CopilotResult.delivered, CopilotResult.citations, guardrailResult, describe, outline,
    String.join]

theorem eventsOf_tokens (h : p.package = some package) (hne : package.isEmpty = false)
    (hraised : generation.tokenStream.raised = none) :
    eventsOf service p generation =
      let answer :=
        Rag.validate service.std (String.join generation.tokenStream.tokens) package
      let result := Copilot.finish service p answer
      (.plan p.plan :: generation.tokenStream.tokens.map .token ++ [.answered
        { result
          citations := answer.citations
          text := if answer.invalidCitations.isEmpty then none else some answer.text }],
        some result) := by
  have hstream : (p.package.bind fun package =>
      (Rag.stream package generation).map (package, ·)) =
        some (package, generation.tokenStream) := by
    rw [h, Option.bind_some]
    unfold Rag.stream
    rw [hne]
    rfl
  unfold eventsOf
  rw [hstream]
  simp only [hraised]

theorem delivered_failure (h : p.package = some package) (hne : package.isEmpty = false)
    (error : String) : delivered (eventsOf service p (.failure error)).1 = none := by
  have hstream : (p.package.bind fun package =>
      (Rag.stream package (.failure error)).map (package, ·)) =
        some (package, { tokens := [], raised := some error }) := by
    rw [h, Option.bind_some]
    unfold Rag.stream
    rw [hne]
    rfl
  unfold eventsOf
  rw [hstream]
  exact delivered_error p.plan [] interruptedMessage

theorem resultOf_none (h : p.package = none) : resultOf service p generation = guardrailResult p := by
  unfold resultOf
  rw [h]

theorem resultOf_some (h : p.package = some package) {generated : Rag.Answer}
    (hanswer : Rag.answer service.std package generation = .ok generated) :
    resultOf service p generation = Copilot.finish service p generated := by
  unfold resultOf
  rw [h]
  simp only [hanswer]

theorem finish_some (h : p.package = some package) (generated : Rag.Answer) :
    (Copilot.finish service p generated).generated = some generated ∧
      (Copilot.finish service p generated).answer = generated.text ∧
      (Copilot.finish service p generated).refused = generated.refused ∧
      (Copilot.finish service p generated).insufficientContext = false := by
  unfold Copilot.finish
  rw [h]
  exact ⟨rfl, rfl, rfl, rfl⟩

/-! ## When the deliveries agree -/

theorem shown_iff (text : String) (package : ContextPackage) :
    ((if (Rag.invalidLabels (Text.strip text) package.validLabels).isEmpty then none
      else some (Rag.answerText text package)).filter (· ≠ "")).getD text =
        Rag.answerText text package ↔ Kept text package := by
  simp only [List.isEmpty_iff]
  unfold Kept
  by_cases hnone : Rag.invalidLabels (Text.strip text) package.validLabels = []
  · have hanswer : Rag.answerText text package = Text.strip text := by
      unfold Rag.answerText
      dsimp only
      rw [hnone]
      rfl
    rw [if_pos hnone, hanswer]
    exact ⟨fun h => ⟨fun _ => h.symm, fun hsome => absurd hnone hsome⟩, fun h => (h.1 hnone).symm⟩
  · rw [if_neg hnone]
    by_cases hleft : Rag.answerText text package = ""
    · -- nothing is left of the answer, so the page keeps the labels that were withdrawn
      rw [hleft]
      have hlabels : text ≠ "" := by
        rintro rfl
        exact hnone rfl
      simpa [Option.filter_some, hnone] using hlabels
    · simp [Option.filter_some, hleft, hnone]

theorem delivered_text (h : p.package = some package) (hne : package.isEmpty = false)
    (tokens : List String) :
    delivered (eventsOf service p (.text tokens)).1 =
        some (resultOf service p (.text tokens)).delivered ↔ Kept (String.join tokens) package := by
  have hanswer : Rag.answer service.std package (.text tokens) =
      .ok (Rag.validate service.std (String.join tokens) package) := by
    unfold Rag.answer
    rw [hne]
    rfl
  obtain ⟨hgenerated, htext, -, -⟩ :=
    finish_some h (Rag.validate service.std (String.join tokens) package)
  rw [eventsOf_tokens h hne rfl, resultOf_some h hanswer]
  dsimp only
  rw [delivered_answered, Option.some_inj]
  unfold CopilotResult.delivered CopilotResult.citations
  rw [hgenerated, htext]
  unfold CopilotResult.shown
  simp only [Delivered.mk.injEq, Rag.Generation.tokenStream, Rag.validate_text,
    Rag.validate_invalid, Option.map_some, Option.getD_some, and_true]
  exact shown_iff (String.join tokens) package

/-- A stream does not see that the model declined. -/
theorem delivered_refusal (h : p.package = some package) (hne : package.isEmpty = false)
    (tokens : List String) :
    delivered (eventsOf service p (.refusal tokens)).1 ≠
      some (resultOf service p (.refusal tokens)).delivered := by
  intro heq
  have hanswer : Rag.answer service.std package (.refusal tokens) = .ok Rag.refusedAnswer := by
    unfold Rag.answer
    rw [hne]
    rfl
  rw [eventsOf_tokens h hne rfl, resultOf_some h hanswer] at heq
  simp only [Rag.Generation.tokenStream] at heq
  rw [delivered_answered] at heq
  have hflag : (Copilot.finish service p
      (Rag.validate service.std (String.join tokens) package)).refused =
        (Copilot.finish service p Rag.refusedAnswer).refused :=
    congrArg Delivered.refused (Option.some_inj.1 heq)
  rw [(finish_some h _).2.2.1, (finish_some h _).2.2.1, Rag.validate_refused] at hflag
  exact Bool.false_ne_true hflag

theorem delivered_empty (h : p.package = some package) (hempty : package.isEmpty = true) :
    delivered (eventsOf service p generation).1 ≠
      some (resultOf service p generation).delivered := by
  intro heq
  have hfixed : (p.package.bind fun package =>
      (Rag.stream package generation).map (package, ·)) = none := by
    rw [h, Option.bind_some]
    unfold Rag.stream
    rw [hempty]
    rfl
  have hanswer : Rag.answer service.std package generation = .ok (Rag.emptyAnswer package) := by
    unfold Rag.answer
    rw [hempty]
    rfl
  rw [eventsOf_fixed hfixed, resultOf_some h hanswer, delivered_fixed] at heq
  have hflag : (guardrailResult p).insufficientContext =
      (Copilot.finish service p (Rag.emptyAnswer package)).insufficientContext :=
    congrArg Delivered.insufficientContext (Option.some_inj.1 heq)
  rw [(finish_some h _).2.2.2] at hflag
  exact Bool.false_ne_true hflag.symm

theorem streams_text {tokens : List String} : Streams package (.text tokens) ↔
    package.isEmpty = false ∧ Kept (String.join tokens) package := by
  unfold Streams
  refine and_congr_right fun _ => ⟨?_, fun hkept => ⟨tokens, rfl, hkept⟩⟩
  rintro ⟨tokens', htext, hkept⟩
  cases htext
  exact hkept

/-- **The deliveries of a prepared question agree exactly if nothing is generated, or a text is
streamed as it is kept.** -/
theorem delivered_iff :
    delivered (eventsOf service p generation).1 = some (resultOf service p generation).delivered ↔
      ∀ package, p.package = some package → Streams package generation := by
  cases h : p.package with
  | none =>
    have hfixed : (p.package.bind fun package =>
        (Rag.stream package generation).map (package, ·)) = none := by
      rw [h]
      rfl
    rw [eventsOf_fixed hfixed, resultOf_none h]
    simp [delivered_fixed]
  | some package =>
    have hstreams : (∀ other, some package = some other → Streams other generation) ↔
        Streams package generation := by simp
    rw [hstreams]
    cases hempty : package.isEmpty with
    | true =>
      refine iff_of_false (delivered_empty h hempty) fun hstream => ?_
      exact Bool.false_ne_true (hstream.1.symm.trans hempty)
    | false =>
      cases generation with
      | failure error =>
        rw [delivered_failure h hempty]
        refine iff_of_false (fun heq => Option.some_ne_none _ heq.symm) ?_
        rintro ⟨-, tokens, htext, -⟩
        cases htext
      | refusal tokens =>
        refine iff_of_false (delivered_refusal h hempty tokens) ?_
        rintro ⟨-, tokens', htext, -⟩
        cases htext
      | text tokens =>
        rw [streams_text, delivered_text h hempty]
        exact (and_iff_right hempty).symm

/-! ## The turn that is stored -/

theorem saved_of_delivered
    (h : ∀ package, p.package = some package → Streams package generation) :
    (eventsOf service p generation).2 = some (resultOf service p generation) := by
  cases hpackage : p.package with
  | none =>
    have hfixed : (p.package.bind fun package =>
        (Rag.stream package generation).map (package, ·)) = none := by
      rw [hpackage]
      rfl
    rw [eventsOf_fixed hfixed, resultOf_none hpackage]
  | some package =>
    obtain ⟨hne, tokens, rfl, -⟩ := h package hpackage
    have hanswer : Rag.answer service.std package (.text tokens) =
        .ok (Rag.validate service.std (String.join tokens) package) := by
      unfold Rag.answer
      rw [hne]
      rfl
    rw [eventsOf_tokens hpackage hne rfl, resultOf_some hpackage hanswer]
    rfl

/-- A turn can be stored exactly in a conversation of the caller's. -/
theorem persistTurn_ok_iff {sessionId : Option Uuid} {text : String} {user : User}
    (result : CopilotResult) :
    (∃ chat', persistTurn chat sessionId text user result = .ok chat') ↔
      Owned chat sessionId user := by
  unfold persistTurn Owned
  cases sessionId with
  | none => simp
  | some id => cases hsession : chat.session id user <;> simp [hsession]

/-! ## The transports -/

theorem streamed_plain (payload : QueryRequest) : payload.streamed.plain = payload := by
  obtain ⟨text, projectId, contractId, sessionId⟩ := payload
  cases contractId <;> rfl

/-- Both transports fail alike where the preparation does. -/
theorem agree_of_error {e : Raised} (h : prepareFor service store chat scope payload = .error e) :
    Agree (query service store chat scope payload generation)
      (askStream service store chat scope payload.streamed generation) := by
  unfold query askStream
  rw [streamed_plain, h]
  exact ⟨rfl, rfl⟩

/-- One transport answers where the other refuses to: a stream swallows what a turn that cannot be
stored raises. -/
theorem not_agree_of_foreign (h : prepareFor service store chat scope payload = .ok p)
    (howned : ¬ Owned chat payload.sessionId scope.user) :
    ¬ Agree (query service store chat scope payload generation)
      (askStream service store chat scope payload.streamed generation) := by
  intro hagree
  have hdelivered := hagree.1
  unfold query askStream at hdelivered
  rw [streamed_plain, h] at hdelivered
  cases hturn : persistTurn chat payload.sessionId payload.query scope.user
      (resultOf service p generation) with
  | ok chat' => exact howned ((persistTurn_ok_iff _).1 ⟨chat', hturn⟩)
  | error e =>
    simp only [hturn] at hdelivered
    cases hdelivered

theorem agree_iff_of_owned (h : prepareFor service store chat scope payload = .ok p)
    (howned : Owned chat payload.sessionId scope.user) :
    Agree (query service store chat scope payload generation)
        (askStream service store chat scope payload.streamed generation) ↔
      ∀ package, p.package = some package → Streams package generation := by
  have hstored : ∃ chat', persistTurn chat payload.sessionId payload.query scope.user
      (resultOf service p generation) = .ok chat' := (persistTurn_ok_iff _).2 howned
  obtain ⟨chat', hturn⟩ := hstored
  have hplain : query service store chat scope payload generation =
      (.ok (resultOf service p generation), chat') := by
    unfold query
    rw [h]
    simp only [hturn]
  unfold Agree
  rw [hplain]
  unfold askStream
  rw [streamed_plain, h]
  refine ⟨fun hagree => delivered_iff.1 (Except.ok.inj hagree.1), fun hstreams => ⟨?_, ?_⟩⟩
  · exact congrArg Except.ok (delivered_iff.2 hstreams)
  · show (((eventsOf service p generation).2.map _).getD chat) = chat'
    rw [saved_of_delivered hstreams]
    show (persistTurn chat payload.sessionId payload.query scope.user
      (resultOf service p generation)).toOption.getD chat = chat'
    rw [hturn]
    rfl

/-- **A question ends alike over both transports exactly if its preparation fails; or it belongs to
no conversation of somebody else's and the guardrail fires, or the model answers with a text that is
kept, from a package that is not empty.** -/
theorem agree_iff (service : Service ν) (store : Store ν) (chat : ChatTables) (scope : AccessScope)
    (payload : QueryRequest) (generation : Rag.Generation) :
    Agree (query service store chat scope payload generation)
        (askStream service store chat scope payload.streamed generation) ↔
      ∀ p, prepareFor service store chat scope payload = .ok p →
        Owned chat payload.sessionId scope.user ∧
          ∀ package, p.package = some package → Streams package generation := by
  cases h : prepareFor service store chat scope payload with
  | error e => exact iff_of_true (agree_of_error h) (fun p hp => nomatch hp)
  | ok p =>
    have hall : (∀ q, Except.ok (ε := Raised) p = .ok q → Owned chat payload.sessionId scope.user ∧
        ∀ package, q.package = some package → Streams package generation) ↔
        Owned chat payload.sessionId scope.user ∧
          ∀ package, p.package = some package → Streams package generation := by simp
    rw [hall]
    by_cases howned : Owned chat payload.sessionId scope.user
    · rw [agree_iff_of_owned h howned]
      exact (and_iff_right howned).symm
    · exact iff_of_false (not_agree_of_foreign h howned) (fun hand => howned hand.1)

/-! ## A provider that fails -/

namespace Sample

def vector : EmbeddingRow Rat where
  id := 3
  projectId := 1
  contractId := 0
  level := .chunk
  refId := 7
  embedding := [1]
  sourceText := "the rent"
  contentHash := ""
  tokenCount := 2
  provider := "p"
  model := "m"
  dim := 1
  embeddingVersion := "1"
  strategyVersion := "1"

def library : Store Rat where
  corpus :=
    { Retrieval.Sample.corpus 0 0 (by decide) with
      embeddings := { rows := [vector], idUnique := by simp, versionUnique := by simp }
      projectFiled := fun r hr v hv => by
        rw [List.mem_singleton.1 hr] at hv
        cases hv
      chunkFiled := fun r hr _ c hc _ => by
        rw [List.mem_singleton.1 hr, List.mem_singleton.1 hc]
        rfl }
  profiles := []

/-- The default settings; every vector is as close to every question. -/
def copilot : Service Rat where
  std := .ascii
  planner := Retrieval.Sample.planner
  backend :=
    { Retrieval.Sample.offline with
      cosineDistance := fun _ _ => 1 / 5
      embedQuery := fun _ => some [1] }
  labels := .stable
  analyse _ _ := {}
  topK := 25
  threshold := 9 / 20
  contextChunks := 8
  budget := 4000

def reader : AccessScope where
  user := { id := 5, email := "a@b.c", fullName := "A" }
  projectIds := [1]

def question : QueryRequest := { query := "rent" }

theorem prepared : ∃ p package, prepareFor copilot library ⟨[], []⟩ reader question = .ok p ∧
    p.package = some package ∧ package.isEmpty = false := by
  have hany : (prepareFor copilot library ⟨[], []⟩ reader question).toOption.any
      (fun p => p.package.any (!·.isEmpty)) = true := by decide +kernel
  cases hp : prepareFor copilot library ⟨[], []⟩ reader question with
  | error e =>
    rw [hp] at hany
    cases hany
  | ok p =>
    rw [hp] at hany
    have hpackage : p.package.any (!·.isEmpty) = true := hany
    obtain ⟨package, hpackage, hne⟩ := (Option.any_eq_true _ _).1 hpackage
    exact ⟨p, package, rfl, hpackage, by simpa using hne⟩

end Sample

/-- The provider is unavailable: the plain answer lists its sources, the stream ends with an error. -/
theorem failed_answer_streamed :
    ¬ Agree (query Sample.copilot Sample.library ⟨[], []⟩ Sample.reader Sample.question
        (.failure "overloaded"))
      (askStream Sample.copilot Sample.library ⟨[], []⟩ Sample.reader Sample.question.streamed
        (.failure "overloaded")) := by
  obtain ⟨p, package, hp, hpackage, -⟩ := Sample.prepared
  intro hagree
  have howned : Owned ⟨[], []⟩ Sample.question.sessionId Sample.reader.user := nofun
  obtain ⟨-, tokens, htext, -⟩ := (agree_iff_of_owned hp howned).1 hagree package hpackage
  cases htext

end Transports

end Clear

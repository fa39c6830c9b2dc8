import Clear.Queue.Message

/-!
# A stage message survives the dispatcher

`received_eq` computes the request that reaches the stage endpoint: the trace and the options without
the key `__proto__`, their keys and the trace ids without outer white space, and the numbers of the
options as Node prints them. So the message survives exactly when none of this changes it
(`message_survives_iff`).
-/

namespace Clear

namespace Wire

/-! ## Numbers -/

theorem Node.int_of_lt {n : Int} (h : n.natAbs < 2 ^ 53) : Node.int n = .int n := by
  have hfinite : Js.isFinite n.natAbs = true := by
    exact decide_eq_true (h.trans (Nat.pow_lt_pow_right (by decide) (by decide)))
  have hsign : (n.sign * (n.natAbs : Int)) = n := Int.sign_mul_natAbs n
  have habs : n.natAbs < 10 ^ 21 := h.trans (by decide)
  unfold Node.int
  rw [Js.toDouble_of_lt h]
  dsimp only
  rw [if_pos hfinite, hsign, Node.double, if_pos habs]
  have hprinted := Js.printed_toDouble h
  rw [Js.toDouble_of_lt h] at hprinted
  rw [hprinted, hsign]

/-! ## The schema -/

theorem isUuid_str (u : Uuid) : isUuid u.str = true := by
  have hlen : (Uuid.hex 32 u.toNat).length = 32 := Uuid.hex_length _ _
  have hchars : u.str.toList = Uuid.group (Uuid.hex 32 u.toNat) := String.toList_ofList
  have hdigits : ∀ (w n : Nat), ∀ c ∈ Uuid.hex w n, (Uuid.hexValue? c).isSome = true := by
    intro w
    induction w with
    | zero => simp [Uuid.hex]
    | succ w ih =>
      intro n c hc
      rcases List.mem_append.1 hc with hc | hc
      · exact ih _ c hc
      · rw [List.mem_singleton.1 hc, Uuid.hexValue_digit (Nat.mod_lt n (by decide : 0 < 16))]
        rfl
  unfold isUuid
  rw [hchars, Uuid.ungroup_group hlen]
  simpa [hlen] using hdigits 32 u.toNat

theorem value_mem_stages (stage : PipelineStage) : stage.value ∈ stages := by
  cases stage <;> decide

theorem Node.dict_texts (d : List (String × String)) :
    Node.dict (d.map fun e => (e.1, .str e.2)) = d.map fun e => (e.1, .str e.2) := by
  induction d with
  | nil => rfl
  | cons e d ih => simp [Node.dict, Node.value, ih]

theorem Node.dict_eq (d : ValueDict) : Node.dict d = d.map fun e => (e.1, Node.value e.2) := by
  induction d with
  | nil => rfl
  | cons e d ih => simp [Node.dict, ih]

theorem mapM_some {α β : Type} {f : α → Option β} {g : α → β} (l : List α)
    (h : ∀ a, f a = some (g a)) : l.mapM f = some (l.map g) := by
  induction l with
  | nil => rfl
  | cons a l ih => simp [List.mapM_cons, h, ih]

theorem zRecord_texts (d : List (String × String)) :
    zRecord (zText fun _ => true) (.dict (d.map fun e => (e.1, .str e.2))) =
      some (.dict ((d.filter (·.1 ≠ "__proto__")).map fun e => (e.1, .str e.2))) := by
  have hmap : (d.map fun e => (e.1, Value.str e.2)).mapM (fun e =>
      (zText (fun _ => true) e.2).map (e.1, ·)) = some (d.map fun e => (e.1, Value.str e.2)) := by
    rw [List.mapM_map]
    exact mapM_some d fun e => rfl
  unfold zRecord
  dsimp only
  rw [hmap, Option.map_some, List.filter_map]
  rfl

theorem zRecord_some (d : ValueDict) :
    zRecord some (.dict d) = some (.dict (d.filter (·.1 ≠ "__proto__"))) := by
  have hmap : d.mapM (fun e => (some e.2).map (e.1, ·)) = some (d.map id) :=
    mapM_some d fun e => rfl
  unfold zRecord
  dsimp only
  rw [hmap, List.map_id]
  rfl

def FitsId (s : String) : Prop := 1 ≤ utf16Length s ∧ utf16Length s ≤ 64

instance (s : String) : Decidable (FitsId s) := inferInstanceAs (Decidable (_ ∧ _))

def schemaData (m : Message) : ValueDict :=
  [("job_id", .str m.jobId.str), ("contract_id", .str m.contractId.str),
    ("project_id", .str m.projectId.str), ("stage", .str m.stage.value),
    ("attempt", .int m.attempt), ("priority", .str m.priority.value),
    ("trace", .dict ((m.trace.filter (·.1 ≠ "__proto__")).map fun e => (e.1, .str e.2))),
    ("continue_pipeline", .bool m.continuePipeline),
    ("options", .dict ((Node.dict m.options).filter (·.1 ≠ "__proto__"))),
    ("dispatch_id", .str m.dispatchId)]

theorem enqueueSchema_payload {m : Message} (hattempt : 1 ≤ m.attempt ∧ m.attempt ≤ 100) :
    enqueueSchema (Node.dict m.toPayload) =
      if FitsId m.dispatchId then some (schemaData m) else none := by
  have hint : Node.int m.attempt = .int m.attempt := by
    refine Node.int_of_lt ?_
    rw [Int.natAbs_natCast]
    exact hattempt.2.trans_lt (by decide)
  have hrange : (1 : Int) ≤ m.attempt ∧ (m.attempt : Int) ≤ 100 := by omega
  have hbody : Node.dict m.toPayload =
      [("job_id", .str m.jobId.str), ("contract_id", .str m.contractId.str),
        ("project_id", .str m.projectId.str), ("stage", .str m.stage.value),
        ("attempt", .int m.attempt), ("priority", .str m.priority.value),
        ("trace", .dict (m.trace.map fun e => (e.1, .str e.2))),
        ("continue_pipeline", .bool m.continuePipeline), ("options", .dict (Node.dict m.options)),
        ("dispatch_id", .str m.dispatchId)] := by
    simp [Message.toPayload, Node.dict, Node.value, hint, Node.dict_texts]
  rw [hbody]
  unfold enqueueSchema enqueueFields schemaData
  simp only [List.mapM_cons, List.mapM_nil, Field.parse, List.lookup_cons, List.lookup_nil]
  by_cases hid : FitsId m.dispatchId
  · rw [if_pos hid]
    simp [zText, zInt, zBool, isUuid_str, value_mem_stages, hrange, zRecord_texts, zRecord_some, hid.1,
      hid.2]
  · rw [if_neg hid]
    have hcheck : (1 ≤ utf16Length m.dispatchId && utf16Length m.dispatchId ≤ 64) = false := by
      rw [Bool.eq_false_iff]
      intro h
      exact hid (by simpa [FitsId] using h)
    simp [zText, zInt, zBool, isUuid_str, value_mem_stages, hrange, zRecord_texts, zRecord_some, hcheck]

/-! ## The request -/

theorem stripped_uuid (u : Uuid) : stripped u.str = u.str := by
  have hplain : ('-' :: Uuid.hexDigits).all (fun c => !isWhitespace c) = true := by decide
  exact Text.trim_eq_self fun c hc => by simpa using List.all_eq_true.1 hplain c (Uuid.mem_str hc)

namespace StageRunRequest

theorem text_uuid (u : Uuid) : text Uuid.parse? (.str u.str) = some u := by
  show Uuid.parse? (stripped u.str) = some u
  rw [stripped_uuid, Uuid.parse_str]

theorem text_stage (stage : PipelineStage) :
    text PipelineStage.ofValue? (.str stage.value) = some stage := by
  cases stage <;> decide

theorem text_priority (priority : JobPriority) :
    text JobPriority.ofValue? (.str priority.value) = some priority := by
  cases priority <;> decide

theorem textsOf_texts (d : List (String × String)) :
    textsOf (.dict (d.map fun e => (e.1, .str e.2))) =
      some (Dict.ofItems (d.map fun e => (stripped e.1, stripped e.2))) := by
  have hmap : (d.map fun e => (e.1, Value.str e.2)).mapM (fun e =>
      (text some e.2).map (stripped e.1, ·)) =
        some (d.map fun e => (stripped e.1, stripped e.2)) := by
    rw [List.mapM_map]
    exact mapM_some d fun e => rfl
  unfold textsOf
  dsimp only
  rw [hmap]
  rfl

end StageRunRequest

theorem length_le_utf16Length (s : String) : s.length ≤ utf16Length s := by
  have hfold : ∀ (l : List Char) (n : Nat), n + l.length ≤
      l.foldl (fun n c => n + if 0xFFFF < c.toNat then 2 else 1) n := by
    intro l
    induction l with
    | nil => exact fun n => le_rfl
    | cons c l ih =>
      intro n
      rw [List.length_cons, List.foldl_cons]
      refine le_trans ?_ (ih _)
      split <;> omega
  have h := hfold s.toList 0
  rwa [Nat.zero_add, String.length_toList] at h

def arrivedTrace (m : Message) : List (String × String) :=
  Dict.ofItems ((m.trace.filter (·.1 ≠ "__proto__")).map fun e => (stripped e.1, stripped e.2))

def arrivedOptions (m : Message) : ValueDict :=
  Dict.ofItems (((Node.dict m.options).filter (·.1 ≠ "__proto__")).map fun e => (stripped e.1, e.2))

def arrived (m : Message) (attemptsMade : Nat) : StageRunRequest where
  jobId := m.jobId
  contractId := m.contractId
  projectId := m.projectId
  stage := m.stage
  attempt := attemptsMade + 1
  priority := m.priority
  trace := arrivedTrace m
  continuePipeline := m.continuePipeline
  options := arrivedOptions m
  dispatchId := some (stripped m.dispatchId)

theorem validate_body {m : Message} {attemptsMade : Nat} (hid : FitsId m.dispatchId)
    (hmade : attemptsMade < 100) :
    StageRunRequest.validate (workerBody (jobData (schemaData m)) attemptsMade) =
      some (arrived m attemptsMade) := by
  have hbody : workerBody (jobData (schemaData m)) attemptsMade =
      [("job_id", .str m.jobId.str), ("contract_id", .str m.contractId.str),
        ("project_id", .str m.projectId.str), ("stage", .str m.stage.value),
        ("attempt", .int (attemptsMade + 1)), ("priority", .str m.priority.value),
        ("trace", .dict ((m.trace.filter (·.1 ≠ "__proto__")).map fun e => (e.1, .str e.2))),
        ("continue_pipeline", .bool m.continuePipeline),
        ("options", .dict ((Node.dict m.options).filter (·.1 ≠ "__proto__"))),
        ("dispatch_id", .str m.dispatchId)] := by
    simp [workerBody, jobData, schemaData, Dict.assign]
  have hattempt : StageRunRequest.attemptOf (.int (attemptsMade + 1)) = some (attemptsMade + 1) := by
    unfold StageRunRequest.attemptOf
    dsimp only
    rw [if_pos (by omega)]
    rfl
  have hlength : (stripped m.dispatchId).length ≤ 64 :=
    (Text.length_trim_le _ _).trans ((length_le_utf16Length _).trans hid.2)
  have hdispatch : StageRunRequest.dispatchIdOf (.str m.dispatchId) =
      some (some (stripped m.dispatchId)) := by
    simp [StageRunRequest.dispatchIdOf, StageRunRequest.text, hlength]
  rw [hbody]
  unfold StageRunRequest.validate
  rw [if_pos (by simp [StageRunRequest.fieldNames])]
  simp only [StageRunRequest.field, List.lookup_cons]
  simp [StageRunRequest.text_uuid, StageRunRequest.text_stage, StageRunRequest.text_priority,
    StageRunRequest.textsOf_texts, StageRunRequest.boolOf, StageRunRequest.dictOf, hattempt,
    hdispatch, arrived, arrivedTrace, arrivedOptions]

/-- What reaches the stage endpoint: nothing when the dispatch id is refused, else the message with
the texts and numbers as they arrive. -/
theorem received_eq {m : Message} {attemptsMade : Nat} (hattempt : 1 ≤ m.attempt ∧ m.attempt ≤ 100)
    (hmade : attemptsMade < 100) :
    received m attemptsMade = if FitsId m.dispatchId then some (arrived m attemptsMade) else none := by
  unfold received
  rw [enqueueSchema_payload hattempt]
  by_cases hid : FitsId m.dispatchId
  · rw [if_pos hid, if_pos hid, Option.bind_some, validate_body hid hmade]
  · rw [if_neg hid, if_neg hid]
    rfl

/-! ## Survival -/

/-- The text has no outer white space. -/
def Bare (s : String) : Prop := stripped s = s

def Kept (v : Value) : Prop := ∀ x ∈ v.numbers, (Node.value x).eq x = true

structure Message.Plain (m : Message) : Prop where
  trace : ∀ e ∈ m.trace, e.1 ≠ "__proto__" ∧ Bare e.1 ∧ Bare e.2
  options : ∀ e ∈ m.options, e.1 ≠ "__proto__" ∧ Bare e.1 ∧ Kept e.2
  dispatchId : FitsId m.dispatchId ∧ Bare m.dispatchId

structure StageRunRequest.Carries (r : StageRunRequest) (m : Message) : Prop where
  jobId : r.jobId = m.jobId
  contractId : r.contractId = m.contractId
  projectId : r.projectId = m.projectId
  stage : r.stage = m.stage
  priority : r.priority = m.priority
  trace : r.trace = m.trace
  continuePipeline : r.continuePipeline = m.continuePipeline
  options : Value.eqDict r.options m.options = true
  dispatchId : r.dispatchId = some m.dispatchId

mutual

theorem eq_value_iff (v : Value) : (Node.value v).eq v = true ↔ Kept v := by
  cases v with
  | null => simp [Kept, Value.numbers, Node.value, Value.eq]
  | bool b => simp [Kept, Value.numbers, Node.value, Value.eq, Value.num?]
  | int n => simp [Kept, Value.numbers]
  | float x => simp [Kept, Value.numbers]
  | str s => simp [Kept, Value.numbers, Node.value, Value.eq]
  | list l =>
    rw [Node.value, Value.eq, eq_list_iff l]
    exact Iff.rfl
  | dict d =>
    rw [Node.value, Value.eq, eq_dict_iff d]
    exact Iff.rfl

theorem eq_list_iff (l : List Value) : Value.eqList (Node.list l) l = true ↔
    ∀ x ∈ Value.numbersList l, (Node.value x).eq x = true := by
  cases l with
  | nil => simp [Node.list, Value.eqList, Value.numbersList]
  | cons v l =>
    rw [Node.list, Value.eqList, Bool.and_eq_true, eq_value_iff v, eq_list_iff l, Kept,
      Value.numbersList, List.forall_mem_append]

theorem eq_dict_iff (d : ValueDict) : Value.eqDict (Node.dict d) d = true ↔
    ∀ x ∈ Value.numbersDict d, (Node.value x).eq x = true := by
  cases d with
  | nil => simp [Node.dict, Value.eqDict, Value.numbersDict]
  | cons e d =>
    obtain ⟨k, v⟩ := e
    rw [Node.dict, Value.eqDict, Bool.and_eq_true, Bool.and_eq_true, eq_value_iff v, eq_dict_iff d,
      Kept, Value.numbersDict, List.forall_mem_append]
    simp

end

theorem mem_numbersDict {d : ValueDict} {x : Value} :
    x ∈ Value.numbersDict d ↔ ∃ e ∈ d, x ∈ e.2.numbers := by
  induction d with
  | nil => simp [Value.numbersDict]
  | cons e d ih => simp [Value.numbersDict, ih]

theorem keys_of_eqDict {d e : ValueDict} (h : Value.eqDict d e = true) :
    d.map (·.1) = e.map (·.1) := by
  induction d generalizing e with
  | nil =>
    cases e with
    | nil => rfl
    | cons => simp [Value.eqDict] at h
  | cons a d ih =>
    cases e with
    | nil => simp [Value.eqDict] at h
    | cons b e =>
      rw [Value.eqDict, Bool.and_eq_true, Bool.and_eq_true, decide_eq_true_eq] at h
      rw [List.map_cons, List.map_cons, h.1.1, ih h.2]

/-- A dict that is copied without `__proto__` and with other keys has all its keys only if they stay
as they are. -/
theorem bare_of_keys {β γ : Type} {d : List (String × β)} (f : String × β → String × γ)
    (hf : ∀ e, (f e).1 = stripped e.1)
    (h : (Dict.ofItems ((d.filter (·.1 ≠ "__proto__")).map f)).map (·.1) = d.map (·.1)) :
    ∀ e ∈ d, e.1 ≠ "__proto__" ∧ Bare e.1 := by
  have hlength : d.length ≤ (d.filter (·.1 ≠ "__proto__")).length := by
    have hkeys := congrArg List.length h
    rw [List.length_map, List.length_map] at hkeys
    have hle := Dict.length_ofItems_le ((d.filter (·.1 ≠ "__proto__")).map f)
    rw [List.length_map] at hle
    omega
  have hall : d.filter (·.1 ≠ "__proto__") = d :=
    List.filter_sublist.eq_of_length_le hlength
  intro e he
  refine ⟨by simpa using List.filter_eq_self.1 hall e he, ?_⟩
  have hkey : e.1 ∈ (Dict.ofItems ((d.filter (·.1 ≠ "__proto__")).map f)).map (·.1) := by
    rw [h]
    exact List.mem_map_of_mem he
  obtain ⟨e', he', heq⟩ := List.mem_map.1 hkey
  obtain ⟨e'', -, rfl⟩ := List.mem_map.1 (Dict.mem_ofItems he')
  unfold Bare
  rw [← heq, hf]
  exact Text.trim_trim _ _

theorem arrives {β γ : Type} {d : List (String × β)} (f : String × β → String × γ)
    (hf : ∀ e ∈ d, (f e).1 = e.1) (hproto : ∀ e ∈ d, e.1 ≠ "__proto__")
    (hkeys : (d.map (·.1)).Nodup) :
    Dict.ofItems ((d.filter (·.1 ≠ "__proto__")).map f) = d.map f := by
  rw [List.filter_eq_self.2 fun e he => by simpa using hproto e he]
  refine Dict.ofItems_of_nodup ?_
  have hsame : (d.map f).map (·.1) = d.map (·.1) := by
    rw [List.map_map]
    exact List.map_congr_left hf
  rw [hsame]
  exact hkeys

theorem arrivedTrace_iff (m : Message) : arrivedTrace m = m.trace ↔
    ∀ e ∈ m.trace, e.1 ≠ "__proto__" ∧ Bare e.1 ∧ Bare e.2 := by
  constructor
  · intro h e he
    obtain ⟨hproto, hkey⟩ := bare_of_keys (fun e => (stripped e.1, stripped e.2)) (fun _ => rfl)
      (congrArg (List.map (·.1)) h) e he
    refine ⟨hproto, hkey, ?_⟩
    rw [← h] at he
    obtain ⟨e', -, rfl⟩ := List.mem_map.1 (Dict.mem_ofItems he)
    exact Text.trim_trim _ _
  · intro h
    have hentries := arrives (fun e : String × String => (stripped e.1, stripped e.2))
      (fun e he => (h e he).2.1) (fun e he => (h e he).1) m.traceKeys
    unfold arrivedTrace
    rw [hentries]
    refine (List.map_congr_left fun e he => ?_).trans (List.map_id _)
    exact Prod.ext (h e he).2.1 (h e he).2.2

theorem arrivedOptions_iff (m : Message) : Value.eqDict (arrivedOptions m) m.options = true ↔
    ∀ e ∈ m.options, e.1 ≠ "__proto__" ∧ Bare e.1 ∧ Kept e.2 := by
  have hoptions : arrivedOptions m = Dict.ofItems ((m.options.filter (·.1 ≠ "__proto__")).map
      fun e => (stripped e.1, Node.value e.2)) := by
    unfold arrivedOptions
    rw [Node.dict_eq, List.filter_map, List.map_map]
    rfl
  -- Options whose keys stay as they are keep their values exactly when Node keeps their numbers.
  have hvalues : (∀ e ∈ m.options, e.1 ≠ "__proto__" ∧ Bare e.1) →
      (Value.eqDict (arrivedOptions m) m.options = true ↔ ∀ e ∈ m.options, Kept e.2) := by
    intro hkeys
    have hentries := arrives (fun e : String × Value => (stripped e.1, Node.value e.2))
      (fun e he => (hkeys e he).2) (fun e he => (hkeys e he).1) m.optionKeys
    have hdict : (m.options.map fun e => (stripped e.1, Node.value e.2)) = Node.dict m.options := by
      rw [Node.dict_eq]
      exact List.map_congr_left fun e he => Prod.ext (hkeys e he).2 rfl
    rw [hoptions, hentries, hdict, eq_dict_iff]
    constructor
    · exact fun h e he x hx => h x (mem_numbersDict.2 ⟨e, he, hx⟩)
    · intro h x hx
      obtain ⟨e, he, hx⟩ := mem_numbersDict.1 hx
      exact h e he x hx
  constructor
  · intro h
    have hkeys := bare_of_keys (fun e => (stripped e.1, Node.value e.2)) (fun _ => rfl)
      (hoptions ▸ keys_of_eqDict h)
    intro e he
    exact ⟨(hkeys e he).1, (hkeys e he).2, (hvalues hkeys).1 h e he⟩
  · intro h
    exact (hvalues fun e he => ⟨(h e he).1, (h e he).2.1⟩).2 fun e he => (h e he).2.2

def withOption (key : String) (v : Value) : Message where
  jobId := 10
  contractId := 1
  projectId := 2
  stage := .extraction
  attempt := 1
  priority := .normal
  trace := [("traceparent", "00-4bf92f3577b34da6a3ce929d0e0e4736-00f067aa0ba902b7-01")]
  traceKeys := by simp
  continuePipeline := true
  options := [(key, v)]
  optionKeys := by simp
  dispatchId := "0f1e2d3c4b5a"

end Wire

end Clear

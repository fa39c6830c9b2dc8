import Clear.Ai.Embedding.Engine
import Clear.Lib.Dict
import Clear.Lib.Except

/-!
# Items and their vectors

With a provider that answers one vector for each text, in order, every item of a level that is not
blank becomes one row, and the row has the vector of its own text (`embedLevel_paired`), in
whichever order the batches complete (`reassemble_answers`).
-/

namespace Clear

namespace Embedder

variable {ν : Type} {e : Embedder ν} {contractId projectId : Uuid} {profileVersion : Option String}
  {stored : Stored ν} {level : EmbeddingLevel} {items : List EmbeddingItem}

def Answering (e : Embedder ν) : Prop :=
  ∀ texts, ∃ result, e.embedMany texts = .ok result ∧ result.vectors.length = texts.length ∧
    ∀ vector ∈ result.vectors, vector ≠ []

def reply (e : Embedder ν) (texts : List String) : EmbeddingResult ν :=
  (e.embedMany texts).toOption.getD ⟨[], ""⟩

theorem Answering.reply (h : Answering e) (texts : List String) :
    e.embedMany texts = .ok (e.reply texts) ∧ (e.reply texts).vectors.length = texts.length ∧
      ∀ vector ∈ (e.reply texts).vectors, vector ≠ [] := by
  obtain ⟨result, hok, hlen, hne⟩ := h texts
  have heq : e.reply texts = result := by
    unfold Embedder.reply
    rw [hok]
    rfl
  rw [heq]
  exact ⟨hok, hlen, hne⟩

/-! ## Batches -/

theorem flatten_batches {size : Nat} (hsize : 0 < size) (fuel : Nat) (payloads : List String)
    (h : payloads.length ≤ fuel) :
    (batches size fuel payloads).flatten = payloads ∧
      ∀ texts ∈ batches size fuel payloads, texts ≠ [] := by
  induction fuel generalizing payloads with
  | zero =>
    rw [List.length_eq_zero_iff.1 (Nat.le_zero.1 h)]
    exact ⟨rfl, by simp [batches]⟩
  | succ fuel ih =>
    cases payloads with
    | nil => exact ⟨rfl, by simp [batches]⟩
    | cons text rest =>
      obtain ⟨hflat, hne⟩ := ih ((text :: rest).drop size) (by
        rw [List.length_drop]
        omega)
      rw [batches]
      · refine ⟨?_, fun texts htexts => ?_⟩
        · rw [List.flatten_cons, hflat, List.take_append_drop]
        · rcases List.mem_cons.1 htexts with rfl | htexts
          · refine List.ne_nil_of_length_pos ?_
            rw [List.length_take, List.length_cons]
            omega
          · exact hne texts htexts
      · simp

theorem fill_eq (vectors new : List (List ν)) (start : Nat)
    (h : start + new.length ≤ vectors.length) :
    fill vectors start new =
      .ok (vectors.take start ++ new ++ vectors.drop (start + new.length)) := by
  induction new generalizing vectors start with
  | nil => simp [fill]
  | cons w new ih =>
    rw [List.length_cons] at h
    rw [fill, if_pos (by omega), ih _ _ (by rw [List.length_set]; omega)]
    have htake : (vectors.set start w).take (start + 1) = vectors.take start ++ [w] := by
      rw [List.take_add_one, List.take_set_of_le (Nat.le_refl _),
        List.getElem?_set_self (by omega)]
      rfl
    have hdrop : (vectors.set start w).drop (start + 1 + new.length) =
        vectors.drop (start + (new.length + 1)) := by
      rw [List.drop_set_of_lt (by omega)]
      congr 1
      omega
    rw [htake, hdrop, List.length_cons, List.append_assoc (vectors.take start)]
    rfl

theorem generate_eq (h : Answering e) {batches : List (List String)} (vectors : List (List ν))
    (start : Nat) (model : Option String) (hlen : vectors.length = start + batches.flatten.length) :
    ∃ model', e.generate vectors start model batches =
      .ok (vectors.take start ++ batches.flatMap fun texts => (e.reply texts).vectors, model') := by
  induction batches generalizing vectors start model with
  | nil =>
    rw [List.flatten_nil, List.length_nil, Nat.add_zero] at hlen
    exact ⟨model, by rw [generate, List.flatMap_nil, List.append_nil, ← hlen, List.take_length]⟩
  | cons texts rest ih =>
    obtain ⟨hok, hcount, -⟩ := h.reply texts
    rw [List.flatten_cons, List.length_append] at hlen
    have hfill := fill_eq vectors (e.reply texts).vectors start (by omega)
    obtain ⟨model', hrest⟩ := ih (vectors.take start ++ (e.reply texts).vectors ++
      vectors.drop (start + (e.reply texts).vectors.length)) (start + texts.length)
      (some (e.reply texts).model) (by
        simp only [List.length_append, List.length_take, List.length_drop]
        omega)
    refine ⟨model', ?_⟩
    rw [generate]
    refine Except.bind_eq_ok.2 ⟨_, hok, Except.bind_eq_ok.2 ⟨_, hfill, ?_⟩⟩
    rw [hrest, List.flatMap_cons]
    have htake : (vectors.take start ++ (e.reply texts).vectors ++
        vectors.drop (start + (e.reply texts).vectors.length)).take (start + texts.length) =
          vectors.take start ++ (e.reply texts).vectors := by
      rw [List.take_append_of_le_length, List.take_of_length_le]
      all_goals
        simp only [List.length_append, List.length_take]
        omega
    rw [htake, List.append_assoc]

/-! ## Completion -/

theorem answers_eq (h : Answering e) (order : List (Nat × List String)) :
    e.answers order = .ok (order.map fun call => (call.1, e.reply call.2)) := by
  unfold answers
  induction order with
  | nil => rfl
  | cons call order ih =>
    rw [List.mapM_cons, (h.reply call.2).1]
    exact Except.bind_eq_ok.2 ⟨_, rfl, Except.bind_eq_ok.2 ⟨_, ih, rfl⟩⟩

theorem calls_lt (start : Nat) {batches : List (List String)} (h : ∀ texts ∈ batches, texts ≠ []) :
    (∀ call ∈ calls start batches, start ≤ call.1) ∧
      (calls start batches).Pairwise (·.1 < ·.1) := by
  induction batches generalizing start with
  | nil => exact ⟨by simp [calls], .nil⟩
  | cons texts rest ih =>
    obtain ⟨hge, hlt⟩ := ih (start + texts.length) fun t ht => h t (List.mem_cons_of_mem texts ht)
    have hpos := List.length_pos_of_ne_nil (h texts List.mem_cons_self)
    rw [calls]
    refine ⟨fun call hcall => ?_, List.pairwise_cons.2 ⟨fun call hcall => ?_, hlt⟩⟩
    · rcases List.mem_cons.1 hcall with rfl | hcall
      · exact Nat.le_refl _
      · have hle := hge call hcall
        omega
    · have hle := hge call hcall
      show start < call.1
      omega

theorem foldlM_place (h : Answering e) {batches : List (List String)} (vectors : List (List ν))
    (start : Nat) (model : Option String) :
    ((calls start batches).map fun call => (call.1, e.reply call.2)).foldlM place (vectors, model) =
      e.generate vectors start model batches := by
  induction batches generalizing vectors start model with
  | nil => rfl
  | cons texts rest ih =>
    rw [calls, List.map_cons, List.foldlM_cons, generate, (h.reply texts).1]
    show (do let held ← place (vectors, model) (start, e.reply texts); _) =
      (do let vectors ← fill vectors start (e.reply texts).vectors; _)
    unfold place
    dsimp only
    cases hfill : fill vectors start (e.reply texts).vectors with
    | error raised => rfl
    | ok filled => exact ih filled (start + texts.length) (some (e.reply texts).model)

theorem reassemble_answers (h : Answering e) {batches : List (List String)}
    (hne : ∀ texts ∈ batches, texts ≠ []) {order : List (Nat × List String)}
    (horder : order.Perm (calls 0 batches)) (vectors : List (List ν)) :
    ∃ results, e.answers order = .ok results ∧
      reassemble vectors results = e.generate vectors 0 none batches := by
  refine ⟨_, answers_eq h order, ?_⟩
  have hlt := (calls_lt 0 hne).2
  have hkeys : ((calls 0 batches).map (·.1)).Nodup :=
    List.pairwise_map.2 (hlt.imp fun hlt => Nat.ne_of_lt hlt)
  have hsorted : (order.map fun call => (call.1, e.reply call.2)).insertionSort
      (fun a b => a.1 ≤ b.1) = (calls 0 batches).map fun call => (call.1, e.reply call.2) := by
    refine List.Perm.eq_of_pairwise ?_ (List.pairwise_insertionSort _ _) ?_
      ((List.perm_insertionSort _ _).trans (horder.map _))
    · intro a b ha hb hab hba
      have ha' := (horder.map _).mem_iff.1 ((List.mem_insertionSort _).1 ha)
      obtain ⟨call, hcall, rfl⟩ := List.mem_map.1 ha'
      obtain ⟨call', hcall', rfl⟩ := List.mem_map.1 hb
      have heq : call = call' :=
        List.inj_on_of_nodup_map hkeys hcall hcall' (Nat.le_antisymm hab hba)
      rw [heq]
    · exact List.pairwise_map.2 (hlt.imp Nat.le_of_lt)
  unfold reassemble
  rw [hsorted]
  exact foldlM_place h vectors 0 none

/-! ## Pairing -/

def unique (e : Embedder ν) (items : List EmbeddingItem) : List EmbeddingItem :=
  Sql.distinctOn (fun item : EmbeddingItem => e.contentHash item.text) items

def sent (e : Embedder ν) (items : List EmbeddingItem) : List (List String) :=
  batches (max 1 e.settings.batchSize) ((e.unique items).map payload).length
    ((e.unique items).map payload)

/-- The vector was answered for the text of the first item with the hash of this one: the two stand
at one place of a batch and of its answer. -/
def Answers (e : Embedder ν) (items : List EmbeddingItem) (item : EmbeddingItem)
    (vector : List ν) : Prop :=
  ∃ (first : EmbeddingItem) (texts : List String) (result : EmbeddingResult ν) (k : Nat),
    items.find? (fun other => e.contentHash other.text = e.contentHash item.text) = some first ∧
      texts ∈ e.sent items ∧ e.embedMany texts = .ok result ∧
      texts[k]? = some (payload first) ∧ result.vectors[k]? = some vector

theorem exists_block {α β : Type} {f : List α → List β} {blocks : List (List α)}
    (hlen : ∀ block ∈ blocks, (f block).length = block.length) {i : Nat} {a : α} {b : β}
    (ha : blocks.flatten[i]? = some a) (hb : (blocks.flatMap f)[i]? = some b) :
    ∃ block ∈ blocks, ∃ k : Nat, block[k]? = some a ∧ (f block)[k]? = some b := by
  induction blocks generalizing i with
  | nil => cases ha
  | cons block blocks ih =>
    have hblock := hlen block List.mem_cons_self
    rw [List.flatten_cons] at ha
    rw [List.flatMap_cons] at hb
    by_cases hi : i < block.length
    · rw [List.getElem?_append_left hi] at ha
      rw [List.getElem?_append_left (by omega)] at hb
      exact ⟨block, List.mem_cons_self, i, ha, hb⟩
    · rw [List.getElem?_append_right (by omega)] at ha
      rw [List.getElem?_append_right (by omega), hblock] at hb
      obtain ⟨block', hin, hplace⟩ := ih (fun c hc => hlen c (List.mem_cons_of_mem block hc)) ha hb
      exact ⟨block', List.mem_cons_of_mem block hin, hplace⟩

theorem embedItems_eq (h : Answering e) (items : List EmbeddingItem) :
    ∃ model, e.embedItems items = .ok
      (((e.unique items).map fun item => e.contentHash item.text).zip
        ((e.sent items).flatMap fun texts => (e.reply texts).vectors), model) := by
  obtain ⟨hflat, -⟩ := flatten_batches (Nat.le_max_left 1 e.settings.batchSize) _
    ((e.unique items).map payload) (Nat.le_refl _)
  have hcount : (((e.unique items).map payload).map fun _ => ([] : List ν)).length =
      0 + (e.sent items).flatten.length := by
    unfold sent
    rw [hflat, List.length_map, Nat.zero_add]
  obtain ⟨model, hgenerate⟩ := generate_eq h _ 0 none hcount
  rw [List.take_zero, List.nil_append] at hgenerate
  exact ⟨model, Except.bind_eq_ok.2 ⟨_, hgenerate, rfl⟩⟩

theorem lookup_embedItems (h : Answering e) {item : EmbeddingItem} (hitem : item ∈ items) :
    ∃ vector, (((e.unique items).map fun item => e.contentHash item.text).zip
        ((e.sent items).flatMap fun texts => (e.reply texts).vectors)).lookup
          (e.contentHash item.text) = some vector ∧ vector ≠ [] ∧ e.Answers items item vector := by
  obtain ⟨hflat, -⟩ := flatten_batches (Nat.le_max_left 1 e.settings.batchSize) _
    ((e.unique items).map payload) (Nat.le_refl _)
  obtain ⟨hnodup, hkeys⟩ :=
    Sql.map_distinctOn (fun item : EmbeddingItem => e.contentHash item.text) items
  have hcounts : ∀ texts ∈ e.sent items, (e.reply texts).vectors.length = texts.length :=
    fun texts _ => (h.reply texts).2.1
  have hlength : ((e.sent items).flatMap fun texts => (e.reply texts).vectors).length =
      (e.unique items).length := by
    have hsum : ∀ blocks : List (List String),
        (∀ texts ∈ blocks, (e.reply texts).vectors.length = texts.length) →
          (blocks.flatMap fun texts => (e.reply texts).vectors).length =
            blocks.flatten.length := by
      intro blocks hall
      induction blocks with
      | nil => rfl
      | cons texts blocks ih =>
        rw [List.flatMap_cons, List.flatten_cons, List.length_append, List.length_append,
          hall texts List.mem_cons_self, ih fun t ht => hall t (List.mem_cons_of_mem texts ht)]
    rw [hsum _ hcounts]
    unfold sent
    rw [hflat, List.length_map]
  obtain ⟨first, hfirst, hhash⟩ := List.mem_map.1 ((hkeys _).2 (List.mem_map_of_mem hitem))
  obtain ⟨i, hi⟩ := List.getElem?_of_mem hfirst
  have hlt : i < (e.unique items).length := (List.getElem?_eq_some_iff.1 hi).1
  obtain ⟨vector, hvector⟩ : ∃ vector,
      ((e.sent items).flatMap fun texts => (e.reply texts).vectors)[i]? = some vector :=
    ⟨_, List.getElem?_eq_getElem (by omega)⟩
  have hpayload : (e.sent items).flatten[i]? = some (payload first) := by
    unfold sent
    rw [hflat, List.getElem?_map]
    exact congrArg (Option.map payload) hi
  obtain ⟨texts, htexts, k, htext, hplace⟩ := exists_block hcounts hpayload hvector
  refine ⟨vector, ?_, (h.reply texts).2.2 vector (List.mem_of_getElem? hplace), first, texts,
    e.reply texts, k, ?_, htexts, (h.reply texts).1, htext, hplace⟩
  · refine (Dict.lookup_eq_some_iff ?_).2 ?_
    · rw [List.map_fst_zip (by rw [List.length_map]; omega)]
      exact hnodup
    · refine List.mem_of_getElem? (i := i) ?_
      rw [List.getElem?_zip_eq_some]
      refine ⟨?_, hvector⟩
      rw [List.getElem?_map, show (e.unique items)[i]? = some first from hi]
      exact congrArg some hhash
  · rw [← Sql.distinctOn_find (fun item : EmbeddingItem => e.contentHash item.text)]
    have hfound : (e.unique items).find? (fun other =>
        e.contentHash other.text = e.contentHash item.text) = some first := by
      cases hfind : (e.unique items).find? fun other =>
          e.contentHash other.text = e.contentHash item.text with
      | none => simpa [hhash] using List.find?_eq_none.1 hfind first hfirst
      | some other =>
        have hother : e.contentHash other.text = e.contentHash item.text := by
          simpa using List.find?_some hfind
        exact congrArg some (List.inj_on_of_nodup_map hnodup (List.mem_of_find?_eq_some hfind)
          hfirst (hother.trans hhash.symm))
    exact hfound

/-! ## Levels -/

theorem forall₂_reused (e : Embedder ν) (contractId projectId : Uuid)
    (profileVersion : Option String) (stored : Stored ν) (level : EmbeddingLevel)
    (items : List EmbeddingItem) :
    List.Forall₂ (fun item row => ∃ id vector, e.reuse stored level item = some (id, vector) ∧
        row = e.row contractId projectId profileVersion item vector
          (e.settings.provider.model e.settings))
      ((embeddable items).filter fun item => (e.reuse stored level item).isSome)
      ((e.reusedItems stored level items).map fun reused =>
        e.row contractId projectId profileVersion reused.1 reused.2.2
          (e.settings.provider.model e.settings)) := by
  unfold reusedItems
  induction embeddable items with
  | nil => exact .nil
  | cons item rest ih =>
    cases hreuse : e.reuse stored level item with
    | none =>
      rw [List.filter_cons_of_neg (by simp [hreuse]), List.filterMap_cons, hreuse]
      exact ih
    | some found =>
      rw [List.filter_cons_of_pos (by simp [hreuse]), List.filterMap_cons, hreuse]
      exact .cons ⟨found.1, found.2, hreuse, rfl⟩ ih

theorem length_split (e : Embedder ν) (stored : Stored ν) (level : EmbeddingLevel)
    (items : List EmbeddingItem) :
    (e.reusedItems stored level items).length + (e.toGenerate stored level items).length =
      (embeddable items).length := by
  unfold reusedItems toGenerate
  induction embeddable items with
  | nil => rfl
  | cons item rest ih =>
    cases hreuse : e.reuse stored level item with
    | none =>
      rw [List.filter_cons_of_pos (by simp [hreuse]), List.filterMap_cons, hreuse]
      simp only [Option.map_none, List.length_cons]
      omega
    | some found =>
      rw [List.filter_cons_of_neg (by simp [hreuse]), List.filterMap_cons, hreuse]
      simp only [Option.map_some, List.length_cons]
      omega

theorem forall₂_generated (h : Answering e) (contractId projectId : Uuid)
    (profileVersion : Option String) (items : List EmbeddingItem) (model : Option String) :
    List.Forall₂ (fun item row => ∃ vector, e.Answers items item vector ∧
        row = e.row contractId projectId profileVersion item vector (e.stampedModel model)) items
      (e.generatedRows contractId projectId profileVersion items
        (((e.unique items).map fun item => e.contentHash item.text).zip
          ((e.sent items).flatMap fun texts => (e.reply texts).vectors)) model) := by
  have hall : ∀ todo : List EmbeddingItem, (∀ item ∈ todo, item ∈ items) →
      List.Forall₂ (fun item row => ∃ vector, e.Answers items item vector ∧
          row = e.row contractId projectId profileVersion item vector (e.stampedModel model)) todo
        (e.generatedRows contractId projectId profileVersion todo
          (((e.unique items).map fun item => e.contentHash item.text).zip
            ((e.sent items).flatMap fun texts => (e.reply texts).vectors)) model) := by
    intro todo
    induction todo with
    | nil => exact fun _ => .nil
    | cons item rest ih =>
      intro htodo
      obtain ⟨vector, hlookup, hne, hanswers⟩ := lookup_embedItems h (htodo item List.mem_cons_self)
      obtain ⟨x, xs, rfl⟩ := List.exists_cons_of_ne_nil hne
      unfold generatedRows
      rw [List.filterMap_cons, hlookup]
      exact .cons ⟨_, hanswers, rfl⟩ (ih fun item' hitem' =>
        htodo item' (List.mem_cons_of_mem item hitem'))
  exact hall items fun _ hitem => hitem

/-- With a provider that answers one vector for each text, every item of a level that is not blank
becomes one row: first the items whose vector is reused, then the others, each in their order. A
reused vector is the one stored for the hash, and any other was answered for the text of the first
item with the hash; in whichever order the batches complete, their answers are put back in place.
Every item is accounted for. -/
theorem embedLevel_paired (contractId projectId : Uuid) (profileVersion : Option String)
    (stored : Stored ν) (level : EmbeddingLevel) (items : List EmbeddingItem)
    (h : Answering e) :
    ∃ outcome reused generated,
      e.embedLevel contractId projectId profileVersion stored level items =
        (outcome, .ok (reused ++ generated)) ∧
      List.Forall₂ (fun item row => ∃ id vector model,
          e.reuse stored level item = some (id, vector) ∧
            row = e.row contractId projectId profileVersion item vector model)
        ((embeddable items).filter fun item => (e.reuse stored level item).isSome) reused ∧
      List.Forall₂ (fun item row => ∃ vector model,
          e.Answers (e.toGenerate stored level items) item vector ∧
            row = e.row contractId projectId profileVersion item vector model)
        ((embeddable items).filter fun item => (e.reuse stored level item).isNone) generated ∧
      outcome.requested = outcome.reused + outcome.generated + outcome.skippedEmpty ∧
      ∀ order : List (Nat × List String),
        order.Perm (calls 0 (e.sent (e.toGenerate stored level items))) →
          ∀ vectors, ∃ results, e.answers order = .ok results ∧
            reassemble vectors results =
              e.generate vectors 0 none (e.sent (e.toGenerate stored level items)) := by
  have hcompletion : ∀ order : List (Nat × List String),
      order.Perm (calls 0 (e.sent (e.toGenerate stored level items))) →
        ∀ vectors, ∃ results, e.answers order = .ok results ∧
          reassemble vectors results =
            e.generate vectors 0 none (e.sent (e.toGenerate stored level items)) :=
    fun order horder vectors => reassemble_answers h
      (flatten_batches (Nat.le_max_left 1 e.settings.batchSize) _ _ (Nat.le_refl _)).2 horder
        vectors
  have hreused := forall₂_reused e contractId projectId profileVersion stored level items
  have hsplit := length_split e stored level items
  have hle : (embeddable items).length ≤ items.length := List.length_filter_le _ _
  unfold embedLevel
  dsimp only
  by_cases hpending : e.toGenerate stored level items = []
  · rw [if_pos (by rw [hpending]; rfl)]
    refine ⟨_, _, [], by rw [List.append_nil], ?_, ?_, ?_, hcompletion⟩
    · exact hreused.imp fun item row ⟨id, vector, hfound, hrow⟩ => ⟨id, vector, _, hfound, hrow⟩
    · show List.Forall₂ _ (e.toGenerate stored level items) []
      rw [hpending]
      exact .nil
    · show items.length = (e.reusedItems stored level items).length + 0 +
        (items.length - (embeddable items).length)
      rw [hpending, List.length_nil] at hsplit
      omega
  · obtain ⟨model, hembed⟩ := embedItems_eq h (e.toGenerate stored level items)
    have hgenerated := forall₂_generated h contractId projectId profileVersion
      (e.toGenerate stored level items) model
    rw [if_neg (by simpa using hpending), hembed]
    refine ⟨_, _, _, rfl, ?_, ?_, ?_, hcompletion⟩
    · exact hreused.imp fun item row ⟨id, vector, hfound, hrow⟩ => ⟨id, vector, _, hfound, hrow⟩
    · exact hgenerated.imp fun item row ⟨vector, hanswers, hrow⟩ => ⟨vector, _, hanswers, hrow⟩
    · have hcount := hgenerated.length_eq
      show items.length = (e.reusedItems stored level items).length + _ +
        (items.length - (embeddable items).length)
      dsimp only
      omega

namespace Sample

/-- A provider that answers each text with its first character. -/
def initials : Embedder Char where
  settings := { dim := 1 }
  sha256 := id
  embedMany texts := .ok { vectors := texts.map fun text => [text.toList.headD ' '], model := "m" }
  newId item := item.refId

def fees : Stored Char where
  existing := [(.chunk, [("Fees", 7)])]
  vectors := [(7, ['F'])]

/-- A new text, a blank one, a stored one, and the new one again. -/
def mixed : List EmbeddingItem :=
  [{ refId := 1, level := .chunk, text := "Term" },
    { refId := 2, level := .chunk, text := " " },
    { refId := 3, level := .chunk, text := "Fees" },
    { refId := 4, level := .chunk, text := "Term" }]

end Sample

theorem embedLevel_paired_initials :
    ∃ outcome reused generated,
      Sample.initials.embedLevel 5 6 none Sample.fees .chunk Sample.mixed =
        (outcome, .ok (reused ++ generated)) ∧
      outcome.requested = outcome.reused + outcome.generated + outcome.skippedEmpty := by
  have hanswering : Answering Sample.initials := by
    intro texts
    refine ⟨_, rfl, List.length_map _, fun vector hvector => ?_⟩
    obtain ⟨text, -, rfl⟩ := List.mem_map.1 hvector
    simp
  obtain ⟨outcome, reused, generated, hlevel, -, -, hcount, -⟩ :=
    embedLevel_paired 5 6 none Sample.fees .chunk Sample.mixed hanswering
  exact ⟨outcome, reused, generated, hlevel, hcount⟩

/-- The row of item 3, whose vector is reused, comes before those of items 1 and 4. -/
theorem rows_reordered :
    ((Sample.initials.embedLevel 5 6 none Sample.fees .chunk Sample.mixed).2.map fun rows =>
        rows.map (·.refId)).toOption = some [3, 1, 4] ∧
      (embeddable Sample.mixed).map (·.refId) = [1, 3, 4] := by
  decide +kernel

end Embedder

end Clear

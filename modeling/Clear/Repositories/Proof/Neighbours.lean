import Clear.Repositories.Knowledge

/-!
# The two neighbour queries

`neighbours_for_many` reads one range per contract and version and hands out its rows by position.
With one row at a position, as the table's constraint has it, every chunk gets what `neighbours`
reads for it alone (`neighboursForMany_lookup`). Rows that share a position are lost.
-/

namespace Clear

namespace ChunkRow

open Sql

/-! ## The ranges -/

def Covers (window : Nat) (spans : Spans) (c : ChunkRow) : Prop :=
  ∃ low high, spans.lookup (c.contractId, c.version) = some (low, high) ∧
    low ≤ c.readingOrder - window ∧ c.readingOrder + window ≤ high

variable {window : Nat} {spans : Spans} {c d : ChunkRow}

theorem covers_addSpan (window : Nat) (spans : Spans) (c : ChunkRow) :
    Covers window (addSpan window spans c) c := by
  unfold Covers addSpan
  dsimp only
  split
  · exact ⟨_, _, Dict.lookup_assign_self _ _ _, Int.le_refl _, Int.le_refl _⟩
  · exact ⟨_, _, Dict.lookup_assign_self _ _ _, Int.min_le_right _ _, Int.le_max_right _ _⟩

theorem Covers.addSpan (h : Covers window spans c) : Covers window (addSpan window spans d) c := by
  obtain ⟨low, high, hlookup, hlow, hhigh⟩ := h
  by_cases hkey : (c.contractId, c.version) = (d.contractId, d.version)
  · unfold Covers ChunkRow.addSpan
    dsimp only
    rw [← hkey, hlookup]
    exact ⟨_, _, Dict.lookup_assign_self _ _ _, (Int.min_le_left _ _).trans hlow,
      hhigh.trans (Int.le_max_left _ _)⟩
  · refine ⟨low, high, ?_, hlow, hhigh⟩
    unfold ChunkRow.addSpan
    dsimp only
    split <;> rw [Dict.lookup_assign_ne hkey, hlookup]

theorem covers_foldl {chunks : List ChunkRow} (spans : Spans) (hc : c ∈ chunks) :
    Covers window (chunks.foldl (addSpan window) spans) c := by
  have hkeep : ∀ (chunks : List ChunkRow) (spans : Spans), Covers window spans c →
      Covers window (chunks.foldl (ChunkRow.addSpan window) spans) c := by
    intro chunks
    induction chunks with
    | nil => exact fun _ h => h
    | cons d chunks ih => exact fun _ h => ih _ h.addSpan
  induction chunks generalizing spans with
  | nil => cases hc
  | cons d chunks ih =>
    rcases List.mem_cons.1 hc with rfl | hc
    · exact hkeep chunks _ (covers_addSpan window spans c)
    · exact ih _ hc

/-! ## The rows of a window -/

structure Around (projectId : Uuid) (window : Nat) (c r : ChunkRow) : Prop where
  project : r.projectId = projectId
  contract : r.contractId = c.contractId
  version : r.version = c.version
  low : c.readingOrder - window ≤ r.readingOrder
  high : r.readingOrder ≤ c.readingOrder + window
  other : r.id ≠ c.id

variable {db db' : Engine ChunkRow} {projectId : Uuid} {r : ChunkRow}

theorem mem_neighbours {table : List ChunkRow} (hwindow : window ≠ 0) :
    r ∈ neighbours db table c projectId window ↔ r ∈ table ∧ Around projectId window c r := by
  unfold neighbours
  rw [if_neg hwindow, Engine.mem_select, List.mem_filter]
  simp only [Bool.and_eq_true, decide_eq_true_eq, and_assoc]
  refine and_congr_right fun _ => ⟨?_, ?_⟩
  · rintro ⟨h₁, h₂, h₃, h₄, h₅, h₆⟩
    exact ⟨h₁, h₂, h₃, h₄, h₅, h₆⟩
  · rintro ⟨h₁, h₂, h₃, h₄, h₅, h₆⟩
    exact ⟨h₁, h₂, h₃, h₄, h₅, h₆⟩

variable {table : ChunkTable}

theorem eq_of_id (hr : r ∈ table.rows) (hc : c ∈ table.rows) (h : r.id = c.id) : r = c :=
  List.inj_on_of_nodup_map table.ids hr hc h

theorem eq_of_position (hr : r ∈ table.rows) (hc : c ∈ table.rows)
    (h : r.position = c.position) : r = c := List.inj_on_of_nodup_map table.positions hr hc h

/-! ## One query for all chunks -/

def spanned (db : Engine ChunkRow) (table chunks : List ChunkRow) (projectId : Uuid)
    (window : Nat) : List ChunkRow :=
  db.select .unordered <| table.filter fun c =>
    c.projectId = projectId && (chunks.foldl (addSpan window) []).any fun span =>
      c.contractId = span.1.1 && c.version = span.1.2 && span.2.1 ≤ c.readingOrder &&
        c.readingOrder ≤ span.2.2

def offsets (window : Nat) : List Int :=
  ((List.range (2 * window + 1)).map fun (i : Nat) => (i : Int) - window).filter (· ≠ 0)

def handedOut (db : Engine ChunkRow) (table chunks : List ChunkRow) (projectId : Uuid)
    (window : Nat) (c : ChunkRow) : List ChunkRow :=
  (offsets window).filterMap fun offset =>
    (Dict.ofItems ((spanned db table chunks projectId window).map fun r =>
      (r.position, r))).lookup (c.contractId, c.version, c.readingOrder + offset)

theorem neighboursForMany_eq {table chunks : List ChunkRow} (hwindow : window ≠ 0)
    (hchunks : chunks ≠ []) :
    neighboursForMany db table chunks projectId window =
      Dict.ofItems (chunks.map fun c =>
        (c.id, handedOut db table chunks projectId window c)) := by
  unfold neighboursForMany
  rw [if_neg (by simp [hwindow, hchunks])]
  rfl

theorem mem_offsets {offset : Int} :
    offset ∈ offsets window ↔ -(window : Int) ≤ offset ∧ offset ≤ window ∧ offset ≠ 0 := by
  unfold offsets
  rw [List.mem_filter, List.mem_map]
  constructor
  · rintro ⟨⟨i, hi, rfl⟩, hne⟩
    have hi' := List.mem_range.1 hi
    exact ⟨by omega, by omega, of_decide_eq_true hne⟩
  · rintro ⟨hlow, hhigh, hne⟩
    refine ⟨⟨(offset + window).toNat, List.mem_range.2 (by omega), by omega⟩, decide_eq_true hne⟩

theorem pairwise_offsets (window : Nat) : (offsets window).Pairwise (· < ·) := by
  unfold offsets
  refine List.Pairwise.filter _ (List.pairwise_map.2 ?_)
  exact List.pairwise_lt_range.imp fun h => by omega

theorem spanned_positions (chunks : List ChunkRow) :
    ((spanned db table.rows chunks projectId window).map (·.position)).Nodup := by
  have hperm := ((db.answers .unordered _).perm.map ChunkRow.position :
    ((spanned db table.rows chunks projectId window).map _).Perm _)
  exact hperm.nodup_iff.2 (table.positions.sublist (List.filter_sublist.map _))

theorem lookup_spanned {chunks : List ChunkRow} {position : Uuid × Nat × Int} :
    (Dict.ofItems ((spanned db table.rows chunks projectId window).map fun r =>
        (r.position, r))).lookup position = some r ↔
      r ∈ spanned db table.rows chunks projectId window ∧ r.position = position := by
  have hkeys : (((spanned db table.rows chunks projectId window).map fun r =>
      (r.position, r)).map (·.1)).Nodup := by
    rw [List.map_map]
    exact spanned_positions chunks
  rw [Dict.ofItems_of_nodup hkeys, Dict.lookup_eq_some_iff hkeys, List.mem_map]
  constructor
  · rintro ⟨r', hr', heq⟩
    obtain ⟨hposition, rfl⟩ := Prod.mk.inj heq
    exact ⟨hr', hposition⟩
  · rintro ⟨hr, rfl⟩
    exact ⟨r, hr, rfl⟩

theorem mem_handedOut {chunks : List ChunkRow} (hc : c ∈ chunks) (hmem : c ∈ table.rows) :
    r ∈ handedOut db table.rows chunks projectId window c ↔
      r ∈ table.rows ∧ Around projectId window c r := by
  unfold handedOut
  rw [List.mem_filterMap]
  simp only [lookup_spanned, mem_offsets]
  unfold spanned
  rw [Engine.mem_select, List.mem_filter, Bool.and_eq_true, decide_eq_true_eq]
  constructor
  · rintro ⟨offset, ⟨hlow, hhigh, hne⟩, ⟨hr, hproject, -⟩, hposition⟩
    obtain ⟨hcontract, hrest⟩ := Prod.mk.inj hposition
    obtain ⟨hversion, horder⟩ := Prod.mk.inj hrest
    refine ⟨hr, hproject, hcontract, hversion, by omega, by omega, fun hid => ?_⟩
    rw [eq_of_id hr hmem hid] at horder
    omega
  · rintro ⟨hr, haround⟩
    have hlow := haround.low
    have hhigh := haround.high
    refine ⟨r.readingOrder - c.readingOrder, ⟨by omega, by omega, fun hzero => ?_⟩,
      ⟨hr, haround.project, ?_⟩, ?_⟩
    · -- two rows at one position are one row
      refine haround.other (congrArg ChunkRow.id (eq_of_position hr hmem ?_))
      unfold position
      rw [haround.contract, haround.version, show r.readingOrder = c.readingOrder by omega]
    · have hcovers : Covers window (chunks.foldl (addSpan window) []) c := covers_foldl [] hc
      obtain ⟨low, high, hlookup, hlow', hhigh'⟩ := hcovers
      rw [List.any_eq_true]
      refine ⟨_, Dict.mem_of_lookup hlookup, ?_⟩
      simp only [Bool.and_eq_true, decide_eq_true_eq]
      exact ⟨⟨⟨haround.contract, haround.version⟩, by omega⟩, by omega⟩
    · unfold position
      rw [haround.contract, haround.version, show c.readingOrder +
        (r.readingOrder - c.readingOrder) = r.readingOrder by omega]

theorem pairwise_handedOut (chunks : List ChunkRow) :
    (handedOut db table.rows chunks projectId window c).Pairwise
      fun a b => a.readingOrder < b.readingOrder := by
  unfold handedOut
  refine List.Pairwise.filterMap _ (fun x y hxy a ha b hb => ?_) (pairwise_offsets window)
  have ha' := (lookup_spanned.1 ha).2
  have hb' := (lookup_spanned.1 hb).2
  have horder := (Prod.mk.inj (Prod.mk.inj ha').2).2
  have horder' := (Prod.mk.inj (Prod.mk.inj hb').2).2
  omega

theorem pairwise_neighbours (hwindow : window ≠ 0) :
    (neighbours db table.rows c projectId window).Pairwise
      fun a b => a.readingOrder < b.readingOrder := by
  have hsorted : (neighbours db table.rows c projectId window).Pairwise
      fun a b => a.readingOrder ≤ b.readingOrder := by
    unfold neighbours
    rw [if_neg hwindow]
    exact (db.answers _ _).sorted.imp OrderBy.asc_le.1
  have hnodup : (neighbours db table.rows c projectId window).Nodup := by
    unfold neighbours
    rw [if_neg hwindow]
    exact (db.answers _ _).perm.nodup_iff.2 ((List.Nodup.of_map _ table.ids).filter _)
  refine (hsorted.and hnodup).imp_of_mem fun {a b} ha hb hab => lt_of_le_of_ne hab.1 fun heq => ?_
  obtain ⟨ha, haround⟩ := (mem_neighbours hwindow).1 ha
  obtain ⟨hb, hbround⟩ := (mem_neighbours hwindow).1 hb
  refine hab.2 (eq_of_position ha hb ?_)
  unfold position
  rw [haround.contract, haround.version, hbround.contract, hbround.version, heq]

/-- **Batched neighbour expansion is the query of each chunk.** -/
theorem neighboursForMany_lookup (db db' : Engine ChunkRow) (table : ChunkTable)
    (projectId : Uuid) (window : Nat) (hwindow : 1 ≤ window) (chunks : List ChunkRow)
    (hchunks : ∀ c ∈ chunks, c ∈ table.rows) :
    ∀ c ∈ chunks, (neighboursForMany db table.rows chunks projectId window).lookup c.id =
      some (neighbours db' table.rows c projectId window) := by
  intro c hc
  have hwindow' : window ≠ 0 := by omega
  have hgiven : handedOut db table.rows chunks projectId window c =
      neighbours db' table.rows c projectId window := by
    have hout : (handedOut db table.rows chunks projectId window c).Pairwise
        fun a b => a.readingOrder < b.readingOrder := pairwise_handedOut chunks
    have hin : (neighbours db' table.rows c projectId window).Pairwise
        fun a b => a.readingOrder < b.readingOrder := pairwise_neighbours hwindow'
    refine List.Perm.eq_of_pairwise (fun a b _ _ hab hba => absurd hab (lt_asymm hba)) hout hin ?_
    refine (List.perm_ext_iff_of_nodup (hout.imp fun h => ?_) (hin.imp fun h => ?_)).2 fun r => ?_
    · exact fun heq => lt_irrefl _ (heq ▸ h)
    · exact fun heq => lt_irrefl _ (heq ▸ h)
    · rw [mem_handedOut hc (hchunks c hc), mem_neighbours hwindow']
  rw [neighboursForMany_eq hwindow' (List.ne_nil_of_mem hc), ← hgiven]
  refine Dict.lookup_ofItems (List.mem_map_of_mem hc) fun e he hid => ?_
  obtain ⟨d, hd, rfl⟩ := List.mem_map.1 he
  rw [eq_of_id (hchunks d hd) (hchunks c hc) hid]

/-! ### Two chunks at one position -/

namespace Sample

def chunk (id : Uuid) (readingOrder : Int) : ChunkRow where
  id
  contractId := 7
  projectId := 8
  textContent := ""
  readingOrder

def gapped : ChunkTable where
  rows := [chunk 1 1, chunk 2 2, chunk 3 5]
  ids := by decide
  positions := by decide

/-- The second and the third chunk share a reading order. -/
def repeated : List ChunkRow := [chunk 1 1, chunk 2 2, chunk 3 2]

end Sample

theorem neighboursForMany_gapped :
    (neighboursForMany Engine.stable Sample.gapped.rows Sample.gapped.rows 8 1).lookup 2 =
      some (neighbours Engine.stable Sample.gapped.rows (Sample.chunk 2 2) 8 1) :=
  neighboursForMany_lookup Engine.stable Engine.stable Sample.gapped 8 1 (by decide)
    Sample.gapped.rows (fun _ hc => hc) (Sample.chunk 2 2)
    (List.mem_cons_of_mem _ List.mem_cons_self)

/-- One of two chunks that share a reading order is lost. -/
theorem neighboursForMany_repeated : ¬ ∀ (db db' : Engine ChunkRow) (rows : List ChunkRow)
    (projectId : Uuid) (window : Nat), (rows.map (·.id)).Nodup → 1 ≤ window →
    ∀ chunks : List ChunkRow, (∀ c ∈ chunks, c ∈ rows ∧ c.projectId = projectId) →
    ∀ c ∈ chunks, (neighboursForMany db rows chunks projectId window).lookup c.id =
      some (neighbours db' rows c projectId window) := by
  intro h
  have hlookup := h Engine.stable Engine.stable Sample.repeated 8 1 (by decide) (by decide)
    [Sample.chunk 1 1] (fun c hc => by
      rw [List.mem_singleton.1 hc]
      exact ⟨List.mem_cons_self, rfl⟩) (Sample.chunk 1 1) List.mem_cons_self
  have hlength := congrArg (Option.map List.length) hlookup
  exact absurd hlength (by decide +kernel)

end ChunkRow

end Clear

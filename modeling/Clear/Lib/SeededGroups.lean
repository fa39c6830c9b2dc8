import Mathlib.Data.List.Nodup
import Mathlib.Data.List.Perm.Basic

/-!
# Greedy groups around seeds

The first element without a group seeds one. The elements are scanned in their order, and those
without a group join while the group has room and admits them; then the next element without a group
is a seed. With distinct keys the groups are a partition (`groups_perm`); a member was admitted to
what the group was then, and an element of a later group was refused, or the group was full
(`grouped_groups`).
-/

namespace SeededGroups

variable {α κ : Type}

def scan [DecidableEq κ] (key : α → κ) (limit : Nat) (admits : List α → α → Bool) :
    List α → (group : List α) → (assigned : List κ) → List α × List κ
  | [], group, assigned => (group, assigned)
  | a :: rest, group, assigned =>
    if limit ≤ group.length then (group, assigned)
    else if key a ∈ assigned then scan key limit admits rest group assigned
    else if admits group a then scan key limit admits rest (group ++ [a]) (key a :: assigned)
    else scan key limit admits rest group assigned

def groupsFrom [DecidableEq κ] (key : α → κ) (limit : Nat) (admits : α → List α → α → Bool)
    (all : List α) : (seeds : List α) → (assigned : List κ) → List (List α)
  | [], _ => []
  | seed :: seeds, assigned =>
    if key seed ∈ assigned then groupsFrom key limit admits all seeds assigned
    else
      (scan key limit (admits seed) all [seed] (key seed :: assigned)).1 ::
        groupsFrom key limit admits all seeds
          (scan key limit (admits seed) all [seed] (key seed :: assigned)).2

def groups [DecidableEq κ] (key : α → κ) (limit : Nat) (admits : α → List α → α → Bool)
    (all : List α) : List (List α) := groupsFrom key limit admits all all []

/-! ## One scan -/

section Scan

variable {key : α → κ} {limit : Nat} {admits : List α → α → Bool}

/-- What a scan leaves: who joined, and why the others did not. -/
structure Scanned (key : α → κ) (limit : Nat) (admits : List α → α → Bool) (candidates : List α)
    (group : List α) (assigned : List κ) (out : List α × List κ) (joined : List α) : Prop where
  group_eq : out.1 = group ++ joined
  assigned_iff : ∀ k, k ∈ out.2 ↔ k ∈ assigned ∨ k ∈ joined.map key
  mem : ∀ a ∈ joined, a ∈ candidates
  fresh : ∀ a ∈ joined, key a ∉ assigned
  nodup : (joined.map key).Nodup
  room : group.length ≤ limit → out.1.length ≤ limit
  admitted : ∀ l₁ a l₂, joined = l₁ ++ a :: l₂ → admits (group ++ l₁) a = true
  refused : ∀ a ∈ candidates, key a ∉ out.2 →
    limit ≤ out.1.length ∨ ∃ l, group ++ l <+: out.1 ∧ admits (group ++ l) a = false

variable {candidates group joined : List α} {assigned : List κ} {out : List α × List κ} {a : α}

theorem Scanned.stop (h : ∀ a ∈ candidates, limit ≤ group.length) :
    Scanned key limit admits candidates group assigned (group, assigned) [] where
  group_eq := (List.append_nil group).symm
  assigned_iff := by simp
  mem := by simp
  fresh := by simp
  nodup := by simp
  room := id
  admitted := by simp
  refused := fun a ha _ => .inl (h a ha)

theorem Scanned.skip (h : Scanned key limit admits candidates group assigned out joined)
    (ha : key a ∉ out.2 → limit ≤ out.1.length ∨
      ∃ l, group ++ l <+: out.1 ∧ admits (group ++ l) a = false) :
    Scanned key limit admits (a :: candidates) group assigned out joined where
  group_eq := h.group_eq
  assigned_iff := h.assigned_iff
  mem := fun b hb => List.mem_cons_of_mem a (h.mem b hb)
  fresh := h.fresh
  nodup := h.nodup
  room := h.room
  admitted := h.admitted
  refused := by
    intro b hb hout
    rcases List.mem_cons.1 hb with rfl | hb
    · exact ha hout
    · exact h.refused b hb hout

theorem Scanned.join
    (h : Scanned key limit admits candidates (group ++ [a]) (key a :: assigned) out joined)
    (hroom : group.length < limit) (hfresh : key a ∉ assigned) (ha : admits group a = true) :
    Scanned key limit admits (a :: candidates) group assigned out (a :: joined) where
  group_eq := by rw [h.group_eq, List.append_assoc, List.singleton_append]
  assigned_iff := by
    intro k
    rw [h.assigned_iff, List.mem_cons, List.map_cons, List.mem_cons]
    tauto
  mem := by
    intro b hb
    rcases List.mem_cons.1 hb with rfl | hb
    · exact List.mem_cons_self
    · exact List.mem_cons_of_mem a (h.mem b hb)
  fresh := by
    intro b hb
    rcases List.mem_cons.1 hb with rfl | hb
    · exact hfresh
    · exact fun hk => h.fresh b hb (List.mem_cons_of_mem _ hk)
  nodup := by
    rw [List.map_cons, List.nodup_cons]
    refine ⟨fun hk => ?_, h.nodup⟩
    obtain ⟨b, hb, hkey⟩ := List.mem_map.1 hk
    exact h.fresh b hb (hkey ▸ List.mem_cons_self)
  room := fun _ => h.room (by rw [List.length_append, List.length_singleton]; omega)
  admitted := by
    intro l₁ b l₂ heq
    cases l₁ with
    | nil =>
      cases heq
      rw [List.append_nil]
      exact ha
    | cons c l₁ =>
      cases heq
      have hrest := h.admitted l₁ b l₂ rfl
      rwa [List.append_assoc, List.singleton_append] at hrest
  refused := by
    intro b hb hout
    rcases List.mem_cons.1 hb with rfl | hb
    · exact absurd ((h.assigned_iff _).2 (.inl List.mem_cons_self)) hout
    · rcases h.refused b hb hout with hfull | ⟨l, hl, hrefused⟩
      · exact .inl hfull
      · rw [List.append_assoc] at hl hrefused
        exact .inr ⟨[a] ++ l, hl, hrefused⟩

theorem scanned_scan [DecidableEq κ] (candidates group : List α) (assigned : List κ) :
    ∃ joined, Scanned key limit admits candidates group assigned
      (scan key limit admits candidates group assigned) joined := by
  induction candidates generalizing group assigned with
  | nil => exact ⟨[], .stop nofun⟩
  | cons a rest ih =>
    unfold scan
    split
    next hfull => exact ⟨[], .stop fun _ _ => hfull⟩
    next hroom =>
      split
      next hassigned =>
        obtain ⟨joined, h⟩ := ih group assigned
        exact ⟨joined, h.skip fun hout => absurd ((h.assigned_iff _).2 (.inl hassigned)) hout⟩
      next hassigned =>
        split
        next hadmits =>
          obtain ⟨joined, h⟩ := ih (group ++ [a]) (key a :: assigned)
          exact ⟨a :: joined, h.join (Nat.lt_of_not_le hroom) hassigned hadmits⟩
        next hrefuses =>
          obtain ⟨joined, h⟩ := ih group assigned
          refine ⟨joined, h.skip fun _ => .inr ⟨[], ?_, by simpa using hrefuses⟩⟩
          rw [List.append_nil, h.group_eq]
          exact List.prefix_append _ _

end Scan

/-! ## The groups -/

section Groups

variable {key : α → κ} {limit : Nat} {admits : α → List α → α → Bool} {all : List α}

/-- A later element could not join the group when it was closed: the group was full, or had refused
it before. -/
def Closed (limit : Nat) (admits : α → List α → α → Bool) (group : List α) (a : α) : Prop :=
  ∀ seed joined, group = seed :: joined → limit ≤ group.length ∨
    ∃ l, seed :: l <+: group ∧ admits seed (seed :: l) a = false

structure Grouped (key : α → κ) (limit : Nat) (admits : α → List α → α → Bool) (all seeds : List α)
    (assigned : List κ) (groups : List (List α)) : Prop where
  mem : ∀ a ∈ groups.flatten, a ∈ all
  nodup : (groups.flatten.map key).Nodup
  fresh : ∀ a ∈ groups.flatten, key a ∉ assigned
  covered : ∀ a ∈ seeds, key a ∈ assigned ∨ key a ∈ groups.flatten.map key
  room : ∀ group ∈ groups, group.length ≤ limit
  admitted : ∀ group ∈ groups, ∃ seed joined, group = seed :: joined ∧
    ∀ l₁ a l₂, joined = l₁ ++ a :: l₂ → admits seed (seed :: l₁) a = true
  closed : groups.Pairwise fun group later => ∀ a ∈ later, Closed limit admits group a

theorem grouped_groupsFrom [DecidableEq κ] (hlimit : 1 ≤ limit) (seeds : List α) (assigned : List κ)
    (hseeds : ∀ a ∈ seeds, a ∈ all) :
    Grouped key limit admits all seeds assigned
      (groupsFrom key limit admits all seeds assigned) := by
  induction seeds generalizing assigned with
  | nil => constructor <;> simp [groupsFrom]
  | cons seed seeds ih =>
    have hrest : ∀ a ∈ seeds, a ∈ all := fun a ha => hseeds a (List.mem_cons_of_mem _ ha)
    unfold groupsFrom
    split
    next hassigned =>
      have h := ih assigned hrest
      refine { h with covered := fun a ha => ?_ }
      rcases List.mem_cons.1 ha with rfl | ha
      · exact .inl hassigned
      · exact h.covered a ha
    next hassigned =>
      obtain ⟨joined, hscan⟩ : ∃ joined, Scanned key limit (admits seed) all [seed]
          (key seed :: assigned)
          (scan key limit (admits seed) all [seed] (key seed :: assigned)) joined :=
        scanned_scan all [seed] (key seed :: assigned)
      generalize scan key limit (admits seed) all [seed] (key seed :: assigned) = out at *
      have h := ih out.2 hrest
      have hgroup : out.1 = seed :: joined := hscan.group_eq
      generalize groupsFrom key limit admits all seeds out.2 = later at *
      rw [hgroup]
      have hkeys : ∀ k, k ∈ (seed :: joined).map key → k ∈ out.2 := by
        intro k hk
        rw [hscan.assigned_iff]
        rcases List.mem_cons.1 hk with rfl | hk
        · exact .inl List.mem_cons_self
        · exact .inr hk
      constructor
      case mem =>
        intro a ha
        rw [List.flatten_cons, List.mem_append, List.mem_cons] at ha
        rcases ha with (rfl | ha) | ha
        · exact hseeds a List.mem_cons_self
        · exact hscan.mem a ha
        · exact h.mem a ha
      case nodup =>
        rw [List.flatten_cons, List.map_append, List.nodup_append']
        refine ⟨?_, h.nodup, fun k hk hk' => ?_⟩
        · rw [List.map_cons, List.nodup_cons]
          refine ⟨fun hk => ?_, hscan.nodup⟩
          obtain ⟨b, hb, hkey⟩ := List.mem_map.1 hk
          exact hscan.fresh b hb (hkey ▸ List.mem_cons_self)
        · obtain ⟨b, hb, rfl⟩ := List.mem_map.1 hk'
          exact h.fresh b hb (hkeys _ hk)
      case fresh =>
        intro a ha
        rw [List.flatten_cons, List.mem_append, List.mem_cons] at ha
        rcases ha with (rfl | ha) | ha
        · exact hassigned
        · exact fun hk => hscan.fresh a ha (List.mem_cons_of_mem _ hk)
        · exact fun hk => h.fresh a ha ((hscan.assigned_iff _).2
            (.inl (List.mem_cons_of_mem _ hk)))
      case covered =>
        intro a ha
        rw [List.flatten_cons, List.map_append, List.mem_append]
        rcases List.mem_cons.1 ha with rfl | ha
        · exact .inr (.inl List.mem_cons_self)
        · rcases h.covered a ha with hk | hk
          · rw [hscan.assigned_iff, List.mem_cons] at hk
            rcases hk with (hk | hk) | hk
            · exact .inr (.inl (hk ▸ List.mem_cons_self))
            · exact .inl hk
            · exact .inr (.inl (List.mem_cons_of_mem _ hk))
          · exact .inr (.inr hk)
      case room =>
        intro g hg
        rcases List.mem_cons.1 hg with rfl | hg
        · rw [← hgroup]
          exact hscan.room hlimit
        · exact h.room g hg
      case admitted =>
        intro g hg
        rcases List.mem_cons.1 hg with rfl | hg
        · exact ⟨seed, joined, rfl, hscan.admitted⟩
        · exact h.admitted g hg
      case closed =>
        rw [List.pairwise_cons]
        refine ⟨fun g hg a ha => ?_, h.closed⟩
        rintro seed' joined' heq
        cases heq
        have hlater : a ∈ later.flatten := List.mem_flatten.2 ⟨g, hg, ha⟩
        have hrefused := hscan.refused a (h.mem a hlater) (h.fresh a hlater)
        rwa [hgroup] at hrefused

theorem grouped_groups [DecidableEq κ] (key : α → κ) (admits : α → List α → α → Bool)
    (all : List α) (hlimit : 1 ≤ limit) :
    Grouped key limit admits all all [] (groups key limit admits all) :=
  grouped_groupsFrom hlimit all [] fun _ ha => ha

theorem groups_perm [DecidableEq κ] (hlimit : 1 ≤ limit) (hkeys : (all.map key).Nodup) :
    (groups key limit admits all).flatten.Perm all := by
  have h := grouped_groups key admits all hlimit
  refine (List.perm_ext_iff_of_nodup (List.Nodup.of_map key h.nodup)
    (List.Nodup.of_map key hkeys)).2 fun a => ⟨h.mem a, fun ha => ?_⟩
  obtain ⟨b, hb, hkey⟩ := List.mem_map.1 ((h.covered a ha).resolve_left List.not_mem_nil)
  exact List.inj_on_of_nodup_map hkeys (h.mem b hb) ha hkey ▸ hb

end Groups

end SeededGroups

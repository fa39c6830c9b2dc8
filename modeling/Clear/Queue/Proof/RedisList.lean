import Clear.Lib.Handover
import Clear.Lib.Redis
import Clear.Models.Processing

/-!
# What the Redis list driver keeps

The driver hands delayed messages over in two steps (`simulated`), so that whatever its processes do
no message is lost (`nothing_lost`). `faultless_of_smooth`: each message is popped once and high
priority comes first, in runs where no two promotions hold an entry at a time and no high-priority
message is delayed. Otherwise a message is popped twice, or waits behind lower ones
(`twice_and_behind`).
-/

/-!
## The Redis list driver

`RedisListDriver` of `app/orchestrator/queue.py`: a list for each stage, and a sorted set of delayed
messages. Every Redis command is one step of the machine; a promotion is a `ZRANGEBYSCORE` and then,
entry by entry, an `LPUSH` and a `ZREM`. The trace, the dead-letter list and the metrics are left out.
-/

namespace Clear

namespace RedisList

open RedisCommands

structure Entry where
  message : StageMessage
  queueJobId : Uuid
  deriving DecidableEq

namespace Entry

def stage (e : Entry) : PipelineStage := e.message.stage

def isHigh (e : Entry) : Bool := e.message.priority = .high

end Entry

/-- A call of `promote_delayed`: what it has read and not removed yet, and whether the first of it has
been pushed. -/
structure Promotion where
  due : List Entry := []
  pushed : Bool := false

/-- The keys of Redis, the promotions under way, and what was ever enqueued and popped. -/
structure State where
  lists : PipelineStage → List Entry := fun _ => []
  delayed : ZSet Entry := .empty
  promotions : Nat → Promotion := fun _ => {}
  enqueued : List Entry := []
  popped : List Entry := []

inductive Action where
  | enqueue (message : StageMessage) (queueJobId : Uuid) (now : Rat) (delayMs : Int)
  | pop (stage : PipelineStage)
  | readDue (scheduler : Nat) (now : Rat)
  | pushDue (scheduler : Nat)
  | removeDue (scheduler : Nat)

def State.setList (s : State) (stage : PipelineStage) (l : List Entry) : State :=
  { s with lists := Function.update s.lists stage l }

def State.setPromotion (s : State) (scheduler : Nat) (p : Promotion) : State :=
  { s with promotions := Function.update s.promotions scheduler p }

/-- The end of a list that a new message goes to. -/
def pushTo (e : Entry) (l : List Entry) : List Entry :=
  -- high priority jumps the queue: workers pop from the tail
  if e.isHigh then rpush e l else lpush e l

def enqueue (s : State) (e : Entry) (now : Rat) (delayMs : Int) : State :=
  let s := { s with enqueued := e :: s.enqueued }
  if 0 < delayMs then { s with delayed := s.delayed.zadd e (now + delayMs / 1000) }
  else s.setList e.stage (pushTo e (s.lists e.stage))

def pop (s : State) (stage : PipelineStage) : State :=
  match brpop (s.lists stage) with
  | none => s
  | some (e, rest) => { s.setList stage rest with popped := e :: s.popped }

def due (lex : Entry → Entry → Bool) (s : State) (now : Rat) : List Entry :=
  s.delayed.rangeByScore lex 0 now 200

/-- One command of any process. `uuid4` draws an id that was not drawn before; `lex` is the order of
the texts in the sorted set. -/
def step (lex : Entry → Entry → Bool) (s : State) : Action → Option State
  | .enqueue message queueJobId now delayMs =>
    if s.enqueued.any (·.queueJobId = queueJobId) then none
    else some (enqueue s { message, queueJobId } now delayMs)
  | .pop stage => some (pop s stage)
  | .readDue scheduler now =>
    match (s.promotions scheduler).due with
    | [] => some (s.setPromotion scheduler { due := due lex s now })
    | _ :: _ => none
  | .pushDue scheduler =>
    match s.promotions scheduler with
    | { due := e :: rest, pushed := false } =>
      some ((s.setList e.stage (lpush e (s.lists e.stage))).setPromotion scheduler
        { due := e :: rest, pushed := true })
    | _ => none
  | .removeDue scheduler =>
    match s.promotions scheduler with
    | { due := e :: rest, pushed := true } =>
      some ({ s with delayed := s.delayed.zrem e }.setPromotion scheduler { due := rest })
    | _ => none

/-- Any number of producers, workers and schedulers over empty keys. -/
def machine (lex : Entry → Entry → Bool) : Machine State Action where
  init s := s = {}
  step := step lex

end RedisList

end Clear

namespace Clear

namespace RedisList

open RedisCommands

variable {lex : Entry → Entry → Bool} {s t : State} {a : Action}

/-! ## A promotion is a hand-over -/

def copies (s : State) (e : Entry) : Nat := (s.lists e.stage).count e + s.popped.count e

/-- The driver as a hand-over from the sorted set. -/
def handover (s : State) : Handover.State Entry Nat where
  known := s.enqueued
  source := s.delayed.members
  copies := copies s
  held i := (s.promotions i).due
  copied i := (s.promotions i).pushed

structure Filed (s : State) : Prop where
  stage : ∀ stage, ∀ e ∈ s.lists stage, e.stage = stage
  known : ∀ e ∈ s.delayed.members, e ∈ s.enqueued

theorem fresh_of_id {queueJobId : Uuid} (message : StageMessage)
    (h : ¬ s.enqueued.any (·.queueJobId = queueJobId) = true) :
    (⟨message, queueJobId⟩ : Entry) ∉ s.enqueued := by
  intro hmem
  exact h (List.any_eq_true.2 ⟨_, hmem, decide_eq_true rfl⟩)

theorem mem_pushTo {e x : Entry} {l : List Entry} : x ∈ pushTo e l ↔ x = e ∨ x ∈ l := by
  unfold pushTo rpush lpush
  split
  · simp [or_comm]
  · simp

theorem stage_setList {stage : PipelineStage} {l : List Entry}
    (hs : ∀ stage, ∀ e ∈ s.lists stage, e.stage = stage) (hl : ∀ e ∈ l, e.stage = stage) :
    ∀ other, ∀ e ∈ (s.setList stage l).lists other, e.stage = other := by
  intro other e he
  by_cases hother : other = stage
  · subst hother
    exact hl e (by simpa [State.setList] using he)
  · exact hs other e (by simpa [State.setList, hother] using he)

theorem Filed.step (hs : Filed s) (h : step lex s a = some t) : Filed t := by
  unfold RedisList.step at h
  cases a with
  | enqueue message queueJobId now delayMs =>
    dsimp only at h
    split at h
    · cases h
    next hid =>
      cases h
      have hfresh := fresh_of_id message hid
      unfold enqueue
      dsimp only
      split
      · refine ⟨hs.stage, fun x hx => ?_⟩
        have hnew : (⟨message, queueJobId⟩ : Entry) ∉ s.delayed.members := fun hmem =>
          hfresh (hs.known _ hmem)
        have hx : x ∈ (s.delayed.zadd ⟨message, queueJobId⟩ (now + delayMs / 1000)).members := hx
        rw [ZSet.members_zadd hnew] at hx
        rcases List.mem_cons.1 hx with rfl | hx
        · exact List.mem_cons_self
        · exact List.mem_cons_of_mem _ (hs.known x hx)
      · refine ⟨stage_setList hs.stage fun x hx => ?_, fun x hx =>
          List.mem_cons_of_mem _ (hs.known x hx)⟩
        rcases mem_pushTo.1 hx with rfl | hx
        · rfl
        · exact hs.stage _ x hx
  | pop stage =>
    cases h
    unfold pop
    split
    · exact hs
    next e rest hpop =>
      refine ⟨stage_setList hs.stage fun x hx => hs.stage stage x ?_, hs.known⟩
      rw [brpop_eq_some hpop]
      exact List.mem_append_left _ hx
  | readDue scheduler now =>
    dsimp only at h
    split at h
    · cases h
      exact ⟨hs.stage, hs.known⟩
    · cases h
  | pushDue scheduler =>
    dsimp only at h
    split at h
    next e rest hp =>
      cases h
      refine ⟨stage_setList hs.stage fun x hx => ?_, hs.known⟩
      rcases List.mem_cons.1 hx with rfl | hx
      · rfl
      · exact hs.stage _ x hx
    · cases h
  | removeDue scheduler =>
    dsimp only at h
    split at h
    next e rest hp =>
      cases h
      refine ⟨hs.stage, fun x hx => hs.known x ?_⟩
      have hx : x ∈ (s.delayed.zrem e).members := hx
      rw [ZSet.members_zrem] at hx
      exact (List.mem_filter.1 hx).1
    · cases h

theorem filed_invariant : (machine lex).Invariant Machine.anyStep Filed where
  init s h := by
    cases h
    exact ⟨fun _ => nofun, nofun⟩
  step _ _ _ hs _ h := hs.step h

/-! ## Copies -/

theorem copies_push {e : Entry} {l : List Entry}
    (hl : ∀ x, l.count x = (s.lists e.stage).count x + if e = x then 1 else 0) :
    copies (s.setList e.stage l) = Handover.addCopy (copies s) e := by
  funext x
  by_cases hx : x = e
  · have hcount : l.count e = (s.lists e.stage).count e + 1 := (hl e).trans (by rw [if_pos rfl])
    rw [hx, Handover.addCopy_self]
    simp only [copies, State.setList, Function.update_self, hcount]
    omega
  · rw [Handover.addCopy_of_ne hx]
    by_cases hstage : x.stage = e.stage
    · simp only [copies, State.setList, hstage, Function.update_self, hl, if_neg (Ne.symm hx),
        Nat.add_zero]
    · simp only [copies, State.setList, Function.update_of_ne hstage]

theorem count_lpush (e x : Entry) (l : List Entry) :
    (lpush e l).count x = l.count x + if e = x then 1 else 0 := by
  unfold lpush
  simp only [List.count_cons, beq_iff_eq]

theorem count_pushTo (e x : Entry) (l : List Entry) :
    (pushTo e l).count x = l.count x + if e = x then 1 else 0 := by
  unfold pushTo
  split
  · unfold rpush
    simp only [List.count_append, List.count_cons, List.count_nil, Nat.zero_add, beq_iff_eq]
  · exact count_lpush e x l

theorem copies_pop (hs : Filed s) (stage : PipelineStage) : copies (pop s stage) = copies s := by
  unfold pop
  split
  · rfl
  next e rest hpop =>
    have hlist := brpop_eq_some hpop
    have hstage : e.stage = stage := hs.stage stage e (by rw [hlist]; simp)
    funext x
    by_cases hx : x.stage = stage
    · simp only [copies, State.setList, hx, Function.update_self, hlist, List.count_append,
        List.count_cons, List.count_nil]
      omega
    · have hne : ¬ e = x := fun heq => hx (heq ▸ hstage)
      simp only [copies, State.setList, Function.update_of_ne hx, List.count_cons, beq_iff_eq,
        if_neg hne, Nat.add_zero]

/-! ## Simulation -/

theorem held_setPromotion (s : State) (scheduler : Nat) (p : Promotion) :
    (handover (s.setPromotion scheduler p)).held =
      Function.update (handover s).held scheduler p.due := by
  funext i
  by_cases hi : i = scheduler
  · subst hi
    simp [handover, State.setPromotion]
  · simp [handover, State.setPromotion, hi]

theorem copied_setPromotion (s : State) (scheduler : Nat) (p : Promotion) :
    (handover (s.setPromotion scheduler p)).copied =
      Function.update (handover s).copied scheduler p.pushed := by
  funext i
  by_cases hi : i = scheduler
  · subst hi
    simp [handover, State.setPromotion]
  · simp [handover, State.setPromotion, hi]

def Smooth (lex : Entry → Entry → Bool) (s : State) : Action → Prop
  | .enqueue message _ _ delayMs => message.priority = .high → delayMs ≤ 0
  | .readDue _ now => ∀ e ∈ due lex s now, ∀ j, e ∉ (s.promotions j).due
  | _ => True

/-- A command is a step of the hand-over, or none; two promotions that exclude each other are movers
that do. -/
theorem simulated (hs : Filed s) (h : step lex s a = some t) :
    handover t = handover s ∨ ∃ b, (Smooth lex s a → Handover.Exclusive (handover s) b) ∧
      Handover.step (handover s) b = some (handover t) := by
  unfold RedisList.step at h
  cases a with
  | enqueue message queueJobId now delayMs =>
    dsimp only at h
    split at h
    · cases h
    next hid =>
      cases h
      have hfresh : (⟨message, queueJobId⟩ : Entry) ∉ (handover s).known := fresh_of_id message hid
      right
      unfold enqueue
      dsimp only
      split
      · refine ⟨.park ⟨message, queueJobId⟩, fun _ => trivial, ?_⟩
        unfold Handover.step
        dsimp only
        rw [if_neg hfresh, Option.some_inj]
        refine Handover.State.ext rfl ?_ rfl rfl rfl
        exact (ZSet.members_zadd (fun hmem => hfresh (hs.known _ hmem)) _).symm
      · refine ⟨.deliver ⟨message, queueJobId⟩, fun _ => trivial, ?_⟩
        unfold Handover.step
        dsimp only
        rw [if_neg hfresh, Option.some_inj]
        refine Handover.State.ext rfl rfl ?_ rfl rfl
        exact (copies_push fun x => count_pushTo _ x _).symm
  | pop stage =>
    cases h
    left
    have hcopies := copies_pop hs stage
    unfold pop at hcopies ⊢
    split
    · rfl
    next e rest hpop =>
      rw [hpop] at hcopies
      exact Handover.State.ext rfl rfl hcopies rfl rfl
  | readDue scheduler now =>
    dsimp only at h
    split at h
    next hidle =>
      cases h
      right
      refine ⟨.grab scheduler (due lex s now), id, ?_⟩
      have hgrab : (handover s).held scheduler = [] ∧ (due lex s now).Nodup ∧
          ∀ e ∈ due lex s now, e ∈ (handover s).source :=
        ⟨hidle, ZSet.nodup_range, fun e he => ZSet.mem_of_mem_range he⟩
      unfold Handover.step
      dsimp only
      rw [if_pos hgrab, Option.some_inj]
      exact Handover.State.ext rfl rfl rfl
        (held_setPromotion s scheduler { due := due lex s now }).symm
        (copied_setPromotion s scheduler { due := due lex s now }).symm
    · cases h
  | pushDue scheduler =>
    dsimp only at h
    split at h
    next e rest hp =>
      cases h
      right
      refine ⟨.copy scheduler, fun _ => trivial, ?_⟩
      have hheld : (handover s).held scheduler = e :: rest := congrArg Promotion.due hp
      have hcopied : (handover s).copied scheduler = false := congrArg Promotion.pushed hp
      unfold Handover.step
      simp only [hheld, hcopied, Option.some_inj]
      have hcopied' := copied_setPromotion (s.setList e.stage (lpush e (s.lists e.stage))) scheduler
        { due := e :: rest, pushed := true }
      refine Handover.State.ext rfl rfl ?_ ?_ hcopied'.symm
      · exact (copies_push fun x => count_lpush e x _).symm
      · rw [held_setPromotion]
        exact (Function.update_eq_self_iff.2 hheld.symm).symm
    · cases h
  | removeDue scheduler =>
    dsimp only at h
    split at h
    next e rest hp =>
      cases h
      right
      refine ⟨.drop scheduler, fun _ => trivial, ?_⟩
      have hheld : (handover s).held scheduler = e :: rest := congrArg Promotion.due hp
      have hcopied : (handover s).copied scheduler = true := congrArg Promotion.pushed hp
      unfold Handover.step
      simp only [hheld, hcopied, Option.some_inj]
      exact Handover.State.ext rfl (ZSet.members_zrem s.delayed e).symm rfl
        (held_setPromotion { s with delayed := s.delayed.zrem e } scheduler { due := rest }).symm
        (copied_setPromotion { s with delayed := s.delayed.zrem e } scheduler { due := rest }).symm
    · cases h

theorem handover_empty (h : (machine lex).init s) : Handover.machine.init (handover s) := by
  cases h
  exact Handover.State.ext rfl rfl rfl rfl rfl

theorem nothing_lost (hs : (machine lex).Reach s) :
    ∀ e ∈ s.enqueued, e ∉ s.popped → e ∈ s.lists e.stage ∨ e ∈ s.delayed.members := by
  intro e he hnot
  have hkept : Handover.Kept (handover s) := Handover.reach_kept <|
    hs.map filed_invariant (fun _ => handover_empty) fun s a t hfiled _ h =>
      (simulated hfiled h).imp_right fun ⟨b, _, hb⟩ => ⟨b, trivial, hb⟩
  rcases hkept.somewhere e he with hsource | hcopies
  · exact .inr hsource
  · have hcopies : 0 < (s.lists e.stage).count e + s.popped.count e := hcopies
    rw [List.count_eq_zero_of_not_mem hnot] at hcopies
    exact .inl (List.count_pos_iff.1 hcopies)

theorem popped_nodup (hs : (machine lex).ReachIf (Smooth lex) s) : s.popped.Nodup := by
  rw [List.nodup_iff_count_le_one]
  intro e
  have hinv : (machine lex).Invariant (Smooth lex) Filed :=
    { init := filed_invariant.init, step := fun s a t h _ => filed_invariant.step s a t h trivial }
  have hle : copies s e ≤ 1 := Handover.copies_le_one
    (hs.map hinv (fun _ => handover_empty) fun s a t hfiled hG h =>
      (simulated hfiled h).imp_right fun ⟨b, hb, hstep⟩ => ⟨b, hb hG, hstep⟩) e
  unfold copies at hle
  omega

/-! ## Priority -/

structure Ranked (s : State) : Prop where
  tail : ∀ stage, (s.lists stage).Pairwise fun a b => a.isHigh = true → b.isHigh = true
  delayed : ∀ e ∈ s.delayed.members, e.isHigh = false
  due : ∀ i, ∀ e ∈ (s.promotions i).due, e.isHigh = false

theorem tail_setList {stage : PipelineStage} {l : List Entry}
    (hs : ∀ stage, (s.lists stage).Pairwise fun a b => a.isHigh = true → b.isHigh = true)
    (hl : l.Pairwise fun a b => a.isHigh = true → b.isHigh = true) (other : PipelineStage) :
    ((s.setList stage l).lists other).Pairwise fun a b => a.isHigh = true → b.isHigh = true := by
  by_cases hother : other = stage
  · subst hother
    simpa [State.setList] using hl
  · simpa [State.setList, hother] using hs other

theorem pairwise_lpush {e : Entry} {l : List Entry} (he : e.isHigh = false)
    (hl : l.Pairwise fun a b => a.isHigh = true → b.isHigh = true) :
    (lpush e l).Pairwise fun a b => a.isHigh = true → b.isHigh = true := by
  refine List.pairwise_cons.2 ⟨fun x _ hhigh => ?_, hl⟩
  rw [he] at hhigh
  cases hhigh

theorem pairwise_pushTo {e : Entry} {l : List Entry}
    (hl : l.Pairwise fun a b => a.isHigh = true → b.isHigh = true) :
    (pushTo e l).Pairwise fun a b => a.isHigh = true → b.isHigh = true := by
  unfold pushTo
  split
  next hhigh =>
    refine List.pairwise_append.2 ⟨hl, List.pairwise_singleton .., fun x _ y hy _ => ?_⟩
    rw [List.mem_singleton.1 hy]
    exact hhigh
  next hlow => exact pairwise_lpush (by simpa using hlow) hl

theorem due_setPromotion {scheduler : Nat} {p : Promotion} (hs : Ranked s)
    (hp : ∀ e ∈ p.due, e.isHigh = false) (i : Nat) :
    ∀ e ∈ ((s.setPromotion scheduler p).promotions i).due, e.isHigh = false := by
  by_cases hi : i = scheduler
  · subst hi
    simpa [State.setPromotion] using hp
  · simpa [State.setPromotion, hi] using hs.due i

theorem Ranked.step (hs : Ranked s) (hfiled : Filed s) (hG : Smooth lex s a)
    (h : step lex s a = some t) : Ranked t := by
  unfold RedisList.step at h
  cases a with
  | enqueue message queueJobId now delayMs =>
    dsimp only at h
    split at h
    · cases h
    next hid =>
      cases h
      unfold enqueue
      dsimp only
      split
      next hdelay =>
        refine ⟨hs.tail, fun x hx => ?_, hs.due⟩
        have hnew : (⟨message, queueJobId⟩ : Entry) ∉ s.delayed.members := fun hmem =>
          fresh_of_id message hid (hfiled.known _ hmem)
        have hx : x ∈ (s.delayed.zadd ⟨message, queueJobId⟩ (now + delayMs / 1000)).members := hx
        rw [ZSet.members_zadd hnew] at hx
        rcases List.mem_cons.1 hx with rfl | hx
        · refine decide_eq_false fun hhigh => ?_
          have := hG hhigh
          omega
        · exact hs.delayed x hx
      · exact ⟨tail_setList hs.tail (pairwise_pushTo (hs.tail _)), hs.delayed, hs.due⟩
  | pop stage =>
    cases h
    unfold pop
    split
    · exact hs
    next e rest hpop =>
      refine ⟨tail_setList hs.tail ?_, hs.delayed, hs.due⟩
      have htail := hs.tail stage
      rw [brpop_eq_some hpop] at htail
      exact (List.pairwise_append.1 htail).1
  | readDue scheduler now =>
    dsimp only at h
    split at h
    · cases h
      exact ⟨hs.tail, hs.delayed,
        due_setPromotion hs fun e he => hs.delayed e (ZSet.mem_of_mem_range he)⟩
    · cases h
  | pushDue scheduler =>
    dsimp only at h
    split at h
    next e rest hp =>
      cases h
      have hdue : ∀ x ∈ e :: rest, x.isHigh = false := fun x hx =>
        hs.due scheduler x (by rw [hp]; exact hx)
      have hlow : e.isHigh = false := hdue e List.mem_cons_self
      exact ⟨tail_setList hs.tail (pairwise_lpush hlow (hs.tail e.stage)), hs.delayed,
        due_setPromotion ⟨tail_setList hs.tail (pairwise_lpush hlow (hs.tail e.stage)), hs.delayed,
          hs.due⟩ hdue⟩
    · cases h
  | removeDue scheduler =>
    dsimp only at h
    split at h
    next e rest hp =>
      cases h
      have hdelayed : ∀ x ∈ (s.delayed.zrem e).members, x.isHigh = false := fun x hx => by
        rw [ZSet.members_zrem] at hx
        exact hs.delayed x (List.mem_filter.1 hx).1
      refine ⟨hs.tail, hdelayed, due_setPromotion ⟨hs.tail, hdelayed, hs.due⟩ fun x hx => ?_⟩
      exact hs.due scheduler x (by rw [hp]; exact List.mem_cons_of_mem _ hx)
    · cases h

theorem ranked_invariant :
    (machine lex).Invariant (Smooth lex) fun s => Filed s ∧ Ranked s where
  init s h := by
    have hfiled := filed_invariant.init s h
    cases h
    exact ⟨hfiled, fun _ => .nil, nofun, fun _ => nofun⟩
  step _ _ _ hs hG h := ⟨hs.1.step h, hs.2.step hs.1 hG h⟩

/-! ## The driver -/

def Ready (s : State) (now : Rat) (e : Entry) : Prop :=
  e ∈ s.lists e.stage ∨ ∃ readyAt ≤ now, (e, readyAt) ∈ s.delayed.entries

/-- No entry is popped twice, none is lost, and no pop returns a lower entry while a high one of its
stage is ready. -/
structure Faultless (s : State) : Prop where
  once : s.popped.Nodup
  kept : ∀ e ∈ s.enqueued, e ∉ s.popped → e ∈ s.lists e.stage ∨ e ∈ s.delayed.members
  highFirst : ∀ stage now e rest, brpop (s.lists stage) = some (e, rest) → e.isHigh = false →
    ∀ high, high.stage = stage → high.isHigh = true → ¬ Ready s now high

/-- **Nothing is lost or popped twice, and high priority comes first**, in every run in which no two
promotions hold an entry at a time and no high-priority message is delayed. -/
theorem faultless_of_smooth (hs : (machine lex).ReachIf (Smooth lex) s) : Faultless s where
  once := popped_nodup hs
  kept := nothing_lost (hs.mono fun _ _ _ => trivial)
  highFirst stage now e rest hpop hlow high hstage hhigh hready := by
    obtain ⟨hfiled, hranked⟩ := ranked_invariant.reach hs
    rcases hready with hlist | ⟨readyAt, -, hdelayed⟩
    · rw [hstage, brpop_eq_some hpop] at hlist
      have htail := hranked.tail stage
      rw [brpop_eq_some hpop] at htail
      rcases List.mem_append.1 hlist with hrest | hlast
      · -- the tail of the list is high if anything before it is
        have := (List.pairwise_append.1 htail).2.2 high hrest e List.mem_cons_self hhigh
        rw [hlow] at this
        cases this
      · rw [List.mem_singleton.1 hlast, hlow] at hhigh
        cases hhigh
    · have := hranked.delayed high (List.mem_map.2 ⟨_, hdelayed, rfl⟩)
      rw [hhigh] at this
      cases this

/-! ## Runs -/

namespace Sample

def message (priority : JobPriority) : StageMessage where
  jobId := 1
  contractId := 2
  projectId := 3
  stage := .parser
  priority := priority

/-- Entries in the order of their ids. -/
def byId (a b : Entry) : Bool := a.queueJobId.toNat ≤ b.queueJobId.toNat

def Quiet (_ : State) : Action → Prop
  | .enqueue message _ _ delayMs => message.priority = .high → delayMs ≤ 0
  | .readDue .. => False
  | _ => True

instance (s : State) : (a : Action) → Decidable (Quiet s a)
  | .enqueue message _ _ delayMs => inferInstanceAs (Decidable (message.priority = .high → delayMs ≤ 0))
  | .readDue .. => inferInstanceAs (Decidable False)
  | .pop _ | .pushDue _ | .removeDue _ => inferInstanceAs (Decidable True)

theorem smooth_of_quiet (s : State) (a : Action) (h : Quiet s a) : Smooth byId s a := by
  cases a with
  | enqueue message _ _ delayMs => exact h
  | readDue scheduler now => exact h.elim
  | pop stage => trivial
  | pushDue scheduler => trivial
  | removeDue scheduler => trivial

def queued : State :=
  enqueue (enqueue {} ⟨message .normal, 1⟩ 0 500) ⟨message .low, 2⟩ 0 0

def promoting : State := queued.setPromotion 0 { due := due byId queued 1 }

def served : List Action :=
  [.pushDue 0, .enqueue (message .high) 3 1 0, .pop .parser, .removeDue 0, .pop .parser]

theorem reach_promoting : (machine byId).ReachIf (Smooth byId) promoting := by
  have hqueued : (machine byId).Run Quiet {} queued := Machine.run_of_execIf
    (show (machine byId).execIf Quiet {} [.enqueue (message .normal) 1 0 500,
      .enqueue (message .low) 2 0 0] = some queued from rfl)
  have hread : (machine byId).step queued (.readDue 0 1) = some promoting := rfl
  have hfree : Smooth byId queued (.readDue 0 1) := fun _ _ _ => List.not_mem_nil
  exact ⟨{}, rfl, (hqueued.mono smooth_of_quiet).tail hfree hread⟩

/-- Two schedulers read an entry before one of them removes it. -/
def overlapping : List Action :=
  [.enqueue (message .normal) 1 0 500, .readDue 0 1, .readDue 1 1, .pushDue 0, .pop .parser,
    .removeDue 0, .pushDue 1, .pop .parser]

def demoted : List Action :=
  [.enqueue (message .high) 1 0 500, .enqueue (message .low) 2 0 0, .readDue 0 1, .pushDue 0,
    .removeDue 0]

end Sample

theorem served_faultless : ∃ s,
    (machine Sample.byId).execIf Sample.Quiet Sample.promoting Sample.served = some s ∧
      s.popped.map (·.queueJobId) = [2, 3] ∧ Faultless s := by
  have hpopped : ((machine Sample.byId).execIf Sample.Quiet Sample.promoting Sample.served).any
      (fun s => s.popped.map (·.queueJobId) = [2, 3]) = true := by decide +kernel
  obtain ⟨s, hs, hids⟩ := (Option.any_eq_true _ _).1 hpopped
  have hrun := (Machine.run_of_execIf hs).mono Sample.smooth_of_quiet
  exact ⟨s, hs, of_decide_eq_true hids, faultless_of_smooth (Sample.reach_promoting.run hrun)⟩

/-- Two schedulers promote one message twice; and a pop returns a lower message while a high one,
which was delayed, waits on the list. -/
theorem twice_and_behind :
    (∃ s, (machine Sample.byId).Reach s ∧ ¬ s.popped.Nodup) ∧
      ∃ s, (machine Sample.byId).Reach s ∧ ∃ e rest high, brpop (s.lists .parser) = some (e, rest) ∧
        e.isHigh = false ∧ high ∈ rest ∧ high.isHigh = true := by
  refine ⟨?_, ?_⟩
  · have htwice : ((machine Sample.byId).exec {} Sample.overlapping).any
        (fun s => !decide s.popped.Nodup) = true := by decide +kernel
    obtain ⟨s, hs, hnot⟩ := (Option.any_eq_true _ _).1 htwice
    exact ⟨s, Machine.reach_of_exec rfl hs, by simpa using hnot⟩
  · have hbehind : ((machine Sample.byId).exec {} Sample.demoted).any (fun s =>
        (brpop (s.lists .parser)).any fun p => !p.1.isHigh && p.2.any (·.isHigh)) = true := by
      decide +kernel
    obtain ⟨s, hs, hpop⟩ := (Option.any_eq_true _ _).1 hbehind
    obtain ⟨⟨e, rest⟩, hpop, hpair⟩ := (Option.any_eq_true _ _).1 hpop
    rw [Bool.and_eq_true, List.any_eq_true] at hpair
    obtain ⟨hlow, high, hmem, hhigh⟩ := hpair
    exact ⟨s, Machine.reach_of_exec rfl hs, e, rest, high, hpop, by simpa using hlow, hmem, hhigh⟩

end RedisList

end Clear

import Clear.Core.Text
import Clear.Lib.Dict
import Clear.Lib.FixedWindow

/-!
# The login bucket

The counters of the login bucket are fixed windows, one for each identity. A client picks its
identity: any bearer token and any `X-Forwarded-For` begins a counter of its own. The limit holds
over all requests of a peer exactly as far as each window holds no more requests than the limit, or
those of one identity (`login_bucket_iff`). Every counter expires.
-/

/-!
## The rate limiter

`RateLimitMiddleware` (`app/core/middleware.py`): a fixed window for each bucket and identity, kept in
Redis. Times are in milliseconds, `digest` is `sha256(token).hexdigest()`.
-/

namespace Clear

/-! ## Redis -/

structure RedisCounter where
  count : Nat
  expiresAt : Option Nat := none
  deriving DecidableEq

/-- The counters that have been written; those that have expired are not read any more. -/
abbrev Redis := String → Option RedisCounter

namespace Redis

def get (redis : Redis) (now : Nat) (key : String) : Option RedisCounter :=
  (redis key).filter fun counter => counter.expiresAt.all (now < ·)

/-- `INCR`, which keeps the expiry. -/
def incr (redis : Redis) (now : Nat) (key : String) : Redis × Nat :=
  match redis.get now key with
  | none => (Function.update redis key (some { count := 1 }), 1)
  | some counter =>
    (Function.update redis key (some { counter with count := counter.count + 1 }),
      counter.count + 1)

/-- `TTL`, in seconds: -2 without a key, -1 without an expiry. -/
def ttl (redis : Redis) (now : Nat) (key : String) : Int :=
  match redis.get now key with
  | none => -2
  | some counter =>
    match counter.expiresAt with
    | none => -1
    | some gone => ((gone - now + 500) / 1000 : Nat)

def expire (redis : Redis) (now : Nat) (key : String) (seconds : Nat) : Redis :=
  Function.update redis key
    ((redis key).map fun counter => { counter with expiresAt := some (now + seconds * 1000) })

end Redis

/-! ## Requests -/

structure HttpRequest where
  path : String
  authorization : Option String := none
  forwardedFor : Option String := none
  realIp : Option String := none
  /-- `request.client.host`, the network peer. -/
  peer : Option String := none
  time : Nat
  deriving DecidableEq

structure RateSettings where
  rateLimitEnabled : Bool := true
  rateLimitDefault : String
  rateLimitLogin : String

def quietPaths : List String := ["/healthz", "/readyz", "/metrics", "/favicon.ico"]

namespace RateLimit

def periods : List (String × Nat) :=
  [("second", 1), ("minute", 60), ("hour", 3600), ("day", 86400)]

/-- `"120/minute"` as `(120, 60)`. -/
def parseRate (spec : String) : Int × Nat :=
  let count := String.ofList (spec.toList.takeWhile (· ≠ '/'))
  let period := String.ofList ((spec.toList.dropWhile (· ≠ '/')).drop 1)
  match Text.toInt? count with
  | none => (120, 60)
  | some n => (n, (periods.lookup (Text.lower (Text.strip period))).getD 60)

example : parseRate "10/minute" = (10, 60) := by decide +kernel

def loginFragments : List String := ["/auth/login", "/auth/refresh", "/auth/oidc"]

def resolveBucket (settings : RateSettings) (r : HttpRequest) : String × Int × Nat :=
  if loginFragments.any (Text.contains · r.path) then
    ("login", parseRate settings.rateLimitLogin)
  else ("default", parseRate settings.rateLimitDefault)

/-- Best-effort client address, honouring the first hop in `X-Forwarded-For`. -/
def clientIp (r : HttpRequest) : String :=
  match r.forwardedFor.filter (· ≠ ""), r.realIp.filter (· ≠ "") with
  | some forwarded, _ => Text.strip (String.ofList (forwarded.toList.takeWhile (· ≠ ',')))
  | none, some realIp => Text.strip realIp
  | none, none => r.peer.getD "unknown"

def identity (digest : String → String) (r : HttpRequest) : String :=
  let auth := r.authorization.getD ""
  if Text.startsWith "Bearer " auth then
    "u:" ++ Text.take 24 (digest (String.ofList (auth.toList.drop 7)))
  else "ip:" ++ clientIp r

/-- `_consume`, while Redis answers: whether the request is admitted, and when to retry. -/
def consume (redis : Redis) (now : Nat) (key : String) (limit : Int) (window : Nat) :
    Redis × Bool × Int :=
  let (counted, count) := redis.incr now key
  let ttl := counted.ttl now key
  let (redis, ttl) :=
    if count = 1 ∨ ttl < 0 then (counted.expire now key window, (window : Int)) else (counted, ttl)
  if limit < count then (redis, false, max ttl 1) else (redis, true, 0)

def dispatch (digest : String → String) (settings : RateSettings) (redis : Redis)
    (r : HttpRequest) : Redis × Bool :=
  if !settings.rateLimitEnabled || quietPaths.contains r.path then (redis, true)
  else
    let (scope, limit, window) := resolveBucket settings r
    let (redis, allowed, _) :=
      consume redis r.time ("ratelimit:" ++ scope ++ ":" ++ identity digest r) limit window
    (redis, allowed)

end RateLimit

end Clear

namespace Clear

namespace RateLimit

open FixedWindow (Table Arrival Hit hit counted live)

/-! ## What is promised -/

structure Handled where
  request : HttpRequest
  opened : Bool
  admitted : Bool
  deriving DecidableEq

variable (digest : String → String) (settings : RateSettings)

def loginKey (r : HttpRequest) : String := "ratelimit:" ++ "login" ++ ":" ++ identity digest r

def serve (redis : Redis) : List HttpRequest → List Handled
  | [] => []
  | r :: requests =>
    { request := r
      opened := (redis.get r.time (loginKey digest r)).isNone
      admitted := (dispatch digest settings redis r).2 } ::
      serve (dispatch digest settings redis r).1 requests

def countersAfter (redis : Redis) (requests : List HttpRequest) : Redis :=
  requests.foldl (fun redis r => (dispatch digest settings redis r).1) redis

def loginLimit : Int := (parseRate settings.rateLimitLogin).1

def loginWindow : Nat := (parseRate settings.rateLimitLogin).2 * 1000

def windowOf (width : Nat) (h : Handled) (rest : List Handled) : List Handled :=
  h :: rest.takeWhile (·.request.time < h.request.time + width)

/-- No window admits more requests than the limit, and every counter expires once the request that
has created it has been handled. -/
structure Contained (requests : List HttpRequest) : Prop where
  bounded : ∀ pre h rest, serve digest settings (fun _ => none) requests = pre ++ h :: rest →
    h.opened = true → (((windowOf (loginWindow settings) h rest).countP (·.admitted) : Nat) : Int) ≤
      loginLimit settings
  expires : ∀ pre rest, requests = pre ++ rest → ∀ key counter,
    countersAfter digest settings (fun _ => none) pre key = some counter →
      counter.expiresAt ≠ none

def OneIdentity (requests : List HttpRequest) : Prop :=
  ∀ pre h rest, serve digest settings (fun _ => none) requests = pre ++ h :: rest →
    h.opened = true →
      (((windowOf (loginWindow settings) h rest).length : Nat) : Int) ≤ loginLimit settings ∨
      loginLimit settings = 0 ∨
      (0 < loginLimit settings ∧
        ∀ g ∈ windowOf (loginWindow settings) h rest, identity digest g.request = identity digest h.request)

def ToLogin (r : HttpRequest) : Prop :=
  loginFragments.any (Text.contains · r.path) = true ∧ quietPaths.contains r.path = false

/-! ## The counters are fixed windows -/

def Sound (redis : Redis) : Prop :=
  ∀ key counter, redis key = some counter → 0 < counter.count ∧ counter.expiresAt ≠ none

def table (redis : Redis) : Table String := fun key =>
  (redis key).map fun counter =>
    { count := counter.count, expires := counter.expiresAt.getD 0 }

def arrival (r : HttpRequest) : Arrival String HttpRequest where
  key := loginKey digest r
  time := r.time
  what := r

variable {digest settings}

theorem sound_empty : Sound fun _ => none := by
  intro key counter h
  cases h

theorem live_table {redis : Redis} (h : Sound redis) (key : String) (now : Nat) :
    live (table redis) key now = (redis.get now key).map fun counter =>
      { count := counter.count, expires := counter.expiresAt.getD 0 } := by
  unfold live table Redis.get
  cases hkey : redis key with
  | none => rfl
  | some counter =>
    obtain ⟨x, hx⟩ := Option.ne_none_iff_exists'.1 (h key counter hkey).2
    simp only [Option.map_some, Option.filter_some, hx, Option.getD_some, Option.all_some]
    split <;> simp [hx]

theorem consume_eq {redis : Redis} (h : Sound redis) (a : Arrival String HttpRequest) (limit : Int)
    (window : Nat) :
    (consume redis a.time a.key limit window).1 = Function.update redis a.key (some
      { count := (counted (window * 1000) (table redis) a).count
        expiresAt := some (counted (window * 1000) (table redis) a).expires }) ∧
    (consume redis a.time a.key limit window).2.1 =
      decide (((counted (window * 1000) (table redis) a).count : Int) ≤ limit) := by
  have hlive := live_table h a.key a.time
  cases hget : redis.get a.time a.key with
  | none =>
    rw [hget] at hlive
    have hcounted : counted (window * 1000) (table redis) a =
        { count := 1, expires := a.time + window * 1000 } := by
      unfold counted
      rw [hlive]
      rfl
    rw [hcounted]
    unfold consume Redis.incr
    simp only [hget, true_or, if_true]
    unfold Redis.expire
    rw [Function.update_self, Function.update_idem]
    split
    next hover => exact ⟨rfl, by simpa using hover⟩
    next hover => exact ⟨rfl, by simpa using hover⟩
  | some counter =>
    rw [hget] at hlive
    unfold Redis.get at hget
    obtain ⟨hkey, halive⟩ := Option.filter_eq_some_iff.1 hget
    obtain ⟨hpos, hset⟩ := h a.key counter hkey
    obtain ⟨x, hx⟩ := Option.ne_none_iff_exists'.1 hset
    have hcounted : counted (window * 1000) (table redis) a =
        { count := counter.count + 1, expires := x } := by
      unfold counted
      rw [hlive]
      simp [hx]
    have hincr : redis.incr a.time a.key =
        (Function.update redis a.key (some { counter with count := counter.count + 1 }),
          counter.count + 1) := by
      unfold Redis.incr Redis.get
      rw [hget]
    have httl : ¬ Redis.ttl (Function.update redis a.key
        (some { counter with count := counter.count + 1 })) a.time a.key < 0 := by
      have hagain : Redis.get (Function.update redis a.key
          (some { counter with count := counter.count + 1 })) a.time a.key =
          some { counter with count := counter.count + 1 } := by
        unfold Redis.get
        rw [Function.update_self, Option.filter_some, if_pos halive]
      unfold Redis.ttl
      rw [hagain]
      simp only [hx]
      omega
    have hone : ¬ counter.count + 1 = 1 := by omega
    rw [hcounted]
    unfold consume
    simp only [hincr, hone, httl, or_self, if_false]
    have hstored : { counter with count := counter.count + 1 } =
        ({ count := counter.count + 1, expiresAt := some x } : RedisCounter) := by rw [hx]
    rw [hstored]
    split
    next hover => exact ⟨rfl, by simpa using hover⟩
    next hover => exact ⟨rfl, by simpa using hover⟩

theorem table_update (redis : Redis) (key : String) (count expires : Nat) :
    table (Function.update redis key (some { count, expiresAt := some expires })) =
      Function.update (table redis) key (some { count, expires }) := by
  funext k
  unfold table
  by_cases hk : k = key
  · subst hk
    rw [Function.update_self, Function.update_self]
    rfl
  · rw [Function.update_of_ne hk, Function.update_of_ne hk]

theorem dispatch_login (digest : String → String) {redis : Redis} (h : Sound redis) (henabled : settings.rateLimitEnabled = true)
    {r : HttpRequest} (hr : ToLogin r) :
    Sound (dispatch digest settings redis r).1 ∧
    table (dispatch digest settings redis r).1 =
      hit (loginWindow settings) (table redis) (arrival digest r) ∧
    (dispatch digest settings redis r).2 =
      decide (((counted (loginWindow settings) (table redis) (arrival digest r)).count : Int) ≤
        loginLimit settings) ∧
    ((redis.get r.time (loginKey digest r)).isNone = true ↔
      (counted (loginWindow settings) (table redis) (arrival digest r)).count = 1) := by
  have hdispatch : dispatch digest settings redis r =
      ((consume redis (arrival digest r).time (arrival digest r).key (loginLimit settings)
          (parseRate settings.rateLimitLogin).2).1,
        (consume redis (arrival digest r).time (arrival digest r).key (loginLimit settings)
          (parseRate settings.rateLimitLogin).2).2.1) := by
    have hbucket : resolveBucket settings r =
        ("login", loginLimit settings, (parseRate settings.rateLimitLogin).2) := by
      unfold resolveBucket loginLimit
      rw [if_pos hr.1, Prod.eta]
    have hloud : (!settings.rateLimitEnabled || quietPaths.contains r.path) = false := by
      rw [henabled, hr.2]
      rfl
    unfold dispatch
    simp only [hloud, hbucket, Bool.false_eq_true, if_false, arrival, loginKey]
  obtain ⟨hredis, hallowed⟩ := consume_eq h (arrival digest r) (loginLimit settings)
    (parseRate settings.rateLimitLogin).2
  unfold loginWindow
  rw [hdispatch]
  dsimp only
  refine ⟨?_, ?_, hallowed, ?_⟩
  · rw [hredis]
    intro key counter hkey
    by_cases hk : key = (arrival digest r).key
    · subst hk
      rw [Function.update_self, Option.some.injEq] at hkey
      subst hkey
      exact ⟨FixedWindow.counted_pos _ _ _, by simp⟩
    · rw [Function.update_of_ne hk] at hkey
      exact h key counter hkey
  · rw [hredis, table_update]
    rfl
  · have hlive := live_table h (arrival digest r).key (arrival digest r).time
    unfold counted
    cases hget : redis.get r.time (loginKey digest r) with
    | none =>
      have hnone : redis.get (arrival digest r).time (arrival digest r).key = none := hget
      rw [hlive, hnone]
      simp
    | some counter =>
      have hsome : redis.get (arrival digest r).time (arrival digest r).key = some counter := hget
      rw [hlive, hsome]
      have hpos := (h _ counter (Option.filter_eq_some_iff.1 hsome).1).1
      simp
      omega

theorem loginWindow_pos (settings : RateSettings) : 0 < loginWindow settings := by
  have hall : periods.all (fun e => 0 < e.2) = true := by decide
  have hpos : 0 < (parseRate settings.rateLimitLogin).2 := by
    unfold parseRate
    dsimp only
    split
    · exact Nat.succ_pos _
    · cases hperiod : periods.lookup _ with
      | none => exact Nat.succ_pos _
      | some seconds =>
        simpa using List.all_eq_true.1 hall _ (Dict.mem_of_lookup hperiod)
  unfold loginWindow
  omega

/-! ## Runs -/

def handled (settings : RateSettings) (h : Hit String HttpRequest) : Handled where
  request := h.arrival.what
  opened := h.count = 1
  admitted := (h.count : Int) ≤ loginLimit settings

theorem serve_eq (digest : String → String) {redis : Redis} (h : Sound redis) (henabled : settings.rateLimitEnabled = true)
    {requests : List HttpRequest} (hall : ∀ r ∈ requests, ToLogin r) :
    serve digest settings redis requests =
      (FixedWindow.run (loginWindow settings) (table redis) (requests.map (arrival digest))).map
        (handled settings) := by
  induction requests generalizing redis with
  | nil => rfl
  | cons r requests ih =>
    obtain ⟨hsound, htable, hallowed, hopened⟩ :=
      dispatch_login digest h henabled (hall r List.mem_cons_self)
    rw [serve, List.map_cons, FixedWindow.run, List.map_cons, ← htable,
      ih hsound fun r' hr' => hall r' (List.mem_cons_of_mem r hr')]
    congr 1
    unfold handled
    rw [hallowed, Bool.eq_iff_iff.2 (hopened.trans decide_eq_true_iff.symm)]
    rfl

theorem sound_after {redis : Redis} (h : Sound redis) (henabled : settings.rateLimitEnabled = true)
    {requests : List HttpRequest} (hall : ∀ r ∈ requests, ToLogin r) :
    Sound (countersAfter digest settings redis requests) := by
  induction requests generalizing redis with
  | nil => exact h
  | cons r requests ih =>
    exact ih (dispatch_login digest h henabled (hall r List.mem_cons_self)).1
      fun r' hr' => hall r' (List.mem_cons_of_mem r hr')

/-! ## The law -/

section

variable {requests : List HttpRequest} {hits : List (Hit String HttpRequest)}

def OfRequests (digest : String → String) (hits : List (Hit String HttpRequest)) : Prop :=
  ∀ h ∈ hits, h.arrival = arrival digest h.arrival.what

theorem ofRequests (digest : String → String) (width : Nat) (requests : List HttpRequest) :
    OfRequests digest
      (FixedWindow.run width (fun _ => none) (requests.map (arrival digest))) := by
  intro h hh
  have hmem : h.arrival ∈ requests.map (arrival digest) := by
    rw [← FixedWindow.run_arrivals width (fun _ => none) (requests.map (arrival digest))]
    exact List.mem_map_of_mem hh
  obtain ⟨r, -, hr⟩ := List.mem_map.1 hmem
  rw [← hr]
  rfl

theorem windowOf_map {width : Nat} {h : Hit String HttpRequest}
    {rest : List (Hit String HttpRequest)} (hof : OfRequests digest (h :: rest)) :
    windowOf width (handled settings h) (rest.map (handled settings)) =
      (FixedWindow.window width h rest).map (handled settings) := by
  have htime : ∀ g ∈ h :: rest, g.arrival.what.time = g.arrival.time := by
    intro g hg
    rw [hof g hg]
    rfl
  have htake : ∀ l : List (Hit String HttpRequest), (∀ g ∈ l, g ∈ h :: rest) →
      (l.map (handled settings)).takeWhile (·.request.time < (handled settings h).request.time + width)
        = (l.takeWhile (·.arrival.time < h.arrival.time + width)).map (handled settings) := by
    intro l hl
    induction l with
    | nil => rfl
    | cons g l ih =>
      have hg : (handled settings g).request.time = g.arrival.time := htime g (hl g List.mem_cons_self)
      have hh : (handled settings h).request.time = h.arrival.time := htime h List.mem_cons_self
      rw [List.map_cons, List.takeWhile_cons, List.takeWhile_cons,
        ih fun g' hg' => hl g' (List.mem_cons_of_mem g hg'), hg, hh]
      split <;> rfl
  unfold windowOf FixedWindow.window
  rw [List.map_cons, htake rest fun g hg => List.mem_cons_of_mem h hg]

theorem countP_handled (l : List (Hit String HttpRequest)) {limit : Nat}
    (hlimit : loginLimit settings = limit) :
    (l.map (handled settings)).countP (·.admitted) = FixedWindow.admitted limit l := by
  unfold FixedWindow.admitted
  rw [List.countP_map]
  refine List.countP_congr fun g _ => ?_
  unfold handled
  simp [hlimit]

theorem forall_windows {width : Nat} (hof : OfRequests digest hits)
    {p : Handled → List Handled → Prop} :
    (∀ pre h rest, hits.map (handled settings) = pre ++ h :: rest → h.opened = true →
      p h (windowOf width h rest)) ↔
    ∀ pre h rest, hits = pre ++ h :: rest → h.count = 1 →
      p (handled settings h) ((FixedWindow.window width h rest).map (handled settings)) := by
  constructor
  · intro hall pre h rest heq hone
    rw [← windowOf_map fun g hg => hof g (heq ▸ List.mem_append_right pre hg)]
    refine hall (pre.map (handled settings)) _ _ ?_ (by simpa [handled] using hone)
    rw [heq, List.map_append, List.map_cons]
  · intro hall pre h rest heq hopened
    obtain ⟨pre', l, hsplit, rfl, hl⟩ := List.map_eq_append_iff.1 heq
    obtain ⟨h', rest', rfl, rfl, rfl⟩ := List.map_eq_cons_iff.1 hl
    rw [windowOf_map fun g hg => hof g (hsplit ▸ List.mem_append_right pre' hg)]
    exact hall pre' h' rest' hsplit (by simpa [handled] using hopened)

end

theorem loginKey_inj {r r' : HttpRequest} :
    loginKey digest r = loginKey digest r' ↔ identity digest r = identity digest r' := by
  unfold loginKey
  constructor
  · intro h
    have := congrArg String.toList h
    simp only [String.toList_append, List.append_cancel_left_eq] at this
    exact String.toList_inj.1 this
  · intro h
    rw [h]

/-- **The login bucket holds exactly as far as each of its windows holds no more requests than the
limit, or the requests of one identity.** -/
theorem login_bucket_iff (digest : String → String) (settings : RateSettings)
    (henabled : settings.rateLimitEnabled = true) (requests : List HttpRequest)
    (hall : ∀ r ∈ requests, ToLogin r) (hsorted : requests.Pairwise (·.time ≤ ·.time)) :
    Contained digest settings requests ↔ OneIdentity digest settings requests := by
  have hexpires : ∀ pre rest, requests = pre ++ rest → ∀ key counter,
      countersAfter digest settings (fun _ => none) pre key = some counter →
        counter.expiresAt ≠ none := by
    intro pre rest heq key counter hcounter
    have hpre : ∀ r ∈ pre, ToLogin r := fun r hr => hall r (heq ▸ List.mem_append_left rest hr)
    exact (sound_after sound_empty henabled hpre key counter hcounter).2
  have hserve := serve_eq digest sound_empty henabled hall
  have hof := ofRequests digest (loginWindow settings) requests
  have hpos := loginWindow_pos settings
  generalize hwidth : loginWindow settings = width at hserve hof hpos
  have hempty : table (fun _ => none) = fun _ => none := rfl
  rw [hempty] at hserve
  refine Iff.trans ⟨Contained.bounded, fun h => ⟨h, hexpires⟩⟩ ?_
  unfold OneIdentity
  rw [hserve, hwidth]
  rw [forall_windows hof (p := fun _ w => ((w.countP (·.admitted) : Nat) : Int) ≤
    loginLimit settings)]
  rw [forall_windows hof (p := fun h w => ((w.length : Nat) : Int) ≤ loginLimit settings ∨
    loginLimit settings = 0 ∨ (0 < loginLimit settings ∧
      ∀ g ∈ w, identity digest g.request = identity digest h.request))]
  by_cases hlimit : 0 < loginLimit settings
  · obtain ⟨n, hn⟩ := Int.eq_ofNat_of_zero_le (Int.le_of_lt hlimit)
    have hn0 : 0 < n := by omega
    have hsorted' : (requests.map (arrival digest)).Pairwise (·.time ≤ ·.time) :=
      List.pairwise_map.2 hsorted
    refine Iff.trans (Iff.trans ?_ (FixedWindow.bounded_iff hpos hn0 hsorted')) ?_
    · refine forall₅_congr fun pre h rest heq hone => ?_
      rw [countP_handled _ hn, hn, Int.ofNat_le]
    · refine forall₅_congr fun pre h rest heq hone => ?_
      have hmem : ∀ g ∈ FixedWindow.window width h rest, g.arrival.key = h.arrival.key ↔
          identity digest (handled settings g).request =
            identity digest (handled settings h).request := by
        intro g hg
        have hg' : g ∈ h :: rest := (FixedWindow.window_sublist h rest).subset hg
        rw [hof g (heq ▸ List.mem_append_right pre hg'),
          hof h (heq ▸ List.mem_append_right pre List.mem_cons_self)]
        exact loginKey_inj
      rw [List.length_map, hn, Int.ofNat_le, List.forall_mem_map]
      refine or_congr_right ?_
      rw [forall₂_congr hmem]
      have hne : n ≠ 0 := by omega
      simp [hne, hn0]
  · -- nothing is admitted
    refine forall₅_congr fun pre h rest heq hone => ?_
    have hnone : ((FixedWindow.window width h rest).map (handled settings)).countP
        (·.admitted) = 0 := by
      rw [List.countP_eq_zero]
      intro g hg
      obtain ⟨x, hx, rfl⟩ := List.mem_map.1 hg
      have hx' : x ∈ h :: rest := (FixedWindow.window_sublist h rest).subset hx
      have := FixedWindow.count_pos (heq ▸ List.mem_append_right pre hx')
      unfold handled
      simp
      omega
    have hlength : 0 < ((FixedWindow.window width h rest).map (handled settings)).length :=
      Nat.succ_pos _
    rw [hnone]
    omega

/-! ## A client that picks its address -/

namespace Sample

def onceAMinute : RateSettings where
  rateLimitDefault := "120/minute"
  rateLimitLogin := "1/minute"

def twoHops : List HttpRequest :=
  [{ path := "/api/v1/auth/login", forwardedFor := some "10.0.0.1", peer := some "203.0.113.9",
     time := 0 },
    { path := "/api/v1/auth/login", forwardedFor := some "10.0.0.2", peer := some "203.0.113.9",
      time := 1 }]

theorem twoHops_toLogin : ∀ r ∈ twoHops, ToLogin r := by
  intro r hr
  have hpath : r.path = "/api/v1/auth/login" := by
    rcases List.mem_cons.1 hr with rfl | hr
    · rfl
    · rw [List.mem_singleton.1 hr]
  unfold ToLogin
  rw [hpath]
  decide +kernel

end Sample

open Sample

theorem login_bucket_iff_sample :
    onceAMinute.rateLimitEnabled = true ∧ (∀ r ∈ twoHops, ToLogin r) ∧
      twoHops.Pairwise (·.time ≤ ·.time) ∧
      (Contained id onceAMinute twoHops ↔ OneIdentity id onceAMinute twoHops) :=
  have hsorted : twoHops.Pairwise (·.time ≤ ·.time) := by decide
  ⟨rfl, twoHops_toLogin, hsorted,
    login_bucket_iff id onceAMinute rfl twoHops twoHops_toLogin hsorted⟩

/-- Both are admitted in the same minute. -/
theorem two_hops_admitted : ¬ Contained id onceAMinute twoHops := by
  intro h
  have hserve : serve id onceAMinute (fun _ => none) twoHops =
      [] ++ ⟨twoHops[0], true, true⟩ :: [⟨twoHops[1], true, true⟩] := by
    decide +kernel
  have := h.bounded [] _ _ hserve rfl
  revert this
  decide +kernel

end RateLimit

end Clear

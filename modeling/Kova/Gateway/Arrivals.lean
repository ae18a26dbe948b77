import Mathlib
import Kova.Gateway.Slots
import Kova.Gateway.Stack

/-!
# Requests one after another, behind the circuit breaker

`serve_all` serves requests in the order they arrive, each at its moment, through the token check,
the rate limiter and the routes. The circuit breaker, which `router::build` puts in front of these
layers, is left out: the sequence is what the breaker lets through (`Kova.Gateway.Turns` puts it
back). The limiter counts a request in the slot of its tier, its identifier and its calendar
minute. Two slots never share a key (`Slot.key_injective`), and a slot's time to live outlasts its
minute, so a request is refused if and only if more requests than the limit have been counted in
its slot (`limited_iff`).
-/

set_option autoImplicit false

namespace Kova.Gateway

open Conc Redis

/-- A request, with the moment in nanoseconds that it arrives at and what becomes of its call to
Redis. -/
structure Arrival where
  time : Nat
  req : HttpRequest
  fault : Fault := .none
  deriving DecidableEq

section

variable (env : Env)

/-- The request served by itself, once the breaker has let it through. -/
def Arrival.serve (db : Db) (a : Arrival) : Option (Except Empty Response × Store) :=
  services.alone 0 { fault := a.fault } (guarded_routes env a.req) ⟨db, a.time⟩

/-- The requests that the breaker lets through, served one after another, each with its
response. -/
def serve_all : Db → List Arrival → List (Arrival × Response)
  | _, [] => []
  | db, a :: as =>
    match a.serve env db with
    | some (.ok response, s) => (a, response) :: serve_all s.redis as
    | _ => []

/-- What the token check makes of a request at a moment in seconds. -/
def authenticated (now : Nat) (req : HttpRequest) : Except Response Request :=
  if is_exempt req.path then .ok { req with user := none }
  else match req.headers.authorization.bind HeaderValue.to_str with
    | none => .error AuthError.MissingHeader.into_response
    | some header =>
      match strip_bearer header with
      | none => .error AuthError.MalformedBearer.into_response
      | some rest =>
        identify { req with user := none } (validate_token (env.parse (trim rest)) env.keys now)

end

/-- The slot that a request is counted in when the limiter sees it. -/
def Request.slot (req : Request) (minute : Nat) : Slot :=
  ⟨RateLimitConfig.tier_for {} req.path, identifier (RateLimitConfig.tier_for {} req.path) req, minute⟩

/-- The request is dispatched to a handler that answers with a 5xx. -/
def Request.fails (req : Request) : Bool :=
  match dispatch req.method req.path with
  | .handler route => route.handler.respond.is_server_error
  | _ => false

/-! ## One request -/

section

variable {env : Env} {t : Nat} {ch : Choice} {s : Store} {seen : Request}

/-- The token check decides by the request and the clock. -/
theorem authenticate_alone (req : HttpRequest)
    (f : Except Response Request → Async Response) :
    services.alone t ch (AuthMiddleware.authenticate env { req with user := none } >>= f) s =
      services.alone t ch (f (authenticated env (s.utc / 1000000000) req)) s := by
  unfold AuthMiddleware.authenticate authenticated
  by_cases hexempt : is_exempt req.path = true
  · rw [if_pos hexempt, if_pos hexempt]
    rfl
  · rw [if_neg hexempt, if_neg hexempt]
    cases req.headers.authorization.bind HeaderValue.to_str with
    | none => rfl
    | some header =>
      simp only
      cases strip_bearer header with
      | none => rfl
      | some rest => rfl

theorem into_response_status (e : AuthError) : e.into_response.status = 401 := by
  cases e <;> rfl

theorem identify_error {req : Request} {checked : Except AuthError KovaClaims} {response : Response}
    (h : identify req checked = .error response) : response.status = 401 := by
  cases checked with
  | error e =>
    cases h
    exact into_response_status e
  | ok claims =>
    simp only [identify] at h
    split at h
    · cases h
      rfl
    · cases h

/-- The token check stops a request with a 401. -/
theorem authenticated_error {now : Nat} {req : HttpRequest} {response : Response}
    (h : authenticated env now req = .error response) : response.status = 401 := by
  unfold authenticated at h
  split at h
  · cases h
  · split at h
    · cases h
      rfl
    · split at h
      · cases h
        rfl
      · exact identify_error h

/-- A response that is not the breaker's 503, and is a 5xx if the request fails and is not
refused by the limiter. -/
structure Behind (fails : Bool) (response : Response) : Prop where
  not_503 : response.status ≠ 503
  server_error : response.is_server_error = (decide (response.status ≠ 429) && fails)

/-- What is neither the limiter's 429 nor the breaker's 503. -/
def Unlimited (r : Option (Except Empty Response × Store)) (s : Store) (fails : Bool) : Prop :=
  ∃ response, r = some (.ok response, s) ∧ Behind fails response ∧ response.status ≠ 429

/-- No handler answers 429 or 503. -/
theorem respond_status (h : Handler) :
    h.respond.status ≠ 503 ∧ h.respond.status ≠ 429 := by
  cases h <;> decide

/-- The routes answer, and leave Redis alone. -/
theorem tracing_alone (t : Nat) (ch : Choice) (s : Store) (seen : Request) :
    Unlimited (services.alone t ch (TracingMiddleware.call endpoint seen) s) s seen.fails := by
  have routed : ∀ id : String, Unlimited (services.alone t ch
      (endpoint seen >>= fun response => .ret { response with x_kova_request_id := some id }) s) s
        seen.fails := by
    intro id
    unfold endpoint Request.fails
    cases dispatch seen.method seen.path with
    | handler route =>
      obtain ⟨hserved, hunlimited⟩ := respond_status route.handler
      refine ⟨_, rfl, ⟨hserved, ?_⟩, hunlimited⟩
      show _ = (decide (route.handler.respond.status ≠ 429) && _)
      rw [decide_eq_true hunlimited, Bool.true_and]
      rfl
    | method_not_allowed => exact ⟨_, rfl, ⟨by simp, rfl⟩, by simp⟩
    | not_found => exact ⟨_, rfl, ⟨by simp, rfl⟩, by simp⟩
  unfold TracingMiddleware.call request_id
  cases seen.headers.x_kova_request_id.bind HeaderValue.to_str with
  | some id => exact routed id
  | none => exact routed ch.uuid.to_string

/-- What a request in a slot leaves in Redis. -/
def left (fault : Fault) (s : Store) (slot : Slot) : Db :=
  if fault = .failed then s.redis
  else (lua_sliding_window s.utc s.redis slot.key slot.tier.limit 61).2

/-- The script refuses a request of the slot. -/
def Refused (fault : Fault) (s : Store) (slot : Slot) : Prop :=
  fault = .none ∧ (lua_sliding_window s.utc s.redis slot.key slot.tier.limit 61).1 = some 0

/-- What becomes of a request after the script's reply. -/
theorem reply_alone (t : Nat) (ch : Choice) (s : Store) (seen : Request) (reply : Option Int) :
    ∃ response, services.alone t ch
        (if reply.getD 1 = 0 then (do
          let now_secs ← utc_now
          pure (ApiError.too_many_requests (60 - now_secs % 60)))
        else TracingMiddleware.call endpoint seen) s = some (.ok response, s) ∧
      Behind seen.fails response ∧ (response.status = 429 ↔ reply = some 0) := by
  by_cases hlimited : reply.getD 1 = 0
  · rw [if_pos hlimited]
    refine ⟨_, rfl, ⟨by simp [ApiError.too_many_requests], rfl⟩, iff_of_true rfl ?_⟩
    cases reply with
    | none => cases hlimited
    | some n => exact congrArg some hlimited
  · rw [if_neg hlimited]
    obtain ⟨response, hresponse, hbehind, hstatus⟩ := tracing_alone t ch s seen
    refine ⟨response, hresponse, hbehind, iff_of_false hstatus ?_⟩
    rintro rfl
    exact hlimited rfl

/-- **The limiter** counts a request in its slot, and refuses it if the script does. -/
theorem rate_limit_alone (t : Nat) (ch : Choice) (s : Store) (hpath : seen.path ≠ "/api/v1/kova/health") :
    ∃ response, services.alone t ch
        (RateLimitMiddleware.call {} (TracingMiddleware.call endpoint) seen) s =
          some (.ok response, { s with redis := left ch.fault s (seen.slot (s.utc / 1000000000 / 60)) }) ∧
      Behind seen.fails response ∧
      (response.status = 429 ↔ Refused ch.fault s (seen.slot (s.utc / 1000000000 / 60))) := by
  have scripted : ∀ (reply : Option Int) (s' : Store),
      services.exec t ch s (.invoke_script (redis_key {} seen (s.utc / 1000000000 / 60))
        (RateLimitConfig.tier_for {} seen.path).limit 61) = some (reply, s') →
      ∃ response, services.alone t ch
        (RateLimitMiddleware.call {} (TracingMiddleware.call endpoint) seen) s =
          some (.ok response, s') ∧ Behind seen.fails response ∧
            (response.status = 429 ↔ reply = some 0) := by
    intro reply s' hexec
    obtain ⟨response, hresponse, hbehind, hstatus⟩ := reply_alone t ch s' seen reply
    refine ⟨response, ?_, hbehind, hstatus⟩
    unfold RateLimitMiddleware.call
    rw [if_neg hpath]
    have hclock : services.exec t ch s .utc_now = some (s.utc / 1000000000, s) := rfl
    exact (Machine.alone_exec hclock).trans ((Machine.alone_exec hexec).trans hresponse)
  cases hfault : ch.fault with
  | none =>
    obtain ⟨response, hresponse, hbehind, hstatus⟩ :=
      scripted _ _ (by simp only [services, exec, hfault]; rfl)
    exact ⟨response, hresponse, hbehind, hstatus.trans (by simp only [Refused, true_and]; rfl)⟩
  | failed =>
    obtain ⟨response, hresponse, hbehind, hstatus⟩ :=
      scripted none s (by simp only [services, exec, hfault]; rfl)
    exact ⟨response, hresponse, hbehind, hstatus.trans (by simp [Refused])⟩
  | lost =>
    obtain ⟨response, hresponse, hbehind, hstatus⟩ :=
      scripted none _ (by simp only [services, exec, hfault]; rfl)
    exact ⟨response, hresponse, hbehind, hstatus.trans (by simp [Refused])⟩

end

/-- The slot that the limiter counts a request in, if it comes to the limiter and is not for
/health. -/
def Arrival.slot (env : Env) (a : Arrival) : Option Slot :=
  match authenticated env (a.time / 1000000000) a.req with
  | .error _ => none
  | .ok seen =>
    if seen.path = "/api/v1/kova/health" then none
    else some (seen.slot (a.time / 1000000000 / 60))

/-- The request comes to a handler that answers with a 5xx, unless the limiter refuses it. -/
def Arrival.fails (env : Env) (a : Arrival) : Bool :=
  match authenticated env (a.time / 1000000000) a.req with
  | .error _ => false
  | .ok seen => seen.fails

/-- The slot of a request is of the minute it arrives in. -/
theorem Arrival.slot_minute {env : Env} {a : Arrival} {slot : Slot} (h : a.slot env = some slot) :
    slot.minute = a.time / 1000000000 / 60 := by
  unfold Arrival.slot at h
  split at h
  · cases h
  · split at h
    · cases h
    · cases h
      rfl

/-- **One request**, served by itself. -/
theorem serve_spec (env : Env) (db : Db) (a : Arrival) :
    ∃ response db', a.serve env db = some (.ok response, ⟨db', a.time⟩) ∧
      Behind (a.fails env) response ∧ ((a.slot env = none ∧ db' = db ∧ response.status ≠ 429) ∨
        ∃ slot, a.slot env = some slot ∧ db' = left a.fault ⟨db, a.time⟩ slot ∧
          (response.status = 429 ↔ Refused a.fault ⟨db, a.time⟩ slot)) := by
  unfold Arrival.serve Arrival.slot Arrival.fails guarded_routes AuthMiddleware.call
  rw [authenticate_alone]
  cases hseen : authenticated env (a.time / 1000000000) a.req with
  | error response =>
    have hunauthorized := authenticated_error hseen
    have hclass : response.is_server_error = false := by
      simp [Response.is_server_error, hunauthorized]
    exact ⟨response, db, rfl, ⟨by omega, by simp [hclass]⟩, .inl ⟨rfl, rfl, by omega⟩⟩
  | ok seen =>
    by_cases hpath : seen.path = "/api/v1/kova/health"
    · obtain ⟨response, hresponse, hbehind, hstatus⟩ :=
        tracing_alone 0 { fault := a.fault } ⟨db, a.time⟩ seen
      refine ⟨response, db, ?_, hbehind, .inl ⟨if_pos hpath, rfl, hstatus⟩⟩
      show services.alone _ _ (RateLimitMiddleware.call {} _ seen) _ = _
      unfold RateLimitMiddleware.call
      rw [if_pos hpath]
      exact hresponse
    · obtain ⟨response, hresponse, hbehind, hstatus⟩ :=
        rate_limit_alone 0 { fault := a.fault } ⟨db, a.time⟩ hpath
      exact ⟨response, _, hresponse, hbehind, .inr ⟨_, if_neg hpath, rfl, hstatus⟩⟩

/-! ## Counting -/

/-- Whether a request adds to the count of the slot. -/
def Arrival.adds (env : Env) (slot : Slot) (a : Arrival) : Bool :=
  a.slot env = some slot && a.fault ≠ .failed

/-- How many requests have been counted in a slot. -/
def load (env : Env) (slot : Slot) (as : List Arrival) : Nat := as.countP (·.adds env slot)

/-- The limiter refuses a request that arrives after others: Redis answers, and the others have
used up the limit of its slot. -/
def limited (env : Env) (before : List Arrival) (a : Arrival) : Bool :=
  a.fault = .none && (a.slot env).any fun slot => slot.tier.limit ≤ load env slot before

/-- **The invariant**: each key holds how many requests have been counted in its slot, until its
minute is over at least. -/
structure Tallies (env : Env) (now : Nat) (before : List Arrival) (db : Db) : Prop where
  unused : ∀ slot, load env slot before = 0 → ∀ later, now ≤ later → db.at later slot.key = none
  used : ∀ slot, 0 < load env slot before →
    ∃ expires, (slot.minute + 1) * 60000000000 ≤ expires ∧
      Holds db now slot.key (load env slot before) expires

section

variable {env : Env} {now : Nat} {before : List Arrival} {db : Db} {a : Arrival} {slot : Slot}

theorem load_snoc (slot : Slot) (before : List Arrival) (a : Arrival) :
    load env slot (before ++ [a]) = load env slot before + if a.adds env slot then 1 else 0 := by
  simp only [load, List.countP_append, List.countP_singleton]

theorem tallies_iff :
    Tallies env now before db ↔ Tally (fun slot => load env slot before) now db :=
  ⟨fun h => ⟨h.unused, h.used⟩, fun h => ⟨h.unused, h.used⟩⟩

theorem Tallies.start (h : Unused db) : Tallies env now [] db :=
  tallies_iff.mpr (Tally.start h fun _ => rfl)

theorem Tallies.later (h : Tallies env now before db) {now' : Nat} (hle : now ≤ now') :
    Tallies env now' before db := tallies_iff.mpr ((tallies_iff.mp h).later hle)

/-- A request that is not counted leaves the tallies alone. -/
theorem Tallies.uncounted (h : Tallies env now before db) (hadds : ∀ slot, a.adds env slot = false) :
    Tallies env now (before ++ [a]) db := by
  have same : (fun slot => load env slot (before ++ [a])) = fun slot => load env slot before := by
    funext slot
    rw [load_snoc, hadds slot]
    rfl
  rw [tallies_iff, same]
  exact tallies_iff.mp h

/-- **The script refuses** a request when its slot's limit has been used up. -/
theorem Tallies.refused_iff (h : Tallies env now before db) (hslot : a.slot env = some slot)
    (hle : now ≤ a.time) :
    Refused a.fault ⟨db, a.time⟩ slot ↔ a.fault = .none ∧ slot.tier.limit ≤ load env slot before := by
  apply and_congr_right
  intro _
  rw [(tallies_iff.mp h).reply (a.slot_minute hslot) hle]
  by_cases hused : slot.tier.limit ≤ load env slot before
  · simp [hused]
  · simp [hused]

/-- **A counted request** makes the tally of its slot one more. -/
theorem Tallies.counts (h : Tallies env now before db) (hslot : a.slot env = some slot)
    (hfault : a.fault ≠ .failed) (hle : now ≤ a.time) :
    Tallies env a.time (before ++ [a])
      (lua_sliding_window a.time db slot.key slot.tier.limit 61).2 := by
  have hadds : ∀ other, a.adds env other = decide (slot = other) := by
    intro other
    simp [Arrival.adds, hslot, hfault]
  refine tallies_iff.mpr ((tallies_iff.mp h).counts (a.slot_minute hslot) hle ?_ ?_ _)
  · rw [load_snoc, hadds slot]
    simp
  · intro other hne
    rw [load_snoc, hadds other]
    simp [hne]

/-- **One request**: refused if its slot's limit has been used up, and counted. -/
theorem Tallies.serve (h : Tallies env now before db) (hle : now ≤ a.time) :
    ∃ response db', a.serve env db = some (.ok response, ⟨db', a.time⟩) ∧
      Behind (a.fails env) response ∧ decide (response.status = 429) = limited env before a ∧
      Tallies env a.time (before ++ [a]) db' := by
  obtain ⟨response, db', hserve, hbehind, ⟨hslot, rfl, hstatus⟩ | ⟨slot, hslot, rfl, hstatus⟩⟩ :=
    serve_spec env db a
  · refine ⟨response, db', hserve, hbehind, ?_, (h.later hle).uncounted ?_⟩
    · simp [limited, hslot, hstatus]
    · intro slot
      simp [Arrival.adds, hslot]
  · refine ⟨response, _, hserve, hbehind, ?_, ?_⟩
    · rw [h.refused_iff hslot hle] at hstatus
      simp [limited, hslot, hstatus]
    · unfold left
      by_cases hfault : a.fault = .failed
      · rw [if_pos hfault]
        apply (h.later hle).uncounted
        intro slot
        simp [Arrival.adds, hfault]
      · rw [if_neg hfault]
        exact h.counts hslot hfault hle

end

/-- The verdicts of the counts on requests that arrive after others. -/
def verdicts (env : Env) : List Arrival → List Arrival → List (Arrival × Bool)
  | _, [] => []
  | before, a :: as => (a, limited env before a) :: verdicts env (before ++ [a]) as

/-- The requests arrive in the order of the list. -/
def InOrder (as : List Arrival) : Prop := as.Pairwise (·.time ≤ ·.time)

/-- **The counting law**: of requests in the order of their arrival, those are refused that find
the limit of their slot used up. -/
theorem limited_iff {env : Env} {now : Nat} : ∀ {as before : List Arrival} {db : Db},
    Tallies env now before db → InOrder as → (∀ a ∈ as, now ≤ a.time) →
      (serve_all env db as).map (fun p => (p.1, decide (p.2.status = 429))) = verdicts env before as
  | [], _, _, _, _, _ => rfl
  | a :: as, before, db, h, hordered, hlate => by
    obtain ⟨response, db', hserve, _, hstatus, htallies⟩ := h.serve (hlate a List.mem_cons_self)
    obtain ⟨hfirst, hrest⟩ := List.pairwise_cons.mp hordered
    simp only [serve_all, hserve, List.map_cons, verdicts, hstatus]
    rw [limited_iff htallies hrest hfirst]

end Kova.Gateway

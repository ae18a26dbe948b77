import Kova.Gateway.Arrivals
import Kova.Gateway.BreakerLaws

/-!
# Requests one after another, through the whole gateway

`reach_all` serves requests in the order they reach the gateway, through `build`, the circuit
breaker in front. Both clocks show the moment a request arrives at; the breaker only ever takes
the difference of two readings, so it does not matter where its clock began. A request that the
breaker turns away leaves everything as it was (`reach_turned_away`), and one that it lets through
is served as behind the breaker (`reach_let_through`). So the limiter sees the requests that are
let through, in their order (`let_through_served`). `meet_all` says from the requests alone what
each one meets: the breaker's state and the requests let through before it; these make the
decision on it (`decided`).
-/

set_option autoImplicit false

namespace Kova.Gateway

open Conc Redis

section

variable {σ I Ch En ε α : Type} {R : I → Type} {M : Machine σ I R Ch En} {t : Nat} {ch : Ch}

/-- What the service does inside the middleware is what it does by itself. -/
theorem inward_alone {p : Prog I R ε Response} {response : Response} {inner : σ}
    (after : Response → Prog (CircuitBreaker.Op I) (CircuitBreaker.Op.Res R) ε α)
    {s : CircuitBreaker.Store σ} (h : M.alone t ch p s.inner = some (.ok response, inner)) :
    (CircuitBreaker.machine M).alone t ch (CircuitBreaker.inward p >>= after) s =
      (CircuitBreaker.machine M).alone t ch (after response) { s with inner } := by
  induction p generalizing s with
  | ret response =>
    cases h
    rfl
  | raise e => cases h
  | await op next ih =>
    obtain ⟨r, inner', hexec, hrest⟩ := Machine.alone_await h
    have houter : (CircuitBreaker.machine M).exec t ch s (.inner op) =
        some (r, { s with inner := inner' }) := by
      show (M.exec t ch s.inner op).map _ = _
      rw [hexec]
      rfl
    exact (Machine.alone_exec houter).trans (ih r hrest)

end

/-- The breaker lets a request through. -/
def lets_through (state : CircuitBreaker.State) (a : Arrival) : Bool :=
  (CircuitBreaker.allow_request a.time state).1

/-- What a response makes of the breaker that has let its request through. -/
def reported (state : CircuitBreaker.State) (a : Arrival) (server_error : Bool) :
    CircuitBreaker.State :=
  if server_error then
    CircuitBreaker.on_failure a.time (CircuitBreaker.allow_request a.time state).2
  else CircuitBreaker.on_success (CircuitBreaker.allow_request a.time state).2

section

variable (env : Env)

/-- The request taken through the gateway by itself. -/
def Arrival.reach (state : CircuitBreaker.State) (db : Db) (a : Arrival) :
    Option (Except Empty Response × GatewayStore) :=
  (CircuitBreaker.machine services).alone 0 { fault := a.fault } (build env a.req)
    ⟨state, a.time, ⟨db, a.time⟩⟩

/-- The requests taken through the gateway one after another, each with its response. -/
def reach_all : CircuitBreaker.State → Db → List Arrival → List (Arrival × Response)
  | _, _, [] => []
  | state, db, a :: as =>
    match a.reach env state db with
    | some (.ok response, s) => (a, response) :: reach_all s.state s.inner.redis as
    | _ => []

end

/-! ## One request -/

section

variable {env : Env} {state : CircuitBreaker.State} {db : Db} {a : Arrival}

/-- A breaker that turns a request away stays as it is. -/
theorem turned_away_state (h : lets_through state a = false) :
    (CircuitBreaker.allow_request a.time state).2 = state := by
  unfold lets_through CircuitBreaker.allow_request at h
  unfold CircuitBreaker.allow_request
  cases state with
  | Closed n => cases h
  | HalfOpen => rfl
  | Open opened_at =>
    by_cases helapsed : CircuitBreaker.OPEN_DURATION ≤ a.time - opened_at
    · simp only [if_pos helapsed] at h
      cases h
    · simp only [if_neg helapsed]

/-- **A request that is turned away** gets the breaker's 503, and changes nothing. -/
theorem reach_turned_away (db : Db) (h : lets_through state a = false) :
    a.reach env state db = some (.ok (ApiError.service_unavailable "kova-gateway"),
      ⟨state, a.time, ⟨db, a.time⟩⟩) := by
  have hcheck : (CircuitBreaker.machine services).exec 0 { fault := a.fault }
      ⟨state, a.time, ⟨db, a.time⟩⟩ .allow_request =
        some (false, ⟨state, a.time, ⟨db, a.time⟩⟩) := by
    show some ((CircuitBreaker.allow_request a.time state).1, _) = _
    rw [show (CircuitBreaker.allow_request a.time state).1 = false from h]
    simp only [turned_away_state h]
  exact Machine.alone_exec hcheck

/-- **A request that is let through** is served as behind the breaker, which is told what became
of it. -/
theorem reach_let_through {db' : Db} {response : Response} (h : lets_through state a = true)
    (hserve : a.serve env db = some (.ok response, ⟨db', a.time⟩)) :
    a.reach env state db =
      some (.ok response, ⟨reported state a response.is_server_error, a.time, ⟨db', a.time⟩⟩) := by
  have hcheck : (CircuitBreaker.machine services).exec 0 { fault := a.fault }
      ⟨state, a.time, ⟨db, a.time⟩⟩ .allow_request =
        some (true, ⟨(CircuitBreaker.allow_request a.time state).2, a.time, ⟨db, a.time⟩⟩) := by
    show some ((CircuitBreaker.allow_request a.time state).1, _) = _
    rw [show (CircuitBreaker.allow_request a.time state).1 = true from h]
  have hinner := inward_alone (M := services) CircuitBreaker.report
    (s := ⟨(CircuitBreaker.allow_request a.time state).2, a.time, ⟨db, a.time⟩⟩) hserve
  refine (Machine.alone_exec hcheck).trans (hinner.trans ?_)
  unfold CircuitBreaker.report reported
  by_cases hclass : response.is_server_error = true
  · rw [if_pos hclass, if_pos hclass]
    rfl
  · rw [if_neg hclass, if_neg hclass]
    rfl

end

/-! ## What each request meets -/

/-- A request that reaches the gateway, the state it finds the breaker in, and the requests that
the breaker has let through before. -/
structure Met where
  state : CircuitBreaker.State
  passed : List Arrival
  arrival : Arrival
  deriving DecidableEq

namespace Met

/-- The breaker lets the request through. -/
def passes (m : Met) : Bool := lets_through m.state m.arrival

/-- The decision that the counts make on a request that is let through, and none on one that is
not. -/
def due (env : Env) (m : Met) : Option Bool :=
  if m.passes then some (limited env m.passed m.arrival) else none

/-- The requests let through so far. -/
def passed_after (m : Met) : List Arrival :=
  if m.passes then m.passed ++ [m.arrival] else m.passed

/-- The state the request leaves the breaker in: a 429 is no failure. -/
def state_after (env : Env) (m : Met) : CircuitBreaker.State :=
  if m.passes then
    reported m.state m.arrival (!limited env m.passed m.arrival && m.arrival.fails env)
  else m.state

end Met

/-- What each of the requests meets, some having been let through before. -/
def meet_all (env : Env) : CircuitBreaker.State → List Arrival → List Arrival → List Met
  | _, _, [] => []
  | state, passed, a :: as =>
    ⟨state, passed, a⟩ :: meet_all env ((⟨state, passed, a⟩ : Met).state_after env)
      (⟨state, passed, a⟩ : Met).passed_after as

/-! ## All requests -/

/-- What the limiter decides on a request, by its response: whether to refuse it, and nothing
where the breaker has turned the request away. -/
def decision (response : Response) : Option Bool :=
  if response.status = 503 then none else some (response.status = 429)

/-- **One request** through the gateway: the limiter decides by the counts if it comes to see the
request, and the counts are right afterwards. -/
theorem Tallies.reach {env : Env} {now : Nat} {db : Db} {m : Met}
    (h : Tallies env now m.passed db) (hle : now ≤ m.arrival.time) :
    ∃ response db', m.arrival.reach env m.state db =
        some (.ok response, ⟨m.state_after env, m.arrival.time, ⟨db', m.arrival.time⟩⟩) ∧
      decision response = m.due env ∧ Tallies env m.arrival.time m.passed_after db' := by
  unfold Met.state_after Met.due Met.passed_after Met.passes
  cases hlets : lets_through m.state m.arrival with
  | false => exact ⟨_, _, reach_turned_away db hlets, rfl, h.later hle⟩
  | true =>
    obtain ⟨response, db', hserve, hbehind, hstatus, htallies⟩ := h.serve hle
    refine ⟨response, db', ?_, ?_, htallies⟩
    · have hclass : response.is_server_error =
          (!limited env m.passed m.arrival && m.arrival.fails env) := by
        rw [hbehind.server_error, decide_not, hstatus]
      rw [reach_let_through hlets hserve, hclass]
      rfl
    · rw [decision, if_neg hbehind.not_503, hstatus]
      rfl

/-- **The decisions** on requests that reach the gateway in order: nothing on those that the
breaker turns away; of the others those are refused that find the limit of their slot used up by
the requests let through before. -/
theorem decided {env : Env} : ∀ {as passed : List Arrival} {db : Db} {state : CircuitBreaker.State}
    {now : Nat}, Tallies env now passed db → InOrder as → (∀ a ∈ as, now ≤ a.time) →
      (reach_all env state db as).map (fun p => (p.1, decision p.2)) =
        (meet_all env state passed as).map fun m => (m.arrival, m.due env)
  | [], _, _, _, _, _, _, _ => rfl
  | a :: as, passed, db, state, now, h, hordered, hlate => by
    obtain ⟨response, db', hreach, hdecision, htallies⟩ :=
      Tallies.reach (m := ⟨state, passed, a⟩) h (hlate a List.mem_cons_self)
    obtain ⟨hfirst, hrest⟩ := List.pairwise_cons.mp hordered
    simp only [reach_all, meet_all, hreach, List.map_cons, hdecision]
    rw [decided htallies hrest hfirst]

/-- **What the limiter sees** are the requests that the breaker lets through, each answered as
behind the breaker. -/
theorem let_through_served (env : Env) : ∀ (as : List Arrival) (db : Db)
    (state : CircuitBreaker.State),
    (reach_all env state db as).filter (fun p => p.2.status ≠ 503) =
      serve_all env db (((reach_all env state db as).filter fun p => p.2.status ≠ 503).map (·.1))
  | [], _, _ => rfl
  | a :: as, db, state => by
    cases hlets : lets_through state a with
    | false =>
      simp only [reach_all, reach_turned_away db hlets, List.filter_cons]
      exact let_through_served env as db state
    | true =>
      obtain ⟨response, db', hserve, hbehind, _⟩ := serve_spec env db a
      simp only [reach_all, reach_let_through hlets hserve, List.filter_cons, ne_eq,
        hbehind.not_503, not_false_eq_true, decide_true, ↓reduceIte, List.map_cons, serve_all,
        hserve]
      exact congrArg (List.cons _) (let_through_served env as db' _)

end Kova.Gateway

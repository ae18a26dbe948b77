import Kova.Gateway.Health
import Kova.Gateway.Mediation
import Kova.Gateway.RateLimitLaws

/-!
# The request identifier

`TracingMiddleware` puts an x-kova-request-id on what the routes answer. It is the innermost of
the four layers, so the answers that the others give short of it carry none: a response is
traceable if and only if its request gets through the circuit breaker, the token check and the
rate limiter (`traceable_iff`).
-/

set_option autoImplicit false

namespace Kova.Gateway

open Conc CircuitBreaker

/-- The identifier that a request brings along, if it can be read. -/
def own_request_id (headers : Headers) : Option String :=
  headers.x_kova_request_id.bind HeaderValue.to_str

/-- The response carries an identifier, the request's own if it brought one. -/
def Traceable (req : HttpRequest) (response : Response) : Prop :=
  ∃ id, response.x_kova_request_id = some id ∧ ∀ own ∈ own_request_id req.headers, id = own

/-- At `now` in seconds the request carries a bearer token that is accepted, of a user. -/
def Authentic (env : Env) (req : HttpRequest) (now : Nat) : Prop :=
  ∃ header rest claims user_id, req.headers.authorization.bind HeaderValue.to_str = some header ∧
    strip_bearer header = some rest ∧
    validate_token (env.parse (trim rest)) env.keys now = .ok claims ∧
    Uuid.parse_str claims.sub = some user_id

/-- The counter has not come to its limit yet. -/
def HasRoom (s : Store) (key : String) (limit : Nat) : Prop :=
  ∀ count : Int, (Redis.run s.utc s.redis (.incr key 1)).1 = some count → count ≤ limit

/-- Request `t` gets through to the routes: admitted by the breaker, exempt or authentic when the
token check reads the clock, and within its limit when the limiter counts it, unless Redis fails. -/
structure GetsThrough (env : Env) (d : GatewayConf) (t : Nat) (req : HttpRequest) : Prop where
  admitted : FindsPassage d t
  authentic : is_exempt req.path = true ∨ ∃ e ∈ d.world.log, e.tid = t ∧ e.op = .inner .utc_now ∧
    Authentic env req (e.pre.inner.utc / 1000000000)
  limited : ∀ e ∈ d.world.log, e.tid = t → ∀ key limit ttl,
    e.op = .inner (.invoke_script key limit ttl) →
      e.did = ⟨.inner (.invoke_script key limit ttl), none⟩ ∨ HasRoom e.pre.inner key limit

/-! ## One request -/

/-- The token check lets the request pass, by what the clock showed. -/
def Passed (env : Env) (req : HttpRequest) (h : List LayerDone) : Prop :=
  is_exempt req.path = true ∨ ∃ now, ⟨.utc_now, now⟩ ∈ h ∧ Authentic env req now

/-- The limiter's script refused the request. -/
def Limited (h : List LayerDone) : Prop :=
  ∃ key limit ttl, (⟨.invoke_script key limit ttl, some 0⟩ : LayerDone) ∈ h

/-- How a request is answered: short of the routes and without an identifier, or by the routes
and with one. -/
def TraceAnswer (env : Env) (req : HttpRequest) (h : List LayerDone) : Except Empty Response → Prop
  | .error _ => False
  | .ok response =>
    (response.x_kova_request_id = none ∧ (¬ Passed env req h ∨ Limited h)) ∨
      (Traceable req response ∧ Passed env req h ∧ ¬ Limited h)

section

variable {env : Env} {req : HttpRequest} {seen : Request} {h : List LayerDone} {x : LayerDone}

theorem Passed.snoc (hpassed : Passed env req h) (x : LayerDone) : Passed env req (h ++ [x]) := by
  rcases hpassed with hexempt | ⟨now, hmem, hauthentic⟩
  · exact .inl hexempt
  · exact .inr ⟨now, List.mem_append_left _ hmem, hauthentic⟩

/-- Only the script's refusal limits a request. -/
theorem limited_snoc (hlimited : Limited (h ++ [x])) :
    Limited h ∨ ∃ key limit ttl, x = ⟨.invoke_script key limit ttl, some 0⟩ := by
  obtain ⟨key, limit, ttl, hmem⟩ := hlimited
  rcases List.mem_append.mp hmem with hmem | hmem
  · exact .inl ⟨key, limit, ttl, hmem⟩
  · exact .inr ⟨key, limit, ttl, (List.mem_singleton.mp hmem).symm⟩

theorem Limited.snoc (hlimited : Limited h) (x : LayerDone) : Limited (h ++ [x]) := by
  obtain ⟨key, limit, ttl, hmem⟩ := hlimited
  exact ⟨key, limit, ttl, List.mem_append_left _ hmem⟩

theorem limited_refusal (h : List LayerDone) (key : String) (limit ttl : Nat) :
    Limited (h ++ [⟨.invoke_script key limit ttl, some 0⟩]) :=
  ⟨key, limit, ttl, List.mem_append_right _ (List.mem_singleton.mpr rfl)⟩

theorem unlimited_snoc (hfree : ¬ Limited h)
    (hx : ∀ key limit ttl, x ≠ ⟨.invoke_script key limit ttl, some 0⟩) : ¬ Limited (h ++ [x]) := by
  intro hlimited
  rcases limited_snoc hlimited with hlimited | ⟨key, limit, ttl, rfl⟩
  · exact hfree hlimited
  · exact hx key limit ttl rfl

/-- No limit has been reached before the limiter is asked. -/
theorem unlimited_nil : ¬ Limited [] := by
  rintro ⟨key, limit, ttl, hmem⟩
  cases hmem

theorem unlimited_clock (hfree : ¬ Limited h) (now : Nat) : ¬ Limited (h ++ [⟨.utc_now, now⟩]) := by
  apply unlimited_snoc hfree
  intro key limit ttl hx
  cases hx

/-- What the routes answer, with the identifier put on it. -/
theorem endpoint_traceable (hpassed : Passed env req h) (hfree : ¬ Limited h) {id : String}
    (hid : ∀ own ∈ own_request_id req.headers, id = own) :
    Guarded (fun _ _ => True) (TraceAnswer env req)
      (endpoint seen >>= fun response => .ret { response with x_kova_request_id := some id }) h := by
  have carries : ∀ {h : List LayerDone} (response : Response), Passed env req h → ¬ Limited h →
      TraceAnswer env req h (.ok { response with x_kova_request_id := some id }) := by
    intro h response hpassed hfree
    exact .inr ⟨⟨id, rfl, hid⟩, hpassed, hfree⟩
  unfold endpoint
  cases dispatch seen.method seen.path with
  | handler route =>
    refine ⟨trivial, ?_⟩
    intro response
    apply carries response (hpassed.snoc _)
    apply unlimited_snoc hfree
    intro key limit ttl hx
    cases hx
  | method_not_allowed => exact carries _ hpassed hfree
  | not_found => exact carries _ hpassed hfree

/-- **The tracing layer** makes every answer below it traceable. -/
theorem tracing_traceable (hseen : seen.toHttpRequest = req) (hpassed : Passed env req h)
    (hfree : ¬ Limited h) :
    Guarded (fun _ _ => True) (TraceAnswer env req) (TracingMiddleware.call endpoint seen) h := by
  subst hseen
  unfold TracingMiddleware.call request_id
  cases hown : seen.headers.x_kova_request_id.bind HeaderValue.to_str with
  | some id =>
    apply endpoint_traceable hpassed hfree
    intro own howned
    rw [own_request_id, hown] at howned
    exact Option.some.inj howned
  | none =>
    refine ⟨trivial, ?_⟩
    intro id
    apply endpoint_traceable (hpassed.snoc _)
    · apply unlimited_snoc hfree
      intro key limit ttl hx
      cases hx
    · intro own howned
      rw [own_request_id, hown] at howned
      cases howned

/-- The rate limiter's 429 carries no identifier. -/
theorem rate_limit_traceable (hseen : seen.toHttpRequest = req) (hpassed : Passed env req h)
    (hfree : ¬ Limited h) :
    Guarded (fun _ _ => True) (TraceAnswer env req)
      (RateLimitMiddleware.call {} (TracingMiddleware.call endpoint) seen) h := by
  unfold RateLimitMiddleware.call
  by_cases hhealth : seen.path = "/api/v1/kova/health"
  · rw [if_pos hhealth]
    exact tracing_traceable hseen hpassed hfree
  · rw [if_neg hhealth]
    refine ⟨trivial, ?_⟩
    intro now
    refine ⟨trivial, ?_⟩
    intro reply
    have hnow := unlimited_clock hfree now
    show Guarded _ _ (if (reply.getD 1 = 0) then _ else _) _
    by_cases hlimited : reply.getD 1 = 0
    · rw [if_pos hlimited]
      have hreply : reply = some 0 := by
        cases reply with
        | none => cases hlimited
        | some n => exact congrArg some hlimited
      subst hreply
      refine ⟨trivial, ?_⟩
      intro now_secs
      exact .inl ⟨rfl, .inr ((limited_refusal _ _ _ _).snoc _)⟩
    · rw [if_neg hlimited]
      apply tracing_traceable hseen ((hpassed.snoc _).snoc _)
      apply unlimited_snoc hnow
      intro key limit ttl hx
      cases hx
      exact hlimited rfl

/-- What the token check makes of a bearer token: a 401 without an identifier, or the request. -/
theorem identify_authentic {header : String} {rest : List Char}
    (hheader : req.headers.authorization.bind HeaderValue.to_str = some header)
    (hbearer : strip_bearer header = some rest) (now : Nat) :
    (∃ response, identify { req with user := none }
        (validate_token (env.parse (trim rest)) env.keys now) = .error response ∧
        response.x_kova_request_id = none ∧ ¬ Authentic env req now) ∨
      ∃ seen : Request, identify { req with user := none }
        (validate_token (env.parse (trim rest)) env.keys now) = .ok seen ∧
        seen.toHttpRequest = req ∧ Authentic env req now := by
  have same : ∀ {header' rest'}, req.headers.authorization.bind HeaderValue.to_str = some header' →
      strip_bearer header' = some rest' → rest' = rest := by
    intro header' rest' hheader' hbearer'
    rw [hheader, Option.some.injEq] at hheader'
    rw [← hheader', hbearer, Option.some.injEq] at hbearer'
    exact hbearer'.symm
  cases hvalid : validate_token (env.parse (trim rest)) env.keys now with
  | error e =>
    refine .inl ⟨e.into_response, rfl, by cases e <;> rfl, ?_⟩
    rintro ⟨header', rest', claims, user_id, hheader', hbearer', hvalid', _⟩
    rw [same hheader' hbearer', hvalid] at hvalid'
    cases hvalid'
  | ok claims =>
    cases huser : Uuid.parse_str claims.sub with
    | none =>
      refine .inl ⟨AuthError.Invalid.into_response, by simp only [identify, huser], rfl, ?_⟩
      rintro ⟨header', rest', claims', user_id, hheader', hbearer', hvalid', huser'⟩
      rw [same hheader' hbearer', hvalid, Except.ok.injEq] at hvalid'
      rw [← hvalid', huser] at huser'
      cases huser'
    | some user_id =>
      refine .inr ⟨_, by simp only [identify, huser]; rfl, rfl, ?_⟩
      exact ⟨header, rest, claims, user_id, hheader, hbearer, hvalid, huser⟩

/-- The token check's 401 carries no identifier. -/
theorem authenticate_traceable (env : Env) (req : HttpRequest) :
    Guarded (fun _ _ => True)
      (fun h (r : Except Empty (Except Response Request)) => ¬ Limited h ∧
        ((∃ response, r = .ok (.error response) ∧ response.x_kova_request_id = none ∧
            ¬ Passed env req h) ∨
          ∃ seen : Request, r = .ok (.ok seen) ∧ seen.toHttpRequest = req ∧ Passed env req h))
      (AuthMiddleware.authenticate env { req with user := none }) [] := by
  unfold AuthMiddleware.authenticate
  by_cases hexempt : is_exempt req.path = true
  · rw [if_pos hexempt]
    exact ⟨unlimited_nil, .inr ⟨_, rfl, rfl, .inl hexempt⟩⟩
  · rw [if_neg hexempt]
    have unread : ¬ Passed env req [] := by
      rintro (hpath | ⟨now, hmem, _⟩)
      · exact hexempt hpath
      · cases hmem
    cases hheader : req.headers.authorization.bind HeaderValue.to_str with
    | none => exact ⟨unlimited_nil, .inl ⟨_, rfl, rfl, unread⟩⟩
    | some header =>
      simp only
      cases hbearer : strip_bearer header with
      | none => exact ⟨unlimited_nil, .inl ⟨_, rfl, rfl, unread⟩⟩
      | some rest =>
        refine ⟨trivial, ?_⟩
        intro now
        refine ⟨unlimited_clock unlimited_nil now, ?_⟩
        rcases identify_authentic hheader hbearer now with
          ⟨response, hidentify, hbare, hforged⟩ | ⟨seen, hidentify, hseen, hauthentic⟩
        · refine .inl ⟨response, congrArg Except.ok hidentify, hbare, ?_⟩
          rintro (hpath | ⟨now', hmem, hauthentic⟩)
          · exact hexempt hpath
          · cases List.mem_singleton.mp hmem
            exact hforged hauthentic
        · refine .inr ⟨seen, congrArg Except.ok hidentify, hseen, .inr ⟨now, ?_, hauthentic⟩⟩
          exact List.mem_singleton.mpr rfl

/-- **The layers of one request** answer with an identifier if it comes to the routes. -/
theorem guarded_routes_traceable (env : Env) (req : HttpRequest) :
    Guarded (fun _ _ => True) (TraceAnswer env req) (guarded_routes env req) [] := by
  refine Guarded.bind ?_ ?_ (authenticate_traceable env req)
  · intro h e
    exact e.elim
  · rintro h r ⟨hfree, ⟨response, hr, hbare, hforged⟩ | ⟨seen, hr, hseen, hpassed⟩⟩
    · cases hr
      exact .inl ⟨hbare, .inl hforged⟩
    · cases hr
      exact rate_limit_traceable hseen hpassed hfree

end

/-! ## Every run -/

section

variable {env : Env} {c : GatewayStore} {ls : List GatewayLabel} {d : GatewayConf} {t : Nat}

/-- Room by what the key holds. -/
theorem hasRoom_iff {s : Store} {key : String} {limit : Nat} :
    HasRoom s key limit ↔ ∀ count, Redis.counted (s.redis.at s.utc key) = some count → count ≤ limit := by
  rw [← Redis.run_incr]
  exact Iff.rfl

/-- When the script refuses: it has an answer, and counts beyond the limit. -/
theorem script_refuses_iff {ch : Choice} {s s' : Store} {key : String} {limit ttl : Nat}
    {reply : Option Int} (h : exec ch s (.invoke_script key limit ttl) = some (reply, s')) :
    reply = some 0 ↔ ¬ (reply = none ∨ HasRoom s key limit) := by
  have answered : ∀ {reply : Option Int}, (lua_sliding_window s.utc s.redis key limit ttl).1 = reply →
      (reply = some 0 ↔ ¬ (reply = none ∨ HasRoom s key limit)) := by
    rintro reply rfl
    rw [script_reply, hasRoom_iff]
    cases Redis.counted (s.redis.at s.utc key) with
    | none => simp
    | some count =>
      by_cases hover : (limit : Int) < count
      · simp [verdict, hover]
      · simp [verdict, hover, Int.not_lt.mp hover]
  simp only [exec] at h
  split at h
  · exact answered (congrArg Prod.fst (Option.some.inj h))
  · have hreply := congrArg Prod.fst (Option.some.inj h)
    subst hreply
    simp
  · have hreply := congrArg Prod.fst (Option.some.inj h)
    subst hreply
    simp

/-- The token check's clock readings, in the log. -/
theorem passed_iff (h : GatewayRun env (.init c) ls d) (req : HttpRequest) :
    Passed env req (served (history t d.world.log)) ↔
      (is_exempt req.path = true ∨ ∃ e ∈ d.world.log, e.tid = t ∧ e.op = .inner .utc_now ∧
        Authentic env req (e.pre.inner.utc / 1000000000)) := by
  apply or_congr_right
  constructor
  · rintro ⟨now, hmem, hauthentic⟩
    obtain ⟨e, he, htid, hdid⟩ := mem_history.mp (mem_served.mp hmem)
    obtain ⟨_, _, _, hexec⟩ := h.did he hdid
    have hclock : some (e.pre.inner.utc / 1000000000) = some now :=
      congrArg (Option.map Prod.fst) hexec
    rw [Option.some.injEq] at hclock
    exact ⟨e, he, htid, congrArg Done.op hdid, hclock ▸ hauthentic⟩
  · rintro ⟨⟨tid, r, op, pre, res, post⟩, he, rfl, rfl, hauthentic⟩
    obtain ⟨_, _, _, hexec⟩ := h.executed he
    have hclock : some (pre.inner.utc / 1000000000) = some res :=
      congrArg (Option.map Prod.fst) hexec
    cases hclock
    exact ⟨_, mem_served.mpr (mem_history.mpr ⟨_, he, rfl, rfl⟩), hauthentic⟩

/-- The script's refusals, in the log. -/
theorem unlimited_iff (h : GatewayRun env (.init c) ls d) :
    ¬ Limited (served (history t d.world.log)) ↔
      ∀ e ∈ d.world.log, e.tid = t → ∀ key limit ttl, e.op = .inner (.invoke_script key limit ttl) →
        e.did = ⟨.inner (.invoke_script key limit ttl), none⟩ ∨ HasRoom e.pre.inner key limit := by
  have refuses : ∀ e ∈ d.world.log, ∀ key limit ttl,
      ∀ reply : Option Int, e.did = ⟨.inner (.invoke_script key limit ttl), reply⟩ →
        (reply = some 0 ↔ ¬ (reply = none ∨ HasRoom e.pre.inner key limit)) := by
    intro e he key limit ttl reply hdid
    obtain ⟨_, ch, _, hexec⟩ := h.did he hdid
    obtain ⟨⟨x, inner⟩, hinner, hx⟩ := Option.map_eq_some_iff.mp hexec
    obtain rfl : x = reply := congrArg Prod.fst hx
    exact script_refuses_iff hinner
  constructor
  · intro hfree e he htid key limit ttl hop
    obtain ⟨tid, req, op, pre, res, post⟩ := e
    cases hop
    by_contra hroom
    apply hfree
    have hreply : res = some 0 := by
      apply (refuses _ he key limit ttl res rfl).mpr
      intro hor
      apply hroom
      rcases hor with rfl | hor
      · exact .inl rfl
      · exact .inr hor
    exact ⟨key, limit, ttl, mem_served.mpr (mem_history.mpr ⟨_, he, htid, hreply ▸ rfl⟩)⟩
  · rintro hroom ⟨key, limit, ttl, hmem⟩
    obtain ⟨e, he, htid, hdid⟩ := mem_history.mp (mem_served.mp hmem)
    apply (refuses e he key limit ttl (some 0) hdid).mp rfl
    rcases hroom e he htid key limit ttl (congrArg Done.op hdid) with hnone | hroom
    · rw [hdid] at hnone
      cases hnone
    · exact .inr hroom

end

/-- **Traceable**: from any state of the breaker and the limiter, in every run, a response
carries an identifier, the request's own if it brought one, if and only if its request gets
through to the routes. -/
theorem traceable_iff (env : Env) (c : GatewayStore) (ls : List GatewayLabel) (d : GatewayConf)
    (h : GatewayRun env (.init c) ls d) (t : Nat) (req : HttpRequest) (response : Response)
    (hreturned : d.returned t req (.ok response)) :
    Traceable req response ↔ GetsThrough env d t req := by
  have hanswer := h.answer (G := fun req => within fun _ _ => True)
    (Q := fun req => AnsweredWithin "kova-gateway" (TraceAnswer env req))
    (fun req => call_answers (guarded_routes_traceable env req)) hreturned
  have bare : ∀ {response : Response}, response.x_kova_request_id = none →
      ¬ Traceable req response := by
    rintro response hnone ⟨id, hid, _⟩
    rw [hnone] at hid
    cases hid
  rcases hanswer with ⟨hrefused, hresponse⟩ | ⟨hadmitted, hanswer⟩
  · cases hresponse
    apply iff_of_false (bare rfl)
    intro hthrough
    exact (passage_iff h).mp hthrough.admitted hrefused
  · rcases hanswer with ⟨hnone, hshort⟩ | ⟨htraceable, hpassed, hfree⟩
    · apply iff_of_false (bare hnone)
      intro hthrough
      rcases hshort with hforged | hlimited
      · exact hforged ((passed_iff h req).mpr hthrough.authentic)
      · exact (unlimited_iff h).mpr hthrough.limited hlimited
    · apply iff_of_true htraceable
      exact ⟨(passage_iff h).mpr hadmitted, (passed_iff h req).mp hpassed,
        (unlimited_iff h).mp hfree⟩

/-! ## Two requests -/

/-- The registration of the sample, with an identifier. -/
def traced_registration : HttpRequest :=
  { registration with headers := { x_kova_request_id := some (.text "r") } }

/-- Whether request `t` was answered, and found the circuit closed and Redis down. -/
def undisturbed (t : Nat) (d : GatewayConf) : Bool :=
  answered_with d t 501 && d.world.log.all fun e : GatewayEvent =>
    decide (e.pre.state = .Closed 0) && match e with
      | ⟨_, _, .inner (.invoke_script _ _ _), _, some _, _⟩ => false
      | _ => true

/-- A registration that comes to its route is answered with its own identifier. -/
theorem traceable_registration : ∃ (d : GatewayConf) (response : Response),
    GatewayRun no_keys (start 0 {}) (request 0 traced_registration 5) d ∧
      d.returned 0 traced_registration (.ok response) ∧
        Traceable traced_registration response := by
  obtain ⟨run, checked⟩ := replayed_spec (CircuitBreaker.machine services)
    (CircuitBreaker.call "kova-gateway" (guarded_routes no_keys)) (start 0 {})
    (request 0 traced_registration 5)
    (fun d => decide (d.pool[0]?.map (·.req) = some traced_registration) && undisturbed 0 d)
    (by decide +kernel)
  obtain ⟨hreq, hundisturbed⟩ := Bool.and_eq_true_iff.mp checked
  obtain ⟨hanswered, hlog⟩ := Bool.and_eq_true_iff.mp hundisturbed
  obtain ⟨req, response, hreturned, _⟩ := answered_with_sound hanswered
  obtain rfl : req = traced_registration := by
    obtain ⟨call, hcall, rfl, _⟩ := hreturned
    have hsame := of_decide_eq_true hreq
    rw [hcall] at hsame
    exact Option.some.inj hsame
  refine ⟨_, response, run, hreturned, ?_⟩
  apply (traceable_iff no_keys ⟨.init, 0, {}⟩ _ _ run 0 _ response hreturned).mpr
  refine ⟨?_, .inl (by decide +kernel), ?_⟩
  · intro e he _ _
    have hclosed := (Bool.and_eq_true_iff.mp (List.all_eq_true.mp hlog e he)).1
    exact .inl ⟨0, of_decide_eq_true hclosed⟩
  · rintro ⟨tid, req, op, pre, res, post⟩ he _ key limit ttl hop
    have hreply := (Bool.and_eq_true_iff.mp (List.all_eq_true.mp hlog _ he)).2
    cases hop
    cases res with
    | none => exact .inl rfl
    | some n => cases hreply

/-- Whether request `t` was answered without an identifier, computed. -/
def untraced (d : GatewayConf) (t : Nat) : Bool :=
  (d.result? t).any fun
    | .ok response => response.x_kova_request_id = none
    | .error _ => false

/-- A 401 carries no identifier. -/
theorem unauthorized_untraced :
    ¬ ∀ (env : Env) (instant : Nat) (s : Store) (ls : List GatewayLabel) (d : GatewayConf),
      GatewayRun env (start instant s) ls d → ∀ t req response,
        d.returned t req (.ok response) → Traceable req response := by
  intro claim
  obtain ⟨run, checked⟩ := replayed_spec (CircuitBreaker.machine services)
    (CircuitBreaker.call "kova-gateway" (guarded_routes no_keys)) (start 0 {}) (request 0 no_token 2)
    (untraced · 0) (by decide +kernel)
  obtain ⟨r, hr, hbare⟩ := (Option.any_eq_true _ _).mp checked
  cases r with
  | error e => cases hbare
  | ok response =>
    obtain ⟨req, hreturned⟩ := returned_of_result hr
    obtain ⟨id, hid, _⟩ := claim no_keys 0 {} _ _ run 0 req response hreturned
    rw [of_decide_eq_true hbare] at hid
    cases hid

end Kova.Gateway

import Kova.Conc.Serial
import Kova.Gateway.Frame

/-!
# The health probe

The token check and the rate limiter let /health through by its path; the circuit breaker does
not look at the path. So a probe is answered by `health_check` exactly when the circuit admits it
(`health_answered_iff`), and gets a 503 while other routes' failures keep the circuit open.
-/

set_option autoImplicit false

namespace Kova.Gateway

open Conc CircuitBreaker

/-- GET /api/v1/kova/health, with any headers. -/
def IsProbe (req : HttpRequest) : Prop := req.method = .GET ∧ req.path = "/api/v1/kova/health"

instance (req : HttpRequest) : Decidable (IsProbe req) := inferInstanceAs (Decidable (_ ∧ _))

/-- The route of `health_check`. -/
def health_route : Route := route "/health" .GET .health_check

/-- Request `t` reached `health_check` and was answered with 200. -/
structure Healthy (d : GatewayConf) (t : Nat) : Prop where
  answer : ∃ req response, d.returned t req (.ok response) ∧ response.status = 200
  handled : ∃ e ∈ d.world.log, e.tid = t ∧ ∃ req, e.op = .inner (.handler health_route req)

/-- When request `t` asks for admission the circuit is closed, or has been open for 30 seconds. -/
def FindsPassage (d : GatewayConf) (t : Nat) : Prop :=
  ∀ e ∈ d.world.log, e.tid = t → e.op = .allow_request →
    (∃ n, e.pre.state = .Closed n) ∨ ∃ f, e.pre.state = .Open f ∧ f + OPEN_DURATION ≤ e.pre.instant

/-- One executed operation of a request to the gateway. -/
abbrev GatewayDone := Done (CircuitBreaker.Op Op) (CircuitBreaker.Op.Res Op.Res)

/-- How a probe is answered: refused, or with what `health_check` says. -/
def ProbeAnswer (h : List GatewayDone) : Except Empty Response → Prop
  | .error _ => False
  | .ok response =>
    (h = [⟨.allow_request, false⟩] ∧ response = ApiError.service_unavailable "kova-gateway") ∨
      (⟨.allow_request, false⟩ ∉ h ∧ ∃ req said, ⟨.inner (.handler health_route req), said⟩ ∈ h ∧
        response.status = said.status)

/-- The router sends a probe to `health_check`. -/
theorem dispatch_probe : dispatch .GET "/api/v1/kova/health" = .handler health_route := by
  decide +kernel

/-- The token check and the rate limiter let a probe through. -/
theorem guarded_routes_probe (env : Env) (headers : Headers) :
    guarded_routes env ⟨.GET, "/api/v1/kova/health", headers⟩ =
      TracingMiddleware.call endpoint ⟨⟨.GET, "/api/v1/kova/health", headers⟩, none⟩ := by
  have hexempt : is_exempt "/api/v1/kova/health" = true := rfl
  simp only [guarded_routes, AuthMiddleware.call, AuthMiddleware.authenticate, hexempt,
    RateLimitMiddleware.call, ↓reduceIte, Prog.ret_bind]

/-- Reporting a response of `health_check`. -/
theorem report_probe {h : List GatewayDone} {req : Request} (said : Response)
    {response : Response}
    (hlength : h.length < 4) (admitted : ⟨.allow_request, false⟩ ∉ h)
    (hsaid : ⟨.inner (.handler health_route req), said⟩ ∈ h)
    (hstatus : response.status = said.status) :
    Guarded (fun h _ => h.length < 4) ProbeAnswer (report response) h := by
  have answers : ∀ x : GatewayDone, x.op ≠ .allow_request → ProbeAnswer (h ++ [x]) (.ok response) := by
    intro x hx
    exact .inr ⟨admitted_snoc admitted hx, req, said, List.mem_append_left _ hsaid, hstatus⟩
  unfold report
  by_cases hclass : response.is_server_error = true
  · rw [if_pos hclass]
    refine ⟨hlength, ?_⟩
    intro r
    exact answers ⟨.on_failure, r⟩ (by simp)
  · rw [if_neg hclass]
    refine ⟨hlength, ?_⟩
    intro r
    exact answers ⟨.on_success, r⟩ (by simp)

/-- **A probe** takes at most four operations and is refused or answered by `health_check`. -/
theorem probe_guarded (env : Env) (req : HttpRequest) (hreq : IsProbe req) :
    Guarded (fun h _ => h.length < 4) ProbeAnswer (build env req) [] := by
  obtain ⟨method, path, headers⟩ := req
  obtain ⟨rfl, rfl⟩ := hreq
  refine ⟨by simp, ?_⟩
  intro ok
  cases ok with
  | false => exact .inl ⟨rfl, rfl⟩
  | true =>
    show Guarded _ _ (inward (guarded_routes env _) >>= report) _
    rw [guarded_routes_probe]
    unfold TracingMiddleware.call request_id endpoint
    rw [dispatch_probe]
    cases headers.x_kova_request_id.bind HeaderValue.to_str with
    | some id =>
      refine ⟨by simp, ?_⟩
      intro said
      exact report_probe said (by simp) (admitted_snoc admitted_first (by simp))
        (List.mem_append_right _ (List.mem_singleton.mpr rfl)) rfl
    | none =>
      refine ⟨by simp, ?_⟩
      intro id
      refine ⟨by simp, ?_⟩
      intro said
      exact report_probe said (by simp)
        (admitted_snoc (admitted_snoc admitted_first (by simp)) (by simp))
        (List.mem_append_right _ (List.mem_singleton.mpr rfl)) rfl

/-- Each operation of the gateway can be executed. -/
theorem exec_total (t : Nat) (ch : Choice) (s : GatewayStore) (op : CircuitBreaker.Op Op) :
    ∃ r s', CircuitBreaker.exec services t ch s op = some (r, s') := by
  cases op with
  | allow_request => exact ⟨_, _, rfl⟩
  | on_success => exact ⟨_, _, rfl⟩
  | on_failure => exact ⟨_, _, rfl⟩
  | inner op =>
    cases op with
    | utc_now => exact ⟨_, _, rfl⟩
    | now_v7 => exact ⟨_, _, rfl⟩
    | invoke_script key limit ttl =>
      cases hfault : ch.fault <;>
        exact ⟨_, _, by simp only [CircuitBreaker.exec, services, exec, hfault]; rfl⟩
    | handler route req => exact ⟨_, _, rfl⟩

/-- What a probe's requests obey: nothing is said of other requests. -/
theorem bodies_guarded (env : Env) (req : HttpRequest) :
    Guarded (fun h _ => IsProbe req → h.length < 4) (fun h r => IsProbe req → ProbeAnswer h r)
      (build env req) [] := by
  by_cases hreq : IsProbe req
  · apply (probe_guarded env req hreq).mono
    · intro h op hlength _
      exact hlength
    · intro h r hanswer _
      exact hanswer
  · apply (call_guarded (guarded_routes env) req).mono (Q := Answers "kova-gateway")
    · intro h op _ hprobe
      exact absurd hprobe hreq
    · intro h r _ hprobe
      exact absurd hprobe hreq

/-- What finds passage is admitted, from any state of the breaker. -/
theorem passage_iff {env : Env} {c : GatewayStore} {ls : List GatewayLabel} {d : GatewayConf}
    {t : Nat} (h : GatewayRun env (.init c) ls d) :
    FindsPassage d t ↔ (⟨.allow_request, false⟩ : GatewayDone) ∉ history t d.world.log := by
  have hadmits : ∀ e ∈ d.world.log, e.op = .allow_request →
      (Admits e ↔ (∃ n, e.pre.state = .Closed n) ∨
        ∃ f, e.pre.state = .Open f ∧ f + OPEN_DURATION ≤ e.pre.instant) := by
    intro e he hop
    obtain ⟨_, _, _, hexec⟩ := h.executed he
    exact Effect.admits_iff (e := e) (exec_effect hexec) hop
  constructor
  · intro hpassage hmem
    obtain ⟨e, he, htid, hdid⟩ := mem_history.mp hmem
    have hrefuses : Refuses e := hdid
    exact hrefuses.not_admits
      ((hadmits e he hrefuses.op_eq).mpr (hpassage e he htid hrefuses.op_eq))
  · intro admitted e he htid hop
    rcases admits_or_refuses hop with ha | hrefuses
    · exact (hadmits e he hop).mp ha
    · exact absurd (mem_history.mpr ⟨e, he, htid, hrefuses⟩) admitted

/-- A probe's answer is a 200 if it was admitted. -/
theorem healthy_iff {env : Env} {instant : Nat} {s : Store} {ls : List GatewayLabel}
    {d : GatewayConf} (h : GatewayRun env (start instant s) ls d) {t : Nat} {req : HttpRequest}
    {response : Response} (hreturned : d.returned t req (.ok response))
    (hanswer : ProbeAnswer (history t d.world.log) (.ok response)) :
    Healthy d t ↔ (⟨.allow_request, false⟩ : GatewayDone) ∉ history t d.world.log := by
  rcases hanswer with ⟨hhist, rfl⟩ | ⟨admitted, req', said, hsaid, hstatus⟩
  · apply iff_of_false
    · rintro ⟨⟨req', response, ⟨call', hcall', _, hres'⟩, hok⟩, _⟩
      obtain ⟨call, hcall, _, hres⟩ := hreturned
      rw [hcall, Option.some.injEq] at hcall'
      subst hcall'
      rw [hres, Option.some.injEq, Except.ok.injEq] at hres'
      subst hres'
      cases hok
    · rw [hhist]
      exact not_not.mpr (List.mem_singleton.mpr rfl)
  · obtain ⟨e, he, htid, hdid⟩ := mem_history.mp hsaid
    obtain ⟨_, _, _, hexec⟩ := h.did he hdid
    have hsays : some health_route.handler.respond = some said :=
      congrArg (Option.map Prod.fst) hexec
    have hok : said.status = 200 := by
      cases hsays
      rfl
    exact iff_of_true ⟨⟨req, response, hreturned, hstatus.trans hok⟩, e, he, htid, req',
      congrArg Done.op hdid⟩ admitted

/-- **The health probe**: in every run, a probe that its client does not give up can always move
on, comes to its answer within four operations, and that is `health_check`'s 200 if and only if
it finds the circuit closed or open for 30 seconds. -/
theorem health_answered_iff (env : Env) (instant : Nat) (s : Store) (ls : List GatewayLabel)
    (d : GatewayConf) (h : GatewayRun env (start instant s) ls d) (t : Nat)
    (call : Call HttpRequest (CircuitBreaker.Op Op) (CircuitBreaker.Op.Res Op.Res) Empty Response)
    (hcall : d.pool[t]? = some call) (hreq : IsProbe call.req) :
    (call.over = false → (history t d.world.log).length < 4 ∧
      ∀ ch, ∃ d', step (CircuitBreaker.machine services) (build env) d (.run t ch) = some d') ∧
    (call.prog.finished = true → (Healthy d t ↔ FindsPassage d t)) := by
  have hguarded := (h.obeys (bodies_guarded env)).guarded t call hcall
  cases hprog : call.prog with
  | raise e => cases e
  | await op next =>
    rw [hprog] at hguarded
    constructor
    · intro hover
      obtain ⟨hdropped, _⟩ := Bool.or_eq_false_iff.mp hover
      refine ⟨hguarded.1 hreq, ?_⟩
      intro ch
      obtain ⟨r, s', hexec⟩ := exec_total t ch d.world.store op
      exact ⟨_, step_run hcall hdropped hprog hexec⟩
    · intro hfinished
      cases hfinished
  | ret response =>
    rw [hprog] at hguarded
    constructor
    · intro hover
      obtain ⟨_, hfinished⟩ := Bool.or_eq_false_iff.mp hover
      rw [hprog] at hfinished
      cases hfinished
    · intro _
      have hreturned : d.returned t call.req (.ok response) := ⟨call, hcall, rfl, by rw [hprog]; rfl⟩
      rw [passage_iff h]
      exact healthy_iff h hreturned (hguarded hreq)

/-! ## Under failures -/

def probe : HttpRequest := { method := .GET, path := "/api/v1/kova/health" }

/-- Whether request `t` is a probe that has come to its end, computed. -/
def probed (d : GatewayConf) (t : Nat) : Bool :=
  d.pool[t]?.any fun call => call.prog.finished && decide (IsProbe call.req)

theorem probed_sound {d : GatewayConf} {t : Nat} (h : probed d t = true) :
    ∃ call, d.pool[t]? = some call ∧ IsProbe call.req ∧ call.prog.finished = true := by
  obtain ⟨call, hcall, hok⟩ := (Option.any_eq_true _ _).mp h
  obtain ⟨hfinished, hprobe⟩ := Bool.and_eq_true_iff.mp hok
  exact ⟨call, hcall, of_decide_eq_true hprobe, hfinished⟩

/-- The first request of a gateway is a probe. -/
theorem health_answered_first : ∃ d : GatewayConf,
    GatewayRun no_keys (start 0 {}) (request 0 probe 4) d ∧ Healthy d 0 := by
  obtain ⟨run, checked⟩ := replayed_spec (CircuitBreaker.machine services)
    (CircuitBreaker.call "kova-gateway" (guarded_routes no_keys)) (start 0 {}) (request 0 probe 4)
    (fun d => probed d 0 && d.world.log.all fun e : GatewayEvent => decide (e.pre.state = .Closed 0))
    (by decide +kernel)
  obtain ⟨hprobed, hclosed⟩ := Bool.and_eq_true_iff.mp checked
  obtain ⟨call, hcall, hprobe, hfinished⟩ := probed_sound hprobed
  refine ⟨_, run, ?_⟩
  apply ((health_answered_iff no_keys 0 {} _ _ run 0 call hcall hprobe).2 hfinished).mpr
  intro e he _ _
  exact .inl ⟨0, of_decide_eq_true (List.all_eq_true.mp hclosed e he)⟩

/-- Five registrations, each answered with 501, and then a probe. -/
def failures_then_probe : List GatewayLabel :=
  (List.range 5).flatMap (fun t => request t registration 6) ++ request 5 probe 1

/-- The failures of other routes keep a probe from its handler. -/
theorem probe_refused :
    ¬ ∀ (env : Env) (instant : Nat) (s : Store) (ls : List GatewayLabel) (d : GatewayConf),
      GatewayRun env (start instant s) ls d → ∀ t call, d.pool[t]? = some call →
        IsProbe call.req → call.prog.finished = true → Healthy d t := by
  intro claim
  obtain ⟨run, checked⟩ := replayed_spec (CircuitBreaker.machine services)
    (CircuitBreaker.call "kova-gateway" (guarded_routes no_keys)) (start 0 {}) failures_then_probe
    (fun d => probed d 5 && answered_with d 5 503) (by decide +kernel)
  obtain ⟨hprobed, hanswered⟩ := Bool.and_eq_true_iff.mp checked
  obtain ⟨call, hcall, hprobe, hfinished⟩ := probed_sound hprobed
  obtain ⟨⟨_, ok, ⟨call₁, hcall₁, _, hres₁⟩, hok⟩, _⟩ :=
    claim no_keys 0 {} _ _ run 5 call hcall hprobe hfinished
  obtain ⟨_, refusal, ⟨call₂, hcall₂, _, hres₂⟩, hrefusal⟩ := answered_with_sound hanswered
  rw [hcall₁, Option.some.injEq] at hcall₂
  rw [← hcall₂, hres₁, Option.some.injEq, Except.ok.injEq] at hres₂
  rw [← hres₂, hok] at hrefusal
  cases hrefusal

end Kova.Gateway

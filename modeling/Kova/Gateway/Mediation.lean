import Kova.Gateway.Frame

/-!
# Complete mediation

The token check exempts a request by the text its path begins with; the router compares the path
with the patterns segment by segment. The two agree: a path that is dispatched to a route outside
/auth/* and /health is not exempt, whatever its segments are (`protected_not_exempt`). So such a
route's handler runs only for a request that carried an accepted token, and the identity that the
rate limiter and the handlers see is the token's subject (`complete_mediation`). Accepted is
what jsonwebtoken accepts: a token counts as expired 60 seconds after its `exp`
(`expired_token_accepted`).
-/

set_option autoImplicit false

namespace Kova.Gateway

open Conc CircuitBreaker

/-! ## Paths -/

/-- The segments before a slash and those after it. -/
theorem segments_append (xs ys : List Char) :
    segments (xs ++ '/' :: ys) = segments xs ++ segments ys := by
  induction xs with
  | nil => rfl
  | cons x xs ih =>
    have hnonempty : segments xs ≠ [] := by
      cases xs with
      | nil => simp [segments]
      | cons y ys =>
        simp only [segments]
        split
        · simp
        · split <;> simp
    simp only [List.cons_append, segments, ih]
    split
    · rfl
    · cases hsegments : segments xs with
      | nil => exact absurd hsegments hnonempty
      | cons s ss => rfl

/-- What fits a pattern fits it from the beginning. -/
theorem fits_all_take : ∀ {ps xs ys : List (List Char)}, fits_all ps (xs ++ ys) = true →
    fits_all (ps.take xs.length) xs = true
  | _, [], _, _ => by simp [fits_all]
  | [], x :: xs, ys, h => by simp [fits_all] at h
  | p :: ps, x :: xs, ys, h => by
    simp only [List.cons_append, fits_all, Bool.and_eq_true] at h
    simp only [List.length_cons, List.take_succ_cons, fits_all, Bool.and_eq_true]
    exact ⟨h.1, fits_all_take h.2⟩

/-- No route outside /auth/* and /health fits a path that is exempt. -/
theorem protected_patterns : ∀ r ∈ routes, r.protects = true →
    r.matches_path "/api/v1/kova/health" = false ∧
      fits_all (r.pattern.take 5) (segments "/api/v1/kova/auth".toList) = false := by
  decide +kernel

/-- **Exemption and routing agree**, for every path. -/
theorem protected_not_exempt {method : Method} {path : String} {r : Route}
    (hroute : dispatch method path = .handler r) (hprotects : r.protects = true) :
    is_exempt path = false := by
  obtain ⟨hmem, hpath, _⟩ := dispatch_handler hroute
  obtain ⟨hhealth, hauth⟩ := protected_patterns r hmem hprotects
  rw [is_exempt, Bool.or_eq_false_iff]
  constructor
  · apply decide_eq_false
    rintro rfl
    rw [hhealth] at hpath
    cases hpath
  · apply Bool.eq_false_iff.mpr
    intro hstarts
    obtain ⟨rest, hrest⟩ := List.isPrefixOf_iff_prefix.mp hstarts
    have hsplit : path.toList = "/api/v1/kova/auth".toList ++ '/' :: rest := hrest.symm
    rw [Route.matches_path, hsplit, segments_append] at hpath
    have hfits := fits_all_take hpath
    rw [show (segments "/api/v1/kova/auth".toList).length = 5 from rfl, hauth] at hfits
    cases hfits

/-! ## Credentials -/

/-- The request carries a bearer token that proves, at `now`, to be the user's. -/
structure Credential (env : Env) (leeway : Nat) (req : HttpRequest) (now : Nat) (token : Jwt.Jws)
    (user_id : Uuid) : Prop where
  bearer : ∃ header rest, req.headers.authorization = some (.text header) ∧
    header.toList = "Bearer ".toList ++ rest ∧ env.parse (trim rest) = .jws token
  alg : token.header.alg = .RS256
  key : env.keys.get token.header.kid = some token.signed_by
  iss : token.payload.iss = some "kova-auth"
  unexpired : ∃ exp, token.payload.exp = some exp ∧ now ≤ exp + leeway
  subject : ∃ sub, token.payload.sub = some sub ∧ Uuid.parse_str sub = some user_id

/-- The request was found to carry the user's token: by its own call, before the event, at the
moment that the clock showed. -/
def AuthenticatedBy (env : Env) (leeway : Nat) (d : GatewayConf) (e : GatewayEvent)
    (user_id : Uuid) : Prop :=
  ∃ u token, Precedes d.world.log u e ∧ u.tid = e.tid ∧ u.op = .inner .utc_now ∧
    Credential env leeway e.req (u.pre.inner.utc / 1000000000) token user_id

/-- **Mediation**: what a handler and the rate limiter see of a request's identity. -/
structure Mediated (env : Env) (leeway : Nat) (d : GatewayConf) : Prop where
  /-- A handler of a protected route runs for an authenticated user. -/
  protects : ∀ e ∈ d.world.log, ∀ route req, e.op = .inner (.handler route req) →
    route.protects = true → ∃ user, req.user = some user
  /-- A handler sees the request, and no user but the authenticated one. -/
  handler : ∀ e ∈ d.world.log, ∀ route req, e.op = .inner (.handler route req) →
    req.toHttpRequest = e.req ∧
      ∀ user, req.user = some user → AuthenticatedBy env leeway d e user.user_id
  /-- The rate limiter too. -/
  limiter : ∀ e ∈ d.world.log, ∀ key limit ttl, e.op = .inner (.invoke_script key limit ttl) →
    ∃ req minute, key = redis_key {} req minute ∧ req.toHttpRequest = e.req ∧
      ∀ user, req.user = some user → AuthenticatedBy env leeway d e user.user_id

/-- What the AuthLayer makes of an accepted token. -/
theorem identify_ok {keys : JwtKeySet} {now : Nat} {text : Jwt.TokenText} {req seen : Request}
    (h : identify req (validate_token text keys now) = .ok seen) :
    ∃ token claims user_id, text = .jws token ∧ Accepted keys now token claims ∧
      Uuid.parse_str claims.sub = some user_id ∧
      seen = { req with user := some ⟨user_id, claims.jti, claims.kova_device_id⟩ } := by
  cases hvalid : validate_token text keys now with
  | error e =>
    rw [hvalid] at h
    cases h
  | ok claims =>
    obtain ⟨token, htext, haccepted⟩ := validate_token_ok hvalid
    rw [hvalid] at h
    simp only [identify] at h
    split at h
    · cases h
    · next user_id hparse =>
      cases h
      exact ⟨token, claims, user_id, htext, haccepted, hparse, rfl⟩

/-! ## One request -/

/-- One operation of the layers with its result. -/
abbrev LayerDone := Done Op Op.Res

/-- What the request is after the token check: exempt, or that of the user whose token it is. -/
def Seen (env : Env) (req : HttpRequest) (h : List LayerDone) (seen : Request) : Prop :=
  seen.toHttpRequest = req ∧
    ((seen.user = none ∧ is_exempt req.path = true) ∨
      ∃ user now token, seen.user = some user ∧ ⟨.utc_now, now⟩ ∈ h ∧
        Credential env 60 req now token user.user_id)

theorem Seen.grow {env : Env} {req : HttpRequest} {h : List LayerDone} {seen : Request}
    (hseen : Seen env req h seen) (x : LayerDone) : Seen env req (h ++ [x]) seen := by
  obtain ⟨hreq, hexempt | ⟨user, now, token, huser, hmem, hcredential⟩⟩ := hseen
  · exact ⟨hreq, .inl hexempt⟩
  · exact ⟨hreq, .inr ⟨user, now, token, huser, List.mem_append_left _ hmem, hcredential⟩⟩

/-- What the layers may await: the limiter's script and a handler on the request as seen. -/
def mediates (env : Env) (req : HttpRequest) (h : List LayerDone) : Op → Prop
  | .handler route seen => Seen env req h seen ∧ dispatch req.method req.path = .handler route
  | .invoke_script key _ _ => ∃ seen minute, Seen env req h seen ∧ key = redis_key {} seen minute
  | _ => True

section

variable {env : Env} {req : HttpRequest} {seen : Request} {h : List LayerDone}

/-- No result is asked anything. -/
abbrev anything {ε α : Type} (_ : List LayerDone) (_ : Except ε α) : Prop := True

theorem endpoint_mediates (hseen : Seen env req h seen) :
    Guarded (mediates env req) anything (endpoint seen) h := by
  unfold endpoint
  have hreq := hseen.1
  cases hroute : dispatch seen.method seen.path with
  | handler route =>
    refine ⟨⟨hseen, ?_⟩, ?_⟩
    · rw [← hreq]
      exact hroute
    · intro r
      trivial
  | method_not_allowed => trivial
  | not_found => trivial

theorem tracing_mediates (hseen : Seen env req h seen) :
    Guarded (mediates env req) anything (TracingMiddleware.call endpoint seen) h := by
  have rest : ∀ {h : List LayerDone} (id : String), Seen env req h seen →
      Guarded (mediates env req) anything
        (endpoint seen >>= fun response => .ret { response with x_kova_request_id := some id }) h := by
    intro h id hseen
    refine Guarded.bind (R := anything) ?_ ?_ (endpoint_mediates hseen)
    · intro _ _ _
      trivial
    · intro _ _ _
      trivial
  unfold TracingMiddleware.call request_id
  cases seen.headers.x_kova_request_id.bind HeaderValue.to_str with
  | some id => exact rest id hseen
  | none =>
    refine ⟨trivial, ?_⟩
    intro id
    exact rest id.to_string (hseen.grow _)

theorem rate_limit_mediates (hseen : Seen env req h seen) :
    Guarded (mediates env req) anything
      (RateLimitMiddleware.call {} (TracingMiddleware.call endpoint) seen) h := by
  unfold RateLimitMiddleware.call
  by_cases hhealth : seen.path = "/api/v1/kova/health"
  · rw [if_pos hhealth]
    exact tracing_mediates hseen
  · rw [if_neg hhealth]
    refine ⟨trivial, ?_⟩
    intro now
    have hnow := hseen.grow ⟨.utc_now, now⟩
    refine ⟨⟨seen, _, hnow, rfl⟩, ?_⟩
    intro reply
    show Guarded _ _ (if (reply.getD 1 = 0) then _ else _) _
    by_cases hlimited : reply.getD 1 = 0
    · rw [if_pos hlimited]
      refine ⟨trivial, ?_⟩
      intro now_secs
      trivial
    · rw [if_neg hlimited]
      exact tracing_mediates (hnow.grow _)

/-- **The token check** passes on the request as seen, or answers. -/
theorem authenticate_mediates (env : Env) (req : HttpRequest) (h : List LayerDone) :
    Guarded (mediates env req)
      (fun h (r : Except Empty (Except Response Request)) =>
        ∀ seen, r = .ok (.ok seen) → Seen env req h seen)
      (AuthMiddleware.authenticate env { req with user := none }) h := by
  unfold AuthMiddleware.authenticate
  by_cases hexempt : is_exempt req.path = true
  · rw [if_pos hexempt]
    intro seen hseen
    cases hseen
    exact ⟨rfl, .inl ⟨rfl, hexempt⟩⟩
  · rw [if_neg hexempt]
    cases hauthorization : req.headers.authorization with
    | none =>
      intro seen hseen
      cases hseen
    | some value =>
      cases value with
      | bytes value =>
        intro seen hseen
        cases hseen
      | text header =>
        simp only [HeaderValue.to_str, Option.bind_some, strip_bearer]
        by_cases hbearer : "Bearer ".toList.isPrefixOf header.toList = true
        · rw [if_pos hbearer]
          obtain ⟨rest, hrest⟩ := List.isPrefixOf_iff_prefix.mp hbearer
          have hdrop : header.toList.drop 7 = rest := by rw [← hrest]; rfl
          refine ⟨trivial, ?_⟩
          intro now seen hseen
          have hidentify := Except.ok.inj hseen
          rw [hdrop] at hidentify
          obtain ⟨token, claims, user_id, htext, haccepted, hparse, rfl⟩ := identify_ok hidentify
          refine ⟨rfl, .inr ⟨_, now, token, rfl, by simp, ?_⟩⟩
          exact ⟨⟨header, rest, hauthorization, hrest.symm, htext⟩, haccepted.alg, haccepted.key,
            haccepted.iss, ⟨claims.exp, haccepted.exp, haccepted.unexpired⟩,
            ⟨claims.sub, haccepted.sub, hparse⟩⟩
        · rw [if_neg hbearer]
          intro seen hseen
          cases hseen

/-- **The layers of one request** run the limiter and a handler on the request as seen. -/
theorem guarded_routes_mediates (env : Env) (req : HttpRequest) :
    Guarded (mediates env req) anything (guarded_routes env req) [] := by
  refine Guarded.bind ?_ ?_ (authenticate_mediates env req [])
  · intro _ _ _
    trivial
  · intro h r hr
    cases r with
    | error response => trivial
    | ok seen => exact rate_limit_mediates (hr seen rfl)

end

/-! ## Every run -/

/-- What a call's own history says of the token check is in the log before the event. -/
theorem authenticated_by {env : Env} {c : GatewayStore} {ls : List GatewayLabel} {d : GatewayConf}
    (h : GatewayRun env (.init c) ls d) {before after : List GatewayEvent} {e : GatewayEvent}
    (split : d.world.log = before ++ e :: after) {seen : Request}
    (hseen : Seen env e.req (served (history e.tid before)) seen) {user : AuthenticatedUser}
    (huser : seen.user = some user) : AuthenticatedBy env 60 d e user.user_id := by
  obtain ⟨_, ⟨hnone, _⟩ | ⟨user', now, token, huser', hmem, hcredential⟩⟩ := hseen
  · rw [hnone] at huser
    cases huser
  · rw [huser', Option.some.injEq] at huser
    subst huser
    obtain ⟨u, hu, htid, hdid⟩ := mem_history.mp (mem_served.mp hmem)
    have hlog : u ∈ d.world.log := by
      rw [split]
      exact List.mem_append_left _ hu
    obtain ⟨_, _, _, hexec⟩ := h.did hlog hdid
    have hclock : some (u.pre.inner.utc / 1000000000) = some now :=
      congrArg (Option.map Prod.fst) hexec
    rw [Option.some.injEq] at hclock
    exact ⟨u, token, ⟨before, after, split, hu⟩, htid, congrArg Done.op hdid, hclock ▸ hcredential⟩

/-- **Complete mediation**: from any state of the limiter and the breaker, in every run, a handler
outside /auth/* and /health runs only for a request with an accepted token, and whoever looks at
a request's identity sees the token's subject. -/
theorem complete_mediation (env : Env) (c : GatewayStore) (ls : List GatewayLabel)
    (d : GatewayConf) (h : GatewayRun env (.init c) ls d) : Mediated env 60 d := by
  have hguard : ∀ {before after : List GatewayEvent} {e : GatewayEvent},
      d.world.log = before ++ e :: after →
        within (mediates env e.req) (history e.tid before) e.op := by
    intro before after e split
    exact h.guard (G := fun req => within (mediates env req)) (Q := fun _ _ _ => True)
      (fun req => call_within (guarded_routes_mediates env req)) split
  have hhandler : ∀ e ∈ d.world.log, ∀ route req, e.op = .inner (.handler route req) →
      ∃ before after, d.world.log = before ++ e :: after ∧
        Seen env e.req (served (history e.tid before)) req ∧
          dispatch e.req.method e.req.path = .handler route := by
    intro e he route req hop
    obtain ⟨before, after, split⟩ := List.append_of_mem he
    have hmediates := hguard split
    rw [hop] at hmediates
    exact ⟨before, after, split, hmediates⟩
  refine ⟨?_, ?_, ?_⟩
  · intro e he route req hop hprotects
    obtain ⟨_, _, _, hseen, hroute⟩ := hhandler e he route req hop
    obtain ⟨_, ⟨_, hexempt⟩ | ⟨user, _, _, huser, _⟩⟩ := hseen
    · rw [protected_not_exempt hroute hprotects] at hexempt
      cases hexempt
    · exact ⟨user, huser⟩
  · intro e he route req hop
    obtain ⟨before, after, split, hseen, _⟩ := hhandler e he route req hop
    exact ⟨hseen.1, fun user huser => authenticated_by h split hseen huser⟩
  · intro e he key limit ttl hop
    obtain ⟨before, after, split⟩ := List.append_of_mem he
    have hmediates := hguard split
    rw [hop] at hmediates
    obtain ⟨seen, minute, hseen, hkey⟩ := hmediates
    exact ⟨seen, minute, hkey, hseen.1, fun user huser => authenticated_by h split hseen huser⟩

/-! ## A token -/

def subject : String := "01900000-0000-7000-8000-000000000001"

/-- A token of the issuer "kova-auth", signed under the default key, that expires at 1000. -/
def access_token : Jwt.Jws where
  header := ⟨.RS256, none⟩
  payload := { sub := some subject, exp := some 1000, iat := some 100, jti := some "j",
               iss := some "kova-auth" }
  signed_by := 7

/-- A gateway with one key, to which every text is that token. -/
def one_key : Env := ⟨⟨[("default", 7)]⟩, fun _ => .jws access_token⟩

def account_get : HttpRequest where
  method := .GET
  path := "/api/v1/kova/accounts/x"
  headers := { authorization := some (.text "Bearer t") }

/-- The gateway at a time in seconds. -/
def at_time (secs : Nat) : GatewayStore := ⟨.init, 0, { utc := secs * 1000000000 }⟩

/-- Whether the handler of a protected route has run, and the clock has stood still. -/
def handled_at (secs : Nat) (d : GatewayConf) : Bool :=
  (d.world.log.any fun e => match e.op with
    | .inner (.handler route _) => route.protects
    | _ => false) &&
  d.world.log.all fun e => e.pre.inner.utc = secs * 1000000000

/-- A request with the token reaches the handler of a protected route. -/
theorem complete_mediation_account : ∃ d : GatewayConf,
    GatewayRun one_key (.init (at_time 500)) (request 0 account_get 7) d ∧
      handled_at 500 d = true ∧ Mediated one_key 60 d := by
  obtain ⟨run, checked⟩ := replayed_spec (CircuitBreaker.machine services)
    (CircuitBreaker.call "kova-gateway" (guarded_routes one_key)) (.init (at_time 500))
    (request 0 account_get 7) (handled_at 500) (by decide +kernel)
  exact ⟨_, run, checked, complete_mediation one_key (at_time 500) _ _ run⟩

/-- A token that expired 30 seconds ago reaches it too. -/
theorem expired_token_accepted :
    ¬ ∀ (env : Env) (c : GatewayStore) (ls : List GatewayLabel) (d : GatewayConf),
      GatewayRun env (.init c) ls d → Mediated env 0 d := by
  intro claim
  obtain ⟨run, checked⟩ := replayed_spec (CircuitBreaker.machine services)
    (CircuitBreaker.call "kova-gateway" (guarded_routes one_key)) (.init (at_time 1030))
    (request 0 account_get 7) (handled_at 1030) (by decide +kernel)
  have mediated := claim one_key (at_time 1030) _ _ run
  obtain ⟨hhandled, hclock⟩ := Bool.and_eq_true_iff.mp checked
  obtain ⟨e, he, hroute⟩ := List.any_eq_true.mp hhandled
  split at hroute
  · next route req hop =>
    obtain ⟨user, huser⟩ := mediated.protects e he route req hop hroute
    obtain ⟨u, token, hprecedes, _, _, hcredential⟩ :=
      (mediated.handler e he route req hop).2 user huser
    obtain ⟨_, rest, _, _, hparse⟩ := hcredential.bearer
    obtain ⟨exp, hexp, hunexpired⟩ := hcredential.unexpired
    have hutc : u.pre.inner.utc = 1030 * 1000000000 :=
      of_decide_eq_true (List.all_eq_true.mp hclock u hprecedes.left)
    cases hparse
    cases hexp
    rw [hutc] at hunexpired
    omega
  · cases hroute

end Kova.Gateway

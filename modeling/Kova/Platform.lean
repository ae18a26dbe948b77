import Kova.Account.Callers
import Kova.Auth.AccessTokens
import Kova.Conc.Beside
import Kova.Gateway.Mediation

/-!
# The services that trust kova-auth's tokens

kova-account and the gateway never ask kova-auth who is calling: they check the signature, the
issuer and the expiry of the access token that a request presents. Here each of them runs beside
kova-auth, in any interleaving, whatever fails on either side. Nobody but kova-auth has its key: a
token in its name is one that it had returned when the request arrived (`Handed`).

- `account_changes_vouched`: whatever row of the accounts a call adds, changes or takes away is that
  of a user who goes back to a one-time code, by a token signed at most 960 seconds before;
- `identities_vouched`: the same of the user for whom the gateway lets a request reach a handler.
-/

set_option autoImplicit false

namespace Kova

open Conc Auth

/-! ## Tokens that were handed out -/

/-- A token in kova-auth's name is one that it has returned. -/
def Handed (env : Auth.Env) (c : AuthConf) (token : Jwt.Jws) : Prop :=
  token.signed_by = env.key → ∃ pair, Returned c pair ∧ pair.access_token = token

/-- It is never taken back. -/
theorem Handed.stays {env : Auth.Env} {c d : AuthConf} {l : AuthLabel} {token : Jwt.Jws}
    (h : Handed env c token) (hstep : step (Auth.machine env) (Auth.serve env) c l = some d) :
    Handed env d token := by
  intro hkey
  obtain ⟨pair, ⟨t, req, returned⟩, htoken⟩ := h hkey
  exact ⟨pair, ⟨t, req, (step_returned hstep returned).1⟩, htoken⟩

/-- The token is the user's at `now`, in seconds of the service's own clock: kova-auth had signed it
for the user, and not more than 960 seconds before. -/
def Trusted (env : Auth.Env) (d : AuthConf) (now : Nat) (token : Jwt.Jws) (user_id : Uuid) : Prop :=
  ∃ signed, Vouched env d token user_id signed ∧ now ≤ signed + 960

/-- **A token that was handed out and has not expired** is trusted. -/
theorem Handed.trusted {env : Auth.Env} {clock : Nat} {ls : List AuthLabel} {d : AuthConf}
    (run : HonestRun env (Auth.start clock) ls d) {token : Jwt.Jws} (h : Handed env d token)
    (hkey : token.signed_by = env.key) {now exp : Nat} (hexp : token.payload.exp = some exp)
    (unexpired : now ≤ exp + 60) :
    ∃ user_id, token.payload.sub = some user_id.to_string ∧ Trusted env d now token user_id := by
  obtain ⟨pair, returned, rfl⟩ := h hkey
  obtain ⟨user_id, signed, vouched⟩ := returned_vouched run returned
  have hexpires := vouched.expires
  rw [hexp, Option.some.injEq] at hexpires
  exact ⟨user_id, vouched.subject, signed, vouched, by omega⟩

section

variable {σ Req Op Ch En ε α : Type} {Res : Op → Type}

/-- The tokens that an arriving request carries have been handed out. -/
def Presents (env : Auth.Env) (carries : Req → Jwt.Jws → Prop) (c : AuthConf) :
    Label Req Ch En → Prop
  | .spawn req => ∀ token, carries req token → Handed env c token
  | _ => True

/-- A service whose requests carry access tokens, beside kova-auth. -/
abbrev BesideAuth (env : Auth.Env) (M : Machine σ Op Res Ch En) (body : Req → Prog Op Res ε α)
    (carries : Req → Jwt.Jws → Prop) : AuthConf → Conf σ Req Op Res ε α → List AuthLabel →
      AuthConf → List (Label Req Ch En) → Conf σ Req Op Res ε α → Prop :=
  Beside (Auth.machine env) (Auth.serve env) (Honest env) M body (Presents env carries)

/-- **What a request carries** was handed out when it arrived, and so it is whenever its call does
anything. -/
theorem carried_handed {env : Auth.Env} {M : Machine σ Op Res Ch En}
    {body : Req → Prog Op Res ε α} {carries : Req → Jwt.Jws → Prop} {c₀ d : AuthConf} {s : σ}
    {ls : List AuthLabel} {ls' : List (Label Req Ch En)} {d' : Conf σ Req Op Res ε α}
    (h : BesideAuth env M body carries c₀ (.init s) ls d ls' d') {e : Event σ Req Op Res}
    (he : e ∈ d'.world.log) {token : Jwt.Jws} (hcarries : carries e.req token) :
    Handed env d token := by
  let G (c : AuthConf) (req : Req) : Prop := ∀ token, carries req token → Handed env c token
  have stays : ∀ {c d l}, step (Auth.machine env) (Auth.serve env) c l = some d →
      ∀ req, G c req → G d req :=
    fun hstep req handed token hreq => (handed token hreq).stays hstep
  have granted := h.granted (G := G) (fun c req presents => presents) stays
  exact granted.2 e he token hcarries

end

/-- The login of the sample has returned a token. -/
theorem login_handed : ∃ d : AuthConf, HonestRun Auth.sample Auth.sample_start sample_login d ∧
    Handed Auth.sample d sample_pair.access_token := by
  obtain ⟨d, hd, hresult⟩ := (Option.any_eq_true _ _).mp
    (show (replay_if (Auth.machine Auth.sample) (Auth.serve Auth.sample) presents_own
      Auth.sample_start sample_login).any
        (fun d => decide (d.result? 2 = some (.ok (.tokens sample_pair)))) = true by decide +kernel)
  obtain ⟨req, returned⟩ := returned_of_result (of_decide_eq_true hresult)
  exact ⟨d, run_where_of_replay_if presents_own_sound hd,
    fun _ => ⟨sample_pair, ⟨2, req, returned⟩, rfl⟩⟩

/-! ## kova-account -/

namespace Account

/-- The request carries the token. -/
def Request.Carries (req : Request) (token : Jwt.Jws) : Prop :=
  req.auth = some (.bearer (.jws token))

/-- The token that an accepted header holds. -/
theorem AuthUser.accepted {key : Jwt.Key} {now : Nat} {auth : Jwt.AuthHeader} {user : AuthUser}
    (h : AuthUser.from_request_parts key now auth = .ok user) :
    ∃ token exp, auth = .bearer (.jws token) ∧ token.signed_by = key ∧
      token.payload.sub = some user.sub ∧ token.payload.exp = some exp ∧ now ≤ exp + 60 := by
  cases auth with
  | bearer text =>
    simp only [AuthUser.from_request_parts] at h
    split at h
    · next user' hdecode =>
      obtain rfl := Except.ok.inj h
      obtain ⟨token, rfl, _, hkey, hread, hvalid⟩ := Jwt.decode_ok hdecode
      obtain ⟨exp, hexp, unexpired, _⟩ := Jwt.validate_ok hvalid
      simp only [AuthUser.read, Option.bind_eq_bind, Option.bind_eq_some_iff] at hread
      obtain ⟨sub, hsub, jti, _, huser⟩ := hread
      cases huser
      exact ⟨token, exp, rfl, hkey, hsub, hexp, unexpired⟩
    · cases h
  | _ => cases h

/-- The call of the event had found, before, that its request carries the user's token. -/
def ActsFor (auth : Auth.Env) (d : AuthConf) (d' : AccountConf) (e : AccountEvent)
    (user_id : Uuid) : Prop :=
  ∃ token u now, e.req.Carries token ∧ Precedes d'.world.log u e ∧ u.tid = e.tid ∧
    u.did = ⟨.utc_now, now⟩ ∧ Trusted auth d now.timestamp.toNat token user_id

/-- **Whoever changes an account goes back to a one-time code**: in every interleaving of
kova-account with kova-auth, the row that an event adds to the accounts, changes or takes away is
that of a user whose access token the call presented, signed at most 960 seconds before for a
session that goes back to a login with a code sent to the user's phone. -/
theorem account_changes_vouched (auth : Auth.Env) (env : Env) (table : Table env)
    (clock clock' : Nat) (ls : List AuthLabel) (d : AuthConf) (ls' : List AccountLabel)
    (d' : AccountConf) (hkey : env.key = auth.key)
    (h : BesideAuth auth (machine env) (serve env) Request.Carries (Auth.start clock)
      (start table clock') ls d ls' d') :
    ∀ e ∈ d'.world.log, ∀ r, Touches e r → ActsFor auth d d' e r.user_id := by
  intro e he r touches
  have run : AccountRun env (start table clock') ls' d' := h.second_run
  obtain ⟨before, after, split⟩ := List.append_of_mem he
  obtain ⟨user, ⟨header, now, hauth, hnow, haccepted⟩, huser⟩ := touched_by_caller run split touches
  obtain ⟨token, exp, rfl, hsigned, hsub, hexp, unexpired⟩ := AuthUser.accepted haccepted
  obtain ⟨user_id, hsubject, trusted⟩ :=
    (carried_handed h he hauth).trusted h.first_run (hsigned.trans hkey) hexp unexpired
  rw [hsub, Option.some.injEq] at hsubject
  rw [hsubject, Uuid.UUID_TO_BIN_to_string, Option.some.injEq] at huser
  obtain ⟨u, _, own, hdid, hprec⟩ := event_of_history after e hnow
  rw [← split] at hprec
  exact ⟨token, u, now, hauth, hprec, own, hdid, huser ▸ trusted⟩

/-- The guarantee after a login, for two creations of which the second inserts a row. -/
theorem account_changes_vouched_creation : ∃ (d : AuthConf) (d' : AccountConf),
    d'.world.store.accounts.map (·.status) = [.Active, .PendingKYC] ∧
      ∀ e ∈ d'.world.log, ∀ r, Touches e r → ActsFor Auth.sample d d' e r.user_id := by
  obtain ⟨d, run, handed⟩ := login_handed
  obtain ⟨later, statuses⟩ := replayed_spec (machine sample) (serve sample) sample_start
    half_created (fun d => d.world.store.accounts.map (·.status) = [.Active, .PendingKYC])
    (by decide +kernel)
  have presented : ∀ l ∈ half_created, Presents Auth.sample Request.Carries d l := by
    intro l hl
    cases l with
    | spawn req =>
      intro token hcarries
      obtain rfl : req = .create_account sample_bearer "GBP" := by simpa [half_created] using hl
      cases hcarries
      exact handed
    | _ => trivial
  exact ⟨d, _, of_decide_eq_true statuses, account_changes_vouched Auth.sample sample sample_table
    _ _ _ d _ _ rfl (run.beside.then later presented)⟩

end Account

/-! ## The gateway -/

namespace Gateway

open CircuitBreaker

/-- The request carries the token. -/
def Carries (env : Env) (req : HttpRequest) (token : Jwt.Jws) : Prop :=
  ∃ header rest, req.headers.authorization = some (.text header) ∧
    header.toList = "Bearer ".toList ++ rest ∧ env.parse (trim rest) = .jws token

/-- A handler sees the request as the token check has left it. -/
theorem handler_seen {env : Env} {c : GatewayStore} {ls : List GatewayLabel} {d : GatewayConf}
    (h : GatewayRun env (.init c) ls d) {before after : List GatewayEvent} {e : GatewayEvent}
    (split : d.world.log = before ++ e :: after) {route : Route} {req : Request}
    (hop : e.op = .inner (.handler route req)) :
    Seen env e.req (served (history e.tid before)) req ∧
      dispatch e.req.method e.req.path = .handler route := by
  have hmediates := h.guard (G := fun req => within (mediates env req)) (Q := fun _ _ _ => True)
    (fun req => call_within (guarded_routes_mediates env req)) split
  rw [hop] at hmediates
  exact hmediates

/-- The call of the event had found, before, that its request carries the user's token. -/
def ActsFor (auth : Auth.Env) (env : Env) (d : AuthConf) (d' : GatewayConf) (e : GatewayEvent)
    (user_id : Uuid) : Prop :=
  ∃ token u, Carries env e.req token ∧ Precedes d'.world.log u e ∧ u.tid = e.tid ∧
    u.op = .inner .utc_now ∧ Trusted auth d (u.pre.inner.utc / 1000000000) token user_id

/-- **Whoever passes the gateway goes back to a one-time code**: in every interleaving of the
gateway with kova-auth, from any state of its limiter and its breaker, a handler of a protected
route runs for a user, and the user that a handler sees is one whose access token the request
carried, signed at most 960 seconds before for a session that goes back to a login with a code sent
to the user's phone. -/
theorem identities_vouched (auth : Auth.Env) (env : Env) (clock : Nat) (s : GatewayStore)
    (ls : List AuthLabel) (d : AuthConf) (ls' : List GatewayLabel) (d' : GatewayConf)
    (hkeys : ∀ kid key, env.keys.get kid = some key → key = auth.key)
    (h : BesideAuth auth (CircuitBreaker.machine services)
      (CircuitBreaker.call "kova-gateway" (guarded_routes env)) (Carries env) (Auth.start clock)
      (.init s) ls d ls' d') :
    ∀ e ∈ d'.world.log, ∀ route req, e.op = .inner (.handler route req) →
      (route.protects = true → req.user ≠ none) ∧
        ∀ user, req.user = some user → ActsFor auth env d d' e user.user_id := by
  intro e he route req hop
  have run : GatewayRun env (.init s) ls' d' := h.second_run
  obtain ⟨before, after, split⟩ := List.append_of_mem he
  obtain ⟨hseen, hroute⟩ := handler_seen run split hop
  refine ⟨?_, ?_⟩
  · intro hprotects hnone
    obtain ⟨_, ⟨_, hexempt⟩ | ⟨user, _, _, huser, _⟩⟩ := hseen
    · rw [protected_not_exempt hroute hprotects] at hexempt
      cases hexempt
    · rw [hnone] at huser
      cases huser
  · intro user huser
    obtain ⟨u, token, hprec, own, hnow, credential⟩ := authenticated_by run split hseen huser
    obtain ⟨exp, hexp, unexpired⟩ := credential.unexpired
    obtain ⟨user_id, hsubject, trusted⟩ := (carried_handed h he credential.bearer).trusted
      h.first_run (hkeys _ _ credential.key) hexp unexpired
    obtain ⟨sub, hsub, parsed⟩ := credential.subject
    rw [hsubject, Option.some.injEq] at hsub
    rw [← hsub, Uuid.parse_str_to_string, Option.some.injEq] at parsed
    exact ⟨token, u, credential.bearer, hprec, own, hnow, parsed ▸ trusted⟩

/-- A gateway with kova-auth's key, to which every text is the token of the login. -/
def login_key : Env := ⟨⟨[("default", Auth.sample.key)]⟩, fun _ => .jws sample_pair.access_token⟩

theorem login_key_only (kid : Option String) (key : Jwt.Key)
    (h : login_key.keys.get kid = some key) : key = Auth.sample.key := by
  simp only [login_key, JwtKeySet.get, List.lookup] at h
  split at h
  · exact (Option.some.inj h).symm
  · cases h

/-- The guarantee for a request with that token, which reaches the handler of a protected route. -/
theorem identities_vouched_account : ∃ (d : AuthConf) (d' : GatewayConf),
    handled_at 1700000500 d' = true ∧
      ∀ e ∈ d'.world.log, ∀ route req, e.op = .inner (.handler route req) →
        (route.protects = true → req.user ≠ none) ∧
          ∀ user, req.user = some user → ActsFor Auth.sample login_key d d' e user.user_id := by
  obtain ⟨d, run, handed⟩ := login_handed
  obtain ⟨later, handled⟩ := replayed_spec (CircuitBreaker.machine services)
    (CircuitBreaker.call "kova-gateway" (guarded_routes login_key)) (.init (at_time 1700000500))
    (request 0 account_get 7) (handled_at 1700000500) (by decide +kernel)
  have presented : ∀ l ∈ request 0 account_get 7,
      Presents Auth.sample (Carries login_key) d l := by
    intro l _
    cases l with
    | spawn req =>
      rintro token ⟨_, _, _, _, hparse⟩
      cases hparse
      exact handed
    | _ => trivial
  exact ⟨d, _, handled, identities_vouched Auth.sample login_key _ _ _ d _ _ login_key_only
    (run.beside.then later presented)⟩

end Gateway

end Kova

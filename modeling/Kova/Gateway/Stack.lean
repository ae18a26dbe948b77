import Kova.Gateway.Auth
import Kova.Gateway.CircuitBreaker
import Kova.Gateway.RateLimit
import Kova.Gateway.Router

/-!
# The gateway

`router::build`: the routes under four layers. A layer that is added later runs earlier, so a
request passes the circuit breaker, the token check, the rate limiter and the tracing, in this
order, before it reaches its handler. What jsonwebtoken makes of the text after "Bearer " is a
parameter, as are the keys. The wall clock may be set to any time and other replicas may leave
anything in Redis.
-/

set_option autoImplicit false

namespace Kova.Gateway

open Conc

/-! ## What the layers await -/

inductive Op where
  | utc_now
  | now_v7
  | invoke_script (key : String) (limit ttl : Nat)
  /-- A route handler runs, on the request as it sees it. -/
  | handler (route : Route) (req : Request)
  deriving DecidableEq

def Op.Res : Op → Type
  | .utc_now => Nat
  | .now_v7 => Uuid
  | .invoke_script .. => Option Int
  | .handler .. => Response

/-- An async function of the gateway; its error is `Infallible`. -/
abbrev Async := Prog Op Op.Res Empty

/-- What is left open: the keys, and how the text of a token is read. -/
structure Env where
  keys : JwtKeySet
  parse : String → Jwt.TokenText

/-- `chrono::Utc::now().timestamp()`. -/
def utc_now : Async Nat := .await .utc_now .ret

/-! ## The layers -/

/-- The route the request is dispatched to, or the router's own answer. -/
def endpoint (req : Request) : Async Response :=
  match dispatch req.method req.path with
  | .handler route => .await (.handler route req) .ret
  | .method_not_allowed => .ret ⟨405, .empty, none, none⟩
  | .not_found => .ret ⟨404, .empty, none, none⟩

/-- The request's identifier: propagated, or a fresh one. -/
def request_id (req : Request) : Async String :=
  match req.headers.x_kova_request_id.bind HeaderValue.to_str with
  | some id => .ret id
  | none => .await .now_v7 fun id => .ret id.to_string

/-- `TracingMiddleware::call`. -/
def TracingMiddleware.call (inner : Request → Async Response) (req : Request) : Async Response := do
  let id ← request_id req
  let response ← inner req
  pure { response with x_kova_request_id := some id }

/-- `RateLimitMiddleware::call`. -/
def RateLimitMiddleware.call (config : RateLimitConfig) (inner : Request → Async Response)
    (req : Request) : Async Response :=
  if req.path = "/api/v1/kova/health" then inner req
  else do
    let tier := config.tier_for req.path
    let now ← utc_now
    let reply : Option Int ←
      .await (.invoke_script (redis_key config req (now / 60)) tier.limit (tier.window_secs + 1)) .ret
    -- A failure of Redis lets the request through.
    if reply.getD 1 = 0 then do
      let now_secs ← utc_now
      pure (ApiError.too_many_requests (60 - now_secs % 60))
    else inner req

/-- `is_exempt`. -/
def is_exempt (path : String) : Bool :=
  path = "/api/v1/kova/health" || starts_with path "/api/v1/kova/auth/"

/-- `strip_prefix("Bearer ")`. -/
def strip_bearer (header : String) : Option (List Char) :=
  if "Bearer ".toList.isPrefixOf header.toList then some (header.toList.drop 7) else none

/-- What a token's claims make of a request. -/
def identify (req : Request) : Except AuthError KovaClaims → Except Response Request
  | .error e => .error e.into_response
  | .ok claims =>
    match Uuid.parse_str claims.sub with
    | none => .error AuthError.Invalid.into_response
    | some user_id =>
      .ok { req with user := some ⟨user_id, claims.jti, claims.kova_device_id⟩ }

section

variable (env : Env)

/-- `AuthMiddleware::call` up to the inner service: the request that it passes on, or the answer. -/
def AuthMiddleware.authenticate (req : Request) : Async (Except Response Request) :=
  if is_exempt req.path then .ret (.ok req)
  else match req.headers.authorization.bind HeaderValue.to_str with
    | none => .ret (.error AuthError.MissingHeader.into_response)
    | some header =>
      match strip_bearer header with
      | none => .ret (.error AuthError.MalformedBearer.into_response)
      | some rest => do
        let now ← utc_now
        pure (identify req (validate_token (env.parse (trim rest)) env.keys now))

/-- `AuthMiddleware::call`. -/
def AuthMiddleware.call (inner : Request → Async Response) (req : Request) : Async Response := do
  match ← AuthMiddleware.authenticate env req with
  | .ok req => inner req
  | .error response => pure response

/-- What the circuit breaker is around: the other layers and the routes. -/
def guarded_routes (req : HttpRequest) : Async Response :=
  AuthMiddleware.call env
    (RateLimitMiddleware.call {} (TracingMiddleware.call endpoint)) { req with user := none }

/-- `build`. -/
def build : HttpRequest → Prog (CircuitBreaker.Op Op) (CircuitBreaker.Op.Res Op.Res) Empty Response :=
  CircuitBreaker.call "kova-gateway" (guarded_routes env)

end

/-! ## The machine -/

/-- Redis and the wall clock in nanoseconds. -/
structure Store where
  redis : Redis.Db := []
  utc : Nat := 0

inductive Fault where
  | none
  | failed
  | lost
  deriving DecidableEq

structure Choice where
  fault : Fault := .none
  uuid : Uuid := Uuid.low 0

/-- The wall clock is set, and other replicas use Redis. -/
inductive Outside where
  | set_utc (nanos : Nat)
  | redis (db : Redis.Db)

def exec (ch : Choice) (s : Store) : (op : Op) → Option (op.Res × Store)
  | .utc_now => some (s.utc / 1000000000, s)
  | .now_v7 => some (ch.uuid, s)
  | .invoke_script key limit ttl =>
    match ch.fault with
    | .none =>
      some ((lua_sliding_window s.utc s.redis key limit ttl).1,
        { s with redis := (lua_sliding_window s.utc s.redis key limit ttl).2 })
    | .failed => some (none, s)
    | .lost =>
      some (none, { s with redis := (lua_sliding_window s.utc s.redis key limit ttl).2 })
  | .handler route _ => some (route.handler.respond, s)

def outside : Outside → Store → Option Store
  | .set_utc nanos, s => some { s with utc := nanos }
  | .redis db, s => some { s with redis := db }

/-- Redis, the clocks and the handlers behind the breaker. -/
def services : Machine Store Op Op.Res Choice Outside := ⟨fun _ => exec, outside⟩

abbrev GatewayStore := CircuitBreaker.Store Store

abbrev GatewayConf :=
  Conf GatewayStore HttpRequest (CircuitBreaker.Op Op) (CircuitBreaker.Op.Res Op.Res) Empty Response

abbrev GatewayLabel := Label HttpRequest Choice (CircuitBreaker.Outside Outside)

abbrev GatewayEvent := CircuitBreaker.BreakerEvent Store HttpRequest Op.Res

/-- The runs of the gateway. -/
abbrev GatewayRun (env : Env) : GatewayConf → List GatewayLabel → GatewayConf → Prop :=
  CircuitBreaker.BreakerRun services "kova-gateway" (guarded_routes env)

/-- The gateway before its first request. -/
def start (instant : Nat) (s : Store) : GatewayConf := CircuitBreaker.start instant s

end Kova.Gateway

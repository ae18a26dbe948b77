import Kova.Gateway.Http
import Kova.Redis.Db

/-!
# The rate limiter's tiers and script
-/

set_option autoImplicit false

namespace Kova.Gateway

/-- `str::starts_with`. -/
def starts_with (s start : String) : Bool := start.toList.isPrefixOf s.toList

/-- `str::trim`, for the characters a header can hold. -/
def trim (s : List Char) : String :=
  String.ofList ((s.dropWhile Char.isWhitespace).reverse.dropWhile Char.isWhitespace).reverse

inductive Tier where
  | Auth
  | Standard
  | Payment
  deriving DecidableEq

def Tier.name : Tier → String
  | .Auth => "auth"
  | .Standard => "standard"
  | .Payment => "payment"

def Tier.limit : Tier → Nat
  | .Auth => 10
  | .Standard => 100
  | .Payment => 30

def Tier.window_secs (_ : Tier) : Nat := 60

structure RateLimitConfig where
  auth_prefix : String := "/api/v1/kova/auth/otp"
  payment_prefix : String := "/api/v1/kova/payments"

def RateLimitConfig.tier_for (config : RateLimitConfig) (path : String) : Tier :=
  if starts_with path config.auth_prefix then .Auth
  else if starts_with path config.payment_prefix then .Payment
  else .Standard

/-- `extract_client_ip`: the first element of X-Forwarded-For. -/
def extract_client_ip (req : Request) : String :=
  match req.headers.x_forwarded_for.bind HeaderValue.to_str with
  | some value => trim (value.toList.takeWhile (· ≠ ','))
  | none => "unknown"

/-- Whom a request counts against. -/
def identifier (tier : Tier) (req : Request) : String :=
  if tier = .Auth then extract_client_ip req
  else match req.user with
    | some user => user.user_id.to_string
    | none => extract_client_ip req

/-- The counter's key. -/
def redis_key (config : RateLimitConfig) (req : Request) (window_minute : Nat) : String :=
  let tier := config.tier_for req.path
  "kova:ratelimit:" ++ tier.name ++ ":" ++ identifier tier req ++ ":" ++ toString window_minute

/-- `LUA_SLIDING_WINDOW`: 1 if allowed, 0 if the limit is exceeded; `none` is an error. -/
def lua_sliding_window (now : Nat) (db : Redis.Db) (key : String) (limit ttl : Nat) :
    Option Int × Redis.Db :=
  match Redis.run now db (.incr key 1) with
  | (none, db) => (none, db)
  | (some count, db) =>
    let db := if count = 1 then (Redis.run now db (.expire key ttl)).2 else db
    (some (if (limit : Int) < count then 0 else 1), db)

end Kova.Gateway

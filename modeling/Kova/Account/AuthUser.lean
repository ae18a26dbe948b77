import Kova.Jwt.Token

/-!
# The extractor of kova-account

`AuthUser`, which the handlers of kova-account take as an argument.
-/

set_option autoImplicit false

namespace Kova.Account

structure AuthUser where
  sub : String
  jti : String
  deriving DecidableEq

/-- The claims that the extractor reads from a payload. -/
def AuthUser.read (p : Jwt.Payload) : Option AuthUser := do
  let sub ← p.sub
  let jti ← p.jti
  some { sub, jti }

/-- `AuthUser::from_request_parts`, at `now` in seconds: a rejection is its message. -/
def AuthUser.from_request_parts (decoding_key : Jwt.Key) (now : Nat) :
    Jwt.AuthHeader → Except String AuthUser
  | .absent | .unreadable => .error "Missing Authorization header"
  | .other _ => .error "Authorization header must be 'Bearer <token>'"
  | .bearer token =>
    match Jwt.decode AuthUser.read { alg := .RS256, iss := ["kova-auth"] } decoding_key now token with
    | .ok user => .ok user
    | .error _ => .error "Invalid or expired access token"

end Kova.Account

import Kova.Types.Uuid

/-!
# Requests and responses of the gateway

What the middlewares of kova-gateway read of a request and write into a response, and the
responses that `error.rs` builds. A header is there or not, and its value is text unless it
holds other bytes than visible ASCII (`to_str`).
-/

set_option autoImplicit false

namespace Kova.Gateway

inductive Method where
  | GET | HEAD | POST | PUT | DELETE
  | other (name : String)
  deriving DecidableEq

inductive HeaderValue where
  | text (value : String)
  | bytes (value : List UInt8)
  deriving DecidableEq

def HeaderValue.to_str : HeaderValue → Option String
  | .text value => some value
  | .bytes _ => none

/-- The first value of each header that is read. -/
structure Headers where
  authorization : Option HeaderValue := none
  x_forwarded_for : Option HeaderValue := none
  x_kova_request_id : Option HeaderValue := none
  deriving DecidableEq

/-- What a validated token puts into the request's extensions. -/
structure AuthenticatedUser where
  user_id : Uuid
  jti : String
  device_id : Option String
  deriving DecidableEq

/-- A request on the wire. -/
structure HttpRequest where
  method : Method
  path : String
  headers : Headers := {}
  deriving DecidableEq

/-- A request as a middleware sees it, with the extension that the AuthLayer inserts. -/
structure Request extends HttpRequest where
  user : Option AuthenticatedUser
  deriving DecidableEq

inductive Body where
  | empty
  /-- `{ "data": null, "error": { "code", "message" }, "meta": {} }`. -/
  | error (code message : String)
  /-- `{ "status", "service" }`. -/
  | health (status service : String)
  deriving DecidableEq

structure Response where
  status : Nat
  body : Body
  retry_after : Option String := none
  x_kova_request_id : Option String := none
  deriving DecidableEq

/-- `StatusCode::is_server_error`. -/
def Response.is_server_error (r : Response) : Bool := 500 ≤ r.status && r.status < 600

/-! ## error.rs -/

namespace ApiError

def not_implemented : Response :=
  ⟨501, .error "NOT_IMPLEMENTED" "This endpoint is not yet implemented", none, none⟩

def unauthorized (code message : String) : Response := ⟨401, .error code message, none, none⟩

def too_many_requests (retry_after_secs : Nat) : Response :=
  ⟨429, .error "RATE_LIMIT_EXCEEDED" "Too many requests — please slow down",
    some (toString retry_after_secs), none⟩

def service_unavailable (service : String) : Response :=
  ⟨503, .error "SERVICE_UNAVAILABLE"
    ("upstream service '" ++ service ++ "' is temporarily unavailable"), none, none⟩

end ApiError

end Kova.Gateway

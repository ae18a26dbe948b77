import Kova.Gateway.Http

/-!
# The routes of the gateway

The route table of `router.rs` and how it decides a request: a pattern is compared with the path
segment by segment, `{id}` standing for one segment that is not empty; a handler for GET serves
HEAD too.
-/

set_option autoImplicit false

namespace Kova.Gateway

inductive Handler where
  | not_implemented
  | health_check
  deriving DecidableEq

/-- What a handler answers. -/
def Handler.respond : Handler → Response
  | .not_implemented => ApiError.not_implemented
  | .health_check => ⟨200, .health "ok" "kova-gateway", none, none⟩

structure Route where
  path : String
  method : Method
  handler : Handler
  deriving DecidableEq

/-- `Router::route`. -/
def route (path : String) (method : Method) (handler : Handler) : Route := ⟨path, method, handler⟩

/-- `routes()`. -/
def routes : List Route :=
  [route "/auth/register" .POST .not_implemented,
   route "/auth/otp/request" .POST .not_implemented,
   route "/auth/otp/verify" .POST .not_implemented,
   route "/auth/token/refresh" .POST .not_implemented,
   route "/auth/sessions/{id}" .DELETE .not_implemented,
   route "/auth/biometric/challenge" .POST .not_implemented,
   route "/auth/biometric/verify" .POST .not_implemented,
   route "/accounts" .POST .not_implemented,
   route "/accounts/{id}" .GET .not_implemented,
   route "/accounts/{id}/balance" .GET .not_implemented,
   route "/accounts/{id}/statement" .GET .not_implemented,
   route "/payments" .POST .not_implemented,
   route "/payments/{id}" .GET .not_implemented,
   route "/cards" .POST .not_implemented,
   route "/cards/{id}" .GET .not_implemented,
   route "/cards/{id}/freeze" .POST .not_implemented,
   route "/cards/{id}/freeze" .DELETE .not_implemented,
   route "/cards/{id}/transactions" .GET .not_implemented,
   route "/cards/{id}/spend-controls" .PUT .not_implemented,
   route "/kyc/submit" .POST .not_implemented,
   route "/kyc/status" .GET .not_implemented,
   route "/fx/quote" .POST .not_implemented,
   route "/fx/quotes/{id}" .GET .not_implemented,
   route "/health" .GET .health_check]

/-- The text between slashes. -/
def segments : List Char → List (List Char)
  | [] => [[]]
  | c :: cs =>
    if c = '/' then [] :: segments cs
    else match segments cs with
      | [] => [[c]]
      | s :: ss => (c :: s) :: ss

/-- Whether a segment of a pattern is a parameter. -/
def is_parameter (pattern : List Char) : Bool := pattern.head? = some (Char.ofNat 123)

/-- Whether a segment fits one of a pattern. -/
def fits (pattern segment : List Char) : Bool :=
  if is_parameter pattern then !segment.isEmpty else pattern == segment

/-- Whether the segments of a path fit a pattern, one by one. -/
def fits_all : List (List Char) → List (List Char) → Bool
  | [], [] => true
  | p :: ps, s :: ss => fits p s && fits_all ps ss
  | _, _ => false

/-- The pattern under `nest("/api/v1/kova", ..)`. -/
def Route.pattern (r : Route) : List (List Char) := segments ("/api/v1/kova" ++ r.path).toList

def Route.matches_path (r : Route) (path : String) : Bool :=
  fits_all r.pattern (segments path.toList)

/-- Whether the route serves the method. -/
def Route.serves (r : Route) (method : Method) : Bool :=
  r.method = method || (r.method = .GET && method = .HEAD)

inductive Routed where
  | handler (route : Route)
  | method_not_allowed
  | not_found
  deriving DecidableEq

/-- What the router decides. -/
def dispatch (method : Method) (path : String) : Routed :=
  let candidates := routes.filter fun r => r.matches_path path
  match candidates.find? fun r => r.serves method with
  | some r => .handler r
  | none => if candidates.isEmpty then .not_found else .method_not_allowed

/-- The first segment of a route under the prefix. -/
def Route.group (r : Route) : Option (List Char) := (segments r.path.toList)[1]?

/-- A route outside `/auth/*` and `/health`. -/
def Route.protects (r : Route) : Bool :=
  r.group ≠ some "auth".toList && r.group ≠ some "health".toList

/-- What is dispatched is in the table and fits the path. -/
theorem dispatch_handler {method : Method} {path : String} {r : Route}
    (h : dispatch method path = .handler r) :
    r ∈ routes ∧ r.matches_path path = true ∧ r.serves method = true := by
  simp only [dispatch] at h
  split at h
  · next r' hfind =>
    cases h
    have hmem := List.mem_of_find?_eq_some hfind
    have hserves := List.find?_some hfind
    obtain ⟨hroute, hpath⟩ := List.mem_filter.mp hmem
    exact ⟨hroute, hpath, hserves⟩
  · split at h <;> cases h

end Kova.Gateway

import Kova.Conc.History
import Kova.Gateway.Http

/-!
# The circuit breaker

The three-state machine and the middleware around an inner service. The middleware is generic in
the service, and so is the model: `Op I` adds the breaker's three operations to the operations
`I` of the service, and `machine` adds the breaker and its monotonic clock to the service's
machine. A call is admitted or refused, awaits the service, and reports the response's class; it
reports nothing when the service fails (`?`) or when its future is dropped.
-/

set_option autoImplicit false

namespace Kova.Gateway.CircuitBreaker

open Conc

/-! ## The state machine -/

def FAILURE_THRESHOLD : Nat := 5

/-- 30 seconds, in nanoseconds. -/
def OPEN_DURATION : Nat := 30000000000

inductive State where
  | Closed (consecutive_failures : Nat)
  | Open (opened_at : Nat)
  | HalfOpen
  deriving DecidableEq

/-- `State::default`. -/
def State.init : State := .Closed 0

/-- `allow_request`: the answer and the state it leaves. -/
def allow_request (now : Nat) : State → Bool × State
  | .Closed n => (true, .Closed n)
  | .Open opened_at =>
    if OPEN_DURATION ≤ now - opened_at then (true, .HalfOpen) else (false, .Open opened_at)
  | .HalfOpen => (false, .HalfOpen)

def on_success (_ : State) : State := .Closed 0

def on_failure (now : Nat) : State → State
  | .Closed consecutive_failures =>
    let next := consecutive_failures + 1
    if FAILURE_THRESHOLD ≤ next then .Open now else .Closed next
  | .HalfOpen => .Open now
  | .Open opened_at => .Open opened_at

/-! ## The middleware -/

/-- The operations of a call: the breaker's, under its lock, and the service's. -/
inductive Op (I : Type) where
  | allow_request
  | on_success
  | on_failure
  | inner (op : I)
  deriving DecidableEq

variable {σ Req I Ch En ε α : Type} {R : I → Type}

def Op.Res (R : I → Type) : Op I → Type
  | .allow_request => Bool
  | .on_success | .on_failure => Unit
  | .inner op => R op

/-- A program of the service, awaited inside the middleware. -/
def inward : Prog I R ε α → Prog (Op I) (Op.Res R) ε α
  | .ret a => .ret a
  | .raise e => .raise e
  | .await op next => .await (.inner op) fun r => inward (next r)

/-- After the service answered: a 5xx is a failure, anything else a success. -/
def report (response : Response) : Prog (Op I) (Op.Res R) ε Response :=
  if response.is_server_error then .await .on_failure fun _ => .ret response
  else .await .on_success fun _ => .ret response

/-- `CircuitBreakerMiddleware::call`. -/
def call (service_name : String) (inner : Req → Prog I R ε Response) (req : Req) :
    Prog (Op I) (Op.Res R) ε Response :=
  .await .allow_request fun
    | false => .ret (ApiError.service_unavailable service_name)
    | true => do
      let response ← inward (inner req)
      report response

/-- The breaker, its clock in nanoseconds, and the state of the service. -/
structure Store (σ : Type) where
  state : State
  instant : Nat
  inner : σ

/-- What happens outside the calls: time passes, or something outside the service's calls. -/
inductive Outside (En : Type) where
  | advance (nanos : Nat)
  | inner (e : En)

/-- One operation. -/
def exec (M : Machine σ I R Ch En) (t : Nat) (ch : Ch) (s : Store σ) :
    (op : Op I) → Option (op.Res R × Store σ)
  | .allow_request =>
    some ((CircuitBreaker.allow_request s.instant s.state).1,
      { s with state := (CircuitBreaker.allow_request s.instant s.state).2 })
  | .on_success => some ((), { s with state := CircuitBreaker.on_success s.state })
  | .on_failure => some ((), { s with state := CircuitBreaker.on_failure s.instant s.state })
  | .inner op => (M.exec t ch s.inner op).map fun (r, inner) => (r, { s with inner })

def outside (M : Machine σ I R Ch En) : Outside En → Store σ → Option (Store σ)
  | .advance n, s => some { s with instant := s.instant + n }
  | .inner e, s => (M.env e s.inner).map fun inner => { s with inner }

/-- The breaker around a service. -/
def machine (M : Machine σ I R Ch En) :
    Machine (Store σ) (Op I) (Op.Res R) Ch (Outside En) := ⟨exec M, outside M⟩

/-- The runs of the middleware around a service: any number of overlapping requests. -/
abbrev BreakerRun (M : Machine σ I R Ch En) (service_name : String)
    (inner : Req → Prog I R ε Response) :
    Conf (Store σ) Req (Op I) (Op.Res R) ε Response → List (Label Req Ch (Outside En)) →
      Conf (Store σ) Req (Op I) (Op.Res R) ε Response → Prop :=
  Run (machine M) (call service_name inner) .all

/-- Before the first request: `CircuitBreaker::new`. -/
def start (instant : Nat) (s : σ) : Conf (Store σ) Req (Op I) (Op.Res R) ε Response :=
  .init ⟨.init, instant, s⟩

/-- One executed operation of the middleware. -/
abbrev BreakerEvent (σ Req : Type) {I : Type} (R : I → Type) :=
  Event (Store σ) Req (Op I) (Op.Res R)

/-! ## What an event is -/

/-- The request was admitted. -/
def Admits (e : BreakerEvent σ Req R) : Prop := e.did = ⟨.allow_request, true⟩

/-- The request was refused. -/
def Refuses (e : BreakerEvent σ Req R) : Prop := e.did = ⟨.allow_request, false⟩

instance (e : BreakerEvent σ Req R) : Decidable (Admits e) :=
  match e with
  | ⟨_, _, .allow_request, _, true, _⟩ => isTrue rfl
  | ⟨_, _, .allow_request, _, false, _⟩ => isFalse fun h => by cases h
  | ⟨_, _, .on_success, _, _, _⟩ => isFalse fun h => by cases h
  | ⟨_, _, .on_failure, _, _, _⟩ => isFalse fun h => by cases h
  | ⟨_, _, .inner _, _, _, _⟩ => isFalse fun h => by cases h

def Op.completes : Op I → Bool
  | .on_success | .on_failure => true
  | _ => false

/-- A request completed with a response. -/
def Completes (e : BreakerEvent σ Req R) : Prop := e.op.completes = true

instance (e : BreakerEvent σ Req R) : Decidable (Completes e) :=
  inferInstanceAs (Decidable (_ = _))

/-! ## A sample service -/

/-- A service that answers what it is told to, or fails. -/
def sample : Machine Unit Unit (fun _ => Option Response) (Option Response) Empty where
  exec _ ch s _ := some (ch, s)
  env e _ := e.elim

def sample_inner : Unit → Prog Unit (fun _ => Option Response) Unit Response
  | () => .await () fun
    | some response => .ret response
    | none => .raise ()

abbrev SampleConf := Conf (Store Unit) Unit (Op Unit) (Op.Res fun _ => Option Response) Unit Response

abbrev SampleEvent := BreakerEvent Unit Unit fun _ : Unit => Option Response

abbrev SampleLabel := Label Unit (Option Response) (Outside Empty)

def sample_start : SampleConf := start 0 ()

def ok : Response := ⟨200, .empty, none, none⟩

def bad_gateway : Response := ⟨502, .empty, none, none⟩

/-- Request `t` arrives, is admitted and answered. -/
def exchange (t : Nat) (response : Response) : List SampleLabel :=
  [.spawn (), .run t none, .run t (some response), .run t none]

/-- Five requests, each answered by a 5xx. -/
def five_failures : List SampleLabel := (List.range 5).flatMap fun t => exchange t bad_gateway

end Kova.Gateway.CircuitBreaker

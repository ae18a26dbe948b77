import Kova.Conc.Accepted

/-!
# The payment state machine

`PaymentStatus`, `PaymentEvent`, and the transitions between the statuses. A refused event is
answered with the names of the status and of the event (`transition_error`). A payment in a
terminal status accepts one event only, the refund of a settled payment (`of_terminal`), and
`FraudReview` is the one event that leaves a status as it is (`of_review`).
-/

set_option autoImplicit false

namespace Kova

/-- An invalid state machine transition was attempted. -/
structure InvalidTransitionError where
  source : String
  target : String
  deriving DecidableEq

/-- The lifecycle state of a payment. -/
inductive PaymentStatus where
  | Initiated | Validating | FraudCheck | FxConversion | SettlementSubmitted | Settled | Failed
  | Refunded | Expired
  deriving DecidableEq

/-- An event that drives it forward. -/
inductive PaymentEvent where
  | ValidationPassed | ValidationFailed | FraudApproved | FraudBlocked | FraudReview | FxConverted
  | SubmittedToRail | RailSettled | RailFailed | RefundRequested | Expired
  deriving DecidableEq

/-- `Display`. -/
def PaymentEvent.to_string : PaymentEvent → String
  | .ValidationPassed => "ValidationPassed"
  | .ValidationFailed => "ValidationFailed"
  | .FraudApproved => "FraudApproved"
  | .FraudBlocked => "FraudBlocked"
  | .FraudReview => "FraudReview"
  | .FxConverted => "FxConverted"
  | .SubmittedToRail => "SubmittedToRail"
  | .RailSettled => "RailSettled"
  | .RailFailed => "RailFailed"
  | .RefundRequested => "RefundRequested"
  | .Expired => "Expired"

namespace PaymentStatus

/-- `impl_sqlx_string_enum!`: `Display`, and the text of the column. -/
def to_string : PaymentStatus → String
  | .Initiated => "initiated"
  | .Validating => "validating"
  | .FraudCheck => "fraud_check"
  | .FxConversion => "fx_conversion"
  | .SettlementSubmitted => "settlement_submitted"
  | .Settled => "settled"
  | .Failed => "failed"
  | .Refunded => "refunded"
  | .Expired => "expired"

def is_terminal : PaymentStatus → Bool
  | .Settled | .Failed | .Refunded | .Expired => true
  | _ => false

/-- `transition`: the next status, or the names of the two that do not go together. -/
def transition (self : PaymentStatus) (event : PaymentEvent) :
    Except InvalidTransitionError PaymentStatus :=
  match self, event with
  | .Initiated, .ValidationPassed => .ok .Validating
  | .Initiated, .ValidationFailed => .ok .Failed
  | .Initiated, .Expired => .ok .Expired
  | .Validating, .FraudApproved => .ok .FraudCheck
  | .Validating, .FraudBlocked => .ok .Failed
  | .Validating, .Expired => .ok .Expired
  -- held for manual review
  | .FraudCheck, .FraudReview => .ok .FraudCheck
  | .FraudCheck, .FraudApproved => .ok .FxConversion
  | .FraudCheck, .FraudBlocked => .ok .Failed
  -- the same currency on both sides, nothing to convert
  | .FraudCheck, .SubmittedToRail => .ok .SettlementSubmitted
  | .FraudCheck, .Expired => .ok .Expired
  | .FxConversion, .FxConverted => .ok .SettlementSubmitted
  | .FxConversion, .Expired => .ok .Expired
  | .SettlementSubmitted, .RailSettled => .ok .Settled
  | .SettlementSubmitted, .RailFailed => .ok .Failed
  | .Settled, .RefundRequested => .ok .Refunded
  | _, _ => .error ⟨self.to_string, event.to_string⟩

variable {s d : PaymentStatus} {e : PaymentEvent}

/-- A refusal names the status and the event. -/
theorem transition_error {x : InvalidTransitionError} (h : s.transition e = .error x) :
    x = ⟨s.to_string, e.to_string⟩ := by
  cases s <;> cases e <;> cases h <;> rfl

/-- What a terminal status accepts. -/
theorem of_terminal (hterminal : s.is_terminal = true) (hstep : s.transition e = .ok d) :
    s = .Settled ∧ e = .RefundRequested ∧ d = .Refunded := by
  cases s with
  | Settled =>
    cases e with
    | RefundRequested =>
      cases hstep
      exact ⟨rfl, rfl, rfl⟩
    | _ => cases hstep
  | Failed | Refunded | Expired => cases e <;> cases hstep
  | _ => cases hterminal

/-- Where a payment is held for review. -/
theorem of_review (hstep : s.transition .FraudReview = .ok d) :
    s = .FraudCheck ∧ d = .FraudCheck := by
  cases s with
  | FraudCheck =>
    cases hstep
    exact ⟨rfl, rfl⟩
  | _ => cases hstep

end PaymentStatus

end Kova

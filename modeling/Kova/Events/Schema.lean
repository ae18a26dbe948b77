import Kova.Events.Formats

/-!
# The event schema

The Kafka events of kova-types, struct by struct: the fields of each with their formats, from which
the derived writer and reader come, and the topic that it is for (`Kind`).
-/

set_option autoImplicit false

namespace Kova.Events

open Json (Format)
open Ledger (Formats)

/-- The version of each of the seven files. -/
def SCHEMA_VERSION : UInt8 := 1

section

variable (f : Formats)

/-! ## events/payment.rs -/

def TOPIC_PAYMENT_INITIATED : String := "kova.payment.initiated"
def TOPIC_PAYMENT_VALIDATED : String := "kova.payment.validated"
def TOPIC_PAYMENT_FRAUD_CHECKED : String := "kova.payment.fraud_checked"
def TOPIC_PAYMENT_FX_CONVERTED : String := "kova.payment.fx_converted"
def TOPIC_PAYMENT_SETTLED : String := "kova.payment.settled"
def TOPIC_PAYMENT_FAILED : String := "kova.payment.failed"
def TOPIC_PAYMENT_REFUNDED : String := "kova.payment.refunded"
def TOPIC_PAYMENT_EXPIRED : String := "kova.payment.expired"

structure PaymentInitiatedEvent where
  schema_version : UInt8
  (event_id payment_id : KovaPaymentId)
  user_id : KovaUserId
  (source_account_id destination_account_id : KovaAccountId)
  amount : Decimal
  currency : Ledger.Currency
  (rail idempotency_key : String)
  occurred_at : DateTime

def PaymentInitiatedEvent.fields : Json.Fields PaymentInitiatedEvent PaymentInitiatedEvent :=
  (Json.Fields.done PaymentInitiatedEvent.mk)
    |>.field "schema_version" u8 (·.schema_version)
    |>.field "event_id" (id .Payment) (·.event_id)
    |>.field "payment_id" (id .Payment) (·.payment_id)
    |>.field "user_id" (id .User) (·.user_id)
    |>.field "source_account_id" (id .Account) (·.source_account_id)
    |>.field "destination_account_id" (id .Account) (·.destination_account_id)
    |>.field "amount" (decimal f) (·.amount)
    |>.field "currency" currency_code (·.currency)
    |>.field "rail" text (·.rail)
    |>.field "idempotency_key" text (·.idempotency_key)
    |>.field "occurred_at" (date_time f) (·.occurred_at)

structure PaymentValidatedEvent where
  schema_version : UInt8
  (event_id payment_id : KovaPaymentId)
  user_id : KovaUserId
  validation_passed : Bool
  failure_reason : Option String
  occurred_at : DateTime

def PaymentValidatedEvent.fields : Json.Fields PaymentValidatedEvent PaymentValidatedEvent :=
  (Json.Fields.done PaymentValidatedEvent.mk)
    |>.field "schema_version" u8 (·.schema_version)
    |>.field "event_id" (id .Payment) (·.event_id)
    |>.field "payment_id" (id .Payment) (·.payment_id)
    |>.field "user_id" (id .User) (·.user_id)
    |>.field "validation_passed" bool (·.validation_passed)
    |>.field "failure_reason" (optional text) (·.failure_reason)
    |>.field "occurred_at" (date_time f) (·.occurred_at)

structure PaymentFraudCheckedEvent where
  schema_version : UInt8
  (event_id payment_id : KovaPaymentId)
  user_id : KovaUserId
  decision : String
  risk_score : UInt8
  occurred_at : DateTime

def PaymentFraudCheckedEvent.fields :
    Json.Fields PaymentFraudCheckedEvent PaymentFraudCheckedEvent :=
  (Json.Fields.done PaymentFraudCheckedEvent.mk)
    |>.field "schema_version" u8 (·.schema_version)
    |>.field "event_id" (id .Payment) (·.event_id)
    |>.field "payment_id" (id .Payment) (·.payment_id)
    |>.field "user_id" (id .User) (·.user_id)
    |>.field "decision" text (·.decision)
    |>.field "risk_score" u8 (·.risk_score)
    |>.field "occurred_at" (date_time f) (·.occurred_at)

structure PaymentFxConvertedEvent where
  schema_version : UInt8
  (event_id payment_id : KovaPaymentId)
  user_id : KovaUserId
  (from_currency to_currency : Ledger.Currency)
  (rate source_amount converted_amount : Decimal)
  occurred_at : DateTime

def PaymentFxConvertedEvent.fields : Json.Fields PaymentFxConvertedEvent PaymentFxConvertedEvent :=
  (Json.Fields.done PaymentFxConvertedEvent.mk)
    |>.field "schema_version" u8 (·.schema_version)
    |>.field "event_id" (id .Payment) (·.event_id)
    |>.field "payment_id" (id .Payment) (·.payment_id)
    |>.field "user_id" (id .User) (·.user_id)
    |>.field "from_currency" currency_code (·.from_currency)
    |>.field "to_currency" currency_code (·.to_currency)
    |>.field "rate" (decimal f) (·.rate)
    |>.field "source_amount" (decimal f) (·.source_amount)
    |>.field "converted_amount" (decimal f) (·.converted_amount)
    |>.field "occurred_at" (date_time f) (·.occurred_at)

structure PaymentSettledEvent where
  schema_version : UInt8
  (event_id payment_id : KovaPaymentId)
  user_id : KovaUserId
  amount : Decimal
  currency : Ledger.Currency
  rail_reference : String
  (settled_at occurred_at : DateTime)

def PaymentSettledEvent.fields : Json.Fields PaymentSettledEvent PaymentSettledEvent :=
  (Json.Fields.done PaymentSettledEvent.mk)
    |>.field "schema_version" u8 (·.schema_version)
    |>.field "event_id" (id .Payment) (·.event_id)
    |>.field "payment_id" (id .Payment) (·.payment_id)
    |>.field "user_id" (id .User) (·.user_id)
    |>.field "amount" (decimal f) (·.amount)
    |>.field "currency" currency_code (·.currency)
    |>.field "rail_reference" text (·.rail_reference)
    |>.field "settled_at" (date_time f) (·.settled_at)
    |>.field "occurred_at" (date_time f) (·.occurred_at)

structure PaymentFailedEvent where
  schema_version : UInt8
  (event_id payment_id : KovaPaymentId)
  user_id : KovaUserId
  reason : String
  (failed_at occurred_at : DateTime)

def PaymentFailedEvent.fields : Json.Fields PaymentFailedEvent PaymentFailedEvent :=
  (Json.Fields.done PaymentFailedEvent.mk)
    |>.field "schema_version" u8 (·.schema_version)
    |>.field "event_id" (id .Payment) (·.event_id)
    |>.field "payment_id" (id .Payment) (·.payment_id)
    |>.field "user_id" (id .User) (·.user_id)
    |>.field "reason" text (·.reason)
    |>.field "failed_at" (date_time f) (·.failed_at)
    |>.field "occurred_at" (date_time f) (·.occurred_at)

structure PaymentRefundedEvent where
  schema_version : UInt8
  (event_id payment_id : KovaPaymentId)
  user_id : KovaUserId
  amount : Decimal
  currency : Ledger.Currency
  (refunded_at occurred_at : DateTime)

def PaymentRefundedEvent.fields : Json.Fields PaymentRefundedEvent PaymentRefundedEvent :=
  (Json.Fields.done PaymentRefundedEvent.mk)
    |>.field "schema_version" u8 (·.schema_version)
    |>.field "event_id" (id .Payment) (·.event_id)
    |>.field "payment_id" (id .Payment) (·.payment_id)
    |>.field "user_id" (id .User) (·.user_id)
    |>.field "amount" (decimal f) (·.amount)
    |>.field "currency" currency_code (·.currency)
    |>.field "refunded_at" (date_time f) (·.refunded_at)
    |>.field "occurred_at" (date_time f) (·.occurred_at)

structure PaymentExpiredEvent where
  schema_version : UInt8
  (event_id payment_id : KovaPaymentId)
  user_id : KovaUserId
  (expired_at occurred_at : DateTime)

def PaymentExpiredEvent.fields : Json.Fields PaymentExpiredEvent PaymentExpiredEvent :=
  (Json.Fields.done PaymentExpiredEvent.mk)
    |>.field "schema_version" u8 (·.schema_version)
    |>.field "event_id" (id .Payment) (·.event_id)
    |>.field "payment_id" (id .Payment) (·.payment_id)
    |>.field "user_id" (id .User) (·.user_id)
    |>.field "expired_at" (date_time f) (·.expired_at)
    |>.field "occurred_at" (date_time f) (·.occurred_at)

/-! ## events/account.rs -/

def TOPIC_ACCOUNT_CREATED : String := "kova.account.created"
def TOPIC_ACCOUNT_ACTIVATED : String := "kova.account.activated"
def TOPIC_ACCOUNT_SUSPENDED : String := "kova.account.suspended"
def TOPIC_ACCOUNT_CLOSED : String := "kova.account.closed"
def TOPIC_ACCOUNT_LIMIT_CHANGED : String := "kova.account.limit_changed"

structure AccountCreatedEvent where
  schema_version : UInt8
  (event_id account_id : KovaAccountId)
  user_id : KovaUserId
  currency : Ledger.Currency
  account_number : String
  occurred_at : DateTime

def AccountCreatedEvent.fields : Json.Fields AccountCreatedEvent AccountCreatedEvent :=
  (Json.Fields.done AccountCreatedEvent.mk)
    |>.field "schema_version" u8 (·.schema_version)
    |>.field "event_id" (id .Account) (·.event_id)
    |>.field "account_id" (id .Account) (·.account_id)
    |>.field "user_id" (id .User) (·.user_id)
    |>.field "currency" currency_code (·.currency)
    |>.field "account_number" text (·.account_number)
    |>.field "occurred_at" (date_time f) (·.occurred_at)

structure AccountActivatedEvent where
  schema_version : UInt8
  (event_id account_id : KovaAccountId)
  user_id : KovaUserId
  (activated_at occurred_at : DateTime)

def AccountActivatedEvent.fields : Json.Fields AccountActivatedEvent AccountActivatedEvent :=
  (Json.Fields.done AccountActivatedEvent.mk)
    |>.field "schema_version" u8 (·.schema_version)
    |>.field "event_id" (id .Account) (·.event_id)
    |>.field "account_id" (id .Account) (·.account_id)
    |>.field "user_id" (id .User) (·.user_id)
    |>.field "activated_at" (date_time f) (·.activated_at)
    |>.field "occurred_at" (date_time f) (·.occurred_at)

structure AccountSuspendedEvent where
  schema_version : UInt8
  (event_id account_id : KovaAccountId)
  user_id : KovaUserId
  reason : String
  (suspended_at occurred_at : DateTime)

def AccountSuspendedEvent.fields : Json.Fields AccountSuspendedEvent AccountSuspendedEvent :=
  (Json.Fields.done AccountSuspendedEvent.mk)
    |>.field "schema_version" u8 (·.schema_version)
    |>.field "event_id" (id .Account) (·.event_id)
    |>.field "account_id" (id .Account) (·.account_id)
    |>.field "user_id" (id .User) (·.user_id)
    |>.field "reason" text (·.reason)
    |>.field "suspended_at" (date_time f) (·.suspended_at)
    |>.field "occurred_at" (date_time f) (·.occurred_at)

structure AccountClosedEvent where
  schema_version : UInt8
  (event_id account_id : KovaAccountId)
  user_id : KovaUserId
  reason : String
  (closed_at occurred_at : DateTime)

def AccountClosedEvent.fields : Json.Fields AccountClosedEvent AccountClosedEvent :=
  (Json.Fields.done AccountClosedEvent.mk)
    |>.field "schema_version" u8 (·.schema_version)
    |>.field "event_id" (id .Account) (·.event_id)
    |>.field "account_id" (id .Account) (·.account_id)
    |>.field "user_id" (id .User) (·.user_id)
    |>.field "reason" text (·.reason)
    |>.field "closed_at" (date_time f) (·.closed_at)
    |>.field "occurred_at" (date_time f) (·.occurred_at)

structure AccountLimitChangedEvent where
  schema_version : UInt8
  (event_id account_id : KovaAccountId)
  user_id : KovaUserId
  limit_type : String
  (old_limit new_limit : Decimal)
  currency : Ledger.Currency
  occurred_at : DateTime

def AccountLimitChangedEvent.fields :
    Json.Fields AccountLimitChangedEvent AccountLimitChangedEvent :=
  (Json.Fields.done AccountLimitChangedEvent.mk)
    |>.field "schema_version" u8 (·.schema_version)
    |>.field "event_id" (id .Account) (·.event_id)
    |>.field "account_id" (id .Account) (·.account_id)
    |>.field "user_id" (id .User) (·.user_id)
    |>.field "limit_type" text (·.limit_type)
    |>.field "old_limit" (decimal f) (·.old_limit)
    |>.field "new_limit" (decimal f) (·.new_limit)
    |>.field "currency" currency_code (·.currency)
    |>.field "occurred_at" (date_time f) (·.occurred_at)

/-! ## events/card.rs -/

/-- `rename_all = "snake_case"`. -/
inductive DeclineReason
  | InsufficientFunds | CardBlocked | CardExpired | DailyLimitExceeded | FraudBlock | InvalidPin
  | MerchantBlocked | Other

def DeclineReason.text : DeclineReason → String
  | InsufficientFunds => "insufficient_funds"
  | CardBlocked => "card_blocked"
  | CardExpired => "card_expired"
  | DailyLimitExceeded => "daily_limit_exceeded"
  | FraudBlock => "fraud_block"
  | InvalidPin => "invalid_pin"
  | MerchantBlocked => "merchant_blocked"
  | Other => "other"

def DeclineReason.all : List DeclineReason :=
  [.InsufficientFunds, .CardBlocked, .CardExpired, .DailyLimitExceeded, .FraudBlock, .InvalidPin,
    .MerchantBlocked, .Other]

def DeclineReason.format : Format DeclineReason := variant DeclineReason.text DeclineReason.all

def TOPIC_CARD_ISSUED : String := "kova.card.issued"
def TOPIC_CARD_ACTIVATED : String := "kova.card.activated"
def TOPIC_CARD_BLOCKED : String := "kova.card.blocked"
def TOPIC_CARD_UNBLOCKED : String := "kova.card.unblocked"
def TOPIC_CARD_EXPIRED : String := "kova.card.expired"
def TOPIC_CARD_TRANSACTION_APPROVED : String := "kova.card.transaction.approved"
def TOPIC_CARD_TRANSACTION_DECLINED : String := "kova.card.transaction.declined"

structure CardIssuedEvent where
  schema_version : UInt8
  (event_id card_id : KovaCardId)
  user_id : KovaUserId
  account_id : KovaAccountId
  (card_type last_four : String)
  (issued_at occurred_at : DateTime)

def CardIssuedEvent.fields : Json.Fields CardIssuedEvent CardIssuedEvent :=
  (Json.Fields.done CardIssuedEvent.mk)
    |>.field "schema_version" u8 (·.schema_version)
    |>.field "event_id" (id .Card) (·.event_id)
    |>.field "card_id" (id .Card) (·.card_id)
    |>.field "user_id" (id .User) (·.user_id)
    |>.field "account_id" (id .Account) (·.account_id)
    |>.field "card_type" text (·.card_type)
    |>.field "last_four" text (·.last_four)
    |>.field "issued_at" (date_time f) (·.issued_at)
    |>.field "occurred_at" (date_time f) (·.occurred_at)

structure CardActivatedEvent where
  schema_version : UInt8
  (event_id card_id : KovaCardId)
  user_id : KovaUserId
  (activated_at occurred_at : DateTime)

def CardActivatedEvent.fields : Json.Fields CardActivatedEvent CardActivatedEvent :=
  (Json.Fields.done CardActivatedEvent.mk)
    |>.field "schema_version" u8 (·.schema_version)
    |>.field "event_id" (id .Card) (·.event_id)
    |>.field "card_id" (id .Card) (·.card_id)
    |>.field "user_id" (id .User) (·.user_id)
    |>.field "activated_at" (date_time f) (·.activated_at)
    |>.field "occurred_at" (date_time f) (·.occurred_at)

structure CardBlockedEvent where
  schema_version : UInt8
  (event_id card_id : KovaCardId)
  user_id : KovaUserId
  reason : String
  (blocked_at occurred_at : DateTime)

def CardBlockedEvent.fields : Json.Fields CardBlockedEvent CardBlockedEvent :=
  (Json.Fields.done CardBlockedEvent.mk)
    |>.field "schema_version" u8 (·.schema_version)
    |>.field "event_id" (id .Card) (·.event_id)
    |>.field "card_id" (id .Card) (·.card_id)
    |>.field "user_id" (id .User) (·.user_id)
    |>.field "reason" text (·.reason)
    |>.field "blocked_at" (date_time f) (·.blocked_at)
    |>.field "occurred_at" (date_time f) (·.occurred_at)

structure CardUnblockedEvent where
  schema_version : UInt8
  (event_id card_id : KovaCardId)
  user_id : KovaUserId
  occurred_at : DateTime

def CardUnblockedEvent.fields : Json.Fields CardUnblockedEvent CardUnblockedEvent :=
  (Json.Fields.done CardUnblockedEvent.mk)
    |>.field "schema_version" u8 (·.schema_version)
    |>.field "event_id" (id .Card) (·.event_id)
    |>.field "card_id" (id .Card) (·.card_id)
    |>.field "user_id" (id .User) (·.user_id)
    |>.field "occurred_at" (date_time f) (·.occurred_at)

structure CardExpiredEvent where
  schema_version : UInt8
  (event_id card_id : KovaCardId)
  user_id : KovaUserId
  (expired_at occurred_at : DateTime)

def CardExpiredEvent.fields : Json.Fields CardExpiredEvent CardExpiredEvent :=
  (Json.Fields.done CardExpiredEvent.mk)
    |>.field "schema_version" u8 (·.schema_version)
    |>.field "event_id" (id .Card) (·.event_id)
    |>.field "card_id" (id .Card) (·.card_id)
    |>.field "user_id" (id .User) (·.user_id)
    |>.field "expired_at" (date_time f) (·.expired_at)
    |>.field "occurred_at" (date_time f) (·.occurred_at)

structure CardTransactionApprovedEvent where
  schema_version : UInt8
  (event_id card_id : KovaCardId)
  user_id : KovaUserId
  (merchant_name merchant_category_code : String)
  amount : Decimal
  currency : Ledger.Currency
  occurred_at : DateTime

def CardTransactionApprovedEvent.fields :
    Json.Fields CardTransactionApprovedEvent CardTransactionApprovedEvent :=
  (Json.Fields.done CardTransactionApprovedEvent.mk)
    |>.field "schema_version" u8 (·.schema_version)
    |>.field "event_id" (id .Card) (·.event_id)
    |>.field "card_id" (id .Card) (·.card_id)
    |>.field "user_id" (id .User) (·.user_id)
    |>.field "merchant_name" text (·.merchant_name)
    |>.field "merchant_category_code" text (·.merchant_category_code)
    |>.field "amount" (decimal f) (·.amount)
    |>.field "currency" currency_code (·.currency)
    |>.field "occurred_at" (date_time f) (·.occurred_at)

structure CardTransactionDeclinedEvent where
  schema_version : UInt8
  (event_id card_id : KovaCardId)
  user_id : KovaUserId
  (merchant_name merchant_category_code : String)
  amount : Decimal
  currency : Ledger.Currency
  decline_reason : DeclineReason
  occurred_at : DateTime

def CardTransactionDeclinedEvent.fields :
    Json.Fields CardTransactionDeclinedEvent CardTransactionDeclinedEvent :=
  (Json.Fields.done CardTransactionDeclinedEvent.mk)
    |>.field "schema_version" u8 (·.schema_version)
    |>.field "event_id" (id .Card) (·.event_id)
    |>.field "card_id" (id .Card) (·.card_id)
    |>.field "user_id" (id .User) (·.user_id)
    |>.field "merchant_name" text (·.merchant_name)
    |>.field "merchant_category_code" text (·.merchant_category_code)
    |>.field "amount" (decimal f) (·.amount)
    |>.field "currency" currency_code (·.currency)
    |>.field "decline_reason" DeclineReason.format (·.decline_reason)
    |>.field "occurred_at" (date_time f) (·.occurred_at)

/-! ## events/kyc.rs -/

/-- kyc.rs. -/
inductive KycRiskLevel
  | Low | Medium | High

def KycRiskLevel.text : KycRiskLevel → String
  | Low => "Low"
  | Medium => "Medium"
  | High => "High"

def KycRiskLevel.all : List KycRiskLevel := [.Low, .Medium, .High]

def KycRiskLevel.format : Format KycRiskLevel := variant KycRiskLevel.text KycRiskLevel.all

def TOPIC_KYC_SUBMITTED : String := "kova.kyc.submitted"
def TOPIC_KYC_DOCUMENT_UPLOADED : String := "kova.kyc.document_uploaded"
def TOPIC_KYC_REVIEW_STARTED : String := "kova.kyc.review_started"
def TOPIC_KYC_APPROVED : String := "kova.kyc.approved"
def TOPIC_KYC_REJECTED : String := "kova.kyc.rejected"

structure KycSubmittedEvent where
  schema_version : UInt8
  (event_id user_id : KovaUserId)
  application_id : KovaKycDocumentId
  (submitted_at occurred_at : DateTime)

def KycSubmittedEvent.fields : Json.Fields KycSubmittedEvent KycSubmittedEvent :=
  (Json.Fields.done KycSubmittedEvent.mk)
    |>.field "schema_version" u8 (·.schema_version)
    |>.field "event_id" (id .User) (·.event_id)
    |>.field "user_id" (id .User) (·.user_id)
    |>.field "application_id" (id .KycDocument) (·.application_id)
    |>.field "submitted_at" (date_time f) (·.submitted_at)
    |>.field "occurred_at" (date_time f) (·.occurred_at)

structure KycDocumentUploadedEvent where
  schema_version : UInt8
  (event_id document_id : KovaKycDocumentId)
  user_id : KovaUserId
  document_type : String
  (uploaded_at occurred_at : DateTime)

def KycDocumentUploadedEvent.fields :
    Json.Fields KycDocumentUploadedEvent KycDocumentUploadedEvent :=
  (Json.Fields.done KycDocumentUploadedEvent.mk)
    |>.field "schema_version" u8 (·.schema_version)
    |>.field "event_id" (id .KycDocument) (·.event_id)
    |>.field "document_id" (id .KycDocument) (·.document_id)
    |>.field "user_id" (id .User) (·.user_id)
    |>.field "document_type" text (·.document_type)
    |>.field "uploaded_at" (date_time f) (·.uploaded_at)
    |>.field "occurred_at" (date_time f) (·.occurred_at)

structure KycReviewStartedEvent where
  schema_version : UInt8
  (event_id user_id : KovaUserId)
  application_id : KovaKycDocumentId
  reviewer_id : Option KovaUserId
  (started_at occurred_at : DateTime)

def KycReviewStartedEvent.fields : Json.Fields KycReviewStartedEvent KycReviewStartedEvent :=
  (Json.Fields.done KycReviewStartedEvent.mk)
    |>.field "schema_version" u8 (·.schema_version)
    |>.field "event_id" (id .User) (·.event_id)
    |>.field "user_id" (id .User) (·.user_id)
    |>.field "application_id" (id .KycDocument) (·.application_id)
    |>.field "reviewer_id" (optional (id .User)) (·.reviewer_id)
    |>.field "started_at" (date_time f) (·.started_at)
    |>.field "occurred_at" (date_time f) (·.occurred_at)

structure KycApprovedEvent where
  schema_version : UInt8
  (event_id user_id : KovaUserId)
  application_id : KovaKycDocumentId
  risk_level : KycRiskLevel
  (approved_at occurred_at : DateTime)

def KycApprovedEvent.fields : Json.Fields KycApprovedEvent KycApprovedEvent :=
  (Json.Fields.done KycApprovedEvent.mk)
    |>.field "schema_version" u8 (·.schema_version)
    |>.field "event_id" (id .User) (·.event_id)
    |>.field "user_id" (id .User) (·.user_id)
    |>.field "application_id" (id .KycDocument) (·.application_id)
    |>.field "risk_level" KycRiskLevel.format (·.risk_level)
    |>.field "approved_at" (date_time f) (·.approved_at)
    |>.field "occurred_at" (date_time f) (·.occurred_at)

structure KycRejectedEvent where
  schema_version : UInt8
  (event_id user_id : KovaUserId)
  application_id : KovaKycDocumentId
  rejection_reason : String
  can_resubmit : Bool
  (rejected_at occurred_at : DateTime)

def KycRejectedEvent.fields : Json.Fields KycRejectedEvent KycRejectedEvent :=
  (Json.Fields.done KycRejectedEvent.mk)
    |>.field "schema_version" u8 (·.schema_version)
    |>.field "event_id" (id .User) (·.event_id)
    |>.field "user_id" (id .User) (·.user_id)
    |>.field "application_id" (id .KycDocument) (·.application_id)
    |>.field "rejection_reason" text (·.rejection_reason)
    |>.field "can_resubmit" bool (·.can_resubmit)
    |>.field "rejected_at" (date_time f) (·.rejected_at)
    |>.field "occurred_at" (date_time f) (·.occurred_at)

/-! ## events/fraud.rs -/

/-- `rename_all = "lowercase"`. -/
inductive FraudDecision
  | Allow | Review | Block

def FraudDecision.text : FraudDecision → String
  | Allow => "allow"
  | Review => "review"
  | Block => "block"

def FraudDecision.all : List FraudDecision := [.Allow, .Review, .Block]

def FraudDecision.format : Format FraudDecision := variant FraudDecision.text FraudDecision.all

def TOPIC_FRAUD_DECISION : String := "kova.fraud.decision"
def TOPIC_FRAUD_CASE_CREATED : String := "kova.fraud.case_created"

structure FraudDecisionEvent where
  schema_version : UInt8
  (event_id payment_id : KovaPaymentId)
  user_id : KovaUserId
  decision : FraudDecision
  risk_score : UInt8
  reason : String
  occurred_at : DateTime

def FraudDecisionEvent.fields : Json.Fields FraudDecisionEvent FraudDecisionEvent :=
  (Json.Fields.done FraudDecisionEvent.mk)
    |>.field "schema_version" u8 (·.schema_version)
    |>.field "event_id" (id .Payment) (·.event_id)
    |>.field "payment_id" (id .Payment) (·.payment_id)
    |>.field "user_id" (id .User) (·.user_id)
    |>.field "decision" FraudDecision.format (·.decision)
    |>.field "risk_score" deserialize_risk_score (·.risk_score)
    |>.field "reason" text (·.reason)
    |>.field "occurred_at" (date_time f) (·.occurred_at)

structure FraudCaseCreatedEvent where
  schema_version : UInt8
  event_id : KovaPaymentId
  case_id : String
  payment_id : KovaPaymentId
  user_id : KovaUserId
  risk_score : UInt8
  assigned_to : Option String
  (created_at occurred_at : DateTime)

def FraudCaseCreatedEvent.fields : Json.Fields FraudCaseCreatedEvent FraudCaseCreatedEvent :=
  (Json.Fields.done FraudCaseCreatedEvent.mk)
    |>.field "schema_version" u8 (·.schema_version)
    |>.field "event_id" (id .Payment) (·.event_id)
    |>.field "case_id" text (·.case_id)
    |>.field "payment_id" (id .Payment) (·.payment_id)
    |>.field "user_id" (id .User) (·.user_id)
    |>.field "risk_score" deserialize_risk_score (·.risk_score)
    |>.field "assigned_to" (optional text) (·.assigned_to)
    |>.field "created_at" (date_time f) (·.created_at)
    |>.field "occurred_at" (date_time f) (·.occurred_at)

/-! ## events/notification.rs -/

/-- `rename_all = "snake_case"`. -/
inductive NotificationType
  | PaymentReceived | PaymentSent | PaymentFailed | CardTransactionApproved
  | CardTransactionDeclined | KycApproved | KycRejected | FraudAlert | LowBalance
  | SystemAnnouncement

def NotificationType.text : NotificationType → String
  | PaymentReceived => "payment_received"
  | PaymentSent => "payment_sent"
  | PaymentFailed => "payment_failed"
  | CardTransactionApproved => "card_transaction_approved"
  | CardTransactionDeclined => "card_transaction_declined"
  | KycApproved => "kyc_approved"
  | KycRejected => "kyc_rejected"
  | FraudAlert => "fraud_alert"
  | LowBalance => "low_balance"
  | SystemAnnouncement => "system_announcement"

def NotificationType.all : List NotificationType :=
  [.PaymentReceived, .PaymentSent, .PaymentFailed, .CardTransactionApproved,
    .CardTransactionDeclined, .KycApproved, .KycRejected, .FraudAlert, .LowBalance,
    .SystemAnnouncement]

def NotificationType.format : Format NotificationType :=
  variant NotificationType.text NotificationType.all

def TOPIC_PUSH_NOTIFICATION_REQUESTED : String := "kova.notification.push_requested"
def TOPIC_IN_APP_NOTIFICATION : String := "kova.notification.in_app"

structure PushNotificationRequestedEvent where
  schema_version : UInt8
  event_id : KovaNotificationId
  user_id : KovaUserId
  notification_type : NotificationType
  (title body : String)
  deep_link : Option String
  extra : Option Json
  occurred_at : DateTime

def PushNotificationRequestedEvent.fields :
    Json.Fields PushNotificationRequestedEvent PushNotificationRequestedEvent :=
  (Json.Fields.done PushNotificationRequestedEvent.mk)
    |>.field "schema_version" u8 (·.schema_version)
    |>.field "event_id" (id .Notification) (·.event_id)
    |>.field "user_id" (id .User) (·.user_id)
    |>.field "notification_type" NotificationType.format (·.notification_type)
    |>.field "title" text (·.title)
    |>.field "body" text (·.body)
    |>.field "deep_link" (optional text) (·.deep_link)
    |>.field "extra" (optional value) (·.extra)
    |>.field "occurred_at" (date_time f) (·.occurred_at)

structure InAppNotificationEvent where
  schema_version : UInt8
  event_id : KovaNotificationId
  user_id : KovaUserId
  notification_type : NotificationType
  (title body : String)
  deep_link : Option String
  occurred_at : DateTime

def InAppNotificationEvent.fields : Json.Fields InAppNotificationEvent InAppNotificationEvent :=
  (Json.Fields.done InAppNotificationEvent.mk)
    |>.field "schema_version" u8 (·.schema_version)
    |>.field "event_id" (id .Notification) (·.event_id)
    |>.field "user_id" (id .User) (·.user_id)
    |>.field "notification_type" NotificationType.format (·.notification_type)
    |>.field "title" text (·.title)
    |>.field "body" text (·.body)
    |>.field "deep_link" (optional text) (·.deep_link)
    |>.field "occurred_at" (date_time f) (·.occurred_at)

/-! ## events/ledger.rs -/

def TOPIC_LEDGER_RECONCILIATION : String := "kova.ledger.reconciliation"

def LedgerEntryCreatedEvent.fields :
    Json.Fields Ledger.LedgerEntryCreatedEvent Ledger.LedgerEntryCreatedEvent :=
  (Json.Fields.done Ledger.LedgerEntryCreatedEvent.mk)
    |>.field "schema_version" u8 (·.schema_version)
    |>.field "event_id" (id .LedgerEntry) (·.event_id)
    |>.field "entry_id" (id .LedgerEntry) (·.entry_id)
    |>.field "payment_id" (id .Payment) (·.payment_id)
    |>.field "user_id" (id .User) (·.user_id)
    |>.field "debit_account_id" (id .Account) (·.debit_account_id)
    |>.field "credit_account_id" (id .Account) (·.credit_account_id)
    |>.field "amount" (decimal f) (·.amount)
    |>.field "currency" currency_code (·.currency)
    |>.field "entry_type" text (·.entry_type)
    |>.field "occurred_at" (date_time f) (·.occurred_at)

structure LedgerReconciliationEvent where
  schema_version : UInt8
  event_id : KovaLedgerEntryId
  currency : Ledger.Currency
  entries_checked : UInt64
  discrepancies_found : UInt32
  (total_debits total_credits : Decimal)
  (window_start window_end occurred_at : DateTime)

def LedgerReconciliationEvent.fields :
    Json.Fields LedgerReconciliationEvent LedgerReconciliationEvent :=
  (Json.Fields.done LedgerReconciliationEvent.mk)
    |>.field "schema_version" u8 (·.schema_version)
    |>.field "event_id" (id .LedgerEntry) (·.event_id)
    |>.field "currency" currency_code (·.currency)
    |>.field "entries_checked" u64 (·.entries_checked)
    |>.field "discrepancies_found" u32 (·.discrepancies_found)
    |>.field "total_debits" (decimal f) (·.total_debits)
    |>.field "total_credits" (decimal f) (·.total_credits)
    |>.field "window_start" (date_time f) (·.window_start)
    |>.field "window_end" (date_time f) (·.window_end)
    |>.field "occurred_at" (date_time f) (·.occurred_at)

end

/-! ## The schema -/

/-- The structs of the schema. -/
inductive Kind
  | PaymentInitiated | PaymentValidated | PaymentFraudChecked | PaymentFxConverted | PaymentSettled
  | PaymentFailed | PaymentRefunded | PaymentExpired
  | AccountCreated | AccountActivated | AccountSuspended | AccountClosed | AccountLimitChanged
  | CardIssued | CardActivated | CardBlocked | CardUnblocked | CardExpired | CardTransactionApproved
  | CardTransactionDeclined
  | KycSubmitted | KycDocumentUploaded | KycReviewStarted | KycApproved | KycRejected
  | FraudDecision | FraudCaseCreated
  | PushNotificationRequested | InAppNotification
  | LedgerEntryCreated | LedgerReconciliation
  deriving DecidableEq

def Kind.Event : Kind → Type
  | PaymentInitiated => PaymentInitiatedEvent
  | PaymentValidated => PaymentValidatedEvent
  | PaymentFraudChecked => PaymentFraudCheckedEvent
  | PaymentFxConverted => PaymentFxConvertedEvent
  | PaymentSettled => PaymentSettledEvent
  | PaymentFailed => PaymentFailedEvent
  | PaymentRefunded => PaymentRefundedEvent
  | PaymentExpired => PaymentExpiredEvent
  | AccountCreated => AccountCreatedEvent
  | AccountActivated => AccountActivatedEvent
  | AccountSuspended => AccountSuspendedEvent
  | AccountClosed => AccountClosedEvent
  | AccountLimitChanged => AccountLimitChangedEvent
  | CardIssued => CardIssuedEvent
  | CardActivated => CardActivatedEvent
  | CardBlocked => CardBlockedEvent
  | CardUnblocked => CardUnblockedEvent
  | CardExpired => CardExpiredEvent
  | CardTransactionApproved => CardTransactionApprovedEvent
  | CardTransactionDeclined => CardTransactionDeclinedEvent
  | KycSubmitted => KycSubmittedEvent
  | KycDocumentUploaded => KycDocumentUploadedEvent
  | KycReviewStarted => KycReviewStartedEvent
  | KycApproved => KycApprovedEvent
  | KycRejected => KycRejectedEvent
  | FraudDecision => FraudDecisionEvent
  | FraudCaseCreated => FraudCaseCreatedEvent
  | PushNotificationRequested => PushNotificationRequestedEvent
  | InAppNotification => InAppNotificationEvent
  | LedgerEntryCreated => Ledger.LedgerEntryCreatedEvent
  | LedgerReconciliation => LedgerReconciliationEvent

/-- The topic that a struct is for. -/
def Kind.topic : Kind → String
  | PaymentInitiated => TOPIC_PAYMENT_INITIATED
  | PaymentValidated => TOPIC_PAYMENT_VALIDATED
  | PaymentFraudChecked => TOPIC_PAYMENT_FRAUD_CHECKED
  | PaymentFxConverted => TOPIC_PAYMENT_FX_CONVERTED
  | PaymentSettled => TOPIC_PAYMENT_SETTLED
  | PaymentFailed => TOPIC_PAYMENT_FAILED
  | PaymentRefunded => TOPIC_PAYMENT_REFUNDED
  | PaymentExpired => TOPIC_PAYMENT_EXPIRED
  | AccountCreated => TOPIC_ACCOUNT_CREATED
  | AccountActivated => TOPIC_ACCOUNT_ACTIVATED
  | AccountSuspended => TOPIC_ACCOUNT_SUSPENDED
  | AccountClosed => TOPIC_ACCOUNT_CLOSED
  | AccountLimitChanged => TOPIC_ACCOUNT_LIMIT_CHANGED
  | CardIssued => TOPIC_CARD_ISSUED
  | CardActivated => TOPIC_CARD_ACTIVATED
  | CardBlocked => TOPIC_CARD_BLOCKED
  | CardUnblocked => TOPIC_CARD_UNBLOCKED
  | CardExpired => TOPIC_CARD_EXPIRED
  | CardTransactionApproved => TOPIC_CARD_TRANSACTION_APPROVED
  | CardTransactionDeclined => TOPIC_CARD_TRANSACTION_DECLINED
  | KycSubmitted => TOPIC_KYC_SUBMITTED
  | KycDocumentUploaded => TOPIC_KYC_DOCUMENT_UPLOADED
  | KycReviewStarted => TOPIC_KYC_REVIEW_STARTED
  | KycApproved => TOPIC_KYC_APPROVED
  | KycRejected => TOPIC_KYC_REJECTED
  | FraudDecision => TOPIC_FRAUD_DECISION
  | FraudCaseCreated => TOPIC_FRAUD_CASE_CREATED
  | PushNotificationRequested => TOPIC_PUSH_NOTIFICATION_REQUESTED
  | InAppNotification => TOPIC_IN_APP_NOTIFICATION
  | LedgerEntryCreated => Ledger.TOPIC_LEDGER_ENTRY_CREATED
  | LedgerReconciliation => TOPIC_LEDGER_RECONCILIATION

def Kind.fields (f : Formats) : (k : Kind) → Json.Fields k.Event k.Event
  | PaymentInitiated => PaymentInitiatedEvent.fields f
  | PaymentValidated => PaymentValidatedEvent.fields f
  | PaymentFraudChecked => PaymentFraudCheckedEvent.fields f
  | PaymentFxConverted => PaymentFxConvertedEvent.fields f
  | PaymentSettled => PaymentSettledEvent.fields f
  | PaymentFailed => PaymentFailedEvent.fields f
  | PaymentRefunded => PaymentRefundedEvent.fields f
  | PaymentExpired => PaymentExpiredEvent.fields f
  | AccountCreated => AccountCreatedEvent.fields f
  | AccountActivated => AccountActivatedEvent.fields f
  | AccountSuspended => AccountSuspendedEvent.fields f
  | AccountClosed => AccountClosedEvent.fields f
  | AccountLimitChanged => AccountLimitChangedEvent.fields f
  | CardIssued => CardIssuedEvent.fields f
  | CardActivated => CardActivatedEvent.fields f
  | CardBlocked => CardBlockedEvent.fields f
  | CardUnblocked => CardUnblockedEvent.fields f
  | CardExpired => CardExpiredEvent.fields f
  | CardTransactionApproved => CardTransactionApprovedEvent.fields f
  | CardTransactionDeclined => CardTransactionDeclinedEvent.fields f
  | KycSubmitted => KycSubmittedEvent.fields f
  | KycDocumentUploaded => KycDocumentUploadedEvent.fields f
  | KycReviewStarted => KycReviewStartedEvent.fields f
  | KycApproved => KycApprovedEvent.fields f
  | KycRejected => KycRejectedEvent.fields f
  | FraudDecision => FraudDecisionEvent.fields f
  | FraudCaseCreated => FraudCaseCreatedEvent.fields f
  | PushNotificationRequested => PushNotificationRequestedEvent.fields f
  | InAppNotification => InAppNotificationEvent.fields f
  | LedgerEntryCreated => LedgerEntryCreatedEvent.fields f
  | LedgerReconciliation => LedgerReconciliationEvent.fields f

def Kind.all : List Kind :=
  [.PaymentInitiated, .PaymentValidated, .PaymentFraudChecked, .PaymentFxConverted,
    .PaymentSettled, .PaymentFailed, .PaymentRefunded, .PaymentExpired, .AccountCreated,
    .AccountActivated, .AccountSuspended, .AccountClosed, .AccountLimitChanged, .CardIssued,
    .CardActivated, .CardBlocked, .CardUnblocked, .CardExpired, .CardTransactionApproved,
    .CardTransactionDeclined, .KycSubmitted, .KycDocumentUploaded, .KycReviewStarted,
    .KycApproved, .KycRejected, .FraudDecision, .FraudCaseCreated, .PushNotificationRequested,
    .InAppNotification, .LedgerEntryCreated, .LedgerReconciliation]

end Kova.Events

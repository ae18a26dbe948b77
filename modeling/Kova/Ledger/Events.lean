import Kova.Codec.Json
import Kova.Ledger.Store
import Kova.Types.Ids

/-!
# The ledger's events

`events/ledger.rs`: the event that consumers read for every entry, whose eleven fields are all
required. How a decimal and an instant are read is left open. The derived reader is given field by
field here; reading an object in one pass, as the reader of any record of `Kova.Events`, accepts the
same objects for the same events (`Kova.Events.visit_map_ok_iff`).
-/

set_option autoImplicit false

namespace Kova.Ledger

def TOPIC_LEDGER_ENTRY_CREATED : String := "kova.ledger.entry_created"

structure LedgerEntryCreatedEvent where
  schema_version : UInt8
  event_id : KovaLedgerEntryId
  entry_id : KovaLedgerEntryId
  payment_id : KovaPaymentId
  user_id : KovaUserId
  debit_account_id : KovaAccountId
  credit_account_id : KovaAccountId
  amount : Decimal
  currency : Currency
  entry_type : String
  occurred_at : DateTime
  deriving DecidableEq

/-- What `rust_decimal::serde::str` reads, and what chrono writes and reads. -/
structure Formats where
  decimal : Json → Option Decimal
  rfc3339 : DateTime → String
  date_time : Json → Option DateTime

namespace LedgerEntryCreatedEvent

/-- An ID type is read as its UUID. -/
def id (kind : IdKind) (value : Json) : Option (KovaId kind) :=
  (value.text.bind Uuid.parse_str).map KovaId.mk

/-- A variant without data: its name, by itself or with `null`. -/
def currency_code : Json → Option Currency
  | .string name | .object [(name, .null)] => Currency.all.find? (·.code == name)
  | _ => none

/-- The derived `Deserialize`, from the members of an object. -/
def visit_map (f : Formats) (members : List (String × Json)) :
    Except Json.FieldError LedgerEntryCreatedEvent := do
  let schema_version ← Json.required "schema_version" Json.u8 members
  let event_id ← Json.required "event_id" (id .LedgerEntry) members
  let entry_id ← Json.required "entry_id" (id .LedgerEntry) members
  let payment_id ← Json.required "payment_id" (id .Payment) members
  let user_id ← Json.required "user_id" (id .User) members
  let debit_account_id ← Json.required "debit_account_id" (id .Account) members
  let credit_account_id ← Json.required "credit_account_id" (id .Account) members
  let amount ← Json.required "amount" f.decimal members
  let currency ← Json.required "currency" currency_code members
  let entry_type ← Json.required "entry_type" Json.text members
  let occurred_at ← Json.required "occurred_at" f.date_time members
  .ok
    { schema_version, event_id, entry_id, payment_id, user_id, debit_account_id, credit_account_id
      amount, currency, entry_type, occurred_at }

theorem id_text {kind : IdKind} (x : KovaId kind) : id kind (.string x.to_string) = some x := by
  rw [id, Json.text, Option.bind_some, KovaId.to_string, Uuid.parse_str_to_string, Option.map_some]

end LedgerEntryCreatedEvent

end Kova.Ledger

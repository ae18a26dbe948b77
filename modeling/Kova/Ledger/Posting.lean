import Kova.Ledger.Store

/-!
# Posting an entry

`post_entry` as a program over the ledger's operations, and the payload digest it compares. The
digest function is a parameter: SHA-256 in the service, and nothing here depends on which.
-/

namespace Kova.Ledger

open Conc

/-- The `sqlx::Error`s that the service's own code can tell apart from a lost connection. -/
inductive SqlxError where
  | database
  | row_not_found
  | column_decode
  deriving DecidableEq

inductive LedgerError where
  | InvalidArgument (message : String)
  | IdempotencyMismatch
  | Database (e : SqlxError)
  | DecimalParse (message : String)
  | Internal (message : String)
  deriving DecidableEq

/-- An async function of the ledger. -/
abbrev Async := Prog Op Op.Res LedgerError

/-- `sqlx::query(..).await?`. -/
def sql (q : Sql) : Async q.Res :=
  .await (.sql q) fun
    | some r => .ret r
    | none => .raise (.Database .database)

/-- `sqlx::query(..).await`, its failure left to the caller. -/
def attempt (q : Sql) : Async (Option q.Res) := .await (.sql q) .ret

def utc_now : Async DateTime := .await .utc_now .ret

def now_v7 : Async Uuid := .await .now_v7 .ret

def SUPPORTED_CURRENCIES : List String := ["NGN", "GBP", "USD", "KES"]

structure PostEntryParams where
  debit_account_id : Uuid
  credit_account_id : Uuid
  amount : Decimal
  currency : String
  idempotency_key : String
  payment_id : Option Uuid
  metadata_json : Option String

structure PostEntryResult where
  entry_id : Uuid
  was_idempotent : Bool
  created_at : DateTime
  deriving DecidableEq

/-- The bytes that `compute_payload_hash` feeds to the digest. -/
def payload_bytes (debit_account_id credit_account_id : Uuid) (amount : Decimal)
    (currency : String) : List UInt8 :=
  debit_account_id.bytes ++ credit_account_id.bytes ++ amount.to_string.toUTF8.toList ++
    currency.toUTF8.toList

section

variable (sha256_hex : List UInt8 → String)

def compute_payload_hash (debit_account_id credit_account_id : Uuid) (amount : Decimal)
    (currency : String) : String :=
  sha256_hex (payload_bytes debit_account_id credit_account_id amount currency)

/-- The digest of a request. -/
def PostEntryParams.payload_hash (p : PostEntryParams) : String :=
  compute_payload_hash sha256_hex p.debit_account_id p.credit_account_id p.amount p.currency

/-- The values `post_entry` binds to its INSERT. -/
def PostEntryParams.values (p : PostEntryParams) (entry_id : Uuid) (created_at : DateTime) :
    EntryInsert where
  id := entry_id
  debit_account_id := p.debit_account_id
  credit_account_id := p.credit_account_id
  amount := p.amount
  currency := p.currency
  idempotency_key := p.idempotency_key
  payload_hash := p.payload_hash sha256_hex
  payment_id := p.payment_id
  metadata := p.metadata_json
  created_at := created_at

/-- `serde_json::json!` of the outbox message. -/
def PostEntryParams.outbox_payload (p : PostEntryParams) (entry_id : Uuid) :
    List (String × String) :=
  [("entry_id", entry_id.to_string), ("idempotency_key", p.idempotency_key),
    ("amount", p.amount.to_string), ("currency", p.currency)]

/-- The guards that run before the database is touched. -/
def validate (p : PostEntryParams) : Async Unit := do
  if p.amount.le_zero then
    .raise (.InvalidArgument "amount must be strictly positive")
  if p.debit_account_id = p.credit_account_id then
    .raise (.InvalidArgument "debit_account_id and credit_account_id must differ")
  if !SUPPORTED_CURRENCIES.contains p.currency then
    .raise (.InvalidArgument ("unsupported currency: " ++ p.currency))

/-- The Ok arm: the outbox message in the same transaction, then COMMIT. -/
def enqueue_and_commit (p : PostEntryParams) (entry_id : Uuid) (created_at : DateTime) :
    Async PostEntryResult := do
  let outbox_id ← now_v7
  sql (.insert_outbox outbox_id entry_id (p.outbox_payload entry_id))
  sql .commit
  pure { entry_id, was_idempotent := false, created_at }

/-- What the duplicate arm does with the row it fetched. -/
def answer_duplicate (payload_hash : String) : Option ExistingRow → Async PostEntryResult
  | none => .raise (.Database .row_not_found)
  | some row =>
    match row.payload_hash with
    | none => .raise (.Database .column_decode)
    | some existing_hash =>
      if existing_hash ≠ payload_hash then .raise .IdempotencyMismatch
      else
        .ret
          { entry_id := row.id
            was_idempotent := true
            created_at := .of_micros row.created_at }

/-- The duplicate arm: roll back, read the existing entry on another connection, compare. -/
def verify_duplicate (p : PostEntryParams) : Async PostEntryResult := do
  let _ ← attempt .rollback
  let row ← sql (.select_by_key p.idempotency_key)
  answer_duplicate (p.payload_hash sha256_hex) row

/-- `post_entry`. -/
def post_entry (p : PostEntryParams) : Async PostEntryResult := do
  validate p
  let entry_id ← now_v7
  let created_at ← utc_now
  sql .begin
  let result ← attempt (.insert_entry (p.values sha256_hex entry_id created_at))
  match result with
  | some .inserted => enqueue_and_commit p entry_id created_at
  | some .unique_violation => verify_duplicate sha256_hex p
  | none => do
    let _ ← attempt .rollback
    .raise (.Database .database)

end

end Kova.Ledger

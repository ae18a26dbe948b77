import Kova.Codec.Base64
import Kova.Codec.BigEndian
import Kova.Ledger.Posting

/-!
# Statements

`get_statement`: one page of an account's entries, newest first, and the cursor that the next
page is asked with. A cursor is the base64 text of 24 bytes: the last entry's `created_at` in
microseconds, big-endian in two's complement, and its id.
-/

namespace Kova.Ledger

open Conc

structure StatementEntry where
  entry_id : Uuid
  debit_account_id : Uuid
  credit_account_id : Uuid
  amount : Decimal
  currency : String
  idempotency_key : String
  payment_id : Option Uuid
  metadata_json : Option String
  created_at : DateTime
  deriving DecidableEq

structure StatementPage where
  entries : List StatementEntry
  next_cursor : Option String
  has_more : Bool
  deriving DecidableEq

/-! ## The cursor -/

/-- An `i64` in two's complement, as the number its 8 bytes spell. -/
def i64_bits (x : Int) : Nat := (x % 2 ^ 64).toNat

def i64_of_bits (n : Nat) : Int := if n < 2 ^ 63 then n else n - 2 ^ 64

def encode_cursor (created_at : DateTime) (entry_id : Uuid) : String :=
  String.ofList (Base64.encode
    (BigEndian.bytes 8 (i64_bits created_at.timestamp_micros) ++ entry_id.bytes))

def decode_cursor (cursor : String) : Except LedgerError (Int × Uuid) :=
  match Base64.decode cursor.toList with
  | none => .error (.InvalidArgument "invalid cursor encoding")
  | some bytes =>
    if h : bytes.length = 24 then
      .ok (i64_of_bits (BigEndian.value (bytes.take 8)), ⟨bytes.drop 8, by simp [h]⟩)
    else .error (.InvalidArgument "malformed cursor")

/-- The instant that the keyset condition compares with. The `as u32` wraps, and a value outside
chrono's range becomes the epoch. -/
def micros_to_naive (micros : Int) : DateTime :=
  let secs := micros.tdiv 1000000
  let sub_micros := micros.tmod 1000000
  (DateTime.from_timestamp secs (sub_micros * 1000 % 2 ^ 32).toNat).getD ⟨0⟩

/-! ## The page -/

/-- What a statement is asked for, apart from the page. -/
structure StatementFilter where
  account_id : Uuid
  currency : Option String
  from_time : Option DateTime
  to_time : Option DateTime

/-- The query with its parameters bound. -/
def StatementFilter.query (f : StatementFilter) (cursor : Option (Int × Uuid))
    (fetch_limit : Nat) : StatementQuery where
  account_id := f.account_id
  currency := f.currency
  from_time := f.from_time.map DateTime.bind
  to_time := f.to_time.map DateTime.bind
  cursor := cursor.map fun (micros, id) => ((micros_to_naive micros).bind, id)
  fetch_limit

/-- `decode_cursor(c)?` where there is a cursor. -/
def read_cursor : Option String → Async (Option (Int × Uuid))
  | none => .ret none
  | some c =>
    match decode_cursor c with
    | .ok at_entry => .ret (some at_entry)
    | .error e => .raise e

section

-- what the driver makes of a JSON column read as a `String`; `none` is its decode error
variable (json_text : String → Option String)

/-- The columns of one row, as the caller receives them. -/
def EntryRow.statement_entry (row : EntryRow) : Option StatementEntry :=
  (row.metadata.mapM json_text).map fun metadata_json =>
    { entry_id := row.id
      debit_account_id := row.debit_account_id
      credit_account_id := row.credit_account_id
      amount := row.amount.toDecimal
      currency := row.currency.code
      idempotency_key := row.idempotency_key
      payment_id := row.payment_id
      metadata_json
      created_at := .of_micros row.created_at }

/-- The page made of the rows fetched, the extra row among them. -/
def statement_page (limit : Nat) (rows : List EntryRow) : Option StatementPage :=
  let has_more := limit < rows.length
  let take := if has_more then limit else rows.length
  ((rows.take take).mapM (EntryRow.statement_entry json_text)).map fun entries =>
    { entries
      next_cursor :=
        if has_more then entries.getLast?.map fun e => encode_cursor e.created_at e.entry_id
        else none
      has_more }

/-- `get_statement`. -/
def get_statement (account_id : Uuid) (currency cursor : Option String) (limit : UInt32)
    (from_time to_time : Option DateTime) : Async StatementPage := do
  if limit = 0 ∨ limit > 100 then
    .raise (.InvalidArgument "limit must be between 1 and 100")
  let fetch_limit := (limit + 1).toNat
  let filter : StatementFilter := { account_id, currency, from_time, to_time }
  let cursor ← read_cursor cursor
  let rows ← sql (.select_statement (filter.query cursor fetch_limit))
  match statement_page json_text limit.toNat rows with
  | some page => pure page
  | none => .raise (.Database .column_decode)

end

end Kova.Ledger

import Kova.Ledger.Rpc
import Kova.Ledger.StatementLaws
import Kova.Types.Timestamp

/-!
# The GetStatement RPC

`LedgerService::get_statement` fills in the defaults of absent fields, converts the timestamps of
the request, and makes a message of the page.
-/

set_option autoImplicit false

namespace Kova.Ledger.Rpc

/-- A message of the protocol: an absent field is an empty one, but for the two times. -/
structure GetStatementRequest where
  account_id : List UInt8
  currency : String
  cursor : String
  limit : UInt32
  from_time : Option Timestamp
  to_time : Option Timestamp

structure LedgerEntryProto where
  entry_id : List UInt8
  debit_account_id : List UInt8
  credit_account_id : List UInt8
  amount : String
  currency : String
  idempotency_key : String
  payment_id : List UInt8
  metadata_json : String
  created_at : Timestamp
  deriving DecidableEq

structure GetStatementResponse where
  entries : List LedgerEntryProto
  next_cursor : String
  has_more : Bool
  deriving DecidableEq

/-- What `get_statement` asks the ledger for. A time that is no instant of chrono's is as good as
absent. -/
def GetStatementRequest.ask (req : GetStatementRequest) : Except Status Request := do
  let account_id ← bytes_to_id req.account_id
  let limit := if req.limit = 0 then 20 else req.limit
  let currency := if req.currency = "" then none else some req.currency
  let cursor := if req.cursor = "" then none else some req.cursor
  let from_time := req.from_time.bind timestamp_to_dt
  let to_time := req.to_time.bind timestamp_to_dt
  .ok (.get_statement { account_id, currency, from_time, to_time } cursor limit)

/-- An entry of the page, as it is sent. -/
def entry_proto (e : StatementEntry) : LedgerEntryProto where
  entry_id := e.entry_id.bytes
  debit_account_id := e.debit_account_id.bytes
  credit_account_id := e.credit_account_id.bytes
  amount := e.amount.to_string
  currency := e.currency
  idempotency_key := e.idempotency_key
  payment_id := (e.payment_id.map (·.bytes)).getD []
  metadata_json := e.metadata_json.getD ""
  created_at := dt_to_timestamp e.created_at

def statement_reply (page : StatementPage) : GetStatementResponse where
  entries := page.entries.map entry_proto
  next_cursor := page.next_cursor.getD ""
  has_more := page.has_more

/-- What is asked for has the times of the request, as far as they convert. -/
theorem ask_times {req : GetStatementRequest} {ask : Request} (h : req.ask = .ok ask) :
    ∃ f cursor limit, ask = .get_statement f cursor limit ∧
      f.from_time = req.from_time.bind timestamp_to_dt ∧
        f.to_time = req.to_time.bind timestamp_to_dt := by
  obtain ⟨_, _, h⟩ := of_bind_ok h
  cases h
  exact ⟨_, _, _, rfl, rfl, rfl⟩

end Kova.Ledger.Rpc

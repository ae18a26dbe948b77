import Kova.Ledger.Balance
import Kova.Ledger.Statement

/-!
# The ledger service

Any number of calls of `post_entry`, `get_balance` and `get_statement`, interleaved at their
awaits over one database: the pool of `Conc.Pool` at the ledger's operations.
-/

namespace Kova.Ledger

open Conc

inductive Request where
  | post_entry (params : PostEntryParams)
  | get_balance (account_id : Uuid) (currency : String)
  | get_statement (filter : StatementFilter) (cursor : Option String) (limit : UInt32)

inductive Response where
  | posted (result : PostEntryResult)
  | balance (result : BalanceResult)
  | statement (page : StatementPage)
  deriving DecidableEq

abbrev LedgerWorld := World Store Request Op Op.Res

abbrev LedgerConf := Conf Store Request Op Op.Res LedgerError Response

abbrev LedgerLabel := Label Request Choice Outside

/-- What is left open: the server, the digest function, and the driver's reading of JSON. -/
structure Env where
  db : Engine
  sha256_hex : List UInt8 → String
  /-- A JSON column that is not NULL, read as a `String`; sqlx-mysql refuses the column's type. -/
  json_text : String → Option String

/-- The program of a request. -/
def serve (v : Env) : Request → Async Response
  | .post_entry p => do
    let result ← Ledger.post_entry v.sha256_hex p
    pure (.posted result)
  | .get_balance account_id currency => do
    let result ← Ledger.get_balance account_id currency
    pure (.balance result)
  | .get_statement f cursor limit => do
    let page ← Ledger.get_statement v.json_text f.account_id f.currency cursor limit f.from_time
      f.to_time
    pure (.statement page)

/-- The runs of the service. -/
abbrev LedgerRun (v : Env) : LedgerConf → List LedgerLabel → LedgerConf → Prop :=
  Run (machine v.db) (serve v) .all

/-- The service before its first call: empty tables. -/
def start (clock : Nat) : LedgerConf := .init { clock }

/-! ## A sample deployment -/

/-- A server that compares ASCII without case, and the digest of the one payload that its
requests carry: 500.00 NGN from account 1 to account 2. Its driver, other than sqlx-mysql, takes
a JSON column for a text, so that pages of entries with one are read. -/
def sample : Env where
  db := { ascii_ci with json := some }
  sha256_hex _ := "4cc38010cef4f30b941decb439f3b62744de2fe68d2251cb19383ff4b3ee3dda"
  json_text := some

/-- The request of that payment under an idempotency key. -/
def payment (idempotency_key : String) : PostEntryParams where
  debit_account_id := .low 1
  credit_account_id := .low 2
  amount := ⟨50000, 2, by decide, by decide⟩
  currency := "NGN"
  idempotency_key := idempotency_key
  payment_id := none
  metadata_json := none

/-- A posting by call `t` that goes through, with nothing else moving. -/
def posting (t : Nat) (entry_id outbox_id : Uuid) (p : PostEntryParams) : List LedgerLabel :=
  [.spawn (.post_entry p), .run t { uuid := entry_id }, .run t {}, .run t {}, .run t {},
    .run t { uuid := outbox_id }, .run t {}, .run t {}]

/-- One posting after another. -/
def posting_both (p p' : PostEntryParams) : List LedgerLabel :=
  posting 0 (.low 10) (.low 11) p ++ posting 1 (.low 12) (.low 13) p'

end Kova.Ledger

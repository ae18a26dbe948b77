import Mathlib.Data.List.Sort
import Mathlib.Data.Prod.Lex
import Kova.Conc.Pool
import Kova.MySql.Collation
import Kova.Types.DateTime
import Kova.Types.Decimal
import Kova.Types.Uuid

/-!
# The ledger's database

The tables of `kova_ledger_db` that posting, balances and statements use, the SQL statements
they execute, and what MySQL does for each: column conversions, CHECK constraints, the unique
indexes, transactions.

A row inserted by an open transaction stands in `pending` under its call's number. The unique
indexes cover committed and pending rows alike: an INSERT that meets a committed row (or one of
its own transaction) is a unique violation, one that meets another open transaction's row waits
(`none`: no step is possible), and a commit or rollback of that transaction lets it go on. A
transaction ends by COMMIT, by ROLLBACK, or because the server ended it (`reap`): a dropped
connection, a deadlock, a restart.
-/

namespace Kova.Ledger

open Conc

/-! ## Rows -/

/-- `ENUM('NGN','GBP','USD','KES')`. -/
inductive Currency where
  | NGN | GBP | USD | KES
  deriving DecidableEq

namespace Currency

def code : Currency → String
  | NGN => "NGN"
  | GBP => "GBP"
  | USD => "USD"
  | KES => "KES"

def all : List Currency := [NGN, GBP, USD, KES]

/-- The member a string names, compared as the column is. -/
def named (coll : Collation) (s : String) : Option Currency :=
  all.find? fun c => coll.same s c.code

end Currency

/-- What is left open of the server: the collation of the tables, and what a JSON column makes
of a text (`none` when the text is no JSON). -/
structure Engine extends Collation where
  json : String → Option String

/-- A row of `ledger_entries`. -/
structure EntryRow where
  id : Uuid
  debit_account_id : Uuid
  credit_account_id : Uuid
  amount : Dec19_4
  currency : Currency
  idempotency_key : String
  payload_hash : Option String
  payment_id : Option Uuid
  metadata : Option String
  created_at : Int
  deriving DecidableEq

/-- A row of `ledger_outbox`. -/
structure OutboxRow where
  id : Uuid
  entry_id : Uuid
  topic : String
  payload_json : List (String × String)
  created_at : Int
  published_at : Option Int
  deriving DecidableEq

/-- Two rows that `ledger_entries` cannot both hold: its PRIMARY KEY and its UNIQUE KEY. -/
def clash (db : Engine) (r r' : EntryRow) : Prop :=
  r.id = r'.id ∨ db.same r.idempotency_key r'.idempotency_key

instance (db : Engine) (r r' : EntryRow) : Decidable (clash db r r') :=
  inferInstanceAs (Decidable (_ ∨ _))

theorem clash_symm {db : Engine} {r r' : EntryRow} (h : clash db r r') :
    clash db r' r := h.imp Eq.symm Collation.same_symm

/-- The sort order of a statement: `created_at`, then `id`. -/
def EntryRow.sort_key (r : EntryRow) : Int ×ₗ Uuid := toLex (r.created_at, r.id)

/-! ## Statements -/

/-- The values bound by the INSERT into `ledger_entries`. -/
structure EntryInsert where
  id : Uuid
  debit_account_id : Uuid
  credit_account_id : Uuid
  amount : Decimal
  currency : String
  idempotency_key : String
  payload_hash : String
  payment_id : Option Uuid
  metadata : Option String
  created_at : DateTime

inductive InsertResult where
  | inserted
  | unique_violation
  deriving DecidableEq

/-- `SELECT id, payload_hash, created_at`. -/
structure ExistingRow where
  id : Uuid
  payload_hash : Option String
  created_at : Int

/-- `SELECT CAST(...) AS balance, COUNT(*) AS entry_count, MAX(created_at) AS as_of`. -/
structure BalanceRow where
  balance : Dec19_4
  entry_count : Nat
  as_of : Option Int
  deriving DecidableEq

/-- The statement's dynamic query: each optional part is one optional conjunct. -/
structure StatementQuery where
  account_id : Uuid
  currency : Option String
  from_time : Option Int
  to_time : Option Int
  cursor : Option (Int × Uuid)
  fetch_limit : Nat

inductive Sql where
  | begin
  | commit
  | rollback
  | insert_entry (values : EntryInsert)
  | insert_outbox (id entry_id : Uuid) (payload_json : List (String × String))
  | select_by_key (idempotency_key : String)
  | select_balance (account_id : Uuid) (currency : String)
  | select_statement (query : StatementQuery)

/-- What each statement answers when it does not fail. -/
def Sql.Res : Sql → Type
  | .begin | .commit | .rollback | .insert_outbox .. => Unit
  | .insert_entry _ => InsertResult
  | .select_by_key _ => Option ExistingRow
  | .select_balance .. => BalanceRow
  | .select_statement _ => List EntryRow

/-- What the service awaits or reads from outside: a statement (`none` is a failure), the clock,
a fresh UUIDv7. -/
inductive Op where
  | sql (q : Sql)
  | utc_now
  | now_v7

def Op.Res : Op → Type
  | .sql q => Option q.Res
  | .utc_now => DateTime
  | .now_v7 => Uuid

/-! ## The store -/

structure Store where
  entries : List EntryRow := []
  outbox : List OutboxRow := []
  /-- The calls whose transaction is open. -/
  active : List Nat := []
  /-- Rows inserted by open transactions, each under its call. -/
  pending : List (Nat × EntryRow) := []
  pending_outbox : List (Nat × OutboxRow) := []
  /-- The UUIDs generated so far, each with the call it was generated for. -/
  minted : List (Nat × Uuid) := []
  /-- Nanoseconds since the Unix epoch. -/
  clock : Nat := 0

/-- What the store leaves open: whether the statement fails before it takes effect or its reply
is lost after it did, and the UUID generated. -/
inductive Fault where
  | none
  | failed
  | lost
  deriving DecidableEq

structure Choice where
  fault : Fault := .none
  uuid : Uuid := Uuid.low 0

/-- What happens outside the calls: time passes, the server ends a transaction. -/
inductive Outside where
  | advance (nanos : Nat)
  | reap (tid : Nat)

namespace Store

/-- The rows that the open transaction of a call has inserted. -/
def pendingOf (s : Store) (t : Nat) : List EntryRow :=
  (s.pending.filter (·.1 == t)).map (·.2)

def pendingOutboxOf (s : Store) (t : Nat) : List OutboxRow :=
  (s.pending_outbox.filter (·.1 == t)).map (·.2)

/-- The store without the open transaction of a call. -/
def endTx (s : Store) (t : Nat) : Store :=
  { s with
    active := s.active.filter (· != t)
    pending := s.pending.filter (·.1 != t)
    pending_outbox := s.pending_outbox.filter (·.1 != t) }

/-- COMMIT: the transaction's rows join the tables, all at once. -/
def commitTx (s : Store) (t : Nat) : Store :=
  { s.endTx t with
    entries := s.entries ++ s.pendingOf t
    outbox := s.outbox ++ s.pendingOutboxOf t }

end Store

section Statements

variable (db : Engine)

/-- The row an INSERT would store: every value converted to its column, the CHECK constraints
evaluated. `none` is an error of the statement. -/
def EntryInsert.row (v : EntryInsert) : Option EntryRow :=
  match Dec19_4.ofDecimal v.amount, Currency.named db.toCollation v.currency,
      Collation.varchar 255 v.idempotency_key, v.metadata.mapM db.json with
  | some amount, some currency, some key, some metadata =>
    if 0 < amount.units ∧ v.debit_account_id ≠ v.credit_account_id ∧
        DateTime.storable v.created_at.bind then
      some
        { id := v.id
          debit_account_id := v.debit_account_id
          credit_account_id := v.credit_account_id
          amount, currency
          idempotency_key := key
          payload_hash := some v.payload_hash
          payment_id := v.payment_id
          metadata
          created_at := v.created_at.bind }
    else none
  | _, _, _, _ => none

/-- Whether a row has the account on either side and is in the currency a string names. -/
def involves (account_id : Uuid) (currency : String) (r : EntryRow) : Bool :=
  (r.credit_account_id == account_id || r.debit_account_id == account_id) &&
    db.same r.currency.code currency

/-- `SUM(CASE WHEN credit_account_id = ? THEN amount END)`, in ten-thousandths. -/
def credits (account_id : Uuid) (rows : List EntryRow) : Int :=
  (rows.map fun r => if r.credit_account_id = account_id then r.amount.units else 0).sum

/-- `SUM(CASE WHEN debit_account_id = ? THEN amount END)`. -/
def debits (account_id : Uuid) (rows : List EntryRow) : Int :=
  (rows.map fun r => if r.debit_account_id = account_id then r.amount.units else 0).sum

/-- The aggregate of `get_balance`. -/
def select_balance (entries : List EntryRow) (account_id : Uuid) (currency : String) :
    BalanceRow :=
  let rows := entries.filter (involves db account_id currency)
  { balance := Dec19_4.cast (credits account_id rows - debits account_id rows)
    entry_count := rows.length
    as_of := (rows.map (·.created_at)).max? }

/-- The WHERE clause of a statement without its keyset condition. -/
def StatementQuery.filters (q : StatementQuery) (r : EntryRow) : Bool :=
  (r.debit_account_id == q.account_id || r.credit_account_id == q.account_id) &&
    (q.currency.all fun c => db.same r.currency.code c) &&
    (q.from_time.all fun first => first ≤ r.created_at) &&
    (q.to_time.all fun last => r.created_at ≤ last)

/-- The keyset condition: rows that come after the cursor in descending order. -/
def StatementQuery.after (q : StatementQuery) (r : EntryRow) : Bool :=
  q.cursor.all fun (micros, id) =>
    r.created_at < micros || (r.created_at == micros && r.id < id)

/-- `ORDER BY created_at DESC, id DESC LIMIT ?`. -/
def select_statement (entries : List EntryRow) (q : StatementQuery) : List EntryRow :=
  ((entries.filter fun r => q.filters db r && q.after r).insertionSort
    fun r r' => r'.sort_key ≤ r.sort_key).take q.fetch_limit

/-- What MySQL does for one statement of call `t`. The outer `none` waits for another
transaction, the inner one is an error without effect. -/
def Sql.run (t : Nat) (s : Store) : (q : Sql) → Option (Option q.Res × Store)
  | .begin => if t ∈ s.active then none else some (some (), { s with active := t :: s.active })
  | .commit => if t ∈ s.active then some (some (), s.commitTx t) else some (none, s)
  | .rollback => some (some (), s.endTx t)
  | .insert_entry v =>
    if t ∈ s.active then
      match v.row db with
      | none => some (none, s)
      | some row =>
        if ∃ r ∈ s.entries ++ s.pendingOf t, clash db row r then
          some (some .unique_violation, s)
        else if ∃ p ∈ s.pending, clash db row p.2 then none
        else some (some .inserted, { s with pending := s.pending ++ [(t, row)] })
    else some (none, s)
  | .insert_outbox id entry_id payload_json =>
    if t ∈ s.active then
      some (some (), { s with
        pending_outbox := s.pending_outbox ++ [(t,
          { id, entry_id, topic := "kova.ledger.entry.created", payload_json
            created_at := s.clock / 1000, published_at := none })] })
    else some (none, s)
  | .select_by_key key =>
    some (some ((s.entries.find? fun r => db.same r.idempotency_key key).map fun r =>
      ⟨r.id, r.payload_hash, r.created_at⟩), s)
  | .select_balance account_id currency =>
    some (some (Ledger.select_balance db s.entries account_id currency), s)
  | .select_statement q => some (some (Ledger.select_statement db s.entries q), s)

/-- One operation of call `t`. -/
def exec (t : Nat) (ch : Choice) (s : Store) : (op : Op) → Option (op.Res × Store)
  | .sql q =>
    match ch.fault with
    | .none => q.run db t s
    | .failed => some (none, s)
    | .lost => (q.run db t s).map fun (_, s') => (none, s')
  | .utc_now => some (⟨s.clock⟩, s)
  | .now_v7 =>
    if ch.uuid ∈ s.minted.map (·.2) then none
    else some (ch.uuid, { s with minted := (t, ch.uuid) :: s.minted })

/-- What the outside does. -/
def outside : Outside → Store → Option Store
  | .advance n, s => some { s with clock := s.clock + n }
  | .reap t, s => some (s.endTx t)

/-- The database, the clock and the UUID generator behind `kova-ledger`. -/
def machine : Machine Store Op Op.Res Choice Outside := ⟨exec db, outside⟩

end Statements

/-- A statement fails without effect, or has its effect, the reply possibly lost. -/
theorem fault_effect {σ α : Type} {fault : Fault} {answer : Option (Option α × σ)} {s s' : σ}
    {r : Option α}
    (h : (match fault with
      | .none => answer
      | .failed => some (none, s)
      | .lost => answer.map fun (_, s') => (none, s')) = some (r, s')) :
    (fault = .failed ∧ r = none ∧ s' = s) ∨
      (fault ≠ .failed ∧ ∃ r', answer = some (r', s') ∧ (r = r' ∨ r = none)) := by
  cases fault with
  | none => exact .inr ⟨by decide, r, h, .inl rfl⟩
  | failed =>
    cases h
    exact .inl ⟨rfl, rfl, rfl⟩
  | lost =>
    obtain ⟨⟨r', s''⟩, hrun, heq⟩ := Option.map_eq_some_iff.mp h
    cases heq
    exact .inr ⟨by decide, r', hrun, .inr rfl⟩

/-- The same, whatever the fault was. -/
theorem fault_cases {σ α : Type} {fault : Fault} {answer : Option (Option α × σ)} {s s' : σ}
    {r : Option α}
    (h : (match fault with
      | .none => answer
      | .failed => some (none, s)
      | .lost => answer.map fun (_, s') => (none, s')) = some (r, s')) :
    (r = none ∧ s' = s) ∨ ∃ r', answer = some (r', s') ∧ (r = r' ∨ r = none) :=
  (fault_effect h).imp And.right And.right

end Kova.Ledger

import Kova.Account.AuthUser
import Kova.Ledger.Service
import Kova.Redis.Db

/-!
# The state behind kova-account

The table `accounts` of `kova_account_db` with its sequence, the SQL statements that the handlers
execute, Redis, the clock, and the three services that the handlers call through trait objects.
Every statement is a transaction of its own: it fails without effect, takes effect, or takes
effect with its reply lost.

Of a trait object nothing is known but its answer, which the choice of the step gives; the
choice's defaults are what the stubs in clients.rs answer. The ledger's own service runs beside
the handlers on its own database, so that what an answer says can be compared with the ledger of
that moment.
-/

set_option autoImplicit false

namespace Kova.Account

open Conc Ledger

/-! ## Rows -/

/-- `ENUM('Active','Frozen','Closed','PendingKYC')`. -/
inductive AccountStatus where
  | Active | Frozen | Closed | PendingKYC
  deriving DecidableEq

/-- The text of the column, and `{:?}`. -/
def AccountStatus.text : AccountStatus → String
  | Active => "Active"
  | Frozen => "Frozen"
  | Closed => "Closed"
  | PendingKYC => "PendingKYC"

/-- A row of `accounts`. -/
structure AccountRow where
  id : Uuid
  user_id : Uuid
  account_number : String
  currency : Currency
  status : AccountStatus
  created_at : Int
  closed_at : Option Int
  deriving DecidableEq

/-! ## error.rs -/

inductive AccountError where
  | AccountAlreadyExists
  | AccountNotFound
  | UnsupportedCurrency
  | AccountHasBalance (balance : String)
  | PendingPaymentsExist
  | AlreadyClosed
  | InvalidTransition (source target : String)
  | InvalidPaginationLimit
  | Unauthorized
  | Database
  | Redis
  | LedgerClient (message : String)
  | PaymentsClient (message : String)
  | EventPublish (message : String)
  deriving DecidableEq

/-! ## clients.rs -/

structure BalanceResult where
  available_balance : Decimal
  pending_amount : Decimal
  currency : Currency
  deriving DecidableEq

structure LedgerEntry where
  entry_id : String
  amount : Decimal
  direction : String
  description : String
  created_at : DateTime
  deriving DecidableEq

structure StatementPage where
  entries : List LedgerEntry
  next_cursor : Option String
  has_more : Bool
  deriving DecidableEq

/-! ## events/account.rs -/

def TOPIC_ACCOUNT_CREATED : String := "kova.account.created"
def TOPIC_ACCOUNT_CLOSED : String := "kova.account.closed"
def SCHEMA_VERSION : UInt8 := 1

structure AccountCreatedEvent where
  schema_version : UInt8
  event_id : Uuid
  account_id : Uuid
  user_id : Uuid
  currency : Currency
  account_number : String
  occurred_at : DateTime
  deriving DecidableEq

structure AccountClosedEvent where
  schema_version : UInt8
  event_id : Uuid
  account_id : Uuid
  user_id : Uuid
  reason : String
  closed_at : DateTime
  occurred_at : DateTime
  deriving DecidableEq

/-- What is serialised for the publisher; the serialisation of either cannot fail. -/
inductive Payload where
  | created (event : AccountCreatedEvent)
  | closed (event : AccountClosedEvent)
  deriving DecidableEq

/-! ## Operations -/

/-- The columns that the closure reads. -/
structure CloseRow where
  user_id : String
  status : String
  deriving DecidableEq

/-- The columns that the two reading handlers return. -/
structure AccountView where
  account_id : String
  user_id : String
  account_number : String
  currency : String
  status : String
  deriving DecidableEq

inductive Sql where
  | insert_seq
  | insert_account (id user_id account_number currency : String)
  | delete_account (id : String)
  | select_accounts (user_id : String)
  | select_account (id user_id : String)
  | select_currency (id user_id : String)
  | select_owned (id user_id : String)
  | select_to_close (id user_id : String)
  | update_closed (closed_at : DateTime) (id : String)

/-- What each statement answers when it does not fail. -/
def Sql.Res : Sql → Type
  | .insert_seq => Nat
  | .insert_account .. => InsertResult
  | .select_accounts _ => List AccountView
  | .select_account .. => Option (AccountView × Option Int)
  | .select_currency .. => Option String
  | .select_owned .. => Option Unit
  | .select_to_close .. => Option CloseRow
  | .delete_account _ | .update_closed .. => Unit

/-- What a handler awaits or reads from outside, and what the ledger's service does. -/
inductive Op where
  | sql (q : Sql)
  | redis (cmd : Redis.Cmd)
  | utc_now
  | now_v7
  | create_opening_entry (account_id : Uuid) (currency : Currency)
  | get_balance (account_id : Uuid)
  | get_statement (account_id : Uuid) (cursor : Option String) (limit : UInt32)
  | has_pending_payments (account_id : Uuid)
  | publish_json (topic key : String) (payload : Payload)
  | ledger (op : Ledger.Op)

def Op.Res : Op → Type
  | .sql q => Option q.Res
  | .redis cmd => Option cmd.Res
  | .utc_now => DateTime
  | .now_v7 => Uuid
  | .create_opening_entry .. => Except AccountError Unit
  | .get_balance _ => Except AccountError BalanceResult
  | .get_statement .. => Except AccountError StatementPage
  | .has_pending_payments _ => Except AccountError Bool
  | .publish_json .. => Except AccountError Unit
  | .ledger op => op.Res

/-! ## The store -/

structure Store where
  accounts : List AccountRow := []
  /-- The last value of `account_number_seq`. -/
  account_number_seq : Nat := 0
  redis : Redis.Db := []
  /-- The UUIDs generated so far. -/
  minted : List Uuid := []
  /-- Nanoseconds since the Unix epoch. -/
  clock : Nat := 0
  ledger : Ledger.Store := {}

/-- `NOW()`: whole seconds. -/
def Store.now (s : Store) : Int := (s.clock / 1000000000 : Nat)

/-- `Decimal::ZERO`. -/
def zero : Decimal := ⟨0, 0, by decide, by decide⟩

/-- What an operation leaves open: a failure, the order of rows that were created in the same
second, the UUID generated, and the answers of the trait objects. -/
structure Choice where
  fault : Fault := .none
  rows : List AccountRow := []
  uuid : Uuid := Uuid.low 0
  opening : Except AccountError Unit := .ok ()
  balance : Except AccountError BalanceResult := .ok ⟨zero, zero, .NGN⟩
  page : Except AccountError StatementPage := .ok ⟨[], none, false⟩
  pending : Except AccountError Bool := .ok false
  published : Except AccountError Unit := .ok ()
  ledger : Ledger.Choice := {}

/-- Outside the handlers, time passes, and what happens outside the ledger's calls happens. -/
inductive Outside where
  | advance (nanos : Nat)
  | ledger (o : Ledger.Outside)

/-- The JSON that a balance is cached as, or another. -/
inductive Value where
  | balance (account_id currency available_balance pending_amount : String)
  | other (text : String)
  deriving DecidableEq

/-- What is left open: the collation of the tables, the public key, the printing and parsing of
JSON, and the ledger. -/
structure Env where
  coll : Collation
  key : Jwt.Key
  json_text : Value → String
  json_value : String → Option Value
  ledger : Ledger.Env

/-! ## Statements -/

/-- `CHECK (account_number REGEXP '^KOVA[0-9]{10}$')`. -/
def account_number_ok (s : String) : Bool :=
  s.toList.take 4 == "KOVA".toList && (s.toList.drop 4).length == 10 &&
    (s.toList.drop 4).all Char.isDigit

def AccountRow.view (r : AccountRow) : AccountView where
  account_id := r.id.to_string
  user_id := r.user_id.to_string
  account_number := r.account_number
  currency := r.currency.code
  status := r.status.text

/-- `SET status = 'Closed', closed_at = ?`. -/
def AccountRow.close (closed_at : DateTime) (r : AccountRow) : AccountRow :=
  { r with status := .Closed, closed_at := some closed_at.to_datetime }

/-- The row of an account, if the user owns it. -/
def Store.owned (s : Store) (id user_id : Uuid) : Option AccountRow :=
  s.accounts.find? fun r => r.id == id && r.user_id == user_id

section

variable (env : Env)

/-- The row an INSERT would store; `none` is an error of the statement. -/
def inserted_row (id user_id account_number currency : String) (now : Int) : Option AccountRow := do
  let id ← Uuid.UUID_TO_BIN id
  let user_id ← Uuid.UUID_TO_BIN user_id
  let account_number ← Collation.varchar 20 account_number
  let currency ← Currency.named env.coll currency
  if account_number_ok account_number then
    some
      { id, user_id, account_number, currency
        status := .PendingKYC
        created_at := now
        closed_at := none }
  else none

/-- The unique keys of `accounts`. -/
def clashes (r r' : AccountRow) : Bool :=
  r.id == r'.id || env.coll.same r.account_number r'.account_number ||
    r.user_id == r'.user_id && r.currency == r'.currency

/-- The rows of `accounts`, as the keys and CHECK constraints let them be. -/
structure Table where
  rows : List AccountRow
  keys : rows.Pairwise fun r r' => clashes env r r' = false
  checks : ∀ r ∈ rows, account_number_ok r.account_number = true ∧
    (r.closed_at.isSome = true → r.status = .Closed)

/-- What MySQL does for one statement; the inner `none` is an error without effect. The outer
`none` is a choice of `rows` that the statement could not have listed. -/
def Sql.run (rows : List AccountRow) (s : Store) : (q : Sql) → Option (Option q.Res × Store)
  | .insert_seq =>
    if s.account_number_seq + 1 < 2 ^ 64 then
      some (some (s.account_number_seq + 1),
        { s with account_number_seq := s.account_number_seq + 1 })
    else some (none, s)
  | .insert_account id user_id account_number currency =>
    match inserted_row env id user_id account_number currency s.now with
    | none => some (none, s)
    | some row =>
      if s.accounts.any (clashes env row) then some (some .unique_violation, s)
      else some (some .inserted, { s with accounts := s.accounts ++ [row] })
  | .delete_account id =>
    match Uuid.UUID_TO_BIN id with
    | some id => some (some (), { s with accounts := s.accounts.filter (·.id != id) })
    | none => some (none, s)
  | .select_accounts user_id =>
    match Uuid.UUID_TO_BIN user_id with
    | some user_id =>
      if rows.Perm (s.accounts.filter (·.user_id == user_id)) ∧
          rows.Pairwise fun r r' => r.created_at ≤ r'.created_at then
        some (some (rows.map AccountRow.view), s)
      else none
    | none => some (none, s)
  | .select_account id user_id =>
    match Uuid.UUID_TO_BIN id, Uuid.UUID_TO_BIN user_id with
    | some id, some user_id => some (some ((s.owned id user_id).map fun r => (r.view, r.closed_at)), s)
    | _, _ => some (none, s)
  | .select_currency id user_id =>
    match Uuid.UUID_TO_BIN id, Uuid.UUID_TO_BIN user_id with
    | some id, some user_id =>
      some (some (((s.owned id user_id).filter (·.status != .Closed)).map (·.currency.code)), s)
    | _, _ => some (none, s)
  | .select_owned id user_id =>
    match Uuid.UUID_TO_BIN id, Uuid.UUID_TO_BIN user_id with
    | some id, some user_id => some (some ((s.owned id user_id).map fun _ => ()), s)
    | _, _ => some (none, s)
  | .select_to_close id user_id =>
    match Uuid.UUID_TO_BIN id, Uuid.UUID_TO_BIN user_id with
    | some id, some user_id =>
      some (some ((s.owned id user_id).map fun r => ⟨r.user_id.to_string, r.status.text⟩), s)
    | _, _ => some (none, s)
  | .update_closed closed_at id =>
    match Uuid.UUID_TO_BIN id with
    | some id =>
      if DateTime.storable closed_at.bind then
        some (some (), { s with
          accounts := s.accounts.map fun r => if r.id = id then r.close closed_at else r })
      else some (none, s)
    | none => some (none, s)

/-- One operation of call `t`. -/
def exec (t : Nat) (ch : Choice) (s : Store) : (op : Op) → Option (op.Res × Store)
  | .sql q =>
    match ch.fault with
    | .none => q.run env ch.rows s
    | .failed => some (none, s)
    | .lost => (q.run env ch.rows s).map fun (_, s') => (none, s')
  | .redis cmd =>
    let answer := Redis.run s.clock s.redis cmd
    match ch.fault with
    | .none => some (some answer.1, { s with redis := answer.2 })
    | .failed => some (none, s)
    | .lost => some (none, { s with redis := answer.2 })
  | .utc_now => some (⟨s.clock⟩, s)
  | .now_v7 =>
    if ch.uuid ∈ s.minted then none else some (ch.uuid, { s with minted := ch.uuid :: s.minted })
  | .create_opening_entry .. => some (ch.opening, s)
  | .get_balance _ => some (ch.balance, s)
  | .get_statement .. => some (ch.page, s)
  | .has_pending_payments _ => some (ch.pending, s)
  | .publish_json .. => some (ch.published, s)
  | .ledger op =>
    (Ledger.exec env.ledger.db t ch.ledger s.ledger op).map fun (r, ledger) => (r, { s with ledger })

/-- What the outside does. -/
def outside : Outside → Store → Option Store
  | .advance n, s => some { s with clock := s.clock + n }
  | .ledger o, s => (Ledger.outside o s.ledger).map fun ledger => { s with ledger }

/-- MySQL, Redis, the clock, the services behind the trait objects, and the ledger. -/
def machine : Machine Store Op Op.Res Choice Outside := ⟨exec env, outside⟩

end

end Kova.Account

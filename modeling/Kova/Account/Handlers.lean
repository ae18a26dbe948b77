import Kova.Account.Store

/-!
# The handlers of kova-account

The six handlers that the router mounts (the health check apart) and the state machine of an
account's status, and the service as a pool of their calls. The ledger's requests are served in
the same pool, on the ledger's own part of the store.
-/

set_option autoImplicit false

namespace Kova.Account

open Conc Ledger

/-! ## Requests -/

inductive Request where
  | create_account (auth : Jwt.AuthHeader) (currency : String)
  | list_accounts (auth : Jwt.AuthHeader)
  | get_account (auth : Jwt.AuthHeader) (account_id : String)
  | get_balance (auth : Jwt.AuthHeader) (account_id : String)
  | get_statement (auth : Jwt.AuthHeader) (account_id : String) (cursor : Option String)
      (limit : Option UInt32)
  | close_account (auth : Jwt.AuthHeader) (account_id : String)
  | ledger (req : Ledger.Request)

/-- An entry as the statement endpoint returns it. -/
structure StatementItem where
  entry_id : String
  amount : String
  direction : String
  description : String
  created_at : DateTime
  deriving DecidableEq

inductive Response where
  | created (view : AccountView)
  | accounts (data : List AccountView)
  | account (view : AccountView) (closed_at : Option Int)
  | balance (data : Value) (stale : Bool)
  | statement (data : List StatementItem) (cursor : Option String) (has_more : Bool)
      (limit : UInt32)
  | closed (account_id : String) (closed_at : DateTime)
  | ledger (answer : Ledger.Response)
  deriving DecidableEq

/-- Why a request is refused: its extractor rejected it, its handler returned an error, or it was
the ledger's. -/
inductive Failure where
  | rejection (message : String)
  | error (e : AccountError)
  | ledger (e : LedgerError)
  deriving DecidableEq

/-- An async function of kova-account. -/
abbrev Async := Prog Op Op.Res Failure

/-- `Err(e)`. -/
def fail {α : Type} (e : AccountError) : Async α := .raise (.error e)

/-- `sqlx::query(..).await?`. -/
def sql (q : Sql) : Async q.Res :=
  .await (.sql q) fun
    | some r => .ret r
    | none => fail .Database

/-- `fetch_optional(..).await?.ok_or(e)?`. -/
def or_fail {α : Type} (e : AccountError) : Option α → Async α
  | some a => .ret a
  | none => fail e

/-- The answer of a trait object, with `?`. -/
def answered {α : Type} : Except AccountError α → Async α
  | .ok a => .ret a
  | .error e => fail e

def utc_now : Async DateTime := .await .utc_now .ret

def now_v7 : Async Uuid := .await .now_v7 .ret

/-- The extractor in a handler's arguments: it runs before the handler's body. -/
def auth_user (decoding_key : Jwt.Key) (auth : Jwt.AuthHeader) : Async AuthUser := do
  let now ← utc_now
  match AuthUser.from_request_parts decoding_key now.timestamp.toNat auth with
  | .ok user => .ret user
  | .error message => .raise (.rejection message)

/-! ## state_machine.rs -/

/-- A status transition: the new status, or the error's two texts. -/
def transition (current target : AccountStatus) : Except (String × String) AccountStatus :=
  match current, target with
  | .PendingKYC, .Active | .Active, .Frozen | .Active, .Closed | .Frozen, .Active
  | .Frozen, .Closed => .ok target
  | _, _ => .error (current.text, target.text)

/-! ## handlers/create.rs -/

def SUPPORTED : List String := ["NGN", "GBP", "USD", "KES"]

def parse_currency (s : String) : Async Currency :=
  if !SUPPORTED.contains s then fail .UnsupportedCurrency
  else
    match s with
    | "NGN" => .ret .NGN
    | "GBP" => .ret .GBP
    | "USD" => .ret .USD
    | "KES" => .ret .KES
    | _ => fail .UnsupportedCurrency

/-- `format!("KOVA{seq_num:010}")`. -/
def account_number (seq_num : Nat) : String :=
  let digits := seq_num.repr.toList
  String.ofList ("KOVA".toList ++ List.replicate (10 - digits.length) '0' ++ digits)

/-- The compensation: `.await.ok()`. -/
def delete_row (account_id : String) : Async Unit :=
  .await (.sql (.delete_account account_id)) fun _ => .ret ()

/-- What follows an INSERT that took effect: the opening entry and the event. -/
def opening (user : AuthUser) (body_currency : String) (currency : Currency) (seq_num : Nat)
    (account_id : Uuid) : Async Response := do
  let kova_user_id ← or_fail .Unauthorized (Uuid.parse_str user.sub)
  let opened ← .await (.create_opening_entry account_id currency) .ret
  match opened with
  | .error e => do
    delete_row account_id.to_string
    fail e
  | .ok () => do
    let event_id ← now_v7
    let occurred_at ← utc_now
    let event : AccountCreatedEvent :=
      { schema_version := SCHEMA_VERSION
        event_id
        account_id
        user_id := kova_user_id
        currency
        account_number := account_number seq_num
        occurred_at }
    let published ←
      .await (.publish_json TOPIC_ACCOUNT_CREATED account_id.to_string (.created event)) .ret
    answered published
    pure (.created
      { account_id := account_id.to_string
        user_id := user.sub
        account_number := account_number seq_num
        currency := body_currency
        status := "PendingKYC" })

def create_account (user : AuthUser) (body_currency : String) : Async Response := do
  let currency ← parse_currency body_currency
  let seq_num ← sql .insert_seq
  let account_id ← now_v7
  let result ← sql
    (.insert_account account_id.to_string user.sub (account_number seq_num) currency.code)
  match result with
  | .unique_violation => fail .AccountAlreadyExists
  | .inserted => opening user body_currency currency seq_num account_id

/-! ## handlers/get.rs -/

def list_accounts (user : AuthUser) : Async Response := do
  let rows ← sql (.select_accounts user.sub)
  pure (.accounts rows)

def get_account (user : AuthUser) (account_id : String) : Async Response := do
  let found ← sql (.select_account account_id user.sub)
  let row ← or_fail .AccountNotFound found
  pure (.account row.1 row.2)

/-! ## handlers/balance.rs -/

def BALANCE_CACHE_TTL_SECS : Nat := 5

def balance_cache_key (account_id : String) : String := "kova:balance:" ++ account_id

section

variable (env : Env)

/-- The cached JSON, if Redis has it and it parses. -/
def read_cache (key : String) : Async (Option Value) :=
  .await (.redis (.get key)) fun
    | some (some cached) => .ret (env.json_value cached)
    | _ => .ret none

/-- `set_ex(..).await.ok()`. -/
def write_cache (key : String) (data : Value) : Async Unit :=
  .await (.redis (.set_ex key (env.json_text data) BALANCE_CACHE_TTL_SECS)) fun _ => .ret ()

def get_balance (user : AuthUser) (account_id : String) : Async Response := do
  let row ← sql (.select_currency account_id user.sub)
  let currency ← or_fail .AccountNotFound row
  let hit ← read_cache env (balance_cache_key account_id)
  match hit with
  | some v => pure (.balance v false)
  | none => do
    let kova_id ← or_fail .AccountNotFound (Uuid.parse_str account_id)
    let answer ← .await (.get_balance kova_id) .ret
    match answer with
    | .ok bal => do
      let data := Value.balance account_id currency bal.available_balance.to_string
        bal.pending_amount.to_string
      write_cache env (balance_cache_key account_id) data
      pure (.balance data false)
    | .error e => do
      let stale ← read_cache env (balance_cache_key account_id)
      match stale with
      | some v => pure (.balance v true)
      | none => fail e

end

/-! ## handlers/statement.rs -/

def DEFAULT_LIMIT : UInt32 := 20
def MAX_LIMIT : UInt32 := 100

def LedgerEntry.item (e : LedgerEntry) : StatementItem where
  entry_id := e.entry_id
  amount := e.amount.to_string
  direction := e.direction
  description := e.description
  created_at := e.created_at

/-- `c.as_bytes()`: UTF-8. -/
def as_bytes (c : String) : List UInt8 := c.toList.flatMap String.utf8EncodeChar

/-- `B64.encode(c.as_bytes())`. -/
def encoded_cursor (c : String) : String := String.ofList (Base64.encode (as_bytes c))

def get_statement (user : AuthUser) (account_id : String) (cursor : Option String)
    (q_limit : Option UInt32) : Async Response := do
  let limit := q_limit.getD DEFAULT_LIMIT
  if limit = 0 ∨ limit > MAX_LIMIT then fail .InvalidPaginationLimit
  else do
    let owned ← sql (.select_owned account_id user.sub)
    let _ ← or_fail .AccountNotFound owned
    let kova_id ← or_fail .AccountNotFound (Uuid.parse_str account_id)
    let answer ← .await (.get_statement kova_id cursor limit) .ret
    let page ← answered answer
    pure (.statement (page.entries.map LedgerEntry.item) (page.next_cursor.map encoded_cursor)
      page.has_more limit)

/-! ## handlers/close.rs -/

def parse_status : String → Async AccountStatus
  | "Active" => .ret .Active
  | "Frozen" => .ret .Frozen
  | "Closed" => .ret .Closed
  | "PendingKYC" => .ret .PendingKYC
  | other => fail (.InvalidTransition other "Closed")

/-- `Decimal::is_zero`. -/
def is_zero (d : Decimal) : Bool := d.mantissa = 0

/-- Steps 5 and 6. -/
def persist_and_publish (account_id : String) (kova_id kova_user_id : Uuid) : Async Response := do
  let closed_at ← utc_now
  sql (.update_closed closed_at account_id)
  let event_id ← now_v7
  let event : AccountClosedEvent :=
    { schema_version := SCHEMA_VERSION
      event_id
      account_id := kova_id
      user_id := kova_user_id
      reason := "user_initiated"
      closed_at
      occurred_at := closed_at }
  let published ← .await (.publish_json TOPIC_ACCOUNT_CLOSED account_id (.closed event)) .ret
  answered published
  pure (.closed account_id closed_at)

def close_account (user : AuthUser) (account_id : String) : Async Response := do
  let found ← sql (.select_to_close account_id user.sub)
  let row ← or_fail .AccountNotFound found
  let current_status ← parse_status row.status
  if current_status = .Closed then fail .AlreadyClosed
  else do
    let kova_id ← or_fail .AccountNotFound (Uuid.parse_str account_id)
    let kova_user_id ← or_fail .Unauthorized (Uuid.parse_str user.sub)
    let answer ← .await (.has_pending_payments kova_id) .ret
    let pending ← answered answer
    if pending then fail .PendingPaymentsExist
    else do
      let answer ← .await (.get_balance kova_id) .ret
      let balance ← answered answer
      if !is_zero balance.available_balance || !is_zero balance.pending_amount then
        fail (.AccountHasBalance balance.available_balance.to_string)
      else
        match transition current_status .Closed with
        | .error (source, target) => fail (.InvalidTransition source target)
        | .ok _ => persist_and_publish account_id kova_id kova_user_id

/-! ## The service -/

section

variable (env : Env)

/-- The end of a ledger's request. -/
def ledger_answer : Except LedgerError Ledger.Response → Async Response
  | .ok answer => .ret (.ledger answer)
  | .error e => .raise (.ledger e)

/-- The program of a request. -/
def serve : Request → Async Response
  | .create_account auth currency => do
    let user ← auth_user env.key auth
    create_account user currency
  | .list_accounts auth => do
    let user ← auth_user env.key auth
    list_accounts user
  | .get_account auth account_id => do
    let user ← auth_user env.key auth
    get_account user account_id
  | .get_balance auth account_id => do
    let user ← auth_user env.key auth
    get_balance env user account_id
  | .get_statement auth account_id cursor limit => do
    let user ← auth_user env.key auth
    get_statement user account_id cursor limit
  | .close_account auth account_id => do
    let user ← auth_user env.key auth
    close_account user account_id
  | .ledger req => do
    let answer ← (Ledger.serve env.ledger req).caught.among .ledger fun _ r => r
    ledger_answer answer

end

abbrev AccountConf := Conf Store Request Op Op.Res Failure Response

abbrev AccountLabel := Label Request Choice Outside

abbrev AccountEvent := Event Store Request Op Op.Res

/-- The runs of the service. -/
abbrev AccountRun (env : Env) : AccountConf → List AccountLabel → AccountConf → Prop :=
  Run (machine env) (serve env) .all

/-- The service before its first call: the accounts that there are, whose identifiers were
generated before, and an empty ledger. -/
def start {env : Env} (accounts : Table env) (clock : Nat) : AccountConf :=
  .init
    { accounts := accounts.rows
      minted := accounts.rows.map (·.id)
      clock
      ledger := { clock } }

/-! ## A sample deployment -/

/-- A server that compares ASCII without case, and a parser that keeps a JSON text as it is. -/
def sample : Env where
  coll := ascii_ci
  key := 1
  json_text
    | .balance account_id currency available_balance pending_amount =>
      String.intercalate " " [account_id, currency, available_balance, pending_amount]
    | .other text => text
  json_value text := some (.other text)
  ledger := Ledger.sample

/-- The access token of user 1, issued in November 2023. -/
def sample_bearer : Jwt.AuthHeader :=
  .bearer (.jws
    { header := ⟨.RS256, none⟩
      payload :=
        { sub := some (Uuid.low 1).to_string
          exp := some 1700000900
          iat := some 1700000000
          jti := some (Uuid.low 4).to_string
          iss := some "kova-auth"
          kova_device_id := some "phone" }
      signed_by := 1 })

/-- The user's account 2, which the sample payments of the ledger credit. -/
def sample_account : AccountRow where
  id := .low 2
  user_id := .low 1
  account_number := "KOVA0000000001"
  currency := .NGN
  status := .Active
  created_at := 1690000000
  closed_at := none

def sample_table : Table sample where
  rows := [sample_account]
  keys := List.pairwise_singleton _ _
  checks := by decide

/-- The sample before its first call. -/
def sample_start : AccountConf := start sample_table 1700000000000000000

/-- Call `t` is the ledger's, and posts a payment from account 1 to account 2. -/
def sample_payment (t : Nat) (idempotency_key : String) (id outbox_id : Uuid) : List AccountLabel :=
  [.spawn (.ledger (.post_entry (payment idempotency_key))), .run t { ledger := { uuid := id } },
    .run t {}, .run t {}, .run t {}, .run t { ledger := { uuid := outbox_id } }, .run t {}, .run t {}]

end Kova.Account

import Kova.Account.Handlers
import Kova.Conc.History

/-!
# The steps of a call

Each handler of kova-account walked once, by the histories of its calls and whatever the operations
answer.

- `Awaits`: which operation a call awaits, and what it has done by then.
- `Ends`: the result of a call, and what it has done.
- `serve_steps`: both, for every request.

What the other modules say of the handlers is read off the steps by `Guarded.mono`, so that a
handler that changes is walked again here and nowhere else.
-/

set_option autoImplicit false

namespace Kova.Account

open Conc Ledger

/-- One operation of a call of kova-account, with its result. -/
abbrev AccountDone := Done Op Op.Res

/-- One statement with its reply. -/
def did (q : Sql) (r : Option q.Res) : AccountDone := ⟨.sql q, r⟩

/-! ## Walking a program -/

section Walking

variable {α β : Type} {G : List AccountDone → Op → Prop} {h : List AccountDone}
  {Q : List AccountDone → Except Failure α → Prop}

theorem guarded_sql {q : Sql} {f : q.Res → Async α} (hop : G h (.sql q))
    (failed : Q (h ++ [did q none]) (.error (.error .Database)))
    (rest : ∀ r, Guarded G Q (f r) (h ++ [did q (some r)])) : Guarded G Q (sql q >>= f) h := by
  refine ⟨hop, ?_⟩
  intro r
  cases r with
  | none => exact failed
  | some r => exact rest r

theorem guarded_or_fail {x : Option β} {e : AccountError} {f : β → Async α}
    (failed : Q h (.error (.error e)))
    (rest : ∀ a, x = some a → Guarded G Q (f a) h) : Guarded G Q (or_fail e x >>= f) h := by
  cases x with
  | none => exact failed
  | some a => exact rest a rfl

theorem guarded_answered {x : Except AccountError β} {f : β → Async α}
    (failed : ∀ e, x = .error e → Q h (.error (.error e)))
    (rest : ∀ a, x = .ok a → Guarded G Q (f a) h) : Guarded G Q (answered x >>= f) h := by
  cases x with
  | error e => exact failed e rfl
  | ok a => exact rest a rfl

/-- The extractor in front of a handler reads the clock, and lets pass whom the token names. -/
theorem guarded_auth_user {key : Jwt.Key} {auth : Jwt.AuthHeader} {f : AuthUser → Async α}
    (hop : G h .utc_now)
    (failed : ∀ now message, Q (h ++ [⟨.utc_now, now⟩]) (.error (.rejection message)))
    (rest : ∀ now user, AuthUser.from_request_parts key now.timestamp.toNat auth = .ok user →
      Guarded G Q (f user) (h ++ [⟨.utc_now, now⟩])) :
    Guarded G Q (auth_user key auth >>= f) h := by
  refine ⟨hop, ?_⟩
  intro now
  simp only [Prog.bind]
  cases huser : AuthUser.from_request_parts key now.timestamp.toNat auth with
  | error message => exact failed now message
  | ok user => exact rest now user huser

/-- What a read of the cache finds. -/
def found (env : Env) : Option (Option String) → Option Value
  | some (some text) => env.json_value text
  | _ => none

theorem guarded_read_cache {env : Env} {key : String} {f : Option Value → Async α}
    (hop : G h (.redis (.get key)))
    (rest : ∀ reply : Option (Option String),
      Guarded G Q (f (found env reply)) (h ++ [⟨.redis (.get key), reply⟩])) :
    Guarded G Q (read_cache env key >>= f) h := by
  refine ⟨hop, ?_⟩
  intro reply
  have rest := rest reply
  rcases reply with _ | _ | text <;> exact rest

end Walking

/-! ## handlers/create.rs -/

theorem parse_currency_cases (s : String) :
    parse_currency s = fail .UnsupportedCurrency ∨
      ∃ currency, parse_currency s = .ret currency := by
  unfold parse_currency
  split
  · exact .inl rfl
  · split
    any_goals exact .inr ⟨_, rfl⟩
    exact .inl rfl

/-- The event that announces an account. -/
def created_event (currency : Currency) (seq_num : Nat) (account_id kova_user_id event_id : Uuid)
    (occurred_at : DateTime) : AccountCreatedEvent where
  schema_version := SCHEMA_VERSION
  event_id
  account_id
  user_id := kova_user_id
  currency
  account_number := account_number seq_num
  occurred_at

section Creation

variable (user : AuthUser) (body_currency : String) (currency : Currency) (seq_num : Nat)
  (account_id : Uuid) (now : DateTime)

/-- What follows the INSERT of an account, which was executed last in `h`. -/
inductive OpeningStep (h : List AccountDone) : List AccountDone → Op → Prop
  | entry : OpeningStep h h (.create_opening_entry account_id currency)
  | withdraw {e : AccountError} :
      OpeningStep h (h ++ [⟨.create_opening_entry account_id currency, .error e⟩])
        (.sql (.delete_account account_id.to_string))
  | name : OpeningStep h (h ++ [⟨.create_opening_entry account_id currency, .ok ()⟩]) .now_v7
  | clock {event_id : Uuid} :
      OpeningStep h (h ++ [⟨.create_opening_entry account_id currency, .ok ()⟩] ++
        [⟨.now_v7, event_id⟩]) .utc_now
  | publish {kova_user_id event_id : Uuid} {occurred_at : DateTime}
      (owner : Uuid.parse_str user.sub = some kova_user_id) :
      OpeningStep h (h ++ [⟨.create_opening_entry account_id currency, .ok ()⟩] ++
          [⟨.now_v7, event_id⟩] ++ [⟨.utc_now, occurred_at⟩])
        (.publish_json TOPIC_ACCOUNT_CREATED account_id.to_string
          (.created (created_event currency seq_num account_id kova_user_id event_id occurred_at)))

/-- The end of a creation that had inserted its account. -/
inductive OpeningEnd (h : List AccountDone) : List AccountDone → Except Failure Response → Prop
  | failed {h' : List AccountDone} {e : Failure} : OpeningEnd h h' (.error e)
  | opened {kova_user_id event_id : Uuid} {occurred_at : DateTime}
      (owner : Uuid.parse_str user.sub = some kova_user_id) :
      OpeningEnd h (h ++ [⟨.create_opening_entry account_id currency, .ok ()⟩] ++
          [⟨.now_v7, event_id⟩] ++ [⟨.utc_now, occurred_at⟩] ++
          [⟨.publish_json TOPIC_ACCOUNT_CREATED account_id.to_string (.created (created_event
            currency seq_num account_id kova_user_id event_id occurred_at)), .ok ()⟩])
        (.ok (.created
          { account_id := account_id.to_string
            user_id := user.sub
            account_number := account_number seq_num
            currency := body_currency
            status := "PendingKYC" }))

/-- What a creation has done when its INSERT has taken effect. -/
def inserted : List AccountDone :=
  [⟨.utc_now, now⟩, did .insert_seq (some seq_num), ⟨.now_v7, account_id⟩,
    did (.insert_account account_id.to_string user.sub (account_number seq_num) currency.code)
      (some .inserted)]

end Creation

/-- The operations of a creation. -/
inductive CreationStep (user : AuthUser) (body_currency : String) (now : DateTime) :
    List AccountDone → Op → Prop
  | draw : CreationStep user body_currency now [⟨.utc_now, now⟩] (.sql .insert_seq)
  | name {seq_num : Nat} :
      CreationStep user body_currency now [⟨.utc_now, now⟩, did .insert_seq (some seq_num)] .now_v7
  | insert {currency : Currency} {seq_num : Nat} {account_id : Uuid}
      (code : parse_currency body_currency = .ret currency) :
      CreationStep user body_currency now
        [⟨.utc_now, now⟩, did .insert_seq (some seq_num), ⟨.now_v7, account_id⟩]
        (.sql (.insert_account account_id.to_string user.sub (account_number seq_num)
          currency.code))
  | opening {currency : Currency} {seq_num : Nat} {account_id : Uuid} {h : List AccountDone}
      {op : Op}
      (code : parse_currency body_currency = .ret currency)
      (step : OpeningStep user currency seq_num account_id
        (inserted user currency seq_num account_id now) h op) :
      CreationStep user body_currency now h op

inductive CreationEnd (user : AuthUser) (body_currency : String) (now : DateTime) :
    List AccountDone → Except Failure Response → Prop
  | failed {h : List AccountDone} {e : Failure} : CreationEnd user body_currency now h (.error e)
  | opening {currency : Currency} {seq_num : Nat} {account_id : Uuid} {h : List AccountDone}
      {r : Except Failure Response} (code : parse_currency body_currency = .ret currency)
      (ends : OpeningEnd user body_currency currency seq_num account_id
        (inserted user currency seq_num account_id now) h r) :
      CreationEnd user body_currency now h r

theorem opening_steps (user : AuthUser) (body_currency : String) (currency : Currency)
    (seq_num : Nat) (account_id : Uuid) (h : List AccountDone) :
    Guarded (OpeningStep user currency seq_num account_id h)
      (OpeningEnd user body_currency currency seq_num account_id h)
      (opening user body_currency currency seq_num account_id) h := by
  apply guarded_or_fail .failed
  intro kova_user_id owner
  apply guarded_await .entry
  intro opened
  cases opened with
  | error e => exact ⟨.withdraw, fun _ => .failed⟩
  | ok _ =>
    apply guarded_await .name
    intro event_id
    apply guarded_await .clock
    intro occurred_at
    apply guarded_await (.publish owner)
    intro published
    cases published with
    | error e => exact .failed
    | ok _ => exact .opened owner

theorem create_account_steps (user : AuthUser) (body_currency : String) (now : DateTime) :
    Guarded (CreationStep user body_currency now) (CreationEnd user body_currency now)
      (create_account user body_currency) [⟨.utc_now, now⟩] := by
  unfold create_account
  rcases parse_currency_cases body_currency with code | ⟨currency, code⟩
  · rw [code]
    exact .failed
  · rw [code]
    apply guarded_sql .draw .failed
    intro seq_num
    apply guarded_await .name
    intro account_id
    apply guarded_sql (.insert code) .failed
    intro result
    cases result with
    | unique_violation => exact .failed
    | inserted =>
      exact (opening_steps user body_currency currency seq_num account_id _).mono
        (fun _ _ step => .opening code step) fun _ _ ends => .opening code ends

/-! ## handlers/balance.rs -/

def Op.asks_balance : Op → Bool
  | .get_balance _ => true
  | _ => false

def Op.caches : Op → Bool
  | .redis (.set_ex ..) => true
  | _ => false

/-- What the ledger's failure is answered with. -/
def fallback_result (e : AccountError) : Option Value → Except Failure Response
  | some v => .ok (.balance v true)
  | none => .error (.error e)

/-- The ledger was not asked for a balance. -/
def Unasked (h : List AccountDone) : Prop := ∀ x ∈ h, x.op.asks_balance = false

/-- What a balance request's result says: the cache was hit, the ledger answered, the ledger failed
and the cache was read again, or the ledger was not asked. -/
inductive BalanceAnswer (env : Env) (account_id : String) :
    List AccountDone → Except Failure Response → Prop
  | hit {h : List AccountDone} {v : Value} (reply : Option (Option String)) (unasked : Unasked h)
      (hit : found env reply = some v) :
      BalanceAnswer env account_id
        (h ++ [⟨.redis (.get (balance_cache_key account_id)), reply⟩]) (.ok (.balance v false))
  | fetched {h : List AccountDone} {x : Uuid} {bal : BalanceResult} {currency : String}
      {cmd : Redis.Cmd} {reply : Option cmd.Res} (unasked : Unasked h)
      (parsed : Uuid.parse_str account_id = some x) (caching : (Op.redis cmd).caches = true) :
      BalanceAnswer env account_id (h ++ [⟨.get_balance x, .ok bal⟩, ⟨.redis cmd, reply⟩])
        (.ok (.balance (.balance account_id currency bal.available_balance.to_string
          bal.pending_amount.to_string) false))
  | fallback {h : List AccountDone} {x : Uuid} {e : AccountError} (reply : Option (Option String))
      (unasked : Unasked h) :
      BalanceAnswer env account_id
        (h ++ [⟨.get_balance x, .error e⟩, ⟨.redis (.get (balance_cache_key account_id)), reply⟩])
        (fallback_result e (found env reply))
  | refused {h : List AccountDone} {e : Failure} (unasked : Unasked h) :
      BalanceAnswer env account_id h (.error e)

/-- The operations of a request for a balance. -/
inductive BalanceStep (env : Env) (user : AuthUser) (account_id : String) (now : DateTime) :
    List AccountDone → Op → Prop
  | owned : BalanceStep env user account_id now [⟨.utc_now, now⟩]
      (.sql (.select_currency account_id user.sub))
  | cached {currency : String} :
      BalanceStep env user account_id now
        [⟨.utc_now, now⟩, did (.select_currency account_id user.sub) (some (some currency))]
        (.redis (.get (balance_cache_key account_id)))
  | ask {h : List AccountDone} {x : Uuid} (parsed : Uuid.parse_str account_id = some x) :
      BalanceStep env user account_id now h (.get_balance x)
  | cache {h : List AccountDone} {currency : String} {x : Uuid} {bal : BalanceResult}
      (parsed : Uuid.parse_str account_id = some x) :
      BalanceStep env user account_id now (h ++ [⟨.get_balance x, .ok bal⟩])
        (.redis (.set_ex (balance_cache_key account_id) (env.json_text (.balance account_id currency
          bal.available_balance.to_string bal.pending_amount.to_string)) BALANCE_CACHE_TTL_SECS))
  | stale {h : List AccountDone} {x : Uuid} {e : AccountError} :
      BalanceStep env user account_id now (h ++ [⟨.get_balance x, .error e⟩])
        (.redis (.get (balance_cache_key account_id)))

theorem Unasked.snoc {h : List AccountDone} (hs : Unasked h) {x : AccountDone}
    (hx : x.op.asks_balance = false) : Unasked (h ++ [x]) :=
  List.forall_mem_append.mpr ⟨hs, List.forall_mem_singleton.mpr hx⟩

theorem unasked_extracted (now : DateTime) : Unasked [⟨.utc_now, now⟩] :=
  List.forall_mem_singleton.mpr rfl

theorem get_balance_steps (env : Env) (user : AuthUser) (account_id : String) (now : DateTime) :
    Guarded (BalanceStep env user account_id now) (BalanceAnswer env account_id)
      (get_balance env user account_id) [⟨.utc_now, now⟩] := by
  have selected : ∀ row, Unasked
      ([⟨.utc_now, now⟩] ++ [did (.select_currency account_id user.sub) row]) :=
    fun row => (unasked_extracted now).snoc rfl
  apply guarded_sql .owned (.refused (selected _))
  intro row
  apply guarded_or_fail (.refused (selected _))
  rintro currency rfl
  apply guarded_read_cache .cached
  intro reply
  have missed : Unasked ([⟨.utc_now, now⟩] ++
      [did (.select_currency account_id user.sub) (some (some currency))] ++
        [⟨.redis (.get (balance_cache_key account_id)), reply⟩]) :=
    (selected (some (some currency))).snoc rfl
  cases hfound : found env reply with
  | some v => exact .hit reply (selected _) hfound
  | none =>
    apply guarded_or_fail (.refused missed)
    intro kova_id parsed
    apply guarded_await (.ask parsed)
    intro answer
    cases answer with
    | ok bal =>
      refine ⟨.cache parsed, ?_⟩
      intro reply
      rw [List.append_assoc]
      exact .fetched missed parsed rfl
    | error e =>
      apply guarded_read_cache .stale
      intro reply
      rw [List.append_assoc]
      have result := @BalanceAnswer.fallback env account_id _ kova_id e reply missed
      cases hstale : found env reply with
      | some v =>
        rw [hstale] at result
        exact result
      | none =>
        rw [hstale] at result
        exact result

/-! ## handlers/statement.rs -/

/-- What the statement handler makes of the ledger's answer. -/
def statement_result (limit : UInt32) : Except AccountError StatementPage → Except Failure Response
  | .ok page =>
    .ok (.statement (page.entries.map LedgerEntry.item) (page.next_cursor.map encoded_cursor)
      page.has_more limit)
  | .error e => .error (.error e)

/-- The operation asks the ledger for a page. -/
def Op.asks_page : Op → Bool
  | .get_statement .. => true
  | _ => false

/-- What a statement request's result says: it did not reach the ledger, or it handed its own
cursor on and answered what the ledger answered. -/
inductive StatementAnswer (account_id : String) (cursor : Option String) :
    List AccountDone → Except Failure Response → Prop
  | refused {h : List AccountDone} {e : Failure} (unasked : ∀ x ∈ h, x.op.asks_page = false) :
      StatementAnswer account_id cursor h (.error e)
  | asked {h : List AccountDone} {kova_id : Uuid} {limit : UInt32}
      (answer : Except AccountError StatementPage) (unasked : ∀ x ∈ h, x.op.asks_page = false)
      (parsed : Uuid.parse_str account_id = some kova_id) :
      StatementAnswer account_id cursor (h ++ [⟨.get_statement kova_id cursor limit, answer⟩])
        (statement_result limit answer)

/-- The operations of a request for a statement. -/
inductive StatementStep (user : AuthUser) (account_id : String) (cursor : Option String)
    (now : DateTime) : List AccountDone → Op → Prop
  | owned : StatementStep user account_id cursor now [⟨.utc_now, now⟩]
      (.sql (.select_owned account_id user.sub))
  | ask {kova_id : Uuid} {limit : UInt32} (parsed : Uuid.parse_str account_id = some kova_id) :
      StatementStep user account_id cursor now
        [⟨.utc_now, now⟩, did (.select_owned account_id user.sub) (some (some ()))]
        (.get_statement kova_id cursor limit)

theorem get_statement_steps (user : AuthUser) (account_id : String) (cursor : Option String)
    (limit : Option UInt32) (now : DateTime) :
    Guarded (StatementStep user account_id cursor now) (StatementAnswer account_id cursor)
      (get_statement user account_id cursor limit) [⟨.utc_now, now⟩] := by
  have extracted : ∀ x ∈ [(⟨.utc_now, now⟩ : AccountDone)], x.op.asks_page = false :=
    List.forall_mem_singleton.mpr rfl
  have owned : ∀ r, ∀ x ∈ [⟨.utc_now, now⟩] ++ [did (.select_owned account_id user.sub) r],
      x.op.asks_page = false :=
    fun r => List.forall_mem_append.mpr ⟨extracted, List.forall_mem_singleton.mpr rfl⟩
  unfold get_statement
  dsimp only
  split
  · exact .refused extracted
  · apply guarded_sql .owned (.refused (owned none))
    intro found
    apply guarded_or_fail (.refused (owned _))
    rintro _ rfl
    apply guarded_or_fail (.refused (owned _))
    intro kova_id parsed
    apply guarded_await (.ask parsed)
    intro answer
    have result : StatementAnswer account_id cursor _
        (statement_result (limit.getD DEFAULT_LIMIT) answer) :=
      .asked answer (owned (some (some ()))) parsed
    cases answer with
    | error e => exact result
    | ok page => exact result

/-! ## handlers/close.rs -/

/-- The statuses that an account can be closed from. -/
def AccountStatus.closable : AccountStatus → Bool
  | .Active | .Frozen => true
  | .Closed | .PendingKYC => false

theorem closable_of_transition {status : AccountStatus} {r : AccountStatus}
    (h : transition status .Closed = .ok r) : status.closable = true := by
  cases status <;> simp [transition] at h <;> rfl

theorem parse_status_cases (text : String) :
    (∃ e, parse_status text = .raise e) ∨
      ∃ status, parse_status text = .ret status ∧ text = AccountStatus.text status := by
  unfold parse_status
  split
  · exact .inr ⟨_, rfl, rfl⟩
  · exact .inr ⟨_, rfl, rfl⟩
  · exact .inr ⟨_, rfl, rfl⟩
  · exact .inr ⟨_, rfl, rfl⟩
  · exact .inl ⟨_, rfl⟩

/-- What a closure has found before its UPDATE. -/
structure Found (user : AuthUser) (account_id : String) (row : CloseRow)
    (kova_id kova_user_id : Uuid) (balance : BalanceResult) : Prop where
  opened : ∃ status, row.status = AccountStatus.text status ∧ status.closable = true
  parsed : Uuid.parse_str account_id = some kova_id
  owner : Uuid.parse_str user.sub = some kova_user_id
  available : is_zero balance.available_balance = true
  pending : is_zero balance.pending_amount = true

/-- What it has done then. -/
def checks_done (user : AuthUser) (account_id : String) (now : DateTime) (row : CloseRow)
    (kova_id : Uuid) (balance : BalanceResult) (closed_at : DateTime) : List AccountDone :=
  [⟨.utc_now, now⟩, did (.select_to_close account_id user.sub) (some (some row)),
    ⟨.has_pending_payments kova_id, .ok false⟩, ⟨.get_balance kova_id, .ok balance⟩,
    ⟨.utc_now, closed_at⟩]

/-- The event that announces a closure. -/
def closed_event (kova_id kova_user_id event_id : Uuid) (closed_at : DateTime) :
    AccountClosedEvent where
  schema_version := SCHEMA_VERSION
  event_id
  account_id := kova_id
  user_id := kova_user_id
  reason := "user_initiated"
  closed_at
  occurred_at := closed_at

/-- The operations of a closure. -/
inductive ClosureStep (user : AuthUser) (account_id : String) (now : DateTime) :
    List AccountDone → Op → Prop
  | read : ClosureStep user account_id now [⟨.utc_now, now⟩]
      (.sql (.select_to_close account_id user.sub))
  | pending {row : CloseRow} {kova_id : Uuid} :
      ClosureStep user account_id now
        [⟨.utc_now, now⟩, did (.select_to_close account_id user.sub) (some (some row))]
        (.has_pending_payments kova_id)
  | balance {row : CloseRow} {kova_id : Uuid} :
      ClosureStep user account_id now
        [⟨.utc_now, now⟩, did (.select_to_close account_id user.sub) (some (some row)),
          ⟨.has_pending_payments kova_id, .ok false⟩] (.get_balance kova_id)
  | moment {h : List AccountDone} : ClosureStep user account_id now h .utc_now
  | close {row : CloseRow} {kova_id kova_user_id : Uuid} {balance : BalanceResult}
      {closed_at : DateTime} (found : Found user account_id row kova_id kova_user_id balance) :
      ClosureStep user account_id now
        (checks_done user account_id now row kova_id balance closed_at)
        (.sql (.update_closed closed_at account_id))
  | name {h : List AccountDone} : ClosureStep user account_id now h .now_v7
  | publish {row : CloseRow} {kova_id kova_user_id event_id : Uuid} {balance : BalanceResult}
      {closed_at : DateTime} (found : Found user account_id row kova_id kova_user_id balance) :
      ClosureStep user account_id now
        (checks_done user account_id now row kova_id balance closed_at ++
          [did (.update_closed closed_at account_id) (some ())] ++ [⟨.now_v7, event_id⟩])
        (.publish_json TOPIC_ACCOUNT_CLOSED account_id
          (.closed (closed_event kova_id kova_user_id event_id closed_at)))

/-- The operation writes to the table of accounts. -/
def Op.writes : Op → Bool
  | .sql (.insert_account ..) | .sql (.delete_account _) | .sql (.update_closed ..) => true
  | _ => false

/-- The history of a closure that has returned: it stopped before the UPDATE, at the UPDATE, at
the publisher, or after it. -/
inductive ClosureAnswer (account_id : String) :
    List AccountDone → Except Failure Response → Prop
  | refused {h : List AccountDone} {e : Failure} (unwritten : ∀ x ∈ h, x.op.writes = false) :
      ClosureAnswer account_id h (.error e)
  | unanswered {h : List AccountDone} {closed_at : DateTime} {e : Failure}
      (unwritten : ∀ x ∈ h, x.op.writes = false) :
      ClosureAnswer account_id (h ++ [did (.update_closed closed_at account_id) none]) (.error e)
  | unpublished {h : List AccountDone} {closed_at : DateTime} {event_id : Uuid}
      {topic key : String} {event : AccountClosedEvent} {error : AccountError} {e : Failure} :
      ClosureAnswer account_id (h ++ [did (.update_closed closed_at account_id) (some ())] ++
        [⟨.now_v7, event_id⟩] ++ [⟨.publish_json topic key (.closed event), .error error⟩])
        (.error e)
  | published {h : List AccountDone} {closed_at : DateTime} {event_id : Uuid}
      {topic key : String} {event : AccountClosedEvent} {resp : Response}
      (parsed : Uuid.parse_str account_id = some event.account_id) :
      ClosureAnswer account_id (h ++ [did (.update_closed closed_at account_id) (some ())] ++
        [⟨.now_v7, event_id⟩] ++ [⟨.publish_json topic key (.closed event), .ok ()⟩]) (.ok resp)

theorem unwritten_append {h : List AccountDone} (hh : ∀ x ∈ h, x.op.writes = false)
    {y : AccountDone} (hy : y.op.writes = false) : ∀ x ∈ h ++ [y], x.op.writes = false :=
  List.forall_mem_append.mpr ⟨hh, List.forall_mem_singleton.mpr hy⟩

theorem unwritten_extracted (now : DateTime) :
    ∀ x ∈ [(⟨.utc_now, now⟩ : AccountDone)], x.op.writes = false :=
  List.forall_mem_singleton.mpr rfl

theorem close_account_steps (user : AuthUser) (account_id : String) (now : DateTime) :
    Guarded (ClosureStep user account_id now) (ClosureAnswer account_id)
      (close_account user account_id) [⟨.utc_now, now⟩] := by
  have read := fun r => unwritten_append (unwritten_extracted now)
    (y := did (.select_to_close account_id user.sub) r) rfl
  apply guarded_sql .read (.refused (read none))
  intro found
  apply guarded_or_fail (.refused (read _))
  rintro row rfl
  rcases parse_status_cases row.status with ⟨e, refused⟩ | ⟨status, parsed, text⟩
  · rw [refused]
    exact .refused (read _)
  · rw [parsed]
    show Guarded _ _ (if status = .Closed then _ else _) _
    split
    · exact .refused (read _)
    · apply guarded_or_fail (.refused (read _))
      intro kova_id parsed
      apply guarded_or_fail (.refused (read _))
      intro kova_user_id owner
      apply guarded_await .pending
      intro answer
      have asked := unwritten_append (read (some (some row)))
        (y := ⟨.has_pending_payments kova_id, answer⟩) rfl
      apply guarded_answered fun _ _ => .refused asked
      rintro pending rfl
      cases pending with
      | true => exact .refused asked
      | false =>
        apply guarded_await .balance
        intro answer
        have asked := unwritten_append asked (y := ⟨.get_balance kova_id, answer⟩) rfl
        apply guarded_answered fun _ _ => .refused asked
        rintro balance rfl
        split
        · exact .refused asked
        · next zero =>
          simp only [Bool.or_eq_true, Bool.not_eq_true', not_or, Bool.not_eq_false] at zero
          cases moves : transition status .Closed with
          | error e => exact .refused asked
          | ok _ =>
            have found : Found user account_id row kova_id kova_user_id balance :=
              ⟨⟨status, text, closable_of_transition moves⟩, parsed, owner, zero.1, zero.2⟩
            apply guarded_await .moment
            intro closed_at
            have unwritten := unwritten_append asked (y := ⟨.utc_now, closed_at⟩) rfl
            apply guarded_sql (.close found) (.unanswered unwritten)
            intro _
            apply guarded_await .name
            intro event_id
            apply guarded_await (.publish found)
            intro published
            cases published with
            | error e => exact .unpublished
            | ok _ => exact .published parsed

/-! ## The service -/

/-- The Authorization header of a request. -/
def Request.auth : Request → Option Jwt.AuthHeader
  | .create_account auth _ | .list_accounts auth | .get_account auth _ | .get_balance auth _
  | .get_statement auth .. | .close_account auth _ => some auth
  | .ledger _ => none

/-- The token of a call was accepted at `now`, and names the user. -/
def Accepted (env : Env) (auth : Jwt.AuthHeader) (now : DateTime) (user : AuthUser) : Prop :=
  AuthUser.from_request_parts env.key now.timestamp.toNat auth = .ok user

/-- **What a call awaits**, and what it has done by then. -/
inductive Awaits (env : Env) : Request → List AccountDone → Op → Prop
  | extract {req : Request} {auth : Jwt.AuthHeader} (header : req.auth = some auth) :
      Awaits env req [] .utc_now
  | create {auth : Jwt.AuthHeader} {currency : String} {now : DateTime} {user : AuthUser}
      {h : List AccountDone} {op : Op} (accepted : Accepted env auth now user)
      (step : CreationStep user currency now h op) : Awaits env (.create_account auth currency) h op
  | list {auth : Jwt.AuthHeader} {now : DateTime} {user : AuthUser}
      (accepted : Accepted env auth now user) :
      Awaits env (.list_accounts auth) [⟨.utc_now, now⟩] (.sql (.select_accounts user.sub))
  | get {auth : Jwt.AuthHeader} {account_id : String} {now : DateTime} {user : AuthUser}
      (accepted : Accepted env auth now user) :
      Awaits env (.get_account auth account_id) [⟨.utc_now, now⟩]
        (.sql (.select_account account_id user.sub))
  | balance {auth : Jwt.AuthHeader} {account_id : String} {now : DateTime} {user : AuthUser}
      {h : List AccountDone} {op : Op} (accepted : Accepted env auth now user)
      (step : BalanceStep env user account_id now h op) :
      Awaits env (.get_balance auth account_id) h op
  | statement {auth : Jwt.AuthHeader} {account_id : String} {cursor : Option String}
      {limit : Option UInt32} {now : DateTime} {user : AuthUser} {h : List AccountDone} {op : Op}
      (accepted : Accepted env auth now user)
      (step : StatementStep user account_id cursor now h op) :
      Awaits env (.get_statement auth account_id cursor limit) h op
  | close {auth : Jwt.AuthHeader} {account_id : String} {now : DateTime} {user : AuthUser}
      {h : List AccountDone} {op : Op} (accepted : Accepted env auth now user)
      (step : ClosureStep user account_id now h op) :
      Awaits env (.close_account auth account_id) h op
  | ledger {req : Ledger.Request} {h : List AccountDone} {op : Ledger.Op} :
      Awaits env (.ledger req) h (.ledger op)

/-- **How a call ends**, and what it has done. -/
inductive Ends (env : Env) : Request → List AccountDone → Except Failure Response → Prop
  | rejected {req : Request} {auth : Jwt.AuthHeader} {now : DateTime} {message : String}
      (header : req.auth = some auth) :
      Ends env req [⟨.utc_now, now⟩] (.error (.rejection message))
  | create {auth : Jwt.AuthHeader} {currency : String} {now : DateTime} {user : AuthUser}
      {h : List AccountDone} {r : Except Failure Response} (accepted : Accepted env auth now user)
      (ends : CreationEnd user currency now h r) : Ends env (.create_account auth currency) h r
  | unlisted {auth : Jwt.AuthHeader} {h : List AccountDone} {e : Failure} :
      Ends env (.list_accounts auth) h (.error e)
  | listed {auth : Jwt.AuthHeader} {now : DateTime} {user : AuthUser} {data : List AccountView}
      (accepted : Accepted env auth now user) :
      Ends env (.list_accounts auth)
        [⟨.utc_now, now⟩, did (.select_accounts user.sub) (some data)] (.ok (.accounts data))
  | get {auth : Jwt.AuthHeader} {account_id : String} {h : List AccountDone}
      {r : Except Failure Response} : Ends env (.get_account auth account_id) h r
  | balance {auth : Jwt.AuthHeader} {account_id : String} {h : List AccountDone}
      {r : Except Failure Response} (answer : BalanceAnswer env account_id h r) :
      Ends env (.get_balance auth account_id) h r
  | statement {auth : Jwt.AuthHeader} {account_id : String} {cursor : Option String}
      {limit : Option UInt32} {h : List AccountDone} {r : Except Failure Response}
      (answer : StatementAnswer account_id cursor h r) :
      Ends env (.get_statement auth account_id cursor limit) h r
  | close {auth : Jwt.AuthHeader} {account_id : String} {h : List AccountDone}
      {r : Except Failure Response} (answer : ClosureAnswer account_id h r) :
      Ends env (.close_account auth account_id) h r
  | ledger {req : Ledger.Request} {h : List AccountDone} {r : Except Failure Response} :
      Ends env (.ledger req) h r

/-- **The steps of every request.** -/
theorem serve_steps (env : Env) (req : Request) :
    Guarded (Awaits env req) (Ends env req) (serve env req) [] := by
  cases req with
  | create_account auth currency =>
    apply guarded_auth_user (.extract rfl) fun _ _ => .rejected rfl
    intro now user accepted
    exact (create_account_steps user currency now).mono
      (fun _ _ step => .create accepted step) fun _ _ ends => .create accepted ends
  | list_accounts auth =>
    apply guarded_auth_user (.extract rfl) fun _ _ => .rejected rfl
    intro now user accepted
    exact guarded_sql (.list accepted) .unlisted fun data => .listed accepted
  | get_account auth account_id =>
    apply guarded_auth_user (.extract rfl) fun _ _ => .rejected rfl
    intro now user accepted
    exact guarded_sql (.get accepted) .get fun found => guarded_or_fail .get fun row _ => .get
  | get_balance auth account_id =>
    apply guarded_auth_user (.extract rfl) fun _ _ => .rejected rfl
    intro now user accepted
    exact (get_balance_steps env user account_id now).mono
      (fun _ _ step => .balance accepted step) fun _ _ answer => .balance answer
  | get_statement auth account_id cursor limit =>
    apply guarded_auth_user (.extract rfl) fun _ _ => .rejected rfl
    intro now user accepted
    exact (get_statement_steps user account_id cursor limit now).mono
      (fun _ _ step => .statement accepted step) fun _ _ answer => .statement answer
  | close_account auth account_id =>
    apply guarded_auth_user (.extract rfl) fun _ _ => .rejected rfl
    intro now user accepted
    exact (close_account_steps user account_id now).mono
      (fun _ _ step => .close accepted step) fun _ _ answer => .close answer
  | ledger req =>
    refine Guarded.bind (fun _ _ _ => .ledger) ?_
      (guarded_among (fun _ _ => .ledger) (Ledger.serve env.ledger req).caught [])
    intro h answer _
    cases answer with
    | ok resp => exact .ledger
    | error e => exact .ledger

end Kova.Account

import Kova.Account.Steps

/-!
# What the handlers of kova-account do

What the runs of the service are proved from, read off the steps of its calls.

- `guard`: a row is inserted or deleted under an identifier that the call generated; a row is
  closed by a request to close it, after it was read as open, no payment was pending and the
  balance was zero; a closure is published once, after its UPDATE; and only the ledger's requests
  reach the ledger's store.
- `Answers`: what a result says about its call's history.
- `serve_guarded`: the guard and the answers, for every request.
-/

set_option autoImplicit false

namespace Kova.Account

open Conc Ledger

/-- The account was read, in a status that it can be closed from. -/
def ReadOpen (h : List AccountDone) (id : String) : Prop :=
  ∃ user_id row status, did (.select_to_close id user_id) (some (some row)) ∈ h ∧
    row.status = AccountStatus.text status ∧ status.closable = true

/-- The checks before the UPDATE of a closure. The balance is read once, after the account. -/
structure Checked (h : List AccountDone) (id : String) : Prop where
  settled : ∃ kova_id, Uuid.parse_str id = some kova_id ∧
    (⟨.has_pending_payments kova_id, .ok false⟩ : AccountDone) ∈ h
  empty : ∃ before after kova_id balance, h = before ++ ⟨.get_balance kova_id, .ok balance⟩ :: after ∧
    ReadOpen before id ∧ Uuid.parse_str id = some kova_id ∧
      is_zero balance.available_balance = true ∧ is_zero balance.pending_amount = true ∧
        ∀ x ∈ before ++ after, ∀ y, x.op ≠ .get_balance y

theorem Checked.read {h : List AccountDone} {id : String} (hc : Checked h id) : ReadOpen h id := by
  obtain ⟨before, after, _, _, rfl, ⟨user_id, row, status, hmem, hopen⟩, _⟩ := hc.empty
  exact ⟨user_id, row, status, List.mem_append_left _ hmem, hopen⟩

/-- What comes before the publication of a closure. -/
structure Publishing (h : List AccountDone) (event : AccountClosedEvent) : Prop where
  updated : ∃ closed_at id, did (.update_closed closed_at id) (some ()) ∈ h ∧
    Uuid.parse_str id = some event.account_id
  first : ∀ x ∈ h, ∀ topic key payload, x.op ≠ .publish_json topic key payload

/-- The identifier was generated by the call. -/
def Generated (h : List AccountDone) (id : String) : Prop :=
  ∃ x : Uuid, (⟨.now_v7, x⟩ : AccountDone) ∈ h ∧ id = x.to_string

/-- What comes before an operation. What the ledger does, no handler does. -/
def guard (req : Request) (h : List AccountDone) : Op → Prop
  | .sql (.insert_account id _ _ _) | .sql (.delete_account id) => Generated h id
  | .sql (.update_closed _ id) => (∃ auth, req = .close_account auth id) ∧ Checked h id
  | .publish_json _ _ (.closed event) => Publishing h event
  | .ledger _ => ∃ r, req = .ledger r
  | _ => True

/-- What a result says about the history of its call. -/
def Answers : Request → List AccountDone → Except Failure Response → Prop
  | .get_statement _ account_id cursor _, h, r => StatementAnswer account_id cursor h r
  | .close_account _ account_id, h, .ok _ =>
    ∃ closed_at, did (.update_closed closed_at account_id) (some ()) ∈ h
  | _, _, _ => True

variable {req : Request} {user : AuthUser} {now : DateTime} {h : List AccountDone} {op : Op}

theorem CreationStep.guard {currency : String} (step : CreationStep user currency now h op) :
    guard req h op := by
  cases step with
  | draw | name => trivial
  | insert code => exact ⟨_, by simp, rfl⟩
  | opening code step =>
    cases step with
    | withdraw => exact ⟨_, by simp [inserted], rfl⟩
    | _ => trivial

/-- What a closure has found are its checks. -/
theorem Found.checked {account_id : String} {row : CloseRow} {kova_id kova_user_id : Uuid}
    {balance : BalanceResult} (found : Found user account_id row kova_id kova_user_id balance)
    (closed_at : DateTime) :
    Checked (checks_done user account_id now row kova_id balance closed_at) account_id := by
  obtain ⟨status, text, closable⟩ := found.opened
  refine ⟨⟨kova_id, found.parsed, by simp [checks_done]⟩, [⟨.utc_now, now⟩,
    did (.select_to_close account_id user.sub) (some (some row)),
    ⟨.has_pending_payments kova_id, .ok false⟩], [⟨.utc_now, closed_at⟩], kova_id, balance, rfl,
    ⟨user.sub, row, status, by simp, text, closable⟩, found.parsed, found.available,
    found.pending, ?_⟩
  intro x hx y hop
  simp only [List.cons_append, List.nil_append, List.mem_cons, List.not_mem_nil, or_false] at hx
  rcases hx with rfl | rfl | rfl | rfl <;> cases hop

theorem ClosureStep.guard {account_id : String} (step : ClosureStep user account_id now h op)
    (closes : ∃ auth, req = .close_account auth account_id) : guard req h op := by
  cases step with
  | close found => exact ⟨closes, found.checked _⟩
  | @publish _ _ _ _ _ closed_at found =>
    refine ⟨⟨closed_at, account_id, by simp, found.parsed⟩, ?_⟩
    intro x hx topic key payload hop
    simp only [checks_done, List.mem_append, List.mem_cons, List.not_mem_nil, or_false] at hx
    rcases hx with ((rfl | rfl | rfl | rfl | rfl) | rfl) | rfl <;> cases hop
  | _ => trivial

/-- **Every handler** keeps to the guard, and its result says what it did. -/
theorem serve_guarded (env : Env) (req : Request) :
    Guarded (guard req) (Answers req) (serve env req) [] := by
  refine (serve_steps env req).mono ?_ ?_
  · intro h op step
    cases step with
    | create _ step => exact step.guard
    | balance _ step | statement _ step => cases step <;> trivial
    | close _ step => exact step.guard ⟨_, rfl⟩
    | ledger => exact ⟨_, rfl⟩
    | extract | list | get => trivial
  · intro h r ends
    cases ends with
    | rejected =>
      cases req with
      | get_statement => exact .refused (by simp [Op.asks_page])
      | _ => trivial
    | statement answer => exact answer
    | close answer =>
      cases answer with
      | @published _ closed_at => exact ⟨closed_at, by simp⟩
      | _ => trivial
    | create _ ends => trivial
    | unlisted | listed | get | balance | ledger => trivial

end Kova.Account

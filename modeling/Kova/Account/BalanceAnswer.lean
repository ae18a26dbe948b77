import Kova.Account.HandlerLaws

/-!
# What a balance request answers

What the steps of `get_balance` say: where the balance that it answers comes from (`BalanceAnswer`),
and what is cached (`balance_guard`). No other handler uses Redis (`serve_balance`).
-/

set_option autoImplicit false

namespace Kova.Account

open Conc Ledger

/-- The key under which a call caches a balance. -/
def Request.balance_key : Request → Option String
  | .get_balance _ account_id => some (balance_cache_key account_id)
  | _ => none

/-- What comes before a command to Redis: only the calls for a balance give one, on the key of the
account, and they cache what the ledger has just answered. -/
def balance_guard (env : Env) (req : Request) (h : List AccountDone) : Op → Prop
  | .redis (.get key) => req.balance_key = some key
  | .redis (.set_ex key text seconds) => seconds = BALANCE_CACHE_TTL_SECS ∧
    ∃ auth account_id h' x bal currency, req = .get_balance auth account_id ∧
      key = balance_cache_key account_id ∧ Uuid.parse_str account_id = some x ∧
        h = h' ++ [⟨.get_balance x, .ok bal⟩] ∧ text = env.json_text (.balance account_id currency
          bal.available_balance.to_string bal.pending_amount.to_string)
  | .redis _ => False
  | _ => True

/-- What a result says about the history of its call. -/
def ServesBalance (env : Env) : Request → List AccountDone → Except Failure Response → Prop
  | .get_balance _ account_id, h, r => BalanceAnswer env account_id h r
  | _, _, _ => True

/-- **Redis is used by the calls for a balance alone**, as `balance_guard` says, and their results
say what they found. -/
theorem serve_balance (env : Env) (req : Request) :
    Guarded (balance_guard env req) (ServesBalance env req) (serve env req) [] := by
  refine (serve_steps env req).mono ?_ ?_
  · intro h op step
    cases step with
    | balance _ step =>
      cases step with
      | owned | ask => trivial
      | cached | stale => rfl
      | cache parsed => exact ⟨rfl, _, _, _, _, _, _, rfl, rfl, parsed, rfl, rfl⟩
    | create _ step =>
      cases step with
      | opening code step => cases step <;> trivial
      | _ => trivial
    | statement _ step | close _ step => cases step <;> trivial
    | extract | list | get | ledger => trivial
  · intro h r ends
    cases ends with
    | rejected =>
      cases req with
      | get_balance => exact .refused (unasked_extracted _)
      | _ => trivial
    | balance answer => exact answer
    | create | unlisted | listed | get | statement | close | ledger => trivial

end Kova.Account

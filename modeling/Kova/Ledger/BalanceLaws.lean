import Mathlib.Algebra.BigOperators.Group.Finset.Piecewise
import Mathlib.Algebra.BigOperators.Ring.Finset
import Kova.Ledger.ServiceLaws

/-!
# Balances

What an entry does to a balance is its `delta`; the exact net of an account is the sum of the
deltas of the entries in the currency. `get_balance` answers the net where it fits the column
type (`get_balance_at`), one entry changes the nets of its two sides and no other
(`net_append`), and the nets of all accounts cancel out (`sum_net`).
-/

namespace Kova.Ledger

open Conc

variable {db : Engine}

/-- What an entry does to an account's balance, in ten-thousandths. -/
def EntryRow.delta (account_id : Uuid) (r : EntryRow) : Int :=
  (if r.credit_account_id = account_id then r.amount.units else 0) -
    if r.debit_account_id = account_id then r.amount.units else 0

/-- The exact net of an account in a currency, in ten-thousandths. -/
def net (db : Engine) (entries : List EntryRow) (account_id : Uuid) (currency : String) : Int :=
  ((entries.filter (involves db account_id currency)).map (EntryRow.delta account_id)).sum

/-- The two CASE sums of the aggregate are one sum of deltas. -/
theorem credits_sub_debits (account_id : Uuid) (rows : List EntryRow) :
    credits account_id rows - debits account_id rows =
      (rows.map (EntryRow.delta account_id)).sum := by
  induction rows with
  | nil => rfl
  | cons r rows ih =>
    simp only [credits, debits, List.map_cons, List.sum_cons, EntryRow.delta] at ih ⊢
    omega

/-- The balance column is the net, as far as it fits. -/
theorem select_balance_cast (entries : List EntryRow) (account_id : Uuid) (currency : String) :
    (select_balance db entries account_id currency).balance =
      Dec19_4.cast (net db entries account_id currency) := by
  rw [select_balance, credits_sub_debits]
  rfl

theorem select_balance_units {entries : List EntryRow} {account_id : Uuid} {currency : String}
    (h : Dec19_4.Fits (net db entries account_id currency)) :
    (select_balance db entries account_id currency).balance.units =
      net db entries account_id currency := by
  rw [select_balance_cast, Dec19_4.cast_units h]

/-! ## The answer on a database at rest -/

/-- What `get_balance` answers when nothing else runs. -/
def Store.get_balance (db : Engine) (s : Store) (account_id : Uuid) (currency : String) :
    Option (Except LedgerError BalanceResult) :=
  ((machine db).alone 0 {} (Ledger.get_balance account_id currency) s).map (·.1)

theorem get_balance_at (s : Store) (account_id : Uuid) (currency : String) :
    s.get_balance db account_id currency =
      if SUPPORTED_CURRENCIES.contains currency then
        some (.ok (select_balance db s.entries account_id currency).result)
      else some (.error (.InvalidArgument ("unsupported currency: " ++ currency))) := by
  unfold Store.get_balance Ledger.get_balance
  cases SUPPORTED_CURRENCIES.contains currency <;> rfl

theorem code_supported (c : Currency) : SUPPORTED_CURRENCIES.contains c.code = true := by
  cases c <;> decide

/-- The answer is in decimals what the net is in ten-thousandths. -/
theorem balance_toRat {entries : List EntryRow} {account_id : Uuid} {currency : String}
    (h : Dec19_4.Fits (net db entries account_id currency)) :
    (select_balance db entries account_id currency).result.balance.toRat =
      (net db entries account_id currency : ℚ) / 10 ^ 4 := by
  rw [BalanceRow.result, Dec19_4.toRat_toDecimal, select_balance_units h]

/-! ## More entries -/

/-- An entry with the account on neither side does nothing to it. -/
theorem delta_eq_zero {account_id : Uuid} {r : EntryRow} (hd : r.debit_account_id ≠ account_id)
    (hc : r.credit_account_id ≠ account_id) : r.delta account_id = 0 := by
  rw [EntryRow.delta, if_neg hc, if_neg hd, Int.sub_zero]

theorem delta_credit {r : EntryRow} (h : r.debit_account_id ≠ r.credit_account_id) :
    r.delta r.credit_account_id = r.amount.units := by
  rw [EntryRow.delta, if_pos rfl, if_neg h, Int.sub_zero]

theorem delta_debit {r : EntryRow} (h : r.debit_account_id ≠ r.credit_account_id) :
    r.delta r.debit_account_id = -r.amount.units := by
  rw [EntryRow.delta, if_neg h.symm, if_pos rfl, Int.zero_sub]

theorem net_append_list (entries new : List EntryRow) (account_id : Uuid) (currency : String) :
    net db (entries ++ new) account_id currency =
      net db entries account_id currency + net db new account_id currency := by
  simp only [net, List.filter_append, List.map_append, List.sum_append]

theorem net_append (entries : List EntryRow) (row : EntryRow) (account_id : Uuid)
    (currency : String) :
    net db (entries ++ [row]) account_id currency =
      net db entries account_id currency +
        if involves db account_id currency row then row.delta account_id else 0 := by
  rw [net_append_list]
  congr 1
  by_cases h : involves db account_id currency row
  · simp [net, h]
  · simp [net, h]

/-- An entry that does not involve an account leaves its whole aggregate alone. -/
theorem select_balance_append {entries : List EntryRow} {row : EntryRow} {account_id : Uuid}
    {currency : String} (h : involves db account_id currency row = false) :
    select_balance db (entries ++ [row]) account_id currency =
      select_balance db entries account_id currency := by
  have same : (entries ++ [row]).filter (involves db account_id currency) =
      entries.filter (involves db account_id currency) := by
    rw [List.filter_append, List.filter_cons, h]
    simp
  simp only [select_balance, same]

/-! ## All accounts together -/

theorem code_isUpper (c : Currency) : c.code.toList.all Char.isUpper := by
  cases c <;> decide

/-- The four codes are different under the collation. -/
theorem same_code {c c' : Currency} : db.same c.code c'.code ↔ c = c' := by
  refine ⟨fun h => ?_, fun h => h ▸ db.same_refl _⟩
  have := db.capitals _ _ (code_isUpper c) (code_isUpper c') h
  revert this
  cases c <;> cases c' <;> decide

/-- The accounts that occur in an entry of a currency. -/
def accounts (entries : List EntryRow) (currency : Currency) : Finset Uuid :=
  ((entries.filter (·.currency = currency)).flatMap fun r =>
    [r.debit_account_id, r.credit_account_id]).toFinset

/-- The net only needs the currency: other accounts' entries have no delta. -/
theorem net_code (entries : List EntryRow) (account_id : Uuid) (currency : Currency) :
    net db entries account_id currency.code =
      ((entries.filter (·.currency = currency)).map (EntryRow.delta account_id)).sum := by
  induction entries with
  | nil => rfl
  | cons r entries ih =>
    have step : net db (r :: entries) account_id currency.code =
        (if involves db account_id currency.code r then r.delta account_id else 0) +
          net db entries account_id currency.code := by
      unfold net
      by_cases h : involves db account_id currency.code r <;> simp [h]
    rw [step, ih]
    by_cases hcur : r.currency = currency
    · rw [List.filter_cons, if_pos (decide_eq_true hcur), List.map_cons, List.sum_cons]
      congr 1
      split
      · rfl
      · next hnot =>
        refine (delta_eq_zero (fun hd => hnot ?_) fun hc => hnot ?_).symm
        · simp [involves, hd, hcur, db.same_refl]
        · simp [involves, hc, hcur, db.same_refl]
    · have hother : ¬ involves db account_id currency.code r = true := by
        simp [involves, same_code, hcur]
      rw [if_neg hother, Int.zero_add, List.filter_cons, if_neg (by simpa using hcur)]

/-- One entry's deltas cancel out over any set of accounts that has both its sides. -/
theorem sum_delta {s : Finset Uuid} {r : EntryRow} (hd : r.debit_account_id ∈ s)
    (hc : r.credit_account_id ∈ s) : ∑ x ∈ s, r.delta x = 0 := by
  simp only [EntryRow.delta, Finset.sum_sub_distrib, Finset.sum_ite_eq, hd, hc, if_true, sub_self]

/-- **Conservation**: the nets of all accounts in a currency add up to zero. -/
theorem sum_net (entries : List EntryRow) (currency : Currency) :
    ∑ x ∈ accounts entries currency, net db entries x currency.code = 0 := by
  have cancel : ∀ (s : Finset Uuid) (rows : List EntryRow),
      (∀ r ∈ rows, r.debit_account_id ∈ s ∧ r.credit_account_id ∈ s) →
      ∑ x ∈ s, (rows.map (EntryRow.delta x)).sum = 0 := by
    intro s rows h
    induction rows with
    | nil => simp
    | cons r rows ih =>
      have hr := h r List.mem_cons_self
      simp only [List.map_cons, List.sum_cons, Finset.sum_add_distrib]
      rw [sum_delta hr.1 hr.2, ih fun r' hr' => h r' (List.mem_cons_of_mem _ hr'), add_zero]
  simp only [net_code]
  refine cancel _ _ fun r hr => ?_
  simp only [accounts, List.mem_toFinset, List.mem_flatMap]
  exact ⟨⟨r, hr, by simp⟩, ⟨r, hr, by simp⟩⟩

end Kova.Ledger

import Kova.Ledger.Posting

/-!
# Deriving a balance

`get_balance`: one aggregate over `ledger_entries`, computed live; there is no stored balance.
-/

namespace Kova.Ledger

open Conc

structure BalanceResult where
  balance : Decimal
  entry_count : Nat
  as_of : Option DateTime
  deriving DecidableEq

/-- The columns of the aggregate, as the caller receives them. -/
def BalanceRow.result (row : BalanceRow) : BalanceResult where
  balance := row.balance.toDecimal
  entry_count := row.entry_count
  as_of := row.as_of.map .of_micros

/-- `get_balance`. -/
def get_balance (account_id : Uuid) (currency : String) : Async BalanceResult := do
  if !SUPPORTED_CURRENCIES.contains currency then
    .raise (.InvalidArgument ("unsupported currency: " ++ currency))
  let row ← sql (.select_balance account_id currency)
  pure row.result

end Kova.Ledger

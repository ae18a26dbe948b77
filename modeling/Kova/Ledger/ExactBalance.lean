import Kova.Ledger.BalanceLaws

/-!
# Exact balances

What is credited to an account less what is debited from it is a sum of any number of amounts, and
the column that `get_balance` casts it to is as wide as one of them. MySQL casts a larger sum to the
largest value of the type, so a balance is exact if and only if it fits (`balance_exact_iff`).
-/

set_option autoImplicit false

namespace Kova.Ledger

open Conc

variable {v : Env}

/-! ## The exact sums -/

/-- The entries of a currency. -/
def entries_in (entries : List EntryRow) (currency : Currency) : List EntryRow :=
  entries.filter (·.currency = currency)

/-- The sum of the amounts credited to an account in a currency, in ten-thousandths. -/
def credited (entries : List EntryRow) (account_id : Uuid) (currency : Currency) : Int :=
  (((entries_in entries currency).filter (·.credit_account_id = account_id)).map
    (·.amount.units)).sum

/-- The sum of those debited from it. -/
def debited (entries : List EntryRow) (account_id : Uuid) (currency : Currency) : Int :=
  (((entries_in entries currency).filter (·.debit_account_id = account_id)).map
    (·.amount.units)).sum

/-- What it has. -/
def exact_balance (entries : List EntryRow) (account_id : Uuid) (currency : Currency) : Int :=
  credited entries account_id currency - debited entries account_id currency

/-- A sum over the members that a CASE picks. -/
theorem sum_filter {α : Type} (l : List α) (q : α → Prop) [DecidablePred q] (f : α → Int) :
    ((l.filter q).map f).sum = (l.map fun x => if q x then f x else 0).sum := by
  induction l with
  | nil => rfl
  | cons x l ih =>
    rw [List.map_cons, List.sum_cons, ← ih]
    by_cases hq : q x <;> simp [hq]

/-- It is the net of the entries. -/
theorem net_eq_exact (db : Engine) (entries : List EntryRow) (account_id : Uuid)
    (currency : Currency) :
    net db entries account_id currency.code = exact_balance entries account_id currency := by
  rw [net_code, ← credits_sub_debits, exact_balance, credited, debited, sum_filter, sum_filter]
  rfl

/-! ## The cast -/

theorem cast_units_iff {x : Int} : (Dec19_4.cast x).units = x ↔ Dec19_4.Fits x := by
  constructor
  · intro h
    exact h ▸ (Dec19_4.cast x).bound
  · exact Dec19_4.cast_units

/-- The answer is exact where the sum fits. -/
theorem result_exact_iff (db : Engine) (entries : List EntryRow) (account_id : Uuid)
    (currency : Currency) :
    (select_balance db entries account_id currency.code).result.balance.toRat =
        (exact_balance entries account_id currency : ℚ) / 10 ^ 4 ↔
      Dec19_4.Fits (exact_balance entries account_id currency) := by
  rw [← net_eq_exact db, ← cast_units_iff, ← select_balance_cast, BalanceRow.result,
    Dec19_4.toRat_toDecimal, div_left_inj' (by norm_num), Int.cast_inj]

/-- What `get_balance` answers when nothing else runs, for a supported currency. -/
theorem alone_balance {s s' : Store} {t : Nat} {account_id : Uuid} {currency : Currency}
    {result : BalanceResult}
    (h : (machine v.db).alone t {} (serve v (.get_balance account_id currency.code)) s =
      some (.ok (.balance result), s')) :
    result = (select_balance v.db s.entries account_id currency.code).result := by
  rcases serve_get_balance (v := v) account_id currency.code with ⟨hunsupported, _⟩ | ⟨_, heq⟩
  · rw [code_supported] at hunsupported
    cases hunsupported
  · rw [heq] at h
    cases h
    rfl

/-- A balance answered for one moment is exact. -/
def ExactAt (e : Event Store Request Op Op.Res) (account_id : Uuid) (currency : Currency)
    (result : BalanceResult) : Prop :=
  result.balance.toRat = (exact_balance e.pre.entries account_id currency : ℚ) / 10 ^ 4

/-- **When a balance is exact**: a call that arrived after `c` and returned by `d` read the entries
of one moment in between, and its answer is their exact balance if and only if that fits the column
type. -/
theorem balance_exact_iff (v : Env) (clock : Nat) (ls ms : List LedgerLabel) (c d : LedgerConf)
    (hc : LedgerRun v (start clock) ls c) (hd : LedgerRun v c ms d) (t : Nat)
    (harrived : c.pool.length ≤ t) (account_id : Uuid) (currency : Currency)
    (result : BalanceResult)
    (hr : d.returned t (.get_balance account_id currency.code) (.ok (.balance result))) :
    ∃ e, d.world.own t = [e] ∧ c.world.store.entries <+: e.pre.entries ∧
      e.pre.entries <+: d.world.store.entries ∧
        (ExactAt e account_id currency result ↔
          Dec19_4.Fits (exact_balance e.pre.entries account_id currency)) := by
  obtain ⟨e, hown, _, hfrom, hto, halone⟩ := read_moment hc hd harrived (by simp) hr
  refine ⟨e, hown, hfrom, hto, ?_⟩
  rw [ExactAt, alone_balance halone]
  exact result_exact_iff v.db e.pre.entries account_id currency

/-! ## Two samples -/

/-- Two payments, and a reading of what the payee has after them. -/
def read_after (p p' : PostEntryParams) : LedgerConf :=
  replayed (machine sample.db) (serve sample) (start 0) (posting_both p p')

def reading : List LedgerLabel := [.spawn (.get_balance (.low 2) "NGN"), .run 2 {}]

/-- The payee of two payments of 500.00 has 1000. -/
theorem balance_exact_sample :
    ∃ e, (replayed (machine sample.db) (serve sample)
      (read_after (payment "pay-1") (payment "pay-2")) reading).world.own 2 = [e] ∧
        (ExactAt e (.low 2) .NGN ⟨⟨10000000, 4, by decide, by decide⟩, 2, some ⟨0⟩⟩ ↔
          Dec19_4.Fits (exact_balance e.pre.entries (.low 2) .NGN)) := by
  obtain ⟨e, hown, _, _, hexact⟩ := balance_exact_iff sample 0
    (posting_both (payment "pay-1") (payment "pay-2")) reading _ _
    (run_replayed (by decide +kernel)) (run_replayed (by decide +kernel)) 2 (by decide +kernel)
    (.low 2) .NGN ⟨⟨10000000, 4, by decide, by decide⟩, 2, some ⟨0⟩⟩
    (returned_of_result? rfl (by decide +kernel))
  exact ⟨e, hown, hexact⟩

/-- The largest payment. -/
def largest (idempotency_key : String) : PostEntryParams :=
  { payment idempotency_key with amount := Dec19_4.toDecimal ⟨9999999999999999999, by decide⟩ }

/-- Two of them are answered as one. -/
theorem balance_clamped :
    ¬ ∀ (v : Env) (clock : Nat) (ls ms : List LedgerLabel) (c d : LedgerConf),
      LedgerRun v (start clock) ls c → LedgerRun v c ms d → ∀ t, c.pool.length ≤ t →
        ∀ (account_id : Uuid) (currency : Currency) (result : BalanceResult),
          d.returned t (.get_balance account_id currency.code) (.ok (.balance result)) →
            ∃ e, d.world.own t = [e] ∧ ExactAt e account_id currency result := by
  intro claim
  let d := replayed (machine sample.db) (serve sample)
    (read_after (largest "pay-1") (largest "pay-2")) reading
  obtain ⟨e, hown, hexact⟩ := claim sample 0 (posting_both (largest "pay-1") (largest "pay-2"))
    reading _ d (run_replayed (by decide +kernel)) (run_replayed (by decide +kernel)) 2
    (by decide +kernel) (.low 2) .NGN
    ⟨⟨9999999999999999999, 4, by decide, by decide⟩, 2, some ⟨0⟩⟩
    (returned_of_result? rfl (by decide +kernel))
  have sums : ∀ e ∈ d.world.own 2,
      exact_balance e.pre.entries (.low 2) .NGN = 19999999999999999998 := by decide +kernel
  have hsum := sums e (hown ▸ List.mem_singleton_self e)
  rw [ExactAt, hsum] at hexact
  norm_num [Decimal.toRat] at hexact

end Kova.Ledger

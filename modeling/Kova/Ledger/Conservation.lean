import Mathlib.Algebra.BigOperators.Field
import Kova.Ledger.BalanceLaws
import Kova.Ledger.ExactlyOnce

/-!
# Conservation of money

In every reachable ledger the balances of a currency add up to zero, and the only step of a
posting that changes a balance is its COMMIT, which moves the entry's amount from the debit to
the credit account. A call that failed changed nothing, unless its COMMIT took effect and the
reply was lost on the way back: then the caller was told of a failure and the money has moved
(`lost_commit_moves_money`).
-/

namespace Kova.Ledger

open Conc

variable {v : Env}

/-- No answer of `get_balance` differs. -/
def Unchanged (db : Engine) (s s' : Store) : Prop :=
  ∀ account_id currency, s'.get_balance db account_id currency = s.get_balance db account_id currency

/-- The balance of one account in one currency moved by an amount. -/
def Moved (db : Engine) (s s' : Store) (account_id : Uuid) (currency : Currency) (amount : ℚ) :
    Prop :=
  Dec19_4.Fits (net db s.entries account_id currency.code) →
    Dec19_4.Fits (net db s'.entries account_id currency.code) →
      ∃ b b', s.get_balance db account_id currency.code = some (.ok b) ∧
        s'.get_balance db account_id currency.code = some (.ok b') ∧
          b'.balance.toRat = b.balance.toRat + amount

/-- Exactly two answers of `get_balance` changed, in exactly one currency. -/
structure Transfer (db : Engine) (debit credit : Uuid) (currency : Currency) (amount : Dec19_4)
    (s s' : Store) : Prop where
  positive : 0 < amount.units
  sides : debit ≠ credit
  credited : Moved db s s' credit currency amount.toDecimal.toRat
  debited : Moved db s s' debit currency (-amount.toDecimal.toRat)
  others : ∀ account_id (c : String), c ≠ currency.code ∨ (account_id ≠ debit ∧ account_id ≠ credit) →
    s'.get_balance db account_id c = s.get_balance db account_id c

theorem unchanged_of_entries {db : Engine} {s s' : Store} (h : s'.entries = s.entries) :
    Unchanged db s s' := by
  intro account_id currency
  rw [get_balance_at, get_balance_at, h]

theorem moved_of_append {db : Engine} {s s' : Store} {row : EntryRow}
    (h : s'.entries = s.entries ++ [row]) {account_id : Uuid}
    (hside : row.credit_account_id = account_id ∨ row.debit_account_id = account_id) :
    Moved db s s' account_id row.currency ((row.delta account_id : ℚ) / 10 ^ 4) := by
  intro hfits hfits'
  refine ⟨_, _, by rw [get_balance_at, if_pos (code_supported _)],
    by rw [get_balance_at, if_pos (code_supported _)], ?_⟩
  have hinv : involves db account_id row.currency.code row = true := by
    rcases hside with h | h <;> simp [involves, h, db.same_refl]
  rw [balance_toRat hfits, balance_toRat hfits', h, net_append, if_pos hinv]
  push_cast
  ring

theorem supported_code {c : String} (h : SUPPORTED_CURRENCIES.contains c = true) :
    ∃ cur : Currency, c = cur.code := by
  simp only [SUPPORTED_CURRENCIES, List.contains_eq_mem, List.mem_cons, List.not_mem_nil,
    or_false, decide_eq_true_eq] at h
  rcases h with rfl | rfl | rfl | rfl
  · exact ⟨.NGN, rfl⟩
  · exact ⟨.GBP, rfl⟩
  · exact ⟨.USD, rfl⟩
  · exact ⟨.KES, rfl⟩

/-- **One entry more is one transfer.** -/
theorem transfer_of_append {db : Engine} {s s' : Store} {row : EntryRow}
    (positive : 0 < row.amount.units) (sides : row.debit_account_id ≠ row.credit_account_id)
    (h : s'.entries = s.entries ++ [row]) :
    Transfer db row.debit_account_id row.credit_account_id row.currency row.amount s s' where
  positive := positive
  sides := sides
  credited := by
    have moved : Moved db s s' row.credit_account_id _ _ := moved_of_append h (.inl rfl)
    rwa [delta_credit sides] at moved
  debited := by
    have moved : Moved db s s' row.debit_account_id _ _ := moved_of_append h (.inr rfl)
    rw [delta_debit sides] at moved
    rw [Dec19_4.toRat_toDecimal, ← neg_div]
    exact_mod_cast moved
  others account_id c hother := by
    rw [get_balance_at, get_balance_at, h]
    split
    · next hsupported =>
      obtain ⟨cur, rfl⟩ := supported_code hsupported
      rw [select_balance_append]
      rcases hother with hcur | ⟨hd, hc⟩
      · have : ¬ row.currency = cur := fun heq => hcur (heq ▸ rfl)
        simp [involves, same_code, this]
      · simp [involves, Ne.symm hd, Ne.symm hc]
    · rfl

/-! ## A call's operations -/

/-- What the operations of call `t` did: nothing to any balance but in the last one, a COMMIT
that was told `reply` and moved the amount from the debit to the credit account. -/
def Transferred (v : Env) (p : PostEntryParams) (t : Nat) (reply : Option Unit) (w : LedgerWorld) :
    Prop :=
  ∃ before req pre post, w.own t = before ++ [⟨t, req, .sql .commit, pre, reply, post⟩] ∧
    (∀ e ∈ before, Unchanged v.db e.pre e.post) ∧
    ∃ cur amount, p.currency = cur.code ∧ Dec19_4.ofDecimal p.amount = some amount ∧
      Transfer v.db p.debit_account_id p.credit_account_id cur amount pre post

theorem Committed.transferred {p : PostEntryParams} {t : Nat} {reply : Option Unit}
    {row : EntryRow} {w : LedgerWorld} (h : Committed v p t reply row w) :
    Transferred v p t reply w := by
  obtain ⟨before, req, pre, post, hown, hquiet, hentries⟩ := h.log
  obtain ⟨_, hvalues⟩ := h.values
  have hrow := (values_row hvalues).2
  obtain ⟨cur, hcur⟩ := supported_code (by simpa using h.supported)
  have hsame : row.currency = cur := (same_code.mp (hcur ▸ hrow.currency)).symm
  refine ⟨before, req, pre, post, hown, fun e he => unchanged_of_entries (hquiet e he), cur,
    row.amount, hcur, hrow.amount, ?_⟩
  rw [← hrow.debit, ← hrow.credit, ← hsame]
  exact transfer_of_append hrow.positive hrow.sides hentries

theorem Quiet.unchanged {t : Nat} {w : LedgerWorld} (h : Quiet t w) :
    ∀ e ∈ w.own t, Unchanged v.db e.pre e.post :=
  fun e he => unchanged_of_entries (h e he)

/-! ## The guarantee -/

/-- Conservation of money, as a property of one configuration. -/
structure Conserved (v : Env) (c : LedgerConf) : Prop where
  /-- Over all accounts that occur in an entry of a currency, the balances add up to zero. -/
  zero : ∀ cur, (∀ x ∈ accounts c.world.store.entries cur,
      Dec19_4.Fits (net v.db c.world.store.entries x cur.code)) →
    ∃ b : Uuid → BalanceResult,
      (∀ x, c.world.store.get_balance v.db x cur.code = some (.ok (b x))) ∧
        ∑ x ∈ accounts c.world.store.entries cur, (b x).balance.toRat = 0
  /-- A successful call that was not a replay made one transfer. -/
  posted : ∀ t p r, c.returned t (.post_entry p) (.ok (.posted r)) → r.was_idempotent = false →
    Transferred v p t (some ()) c.world
  /-- A replay changed no balance. -/
  idempotent : ∀ t p r, c.returned t (.post_entry p) (.ok (.posted r)) → r.was_idempotent = true →
    ∀ e ∈ c.world.own t, Unchanged v.db e.pre e.post
  /-- A failed call changed no balance, unless its COMMIT took effect and the reply was lost. -/
  failed : ∀ t p error, c.returned t (.post_entry p) (.error error) →
    (∀ e ∈ c.world.own t, Unchanged v.db e.pre e.post) ∨ Transferred v p t none c.world

/-- **Conservation of money** in every reachable ledger. -/
theorem conservation (v : Env) (clock : Nat) (ls : List LedgerLabel) (c : LedgerConf)
    (h : LedgerRun v (start clock) ls c) : Conserved v c := by
  refine ⟨fun cur hfits => ?_, fun t p r hr hfirst => ?_, fun t p r hr hidem => ?_,
    fun t p error hr => ?_⟩
  · refine ⟨fun x => (select_balance v.db c.world.store.entries x cur.code).result, fun x => ?_, ?_⟩
    · rw [get_balance_at, if_pos (code_supported cur)]
    · have nets : ∑ x ∈ accounts c.world.store.entries cur,
          net v.db c.world.store.entries x cur.code = 0 := sum_net _ cur
      rw [Finset.sum_congr rfl fun x hx => balance_toRat (hfits x hx), ← Finset.sum_div,
        ← Int.cast_sum, nets, Int.cast_zero, zero_div]
  · obtain ⟨row, _, hdone⟩ := posted_outcome h hr
    rw [if_neg (by simp [hfirst])] at hdone
    exact hdone.transferred
  · obtain ⟨row, _, hdone⟩ := posted_outcome h hr
    rw [if_pos hidem] at hdone
    exact hdone.1.unchanged
  · obtain ⟨r', heq, hout⟩ := returned_answer h hr
    cases r' with
    | ok r' => cases heq
    | error e =>
      rcases hout with hquiet | ⟨row, hdone⟩
      · exact .inl hquiet.unchanged
      · exact .inr hdone.transferred

/-- One payment whose COMMIT takes effect while its reply is lost. -/
def lost_commit : List LedgerLabel :=
  [.spawn (.post_entry (payment "pay-1")), .run 0 { uuid := .low 10 },
    .env (.advance 1700000000000000000), .run 0 {}, .run 0 {}, .run 0 {},
    .run 0 { uuid := .low 12 }, .run 0 {}, .run 0 { fault := .lost }]

def after_lost_commit : LedgerConf :=
  replayed (machine sample.db) (serve sample) (start 0) lost_commit

theorem lost_commit_runs : LedgerRun sample (start 0) lost_commit after_lost_commit :=
  run_replayed (by decide +kernel)

/-- A failed call that moved money: not every failed call leaves every balance alone. -/
theorem lost_commit_moves_money :
    ¬ ∀ (v : Env) (clock : Nat) (ls : List LedgerLabel) (c : LedgerConf),
      LedgerRun v (start clock) ls c →
        (∀ cur, ∀ x ∈ accounts c.world.store.entries cur,
          Dec19_4.Fits (net v.db c.world.store.entries x cur.code)) →
        ∀ t p error, c.returned t (.post_entry p) (.error error) →
          ∀ e ∈ c.world.own t, Unchanged v.db e.pre e.post := by
  intro claim
  have failed : after_lost_commit.returned 0 (.post_entry (payment "pay-1"))
      (.error (.Database .database)) := returned_of_result? rfl (by decide +kernel)
  have fits : ∀ cur, ∀ x ∈ accounts after_lost_commit.world.store.entries cur,
      Dec19_4.Fits (net sample.db after_lost_commit.world.store.entries x cur.code) := by
    intro cur
    cases cur <;> decide +kernel
  have moved : ∃ e ∈ after_lost_commit.world.own 0,
      e.post.get_balance sample.db (.low 2) "NGN" ≠ e.pre.get_balance sample.db (.low 2) "NGN" := by
    decide +kernel
  obtain ⟨e, he, hne⟩ := moved
  exact hne (claim _ _ _ _ lost_commit_runs fits _ _ _ failed e he _ _)

/-- The guarantee at that run: the failed call made its one transfer. -/
theorem conservation_lost_commit : Conserved sample after_lost_commit :=
  conservation sample 0 lost_commit after_lost_commit (run_replayed (by decide +kernel))

end Kova.Ledger

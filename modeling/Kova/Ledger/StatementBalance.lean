import Kova.Ledger.BalanceLaws
import Kova.Ledger.Pagination

/-!
# The statement and the balance tell the same story

A reader follows all pages of an account's statement in one currency while another call asks for
its balance, and no entry is committed meanwhile. The pages are then a rearrangement of the rows
that the aggregate of `get_balance` runs over, newest first, so sums, counts and the latest
instant agree.
-/

namespace Kova.Ledger

open Conc

variable {v : Env}

/-- What an entry of a statement does to the account: in on the credit side, out on the debit
side. -/
def StatementEntry.signed (account_id : Uuid) (e : StatementEntry) : ℚ :=
  (if e.credit_account_id = account_id then e.amount.toRat else 0) +
    if e.debit_account_id = account_id then -e.amount.toRat else 0

/-- The filter of one account's statement in one currency. -/
def in_currency (account_id : Uuid) (currency : String) : StatementFilter :=
  ⟨account_id, some currency, none, none⟩

/-- The statement and the aggregate select the same rows. -/
theorem matches_in_currency (db : Engine) (account_id : Uuid) (currency : String) (r : EntryRow) :
    (in_currency account_id currency).Matches db r ↔ involves db account_id currency r = true := by
  simp only [StatementFilter.Matches, in_currency, involves, Option.mem_def, Option.some.injEq,
    forall_eq', reduceCtorEq, false_implies, implies_true, and_true, Bool.and_eq_true,
    Bool.or_eq_true, beq_iff_eq, decide_eq_true_eq]
  exact and_congr_left' or_comm

theorem statement_entry_signed {r : EntryRow} {e : StatementEntry}
    (h : r.statement_entry v.json_text = some e) (account_id : Uuid) :
    e.signed account_id = (r.delta account_id : ℚ) / 10 ^ 4 := by
  obtain ⟨_, _, rfl⟩ := Option.map_eq_some_iff.mp h
  simp only [StatementEntry.signed, EntryRow.delta, Dec19_4.toRat_toDecimal]
  split <;> split <;> push_cast <;> ring

/-- The signed amounts of the entries add up to the deltas of their rows. -/
theorem sum_signed {es : List StatementEntry} {rs : List EntryRow}
    (h : List.Forall₂ (fun e r => r.statement_entry v.json_text = some e) es rs)
    (account_id : Uuid) :
    (es.map (StatementEntry.signed account_id)).sum =
      ((rs.map (EntryRow.delta account_id)).sum : ℚ) / 10 ^ 4 := by
  induction h with
  | nil => simp
  | cons hentry _ ih =>
    rw [List.map_cons, List.sum_cons, ih, statement_entry_signed hentry, List.map_cons,
      List.sum_cons]
    push_cast
    ring

/-- The first of a descending list of rows has the latest instant. -/
theorem head_created_at {rows : List EntryRow}
    (h : Keyset.Descending EntryRow.sort_key rows) :
    rows.head?.map (·.created_at) = (rows.map (·.created_at)).max? := by
  cases rows with
  | nil => rfl
  | cons r rows =>
    symm
    rw [List.head?_cons, Option.map_some, List.max?_eq_some_iff]
    refine ⟨List.mem_cons_self, fun x hx => ?_⟩
    obtain ⟨r', hr', rfl⟩ := List.mem_map.mp hx
    rcases List.mem_cons.mp hr' with rfl | hr'
    · exact le_refl _
    · have hlt := (List.pairwise_cons.mp h).1 r' hr'
      rcases Prod.Lex.toLex_lt_toLex.mp hlt with hlt | ⟨heq, _⟩
      · exact hlt.le
      · exact heq.le

/-- The first entry's instant is its row's. -/
theorem head_of_rows {es : List StatementEntry} {rs : List EntryRow}
    (h : List.Forall₂ (fun e r => r.statement_entry v.json_text = some e) es rs) :
    es.head?.map (·.created_at) = (rs.head?.map (·.created_at)).map .of_micros := by
  cases h with
  | nil => rfl
  | cons hentry _ => exact congrArg some (statement_entry_spec hentry).2

theorem max?_of_perm {xs ys : List Int} (h : xs.Perm ys) : xs.max? = ys.max? := by
  cases hy : ys.max? with
  | none =>
    rw [List.max?_eq_none_iff] at hy ⊢
    exact (hy ▸ h).eq_nil
  | some m =>
    obtain ⟨hm, hmax⟩ := List.max?_eq_some_iff.mp hy
    exact List.max?_eq_some_iff.mpr ⟨h.mem_iff.mpr hm, fun x hx => hmax x (h.mem_iff.mp hx)⟩

/-- On a ledger that does not change, the rows of the pages are the matching entries, rearranged
into descending order. -/
theorem still_rows {clock : Nat} {ls : List LedgerLabel} {c d : LedgerConf} {f : StatementFilter}
    {visits : List (Nat × StatementPage)} (hc : LedgerRun v (start clock) ls c)
    (still : d.world.store.entries = c.world.store.entries) (h : Follow v f c none visits d) :
    ∃ rows, List.Forall₂ (fun e r => r.statement_entry v.json_text = some e) (listed visits) rows ∧
      Keyset.Descending EntryRow.sort_key rows ∧
      rows.Perm (c.world.store.entries.filter fun r => f.Matches v.db r) := by
  obtain ⟨reads, hvisits, follows⟩ := follow_reads h hc (stands_none f)
  -- every page was read from the same entries
  have same : ∀ read ∈ reads, read.1 = c.world.store.entries.filter fun r => f.Matches v.db r := by
    intro read hread
    obtain ⟨_, _, visit⟩ := mem_right_of_forall₂ hvisits hread
    obtain ⟨e, _, _, hfrom, hto, hrows⟩ := visit.moment
    rw [still] at hto
    rw [hrows, hto.eq_of_length_le hfrom.length_le]
  have inv : Inv v.db c.world.store := (service_sound hc).inv
  have descending := follows.descending
  refine ⟨_, listed_rows hvisits, descending, ?_⟩
  have nodup : (reads.flatMap (·.2)).Nodup :=
    List.Pairwise.imp (fun {a b} hlt heq => by
      cases heq
      exact absurd hlt (lt_irrefl _)) descending
  have nodup' : (c.world.store.entries.filter fun r => f.Matches v.db r).Nodup :=
    (inv.sort_keys_nodup fun r => f.Matches v.db r).of_map _
  refine (List.perm_ext_iff_of_nodup nodup nodup').mpr fun r => ⟨fun hr => ?_, fun hr => ?_⟩
  · obtain ⟨read, hread, hr⟩ := List.mem_flatMap.mp hr
    exact same read hread ▸ (follows.sound read hread r hr).1
  · exact follows.complete (fun read hread => same read hread ▸ hr) nofun

/-- A balance that the service answered is the aggregate over the entries of one moment. -/
theorem balance_moment {clock : Nat} {ls ms : List LedgerLabel} {c d : LedgerConf}
    (hc : LedgerRun v (start clock) ls c) (hd : LedgerRun v c ms d) {t : Nat}
    (harrived : c.pool.length ≤ t) {account_id : Uuid} {currency : String} {b : BalanceResult}
    (hr : d.returned t (.get_balance account_id currency) (.ok (.balance b))) :
    ∃ entries, c.world.store.entries <+: entries ∧ entries <+: d.world.store.entries ∧
      b = (select_balance v.db entries account_id currency).result := by
  obtain ⟨e, _, _, hfrom, hto, halone⟩ := read_moment hc hd harrived (by simp) hr
  refine ⟨e.pre.entries, hfrom, hto, ?_⟩
  rcases serve_get_balance (v := v) account_id currency with ⟨_, heq⟩ | ⟨_, heq⟩
  · rw [heq] at halone
    cases halone
  · rw [heq] at halone
    cases halone
    rfl

/-- **The statement and the balance agree** on a ledger that does not change during the reads:
the signed sum of all pages is the balance, their length the count, and the first entry's
instant the latest. -/
theorem statement_agrees_with_balance (v : Env) (clock : Nat) (ls : List LedgerLabel)
    (c d : LedgerConf) (account_id : Uuid) (currency : String)
    (visits : List (Nat × StatementPage)) (u : Nat) (b : BalanceResult)
    (hc : LedgerRun v (start clock) ls c)
    (still : d.world.store.entries = c.world.store.entries)
    (hpages : Follow v (in_currency account_id currency) c none visits d)
    (harrived : c.pool.length ≤ u)
    (hbalance : d.returned u (.get_balance account_id currency) (.ok (.balance b)))
    (fits : Dec19_4.Fits (net v.db c.world.store.entries account_id currency)) :
    ((listed visits).map (StatementEntry.signed account_id)).sum = b.balance.toRat ∧
      (listed visits).length = b.entry_count ∧
      (listed visits).head?.map (·.created_at) = b.as_of := by
  obtain ⟨rows, hentries, descending, perm⟩ := still_rows hc still hpages
  obtain ⟨ms, hd⟩ := hpages.run
  obtain ⟨entries, hfrom, hto, rfl⟩ := balance_moment hc hd harrived hbalance
  rw [still] at hto
  obtain rfl := hto.eq_of_length_le hfrom.length_le
  have selected : (c.world.store.entries.filter fun r =>
      decide ((in_currency account_id currency).Matches v.db r)) =
      c.world.store.entries.filter (involves v.db account_id currency) := by
    refine List.filter_congr fun r _ => ?_
    rw [Bool.eq_iff_iff, decide_eq_true_eq]
    exact matches_in_currency v.db account_id currency r
  rw [selected] at perm
  refine ⟨?_, ?_, ?_⟩
  · rw [sum_signed hentries, balance_toRat fits, (perm.map _).sum_eq]
    rfl
  · rw [hentries.length_eq, perm.length_eq]
    rfl
  · rw [head_of_rows hentries, head_created_at descending, max?_of_perm (perm.map _)]
    rfl

/-- The reader's second page on the sample deployment, and a balance read beside it. -/
def after_balance : LedgerConf :=
  replayed (machine sample.db) (serve sample) after_first_page
    [.spawn (.get_statement payer_statement first_page.next_cursor 1),
      .spawn (.get_balance (.low 1) "NGN"), .run 4 {}, .run 3 {}]

theorem still_pages : Follow sample payer_statement before_pages none
    [(2, first_page), (3, second_page)] after_balance :=
  .next (run_replayed (by decide +kernel)) (by decide +kernel)
    (returned_of_result? rfl (by decide +kernel)) rfl
    (.last (run_replayed (by decide +kernel)) (by decide +kernel)
      (returned_of_result? rfl (by decide +kernel)) rfl)

def payer_balance : BalanceResult where
  balance := Dec19_4.toDecimal ⟨-10000000, by decide⟩
  entry_count := 2
  as_of := some (.of_micros 1700000000000000)

theorem statement_agrees_with_balance_payer :
    ([paid (.low 11) "pay-2" 1700000000000000, paid (.low 10) "pay-1" 1700000000000000].map
        (StatementEntry.signed (.low 1))).sum = payer_balance.balance.toRat ∧
      2 = payer_balance.entry_count ∧
      some (DateTime.of_micros 1700000000000000) = payer_balance.as_of :=
  statement_agrees_with_balance sample 0 two_payments before_pages after_balance (.low 1) "NGN"
    [(2, first_page), (3, second_page)] 4 payer_balance (run_replayed (by decide +kernel))
    (by decide +kernel) still_pages (by decide +kernel)
    (returned_of_result? rfl (by decide +kernel)) (by decide +kernel)

end Kova.Ledger

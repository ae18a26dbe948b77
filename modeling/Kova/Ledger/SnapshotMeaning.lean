import Kova.Ledger.ExactBalance
import Kova.Ledger.FalseAlarm
import Kova.Ledger.PostingOrder
import Kova.Ledger.RowRequests

/-!
# What a snapshot means

The schema says that a snapshot is the sum of an account's entries up to its `snapshot_at`. The pass
reads the live balance first, and the database stamps the row when it is inserted, some statements
later; an entry carries the clock of its own call, read before it is committed. So an entry that is
committed after the balance was read may be dated before the stamp (`slipped`). A snapshot is what
the schema says if and only if such entries make up for what the column has cut off, which is nothing
for a balance that fits it (`snapshot_means_iff`).
-/

set_option autoImplicit false

namespace Kova.Ledger.Reconciliation

open Conc

variable {v : Env} {clock : Nat} {ls : List ReconLabel} {d : ReconConf} {t : Nat}

/-! ## The clock -/

/-- Time passes. -/
theorem clock_follows (db : Engine) :
    Follows (machine db) fun s s' => s.ledger.clock ≤ s'.ledger.clock where
  refl _ := le_refl _
  trans := le_trans
  exec := by
    intro t ch s op r s' h
    cases exec_effect h with
    | posting executed => cases exec_change executed <;> exact le_refl _
    | unchanged | snapshot | counted => exact le_refl _
  env := by
    intro e s s' h
    obtain ⟨ledger, henv, rfl⟩ := Option.map_eq_some_iff.mp h
    cases e with
    | advance n =>
      cases henv
      exact Nat.le_add_right _ _
    | reap u =>
      cases henv
      exact le_refl _

/-- What a posting inserts carries a reading of the clock. -/
def stamped (h : List ReconDone) : Op → Prop
  | .posting (.sql (.insert_entry values)) => ⟨.posting .utc_now, values.created_at⟩ ∈ h
  | _ => True

theorem posting_stamped (v : Env) (p : PostEntryParams) :
    Guarded stamped (fun _ _ => True)
      ((post_entry v.sha256_hex p).among .posting fun _ r => r : Prog Op Op.Res LedgerError _) [] := by
  refine Guarded.among (R := fun h h' => ∀ op r, (⟨op, r⟩ : LedgerDone) ∈ h →
    (⟨.posting op, r⟩ : ReconDone) ∈ h') ?_ ?_ ?_ ?_ (post_entry_ordered v p)
  · intro h h' op r hR op' r' hmem
    rcases List.mem_append.mp hmem with hmem | hmem
    · exact List.mem_append_left _ (hR op' r' hmem)
    · cases List.mem_singleton.mp hmem
      exact List.mem_append_right _ List.mem_cons_self
  · intro h h' op hR hordered
    cases op with
    | sql q =>
      cases q with
      | insert_entry values =>
        obtain ⟨_, now, rfl, hclock, _⟩ := hordered
        exact hR _ _ hclock
      | _ => trivial
    | _ => trivial
  · intro h h' r _ _
    trivial
  · intro op r hmem
    cases hmem

/-! ### The pass posts nothing -/

/-- No statement of a posting is among the operations. -/
def Apart {ε α : Type} (p : Prog Op Op.Res ε α) : Prop :=
  ∀ h, Guarded (fun _ op => ∀ q, op ≠ .posting (.sql q)) (fun _ _ => True) p h

theorem Apart.bind {ε α β : Type} {p : Prog Op Op.Res ε α} {f : α → Prog Op Op.Res ε β}
    (hp : Apart p) (hf : ∀ a, Apart (f a)) : Apart (p >>= f) :=
  fun h => (hp h).bind (fun _ _ _ => trivial) fun h' a _ => hf a h'

theorem Apart.bind_caught {ε ε' α β : Type} {p : Prog Op Op.Res ε' α}
    {f : Except ε' α → Prog Op Op.Res ε β} (hp : Apart p) (hf : ∀ r, Apart (f r)) :
    Apart (p.caught >>= f) :=
  fun h => (hp h).bind_caught fun h' r _ => hf r h'

theorem sql_apart (q : Sql) : Apart (sql q) := by
  refine fun h => ⟨by simp, ?_⟩
  intro r
  cases r <;> trivial

theorem reconcile_apart (a : Uuid) (c : Currency) (m : Nat) : Apart (reconcile a c m) := by
  refine (sql_apart _).bind fun live => (sql_apart _).bind fun snap => ?_
  refine fun h => ⟨by simp, fun id => ?_⟩
  refine (sql_apart _).bind ?_ _
  intro _ _
  trivial

theorem for_currencies_apart (a : Uuid) : ∀ (rows : List Currency) (m : Nat),
    Apart (for_currencies a rows m)
  | [], _ => fun _ => trivial
  | c :: rows, m => (reconcile_apart a c m).bind (for_currencies_apart a rows)

theorem for_accounts_apart : ∀ (rows : List Uuid) (m : Nat), Apart (for_accounts rows m)
  | [], _ => fun _ => trivial
  | a :: rows, m => (sql_apart _).bind fun currency_rows =>
    (for_currencies_apart a currency_rows.val m).bind (for_accounts_apart rows)

theorem pass_apart : Apart reconciliation_pass :=
  (sql_apart _).bind fun rows => for_accounts_apart rows.val 0

theorem tick_apart : Apart eod_tick := by
  refine fun h => ⟨by simp, fun now => ?_⟩
  show Guarded _ _ (if in_window now then _ else _) _
  by_cases hwindow : in_window now = true
  · rw [if_pos hwindow]
    refine pass_apart.bind_caught (fun result => ?_) _
    unfold count_mismatches
    cases result with
    | error e => exact fun _ => trivial
    | ok n =>
      intro h
      show Guarded _ _ (if 0 < n then _ else _) _
      split
      · exact ⟨by simp, fun _ => trivial⟩
      · trivial
  · rw [if_neg hwindow]
    trivial

/-- **Every entry that is inserted carries a reading of its call's clock.** -/
theorem serve_stamped (v : Env) (req : Request) :
    Guarded stamped (fun _ _ => True) (serve v req) [] := by
  have apart : ∀ {h : List ReconDone} {op : Op}, (∀ q, op ≠ .posting (.sql q)) → stamped h op := by
    intro h op hop
    fun_cases stamped with
    | case1 values => exact absurd rfl (hop _)
    | case2 => trivial
  cases req with
  | post_entry p =>
    refine (posting_stamped v p).bind (fun _ _ _ => trivial) ?_
    intro _ _ _
    trivial
  | reconciliation_pass =>
    refine Guarded.mono (fun _ _ => apart) (fun _ _ _ => trivial) (pass_apart.bind_caught ?_ [])
    intro _ _
    trivial
  | eod_tick =>
    refine Guarded.mono (fun _ _ => apart) (fun _ _ _ => trivial) (tick_apart.bind ?_ [])
    intro _ _
    trivial

/-! ## The entries that a balance was read from -/

/-- A row is new to the ledger's index by a posting's INSERT. -/
theorem exec_index {db : Engine} {ch : Choice} {s s' : Store} {op : Op} {r : op.Res}
    (hexec : exec db t ch s op = some (r, s')) {x : EntryRow} (hx : x ∈ s'.ledger.index_rows) :
    x ∈ s.ledger.index_rows ∨
      ∃ values, op = .posting (.sql (.insert_entry values)) ∧ values.row db = some x := by
  cases exec_effect hexec with
  | posting executed =>
    rcases exec_index_rows executed hx with hold | ⟨values, rfl, hrow⟩
    · exact .inl hold
    · exact .inr ⟨values, rfl, hrow⟩
  | unchanged | snapshot | counted => exact .inl hx

theorem outside_index {o : Ledger.Outside} {s s' : Store} (h : outside o s = some s') {x : EntryRow}
    (hx : x ∈ s'.ledger.index_rows) : x ∈ s.ledger.index_rows := by
  obtain ⟨ledger, henv, rfl⟩ := Option.map_eq_some_iff.mp h
  exact outside_index_rows henv hx

/-- **No entry is dated later than the clock.** -/
theorem entry_dated (h : ReconRun v (start clock) ls d) {x : EntryRow}
    (hx : x ∈ d.world.store.ledger.entries) :
    x.created_at ≤ (d.world.store.ledger.clock / 1000 : Nat) := by
  obtain ⟨e, he, hbefore, hafter⟩ := h.becomes (P := fun s => x ∈ s.ledger.index_rows)
    (fun ho hmem => outside_index ho hmem) List.not_mem_nil (List.mem_append_left _ hx)
  obtain ⟨_, _, _, hexec⟩ := h.executed he
  obtain ⟨values, hop, hrow⟩ := (exec_index hexec hafter).resolve_left hbefore
  obtain ⟨before, after, split⟩ := List.append_of_mem he
  have hguard := h.guard (G := fun _ => stamped) (Q := fun _ _ _ => True) (serve_stamped v) split
  rw [hop] at hguard
  obtain ⟨a, ha, _, hdid, _⟩ := event_of_history after e hguard
  have hlog : a ∈ d.world.log := by
    rw [split]
    exact List.mem_append_left _ ha
  obtain ⟨_, _, _, hmoved⟩ := h.executed hlog
  obtain ⟨_, ch, _, hread⟩ := h.did hlog hdid
  have hread : exec v.db a.tid ch a.pre (.posting .utc_now) = some (values.created_at, a.post) :=
    hread
  obtain ⟨ledger, hclock, _⟩ := exec_posting hread
  obtain ⟨hnow, _⟩ := exec_utc_now hclock
  have hsince : a.pre.ledger.clock ≤ d.world.store.ledger.clock :=
    le_trans ((clock_follows v.db).exec hmoved) (h.since (clock_follows v.db) hlog)
  rw [EntryInsert.row_created_at hrow, hnow]
  simp only [DateTime.bind]
  omega

/-- Nor was it for any event. -/
theorem read_dated (h : ReconRun v (start clock) ls d) {e : ReconEvent} (he : e ∈ d.world.log)
    {x : EntryRow} (hx : x ∈ e.pre.ledger.entries) :
    x.created_at ≤ (e.pre.ledger.clock / 1000 : Nat) :=
  h.store_at (P := fun s => x ∈ s.ledger.entries → x.created_at ≤ (s.ledger.clock / 1000 : Nat)) he
    (fun hrun hx => entry_dated hrun hx) hx

/-! ## The meaning -/

/-- The row was written by the INSERT `i`, with the balance that the SELECT `e` of its pass read. -/
structure Taken (d : ReconConf) (row : SnapshotRow) (e i : ReconEvent) : Prop where
  same : e.tid = i.tid
  order : Precedes d.world.log e i
  read : e.did = ⟨.sql (.select_live_balance row.account_id row.currency), some row.balance⟩
  insert : i.op = .sql (.insert_snapshot row.id row.account_id row.currency row.balance)
  stamp : row.snapshot_at = (i.pre.ledger.clock / 1000 : Nat)

/-- **The schema's sentence**: the balance is the sum of all entries of the account and currency
that are not dated later than the snapshot. -/
def Means (d : ReconConf) (row : SnapshotRow) : Prop :=
  row.balance.units = exact_balance
    (d.world.store.ledger.entries.filter (·.created_at ≤ row.snapshot_at)) row.account_id
      row.currency

instance (d : ReconConf) (row : SnapshotRow) : Decidable (Means d row) :=
  inferInstanceAs (Decidable (_ = _))

/-- The entries that were committed after the balance was read and are not dated later than the
snapshot. -/
def slipped (d : ReconConf) (row : SnapshotRow) (e : ReconEvent) : List EntryRow :=
  (d.world.store.ledger.entries.drop e.pre.ledger.entries.length).filter
    (·.created_at ≤ row.snapshot_at)

/-- What the column cuts off the sum that was read. -/
def cut_off (row : SnapshotRow) (e : ReconEvent) : Int :=
  exact_balance e.pre.ledger.entries row.account_id row.currency -
    (Dec19_4.cast (exact_balance e.pre.ledger.entries row.account_id row.currency)).units

/-- A snapshot is new by its INSERT, and stamped with the clock. -/
theorem exec_snapshot {db : Engine} {ch : Choice} {s s' : Store} {op : Op} {r : op.Res}
    (hexec : exec db t ch s op = some (r, s')) {row : SnapshotRow} (hbefore : row ∉ s.snapshots)
    (hafter : row ∈ s'.snapshots) :
    op = .sql (.insert_snapshot row.id row.account_id row.currency row.balance) ∧
      row.snapshot_at = (s.ledger.clock / 1000 : Nat) := by
  cases exec_effect hexec with
  | snapshot new stamped =>
    obtain rfl := List.mem_singleton.mp ((List.mem_append.mp hafter).resolve_left hbefore)
    exact ⟨rfl, stamped⟩
  | posting | unchanged | counted => exact absurd hafter hbefore

/-- Every snapshot has been taken. -/
theorem snapshot_taken (h : ReconRun v (start clock) ls d) {row : SnapshotRow}
    (hrow : row ∈ d.world.store.snapshots) : ∃ e i, Taken d row e i := by
  have still : ∀ {o : Ledger.Outside} {s s' : Store}, outside o s = some s' →
      row ∈ s'.snapshots → row ∈ s.snapshots := by
    intro o s s' ho hmem
    obtain ⟨ledger, _, rfl⟩ := Option.map_eq_some_iff.mp ho
    exact hmem
  obtain ⟨i, hi, hbefore, hafter⟩ := h.becomes (P := fun s => row ∈ s.snapshots) still
    List.not_mem_nil hrow
  obtain ⟨_, _, _, hexec⟩ := h.executed hi
  obtain ⟨hop, hstamp⟩ := exec_snapshot hexec hbefore hafter
  obtain ⟨before, after, split⟩ := List.append_of_mem hi
  have hguard := h.guard (G := fun _ => passes) (Q := answers) (serve_guarded v) split
  rw [hop] at hguard
  obtain ⟨e, _, ht, hdid, horder⟩ := event_of_history after i hguard
  exact ⟨e, i, ht, split ▸ horder, hdid, hop, hstamp⟩

/-- The sums are taken entry by entry. -/
theorem exact_balance_append (entries new : List EntryRow) (account_id : Uuid)
    (currency : Currency) : exact_balance (entries ++ new) account_id currency =
      exact_balance entries account_id currency + exact_balance new account_id currency := by
  simp only [exact_balance, credited, debited, entries_in, List.filter_append, List.map_append,
    List.sum_append]
  omega

/-- **When a snapshot is what the schema says**: if and only if the entries that slipped in make up
for what the column has cut off. -/
theorem snapshot_means_iff (v : Env) (clock : Nat) (ls : List ReconLabel) (d : ReconConf)
    (h : ReconRun v (start clock) ls d) (row : SnapshotRow) (hrow : row ∈ d.world.store.snapshots) :
    (∃ e i, Taken d row e i) ∧ ∀ e i, Taken d row e i →
      (Means d row ↔ exact_balance (slipped d row e) row.account_id row.currency +
        cut_off row e = 0) := by
  refine ⟨snapshot_taken h hrow, ?_⟩
  intro e i taken
  have he := taken.order.left
  obtain ⟨_, _, _, hexec⟩ := h.executed he
  -- the entries at the end are those that were read and later ones
  have grown : e.pre.ledger.entries <+: d.world.store.ledger.entries :=
    ((entries_grow v.db).exec hexec).trans (h.since (entries_grow v.db) he)
  obtain ⟨new, hnew⟩ := grown
  have hlate : slipped d row e = new.filter (·.created_at ≤ row.snapshot_at) := by
    rw [slipped, ← hnew, List.drop_left]
  have hclock : e.pre.ledger.clock ≤ i.pre.ledger.clock :=
    le_trans ((clock_follows v.db).exec hexec) (h.between (clock_follows v.db) taken.order)
  have hread : e.pre.ledger.entries.filter (·.created_at ≤ row.snapshot_at) =
      e.pre.ledger.entries := by
    apply List.filter_eq_self.mpr
    intro x hx
    have hdated := read_dated h he hx
    have hstamp := taken.stamp
    simp only [decide_eq_true_eq]
    omega
  have hbalance := live_read h he taken.read
  rw [net_eq_exact] at hbalance
  unfold Means
  rw [← hnew, List.filter_append, hread, exact_balance_append, hlate, hbalance, cut_off]
  omega

/-! ## Two samples -/

/-- The pass of call `t` up to its first live balance, and from there to its first snapshot. -/
def reading (t uuid : Nat) : List ReconLabel :=
  .spawn .reconciliation_pass :: (List.range 3).map fun k => .run t (choice (uuid + k))

def writing (t uuid : Nat) : List ReconLabel :=
  (List.range 3).map fun k => .run t (choice (uuid + k))

/-- A payment, a pass, and another payment after it. -/
def paid_after : List ReconLabel :=
  post 0 "pay-1" 10 ++ reading 1 20 ++ writing 1 30 ++ [.env (.advance 1000)] ++ post 2 "pay-2" 40

/-- A payment, and another within the pass. -/
def paid_within : List ReconLabel :=
  post 0 "pay-1" 10 ++ reading 1 20 ++ post 2 "pay-2" 40 ++ writing 1 30

/-- The snapshot of the first account, where the second payment came after the pass. -/
theorem snapshot_means_sample : ∃ d, ReconRun sample (start 0) paid_after d ∧
    ∃ row ∈ d.world.store.snapshots, ∃ e i, Taken d row e i ∧ (Means d row ↔
      exact_balance (slipped d row e) row.account_id row.currency + cut_off row e = 0) := by
  obtain ⟨run, hsome⟩ := replayed_spec (machine sample.db) (serve sample) (start 0) paid_after
    (fun d => !d.world.store.snapshots.isEmpty) (by decide +kernel)
  obtain ⟨row, hrow⟩ := List.exists_mem_of_ne_nil _ (by simpa using hsome)
  obtain ⟨⟨e, i, taken⟩, hiff⟩ := snapshot_means_iff sample 0 paid_after _ run row hrow
  exact ⟨_, run, row, hrow, e, i, taken, hiff e i taken⟩

/-- The snapshot of a pass lacks a payment that was committed before the snapshot was written. -/
theorem snapshot_lacks_entry :
    ¬ ∀ (v : Env) (clock : Nat) (ls : List ReconLabel) (d : ReconConf),
      ReconRun v (start clock) ls d → ∀ row ∈ d.world.store.snapshots, Means d row := by
  intro claim
  obtain ⟨run, hlacks⟩ := replayed_spec (machine sample.db) (serve sample) (start 0) paid_within
    (fun d => d.world.store.snapshots.any fun row => !decide (Means d row)) (by decide +kernel)
  obtain ⟨row, hrow, hnot⟩ := List.any_eq_true.mp hlacks
  have hmeans := claim sample 0 paid_within _ run row hrow
  simp [hmeans] at hnot

end Kova.Ledger.Reconciliation

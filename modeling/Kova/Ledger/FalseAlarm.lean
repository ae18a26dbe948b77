import Kova.Ledger.BalanceLaws
import Kova.Ledger.ImbalanceCount
import Kova.Ledger.StoreLaws

/-!
# False alarms

A pass compares a live balance with the one that an earlier pass wrote down, and not with what
the entries since then make of it. So every posting between two passes is a mismatch
(`posting_alarms`). Every snapshot holds the live balance that its own pass read
(`snapshot_read`), so two readings agree when the entries committed between them net to zero;
in such runs no pass finds anything (`no_false_alarm`).
-/

set_option autoImplicit false

namespace Kova.Ledger.Reconciliation

open Conc

variable {v : Env} {clock : Nat} {ls : List ReconLabel} {d : ReconConf}

/-- The entries committed between two events. -/
def posted_between (e e' : ReconEvent) : List EntryRow :=
  e'.pre.ledger.entries.drop e.pre.ledger.entries.length

/-- Between any two readings of an account's live balance in a currency, the entries committed
for it net to zero. -/
def NetsToZero (db : Engine) (log : List ReconEvent) : Prop :=
  ∀ e e' a c, Precedes log e e' → e.op = .sql (.select_live_balance a c) →
    e'.op = .sql (.select_live_balance a c) → net db (posted_between e e') a c.code = 0

/-- No pass found a mismatch, and the counter is where it began. -/
structure NoAlarm (d : ReconConf) : Prop where
  pass : ∀ t n, d.returned t .reconciliation_pass (.ok (.reconciled (.ok n))) → n = 0
  tick : ∀ t n, d.returned t .eod_tick (.ok (.ticked (.passed n))) → n = 0
  total : d.world.store.imbalance_total = 0

/-! ## Readings -/

/-- The committed entries only grow. -/
theorem entries_grow (db : Engine) :
    Follows (machine db) fun s s' => s.ledger.entries <+: s'.ledger.entries where
  refl _ := List.prefix_rfl
  trans h h' := h.trans h'
  exec := by
    intro t ch s op r s' h
    cases exec_effect h with
    | posting executed => exact (exec_keeps (Nat.succ_ne_self t) executed).entries
    | unchanged | snapshot | counted => exact List.prefix_rfl
  env := by
    intro e s s' h
    obtain ⟨ledger, henv, rfl⟩ := Option.map_eq_some_iff.mp h
    exact (outside_keeps henv 0).entries

/-- What a live balance was read from. -/
theorem live_read (h : ReconRun v (start clock) ls d) {e : ReconEvent} (he : e ∈ d.world.log)
    {a : Uuid} {c : Currency} {live : Dec19_4}
    (hdid : e.did = ⟨.sql (.select_live_balance a c), some live⟩) :
    live = Dec19_4.cast (net v.db e.pre.ledger.entries a c.code) := by
  obtain ⟨_, ch, _, hexec⟩ := h.did he hdid
  rcases exec_sql e.tid hexec with ⟨hnone, _⟩ | ⟨r, hrun, hr⟩
  · cases hnone
  · simp only [Sql.run, Option.some.injEq, Prod.mk.injEq] at hrun
    obtain ⟨rfl, _⟩ := hrun
    rcases hr with hr | hr
    · rw [← select_balance_cast]
      exact Option.some.inj hr
    · cases hr

/-- **Two readings agree** where the entries between them net to zero. -/
theorem readings_agree (h : ReconRun v (start clock) ls d) (hzero : NetsToZero v.db d.world.log)
    {e e' : ReconEvent} (hprecedes : Precedes d.world.log e e') {a : Uuid} {c : Currency}
    (hop : e.op = .sql (.select_live_balance a c))
    (hop' : e'.op = .sql (.select_live_balance a c)) :
    net v.db e'.pre.ledger.entries a c.code = net v.db e.pre.ledger.entries a c.code := by
  have grown : e.pre.ledger.entries <+: e'.pre.ledger.entries := by
    obtain ⟨_, ch, _, hexec⟩ := h.executed hprecedes.left
    exact ((entries_grow v.db).exec hexec).trans (h.between (entries_grow v.db) hprecedes)
  obtain ⟨new, hnew⟩ := grown
  have hbetween : posted_between e e' = new := by
    rw [posted_between, ← hnew, List.drop_left]
  have hnet := hzero e e' a c hprecedes hop hop'
  rw [hbetween] at hnet
  rw [← hnew, net_append_list, hnet, Int.add_zero]

/-! ## Snapshots -/

/-- Every snapshot was written by a pass. -/
theorem snapshot_written (h : ReconRun v (start clock) ls d) :
    ∀ row ∈ d.world.store.snapshots, ∃ i ∈ d.world.log, ∃ id,
      i.op = .sql (.insert_snapshot id row.account_id row.currency row.balance) := by
  refine h.invariant (P := fun d => ∀ row ∈ d.world.store.snapshots, ∃ i ∈ d.world.log, ∃ id,
    i.op = .sql (.insert_snapshot id row.account_id row.currency row.balance)) ?_ ?_
  · intro c d l hc _ hstep
    rcases step_cases hstep with ⟨req, _, rfl⟩ |
      ⟨t, ch, call, op, next, r, s', _, _, _, _, hexec, rfl⟩ | ⟨t, call, _, _, rfl⟩ |
      ⟨o, s', _, henv, rfl⟩
    · exact hc
    · have kept : s'.snapshots = c.world.store.snapshots → ∀ row ∈ s'.snapshots,
          ∃ i ∈ (c.world.push ⟨t, call.req, op, c.world.store, r, s'⟩).log, ∃ id,
            i.op = .sql (.insert_snapshot id row.account_id row.currency row.balance) := by
        intro hsame row hrow
        rw [hsame] at hrow
        obtain ⟨i, hi, hop⟩ := hc row hrow
        exact ⟨i, List.mem_append_left _ hi, hop⟩
      cases exec_effect hexec with
      | snapshot row hstamped =>
        intro row' hrow
        rcases List.mem_append.mp hrow with hrow | hrow
        · obtain ⟨i, hi, hop⟩ := hc row' hrow
          exact ⟨i, List.mem_append_left _ hi, hop⟩
        · obtain rfl := List.mem_singleton.mp hrow
          exact ⟨_, List.mem_append_right _ (List.mem_singleton.mpr rfl), row'.id, rfl⟩
      | posting | unchanged | counted => exact kept rfl
    · exact hc
    · obtain ⟨ledger, _, rfl⟩ := Option.map_eq_some_iff.mp henv
      exact hc
  · intro row hrow
    cases hrow

/-- **Every snapshot** holds a live balance that was read of its account. -/
theorem snapshot_read (h : ReconRun v (start clock) ls d) {row : SnapshotRow}
    (hrow : row ∈ d.world.store.snapshots) :
    ∃ e ∈ d.world.log,
      e.did = ⟨.sql (.select_live_balance row.account_id row.currency), some row.balance⟩ := by
  obtain ⟨i, hi, id, hop⟩ := snapshot_written h row hrow
  obtain ⟨before, after, split⟩ := List.append_of_mem hi
  have hguard := h.guard (G := fun _ => passes) (Q := answers) (serve_guarded v) split
  rw [hop] at hguard
  obtain ⟨e, he, _, hdid⟩ := mem_history.mp hguard
  exact ⟨e, by rw [split]; exact List.mem_append_left _ he, hdid⟩

/-- The row that a SELECT of the latest snapshot found. -/
theorem snapshot_found {db : Engine} (t : Nat) {ch : Choice} {s s' : Store} {a : Uuid}
    {c : Currency} {snapshot : Dec19_4}
    (h : exec db t ch s (.sql (.select_snapshot a c)) = some (some (some snapshot), s')) :
    ∃ row ∈ s.snapshots, row.account_id = a ∧ row.currency = c ∧ row.balance = snapshot := by
  rcases exec_sql t h with ⟨hnone, _⟩ | ⟨r, hrun, hr⟩
  · cases hnone
  · simp only [Sql.run] at hrun
    split at hrun
    · cases hrun
      rcases hr with hr | hr <;> cases hr
    · obtain ⟨row, hpick, heq⟩ := Option.map_eq_some_iff.mp hrun
      cases heq
      rcases hr with hr | hr
      · cases hr
        have hlatest := List.mem_of_getElem? hpick
        obtain ⟨hpair, _⟩ := List.mem_filter.mp hlatest
        obtain ⟨hrow, hmatch⟩ := List.mem_filter.mp hpair
        simp only [Bool.and_eq_true, decide_eq_true_eq] at hmatch
        exact ⟨row, hrow, hmatch.1, hmatch.2, rfl⟩
      · cases hr

/-! ## Every run -/

/-- **No pair differs** where the entries between any two readings net to zero. -/
theorem nothing_differs (h : ReconRun v (start clock) ls d) (hzero : NetsToZero v.db d.world.log)
    (t : Nat) (a : Uuid) (c : Currency) : ¬ Differs (history t d.world.log) a c := by
  rintro ⟨live, snapshot, hlive, hsnapshot, hne⟩
  obtain ⟨e, he, _, hread⟩ := mem_history.mp hlive
  obtain ⟨s, hs, _, hcompared⟩ := mem_history.mp hsnapshot
  obtain ⟨_, ch, _, hexec⟩ := h.did hs hcompared
  obtain ⟨row, hrow, rfl, rfl, rfl⟩ := snapshot_found s.tid hexec
  -- The snapshot was read of the entries as another reading found them.
  obtain ⟨before, after, split⟩ := List.append_of_mem hs
  obtain ⟨_, c', hrun, hworld, _⟩ := h.at_event (List.nil_append _).symm split
  obtain ⟨e', he', hread'⟩ := snapshot_read hrun (by rw [hworld]; exact hrow)
  have hlog : e' ∈ d.world.log := by
    rw [hworld] at he'
    rw [split]
    exact List.mem_append_left _ he'
  apply hne
  rw [live_read h he hread, live_read h hlog hread']
  rcases precedes_total he hlog with rfl | hprecedes | hprecedes
  · rfl
  · rw [readings_agree h hzero hprecedes (congrArg Done.op hread) (congrArg Done.op hread')]
  · rw [readings_agree h hzero hprecedes (congrArg Done.op hread') (congrArg Done.op hread)]

/-- **No false alarm**: in every run in which the entries committed between any two readings of a
balance net to zero, no pass finds a mismatch and the counter stays at zero. -/
theorem no_false_alarm (v : Env) (clock : Nat) (ls : List ReconLabel) (d : ReconConf)
    (h : ReconRun v (start clock) ls d) (hzero : NetsToZero v.db d.world.log) : NoAlarm d := by
  have hanswer : ∀ {t req r}, d.returned t req r → answers req (history t d.world.log) r :=
    fun hr => h.answer (G := fun _ => passes) (Q := answers) (serve_guarded v) hr
  have hpairs : ∀ t {pairs : List (Uuid × Currency)},
      (∀ p, p ∈ pairs ↔ Differs (history t d.world.log) p.1 p.2) → pairs = [] := by
    intro t pairs hpairs
    apply List.eq_nil_iff_forall_not_mem.mpr
    intro p hp
    exact nothing_differs h hzero t p.1 p.2 ((hpairs p).mp hp)
  refine ⟨?_, ?_, ?_⟩
  · intro t n hr
    obtain ⟨seen, ht⟩ := hanswer hr
    obtain ⟨pairs, _, hiff, hlength⟩ := ht.pairs
    rw [← hlength, hpairs t hiff]
    rfl
  · intro t n hr
    obtain ⟨_, ⟨pairs, _, hiff, hlength⟩, hadded⟩ := hanswer hr
    rw [← hadded, hlength, hpairs t hiff]
    rfl
  · rw [imbalance_total_eq h]
    apply List.sum_eq_zero
    intro n hn
    obtain ⟨e, he, rfl⟩ := List.mem_map.mp hn
    cases hop : e.op with
    | posting op => rfl
    | sql q => rfl
    | fetch_add n =>
      -- Something differed before it was counted.
      obtain ⟨before, after, split⟩ := List.append_of_mem he
      have hguard := h.guard (G := fun _ => passes) (Q := answers) (serve_guarded v) split
      rw [hop] at hguard
      obtain ⟨a, c, live, snapshot, hlive, hsnapshot, hne⟩ := hguard
      have hmono : ∀ x ∈ history e.tid before, x ∈ history e.tid d.world.log := by
        intro x hx
        obtain ⟨y, hy, ht, hdid⟩ := mem_history.mp hx
        exact mem_history.mpr ⟨y, by rw [split]; exact List.mem_append_left _ hy, ht, hdid⟩
      exact absurd ⟨live, snapshot, hmono _ hlive, hmono _ hsnapshot, hne⟩
        (nothing_differs h hzero e.tid a c)

/-! ## Two readings -/

/-- A payment, and two ticks with nothing posted between them. -/
def quiet_ticks : List ReconLabel := post 0 "pay-1" 10 ++ tick 1 20 12 ++ tick 2 40 12

/-- Whether every reading found one entry, computed. -/
def one_entry (d : ReconConf) : Bool :=
  d.world.log.all fun e => match e.op with
    | .sql (.select_live_balance _ _) => e.pre.ledger.entries.length == 1
    | _ => true

theorem one_entry_sound {db : Engine} {d : ReconConf} (h : one_entry d = true) :
    NetsToZero db d.world.log := by
  intro e e' a c hprecedes hop hop'
  have hlength := List.all_eq_true.mp h e hprecedes.left
  have hlength' := List.all_eq_true.mp h e' hprecedes.right
  simp only [hop, beq_iff_eq] at hlength
  simp only [hop', beq_iff_eq] at hlength'
  have hnone : posted_between e e' = [] := List.drop_eq_nil_of_le (by omega)
  rw [hnone]
  rfl

/-- The second of two ticks with nothing posted between them finds nothing. -/
theorem no_false_alarm_quiet : ∃ d : ReconConf,
    ReconRun sample (start 0) quiet_ticks d ∧ ticked 2 d = true ∧ NoAlarm d := by
  obtain ⟨run, checked⟩ := replayed_spec (machine sample.db) (serve sample) (start 0) quiet_ticks
    (fun d => one_entry d && ticked 2 d) (by decide +kernel)
  obtain ⟨hone, hticked⟩ := Bool.and_eq_true_iff.mp checked
  exact ⟨_, run, hticked, no_false_alarm sample 0 _ _ run (one_entry_sound hone)⟩

/-- No statement fails and no reply is lost. -/
def complete : Scope Store Request Op Op.Res Choice :=
  ⟨fun _ => True, fun _ _ _ _ ch => ch.posting.fault = .none⟩

/-- The moves of such runs, computed. -/
def completes : ReconLabel → Bool
  | .run _ ch => ch.posting.fault = .none
  | _ => true

/-- A payment after the first tick sets the second one off, although the calls ran one at a time
and every one of them succeeded. -/
theorem posting_alarms :
    ¬ ∀ (v : Env) (clock : Nat) (ls : List ReconLabel) (d : ReconConf),
      Serial (machine v.db) (serve v) complete (start clock) ls d → NoAlarm d := by
  intro claim
  obtain ⟨d, hd, htotal⟩ := (Option.any_eq_true _ _).mp
    (show (serial_replay (machine sample.db) (serve sample) completes (start 0) (two_ticks 13)).any
      (fun d => decide (d.world.store.imbalance_total = 2)) = true by decide +kernel)
  have serial : Serial (machine sample.db) (serve sample) complete (start 0) (two_ticks 13) d := by
    refine serial_of_replay ?_ hd
    intro c l hallowed
    cases l with
    | run t ch =>
      have hfault : ch.posting.fault = .none := by simpa [completes] using hallowed
      intro call op next _ _
      exact hfault
    | spawn req => trivial
    | drop t => trivial
    | env e => trivial
  have hzero := (claim sample 0 _ d serial).total
  rw [of_decide_eq_true htotal] at hzero
  cases hzero

end Kova.Ledger.Reconciliation

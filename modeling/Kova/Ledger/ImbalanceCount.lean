import Mathlib.Algebra.BigOperators.Group.Finset.Piecewise
import Mathlib.Data.List.Induction
import Kova.Ledger.Reconciliation

/-!
# What the imbalance counter counts

A pass writes its snapshots one by one and keeps the number of mismatches in a local variable.
`Tally` follows both through the loops: the pairs that were compared, and those among them that
differed, each once (`pass_tally`). The number reaches `IMBALANCE_TOTAL` when the pass comes to
its end. If a statement fails before that, after a pair differed, the number is lost while the
differing snapshots have been replaced (`counted_iff`).
-/

set_option autoImplicit false

namespace Kova.Ledger.Reconciliation

open Conc

/-- One executed operation with its result. -/
abbrev ReconDone := Done Op Op.Res

variable {h : List ReconDone}

/-- The pass read a live balance and a latest snapshot of the account in the currency, and they
differ. -/
def Differs (h : List ReconDone) (account_id : Uuid) (currency : Currency) : Prop :=
  ∃ live snapshot : Dec19_4, ⟨.sql (.select_live_balance account_id currency), some live⟩ ∈ h ∧
    ⟨.sql (.select_snapshot account_id currency), some (some snapshot)⟩ ∈ h ∧ live ≠ snapshot

/-- A statement of the pass failed. -/
def Fails (h : List ReconDone) : Prop := ∃ q : Sql, (⟨.sql q, none⟩ : ReconDone) ∈ h

/-- What the operations of a call added to `IMBALANCE_TOTAL`. -/
def added (h : List ReconDone) : Nat := (h.map fun x => x.op.adds).sum

/-- The increase is the number of pairs found to differ. -/
def Counted (h : List ReconDone) : Prop :=
  ∃ pairs : List (Uuid × Currency), pairs.Nodup ∧ (∀ p, p ∈ pairs ↔ Differs h p.1 p.2) ∧
    added h = pairs.length

/-- A statement failed after a pair was found to differ. -/
def LosesCount (h : List ReconDone) : Prop :=
  Fails h ∧ ∃ account_id currency, Differs h account_id currency

theorem added_snoc (x : ReconDone) : added (h ++ [x]) = added h + x.op.adds := by
  simp [added]

/-! ## The pass -/

/-- Where a pass stands after a history: the pairs it has compared, and how many differed. -/
structure Tally (h : List ReconDone) (seen : List (Uuid × Currency)) (mismatches : Nat) : Prop where
  clean : ¬ Fails h
  silent : added h = 0
  live : ∀ a c r, ⟨.sql (.select_live_balance a c), r⟩ ∈ h → (a, c) ∈ seen
  snapshot : ∀ a c r, ⟨.sql (.select_snapshot a c), r⟩ ∈ h → (a, c) ∈ seen
  pairs : ∃ pairs : List (Uuid × Currency), pairs.Nodup ∧ (∀ p, p ∈ pairs ↔ Differs h p.1 p.2) ∧
    pairs.length = mismatches

/-- A pass that failed has added nothing. -/
structure Broken (h : List ReconDone) : Prop where
  fails : Fails h
  silent : added h = 0

/-- What a pass may execute: it writes the balance that it read, and adds to the counter when a
pair differed. -/
def passes (h : List ReconDone) : Op → Prop
  | .sql (.insert_snapshot _ a c balance) =>
    ⟨.sql (.select_live_balance a c), some balance⟩ ∈ h
  | .fetch_add _ => ∃ a c, Differs h a c
  | _ => True

/-- How a part of the pass ends: with the tally of what it has seen, or broken. -/
def Ends (goal : List (Uuid × Currency) → Prop) (h : List ReconDone) :
    Except SqlxError Nat → Prop
  | .ok mismatches => ∃ seen, Tally h seen mismatches ∧ goal seen
  | .error _ => Broken h

/-- An operation that neither reads a balance nor fails. -/
inductive Plain : ReconDone → Prop
  | posting (op : Ledger.Op) (r : op.Res) : Plain ⟨.posting op, r⟩
  | active (rows : Distinct Uuid) : Plain ⟨.sql .select_active, some rows⟩
  | currencies (a : Uuid) (rows : Distinct Currency) :
      Plain ⟨.sql (.select_currencies a), some rows⟩
  | inserted (id a : Uuid) (c : Currency) (balance : Dec19_4) (r : Unit) :
      Plain ⟨.sql (.insert_snapshot id a c balance), some r⟩
  | counted (n total : Nat) : Plain ⟨.fetch_add n, total⟩

theorem Plain.live {x : ReconDone} (hx : Plain x) (a : Uuid) (c : Currency) (r : Option Dec19_4) :
    x ≠ ⟨.sql (.select_live_balance a c), r⟩ := by
  rintro rfl
  cases hx

theorem Plain.snapshot {x : ReconDone} (hx : Plain x) (a : Uuid) (c : Currency)
    (r : Option (Option Dec19_4)) : x ≠ ⟨.sql (.select_snapshot a c), r⟩ := by
  rintro rfl
  cases hx

theorem Plain.succeeds {x : ReconDone} (hx : Plain x) (q : Sql) : x ≠ ⟨.sql q, none⟩ := by
  rintro rfl
  cases hx

theorem tally_nil : Tally [] [] 0 := by
  refine ⟨?_, rfl, ?_, ?_, [], List.nodup_nil, ?_, rfl⟩
  · rintro ⟨q, hq⟩
    cases hq
  · intro a c r hr
    cases hr
  · intro a c r hr
    cases hr
  · intro p
    refine ⟨fun hp => (by cases hp), ?_⟩
    rintro ⟨_, _, hlive, _⟩
    cases hlive

theorem Plain.differs {x : ReconDone} (hx : Plain x) {a : Uuid} {c : Currency} :
    Differs (h ++ [x]) a c ↔ Differs h a c := by
  constructor
  · rintro ⟨live, snapshot, hlive, hsnapshot, hne⟩
    refine ⟨live, snapshot, ?_, ?_, hne⟩
    · rcases List.mem_append.mp hlive with hlive | hlive
      · exact hlive
      · exact absurd (List.mem_singleton.mp hlive).symm (hx.live _ _ _)
    · rcases List.mem_append.mp hsnapshot with hsnapshot | hsnapshot
      · exact hsnapshot
      · exact absurd (List.mem_singleton.mp hsnapshot).symm (hx.snapshot _ _ _)
  · rintro ⟨live, snapshot, hlive, hsnapshot, hne⟩
    exact ⟨live, snapshot, List.mem_append_left _ hlive, List.mem_append_left _ hsnapshot, hne⟩

theorem Plain.clean {x : ReconDone} (hx : Plain x) (hclean : ¬ Fails h) : ¬ Fails (h ++ [x]) := by
  rintro ⟨q, hq⟩
  rcases List.mem_append.mp hq with hq | hq
  · exact hclean ⟨q, hq⟩
  · exact hx.succeeds q (List.mem_singleton.mp hq).symm

/-- A plain operation that adds nothing leaves the tally alone. -/
theorem Tally.plain {seen : List (Uuid × Currency)} {m : Nat} (ht : Tally h seen m) {x : ReconDone}
    (hx : Plain x) (hadds : x.op.adds = 0) : Tally (h ++ [x]) seen m := by
  refine ⟨hx.clean ht.clean, ?_, ?_, ?_, ?_⟩
  · rw [added_snoc, ht.silent, hadds]
  · intro a c r hr
    rcases List.mem_append.mp hr with hr | hr
    · exact ht.live a c r hr
    · exact absurd (List.mem_singleton.mp hr).symm (hx.live a c r)
  · intro a c r hr
    rcases List.mem_append.mp hr with hr | hr
    · exact ht.snapshot a c r hr
    · exact absurd (List.mem_singleton.mp hr).symm (hx.snapshot a c r)
  · obtain ⟨pairs, hnodup, hpairs, hlength⟩ := ht.pairs
    refine ⟨pairs, hnodup, ?_, hlength⟩
    intro p
    rw [hpairs, hx.differs]

/-- The history after both reads of a pair. -/
def compared (h : List ReconDone) (a : Uuid) (c : Currency) (live : Dec19_4)
    (snapshot : Option Dec19_4) : List ReconDone :=
  h ++ [⟨.sql (.select_live_balance a c), some live⟩] ++
    [⟨.sql (.select_snapshot a c), some snapshot⟩]

section

variable {a a' : Uuid} {c c' : Currency} {live : Dec19_4} {snapshot : Option Dec19_4}
  {seen : List (Uuid × Currency)} {m : Nat}

theorem live_of_compared {r : Option Dec19_4}
    (hr : ⟨.sql (.select_live_balance a' c'), r⟩ ∈ compared h a c live snapshot) :
    ⟨.sql (.select_live_balance a' c'), r⟩ ∈ h ∨ (a' = a ∧ c' = c ∧ r = some live) := by
  rcases List.mem_append.mp hr with hr | hr
  · rcases List.mem_append.mp hr with hr | hr
    · exact .inl hr
    · cases List.mem_singleton.mp hr
      exact .inr ⟨rfl, rfl, rfl⟩
  · cases List.mem_singleton.mp hr

theorem snapshot_of_compared {r : Option (Option Dec19_4)}
    (hr : ⟨.sql (.select_snapshot a' c'), r⟩ ∈ compared h a c live snapshot) :
    ⟨.sql (.select_snapshot a' c'), r⟩ ∈ h ∨ (a' = a ∧ c' = c ∧ r = some snapshot) := by
  rcases List.mem_append.mp hr with hr | hr
  · rcases List.mem_append.mp hr with hr | hr
    · exact .inl hr
    · cases List.mem_singleton.mp hr
  · cases List.mem_singleton.mp hr
    exact .inr ⟨rfl, rfl, rfl⟩

/-- The reads of a pair not seen before say whether that pair differs, and nothing of others. -/
theorem Tally.differs (ht : Tally h seen m) (hfresh : (a, c) ∉ seen) :
    Differs (compared h a c live snapshot) a' c' ↔
      Differs h a' c' ∨ (a' = a ∧ c' = c ∧ snapshot.any (live ≠ ·) = true) := by
  constructor
  · rintro ⟨l, s, hlive, hsnapshot, hne⟩
    rcases live_of_compared hlive with hold | ⟨rfl, rfl, hl⟩
    · rcases snapshot_of_compared hsnapshot with hold' | ⟨rfl, rfl, _⟩
      · exact .inl ⟨l, s, hold, hold', hne⟩
      · exact absurd (ht.live _ _ _ hold) hfresh
    · rcases snapshot_of_compared hsnapshot with hold' | ⟨_, _, hs⟩
      · exact absurd (ht.snapshot _ _ _ hold') hfresh
      · cases hl
        cases hs
        exact .inr ⟨rfl, rfl, by simp [hne]⟩
  · rintro (⟨l, s, hlive, hsnapshot, hne⟩ | ⟨rfl, rfl, hany⟩)
    · exact ⟨l, s, List.mem_append_left _ (List.mem_append_left _ hlive),
        List.mem_append_left _ (List.mem_append_left _ hsnapshot), hne⟩
    · obtain ⟨s, rfl, hne⟩ := (Option.any_eq_true _ _).mp hany
      refine ⟨live, s, ?_, ?_, of_decide_eq_true hne⟩
      · exact List.mem_append_left _ (List.mem_append_right _ (List.mem_singleton.mpr rfl))
      · exact List.mem_append_right _ (List.mem_singleton.mpr rfl)

/-- **One pair more** is in the tally after its two reads. -/
theorem Tally.compared (ht : Tally h seen m) (hfresh : (a, c) ∉ seen) :
    Tally (compared h a c live snapshot) ((a, c) :: seen)
      (if snapshot.any (live ≠ ·) then m + 1 else m) := by
  refine ⟨?_, ?_, ?_, ?_, ?_⟩
  · rintro ⟨q, hq⟩
    rcases List.mem_append.mp hq with hq | hq
    · rcases List.mem_append.mp hq with hq | hq
      · exact ht.clean ⟨q, hq⟩
      · cases List.mem_singleton.mp hq
    · cases List.mem_singleton.mp hq
  · rw [Reconciliation.compared, added_snoc, added_snoc, ht.silent]
    rfl
  · intro a' c' r hr
    rcases live_of_compared hr with hr | ⟨rfl, rfl, _⟩
    · exact List.mem_cons_of_mem _ (ht.live a' c' r hr)
    · exact List.mem_cons_self
  · intro a' c' r hr
    rcases snapshot_of_compared hr with hr | ⟨rfl, rfl, _⟩
    · exact List.mem_cons_of_mem _ (ht.snapshot a' c' r hr)
    · exact List.mem_cons_self
  · obtain ⟨pairs, hnodup, hpairs, hlength⟩ := ht.pairs
    by_cases hany : snapshot.any (live ≠ ·) = true
    · refine ⟨(a, c) :: pairs, List.nodup_cons.mpr ⟨?_, hnodup⟩, ?_, ?_⟩
      · -- The pair has not been read before.
        intro hmem
        obtain ⟨l, _, hlive, _⟩ := (hpairs (a, c)).mp hmem
        exact hfresh (ht.live a c _ hlive)
      · rintro ⟨a', c'⟩
        rw [List.mem_cons, hpairs, ht.differs hfresh, Prod.mk.injEq, hany]
        tauto
      · rw [List.length_cons, hlength, if_pos hany]
    · refine ⟨pairs, hnodup, ?_, by rw [if_neg hany, hlength]⟩
      rintro ⟨a', c'⟩
      rw [hpairs, ht.differs hfresh, Bool.eq_false_iff.mpr hany]
      tauto

/-- A statement whose failure ends the pass. -/
theorem sql_ends {goal : List (Uuid × Currency) → Prop} {q : Sql} {f : q.Res → Async Nat}
    (may : passes h (.sql q)) (silent : added h = 0)
    (next : ∀ r, Guarded passes (Ends goal) (f r) (h ++ [⟨.sql q, some r⟩])) :
    Guarded passes (Ends goal) (sql q >>= f) h := by
  refine ⟨may, ?_⟩
  intro r
  cases r with
  | some r => exact next r
  | none =>
    refine ⟨⟨q, List.mem_append_right _ (List.mem_singleton.mpr rfl)⟩, ?_⟩
    rw [added_snoc, silent]
    rfl

/-- **The body of the inner loop** compares one pair. -/
theorem reconcile_ends (ht : Tally h seen m) (hfresh : (a, c) ∉ seen) :
    Guarded passes (Ends (· = (a, c) :: seen)) (reconcile a c m) h := by
  refine sql_ends trivial ht.silent ?_
  intro live
  refine sql_ends trivial (by rw [added_snoc, ht.silent]; rfl) ?_
  intro snapshot
  have hcompared : Tally (compared h a c live snapshot) _ _ := ht.compared hfresh
  refine ⟨trivial, ?_⟩
  intro snap_id
  have hminted := hcompared.plain (.posting .now_v7 snap_id) rfl
  refine sql_ends ?_ hminted.silent ?_
  · refine List.mem_append_left _ (List.mem_append_left _ (List.mem_append_right _ ?_))
    exact List.mem_singleton.mpr rfl
  · intro u
    exact ⟨_, hminted.plain (.inserted snap_id a c live u) rfl, rfl⟩

/-- The inner loop compares the pairs of one account. -/
theorem for_currencies_ends : ∀ {rows : List Currency} {h : List ReconDone}
    {seen : List (Uuid × Currency)} {m : Nat}, Tally h seen m → rows.Nodup →
      (∀ c ∈ rows, (a, c) ∉ seen) →
        Guarded passes (Ends fun seen' => ∀ p ∈ seen', p ∈ seen ∨ p.1 = a)
          (for_currencies a rows m) h
  | [], _, seen, _, ht, _, _ => ⟨seen, ht, fun _ hp => .inl hp⟩
  | c :: rows, _, seen, _, ht, hnodup, hfresh => by
    obtain ⟨hc, hrows⟩ := List.nodup_cons.mp hnodup
    refine Guarded.bind ?_ ?_ (reconcile_ends ht (hfresh c List.mem_cons_self))
    · intro h e he
      exact he
    · rintro h n ⟨_, ht', rfl⟩
      have hnext := for_currencies_ends ht' hrows ?_
      · refine hnext.mono (fun _ _ hop => hop) ?_
        intro h r hr
        cases r with
        | error e => exact hr
        | ok n =>
          obtain ⟨seen', ht'', hseen⟩ := hr
          refine ⟨seen', ht'', ?_⟩
          intro p hp
          rcases hseen p hp with hp | hp
          · rcases List.mem_cons.mp hp with rfl | hp
            · exact .inr rfl
            · exact .inl hp
          · exact .inr hp
      · intro c' hc' hmem
        rcases List.mem_cons.mp hmem with heq | hmem
        · cases heq
          exact hc hc'
        · exact hfresh c' (List.mem_cons_of_mem _ hc') hmem

/-- The outer loop compares the pairs of every account. -/
theorem for_accounts_ends : ∀ {rows : List Uuid} {h : List ReconDone}
    {seen : List (Uuid × Currency)} {m : Nat}, Tally h seen m → rows.Nodup →
      (∀ a ∈ rows, ∀ p ∈ seen, p.1 ≠ a) →
        Guarded passes (Ends fun _ => True) (for_accounts rows m) h
  | [], _, seen, _, ht, _, _ => ⟨seen, ht, trivial⟩
  | a :: rows, _, seen, m, ht, hnodup, hfresh => by
    obtain ⟨ha, hrows⟩ := List.nodup_cons.mp hnodup
    refine sql_ends trivial ht.silent ?_
    intro currency_rows
    have hread := ht.plain (.currencies a currency_rows) rfl
    have hpairs : ∀ c ∈ currency_rows.val, (a, c) ∉ seen := by
      intro c _ hmem
      exact hfresh a List.mem_cons_self _ hmem rfl
    refine Guarded.bind ?_ ?_ (for_currencies_ends hread currency_rows.property hpairs)
    · intro h e he
      exact he
    · rintro h n ⟨seen', ht', hseen⟩
      apply for_accounts_ends ht' hrows
      intro a' ha' p hp heq
      rcases hseen p hp with hp | hp
      · exact hfresh a' (List.mem_cons_of_mem _ ha') p hp heq
      · rw [← heq, hp] at ha'
        exact ha ha'

/-- **A pass** ends with its tally, or broken. -/
theorem pass_ends (ht : Tally h [] 0) :
    Guarded passes (Ends fun _ => True) reconciliation_pass h := by
  refine sql_ends trivial ht.silent ?_
  intro rows
  have hread := ht.plain (.active rows) rfl
  apply for_accounts_ends hread rows.property
  intro a _ p hp
  cases hp

end

/-! ## The scheduler -/

/-- How a request ends. -/
def answers : Request → List ReconDone → Except LedgerError Response → Prop
  | .reconciliation_pass, h, .ok (.reconciled (.ok n)) => ∃ seen, Tally h seen n
  | .eod_tick, h, .ok (.ticked .outside_window) => Tally h [] 0
  | .eod_tick, h, .ok (.ticked (.passed n)) => ¬ Fails h ∧ Counted h ∧ added h = n
  | .eod_tick, h, .ok (.ticked (.failed _)) => Broken h
  | .eod_tick, _, _ => False
  | _, _, _ => True

/-- The operations of a posting are not the pass's. -/
theorem posting_passes {α : Type} : ∀ (p : Ledger.Async α) (h : List ReconDone),
    Guarded passes (fun _ _ => True)
      (p.among .posting fun _ r => r : Prog Op Op.Res LedgerError α) h :=
  guarded_among fun _ _ => trivial

/-- The scheduler adds what the pass returned. -/
theorem count_mismatches_ends {seen : List (Uuid × Currency)} {n : Nat} (ht : Tally h seen n) :
    Guarded passes (fun h r => answers .eod_tick h (r.map Response.ticked))
      (count_mismatches (.ok n)) h := by
  obtain ⟨pairs, hnodup, hpairs, hlength⟩ := ht.pairs
  unfold count_mismatches
  by_cases hn : 0 < n
  · simp only [if_pos hn]
    obtain ⟨⟨a, c⟩, hp⟩ := List.exists_mem_of_length_pos (hlength ▸ hn)
    refine ⟨⟨a, c, (hpairs _).mp hp⟩, ?_⟩
    intro total
    have hadded : added (h ++ [⟨.fetch_add n, total⟩]) = n := by
      rw [added_snoc, ht.silent, Nat.zero_add]
      rfl
    refine ⟨(Plain.counted n total).clean ht.clean, ⟨pairs, hnodup, ?_, ?_⟩, hadded⟩
    · intro p
      rw [(Plain.counted n total).differs, hpairs]
    · rw [hadded, hlength]
  · simp only [if_neg hn]
    refine ⟨ht.clean, ⟨pairs, hnodup, hpairs, ?_⟩, ?_⟩
    · rw [ht.silent, hlength]
      omega
    · rw [ht.silent]
      omega

/-- **Every request** keeps to what a pass may execute, and ends as it should. -/
theorem serve_guarded (v : Env) (req : Request) :
    Guarded passes (answers req) (serve v req) [] := by
  cases req with
  | post_entry p =>
    refine Guarded.bind ?_ ?_ (posting_passes _ [])
    · intro h e _
      trivial
    · intro h r _
      trivial
  | reconciliation_pass =>
    refine Guarded.bind_caught ?_ (pass_ends tally_nil)
    intro h r hr
    cases r with
    | ok n =>
      obtain ⟨seen, ht, _⟩ := hr
      exact ⟨seen, ht⟩
    | error e => trivial
  | eod_tick =>
    have tick : Guarded passes (fun h r => answers .eod_tick h (r.map Response.ticked))
        eod_tick [] := by
      refine ⟨trivial, ?_⟩
      intro now
      have ht := tally_nil.plain (.posting .utc_now now) rfl
      show Guarded _ _ (if in_window now then _ else _) _
      by_cases hwindow : in_window now = true
      · rw [if_pos hwindow]
        refine Guarded.bind_caught ?_ (pass_ends ht)
        intro h r hr
        cases r with
        | ok n =>
          obtain ⟨seen, ht, _⟩ := hr
          exact count_mismatches_ends ht
        | error e => exact hr
      · rw [if_neg hwindow]
        exact ht
    refine Guarded.bind ?_ ?_ tick
    · intro h e he
      exact he
    · intro h r hr
      exact hr

/-! ## Every run -/

/-- What a tick that came to its end has counted. -/
theorem answers_counted {r : Except LedgerError Response} (ha : answers .eod_tick h r) :
    Counted h ↔ ¬ LosesCount h := by
  match r, ha with
  | .ok (.ticked .outside_window), ht =>
    obtain ⟨pairs, hnodup, hpairs, hlength⟩ := ht.pairs
    refine iff_of_true ⟨pairs, hnodup, hpairs, ?_⟩ fun hlost => ht.clean hlost.1
    rw [ht.silent, hlength]
  | .ok (.ticked (.passed n)), ⟨hclean, hcounted, _⟩ =>
    exact iff_of_true hcounted fun hlost => hclean hlost.1
  | .ok (.ticked (.failed e)), hbroken =>
    constructor
    · rintro ⟨pairs, _, hpairs, hlength⟩ ⟨_, a, c, hdiffers⟩
      rw [hbroken.silent] at hlength
      have hmem := (hpairs (a, c)).mpr hdiffers
      rw [List.length_eq_zero_iff.mp hlength.symm] at hmem
      cases hmem
    · intro hkept
      refine ⟨[], List.nodup_nil, ?_, hbroken.silent⟩
      intro p
      refine ⟨fun hp => (by cases hp), ?_⟩
      intro hdiffers
      exact absurd ⟨hbroken.fails, p.1, p.2, hdiffers⟩ hkept

/-- The counter is what the operations of the log added. -/
theorem imbalance_total_eq {v : Env} {clock : Nat} {ls : List ReconLabel} {d : ReconConf}
    (h : ReconRun v (start clock) ls d) :
    d.world.store.imbalance_total = (d.world.log.map fun e => e.op.adds).sum := by
  refine h.invariant (P := fun d =>
    d.world.store.imbalance_total = (d.world.log.map fun e => e.op.adds).sum) ?_ rfl
  intro c d l hc _ hstep
  rcases step_cases hstep with ⟨req, _, rfl⟩ |
    ⟨t, ch, call, op, next, r, s', _, _, _, _, hexec, rfl⟩ | ⟨t, call, _, _, rfl⟩ |
    ⟨o, s', _, henv, rfl⟩
  · exact hc
  · rw [World.push_log, World.push_store, List.map_append, List.sum_append, ← hc, exec_adds hexec]
    simp
  · exact hc
  · obtain ⟨s₁, _, rfl⟩ := Option.map_eq_some_iff.mp henv
    exact hc

/-- What a log added, by calls. -/
theorem sum_by_call {n : Nat} {log : List ReconEvent} (hlog : ∀ e ∈ log, e.tid < n) :
    (log.map fun e => e.op.adds).sum = ∑ t ∈ Finset.range n, added (history t log) := by
  induction log using List.reverseRecOn with
  | nil => simp [history, added]
  | append_singleton log e ih =>
    have hnew : ∀ t, added (history t (log ++ [e])) =
        added (history t log) + if t = e.tid then e.op.adds else 0 := by
      intro t
      by_cases htid : t = e.tid
      · rw [history_append_self log htid.symm, added_snoc, if_pos htid]
        rfl
      · rw [history_append_other log (Ne.symm htid), if_neg htid, Nat.add_zero]
    have hbefore := ih fun x hx => hlog x (List.mem_append_left _ hx)
    have he : e.tid ∈ Finset.range n := Finset.mem_range.mpr (hlog e (by simp))
    simp only [hnew, Finset.sum_add_distrib, Finset.sum_ite_eq', he, ↓reduceIte]
    simp [hbefore]

/-- **What is counted**: in every run, a tick that came to its end has added to `IMBALANCE_TOTAL`
the number of pairs found to differ if and only if no statement of its pass failed after a pair
differed; and the counter is what the ticks have added. -/
theorem counted_iff (v : Env) (clock : Nat) (ls : List ReconLabel) (d : ReconConf)
    (h : ReconRun v (start clock) ls d) :
    (∀ t r, d.returned t .eod_tick r →
      (Counted (history t d.world.log) ↔ ¬ LosesCount (history t d.world.log))) ∧
    d.world.store.imbalance_total =
      ∑ t ∈ Finset.range d.pool.length, added (history t d.world.log) := by
  constructor
  · intro t r hr
    exact answers_counted (h.answer (G := fun _ => passes) (Q := answers) (serve_guarded v) hr)
  · rw [imbalance_total_eq h, sum_by_call]
    intro e he
    have hobeys := h.obeys (G := fun _ => passes) (Q := answers) (serve_guarded v)
    obtain ⟨call, hcall, _⟩ := hobeys.called e he
    exact (List.getElem?_eq_some_iff.mp hcall).1

/-! ## Two days' work at midnight -/

/-- The choice that suits every operation between accounts 1 and 2. -/
def choice (uuid : Nat) : Choice :=
  { posting := { uuid := .low (UInt8.ofNat uuid) }
    accounts := [.low 1, .low 2]
    currencies := [.NGN] }

/-- Call `t` posts a payment from account 1 to account 2. -/
def post (t : Nat) (key : String) (uuid : Nat) : List ReconLabel :=
  .spawn (.post_entry (payment key)) :: (List.range 7).map fun k => .run t (choice (uuid + k))

/-- Call `t` executes `n` operations of a tick. -/
def tick (t uuid n : Nat) : List ReconLabel :=
  .spawn .eod_tick :: (List.range n).map fun k => .run t (choice (uuid + k))

/-- A payment and a tick, and once more a payment and `n` operations of a tick. -/
def two_ticks (n : Nat) : List ReconLabel :=
  post 0 "pay-1" 10 ++ tick 1 20 12 ++ post 2 "pay-2" 40 ++ tick 3 50 n

/-- Whether a call has read a live balance and a snapshot that differ, computed. -/
def read_differs (t : Nat) (log : List ReconEvent) : Bool :=
  log.any fun
    | ⟨u, _, .sql (.select_live_balance a c), _, some live, _⟩ => u == t && log.any fun
      | ⟨u', _, .sql (.select_snapshot a' c'), _, some (some snapshot), _⟩ =>
        u' == t && a' = a && c' = c && decide (live.units ≠ snapshot.units)
      | _ => false
    | _ => false

theorem read_differs_sound {t : Nat} {log : List ReconEvent} (hread : read_differs t log = true) :
    ∃ a c, Differs (history t log) a c := by
  obtain ⟨e, he, hlive⟩ := List.any_eq_true.mp hread
  split at hlive
  · next u req a c pre live post =>
    obtain ⟨hu, hlive⟩ := Bool.and_eq_true_iff.mp hlive
    obtain ⟨e', he', hsnapshot⟩ := List.any_eq_true.mp hlive
    split at hsnapshot
    · next u' req' a' c' pre' snapshot post' =>
      simp only [Bool.and_eq_true, beq_iff_eq, decide_eq_true_eq] at hu hsnapshot
      obtain ⟨⟨⟨rfl, rfl⟩, rfl⟩, hne⟩ := hsnapshot
      subst hu
      refine ⟨_, _, live, snapshot, mem_history.mpr ⟨_, he, rfl, rfl⟩,
        mem_history.mpr ⟨_, he', rfl, rfl⟩, ?_⟩
      rintro rfl
      exact hne rfl
    · cases hsnapshot
  · cases hlive

/-- Whether no statement of the pass failed, computed. -/
def all_answered (log : List ReconEvent) : Bool :=
  log.all fun
    | ⟨_, _, .sql _, _, none, _⟩ => false
    | _ => true

theorem all_answered_sound {t : Nat} {log : List ReconEvent} (hall : all_answered log = true) :
    ¬ Fails (history t log) := by
  rintro ⟨q, hq⟩
  obtain ⟨⟨u, req, op, pre, res, post⟩, he, _, hdid⟩ := mem_history.mp hq
  cases hdid
  have hfalse := List.all_eq_true.mp hall _ he
  cases hfalse

/-- Whether call `t` is a tick that has come to its end, computed. -/
def ticked (t : Nat) (d : ReconConf) : Bool :=
  d.pool[t]?.any fun call => match call.req with
    | .eod_tick => call.prog.result?.isSome
    | _ => false

theorem ticked_sound {t : Nat} {d : ReconConf} (hticked : ticked t d = true) :
    ∃ r, d.returned t .eod_tick r := by
  obtain ⟨call, hcall, hend⟩ := (Option.any_eq_true _ _).mp hticked
  split at hend
  · next hreq =>
    obtain ⟨r, hr⟩ := Option.isSome_iff_exists.mp hend
    exact ⟨r, call, hcall, hreq, hr⟩
  · cases hend

/-- Both accounts of the second payment are counted. -/
theorem counted_second_tick : ∃ d : ReconConf,
    ReconRun sample (start 0) (two_ticks 13) d ∧
      Counted (history 3 d.world.log) ∧ d.world.store.imbalance_total = 2 := by
  obtain ⟨run, checked⟩ := replayed_spec (machine sample.db) (serve sample) (start 0) (two_ticks 13)
    (fun d => all_answered d.world.log && ticked 3 d && decide (d.world.store.imbalance_total = 2))
    (by decide +kernel)
  obtain ⟨hdone, htotal⟩ := Bool.and_eq_true_iff.mp checked
  obtain ⟨hall, hticked⟩ := Bool.and_eq_true_iff.mp hdone
  obtain ⟨r, hr⟩ := ticked_sound hticked
  refine ⟨_, run, ?_, of_decide_eq_true htotal⟩
  apply ((counted_iff sample 0 _ _ run).1 3 r hr).mpr
  exact fun hlost => all_answered_sound hall hlost.1

/-- The second tick comes as far as the second account, whose statement fails. -/
def failing_tick : List ReconLabel :=
  two_ticks 7 ++ [.run 3 { choice 0 with posting := { fault := .failed } }]

/-- A failure on the second account loses the mismatch of the first. -/
theorem lost_count :
    ¬ ∀ (v : Env) (clock : Nat) (ls : List ReconLabel) (d : ReconConf),
      ReconRun v (start clock) ls d → ∀ t r, d.returned t .eod_tick r →
        Counted (history t d.world.log) := by
  intro claim
  obtain ⟨run, checked⟩ := replayed_spec (machine sample.db) (serve sample) (start 0) failing_tick
    (fun d => read_differs 3 d.world.log && ticked 3 d &&
      decide (added (history 3 d.world.log) = 0))
    (by decide +kernel)
  obtain ⟨hdone, hadded⟩ := Bool.and_eq_true_iff.mp checked
  obtain ⟨hread, hticked⟩ := Bool.and_eq_true_iff.mp hdone
  obtain ⟨r, hr⟩ := ticked_sound hticked
  obtain ⟨pairs, _, hpairs, hlength⟩ := claim sample 0 _ _ run 3 r hr
  obtain ⟨a, c, hdiffers⟩ := read_differs_sound hread
  have hmem := (hpairs (a, c)).mpr hdiffers
  rw [of_decide_eq_true hadded] at hlength
  rw [List.length_eq_zero_iff.mp hlength.symm] at hmem
  cases hmem

end Kova.Ledger.Reconciliation

import Kova.Conc.Performs
import Kova.Ledger.Batch
import Kova.Ledger.Workers

/-!
# The outbox can be drained

From every configuration that a run reaches, whatever its workers were doing when they stopped, the
outbox can be emptied: the server ends the transactions they have left open, and one worker after
another takes the ten oldest rows. The messages go out in the order of the rows, each once, and the
entries stay as they are (`outbox_drains`).

A turn is executed by itself (`turn_performs`): its transaction holds all it locks, so that nothing
it executes has to wait. What it leaves is the same table with a batch less (`Store.sweep`).
-/

set_option autoImplicit false

namespace Kova.Ledger.Outbox

open Conc

/-- The rows that no worker has published. -/
def Store.backlog (s : Store) : List OutboxRow :=
  s.ledger.outbox.filter fun r => r.published_at = none

def Op.publishes : Op → Bool
  | .publish .. => true
  | _ => false

/-! ## One turn -/

section Turn

variable {db : Engine} {t : Nat}

def Store.micros (s : Store) : Int := s.ledger.clock / 1000

/-- The transaction of call `t`, and no other, at work on the store. -/
def Store.working (s : Store) (t : Nat) (locks : List (Nat × Uuid))
    (marks : List (Nat × Uuid × Int)) : Store :=
  { s with open_tx := [t], locks, marks }

/-- What a batch has updated, the newest first. -/
def Store.marking (s : Store) (t : Nat) (batch : List OutboxRow) : List (Nat × Uuid × Int) :=
  (batch.map fun r => (t, r.id, s.micros)).reverse

/-- A row as a worker's commit leaves it. -/
def Store.stamped (s : Store) (batch : List OutboxRow) (r : OutboxRow) : OutboxRow :=
  if r.id ∈ batch.map (·.id) then { r with published_at := some s.micros } else r

/-- The store after a batch has been published. -/
def Store.sweep (s : Store) (batch : List OutboxRow) : Store :=
  { s with
    ledger := { s.ledger with outbox := s.ledger.outbox.map (s.stamped batch) }
    open_tx := []
    locks := []
    marks := [] }

/-- **The loop over the rows**, when every statement and the publisher succeed. -/
theorem for_rows_performs (s : Store) (rows : List OutboxRow) : ∀ (rest : List OutboxRow)
    (count : Nat) (locks : List (Nat × Uuid)) (marks : List (Nat × Uuid × Int)),
      (∀ p ∈ locks, p.1 = t) → ∃ steps locks',
        Performs (machine db) t (for_rows (rest.map .of) count) (s.working t locks marks) steps
          (.ret (count + rest.length)) (s.working t locks' (s.marking t rest ++ marks)) ∧
        (∀ p ∈ locks', p.1 = t) ∧
          steps.map Taken.did = (rest.map .of).flatMap fun m => [acknowledged m, marked m]
  | [], count, locks, marks, hown => ⟨[], locks, .rest .refl, hown, rfl⟩
  | r :: rest, count, locks, marks, hown => by
    have hown' : ∀ p ∈ locks ++ [(t, r.id)], p.1 = t := by
      intro p hp
      rcases List.mem_append.mp hp with hp | hp
      · exact hown p hp
      · obtain rfl := List.mem_singleton.mp hp
        rfl
    obtain ⟨steps, locks', hrest, hlocks, hsteps⟩ := for_rows_performs s rows rest (count + 1)
      (locks ++ [(t, r.id)]) ((t, r.id, s.micros) :: marks) hown'
    have hfree : (s.working t locks marks).locked t r.id = false :=
      not_locked.mpr fun p hp _ => hown p hp
    have hmark : (machine db).exec t { rows } (s.working t locks marks)
        (.sql (.mark_published r.id)) = some (some (), s.working t (locks ++ [(t, r.id)])
          ((t, r.id, s.micros) :: marks)) := by
      simp only [machine, exec, Sql.run, hfree, Bool.false_eq_true, ↓reduceIte]
      exact if_pos List.mem_cons_self
    have hcount : count + 1 + rest.length = count + (r :: rest).length := by
      simp only [List.length_cons]
      omega
    have hmarks : s.marking t rest ++ (t, r.id, s.micros) :: marks =
        s.marking t (r :: rest) ++ marks := by simp [Store.marking]
    rw [hcount, hmarks] at hrest
    have hmarked : Performs (machine db) t (sql (.mark_published r.id) >>= fun _ =>
        for_rows (rest.map .of) (count + 1)) (s.working t locks marks) _ _ _ :=
      .next .refl hmark hrest
    have hpublished : Performs (machine db) t (for_rows ((r :: rest).map .of) count)
        (s.working t locks marks) (⟨{ rows }, (Message.of r).publish, _, .ok (), _⟩ :: _) _ _ :=
      .next .refl rfl hmarked
    refine ⟨_, locks', hpublished, hlocks, ?_⟩
    simp only [List.map_cons, List.flatMap_cons, hsteps]
    rfl

/-- A row that the transaction of call `t` has updated. -/
theorem marked_of_marking (s : Store) (locks : List (Nat × Uuid)) (batch : List OutboxRow)
    (r : OutboxRow) : (s.working t locks (s.marking t batch)).marked t r = s.stamped batch r := by
  unfold Store.marked Store.stamped
  split
  · next m id micros hfind =>
    obtain ⟨hmem, hid⟩ : _ ∧ _ := ⟨List.mem_of_find?_eq_some hfind, List.find?_some hfind⟩
    obtain ⟨x, hx, heq⟩ := List.mem_map.mp (List.mem_reverse.mp hmem)
    cases heq
    have hid : x.id = r.id := by simpa using hid
    rw [if_pos (List.mem_map.mpr ⟨x, hx, hid⟩)]
  · next hnone =>
    rw [if_neg]
    intro hmem
    obtain ⟨x, hx, hid⟩ := List.mem_map.mp hmem
    have hx : (t, x.id, s.micros) ∈ s.marking t batch :=
      List.mem_reverse.mpr (List.mem_map_of_mem hx)
    exact List.find?_eq_none.mp hnone _ hx (by simp [hid])

theorem filter_foreign {α : Type} {l : List α} {f : α → Nat} (h : ∀ x ∈ l, f x = t) :
    l.filter (fun x => f x != t) = [] := by
  apply List.filter_eq_nil_iff.mpr
  intro x hx
  simp [h x hx]

/-- The commit of a batch. -/
theorem commit_working {s : Store} {locks : List (Nat × Uuid)} {batch : List OutboxRow}
    (hown : ∀ p ∈ locks, p.1 = t) :
    (s.working t locks (s.marking t batch)).commitTx t = s.sweep batch := by
  have hmarks : ∀ m ∈ s.marking t batch, m.1 = t := by
    intro m hm
    obtain ⟨x, _, rfl⟩ := List.mem_map.mp (List.mem_reverse.mp hm)
    rfl
  have hopen : ∀ u ∈ [t], u = t := fun u hu => List.mem_singleton.mp hu
  simp only [Store.commitTx, Store.endTx, Store.working, filter_foreign hown,
    filter_foreign hmarks, filter_foreign hopen]
  have hrows : s.ledger.outbox.map ((s.working t locks (s.marking t batch)).marked t) =
      s.ledger.outbox.map (s.stamped batch) :=
    List.map_congr_left fun r _ => marked_of_marking s locks batch r
  rw [Store.sweep, ← hrows]
  rfl

/-- Nothing of the workers' is open. -/
structure Store.Quiet (s : Store) : Prop where
  open_tx : s.open_tx = []
  locks : s.locks = []
  marks : s.marks = []

/-- **A batch by itself**: the ten oldest rows, in their order. -/
theorem batch_performs (s : Store) (quiet : s.Quiet) {rows : List OutboxRow} (hsome : rows ≠ [])
    (perm : rows.Perm s.backlog)
    (sorted : rows.Pairwise fun r r' => r.created_at ≤ r'.created_at) :
    ∃ steps, Performs (machine db) t process_batch s steps (.ret (rows.take 10).length)
        (s.sweep (rows.take 10)) ∧
      steps.map Taken.did = progress ((rows.take 10).map .of) ((rows.take 10).map .of) ++
        [⟨.sql .commit, some ()⟩] := by
  have hfree : ∀ id, (s.working t [] []).locked t id = false := fun _ => rfl
  have havailable : (s.working t [] []).available t = s.backlog := by
    simp only [Store.available, hfree, Bool.not_false, Bool.and_true]
    rfl
  have hbegin : (machine db).exec t { rows } s (.sql .begin) =
      some (some (), s.working t [] []) := by
    simp only [machine, exec, Sql.run, quiet.open_tx, List.not_mem_nil, ↓reduceIte]
    rw [Store.working, ← quiet.locks, ← quiet.marks]
    rfl
  have hselect : (machine db).exec t { rows } (s.working t [] []) (.sql .select_batch) =
      some (some ((rows.take 10).map .of),
        s.working t ((rows.take 10).map fun r => (t, r.id)) []) := by
    have hopen : t ∈ (s.working t [] []).open_tx := List.mem_cons_self
    simp only [machine, exec, Sql.run, if_pos hopen, havailable]
    exact if_pos ⟨perm, sorted⟩
  have hown : ∀ p ∈ (rows.take 10).map fun r => (t, r.id), p.1 = t := by
    intro p hp
    obtain ⟨r, _, rfl⟩ := List.mem_map.mp hp
    rfl
  obtain ⟨steps, locks, hloop, hlocks, hsteps⟩ := for_rows_performs s rows
    (rows.take 10) 0 _ [] hown
  rw [List.append_nil, Nat.zero_add] at hloop
  have hcommit : (machine db).exec t { rows } (s.working t locks (s.marking t (rows.take 10)))
      (.sql .commit) = some (some (), s.sweep (rows.take 10)) := by
    have hopen : t ∈ (s.working t locks (s.marking t (rows.take 10))).open_tx := List.mem_cons_self
    simp only [machine, exec, Sql.run, if_pos hopen]
    rw [commit_working hlocks]
    rfl
  have hrows : ((rows.take 10).map Message.of).isEmpty = false := by
    rw [List.isEmpty_eq_false_iff, ne_eq, List.map_eq_nil_iff, List.take_eq_nil_iff]
    exact not_or.mpr ⟨by decide, hsome⟩
  have hend : Performs (machine db) t
      (sql .commit >>= fun _ => (.ret (rows.take 10).length : Async Nat))
      (s.working t locks (s.marking t (rows.take 10))) _ (.ret (rows.take 10).length) _ :=
    .next .refl hcommit (.rest .refl)
  have hcommitted := (hloop.bind fun count => sql .commit >>= fun _ => .ret count).append hend
  have hbatch : Performs (machine db) t process_batch s _ _ _ :=
    .next .refl hbegin (.next .refl hselect (by
      show Performs _ _ (if _ then _ else _) _ _ _ _
      rw [hrows, if_neg Bool.false_ne_true]
      exact hcommitted))
  refine ⟨_, hbatch, ?_⟩
  simp only [List.map_cons, List.map_append, hsteps, List.map_nil]
  rfl

/-- What a call has handed to the publisher when it commits. -/
theorem publishes_progress (rows done : List Message) :
    ((progress rows done ++ [(⟨.sql .commit, some ()⟩ : OutboxDone)]).map Done.op).filter
      Op.publishes = done.map Message.publish := by
  have loop : ((done.flatMap fun m => [acknowledged m, marked m]).map Done.op).filter
      Op.publishes = done.map Message.publish := by
    induction done with
    | nil => rfl
    | cons m done ih =>
      rw [List.flatMap_cons, List.map_append, List.filter_append, ih]
      rfl
  rw [progress, List.map_append, List.filter_append, List.map_cons, List.map_cons,
    List.filter_cons, List.filter_cons, loop]
  exact List.append_nil _

/-- **A turn by itself.** -/
theorem turn_performs (v : Env) (s : Store) (quiet : s.Quiet) {rows : List OutboxRow}
    (hsome : rows ≠ []) (perm : rows.Perm s.backlog)
    (sorted : rows.Pairwise fun r r' => r.created_at ≤ r'.created_at) (errors : UInt32) :
    ∃ steps, Performs (machine v.db) t (serve v (.worker_turn errors)) s steps
        (.ret (.turned (after_batch errors (.ok (rows.take 10).length)))) (s.sweep (rows.take 10)) ∧
      steps.map Taken.did = progress ((rows.take 10).map .of) ((rows.take 10).map .of) ++
        [⟨.sql .commit, some ()⟩] := by
  obtain ⟨steps, hbatch, hsteps⟩ := batch_performs s quiet hsome perm sorted
  have hturn : Performs (machine v.db) t (worker_turn errors) s steps _ _ :=
    hbatch.caught.bind fun result => .ret (after_batch errors result)
  exact ⟨steps, hturn.bind fun turn => .ret (Response.turned turn), hsteps⟩

end Turn

/-! ## What a turn leaves to do -/

section Left

variable {s : Store} {rows batch : List OutboxRow}

/-- The batch is off the backlog, and nothing else. -/
theorem backlog_sweep (s : Store) (batch : List OutboxRow) :
    (s.sweep batch).backlog = s.backlog.filter fun r => r.id ∉ batch.map (·.id) := by
  have each : ∀ rows : List OutboxRow,
      (rows.map (s.stamped batch)).filter (fun r => r.published_at = none) =
        (rows.filter fun r => r.published_at = none).filter fun r => r.id ∉ batch.map (·.id) := by
    intro rows
    induction rows with
    | nil => rfl
    | cons r rows ih =>
      by_cases hmem : r.id ∈ batch.map (·.id)
      · have hstamped : s.stamped batch r = { r with published_at := some s.micros } := if_pos hmem
        rw [List.map_cons, hstamped, List.filter_cons_of_neg (by simp), ih]
        by_cases hold : r.published_at = none
        · rw [List.filter_cons_of_pos (by simpa using hold),
            List.filter_cons_of_neg (by simpa using hmem)]
        · rw [List.filter_cons_of_neg (by simpa using hold)]
      · have hstamped : s.stamped batch r = r := if_neg hmem
        rw [List.map_cons, hstamped]
        by_cases hold : r.published_at = none
        · rw [List.filter_cons_of_pos (by simpa using hold), ih,
            List.filter_cons_of_pos (by simpa using hold),
            List.filter_cons_of_pos (by simpa using hmem)]
        · rw [List.filter_cons_of_neg (by simpa using hold), ih,
            List.filter_cons_of_neg (by simpa using hold)]
  exact each s.ledger.outbox

/-- What is left of the rows is what is left of the backlog. -/
theorem backlog_left (apart : Apart s.ledger.outbox) (perm : rows.Perm s.backlog) (n : Nat) :
    (rows.drop n).Perm (s.sweep (rows.take n)).backlog := by
  have hids : (rows.map (·.id)).Nodup := by
    rw [(perm.map _).nodup_iff]
    exact (List.filter_sublist.map _).nodup apart.ids
  have hsplit : rows.filter (fun r => r.id ∉ (rows.take n).map (·.id)) = rows.drop n := by
    have hparts := hids
    rw [← List.take_append_drop n rows, List.map_append, List.nodup_append] at hparts
    conv_lhs => rw [← List.take_append_drop n rows]
    rw [List.filter_append, List.take_append_drop]
    have hgone : (rows.take n).filter (fun r => r.id ∉ (rows.take n).map (·.id)) = [] := by
      apply List.filter_eq_nil_iff.mpr
      intro r hr
      simpa using List.mem_map_of_mem (f := OutboxRow.id) hr
    have hstay : (rows.drop n).filter (fun r => r.id ∉ (rows.take n).map (·.id)) = rows.drop n := by
      apply List.filter_eq_self.mpr
      intro r hr
      have hnot : r.id ∉ (rows.take n).map (·.id) := fun hmem =>
        hparts.2.2 _ hmem _ (List.mem_map_of_mem hr) rfl
      simpa using hnot
    rw [hgone, hstay, List.nil_append]
  rw [backlog_sweep, ← hsplit]
  exact perm.filter _

theorem messages_sweep (s : Store) (batch : List OutboxRow) :
    (s.sweep batch).messages = s.messages := by
  show (s.ledger.outbox.map (s.stamped batch)).map Message.of = _
  rw [List.map_map]
  refine List.map_congr_left fun r _ => ?_
  show Message.of (s.stamped batch r) = Message.of r
  unfold Store.stamped
  split <;> rfl

end Left

/-! ## The server ends what was left open -/

section Reaping

variable {db : Engine}

/-- The server ends the transactions of these calls. -/
theorem reaped (ts : List Nat) : ∀ s : Store, s.open_tx ⊆ ts →
    ∃ s', (machine db).Drifts s s' ∧ s'.open_tx = [] ∧ s'.ledger.outbox = s.ledger.outbox ∧
      s'.ledger.entries = s.ledger.entries := by
  induction ts with
  | nil =>
    intro s hsub
    exact ⟨s, .refl, List.subset_nil.mp hsub, rfl, rfl⟩
  | cons t ts ih =>
    intro s hsub
    have hleft : (s.endTx t).open_tx ⊆ ts := by
      intro u hu
      obtain ⟨hu, hne⟩ := mem_endTx_open.mp hu
      exact (List.mem_cons.mp (hsub hu)).resolve_left hne
    obtain ⟨s', drift, hopen, hout, hentries⟩ :=
      ih { s.endTx t with ledger := s.ledger.endTx t } hleft
    exact ⟨s', .head ⟨.reap t, rfl⟩ drift, hopen, hout, hentries⟩

/-- Where no worker's transaction is open, nothing is locked. -/
theorem Inv.quiet {s : Store} (h : Inv s) (hopen : s.open_tx = []) : s.Quiet := by
  have hlocks : s.locks = [] := by
    rw [List.eq_nil_iff_forall_not_mem]
    intro p hp
    have hmem := h.owned p hp
    rw [hopen] at hmem
    cases hmem
  refine ⟨hopen, hlocks, ?_⟩
  rw [List.eq_nil_iff_forall_not_mem]
  intro m hm
  have hmem := h.marked m hm
  rw [hlocks] at hmem
  cases hmem

end Reaping

/-! ## Runs -/

section Runs

variable {v : Env} {clock : Nat} {ls : List OutboxLabel} {c d : OutboxConf}
  {rows : List OutboxRow}

/-- What has been handed to the publisher between two configurations, in this order. -/
def Handed (c d : OutboxConf) (rows : List OutboxRow) : Prop :=
  ∃ new, d.world.log = c.world.log ++ new ∧
    (new.map Event.op).filter Op.publishes = rows.map fun r => (Message.of r).publish

/-- **The outbox has been drained** of these rows. -/
structure Drained (c d : OutboxConf) (rows : List OutboxRow) : Prop where
  backlog : d.world.store.backlog = []
  handed : Handed c d rows
  entries : d.world.store.ledger.entries = c.world.store.ledger.entries
  messages : d.world.store.messages = c.world.store.messages
  /-- Ten rows a turn. -/
  turns : d.pool.length = c.pool.length + (rows.length + 9) / 10

/-- A turn of a new worker. -/
theorem turn_run (quiet : c.world.store.Quiet) (hsome : rows ≠ [])
    (perm : rows.Perm c.world.store.backlog)
    (sorted : rows.Pairwise fun r r' => r.created_at ≤ r'.created_at) :
    ∃ ms d, OutboxRun v c ms d ∧ d.world.store = c.world.store.sweep (rows.take 10) ∧
      Handed c d (rows.take 10) ∧ d.pool.length = c.pool.length + 1 := by
  obtain ⟨steps, hturn, hsteps⟩ := turn_performs (t := c.pool.length) v c.world.store quiet hsome
    perm sorted 0
  let c₁ : OutboxConf :=
    { c with pool := c.pool ++ [{ req := .worker_turn 0, prog := serve v (.worker_turn 0) }] }
  have arrival : OutboxRun v c ([] ++ [.spawn (.worker_turn 0)]) c₁ := .snoc (.nil c) trivial rfl
  have hcall : c₁.pool[c.pool.length]? = some _ := List.getElem?_concat_length ..
  obtain ⟨ms, d, new, hrun, hworld, hnew, hpool⟩ := hturn.logged (serve v) hcall rfl rfl rfl
  refine ⟨_, d, arrival.append hrun, congrArg World.store hworld,
    ⟨new, congrArg World.log hworld, ?_⟩, ?_⟩
  · have hops : new.map Event.op = (new.map Event.did).map Done.op := by
      rw [List.map_map]
      rfl
    rw [hops, hnew, hsteps, publishes_progress, List.map_map]
    rfl
  · rw [hpool, List.length_set, List.length_append]
    rfl

/-- Turn after turn. -/
theorem drained_quiet (n : Nat) : ∀ {ls : List OutboxLabel} {c : OutboxConf}
    {rows : List OutboxRow}, rows.length ≤ n → OutboxRun v (start clock) ls c →
      c.world.store.Quiet → rows.Perm c.world.store.backlog →
        (rows.Pairwise fun r r' => r.created_at ≤ r'.created_at) →
          ∃ ms d, OutboxRun v c ms d ∧ Drained c d rows := by
  induction n with
  | zero =>
    intro ls c rows hlen hc quiet perm sorted
    obtain rfl := List.length_eq_zero_iff.mp (Nat.le_zero.mp hlen)
    exact ⟨[], c, .nil c, perm.nil_eq.symm, ⟨[], by simp, rfl⟩, rfl, rfl, rfl⟩
  | succ n ih =>
    intro ls c rows hlen hc quiet perm sorted
    by_cases hsome : rows = []
    · subst hsome
      exact ⟨[], c, .nil c, perm.nil_eq.symm, ⟨[], by simp, rfl⟩, rfl, rfl, rfl⟩
    · obtain ⟨ms, d, hd, hstore, ⟨new, hlog, hnew⟩, hpool⟩ := turn_run quiet hsome perm sorted
      have hpos : 0 < rows.length := List.length_pos_iff.mpr hsome
      have quiet' : d.world.store.Quiet := hstore ▸ ⟨rfl, rfl, rfl⟩
      have perm' : (rows.drop 10).Perm d.world.store.backlog := by
        rw [hstore]
        exact backlog_left (rows_apart hc) perm 10
      obtain ⟨ms', e, he, drained⟩ := @ih _ _ (rows.drop 10)
        (by rw [List.length_drop]; omega) (hc.append hd) quiet' perm'
        (sorted.sublist (List.drop_sublist 10 rows))
      obtain ⟨new', hlog', hnew'⟩ := drained.handed
      refine ⟨_, e, hd.append he, drained.backlog, ⟨new ++ new', ?_, ?_⟩, ?_, ?_, ?_⟩
      · rw [hlog', hlog, List.append_assoc]
      · rw [List.map_append, List.filter_append, hnew, hnew', ← List.map_append,
          List.take_append_drop]
      · rw [drained.entries, hstore]
        rfl
      · rw [drained.messages, hstore, messages_sweep]
      · rw [drained.turns, hpool, List.length_drop]
        omega

end Runs

/-- **The outbox can always be drained**: whatever calls and workers have done, failed or left
undone, the rows that are committed and not published can all be published, in their order, each
handed to the publisher once more, ten rows a turn. -/
theorem outbox_drains (v : Env) (clock : Nat) (ls : List OutboxLabel) (c : OutboxConf)
    (hc : OutboxRun v (start clock) ls c) (rows : List OutboxRow)
    (perm : rows.Perm c.world.store.backlog)
    (sorted : rows.Pairwise fun r r' => r.created_at ≤ r'.created_at) :
    ∃ ms d, OutboxRun v c ms d ∧ Drained c d rows := by
  obtain ⟨s, drift, hopen, hout, hentries⟩ := reaped _ c.world.store
    (List.Subset.refl _)
  have moved : ∃ ms, OutboxRun v c ms { c with world := c.world.moved s } := drift.run
  obtain ⟨ms, hmoved⟩ := moved
  have whole := hc.append hmoved
  have quiet : s.Quiet := (run_kept whole).inv.quiet hopen
  have hbacklog : s.backlog = c.world.store.backlog := by
    rw [Store.backlog, hout]
    rfl
  obtain ⟨ms', d, hd, drained⟩ := drained_quiet rows.length (Nat.le_refl _) whole quiet
    (hbacklog ▸ perm) sorted
  refine ⟨_, d, hmoved.append hd, drained.backlog, drained.handed, ?_, ?_, drained.turns⟩
  · exact drained.entries.trans hentries
  · refine drained.messages.trans ?_
    show s.ledger.outbox.map Message.of = c.world.store.ledger.outbox.map Message.of
    rw [hout]

/-- A worker that has published one of two rows is dropped before its commit. -/
def cut_short : List OutboxLabel :=
  post 0 "first" 10 ++ post 1 "second" 20 ++ [.spawn (.worker_turn 0)] ++
    work 2 4 [posted_row "first" 10, posted_row "second" 20] ++ [.drop 2]

/-- Both rows are published after all. -/
theorem cut_short_drains : ∃ c, OutboxRun sample (start 0) cut_short c ∧ ∃ ms d,
    OutboxRun sample c ms d ∧ Drained c d [posted_row "first" 10, posted_row "second" 20] := by
  obtain ⟨run, checked⟩ := replayed_spec (machine sample.db) (serve sample) (start 0) cut_short
    (fun c => c.world.store.backlog = [posted_row "first" 10, posted_row "second" 20] &&
      c.world.store.open_tx = [2]) (by decide +kernel)
  obtain ⟨hbacklog, _⟩ := Bool.and_eq_true_iff.mp checked
  exact ⟨_, run, outbox_drains sample 0 cut_short _ run _ (of_decide_eq_true hbacklog ▸ .refl _)
    (by decide)⟩

end Kova.Ledger.Outbox

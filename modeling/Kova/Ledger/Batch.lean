import Kova.Conc.Serial
import Kova.Ledger.OutboxLaws

/-!
# A batch

Where a worker's call stands, told by what it has done: `Due` lists the histories after which each
operation is executed, `Ended` those with which a call ends. `Kept` is what holds of every
reachable configuration: a row that a call was answered is its own until its transaction ends, and
a row that shows as published was acknowledged by the publisher.
-/

set_option autoImplicit false

namespace Kova.Ledger.Outbox

open Conc

abbrev OutboxDone := Done Op Op.Res

/-! ## Where a call stands -/

def began : OutboxDone := ⟨.sql .begin, some ()⟩

def selected (rows : List Message) : OutboxDone := ⟨.sql .select_batch, some rows⟩

def acknowledged (m : Message) : OutboxDone := ⟨m.publish, .ok ()⟩

def marked (m : Message) : OutboxDone := ⟨.sql (.mark_published m.id), some ()⟩

/-- What a call has done when the messages `done` of its batch are behind it. -/
def progress (rows done : List Message) : List OutboxDone :=
  began :: selected rows :: done.flatMap fun m => [acknowledged m, marked m]

/-- The operation that is due after a history. -/
inductive Due : List OutboxDone → Op → Prop
  | begin : Due [] (.sql .begin)
  | select : Due [began] (.sql .select_batch)
  | rollback : Due [began, selected []] (.sql .rollback)
  | publish (done : List Message) (m : Message) (rest : List Message) :
      Due (progress (done ++ m :: rest) done) m.publish
  | mark (done : List Message) (m : Message) (rest : List Message) :
      Due (progress (done ++ m :: rest) done ++ [acknowledged m]) (.sql (.mark_published m.id))
  | commit (rows : List Message) : Due (progress rows rows) (.sql .commit)

/-- The histories of the calls that have come to their end. -/
inductive Ended : List OutboxDone → Prop
  | committed (rows : List Message) : Ended (progress rows rows ++ [⟨.sql .commit, some ()⟩])
  | nothing (r : Option Unit) : Ended [began, selected [], ⟨.sql .rollback, r⟩]
  | refused (done : List Message) (m : Message) (rest : List Message) (e : LedgerError) :
      Ended (progress (done ++ m :: rest) done ++ [⟨m.publish, .error e⟩])
  | failed {h : List OutboxDone} (q : Sql) : Due h (.sql q) → Ended (h ++ [⟨.sql q, none⟩])

/-- A message of the call's batch has been acknowledged. -/
def Sent (h : List OutboxDone) (m : Message) : Prop :=
  acknowledged m ∈ h ∧ ∃ rows, selected rows ∈ h ∧ m ∈ rows

theorem Due.of_begin {h : List OutboxDone} (due : Due h (.sql .begin)) : h = [] := by
  generalize hop : Op.sql .begin = op at due
  cases due <;> first | rfl | cases hop

theorem Due.of_mark {h : List OutboxDone} {id : Uuid} (due : Due h (.sql (.mark_published id))) :
    ∃ m, m.id = id ∧ Sent h m := by
  generalize hop : Op.sql (.mark_published id) = op at due
  cases due with
  | mark done m rest =>
    cases hop
    exact ⟨m, rfl, by simp, done ++ m :: rest, by simp [progress], by simp⟩
  | begin | select | rollback | publish _ _ _ | commit _ => cases hop

theorem Due.of_publish {h : List OutboxDone} {m : Message} (due : Due h m.publish) :
    ∃ done m' rest, m'.publish = m.publish ∧ h = progress (done ++ m' :: rest) done := by
  generalize hop : m.publish = op at due
  cases due with
  | publish done m' rest => exact ⟨done, m', rest, rfl, rfl⟩
  | begin | select | rollback | mark _ _ _ | commit _ => cases hop

theorem progress_snoc (rows done : List Message) (m : Message) :
    progress rows done ++ [acknowledged m] ++ [marked m] = progress rows (done ++ [m]) := by
  simp [progress, List.flatMap_append]

section

variable {α : Type} {h : List OutboxDone} {Q : List OutboxDone → Except BoxedError α → Prop}

/-- A statement whose failure ends the call. -/
theorem sql_due {q : Sql} {f : q.Res → Async α} (due : Due h (.sql q))
    (fails : ∀ h e, Ended h → Q h (.error e))
    (next : ∀ r, Guarded Due Q (f r) (h ++ [⟨.sql q, some r⟩])) :
    Guarded Due Q (sql q >>= f) h := by
  refine ⟨due, ?_⟩
  intro r
  cases r with
  | some r => exact next r
  | none => exact fails _ _ (.failed q due)

end

/-- The loop over the rows ends behind the last one. -/
theorem for_rows_due (rows : List Message) : ∀ (rest done : List Message) (count : Nat),
    rows = done ++ rest →
      Guarded Due (fun h r => match r with
        | .ok _ => h = progress rows rows
        | .error _ => Ended h) (for_rows rest count) (progress rows done)
  | [], done, _, hrows => by
    rw [List.append_nil] at hrows
    subst hrows
    rfl
  | m :: rest, done, count, hrows => by
    subst hrows
    refine ⟨.publish done m rest, ?_⟩
    intro verdict
    cases verdict with
    | error e => exact .refused done m rest e
    | ok u =>
      refine sql_due (.mark done m rest) (fun _ _ hended => hended) ?_
      intro u
      have hnext := for_rows_due (done ++ m :: rest) rest (done ++ [m]) (count + 1) (by simp)
      rw [← progress_snoc] at hnext
      exact hnext

theorem process_batch_due : Guarded Due (fun h _ => Ended h) process_batch [] := by
  refine sql_due .begin (fun _ _ hended => hended) ?_
  intro u
  refine sql_due .select (fun _ _ hended => hended) ?_
  intro rows
  cases rows with
  | nil => exact ⟨.rollback, fun r => .nothing r⟩
  | cons m rest =>
    refine Guarded.bind ?_ ?_ (for_rows_due (m :: rest) (m :: rest) [] 0 rfl)
    · intro h e hended
      exact hended
    · rintro h count rfl
      exact sql_due (.commit (m :: rest)) (fun _ _ hended => hended) fun u => .committed _

/-! ## The service -/

/-- What a request may execute. -/
def guards : Request → List OutboxDone → Op → Prop
  | .post_entry _, _, op => ∃ op', op = .posting op'
  | .worker_turn _, h, op => Due h op

/-- How a request ends. -/
def ends : Request → List OutboxDone → Except LedgerError Response → Prop
  | .post_entry _, _, _ => True
  | .worker_turn _, h, _ => Ended h

theorem worker_turn_due (n : UInt32) :
    Guarded Due (fun h _ => Ended h)
      (worker_turn n >>= fun turn => pure (Response.turned turn)) [] := by
  rw [worker_turn, Prog.bind_assoc]
  refine Guarded.bind_caught ?_ process_batch_due
  intro h r hended
  exact hended

/-- **Every request** executes what is due, and ends as it should. -/
theorem serve_guarded (v : Env) (req : Request) :
    Guarded (guards req) (ends req) (serve v req) [] := by
  cases req with
  | post_entry p =>
    refine Guarded.bind ?_ ?_ (guarded_among (fun _ op => ⟨op, rfl⟩) _ [])
    · intro _ _ _
      trivial
    · intro _ _ _
      trivial
  | worker_turn n => exact worker_turn_due n

/-! ## The rows -/

/-- The ledger's request of a call; a worker's stands for one that never moves. -/
def guest : Request → Ledger.Request
  | .post_entry p => .post_entry p
  | .worker_turn _ => .get_balance (.low 0) ""

theorem not_due_posting (h : List OutboxDone) (op : Ledger.Op) : ¬ Due h (.posting op) := by
  intro hdue
  generalize hop : Op.posting op = op' at hdue
  cases hdue <;> cases hop

theorem serve_follows (v : Env) (req : Request) :
    Follower .posting (fun _ r => r) ({ req, prog := serve v req } : Call _ _ _ _ _)
      ({ req := guest req, prog := Ledger.serve v (guest req) } : Call _ _ _ _ _) := by
  cases req with
  | post_entry p =>
    refine .inr ⟨fun h => h, ?_⟩
    exact mirrors_among (fun r => .ret _ _) (Ledger.post_entry v.sha256_hex p)
  | worker_turn n => exact .inl (avoids_of_guarded not_due_posting (worker_turn_due n))

section

variable {v : Env} {clock : Nat} {ls : List OutboxLabel} {d : OutboxConf}

/-- **Each committed entry has its outbox row**, as in the ledger without workers. -/
theorem rows_linked (h : OutboxRun v (start clock) ls d) :
    (d.world.store.ledger.outbox.map (·.id)).Nodup ∧
      (d.world.store.ledger.outbox.map (·.entry_id)).Nodup ∧
      d.world.store.ledger.outbox.map (·.entry_id) = d.world.store.ledger.entries.map (·.id) := by
  obtain ⟨ms, c, hrun, hstore, _⟩ := h.hosted (hosts v.db) (serve_follows v)
  have hrun : LedgerRun v (Ledger.start clock) ms c := hrun
  have hlinked := outbox_linked hrun
  rw [hstore] at hlinked
  simp only [posted, List.map_map] at hlinked
  exact hlinked

end

/-! ## What every run keeps -/

abbrev OutboxWorld := World Store Request Op Op.Res

/-- **What holds whatever has been executed.** -/
structure Kept (w : OutboxWorld) : Prop where
  inv : Inv w.store
  /-- What was answered is in the table. -/
  found : ∀ t rows m, selected rows ∈ history t w.log → m ∈ rows → m ∈ w.store.messages
  distinct : ∀ t rows, selected rows ∈ history t w.log → rows.Nodup
  /-- What was answered is held. -/
  held : ∀ t rows m, t ∈ w.store.open_tx → selected rows ∈ history t w.log → m ∈ rows →
    Holds w.store t m.id
  /-- What is updated has been acknowledged. -/
  marks : ∀ x ∈ w.store.marks, ∃ m, m.id = x.2.1 ∧ Sent (history x.1 w.log) m
  updated : ∀ t m, t ∈ w.store.open_tx → marked m ∈ history t w.log →
    ∃ micros, (t, m.id, micros) ∈ w.store.marks
  /-- What shows as published has been acknowledged. -/
  published : ∀ row ∈ w.store.ledger.outbox, row.published_at ≠ none →
    ∃ t, Sent (history t w.log) (.of row)

theorem Sent.mono {h h' : List OutboxDone} {m : Message} (hsent : Sent h m) (sub : h ⊆ h') :
    Sent h' m := by
  obtain ⟨hack, rows, hrows, hm⟩ := hsent
  exact ⟨sub hack, rows, sub hrows, hm⟩

/-- What tells the rows of a table apart. -/
structure Apart (rows : List OutboxRow) : Prop where
  ids : (rows.map (·.id)).Nodup
  entry_ids : (rows.map (·.entry_id)).Nodup

theorem Apart.row {rows : List OutboxRow} (h : Apart rows) {r r' : OutboxRow} (hr : r ∈ rows)
    (hr' : r' ∈ rows) (hid : r.id = r'.id) : r = r' :=
  List.inj_on_of_nodup_map h.ids hr hr' hid

section

variable {db : Engine} {t : Nat} {ch : Choice} {w : OutboxWorld} {req : Request} {op : Op}
  {r : op.Res} {s' : Store}

/-- What the SELECT answers is the call's own. -/
theorem selected_held {rows : List Message}
    (apart : Apart w.store.ledger.outbox)
    (hexec : exec db t ch w.store (.sql .select_batch) = some (some rows, s')) :
    rows.Nodup ∧ ∀ m ∈ rows, m ∈ s'.messages ∧ Holds s' t m.id := by
  obtain ⟨batch, rfl, hsub, rfl⟩ := exec_selected hexec
  refine ⟨?_, ?_⟩
  · have hids : (batch.map (·.id)).Nodup := nodup_of_subperm (hsub.trans
      (List.filter_sublist.subperm)) apart.ids
    apply List.Nodup.of_map Message.id
    rw [List.map_map]
    exact hids
  · intro m hm
    obtain ⟨row, hrow, rfl⟩ := List.mem_map.mp hm
    obtain ⟨hmem, hnone, _⟩ := mem_available.mp (hsub.subset hrow)
    have hlocked : (t, row.id) ∈ batch.map fun row => (t, row.id) :=
      List.mem_map.mpr ⟨row, hrow, rfl⟩
    refine ⟨List.mem_map_of_mem hmem, List.mem_append_right _ hlocked, ?_⟩
    rintro ⟨row', hrow', hid, hset⟩
    obtain rfl := apart.row hrow' hmem hid
    exact hset hnone

/-- What an operation adds to the history of its call. -/
theorem history_push : history t (w.push ⟨t, req, op, w.store, r, s'⟩).log =
    history t w.log ++ [⟨op, r⟩] := history_append_self _ rfl

theorem mem_history_push {x : OutboxDone} {u : Nat} :
    x ∈ history u (w.push ⟨t, req, op, w.store, r, s'⟩).log ↔
      x ∈ history u w.log ∨ (t = u ∧ x = ⟨op, r⟩) := mem_history_append

theorem guards_sql {h : List OutboxDone} {q : Sql} (hguard : guards req h (.sql q)) :
    Due h (.sql q) := by
  cases req with
  | post_entry p =>
    obtain ⟨op', hop⟩ := hguard
    cases hop
  | worker_turn n => exact hguard

theorem Kept.found_push (h : Kept w) (hexec : exec db t ch w.store op = some (r, s')) {u : Nat}
    {rows : List Message} {m : Message}
    (hrows : selected rows ∈ history u (w.push ⟨t, req, op, w.store, r, s'⟩).log) (hm : m ∈ rows) :
    m ∈ s'.messages := by
  rcases mem_history_push.mp hrows with hrows | ⟨_, hdid⟩
  · exact (exec_effect hexec).message (h.found u rows m hrows hm)
  · cases hdid
    obtain ⟨batch, rfl, hsub, rfl⟩ := exec_selected hexec
    obtain ⟨row, hrow, rfl⟩ := List.mem_map.mp hm
    exact List.mem_map_of_mem (mem_available.mp (hsub.subset hrow)).1

/-- A call with a history has begun its transaction. -/
theorem open_push {u : Nat} {x : OutboxDone} (hguard : guards req (history t w.log) op)
    (hexec : exec db t ch w.store op = some (r, s')) (hopen : u ∈ s'.open_tx)
    (hx : x ∈ history u w.log) : u ∈ w.store.open_tx := by
  rcases (exec_effect hexec).opened hopen with hopen | ⟨rfl, rfl⟩
  · exact hopen
  · rw [(guards_sql hguard).of_begin] at hx
    cases hx

theorem Kept.held_push (h : Kept w) (apart : Apart w.store.ledger.outbox)
    (hguard : guards req (history t w.log) op) (hexec : exec db t ch w.store op = some (r, s'))
    {u : Nat} {rows : List Message} {m : Message} (hopen : u ∈ s'.open_tx)
    (hrows : selected rows ∈ history u (w.push ⟨t, req, op, w.store, r, s'⟩).log) (hm : m ∈ rows) :
    Holds s' u m.id := by
  rcases mem_history_push.mp hrows with hrows | ⟨rfl, hdid⟩
  · have before := open_push hguard hexec hopen hrows
    exact (h.held u rows m before hrows hm).effect h.inv (exec_effect hexec) hopen
  · cases hdid
    exact ((selected_held apart hexec).2 m hm).2

theorem Kept.marks_push (h : Kept w) (hguard : guards req (history t w.log) op)
    (hexec : exec db t ch w.store op = some (r, s')) {x : Nat × Uuid × Int} (hx : x ∈ s'.marks) :
    ∃ m, m.id = x.2.1 ∧ Sent (history x.1 (w.push ⟨t, req, op, w.store, r, s'⟩).log) m := by
  have grows : history x.1 w.log ⊆ history x.1 (w.log ++ [⟨t, req, op, w.store, r, s'⟩]) :=
    (history_grows (List.prefix_append _ _)).subset
  rcases (exec_effect hexec).new_mark hx with hx | ⟨htid, rfl⟩
  · obtain ⟨m, hid, hsent⟩ := h.marks x hx
    exact ⟨m, hid, hsent.mono grows⟩
  · obtain ⟨m, hid, hsent⟩ := (guards_sql hguard).of_mark
    rw [← htid] at hsent
    exact ⟨m, hid, hsent.mono grows⟩

theorem Kept.updated_push (h : Kept w) (hguard : guards req (history t w.log) op)
    (hexec : exec db t ch w.store op = some (r, s')) {u : Nat} {m : Message}
    (hopen : u ∈ s'.open_tx)
    (hm : marked m ∈ history u (w.push ⟨t, req, op, w.store, r, s'⟩).log) :
    ∃ micros, (u, m.id, micros) ∈ s'.marks := by
  rcases mem_history_push.mp hm with hm | ⟨rfl, hdid⟩
  · obtain ⟨micros, hmark⟩ := h.updated u m (open_push hguard hexec hopen hm) hm
    exact ⟨micros, (exec_effect hexec).marks hmark hopen⟩
  · cases hdid
    exact exec_marked hexec

theorem Kept.published_push (h : Kept w) (apart : Apart w.store.ledger.outbox)
    (hexec : exec db t ch w.store op = some (r, s')) {row : OutboxRow}
    (hrow : row ∈ s'.ledger.outbox) (hset : row.published_at ≠ none) :
    ∃ u, Sent (history u (w.push ⟨t, req, op, w.store, r, s'⟩).log) (.of row) := by
  rcases (exec_effect hexec).row hrow with hrow | ⟨p, hp, rfl⟩ | ⟨_, old, hold, micros, hm, rfl⟩
  · obtain ⟨u, hsent⟩ := h.published row hrow hset
    exact ⟨u, hsent.mono (history_grows (List.prefix_append _ _)).subset⟩
  · exact absurd (h.inv.fresh p hp) hset
  · -- The commit shows an update, and updated was what had been acknowledged.
    obtain ⟨m, hid, hsent⟩ := h.marks _ hm
    obtain ⟨rows, hrows, hmem⟩ := hsent.2
    obtain ⟨row, hrow, rfl⟩ := List.mem_map.mp (h.found t rows m hrows hmem)
    obtain rfl := apart.row hrow hold hid
    exact ⟨t, hsent.mono (history_grows (List.prefix_append _ _)).subset⟩

/-- **Every operation keeps it.** -/
theorem Kept.push (h : Kept w) (apart : Apart w.store.ledger.outbox)
    (hguard : guards req (history t w.log) op) (hexec : exec db t ch w.store op = some (r, s')) :
    Kept (w.push ⟨t, req, op, w.store, r, s'⟩) where
  inv := h.inv.effect (exec_effect hexec)
  found _ _ _ hrows hm := h.found_push hexec hrows hm
  distinct u rows hrows := by
    rcases mem_history_push.mp hrows with hrows | ⟨_, hdid⟩
    · exact h.distinct u rows hrows
    · cases hdid
      exact (selected_held apart hexec).1
  held _ _ _ hopen hrows hm := h.held_push apart hguard hexec hopen hrows hm
  marks _ hx := h.marks_push hguard hexec hx
  updated _ _ hopen hm := h.updated_push hguard hexec hopen hm
  published _ hrow hset := h.published_push apart hexec hrow hset

/-- So does whatever happens outside. -/
theorem Kept.moved (h : Kept w) {e : Ledger.Outside} (he : outside e w.store = some s') :
    Kept (w.moved s') := by
  obtain ⟨houtbox, hopens, hmarks, hmarks'⟩ := outside_frame he
  refine ⟨h.inv.outside he, ?_, h.distinct, ?_, ?_, ?_, ?_⟩
  · intro u rows m hrows hm
    show m ∈ s'.ledger.outbox.map Message.of
    rw [houtbox]
    exact h.found u rows m hrows hm
  · intro u rows m hopen hrows hm
    exact (h.held u rows m (hopens u hopen) hrows hm).outside he hopen
  · intro x hx
    exact h.marks x (hmarks x hx)
  · intro u m hopen hm
    obtain ⟨micros, hmark⟩ := h.updated u m (hopens u hopen) hm
    exact ⟨micros, hmarks' _ hmark hopen⟩
  · intro row hrow hset
    exact h.published row (houtbox ▸ hrow) hset

theorem kept_start (clock : Nat) : Kept (start clock).world :=
  ⟨inv_empty clock, by simp [start, Conf.init, history], by simp [start, Conf.init, history],
    by simp [start, Conf.init], by simp [start, Conf.init], by simp [start, Conf.init],
    by simp [start, Conf.init]⟩

end

section

variable {v : Env} {clock : Nat} {ls : List OutboxLabel} {d : OutboxConf}

theorem rows_apart (h : OutboxRun v (start clock) ls d) : Apart d.world.store.ledger.outbox :=
  ⟨(rows_linked h).1, (rows_linked h).2.1⟩

/-- The guard of the operation that a call awaits. -/
theorem awaits_guard {c : OutboxConf} (h : Obeys guards ends c) {t : Nat}
    {call : Call Request Op Op.Res LedgerError Response} {op : Op}
    {next : op.Res → Prog Op Op.Res LedgerError Response} (hcall : c.pool[t]? = some call)
    (hprog : call.prog = .await op next) : guards call.req (history t c.world.log) op := by
  have hguarded := h.guarded t call hcall
  rw [hprog] at hguarded
  exact hguarded.1

/-- **Every run keeps it.** -/
theorem run_kept (h : OutboxRun v (start clock) ls d) : Kept d.world := by
  induction h with
  | nil =>
    exact kept_start clock
  | @snoc d e ls l hrun hok hstep ih =>
    rcases step_cases hstep with ⟨req, _, rfl⟩ |
      ⟨t, ch, call, op, next, r, s', _, hcall, _, hprog, hexec, rfl⟩ | ⟨t, call, _, hcall, rfl⟩ |
      ⟨o, s', _, henv, rfl⟩
    · exact ih
    · exact ih.push (rows_apart hrun)
        (awaits_guard (hrun.obeys (serve_guarded v)) hcall hprog) hexec
    · exact ih
    · exact ih.moved henv

end

end Kova.Ledger.Outbox

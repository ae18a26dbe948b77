import Kova.Ledger.Batch

/-!
# Workers left alone

The runs in which nothing happens to a worker's call but what it does itself: it is not dropped,
the server does not end its transaction, and its statements succeed (`Undisturbed`). Whether a
publish may fail is a parameter. If it may fail only where nothing of the batch has been
acknowledged, whatever has been acknowledged shows as published once its call has ended
(`sent_shows`), and no message is handed to the publisher after that (`handed_once`).
-/

set_option autoImplicit false

namespace Kova.Ledger.Outbox

open Conc

def Request.of_worker : Request → Bool
  | .worker_turn _ => true
  | .post_entry _ => false

/-- A worker's call that has not come to its end. -/
def AtWork (c : OutboxConf) (t : Nat) : Bool :=
  c.pool[t]?.any fun call => call.req.of_worker && !call.over

/-- The operation that a call awaits. -/
def awaited (c : OutboxConf) (t : Nat) : Option Op :=
  c.pool[t]?.bind fun call =>
    match call.prog with
    | .await op _ => some op
    | _ => none

/-- The server ends no transaction of a call at work. -/
def Spared (c : OutboxConf) : OutboxLabel → OutboxConf → Prop
  | .env (.reap t), _ => AtWork c t = false
  | _, _ => True

/-- Nothing disturbs a worker's call: it is not dropped, nor is its transaction ended under it, its
statements succeed, and so does a publish unless it may fail after what the call has done. -/
def Undisturbed (may_fail : List OutboxDone → Prop) (c : OutboxConf) :
    OutboxLabel → OutboxConf → Prop
  | .run t ch, _ =>
    match awaited c t with
    | some (.sql _) => ch.posting.fault = .none
    | some (.publish ..) => ch.verdict = .ok () ∨ may_fail (history t c.world.log)
    | _ => True
  | .drop t, _ => AtWork c t = false
  | .env (.reap t), _ => AtWork c t = false
  | _, _ => True

/-- The runs of the service whose moves meet a condition. -/
abbrev OutboxRunWhere (v : Env) (P : OutboxConf → OutboxLabel → OutboxConf → Prop) :
    OutboxConf → List OutboxLabel → OutboxConf → Prop :=
  RunWhere (machine v.db) (serve v) P

theorem Undisturbed.mono {may_fail may_fail' : List OutboxDone → Prop}
    (weaker : ∀ h, may_fail h → may_fail' h) {c d : OutboxConf} {l : OutboxLabel}
    (h : Undisturbed may_fail c l d) : Undisturbed may_fail' c l d := by
  cases l with
  | run t ch =>
    simp only [Undisturbed] at h ⊢
    split
    · next hq =>
      rw [hq] at h
      exact h
    · next hp =>
      rw [hp] at h
      exact h.imp_right (weaker _)
    · trivial
  | spawn req => trivial
  | drop t => exact h
  | env e =>
    cases e with
    | advance n => trivial
    | reap t => exact h

theorem Undisturbed.spared {may_fail : List OutboxDone → Prop} {c d : OutboxConf} {l : OutboxLabel}
    (h : Undisturbed may_fail c l d) : Spared c l d := by
  cases l with
  | env e =>
    cases e with
    | advance n => trivial
    | reap t => exact h
  | spawn req => trivial
  | run t ch => trivial
  | drop t => trivial

/-! ## What a history tells -/

theorem mem_progress {rows done : List Message} {x : OutboxDone} :
    x ∈ progress rows done ↔ x = began ∨ x = selected rows ∨
      ∃ m ∈ done, x = acknowledged m ∨ x = marked m := by
  simp [progress]

/-- No call executes anything after the end of its transaction. -/
theorem Due.goes_on {h : List OutboxDone} {op : Op} (due : Due h op) {x : OutboxDone} (hx : x ∈ h) :
    x.op ≠ .sql .commit ∧ x.op ≠ .sql .rollback := by
  have behind : ∀ {rows done : List Message}, x ∈ progress rows done →
      x.op ≠ .sql .commit ∧ x.op ≠ .sql .rollback := by
    intro rows done hx
    rcases mem_progress.mp hx with rfl | rfl | ⟨m, _, rfl | rfl⟩ <;>
      exact ⟨fun hop => (by cases hop), fun hop => (by cases hop)⟩
  cases due with
  | begin => cases hx
  | select =>
    have hx : x ∈ progress [] [] := List.mem_cons.mpr (.inl (List.mem_singleton.mp hx))
    exact behind hx
  | rollback =>
    have hx : x ∈ progress [] [] := hx
    exact behind hx
  | publish done m rest => exact behind hx
  | commit rows => exact behind hx
  | mark done m rest =>
    rcases List.mem_append.mp hx with hx | hx
    · exact behind hx
    · have hx : x ∈ progress [] [m] :=
        mem_progress.mpr (.inr (.inr ⟨m, by simp, .inl (List.mem_singleton.mp hx)⟩))
      exact behind hx

/-- The first operation of a call that goes on began its transaction. -/
theorem Due.first {x : OutboxDone} {op : Op} (due : Due [x] op) : x = began := by
  generalize hh : [x] = h at due
  cases due with
  | select => exact (List.cons.inj hh).1
  | begin | rollback | publish _ _ _ | commit _ => simp [progress] at hh
  | mark _ _ _ => simp [progress] at hh

/-! ## Transactions of calls at work -/

section

variable {c d : OutboxConf} {t u : Nat}

theorem atWork_iff : AtWork c t = true ↔ ∃ call, c.pool[t]? = some call ∧
    call.req.of_worker = true ∧ call.over = false := by
  simp only [AtWork, Option.any_eq_true, Bool.and_eq_true, Bool.not_eq_true']

/-- The call that executes an operation is at work. -/
theorem atWork_run {call : Call Request Op Op.Res LedgerError Response} {op : Op}
    {next : op.Res → Prog Op Op.Res LedgerError Response} (hcall : c.pool[t]? = some call)
    (hdropped : call.dropped = false) (hprog : call.prog = .await op next)
    (hworker : call.req.of_worker = true) : AtWork c t = true := by
  refine atWork_iff.mpr ⟨call, hcall, hworker, ?_⟩
  rw [Call.over, hdropped, hprog]
  rfl

/-- A call at work awaits an operation that is due. -/
theorem atWork_due (h : Obeys guards ends c) (hwork : AtWork c t = true) :
    ∃ op, Due (history t c.world.log) op := by
  obtain ⟨call, hcall, hworker, hover⟩ := atWork_iff.mp hwork
  cases hprog : call.prog with
  | ret a =>
    rw [Call.over, hprog, Bool.or_eq_false_iff] at hover
    cases hover.2
  | raise e =>
    rw [Call.over, hprog, Bool.or_eq_false_iff] at hover
    cases hover.2
  | await op next =>
    have hguard := awaits_guard h hcall hprog
    cases hreq : call.req with
    | post_entry p =>
      rw [hreq] at hworker
      cases hworker
    | worker_turn n =>
      rw [hreq] at hguard
      exact ⟨op, hguard⟩

/-- Moves of one call leave the others at work, or not. -/
theorem atWork_set {call : Call Request Op Op.Res LedgerError Response} {w : OutboxWorld}
    (hne : t ≠ u) : AtWork ⟨w, c.pool.set t call⟩ u = AtWork c u := by
  rw [AtWork, List.getElem?_set_ne hne]
  rfl

/-- **A call at work that has done anything has its transaction open.** -/
def Begun (c : OutboxConf) : Prop :=
  ∀ t, AtWork c t = true → history t c.world.log ≠ [] → t ∈ c.world.store.open_tx

/-- It has after each operation of its own. -/
theorem begun_run {db : Engine} {ch : Choice} {w : OutboxWorld} {req : Request} {op op' : Op}
    {r : op.Res} {s' : Store} (hexec : exec db t ch w.store op = some (r, s'))
    (hbegun : history t w.log ≠ [] → t ∈ w.store.open_tx)
    (due : Due (history t (w.push ⟨t, req, op, w.store, r, s'⟩).log) op') : t ∈ s'.open_tx := by
  rw [history_push] at due
  by_cases hfirst : history t w.log = []
  · rw [hfirst, List.nil_append] at due
    obtain ⟨rfl, hr⟩ := Done.mk.inj due.first
    cases hr
    rcases exec_sql hexec with ⟨hr, _⟩ | ⟨r', hrun, _⟩
    · cases hr
    · obtain ⟨_, rfl⟩ := run_begin hrun
      exact List.mem_cons_self
  · refine (exec_effect hexec).stays_open (hbegun hfirst) fun _ => ?_
    exact due.goes_on (x := ⟨op, r⟩) (List.mem_append_right _ (List.mem_singleton_self _))

theorem Begun.step {v : Env} {l : OutboxLabel} (h : Begun c) (hobeys : Obeys guards ends c)
    (hobeys' : Obeys guards ends d) (hstep : Conc.step (machine v.db) (serve v) c l = some d)
    (hspared : Spared c l d) : Begun d := by
  intro u hwork hhist
  rcases step_cases hstep with ⟨req, rfl, rfl⟩ |
    ⟨t, ch, call, op, next, r, s', rfl, hcall, hdropped, hprog, hexec, rfl⟩ |
    ⟨t, call, rfl, hcall, rfl⟩ | ⟨e, s', rfl, henv, rfl⟩
  · obtain ⟨call, hcall, hworker, hover⟩ := atWork_iff.mp hwork
    rcases Nat.lt_or_ge u c.pool.length with hlt | hge
    · rw [List.getElem?_append_left hlt] at hcall
      exact h u (atWork_iff.mpr ⟨call, hcall, hworker, hover⟩) hhist
    · rw [List.getElem?_append_right hge] at hcall
      have hzero := (List.getElem?_eq_some_iff.mp hcall).1
      have hu : u = c.pool.length := by
        simp only [List.length_singleton] at hzero
        omega
      exact absurd (hu ▸ hobeys.unborn) hhist
  · by_cases htu : t = u
    · subst htu
      obtain ⟨op', due⟩ := atWork_due hobeys' hwork
      refine begun_run hexec ?_ due
      obtain ⟨call', hcall', hworker, _⟩ := atWork_iff.mp hwork
      rw [List.getElem?_set_self (List.getElem?_eq_some_iff.mp hcall).1] at hcall'
      obtain rfl := Option.some.inj hcall'
      exact h t (atWork_run hcall hdropped hprog hworker)
    · rw [atWork_set htu] at hwork
      rw [World.push_log, history_append_other _ htu] at hhist
      exact (exec_effect hexec).stays_open (h u hwork hhist) fun hut => absurd hut.symm htu
  · by_cases htu : t = u
    · subst htu
      obtain ⟨call', hcall', _, hover⟩ := atWork_iff.mp hwork
      rw [List.getElem?_set_self (List.getElem?_eq_some_iff.mp hcall).1] at hcall'
      obtain rfl := Option.some.inj hcall'
      cases hover
    · rw [atWork_set htu] at hwork
      exact h u hwork hhist
  · have hopen := h u hwork hhist
    cases e with
    | advance n =>
      cases henv
      exact hopen
    | reap t =>
      cases henv
      refine mem_endTx_open.mpr ⟨hopen, ?_⟩
      rintro rfl
      have hidle : AtWork c u = false := hspared
      have hwork : AtWork c u = true := hwork
      rw [hidle] at hwork
      cases hwork

/-- **Every run that spares the calls at work** keeps their transactions open. -/
theorem run_begun {v : Env} {clock : Nat} {ls : List OutboxLabel}
    {P : OutboxConf → OutboxLabel → OutboxConf → Prop} (spares : ∀ c l d, P c l d → Spared c l d)
    (h : OutboxRunWhere v P (start clock) ls d) : Begun d := by
  induction h with
  | nil =>
    intro t hwork
    cases hwork
  | @snoc c d ls l hrun hstep hok ih =>
    have before := hrun.run.obeys (serve_guarded v)
    have after := (hrun.snoc hstep hok).run.obeys (serve_guarded v)
    exact ih.step before after hstep (spares _ _ _ hok)

end

/-! ## What has been acknowledged -/

/-- A statement of an open transaction that does not fail answers. -/
theorem exec_succeeds {db : Engine} {t : Nat} {ch : Choice} {s s' : Store} {q : Sql}
    {r : Option q.Res} (hf : ch.posting.fault = .none) (ht : t ∈ s.open_tx)
    (h : exec db t ch s (.sql q) = some (r, s')) : r ≠ none := by
  rintro rfl
  unfold exec at h
  rw [hf] at h
  cases q with
  | begin =>
    obtain ⟨hnot, _⟩ := run_begin h
    exact hnot ht
  | select_batch =>
    rcases run_select h with ⟨hnot, _⟩ | ⟨_, _, hr, _⟩
    · exact hnot ht
    · cases hr
  | mark_published id =>
    rcases run_mark h with ⟨hnot, _⟩ | ⟨_, _, hr, _⟩
    · exact hnot ht
    · cases hr
  | commit =>
    rcases run_commit h with ⟨hnot, _⟩ | ⟨_, hr, _⟩
    · exact hnot ht
    · cases hr
  | rollback =>
    obtain ⟨hr, _⟩ := run_rollback h
    cases hr

/-- The last operation of a call. -/
theorem Ended.last {h : List OutboxDone} {x : OutboxDone} (ended : Ended (h ++ [x])) :
    (∃ rows, h = progress rows rows ∧ x = ⟨.sql .commit, some ()⟩) ∨
    (h = [began, selected []] ∧ ∃ r, x = ⟨.sql .rollback, r⟩) ∨
    (∃ m e, x = ⟨Message.publish m, .error e⟩) ∨ ∃ q, x = ⟨.sql q, none⟩ := by
  generalize hl : h ++ [x] = l at ended
  cases ended with
  | committed rows =>
    obtain ⟨rfl, hx⟩ := List.append_inj' hl rfl
    exact .inl ⟨rows, rfl, (List.cons.inj hx).1⟩
  | nothing r =>
    have hl : h ++ [x] = [began, selected []] ++ [⟨.sql .rollback, r⟩] := hl
    obtain ⟨rfl, hx⟩ := List.append_inj' hl rfl
    exact .inr (.inl ⟨rfl, r, (List.cons.inj hx).1⟩)
  | refused done m rest e =>
    obtain ⟨_, hx⟩ := List.append_inj' hl rfl
    exact .inr (.inr (.inl ⟨m, e, (List.cons.inj hx).1⟩))
  | failed q due =>
    obtain ⟨_, hx⟩ := List.append_inj' hl rfl
    exact .inr (.inr (.inr ⟨q, (List.cons.inj hx).1⟩))

/-- No message of the batch has been acknowledged. -/
def NothingSent (h : List OutboxDone) : Prop := ∀ m, acknowledged m ∉ h

theorem not_acknowledged {h : List OutboxDone} {m : Message} {x : OutboxDone}
    (hm : acknowledged m ∈ h ++ [x]) (hx : acknowledged m ≠ x) : acknowledged m ∈ h := by
  rcases List.mem_append.mp hm with hm | hm
  · exact hm
  · exact absurd (List.mem_singleton.mp hm) hx

theorem selected_progress {rows rows' done : List Message}
    (h : selected rows' ∈ progress rows done) : rows' = rows := by
  rcases mem_progress.mp h with h | h | ⟨m, _, h | h⟩
  · cases (Done.mk.inj h).1
  · exact Option.some.inj (eq_of_heq (Done.mk.inj h).2)
  · cases (Done.mk.inj h).1
  · cases (Done.mk.inj h).1

/-- **A call that has ended** has published whatever it had acknowledged. -/
theorem ended_shows {db : Engine} {t : Nat} {ch : Choice} {w : OutboxWorld} {req : Request}
    {op : Op} {r : op.Res} {s' : Store} {m : Message} (kept : Kept w)
    (hbegun : history t w.log ≠ [] → t ∈ w.store.open_tx)
    (hexec : exec db t ch w.store op = some (r, s'))
    (hstatement : ∀ q, op = .sql q → ch.posting.fault = .none)
    (hpublish : ∀ m : Message, op = m.publish → ch.verdict = .ok () ∨ NothingSent (history t w.log))
    (ended : Ended (history t (w.push ⟨t, req, op, w.store, r, s'⟩).log))
    (hsent : Sent (history t (w.push ⟨t, req, op, w.store, r, s'⟩).log) m) : s'.Published m.id := by
  rw [history_push] at ended hsent
  obtain ⟨hack, rows', hrows', hm⟩ := hsent
  rcases ended.last with ⟨rows, hrows, hx⟩ | ⟨hh, r', hx⟩ | ⟨m', e, hx⟩ | ⟨q, hx⟩
  · -- The commit shows every row of the batch.
    obtain ⟨rfl, hr⟩ := Done.mk.inj hx
    cases hr
    have hselected : selected rows' ∈ progress rows rows := by
      rw [hrows] at hrows'
      rcases List.mem_append.mp hrows' with hrows' | hrows'
      · exact hrows'
      · cases List.mem_singleton.mp hrows'
    have hm : m ∈ rows := selected_progress hselected ▸ hm
    have hdone : marked m ∈ history t w.log := by
      rw [hrows]
      exact mem_progress.mpr (.inr (.inr ⟨m, hm, .inr rfl⟩))
    have hselected : selected rows ∈ history t w.log := by
      rw [hrows]
      exact mem_progress.mpr (.inr (.inl rfl))
    have hopen : t ∈ w.store.open_tx := hbegun (List.ne_nil_of_mem hdone)
    obtain ⟨micros, hmark⟩ := kept.updated t m hopen hdone
    rcases exec_sql hexec with ⟨hr, _⟩ | ⟨r', hrun, _⟩
    · cases hr
    · rcases run_commit hrun with ⟨hnot, _⟩ | ⟨_, _, rfl⟩
      · exact absurd hopen hnot
      · exact published_commit (kept.found t rows m hselected hm) hmark
  · rw [hh, hx] at hack
    simp only [List.cons_append, List.nil_append, List.mem_cons, List.not_mem_nil, or_false] at hack
    rcases hack with hack | hack | hack <;> cases (Done.mk.inj hack).1
  · -- The publisher refused a message, which it may only after no acknowledgement.
    obtain ⟨rfl, hr⟩ := Done.mk.inj hx
    cases hr
    obtain ⟨hverdict, _⟩ := exec_publish hexec
    rcases hpublish m' rfl with hok | hnothing
    · rw [hok] at hverdict
      cases hverdict
    · refine absurd (not_acknowledged hack ?_) (hnothing m)
      intro heq
      have hres : (Except.ok () : Except LedgerError Unit) = .error e :=
        eq_of_heq (Done.mk.inj heq).2
      cases hres
  · have hbefore : acknowledged m ∈ history t w.log := by
      apply not_acknowledged hack
      rw [hx]
      intro heq
      cases (Done.mk.inj heq).1
    obtain ⟨rfl, hr⟩ := Done.mk.inj hx
    cases hr
    exact absurd rfl (exec_succeeds (hstatement q rfl) (hbegun (List.ne_nil_of_mem hbefore)) hexec)

theorem Undisturbed.run {may_fail : List OutboxDone → Prop} {c d : OutboxConf} {t : Nat}
    {ch : Choice} {call : Call Request Op Op.Res LedgerError Response} {op : Op}
    {next : op.Res → Prog Op Op.Res LedgerError Response} (h : Undisturbed may_fail c (.run t ch) d)
    (hcall : c.pool[t]? = some call) (hprog : call.prog = .await op next) :
    (∀ q, op = .sql q → ch.posting.fault = .none) ∧
      ∀ m : Message, op = m.publish → ch.verdict = .ok () ∨ may_fail (history t c.world.log) := by
  have hawaited : awaited c t = some op := by
    rw [awaited, hcall, Option.bind_some, hprog]
  simp only [Undisturbed, hawaited] at h
  constructor
  · rintro q rfl
    exact h
  · rintro m rfl
    exact h

/-- A worker's call that is no longer at work has ended. -/
theorem ended_of_over {c : OutboxConf} (h : Obeys guards ends c) {t : Nat}
    {call : Call Request Op Op.Res LedgerError Response} (hcall : c.pool[t]? = some call)
    (hworker : call.req.of_worker = true) (hover : call.prog.finished = true) :
    Ended (history t c.world.log) := by
  have hguarded := h.guarded t call hcall
  cases hreq : call.req with
  | post_entry p =>
    rw [hreq] at hworker
    cases hworker
  | worker_turn n =>
    cases hprog : call.prog with
    | await op next =>
      rw [hprog] at hover
      cases hover
    | ret a =>
      rw [hprog, hreq] at hguarded
      exact hguarded
    | raise e =>
      rw [hprog, hreq] at hguarded
      exact hguarded

/-- **What has been acknowledged shows as published**, unless its call is at work. -/
def Shows (c : OutboxConf) : Prop :=
  ∀ t m, Sent (history t c.world.log) m → c.world.store.Published m.id ∨ AtWork c t = true

section

variable {c d : OutboxConf}

/-- An operation of a posting acknowledges nothing. -/
theorem sent_posting {h : List OutboxDone} {op : Ledger.Op} {r : op.Res} {m : Message}
    (hsent : Sent (h ++ [⟨.posting op, r⟩]) m) : Sent h m := by
  obtain ⟨hack, rows, hrows, hm⟩ := hsent
  refine ⟨not_acknowledged hack ?_, rows, ?_, hm⟩
  · intro heq
    cases (Done.mk.inj heq).1
  · rcases List.mem_append.mp hrows with hrows | hrows
    · exact hrows
    · cases (Done.mk.inj (List.mem_singleton.mp hrows)).1

/-- What an operation does to what its own call has acknowledged. -/
theorem Shows.own {v : Env} {t : Nat} {ch : Choice}
    {call : Call Request Op Op.Res LedgerError Response} {op : Op}
    {next : op.Res → Prog Op Op.Res LedgerError Response} {r : op.Res} {s' : Store} (h : Shows c)
    (kept : Kept c.world) (hbegun : Begun c) (hcall : c.pool[t]? = some call)
    (hdropped : call.dropped = false) (hprog : call.prog = .await op next)
    (hexec : (machine v.db).exec t ch c.world.store op = some (r, s'))
    (hd : d = ⟨c.world.push ⟨t, call.req, op, c.world.store, r, s'⟩,
      c.pool.set t { call with prog := next r }⟩)
    (hguard : guards call.req (history t c.world.log) op) (hobeys' : Obeys guards ends d)
    (hrun : Undisturbed NothingSent c (.run t ch) d) {m : Message}
    (hsent : Sent (history t d.world.log) m) :
    d.world.store.Published m.id ∨ AtWork d t = true := by
  have hcall' : d.pool[t]? = some { call with prog := next r } := by
    rw [hd]
    exact List.getElem?_set_self (List.getElem?_eq_some_iff.mp hcall).1
  cases hworker : call.req.of_worker with
  | false =>
    have hidle : AtWork c t ≠ true := by
      intro hwork
      obtain ⟨call', hcall', hworker', _⟩ := atWork_iff.mp hwork
      rw [hcall, Option.some.injEq] at hcall'
      rw [← hcall', hworker] at hworker'
      cases hworker'
    cases hreq : call.req with
    | worker_turn n =>
      rw [hreq] at hworker
      cases hworker
    | post_entry p =>
      rw [hreq] at hguard
      obtain ⟨op', rfl⟩ := hguard
      subst hd
      rw [history_push] at hsent
      have hexec : exec v.db t ch c.world.store (.posting op') = some (r, s') := hexec
      exact .inl ((exec_effect hexec).published ((h t m (sent_posting hsent)).resolve_right hidle))
  | true =>
    cases hfinished : (next r).finished with
    | false =>
      refine .inr (atWork_iff.mpr ⟨_, hcall', hworker, ?_⟩)
      rw [Call.over, hdropped, hfinished]
      rfl
    | true =>
      have ended := ended_of_over hobeys' hcall' hworker hfinished
      obtain ⟨hstatement, hpublish⟩ := hrun.run hcall hprog
      subst hd
      exact .inl (ended_shows kept (hbegun t (atWork_run hcall hdropped hprog hworker)) hexec
        hstatement hpublish ended hsent)

theorem Shows.step {v : Env} {l : OutboxLabel} (h : Shows c) (kept : Kept c.world)
    (hbegun : Begun c) (hobeys : Obeys guards ends c) (hobeys' : Obeys guards ends d)
    (hstep : Conc.step (machine v.db) (serve v) c l = some d)
    (hundisturbed : Undisturbed NothingSent c l d) : Shows d := by
  intro u m hsent
  rcases step_cases hstep with ⟨req, rfl, rfl⟩ |
    ⟨t, ch, call, op, next, r, s', rfl, hcall, hdropped, hprog, hexec, hd⟩ |
    ⟨t, call, rfl, hcall, rfl⟩ | ⟨e, s', rfl, henv, rfl⟩
  · refine (h u m hsent).imp_right fun hwork => ?_
    obtain ⟨call, hcall, hworker, hover⟩ := atWork_iff.mp hwork
    refine atWork_iff.mpr ⟨call, ?_, hworker, hover⟩
    rw [List.getElem?_append_left (List.getElem?_eq_some_iff.mp hcall).1]
    exact hcall
  · by_cases htu : t = u
    · subst htu
      exact h.own kept hbegun hcall hdropped hprog hexec hd (awaits_guard hobeys hcall hprog)
        hobeys' hundisturbed hsent
    · subst hd
      rw [World.push_log, history_append_other _ htu] at hsent
      rw [atWork_set htu]
      exact (h u m hsent).imp_left (exec_effect hexec).published
  · by_cases htu : t = u
    · subst htu
      refine .inl ((h t m hsent).resolve_right ?_)
      have hidle : AtWork c t = false := hundisturbed
      rw [hidle]
      exact Bool.false_ne_true
    · rw [atWork_set htu]
      exact h u m hsent
  · apply (h u m hsent).imp_left
    rintro ⟨row, hrow, hid, hset⟩
    exact ⟨row, (outside_frame henv).1 ▸ hrow, hid, hset⟩

end

/-! ## No message twice -/

/-- The key of a message names its entry. -/
theorem publish_inj {m m' : Message} (h : m.publish = m'.publish) : m.entry_id = m'.entry_id := by
  obtain ⟨_, hkey, _⟩ := Op.publish.inj h
  have hhex := String.ofList_injective hkey
  have hbytes : m.entry_id.bytes = m'.entry_id.bytes := by
    have hdecode := congrArg Hex.decode hhex
    rwa [Hex.decode_encode, Hex.decode_encode, Option.some.injEq] at hdecode
  cases hm : m.entry_id
  cases hm' : m'.entry_id
  rw [hm, hm'] at hbytes
  cases hbytes
  rfl

theorem acknowledged_congr {m m' : Message} (h : m.publish = m'.publish) :
    acknowledged m = acknowledged m' := by
  obtain ⟨htopic, hkey, hpayload⟩ := Op.publish.inj h
  show (⟨.publish m.topic _ m.payload_json, .ok ()⟩ : OutboxDone) = ⟨.publish m'.topic _ _, .ok ()⟩
  rw [htopic, hkey, hpayload]

/-- Messages of one table are told apart by what is handed over. -/
theorem message_unique {s : Store} (apart : Apart s.ledger.outbox) {m m' : Message}
    (hm : m ∈ s.messages) (hm' : m' ∈ s.messages) (h : m.publish = m'.publish) : m = m' := by
  obtain ⟨row, hrow, rfl⟩ := List.mem_map.mp hm
  obtain ⟨row', hrow', rfl⟩ := List.mem_map.mp hm'
  exact congrArg Message.of (List.inj_on_of_nodup_map apart.entry_ids hrow hrow' (publish_inj h))

section

variable {v : Env} {clock : Nat} {ls : List OutboxLabel} {c d : OutboxConf}

/-- A message that was handed over and acknowledged is one of its call's batch. -/
theorem sent_of_acknowledged (h : OutboxRun v (start clock) ls d) {e : OutboxEvent}
    (he : e ∈ d.world.log) {m : Message} (hdid : e.did = acknowledged m) :
    ∃ m', m'.publish = m.publish ∧ Sent (history e.tid d.world.log) m' := by
  obtain ⟨before, after, split⟩ := List.append_of_mem he
  have hguard := h.guard (serve_guarded v) split
  have hop : e.op = m.publish := (Done.mk.inj hdid).1
  rw [hop] at hguard
  cases hreq : e.req with
  | post_entry p =>
    rw [hreq] at hguard
    obtain ⟨op', hop'⟩ := hguard
    cases hop'
  | worker_turn n =>
    rw [hreq] at hguard
    obtain ⟨done, m', rest, hm', hh⟩ := Due.of_publish hguard
    refine ⟨m', hm', ?_, done ++ m' :: rest, ?_, by simp⟩
    · rw [acknowledged_congr hm']
      exact mem_history.mpr ⟨e, he, rfl, hdid⟩
    · have hselected : selected (done ++ m' :: rest) ∈ history e.tid before := by
        rw [hh]
        exact mem_progress.mpr (.inr (.inl rfl))
      obtain ⟨x, hx, hrest⟩ := mem_history.mp hselected
      refine mem_history.mpr ⟨x, ?_, hrest⟩
      rw [split]
      exact List.mem_append_left _ hx

/-- **What has been acknowledged** is not what a call is about to hand over. -/
theorem not_handed_again (h : OutboxRun v (start clock) ls c) (hbegun : Begun c)
    (hshows : Shows c) {t : Nat} {call : Call Request Op Op.Res LedgerError Response} {op : Op}
    {next : op.Res → Prog Op Op.Res LedgerError Response} (hcall : c.pool[t]? = some call)
    (hdropped : call.dropped = false) (hprog : call.prog = .await op next) {a : OutboxEvent}
    (ha : a ∈ c.world.log) {m : Message} (hdid : a.did = acknowledged m) : op ≠ m.publish := by
  rintro rfl
  have kept := run_kept h
  have apart := rows_apart h
  have hguard := awaits_guard (h.obeys (serve_guarded v)) hcall hprog
  cases hreq : call.req with
  | post_entry p =>
    rw [hreq] at hguard
    obtain ⟨op', hop⟩ := hguard
    cases hop
  | worker_turn n =>
    rw [hreq] at hguard
    obtain ⟨done, m', rest, hm', hh⟩ := Due.of_publish hguard
    obtain ⟨m₁, hm₁, hsent⟩ := sent_of_acknowledged h ha hdid
    have hselected : selected (done ++ m' :: rest) ∈ history t c.world.log := by
      rw [hh]
      exact mem_progress.mpr (.inr (.inl rfl))
    have hfound : m' ∈ c.world.store.messages := kept.found t _ m' hselected (by simp)
    obtain ⟨rows, hrows, hmem⟩ := hsent.2
    have hsame : m₁ = m' :=
      message_unique apart (kept.found a.tid rows m₁ hrows hmem) hfound (hm₁.trans hm'.symm)
    subst hsame
    by_cases htid : a.tid = t
    · -- The call itself would have to find the row twice in its batch.
      have hdone : m₁ ∈ done := by
        have hack := hsent.1
        rw [htid, hh] at hack
        rcases mem_progress.mp hack with hx | hx | ⟨x, hx, heq | heq⟩
        · cases (Done.mk.inj hx).1
        · cases (Done.mk.inj hx).1
        · have hx' : x ∈ c.world.store.messages :=
            kept.found t _ x hselected (List.mem_append_left _ hx)
          rwa [message_unique apart hfound hx' (Done.mk.inj heq).1]
        · cases (Done.mk.inj heq).1
      have hnodup := kept.distinct t _ hselected
      exact (List.nodup_append.mp hnodup).2.2 m₁ hdone m₁ List.mem_cons_self rfl
    · -- Two transactions would hold the row, or one a row that is published.
      have hwork : AtWork c t = true := atWork_run hcall hdropped hprog (by rw [hreq]; rfl)
      have hopen := hbegun t hwork (List.ne_nil_of_mem hselected)
      have hold := kept.held t _ m₁ hopen hselected (by simp)
      rcases hshows a.tid m₁ hsent with hpublished | hwork'
      · exact hold.unpublished hpublished
      · have hopen' := hbegun a.tid hwork' (List.ne_nil_of_mem hrows)
        exact htid ((kept.held a.tid rows m₁ hopen' hrows hmem).same hold kept.inv)

/-- Nothing is handed to the publisher after it has been acknowledged. -/
def HandedOnce (log : List OutboxEvent) : Prop :=
  log.Pairwise fun a b => ∀ m : Message, a.did = acknowledged m → b.op ≠ m.publish

/-- **Workers left alone** hand nothing over again. -/
theorem handed_once (h : OutboxRunWhere v (Undisturbed NothingSent) (start clock) ls d) :
    Shows d ∧ HandedOnce d.world.log := by
  induction h with
  | nil =>
    refine ⟨?_, .nil⟩
    rintro t m ⟨hack, _⟩
    cases hack
  | @snoc c d ls l hrun hstep hok ih =>
    obtain ⟨hshows, honce⟩ := ih
    have hbegun := run_begun (fun _ _ _ => Undisturbed.spared) hrun
    have before := hrun.run.obeys (serve_guarded v)
    have after := (hrun.snoc hstep hok).run.obeys (serve_guarded v)
    refine ⟨hshows.step (run_kept hrun.run) hbegun before after hstep hok, ?_⟩
    rcases step_cases hstep with ⟨req, _, rfl⟩ |
      ⟨t, ch, call, op, next, r, s', _, hcall, hdropped, hprog, _, rfl⟩ | ⟨t, call, _, _, rfl⟩ |
      ⟨e, s', _, _, rfl⟩
    · exact honce
    · refine List.pairwise_append.mpr ⟨honce, List.pairwise_singleton _ _, ?_⟩
      intro a ha b hb m hdid
      obtain rfl := List.mem_singleton.mp hb
      exact not_handed_again hrun.run hbegun hshows hcall hdropped hprog ha hdid
    · exact honce
    · exact honce

end

/-! ## Sample runs -/

/-- `Undisturbed`, computed. -/
def undisturbed (may_fail : List OutboxDone → Bool) (c : OutboxConf) : OutboxLabel → Bool
  | .run t ch =>
    match awaited c t with
    | some (.sql _) => ch.posting.fault = .none
    | some (.publish ..) => ch.verdict.isOk || may_fail (history t c.world.log)
    | _ => true
  | .drop t => !AtWork c t
  | .env (.reap t) => !AtWork c t
  | _ => true

theorem undisturbed_sound {test : List OutboxDone → Bool} {may_fail : List OutboxDone → Prop}
    (sound : ∀ h, test h = true → may_fail h) (c : OutboxConf) (l : OutboxLabel) (d : OutboxConf)
    (h : undisturbed test c l = true) : Undisturbed may_fail c l d := by
  cases l with
  | spawn req => trivial
  | drop t => exact (Bool.not_eq_true' _).mp h
  | env e =>
    cases e with
    | advance n => trivial
    | reap t => exact (Bool.not_eq_true' _).mp h
  | run t ch =>
    simp only [undisturbed, Undisturbed] at h ⊢
    split
    · next hq =>
      rw [hq] at h
      exact of_decide_eq_true h
    · next hp =>
      rw [hp] at h
      rcases (Bool.or_eq_true _ _).mp h with hok | hfail
      · refine .inl ?_
        cases hverdict : ch.verdict with
        | ok u => rfl
        | error e =>
          rw [hverdict] at hok
          cases hok
      · exact .inr (sound _ hfail)
    · trivial

/-- Call `t` posts the sample payment under a key, with UUIDs counted from `uuid`. -/
def post (t : Nat) (key : String) (uuid : Nat) : List OutboxLabel :=
  .spawn (.post_entry (payment key)) ::
    (List.range 7).map fun k => .run t { posting := { uuid := .low (UInt8.ofNat (uuid + k)) } }

/-- The outbox row of that posting. -/
def posted_row (key : String) (uuid : Nat) : OutboxRow where
  id := .low (UInt8.ofNat (uuid + 4))
  entry_id := .low (UInt8.ofNat uuid)
  topic := "kova.ledger.entry.created"
  payload_json := (payment key).outbox_payload (.low (UInt8.ofNat uuid))
  created_at := 0
  published_at := none

/-- Call `t` executes `n` operations of a worker. -/
def work (t n : Nat) (rows : List OutboxRow) : List OutboxLabel :=
  List.replicate n (.run t { rows })

end Kova.Ledger.Outbox

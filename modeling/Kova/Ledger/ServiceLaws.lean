import Kova.Ledger.PostingLaws

/-!
# The service, soundly

Every run of the service keeps the database's invariant, and every call that has returned has
its `Answer` (`service_sound`, `returned_answer`). Along a run the committed entries only grow,
and an operation executed later saw at least what was committed earlier (`Grows`).
-/

namespace Kova.Ledger

open Conc

variable {v : Env} {t : Nat}

/-- What a returned result says: a posting its `Outcome`, a reading that it was read at once. -/
def Answer (v : Env) (t : Nat) :
    Request → Except LedgerError Response → LedgerWorld → Prop
  | .post_entry p, r, w => ∃ r', r = r'.map .posted ∧ Outcome v p t r' w
  | req, r, w => AtOnce v.db t (serve v req) r w

/-- A number that no call has yet: no operation, no transaction. -/
def Idle (t : Nat) (w : LedgerWorld) : Prop := w.own t = [] ∧ w.store.view t = none

/-! ## The programs of the readers -/

/-- A balance is refused for an unknown currency, and otherwise one SELECT. -/
theorem serve_get_balance (account_id : Uuid) (currency : String) :
    (SUPPORTED_CURRENCIES.contains currency = false ∧
      serve v (.get_balance account_id currency) =
        .raise (.InvalidArgument ("unsupported currency: " ++ currency))) ∨
    (SUPPORTED_CURRENCIES.contains currency = true ∧
      serve v (.get_balance account_id currency) =
        sql (.select_balance account_id currency) >>= fun row => .ret (.balance row.result)) := by
  cases hc : SUPPORTED_CURRENCIES.contains currency with
  | false =>
    refine .inl ⟨rfl, ?_⟩
    simp only [serve, get_balance, hc]
    rfl
  | true =>
    refine .inr ⟨rfl, ?_⟩
    simp only [serve, get_balance, hc, Bool.not_true, Bool.false_eq_true, ↓reduceIte,
      Prog.bind_assoc]
    rfl

/-- The answer made of the rows of a page. -/
def statement_response (v : Env) (limit : Nat) (rows : List EntryRow) : Async Response :=
  match statement_page v.json_text limit rows with
  | some page => .ret (.statement page)
  | none => .raise (.Database .column_decode)

/-- A page is refused for its limit or its cursor, and otherwise one SELECT. -/
theorem serve_get_statement (f : StatementFilter) (cursor : Option String) (limit : UInt32) :
    (∃ e, serve v (.get_statement f cursor limit) = .raise e) ∨
    (0 < limit.toNat ∧ limit.toNat ≤ 100 ∧ ∃ place, read_cursor cursor = .ret place ∧
      serve v (.get_statement f cursor limit) =
        sql (.select_statement (f.query place (limit.toNat + 1))) >>=
          statement_response v limit.toNat) := by
  by_cases hlimit : limit = 0 ∨ limit > 100
  · refine .inl ⟨.InvalidArgument "limit must be between 1 and 100", ?_⟩
    simp only [serve, get_statement, hlimit, ↓reduceIte]
    rfl
  · have bounds : 0 < limit.toNat ∧ limit.toNat ≤ 100 := by
      obtain ⟨hzero, hbig⟩ := not_or.mp hlimit
      have hle := UInt32.le_iff_toNat_le.mp (UInt32.not_lt.mp hbig)
      exact ⟨Nat.pos_of_ne_zero fun h => hzero (UInt32.toNat_inj.mp h), hle⟩
    have fetch : (limit + 1).toNat = limit.toNat + 1 := by
      rw [UInt32.toNat_add]
      show (limit.toNat + 1) % 2 ^ 32 = _
      omega
    cases hc : read_cursor cursor with
    | ret place =>
      refine .inr ⟨bounds.1, bounds.2, place, rfl, ?_⟩
      simp only [serve, get_statement, hlimit, ↓reduceIte, hc, Prog.ret_bind, Prog.bind_assoc]
      rw [fetch]
      refine congrArg (sql _ >>= ·) (funext fun rows => ?_)
      unfold statement_response
      cases statement_page v.json_text limit.toNat rows <;> rfl
    | raise e =>
      refine .inl ⟨e, ?_⟩
      simp only [serve, get_statement, hlimit, ↓reduceIte, hc]
      rfl
    | await op next =>
      unfold read_cursor at hc
      split at hc
      · cases hc
      · split at hc <;> cases hc

/-! ## Soundness -/

/-- **Every call of the service is safe** from its arrival on. -/
theorem serve_safe (req : Request) {w : LedgerWorld} (h : Idle t w) :
    Safe (machine v.db) .all (terms v.db) t req (Answer v t req) (serve v req) w := by
  have fails : ∀ (e : LedgerError) (w' : LedgerWorld), AtOnce v.db t (serve v req) (.error e) w' :=
    fun e w' a ha => by cases ha
  cases req with
  | post_entry p =>
    have stage : Stage t [] none w :=
      ⟨fun e he => absurd (h.1 ▸ he) List.not_mem_nil, .inl h.2, fun _ hid => nomatch hid⟩
    refine (post_entry_safe stage).bind (protocol v.db) (fun e w' hout => ⟨.error e, rfl, hout⟩)
      fun r w' _ hout => safe_ret fun w'' hr _ => ⟨.ok r, rfl, hout.rely hr⟩
  | get_balance account_id currency =>
    show Safe _ _ _ _ _ (AtOnce v.db t (serve v _)) _ _
    rcases serve_get_balance (v := v) account_id currency with ⟨_, heq⟩ | ⟨_, heq⟩
    · rw [heq] at fails ⊢
      exact safe_raise fun w' _ _ => fails _ w'
    · rw [heq]
      exact read_safe (fun s => ⟨_, rfl⟩) (fun _ => rfl) h.1
  | get_statement f cursor limit =>
    show Safe _ _ _ _ _ (AtOnce v.db t (serve v _)) _ _
    rcases serve_get_statement (v := v) f cursor limit with ⟨e, heq⟩ | ⟨_, _, place, _, heq⟩
    · rw [heq] at fails ⊢
      exact safe_raise fun w' _ _ => fails _ w'
    · rw [heq]
      refine read_safe (fun s => ⟨_, rfl⟩) (fun rows => ?_) h.1
      unfold statement_response
      cases statement_page v.json_text limit.toNat rows <;> rfl

/-- The service before its first call is sound. -/
theorem start_sound (v : Env) (clock : Nat) :
    Sound (machine v.db) .all (terms v.db) (Answer v) Idle (start clock) :=
  ⟨inv_empty clock, fun t call ht => by simp [start, Conf.init] at ht, fun t _ => ⟨rfl, rfl⟩⟩

/-- **Every run of the service is sound.** -/
theorem service_sound {clock : Nat} {ls : List LedgerLabel} {c : LedgerConf}
    (h : LedgerRun v (start clock) ls c) :
    Sound (machine v.db) .all (terms v.db) (Answer v) Idle c :=
  h.sound (protocol v.db) (fun _ req _ _ _ hidle => serve_safe req hidle)
    (fun _ _ _ hr hidle => ⟨hr.1.own.trans hidle.1, hr.2.view_none hidle.2⟩) (start_sound v clock)

/-- What a call has returned is its answer. -/
theorem returned_answer {clock : Nat} {ls : List LedgerLabel} {c : LedgerConf}
    (h : LedgerRun v (start clock) ls c) {req : Request} {r : Except LedgerError Response}
    (hr : c.returned t req r) : Answer v t req r c.world := by
  obtain ⟨call, hcall, rfl, hres⟩ := hr
  exact (service_sound h).result (protocol v.db) hcall hres

/-- The service passes on the result of a posting as it is. -/
theorem posted_inj {r r' : Except LedgerError PostEntryResult}
    (h : r.map Response.posted = r'.map .posted) : r = r' := by
  cases r <;> cases r' <;> cases h <;> rfl

/-- The result of a posting that the service returned. -/
theorem posted_outcome {clock : Nat} {ls : List LedgerLabel} {c : LedgerConf}
    (h : LedgerRun v (start clock) ls c) {p : PostEntryParams} {r : PostEntryResult}
    (hr : c.returned t (.post_entry p) (.ok (.posted r))) : Outcome v p t (.ok r) c.world := by
  obtain ⟨r', heq, hout⟩ := returned_answer h hr
  obtain rfl := posted_inj (r := .ok r) heq
  exact hout

/-- The entry that an Ok names. -/
theorem Outcome.entry {p : PostEntryParams} {r : PostEntryResult} {w : LedgerWorld}
    (h : Outcome v p t (.ok r) w) :
    ∃ row ∈ w.store.entries, row.id = r.entry_id ∧
      v.db.same row.idempotency_key p.idempotency_key ∧
        row.payload_hash = some (p.payload_hash v.sha256_hex) := by
  obtain ⟨row, hid, h⟩ := h
  split at h
  · exact ⟨row, h.2.mem, hid, h.2.key, h.2.hash⟩
  · obtain ⟨created_at, hvalues⟩ := h.values
    have row_of := (values_row hvalues).2
    exact ⟨row, h.mem, hid, Collation.same_symm row_of.key, row_of.hash⟩

/-- The invariant held whenever an operation executed. -/
theorem log_inv {clock : Nat} {ls : List LedgerLabel} {c : LedgerConf}
    (h : LedgerRun v (start clock) ls c) :
    ∀ e ∈ c.world.log, Inv v.db e.pre ∧ Inv v.db e.post := by
  induction h with
  | nil =>
    exact fun e he => absurd he List.not_mem_nil
  | @snoc d e ls l hrun hok hstep ih =>
    have before : Inv v.db d.world.store := (service_sound hrun).inv
    have after : Inv v.db e.world.store := (service_sound (hrun.snoc hok hstep)).inv
    rcases step_cases hstep with ⟨req, _, rfl⟩ | ⟨t, ch, call, op, next, r, s, _, _, _, _, _, rfl⟩ |
      ⟨t, call, _, _, rfl⟩ | ⟨e, s, _, _, rfl⟩
    · exact ih
    · intro x hx
      rcases List.mem_append.mp hx with hx | hx
      · exact ih x hx
      · obtain rfl := List.mem_singleton.mp hx
        exact ⟨before, after⟩
    · exact ih
    · exact ih

/-! ## Growth -/

/-- From `c` to `d` the committed entries grew, and whatever executed in between saw at least
those of `c` and left at most those of `d`. -/
structure Grows (c d : LedgerConf) : Prop where
  entries : c.world.store.entries <+: d.world.store.entries
  log : ∃ new, d.world.log = c.world.log ++ new ∧ ∀ e ∈ new,
    c.world.store.entries <+: e.pre.entries ∧ e.pre.entries <+: d.world.store.entries

theorem exec_grows {ch : Choice} {s s' : Store} {op : Op} {r : op.Res}
    (h : exec v.db t ch s op = some (r, s')) : s.entries <+: s'.entries :=
  (exec_keeps (Nat.succ_ne_self t) h).entries

/-- **The committed entries only grow.** -/
theorem run_grows {c d : LedgerConf} {ls : List LedgerLabel} (h : LedgerRun v c ls d) :
    Grows c d := by
  induction h with
  | nil => exact ⟨List.prefix_rfl, [], by simp, by simp⟩
  | @snoc d e ls l _ _ hstep ih =>
    obtain ⟨hentries, new, hlog, hnew⟩ := ih
    rcases step_cases hstep with ⟨req, _, rfl⟩ |
      ⟨t, ch, call, op, next, r, s, _, _, _, _, hexec, rfl⟩ | ⟨t, call, _, _, rfl⟩ |
      ⟨e, s, _, henv, rfl⟩
    · exact ⟨hentries, new, hlog, hnew⟩
    · have grown := exec_grows hexec
      refine ⟨hentries.trans grown, new ++ [⟨t, call.req, op, d.world.store, r, s⟩], ?_, ?_⟩
      · rw [World.push_log, hlog, List.append_assoc]
      · intro x hx
        rcases List.mem_append.mp hx with hx | hx
        · exact ⟨(hnew x hx).1, (hnew x hx).2.trans grown⟩
        · obtain rfl := List.mem_singleton.mp hx
          exact ⟨hentries, grown⟩
    · exact ⟨hentries, new, hlog, hnew⟩
    · have grown := (outside_keeps henv 0).entries
      exact ⟨hentries.trans grown, new, hlog, fun x hx => ⟨(hnew x hx).1, (hnew x hx).2.trans grown⟩⟩

/-- What a call does that arrived after `c`, it does on a store that has the entries of `c`. -/
theorem late_event {clock : Nat} {ls ms : List LedgerLabel} {c d : LedgerConf}
    (hc : LedgerRun v (start clock) ls c) (hd : LedgerRun v c ms d) (harrived : c.pool.length ≤ t)
    {e : Event Store Request Op Op.Res} (he : e ∈ d.world.log) (htid : e.tid = t) :
    c.world.store.entries <+: e.pre.entries ∧ e.pre.entries <+: d.world.store.entries := by
  obtain ⟨_, new, hsplit, hnew⟩ := run_grows hd
  rw [hsplit] at he
  rcases List.mem_append.mp he with hold | hlater
  · -- before `c` the call had executed nothing
    have hown : e ∈ c.world.own t := World.mem_own.mpr ⟨hold, htid⟩
    rw [((service_sound hc).idle t harrived).1] at hown
    cases hown
  · exact hnew e hlater

/-- **A reading has a moment**: a call that arrived after `c` and returned by `d` answered from
the store of one moment between them. -/
theorem read_moment {clock : Nat} {ls ms : List LedgerLabel} {c d : LedgerConf}
    (hc : LedgerRun v (start clock) ls c) (hd : LedgerRun v c ms d) (harrived : c.pool.length ≤ t)
    {req : Request} (hreq : ∀ p, req ≠ .post_entry p) {resp : Response}
    (hr : d.returned t req (.ok resp)) :
    ∃ e, d.world.own t = [e] ∧ Inv v.db e.pre ∧
      c.world.store.entries <+: e.pre.entries ∧ e.pre.entries <+: d.world.store.entries ∧
      (machine v.db).alone t {} (serve v req) e.pre = some (.ok resp, e.pre) := by
  have answer : AtOnce v.db t (serve v req) (.ok resp) d.world := by
    have := returned_answer (hc.append hd) hr
    cases req with
    | post_entry p => exact absurd rfl (hreq p)
    | get_balance account_id currency => exact this
    | get_statement f cursor limit => exact this
  obtain ⟨e, hown, _, halone⟩ := answer resp rfl
  have he : e ∈ d.world.own t := hown ▸ List.mem_singleton_self e
  obtain ⟨hlog, htid⟩ := World.mem_own.mp he
  obtain ⟨hbefore, hafter⟩ := late_event hc hd harrived hlog htid
  exact ⟨e, hown, (log_inv (hc.append hd) e hlog).1, hbefore, hafter, halone⟩

end Kova.Ledger

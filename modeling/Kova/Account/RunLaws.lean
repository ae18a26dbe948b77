import Kova.Account.HandlerLaws
import Kova.Account.StoreLaws
import Kova.Ledger.ServiceLaws

/-!
# Accounts over a run

What holds of the table of accounts in every run of kova-account, whatever the calls are and
however they interleave. The compensation of `create_account` deletes a row, and the UPDATE of
`close_account` has no condition, so neither statement says by itself which rows it can meet:

- `run_sound`: a row whose identifier was generated in the run is still pending, because a call
  closes only what it has read as open (`Sound`);
- `event_stays`: so a row that is not pending is never removed, and stays the same account.
-/

set_option autoImplicit false

namespace Kova.Account

open Conc Ledger

variable {env : Env} {table : Table env} {clock : Nat} {ls : List AccountLabel} {d : AccountConf}

/-- The identifier was generated in the run. -/
def Fresh (log : List AccountEvent) (x : Uuid) : Prop := ∃ e ∈ log, e.did = ⟨.now_v7, x⟩

/-- What holds of the table at any moment of a run. -/
structure Sound (c : AccountConf) : Prop where
  valid : Valid c.world.store.accounts
  known : ∀ r ∈ c.world.store.accounts, r.id ∈ c.world.store.minted
  generated : ∀ x, Fresh c.world.log x → x ∈ c.world.store.minted
  pending : ∀ r ∈ c.world.store.accounts, Fresh c.world.log r.id → r.status = .PendingKYC
  seen : ∀ e ∈ c.world.log, ∀ r ∈ e.pre.accounts, r.status ≠ .PendingKYC →
    r.id ∈ c.world.store.minted ∧ ¬ Fresh c.world.log r.id

theorem sound_start (table : Table env) (clock : Nat) : Sound (start table clock) where
  valid := table.valid
  known r hr := List.mem_map_of_mem hr
  generated x hx := by
    obtain ⟨e, he, _⟩ := hx
    cases he
  pending r _ hx := by
    obtain ⟨e, he, _⟩ := hx
    cases he
  seen e he := by cases he

theorem fresh_append {log : List AccountEvent} {e : AccountEvent} {x : Uuid} :
    Fresh (log ++ [e]) x ↔ Fresh log x ∨ e.did = ⟨.now_v7, x⟩ := by
  unfold Fresh
  simp only [List.mem_append, List.mem_singleton, or_and_right, exists_or, exists_eq_left]

/-- The row of an account that a call has read as open. -/
theorem open_read (h : AccountRun env (start table clock) ls d) {before after : List AccountEvent}
    {e : AccountEvent} (split : d.world.log = before ++ e :: after) {t : Nat} {text : String}
    (hread : ReadOpen (history t before) text) {x : Uuid} (hx : Uuid.UUID_TO_BIN text = some x) :
    ∃ a ∈ before, Precedes d.world.log a e ∧ a.tid = t ∧
      ∃ r ∈ a.pre.accounts, r.id = x ∧ r.status.closable = true := by
  obtain ⟨user_id, row, status, hread, htext, closable⟩ := hread
  obtain ⟨a, ha, htid, hdid, hprec⟩ := event_of_history after e hread
  rw [← split] at hprec
  obtain ⟨_, _, _, hexec⟩ := h.did hprec.left hdid
  obtain ⟨r, hr, hid, _, rfl⟩ := exec_to_close (t := a.tid) hexec
  refine ⟨a, ha, hprec, htid, r, hr, Option.some.inj (hid.symm.trans hx), ?_⟩
  rwa [AccountStatus.text_injective htext]

/-- The call of a closing UPDATE had read the account as open. -/
theorem closing_read (h : AccountRun env (start table clock) ls d) {before after : List AccountEvent}
    {e : AccountEvent} (split : d.world.log = before ++ e :: after) {closed_at : DateTime}
    {text : String} (hop : e.op = .sql (.update_closed closed_at text)) :
    ReadOpen (history e.tid before) text := by
  have hguard := h.guard (serve_guarded env) split
  rw [hop] at hguard
  exact hguard.2.read

theorem AccountStatus.closable_ne_pending {s : AccountStatus} (h : s.closable = true) :
    s ≠ .PendingKYC := by
  rintro rfl
  cases h

section Step

variable {c : AccountConf} {e : AccountEvent}

/-- The rows of the next table are known: an inserted row's identifier was generated by its call. -/
theorem Sound.known_next (sound : Sound c)
    (hchange : AccountsChange env c.world.store e.op e.post.accounts)
    (hguard : guard e.req (history e.tid c.world.log) e.op)
    (grown : c.world.store.minted ⊆ e.post.minted) :
    ∀ r ∈ e.post.accounts, r.id ∈ e.post.minted := by
  intro r hr
  generalize e.post.accounts = l at hchange hr
  generalize e.op = op at hchange hguard
  cases hchange with
  | same => exact grown (sound.known r hr)
  | inserted values =>
    rcases List.mem_append.mp hr with hr | hr
    · exact grown (sound.known r hr)
    · obtain rfl := List.mem_singleton.mp hr
      obtain ⟨x, hnow, rfl⟩ := hguard
      have hid := (inserted_row_spec values).1
      rw [Uuid.UUID_TO_BIN_to_string, Option.some.injEq] at hid
      obtain ⟨e, he, _, hdid⟩ := mem_history.mp hnow
      exact grown (sound.generated _ ⟨e, he, hid ▸ hdid⟩)
  | deleted => exact grown (sound.known r (List.mem_of_mem_filter hr))
  | closed =>
    obtain ⟨r₀, hr₀, rfl⟩ := List.mem_map.mp hr
    rw [AccountRow.closed_by_id]
    exact grown (sound.known r₀ hr₀)

/-- A row of the next table that was generated in the run is pending: what a call closes it has read
as open, so it was not generated in the run. -/
theorem Sound.pending_next (sound : Sound c)
    (hchange : AccountsChange env c.world.store e.op e.post.accounts)
    (still : ∀ x ∈ c.world.store.minted, Fresh (c.world.push e).log x → Fresh c.world.log x)
    (opened : ∀ closed_at text x, e.op = .sql (.update_closed closed_at text) →
      Uuid.UUID_TO_BIN text = some x →
        ∃ a ∈ c.world.log, ∃ r ∈ a.pre.accounts, r.id = x ∧ r.status.closable = true) :
    ∀ r ∈ e.post.accounts, Fresh (c.world.push e).log r.id → r.status = .PendingKYC := by
  intro r hr hfresh
  generalize e.post.accounts = l at hchange hr
  generalize hop : e.op = op at hchange opened
  cases hchange with
  | same => exact sound.pending r hr (still _ (sound.known r hr) hfresh)
  | inserted values =>
    rcases List.mem_append.mp hr with hr | hr
    · exact sound.pending r hr (still _ (sound.known r hr) hfresh)
    · obtain rfl := List.mem_singleton.mp hr
      exact (inserted_row_spec values).2.1
  | deleted =>
    have hr := List.mem_of_mem_filter hr
    exact sound.pending r hr (still _ (sound.known r hr) hfresh)
  | @closed closed_at text x parsed =>
    obtain ⟨r₀, hr₀, rfl⟩ := List.mem_map.mp hr
    rw [AccountRow.closed_by_id] at hfresh
    have old := still _ (sound.known r₀ hr₀) hfresh
    by_cases hid : r₀.id = x
    · obtain ⟨a, ha, r₁, hr₁, hid₁, closable⟩ := opened closed_at text x rfl parsed
      have seen := sound.seen a ha r₁ hr₁ (AccountStatus.closable_ne_pending closable)
      exact absurd (hid.trans hid₁.symm ▸ old) seen.2
    · rw [AccountRow.closed_by, if_neg hid]
      exact sound.pending r₀ hr₀ old

end Step

/-- **At every moment of a run** the table is sound. -/
theorem run_sound (h : AccountRun env (start table clock) ls d) : Sound d := by
  induction h with
  | nil => exact sound_start table clock
  | @snoc c d ls l hrun hok hstep ih =>
    have hwhole := hrun.snoc hok hstep
    rcases step_cases hstep with ⟨req, _, rfl⟩ |
      ⟨t, ch, call, op, next, r, s', rfl, _, _, _, hexec, rfl⟩ | ⟨t, call, _, _, rfl⟩ |
      ⟨o, s', _, henv, rfl⟩
    · exact ⟨ih.valid, ih.known, ih.generated, ih.pending, ih.seen⟩
    · have hguard := hwhole.guard (serve_guarded env) (World.push_log _ _)
      have grown : c.world.store.minted ⊆ s'.minted := exec_minted hexec
      -- An identifier that is known is not generated now.
      have still : ∀ x ∈ c.world.store.minted,
          Fresh (c.world.push ⟨t, call.req, op, c.world.store, r, s'⟩).log x →
            Fresh c.world.log x := by
        intro x hx hfresh
        rcases fresh_append.mp hfresh with hfresh | hnow
        · exact hfresh
        · cases hnow
          exact absurd hx (@exec_now_v7 env t ch _ _ _ hexec).1
      have generated : ∀ x, Fresh (c.world.push ⟨t, call.req, op, c.world.store, r, s'⟩).log x →
          x ∈ s'.minted := by
        intro x hfresh
        rcases fresh_append.mp hfresh with hfresh | hnow
        · exact grown (ih.generated x hfresh)
        · cases hnow
          rw [(@exec_now_v7 env t ch _ _ _ hexec).2]
          exact List.mem_cons_self
      have hchange := exec_accounts hexec
      refine ⟨hchange.valid ih.valid, ih.known_next hchange hguard grown, generated,
        ih.pending_next hchange still ?_, ?_⟩
      · intro closed_at text x hop parsed
        obtain ⟨a, ha, _, _, r₁, hr₁, hid₁, closable⟩ :=
          open_read hwhole (World.push_log _ _) (closing_read hwhole (World.push_log _ _) hop)
            parsed
        exact ⟨a, ha, r₁, hr₁, hid₁, closable⟩
      · intro e he r' hr' hstatus
        rcases List.mem_append.mp he with he | he
        · obtain ⟨hknown, hold⟩ := ih.seen e he r' hr' hstatus
          exact ⟨grown hknown, fun hfresh => hold (still _ hknown hfresh)⟩
        · obtain rfl := List.mem_singleton.mp he
          have hknown := ih.known r' hr'
          exact ⟨grown hknown, fun hfresh =>
            hstatus (ih.pending r' hr' (still _ hknown hfresh))⟩
    · exact ⟨ih.valid, ih.known, ih.generated, ih.pending, ih.seen⟩
    · rcases outside_cases henv with ⟨_, _, rfl⟩ | ⟨_, _, _, _, rfl⟩
      · exact ⟨ih.valid, ih.known, ih.generated, ih.pending, ih.seen⟩
      · exact ⟨ih.valid, ih.known, ih.generated, ih.pending, ih.seen⟩

/-- **Where an event was executed** the table was sound. -/
theorem event_sound (h : AccountRun env (start table clock) ls d) {before after : List AccountEvent}
    {e : AccountEvent} (split : d.world.log = before ++ e :: after) :
    ∃ c : AccountConf, c.world = ⟨e.pre, before⟩ ∧ Sound c := by
  obtain ⟨_, c, hrun, hworld, _⟩ := h.at_event (List.nil_append _).symm split
  exact ⟨c, hworld, run_sound hrun⟩

theorem event_valid (h : AccountRun env (start table clock) ls d) {e : AccountEvent}
    (he : e ∈ d.world.log) : Valid e.pre.accounts := by
  obtain ⟨before, after, split⟩ := List.append_of_mem he
  obtain ⟨c, hworld, hsound⟩ := event_sound h split
  have hvalid := hsound.valid
  rwa [hworld] at hvalid

/-- A row that is deleted is pending. -/
theorem deletes_pending (h : AccountRun env (start table clock) ls d) {e : AccountEvent}
    (he : e ∈ d.world.log) {text : String} (hop : e.op = .sql (.delete_account text))
    {r : AccountRow} (hr : r ∈ e.pre.accounts) (hid : Uuid.UUID_TO_BIN text = some r.id) :
    r.status = .PendingKYC := by
  obtain ⟨before, after, split⟩ := List.append_of_mem he
  have hguard := h.guard (serve_guarded env) split
  rw [hop] at hguard
  obtain ⟨x, hnow, rfl⟩ := hguard
  rw [Uuid.UUID_TO_BIN_to_string, Option.some.injEq] at hid
  obtain ⟨a, ha, _, hdid, _⟩ := event_of_history after e hnow
  obtain ⟨c, hworld, hsound⟩ := event_sound h split
  have hpending := hsound.pending r
  rw [hworld] at hpending
  exact hpending hr ⟨a, ha, hid ▸ hdid⟩

/-! ## Rows stay -/

/-- The same account: nothing but a closure has changed it. -/
inductive AccountRow.Becomes (r : AccountRow) : AccountRow → Prop
  | same : r.Becomes r
  | closed (closed_at : DateTime) : r.Becomes (r.close closed_at)

theorem AccountRow.Becomes.id_eq {r r' : AccountRow} (h : r.Becomes r') : r'.id = r.id := by
  cases h <;> rfl

theorem AccountRow.Becomes.currency_eq {r r' : AccountRow} (h : r.Becomes r') :
    r'.currency = r.currency := by
  cases h <;> rfl

theorem AccountRow.Becomes.not_pending {r r' : AccountRow} (h : r.Becomes r')
    (hr : r.status ≠ .PendingKYC) : r'.status ≠ .PendingKYC := by
  cases h with
  | same => exact hr
  | closed => exact nofun

theorem AccountRow.Becomes.trans {r r' r'' : AccountRow} (h : r.Becomes r') (h' : r'.Becomes r'') :
    r.Becomes r'' := by
  cases h' with
  | same => exact h
  | closed closed_at =>
    have same : r'.close closed_at = r.close closed_at := by
      cases h <;> rfl
    rw [same]
    exact .closed closed_at

/-- Rows that are not pending stay. -/
def Stays (s s' : Store) : Prop :=
  ∀ r ∈ s.accounts, r.status ≠ .PendingKYC → ∃ r' ∈ s'.accounts, r.Becomes r'

theorem Stays.refl (s : Store) : Stays s s := fun r hr _ => ⟨r, hr, .same⟩

theorem Stays.trans {s s' s'' : Store} (h : Stays s s') (h' : Stays s' s'') : Stays s s'' := by
  intro r hr hopen
  obtain ⟨r', hr', hb⟩ := h r hr hopen
  obtain ⟨r'', hr'', hb'⟩ := h' r' hr' (hb.not_pending hopen)
  exact ⟨r'', hr'', hb.trans hb'⟩

/-- **One event** removes no row that is not pending. -/
theorem event_stays (h : AccountRun env (start table clock) ls d) {e : AccountEvent}
    (he : e ∈ d.world.log) : Stays e.pre e.post := by
  obtain ⟨_, _, _, hexec⟩ := h.executed he
  have hchange := exec_accounts hexec
  generalize hop : e.op = op at hchange
  intro r hr hopen
  generalize e.post.accounts = l at hchange
  cases hchange with
  | same => exact ⟨r, hr, .same⟩
  | inserted => exact ⟨r, List.mem_append_left _ hr, .same⟩
  | @deleted text x parsed =>
    refine ⟨r, List.mem_filter.mpr ⟨hr, bne_iff_ne.mpr ?_⟩, .same⟩
    rintro rfl
    exact hopen (deletes_pending h he hop hr parsed)
  | @closed closed_at _ x _ =>
    refine ⟨r.closed_by x closed_at, List.mem_map_of_mem hr, ?_⟩
    unfold AccountRow.closed_by
    split
    · exact .closed closed_at
    · exact .same

/-- What stays between two events. -/
theorem stays_between (h : AccountRun env (start table clock) ls d) {a b : AccountEvent}
    (hprec : Precedes d.world.log a b) : Stays a.pre b.pre := by
  refine (event_stays h hprec.left).trans (h.along_between Stays.refl Stays.trans ?_ ?_ hprec)
  · intro o s s' henv r hr _
    exact ⟨r, outside_accounts henv ▸ hr, .same⟩
  · intro e he
    exact event_stays h he

/-- **The row of an account that was read as open** is still there. -/
theorem read_row (h : AccountRun env (start table clock) ls d) {before after : List AccountEvent}
    {e : AccountEvent} (split : d.world.log = before ++ e :: after) {t : Nat} {text : String}
    (hread : ReadOpen (history t before) text) {x : Uuid} (hx : Uuid.UUID_TO_BIN text = some x) :
    ∃ r ∈ e.pre.accounts, r.id = x ∧ r.status ≠ .PendingKYC := by
  obtain ⟨a, _, hprec, _, r, hr, hid, closable⟩ := open_read h split hread hx
  have hopen := AccountStatus.closable_ne_pending closable
  obtain ⟨r', hr', hb⟩ := stays_between h hprec r hr hopen
  exact ⟨r', hr', hb.id_eq.trans hid, hb.not_pending hopen⟩

/-- An UPDATE that closes an account finds its row. -/
theorem closing_row (h : AccountRun env (start table clock) ls d) {e : AccountEvent}
    (he : e ∈ d.world.log) {closed_at : DateTime} {text : String}
    (hop : e.op = .sql (.update_closed closed_at text)) {x : Uuid}
    (hx : Uuid.UUID_TO_BIN text = some x) : ∃ r ∈ e.pre.accounts, r.id = x := by
  obtain ⟨before, after, split⟩ := List.append_of_mem he
  obtain ⟨r, hr, hid, _⟩ := read_row h split (closing_read h split hop) hx
  exact ⟨r, hr, hid⟩

/-! ## The ledger beside the accounts -/

/-- The committed entries only grow. -/
theorem entries_grow (env : Env) :
    Follows (machine env) fun s s' => s.ledger.entries <+: s'.ledger.entries where
  refl _ := List.prefix_rfl
  trans h h' := h.trans h'
  exec := by
    intro t ch s op r s' h
    by_cases hop : ∃ q, op = .ledger q
    · obtain ⟨q, rfl⟩ := hop
      obtain ⟨ledger, hexec, rfl⟩ := exec_ledger h
      exact (exec_keeps (Nat.succ_ne_self t) hexec).entries
    · have hsame := (exec_frame h).ledger fun q hq => hop ⟨q, hq⟩
      exact hsame ▸ List.prefix_rfl
  env := by
    intro o s s' h
    rcases outside_cases h with ⟨_, _, rfl⟩ | ⟨_, _, _, henv, rfl⟩
    · exact List.prefix_rfl
    · exact (outside_keeps henv 0).entries

theorem entries_between (h : AccountRun env (start table clock) ls d) {a b : AccountEvent}
    (hprec : Precedes d.world.log a b) : a.pre.ledger.entries <+: b.pre.ledger.entries := by
  obtain ⟨_, ch, _, hexec⟩ := h.executed hprec.left
  exact ((entries_grow env).exec hexec).trans (h.between (entries_grow env) hprec)

/-- The ledger's request that a call stands for; a handler's call stands for any. -/
def Request.guest : Request → Ledger.Request
  | .ledger req => req
  | _ => .get_balance (.low 0) ""

/-- A handler's call does nothing to the ledger's store, and a ledger's call what the ledger does. -/
theorem follower (env : Env) (req : Request) :
    Follower Op.ledger (fun _ r => r)
      ({ req, prog := serve env req } : Call Request Op Op.Res Failure Response)
      ({ req := req.guest, prog := Ledger.serve env.ledger req.guest } : Call Ledger.Request _ _ _ _) := by
  by_cases hreq : ∃ r, req = .ledger r
  · obtain ⟨r, rfl⟩ := hreq
    refine .inr ⟨id, mirrors_caught ?_ ?_ _⟩
    · exact fun a => ⟨.ledger a, rfl⟩
    · exact fun e => ⟨.ledger e, rfl⟩
  · have apart : ∀ h op, ¬ guard req h (.ledger op) := fun _ _ => hreq
    exact .inl (avoids_of_guarded apart (serve_guarded env req))

/-- **The ledger runs as if it were alone**, whatever the handlers do. -/
theorem ledger_run (h : AccountRun env (start table clock) ls d) :
    ∃ ms c, LedgerRun env.ledger (Ledger.start clock) ms c ∧
      c.world.store = d.world.store.ledger := by
  obtain ⟨ms, c, hrun, hstore, _⟩ := h.hosted (hosts env) (follower env)
  exact ⟨ms, c, hrun, hstore⟩

/-- So what holds of the ledger in its own runs holds wherever an event was executed. -/
theorem ledger_inv (h : AccountRun env (start table clock) ls d) {e : AccountEvent}
    (he : e ∈ d.world.log) : Ledger.Inv env.ledger.db e.pre.ledger := by
  refine h.store_at (P := fun s => Ledger.Inv env.ledger.db s.ledger) he fun hrun => ?_
  obtain ⟨_, c', hledger, hstore⟩ := ledger_run hrun
  have hinv : Ledger.Inv env.ledger.db c'.world.store := (service_sound hledger).inv
  rwa [hstore] at hinv

end Kova.Account

import Kova.Auth.HandlerLaws
import Kova.Auth.StoreLaws

/-!
# Sessions over a run

What holds of the sessions in every run of kova-auth from empty tables, whatever the calls are
and however they interleave:

- `session_inserted`: every session comes from one INSERT of the log (`Inserts`);
- `selector_unique`: a refresh token selects at most one session;
- `insert_once`: a call inserts at most one session;
- `rotation_exchanged`: a session inserted by a rotation is a live session of the same user
  exchanged for it, which the same call revoked before.
-/

set_option autoImplicit false

namespace Kova.Auth

open Conc

/-- One executed operation of kova-auth. -/
abbrev AuthEvent := Event Store Request Op Op.Res

variable {env : Env} {S : AuthScope} {clock : Nat} {ls : List AuthLabel} {d : AuthConf}

/-! ## Events -/

/-- The store an event left follows the store it found. -/
theorem event_later (h : AuthRun env S (start clock) ls d) {e : AuthEvent}
    (he : e ∈ d.world.log) : Later e.pre e.post := by
  obtain ⟨_, _, _, hexec⟩ := h.executed he
  exact (later_follows env).exec hexec

/-- The store an event found is followed by the one at the end. -/
theorem event_since (h : AuthRun env S (start clock) ls d) {e : AuthEvent}
    (he : e ∈ d.world.log) : Later e.pre d.world.store :=
  (event_later h he).trans (h.since (later_follows env) he)

/-- The primary keys hold throughout. -/
theorem run_keyed (h : AuthRun env S (start clock) ls d) : d.world.store.Keyed := by
  refine h.store_invariant (P := Store.Keyed) (fun hc hexec => hc.exec hexec) ?_
    ⟨List.nodup_nil, List.nodup_nil⟩
  rintro ⟨n⟩ s s' hc henv
  cases henv
  exact ⟨hc.sessions, hc.otp_codes⟩

/-- The primary keys hold where an event was executed. -/
theorem event_keyed (h : AuthRun env S (start clock) ls d) {e : AuthEvent}
    (he : e ∈ d.world.log) : e.pre.Keyed := h.store_at he run_keyed

/-- A session found twice, by its identifier: the later row is what the earlier one became. -/
theorem Later.session_becomes {s s' : Store} (h : Later s s') (keyed : s'.Keyed) {r r' : Session}
    (hr : r ∈ s.sessions) (hr' : r' ∈ s'.sessions) (hid : r.id = r'.id) : r.Becomes r' := by
  obtain ⟨r'', hr'', hb⟩ := h.sessions r hr
  rwa [← keyed.session_eq hr'' hr' (hb.id_eq.trans hid)]

/-! ## Where sessions come from -/

/-- The event inserted the session. -/
def Inserts (e : AuthEvent) (v : SessionInsert) (row : Session) : Prop :=
  e.op = .sql (.insert_session v) ∧ v.row = some row ∧ (∀ r ∈ e.pre.sessions, r.id ≠ row.id) ∧
    e.post.sessions = e.pre.sessions ++ [row]

theorem Inserts.mem {e : AuthEvent} {v : SessionInsert} {row : Session} (h : Inserts e v row) :
    row ∈ e.post.sessions := by
  rw [h.2.2.2]
  exact List.mem_append_right _ List.mem_cons_self

theorem Inserts.row_eq {e : AuthEvent} {v v' : SessionInsert} {row row' : Session}
    (h : Inserts e v row) (h' : Inserts e v' row') : row = row' := by
  have hop := h.1.symm.trans h'.1
  simp only [Op.sql.injEq, Sql.insert_session.injEq] at hop
  subst hop
  exact Option.some.inj (h.2.1.symm.trans h'.2.1)

/-- An INSERT that answered inserted. -/
theorem inserts_of_did (h : AuthRun env S (start clock) ls d) {e : AuthEvent}
    (he : e ∈ d.world.log) {v : SessionInsert} (hd : e.did = did (.insert_session v) (some ())) :
    ∃ row, Inserts e v row := by
  obtain ⟨_, _, _, hexec⟩ := h.did he hd
  obtain ⟨row, hrow, hfresh, hsessions⟩ := exec_insert_session hexec
  exact ⟨row, congrArg Done.op hd, hrow, hfresh, hsessions⟩

/-- **Every session was inserted.** -/
theorem session_inserted (h : AuthRun env S (start clock) ls d) :
    ∀ r ∈ d.world.store.sessions, ∃ e ∈ d.world.log, ∃ v row, Inserts e v row ∧ row.Becomes r := by
  refine h.invariant (P := fun d => ∀ r ∈ d.world.store.sessions,
    ∃ e ∈ d.world.log, ∃ v row, Inserts e v row ∧ row.Becomes r) ?_ ?_
  · intro c d l hc _ hstep r hr
    rcases step_cases hstep with ⟨req, _, rfl⟩ |
      ⟨t, ch, call, op, next, res, s', _, _, _, _, hexec, rfl⟩ | ⟨t, call, _, _, rfl⟩ |
      ⟨o, s', _, henv, rfl⟩
    · exact hc r hr
    · have old : ∀ r₀ ∈ c.world.store.sessions, r₀.Becomes r →
          ∃ e ∈ (c.world.push ⟨t, call.req, op, c.world.store, res, s'⟩).log,
            ∃ v row, Inserts e v row ∧ row.Becomes r := by
        intro r₀ hr₀ hb
        obtain ⟨e, he, v, row, hins, hrow⟩ := hc r₀ hr₀
        exact ⟨e, List.mem_append_left _ he, v, row, hins, hrow.trans hb⟩
      have hchange := exec_sessions hexec
      generalize hl : s'.sessions = l at hchange
      rw [World.push_store, hl] at hr
      cases hchange with
      | same => exact old r hr (.refl r)
      | inserted hrow fresh =>
        rcases List.mem_append.mp hr with hr | hr
        · exact old r hr (.refl r)
        · obtain rfl := List.mem_singleton.mp hr
          exact ⟨_, List.mem_append_right _ List.mem_cons_self, _, r, ⟨rfl, hrow, fresh, hl⟩,
            .refl r⟩
      | revoked _ =>
        obtain ⟨r₀, hr₀, heq⟩ := List.mem_map.mp hr
        exact old r₀ hr₀ (heq ▸ becomes_revoke r₀ _)
    · exact hc r hr
    · cases o with
      | advance n =>
        cases henv
        exact hc r hr
  · intro r hr
    cases hr

/-- The same of the sessions an event found: they were inserted before it. -/
theorem event_session_inserted (h : AuthRun env S (start clock) ls d)
    {before after : List AuthEvent} {e : AuthEvent} (split : d.world.log = before ++ e :: after)
    {r : Session} (hr : r ∈ e.pre.sessions) :
    ∃ a ∈ before, ∃ v row, Inserts a v row ∧ row.Becomes r := by
  exact h.world_at (P := fun w => ∀ r ∈ w.store.sessions,
    ∃ a ∈ w.log, ∃ v row, Inserts a v row ∧ row.Becomes r) split session_inserted r hr

/-- **A call inserts at most one session.** -/
theorem insert_once (h : AuthRun env S (start clock) ls d) {a b : AuthEvent}
    (ha : a ∈ d.world.log) (hb : b ∈ d.world.log) (ht : a.tid = b.tid) {v v' : SessionInsert}
    (hav : a.op = .sql (.insert_session v)) (hbv : b.op = .sql (.insert_session v')) : a = b := by
  have never : ∀ {x y : AuthEvent}, x.tid = y.tid → ∀ {u u'}, x.op = .sql (.insert_session u) →
      y.op = .sql (.insert_session u') → ¬ Precedes d.world.log x y := by
    rintro x y hxy u u' hx hy ⟨before, after, split, hmem⟩
    have hguard := h.guard (serve_guarded env) split
    rw [hy] at hguard
    exact hguard.first x.did (mem_history.mpr ⟨x, hmem, hxy, rfl⟩) u hx
  rcases precedes_total ha hb with heq | hab | hba
  · exact heq
  · exact absurd hab (never ht hav hbv)
  · exact absurd hba (never ht.symm hbv hav)

/-! ## Where revocations come from -/

/-- The row of an INSERT has the values bound to it. -/
theorem row_of_values {v : SessionInsert} {row : Session} (h : v.row = some row) :
    Uuid.UUID_TO_BIN v.user_id = some row.user_id ∧
      ∀ env : Env, row.Selected env v.token_selector := by
  simp only [SessionInsert.row, Option.bind_eq_bind, Option.bind_eq_some_iff] at h
  obtain ⟨_, _, u, hu, _, _, sel, hvarchar, _, _, _, _, hrow⟩ := h
  split at hrow
  · cases hrow
    exact ⟨hu, fun env => ⟨sel, rfl, (env.coll.same_varchar hvarchar).symm⟩⟩
  · cases hrow

/-- It is live, and its identifier is the bound one as the column stores it. -/
theorem row_live {v : SessionInsert} {row : Session} (h : v.row = some row) :
    row.revoked_at = none ∧ ∃ jti, Collation.varchar 36 v.access_token_jti = some jti ∧
      row.access_token_jti = some jti := by
  simp only [SessionInsert.row, Option.bind_eq_bind, Option.bind_eq_some_iff] at h
  obtain ⟨_, _, _, _, _, _, _, _, jti, hjti, _, _, hrow⟩ := h
  split at hrow
  · cases hrow
    exact ⟨rfl, jti, hjti, rfl⟩
  · cases hrow

/-- The event is an UPDATE of `revoked_at` that finds the session live. -/
structure Revokes (env : Env) (e : AuthEvent) (q : Sql) (p : Session → Bool) (r : Session) :
    Prop where
  op : e.op = .sql q
  clause : q.revokes env = some p
  found : r ∈ e.pre.sessions
  selected : p r = true
  live : r.revoked_at = none

/-- **Every revoked session was revoked** by an UPDATE that found it live. -/
theorem session_revoked (h : AuthRun env S (start clock) ls d) :
    ∀ r ∈ d.world.store.sessions, r.revoked_at.isSome →
      ∃ e ∈ d.world.log, ∃ q p r₀, Revokes env e q p r₀ ∧ r₀.Becomes r := by
  refine h.invariant (P := fun d => ∀ r ∈ d.world.store.sessions, r.revoked_at.isSome →
    ∃ e ∈ d.world.log, ∃ q p r₀, Revokes env e q p r₀ ∧ r₀.Becomes r) ?_ ?_
  · intro c d l hc _ hstep r hr hrev
    rcases step_cases hstep with ⟨req, _, rfl⟩ |
      ⟨t, ch, call, op, next, res, s', _, _, _, _, hexec, rfl⟩ | ⟨t, call, _, _, rfl⟩ |
      ⟨o, s', _, henv, rfl⟩
    · exact hc r hr hrev
    · have old : ∀ r₀ ∈ c.world.store.sessions, r₀.revoked_at.isSome → r₀.Becomes r →
          ∃ e ∈ (c.world.push ⟨t, call.req, op, c.world.store, res, s'⟩).log,
            ∃ q p r₀, Revokes env e q p r₀ ∧ r₀.Becomes r := by
        intro r₀ hr₀ hrev₀ hb
        obtain ⟨e, he, q, p, r₁, hrevokes, hb'⟩ := hc r₀ hr₀ hrev₀
        exact ⟨e, List.mem_append_left _ he, q, p, r₁, hrevokes, hb'.trans hb⟩
      have hchange := exec_sessions hexec
      generalize hl : s'.sessions = l at hchange
      rw [World.push_store, hl] at hr
      cases hchange with
      | same => exact old r hr hrev (.refl r)
      | @inserted v row hrow fresh =>
        rcases List.mem_append.mp hr with hr | hr
        · exact old r hr hrev (.refl r)
        · rw [List.mem_singleton.mp hr, (row_live hrow).1] at hrev
          cases hrev
      | @revoked q p clause =>
        obtain ⟨r₀, hr₀, heq⟩ := List.mem_map.mp hr
        have hb : r₀.Becomes r := heq ▸ becomes_revoke r₀ _
        cases hlive : r₀.revoked_at with
        | some _ => exact old r₀ hr₀ (hlive ▸ rfl) hb
        | none =>
          refine ⟨_, List.mem_append_right _ List.mem_cons_self, q, p, r₀,
            ⟨rfl, clause, hr₀, ?_, hlive⟩, hb⟩
          by_contra hp
          rw [← heq, if_neg hp, hlive] at hrev
          cases hrev
    · exact hc r hr hrev
    · cases o with
      | advance n =>
        cases henv
        exact hc r hr hrev
  · intro r hr
    cases hr

/-- An identifier is inserted once. -/
theorem inserted_unique (h : AuthRun env S (start clock) ls d) {a b : AuthEvent}
    (ha : a ∈ d.world.log) (hb : b ∈ d.world.log) {v v' : SessionInsert} {row row' : Session}
    (hins : Inserts a v row) (hins' : Inserts b v' row') (hid : row.id = row'.id) :
    a = b ∧ row = row' := by
  have never : ∀ {x y : AuthEvent} {u u' : SessionInsert} {r r' : Session}, Inserts x u r →
      Inserts y u' r' → r.id = r'.id → ¬ Precedes d.world.log x y := by
    intro x y u u' r r' hx hy hid hprec
    obtain ⟨r₀, hr₀, hb⟩ := (h.between (later_follows env) hprec).sessions r hx.mem
    exact hy.2.2.1 r₀ hr₀ (hb.id_eq.trans hid)
  rcases precedes_total ha hb with rfl | hab | hba
  · exact ⟨rfl, hins.row_eq hins'⟩
  · exact absurd hab (never hins hins' hid)
  · exact absurd hba (never hins' hins hid.symm)

/-! ## Selectors -/

/-- The token of an inserted session was drawn by the call that inserted it. -/
theorem inserted_token (h : AuthRun env S (start clock) ls d) {e : AuthEvent}
    (he : e ∈ d.world.log) {v : SessionInsert} {row : Session} (hins : Inserts e v row) :
    ∃ g ∈ d.world.log, ∃ raw, g.tid = e.tid ∧ g.did = ⟨.random_hex, some raw⟩ ∧
      row.Selected env (env.sha256_hex raw) := by
  obtain ⟨before, after, split⟩ := List.append_of_mem he
  have hguard := h.guard (serve_guarded env) split
  rw [hins.1] at hguard
  obtain ⟨raw, hraw, hsel⟩ := hguard.token
  obtain ⟨g, hg, ht, hdid, _⟩ := event_of_history after e hraw
  exact ⟨g, split ▸ List.mem_append_left _ hg, raw, ht, hdid,
    hsel ▸ (row_of_values hins.2.1).2 env⟩

/-- Two draws whose selectors are the same are one. -/
theorem drawn_once (h : AuthRun env S (start clock) ls d) {a b : AuthEvent}
    (ha : a ∈ d.world.log) (hb : b ∈ d.world.log) {token token' : String}
    (hda : a.did = ⟨.random_hex, some token⟩) (hdb : b.did = ⟨.random_hex, some token'⟩)
    (hsame : env.coll.same (env.sha256_hex token) (env.sha256_hex token')) : a = b := by
  have never : ∀ {x y : AuthEvent} {u u' : String}, x.did = ⟨.random_hex, some u⟩ →
      y.did = ⟨.random_hex, some u'⟩ → env.coll.same (env.sha256_hex u) (env.sha256_hex u') →
        ¬ Precedes d.world.log x y := by
    intro x y u u' hx hy hsame hxy
    obtain ⟨_, _, _, hexec⟩ := h.did hxy.left hx
    obtain ⟨_, _, _, hexec'⟩ := h.did hxy.right hy
    have hold := (h.between (later_follows env) hxy).generated (exec_random_hex hexec).2
    exact (exec_random_hex hexec').1 u hold hsame
  rcases precedes_total ha hb with heq | hlt | hgt
  · exact heq
  · exact absurd hlt (never hda hdb hsame)
  · exact absurd hgt (never hdb hda hsame.symm)

/-- **A refresh token selects at most one session.** -/
theorem selector_unique (h : AuthRun env S (start clock) ls d) {r r' : Session}
    (hr : r ∈ d.world.store.sessions) (hr' : r' ∈ d.world.store.sessions) {selector : String}
    (hs : r.Selected env selector) (hs' : r'.Selected env selector) : r = r' := by
  obtain ⟨e, he, v, row, hins, hb⟩ := session_inserted h r hr
  obtain ⟨e', he', v', row', hins', hb'⟩ := session_inserted h r' hr'
  obtain ⟨g, hg, raw, ht, hdid, sel₁, hsel₁, hsame₁⟩ := inserted_token h he hins
  obtain ⟨g', hg', raw', ht', hdid', sel₂, hsel₂, hsame₂⟩ := inserted_token h he' hins'
  have hsame : env.coll.same (env.sha256_hex raw) (env.sha256_hex raw') := by
    obtain ⟨s₁, hs₁, h₁⟩ := hb.selected.mp hs
    obtain ⟨s₂, hs₂, h₂⟩ := hb'.selected.mp hs'
    rw [hs₁, Option.some.injEq] at hsel₁
    rw [hs₂, Option.some.injEq] at hsel₂
    subst hsel₁ hsel₂
    exact hsame₁.symm.trans (h₁.trans (h₂.symm.trans hsame₂))
  -- One draw, so one call inserted both rows.
  have hgg : g = g' := drawn_once h hg hg' hdid hdid' hsame
  obtain rfl := insert_once h he he' (by rw [← ht, ← ht', hgg]) hins.1 hins'.1
  have hv : v = v' := by
    have hop := hins.1.symm.trans hins'.1
    simpa using hop
  subst hv
  have hrow : row = row' := Option.some.inj (hins.2.1.symm.trans hins'.2.1)
  subst hrow
  exact (run_keyed h).session_eq hr hr' (hb.id_eq.symm ▸ hb'.id_eq.symm ▸ rfl)

/-- Two rows that one refresh token selects, at any two moments of the run, are one session. -/
theorem selected_meet (h : AuthRun env S (start clock) ls d) {s s' : Store}
    (hs : Later s d.world.store) (hs' : Later s' d.world.store) {r r' : Session}
    (hr : r ∈ s.sessions) (hr' : r' ∈ s'.sessions) {selector : String}
    (hsel : r.Selected env selector) (hsel' : r'.Selected env selector) :
    ∃ r₀ ∈ d.world.store.sessions, r.Becomes r₀ ∧ r'.Becomes r₀ := by
  obtain ⟨r₁, hr₁, h₁⟩ := hs.sessions r hr
  obtain ⟨r₂, hr₂, h₂⟩ := hs'.sessions r' hr'
  obtain rfl := selector_unique h hr₁ hr₂ (h₁.selected.mpr hsel) (h₂.selected.mpr hsel')
  exact ⟨r₁, hr₁, h₁, h₂⟩

theorem selected_id (h : AuthRun env S (start clock) ls d) {a b : AuthEvent}
    (ha : a ∈ d.world.log) (hb : b ∈ d.world.log) {r r' : Session} (hr : r ∈ a.pre.sessions)
    (hr' : r' ∈ b.pre.sessions) {selector : String} (hs : r.Selected env selector)
    (hs' : r'.Selected env selector) : r.id = r'.id := by
  obtain ⟨_, _, h₁, h₂⟩ := selected_meet h (event_since h ha) (event_since h hb) hr hr' hs hs'
  rw [← h₁.id_eq, h₂.id_eq]

/-! ## Rotations -/

/-- A row that a call looked up was there, not expired, and selected by the token. -/
theorem looked_up (h : AuthRun env S (start clock) ls d) {e : AuthEvent} (he : e ∈ d.world.log)
    {selector : String} {row : SessionRow}
    (hd : e.did = did (.select_session selector) (some (some row))) :
    ∃ r ∈ e.pre.sessions, r.Selected env selector ∧ e.pre.now < r.expires_at ∧ row = r.read := by
  obtain ⟨_, _, _, hexec⟩ := h.did he hd
  exact exec_select_session hexec

/-- What a rotation revokes by its identifier is a session of the token it presents. -/
theorem revokes_own (h : AuthRun env S (start clock) ls d) {e : AuthEvent} (he : e ∈ d.world.log)
    {refresh_token device_fingerprint id : String}
    (hreq : e.req = .token_refresh refresh_token device_fingerprint)
    (hop : e.op = .sql (.revoke_session id)) :
    ∃ r ∈ e.pre.sessions, r.Selected env (env.sha256_hex refresh_token) ∧
      id = r.id.to_string := by
  obtain ⟨before, after, split⟩ := List.append_of_mem he
  have hguard := h.guard (serve_guarded env) split
  rw [hop] at hguard
  obtain ⟨row, hread, hid⟩ := hguard _ _ hreq
  obtain ⟨a, ha, _, hdid, hprec⟩ := event_of_history after e hread
  rw [← split] at hprec
  obtain ⟨r, hr, hsel, _, hrow⟩ := looked_up h hprec.left hdid
  obtain ⟨r', hr', hb⟩ :=
    ((event_later h hprec.left).trans (h.between (later_follows env) hprec)).sessions r hr
  exact ⟨r', hr', hb.selected.mpr hsel, by rw [hid, hrow, Session.read, hb.id_eq]⟩

/-- The events of a completed exchange: what the rotation read, and what it revoked. -/
structure Exchange (env : Env) (d : AuthConf) (t : Nat) (refresh_token : String)
    (read revoked : AuthEvent) (r : Session) : Prop where
  read_mem : read ∈ d.world.log
  read_tid : read.tid = t
  read_op : read.op = .sql (.select_session (env.sha256_hex refresh_token))
  found : r ∈ read.pre.sessions
  selected : r.Selected env (env.sha256_hex refresh_token)
  live : r.revoked_at = none
  verified : env.bcrypt_verify refresh_token r.refresh_token_hash = .ok true
  revoked_mem : revoked ∈ d.world.log
  revoked_tid : revoked.tid = t
  revoked_did : revoked.did = did (.revoke_session r.id.to_string) (some ())

/-- What a rotation has exchanged, read off the log. -/
theorem exchange_of_exchanged (h : AuthRun env S (start clock) ls d) {t : Nat}
    {es : List AuthEvent} (hes : es ⊆ d.world.log) {refresh_token user_id : String}
    {row : SessionRow} (hx : Exchanged env refresh_token row user_id (history t es)) :
    ∃ read revoked r, Exchange env d t refresh_token read revoked r ∧ read ∈ es ∧ revoked ∈ es ∧
      user_id = r.user_id.to_string := by
  obtain ⟨read, hread, hread_tid, hread_did⟩ := mem_history.mp hx.read
  obtain ⟨revoked, hrevoked, hrevoked_tid, hrevoked_did⟩ := mem_history.mp hx.revoked
  obtain ⟨r, hr, hsel, _, rfl⟩ := looked_up h (hes hread) hread_did
  obtain ⟨u, hu, huser⟩ := hx.user
  rw [Session.read, Uuid.parse_str_to_string, Option.some.injEq] at hu
  exact ⟨read, revoked, r, ⟨hes hread, hread_tid, congrArg Done.op hread_did, hr, hsel, hx.live,
    hx.verified, hes hrevoked, hrevoked_tid, hrevoked_did⟩, hread, hrevoked, hu ▸ huser⟩

/-- What the rotation revoked is revoked from then on. -/
theorem Exchange.revokes {t : Nat} {refresh_token : String} {read revoked : AuthEvent}
    {r : Session} (hx : Exchange env d t refresh_token read revoked r)
    (h : AuthRun env S (start clock) ls d) {r' : Session} (hr' : r' ∈ revoked.post.sessions)
    (hid : r'.id = r.id) : r'.revoked_at.isSome := by
  obtain ⟨_, _, _, hexec⟩ := h.did hx.revoked_mem hx.revoked_did
  have hpost := exec_revokes (revokes_session (Uuid.UUID_TO_BIN_to_string r.id)) hexec
  rw [hpost] at hr'
  exact revoked_by_id hr' hid

/-- The session that was exchanged, as the UPDATE left it. -/
theorem Exchange.revoked_row {t : Nat} {refresh_token fingerprint : String}
    {read revoked : AuthEvent} {r : Session} (hx : Exchange env d t refresh_token read revoked r)
    (h : AuthRun env S (start clock) ls d)
    (hreq : revoked.req = .token_refresh refresh_token fingerprint) :
    ∃ r' ∈ revoked.post.sessions, r'.id = r.id ∧ r'.revoked_at.isSome := by
  obtain ⟨r₀, hr₀, _, hstring⟩ := revokes_own h hx.revoked_mem hreq
    (congrArg Done.op hx.revoked_did)
  have hid : r₀.id = r.id := by
    have heq := congrArg Uuid.parse_str hstring
    simpa using heq.symm
  obtain ⟨r', hr', hb⟩ := (event_later h hx.revoked_mem).sessions r₀ hr₀
  exact ⟨r', hr', hb.id_eq.trans hid, hx.revokes h hr' (hb.id_eq.trans hid)⟩

/-- The row of an exchanged token in a later store: revoked, and verified by the token. -/
theorem Exchange.row_in {t : Nat} {refresh_token fingerprint : String}
    {read revoked : AuthEvent} {r : Session} (hx : Exchange env d t refresh_token read revoked r)
    (h : AuthRun env S (start clock) ls d)
    (hreq : revoked.req = .token_refresh refresh_token fingerprint) {s : Store} (keyed : s.Keyed)
    (hread : Later read.pre s) (hrevoked : Later revoked.post s) :
    ∃ r' ∈ s.sessions, r'.Selected env (env.sha256_hex refresh_token) ∧
      r'.revoked_at.isSome ∧ env.bcrypt_verify refresh_token r'.refresh_token_hash = .ok true := by
  obtain ⟨r₁, hr₁, hid, hsome⟩ := hx.revoked_row h hreq
  obtain ⟨r', hr', hb⟩ := hrevoked.sessions r₁ hr₁
  have hb' := hread.session_becomes keyed hx.found hr' (hid.symm.trans hb.id_eq.symm)
  exact ⟨r', hr', hb'.selected.mpr hx.selected, hb.revoked hsome,
    hb'.refresh_token_hash_eq.symm ▸ hx.verified⟩

/-- **A session inserted by a rotation was exchanged** for a live session of the same user. -/
theorem rotation_exchanged (h : AuthRun env S (start clock) ls d)
    {before after : List AuthEvent} {e : AuthEvent} (split : d.world.log = before ++ e :: after)
    {v : SessionInsert} {row : Session} (hins : Inserts e v row)
    {refresh_token device_fingerprint : String}
    (hreq : e.req = .token_refresh refresh_token device_fingerprint) :
    ∃ read revoked r, Exchange env d e.tid refresh_token read revoked r ∧ read ∈ before ∧
      revoked ∈ before ∧ row.user_id = r.user_id := by
  have hguard := h.guard (serve_guarded env) split
  rw [hins.1] at hguard
  obtain ⟨srow, hx⟩ := hguard.rotation _ _ hreq
  have hsub : before ⊆ d.world.log := split ▸ List.subset_append_left _ _
  obtain ⟨read, revoked, r, hx, hread, hrevoked, huser⟩ := exchange_of_exchanged h hsub hx
  refine ⟨read, revoked, r, hx, hread, hrevoked, ?_⟩
  have hu := (row_of_values hins.2.1).1
  rw [huser, Uuid.UUID_TO_BIN_to_string, Option.some.injEq] at hu
  exact hu.symm

/-! ## Issued pairs -/

/-- A pair that some call returned. -/
def Returned (d : AuthConf) (pair : TokenPair) : Prop :=
  ∃ t req, d.returned t req (.ok (.tokens pair))

/-- **A returned pair has its session**: inserted by the call that returned the pair, for the pair's
refresh token, for the user and with the identifier of its access token. -/
theorem issued_by (h : AuthRun env S (start clock) ls d) {t : Nat} {req : Request}
    {pair : TokenPair} (hr : d.returned t req (.ok (.tokens pair))) :
    ∃ e ∈ d.world.log, e.tid = t ∧ ∃ v row, ∃ claims : KovaClaims, Inserts e v row ∧
      row.Selected env (env.sha256_hex pair.refresh_token) ∧
      pair.access_token = ⟨⟨.RS256, none⟩, claims.payload, env.key⟩ ∧
      claims.iss = "kova-auth" ∧ claims.sub = row.user_id.to_string ∧
      claims.jti = v.access_token_jti ∧ ∃ u : Uuid, claims.jti = u.to_string := by
  have hanswer := h.answer (serve_guarded env) hr
  have hissued : ∃ v claims, Issued env (history t d.world.log) pair v claims := by
    cases req with
    | token_refresh =>
      obtain ⟨pair', v, claims, _, heq, hi, _⟩ := hanswer.exchanged _ rfl
      cases heq
      exact ⟨v, claims, hi⟩
    | otp_verify => exact hanswer.1
    | biometric_verify => exact hanswer
    | _ => exact hanswer.elim
  obtain ⟨v, claims, hi⟩ := hissued
  obtain ⟨e, he, ht, hdid⟩ := mem_history.mp hi.inserted
  obtain ⟨row, hins⟩ := inserts_of_did h he hdid
  obtain ⟨⟨u, hu⟩, hjti⟩ := hi.uuids
  obtain ⟨huser, hsel⟩ := row_of_values hins.2.1
  refine ⟨e, he, ht, v, row, claims, hins, ?_, hi.access_token, hi.iss, ?_, hi.jti, hjti⟩
  · rw [← hi.selector]
    exact hsel env
  · rw [← hi.sub, hu, Uuid.UUID_TO_BIN_to_string, Option.some.injEq] at huser
    rw [hu, huser]

theorem returned_issued (h : AuthRun env S (start clock) ls d) {pair : TokenPair}
    (hr : Returned d pair) :
    ∃ e ∈ d.world.log, ∃ v row, ∃ claims : KovaClaims, Inserts e v row ∧
      row.Selected env (env.sha256_hex pair.refresh_token) ∧
      pair.access_token = ⟨⟨.RS256, none⟩, claims.payload, env.key⟩ ∧
      claims.iss = "kova-auth" ∧ claims.sub = row.user_id.to_string ∧
      claims.jti = v.access_token_jti ∧ ∃ u : Uuid, claims.jti = u.to_string := by
  obtain ⟨t, req, hr⟩ := hr
  obtain ⟨e, he, _, rest⟩ := issued_by h hr
  exact ⟨e, he, rest⟩

/-- The refresh token was issued to the user. -/
def IssuedTo (d : AuthConf) (u : Uuid) (refresh_token : String) : Prop :=
  ∃ pair, Returned d pair ∧ pair.refresh_token = refresh_token ∧
    pair.access_token.payload.sub = some u.to_string

/-- A session selected by a token issued to a user is the user's. -/
theorem IssuedTo.user_eq (h : AuthRun env S (start clock) ls d) {u : Uuid}
    {refresh_token : String} (hi : IssuedTo d u refresh_token) {e : AuthEvent}
    (he : e ∈ d.world.log) {r : Session} (hr : r ∈ e.pre.sessions)
    (hs : r.Selected env (env.sha256_hex refresh_token)) : r.user_id = u := by
  obtain ⟨pair, hret, rfl, hsub⟩ := hi
  obtain ⟨i, hi, v, row, claims, hins, hsel, htoken, _, huser, _⟩ := returned_issued h hret
  obtain ⟨_, _, h₁, h₂⟩ := selected_meet h (event_since h he)
    (h.since (later_follows env) hi) hr hins.mem hs hsel
  rw [htoken] at hsub
  simp only [KovaClaims.payload, huser, Option.some.injEq] at hsub
  have hu : row.user_id = u := by
    have hparse := congrArg Uuid.parse_str hsub
    simpa using hparse
  rw [← h₁.user_id_eq, h₂.user_id_eq, hu]

end Kova.Auth

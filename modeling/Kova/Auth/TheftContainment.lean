import Kova.Conc.Serial
import Kova.Auth.Rotation

/-!
# Theft containment

When the handlers execute one at a time and no statement fails, a refresh token that was
exchanged before and is presented again before it expires is found revoked: the call revokes every
session of the user and returns `RefreshTokenReuse` (`theft_containment`). The user's sessions of
that moment stay revoked and none of them is exchanged again, whatever is executed later; other
users' sessions are not touched.
-/

set_option autoImplicit false

namespace Kova.Auth

open Conc

variable {env : Env} {clock : Nat} {ls : List AuthLabel} {c d : AuthConf}

/-- No statement fails. -/
def no_database_fault : AuthScope :=
  ⟨fun _ => True, fun _ _ _ op ch => ∀ q, op = .sql q → ch.fault = .none⟩

/-- The runs in which the handlers execute one at a time and no statement fails. -/
abbrev SerialRun (env : Env) : AuthConf → List AuthLabel → AuthConf → Prop :=
  Serial (machine env) (serve env) no_database_fault

/-- Whether call `t` looks the token up before the expiry of its session. -/
def InTime (env : Env) (d : AuthConf) (t : Nat) (refresh_token : String) : Prop :=
  ∀ e ∈ d.world.log, e.tid = t →
    e.op = .sql (.select_session (env.sha256_hex refresh_token)) → ∀ r ∈ e.pre.sessions,
      r.Selected env (env.sha256_hex refresh_token) → e.pre.now < r.expires_at

/-! ## The call that presents the token again -/

/-- Call `t` read the row `r` of the token by `select` and revoked the sessions of its user by
`revoke`; it executed nothing else. -/
structure Detected (env : Env) (d : AuthConf) (t : Nat) (refresh_token : String) (r : Session)
    (select revoke : AuthEvent) : Prop where
  order : Precedes d.world.log select revoke
  select_tid : select.tid = t
  revoke_tid : revoke.tid = t
  select_op : select.op = .sql (.select_session (env.sha256_hex refresh_token))
  revoke_did : revoke.did = did (.revoke_user_sessions r.user_id.to_string) (some ())
  found : r ∈ select.pre.sessions
  selected : r.Selected env (env.sha256_hex refresh_token)
  all : ∀ e ∈ d.world.log, e.tid = t → e = select ∨ e = revoke

/-- The row of an exchanged token, where a later call looks it up: revoked and verified. -/
theorem exchanged_row (h : SerialRun env (start clock) ls d) {t₁ : Nat}
    {refresh_token fingerprint : String} {resp : Response}
    (first : d.returned t₁ (.token_refresh refresh_token fingerprint) (.ok resp)) {e : AuthEvent}
    (he : e ∈ d.world.log) (later : t₁ < e.tid) :
    ∃ r ∈ e.pre.sessions, r.Selected env (env.sha256_hex refresh_token) ∧
      r.revoked_at.isSome ∧ env.bcrypt_verify refresh_token r.refresh_token_hash = .ok true := by
  have hrun := h.run
  obtain ⟨read, revoked, r, hx, hreq⟩ := returned_exchange hrun first
  have hread := h.precedes hx.read_mem he (hx.read_tid ▸ later)
  have hrevoked := h.precedes hx.revoked_mem he (hx.revoked_tid ▸ later)
  exact hx.row_in hrun hreq (event_keyed hrun he)
    ((event_later hrun hread.left).trans (hrun.between (later_follows env) hread))
    (hrun.between (later_follows env) hrevoked)

/-- **A reused token is detected.** -/
theorem reuse_detected (h : SerialRun env (start clock) ls d) {t₁ t₂ : Nat}
    {refresh_token fingerprint fingerprint' : String} {resp : Response}
    {res : Except Failure Response}
    (first : d.returned t₁ (.token_refresh refresh_token fingerprint) (.ok resp)) (later : t₁ < t₂)
    (again : d.returned t₂ (.token_refresh refresh_token fingerprint') res)
    (in_time : InTime env d t₂ refresh_token) :
    res = .error (.error .RefreshTokenReuse) ∧
      ∃ r select revoke, Detected env d t₂ refresh_token r select revoke := by
  have hrun := h.run
  obtain ⟨x, rest, hhistory, hreuse⟩ := (hrun.answer (serve_guarded env) again).looked_up
  obtain ⟨select, hselect, htid, hdid⟩ := mem_history.mp
    (show did (.select_session (env.sha256_hex refresh_token)) x ∈ history t₂ d.world.log by
      simp [hhistory])
  obtain ⟨r, hr, hsel, hrevoked, hverified⟩ :=
    exchanged_row h first hselect (htid ▸ later)
  -- The SELECT finds this row, and no other.
  have hop := congrArg Done.op hdid
  obtain ⟨_, ch, hscope, hexec⟩ := hrun.did hselect hdid
  obtain ⟨r', hr', hreply⟩ := exec_select_session_found
    (mem_by_selector.mpr ⟨hr, hsel, in_time select hselect htid hop r hr hsel⟩)
    (hscope _ rfl) hexec
  obtain ⟨hmem', hsel', _⟩ := mem_by_selector.mp hr'
  obtain rfl : r' = r := (event_keyed hrun hselect).session_eq hmem' hr
    (selected_id hrun hselect hselect hmem' hr hsel' hsel)
  obtain ⟨y, rfl, hanswer⟩ := hreuse r'.read hreply hrevoked hverified
  obtain ⟨a, b, hprec, ha, hb, hadid, hbdid, hall⟩ := history_pair hhistory
  have hy : y = some () := by
    obtain ⟨_, ch, hscope, hexec⟩ := hrun.did hprec.right hbdid
    exact exec_revoke_user_answers (Uuid.UUID_TO_BIN_to_string r'.user_id) (hscope _ rfl) hexec
  subst hy
  have hselecta : select = a := by
    rcases hall select hselect htid with heq | heq
    · exact heq
    · rw [heq, hbdid] at hdid
      cases congrArg Done.op hdid
  subst hselecta
  exact ⟨hanswer rfl, r', select, b, hprec, ha, hb, hop, hbdid, hr, hsel, hall⟩

/-! ## What it does -/

/-- The sessions of the other users. -/
def Store.others (s : Store) (u : Uuid) : List Session := s.sessions.filter (·.user_id != u)

theorem others_revoke (s : Store) (u : Uuid) :
    (s.revoke fun r => r.user_id == u && r.revoked_at.isNone).others u = s.others u := by
  apply filter_map_of_fixed s.sessions
  · intro r
    split <;> rfl
  · intro r _ hr
    rw [if_neg]
    simp only [bne_iff_ne, ne_eq] at hr
    simp [hr]

/-- A session that was reached from the token by a chain of rotations. -/
inductive Reached (env : Env) (d : AuthConf) (refresh_token : String) : Session → Prop
  | rotated {e : AuthEvent} {v : SessionInsert} {row : Session} {fingerprint : String} :
      e ∈ d.world.log → Inserts e v row → e.req = .token_refresh refresh_token fingerprint →
        Reached env d refresh_token row
  | next {e : AuthEvent} {v : SessionInsert} {row row' : Session} {token fingerprint : String} :
      Reached env d refresh_token row → row.Selected env (env.sha256_hex token) →
        e ∈ d.world.log → Inserts e v row' → e.req = .token_refresh token fingerprint →
          Reached env d refresh_token row'

/-- The session was there when some event had been executed. -/
theorem Reached.inserted {refresh_token : String} {row : Session}
    (h : Reached env d refresh_token row) : ∃ e ∈ d.world.log, row ∈ e.post.sessions := by
  cases h with
  | rotated he hins _ => exact ⟨_, he, hins.mem⟩
  | next _ _ he hins _ => exact ⟨_, he, hins.mem⟩

/-- **Theft containment**, at the end of a run in which the call that presented the token again
executed `moment` as its last operation. -/
structure Contained (env : Env) (d : AuthConf) (refresh_token : String) (u : Uuid)
    (moment : AuthEvent) : Prop where
  /-- The token is the user's, and so is every session reached from it. -/
  owner : ∃ r ∈ moment.post.sessions, r.Selected env (env.sha256_hex refresh_token) ∧
    r.user_id = u
  reached : ∀ r, Reached env d refresh_token r → r.user_id = u
  /-- No session of another user was changed by the call. -/
  others : ∀ e ∈ d.world.log, e.tid = moment.tid → e.post.others u = e.pre.others u
  /-- Every session of the user that existed at that moment is revoked. -/
  revoked : ∀ r ∈ moment.post.sessions, r.user_id = u →
    ∃ r' ∈ d.world.store.sessions, r.Becomes r' ∧ r'.revoked_at.isSome
  /-- No later call exchanges a token of one of them. -/
  dead : ∀ r ∈ moment.post.sessions, r.user_id = u → ∀ t token fingerprint resp,
    moment.tid < t → d.returned t (.token_refresh token fingerprint) (.ok resp) →
      ¬ r.Selected env (env.sha256_hex token)

section Detected

variable {t : Nat} {refresh_token : String} {r : Session} {select revoke : AuthEvent}

theorem Detected.revoke_post (hd : Detected env d t refresh_token r select revoke)
    (h : SerialRun env (start clock) ls d) :
    revoke.post = revoke.pre.revoke fun r' => r'.user_id == r.user_id && r'.revoked_at.isNone := by
  obtain ⟨_, _, _, hexec⟩ := h.run.did hd.order.right hd.revoke_did
  exact exec_revokes (revokes_user (Uuid.UUID_TO_BIN_to_string r.user_id)) hexec

theorem Detected.select_post (hd : Detected env d t refresh_token r select revoke)
    (h : SerialRun env (start clock) ls d) : select.post.sessions = select.pre.sessions := by
  obtain ⟨_, _, _, hexec⟩ := h.run.executed hd.order.left
  have hchange := exec_sessions hexec
  rw [hd.select_op] at hchange
  generalize select.post.sessions = l at hchange
  cases hchange with
  | same => rfl
  | revoked hclause => cases hclause

/-- Every session of the user is revoked when the call has executed its UPDATE. -/
theorem Detected.revoked (hd : Detected env d t refresh_token r select revoke)
    (h : SerialRun env (start clock) ls d) {r' : Session} (hr' : r' ∈ revoke.post.sessions)
    (huser : r'.user_id = r.user_id) : r'.revoked_at.isSome := by
  rw [hd.revoke_post h] at hr'
  exact revoked_by_user hr' huser

/-- A session reached from the token is the user's. -/
theorem Detected.reached (hd : Detected env d t refresh_token r select revoke)
    (h : SerialRun env (start clock) ls d) {row : Session} (hrow : Reached env d refresh_token row) :
    row.user_id = r.user_id := by
  have hrun := h.run
  induction hrow with
  | rotated he hins hreq =>
    obtain ⟨read, _, r₀, hx, _, huser⟩ := inserted_exchange hrun he hins hreq
    obtain ⟨_, _, h₁, h₂⟩ := selected_meet hrun (event_since hrun hx.read_mem)
      (event_since hrun hd.order.left) hx.found hd.found hx.selected hd.selected
    rw [huser, ← h₁.user_id_eq, h₂.user_id_eq]
  | next hfrom hsel he hins hreq ih =>
    obtain ⟨read, _, r₀, hx, _, huser⟩ := inserted_exchange hrun he hins hreq
    obtain ⟨i, hi, hmem⟩ := hfrom.inserted
    obtain ⟨_, _, h₁, h₂⟩ := selected_meet hrun (event_since hrun hx.read_mem)
      (hrun.since (later_follows env) hi) hx.found hmem hx.selected hsel
    rw [huser, ← h₁.user_id_eq, h₂.user_id_eq, ih]

/-- A reuse that was detected is contained. -/
theorem Detected.contained (hd : Detected env d t refresh_token r select revoke)
    (h : SerialRun env (start clock) ls d) :
    Contained env d refresh_token r.user_id revoke := by
  have hrun := h.run
  refine ⟨?_, fun r' hr' => hd.reached h hr', ?_, ?_, ?_⟩
  · obtain ⟨r', hr', hb⟩ := ((event_later hrun hd.order.left).trans
      ((hrun.between (later_follows env) hd.order).trans
        (event_later hrun hd.order.right))).sessions r hd.found
    exact ⟨r', hr', hb.selected.mpr hd.selected, hb.user_id_eq⟩
  · intro e he ht
    rcases hd.all e he (ht.trans hd.revoke_tid) with rfl | rfl
    · exact congrArg (List.filter _) (hd.select_post h)
    · rw [hd.revoke_post h]
      exact others_revoke _ _
  · intro r' hr' huser
    obtain ⟨r₂, hr₂, hb⟩ := (hrun.since (later_follows env) hd.order.right).sessions r' hr'
    exact ⟨r₂, hr₂, hb, hb.revoked (hd.revoked h hr' huser)⟩
  · intro r' hr' huser t' token fingerprint resp hlt hret hsel
    obtain ⟨read, _, r₀, hx, _⟩ := returned_exchange hrun hret
    have hprec := h.precedes hd.order.right hx.read_mem (hx.read_tid ▸ hlt)
    obtain ⟨r₂, hr₂, hb⟩ := (hrun.between (later_follows env) hprec).sessions r' hr'
    have hid := selected_id hrun hx.read_mem hx.read_mem hr₂ hx.found (hb.selected.mpr hsel)
      hx.selected
    have hsame := (event_keyed hrun hx.read_mem).session_eq hr₂ hx.found hid
    have hsome := hb.revoked (hd.revoked h hr' huser)
    rw [hsame, hx.live] at hsome
    cases hsome

end Detected

/-! ## The call returns -/

theorem token_refresh_await (refresh_token fingerprint : String) :
    token_refresh env refresh_token fingerprint =
      .await (.sql (.select_session (env.sha256_hex refresh_token))) fun
        | some (some row) => do
          let pair ← rotate_row env refresh_token fingerprint row
          pure (.tokens pair)
        | some none => fail .SessionNotFound
        | none => fail .Database := by
  rw [token_refresh, rotate_await]
  refine congrArg (Prog.await _) (funext ?_)
  rintro (_ | _ | row) <;> rfl

/-- The rotation of a row that is revoked and belongs to the token. -/
theorem rotate_row_reuse {refresh_token fingerprint : String} {row : SessionRow}
    (revoked : row.revoked_at.isSome)
    (verified : env.bcrypt_verify refresh_token row.refresh_token_hash = .ok true) :
    (do
      let pair ← rotate_row env refresh_token fingerprint row
      pure (Response.tokens pair)) =
      .await (.sql (.revoke_user_sessions row.user_id_str)) fun
        | some _ => fail .RefreshTokenReuse
        | none => fail .Database := by
  rw [rotate_row_revoked revoked verified]
  refine congrArg (Prog.await _) (funext ?_)
  rintro (_ | _) <;> rfl

/-- A call at work in a serial run executes its next operation. -/
theorem serial_step (h : SerialRun env c ls d) {t : Nat}
    {call : Call Request Op Op.Res Failure Response} {op : Op} {next : op.Res → Async Response}
    {r : op.Res} {s : Store} (hcall : d.pool[t]? = some call) (hdropped : call.dropped = false)
    (hprog : call.prog = .await op next) (hexec : exec env {} d.world.store op = some (r, s)) :
    ∃ d', SerialRun env c (ls ++ [.run t {}]) d' ∧ d'.world.store = s ∧
      d'.pool[t]? = some { call with prog := next r } := by
  have hlt : t < d.pool.length := (List.getElem?_eq_some_iff.mp hcall).1
  have hstep : step (machine env) (serve env) d (.run t {}) = some _ :=
    step_run hcall hdropped hprog hexec
  refine ⟨_, h.snoc ?_ ?_ hstep, rfl, List.getElem?_set_self hlt⟩
  · intro _ _ _ _ _ _ _
    rfl
  · intro _ hspawn
    cases hspawn

/-- A call that presents an exchanged token in time can be executed to its end. -/
theorem reuse_returns (h : SerialRun env (start clock) ls d) (idle : d.Idle) {t₁ : Nat}
    {refresh_token fingerprint : String} {resp : Response}
    (first : d.returned t₁ (.token_refresh refresh_token fingerprint) (.ok resp))
    (in_time : ∀ r ∈ d.world.store.sessions,
      r.Selected env (env.sha256_hex refresh_token) → d.world.store.now < r.expires_at)
    (fingerprint' : String) :
    ∃ ms d', SerialRun env d ms d' ∧
      d'.returned d.pool.length (.token_refresh refresh_token fingerprint')
        (.error (.error .RefreshTokenReuse)) := by
  have hrun := h.run
  obtain ⟨read, revoked, r₀, hx, hreq⟩ := returned_exchange hrun first
  obtain ⟨r, hr, hsel, hrevoked, hverified⟩ := hx.row_in hrun hreq (run_keyed hrun)
    (event_since hrun hx.read_mem) (hrun.since (later_follows env) hx.revoked_mem)
  -- The SELECT finds the row, and the bulk UPDATE answers.
  have hselect : exec env {} d.world.store
      (.sql (.select_session (env.sha256_hex refresh_token))) =
        some (some (some r.read), d.world.store) := by
    have answered : exec env {} d.world.store
        (.sql (.select_session (env.sha256_hex refresh_token))) =
          some (some ((limit_one 0 (d.world.store.by_selector env
            (env.sha256_hex refresh_token))).map Session.read), d.world.store) := rfl
    obtain ⟨r', hr', hreply⟩ := exec_select_session_found
      (mem_by_selector.mpr ⟨hr, hsel, in_time r hr hsel⟩) rfl answered
    obtain ⟨hmem', hsel', _⟩ := mem_by_selector.mp hr'
    obtain rfl := selector_unique hrun hmem' hr hsel' hsel
    rw [answered, hreply]
  have hrevoke : exec env {} d.world.store (.sql (.revoke_user_sessions r.user_id.to_string)) =
      some (some (), d.world.store.revoke fun r' =>
        r'.user_id == r.user_id && r'.revoked_at.isNone) := by
    simp only [exec, Sql.run, Uuid.UUID_TO_BIN_to_string]
    rfl
  let call : Call Request Op Op.Res Failure Response :=
    { req := .token_refresh refresh_token fingerprint'
      prog := serve env (.token_refresh refresh_token fingerprint') }
  let t := d.pool.length
  let arrived : AuthConf := { d with pool := d.pool ++ [call] }
  have hcall : arrived.pool[t]? = some call := List.getElem?_concat_length ..
  have spawned : SerialRun env d ([] ++ [.spawn call.req]) arrived :=
    .snoc (.nil d) trivial (fun _ _ => idle) rfl
  obtain ⟨d₁, looked, hstore, hcall₁⟩ :=
    serial_step spawned hcall rfl (token_refresh_await _ _) hselect
  obtain ⟨d₂, finished, _, hcall₂⟩ := serial_step looked hcall₁ rfl
    (rotate_row_reuse hrevoked hverified) (hstore.symm ▸ hrevoke)
  exact ⟨_, d₂, finished, _, hcall₂, rfl, rfl⟩

/-- **Theft containment.** In every run in which the handlers execute one at a time and no
statement fails, a token that was exchanged and is presented again in time is detected as reused,
and the reuse is contained; and such a call does return. -/
theorem theft_containment (env : Env) (clock : Nat) (ls : List AuthLabel) (d : AuthConf)
    (h : SerialRun env (start clock) ls d) (t₁ : Nat) (refresh_token fingerprint : String)
    (resp : Response)
    (first : d.returned t₁ (.token_refresh refresh_token fingerprint) (.ok resp)) :
    (∀ t₂ fingerprint' res, t₁ < t₂ →
      d.returned t₂ (.token_refresh refresh_token fingerprint') res →
        InTime env d t₂ refresh_token →
          res = .error (.error .RefreshTokenReuse) ∧
            ∃ u, ∃ moment ∈ d.world.log, moment.tid = t₂ ∧
              Contained env d refresh_token u moment) ∧
      (d.Idle → (∀ r ∈ d.world.store.sessions,
        r.Selected env (env.sha256_hex refresh_token) → d.world.store.now < r.expires_at) →
          ∀ fingerprint', ∃ ms d', SerialRun env d ms d' ∧
            d'.returned d.pool.length (.token_refresh refresh_token fingerprint')
              (.error (.error .RefreshTokenReuse))) := by
  refine ⟨?_, ?_⟩
  · intro t₂ fingerprint' res later again in_time
    obtain ⟨hres, r, select, revoke, hd⟩ := reuse_detected h first later again in_time
    exact ⟨hres, r.user_id, revoke, hd.order.right, hd.revoke_tid, hd.contained h⟩
  · intro idle in_time fingerprint'
    exact reuse_returns h idle first in_time fingerprint'

/-! ## A reuse -/

/-- A move without a fault. -/
def faultless : AuthLabel → Bool
  | .run _ ch => ch.fault = .none
  | _ => true

theorem faultless_allows (c : AuthConf) (l : AuthLabel) (h : faultless l = true) :
    no_database_fault.allows c l := by
  cases l with
  | run t ch =>
    intro _ _ _ _ _ _ _
    exact of_decide_eq_true h
  | _ => trivial

/-- A login, a rotation of its token, and the token again. -/
def reuse : List AuthLabel :=
  sample_login ++
    (uninterrupted 3 (.token_refresh (sample_token 'a') "phone") ({} :: {} :: issuing 'b' 10) ++
      uninterrupted 4 (.token_refresh (sample_token 'a') "thief") [{}, {}])

theorem reuse_runs : ∃ d, SerialRun sample sample_start reuse d ∧
    (d.succeeded 3 (.token_refresh (sample_token 'a') "phone") = true ∧
      d.pool[4]?.map (·.req) = some (.token_refresh (sample_token 'a') "thief") ∧
      d.result? 4 = some (.error (.error .RefreshTokenReuse))) ∧
        ∀ e ∈ d.world.log, ∀ r ∈ e.pre.sessions, e.pre.now < r.expires_at := by
  have checked : (serial_replay (machine sample) (serve sample) faultless sample_start reuse).any
      (fun d => (d.succeeded 3 (.token_refresh (sample_token 'a') "phone") &&
        (decide (d.pool[4]?.map (·.req) = some (.token_refresh (sample_token 'a') "thief")) &&
          decide (d.result? 4 = some (.error (.error .RefreshTokenReuse))))) &&
            d.world.log.all fun e => e.pre.sessions.all fun r => e.pre.now < r.expires_at) =
        true := by
    decide +kernel
  obtain ⟨d, hd, hchecks⟩ := (Option.any_eq_true _ _).mp checked
  simp only [Bool.and_eq_true, decide_eq_true_eq, List.all_eq_true] at hchecks
  exact ⟨d, serial_of_replay faultless_allows hd, hchecks⟩

/-- The guarantee at that run. -/
theorem theft_containment_reuse : ∃ d, SerialRun sample sample_start reuse d ∧
    ∃ u, ∃ moment ∈ d.world.log, moment.tid = 4 ∧
      Contained sample d (sample_token 'a') u moment := by
  obtain ⟨d, hrun, ⟨hfirst, hreq, hres⟩, hexpiry⟩ := reuse_runs
  obtain ⟨resp, first⟩ := returned_ok hfirst
  have again := returned_of_result? hreq hres
  have in_time : InTime sample d 4 (sample_token 'a') := by
    intro e he _ _ r hr _
    exact hexpiry e he r hr
  have contained := (theft_containment sample _ reuse d hrun 3 (sample_token 'a') "phone" resp
    first).1 4 "thief" _ (by decide) again in_time
  exact ⟨d, hrun, contained.2⟩

end Kova.Auth

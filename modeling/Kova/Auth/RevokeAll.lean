import Kova.Auth.SessionLaws

/-!
# Revoking all sessions

`sessions_revoke_all` reads the live sessions of its caller, revokes them by one UPDATE and
caches their identifiers. Next to rotations of the caller's tokens it is final if no rotation
straddles the UPDATE, with its SELECT before and its INSERT after (`revoke_all_final`): a
rotation that reads after the UPDATE finds no live session of the user, by induction on the
position of its SELECT. A rotation that straddles the UPDATE leaves a live session behind
(`straddling_rotation`).
-/

set_option autoImplicit false

namespace Kova.Auth

open Conc

variable {env : Env} {S : AuthScope} {clock : Nat} {ls : List AuthLabel} {d : AuthConf}

/-- A session that can be used: not revoked and not expired. -/
def Session.Live (r : Session) (now : Int) : Prop := r.revoked_at = none ∧ now < r.expires_at

def Op.selects_session : Op → Bool
  | .sql (.select_session _) => true
  | _ => false

def Op.inserts_session : Op → Bool
  | .sql (.insert_session _) => true
  | _ => false

/-- The bulk UPDATE. -/
def Op.revokes_user : Op → Bool
  | .sql (.revoke_user_sessions _) => true
  | _ => false

/-- Next to call `t` only rotations of the user's tokens are at work: no other call inserts a
session after the bulk UPDATE of call `t`. -/
def OnlyRotations (d : AuthConf) (t : Nat) (u : Uuid) : Prop :=
  ∀ update insert, Precedes d.world.log update insert → update.tid = t →
    update.op.revokes_user = true → insert.op.inserts_session = true →
      ∃ refresh_token fingerprint, insert.req = .token_refresh refresh_token fingerprint ∧
        IssuedTo d u refresh_token

/-- A call reads a session before the bulk UPDATE of call `t` and inserts one after it. -/
def Straddles (d : AuthConf) (t : Nat) : Prop :=
  ∃ read update insert, Precedes d.world.log read update ∧ Precedes d.world.log update insert ∧
    update.tid = t ∧ update.op.revokes_user = true ∧ read.tid = insert.tid ∧
    read.op.selects_session = true ∧ insert.op.inserts_session = true

/-- The session was created by a rotation of a token of the user. -/
def CreatedByRotation (d : AuthConf) (u : Uuid) (r : Session) : Prop :=
  ∃ e ∈ d.world.log, ∃ v row refresh_token fingerprint, Inserts e v row ∧ row.id = r.id ∧
    e.req = .token_refresh refresh_token fingerprint ∧ IssuedTo d u refresh_token

/-- No session of the user is live, and none that a rotation of the user's tokens created. -/
def NoneLive (d : AuthConf) (u : Uuid) : Prop :=
  ∀ r ∈ d.world.store.sessions, r.user_id = u ∨ CreatedByRotation d u r →
    ¬ r.Live d.world.store.now

/-- The UPDATE of a successful call has revoked every session of its caller. -/
theorem bulk_update (h : AuthRun env S (start clock) ls d) {t : Nat} {auth : Jwt.AuthHeader}
    {resp : Response} {u : Uuid} (returned : d.returned t (.sessions_revoke_all auth) (.ok resp))
    (user : caller auth = some u) :
    ∃ update ∈ d.world.log, update.tid = t ∧ update.op.revokes_user = true ∧
      ∀ r ∈ update.post.sessions, r.user_id = u → r.revoked_at.isSome := by
  have hanswer := h.answer (serve_guarded env) returned
  cases resp with
  | tokens pair => exact hanswer.elim
  | _ =>
    obtain ⟨sub, hmem, hsub⟩ := hanswer
    obtain ⟨update, hupdate, htid, hdid⟩ := mem_history.mp hmem
    refine ⟨update, hupdate, htid, ?_, ?_⟩
    · rw [show update.op = .sql (.revoke_user_sessions sub) from congrArg Done.op hdid]
      rfl
    · intro r hr huser
      obtain ⟨_, _, _, hexec⟩ := h.did hupdate hdid
      have hpost := exec_revokes (revokes_user (hsub.trans user)) hexec
      rw [hpost] at hr
      exact revoked_by_user hr huser

/-- **No session of the user is live after the UPDATE**, in any configuration from then on. -/
theorem revoked_since (h : AuthRun env S (start clock) ls d) {u : Uuid} {update : AuthEvent}
    {before after : List AuthEvent} (split : d.world.log = before ++ update :: after)
    (bulk : ∀ r ∈ update.post.sessions, r.user_id = u → r.revoked_at.isSome)
    (op : update.op.revokes_user = true)
    (rotations : ∀ insert ∈ after, insert.op.inserts_session = true →
      ∃ refresh_token fingerprint, insert.req = .token_refresh refresh_token fingerprint)
    (apart : ∀ read ∈ before, ∀ insert ∈ after, read.tid = insert.tid →
      read.op.selects_session = true → insert.op.inserts_session = true → False) :
    ∀ r ∈ d.world.store.sessions, r.user_id = u → r.revoked_at.isSome := by
  induction hn : after.length using Nat.strong_induction_on generalizing d ls after with
  | _ n ih =>
    intro r hr huser
    obtain ⟨i, hi, v, row, hins, hb⟩ := session_inserted h r hr
    have hmem : update ∈ d.world.log := by simp [split]
    rw [split] at hi
    rcases List.mem_append.mp hi with hi | hi
    · -- Inserted before the UPDATE: revoked by it.
      have hprec : Precedes d.world.log i update := ⟨before, after, split, hi⟩
      obtain ⟨r₁, hr₁, h₁⟩ := ((h.between (later_follows env) hprec).trans
        (event_later h hmem)).sessions row hins.mem
      have hrevoked := bulk r₁ hr₁ (by rw [h₁.user_id_eq, ← hb.user_id_eq, huser])
      have hbecomes := (h.since (later_follows env) hmem).session_becomes (run_keyed h) hr₁ hr
        (h₁.id_eq.trans hb.id_eq.symm)
      exact hbecomes.revoked hrevoked
    · rcases List.mem_cons.mp hi with rfl | hi
      · rw [hins.1] at op
        cases op
      · -- Inserted after it: by a rotation whose SELECT came after it too.
        exfalso
        have hinserts : i.op.inserts_session = true := by rw [hins.1]; rfl
        obtain ⟨refresh_token, fingerprint, hreq⟩ := rotations i hi hinserts
        obtain ⟨mid, rest, rfl⟩ := List.append_of_mem hi
        have split' : d.world.log = (before ++ update :: mid) ++ i :: rest := by simp [split]
        obtain ⟨read, revoked, r₀, hx, hread, _, hrow⟩ := rotation_exchanged h split' hins hreq
        rcases List.mem_append.mp hread with hread | hread
        · exact apart read hread i hi hx.read_tid (by rw [hx.read_op]; rfl) hinserts
        · rcases List.mem_cons.mp hread with rfl | hread
          · rw [hx.read_op] at op
            cases op
          · obtain ⟨mid₁, mid₂, rfl⟩ := List.append_of_mem hread
            have split'' : d.world.log =
                (before ++ update :: mid₁) ++ read :: (mid₂ ++ i :: rest) := by simp [split]
            obtain ⟨ms, c, hrun, hworld, _⟩ := h.at_event (List.nil_append _).symm split''
            have hlog : c.world.log = before ++ update :: mid₁ := by rw [hworld]; rfl
            have hlive := ih mid₁.length (by simp at hn; omega) hrun hlog
              (fun e he => rotations e (by simp [he]))
              (fun read' hread' insert' hinsert' => apart read' hread' insert' (by simp [hinsert']))
              rfl r₀ (by rw [hworld]; exact hx.found)
              (by rw [← hrow, ← hb.user_id_eq, huser])
            rw [hx.live] at hlive
            cases hlive

/-- What a rotation of a user's token creates is the user's. -/
theorem CreatedByRotation.user_eq (h : AuthRun env S (start clock) ls d) {u : Uuid} {r : Session}
    (hr : r ∈ d.world.store.sessions) (hc : CreatedByRotation d u r) : r.user_id = u := by
  obtain ⟨e, he, v, row, refresh_token, fingerprint, hins, hid, hreq, hissued⟩ := hc
  obtain ⟨before, after, split⟩ := List.append_of_mem he
  obtain ⟨read, revoked, r₀, hx, _, _, hrow⟩ := rotation_exchanged h split hins hreq
  have hb := (h.since (later_follows env) he).session_becomes (run_keyed h) hins.mem hr hid
  rw [hb.user_id_eq, hrow]
  exact hissued.user_eq h hx.read_mem hx.found hx.selected

/-- **Revoke-all is final** next to rotations of the user's tokens, however they interleave, if
none of them straddles the bulk UPDATE. -/
theorem revoke_all_final (env : Env) (clock : Nat) (ls : List AuthLabel) (d : AuthConf)
    (h : AuthRun env .all (start clock) ls d) (t : Nat) (auth : Jwt.AuthHeader) (resp : Response)
    (u : Uuid) (returned : d.returned t (.sessions_revoke_all auth) (.ok resp))
    (user : caller auth = some u) (rotations : OnlyRotations d t u) (apart : ¬ Straddles d t) :
    NoneLive d u := by
  obtain ⟨update, hupdate, htid, hop, hbulk⟩ := bulk_update h returned user
  obtain ⟨before, after, split⟩ := List.append_of_mem hupdate
  have follows : ∀ e ∈ after, Precedes d.world.log update e := by
    intro e he
    obtain ⟨mid, rest, rfl⟩ := List.append_of_mem he
    exact ⟨before ++ update :: mid, rest, by simp [split], by simp⟩
  have revoked := revoked_since h split hbulk hop
    (fun insert hinsert hins => by
      obtain ⟨refresh_token, fingerprint, hreq, _⟩ :=
        rotations update insert (follows insert hinsert) htid hop hins
      exact ⟨refresh_token, fingerprint, hreq⟩)
    (fun read hread insert hinsert hsame hsel hins => apart ⟨read, update, insert,
      ⟨before, after, split, hread⟩, follows insert hinsert, htid, hop, hsame, hsel, hins⟩)
  intro r hr hwhose hlive
  have huser : r.user_id = u := hwhose.elim id fun hc => hc.user_eq h hr
  have hsome := revoked r hr huser
  rw [hlive.1] at hsome
  cases hsome

/-- Whether an event is the bulk UPDATE of call `t` and the other inserts a session. -/
def bulk_then_insert (t : Nat) (a b : AuthEvent) : Bool :=
  a.tid == t && a.op.revokes_user && b.op.inserts_session

/-- A login, then a revocation of all sessions next to a rotation that reads after its UPDATE. -/
def rotation_after : List AuthLabel :=
  sample_login ++ [.spawn (.sessions_revoke_all sample_bearer),
    .spawn (.token_refresh (sample_token 'a') "phone"), .run 3 {}, .run 3 {}, .run 3 {}, .run 4 {},
    .run 4 {}, .run 3 {}]

def after_rotation_after : AuthConf :=
  replayed (machine sample) (serve sample) sample_start rotation_after

theorem rotation_after_runs : AuthRun sample .all sample_start rotation_after after_rotation_after ∧
    after_rotation_after.succeeded 3 (.sessions_revoke_all sample_bearer) = true ∧
      after_rotation_after.world.log.Pairwise fun a b => bulk_then_insert 3 a b = false := by
  obtain ⟨run, checked⟩ := replayed_spec (machine sample) (serve sample) sample_start
    rotation_after
    (fun d => d.succeeded 3 (.sessions_revoke_all sample_bearer) &&
      decide (d.world.log.Pairwise fun a b => bulk_then_insert 3 a b = false))
    (by decide +kernel)
  obtain ⟨ok, apart⟩ := Bool.and_eq_true_iff.mp checked
  unfold after_rotation_after
  exact ⟨run, ok, of_decide_eq_true apart⟩

/-- The guarantee at that run. -/
theorem revoke_all_final_rotation_after : NoneLive after_rotation_after (.low 1) := by
  obtain ⟨run, ok, apart⟩ := rotation_after_runs
  obtain ⟨resp, returned⟩ := returned_ok ok
  have never : ∀ {a b : AuthEvent}, Precedes after_rotation_after.world.log a b → a.tid = 3 →
      a.op.revokes_user = true → b.op.inserts_session = true → False := by
    intro a b hab htid hop hins
    have hfalse := hab.rel apart
    simp [bulk_then_insert, htid, hop, hins] at hfalse
  exact revoke_all_final sample _ rotation_after after_rotation_after run 3 sample_bearer resp
    (.low 1) returned (by decide +kernel)
    (fun _ _ hab htid hop hins => (never hab htid hop hins).elim)
    (fun ⟨_, _, _, _, hab, htid, hop, _, _, hins⟩ => never hab htid hop hins)

/-- A login, then a rotation that reads the session before the bulk UPDATE revokes it and inserts
the next one after. -/
def straddling : List AuthLabel :=
  sample_login ++ ([.spawn (.sessions_revoke_all sample_bearer),
    .spawn (.token_refresh (sample_token 'a') "phone"), .run 3 {}, .run 3 {}, .run 4 {}, .run 3 {},
    .run 3 {}, .run 4 {}] ++ (issuing 'b' 10).map (.run 4))

/-- A rotation that outlives a revocation of all sessions. -/
theorem straddling_rotation :
    ¬ ∀ (env : Env) (clock : Nat) (ls : List AuthLabel) (d : AuthConf),
      AuthRun env .all (start clock) ls d → ∀ t auth resp u,
        d.returned t (.sessions_revoke_all auth) (.ok resp) → caller auth = some u →
          OnlyRotations d t u → (∀ call ∈ d.pool, call.prog.finished = true) → NoneLive d u := by
  intro claim
  obtain ⟨run, checked⟩ := replayed_spec (machine sample) (serve sample) sample_start straddling
    (fun d => d.succeeded 3 (.sessions_revoke_all sample_bearer) &&
      (decide (d.result? 2 = some (.ok (.tokens sample_pair))) &&
        (d.pool.all (fun call => call.prog.finished) &&
          (decide (d.world.log.Pairwise fun a b => bulk_then_insert 3 a b = true →
              b.req = .token_refresh (sample_token 'a') "phone") &&
            d.world.store.sessions.any fun r =>
              r.user_id == .low 1 && (r.revoked_at.isNone && d.world.store.now < r.expires_at)))))
    (by decide +kernel)
  simp only [Bool.and_eq_true, decide_eq_true_eq] at checked
  obtain ⟨ok, login, finished, rotations, live⟩ := checked
  obtain ⟨resp, returned⟩ := returned_ok ok
  obtain ⟨req, issued⟩ := returned_of_result login
  have final := claim sample _ straddling _ run 3 sample_bearer resp (.low 1) returned
    (by decide +kernel) ?_ (List.all_eq_true.mp finished)
  · obtain ⟨r, hr, hlive⟩ := List.any_eq_true.mp live
    simp only [Bool.and_eq_true, beq_iff_eq, decide_eq_true_eq, Option.isNone_iff_eq_none] at hlive
    exact final r hr (.inl hlive.1) hlive.2
  · intro update insert hprec htid hop hins
    have hreq := hprec.rel rotations (by simp [bulk_then_insert, htid, hop, hins])
    exact ⟨_, _, hreq, sample_pair, ⟨2, req, issued⟩, rfl, rfl⟩

end Kova.Auth

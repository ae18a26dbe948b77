import Kova.Conc.Performs
import Kova.Auth.SessionLaws

/-!
# A rotation that fails

TASK-040: the old token is invalidated in the transaction that creates the new one. The code revokes
the old session by an UPDATE of its own, with the signing, the random token, its hash and the INSERT
still to come, so a rotation that fails costs nothing exactly when it fails at the SELECT or at the
UPDATE without effect (`failed_rotation_iff`). After any other failure the session is revoked and
nothing replaces it: the token presented again is taken for a stolen one, and every session of the
user is revoked (`half_done_rotation`).
-/

set_option autoImplicit false

namespace Kova.Auth

open Conc

/-- One step of a call of kova-auth, with its choice. -/
abbrev AuthTaken := Taken Store Op Op.Res Choice

/-- What a program of kova-auth executes by itself, time passing. -/
abbrev Executes (env : Env) {α : Type} (p : Async α) (s : Store) (steps : List AuthTaken)
    (p' : Async α) (s' : Store) : Prop :=
  Performs (machine env) 0 p s steps p' s'

variable {env : Env} {clock : Nat} {ls : List AuthLabel} {c : AuthConf} {s s' : Store}
  {refresh_token device_fingerprint : String} {x : Session} {steps : List AuthTaken}

/-- The token is that of the live session `x`. -/
structure LiveFor (env : Env) (s : Store) (refresh_token : String) (x : Session) : Prop where
  found : x ∈ s.sessions
  selected : x.Selected env (env.sha256_hex refresh_token)
  live : x.revoked_at = none
  verified : env.bcrypt_verify refresh_token x.refresh_token_hash = .ok true

/-- The session has not expired where the call looks the token up. -/
def Unexpired (x : Session) (steps : List AuthTaken) : Prop :=
  ∀ y ∈ steps, ∀ selector, y.op = .sql (.select_session selector) → y.pre.now < x.expires_at

/-- **A failed call costs nothing**: the sessions are as before, and the token presented again, when
no step fails any more, is exchanged without touching any other session. -/
structure CostsNothing (env : Env) (refresh_token : String) (x : Session) (s s' : Store) :
    Prop where
  sessions : s'.sessions = s.sessions
  again : ∀ device_fingerprint steps p s'',
    Executes env (rotate_refresh_token env refresh_token device_fingerprint) s' steps p s'' →
      p.finished = true → Unexpired x steps → Faultless env (steps.map Taken.did) →
        (∃ pair, p = .ret pair) ∧ ∀ r ∈ s'.sessions, r.id ≠ x.id → r ∈ s''.sessions

/-- The step is the SELECT and fails, or the revoking UPDATE and fails without effect. -/
def fails_early (y : AuthTaken) : Bool :=
  match y.op with
  | .sql (.select_session _) => y.choice.fault ≠ .none
  | .sql (.revoke_session _) => y.choice.fault = .failed
  | _ => false

/-- The call fails at the SELECT, or at the revoking UPDATE without effect. -/
def FailsBeforeRevoking (steps : List AuthTaken) : Prop := ∃ y ∈ steps, fails_early y = true

/-! ## The steps of a rotation -/

/-- Time passes. -/
theorem drifts_time (h : (machine env).Drifts s s') :
    ∃ n, s' = { s with clock := s.clock + n } := by
  induction h with
  | refl => exact ⟨0, rfl⟩
  | tail _ hmove ih =>
    obtain ⟨n, rfl⟩ := ih
    obtain ⟨⟨m⟩, henv⟩ := hmove
    cases henv
    exact ⟨n + m, congrArg (fun k => { s with clock := k }) (Nat.add_assoc _ _ _)⟩

theorem drifts_sessions (h : (machine env).Drifts s s') : s'.sessions = s.sessions := by
  obtain ⟨n, rfl⟩ := drifts_time h
  rfl

/-- What the SELECT of a rotation comes to: it failed, or it found the row of the token. -/
theorem rotation_selects {p : Async TokenPair}
    (unique : ∀ r ∈ s.sessions, r.Selected env (env.sha256_hex refresh_token) → r = x)
    (found : x ∈ s.sessions) (selected : x.Selected env (env.sha256_hex refresh_token))
    (h : Executes env (rotate_refresh_token env refresh_token device_fingerprint) s steps p s')
    (hp : p.finished = true) (unexpired : Unexpired x steps) :
    ∃ ch s₀ r rest,
      steps = ⟨ch, .sql (.select_session (env.sha256_hex refresh_token)), s₀, r, s₀⟩ :: rest ∧
      (machine env).Drifts s s₀ ∧
      ((ch.fault ≠ .none ∧ r = none ∧ rest = [] ∧ p = fail .Database ∧ (machine env).Drifts s₀ s') ∨
        (ch.fault = .none ∧ Executes env
          (rotate_row env refresh_token device_fingerprint x.read) s₀ rest p s')) := by
  rw [rotate_await] at h
  obtain ⟨ch, s₀, r, s₁, rest, rfl, drift, hexec, hrest⟩ := h.first hp
  obtain ⟨n, hs₀⟩ := drifts_time drift
  have hin := unexpired _ List.mem_cons_self _ rfl
  have hstay : s₁ = s₀ := by
    rcases exec_sql hexec with ⟨_, hs⟩ | ⟨hs, _⟩
    · exact hs
    · exact hs
  subst hstay
  refine ⟨ch, s₁, r, rest, rfl, drift, ?_⟩
  by_cases hfault : ch.fault = .none
  · right
    have hx : x ∈ s₁.by_selector env (env.sha256_hex refresh_token) :=
      mem_by_selector.mpr ⟨hs₀ ▸ found, selected, hin⟩
    obtain ⟨x', hx', hreply⟩ := exec_select_session_found hx hfault hexec
    obtain ⟨hmem, hsel, _⟩ := mem_by_selector.mp hx'
    obtain rfl := unique x' (drifts_sessions drift ▸ hmem) hsel
    rw [hreply] at hrest
    exact ⟨hfault, hrest⟩
  · left
    have hnone : r = none := by
      cases hf : ch.fault with
      | none => exact absurd hf hfault
      | failed | lost =>
        have hexec : exec env ch s₁ (.sql (.select_session _)) = some (r, s₁) := hexec
        simp only [exec, hf] at hexec
        exact (congrArg Prod.fst (Option.some.inj hexec)).symm
    subst hnone
    obtain ⟨rfl, rfl, hdrift⟩ := hrest.ended rfl
    exact ⟨hfault, rfl, rfl, rfl, hdrift⟩

/-- What the revoking UPDATE of a rotation comes to: it failed without effect, or the session is
revoked and the reply was lost or the pair is issued. -/
theorem rotation_revokes {p : Async TokenPair} (live : x.revoked_at = none)
    (verified : env.bcrypt_verify refresh_token x.refresh_token_hash = .ok true)
    (h : Executes env (rotate_row env refresh_token device_fingerprint x.read) s steps p s')
    (hp : p.finished = true) :
    ∃ ch s₁ r s₂ more,
      steps = ⟨ch, .sql (.revoke_session x.id.to_string), s₁, r, s₂⟩ :: more ∧
      (machine env).Drifts s s₁ ∧
      ((ch.fault = .failed ∧ r = none ∧ s₂ = s₁ ∧ more = [] ∧ p = fail .Database ∧
          (machine env).Drifts s₂ s') ∨
        (ch.fault ≠ .failed ∧ s₂ = s₁.revoke (·.id == x.id) ∧
          ((r = none ∧ more = [] ∧ p = fail .Database ∧ (machine env).Drifts s₂ s') ∨
            (r = some () ∧ Executes env
              (issue_token_pair env x.user_id device_fingerprint) s₂ more p s')))) := by
  rw [rotate_row_live (show x.read.revoked_at = none from live) verified
    (Uuid.parse_str_to_string x.user_id)] at h
  obtain ⟨ch, s₁, r, s₂, more, rfl, drift, hexec, hrest⟩ := h.first hp
  refine ⟨ch, s₁, r, s₂, more, rfl, drift, ?_⟩
  have hexec : exec env ch s₁ (.sql (.revoke_session x.id.to_string)) = some (r, s₂) := hexec
  have hend : r = none → more = [] ∧ p = fail .Database ∧ (machine env).Drifts s₂ s' := by
    rintro rfl
    obtain ⟨rfl, rfl, hdrift⟩ := hrest.ended rfl
    exact ⟨rfl, rfl, hdrift⟩
  simp only [exec, Sql.run, Uuid.UUID_TO_BIN_to_string] at hexec
  cases hf : ch.fault with
  | failed =>
    simp only [hf] at hexec
    cases hexec
    exact .inl ⟨rfl, rfl, rfl, hend rfl⟩
  | lost =>
    simp only [hf] at hexec
    cases hexec
    exact .inr ⟨by decide, rfl, .inl ⟨rfl, hend rfl⟩⟩
  | none =>
    simp only [hf] at hexec
    cases hexec
    exact .inr ⟨by decide, rfl, .inr ⟨rfl, hrest⟩⟩

/-- The failure of an operation of the issuing is a late one. -/
theorem issuing_late {y : AuthTaken} (h : y.op.issuing = true) : fails_early y = false := by
  obtain ⟨_, op, _, _, _⟩ := y
  cases op with
  | sql q =>
    cases q with
    | insert_session v => rfl
    | _ => cases h
  | _ => rfl

/-- An operation of the issuing keeps the sessions there are. -/
theorem issuing_keeps {ch : Choice} {op : Op} {r : op.Res} (hop : op.issuing = true)
    (h : exec env ch s op = some (r, s')) : s.sessions ⊆ s'.sessions := by
  have hchange := exec_sessions h
  generalize s'.sessions = l at hchange
  cases hchange with
  | same => exact List.Subset.refl _
  | inserted => exact List.subset_append_left _ _
  | @revoked q p hclause =>
    cases q with
    | insert_session v => cases hclause
    | _ => cases hop

/-- So does the issuing. -/
theorem issue_keeps {u : Uuid} {p : Async TokenPair}
    (h : Executes env (issue_token_pair env u device_fingerprint) s steps p s') :
    s.sessions ⊆ s'.sessions := by
  obtain ⟨_, each⟩ := h.guarded (issue_token_pair_faultless env u device_fingerprint [])
  refine h.relates (R := fun s s' => s.sessions ⊆ s'.sessions) (fun _ => List.Subset.refl _)
    List.Subset.trans ?_ ?_
  · rintro ⟨n⟩ s s' henv
    cases henv
    exact List.Subset.refl _
  · intro y hy
    obtain ⟨_, hop⟩ := each y hy
    exact issuing_keeps hop (h.executed y hy)

/-- The rows of other sessions are kept by the UPDATE. -/
theorem revoke_keeps {id : Uuid} {r : Session} (hr : r ∈ s.sessions) (hid : r.id ≠ id) :
    r ∈ (s.revoke (·.id == id)).sessions := by
  refine List.mem_map.mpr ⟨r, hr, ?_⟩
  rw [if_neg]
  rwa [beq_iff_eq]

/-! ## The call, and the token presented again -/

/-- **A rotation of a live session whose steps do not fail succeeds**, and touches no other
session. -/
theorem rotation_succeeds {p : Async TokenPair}
    (unique : ∀ r ∈ s.sessions, r.Selected env (env.sha256_hex refresh_token) → r = x)
    (live : LiveFor env s refresh_token x)
    (h : Executes env (rotate_refresh_token env refresh_token device_fingerprint) s steps p s')
    (hp : p.finished = true) (unexpired : Unexpired x steps)
    (faultless : Faultless env (steps.map Taken.did)) :
    (∃ pair, p = .ret pair) ∧ ∀ r ∈ s.sessions, r.id ≠ x.id → r ∈ s'.sessions := by
  obtain ⟨ch, s₀, r, rest, rfl, drift, ⟨_, rfl, _⟩ | ⟨_, hrotate⟩⟩ :=
    rotation_selects unique live.found live.selected h hp unexpired
  · exact absurd List.mem_cons_self (faultless.answered _)
  · obtain ⟨ch', s₁, r', s₂, more, rfl, drift', ⟨_, rfl, _⟩ | ⟨_, rfl, ⟨rfl, _⟩ | ⟨_, hissue⟩⟩⟩ :=
      rotation_revokes live.live live.verified hrotate hp
    · exact absurd (List.mem_cons_of_mem _ List.mem_cons_self) (faultless.answered _)
    · exact absurd (List.mem_cons_of_mem _ List.mem_cons_self) (faultless.answered _)
    · obtain ⟨hend, _⟩ :=
        hissue.guarded (issue_token_pair_faultless env x.user_id device_fingerprint [])
      have hmore : Faultless env (more.map Taken.did) := faultless.mono
        (List.map_subset _ fun y hy => List.mem_cons_of_mem _ (List.mem_cons_of_mem _ hy))
      refine ⟨?_, ?_⟩
      · cases p with
        | ret pair => exact ⟨pair, rfl⟩
        | raise e =>
          obtain ⟨_, herr⟩ := hend hmore
          cases herr
        | await op next => cases hp
      · intro r₀ hr₀ hid
        have hr₁ : r₀ ∈ s₁.sessions := by
          rw [drifts_sessions drift', drifts_sessions drift]
          exact hr₀
        exact issue_keeps hissue (revoke_keeps hr₁ hid)

/-- A call that failed once the session was revoked leaves a revoked row for the token. -/
def LeftRevoked (x : Session) (s' : Store) : Prop :=
  ∃ r ∈ s'.sessions, x.Becomes r ∧ r.revoked_at.isSome

/-- **What a call on a live session comes to**: it fails before it revokes and leaves the sessions
alone, or the session is left revoked. -/
theorem rotation_comes_to {p : Async TokenPair}
    (unique : ∀ r ∈ s.sessions, r.Selected env (env.sha256_hex refresh_token) → r = x)
    (live : LiveFor env s refresh_token x)
    (h : Executes env (rotate_refresh_token env refresh_token device_fingerprint) s steps p s')
    (hp : p.finished = true) (unexpired : Unexpired x steps) :
    (FailsBeforeRevoking steps ∧ s'.sessions = s.sessions) ∨
      (¬ FailsBeforeRevoking steps ∧ LeftRevoked x s') := by
  obtain ⟨ch, s₀, r, rest, rfl, drift, ⟨hfault, _, rfl, _, hdrift⟩ | ⟨hfault, hrotate⟩⟩ :=
    rotation_selects unique live.found live.selected h hp unexpired
  · left
    refine ⟨⟨_, List.mem_cons_self, decide_eq_true hfault⟩, ?_⟩
    rw [drifts_sessions hdrift, drifts_sessions drift]
  · obtain ⟨ch', s₁, r', s₂, more, rfl, drift',
        ⟨hfault', _, rfl, rfl, _, hdrift⟩ | ⟨hfault', rfl, hmore⟩⟩ :=
      rotation_revokes live.live live.verified hrotate hp
    · left
      refine ⟨⟨_, List.mem_cons_of_mem _ List.mem_cons_self, decide_eq_true hfault'⟩, ?_⟩
      rw [drifts_sessions hdrift, drifts_sessions drift', drifts_sessions drift]
    · obtain ⟨issuing, later⟩ : (∀ y ∈ more, y.op.issuing = true) ∧
          Later (s₁.revoke (·.id == x.id)) s' := by
        rcases hmore with ⟨_, rfl, _, hdrift⟩ | ⟨_, hissue⟩
        · refine ⟨by simp, ?_⟩
          exact (later_follows env).drifts hdrift
        · refine ⟨?_, hissue.follows (later_follows env)⟩
          intro y hy
          obtain ⟨_, hop⟩ :=
            (hissue.guarded (issue_token_pair_faultless env x.user_id device_fingerprint [])).2 y hy
          exact hop
      right
      refine ⟨?_, ?_⟩
      · rintro ⟨y, hy, hfails⟩
        rcases List.mem_cons.mp hy with rfl | hy
        · exact of_decide_eq_true hfails hfault
        · rcases List.mem_cons.mp hy with rfl | hy
          · exact hfault' (of_decide_eq_true hfails)
          · rw [issuing_late (issuing y hy)] at hfails
            cases hfails
      · have hx : x ∈ s₁.sessions := by
          rw [drifts_sessions drift', drifts_sessions drift]
          exact live.found
        obtain ⟨r, hr, hb⟩ := later.sessions _ (List.mem_map_of_mem hx)
        have hb₀ := becomes_revoke (p := (·.id == x.id)) x s₁.now
        refine ⟨r, hr, hb₀.trans hb, hb.revoked ?_⟩
        rw [if_pos (beq_self_eq_true x.id), Option.isSome_some]

/-- The token of a row left revoked is taken for a stolen one. -/
theorem left_revoked_reuse {p : Async TokenPair} {r : Session}
    (unique : ∀ r' ∈ s.sessions, r'.Selected env (env.sha256_hex refresh_token) → r' = r)
    (found : r ∈ s.sessions) (selected : r.Selected env (env.sha256_hex refresh_token))
    (revoked : r.revoked_at.isSome)
    (verified : env.bcrypt_verify refresh_token r.refresh_token_hash = .ok true)
    (h : Executes env (rotate_refresh_token env refresh_token device_fingerprint) s steps p s')
    (hp : p.finished = true) (unexpired : Unexpired r steps)
    (answered : ∀ q, did q none ∉ steps.map Taken.did) :
    p = fail .RefreshTokenReuse ∧
      ∀ r' ∈ s'.sessions, r'.user_id = r.user_id → r'.revoked_at.isSome := by
  obtain ⟨ch, s₀, reply, rest, rfl, drift, ⟨_, rfl, _⟩ | ⟨_, hrotate⟩⟩ :=
    rotation_selects unique found selected h hp unexpired
  · exact absurd List.mem_cons_self (answered _)
  · rw [rotate_row_revoked (show r.read.revoked_at.isSome from revoked) verified] at hrotate
    obtain ⟨ch', s₁, reply', s₂, more, rfl, _, hexec, hrest⟩ := hrotate.first hp
    rcases reply' with _ | ⟨⟩
    · exact absurd (List.mem_cons_of_mem _ List.mem_cons_self) (answered _)
    · obtain ⟨rfl, _, hdrift⟩ := hrest.ended rfl
      refine ⟨rfl, ?_⟩
      intro r' hr' huser
      have hs₂ := exec_revokes (revokes_user (Uuid.UUID_TO_BIN_to_string r.user_id)) hexec
      rw [drifts_sessions hdrift, hs₂] at hr'
      exact revoked_by_user hr' huser

/-! ## In the service -/

section Service

variable {device_fingerprint' : String} {steps' : List AuthTaken} {s'' : Store}
  {p p' : Async TokenPair}

/-- A store of the service, and the row of a live session in it. -/
theorem live_unique (h : AuthRun env .all (start clock) ls c)
    (live : LiveFor env c.world.store refresh_token x) :
    ∀ r ∈ c.world.store.sessions, r.Selected env (env.sha256_hex refresh_token) → r = x :=
  fun _ hr hsel => selector_unique h hr live.found hsel live.selected

/-- The store a rotation leaves is one of the service's. -/
theorem rotation_reached (h : AuthRun env .all (start clock) ls c)
    (call : Executes env (rotate_refresh_token env refresh_token device_fingerprint)
      c.world.store steps p s') :
    ∃ ms d, AuthRun env .all (start clock) ms d ∧ d.world.store = s' := by
  have served : Executes env (serve env (.token_refresh refresh_token device_fingerprint))
      c.world.store steps _ s' := call.bind fun pair => pure (Response.tokens pair)
  exact Performs.reachable (fun _ _ _ _ _ => rfl) h served

/-- **A half-done rotation**: the token presented again is refused as reused, and every session of
the user is revoked. -/
theorem half_done_rotation (h : AuthRun env .all (start clock) ls c)
    (live : LiveFor env c.world.store refresh_token x)
    (call : Executes env (rotate_refresh_token env refresh_token device_fingerprint)
      c.world.store steps p s') (hp : p.finished = true) (unexpired : Unexpired x steps)
    (late : ¬ FailsBeforeRevoking steps)
    (retry : Executes env (rotate_refresh_token env refresh_token device_fingerprint')
      s' steps' p' s'') (hp' : p'.finished = true) (unexpired' : Unexpired x steps')
    (answered : ∀ q, did q none ∉ steps'.map Taken.did) :
    p' = fail .RefreshTokenReuse ∧
      ∀ r ∈ s''.sessions, r.user_id = x.user_id → r.revoked_at.isSome := by
  rcases rotation_comes_to (live_unique h live) live call hp unexpired with ⟨hbefore, _⟩ |
    ⟨_, r, hr, hb, hrev⟩
  · exact absurd hbefore late
  · obtain ⟨ms, d, hrun, rfl⟩ := rotation_reached h call
    have hsel := hb.selected.mpr live.selected
    obtain ⟨hp', hall⟩ := left_revoked_reuse
      (fun _ hr' hsel' => selector_unique hrun hr' hr hsel' hsel) hr hsel hrev
      (hb.refresh_token_hash_eq ▸ live.verified) retry hp'
      (fun y hy selector hop => hb.expires_at_eq ▸ unexpired' y hy selector hop) answered
    exact ⟨hp', fun r' hr' huser => hall r' hr' (huser.trans hb.user_id_eq.symm)⟩

/-- **A failed rotation costs nothing exactly when it fails before it revokes.** -/
theorem failed_rotation_iff (env : Env) (clock : Nat) (ls : List AuthLabel) (c : AuthConf)
    (h : AuthRun env .all (start clock) ls c) (refresh_token device_fingerprint : String)
    (x : Session) (live : LiveFor env c.world.store refresh_token x) (steps : List AuthTaken)
    (e : AuthError) (s' : Store)
    (call : Executes env (rotate_refresh_token env refresh_token device_fingerprint)
      c.world.store steps (fail e) s')
    (unexpired : Unexpired x steps) (_other : e ≠ .RefreshTokenReuse) :
    CostsNothing env refresh_token x c.world.store s' ↔ FailsBeforeRevoking steps := by
  have unique := live_unique h live
  rcases rotation_comes_to unique live call rfl unexpired with ⟨hbefore, hsame⟩ |
    ⟨hlate, r, hr, hb, hrev⟩
  · refine ⟨fun _ => hbefore, fun _ => ⟨hsame, ?_⟩⟩
    intro fingerprint steps' p s'' retry hp unexpired' faultless
    have still : LiveFor env s' refresh_token x :=
      ⟨hsame ▸ live.found, live.selected, live.live, live.verified⟩
    exact rotation_succeeds (hsame ▸ unique) still retry hp unexpired' faultless
  · refine ⟨fun free => ?_, fun hbefore => absurd hbefore hlate⟩
    -- The row left revoked would be the live one.
    rw [free.sessions] at hr
    rw [unique r hr (hb.selected.mpr live.selected), live.live] at hrev
    cases hrev

end Service

/-! ## A login, and a rotation that fails -/

/-- The service after the login. -/
def logged_in : AuthConf := replayed (machine sample) (serve sample) sample_start sample_login

/-- A rotation of the login's token, executed with these choices. -/
def refresh_performed (choices : List Choice) :
    Option (List AuthTaken × Async TokenPair × Store) :=
  (machine sample).perform 0 choices (rotate_refresh_token sample (sample_token 'a') "phone")
    logged_in.world.store

/-- The rotation fails with a database error, in time. -/
def fails_in_time (x : Session) (steps : List AuthTaken) (p : Async TokenPair) : Bool :=
  decide (p.result? = some (.error (.error .Database))) &&
    steps.all fun y => decide (y.pre.now < x.expires_at)

/-- The failed rotation of the login's live session, and a test of the sessions it leaves. -/
theorem refresh_fails (choices : List Choice) (P : List AuthTaken → Store → Bool)
    (h : (logged_in.world.store.by_selector sample (sample.sha256_hex (sample_token 'a'))).any
      (fun x => decide (x.revoked_at = none) &&
        decide (sample.bcrypt_verify (sample_token 'a') x.refresh_token_hash = .ok true) &&
          (refresh_performed choices).any fun (steps, p, s') =>
            fails_in_time x steps p && P steps s') = true) :
    ∃ x steps s', LiveFor sample logged_in.world.store (sample_token 'a') x ∧
      Executes sample (rotate_refresh_token sample (sample_token 'a') "phone")
        logged_in.world.store steps (fail .Database) s' ∧
          Unexpired x steps ∧ P steps s' = true := by
  obtain ⟨x, hx, hchecks⟩ := List.any_eq_true.mp h
  obtain ⟨hlive, hperformed⟩ := Bool.and_eq_true_iff.mp hchecks
  obtain ⟨hnull, hverified⟩ := Bool.and_eq_true_iff.mp hlive
  obtain ⟨⟨steps, p, s'⟩, hperform, htest⟩ := (Option.any_eq_true _ _).mp hperformed
  obtain ⟨hfails, hP⟩ := Bool.and_eq_true_iff.mp htest
  obtain ⟨hres, htime⟩ := Bool.and_eq_true_iff.mp hfails
  obtain ⟨hmem, hsel, _⟩ := mem_by_selector.mp hx
  have hp := Prog.raised_of_result? (of_decide_eq_true hres)
  subst hp
  refine ⟨x, steps, s', ⟨hmem, hsel, of_decide_eq_true hnull, of_decide_eq_true hverified⟩,
    performs_of_perform hperform, ?_, hP⟩
  intro y hy _ _
  exact of_decide_eq_true (List.all_eq_true.mp htime y hy)

theorem logged_in_run : AuthRun sample .all sample_start sample_login logged_in :=
  run_replayed (by decide +kernel)

/-- The equivalence where the UPDATE fails without effect. -/
theorem failed_rotation_update : ∃ x s',
    LiveFor sample logged_in.world.store (sample_token 'a') x ∧
      CostsNothing sample (sample_token 'a') x logged_in.world.store s' := by
  obtain ⟨x, steps, s', live, call, unexpired, hearly⟩ :=
    refresh_fails [{}, { fault := .failed }] (fun steps _ => steps.any fails_early)
      (by decide +kernel)
  have hfails : FailsBeforeRevoking steps := List.any_eq_true.mp hearly
  exact ⟨x, s', live, (failed_rotation_iff sample _ sample_login logged_in logged_in_run
    (sample_token 'a') "phone" x live steps _ s' call unexpired (by decide)).mpr hfails⟩

/-- The INSERT of the new session fails, and the old session is revoked. -/
theorem failed_insert_costs :
    ¬ ∀ (env : Env) (clock : Nat) (ls : List AuthLabel) (c : AuthConf),
      AuthRun env .all (start clock) ls c → ∀ (refresh_token device_fingerprint : String)
        (x : Session), LiveFor env c.world.store refresh_token x →
          ∀ (steps : List AuthTaken) (e : AuthError) (s' : Store),
            Executes env (rotate_refresh_token env refresh_token device_fingerprint)
              c.world.store steps (fail e) s' → Unexpired x steps → e ≠ .RefreshTokenReuse →
                CostsNothing env refresh_token x c.world.store s' := by
  intro claim
  obtain ⟨x, steps, s', live, call, unexpired, hchanged⟩ :=
    refresh_fails ({} :: {} :: (issuing 'b' 10).dropLast ++ [{ fault := .failed }])
      (fun _ s' => decide (s'.sessions ≠ logged_in.world.store.sessions)) (by decide +kernel)
  have costs := claim sample _ sample_login logged_in logged_in_run (sample_token 'a') "phone" x
    live steps _ s' call unexpired (by decide)
  exact of_decide_eq_true hchanged costs.sessions

end Kova.Auth

import Kova.Conc.Serial
import Kova.Auth.Credentials
import Kova.Auth.Revocation
import Kova.Auth.UserLaws

/-!
# The revocation cache

Five handlers' UPDATEs set `revoked_at`; three of the handlers then cache the identifier of each
access token they revoked, for 900 seconds. A token is accepted for another minute after it
expired, so what was revoked within a minute of being issued leaves the cache too early, and what
a rotation revoked (the exchanged session, or every session after a reuse) never enters it. If
every UPDATE revokes in one of the three handlers and late enough, the cache covers every
revoked session whose token is still accepted (`revocation_cache_covers`).
-/

set_option autoImplicit false

namespace Kova.Auth

open Conc

variable {env : Env} {clock : Nat} {ls : List AuthLabel} {d : AuthConf}

/-! ## What the cache is to cover -/

/-- The clock in whole seconds. -/
def Store.seconds (s : Store) : Nat := s.clock / 1000000000

/-- The access token of a session: the one returned with the session's identifier. -/
def TokenOf (d : AuthConf) (r : Session) (token : Jwt.Jws) : Prop :=
  ∃ pair, Returned d pair ∧ pair.access_token = token ∧ token.payload.jti = r.access_token_jti

/-- The extractor accepts the token at a given second. -/
def AcceptedAt (env : Env) (now : Nat) (token : Jwt.Jws) : Prop :=
  ∃ claims, AuthClaims.from_request_parts env.key now (.bearer (.jws token)) = .ok claims

/-- **The cache covers every revoked session**: while its token is accepted, the key is there. -/
def CacheCovers (env : Env) (d : AuthConf) : Prop :=
  ∀ r ∈ d.world.store.sessions, r.revoked_at.isSome → ∀ token, TokenOf d r token →
    AcceptedAt env d.world.store.seconds token →
      ∃ jti, r.access_token_jti = some jti ∧
        (d.world.store.redis.at d.world.store.clock (revoked_key jti)).isSome

/-- No call to MySQL or to Redis fails. -/
def no_fault : AuthScope :=
  ⟨fun _ => True, fun _ _ _ op ch =>
    (∃ q, op = .sql q) ∨ (∃ cmd, op = .redis cmd) → ch.fault = .none⟩

/-- Whole handlers were executed one after another, and no call to MySQL or to Redis failed. -/
structure OneByOne (env : Env) (clock : Nat) (ls : List AuthLabel) (d : AuthConf) : Prop where
  run : Serial (machine env) (serve env) no_fault (start clock) ls d
  undropped : ∀ t, .drop t ∉ ls
  idle : d.Idle

/-- If the event revokes a live session whose token is still accepted, it is no rotation's, the
token was issued more than a minute ago, and a logout finds exactly the presented identifier. -/
def RevokesCovered (env : Env) (d : AuthConf) (e : AuthEvent) : Prop :=
  ∀ q p r, Revokes env e q p r → ∀ token exp, TokenOf d r token → token.payload.exp = some exp →
    e.pre.seconds ≤ exp + 60 →
      e.req.refresh_token = none ∧ exp ≤ e.pre.seconds + 839 ∧
        ∀ jti user_id, q = .revoke_by_jti jti user_id → r.access_token_jti = some jti

/-! ## The handlers that cache -/

/-- Redis was not used. -/
def Uncached (h : List AuthDone) : Prop := ∀ x ∈ h, ∀ cmd, x.op ≠ .redis cmd

/-- These handlers insert no session, and they revoke before they cache; `sessions_revoke_all`
has listed the live sessions then. -/
def revokes_first (req : Request) (h : List AuthDone) : Op → Prop
  | .sql (.insert_session _) => req.revokes = false
  | .sql (.revoke_session _) | .sql (.revoke_by_jti ..) => req.revokes = true → Uncached h
  | .sql (.revoke_user_sessions user_id) => req.revokes = true →
    Uncached h ∧ ∃ rows, did (.select_live_jtis user_id) (some rows) ∈ h
  | _ => True

/-- What they revoked, they cached. -/
def CachesRevoked : Request → List AuthDone → Prop
  | .session_delete _ session_id, h => did (.revoke_session session_id) (some ()) ∈ h →
    ∀ user_id jti, did (.select_own_session session_id user_id) (some (some (some jti))) ∈ h →
      Cached h jti
  | .sessions_revoke_all _, h => ∀ user_id, did (.revoke_user_sessions user_id) (some ()) ∈ h →
    ∀ (rows : List (Option String)) (jti : String),
      did (.select_live_jtis user_id) (some rows) ∈ h → some jti ∈ rows → Cached h jti
  | .logout _, h => ∀ jti user_id, did (.revoke_by_jti jti user_id) (some ()) ∈ h → Cached h jti
  | _, _ => True

section Steps

variable {req : Request} {h : List AuthDone} {op : Op}

/-- A statement is not among the commands of the loop. -/
theorem Caching.mem_before {rows : List (Option String)} {new : List AuthDone}
    (caching : Caching rows new) {q : Sql} {r : Option q.Res} (hmem : did q r ∈ h ++ new) :
    did q r ∈ h := by
  rcases List.mem_append.mp hmem with hmem | hmem
  · exact hmem
  · obtain ⟨jti, hcmd⟩ := caching.only _ hmem
    cases hcmd

theorem IssuingStep.revokes_first {u : Uuid} {fingerprint : String} {h₀ : List AuthDone}
    (step : IssuingStep env u fingerprint h₀ h op) (other : req.revokes = false) :
    revokes_first req h op := by
  cases step with
  | inward inward => cases inward <;> trivial
  | insert => exact other

theorem Awaits.revokes_first (step : Awaits env req h op) : revokes_first req h op := by
  cases step with
  | register step | code step =>
    cases step with
    | inward inward => cases inward <;> trivial
    | _ => trivial
  | login step =>
    cases step with
    | user => trivial
    | check step => cases step <;> trivial
    | issue _ _ step => exact step.revokes_first rfl
  | refresh step =>
    cases step with
    | read => trivial
    | detect | revoke => rintro ⟨⟩
    | issue _ _ step => exact step.revokes_first rfl
  | biometric _ step =>
    cases step with
    | take => trivial
    | issue _ step => exact step.revokes_first rfl
  | delete => exact fun _ => by simp [Uncached, did]
  | @revoke_all _ _ _ rows =>
    exact fun _ => ⟨by simp [Uncached, did], rows, List.mem_cons_of_mem _ List.mem_cons_self⟩
  | logout => exact fun _ => by simp [Uncached]
  | pin _ _ _ _ step =>
    cases step with
    | check _ step => cases step <;> trivial
    | _ => trivial
  | extract | draw | challenge | find | list | cache => trivial

theorem Ends.caches {r : Except Failure Response} (ends : Ends env req h r) :
    CachesRevoked req h := by
  cases ends with
  | rejected =>
    have unrevoked : ∀ {q : Sql} {r : Option q.Res} {now},
        did q r ∉ [(⟨.utc_now, now⟩ : AuthDone)] := by
      intro q r now hmem
      cases List.mem_singleton.mp hmem
    cases req with
    | session_delete => exact fun hmem => absurd hmem unrevoked
    | sessions_revoke_all => exact fun _ hmem => absurd hmem unrevoked
    | logout => exact fun _ _ hmem => absurd hmem unrevoked
    | _ => trivial
  | unfound =>
    intro hmem
    simp only [List.mem_cons, List.not_mem_nil, or_false] at hmem
    exact absurd hmem (by rintro (⟨⟨⟩⟩ | ⟨⟨⟩⟩))
  | undeleted =>
    intro hmem
    simp only [List.mem_cons, List.not_mem_nil, or_false] at hmem
    exact absurd hmem (by rintro (⟨⟨⟩⟩ | ⟨⟨⟩⟩ | ⟨⟨⟩⟩))
  | unlisted =>
    intro user_id hmem
    simp only [List.mem_cons, List.not_mem_nil, or_false] at hmem
    exact absurd hmem (by rintro (⟨⟨⟩⟩ | ⟨⟨⟩⟩))
  | unrevoked =>
    intro user_id hmem
    simp only [List.mem_cons, List.not_mem_nil, or_false] at hmem
    exact absurd hmem (by rintro (⟨⟨⟩⟩ | ⟨⟨⟩⟩ | ⟨⟨⟩⟩))
  | unlogged =>
    intro jti user_id hmem
    simp only [List.mem_cons, List.not_mem_nil, or_false] at hmem
    exact absurd hmem (by rintro (⟨⟨⟩⟩ | ⟨⟨⟩⟩))
  | delete caching =>
    intro _ user_id jti' hread
    have hread := caching.mem_before hread
    simp only [List.mem_cons, List.not_mem_nil, or_false] at hread
    rcases hread with ⟨⟨⟩⟩ | ⟨⟨⟩⟩ | ⟨⟨⟩⟩
    obtain ⟨reply, hreply⟩ := caching.all jti' List.mem_cons_self
    exact ⟨reply, List.mem_append_right _ hreply⟩
  | revoke_all _ caching =>
    intro user_id _ rows' jti hread hjti
    have hread := caching.mem_before hread
    simp only [List.mem_cons, List.not_mem_nil, or_false] at hread
    rcases hread with ⟨⟨⟩⟩ | ⟨⟨⟩⟩ | ⟨⟨⟩⟩
    obtain ⟨reply, hreply⟩ := caching.all jti hjti
    exact ⟨reply, List.mem_append_right _ hreply⟩
  | @logout _ _ _ _ reply =>
    intro jti user_id hmem
    simp only [List.mem_cons, List.not_mem_nil, or_false] at hmem
    rcases hmem with ⟨⟨⟩⟩ | ⟨⟨⟩⟩ | ⟨⟨⟩⟩
    exact ⟨reply, by simp⟩
  | pin sets =>
    cases req with
    | pin_set | pin_change => trivial
    | _ => cases sets
  | register | code | login | refresh | undrawn | unanswered | challenge | biometric => trivial

/-- **What a handler of the three revoked, it cached**, having revoked it first. -/
theorem serve_caches (env : Env) (req : Request) :
    Guarded (revokes_first req) (fun h _ => CachesRevoked req h) (serve env req) [] :=
  (serve_steps env req).mono (fun _ _ step => step.revokes_first) fun _ _ ends => ends.caches

end Steps

/-! ## The key stays -/

/-- The key is there from now on until `T`. -/
def HeldUntil (s : Store) (key : String) (T : Nat) : Prop :=
  ∀ later, s.clock ≤ later → later < T → (s.redis.at later key).isSome

theorem cache_secs : REVOCATION_CACHE_SECS = 900 := rfl

/-- The command that caches a revocation holds its key for 900 seconds. -/
theorem at_revoking (db : Redis.Db) {now later : Nat} {jti : String}
    (hlater : later < now + 900000000000) :
    ((Redis.run now db (revoking jti)).2.at later (revoked_key jti)).isSome := by
  have before_expiry : later < now + REVOCATION_CACHE_SECS * 1000000000 := by
    rw [cache_secs]
    omega
  unfold revoking
  simp only [Redis.run]
  rw [Redis.at_put, if_pos (Redis.lives_until before_expiry), Option.isSome_some]

/-- **No handler shortens the life of the key.** -/
theorem held_exec {ch : Choice} {s s' : Store} {op : Op} {r : op.Res} {jti : String} {T : Nat}
    (h : exec env ch s op = some (r, s'))
    (hop : ∀ cmd, op = .redis cmd → cmd.key = revoked_key jti → cmd = revoking jti)
    (held : HeldUntil s (revoked_key jti) T) (soon : T ≤ s.clock + 900000000000) :
    HeldUntil s' (revoked_key jti) T := by
  intro later hle hlt
  rw [exec_clock h] at hle
  rcases exec_redis h with hsame | ⟨cmd, rfl, hrun⟩
  · rw [hsame]
    exact held later hle hlt
  · rw [hrun]
    by_cases hkey : cmd.key = revoked_key jti
    · rw [hop cmd rfl hkey]
      exact at_revoking _ (by omega)
    · rw [Redis.run_other _ _ hkey hle]
      exact held later hle hlt

/-- The key of a revocation that was cached is there for 900 seconds. -/
theorem revocation_held (h : AuthRun env no_fault (start clock) ls d) {jti : String} :
    ∀ e ∈ d.world.log, e.op = .redis (revoking jti) →
      e.pre.clock ≤ d.world.store.clock ∧
        HeldUntil d.world.store (revoked_key jti) (e.pre.clock + 900000000000) := by
  induction h with
  | nil =>
    intro e he
    cases he
  | @snoc c d ls l hrun hok hstep ih =>
    have hlater : Later c.world.store d.world.store := (later_follows env).step hstep
    have hwhole := hrun.snoc hok hstep
    rcases step_cases hstep with ⟨req, _, rfl⟩ |
      ⟨t, ch, call, op, next, r, s', rfl, hcall, _, hprog, hexec, rfl⟩ | ⟨t, call, _, _, rfl⟩ |
      ⟨o, s', _, henv, rfl⟩
    · exact ih
    · have hguard := hwhole.guard (serve_entitled env) (World.push_log _ _)
      intro e he hop
      rcases List.mem_append.mp he with he | he
      · obtain ⟨hclock, hheld⟩ := ih e he hop
        refine ⟨hclock.trans hlater.clock, held_exec hexec ?_ hheld (by omega)⟩
        rintro cmd rfl hkey
        exact hguard jti hkey
      · obtain rfl := List.mem_singleton.mp he
        subst hop
        have fault := hok call _ next hcall hprog (.inr ⟨_, rfl⟩)
        simp only [machine, exec, fault] at hexec
        cases hexec
        exact ⟨le_rfl, fun later _ hlt => at_revoking _ hlt⟩
    · exact ih
    · cases o with
      | advance n =>
        cases henv
        intro e he hop
        obtain ⟨hclock, hheld⟩ := ih e he hop
        refine ⟨hclock.trans hlater.clock, ?_⟩
        intro later hle hlt
        exact hheld later ((Nat.le_add_right _ _).trans hle) hlt

/-! ## Every revocation is cached -/

section Covered

variable {e : AuthEvent} {q : Sql} {p : Session → Bool} {r : Session} {jti : String}

/-- A session that an UPDATE of a caching handler finds was there when the same call had looked
its sessions up: while the call executes no other does, and it inserts none itself. -/
theorem there_before (h : OneByOne env clock ls d) {a : AuthEvent}
    (hprec : Precedes d.world.log a e) (htid : a.tid = e.tid) (hreq : a.req.revokes = true)
    (hop : ∀ v, a.op ≠ .sql (.insert_session v)) (hr : r ∈ e.pre.sessions) :
    ∃ r₀ ∈ a.pre.sessions, r₀.Becomes r := by
  have hrun := h.run.run
  have hordered := h.run.ordered.log
  obtain ⟨before, after, split, ha⟩ := hprec
  have hprec : Precedes d.world.log a e := ⟨before, after, split, ha⟩
  obtain ⟨i, hi, v, row, hins, hb⟩ := event_session_inserted hrun split hr
  have hie : Precedes d.world.log i e := ⟨before, after, split, hi⟩
  rcases precedes_total hprec.left hie.left with rfl | hai | hia
  · exact absurd hins.1 (hop v)
  · -- The call itself would have inserted the session.
    have hle₁ := hai.rel hordered
    have hle₂ := hie.rel hordered
    obtain ⟨before', after', split', _⟩ := hai
    have hguard := hrun.guard (serve_caches env) split'
    rw [hins.1] at hguard
    have hsame := (hrun.obeys (serve_caches env)).same_req hprec.left hie.left (by omega)
    rw [hsame, show i.req.revokes = false from hguard] at hreq
    cases hreq
  · obtain ⟨r₀, hr₀, hb₀⟩ := (hrun.between (later_follows env) hia).sessions row hins.mem
    have hlater := (event_later hrun hprec.left).trans (hrun.between (later_follows env) hprec)
    exact ⟨r₀, hr₀, hlater.session_becomes (event_keyed hrun hie.right) hr₀ hr
      (hb₀.id_eq.trans hb.id_eq.symm)⟩

/-- **What one of the three handlers revoked, it has cached** when it is done. -/
theorem Revokes.cached (hrev : Revokes env e q p r) (h : OneByOne env clock ls d)
    (he : e ∈ d.world.log) (hreq : e.req.refresh_token = none)
    (hjti : r.access_token_jti = some jti)
    (exact_jti : ∀ jti' user_id, q = .revoke_by_jti jti' user_id → r.access_token_jti = some jti') :
    e.req.revokes = true ∧ Cached (history e.tid d.world.log) jti := by
  have hrun := h.run.run
  obtain ⟨before, after, split⟩ := List.append_of_mem he
  have hnamed := hrun.guard (serve_entitled env) split
  have hfirst := hrun.guard (serve_caches env) split
  -- The UPDATE answered, and its call has returned.
  obtain ⟨_, ch, hscope, hexec⟩ := hrun.executed he
  obtain ⟨call, hcall, hcallreq⟩ := (hrun.obeys (serve_caches env)).called e he
  obtain ⟨res, hret⟩ := h.idle.returned (hrun.undropped h.undropped) hcall
  rw [hcallreq] at hret
  have hcaches := hrun.answer (serve_caches env) hret
  have hdone : e.did ∈ history e.tid d.world.log := mem_history.mpr ⟨e, he, rfl, rfl⟩
  have hsub : history e.tid before ⊆ history e.tid d.world.log := by
    intro x hx
    obtain ⟨a, ha, ht, hx⟩ := mem_history.mp hx
    exact mem_history.mpr ⟨a, split ▸ List.mem_append_left _ ha, ht, hx⟩
  have prior : ∀ {x : AuthDone}, x ∈ history e.tid before →
      ∃ a, a.did = x ∧ a.tid = e.tid ∧ a.req = e.req ∧ Precedes d.world.log a e := by
    intro x hx
    obtain ⟨a, _, ht, hdid, hprec⟩ := event_of_history after e hx
    rw [← split] at hprec
    exact ⟨a, hdid, ht, (hrun.obeys (serve_caches env)).same_req hprec.left he ht, hprec⟩
  obtain ⟨hop, clause, found, selected, live⟩ := hrev
  obtain ⟨t, req, op, pre, reply, post⟩ := e
  obtain rfl : op = .sql q := hop
  obtain ⟨u, hu⟩ := Option.isSome_iff_exists.mp
    (exec_revokes_answers clause (hscope (.inl ⟨q, rfl⟩)) hexec)
  obtain rfl : reply = some u := hu
  cases q with
  | revoke_session id =>
    obtain ⟨uid, huid, rfl⟩ := Option.map_eq_some_iff.mp clause
    rcases hnamed with ⟨row, ⟨token, htoken, _⟩, _⟩ | ⟨auth, claims, jti', rfl, _, hread⟩
    · rw [hreq] at htoken
      cases htoken
    · obtain ⟨a, hdid, _, _, hprec⟩ := prior hread
      obtain ⟨_, _, _, hselect⟩ := hrun.did hprec.left hdid
      obtain ⟨r₀, hr₀, hid₀, _, _, rfl⟩ := exec_select_own_session hselect
      rw [huid, Option.some.injEq] at hid₀
      have hb := ((event_later hrun hprec.left).trans
        (hrun.between (later_follows env) hprec)).session_becomes (event_keyed hrun he) hr₀ found
          (hid₀.symm.trans (beq_iff_eq.mp selected).symm)
      rw [← hb.access_token_jti_eq, hjti] at hread
      exact ⟨rfl, hcaches hdone claims.sub jti (hsub hread)⟩
  | revoke_user_sessions user_id =>
    obtain ⟨uid, huid, rfl⟩ := Option.map_eq_some_iff.mp clause
    rcases hnamed with ⟨row, ⟨token, htoken, _⟩, _⟩ | ⟨auth, claims, rfl, _, rfl⟩
    · rw [hreq] at htoken
      cases htoken
    · obtain ⟨_, rows, hread⟩ := hfirst rfl
      obtain ⟨a, hdid, htid, hareq, hprec⟩ := prior hread
      have hop : a.op = .sql (.select_live_jtis claims.sub) := congrArg Done.op hdid
      obtain ⟨r₀, hr₀, hb⟩ := there_before h hprec htid (hareq ▸ rfl)
        (by rw [hop]; intro v hv; cases hv) found
      obtain ⟨_, _, _, hselect⟩ := hrun.did hprec.left hdid
      have hlive : r₀.revoked_at = none := by
        by_contra hsome
        have := hb.revoked (Option.isSome_iff_ne_none.mpr hsome)
        rw [live] at this
        cases this
      simp only [Bool.and_eq_true, beq_iff_eq] at selected
      have hlisted := exec_select_live_jtis hselect hr₀ hlive
        (by rw [huid, ← hb.user_id_eq, selected.1])
      rw [← hb.access_token_jti_eq, hjti] at hlisted
      exact ⟨rfl, hcaches claims.sub hdone rows jti (hsub hread) hlisted⟩
  | revoke_by_jti jti' user_id =>
    obtain ⟨auth, claims, rfl, _, _, _⟩ := hnamed
    have heq := exact_jti jti' user_id rfl
    rw [hjti, Option.some.injEq] at heq
    subst heq
    exact ⟨rfl, hcaches jti user_id hdone⟩
  | _ => cases clause

end Covered

/-- **The cache covers every revoked session** whose token is still accepted, in every run of whole
handlers without a failing call to MySQL or Redis in which each UPDATE that revokes a session with
such a token is executed by a handler that caches, more than a minute after the token was issued. -/
theorem revocation_cache_covers (env : Env) (clock : Nat) (ls : List AuthLabel) (d : AuthConf)
    (h : OneByOne env clock ls d) (covered : ∀ e ∈ d.world.log, RevokesCovered env d e) :
    CacheCovers env d := by
  have hrun := h.run.run
  rintro r hr hrevoked _ ⟨pair, hret, rfl, hjti⟩ ⟨claims', haccepted⟩
  obtain ⟨e, he, q, p, r₀, hrev, hb⟩ := session_revoked hrun r hr hrevoked
  obtain ⟨_, _, _, _, claims, _, _, htoken, hiss, _⟩ := returned_issued hrun hret
  have hexp : pair.access_token.payload.exp = some claims.exp := by rw [htoken]; rfl
  have hpayload : pair.access_token.payload.jti = some claims.jti := by rw [htoken]; rfl
  have hnow : d.world.store.seconds ≤ claims.exp + 60 := by
    by_contra hlate
    rw [auth_answer hiss htoken, if_pos (Nat.lt_of_not_le hlate)] at haccepted
    cases haccepted
  have hsince : e.pre.seconds ≤ d.world.store.seconds :=
    Nat.div_le_div_right (event_since hrun he).clock
  have hjti₀ : pair.access_token.payload.jti = r₀.access_token_jti :=
    hjti.trans hb.access_token_jti_eq
  obtain ⟨hreq, hlate, hexact⟩ := covered e he q p r₀ hrev pair.access_token claims.exp
    ⟨pair, hret, rfl, hjti₀⟩ hexp (hsince.trans hnow)
  obtain ⟨hcaching, reply, hmem⟩ :=
    hrev.cached h he hreq (hjti₀.symm.trans hpayload) hexact
  obtain ⟨c, hc, htid, hdid⟩ := mem_history.mp hmem
  have hcop : c.op = .redis (revoking claims.jti) := congrArg Done.op hdid
  -- The key is set after the UPDATE.
  have hec : Precedes d.world.log e c := by
    rcases precedes_total he hc with rfl | hlt | ⟨before, after, split, hbefore⟩
    · rw [hrev.op] at hcop
      cases hcop
    · exact hlt
    · have hfirst := hrun.guard (serve_caches env) split
      have huncached : Uncached (history e.tid before) := by
        rw [hrev.op] at hfirst
        cases q with
        | revoke_session => exact hfirst hcaching
        | revoke_user_sessions => exact (hfirst hcaching).1
        | revoke_by_jti => exact hfirst hcaching
        | _ => cases hrev.clause
      exact absurd hcop
        (huncached c.did (mem_history.mpr ⟨c, hbefore, htid, rfl⟩) (revoking claims.jti))
  have hclock := ((event_later hrun he).trans (hrun.between (later_follows env) hec)).clock
  refine ⟨claims.jti, hjti.symm.trans hpayload, ?_⟩
  apply (revocation_held hrun c hc hcop).2 _ le_rfl
  unfold Store.seconds at hlate hnow
  omega

/-! ## A revocation that is cached, and one that is not -/

/-- A move without a fault that drops no call. -/
def undisturbed : AuthLabel → Bool
  | .run _ ch => ch.fault = .none
  | .drop _ => false
  | _ => true

theorem undisturbed_allows {c : AuthConf} {l : AuthLabel} (h : undisturbed l = true) :
    Scope.allows no_fault c l := by
  cases l with
  | run t ch =>
    intro _ _ _ _ _ _
    exact of_decide_eq_true h
  | _ => trivial

theorem one_by_one_of_replay
    (h : serial_replay (machine env) (serve env) undisturbed (start clock) ls = some d)
    (kept : ls.all undisturbed = true) (idle : d.pool.all Call.over = true) :
    OneByOne env clock ls d := by
  refine ⟨serial_of_replay (fun _ _ => undisturbed_allows) h, ?_, List.all_eq_true.mp idle⟩
  intro t hmem
  cases List.all_eq_true.mp kept _ hmem

/-- If the event sets `revoked_at`, it does so in `session_delete` or `sessions_revoke_all`, and
late enough for a token that expires at `exp`. -/
def late_enough (env : Env) (exp : Nat) (e : AuthEvent) : Bool :=
  match e.op with
  | .sql (.revoke_by_jti ..) => false
  | .sql q => (q.revokes env).isNone || e.req.refresh_token.isNone && exp ≤ e.pre.seconds + 839
  | _ => true

theorem late_enough_sound {exp : Nat} {e : AuthEvent} (h : late_enough env exp e = true)
    (one : ∀ pair, Returned d pair → pair.access_token.payload.exp = some exp) :
    RevokesCovered env d e := by
  rintro q p r ⟨hop, clause, _, _, _⟩ _ exp' ⟨pair, hret, rfl, _⟩ hexp _
  have heq := (one pair hret).symm.trans hexp
  rw [Option.some.injEq] at heq
  subst heq
  rw [late_enough, hop] at h
  cases q with
  | revoke_session | revoke_user_sessions =>
    simp only [clause, Option.isNone_some, Bool.false_or, Bool.and_eq_true, decide_eq_true_eq,
      Option.isNone_iff_eq_none] at h
    exact ⟨h.1, h.2, by intro _ _ hq; cases hq⟩
  | revoke_by_jti => cases h
  | _ => cases clause

/-- The tokens that were returned are those of one pair. -/
def only_pair (pair : TokenPair) (d : AuthConf) : Bool :=
  d.pool.all fun call => match call.prog.result? with
    | some (.ok (.tokens pair')) => pair' = pair
    | _ => true

theorem only_pair_sound {pair pair' : TokenPair} (h : only_pair pair d = true)
    (hr : Returned d pair') : pair' = pair := by
  obtain ⟨t, req, call, hcall, _, hres⟩ := hr
  have hpair := List.all_eq_true.mp h call (List.mem_of_getElem? hcall)
  rw [hres] at hpair
  exact of_decide_eq_true hpair

/-- A login, and two minutes later the revocation of all sessions. -/
def revoked_after_two_minutes : List AuthLabel :=
  sample_login ++ (.env (.advance 120000000000) ::
    uninterrupted 3 (.sessions_revoke_all sample_bearer) [{}, {}, {}, {}])

/-- The guarantee at that run. -/
theorem revocation_cache_covers_two_minutes :
    ∃ d, OneByOne sample 1700000000000000000 revoked_after_two_minutes d ∧
      CacheCovers sample d := by
  have checked : (serial_replay (machine sample) (serve sample) undisturbed sample_start
      revoked_after_two_minutes).any (fun d => (d.pool.all Call.over && only_pair sample_pair d) &&
        d.world.log.all (late_enough sample 1700000900)) = true := by
    decide +kernel
  obtain ⟨d, hd, hchecks⟩ := (Option.any_eq_true _ _).mp checked
  simp only [Bool.and_eq_true] at hchecks
  obtain ⟨⟨idle, one⟩, late⟩ := hchecks
  have run : OneByOne sample 1700000000000000000 revoked_after_two_minutes d :=
    one_by_one_of_replay hd (by decide +kernel) idle
  refine ⟨d, run, revocation_cache_covers sample _ _ d run ?_⟩
  intro e he
  apply late_enough_sound (List.all_eq_true.mp late e he)
  intro pair hpair
  rw [only_pair_sound one hpair]
  rfl

/-- A login, and a rotation of its token. -/
def rotated_login : List AuthLabel :=
  sample_login ++ uninterrupted 3 (.token_refresh (sample_token 'a') "phone")
    ({} :: {} :: issuing 'b' 10)

/-- A rotation revokes the session, whose token is accepted for another 15 minutes, and caches
nothing. -/
theorem rotation_uncached :
    ¬ ∀ (env : Env) (clock : Nat) (ls : List AuthLabel) (d : AuthConf),
      OneByOne env clock ls d → CacheCovers env d := by
  intro claim
  have checked : (serial_replay (machine sample) (serve sample) undisturbed sample_start
      rotated_login).any (fun d => (d.pool.all Call.over &&
        decide (d.result? 2 = some (.ok (.tokens sample_pair)))) &&
          (decide (d.world.store.seconds = 1700000000) && (d.world.store.redis.at
            d.world.store.clock (revoked_key sample_claims.jti)).isNone) &&
              d.world.store.sessions.any fun r => r.revoked_at.isSome &&
                decide (r.access_token_jti = some sample_claims.jti)) = true := by
    decide +kernel
  obtain ⟨d, hd, hchecks⟩ := (Option.any_eq_true _ _).mp checked
  simp only [Bool.and_eq_true, decide_eq_true_eq, List.any_eq_true,
    Option.isNone_iff_eq_none] at hchecks
  obtain ⟨⟨⟨idle, login⟩, seconds, missing⟩, r, hr, revoked, hjti⟩ := hchecks
  obtain ⟨req, returned⟩ := returned_of_result login
  have run : OneByOne sample 1700000000000000000 rotated_login d :=
    one_by_one_of_replay hd (by decide +kernel) idle
  obtain ⟨jti, hjti', cached⟩ := claim sample _ _ d run r hr revoked sample_pair.access_token
    ⟨sample_pair, ⟨2, req, returned⟩, rfl, hjti.symm⟩ ⟨sample_claims, by rw [seconds]; decide⟩
  rw [hjti, Option.some.injEq] at hjti'
  rw [← hjti', missing] at cached
  cases cached

end Kova.Auth

import Kova.Auth.Credentials
import Kova.Auth.SessionLaws
import Kova.Auth.UserLaws

/-!
# Users are isolated

A call writes the sessions or the PIN of a user only if its request presented that user's access
token, the refresh token of a session of that user, or a code that verifies against one of that
user's codes (`user_isolation`), whatever the calls are and however they interleave. Several of
the statements are keyed by something other than the user, and for each of them the row has to
be shown to be the caller's: `revoke_session` by the identifier of a row that the call has read
as its own, and which is still the same user's when the UPDATE finds it.

Nothing that any call does clears `revoked_at` or `used_at` or removes a row.
-/

set_option autoImplicit false

namespace Kova.Auth

open Conc

variable {env : Env} {clock : Nat} {ls : List AuthLabel} {d : AuthConf}

/-- **What gives a request authority over a user**, when its call executes `e`. -/
inductive Presents (env : Env) (e : AuthEvent) (v : Uuid) : Prop
  /-- An access token with this subject, accepted at that time or before. -/
  | access_token {auth : Jwt.AuthHeader} {now : Nat} {claims : KovaClaims} :
      e.req.auth = some auth → now ≤ e.pre.clock →
        AuthClaims.from_request_parts env.key (DateTime.timestamp ⟨now⟩).toNat auth = .ok claims →
          Uuid.parse_str claims.sub = some v → Presents env e v
  /-- The refresh token stored for a session of the user. -/
  | refresh_token {refresh_token : String} {r : Session} :
      e.req.refresh_token = some refresh_token → r ∈ e.pre.sessions →
        r.Selected env (env.sha256_hex refresh_token) →
          env.bcrypt_verify refresh_token r.refresh_token_hash = .ok true → r.user_id = v →
            Presents env e v
  /-- A code that verifies against one of the user's. -/
  | otp_code {otp_code : String} {r : OtpCode} :
      e.req.otp_code = some otp_code → r ∈ e.pre.otp_codes →
        env.bcrypt_verify otp_code r.code_hash = .ok true → r.user_id = v → Presents env e v

/-- Nothing of the user's sessions and PIN changes. (A user who registers has no PIN.) -/
structure Untouched (v : Uuid) (s s' : Store) : Prop where
  sessions : s'.sessions.filter (·.user_id == v) = s.sessions.filter (·.user_id == v)
  pin_hash : s'.users.filter (·.id == v) = s.users.filter (·.id == v) ∨
    (∀ u ∈ s.users, u.id ≠ v) ∧ ∀ u ∈ s'.users, u.id = v → u.pin_hash = ""

/-- No row of the two tables is removed, and `revoked_at` and `used_at` are not cleared. -/
structure Kept (s s' : Store) : Prop where
  sessions : ∀ r ∈ s.sessions, ∃ r' ∈ s'.sessions, r.Becomes r'
  otp_codes : ∀ r ∈ s.otp_codes, ∃ r' ∈ s'.otp_codes, r.Becomes r'

theorem Later.kept {s s' : Store} (h : Later s s') : Kept s s' := ⟨h.sessions, h.otp_codes⟩

/-! ## Whom a call has named -/

section Named

variable {before after : List AuthEvent} {e : AuthEvent}

/-- The store that an earlier operation of the call found, and the one that `e` finds. -/
theorem later_of_prior (h : AuthRun env .all (start clock) ls d) {a : AuthEvent}
    (hprec : Precedes d.world.log a e) : Later a.pre e.pre :=
  (event_later h hprec.left).trans (h.between (later_follows env) hprec)

theorem Extracted.presents (h : AuthRun env .all (start clock) ls d)
    (split : d.world.log = before ++ e :: after) {claims : KovaClaims} {v : Uuid}
    (hx : Extracted env e.req (history e.tid before) claims)
    (hv : Uuid.parse_str claims.sub = some v) : Presents env e v := by
  obtain ⟨auth, now, hreq, hnow, hclaims⟩ := hx
  obtain ⟨a, _, _, hdid, hprec⟩ := event_of_history after e hnow
  rw [← split] at hprec
  obtain ⟨_, _, _, hexec⟩ := h.did hprec.left hdid
  have hclock : now = ⟨a.pre.clock⟩ := (congrArg Prod.fst (Option.some.inj hexec)).symm
  exact .access_token hreq (later_of_prior h hprec).clock (hclock ▸ hclaims) hv

/-- A row that the call has verified is a row of the store, and its token is presented. -/
theorem Verified.presents (h : AuthRun env .all (start clock) ls d)
    (split : d.world.log = before ++ e :: after) {row : SessionRow}
    (hver : Verified env e.req (history e.tid before) row) :
    ∃ r ∈ e.pre.sessions, row.session_id = r.id.to_string ∧
      row.user_id_str = r.user_id.to_string ∧ Presents env e r.user_id := by
  obtain ⟨token, hreq, hread, hver⟩ := hver
  obtain ⟨a, _, _, hdid, hprec⟩ := event_of_history after e hread
  rw [← split] at hprec
  obtain ⟨r, hr, hsel, _, rfl⟩ := looked_up h hprec.left hdid
  obtain ⟨r', hr', hb⟩ := (later_of_prior h hprec).sessions r hr
  refine ⟨r', hr', ?_, ?_, ?_⟩
  · rw [Session.read, hb.id_eq]
  · rw [Session.read, hb.user_id_eq]
  · exact .refresh_token hreq hr' (hb.selected.mpr hsel) (hb.refresh_token_hash_eq ▸ hver) rfl

theorem Confirmed.presents (h : AuthRun env .all (start clock) ls d)
    (split : d.world.log = before ++ e :: after) {text : String} {v : Uuid}
    (hc : Confirmed env e.req (history e.tid before) text) (hv : Uuid.parse_str text = some v) :
    Presents env e v := by
  obtain ⟨code, row, hreq, hread, hver⟩ := hc
  obtain ⟨a, _, _, hdid, hprec⟩ := event_of_history after e hread
  rw [← split] at hprec
  obtain ⟨_, _, _, hexec⟩ := h.did hprec.left hdid
  obtain ⟨r, hr, huser, _, rfl⟩ := exec_select_otp hexec
  obtain ⟨r', hr', hb⟩ := (later_of_prior h hprec).otp_codes r hr
  rw [Uuid.parse_str_of_UUID_TO_BIN huser, Option.some.injEq] at hv
  refine .otp_code hreq hr' ?_ ?_
  · rw [hb.same]
    exact hver
  · rw [hb.same]
    exact hv

/-- **A user the call has named is one its request gives it authority over.** -/
theorem Names.presents (h : AuthRun env .all (start clock) ls d)
    (split : d.world.log = before ++ e :: after) {text : String} {v : Uuid}
    (hn : Names env e.req (history e.tid before) text) (hv : Uuid.parse_str text = some v) :
    Presents env e v := by
  cases hn with
  | access hx => exact hx.presents h split hv
  | refresh hver =>
    obtain ⟨r, _, _, huser, hp⟩ := hver.presents h split
    rw [huser, Uuid.parse_str_to_string, Option.some.injEq] at hv
    exact hv ▸ hp
  | code hc => exact hc.presents h split hv

/-! ## What it writes -/

/-- A WHERE clause selects sessions of users whom the request gives authority over. -/
theorem revokes_presented (h : AuthRun env .all (start clock) ls d)
    (split : d.world.log = before ++ e :: after) {q : Sql} {p : Session → Bool}
    (hop : e.op = .sql q) (clause : q.revokes env = some p) :
    ∀ r ∈ e.pre.sessions, p r = true → Presents env e r.user_id := by
  have hguard := h.guard (serve_entitled env) split
  have hmem : e ∈ d.world.log := split ▸ List.mem_append_right _ List.mem_cons_self
  rw [hop] at hguard
  intro r hr hp
  cases q with
  | revoke_session id =>
    obtain ⟨u, hu, rfl⟩ := Option.map_eq_some_iff.mp clause
    have hid : r.id = u := beq_iff_eq.mp hp
    rcases hguard with ⟨row, hver, rfl⟩ | ⟨_, claims, jti, _, hx, hread⟩
    · obtain ⟨r', hr', hrow, _, hpres⟩ := hver.presents h split
      rw [hrow, Uuid.UUID_TO_BIN_to_string, Option.some.injEq] at hu
      rwa [(event_keyed h hmem).session_eq hr hr' (hid.trans hu.symm)]
    · -- The row was read as the caller's; rows do not change hands.
      obtain ⟨a, _, _, hdid, hprec⟩ := event_of_history after e hread
      rw [← split] at hprec
      obtain ⟨_, _, _, hexec⟩ := h.did hprec.left hdid
      obtain ⟨r₀, hr₀, hid₀, huser, _⟩ := exec_select_own_session hexec
      rw [hu, Option.some.injEq] at hid₀
      have hb := (later_of_prior h hprec).session_becomes (event_keyed h hmem) hr₀ hr
        (hid₀.symm.trans hid.symm)
      rw [hb.user_id_eq]
      exact hx.presents h split (Uuid.parse_str_of_UUID_TO_BIN huser)
  | revoke_user_sessions text =>
    obtain ⟨u, hu, rfl⟩ := Option.map_eq_some_iff.mp clause
    simp only [Bool.and_eq_true, beq_iff_eq] at hp
    have named : Names env e.req (history e.tid before) text := by
      rcases hguard with ⟨row, hver, rfl⟩ | ⟨_, claims, _, hx, rfl⟩
      · exact .refresh hver
      · exact .access hx
    rw [hp.1]
    exact named.presents h split (Uuid.parse_str_of_UUID_TO_BIN hu)
  | revoke_by_jti jti text =>
    obtain ⟨u, hu, rfl⟩ := Option.map_eq_some_iff.mp clause
    obtain ⟨_, claims, _, hx, _, rfl⟩ := hguard
    simp only [Bool.and_eq_true, beq_iff_eq] at hp
    rw [hp.1.2]
    exact hx.presents h split (Uuid.parse_str_of_UUID_TO_BIN hu)
  | _ => cases clause

/-- **The frame of one operation.** -/
theorem event_untouched (h : AuthRun env .all (start clock) ls d)
    (split : d.world.log = before ++ e :: after) {v : Uuid} (hv : ¬ Presents env e v) :
    Untouched v e.pre e.post := by
  have hguard := h.guard (serve_entitled env) split
  obtain ⟨_, _, _, hexec⟩ := h.executed (split ▸ List.mem_append_right _ List.mem_cons_self)
  refine ⟨?_, ?_⟩
  · have hchange := exec_sessions hexec
    generalize hop : e.op = op at hchange hguard
    generalize e.post.sessions = l at hchange
    cases hchange with
    | same => rfl
    | @inserted values row hvalues _ =>
      obtain ⟨⟨text, u, hn, hparse, huser⟩, _⟩ := hguard
      have hrow := (row_of_values hvalues).1
      rw [huser, Uuid.UUID_TO_BIN_to_string, Option.some.injEq] at hrow
      have hne : row.user_id ≠ v := by
        rintro rfl
        exact hv (hn.presents h split (hrow ▸ hparse))
      rw [List.filter_append, List.filter_singleton, beq_eq_false_iff_ne.mpr hne]
      exact List.append_nil _
    | @revoked q p clause =>
      apply filter_map_of_fixed e.pre.sessions
      · intro r
        rw [(becomes_revoke r e.pre.now).user_id_eq]
      · intro r hr huser
        rw [if_neg]
        intro hp
        exact hv (beq_iff_eq.mp huser ▸ revokes_presented h split hop clause r hr hp)
  · have hchange := exec_users hexec
    generalize hop : e.op = op at hchange hguard
    generalize e.post.users = l at hchange
    cases hchange with
    | same => exact .inl rfl
    | @registered id phone u _ _ pin fresh =>
      by_cases hu : u.id = v
      · refine .inr ⟨?_, ?_⟩
        · intro u' hu'
          exact hu ▸ (fresh u' hu').1
        · intro u' hu' hid
          rcases List.mem_append.mp hu' with hu' | hu'
          · exact absurd (hid.trans hu.symm) (fresh u' hu').1
          · exact List.mem_singleton.mp hu' ▸ pin
      · left
        rw [List.filter_append, List.filter_singleton, beq_eq_false_iff_ne.mpr hu]
        exact List.append_nil _
    | @pin text pin_hash stored u parsed =>
      have hne : u ≠ v := by
        rintro rfl
        exact hv (hguard.presents h split (Uuid.parse_str_of_UUID_TO_BIN parsed))
      left
      apply filter_map_of_fixed e.pre.users
      · intro x
        split <;> rfl
      · intro x _ hx
        rw [if_neg]
        intro hid
        exact hne (hid.symm.trans (beq_iff_eq.mp hx))

end Named

/-- **User isolation.** In every run, each operation leaves the sessions and the PIN of every user
alone over whom its request presents nothing; and from any reachable state on, no row is removed
and neither `revoked_at` nor `used_at` is cleared. -/
theorem user_isolation (env : Env) (clock : Nat) (ls : List AuthLabel) (d : AuthConf)
    (h : AuthRun env .all (start clock) ls d) :
    (∀ e ∈ d.world.log, ∀ v, ¬ Presents env e v → Untouched v e.pre e.post) ∧
      ∀ ms d', AuthRun env .all d ms d' → Kept d.world.store d'.world.store := by
  refine ⟨?_, ?_⟩
  · intro e he v hv
    obtain ⟨before, after, split⟩ := List.append_of_mem he
    exact event_untouched h split hv
  · intro ms d' hrest
    exact (hrest.follows (later_follows env)).kept

/-- The guarantee at a registration and a login. -/
theorem user_isolation_login :
    (∀ e ∈ (replayed (machine sample) (serve sample) sample_start sample_login).world.log,
      ∀ v, ¬ Presents sample e v → Untouched v e.pre e.post) ∧
        ∀ ms d', AuthRun sample .all
            (replayed (machine sample) (serve sample) sample_start sample_login) ms d' →
          Kept (replayed (machine sample) (serve sample) sample_start sample_login).world.store
            d'.world.store :=
  user_isolation sample _ sample_login _ (run_replayed (by decide +kernel))

end Kova.Auth

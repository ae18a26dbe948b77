import Kova.Conc.Serial
import Kova.Auth.Credentials
import Kova.Auth.RevokeAll

/-!
# Logout and the login it ends

A login goes on through rotations: each of them revokes a session and inserts the next one. The
access tokens of the sessions that were rotated away are accepted for up to 15 minutes more, and
`logout` revokes by the identifier of the token it was called with. So it ends the login exactly
when the live session of the login is the one that carries that identifier
(`logout_ends_login_iff`); called with an older token it revokes nothing and answers 200
(`logout_with_old_token`).
-/

set_option autoImplicit false

namespace Kova.Auth

open Conc

variable {env : Env} {clock : Nat} {ls : List AuthLabel} {d : AuthConf}

/-! ## The sessions of a login -/

/-- **A session of the login** of an access token: the one inserted with the token's identifier, or
one that was reached from it by rotations. -/
inductive OfLogin (env : Env) (d : AuthConf) (jti : String) : Session → Prop
  | own {e : AuthEvent} {v : SessionInsert} {row : Session} :
      e ∈ d.world.log → Inserts e v row → row.access_token_jti = some jti → OfLogin env d jti row
  | rotated {e : AuthEvent} {v : SessionInsert} {row row' : Session}
      {refresh_token fingerprint : String} :
      OfLogin env d jti row → row.Selected env (env.sha256_hex refresh_token) →
        e ∈ d.world.log → Inserts e v row' → e.req = .token_refresh refresh_token fingerprint →
          OfLogin env d jti row'

/-- No session of the login is live in the store. -/
def LoginOver (env : Env) (d : AuthConf) (jti : String) (s : Store) : Prop :=
  ∀ row, OfLogin env d jti row → ∀ r ∈ s.sessions, row.Becomes r → ¬ r.Live s.now

/-- Every session of the login that is live in the store carries the identifier, as far as the
collation can tell. -/
def OnlyOwn (env : Env) (d : AuthConf) (jti : String) (s : Store) : Prop :=
  ∀ row, OfLogin env d jti row → ∀ r ∈ s.sessions, row.Becomes r → r.Live s.now →
    ∃ own, r.access_token_jti = some own ∧ env.coll.same own jti

theorem OfLogin.inserted {jti : String} {row : Session} (h : OfLogin env d jti row) :
    ∃ e ∈ d.world.log, ∃ v, Inserts e v row := by
  cases h with
  | own he hins _ => exact ⟨_, he, _, hins⟩
  | rotated _ _ he hins _ => exact ⟨_, he, _, hins⟩

/-! ## Identifiers -/

section Run

variable {S : AuthScope}

/-- The identifier of an inserted session is a UUID that its call drew. -/
theorem inserted_jti (h : AuthRun env S (start clock) ls d) {e : AuthEvent}
    (he : e ∈ d.world.log) {v : SessionInsert} {row : Session} (hins : Inserts e v row) :
    ∃ g ∈ d.world.log, ∃ u : Uuid, g.tid = e.tid ∧ g.did = ⟨.now_v7, u⟩ ∧
      v.access_token_jti = u.to_string ∧ row.access_token_jti = some u.to_string := by
  obtain ⟨before, after, split⟩ := List.append_of_mem he
  have hguard := h.guard (serve_entitled env) split
  rw [hins.1] at hguard
  obtain ⟨_, u, hu, hjti⟩ := hguard
  obtain ⟨g, hg, ht, hdid, _⟩ := event_of_history after e hu
  obtain ⟨_, stored, hvarchar, hrow⟩ := row_live hins.2.1
  have hlength : u.to_string.length ≤ 36 := u.to_string_length.le
  rw [hjti, Collation.varchar, if_pos hlength, Option.some.injEq] at hvarchar
  exact ⟨g, split ▸ List.mem_append_left _ hg, u, ht, hdid, hjti, hvarchar ▸ hrow⟩

/-- **No two sessions are inserted with one identifier.** -/
theorem jti_unique (h : AuthRun env S (start clock) ls d) {a b : AuthEvent}
    (ha : a ∈ d.world.log) (hb : b ∈ d.world.log) {v v' : SessionInsert} {row row' : Session}
    (hins : Inserts a v row) (hins' : Inserts b v' row')
    (hjti : row.access_token_jti = row'.access_token_jti) : a = b := by
  obtain ⟨g, hg, u, ht, hdid, _, hu⟩ := inserted_jti h ha hins
  obtain ⟨g', hg', u', ht', hdid', _, hu'⟩ := inserted_jti h hb hins'
  have huu : u = u' := by
    rw [hu, hu', Option.some.injEq] at hjti
    have hparse := congrArg Uuid.parse_str hjti
    simpa using hparse
  subst huu
  have never : ∀ {x y : AuthEvent}, x.did = ⟨.now_v7, u⟩ → y.did = ⟨.now_v7, u⟩ →
      ¬ Precedes d.world.log x y := by
    intro x y hx hy hprec
    obtain ⟨_, _, _, hexec⟩ := h.did hprec.left hx
    obtain ⟨_, _, _, hexec'⟩ := h.did hprec.right hy
    have hold := @exec_now_v7 env _ _ _ _ hexec
    have hnew := @exec_now_v7 env _ _ _ _ hexec'
    exact hnew.1 (h.between (minted_follows env) hprec hold.2)
  have hgg : g = g' := by
    rcases precedes_total hg hg' with heq | hlt | hgt
    · exact heq
    · exact absurd hlt (never hdid hdid')
    · exact absurd hgt (never hdid' hdid)
  exact insert_once h ha hb (by rw [← ht, ← ht', hgg]) hins.1 hins'.1

/-- The session that a rotation exchanged, as it looked it up: live. -/
theorem rotation_parent (h : AuthRun env S (start clock) ls d) {e : AuthEvent}
    (he : e ∈ d.world.log) {v : SessionInsert} {row : Session} (hins : Inserts e v row)
    {refresh_token fingerprint : String} (hreq : e.req = .token_refresh refresh_token fingerprint) :
    ∃ read ∈ d.world.log, read.tid = e.tid ∧ ∃ r ∈ read.pre.sessions,
      r.Selected env (env.sha256_hex refresh_token) ∧ r.Live read.pre.now ∧
        row.user_id = r.user_id := by
  obtain ⟨before, after, split⟩ := List.append_of_mem he
  have hguard := h.guard (serve_guarded env) split
  rw [hins.1] at hguard
  obtain ⟨srow, hx⟩ := hguard.rotation _ _ hreq
  obtain ⟨read, hread, ht, hdid, _⟩ := event_of_history after e hx.read
  have hmem : read ∈ d.world.log := split ▸ List.mem_append_left _ hread
  obtain ⟨r, hr, hsel, hexp, rfl⟩ := looked_up h hmem hdid
  refine ⟨read, hmem, ht, r, hr, hsel, ⟨hx.live, hexp⟩, ?_⟩
  obtain ⟨u, hu, huser⟩ := hx.user
  rw [Session.read, Uuid.parse_str_to_string, Option.some.injEq] at hu
  have hrow := (row_of_values hins.2.1).1
  rw [huser, Uuid.UUID_TO_BIN_to_string, Option.some.injEq] at hrow
  rw [← hrow, hu]

/-- A session that a token selects is what the session inserted for the token became. -/
theorem selected_becomes (h : AuthRun env S (start clock) ls d) {i e : AuthEvent}
    (hi : i ∈ d.world.log) (he : e ∈ d.world.log) {v : SessionInsert} {row r : Session}
    (hins : Inserts i v row) (hr : r ∈ e.pre.sessions) {selector : String}
    (hsel : row.Selected env selector) (hsel' : r.Selected env selector) : row.Becomes r := by
  obtain ⟨before, after, split⟩ := List.append_of_mem he
  obtain ⟨a, ha, v', row', hins', hb⟩ := event_session_inserted h split hr
  have hmem : a ∈ d.world.log := split ▸ List.mem_append_left _ ha
  obtain ⟨_, _, h₁, h₂⟩ := selected_meet h (h.since (later_follows env) hi)
    (h.since (later_follows env) hmem) hins.mem hins'.mem hsel (hb.selected.mp hsel')
  obtain ⟨_, rfl⟩ := inserted_unique h hi hmem hins hins' (h₁.id_eq.symm.trans h₂.id_eq)
  exact hb

end Run

/-! ## The logout -/

/-- What a successful logout has executed. Of the requests only the logouts say anything. -/
theorem serve_updated (env : Env) (req : Request) :
    Guarded (fun _ _ => True) (fun h r => ∀ auth, req = .logout auth → ∀ resp : Response,
      r = .ok resp → ∃ claims, Extracted env req h claims ∧
        did (.revoke_by_jti claims.jti claims.sub) (some ()) ∈ h) (serve env req) [] := by
  refine (serve_steps env req).mono (fun _ _ _ => trivial) ?_
  rintro h r ends auth rfl resp rfl
  cases ends with
  | @logout _ _ claims _ _ accepted =>
    exact ⟨claims, accepted.extracted rfl List.mem_cons_self,
      List.mem_cons_of_mem _ List.mem_cons_self⟩
  | pin sets => cases sets

/-- The session that a logout was called from, and the UPDATE of the logout. -/
structure LoggedOut (env : Env) (d : AuthConf) (t : Nat) (jti : String) (i u : AuthEvent)
    (v : SessionInsert) (root : Session) : Prop where
  insert_mem : i ∈ d.world.log
  inserts : Inserts i v root
  carries : root.access_token_jti = some jti
  earlier : i.tid < t
  update_mem : u ∈ d.world.log
  update_tid : u.tid = t
  update_req : ∃ auth, u.req = .logout auth
  update_did : u.did = did (.revoke_by_jti jti root.user_id.to_string) (some ())

/-- A successful logout, called with a token that an earlier call returned. -/
theorem logged_out (h : AuthRun env .all (start clock) ls d) {t t' : Nat} {req : Request}
    {pair : TokenPair} {resp : Response} (issued : d.returned t' req (.ok (.tokens pair)))
    (earlier : t' < t)
    (returned : d.returned t (.logout (.bearer (.jws pair.access_token))) (.ok resp)) :
    ∃ jti i u v root, pair.access_token.payload.jti = some jti ∧
      LoggedOut env d t jti i u v root := by
  obtain ⟨i, hi, ht, v, root, claims, hins, _, htoken, _, hsub, hjti, _⟩ := issued_by h issued
  obtain ⟨claims', ⟨auth, now, hauth, _, hclaims⟩, hmem⟩ :=
    h.answer (serve_updated env) returned _ rfl resp rfl
  cases hauth
  have heq : claims' = claims := by
    simp only [AuthClaims.from_request_parts] at hclaims
    split at hclaims
    · next claims'' hdecode =>
      cases hclaims
      obtain ⟨token, htoken', _, _, hread, _⟩ := Jwt.decode_ok hdecode
      cases htoken'
      rw [htoken] at hread
      exact (Option.some.inj hread).symm
    · cases hclaims
  subst heq
  obtain ⟨u, hu, hut, hdid⟩ := mem_history.mp hmem
  obtain ⟨_, u', _, _, _, hvjti, hrow⟩ := inserted_jti h hi hins
  refine ⟨claims'.jti, i, u, v, root, by rw [htoken]; rfl, hi, hins, ?_, ht ▸ earlier, hu, hut,
    ⟨_, h.own_req (serve_updated env) returned hu hut⟩, hsub ▸ hdid⟩
  rw [hrow, hjti, hvjti]

section LoggedOut

variable {t : Nat} {jti : String} {i u : AuthEvent} {v : SessionInsert} {root : Session}

/-- The session of the login that carries the identifier is the one it began with. -/
theorem LoggedOut.own (hl : LoggedOut env d t jti i u v root)
    (h : AuthRun env .all (start clock) ls d) {e : AuthEvent} (he : e ∈ d.world.log)
    {v' : SessionInsert} {row : Session} (hins : Inserts e v' row)
    (hjti : row.access_token_jti = some jti) : e = i ∧ row = root := by
  obtain rfl := jti_unique h he hl.insert_mem hins hl.inserts (hjti.trans hl.carries.symm)
  exact ⟨rfl, hins.row_eq hl.inserts⟩

/-- The sessions of a login are one user's. -/
theorem LoggedOut.user_eq (hl : LoggedOut env d t jti i u v root)
    (h : AuthRun env .all (start clock) ls d) {row : Session} (hrow : OfLogin env d jti row) :
    row.user_id = root.user_id := by
  induction hrow with
  | own he hins hjti => rw [(hl.own h he hins hjti).2]
  | rotated hfrom hsel he hins hreq ih =>
    obtain ⟨read, hread, _, r, hr, hsel', _, huser⟩ := rotation_parent h he hins hreq
    obtain ⟨a, ha, _, hins'⟩ := hfrom.inserted
    rw [huser, (selected_becomes h ha hread hins' hr hsel hsel').user_id_eq, ih]

/-- The WHERE clause of the UPDATE. -/
def logout_clause (env : Env) (jti : String) (user_id : Uuid) (r : Session) : Bool :=
  (r.access_token_jti.any fun j => env.coll.same j jti) && r.user_id == user_id &&
    r.revoked_at.isNone

theorem LoggedOut.post (hl : LoggedOut env d t jti i u v root)
    (h : AuthRun env .all (start clock) ls d) :
    u.post = u.pre.revoke (logout_clause env jti root.user_id) := by
  obtain ⟨_, _, _, hexec⟩ := h.did hl.update_mem hl.update_did
  refine exec_revokes ?_ hexec
  simp only [Sql.revokes, Uuid.UUID_TO_BIN_to_string, Option.map_some]
  rfl

/-- **What the UPDATE leaves**: no live session of the login, exactly when each one it found
carries the identifier. -/
theorem LoggedOut.over_iff (hl : LoggedOut env d t jti i u v root)
    (h : AuthRun env .all (start clock) ls d) :
    LoginOver env d jti u.post ↔ OnlyOwn env d jti u.pre := by
  have hpost := hl.post h
  have hnow : u.post.now = u.pre.now := by rw [hpost]; rfl
  have hsessions : u.post.sessions = u.pre.sessions.map fun r =>
      if logout_clause env jti root.user_id r then { r with revoked_at := some u.pre.now } else r :=
    congrArg Store.sessions hpost
  refine ⟨?_, ?_⟩
  · intro ended row hrow r hr hb live
    by_contra hother
    have hmissed : ¬ logout_clause env jti root.user_id r = true := by
      intro hclause
      simp only [logout_clause, Bool.and_eq_true, Option.any_eq_true, decide_eq_true_eq] at hclause
      obtain ⟨⟨⟨own, hown, hsame⟩, _⟩, _⟩ := hclause
      exact hother ⟨own, hown, hsame⟩
    have hkept : r ∈ u.post.sessions := by
      rw [hsessions]
      exact List.mem_map.mpr ⟨r, hr, if_neg hmissed⟩
    exact ended row hrow r hkept hb (hnow ▸ live)
  · intro only row hrow r hr hb live
    rw [hsessions] at hr
    obtain ⟨r₀, hr₀, heq⟩ := List.mem_map.mp hr
    by_cases hclause : logout_clause env jti root.user_id r₀ = true
    · rw [if_pos hclause] at heq
      rw [← heq] at live
      cases live.1
    · rw [if_neg hclause] at heq
      subst heq
      obtain ⟨own, hown, hsame⟩ := only row hrow r₀ hr₀ hb (hnow ▸ live)
      apply hclause
      simp only [logout_clause, Bool.and_eq_true, Option.any_eq_true, decide_eq_true_eq, beq_iff_eq,
        Option.isNone_iff_eq_none]
      exact ⟨⟨⟨own, hown, hsame⟩, hb.user_id_eq.trans (hl.user_eq h hrow)⟩, live.1⟩

/-- A session that is not live when the UPDATE is done is not live later. -/
theorem not_live_later {s s' : Store} (hlater : Later s s') (keyed : s'.Keyed) {row r r' : Session}
    (hr : r ∈ s.sessions) (hb : row.Becomes r) (hr' : r' ∈ s'.sessions) (hb' : row.Becomes r')
    (dead : ¬ r.Live s.now) : ¬ r'.Live s'.now := by
  rintro ⟨hnull, hexp⟩
  have hrr' := hlater.session_becomes keyed hr hr' (hb.id_eq.trans hb'.id_eq.symm)
  apply dead
  refine ⟨?_, ?_⟩
  · by_contra hsome
    have hrevoked := hrr'.revoked (Option.isSome_iff_ne_none.mpr hsome)
    rw [hnull] at hrevoked
    cases hrevoked
  · rw [← hrr'.expires_at_eq]
    exact Int.lt_of_le_of_lt hlater.now hexp

/-- A moment of the run after the UPDATE. -/
def After (d : AuthConf) (u : AuthEvent) (s : Store) : Prop :=
  s = d.world.store ∨ ∃ e, Precedes d.world.log u e ∧ s = e.pre

theorem After.later (h : AuthRun env .all (start clock) ls d) (hu : u ∈ d.world.log) {s : Store}
    (hs : After d u s) : Later u.post s ∧ s.Keyed := by
  rcases hs with rfl | ⟨e, hprec, rfl⟩
  · exact ⟨h.since (later_follows env) hu, run_keyed h⟩
  · exact ⟨h.between (later_follows env) hprec, event_keyed h hprec.right⟩

/-- **A login that is over stays over**: a session inserted later would have been exchanged for a
live one of the login. -/
theorem LoggedOut.over_after (hl : LoggedOut env d t jti i u v root)
    (h : Serial (machine env) (serve env) .all (start clock) ls d)
    (ended : LoginOver env d jti u.post) {row : Session} (hrow : OfLogin env d jti row) :
    ∀ s, After d u s → ∀ r ∈ s.sessions, row.Becomes r → ¬ r.Live s.now := by
  have hrun := h.run
  -- What was inserted before the UPDATE is in the table when the UPDATE is done.
  have before_update : ∀ {e : AuthEvent} {v' : SessionInsert} {row' : Session},
      OfLogin env d jti row' → Inserts e v' row' → Precedes d.world.log e u →
        ∀ s, After d u s → ∀ r ∈ s.sessions, row'.Becomes r → ¬ r.Live s.now := by
    intro e v' row' hrow' hins hprec s hs r hr hb
    obtain ⟨hlater, keyed⟩ := hs.later hrun hl.update_mem
    obtain ⟨r₀, hr₀, hb₀⟩ := ((hrun.between (later_follows env) hprec).trans
      (event_later hrun hl.update_mem)).sessions row' hins.mem
    exact not_live_later hlater keyed hr₀ hb₀ hr hb (ended row' hrow' r₀ hr₀ hb₀)
  induction hrow with
  | own he hins hjti =>
    obtain ⟨rfl, _⟩ := hl.own hrun he hins hjti
    exact before_update (.own he hins hjti) hins
      (h.precedes he hl.update_mem (hl.update_tid.symm ▸ hl.earlier))
  | @rotated e v' parent row' token fingerprint hfrom hsel he hins hreq ih =>
    rcases precedes_total he hl.update_mem with rfl | hlt | hgt
    · have hop := hins.1.symm.trans (congrArg Done.op hl.update_did)
      cases hop
    · exact before_update (.rotated hfrom hsel he hins hreq) hins hlt
    · -- The rotation began after the logout and found its session live.
      obtain ⟨read, hread, htid, r₁, hr₁, hsel', live, _⟩ := rotation_parent hrun he hins hreq
      obtain ⟨a, ha, _, hins'⟩ := hfrom.inserted
      have hb := selected_becomes hrun ha hread hins' hr₁ hsel hsel'
      have hne : u.tid ≠ e.tid := by
        intro heq
        obtain ⟨auth, hlogout⟩ := hl.update_req
        have hsame := (hrun.obeys (serve_updated env)).same_req hl.update_mem he heq
        rw [hlogout, hreq] at hsame
        cases hsame
      have hle := hgt.rel h.ordered.log
      have hprec := h.precedes hl.update_mem hread (by omega)
      exact absurd live (ih read.pre (.inr ⟨read, hprec, rfl⟩) r₁ hr₁ hb)

end LoggedOut

/-- **Logout ends the login it was called from exactly when** the live session of the login is the
one that carries the token's identifier: in every run of handlers one at a time, for every logout
that succeeded with a token returned earlier, no session of the login is live from its UPDATE on
if and only if the UPDATE found none live but by that identifier. -/
theorem logout_ends_login_iff (env : Env) (clock : Nat) (ls : List AuthLabel) (d : AuthConf)
    (h : Serial (machine env) (serve env) .all (start clock) ls d) (t t' : Nat) (req : Request)
    (pair : TokenPair) (resp : Response) (issued : d.returned t' req (.ok (.tokens pair)))
    (earlier : t' < t)
    (returned : d.returned t (.logout (.bearer (.jws pair.access_token))) (.ok resp)) :
    ∃ jti user_id, pair.access_token.payload.jti = some jti ∧ ∃ u ∈ d.world.log, u.tid = t ∧
      u.did = did (.revoke_by_jti jti user_id) (some ()) ∧
        (LoginOver env d jti u.post ∧ LoginOver env d jti d.world.store ↔
          OnlyOwn env d jti u.pre) := by
  obtain ⟨jti, i, u, v, root, hjti, hl⟩ := logged_out h.run issued earlier returned
  refine ⟨jti, root.user_id.to_string, hjti, u, hl.update_mem, hl.update_tid, hl.update_did, ?_⟩
  rw [← hl.over_iff h.run]
  refine ⟨fun both => both.1, fun ended => ⟨ended, ?_⟩⟩
  intro row hrow r hr hb
  exact hl.over_after h ended hrow d.world.store (.inl rfl) r hr hb

/-! ## Two logouts -/

/-- The sessions that the UPDATEs of logouts find carry the identifier. -/
def finds_own (jti : String) (e : AuthEvent) : Bool :=
  match e.op with
  | .sql (.revoke_by_jti ..) => e.pre.sessions.all fun r => r.access_token_jti = some jti
  | _ => true

/-- A login, and the logout from it. -/
def login_logout : List AuthLabel :=
  sample_login ++ uninterrupted 3 (.logout sample_bearer) [{}, {}, {}]

/-- The guarantee at that run: the login is over. -/
theorem logout_ends_login_sample :
    ∃ d, Serial (machine sample) (serve sample) .all sample_start login_logout d ∧
      LoginOver sample d sample_claims.jti d.world.store := by
  have checked : (serial_replay (machine sample) (serve sample) (fun _ => true) sample_start
      login_logout).any (fun d => (decide (d.result? 2 = some (.ok (.tokens sample_pair))) &&
        d.succeeded 3 (.logout sample_bearer)) &&
          d.world.log.all (finds_own sample_claims.jti)) = true := by
    decide +kernel
  obtain ⟨d, hd, hchecks⟩ := (Option.any_eq_true _ _).mp checked
  simp only [Bool.and_eq_true, decide_eq_true_eq, List.all_eq_true] at hchecks
  obtain ⟨⟨login, logout⟩, own⟩ := hchecks
  have run : Serial (machine sample) (serve sample) .all sample_start login_logout d :=
    serial_of_replay (fun _ l _ => by cases l <;> simp [Scope.allows, Scope.all]) hd
  obtain ⟨req, issued⟩ := returned_of_result login
  obtain ⟨resp, returned⟩ := returned_ok logout
  obtain ⟨jti, user_id, hjti, u, hu, _, hdid, hiff⟩ := logout_ends_login_iff sample _ login_logout d
    run 3 2 req sample_pair resp issued (by decide) returned
  obtain rfl : sample_claims.jti = jti := Option.some.inj hjti
  refine ⟨d, run, (hiff.mpr ?_).2⟩
  intro row _ r hr _ _
  have hfound := own u hu
  rw [finds_own, show u.op = .sql (.revoke_by_jti sample_claims.jti user_id) from
    congrArg Done.op hdid] at hfound
  exact ⟨_, of_decide_eq_true (List.all_eq_true.mp hfound r hr), sample.coll.same_refl _⟩

/-- A login, a rotation, and the logout with the access token of the login. -/
def rotated_logout : List AuthLabel :=
  sample_login ++
    (uninterrupted 3 (.token_refresh (sample_token 'a') "phone") ({} :: {} :: issuing 'b' 10) ++
      uninterrupted 4 (.logout sample_bearer) [{}, {}, {}])

/-- What is not inserted with the identifier is inserted by the rotation of the first token. -/
def inserts_rotated (jti : String) (e : AuthEvent) : Bool :=
  match e.op with
  | .sql (.insert_session v) =>
    v.access_token_jti = jti || e.req = .token_refresh (sample_token 'a') "phone"
  | _ => true

/-- The logout answers 200, and the session that the rotation created lives on. -/
theorem logout_with_old_token :
    ¬ ∀ (env : Env) (clock : Nat) (ls : List AuthLabel) (d : AuthConf),
      Serial (machine env) (serve env) .all (start clock) ls d →
        ∀ t t' req pair resp jti, d.returned t' req (.ok (.tokens pair)) → t' < t →
          d.returned t (.logout (.bearer (.jws pair.access_token))) (.ok resp) →
            pair.access_token.payload.jti = some jti → LoginOver env d jti d.world.store := by
  intro claim
  have checked : (serial_replay (machine sample) (serve sample) (fun _ => true) sample_start
      rotated_logout).any (fun d => (decide (d.result? 2 = some (.ok (.tokens sample_pair))) &&
        d.succeeded 4 (.logout sample_bearer)) &&
          (d.world.log.all (inserts_rotated sample_claims.jti) &&
            d.world.store.sessions.any fun r => r.revoked_at.isNone &&
              (decide (d.world.store.now < r.expires_at) &&
                decide (r.access_token_jti ≠ some sample_claims.jti)))) = true := by
    decide +kernel
  obtain ⟨d, hd, hchecks⟩ := (Option.any_eq_true _ _).mp checked
  simp only [Bool.and_eq_true, decide_eq_true_eq, List.all_eq_true, List.any_eq_true,
    Option.isNone_iff_eq_none] at hchecks
  obtain ⟨⟨login, logout⟩, rotated, r, hr, hnull, hexp, hother⟩ := hchecks
  have run : Serial (machine sample) (serve sample) .all sample_start rotated_logout d :=
    serial_of_replay (fun _ l _ => by cases l <;> simp [Scope.allows, Scope.all]) hd
  obtain ⟨req, issued⟩ := returned_of_result login
  obtain ⟨resp, returned⟩ := returned_ok logout
  have ended := claim sample _ rotated_logout d run 4 2 req sample_pair resp sample_claims.jti issued
    (by decide) returned rfl
  -- The session of the login, and the one reached from it.
  obtain ⟨i, hi, _, v, root, claims, hins, hsel, htoken, _, _, hjti, _⟩ := issued_by run.run issued
  obtain ⟨_, _, u, _, _, hvjti, hroot⟩ := inserted_jti run.run hi hins
  have hclaims : sample_claims.jti = claims.jti :=
    Option.some.inj (congrArg (fun token => token.payload.jti) htoken)
  have hown : OfLogin sample d sample_claims.jti root :=
    .own hi hins (by rw [hroot, ← hvjti, ← hjti, hclaims])
  obtain ⟨e, he, v', row, hins', hb⟩ := session_inserted run.run r hr
  obtain ⟨_, _, u', _, _, hvjti', hrow⟩ := inserted_jti run.run he hins'
  have hreq : e.req = .token_refresh (sample_token 'a') "phone" := by
    have hinserts := rotated e he
    rw [inserts_rotated, hins'.1] at hinserts
    simp only [Bool.or_eq_true, decide_eq_true_eq] at hinserts
    rcases hinserts with hsame | hreq
    · rw [hb.access_token_jti_eq, hrow, ← hvjti', hsame] at hother
      exact absurd rfl hother
    · exact hreq
  exact ended row (.rotated hown hsel he hins' hreq) r hr hb ⟨hnull, hexp⟩

end Kova.Auth

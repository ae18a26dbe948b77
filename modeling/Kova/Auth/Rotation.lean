import Kova.Auth.SessionLaws

/-!
# A refresh token is exchanged at most once

The rotation reads `revoked_at`, verifies the token, and then sets `revoked_at` by an UPDATE
without a condition. If that UPDATE always finds the row still live, a token is exchanged at most
once (`refresh_token_single_use`): the second UPDATE would find what the first one left. Two
overlapping rotations both read a live row, and the second one's UPDATE finds it revoked
(`overlapping_rotations`).
-/

set_option autoImplicit false

namespace Kova.Auth

open Conc

variable {env : Env} {S : AuthScope} {clock : Nat} {ls : List AuthLabel} {d : AuthConf}

/-- At most one call that presents the token returned a pair, and at most one session was
inserted for it. -/
structure ExchangedOnce (refresh_token : String) (d : AuthConf) : Prop where
  pairs : ∀ t t' fingerprint fingerprint' resp resp',
    d.returned t (.token_refresh refresh_token fingerprint) (.ok resp) →
      d.returned t' (.token_refresh refresh_token fingerprint') (.ok resp') → t = t'
  sessions : ∀ e ∈ d.world.log, ∀ e' ∈ d.world.log, ∀ fingerprint fingerprint',
    e.req = .token_refresh refresh_token fingerprint →
      e'.req = .token_refresh refresh_token fingerprint' →
        ∀ v v' row row', Inserts e v row → Inserts e' v' row' → row = row'

/-- If the event is the UPDATE by which a rotation of the token revokes its row, it finds
`revoked_at` NULL. -/
def FindsLive (refresh_token : String) (e : AuthEvent) : Prop :=
  match e.req, e.op with
  | .token_refresh presented _, .sql (.revoke_session id) =>
    presented = refresh_token → ∀ r ∈ e.pre.sessions, r.id.to_string = id → r.revoked_at = none
  | _, _ => True

instance (refresh_token : String) : (e : AuthEvent) → Decidable (FindsLive refresh_token e)
  | ⟨_, _, _, _, _, _⟩ => by
    unfold FindsLive
    split <;> infer_instance

theorem FindsLive.null {refresh_token : String} {e : AuthEvent} (h : FindsLive refresh_token e)
    {fingerprint id : String} (hreq : e.req = .token_refresh refresh_token fingerprint)
    (hop : e.op = .sql (.revoke_session id)) {r : Session} (hr : r ∈ e.pre.sessions)
    (hid : r.id.to_string = id) : r.revoked_at = none := by
  simp only [FindsLive, hreq, hop] at h
  exact h trivial r hr hid

/-- Of two UPDATEs on a session the later one finds it revoked. -/
theorem Exchange.not_precedes (h : AuthRun env S (start clock) ls d) {refresh_token : String}
    (live : ∀ e ∈ d.world.log, FindsLive refresh_token e) {t t' : Nat}
    {read revoked read' revoked' : AuthEvent}
    {r r' : Session} (hx : Exchange env d t refresh_token read revoked r)
    (hx' : Exchange env d t' refresh_token read' revoked' r') {fingerprint fingerprint' : String}
    (hreq : revoked.req = .token_refresh refresh_token fingerprint)
    (hreq' : revoked'.req = .token_refresh refresh_token fingerprint') :
    ¬ Precedes d.world.log revoked revoked' := by
  intro hprec
  have hid : r.id = r'.id :=
    selected_id h hx.read_mem hx'.read_mem hx.found hx'.found hx.selected hx'.selected
  -- The row is revoked after the first UPDATE, and still so where the second one finds it.
  obtain ⟨r₁, hr₁, hr₁id, hrevoked⟩ := hx.revoked_row h hreq
  obtain ⟨r₂, hr₂, h₂⟩ := (h.between (later_follows env) hprec).sessions r₁ hr₁
  have hnull := (live revoked' hx'.revoked_mem).null hreq' (congrArg Done.op hx'.revoked_did)
    hr₂ (by rw [h₂.id_eq, hr₁id, hid])
  have hsome := h₂.revoked hrevoked
  rw [hnull] at hsome
  cases hsome

/-- Two exchanges of a token are one call's. -/
theorem Exchange.tid_eq (h : AuthRun env S (start clock) ls d) {refresh_token : String}
    (live : ∀ e ∈ d.world.log, FindsLive refresh_token e) {t t' : Nat}
    {read revoked read' revoked' : AuthEvent}
    {r r' : Session} (hx : Exchange env d t refresh_token read revoked r)
    (hx' : Exchange env d t' refresh_token read' revoked' r') {fingerprint fingerprint' : String}
    (hreq : revoked.req = .token_refresh refresh_token fingerprint)
    (hreq' : revoked'.req = .token_refresh refresh_token fingerprint') : t = t' := by
  rcases precedes_total hx.revoked_mem hx'.revoked_mem with heq | hlt | hgt
  · rw [← hx.revoked_tid, ← hx'.revoked_tid, heq]
  · exact absurd hlt (hx.not_precedes h live hx' hreq hreq')
  · exact absurd hgt (hx'.not_precedes h live hx hreq' hreq)

/-- A rotation that returned a pair has exchanged its token. -/
theorem returned_exchange (h : AuthRun env S (start clock) ls d) {t : Nat}
    {refresh_token fingerprint : String} {resp : Response}
    (hr : d.returned t (.token_refresh refresh_token fingerprint) (.ok resp)) :
    ∃ read revoked r, Exchange env d t refresh_token read revoked r ∧
      revoked.req = .token_refresh refresh_token fingerprint := by
  obtain ⟨_, _, _, row, _, _, hx⟩ := (h.answer (serve_guarded env) hr).exchanged resp rfl
  obtain ⟨read, revoked, r, hx, _, _, _⟩ :=
    exchange_of_exchanged h (List.Subset.refl d.world.log) hx
  exact ⟨read, revoked, r, hx,
    h.own_req (serve_guarded env) hr hx.revoked_mem hx.revoked_tid⟩

/-- A session inserted by a rotation was exchanged for, and by a call for the same request. -/
theorem inserted_exchange (h : AuthRun env S (start clock) ls d) {e : AuthEvent}
    (he : e ∈ d.world.log) {v : SessionInsert} {row : Session} (hins : Inserts e v row)
    {refresh_token fingerprint : String} (hreq : e.req = .token_refresh refresh_token fingerprint) :
    ∃ read revoked r, Exchange env d e.tid refresh_token read revoked r ∧
      revoked.req = .token_refresh refresh_token fingerprint ∧ row.user_id = r.user_id := by
  obtain ⟨before, after, split⟩ := List.append_of_mem he
  obtain ⟨read, revoked, r, hx, _, _, huser⟩ := rotation_exchanged h split hins hreq
  refine ⟨read, revoked, r, hx, ?_, huser⟩
  rw [← hreq]
  exact (h.obeys (serve_guarded env)).same_req hx.revoked_mem he hx.revoked_tid

/-- **A refresh token is exchanged at most once**, whatever the calls are and however they
interleave, if each UPDATE of a rotation finds the row it read still live. -/
theorem refresh_token_single_use (env : Env) (clock : Nat) (ls : List AuthLabel) (d : AuthConf)
    (h : AuthRun env .all (start clock) ls d) (refresh_token : String)
    (live : ∀ e ∈ d.world.log, FindsLive refresh_token e) : ExchangedOnce refresh_token d := by
  refine ⟨?_, ?_⟩
  · intro t t' fingerprint fingerprint' resp resp' hr hr'
    obtain ⟨_, _, _, hx, hreq⟩ := returned_exchange h hr
    obtain ⟨_, _, _, hx', hreq'⟩ := returned_exchange h hr'
    exact hx.tid_eq h live hx' hreq hreq'
  · intro e he e' he' fingerprint fingerprint' hreq hreq' v v' row row' hins hins'
    obtain ⟨_, _, _, hx, hxreq, _⟩ := inserted_exchange h he hins hreq
    obtain ⟨_, _, _, hx', hxreq', _⟩ := inserted_exchange h he' hins' hreq'
    have ht : e.tid = e'.tid := hx.tid_eq h live hx' hxreq hxreq'
    obtain rfl := insert_once h he he' ht hins.1 hins'.1
    have hop := hins.1.symm.trans hins'.1
    simp only [Op.sql.injEq, Sql.insert_session.injEq] at hop
    subst hop
    exact Option.some.inj (hins.2.1.symm.trans hins'.2.1)

/-- A login and three calls that present its token: the UPDATE of the first fails, the second is
the retry that exchanges it, and the third presents it again. -/
def presented_thrice : List AuthLabel :=
  sample_login ++
    uninterrupted 3 (.token_refresh (sample_token 'a') "phone") [{}, { fault := .failed }] ++
    uninterrupted 4 (.token_refresh (sample_token 'a') "phone") ({} :: {} :: issuing 'b' 10) ++
    uninterrupted 5 (.token_refresh (sample_token 'a') "phone") [{}, {}]

def after_three : AuthConf :=
  replayed (machine sample) (serve sample) sample_start presented_thrice

theorem presented_thrice_live :
    AuthRun sample .all sample_start presented_thrice after_three ∧
      ((after_three.succeeded 4 (.token_refresh (sample_token 'a') "phone") = true ∧
        after_three.result? 5 = some (.error (.error .RefreshTokenReuse))) ∧
      ∀ e ∈ after_three.world.log, FindsLive (sample_token 'a') e) := by
  obtain ⟨run, checked⟩ := replayed_spec (machine sample) (serve sample) sample_start
    presented_thrice
    (fun d => d.succeeded 4 (.token_refresh (sample_token 'a') "phone") &&
      (d.result? 5 == some (.error (.error .RefreshTokenReuse))) &&
      d.world.log.all fun e => FindsLive (sample_token 'a') e)
    (by decide +kernel)
  simp only [Bool.and_eq_true, beq_iff_eq] at checked
  unfold after_three
  refine ⟨run, checked.1, ?_⟩
  intro e he
  exact of_decide_eq_true (List.all_eq_true.mp checked.2 e he)

/-- The guarantee at that run, in which the second call succeeds and the third is refused. -/
theorem refresh_token_single_use_once :
    after_three.succeeded 4 (.token_refresh (sample_token 'a') "phone") = true ∧
      after_three.result? 5 = some (.error (.error .RefreshTokenReuse)) ∧
        ExchangedOnce (sample_token 'a') after_three := by
  obtain ⟨run, ⟨success, refused⟩, live⟩ := presented_thrice_live
  exact ⟨success, refused,
    refresh_token_single_use sample _ presented_thrice after_three run (sample_token 'a') live⟩

/-- A login and two rotations of its token: both read the row before either revokes it. -/
def overlapping : List AuthLabel :=
  sample_login ++
    ([.spawn (.token_refresh (sample_token 'a') "phone"),
      .spawn (.token_refresh (sample_token 'a') "laptop"), .run 3 {}, .run 4 {}, .run 3 {},
      .run 4 {}] ++ ((issuing 'b' 10).map (.run 3) ++ (issuing 'c' 20).map (.run 4)))

/-- Two calls that present one token both return a pair. -/
theorem overlapping_rotations :
    ¬ ∀ (env : Env) (clock : Nat) (ls : List AuthLabel) (d : AuthConf),
      AuthRun env .all (start clock) ls d → ∀ refresh_token, ExchangedOnce refresh_token d := by
  intro claim
  obtain ⟨run, both⟩ := replayed_spec (machine sample) (serve sample) sample_start overlapping
    (fun d => d.succeeded 3 (.token_refresh (sample_token 'a') "phone") &&
      d.succeeded 4 (.token_refresh (sample_token 'a') "laptop"))
    (by decide +kernel)
  obtain ⟨hfirst, hsecond⟩ := Bool.and_eq_true_iff.mp both
  obtain ⟨first, hfirst⟩ := returned_ok hfirst
  obtain ⟨second, hsecond⟩ := returned_ok hsecond
  have same := (claim sample _ overlapping _ run (sample_token 'a')).pairs 3 4 _ _ _ _ hfirst hsecond
  exact absurd same (by decide)

end Kova.Auth

import Kova.Auth.Challenges
import Kova.Auth.CodeOrigin
import Kova.Auth.LogoutChain

/-!
# Every session goes back to a one-time code

A session is inserted by a login with a one-time code, by the rotation of a refresh token, or by a
biometric login with an access token. Where no access token is presented that kova-auth has not
returned, each of the latter two goes back to an earlier session of the same user (`Rooted`). So
nobody has a session of a user without a login with a code that was issued for that user and sent to
nobody but the user's phone number (`sessions_rooted`), whatever the calls are and however they
interleave.
-/

set_option autoImplicit false

namespace Kova.Auth

open Conc

variable {env : Env} {S : AuthScope} {clock : Nat} {ls : List AuthLabel} {d : AuthConf}

/-! ## The handlers -/

/-- A login read the user's code and verified the presented one against it. -/
structure CodePresented (env : Env) (phone_number otp_code : String) (h : List AuthDone)
    (v : SessionInsert) : Prop where
  presented : ∃ user_id row u, did (.select_user_by_phone phone_number) (some (some user_id)) ∈ h ∧
    did (.select_otp user_id) (some (some row)) ∈ h ∧
      env.bcrypt_verify otp_code row.code_hash = .ok true ∧
        Uuid.parse_str user_id = some u ∧ v.user_id = u.to_string

/-- A biometric login extracted the claims of its access token and took its user's challenge. -/
structure TokenPresented (env : Env) (req : Request) (challenge_token : String)
    (h : List AuthDone) (v : SessionInsert) : Prop where
  presented : ∃ claims u, Extracted env req h claims ∧
    (⟨.redis (.get_del (challenge_key claims.sub)), some (some challenge_token)⟩ : AuthDone) ∈ h ∧
      Uuid.parse_str claims.sub = some u ∧ v.user_id = u.to_string

/-- The requests that insert sessions, and what comes before. -/
def Starts (env : Env) : Request → List AuthDone → SessionInsert → Prop
  | .otp_verify phone_number otp_code _, h, v => CodePresented env phone_number otp_code h v
  | .biometric_verify auth challenge_token signature fp, h, v =>
    TokenPresented env (.biometric_verify auth challenge_token signature fp) challenge_token h v
  | .token_refresh .., _, _ => True
  | _, _, _ => False

def starts (env : Env) (req : Request) (h : List AuthDone) : Op → Prop
  | .sql (.insert_session v) => Starts env req h v
  | _ => True

section Steps

variable {req : Request} {h : List AuthDone} {op : Op}

/-- The issuing of a pair inserts one session, the user's. -/
theorem IssuingStep.starts {u : Uuid} {fingerprint : String} {h₀ : List AuthDone}
    (step : IssuingStep env u fingerprint h₀ h op)
    (insert : ∀ x : Issue, Starts env req (x.done h₀) (x.session env u fingerprint)) :
    starts env req h op := by
  cases step with
  | inward inward => cases inward <;> trivial
  | insert => exact insert _

theorem LoginStep.starts {phone_number otp_code fingerprint : String}
    (step : LoginStep env phone_number otp_code fingerprint h op) :
    starts env (.otp_verify phone_number otp_code fingerprint) h op := by
  cases step with
  | user => trivial
  | check step => cases step <;> trivial
  | @issue user_id row u _ _ verified parsed step =>
    refine step.starts fun x => ?_
    have before : check_done user_id (login_read phone_number user_id) row (some ()) ⊆ _ :=
      x.grown.subset
    exact ⟨user_id, row, u,
      before (List.mem_append_left _ (List.mem_append_left _ List.mem_cons_self)),
      before mem_check_done.1, verified, parsed, rfl⟩

theorem BiometricStep.starts {auth : Jwt.AuthHeader} {claims : KovaClaims} {now : DateTime}
    {challenge_token signature fingerprint : String}
    (step : BiometricStep env claims now challenge_token fingerprint h op)
    (accepted : Accepted env auth now claims) :
    starts env (.biometric_verify auth challenge_token signature fingerprint) h op := by
  cases step with
  | take => trivial
  | @issue u _ _ parsed step =>
    refine step.starts fun x => ?_
    exact ⟨claims, u, accepted.extracted rfl (x.grown.subset List.mem_cons_self),
      x.grown.subset (List.mem_cons_of_mem _ List.mem_cons_self), parsed, rfl⟩

/-- **Every handler**: three kinds of requests insert sessions, and each has presented what
entitles it to. -/
theorem serve_starts (env : Env) (req : Request) :
    Guarded (starts env req) (fun _ _ => True) (serve env req) [] := by
  refine (serve_steps env req).mono ?_ fun _ _ _ => trivial
  intro h op step
  cases step with
  | register step | code step =>
    cases step with
    | inward inward => cases inward <;> trivial
    | _ => trivial
  | login step => exact step.starts
  | refresh =>
    cases op with
    | sql q => cases q <;> trivial
    | _ => trivial
  | biometric accepted step => exact step.starts accepted
  | pin _ _ _ _ step =>
    cases step with
    | check _ step => cases step <;> trivial
    | _ => trivial
  | _ => trivial

end Steps

/-! ## Roots -/

/-- **A login with a one-time code**: the call that inserted the session verified a code of the
user that the request's phone number selects. -/
structure CodeLogin (env : Env) (d : AuthConf) (e : AuthEvent) (row : Session)
    (read issue : AuthEvent) (r : OtpCode) : Prop where
  presented : ∃ phone_number otp_code fp, e.req = .otp_verify phone_number otp_code fp ∧
    CodeVerified env d e row.user_id otp_code read issue r ∧
      ∃ u ∈ e.pre.users, u.id = row.user_id ∧ env.coll.same u.phone_number phone_number

/-- **The access token of a session was presented**: the request of the call has a token that is
accepted, with the identifier of the session and its user as the subject. -/
structure PresentsToken (env : Env) (e : AuthEvent) (claims : KovaClaims) (parent : Session) :
    Prop where
  presented : ∃ auth now, e.req.auth = some auth ∧ now ≤ e.pre.clock ∧
    AuthClaims.from_request_parts env.key (DateTime.timestamp ⟨now⟩).toNat auth = .ok claims
  carries : parent.access_token_jti = some claims.jti
  subject : claims.sub = parent.user_id.to_string

/-- **A session that goes back to a login with a code**: inserted by the login itself, by the
rotation of the refresh token of such a session, or by a biometric login with the access token of
such a session, on a challenge issued to its user. -/
inductive Rooted (env : Env) (d : AuthConf) : AuthEvent → Session → Prop
  | code {e read issue : AuthEvent} {v : SessionInsert} {row : Session} {r : OtpCode} :
      Inserts e v row → CodeLogin env d e row read issue r → Rooted env d e row
  | rotation {e i read : AuthEvent} {v : SessionInsert} {row parent r : Session}
      {refresh_token fingerprint : String} :
      Rooted env d i parent → Inserts e v row → e.req = .token_refresh refresh_token fingerprint →
        read ∈ d.world.log → read.tid = e.tid → r ∈ read.pre.sessions → parent.Becomes r →
          r.Selected env (env.sha256_hex refresh_token) → r.Live read.pre.now →
            row.user_id = parent.user_id → Rooted env d e row
  | biometric {e i issue take : AuthEvent} {v : SessionInsert} {row parent : Session}
      {auth : Jwt.AuthHeader} {challenge signature fingerprint : String} {j k : Nat}
      {claims : KovaClaims} :
      Rooted env d i parent → Inserts e v row →
        e.req = .biometric_verify auth challenge signature fingerprint →
          PresentsToken env e claims parent → Consumption d claims.sub challenge j k issue take →
            take.tid = e.tid → row.user_id = parent.user_id → Rooted env d e row

/-- At the root there is a login with a code of the same user. -/
theorem Rooted.login {e : AuthEvent} {row : Session} (h : Rooted env d e row) :
    ∃ root first read issue r, CodeLogin env d root first read issue r ∧
      first.user_id = row.user_id := by
  induction h with
  | code _ hlogin => exact ⟨_, _, _, _, _, hlogin, rfl⟩
  | rotation _ _ _ _ _ _ _ _ _ huser ih =>
    obtain ⟨root, first, read, issue, r, hlogin, hfirst⟩ := ih
    exact ⟨root, first, read, issue, r, hlogin, hfirst.trans huser.symm⟩
  | biometric _ _ _ _ _ _ huser ih =>
    obtain ⟨root, first, read, issue, r, hlogin, hfirst⟩ := ih
    exact ⟨root, first, read, issue, r, hlogin, hfirst.trans huser.symm⟩

/-! ## Access tokens -/

/-- A token in kova-auth's name has been returned by kova-auth before a request presents it: its key
is nobody else's. -/
def Honest (env : Env) (c : AuthConf) (l : AuthLabel) (_ : AuthConf) : Prop :=
  ∀ req token, l = .spawn req → req.auth = some (.bearer (.jws token)) →
    token.signed_by = env.key → ∃ pair, Returned c pair ∧ pair.access_token = token

abbrev HonestRun (env : Env) : AuthConf → List AuthLabel → AuthConf → Prop :=
  RunWhere (machine env) (serve env) (Honest env)

/-- The session of an access token has been inserted. -/
def Backed (env : Env) (log : List AuthEvent) (token : Jwt.Jws) : Prop :=
  ∃ i ∈ log, ∃ v row, ∃ claims : KovaClaims, Inserts i v row ∧
    token = ⟨⟨.RS256, none⟩, claims.payload, env.key⟩ ∧ claims.sub = row.user_id.to_string ∧
      claims.jti = v.access_token_jti

theorem Backed.mono {log log' : List AuthEvent} {token : Jwt.Jws} (h : Backed env log token)
    (sub : log ⊆ log') : Backed env log' token := by
  obtain ⟨i, hi, rest⟩ := h
  exact ⟨i, sub hi, rest⟩

/-- Every request's token is backed, by the log that its call has found. -/
structure AllBacked (env : Env) (d : AuthConf) : Prop where
  calls : ∀ call ∈ d.pool, ∀ token, call.req.auth = some (.bearer (.jws token)) →
    token.signed_by = env.key → Backed env d.world.log token
  events : ∀ before e after, d.world.log = before ++ e :: after → ∀ token,
    e.req.auth = some (.bearer (.jws token)) → token.signed_by = env.key → Backed env before token

/-- The last of a list, or an earlier one. -/
theorem snoc_split {γ : Type} {l before after : List γ} {x e : γ}
    (h : l ++ [x] = before ++ e :: after) :
    (l = before ∧ x = e) ∨ ∃ after', after = after' ++ [x] ∧ l = before ++ e :: after' := by
  rcases List.eq_nil_or_concat after with rfl | ⟨after', y, rfl⟩
  · obtain ⟨hl, hx⟩ := List.append_inj' h rfl
    exact .inl ⟨hl, List.cons.inj hx |>.1⟩
  · rw [List.concat_eq_append, ← List.cons_append, ← List.append_assoc] at h
    obtain ⟨hl, hx⟩ := List.append_inj' h rfl
    obtain rfl := List.singleton_inj.mp hx
    exact .inr ⟨after', List.concat_eq_append, hl⟩

theorem all_backed (h : HonestRun env (start clock) ls d) : AllBacked env d := by
  induction h with
  | nil =>
    refine ⟨fun call hcall => (by cases hcall), fun before e after split => ?_⟩
    simp [start, Conf.init] at split
  | @snoc c d ls l hrun hstep honest ih =>
    rcases step_cases hstep with ⟨req, rfl, rfl⟩ |
      ⟨t, ch, call, op, next, r, s', _, hcall, _, _, _, rfl⟩ | ⟨t, call, _, hcall, rfl⟩ |
      ⟨o, s', _, _, rfl⟩
    · refine ⟨?_, ih.events⟩
      intro call hcall token hauth hkey
      rcases List.mem_append.mp hcall with hcall | hcall
      · exact ih.calls call hcall token hauth hkey
      · obtain rfl := List.mem_singleton.mp hcall
        obtain ⟨pair, returned, rfl⟩ := honest req token rfl hauth hkey
        obtain ⟨i, hi, v, row, claims, hins, _, htoken, _, hsub, hjti, _⟩ :=
          returned_issued hrun.run returned
        exact ⟨i, hi, v, row, claims, hins, htoken, hsub, hjti⟩
    · have own := List.mem_of_getElem? hcall
      refine ⟨?_, ?_⟩
      · intro call' hcall' token hauth hkey
        have grown : Backed env c.world.log token := by
          rcases List.mem_or_eq_of_mem_set hcall' with hmem | rfl
          · exact ih.calls call' hmem token hauth hkey
          · exact ih.calls call own token hauth hkey
        exact grown.mono (List.subset_append_left _ _)
      · intro before e after split token hauth hkey
        rcases snoc_split split with ⟨rfl, rfl⟩ | ⟨after', _, split⟩
        · exact ih.calls call own token hauth hkey
        · exact ih.events before e after' split token hauth hkey
    · refine ⟨?_, ih.events⟩
      intro call' hcall' token hauth hkey
      rcases List.mem_or_eq_of_mem_set hcall' with hmem | rfl
      · exact ih.calls call' hmem token hauth hkey
      · exact ih.calls call (List.mem_of_getElem? hcall) token hauth hkey
    · exact ⟨ih.calls, ih.events⟩

/-! ## The sessions of a run -/

section Run

variable {before after : List AuthEvent} {e : AuthEvent} {v : SessionInsert} {row : Session}

/-- The user of the row is the one whose identifier is bound. -/
theorem inserted_user (hins : Inserts e v row) {u : Uuid} (hv : v.user_id = u.to_string) :
    row.user_id = u := by
  have hrow := (row_of_values hins.2.1).1
  rw [hv, Uuid.UUID_TO_BIN_to_string, Option.some.injEq] at hrow
  exact hrow.symm

theorem code_login (h : AuthRun env S (start clock) ls d)
    (split : d.world.log = before ++ e :: after) (hins : Inserts e v row)
    {phone_number otp_code fp : String} (hreq : e.req = .otp_verify phone_number otp_code fp) :
    ∃ read issue r, CodeLogin env d e row read issue r := by
  have hguard := h.guard (serve_starts env) split
  rw [hins.1, hreq] at hguard
  obtain ⟨user_id, orow, u, hphone, hread, verified, parsed, hv⟩ := hguard.presented
  have huser := inserted_user hins hv
  obtain ⟨read, issue, r, _, hcode⟩ := code_verified h split hread parsed verified
  refine ⟨read, issue, r, phone_number, otp_code, fp, hreq, huser ▸ hcode, ?_⟩
  obtain ⟨w, hw, hid, hsame⟩ := selected_user h split hphone parsed
  exact ⟨w, hw, hid.trans huser.symm, hsame⟩

/-- The session that a rotation exchanged was inserted before. -/
theorem rotation_origin (h : AuthRun env S (start clock) ls d)
    (split : d.world.log = before ++ e :: after) (hins : Inserts e v row)
    {refresh_token fingerprint : String} (hreq : e.req = .token_refresh refresh_token fingerprint) :
    ∃ i ∈ before, ∃ v' parent, Inserts i v' parent ∧ ∃ read ∈ d.world.log, read.tid = e.tid ∧
      ∃ r ∈ read.pre.sessions, parent.Becomes r ∧ r.Selected env (env.sha256_hex refresh_token) ∧
        r.Live read.pre.now ∧ row.user_id = parent.user_id := by
  have hguard := h.guard (serve_guarded env) split
  rw [hins.1] at hguard
  obtain ⟨srow, exchanged⟩ := hguard.rotation _ _ hreq
  obtain ⟨read, hread, own, hdid, _⟩ := event_of_history after e exchanged.read
  obtain ⟨first, mid, rfl⟩ := List.append_of_mem hread
  have split' : d.world.log = first ++ read :: (mid ++ e :: after) := by simp [split]
  have hmem : read ∈ d.world.log := by simp [split]
  obtain ⟨r, hr, hselected, hexpires, rfl⟩ := looked_up h hmem hdid
  obtain ⟨i, hi, v', parent, hparent, hb⟩ := event_session_inserted h split' hr
  obtain ⟨u, parsed, huser⟩ := exchanged.user
  rw [Session.read, Uuid.parse_str_to_string, Option.some.injEq] at parsed
  refine ⟨i, List.mem_append_left _ hi, v', parent, hparent, read, hmem, own, r, hr, hb, hselected,
    ⟨exchanged.live, hexpires⟩, ?_⟩
  rw [inserted_user hins huser, ← parsed, hb.user_id_eq]

/-- The session of an access token was inserted before the token is presented. -/
theorem token_origin (h : HonestRun env (start clock) ls d)
    (split : d.world.log = before ++ e :: after) {claims : KovaClaims}
    (extracted : Extracted env e.req (history e.tid before) claims) :
    ∃ i ∈ before, ∃ v parent, Inserts i v parent ∧ PresentsToken env e claims parent := by
  obtain ⟨auth, now, hauth, hnow, hclaims⟩ := extracted
  obtain ⟨nanos, rfl, hle⟩ := clock_read h.run split hnow
  have presented := hclaims
  obtain ⟨text, rfl⟩ : ∃ text, auth = .bearer text := by
    cases auth with
    | bearer text => exact ⟨text, rfl⟩
    | _ => cases hclaims
  simp only [AuthClaims.from_request_parts] at hclaims
  split at hclaims
  · next claims' hdecode =>
    obtain rfl := Except.ok.inj hclaims
    obtain ⟨token, rfl, _, hkey, hread, _⟩ := Jwt.decode_ok hdecode
    obtain ⟨i, hi, v, parent, issued, hins, rfl, hsub, hjti⟩ :=
      (all_backed h).events before e after split token hauth hkey
    obtain rfl : issued = claims' := Option.some.inj hread
    obtain ⟨_, _, _, _, _, hbound, hstored⟩ :=
      inserted_jti h.run (split ▸ List.mem_append_left _ hi) hins
    exact ⟨i, hi, v, parent, hins, ⟨_, nanos, hauth, hle, presented⟩,
      by rw [hstored, ← hbound, hjti], hsub⟩
  · cases hclaims

/-- The session of the token that a biometric login presented was inserted before. -/
theorem biometric_origin (h : HonestRun env (start clock) ls d)
    (split : d.world.log = before ++ e :: after) (hins : Inserts e v row)
    {auth : Jwt.AuthHeader} {challenge signature fingerprint : String}
    (hreq : e.req = .biometric_verify auth challenge signature fingerprint) :
    ∃ i ∈ before, ∃ v' parent, Inserts i v' parent ∧ ∃ claims j k issue take,
      PresentsToken env e claims parent ∧ Consumption d claims.sub challenge j k issue take ∧
        take.tid = e.tid ∧ row.user_id = parent.user_id := by
  have hguard := h.run.guard (serve_starts env) split
  rw [hins.1, hreq] at hguard
  obtain ⟨claims, u, extracted, hmem, parsed, hv⟩ := hguard.presented
  obtain ⟨i, hi, v', parent, hparent, token⟩ := token_origin h split (hreq ▸ extracted)
  rw [token.subject, Uuid.parse_str_to_string, Option.some.injEq] at parsed
  -- The challenge that the call took away.
  obtain ⟨take, htake, own, hdid, _⟩ := event_of_history after e hmem
  obtain ⟨k, hk⟩ := List.mem_iff_getElem?.mp htake
  have hlt := (List.getElem?_eq_some_iff.mp hk).1
  obtain ⟨j, issue, consumed⟩ := taken_challenge h.run
    (split ▸ (List.getElem?_append_left hlt).trans hk) hdid
  exact ⟨i, hi, v', parent, hparent, claims, j, k, issue, take, token, consumed, own,
    by rw [inserted_user hins hv, parsed]⟩

/-- **Every session is rooted**: by induction on what comes before it. -/
theorem inserted_rooted (h : HonestRun env (start clock) ls d)
    (split : d.world.log = before ++ e :: after) (hins : Inserts e v row) : Rooted env d e row := by
  induction hn : before.length using Nat.strong_induction_on generalizing before e after v row with
  | _ n ih =>
    have earlier : ∀ i ∈ before, ∀ v' parent, Inserts i v' parent → Rooted env d i parent := by
      intro i hi v' parent hparent
      obtain ⟨first, mid, rfl⟩ := List.append_of_mem hi
      have split' : d.world.log = first ++ i :: (mid ++ e :: after) := by simp [split]
      refine ih first.length ?_ split' hparent rfl
      simp only [List.length_append, List.length_cons] at hn
      omega
    have hguard := h.run.guard (serve_starts env) split
    rw [hins.1] at hguard
    cases hreq : e.req with
    | otp_verify phone_number otp_code fp =>
      obtain ⟨read, issue, r, login⟩ := code_login h.run split hins hreq
      exact .code hins login
    | token_refresh refresh_token fp =>
      obtain ⟨i, hi, v', parent, hparent, read, hread, own, r, hr, hb, hselected, live, huser⟩ :=
        rotation_origin h.run split hins hreq
      exact .rotation (earlier i hi v' parent hparent) hins hreq hread own hr hb hselected live
        huser
    | biometric_verify auth challenge signature fp =>
      obtain ⟨i, hi, v', parent, hparent, claims, j, k, issue, take, token, consumed, own, huser⟩ :=
        biometric_origin h split hins hreq
      exact .biometric (earlier i hi v' parent hparent) hins hreq token consumed own huser
    | _ =>
      rw [hreq] at hguard
      exact hguard.elim

end Run

/-- The requests have no access token, or the one that the login returned. -/
def presents_own (c : AuthConf) : AuthLabel → Bool
  | .spawn req => req.auth = none ||
      (req.auth = some sample_bearer && decide (c.result? 2 = some (.ok (.tokens sample_pair))))
  | _ => true

theorem presents_own_sound (c : AuthConf) (l : AuthLabel) (e : AuthConf)
    (h : presents_own c l = true) : Honest env c l e := by
  rintro req token rfl hauth _
  simp only [presents_own, hauth, reduceCtorEq, decide_false, Bool.false_or, Bool.and_eq_true,
    decide_eq_true_eq] at h
  obtain ⟨bearer, returned⟩ := h
  obtain ⟨req', returned⟩ := returned_of_result returned
  cases bearer
  exact ⟨sample_pair, ⟨2, req', returned⟩, rfl⟩

end Kova.Auth

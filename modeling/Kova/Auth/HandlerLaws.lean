import Kova.Auth.Calls
import Kova.Redis.DbLaws

/-!
# What the handlers do

What the runs of the service are proved from, read off the steps of its calls.

- `guard`: before a session is inserted its call drew the refresh token, inserted nothing else
  and, if it rotates, read a live row, verified the presented token against it and revoked it;
  a rotation looks its own token up and revokes the row it read; a code that is used was read
  by the same call.
- `Answers`: what a result says about its call's history.
- `serve_guarded`: both, for every request.
-/

set_option autoImplicit false

namespace Kova.Auth

open Conc

/-- The subject of a bearer token. -/
def subject : Jwt.AuthHeader → Option String
  | .bearer (.jws token) => token.payload.sub
  | _ => none

/-- The UUID in the subject of a bearer token. -/
def caller : Jwt.AuthHeader → Option Uuid
  | .bearer (.jws token) => token.payload.sub.bind Uuid.UUID_TO_BIN
  | _ => none

/-- No session was inserted. -/
def NoInsert (h : List AuthDone) : Prop := ∀ x ∈ h, ∀ v, x.op ≠ .sql (.insert_session v)

theorem NoInsert.nil : NoInsert [] := by
  intro x hx
  cases hx

theorem NoInsert.snoc {h : List AuthDone} (hn : NoInsert h) {x : AuthDone}
    (hx : ∀ v, x.op ≠ .sql (.insert_session v)) : NoInsert (h ++ [x]) :=
  List.forall_mem_append.mpr ⟨hn, List.forall_mem_singleton.mpr hx⟩

section Facts

variable (env : Env)

/-- A rotation that read `row`, found it live and belonging to the token, and revoked it. -/
structure Exchanged (refresh_token : String) (row : SessionRow) (user_id : String)
    (h : List AuthDone) : Prop where
  read : did (.select_session (env.sha256_hex refresh_token)) (some (some row)) ∈ h
  live : row.revoked_at = none
  verified : env.bcrypt_verify refresh_token row.refresh_token_hash = .ok true
  revoked : did (.revoke_session row.session_id) (some ()) ∈ h
  user : ∃ u : Uuid, Uuid.parse_str row.user_id_str = some u ∧ user_id = u.to_string

/-- What comes before the INSERT of a session. -/
structure Inserting (req : Request) (h : List AuthDone) (v : SessionInsert) : Prop where
  first : NoInsert h
  token : ∃ raw, (⟨.random_hex, some raw⟩ : AuthDone) ∈ h ∧ v.token_selector = env.sha256_hex raw
  rotation : ∀ refresh_token device_fingerprint,
    req = .token_refresh refresh_token device_fingerprint →
      ∃ row, Exchanged env refresh_token row v.user_id h

/-- What comes before an operation. -/
def guard (req : Request) (h : List AuthDone) : Op → Prop
  | .sql (.insert_session v) => Inserting env req h v
  | .sql (.select_session selector) =>
    ∃ refresh_token device_fingerprint,
      req = .token_refresh refresh_token device_fingerprint ∧
        selector = env.sha256_hex refresh_token
  | .sql (.revoke_session id) => ∀ refresh_token device_fingerprint,
      req = .token_refresh refresh_token device_fingerprint →
        ∃ row, did (.select_session (env.sha256_hex refresh_token)) (some (some row)) ∈ h ∧
          id = row.session_id
  | .sql (.use_otp id) => ∃ user_id row, did (.select_otp user_id) (some (some row)) ∈ h ∧
      id = row.otp_id
  | _ => True

/-- A token pair comes from an INSERT: of a session with the pair's refresh token and the
identifier of its access token. -/
structure Issued (h : List AuthDone) (pair : TokenPair) (v : SessionInsert)
    (claims : KovaClaims) : Prop where
  inserted : did (.insert_session v) (some ()) ∈ h
  selector : v.token_selector = env.sha256_hex pair.refresh_token
  access_token : pair.access_token = ⟨⟨.RS256, none⟩, claims.payload, env.key⟩
  iss : claims.iss = "kova-auth"
  sub : claims.sub = v.user_id
  jti : claims.jti = v.access_token_jti
  uuids : (∃ u : Uuid, claims.sub = u.to_string) ∧ ∃ u : Uuid, claims.jti = u.to_string

/-- A code was used. -/
def Used (h : List AuthDone) : Prop := ∃ id, did (.use_otp id) (some ()) ∈ h

/-- What a rotation's result says: it looked its token up; for a revoked row that belongs to the
token it revoked the user's sessions and did nothing else; and if it succeeded it exchanged the
token. -/
structure RefreshAnswer (refresh_token : String) (h : List AuthDone)
    (r : Except Failure Response) : Prop where
  looked_up : ∃ x rest, h = did (.select_session (env.sha256_hex refresh_token)) x :: rest ∧
    ∀ row, x = some (some row) → row.revoked_at.isSome →
      env.bcrypt_verify refresh_token row.refresh_token_hash = .ok true →
        ∃ y, rest = [did (.revoke_user_sessions row.user_id_str) y] ∧
          (y = some () → r = .error (.error .RefreshTokenReuse))
  exchanged : ∀ resp, r = .ok resp → ∃ pair v claims row, resp = .tokens pair ∧
    Issued env h pair v claims ∧ Exchanged env refresh_token row v.user_id h

/-- What a result says about the history of its call. -/
def Answers : Request → List AuthDone → Except Failure Response → Prop
  | .token_refresh refresh_token _, h, r => RefreshAnswer env refresh_token h r
  | _, _, .error _ => True
  | .otp_verify .., h, .ok (.tokens pair) => (∃ v claims, Issued env h pair v claims) ∧ Used h
  | .otp_verify .., _, .ok _ => False
  | .biometric_verify .., h, .ok (.tokens pair) => ∃ v claims, Issued env h pair v claims
  | _, _, .ok (.tokens _) => False
  | .sessions_revoke_all auth, h, .ok _ =>
    ∃ sub, did (.revoke_user_sessions sub) (some ()) ∈ h ∧ Uuid.UUID_TO_BIN sub = caller auth
  | .pin_set .., h, .ok _ => Used h
  | .pin_change .., h, .ok _ => Used h
  | _, _, .ok _ => True

end Facts

/-! ## Issuing -/

section Issuing

variable {env : Env} {req : Request} {u : Uuid} {fingerprint : String} {h₀ h : List AuthDone}
  {op : Op}

theorem Exchanged.mono {refresh_token user_id : String} {row : SessionRow}
    {h h' : List AuthDone} (hx : Exchanged env refresh_token row user_id h) (sub : h ⊆ h') :
    Exchanged env refresh_token row user_id h' :=
  ⟨sub hx.read, hx.live, hx.verified, sub hx.revoked, hx.user⟩

theorem IssuingStep.guard (step : IssuingStep env u fingerprint h₀ h op) (first : NoInsert h₀)
    (rotation : ∀ refresh_token device_fingerprint,
      req = .token_refresh refresh_token device_fingerprint →
        ∃ row, Exchanged env refresh_token row u.to_string h₀) : guard env req h op := by
  cases step with
  | inward inward => cases inward <;> trivial
  | @insert x =>
    refine ⟨?_, ⟨x.refresh_raw, by simp [Issue.done], rfl⟩, ?_⟩
    · unfold Issue.done
      iterate 7 refine NoInsert.snoc ?_ (by simp)
      exact first
    · intro refresh_token device_fingerprint hreq
      obtain ⟨row, exchanged⟩ := rotation refresh_token device_fingerprint hreq
      exact ⟨row, exchanged.mono x.grown.subset⟩

theorem IssuingEnd.issued_pair {pair : TokenPair}
    (ends : IssuingEnd env u fingerprint h₀ h (.ok pair)) :
    ∃ v claims, Issued env h pair v claims ∧ v.user_id = u.to_string := by
  cases ends with
  | @issued x =>
    exact ⟨_, x.claims u fingerprint, ⟨List.mem_append_right _ List.mem_cons_self, rfl, rfl, rfl,
      rfl, rfl, ⟨u, rfl⟩, x.jti, rfl⟩, rfl⟩

/-- The operations of the issuing: one statement, the INSERT. -/
def Op.issuing : Op → Bool
  | .sql (.insert_session _) => true
  | .sql _ | .redis _ | .send_sms .. => false
  | _ => true

/-- The issuing of a pair executes no other statement, and succeeds if nothing fails. -/
theorem issue_token_pair_faultless (env : Env) (user_id : Uuid) (device_fingerprint : String)
    (h : List AuthDone) :
    Guarded (fun _ op => op.issuing = true)
      (fun h' r => Faultless env h' → ∃ pair, r = .ok pair)
      (issue_token_pair env user_id device_fingerprint) h := by
  refine (issue_token_pair_steps env user_id device_fingerprint h).mono ?_ ?_
  · intro h' op step
    cases step with
    | inward inward => cases inward <;> rfl
    | insert => rfl
  · intro h' r ends faultless
    cases ends with
    | failed _ faulty => exact absurd faultless faulty
    | issued => exact ⟨_, rfl⟩

end Issuing

/-! ## The rotation -/

section Equations

variable {env : Env} {refresh_token device_fingerprint : String}

/-- The rotation looks the token up first. -/
theorem rotate_await :
    rotate_refresh_token env refresh_token device_fingerprint =
      .await (.sql (.select_session (env.sha256_hex refresh_token))) fun
        | some (some row) => rotate_row env refresh_token device_fingerprint row
        | some none => fail .SessionNotFound
        | none => fail .Database := by
  refine congrArg (Prog.await _) (funext ?_)
  rintro (_ | _ | row) <;> rfl

/-- The rotation of a live row of the token. -/
theorem rotate_row_live {row : SessionRow} {u : Uuid} (live : row.revoked_at = none)
    (verified : env.bcrypt_verify refresh_token row.refresh_token_hash = .ok true)
    (user : Uuid.parse_str row.user_id_str = some u) :
    rotate_row env refresh_token device_fingerprint row =
      .await (.sql (.revoke_session row.session_id)) fun
        | some _ => issue_token_pair env u device_fingerprint
        | none => fail .Database := by
  unfold rotate_row
  rw [verified, live, user]
  refine congrArg (Prog.await _) (funext ?_)
  rintro (_ | _) <;> rfl

/-- The rotation of a revoked row of the token. -/
theorem rotate_row_revoked {row : SessionRow} (revoked : row.revoked_at.isSome)
    (verified : env.bcrypt_verify refresh_token row.refresh_token_hash = .ok true) :
    rotate_row env refresh_token device_fingerprint row =
      .await (.sql (.revoke_user_sessions row.user_id_str)) fun
        | some _ => fail .RefreshTokenReuse
        | none => fail .Database := by
  unfold rotate_row
  rw [verified]
  simp only [crypto, Prog.ret_bind, Bool.not_true, Bool.false_eq_true, ↓reduceIte, revoked, sql]
  refine congrArg (Prog.await _) (funext ?_)
  rintro (_ | _) <;> rfl

end Equations

section Rotation

variable {env : Env} {refresh_token fingerprint : String} {h : List AuthDone}

theorem Live.exchanged {row : SessionRow} {u : Uuid} (live : Live env refresh_token row)
    (parsed : Uuid.parse_str row.user_id_str = some u) :
    Exchanged env refresh_token row u.to_string
      (rotation_read env refresh_token row ++ [did (.revoke_session row.session_id) (some ())]) :=
  ⟨List.mem_cons_self, live.live, live.verified, List.mem_cons_of_mem _ List.mem_cons_self, u,
    parsed, rfl⟩

theorem RotationStep.guard {op : Op} (step : RotationStep env refresh_token fingerprint h op) :
    guard env (.token_refresh refresh_token fingerprint) h op := by
  cases step with
  | read => exact ⟨refresh_token, fingerprint, rfl, rfl⟩
  | detect => trivial
  | @revoke row =>
    rintro _ _ ⟨⟩
    exact ⟨row, List.mem_cons_self, rfl⟩
  | @issue row _ _ _ live parsed step =>
    refine step.guard ?_ ?_
    · exact (NoInsert.nil.snoc (by simp [did])).snoc (by simp [did])
    · rintro _ _ ⟨⟩
      exact ⟨row, live.exchanged parsed⟩

/-- A row that is live is not revoked. -/
theorem Live.unrevoked {row row' : SessionRow} (live : Live env refresh_token row)
    (heq : some (some row) = some (some row')) : ¬ row'.revoked_at.isSome := by
  cases heq
  simp [live.live]

theorem RotationEnd.answer {r : Except Failure TokenPair}
    (ends : RotationEnd env refresh_token fingerprint h r) :
    RefreshAnswer env refresh_token h (r.map .tokens) := by
  cases ends with
  | refused unverified =>
    refine ⟨⟨_, [], rfl, fun row hrow _ verified => absurd verified (unverified row hrow)⟩, ?_⟩
    rintro resp ⟨⟩
  | @detected row reply _ reuse =>
    refine ⟨⟨_, [did (.revoke_user_sessions row.user_id_str) reply], rfl, ?_⟩, ?_⟩
    · rintro _ ⟨⟩ _ _
      exact ⟨reply, rfl, fun hreply => congrArg Except.error (reuse hreply)⟩
    · rintro resp ⟨⟩
  | unissued live =>
    refine ⟨⟨_, _, rfl, fun row hrow revoked _ => absurd revoked (live.unrevoked hrow)⟩, ?_⟩
    rintro resp ⟨⟩
  | @issue row _ _ r live parsed ends =>
    have grown := ends.grown
    refine ⟨?_, ?_⟩
    · obtain ⟨rest, rfl⟩ := grown
      exact ⟨_, _, rfl, fun row hrow revoked _ => absurd revoked (live.unrevoked hrow)⟩
    · intro resp hresp
      cases r with
      | error e => cases hresp
      | ok pair =>
        cases hresp
        obtain ⟨v, claims, issued, huser⟩ := ends.issued_pair
        exact ⟨pair, v, claims, row, rfl, issued, huser ▸ (live.exchanged parsed).mono grown.subset⟩

end Rotation

/-! ## The other handlers -/

section Handlers

variable {env : Env} {req : Request} {h : List AuthDone} {op : Op}

theorem CheckStep.guard {user_id otp_code : String} {h₀ : List AuthDone}
    (step : CheckStep env user_id otp_code h₀ h op) : guard env req h op := by
  cases step with
  | read => trivial
  | @use row => exact ⟨user_id, row, List.mem_append_right _ List.mem_cons_self, rfl⟩

theorem LoginStep.guard {phone_number otp_code fingerprint : String}
    (step : LoginStep env phone_number otp_code fingerprint h op) :
    guard env (.otp_verify phone_number otp_code fingerprint) h op := by
  cases step with
  | user => trivial
  | check step => exact step.guard
  | issue _ _ step =>
    refine step.guard ?_ (by rintro _ _ ⟨⟩)
    unfold check_done
    iterate 2 refine NoInsert.snoc ?_ (by simp [did])
    exact NoInsert.nil.snoc (by simp [did])

theorem LoginEnd.answers {phone_number otp_code fingerprint : String} {r : Except Failure Response}
    (ends : LoginEnd env phone_number otp_code fingerprint h r) :
    Answers env (.otp_verify phone_number otp_code fingerprint) h r := by
  cases ends with
  | unknown | unchecked | unissued => trivial
  | @issue _ row _ _ r ends =>
    cases r with
    | error e => trivial
    | ok pair =>
      obtain ⟨v, claims, issued, _⟩ := ends.issued_pair
      exact ⟨⟨v, claims, issued⟩, row.otp_id,
        ends.grown.subset (List.mem_append_right _ List.mem_cons_self)⟩

theorem BiometricStep.guard {auth : Jwt.AuthHeader} {claims : KovaClaims} {now : DateTime}
    {challenge_token signature fingerprint : String}
    (step : BiometricStep env claims now challenge_token fingerprint h op) :
    guard env (.biometric_verify auth challenge_token signature fingerprint) h op := by
  cases step with
  | take => trivial
  | issue _ step =>
    refine step.guard ?_ (by rintro _ _ ⟨⟩)
    exact (NoInsert.nil.snoc (by simp)).snoc (by simp)

theorem PinStep.guard {claims : KovaClaims} {now : DateTime} {new_pin otp_code : String}
    (step : PinStep env req claims now new_pin otp_code h op) : guard env req h op := by
  cases step with
  | check _ step => exact step.guard
  | read | salt | store => trivial

/-- The claims carry the subject of the token. -/
theorem subject_of_claims {key : Jwt.Key} {now : Nat} {auth : Jwt.AuthHeader} {claims : KovaClaims}
    (h : AuthClaims.from_request_parts key now auth = .ok claims) :
    subject auth = some claims.sub := by
  cases auth with
  | bearer text =>
    simp only [AuthClaims.from_request_parts] at h
    split at h
    · next claims' hdecode =>
      cases h
      obtain ⟨token, rfl, _, _, hread, _⟩ := Jwt.decode_ok hdecode
      obtain ⟨sub, hsub, hread⟩ := Option.bind_eq_some_iff.mp hread
      have hclaims : claims.sub = sub := by
        simp only [Option.bind_eq_bind, Option.bind_eq_some_iff, Option.some.injEq] at hread
        obtain ⟨_, _, _, _, _, _, _, _, rfl⟩ := hread
        rfl
      rw [subject, hsub, hclaims]
    · cases h
  | _ => cases h

theorem caller_eq_subject (auth : Jwt.AuthHeader) :
    caller auth = (subject auth).bind Uuid.UUID_TO_BIN := by
  cases auth with
  | bearer text => cases text <;> rfl
  | _ => rfl

/-- The subject of the claims is the caller. -/
theorem caller_of_claims {key : Jwt.Key} {now : Nat} {auth : Jwt.AuthHeader} {claims : KovaClaims}
    (h : AuthClaims.from_request_parts key now auth = .ok claims) :
    Uuid.UUID_TO_BIN claims.sub = caller auth := by
  rw [caller_eq_subject, subject_of_claims h, Option.bind_some]

/-- A PIN handler that succeeded has used a code. -/
theorem PinEnd.answers {claims : KovaClaims} {now : DateTime} {new_pin otp_code : String}
    {r : Except Failure Response} (sets : req.new_pin = some new_pin)
    (ends : PinEnd env claims now otp_code h r) : Answers env req h r := by
  have used : ∀ {h₀ : List AuthDone} (row : OtpRow) {salt update},
      Used (check_done claims.sub h₀ row (some ()) ++ [salt] ++ [update]) :=
    fun row _ _ => ⟨row.otp_id,
      List.mem_append_left _ (List.mem_append_left _ mem_check_done.2)⟩
  cases req with
  | pin_set | pin_change =>
    cases ends with
    | @stored _ _ _ _ row => exact used row
    | _ => trivial
  | _ => cases sets

/-- **Every handler** executes guarded operations, and its result answers its history. -/
theorem serve_guarded (env : Env) (req : Request) :
    Guarded (guard env req) (Answers env req) (serve env req) [] := by
  refine (serve_steps env req).mono ?_ ?_
  · intro h op step
    cases step with
    | register step | code step =>
      cases step with
      | inward inward => cases inward <;> trivial
      | _ => trivial
    | login step => exact step.guard
    | refresh step => exact step.guard
    | biometric _ step => exact step.guard
    | delete => rintro _ _ ⟨⟩
    | pin _ _ _ _ step => exact step.guard
    | _ => trivial
  · intro h r ends
    cases ends with
    | rejected header =>
      cases req with
      | token_refresh => cases header
      | _ => trivial
    | register ends | code ends => cases ends <;> trivial
    | login ends => exact ends.answers
    | refresh ends => exact ends.answer
    | biometric _ ends =>
      cases ends with
      | refused => trivial
      | @issue _ _ r ends =>
        cases r with
        | error e => trivial
        | ok pair =>
          obtain ⟨v, claims, issued, _⟩ := ends.issued_pair
          exact ⟨v, claims, issued⟩
    | @revoke_all _ _ claims _ _ _ accepted =>
      exact ⟨claims.sub, by simp, caller_of_claims accepted⟩
    | pin sets _ ends => exact ends.answers sets
    | _ => trivial

end Handlers

end Kova.Auth

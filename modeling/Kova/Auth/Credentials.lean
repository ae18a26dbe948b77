import Kova.Auth.HandlerLaws

/-!
# On whose behalf a handler writes

What a request presents (an access token, a refresh token, a one-time code), and which user its
call has thereby named (`Names`): every statement that writes a session or a PIN has in its WHERE
clause, or in its values, a user the call has named, or a row that the call has read as that user's
(`serve_entitled`).
-/

set_option autoImplicit false

namespace Kova.Auth

open Conc

/-! ## The key of a revocation -/

theorem rl_key_ne (phone_number jti : String) : rl_key phone_number ≠ revoked_key jti :=
  Redis.key_ne 6 (by decide) (by decide) (by decide) phone_number jti

theorem challenge_key_ne (user_id jti : String) : challenge_key user_id ≠ revoked_key jti :=
  Redis.key_ne 6 (by decide) (by decide) (by decide) user_id jti

/-! ## What a request presents -/

section Facts

variable (env : Env) (req : Request) (h : List AuthDone)

/-- The extractor accepted the request's access token. -/
def Extracted (claims : KovaClaims) : Prop :=
  ∃ auth now, req.auth = some auth ∧ (⟨.utc_now, now⟩ : AuthDone) ∈ h ∧
    AuthClaims.from_request_parts env.key (DateTime.timestamp now).toNat auth = .ok claims

/-- The request's refresh token was looked up and verified against the row. -/
def Verified (row : SessionRow) : Prop :=
  ∃ refresh_token, req.refresh_token = some refresh_token ∧
    did (.select_session (env.sha256_hex refresh_token)) (some (some row)) ∈ h ∧
      env.bcrypt_verify refresh_token row.refresh_token_hash = .ok true

/-- The request's code was verified against a code of the user. -/
def Confirmed (user_id : String) : Prop :=
  ∃ otp_code row, req.otp_code = some otp_code ∧
    did (.select_otp user_id) (some (some row)) ∈ h ∧
      env.bcrypt_verify otp_code row.code_hash = .ok true

/-- **The user a call acts for**, as the text the handler holds. -/
inductive Names : String → Prop
  | access {claims : KovaClaims} : Extracted env req h claims → Names claims.sub
  | refresh {row : SessionRow} : Verified env req h row → Names row.user_id_str
  | code {user_id : String} : Confirmed env req h user_id → Names user_id

/-- What a call has named before it writes. A phone number is stored in its canonical form and looked
up as it was sent; the identifier of a new access token is a new UUID; and the key of a revocation
is only ever set. -/
def entitled : Op → Prop
  | .sql (.insert_user _ phone) =>
    ∃ phone_number fp, req = .register phone_number fp ∧ env.e164 phone_number = some phone
  | .sql (.select_user_by_phone phone_number) =>
    (∃ fp, req = .otp_request phone_number fp) ∨ ∃ code fp, req = .otp_verify phone_number code fp
  | .sql (.insert_session v) =>
    (∃ text u, Names env req h text ∧ Uuid.parse_str text = some u ∧ v.user_id = u.to_string) ∧
      ∃ jti : Uuid, (⟨.now_v7, jti⟩ : AuthDone) ∈ h ∧ v.access_token_jti = jti.to_string
  | .sql (.revoke_session id) =>
    (∃ row, Verified env req h row ∧ id = row.session_id) ∨
      ∃ auth claims jti, req = .session_delete auth id ∧ Extracted env req h claims ∧
        did (.select_own_session id claims.sub) (some (some jti)) ∈ h
  | .sql (.revoke_user_sessions text) =>
    (∃ row, Verified env req h row ∧ text = row.user_id_str) ∨
      ∃ auth claims, req = .sessions_revoke_all auth ∧ Extracted env req h claims ∧
        text = claims.sub
  | .sql (.revoke_by_jti jti text) =>
    ∃ auth claims, req = .logout auth ∧ Extracted env req h claims ∧ jti = claims.jti ∧
      text = claims.sub
  | .sql (.update_pin_hash _ text) => Names env req h text
  | .redis cmd => ∀ jti, cmd.key = revoked_key jti → cmd = revoking jti
  | _ => True

end Facts

section Steps

variable {env : Env} {req : Request} {h h' h₀ : List AuthDone} {op : Op}

theorem Extracted.mono {claims : KovaClaims} (hx : Extracted env req h claims) (sub : h ⊆ h') :
    Extracted env req h' claims := by
  obtain ⟨auth, now, hreq, hnow, hclaims⟩ := hx
  exact ⟨auth, now, hreq, sub hnow, hclaims⟩

theorem Verified.mono {row : SessionRow} (hv : Verified env req h row) (sub : h ⊆ h') :
    Verified env req h' row := by
  obtain ⟨token, hreq, hread, hver⟩ := hv
  exact ⟨token, hreq, sub hread, hver⟩

theorem Confirmed.mono {user_id : String} (hc : Confirmed env req h user_id) (sub : h ⊆ h') :
    Confirmed env req h' user_id := by
  obtain ⟨code, row, hreq, hread, hver⟩ := hc
  exact ⟨code, row, hreq, sub hread, hver⟩

theorem Names.mono {text : String} (hn : Names env req h text) (sub : h ⊆ h') :
    Names env req h' text := by
  cases hn with
  | access hx => exact .access (hx.mono sub)
  | refresh hv => exact .refresh (hv.mono sub)
  | code hc => exact .code (hc.mono sub)

/-- The claims were extracted at the beginning of the call. -/
theorem Accepted.extracted {auth : Jwt.AuthHeader} {now : DateTime} {claims : KovaClaims}
    (accepted : Accepted env auth now claims) (header : req.auth = some auth)
    (first : (⟨.utc_now, now⟩ : AuthDone) ∈ h) : Extracted env req h claims :=
  ⟨auth, now, header, first, accepted⟩

/-- A command on another key. -/
theorem entitled_redis {cmd : Redis.Cmd} (hkey : ∀ jti, cmd.key ≠ revoked_key jti) :
    entitled env req h (.redis cmd) := fun jti heq => absurd heq (hkey jti)

theorem entitled_revoking (h : List AuthDone) (jti : String) :
    entitled env req h (.redis (revoking jti)) := by
  intro jti' hkey
  have hjti : revoking jti' = .set_ex (revoked_key jti') "1" REVOCATION_CACHE_SECS := rfl
  rw [hjti, ← hkey]
  rfl

/-- A pair is issued for a user the call has named. -/
theorem IssuingStep.entitled {text fingerprint : String} {u : Uuid}
    (step : IssuingStep env u fingerprint h₀ h op) (named : Names env req h₀ text)
    (parsed : Uuid.parse_str text = some u) : entitled env req h op := by
  cases step with
  | inward inward => cases inward <;> trivial
  | @insert x =>
    exact ⟨⟨text, u, named.mono x.grown.subset, parsed, rfl⟩, x.jti, by simp [Issue.done], rfl⟩

theorem LoginStep.entitled {phone_number otp_code fingerprint : String}
    (step : LoginStep env phone_number otp_code fingerprint h op) :
    entitled env (.otp_verify phone_number otp_code fingerprint) h op := by
  cases step with
  | user => exact .inr ⟨otp_code, fingerprint, rfl⟩
  | check step => cases step <;> trivial
  | @issue _ row _ _ _ verified parsed step =>
    exact step.entitled (.code ⟨otp_code, row, rfl, mem_check_done.1, verified⟩) parsed

theorem RotationStep.entitled {refresh_token fingerprint : String}
    (step : RotationStep env refresh_token fingerprint h op) :
    entitled env (.token_refresh refresh_token fingerprint) h op := by
  have presented : ∀ {row h'}, env.bcrypt_verify refresh_token row.refresh_token_hash = .ok true →
      rotation_read env refresh_token row ⊆ h' →
        Verified env (.token_refresh refresh_token fingerprint) h' row :=
    fun verified sub => ⟨refresh_token, rfl, sub List.mem_cons_self, verified⟩
  cases step with
  | read => trivial
  | @detect row verified => exact .inl ⟨row, presented verified (List.Subset.refl _), rfl⟩
  | @revoke row live => exact .inl ⟨row, presented live.verified (List.Subset.refl _), rfl⟩
  | issue live parsed step =>
    exact step.entitled (.refresh (presented live.verified (List.subset_append_left _ _))) parsed

theorem PinStep.entitled {claims : KovaClaims} {now : DateTime} {new_pin otp_code : String}
    (step : PinStep env req claims now new_pin otp_code h op)
    (extracted : ∀ {h}, (⟨.utc_now, now⟩ : AuthDone) ∈ h → Extracted env req h claims) :
    entitled env req h op := by
  cases step with
  | check _ step => cases step <;> trivial
  | read | salt => trivial
  | store => exact .access (extracted (by simp [check_done, pin_read]))

end Steps

/-- **Every handler** writes on behalf of a user its call has named. -/
theorem serve_entitled (env : Env) (req : Request) :
    Guarded (entitled env req) (fun _ _ => True) (serve env req) [] := by
  refine (serve_steps env req).mono ?_ fun _ _ _ => trivial
  intro h op step
  cases step with
  | @register phone_number fp _ _ step =>
    cases step with
    | inward inward => cases inward <;> trivial
    | insert canonical => exact ⟨phone_number, fp, rfl, canonical⟩
    | device => trivial
  | @code phone_number fp _ _ step =>
    cases step with
    | inward inward => cases inward <;> trivial
    | user => exact .inl ⟨fp, rfl⟩
    | count | increment | expire => exact entitled_redis (rl_key_ne phone_number)
    | store | send => trivial
  | login step => exact step.entitled
  | refresh step => exact step.entitled
  | challenge => exact entitled_redis (challenge_key_ne _)
  | biometric accepted step =>
    cases step with
    | take => exact entitled_redis (challenge_key_ne _)
    | issue parsed step =>
      exact step.entitled (.access (accepted.extracted rfl List.mem_cons_self)) parsed
  | @delete auth _ claims _ jti accepted =>
    exact .inr ⟨auth, claims, jti, rfl, accepted.extracted rfl List.mem_cons_self,
      List.mem_cons_of_mem _ List.mem_cons_self⟩
  | @revoke_all auth _ claims _ accepted =>
    exact .inr ⟨auth, claims, rfl, accepted.extracted rfl List.mem_cons_self, rfl⟩
  | @logout auth _ claims accepted =>
    exact ⟨auth, claims, rfl, accepted.extracted rfl List.mem_cons_self, rfl, rfl⟩
  | cache => exact entitled_revoking _ _
  | pin header _ _ accepted step => exact step.entitled (accepted.extracted header)
  | extract | draw | find | list => trivial

end Kova.Auth

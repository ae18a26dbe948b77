import Kova.Auth.Credentials

/-!
# What a handler may execute

Each handler's footprint: which statements that write are its own, and which Redis keys it uses
(`Request.May`). A table or a key that is one handler's alone is none of the other handlers' steps
(`Awaits.may`).
-/

set_option autoImplicit false

namespace Kova.Auth

open Conc

/-- The commands to Redis of a handler. -/
def Request.MayCommand : Request → Redis.Cmd → Prop
  | .otp_request phone_number _, cmd => cmd.key = rl_key phone_number
  | .biometric_challenge _, cmd | .biometric_verify .., cmd =>
    ∃ user_id, cmd.key = challenge_key user_id
  | .session_delete .., cmd | .sessions_revoke_all _, cmd | .logout _, cmd =>
    ∃ jti, cmd = revoking jti
  | _, _ => False

/-- **The footprint of a handler.** -/
def Request.May (req : Request) : Op → Prop
  | .redis cmd => req.MayCommand cmd
  | .send_sms .. | .sql (.insert_otp ..) => ∃ phone_number fp, req = .otp_request phone_number fp
  | .sql (.insert_user ..) | .sql (.upsert_device ..) =>
    ∃ phone_number fp, req = .register phone_number fp
  | .sql (.update_pin_hash ..) => req.sets_pin = true
  | _ => True

variable {env : Env} {req : Request} {h : List AuthDone} {op : Op}

theorem IssuingStep.may {u : Uuid} {fingerprint : String} {h₀ : List AuthDone}
    (step : IssuingStep env u fingerprint h₀ h op) : req.May op := by
  cases step with
  | inward inward => cases inward <;> trivial
  | insert => trivial

theorem CheckStep.may {user_id otp_code : String} {h₀ : List AuthDone}
    (step : CheckStep env user_id otp_code h₀ h op) : req.May op := by
  cases step <;> trivial

/-- **Every handler keeps to its footprint.** -/
theorem Awaits.may (step : Awaits env req h op) : req.May op := by
  cases step with
  | register step =>
    cases step with
    | inward inward => cases inward <;> trivial
    | insert | device => exact ⟨_, _, rfl⟩
  | code step =>
    cases step with
    | inward inward => cases inward <;> trivial
    | user => trivial
    | count | increment | expire => rfl
    | store | send => exact ⟨_, _, rfl⟩
  | login step =>
    cases step with
    | user => trivial
    | check step => exact step.may
    | issue _ _ step => exact step.may
  | refresh step =>
    cases step with
    | read | detect | revoke => trivial
    | issue _ _ step => exact step.may
  | challenge => exact ⟨_, rfl⟩
  | biometric _ step =>
    cases step with
    | take => exact ⟨_, rfl⟩
    | issue _ step => exact step.may
  | @cache _ _ jti revokes =>
    cases req with
    | session_delete | sessions_revoke_all | logout => exact ⟨jti, rfl⟩
    | _ => cases revokes
  | pin _ sets _ _ step =>
    cases step with
    | read | salt => trivial
    | check _ step => exact step.may
    | store =>
      cases req with
      | pin_set | pin_change => rfl
      | _ => cases sets
  | extract | draw | find | delete | list | revoke_all | logout => trivial

/-! ## The keys -/

theorem rl_key_injective {p q : String} (h : rl_key p = rl_key q) : p = q :=
  Redis.key_injective h

/-- A counter is a request's for a code, with its phone number. -/
theorem Request.MayCommand.counts {cmd : Redis.Cmd} {phone_number : String}
    (may : req.MayCommand cmd) (hkey : cmd.key = rl_key phone_number) :
    ∃ fp, req = .otp_request phone_number fp := by
  cases req with
  | otp_request phone_number' fp =>
    obtain rfl := rl_key_injective (may.symm.trans hkey)
    exact ⟨fp, rfl⟩
  | biometric_challenge | biometric_verify =>
    obtain ⟨user_id, hchallenge⟩ := may
    exact absurd (hchallenge.symm.trans hkey)
      (Redis.key_ne 6 (by decide) (by decide) (by decide) user_id phone_number)
  | session_delete | sessions_revoke_all | logout =>
    obtain ⟨jti, rfl⟩ := may
    exact absurd hkey.symm (rl_key_ne phone_number jti)
  | _ => exact may.elim

/-! ## One handler's steps -/

theorem Awaits.registration {phone_number fp : String}
    (step : Awaits env (.register phone_number fp) h op) :
    RegistrationStep env phone_number fp h op := by
  cases step with
  | register step => exact step
  | extract header => cases header
  | cache revokes => cases revokes
  | pin header => cases header

theorem Awaits.code_request {phone_number fp : String}
    (step : Awaits env (.otp_request phone_number fp) h op) : CodeStep env phone_number h op := by
  cases step with
  | code step => exact step
  | extract header => cases header
  | cache revokes => cases revokes
  | pin header => cases header

end Kova.Auth

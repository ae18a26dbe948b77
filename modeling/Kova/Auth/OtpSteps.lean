import Kova.Auth.Footprint
import Kova.Auth.SessionLaws

/-!
# The steps of a request for a code

`otp_request` reads the counter `kova:otp:rl:<phone_number>` first and increments it last, and only
the call whose increment answers 1 gives it an expiry. In between it stores a code and sends it, if
the count that it read is below the limit. No other handler does any of this, so the order holds for
every handler (`serve_counting`).
-/

set_option autoImplicit false

namespace Kova.Auth

open Conc

variable {env : Env} {S : AuthScope} {clock : Nat} {ls : List AuthLabel} {d : AuthConf}

/-! ## A request for a code -/

/-- The call read a count below the limit. -/
def Admitted (phone_number : String) (h : List AuthDone) : Prop :=
  ∃ reply, reading phone_number reply ∈ h ∧ counted_as reply < OTP_RATE_LIMIT

/-- What a command on the counter comes after. -/
def Counting (phone_number : String) (h : List AuthDone) : Redis.Cmd → Prop
  | .get _ => h = []
  | .incr _ delta => delta = 1 ∧ (∃ otp, sending phone_number otp ∈ h) ∧
      ∀ x ∈ h, ∀ key delta, x.op ≠ .redis (.incr key delta)
  | .expire _ seconds => seconds = OTP_RATE_WINDOW_SECS ∧
      incrementing phone_number (some (some 1)) ∈ h
  | _ => False

/-- What comes before the operations of a request for a code. -/
def counting (req : Request) (h : List AuthDone) : Op → Prop
  | .redis cmd => ∀ phone_number, cmd.key = rl_key phone_number →
      (∃ fp, req = .otp_request phone_number fp) ∧ Counting phone_number h cmd
  | .sql (.insert_otp _ user_id _ _) => ∃ phone_number,
      (∃ fp, req = .otp_request phone_number fp) ∧ Admitted phone_number h ∧
        did (.select_user_by_phone phone_number) (some (some user_id)) ∈ h ∧
          ∀ x ∈ h, ∀ id user_id code_hash expires_at,
            x.op ≠ .sql (.insert_otp id user_id code_hash expires_at)
  | .send_sms phone_number _ => (∃ fp, req = .otp_request phone_number fp) ∧
      Admitted phone_number h ∧ ∀ x ∈ h, ∀ phone_number otp, x.op ≠ .send_sms phone_number otp
  | _ => True

section Counted

variable {phone_number device_fingerprint : String}

/-- A command of the request on its own counter. -/
theorem counting_own {h : List AuthDone} {cmd : Redis.Cmd} (hkey : cmd.key = rl_key phone_number)
    (hc : Counting phone_number h cmd) :
    counting (.otp_request phone_number device_fingerprint) h (.redis cmd) := by
  intro phone_number' hkey'
  obtain rfl := rl_key_injective (hkey.symm.trans hkey')
  exact ⟨⟨device_fingerprint, rfl⟩, hc⟩

theorem Draft.Sound.admitted {x : Draft} (sound : x.Sound env) {h : List AuthDone}
    (done : x.done phone_number ⊆ h) : Admitted phone_number h :=
  ⟨x.reply, done List.mem_cons_self, sound.below⟩

theorem CodeStep.counting {h : List AuthDone} {op : Op} (step : CodeStep env phone_number h op) :
    counting (.otp_request phone_number device_fingerprint) h op := by
  cases step with
  | inward inward => cases inward <;> trivial
  | user => trivial
  | count => exact counting_own rfl rfl
  | @store x sound =>
    exact ⟨phone_number, ⟨device_fingerprint, rfl⟩, sound.admitted (List.Subset.refl _),
      List.mem_cons_of_mem _ List.mem_cons_self, by simp [Draft.done, reading, did]⟩
  | @send x sound =>
    exact ⟨⟨device_fingerprint, rfl⟩, sound.admitted (List.subset_append_left _ _),
      by simp [Draft.done, Draft.stored, reading, did]⟩
  | @increment x sound =>
    exact counting_own rfl ⟨rfl, ⟨x.otp, List.mem_append_right _ List.mem_cons_self⟩,
      by simp [Draft.done, Draft.stored, reading, sending, did]⟩
  | expire => exact counting_own rfl ⟨rfl, List.mem_append_right _ List.mem_cons_self⟩

/-- **Every handler**: only a request for a code touches the counter of its phone number, stores a
code and sends it, in this order. -/
theorem serve_counting (env : Env) (req : Request) :
    Guarded (counting req) (fun _ _ => True) (serve env req) [] := by
  refine (serve_steps env req).mono ?_ fun _ _ _ => trivial
  intro h op step
  by_cases hreq : ∃ phone_number fp, req = .otp_request phone_number fp
  · obtain ⟨phone_number, fp, rfl⟩ := hreq
    exact step.code_request.counting
  · have may := step.may
    cases op with
    | sql q =>
      cases q with
      | insert_otp => exact absurd may hreq
      | _ => trivial
    | send_sms => exact absurd may hreq
    | redis cmd => exact fun phone_number hkey => absurd ⟨phone_number, may.counts hkey⟩ hreq
    | _ => trivial

end Counted

end Kova.Auth

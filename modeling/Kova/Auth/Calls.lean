import Kova.Auth.Steps

/-!
# The steps of a call

The steps of all handlers as those of the service.

- `Awaits`: which operation a call awaits, and what it has done by then.
- `Ends`: the result of a call, and what it has done.
- `serve_steps`: both, for every request.

What the other modules say of the handlers is read off these by `Guarded.mono`, so that a handler
that changes is walked again in `Kova.Auth.Steps` and nowhere else.
-/

set_option autoImplicit false

namespace Kova.Auth

open Conc

/-- **What a call awaits**, and what it has done by then. -/
inductive Awaits (env : Env) : Request → List AuthDone → Op → Prop
  | extract {req : Request} {auth : Jwt.AuthHeader} (header : req.auth = some auth) :
      Awaits env req [] .utc_now
  | register {phone_number fp : String} {h : List AuthDone} {op : Op}
      (step : RegistrationStep env phone_number fp h op) :
      Awaits env (.register phone_number fp) h op
  | code {phone_number fp : String} {h : List AuthDone} {op : Op}
      (step : CodeStep env phone_number h op) : Awaits env (.otp_request phone_number fp) h op
  | login {phone_number otp_code fp : String} {h : List AuthDone} {op : Op}
      (step : LoginStep env phone_number otp_code fp h op) :
      Awaits env (.otp_verify phone_number otp_code fp) h op
  | refresh {refresh_token fp : String} {h : List AuthDone} {op : Op}
      (step : RotationStep env refresh_token fp h op) :
      Awaits env (.token_refresh refresh_token fp) h op
  | draw {auth : Jwt.AuthHeader} {now : DateTime} :
      Awaits env (.biometric_challenge auth) [⟨.utc_now, now⟩] .random_hex
  | challenge {auth : Jwt.AuthHeader} {now : DateTime} {claims : KovaClaims} {challenge : String}
      (accepted : Accepted env auth now claims) :
      Awaits env (.biometric_challenge auth) [⟨.utc_now, now⟩, ⟨.random_hex, some challenge⟩]
        (.redis (.set_ex (challenge_key claims.sub) challenge CHALLENGE_TTL_SECS))
  | biometric {auth : Jwt.AuthHeader} {now : DateTime} {claims : KovaClaims}
      {challenge_token signature fp : String} {h : List AuthDone} {op : Op}
      (accepted : Accepted env auth now claims)
      (step : BiometricStep env claims now challenge_token fp h op) :
      Awaits env (.biometric_verify auth challenge_token signature fp) h op
  | find {auth : Jwt.AuthHeader} {now : DateTime} {claims : KovaClaims} {session_id : String} :
      Awaits env (.session_delete auth session_id) [⟨.utc_now, now⟩]
        (.sql (.select_own_session session_id claims.sub))
  | delete {auth : Jwt.AuthHeader} {now : DateTime} {claims : KovaClaims} {session_id : String}
      {jti : Option String} (accepted : Accepted env auth now claims) :
      Awaits env (.session_delete auth session_id)
        [⟨.utc_now, now⟩, did (.select_own_session session_id claims.sub) (some (some jti))]
        (.sql (.revoke_session session_id))
  | list {auth : Jwt.AuthHeader} {now : DateTime} {claims : KovaClaims} :
      Awaits env (.sessions_revoke_all auth) [⟨.utc_now, now⟩] (.sql (.select_live_jtis claims.sub))
  | revoke_all {auth : Jwt.AuthHeader} {now : DateTime} {claims : KovaClaims}
      {rows : List (Option String)} (accepted : Accepted env auth now claims) :
      Awaits env (.sessions_revoke_all auth)
        [⟨.utc_now, now⟩, did (.select_live_jtis claims.sub) (some rows)]
        (.sql (.revoke_user_sessions claims.sub))
  | logout {auth : Jwt.AuthHeader} {now : DateTime} {claims : KovaClaims}
      (accepted : Accepted env auth now claims) :
      Awaits env (.logout auth) [⟨.utc_now, now⟩] (.sql (.revoke_by_jti claims.jti claims.sub))
  | cache {req : Request} {h : List AuthDone} {jti : String} (revokes : req.revokes = true) :
      Awaits env req h (.redis (revoking jti))
  | pin {req : Request} {auth : Jwt.AuthHeader} {now : DateTime} {claims : KovaClaims}
      {new_pin otp_code : String} {h : List AuthDone} {op : Op} (header : req.auth = some auth)
      (sets : req.new_pin = some new_pin) (code : req.otp_code = some otp_code)
      (accepted : Accepted env auth now claims)
      (step : PinStep env req claims now new_pin otp_code h op) : Awaits env req h op

/-- **How a call ends**, and what it has done. -/
inductive Ends (env : Env) : Request → List AuthDone → Except Failure Response → Prop
  | rejected {req : Request} {auth : Jwt.AuthHeader} {now : DateTime} {e : Failure}
      (header : req.auth = some auth) : Ends env req [⟨.utc_now, now⟩] (.error e)
  | register {phone_number fp : String} {h : List AuthDone} {r : Except Failure Response}
      (ends : RegistrationEnd h r) : Ends env (.register phone_number fp) h r
  | code {phone_number fp : String} {h : List AuthDone} {r : Except Failure Response}
      (ends : CodeEnd h r) : Ends env (.otp_request phone_number fp) h r
  | login {phone_number otp_code fp : String} {h : List AuthDone} {r : Except Failure Response}
      (ends : LoginEnd env phone_number otp_code fp h r) :
      Ends env (.otp_verify phone_number otp_code fp) h r
  | refresh {refresh_token fp : String} {h : List AuthDone} {r : Except Failure TokenPair}
      (ends : RotationEnd env refresh_token fp h r) :
      Ends env (.token_refresh refresh_token fp) h (r.map .tokens)
  | undrawn {auth : Jwt.AuthHeader} {now : DateTime} {e : Failure} :
      Ends env (.biometric_challenge auth) [⟨.utc_now, now⟩, ⟨.random_hex, none⟩] (.error e)
  | unanswered {auth : Jwt.AuthHeader} {now : DateTime} {user_id challenge : String} {e : Failure} :
      Ends env (.biometric_challenge auth)
        [⟨.utc_now, now⟩, ⟨.random_hex, some challenge⟩,
          ⟨.redis (.set_ex (challenge_key user_id) challenge CHALLENGE_TTL_SECS), none⟩]
        (.error e)
  | challenge {auth : Jwt.AuthHeader} {now : DateTime} {user_id challenge : String} :
      Ends env (.biometric_challenge auth)
        [⟨.utc_now, now⟩, ⟨.random_hex, some challenge⟩,
          ⟨.redis (.set_ex (challenge_key user_id) challenge CHALLENGE_TTL_SECS), some ()⟩]
        (.ok (.challenge challenge))
  | biometric {auth : Jwt.AuthHeader} {now : DateTime} {claims : KovaClaims}
      {challenge_token signature fp : String} {h : List AuthDone} {r : Except Failure Response}
      (accepted : Accepted env auth now claims)
      (ends : BiometricEnd env claims now challenge_token fp h r) :
      Ends env (.biometric_verify auth challenge_token signature fp) h r
  | unfound {auth : Jwt.AuthHeader} {now : DateTime} {claims : KovaClaims} {session_id : String}
      {found : Option (Option (Option String))} {e : Failure} :
      Ends env (.session_delete auth session_id)
        [⟨.utc_now, now⟩, did (.select_own_session session_id claims.sub) found] (.error e)
  | undeleted {auth : Jwt.AuthHeader} {now : DateTime} {claims : KovaClaims} {session_id : String}
      {jti : Option String} {e : Failure} :
      Ends env (.session_delete auth session_id)
        [⟨.utc_now, now⟩, did (.select_own_session session_id claims.sub) (some (some jti)),
          did (.revoke_session session_id) none] (.error e)
  | delete {auth : Jwt.AuthHeader} {now : DateTime} {claims : KovaClaims} {session_id text : String}
      {jti : Option String} {new : List AuthDone} (caching : Caching [jti] new) :
      Ends env (.session_delete auth session_id)
        ([⟨.utc_now, now⟩, did (.select_own_session session_id claims.sub) (some (some jti)),
          did (.revoke_session session_id) (some ())] ++ new) (.ok (.message text))
  | unlisted {auth : Jwt.AuthHeader} {now : DateTime} {claims : KovaClaims} {e : Failure} :
      Ends env (.sessions_revoke_all auth)
        [⟨.utc_now, now⟩, did (.select_live_jtis claims.sub) none] (.error e)
  | unrevoked {auth : Jwt.AuthHeader} {now : DateTime} {claims : KovaClaims}
      {rows : List (Option String)} {e : Failure} :
      Ends env (.sessions_revoke_all auth)
        [⟨.utc_now, now⟩, did (.select_live_jtis claims.sub) (some rows),
          did (.revoke_user_sessions claims.sub) none] (.error e)
  | revoke_all {auth : Jwt.AuthHeader} {now : DateTime} {claims : KovaClaims} {text : String}
      {rows : List (Option String)} {new : List AuthDone} (accepted : Accepted env auth now claims)
      (caching : Caching rows new) :
      Ends env (.sessions_revoke_all auth)
        ([⟨.utc_now, now⟩, did (.select_live_jtis claims.sub) (some rows),
          did (.revoke_user_sessions claims.sub) (some ())] ++ new) (.ok (.message text))
  | unlogged {auth : Jwt.AuthHeader} {now : DateTime} {claims : KovaClaims} {e : Failure} :
      Ends env (.logout auth)
        [⟨.utc_now, now⟩, did (.revoke_by_jti claims.jti claims.sub) none] (.error e)
  | logout {auth : Jwt.AuthHeader} {now : DateTime} {claims : KovaClaims} {text : String}
      {reply : Option Unit} (accepted : Accepted env auth now claims) :
      Ends env (.logout auth)
        [⟨.utc_now, now⟩, did (.revoke_by_jti claims.jti claims.sub) (some ()),
          ⟨.redis (revoking claims.jti), reply⟩] (.ok (.message text))
  | pin {req : Request} {now : DateTime} {claims : KovaClaims} {new_pin otp_code : String}
      {h : List AuthDone} {r : Except Failure Response}
      (sets : req.new_pin = some new_pin) (code : req.otp_code = some otp_code)
      (ends : PinEnd env claims now otp_code h r) : Ends env req h r

/-- **The steps of every request.** -/
theorem serve_steps (env : Env) (req : Request) :
    Guarded (Awaits env req) (Ends env req) (serve env req) [] := by
  cases req with
  | register phone_number fp =>
    exact (register_steps env phone_number fp).mono (fun _ _ step => .register step)
      fun _ _ ends => .register ends
  | otp_request phone_number fp =>
    exact (otp_request_steps env phone_number fp).mono (fun _ _ step => .code step)
      fun _ _ ends => .code ends
  | otp_verify phone_number otp_code fp =>
    exact (otp_verify_steps env phone_number otp_code fp).mono (fun _ _ step => .login step)
      fun _ _ ends => .login ends
  | token_refresh refresh_token fp =>
    refine Guarded.bind ?_ ?_ ((rotate_refresh_token_steps env refresh_token fp).mono
      (fun _ _ step => .refresh step) fun _ _ ends => ends)
    · intro h e ends
      exact .refresh ends
    · intro h pair ends
      exact .refresh ends
  | biometric_challenge auth =>
    apply guarded_auth_claims (.extract rfl) fun _ _ => .rejected rfl
    intro now claims accepted
    apply guarded_await .draw
    intro drawn
    cases drawn with
    | none => exact .undrawn
    | some challenge =>
      apply guarded_redis (.challenge accepted) .unanswered
      intro _
      exact .challenge
  | biometric_verify auth challenge_token signature fp =>
    apply guarded_auth_claims (.extract rfl) fun _ _ => .rejected rfl
    intro now claims accepted
    exact (biometric_verify_steps env claims now challenge_token signature fp).mono
      (fun _ _ step => .biometric accepted step) fun _ _ ends => .biometric accepted ends
  | session_delete auth session_id =>
    apply guarded_auth_claims (.extract rfl) fun _ _ => .rejected rfl
    intro now claims accepted
    apply guarded_sql .find .unfound
    intro row
    apply guarded_or_fail .unfound
    rintro jti rfl
    apply guarded_sql (.delete accepted) .undeleted
    intro _
    exact cached_steps (fun _ _ => .cache rfl) [jti] _ fun new caching => .delete caching
  | sessions_revoke_all auth =>
    apply guarded_auth_claims (.extract rfl) fun _ _ => .rejected rfl
    intro now claims accepted
    apply guarded_sql .list .unlisted
    intro rows
    apply guarded_sql (.revoke_all accepted) .unrevoked
    intro _
    exact cached_steps (fun _ _ => .cache rfl) rows _ fun new caching =>
      .revoke_all accepted caching
  | logout auth =>
    apply guarded_auth_claims (.extract rfl) fun _ _ => .rejected rfl
    intro now claims accepted
    apply guarded_sql (.logout accepted) .unlogged
    intro _
    apply guarded_await (.cache rfl)
    intro reply
    exact .logout accepted
  | pin_set auth new_pin otp_code =>
    apply guarded_auth_claims (.extract rfl) fun _ _ => .rejected rfl
    intro now claims accepted
    exact pin_set_steps.mono (fun _ _ step => .pin rfl rfl rfl accepted step)
      fun _ _ ends => .pin rfl rfl ends
  | pin_change auth current_pin new_pin otp_code =>
    apply guarded_auth_claims (.extract rfl) fun _ _ => .rejected rfl
    intro now claims accepted
    exact pin_change_steps.mono (fun _ _ step => .pin rfl rfl rfl accepted step)
      fun _ _ ends => .pin rfl rfl ends

end Kova.Auth

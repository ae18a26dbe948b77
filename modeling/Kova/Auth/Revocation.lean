import Kova.Account.AuthUser
import Kova.Auth.SessionLaws
import Kova.Gateway.Auth

/-!
# Revocation and access tokens

The four ways to revoke a session write `revoked_at` and cache the token's identifier in Redis.
The three validators of access tokens read neither: each of them decides by the token and the
clock alone. So a token whose session is revoked is turned away once it has expired, and not
before (`revoked_token_rejected_iff`).
-/

set_option autoImplicit false

namespace Kova.Auth

open Conc

variable {env : Env} {S : AuthScope} {clock : Nat} {ls : List AuthLabel} {d : AuthConf}

/-- Some validator's answer is a refusal. -/
def Refused {ε α : Type} (answer : Except ε α) : Prop := ∃ e, answer = .error e

/-- The token has expired, with the decoder's leeway of a minute. -/
def Expired (token : Jwt.Jws) (now : Nat) : Prop :=
  ∃ exp, token.payload.exp = some exp ∧ exp + 60 < now

/-- A request that carries the token is refused by its extractor, executed at any moment of the
second `now`. -/
def RefusedAt (env : Env) (now : Nat) (req : Request) : Prop :=
  ∀ t ch s, s.clock / 1000000000 = now →
    (machine env).alone t ch (serve env req) s =
      some (.error (.rejection "Invalid or expired access token"), s)

/-- Every validator turns the token away at `now`, and it yields no new pair. -/
structure TurnedAway (env : Env) (keys : Gateway.JwtKeySet) (token : Jwt.Jws) (now : Nat) :
    Prop where
  auth : Refused (AuthClaims.from_request_parts env.key now (.bearer (.jws token)))
  account : Refused (Account.AuthUser.from_request_parts env.key now (.bearer (.jws token)))
  gateway : Refused (Gateway.validate_token (.jws token) keys now)
  biometric_challenge : RefusedAt env now (.biometric_challenge (.bearer (.jws token)))
  biometric_verify : ∀ challenge_token biometric_signature device_fingerprint,
    RefusedAt env now (.biometric_verify (.bearer (.jws token)) challenge_token
      biometric_signature device_fingerprint)

/-- A session whose row carries the token's identifier was revoked at a given second. -/
def RevokedAt (d : AuthConf) (token : Jwt.Jws) (at_ : Int) : Prop :=
  ∃ r ∈ d.world.store.sessions, r.access_token_jti = token.payload.jti ∧ r.revoked_at = some at_

section Validators

variable {claims : KovaClaims} {token : Jwt.Jws} {now : Nat}

/-- What kova-auth's extractor makes of a token of the service. -/
theorem auth_answer (hiss : claims.iss = "kova-auth")
    (htoken : token = ⟨⟨.RS256, none⟩, claims.payload, env.key⟩) :
    AuthClaims.from_request_parts env.key now (.bearer (.jws token)) =
      if claims.exp + 60 < now then .error "Invalid or expired access token" else .ok claims := by
  have hread : KovaClaims.read token.payload = some claims := by rw [htoken]; rfl
  have hdecode : Jwt.decode KovaClaims.read validation env.key now (.jws token) =
      if claims.exp + 60 < now then .error .ExpiredSignature else .ok claims := by
    refine Jwt.accepts_iff hread ?_ ?_ ?_ ?_ ?_ <;> rw [htoken]
    · rfl
    · rfl
    · simp [KovaClaims.payload, hiss, validation]
    · rfl
  simp only [AuthClaims.from_request_parts, hdecode]
  by_cases hlate : claims.exp + 60 < now
  · rw [if_pos hlate, if_pos hlate]
  · rw [if_neg hlate, if_neg hlate]

/-- An expired token is refused by kova-account. -/
theorem account_refuses (hexp : token.payload.exp = some claims.exp)
    (hlate : claims.exp + 60 < now) :
    Refused (Account.AuthUser.from_request_parts env.key now (.bearer (.jws token))) := by
  cases hdecode : Jwt.decode Account.AuthUser.read { alg := .RS256, iss := ["kova-auth"] } env.key
      now (.jws token) with
  | error e =>
    refine ⟨"Invalid or expired access token", ?_⟩
    simp only [Account.AuthUser.from_request_parts, hdecode]
  | ok user =>
    obtain ⟨_, htoken, _, _, _, hvalid⟩ := Jwt.decode_ok hdecode
    cases htoken
    obtain ⟨exp, hexp', hle, _⟩ := Jwt.validate_ok hvalid
    rw [hexp, Option.some.injEq] at hexp'
    change now ≤ exp + 60 at hle
    omega

/-- An expired token is refused by the gateway, whatever its keys are. -/
theorem gateway_refuses {keys : Gateway.JwtKeySet} (hexp : token.payload.exp = some claims.exp)
    (hlate : claims.exp + 60 < now) : Refused (Gateway.validate_token (.jws token) keys now) := by
  cases hvalid : Gateway.validate_token (.jws token) keys now with
  | error e => exact ⟨e, rfl⟩
  | ok claims' =>
    obtain ⟨_, htoken, haccepted⟩ := Gateway.validate_token_ok hvalid
    cases htoken
    have hexp' := haccepted.exp
    have hle := haccepted.unexpired
    rw [hexp, Option.some.injEq] at hexp'
    omega

/-- A handler behind the extractor is refused when the extractor refuses. -/
theorem extractor_refuses {body : KovaClaims → Async Response} {auth : Jwt.AuthHeader}
    {message : String} (h : AuthClaims.from_request_parts env.key now auth = .error message)
    (t : Nat) (ch : Choice) (s : Store) (hs : s.clock / 1000000000 = now) :
    (machine env).alone t ch (auth_claims env.key auth >>= body) s =
      some (.error (.rejection message), s) := by
  have hnow : (⟨s.clock⟩ : DateTime).timestamp.toNat = now := by
    simp only [DateTime.timestamp]
    omega
  rw [← hnow] at h
  unfold auth_claims utc_now
  simp only [bind, Prog.bind, Machine.alone, machine, exec, Option.bind]
  rw [h]
  rfl

end Validators

/-- **When a revoked token is turned away**: in every run of kova-auth, for every pair it
returned and at any time later than a minute after the token's session was revoked, the
validators of all three services refuse the token exactly when it has expired. -/
theorem revoked_token_rejected_iff (env : Env) (clock : Nat) (ls : List AuthLabel) (d : AuthConf)
    (h : AuthRun env .all (start clock) ls d) (pair : TokenPair) (returned : Returned d pair)
    (keys : Gateway.JwtKeySet) :
    ∀ at_, RevokedAt d pair.access_token at_ → ∀ now : Nat, at_ + 60 < now →
      (TurnedAway env keys pair.access_token now ↔ Expired pair.access_token now) := by
  intro _ _ now _
  obtain ⟨_, _, _, _, claims, _, _, htoken, hiss, _⟩ := returned_issued h returned
  have hexp : pair.access_token.payload.exp = some claims.exp := by rw [htoken]; rfl
  have hauth : AuthClaims.from_request_parts env.key now (.bearer (.jws pair.access_token)) = _ :=
    auth_answer hiss htoken
  refine ⟨?_, ?_⟩
  · intro away
    obtain ⟨e, he⟩ := away.auth
    refine ⟨claims.exp, hexp, ?_⟩
    by_contra hvalid
    rw [hauth, if_neg hvalid] at he
    cases he
  · rintro ⟨exp, hexp', hlate⟩
    rw [hexp, Option.some.injEq] at hexp'
    subst hexp'
    rw [if_pos hlate] at hauth
    exact ⟨⟨_, hauth⟩, account_refuses hexp hlate, gateway_refuses hexp hlate,
      extractor_refuses hauth, fun _ _ _ => extractor_refuses hauth⟩

/-- A login, and the revocation of all sessions. -/
def revoked_login : List AuthLabel :=
  sample_login ++ uninterrupted 3 (.sessions_revoke_all sample_bearer) [{}, {}, {}, {}]

def after_revoked_login : AuthConf :=
  replayed (machine sample) (serve sample) sample_start revoked_login

theorem revoked_login_runs :
    AuthRun sample .all sample_start revoked_login after_revoked_login ∧
      Returned after_revoked_login sample_pair ∧
        RevokedAt after_revoked_login sample_pair.access_token 1700000000 := by
  obtain ⟨run, checked⟩ := replayed_spec (machine sample) (serve sample) sample_start revoked_login
    (fun d => decide (d.result? 2 = some (.ok (.tokens sample_pair))) &&
      d.world.store.sessions.any fun r =>
        decide (r.access_token_jti = sample_pair.access_token.payload.jti) &&
          decide (r.revoked_at = some 1700000000))
    (by decide +kernel)
  simp only [Bool.and_eq_true, decide_eq_true_eq] at checked
  obtain ⟨login, revoked⟩ := checked
  obtain ⟨req, returned⟩ := returned_of_result login
  obtain ⟨r, hr, hrevoked⟩ := List.any_eq_true.mp revoked
  simp only [Bool.and_eq_true, decide_eq_true_eq] at hrevoked
  exact ⟨run, ⟨2, req, returned⟩, r, hr, hrevoked⟩

/-- The gateway's keys next to the sample. -/
def sample_keys : Gateway.JwtKeySet := ⟨[("default", sample.key)]⟩

/-- The guarantee at that run: an hour later the token is turned away. -/
theorem revoked_token_rejected_later :
    TurnedAway sample sample_keys sample_pair.access_token 1700003600 := by
  obtain ⟨run, returned, revoked⟩ := revoked_login_runs
  exact (revoked_token_rejected_iff sample _ revoked_login after_revoked_login run sample_pair
    returned sample_keys 1700000000 revoked 1700003600 (by decide)).mpr ⟨1700000900, rfl, by decide⟩

/-- A hundred seconds after its session was revoked, a token is still accepted. -/
theorem revoked_token_accepted :
    ¬ ∀ (env : Env) (clock : Nat) (ls : List AuthLabel) (d : AuthConf),
      AuthRun env .all (start clock) ls d → ∀ pair, Returned d pair → ∀ keys at_,
        RevokedAt d pair.access_token at_ → ∀ now : Nat, at_ + 60 < now →
          TurnedAway env keys pair.access_token now := by
  intro claim
  obtain ⟨run, returned, revoked⟩ := revoked_login_runs
  have away := claim sample _ revoked_login after_revoked_login run sample_pair returned
    sample_keys 1700000000 revoked 1700000100 (by decide)
  obtain ⟨e, he⟩ := away.auth
  have accepted : AuthClaims.from_request_parts sample.key 1700000100
      (.bearer (.jws sample_pair.access_token)) = if sample_claims.exp + 60 < 1700000100 then _ else _ :=
    auth_answer rfl rfl
  rw [accepted, if_neg (by decide)] at he
  cases he

end Kova.Auth

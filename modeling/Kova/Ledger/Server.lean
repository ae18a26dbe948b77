import Kova.Auth.Handlers

/-!
# The ledger's interceptor

The check that stands before every RPC of the ledger. It asks for a token that verifies under
the public key, is issued by "kova-auth" and has not expired: which is what the access token of
a user is, so a user's token is turned away once it has expired and at no other time
(`user_token_rejected_iff`).
-/

set_option autoImplicit false

namespace Kova.Ledger

open Conc

/-- A gRPC status with its message. -/
inductive Status where
  | unauthenticated (message : String)
  deriving DecidableEq

/-- The closure that `make_auth_interceptor` returns, on the `authorization` metadata of a
request at `now` in seconds: the claims are decoded as any JSON value. -/
def make_auth_interceptor (decoding_key : Jwt.Key) (now : Nat) :
    Jwt.AuthHeader → Except Status Unit
  | .absent | .unreadable | .other _ => .error (.unauthenticated "missing Authorization header")
  | .bearer token =>
    match Jwt.decode some { alg := .RS256, iss := ["kova-auth"] } decoding_key now token with
    | .ok _ => .ok ()
    | .error _ => .error (.unauthenticated "invalid or expired token")

/-- The request is turned away. -/
def Rejects (answer : Except Status Unit) : Prop := ∃ status, answer = .error status

instance (answer : Except Status Unit) : Decidable (Rejects answer) :=
  match answer with
  | .ok _ => isFalse fun ⟨_, h⟩ => by cases h
  | .error status => isTrue ⟨status, rfl⟩

/-- The token that `sign_access_token` makes: signed by the service, with the claims of the
user and an expiry 900 seconds after the clock it read. -/
theorem signed_token {env : Auth.Env} {t : Nat} {ch : Auth.Choice} {user_id : Uuid}
    {device_fingerprint : String} {s s' : Auth.Store} {token : Jwt.Jws} {jti : String}
    (h : (Auth.machine env).alone t ch
      (Auth.sign_access_token env.key user_id device_fingerprint) s = some (.ok (token, jti), s')) :
    token.header = ⟨.RS256, none⟩ ∧ token.signed_by = env.key ∧
      token.payload.exp = some (s.clock / 1000000000 + 900) ∧
      token.payload.iss = some "kova-auth" ∧ token.payload.aud = none := by
  obtain ⟨now, s₁, hnow, h⟩ := Machine.alone_await h
  obtain ⟨uuid, s₂, _, h⟩ := Machine.alone_await h
  obtain ⟨signed, s₃, _, h⟩ := Machine.alone_await h
  obtain ⟨rfl, rfl⟩ := Prod.mk.inj (Option.some.inj hnow)
  cases signed with
  | error message => cases h
  | ok _ =>
    cases h
    refine ⟨rfl, rfl, ?_, rfl, rfl⟩
    simp only [Auth.KovaClaims.payload, DateTime.timestamp, Auth.ACCESS_TTL_SECS,
      Option.some.injEq]
    omega

/-- **When the ledger turns a user's token away**: once it has expired, with the decoder's
leeway of a minute. -/
theorem user_token_rejected_iff (env : Auth.Env) (t : Nat) (ch : Auth.Choice) (user_id : Uuid)
    (device_fingerprint : String) (s s' : Auth.Store) (token : Jwt.Jws) (jti : String)
    (minted : (Auth.machine env).alone t ch
      (Auth.sign_access_token env.key user_id device_fingerprint) s = some (.ok (token, jti), s'))
    (now : Nat) :
    Rejects (make_auth_interceptor env.key now (.bearer (.jws token))) ↔
      s.clock / 1000000000 + 960 < now := by
  obtain ⟨hheader, hkey, hexp, hiss, haud⟩ := signed_token minted
  have hdecode : Jwt.decode some { alg := .RS256, iss := ["kova-auth"] } env.key now (.jws token) =
      if s.clock / 1000000000 + 900 + 60 < now then .error .ExpiredSignature
      else .ok token.payload :=
    Jwt.accepts_iff rfl (congrArg Jwt.Header.alg hheader) hkey hexp (by simp [hiss]) haud
  simp only [make_auth_interceptor, hdecode]
  by_cases hexpired : s.clock / 1000000000 + 900 + 60 < now
  · rw [if_pos hexpired]
    exact ⟨fun _ => hexpired, fun _ => ⟨_, rfl⟩⟩
  · rw [if_neg hexpired]
    refine ⟨?_, fun hlate => absurd hlate hexpired⟩
    rintro ⟨status, h⟩
    cases h

/-- The clock of the sample, in November 2023. -/
def issue_time : Auth.Store := { clock := 1700000000000000000 }

/-- What `sign_access_token` makes there for a user's phone. -/
def phone_token : Jwt.Jws where
  header := ⟨.RS256, none⟩
  payload :=
    { sub := some (Uuid.low 1).to_string
      exp := some 1700000900
      iat := some 1700000000
      jti := some (Uuid.low 4).to_string
      iss := some "kova-auth"
      kova_device_id := some "phone" }
  signed_by := 1

theorem phone_token_minted :
    (Auth.machine Auth.sample).alone 0 { uuid := .low 4 }
      (Auth.sign_access_token Auth.sample.key (.low 1) "phone") issue_time =
        some (.ok (phone_token, (Uuid.low 4).to_string),
          { issue_time with minted := [.low 4] }) := rfl

/-- The guarantee for that token, an hour after it was issued. -/
theorem user_token_rejected_later :
    Rejects (make_auth_interceptor Auth.sample.key 1700003600 (.bearer (.jws phone_token))) :=
  (user_token_rejected_iff Auth.sample 0 { uuid := .low 4 } (.low 1) "phone" issue_time _ phone_token
    _ phone_token_minted 1700003600).mpr (by decide)

/-- The ledger lets a user's token through while it is valid. -/
theorem user_token_accepted :
    ¬ ∀ (env : Auth.Env) (t : Nat) (ch : Auth.Choice) (user_id : Uuid)
      (device_fingerprint : String) (s s' : Auth.Store) (token : Jwt.Jws) (jti : String),
      (Auth.machine env).alone t ch
        (Auth.sign_access_token env.key user_id device_fingerprint) s =
          some (.ok (token, jti), s') →
        ∀ now, s.clock / 1000000000 ≤ now →
          Rejects (make_auth_interceptor env.key now (.bearer (.jws token))) := by
  intro claim
  have rejected := claim Auth.sample 0 { uuid := .low 4 } (.low 1) "phone" issue_time _ phone_token
    _ phone_token_minted 1700000000 (by decide)
  revert rejected
  decide

end Kova.Ledger

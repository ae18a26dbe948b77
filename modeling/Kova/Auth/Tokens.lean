import Kova.Auth.Store

/-!
# Tokens

The issuing of token pairs and the rotation of refresh tokens, with the cryptographic helpers
they use. A refresh token is stored split: its selector (SHA-256) for the lookup and its bcrypt
hash for the verification. An access token carries `sub`, `jti`, `iat`, `exp`, `iss` and the
device.
-/

namespace Kova.Auth

open Conc

inductive AuthError where
  | PhoneAlreadyRegistered
  | InvalidPhoneFormat
  | UserNotFound
  | OtpInvalidOrExpired
  | OtpAlreadyUsed
  | OtpRateLimitExceeded
  | InvalidCredentials
  | SessionNotFound
  | RefreshTokenReuse
  | ChallengeInvalid
  | PinAlreadySet
  | InvalidPin
  | PinNotSet
  | Unauthorized
  | Database
  | Redis
  | Crypto (message : String)
  | Sms
  deriving DecidableEq

/-- Why a request is refused: its extractor rejected it, or its handler returned an error. -/
inductive Failure where
  | rejection (message : String)
  | error (e : AuthError)
  deriving DecidableEq

/-- An async function of kova-auth. -/
abbrev Async := Prog Op Op.Res Failure

/-- `Err(e)`. -/
def fail {α : Type} (e : AuthError) : Async α := .raise (.error e)

/-- `sqlx::query(..).await?`. -/
def sql (q : Sql) : Async q.Res :=
  .await (.sql q) fun
    | some r => .ret r
    | none => fail .Database

/-- A Redis command with `?`. -/
def redis (cmd : Redis.Cmd) : Async cmd.Res :=
  .await (.redis cmd) fun
    | some r => .ret r
    | none => fail .Redis

def utc_now : Async DateTime := .await .utc_now .ret

def now_v7 : Async Uuid := .await .now_v7 .ret

/-- `.map_err(|e| AuthError::Crypto(e.to_string()))?`. -/
def crypto {α : Type} : Except String α → Async α
  | .ok a => .ret a
  | .error message => fail (.Crypto message)

/-! ## crypto.rs -/

def random_hex_token : Async String :=
  .await .random_hex fun
    | some token => .ret token
    | none => fail (.Crypto "rng fill failed")

/-- The largest multiple of 1,000,000 that fits in 32 bits. -/
def OTP_REJECT_THRESHOLD : UInt32 := 4294000000

/-- `format!("{:06}", n)`. -/
def six_digits (n : Nat) : String :=
  String.ofList (List.replicate (6 - n.repr.length) '0' ++ n.repr.toList)

/-- `generate_otp`: the first draw below the threshold decides; the generator failed if there is
none. -/
def generate_otp : Async String :=
  .await .random_draws fun draws =>
    match draws.find? fun n => n < OTP_REJECT_THRESHOLD with
    | some n => .ret (six_digits (n.toNat % 1000000))
    | none => fail (.Crypto "rng fill failed")

def bcrypt_hash (prim : Primitives) (plain : String) : Async String := do
  let salt ← .await .salt .ret
  crypto (prim.bcrypt_hash salt plain)

def hash_otp (prim : Primitives) (otp : String) : Async String := bcrypt_hash prim otp

def verify_otp (prim : Primitives) (otp hash : String) : Async Bool :=
  crypto (prim.bcrypt_verify otp hash)

def hash_pin (prim : Primitives) (pin : String) : Async String := do
  let salt ← .await .salt .ret
  crypto (prim.argon2_hash salt pin)

def verify_pin (prim : Primitives) (pin hash : String) : Async Bool :=
  if hash.isEmpty then .ret false else crypto (prim.argon2_verify pin hash)

/-! ## tokens.rs -/

def ACCESS_TTL_SECS : Int := 900
def REFRESH_TTL_SECS : Int := 2592000

structure TokenPair where
  access_token : Jwt.Jws
  refresh_token : String
  expires_in : Nat
  deriving DecidableEq

structure KovaClaims where
  sub : String
  exp : Nat
  iat : Nat
  jti : String
  iss : String
  kova_device_id : Option String
  deriving DecidableEq

/-- The claims as a payload. -/
def KovaClaims.payload (c : KovaClaims) : Jwt.Payload where
  sub := some c.sub
  exp := some c.exp
  iat := some c.iat
  jti := some c.jti
  iss := some c.iss
  kova_device_id := c.kova_device_id

/-- The claims read from a payload: all but the device must be there. -/
def KovaClaims.read (p : Jwt.Payload) : Option KovaClaims := do
  let sub ← p.sub
  let exp ← p.exp
  let iat ← p.iat
  let jti ← p.jti
  let iss ← p.iss
  some { sub, exp, iat, jti, iss, kova_device_id := p.kova_device_id }

/-- `sign_access_token`. -/
def sign_access_token (key : Jwt.Key) (user_id : Uuid) (device_fingerprint : String) :
    Async (Jwt.Jws × String) := do
  let now ← utc_now
  let jti ← now_v7
  let claims : KovaClaims :=
    { sub := user_id.to_string
      exp := (now.timestamp + ACCESS_TTL_SECS).toNat
      iat := now.timestamp.toNat
      jti := jti.to_string
      iss := "kova-auth"
      kova_device_id := some device_fingerprint }
  let signed ← .await .sign .ret
  crypto signed
  pure (⟨⟨.RS256, none⟩, claims.payload, key⟩, jti.to_string)

section

variable (env : Env)

/-- `issue_token_pair`. -/
def issue_token_pair (user_id : Uuid) (device_fingerprint : String) : Async TokenPair := do
  let (access_token, jti) ← sign_access_token env.key user_id device_fingerprint
  let refresh_raw ← random_hex_token
  let selector := env.sha256_hex refresh_raw
  let refresh_hash ← bcrypt_hash env.toPrimitives refresh_raw
  let session_id ← now_v7
  let now ← utc_now
  let expires_at : DateTime := ⟨now.nanos + REFRESH_TTL_SECS * 1000000000⟩
  sql (.insert_session
    { id := session_id.to_string
      user_id := user_id.to_string
      refresh_token_hash := refresh_hash
      token_selector := selector
      access_token_jti := jti
      device_fingerprint
      expires_at })
  pure { access_token, refresh_token := refresh_raw, expires_in := ACCESS_TTL_SECS.toNat }

/-- What the rotation does with the row it read. -/
def rotate_row (refresh_token device_fingerprint : String) (row : SessionRow) :
    Async TokenPair := do
  let ok ← crypto (env.bcrypt_verify refresh_token row.refresh_token_hash)
  if !ok then
    fail .SessionNotFound
  else if row.revoked_at.isSome then do
    sql (.revoke_user_sessions row.user_id_str)
    fail .RefreshTokenReuse
  else do
    sql (.revoke_session row.session_id)
    match Uuid.parse_str row.user_id_str with
    | none => fail .SessionNotFound
    | some user_id => issue_token_pair env user_id device_fingerprint

/-- `rotate_refresh_token`. -/
def rotate_refresh_token (refresh_token device_fingerprint : String) : Async TokenPair := do
  let selector := env.sha256_hex refresh_token
  let row ← sql (.select_session selector)
  match row with
  | none => fail .SessionNotFound
  | some row => rotate_row env refresh_token device_fingerprint row

end

end Kova.Auth

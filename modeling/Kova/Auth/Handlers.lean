import Kova.Auth.Tokens

/-!
# The handlers of kova-auth

The eleven handlers that the router mounts (the health check apart), each as a program over the
operations of `Auth.Store`, and the service as a pool of their calls.
-/

namespace Kova.Auth

open Conc

/-! ## Requests -/

inductive Request where
  | register (phone_number device_fingerprint : String)
  | otp_request (phone_number device_fingerprint : String)
  | otp_verify (phone_number otp_code device_fingerprint : String)
  | token_refresh (refresh_token device_fingerprint : String)
  | biometric_challenge (auth : Jwt.AuthHeader)
  | biometric_verify (auth : Jwt.AuthHeader)
      (challenge_token biometric_signature device_fingerprint : String)
  | session_delete (auth : Jwt.AuthHeader) (session_id : String)
  | sessions_revoke_all (auth : Jwt.AuthHeader)
  | logout (auth : Jwt.AuthHeader)
  | pin_set (auth : Jwt.AuthHeader) (new_pin otp_code : String)
  | pin_change (auth : Jwt.AuthHeader) (current_pin new_pin otp_code : String)
  deriving DecidableEq

inductive Response where
  | registered (user_id phone_number : String)
  | message (text : String)
  | challenge (challenge_token : String)
  | tokens (pair : TokenPair)
  deriving DecidableEq

/-! ## handlers/mod.rs -/

def validation : Jwt.Validation := { alg := .RS256, iss := ["kova-auth"] }

/-- `AuthClaims::from_request_parts`, at `now` in seconds. -/
def AuthClaims.from_request_parts (decoding_key : Jwt.Key) (now : Nat) :
    Jwt.AuthHeader → Except String KovaClaims
  | .absent | .unreadable => .error "Missing Authorization header"
  | .other _ => .error "Authorization header must be 'Bearer <token>'"
  | .bearer token =>
    match Jwt.decode KovaClaims.read validation decoding_key now token with
    | .ok claims => .ok claims
    | .error _ => .error "Invalid or expired access token"

/-- The extractor in a handler's arguments: it runs before the handler's body. -/
def auth_claims (decoding_key : Jwt.Key) (auth : Jwt.AuthHeader) : Async KovaClaims := do
  let now ← utc_now
  match AuthClaims.from_request_parts decoding_key now.timestamp.toNat auth with
  | .ok claims => .ret claims
  | .error message => .raise (.rejection message)

section

variable (env : Env)

/-! ## handlers/register.rs -/

def validate_e164 (raw : String) : Async String :=
  match env.e164 raw with
  | some phone => .ret phone
  | none => fail .InvalidPhoneFormat

def register (phone_number device_fingerprint : String) : Async Response := do
  let phone ← validate_e164 env phone_number
  let user_id ← now_v7
  let result ← sql (.insert_user user_id.to_string phone)
  match result with
  | .unique_violation => fail .PhoneAlreadyRegistered
  | .inserted => do
    let device_id ← now_v7
    sql (.upsert_device device_id.to_string user_id.to_string device_fingerprint)
    pure (.registered user_id.to_string phone)

/-! ## handlers/otp.rs -/

def OTP_RATE_LIMIT : Int := 3
def OTP_RATE_WINDOW_SECS : Nat := 600
def OTP_EXPIRY_SECS : Int := 300

def rl_key (phone_number : String) : String := "kova:otp:rl:" ++ phone_number

/-- `redis.get(&rl_key).await.unwrap_or(None)`. -/
def read_count (key : String) : Async (Option Int) :=
  .await (.redis (.get key)) fun
    | some (some value) => .ret (Redis.integer value)
    | _ => .ret none

/-- `redis.incr(&rl_key, 1).await?`. -/
def increment (key : String) : Async Int :=
  .await (.redis (.incr key 1)) fun
    | some (some n) => .ret n
    | _ => fail .Redis

/-- A Redis command with `unwrap_or(())`. -/
def ignore (cmd : Redis.Cmd) : Async Unit := .await (.redis cmd) fun _ => .ret ()

def send_otp (phone_number otp : String) : Async Unit :=
  .await (.send_sms phone_number otp) fun
    | some () => .ret ()
    | none => fail .Sms

/-- `fetch_optional(..).await?.ok_or(e)?`. -/
def or_fail {α : Type} (e : AuthError) : Option α → Async α
  | some a => .ret a
  | none => fail e

def otp_request (phone_number _device_fingerprint : String) : Async Response := do
  let count ← read_count (rl_key phone_number)
  if count.getD 0 ≥ OTP_RATE_LIMIT then fail .OtpRateLimitExceeded
  else do
    let row ← sql (.select_user_by_phone phone_number)
    let user_id_str ← or_fail .UserNotFound row
    let otp ← generate_otp
    let code_hash ← hash_otp env.toPrimitives otp
    let otp_id ← now_v7
    let now ← utc_now
    let expires_at : DateTime := ⟨now.nanos + OTP_EXPIRY_SECS * 1000000000⟩
    sql (.insert_otp otp_id.to_string user_id_str code_hash expires_at)
    send_otp phone_number otp
    let new_count ← increment (rl_key phone_number)
    if new_count = 1 then ignore (.expire (rl_key phone_number) OTP_RATE_WINDOW_SECS)
    pure (.message "OTP sent")

def otp_verify (phone_number otp_code device_fingerprint : String) : Async Response := do
  let user_row ← sql (.select_user_by_phone phone_number)
  let user_id_str ← or_fail .UserNotFound user_row
  let otp_row ← sql (.select_otp user_id_str)
  let otp_row ← or_fail .OtpInvalidOrExpired otp_row
  if otp_row.used_at.isSome then fail .OtpAlreadyUsed
  else do
    let ok ← verify_otp env.toPrimitives otp_code otp_row.code_hash
    if !ok then fail .OtpInvalidOrExpired
    else do
      sql (.use_otp otp_row.otp_id)
      let user_id ← or_fail .UserNotFound (Uuid.parse_str user_id_str)
      let pair ← issue_token_pair env user_id device_fingerprint
      pure (.tokens pair)

/-! ## handlers/token.rs -/

def token_refresh (refresh_token device_fingerprint : String) : Async Response := do
  let pair ← rotate_refresh_token env refresh_token device_fingerprint
  pure (.tokens pair)

/-! ## handlers/biometric.rs -/

def CHALLENGE_TTL_SECS : Nat := 60

def challenge_key (user_id : String) : String := "kova:biometric:challenge:" ++ user_id

def biometric_challenge (claims : KovaClaims) : Async Response := do
  let challenge ← random_hex_token
  redis (.set_ex (challenge_key claims.sub) challenge CHALLENGE_TTL_SECS)
  pure (.challenge challenge)

def biometric_verify (claims : KovaClaims)
    (challenge_token _biometric_signature device_fingerprint : String) : Async Response := do
  let stored : Option String ← redis (.get_del (challenge_key claims.sub))
  if stored ≠ some challenge_token then fail .ChallengeInvalid
  else do
    let user_uuid ← or_fail .Unauthorized (Uuid.parse_str claims.sub)
    let pair ← issue_token_pair env user_uuid device_fingerprint
    pure (.tokens pair)

/-! ## handlers/device.rs -/

def REVOCATION_CACHE_SECS : Nat := ACCESS_TTL_SECS.toNat

def cache_revoked_jti (jti : String) : Async Unit :=
  ignore (.set_ex ("kova:revoked:jti:" ++ jti) "1" REVOCATION_CACHE_SECS)

/-- The loop over the collected JTIs; a NULL is passed over. -/
def cache_revoked_jtis : List (Option String) → Async Unit
  | [] => .ret ()
  | none :: rows => cache_revoked_jtis rows
  | some jti :: rows => do
    cache_revoked_jti jti
    cache_revoked_jtis rows

def session_delete (claims : KovaClaims) (session_id : String) : Async Response := do
  let row ← sql (.select_own_session session_id claims.sub)
  let jti ← or_fail .SessionNotFound row
  sql (.revoke_session session_id)
  cache_revoked_jtis [jti]
  pure (.message "Session revoked")

def sessions_revoke_all (claims : KovaClaims) : Async Response := do
  let rows ← sql (.select_live_jtis claims.sub)
  sql (.revoke_user_sessions claims.sub)
  cache_revoked_jtis rows
  pure (.message "All sessions revoked")

def logout (claims : KovaClaims) : Async Response := do
  sql (.revoke_by_jti claims.jti claims.sub)
  cache_revoked_jti claims.jti
  pure (.message "Logged out")

/-! ## handlers/pin.rs -/

def validate_pin_format (pin : String) : Async Unit :=
  if 4 ≤ pin.utf8ByteSize ∧ pin.utf8ByteSize ≤ 6 ∧ pin.toList.all Char.isDigit then .ret ()
  else fail .InvalidPin

def verify_otp_for_user (user_id otp_code : String) : Async Unit := do
  let row ← sql (.select_otp user_id)
  let row ← or_fail .OtpInvalidOrExpired row
  let ok ← verify_otp env.toPrimitives otp_code row.code_hash
  if !ok then fail .OtpInvalidOrExpired
  else sql (.use_otp row.otp_id)

def pin_set (claims : KovaClaims) (new_pin otp_code : String) : Async Response := do
  validate_pin_format new_pin
  let row ← sql (.select_pin_hash claims.sub)
  let pin_hash ← or_fail .UserNotFound row
  if !pin_hash.isEmpty then fail .PinAlreadySet
  else do
    verify_otp_for_user env claims.sub otp_code
    let new_hash ← hash_pin env.toPrimitives new_pin
    sql (.update_pin_hash new_hash claims.sub)
    pure (.message "PIN set successfully")

def pin_change (claims : KovaClaims) (current_pin new_pin otp_code : String) :
    Async Response := do
  validate_pin_format new_pin
  let row ← sql (.select_pin_hash claims.sub)
  let pin_hash ← or_fail .UserNotFound row
  if pin_hash.isEmpty then fail .PinNotSet
  else do
    let ok ← verify_pin env.toPrimitives current_pin pin_hash
    if !ok then fail .InvalidCredentials
    else do
      verify_otp_for_user env claims.sub otp_code
      let new_hash ← hash_pin env.toPrimitives new_pin
      sql (.update_pin_hash new_hash claims.sub)
      pure (.message "PIN changed successfully")

/-! ## The service -/

/-- The program of a request. -/
def serve : Request → Async Response
  | .register phone_number device_fingerprint => register env phone_number device_fingerprint
  | .otp_request phone_number device_fingerprint => otp_request env phone_number device_fingerprint
  | .otp_verify phone_number otp_code device_fingerprint =>
    otp_verify env phone_number otp_code device_fingerprint
  | .token_refresh refresh_token device_fingerprint =>
    token_refresh env refresh_token device_fingerprint
  | .biometric_challenge auth => do
    let claims ← auth_claims env.key auth
    biometric_challenge claims
  | .biometric_verify auth challenge_token biometric_signature device_fingerprint => do
    let claims ← auth_claims env.key auth
    biometric_verify env claims challenge_token biometric_signature device_fingerprint
  | .session_delete auth session_id => do
    let claims ← auth_claims env.key auth
    session_delete claims session_id
  | .sessions_revoke_all auth => do
    let claims ← auth_claims env.key auth
    sessions_revoke_all claims
  | .logout auth => do
    let claims ← auth_claims env.key auth
    logout claims
  | .pin_set auth new_pin otp_code => do
    let claims ← auth_claims env.key auth
    pin_set env claims new_pin otp_code
  | .pin_change auth current_pin new_pin otp_code => do
    let claims ← auth_claims env.key auth
    pin_change env claims current_pin new_pin otp_code

end

abbrev AuthWorld := World Store Request Op Op.Res

abbrev AuthConf := Conf Store Request Op Op.Res Failure Response

abbrev AuthLabel := Label Request Choice Outside

abbrev AuthScope := Scope Store Request Op Op.Res Choice

/-- The runs of the service within a scope. -/
abbrev AuthRun (env : Env) (S : AuthScope) : AuthConf → List AuthLabel → AuthConf → Prop :=
  Run (machine env) (serve env) S

/-- The service before its first call: empty tables. -/
def start (clock : Nat) : AuthConf := .init { clock }

/-! ## A sample deployment -/

/-- A 32-byte token whose bytes are all the same. -/
def sample_token (c : Char) : String := String.ofList (List.replicate 64 c)

/-- The selectors of the tokens that the sample draws. -/
def sample_selectors : List (String × String) :=
  [(sample_token 'a', "ffe054fe7ae0cb6dc65c3af9b61d5209f439851db43d0ba5997337df154668eb"),
   (sample_token 'b', "a0fab1377f49a759b57f63318262ebe89fabfc990e8e93ceac2984561482b9d4"),
   (sample_token 'c', "52b6419d27bd7f547cee3b92f8c17a908b8a49601ecbec161e5030de1dfe9e0a")]

def sample_salt : String := "abcdefghijklmnopqrstuu"

/-- The bcrypt hashes of these tokens and of the code 123456 with the sample salt, at cost 10. -/
def sample_hashes : List (String × String) :=
  [(sample_token 'a', "$2b$10$abcdefghijklmnopqrstuupqeO/TdzTLFNe.W0j76SdK3J7JjYyEW"),
   (sample_token 'b', "$2b$10$abcdefghijklmnopqrstuuKZY3FJqDXUfLxybcSP4xBfaEsHBGLIi"),
   (sample_token 'c', "$2b$10$abcdefghijklmnopqrstuueS9ME2knAPFABjqQCj0T3/PwgE1YSiK"),
   ("123456", "$2b$10$abcdefghijklmnopqrstuuxD0vCwu/f2ahNVJLL35ZYA2xuiRyPH6")]

/-- A server that compares ASCII without case, and the crates on the inputs of the sample. -/
def sample : Env where
  sha256_hex s := (sample_selectors.lookup s).getD ""
  bcrypt_hash salt plain :=
    match sample_hashes.lookup plain with
    | some hash => if salt = sample_salt then .ok hash else .error "InvalidSalt"
    | none => .error "InvalidSalt"
  bcrypt_verify plain hash := .ok (sample_hashes.contains (plain, hash))
  argon2_hash _ _ := .error "OutOfMemory"
  argon2_verify _ _ := .ok false
  e164 raw := if raw = "+2348012345678" then some raw else none
  coll := ascii_ci
  key := 1

/-- The sample before its first call, in November 2023. -/
def sample_start : AuthConf := start 1700000000000000000

/-- A call executed without interruption. -/
def uninterrupted (t : Nat) (req : Request) (choices : List Choice) : List AuthLabel :=
  .spawn req :: choices.map (.run t)

/-- What is drawn when a pair is issued: the token and the identifiers. -/
def issuing (c : Char) (n : UInt8) : List Choice :=
  [{}, { uuid := .low n }, {}, { text := sample_token c }, { text := sample_salt },
    { uuid := .low (n + 1) }, {}, {}]

/-- A user registers and asks for a code. -/
def sample_code : List AuthLabel :=
  uninterrupted 0 (.register "+2348012345678" "phone")
      [{ uuid := .low 1 }, {}, { uuid := .low 2 }, {}] ++
    uninterrupted 1 (.otp_request "+2348012345678" "phone")
      [{}, {}, { draws := [123456] }, { text := sample_salt }, { uuid := .low 3 }, {}, {}, {}, {}, {}]

/-- The user logs in with the code. -/
def sample_login : List AuthLabel :=
  sample_code ++ uninterrupted 2 (.otp_verify "+2348012345678" "123456" "phone")
    ({} :: {} :: {} :: issuing 'a' 4)

/-- What the login returns. -/
def sample_claims : KovaClaims where
  sub := (Uuid.low 1).to_string
  exp := 1700000900
  iat := 1700000000
  jti := (Uuid.low 4).to_string
  iss := "kova-auth"
  kova_device_id := some "phone"

def sample_pair : TokenPair where
  access_token := ⟨⟨.RS256, none⟩, sample_claims.payload, sample.key⟩
  refresh_token := sample_token 'a'
  expires_in := 900

/-- The header of the user's requests after the login. -/
def sample_bearer : Jwt.AuthHeader := .bearer (.jws sample_pair.access_token)

end Kova.Auth

import Kova.Conc.Pool
import Kova.Jwt.Token
import Kova.MySql.Collation
import Kova.Redis.Db
import Kova.Types.DateTime
import Kova.Types.Uuid

/-!
# The state behind kova-auth

The tables of `kova_auth_db`, the SQL statements that the handlers execute on them, Redis, the
clock and the random sources. Every statement is a transaction of its own (autocommit), so one
operation is one statement: it fails without effect, takes effect, or takes effect with its
reply lost. Identifiers travel as text, as the handlers bind them (`UUID_TO_BIN`) and receive
them (`BIN_TO_UUID`).

What the third-party crates compute is a parameter (`Primitives`). Random values are fresh:
`now_v7` yields a UUID not seen before, and `random_hex_token` a token whose selector (its
SHA-256) no earlier token has.
-/

namespace Kova.Auth

open Conc

/-! ## Rows -/

/-- A row of `users`. -/
structure User where
  id : Uuid
  phone_number : String
  pin_hash : String
  deriving DecidableEq

/-- A row of `sessions`. `revoked_at IS NULL` means the session is live. -/
structure Session where
  id : Uuid
  user_id : Uuid
  refresh_token_hash : String
  token_selector : Option String
  access_token_jti : Option String
  device_fingerprint : String
  expires_at : Int
  revoked_at : Option Int
  deriving DecidableEq

/-- A row of `otp_codes`. `used_at IS NULL` means unused. -/
structure OtpCode where
  id : Uuid
  user_id : Uuid
  code_hash : String
  expires_at : Int
  used_at : Option Int
  created_at : Int
  deriving DecidableEq

/-- A row of `devices`. -/
structure Device where
  id : Uuid
  user_id : Uuid
  device_fingerprint : String
  last_seen_at : Int
  deriving DecidableEq

/-! ## Operations -/

/-- The values bound by the INSERT into `sessions`. -/
structure SessionInsert where
  id : String
  user_id : String
  refresh_token_hash : String
  token_selector : String
  access_token_jti : String
  device_fingerprint : String
  expires_at : DateTime

/-- The columns that the rotation reads. -/
structure SessionRow where
  session_id : String
  user_id_str : String
  refresh_token_hash : String
  revoked_at : Option Int

/-- The columns that the OTP checks read. -/
structure OtpRow where
  otp_id : String
  code_hash : String
  used_at : Option Int

inductive InsertResult where
  | inserted
  | unique_violation
  deriving DecidableEq

inductive Sql where
  | insert_user (id phone_number : String)
  | upsert_device (id user_id device_fingerprint : String)
  | select_user_by_phone (phone_number : String)
  | insert_otp (id user_id code_hash : String) (expires_at : DateTime)
  | select_otp (user_id : String)
  | use_otp (id : String)
  | select_pin_hash (user_id : String)
  | update_pin_hash (pin_hash user_id : String)
  | insert_session (values : SessionInsert)
  | select_session (selector : String)
  | revoke_session (id : String)
  | revoke_user_sessions (user_id : String)
  | select_own_session (id user_id : String)
  | select_live_jtis (user_id : String)
  | revoke_by_jti (jti user_id : String)

/-- What each statement answers when it does not fail. -/
def Sql.Res : Sql → Type
  | .insert_user .. => InsertResult
  | .select_user_by_phone _ | .select_pin_hash _ => Option String
  | .select_otp _ => Option OtpRow
  | .select_session _ => Option SessionRow
  | .select_own_session .. => Option (Option String)
  | .select_live_jtis _ => List (Option String)
  | .upsert_device .. | .insert_otp .. | .use_otp _ | .update_pin_hash .. | .insert_session _
  | .revoke_session _ | .revoke_user_sessions _ | .revoke_by_jti .. => Unit

/-- What a handler awaits or reads from outside; `none` is a failure. -/
inductive Op where
  | sql (q : Sql)
  | redis (cmd : Redis.Cmd)
  | utc_now
  | now_v7
  /-- 32 random bytes in hex. -/
  | random_hex
  /-- The 32-bit draws of a rejection loop, up to the first that is accepted. -/
  | random_draws
  /-- The salt of a password hash. -/
  | salt
  /-- An RSA signature, or the text of the signer's error. -/
  | sign
  | send_sms (phone_number otp : String)

def Op.Res : Op → Type
  | .sql q => Option q.Res
  | .redis cmd => Option cmd.Res
  | .utc_now => DateTime
  | .now_v7 => Uuid
  | .random_hex => Option String
  | .random_draws => List UInt32
  | .salt => String
  | .sign => Except String Unit
  | .send_sms .. => Option Unit

/-! ## The store -/

structure Store where
  users : List User := []
  sessions : List Session := []
  otp_codes : List OtpCode := []
  devices : List Device := []
  redis : Redis.Db := []
  /-- The UUIDs generated so far. -/
  minted : List Uuid := []
  /-- The random tokens generated so far. -/
  generated : List String := []
  /-- Nanoseconds since the Unix epoch. -/
  clock : Nat := 0

/-- `NOW()`: whole seconds. -/
def Store.now (s : Store) : Int := (s.clock / 1000000000 : Nat)

/-- What the third-party crates compute. -/
structure Primitives where
  /-- SHA-256 in lower-case hex. -/
  sha256_hex : String → String
  /-- `bcrypt::hash` with a salt, and `bcrypt::verify`; an error is its text. -/
  bcrypt_hash : String → String → Except String String
  bcrypt_verify : String → String → Except String Bool
  /-- Argon2id with a salt, and its verification, which fails on a text that is no hash. -/
  argon2_hash : String → String → Except String String
  argon2_verify : String → String → Except String Bool
  /-- `phonenumber`: the E.164 text of a valid number. -/
  e164 : String → Option String

/-- What is left open: the crates, the collation of the tables, and the service's key pair. -/
structure Env extends Primitives where
  coll : Collation
  key : Jwt.Key

inductive Fault where
  | none
  | failed
  | lost
  deriving DecidableEq

/-- What an operation leaves open: a failure, which of several rows, and the random values. -/
structure Choice where
  fault : Fault := .none
  pick : Nat := 0
  uuid : Uuid := Uuid.low 0
  text : String := ""
  draws : List UInt32 := []

/-- Outside the handlers, time passes. -/
inductive Outside where
  | advance (nanos : Nat)

/-! ## Statements -/

/-- `LIMIT 1` without an order that decides. -/
def limit_one {α : Type} (pick : Nat) (rows : List α) : Option α := rows[pick % rows.length]?

section Statements

variable (env : Env)

/-- The row an INSERT into `sessions` would store; `none` is an error of the statement. -/
def SessionInsert.row (v : SessionInsert) : Option Session := do
  let id ← Uuid.UUID_TO_BIN v.id
  let user_id ← Uuid.UUID_TO_BIN v.user_id
  let refresh_token_hash ← Collation.varchar 255 v.refresh_token_hash
  let token_selector ← Collation.varchar 64 v.token_selector
  let access_token_jti ← Collation.varchar 36 v.access_token_jti
  let device_fingerprint ← Collation.varchar 255 v.device_fingerprint
  if DateTime.storable v.expires_at.bind then
    some
      { id, user_id, refresh_token_hash
        token_selector := some token_selector
        access_token_jti := some access_token_jti
        device_fingerprint
        expires_at := v.expires_at.to_datetime
        revoked_at := none }
  else none

/-- `UPDATE sessions SET revoked_at = NOW() WHERE ..`. -/
def Store.revoke (s : Store) (p : Session → Bool) : Store :=
  { s with
    sessions := s.sessions.map fun r => if p r then { r with revoked_at := some s.now } else r }

/-- `UPDATE otp_codes SET used_at = NOW() WHERE id = ..`. -/
def Store.consume (s : Store) (id : Uuid) : Store :=
  { s with
    otp_codes := s.otp_codes.map fun r => if r.id = id then { r with used_at := some s.now } else r }

/-- The unused, unexpired codes of a user that none is newer than. -/
def Store.latest_otps (s : Store) (user_id : Uuid) : List OtpCode :=
  let open_codes := s.otp_codes.filter fun r =>
    r.user_id == user_id && (s.now < r.expires_at) && r.used_at.isNone
  open_codes.filter fun r => open_codes.all fun r' => r'.created_at ≤ r.created_at

/-- The sessions of a selector that have not expired. -/
def Store.by_selector (s : Store) (selector : String) : List Session :=
  s.sessions.filter fun r =>
    (r.token_selector.any fun sel => env.coll.same sel selector) && s.now < r.expires_at

/-- What MySQL does for one statement; `none` is an error without effect. -/
def Sql.run (pick : Nat) (s : Store) : (q : Sql) → Option q.Res × Store
  | .insert_user id phone_number =>
    match Uuid.UUID_TO_BIN id, Collation.varchar 20 phone_number with
    | some id, some phone_number =>
      if ∃ u ∈ s.users, u.id = id ∨ env.coll.same u.phone_number phone_number then
        (some .unique_violation, s)
      else (some .inserted, { s with users := s.users ++ [{ id, phone_number, pin_hash := "" }] })
    | _, _ => (none, s)
  | .upsert_device id user_id fingerprint =>
    match Uuid.UUID_TO_BIN id, Uuid.UUID_TO_BIN user_id, Collation.varchar 255 fingerprint with
    | some id, some user_id, some device_fingerprint =>
      let known (d : Device) : Bool :=
        d.id == id ||
          d.user_id == user_id && env.coll.same d.device_fingerprint device_fingerprint
      if s.devices.any known then
        (some (), { s with
          devices := s.devices.map fun d => if known d then { d with last_seen_at := s.now } else d })
      else if s.users.any (·.id == user_id) then
        (some (), { s with
          devices := s.devices ++ [{ id, user_id, device_fingerprint, last_seen_at := s.now }] })
      else (none, s)
    | _, _, _ => (none, s)
  | .select_user_by_phone phone_number =>
    (some ((limit_one pick (s.users.filter fun u => env.coll.same u.phone_number phone_number)).map
      fun u => u.id.to_string), s)
  | .insert_otp id user_id code_hash expires_at =>
    match Uuid.UUID_TO_BIN id, Uuid.UUID_TO_BIN user_id, Collation.varchar 255 code_hash with
    | some id, some user_id, some code_hash =>
      if s.users.any (·.id == user_id) && !s.otp_codes.any (·.id == id) &&
          DateTime.storable expires_at.bind && s.now < expires_at.to_datetime then
        (some (), { s with
          otp_codes := s.otp_codes ++
            [{ id, user_id, code_hash, expires_at := expires_at.to_datetime, used_at := none
               created_at := s.now }] })
      else (none, s)
    | _, _, _ => (none, s)
  | .select_otp user_id =>
    match Uuid.UUID_TO_BIN user_id with
    | some user_id =>
      (some ((limit_one pick (s.latest_otps user_id)).map fun r =>
        ⟨r.id.to_string, r.code_hash, r.used_at⟩), s)
    | none => (none, s)
  | .use_otp id =>
    match Uuid.UUID_TO_BIN id with
    | some id => (some (), s.consume id)
    | none => (none, s)
  | .select_pin_hash user_id =>
    match Uuid.UUID_TO_BIN user_id with
    | some user_id => (some ((s.users.find? (·.id == user_id)).map (·.pin_hash)), s)
    | none => (none, s)
  | .update_pin_hash pin_hash user_id =>
    match Uuid.UUID_TO_BIN user_id, Collation.varchar 255 pin_hash with
    | some user_id, some pin_hash =>
      (some (), { s with
        users := s.users.map fun u => if u.id = user_id then { u with pin_hash } else u })
    | _, _ => (none, s)
  | .insert_session values =>
    match values.row with
    | some row =>
      if s.users.any (·.id == row.user_id) && !s.sessions.any (·.id == row.id) then
        (some (), { s with sessions := s.sessions ++ [row] })
      else (none, s)
    | none => (none, s)
  | .select_session selector =>
    (some ((limit_one pick (s.by_selector env selector)).map fun r =>
      ⟨r.id.to_string, r.user_id.to_string, r.refresh_token_hash, r.revoked_at⟩), s)
  | .revoke_session id =>
    match Uuid.UUID_TO_BIN id with
    | some id => (some (), s.revoke (·.id == id))
    | none => (none, s)
  | .revoke_user_sessions user_id =>
    match Uuid.UUID_TO_BIN user_id with
    | some user_id => (some (), s.revoke fun r => r.user_id == user_id && r.revoked_at.isNone)
    | none => (none, s)
  | .select_own_session id user_id =>
    match Uuid.UUID_TO_BIN id, Uuid.UUID_TO_BIN user_id with
    | some id, some user_id =>
      (some ((s.sessions.find? fun r =>
        r.id == id && r.user_id == user_id && r.revoked_at.isNone).map (·.access_token_jti)), s)
    | _, _ => (none, s)
  | .select_live_jtis user_id =>
    match Uuid.UUID_TO_BIN user_id with
    | some user_id =>
      (some ((s.sessions.filter fun r => r.user_id == user_id && r.revoked_at.isNone).map
        (·.access_token_jti)), s)
    | none => (none, s)
  | .revoke_by_jti jti user_id =>
    match Uuid.UUID_TO_BIN user_id with
    | some user_id =>
      (some (), s.revoke fun r =>
        (r.access_token_jti.any fun j => env.coll.same j jti) && r.user_id == user_id &&
          r.revoked_at.isNone)
    | none => (none, s)

/-- One operation. -/
def exec (ch : Choice) (s : Store) : (op : Op) → Option (op.Res × Store)
  | .sql q =>
    match ch.fault with
    | .none => some (q.run env ch.pick s)
    | .failed => some (none, s)
    | .lost => some (none, (q.run env ch.pick s).2)
  | .redis cmd =>
    match ch.fault with
    | .none => some (some (Redis.run s.clock s.redis cmd).1,
        { s with redis := (Redis.run s.clock s.redis cmd).2 })
    | .failed => some (none, s)
    | .lost => some (none, { s with redis := (Redis.run s.clock s.redis cmd).2 })
  | .utc_now => some (⟨s.clock⟩, s)
  | .now_v7 =>
    if ch.uuid ∈ s.minted then none else some (ch.uuid, { s with minted := ch.uuid :: s.minted })
  | .random_hex =>
    if ch.fault ≠ .none then some (none, s)
    else if ∃ old ∈ s.generated, env.coll.same (env.sha256_hex old) (env.sha256_hex ch.text) then
      none
    else some (some ch.text, { s with generated := ch.text :: s.generated })
  | .random_draws => some (ch.draws, s)
  | .salt => some (ch.text, s)
  | .sign => some (if ch.fault = .none then .ok () else .error ch.text, s)
  | .send_sms .. => some (if ch.fault = .none then some () else none, s)

/-- What the outside does. -/
def outside : Outside → Store → Option Store
  | .advance n, s => some { s with clock := s.clock + n }

/-- MySQL, Redis, the clock and the random sources behind kova-auth. -/
def machine : Machine Store Op Op.Res Choice Outside := ⟨fun _ => exec env, outside⟩

end Statements

end Kova.Auth

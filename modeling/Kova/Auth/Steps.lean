import Kova.Conc.History
import Kova.Auth.Handlers

/-!
# The steps of the handlers

Each handler of kova-auth walked once, by the histories of its calls and whatever the operations
answer: for each handler which operation it awaits after which history, and how it ends. The parts
that handlers share, the issuing of a pair, the check of a code and the caching of revocations, are
walked once for all of them.
-/

set_option autoImplicit false

namespace Kova.Auth

open Conc

/-- One operation of a call of kova-auth, with its result. -/
abbrev AuthDone := Done Op Op.Res

/-- One statement with its reply. -/
def did (q : Sql) (r : Option q.Res) : AuthDone := ⟨.sql q, r⟩

/-! ## Walking a program -/

section Walking

variable {env : Env} {α β : Type} {G : List AuthDone → Op → Prop} {h : List AuthDone}
  {Q : List AuthDone → Except Failure α → Prop}

theorem guarded_sql {q : Sql} {f : q.Res → Async α} (hop : G h (.sql q))
    (failed : Q (h ++ [did q none]) (.error (.error .Database)))
    (rest : ∀ r, Guarded G Q (f r) (h ++ [did q (some r)])) : Guarded G Q (sql q >>= f) h := by
  refine ⟨hop, ?_⟩
  intro r
  cases r with
  | none => exact failed
  | some r => exact rest r

theorem guarded_redis {cmd : Redis.Cmd} {f : cmd.Res → Async α} (hop : G h (.redis cmd))
    (failed : Q (h ++ [⟨.redis cmd, none⟩]) (.error (.error .Redis)))
    (rest : ∀ r, Guarded G Q (f r) (h ++ [⟨.redis cmd, some r⟩])) :
    Guarded G Q (redis cmd >>= f) h := by
  refine ⟨hop, ?_⟩
  intro r
  cases r with
  | none => exact failed
  | some r => exact rest r

theorem guarded_crypto {x : Except String β} {f : β → Async α}
    (failed : ∀ message, x = .error message → Q h (.error (.error (.Crypto message))))
    (rest : ∀ a, x = .ok a → Guarded G Q (f a) h) : Guarded G Q (crypto x >>= f) h := by
  cases x with
  | error message => exact failed message rfl
  | ok a => exact rest a rfl

theorem guarded_or_fail {x : Option β} {e : AuthError} {f : β → Async α}
    (failed : Q h (.error (.error e)))
    (rest : ∀ a, x = some a → Guarded G Q (f a) h) : Guarded G Q (or_fail e x >>= f) h := by
  cases x with
  | none => exact failed
  | some a => exact rest a rfl

/-- The extractor of an authenticated handler. -/
theorem guarded_auth_claims {auth : Jwt.AuthHeader} {f : KovaClaims → Async α} (hop : G h .utc_now)
    (failed : ∀ now e, Q (h ++ [⟨.utc_now, now⟩]) (.error e))
    (rest : ∀ now claims,
      AuthClaims.from_request_parts env.key (DateTime.timestamp now).toNat auth = .ok claims →
        Guarded G Q (f claims) (h ++ [⟨.utc_now, now⟩])) :
    Guarded G Q (auth_claims env.key auth >>= f) h := by
  apply guarded_await hop
  intro now
  cases hclaims :
      AuthClaims.from_request_parts env.key (DateTime.timestamp now).toNat auth with
  | error message =>
    simp only [Prog.bind, hclaims]
    exact failed _ _
  | ok claims =>
    simp only [Prog.bind, hclaims]
    exact rest now claims hclaims

end Walking

/-! ## What requests carry -/

/-- The Authorization header of a request whose handler extracts `AuthClaims`. -/
def Request.auth : Request → Option Jwt.AuthHeader
  | .biometric_challenge auth | .biometric_verify auth _ _ _ | .session_delete auth _
  | .sessions_revoke_all auth | .logout auth | .pin_set auth _ _ | .pin_change auth _ _ _ =>
    some auth
  | _ => none

def Request.refresh_token : Request → Option String
  | .token_refresh refresh_token _ => some refresh_token
  | _ => none

def Request.otp_code : Request → Option String
  | .otp_verify _ otp_code _ | .pin_set _ _ otp_code | .pin_change _ _ _ otp_code => some otp_code
  | _ => none

def Request.new_pin : Request → Option String
  | .pin_set _ new_pin _ | .pin_change _ _ new_pin _ => some new_pin
  | _ => none

/-- The requests that store a PIN. -/
def Request.sets_pin : Request → Bool
  | .pin_set .. | .pin_change .. => true
  | _ => false

/-- The requests whose handlers revoke and cache. -/
def Request.revokes : Request → Bool
  | .session_delete .. | .sessions_revoke_all _ | .logout _ => true
  | _ => false

/-- What a request asks of the PIN hash in force: for a PIN to be set there is none, for it to be
changed it is that of the PIN presented as the current one. -/
def Request.Allowed (env : Env) (pin_hash : String) : Request → Prop
  | .pin_set .. => pin_hash = ""
  | .pin_change _ current_pin .. =>
    pin_hash ≠ "" ∧ env.argon2_verify current_pin pin_hash = .ok true
  | _ => False

/-- The token of a call was accepted at `now`, with these claims. -/
def Accepted (env : Env) (auth : Jwt.AuthHeader) (now : DateTime) (claims : KovaClaims) : Prop :=
  AuthClaims.from_request_parts env.key now.timestamp.toNat auth = .ok claims

/-! ## Issuing a pair -/

/-- The operation reaches neither MySQL nor Redis nor a phone. -/
inductive Op.Inward : Op → Prop
  | now_v7 : Inward .now_v7
  | utc_now : Inward .utc_now
  | random_hex : Inward .random_hex
  | random_draws : Inward .random_draws
  | salt : Inward .salt
  | sign : Inward .sign

/-- No step of the call failed: every statement answered, the signature and the random token were
there, and the token could be hashed. -/
structure Faultless (env : Env) (h : List AuthDone) : Prop where
  answered : ∀ q, did q none ∉ h
  signed : ∀ message, ⟨.sign, .error message⟩ ∉ h
  drawn : ⟨.random_hex, none⟩ ∉ h
  hashed : ∀ raw salt, ⟨.random_hex, some raw⟩ ∈ h → ⟨.salt, salt⟩ ∈ h →
    ∃ hash, env.bcrypt_hash salt raw = .ok hash

theorem Faultless.mono {env : Env} {h h' : List AuthDone} (hf : Faultless env h') (sub : h ⊆ h') :
    Faultless env h :=
  ⟨fun q hq => hf.answered q (sub hq), fun m hm => hf.signed m (sub hm),
    fun hd => hf.drawn (sub hd), fun raw salt hr hs => hf.hashed raw salt (sub hr) (sub hs)⟩

/-- What the issuing of a pair draws and computes. -/
structure Issue where
  signed_at : DateTime
  jti : Uuid
  refresh_raw : String
  salt : String
  refresh_hash : String
  session_id : Uuid
  now : DateTime

def Issue.claims (x : Issue) (user_id : Uuid) (device_fingerprint : String) : KovaClaims where
  sub := user_id.to_string
  exp := (x.signed_at.timestamp + ACCESS_TTL_SECS).toNat
  iat := x.signed_at.timestamp.toNat
  jti := x.jti.to_string
  iss := "kova-auth"
  kova_device_id := some device_fingerprint

section Issuing

variable (env : Env) (user_id : Uuid) (device_fingerprint : String) (h : List AuthDone)

def Issue.pair (x : Issue) : TokenPair where
  access_token := ⟨⟨.RS256, none⟩, (x.claims user_id device_fingerprint).payload, env.key⟩
  refresh_token := x.refresh_raw
  expires_in := ACCESS_TTL_SECS.toNat

def Issue.session (x : Issue) : SessionInsert where
  id := x.session_id.to_string
  user_id := user_id.to_string
  refresh_token_hash := x.refresh_hash
  token_selector := env.sha256_hex x.refresh_raw
  access_token_jti := x.jti.to_string
  device_fingerprint
  expires_at := ⟨x.now.nanos + REFRESH_TTL_SECS * 1000000000⟩

/-- What comes before the INSERT, after `h`. -/
def Issue.done (x : Issue) : List AuthDone :=
  h ++ [⟨.utc_now, x.signed_at⟩] ++ [⟨.now_v7, x.jti⟩] ++ [⟨.sign, .ok ()⟩] ++
    [⟨.random_hex, some x.refresh_raw⟩] ++ [⟨.salt, x.salt⟩] ++ [⟨.now_v7, x.session_id⟩] ++
      [⟨.utc_now, x.now⟩]

inductive IssuingStep : List AuthDone → Op → Prop
  | inward {h' : List AuthDone} {op : Op} (inward : op.Inward) : IssuingStep h' op
  | insert {x : Issue} (hashed : env.bcrypt_hash x.salt x.refresh_raw = .ok x.refresh_hash) :
      IssuingStep (x.done h) (.sql (.insert_session (x.session env user_id device_fingerprint)))

inductive IssuingEnd : List AuthDone → Except Failure TokenPair → Prop
  | failed {h' : List AuthDone} {e : Failure} (grown : h <+: h') (faulty : ¬ Faultless env h') :
      IssuingEnd h' (.error e)
  | issued {x : Issue} (hashed : env.bcrypt_hash x.salt x.refresh_raw = .ok x.refresh_hash) :
      IssuingEnd
        (x.done h ++ [did (.insert_session (x.session env user_id device_fingerprint)) (some ())])
        (.ok (x.pair env user_id device_fingerprint))

theorem issue_token_pair_steps :
    Guarded (IssuingStep env user_id device_fingerprint h)
      (IssuingEnd env user_id device_fingerprint h)
      (issue_token_pair env user_id device_fingerprint) h := by
  apply guarded_await (.inward .utc_now)
  intro signed_at
  apply guarded_await (.inward .now_v7)
  intro jti
  apply guarded_await (.inward .sign)
  intro signed
  cases signed with
  | error message => exact .failed (by simp) fun hf => hf.signed message (by simp)
  | ok _ =>
    apply guarded_await (.inward .random_hex)
    intro raw
    cases raw with
    | none => exact .failed (by simp) fun hf => hf.drawn (by simp)
    | some refresh_raw =>
      apply guarded_await (.inward .salt)
      intro salt
      apply guarded_crypto
      · intro message hmessage
        refine .failed (by simp) fun hf => ?_
        obtain ⟨hash, hhash⟩ := hf.hashed refresh_raw salt (by simp) (by simp)
        rw [hmessage] at hhash
        cases hhash
      · intro refresh_hash hashed
        apply guarded_await (.inward .now_v7)
        intro session_id
        apply guarded_await (.inward .utc_now)
        intro now
        let x : Issue := { signed_at, jti, refresh_raw, salt, refresh_hash, session_id, now }
        refine guarded_sql (.insert (x := x) hashed) ?_ fun _ => .issued (x := x) hashed
        exact .failed (by simp) fun hf => hf.answered _ (List.mem_append_right _ List.mem_cons_self)

variable {env user_id device_fingerprint h}

theorem Issue.grown (x : Issue) : h <+: x.done h := by
  simp [Issue.done]

theorem IssuingEnd.grown {h' : List AuthDone} {r : Except Failure TokenPair}
    (ends : IssuingEnd env user_id device_fingerprint h h' r) : h <+: h' := by
  cases ends with
  | failed grown => exact grown
  | issued => exact (Issue.grown _).trans (List.prefix_append _ _)

variable (env user_id device_fingerprint h)

/-- The same at the end of a handler. -/
theorem issued_steps :
    Guarded (IssuingStep env user_id device_fingerprint h)
      (fun h' r => ∃ r', IssuingEnd env user_id device_fingerprint h h' r' ∧
        r = r'.map Response.tokens)
      (issue_token_pair env user_id device_fingerprint >>= fun pair => pure (.tokens pair)) h := by
  refine Guarded.bind ?_ ?_ (issue_token_pair_steps env user_id device_fingerprint h)
  · intro h' e ends
    exact ⟨.error e, ends, rfl⟩
  · intro h' pair ends
    exact ⟨.ok pair, ends, rfl⟩

end Issuing

/-! ## The check of a code -/

section Check

variable (env : Env) (user_id otp_code : String) (h : List AuthDone)

/-- A code was read, and its UPDATE executed. -/
def check_done (row : OtpRow) (used : Option Unit) : List AuthDone :=
  h ++ [did (.select_otp user_id) (some (some row))] ++ [did (.use_otp row.otp_id) used]

variable {user_id h} in
theorem mem_check_done {row : OtpRow} {used : Option Unit} :
    did (.select_otp user_id) (some (some row)) ∈ check_done user_id h row used ∧
      did (.use_otp row.otp_id) used ∈ check_done user_id h row used :=
  ⟨List.mem_append_left _ (List.mem_append_right _ List.mem_cons_self),
    List.mem_append_right _ List.mem_cons_self⟩

inductive CheckStep : List AuthDone → Op → Prop
  | read : CheckStep h (.sql (.select_otp user_id))
  | use {row : OtpRow} (verified : env.bcrypt_verify otp_code row.code_hash = .ok true) :
      CheckStep (h ++ [did (.select_otp user_id) (some (some row))]) (.sql (.use_otp row.otp_id))

inductive CheckEnd : List AuthDone → Except Failure Unit → Prop
  | refused {found : Option (Option OtpRow)} {e : Failure}
      (unverified : ∀ row, found = some (some row) → row.used_at = none →
        env.bcrypt_verify otp_code row.code_hash ≠ .ok true) :
      CheckEnd (h ++ [did (.select_otp user_id) found]) (.error e)
  | unanswered {row : OtpRow} {e : Failure} : CheckEnd (check_done user_id h row none) (.error e)
  | used {row : OtpRow} (verified : env.bcrypt_verify otp_code row.code_hash = .ok true) :
      CheckEnd (check_done user_id h row (some ())) (.ok ())

/-- The verification of the code against the row that was read, at the end of a check. -/
theorem verified_steps {α : Type} {G : List AuthDone → Op → Prop}
    {Q : List AuthDone → Except Failure α → Prop} {k : Async α} {row : OtpRow}
    (failed : ∀ h' e, CheckEnd env user_id otp_code h h' (.error e) → Q h' (.error e))
    (rest : env.bcrypt_verify otp_code row.code_hash = .ok true →
      Guarded G Q k (h ++ [did (.select_otp user_id) (some (some row))])) :
    Guarded G Q
      (verify_otp env.toPrimitives otp_code row.code_hash >>= fun ok =>
        if !ok then fail .OtpInvalidOrExpired else k)
      (h ++ [did (.select_otp user_id) (some (some row))]) := by
  have refused : env.bcrypt_verify otp_code row.code_hash ≠ .ok true → ∀ e,
      Q (h ++ [did (.select_otp user_id) (some (some row))]) (.error e) := by
    intro hno e
    refine failed _ _ (.refused ?_)
    rintro row' ⟨⟩ _
    exact hno
  apply guarded_crypto
  · intro message hmessage
    exact refused (by simp [hmessage]) _
  · intro ok hok
    cases ok with
    | false => exact refused (by simp [hok]) _
    | true => exact rest hok

theorem verify_otp_for_user_steps :
    Guarded (CheckStep env user_id otp_code h) (CheckEnd env user_id otp_code h)
      (verify_otp_for_user env user_id otp_code) h := by
  apply guarded_sql .read (.refused (by simp))
  intro found
  cases found with
  | none => exact .refused (by rintro row ⟨⟩)
  | some row =>
    refine verified_steps env user_id otp_code h (fun _ _ ends => ends) ?_
    intro verified
    apply guarded_await (.use verified)
    rintro (_ | _)
    · exact .unanswered
    · exact .used verified

end Check

/-! ## handlers/register.rs -/

inductive RegistrationStep (env : Env) (phone_number device_fingerprint : String) :
    List AuthDone → Op → Prop
  | inward {h : List AuthDone} {op : Op} (inward : op.Inward) :
      RegistrationStep env phone_number device_fingerprint h op
  | insert {user_id : Uuid} {phone : String} (canonical : env.e164 phone_number = some phone) :
      RegistrationStep env phone_number device_fingerprint [⟨.now_v7, user_id⟩]
        (.sql (.insert_user user_id.to_string phone))
  | device {user_id device_id : Uuid} {phone : String} :
      RegistrationStep env phone_number device_fingerprint
        [⟨.now_v7, user_id⟩, did (.insert_user user_id.to_string phone) (some .inserted),
          ⟨.now_v7, device_id⟩]
        (.sql (.upsert_device device_id.to_string user_id.to_string device_fingerprint))

inductive RegistrationEnd : List AuthDone → Except Failure Response → Prop
  | failed {h : List AuthDone} {e : Failure} : RegistrationEnd h (.error e)
  | registered {h : List AuthDone} {user_id phone : String} :
      RegistrationEnd h (.ok (.registered user_id phone))

theorem register_steps (env : Env) (phone_number device_fingerprint : String) :
    Guarded (RegistrationStep env phone_number device_fingerprint) RegistrationEnd
      (register env phone_number device_fingerprint) [] := by
  unfold register validate_e164
  cases canonical : env.e164 phone_number with
  | none => exact .failed
  | some phone =>
    apply guarded_await (.inward .now_v7)
    intro user_id
    apply guarded_sql (.insert canonical) .failed
    intro result
    cases result with
    | unique_violation => exact .failed
    | inserted =>
      apply guarded_await (.inward .now_v7)
      intro device_id
      exact guarded_sql .device .failed fun _ => .registered

/-! ## handlers/otp.rs -/

/-- The reading of the counter of a phone number, its increment, and the sending of a code. -/
def reading (phone_number : String) (reply : Option (Option String)) : AuthDone :=
  ⟨.redis (.get (rl_key phone_number)), reply⟩

def incrementing (phone_number : String) (reply : Option (Option Int)) : AuthDone :=
  ⟨.redis (.incr (rl_key phone_number) 1), reply⟩

def sending (phone_number otp : String) : AuthDone := ⟨.send_sms phone_number otp, some ()⟩

/-- The count that a reply to the reading stands for. -/
def counted_as : Option (Option String) → Int
  | some (some value) => (Redis.integer value).getD 0
  | _ => 0

/-- What a request for a code has read, drawn and computed. -/
structure Draft where
  reply : Option (Option String)
  user_id : String
  draws : List UInt32
  draw : UInt32
  salt : String
  code_hash : String
  otp_id : Uuid
  now : DateTime

def Draft.otp (x : Draft) : String := six_digits (x.draw.toNat % 1000000)

def Draft.expires_at (x : Draft) : DateTime := ⟨x.now.nanos + OTP_EXPIRY_SECS * 1000000000⟩

/-- The code was stored. -/
def Draft.stored (x : Draft) : AuthDone :=
  did (.insert_otp x.otp_id.to_string x.user_id x.code_hash x.expires_at) (some ())

/-- What comes before that. -/
def Draft.done (phone_number : String) (x : Draft) : List AuthDone :=
  [reading phone_number x.reply, did (.select_user_by_phone phone_number) (some (some x.user_id)),
    ⟨.random_draws, x.draws⟩, ⟨.salt, x.salt⟩, ⟨.now_v7, x.otp_id⟩, ⟨.utc_now, x.now⟩]

/-- The count was below the limit, and the code is the first draw that passes. -/
structure Draft.Sound (env : Env) (x : Draft) : Prop where
  below : counted_as x.reply < OTP_RATE_LIMIT
  drawn : x.draws.find? (fun n => n < OTP_REJECT_THRESHOLD) = some x.draw
  hashed : env.bcrypt_hash x.salt x.otp = .ok x.code_hash

inductive CodeStep (env : Env) (phone_number : String) : List AuthDone → Op → Prop
  | inward {h : List AuthDone} {op : Op} (inward : op.Inward) :
      CodeStep env phone_number h op
  | count : CodeStep env phone_number [] (.redis (.get (rl_key phone_number)))
  | user {reply : Option (Option String)} :
      CodeStep env phone_number [reading phone_number reply]
        (.sql (.select_user_by_phone phone_number))
  | store {x : Draft} (sound : x.Sound env) :
      CodeStep env phone_number (x.done phone_number)
        (.sql (.insert_otp x.otp_id.to_string x.user_id x.code_hash x.expires_at))
  | send {x : Draft} (sound : x.Sound env) :
      CodeStep env phone_number (x.done phone_number ++ [x.stored])
        (.send_sms phone_number x.otp)
  | increment {x : Draft} (sound : x.Sound env) :
      CodeStep env phone_number
        (x.done phone_number ++ [x.stored] ++ [sending phone_number x.otp])
        (.redis (.incr (rl_key phone_number) 1))
  | expire {x : Draft} (sound : x.Sound env) :
      CodeStep env phone_number
        (x.done phone_number ++ [x.stored] ++ [sending phone_number x.otp] ++
          [incrementing phone_number (some (some 1))])
        (.redis (.expire (rl_key phone_number) OTP_RATE_WINDOW_SECS))

inductive CodeEnd : List AuthDone → Except Failure Response → Prop
  | failed {h : List AuthDone} {e : Failure} : CodeEnd h (.error e)
  | sent {h : List AuthDone} {text : String} : CodeEnd h (.ok (.message text))

theorem otp_request_steps (env : Env) (phone_number device_fingerprint : String) :
    Guarded (CodeStep env phone_number) CodeEnd
      (otp_request env phone_number device_fingerprint) [] := by
  refine Guarded.bind (R := fun h r => ∃ reply count, h = [reading phone_number reply] ∧
    r = .ok count ∧ count.getD 0 = counted_as reply) ?_ ?_ ?_
  · rintro h e ⟨_, _, _, ⟨⟩, _⟩
  · rintro h count ⟨reply, _, rfl, ⟨⟩, hcount⟩
    split
    · exact .failed
    · next hbelow =>
      apply guarded_sql .user .failed
      intro row
      apply guarded_or_fail .failed
      rintro user_id rfl
      apply guarded_await (.inward .random_draws)
      intro draws
      cases drawn : List.find? (fun n => n < OTP_REJECT_THRESHOLD) draws with
      | none =>
        simp only [drawn]
        exact .failed
      | some draw =>
        simp only [drawn]
        apply guarded_await (.inward .salt)
        intro salt
        apply guarded_crypto (fun _ _ => .failed)
        intro code_hash hashed
        apply guarded_await (.inward .now_v7)
        intro otp_id
        apply guarded_await (.inward .utc_now)
        intro now
        let x : Draft := { reply, user_id, draws, draw, salt, code_hash, otp_id, now }
        have sound : x.Sound env := ⟨hcount ▸ Int.not_le.mp hbelow, drawn, hashed⟩
        refine guarded_sql (.store sound) .failed ?_
        intro stored
        refine guarded_await (.send sound) ?_
        intro sent
        cases sent with
        | none => exact .failed
        | some sent =>
          refine guarded_await (.increment sound) ?_
          rintro (_ | _ | new_count)
          · exact .failed
          · exact .failed
          · simp only [Prog.bind]
            split
            · next hone =>
              subst hone
              refine guarded_await (.expire sound) ?_
              intro _
              exact .sent
            · exact .sent
  · refine guarded_await .count ?_
    rintro (_ | _ | value)
    · exact ⟨_, _, rfl, rfl, rfl⟩
    · exact ⟨_, _, rfl, rfl, rfl⟩
    · exact ⟨_, _, rfl, rfl, rfl⟩

/-- What a login has done when its check begins. -/
def login_read (phone_number user_id : String) : List AuthDone :=
  [did (.select_user_by_phone phone_number) (some (some user_id))]

inductive LoginStep (env : Env) (phone_number otp_code device_fingerprint : String) :
    List AuthDone → Op → Prop
  | user : LoginStep env phone_number otp_code device_fingerprint []
      (.sql (.select_user_by_phone phone_number))
  | check {user_id : String} {h : List AuthDone} {op : Op}
      (step : CheckStep env user_id otp_code (login_read phone_number user_id) h op) :
      LoginStep env phone_number otp_code device_fingerprint h op
  | issue {user_id : String} {row : OtpRow} {u : Uuid} {h : List AuthDone} {op : Op}
      (verified : env.bcrypt_verify otp_code row.code_hash = .ok true)
      (parsed : Uuid.parse_str user_id = some u)
      (step : IssuingStep env u device_fingerprint
        (check_done user_id (login_read phone_number user_id) row (some ())) h op) :
      LoginStep env phone_number otp_code device_fingerprint h op

inductive LoginEnd (env : Env) (phone_number otp_code device_fingerprint : String) :
    List AuthDone → Except Failure Response → Prop
  | unknown {found : Option (Option String)} {e : Failure} :
      LoginEnd env phone_number otp_code device_fingerprint
        [did (.select_user_by_phone phone_number) found] (.error e)
  | unchecked {user_id : String} {h : List AuthDone} {e : Failure}
      (ends : CheckEnd env user_id otp_code (login_read phone_number user_id) h (.error e)) :
      LoginEnd env phone_number otp_code device_fingerprint h (.error e)
  | unissued {user_id : String} {row : OtpRow} {e : Failure} :
      LoginEnd env phone_number otp_code device_fingerprint
        (check_done user_id (login_read phone_number user_id) row (some ())) (.error e)
  | issue {user_id : String} {row : OtpRow} {u : Uuid} {h : List AuthDone}
      {r : Except Failure TokenPair}
      (ends : IssuingEnd env u device_fingerprint
        (check_done user_id (login_read phone_number user_id) row (some ())) h r) :
      LoginEnd env phone_number otp_code device_fingerprint h (r.map .tokens)

theorem otp_verify_steps (env : Env) (phone_number otp_code device_fingerprint : String) :
    Guarded (LoginStep env phone_number otp_code device_fingerprint)
      (LoginEnd env phone_number otp_code device_fingerprint)
      (otp_verify env phone_number otp_code device_fingerprint) [] := by
  apply guarded_sql .user .unknown
  intro user_row
  apply guarded_or_fail .unknown
  rintro user_id rfl
  apply guarded_sql (.check .read) (.unchecked (.refused (by simp)))
  intro found
  cases found with
  | none => exact .unchecked (.refused (by rintro row ⟨⟩))
  | some row =>
    simp only [or_fail, Prog.ret_bind]
    split
    · next hsome =>
      refine .unchecked (.refused ?_)
      rintro row' ⟨⟩ hnull
      rw [hnull] at hsome
      cases hsome
    · refine verified_steps env user_id otp_code (login_read phone_number user_id)
        (fun _ _ ends => .unchecked ends) ?_
      intro verified
      apply guarded_sql (.check (.use verified)) (.unchecked .unanswered)
      intro used
      apply guarded_or_fail .unissued
      intro u parsed
      refine (issued_steps env u device_fingerprint _).mono
        (fun _ _ step => .issue verified parsed step) ?_
      rintro h _ ⟨r, ends, rfl⟩
      exact .issue ends

/-! ## handlers/token.rs -/

/-- What a rotation has done when it has read its row. -/
def rotation_read (env : Env) (refresh_token : String) (row : SessionRow) : List AuthDone :=
  [did (.select_session (env.sha256_hex refresh_token)) (some (some row))]

/-- The row is the presented token's, and it is live. -/
structure Live (env : Env) (refresh_token : String) (row : SessionRow) : Prop where
  verified : env.bcrypt_verify refresh_token row.refresh_token_hash = .ok true
  live : row.revoked_at = none

inductive RotationStep (env : Env) (refresh_token device_fingerprint : String) :
    List AuthDone → Op → Prop
  | read : RotationStep env refresh_token device_fingerprint []
      (.sql (.select_session (env.sha256_hex refresh_token)))
  | detect {row : SessionRow}
      (verified : env.bcrypt_verify refresh_token row.refresh_token_hash = .ok true)
      (revoked : row.revoked_at.isSome) :
      RotationStep env refresh_token device_fingerprint (rotation_read env refresh_token row)
        (.sql (.revoke_user_sessions row.user_id_str))
  | revoke {row : SessionRow} (live : Live env refresh_token row) :
      RotationStep env refresh_token device_fingerprint (rotation_read env refresh_token row)
        (.sql (.revoke_session row.session_id))
  | issue {row : SessionRow} {u : Uuid} {h : List AuthDone} {op : Op}
      (live : Live env refresh_token row) (parsed : Uuid.parse_str row.user_id_str = some u)
      (step : IssuingStep env u device_fingerprint
        (rotation_read env refresh_token row ++ [did (.revoke_session row.session_id) (some ())])
        h op) :
      RotationStep env refresh_token device_fingerprint h op

inductive RotationEnd (env : Env) (refresh_token device_fingerprint : String) :
    List AuthDone → Except Failure TokenPair → Prop
  | refused {found : Option (Option SessionRow)} {e : Failure}
      (unverified : ∀ row, found = some (some row) →
        env.bcrypt_verify refresh_token row.refresh_token_hash ≠ .ok true) :
      RotationEnd env refresh_token device_fingerprint
        [did (.select_session (env.sha256_hex refresh_token)) found] (.error e)
  | detected {row : SessionRow} {reply : Option Unit} {e : Failure}
      (reuse : reply = some () → e = .error .RefreshTokenReuse) :
      RotationEnd env refresh_token device_fingerprint
        (rotation_read env refresh_token row ++
          [did (.revoke_user_sessions row.user_id_str) reply]) (.error e)
  | unissued {row : SessionRow} {reply : Option Unit} {e : Failure}
      (live : Live env refresh_token row) :
      RotationEnd env refresh_token device_fingerprint
        (rotation_read env refresh_token row ++ [did (.revoke_session row.session_id) reply])
        (.error e)
  | issue {row : SessionRow} {u : Uuid} {h : List AuthDone} {r : Except Failure TokenPair}
      (live : Live env refresh_token row) (parsed : Uuid.parse_str row.user_id_str = some u)
      (ends : IssuingEnd env u device_fingerprint
        (rotation_read env refresh_token row ++ [did (.revoke_session row.session_id) (some ())])
        h r) :
      RotationEnd env refresh_token device_fingerprint h r

theorem rotate_refresh_token_steps (env : Env) (refresh_token device_fingerprint : String) :
    Guarded (RotationStep env refresh_token device_fingerprint)
      (RotationEnd env refresh_token device_fingerprint)
      (rotate_refresh_token env refresh_token device_fingerprint) [] := by
  apply guarded_sql .read (.refused (by simp))
  intro found
  cases found with
  | none => exact .refused (by rintro row ⟨⟩)
  | some row =>
    apply guarded_crypto
    · intro message hmessage
      refine .refused ?_
      rintro row' ⟨⟩
      rw [hmessage]
      rintro ⟨⟩
    · intro ok verified
      cases ok with
      | false =>
        refine .refused ?_
        rintro row' ⟨⟩
        rw [verified]
        rintro ⟨⟩
      | true =>
        cases hrev : row.revoked_at with
        | some at_ =>
          have revoked : row.revoked_at.isSome := by rw [hrev]; rfl
          apply guarded_sql (.detect verified revoked) (.detected (by rintro ⟨⟩))
          intro _
          exact .detected fun _ => rfl
        | none =>
          have live : Live env refresh_token row := ⟨verified, hrev⟩
          apply guarded_sql (.revoke live) (.unissued live)
          intro _
          cases parsed : Uuid.parse_str row.user_id_str with
          | none => exact .unissued live
          | some u =>
            exact (issue_token_pair_steps env u device_fingerprint _).mono
              (fun _ _ step => .issue live parsed step) fun _ _ ends => .issue live parsed ends

/-! ## handlers/biometric.rs -/

/-- What a biometric login has done when it has taken the presented challenge. -/
def challenge_taken (claims : KovaClaims) (now : DateTime) (challenge_token : String) :
    List AuthDone :=
  [⟨.utc_now, now⟩, ⟨.redis (.get_del (challenge_key claims.sub)), some (some challenge_token)⟩]

inductive BiometricStep (env : Env) (claims : KovaClaims) (now : DateTime)
    (challenge_token device_fingerprint : String) : List AuthDone → Op → Prop
  | take : BiometricStep env claims now challenge_token device_fingerprint [⟨.utc_now, now⟩]
      (.redis (.get_del (challenge_key claims.sub)))
  | issue {u : Uuid} {h : List AuthDone} {op : Op} (parsed : Uuid.parse_str claims.sub = some u)
      (step : IssuingStep env u device_fingerprint (challenge_taken claims now challenge_token)
        h op) :
      BiometricStep env claims now challenge_token device_fingerprint h op

inductive BiometricEnd (env : Env) (claims : KovaClaims) (now : DateTime)
    (challenge_token device_fingerprint : String) :
    List AuthDone → Except Failure Response → Prop
  | refused {h : List AuthDone} {e : Failure} :
      BiometricEnd env claims now challenge_token device_fingerprint h (.error e)
  | issue {u : Uuid} {h : List AuthDone} {r : Except Failure TokenPair}
      (ends : IssuingEnd env u device_fingerprint (challenge_taken claims now challenge_token)
        h r) :
      BiometricEnd env claims now challenge_token device_fingerprint h (r.map .tokens)

theorem biometric_verify_steps (env : Env) (claims : KovaClaims) (now : DateTime)
    (challenge_token biometric_signature device_fingerprint : String) :
    Guarded (BiometricStep env claims now challenge_token device_fingerprint)
      (BiometricEnd env claims now challenge_token device_fingerprint)
      (biometric_verify env claims challenge_token biometric_signature device_fingerprint)
      [⟨.utc_now, now⟩] := by
  apply guarded_redis .take .refused
  intro stored
  split
  · exact .refused
  · next hstored =>
    obtain rfl := not_not.mp hstored
    apply guarded_or_fail .refused
    intro u parsed
    refine (issued_steps env u device_fingerprint _).mono
      (fun _ _ step => .issue parsed step) ?_
    rintro h _ ⟨r, ends, rfl⟩
    exact .issue ends

/-! ## handlers/device.rs -/

/-- The key of a revocation, and the command that caches it. -/
def revoked_key (jti : String) : String := "kova:revoked:jti:" ++ jti

def revoking (jti : String) : Redis.Cmd := .set_ex (revoked_key jti) "1" REVOCATION_CACHE_SECS

/-- The identifier was cached. -/
def Cached (h : List AuthDone) (jti : String) : Prop :=
  ∃ reply, (⟨.redis (revoking jti), reply⟩ : AuthDone) ∈ h

/-- What the loop over the identifiers of some rows has done: it cached them. -/
structure Caching (rows : List (Option String)) (new : List AuthDone) : Prop where
  only : ∀ x ∈ new, ∃ jti, x.op = .redis (revoking jti)
  all : ∀ jti, some jti ∈ rows → Cached new jti

theorem cache_revoked_jtis_steps : ∀ (rows : List (Option String)) (h : List AuthDone),
    Guarded (fun _ op => ∃ jti, op = .redis (revoking jti))
      (fun h' r => r = .ok () ∧ ∃ new, h' = h ++ new ∧ Caching rows new)
      (cache_revoked_jtis rows) h
  | [], h => ⟨rfl, [], (List.append_nil h).symm, by simp, by simp⟩
  | none :: rows, h => by
    refine (cache_revoked_jtis_steps rows h).mono (fun _ _ hop => hop) ?_
    rintro h' r ⟨hr, new, hnew, caching⟩
    refine ⟨hr, new, hnew, caching.only, ?_⟩
    intro jti hjti
    exact caching.all jti (by simpa using hjti)
  | some jti :: rows, h => by
    apply guarded_await ⟨jti, rfl⟩
    intro reply
    refine (cache_revoked_jtis_steps rows _).mono (fun _ _ hop => hop) ?_
    rintro h' r ⟨hr, new, hnew, caching⟩
    refine ⟨hr, ⟨.redis (revoking jti), reply⟩ :: new, ?_, ?_, ?_⟩
    · rw [hnew, List.append_assoc]
      rfl
    · intro x hx
      rcases List.mem_cons.mp hx with rfl | hx
      · exact ⟨jti, rfl⟩
      · exact caching.only x hx
    · intro jti' hjti'
      rcases List.mem_cons.mp hjti' with heq | hjti'
      · cases heq
        exact ⟨reply, List.mem_cons_self⟩
      · obtain ⟨reply', hmem⟩ := caching.all jti' hjti'
        exact ⟨reply', List.mem_cons_of_mem _ hmem⟩

/-- The same at the end of a handler. -/
theorem cached_steps {Q : List AuthDone → Except Failure Response → Prop}
    {G : List AuthDone → Op → Prop} (cache : ∀ h jti, G h (.redis (revoking jti)))
    (rows : List (Option String)) {text : String} (h : List AuthDone)
    (ends : ∀ new, Caching rows new → Q (h ++ new) (.ok (.message text))) :
    Guarded G Q (cache_revoked_jtis rows >>= fun _ => pure (.message text)) h := by
  refine Guarded.bind ?_ ?_ ((cache_revoked_jtis_steps rows h).mono ?_ fun _ _ ends => ends)
  · rintro h' e ⟨⟨⟩, _⟩
  · rintro h' _ ⟨_, new, rfl, caching⟩
    exact ends new caching
  · rintro h' _ ⟨jti, rfl⟩
    exact cache h' jti

/-! ## handlers/pin.rs -/

/-- What `validate_pin_format` accepts. -/
def PinFormat (pin : String) : Prop :=
  4 ≤ pin.utf8ByteSize ∧ pin.utf8ByteSize ≤ 6 ∧ pin.toList.all Char.isDigit

/-- What a PIN handler has done when its check of a code begins. -/
def pin_read (claims : KovaClaims) (now : DateTime) (pin_hash : String) : List AuthDone :=
  [⟨.utc_now, now⟩, did (.select_pin_hash claims.sub) (some (some pin_hash))]

/-- The PIN hash in force allows the request, and the new PIN is one. -/
structure Sets (env : Env) (req : Request) (pin_hash new_pin : String) : Prop where
  allowed : req.Allowed env pin_hash
  format : PinFormat new_pin

section Pin

variable (env : Env) (req : Request) (claims : KovaClaims) (now : DateTime)
  (new_pin otp_code : String)

inductive PinStep : List AuthDone → Op → Prop
  | read : PinStep [⟨.utc_now, now⟩] (.sql (.select_pin_hash claims.sub))
  | check {pin_hash : String} {h : List AuthDone} {op : Op} (sets : Sets env req pin_hash new_pin)
      (step : CheckStep env claims.sub otp_code (pin_read claims now pin_hash) h op) :
      PinStep h op
  | salt {pin_hash : String} {row : OtpRow} :
      PinStep (check_done claims.sub (pin_read claims now pin_hash) row (some ())) .salt
  | store {pin_hash salt new_hash : String} {row : OtpRow} (sets : Sets env req pin_hash new_pin)
      (verified : env.bcrypt_verify otp_code row.code_hash = .ok true)
      (hashed : env.argon2_hash salt new_pin = .ok new_hash) :
      PinStep
        (check_done claims.sub (pin_read claims now pin_hash) row (some ()) ++ [⟨.salt, salt⟩])
        (.sql (.update_pin_hash new_hash claims.sub))

inductive PinEnd : List AuthDone → Except Failure Response → Prop
  | invalid {e : Failure} : PinEnd [⟨.utc_now, now⟩] (.error e)
  | refused {found : Option (Option String)} {e : Failure} :
      PinEnd [⟨.utc_now, now⟩, did (.select_pin_hash claims.sub) found] (.error e)
  | unchecked {pin_hash : String} {h : List AuthDone} {e : Failure}
      (ends : CheckEnd env claims.sub otp_code (pin_read claims now pin_hash) h (.error e)) :
      PinEnd h (.error e)
  | unhashed {pin_hash salt : String} {row : OtpRow} {e : Failure} :
      PinEnd
        (check_done claims.sub (pin_read claims now pin_hash) row (some ()) ++ [⟨.salt, salt⟩])
        (.error e)
  | unstored {pin_hash salt new_hash : String} {row : OtpRow} {e : Failure} :
      PinEnd
        (check_done claims.sub (pin_read claims now pin_hash) row (some ()) ++ [⟨.salt, salt⟩] ++
          [did (.update_pin_hash new_hash claims.sub) none]) (.error e)
  | stored {pin_hash salt new_hash text : String} {row : OtpRow} :
      PinEnd
        (check_done claims.sub (pin_read claims now pin_hash) row (some ()) ++ [⟨.salt, salt⟩] ++
          [did (.update_pin_hash new_hash claims.sub) (some ())]) (.ok (.message text))

variable {env req claims now new_pin otp_code}

/-- The end of the PIN handlers. -/
theorem store_pin_steps {pin_hash text : String} (sets : Sets env req pin_hash new_pin) :
    Guarded (PinStep env req claims now new_pin otp_code) (PinEnd env claims now otp_code)
      (do
        verify_otp_for_user env claims.sub otp_code
        let new_hash ← hash_pin env.toPrimitives new_pin
        sql (.update_pin_hash new_hash claims.sub)
        pure (Response.message text)) (pin_read claims now pin_hash) := by
  refine Guarded.bind ?_ ?_ ((verify_otp_for_user_steps env claims.sub otp_code
    (pin_read claims now pin_hash)).mono (fun _ _ step => .check sets step) fun _ _ ends => ends)
  · intro h e ends
    exact .unchecked ends
  · rintro h ⟨⟩ (_ | _ | verified)
    apply guarded_await .salt
    intro salt
    apply guarded_crypto fun _ _ => .unhashed
    intro new_hash hashed
    apply guarded_sql (.store sets verified hashed) .unstored
    intro _
    exact .stored

theorem pin_set_steps {auth : Jwt.AuthHeader} :
    Guarded (PinStep env (.pin_set auth new_pin otp_code) claims now new_pin otp_code)
      (PinEnd env claims now otp_code) (pin_set env claims new_pin otp_code)
      [⟨.utc_now, now⟩] := by
  unfold pin_set validate_pin_format
  split
  · next format =>
    apply guarded_sql .read .refused
    intro row
    apply guarded_or_fail .refused
    rintro pin_hash rfl
    split
    · exact .refused
    · next hempty => exact store_pin_steps ⟨by simpa [Request.Allowed] using hempty, format⟩
  · exact .invalid

theorem pin_change_steps {auth : Jwt.AuthHeader} {current_pin : String} :
    Guarded
      (PinStep env (.pin_change auth current_pin new_pin otp_code) claims now new_pin otp_code)
      (PinEnd env claims now otp_code) (pin_change env claims current_pin new_pin otp_code)
      [⟨.utc_now, now⟩] := by
  unfold pin_change validate_pin_format
  split
  · next format =>
    apply guarded_sql .read .refused
    intro row
    apply guarded_or_fail .refused
    rintro pin_hash rfl
    split
    · exact .refused
    · next hempty =>
      rw [verify_pin, Bool.eq_false_iff.mpr hempty]
      apply guarded_crypto fun _ _ => .refused
      intro ok verified
      cases ok with
      | false => exact .refused
      | true =>
        refine store_pin_steps ⟨⟨?_, verified⟩, format⟩
        rintro rfl
        exact hempty rfl
  · exact .invalid

end Pin

end Kova.Auth

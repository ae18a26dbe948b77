import Mathlib.Logic.Basic

/-!
# Signed tokens

JSON web tokens as the `jsonwebtoken` crate decodes them. A token is the three parts it
consists of, together with the key that made its signature; signatures are taken to be sound,
so a token verifies under a key exactly when that key made it. `decode` checks in the crate's
order: the algorithm, the signature, the claims the caller wants to read, then `exp`, `iss`
and `aud`.

- `accepts_iff`: when a token is accepted, in one line.
-/

namespace Jwt

/-- An RSA key pair, by number. -/
abbrev Key := Nat

inductive Algorithm where
  | HS256
  | RS256
  deriving DecidableEq

structure Header where
  alg : Algorithm
  kid : Option String
  deriving DecidableEq

/-- The payload: each claim is there or not. -/
structure Payload where
  sub : Option String := none
  exp : Option Nat := none
  iat : Option Nat := none
  jti : Option String := none
  iss : Option String := none
  kova_device_id : Option String := none
  aud : Option (List String) := none
  deriving DecidableEq

structure Jws where
  header : Header
  payload : Payload
  signed_by : Key
  deriving DecidableEq

/-- What stands in a request where a token is expected. -/
inductive TokenText where
  | malformed (text : String)
  | jws (token : Jws)
  deriving DecidableEq

/-- An Authorization header. -/
inductive AuthHeader where
  | absent
  | unreadable
  | other (text : String)
  | bearer (token : TokenText)
  deriving DecidableEq

inductive ErrorKind where
  | InvalidToken
  | InvalidAlgorithm
  | InvalidSignature
  | Json
  | MissingRequiredClaim
  | ExpiredSignature
  | InvalidIssuer
  | InvalidAudience
  deriving DecidableEq

/-- `Validation::new(alg)` with its issuers set: `exp` is required and checked with a leeway of
60 seconds, and a token that names an audience, or an empty list of them, is refused because
none is configured. -/
structure Validation where
  alg : Algorithm
  iss : List String
  leeway : Nat := 60

/-- `decode_header`. -/
def decode_header : TokenText → Except ErrorKind Header
  | .malformed _ => .error .InvalidToken
  | .jws token => .ok token.header

/-- The checks on the registered claims, at `now` in seconds. -/
def validate (v : Validation) (now : Nat) (claims : Payload) : Except ErrorKind Unit :=
  match claims.exp with
  | none => .error .MissingRequiredClaim
  | some exp =>
    if exp + v.leeway < now then .error .ExpiredSignature
    else if !(claims.iss.all fun iss => v.iss.contains iss) then .error .InvalidIssuer
    else if claims.aud.isSome then .error .InvalidAudience
    else .ok ()

/-- `decode::<T>`, where `read` is how `T` is read from the payload. -/
def decode {T : Type} (read : Payload → Option T) (v : Validation) (key : Key) (now : Nat) :
    TokenText → Except ErrorKind T
  | .malformed _ => .error .InvalidToken
  | .jws token =>
    if token.header.alg ≠ v.alg then .error .InvalidAlgorithm
    else if token.signed_by ≠ key then .error .InvalidSignature
    else match read token.payload with
      | none => .error .Json
      | some claims => (validate v now token.payload).map fun _ => claims

/-- What an accepted token is. -/
theorem decode_ok {T : Type} {read : Payload → Option T} {v : Validation} {key : Key} {now : Nat}
    {text : TokenText} {claims : T} (h : decode read v key now text = .ok claims) :
    ∃ token, text = .jws token ∧ token.header.alg = v.alg ∧ token.signed_by = key ∧
      read token.payload = some claims ∧ validate v now token.payload = .ok () := by
  cases text with
  | malformed _ => cases h
  | jws token =>
    simp only [decode] at h
    split at h
    · cases h
    · next halg =>
      split at h
      · cases h
      · next hkey =>
        split at h
        · cases h
        · next claims' hread =>
          cases hv : validate v now token.payload with
          | error e =>
            rw [hv] at h
            cases h
          | ok u =>
            rw [hv] at h
            cases h
            exact ⟨token, rfl, not_not.mp halg, not_not.mp hkey, hread, hv⟩

/-- The registered claims of a token that was validated. -/
theorem validate_ok {v : Validation} {now : Nat} {claims : Payload}
    (h : validate v now claims = .ok ()) :
    ∃ exp, claims.exp = some exp ∧ now ≤ exp + v.leeway ∧
      (claims.iss.all fun iss => v.iss.contains iss) = true := by
  unfold validate at h
  split at h
  · cases h
  · next exp hexp =>
    split at h
    · cases h
    · next hlate =>
      split at h
      · cases h
      · next hiss => exact ⟨exp, hexp, Nat.le_of_not_lt hlate, by simpa using hiss⟩

/-- **When a token is accepted.** -/
theorem accepts_iff {T : Type} {read : Payload → Option T} {v : Validation} {key : Key}
    {now : Nat} {token : Jws} {claims : T} (hread : read token.payload = some claims)
    (halg : token.header.alg = v.alg) (hkey : token.signed_by = key) {exp : Nat}
    (hexp : token.payload.exp = some exp)
    (hiss : (token.payload.iss.all fun iss => v.iss.contains iss) = true)
    (haud : token.payload.aud = none) :
    decode read v key now (.jws token) =
      if exp + v.leeway < now then .error .ExpiredSignature else .ok claims := by
  simp only [decode, halg, hkey, ne_eq, not_true_eq_false, ↓reduceIte, hread, validate, hexp,
    hiss, haud, Bool.not_true, Bool.false_eq_true, Option.isSome_none]
  split <;> rfl

end Jwt

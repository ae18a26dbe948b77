import Kova.Gateway.Http
import Kova.Jwt.Token

/-!
# The gateway's token check

`validate_token` and what the AuthLayer makes of it. The key set maps a `kid` to a key, and a
token without one is checked under "default".
-/

set_option autoImplicit false

namespace Kova.Gateway

/-- `HashMap<String, DecodingKey>`. -/
structure JwtKeySet where
  keys : List (String × Jwt.Key)

def JwtKeySet.get (set : JwtKeySet) (kid : Option String) : Option Jwt.Key :=
  set.keys.lookup (kid.getD "default")

structure KovaClaims where
  sub : String
  exp : Nat
  iat : Nat
  jti : String
  iss : String
  kova_device_id : Option String
  deriving DecidableEq

/-- The claims read from a payload: all but the device must be there. -/
def KovaClaims.read (p : Jwt.Payload) : Option KovaClaims := do
  let sub ← p.sub
  let exp ← p.exp
  let iat ← p.iat
  let jti ← p.jti
  let iss ← p.iss
  some { sub, exp, iat, jti, iss, kova_device_id := p.kova_device_id }

inductive AuthError where
  | MissingHeader
  | MalformedBearer
  | Expired
  | Invalid
  | WrongAlgorithm
  | UnknownKid
  deriving DecidableEq

def AuthError.into_response : AuthError → Response
  | .Expired => ApiError.unauthorized "TOKEN_EXPIRED" "Access token has expired"
  | .MissingHeader | .MalformedBearer =>
    ApiError.unauthorized "TOKEN_MISSING" "Authorization header is required"
  | .WrongAlgorithm => ApiError.unauthorized "TOKEN_INVALID" "Unsupported signing algorithm"
  | .Invalid | .UnknownKid => ApiError.unauthorized "TOKEN_INVALID" "Access token is invalid"

/-- `Validation::new(RS256)` for the issuer "kova-auth". -/
def validation : Jwt.Validation := { alg := .RS256, iss := ["kova-auth"] }

/-- `validate_token`, at `now` in seconds. -/
def validate_token (token : Jwt.TokenText) (keys : JwtKeySet) (now : Nat) :
    Except AuthError KovaClaims :=
  match Jwt.decode_header token with
  | .error _ => .error .Invalid
  | .ok header =>
    if header.alg ≠ .RS256 then .error .WrongAlgorithm
    else match keys.get header.kid with
      | none => .error .UnknownKid
      | some key =>
        match Jwt.decode KovaClaims.read validation key now token with
        | .ok claims => .ok claims
        | .error .ExpiredSignature => .error .Expired
        | .error _ => .error .Invalid

/-- What a token is that the gateway accepts at `now`: RS256, signed under the key that its
`kid` selects, issued by "kova-auth", and not expired by more than the leeway. -/
structure Accepted (keys : JwtKeySet) (now : Nat) (token : Jwt.Jws) (claims : KovaClaims) : Prop where
  alg : token.header.alg = .RS256
  key : keys.get token.header.kid = some token.signed_by
  sub : token.payload.sub = some claims.sub
  iss : token.payload.iss = some "kova-auth"
  exp : token.payload.exp = some claims.exp
  unexpired : now ≤ claims.exp + 60
  read : KovaClaims.read token.payload = some claims

/-- The claims that must be there are. -/
theorem KovaClaims.read_some {p : Jwt.Payload} {c : KovaClaims} (h : KovaClaims.read p = some c) :
    p.sub = some c.sub ∧ p.exp = some c.exp ∧ p.iss = some c.iss := by
  simp only [KovaClaims.read, Option.bind_eq_bind, Option.bind_eq_some_iff] at h
  obtain ⟨sub, hsub, exp, hexp, iat, _, jti, _, iss, hiss, hc⟩ := h
  cases hc
  exact ⟨hsub, hexp, hiss⟩

/-- **An accepted token** is signed, issued by "kova-auth" and not expired. -/
theorem validate_token_ok {text : Jwt.TokenText} {keys : JwtKeySet} {now : Nat}
    {claims : KovaClaims} (h : validate_token text keys now = .ok claims) :
    ∃ token, text = .jws token ∧ Accepted keys now token claims := by
  cases text with
  | malformed _ => cases h
  | jws token =>
    simp only [validate_token, Jwt.decode_header] at h
    split at h
    · cases h
    · next halg =>
      split at h
      · cases h
      · next key hkey =>
        split at h
        · next claims' hdecode =>
          cases h
          obtain ⟨_, htoken, _, rfl, hread, hvalid⟩ := Jwt.decode_ok hdecode
          cases htoken
          obtain ⟨hsub, hexp, hiss⟩ := KovaClaims.read_some hread
          obtain ⟨exp, hexp', hlate, hissuer⟩ := Jwt.validate_ok hvalid
          rw [hexp, Option.some.injEq] at hexp'
          subst hexp'
          have hissued : claims.iss = "kova-auth" := by simpa [hiss, validation] using hissuer
          exact ⟨token, rfl, not_not.mp halg, hkey, hsub, hissued ▸ hiss, hexp, hlate, hread⟩
        · cases h
        · cases h

end Kova.Gateway

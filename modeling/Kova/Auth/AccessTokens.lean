import Kova.Auth.Roots

/-!
# What stands behind an access token

A pair that kova-auth has returned was signed at a moment that its call read, with the session that
the call inserted: the token expires 900 seconds after that moment and names the session's user. The
session goes back to a one-time code, so with the token stands somebody who has received a code on
the user's phone (`returned_vouched`).
-/

set_option autoImplicit false

namespace Kova.Auth

open Conc

variable {env : Env} {S : AuthScope} {clock : Nat} {ls : List AuthLabel} {d : AuthConf}

/-! ## The handlers -/

/-- The pair's access token expires 900 seconds after a moment that the call has read. -/
def Dated (h : List AuthDone) (pair : TokenPair) : Prop :=
  ∃ signed : DateTime, (⟨.utc_now, signed⟩ : AuthDone) ∈ h ∧
    pair.access_token.payload.exp = some (signed.timestamp + ACCESS_TTL_SECS).toNat

/-- Tokens are returned with their dates. -/
def AnswersDated (h : List AuthDone) (r : Except Failure Response) : Prop :=
  ∀ pair, r = .ok (.tokens pair) → Dated h pair

/-- The issuing of a pair reads the moment first. -/
theorem IssuingEnd.dated {u : Uuid} {fingerprint : String} {h₀ h : List AuthDone}
    {r : Except Failure TokenPair} (ends : IssuingEnd env u fingerprint h₀ h r) :
    AnswersDated h (r.map .tokens) := by
  cases ends with
  | failed => rintro pair ⟨⟩
  | @issued x =>
    rintro pair ⟨⟩
    exact ⟨x.signed_at, by simp [Issue.done], rfl⟩

/-- **Every handler** that returns tokens has dated them. -/
theorem serve_dated (env : Env) (req : Request) :
    Guarded (fun _ _ => True) AnswersDated (serve env req) [] := by
  refine (serve_steps env req).mono (fun _ _ _ => trivial) ?_
  intro h r ends
  cases ends with
  | login ends =>
    cases ends with
    | issue ends => exact ends.dated
    | _ => rintro pair ⟨⟩
  | refresh ends =>
    cases ends with
    | issue _ _ ends => exact ends.dated
    | _ => rintro pair ⟨⟩
  | biometric _ ends =>
    cases ends with
    | issue ends => exact ends.dated
    | refused => rintro pair ⟨⟩
  | register ends | code ends | pin _ _ ends => cases ends <;> rintro pair ⟨⟩
  | _ => rintro pair ⟨⟩

/-! ## Every run -/

/-- **What stands behind an access token**: a session of the user it names, which goes back to a
login with a code that was sent to the user's phone, and the second in which it was signed. -/
structure Vouched (env : Env) (d : AuthConf) (token : Jwt.Jws) (user_id : Uuid) (signed : Nat) :
    Prop where
  session : ∃ e ∈ d.world.log, ∃ row, Rooted env d e row ∧ row.user_id = user_id ∧
    row.access_token_jti = token.payload.jti
  login : ∃ root first read issue code, CodeLogin env d root first read issue code ∧
    first.user_id = user_id
  subject : token.payload.sub = some user_id.to_string
  clock : ∃ e ∈ d.world.log, e.op = .utc_now ∧ signed = e.pre.clock / 1000000000
  expires : token.payload.exp = some (signed + 900)

/-- **Behind every returned token** there is one. -/
theorem returned_vouched (h : HonestRun env (start clock) ls d) {pair : TokenPair}
    (returned : Returned d pair) :
    ∃ user_id signed, Vouched env d pair.access_token user_id signed := by
  obtain ⟨i, hi, v, row, claims, hins, _, htoken, _, hsub, hjti, _⟩ :=
    returned_issued h.run returned
  obtain ⟨before, after, split⟩ := List.append_of_mem hi
  have rooted := inserted_rooted h split hins
  obtain ⟨_, _, _, _, _, hbound, hstored⟩ := inserted_jti h.run hi hins
  obtain ⟨t, req, hreturned⟩ := returned
  obtain ⟨now, hread, hexp⟩ := h.run.answer (serve_dated env) hreturned pair rfl
  obtain ⟨e, he, _, hdid⟩ := mem_history.mp hread
  obtain ⟨_, _, _, hexec⟩ := h.run.did he hdid
  obtain rfl : (⟨(e.pre.clock : Int)⟩ : DateTime) = now :=
    congrArg Prod.fst (Option.some.inj hexec)
  have hsecs : ((⟨(e.pre.clock : Int)⟩ : DateTime).timestamp + ACCESS_TTL_SECS).toNat =
      e.pre.clock / 1000000000 + 900 := by
    simp only [DateTime.timestamp, ACCESS_TTL_SECS]
    omega
  refine ⟨row.user_id, e.pre.clock / 1000000000, ?_⟩
  refine ⟨⟨i, hi, row, rooted, rfl, ?_⟩, rooted.login, ?_, ⟨e, he, congrArg Done.op hdid, rfl⟩, ?_⟩
  · rw [htoken, hstored, ← hbound, ← hjti]
    rfl
  · rw [htoken, ← hsub]
    rfl
  · rw [hexp, hsecs]

end Kova.Auth

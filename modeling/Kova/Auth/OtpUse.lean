import Mathlib.Data.Finset.Card
import Kova.Auth.SessionLaws

/-!
# A code authorises one operation

Three handlers take a one-time code: they read an unused code, verify what was entered against
it, and then set `used_at` by an UPDATE without a condition. If that UPDATE always finds the
code still unused, every successful call consumed a code of its own (`otp_authorises_one`). Two
overlapping logins both read the unused code (`overlapping_logins`).
-/

set_option autoImplicit false

namespace Kova.Auth

open Conc

variable {env : Env} {S : AuthScope} {clock : Nat} {ls : List AuthLabel} {d : AuthConf}

/-- The requests that a one-time code authorises. -/
def Request.takes_otp : Request → Bool
  | .otp_verify .. | .pin_set .. | .pin_change .. => true
  | _ => false

/-- The event set `used_at` of the code. -/
def Uses (e : AuthEvent) (id : Uuid) : Prop :=
  e.op = .sql (.use_otp id.to_string) ∧ ∃ r ∈ e.post.otp_codes, r.id = id ∧ r.used_at.isSome

/-- Call `t` succeeded with a code. -/
def Authorised (d : AuthConf) (t : Nat) : Prop :=
  ∃ req resp, req.takes_otp = true ∧ d.returned t req (.ok resp)

/-- Every successful call consumed a code, no code was consumed by two of them, and so they are
no more than the codes they consumed. -/
structure OtpPerCall (d : AuthConf) : Prop where
  consumed : ∀ t, Authorised d t → ∃ e ∈ d.world.log, e.tid = t ∧ ∃ id, Uses e id
  once : ∀ e ∈ d.world.log, ∀ e' ∈ d.world.log, Authorised d e.tid → Authorised d e'.tid →
    ∀ id, Uses e id → Uses e' id → e.tid = e'.tid
  count : ∀ calls : Finset Nat, (∀ t ∈ calls, Authorised d t) → ∀ codes : Finset Uuid,
    (∀ e ∈ d.world.log, e.tid ∈ calls → ∀ id, Uses e id → id ∈ codes) → calls.card ≤ codes.card

/-- If the event is the UPDATE that marks a code as used, it finds `used_at` NULL. -/
def FindsUnused (e : AuthEvent) : Prop :=
  match e.op with
  | .sql (.use_otp id) => ∀ r ∈ e.pre.otp_codes, r.id.to_string = id → r.used_at = none
  | _ => True

instance (e : AuthEvent) : Decidable (FindsUnused e) := by
  unfold FindsUnused
  split <;> infer_instance

theorem FindsUnused.null {e : AuthEvent} (h : FindsUnused e) {id : String}
    (hop : e.op = .sql (.use_otp id)) {r : OtpCode} (hr : r ∈ e.pre.otp_codes)
    (hid : r.id.to_string = id) : r.used_at = none := by
  simp only [FindsUnused, hop] at h
  exact h r hr hid

/-- An answered UPDATE used a code that the same call had read. -/
theorem uses_of_did (h : AuthRun env S (start clock) ls d) {e : AuthEvent} (he : e ∈ d.world.log)
    {text : String} (hd : e.did = did (.use_otp text) (some ())) : ∃ id, Uses e id := by
  obtain ⟨before, after, split⟩ := List.append_of_mem he
  have hguard := h.guard (serve_guarded env) split
  rw [show e.op = .sql (.use_otp text) from congrArg Done.op hd] at hguard
  obtain ⟨user_id, row, hread, htext⟩ := hguard
  obtain ⟨a, ha, _, hdid, hprec⟩ := event_of_history after e hread
  rw [← split] at hprec
  obtain ⟨_, _, _, hselect⟩ := h.did hprec.left hdid
  obtain ⟨r, hr, _, _, rfl⟩ := exec_select_otp hselect
  obtain ⟨r', hr', hb⟩ := ((event_later h hprec.left).trans
    ((h.between (later_follows env) hprec).trans (event_later h he))).otp_codes r hr
  obtain ⟨_, _, _, hexec⟩ := h.did he hd
  obtain ⟨u, hu, hpost⟩ := exec_use_otp hexec
  rw [htext, Uuid.UUID_TO_BIN_to_string, Option.some.injEq] at hu
  refine ⟨r.id, ?_, r', hr', hb.id_eq, ?_⟩
  · rw [show e.op = .sql (.use_otp text) from congrArg Done.op hd, htext]
  · rw [hpost] at hr'
    exact consumed_by_id hr' (hb.id_eq.trans hu)

/-- A successful call has used a code. -/
theorem Authorised.used (h : AuthRun env S (start clock) ls d) {t : Nat} (ht : Authorised d t) :
    ∃ e ∈ d.world.log, e.tid = t ∧ ∃ id, Uses e id := by
  obtain ⟨req, resp, htakes, hr⟩ := ht
  have hanswer := h.answer (serve_guarded env) hr
  have hused : Used (history t d.world.log) := by
    cases req with
    | otp_verify =>
      cases resp with
      | tokens pair => exact hanswer.2
      | _ => exact hanswer.elim
    | pin_set | pin_change =>
      cases resp with
      | tokens pair => exact hanswer.elim
      | _ => exact hanswer
    | _ => cases htakes
  obtain ⟨text, hmem⟩ := hused
  obtain ⟨e, he, htid, hdid⟩ := mem_history.mp hmem
  exact ⟨e, he, htid, uses_of_did h he hdid⟩

/-- **A code is used once** if each UPDATE finds the code it uses still unused. -/
theorem uses_once (h : AuthRun env S (start clock) ls d)
    (unused : ∀ e ∈ d.world.log, FindsUnused e) {e e' : AuthEvent} (he : e ∈ d.world.log)
    (he' : e' ∈ d.world.log) {id : Uuid} (hu : Uses e id) (hu' : Uses e' id) : e = e' := by
  have never : ∀ {x y : AuthEvent}, Uses x id → Uses y id → ¬ Precedes d.world.log x y := by
    intro x y hx hy hprec
    obtain ⟨_, r, hr, hid, hsome⟩ := hx
    obtain ⟨r', hr', hb⟩ := (h.between (later_follows env) hprec).otp_codes r hr
    have hnull := (unused y hprec.right).null hy.1 hr' (by rw [hb.id_eq, hid])
    have hused := hb.used hsome
    rw [hnull] at hused
    cases hused
  rcases precedes_total he he' with heq | hlt | hgt
  · exact heq
  · exact absurd hlt (never hu hu')
  · exact absurd hgt (never hu' hu)

/-- **A code authorises one operation**, whatever the calls are and however they interleave, if
each UPDATE finds the code it uses still unused. -/
theorem otp_authorises_one (env : Env) (clock : Nat) (ls : List AuthLabel) (d : AuthConf)
    (h : AuthRun env .all (start clock) ls d) (unused : ∀ e ∈ d.world.log, FindsUnused e) :
    OtpPerCall d := by
  refine ⟨fun t ht => ht.used h, ?_, ?_⟩
  · intro e he e' he' _ _ id hu hu'
    rw [uses_once h unused he he' hu hu']
  · intro calls hcalls codes hcodes
    choose event hevent htid code hcode using fun t : calls => (hcalls t.1 t.2).used h
    rw [← Finset.card_attach]
    apply Finset.card_le_card_of_injOn code
    · intro t _
      exact hcodes (event t) (hevent t) ((htid t).symm ▸ t.2) (code t) (hcode t)
    · intro t _ t' _ heq
      have same : event t = event t' :=
        uses_once h unused (hevent t) (hevent t') (hcode t) (heq ▸ hcode t')
      exact Subtype.ext ((htid t).symm.trans ((congrArg Event.tid same).trans (htid t')))

/-- Four calls with one code: a wrong code is entered, the UPDATE of the second call fails, the
third logs in, and the fourth enters the code again. -/
def entered_again : List AuthLabel :=
  sample_code ++
    uninterrupted 2 (.otp_verify "+2348012345678" "654321" "phone") [{}, {}] ++
    uninterrupted 3 (.otp_verify "+2348012345678" "123456" "phone")
      [{}, {}, { fault := .failed }] ++
    uninterrupted 4 (.otp_verify "+2348012345678" "123456" "phone")
      ({} :: {} :: {} :: issuing 'a' 4) ++
    uninterrupted 5 (.otp_verify "+2348012345678" "123456" "phone") [{}, {}]

def after_four : AuthConf := replayed (machine sample) (serve sample) sample_start entered_again

theorem entered_again_unused :
    AuthRun sample .all sample_start entered_again after_four ∧
      ((after_four.succeeded 4 (.otp_verify "+2348012345678" "123456" "phone") = true ∧
        after_four.result? 5 = some (.error (.error .OtpInvalidOrExpired))) ∧
      ∀ e ∈ after_four.world.log, FindsUnused e) := by
  obtain ⟨run, checked⟩ := replayed_spec (machine sample) (serve sample) sample_start entered_again
    (fun d => d.succeeded 4 (.otp_verify "+2348012345678" "123456" "phone") &&
      (d.result? 5 == some (.error (.error .OtpInvalidOrExpired))) &&
      d.world.log.all fun e => FindsUnused e)
    (by decide +kernel)
  simp only [Bool.and_eq_true, beq_iff_eq] at checked
  unfold after_four
  refine ⟨run, checked.1, ?_⟩
  intro e he
  exact of_decide_eq_true (List.all_eq_true.mp checked.2 e he)

/-- The guarantee at that run, in which the third call succeeds and the fourth is refused. -/
theorem otp_authorises_one_login :
    after_four.succeeded 4 (.otp_verify "+2348012345678" "123456" "phone") = true ∧
      after_four.result? 5 = some (.error (.error .OtpInvalidOrExpired)) ∧ OtpPerCall after_four := by
  obtain ⟨run, ⟨success, refused⟩, unused⟩ := entered_again_unused
  exact ⟨success, refused, otp_authorises_one sample _ entered_again _ run unused⟩

/-- Two logins with one code: both read it before either uses it. -/
def overlapping_verifications : List AuthLabel :=
  sample_code ++
    ([.spawn (.otp_verify "+2348012345678" "123456" "phone"),
      .spawn (.otp_verify "+2348012345678" "123456" "laptop"), .run 2 {}, .run 2 {}, .run 3 {},
      .run 3 {}, .run 2 {}, .run 3 {}] ++
        ((issuing 'a' 4).map (.run 2) ++ (issuing 'b' 10).map (.run 3)))

/-- Two successful logins, one code. -/
theorem overlapping_logins :
    ¬ ∀ (env : Env) (clock : Nat) (ls : List AuthLabel) (d : AuthConf),
      AuthRun env .all (start clock) ls d → OtpPerCall d := by
  intro claim
  obtain ⟨run, checked⟩ := replayed_spec (machine sample) (serve sample) sample_start
    overlapping_verifications
    (fun d => (d.succeeded 2 (.otp_verify "+2348012345678" "123456" "phone") &&
      d.succeeded 3 (.otp_verify "+2348012345678" "123456" "laptop")) &&
        d.world.log.all fun e => e.post.otp_codes.all fun r => r.id == .low 3)
    (by decide +kernel)
  obtain ⟨both, codes⟩ := Bool.and_eq_true_iff.mp checked
  obtain ⟨hfirst, hsecond⟩ := Bool.and_eq_true_iff.mp both
  obtain ⟨first, hfirst⟩ := returned_ok hfirst
  obtain ⟨second, hsecond⟩ := returned_ok hsecond
  have few := (claim sample _ overlapping_verifications _ run).count {2, 3} ?_ {.low 3} ?_
  · exact absurd few (by decide)
  · intro t ht
    rcases Finset.mem_insert.mp ht with rfl | ht
    · exact ⟨_, first, rfl, hfirst⟩
    · obtain rfl := Finset.mem_singleton.mp ht
      exact ⟨_, second, rfl, hsecond⟩
  · rintro e he _ id ⟨_, r, hr, rfl, _⟩
    have hid := List.all_eq_true.mp (List.all_eq_true.mp codes e he) r hr
    exact Finset.mem_singleton.mpr (beq_iff_eq.mp hid)

end Kova.Auth

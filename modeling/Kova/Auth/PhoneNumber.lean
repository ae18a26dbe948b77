import Kova.Auth.Credentials
import Kova.Auth.SessionLaws
import Kova.Auth.UserLaws

/-!
# A phone number at registration and at login

`register` stores the canonical form of the number it is sent; `otp_request` and `otp_verify`
look up what they are sent. So a number that has been registered finds its user again exactly
when, under the collation of the column, it equals its own canonical form (`phone_number_found`):
a number with spaces or hyphens registers a user whom no login with the same text finds
(`spaced_number_lost`).

The lookup names at most one user, since the two keys of the table hold throughout
(`run_distinct_users`), and users stay.
-/

set_option autoImplicit false

namespace Kova.Auth

open Conc

variable {env : Env} {clock : Nat} {ls : List AuthLabel} {d : AuthConf}

/-- The event inserted the user for a request to register that number. -/
structure Registers (a : AuthEvent) (phone_number : String) (u : User) : Prop where
  req : ∃ fp, a.req = .register phone_number fp
  inserted : a.post.users = a.pre.users ++ [u]

/-- What a lookup by phone number found, if the statement succeeded. -/
def looked_up_user : AuthEvent → Option (Option String)
  | ⟨_, _, .sql (.select_user_by_phone _), _, found, _⟩ => found
  | _ => none

theorem looked_up_did {e : AuthEvent} {found : Option String}
    (h : looked_up_user e = some found) :
    ∃ phone_number, e.did = did (.select_user_by_phone phone_number) (some found) := by
  obtain ⟨tid, req, op, pre, res, post⟩ := e
  cases op with
  | sql q =>
    cases q with
    | select_user_by_phone phone_number =>
      obtain rfl : res = some found := h
      exact ⟨phone_number, rfl⟩
    | _ => cases h
  | _ => cases h

/-- The event is the lookup of a login with that number. -/
structure LooksUp (e : AuthEvent) (phone_number : String) (found : Option String) : Prop where
  req : (∃ fp, e.req = .otp_request phone_number fp) ∨
    ∃ code fp, e.req = .otp_verify phone_number code fp
  answered : looked_up_user e = some found

/-! ## The table -/

/-- Both keys hold throughout. -/
theorem run_distinct_users {S : AuthScope} (h : AuthRun env S (start clock) ls d) :
    DistinctUsers env d.world.store.users := by
  refine h.store_invariant (P := fun s => DistinctUsers env s.users)
    (fun hc hexec => (exec_users hexec).distinct hc) ?_ ?_
  · rintro ⟨n⟩ s s' hc henv
    cases henv
    exact hc
  · intro u hu
    cases hu

theorem event_distinct_users (h : AuthRun env .all (start clock) ls d) {e : AuthEvent}
    (he : e ∈ d.world.log) : DistinctUsers env e.pre.users :=
  h.store_at (P := fun s => DistinctUsers env s.users) he run_distinct_users

/-! ## The two handlers -/

/-- What a registration stores compares equal to the canonical form of what it was sent. -/
theorem Registers.canonical (h : AuthRun env .all (start clock) ls d) {a : AuthEvent}
    (ha : a ∈ d.world.log) {phone_number : String} {u : User} (hreg : Registers a phone_number u) :
    ∃ phone, env.e164 phone_number = some phone ∧ env.coll.same phone u.phone_number := by
  obtain ⟨before, after, split⟩ := List.append_of_mem ha
  have hguard := h.guard (serve_entitled env) split
  obtain ⟨_, _, _, hexec⟩ := h.executed ha
  have hchange := exec_users hexec
  have hinserted := hreg.inserted
  generalize a.op = op at hchange hguard
  generalize a.post.users = l at hchange hinserted
  obtain ⟨fp, hreq⟩ := hreg.req
  cases hchange with
  | same =>
    have hlen := congrArg List.length hinserted
    simp at hlen
  | registered _ stored =>
    obtain rfl := List.singleton_inj.mp (List.append_cancel_left hinserted)
    obtain ⟨raw, _, hreq', hphone⟩ := hguard
    rw [hreq, Request.register.injEq] at hreq'
    exact ⟨_, hreq'.1 ▸ hphone, env.coll.same_varchar stored⟩
  | pin _ =>
    have hlen := congrArg List.length hinserted
    simp at hlen

/-- What a login finds is a user whose number compares equal to what it was sent. -/
theorem LooksUp.found (h : AuthRun env .all (start clock) ls d) {e : AuthEvent}
    (he : e ∈ d.world.log) {phone_number : String} {found : Option String}
    (hlook : LooksUp e phone_number found) :
    ∃ pick, found = (limit_one pick
      (e.pre.users.filter fun u => env.coll.same u.phone_number phone_number)).map
        fun u => u.id.to_string := by
  obtain ⟨before, after, split⟩ := List.append_of_mem he
  have hguard := h.guard (serve_entitled env) split
  obtain ⟨text, hdid⟩ := looked_up_did hlook.answered
  obtain ⟨_, ch, _, hexec⟩ := h.did he hdid
  rw [show e.op = .sql (.select_user_by_phone text) from congrArg Done.op hdid] at hguard
  have htext : text = phone_number := by
    rcases hguard with ⟨fp, hreq'⟩ | ⟨code, fp, hreq'⟩ <;>
      rcases hlook.req with ⟨_, hreq⟩ | ⟨_, _, hreq⟩ <;> cases hreq.symm.trans hreq'
    · rfl
    · rfl
  exact ⟨ch.pick, htext ▸ exec_select_user hexec⟩

/-- **When registration and login agree on who a number is**: a login with a number that was
registered before finds that user exactly when the number compares equal to its canonical form. -/
theorem phone_number_found (env : Env) (clock : Nat) (ls : List AuthLabel) (d : AuthConf)
    (h : AuthRun env .all (start clock) ls d) (phone_number : String) (a e : AuthEvent) (u : User)
    (found : Option String) (hprec : Precedes d.world.log a e)
    (hreg : Registers a phone_number u) (hlook : LooksUp e phone_number found) :
    found = some u.id.to_string ↔
      ∃ phone, env.e164 phone_number = some phone ∧ env.coll.same phone phone_number := by
  obtain ⟨phone, hphone, hstored⟩ := hreg.canonical h hprec.left
  obtain ⟨pick, hfound⟩ := hlook.found h hprec.right
  have distinct := event_distinct_users h hprec.right
  have hu : u ∈ a.post.users := hreg.inserted ▸ List.mem_append_right _ List.mem_cons_self
  obtain ⟨u', hu', hid, hnumber⟩ := h.between (users_stay env) hprec u hu
  have stored : env.coll.same phone u'.phone_number := hnumber ▸ hstored
  constructor
  · intro hsome
    rw [hfound] at hsome
    obtain ⟨r, hr, hrid⟩ := Option.map_eq_some_iff.mp hsome
    obtain ⟨hr, hrsame⟩ := List.mem_filter.mp (limit_one_mem hr)
    have hrid' : r.id = u.id := Uuid.to_string_injective hrid
    obtain rfl := distinct r hr u' hu' (.inl (hrid'.trans hid.symm))
    exact ⟨phone, hphone, stored.trans (of_decide_eq_true hrsame)⟩
  · rintro ⟨canonical, hcanonical, hsame⟩
    obtain rfl := Option.some.inj (hphone.symm.trans hcanonical)
    have hmem : u' ∈ e.pre.users.filter fun u => env.coll.same u.phone_number phone_number :=
      List.mem_filter.mpr ⟨hu', decide_eq_true (stored.symm.trans hsame)⟩
    obtain ⟨r, hr⟩ := limit_one_some pick hmem
    obtain ⟨hrmem, hrsame⟩ := List.mem_filter.mp (limit_one_mem hr)
    have hr' : r = u' := by
      apply distinct r hrmem u' hu'
      exact .inr ((of_decide_eq_true hrsame).trans (hsame.symm.trans stored))
    rw [hfound, hr, hr', Option.map_some, hid]

/-! ## Two spellings -/

def sample_user : User := ⟨.low 1, "+2348012345678", ""⟩

/-- The second event registered the sample user with that number, and the sixth looked it up. -/
def registers_and_looks_up (phone_number : String) (d : AuthConf) : Bool :=
  (d.world.log[1]?.any fun a => a.req = .register phone_number "phone" &&
      a.post.users = a.pre.users ++ [sample_user]) &&
    d.world.log[5]?.any fun e => e.req = .otp_request phone_number "phone" &&
      (looked_up_user e).isSome

theorem registers_and_looks_up_spec {phone_number : String}
    (h : registers_and_looks_up phone_number d = true) :
    ∃ a e found, Precedes d.world.log a e ∧ Registers a phone_number sample_user ∧
      LooksUp e phone_number found := by
  obtain ⟨hreg, hlook⟩ := Bool.and_eq_true_iff.mp h
  obtain ⟨a, ha, hreg⟩ := (Option.any_eq_true _ _).mp hreg
  obtain ⟨e, he, hlook⟩ := (Option.any_eq_true _ _).mp hlook
  simp only [Bool.and_eq_true, decide_eq_true_eq, Option.isSome_iff_exists] at hreg hlook
  obtain ⟨found, hfound⟩ := hlook.2
  exact ⟨a, e, found, precedes_of_getElem? ha he (by decide), ⟨⟨_, hreg.1⟩, hreg.2⟩,
    ⟨.inl ⟨_, hlook.1⟩, hfound⟩⟩

/-- A user who registers with the canonical form is found. -/
theorem phone_number_found_canonical :
    ∃ a e found, Precedes (replayed (machine sample) (serve sample) sample_start
        sample_code).world.log a e ∧ Registers a "+2348012345678" sample_user ∧
      LooksUp e "+2348012345678" found ∧ found = some sample_user.id.to_string := by
  obtain ⟨run, checked⟩ := replayed_spec (machine sample) (serve sample) sample_start sample_code
    (registers_and_looks_up "+2348012345678") (by decide +kernel)
  obtain ⟨a, e, found, hprec, hreg, hlook⟩ := registers_and_looks_up_spec checked
  refine ⟨a, e, found, hprec, hreg, hlook, ?_⟩
  exact (phone_number_found sample _ sample_code _ run "+2348012345678" a e sample_user found hprec
    hreg hlook).mpr ⟨"+2348012345678", rfl, rfl⟩

/-- The sample, with the parser on the same number with spaces. -/
def spaced : Env :=
  { sample with
    e164 := fun raw => if raw = "+234 801 234 5678" then some "+2348012345678" else sample.e164 raw }

/-- A user registers with spaces and asks for a code with the same text. -/
def spaced_code : List AuthLabel :=
  uninterrupted 0 (.register "+234 801 234 5678" "phone")
      [{ uuid := .low 1 }, {}, { uuid := .low 2 }, {}] ++
    uninterrupted 1 (.otp_request "+234 801 234 5678" "phone") [{}, {}]

/-- The user is not found. -/
theorem spaced_number_lost :
    ¬ ∀ (env : Env) (clock : Nat) (ls : List AuthLabel) (d : AuthConf),
      AuthRun env .all (start clock) ls d →
        ∀ (phone_number : String) (a e : AuthEvent) (u : User) (found : Option String),
          Precedes d.world.log a e → Registers a phone_number u → LooksUp e phone_number found →
            found = some u.id.to_string := by
  intro claim
  obtain ⟨run, checked⟩ := replayed_spec (machine spaced) (serve spaced) sample_start spaced_code
    (fun d => registers_and_looks_up "+234 801 234 5678" d &&
      d.world.log.all fun e => (looked_up_user e).all (·.isNone)) (by decide +kernel)
  obtain ⟨checked, lost⟩ := Bool.and_eq_true_iff.mp checked
  obtain ⟨a, e, found, hprec, hreg, hlook⟩ := registers_and_looks_up_spec checked
  have hfound := claim spaced _ spaced_code _ run "+234 801 234 5678" a e sample_user found hprec
    hreg hlook
  have hnone := List.all_eq_true.mp lost e hprec.right
  rw [hlook.answered, hfound] at hnone
  cases hnone

end Kova.Auth

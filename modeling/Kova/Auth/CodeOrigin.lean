import Kova.Auth.Footprint
import Kova.Auth.SessionLaws
import Kova.Auth.UserLaws

/-!
# Where one-time codes come from

Every row of `otp_codes` was stored by a request for a code, for the user that the request's phone
number selects, and hashes the code that the call drew, which the call sends to that number and to
no other (`code_issued`).
-/

set_option autoImplicit false

namespace Kova.Auth

open Conc

variable {env : Env} {S : AuthScope} {clock : Nat} {ls : List AuthLabel} {d : AuthConf}

/-! ## The handlers -/

/-- The code that a call drew. -/
def drawn_code (h : List AuthDone) : Option String :=
  h.findSome? fun
    | ⟨.random_draws, draws⟩ =>
      (List.find? (fun n => n < OTP_REJECT_THRESHOLD) draws).map fun n =>
        six_digits (n.toNat % 1000000)
    | _ => none

theorem drawn_code_append {h : List AuthDone} {otp : String} (hdrawn : drawn_code h = some otp)
    (h' : List AuthDone) : drawn_code (h ++ h') = some otp := by
  unfold drawn_code at hdrawn ⊢
  rw [List.findSome?_append, hdrawn, Option.some_or]

theorem drawn_code_prefix {h h' : List AuthDone} (hh : h <+: h') {otp : String}
    (hdrawn : drawn_code h = some otp) : drawn_code h' = some otp := by
  obtain ⟨rest, rfl⟩ := hh
  exact drawn_code_append hdrawn rest

/-- What comes before a code is stored. -/
structure Storing (env : Env) (phone_number : String) (h : List AuthDone)
    (user_id code_hash : String) (expires_at : DateTime) : Prop where
  user : did (.select_user_by_phone phone_number) (some (some user_id)) ∈ h
  code : ∃ otp salt, drawn_code h = some otp ∧ env.bcrypt_hash salt otp = .ok code_hash
  expires : ∃ now : DateTime, (⟨.utc_now, now⟩ : AuthDone) ∈ h ∧
    expires_at = ⟨now.nanos + OTP_EXPIRY_SECS * 1000000000⟩

/-- A code is stored and sent by requests for one, to the phone number that they name. -/
def issues_code (env : Env) (req : Request) (h : List AuthDone) : Op → Prop
  | .sql (.insert_otp _ user_id code_hash expires_at) => ∃ phone_number fp,
      req = .otp_request phone_number fp ∧ Storing env phone_number h user_id code_hash expires_at
  | .send_sms number text => ∃ fp, req = .otp_request number fp ∧ drawn_code h = some text
  | _ => True

theorem Draft.Sound.drawn_code {x : Draft} (sound : x.Sound env) (phone_number : String) :
    drawn_code (x.done phone_number) = some x.otp := by
  simp [Auth.drawn_code, Draft.done, reading, did, sound.drawn, Draft.otp]

theorem CodeStep.issues_code {phone_number fp : String} {h : List AuthDone} {op : Op}
    (step : CodeStep env phone_number h op) :
    issues_code env (.otp_request phone_number fp) h op := by
  cases step with
  | inward inward => cases inward <;> trivial
  | @store x sound =>
    exact ⟨phone_number, fp, rfl, List.mem_cons_of_mem _ List.mem_cons_self,
      ⟨x.otp, x.salt, sound.drawn_code phone_number, sound.hashed⟩, x.now, by simp [Draft.done],
      rfl⟩
  | @send x sound => exact ⟨fp, rfl, drawn_code_append (sound.drawn_code phone_number) _⟩
  | count | user | increment | expire => trivial

theorem serve_issues_code (env : Env) (req : Request) :
    Guarded (issues_code env req) (fun _ _ => True) (serve env req) [] := by
  refine (serve_steps env req).mono ?_ fun _ _ _ => trivial
  intro h op step
  by_cases hreq : ∃ phone_number fp, req = .otp_request phone_number fp
  · obtain ⟨phone_number, fp, rfl⟩ := hreq
    exact step.code_request.issues_code
  · cases op with
    | sql q =>
      cases q with
      | insert_otp => exact absurd step.may hreq
      | _ => trivial
    | send_sms => exact absurd step.may hreq
    | _ => trivial

/-! ## The rows -/

/-- The row that an INSERT adds holds what is bound. -/
structure Stored (e : AuthEvent) (r : OtpCode) : Prop where
  values : ∃ id user_id code_hash expires_at,
    e.op = .sql (.insert_otp id user_id code_hash expires_at) ∧
      Uuid.UUID_TO_BIN user_id = some r.user_id ∧
        Collation.varchar 255 code_hash = some r.code_hash ∧ r.expires_at = expires_at.to_datetime
  unused : r.used_at = none

theorem exec_stores {ch : Choice} {s s' : Store} {id user_id code_hash : String}
    {expires_at : DateTime} {res : Option Unit}
    (h : exec env ch s (.sql (.insert_otp id user_id code_hash expires_at)) = some (res, s')) :
    s'.otp_codes = s.otp_codes ∨ ∃ row, s'.otp_codes = s.otp_codes ++ [row] ∧
      Uuid.UUID_TO_BIN user_id = some row.user_id ∧
        Collation.varchar 255 code_hash = some row.code_hash ∧
          row.expires_at = expires_at.to_datetime ∧ row.used_at = none := by
  rcases exec_sql h with ⟨_, rfl⟩ | ⟨rfl, _⟩
  · exact .inl rfl
  · simp only [Sql.run]
    split
    · next hu hcode =>
      split
      · exact .inr ⟨_, rfl, hu, hcode, rfl, rfl⟩
      · exact .inl rfl
    · exact .inl rfl

/-- **Every code was stored.** -/
theorem otp_stored (h : AuthRun env S (start clock) ls d) :
    ∀ r ∈ d.world.store.otp_codes, ∃ e ∈ d.world.log, ∃ row, Stored e row ∧ row.Becomes r := by
  refine h.world_invariant (serve_issues_code env) (P := fun w => ∀ r ∈ w.store.otp_codes,
    ∃ e ∈ w.log, ∃ row, Stored e row ∧ row.Becomes r) ?_ ?_ (fun r hr => by cases hr)
  · rintro ms c e _ hc hpre ⟨ch, _, hexec⟩ _ r hr
    have old : ∀ r₀ ∈ c.world.store.otp_codes, r₀.Becomes r →
        ∃ e' ∈ (c.world.push e).log, ∃ row, Stored e' row ∧ row.Becomes r := by
      intro r₀ hr₀ hb
      obtain ⟨e', he', row, hstored, hrow⟩ := hc r₀ hr₀
      exact ⟨e', List.mem_append_left _ he', row, hstored, hrow.trans hb⟩
    rw [hpre] at hexec
    obtain ⟨t, req, op, pre, res, post⟩ := e
    have hchange := exec_otp_codes hexec
    have hr : r ∈ post.otp_codes := hr
    generalize hl : post.otp_codes = l at hchange hr
    cases hchange with
    | same => exact old r hr (.refl r)
    | inserted =>
      rcases exec_stores hexec with hsame | ⟨row, hrows, huser, hcode, hexpires, hunused⟩
      · exact old r (hsame ▸ hl ▸ hr) (.refl r)
      · rw [← hl, hrows] at hr
        rcases List.mem_append.mp hr with hr | hr
        · exact old r hr (.refl r)
        · obtain rfl := List.mem_singleton.mp hr
          exact ⟨_, List.mem_append_right _ List.mem_cons_self, r,
            ⟨⟨_, _, _, _, rfl, huser, hcode, hexpires⟩, hunused⟩, .refl r⟩
    | used =>
      obtain ⟨r₀, hr₀, heq⟩ := List.mem_map.mp hr
      exact old r₀ hr₀ (heq ▸ becomes_consume r₀ _)
  · rintro ms c ⟨n⟩ s' _ hc henv r hr
    cases henv
    exact hc r hr

/-- **The code was issued by the event**: on a request for a code, for the user that the request's
phone number selects, as the hash of the code that the call drew. Of what the call sends, this code
to this number is all. -/
structure IssuesCode (env : Env) (log : List AuthEvent) (i : AuthEvent) (r : OtpCode) : Prop where
  mem : i ∈ log
  issue : ∃ phone_number fp otp salt code_hash, i.req = .otp_request phone_number fp ∧
    (∃ u ∈ i.pre.users, u.id = r.user_id ∧ env.coll.same u.phone_number phone_number) ∧
      env.bcrypt_hash salt otp = .ok code_hash ∧
        Collation.varchar 255 code_hash = some r.code_hash ∧
          ∀ e ∈ log, e.tid = i.tid → ∀ number text, e.op = .send_sms number text →
            number = phone_number ∧ text = otp
  expires : ∃ now : Nat, now ≤ i.pre.clock ∧
    r.expires_at = DateTime.to_datetime ⟨now + OTP_EXPIRY_SECS * 1000000000⟩

/-- What a call sends is the code that it drew. -/
theorem sent_drawn (h : AuthRun env S (start clock) ls d) {e : AuthEvent} (he : e ∈ d.world.log)
    {number text : String} (hop : e.op = .send_sms number text) :
    (∃ fp, e.req = .otp_request number fp) ∧
      drawn_code (history e.tid d.world.log) = some text := by
  obtain ⟨before, after, split⟩ := List.append_of_mem he
  have hguard := h.guard (serve_issues_code env) split
  rw [hop] at hguard
  obtain ⟨fp, hreq, hdrawn⟩ := hguard
  exact ⟨⟨fp, hreq⟩, drawn_code_prefix (history_grows ⟨_, split.symm⟩) hdrawn⟩

/-- A user that a call selected is still there. -/
theorem selected_user (h : AuthRun env S (start clock) ls d) {before after : List AuthEvent}
    {e : AuthEvent} (split : d.world.log = before ++ e :: after) {phone_number user_id : String}
    (hread : did (.select_user_by_phone phone_number) (some (some user_id)) ∈
      history e.tid before) {v : Uuid} (hv : Uuid.parse_str user_id = some v) :
    ∃ u ∈ e.pre.users, u.id = v ∧ env.coll.same u.phone_number phone_number := by
  obtain ⟨a, _, _, hdid, hprec⟩ := event_of_history after e hread
  rw [← split] at hprec
  obtain ⟨_, _, _, hexec⟩ := h.did hprec.left hdid
  obtain ⟨u, hu, htext⟩ := Option.map_eq_some_iff.mp (exec_select_user hexec).symm
  obtain ⟨hmem, hsame⟩ := List.mem_filter.mp (limit_one_mem hu)
  rw [← htext, Uuid.parse_str_to_string, Option.some.injEq] at hv
  have stay : UsersStay a.pre e.pre := (users_stay env).trans
    (by obtain ⟨_, _, _, hexec⟩ := h.executed hprec.left; exact (users_stay env).exec hexec)
    (h.between (users_stay env) hprec)
  obtain ⟨u', hu', hid, hphone⟩ := stay u hmem
  exact ⟨u', hu', hid.trans hv, hphone ▸ of_decide_eq_true hsame⟩

/-- The time that a call has read has come. -/
theorem clock_read (h : AuthRun env S (start clock) ls d) {before after : List AuthEvent}
    {e : AuthEvent} (split : d.world.log = before ++ e :: after) {now : DateTime}
    (hread : (⟨.utc_now, now⟩ : AuthDone) ∈ history e.tid before) :
    ∃ nanos : Nat, now = ⟨nanos⟩ ∧ nanos ≤ e.pre.clock := by
  obtain ⟨a, _, _, hdid, hprec⟩ := event_of_history after e hread
  rw [← split] at hprec
  obtain ⟨_, _, _, hexec⟩ := h.did hprec.left hdid
  refine ⟨a.pre.clock, (congrArg Prod.fst (Option.some.inj hexec)).symm, ?_⟩
  exact ((event_later h hprec.left).trans (h.between (later_follows env) hprec)).clock

/-- **Every code was issued**, before it is found. -/
theorem code_issued (h : AuthRun env S (start clock) ls d) {before after : List AuthEvent}
    {e : AuthEvent} (split : d.world.log = before ++ e :: after) {r : OtpCode}
    (hr : r ∈ e.pre.otp_codes) : ∃ i ∈ before, IssuesCode env d.world.log i r := by
  obtain ⟨i, hi, row, hstored, hb⟩ := h.world_at (P := fun w => ∀ r ∈ w.store.otp_codes,
    ∃ i ∈ w.log, ∃ row, Stored i row ∧ row.Becomes r) split otp_stored r hr
  have hmem : i ∈ d.world.log := split ▸ List.mem_append_left _ hi
  have huser : r.user_id = row.user_id := by rw [hb.same]
  have hcode : r.code_hash = row.code_hash := by rw [hb.same]
  have hexpires : r.expires_at = row.expires_at := by rw [hb.same]
  obtain ⟨id, user_id, code_hash, expires_at, hop, hrow, hvarchar, hexpiry⟩ := hstored.values
  obtain ⟨first, rest, split'⟩ := List.append_of_mem hmem
  have hguard := h.guard (serve_issues_code env) split'
  rw [hop] at hguard
  obtain ⟨phone_number, fp, hreq, hread, ⟨otp, salt, hdrawn, hhash⟩, now, hnow, rfl⟩ := hguard
  have hfull := drawn_code_prefix (history_grows ⟨_, split'.symm⟩) hdrawn
  refine ⟨i, hi, hmem, ⟨phone_number, fp, otp, salt, code_hash, hreq, ?_, hhash,
    hcode ▸ hvarchar, ?_⟩, ?_⟩
  · exact huser ▸ selected_user h split' hread (Uuid.parse_str_of_UUID_TO_BIN hrow)
  · intro x hx ht number text hsend
    obtain ⟨⟨fp', hreq'⟩, htext⟩ := sent_drawn h hx hsend
    have hsame := (h.obeys (serve_issues_code env)).same_req hx hmem ht
    rw [hreq, hreq'] at hsame
    rw [ht, hfull, Option.some.injEq] at htext
    cases hsame
    exact ⟨rfl, htext.symm⟩
  · obtain ⟨nanos, rfl, hle⟩ := clock_read h split' hnow
    exact ⟨nanos, hle, hexpires.trans hexpiry⟩

/-! ## Codes that are verified -/

/-- **A code of the user was verified in the call** that executes event `e`: it read a code that was
not used and that was issued within the last five minutes (to the second), and the text that it was
sent verifies against it. -/
structure CodeVerified (env : Env) (d : AuthConf) (e : AuthEvent) (u : Uuid) (otp_code : String)
    (read issue : AuthEvent) (r : OtpCode) : Prop where
  own : read.tid = e.tid
  order : Precedes d.world.log issue read ∧ Precedes d.world.log read e
  issued : IssuesCode env d.world.log issue r
  found : r ∈ read.pre.otp_codes
  user : r.user_id = u
  unused : r.used_at = none
  recent : read.pre.clock < issue.pre.clock + 301 * 1000000000
  verified : env.bcrypt_verify otp_code r.code_hash = .ok true

/-- A code that a SELECT found has not expired. -/
theorem select_otp_open {ch : Choice} {s s' : Store} {user_id : String} {row : OtpRow}
    (h : exec env ch s (.sql (.select_otp user_id)) = some (some (some row), s')) :
    ∃ r ∈ s.otp_codes, Uuid.UUID_TO_BIN user_id = some r.user_id ∧ r.used_at = none ∧
      s.now < r.expires_at ∧ row = ⟨r.id.to_string, r.code_hash, r.used_at⟩ := by
  obtain ⟨_, _, huser, _⟩ := exec_select_otp h
  obtain ⟨r, hr, rfl⟩ := Option.map_eq_some_iff.mp (exec_select_latest huser h).symm
  have hmem := limit_one_mem hr
  simp only [Store.latest_otps, List.mem_filter, Bool.and_eq_true, beq_iff_eq,
    decide_eq_true_eq] at hmem
  obtain ⟨⟨hcode, ⟨hsame, hexpires⟩, hunused⟩, _⟩ := hmem
  exact ⟨r, hcode, hsame ▸ huser, Option.isNone_iff_eq_none.mp hunused, hexpires, rfl⟩

theorem code_verified (h : AuthRun env S (start clock) ls d) {before after : List AuthEvent}
    {e : AuthEvent} (split : d.world.log = before ++ e :: after) {user_id otp_code : String}
    {row : OtpRow} (hread : did (.select_otp user_id) (some (some row)) ∈ history e.tid before)
    {u : Uuid} (parsed : Uuid.parse_str user_id = some u)
    (verified : env.bcrypt_verify otp_code row.code_hash = .ok true) :
    ∃ read issue r, row.otp_id = r.id.to_string ∧
      CodeVerified env d e u otp_code read issue r := by
  obtain ⟨read, hmem, own, hdid, hprec⟩ := event_of_history after e hread
  rw [← split] at hprec
  obtain ⟨_, _, _, hexec⟩ := h.did hprec.left hdid
  obtain ⟨r, hr, howner, unused, hexpires, rfl⟩ := select_otp_open hexec
  rw [Uuid.parse_str_of_UUID_TO_BIN howner, Option.some.injEq] at parsed
  obtain ⟨first, mid, rfl⟩ := List.append_of_mem hmem
  have split' : d.world.log = first ++ read :: (mid ++ e :: after) := by simp [split]
  obtain ⟨issue, hissue, issued⟩ := code_issued h split' hr
  refine ⟨read, issue, r, rfl, own, ⟨⟨first, _, split', hissue⟩, hprec⟩, issued, hr, parsed, unused,
    ?_, verified⟩
  obtain ⟨now, hnow, hexpiry⟩ := issued.expires
  rw [hexpiry] at hexpires
  simp only [Store.now, DateTime.to_datetime, DateTime.bind, OTP_EXPIRY_SECS] at hexpires
  omega

end Kova.Auth

import Kova.Conc.Serial
import Kova.Auth.Credentials
import Kova.Auth.SessionLaws

/-!
# Which code counts

The three handlers that take a one-time code read the user's newest code among those that are still
open: unused and unexpired. So the code that counts is the last issued of the open ones
(`latest_code_iff`), not the last issued: when that one is used, an older code that is still open
counts again (`older_code_counts_again`). Which of two open codes with the same `created_at` is read
is left to MySQL, and nothing is said of them.
-/

set_option autoImplicit false

namespace Kova.Auth

open Conc

variable {env : Env} {S : AuthScope} {clock : Nat} {ls : List AuthLabel} {d : AuthConf}

/-- The code is that of the row. -/
def OtpCode.IsFor (env : Env) (r : OtpCode) (code : String) : Prop :=
  env.bcrypt_verify code r.code_hash = .ok true

/-- The row is the user's, unused and unexpired. -/
def OtpCode.Open (s : Store) (u : Uuid) (r : OtpCode) : Prop :=
  r.user_id = u ∧ r.used_at = none ∧ s.now < r.expires_at

/-- Of the rows with a property the last one issued. -/
def LastIssued (rows : List OtpCode) (P : OtpCode → Prop) (r : OtpCode) : Prop :=
  ∃ before after, rows = before ++ r :: after ∧ P r ∧ ∀ r' ∈ after, ¬ P r'

/-- No other open code of the user was issued in the same second as the last one. -/
def Untied (s : Store) (u : Uuid) : Prop :=
  ∀ r, LastIssued s.otp_codes (·.Open s u) r →
    ∀ r' ∈ s.otp_codes, r'.Open s u → r'.created_at = r.created_at → r' = r

/-- The call accepted its code: it went on to use it. -/
def Accepts (d : AuthConf) (t : Nat) : Prop :=
  ∃ e ∈ d.world.log, e.tid = t ∧ ∃ id, e.op = .sql (.use_otp id)

/-! ## The order of the rows -/

theorem exists_last_issued {P : OtpCode → Prop} : ∀ {rows : List OtpCode}, (∃ r ∈ rows, P r) →
    ∃ r, LastIssued rows P r
  | [], h => by
    obtain ⟨_, hr, _⟩ := h
    cases hr
  | a :: rows, h => by
    by_cases hrest : ∃ r ∈ rows, P r
    · obtain ⟨r, before, after, rfl, hr⟩ := exists_last_issued hrest
      exact ⟨r, a :: before, after, rfl, hr⟩
    · obtain ⟨r, hr, hP⟩ := h
      rcases List.mem_cons.mp hr with rfl | hr
      · exact ⟨r, [], rows, rfl, hP, fun r' hr' hP' => hrest ⟨r', hr', hP'⟩⟩
      · exact absurd ⟨r, hr, hP⟩ hrest

/-- The codes are in the order in which they were created, none later than now. -/
structure Store.CreatedInOrder (s : Store) : Prop where
  order : s.otp_codes.Pairwise fun a b => a.created_at ≤ b.created_at
  past : ∀ r ∈ s.otp_codes, r.created_at ≤ s.now

theorem created_consumed (u : Uuid) (at_ : Int) (r : OtpCode) :
    (if r.id = u then { r with used_at := some at_ } else r).created_at = r.created_at := by
  split <;> rfl

theorem Store.CreatedInOrder.exec {ch : Choice} {s s' : Store} (h : s.CreatedInOrder) {op : Op}
    {r : op.Res} (hexec : exec env ch s op = some (r, s')) : s'.CreatedInOrder := by
  have hnow : s'.now = s.now := by rw [Store.now, exec_clock hexec, Store.now]
  rcases exec_otp_rows hexec with hsame | ⟨_, _, _, _, row, _, _, hcreated, hrows⟩ | ⟨u, hrows⟩
  · refine ⟨?_, ?_⟩
    · rw [hsame]
      exact h.order
    · rw [hsame, hnow]
      exact h.past
  · refine ⟨?_, ?_⟩
    · rw [hrows]
      refine List.pairwise_append.mpr ⟨h.order, List.pairwise_singleton _ _, ?_⟩
      intro a ha b hb
      rw [List.mem_singleton.mp hb, hcreated]
      exact h.past a ha
    · rw [hrows, hnow]
      intro r hr
      rcases List.mem_append.mp hr with hr | hr
      · exact h.past r hr
      · rw [List.mem_singleton.mp hr]
        exact Int.le_of_eq hcreated
  · refine ⟨?_, ?_⟩
    · rw [hrows, Store.consume, List.pairwise_map]
      refine h.order.imp ?_
      intro a b hab
      rw [created_consumed, created_consumed]
      exact hab
    · rw [hrows, hnow]
      intro r hr
      obtain ⟨r₀, hr₀, rfl⟩ := List.mem_map.mp hr
      rw [created_consumed]
      exact h.past r₀ hr₀

theorem run_created_in_order (h : AuthRun env S (start clock) ls d) :
    d.world.store.CreatedInOrder := by
  refine h.store_invariant (P := Store.CreatedInOrder) (fun hc hexec => hc.exec hexec) ?_
    ⟨.nil, by simp [start, Conf.init]⟩
  rintro ⟨n⟩ s s' hc henv
  have hlater := (later_follows env).env henv
  cases henv
  exact ⟨hc.order, fun r hr => Int.le_trans (hc.past r hr) hlater.now⟩

/-- The order holds where an event was executed. -/
theorem event_created_in_order (h : AuthRun env S (start clock) ls d) {e : AuthEvent}
    (he : e ∈ d.world.log) : e.pre.CreatedInOrder := h.store_at he run_created_in_order

theorem mem_latest_otps {s : Store} {u : Uuid} {r : OtpCode} :
    r ∈ s.latest_otps u ↔ (r ∈ s.otp_codes ∧ r.Open s u) ∧
      ∀ r' ∈ s.otp_codes, r'.Open s u → r'.created_at ≤ r.created_at := by
  simp only [Store.latest_otps, List.mem_filter, List.all_eq_true, Bool.and_eq_true, beq_iff_eq,
    decide_eq_true_eq, Option.isNone_iff_eq_none, OtpCode.Open]
  constructor
  · rintro ⟨⟨hr, ⟨huser, hexp⟩, hused⟩, hall⟩
    exact ⟨⟨hr, huser, hused, hexp⟩, fun r' hr' ho => hall r' ⟨hr', ⟨ho.1, ho.2.2⟩, ho.2.1⟩⟩
  · rintro ⟨⟨hr, huser, hused, hexp⟩, hall⟩
    exact ⟨⟨hr, ⟨huser, hexp⟩, hused⟩, fun r' ho => hall r' ho.1 ⟨ho.2.1.1, ho.2.2, ho.2.1.2⟩⟩

/-- **Without a tie the query finds the last issued open code**, and no other. -/
theorem latest_otps_iff {s : Store} {u : Uuid} {r : OtpCode} (h : s.CreatedInOrder)
    (untied : Untied s u) (hr : LastIssued s.otp_codes (·.Open s u) r) (x : OtpCode) :
    x ∈ s.latest_otps u ↔ x = r := by
  have hmem : r ∈ s.otp_codes := by
    obtain ⟨before, after, hrows, _⟩ := hr
    rw [hrows]
    exact List.mem_append_right _ List.mem_cons_self
  have newest : ∀ r' ∈ s.otp_codes, r'.Open s u → r'.created_at ≤ r.created_at := by
    obtain ⟨before, after, hrows, _, hlast⟩ := hr
    intro r' hr' hopen
    have horder := h.order
    rw [hrows] at hr' horder
    rcases List.mem_append.mp hr' with hr' | hr'
    · exact (List.pairwise_append.mp horder).2.2 r' hr' r List.mem_cons_self
    · rcases List.mem_cons.mp hr' with rfl | hr'
      · exact Int.le_refl _
      · exact absurd hopen (hlast r' hr')
  have hopen : r.Open s u := by
    obtain ⟨_, _, _, hopen, _⟩ := hr
    exact hopen
  rw [mem_latest_otps]
  constructor
  · rintro ⟨⟨hx, hxopen⟩, hxnewest⟩
    exact untied r hr x hx hxopen (Int.le_antisymm (newest x hx hxopen) (hxnewest r hmem hopen))
  · rintro rfl
    exact ⟨⟨hmem, hopen⟩, newest⟩

/-! ## The check of a code -/

/-- No code was read. -/
def Unread (h : List AuthDone) : Prop := ∀ x ∈ h, ∀ user_id, x.op ≠ .sql (.select_otp user_id)

/-- What comes before the reading of a code, and before its use. -/
def checks (env : Env) (code : String) (h : List AuthDone) : Op → Prop
  | .sql (.select_otp _) => Unread h
  | .sql (.use_otp _) => ∃ user_id row, did (.select_otp user_id) (some (some row)) ∈ h ∧
      env.bcrypt_verify code row.code_hash = .ok true
  | _ => True

/-- A code that was read unused and verified was used. -/
def Checked (env : Env) (code : String) (h : List AuthDone) : Prop :=
  ∀ user_id row, did (.select_otp user_id) (some (some row)) ∈ h → row.used_at = none →
    env.bcrypt_verify code row.code_hash = .ok true → ∃ id y, did (.use_otp id) y ∈ h

section Steps

variable {code : String} {h h₀ : List AuthDone}

/-- Nothing was read. -/
theorem Unread.checked (hn : Unread h) : Checked env code h :=
  fun _ _ hread => absurd rfl (hn _ hread _)

/-- Nothing was read that the code is for. -/
theorem Unread.checked_reply (hn : Unread h) {user_id : String} {found : Option (Option OtpRow)}
    (hfound : ∀ row, found = some (some row) → row.used_at = none →
      env.bcrypt_verify code row.code_hash ≠ .ok true) :
    Checked env code (h ++ [did (.select_otp user_id) found]) := by
  intro user_id' row hread hused hverify
  rcases List.mem_append.mp hread with hread | hread
  · exact absurd rfl (hn _ hread _)
  · have heq := List.mem_singleton.mp hread
    injection heq with hop hres
    cases hop
    exact absurd hverify (hfound row hres.symm hused)

theorem checked_of_use {id : String} {y : Option Unit} (hused : did (.use_otp id) y ∈ h) :
    Checked env code h := fun _ _ _ _ _ => ⟨id, y, hused⟩

theorem CheckStep.checks {user_id : String} {op : Op}
    (step : CheckStep env user_id code h₀ h op) (unread : Unread h₀) : checks env code h op := by
  cases step with
  | read => exact unread
  | @use row verified =>
    exact ⟨user_id, row, List.mem_append_right _ List.mem_cons_self, verified⟩

theorem CheckEnd.checked {user_id : String} {r : Except Failure Unit}
    (ends : CheckEnd env user_id code h₀ h r) (unread : Unread h₀) : Checked env code h := by
  cases ends with
  | refused unverified => exact unread.checked_reply unverified
  | unanswered | used => exact checked_of_use mem_check_done.2

/-- A login reads the user first. -/
theorem unread_login (phone_number user_id : String) :
    Unread (login_read phone_number user_id) := by
  simp [Unread, login_read, did]

/-- A PIN handler reads the PIN hash first. -/
theorem unread_pin (claims : KovaClaims) (now : DateTime) (pin_hash : String) :
    Unread (pin_read claims now pin_hash) := by
  simp [Unread, pin_read, did]

theorem LoginEnd.checked {phone_number fingerprint : String} {r : Except Failure Response}
    (ends : LoginEnd env phone_number code fingerprint h r) : Checked env code h := by
  cases ends with
  | unknown => exact Unread.checked (by simp [Unread, did])
  | unchecked ends => exact ends.checked (unread_login _ _)
  | unissued => exact checked_of_use mem_check_done.2
  | issue ends => exact checked_of_use (ends.grown.subset mem_check_done.2)

theorem PinEnd.checked {claims : KovaClaims} {now : DateTime} {r : Except Failure Response}
    (ends : PinEnd env claims now code h r) : Checked env code h := by
  cases ends with
  | invalid => exact Unread.checked (by simp [Unread])
  | refused => exact Unread.checked (by simp [Unread, did])
  | unchecked ends => exact ends.checked (unread_pin _ _ _)
  | unhashed => exact checked_of_use (List.mem_append_left _ mem_check_done.2)
  | unstored | stored =>
    exact checked_of_use (List.mem_append_left _ (List.mem_append_left _ mem_check_done.2))

/-- **Every handler that takes a code** uses it exactly if what it read verifies. -/
theorem serve_checks (env : Env) (req : Request) :
    Guarded (fun h op => ∀ code, req.otp_code = some code → checks env code h op)
      (fun h _ => ∀ code, req.otp_code = some code → Checked env code h) (serve env req) [] := by
  refine (serve_steps env req).mono ?_ ?_
  · intro h op step code hcode
    cases step with
    | login step =>
      cases hcode
      cases step with
      | user => trivial
      | check step => exact step.checks (unread_login _ _)
      | issue _ _ step =>
        cases step with
        | inward inward => cases inward <;> trivial
        | insert => trivial
    | pin _ _ hcode' _ step =>
      obtain rfl := Option.some.inj (hcode'.symm.trans hcode)
      cases step with
      | read | salt | store => trivial
      | check _ step => exact step.checks (unread_pin _ _ _)
    | extract | cache => trivial
    | _ => cases hcode
  · intro h r ends code hcode
    cases ends with
    | rejected => exact Unread.checked (by simp [Unread])
    | login ends =>
      cases hcode
      exact ends.checked
    | pin _ hcode' ends =>
      obtain rfl := Option.some.inj (hcode'.symm.trans hcode)
      exact ends.checked
    | _ => cases hcode

end Steps

/-! ## Over a run -/

/-- A call reads a code once. -/
theorem otp_read_once (h : AuthRun env S (start clock) ls d) {a b : AuthEvent}
    (ha : a ∈ d.world.log) (hb : b ∈ d.world.log) (ht : a.tid = b.tid) {code : String}
    (hcode : a.req.otp_code = some code) {user_id user_id' : String}
    (hopa : a.op = .sql (.select_otp user_id)) (hopb : b.op = .sql (.select_otp user_id')) :
    a = b := by
  have hreq : a.req = b.req := (h.obeys (serve_checks env)).same_req ha hb ht
  have never : ∀ {x y : AuthEvent}, x.tid = y.tid → y.req.otp_code = some code →
      ∀ {v v'}, x.op = .sql (.select_otp v) → y.op = .sql (.select_otp v') →
        ¬ Precedes d.world.log x y := by
    rintro x y hxy hy v v' hx hyop ⟨before, after, split, hmem⟩
    have hguard := h.guard (serve_checks env) split code hy
    rw [hyop] at hguard
    exact hguard x.did (mem_history.mpr ⟨x, hmem, hxy, rfl⟩) v hx
  rcases precedes_total ha hb with heq | hab | hba
  · exact heq
  · exact absurd hab (never ht (hreq ▸ hcode) hopa hopb)
  · exact absurd hba (never ht.symm hcode hopb hopa)

/-- **The code that counts is the last issued of the open ones.** When the handlers execute one at a
time, a call that reads the codes of a user accepts the code it presents exactly if it is the code
of the last issued of that user's unused and unexpired rows. -/
theorem latest_code_iff (env : Env) (clock : Nat) (ls : List AuthLabel) (d : AuthConf)
    (h : Serial (machine env) (serve env) .all (start clock) ls d) (t : Nat) (req : Request)
    (res : Except Failure Response) (hr : d.returned t req res) (code : String)
    (hcode : req.otp_code = some code) (e : AuthEvent) (he : e ∈ d.world.log) (ht : e.tid = t)
    (user_id : String) (found : Option OtpRow)
    (hread : e.did = did (.select_otp user_id) (some found)) (u : Uuid)
    (hu : Uuid.UUID_TO_BIN user_id = some u) (untied : Untied e.pre u) :
    Accepts d t ↔ ∃ r, LastIssued e.pre.otp_codes (·.Open e.pre u) r ∧ r.IsFor env code := by
  have hrun := h.run
  have horder := event_created_in_order hrun he
  have hreq : e.req = req := hrun.own_req (serve_checks env) hr he ht
  obtain ⟨_, ch, _, hexec⟩ := hrun.did he hread
  have hfound := exec_select_latest hu hexec
  constructor
  · rintro ⟨b, hb, hbt, id, hop⟩
    -- What the call used it had read, and it read only once.
    obtain ⟨before, after, split⟩ := List.append_of_mem hb
    have hbreq : b.req = req := hrun.own_req (serve_checks env) hr hb hbt
    have hguard := hrun.guard (serve_checks env) split code (hbreq ▸ hcode)
    rw [hop] at hguard
    obtain ⟨user_id', row, hmem, hverify⟩ := hguard
    obtain ⟨a, ha, hat, hadid, _⟩ := event_of_history after b hmem
    have hsame : a = e := otp_read_once hrun (split ▸ List.mem_append_left _ ha) he
      (hat.trans (hbt.trans ht.symm))
      ((hrun.own_req (serve_checks env) hr (split ▸ List.mem_append_left _ ha)
        (hat.trans hbt)).symm ▸ hcode) (congrArg Done.op hadid) (congrArg Done.op hread)
    subst hsame
    rw [hread] at hadid
    injection hadid with hop' hres
    cases hop'
    cases hres
    obtain ⟨x, hx, hrow⟩ := Option.map_eq_some_iff.mp hfound.symm
    have hlatest := limit_one_mem hx
    obtain ⟨r, hlast⟩ := exists_last_issued ⟨x, (mem_latest_otps.mp hlatest).1⟩
    obtain rfl := (latest_otps_iff horder untied hlast x).mp hlatest
    rw [← hrow] at hverify
    exact ⟨x, hlast, hverify⟩
  · rintro ⟨r, hlast, hfor⟩
    have hlatest := (latest_otps_iff horder untied hlast r).mpr rfl
    obtain ⟨x, hx⟩ := limit_one_some ch.pick hlatest
    obtain rfl := (latest_otps_iff horder untied hlast x).mp (limit_one_mem hx)
    rw [hx, Option.map_some] at hfound
    subst hfound
    have hused := (mem_latest_otps.mp hlatest).1.2.2.1
    obtain ⟨id, y, hmem⟩ := hrun.answer (serve_checks env) hr code hcode user_id _
      (mem_history.mpr ⟨e, he, ht, hread⟩) hused hfor
    obtain ⟨b, hb, hbt, hbdid⟩ := mem_history.mp hmem
    exact ⟨b, hb, hbt, id, congrArg Done.op hbdid⟩

/-! ## Two codes -/

/-- The sample, with the hash of a second code. -/
def two_codes : Env :=
  { sample with
    bcrypt_hash := fun salt plain =>
      if salt = sample_salt ∧ plain = "654321" then
        .ok "$2b$10$abcdefghijklmnopqrstuut4BIfjsBRgXgoWYJIu7gGbSz9idv7iS"
      else sample.bcrypt_hash salt plain
    bcrypt_verify := fun plain hash =>
      if hash = "$2b$10$abcdefghijklmnopqrstuut4BIfjsBRgXgoWYJIu7gGbSz9idv7iS" then
        .ok (plain = "654321")
      else sample.bcrypt_verify plain hash }

/-- What a request for a code draws, up to the sending, and the choices of its counting. -/
def asking (draw : UInt32) (n : UInt8) (counting : List Choice) : List Choice :=
  {} :: {} :: { draws := [draw] } :: { text := sample_salt } :: { uuid := .low n } :: {} :: {} ::
    {} :: counting

/-- A user asks for a code, which is sent but not counted, a second later for another one, and logs
in with that. -/
def second_code_used : List AuthLabel :=
  uninterrupted 0 (.register "+2348012345678" "phone")
      [{ uuid := .low 1 }, {}, { uuid := .low 2 }, {}] ++
    (uninterrupted 1 (.otp_request "+2348012345678" "phone")
      (asking 123456 3 [{ fault := .failed }]) ++
    (.env (.advance 1000000000) ::
      (uninterrupted 2 (.otp_request "+2348012345678" "phone") (asking 654321 9 [{}, {}]) ++
        uninterrupted 3 (.otp_verify "+2348012345678" "654321" "phone")
          ({} :: {} :: {} :: issuing 'a' 20))))

/-- Then a login with the first code. -/
def first_code_used : List AuthLabel :=
  second_code_used ++ uninterrupted 4 (.otp_verify "+2348012345678" "123456" "phone")
    ({} :: {} :: {} :: issuing 'b' 30)

/-- What the reading of a code found, if the statement succeeded. -/
def read_code : AuthEvent → Option (String × Option OtpRow)
  | ⟨_, _, .sql (.select_otp user_id), _, some found, _⟩ => some (user_id, found)
  | _ => none

theorem read_code_did {e : AuthEvent} {user_id : String} {found : Option OtpRow}
    (h : read_code e = some (user_id, found)) :
    e.did = did (.select_otp user_id) (some found) := by
  obtain ⟨tid, req, op, pre, res, post⟩ := e
  cases op with
  | sql q =>
    cases q with
    | select_otp user_id' =>
      cases res with
      | none => cases h
      | some found' =>
        cases h
        rfl
    | _ => cases h
  | _ => cases h

def uses_code : AuthEvent → Bool
  | ⟨_, _, .sql (.use_otp _), _, _, _⟩ => true
  | _ => false

theorem uses_code_op {e : AuthEvent} (h : uses_code e = true) :
    ∃ id, e.op = .sql (.use_otp id) := by
  obtain ⟨tid, req, op, pre, res, post⟩ := e
  cases op with
  | sql q =>
    cases q with
    | use_otp id => exact ⟨id, rfl⟩
    | _ => cases h
  | _ => cases h

/-- Call `t` read and used a code of the sample user, and returned. -/
def logs_in (t : Nat) (code : String) (P : AuthEvent → Bool) (d : AuthConf) : Bool :=
  decide (d.pool[t]?.map (·.req) = some (.otp_verify "+2348012345678" code "phone")) &&
    ((d.result? t).isSome && (d.world.log.any (fun e => decide (e.tid = t) && uses_code e) &&
      d.world.log.any fun e => decide (e.tid = t) &&
        ((read_code e).any (fun x => decide (Uuid.UUID_TO_BIN x.1 = some (.low 1))) && P e)))

/-- The calls of a list of moves that log in one at a time. -/
theorem login_spec (moves : List AuthLabel) (t : Nat) (code : String) (P : AuthEvent → Bool)
    (h : (serial_replay (machine two_codes) (serve two_codes) (fun _ => true) sample_start
      moves).any (logs_in t code P) = true) :
    ∃ d res e user_id found,
      Serial (machine two_codes) (serve two_codes) .all sample_start moves d ∧
      d.returned t (.otp_verify "+2348012345678" code "phone") res ∧ Accepts d t ∧
      e ∈ d.world.log ∧ e.tid = t ∧ e.did = did (.select_otp user_id) (some found) ∧
      Uuid.UUID_TO_BIN user_id = some (.low 1) ∧ P e = true := by
  obtain ⟨d, hd, hchecks⟩ := (Option.any_eq_true _ _).mp h
  obtain ⟨hreq, hchecks⟩ := Bool.and_eq_true_iff.mp hchecks
  obtain ⟨hres, hchecks⟩ := Bool.and_eq_true_iff.mp hchecks
  obtain ⟨huse, hread⟩ := Bool.and_eq_true_iff.mp hchecks
  obtain ⟨res, hres⟩ := Option.isSome_iff_exists.mp hres
  obtain ⟨b, hb, huse⟩ := List.any_eq_true.mp huse
  obtain ⟨hbt, huse⟩ := Bool.and_eq_true_iff.mp huse
  obtain ⟨e, he, hread⟩ := List.any_eq_true.mp hread
  obtain ⟨het, hread⟩ := Bool.and_eq_true_iff.mp hread
  obtain ⟨hread, hP⟩ := Bool.and_eq_true_iff.mp hread
  obtain ⟨⟨user_id, found⟩, hread, huser⟩ := (Option.any_eq_true _ _).mp hread
  refine ⟨d, res, e, user_id, found, serial_of_replay ?_ hd,
    returned_of_result? (of_decide_eq_true hreq) hres,
    ⟨b, hb, of_decide_eq_true hbt, uses_code_op huse⟩, he, of_decide_eq_true het,
    read_code_did hread, of_decide_eq_true huser, hP⟩
  intro c l _
  cases l <;> simp [Scope.allows, Scope.all]

/-- The equivalence at the login with the newer code. -/
theorem latest_code_second : ∃ d e,
    Serial (machine two_codes) (serve two_codes) .all sample_start second_code_used d ∧
      e ∈ d.world.log ∧ ∃ r, LastIssued e.pre.otp_codes (·.Open e.pre (.low 1)) r ∧
        r.IsFor two_codes "654321" := by
  obtain ⟨d, res, e, user_id, found, hrun, hret, haccepts, he, het, hread, hu, htimes⟩ :=
    login_spec second_code_used 3 "654321"
      (fun e : AuthEvent => decide (e.pre.otp_codes.map OtpCode.created_at).Nodup)
      (by decide +kernel)
  have untied : Untied e.pre (.low 1) := by
    rintro r ⟨before, after, hrows, _⟩ r' hr' _ htime
    have hr : r ∈ e.pre.otp_codes := hrows ▸ List.mem_append_right _ List.mem_cons_self
    exact List.inj_on_of_nodup_map (of_decide_eq_true htimes) hr' hr htime
  exact ⟨d, e, hrun, he, (latest_code_iff two_codes _ second_code_used d hrun 3 _ res hret "654321"
    rfl e he het user_id found hread (.low 1) hu untied).mp haccepts⟩

/-- The newer code is used, and the older one is accepted. -/
theorem older_code_counts_again :
    ¬ ∀ (env : Env) (clock : Nat) (ls : List AuthLabel) (d : AuthConf),
      Serial (machine env) (serve env) .all (start clock) ls d →
        ∀ (t : Nat) (req : Request) (res : Except Failure Response), d.returned t req res →
          ∀ code, req.otp_code = some code → ∀ e ∈ d.world.log, e.tid = t →
            ∀ user_id found, e.did = did (.select_otp user_id) (some found) →
              ∀ u, Uuid.UUID_TO_BIN user_id = some u →
                (Accepts d t ↔ ∃ r, LastIssued e.pre.otp_codes (·.user_id = u) r ∧
                  r.Open e.pre u ∧ r.IsFor env code) := by
  intro claim
  obtain ⟨d, res, e, user_id, found, hrun, hret, haccepts, he, het, hread, hu, hlast⟩ :=
    login_spec first_code_used 4 "123456"
      (fun e : AuthEvent => e.pre.otp_codes.getLast?.any fun r : OtpCode =>
        decide (r.user_id = .low 1) && r.used_at.isSome) (by decide +kernel)
  obtain ⟨x, hx, hused⟩ := (Option.any_eq_true _ _).mp hlast
  obtain ⟨huser, hused⟩ := Bool.and_eq_true_iff.mp hused
  obtain ⟨r, ⟨before, after, hrows, _, hafter⟩, hopen, _⟩ :=
    (claim two_codes _ first_code_used d hrun 4 _ res hret "123456" rfl e he het user_id found hread
      (.low 1) hu).mp haccepts
  rw [hrows, List.getLast?_append_cons] at hx
  rcases List.eq_nil_or_concat after with rfl | ⟨rest, y, rfl⟩
  · simp only [List.getLast?_singleton, Option.some.injEq] at hx
    rw [← hx, hopen.2.1] at hused
    cases hused
  · rw [List.concat_eq_append, ← List.cons_append, List.getLast?_concat, Option.some.injEq] at hx
    subst hx
    exact hafter y (by simp) (of_decide_eq_true huser)

end Kova.Auth

import Kova.Conc.Solo
import Kova.Ledger.Digest
import Kova.Ledger.Rpc

/-!
# The amount that was asked for

An amount passes through a text, a decimal and a column, and is announced from the decimal. The
guards look at its sign only, so an amount that DECIMAL(19,4) does not have goes on to the INSERT:
one with more than four decimals is rounded, or refused by the table when it rounds to zero, and one
that is out of range is refused by the column. What is booked and announced is what was asked for,
and what cannot be booked is refused as invalid, if and only if the guards refuse the request or the
column has its amount (`as_asked_iff`).
-/

set_option autoImplicit false

namespace Kova.Ledger

open Conc Rpc

variable {v : Env} {from_str : String → Except String Decimal} {req : PostEntryRequest}
  {p : PostEntryParams}

/-! ## The guarantee -/

/-- The parser of the decimal crate reads a number that a decimal can hold exactly. -/
def ReadsExactly (from_str : String → Except String Decimal) : Prop :=
  ∀ text d n, from_str text = .ok d → Text.number text = some n → (∃ d' : Decimal, d'.toRat = n) →
    d.toRat = n

/-- The text writes a positive number that the column has. -/
def Bookable (text : String) : Prop := ∃ n, Text.number text = some n ∧ 0 < n ∧ Dec19_4.Holds n

/-- The request does not get past its fields and the guards. -/
def Refused (from_str : String → Except String Decimal) (req : PostEntryRequest) : Prop :=
  ∀ p, req.params from_str = .ok p → ¬ Validated p

/-- Call `t` was made for the request and has returned. -/
def Returns (from_str : String → Except String Decimal) (req : PostEntryRequest) (c : LedgerConf)
    (t : Nat) (r : Except LedgerError PostEntryResult) : Prop :=
  ∃ p, req.params from_str = .ok p ∧ c.returned t (.post_entry p) (r.map .posted)

/-- The entry is booked and announced with the number. -/
structure Booked (c : LedgerConf) (entry_id : Uuid) (n : ℚ) : Prop where
  entry : ∃ x ∈ c.world.store.entries, x.id = entry_id ∧ x.amount.toDecimal.toRat = n
  announced : ∃ o ∈ c.world.store.outbox, o.entry_id = entry_id
  payload : ∀ o ∈ c.world.store.outbox, o.entry_id = entry_id →
    ∃ text, ("amount", text) ∈ o.payload_json ∧ Text.number text = some n

/-- **What was asked for is what was booked and announced**, and what cannot be booked is invalid,
in every run of the service. -/
structure AsAsked (v : Env) (from_str : String → Except String Decimal) (req : PostEntryRequest) :
    Prop where
  booked : ∀ clock ls c, LedgerRun v (start clock) ls c → ∀ t r, Returns from_str req c t (.ok r) →
    r.was_idempotent = false → ∃ n, Text.number req.amount = some n ∧ Booked c r.entry_id n
  unread : ¬ Bookable req.amount → ∀ status, req.params from_str = .error status →
    status.code = .InvalidArgument
  invalid : ¬ Bookable req.amount → ∀ clock ls c, LedgerRun v (start clock) ls c →
    ∀ t r, Returns from_str req c t r → Invalid (reply r)

/-! ## Requests that are refused -/

section

variable {clock : Nat} {ls : List LedgerLabel} {c : LedgerConf} {t : Nat}

/-- What fails the guards is answered as invalid. -/
theorem invalid_of_refused (h : LedgerRun v (start clock) ls c) (hp : ¬ Validated p)
    {r : Except LedgerError PostEntryResult} (hr : c.returned t (.post_entry p) (r.map .posted)) :
    Invalid (reply r) := by
  have hconcludes := concluded h hr
  match r, hconcludes with
  | .ok _, ⟨valid, _⟩ => exact absurd valid hp
  | .error (.InvalidArgument message), _ => exact ⟨message, rfl⟩
  | .error .IdempotencyMismatch, ⟨valid, _⟩ => exact absurd valid hp
  | .error (.Database _), ⟨valid, _⟩ => exact absurd valid hp
  | .error (.DecimalParse _), ⟨valid, _⟩ => exact absurd valid hp
  | .error (.Internal _), ⟨valid, _⟩ => exact absurd valid hp

/-- What passes them is not. -/
theorem not_invalid_of_validated (h : LedgerRun v (start clock) ls c) (hp : Validated p)
    {r : Except LedgerError PostEntryResult} (hr : c.returned t (.post_entry p) (r.map .posted)) :
    ¬ Invalid (reply r) := by
  rintro ⟨message, hreply⟩
  have hconcludes := concluded h hr
  match r, hconcludes with
  | .ok _, _ => cases hreply
  | .error (.InvalidArgument _), hinvalid => exact hinvalid hp
  | .error .IdempotencyMismatch, _ => cases hreply
  | .error (.Database _), _ => cases hreply

end

/-! ## A request that passes -/

theorem validate_passes (valid : Validated p) : validate p = .ret () := by
  rcases validate_cases p with ⟨h, _⟩ | ⟨_, h⟩
  · exact h
  · exact absurd valid (validate_refused h)

/-- The identifiers of a posting by itself; no statement fails. -/
def posting_choices : List Choice :=
  [{ uuid := .low 10 }, {}, {}, {}, { uuid := .low 11 }, {}, {}]

/-- A posting by itself returns, whatever the column makes of its amount. -/
theorem posting_returns (v : Env) (valid : Validated p) :
    ∃ ls c r, LedgerRun v (start 0) ls c ∧ c.returned 0 (.post_entry p) r := by
  let begun : Store := { active := [0], minted := [(0, .low 10)] }
  let insert : Op := .sql (.insert_entry (p.values v.sha256_hex (.low 10) ⟨0⟩))
  have solo : ∃ r s, (machine v.db).solo 0 posting_choices (serve v (.post_entry p)) {} =
      some (r, s) := by
    simp only [serve, post_entry, validate_passes valid]
    show ∃ r s, ((machine v.db).exec 0 {} begun insert).bind _ = some (r, s)
    cases hrow : (p.values v.sha256_hex (.low 10) ⟨0⟩).row v.db with
    | none =>
      have hexec : (machine v.db).exec 0 {} begun insert = some (none, begun) := by
        simp [machine, exec, Sql.run, begun, insert, hrow]
        rfl
      rw [hexec]
      exact ⟨_, _, rfl⟩
    | some row =>
      have hexec : (machine v.db).exec 0 {} begun insert =
          some (some .inserted, { begun with pending := [(0, row)] }) := by
        simp [machine, exec, Sql.run, begun, insert, hrow, Store.pendingOf]
        rfl
      rw [hexec]
      exact ⟨_, _, rfl⟩
  obtain ⟨r, s, hsolo⟩ := solo
  obtain ⟨ls, c, hrun, hret⟩ := run_of_solo hsolo
  exact ⟨ls, c, r, hrun, hret⟩

/-- It is not answered as invalid. -/
theorem passes_answered (v : Env) {p : PostEntryParams} (hparams : req.params from_str = .ok p)
    (valid : Validated p) : ∃ ls c r, LedgerRun v (start 0) ls c ∧ Returns from_str req c 0 r ∧
      ¬ Invalid (reply r) := by
  obtain ⟨ls, c, r, hrun, hret⟩ := posting_returns v valid
  obtain ⟨r', rfl, _⟩ := hrun.answer (serve_traced v) hret
  exact ⟨ls, c, r', hrun, ⟨p, hparams, hret⟩, not_invalid_of_validated hrun valid hret⟩

/-! ## What is booked -/

/-- The announcement of an entry is of the amount that its call was asked for. -/
theorem announced_amount {clock : Nat} {ls : List LedgerLabel} {c : LedgerConf}
    (h : LedgerRun v (start clock) ls c) {t : Nat} (hasked : asked c t (.post_entry p))
    {entry_id : Uuid} (hminted : ⟨.now_v7, entry_id⟩ ∈ history t c.world.log) :
    ∀ o ∈ c.world.store.outbox, o.entry_id = entry_id →
      ("amount", p.amount.to_string) ∈ o.payload_json := by
  rintro o ho rfl
  obtain ⟨t', p', hasked', hminted', hpayload⟩ := outbox_request h ho
  obtain ⟨_, rfl⟩ := same_request h hminted hminted' hasked hasked'
  rw [hpayload]
  exact List.mem_cons_of_mem _ (List.mem_cons_of_mem _ List.mem_cons_self)

/-- **A new entry** has the number of its request in both tables, if the column has it. -/
theorem booked_exactly {clock : Nat} {ls : List LedgerLabel} {c : LedgerConf}
    (h : LedgerRun v (start clock) ls c) {t : Nat} {r : PostEntryResult}
    (hr : c.returned t (.post_entry p) (.ok (.posted r))) (hnew : r.was_idempotent = false)
    (holds : Dec19_4.Holds p.amount.toRat) : Booked c r.entry_id p.amount.toRat := by
  have inv : Inv v.db c.world.store := (service_sound h).inv
  obtain ⟨row, hid, hout⟩ := posted_outcome h hr
  obtain ⟨valid, hconcludes⟩ := concluded h (r := .ok r) hr
  rw [if_neg (Bool.eq_false_iff.mp hnew)] at hout hconcludes
  obtain ⟨_, hvalues⟩ := hout.values
  refine ⟨⟨row, hout.mem, hid, ?_⟩, ?_, ?_⟩
  · exact (Dec19_4.stored_exactly_iff (values_row hvalues).2.amount).mpr holds
  · have hlinked : row.id ∈ c.world.store.outbox.map (·.entry_id) :=
      inv.linked ▸ List.mem_map_of_mem hout.mem
    obtain ⟨o, ho, heq⟩ := List.mem_map.mp hlinked
    exact ⟨o, ho, heq.trans hid⟩
  · intro o ho heq
    exact ⟨_, announced_amount h (asked_of_returned hr) hconcludes.1 o ho heq,
      Decimal.number_to_string valid.mantissa_pos.le⟩

/-- **When what was asked for is what is booked**: if and only if the request is refused by its
fields or the guards, or DECIMAL(19,4) has its amount. -/
theorem as_asked_iff (v : Env) (from_str : String → Except String Decimal)
    (reads : ReadsExactly from_str) (req : PostEntryRequest) :
    AsAsked v from_str req ↔ Refused from_str req ∨ Bookable req.amount := by
  constructor
  · intro h
    by_contra hneither
    obtain ⟨hpasses, hbookable⟩ := not_or.mp hneither
    obtain ⟨p, hparams, hp⟩ : ∃ p, req.params from_str = .ok p ∧ Validated p := by
      simpa [Refused] using hpasses
    obtain ⟨ls, c, r, hrun, hret, hanswer⟩ := passes_answered v hparams hp
    exact hanswer (h.invalid hbookable 0 ls c hrun 0 r hret)
  · intro h
    refine ⟨?_, fun _ _ => params_error, ?_⟩
    · rintro clock ls c hrun t r ⟨p, hparams, hret⟩ hnew
      rcases h with hrefused | ⟨n, hn, hpos, holds⟩
      · exact absurd (concluded hrun (r := .ok r) hret).1 (hrefused p hparams)
      · obtain ⟨a, ha⟩ := holds
        have hamount := reads _ _ n (params_amount hparams) hn ⟨a.toDecimal, ha⟩
        refine ⟨n, hn, ?_⟩
        have hbooked := booked_exactly hrun hret hnew (hamount ▸ ⟨a, ha⟩)
        rw [hamount] at hbooked
        exact hbooked
    · rintro hbookable clock ls c hrun t r ⟨p, hparams, hret⟩
      rcases h with hrefused | hholds
      · exact invalid_of_refused hrun (hrefused p hparams) hret
      · exact absurd hholds hbookable

/-! ## Two samples -/

/-- A request over the wire, its identifiers as bytes. -/
def asking (amount : String) : PostEntryRequest where
  debit_account_id := (Uuid.low 1).bytes
  credit_account_id := (Uuid.low 2).bytes
  amount := amount
  currency := "NGN"
  idempotency_key := "pay-1"
  payment_id := []
  metadata_json := ""

/-- The parser, as far as it is asked for two amounts. -/
def reads_two (text : String) : Except String Decimal :=
  if text = "500.00" then .ok (payment "pay-1").amount
  else if text = "0.00005" then .ok small_payment.amount
  else .error "Invalid decimal: unknown character"

theorem reads_two_exactly : ReadsExactly reads_two := by
  have number : Text.number "500.00" = some (payment "pay-1").amount.toRat :=
    Decimal.number_to_string (d := (payment "pay-1").amount) (by decide)
  have number' : Text.number "0.00005" = some small_payment.amount.toRat :=
    Decimal.number_to_string (d := small_payment.amount) (by decide)
  intro text d n hread hn _
  unfold reads_two at hread
  split at hread
  · next htext =>
    cases hread
    rw [htext, number] at hn
    exact Option.some.inj hn
  · split at hread
    · next htext =>
      cases hread
      rw [htext, number'] at hn
      exact Option.some.inj hn
    · cases hread

/-- The guarantee for 500.00. -/
theorem as_asked_two_decimals : AsAsked sample reads_two (asking "500.00") := by
  have number : Text.number "500.00" = some (payment "pay-1").amount.toRat :=
    Decimal.number_to_string (d := (payment "pay-1").amount) (by decide)
  refine (as_asked_iff sample reads_two reads_two_exactly (asking "500.00")).mpr
    (.inr ⟨_, number, ?_, ⟨5000000, by decide⟩, ?_⟩) <;>
    norm_num [payment, Decimal.toRat, Dec19_4.toDecimal]

/-- 0.00005 is booked as 0.0001 and announced as 0.00005. -/
theorem as_asked_five_decimals :
    ¬ ∀ (v : Env) (from_str : String → Except String Decimal), ReadsExactly from_str →
      ∀ req, AsAsked v from_str req := by
  intro claim
  let c := replayed (machine sample.db) (serve sample) (start 0) (first_posting small_payment)
  have run : LedgerRun sample (start 0) (first_posting small_payment) c :=
    run_replayed (by decide +kernel)
  have returned : c.returned 0 (.post_entry small_payment) (.ok (.posted ⟨.low 10, false, ⟨0⟩⟩)) :=
    returned_of_result? rfl (by decide +kernel)
  have number : Text.number "0.00005" = some small_payment.amount.toRat :=
    Decimal.number_to_string (d := small_payment.amount) (by decide)
  have asked := claim sample reads_two reads_two_exactly (asking "0.00005")
  obtain ⟨n, hn, hbooked⟩ := asked.booked 0 _ c run 0 ⟨.low 10, false, ⟨0⟩⟩
    ⟨small_payment, rfl, returned⟩ rfl
  obtain rfl := Option.some.inj (number.symm.trans hn)
  obtain ⟨x, hx, _, hamount⟩ := hbooked.entry
  have stored : ∀ x ∈ c.world.store.entries, x.amount.units = 1 := by decide +kernel
  rw [Dec19_4.toRat_toDecimal, stored x hx] at hamount
  norm_num [Decimal.toRat, small_payment] at hamount

end Kova.Ledger

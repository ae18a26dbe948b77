import Kova.Codec.Hex
import Kova.Ledger.RowRequests
import Kova.Types.DecimalLaws

/-!
# What the payload digest tells apart

`compute_payload_hash` concatenates four fields without separators: two accounts of sixteen bytes,
the printed amount, and a currency code of three. The bytes are told apart from both ends, and a
printed amount is read in one way only, so equal bytes are one posting (`same_of_bytes`). With a
digest that has no collisions, an idempotent answer is given to a request for the accounts and the
currency of the stored entry. It is for the stored amount too unless the column has rounded it
(`idempotent_answer`).
-/

set_option autoImplicit false

namespace Kova.Ledger

open Conc

variable {v : Env} {p p' : PostEntryParams}

/-! ## The bytes -/

/-- The bytes of a request. -/
def PostEntryParams.bytes (p : PostEntryParams) : List UInt8 :=
  payload_bytes p.debit_account_id p.credit_account_id p.amount p.currency

/-- Two requests for one posting: the same accounts and currency, and one number. -/
structure SamePosting (p p' : PostEntryParams) : Prop where
  debit : p.debit_account_id = p'.debit_account_id
  credit : p.credit_account_id = p'.credit_account_id
  currency : p.currency = p'.currency
  amount : p.amount.toRat = p'.amount.toRat

theorem currency_bytes {c : String} (h : c ∈ SUPPORTED_CURRENCIES) : (Text.utf8 c).length = 3 := by
  have all : ∀ c ∈ SUPPORTED_CURRENCIES, (Text.utf8 c).length = 3 := by decide +kernel
  exact all c h

theorem Validated.mantissa_pos (h : Validated p) : 0 < p.amount.mantissa := by
  simpa [Decimal.le_zero] using h.amount

/-- Equal bytes are equal fields: the amount as it is printed. -/
theorem fields_of_bytes (valid : Validated p) (valid' : Validated p') (h : p.bytes = p'.bytes) :
    p.debit_account_id = p'.debit_account_id ∧ p.credit_account_id = p'.credit_account_id ∧
      p.amount.to_string = p'.amount.to_string ∧ p.currency = p'.currency := by
  have front : ∀ q : PostEntryParams, q.bytes = q.debit_account_id.bytes ++
      (q.credit_account_id.bytes ++ (Text.utf8 q.amount.to_string ++ Text.utf8 q.currency)) := by
    intro q
    simp only [PostEntryParams.bytes, payload_bytes, List.append_assoc]
    rfl
  have same_id : ∀ {a b : Uuid}, a.bytes = b.bytes → a = b := by
    rintro ⟨_, _⟩ ⟨_, _⟩ rfl
    rfl
  rw [front, front] at h
  obtain ⟨hdebit, h⟩ := List.append_inj h (by rw [Uuid.size, Uuid.size])
  obtain ⟨hcredit, h⟩ := List.append_inj h (by rw [Uuid.size, Uuid.size])
  -- the codes are of one length: what is left is cut from the end
  obtain ⟨hamount, hcurrency⟩ := List.append_inj' h
    (by rw [currency_bytes valid.currency, currency_bytes valid'.currency])
  exact ⟨same_id hdebit, same_id hcredit, Text.utf8_injective hamount,
    Text.utf8_injective hcurrency⟩

/-- **Equal bytes are one posting.** -/
theorem same_of_bytes (valid : Validated p) (valid' : Validated p') (h : p.bytes = p'.bytes) :
    SamePosting p p' := by
  obtain ⟨hdebit, hcredit, hamount, hcurrency⟩ := fields_of_bytes valid valid' h
  have hnumber := congrArg Text.number hamount
  rw [Decimal.number_to_string valid.mantissa_pos.le,
    Decimal.number_to_string valid'.mantissa_pos.le] at hnumber
  exact ⟨hdebit, hcredit, hcurrency, Option.some.inj hnumber⟩

/-! ## The answers -/

/-- The code of the column is the currency of the request. -/
theorem RowOf.currency_eq {x : EntryRow} (h : RowOf v p x) (valid : Validated p) :
    x.currency.code = p.currency := by
  have upper : ∀ c ∈ SUPPORTED_CURRENCIES, c.toList.all Char.isUpper = true := by decide
  have code : x.currency.code ∈ SUPPORTED_CURRENCIES := by cases x.currency <;> decide
  exact (v.db.capitals _ _ (upper _ valid.currency) (upper _ code) h.currency).symm

/-- A request and the stored entry that it is answered with. -/
structure SameAsStored (x : EntryRow) (p : PostEntryParams) : Prop where
  debit : x.debit_account_id = p.debit_account_id
  credit : x.credit_account_id = p.credit_account_id
  currency : x.currency.code = p.currency
  amount : x.amount.toDecimal.toRat = p.amount.toRat

section

variable {clock : Nat} {ls : List LedgerLabel} {c : LedgerConf}

/-- The entry that an idempotent answer names was posted for the same digest. -/
theorem answered_entry (h : LedgerRun v (start clock) ls c) {t : Nat} {r : PostEntryResult}
    (hr : c.returned t (.post_entry p) (.ok (.posted r))) (hidem : r.was_idempotent = true) :
    Validated p ∧ ∃ x ∈ c.world.store.entries, x.id = r.entry_id ∧
      ∃ t' p', PostedBy v c t' p' x ∧
        p'.payload_hash v.sha256_hex = p.payload_hash v.sha256_hex := by
  obtain ⟨valid, hconcludes⟩ := concluded h (r := .ok r) hr
  rw [if_pos hidem] at hconcludes
  obtain ⟨row, hread, hid, hhash, _⟩ := hconcludes
  obtain ⟨x, hx, _, rfl⟩ := read_by_key h hread
  obtain ⟨t', p', hposted⟩ := entry_request h hx
  refine ⟨valid, x, hx, hid, t', p', hposted, ?_⟩
  exact Option.some.inj (hposted.row_of.hash.symm.trans hhash)

end

/-- **The payload digest.** Equal bytes are one posting; and without collisions an idempotent
answer is for the accounts and the currency of the stored entry, and for its amount if and only if
the column has the number that was requested. -/
theorem idempotent_answer (v : Env) (free : Function.Injective v.sha256_hex) :
    (∀ p p', Validated p → Validated p' → p.bytes = p'.bytes → SamePosting p p') ∧
    ∀ clock ls c, LedgerRun v (start clock) ls c → ∀ t p r,
      c.returned t (.post_entry p) (.ok (.posted r)) → r.was_idempotent = true →
        ∃ x ∈ c.world.store.entries, x.id = r.entry_id ∧
          x.debit_account_id = p.debit_account_id ∧ x.credit_account_id = p.credit_account_id ∧
            x.currency.code = p.currency ∧
              (SameAsStored x p ↔ Dec19_4.Holds p.amount.toRat) := by
  refine ⟨fun p p' => same_of_bytes, ?_⟩
  intro clock ls c h t p r hr hidem
  obtain ⟨valid, x, hx, hid, _, p', hposted, hhash⟩ := answered_entry h hr hidem
  have row_of := hposted.row_of
  have same := same_of_bytes hposted.valid valid (free hhash)
  have hdebit := row_of.debit.trans same.debit
  have hcredit := row_of.credit.trans same.credit
  have hcurrency := (row_of.currency_eq hposted.valid).trans same.currency
  refine ⟨x, hx, hid, hdebit, hcredit, hcurrency, ?_⟩
  rw [← same.amount]
  constructor
  · intro stored
    exact (Dec19_4.stored_exactly_iff row_of.amount).mp (stored.amount.trans same.amount.symm)
  · intro holds
    have hamount := (Dec19_4.stored_exactly_iff row_of.amount).mpr holds
    exact ⟨hdebit, hcredit, hcurrency, hamount.trans same.amount⟩

/-! ## Two samples -/

/-- A digest without collisions that is the real one on one payload. -/
def sealing (payload : List UInt8) (digest : String) (bytes : List UInt8) : String :=
  if bytes = payload then digest else String.ofList ('.' :: Hex.encode bytes)

theorem sealing_injective {payload : List UInt8} {digest : String}
    (h : digest.toList.head? ≠ some '.') : Function.Injective (sealing payload digest) := by
  have other : ∀ bytes, digest ≠ String.ofList ('.' :: Hex.encode bytes) := by
    rintro bytes rfl
    exact h (by rw [String.toList_ofList, List.head?_cons])
  intro a b hab
  unfold sealing at hab
  split at hab
  · next ha =>
    split at hab
    · next hb => exact ha.trans hb.symm
    · exact absurd hab (other b)
  · split at hab
    · exact absurd hab.symm (other a)
    · have hcodes := (List.cons.inj (String.ofList_injective hab)).2
      have hbytes := congrArg Hex.decode hcodes
      rw [Hex.decode_encode, Hex.decode_encode] at hbytes
      exact Option.some.inj hbytes

/-- The sample deployment with a digest that is the real one on the payload of one request. -/
def sealed (p : PostEntryParams) (digest : String) : Env :=
  { sample with sha256_hex := sealing p.bytes digest }

/-- A posting with nothing before it. -/
def first_posting (p : PostEntryParams) : List LedgerLabel := posting 0 (.low 10) (.low 11) p

/-- After it, one that finds its key taken. -/
def retrying (p : PostEntryParams) : List LedgerLabel :=
  [.spawn (.post_entry p), .run 1 { uuid := .low 12 }, .run 1 {}, .run 1 {}, .run 1 {}, .run 1 {},
    .run 1 {}]

/-- Where they lead to. -/
def in_turn (v : Env) (p p' : PostEntryParams) : LedgerConf :=
  replayed (machine v.db) (serve v) (start 0) (first_posting p ++ retrying p')

/-- The deployment in which the payment's digest is the real one. -/
def payments : Env :=
  sealed (payment "pay-1") "4cc38010cef4f30b941decb439f3b62744de2fe68d2251cb19383ff4b3ee3dda"

/-- A payment sent twice is answered with its entry, which is for 500.00. -/
theorem idempotent_answer_retry :
    ∃ x ∈ (in_turn payments (payment "pay-1") (payment "pay-1")).world.store.entries,
      x.id = .low 10 ∧ x.debit_account_id = .low 1 ∧ x.credit_account_id = .low 2 ∧
        x.currency.code = "NGN" ∧
          (SameAsStored x (payment "pay-1") ↔ Dec19_4.Holds (payment "pay-1").amount.toRat) :=
  (idempotent_answer payments (sealing_injective (by decide))).2 0
    (first_posting (payment "pay-1") ++ retrying (payment "pay-1")) _
    (run_replayed (by decide +kernel)) 1 (payment "pay-1") ⟨.low 10, true, ⟨0⟩⟩ (returned_of_result? rfl (by decide +kernel)) rfl

/-- A payment of 0.00005, which the column rounds to 0.0001. -/
def small_payment : PostEntryParams :=
  { payment "pay-1" with amount := ⟨5, 5, by decide, by decide⟩ }

def small_payments : Env :=
  sealed small_payment "25f76579d5d7a83d1cddbfc8a941d6ea2071f95dc7d0abe71773c2a495f3b5de"

/-- The retry of a small payment is answered with an entry for twice as much. -/
theorem idempotent_answer_rounded :
    ¬ ∀ v : Env, Function.Injective v.sha256_hex →
      (∀ p p', Validated p → Validated p' → p.bytes = p'.bytes → SamePosting p p') ∧
      ∀ clock ls c, LedgerRun v (start clock) ls c → ∀ t p r,
        c.returned t (.post_entry p) (.ok (.posted r)) → r.was_idempotent = true →
          ∃ x ∈ c.world.store.entries, x.id = r.entry_id ∧ SameAsStored x p := by
  intro claim
  have run : LedgerRun small_payments (start 0)
      (first_posting small_payment ++ retrying small_payment)
      (in_turn small_payments small_payment small_payment) := run_replayed (by decide +kernel)
  have answered : (in_turn small_payments small_payment small_payment).returned 1
      (.post_entry small_payment) (.ok (.posted ⟨.low 10, true, ⟨0⟩⟩)) :=
    returned_of_result? rfl (by decide +kernel)
  have both := claim small_payments (sealing_injective (by decide))
  obtain ⟨x, hx, _, hsame⟩ := both.2 _ _ _ run _ _ _ answered rfl
  have stored : ∀ x ∈ (in_turn small_payments small_payment small_payment).world.store.entries,
      x.amount.units = 1 := by decide +kernel
  have hamount := hsame.amount
  rw [Dec19_4.toRat_toDecimal, stored x hx] at hamount
  norm_num [Decimal.toRat, small_payment] at hamount

end Kova.Ledger

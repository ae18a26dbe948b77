import Kova.Ledger.Digest

/-!
# Retries

A posting is sent again under its key, after its entry has been committed. If the amount is written
with as many decimals as before, the digest is the one that is stored, and the call answers with the
entry unless the database fails it. If it is the same number with more zeros or fewer, the digest is
another one, and the retry is refused as a different payment (`retry_recognised`).
-/

set_option autoImplicit false

namespace Kova.Ledger

open Conc

variable {v : Env} {clock : Nat} {ls ms : List LedgerLabel} {c d : LedgerConf} {t t' : Nat}
  {p p' : PostEntryParams} {x y : EntryRow}

/-- **A retry is recognised**: it is answered with the entry, and only a statement that has failed
can fail it. -/
structure Recognised (d : LedgerConf) (t : Nat) (p : PostEntryParams) (x : EntryRow) : Prop where
  answered : ∀ r, d.returned t (.post_entry p) (.ok (.posted r)) →
    r = { entry_id := x.id, was_idempotent := true, created_at := .of_micros x.created_at }
  failed : ∀ e, d.returned t (.post_entry p) (.error e) →
    e = .Database .database ∧ ∃ q, did q none ∈ history t d.world.log

/-- It asks for the posting of the entry: the same key, accounts and currency, and one number. -/
structure Retries (p' p : PostEntryParams) : Prop where
  key : p'.idempotency_key = p.idempotency_key
  debit : p'.debit_account_id = p.debit_account_id
  credit : p'.credit_account_id = p.credit_account_id
  currency : p'.currency = p.currency
  amount : p'.amount.toRat = p.amount.toRat

/-- One entry has a key. -/
theorem same_entry (h : LedgerRun v (start clock) ls d) (hx : x ∈ d.world.store.entries)
    (hy : y ∈ d.world.store.entries) {key : String} (hkx : v.db.same x.idempotency_key key)
    (hky : v.db.same y.idempotency_key key) : y = x := by
  have inv : Inv v.db d.world.store := (service_sound h).inv
  exact inv.unique hy hx (.inr (Collation.same_trans hky (Collation.same_symm hkx)))

/-- The row read by a key is the entry that has it. -/
theorem read_entry (h : LedgerRun v (start clock) ls d) (hx : x ∈ d.world.store.entries)
    {key : String} (hkey : v.db.same x.idempotency_key key) {row : ExistingRow}
    (hread : did (.select_by_key key) (some (some row)) ∈ history t d.world.log) :
    row = ⟨x.id, x.payload_hash, x.created_at⟩ := by
  obtain ⟨y, hy, hkey', rfl⟩ := read_by_key h hread
  rw [same_entry h hx hy hkey hkey']

theorem exec_select_none {db : Engine} {ch : Choice} {s s' : Store} {key : String}
    (hexec : exec db t ch s (.sql (.select_by_key key)) = some (some none, s')) :
    ∀ r ∈ s.entries, ¬ db.same r.idempotency_key key := by
  rcases exec_sql hexec with ⟨hr, _⟩ | ⟨r', hrun, hr⟩
  · cases hr
  · cases hrun
    rcases hr with hr | hr
    · have hfind := Option.map_eq_none_iff.mp (Option.some.inj hr).symm
      simpa using List.find?_eq_none.mp hfind
    · cases hr

/-- A call that arrived later finds the entry. -/
theorem key_taken (hc : LedgerRun v (start clock) ls c) (hd : LedgerRun v c ms d)
    (later : c.pool.length ≤ t) (hx : x ∈ c.world.store.entries) {key : String}
    (hkey : v.db.same x.idempotency_key key) :
    did (.select_by_key key) (some none) ∉ history t d.world.log := by
  intro hread
  obtain ⟨e, he, htid, hdid⟩ := mem_history.mp hread
  obtain ⟨_, _, _, hexec⟩ := (hc.append hd).did he hdid
  have hmem := (late_event hc hd later he htid).1.subset hx
  exact exec_select_none (t := e.tid) hexec x hmem hkey

/-- It posts no entry of its own. -/
theorem posts_nothing (hc : LedgerRun v (start clock) ls c) (hd : LedgerRun v c ms d)
    (hx : x ∈ d.world.store.entries) (posted : PostedBy v c t p x) (later : c.pool.length ≤ t')
    (hkey : v.db.same x.idempotency_key p'.idempotency_key) {r : PostEntryResult}
    (hr : d.returned t' (.post_entry p') (.ok (.posted r))) : r.was_idempotent = true := by
  have whole := hc.append hd
  by_contra hnew
  obtain ⟨row, hid, hout⟩ := posted_outcome whole hr
  obtain ⟨_, hconcludes⟩ := concluded whole (r := .ok r) hr
  rw [if_neg hnew] at hout hconcludes
  obtain ⟨_, hvalues⟩ := hout.values
  obtain rfl := same_entry whole hx hout.mem hkey (Collation.same_symm (values_row hvalues).2.key)
  -- the entry has the identifier that this call has generated, which is not the one that posted it
  have hminted : ⟨.now_v7, row.id⟩ ∈ history t' d.world.log := hid ▸ hconcludes.1
  have hfirst : ⟨.now_v7, row.id⟩ ∈ history t d.world.log :=
    (history_grows hd.log_prefix).subset posted.minted
  have hsame := minted_by_one whole hfirst hminted
  obtain ⟨_, hcall, _⟩ := posted.asked
  have harrived := (List.getElem?_eq_some_iff.mp hcall).1
  omega

/-- The request is as valid as the first. -/
theorem Retries.validated (retries : Retries p' p) (hscale : p'.amount.scale = p.amount.scale)
    (valid : Validated p) : Validated p' := by
  have hamount := Decimal.eq_of_toRat hscale retries.amount
  exact ⟨hamount ▸ valid.amount, retries.debit ▸ retries.credit ▸ valid.sides,
    retries.currency ▸ valid.currency⟩

/-- At the same scale its digest is the stored one. -/
theorem Retries.hash (retries : Retries p' p) (hscale : p'.amount.scale = p.amount.scale) :
    p'.payload_hash v.sha256_hex = p.payload_hash v.sha256_hex := by
  have hamount := Decimal.eq_of_toRat hscale retries.amount
  simp only [PostEntryParams.payload_hash, retries.debit, retries.credit, retries.currency, hamount]

/-- At another scale, with a digest without collisions, it is another. -/
theorem Retries.other_hash (free : Function.Injective v.sha256_hex)
    (hscale : p'.amount.scale ≠ p.amount.scale) (valid' : Validated p') (valid : Validated p) :
    p'.payload_hash v.sha256_hex ≠ p.payload_hash v.sha256_hex := by
  intro hhash
  obtain ⟨_, _, hamount, _⟩ := fields_of_bytes valid' valid (free hhash)
  have hplaces := congrArg Text.places hamount
  rw [Decimal.places_to_string valid'.mantissa_pos.le,
    Decimal.places_to_string valid.mantissa_pos.le] at hplaces
  exact hscale hplaces

/-- **When a retry is recognised**: if its amount is written with as many decimals as the first, it
is answered with the entry or failed by the database. If it is not, no retry is answered. -/
theorem retry_recognised (v : Env) (clock : Nat) (ls ms : List LedgerLabel) (c d : LedgerConf)
    (hc : LedgerRun v (start clock) ls c) (hd : LedgerRun v c ms d) (t t' : Nat)
    (p p' : PostEntryParams) (x : EntryRow) (hx : x ∈ c.world.store.entries)
    (posted : PostedBy v c t p x) (later : c.pool.length ≤ t') (retries : Retries p' p) :
    (p'.amount.scale = p.amount.scale → Recognised d t' p' x) ∧
    (Function.Injective v.sha256_hex → p'.amount.scale ≠ p.amount.scale →
      ∀ r, ¬ d.returned t' (.post_entry p') (.ok (.posted r))) := by
  have whole := hc.append hd
  have hx' : x ∈ d.world.store.entries := (run_grows hd).entries.subset hx
  have hkey : v.db.same x.idempotency_key p'.idempotency_key :=
    retries.key ▸ Collation.same_symm posted.row_of.key
  have hstored : x.payload_hash = some (p.payload_hash v.sha256_hex) := posted.row_of.hash
  refine ⟨?_, ?_⟩
  · intro hscale
    have hhash := retries.hash (v := v) hscale
    refine ⟨?_, ?_⟩
    · intro r hr
      have hidem := posts_nothing hc hd hx' posted later hkey hr
      obtain ⟨_, hconcludes⟩ := concluded whole (r := .ok r) hr
      rw [if_pos hidem] at hconcludes
      obtain ⟨row, hread, hid, _, hcreated⟩ := hconcludes
      obtain rfl := read_entry whole hx' hkey hread
      obtain ⟨entry_id, was_idempotent, created_at⟩ := r
      obtain rfl := hid
      obtain rfl := hidem
      obtain rfl := hcreated
      rfl
    · intro e he
      have hconcludes := concluded whole (r := .error e) he
      match e, hconcludes with
      | .Database .database, ⟨_, hfailed⟩ => exact ⟨rfl, hfailed⟩
      | .Database .row_not_found, ⟨_, hread⟩ =>
        exact absurd hread (key_taken hc hd later hx hkey)
      | .Database .column_decode, ⟨_, row, hread, hnull⟩ =>
        obtain rfl := read_entry whole hx' hkey hread
        exact absurd (hstored.symm.trans hnull) (Option.some_ne_none _)
      | .IdempotencyMismatch, ⟨_, row, hash, hread, hrow, hne⟩ =>
        obtain rfl := read_entry whole hx' hkey hread
        exact absurd (Option.some.inj (hrow.symm.trans hstored)) (hhash ▸ hne)
      | .InvalidArgument _, hinvalid =>
        exact absurd (retries.validated hscale posted.valid) hinvalid
  · intro free hscale r hr
    have hidem := posts_nothing hc hd hx' posted later hkey hr
    obtain ⟨valid', hconcludes⟩ := concluded whole (r := .ok r) hr
    rw [if_pos hidem] at hconcludes
    obtain ⟨row, hread, _, hhash, _⟩ := hconcludes
    obtain rfl := read_entry whole hx' hkey hread
    exact Retries.other_hash free hscale valid' posted.valid
      (Option.some.inj (hhash.symm.trans hstored))

/-! ## Two samples -/

/-- A payment has been posted. -/
def once_posted (v : Env) (p : PostEntryParams) : LedgerConf :=
  replayed (machine v.db) (serve v) (start 0) (first_posting p)

/-- And another is sent after it. -/
def then_retried (v : Env) (p p' : PostEntryParams) : LedgerConf :=
  replayed (machine v.db) (serve v) (once_posted v p) (retrying p')

/-- The one request of the first configuration is the payment's. -/
theorem once_posted_by {v : Env} {p q : PostEntryParams} {t : Nat} {x : EntryRow}
    (hpool : (once_posted v p).pool.map Call.req = [.post_entry p])
    (posted : PostedBy v (once_posted v p) t q x) : q = p := by
  obtain ⟨call, hcall, hreq⟩ := posted.asked
  have hmem := List.mem_map_of_mem (f := Call.req) (List.mem_of_getElem? hcall)
  rw [hpool, List.mem_singleton, hreq] at hmem
  exact Request.post_entry.inj hmem

/-- The same payment again. -/
theorem same_payment_recognised :
    ∃ x ∈ (once_posted payments (payment "pay-1")).world.store.entries,
      Recognised (then_retried payments (payment "pay-1") (payment "pay-1")) 1
        (payment "pay-1") x := by
  have hc : LedgerRun payments (start 0) (first_posting (payment "pay-1"))
      (once_posted payments (payment "pay-1")) := run_replayed (by decide +kernel)
  have hd : LedgerRun payments (once_posted payments (payment "pay-1"))
      (retrying (payment "pay-1")) (then_retried payments (payment "pay-1") (payment "pay-1")) :=
    run_replayed (by decide +kernel)
  have hentries : (once_posted payments (payment "pay-1")).world.store.entries ≠ [] := by
    decide +kernel
  obtain ⟨x, hx⟩ := List.exists_mem_of_ne_nil _ hentries
  obtain ⟨t, q, posted⟩ := entry_request hc hx
  obtain rfl := once_posted_by rfl posted
  exact ⟨x, hx, (retry_recognised payments 0 _ _ _ _ hc hd t 1 _ _ x hx posted (by decide +kernel)
    ⟨rfl, rfl, rfl, rfl, rfl⟩).1 rfl⟩

/-- The payment with its amount written 500.0. -/
def rescaled_payment : PostEntryParams :=
  { payment "pay-1" with amount := ⟨5000, 1, by decide, by decide⟩ }

/-- The real digests of both payloads. -/
def two_digests : Env :=
  { sample with
    sha256_hex := fun bytes =>
      if bytes = rescaled_payment.bytes then
        "369295431879c880bad453696c9b6833e45596d308164ffb19c8b4f85e4da518"
      else "4cc38010cef4f30b941decb439f3b62744de2fe68d2251cb19383ff4b3ee3dda" }

/-- A payment of 500.00 that is sent again as 500.0 is refused. -/
theorem rescaled_payment_refused :
    ¬ ∀ (v : Env) (clock : Nat) (ls ms : List LedgerLabel) (c d : LedgerConf),
      LedgerRun v (start clock) ls c → LedgerRun v c ms d → ∀ (t t' : Nat)
        (p p' : PostEntryParams), ∀ x ∈ c.world.store.entries, PostedBy v c t p x →
          c.pool.length ≤ t' → Retries p' p → Recognised d t' p' x := by
  intro claim
  have hc : LedgerRun two_digests (start 0) (first_posting (payment "pay-1"))
      (once_posted two_digests (payment "pay-1")) := run_replayed (by decide +kernel)
  have hd : LedgerRun two_digests (once_posted two_digests (payment "pay-1"))
      (retrying rescaled_payment) (then_retried two_digests (payment "pay-1") rescaled_payment) :=
    run_replayed (by decide +kernel)
  have hentries : (once_posted two_digests (payment "pay-1")).world.store.entries ≠ [] := by
    decide +kernel
  obtain ⟨x, hx⟩ := List.exists_mem_of_ne_nil _ hentries
  obtain ⟨t, q, posted⟩ := entry_request hc hx
  obtain rfl := once_posted_by rfl posted
  have amount : rescaled_payment.amount.toRat = (payment "pay-1").amount.toRat := by
    norm_num [Decimal.toRat, rescaled_payment, payment]
  have recognised := claim two_digests 0 _ _ _ _ hc hd t 1 _ rescaled_payment x hx posted
    (by decide +kernel) ⟨rfl, rfl, rfl, rfl, amount⟩
  have refused : (then_retried two_digests (payment "pay-1") rescaled_payment).returned 1
      (.post_entry rescaled_payment) (.error .IdempotencyMismatch) :=
    returned_of_result? rfl (by decide +kernel)
  cases (recognised.failed _ refused).1

end Kova.Ledger

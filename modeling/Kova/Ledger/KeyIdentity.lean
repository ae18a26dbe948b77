import Kova.Ledger.ExactlyOnce
import Kova.Ledger.RowRequests

/-!
# Different keys

Whether two postings are one operation is decided by the collation of `idempotency_key`: the unique
index refuses the second one's INSERT, and the SELECT of the duplicate branch finds the first one's
entry, exactly if the collation takes the two keys for the same. So postings whose keys differ for
the collation keep apart (`keys_kept_apart`), and postings whose keys differ only in their case and
in trailing spaces do not: the second is answered with the entry of the first (`keys_confused`).
-/

set_option autoImplicit false

namespace Kova.Ledger

open Conc

variable {v : Env}

/-- **Two postings are two operations**: whatever the second comes to, it is not by the entry that
answered the first. -/
structure KeptApart (v : Env) (c : LedgerConf) (t t' : Nat) (p p' : PostEntryParams) : Prop where
  /-- When both succeed, each has an entry of its own under its key. -/
  posted : ∀ r r', c.returned t (.post_entry p) (.ok (.posted r)) →
    c.returned t' (.post_entry p') (.ok (.posted r')) → r.entry_id ≠ r'.entry_id ∧
      (∃ x ∈ c.world.store.entries, x.id = r.entry_id ∧
        v.db.same x.idempotency_key p.idempotency_key) ∧
      ∃ x ∈ c.world.store.entries, x.id = r'.entry_id ∧
        v.db.same x.idempotency_key p'.idempotency_key
  /-- A mismatch is with another entry, which has the second's key. -/
  mismatch : ∀ r, c.returned t (.post_entry p) (.ok (.posted r)) →
    c.returned t' (.post_entry p') (.error .IdempotencyMismatch) →
      ∃ x ∈ c.world.store.entries, x.id ≠ r.entry_id ∧
        v.db.same x.idempotency_key p'.idempotency_key ∧
          x.payload_hash ≠ some (p'.payload_hash v.sha256_hex)
  /-- The entry does not have the key that the second inserts. -/
  free : ∀ r, c.returned t (.post_entry p) (.ok (.posted r)) →
    ∀ e ∈ c.world.log, e.req = .post_entry p' → ∀ values, e.op = .sql (.insert_entry values) →
      ∀ x ∈ c.world.store.entries, x.id = r.entry_id →
        ¬ v.db.same x.idempotency_key values.idempotency_key

section

variable {clock : Nat} {ls : List LedgerLabel} {c : LedgerConf}

/-- The entry that answered a posting has no key but the posting's. -/
theorem entry_key (h : LedgerRun v (start clock) ls c) {t : Nat} {p : PostEntryParams}
    {r : PostEntryResult} (hr : c.returned t (.post_entry p) (.ok (.posted r))) {x : EntryRow}
    (hx : x ∈ c.world.store.entries) (hid : x.id = r.entry_id) :
    v.db.same x.idempotency_key p.idempotency_key := by
  obtain ⟨row, hrow, hrowid, hkey, _⟩ := (posted_outcome h hr).entry
  have inv : Inv v.db c.world.store := (service_sound h).inv
  obtain rfl := inv.unique hx hrow (.inl (hid.trans hrowid.symm))
  exact hkey

/-- What a call inserts has the key of its request. -/
theorem inserted_key (h : LedgerRun v (start clock) ls c) {p : PostEntryParams} {e : LedgerEvent}
    (he : e ∈ c.world.log) (hreq : e.req = .post_entry p) {values : EntryInsert}
    (hop : e.op = .sql (.insert_entry values)) : values.idempotency_key = p.idempotency_key := by
  obtain ⟨before, after, split⟩ := List.append_of_mem he
  obtain ⟨q, hq, hcarries⟩ := carried h split (hop ▸ rfl)
  obtain rfl : p = q := Request.post_entry.inj (hreq.symm.trans hq)
  rw [hop] at hcarries
  obtain ⟨_, _, _, rfl, _⟩ := hcarries
  rfl

end

/-- **Postings whose keys the collation tells apart** are two operations, in every configuration
that any interleaving of any calls reaches. -/
theorem keys_kept_apart (v : Env) (clock : Nat) (ls : List LedgerLabel) (c : LedgerConf)
    (h : LedgerRun v (start clock) ls c) (t t' : Nat) (p p' : PostEntryParams)
    (differ : ¬ v.db.same p.idempotency_key p'.idempotency_key) : KeptApart v c t t' p p' := by
  refine ⟨?_, ?_, ?_⟩
  · intro r r' hr hr'
    obtain ⟨x, hx, hid, hkey, _⟩ := (posted_outcome h hr).entry
    obtain ⟨x', hx', hid', hkey', _⟩ := (posted_outcome h hr').entry
    refine ⟨?_, ⟨x, hx, hid, hkey⟩, x', hx', hid', hkey'⟩
    intro hsame
    have hother := entry_key h hr hx' (hid'.trans hsame.symm)
    exact differ (Collation.same_trans (Collation.same_symm hother) hkey')
  · intro r hr hmismatch
    obtain ⟨_, row, hash, hread, hhash, hne⟩ :=
      concluded h (r := .error .IdempotencyMismatch) hmismatch
    obtain ⟨x, hx, hkey, rfl⟩ := read_by_key h hread
    refine ⟨x, hx, ?_, hkey, ?_⟩
    · intro hid
      exact differ (Collation.same_trans (Collation.same_symm (entry_key h hr hx hid)) hkey)
    · intro hsame
      exact hne (Option.some.inj (hhash.symm.trans hsame))
  · intro r hr e he hreq values hop x hx hid hkey
    rw [inserted_key h he hreq hop] at hkey
    exact differ (Collation.same_trans (Collation.same_symm (entry_key h hr hx hid)) hkey)

/-- Two payments under different keys, one after the other. -/
def two_keys : List LedgerLabel := posting_both (payment "pay-1") (payment "pay-2")

/-- Both are posted. -/
theorem two_keys_apart :
    ∃ c, LedgerRun sample (start 0) two_keys c ∧ c.world.store.entries.length = 2 ∧
      KeptApart sample c 0 1 (payment "pay-1") (payment "pay-2") := by
  obtain ⟨run, checked⟩ := replayed_spec (machine sample.db) (serve sample) (start 0) two_keys
    (fun c => c.world.store.entries.length = 2) (by decide +kernel)
  exact ⟨_, run, of_decide_eq_true checked,
    keys_kept_apart sample 0 two_keys _ run 0 1 _ _ (by decide +kernel)⟩

/-- Two keys that differ in their case and a trailing space are one. -/
theorem keys_confused :
    ¬ ∀ (v : Env) (clock : Nat) (ls : List LedgerLabel) (c : LedgerConf),
      LedgerRun v (start clock) ls c → ∀ (t t' : Nat) (p p' : PostEntryParams),
        p.idempotency_key ≠ p'.idempotency_key → p.idempotency_key.length ≤ 255 →
          p'.idempotency_key.length ≤ 255 → KeptApart v c t t' p p' := by
  intro claim
  have run : LedgerRun sample (start 0) race raced := run_replayed (by decide +kernel)
  have apart := claim sample 0 race raced run 0 1 (payment "pay-1") (payment "PAY-1 ") (by decide)
    (by decide) (by decide)
  have first : raced.returned 0 (.post_entry (payment "pay-1"))
      (.ok (.posted ⟨.low 10, false, ⟨1700000000000000000⟩⟩)) :=
    returned_of_result? rfl (by decide +kernel)
  have second : raced.returned 1 (.post_entry (payment "PAY-1 "))
      (.ok (.posted ⟨.low 10, true, ⟨1700000000000000000⟩⟩)) :=
    returned_of_result? rfl (by decide +kernel)
  exact (apart.posted _ _ first second).1 rfl

end Kova.Ledger

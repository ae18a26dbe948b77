import Kova.Ledger.PostingOrder
import Kova.Ledger.Retry
import Kova.Types.Timestamp

/-!
# The reply to a retry

The first reply to a posting is made of what the call has in memory, the reply to a retry of the
row that is stored. Both name one entry. The instant of the first is the reading of the clock, in
nanoseconds; the column keeps whole microseconds, so that the retry repeats the instant if and only
if the clock has been read at one (`repeated_reply_iff`).
-/

set_option autoImplicit false

namespace Kova.Ledger

open Conc

variable {v : Env} {clock : Nat} {ls ms : List LedgerLabel} {c d : LedgerConf} {t t' : Nat}
  {p : PostEntryParams} {r r' : PostEntryResult}

/-- One reply repeats another: the entry and its instant, as in memory so on the wire. -/
structure Repeats (r r' : PostEntryResult) : Prop where
  entry_id : r'.entry_id = r.entry_id
  created_at : r'.created_at = r.created_at
  timestamp : dt_to_timestamp r'.created_at = dt_to_timestamp r.created_at

/-- An instant survives the column if it is a whole number of microseconds. -/
theorem of_micros_bind_iff (dt : DateTime) :
    DateTime.of_micros dt.bind = dt ↔ dt.nanos % 1000 = 0 := by
  obtain ⟨nanos⟩ := dt
  simp only [DateTime.of_micros, DateTime.bind, DateTime.mk.injEq]
  omega

/-- A new entry is announced with the one reading of the clock. -/
theorem announced_reading (hc : LedgerRun v (start clock) ls c)
    (hr : c.returned t (.post_entry p) (.ok (.posted r))) (hnew : r.was_idempotent = false) :
    ⟨.utc_now, r.created_at⟩ ∈ history t c.world.log := by
  obtain ⟨r', heq, hannounces⟩ := hc.answer (serve_ordered v) hr
  obtain rfl := posted_inj (r := .ok r) heq
  exact hannounces hnew

/-- **The entry of a first reply** is stored under the announced identifier, its instant cut to
microseconds. -/
theorem first_entry (hc : LedgerRun v (start clock) ls c)
    (hr : c.returned t (.post_entry p) (.ok (.posted r))) (hnew : r.was_idempotent = false) :
    ∃ x ∈ c.world.store.entries, PostedBy v c t p x ∧ x.id = r.entry_id ∧
      x.created_at = r.created_at.bind := by
  obtain ⟨x, hid, hout⟩ := posted_outcome hc hr
  obtain ⟨_, hconcludes⟩ := concluded hc (r := .ok r) hr
  rw [if_neg (Bool.eq_false_iff.mp hnew)] at hout hconcludes
  have hasked := asked_of_returned hr
  -- the INSERT that stored the row is one of this call, which has read the clock once
  obtain ⟨e, he, values, hop, hrow⟩ :=
    (entry_inserted hc hout.mem).resolve_left List.not_mem_nil
  obtain ⟨before, after, split⟩ := List.append_of_mem he
  obtain ⟨q, hreq, hcarries⟩ := carried hc split (hop ▸ rfl)
  rw [hop] at hcarries
  obtain ⟨entry_id, created_at, valid, rfl, hminted⟩ := hcarries
  obtain ⟨rfl, _⟩ := values_row hrow
  have grown := history_grows (t := e.tid) ⟨_, split.symm⟩
  have hown : ⟨.now_v7, x.id⟩ ∈ history t c.world.log := hid ▸ hconcludes.1
  obtain ⟨rfl, rfl⟩ := same_request hc hown (grown.subset hminted) hasked
    (hreq ▸ asked_of_event hc he)
  have hordered := ordered_at hc hasked split rfl
  rw [hop] at hordered
  obtain ⟨_, now, hvalues, hread, _⟩ := hordered
  obtain rfl := read_once hc hasked (announced_reading hc hr hnew) (grown.subset hread)
  refine ⟨x, hout.mem, ⟨hasked, hown, valid, created_at, hrow⟩, hid, ?_⟩
  rw [EntryInsert.row_created_at hrow]
  exact congrArg (fun values => values.created_at.bind) hvalues

/-- **When a retry repeats the first reply**: if and only if the posting has read the clock at a
whole microsecond. -/
theorem repeated_reply_iff (v : Env) (clock : Nat) (ls ms : List LedgerLabel) (c d : LedgerConf)
    (hc : LedgerRun v (start clock) ls c) (hd : LedgerRun v c ms d) (t t' : Nat)
    (p : PostEntryParams) (r r' : PostEntryResult)
    (first : c.returned t (.post_entry p) (.ok (.posted r))) (new : r.was_idempotent = false)
    (later : c.pool.length ≤ t') (again : d.returned t' (.post_entry p) (.ok (.posted r'))) :
    Repeats r r' ↔ ∃ now, ⟨.utc_now, now⟩ ∈ history t c.world.log ∧ now.nanos % 1000 = 0 := by
  obtain ⟨x, hx, posted, hid, hstored⟩ := first_entry hc first new
  have recognised := (retry_recognised v clock ls ms c d hc hd t t' p p x hx posted later
    ⟨rfl, rfl, rfl, rfl, rfl⟩).1 rfl
  obtain rfl := recognised.answered r' again
  have hread := announced_reading hc first new
  have hiff := of_micros_bind_iff r.created_at
  rw [← hstored] at hiff
  constructor
  · intro repeats
    exact ⟨r.created_at, hread, hiff.mp repeats.created_at⟩
  · rintro ⟨now, hnow, hwhole⟩
    obtain rfl := read_once hc (asked_of_returned first) hread hnow
    have hsame := hiff.mpr hwhole
    exact ⟨hid, hsame, congrArg dt_to_timestamp hsame⟩

/-! ## Two samples -/

/-- The payment is posted by a service whose clock shows this. -/
def posted_at (clock : Nat) : LedgerConf :=
  replayed (machine payments.db) (serve payments) (start clock) (first_posting (payment "pay-1"))

/-- And sent again. -/
def retried_at (clock : Nat) : LedgerConf :=
  replayed (machine payments.db) (serve payments) (posted_at clock) (retrying (payment "pay-1"))

/-- At an instant of January 2026 with nothing below the microsecond, the retry repeats the first
reply. -/
theorem repeated_reply_micros :
    Repeats ⟨.low 10, false, ⟨1767225600123456000⟩⟩ ⟨.low 10, true, ⟨1767225600123456000⟩⟩ := by
  have hc : LedgerRun payments (start 1767225600123456000) (first_posting (payment "pay-1"))
      (posted_at 1767225600123456000) := run_replayed (by decide +kernel)
  have hd : LedgerRun payments (posted_at 1767225600123456000) (retrying (payment "pay-1"))
      (retried_at 1767225600123456000) := run_replayed (by decide +kernel)
  have first : (posted_at 1767225600123456000).returned 0 (.post_entry (payment "pay-1"))
      (.ok (.posted ⟨.low 10, false, ⟨1767225600123456000⟩⟩)) :=
    returned_of_result? rfl (by decide +kernel)
  have again : (retried_at 1767225600123456000).returned 1 (.post_entry (payment "pay-1"))
      (.ok (.posted ⟨.low 10, true, ⟨1767225600123456000⟩⟩)) :=
    returned_of_result? rfl (by decide +kernel)
  exact (repeated_reply_iff payments _ _ _ _ _ hc hd 0 1 _ _ _ first rfl (by decide +kernel)
    again).mpr ⟨_, announced_reading hc first rfl, by decide⟩

/-- 789 nanoseconds later the retry is told another instant. -/
theorem repeated_reply_cut :
    ¬ ∀ (v : Env) (clock : Nat) (ls ms : List LedgerLabel) (c d : LedgerConf),
      LedgerRun v (start clock) ls c → LedgerRun v c ms d → ∀ (t t' : Nat) (p : PostEntryParams)
        (r r' : PostEntryResult), c.returned t (.post_entry p) (.ok (.posted r)) →
          r.was_idempotent = false → c.pool.length ≤ t' →
            d.returned t' (.post_entry p) (.ok (.posted r')) → Repeats r r' := by
  intro claim
  have repeats := claim payments 1767225600123456789 _ _ (posted_at 1767225600123456789)
    (retried_at 1767225600123456789) (run_replayed (by decide +kernel))
    (run_replayed (by decide +kernel)) 0 1 (payment "pay-1")
    ⟨.low 10, false, ⟨1767225600123456789⟩⟩ ⟨.low 10, true, ⟨1767225600123456000⟩⟩
    (returned_of_result? rfl (by decide +kernel)) rfl (by decide +kernel)
    (returned_of_result? rfl (by decide +kernel))
  exact absurd repeats.created_at (by decide)

end Kova.Ledger

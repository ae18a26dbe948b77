import Kova.Ledger.OutboxRows

/-!
# The rows and their requests

Over a run every row of the two tables is given back to the request that it was inserted for: an
entry to its values (`entry_request`), an outbox row to its payload (`outbox_request`). An
identifier is of one call (`same_request`), and a duplicate is answered from a committed entry
(`read_by_key`).
-/

set_option autoImplicit false

namespace Kova.Ledger

open Conc

variable {v : Env}

section Runs

variable {clock : Nat} {ls : List LedgerLabel} {d : LedgerConf}

/-- The entry that call `t` posted for its request. -/
structure PostedBy (v : Env) (c : LedgerConf) (t : Nat) (p : PostEntryParams) (x : EntryRow) :
    Prop where
  asked : asked c t (.post_entry p)
  minted : ⟨.now_v7, x.id⟩ ∈ history t c.world.log
  valid : Validated p
  values : ∃ created_at, (p.values v.sha256_hex x.id created_at).row v.db = some x

theorem PostedBy.row_of {c : LedgerConf} {t : Nat} {p : PostEntryParams} {x : EntryRow}
    (h : PostedBy v c t p x) : RowOf v p x := by
  obtain ⟨_, hvalues⟩ := h.values
  exact (values_row hvalues).2

/-- The rows that the indexes of `ledger_entries` cover. -/
def Store.index_rows (s : Store) : List EntryRow := s.entries ++ s.pending.map (·.2)

/-- A row is new to the index by its INSERT. -/
theorem exec_index_rows {db : Engine} {t : Nat} {ch : Choice} {s s' : Store} {op : Op} {r : op.Res}
    (hexec : exec db t ch s op = some (r, s')) {x : EntryRow} (hx : x ∈ s'.index_rows) :
    x ∈ s.index_rows ∨ ∃ values, op = .sql (.insert_entry values) ∧ values.row db = some x := by
  cases exec_change hexec with
  | committed => exact .inl ((index_commitTx s t).subset hx)
  | ended => exact .inl (((List.filter_sublist.map _).append_left _).subset hx)
  | @inserted values row stored =>
    simp only [Store.index_rows, List.map_append, ← List.append_assoc] at hx
    rcases List.mem_append.mp hx with hx | hx
    · exact .inl hx
    · obtain rfl := List.mem_singleton.mp hx
      exact .inr ⟨values, rfl, stored⟩
  | same | begun | enqueued | minted => exact .inl hx

theorem outside_index_rows {o : Outside} {s s' : Store} (ho : outside o s = some s') {x : EntryRow}
    (hx : x ∈ s'.index_rows) : x ∈ s.index_rows := by
  cases o with
  | advance n =>
    cases ho
    exact hx
  | reap u =>
    cases ho
    exact ((List.filter_sublist.map _).append_left _).subset hx

/-- Each entry was in the index from the start, or has been inserted. -/
theorem entry_inserted {s : Store} (h : LedgerRun v (.init s) ls d) {x : EntryRow}
    (hx : x ∈ d.world.store.entries) : x ∈ s.index_rows ∨ ∃ e ∈ d.world.log, ∃ values,
      e.op = .sql (.insert_entry values) ∧ values.row v.db = some x := by
  by_cases hold : x ∈ s.index_rows
  · exact .inl hold
  · obtain ⟨e, he, hbefore, hafter⟩ := h.becomes (P := fun s => x ∈ s.index_rows)
      (fun ho hmem => outside_index_rows ho hmem) hold (List.mem_append_left _ hx)
    obtain ⟨_, _, _, hexec⟩ := h.executed he
    rcases exec_index_rows hexec hafter with hold | ⟨values, hop, hrow⟩
    · exact absurd hold hbefore
    · exact .inr ⟨e, he, values, hop, hrow⟩

/-- **Each entry has been posted** by a call, for its request. -/
theorem entry_request (h : LedgerRun v (start clock) ls d) {x : EntryRow}
    (hx : x ∈ d.world.store.entries) : ∃ t p, PostedBy v d t p x := by
  obtain ⟨e, he, values, hop, hrow⟩ := (entry_inserted h hx).resolve_left List.not_mem_nil
  obtain ⟨before, after, split⟩ := List.append_of_mem he
  obtain ⟨p, hreq, hcarries⟩ := carried h split (hop ▸ rfl)
  rw [hop] at hcarries
  obtain ⟨entry_id, created_at, valid, rfl, hminted⟩ := hcarries
  obtain ⟨rfl, _⟩ := values_row hrow
  have hminted := (history_grows ⟨_, split.symm⟩).subset hminted
  exact ⟨e.tid, p, hreq ▸ asked_of_event h he, hminted, valid, created_at, hrow⟩

/-- **Each outbox row has been enqueued** by the call that generated its entry's identifier. -/
theorem outbox_request (h : LedgerRun v (start clock) ls d) {o : OutboxRow}
    (ho : o ∈ d.world.store.outbox) : ∃ t p, asked d t (.post_entry p) ∧
      ⟨.now_v7, o.entry_id⟩ ∈ history t d.world.log ∧
        o.payload_json = p.outbox_payload o.entry_id := by
  obtain ⟨e, he, hop⟩ := (outbox_ids h).2 o (List.mem_append_left _ ho)
  obtain ⟨before, after, split⟩ := List.append_of_mem he
  obtain ⟨p, hreq, hcarries⟩ := carried h split (hop ▸ rfl)
  rw [hop] at hcarries
  obtain ⟨_, hpayload, hminted, _⟩ := hcarries
  have hminted := (history_grows ⟨_, split.symm⟩).subset hminted
  exact ⟨e.tid, p, hreq ▸ asked_of_event h he, hminted, hpayload⟩

/-- An identifier is of one call, and so of one request. -/
theorem same_request (h : LedgerRun v (start clock) ls d) {t t' : Nat} {p p' : PostEntryParams}
    {id : Uuid} (ht : ⟨.now_v7, id⟩ ∈ history t d.world.log)
    (ht' : ⟨.now_v7, id⟩ ∈ history t' d.world.log) (hp : asked d t (.post_entry p))
    (hp' : asked d t' (.post_entry p')) : t = t' ∧ p = p' := by
  have hsame := minted_by_one h ht ht'
  rw [← hsame] at hp'
  exact ⟨hsame, Request.post_entry.inj (asked_unique hp hp')⟩

/-- The row that a duplicate was answered from is a committed entry. -/
theorem read_by_key {s : Store} (h : LedgerRun v (.init s) ls d) {t : Nat} {key : String}
    {row : ExistingRow}
    (hread : did (.select_by_key key) (some (some row)) ∈ history t d.world.log) :
    ∃ r ∈ d.world.store.entries, v.db.same r.idempotency_key key ∧
      row = ⟨r.id, r.payload_hash, r.created_at⟩ := by
  obtain ⟨e, he, _, hdid⟩ := mem_history.mp hread
  obtain ⟨_, _, _, hexec⟩ := h.did he hdid
  obtain ⟨r, hr, hkey, hrow⟩ := exec_select_by_key (t := e.tid) hexec
  obtain ⟨_, new, hsplit, hnew⟩ := run_grows h
  have hmem : e ∈ new := by
    rw [hsplit] at he
    exact he
  exact ⟨r, (hnew e hmem).2.subset hr, hkey, hrow⟩

end Runs

end Kova.Ledger

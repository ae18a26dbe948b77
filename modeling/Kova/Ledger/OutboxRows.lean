import Kova.Ledger.PostingTrace

/-!
# The rows of the outbox

What a posting leaves in `ledger_outbox`: one row for each committed entry (`Inv.linked`), and no
two rows under one identifier (`outbox_ids`). The INSERT checks no index; the identifiers differ
because each was generated in the call that inserts the row, and a call inserts one row.
-/

set_option autoImplicit false

namespace Kova.Ledger

open Conc

variable {db : Engine} {v : Env} {t : Nat} {ch : Choice} {s s' : Store}

/-- The INSERT of an outbox row. -/
def OutboxRow.insert (row : OutboxRow) : Op :=
  .sql (.insert_outbox row.id row.entry_id row.payload_json)

/-- **What an operation does to the outbox**: rows of open transactions go, or are committed, or
one joins them. -/
theorem exec_outbox {op : Op} {r : op.Res} (h : exec db t ch s op = some (r, s')) :
    (s'.outbox = s.outbox ∧ s'.pending_outbox.Sublist s.pending_outbox) ∨
    (s'.outbox = s.outbox ++ s.pendingOutboxOf t ∧
      s'.pending_outbox = s.pending_outbox.filter (·.1 != t)) ∨
    ∃ row : OutboxRow, op = row.insert ∧ row.published_at = none ∧
      s'.outbox = s.outbox ∧ s'.pending_outbox = s.pending_outbox ++ [(t, row)] := by
  cases exec_change h with
  | committed => exact .inr (.inl ⟨rfl, rfl⟩)
  | ended => exact .inl ⟨rfl, List.filter_sublist⟩
  | @enqueued row _ unpublished => exact .inr (.inr ⟨row, rfl, unpublished, rfl, rfl⟩)
  | same | begun | inserted | minted => exact .inl ⟨rfl, List.Sublist.refl _⟩

/-- What inserts under an identifier. -/
theorem insert_of_enqueued {op : Op} {id : Uuid} (h : op.enqueued = some id) :
    ∃ entry_id payload, op = .sql (.insert_outbox id entry_id payload) := by
  cases op with
  | sql q =>
    cases q with
    | insert_outbox id' entry_id payload =>
      cases h
      exact ⟨entry_id, payload, rfl⟩
    | _ => cases h
  | _ => cases h

/-- A committed row stays. -/
theorem exec_outbox_subset {op : Op} {r : op.Res} (h : exec db t ch s op = some (r, s')) :
    s.outbox ⊆ s'.outbox := by
  rcases exec_outbox h with ⟨hout, _⟩ | ⟨hout, _⟩ | ⟨_, _, _, hout, _⟩
  · rw [hout]
    exact List.Subset.refl _
  · rw [hout]
    exact List.subset_append_left _ _
  · rw [hout]
    exact List.Subset.refl _

/-! ## Identifiers differ -/

/-- A UUID once generated stays generated. -/
theorem minted_follows (db : Engine) : Follows (machine db) fun s s' => s.minted ⊆ s'.minted where
  refl _ _ h := h
  trans h h' _ hp := h' (h hp)
  exec {t _ _ _ _ _} h := (exec_keeps (Nat.succ_ne_self t) h).minted
  env h := (outside_keeps h 0).minted

section

variable {clock : Nat} {ls : List LedgerLabel} {d : LedgerConf}

/-- A UUID is generated once. -/
theorem minted_once (h : LedgerRun v (start clock) ls d) {a b : Event Store Request Op Op.Res}
    {id : Uuid} (ha : a ∈ d.world.log) (hb : b ∈ d.world.log) (hda : a.did = ⟨.now_v7, id⟩)
    (hdb : b.did = ⟨.now_v7, id⟩) : a.tid = b.tid := by
  have apart : ∀ {x y : Event Store Request Op Op.Res}, x.did = ⟨.now_v7, id⟩ →
      y.did = ⟨.now_v7, id⟩ → ¬ Precedes d.world.log x y := by
    intro x y hx hy hxy
    obtain ⟨_, chx, _, hexecx⟩ := h.did hxy.left hx
    obtain ⟨_, chy, _, hexecy⟩ := h.did hxy.right hy
    have hexecx : exec v.db x.tid chx x.pre .now_v7 = some (id, x.post) := hexecx
    have hexecy : exec v.db y.tid chy y.pre .now_v7 = some (id, y.post) := hexecy
    obtain ⟨_, hpost⟩ := exec_now_v7 hexecx
    obtain ⟨hfresh, _⟩ := exec_now_v7 hexecy
    have kept := h.between (minted_follows v.db) hxy
    apply hfresh
    refine List.mem_map.mpr ⟨(x.tid, id), kept ?_, rfl⟩
    rw [hpost]
    exact List.mem_cons_self
  rcases precedes_total ha hb with rfl | hab | hba
  · rfl
  · exact absurd hab (apart hda hdb)
  · exact absurd hba (apart hdb hda)

theorem minted_by_one (h : LedgerRun v (start clock) ls d) {t t' : Nat} {id : Uuid}
    (ht : ⟨.now_v7, id⟩ ∈ history t d.world.log) (ht' : ⟨.now_v7, id⟩ ∈ history t' d.world.log) :
    t = t' := by
  obtain ⟨a, ha, rfl, hda⟩ := mem_history.mp ht
  obtain ⟨b, hb, rfl, hdb⟩ := mem_history.mp ht'
  exact minted_once h ha hb hda hdb

/-- A call inserts one row, under an identifier that was generated for it. -/
theorem enqueued_first (h : LedgerRun v (start clock) ls d) {before after : List LedgerEvent}
    {e : LedgerEvent} (split : d.world.log = before ++ e :: after) {id : Uuid}
    (hid : e.op.enqueued = some id) :
    ⟨.now_v7, id⟩ ∈ history e.tid before ∧ Unused (history e.tid before) := by
  obtain ⟨entry_id, payload, hop⟩ := insert_of_enqueued hid
  obtain ⟨_, _, hcarries⟩ := carried h split (hop ▸ rfl)
  rw [hop] at hcarries
  obtain ⟨_, _, _, _, first⟩ := hcarries
  exact first

/-- No identifier is used twice. -/
theorem enqueued_once (h : LedgerRun v (start clock) ls d) {a b : LedgerEvent}
    (hab : Precedes d.world.log a b) {id : Uuid} (ha : a.op.enqueued = some id) :
    b.op.enqueued ≠ some id := by
  intro hb
  obtain ⟨before, after, split, hmem⟩ := hab
  obtain ⟨hmintb, hfirst⟩ := enqueued_first h split hb
  obtain ⟨before', after', rfl⟩ := List.append_of_mem hmem
  have split' : d.world.log = before' ++ a :: (after' ++ b :: after) := by simp [split]
  obtain ⟨hminta, _⟩ := enqueued_first h split' ha
  have hsame : a.tid = b.tid :=
    minted_by_one h ((history_grows ⟨_, split'.symm⟩).subset hminta)
      ((history_grows ⟨_, split.symm⟩).subset hmintb)
  have hnone := hfirst a.did (mem_history.mpr ⟨a, hmem, hsame, rfl⟩)
  rw [show a.did.op = a.op from rfl, ha] at hnone
  cases hnone

end

/-- The rows of `ledger_outbox`, whether their transaction has committed or not. -/
def Store.outbox_rows (s : Store) : List OutboxRow := s.outbox ++ s.pending_outbox.map (·.2)

/-- A commit moves rows, and the outbox holds the same ones. -/
theorem commit_outbox_rows (s : Store) (t : Nat) :
    (s.outbox ++ s.pendingOutboxOf t ++ (s.pending_outbox.filter (·.1 != t)).map (·.2)).Perm
      s.outbox_rows := by
  rw [List.append_assoc, Store.pendingOutboxOf, ← List.map_append]
  apply List.Perm.append_left
  apply List.Perm.map
  exact List.filter_append_perm (fun p : Nat × OutboxRow => p.1 == t) s.pending_outbox

theorem exec_outbox_rows {op : Op} {r : op.Res} (h : exec db t ch s op = some (r, s')) :
    s'.outbox_rows.Subperm s.outbox_rows ∨
    ∃ row : OutboxRow, op = row.insert ∧ s'.outbox_rows = s.outbox_rows ++ [row] := by
  rcases exec_outbox h with ⟨hout, hpending⟩ | ⟨hout, hpending⟩ | ⟨row, hop, _, hout, hpending⟩
  · refine .inl (List.Sublist.subperm ?_)
    rw [Store.outbox_rows, hout]
    exact (hpending.map _).append_left _
  · refine .inl (List.Perm.subperm ?_)
    rw [Store.outbox_rows, hout, hpending]
    exact commit_outbox_rows s t
  · refine .inr ⟨row, hop, ?_⟩
    simp [Store.outbox_rows, hout, hpending]

theorem nodup_of_subperm {α β : Type} {f : α → β} {l l' : List α} (h : l.Subperm l')
    (hl : (l'.map f).Nodup) : (l.map f).Nodup := by
  obtain ⟨m, hperm, hsub⟩ := h
  exact (hperm.map f).nodup_iff.mp (hl.sublist (hsub.map f))

/-- **No two rows of the outbox have one identifier**, and each has been inserted. -/
theorem outbox_ids {clock : Nat} {ls : List LedgerLabel} {d : LedgerConf}
    (h : LedgerRun v (start clock) ls d) : (d.world.store.outbox_rows.map (·.id)).Nodup ∧
      ∀ row ∈ d.world.store.outbox_rows, ∃ e ∈ d.world.log, e.op = row.insert := by
  induction h with
  | nil =>
    exact ⟨List.nodup_nil, by simp [start, Conf.init, Store.outbox_rows]⟩
  | @snoc d e ls l hrun hok hstep ih =>
    have whole := hrun.snoc hok hstep
    obtain ⟨hnodup, hfrom⟩ := ih
    rcases step_cases hstep with ⟨req, _, rfl⟩ |
      ⟨t, ch, call, op, next, r, s', _, hcall, _, hprog, hexec, rfl⟩ | ⟨t, call, _, hcall, rfl⟩ |
      ⟨o, s', _, henv, rfl⟩
    · exact ⟨hnodup, hfrom⟩
    · rcases exec_outbox_rows hexec with hsub | ⟨row, hop, hrows⟩
      · refine ⟨nodup_of_subperm hsub hnodup, ?_⟩
        intro row hrow
        obtain ⟨x, hx, hid⟩ := hfrom row (hsub.subset hrow)
        exact ⟨x, List.mem_append_left _ hx, hid⟩
      · refine ⟨?_, ?_⟩
        · show (s'.outbox_rows.map (·.id)).Nodup
          rw [hrows, List.map_append, List.nodup_append]
          refine ⟨hnodup, List.nodup_singleton _, ?_⟩
          rintro id hid _ hid' rfl
          obtain rfl := List.mem_singleton.mp hid'
          -- A row with this identifier has been inserted before.
          obtain ⟨old, hold, hsame⟩ := List.mem_map.mp hid
          obtain ⟨x, hx, hxop⟩ := hfrom old hold
          have hxid : x.op.enqueued = some row.id := by
            rw [hxop]
            exact congrArg some hsame
          refine enqueued_once whole (b := ⟨t, call.req, op, d.world.store, r, s'⟩)
            ⟨d.world.log, [], rfl, hx⟩ hxid ?_
          exact congrArg Op.enqueued hop
        · intro old hold
          have hold : old ∈ s'.outbox_rows := hold
          rw [hrows] at hold
          rcases List.mem_append.mp hold with hold | hold
          · obtain ⟨x, hx, hid⟩ := hfrom old hold
            exact ⟨x, List.mem_append_left _ hx, hid⟩
          · obtain rfl := List.mem_singleton.mp hold
            exact ⟨_, List.mem_append_right _ (List.mem_singleton_self _), hop⟩
    · exact ⟨hnodup, hfrom⟩
    · have hsub : s'.outbox_rows.Sublist d.world.store.outbox_rows := by
        cases o with
        | advance n =>
          cases henv
          exact List.Sublist.refl _
        | reap u =>
          cases henv
          exact (List.filter_sublist.map _).append_left _
      exact ⟨(hsub.map _).nodup hnodup, fun row hrow => hfrom row (hsub.subset hrow)⟩

/-- **Each committed entry has its outbox row**, and the rows are told apart by their identifiers
and by their entries. -/
theorem outbox_linked {clock : Nat} {ls : List LedgerLabel} {d : LedgerConf}
    (h : LedgerRun v (start clock) ls d) :
    (d.world.store.outbox.map (·.id)).Nodup ∧ (d.world.store.outbox.map (·.entry_id)).Nodup ∧
      d.world.store.outbox.map (·.entry_id) = d.world.store.entries.map (·.id) := by
  have hinv : Inv v.db d.world.store := (service_sound h).inv
  refine ⟨?_, ?_, hinv.linked⟩
  · exact ((List.sublist_append_left _ _).map _).nodup (outbox_ids h).1
  · rw [hinv.linked]
    apply List.pairwise_map.mpr
    apply (List.pairwise_append.mp hinv.index).1.imp
    intro r r' hclash hid
    exact hclash (.inl hid)

end Kova.Ledger

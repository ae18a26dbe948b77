import Mathlib.Data.List.Pairwise
import Mathlib.Data.List.Perm.Basic
import Kova.Ledger.Store

/-!
# What the ledger's statements keep

Read off each statement once, for every later argument:

- `exec_sql`: a failed statement leaves the store alone, a statement whose reply was lost did
  what it does (`run_insert_entry`, `run_commit` and the rest invert the statements);
- `exec_change`: what one operation can do to the store, one case for each change;
- `exec_keeps`: whatever call `t` executes, committed entries stay a prefix of the committed
  entries and no other call's transaction changes;
- `Inv` and its `Inv.*` lemmas: the rows of `ledger_entries`, committed or pending, are pairwise
  different for the unique indexes, and the committed outbox rows name the committed entries
  one by one. COMMIT is the only statement that needs a fact about its caller.
-/

namespace Kova.Ledger

open Conc

variable {db : Engine}

/-! ## Transactions -/

namespace Store

/-- The open transaction of a call: what it has inserted. -/
def view (s : Store) (t : Nat) : Option (List EntryRow × List OutboxRow) :=
  if t ∈ s.active then some (s.pendingOf t, s.pendingOutboxOf t) else none

theorem filter_owner {α : Type} (l : List (Nat × α)) {t u : Nat} (h : u ≠ t) :
    (l.filter (·.1 != t)).filter (·.1 == u) = l.filter (·.1 == u) := by
  rw [List.filter_filter]
  apply List.filter_congr
  intro p _
  by_cases hp : p.1 = u
  · simp [hp, h]
  · simp [hp]

theorem view_endTx_self (s : Store) (t : Nat) : (s.endTx t).view t = none := by
  simp [view, endTx]

theorem view_endTx_other (s : Store) {t u : Nat} (h : u ≠ t) :
    (s.endTx t).view u = s.view u := by
  simp [view, endTx, pendingOf, pendingOutboxOf, filter_owner _ h, h]

theorem view_commitTx_other (s : Store) {t u : Nat} (h : u ≠ t) :
    (s.commitTx t).view u = s.view u := view_endTx_other s h

end Store

/-- What the steps of others leave alone for call `t`: committed entries stay, its open
transaction is as it was unless the server ended it, and generated UUIDs stay generated. -/
structure Keeps (t : Nat) (s s' : Store) : Prop where
  entries : s.entries <+: s'.entries
  view : s'.view t = s.view t ∨ s'.view t = none
  minted : s.minted ⊆ s'.minted

theorem Keeps.refl (t : Nat) (s : Store) : Keeps t s s :=
  ⟨List.prefix_rfl, .inl rfl, fun _ h => h⟩

theorem Keeps.trans {t : Nat} {s₁ s₂ s₃ : Store} (h : Keeps t s₁ s₂) (h' : Keeps t s₂ s₃) :
    Keeps t s₁ s₃ := by
  refine ⟨h.entries.trans h'.entries, ?_, fun _ hp => h'.minted (h.minted hp)⟩
  rcases h'.view with heq | hnone
  · rw [heq]
    exact h.view
  · exact .inr hnone

/-- A call without an open transaction has none later. -/
theorem Keeps.view_none {t : Nat} {s s' : Store} (h : Keeps t s s') (hv : s.view t = none) :
    s'.view t = none := h.view.elim (fun heq => heq.trans hv) id

theorem keeps_endTx (s : Store) (t u : Nat) : Keeps u s (s.endTx t) := by
  refine ⟨List.prefix_rfl, ?_, fun _ h => h⟩
  by_cases h : u = t
  · exact .inr (h ▸ s.view_endTx_self u)
  · exact .inl (s.view_endTx_other h)

/-! ## The statements, inverted -/

/-- A statement fails without effect, or has its effect, the reply possibly lost. -/
theorem exec_sql {t : Nat} {ch : Choice} {s s' : Store} {q : Sql} {r : Option q.Res}
    (h : exec db t ch s (.sql q) = some (r, s')) :
    (r = none ∧ s' = s) ∨ ∃ r', q.run db t s = some (r', s') ∧ (r = r' ∨ r = none) :=
  fault_cases h

theorem run_begin {t : Nat} {s s' : Store} {r : Option Unit}
    (h : Sql.run db t s .begin = some (r, s')) :
    t ∉ s.active ∧ s' = { s with active := t :: s.active } := by
  simp only [Sql.run] at h
  split at h
  · cases h
  · next hnot =>
    cases h
    exact ⟨hnot, rfl⟩

theorem run_commit {t : Nat} {s s' : Store} {r : Option Unit}
    (h : Sql.run db t s .commit = some (r, s')) :
    (t ∈ s.active ∧ s' = s.commitTx t) ∨ (r = none ∧ s' = s) := by
  simp only [Sql.run] at h
  split at h
  · next hmem =>
    cases h
    exact .inl ⟨hmem, rfl⟩
  · cases h
    exact .inr ⟨rfl, rfl⟩

theorem run_rollback {t : Nat} {s s' : Store} {r : Option Unit}
    (h : Sql.run db t s .rollback = some (r, s')) : s' = s.endTx t := by
  cases h
  rfl

/-- The INSERT of an entry: an error, a unique violation against a row it can see, or a new
pending row that differs from every row of the index. -/
theorem run_insert_entry {t : Nat} {s s' : Store} {v : EntryInsert} {r : Option InsertResult}
    (h : Sql.run db t s (.insert_entry v) = some (r, s')) :
    (r = none ∧ s' = s) ∨ (r = some .unique_violation ∧ s' = s) ∨
    ∃ row, v.row db = some row ∧ t ∈ s.active ∧ r = some .inserted ∧
      (∀ x ∈ s.entries ++ s.pending.map (·.2), ¬ clash db row x) ∧
      s' = { s with pending := s.pending ++ [(t, row)] } := by
  simp only [Sql.run] at h
  split at h
  · next hmem =>
    split at h
    · cases h
      exact .inl ⟨rfl, rfl⟩
    · next row hrow =>
      split at h
      · cases h
        exact .inr (.inl ⟨rfl, rfl⟩)
      · next hseen =>
        split at h
        · cases h
        · next hwait =>
          cases h
          refine .inr (.inr ⟨row, hrow, hmem, rfl, fun x hx hclash => ?_, rfl⟩)
          rcases List.mem_append.mp hx with hx | hx
          · exact hseen ⟨x, List.mem_append_left _ hx, hclash⟩
          · obtain ⟨p, hp, rfl⟩ := List.mem_map.mp hx
            exact hwait ⟨p, hp, hclash⟩
  · cases h
    exact .inl ⟨rfl, rfl⟩

theorem run_insert_outbox {t : Nat} {s s' : Store} {id entry_id : Uuid}
    {payload : List (String × String)} {r : Option Unit}
    (h : Sql.run db t s (.insert_outbox id entry_id payload) = some (r, s')) :
    (r = none ∧ s' = s) ∨ ∃ row : OutboxRow, t ∈ s.active ∧
      (row.id = id ∧ row.entry_id = entry_id ∧ row.payload_json = payload ∧
        row.published_at = none ∧ row.topic = "kova.ledger.entry.created") ∧
      s' = { s with pending_outbox := s.pending_outbox ++ [(t, row)] } := by
  simp only [Sql.run] at h
  split at h
  · next hmem =>
    cases h
    exact .inr ⟨_, hmem, ⟨rfl, rfl, rfl, rfl, rfl⟩, rfl⟩
  · cases h
    exact .inl ⟨rfl, rfl⟩

theorem exec_utc_now {t : Nat} {ch : Choice} {s s' : Store} {r : DateTime}
    (h : exec db t ch s .utc_now = some (r, s')) : r = ⟨s.clock⟩ ∧ s' = s := by
  cases h
  exact ⟨rfl, rfl⟩

theorem exec_now_v7 {t : Nat} {ch : Choice} {s s' : Store} {r : Uuid}
    (h : exec db t ch s .now_v7 = some (r, s')) :
    r ∉ s.minted.map (·.2) ∧ s' = { s with minted := (t, r) :: s.minted } := by
  simp only [exec] at h
  split at h
  · cases h
  · next hfresh =>
    cases h
    exact ⟨hfresh, rfl⟩

/-- What one operation of call `t` can do to the store. -/
inductive StoreChange (db : Engine) (t : Nat) (s : Store) : Op → Store → Prop
  | same (op : Op) : StoreChange db t s op s
  | begun (new : t ∉ s.active) : StoreChange db t s (.sql .begin) { s with active := t :: s.active }
  | committed : StoreChange db t s (.sql .commit) (s.commitTx t)
  | ended : StoreChange db t s (.sql .rollback) (s.endTx t)
  | inserted {values : EntryInsert} {row : EntryRow} (stored : values.row db = some row)
      (mem : t ∈ s.active) (new : ∀ x ∈ s.entries ++ s.pending.map (·.2), ¬ clash db row x) :
      StoreChange db t s (.sql (.insert_entry values))
        { s with pending := s.pending ++ [(t, row)] }
  | enqueued {row : OutboxRow} (mem : t ∈ s.active) (unpublished : row.published_at = none) :
      StoreChange db t s (.sql (.insert_outbox row.id row.entry_id row.payload_json))
        { s with pending_outbox := s.pending_outbox ++ [(t, row)] }
  | minted {id : Uuid} (fresh : id ∉ s.minted.map (·.2)) :
      StoreChange db t s .now_v7 { s with minted := (t, id) :: s.minted }

theorem run_change {t : Nat} {s s' : Store} {q : Sql} {r : Option q.Res}
    (h : q.run db t s = some (r, s')) : StoreChange db t s (.sql q) s' := by
  cases q with
  | begin =>
    obtain ⟨new, rfl⟩ := run_begin h
    exact .begun new
  | commit =>
    rcases run_commit h with ⟨_, rfl⟩ | ⟨_, rfl⟩
    · exact .committed
    · exact .same _
  | rollback =>
    cases run_rollback h
    exact .ended
  | insert_entry values =>
    rcases run_insert_entry h with ⟨_, rfl⟩ | ⟨_, rfl⟩ | ⟨row, stored, mem, _, new, rfl⟩
    · exact .same _
    · exact .same _
    · exact .inserted stored mem new
  | insert_outbox id entry_id payload =>
    rcases run_insert_outbox h with ⟨_, rfl⟩ | ⟨row, mem, ⟨rfl, rfl, rfl, unpublished, _⟩, rfl⟩
    · exact .same _
    · exact .enqueued mem unpublished
  | select_by_key | select_balance | select_statement =>
    cases h
    exact .same _

/-- **What one operation can do**, to the tables and to the open transactions. -/
theorem exec_change {t : Nat} {ch : Choice} {s s' : Store} {op : Op} {r : op.Res}
    (h : exec db t ch s op = some (r, s')) : StoreChange db t s op s' := by
  cases op with
  | sql q =>
    rcases exec_sql h with ⟨_, rfl⟩ | ⟨r', hrun, _⟩
    · exact .same _
    · exact run_change hrun
  | utc_now =>
    obtain ⟨_, rfl⟩ := exec_utc_now h
    exact .same _
  | now_v7 =>
    obtain ⟨fresh, rfl⟩ := exec_now_v7 h
    exact .minted fresh

/-! ## What no statement of another call can change -/

/-- **Frame.** Whatever one call executes, it keeps what the other calls rely on. -/
theorem exec_keeps {t u : Nat} (hu : u ≠ t) {ch : Choice} {s s' : Store} {op : Op} {r : op.Res}
    (h : exec db t ch s op = some (r, s')) : Keeps u s s' := by
  cases exec_change h with
  | same => exact Keeps.refl u s
  | begun =>
    refine ⟨List.prefix_rfl, .inl ?_, fun _ hp => hp⟩
    simp [Store.view, Store.pendingOf, Store.pendingOutboxOf, hu]
  | committed => exact ⟨List.prefix_append _ _, .inl (s.view_commitTx_other hu), fun _ hp => hp⟩
  | ended => exact keeps_endTx s t u
  | inserted | enqueued =>
    refine ⟨List.prefix_rfl, .inl ?_, fun _ hp => hp⟩
    simp [Store.view, Store.pendingOf, Store.pendingOutboxOf, Ne.symm hu]
  | minted => exact ⟨List.prefix_rfl, .inl rfl, fun _ hp => List.mem_cons_of_mem _ hp⟩

theorem outside_keeps {e : Outside} {s s' : Store} (h : outside e s = some s') (u : Nat) :
    Keeps u s s' := by
  cases e with
  | advance n =>
    cases h
    exact ⟨List.prefix_rfl, .inl rfl, fun _ hp => hp⟩
  | reap t =>
    cases h
    exact keeps_endTx s t u

/-- Nothing but COMMIT changes the committed entries. -/
theorem exec_entries {t : Nat} {ch : Choice} {s s' : Store} {op : Op} {r : op.Res}
    (hop : op ≠ .sql .commit) (h : exec db t ch s op = some (r, s')) :
    s'.entries = s.entries := by
  cases exec_change h with
  | committed => exact absurd rfl hop
  | same | begun | ended | inserted | enqueued | minted => rfl

/-! ## The invariant -/

/-- What every row satisfies: the CHECK constraints, and an instant the clock can show. -/
structure RowOk (r : EntryRow) : Prop where
  positive : 0 < r.amount.units
  sides : r.debit_account_id ≠ r.credit_account_id
  since_epoch : 0 ≤ r.created_at
  storable : DateTime.storable r.created_at

structure Inv (db : Engine) (s : Store) : Prop where
  index : (s.entries ++ s.pending.map (·.2)).Pairwise fun r r' => ¬ clash db r r'
  linked : s.outbox.map (·.entry_id) = s.entries.map (·.id)
  owned : (∀ p ∈ s.pending, p.1 ∈ s.active) ∧ ∀ p ∈ s.pending_outbox, p.1 ∈ s.active
  fresh : (s.minted.map (·.2)).Nodup
  rows : ∀ r ∈ s.entries ++ s.pending.map (·.2), RowOk r

theorem inv_empty (clock : Nat) : Inv db { clock } :=
  ⟨List.Pairwise.nil, rfl, by simp, List.nodup_nil, by simp⟩

/-- Without an open transaction nothing is pending. -/
theorem Inv.nothing_pending {s : Store} (h : Inv db s) {t : Nat} (ht : t ∉ s.active) :
    s.pendingOf t = [] ∧ s.pendingOutboxOf t = [] := by
  constructor
  · rw [Store.pendingOf, List.map_eq_nil_iff, List.filter_eq_nil_iff]
    intro p hp heq
    exact ht (beq_iff_eq.mp heq ▸ h.owned.1 p hp)
  · rw [Store.pendingOutboxOf, List.map_eq_nil_iff, List.filter_eq_nil_iff]
    intro p hp heq
    exact ht (beq_iff_eq.mp heq ▸ h.owned.2 p hp)

/-- Beginning a transaction keeps the invariant, and the transaction is empty. -/
theorem Inv.begin {s : Store} (h : Inv db s) {t : Nat} (ht : t ∉ s.active) :
    Inv db { s with active := t :: s.active } ∧
      Store.view { s with active := t :: s.active } t = some ([], []) := by
  refine ⟨⟨h.index, h.linked, ⟨fun p hp => ?_, fun p hp => ?_⟩, h.fresh, h.rows⟩, ?_⟩
  · exact List.mem_cons_of_mem _ (h.owned.1 p hp)
  · exact List.mem_cons_of_mem _ (h.owned.2 p hp)
  · obtain ⟨he, ho⟩ := h.nothing_pending ht
    simp only [Store.view, List.mem_cons, true_or, ↓reduceIte]
    exact congrArg some (Prod.ext he ho)

/-- Ending a transaction keeps the invariant. -/
theorem Inv.endTx {s : Store} (h : Inv db s) (t : Nat) : Inv db (s.endTx t) := by
  have sub : (s.entries ++ (s.pending.filter (·.1 != t)).map (·.2)).Sublist
      (s.entries ++ s.pending.map (·.2)) :=
    (List.filter_sublist.map _).append_left _
  refine ⟨h.index.sublist sub, h.linked, ⟨fun p hp => ?_, fun p hp => ?_⟩, h.fresh,
    fun r hr => h.rows r (sub.subset hr)⟩
  · obtain ⟨hp, hne⟩ := List.mem_filter.mp hp
    exact List.mem_filter.mpr ⟨h.owned.1 p hp, hne⟩
  · obtain ⟨hp, hne⟩ := List.mem_filter.mp hp
    exact List.mem_filter.mpr ⟨h.owned.2 p hp, hne⟩

/-- A commit moves rows from pending to committed: the index holds the same rows. -/
theorem index_commitTx (s : Store) (t : Nat) :
    ((s.commitTx t).entries ++ (s.commitTx t).pending.map (·.2)).Perm
      (s.entries ++ s.pending.map (·.2)) := by
  show ((s.entries ++ s.pendingOf t) ++ (s.pending.filter (·.1 != t)).map (·.2)).Perm _
  rw [List.append_assoc, Store.pendingOf, ← List.map_append]
  apply List.Perm.append_left
  apply List.Perm.map
  have parts := List.filter_append_perm (fun p : Nat × EntryRow => p.1 == t) s.pending
  exact parts

/-- COMMIT keeps the invariant if the transaction's outbox rows name its entries. -/
theorem Inv.commitTx {s : Store} (h : Inv db s) {t : Nat}
    (hlink : (s.pendingOutboxOf t).map (·.entry_id) = (s.pendingOf t).map (·.id)) :
    Inv db (s.commitTx t) := by
  have ended := h.endTx t
  have perm := index_commitTx s t
  refine ⟨?_, ?_, ended.owned, h.fresh, fun r hr => h.rows r (perm.subset hr)⟩
  · exact (perm.pairwise_iff fun hc hclash => hc (clash_symm hclash)).mpr h.index
  · show (s.outbox ++ s.pendingOutboxOf t).map (·.entry_id) =
      (s.entries ++ s.pendingOf t).map (·.id)
    rw [List.map_append, List.map_append, h.linked, hlink]

/-- A row that clashes with no row of the index joins it as pending. -/
theorem Inv.insert {s : Store} (h : Inv db s) {t : Nat} (ht : t ∈ s.active) {row : EntryRow}
    (hok : RowOk row) (hnew : ∀ x ∈ s.entries ++ s.pending.map (·.2), ¬ clash db row x) :
    Inv db { s with pending := s.pending ++ [(t, row)] } := by
  have whole : s.entries ++ (s.pending ++ [(t, row)]).map (·.2) =
      (s.entries ++ s.pending.map (·.2)) ++ [row] := by
    rw [List.map_append, ← List.append_assoc]
    rfl
  refine ⟨?_, h.linked, ⟨fun p hp => ?_, h.owned.2⟩, h.fresh, fun r hr => ?_⟩
  · show (s.entries ++ (s.pending ++ [(t, row)]).map (·.2)).Pairwise _
    rw [whole, List.pairwise_append]
    refine ⟨h.index, List.pairwise_singleton _ _, fun x hx y hy hclash => ?_⟩
    obtain rfl := List.mem_singleton.mp hy
    exact hnew x hx (clash_symm hclash)
  · rcases List.mem_append.mp hp with hp | hp
    · exact h.owned.1 p hp
    · obtain rfl := List.mem_singleton.mp hp
      exact ht
  · have hr : r ∈ s.entries ++ (s.pending ++ [(t, row)]).map (·.2) := hr
    rw [whole] at hr
    rcases List.mem_append.mp hr with hr | hr
    · exact h.rows r hr
    · obtain rfl := List.mem_singleton.mp hr
      exact hok

theorem Inv.enqueue {s : Store} (h : Inv db s) {t : Nat} (ht : t ∈ s.active) (row : OutboxRow) :
    Inv db { s with pending_outbox := s.pending_outbox ++ [(t, row)] } := by
  refine ⟨h.index, h.linked, ⟨h.owned.1, fun p hp => ?_⟩, h.fresh, h.rows⟩
  rcases List.mem_append.mp hp with hp | hp
  · exact h.owned.2 p hp
  · obtain rfl := List.mem_singleton.mp hp
    exact ht

theorem Inv.mint {s : Store} (h : Inv db s) {t : Nat} {id : Uuid}
    (hfresh : id ∉ s.minted.map (·.2)) : Inv db { s with minted := (t, id) :: s.minted } :=
  ⟨h.index, h.linked, h.owned, List.nodup_cons.mpr ⟨hfresh, h.fresh⟩, h.rows⟩

theorem Inv.outside {e : Outside} {s s' : Store} (h : Inv db s)
    (he : Ledger.outside e s = some s') : Inv db s' := by
  cases e with
  | advance n =>
    cases he
    exact ⟨h.index, h.linked, h.owned, h.fresh, h.rows⟩
  | reap t =>
    cases he
    exact h.endTx t

/-- The CHECK constraints hold of every row an INSERT stores. -/
theorem EntryInsert.row_ok {v : EntryInsert} {row : EntryRow} (h : v.row db = some row)
    (since_epoch : 0 ≤ v.created_at.nanos) : RowOk row := by
  unfold EntryInsert.row at h
  split at h
  · split at h
    · next hcheck =>
      cases h
      exact ⟨hcheck.1, hcheck.2.1, Int.ediv_nonneg since_epoch (by decide), hcheck.2.2⟩
    · cases h
  · cases h

/-- A row is dated with the bound instant. -/
theorem EntryInsert.row_created_at {v : EntryInsert} {row : EntryRow} (h : v.row db = some row) :
    row.created_at = v.created_at.bind := by
  unfold EntryInsert.row at h
  split at h
  · split at h
    · cases h
      rfl
    · cases h
  · cases h

/-- The transaction of a call is complete: each of its entries has its outbox row. -/
def Store.complete (s : Store) (t : Nat) : Prop :=
  (s.pendingOutboxOf t).map (·.entry_id) = (s.pendingOf t).map (·.id)

/-- **Every operation keeps the invariant**, as long as an INSERT binds an instant after 1970 and
only complete transactions are committed. -/
theorem Inv.exec {s s' : Store} (h : Inv db s) {t : Nat} {ch : Choice} {op : Op} {r : op.Res}
    (hinsert : ∀ v, op = .sql (.insert_entry v) → 0 ≤ v.created_at.nanos)
    (hcommit : op = .sql .commit → s.complete t)
    (hexec : Ledger.exec db t ch s op = some (r, s')) : Inv db s' := by
  cases exec_change hexec with
  | same => exact h
  | begun new => exact (h.begin new).1
  | committed => exact h.commitTx (hcommit rfl)
  | ended => exact h.endTx t
  | inserted stored mem new =>
    exact h.insert mem (EntryInsert.row_ok stored (hinsert _ rfl)) new
  | enqueued mem => exact h.enqueue mem _
  | minted fresh => exact h.mint fresh

/-- Two committed entries that the unique index considers equal are one entry. -/
theorem Inv.unique {s : Store} (h : Inv db s) {r r' : EntryRow} (hr : r ∈ s.entries)
    (hr' : r' ∈ s.entries) (hclash : clash db r r') : r = r' := by
  have committed := (List.pairwise_append.mp h.index).1
  have : Std.Symm fun r r' => ¬ clash db r r' := ⟨fun _ _ hc hx => hc (clash_symm hx)⟩
  by_contra hne
  exact committed.forall hr hr' hne hclash

end Kova.Ledger

import Kova.Conc.Hosting
import Kova.Ledger.Outbox
import Kova.Ledger.OutboxRows

/-!
# What the worker's statements keep

Each statement inverted once (`run_select`, `run_mark`, `run_commit` and the rest), and what they
keep: `Inv` says that a row is locked by at most one transaction, that only open transactions
hold locks, and that what a transaction has updated it has locked. But for `published_at` the
worker leaves the ledger alone (`hosts`), so what holds of the ledger's rows holds here
(`outbox_linked`).
-/

set_option autoImplicit false

namespace Kova.Ledger.Outbox

open Conc

variable {db : Engine} {t u : Nat} {ch : Choice} {s s' : Store}

/-! ## The statements, inverted -/

theorem exec_posting {op : Ledger.Op} {r : op.Res}
    (h : exec db t ch s (.posting op) = some (r, s')) :
    ∃ ledger, Ledger.exec db t ch.posting s.ledger op = some (r, ledger) ∧
      s' = { s with ledger } := by
  obtain ⟨⟨r', ledger⟩, hexec, heq⟩ := Option.map_eq_some_iff.mp h
  cases heq
  exact ⟨ledger, hexec, rfl⟩

/-- A statement fails without effect, or has its effect, the reply possibly lost. -/
theorem exec_sql {q : Sql} {r : Option q.Res} (h : exec db t ch s (.sql q) = some (r, s')) :
    (r = none ∧ s' = s) ∨ ∃ r', q.run t ch.rows s = some (r', s') ∧ (r = r' ∨ r = none) :=
  fault_cases h

theorem exec_publish {topic key : String} {payload : List (String × String)}
    {r : Except LedgerError Unit} (h : exec db t ch s (.publish topic key payload) = some (r, s')) :
    r = ch.verdict ∧ s' = s := by
  cases h
  exact ⟨rfl, rfl⟩

variable {rows : List OutboxRow}

theorem run_begin {r : Option Unit} (h : Sql.run t rows s .begin = some (r, s')) :
    t ∉ s.open_tx ∧ s' = { s with open_tx := t :: s.open_tx } := by
  simp only [Sql.run] at h
  split at h
  · cases h
  · next hnot =>
    cases h
    exact ⟨hnot, rfl⟩

theorem mem_available {r : OutboxRow} :
    r ∈ s.available t ↔ r ∈ s.ledger.outbox ∧ r.published_at = none ∧ s.locked t r.id = false := by
  simp [Store.available]

theorem not_locked {id : Uuid} : s.locked t id = false ↔ ∀ p ∈ s.locks, p.2 = id → p.1 = t := by
  simp only [Store.locked, ne_eq, List.any_eq_false, Bool.and_eq_true, decide_eq_true_eq, not_and]
  constructor
  · intro h p hp hid
    by_contra hne
    exact h p hp hne hid
  · intro h p hp hne hid
    exact hne (h p hp hid)

/-- The SELECT answers rows that it may, and locks them. -/
theorem run_select {r : Option (List Message)} (h : Sql.run t rows s .select_batch = some (r, s')) :
    (t ∉ s.open_tx ∧ r = none ∧ s' = s) ∨ ∃ batch : List OutboxRow, t ∈ s.open_tx ∧
      r = some (batch.map .of) ∧ batch.Subperm (s.available t) ∧
      s' = { s with locks := s.locks ++ batch.map fun row => (t, row.id) } := by
  simp only [Sql.run] at h
  split at h
  · next ht =>
    split at h
    · next hrows =>
      cases h
      have sub : (rows.take 10).Subperm (s.available t) :=
        (List.take_sublist 10 rows).subperm.trans hrows.1.subperm
      exact .inr ⟨rows.take 10, ht, rfl, sub, rfl⟩
    · cases h
  · next ht =>
    cases h
    exact .inl ⟨ht, rfl, rfl⟩

theorem run_mark {id : Uuid} {r : Option Unit}
    (h : Sql.run t rows s (.mark_published id) = some (r, s')) :
    (t ∉ s.open_tx ∧ r = none ∧ s' = s) ∨ ∃ micros, t ∈ s.open_tx ∧ r = some () ∧
      s.locked t id = false ∧
      s' = { s with locks := s.locks ++ [(t, id)], marks := (t, id, micros) :: s.marks } := by
  simp only [Sql.run] at h
  split at h
  · next ht =>
    split at h
    · cases h
    · next hfree =>
      cases h
      exact .inr ⟨_, ht, rfl, Bool.eq_false_iff.mpr hfree, rfl⟩
  · next ht =>
    cases h
    exact .inl ⟨ht, rfl, rfl⟩

theorem run_commit {r : Option Unit} (h : Sql.run t rows s .commit = some (r, s')) :
    (t ∉ s.open_tx ∧ r = none ∧ s' = s) ∨ (t ∈ s.open_tx ∧ r = some () ∧ s' = s.commitTx t) := by
  simp only [Sql.run] at h
  split at h
  · next ht =>
    cases h
    exact .inr ⟨ht, rfl, rfl⟩
  · next ht =>
    cases h
    exact .inl ⟨ht, rfl, rfl⟩

theorem run_rollback {r : Option Unit} (h : Sql.run t rows s .rollback = some (r, s')) :
    r = some () ∧ s' = s.endTx t := by
  cases h
  exact ⟨rfl, rfl⟩

theorem exec_selected {batch : List Message}
    (h : exec db t ch s (.sql .select_batch) = some (some batch, s')) :
    ∃ rows : List OutboxRow, batch = rows.map .of ∧ rows.Subperm (s.available t) ∧
      s' = { s with locks := s.locks ++ rows.map fun row => (t, row.id) } := by
  rcases exec_sql h with ⟨hr, _⟩ | ⟨r', hrun, hr⟩
  · cases hr
  · rcases run_select hrun with ⟨_, rfl, _⟩ | ⟨rows, _, rfl, hsub, hs'⟩
    · rcases hr with hr | hr <;> cases hr
    · rcases hr with hr | hr
      · exact ⟨rows, Option.some.inj hr, hsub, hs'⟩
      · cases hr

theorem exec_marked {id : Uuid} {r : Unit}
    (h : exec db t ch s (.sql (.mark_published id)) = some (some r, s')) :
    ∃ micros, (t, id, micros) ∈ s'.marks := by
  rcases exec_sql h with ⟨hr, _⟩ | ⟨r', hrun, hr⟩
  · cases hr
  · rcases run_mark hrun with ⟨_, rfl, _⟩ | ⟨micros, _, _, _, rfl⟩
    · rcases hr with hr | hr <;> cases hr
    · exact ⟨micros, List.mem_cons_self⟩

/-- **What an operation of call `t` does to the store.** -/
inductive Effect (db : Engine) (t : Nat) (s : Store) : Op → Store → Prop
  | posting {ch : Ledger.Choice} {op : Ledger.Op} {r : op.Res} {ledger : Ledger.Store} :
      Ledger.exec db t ch s.ledger op = some (r, ledger) →
        Effect db t s (.posting op) { s with ledger }
  | nothing {op : Op} : (∀ op', op ≠ .posting op') → Effect db t s op s
  | begin : t ∉ s.open_tx → Effect db t s (.sql .begin) { s with open_tx := t :: s.open_tx }
  | select {batch : List OutboxRow} : t ∈ s.open_tx → batch.Subperm (s.available t) →
      Effect db t s (.sql .select_batch)
        { s with locks := s.locks ++ batch.map fun row => (t, row.id) }
  | mark {id : Uuid} {micros : Int} : t ∈ s.open_tx → s.locked t id = false →
      Effect db t s (.sql (.mark_published id))
        { s with locks := s.locks ++ [(t, id)], marks := (t, id, micros) :: s.marks }
  | commit : t ∈ s.open_tx → Effect db t s (.sql .commit) (s.commitTx t)
  | rollback : Effect db t s (.sql .rollback) (s.endTx t)

theorem exec_effect {op : Op} {r : op.Res} (h : exec db t ch s op = some (r, s')) :
    Effect db t s op s' := by
  cases op with
  | posting op =>
    obtain ⟨ledger, hexec, rfl⟩ := exec_posting h
    exact .posting hexec
  | publish topic key payload =>
    obtain ⟨_, rfl⟩ := exec_publish h
    exact .nothing fun _ hop => by cases hop
  | sql q =>
    have hsql : ∀ op', Op.sql q ≠ .posting op' := fun _ hop => by cases hop
    rcases exec_sql h with ⟨_, rfl⟩ | ⟨r', hrun, _⟩
    · exact .nothing hsql
    · cases q with
      | begin =>
        obtain ⟨ht, rfl⟩ := run_begin hrun
        exact .begin ht
      | select_batch =>
        rcases run_select hrun with ⟨_, _, rfl⟩ | ⟨batch, ht, _, hsub, rfl⟩
        · exact .nothing hsql
        · exact .select ht hsub
      | mark_published id =>
        rcases run_mark hrun with ⟨_, _, rfl⟩ | ⟨micros, ht, _, hfree, rfl⟩
        · exact .nothing hsql
        · exact .mark ht hfree
      | commit =>
        rcases run_commit hrun with ⟨_, _, rfl⟩ | ⟨ht, _, rfl⟩
        · exact .nothing hsql
        · exact .commit ht
      | rollback =>
        obtain ⟨_, rfl⟩ := run_rollback hrun
        exact .rollback

/-! ## Transactions -/

theorem mem_endTx_open : u ∈ (s.endTx t).open_tx ↔ u ∈ s.open_tx ∧ u ≠ t := by
  simp [Store.endTx]

theorem mem_endTx_locks {p : Nat × Uuid} : p ∈ (s.endTx t).locks ↔ p ∈ s.locks ∧ p.1 ≠ t := by
  simp [Store.endTx]

theorem mem_endTx_marks {m : Nat × Uuid × Int} :
    m ∈ (s.endTx t).marks ↔ m ∈ s.marks ∧ m.1 ≠ t := by
  simp [Store.endTx]

/-- A transaction is begun by its call. -/
theorem Effect.opened {op : Op} (h : Effect db t s op s') (hu : u ∈ s'.open_tx) :
    u ∈ s.open_tx ∨ (u = t ∧ op = .sql .begin) := by
  cases h with
  | begin _ =>
    rcases List.mem_cons.mp hu with hu | hu
    · exact .inr ⟨hu, rfl⟩
    · exact .inl hu
  | commit _ => exact .inl (mem_endTx_open.mp hu).1
  | rollback => exact .inl (mem_endTx_open.mp hu).1
  | posting _ | nothing _ | select _ _ | mark _ _ => exact .inl hu

/-- A transaction is ended by its call. -/
theorem Effect.stays_open {op : Op} (h : Effect db t s op s') (hu : u ∈ s.open_tx)
    (goes_on : u = t → op ≠ .sql .commit ∧ op ≠ .sql .rollback) : u ∈ s'.open_tx := by
  cases h with
  | begin _ => exact List.mem_cons_of_mem _ hu
  | commit _ => exact mem_endTx_open.mpr ⟨hu, fun heq => (goes_on heq).1 rfl⟩
  | rollback => exact mem_endTx_open.mpr ⟨hu, fun heq => (goes_on heq).2 rfl⟩
  | posting _ | nothing _ | select _ _ | mark _ _ => exact hu

/-- A lock is held until the end of the transaction. -/
theorem Effect.locks {op : Op} (h : Effect db t s op s') {p : Nat × Uuid} (hp : p ∈ s.locks)
    (hopen : p.1 ∈ s'.open_tx) : p ∈ s'.locks := by
  cases h with
  | commit _ => exact mem_endTx_locks.mpr ⟨hp, (mem_endTx_open.mp hopen).2⟩
  | rollback => exact mem_endTx_locks.mpr ⟨hp, (mem_endTx_open.mp hopen).2⟩
  | posting _ | nothing _ | begin _ => exact hp
  | select _ _ | mark _ _ => exact List.mem_append_left _ hp

/-- So is an update remembered. -/
theorem Effect.marks {op : Op} (h : Effect db t s op s') {m : Nat × Uuid × Int} (hm : m ∈ s.marks)
    (hopen : m.1 ∈ s'.open_tx) : m ∈ s'.marks := by
  cases h with
  | commit _ => exact mem_endTx_marks.mpr ⟨hm, (mem_endTx_open.mp hopen).2⟩
  | rollback => exact mem_endTx_marks.mpr ⟨hm, (mem_endTx_open.mp hopen).2⟩
  | posting _ | nothing _ | begin _ | select _ _ => exact hm
  | mark _ _ => exact List.mem_cons_of_mem _ hm

theorem Effect.new_mark {op : Op} (h : Effect db t s op s') {m : Nat × Uuid × Int}
    (hm : m ∈ s'.marks) : m ∈ s.marks ∨ (m.1 = t ∧ op = .sql (.mark_published m.2.1)) := by
  cases h with
  | commit _ => exact .inl (mem_endTx_marks.mp hm).1
  | rollback => exact .inl (mem_endTx_marks.mp hm).1
  | posting _ | nothing _ | begin _ | select _ _ => exact .inl hm
  | mark _ _ =>
    rcases List.mem_cons.mp hm with rfl | hm
    · exact .inr ⟨rfl, rfl⟩
    · exact .inl hm

/-- The outside ends transactions, and changes no row of the outbox. -/
theorem outside_frame {e : Ledger.Outside} (he : outside e s = some s') :
    s'.ledger.outbox = s.ledger.outbox ∧ (∀ u ∈ s'.open_tx, u ∈ s.open_tx) ∧
      (∀ m ∈ s'.marks, m ∈ s.marks) ∧ ∀ m ∈ s.marks, m.1 ∈ s'.open_tx → m ∈ s'.marks := by
  cases e with
  | advance n =>
    cases he
    exact ⟨rfl, fun _ hu => hu, fun _ hm => hm, fun _ hm _ => hm⟩
  | reap t =>
    cases he
    refine ⟨rfl, fun _ hu => (mem_endTx_open.mp hu).1, fun _ hm => (mem_endTx_marks.mp hm).1, ?_⟩
    intro m hm hopen
    exact mem_endTx_marks.mpr ⟨hm, (mem_endTx_open.mp hopen).2⟩

/-! ## Locks -/

/-- A row has at most one transaction's locks, which is open; what is updated is locked; and a
row comes into the table unpublished. -/
structure Inv (s : Store) : Prop where
  owned : ∀ p ∈ s.locks, p.1 ∈ s.open_tx
  exclusive : ∀ p ∈ s.locks, ∀ p' ∈ s.locks, p.2 = p'.2 → p.1 = p'.1
  marked : ∀ m ∈ s.marks, (m.1, m.2.1) ∈ s.locks
  fresh : ∀ p ∈ s.ledger.pending_outbox, p.2.published_at = none

theorem inv_empty (clock : Nat) : Inv { ledger := { clock } } :=
  ⟨by simp, by simp, by simp, by simp⟩

theorem Inv.endTx (h : Inv s) (t : Nat) : Inv (s.endTx t) := by
  refine ⟨?_, ?_, ?_, h.fresh⟩
  · intro p hp
    obtain ⟨hp, hne⟩ := mem_endTx_locks.mp hp
    exact mem_endTx_open.mpr ⟨h.owned p hp, hne⟩
  · intro p hp p' hp'
    exact h.exclusive p (mem_endTx_locks.mp hp).1 p' (mem_endTx_locks.mp hp').1
  · intro m hm
    obtain ⟨hm, hne⟩ := mem_endTx_marks.mp hm
    exact mem_endTx_locks.mpr ⟨h.marked m hm, hne⟩

/-- Locks on rows that nobody else has locked. -/
theorem Inv.lock (h : Inv s) (ht : t ∈ s.open_tx) (ids : List Uuid)
    (free : ∀ id ∈ ids, s.locked t id = false) :
    Inv { s with locks := s.locks ++ ids.map fun id => (t, id) } := by
  have cases : ∀ {p}, p ∈ s.locks ++ ids.map (fun id => (t, id)) →
      p ∈ s.locks ∨ p.1 = t ∧ s.locked t p.2 = false := by
    intro p hp
    rcases List.mem_append.mp hp with hp | hp
    · exact .inl hp
    · obtain ⟨id, hid, rfl⟩ := List.mem_map.mp hp
      exact .inr ⟨rfl, free id hid⟩
  refine ⟨?_, ?_, fun m hm => List.mem_append_left _ (h.marked m hm), h.fresh⟩
  · intro p hp
    rcases cases hp with hp | ⟨rfl, _⟩
    · exact h.owned p hp
    · exact ht
  · intro p hp p' hp' hid
    rcases cases hp with hp | ⟨howner, hfree⟩ <;> rcases cases hp' with hp' | ⟨howner', hfree'⟩
    · exact h.exclusive p hp p' hp' hid
    · rw [howner']
      exact not_locked.mp hfree' p hp hid
    · rw [howner]
      exact (not_locked.mp hfree p' hp' hid.symm).symm
    · rw [howner, howner']

theorem Inv.mark (h : Inv s) (ht : t ∈ s.open_tx) {id : Uuid} (free : s.locked t id = false)
    (micros : Int) :
    Inv { s with locks := s.locks ++ [(t, id)], marks := (t, id, micros) :: s.marks } := by
  have locked := h.lock ht [id] (fun id' hid => List.mem_singleton.mp hid ▸ free)
  refine ⟨locked.owned, locked.exclusive, ?_, h.fresh⟩
  intro m hm
  rcases List.mem_cons.mp hm with rfl | hm
  · exact List.mem_append_right _ (List.mem_singleton_self _)
  · exact locked.marked m hm

theorem fresh_posting {ch : Ledger.Choice} {s s' : Ledger.Store} {op : Ledger.Op} {r : op.Res}
    (h : Ledger.exec db t ch s op = some (r, s'))
    (fresh : ∀ p ∈ s.pending_outbox, p.2.published_at = none) :
    ∀ p ∈ s'.pending_outbox, p.2.published_at = none := by
  intro p hp
  rcases exec_outbox h with ⟨_, hsub⟩ | ⟨_, hpending⟩ | ⟨row, _, hnew, _, hpending⟩
  · exact fresh p (hsub.subset hp)
  · rw [hpending] at hp
    exact fresh p (List.mem_filter.mp hp).1
  · rw [hpending] at hp
    rcases List.mem_append.mp hp with hp | hp
    · exact fresh p hp
    · obtain rfl := List.mem_singleton.mp hp
      exact hnew

/-- **Every operation keeps the locks exclusive.** -/
theorem Inv.effect (h : Inv s) {op : Op} (heffect : Effect db t s op s') : Inv s' := by
  cases heffect with
  | posting hexec => exact ⟨h.owned, h.exclusive, h.marked, fresh_posting hexec h.fresh⟩
  | nothing _ => exact h
  | begin _ =>
    exact ⟨fun p hp => List.mem_cons_of_mem _ (h.owned p hp), h.exclusive, h.marked, h.fresh⟩
  | @select batch ht hsub =>
    have locked := h.lock ht (batch.map (·.id)) (fun id hid => by
      obtain ⟨row, hrow, rfl⟩ := List.mem_map.mp hid
      exact (mem_available.mp (hsub.subset hrow)).2.2)
    rw [List.map_map] at locked
    exact locked
  | mark ht hfree => exact h.mark ht hfree _
  | commit _ =>
    have ended := h.endTx t
    exact ⟨ended.owned, ended.exclusive, ended.marked, h.fresh⟩
  | rollback => exact h.endTx t

theorem Inv.outside {e : Ledger.Outside} (h : Inv s) (he : Outbox.outside e s = some s') :
    Inv s' := by
  cases e with
  | advance n =>
    cases he
    exact ⟨h.owned, h.exclusive, h.marked, h.fresh⟩
  | reap t =>
    cases he
    have ended := h.endTx t
    refine ⟨ended.owned, ended.exclusive, ended.marked, ?_⟩
    intro p hp
    exact h.fresh p (List.mem_filter.mp hp).1

/-! ## Rows -/

theorem marked_cases (s : Store) (t : Nat) (r : OutboxRow) :
    s.marked t r = r ∨ ∃ micros, (t, r.id, micros) ∈ s.marks ∧
      s.marked t r = { r with published_at := some micros } := by
  unfold Store.marked
  split
  · next u id micros hfind =>
    have hmem := List.mem_of_find?_eq_some hfind
    have hkey := List.find?_some hfind
    simp only [Bool.and_eq_true, decide_eq_true_eq] at hkey
    obtain ⟨rfl, rfl⟩ := hkey
    exact .inr ⟨micros, hmem, rfl⟩
  · exact .inl rfl

/-- **Where a committed row comes from**: it was there, it was pending, or a commit has just set
its `published_at`. -/
theorem Effect.row {op : Op} (h : Effect db t s op s') {row : OutboxRow}
    (hrow : row ∈ s'.ledger.outbox) :
    row ∈ s.ledger.outbox ∨ (∃ p ∈ s.ledger.pending_outbox, p.2 = row) ∨
    (s' = s.commitTx t ∧ ∃ old ∈ s.ledger.outbox, ∃ micros, (t, old.id, micros) ∈ s.marks ∧
      row = { old with published_at := some micros }) := by
  cases h with
  | posting hexec =>
    rcases exec_outbox hexec with ⟨hout, _⟩ | ⟨hout, _⟩ | ⟨_, _, _, hout, _⟩
    · exact .inl (hout ▸ hrow)
    · have hrow : row ∈ s.ledger.outbox ++ s.ledger.pendingOutboxOf t := hout ▸ hrow
      rcases List.mem_append.mp hrow with hrow | hrow
      · exact .inl hrow
      · obtain ⟨p, hp, hp2⟩ := List.mem_map.mp hrow
        exact .inr (.inl ⟨p, (List.mem_filter.mp hp).1, hp2⟩)
    · exact .inl (hout ▸ hrow)
  | commit _ =>
    obtain ⟨old, hold, rfl⟩ := List.mem_map.mp hrow
    rcases marked_cases s t old with heq | ⟨micros, hm, heq⟩
    · rw [heq]
      exact .inl hold
    · exact .inr (.inr ⟨rfl, old, hold, micros, hm, heq⟩)
  | nothing _ | begin _ | select _ _ | mark _ _ | rollback => exact .inl hrow

/-- The messages of the committed rows. -/
def Store.messages (s : Store) : List Message := s.ledger.outbox.map .of

/-- A committed row stays. -/
theorem Effect.message {op : Op} (h : Effect db t s op s') {m : Message} (hm : m ∈ s.messages) :
    m ∈ s'.messages := by
  obtain ⟨row, hrow, rfl⟩ := List.mem_map.mp hm
  cases h with
  | posting hexec => exact List.mem_map_of_mem (exec_outbox_subset hexec hrow)
  | commit _ =>
    refine List.mem_map.mpr ⟨s.marked t row, List.mem_map_of_mem hrow, ?_⟩
    rcases marked_cases s t row with heq | ⟨micros, _, heq⟩
    · rw [heq]
    · rw [heq]
      rfl
  | nothing _ | begin _ | select _ _ | mark _ _ | rollback => exact hm

/-- A row of the outbox has been published. -/
def Store.Published (s : Store) (id : Uuid) : Prop :=
  ∃ row ∈ s.ledger.outbox, row.id = id ∧ row.published_at ≠ none

theorem Effect.published {op : Op} (h : Effect db t s op s') {id : Uuid}
    (hid : s.Published id) : s'.Published id := by
  obtain ⟨row, hrow, rfl, hset⟩ := hid
  cases h with
  | posting hexec => exact ⟨row, exec_outbox_subset hexec hrow, rfl, hset⟩
  | commit _ =>
    refine ⟨s.marked t row, List.mem_map_of_mem hrow, ?_⟩
    rcases marked_cases s t row with heq | ⟨micros, _, heq⟩
    · rw [heq]
      exact ⟨rfl, hset⟩
    · rw [heq]
      exact ⟨rfl, by simp⟩
  | nothing _ | begin _ | select _ _ | mark _ _ | rollback => exact ⟨row, hrow, rfl, hset⟩

/-- A commit publishes what its transaction has updated. -/
theorem published_commit {m : Message} (hm : m ∈ s.messages) {micros : Int}
    (hmark : (t, m.id, micros) ∈ s.marks) : (s.commitTx t).Published m.id := by
  obtain ⟨row, hrow, rfl⟩ := List.mem_map.mp hm
  refine ⟨s.marked t row, List.mem_map_of_mem hrow, ?_⟩
  unfold Store.marked
  split
  · exact ⟨rfl, by simp⟩
  · next hfind =>
    have hnone := List.find?_eq_none.mp hfind _ hmark
    simp [Message.of] at hnone

/-- **A transaction's hold on a row**: it has locked it, and the row is unpublished. -/
structure Holds (s : Store) (t : Nat) (id : Uuid) : Prop where
  locked : (t, id) ∈ s.locks
  unpublished : ¬ s.Published id

/-- A hold lasts as long as its transaction. -/
theorem Holds.effect {id : Uuid} (h : Holds s u id) (hinv : Inv s) {op : Op}
    (heffect : Effect db t s op s') (hopen : u ∈ s'.open_tx) : Holds s' u id := by
  refine ⟨heffect.locks h.locked hopen, ?_⟩
  rintro ⟨row, hrow, rfl, hset⟩
  rcases heffect.row hrow with hrow | ⟨p, hp, rfl⟩ | ⟨rfl, old, hold, micros, hm, rfl⟩
  · exact h.unpublished ⟨row, hrow, rfl, hset⟩
  · exact hset (hinv.fresh p hp)
  · -- Only the holder could have updated the row.
    have hsame : t = u := hinv.exclusive _ (hinv.marked _ hm) _ h.locked rfl
    subst hsame
    exact (mem_endTx_open.mp hopen).2 rfl

/-- So it does whatever happens outside. -/
theorem Holds.outside {id : Uuid} (h : Holds s u id) {e : Ledger.Outside}
    (he : Outbox.outside e s = some s') (hopen : u ∈ s'.open_tx) : Holds s' u id := by
  cases e with
  | advance n =>
    cases he
    exact ⟨h.locked, h.unpublished⟩
  | reap t =>
    cases he
    exact ⟨mem_endTx_locks.mpr ⟨h.locked, (mem_endTx_open.mp hopen).2⟩, h.unpublished⟩

/-- Two transactions do not hold one row. -/
theorem Holds.same {id : Uuid} (h : Holds s t id) (h' : Holds s u id) (hinv : Inv s) : t = u :=
  hinv.exclusive _ h.locked _ h'.locked rfl

/-! ## The ledger underneath -/

/-- A row but for whether it has been published. -/
def unpublished (r : OutboxRow) : OutboxRow := { r with published_at := none }

/-- What the posting calls see of the store. -/
def posted (s : Ledger.Store) : Ledger.Store :=
  { s with
    outbox := s.outbox.map unpublished
    pending_outbox := s.pending_outbox.map fun p => (p.1, unpublished p.2) }

theorem posted_pendingOutboxOf (s : Ledger.Store) (t : Nat) :
    (posted s).pendingOutboxOf t = (s.pendingOutboxOf t).map unpublished := by
  simp only [posted, Ledger.Store.pendingOutboxOf, List.filter_map, List.map_map]
  rfl

theorem posted_endTx (s : Ledger.Store) (t : Nat) : posted (s.endTx t) = (posted s).endTx t := by
  simp only [posted, Ledger.Store.endTx, List.filter_map]
  rfl

theorem posted_commitTx (s : Ledger.Store) (t : Nat) :
    posted (s.commitTx t) = (posted s).commitTx t := by
  simp only [Ledger.Store.commitTx, posted_pendingOutboxOf, ← posted_endTx]
  simp only [posted, List.map_append]
  rfl

/-- A statement of a posting call reads and writes no `published_at`. -/
theorem run_posted {t : Nat} {s : Ledger.Store} {q : Ledger.Sql} :
    q.run db t (posted s) = (q.run db t s).map fun (r, s') => (r, posted s') := by
  have hactive : (posted s).active = s.active := rfl
  cases q with
  | begin =>
    simp only [Ledger.Sql.run, hactive]
    split <;> rfl
  | commit =>
    simp only [Ledger.Sql.run, hactive, ← posted_commitTx]
    split <;> rfl
  | rollback =>
    simp only [Ledger.Sql.run, ← posted_endTx]
    rfl
  | insert_entry values =>
    have hentries : (posted s).entries = s.entries := rfl
    have hpending : (posted s).pending = s.pending := rfl
    have hof : (posted s).pendingOf t = s.pendingOf t := rfl
    simp only [Ledger.Sql.run, hactive, hentries, hpending, hof]
    split
    · split
      · rfl
      · split
        · rfl
        · split <;> rfl
    · rfl
  | insert_outbox id entry_id payload =>
    simp only [Ledger.Sql.run, hactive]
    split
    · simp only [posted, Option.map_some, List.map_append]
      rfl
    · rfl
  | select_by_key key => rfl
  | select_balance account_id currency => rfl
  | select_statement q => rfl

theorem exec_posted {t : Nat} {ch : Ledger.Choice} {s s' : Ledger.Store} {op : Ledger.Op}
    {r : op.Res} (h : Ledger.exec db t ch s op = some (r, s')) :
    Ledger.exec db t ch (posted s) op = some (r, posted s') := by
  cases op with
  | sql q =>
    unfold Ledger.exec at h ⊢
    cases hf : ch.fault with
    | none =>
      rw [hf] at h
      simp only [run_posted]
      exact Option.map_eq_some_iff.mpr ⟨_, h, rfl⟩
    | failed =>
      rw [hf] at h
      cases h
      rfl
    | lost =>
      rw [hf] at h
      obtain ⟨⟨r', s''⟩, hrun, heq⟩ := Option.map_eq_some_iff.mp h
      cases heq
      simp only [run_posted, hrun]
      rfl
  | utc_now =>
    cases h
    rfl
  | now_v7 =>
    have hminted : (posted s).minted = s.minted := rfl
    simp only [Ledger.exec, hminted] at h ⊢
    split at h
    · cases h
    · next hfresh =>
      cases h
      rw [if_neg hfresh]
      rfl

/-- The rows that a worker's transaction has updated differ in `published_at`. -/
theorem unpublished_marked (s : Store) (t : Nat) (r : OutboxRow) :
    unpublished (s.marked t r) = unpublished r := by
  unfold Store.marked
  split <;> rfl

theorem posted_commit (s : Store) (t : Nat) : posted (s.commitTx t).ledger = posted s.ledger := by
  have hrows : (s.ledger.outbox.map (s.marked t)).map unpublished =
      s.ledger.outbox.map unpublished := by
    rw [List.map_map]
    exact List.map_congr_left fun r _ => unpublished_marked s t r
  simp only [Store.commitTx, posted, hrows]

/-- What a worker executes leaves the ledger alone. -/
theorem Effect.ledger {op : Op} (hop : ∀ op', op ≠ .posting op') (h : Effect db t s op s') :
    posted s'.ledger = posted s.ledger := by
  cases h with
  | posting _ => exact absurd rfl (hop _)
  | commit _ => exact posted_commit s t
  | nothing _ | begin _ | select _ _ | mark _ _ | rollback => rfl

/-- **The ledger among its workers** does what the ledger does. -/
theorem hosts (db : Engine) :
    Hosts (Ledger.machine db) (machine db) .posting (fun _ r => r) fun s => posted s.ledger where
  exec {t ch' s op r s'} h := by
    obtain ⟨ledger, hexec, rfl⟩ := exec_posting h
    exact ⟨ch'.posting, exec_posted hexec⟩
  others h hexec := (exec_effect hexec).ledger h
  env {e' s s'} h := by
    refine .inr ⟨e', ?_⟩
    cases e' with
    | advance n =>
      cases h
      rfl
    | reap t =>
      cases h
      exact congrArg some (posted_endTx s.ledger t).symm

end Kova.Ledger.Outbox

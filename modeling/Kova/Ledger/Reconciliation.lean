import Kova.Conc.Serial
import Kova.Ledger.Service

/-!
# End-of-day reconciliation

`reconciliation_pass` and one turn of the loop of `run_eod_reconciliation`, next to `post_entry`
on the same database. The pass reads each live balance, compares it with the latest snapshot and
writes a new snapshot, statement by statement, outside any transaction. The two SELECTs without
an ORDER BY answer in any order, and of several latest snapshots any one is read.
-/

set_option autoImplicit false

namespace Kova.Ledger.Reconciliation

open Conc

/-- A row of `ledger_account_snapshots`. -/
structure SnapshotRow where
  id : Uuid
  account_id : Uuid
  currency : Currency
  balance : Dec19_4
  snapshot_at : Int
  deriving DecidableEq

/-- Rows of a UNION or a SELECT DISTINCT. -/
abbrev Distinct (α : Type) := { rows : List α // rows.Nodup }

inductive Sql where
  /-- The accounts with an entry of the current day. -/
  | select_active
  | select_currencies (account_id : Uuid)
  | select_live_balance (account_id : Uuid) (currency : Currency)
  | select_snapshot (account_id : Uuid) (currency : Currency)
  | insert_snapshot (id account_id : Uuid) (currency : Currency) (balance : Dec19_4)

def Sql.Res : Sql → Type
  | .select_active => Distinct Uuid
  | .select_currencies _ => Distinct Currency
  | .select_live_balance .. => Dec19_4
  | .select_snapshot .. => Option Dec19_4
  | .insert_snapshot .. => Unit

/-- What the service awaits: what a posting awaits, a statement of the pass (`none` is a
failure), `IMBALANCE_TOTAL.fetch_add`. -/
inductive Op where
  | posting (op : Ledger.Op)
  | sql (q : Sql)
  | fetch_add (mismatches : Nat)

def Op.Res : Op → Type
  | .posting op => op.Res
  | .sql q => Option q.Res
  | .fetch_add _ => Nat

/-- An async function of the reconciliation. -/
abbrev Async := Prog Op Op.Res SqlxError

/-! ## The pass -/

/-- `sqlx::query(..).await?`. -/
def sql (q : Sql) : Async q.Res :=
  .await (.sql q) fun
    | some r => .ret r
    | none => .raise .database

/-- `compute_live_balance`. -/
def compute_live_balance (account_id : Uuid) (currency : Currency) : Async Dec19_4 :=
  sql (.select_live_balance account_id currency)

/-- The body of the inner loop. -/
def reconcile (account_id : Uuid) (currency : Currency) (mismatches : Nat) : Async Nat := do
  let live ← compute_live_balance account_id currency
  let snap ← sql (.select_snapshot account_id currency)
  let mismatches := if snap.any (live ≠ ·) then mismatches + 1 else mismatches
  let snap_id ← .await (.posting .now_v7) .ret
  sql (.insert_snapshot snap_id account_id currency live)
  pure mismatches

/-- The inner loop. -/
def for_currencies (account_id : Uuid) : List Currency → Nat → Async Nat
  | [], mismatches => pure mismatches
  | currency :: currency_rows, mismatches => do
    let mismatches ← reconcile account_id currency mismatches
    for_currencies account_id currency_rows mismatches

/-- The outer loop. -/
def for_accounts : List Uuid → Nat → Async Nat
  | [], mismatches => pure mismatches
  | account_id :: rows, mismatches => do
    let currency_rows ← sql (.select_currencies account_id)
    let mismatches ← for_currencies account_id currency_rows.val mismatches
    for_accounts rows mismatches

/-- `reconciliation_pass`. -/
def reconciliation_pass : Async Nat := do
  let rows ← sql .select_active
  for_accounts rows.val 0

/-! ## The scheduler -/

/-- `in_window`. -/
def in_window (now : DateTime) : Bool :=
  let h := now.timestamp / 3600 % 24
  let m := now.timestamp / 60 % 60
  (h = 23 && 55 ≤ m) || (h = 0 && m ≤ 5)

/-- What a turn of the loop logs. -/
inductive Tick where
  | outside_window
  | passed (mismatches : Nat)
  | failed (e : SqlxError)
  deriving DecidableEq

/-- What the scheduler does with the result of a pass. -/
def count_mismatches : Except SqlxError Nat → Prog Op Op.Res LedgerError Tick
  | .ok mismatches =>
    if 0 < mismatches then .await (.fetch_add mismatches) fun _ => .ret (.passed mismatches)
    else .ret (.passed mismatches)
  | .error e => .ret (.failed e)

/-- What a turn of the loop does after it has read the clock. -/
def turn (now : DateTime) : Prog Op Op.Res LedgerError Tick :=
  if in_window now then do
    let result ← reconciliation_pass.caught
    count_mismatches result
  else pure .outside_window

/-- One turn of the loop of `run_eod_reconciliation`. -/
def eod_tick : Prog Op Op.Res LedgerError Tick := do
  let now ← .await (.posting .utc_now) .ret
  turn now

/-! ## The machine -/

structure Store where
  ledger : Ledger.Store := {}
  snapshots : List SnapshotRow := []
  /-- `IMBALANCE_TOTAL`. -/
  imbalance_total : Nat := 0

/-- What is left open: as for a posting, the order of the rows of the two SELECTs, and which of
several latest snapshots is read. -/
structure Choice where
  posting : Ledger.Choice := {}
  accounts : List Uuid := []
  currencies : List Currency := []
  pick : Nat := 0

/-- `DATE(..)` of microseconds since the Unix epoch, in days. -/
def date (micros : Int) : Int := micros / 86400000000

/-- Both sides of the entries of the current day. -/
def active (s : Ledger.Store) : List Uuid :=
  let today := s.entries.filter fun r => date r.created_at = date (s.clock / 1000)
  today.map (·.debit_account_id) ++ today.map (·.credit_account_id)

/-- The currencies of an account's entries. -/
def currencies (entries : List EntryRow) (account_id : Uuid) : List Currency :=
  (entries.filter fun r =>
    r.debit_account_id = account_id || r.credit_account_id = account_id).map (·.currency)

/-- The rows that `ORDER BY snapshot_at DESC LIMIT 1` may answer. -/
def latest (snapshots : List SnapshotRow) (account_id : Uuid) (currency : Currency) :
    List SnapshotRow :=
  let rows := snapshots.filter fun r => r.account_id = account_id && r.currency = currency
  rows.filter fun r => rows.all (·.snapshot_at ≤ r.snapshot_at)

/-- The rows in the order chosen. -/
def arranged {α : Type} [DecidableEq α] (rows order : List α) : Option (Distinct α) :=
  if h : order.Nodup ∧ order ⊆ rows ∧ rows ⊆ order then some ⟨order, h.1⟩ else none

section

variable (db : Engine)

/-- What MySQL does for one statement. -/
def Sql.run (ch : Choice) (s : Store) : (q : Sql) → Option (Option q.Res × Store)
  | .select_active => (arranged (active s.ledger) ch.accounts).map fun rows => (some rows, s)
  | .select_currencies account_id =>
    (arranged (currencies s.ledger.entries account_id) ch.currencies).map fun rows => (some rows, s)
  | .select_live_balance account_id currency =>
    some (some (select_balance db s.ledger.entries account_id currency.code).balance, s)
  | .select_snapshot account_id currency =>
    match latest s.snapshots account_id currency with
    | [] => some (some none, s)
    | rows => rows[ch.pick]?.map fun r => (some (some r.balance), s)
  | .insert_snapshot id account_id currency balance =>
    if id ∈ s.snapshots.map (·.id) then some (none, s)
    else some (some (), { s with
      snapshots := s.snapshots ++
        [{ id, account_id, currency, balance, snapshot_at := s.ledger.clock / 1000 }] })

/-- One operation of call `t`. -/
def exec (t : Nat) (ch : Choice) (s : Store) : (op : Op) → Option (op.Res × Store)
  | .posting op =>
    (Ledger.exec db t ch.posting s.ledger op).map fun (r, ledger) => (r, { s with ledger })
  | .sql q =>
    match ch.posting.fault with
    | .none => q.run db ch s
    | .failed => some (none, s)
    | .lost => (q.run db ch s).map fun (_, s') => (none, s')
  | .fetch_add mismatches =>
    some (s.imbalance_total, { s with imbalance_total := s.imbalance_total + mismatches })

def outside : Ledger.Outside → Store → Option Store
  | e, s => (Ledger.outside e s.ledger).map fun ledger => { s with ledger }

/-- The database, the clock and the counter. -/
def machine : Machine Store Op Op.Res Choice Ledger.Outside := ⟨exec db, outside⟩

end

/-! ## What the operations do -/

section

variable {db : Engine} {t : Nat} {ch : Choice} {s s' : Store}

theorem exec_posting {op : Ledger.Op} {r : op.Res}
    (h : exec db t ch s (.posting op) = some (r, s')) :
    ∃ ledger, Ledger.exec db t ch.posting s.ledger op = some (r, ledger) ∧
      s' = { s with ledger } := by
  obtain ⟨⟨r', ledger⟩, hexec, heq⟩ := Option.map_eq_some_iff.mp h
  cases heq
  exact ⟨ledger, hexec, rfl⟩

/-- A statement fails without effect, or has its effect, the reply possibly lost. -/
theorem exec_sql (t : Nat) {q : Sql} {r : Option q.Res}
    (h : exec db t ch s (.sql q) = some (r, s')) :
    (r = none ∧ s' = s) ∨ ∃ r', q.run db ch s = some (r', s') ∧ (r = r' ∨ r = none) :=
  fault_cases h

/-- Nothing but an INSERT changes the store, and it writes one snapshot. -/
theorem run_effect {q : Sql} {r : Option q.Res} (h : q.run db ch s = some (r, s')) :
    s' = s ∨ ∃ row : SnapshotRow,
      q = .insert_snapshot row.id row.account_id row.currency row.balance ∧
        row.snapshot_at = (s.ledger.clock / 1000 : Nat) ∧
          s' = { s with snapshots := s.snapshots ++ [row] } := by
  cases q with
  | select_active =>
    obtain ⟨rows, _, heq⟩ := Option.map_eq_some_iff.mp h
    cases heq
    exact .inl rfl
  | select_currencies a =>
    obtain ⟨rows, _, heq⟩ := Option.map_eq_some_iff.mp h
    cases heq
    exact .inl rfl
  | select_live_balance a c =>
    cases h
    exact .inl rfl
  | select_snapshot a c =>
    simp only [Sql.run] at h
    split at h
    · cases h
      exact .inl rfl
    · obtain ⟨row, _, heq⟩ := Option.map_eq_some_iff.mp h
      cases heq
      exact .inl rfl
  | insert_snapshot id a c balance =>
    simp only [Sql.run] at h
    split at h
    · cases h
      exact .inl rfl
    · cases h
      exact .inr ⟨_, rfl, rfl, rfl⟩

/-- What an operation can do to the store. -/
inductive Effect (db : Engine) (t : Nat) (ch : Choice) (s : Store) : Op → Store → Prop
  | posting {op : Ledger.Op} {r : op.Res} {ledger : Ledger.Store}
      (executed : Ledger.exec db t ch.posting s.ledger op = some (r, ledger)) :
      Effect db t ch s (.posting op) { s with ledger }
  | unchanged (q : Sql) : Effect db t ch s (.sql q) s
  | snapshot (row : SnapshotRow) (stamped : row.snapshot_at = (s.ledger.clock / 1000 : Nat)) :
      Effect db t ch s (.sql (.insert_snapshot row.id row.account_id row.currency row.balance))
        { s with snapshots := s.snapshots ++ [row] }
  | counted (mismatches : Nat) :
      Effect db t ch s (.fetch_add mismatches)
        { s with imbalance_total := s.imbalance_total + mismatches }

theorem exec_effect {op : Op} {r : op.Res} (h : exec db t ch s op = some (r, s')) :
    Effect db t ch s op s' := by
  cases op with
  | posting op =>
    obtain ⟨ledger, hexec, rfl⟩ := exec_posting h
    exact .posting hexec
  | sql q =>
    rcases exec_sql t h with ⟨_, rfl⟩ | ⟨_, hrun, _⟩
    · exact .unchanged q
    · rcases run_effect hrun with rfl | ⟨row, rfl, hstamped, rfl⟩
      · exact .unchanged q
      · exact .snapshot row hstamped
  | fetch_add n =>
    cases h
    exact .counted n

/-- What an operation adds to `IMBALANCE_TOTAL`. -/
def Op.adds : Op → Nat
  | .fetch_add mismatches => mismatches
  | _ => 0

theorem exec_adds {op : Op} {r : op.Res} (h : exec db t ch s op = some (r, s')) :
    s'.imbalance_total = s.imbalance_total + op.adds := by
  cases exec_effect h <;> rfl

end

/-! ## The service -/

inductive Request where
  | post_entry (p : PostEntryParams)
  | reconciliation_pass
  | eod_tick

inductive Response where
  | posted (result : PostEntryResult)
  | reconciled (result : Except SqlxError Nat)
  | ticked (tick : Tick)

/-- The program of a request. -/
def serve (v : Env) : Request → Prog Op Op.Res LedgerError Response
  | .post_entry p => do
    let result ← (Ledger.post_entry v.sha256_hex p).among .posting fun _ r => r
    pure (.posted result)
  | .reconciliation_pass => do
    let result ← reconciliation_pass.caught
    pure (.reconciled result)
  | .eod_tick => do
    let tick ← eod_tick
    pure (.ticked tick)

abbrev ReconConf := Conf Store Request Op Op.Res LedgerError Response

abbrev ReconLabel := Label Request Choice Ledger.Outside

abbrev ReconEvent := Event Store Request Op Op.Res

/-- The runs of the service with its scheduler. -/
abbrev ReconRun (v : Env) : ReconConf → List ReconLabel → ReconConf → Prop :=
  Run (machine v.db) (serve v) .all

/-- Empty tables, and a counter at zero. -/
def start (clock : Nat) : ReconConf := .init { ledger := { clock } }

end Kova.Ledger.Reconciliation

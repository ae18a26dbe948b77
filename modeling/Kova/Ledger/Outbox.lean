import Kova.Codec.Hex
import Kova.Ledger.Service

/-!
# The outbox worker

`process_batch` and one turn of the loop of `run_outbox_worker`, next to `post_entry` on the same
database; several turns under way at once are several workers. A worker's transaction locks the
rows that its SELECT answers, and of those that are locked by other transactions none is answered.
What it updates shows when it commits; a transaction that ends otherwise leaves no trace.

The publisher is a trait object of which nothing is known but its answer.
-/

set_option autoImplicit false

namespace Kova.Ledger.Outbox

open Conc

/-- The columns that the worker reads of a row. -/
structure Message where
  id : Uuid
  entry_id : Uuid
  topic : String
  payload_json : List (String × String)
  deriving DecidableEq

def Message.of (row : OutboxRow) : Message := ⟨row.id, row.entry_id, row.topic, row.payload_json⟩

inductive Sql where
  | begin
  /-- The oldest ten of the unpublished rows that nobody else has locked. -/
  | select_batch
  | mark_published (id : Uuid)
  | commit
  | rollback

def Sql.Res : Sql → Type
  | .select_batch => List Message
  | .begin | .mark_published _ | .commit | .rollback => Unit

/-- What the service awaits: what a posting awaits, a statement of the worker (`none` is a
failure), the publisher. -/
inductive Op where
  | posting (op : Ledger.Op)
  | sql (q : Sql)
  | publish (topic key : String) (payload : List (String × String))

def Op.Res : Op → Type
  | .posting op => op.Res
  | .sql q => Option q.Res
  | .publish .. => Except LedgerError Unit

/-- `Box<dyn std::error::Error + Send + Sync>`. -/
inductive BoxedError where
  | sqlx (e : SqlxError)
  | publisher (e : LedgerError)
  deriving DecidableEq

/-- An async function of the worker. -/
abbrev Async := Prog Op Op.Res BoxedError

/-! ## A batch -/

/-- `sqlx::query(..).await?`. -/
def sql (q : Sql) : Async q.Res :=
  .await (.sql q) fun
    | some r => .ret r
    | none => .raise (.sqlx .database)

/-- `tx.rollback().await.ok()`. -/
def attempt (q : Sql) : Async (Option q.Res) := .await (.sql q) .ret

/-- The call of the publisher that a row asks for. -/
def Message.publish (row : Message) : Op :=
  .publish row.topic (String.ofList (Hex.encode row.entry_id.bytes)) row.payload_json

/-- `publisher.publish(..).await?`. -/
def publish (row : Message) : Async Unit :=
  .await row.publish fun
    | .ok () => .ret ()
    | .error e => .raise (.publisher e)

/-- The loop over the rows. -/
def for_rows : List Message → Nat → Async Nat
  | [], count => pure count
  | row :: rows, count => do
    publish row
    sql (.mark_published row.id)
    for_rows rows (count + 1)

/-- `process_batch`. -/
def process_batch : Async Nat := do
  sql .begin
  let rows ← sql .select_batch
  if rows.isEmpty then do
    let _ ← attempt .rollback
    pure 0
  else do
    let count ← for_rows rows 0
    sql .commit
    pure count

/-! ## The worker -/

def IDLE_SLEEP_MS : Nat := 100

def MAX_BACKOFF_SECS : Nat := 30

/-- What a turn of the loop ends with: the errors in a row so far, and how long it sleeps. -/
structure Turn where
  result : Except BoxedError Nat
  consecutive_errors : UInt32
  sleep_ms : Nat

/-- `(1u64 << consecutive_errors.min(5)).min(MAX_BACKOFF_SECS)`. -/
def backoff (consecutive_errors : UInt32) : Nat :=
  min (1 <<< min consecutive_errors.toNat 5) MAX_BACKOFF_SECS

/-- The three arms of the loop. -/
def after_batch (consecutive_errors : UInt32) (result : Except BoxedError Nat) : Turn :=
  match result with
  | .ok 0 => ⟨result, 0, IDLE_SLEEP_MS⟩
  | .ok _ => ⟨result, 0, 0⟩
  | .error _ =>
    ⟨result, consecutive_errors + 1, 1000 * backoff (consecutive_errors + 1)⟩

/-- One turn of the loop of `run_outbox_worker`. -/
def worker_turn (consecutive_errors : UInt32) : Prog Op Op.Res LedgerError Turn := do
  let result ← process_batch.caught
  pure (after_batch consecutive_errors result)

/-- A worker never sleeps for more than half a minute. -/
theorem sleep_bounded (consecutive_errors : UInt32) (result : Except BoxedError Nat) :
    (after_batch consecutive_errors result).sleep_ms ≤ 30000 := by
  unfold after_batch
  split
  · decide
  · apply Nat.zero_le
  · show 1000 * min _ 30 ≤ 30000
    omega

/-! ## The machine -/

structure Store where
  ledger : Ledger.Store := {}
  /-- The workers' calls whose transaction is open. -/
  open_tx : List Nat := []
  /-- The rows that an open transaction has locked, each under its call. -/
  locks : List (Nat × Uuid) := []
  /-- The rows that an open transaction has updated, the newest first: its call, the row, and the
  `published_at` it set. -/
  marks : List (Nat × Uuid × Int) := []

/-- What is left open: as for a posting, the order of the rows that a SELECT finds, and the
publisher's answer. -/
structure Choice where
  posting : Ledger.Choice := {}
  rows : List OutboxRow := []
  verdict : Except LedgerError Unit := .ok ()

namespace Store

/-- Another transaction has locked the row. -/
def locked (s : Store) (t : Nat) (id : Uuid) : Bool := s.locks.any fun p => p.1 ≠ t && p.2 = id

/-- The rows that a call's SELECT may answer. -/
def available (s : Store) (t : Nat) : List OutboxRow :=
  s.ledger.outbox.filter fun r => r.published_at = none && !s.locked t r.id

/-- The store without the open transaction of a call. -/
def endTx (s : Store) (t : Nat) : Store :=
  { s with
    open_tx := s.open_tx.filter (· != t)
    locks := s.locks.filter (·.1 != t)
    marks := s.marks.filter (·.1 != t) }

/-- A row as the transaction of a call leaves it. -/
def marked (s : Store) (t : Nat) (r : OutboxRow) : OutboxRow :=
  match s.marks.find? fun m => m.1 = t && m.2.1 = r.id with
  | some (_, _, micros) => { r with published_at := some micros }
  | none => r

/-- COMMIT: what the transaction updated shows, all at once. -/
def commitTx (s : Store) (t : Nat) : Store :=
  { s.endTx t with ledger := { s.ledger with outbox := s.ledger.outbox.map (s.marked t) } }

end Store

/-- What MySQL does for one statement of call `t`. The outer `none` waits for another
transaction, the inner one is an error without effect. -/
def Sql.run (t : Nat) (rows : List OutboxRow) (s : Store) :
    (q : Sql) → Option (Option q.Res × Store)
  | .begin =>
    if t ∈ s.open_tx then none else some (some (), { s with open_tx := t :: s.open_tx })
  | .select_batch =>
    if t ∈ s.open_tx then
      if rows.Perm (s.available t) ∧ rows.Pairwise fun r r' => r.created_at ≤ r'.created_at then
        some (some ((rows.take 10).map .of),
          { s with locks := s.locks ++ (rows.take 10).map fun r => (t, r.id) })
      else none
    else some (none, s)
  | .mark_published id =>
    if t ∈ s.open_tx then
      if s.locked t id then none
      else some (some (), { s with
        locks := s.locks ++ [(t, id)]
        marks := (t, id, s.ledger.clock / 1000) :: s.marks })
    else some (none, s)
  | .commit => if t ∈ s.open_tx then some (some (), s.commitTx t) else some (none, s)
  | .rollback => some (some (), s.endTx t)

section

variable (db : Engine)

/-- One operation of call `t`. -/
def exec (t : Nat) (ch : Choice) (s : Store) : (op : Op) → Option (op.Res × Store)
  | .posting op =>
    (Ledger.exec db t ch.posting s.ledger op).map fun (r, ledger) => (r, { s with ledger })
  | .sql q =>
    match ch.posting.fault with
    | .none => q.run t ch.rows s
    | .failed => some (none, s)
    | .lost => (q.run t ch.rows s).map fun (_, s') => (none, s')
  | .publish .. => some (ch.verdict, s)

/-- What the outside does: the server ends whatever transaction the call has open. -/
def outside : Ledger.Outside → Store → Option Store
  | .advance n, s => (Ledger.outside (.advance n) s.ledger).map fun ledger => { s with ledger }
  | .reap t, s => (Ledger.outside (.reap t) s.ledger).map fun ledger => { s.endTx t with ledger }

/-- The database, the clock and the publisher. -/
def machine : Machine Store Op Op.Res Choice Ledger.Outside := ⟨exec db, outside⟩

end

/-! ## The service -/

inductive Request where
  | post_entry (p : PostEntryParams)
  | worker_turn (consecutive_errors : UInt32)

inductive Response where
  | posted (result : PostEntryResult)
  | turned (turn : Turn)

/-- The program of a request. -/
def serve (v : Env) : Request → Prog Op Op.Res LedgerError Response
  | .post_entry p => do
    let result ← (Ledger.post_entry v.sha256_hex p).among .posting fun _ r => r
    pure (.posted result)
  | .worker_turn consecutive_errors => do
    let turn ← worker_turn consecutive_errors
    pure (.turned turn)

abbrev OutboxConf := Conf Store Request Op Op.Res LedgerError Response

abbrev OutboxLabel := Label Request Choice Ledger.Outside

abbrev OutboxEvent := Event Store Request Op Op.Res

/-- The runs of the service with its workers. -/
abbrev OutboxRun (v : Env) : OutboxConf → List OutboxLabel → OutboxConf → Prop :=
  Run (machine v.db) (serve v) .all

/-- Empty tables. -/
def start (clock : Nat) : OutboxConf := .init { ledger := { clock } }

end Kova.Ledger.Outbox

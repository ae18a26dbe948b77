import Kova.Ledger.PostingOrder
import Kova.Ledger.Retry

/-!
# Entries older than the digest

The column `payload_hash` came with a migration and is NULL in the entries that were there before.
A ledger that has such entries is any store of which the unique indexes hold (`Indexed`), and the
runs here start from one. A call that posts under the key of an entry leaves both tables alone; it
is answered with the entry, or refused as another payment, if and only if the entry has a digest and
the table could store what the call asks for (`old_entry_retry_iff`).
-/

set_option autoImplicit false

namespace Kova.Ledger

open Conc

variable {v : Env} {db : Engine} {s : Store} {ls ms : List LedgerLabel} {c d : LedgerConf} {t : Nat}
  {p : PostEntryParams} {x : EntryRow}

/-! ## The ledger -/

/-- The unique indexes hold. -/
def Store.Indexed (db : Engine) (s : Store) : Prop :=
  s.index_rows.Pairwise fun r r' => ¬ clash db r r'

theorem exec_indexed {ch : Choice} {s' : Store} {op : Op} {r : op.Res} (h : s.Indexed db)
    (hexec : exec db t ch s op = some (r, s')) : s'.Indexed db := by
  cases exec_change hexec with
  | committed =>
    exact ((index_commitTx s t).pairwise_iff fun hc hclash => hc (clash_symm hclash)).mpr h
  | ended => exact h.sublist ((List.filter_sublist.map _).append_left _)
  | @inserted values row _ _ new =>
    have whole : Store.index_rows { s with pending := s.pending ++ [(t, row)] } =
        s.index_rows ++ [row] := by
      simp [Store.index_rows]
    unfold Store.Indexed
    rw [whole, List.pairwise_append]
    refine ⟨h, List.pairwise_singleton _ _, ?_⟩
    intro y hy z hz hclash
    obtain rfl := List.mem_singleton.mp hz
    exact new y hy (clash_symm hclash)
  | same | begun | enqueued | minted => exact h

theorem outside_indexed {o : Outside} {s' : Store} (h : s.Indexed db)
    (ho : outside o s = some s') : s'.Indexed db := by
  cases o with
  | advance n =>
    cases ho
    exact h
  | reap u =>
    cases ho
    exact h.sublist ((List.filter_sublist.map _).append_left _)

theorem run_indexed (h : LedgerRun v c ls d) (hc : c.world.store.Indexed v.db) :
    d.world.store.Indexed v.db :=
  h.store_invariant (P := fun s => s.Indexed v.db) exec_indexed outside_indexed hc

/-- One committed entry has a key. -/
theorem Store.Indexed.unique (h : s.Indexed db) {y : EntryRow} (hx : x ∈ s.entries)
    (hy : y ∈ s.entries) {key : String} (hkx : db.same x.idempotency_key key)
    (hky : db.same y.idempotency_key key) : y = x := by
  have committed := (List.pairwise_append.mp h).1
  have : Std.Symm fun r r' => ¬ clash db r r' := ⟨fun _ _ hc hx => hc (clash_symm hx)⟩
  by_contra hne
  exact committed.forall hy hx hne (.inr (Collation.same_trans hky (Collation.same_symm hkx)))

/-! ## The guarantee -/

/-- The database serves the call: no statement of its fails on the way, and its transaction is left
to it. The other calls are served or not. -/
def Serves (t : Nat) : LedgerLabel → Prop
  | .run u ch => u = t → ch.fault = .none
  | .env (.reap u) => u ≠ t
  | _ => True

instance (t : Nat) : (l : LedgerLabel) → Decidable (Serves t l)
  | .run u ch => inferInstanceAs (Decidable (u = t → ch.fault = .none))
  | .env (.reap u) => inferInstanceAs (Decidable (u ≠ t))
  | .env (.advance _) | .spawn _ | .drop _ => isTrue trivial

abbrev ServedRun (v : Env) (t : Nat) : LedgerConf → List LedgerLabel → LedgerConf → Prop :=
  RunWhere (machine v.db) (serve v) fun _ l _ => Serves t l

/-- The table can store what is asked for at this instant: every column takes its value, and the
CHECK constraints hold. -/
def Stores (v : Env) (p : PostEntryParams) (now : DateTime) : Prop :=
  ∀ entry_id, ((p.values v.sha256_hex entry_id now).row v.db).isSome = true

/-- The call has been answered with the entry, or refused as another payment. -/
def Settled (x : EntryRow) (r : Except LedgerError Response) : Prop :=
  r = .ok (.posted ⟨x.id, true, .of_micros x.created_at⟩) ∨ r = .error .IdempotencyMismatch

/-- No step of the call has changed a table. -/
def LeavesTables (t : Nat) (d : LedgerConf) : Prop :=
  ∀ e ∈ d.world.log, e.tid = t →
    e.post.entries = e.pre.entries ∧ e.post.outbox = e.pre.outbox

/-- Whether a row can be stored does not depend on its identifier. -/
theorem stores_of_row {entry_id : Uuid} {now : DateTime}
    (h : ((p.values v.sha256_hex entry_id now).row v.db).isSome = true) : Stores v p now := by
  intro other
  unfold EntryInsert.row at h ⊢
  split at h
  · next amount currency key metadata hamount hcurrency hkey hmetadata =>
    split at h
    · next hcheck =>
      simp only [PostEntryParams.values] at hcheck hamount hcurrency hkey hmetadata ⊢
      simp only [hamount, hcurrency, hkey, hmetadata]
      exact congrArg Option.isSome (if_pos hcheck)
    · cases h
  · cases h

/-! ## The call -/

/-- A statement that the database serves does what it does. -/
theorem exec_served {ch : Choice} {s' : Store} {q : Sql} {r : Option q.Res}
    (serves : ch.fault = .none) (h : exec db t ch s (.sql q) = some (r, s')) :
    q.run db t s = some (r, s') := by
  simp only [exec, serves] at h
  exact h

section Active

variable {ch : Choice} {s' : Store} {op : Op} {r : op.Res}

/-- A transaction is ended by its own call. -/
theorem exec_active_self (hexec : exec db t ch s op = some (r, s'))
    (hop : op ≠ .sql .commit ∧ op ≠ .sql .rollback) (h : t ∈ s.active) : t ∈ s'.active := by
  cases exec_change hexec with
  | committed => exact absurd rfl hop.1
  | ended => exact absurd rfl hop.2
  | begun => exact List.mem_cons_of_mem _ h
  | same | inserted | enqueued | minted => exact h

/-- And by no other. -/
theorem exec_active_other {u : Nat} (hut : u ≠ t) (hexec : exec db u ch s op = some (r, s'))
    (h : t ∈ s.active) : t ∈ s'.active := by
  have hother : t ∈ s.active.filter (· != u) :=
    List.mem_filter.mpr ⟨h, by simpa using Ne.symm hut⟩
  cases exec_change hexec with
  | committed | ended => exact hother
  | begun => exact List.mem_cons_of_mem _ h
  | same | inserted | enqueued | minted => exact h

end Active

section Call

variable (hc : LedgerRun v (.init s) ls c) (hd : ServedRun v t c ms d)
  (later : c.pool.length ≤ t)

include hc later

/-- At first the call has done nothing. -/
theorem not_yet {e : LedgerEvent} (he : e ∈ c.world.log) : e.tid ≠ t := by
  intro ht
  obtain ⟨call, hcall, _⟩ := asked_of_event hc he
  have harrived := (List.getElem?_eq_some_iff.mp hcall).1
  omega

include hd

/-- **A statement of the call** was executed by the database on what was committed before it
came, at a point of the run. -/
theorem served_at {e : LedgerEvent} (he : e ∈ d.world.log) (ht : e.tid = t) :
    ∃ ms' c' before after, ServedRun v t c ms' c' ∧ c'.world = ⟨e.pre, before⟩ ∧
      d.world.log = before ++ e :: after ∧ c.world.store.entries <+: e.pre.entries ∧
        ∀ q r, e.did = did q r → q.run v.db t e.pre = some (r, e.post) := by
  obtain ⟨_, new, hsplit, hnew⟩ := run_grows hd.run
  have hmem : e ∈ new := by
    rw [hsplit] at he
    exact (List.mem_append.mp he).resolve_left fun hold => not_yet hc later hold ht
  obtain ⟨before, after, split⟩ := List.append_of_mem hmem
  obtain ⟨ms', c', ch, d', hrun, hworld, hserves, hexec⟩ := hd.at_event hsplit split
  refine ⟨ms', c', c.world.log ++ before, after, hrun, hworld, ?_, (hnew e hmem).1, ?_⟩
  · rw [hsplit, split, List.append_assoc]
  · intro q r hdid
    obtain ⟨tid, req, op, pre, res, post⟩ := e
    obtain rfl : tid = t := ht
    cases hdid
    exact exec_served (hserves rfl) hexec

/-- Its transaction stays open until it ends it. -/
theorem transaction_open (began : did .begin (some ()) ∈ history t d.world.log)
    (held : Held (history t d.world.log)) : t ∈ d.world.store.active := by
  induction hd with
  | nil =>
    obtain ⟨e, he, ht, _⟩ := mem_history.mp began
    exact absurd ht (not_yet hc later he)
  | @snoc d e ms l hrun hstep hserves ih =>
    rcases step_cases hstep with ⟨req, _, rfl⟩ |
      ⟨u, ch, call, op, next, r, s', rfl, _, _, _, hexec, rfl⟩ | ⟨u, call, _, _, rfl⟩ |
      ⟨o, s', rfl, henv, rfl⟩
    · exact ih began held
    · by_cases hut : u = t
      · subst hut
        have grown : history u (d.world.push ⟨u, call.req, op, d.world.store, r, s'⟩).log =
            history u d.world.log ++ [⟨op, r⟩] := history_append_self _ rfl
        rw [grown] at began held
        rcases List.mem_append.mp began with hold | hnow
        · exact exec_active_self hexec (held _ (List.mem_append_right _ List.mem_cons_self))
            (ih hold fun x hx => held x (List.mem_append_left _ hx))
        · cases List.mem_singleton.mp hnow
          obtain ⟨_, rfl⟩ := run_begin (exec_served (hserves rfl) hexec)
          exact List.mem_cons_self
      · have other : history t (d.world.push ⟨u, call.req, op, d.world.store, r, s'⟩).log =
            history t d.world.log := history_append_other _ hut
        rw [other] at began held
        exact exec_active_other hut hexec (ih began held)
    · exact ih began held
    · have hactive := ih began held
      cases o with
      | advance n =>
        cases henv
        exact hactive
      | reap u =>
        cases henv
        have hother : u ≠ t := hserves
        exact List.mem_filter.mpr ⟨hactive, by simpa using Ne.symm hother⟩

variable (hasked : asked d t (.post_entry p)) (hx : x ∈ c.world.store.entries)
  (hkey : v.db.same x.idempotency_key p.idempotency_key)

include hasked

/-- Its INSERT reaches the table, with the one reading of the clock. -/
theorem insert_reaches {values : EntryInsert} {r : Option InsertResult}
    (hdid : did (.insert_entry values) r ∈ history t d.world.log) :
    ∃ e ∈ d.world.log, ∃ entry_id now, values = p.values v.sha256_hex entry_id now ∧
      ⟨.utc_now, now⟩ ∈ history t d.world.log ∧ t ∈ e.pre.active ∧
        c.world.store.entries <+: e.pre.entries ∧
          Sql.run v.db t e.pre (.insert_entry values) = some (r, e.post) := by
  obtain ⟨e, he, ht, hevent⟩ := mem_history.mp hdid
  obtain ⟨ms', c', before, after, hserved, hworld, split, hgrown, hrun⟩ :=
    served_at hc hd later he ht
  have hordered := ordered_at (hc.append hd.run) hasked split ht
  rw [show e.op = .sql (.insert_entry values) from congrArg Done.op hevent] at hordered
  obtain ⟨entry_id, now, hvalues, hread, began, held⟩ := hordered
  have hactive := transaction_open hc hserved later (by rwa [hworld]) (by rwa [hworld])
  rw [hworld] at hactive
  exact ⟨e, he, entry_id, now, hvalues, (history_grows ⟨_, split.symm⟩).subset hread, hactive,
    hgrown, hrun _ _ hevent⟩

include hx hkey

/-- The key is taken. -/
theorem never_inserted (values : EntryInsert) :
    did (.insert_entry values) (some .inserted) ∉ history t d.world.log := by
  intro hdid
  obtain ⟨e, he, entry_id, now, rfl, _, _, hgrown, hrun⟩ :=
    insert_reaches hc hd later hasked hdid
  rcases run_insert_entry hrun with ⟨hr, _⟩ | ⟨hr, _⟩ | ⟨row, hrow, _, _, hnew, _⟩
  · cases hr
  · cases hr
  · have hrowkey := (values_row hrow).2.key
    refine hnew x (List.mem_append_left _ (hgrown.subset hx)) (.inr ?_)
    exact Collation.same_symm (Collation.same_trans hkey hrowkey)

/-- **The call leaves both tables alone.** -/
theorem leaves_tables : LeavesTables t d := by
  intro e he ht
  obtain ⟨_, _, before, after, _, _, split, _, _⟩ := served_at hc hd later he ht
  have hordered := ordered_at (hc.append hd.run) hasked split ht
  have hcommit : e.op ≠ .sql .commit := by
    intro hop
    rw [hop] at hordered
    obtain ⟨values, hdid⟩ := hordered
    exact never_inserted hc hd later hasked hx hkey values
      ((history_grows ⟨_, split.symm⟩).subset hdid)
  obtain ⟨_, _, _, hexec⟩ := (hc.append hd.run).executed he
  refine ⟨exec_entries hcommit hexec, ?_⟩
  have hexec : exec v.db e.tid _ e.pre e.op = some (e.res, e.post) := hexec
  generalize e.op = op, e.res = res, e.post = post at hcommit hexec
  cases exec_change hexec with
  | committed => exact absurd rfl hcommit
  | same | begun | ended | inserted | enqueued | minted => rfl

/-- A statement that fails is the INSERT of a row that the table cannot store. -/
theorem failed_insert {q : Sql} (hdid : did q none ∈ history t d.world.log) :
    ∃ now, ⟨.utc_now, now⟩ ∈ history t d.world.log ∧ ¬ Stores v p now := by
  obtain ⟨e, he, ht, hevent⟩ := mem_history.mp hdid
  obtain ⟨_, _, before, after, _, _, split, _, hrun⟩ := served_at hc hd later he ht
  have hrun := hrun _ _ hevent
  have hordered := ordered_at (hc.append hd.run) hasked split ht
  rw [show e.op = .sql q from congrArg Done.op hevent] at hordered
  have grown := history_grows (t := t) ⟨_, split.symm⟩
  cases q with
  | insert_entry values =>
    obtain ⟨e', _, entry_id, now, rfl, hread, hactive, _, hrun'⟩ :=
      insert_reaches hc hd later hasked hdid
    refine ⟨now, hread, ?_⟩
    intro hstores
    obtain ⟨row, hrow⟩ := Option.isSome_iff_exists.mp (hstores entry_id)
    simp only [Sql.run, if_pos hactive, hrow] at hrun'
    split at hrun'
    · cases hrun'
    · split at hrun' <;> cases hrun'
  | insert_outbox | commit =>
    obtain ⟨values, hinserted⟩ := hordered
    exact absurd (grown.subset hinserted)
      (never_inserted hc hd later hasked hx hkey values)
  | begin =>
    simp only [Sql.run] at hrun
    split at hrun <;> cases hrun
  | rollback | select_by_key | select_balance | select_statement => cases hrun

end Call

/-! ## The answer -/

/-- The row read by the key is the entry. -/
theorem reads_entry (indexed : d.world.store.Indexed v.db) (hd : LedgerRun v (.init s) ls d)
    (hx : x ∈ d.world.store.entries) {key : String} (hkey : v.db.same x.idempotency_key key)
    {row : ExistingRow}
    (hread : did (.select_by_key key) (some (some row)) ∈ history t d.world.log) :
    row = ⟨x.id, x.payload_hash, x.created_at⟩ := by
  obtain ⟨y, hy, hkey', rfl⟩ := read_by_key hd hread
  rw [indexed.unique hx hy hkey hkey']

/-- What a unique violation refuses, the table could store. -/
theorem stores_of_violation {e : LedgerEvent} {entry_id : Uuid} {now : DateTime}
    (hrun : Sql.run v.db t e.pre (.insert_entry (p.values v.sha256_hex entry_id now)) =
      some (some .unique_violation, e.post)) : Stores v p now := by
  simp only [Sql.run] at hrun
  split at hrun
  · split at hrun
    · cases hrun
    · next row hrow => exact stores_of_row (Option.isSome_iff_exists.mpr ⟨row, hrow⟩)
  · cases hrun

/-- What has been read by the key was refused by the index before. -/
theorem stores_of_read (hc : LedgerRun v (.init s) ls c) (hd : ServedRun v t c ms d)
    (later : c.pool.length ≤ t) (hasked : asked d t (.post_entry p)) {row : ExistingRow}
    (hread : did (.select_by_key p.idempotency_key) (some (some row)) ∈ history t d.world.log) :
    ∃ now, ⟨.utc_now, now⟩ ∈ history t d.world.log ∧ Stores v p now := by
  obtain ⟨e, he, rfl, hevent⟩ := mem_history.mp hread
  obtain ⟨before, after, split⟩ := List.append_of_mem he
  obtain ⟨q, hreq, hcarries⟩ := carried (hc.append hd.run) split
    (by rw [show e.op = _ from congrArg Done.op hevent]; rfl)
  obtain rfl := Request.post_entry.inj ((asked_event (hc.append hd.run) hasked he rfl).symm.trans hreq)
  rw [show e.op = _ from congrArg Done.op hevent] at hcarries
  obtain ⟨_, entry_id, created_at, hrefused⟩ := hcarries
  obtain ⟨e', _, id, now, hvalues, hclock, _, _, hrun⟩ := insert_reaches hc hd later hasked
    ((history_grows ⟨_, split.symm⟩).subset hrefused)
  rw [hvalues] at hrun
  exact ⟨now, hclock, stores_of_violation hrun⟩

/-- **When a posting under the key of an entry is settled**: if and only if the entry has a digest
and the table could store what is asked for. It leaves the tables alone either way. -/
theorem old_entry_retry_iff (v : Env) (s : Store) (indexed : s.Indexed v.db)
    (ls ms : List LedgerLabel) (c d : LedgerConf) (t : Nat) (hc : LedgerRun v (.init s) ls c)
    (hd : ServedRun v t c ms d) (later : c.pool.length ≤ t) (p : PostEntryParams)
    (valid : Validated p) (x : EntryRow) (hx : x ∈ c.world.store.entries)
    (hkey : v.db.same x.idempotency_key p.idempotency_key) (r : Except LedgerError Response)
    (hr : d.returned t (.post_entry p) r) :
    (Settled x r ∧ LeavesTables t d) ↔ x.payload_hash ≠ none ∧
      ∃ now, ⟨.utc_now, now⟩ ∈ history t d.world.log ∧ Stores v p now := by
  have whole := hc.append hd.run
  have hasked := asked_of_returned hr
  have hx' : x ∈ d.world.store.entries := (run_grows hd.run).entries.subset hx
  have read : ∀ {row : ExistingRow},
      did (.select_by_key p.idempotency_key) (some (some row)) ∈ history t d.world.log →
        row = ⟨x.id, x.payload_hash, x.created_at⟩ :=
    reads_entry (run_indexed whole indexed) whole hx' hkey
  obtain ⟨r', rfl, hconcludes⟩ := whole.answer (serve_traced v) hr
  constructor
  · rintro ⟨hsettled, _⟩
    match r', hsettled, hconcludes with
    | .ok ⟨_, true, _⟩, _, ⟨_, row, hread, _, hhash, _⟩ =>
      obtain rfl := read hread
      exact ⟨fun hnull => Option.some_ne_none _ (hhash.symm.trans hnull),
        stores_of_read hc hd later hasked hread⟩
    | .ok ⟨_, false, _⟩, hsettled, _ => rcases hsettled with hsettled | hsettled <;> cases hsettled
    | .error .IdempotencyMismatch, _, ⟨_, row, hash, hread, hhash, _⟩ =>
      obtain rfl := read hread
      exact ⟨fun hnull => Option.some_ne_none _ (hhash.symm.trans hnull),
        stores_of_read hc hd later hasked hread⟩
    | .error (.InvalidArgument _), hsettled, _ | .error (.Database _), hsettled, _
    | .error (.DecimalParse _), hsettled, _ | .error (.Internal _), hsettled, _ =>
      rcases hsettled with hsettled | hsettled <;> cases hsettled
  · rintro ⟨hhash, now, hnow, hstores⟩
    refine ⟨?_, leaves_tables hc hd later hasked hx hkey⟩
    match r', hconcludes with
    | .ok ⟨entry_id, true, created_at⟩, ⟨_, row, hread, hid, _, hcreated⟩ =>
      obtain rfl := read hread
      obtain rfl : x.id = entry_id := hid
      obtain rfl : created_at = .of_micros x.created_at := hcreated
      exact .inl rfl
    | .ok ⟨_, false, _⟩, ⟨_, _, hinserted⟩ =>
      exact absurd hinserted (never_inserted hc hd later hasked hx hkey _)
    | .error .IdempotencyMismatch, _ => exact .inr rfl
    | .error (.InvalidArgument _), hinvalid => exact absurd valid hinvalid
    | .error (.Database .database), ⟨_, q, hfailed⟩ =>
      obtain ⟨now', hnow', hnot⟩ := failed_insert hc hd later hasked hx hkey hfailed
      obtain rfl := read_once whole hasked hnow hnow'
      exact absurd hstores hnot
    | .error (.Database .row_not_found), ⟨_, hread⟩ =>
      obtain ⟨e, he, ht, hevent⟩ := mem_history.mp hread
      obtain ⟨_, _, _, _, _, _, _, hgrown, hrun⟩ := served_at hc hd later he ht
      have hexec : exec v.db t {} e.pre (.sql (.select_by_key p.idempotency_key)) =
          some (some none, e.post) := hrun _ _ hevent
      exact absurd hkey (exec_select_none hexec x (hgrown.subset hx))
    | .error (.Database .column_decode), ⟨_, row, hread, hnull⟩ =>
      obtain rfl := read hread
      exact absurd hnull hhash

/-! ## Two samples -/

/-- The sample payment as an entry. -/
def old_entry (payload_hash : Option String) : EntryRow where
  id := .low 9
  debit_account_id := .low 1
  credit_account_id := .low 2
  amount := .cast 5000000
  currency := .NGN
  idempotency_key := "pay-1"
  payload_hash := payload_hash
  payment_id := none
  metadata := none
  created_at := 0

/-- The ledger that has it, before its first call. -/
def old_ledger (payload_hash : Option String) : LedgerConf :=
  .init { entries := [old_entry payload_hash] }

/-- The payment is made again. -/
def paying_again : List LedgerLabel :=
  [.spawn (.post_entry (payment "pay-1")), .run 0 { uuid := .low 12 }, .run 0 {}, .run 0 {},
    .run 0 {}, .run 0 {}, .run 0 {}]

def old_paid_again (payload_hash : Option String) : LedgerConf :=
  replayed (machine sample.db) (serve sample) (old_ledger payload_hash) paying_again

theorem old_ledger_indexed (payload_hash : Option String) :
    (old_ledger payload_hash).world.store.Indexed sample.db := List.pairwise_singleton _ _

/-- The sample payment passes the guards. -/
theorem payment_validated : Validated (payment "pay-1") := ⟨by decide, by decide, by decide⟩

/-- Where the entry has its digest, the payment is answered with it. -/
theorem old_entry_retry_digest :
    Settled (old_entry (some "4cc38010cef4f30b941decb439f3b62744de2fe68d2251cb19383ff4b3ee3dda"))
        (.ok (.posted ⟨.low 9, true, ⟨0⟩⟩)) ∧
      LeavesTables 0
        (old_paid_again (some "4cc38010cef4f30b941decb439f3b62744de2fe68d2251cb19383ff4b3ee3dda")) := by
  have run : LedgerRun sample
      (old_ledger (some "4cc38010cef4f30b941decb439f3b62744de2fe68d2251cb19383ff4b3ee3dda"))
      paying_again
      (old_paid_again (some "4cc38010cef4f30b941decb439f3b62744de2fe68d2251cb19383ff4b3ee3dda")) :=
    run_replayed (by decide +kernel)
  have returned :
      (old_paid_again (some "4cc38010cef4f30b941decb439f3b62744de2fe68d2251cb19383ff4b3ee3dda")).returned
        0 (.post_entry (payment "pay-1")) (.ok (.posted ⟨.low 9, true, ⟨0⟩⟩)) :=
    returned_of_result? rfl (by decide +kernel)
  refine (old_entry_retry_iff sample _ (old_ledger_indexed _) [] _ _ _ 0 (.nil _)
    (run.where_labels (by decide)) (Nat.zero_le _) _ payment_validated _ List.mem_cons_self rfl _
    returned).mpr ⟨by simp [old_entry], ⟨0⟩, ?_, ?_⟩
  · exact List.mem_cons_of_mem _ List.mem_cons_self
  · exact stores_of_row (show ((payment "pay-1").values sample.sha256_hex (.low 12) ⟨0⟩ |>.row
      sample.db).isSome = true by decide)

/-- Where it has none, the retry fails as an error of the database. -/
theorem old_entry_retry_null :
    ¬ ∀ (v : Env) (s : Store), s.Indexed v.db → ∀ (ls ms : List LedgerLabel) (c d : LedgerConf)
      (t : Nat), LedgerRun v (.init s) ls c → ServedRun v t c ms d → c.pool.length ≤ t →
        ∀ p, Validated p → ∀ x ∈ c.world.store.entries,
          v.db.same x.idempotency_key p.idempotency_key → ∀ r, d.returned t (.post_entry p) r →
            Settled x r ∧ LeavesTables t d := by
  intro claim
  have run : LedgerRun sample (old_ledger none) paying_again (old_paid_again none) :=
    run_replayed (by decide +kernel)
  have returned : (old_paid_again none).returned 0 (.post_entry (payment "pay-1"))
      (.error (.Database .column_decode)) := returned_of_result? rfl (by decide +kernel)
  obtain ⟨hsettled, _⟩ := claim sample _ (old_ledger_indexed _) [] _ _ _ 0 (.nil _)
    (run.where_labels (by decide)) (Nat.zero_le _) _ payment_validated _ List.mem_cons_self rfl _
    returned
  rcases hsettled with hsettled | hsettled <;> cases hsettled

end Kova.Ledger

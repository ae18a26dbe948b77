import Kova.Conc.Linear
import Kova.Ledger.ExactlyOnce
import Kova.Ledger.RepeatedReply

/-!
# The service is a journal

What `kova-ledger` is to its clients: a journal of entries, each with its message, that answers one
request after another. `Journal.Serves` says what a request may be answered with and what journal it
leaves; no transaction, lock or duplicate branch stands in it. Every interleaving of any calls is
explained by such a sequence, in the order in which the calls return (`service_linearizable`).

A posting takes effect with its COMMIT, after which it returns at once (`serve_last`). The duplicate
branch is the one place where the answer is read later than the fact it reports, the entry under the
key; that entry is committed and stays (`duplicate_found`), so that the fetch finds it.
-/

set_option autoImplicit false

namespace Kova.Ledger

open Conc

variable {v : Env}

/-! ## The journal -/

/-- The entries in the order of their commits, and the messages about them. -/
structure Journal where
  entries : List EntryRow
  messages : List OutboxRow

def Journal.add (j : Journal) (row : EntryRow) (o : OutboxRow) : Journal :=
  ⟨j.entries ++ [row], j.messages ++ [o]⟩

/-- What the tables stand for. -/
def Store.journal (s : Store) : Journal := ⟨s.entries, s.outbox⟩

/-- The requests that are not refused for their arguments. -/
def Request.Accepted : Request → Prop
  | .post_entry p => Validated p
  | .get_balance _ currency => SUPPORTED_CURRENCIES.contains currency = true
  | .get_statement _ cursor limit =>
    0 < limit.toNat ∧ limit.toNat ≤ 100 ∧ ∃ place, read_cursor cursor = .ret place

/-- An entry of the request's values that no index refuses, and its message. -/
structure Books (v : Env) (j : Journal) (p : PostEntryParams) (now : DateTime) (row : EntryRow)
    (o : OutboxRow) : Prop where
  valid : Validated p
  values : (p.values v.sha256_hex row.id now).row v.db = some row
  fresh : ∀ x ∈ j.entries, ¬ clash v.db x row
  entry : o.entry_id = row.id
  payload : o.payload_json = p.outbox_payload row.id

/-- **One request after another.** -/
inductive Journal.Serves (v : Env) (j : Journal) :
    Request → Except LedgerError Response → Journal → Prop
  | posted {p : PostEntryParams} {now : DateTime} {row : EntryRow} {o : OutboxRow}
      (books : Books v j p now row o) :
      Journal.Serves v j (.post_entry p) (.ok (.posted ⟨row.id, false, now⟩)) (j.add row o)
  | replayed {p : PostEntryParams} {x : EntryRow} (valid : Validated p) (mem : x ∈ j.entries)
      (key : v.db.same x.idempotency_key p.idempotency_key)
      (hash : x.payload_hash = some (p.payload_hash v.sha256_hex)) :
      Journal.Serves v j (.post_entry p) (.ok (.posted ⟨x.id, true, .of_micros x.created_at⟩)) j
  | mismatch {p : PostEntryParams} {x : EntryRow} (valid : Validated p) (mem : x ∈ j.entries)
      (key : v.db.same x.idempotency_key p.idempotency_key)
      (hash : x.payload_hash ≠ some (p.payload_hash v.sha256_hex)) :
      Journal.Serves v j (.post_entry p) (.error .IdempotencyMismatch) j
  | balance {account_id : Uuid} {currency : String}
      (supported : SUPPORTED_CURRENCIES.contains currency = true) :
      Journal.Serves v j (.get_balance account_id currency)
        (.ok (.balance (select_balance v.db j.entries account_id currency).result)) j
  | statement {f : StatementFilter} {cursor : Option String} {limit : UInt32}
      {place : Option (Int × Uuid)} {page : StatementPage}
      (accepted : (Request.get_statement f cursor limit).Accepted)
      (placed : read_cursor cursor = .ret place)
      (decoded : statement_page v.json_text limit.toNat
        (select_statement v.db j.entries (f.query place (limit.toNat + 1))) = some page) :
      Journal.Serves v j (.get_statement f cursor limit) (.ok (.statement page)) j
  /-- A JSON column that the driver cannot read. -/
  | undecodable {f : StatementFilter} {cursor : Option String} {limit : UInt32}
      {place : Option (Int × Uuid)} (accepted : (Request.get_statement f cursor limit).Accepted)
      (placed : read_cursor cursor = .ret place)
      (undecoded : statement_page v.json_text limit.toNat
        (select_statement v.db j.entries (f.query place (limit.toNat + 1))) = none) :
      Journal.Serves v j (.get_statement f cursor limit) (.error (.Database .column_decode)) j
  | refused {req : Request} {message : String} (refused : ¬ req.Accepted) :
      Journal.Serves v j req (.error (.InvalidArgument message)) j
  | failed {req : Request} (accepted : req.Accepted) :
      Journal.Serves v j req (.error (.Database .database)) j
  /-- The COMMIT took effect and its reply was lost. -/
  | unacknowledged {p : PostEntryParams} {now : DateTime} {row : EntryRow} {o : OutboxRow}
      (books : Books v j p now row o) :
      Journal.Serves v j (.post_entry p) (.error (.Database .database)) (j.add row o)

/-! ## The last operation -/

def Op.inserts : Op → Bool
  | .sql (.insert_entry _) => true
  | _ => false

/-- Nothing comes after a COMMIT, and no INSERT of an entry after another. -/
def Last (h : List LedgerDone) (op : Op) : Prop :=
  (∀ x ∈ h, x.op ≠ .sql .commit) ∧ (op.inserts = true → ∀ x ∈ h, x.op.inserts = false)

/-- A posting that has tried its COMMIT fails as the database does. -/
def closes (h : List LedgerDone) : Except LedgerError PostEntryResult → Prop
  | .ok _ => True
  | .error e => (∃ x ∈ h, x.op = .sql .commit) → e = .Database .database

section Walking

variable {p : PostEntryParams} {h : List LedgerDone}

/-- No COMMIT so far. -/
def Open (h : List LedgerDone) : Prop := ∀ x ∈ h, x.op ≠ .sql .commit

theorem Open.snoc (hopen : Open h) {x : LedgerDone} (hx : x.op ≠ .sql .commit) :
    Open (h ++ [x]) :=
  List.forall_mem_append.mpr ⟨hopen, List.forall_mem_singleton.mpr hx⟩

/-- An operation that inserts no entry, before any COMMIT. -/
theorem Open.last (hopen : Open h) {op : Op} (hop : op.inserts = false) : Last h op := by
  refine ⟨hopen, ?_⟩
  intro hinserts
  rw [hop] at hinserts
  cases hinserts

/-- A failure before any COMMIT. -/
theorem Open.closing (hopen : Open h) (e : LedgerError) : closes h (.error e) := by
  rintro ⟨x, hx, hcommit⟩
  exact absurd hcommit (hopen x hx)

theorem Open.failed (hopen : Open h) {q : Sql} (hq : Op.sql q ≠ .sql .commit) :
    closes (h ++ [did q none]) (.error (.Database .database)) :=
  (hopen.snoc (x := did q none) hq).closing _

theorem enqueue_and_commit_last {entry_id : Uuid} {now : DateTime} (hopen : Open h) :
    Guarded Last closes (enqueue_and_commit p entry_id now) h := by
  apply guarded_await (hopen.last rfl)
  intro outbox_id
  have opened := hopen.snoc (x := ⟨.now_v7, outbox_id⟩) (by rintro ⟨⟩)
  refine guarded_sql (opened.last rfl) (opened.failed (by rintro ⟨⟩)) ?_
  intro sent
  have enqueued := opened.snoc
    (x := did (.insert_outbox outbox_id entry_id (p.outbox_payload entry_id)) (some sent))
    (by rintro ⟨⟩)
  exact guarded_sql (enqueued.last rfl) (fun _ => rfl) fun _ => trivial

theorem verify_duplicate_last (hopen : Open h) :
    Guarded Last closes (verify_duplicate v.sha256_hex p) h := by
  apply guarded_await (hopen.last rfl)
  intro x
  have opened := hopen.snoc (x := did .rollback x) (by rintro ⟨⟩)
  refine guarded_sql (opened.last rfl) (opened.failed (by rintro ⟨⟩)) ?_
  intro row
  have read := opened.snoc (x := did (.select_by_key p.idempotency_key) (some row)) (by rintro ⟨⟩)
  fun_cases answer_duplicate with
  | case1 => exact read.closing _
  | case2 row hnull => exact read.closing _
  | case3 row existing_hash hhash hne => exact read.closing _
  | case4 row existing_hash hhash hsame => trivial

theorem post_entry_last (v : Env) (p : PostEntryParams) :
    Guarded Last closes (post_entry v.sha256_hex p) [] := by
  unfold post_entry
  have opened₀ : Open [] := fun x hx => absurd hx List.not_mem_nil
  rcases validate_cases p with ⟨hvalid, -, -, -⟩ | ⟨message, hvalid⟩
  · rw [hvalid]
    apply guarded_await (opened₀.last rfl)
    intro entry_id
    have opened₁ := opened₀.snoc (x := ⟨.now_v7, entry_id⟩) (by rintro ⟨⟩)
    apply guarded_await (opened₁.last rfl)
    intro now
    have opened₂ := opened₁.snoc (x := ⟨.utc_now, now⟩) (by rintro ⟨⟩)
    refine guarded_sql (opened₂.last rfl) (opened₂.failed (by rintro ⟨⟩)) ?_
    intro _
    have opened₃ := opened₂.snoc (x := did .begin (some ())) (by rintro ⟨⟩)
    refine guarded_await ⟨opened₃, by simp [Op.inserts, did]⟩ ?_
    intro result
    have opened₄ := opened₃.snoc
      (x := did (.insert_entry (p.values v.sha256_hex entry_id now)) result) (by rintro ⟨⟩)
    cases result with
    | none =>
      apply guarded_await (opened₄.last rfl)
      intro x
      exact (opened₄.snoc (x := did .rollback x) (by rintro ⟨⟩)).closing _
    | some outcome =>
      cases outcome with
      | inserted => exact enqueue_and_commit_last opened₄
      | unique_violation => exact verify_duplicate_last opened₄
  · rw [hvalid]
    exact opened₀.closing _

end Walking

/-- The reply of the one SELECT of a reading, and the answer made of it. -/
def Replies {q : Sql} (f : q.Res → Async Response) (h : List LedgerDone)
    (r : Except LedgerError Response) : Prop :=
  ∃ x : Option q.Res, h = [did q x] ∧
    (x.elim (some (.error (.Database .database))) fun a => (f a).result?) = some r

/-- What the result of a call says about what it has done last. -/
def closed (v : Env) : Request → List LedgerDone → Except LedgerError Response → Prop
  | .post_entry _, h, r => ∃ r', r = r'.map .posted ∧ closes h r'
  | .get_balance account_id currency, h, r =>
    h = [] ∨ SUPPORTED_CURRENCIES.contains currency = true ∧
      Replies (q := .select_balance account_id currency) (fun row => .ret (.balance row.result)) h r
  | .get_statement f cursor limit, h, r =>
    h = [] ∨ ∃ place, read_cursor cursor = .ret place ∧ 0 < limit.toNat ∧ limit.toNat ≤ 100 ∧
      Replies (q := .select_statement (f.query place (limit.toNat + 1)))
        (statement_response v limit.toNat) h r

/-- A reading is one SELECT, and its answer. -/
theorem reading_last {q : Sql} {f : q.Res → Async Response} (hq : (Op.sql q).inserts = false)
    (done : ∀ a, (f a).finished) : Guarded Last (Replies f) (sql q >>= f) [] := by
  refine guarded_sql ⟨nofun, by simp [hq]⟩ ⟨none, rfl, rfl⟩ ?_
  intro a
  have finished := done a
  cases hf : f a with
  | ret b => exact ⟨some a, rfl, by simp [hf]⟩
  | raise e => exact ⟨some a, rfl, by simp [hf]⟩
  | await op next =>
    rw [hf] at finished
    cases finished

/-- **Every call ends with the operation that it takes effect with.** -/
theorem serve_last (v : Env) (req : Request) :
    Guarded Last (closed v req) (serve v req) [] := by
  cases req with
  | post_entry p =>
    refine Guarded.bind ?_ ?_ (post_entry_last v p)
    · intro h e hcloses
      exact ⟨.error e, rfl, hcloses⟩
    · intro h r hcloses
      exact ⟨.ok r, rfl, hcloses⟩
  | get_balance account_id currency =>
    rcases serve_get_balance (v := v) account_id currency with ⟨_, heq⟩ | ⟨supported, heq⟩
    · rw [heq]
      exact .inl rfl
    · rw [heq]
      refine (reading_last rfl fun _ => rfl).mono (fun _ _ hlast => hlast) ?_
      intro h r hreplies
      exact .inr ⟨supported, hreplies⟩
  | get_statement f cursor limit =>
    rcases serve_get_statement (v := v) f cursor limit with
      ⟨_, heq⟩ | ⟨hpos, hle, place, hplace, heq⟩
    · rw [heq]
      exact .inl rfl
    · rw [heq]
      refine (reading_last rfl ?_).mono (fun _ _ hlast => hlast) ?_
      · intro rows
        unfold statement_response
        cases statement_page v.json_text limit.toNat rows <;> rfl
      · intro h r hreplies
        exact .inr ⟨place, hplace, hpos, hle, hreplies⟩

/-! ## Refusals -/

theorem read_cursor_refused {cursor : Option String}
    (h : ∀ place, read_cursor cursor ≠ .ret place) :
    ∃ message, read_cursor cursor = .raise (.InvalidArgument message) := by
  fun_cases read_cursor cursor with
  | case1 => exact absurd rfl (h none)
  | case2 c place hok =>
    refine absurd ?_ (h (some place))
    simp only [read_cursor, hok]
  | case3 c e herror =>
    unfold decode_cursor at herror
    split at herror
    · cases herror
      exact ⟨_, rfl⟩
    · split at herror
      · cases herror
      · cases herror
        exact ⟨_, rfl⟩

/-- A statement is refused for its limit or its cursor. -/
theorem statement_refused {f : StatementFilter} {cursor : Option String} {limit : UInt32}
    (h : ¬ (Request.get_statement f cursor limit).Accepted) :
    ∃ message, serve v (.get_statement f cursor limit) = .raise (.InvalidArgument message) := by
  by_cases hlimit : limit = 0 ∨ limit > 100
  · refine ⟨"limit must be between 1 and 100", ?_⟩
    simp only [serve, get_statement, hlimit, ↓reduceIte]
    rfl
  · obtain ⟨hzero, hbig⟩ := not_or.mp hlimit
    have hpos : 0 < limit.toNat := Nat.pos_of_ne_zero fun h => hzero (UInt32.toNat_inj.mp h)
    have hle : limit.toNat ≤ 100 := UInt32.le_iff_toNat_le.mp (UInt32.not_lt.mp hbig)
    have hcursor : ∀ place, read_cursor cursor ≠ .ret place := by
      intro place hplace
      exact h ⟨hpos, hle, place, hplace⟩
    obtain ⟨message, hraise⟩ := read_cursor_refused hcursor
    refine ⟨message, ?_⟩
    simp only [serve, get_statement, hlimit, ↓reduceIte, hraise]
    rfl

/-- **A request that is answered at once is refused.** -/
theorem refused_at_once {req : Request} {r : Except LedgerError Response}
    (hres : (serve v req).result? = some r) (j : Journal) : Journal.Serves v j req r j := by
  cases req with
  | post_entry p =>
    rcases validate_cases p with ⟨hvalid, -, -, -⟩ | ⟨message, hvalid⟩
    · simp only [serve, post_entry, hvalid] at hres
      cases hres
    · have hrefused := validate_refused hvalid
      simp only [serve, post_entry, hvalid] at hres
      cases hres
      exact .refused hrefused
  | get_balance account_id currency =>
    rcases serve_get_balance (v := v) account_id currency with ⟨hno, heq⟩ | ⟨_, heq⟩
    · rw [heq] at hres
      cases hres
      exact .refused (Bool.eq_false_iff.mp hno)
    · rw [heq] at hres
      cases hres
  | get_statement f cursor limit =>
    by_cases accepted : (Request.get_statement f cursor limit).Accepted
    · obtain ⟨hpos, hle, place, hplace⟩ := accepted
      have hlimit : ¬ (limit = 0 ∨ limit > 100) := by
        rintro (rfl | hbig)
        · cases hpos
        · exact absurd (UInt32.lt_iff_toNat_lt.mp hbig) (Nat.not_lt.mpr hle)
      simp only [serve, get_statement, hlimit, ↓reduceIte, hplace] at hres
      cases hres
    · obtain ⟨message, heq⟩ := statement_refused (v := v) accepted
      rw [heq] at hres
      cases hres
      exact .refused accepted

/-! ## What one operation does to the journal -/

theorem outside_journal {o : Outside} {s s' : Store} (h : outside o s = some s') :
    s'.journal = s.journal := by
  cases o with
  | advance | reap =>
    cases h
    rfl

/-- Only a COMMIT writes in the journal. -/
theorem exec_journal {db : Engine} {t : Nat} {ch : Choice} {s s' : Store} {op : Op} {r : op.Res}
    (hop : op ≠ .sql .commit) (h : exec db t ch s op = some (r, s')) : s'.journal = s.journal := by
  cases exec_change h with
  | committed => exact absurd rfl hop
  | same | begun | ended | inserted | enqueued | minted => rfl

/-- A COMMIT that adds no entry adds no message, and one that adds an entry adds its message. -/
theorem commit_journal {db : Engine} {t : Nat} {ch : Choice} {s s' : Store} {op : Op} {r : op.Res}
    (h : exec db t ch s op = some (r, s')) (before : Inv db s) (after : Inv db s') :
    (s'.entries = s.entries → s'.journal = s.journal) ∧
      ∀ row, s'.entries = s.entries ++ [row] → ∃ o, o.entry_id = row.id ∧ o ∈ s'.outbox ∧
        s'.journal = s.journal.add row o := by
  obtain ⟨new, hnew⟩ : ∃ new, s'.outbox = s.outbox ++ new := by
    rcases exec_outbox h with ⟨hout, _⟩ | ⟨hout, _⟩ | ⟨_, _, _, hout, _⟩
    · exact ⟨[], hout.trans (List.append_nil _).symm⟩
    · exact ⟨_, hout⟩
    · exact ⟨[], hout.trans (List.append_nil _).symm⟩
  have linked := after.linked
  rw [hnew, List.map_append, before.linked] at linked
  constructor
  · intro hentries
    rw [hentries] at linked
    obtain rfl : new = [] := by simpa using linked
    rw [Store.journal, Store.journal, hentries, hnew, List.append_nil]
  · intro row hentries
    rw [hentries, List.map_append, List.append_cancel_left_eq] at linked
    obtain ⟨o, rest, rfl, hid, hrest⟩ := List.map_eq_cons_iff.mp linked
    obtain rfl := List.map_eq_nil_iff.mp hrest
    refine ⟨o, hid, ?_, ?_⟩
    · rw [hnew]
      exact List.mem_append_right _ List.mem_cons_self
    · rw [Store.journal, Store.journal, hentries, hnew]
      rfl

/-- A row joins the open transaction of the call that inserts it. -/
theorem exec_pending {db : Engine} {t : Nat} {ch : Choice} {s s' : Store} {op : Op} {r : op.Res}
    (h : exec db t ch s op = some (r, s')) {x : Nat × EntryRow} (hx : x ∈ s'.pending) :
    x ∈ s.pending ∨ x.1 = t ∧ op.inserts = true := by
  cases exec_change h with
  | committed | ended => exact .inl (List.mem_filter.mp hx).1
  | inserted =>
    rcases List.mem_append.mp hx with hx | hx
    · exact .inl hx
    · obtain rfl := List.mem_singleton.mp hx
      exact .inr ⟨rfl, rfl⟩
  | same | begun | enqueued | minted => exact .inl hx

theorem outside_pending {o : Outside} {s s' : Store} (h : outside o s = some s')
    {x : Nat × EntryRow} (hx : x ∈ s'.pending) : x ∈ s.pending := by
  cases o with
  | advance n =>
    cases h
    exact hx
  | reap u =>
    cases h
    exact (List.mem_filter.mp hx).1

/-- What a unique violation reports. -/
theorem exec_violation {db : Engine} {t : Nat} {ch : Choice} {s s' : Store} {values : EntryInsert}
    (h : exec db t ch s (.sql (.insert_entry values)) = some (some .unique_violation, s')) :
    ∃ row, values.row db = some row ∧ ∃ r ∈ s.entries ++ s.pendingOf t, clash db row r := by
  rcases exec_sql h with ⟨hr, _⟩ | ⟨r', hrun, hr⟩
  · cases hr
  · obtain rfl : r' = some .unique_violation := by
      rcases hr with hr | hr
      · exact hr.symm
      · cases hr
    simp only [Sql.run] at hrun
    split at hrun
    · split at hrun
      · cases hrun
      · next row hrow =>
        split at hrun
        · next hclash => exact ⟨row, hrow, hclash⟩
        · split at hrun <;> cases hrun
    · cases hrun

/-- A SELECT answers from the store it finds, or fails. -/
theorem exec_select {db : Engine} {t : Nat} {ch : Choice} {s s' : Store} {q : Sql} {a : q.Res}
    {r : Option q.Res} (hrun : q.run db t s = some (some a, s))
    (h : exec db t ch s (.sql q) = some (r, s')) : s' = s ∧ (r = none ∨ r = some a) := by
  rcases exec_sql h with ⟨hr, hs⟩ | ⟨r', hrun', hr⟩
  · exact ⟨hs, .inl hr⟩
  · rw [hrun] at hrun'
    cases hrun'
    exact ⟨rfl, hr.symm⟩

/-! ## Along a run -/

section Runs

/-- The committed entries grow. -/
theorem entries_follow (db : Engine) :
    Follows (machine db) fun s s' => s.entries <+: s'.entries where
  refl _ := List.prefix_rfl
  trans := List.IsPrefix.trans
  exec h := exec_grows (v := ⟨db, fun _ => "", fun _ => none⟩) h
  env h := (outside_keeps h 0).entries

variable {clock : Nat} {ls : List LedgerLabel} {d : LedgerConf} {t : Nat} {p : PostEntryParams}

/-- The operation that an event executed, on the store it found. -/
theorem event_exec (hd : LedgerRun v (start clock) ls d) {e : LedgerEvent} (he : e ∈ d.world.log) :
    ∃ ch, exec v.db e.tid ch e.pre e.op = some (e.res, e.post) := by
  obtain ⟨_, ch, _, hexec⟩ := hd.executed he
  exact ⟨ch, hexec⟩

/-- A call that has tried its COMMIT has returned. -/
theorem commit_ends (hd : LedgerRun v (start clock) ls d) {e : LedgerEvent} (he : e ∈ d.world.log)
    (hop : e.op = .sql .commit) : ∃ r, d.returned e.tid e.req r := by
  obtain ⟨r, hr, _⟩ := hd.ended (serve_last v) he fun hist op hmem hlast => hlast.1 _ hmem hop
  exact ⟨r, hr⟩

/-- A row in a call's open transaction has been inserted by the call. -/
theorem pending_inserted (hd : LedgerRun v (start clock) ls d) {x : EntryRow}
    (hx : x ∈ d.world.store.pendingOf t) : ∃ e ∈ d.world.log, e.tid = t ∧ e.op.inserts = true := by
  have hmem : (t, x) ∈ d.world.store.pending := by
    obtain ⟨y, hy, rfl⟩ := List.mem_map.mp hx
    obtain ⟨hy, ht⟩ := List.mem_filter.mp hy
    exact beq_iff_eq.mp ht ▸ hy
  obtain ⟨e, he, hbefore, hafter⟩ := hd.becomes (P := fun s => (t, x) ∈ s.pending)
    (fun ho hafter => outside_pending ho hafter) List.not_mem_nil hmem
  obtain ⟨ch, hexec⟩ := event_exec hd he
  obtain ⟨rfl, hinserts⟩ := (exec_pending hexec hafter).resolve_left hbefore
  exact ⟨e, he, rfl, hinserts⟩

/-- The first INSERT of a call is refused for a key. -/
theorem violation_key (hd : LedgerRun v (start clock) ls d) {before after : List LedgerEvent}
    {a : LedgerEvent} (split : d.world.log = before ++ a :: after) {entry_id : Uuid}
    {now : DateTime} (hdid : a.did = did (.insert_entry (p.values v.sha256_hex entry_id now))
      (some .unique_violation)) :
    ∃ r ∈ a.pre.entries, v.db.same r.idempotency_key p.idempotency_key := by
  have hop : a.op = .sql (.insert_entry (p.values v.sha256_hex entry_id now)) :=
    congrArg Done.op hdid
  obtain ⟨_, c, hc, hworld, _⟩ := hd.at_event (List.nil_append _).symm split
  have hlog : c.world.log = before := congrArg World.log hworld
  have hstore : c.world.store = a.pre := congrArg World.store hworld
  have first : ∀ e ∈ before, e.tid = a.tid → e.op.inserts = false := by
    intro e he ht
    have hlast : Last (history a.tid before) a.op := hd.guard (serve_last v) split
    exact hlast.2 (hop ▸ rfl) e.did (mem_history.mpr ⟨e, he, ht, rfl⟩)
  obtain ⟨q, _, hcarries⟩ := carried hd split (hop ▸ rfl)
  rw [hop] at hcarries
  obtain ⟨entry_id', _, _, hvalues, hminted⟩ := hcarries
  obtain rfl : entry_id = entry_id' := congrArg EntryInsert.id hvalues
  obtain ⟨_, _, _, hexec⟩ := hd.did (split ▸ List.mem_append_right _ List.mem_cons_self) hdid
  obtain ⟨row, hrow, r, hr, hclash⟩ := exec_violation (t := a.tid) hexec
  obtain ⟨hid, hrowof⟩ := values_row hrow
  rcases List.mem_append.mp hr with hr | hr
  · refine ⟨r, hr, ?_⟩
    rcases hclash with hsame | hkey
    · -- an entry under the identifier of this call would be one that it has inserted
      obtain ⟨e, he, values, hope, hrowe⟩ :=
        (entry_inserted hc (hstore ▸ hr)).resolve_left List.not_mem_nil
      obtain ⟨before', after', split'⟩ := List.append_of_mem he
      obtain ⟨q', _, hcarries'⟩ := carried hc split' (hope ▸ rfl)
      rw [hope] at hcarries'
      obtain ⟨_, _, _, rfl, hminted'⟩ := hcarries'
      obtain ⟨rfl, _⟩ := values_row hrowe
      have hmine : ⟨.now_v7, row.id⟩ ∈ history a.tid c.world.log := by
        rw [hlog, hid]
        exact hminted
      have htheirs := (history_grows ⟨_, split'.symm⟩).subset hminted'
      have ht := minted_by_one hc htheirs (hsame ▸ hmine)
      have hnone := first e (hlog ▸ he) ht
      rw [hope] at hnone
      cases hnone
    · exact Collation.same_symm (Collation.same_trans hrowof.key hkey)
  · obtain ⟨e, he, ht, hinserts⟩ := pending_inserted hc (hstore ▸ hr)
    rw [first e (hlog ▸ he) ht] at hinserts
    cases hinserts

/-- **The duplicate branch finds the entry** that refused the INSERT: a posting is never answered
that there is none. -/
theorem duplicate_found (hd : LedgerRun v (start clock) ls d)
    (hread : did (.select_by_key p.idempotency_key) (some none) ∈ history t d.world.log) :
    False := by
  obtain ⟨b, hb, rfl, hdid⟩ := mem_history.mp hread
  have hop : b.op = .sql (.select_by_key p.idempotency_key) := congrArg Done.op hdid
  obtain ⟨before, after, split⟩ := List.append_of_mem hb
  obtain ⟨q, _, hcarries⟩ := carried hd split (hop ▸ rfl)
  rw [hop] at hcarries
  obtain ⟨hkey, entry_id, now, hrefused⟩ := hcarries
  obtain ⟨a, ha, _, hdida⟩ := mem_history.mp hrefused
  have hab : Precedes d.world.log a b := ⟨before, after, split, ha⟩
  obtain ⟨before', after', split'⟩ := List.append_of_mem hab.left
  obtain ⟨r, hr, hsame⟩ := violation_key hd split' hdida
  obtain ⟨_, _, _, hexec⟩ := hd.did hb hdid
  have grown := hd.between (entries_follow v.db) hab
  obtain ⟨cha, hexeca⟩ := event_exec hd hab.left
  exact exec_select_none (t := b.tid) hexec r (grown.subset ((exec_grows hexeca).subset hr))
    (hkey ▸ hsame)

/-! ### The moment of the answer -/

variable {before : List LedgerEvent} {e : LedgerEvent}

/-- The last event of a run stands at the end of its log. -/
theorem last_split (hworld : d.world = ⟨e.post, before ++ [e]⟩) :
    d.world.log = before ++ e :: [] := congrArg World.log hworld

theorem last_mem (hworld : d.world = ⟨e.post, before ++ [e]⟩) : e ∈ d.world.log :=
  last_split hworld ▸ List.mem_append_right _ List.mem_cons_self

/-- An entry that call `t` has committed is the one that it has posted. -/
theorem committed_posted (hd : LedgerRun v (start clock) ls d) {reply : Option Unit}
    {row : EntryRow} (done : Committed v p t reply row d.world)
    (hasked : asked d t (.post_entry p)) : PostedBy v d t p row := by
  obtain ⟨u, q, posted⟩ := entry_request hd done.mem
  obtain ⟨a, ha, rfl, hdid⟩ := mem_history.mp posted.minted
  obtain ⟨_, _, _, hexec⟩ := hd.did ha hdid
  have hexec : exec v.db a.tid _ a.pre .now_v7 = some (row.id, a.post) := hexec
  obtain ⟨_, hpost⟩ := exec_now_v7 hexec
  have hminted : (a.tid, row.id) ∈ d.world.store.minted :=
    hd.since (minted_follows v.db) ha (hpost ▸ List.mem_cons_self)
  have inv : Inv v.db d.world.store := (service_sound hd).inv
  obtain rfl := inv.owner done.minted hminted
  obtain rfl := Request.post_entry.inj (asked_unique hasked posted.asked)
  exact posted

/-- The stored row keeps of the instant what the column can hold. -/
theorem row_of_bind {id : Uuid} {now now' : DateTime} (h : now.bind = now'.bind) :
    (p.values v.sha256_hex id now).row v.db = (p.values v.sha256_hex id now').row v.db := by
  simp only [EntryInsert.row, PostEntryParams.values]
  split
  · refine if_congr ?_ ?_ rfl <;> rw [h]
  · rfl

/-- **The COMMIT of a posting** books its entry. -/
theorem committed_books (hd : LedgerRun v (start clock) ls d)
    (hworld : d.world = ⟨e.post, before ++ [e]⟩) {reply : Option Unit} {row : EntryRow}
    (done : Committed v p e.tid reply row d.world) (hasked : asked d e.tid (.post_entry p)) :
    ∃ now o, Books v e.pre.journal p now row o ∧ e.post.journal = e.pre.journal.add row o := by
  have posted := committed_posted hd done hasked
  obtain ⟨now, hvalues⟩ := posted.values
  have hentries : e.post.entries = e.pre.entries ++ [row] := by
    obtain ⟨own, req, pre, post, hown, _, hentries⟩ := done.log
    rw [hworld] at hown
    have hown : ((⟨e.pre, before⟩ : LedgerWorld).push e).own e.tid = _ := hown
    rw [World.own_push_self _ rfl] at hown
    have hevent := List.singleton_inj.mp (List.append_inj' hown rfl).2
    have hpre : e.pre = pre := congrArg Event.pre hevent
    have hpost : e.post = post := congrArg Event.post hevent
    rw [hpre, hpost]
    exact hentries
  obtain ⟨hpre, hpost⟩ := log_inv hd e (last_mem hworld)
  obtain ⟨ch, hexec⟩ := event_exec hd (last_mem hworld)
  obtain ⟨o, hid, ho, hjournal⟩ := (commit_journal hexec hpre hpost).2 row hentries
  refine ⟨now, o, ⟨posted.valid, hvalues, ?_, hid, ?_⟩, hjournal⟩
  · have index := (List.pairwise_append.mp hpost.index).1
    rw [hentries, List.pairwise_append] at index
    intro x hx
    exact index.2.2 x hx row List.mem_cons_self
  · have hstore : d.world.store = e.post := congrArg World.store hworld
    obtain ⟨u, q, hasked', hminted, hpayload⟩ := outbox_request hd (hstore ▸ ho)
    rw [hid] at hminted hpayload
    obtain ⟨_, rfl⟩ := same_request hd posted.minted hminted hasked hasked'
    exact hpayload

/-- **A posting is answered** as the journal answers it. -/
theorem posting_served (hd : LedgerRun v (start clock) ls d)
    (hworld : d.world = ⟨e.post, before ++ [e]⟩) {r : Except LedgerError PostEntryResult}
    (hr : d.returned e.tid (.post_entry p) (r.map .posted)) :
    Journal.Serves v e.pre.journal (.post_entry p) (r.map .posted) e.post.journal := by
  obtain ⟨r', heq, hout⟩ := returned_answer hd hr
  obtain rfl := posted_inj heq
  obtain ⟨r', heq, hcloses⟩ := hd.answer (serve_last v) hr
  obtain rfl := posted_inj heq
  have hconcludes := concluded hd hr
  have hasked := asked_of_returned hr
  have he := last_mem hworld
  obtain ⟨hpre, hpost⟩ := log_inv hd e he
  obtain ⟨ch, hexec⟩ := event_exec hd he
  have hstore : d.world.store = e.post := congrArg World.store hworld
  -- a quiet call has only read, and what it has read is there
  have quiet : Quiet e.tid d.world → e.post.entries = e.pre.entries ∧
      e.post.journal = e.pre.journal := by
    intro hquiet
    have hsame := hquiet e (World.mem_own.mpr ⟨he, rfl⟩)
    exact ⟨hsame, (commit_journal hexec hpre hpost).1 hsame⟩
  have read : Quiet e.tid d.world → ∀ {row : ExistingRow},
      did (.select_by_key p.idempotency_key) (some (some row)) ∈ history e.tid d.world.log →
        ∃ x ∈ e.pre.entries, v.db.same x.idempotency_key p.idempotency_key ∧
          row = ⟨x.id, x.payload_hash, x.created_at⟩ := by
    intro hquiet row hread
    obtain ⟨x, hx, hkey, hrow⟩ := read_by_key hd hread
    rw [hstore, (quiet hquiet).1] at hx
    exact ⟨x, hx, hkey, hrow⟩
  cases r with
  | ok r =>
    obtain ⟨row, hid, hout⟩ := hout
    obtain ⟨valid, hconcludes⟩ := hconcludes
    cases hidem : r.was_idempotent with
    | true =>
      rw [if_pos hidem] at hout hconcludes
      obtain ⟨found, hread, hfound, hhash, hcreated⟩ := hconcludes
      obtain ⟨x, hx, hkey, rfl⟩ := read hout.1 hread
      obtain ⟨entry_id, was_idempotent, created_at⟩ := r
      obtain rfl := hfound
      obtain rfl := hidem
      obtain rfl := hcreated
      rw [(quiet hout.1).2]
      exact .replayed valid hx hkey hhash
    | false =>
      rw [if_neg (Bool.eq_false_iff.mp hidem)] at hout
      obtain ⟨x, hx, _, hxid, hcreated⟩ := first_entry hd hr hidem
      have inv : Inv v.db d.world.store := (service_sound hd).inv
      obtain rfl := inv.unique hx hout.mem (.inl (hxid.trans hid.symm))
      obtain ⟨now, o, books, hjournal⟩ := committed_books hd hworld hout hasked
      have hnow : r.created_at.bind = now.bind :=
        hcreated.symm.trans (EntryInsert.row_created_at books.values)
      obtain ⟨entry_id, was_idempotent, created_at⟩ := r
      obtain rfl := hidem
      obtain rfl : x.id = entry_id := hid
      rw [hjournal]
      exact .posted ⟨books.valid, (row_of_bind hnow).trans books.values, books.fresh, books.entry,
        books.payload⟩
  | error err =>
    rcases hout with hquiet | ⟨row, done⟩
    · rw [(quiet hquiet).2]
      match err, hconcludes with
      | .InvalidArgument _, hinvalid => exact .refused hinvalid
      | .IdempotencyMismatch, ⟨valid, row, hash, hread, hhash, hne⟩ =>
        obtain ⟨x, hx, hkey, rfl⟩ := read hquiet hread
        refine .mismatch valid hx hkey ?_
        intro hsame
        exact hne (Option.some.inj (hhash.symm.trans hsame))
      | .Database .database, ⟨valid, _⟩ => exact .failed valid
      | .Database .row_not_found, ⟨_, hread⟩ => exact (duplicate_found hd hread).elim
      | .Database .column_decode, ⟨_, row, hread, hnull⟩ =>
        obtain ⟨x, hx, _, rfl⟩ := read_by_key hd hread
        obtain ⟨_, _, posted⟩ := entry_request hd hx
        exact absurd (posted.row_of.hash.symm.trans hnull) (Option.some_ne_none _)
    · obtain ⟨now, o, books, hjournal⟩ := committed_books hd hworld done hasked
      obtain ⟨own, req, pre, post, hown, _, _⟩ := done.log
      have hcommit : did .commit none ∈ history e.tid d.world.log := by
        refine List.mem_map.mpr ⟨⟨e.tid, req, .sql .commit, pre, none, post⟩, ?_, rfl⟩
        show _ ∈ d.world.own e.tid
        rw [hown]
        exact List.mem_append_right _ List.mem_cons_self
      obtain rfl := hcloses ⟨_, hcommit, rfl⟩
      rw [hjournal]
      exact .unacknowledged books

/-- **A reading is answered** as the journal answers it: the SELECT is its only operation. -/
theorem reading_served (hd : LedgerRun v (start clock) ls d)
    (hworld : d.world = ⟨e.post, before ++ [e]⟩) {q : Sql} {f : q.Res → Async Response}
    {r : Except LedgerError Response} (hreplies : Replies f (history e.tid d.world.log) r)
    {a : q.Res} (hrun : q.run v.db e.tid e.pre = some (some a, e.pre)) :
    e.post = e.pre ∧ (r = .error (.Database .database) ∨ (f a).result? = some r) := by
  obtain ⟨x, hhistory, hanswer⟩ := hreplies
  have he := last_mem hworld
  have hdid : e.did = did q x := by
    have hmem : e.did ∈ history e.tid d.world.log := mem_history.mpr ⟨e, he, rfl, rfl⟩
    rw [hhistory] at hmem
    exact List.mem_singleton.mp hmem
  obtain ⟨_, _, _, hexec⟩ := hd.did he hdid
  obtain ⟨hpost, rfl | rfl⟩ := exec_select hrun hexec
  · exact ⟨hpost, .inl (Option.some.inj hanswer).symm⟩
  · exact ⟨hpost, .inr hanswer⟩

/-- Every returned call of a request has its `Journal.Serves`. -/
theorem request_served (hd : LedgerRun v (start clock) ls d)
    (hworld : d.world = ⟨e.post, before ++ [e]⟩) {req : Request} {r : Except LedgerError Response}
    (hr : d.returned e.tid req r) : Journal.Serves v e.pre.journal req r e.post.journal := by
  have hclosed := hd.answer (serve_last v) hr
  have hsome : history e.tid d.world.log ≠ [] := by
    intro hnil
    exact no_event hnil (last_mem hworld) rfl
  cases req with
  | post_entry p =>
    obtain ⟨r', rfl, _⟩ := hclosed
    exact posting_served hd hworld hr
  | get_balance account_id currency =>
    obtain ⟨supported, hreplies⟩ := hclosed.resolve_left hsome
    obtain ⟨hpost, rfl | hanswer⟩ := reading_served hd hworld hreplies rfl
    · rw [hpost]
      exact .failed supported
    · cases hanswer
      rw [hpost]
      exact .balance supported
  | get_statement f cursor limit =>
    obtain ⟨place, hplace, hpos, hle, hreplies⟩ := hclosed.resolve_left hsome
    have accepted : (Request.get_statement f cursor limit).Accepted := ⟨hpos, hle, place, hplace⟩
    obtain ⟨hpost, rfl | hanswer⟩ := reading_served hd hworld hreplies rfl
    · rw [hpost]
      exact .failed accepted
    · rw [hpost]
      unfold statement_response at hanswer
      split at hanswer
      · next page hpage =>
        cases hanswer
        exact .statement accepted hplace hpage
      · next hpage =>
        cases hanswer
        exact .undecodable accepted hplace hpage

/-- **The service follows the rule**: a call takes effect with its last operation. -/
theorem serve_takes_effect (v : Env) (clock : Nat) :
    LastTakesEffect (machine v.db) (serve v) .all { clock } (Journal.Serves v) Store.journal where
  arrives _ hres := refused_at_once hres _
  returns hd hworld hr := request_served hd hworld hr
  goes_on := by
    intro ls d before e hd hworld hreturns
    have he := last_mem hworld
    obtain ⟨ch, hexec⟩ := event_exec hd he
    refine exec_journal ?_ hexec
    intro hop
    obtain ⟨r, hr⟩ := commit_ends hd he hop
    exact hreturns _ _ hr
  outside henv := outside_journal henv

end Runs

/-- **The ledger service is linearizable**: whatever calls are interleaved, with whatever faults,
what they have been answered is what the journal answers them one after another, and the tables are
what the journal is then. The sequence of a later configuration begins with that of an earlier one,
so that a call that had returned before another was made stands before it. -/
theorem service_linearizable (v : Env) (clock : Nat) (ls ms : List LedgerLabel) (c d : LedgerConf)
    (hc : LedgerRun v (start clock) ls c) (hd : LedgerRun v c ms d) :
    ∃ h h', Linearizes (Journal.Serves v) ⟨[], []⟩ Store.journal h c ∧
      Linearizes (Journal.Serves v) ⟨[], []⟩ Store.journal (h ++ h') d ∧
        ∀ x ∈ h', ∀ req r, ¬ c.returned x.tid req r := by
  have rule := serve_takes_effect v clock
  have hstart : Linearizes (Journal.Serves v) ⟨[], []⟩ Store.journal [] (start clock) :=
    linearizes_init (Journal.Serves v) Store.journal { clock }
  obtain ⟨h, hlin⟩ := linearized rule (.nil _) hc hstart
  obtain ⟨h', hlin'⟩ := linearized rule hc hd hlin
  exact ⟨[] ++ h, h', hlin, hlin', fun x hx => hlin.later hlin' hx⟩

/-- Of two calls that race for one key, the one that commits stands first. -/
theorem race_linearizable :
    ∃ h, Linearizes (Journal.Serves sample) ⟨[], []⟩ Store.journal h raced ∧
      ⟨0, .post_entry (payment "pay-1"),
          .ok (.posted ⟨.low 10, false, ⟨1700000000000000000⟩⟩)⟩ ∈ h ∧
        ⟨1, .post_entry (payment "PAY-1 "),
          .ok (.posted ⟨.low 10, true, ⟨1700000000000000000⟩⟩)⟩ ∈ h := by
  have run : LedgerRun sample (start 0) race raced := run_replayed (by decide +kernel)
  obtain ⟨h, _, hlin, _, _⟩ := service_linearizable sample 0 race [] raced raced run (.nil _)
  refine ⟨h, hlin, (hlin.answered _ _ _).mpr ?_, (hlin.answered _ _ _).mpr ?_⟩
  · exact returned_of_result? rfl (by decide +kernel)
  · exact returned_of_result? rfl (by decide +kernel)

end Kova.Ledger

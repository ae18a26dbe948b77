import Kova.Conc.RelyGuarantee
import Kova.Ledger.Service
import Kova.Ledger.StoreLaws

/-!
# Posting among other calls

`post_entry` walked once, at every await of which the other calls may do what `Keeps` leaves
them: `post_entry_safe`. What a call knows about itself between two awaits is a `Stage`: its
own operations so far changed no committed entry, its open transaction holds exactly what it
inserted, or has been ended by the server, and its UUIDs are its own.

- `Committed`: the call's last operation was the COMMIT of one entry with the request's values.
- `Outcome`: what every result of `post_entry` says about the database.
-/

namespace Kova.Ledger

open Conc

variable {v : Env} {t : Nat}

/-! ## Terms -/

/-- The invariant of the database; a call relies on the others to leave its transaction and the
committed entries alone, and guarantees the same. -/
def terms (db : Engine) : Terms Store Request Op Op.Res where
  inv w := Inv db w.store
  rely t w w' := Others t w w' ∧ Keeps t w.store w'.store
  guar t w w' := (∃ e, e.tid = t ∧ w' = w.push e) ∧ ∀ u, u ≠ t → Keeps u w.store w'.store

theorem protocol (db : Engine) : Protocol (machine db) (terms db) where
  refl u w := ⟨.refl u w, .refl u w.store⟩
  trans u w₁ w₂ w₃ h h' := ⟨h.1.trans h'.1, h.2.trans h'.2⟩
  other u u' w w' hne _ _ h := by
    obtain ⟨⟨e, rfl, rfl⟩, keeps⟩ := h
    exact ⟨.push hne, keeps u' hne.symm⟩
  env e w s hinv he := ⟨hinv.outside he, fun u => ⟨.moved w s, outside_keeps he u⟩⟩

theorem guar_push {ch : Choice} {w : LedgerWorld} {req : Request} {op : Op} {r : op.Res} {s : Store}
    {db : Engine} (h : exec db t ch w.store op = some (r, s)) :
    (terms db).guar t w (w.push ⟨t, req, op, w.store, r, s⟩) :=
  ⟨⟨_, rfl, rfl⟩, fun _ hu => exec_keeps hu h⟩

/-! ## What a call knows about itself -/

/-- None of the call's operations changed a committed entry. -/
def Quiet (t : Nat) (w : LedgerWorld) : Prop := ∀ e ∈ w.own t, e.post.entries = e.pre.entries

theorem Quiet.rely {db : Engine} {w w' : LedgerWorld} (h : Quiet t w)
    (hr : (terms db).rely t w w') : Quiet t w' := by
  intro e he
  rw [hr.1.own] at he
  exact h e he

theorem Quiet.push {w : LedgerWorld} (h : Quiet t w) {req : Request} {op : Op} {r : op.Res}
    {s : Store} (hs : s.entries = w.store.entries) :
    Quiet t (w.push ⟨t, req, op, w.store, r, s⟩) := by
  intro e he
  rw [World.own_push_self (t := t) w rfl] at he
  rcases List.mem_append.mp he with he | he
  · exact h e he
  · obtain rfl := List.mem_singleton.mp he
    exact hs

/-- The stage of a posting between two awaits: `tx` is what its open transaction holds, `none`
when it has none; the server may have ended it. -/
structure Stage (t : Nat) (ids : List Uuid) (tx : Option (List EntryRow × List OutboxRow))
    (w : LedgerWorld) : Prop where
  quiet : Quiet t w
  tx : w.store.view t = tx ∨ w.store.view t = none
  minted : ∀ id ∈ ids, (t, id) ∈ w.store.minted

variable {ids : List Uuid} {tx : Option (List EntryRow × List OutboxRow)} {w : LedgerWorld}

theorem Stage.rely {db : Engine} {w' : LedgerWorld} (h : Stage t ids tx w)
    (hr : (terms db).rely t w w') : Stage t ids tx w' := by
  refine ⟨h.quiet.rely hr, ?_, fun id hid => hr.2.minted (h.minted id hid)⟩
  rcases hr.2.view with heq | hnone
  · rw [heq]
    exact h.tx
  · exact .inr hnone

/-- One more operation of the call that leaves the committed entries alone. -/
theorem Stage.push (h : Stage t ids tx w) {req : Request} {op : Op} {r : op.Res} {s : Store}
    {ids' : List Uuid} {tx' : Option (List EntryRow × List OutboxRow)}
    (hentries : s.entries = w.store.entries) (htx : s.view t = tx' ∨ s.view t = none)
    (hminted : ∀ id ∈ ids', (t, id) ∈ s.minted) :
    Stage t ids' tx' (w.push ⟨t, req, op, w.store, r, s⟩) :=
  ⟨h.quiet.push hentries, htx, hminted⟩

/-- The transaction is open as it was left, or nothing is pending at all. -/
theorem Stage.pending {db : Engine} (h : Stage t ids tx w) (hinv : Inv db w.store) :
    w.store.view t = tx ∨
      (t ∉ w.store.active ∧ w.store.pendingOf t = [] ∧ w.store.pendingOutboxOf t = []) := by
  by_cases ht : t ∈ w.store.active
  · rcases h.tx with heq | hnone
    · exact .inl heq
    · simp only [Store.view, if_pos ht] at hnone
      cases hnone
  · exact .inr ⟨ht, hinv.nothing_pending ht⟩

/-! ## The stages of a posting -/

theorem Store.view_eq_some {s : Store} {rows : List EntryRow} {outs : List OutboxRow}
    (h : s.view t = some (rows, outs)) : s.pendingOf t = rows ∧ s.pendingOutboxOf t = outs := by
  unfold Store.view at h
  split at h
  · cases h
    exact ⟨rfl, rfl⟩
  · cases h

/-- An open transaction holds what the stage says. -/
theorem Stage.open {rows : List EntryRow} {outs : List OutboxRow}
    (h : Stage t ids (some (rows, outs)) w) (ht : t ∈ w.store.active) :
    w.store.pendingOf t = rows ∧ w.store.pendingOutboxOf t = outs := by
  rcases h.tx with heq | hnone
  · exact Store.view_eq_some heq
  · simp only [Store.view, if_pos ht, reduceCtorEq] at hnone

section Stages

variable {db : Engine} {ch : Choice} {s : Store} (req : Request)

/-- A fresh UUID is the call's own. -/
theorem Stage.now_v7 {r : Uuid} (h : Stage t ids tx w)
    (hexec : exec db t ch w.store .now_v7 = some (r, s)) :
    Stage t (r :: ids) tx (w.push ⟨t, req, .now_v7, w.store, r, s⟩) := by
  obtain ⟨_, rfl⟩ := exec_now_v7 hexec
  refine h.push rfl h.tx fun id hid => ?_
  rcases List.mem_cons.mp hid with rfl | hid
  · exact List.mem_cons_self
  · exact List.mem_cons_of_mem _ (h.minted id hid)

theorem Stage.utc_now {r : DateTime} (h : Stage t ids tx w)
    (hexec : exec db t ch w.store .utc_now = some (r, s)) :
    Stage t ids tx (w.push ⟨t, req, .utc_now, w.store, r, s⟩) ∧ 0 ≤ r.nanos := by
  obtain ⟨rfl, rfl⟩ := exec_utc_now hexec
  exact ⟨h.push rfl h.tx h.minted, Int.natCast_nonneg _⟩

/-- A transaction begun is empty. -/
theorem Stage.begin {r : Unit} (h : Stage t ids none w) (hinv : Inv db w.store)
    (hexec : exec db t ch w.store (.sql .begin) = some (some r, s)) :
    Stage t ids (some ([], [])) (w.push ⟨t, req, .sql .begin, w.store, some r, s⟩) := by
  rcases exec_sql hexec with ⟨hr, _⟩ | ⟨_, hrun, _⟩
  · cases hr
  · obtain ⟨ht, rfl⟩ := run_begin hrun
    exact h.push rfl (.inl (hinv.begin ht).2) h.minted

/-- The entry inserted is what the transaction holds. -/
theorem Stage.insert_entry {values : EntryInsert} (h : Stage t ids (some ([], [])) w)
    (hexec : exec db t ch w.store (.sql (.insert_entry values)) = some (some .inserted, s)) :
    ∃ row, values.row db = some row ∧ Stage t ids (some ([row], []))
      (w.push ⟨t, req, .sql (.insert_entry values), w.store, some .inserted, s⟩) := by
  rcases exec_sql hexec with ⟨hr, _⟩ | ⟨r', hrun, hr⟩
  · cases hr
  · rcases run_insert_entry hrun with ⟨rfl, _⟩ | ⟨rfl, _⟩ | ⟨row, hrow, ht, _, _, rfl⟩
    · rcases hr with hr | hr <;> cases hr
    · rcases hr with hr | hr <;> cases hr
    · obtain ⟨hrows, houts⟩ := h.open ht
      refine ⟨row, hrow, h.push rfl (.inl ?_) h.minted⟩
      simp only [Store.view, if_pos ht]
      simp only [Store.pendingOf, Store.pendingOutboxOf] at hrows houts
      simp [Store.pendingOf, Store.pendingOutboxOf, List.filter_append, List.map_append, hrows,
        houts]

/-- So is its outbox row. -/
theorem Stage.insert_outbox {r : Unit} {id entry_id : Uuid} {payload : List (String × String)}
    {rows : List EntryRow} (h : Stage t ids (some (rows, [])) w)
    (hexec : exec db t ch w.store (.sql (.insert_outbox id entry_id payload)) = some (some r, s)) :
    ∃ out : OutboxRow, out.entry_id = entry_id ∧ Stage t ids (some (rows, [out]))
      (w.push ⟨t, req, .sql (.insert_outbox id entry_id payload), w.store, some r, s⟩) := by
  rcases exec_sql hexec with ⟨hr, _⟩ | ⟨r', hrun, hr⟩
  · cases hr
  · rcases run_insert_outbox hrun with ⟨rfl, _⟩ | ⟨out, ht, ⟨_, hid, _⟩, rfl⟩
    · rcases hr with hr | hr <;> cases hr
    · obtain ⟨hrows, houts⟩ := h.open ht
      refine ⟨out, hid, h.push rfl (.inl ?_) h.minted⟩
      simp only [Store.view, if_pos ht]
      simp only [Store.pendingOf, Store.pendingOutboxOf] at hrows houts
      simp [Store.pendingOf, Store.pendingOutboxOf, List.filter_append, List.map_append, hrows,
        houts]

end Stages

/-- COMMIT: the transaction's entries join the committed ones, or nothing happened. -/
theorem exec_commit {db : Engine} {ch : Choice} {s s' : Store} {r : Option Unit}
    {rows : List EntryRow} {outs : List OutboxRow}
    (hview : s.view t = some (rows, outs) ∨ s.view t = none)
    (h : exec db t ch s (.sql .commit) = some (r, s')) :
    (r = none ∧ s' = s) ∨ (s'.entries = s.entries ++ rows ∧ s'.minted = s.minted) := by
  rcases exec_sql h with ⟨hr, hs⟩ | ⟨r', hrun, hr⟩
  · exact .inl ⟨hr, hs⟩
  · rcases run_commit hrun with ⟨ht, rfl⟩ | ⟨rfl, hs⟩
    · rcases hview with heq | hnone
      · exact .inr ⟨congrArg (s.entries ++ ·) (Store.view_eq_some heq).1, rfl⟩
      · simp only [Store.view, if_pos ht, reduceCtorEq] at hnone
    · exact .inl ⟨hr.elim id id, hs⟩

/-! ## One await -/

section Await

variable {db : Engine} {req : Request} {α : Type}
  {Q : Except LedgerError α → LedgerWorld → Prop}

/-- **One await**: an assertion that the others leave alone holds when the operation executes. -/
theorem safe_step {A : LedgerWorld → Prop}
    (stable : ∀ {w w' : LedgerWorld}, A w → (terms db).rely t w w' → A w') (h : A w)
    {op : Op} {next : op.Res → Async α}
    (hinsert : ∀ v, op = .sql (.insert_entry v) → 0 ≤ v.created_at.nanos)
    (hcommit : ∀ w', A w' → Inv db w'.store → op = .sql .commit → w'.store.complete t)
    (step : ∀ w', A w' → Inv db w'.store → ∀ ch r s, exec db t ch w'.store op = some (r, s) →
      Safe (machine db) .all (terms db) t req Q (next r) (w'.push ⟨t, req, op, w'.store, r, s⟩)) :
    Safe (machine db) .all (terms db) t req Q (.await op next) w := by
  apply safe_await
  intro w' hr hinv ch _ r s hexec
  have hA := stable h hr
  exact ⟨hinv.exec hinsert (hcommit w' hA hinv) hexec, guar_push hexec,
    step w' hA hinv ch r s hexec⟩

/-- Raising leaves a quiet call quiet. -/
theorem safe_raise_quiet {e : LedgerError} (h : Quiet t w)
    (hQ : ∀ w', Quiet t w' → Q (.error e) w') :
    Safe (machine db) .all (terms db) t req Q (.raise e) w :=
  safe_raise fun w' hr _ => hQ w' (h.rely hr)

/-- A statement whose failure ends the call, neither INSERT nor COMMIT of an entry: only its
success is left. -/
theorem safe_sql {A : LedgerWorld → Prop}
    (stable : ∀ {w w' : LedgerWorld}, A w → (terms db).rely t w w' → A w') (h : A w)
    (quiet : ∀ w', A w' → Quiet t w') {q : Sql} {f : q.Res → Async α}
    (hcommit : q ≠ .commit) (hinsert : ∀ v, q ≠ .insert_entry v)
    (hQ : ∀ e w', Quiet t w' → Q (.error e) w')
    (step : ∀ w', A w' → Inv db w'.store → ∀ ch r s,
      exec db t ch w'.store (.sql q) = some (some r, s) → s.entries = w'.store.entries →
        Safe (machine db) .all (terms db) t req Q (f r)
          (w'.push ⟨t, req, .sql q, w'.store, some r, s⟩)) :
    Safe (machine db) .all (terms db) t req Q (sql q >>= f) w := by
  refine safe_step stable h (fun v hv => absurd (Op.sql.inj hv) (hinsert v))
    (fun _ _ _ hop => absurd (Op.sql.inj hop) hcommit) fun w' hA hinv ch r s hexec => ?_
  have hentries := exec_entries (fun hop => hcommit (Op.sql.inj hop)) hexec
  cases r with
  | some r => exact step w' hA hinv ch r s hexec hentries
  | none => exact safe_raise_quiet ((quiet w' hA).push hentries) (hQ _)

end Await

/-! ## Posting -/

/-- The guards pass, or the request is refused. -/
theorem validate_cases (p : PostEntryParams) :
    (validate p = .ret () ∧ p.amount.le_zero = false ∧
      p.debit_account_id ≠ p.credit_account_id ∧ p.currency ∈ SUPPORTED_CURRENCIES) ∨
    ∃ message, validate p = .raise (.InvalidArgument message) := by
  unfold validate
  by_cases ha : p.amount.le_zero
  · exact .inr ⟨_, by simp [ha]; rfl⟩
  by_cases hd : p.debit_account_id = p.credit_account_id
  · exact .inr ⟨_, by simp [ha, hd]; rfl⟩
  by_cases hc : p.currency ∈ SUPPORTED_CURRENCIES
  · exact .inl ⟨by simp [ha, hd, hc], by simpa using ha, hd, hc⟩
  · exact .inr ⟨_, by simp [ha, hd, hc]; rfl⟩

/-- The last operation of call `t` was the COMMIT of one entry with the values of its request,
and no earlier one changed a committed entry. `reply` is what the call was told. -/
structure Committed (v : Env) (p : PostEntryParams) (t : Nat) (reply : Option Unit)
    (row : EntryRow) (w : LedgerWorld) : Prop where
  mem : row ∈ w.store.entries
  supported : p.currency ∈ SUPPORTED_CURRENCIES
  values : ∃ created_at, (p.values v.sha256_hex row.id created_at).row v.db = some row
  minted : (t, row.id) ∈ w.store.minted
  log : ∃ before req pre post,
    w.own t = before ++ [⟨t, req, .sql .commit, pre, reply, post⟩] ∧
      (∀ e ∈ before, e.post.entries = e.pre.entries) ∧ post.entries = pre.entries ++ [row]

/-- The entry that a duplicate was answered with. -/
structure Replayed (v : Env) (p : PostEntryParams) (row : EntryRow) (w : LedgerWorld) : Prop where
  mem : row ∈ w.store.entries
  key : v.db.same row.idempotency_key p.idempotency_key
  hash : row.payload_hash = some (p.payload_hash v.sha256_hex)

/-- What a result of `post_entry` says about the database. A failed call left the committed
entries alone, unless its COMMIT took effect and only the reply was lost. -/
def Outcome (v : Env) (p : PostEntryParams) (t : Nat) :
    Except LedgerError PostEntryResult → LedgerWorld → Prop
  | .ok r, w =>
    ∃ row, row.id = r.entry_id ∧
      if r.was_idempotent then Quiet t w ∧ Replayed v p row w
      else Committed v p t (some ()) row w
  | .error _, w => Quiet t w ∨ ∃ row, Committed v p t none row w

theorem Committed.rely {p : PostEntryParams} {reply : Option Unit} {row : EntryRow}
    {w' : LedgerWorld} (h : Committed v p t reply row w) (hr : (terms v.db).rely t w w') :
    Committed v p t reply row w' :=
  ⟨hr.2.entries.subset h.mem, h.supported, h.values, hr.2.minted h.minted, hr.1.own.symm ▸ h.log⟩

theorem Replayed.rely {p : PostEntryParams} {row : EntryRow} {w' : LedgerWorld}
    (h : Replayed v p row w) (hr : (terms v.db).rely t w w') : Replayed v p row w' :=
  ⟨hr.2.entries.subset h.mem, h.key, h.hash⟩

/-- What a call has become holds on while the others move. -/
theorem Outcome.rely {p : PostEntryParams} {r : Except LedgerError PostEntryResult}
    {w' : LedgerWorld} (h : Outcome v p t r w) (hr : (terms v.db).rely t w w') :
    Outcome v p t r w' := by
  cases r with
  | ok r =>
    obtain ⟨row, hid, h⟩ := h
    refine ⟨row, hid, ?_⟩
    split
    · next hidem =>
      rw [if_pos hidem] at h
      exact ⟨h.1.rely hr, h.2.rely hr⟩
    · next hidem =>
      rw [if_neg hidem] at h
      exact h.rely hr
  | error e =>
    rcases h with hq | ⟨row, hrow⟩
    · exact .inl (hq.rely hr)
    · exact .inr ⟨row, hrow.rely hr⟩

/-- What a stored row has from the request. -/
structure RowOf (v : Env) (p : PostEntryParams) (row : EntryRow) : Prop where
  debit : row.debit_account_id = p.debit_account_id
  credit : row.credit_account_id = p.credit_account_id
  amount : Dec19_4.ofDecimal p.amount = some row.amount
  currency : v.db.same p.currency row.currency.code
  key : v.db.same p.idempotency_key row.idempotency_key
  hash : row.payload_hash = some (p.payload_hash v.sha256_hex)
  positive : 0 < row.amount.units
  sides : row.debit_account_id ≠ row.credit_account_id

theorem same_of_named {db : Engine} {s : String} {c : Currency}
    (h : Currency.named db.toCollation s = some c) : db.same s c.code := by
  have := List.find?_some h
  simpa using this

theorem values_row {p : PostEntryParams} {row : EntryRow} {id : Uuid} {created_at : DateTime}
    (h : (p.values v.sha256_hex id created_at).row v.db = some row) :
    row.id = id ∧ RowOf v p row := by
  unfold EntryInsert.row at h
  split at h
  · next amount currency key metadata hamount hcurrency hkey _ =>
    split at h
    · next hcheck =>
      cases h
      exact ⟨rfl, rfl, rfl, hamount, same_of_named hcurrency, Collation.same_varchar _ hkey, rfl,
        hcheck.1, hcheck.2.1⟩
    · cases h
  · cases h

section Post

variable {p : PostEntryParams} {req : Request}

theorem outcome_of_quiet (e : LedgerError) (w' : LedgerWorld) (h : Quiet t w') :
    Outcome v p t (.error e) w' := .inl h

/-- What `fetch_one` by key returns is a committed entry with that key. -/
theorem exec_select_by_key {db : Engine} {ch : Choice} {s s' : Store} {key : String}
    {row : ExistingRow} (h : exec db t ch s (.sql (.select_by_key key)) = some (some (some row), s')) :
    ∃ r ∈ s.entries, db.same r.idempotency_key key ∧ row = ⟨r.id, r.payload_hash, r.created_at⟩ := by
  rcases exec_sql h with ⟨hr, _⟩ | ⟨r', hrun, hr⟩
  · cases hr
  · cases hrun
    rcases hr with hr | hr
    · obtain ⟨r, hfind, heq⟩ := Option.map_eq_some_iff.mp (Option.some.inj hr).symm
      exact ⟨r, List.mem_of_find?_eq_some hfind, by simpa using List.find?_some hfind, heq.symm⟩
    · cases hr

/-- The answer to a duplicate: the row read, if its digest is the request's. -/
theorem answer_duplicate_safe {row : Option ExistingRow} (h : Quiet t w)
    (hrow : ∀ x, row = some x → ∃ r ∈ w.store.entries,
      v.db.same r.idempotency_key p.idempotency_key ∧ x = ⟨r.id, r.payload_hash, r.created_at⟩) :
    Safe (machine v.db) .all (terms v.db) t req (Outcome v p t)
      (answer_duplicate (p.payload_hash v.sha256_hex) row) w := by
  fun_cases answer_duplicate with
  | case1 => exact safe_raise_quiet h (outcome_of_quiet _)
  | case2 row hnull => exact safe_raise_quiet h (outcome_of_quiet _)
  | case3 row existing_hash hhash hne => exact safe_raise_quiet h (outcome_of_quiet _)
  | case4 row existing_hash hhash hsame =>
    obtain ⟨r, hmem, hkey, rfl⟩ := hrow row rfl
    refine safe_ret fun w' hr _ => ⟨r, rfl, ?_⟩
    have replayed : Replayed v p r w := ⟨hmem, hkey, hhash.trans (congrArg some (not_not.mp hsame))⟩
    rw [if_pos rfl]
    exact ⟨h.rely hr, replayed.rely hr⟩

/-- **The duplicate branch** answers with the committed entry that has the key, or fails. -/
theorem verify_duplicate_safe (h : Quiet t w) :
    Safe (machine v.db) .all (terms v.db) t req (Outcome v p t)
      (verify_duplicate v.sha256_hex p) w := by
  refine safe_step Quiet.rely h (fun _ hop => by cases hop) (fun _ _ _ hop => by cases hop)
    fun w₁ quiet₁ _ ch₁ r₁ s₁ hexec₁ => ?_
  have quiet₂ : Quiet t (w₁.push ⟨t, req, .sql .rollback, w₁.store, r₁, s₁⟩) :=
    quiet₁.push (exec_entries (by simp) hexec₁)
  refine safe_sql Quiet.rely quiet₂ (fun _ hq => hq) (by simp) (by simp) outcome_of_quiet
    fun w₃ quiet₃ _ ch₃ row s₃ hexec₃ hentries₃ => ?_
  apply answer_duplicate_safe (quiet₃.push hentries₃)
  rintro x rfl
  obtain ⟨r, hmem, hkey, hx⟩ := exec_select_by_key hexec₃
  exact ⟨r, hentries₃ ▸ hmem, hkey, hx⟩

/-- **The Ok arm**: from a transaction that holds the entry to its COMMIT. -/
theorem enqueue_and_commit_safe {row : EntryRow} {created_at : DateTime}
    (hsupported : p.currency ∈ SUPPORTED_CURRENCIES)
    (hvalues : (p.values v.sha256_hex row.id created_at).row v.db = some row)
    (h : Stage t [row.id] (some ([row], [])) w) :
    Safe (machine v.db) .all (terms v.db) t req (Outcome v p t)
      (enqueue_and_commit p row.id created_at) w := by
  -- the outbox row's own UUID
  refine safe_step Stage.rely h (fun _ hop => by cases hop) (fun _ _ _ hop => by cases hop)
    fun w₁ stage₁ _ ch₁ outbox_id s₁ hexec₁ => ?_
  have stage₂ := stage₁.now_v7 req hexec₁
  -- its INSERT
  refine safe_sql Stage.rely stage₂ (fun _ hs => hs.quiet) (by simp) (by simp) outcome_of_quiet
    fun w₃ stage₃ _ ch₃ _ s₃ hexec₃ hentries₃ => ?_
  obtain ⟨out, hout, stage₄⟩ := stage₃.insert_outbox req hexec₃
  -- COMMIT
  refine safe_step Stage.rely stage₄ (fun _ hop => by cases hop) (fun w₅ stage₅ hinv₅ _ => ?_)
    fun w₅ stage₅ _ ch₅ r s₅ hexec₅ => ?_
  · rcases stage₅.pending hinv₅ with hview | ⟨_, hrows, houts⟩
    · obtain ⟨hrows, houts⟩ := Store.view_eq_some hview
      rw [Store.complete, hrows, houts, List.map_singleton, List.map_singleton, hout]
    · rw [Store.complete, hrows, houts]
      rfl
  · rcases exec_commit stage₅.tx hexec₅ with ⟨rfl, rfl⟩ | ⟨hentries, hminted⟩
    · exact safe_raise_quiet (stage₅.quiet.push rfl) (outcome_of_quiet _)
    · have done : Committed v p t r row (w₅.push ⟨t, req, .sql .commit, w₅.store, r, s₅⟩) :=
        ⟨hentries ▸ List.mem_append_right _ (List.mem_singleton_self _), hsupported,
          ⟨created_at, hvalues⟩, hminted ▸ stage₅.minted _ (List.mem_cons_of_mem _ List.mem_cons_self),
          ⟨_, _, _, _, w₅.own_push_self rfl, stage₅.quiet, hentries⟩⟩
      cases r with
      | some _ => exact safe_ret fun w' hr _ => ⟨row, rfl, done.rely hr⟩
      | none => exact safe_raise fun w' hr _ => .inr ⟨row, done.rely hr⟩

/-- **`post_entry` among other calls**, from a call that has done nothing yet. -/
theorem post_entry_safe (h : Stage t [] none w) :
    Safe (machine v.db) .all (terms v.db) t req (Outcome v p t) (post_entry v.sha256_hex p) w := by
  unfold post_entry
  rcases validate_cases p with ⟨hvalid, -, -, hsupported⟩ | ⟨message, hrefused⟩
  case inr =>
    rw [hrefused]
    exact safe_raise_quiet h.quiet (outcome_of_quiet _)
  rw [hvalid]
  refine safe_step Stage.rely h (fun _ hop => by cases hop) (fun _ _ _ hop => by cases hop)
    fun w₁ stage₁ _ ch₁ entry_id s₁ hexec₁ => ?_
  have stage₂ := stage₁.now_v7 req hexec₁
  refine safe_step Stage.rely stage₂ (fun _ hop => by cases hop) (fun _ _ _ hop => by cases hop)
    fun w₃ stage₃ _ ch₃ created_at s₃ hexec₃ => ?_
  obtain ⟨stage₄, since_epoch⟩ := stage₃.utc_now req hexec₃
  refine safe_sql Stage.rely stage₄ (fun _ hs => hs.quiet) (by simp) (by simp) outcome_of_quiet
    fun w₅ stage₅ hinv₅ ch₅ _ s₅ hexec₅ _ => ?_
  have stage₆ := stage₅.begin req hinv₅ hexec₅
  refine safe_step Stage.rely stage₆ (fun values hop => ?_) (fun _ _ _ hop => by cases hop)
    fun w₇ stage₇ _ ch₇ result s₇ hexec₇ => ?_
  · cases hop
    exact since_epoch
  · have quiet₈ : Quiet t (w₇.push ⟨t, req, .sql (.insert_entry _), w₇.store, result, s₇⟩) :=
      stage₇.quiet.push (exec_entries (by simp) hexec₇)
    -- three ways for the INSERT to answer
    match result, hexec₇, quiet₈ with
    | some .inserted, hexec₇, _ =>
      obtain ⟨row, hvalues, stage₈⟩ := stage₇.insert_entry req hexec₇
      obtain ⟨rfl, -⟩ := values_row hvalues
      exact enqueue_and_commit_safe hsupported hvalues stage₈
    | some .unique_violation, _, quiet₈ => exact verify_duplicate_safe quiet₈
    | none, _, quiet₈ =>
      refine safe_step Quiet.rely quiet₈ (fun _ hop => by cases hop)
        (fun _ _ _ hop => by cases hop) fun w₉ quiet₉ _ ch₉ r₉ s₉ hexec₉ => ?_
      exact safe_raise_quiet (quiet₉.push (exec_entries (by simp) hexec₉)) (outcome_of_quiet _)

end Post

/-! ## Reading -/

/-- The answer is the one that the same program gets on the store of one moment by itself. -/
def AtOnce {α : Type} (db : Engine) (t : Nat) (p : Async α) (r : Except LedgerError α)
    (w : LedgerWorld) : Prop :=
  ∀ a, r = .ok a → ∃ e, w.own t = [e] ∧ e.post = e.pre ∧
    (machine db).alone t {} p e.pre = some (.ok a, e.pre)

/-- A program of one SELECT reads at once. -/
theorem read_safe {α : Type} {db : Engine} {req : Request} {q : Sql} {f : q.Res → Async α}
    (read : ∀ s, ∃ a, q.run db t s = some (some a, s)) (done : ∀ a, (f a).finished)
    (h : w.own t = []) :
    Safe (machine db) .all (terms db) t req (AtOnce db t (sql q >>= f)) (sql q >>= f) w := by
  apply safe_await
  intro w' hr hinv ch _ r s hexec
  obtain ⟨a, hrun⟩ := read w'.store
  have hs : s = w'.store ∧ (r = none ∨ r = some a) := by
    rcases exec_sql hexec with ⟨rfl, rfl⟩ | ⟨r', hrun', hr'⟩
    · exact ⟨rfl, .inl rfl⟩
    · rw [hrun] at hrun'
      cases hrun'
      exact ⟨rfl, hr'.symm⟩
  obtain ⟨rfl, hanswer⟩ := hs
  refine ⟨hinv, guar_push hexec, ?_⟩
  have own : (w'.push ⟨t, req, .sql q, w'.store, r, w'.store⟩).own t =
      [⟨t, req, .sql q, w'.store, r, w'.store⟩] := by
    rw [World.own_push_self (t := t) w' rfl, hr.1.own, h, List.nil_append]
  rcases hanswer with rfl | rfl
  · exact safe_raise fun _ _ _ => nofun
  · have alone : (machine db).alone t {} (sql q >>= f) w'.store =
        (machine db).alone t {} (f a) w'.store := by
      show ((exec db t {} w'.store (.sql q)).bind _) = _
      rw [show exec db t {} w'.store (.sql q) = some (some a, w'.store) from hrun]
      rfl
    have finished := done a
    show Safe (machine db) .all (terms db) t req _ (f a) _
    cases hf : f a with
    | ret b =>
      refine safe_ret fun w'' hr' _ b' hb => ?_
      cases hb
      exact ⟨_, hr'.1.own.trans own, rfl, alone.trans (by rw [hf]; rfl)⟩
    | raise e => exact safe_raise fun _ _ _ => nofun
    | await op next =>
      rw [hf] at finished
      cases finished

end Kova.Ledger

import Kova.Conc.History
import Kova.Ledger.ServiceLaws

/-!
# What a posting did

`post_entry` walked by the history of its call: what each of its statements carries, and what its
result says it has executed (`serve_traced`). Over a run, a statement of a posting is one of a
request to post (`carried`), and so is what the request was answered (`concluded`).
-/

set_option autoImplicit false

namespace Kova.Ledger

open Conc

variable {v : Env}

abbrev LedgerDone := Done Op Op.Res

/-- One statement with its reply. -/
def did (q : Sql) (r : Option q.Res) : LedgerDone := ⟨.sql q, r⟩

/-- The identifier under which an operation inserts an outbox row. -/
def Op.enqueued : Op → Option Uuid
  | .sql (.insert_outbox id _ _) => some id
  | _ => none

/-- Nothing has been inserted so far. -/
def Unused (h : List LedgerDone) : Prop := ∀ x ∈ h, x.op.enqueued = none

theorem Unused.snoc {h : List LedgerDone} (unused : Unused h) {x : LedgerDone}
    (hx : x.op.enqueued = none) : Unused (h ++ [x]) :=
  List.forall_mem_append.mpr ⟨unused, List.forall_mem_singleton.mpr hx⟩

/-- The arguments pass the guards. -/
structure Validated (p : PostEntryParams) : Prop where
  amount : p.amount.le_zero = false
  sides : p.debit_account_id ≠ p.credit_account_id
  currency : p.currency ∈ SUPPORTED_CURRENCIES

/-- What a posting's statements carry, and what comes before them. -/
def carries (v : Env) (p : PostEntryParams) (h : List LedgerDone) : Op → Prop
  | .sql (.insert_entry values) => ∃ entry_id created_at, Validated p ∧
      values = p.values v.sha256_hex entry_id created_at ∧ ⟨.now_v7, entry_id⟩ ∈ h
  | .sql (.insert_outbox id entry_id payload_json) => ∃ created_at,
      payload_json = p.outbox_payload entry_id ∧ ⟨.now_v7, entry_id⟩ ∈ h ∧
        did (.insert_entry (p.values v.sha256_hex entry_id created_at)) (some .inserted) ∈ h ∧
          ⟨.now_v7, id⟩ ∈ h ∧ Unused h
  | .sql (.select_by_key key) => key = p.idempotency_key ∧ ∃ entry_id created_at,
      did (.insert_entry (p.values v.sha256_hex entry_id created_at)) (some .unique_violation) ∈ h
  | _ => True

/-- How a posting that passed the guards failed. -/
def fails (v : Env) (p : PostEntryParams) (h : List LedgerDone) : LedgerError → Prop
  | .IdempotencyMismatch => ∃ row hash,
      did (.select_by_key p.idempotency_key) (some (some row)) ∈ h ∧ row.payload_hash = some hash ∧
        hash ≠ p.payload_hash v.sha256_hex
  | .Database .database => ∃ q, did q none ∈ h
  | .Database .row_not_found => did (.select_by_key p.idempotency_key) (some none) ∈ h
  | .Database .column_decode => ∃ row,
      did (.select_by_key p.idempotency_key) (some (some row)) ∈ h ∧ row.payload_hash = none
  | _ => False

/-- What the result of a posting says about its call. -/
def concludes (v : Env) (p : PostEntryParams) (h : List LedgerDone) :
    Except LedgerError PostEntryResult → Prop
  | .ok r => Validated p ∧
      if r.was_idempotent then
        ∃ row, did (.select_by_key p.idempotency_key) (some (some row)) ∈ h ∧ row.id = r.entry_id ∧
          row.payload_hash = some (p.payload_hash v.sha256_hex) ∧
            r.created_at = .of_micros row.created_at
      else ⟨.now_v7, r.entry_id⟩ ∈ h ∧
        did (.insert_entry (p.values v.sha256_hex r.entry_id r.created_at)) (some .inserted) ∈ h
  | .error (.InvalidArgument _) => ¬ Validated p
  | .error e => Validated p ∧ fails v p h e

/-! ## Walking `post_entry` -/

section Walking

variable {p : PostEntryParams} {h : List LedgerDone}

/-- A statement whose failure is passed on. -/
theorem guarded_sql {α : Type} {G : List LedgerDone → Op → Prop}
    {Q : List LedgerDone → Except LedgerError α → Prop} {q : Sql} {f : q.Res → Async α}
    (hop : G h (.sql q)) (failed : Q (h ++ [did q none]) (.error (.Database .database)))
    (rest : ∀ r, Guarded G Q (f r) (h ++ [did q (some r)])) : Guarded G Q (sql q >>= f) h := by
  refine ⟨hop, ?_⟩
  intro r
  cases r with
  | none => exact failed
  | some r => exact rest r

/-- The failure of the last statement, passed on. -/
theorem concludes_failed (valid : Validated p) {q : Sql} :
    concludes v p (h ++ [did q none]) (.error (.Database .database)) :=
  ⟨valid, q, List.mem_append_right _ List.mem_cons_self⟩

theorem enqueue_and_commit_traced {entry_id : Uuid} {created_at : DateTime} (valid : Validated p)
    (minted : ⟨.now_v7, entry_id⟩ ∈ h)
    (inserted :
      did (.insert_entry (p.values v.sha256_hex entry_id created_at)) (some .inserted) ∈ h)
    (unused : Unused h) :
    Guarded (carries v p) (concludes v p) (enqueue_and_commit p entry_id created_at) h := by
  apply guarded_await trivial
  intro outbox_id
  apply guarded_sql
  · exact ⟨created_at, rfl, List.mem_append_left _ minted, List.mem_append_left _ inserted,
      List.mem_append_right _ List.mem_cons_self, unused.snoc rfl⟩
  · exact concludes_failed valid
  · intro _
    apply guarded_sql trivial (concludes_failed valid)
    intro _
    refine ⟨valid, ?_⟩
    rw [if_neg Bool.false_ne_true]
    exact ⟨by simp [minted], by simp [inserted]⟩

theorem answer_duplicate_traced (valid : Validated p) {row : Option ExistingRow}
    (read : did (.select_by_key p.idempotency_key) (some row) ∈ h) :
    Guarded (carries v p) (concludes v p)
      (answer_duplicate (p.payload_hash v.sha256_hex) row) h := by
  fun_cases answer_duplicate with
  | case1 => exact ⟨valid, read⟩
  | case2 row hnull => exact ⟨valid, row, read, hnull⟩
  | case3 row existing_hash hhash hne => exact ⟨valid, row, existing_hash, read, hhash, hne⟩
  | case4 row existing_hash hhash hsame =>
    refine ⟨valid, ?_⟩
    rw [if_pos rfl]
    exact ⟨row, read, rfl, hhash.trans (congrArg some (not_not.mp hsame)), rfl⟩

theorem verify_duplicate_traced {entry_id : Uuid} {created_at : DateTime} (valid : Validated p)
    (refused : did (.insert_entry (p.values v.sha256_hex entry_id created_at))
      (some .unique_violation) ∈ h) :
    Guarded (carries v p) (concludes v p) (verify_duplicate v.sha256_hex p) h := by
  apply guarded_await trivial
  intro _
  apply guarded_sql
  · exact ⟨rfl, entry_id, created_at, List.mem_append_left _ refused⟩
  · exact concludes_failed valid
  · intro row
    exact answer_duplicate_traced valid (List.mem_append_right _ List.mem_cons_self)

theorem validate_refused {message : String} (h : validate p = .raise (.InvalidArgument message)) :
    ¬ Validated p := by
  intro valid
  unfold validate at h
  simp [valid.amount, valid.sides, valid.currency] at h

theorem post_entry_traced (v : Env) (p : PostEntryParams) :
    Guarded (carries v p) (concludes v p) (post_entry v.sha256_hex p) [] := by
  unfold post_entry
  rcases validate_cases p with ⟨hvalid, amount, sides, currency⟩ | ⟨message, hvalid⟩
  · rw [hvalid]
    have valid : Validated p := ⟨amount, sides, currency⟩
    apply guarded_await trivial
    intro entry_id
    apply guarded_await trivial
    intro created_at
    apply guarded_sql trivial (concludes_failed valid)
    intro _
    refine guarded_await ⟨entry_id, created_at, valid, rfl, by simp⟩ ?_
    intro result
    match result with
    | some .inserted =>
      have before : Unused [⟨.now_v7, entry_id⟩, ⟨.utc_now, created_at⟩] := by
        simp [Unused, Op.enqueued]
      exact enqueue_and_commit_traced valid (by simp) (by simp [did])
        ((before.snoc rfl).snoc rfl)
    | some .unique_violation =>
      exact verify_duplicate_traced valid (List.mem_append_right _ List.mem_cons_self)
    | none =>
      apply guarded_await trivial
      intro _
      exact ⟨valid, _, List.mem_append_left _ (List.mem_append_right _ List.mem_cons_self)⟩
  · rw [hvalid]
    exact validate_refused hvalid

end Walking

/-! ## The service -/

/-- The statements of a posting. -/
def Op.posts : Op → Bool
  | .sql (.insert_entry _) | .sql (.insert_outbox ..) | .sql (.select_by_key _) => true
  | _ => false

def traces (v : Env) : Request → List LedgerDone → Op → Prop
  | .post_entry p, h, op => carries v p h op
  | _, _, op => op.posts = false

def traced (v : Env) : Request → List LedgerDone → Except LedgerError Response → Prop
  | .post_entry p, h, r => ∃ r', r = r'.map .posted ∧ concludes v p h r'
  | _, _, _ => True

/-- A reading is one SELECT, of neither table by key. -/
theorem reading_traced {q : Sql} {f : q.Res → Async Response} (hq : (Op.sql q).posts = false)
    (done : ∀ a, (f a).finished) (h : List LedgerDone) :
    Guarded (fun _ op => op.posts = false) (fun _ _ => True) (sql q >>= f) h := by
  apply guarded_sql hq trivial
  intro a
  have finished := done a
  cases hf : f a with
  | ret b => trivial
  | raise e => trivial
  | await op next =>
    rw [hf] at finished
    cases finished

/-- **Every call** carries what its request says, and concludes from what it has done. -/
theorem serve_traced (v : Env) (req : Request) :
    Guarded (traces v req) (traced v req) (serve v req) [] := by
  cases req with
  | post_entry p =>
    refine Guarded.bind ?_ ?_ (post_entry_traced v p)
    · intro h e hconcludes
      exact ⟨.error e, rfl, hconcludes⟩
    · intro h r hconcludes
      exact ⟨.ok r, rfl, hconcludes⟩
  | get_balance account_id currency =>
    rcases serve_get_balance (v := v) account_id currency with ⟨_, heq⟩ | ⟨_, heq⟩
    · rw [heq]
      trivial
    · rw [heq]
      exact reading_traced rfl (fun _ => rfl) []
  | get_statement f cursor limit =>
    rcases serve_get_statement (v := v) f cursor limit with ⟨e, heq⟩ | ⟨_, _, place, _, heq⟩
    · rw [heq]
      trivial
    · rw [heq]
      refine reading_traced rfl ?_ []
      intro rows
      unfold statement_response
      cases statement_page v.json_text limit.toNat rows <;> rfl

/-! ## Along a run -/

section Runs

variable {s : Store} {ls : List LedgerLabel} {d : LedgerConf}

abbrev LedgerEvent := Event Store Request Op Op.Res

/-- A statement of a posting is one of a request to post. -/
theorem carried (h : LedgerRun v (.init s) ls d) {before after : List LedgerEvent}
    {e : LedgerEvent} (split : d.world.log = before ++ e :: after) (hposts : e.op.posts = true) :
    ∃ p, e.req = .post_entry p ∧ carries v p (history e.tid before) e.op := by
  have hguard := h.guard (serve_traced v) split
  cases hreq : e.req with
  | post_entry p =>
    rw [hreq] at hguard
    exact ⟨p, rfl, hguard⟩
  | get_balance | get_statement =>
    rw [hreq] at hguard
    exact absurd hposts (Bool.eq_false_iff.mp hguard)

/-- What the result of a posting says. -/
theorem concluded (h : LedgerRun v (.init s) ls d) {t : Nat} {p : PostEntryParams}
    {r : Except LedgerError PostEntryResult} (hr : d.returned t (.post_entry p) (r.map .posted)) :
    concludes v p (history t d.world.log) r := by
  obtain ⟨r', heq, hconcludes⟩ := h.answer (serve_traced v) hr
  obtain rfl := posted_inj heq
  exact hconcludes

/-! ### The calls and their requests -/

/-- The request of a call. -/
def asked (c : LedgerConf) (t : Nat) (req : Request) : Prop :=
  ∃ call, c.pool[t]? = some call ∧ call.req = req

theorem asked_unique {c : LedgerConf} {t : Nat} {req req' : Request} (h : asked c t req)
    (h' : asked c t req') : req = req' := by
  obtain ⟨call, hcall, rfl⟩ := h
  obtain ⟨call', hcall', rfl⟩ := h'
  rw [hcall, Option.some.injEq] at hcall'
  rw [hcall']

theorem asked_of_returned {c : LedgerConf} {t : Nat} {req : Request}
    {r : Except LedgerError Response} (h : c.returned t req r) : asked c t req := by
  obtain ⟨call, hcall, hreq, _⟩ := h
  exact ⟨call, hcall, hreq⟩

theorem asked_of_event (h : LedgerRun v (.init s) ls d) {e : LedgerEvent}
    (he : e ∈ d.world.log) : asked d e.tid e.req :=
  (h.obeys (serve_traced v)).called e he

end Runs

end Kova.Ledger

import Kova.Ledger.PostingTrace

/-!
# The order of a posting's steps

`post_entry` walked for what comes before what: the clock is read once and before the INSERT that
carries its reading, the INSERT comes within the transaction that the call has begun, and nothing is
committed that has not been inserted (`post_entry_ordered`). Along a run the reading that an entry
carries is the one that the call announces (`read_once`).
-/

set_option autoImplicit false

namespace Kova.Ledger

open Conc

variable {v : Env} {p : PostEntryParams} {h : List LedgerDone}

/-- The transaction has not been ended by the call. -/
def Held (h : List LedgerDone) : Prop :=
  ∀ x ∈ h, x.op ≠ .sql .commit ∧ x.op ≠ .sql .rollback

/-- What comes before a step of a posting. -/
def ordered (v : Env) (p : PostEntryParams) (h : List LedgerDone) : Op → Prop
  | .utc_now => ∀ now, ⟨.utc_now, now⟩ ∉ h
  | .sql (.insert_entry values) => ∃ entry_id now, values = p.values v.sha256_hex entry_id now ∧
      ⟨.utc_now, now⟩ ∈ h ∧ did .begin (some ()) ∈ h ∧ Held h
  | .sql (.insert_outbox ..) | .sql .commit => ∃ values,
      did (.insert_entry values) (some .inserted) ∈ h
  | _ => True

/-- A new entry is announced with the reading of the clock. -/
def announces (h : List LedgerDone) : Except LedgerError PostEntryResult → Prop
  | .ok r => r.was_idempotent = false → ⟨.utc_now, r.created_at⟩ ∈ h
  | .error _ => True

/-! ## Walking -/

theorem enqueue_and_commit_ordered {entry_id : Uuid} {now : DateTime} {values : EntryInsert}
    (inserted : did (.insert_entry values) (some .inserted) ∈ h) (read : ⟨.utc_now, now⟩ ∈ h) :
    Guarded (ordered v p) announces (enqueue_and_commit p entry_id now) h := by
  apply guarded_await trivial
  intro outbox_id
  refine guarded_sql ⟨values, by simp [inserted]⟩ trivial ?_
  intro _
  refine guarded_sql ⟨values, by simp [inserted]⟩ trivial ?_
  intro _ _
  simp [read]

theorem verify_duplicate_ordered :
    Guarded (ordered v p) announces (verify_duplicate v.sha256_hex p) h := by
  apply guarded_await trivial
  intro _
  refine guarded_sql trivial trivial ?_
  intro row
  fun_cases answer_duplicate with
  | case1 => trivial
  | case2 row hnull => trivial
  | case3 row existing_hash hhash hne => trivial
  | case4 row existing_hash hhash hsame =>
    intro hnew
    cases hnew

theorem post_entry_ordered (v : Env) (p : PostEntryParams) :
    Guarded (ordered v p) announces (post_entry v.sha256_hex p) [] := by
  unfold post_entry
  rcases validate_cases p with ⟨hvalid, -, -, -⟩ | ⟨message, hvalid⟩
  · rw [hvalid]
    apply guarded_await trivial
    intro entry_id
    refine guarded_await (by simp [ordered]) ?_
    intro now
    refine guarded_sql trivial trivial ?_
    intro _
    refine guarded_await ⟨entry_id, now, rfl, by simp, ?_, by simp [Held, did]⟩ ?_
    · exact List.mem_append_right _ List.mem_cons_self
    intro result
    cases result with
    | none =>
      apply guarded_await trivial
      intro _
      trivial
    | some result =>
      cases result with
      | inserted =>
        exact enqueue_and_commit_ordered (List.mem_append_right _ List.mem_cons_self) (by simp)
      | unique_violation => exact verify_duplicate_ordered
  · rw [hvalid]
    trivial

/-! ## The service -/

def orders (v : Env) : Request → List LedgerDone → Op → Prop
  | .post_entry p, h, op => ordered v p h op
  | _, _, _ => True

def announced : Request → List LedgerDone → Except LedgerError Response → Prop
  | .post_entry _, h, r => ∃ r', r = r'.map .posted ∧ announces h r'
  | _, _, _ => True

theorem serve_ordered (v : Env) (req : Request) :
    Guarded (orders v req) (announced req) (serve v req) [] := by
  cases req with
  | post_entry p =>
    refine Guarded.bind ?_ ?_ (post_entry_ordered v p)
    · intro h e hannounces
      exact ⟨.error e, rfl, hannounces⟩
    · intro h r hannounces
      exact ⟨.ok r, rfl, hannounces⟩
  | get_balance | get_statement => exact guarded_any _ []

/-! ## Along a run -/

section Runs

variable {s : Store} {ls : List LedgerLabel} {d : LedgerConf} {t : Nat}

/-- The events of a call are for its request. -/
theorem asked_event (hd : LedgerRun v (.init s) ls d) {req : Request} (hasked : asked d t req)
    {e : LedgerEvent} (he : e ∈ d.world.log) (ht : e.tid = t) : e.req = req := by
  obtain ⟨call, hcall, hreq⟩ := (hd.obeys (serve_ordered v)).called e he
  exact asked_unique (ht ▸ ⟨call, hcall, hreq⟩) hasked

/-- Each step of a posting has what comes before it. -/
theorem ordered_at (hd : LedgerRun v (.init s) ls d) (hasked : asked d t (.post_entry p))
    {before after : List LedgerEvent} {e : LedgerEvent}
    (split : d.world.log = before ++ e :: after) (ht : e.tid = t) :
    ordered v p (history t before) e.op := by
  have hguard := hd.guard (serve_ordered v) split
  have he : e ∈ d.world.log := split ▸ List.mem_append_right _ List.mem_cons_self
  rw [asked_event hd hasked he ht, ht] at hguard
  exact hguard

/-- **A posting reads the clock once.** -/
theorem read_once (hd : LedgerRun v (.init s) ls d) (hasked : asked d t (.post_entry p))
    {now now' : DateTime} (hnow : ⟨.utc_now, now⟩ ∈ history t d.world.log)
    (hnow' : ⟨.utc_now, now'⟩ ∈ history t d.world.log) : now = now' := by
  have apart : ∀ {a b : LedgerEvent} {x y : DateTime}, a.tid = t → b.tid = t →
      a.did = ⟨.utc_now, x⟩ → b.did = ⟨.utc_now, y⟩ → ¬ Precedes d.world.log a b := by
    rintro a b x y ha hb hda hdb ⟨before, after, split, hmem⟩
    have hordered := ordered_at hd hasked split hb
    rw [show b.op = .utc_now from congrArg Done.op hdb] at hordered
    exact hordered x (mem_history.mpr ⟨a, hmem, ha, hda⟩)
  obtain ⟨a, ha, hta, hda⟩ := mem_history.mp hnow
  obtain ⟨b, hb, htb, hdb⟩ := mem_history.mp hnow'
  rcases precedes_total ha hb with rfl | hab | hba
  · have heq := hda.symm.trans hdb
    cases heq
    rfl
  · exact absurd hab (apart hta htb hda hdb)
  · exact absurd hba (apart htb hta hdb hda)

end Runs

end Kova.Ledger

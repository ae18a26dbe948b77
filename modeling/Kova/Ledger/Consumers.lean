import Kova.Ledger.Events
import Kova.Ledger.RowRequests

/-!
# What consumers make of the outbox

The message that `post_entry` enqueues is a JSON literal of four members under a literal topic; the
event that consumers read has eleven required fields, and the constant that they subscribe with is
another topic. So no committed entry is conveyed (`entries_not_conveyed`): with a payment id or
without, its message lacks the first of the fields, so that it is not read (`message_unread`), and
it stands under the other topic (`outbox_topic`).
-/

set_option autoImplicit false

namespace Kova.Ledger

open Conc

variable {v : Env} {clock : Nat} {ls : List LedgerLabel} {d : LedgerConf} {f : Formats}

/-- The members of the object that the row's text spells. -/
def OutboxRow.message (o : OutboxRow) : List (String × Json) :=
  o.payload_json.map fun (name, text) => (name, .string text)

/-- The row conveys the entry to consumers: under their topic, in a message that they read as the
event of the entry. -/
structure Conveys (f : Formats) (o : OutboxRow) (x : EntryRow) : Prop where
  read : ∃ ev, LedgerEntryCreatedEvent.visit_map f o.message = .ok ev ∧ ev.entry_id.uuid = x.id ∧
    ev.debit_account_id.uuid = x.debit_account_id ∧
      ev.credit_account_id.uuid = x.credit_account_id ∧
        ev.amount.toRat = x.amount.toDecimal.toRat ∧ ev.currency = x.currency ∧
          some ev.payment_id.uuid = x.payment_id
  topic : o.topic = TOPIC_LEDGER_ENTRY_CREATED

/-! ## The message -/

/-- The names that the message has. -/
theorem message_names {o : OutboxRow} {p : PostEntryParams}
    (hpayload : o.payload_json = p.outbox_payload o.entry_id) :
    o.message.map Prod.fst = ["entry_id", "idempotency_key", "amount", "currency"] := by
  rw [OutboxRow.message, hpayload]
  rfl

/-- **The message is read as no event**: the first field is missing. -/
theorem message_unread {o : OutboxRow} {p : PostEntryParams}
    (hpayload : o.payload_json = p.outbox_payload o.entry_id) :
    LedgerEntryCreatedEvent.visit_map f o.message = .error (.missing "schema_version") := by
  have hmissing : Json.required "schema_version" Json.u8 o.message =
      .error (.missing "schema_version") := by
    apply Json.required_missing
    intro m hm hname
    have hnames : "schema_version" ∈ o.message.map Prod.fst := hname ▸ List.mem_map_of_mem hm
    rw [message_names hpayload] at hnames
    revert hnames
    decide
  rw [LedgerEntryCreatedEvent.visit_map, hmissing]
  rfl

/-! ## The topic -/

/-- Every row stands under the topic of the statement. -/
def Topical (s : Store) : Prop := ∀ o ∈ s.outbox_rows, o.topic = "kova.ledger.entry.created"

theorem exec_topical {db : Engine} {t : Nat} {ch : Choice} {s s' : Store} {op : Op} {r : op.Res}
    (h : Topical s) (hexec : exec db t ch s op = some (r, s')) : Topical s' := by
  rcases exec_outbox_rows hexec with hsub | ⟨row, rfl, hrows⟩
  · exact fun o ho => h o (hsub.subset ho)
  · rcases exec_sql hexec with ⟨_, rfl⟩ | ⟨_, hrun, _⟩
    · exact h
    · rcases run_insert_outbox hrun with ⟨_, rfl⟩ | ⟨stored, _, ⟨_, _, _, _, htopic⟩, rfl⟩
      · exact h
      · intro o ho
        simp only [Store.outbox_rows, List.map_append, ← List.append_assoc] at ho
        rcases List.mem_append.mp ho with ho | ho
        · exact h o ho
        · obtain rfl := List.mem_singleton.mp ho
          exact htopic

theorem outside_topical {o : Outside} {s s' : Store} (h : Topical s) (ho : outside o s = some s') :
    Topical s' := by
  cases o with
  | advance n =>
    cases ho
    exact h
  | reap t =>
    cases ho
    exact fun row hrow => h row (((List.filter_sublist.map _).append_left _).subset hrow)

/-- **One topic**, in every run, and not the consumers'. -/
theorem outbox_topic (h : LedgerRun v (start clock) ls d) :
    ∀ o ∈ d.world.store.outbox, o.topic ≠ TOPIC_LEDGER_ENTRY_CREATED := by
  have htopical : Topical d.world.store := by
    refine h.store_invariant (P := Topical) ?_ ?_ ?_
    · intro t ch s op r s' hs hexec
      exact exec_topical hs hexec
    · intro o s s' hs ho
      exact outside_topical hs ho
    · intro o ho
      cases ho
  intro o ho
  rw [htopical o (List.mem_append_left _ ho)]
  decide

/-! ## The entries -/

/-- **No entry is conveyed**: each committed entry has its row in the outbox, and whichever row is
of the entry, its message is not read and its topic is another. -/
theorem entries_not_conveyed (f : Formats) (v : Env) (clock : Nat) (ls : List LedgerLabel)
    (d : LedgerConf) (h : LedgerRun v (start clock) ls d) :
    ∀ x ∈ d.world.store.entries, (∃ o ∈ d.world.store.outbox, o.entry_id = x.id) ∧
      ∀ o ∈ d.world.store.outbox, o.entry_id = x.id → ¬ Conveys f o x ∧
        LedgerEntryCreatedEvent.visit_map f o.message = .error (.missing "schema_version") ∧
          o.topic ≠ TOPIC_LEDGER_ENTRY_CREATED := by
  intro x hx
  constructor
  · have hid : x.id ∈ d.world.store.outbox.map (·.entry_id) := by
      rw [(outbox_linked h).2.2]
      exact List.mem_map_of_mem hx
    obtain ⟨o, ho, heq⟩ := List.mem_map.mp hid
    exact ⟨o, ho, heq⟩
  · intro o ho _
    obtain ⟨_, p, _, _, hpayload⟩ := outbox_request h ho
    have htopic := outbox_topic h o ho
    exact ⟨fun conveys => htopic conveys.topic, message_unread hpayload, htopic⟩

/-- The amount of the sample's payment, and no instants. -/
def sample_formats : Formats where
  decimal value :=
    if value.text = some "500.00" then some (payment "pay-1").amount else none
  rfc3339 _ := ""
  date_time _ := none

/-- One payment, which has its row. -/
theorem payment_enqueued :
    ∃ d, LedgerRun sample (start 0) (posting 0 (.low 10) (.low 11) (payment "pay-1")) d ∧
      ∃ x ∈ d.world.store.entries, ∃ o ∈ d.world.store.outbox, o.entry_id = x.id := by
  obtain ⟨run, checked⟩ := replayed_spec (machine sample.db) (serve sample) (start 0)
    (posting 0 (.low 10) (.low 11) (payment "pay-1"))
    (fun d => d.world.store.entries.any fun x => d.world.store.outbox.any fun o =>
      decide (o.entry_id = x.id)) (by decide +kernel)
  simp only [List.any_eq_true, decide_eq_true_eq] at checked
  exact ⟨_, run, checked⟩

/-- The sample's payment is not conveyed. -/
theorem payment_not_conveyed :
    ∃ d, LedgerRun sample (start 0) (posting 0 (.low 10) (.low 11) (payment "pay-1")) d ∧
      ∃ x ∈ d.world.store.entries, ∃ o ∈ d.world.store.outbox, ¬ Conveys sample_formats o x := by
  obtain ⟨d, run, x, hx, o, ho, hid⟩ := payment_enqueued
  have hnone := entries_not_conveyed sample_formats sample 0 _ d run x hx
  exact ⟨d, run, x, hx, o, ho, (hnone.2 o ho hid).1⟩

/-- So the outbox does not convey every entry. -/
theorem outbox_conveys_nothing :
    ¬ ∀ (f : Formats) (v : Env) (clock : Nat) (ls : List LedgerLabel) (d : LedgerConf),
      LedgerRun v (start clock) ls d → ∀ x ∈ d.world.store.entries,
        ∀ o ∈ d.world.store.outbox, o.entry_id = x.id → Conveys f o x := by
  intro claim
  obtain ⟨d, run, x, hx, o, ho, hid⟩ := payment_enqueued
  have conveys := claim sample_formats sample 0 _ d run x hx o ho hid
  exact outbox_topic run o ho conveys.topic

end Kova.Ledger

import Kova.Account.ClosingEvent
import Kova.Account.Lifecycle
import Kova.Events.RoundTrip

/-!
# What kova-account announces

The events that kova-account hands to its publisher, as the readers of their topics take them.

- `announced_truly`: in every run, whatever is handed over is read back by the struct of its topic,
  and what is read is true of the accounts table from then on: an account that was created has its
  row as announced for good, and one that was closed is closed.
-/

set_option autoImplicit false

namespace Kova.Account

open Conc Events
open Ledger (Formats)

variable {f : Formats} {env : Env} {table : Table env} {clock : Nat} {ls : List AccountLabel}
  {d : AccountConf}

/-! ## What is handed over -/

/-- The event as kova-types has it. -/
def AccountCreatedEvent.typed (event : AccountCreatedEvent) : Events.AccountCreatedEvent where
  schema_version := event.schema_version
  event_id := ⟨event.event_id⟩
  account_id := ⟨event.account_id⟩
  user_id := ⟨event.user_id⟩
  currency := event.currency
  account_number := event.account_number
  occurred_at := event.occurred_at

def AccountClosedEvent.typed (event : AccountClosedEvent) : Events.AccountClosedEvent where
  schema_version := event.schema_version
  event_id := ⟨event.event_id⟩
  account_id := ⟨event.account_id⟩
  user_id := ⟨event.user_id⟩
  reason := event.reason
  closed_at := event.closed_at
  occurred_at := event.occurred_at

/-- `serde_json::to_value`: the members of the object. -/
def Payload.to_value (f : Formats) : Payload → List (String × Json)
  | .created event => (Kind.AccountCreated.fields f).write event.typed
  | .closed event => (Kind.AccountClosed.fields f).write event.typed

/-- A reader of the topic takes the object for the event, whatever is added to it and in whatever
order its members come. -/
structure Carries (f : Formats) (topic : String) (payload : Payload) (k : Kind) (ev : k.Event) :
    Prop where
  topic : topic = k.topic
  read : ∀ members others : List (String × Json), members.Perm (payload.to_value f ++ others) →
    (∀ m ∈ others, m.1 ∉ (k.fields f).names) → (k.fields f).read members = .ok ev

/-- What an announcement tells its readers, and what of it the table has: all that a creation says
of the account, and of a closure that the account is Closed. -/
inductive Tells (f : Formats) (s : Store) (topic key : String) (payload : Payload) : Prop
  | created (ev : Events.AccountCreatedEvent) (r : AccountRow)
      (carries : Carries f topic payload .AccountCreated ev)
      (version : ev.schema_version = Events.SCHEMA_VERSION) (there : r ∈ s.accounts)
      (account_id : ev.account_id = ⟨r.id⟩) (user_id : ev.user_id = ⟨r.user_id⟩)
      (currency : ev.currency = r.currency) (account_number : ev.account_number = r.account_number)
      (status : r.status = .PendingKYC) (keyed : key = r.id.to_string)
  | closed (ev : Events.AccountClosedEvent) (r : AccountRow)
      (carries : Carries f topic payload .AccountClosed ev)
      (version : ev.schema_version = Events.SCHEMA_VERSION) (there : r ∈ s.accounts)
      (account_id : ev.account_id = ⟨r.id⟩) (user_id : ev.user_id = ⟨r.user_id⟩)
      (status : r.status = .Closed) (keyed : Uuid.parse_str key = some r.id)

/-! ## What a call has done when it hands its event over -/

structure Creating (h : List AccountDone) (topic key : String) (event : AccountCreatedEvent) :
    Prop where
  topic : topic = TOPIC_ACCOUNT_CREATED
  version : event.schema_version = SCHEMA_VERSION
  keyed : key = event.account_id.to_string
  generated : (⟨.now_v7, event.account_id⟩ : AccountDone) ∈ h
  inserted : ∃ user_id, Uuid.parse_str user_id = some event.user_id ∧
    did (.insert_account key user_id event.account_number event.currency.code) (some .inserted) ∈ h
  accepted : ∀ y ∈ h, ∀ id, y.op ≠ .sql (.delete_account id)

structure Closing (h : List AccountDone) (topic key : String) (event : AccountClosedEvent) :
    Prop where
  topic : topic = TOPIC_ACCOUNT_CLOSED
  version : event.schema_version = SCHEMA_VERSION
  keyed : Uuid.parse_str key = some event.account_id
  updated : ∃ first rest, h = first ++ did (.update_closed event.closed_at key) (some ()) :: rest ∧
    ∃ user_id row status, Uuid.parse_str user_id = some event.user_id ∧
      did (.select_to_close key user_id) (some (some row)) ∈ first ∧
        row.status = AccountStatus.text status ∧ status.closable = true

/-- Nothing is deleted behind an announcement. -/
def announces (h : List AccountDone) : Op → Prop
  | .publish_json topic key (.created event) => Creating h topic key event
  | .publish_json topic key (.closed event) => Closing h topic key event
  | .sql (.delete_account _) => ∀ y ∈ h, ∀ topic key payload, y.op ≠ .publish_json topic key payload
  | _ => True

section Steps

variable {user : AuthUser} {now : DateTime} {h : List AccountDone} {op : Op}

theorem CreationStep.announces {currency : String} (step : CreationStep user currency now h op) :
    announces h op := by
  cases step with
  | draw | name | insert => trivial
  | opening code step =>
    cases step with
    | entry | name | clock => trivial
    | withdraw =>
      intro y hy topic key payload hop
      simp only [inserted, List.mem_append, List.mem_cons, List.not_mem_nil, or_false] at hy
      rcases hy with (rfl | rfl | rfl | rfl) | rfl <;> cases hop
    | publish owner =>
      refine ⟨rfl, rfl, rfl, by simp [inserted, created_event],
        ⟨user.sub, owner, by simp [inserted, did, created_event]⟩, ?_⟩
      intro y hy id hop
      simp only [inserted, List.mem_append, List.mem_cons, List.not_mem_nil, or_false] at hy
      rcases hy with (((rfl | rfl | rfl | rfl) | rfl) | rfl) | rfl <;> cases hop

theorem ClosureStep.announces {account_id : String} (step : ClosureStep user account_id now h op) :
    announces h op := by
  cases step with
  | publish found =>
    obtain ⟨status, text, closable⟩ := found.opened
    exact ⟨rfl, rfl, found.parsed, _, _, List.append_assoc .., user.sub, _, status, found.owner,
      by simp [checks_done], text, closable⟩
  | _ => trivial

end Steps

/-- Of the requests only creations and closures announce anything or delete an account. -/
theorem serve_announces (env : Env) (req : Request) :
    Guarded announces (fun _ _ => True) (serve env req) [] := by
  refine (serve_steps env req).mono ?_ fun _ _ _ => trivial
  intro h op step
  cases step with
  | create _ step => exact step.announces
  | close _ step => exact step.announces
  | balance _ step | statement _ step => cases step <;> trivial
  | extract | list | get | ledger => trivial

/-! ## What the readers are told -/

theorem carries_created (exact : Exact f) (event : AccountCreatedEvent) :
    Carries f TOPIC_ACCOUNT_CREATED (.created event) .AccountCreated event.typed :=
  ⟨rfl, read_back exact .AccountCreated event.typed trivial⟩

theorem carries_closed (exact : Exact f) (event : AccountClosedEvent) :
    Carries f TOPIC_ACCOUNT_CLOSED (.closed event) .AccountClosed event.typed :=
  ⟨rfl, read_back exact .AccountClosed event.typed trivial⟩

/-- The call of a creation's event deletes nothing, before it and after it. -/
theorem announced_kept (h : AccountRun env (start table clock) ls d)
    {before after : List AccountEvent} {e : AccountEvent}
    (split : d.world.log = before ++ e :: after) {topic key : String} {event : AccountCreatedEvent}
    (hop : e.op = .publish_json topic key (.created event)) :
    ∀ y ∈ history e.tid d.world.log, ∀ id, y.op ≠ .sql (.delete_account id) := by
  intro y hy id hdelete
  obtain ⟨b, hb, htid, rfl⟩ := mem_history.mp hy
  have hdelete : b.op = .sql (.delete_account id) := hdelete
  rw [split] at hb
  rcases List.mem_append.mp hb with hb | hb
  · have hguard := h.guard (serve_announces env) split
    rw [hop] at hguard
    exact hguard.accepted b.did (mem_history.mpr ⟨b, hb, htid, rfl⟩) id hdelete
  · rcases List.mem_cons.mp hb with rfl | hb
    · rw [hop] at hdelete
      cases hdelete
    · obtain ⟨mid, last, rfl⟩ := List.append_of_mem hb
      have split' : d.world.log = (before ++ e :: mid) ++ b :: last := by simp [split]
      have hguard := h.guard (serve_announces env) split'
      rw [hdelete] at hguard
      exact hguard e.did (mem_history.mpr ⟨e, by simp, htid.symm, rfl⟩) _ _ _ hop

/-- The account of a creation's event stays as announced. -/
theorem tells_created (exact : Exact f) (h : AccountRun env (start table clock) ls d)
    {before after : List AccountEvent} {e : AccountEvent}
    (split : d.world.log = before ++ e :: after) {topic key : String} {event : AccountCreatedEvent}
    (hop : e.op = .publish_json topic key (.created event)) :
    Tells f d.world.store topic key (.created event) := by
  have accepted := announced_kept h split hop
  have hguard := h.guard (serve_announces env) split
  rw [hop] at hguard
  obtain ⟨rfl, version, rfl, generated, ⟨user_id, parsed, inserted⟩, _⟩ := hguard
  have grown := (history_grows (t := e.tid) ⟨e :: after, split.symm⟩).subset
  obtain ⟨r, hr, hid, huser, hcurrency, hnumber, hstatus⟩ :=
    inserted_stays h (grown generated) (grown inserted) accepted
  have howner := Uuid.parse_str_of_UUID_TO_BIN huser
  rw [parsed, Option.some.injEq] at howner
  exact .created event.typed r (carries_created exact event) version hr
    (congrArg KovaId.mk hid.symm) (congrArg KovaId.mk howner) hcurrency.symm hnumber.symm hstatus
    (congrArg Uuid.to_string hid.symm)

theorem AccountRow.Becomes.closed_eq {r r' : AccountRow} (h : r.Becomes r')
    (hr : r.status = .Closed) : r'.status = .Closed := by
  cases h with
  | same => exact hr
  | closed => rfl

/-- The account of a closure's event stays closed. -/
theorem tells_closed (exact : Exact f) (h : AccountRun env (start table clock) ls d)
    {before after : List AccountEvent} {e : AccountEvent}
    (split : d.world.log = before ++ e :: after) {topic key : String} {event : AccountClosedEvent}
    (hop : e.op = .publish_json topic key (.closed event)) :
    Tells f d.world.store topic key (.closed event) := by
  have hguard := h.guard (serve_announces env) split
  rw [hop] at hguard
  obtain ⟨rfl, version, keyed, first, rest, hsplit, user_id, row, status, parsed, hread, htext,
    closable⟩ := hguard
  obtain ⟨es₁, u, es₂, rfl, _, hdid, rfl, _⟩ := history_split hsplit
  -- The row that the call read, the caller's, is the one that its UPDATE closed.
  obtain ⟨a, _, _, hadid, hprec⟩ := event_of_history (es₂ ++ e :: after) u hread
  have whole : d.world.log = es₁ ++ u :: (es₂ ++ e :: after) := by simp [split]
  rw [← whole] at hprec
  obtain ⟨_, _, _, hselect⟩ := h.did hprec.left hadid
  obtain ⟨r, hr, hid, huser, rfl⟩ := exec_to_close (t := a.tid) hselect
  have hopen : r.status ≠ .PendingKYC :=
    AccountStatus.closable_ne_pending (AccountStatus.text_injective htext ▸ closable)
  obtain ⟨r₁, hr₁, hb₁⟩ := stays_between h hprec r hr hopen
  obtain ⟨_, _, _, hupdate⟩ := h.did hprec.right hdid
  obtain ⟨x, hx, hpost⟩ := exec_update_closed (t := u.tid) hupdate
  obtain rfl := Option.some.inj (hid.symm.trans hx)
  have closes : r₁.closed_by r.id event.closed_at = r₁.close event.closed_at := by
    rw [AccountRow.closed_by, if_pos hb₁.id_eq]
  have hmem : r₁.close event.closed_at ∈ u.post.accounts :=
    hpost ▸ closes ▸ List.mem_map_of_mem hr₁
  obtain ⟨r₂, hr₂, hb₂⟩ := stays_since h hprec.right _ hmem (by rintro ⟨⟩)
  have hb : r.Becomes r₂ := (hb₁.trans (.closed event.closed_at)).trans hb₂
  -- What the event says of it.
  have haccount := Uuid.parse_str_of_UUID_TO_BIN hid
  have howner := Uuid.parse_str_of_UUID_TO_BIN huser
  rw [keyed, Option.some.injEq] at haccount
  rw [parsed, Option.some.injEq] at howner
  exact .closed event.typed r₂ (carries_closed exact event) version hr₂
    (congrArg KovaId.mk (haccount.trans hb.id_eq.symm))
    (congrArg KovaId.mk (howner.trans hb.user_id_eq.symm)) (hb₂.closed_eq rfl)
    (by rw [keyed, haccount, hb.id_eq])

/-- **What kova-account announces is read and is true**: whatever is handed to the publisher in a
run is taken by every reader of its topic for the event that it was written from, and from then on
the table has the account: as the event says when it was created, Closed when it was closed. -/
theorem announced_truly (f : Formats) (exact : Exact f) (env : Env) (table : Table env)
    (clock : Nat) (ls : List AccountLabel) (d : AccountConf)
    (run : AccountRun env (start table clock) ls d) :
    ∀ e ∈ d.world.log, ∀ topic key payload, e.op = .publish_json topic key payload →
      Tells f d.world.store topic key payload := by
  intro e he topic key payload hop
  obtain ⟨before, after, split⟩ := List.append_of_mem he
  cases payload with
  | created event => exact tells_created exact run split hop
  | closed event => exact tells_closed exact run split hop

/-- What was handed to the publisher. -/
def handed_over (log : List AccountEvent) : List (String × String × Payload) :=
  log.filterMap fun e =>
    match e.op with
    | .publish_json topic key payload => some (topic, key, payload)
    | _ => none

/-- An account in pounds is created while the sample's account is closed. -/
def created_and_closed : List AccountLabel :=
  half_created ++ [.spawn sample_close] ++ [.run 1 {}, .run 1 { uuid := .low 10 }, .run 1 {}] ++
    List.replicate 6 (.run 2 { uuid := .low 11 }) ++ [.run 1 {}, .run 2 { uuid := .low 11 }] ++
      [.run 2 {}]

/-- Both events are handed over, and both are read and are true. -/
theorem created_and_closed_told : ∃ d : AccountConf,
    (handed_over d.world.log).map (·.1) = [TOPIC_ACCOUNT_CREATED, TOPIC_ACCOUNT_CLOSED] ∧
      ∀ e ∈ d.world.log, ∀ topic key payload, e.op = .publish_json topic key payload →
        Tells sample_formats d.world.store topic key payload := by
  obtain ⟨run, topics⟩ := replayed_spec (machine sample) (serve sample) sample_start
    created_and_closed
    (fun d => (handed_over d.world.log).map (·.1) = [TOPIC_ACCOUNT_CREATED, TOPIC_ACCOUNT_CLOSED])
    (by decide +kernel)
  exact ⟨_, of_decide_eq_true topics,
    announced_truly sample_formats sample_exact sample sample_table _ _ _ run⟩

end Kova.Account

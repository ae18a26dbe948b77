import Kova.Codec.Text
import Kova.Conc.Expand
import Kova.Kafka.Producer
import Kova.Ledger.Delivery
import Kova.Ledger.Drain

/-!
# The outbox on Kafka

`KafkaPublisher` hands the rows of the outbox to the Kafka producer. What the worker takes for one
operation, with any answer, is then the producer's program with its attempts and pauses, next to
everything else on the database and on a broker that may append a record and lose the reply.

The service with this publisher refines the service with an unknown one (`realizes`), so what is
proved of the outbox holds here, and the records come with it:

- `outbox_to_topic`: a row that shows as published stands in its partition, and nothing is sent but
  committed rows, which consumers can tell apart.
- `topic_catches_up`: whatever has failed or was left undone, there is a continuation in which every
  committed entry has its record in the topic.
-/

set_option autoImplicit false

namespace Kova.Ledger.Outbox.KafkaPublisher

open Conc
open Kafka (Producer.Record)

/-! ## The publisher -/

/-- What is left open of the service, of the producer's library, and the text of a JSON value, which
`serde_json::to_vec` does not refuse. -/
structure Env where
  ledger : Ledger.Env
  producer : Kafka.Producer.Env
  to_vec : List (String × String) → List UInt8

/-- The text of the producer's error. -/
def error_text (env : Kafka.Producer.Env) : Kafka.Producer.PublishError → String
  | .Rdkafka e => "kafka error: " ++ env.error_text e
  | .Serialize e => "serialization error: " ++ e
  | .RetriesExhausted attempts last_error =>
    "publish failed after " ++ toString attempts ++ " attempts: " ++ last_error

/-- What the service awaits. -/
inductive Op where
  | posting (op : Ledger.Op)
  | sql (q : Sql)
  | kafka (op : Kafka.Producer.Op)

def Op.Res : Op → Type
  | .posting op => op.Res
  | .sql q => Option q.Res
  | .kafka op => op.Res

/-- What the producer does, its error made the ledger's. -/
def producing (env : Env) (p : Kafka.Producer.Async Unit) :
    Prog Op Op.Res Empty (Except LedgerError Unit) := do
  let result ← (p.among Op.kafka fun _ r => r).caught
  pure (result.mapError fun e => .Internal (error_text env.producer e))

/-- `KafkaPublisher::publish`. -/
def publish (env : Env) (topic key : String) (payload : List (String × String)) :
    Prog Op Op.Res Empty (Except LedgerError Unit) :=
  producing env (Kafka.Producer.publish env.producer topic key (.ok (env.to_vec payload)))

/-- The publisher behind the trait object. -/
def carry_out (env : Env) : (op : Outbox.Op) → Prog Op Op.Res Empty op.Res
  | .posting op => .await (.posting op) .ret
  | .sql q => .await (.sql q) .ret
  | .publish topic key payload => publish env topic key payload

/-! ## The machine -/

structure Store where
  outbox : Outbox.Store := {}
  broker : Kafka.Producer.Broker

structure Choice where
  outbox : Outbox.Choice := {}
  kafka : Kafka.Producer.Choice := .acknowledged

inductive Outside where
  | ledger (o : Ledger.Outside)
  | broker (o : Kafka.Producer.Outside)

def exec (env : Env) (t : Nat) (ch : Choice) (s : Store) : (op : Op) → Option (op.Res × Store)
  | .posting op => (Outbox.exec env.ledger.db t ch.outbox s.outbox (.posting op)).map
    fun (r, outbox) => (r, { s with outbox })
  | .sql q => (Outbox.exec env.ledger.db t ch.outbox s.outbox (.sql q)).map
    fun (r, outbox) => (r, { s with outbox })
  | .kafka op => (Kafka.Producer.exec env.producer ch.kafka s.broker op).map
    fun (r, broker) => (r, { s with broker })

def outside : Outside → Store → Option Store
  | .ledger o, s => (Outbox.outside o s.outbox).map fun outbox => { s with outbox }
  | .broker o, s => some { s with broker := s.broker.append o.partition o.record }

def machine (env : Env) : Machine Store Op Op.Res Choice Outside := ⟨exec env, outside⟩

/-- The service of `main.rs` with the feature `kafka`. -/
def serve (env : Env) (req : Request) : Prog Op Op.Res LedgerError Response :=
  (Outbox.serve env.ledger req).expand (carry_out env)

abbrev KafkaConf := Conf Store Request Op Op.Res LedgerError Response

abbrev KafkaLabel := Label Request Choice Outside

abbrev KafkaRun (env : Env) : KafkaConf → List KafkaLabel → KafkaConf → Prop :=
  Run (machine env) (serve env) .all

/-- Empty tables, and whatever the broker holds. -/
def start (clock : Nat) (broker : Kafka.Producer.Broker) : KafkaConf :=
  .init { outbox := { ledger := { clock } }, broker }

/-! ## What the publisher does -/

abbrev KafkaDone := Done Op Op.Res

/-- The record of a call of the publisher. -/
def record (env : Env) (topic key : String) (payload : List (String × String)) : Producer.Record :=
  ⟨topic, key, env.to_vec payload⟩

/-- Records are sent by the publisher, each for the call it was made for. -/
def Sends (env : Env) (op : Outbox.Op) (_ : List KafkaDone) : Op → Prop
  | .kafka (.send r) => ∃ topic key payload, op = .publish topic key payload ∧
      r = record env topic key payload
  | _ => True

/-- What is answered with Ok has been acknowledged. -/
def Delivered (env : Env) (op : Outbox.Op) (res : op.Res) (h : List KafkaDone) : Prop :=
  ∀ topic key payload, (⟨op, res⟩ : OutboxDone) = ⟨.publish topic key payload, .ok ()⟩ →
    ∃ delivery, (⟨.kafka (.send (record env topic key payload)), .ok delivery⟩ : KafkaDone) ∈ h

section

variable {env : Env} {t : Nat} {s s' : Store}

/-- Any answer of the publisher is one that an unknown publisher may give, and what it awaits leaves
the tables alone. -/
theorem lands_publish (topic key : String) (payload : List (String × String))
    (hs : s'.outbox = s.outbox) (p : Kafka.Producer.Async Unit) :
    Lands (Outbox.machine env.ledger.db) Store.outbox t (.publish topic key payload) s s'
      (producing env p) := by
  have answers : ∀ verdict, ∃ ch, (Outbox.machine env.ledger.db).exec t ch s.outbox
      (.publish topic key payload) = some (verdict, s'.outbox) := by
    intro verdict
    exact ⟨{ verdict }, by rw [hs]; rfl⟩
  cases p with
  | ret a => exact answers _
  | raise e => exact answers _
  | await op next => exact hs

theorem carries_publish (topic key : String) (payload : List (String × String)) :
    ∀ p : Kafka.Producer.Async Unit, Carries (Outbox.machine env.ledger.db) (machine env)
      Store.outbox (.publish topic key payload) (producing env p)
  | .ret _ => trivial
  | .raise _ => trivial
  | .await op next => by
    intro r
    refine ⟨?_, carries_publish topic key payload (next r)⟩
    intro t ch s s' hexec
    obtain ⟨⟨_, broker⟩, _, heq⟩ := Option.map_eq_some_iff.mp hexec
    cases heq
    exact lands_publish topic key payload rfl (next r)

/-- **A call of the publisher** sends its own record only, and answers Ok when it was
acknowledged. -/
theorem publish_guarded (env : Env) (topic key : String) (payload : List (String × String))
    (h : List KafkaDone) :
    Guarded (Sends env (.publish topic key payload))
      (fun h' r => ∀ b, r = .ok b → Delivered env (.publish topic key payload) b h')
      (publish env topic key payload) h := by
  -- What the client has done is part of what the call has done.
  have grow : ∀ (done : List Kafka.Producer.PublishDone) (h' : List KafkaDone) op r,
      (∀ x ∈ done, (⟨.kafka x.op, x.res⟩ : KafkaDone) ∈ h') →
        ∀ x ∈ done ++ [⟨op, r⟩], (⟨.kafka x.op, x.res⟩ : KafkaDone) ∈ h' ++ [⟨.kafka op, r⟩] := by
    intro done h' op r hR x hx
    rcases List.mem_append.mp hx with hx | hx
    · exact List.mem_append_left _ (hR x hx)
    · obtain rfl := List.mem_singleton.mp hx
      exact List.mem_append_right _ List.mem_cons_self
  have pass : ∀ (done : List Kafka.Producer.PublishDone) (h' : List KafkaDone) op,
      (∀ x ∈ done, (⟨.kafka x.op, x.res⟩ : KafkaDone) ∈ h') →
        Kafka.Producer.Attempting ⟨topic, key, .ok (env.to_vec payload)⟩ done op →
          Sends env (.publish topic key payload) h' (.kafka op) := by
    intro done h' op _ hattempting
    cases op with
    | sleep millis => trivial
    | send r =>
      obtain ⟨hr, _⟩ := hattempting
      cases hr
      exact ⟨topic, key, payload, rfl, rfl⟩
  have ends : ∀ (done : List Kafka.Producer.PublishDone) (h' : List KafkaDone) r,
      (∀ x ∈ done, (⟨.kafka x.op, x.res⟩ : KafkaDone) ∈ h') →
        Kafka.Producer.Answered env.producer ⟨topic, key, .ok (env.to_vec payload)⟩ done r →
          r = .ok () → ∃ delivery,
            (⟨.kafka (.send (record env topic key payload)), .ok delivery⟩ : KafkaDone) ∈ h' := by
    rintro done h' r hR hanswered rfl
    cases hanswered with
    | @delivered r es delivery hr =>
      cases hr
      exact ⟨delivery, hR _ (List.mem_append_right _ List.mem_cons_self)⟩
  refine Guarded.bind_caught ?_ (Guarded.among grow pass ends (by intro _ hx; cases hx)
    (Kafka.Producer.serve_guarded env.producer ⟨topic, key, .ok (env.to_vec payload)⟩))
  rintro h' (e | ⟨⟩) hr b hb topic' key' payload' heq
  · cases hb
    cases heq
  · cases heq
    exact hr rfl

/-- **The service on Kafka refines the service with an unknown publisher.** -/
theorem realizes (env : Env) : Realizes (Outbox.machine env.ledger.db) (machine env) Store.outbox
    (carry_out env) (Sends env) (Delivered env) where
  awaits op := by
    cases op <;> rfl
  carries op := by
    cases op with
    | posting op =>
      intro r
      refine ⟨?_, trivial⟩
      intro t ch s s' hexec
      obtain ⟨⟨_, outbox⟩, habove, heq⟩ := Option.map_eq_some_iff.mp hexec
      cases heq
      exact ⟨ch.outbox, habove⟩
    | sql q =>
      intro r
      refine ⟨?_, trivial⟩
      intro t ch s s' hexec
      obtain ⟨⟨_, outbox⟩, habove, heq⟩ := Option.map_eq_some_iff.mp hexec
      cases heq
      exact ⟨ch.outbox, habove⟩
    | publish topic key payload => exact carries_publish topic key payload _
  guarded op h := by
    cases op with
    | posting op | sql q =>
      refine ⟨trivial, fun r b _ topic key payload heq => ?_⟩
      cases congrArg Done.op heq
    | publish topic key payload => exact publish_guarded env topic key payload h
  grows hsub hdelivered topic key payload heq := by
    obtain ⟨delivery, hmem⟩ := hdelivered topic key payload heq
    exact ⟨delivery, hsub.subset hmem⟩
  env {o s s'} ho := by
    cases o with
    | ledger o =>
      obtain ⟨outbox, habove, rfl⟩ := Option.map_eq_some_iff.mp ho
      exact .inr ⟨o, habove⟩
    | broker o =>
      cases ho
      exact .inl rfl

end

/-! ## Runs -/

/-- The record that a row of the outbox is sent as. -/
def row_record (env : Env) (row : OutboxRow) : Producer.Record :=
  record env row.topic (String.ofList (Hex.encode row.entry_id.bytes)) row.payload_json

/-- The row's record is in its partition. -/
def Stands (env : Env) (broker : Kafka.Producer.Broker) (row : OutboxRow) : Prop :=
  row_record env row ∈ broker.log (env.producer.position (row_record env row))

/-- What holds of the outbox and of the topic. -/
structure OnTopic (env : Env) (d : KafkaConf) : Prop where
  linked : ∀ entry ∈ d.world.store.outbox.ledger.entries,
    ∃ row ∈ d.world.store.outbox.ledger.outbox, row.entry_id = entry.id
  published : ∀ row ∈ d.world.store.outbox.ledger.outbox, row.published_at ≠ none →
    Stands env d.world.store.broker row
  /-- What is sent has been committed. -/
  sent : ∀ e ∈ d.world.log, ∀ r, e.op = .kafka (.send r) →
    ∃ row ∈ e.pre.outbox.ledger.outbox, r = row_record env row
  distinct : ∀ row ∈ d.world.store.outbox.ledger.outbox,
    ∀ row' ∈ d.world.store.outbox.ledger.outbox,
      row_record env row = row_record env row' → row = row'

section Runs

variable {env : Env} {clock : Nat} {broker : Kafka.Producer.Broker} {ls : List KafkaLabel}
  {c d : KafkaConf}

/-- Every run is, on the tables, a run of the service with an unknown publisher. -/
theorem run_above (h : KafkaRun env (start clock broker) ls d) :
    ∃ ms c, OutboxRun env.ledger (Outbox.start clock) ms c ∧
      Alike (Outbox.machine env.ledger.db) (machine env) Store.outbox (carry_out env) (Sends env)
        (Delivered env) d c :=
  Run.refined (realizes env) h

/-- Partitions only grow. -/
theorem log_follows (env : Env) :
    Follows (machine env) fun s s' => ∀ p, s.broker.log p <+: s'.broker.log p where
  refl s p := List.prefix_rfl
  trans h h' p := (h p).trans (h' p)
  exec {t ch s op r s'} h := by
    cases op with
    | posting op | sql q =>
      obtain ⟨⟨_, outbox⟩, _, heq⟩ := Option.map_eq_some_iff.mp h
      cases heq
      exact fun p => List.prefix_rfl
    | kafka op =>
      obtain ⟨⟨_, broker⟩, hexec, heq⟩ := Option.map_eq_some_iff.mp h
      cases heq
      exact (Kafka.Producer.log_follows env.producer).exec (t := t) hexec
  env {o s s'} h := by
    cases o with
    | ledger o =>
      obtain ⟨outbox, _, rfl⟩ := Option.map_eq_some_iff.mp h
      exact fun p => List.prefix_rfl
    | broker o =>
      cases h
      exact fun p => s.broker.prefix_append o.partition p o.record

/-- A record that was acknowledged stands in its partition from then on. -/
theorem acknowledged_stands (h : KafkaRun env (start clock broker) ls d) {t : Nat}
    {r : Producer.Record} {delivery : Kafka.Producer.Delivery}
    (hmem : (⟨.kafka (.send r), .ok delivery⟩ : KafkaDone) ∈ history t d.world.log) :
    r ∈ d.world.store.broker.log (env.producer.position r) := by
  obtain ⟨e, he, _, hdid⟩ := mem_history.mp hmem
  obtain ⟨_, ch, _, hexec⟩ := h.did he hdid
  obtain ⟨⟨_, grown⟩, hsend, heq⟩ := Option.map_eq_some_iff.mp hexec
  obtain ⟨rfl, hpost⟩ := Prod.mk.inj heq
  obtain ⟨_, rfl⟩ := Kafka.Producer.exec_acknowledged hsend
  refine (h.since (log_follows env) he (env.producer.position r)).subset ?_
  rw [← hpost]
  simp

/-- Each committed entry has its row. -/
theorem entries_linked (h : KafkaRun env (start clock broker) ls d) :
    ∀ entry ∈ d.world.store.outbox.ledger.entries,
      ∃ row ∈ d.world.store.outbox.ledger.outbox, row.entry_id = entry.id := by
  obtain ⟨ms, c, above, alike⟩ := run_above h
  rw [← alike.store]
  exact (run_delivers above).linked

/-- **What shows as published stands in its partition.** -/
theorem published_stands (h : KafkaRun env (start clock broker) ls d) {row : OutboxRow}
    (hrow : row ∈ d.world.store.outbox.ledger.outbox) (hset : row.published_at ≠ none) :
    Stands env d.world.store.broker row := by
  obtain ⟨ms, c, above, alike⟩ := run_above h
  rw [← alike.store] at hrow
  obtain ⟨e, he, hdid⟩ := (run_delivers above).published row hrow hset
  obtain ⟨delivery, hmem⟩ := alike.accounted e he _ _ _ hdid
  exact acknowledged_stands h hmem

/-- **What is sent is a committed row.** -/
theorem sent_committed (h : KafkaRun env (start clock broker) ls d)
    {e : Event Store Request Op Op.Res} (he : e ∈ d.world.log) {r : Producer.Record}
    (hop : e.op = .kafka (.send r)) :
    ∃ row ∈ e.pre.outbox.ledger.outbox, r = row_record env row := by
  obtain ⟨before, after, split⟩ := List.append_of_mem he
  obtain ⟨_, c', hrun, hworld, ⟨call', next', hcall', _, hprog'⟩, _⟩ :=
    h.at_event (List.nil_append _).symm split
  obtain ⟨ms, c, above, alike⟩ := run_above hrun
  obtain ⟨call, hcall, same⟩ := alike.call hcall'
  have stage := same.stage
  rw [hprog'] at stage
  obtain ⟨op, next, n, hprog, hsends, _⟩ := stage.await
  rw [hop] at hsends
  obtain ⟨topic, key, payload, rfl, rfl⟩ := hsends
  -- The call above awaits the publisher, so its SELECT has answered the row.
  have hguard := awaits_guard (above.obeys (serve_guarded env.ledger)) hcall hprog
  have due : Due (history e.tid c.world.log) (.publish topic key payload) := by
    cases hreq : call.req with
    | post_entry p =>
      rw [hreq] at hguard
      obtain ⟨op', hposting⟩ := hguard
      cases hposting
    | worker_turn n =>
      rw [hreq] at hguard
      exact hguard
  generalize hhist : history e.tid c.world.log = hist at due
  generalize hpublish : Outbox.Op.publish topic key payload = op at due
  cases due with
  | publish done m rest =>
    have hselected : selected (done ++ m :: rest) ∈ history e.tid c.world.log := by
      rw [hhist]
      exact List.mem_cons_of_mem _ List.mem_cons_self
    obtain ⟨row, hrow, rfl⟩ := List.mem_map.mp ((run_kept above).found e.tid _ m hselected
      (List.mem_append_right _ List.mem_cons_self))
    rw [alike.store, hworld] at hrow
    cases hpublish
    exact ⟨row, hrow, rfl⟩
  | begin | select | rollback | mark _ _ _ | commit _ => cases hpublish

/-- **From the outbox to the topic**: in every run of postings and workers over Kafka, whatever
fails or is cut short, each committed entry has its row, a row that shows as published stands in its
partition, nothing is sent but rows that have been committed, and no two rows are sent as one
record. -/
theorem outbox_to_topic (env : Env) (clock : Nat) (broker : Kafka.Producer.Broker)
    (ls : List KafkaLabel) (d : KafkaConf) (h : KafkaRun env (start clock broker) ls d) :
    OnTopic env d where
  linked := entries_linked h
  published _ hrow hset := published_stands h hrow hset
  sent _ he _ hop := sent_committed h he hop
  distinct := by
    intro row hrow row' hrow' heq
    obtain ⟨ms, c, above, alike⟩ := run_above h
    rw [← alike.store] at hrow hrow'
    have hkey : String.ofList (Hex.encode row.entry_id.bytes) =
        String.ofList (Hex.encode row'.entry_id.bytes) := congrArg Kafka.Producer.Record.key heq
    have hdecoded := congrArg Hex.decode (String.ofList_injective hkey)
    rw [Hex.decode_encode, Hex.decode_encode, Option.some.injEq] at hdecoded
    have hid : row.entry_id = row'.entry_id :=
      Uuid.toNat_injective (congrArg (List.map UInt8.toNat) hdecoded)
    exact List.inj_on_of_nodup_map (rows_apart above).entry_ids hrow hrow' hid

/-! ### Catching up -/

/-- The publisher has not refused. -/
def Accepted (op : Outbox.Op) (res : op.Res) : Prop :=
  ∀ topic key payload e, (⟨op, res⟩ : OutboxDone) ≠ ⟨.publish topic key payload, .error e⟩

/-- **Each operation that is not refused can be carried out**: a send that is acknowledged is one
attempt. -/
theorem carried_out {t : Nat} {ch : Outbox.Choice} {op : Outbox.Op} {s : Store} {r : op.Res}
    {s₁ : Outbox.Store} (hexec : Outbox.exec env.ledger.db t ch s.outbox op = some (r, s₁))
    (accepted : Accepted op r) : ∃ steps s', Performs (machine env) t (carry_out env op) s steps
      (.ret r) s' ∧ s'.outbox = s₁ := by
  cases op with
  | posting op =>
    have hbelow : (machine env).exec t { outbox := ch } s (.posting op) =
        some (r, { s with outbox := s₁ }) := by
      simp only [machine, exec, hexec, Option.map_some]
      rfl
    exact ⟨_, _, .next .refl hbelow (.rest .refl), rfl⟩
  | sql q =>
    have hbelow : (machine env).exec t { outbox := ch } s (.sql q) =
        some (r, { s with outbox := s₁ }) := by
      simp only [machine, exec, hexec, Option.map_some]
      rfl
    exact ⟨_, _, .next .refl hbelow (.rest .refl), rfl⟩
  | publish topic key payload =>
    obtain ⟨rfl, rfl⟩ := exec_publish hexec
    cases hverdict : ch.verdict with
    | error e => exact absurd (by rw [hverdict]) (accepted topic key payload e)
    | ok _ =>
      have hbelow : (machine env).exec t {} s (.kafka (.send (record env topic key payload))) =
          some (.ok _, { s with broker := _ }) := rfl
      exact ⟨_, _, .next .refl hbelow (.rest .refl), rfl⟩

/-- The outside of the tables can move as it does without Kafka. -/
theorem drifts_below {s : Store} {s₁ : Outbox.Store}
    (h : (Outbox.machine env.ledger.db).Drifts s.outbox s₁) :
    ∃ s', (machine env).Drifts s s' ∧ s'.outbox = s₁ := by
  induction h with
  | refl => exact ⟨s, .refl, rfl⟩
  | tail _ hmove ih =>
    obtain ⟨s', drift, rfl⟩ := ih
    obtain ⟨o, ho⟩ := hmove
    refine ⟨{ s' with outbox := _ }, drift.tail ⟨.ledger o, ?_⟩, rfl⟩
    have ho : Outbox.outside o s'.outbox = some _ := ho
    simp only [machine, outside, ho, Option.map_some]

/-- A turn in which nothing fails. -/
theorem turn_carried_out {t : Nat} {s : Store} (quiet : s.outbox.Quiet) {rows : List OutboxRow}
    (hsome : rows ≠ []) (perm : rows.Perm s.outbox.backlog)
    (sorted : rows.Pairwise fun r r' => r.created_at ≤ r'.created_at) :
    ∃ steps p s', Performs (machine env) t (serve env (.worker_turn 0)) s steps p s' ∧
      s'.outbox = s.outbox.sweep (rows.take 10) := by
  obtain ⟨steps, above, hsteps⟩ := turn_performs (t := t) env.ledger s.outbox quiet hsome perm
    sorted 0
  have accepted : ∀ y ∈ steps, Accepted y.op y.res := by
    intro y hy topic key payload e heq
    have hdone : (⟨.publish topic key payload, .error e⟩ : OutboxDone) ∈ steps.map Taken.did :=
      List.mem_map.mpr ⟨y, hy, heq⟩
    rw [hsteps] at hdone
    simp only [progress, List.cons_append, List.mem_cons, List.mem_append, List.mem_flatMap,
      List.not_mem_nil, or_false] at hdone
    rcases hdone with heq | heq | ⟨m, _, heq | heq⟩ | heq <;> cases heq
  obtain ⟨steps', s', below, hs'⟩ := above.expanded Accepted carried_out drifts_below accepted rfl
  exact ⟨steps', _, s', below, hs'⟩

/-- Nothing is posted, and the backlog is gone. -/
structure Emptied (s s' : Outbox.Store) : Prop where
  backlog : s'.backlog = []
  entries : s'.ledger.entries = s.ledger.entries

/-- Turn after turn. -/
theorem emptied_quiet (n : Nat) : ∀ {ls : List KafkaLabel} {c : KafkaConf},
    c.world.store.outbox.backlog.length ≤ n → KafkaRun env (start clock broker) ls c →
      c.world.store.outbox.Quiet →
        ∃ ms d, KafkaRun env c ms d ∧ Emptied c.world.store.outbox d.world.store.outbox := by
  induction n with
  | zero =>
    intro ls c hlen _ _
    exact ⟨[], c, .nil c, List.length_eq_zero_iff.mp (Nat.le_zero.mp hlen), rfl⟩
  | succ n ih =>
    intro ls c hlen hc quiet
    by_cases hnone : c.world.store.outbox.backlog = []
    · exact ⟨[], c, .nil c, hnone, rfl⟩
    · -- The ten oldest, in their order.
      let older : OutboxRow → OutboxRow → Bool := fun r r' => r.created_at ≤ r'.created_at
      let rows := c.world.store.outbox.backlog.mergeSort older
      have perm : rows.Perm c.world.store.outbox.backlog := List.mergeSort_perm _ _
      have sorted : rows.Pairwise fun r r' => r.created_at ≤ r'.created_at := by
        have pairs : rows.Pairwise fun r r' => older r r' :=
          List.pairwise_mergeSort (by simp [older]; omega) (by simp [older]; omega) _
        exact pairs.imp fun hle => of_decide_eq_true hle
      have hsome : rows ≠ [] := fun hnil => hnone (List.Perm.eq_nil (hnil ▸ perm.symm))
      let c₁ : KafkaConf :=
        { c with pool := c.pool ++ [{ req := .worker_turn 0, prog := serve env (.worker_turn 0) }] }
      have arrival : KafkaRun env c ([] ++ [.spawn (.worker_turn 0)]) c₁ :=
        .snoc (.nil c) trivial rfl
      obtain ⟨steps, p, s', below, hs'⟩ := turn_carried_out (t := c.pool.length) quiet hsome perm
        sorted
      have hcall : c₁.pool[c.pool.length]? = some _ := List.getElem?_concat_length ..
      have turned : ∃ ms d, KafkaRun env c₁ ms d ∧ d.world.store = s' :=
        below.run hcall rfl rfl rfl
      obtain ⟨ms, d, hd, hstore⟩ := turned
      have houtbox : d.world.store.outbox = c.world.store.outbox.sweep (rows.take 10) := by
        rw [hstore, hs']
      obtain ⟨_, a, above, alike⟩ := run_above hc
      have apart := rows_apart above
      rw [alike.store] at apart
      have hleft := (backlog_left apart perm 10).length_eq
      rw [← houtbox, List.length_drop, perm.length_eq] at hleft
      have hpos : 0 < c.world.store.outbox.backlog.length := List.length_pos_iff.mpr hnone
      obtain ⟨ms', e, he, emptied⟩ := ih (by omega) (hc.append (arrival.append hd))
        (houtbox ▸ ⟨rfl, rfl, rfl⟩)
      refine ⟨_, e, (arrival.append hd).append he, emptied.backlog, ?_⟩
      rw [emptied.entries, houtbox]
      rfl

end Runs

/-- **The topic can always catch up**: whatever calls and workers have done, failed or left undone,
there is a continuation that posts nothing and after which every committed entry has its record in
the topic. -/
theorem topic_catches_up (env : Env) (clock : Nat) (broker : Kafka.Producer.Broker)
    (ls : List KafkaLabel) (c : KafkaConf) (hc : KafkaRun env (start clock broker) ls c) :
    ∃ ms d, KafkaRun env c ms d ∧
      d.world.store.outbox.ledger.entries = c.world.store.outbox.ledger.entries ∧
        ∀ entry ∈ c.world.store.outbox.ledger.entries,
          ∃ row ∈ d.world.store.outbox.ledger.outbox, row.entry_id = entry.id ∧
            Stands env d.world.store.broker row := by
  have ended : ∃ s, (Outbox.machine env.ledger.db).Drifts c.world.store.outbox s ∧ s.open_tx = [] ∧
      s.ledger.outbox = c.world.store.outbox.ledger.outbox ∧
        s.ledger.entries = c.world.store.outbox.ledger.entries :=
    reaped _ _ (List.Subset.refl _)
  obtain ⟨_, drift', hopen, _, hentries⟩ := ended
  obtain ⟨s, drift, rfl⟩ := drifts_below drift'
  have moved : ∃ ms, KafkaRun env c ms { c with world := c.world.moved s } := drift.run
  obtain ⟨ms, hmoved⟩ := moved
  have whole := hc.append hmoved
  obtain ⟨_, a, above, alike⟩ := run_above whole
  have inv := (run_kept above).inv
  rw [alike.store] at inv
  obtain ⟨ms', d, hd, emptied⟩ := emptied_quiet _ (Nat.le_refl _) whole (inv.quiet hopen)
  have same := emptied.entries.trans hentries
  refine ⟨_, d, hmoved.append hd, same, ?_⟩
  intro entry hentry
  rw [← same] at hentry
  have later := whole.append hd
  obtain ⟨row, hrow, hid⟩ := entries_linked later entry hentry
  refine ⟨row, hrow, hid, published_stands later hrow ?_⟩
  intro hnone
  have hleft : row ∈ d.world.store.outbox.backlog :=
    List.mem_filter.mpr ⟨hrow, decide_eq_true hnone⟩
  rw [emptied.backlog] at hleft
  cases hleft

/-! ## A reply that was lost -/

/-- The text of an object whose members need no escaping. -/
def object_text (payload : List (String × String)) : List UInt8 :=
  Text.utf8 ("\x7b" ++ ",".intercalate (payload.map fun (name, text) =>
    "\"" ++ name ++ "\":\"" ++ text ++ "\"") ++ "\x7d")

def sample : Env where
  ledger := Ledger.sample
  producer := Kafka.Producer.sample
  to_vec payload := object_text (payload.mergeSort fun m m' => m.1 ≤ m'.1)

/-- A call of the posting, next to Kafka. -/
def below : OutboxLabel → KafkaLabel
  | .spawn req => .spawn req
  | .run t ch => .run t { outbox := ch }
  | .drop t => .drop t
  | .env o => .env (.ledger o)

/-- A worker's operation on the row of the posting. -/
def working (kafka : Kafka.Producer.Choice) : KafkaLabel :=
  .run 1 { outbox := { rows := [posted_row "first" 10] }, kafka }

/-- The broker appends the row's record and the reply is lost. -/
def lost_reply : List KafkaLabel :=
  (post 0 "first" 10).map below ++ [.spawn (.worker_turn 0), working .acknowledged,
    working .acknowledged, working (.lost (.MessageProduction .RequestTimedOut))]

/-- The second attempt is acknowledged, and the batch committed. -/
def sent_again : List KafkaLabel := lost_reply ++ List.replicate 4 (working .acknowledged)

/-- The record is there twice, and its row is published. -/
theorem outbox_to_topic_sent_again : ∃ d : KafkaConf,
    (d.world.store.outbox.ledger.outbox.all fun row => row.published_at.isSome) = true ∧
      (d.world.store.broker.log ⟨"kova.ledger.entry.created", 0⟩).length = 2 ∧
        OnTopic sample d := by
  obtain ⟨run, checked⟩ := replayed_spec (machine sample) (serve sample) (start 0 ⟨fun _ => []⟩)
    sent_again (fun d => (d.world.store.outbox.ledger.outbox.all fun row =>
      row.published_at.isSome) &&
        decide ((d.world.store.broker.log ⟨"kova.ledger.entry.created", 0⟩).length = 2))
    (by decide +kernel)
  obtain ⟨hpublished, htwice⟩ := Bool.and_eq_true_iff.mp checked
  exact ⟨_, hpublished, of_decide_eq_true htwice,
    outbox_to_topic sample 0 ⟨fun _ => []⟩ sent_again _ run⟩

/-- The worker is dropped while it waits to try again, and the topic still catches up. -/
theorem topic_catches_up_dropped : ∃ c : KafkaConf, c.world.store.outbox.backlog.length = 1 ∧
    ∃ ms d, KafkaRun sample c ms d ∧
      d.world.store.outbox.ledger.entries = c.world.store.outbox.ledger.entries ∧
        ∀ entry ∈ c.world.store.outbox.ledger.entries,
          ∃ row ∈ d.world.store.outbox.ledger.outbox, row.entry_id = entry.id ∧
            Stands sample d.world.store.broker row := by
  obtain ⟨run, checked⟩ := replayed_spec (machine sample) (serve sample) (start 0 ⟨fun _ => []⟩)
    (lost_reply ++ [.drop 1]) (fun c => decide (c.world.store.outbox.backlog.length = 1))
    (by decide +kernel)
  exact ⟨_, of_decide_eq_true checked,
    topic_catches_up sample 0 ⟨fun _ => []⟩ (lost_reply ++ [.drop 1]) _ run⟩

end Kova.Ledger.Outbox.KafkaPublisher

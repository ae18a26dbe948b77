import Kova.Conc.History
import Kova.Kafka.Consumer
import Mathlib.Algebra.Group.Nat.Defs

/-!
# The Kafka producer

`KovaKafkaProducer::publish` as a pool of its calls, over a broker that only appends: a send that is
acknowledged has appended its record, and a send that failed may have.

- `publish_answers`: what each result says of its call. The code makes three attempts in all, with a
  pause after each transient failure, the last one included, and ends at the first other failure.
- `publish_ordered`: a record that is acknowledged stays in its partition, before everything that a
  later call appends under the same topic and key.
-/

set_option autoImplicit false

namespace Kova.Kafka.Producer

open Conc

/-! ## rdkafka -/

structure Record where
  topic : String
  key : String
  payload : List UInt8
  deriving DecidableEq

inductive RDKafkaErrorCode
  | MessageTimedOut
  | QueueFull
  | BrokerTransportFailure
  | NetworkException
  | RequestTimedOut
  | other (code : Int)
  deriving DecidableEq

/-- `rdkafka::error::KafkaError`. -/
inductive RdError
  | MessageProduction (code : RDKafkaErrorCode)
  | other (text : String)
  deriving DecidableEq

structure Delivery where
  partition : Int
  offset : Nat
  deriving DecidableEq

/-- What is left open of the library: the partition of a key, and the text of an error. The default
partitioner hashes the key, except that it draws a partition for an empty one: keys are taken not
to be empty, and the number of a topic's partitions not to change. -/
structure Env where
  partition : String → String → Int
  error_text : RdError → String

def Env.position (env : Env) (r : Record) : TopicPartition := ⟨r.topic, env.partition r.topic r.key⟩

/-- The records of each partition; a record's offset is its place. -/
structure Broker where
  log : TopicPartition → List Record

def Broker.append (s : Broker) (p : TopicPartition) (r : Record) : Broker :=
  ⟨Function.update s.log p (s.log p ++ [r])⟩

/-- What `publish` awaits. -/
inductive Op
  | send (record : Record)
  | sleep (millis : Nat)

def Op.Res : Op → Type
  | .send _ => Except RdError Delivery
  | .sleep _ => Unit

/-- How a send ends: with the acknowledgement of all replicas, with an error after the record was
appended, or with one before. -/
inductive Choice
  | acknowledged
  | lost (e : RdError)
  | failed (e : RdError)

/-- A record of another producer. -/
structure Outside where
  partition : TopicPartition
  record : Record

def exec (env : Env) (ch : Choice) (s : Broker) : (op : Op) → Option (op.Res × Broker)
  | .send r =>
    match ch with
    | .acknowledged =>
      some (.ok ⟨env.partition r.topic r.key, (s.log (env.position r)).length⟩,
        s.append (env.position r) r)
    | .lost e => some (.error e, s.append (env.position r) r)
    | .failed e => some (.error e, s)
  | .sleep _ => some ((), s)

def machine (env : Env) : Machine Broker Op Op.Res Choice Outside where
  exec _ ch s op := exec env ch s op
  env o s := some (s.append o.partition o.record)

/-! ## producer.rs -/

def MAX_RETRIES : Nat := 3
def BASE_BACKOFF_MS : Nat := 50

/-- The errors of `publish`. -/
inductive PublishError
  | Rdkafka (e : RdError)
  | Serialize (e : String)
  | RetriesExhausted (attempts : Nat) (last_error : String)
  deriving DecidableEq

abbrev Async := Prog Op Op.Res PublishError

def is_transient : RdError → Bool
  | .MessageProduction code =>
    match code with
    | .MessageTimedOut | .QueueFull | .BrokerTransportFailure | .NetworkException
    | .RequestTimedOut => true
    | .other _ => false
  | .other _ => false

/-- `BASE_BACKOFF_MS * (1 << (attempt - 1))`. -/
def backoff (attempt : Nat) : Nat := BASE_BACKOFF_MS * 2 ^ (attempt - 1)

/-- The loop over the attempts that are left. -/
def attempts (env : Env) (record : Record) : List Nat → String → Async Unit
  | [], last_err => .raise (.RetriesExhausted MAX_RETRIES last_err)
  | attempt :: rest, _ =>
    .await (.send record) fun
      | .ok _ => .ret ()
      | .error err =>
        if is_transient err then
          .await (.sleep (backoff attempt)) fun _ => attempts env record rest (env.error_text err)
        else .raise (.Rdkafka err)

/-- `publish`; `event` is what `serde_json::to_vec` makes of the event. -/
def publish (env : Env) (topic key : String) (event : Except String (List UInt8)) : Async Unit :=
  match event with
  | .error e => .raise (.Serialize e)
  | .ok payload => attempts env ⟨topic, key, payload⟩ (List.range' 1 MAX_RETRIES) ""

structure Request where
  topic : String
  key : String
  event : Except String (List UInt8)
  deriving DecidableEq

def serve (env : Env) (req : Request) : Async Unit := publish env req.topic req.key req.event

/-- The record that a request sends. -/
def Request.record (req : Request) : Option Record :=
  req.event.toOption.map fun payload => ⟨req.topic, req.key, payload⟩

abbrev PublishConf := Conf Broker Request Op Op.Res PublishError Unit

abbrev PublishLabel := Label Request Choice Outside

abbrev PublishEvent := Event Broker Request Op Op.Res

abbrev PublishDone := Done Op Op.Res

/-- The runs of any number of calls, from any broker. -/
abbrev PublishRun (env : Env) : PublishConf → List PublishLabel → PublishConf → Prop :=
  Run (machine env) (serve env) .all

/-! ## The attempts of a call -/

def sent (r : Record) (res : Except RdError Delivery) : PublishDone := ⟨.send r, res⟩

/-- Attempts that failed for the time being, each with its pause. -/
def failures (r : Record) (attempt : Nat) : List RdError → List PublishDone
  | [] => []
  | e :: es => sent r (.error e) :: ⟨.sleep (backoff attempt), ()⟩ :: failures r (attempt + 1) es

/-- What a call of `publish` has done by the time it ends. -/
inductive Answered (env : Env) (req : Request) : List PublishDone → Except PublishError Unit → Prop
  | unserialized (e : String) (hevent : req.event = .error e) :
      Answered env req [] (.error (.Serialize e))
  | delivered {r : Record} (es : List RdError) (delivery : Delivery) (hr : req.record = some r)
      (few : es.length < MAX_RETRIES) (transient : ∀ e ∈ es, is_transient e = true) :
      Answered env req (failures r 1 es ++ [sent r (.ok delivery)]) (.ok ())
  | permanent {r : Record} (es : List RdError) (e : RdError) (hr : req.record = some r)
      (few : es.length < MAX_RETRIES) (transient : ∀ e ∈ es, is_transient e = true)
      (hpermanent : is_transient e = false) :
      Answered env req (failures r 1 es ++ [sent r (.error e)]) (.error (.Rdkafka e))
  | exhausted {r : Record} (es : List RdError) (e : RdError) (hr : req.record = some r)
      (few : es.length + 1 = MAX_RETRIES) (transient : ∀ e' ∈ es ++ [e], is_transient e' = true) :
      Answered env req (failures r 1 (es ++ [e]))
        (.error (.RetriesExhausted MAX_RETRIES (env.error_text e)))

/-- The sends of a call so far. -/
def sends (h : List PublishDone) : Nat :=
  h.countP fun x => match x.op with
    | .send _ => true
    | .sleep _ => false

/-- A call sends the record of its request, and as often as there are attempts. -/
def Attempting (req : Request) (h : List PublishDone) : Op → Prop
  | .send r => req.record = some r ∧ sends h < MAX_RETRIES
  | .sleep _ => True

theorem failures_append (r : Record) (es : List RdError) (e : RdError) (attempt : Nat) :
    failures r attempt (es ++ [e]) = failures r attempt es ++
      [sent r (.error e), ⟨.sleep (backoff (attempt + es.length)), ()⟩] := by
  induction es generalizing attempt with
  | nil => rfl
  | cons e' es ih =>
    rw [List.cons_append, failures, ih, failures, List.cons_append, List.cons_append,
      List.length_cons, Nat.add_right_comm, Nat.add_assoc]

theorem sends_failures (r : Record) (es : List RdError) (attempt : Nat) :
    sends (failures r attempt es) = es.length := by
  induction es generalizing attempt with
  | nil => rfl
  | cons e es ih =>
    rw [failures, sends, List.countP_cons, List.countP_cons, ← sends, ih, List.length_cons]
    rfl

/-- The loop, after the attempts that have failed. -/
theorem attempts_guarded {env : Env} {req : Request} {r : Record} (hr : req.record = some r)
    (left : Nat) (es : List RdError) (last_err : String) (hleft : es.length + left = MAX_RETRIES)
    (transient : ∀ e ∈ es, is_transient e = true)
    (hlast : ∀ es' e, es = es' ++ [e] → last_err = env.error_text e) :
    Guarded (Attempting req) (Answered env req)
      (attempts env r (List.range' (1 + es.length) left) last_err) (failures r 1 es) := by
  induction left generalizing es last_err with
  | zero =>
    rcases List.eq_nil_or_concat es with rfl | ⟨es', e, rfl⟩
    · cases hleft
    · rw [List.concat_eq_append] at hleft transient hlast ⊢
      rw [hlast es' e rfl]
      refine .exhausted es' e hr ?_ transient
      simpa using hleft
  | succ left ih =>
    have few : es.length < MAX_RETRIES := by omega
    rw [List.range'_succ, attempts]
    refine guarded_await ⟨hr, by rwa [sends_failures]⟩ fun res => ?_
    cases res with
    | ok delivery => exact .delivered es delivery hr few transient
    | error err =>
      show Guarded _ _ (if is_transient err then _ else _) _
      split
      · next htransient =>
        refine guarded_await trivial ?_
        rintro ⟨⟩
        have next := ih (es ++ [err]) (env.error_text err) (by simp; omega) ?_ ?_
        · rw [failures_append] at next
          simpa [sent, Nat.add_assoc] using next
        · intro e he
          rcases List.mem_append.mp he with he | he
          · exact transient e he
          · rwa [List.mem_singleton.mp he]
        · intro es' e heq
          rw [(List.cons.inj (List.append_inj' heq rfl).2).1]
      · next hpermanent =>
        exact .permanent es err hr few transient (Bool.eq_false_iff.mpr hpermanent)

/-- **A call of `publish`** attempts its own record only, and its result says what it has done. -/
theorem serve_guarded (env : Env) (req : Request) :
    Guarded (Attempting req) (Answered env req) (serve env req) [] := by
  obtain ⟨topic, key, event⟩ := req
  cases event with
  | error e => exact .unserialized e rfl
  | ok payload =>
    exact attempts_guarded (r := ⟨topic, key, payload⟩) rfl MAX_RETRIES [] "" rfl
      (fun _ he => nomatch he) fun es' e heq => absurd heq.symm (by simp)

/-! ## Runs -/

section Runs

variable {env : Env} {s : Broker} {ls ms : List PublishLabel} {c d : PublishConf}

@[simp] theorem Broker.log_append_self (s : Broker) (p : TopicPartition) (r : Record) :
    (s.append p r).log p = s.log p ++ [r] := Function.update_self ..

theorem Broker.log_append_other (s : Broker) {p q : TopicPartition} (r : Record) (h : q ≠ p) :
    (s.append p r).log q = s.log q := Function.update_of_ne h ..

theorem Broker.prefix_append (s : Broker) (p q : TopicPartition) (r : Record) :
    s.log q <+: (s.append p r).log q := by
  by_cases h : q = p
  · subst h
    rw [log_append_self]
    exact List.prefix_append _ _
  · exact ⟨[], by rw [List.append_nil, log_append_other s r h]⟩

/-- **What one operation does**: a send appends its record or leaves the broker alone, and one that
is acknowledged has appended it. -/
theorem exec_cases {ch : Choice} {s s' : Broker} {op : Op} {res : op.Res}
    (h : exec env ch s op = some (res, s')) :
    s' = s ∨ ∃ r, op = .send r ∧ s' = s.append (env.position r) r := by
  cases op with
  | sleep millis =>
    cases h
    exact .inl rfl
  | send r =>
    cases ch with
    | acknowledged | lost e =>
      cases h
      exact .inr ⟨r, rfl, rfl⟩
    | failed e =>
      cases h
      exact .inl rfl

theorem exec_acknowledged {ch : Choice} {s s' : Broker} {r : Record} {delivery : Delivery}
    (h : exec env ch s (.send r) = some (.ok delivery, s')) :
    delivery = ⟨env.partition r.topic r.key, (s.log (env.position r)).length⟩ ∧
      s' = s.append (env.position r) r := by
  cases ch with
  | acknowledged =>
    cases h
    exact ⟨rfl, rfl⟩
  | lost e | failed e => cases h

/-- Partitions only grow. -/
theorem log_follows (env : Env) :
    Follows (machine env) fun s s' => ∀ p, s.log p <+: s'.log p where
  refl s p := List.prefix_rfl
  trans h h' p := (h p).trans (h' p)
  exec := by
    intro t ch s op res s' h p
    rcases exec_cases h with rfl | ⟨r, _, rfl⟩
    · exact List.prefix_rfl
    · exact s.prefix_append _ p r
  env := by
    intro o s s' h p
    cases h
    exact s.prefix_append _ p _

/-- **An acknowledged record** stands in the broker where the acknowledgement says. -/
theorem acknowledged_stored (h : PublishRun env (.init s) ls d) {e : PublishEvent}
    (he : e ∈ d.world.log) {r : Record} {delivery : Delivery}
    (hdid : e.did = sent r (.ok delivery)) :
    delivery.partition = env.partition r.topic r.key ∧
      (d.world.store.log (env.position r))[delivery.offset]? = some r := by
  obtain ⟨_, ch, _, hexec⟩ := h.did he hdid
  obtain ⟨rfl, hpost⟩ := exec_acknowledged hexec
  have later := h.since (log_follows env) he (env.position r)
  rw [hpost, Broker.log_append_self] at later
  obtain ⟨rest, hlog⟩ := later
  refine ⟨rfl, ?_⟩
  rw [← hlog]
  simp

/-- What holds of the calls at the end of a run. -/
structure Published (env : Env) (d : PublishConf) : Prop where
  answered : ∀ t req res, d.returned t req res → Answered env req (history t d.world.log) res
  delivered : ∀ t req, d.returned t req (.ok ()) → ∃ r, req.record = some r ∧
    ∃ offset : Nat, (d.world.store.log (env.position r))[offset]? = some r
  own : ∀ e ∈ d.world.log, ∀ r, e.op = .send r → e.req.record = some r
  few : ∀ t, sends (history t d.world.log) ≤ MAX_RETRIES

theorem sends_append (h : List PublishDone) (x : PublishDone) :
    sends (h ++ [x]) = sends h + sends [x] := by
  rw [sends, List.countP_append]
  rfl

/-- A call sends no more often than there are attempts. -/
theorem few_sends (h : PublishRun env (.init s) ls d) (t : Nat) :
    sends (history t d.world.log) ≤ MAX_RETRIES := by
  refine h.world_invariant (P := fun w => sends (history t w.log) ≤ MAX_RETRIES)
    (serve_guarded env) ?_ ?_ (Nat.zero_le _)
  · intro ms c e _ before _ _ hguard
    by_cases htid : e.tid = t
    · subst htid
      rw [World.push_log, history_append_self _ rfl, sends_append]
      generalize hdid : e.did = x
      obtain ⟨op, res⟩ := x
      have hop : e.op = op := congrArg Done.op hdid
      rw [hop] at hguard
      cases op with
      | send r => exact hguard.2
      | sleep millis => exact before
    · rwa [World.push_log, history_append_other _ htid]
  · intro ms c o s' _ before _
    exact before

/-- The record of a call that returned is in the log. -/
theorem delivered_record (h : PublishRun env (.init s) ls d) {t : Nat} {req : Request}
    (returned : d.returned t req (.ok ())) : ∃ r, req.record = some r ∧
      ∃ offset : Nat, (d.world.store.log (env.position r))[offset]? = some r := by
  generalize hhist : history t d.world.log = hist
  have answered := h.answer (serve_guarded env) returned
  rw [hhist] at answered
  cases answered with
  | @delivered r es delivery hr =>
    have hmem : sent r (.ok delivery) ∈ history t d.world.log := by
      rw [hhist]
      exact List.mem_append_right _ List.mem_cons_self
    obtain ⟨e, he, _, hdid⟩ := mem_history.mp hmem
    exact ⟨r, hr, delivery.offset, (acknowledged_stored h he hdid).2⟩

/-- **What each result says of its call**, in every run: the attempts that it made, at most three,
all of its own record; and what is acknowledged is in the log. -/
theorem publish_answers (env : Env) (s : Broker) (ls : List PublishLabel) (d : PublishConf)
    (run : PublishRun env (.init s) ls d) : Published env d where
  answered t req res returned := run.answer (serve_guarded env) returned
  delivered t req returned := delivered_record run returned
  own e he r hop := by
    obtain ⟨before, after, split⟩ := List.append_of_mem he
    have hguard := run.guard (serve_guarded env) split
    rw [hop] at hguard
    exact hguard.1
  few t := few_sends run t

/-- The offset that a send's record has, if it is appended. -/
def offset (env : Env) (r : Record) (e : PublishEvent) : Nat := (e.pre.log (env.position r)).length

/-- **Records of one key keep the order of their calls**: a record that is acknowledged has a place
in its partition before everything that a call arriving later appends under the same topic and
key. -/
theorem publish_ordered (env : Env) (s : Broker) (ls : List PublishLabel) (c : PublishConf)
    (t : Nat) (req : Request) (run : PublishRun env (.init s) ls c) (returned : c.returned t req (.ok ())) :
    ∃ r, req.record = some r ∧ ∃ o : Nat, ∀ (ms : List PublishLabel) (d : PublishConf),
      PublishRun env c ms d → (d.world.store.log (env.position r))[o]? = some r ∧
        ∀ e ∈ d.world.log, c.pool.length ≤ e.tid → ∀ r', e.op = .send r' →
          r'.topic = r.topic → r'.key = r.key → o < offset env r' e := by
  obtain ⟨r, hr, o, ho⟩ := delivered_record run returned
  refine ⟨r, hr, o, ?_⟩
  intro ms d later
  have grown : ∀ {s' : Broker}, (∀ p, c.world.store.log p <+: s'.log p) →
      (s'.log (env.position r))[o]? = some r := by
    intro s' hprefix
    obtain ⟨rest, hlog⟩ := hprefix (env.position r)
    rw [← hlog, List.getElem?_append_left (List.getElem?_eq_some_iff.mp ho).1]
    exact ho
  refine ⟨grown (later.follows (log_follows env)), ?_⟩
  intro e he hnew r' hop htopic hkey
  obtain ⟨new, hlog⟩ := later.log_prefix
  have hnot : e ∉ c.world.log := by
    intro hold
    obtain ⟨call, hcall, _⟩ := (run.obeys (serve_guarded env)).called e hold
    have hlt := (List.getElem?_eq_some_iff.mp hcall).1
    omega
  rw [← hlog] at he
  obtain ⟨before, after, split⟩ := List.append_of_mem ((List.mem_append.mp he).resolve_left hnot)
  obtain ⟨_, c', hrun, hworld, _⟩ := later.at_event hlog.symm split
  have hthere := grown (hrun.follows (log_follows env))
  rw [hworld] at hthere
  have hposition : env.position r' = env.position r := by
    rw [Env.position, Env.position, htopic, hkey]
  rw [offset, hposition]
  exact (List.getElem?_eq_some_iff.mp hthere).1

/-! ### A message that timed out -/

def sample : Env where
  partition _ _ := 0
  error_text _ := "Message production error: MessageTimedOut"

def sample_request : Request := ⟨"kova.payment.initiated", "01", .ok [123, 125]⟩

/-- The first send of the call is appended and times out, and the second is acknowledged. -/
def twice_sent : List PublishLabel :=
  [.spawn sample_request, .run 0 (.lost (.MessageProduction .MessageTimedOut)),
    .run 0 .acknowledged, .run 0 .acknowledged]

theorem twice_sent_run : PublishRun sample (.init ⟨fun _ => []⟩) twice_sent
    (replayed (machine sample) (serve sample) (.init ⟨fun _ => []⟩) twice_sent) ∧
      (replayed (machine sample) (serve sample) (.init ⟨fun _ => []⟩) twice_sent).succeeded 0
        sample_request = true :=
  replayed_spec (machine sample) (serve sample) (.init ⟨fun _ => []⟩) twice_sent
    (fun d => d.succeeded 0 sample_request) (by decide +kernel)

/-- The call has returned, and its record stands there twice. -/
theorem publish_answers_retried : ∃ d : PublishConf,
    (d.world.store.log ⟨"kova.payment.initiated", 0⟩).length = 2 ∧ Published sample d := by
  refine ⟨_, ?_, publish_answers sample _ twice_sent _ twice_sent_run.1⟩
  decide +kernel

theorem publish_ordered_retried : ∃ c : PublishConf, ∃ o : Nat, ∃ r,
    ∀ (ms : List PublishLabel) (d : PublishConf), PublishRun sample c ms d →
      (d.world.store.log (sample.position r))[o]? = some r ∧
        ∀ e ∈ d.world.log, c.pool.length ≤ e.tid → ∀ r', e.op = .send r' →
          r'.topic = r.topic → r'.key = r.key → o < offset sample r' e := by
  obtain ⟨⟨⟩, returned⟩ := returned_ok twice_sent_run.2
  obtain ⟨r, _, o, ordered⟩ :=
    publish_ordered sample _ twice_sent _ 0 sample_request twice_sent_run.1 returned
  exact ⟨_, o, r, ordered⟩

end Runs

end Kova.Kafka.Producer

import Mathlib.Logic.Function.Basic

/-!
# The Kafka consumer

`KovaKafkaConsumer` over what it relies on of librdkafka (`RdKafka`): the offset after a message is
stored when the message is handed to the application, unless that is configured away,
`store_offset` stores the one after an offset, and `commit_consumer_state` commits what is stored,
for all partitions.
-/

set_option autoImplicit false

namespace Kova.Kafka

structure TopicPartition where
  topic : String
  partition : Int
  deriving DecidableEq

structure OwnedMessage where
  topic : String
  partition : Int
  offset : Nat
  payload : Option (List UInt8)
  deriving DecidableEq

def OwnedMessage.position (msg : OwnedMessage) : TopicPartition := ⟨msg.topic, msg.partition⟩

/-- The errors of the consumer. -/
inductive KafkaError
  | Rdkafka (e : String)
  | Deserialize (topic source : String)
  | CommitFailed (e : String)
  deriving DecidableEq

/-! ## librdkafka -/

/-- The properties that have been set. -/
abbrev ClientConfig := List (String × String)

/-- What a consumer has stored to commit, and what it has committed to the broker. -/
structure Offsets where
  stored : TopicPartition → Option Nat
  committed : TopicPartition → Option Nat

/-- Nothing yet. -/
def Offsets.none : Offsets := ⟨fun _ => .none, fun _ => .none⟩

/-- The offset after a message's. -/
def Offsets.store (o : Offsets) (p : TopicPartition) (offset : Nat) : Offsets :=
  { o with stored := Function.update o.stored p (some (offset + 1)) }

/-- Everything stored. -/
def Offsets.flush (o : Offsets) : Offsets :=
  { o with committed := fun p => (o.stored p).or (o.committed p) }

@[simp] theorem Offsets.committed_flush (o : Offsets) (p : TopicPartition) :
    o.flush.committed p = (o.stored p).or (o.committed p) := rfl

@[simp] theorem Offsets.stored_store_self (o : Offsets) (p : TopicPartition) (offset : Nat) :
    (o.store p offset).stored p = some (offset + 1) := Function.update_self ..

theorem Offsets.stored_store_other (o : Offsets) {p q : TopicPartition} (offset : Nat)
    (h : q ≠ p) : (o.store p offset).stored q = o.stored q := Function.update_of_ne h ..

/-- **What the code relies on** of the library. -/
structure RdKafka where
  /-- A `StreamConsumer`. -/
  Inner : Type
  /-- What a call leaves open. -/
  Choice : Type
  offsets : Inner → Offsets
  /-- `enable.auto.offset.store`. -/
  auto_offset_store : Inner → Bool
  create : ClientConfig → Choice → Except String Inner
  subscribe : Inner → List String → Choice → Except String Inner
  /-- A message is handed to the application. -/
  deliver : Inner → OwnedMessage → Inner
  store_offset : Inner → TopicPartition → Nat → Choice → Except String Unit × Inner
  commit_consumer_state : Inner → Choice → Except String Unit × Inner
  created : ∀ config ch s, create config ch = .ok s → offsets s = .none ∧
    (config.lookup "enable.auto.offset.store" = none → auto_offset_store s = true)
  subscribed : ∀ s topics ch s', subscribe s topics ch = .ok s' →
    offsets s' = offsets s ∧ auto_offset_store s' = auto_offset_store s
  delivered : ∀ s msg, auto_offset_store s = true →
    offsets (deliver s msg) = (offsets s).store msg.position msg.offset ∧
      auto_offset_store (deliver s msg) = true
  offset_stored : ∀ s p offset ch s', store_offset s p offset ch = (.ok (), s') →
    offsets s' = (offsets s).store p offset ∧ auto_offset_store s' = auto_offset_store s
  offset_refused : ∀ s p offset ch e s', store_offset s p offset ch = (.error e, s') →
    offsets s' = offsets s ∧ auto_offset_store s' = auto_offset_store s
  state_committed : ∀ s ch s', commit_consumer_state s ch = (.ok (), s') →
    offsets s' = (offsets s).flush ∧ auto_offset_store s' = auto_offset_store s
  /-- The broker may have committed all the same. -/
  commit_failed : ∀ s ch e s', commit_consumer_state s ch = (.error e, s') →
    (offsets s' = offsets s ∨ offsets s' = (offsets s).flush) ∧
      auto_offset_store s' = auto_offset_store s

/-- A consumer written out: whether offsets are stored as messages are handed out, and the
offsets. -/
structure Documented where
  auto_offset_store : Bool
  offsets : Offsets

/-- A library of this kind; a call may fail with an error, and then changes nothing. -/
def documented : RdKafka where
  Inner := Documented
  Choice := Option String
  offsets s := s.offsets
  auto_offset_store s := s.auto_offset_store
  create config ch :=
    match ch with
    | some e => .error e
    | none => .ok ⟨config.lookup "enable.auto.offset.store" != some "false", .none⟩
  subscribe s _ ch :=
    match ch with
    | some e => .error e
    | none => .ok s
  deliver s msg :=
    if s.auto_offset_store then { s with offsets := s.offsets.store msg.position msg.offset } else s
  store_offset s p offset ch :=
    match ch with
    | some e => (.error e, s)
    | none => (.ok (), { s with offsets := s.offsets.store p offset })
  commit_consumer_state s ch :=
    match ch with
    | some e => (.error e, s)
    | none => (.ok (), { s with offsets := s.offsets.flush })
  created config ch s h := by
    cases ch with
    | some e => cases h
    | none =>
      cases h
      refine ⟨rfl, fun hunset => ?_⟩
      rw [hunset]
      rfl
  subscribed s topics ch s' h := by
    cases ch with
    | some e => cases h
    | none =>
      cases h
      exact ⟨rfl, rfl⟩
  delivered s msg h := by
    rw [if_pos h]
    exact ⟨rfl, h⟩
  offset_stored s p offset ch s' h := by
    cases ch with
    | some e => cases h
    | none =>
      cases h
      exact ⟨rfl, rfl⟩
  offset_refused s p offset ch e s' h := by
    cases ch with
    | some e =>
      cases h
      exact ⟨rfl, rfl⟩
    | none => cases h
  state_committed s ch s' h := by
    cases ch with
    | some e => cases h
    | none =>
      cases h
      exact ⟨rfl, rfl⟩
  commit_failed s ch e s' h := by
    cases ch with
    | some e =>
      cases h
      exact ⟨.inl rfl, rfl⟩
    | none => cases h

/-! ## `KovaKafkaConsumer` -/

namespace KovaKafkaConsumer

/-- What `new` sets. -/
def config (brokers group_id : String) : ClientConfig :=
  [("bootstrap.servers", brokers),
   ("group.id", group_id),
   ("enable.auto.commit", "false"),
   ("auto.offset.reset", "earliest"),
   ("session.timeout.ms", "10000"),
   ("fetch.min.bytes", "1")]

/-- What the stream makes of what the library gives it. -/
def consume {E : Type} (from_slice : List UInt8 → Except String E) :
    Except String OwnedMessage → Except KafkaError (E × OwnedMessage)
  | .error e => .error (.Rdkafka e)
  | .ok msg =>
    match from_slice (msg.payload.getD []) with
    | .error source => .error (.Deserialize msg.topic source)
    | .ok event => .ok (event, msg)

variable (K : RdKafka)

def new (brokers group_id : String) (topics : List String) (ch : K.Choice) :
    Except KafkaError K.Inner :=
  match K.create (config brokers group_id) ch with
  | .error e => .error (.Rdkafka e)
  | .ok inner =>
    match K.subscribe inner topics ch with
    | .error e => .error (.Rdkafka e)
    | .ok inner => .ok inner

/-- The offset is stored, then what is stored is flushed. -/
def commit_offset (self : K.Inner) (msg : OwnedMessage) (storing committing : K.Choice) :
    Except KafkaError Unit × K.Inner :=
  match K.store_offset self msg.position msg.offset storing with
  | (.error e, self) => (.error (.CommitFailed e), self)
  | (.ok (), self) =>
    match K.commit_consumer_state self committing with
    | (.error e, self) => (.error (.CommitFailed e), self)
    | (.ok (), self) => (.ok (), self)

variable {K} {self : K.Inner}

/-- A consumer starts with nothing, and stores what it hands out. -/
theorem new_spec {brokers group_id : String} {topics : List String} {ch : K.Choice}
    (h : new K brokers group_id topics ch = .ok self) :
    K.offsets self = .none ∧ K.auto_offset_store self = true := by
  unfold new at h
  split at h
  · cases h
  · next inner hcreate =>
    split at h
    · cases h
    · next inner' hsubscribe =>
      cases h
      obtain ⟨hnone, hauto⟩ := K.created _ _ _ hcreate
      obtain ⟨hsame, hauto'⟩ := K.subscribed _ _ _ _ hsubscribe
      exact ⟨hsame.trans hnone, hauto'.trans (hauto rfl)⟩

/-- **What a commit can do**: nothing, where it fails, or store the message's offset, or flush
everything stored as well, which it has done where it succeeds. -/
theorem commit_offset_spec (self : K.Inner) (msg : OwnedMessage) (storing committing : K.Choice) :
    K.auto_offset_store (commit_offset K self msg storing committing).2 =
        K.auto_offset_store self ∧
      ((K.offsets (commit_offset K self msg storing committing).2 =
            ((K.offsets self).store msg.position msg.offset).flush) ∨
        (∃ e, (commit_offset K self msg storing committing).1 = .error (.CommitFailed e)) ∧
          (K.offsets (commit_offset K self msg storing committing).2 = K.offsets self ∨
            K.offsets (commit_offset K self msg storing committing).2 =
              (K.offsets self).store msg.position msg.offset)) := by
  unfold commit_offset
  split
  · next e self' hstore =>
    obtain ⟨hsame, hauto⟩ := K.offset_refused _ _ _ _ _ _ hstore
    exact ⟨hauto, .inr ⟨⟨e, rfl⟩, .inl hsame⟩⟩
  · next self' hstore =>
    obtain ⟨hstored, hauto⟩ := K.offset_stored _ _ _ _ _ hstore
    split
    · next e self'' hcommit =>
      obtain ⟨hsame | hflushed, hauto'⟩ := K.commit_failed _ _ _ _ hcommit
      · exact ⟨hauto'.trans hauto, .inr ⟨⟨e, rfl⟩, .inr (hsame.trans hstored)⟩⟩
      · exact ⟨hauto'.trans hauto, .inl (hflushed.trans (by rw [hstored]))⟩
    · next self'' hcommit =>
      obtain ⟨hflushed, hauto'⟩ := K.state_committed _ _ _ hcommit
      exact ⟨hauto'.trans hauto, .inl (hflushed.trans (by rw [hstored]))⟩

end KovaKafkaConsumer

end Kova.Kafka

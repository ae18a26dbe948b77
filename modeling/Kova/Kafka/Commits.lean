import Kova.Kafka.Consumer
import Mathlib.Data.List.Induction

/-!
# What a commit commits

`commit_offset` means to commit one message. It flushes what is stored for every partition, and the
library stores an offset as soon as it hands a message out. So a call commits past a message that
nobody has processed where such a message has been handed out in another partition; where every
other partition is caught up at each call, nothing is skipped (`never_skips_iff`).
-/

set_option autoImplicit false

namespace Kova.Kafka

open KovaKafkaConsumer

variable {K : RdKafka}

/-- What happens at a consumer: its stream gives something, or a message is committed. -/
inductive Call (K : RdKafka)
  | receive (msg_result : Except String OwnedMessage)
  | commit_offset (msg : OwnedMessage) (storing committing : K.Choice)

def step (s : K.Inner) : Call K → K.Inner
  | .receive (.ok msg) => K.deliver s msg
  | .receive (.error _) => s
  | .commit_offset msg storing committing => (commit_offset K s msg storing committing).2

def run (s : K.Inner) (calls : List (Call K)) : K.Inner := calls.foldl step s

/-- The message that `commit_offset` is called for. -/
def Call.commits : Call K → Option OwnedMessage
  | .receive _ => none
  | .commit_offset msg _ _ => some msg

def committing_calls (calls : List (Call K)) : List OwnedMessage := calls.filterMap Call.commits

/-- The offset of a partition, if it has one, is not greater than one more than that of a message of
the partition. -/
def CoveredAt (messages : List OwnedMessage) (p : TopicPartition) (offset : Option Nat) : Prop :=
  ∀ c, offset = some c → ∃ msg ∈ messages, msg.position = p ∧ c ≤ msg.offset + 1

/-- Whatever has been committed, `commit_offset` has been called for. -/
def Covered (messages : List OwnedMessage) (o : Offsets) : Prop :=
  ∀ p, CoveredAt messages p (o.committed p)

/-- At every moment. -/
def NeverSkips (s : K.Inner) (calls : List (Call K)) : Prop :=
  ∀ before after, calls = before ++ after →
    Covered (committing_calls before) (K.offsets (run s before))

/-- Every other partition is caught up: nothing is stored there that `commit_offset` has not been
called for. -/
def CaughtUp (messages : List OwnedMessage) (msg : OwnedMessage) (o : Offsets) : Prop :=
  ∀ p, p ≠ msg.position → CoveredAt messages p (o.stored p)

section

variable {s : K.Inner} {calls before : List (Call K)} {messages messages' : List OwnedMessage}
  {p : TopicPartition} {offset : Option Nat} {msg : OwnedMessage}

theorem run_snoc (s : K.Inner) (before : List (Call K)) (c : Call K) :
    run s (before ++ [c]) = step (run s before) c := by
  rw [run, List.foldl_append]
  rfl

theorem committing_snoc (before : List (Call K)) (c : Call K) :
    committing_calls (before ++ [c]) = committing_calls before ++ c.commits.toList := by
  rw [committing_calls, List.filterMap_append]
  cases h : c.commits with
  | none => simp [h, committing_calls]
  | some msg => simp [h, committing_calls]

theorem CoveredAt.mono (h : CoveredAt messages p offset) (hsub : messages ⊆ messages') :
    CoveredAt messages' p offset := by
  intro c hc
  obtain ⟨msg, hmsg, hp, hle⟩ := h c hc
  exact ⟨msg, hsub hmsg, hp, hle⟩

theorem Covered.mono {o : Offsets} (h : Covered messages o) (hsub : messages ⊆ messages') :
    Covered messages' o := fun p => (h p).mono hsub

/-- A flush commits what is stored, and keeps what is committed elsewhere. -/
theorem Covered.flush {o : Offsets} (h : Covered messages o) (hcaught : CaughtUp messages msg o) :
    Covered (messages ++ [msg]) (o.store msg.position msg.offset).flush := by
  have hsub : messages ⊆ messages ++ [msg] := List.subset_append_left _ _
  intro p c hc
  by_cases hp : p = msg.position
  · subst hp
    rw [Offsets.committed_flush, Offsets.stored_store_self, Option.some_or] at hc
    obtain rfl : msg.offset + 1 = c := Option.some.inj hc
    exact ⟨msg, List.mem_append_right _ (List.mem_singleton_self _), rfl, Nat.le_refl _⟩
  · rw [Offsets.committed_flush, Offsets.stored_store_other o _ hp] at hc
    rcases Option.or_eq_some_iff.mp hc with hstored | ⟨_, hcommitted⟩
    · exact (hcaught p hp).mono hsub c hstored
    · exact (h p).mono hsub c hcommitted

/-- **One call** keeps what is committed covered. -/
theorem Covered.step (h : Covered messages (K.offsets s)) (hauto : K.auto_offset_store s = true)
    (c : Call K) (hcaught : ∀ msg, c.commits = some msg → CaughtUp messages msg (K.offsets s)) :
    Covered (messages ++ c.commits.toList) (K.offsets (step s c)) ∧
      K.auto_offset_store (step s c) = true := by
  cases c with
  | receive msg_result =>
    rw [Call.commits, Option.toList_none, List.append_nil]
    cases msg_result with
    | error e => exact ⟨h, hauto⟩
    | ok msg =>
      obtain ⟨hstored, hauto'⟩ := K.delivered s msg hauto
      rw [Kafka.step, hstored]
      exact ⟨h, hauto'⟩
  | commit_offset msg storing committing =>
    have hsub : messages ⊆ messages ++ [msg] := List.subset_append_left _ _
    obtain ⟨hauto', hoffsets⟩ := commit_offset_spec s msg storing committing
    refine ⟨?_, hauto'.trans hauto⟩
    rw [Call.commits, Option.toList_some, Kafka.step]
    rcases hoffsets with hflushed | ⟨_, hsame | hstored⟩
    · rw [hflushed]
      exact h.flush (hcaught msg rfl)
    · rw [hsame]
      exact h.mono hsub
    · rw [hstored]
      exact h.mono hsub

/-- The calls of a run each find the other partitions caught up. -/
def AllCaughtUp (s : K.Inner) (calls : List (Call K)) : Prop :=
  ∀ before msg storing committing after,
    calls = before ++ .commit_offset msg storing committing :: after →
      CaughtUp (committing_calls before) msg (K.offsets (run s before))

/-- **A run** whose calls find the other partitions caught up. -/
theorem run_covered (hnone : K.offsets s = .none) (hauto : K.auto_offset_store s = true)
    (hcaught : AllCaughtUp s calls) : ∀ before after, calls = before ++ after →
      Covered (committing_calls before) (K.offsets (run s before)) ∧
        K.auto_offset_store (run s before) = true := by
  intro before
  induction before using List.reverseRecOn with
  | nil =>
    intro after _
    refine ⟨?_, hauto⟩
    rw [show run s [] = s from rfl, hnone]
    intro p c hc
    cases hc
  | append_singleton before c ih =>
    intro after hsplit
    rw [List.append_assoc, List.singleton_append] at hsplit
    obtain ⟨hcovered, hauto'⟩ := ih (c :: after) hsplit
    rw [committing_snoc, run_snoc]
    refine hcovered.step hauto' c ?_
    intro msg hmsg
    cases c with
    | receive msg_result => cases hmsg
    | commit_offset msg' storing committing =>
      cases hmsg
      exact hcaught before msg storing committing after hsplit

/-- A call that returns has flushed what was stored. -/
theorem caught_up_of_covered {storing committing : K.Choice}
    (hok : (commit_offset K s msg storing committing).1 = .ok ())
    (h : Covered (messages ++ [msg]) (K.offsets (commit_offset K s msg storing committing).2)) :
    CaughtUp messages msg (K.offsets s) := by
  obtain ⟨_, hflushed | ⟨⟨e, herror⟩, _⟩⟩ := commit_offset_spec s msg storing committing
  · intro p hp c hc
    have hcommitted : (K.offsets (commit_offset K s msg storing committing).2).committed p =
        some c := by
      rw [hflushed, Offsets.committed_flush, Offsets.stored_store_other _ _ hp, hc,
        Option.some_or]
    obtain ⟨msg', hmsg', hposition, hle⟩ := h p c hcommitted
    rcases List.mem_append.mp hmsg' with hmem | hlast
    · exact ⟨msg', hmem, hposition, hle⟩
    · rw [List.mem_singleton.mp hlast] at hposition
      exact absurd hposition.symm hp
  · cases hok.symm.trans herror

end

/-- **Committing one message does not skip another** in a run where each call of `commit_offset`
finds the other partitions caught up; and where nothing is skipped, each call that returns has. -/
theorem never_skips_iff {K : RdKafka} {brokers group_id : String} {topics : List String}
    {ch : K.Choice} {s : K.Inner} (hnew : new K brokers group_id topics ch = .ok s)
    (calls : List (Call K)) :
    (AllCaughtUp s calls → NeverSkips s calls) ∧
      (NeverSkips s calls → ∀ before msg storing committing after,
        calls = before ++ .commit_offset msg storing committing :: after →
        (commit_offset K (run s before) msg storing committing).1 = .ok () →
          CaughtUp (committing_calls before) msg (K.offsets (run s before))) := by
  obtain ⟨hnone, hauto⟩ := new_spec hnew
  constructor
  · intro hcaught before after hsplit
    exact (run_covered hnone hauto hcaught before after hsplit).1
  · intro hnever before msg storing committing after hsplit hok
    have hcovered := hnever (before ++ [.commit_offset msg storing committing]) after
      (by rw [hsplit, List.append_assoc, List.singleton_append])
    rw [run_snoc, committing_snoc] at hcovered
    exact caught_up_of_covered hok hcovered

/-- A message without a payload that matters. -/
def bare (topic : String) (partition : Int) (offset : Nat) : OwnedMessage :=
  ⟨topic, partition, offset, none⟩

/-- The messages that the stream has given the application with their events. -/
def handed_out {E : Type} (from_slice : List UInt8 → Except String E) (calls : List (Call K)) :
    List OwnedMessage :=
  calls.filterMap fun
    | .receive msg_result => (consume from_slice msg_result).toOption.map (·.2)
    | .commit_offset .. => none

/-- One message of each of two partitions, each committed before the other is taken. -/
def in_turn : List (Call documented) :=
  [.receive (.ok (bare "kova.payment.initiated" 1 0)),
    .commit_offset (bare "kova.payment.initiated" 1 0) none none,
    .receive (.ok (bare "kova.payment.initiated" 0 0)),
    .commit_offset (bare "kova.payment.initiated" 0 0) none none]

/-- The second commit finds the other partition caught up, by the first. -/
theorem never_skips_in_turn :
    ∃ s, new documented "localhost:9092" "kova-ledger" ["kova.payment.initiated"] none = .ok s ∧
      NeverSkips s in_turn := by
  have hnew : new documented "localhost:9092" "kova-ledger" ["kova.payment.initiated"] none =
    .ok ⟨true, .none⟩ := rfl
  refine ⟨_, hnew, (never_skips_iff hnew _).1 ?_⟩
  intro before msg storing committing after hsplit p hp c hc
  rcases before with _ | ⟨first, _ | ⟨second, _ | ⟨third, _ | ⟨fourth, before⟩⟩⟩⟩
  · cases hsplit
  · cases hsplit
    have hnone : (Offsets.none.store (bare "kova.payment.initiated" 1 0).position 0).stored p =
        some c := hc
    rw [Offsets.stored_store_other _ _ hp] at hnone
    cases hnone
  · cases hsplit
  · cases hsplit
    have hstored : (((Offsets.none.store (bare "kova.payment.initiated" 1 0).position 0).store
        (bare "kova.payment.initiated" 1 0).position 0).flush.store
          (bare "kova.payment.initiated" 0 0).position 0).stored p = some c := hc
    rw [Offsets.stored_store_other _ _ hp] at hstored
    by_cases hfirst : p = (bare "kova.payment.initiated" 1 0).position
    · subst hfirst
      refine ⟨bare "kova.payment.initiated" 1 0, List.mem_singleton_self _, rfl, ?_⟩
      exact Nat.le_of_eq (Option.some.inj hstored).symm
    · have hnone : ((Offsets.none.store (bare "kova.payment.initiated" 1 0).position 0).store
          (bare "kova.payment.initiated" 1 0).position 0).stored p = some c := hstored
      rw [Offsets.stored_store_other _ _ hfirst, Offsets.stored_store_other _ _ hfirst] at hnone
      cases hnone
  · simp [in_turn] at hsplit

/-- **A message is skipped**: one of each of two partitions is handed out, and the commit of the one
commits the other. -/
theorem other_partition_committed :
    ∃ s, new documented "localhost:9092" "kova-ledger" ["kova.payment.initiated"] none = .ok s ∧
      (commit_offset documented
        (run s [.receive (.ok (bare "kova.payment.initiated" 0 0)),
          .receive (.ok (bare "kova.payment.initiated" 1 0))])
        (bare "kova.payment.initiated" 0 0) none none).1 = .ok () ∧
      handed_out (fun _ => Except.ok ()) ([.receive (.ok (bare "kova.payment.initiated" 0 0)),
          .receive (.ok (bare "kova.payment.initiated" 1 0))] : List (Call documented)) =
        [bare "kova.payment.initiated" 0 0, bare "kova.payment.initiated" 1 0] ∧
      ¬ NeverSkips s ([.receive (.ok (bare "kova.payment.initiated" 0 0)),
        .receive (.ok (bare "kova.payment.initiated" 1 0)),
        .commit_offset (bare "kova.payment.initiated" 0 0) none none] : List (Call documented)) := by
  refine ⟨_, rfl, rfl, rfl, ?_⟩
  intro hnever
  have hcovered := hnever _ [] (List.append_nil _).symm
  obtain ⟨msg, hmsg, hposition, _⟩ := hcovered ⟨"kova.payment.initiated", 1⟩ 1 rfl
  rw [show committing_calls _ = [bare "kova.payment.initiated" 0 0] from rfl,
    List.mem_singleton] at hmsg
  rw [hmsg] at hposition
  revert hposition
  decide

end Kova.Kafka

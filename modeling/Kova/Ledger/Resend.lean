import Kova.Ledger.Workers

/-!
# Messages sent again

A batch shares one transaction. When the publisher refuses a message the transaction is left, and
with it goes what was recorded of the messages acknowledged before, which the next batch hands
over again (`refusal_resends`). That is the only way: where a message is refused only before any
other of its batch has been acknowledged, none is handed over again (`never_resent`).
-/

set_option autoImplicit false

namespace Kova.Ledger.Outbox

open Conc

/-- No row for which publish has returned Ok is passed to publish again. -/
def NeverResent (d : OutboxConf) : Prop :=
  ∀ row ∈ d.world.store.ledger.outbox, d.world.log.Pairwise fun a b =>
    a.did = acknowledged (.of row) → b.op ≠ (Message.of row).publish

/-- A single worker, of which nothing fails but that the publisher may refuse any message. -/
def OneWorker (c : OutboxConf) (l : OutboxLabel) (d : OutboxConf) : Prop :=
  Undisturbed (fun _ => True) c l d ∧
    ∀ n, l = .spawn (.worker_turn n) → ∀ t, AtWork c t = false

/-- **Nothing is sent again** where a message is refused only before any other of its batch has
been acknowledged. -/
theorem never_resent (v : Env) (clock : Nat) (ls : List OutboxLabel) (d : OutboxConf)
    (h : OutboxRunWhere v (Undisturbed NothingSent) (start clock) ls d) : NeverResent d :=
  fun row _ => (handed_once h).2.imp fun hab => hab (.of row)

/-- `NothingSent`, computed. -/
def nothing_sent (h : List OutboxDone) : Bool :=
  h.all fun x => match x.op with
    | .publish .. => false
    | _ => true

theorem nothing_sent_sound (h : List OutboxDone) (hnothing : nothing_sent h = true) :
    NothingSent h := by
  intro m hm
  cases List.all_eq_true.mp hnothing _ hm

def refused : Except LedgerError Unit := .error (.Internal "broker unavailable")

/-- The first message of a batch is refused, and sent with the next batch. -/
def retried : List OutboxLabel :=
  post 0 "first" 10 ++ [.spawn (.worker_turn 0)] ++ work 1 2 [posted_row "first" 10] ++
    [.run 1 { verdict := refused }, .env (.reap 1)] ++ post 2 "second" 20 ++
    [.spawn (.worker_turn 1)] ++ work 3 7 [posted_row "first" 10, posted_row "second" 20]

/-- The messages handed to the publisher. -/
def handed (d : OutboxConf) : Nat :=
  (d.world.log.filter fun e => match e.op with
    | .publish .. => true
    | _ => false).length

theorem never_resent_retried : ∃ d : OutboxConf, handed d = 3 ∧ NeverResent d := by
  obtain ⟨d, hd, hhanded⟩ := (Option.any_eq_true _ _).mp
    (show (replay_if (machine sample.db) (serve sample) (undisturbed nothing_sent) (start 0)
      retried).any (fun d => handed d = 3) = true by decide +kernel)
  have run : OutboxRunWhere sample (Undisturbed NothingSent) (start 0) retried d :=
    run_where_of_replay_if (undisturbed_sound nothing_sent_sound) hd
  exact ⟨d, of_decide_eq_true hhanded, never_resent sample 0 retried d run⟩

/-! ## A refusal after an acknowledgement -/

/-- An operation hands the message over. -/
def Op.hands (m : Message) : Op → Bool
  | .publish topic key payload =>
    topic = m.topic && key = String.ofList (Hex.encode m.entry_id.bytes) && payload = m.payload_json
  | _ => false

theorem hands_iff {m : Message} {op : Op} : op.hands m = true ↔ op = m.publish := by
  cases op with
  | publish topic key payload => simp [Op.hands, Message.publish, and_assoc]
  | posting op =>
    constructor
    · intro h
      cases h
    · intro h
      cases h
  | sql q =>
    constructor
    · intro h
      cases h
    · intro h
      cases h

/-- An event acknowledges the message. -/
def acknowledges (m : Message) : OutboxEvent → Bool
  | ⟨_, _, .publish topic key payload, _, .ok (), _⟩ => (Op.publish topic key payload).hands m
  | _ => false

theorem acknowledges_sound {m : Message} {e : OutboxEvent} (h : acknowledges m e = true) :
    e.did = acknowledged m := by
  unfold acknowledges at h
  split at h
  · obtain ⟨rfl, rfl, rfl⟩ := Op.publish.inj (hands_iff.mp h)
    rfl
  · cases h

/-- The message is acknowledged, and handed over again later. -/
def resent (m : Message) : List OutboxEvent → Bool
  | [] => false
  | e :: es => (acknowledges m e && es.any fun e' => e'.op.hands m) || resent m es

theorem resent_sound {m : Message} : ∀ {log : List OutboxEvent}, resent m log = true →
    ¬ log.Pairwise fun a b => a.did = acknowledged m → b.op ≠ m.publish
  | [], h, _ => by cases h
  | e :: es, h, hpairwise => by
    obtain ⟨hfirst, hrest⟩ := List.pairwise_cons.mp hpairwise
    rcases (Bool.or_eq_true _ _).mp h with h | h
    · obtain ⟨hack, hlater⟩ := Bool.and_eq_true_iff.mp h
      obtain ⟨b, hb, hhands⟩ := List.any_eq_true.mp hlater
      exact hfirst b hb (acknowledges_sound hack) (hands_iff.mp hhands)
    · exact resent_sound h hrest

/-- `OneWorker`, computed. -/
def one_worker (c : OutboxConf) (l : OutboxLabel) : Bool :=
  undisturbed (fun _ => true) c l &&
    match l with
    | .spawn (.worker_turn _) => (List.range c.pool.length).all fun t => !AtWork c t
    | _ => true

theorem one_worker_sound (c : OutboxConf) (l : OutboxLabel) (d : OutboxConf)
    (h : one_worker c l = true) : OneWorker c l d := by
  obtain ⟨hundisturbed, hidle⟩ := Bool.and_eq_true_iff.mp h
  refine ⟨undisturbed_sound (fun _ _ => trivial) c l d hundisturbed, ?_⟩
  rintro n rfl t
  rcases Nat.lt_or_ge t c.pool.length with hlt | hge
  · exact (Bool.not_eq_true' _).mp (List.all_eq_true.mp hidle t (List.mem_range.mpr hlt))
  · rw [AtWork, List.getElem?_eq_none hge]
    rfl

/-- The second message of a batch is refused; the worker's next turn begins with the first. -/
def second_refused : List OutboxLabel :=
  post 0 "first" 10 ++ post 1 "second" 20 ++
    [.spawn (.worker_turn 0)] ++ work 2 4 [posted_row "first" 10, posted_row "second" 20] ++
    [.run 2 { verdict := refused }, .env (.reap 2), .spawn (.worker_turn 1)] ++
    work 3 3 [posted_row "first" 10, posted_row "second" 20]

/-- One refusal makes the worker send the message before it again. -/
theorem refusal_resends : ¬ ∀ (v : Env) (clock : Nat) (ls : List OutboxLabel) (d : OutboxConf),
    OutboxRunWhere v OneWorker (start clock) ls d → NeverResent d := by
  intro claim
  obtain ⟨d, hd, hresent⟩ := (Option.any_eq_true _ _).mp
    (show (replay_if (machine sample.db) (serve sample) one_worker (start 0) second_refused).any
      (fun d => d.world.store.ledger.outbox.any fun row => resent (.of row) d.world.log) = true by
        decide +kernel)
  obtain ⟨row, hrow, hresent⟩ := List.any_eq_true.mp hresent
  exact resent_sound hresent (claim sample 0 second_refused d
    (run_where_of_replay_if one_worker_sound hd) row hrow)

end Kova.Ledger.Outbox

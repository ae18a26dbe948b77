import Kova.Ledger.Workers

/-!
# Outbox delivery

What the outbox promises for any number of workers, whatever fails (`delivery`): a committed entry
has its row, and the row shows as published only when the publisher has acknowledged it; no two
transactions have one row in hand, nor do two calls at work, as long as the server does not end a
transaction under its call; and where nothing fails no row is handed over twice.
-/

set_option autoImplicit false

namespace Kova.Ledger.Outbox

open Conc

/-- The publisher has returned Ok for the row. -/
def Acknowledged (d : OutboxConf) (row : OutboxRow) : Prop :=
  ∃ e ∈ d.world.log, e.did = acknowledged (.of row)

/-- A call's SELECT has answered the row. -/
def Selected (d : OutboxConf) (t : Nat) (row : OutboxRow) : Prop :=
  ∃ rows, selected rows ∈ history t d.world.log ∧ .of row ∈ rows

/-- No committed entry's event is lost, and no row is in two transactions. -/
structure Delivers (d : OutboxConf) : Prop where
  linked : ∀ entry ∈ d.world.store.ledger.entries,
    ∃ row ∈ d.world.store.ledger.outbox, row.entry_id = entry.id
  published : ∀ row ∈ d.world.store.ledger.outbox, row.published_at ≠ none → Acknowledged d row
  exclusive : ∀ row t u, t ∈ d.world.store.open_tx → u ∈ d.world.store.open_tx →
    Selected d t row → Selected d u row → t = u

/-- No two calls are between selecting and committing one row. -/
def Exclusive (d : OutboxConf) : Prop :=
  ∀ row t u, AtWork d t = true → AtWork d u = true → Selected d t row → Selected d u row → t = u

/-- Each row is handed to the publisher at most once. -/
def HandedAtMostOnce (d : OutboxConf) : Prop :=
  ∀ row ∈ d.world.store.ledger.outbox,
    d.world.log.Pairwise fun a b =>
      ¬ (a.op = (Message.of row).publish ∧ b.op = (Message.of row).publish)

section

variable {v : Env} {clock : Nat} {ls : List OutboxLabel} {d : OutboxConf}

theorem run_delivers (h : OutboxRun v (start clock) ls d) : Delivers d := by
  have kept := run_kept h
  refine ⟨?_, ?_, ?_⟩
  · intro entry hentry
    have hid : entry.id ∈ d.world.store.ledger.outbox.map (·.entry_id) := by
      rw [(rows_linked h).2.2]
      exact List.mem_map_of_mem hentry
    obtain ⟨row, hrow, hid⟩ := List.mem_map.mp hid
    exact ⟨row, hrow, hid⟩
  · intro row hrow hset
    obtain ⟨t, hack, _⟩ := kept.published row hrow hset
    obtain ⟨e, he, _, hdid⟩ := mem_history.mp hack
    exact ⟨e, he, hdid⟩
  · rintro row t u ht hu ⟨rows, hrows, hrow⟩ ⟨rows', hrows', hrow'⟩
    exact (kept.held t rows _ ht hrows hrow).same (kept.held u rows' _ hu hrows' hrow') kept.inv

theorem run_exclusive (h : OutboxRunWhere v Spared (start clock) ls d) : Exclusive d := by
  have hbegun := run_begun (fun _ _ _ hspared => hspared) h
  intro row t u ht hu hrow hrow'
  refine (run_delivers h.run).exclusive row t u ?_ ?_ hrow hrow'
  · obtain ⟨rows, hrows, _⟩ := hrow
    exact hbegun t ht (List.ne_nil_of_mem hrows)
  · obtain ⟨rows, hrows, _⟩ := hrow'
    exact hbegun u hu (List.ne_nil_of_mem hrows)

/-- Where no publish fails, whatever is handed over is acknowledged. -/
theorem handed_acknowledged (h : OutboxRunWhere v (Undisturbed fun _ => False) (start clock) ls d) :
    ∀ e ∈ d.world.log, ∀ m : Message, e.op = m.publish → e.did = acknowledged m := by
  induction h with
  | nil =>
    intro e he
    cases he
  | @snoc c d ls l hrun hstep hok ih =>
    rcases step_cases hstep with ⟨req, _, rfl⟩ |
      ⟨t, ch, call, op, next, r, s', rfl, hcall, _, hprog, hexec, rfl⟩ | ⟨t, call, _, _, rfl⟩ |
      ⟨e, s', _, _, rfl⟩
    · exact ih
    · intro e he m hop
      rcases List.mem_append.mp he with he | he
      · exact ih e he m hop
      · obtain rfl := List.mem_singleton.mp he
        have hop : op = m.publish := hop
        subst hop
        rcases (hok.run hcall hprog).2 m rfl with hverdict | hfail
        · have hexec : exec v.db t ch c.world.store m.publish = some (r, s') := hexec
          obtain ⟨hr, _⟩ := exec_publish hexec
          rw [hverdict] at hr
          subst hr
          rfl
        · cases hfail
    · exact ih
    · exact ih

theorem run_at_most_once
    (h : OutboxRunWhere v (Undisturbed fun _ => False) (start clock) ls d) :
    HandedAtMostOnce d := by
  have hall := handed_acknowledged h
  have honce := (handed_once (h.mono fun _ _ _ => Undisturbed.mono fun _ => False.elim)).2
  intro row _
  apply honce.imp_of_mem
  rintro a b ha _ hab ⟨hopa, hopb⟩
  exact hab _ (hall a ha _ hopa) hopb

end

/-- **Outbox delivery**, with any number of workers and whatever fails. -/
theorem delivery (v : Env) (clock : Nat) (ls : List OutboxLabel) (d : OutboxConf) :
    (OutboxRun v (start clock) ls d → Delivers d) ∧
    (OutboxRunWhere v Spared (start clock) ls d → Exclusive d) ∧
    (OutboxRunWhere v (Undisturbed fun _ => False) (start clock) ls d → HandedAtMostOnce d) :=
  ⟨run_delivers, run_exclusive, run_at_most_once⟩

/-- Two workers: the first has the first row in hand when the second posting commits, so the second
worker is answered the second row only. -/
def two_workers : List OutboxLabel :=
  post 0 "first" 10 ++ [.spawn (.worker_turn 0)] ++ work 1 2 [posted_row "first" 10] ++
    post 2 "second" 20 ++ [.spawn (.worker_turn 0)] ++ work 3 4 [posted_row "second" 20] ++
    work 1 3 [] ++ work 3 1 []

/-- Two rows, both published. -/
def both_published (d : OutboxConf) : Bool :=
  d.world.store.ledger.outbox.length = 2 &&
    d.world.store.ledger.outbox.all fun row => row.published_at.isSome

theorem delivery_two_workers : ∃ d : OutboxConf, both_published d = true ∧ Delivers d ∧
    Exclusive d ∧ HandedAtMostOnce d := by
  obtain ⟨d, hd, hboth⟩ := (Option.any_eq_true _ _).mp
    (show (replay_if (machine sample.db) (serve sample) (undisturbed fun _ => false) (start 0)
      two_workers).any both_published = true by decide +kernel)
  have run : OutboxRunWhere sample (Undisturbed fun _ => False) (start 0) two_workers d :=
    run_where_of_replay_if (undisturbed_sound fun _ hfalse => by cases hfalse) hd
  obtain ⟨hdelivers, hexclusive, honce⟩ := delivery sample 0 two_workers d
  exact ⟨d, hboth, hdelivers run.run, hexclusive (run.mono fun _ _ _ => Undisturbed.spared),
    honce run⟩

end Kova.Ledger.Outbox

import Kova.Ledger.ServiceLaws

/-!
# Exactly-once posting

The guarantee of `post_entry` in every reachable configuration: the unique index is the mutex,
the two-table transaction keeps entries and outbox rows together, and the duplicate branch
answers with the entry that won. Calls may fail at any statement, be dropped at any await, and
lose their transaction to the server at any moment.
-/

namespace Kova.Ledger

open Conc

variable {v : Env}

/-- Exactly-once posting, as a property of one configuration. -/
structure ExactlyOnce (v : Env) (c : LedgerConf) : Prop where
  /-- No two entries have keys that the unique index considers equal. -/
  keys : c.world.store.entries.Pairwise fun r r' =>
    ¬ v.db.same r.idempotency_key r'.idempotency_key
  /-- Every entry has exactly one outbox row. -/
  announced : ∀ r ∈ c.world.store.entries,
    (c.world.store.outbox.filter (·.entry_id == r.id)).length = 1
  /-- Every outbox row names an entry. -/
  linked : ∀ o ∈ c.world.store.outbox, ∃ r ∈ c.world.store.entries, r.id = o.entry_id
  /-- No committed entry is ever changed or removed. -/
  immutable : ∀ ls d, LedgerRun v c ls d → c.world.store.entries <+: d.world.store.entries
  /-- For each key at most one call returns `was_idempotent = false`. -/
  once : ∀ t t' p p' r r', c.returned t (.post_entry p) (.ok (.posted r)) →
    c.returned t' (.post_entry p') (.ok (.posted r')) → r.was_idempotent = false →
      r'.was_idempotent = false → v.db.same p.idempotency_key p'.idempotency_key → t = t'
  /-- Every Ok names a committed entry with the caller's key and digest. -/
  answered : ∀ t p r, c.returned t (.post_entry p) (.ok (.posted r)) →
    ∃ row ∈ c.world.store.entries, row.id = r.entry_id ∧
      v.db.same row.idempotency_key p.idempotency_key ∧
        row.payload_hash = some (p.payload_hash v.sha256_hex)

/-- The ids of the committed entries are pairwise different. -/
theorem Inv.ids_nodup {db : Engine} {s : Store} (h : Inv db s) : (s.entries.map (·.id)).Nodup := by
  rw [List.Nodup, List.pairwise_map]
  exact (List.pairwise_append.mp h.index).1.imp fun hclash hid => hclash (.inl hid)

/-- A UUID was generated for one call. -/
theorem Inv.owner {db : Engine} {s : Store} (h : Inv db s) {t t' : Nat} {id : Uuid}
    (ht : (t, id) ∈ s.minted) (ht' : (t', id) ∈ s.minted) : t = t' :=
  congrArg Prod.fst (List.inj_on_of_nodup_map h.fresh ht ht' rfl)

/-- **Exactly-once posting**: it holds in every configuration that any interleaving of any calls
reaches from empty tables. -/
theorem exactly_once (v : Env) (clock : Nat) (ls : List LedgerLabel) (c : LedgerConf)
    (h : LedgerRun v (start clock) ls c) : ExactlyOnce v c := by
  have inv : Inv v.db c.world.store := (service_sound h).inv
  refine ⟨?_, fun r hr => ?_, fun o ho => ?_, fun _ _ hrun => (run_grows hrun).entries, ?_,
    fun t p r hr => (posted_outcome h hr).entry⟩
  · exact (List.pairwise_append.mp inv.index).1.imp fun hclash hkey => hclash (.inr hkey)
  · -- the outbox rows of `r` are the occurrences of its id among the ids
    have occurrences : (c.world.store.outbox.filter (·.entry_id == r.id)).length =
        (c.world.store.entries.map (·.id)).count r.id := by
      rw [← inv.linked, List.count, List.countP_map, List.countP_eq_length_filter]
      rfl
    rw [occurrences]
    exact List.count_eq_one_of_mem inv.ids_nodup (List.mem_map_of_mem hr)
  · have mem : o.entry_id ∈ c.world.store.entries.map (·.id) :=
      inv.linked ▸ List.mem_map_of_mem ho
    exact List.mem_map.mp mem
  · intro t t' p p' r r' hr hr' hfirst hfirst' hkey
    obtain ⟨row, hid, hdone⟩ := posted_outcome h hr
    obtain ⟨row', hid', hdone'⟩ := posted_outcome h hr'
    rw [if_neg (by simp [hfirst])] at hdone
    rw [if_neg (by simp [hfirst'])] at hdone'
    -- equal keys are stored once, so both calls committed the same row
    obtain ⟨_, hvalues⟩ := hdone.values
    obtain ⟨_, hvalues'⟩ := hdone'.values
    have same := Collation.same_trans (Collation.same_symm (values_row hvalues).2.key)
      (Collation.same_trans hkey (values_row hvalues').2.key)
    obtain rfl := inv.unique hdone.mem hdone'.mem (.inr same)
    exact inv.owner hdone.minted hdone'.minted

/-- Two calls race with keys that differ in case and trailing spaces only: the first inserts
while both transactions are open, the second finds its key taken after the first's COMMIT. -/
def race : List LedgerLabel :=
  [.spawn (.post_entry (payment "pay-1")), .spawn (.post_entry (payment "PAY-1 ")),
    .run 0 { uuid := .low 10 }, .run 1 { uuid := .low 11 }, .env (.advance 1700000000000000000),
    .run 0 {}, .run 1 {}, .run 0 {}, .run 1 {}, .run 0 {}, .run 0 { uuid := .low 12 }, .run 0 {},
    .run 0 {}, .run 1 {}, .run 1 {}, .run 1 {}]

def raced : LedgerConf := replayed (machine sample.db) (serve sample) (start 0) race

/-- The race goes through, and the guarantee holds where it ends. -/
theorem exactly_once_race : ExactlyOnce sample raced :=
  exactly_once sample 0 race raced (run_replayed (by decide +kernel))

example : raced.result? 1 =
    some (.ok (.posted ⟨.low 10, true, ⟨1700000000000000000⟩⟩)) := by decide +kernel

end Kova.Ledger

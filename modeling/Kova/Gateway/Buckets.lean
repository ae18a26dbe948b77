import Kova.Gateway.Slots

/-!
# Buckets

Executions of the limiter's script for any tiers, identifiers and minutes, in the order of their
moments. The one that is the `n`-th of its slot returns 1 exactly if `n` is at most the tier's limit
(`bucket_exact`), whatever has been executed for other slots in between.
-/

set_option autoImplicit false

namespace Kova.Gateway

open Redis

/-- An execution of the script at a moment in nanoseconds, with the slot that its key names. -/
structure Execution where
  time : Nat
  slot : Slot
  deriving DecidableEq

/-- It happens in the UTC minute that its key names. -/
def Execution.InMinute (e : Execution) : Prop := e.slot.minute = e.time / 1000000000 / 60

instance (e : Execution) : Decidable e.InMinute := inferInstanceAs (Decidable (_ = _))

/-- The script as `call` invokes it. -/
def Execution.invoke (db : Db) (e : Execution) : Option Int × Db :=
  lua_sliding_window e.time db e.slot.key e.slot.tier.limit (e.slot.tier.window_secs + 1)

/-- The executions one after another, each with what it returns; `none` is an error. -/
def execute_all : Db → List Execution → List (Execution × Option Int)
  | _, [] => []
  | db, e :: es => (e, (e.invoke db).1) :: execute_all (e.invoke db).2 es

/-- How many of the executions are for the slot. -/
def executions (slot : Slot) (es : List Execution) : Nat := es.countP (·.slot = slot)

section

variable {before es : List Execution} {e : Execution} {db : Db} {now : Nat}

theorem executions_snoc (slot : Slot) (before : List Execution) (e : Execution) :
    executions slot (before ++ [e]) = executions slot before + if e.slot = slot then 1 else 0 := by
  simp [executions, List.countP_append, List.countP_singleton]

/-- **One execution**: it answers by the count of its slot, and counts there. -/
theorem Tally.invoke (h : Tally (fun slot => executions slot before) now db) (hin : e.InMinute)
    (hle : now ≤ e.time) :
    (e.invoke db).1 = some (if e.slot.tier.limit ≤ executions e.slot before then 0 else 1) ∧
      Tally (fun slot => executions slot (before ++ [e])) e.time (e.invoke db).2 := by
  refine ⟨h.reply hin hle _ _, h.counts hin hle ?_ ?_ _⟩
  · rw [executions_snoc, if_pos rfl]
  · intro other hne
    rw [executions_snoc, if_neg hne, Nat.add_zero]

/-- The executions after others. -/
theorem execute_all_from (h : Tally (fun slot => executions slot before) now db)
    (hordered : es.Pairwise (·.time ≤ ·.time)) (hlate : ∀ e ∈ es, now ≤ e.time)
    (hin : ∀ e ∈ es, e.InMinute) :
    ∀ first e last, es = first ++ e :: last →
      (execute_all db es)[first.length]? = some (e, some
        (if e.slot.tier.limit ≤ executions e.slot (before ++ first) then 0 else 1)) := by
  induction es generalizing before db now with
  | nil =>
    intro first e last hsplit
    exact absurd hsplit.symm (List.append_ne_nil_of_right_ne_nil first (List.cons_ne_nil e last))
  | cons x es ih =>
    obtain ⟨hfirst, hrest⟩ := List.pairwise_cons.mp hordered
    obtain ⟨hreply, htally⟩ := h.invoke (hin x List.mem_cons_self) (hlate x List.mem_cons_self)
    intro first e last hsplit
    cases first with
    | nil =>
      obtain ⟨rfl, rfl⟩ := List.cons.inj hsplit
      rw [execute_all, List.length_nil, List.getElem?_cons_zero, List.append_nil, hreply]
    | cons y first =>
      obtain ⟨rfl, htail⟩ := List.cons.inj hsplit
      have hnext := ih htally hrest hfirst (fun e he => hin e (List.mem_cons_of_mem x he))
        first e last htail
      rw [execute_all, List.length_cons, List.getElem?_cons_succ, hnext, List.append_assoc,
        List.singleton_append]

end

/-- **Each bucket is exact and separate**: the `n`-th execution for a slot returns 1 if and only if
`n` is at most the limit of its tier. -/
theorem bucket_exact {db : Db} {es : List Execution} (hunused : Unused db)
    (hordered : es.Pairwise (·.time ≤ ·.time)) (hin : ∀ e ∈ es, e.InMinute) :
    ∀ first e last, es = first ++ e :: last →
      ∃ reply : Int, (execute_all db es)[first.length]? = some (e, some reply) ∧
        (reply = 1 ↔ executions e.slot first + 1 ≤ e.slot.tier.limit) := by
  intro first e last hsplit
  have start : Tally (fun slot => executions slot []) 0 db := Tally.start hunused fun _ => rfl
  have hreply := execute_all_from start hordered (fun e _ => Nat.zero_le e.time) hin first e last
    hsplit
  refine ⟨_, hreply, ?_⟩
  rw [List.nil_append]
  by_cases hused : e.slot.tier.limit ≤ executions e.slot first
  · rw [if_pos hused]
    omega
  · rw [if_neg hused]
    omega

/-- Ten executions for an address, one for a user of the same text, and the eleventh for the
address. -/
theorem bucket_exact_eleven :
    let address : Execution := ⟨300000000000, ⟨.Auth, "::1", 5⟩⟩
    let user : Execution := ⟨300000000000, ⟨.Standard, "auth:::1", 5⟩⟩
    ∃ reply : Int, (execute_all [] (List.replicate 10 address ++ [user, address]))[11]? =
      some (address, some reply) ∧ reply ≠ 1 := by
  intro address user
  obtain ⟨reply, hreply, hone⟩ := @bucket_exact []
    (List.replicate 10 address ++ [user, address]) (fun slot now => rfl)
    (by decide) (by decide) (List.replicate 10 address ++ [user]) address [] rfl
  refine ⟨reply, hreply, fun h => ?_⟩
  have hlimit : executions address.slot (List.replicate 10 address ++ [user]) + 1 ≤ 10 := hone.mp h
  revert hlimit
  decide

end Kova.Gateway

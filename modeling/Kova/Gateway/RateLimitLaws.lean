import Kova.Gateway.RateLimit
import Kova.Redis.DbLaws

/-!
# The limiter's script

The script answers by what its key holds (`script_reply`), and leaves the key with one request
more (`script_at_self`); no other key is touched (`script_at_other`).
-/

set_option autoImplicit false

namespace Kova.Gateway

open Redis

variable {db : Db} {now later limit ttl : Nat} {key other : String}

/-- What the script says of a count. -/
def verdict (limit : Nat) (count : Int) : Int := if (limit : Int) < count then 0 else 1

/-- The entry that the script leaves: one more, with a time to live from the first on. -/
def entry_after (now ttl : Nat) : Option Entry → Option Entry
  | none => some ⟨toString (1 : Int), some (now + ttl * 1000000000)⟩
  | some entry =>
    match integer entry.value with
    | none => some entry
    | some n => some ⟨toString (n + 1),
        if n + 1 = 1 then some (now + ttl * 1000000000) else entry.expires⟩

/-- **What the script answers.** -/
theorem script_reply (db : Db) (now : Nat) (key : String) (limit ttl : Nat) :
    (lua_sliding_window now db key limit ttl).1 = (counted (db.at now key)).map (verdict limit) := by
  rw [← run_incr]
  unfold lua_sliding_window
  cases run now db (.incr key 1) with
  | mk count db' =>
    cases count with
    | none => rfl
    | some count => rfl

/-- A first request gives its key a time to live. -/
theorem script_store {db db' : Db} {count : Int}
    (h : run now db (.incr key 1) = (some count, db')) (limit ttl : Nat) :
    (lua_sliding_window now db key limit ttl).2 =
      if count = 1 then (run now db' (.expire key ttl)).2 else db' := by
  unfold lua_sliding_window
  rw [h]

/-- **No other key is touched.** -/
theorem script_at_other (db : Db) (limit ttl : Nat) (h : key ≠ other) (hle : now ≤ later) :
    (lua_sliding_window now db key limit ttl).2.at later other = db.at later other := by
  have hincr := run_other db (.incr key 1) h hle
  cases hrun : run now db (.incr key 1) with
  | mk count db' =>
    rw [hrun] at hincr
    cases count with
    | none =>
      unfold lua_sliding_window
      rw [hrun]
      exact hincr
    | some count =>
      rw [script_store hrun]
      by_cases hone : count = 1
      · rw [if_pos hone]
        exact (run_other db' (.expire key ttl) h hle).trans hincr
      · rw [if_neg hone]
        exact hincr

/-- **What the key holds** after the script, where its count can be read. -/
theorem script_at_self (db : Db) (limit ttl : Nat) (later : Nat)
    (hdigits : ∀ entry, db.at now key = some entry → (integer entry.value).isSome) :
    (lua_sliding_window now db key limit ttl).2.at later key =
      (entry_after now ttl (db.at now key)).filter (·.lives later) := by
  have put : ∀ (db : Db) (entry : Entry),
      (db.put key entry).at later key = (some entry).filter (·.lives later) := by
    intro db entry
    rw [at_put]
    rfl
  cases hentry : db.at now key with
  | none =>
    rw [script_store (run_incr_none hentry 1), if_pos rfl]
    have hat : ((db.live now).put key ⟨toString (1 : Int), none⟩).at now key =
        some ⟨toString (1 : Int), none⟩ := at_put _ _ _ _
    rw [run_expire hat]
    exact put _ _
  | some entry =>
    obtain ⟨n, hn⟩ := Option.isSome_iff_exists.mp (hdigits entry hentry)
    rw [script_store (run_incr_some hentry hn 1)]
    simp only [entry_after, hn]
    by_cases hone : n + 1 = 1
    · rw [if_pos hone, if_pos hone]
      have hat : ((db.live now).put key ⟨toString (n + 1), entry.expires⟩).at now key =
          some ⟨toString (n + 1), entry.expires⟩ := by
        rw [at_put]
        exact if_pos (lives_of_at hentry)
      rw [run_expire hat]
      exact put _ _
    · rw [if_neg hone, if_neg hone]
      exact put _ _

end Kova.Gateway

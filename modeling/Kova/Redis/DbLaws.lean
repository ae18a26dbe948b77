import Mathlib.Data.List.Nodup
import Kova.Redis.Db

/-!
# What a key holds

`Db.at db now key` is the entry that a key holds at a moment. A command is about one key: it
answers by the entry that the key holds (`run_incr`), says what entry the key holds from then on
(`at_put`), and every other key goes on holding what it held (`run_other`).
-/

namespace Redis

/-- The entry is there at a moment. -/
def Entry.lives (e : Entry) (now : Nat) : Bool := e.expires.all (now < ·)

/-- What the key holds at a moment. -/
def Db.at (db : Db) (now : Nat) (key : String) : Option Entry := (db.live now).lookup key

/-- The key that a command is about. -/
def Cmd.key : Cmd → String
  | .get key | .set_ex key _ _ | .get_del key | .incr key _ | .expire key _ => key

variable {now later : Nat} {key other : String} {entry : Entry}

/-- Keys that begin differently. -/
theorem key_ne {p q : String} (n : Nat) (hp : n ≤ p.toList.length) (hq : n ≤ q.toList.length)
    (h : p.toList.take n ≠ q.toList.take n) (s t : String) : p ++ s ≠ q ++ t := by
  intro heq
  have hchars := congrArg (fun s => s.toList.take n) heq
  simp only [String.toList_append, List.take_append_of_le_length hp,
    List.take_append_of_le_length hq] at hchars
  exact h hchars

/-- Keys that begin alike. -/
theorem key_injective {p s t : String} (h : p ++ s = p ++ t) : s = t := by
  have hchars := congrArg String.toList h
  rw [String.toList_append, String.toList_append] at hchars
  exact String.toList_injective (List.append_cancel_left hchars)

/-- An entry that is there was there before. -/
theorem Entry.lives_of_later (h : entry.lives later = true) (hle : now ≤ later) :
    entry.lives now = true := by
  unfold Entry.lives at h ⊢
  cases hexpires : entry.expires with
  | none => rfl
  | some t =>
    simp only [hexpires, Option.all_some, decide_eq_true_eq] at h ⊢
    omega

theorem lives_iff {value : String} {t : Nat} :
    (Entry.mk value (some t)).lives later = true ↔ later < t := decide_eq_true_iff

theorem lives_until {value : String} {t : Nat} (h : later < t) :
    (Entry.mk value (some t)).lives later = true := lives_iff.mpr h

/-- What does not expire before a moment lives until then. -/
theorem lives_before {t : Nat} (h : entry.expires.all (t ≤ ·) = true) (hlt : now < t) :
    entry.lives now = true := by
  unfold Entry.lives
  cases hexpires : entry.expires with
  | none => rfl
  | some t' =>
    simp only [hexpires, Option.all_some, decide_eq_true_eq] at h ⊢
    omega

/-- Dropping what has expired changes nothing later. -/
theorem live_live (db : Db) (hle : now ≤ later) : (db.live now).live later = db.live later := by
  unfold Db.live
  rw [List.filter_filter]
  apply List.filter_congr
  intro p _
  by_cases h : p.2.lives later = true
  · have hnow : p.2.lives now = true := Entry.lives_of_later h hle
    exact (congrArg₂ (· && ·) rfl hnow).trans (Bool.and_true _)
  · have hlater : p.2.lives later = false := Bool.eq_false_iff.mpr h
    exact (congrArg₂ (· && ·) hlater rfl).trans hlater.symm

theorem live_erase (db : Db) (now : Nat) (key : String) :
    (db.erase key).live now = (db.live now).erase key := by
  unfold Db.live Db.erase
  rw [List.filter_filter, List.filter_filter]
  apply List.filter_congr
  intro p _
  exact Bool.and_comm _ _

theorem lookup_erase_self (db : Db) (key : String) : (db.erase key).lookup key = none := by
  unfold Db.lookup Db.erase
  rw [Option.map_eq_none_iff, List.find?_eq_none]
  intro p hp
  have hkey := (List.mem_filter.mp hp).2
  simp only [bne_iff_ne, ne_eq] at hkey
  simpa using hkey

theorem lookup_erase_other (db : Db) (h : key ≠ other) :
    (db.erase key).lookup other = db.lookup other := by
  unfold Db.lookup Db.erase
  rw [List.find?_filter]
  congr 2
  funext p
  by_cases hp : p.1 = other
  · simp [hp, Ne.symm h]
  · simp [hp]

theorem live_put (db : Db) (now : Nat) (key : String) (entry : Entry) :
    (db.put key entry).live now =
      if entry.lives now = true then (key, entry) :: (db.live now).erase key
      else (db.live now).erase key := by
  rw [← live_erase]
  exact List.filter_cons

/-- What a key holds after it was put. -/
theorem at_put (db : Db) (now : Nat) (key : String) (entry : Entry) :
    (db.put key entry).at now key = if entry.lives now = true then some entry else none := by
  rw [Db.at, live_put]
  by_cases h : entry.lives now = true
  · rw [if_pos h, if_pos h]
    simp [Db.lookup]
  · rw [if_neg h, if_neg h, lookup_erase_self]

theorem at_put_other (db : Db) (now : Nat) (entry : Entry) (h : key ≠ other) :
    (db.put key entry).at now other = db.at now other := by
  rw [Db.at, Db.at, live_put, ← lookup_erase_other (db.live now) h]
  by_cases hlives : entry.lives now = true
  · rw [if_pos hlives]
    simp [Db.lookup, h]
  · rw [if_neg hlives]

theorem at_live (db : Db) (hle : now ≤ later) (key : String) :
    (db.live now).at later key = db.at later key := by
  unfold Db.at
  rw [live_live db hle]

theorem at_erase_other (db : Db) (now : Nat) (h : key ≠ other) :
    (db.erase key).at now other = db.at now other := by
  unfold Db.at
  rw [live_erase, lookup_erase_other _ h]

/-- What a key holds after a SETEX on it. -/
theorem at_set_ex (db : Db) (now : Nat) (key value : String) (seconds later : Nat) :
    (run now db (.set_ex key value seconds)).2.at later key =
      if later < now + seconds * 1000000000 then
        some ⟨value, some (now + seconds * 1000000000)⟩
      else none := by
  refine (at_put _ later key _).trans ?_
  exact if_congr lives_iff rfl rfl

/-- **The frame of a command**: no other key is touched. -/
theorem run_other (db : Db) (cmd : Cmd) (h : cmd.key ≠ other) (hle : now ≤ later) :
    (run now db cmd).2.at later other = db.at later other := by
  cases cmd with
  | get key => exact at_live db hle other
  | set_ex key value seconds => exact (at_put_other _ _ _ h).trans (at_live db hle other)
  | get_del key => exact (at_erase_other _ _ h).trans (at_live db hle other)
  | incr key delta =>
    simp only [run]
    split
    · exact (at_put_other _ _ _ h).trans (at_live db hle other)
    · split
      · exact at_live db hle other
      · exact (at_put_other _ _ _ h).trans (at_live db hle other)
  | expire key seconds =>
    simp only [run]
    split
    · exact at_live db hle other
    · exact (at_put_other _ _ _ h).trans (at_live db hle other)

/-! ## One entry a key -/

/-- No key is there twice. -/
def Db.Keyed (db : Db) : Prop := (db.map (·.1)).Nodup

section Keyed

variable {db : Db}

theorem Db.Keyed.filter (h : db.Keyed) (p : String × Entry → Bool) : Db.Keyed (db.filter p) :=
  h.sublist (List.filter_sublist.map _)

theorem Db.Keyed.put (h : db.Keyed) (key : String) (entry : Entry) : (db.put key entry).Keyed := by
  refine List.nodup_cons.mpr ⟨?_, h.filter _⟩
  intro hmem
  obtain ⟨p, hp, hkey⟩ := List.mem_map.mp hmem
  exact bne_iff_ne.mp (List.mem_filter.mp hp).2 hkey

/-- No command puts a key there twice. -/
theorem Db.Keyed.run (h : db.Keyed) (now : Nat) (cmd : Cmd) : (run now db cmd).2.Keyed := by
  have hlive : (db.live now).Keyed := h.filter _
  cases cmd with
  | get key => exact hlive
  | set_ex key value seconds => exact hlive.put _ _
  | get_del key => exact hlive.filter _
  | incr key delta =>
    simp only [Redis.run]
    split
    · exact hlive.put _ _
    · split
      · exact hlive
      · exact hlive.put _ _
  | expire key seconds =>
    simp only [Redis.run]
    split
    · exact hlive
    · exact hlive.put _ _

theorem Db.Keyed.lookup (h : db.Keyed) : db.lookup key = some entry ↔ (key, entry) ∈ db := by
  constructor
  · intro hlookup
    obtain ⟨p, hp, rfl⟩ := Option.map_eq_some_iff.mp hlookup
    obtain rfl : p.1 = key := by simpa using List.find?_some hp
    exact List.mem_of_find?_eq_some hp
  · intro hmem
    cases hfind : db.find? (·.1 == key) with
    | none => exact absurd (beq_self_eq_true key) (List.find?_eq_none.mp hfind _ hmem)
    | some p =>
      have hkey : p.1 = key := by simpa using List.find?_some hfind
      have hp := List.inj_on_of_nodup_map h (List.mem_of_find?_eq_some hfind) hmem hkey
      rw [Db.lookup, hfind, hp]
      rfl

theorem Db.Keyed.at (h : db.Keyed) :
    db.at now key = some entry ↔ (key, entry) ∈ db ∧ entry.lives now = true :=
  Db.Keyed.lookup (h.filter _) |>.trans List.mem_filter

/-- **Time passes**: a key goes on holding its entry until that expires. -/
theorem Db.Keyed.at_later (h : db.Keyed) (hle : now ≤ later) (key : String) :
    db.at later key = (db.at now key).filter (·.lives later) := by
  apply Option.ext
  intro entry
  rw [Option.filter_eq_some_iff, h.at, h.at]
  constructor
  · rintro ⟨hmem, hlater⟩
    exact ⟨⟨hmem, Entry.lives_of_later hlater hle⟩, hlater⟩
  · rintro ⟨⟨hmem, _⟩, hlater⟩
    exact ⟨hmem, hlater⟩

end Keyed

/-! ## Counters -/

theorem natural_repr (n : Nat) : natural n.repr.toList = some n := by
  have hdigits : n.repr.toList.all Char.isDigit = true := by
    rw [Nat.toList_repr, List.all_eq_true]
    exact fun c hc => Nat.isDigit_of_mem_toDigits (by decide) (by decide) hc
  have hsome : n.repr.toList ≠ [] := by
    rw [Nat.toList_repr]
    exact Nat.toDigits_ne_nil
  rw [natural, if_pos ⟨hsome, hdigits⟩, Nat.toList_repr, Nat.ofDigitChars_ten_toDigits]

/-- **The text of an integer spells it.** -/
theorem integer_toString (n : Int) : integer (toString n) = some n := by
  cases n with
  | ofNat m =>
    have hunsigned : m.repr.toList.head? ≠ some '-' := by
      intro hhead
      rw [Nat.toList_repr] at hhead
      have hminus := Nat.isDigit_of_mem_toDigits (by decide) (by decide) (List.mem_of_head? hhead)
      revert hminus
      decide
    show integer m.repr = _
    rw [integer, if_neg hunsigned, natural_repr]
    rfl
  | negSucc m =>
    have htext : (toString (Int.negSucc m)).toList = '-' :: (m + 1).repr.toList := by
      show ("-" ++ (m + 1).repr).toList = _
      rw [String.toList_append]
      rfl
    rw [integer, htext, if_pos List.head?_cons, List.drop_one, List.tail_cons, natural_repr]
    rfl

/-- What INCR makes of what the key held, unless that is no integer. -/
def counted : Option Entry → Option Int
  | none => some 1
  | some entry => (integer entry.value).map (· + 1)

/-- What a key is seen to hold is there. -/
theorem lives_of_at {db : Db} (h : db.at now key = some entry) : entry.lives now = true := by
  obtain ⟨p, hp, rfl⟩ := Option.map_eq_some_iff.mp h
  exact (List.mem_filter.mp (List.mem_of_find?_eq_some hp)).2

theorem run_incr_none {db : Db} (h : db.at now key = none) (delta : Int) :
    run now db (.incr key delta) = (some delta, (db.live now).put key ⟨toString delta, none⟩) := by
  rw [Db.at] at h
  simp only [run, h]
  rfl

theorem run_incr_text {db : Db} (h : db.at now key = some entry) (hn : integer entry.value = none)
    (delta : Int) : run now db (.incr key delta) = (none, db.live now) := by
  rw [Db.at] at h
  simp only [run, h, hn]
  rfl

theorem run_incr_some {db : Db} (h : db.at now key = some entry) {n : Int}
    (hn : integer entry.value = some n) (delta : Int) :
    run now db (.incr key delta) =
      (some (n + delta), (db.live now).put key ⟨toString (n + delta), entry.expires⟩) := by
  rw [Db.at] at h
  simp only [run, h, hn]
  rfl

theorem run_expire {db : Db} (h : db.at now key = some entry) (seconds : Nat) :
    run now db (.expire key seconds) =
      ((), (db.live now).put key { entry with expires := some (now + seconds * 1000000000) }) := by
  rw [Db.at] at h
  simp only [run, h]
  rfl

/-- INCR answers what it counted. -/
theorem run_incr (db : Db) (now : Nat) (key : String) :
    (run now db (.incr key 1)).1 = counted (db.at now key) := by
  cases hentry : db.at now key with
  | none =>
    rw [run_incr_none hentry]
    rfl
  | some entry =>
    cases hn : integer entry.value with
    | none =>
      rw [run_incr_text hentry hn]
      exact (congrArg (Option.map (· + 1)) hn).symm
    | some n =>
      rw [run_incr_some hentry hn]
      exact (congrArg (Option.map (· + 1)) hn).symm

end Redis

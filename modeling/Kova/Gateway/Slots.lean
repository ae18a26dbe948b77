import Mathlib
import Kova.Gateway.RateLimitLaws

/-!
# Slots

The limiter counts in the slot of a tier, an identifier and a calendar minute. Two slots never share
a key (`Slot.key_injective`), whatever colons the identifier has: the tier's name and the minute have
none. A key's time to live outlasts its minute, so the script answers by how often its slot has been
counted (`Tally.reply`), and counts once more there and nowhere else (`Tally.counts`).
-/

set_option autoImplicit false

namespace Kova.Gateway

open Redis

/-- What requests are counted together in. -/
structure Slot where
  tier : Tier
  identifier : String
  minute : Nat
  deriving DecidableEq

def Slot.key (slot : Slot) : String :=
  "kova:ratelimit:" ++ slot.tier.name ++ ":" ++ slot.identifier ++ ":" ++ toString slot.minute

/-- What stands before the first colon and after it. -/
theorem first_colon {xs ys as bs : List Char} (hx : ':' ∉ xs) (hy : ':' ∉ ys)
    (h : xs ++ ':' :: as = ys ++ ':' :: bs) : xs = ys ∧ as = bs := by
  induction xs generalizing ys with
  | nil =>
    cases ys with
    | nil => exact ⟨rfl, (List.cons.inj h).2⟩
    | cons y ys =>
      obtain ⟨hhead, _⟩ := List.cons.inj h
      exact absurd (hhead ▸ List.mem_cons_self) hy
  | cons x xs ih =>
    cases ys with
    | nil =>
      obtain ⟨hhead, _⟩ := List.cons.inj h
      exact absurd (hhead ▸ List.mem_cons_self) hx
    | cons y ys =>
      obtain ⟨hhead, hrest⟩ := List.cons.inj h
      obtain ⟨htail, hend⟩ :=
        ih (List.not_mem_of_not_mem_cons hx) (List.not_mem_of_not_mem_cons hy) hrest
      exact ⟨by rw [hhead, htail], hend⟩

/-- What stands before the last colon and after it. -/
theorem last_colon {xs ys as bs : List Char} (ha : ':' ∉ as) (hb : ':' ∉ bs)
    (h : xs ++ ':' :: as = ys ++ ':' :: bs) : xs = ys ∧ as = bs := by
  have hreverse : as.reverse ++ ':' :: xs.reverse = bs.reverse ++ ':' :: ys.reverse := by
    have := congrArg List.reverse h
    simpa using this
  obtain ⟨hend, hbegin⟩ := first_colon (by simpa using ha) (by simpa using hb) hreverse
  exact ⟨List.reverse_injective hbegin, List.reverse_injective hend⟩

/-- A number is written without a colon. -/
theorem colon_notMem_digits (n : Nat) : ':' ∉ (toString n).toList := by
  intro h
  have hdigit := Nat.isDigit_of_mem_toDigits (by decide) (by decide) (Nat.toList_repr ▸ h)
  revert hdigit
  decide

theorem colon_notMem_name (tier : Tier) : ':' ∉ tier.name.toList := by
  cases tier <;> decide

theorem Tier.name_injective : Function.Injective Tier.name := by
  intro s t h
  cases s <;> cases t <;> first | rfl | exact absurd h (by decide)

theorem Slot.toList_key (slot : Slot) : slot.key.toList =
    "kova:ratelimit:".toList ++ (slot.tier.name.toList ++ ':' ::
      (slot.identifier.toList ++ ':' :: (toString slot.minute).toList)) := by
  unfold Slot.key
  rw [String.toList_append, String.toList_append, String.toList_append, String.toList_append,
    String.toList_append, List.append_assoc, List.append_assoc, List.append_assoc,
    List.append_assoc]
  rfl

/-- **Slots do not share keys.** -/
theorem Slot.key_injective : Function.Injective Slot.key := by
  rintro ⟨tier, identifier, minute⟩ ⟨tier', identifier', minute'⟩ h
  have hchars := congrArg String.toList h
  rw [toList_key, toList_key] at hchars
  obtain ⟨htier, hrest⟩ := first_colon (colon_notMem_name tier) (colon_notMem_name tier')
    (List.append_cancel_left hchars)
  obtain ⟨hidentifier, hminute⟩ :=
    last_colon (colon_notMem_digits minute) (colon_notMem_digits minute') hrest
  obtain rfl : tier = tier' := Tier.name_injective (String.toList_injective htier)
  obtain rfl : identifier = identifier' := String.toList_injective hidentifier
  obtain rfl : minute = minute' := Nat.repr_inj.mp (String.toList_injective hminute)
  rfl

/-! ## Counting -/

/-- From `now` on the key holds a count, as long as it lives. -/
def Holds (db : Db) (now : Nat) (key : String) (n expires : Nat) : Prop :=
  ∀ later, now ≤ later →
    db.at later key = (some (⟨toString (n : Int), some expires⟩ : Entry)).filter (·.lives later)

/-- No request has been counted in any slot. -/
def Unused (db : Db) : Prop := ∀ (slot : Slot) (now : Nat), db.at now slot.key = none

/-- Each key holds how often its slot has been counted, until its minute is over at least. -/
structure Tally (count : Slot → Nat) (now : Nat) (db : Db) : Prop where
  unused : ∀ slot, count slot = 0 → ∀ later, now ≤ later → db.at later slot.key = none
  used : ∀ slot, 0 < count slot →
    ∃ expires, (slot.minute + 1) * 60000000000 ≤ expires ∧
      Holds db now slot.key (count slot) expires

section

variable {count count' : Slot → Nat} {now time : Nat} {db : Db} {slot : Slot}

theorem Tally.start (h : Unused db) (hzero : ∀ slot, count slot = 0) : Tally count now db := by
  refine ⟨?_, ?_⟩
  · intro slot _ later _
    exact h slot later
  · intro slot hpos
    exact absurd (hzero slot) hpos.ne'

theorem Tally.later (h : Tally count now db) {now' : Nat} (hle : now ≤ now') :
    Tally count now' db := by
  refine ⟨?_, ?_⟩
  · intro slot hzero later hlater
    exact h.unused slot hzero later (hle.trans hlater)
  · intro slot hpos
    obtain ⟨expires, hexpires, hholds⟩ := h.used slot hpos
    exact ⟨expires, hexpires, fun later hlater => hholds later (hle.trans hlater)⟩

/-- What a slot's key holds in the slot's minute. -/
theorem Tally.found (h : Tally count now db) (hminute : slot.minute = time / 1000000000 / 60)
    (hle : now ≤ time) :
    (count slot = 0 ∧ db.at time slot.key = none) ∨
      ∃ expires, 0 < count slot ∧ (slot.minute + 1) * 60000000000 ≤ expires ∧
        db.at time slot.key = some ⟨toString (count slot : Int), some expires⟩ := by
  rcases Nat.eq_zero_or_pos (count slot) with hzero | hpos
  · exact .inl ⟨hzero, h.unused slot hzero time hle⟩
  · obtain ⟨expires, hexpires, hholds⟩ := h.used slot hpos
    refine .inr ⟨expires, hpos, hexpires, ?_⟩
    have hlives : time < expires := by omega
    rw [hholds time hle]
    simp [Entry.lives, hlives]

/-- **What the script answers** in the slot's minute. -/
theorem Tally.reply (h : Tally count now db) (hminute : slot.minute = time / 1000000000 / 60)
    (hle : now ≤ time) (limit ttl : Nat) :
    (lua_sliding_window time db slot.key limit ttl).1 =
      some (if limit ≤ count slot then 0 else 1) := by
  rw [script_reply]
  rcases h.found hminute hle with ⟨hzero, hentry⟩ | ⟨expires, _, _, hentry⟩
  · rw [hentry, hzero]
    simp only [counted, verdict, Option.map_some, Option.some.injEq]
    exact if_congr (by omega) rfl rfl
  · rw [hentry]
    simp only [counted, integer_toString, verdict, Option.map_some, Option.some.injEq]
    exact if_congr (by omega) rfl rfl

/-- **The script counts** once more in its slot, and nowhere else. -/
theorem Tally.counts (h : Tally count now db) (hminute : slot.minute = time / 1000000000 / 60)
    (hle : now ≤ time) (hself : count' slot = count slot + 1)
    (hother : ∀ other, slot ≠ other → count' other = count other) (limit : Nat) :
    Tally count' time (lua_sliding_window time db slot.key limit 61).2 := by
  have frame : ∀ other, slot ≠ other → ∀ later, time ≤ later →
      (lua_sliding_window time db slot.key limit 61).2.at later other.key =
        db.at later other.key := by
    intro other hne later hlater
    exact script_at_other db _ _ (fun hkey => hne (Slot.key_injective hkey)) hlater
  refine ⟨?_, ?_⟩
  · intro other hzero later hlater
    by_cases hsame : slot = other
    · subst hsame
      omega
    · rw [frame other hsame later hlater]
      exact h.unused other (hother other hsame ▸ hzero) later (hle.trans hlater)
  · intro other hpos
    by_cases hsame : slot = other
    · subst hsame
      rw [hself]
      rcases h.found hminute hle with ⟨hzero, hentry⟩ | ⟨expires, hused, hexpires, hentry⟩
      · refine ⟨time + 61 * 1000000000, by omega, ?_⟩
        intro later _
        rw [script_at_self db _ _ later (by simp [hentry]), hentry, hzero]
        rfl
      · refine ⟨expires, hexpires, ?_⟩
        intro later _
        have hdigits : ∀ entry, db.at time slot.key = some entry →
            (integer entry.value).isSome := by
          intro entry hat
          rw [hentry, Option.some.injEq] at hat
          rw [← hat, integer_toString]
          rfl
        rw [script_at_self db _ _ later hdigits, hentry]
        have hmore : ¬ ((count slot : Int) + 1 = 1) := by omega
        simp only [entry_after, integer_toString, hmore, ↓reduceIte, Nat.cast_add, Nat.cast_one]
    · rw [hother other hsame] at hpos ⊢
      obtain ⟨expires, hexpires, hholds⟩ := h.used other hpos
      refine ⟨expires, hexpires, ?_⟩
      intro later hlater
      rw [frame other hsame later hlater]
      exact hholds later (hle.trans hlater)

end

end Kova.Gateway

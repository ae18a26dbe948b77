import Kova.Auth.OtpCounter

/-!
# A phone number locked out

The INCR that begins a counter and the EXPIRE that limits its life are two commands, and no later
request repeats the EXPIRE. So the counter expires within 600 seconds if and only if every INCR that
began it was followed by an EXPIRE that took effect (`counter_bounded_iff`). Where the EXPIRE fails
or the process stops before it, the counter is there for ever, and with the third code the phone
number is locked out (`counter_without_expiry`).
-/

set_option autoImplicit false

namespace Kova.Auth

open Conc

variable {env : Env} {S : AuthScope} {clock : Nat} {ls : List AuthLabel} {d : AuthConf}
  {phone_number : String}

/-- The counter, if it is there, expires within 600 seconds. -/
def Bounded (s : Store) (phone_number : String) : Prop :=
  ∀ entry, s.counter phone_number = some entry →
    ∃ t, entry.expires = some t ∧ t ≤ s.clock + 600000000000

/-- The counter is there and does not expire. -/
def Endless (s : Store) (phone_number : String) : Prop :=
  ∃ entry, s.counter phone_number = some entry ∧ entry.expires = none

theorem Endless.not_bounded {s : Store} (h : Endless s phone_number) :
    ¬ Bounded s phone_number := by
  obtain ⟨entry, hentry, hnone⟩ := h
  intro hbounded
  obtain ⟨t, ht, _⟩ := hbounded entry hentry
  rw [hnone] at ht
  cases ht

/-- Which of the two it is, by the log. -/
structure Standing (phone_number : String) (w : AuthWorld) : Prop where
  bounded : followed (begins phone_number) (expires phone_number) w.log = true →
    Bounded w.store phone_number
  endless : followed (begins phone_number) (expires phone_number) w.log = false →
    Endless w.store phone_number

section Events

variable {w : AuthWorld} {e : AuthEvent}

/-- An event that does not touch the counter. -/
theorem Standing.kept (h : Standing phone_number w) (hpre : e.pre = w.store)
    (hclock : e.post.clock = e.pre.clock) (hinc : increments phone_number e = false)
    (hexp : expires phone_number e = false)
    (same : e.post.counter phone_number = e.pre.counter phone_number) :
    Standing phone_number (w.push e) := by
  rw [hpre] at same hclock
  have hlog : followed (begins phone_number) (expires phone_number) (w.push e).log =
      followed (begins phone_number) (expires phone_number) w.log := by
    rw [World.push_log, followed_snoc, not_begins_of_increments hinc, hexp]
    rfl
  refine ⟨fun hf => ?_, fun hf => ?_⟩
  · rw [World.push_store, Bounded, same, hclock]
    exact h.bounded (hlog ▸ hf)
  · rw [World.push_store, Endless, same]
    exact h.endless (hlog ▸ hf)

/-- An INCR begins a counter without an expiry, or leaves the expiry alone. -/
theorem Standing.incremented (h : Standing phone_number w) (hpre : e.pre = w.store)
    (hclock : e.post.clock = e.pre.clock) (hinc : increments phone_number e = true) :
    Standing phone_number (w.push e) := by
  have hpost := counter_raised hclock hinc
  have hlog : followed (begins phone_number) (expires phone_number) (w.push e).log =
      (!begins phone_number e && followed (begins phone_number) (expires phone_number) w.log) := by
    rw [World.push_log, followed_snoc, not_expires_of_increments hinc, Bool.false_or]
  cases hentry : e.pre.counter phone_number with
  | none =>
    rw [begins_iff.mpr ⟨hinc, hentry⟩, Bool.not_true, Bool.false_and] at hlog
    rw [hentry] at hpost
    refine ⟨fun hf => ?_, fun _ => ⟨_, hpost, rfl⟩⟩
    rw [hlog] at hf
    cases hf
  | some entry =>
    rw [not_begins_of_there hentry, Bool.not_false, Bool.true_and] at hlog
    rw [hentry] at hpost
    rw [hpre] at hentry hclock
    -- Both kinds of entry keep the expiry that they had.
    have kept : ∀ entry', e.post.counter phone_number = some entry' →
        entry'.expires = entry.expires := by
      intro entry' hentry'
      rw [hpost] at hentry'
      obtain rfl := Option.some.inj hentry'
      split
      · rfl
      · rfl
    refine ⟨fun hf => ?_, fun hf => ?_⟩
    · intro entry' hentry'
      rw [kept entry' hentry', World.push_store, hclock]
      exact h.bounded (hlog ▸ hf) entry hentry
    · obtain ⟨entry₀, hentry₀, hnone⟩ := h.endless (hlog ▸ hf)
      obtain rfl := Option.some.inj (hentry.symm.trans hentry₀)
      exact ⟨_, hpost, (kept _ hpost).trans hnone⟩

/-- An EXPIRE gives the counter 600 seconds. -/
theorem Standing.timed (hclock : e.post.clock = e.pre.clock)
    (hexp : expires phone_number e = true) : Standing phone_number (w.push e) := by
  have hlog : followed (begins phone_number) (expires phone_number) (w.push e).log = true := by
    rw [World.push_log, followed_snoc, hexp,
      not_begins_of_increments (not_increments_of_expires hexp)]
    rfl
  refine ⟨fun _ => ?_, fun hf => ?_⟩
  · intro entry hentry
    rw [World.push_store, counter_timed hclock hexp] at hentry
    obtain ⟨_, _, rfl⟩ := Option.map_eq_some_iff.mp hentry
    exact ⟨_, rfl, by rw [World.push_store, hclock]⟩
  · rw [hlog] at hf
    cases hf

end Events

/-- **Which of the two it is**, in every run. -/
theorem run_standing (h : AuthRun env S (start clock) ls d) (phone_number : String) :
    Standing phone_number d.world := by
  refine h.world_invariant (P := Standing phone_number) (serve_counting env) ?_ ?_ ?_
  · rintro ms c e _ hc hpre ⟨ch, _, hexec⟩ hguard
    by_cases hinc : increments phone_number e = true
    · exact hc.incremented hpre (exec_clock hexec) hinc
    · by_cases hexp : expires phone_number e = true
      · exact Standing.timed (exec_clock hexec) hexp
      · exact hc.kept hpre (exec_clock hexec) (Bool.eq_false_iff.mpr hinc)
          (Bool.eq_false_iff.mpr hexp) (counter_kept hexec hguard hinc hexp)
  · rintro ms c o s' hrun hc henv
    have hlater := ((later_follows env).env henv).clock
    have hcounter := counter_outside hrun henv phone_number
    refine ⟨fun hf entry hentry => ?_, fun hf => ?_⟩
    · rw [World.moved_store, hcounter, Option.filter_eq_some_iff] at hentry
      obtain ⟨t, ht, hsoon⟩ := hc.bounded hf entry hentry.1
      exact ⟨t, ht, hsoon.trans (Nat.add_le_add_right hlater _)⟩
    · obtain ⟨entry, hentry, hnone⟩ := hc.endless hf
      refine ⟨entry, ?_, hnone⟩
      rw [World.moved_store, hcounter, hentry]
      refine Option.filter_some_pos ?_
      rw [Redis.Entry.lives, hnone]
      rfl
  · refine ⟨?_, by rintro ⟨⟩⟩
    rintro _ entry ⟨⟩

/-- **The counter of a phone number expires within 600 seconds**, whatever fails and wherever the
calls stop, if and only if every INCR that began it was followed by an EXPIRE that took effect. -/
theorem counter_bounded_iff (env : Env) (clock : Nat) (ls : List AuthLabel) (d : AuthConf)
    (h : AuthRun env .all (start clock) ls d) (phone_number : String) :
    Bounded d.world.store phone_number ↔
      followed (begins phone_number) (expires phone_number) d.world.log = true := by
  have standing := run_standing h phone_number
  constructor
  · intro hbounded
    cases hf : followed (begins phone_number) (expires phone_number) d.world.log with
    | true => rfl
    | false => exact absurd hbounded (standing.endless hf).not_bounded
  · exact standing.bounded

/-- A user asks for a code. -/
theorem counter_bounded_sample :
    ∃ d, AuthRun sample .all sample_start sample_code d ∧
      Bounded d.world.store "+2348012345678" := by
  obtain ⟨run, checked⟩ := replayed_spec (machine sample) (serve sample) sample_start sample_code
    (fun d => followed (begins "+2348012345678") (expires "+2348012345678") d.world.log)
    (by decide +kernel)
  exact ⟨_, run, (counter_bounded_iff sample _ sample_code _ run _).mpr checked⟩

/-- A user asks for a code, and the EXPIRE fails. -/
def expire_failed : List AuthLabel :=
  uninterrupted 0 (.register "+2348012345678" "phone")
      [{ uuid := .low 1 }, {}, { uuid := .low 2 }, {}] ++
    uninterrupted 1 (.otp_request "+2348012345678" "phone")
      [{}, {}, { draws := [123456] }, { text := sample_salt }, { uuid := .low 3 }, {}, {}, {}, {},
        { fault := .failed }]

/-- The counter is there without an expiry. -/
theorem counter_without_expiry :
    ¬ ∀ (env : Env) (clock : Nat) (ls : List AuthLabel) (d : AuthConf),
      AuthRun env .all (start clock) ls d →
        ∀ phone_number, Bounded d.world.store phone_number := by
  intro claim
  obtain ⟨run, checked⟩ := replayed_spec (machine sample) (serve sample) sample_start expire_failed
    (fun d => (d.world.store.counter "+2348012345678").any fun entry => entry.expires.isNone)
    (by decide +kernel)
  obtain ⟨entry, hentry, hnone⟩ := (Option.any_eq_true _ _).mp checked
  have endless : Endless (replayed (machine sample) (serve sample) sample_start
      expire_failed).world.store "+2348012345678" :=
    ⟨entry, hentry, Option.isNone_iff_eq_none.mp hnone⟩
  exact endless.not_bounded (claim sample _ expire_failed _ run "+2348012345678")

end Kova.Auth

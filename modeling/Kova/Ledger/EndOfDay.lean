import Mathlib.Tactic.Ring
import Kova.Ledger.Reconciliation

/-!
# Whether the end of the day is ever met

The scheduler ticks every hour from the instant it was started at, and lets a tick through in the
eleven minutes around midnight. A tick keeps the minute of the start, so either one tick of every
24 hours lands in the window or none ever does: the pass runs daily exactly when the service was
started in the last five or the first six minutes of an hour (`runs_daily_iff`).
-/

set_option autoImplicit false

namespace Kova.Ledger.Reconciliation

open Conc

/-- An hour in nanoseconds. -/
def HOUR : Int := 3600000000000

/-- The instant of tick `k` of `interval(Duration::from_secs(3600))`; the first is immediate. -/
def tick_at (start : DateTime) (k : Nat) : DateTime := ⟨start.nanos + k * HOUR⟩

/-- The turn executes `reconciliation_pass`. -/
def Executes (now : DateTime) : Prop :=
  turn now = reconciliation_pass.caught >>= count_mismatches

/-- **In any 24 hours** of uptime some turn executes the pass, in the window. -/
def RunsDaily (start : DateTime) : Prop :=
  ∀ since : Int, start.nanos ≤ since → ∃ k, since ≤ (tick_at start k).nanos ∧
    (tick_at start k).nanos < since + 24 * HOUR ∧ Executes (tick_at start k) ∧
      in_window (tick_at start k) = true

/-- A pass begins with a statement, so a turn that ends at once has executed none. -/
theorem executes_iff {now : DateTime} : Executes now ↔ in_window now = true := by
  unfold Executes turn
  constructor
  · intro h
    by_contra hout
    rw [if_neg hout] at h
    cases h
  · intro hin
    rw [if_pos hin]

/-! ## The phase of the ticks -/

/-- The second of its hour. -/
def phase (d : DateTime) : Int := d.timestamp % 3600

/-- The last five minutes of an hour, or the first six. -/
def NearHour (d : DateTime) : Prop := 3300 ≤ phase d ∨ phase d < 360

instance (d : DateTime) : Decidable (NearHour d) := inferInstanceAs (Decidable (_ ∨ _))

/-- A tick is whole hours after the start. -/
theorem tick_at_timestamp (start : DateTime) (k : Nat) :
    (tick_at start k).timestamp = start.timestamp + k * 3600 := by
  simp only [tick_at, DateTime.timestamp, HOUR]
  omega

/-- What is in the window is near an hour, and at midnight. -/
theorem in_window_iff {d : DateTime} : in_window d = true ↔
    (3300 ≤ phase d ∧ d.timestamp / 3600 % 24 = 23) ∨
      (phase d < 360 ∧ d.timestamp / 3600 % 24 = 0) := by
  simp only [in_window, phase, Bool.or_eq_true, Bool.and_eq_true, decide_eq_true_eq]
  omega

/-- Of 24 hours in a row, one is hour `h` of a day. -/
theorem exists_hour (first hour h : Int) (hh : 0 ≤ h ∧ h < 24) :
    ∃ k : Int, first ≤ k ∧ k < first + 24 ∧ (hour + k) % 24 = h := by
  refine ⟨first + (h - hour - first) % 24, ?_, ?_, ?_⟩ <;> omega

/-- Some tick of any 24 hours is in hour `h` of a day. -/
theorem exists_tick_at (start : DateTime) {since : Int} (hsince : start.nanos ≤ since) (h : Int)
    (hh : 0 ≤ h ∧ h < 24) : ∃ k, since ≤ (tick_at start k).nanos ∧
      (tick_at start k).nanos < since + 24 * HOUR ∧ (tick_at start k).timestamp / 3600 % 24 = h := by
  obtain ⟨k, hfirst, hlast, hhour⟩ :=
    exists_hour ((since - start.nanos + HOUR - 1) / HOUR) (start.timestamp / 3600) h hh
  have hnat : (k.toNat : Int) = k := by
    have : 0 ≤ (since - start.nanos + HOUR - 1) / HOUR := by
      simp only [HOUR]
      omega
    omega
  refine ⟨k.toNat, ?_, ?_, ?_⟩
  · simp only [tick_at, hnat]
    simp only [HOUR] at hfirst ⊢
    omega
  · simp only [tick_at, hnat]
    simp only [HOUR] at hlast ⊢
    omega
  · rw [tick_at_timestamp, hnat, ← hhour]
    omega

/-- **The pass runs daily** if and only if the service was started within the last five or the
first six minutes of an hour. -/
theorem runs_daily_iff (start : DateTime) : RunsDaily start ↔ NearHour start := by
  have same : ∀ k, phase (tick_at start k) = phase start := by
    intro k
    simp only [phase, tick_at_timestamp]
    omega
  constructor
  · intro h
    obtain ⟨k, _, _, _, hwindow⟩ := h start.nanos le_rfl
    rw [in_window_iff, same] at hwindow
    exact hwindow.imp And.left And.left
  · intro hnear since hsince
    -- The hour of the window that the ticks can meet.
    have hhour : ∃ h : Int, (0 ≤ h ∧ h < 24) ∧ ∀ k, (tick_at start k).timestamp / 3600 % 24 = h →
        in_window (tick_at start k) = true := by
      rcases hnear with hlate | hearly
      · refine ⟨23, by decide, ?_⟩
        intro k hk
        rw [in_window_iff, same]
        exact .inl ⟨hlate, hk⟩
      · refine ⟨0, by decide, ?_⟩
        intro k hk
        rw [in_window_iff, same]
        exact .inr ⟨hearly, hk⟩
    obtain ⟨h, hh, hwindow⟩ := hhour
    obtain ⟨k, hfrom, huntil, hk⟩ := exists_tick_at start hsince h hh
    exact ⟨k, hfrom, huntil, executes_iff.mpr (hwindow k hk), hwindow k hk⟩

/-- A service started at half past the hour never reconciles. -/
theorem half_past_never : ¬ ∀ start : DateTime, RunsDaily start := by
  intro claim
  obtain ⟨k, _, _, _, hwindow⟩ := claim ⟨1800000000000⟩ 1800000000000 le_rfl
  simp only [in_window_iff, phase, tick_at_timestamp] at hwindow
  simp only [DateTime.timestamp] at hwindow
  omega

end Kova.Ledger.Reconciliation

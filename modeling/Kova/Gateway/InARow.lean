import Kova.Gateway.Sequential

/-!
# Five in a row

The breaker counts completions as they come, whichever of the overlapping requests they end. The
circuit is closed exactly while the trailing run of 5xx responses, in the order in which requests
complete, is shorter than five; its count is the length of that run. So a request is refused only
where the five latest responses were all 5xx (`counts_in_a_row`), however requests overlap, fail
within the service or are dropped.
-/

set_option autoImplicit false

namespace Kova.Gateway.CircuitBreaker

open Conc

variable {σ Req I Ch En ε : Type} {R : I → Type} {M : Machine σ I R Ch En} {name : String}
  {inner : Req → Prog I R ε Response} {instant : Nat} {s₀ : σ}
  {ls : List (Label Req Ch (Outside En))}
  {d : Conf (Store σ) Req (Op I) (Op.Res R) ε Response} {e : BreakerEvent σ Req R}
  {before after log : List (BreakerEvent σ Req R)}

/-- What the trailing run of 5xx responses says of the state: a closed circuit counts it; an open
one was opened by one of it, which had four at least before it; and it is no shorter than five while
a probe is awaited. -/
def Counted (run : List Outcome) : State → Prop
  | .Closed n => run.length = n ∧ n < FAILURE_THRESHOLD
  | .Open opened_at => ∃ later o earlier, run = later ++ o :: earlier ∧
      o.completed_at = opened_at ∧ FAILURE_THRESHOLD ≤ earlier.length + 1
  | .HalfOpen => FAILURE_THRESHOLD ≤ run.length

theorem Counted.long {run : List Outcome} {s : State} (h : Counted run s)
    (opened : ∀ n, s ≠ .Closed n) : FAILURE_THRESHOLD ≤ run.length := by
  cases s with
  | Closed n => exact absurd rfl (opened n)
  | Open f =>
    obtain ⟨later, o, earlier, rfl, _, hfive⟩ := h
    rw [List.length_append, List.length_cons]
    omega
  | HalfOpen => exact h

/-- **The state is closed** exactly while the run is short. -/
theorem Counted.closed_iff {run : List Outcome} {s : State} (h : Counted run s) (n : Nat) :
    s = .Closed n ↔ run.length = n ∧ n < FAILURE_THRESHOLD := by
  constructor
  · rintro rfl
    exact h
  · rintro ⟨rfl, hshort⟩
    cases s with
    | Closed m => rw [h.1]
    | Open | HalfOpen => exact absurd (h.long (by simp)) (by omega)

/-- An admission lets the run be. -/
theorem Counted.allowed {run : List Outcome} {s : State} (h : Counted run s) (now : Nat) :
    Counted run (allow_request now s).2 := by
  cases s with
  | Closed n => exact h
  | Open f =>
    by_cases helapsed : OPEN_DURATION ≤ now - f
    · simp only [allow_request, if_pos helapsed]
      exact h.long (by simp)
    · simp only [allow_request, if_neg helapsed]
      exact h
  | HalfOpen => exact h

/-- A 5xx makes the run one longer. -/
theorem Counted.failed {run : List Outcome} {s : State} (h : Counted run s) (now : Nat) :
    Counted (⟨true, now⟩ :: run) (on_failure now s) := by
  cases s with
  | Closed n =>
    obtain ⟨rfl, hshort⟩ := h
    by_cases hfive : FAILURE_THRESHOLD ≤ run.length + 1
    · simp only [on_failure, if_pos hfive]
      exact ⟨[], ⟨true, now⟩, run, rfl, rfl, hfive⟩
    · simp only [on_failure, if_neg hfive]
      exact ⟨rfl, Nat.lt_of_not_le hfive⟩
  | Open f =>
    obtain ⟨later, o, earlier, rfl, hat, hfive⟩ := h
    exact ⟨⟨true, now⟩ :: later, o, earlier, rfl, hat, hfive⟩
  | HalfOpen => exact ⟨[], ⟨true, now⟩, run, rfl, rfl, Nat.le_succ_of_le h⟩

/-- **What a log says of the state that it ends in.** -/
theorem Traced.counted {s : State} {t : Nat} (h : Traced log s t) :
    Counted (trailing (reports log)) s := by
  induction h with
  | nil t => exact ⟨rfl, by decide⟩
  | pass _ _ ih => exact ih
  | @event log e _ heffect ih =>
    rcases event_cases e with ha | hr | hop | hop | ⟨op, hop⟩
    · rw [reports_quiet ha.not_completes, heffect.state, ha.op_eq]
      exact ih.allowed _
    · rw [reports_quiet hr.not_completes, heffect.state, hr.op_eq]
      exact ih.allowed _
    · rw [trailing_success hop, heffect.on_success hop]
      exact ⟨rfl, by decide⟩
    · rw [trailing_failure hop, heffect.on_failure hop]
      exact ih.failed _
    · rw [reports_quiet (by rw [Completes, hop]; exact Bool.false_ne_true), heffect.service hop]
      exact ih

/-- **The breaker counts 5xx responses in a row**, over the responses in the order in which the
requests completed. -/
structure CountsInARow (d : Conf (Store σ) Req (Op I) (Op.Res R) ε Response) : Prop where
  closed : ∀ n, d.world.store.state = .Closed n ↔
    (trailing (outcomes d d.world.log)).length = n ∧ n < FAILURE_THRESHOLD
  opened : ∀ opened_at, d.world.store.state = .Open opened_at → ∃ later o earlier,
    trailing (outcomes d d.world.log) = later ++ o :: earlier ∧ o.completed_at = opened_at ∧
      FAILURE_THRESHOLD ≤ earlier.length + 1
  refused : ∀ before e after, d.world.log = before ++ e :: after → Refuses e →
    FAILURE_THRESHOLD ≤ (trailing (outcomes d before)).length

/-- **Five in a row**: whatever requests overlap, fail or are dropped, and however time passes. -/
theorem counts_in_a_row (M : Machine σ I R Ch En) (name : String)
    (inner : Req → Prog I R ε Response) (instant : Nat) (s₀ : σ)
    (ls : List (Label Req Ch (Outside En)))
    (d : Conf (Store σ) Req (Op I) (Op.Res R) ε Response)
    (run : BreakerRun M name inner (start instant s₀) ls d) : CountsInARow d := by
  have whole := (run_traced run).counted
  rw [← outcomes_eq_reports run (List.Subset.refl _)] at whole
  refine ⟨whole.closed_iff, ?_, ?_⟩
  · intro opened_at hopen
    rw [hopen] at whole
    exact whole
  · intro before e after split refused
    obtain ⟨traced, heffect⟩ := traced_before run split
    have counted := traced.counted
    rw [← outcomes_eq_reports run (split ▸ List.subset_append_left _ _)] at counted
    apply counted.long
    intro n hclosed
    rcases (heffect.refuses refused).2 with hhalf | ⟨f, hopen, _⟩
    · rw [hclosed] at hhalf
      cases hhalf
    · rw [hclosed] at hopen
      cases hopen

/-- Six requests are in flight; five fail, and a seventh arrives. -/
def six_in_flight : List SampleLabel :=
  (List.range 6).flatMap (fun t => [.spawn (), .run t none]) ++
    (List.range 5).flatMap (fun t => [.run t (some bad_gateway), .run t none]) ++
      [.spawn (), .run 6 none]

/-- The circuit is open. -/
theorem counts_in_a_row_overlapping :
    ∃ d : SampleConf, d.world.store.state = .Open 0 ∧ CountsInARow d := by
  obtain ⟨run, checked⟩ := replayed_spec (machine sample) (call "kova-gateway" sample_inner)
    sample_start six_in_flight (fun d => d.world.store.state = .Open 0) (by decide +kernel)
  exact ⟨_, of_decide_eq_true checked,
    counts_in_a_row sample "kova-gateway" sample_inner 0 () six_in_flight _ run⟩

end Kova.Gateway.CircuitBreaker

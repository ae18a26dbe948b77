import Kova.Conc.Serial
import Kova.Gateway.OpenPeriod

/-!
# The half-open state and its probe

The half-open state is left by a report only, and a call reports only when its service has
answered. A probe that is dropped, or whose service fails, leaves the circuit half-open with no
request in flight: nothing is admitted any more (`dropped_probe`). If no such end takes the last
probe away the circuit is half-open only while a probe is in flight, and after 30 quiet seconds
it admits again (`probe_in_flight`).
-/

set_option autoImplicit false

namespace Kova.Gateway.CircuitBreaker

open Conc

variable {σ Req I Ch En ε : Type} {R : I → Type} {M : Machine σ I R Ch En} {name : String}
  {inner : Req → Prog I R ε Response} {instant : Nat} {s₀ : σ}
  {ls : List (Label Req Ch (Outside En))} {l : Label Req Ch (Outside En)}
  {c d : Conf (Store σ) Req (Op I) (Op.Res R) ε Response} {e : BreakerEvent σ Req R}
  {log : List (BreakerEvent σ Req R)} {state : State} {t u : Nat}

/-- The request was admitted as a probe: the circuit was open. -/
def Probes (e : BreakerEvent σ Req R) : Prop := Admits e ∧ ∃ f, e.pre.state = .Open f

/-- Request `t` has arrived, and neither come to its end nor been dropped. -/
def InFlight (c : Conf (Store σ) Req (Op I) (Op.Res R) ε Response) (t : Nat) : Prop :=
  ∃ call, c.pool[t]? = some call ∧ call.over = false

/-- An admitted probe is in flight. -/
def ProbeInFlight (c : Conf (Store σ) Req (Op I) (Op.Res R) ε Response) (t : Nat) : Prop :=
  InFlight c t ∧ ∃ a ∈ c.world.log, Probes a ∧ a.tid = t

/-- The move ends request `t` without a response: its future is dropped, or its service fails. -/
def EndsUnanswered (l : Label Req Ch (Outside En))
    (d : Conf (Store σ) Req (Op I) (Op.Res R) ε Response) (t : Nat) : Prop :=
  l = .drop t ∨ ((∃ ch, l = .run t ch) ∧ ∃ call err, d.pool[t]? = some call ∧ call.prog = .raise err)

/-- A move that ends a request without a response, and leaves the circuit half-open, leaves
another probe in flight. -/
def KeepsProbe (c : Conf (Store σ) Req (Op I) (Op.Res R) ε Response)
    (l : Label Req Ch (Outside En)) (d : Conf (Store σ) Req (Op I) (Op.Res R) ε Response) : Prop :=
  d.world.store.state = .HalfOpen → ∀ t, EndsUnanswered l d t → ∃ u, u ≠ t ∧ ProbeInFlight c u

/-- The circuit is half-open only while a probe is in flight. -/
def NotStuck (c : Conf (Store σ) Req (Op I) (Op.Res R) ε Response) : Prop :=
  c.world.store.state = .HalfOpen → ∃ t, ProbeInFlight c t

/-- A request that arrives after `n` nanoseconds in which nothing else happens is admitted. -/
def AdmitsAfter (M : Machine σ I R Ch En) (name : String) (inner : Req → Prog I R ε Response)
    (c : Conf (Store σ) Req (Op I) (Op.Res R) ε Response) (n : Nat) : Prop :=
  ∀ req ch, ∃ d e, replay (machine M) (call name inner) c
      [.env (.advance n), .spawn req, .run c.pool.length ch] = some d ∧
    d.world.log = c.world.log ++ [e] ∧ e.req = req ∧ Admits e

theorem InFlight.of_pool (h : InFlight c t) (hpool : d.pool[t]? = c.pool[t]?) : InFlight d t := by
  obtain ⟨call, hcall, hover⟩ := h
  exact ⟨call, hpool.trans hcall, hover⟩

theorem ProbeInFlight.of_pool (h : ProbeInFlight c t) (hpool : d.pool[t]? = c.pool[t]?)
    (hlog : c.world.log ⊆ d.world.log) : ProbeInFlight d t := by
  obtain ⟨a, ha, hprobe⟩ := h.2
  exact ⟨h.1.of_pool hpool, a, hlog ha, hprobe⟩

/-- A request that completed is not in flight. -/
theorem completed_not_in_flight (h : BreakerRun M name inner (start instant s₀) ls c)
    (he : e ∈ c.world.log) (hc : Completes e) : ¬ InFlight c e.tid := by
  rintro ⟨call, hcall, hover⟩
  obtain ⟨response, ⟨call', hcall', _, hres⟩, _⟩ := answered h he (.inl hc)
  rw [hcall, Option.some.injEq] at hcall'
  subst hcall'
  cases hprog : call.prog with
  | ret a =>
    rw [Call.over, hprog] at hover
    simp [Prog.finished] at hover
  | raise err =>
    rw [hprog] at hres
    cases hres
  | await op next =>
    rw [hprog] at hres
    cases hres

/-- An admitted request that is not answered yet is in flight, unless its service failed. -/
theorem in_flight_or_failed (h : BreakerRun M name inner (start instant s₀) ls d)
    {call : Call Req (Op I) (Op.Res R) ε Response} (hcall : d.pool[t]? = some call)
    (hdropped : call.dropped = false) {a : BreakerEvent σ Req R} (ha : a ∈ d.world.log)
    (hadmits : Admits a) (htid : a.tid = t)
    (pending : ∀ x ∈ d.world.log, Completes x → x.tid ≠ t) :
    InFlight d t ∨ ∃ err, call.prog = .raise err := by
  cases hprog : call.prog with
  | await op next => exact .inl ⟨call, hcall, by rw [Call.over, hdropped, hprog]; rfl⟩
  | raise err => exact .inr ⟨err, rfl⟩
  | ret response =>
    have hguarded := (h.obeys (G := fun _ => guard) (Q := fun _ => Answers name)
      (call_guarded inner)).guarded t call hcall
    rw [hprog] at hguarded
    have hmem : a.did ∈ history t d.world.log := mem_history.mpr ⟨a, ha, htid, rfl⟩
    rcases hguarded with ⟨hrefused, _⟩ | ⟨_, _, x, hx, hxc, _⟩
    · rw [hrefused, hadmits] at hmem
      cases List.mem_singleton.mp hmem
    · obtain ⟨y, hy, hyt, rfl⟩ := mem_history.mp hx
      exact absurd hyt (pending y hy hxc)

/-- **Every move that keeps a probe** keeps the circuit from getting stuck. -/
theorem NotStuck.step (h : BreakerRun M name inner (start instant s₀) ls c) (hc : NotStuck c)
    (hstep : Conc.step (machine M) (call name inner) c l = some d) (hkeeps : KeepsProbe c l d) :
    NotStuck d := by
  intro hhalf
  have hrun : BreakerRun M name inner (start instant s₀) (ls ++ [l]) d := by
    refine .snoc h ?_ hstep
    cases l <;> simp [Scope.allows, Scope.all]
  rcases step_cases hstep with ⟨req, _, rfl⟩ |
    ⟨t, ch, call, op, next, r, s', rfl, hcall, hdropped, hprog, hexec, rfl⟩ |
    ⟨t, call, rfl, hcall, rfl⟩ | ⟨o, s', rfl, henv, rfl⟩
  · obtain ⟨u, hu⟩ := hc hhalf
    obtain ⟨call, hcall, _⟩ := hu.1
    have hlt := (List.getElem?_eq_some_iff.mp hcall).1
    exact ⟨u, hu.of_pool (List.getElem?_append_left hlt) (List.Subset.refl _)⟩
  · have heffect : Effect (⟨t, call.req, op, c.world.store, r, s'⟩ : BreakerEvent σ Req R) :=
      exec_effect hexec
    have hlt := (List.getElem?_eq_some_iff.mp hcall).1
    have others : ∀ u, u ≠ t → ProbeInFlight c u → ∃ v, ProbeInFlight
        (⟨c.world.push ⟨t, call.req, op, c.world.store, r, s'⟩,
          c.pool.set t { call with prog := next r }⟩ :
            Conf (Store σ) Req (Op I) (Op.Res R) ε Response) v := fun u hne hu =>
      ⟨u, hu.of_pool (List.getElem?_set_ne hne.symm) (List.subset_append_left _ _)⟩
    -- The call that moved is a probe: it is in flight, or its service failed.
    have moved : ∀ a ∈ (c.world.push ⟨t, call.req, op, c.world.store, r, s'⟩).log, Probes a →
        a.tid = t → ¬ op.completes = true → ∃ v, ProbeInFlight
          (⟨c.world.push ⟨t, call.req, op, c.world.store, r, s'⟩,
            c.pool.set t { call with prog := next r }⟩ :
              Conf (Store σ) Req (Op I) (Op.Res R) ε Response) v := by
      intro a ha hprobe htid hop
      have hself : (c.pool.set t { call with prog := next r })[t]? =
          some { call with prog := next r } := List.getElem?_set_self hlt
      have pending : ∀ x ∈ (c.world.push ⟨t, call.req, op, c.world.store, r, s'⟩).log,
          Completes x → x.tid ≠ t := by
        intro x hx hxc hxt
        rcases List.mem_append.mp hx with hx | hx
        · refine completed_not_in_flight h hx hxc ⟨call, by rwa [hxt], ?_⟩
          rw [Call.over, hdropped, hprog]
          rfl
        · rw [List.mem_singleton.mp hx] at hxc
          exact hop hxc
      rcases in_flight_or_failed hrun hself hdropped ha hprobe.1 htid pending with
        hfly | ⟨err, herr⟩
      · exact ⟨t, hfly, a, ha, hprobe, htid⟩
      · obtain ⟨u, hne, hu⟩ := hkeeps hhalf t (.inr ⟨⟨ch, rfl⟩, _, err, hself, herr⟩)
        exact others u hne hu
    rcases heffect.probes_of_post hhalf with ⟨ha, f, hpre, _⟩ | ⟨hpre, _⟩
    · refine moved _ (List.mem_append_right _ (List.mem_singleton.mpr rfl)) ⟨ha, f, hpre⟩ rfl ?_
      exact ha.not_completes
    · obtain ⟨u, hu⟩ := hc hpre
      by_cases hut : u = t
      · subst hut
        obtain ⟨a, ha, hprobe, htid⟩ := hu.2
        apply moved a (List.mem_append_left _ ha) hprobe htid
        intro hcompletes
        rcases completes_cases (e := (⟨u, call.req, op, c.world.store, r, s'⟩ :
          BreakerEvent σ Req R)) hcompletes with hop | hop
        · have hclosed := heffect.on_success hop
          rw [show s'.state = .HalfOpen from hhalf] at hclosed
          cases hclosed
        · have hopen := heffect.on_failure hop
          rw [show s'.state = .HalfOpen from hhalf, hpre] at hopen
          cases hopen
      · exact others u hut hu
  · obtain ⟨u, hu⟩ := hc hhalf
    have others : ∀ v, v ≠ t → ProbeInFlight c v → ∃ w, ProbeInFlight
        ({ c with pool := c.pool.set t { call with dropped := true } } :
          Conf (Store σ) Req (Op I) (Op.Res R) ε Response) w := fun v hne hv =>
      ⟨v, hv.of_pool (List.getElem?_set_ne hne.symm) (List.Subset.refl _)⟩
    by_cases hut : u = t
    · obtain ⟨v, hne, hv⟩ := hkeeps hhalf t (.inl rfl)
      exact others v hne hv
    · exact others u hut hu
  · have hpre : c.world.store.state = .HalfOpen := by
      cases o with
      | advance n =>
        cases henv
        exact hhalf
      | inner o =>
        obtain ⟨s₁, _, rfl⟩ := Option.map_eq_some_iff.mp henv
        exact hhalf
    obtain ⟨u, hu⟩ := hc hpre
    exact ⟨u, hu.of_pool rfl (List.Subset.refl _)⟩

/-- An open circuit was opened in the past. -/
theorem opened_before (h : Traced log state t) : ∀ f, state = .Open f → f ≤ t := by
  induction h with
  | nil t =>
    intro f hf
    cases hf
  | pass _ hle ih =>
    intro f hf
    exact (ih f hf).trans hle
  | event _ heffect ih =>
    intro f hf
    rcases heffect.opens_of_post hf with hopens | ⟨hpre, _⟩
    · exact (hopens.time heffect).le
    · exact ih f hpre

/-- After 30 seconds a circuit that is not half-open admits. -/
theorem admits_after {n : Nat} (hstate : c.world.store.state ≠ .HalfOpen)
    (hpast : ∀ f, c.world.store.state = .Open f → f ≤ c.world.store.instant)
    (hn : OPEN_DURATION ≤ n) : AdmitsAfter M name inner c n := by
  intro req ch
  have hok : (allow_request (c.world.store.instant + n) c.world.store.state).1 = true := by
    cases hc : c.world.store.state with
    | Closed k => rfl
    | Open f =>
      have hf := hpast f hc
      have helapsed : OPEN_DURATION ≤ c.world.store.instant + n - f := by omega
      simp only [allow_request, if_pos helapsed]
    | HalfOpen => exact absurd hc hstate
  have hcall : (c.pool ++ [{ req, prog := call name inner req }])[c.pool.length]? =
      some ({ req, prog := call name inner req } : Call Req (Op I) (Op.Res R) ε Response) := by
    rw [List.getElem?_append_right (Nat.le_refl _), Nat.sub_self, List.getElem?_cons_zero]
  let later : Store σ := { c.world.store with instant := c.world.store.instant + n }
  let e : BreakerEvent σ Req R := ⟨c.pool.length, req, .allow_request, later,
    (allow_request later.instant later.state).1,
    { later with state := (allow_request later.instant later.state).2 }⟩
  let arrived : Conf (Store σ) Req (Op I) (Op.Res R) ε Response :=
    ⟨c.world.moved later, c.pool ++ [{ req, prog := call name inner req }]⟩
  have hexec : (machine M).exec c.pool.length ch arrived.world.store .allow_request =
      some (e.res, e.post) := rfl
  have hrun : Conc.step (machine M) (call name inner) arrived (.run c.pool.length ch) = _ :=
    step_run hcall rfl rfl hexec
  have hreplay : replay (machine M) (call name inner) c
      [.env (.advance n), .spawn req, .run c.pool.length ch] = _ :=
    congrArg (fun d => d.bind some) hrun
  refine ⟨_, e, hreplay, rfl, rfl, ?_⟩
  show (⟨.allow_request, (allow_request later.instant later.state).1⟩ : BreakerDone R) = _
  rw [hok]

/-- **The breaker does not get stuck**: in every run whose moves keep a probe, in every state
reached, the circuit is half-open only while an admitted probe is in flight; and from a state
with no request in flight, a request that arrives 30 seconds later or more is admitted. -/
theorem probe_in_flight (M : Machine σ I R Ch En) (name : String)
    (inner : Req → Prog I R ε Response) (instant : Nat) (s₀ : σ)
    (ls : List (Label Req Ch (Outside En)))
    (d : Conf (Store σ) Req (Op I) (Op.Res R) ε Response)
    (h : RunWhere (machine M) (call name inner) KeepsProbe (start instant s₀) ls d) :
    NotStuck d ∧ ((∀ t, ¬ InFlight d t) → ∀ n, OPEN_DURATION ≤ n → AdmitsAfter M name inner d n) := by
  have stuck : NotStuck d := by
    induction h with
    | nil =>
      intro hhalf
      cases hhalf
    | snoc hrun hstep hkeeps ih => exact ih.step hrun.run hstep hkeeps
  refine ⟨stuck, ?_⟩
  intro quiet n hn
  refine admits_after ?_ (opened_before (run_traced h.run)) hn
  intro hhalf
  obtain ⟨t, ht⟩ := stuck hhalf
  exact quiet t ht.1

/-- Whether a move drops no request and leaves no request failed. -/
def answers_only (l : SampleLabel) (d : SampleConf) : Bool :=
  match l with
  | .drop _ => false
  | .run t _ =>
    match d.pool[t]? with
    | some call =>
      match call.prog with
      | .raise _ => false
      | _ => true
    | none => true
  | _ => true

theorem answers_only_keeps (c : SampleConf) (l : SampleLabel) (d : SampleConf)
    (h : answers_only l d = true) : KeepsProbe c l d := by
  rintro _ t (rfl | ⟨⟨ch, rfl⟩, call, err, hcall, hprog⟩)
  · cases h
  · simp [answers_only, hcall, hprog] at h

/-- The guarantee after a cycle with a probe that succeeds. -/
theorem probe_in_flight_one_cycle : ∃ d : SampleConf,
    RunWhere (machine sample) (call "kova-gateway" sample_inner) KeepsProbe sample_start one_cycle d ∧
      NotStuck d := by
  obtain ⟨d, hd⟩ := Option.isSome_iff_exists.mp
    (show (replay_where (machine sample) (call "kova-gateway" sample_inner) answers_only
      sample_start one_cycle).isSome = true by decide +kernel)
  have run := run_where_of_replay answers_only_keeps hd
  exact ⟨d, run, (probe_in_flight sample "kova-gateway" sample_inner 0 () one_cycle d run).1⟩

/-- Five failures, and a probe whose client goes away. -/
def dropped : List SampleLabel :=
  five_failures ++ [.env (.advance 30000000000), .spawn (), .run 5 none, .drop 5]

/-- A dropped probe leaves the circuit half-open with no request in flight. -/
theorem dropped_probe :
    ¬ ∀ (ls : List SampleLabel) (d : SampleConf),
      BreakerRun sample "kova-gateway" sample_inner sample_start ls d → NotStuck d := by
  intro claim
  obtain ⟨run, checked⟩ := replayed_spec (machine sample) (call "kova-gateway" sample_inner)
    sample_start dropped
    (fun d => decide (d.world.store.state = .HalfOpen) && d.pool.all Call.over)
    (by decide +kernel)
  obtain ⟨hhalf, hover⟩ := Bool.and_eq_true_iff.mp checked
  obtain ⟨t, ⟨call, hcall, hfly⟩, _⟩ := claim dropped _ run (of_decide_eq_true hhalf)
  rw [List.all_eq_true.mp hover call (List.mem_of_getElem? hcall)] at hfly
  cases hfly

end Kova.Gateway.CircuitBreaker

import Kova.Gateway.CircuitBreaker

/-!
# What the breaker and its calls do

- `Effect`, `event_cases`: what one executed operation makes of the state.
- `Traced`: the log of a run with the state and the clock it ends in, built up event by event;
  facts about the state are proved by induction on it (`run_traced`).
- `call_guarded`: the operations of one call come in order: one admission, the service, one
  report. So a request completes at most once, after its admission (`completes_once`), and its
  report is the class of its response (`reported_response`).
-/

set_option autoImplicit false

namespace Kova.Gateway.CircuitBreaker

open Conc

variable {σ Req I Ch En ε : Type} {R : I → Type} {M : Machine σ I R Ch En} {name : String}
  {inner : Req → Prog I R ε Response} {instant : Nat} {s₀ : σ}
  {ls : List (Label Req Ch (Outside En))}
  {c d : Conf (Store σ) Req (Op I) (Op.Res R) ε Response} {e : BreakerEvent σ Req R}
  {before after log : List (BreakerEvent σ Req R)}

/-! ## One operation -/

/-- What an operation makes of the state. -/
def effect (now : Nat) : Op I → State → State
  | .allow_request, s => (allow_request now s).2
  | .on_success, s => on_success s
  | .on_failure, s => on_failure now s
  | .inner _, s => s

/-- An event that did to the breaker what its operation does. -/
structure Effect (e : BreakerEvent σ Req R) : Prop where
  state : e.post.state = effect e.pre.instant e.op e.pre.state
  instant : e.post.instant = e.pre.instant
  answer : ∀ b, e.did = ⟨.allow_request, b⟩ → (allow_request e.pre.instant e.pre.state).1 = b

theorem exec_effect {t : Nat} {ch : Ch} {req : Req} {s s' : Store σ} {op : Op I} {r : op.Res R}
    (h : exec M t ch s op = some (r, s')) : Effect (⟨t, req, op, s, r, s'⟩ : BreakerEvent σ Req R) := by
  cases op with
  | allow_request =>
    cases h
    refine ⟨rfl, rfl, ?_⟩
    intro b hb
    cases hb
    rfl
  | on_success =>
    cases h
    refine ⟨rfl, rfl, ?_⟩
    intro b hb
    cases hb
  | on_failure =>
    cases h
    refine ⟨rfl, rfl, ?_⟩
    intro b hb
    cases hb
  | inner op =>
    obtain ⟨⟨x, s₁⟩, _, hs⟩ := Option.map_eq_some_iff.mp h
    cases hs
    refine ⟨rfl, rfl, ?_⟩
    intro b hb
    cases hb

/-- An admission: the circuit is closed, or has been open for its time and becomes half-open. -/
theorem Effect.admits (h : Effect e) (ha : Admits e) :
    (∃ n, e.pre.state = .Closed n ∧ e.post.state = .Closed n) ∨
      ∃ f, e.pre.state = .Open f ∧ f + OPEN_DURATION ≤ e.pre.instant ∧
        e.post.state = .HalfOpen := by
  have hop : e.op = .allow_request := congrArg Done.op ha
  have hanswer := h.answer true ha
  have hstate := h.state
  rw [hop] at hstate
  simp only [effect] at hstate
  cases hpre : e.pre.state with
  | Closed n =>
    rw [hpre] at hstate
    exact .inl ⟨n, rfl, hstate⟩
  | Open f =>
    rw [hpre] at hanswer hstate
    simp only [allow_request] at hanswer hstate
    by_cases helapsed : OPEN_DURATION ≤ e.pre.instant - f
    · rw [if_pos helapsed] at hstate
      refine .inr ⟨f, rfl, ?_, hstate⟩
      unfold OPEN_DURATION at *
      omega
    · rw [if_neg helapsed] at hanswer
      cases hanswer
  | HalfOpen =>
    rw [hpre] at hanswer
    cases hanswer

/-- A refusal: the circuit is half-open, or open and within its time; it stays as it is. -/
theorem Effect.refuses (h : Effect e) (hr : Refuses e) :
    e.post.state = e.pre.state ∧ (e.pre.state = .HalfOpen ∨
      ∃ f, e.pre.state = .Open f ∧ e.pre.instant < f + OPEN_DURATION) := by
  have hop : e.op = .allow_request := congrArg Done.op hr
  have hanswer := h.answer false hr
  have hstate := h.state
  rw [hop] at hstate
  simp only [effect] at hstate
  cases hpre : e.pre.state with
  | Closed n =>
    rw [hpre] at hanswer
    cases hanswer
  | Open f =>
    rw [hpre] at hanswer hstate
    simp only [allow_request] at hanswer hstate
    by_cases helapsed : OPEN_DURATION ≤ e.pre.instant - f
    · rw [if_pos helapsed] at hanswer
      cases hanswer
    · rw [if_neg helapsed] at hstate
      refine ⟨hstate, .inr ⟨f, rfl, ?_⟩⟩
      omega
  | HalfOpen =>
    rw [hpre] at hstate
    exact ⟨hstate, .inl rfl⟩

/-- An admission check is an admission or a refusal. -/
theorem admits_or_refuses (hop : e.op = .allow_request) : Admits e ∨ Refuses e := by
  obtain ⟨t, req, op, pre, res, post⟩ := e
  cases hop
  cases res with
  | true => exact .inl rfl
  | false => exact .inr rfl

/-- **When a request is admitted**: the circuit is closed, or has been open for its time. -/
theorem Effect.admits_iff (h : Effect e) (hop : e.op = .allow_request) :
    Admits e ↔ (∃ n, e.pre.state = .Closed n) ∨
      ∃ f, e.pre.state = .Open f ∧ f + OPEN_DURATION ≤ e.pre.instant := by
  constructor
  · intro ha
    rcases h.admits ha with ⟨n, hclosed, _⟩ | ⟨f, hopen, hlate, _⟩
    · exact .inl ⟨n, hclosed⟩
    · exact .inr ⟨f, hopen, hlate⟩
  · intro hpassage
    rcases admits_or_refuses hop with ha | hr
    · exact ha
    · obtain ⟨_, hhalf | ⟨f', hopen', hearly⟩⟩ := h.refuses hr
      · rcases hpassage with ⟨n, hclosed⟩ | ⟨f, hopen, _⟩
        · rw [hclosed] at hhalf
          cases hhalf
        · rw [hopen] at hhalf
          cases hhalf
      · rcases hpassage with ⟨n, hclosed⟩ | ⟨f, hopen, hlate⟩
        · rw [hclosed] at hopen'
          cases hopen'
        · rw [hopen, State.Open.injEq] at hopen'
          omega

/-- The kinds of events. -/
theorem event_cases (e : BreakerEvent σ Req R) :
    Admits e ∨ Refuses e ∨ e.op = .on_success ∨ e.op = .on_failure ∨ ∃ op, e.op = .inner op := by
  cases hop : e.op with
  | allow_request =>
    rcases admits_or_refuses hop with h | h
    · exact .inl h
    · exact .inr (.inl h)
  | on_success => exact .inr (.inr (.inl rfl))
  | on_failure => exact .inr (.inr (.inr (.inl rfl)))
  | inner op => exact .inr (.inr (.inr (.inr ⟨op, rfl⟩)))

theorem Effect.on_success (h : Effect e) (hop : e.op = .on_success) :
    e.post.state = .Closed 0 := by
  have hstate := h.state
  rwa [hop] at hstate

theorem Effect.on_failure (h : Effect e) (hop : e.op = .on_failure) :
    e.post.state = CircuitBreaker.on_failure e.pre.instant e.pre.state := by
  have hstate := h.state
  rwa [hop] at hstate

theorem Effect.service (h : Effect e) {op : I} (hop : e.op = .inner op) :
    e.post.state = e.pre.state := by
  have hstate := h.state
  rwa [hop] at hstate

theorem Admits.op_eq (h : Admits e) : e.op = .allow_request := congrArg Done.op h

theorem Refuses.op_eq (h : Refuses e) : e.op = .allow_request := congrArg Done.op h

theorem Admits.not_completes (h : Admits e) : ¬ Completes e := by
  rw [Completes, h.op_eq]
  exact Bool.false_ne_true

theorem Refuses.not_completes (h : Refuses e) : ¬ Completes e := by
  rw [Completes, h.op_eq]
  exact Bool.false_ne_true

theorem Refuses.not_admits (h : Refuses e) : ¬ Admits e := by
  intro ha
  have hd := ha.symm.trans h
  cases hd

theorem completes_cases (h : Completes e) : e.op = .on_success ∨ e.op = .on_failure := by
  unfold Completes at h
  cases hop : e.op <;> rw [hop] at h
  · cases h
  · exact .inl rfl
  · exact .inr rfl
  · cases h

/-! ## The log of a run -/

/-- A log, with the state and the moment it ends in. -/
inductive Traced : List (BreakerEvent σ Req R) → State → Nat → Prop
  | nil (t : Nat) : Traced [] .init t
  | pass {log : List (BreakerEvent σ Req R)} {state : State} {t t' : Nat} :
      Traced log state t → t ≤ t' → Traced log state t'
  | event {log : List (BreakerEvent σ Req R)} {e : BreakerEvent σ Req R} :
      Traced log e.pre.state e.pre.instant → Effect e →
        Traced (log ++ [e]) e.post.state e.pre.instant

/-- A split of a longer log. -/
theorem split_snoc {b mid : List (BreakerEvent σ Req R)} {a : BreakerEvent σ Req R}
    (split : log ++ [e] = b ++ a :: mid) :
    (mid = [] ∧ log = b ∧ e = a) ∨ ∃ mid', mid = mid' ++ [e] ∧ log = b ++ a :: mid' := by
  rcases List.eq_nil_or_concat mid with rfl | ⟨mid', last, rfl⟩
  · obtain ⟨hlog, he⟩ := List.append_inj' split rfl
    exact .inl ⟨rfl, hlog, (List.cons.inj he).1⟩
  · rw [List.concat_eq_append, ← List.cons_append, ← List.append_assoc] at split
    obtain ⟨hlog, he⟩ := List.append_inj' split rfl
    refine .inr ⟨mid', ?_, hlog⟩
    rw [List.concat_eq_append, (List.cons.inj he).1]

/-- **The log of a run** ends in the state and at the moment of the store. -/
theorem run_traced (h : BreakerRun M name inner (start instant s₀) ls d) :
    Traced d.world.log d.world.store.state d.world.store.instant := by
  refine h.invariant (P := fun d => Traced d.world.log d.world.store.state d.world.store.instant)
    ?_ (.nil instant)
  intro c d l hc _ hstep
  rcases step_cases hstep with ⟨req, _, rfl⟩ |
    ⟨t, ch, call, op, next, r, s', _, _, _, _, hexec, rfl⟩ | ⟨t, call, _, _, rfl⟩ |
    ⟨o, s', _, henv, rfl⟩
  · exact hc
  · have heffect : Effect (⟨t, call.req, op, c.world.store, r, s'⟩ : BreakerEvent σ Req R) :=
      exec_effect hexec
    have hevent := Traced.event hc heffect
    rw [World.push_log, World.push_store]
    show Traced _ s'.state s'.instant
    rw [show s'.instant = c.world.store.instant from heffect.instant]
    exact hevent
  · exact hc
  · cases o with
    | advance n =>
      cases henv
      exact hc.pass (Nat.le_add_right _ _)
    | inner o =>
      obtain ⟨s₁, _, rfl⟩ := Option.map_eq_some_iff.mp henv
      exact hc

/-- The log before an event ends in the state and at the moment that the event found. -/
theorem traced_before (h : BreakerRun M name inner (start instant s₀) ls d)
    (split : d.world.log = before ++ e :: after) :
    Traced before e.pre.state e.pre.instant ∧ Effect e := by
  obtain ⟨_, c, hrun, hworld, _, ch, _, hexec⟩ := h.at_event (List.nil_append _).symm split
  have htraced := run_traced hrun
  rw [hworld] at htraced
  exact ⟨htraced, exec_effect hexec⟩

/-! ## The operations of one call -/

/-- One executed operation of a call, with its result. -/
abbrev BreakerDone {I : Type} (R : I → Type) := Done (Op I) (Op.Res R)

/-- What comes before an operation of a call: nothing before the admission check, the admission
and no report before anything else. -/
def guard (h : List (BreakerDone R)) : Op I → Prop
  | .allow_request => h = []
  | _ => ⟨.allow_request, true⟩ ∈ h ∧ ⟨.allow_request, false⟩ ∉ h ∧
      ∀ x ∈ h, x.op.completes = false

/-- What a result says: an answered request was refused, or its response was reported; a failed
one was neither. -/
def Answers (name : String) (h : List (BreakerDone R)) : Except ε Response → Prop
  | .ok response =>
    (h = [⟨.allow_request, false⟩] ∧ response = ApiError.service_unavailable name) ∨
      ((⟨.allow_request, true⟩ : BreakerDone R) ∈ h ∧ (⟨.allow_request, false⟩ : BreakerDone R) ∉ h ∧
        ∃ x ∈ h, x.op.completes = true ∧ ∀ y ∈ h, y.op.completes = true →
          y.op = if response.is_server_error then .on_failure else .on_success)
  | .error _ => (⟨.allow_request, false⟩ : BreakerDone R) ∉ h ∧ ∀ x ∈ h, x.op.completes = false

theorem admitted_first : (⟨.allow_request, false⟩ : BreakerDone R) ∉ [⟨.allow_request, true⟩] := by
  intro hmem
  cases List.mem_singleton.mp hmem

/-- No operation but an admission check refuses. -/
theorem admitted_snoc {h : List (BreakerDone R)} {x : BreakerDone R}
    (admitted : ⟨.allow_request, false⟩ ∉ h) (hx : x.op ≠ .allow_request) :
    ⟨.allow_request, false⟩ ∉ h ++ [x] := by
  intro hmem
  rcases List.mem_append.mp hmem with hmem | hmem
  · exact admitted hmem
  · rw [← List.mem_singleton.mp hmem] at hx
    exact hx rfl

/-- The report of a response, after an admission. -/
theorem report_guarded {h : List (BreakerDone R)} {response : Response}
    (admitted : ⟨.allow_request, true⟩ ∈ h) (only : ⟨.allow_request, false⟩ ∉ h)
    (fresh : ∀ x ∈ h, x.op.completes = false) :
    Guarded guard (Answers name) (report response : Prog (Op I) (Op.Res R) ε Response) h := by
  have answers : ∀ (op : Op I) (r : op.Res R), op.completes = true →
      (op = if response.is_server_error then .on_failure else .on_success) →
        Answers name (h ++ [⟨op, r⟩]) (.ok response : Except ε Response) := by
    intro op r hcompletes hclass
    refine .inr ⟨by simp [admitted], admitted_snoc only ?_, ⟨op, r⟩, by simp, hcompletes, ?_⟩
    · rintro rfl
      cases hcompletes
    · intro y hy hy'
      rcases List.mem_append.mp hy with hy | hy
      · rw [fresh y hy] at hy'
        cases hy'
      · rw [List.mem_singleton.mp hy]
        exact hclass
  unfold report
  by_cases hclass : response.is_server_error = true
  · rw [if_pos hclass]
    refine ⟨⟨admitted, only, fresh⟩, ?_⟩
    intro r
    exact answers .on_failure r rfl (by rw [if_pos hclass])
  · rw [if_neg hclass]
    refine ⟨⟨admitted, only, fresh⟩, ?_⟩
    intro r
    exact answers .on_success r rfl (by rw [if_neg hclass])

/-- The service inside a call, and the report of what it answers. -/
theorem inward_guarded (p : Prog I R ε Response) : ∀ {h : List (BreakerDone R)},
    ⟨.allow_request, true⟩ ∈ h → ⟨.allow_request, false⟩ ∉ h →
      (∀ x ∈ h, x.op.completes = false) →
        Guarded guard (Answers name) (inward p >>= report) h := by
  induction p with
  | ret response =>
    intro h admitted only fresh
    exact report_guarded admitted only fresh
  | raise e =>
    intro h _ only fresh
    exact ⟨only, fresh⟩
  | await op next ih =>
    intro h admitted only fresh
    refine ⟨⟨admitted, only, fresh⟩, ?_⟩
    intro r
    apply ih r (List.mem_append_left _ admitted) (admitted_snoc only (by simp))
    intro x hx
    rcases List.mem_append.mp hx with hx | hx
    · exact fresh x hx
    · rw [List.mem_singleton.mp hx]
      rfl

/-- **The operations of a call come in order.** -/
theorem call_guarded (inner : Req → Prog I R ε Response) (req : Req) :
    Guarded guard (Answers name) (call name inner req) [] := by
  refine ⟨rfl, ?_⟩
  intro ok
  cases ok with
  | false => exact .inl ⟨rfl, rfl⟩
  | true =>
    apply inward_guarded (inner req) (by simp) admitted_first
    intro x hx
    rw [List.mem_singleton.mp hx]
    rfl

/-! ## The service within a call -/

/-- The service's operations within the history of a call. -/
def served (h : List (BreakerDone R)) : List (Done I R) :=
  h.filterMap fun
    | ⟨.inner op, r⟩ => some ⟨op, r⟩
    | _ => none

/-- A condition on the service's operations, within a call. -/
def within (G : List (Done I R) → I → Prop) (h : List (BreakerDone R)) : Op I → Prop
  | .inner op => G (served h) op
  | _ => True

theorem served_snoc (h : List (BreakerDone R)) (op : I) (r : R op) :
    served (h ++ [⟨.inner op, r⟩]) = served h ++ [⟨op, r⟩] := by
  simp [served, List.filterMap_append]

theorem mem_served {h : List (BreakerDone R)} {op : I} {r : R op} :
    ⟨op, r⟩ ∈ served h ↔ ⟨.inner op, r⟩ ∈ h := by
  constructor
  · intro hmem
    obtain ⟨⟨op', r'⟩, hx, hsome⟩ := List.mem_filterMap.mp hmem
    cases op' with
    | inner op' =>
      cases hsome
      exact hx
    | allow_request => cases hsome
    | on_success => cases hsome
    | on_failure => cases hsome
  · intro hmem
    exact List.mem_filterMap.mpr ⟨_, hmem, rfl⟩

theorem inward_within {G : List (Done I R) → I → Prop}
    {Q : List (Done I R) → Except ε Response → Prop} (p : Prog I R ε Response) :
    ∀ {h : List (BreakerDone R)}, Guarded G Q p (served h) →
      Guarded (within G) (fun _ _ => True) (inward p >>= report) h := by
  induction p with
  | ret response =>
    intro h _
    show Guarded _ _ (report response) h
    unfold report
    by_cases hclass : response.is_server_error = true
    · rw [if_pos hclass]
      exact ⟨trivial, fun _ => trivial⟩
    · rw [if_neg hclass]
      exact ⟨trivial, fun _ => trivial⟩
  | raise e =>
    intro h _
    trivial
  | await op next ih =>
    intro h hguarded
    refine ⟨hguarded.1, ?_⟩
    intro (r : R op)
    have hnext := hguarded.2 r
    rw [← served_snoc] at hnext
    exact ih r hnext

/-- **What guards the service** guards it within a call. -/
theorem call_within {G : List (Done I R) → I → Prop}
    {Q : List (Done I R) → Except ε Response → Prop} {req : Req}
    (h : Guarded G Q (inner req) []) :
    Guarded (within G) (fun _ _ => True) (call name inner req) [] := by
  refine ⟨trivial, ?_⟩
  intro ok
  cases ok with
  | false => trivial
  | true => exact inward_within (inner req) h

/-- What a result says that is the service's own: the request was refused, or the service's
operations within the call answer `Q`. -/
def AnsweredWithin (name : String) (Q : List (Done I R) → Except ε Response → Prop)
    (h : List (BreakerDone R)) (r : Except ε Response) : Prop :=
  ((⟨.allow_request, false⟩ : BreakerDone R) ∈ h ∧ r = .ok (ApiError.service_unavailable name)) ∨
    ((⟨.allow_request, false⟩ : BreakerDone R) ∉ h ∧ Q (served h) r)

/-- A report is none of the service's operations. -/
theorem served_report (h : List (BreakerDone R)) {x : BreakerDone R}
    (hx : x.op.completes = true) : served (h ++ [x]) = served h := by
  obtain ⟨op, r⟩ := x
  cases op with
  | allow_request => cases hx
  | inner op => cases hx
  | on_success => simp [served, List.filterMap_append]
  | on_failure => simp [served, List.filterMap_append]

theorem inward_answers {G : List (Done I R) → I → Prop}
    {Q : List (Done I R) → Except ε Response → Prop} (p : Prog I R ε Response) :
    ∀ {h : List (BreakerDone R)}, (⟨.allow_request, false⟩ : BreakerDone R) ∉ h →
      Guarded G Q p (served h) →
        Guarded (within G) (AnsweredWithin name Q) (inward p >>= report) h := by
  induction p with
  | ret response =>
    intro h admitted hanswer
    have reported : ∀ x : BreakerDone R, x.op.completes = true →
        AnsweredWithin name Q (h ++ [x]) (.ok response) := by
      intro x hx
      refine .inr ⟨admitted_snoc admitted ?_, ?_⟩
      · intro hop
        rw [hop] at hx
        cases hx
      · rw [served_report h hx]
        exact hanswer
    show Guarded _ _ (report response) h
    unfold report
    by_cases hclass : response.is_server_error = true
    · rw [if_pos hclass]
      exact ⟨trivial, fun r => reported ⟨.on_failure, r⟩ rfl⟩
    · rw [if_neg hclass]
      exact ⟨trivial, fun r => reported ⟨.on_success, r⟩ rfl⟩
  | raise e =>
    intro h admitted hanswer
    exact .inr ⟨admitted, hanswer⟩
  | await op next ih =>
    intro h admitted hguarded
    refine ⟨hguarded.1, ?_⟩
    intro (r : R op)
    have hnext := hguarded.2 r
    rw [← served_snoc] at hnext
    exact ih r (admitted_snoc admitted (by simp)) hnext

/-- **What the service answers** is what the call answers, unless it is refused. -/
theorem call_answers {G : List (Done I R) → I → Prop}
    {Q : List (Done I R) → Except ε Response → Prop} {req : Req}
    (h : Guarded G Q (inner req) []) :
    Guarded (within G) (AnsweredWithin name Q) (call name inner req) [] := by
  refine ⟨trivial, ?_⟩
  intro ok
  cases ok with
  | false => exact .inl ⟨List.mem_singleton.mpr rfl, rfl⟩
  | true => exact inward_answers (inner req) admitted_first h

/-! ## Requests in a run -/

/-- **A request completes at most once**, after its admission. -/
theorem completes_once (h : BreakerRun M name inner (start instant s₀) ls d)
    (split : d.world.log = before ++ e :: after) (he : Completes e) :
    (∃ a ∈ before, Admits a ∧ a.tid = e.tid) ∧
      ∀ x ∈ before, Completes x → x.tid ≠ e.tid := by
  have hguard := h.guard (G := fun _ => guard) (call_guarded inner) split
  have hdone : (⟨.allow_request, true⟩ : BreakerDone R) ∈ history e.tid before ∧
      ∀ x ∈ history e.tid before, x.op.completes = false := by
    rcases completes_cases he with hop | hop <;> rw [hop] at hguard <;>
      exact ⟨hguard.1, hguard.2.2⟩
  refine ⟨?_, ?_⟩
  · obtain ⟨a, ha, ht, hdid⟩ := mem_history.mp hdone.1
    exact ⟨a, ha, hdid, ht⟩
  · intro x hx hcompletes ht
    have hfalse := hdone.2 x.did (mem_history.mpr ⟨x, hx, ht, rfl⟩)
    exact absurd hcompletes (Bool.eq_false_iff.mp hfalse)

/-- A call that has completed or was refused has its answer. -/
theorem answered (h : BreakerRun M name inner (start instant s₀) ls d) (he : e ∈ d.world.log)
    (hend : Completes e ∨ Refuses e) :
    ∃ response, d.returned e.tid e.req (.ok response) ∧
      Answers name (history e.tid d.world.log) (.ok response : Except ε Response) := by
  have hobeys := h.obeys (G := fun _ => guard) (Q := fun _ => Answers name) (call_guarded inner)
  obtain ⟨call, hcall, hreq⟩ := hobeys.called e he
  have hmem : e.did ∈ history e.tid d.world.log := mem_history.mpr ⟨e, he, rfl, rfl⟩
  have hguarded := hobeys.guarded e.tid call hcall
  have stuck : ∀ op : Op I, ¬ guard (history e.tid d.world.log) op := by
    intro op hop
    rcases hend with hend | hend
    · have hnot : ∀ x ∈ history e.tid d.world.log, x.op.completes = false := by
        cases op with
        | allow_request =>
          intro x hx
          rw [show history e.tid d.world.log = [] from hop] at hx
          cases hx
        | _ => exact hop.2.2
      exact absurd hend (Bool.eq_false_iff.mp (hnot e.did hmem))
    · rw [hend] at hmem
      cases op with
      | allow_request =>
        rw [show history e.tid d.world.log = [] from hop] at hmem
        cases hmem
      | _ => exact hop.2.1 hmem
  cases hprog : call.prog with
  | ret response =>
    rw [hprog] at hguarded
    exact ⟨response, ⟨call, hcall, hreq, by rw [hprog]; rfl⟩, hguarded⟩
  | raise err =>
    rw [hprog] at hguarded
    obtain ⟨only, fresh⟩ := hguarded
    rcases hend with hend | hend
    · exact absurd hend (Bool.eq_false_iff.mp (fresh e.did hmem))
    · rw [hend] at hmem
      exact absurd hmem only
  | await op next =>
    rw [hprog] at hguarded
    exact absurd hguarded.1 (stuck op)

/-- **A report is the class of the response**: a call that completed has returned a response,
and reported a failure exactly for a 5xx. -/
theorem reported_response (h : BreakerRun M name inner (start instant s₀) ls d)
    (he : e ∈ d.world.log) (hc : Completes e) :
    ∃ response, d.returned e.tid e.req (.ok response) ∧
      e.op = if response.is_server_error then .on_failure else .on_success := by
  obtain ⟨response, hreturned, hanswers⟩ := answered h he (.inl hc)
  have hmem : e.did ∈ history e.tid d.world.log := mem_history.mpr ⟨e, he, rfl, rfl⟩
  rcases hanswers with ⟨hrefused, _⟩ | ⟨_, _, _, _, _, hclass⟩
  · rw [hrefused] at hmem
    have heq := congrArg Done.op (List.mem_singleton.mp hmem)
    rw [Completes, show e.op = .allow_request from heq] at hc
    cases hc
  · exact ⟨response, hreturned, hclass e.did hmem hc⟩

/-- A refused call executed nothing else, and has returned 503. -/
theorem refused_response (h : BreakerRun M name inner (start instant s₀) ls d)
    (he : e ∈ d.world.log) (hr : Refuses e) :
    d.returned e.tid e.req (.ok (ApiError.service_unavailable name)) ∧
      history e.tid d.world.log = [⟨.allow_request, false⟩] := by
  obtain ⟨response, hreturned, hanswers⟩ := answered h he (.inr hr)
  have hmem : e.did ∈ history e.tid d.world.log := mem_history.mpr ⟨e, he, rfl, rfl⟩
  rcases hanswers with ⟨hrefused, hresponse⟩ | ⟨_, only, _⟩
  · rw [hresponse] at hreturned
    exact ⟨hreturned, hrefused⟩
  · rw [hr] at hmem
    exact absurd hmem only

end Kova.Gateway.CircuitBreaker

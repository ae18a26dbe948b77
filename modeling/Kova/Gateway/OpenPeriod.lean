import Kova.Gateway.BreakerLaws

/-!
# The open period under overlapping requests

`on_success` and `on_failure` ask for neither the state nor the request that reports. A request
admitted before the circuit opened may therefore close it, or decide a probe that is not its
own, when it completes late. Without such stragglers the breaker keeps what it promises
(`open_period_honoured`): nothing is admitted for 30 seconds, then one probe, and its outcome
alone decides. The proof needs four facts about the log, each by induction on it: the times of
the openings (`timed`), what the state says of the last one (`cycle`), and where the log stands
between an opening, its probe and the probe's completion (`still_open`, `probing`).
-/

set_option autoImplicit false

namespace Kova.Gateway.CircuitBreaker

open Conc

variable {σ Req I Ch En ε : Type} {R : I → Type} {M : Machine σ I R Ch En} {name : String}
  {inner : Req → Prog I R ε Response} {instant : Nat} {s₀ : σ}
  {ls : List (Label Req Ch (Outside En))}
  {d : Conf (Store σ) Req (Op I) (Op.Res R) ε Response} {e : BreakerEvent σ Req R}
  {before after log : List (BreakerEvent σ Req R)} {state : State} {t : Nat}

/-- The circuit opens, at the time `f`. -/
structure Opens (e : BreakerEvent σ Req R) (f : Nat) : Prop where
  op : e.op = .on_failure
  closed : ∀ f', e.pre.state ≠ .Open f'
  opened : e.post.state = .Open f

/-- The request `t` is the probe of the last opening: the first one admitted after it. -/
def ProbeOf (log : List (BreakerEvent σ Req R)) (t : Nat) : Prop :=
  ∃ b o mid p rest f, log = b ++ o :: (mid ++ p :: rest) ∧ Opens o f ∧
    (∀ q ∈ mid ++ p :: rest, ∀ f', ¬ Opens q f') ∧ (∀ q ∈ mid, ¬ Admits q) ∧ Admits p ∧ p.tid = t

/-- What the breaker promises of its open period. -/
structure HonoursOpenPeriod (log : List (BreakerEvent σ Req R)) : Prop where
  /-- After the circuit opens, no request is admitted for 30 seconds. -/
  period : ∀ b o mid a rest f, log = b ++ o :: (mid ++ a :: rest) → Opens o f → Admits a →
    f + OPEN_DURATION ≤ a.pre.instant
  /-- The first one admitted is the only one until it completes. -/
  one_probe : ∀ b o mid p rest a after f, log = b ++ o :: (mid ++ p :: rest) ++ a :: after →
    Opens o f → (∀ q ∈ mid, ¬ Admits q) → Admits p → Admits a →
      ∃ x ∈ rest, Completes x ∧ x.tid = p.tid
  /-- Only the probe's outcome closes or re-opens the circuit. -/
  own_outcome : ∀ before x after, log = before ++ x :: after → Completes x →
    (∀ n, x.pre.state ≠ .Closed n) → x.post.state ≠ x.pre.state → ProbeOf before x.tid

/-- The request admitted last. -/
def last_admitted (log : List (BreakerEvent σ Req R)) : Option Nat :=
  (log.filter fun e => Admits e).getLast?.map (·.tid)

/-- A completion that is no straggler's: while the circuit is open it is a failure, and while it
is half-open it is the probe's. -/
def InTurn (before : List (BreakerEvent σ Req R)) (e : BreakerEvent σ Req R) : Prop :=
  match e.pre.state with
  | .Closed _ => True
  | .Open _ => e.op = .on_failure
  | .HalfOpen => last_admitted before = some e.tid

/-- No request that was admitted before the circuit opened completes with a non-5xx while it is
open, or at all while a probe is in flight. -/
def NoStragglers (log : List (BreakerEvent σ Req R)) : Prop :=
  ∀ before e after, log = before ++ e :: after → Completes e → InTurn before e

theorem NoStragglers.of_append (h : NoStragglers (log ++ after)) : NoStragglers log := by
  intro before e rest split
  exact h before e (rest ++ after) (by simp [split])

theorem NoStragglers.last (h : NoStragglers (log ++ [e])) (hc : Completes e) : InTurn log e :=
  h log e [] rfl hc

/-! ## From each state -/

/-- An opening takes its time from the clock. -/
theorem Opens.time {f : Nat} (h : Opens e f) (heffect : Effect e) : f = e.pre.instant := by
  have hpost := heffect.on_failure h.op
  rw [h.opened] at hpost
  cases hpre : e.pre.state with
  | Closed n =>
    rw [hpre] at hpost
    simp only [on_failure] at hpost
    by_cases hopens : FAILURE_THRESHOLD ≤ n + 1
    · rw [if_pos hopens] at hpost
      cases hpost
      rfl
    · rw [if_neg hopens] at hpost
      cases hpost
  | Open f' => exact absurd hpre (h.closed f')
  | HalfOpen =>
    rw [hpre] at hpost
    cases hpost
    rfl

/-- An open circuit stays open but for an admission or a late success. -/
theorem Effect.keeps_open (h : Effect e) {f : Nat} (hpre : e.pre.state = .Open f)
    (hadmits : ¬ Admits e) (hturn : Completes e → InTurn log e) : e.post.state = .Open f := by
  rcases event_cases e with ha | hr | hop | hop | ⟨op, hop⟩
  · exact absurd ha hadmits
  · rw [(h.refuses hr).1, hpre]
  · have hin := hturn (by rw [Completes, hop]; rfl)
    unfold InTurn at hin
    rw [hpre, hop] at hin
    cases hin
  · rw [h.on_failure hop, hpre]
    rfl
  · rw [h.service hop, hpre]

/-- A half-open circuit admits nothing and stays half-open until a completion. -/
theorem Effect.keeps_half_open (h : Effect e) (hpre : e.pre.state = .HalfOpen)
    (hc : ¬ Completes e) : ¬ Admits e ∧ e.post.state = .HalfOpen := by
  rcases event_cases e with ha | hr | hop | hop | ⟨op, hop⟩
  · rcases h.admits ha with ⟨n, hclosed, _⟩ | ⟨f, hopen, _⟩
    · rw [hpre] at hclosed
      cases hclosed
    · rw [hpre] at hopen
      cases hopen
  · exact ⟨hr.not_admits, by rw [(h.refuses hr).1, hpre]⟩
  · exact absurd (by rw [Completes, hop]; rfl) hc
  · exact absurd (by rw [Completes, hop]; rfl) hc
  · refine ⟨?_, by rw [h.service hop, hpre]⟩
    intro ha
    rw [ha.op_eq] at hop
    cases hop

/-- Where an open circuit comes from. -/
theorem Effect.opens_of_post (h : Effect e) {f : Nat} (hpost : e.post.state = .Open f) :
    Opens e f ∨ (e.pre.state = .Open f ∧ ¬ Admits e ∧ ∀ f', ¬ Opens e f') := by
  by_cases hpre : ∃ f', e.pre.state = .Open f'
  · obtain ⟨f', hpre⟩ := hpre
    right
    have hadmits : ¬ Admits e := by
      intro ha
      rcases h.admits ha with ⟨n, hclosed, _⟩ | ⟨_, _, _, hhalf⟩
      · rw [hpre] at hclosed
        cases hclosed
      · rw [hpost] at hhalf
        cases hhalf
    refine ⟨?_, hadmits, fun f'' ho => ho.closed f' hpre⟩
    rcases event_cases e with ha | hr | hop | hop | ⟨op, hop⟩
    · exact absurd ha hadmits
    · rw [← (h.refuses hr).1, hpost]
    · rw [h.on_success hop] at hpost
      cases hpost
    · rw [h.on_failure hop, hpre] at hpost
      rw [hpre]
      exact hpost
    · rw [← h.service hop, hpost]
  · left
    have hclosed : ∀ f', e.pre.state ≠ .Open f' := fun f' hopen => hpre ⟨f', hopen⟩
    refine ⟨?_, hclosed, hpost⟩
    rcases event_cases e with ha | hr | hop | hop | ⟨op, hop⟩
    · rcases h.admits ha with ⟨n, _, hclosed'⟩ | ⟨_, _, _, hhalf⟩
      · rw [hpost] at hclosed'
        cases hclosed'
      · rw [hpost] at hhalf
        cases hhalf
    · rw [(h.refuses hr).1] at hpost
      exact absurd hpost (hclosed f)
    · rw [h.on_success hop] at hpost
      cases hpost
    · exact hop
    · rw [h.service hop] at hpost
      exact absurd hpost (hclosed f)

/-- Where a half-open circuit comes from. -/
theorem Effect.probes_of_post (h : Effect e) (hpost : e.post.state = .HalfOpen) :
    (Admits e ∧ ∃ f, e.pre.state = .Open f ∧ f + OPEN_DURATION ≤ e.pre.instant) ∨
      (e.pre.state = .HalfOpen ∧ ¬ Admits e) := by
  have failed : e.op ≠ .on_failure := by
    intro hop
    rw [h.on_failure hop] at hpost
    cases hpre : e.pre.state with
    | Closed n =>
      rw [hpre] at hpost
      simp only [CircuitBreaker.on_failure] at hpost
      split at hpost <;> cases hpost
    | Open f =>
      rw [hpre] at hpost
      cases hpost
    | HalfOpen =>
      rw [hpre] at hpost
      cases hpost
  rcases event_cases e with ha | hr | hop | hop | ⟨op, hop⟩
  · rcases h.admits ha with ⟨n, _, hclosed⟩ | ⟨f, hopen, helapsed, _⟩
    · rw [hpost] at hclosed
      cases hclosed
    · exact .inl ⟨ha, f, hopen, helapsed⟩
  · exact .inr ⟨by rw [← (h.refuses hr).1, hpost], hr.not_admits⟩
  · rw [h.on_success hop] at hpost
    cases hpost
  · exact absurd hop failed
  · refine .inr ⟨by rw [← h.service hop, hpost], ?_⟩
    intro ha
    rw [ha.op_eq] at hop
    cases hop

/-! ## The times of the openings -/

/-- Every opening is past, and over for its whole time unless the circuit is still open, with
none later than the one it is open by. -/
structure Timed (log : List (BreakerEvent σ Req R)) (state : State) (t : Nat) : Prop where
  past : ∀ o ∈ log, ∀ f, Opens o f → f ≤ t
  latest : ∀ f, state = .Open f → ∀ o ∈ log, ∀ f', Opens o f' → f' ≤ f
  elapsed : (∀ f, state ≠ .Open f) → ∀ o ∈ log, ∀ f, Opens o f → f + OPEN_DURATION ≤ t

theorem timed (h : Traced log state t) (calm : NoStragglers log) : Timed log state t := by
  induction h with
  | nil t =>
    refine ⟨?_, ?_, ?_⟩
    · intro o ho
      cases ho
    · intro _ _ o ho
      cases ho
    · intro _ o ho
      cases ho
  | pass _ hle ih =>
    have ih := ih calm
    refine ⟨?_, ih.latest, ?_⟩
    · intro o ho f hf
      exact (ih.past o ho f hf).trans hle
    · intro hstate o ho f hf
      exact (ih.elapsed hstate o ho f hf).trans hle
  | @event log e _ heffect ih =>
    have ih := ih calm.of_append
    refine ⟨?_, ?_, ?_⟩
    · intro o ho f hf
      rcases List.mem_append.mp ho with ho | ho
      · exact ih.past o ho f hf
      · rw [List.mem_singleton.mp ho] at hf
        exact (hf.time heffect).le
    · intro f hpost o ho f' hf'
      rcases heffect.opens_of_post hpost with hopens | ⟨hpre, _, hnot⟩
      · have hnow := hopens.time heffect
        rcases List.mem_append.mp ho with ho | ho
        · have hpast := ih.past o ho f' hf'
          omega
        · rw [List.mem_singleton.mp ho] at hf'
          have hnow' := hf'.time heffect
          omega
      · rcases List.mem_append.mp ho with ho | ho
        · exact ih.latest f hpre o ho f' hf'
        · rw [List.mem_singleton.mp ho] at hf'
          exact absurd hf' (hnot f')
    · intro hpost o ho f hf
      rcases List.mem_append.mp ho with ho | ho
      · by_cases hpre : ∃ f', e.pre.state = .Open f'
        · -- The circuit leaves the open state by an admission after its time.
          obtain ⟨f', hpre⟩ := hpre
          by_cases ha : Admits e
          · rcases heffect.admits ha with ⟨n, hclosed, _⟩ | ⟨f'', hopen, helapsed, _⟩
            · rw [hpre] at hclosed
              cases hclosed
            · have hlatest := ih.latest f'' hopen o ho f hf
              omega
          · exact absurd (heffect.keeps_open hpre ha calm.last) (hpost f')
        · exact ih.elapsed (fun f' hopen => hpre ⟨f', hopen⟩) o ho f hf
      · rw [List.mem_singleton.mp ho] at hf
        exact absurd hf.opened (hpost f)

/-! ## What the state says of the last opening -/

/-- The log from the last opening on: nothing admitted while the circuit is open, and the probe
admitted last while it is half-open. -/
def Cycle (log : List (BreakerEvent σ Req R)) : State → Prop
  | .Closed _ => True
  | .Open _ => ∃ b o mid f, log = b ++ o :: mid ∧ Opens o f ∧
      ∀ q ∈ mid, ¬ Admits q ∧ ∀ f', ¬ Opens q f'
  | .HalfOpen => ∃ b o mid p rest f, log = b ++ o :: (mid ++ p :: rest) ∧ Opens o f ∧
      (∀ q ∈ mid ++ p :: rest, ∀ f', ¬ Opens q f') ∧ (∀ q ∈ mid, ¬ Admits q) ∧ Admits p ∧
        ∀ q ∈ rest, ¬ Admits q

theorem cycle (h : Traced log state t) : Cycle log state := by
  induction h with
  | nil t => trivial
  | pass _ _ ih => exact ih
  | @event log e _ heffect ih =>
    cases hpost : e.post.state with
    | Closed n => trivial
    | Open f =>
      rcases heffect.opens_of_post hpost with hopens | ⟨hpre, hadmits, hnot⟩
      · refine ⟨log, e, [], f, rfl, hopens, ?_⟩
        intro q hq
        cases hq
      · rw [hpre] at ih
        obtain ⟨b, o, mid, f', rfl, ho, hmid⟩ := ih
        refine ⟨b, o, mid ++ [e], f', by simp, ho, ?_⟩
        intro q hq
        rcases List.mem_append.mp hq with hq | hq
        · exact hmid q hq
        · rw [List.mem_singleton.mp hq]
          exact ⟨hadmits, hnot⟩
    | HalfOpen =>
      have hnot : ∀ f, ¬ Opens e f := by
        intro f hf
        have hopened := hf.opened
        rw [hpost] at hopened
        cases hopened
      rcases heffect.probes_of_post hpost with ⟨ha, f, hpre, _⟩ | ⟨hpre, hadmits⟩
      · rw [hpre] at ih
        obtain ⟨b, o, mid, f', rfl, ho, hmid⟩ := ih
        refine ⟨b, o, mid, e, [], f', by simp, ho, ?_, fun q hq => (hmid q hq).1, ha, ?_⟩
        · intro q hq
          rcases List.mem_append.mp hq with hq | hq
          · exact (hmid q hq).2
          · rw [List.mem_singleton.mp hq]
            exact hnot
        · intro q hq
          cases hq
      · rw [hpre] at ih
        obtain ⟨b, o, mid, p, rest, f, rfl, ho, hopens, hmid, hp, hrest⟩ := ih
        refine ⟨b, o, mid, p, rest ++ [e], f, by simp, ho, ?_, hmid, hp, ?_⟩
        · intro q hq
          rw [← List.cons_append, ← List.append_assoc] at hq
          rcases List.mem_append.mp hq with hq | hq
          · exact hopens q hq
          · rw [List.mem_singleton.mp hq]
            exact hnot
        · intro q hq
          rcases List.mem_append.mp hq with hq | hq
          · exact hrest q hq
          · rw [List.mem_singleton.mp hq]
            exact hadmits

/-! ## From an opening to its probe's completion -/

/-- Until a request is admitted, the circuit stays open. -/
theorem still_open (h : Traced log state t) (calm : NoStragglers log)
    {b mid : List (BreakerEvent σ Req R)} {o : BreakerEvent σ Req R} {f : Nat}
    (split : log = b ++ o :: mid) (ho : Opens o f) (hmid : ∀ q ∈ mid, ¬ Admits q) :
    ∃ f', state = .Open f' := by
  induction h generalizing b mid with
  | nil t => simp at split
  | pass _ _ ih => exact ih calm split hmid
  | @event log e _ heffect ih =>
    rcases split_snoc split with ⟨_, _, rfl⟩ | ⟨mid', rfl, hlog⟩
    · exact ⟨f, ho.opened⟩
    · obtain ⟨f', hpre⟩ := ih calm.of_append hlog fun q hq => hmid q (by simp [hq])
      exact ⟨f', heffect.keeps_open hpre (hmid e (by simp)) calm.last⟩

/-- The request admitted last in a log that ends with an admission and no other. -/
theorem last_admitted_eq {b rest : List (BreakerEvent σ Req R)} {p : BreakerEvent σ Req R}
    (hp : Admits p) (hrest : ∀ q ∈ rest, ¬ Admits q) :
    last_admitted (b ++ p :: rest) = some p.tid := by
  have hnone : (rest.filter fun e => Admits e) = [] := by
    rw [List.filter_eq_nil_iff]
    intro q hq
    simpa using hrest q hq
  simp [last_admitted, List.filter_append, hp, hnone]

/-- The probe has completed, or the circuit is half-open with nothing admitted since. -/
theorem probing (h : Traced log state t) (calm : NoStragglers log)
    {b mid rest : List (BreakerEvent σ Req R)} {o p : BreakerEvent σ Req R} {f : Nat}
    (split : log = b ++ o :: (mid ++ p :: rest)) (ho : Opens o f) (hmid : ∀ q ∈ mid, ¬ Admits q)
    (hp : Admits p) :
    (∃ x ∈ rest, Completes x ∧ x.tid = p.tid) ∨
      (state = .HalfOpen ∧ ∀ q ∈ rest, ¬ Admits q) := by
  induction h generalizing rest with
  | nil t => simp at split
  | pass _ _ ih => exact ih calm split
  | @event log e hlog heffect ih =>
    rw [← List.cons_append, ← List.append_assoc] at split
    rcases split_snoc split with ⟨rfl, hlog', rfl⟩ | ⟨rest', rfl, hlog'⟩
    · -- The probe itself, out of the open state.
      right
      obtain ⟨f', hpre⟩ := still_open hlog calm.of_append hlog' ho hmid
      refine ⟨?_, ?_⟩
      · rcases heffect.admits hp with ⟨n, hclosed, _⟩ | ⟨_, _, _, hhalf⟩
        · rw [hpre] at hclosed
          cases hclosed
        · exact hhalf
      · intro q hq
        cases hq
    · have hsplit : log = b ++ o :: (mid ++ p :: rest') := by rw [hlog']; simp
      rcases ih calm.of_append hsplit with ⟨x, hx, hxc⟩ | ⟨hpre, hrest⟩
      · exact .inl ⟨x, List.mem_append_left _ hx, hxc⟩
      · by_cases hc : Completes e
        · left
          have hturn := calm.last hc
          unfold InTurn at hturn
          rw [hpre, hlog'] at hturn
          rw [last_admitted_eq hp hrest, Option.some.injEq] at hturn
          exact ⟨e, by simp, hc, hturn.symm⟩
        · obtain ⟨hadmits, hpost⟩ := heffect.keeps_half_open hpre hc
          refine .inr ⟨hpost, ?_⟩
          intro q hq
          rcases List.mem_append.mp hq with hq | hq
          · exact hrest q hq
          · rwa [List.mem_singleton.mp hq]

/-- **The open period is honoured**, however the requests overlap, if no straggler reports: no
admission for 30 seconds, one probe, and only its own outcome counts. -/
theorem open_period_honoured (M : Machine σ I R Ch En) (name : String)
    (inner : Req → Prog I R ε Response) (instant : Nat) (s₀ : σ)
    (ls : List (Label Req Ch (Outside En)))
    (d : Conf (Store σ) Req (Op I) (Op.Res R) ε Response)
    (h : BreakerRun M name inner (start instant s₀) ls d) (calm : NoStragglers d.world.log) :
    HonoursOpenPeriod d.world.log := by
  have upTo : ∀ {before e after}, d.world.log = before ++ e :: after → NoStragglers before := by
    intro before e after split
    rw [split] at calm
    exact calm.of_append
  refine ⟨?_, ?_, ?_⟩
  · intro b o mid a rest f split ho ha
    have split' : d.world.log = (b ++ o :: mid) ++ a :: rest := by simp [split]
    obtain ⟨htraced, heffect⟩ := traced_before h split'
    have htimed := timed htraced (upTo split')
    rcases heffect.admits ha with ⟨n, hclosed, _⟩ | ⟨f', hopen, helapsed, _⟩
    · refine htimed.elapsed ?_ o (by simp) f ho
      intro f' hopen
      rw [hopen] at hclosed
      cases hclosed
    · have hlatest := htimed.latest f' hopen o (by simp) f ho
      omega
  · intro b o mid p rest a after f split ho hmid hp ha
    obtain ⟨htraced, heffect⟩ := traced_before h split
    rcases probing htraced (upTo split) rfl ho hmid hp with hdone | ⟨hhalf, _⟩
    · exact hdone
    · exact absurd ha (heffect.keeps_half_open hhalf ha.not_completes).1
  · intro before x after split hc hclosed hchanged
    obtain ⟨htraced, heffect⟩ := traced_before h split
    have hturn := calm before x after split hc
    cases hpre : x.pre.state with
    | Closed n => exact absurd hpre (hclosed n)
    | Open f =>
      have hadmits : ¬ Admits x := fun ha => ha.not_completes hc
      have hkept := heffect.keeps_open hpre hadmits fun _ => hturn
      exact absurd (hkept.trans hpre.symm) hchanged
    | HalfOpen =>
      have hcycle := cycle htraced
      rw [hpre] at hcycle
      obtain ⟨b, o, mid, p, rest, f, rfl, ho, hopens, hmid, hp, hrest⟩ := hcycle
      unfold InTurn at hturn
      rw [hpre, ← List.cons_append, ← List.append_assoc, last_admitted_eq hp hrest,
        Option.some.injEq] at hturn
      exact ⟨b, o, mid, p, rest, f, rfl, ho, hopens, hmid, hp, hturn⟩

/-- `NoStragglers`, computed on the events that follow a part of the log. -/
def in_turn : List (BreakerEvent σ Req R) → List (BreakerEvent σ Req R) → Bool
  | _, [] => true
  | seen, e :: rest =>
    (!e.op.completes ||
      match e.pre.state, e.op with
      | .Closed _, _ => true
      | .Open _, .on_failure => true
      | .Open _, _ => false
      | .HalfOpen, _ => last_admitted seen == some e.tid) &&
    in_turn (seen ++ [e]) rest

theorem in_turn_sound {seen rest : List (BreakerEvent σ Req R)} (h : in_turn seen rest = true) :
    ∀ before e after, rest = before ++ e :: after → Completes e → InTurn (seen ++ before) e := by
  induction rest generalizing seen with
  | nil =>
    intro before e after split
    simp at split
  | cons q rest ih =>
    rw [in_turn, Bool.and_eq_true] at h
    intro before e after split hc
    cases before with
    | nil =>
      obtain ⟨rfl, rfl⟩ := List.cons.inj split
      have hturn := h.1
      rw [show q.op.completes = true from hc, Bool.not_true, Bool.false_or] at hturn
      unfold InTurn
      rw [List.append_nil]
      cases hpre : q.pre.state with
      | Closed n => trivial
      | Open f =>
        rw [hpre] at hturn
        rcases completes_cases hc with hop | hop
        · rw [hop] at hturn
          cases hturn
        · exact hop
      | HalfOpen =>
        rw [hpre] at hturn
        exact beq_iff_eq.mp hturn
    | cons q' before =>
      obtain ⟨rfl, rfl⟩ := List.cons.inj split
      have hin := ih h.2 before e after rfl hc
      rwa [List.append_assoc, List.singleton_append] at hin

/-- Five failures, a refusal within the open period, and a probe after it that succeeds. -/
def one_cycle : List SampleLabel :=
  five_failures ++ [.env (.advance 10000000000), .spawn (), .run 5 none,
    .env (.advance 20000000000)] ++ exchange 6 ok

def after_one_cycle : SampleConf :=
  replayed (machine sample) (call "kova-gateway" sample_inner) sample_start one_cycle

/-- The promise at that run. -/
theorem open_period_honoured_one_cycle : HonoursOpenPeriod after_one_cycle.world.log := by
  obtain ⟨run, checked⟩ := replayed_spec (machine sample) (call "kova-gateway" sample_inner)
    sample_start one_cycle (fun d => in_turn [] d.world.log) (by decide +kernel)
  refine open_period_honoured sample "kova-gateway" sample_inner 0 () one_cycle after_one_cycle run
    ?_
  intro before e after split hc
  exact in_turn_sound checked before e after split hc

/-- Six requests are in flight; five fail, the sixth succeeds late, and a seventh arrives. -/
def straggler : List SampleLabel :=
  (List.range 6).flatMap (fun t => [.spawn (), .run t none]) ++
    (List.range 5).flatMap (fun t => [.run t (some bad_gateway), .run t none]) ++
      [.run 5 (some ok), .run 5 none, .spawn (), .run 6 none]

/-- Whether the log ends with an admission at time 0 after an opening at time 0 in place `n`. -/
def admitted_at_once (n : Nat) (log : List SampleEvent) : Bool :=
  match log.drop n with
  | [] => false
  | o :: rest =>
    decide (o.op = .on_failure ∧ o.pre.state = .Closed 4 ∧ o.post.state = .Open 0) &&
      rest.getLast?.any fun a : SampleEvent => decide (Admits a ∧ a.pre.instant = 0)

/-- A late success closes the circuit at once. -/
theorem straggler_closes :
    ¬ ∀ (ls : List SampleLabel) (d : SampleConf),
      BreakerRun sample "kova-gateway" sample_inner sample_start ls d →
        HonoursOpenPeriod d.world.log := by
  intro claim
  obtain ⟨run, checked⟩ := replayed_spec (machine sample) (call "kova-gateway" sample_inner)
    sample_start straggler (fun d => admitted_at_once 15 d.world.log) (by decide +kernel)
  have honoured := claim straggler _ run
  unfold admitted_at_once at checked
  split at checked
  · cases checked
  · next o rest hdrop =>
    obtain ⟨hopens, hlast⟩ := Bool.and_eq_true_iff.mp checked
    obtain ⟨hop, hpre, hpost⟩ := of_decide_eq_true hopens
    obtain ⟨a, ha, hadmits⟩ := (Option.any_eq_true _ _).mp hlast
    obtain ⟨hadmits, hnow⟩ := of_decide_eq_true hadmits
    have opens : Opens o 0 := by
      refine ⟨hop, ?_, hpost⟩
      intro f hf
      rw [hpre] at hf
      cases hf
    have split := List.take_append_drop 15 (replayed (machine sample)
      (call "kova-gateway" sample_inner) sample_start straggler).world.log
    rw [hdrop, ← List.dropLast_append_getLast? a ha] at split
    have hperiod := honoured.period _ o rest.dropLast a [] 0 split.symm opens hadmits
    rw [hnow] at hperiod
    exact absurd hperiod (by decide)

end Kova.Gateway.CircuitBreaker

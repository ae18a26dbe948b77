import Mathlib.Data.List.Induction
import Kova.Gateway.BreakerLaws
import Kova.Gateway.Stack

/-!
# Requests answered short of a handler

The circuit breaker is the outermost layer, so it takes a 401 or a 429 of the inner layers for
the upstream's success. `state_of` is the state that a log of operations makes; a request is as
good as unsent if at every moment the state is the one that the others' operations make without
its own (`AsIfUnsent`). That is so exactly when the request finds nothing to change: the circuit
closed when it is admitted, and no failure counted when its answer is reported
(`unsent_iff_finds_nothing`).
-/

set_option autoImplicit false

namespace Kova.Gateway.CircuitBreaker

open Conc

variable {σ Req I : Type} {R : I → Type} {e : BreakerEvent σ Req R}
  {log : List (BreakerEvent σ Req R)} {state : State} {t : Nat}

/-- The state that the operations of a log make. -/
def state_of (log : List (BreakerEvent σ Req R)) : State :=
  log.foldl (fun s e => effect e.pre.instant e.op s) .init

/-- A log without the operations of request `t`. -/
def without (t : Nat) (log : List (BreakerEvent σ Req R)) : List (BreakerEvent σ Req R) :=
  log.filter (·.tid != t)

/-- At every moment the state is what the operations of the other requests make it. -/
def AsIfUnsent (log : List (BreakerEvent σ Req R)) (t : Nat) : Prop :=
  ∀ before, before <+: log → state_of before = state_of (without t before)

/-- Request `t` finds the circuit closed when it is admitted, and no failure counted when its
answer is reported. -/
def FindsNothing (log : List (BreakerEvent σ Req R)) (t : Nat) : Prop :=
  ∀ e ∈ log, e.tid = t →
    (Admits e → ∃ n, e.pre.state = .Closed n) ∧ (Completes e → e.pre.state = .Closed 0)

@[simp] theorem state_of_nil : state_of ([] : List (BreakerEvent σ Req R)) = .init := rfl

@[simp] theorem state_of_snoc (log : List (BreakerEvent σ Req R)) (e : BreakerEvent σ Req R) :
    state_of (log ++ [e]) = effect e.pre.instant e.op (state_of log) := by
  simp only [state_of, List.foldl_append, List.foldl_cons, List.foldl_nil]

theorem without_snoc_self (h : e.tid = t) : without t (log ++ [e]) = without t log := by
  simp [without, List.filter_append, h]

theorem without_snoc_other (h : e.tid ≠ t) : without t (log ++ [e]) = without t log ++ [e] := by
  simp [without, List.filter_append, h]

/-- The log of a run makes the state that it ends in. -/
theorem traced_state {n : Nat} (h : Traced log state n) : state = state_of log := by
  induction h with
  | nil => rfl
  | pass _ _ ih => exact ih
  | event _ heffect ih => rw [state_of_snoc, ← ih, heffect.state]

/-- Every event of a traced log found the state that the log before it makes. -/
theorem traced_split {n : Nat} (h : Traced log state n) {before after : List (BreakerEvent σ Req R)}
    (split : log = before ++ e :: after) : e.pre.state = state_of before ∧ Effect e := by
  induction h generalizing after with
  | nil => simp at split
  | pass _ _ ih => exact ih split
  | event htraced heffect ih =>
    rcases split_snoc split with ⟨rfl, rfl, rfl⟩ | ⟨_, _, hlog⟩
    · exact ⟨traced_state htraced, heffect⟩
    · exact ih hlog

/-- **As if unsent**: none of the request's operations changed the state. -/
theorem unsent_iff_untouched {n : Nat} (h : Traced log state n) :
    AsIfUnsent log t ↔ ∀ e ∈ log, e.tid = t → e.post.state = e.pre.state := by
  constructor
  · intro hunsent e he htid
    obtain ⟨before, after, split⟩ := List.append_of_mem he
    obtain ⟨hpre, heffect⟩ := traced_split h split
    have hbefore := hunsent before ⟨e :: after, split.symm⟩
    have hupto := hunsent (before ++ [e]) ⟨after, by simp [split]⟩
    rw [without_snoc_self htid, ← hbefore, state_of_snoc] at hupto
    rw [heffect.state, hpre]
    exact hupto
  · intro huntouched before hcut
    induction before using List.reverseRecOn with
    | nil => rfl
    | append_singleton before e ih =>
      obtain ⟨after, hlog⟩ := hcut
      have split : log = before ++ e :: after := by simp [← hlog]
      have hbefore := ih ⟨e :: after, split.symm⟩
      by_cases htid : e.tid = t
      · obtain ⟨hpre, heffect⟩ := traced_split h split
        have hsame := huntouched e (by simp [split]) htid
        rw [heffect.state, hpre] at hsame
        rw [without_snoc_self htid, state_of_snoc, hsame, hbefore]
      · rw [without_snoc_other htid, state_of_snoc, state_of_snoc, hbefore]

/-- What leaves the state alone: an admission to a closed circuit, and a success where no
failure is counted. -/
theorem Effect.untouched_iff (h : Effect e) (hsuccess : Completes e → e.op = .on_success) :
    e.post.state = e.pre.state ↔
      (Admits e → ∃ n, e.pre.state = .Closed n) ∧ (Completes e → e.pre.state = .Closed 0) := by
  rcases event_cases e with ha | hr | hop | hop | ⟨op, hop⟩
  · rcases h.admits ha with ⟨n, hpre, hpost⟩ | ⟨f, hpre, _, hpost⟩
    · simp [hpre, hpost, ha.not_completes]
    · simp [hpre, hpost, ha]
  · simp [(h.refuses hr).1, hr.not_admits, hr.not_completes]
  · have hc : Completes e := by rw [Completes, hop]; rfl
    have hadmits : ¬ Admits e := fun ha => ha.not_completes hc
    rw [h.on_success hop]
    simp [hc, hadmits, eq_comm]
  · have hc : Completes e := by rw [Completes, hop]; rfl
    rw [hsuccess hc] at hop
    cases hop
  · have hadmits : ¬ Admits e := by
      intro ha
      rw [ha.op_eq] at hop
      cases hop
    have hc : ¬ Completes e := by rw [Completes, hop]; exact Bool.false_ne_true
    simp [h.service hop, hadmits, hc]

end Kova.Gateway.CircuitBreaker

namespace Kova.Gateway

open Conc CircuitBreaker

/-- Request `t` was answered by the AuthLayer or the RateLimitLayer: with a 401 or a 429, and
no route handler has run for it. -/
structure StoppedShort (d : GatewayConf) (t : Nat) : Prop where
  answer : ∃ req response, d.returned t req (.ok response) ∧
    (response.status = 401 ∨ response.status = 429)
  unhandled : ∀ e ∈ d.world.log, e.tid = t → ∀ route req, e.op ≠ .inner (.handler route req)

/-- **A request that is answered by an inner layer** leaves the breaker as if it had not been
sent if and only if it finds the circuit closed and, when it is answered, no failure counted. -/
theorem unsent_iff_finds_nothing (env : Env) (instant : Nat) (s : Store) (ls : List GatewayLabel)
    (d : GatewayConf) (h : GatewayRun env (start instant s) ls d) (t : Nat)
    (stopped : StoppedShort d t) : AsIfUnsent d.world.log t ↔ FindsNothing d.world.log t := by
  have htraced := run_traced h
  obtain ⟨req, response, hreturned, hstatus⟩ := stopped.answer
  have hclass : response.is_server_error = false := by
    rcases hstatus with hstatus | hstatus <;> rw [Response.is_server_error, hstatus] <;> rfl
  -- A 401 or a 429 is reported as a success.
  have hsuccess : ∀ e ∈ d.world.log, e.tid = t → Completes e → e.op = .on_success := by
    intro e he htid hc
    obtain ⟨response', ⟨call', hcall', _, hres'⟩, hop⟩ := reported_response h he hc
    obtain ⟨call, hcall, _, hres⟩ := hreturned
    rw [htid, hcall, Option.some.injEq] at hcall'
    subst hcall'
    rw [hres, Option.some.injEq, Except.ok.injEq] at hres'
    rw [hop, ← hres', hclass]
    rfl
  rw [unsent_iff_untouched htraced]
  apply forall₃_congr
  intro e he htid
  obtain ⟨before, after, split⟩ := List.append_of_mem he
  exact (traced_split htraced split).2.untouched_iff (hsuccess e he htid)

/-! ## Two requests -/

/-- A gateway that accepts no token. -/
def no_keys : Env := ⟨⟨[]⟩, .malformed⟩

def no_token : HttpRequest := { method := .GET, path := "/api/v1/kova/accounts/x" }

def registration : HttpRequest := { method := .POST, path := "/api/v1/kova/auth/register" }

/-- Request `t` arrives while Redis is down, and executes `n` operations. -/
def request (t : Nat) (req : HttpRequest) (n : Nat) : List GatewayLabel :=
  .spawn req :: List.replicate n (.run t { fault := .failed })

/-- Whether request `t` was answered with the status, computed. -/
def answered_with (d : GatewayConf) (t status : Nat) : Bool :=
  (d.result? t).any fun
    | .ok response => response.status = status
    | .error _ => false

theorem answered_with_sound {d : GatewayConf} {t status : Nat} (h : answered_with d t status = true) :
    ∃ req response, d.returned t req (.ok response) ∧ response.status = status := by
  obtain ⟨r, hr, hok⟩ := (Option.any_eq_true _ _).mp h
  cases r with
  | error e => cases hok
  | ok response =>
    obtain ⟨req, hreturned⟩ := returned_of_result hr
    exact ⟨req, response, hreturned, of_decide_eq_true hok⟩

/-- Whether request `t` was answered with a 401, and no handler has run for it. -/
def stopped_short (d : GatewayConf) (t : Nat) : Bool :=
  answered_with d t 401 && d.world.log.all fun e => e.tid != t || match e.op with
    | .inner (.handler _ _) => false
    | _ => true

theorem stopped_short_sound {d : GatewayConf} {t : Nat} (h : stopped_short d t = true) :
    StoppedShort d t := by
  obtain ⟨hanswer, hops⟩ := Bool.and_eq_true_iff.mp h
  obtain ⟨req, response, hreturned, hstatus⟩ := answered_with_sound hanswer
  refine ⟨⟨req, response, hreturned, .inl hstatus⟩, ?_⟩
  intro e he htid route req hop
  have hcheck := List.all_eq_true.mp hops e he
  rw [hop, htid] at hcheck
  simp at hcheck

/-- A 401 of a gateway that has counted no failure changes nothing. -/
theorem unsent_first_request : ∃ d : GatewayConf,
    GatewayRun no_keys (start 0 {}) (request 0 no_token 2) d ∧ StoppedShort d 0 ∧
      AsIfUnsent d.world.log 0 := by
  obtain ⟨run, checked⟩ := replayed_spec (CircuitBreaker.machine services)
    (CircuitBreaker.call "kova-gateway" (guarded_routes no_keys)) (start 0 {}) (request 0 no_token 2)
    (fun d => stopped_short d 0 &&
      d.world.log.all fun e : GatewayEvent => decide (e.pre.state = .Closed 0))
    (by decide +kernel)
  obtain ⟨hstopped, hclosed⟩ := Bool.and_eq_true_iff.mp checked
  have stopped := stopped_short_sound hstopped
  refine ⟨_, run, stopped, ?_⟩
  apply (unsent_iff_finds_nothing no_keys 0 {} _ _ run 0 stopped).mpr
  intro e he _
  have hpre := of_decide_eq_true (List.all_eq_true.mp hclosed e he)
  exact ⟨fun _ => ⟨0, hpre⟩, fun _ => hpre⟩

/-- A 501 of a handler, and then a request without a token. -/
def failure_then_no_token : List GatewayLabel := request 0 registration 6 ++ request 1 no_token 2

/-- A request without a token wipes out the failure counted before it. -/
theorem no_token_clears_failure :
    ¬ ∀ (env : Env) (instant : Nat) (s : Store) (ls : List GatewayLabel) (d : GatewayConf),
      GatewayRun env (start instant s) ls d → ∀ t, StoppedShort d t → AsIfUnsent d.world.log t := by
  intro claim
  obtain ⟨run, checked⟩ := replayed_spec (CircuitBreaker.machine services)
    (CircuitBreaker.call "kova-gateway" (guarded_routes no_keys)) (start 0 {}) failure_then_no_token
    (fun d => stopped_short d 1 &&
      decide (state_of d.world.log ≠ state_of (without 1 d.world.log)))
    (by decide +kernel)
  obtain ⟨hstopped, hdiffer⟩ := Bool.and_eq_true_iff.mp checked
  have hunsent := claim no_keys 0 {} _ _ run 1 (stopped_short_sound hstopped)
  exact of_decide_eq_true hdiffer (hunsent _ List.prefix_rfl)

end Kova.Gateway

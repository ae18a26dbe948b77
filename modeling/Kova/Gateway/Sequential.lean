import Kova.Gateway.BreakerLaws

/-!
# What the breaker means for requests that come one at a time

When each admitted request completes before the next one arrives, the state machine is what the
history of the responses says (`sequential_meaning`): a request is refused exactly while the last
five or more responses were 5xx and the last of them is less than 30 seconds old. The proof
carries the meaning of each state over the log (`Tracks`); that only the request admitted last
can complete (`completed_is_last`) is what makes it inductive.
-/

set_option autoImplicit false

namespace Kova.Gateway.CircuitBreaker

open Conc

variable {σ Req I Ch En ε : Type} {R : I → Type} {M : Machine σ I R Ch En} {name : String}
  {inner : Req → Prog I R ε Response} {instant : Nat} {s₀ : σ}
  {ls : List (Label Req Ch (Outside En))}
  {d : Conf (Store σ) Req (Op I) (Op.Res R) ε Response} {e : BreakerEvent σ Req R}
  {before after log : List (BreakerEvent σ Req R)}

/-- Each admitted request completes before the next request arrives. -/
def OneAtATime (log : List (BreakerEvent σ Req R)) : Prop :=
  ∀ before a mid b after, log = before ++ a :: (mid ++ b :: after) → Admits a →
    b.op = .allow_request → ∃ x ∈ mid, x.tid = a.tid ∧ Completes x

/-! ## The specification -/

/-- A completed request: whether its response was a 5xx, and when it completed. -/
structure Outcome where
  server_error : Bool
  completed_at : Nat
  deriving DecidableEq

/-- Whether call `t` has returned a 5xx. -/
def returned_5xx (d : Conf (Store σ) Req (Op I) (Op.Res R) ε Response) (t : Nat) : Bool :=
  match d.result? t with
  | some (.ok response) => response.is_server_error
  | _ => false

/-- The outcomes of the admitted requests that completed within a part of the log. -/
def outcomes (d : Conf (Store σ) Req (Op I) (Op.Res R) ε Response)
    (log : List (BreakerEvent σ Req R)) : List Outcome :=
  log.filterMap fun e =>
    if e.op.completes then some ⟨returned_5xx d e.tid, e.pre.instant⟩ else none

/-- The run of consecutive 5xx responses at the end, the last one first. -/
def trailing (outcomes : List Outcome) : List Outcome :=
  outcomes.reverse.takeWhile (·.server_error)

/-- At least five responses in a row were 5xx, the last of them less than 30 seconds ago. -/
def Tripped (outcomes : List Outcome) (now : Nat) : Prop :=
  5 ≤ (trailing outcomes).length ∧
    ∃ last ∈ (trailing outcomes).head?, now < last.completed_at + OPEN_DURATION

instance (outcomes : List Outcome) (now : Nat) : Decidable (Tripped outcomes now) :=
  inferInstanceAs (Decidable (_ ∧ _))

/-- The request of an admission check was turned away with 503, and its service never called. -/
def Rejected (name : String) (d : Conf (Store σ) Req (Op I) (Op.Res R) ε Response)
    (e : BreakerEvent σ Req R) : Prop :=
  d.returned e.tid e.req (.ok (ApiError.service_unavailable name)) ∧
    history e.tid d.world.log = [⟨.allow_request, false⟩]

/-! ## Reports -/

/-- The outcomes as the breaker was told them. -/
def reports (log : List (BreakerEvent σ Req R)) : List Outcome :=
  log.filterMap fun e =>
    match e.op with
    | .on_success => some ⟨false, e.pre.instant⟩
    | .on_failure => some ⟨true, e.pre.instant⟩
    | _ => none

/-- The breaker was told the responses. -/
theorem outcomes_eq_reports (h : BreakerRun M name inner (start instant s₀) ls d)
    (sub : before ⊆ d.world.log) : outcomes d before = reports before := by
  apply List.filterMap_congr
  intro e he
  by_cases hc : Completes e
  · obtain ⟨response, ⟨call, hcall, _, hres⟩, hclass⟩ := reported_response h (sub he) hc
    have hreturned : returned_5xx d e.tid = response.is_server_error := by
      simp only [returned_5xx, Conf.result?, hcall, Option.bind_some, hres]
    rw [if_pos (show e.op.completes = true from hc), hreturned]
    by_cases h5xx : response.is_server_error = true
    · rw [if_pos h5xx] at hclass
      rw [hclass, h5xx]
    · rw [if_neg h5xx] at hclass
      rw [hclass, Bool.eq_false_iff.mpr h5xx]
  · rw [if_neg (show ¬ e.op.completes = true from hc)]
    cases hop : e.op with
    | on_success => exact absurd (by rw [Completes, hop]; rfl) hc
    | on_failure => exact absurd (by rw [Completes, hop]; rfl) hc
    | _ => rfl

theorem reports_quiet (h : ¬ Completes e) : reports (log ++ [e]) = reports log := by
  unfold reports
  rw [List.filterMap_append]
  cases hop : e.op with
  | on_success => exact absurd (by rw [Completes, hop]; rfl) h
  | on_failure => exact absurd (by rw [Completes, hop]; rfl) h
  | _ => simp [hop]

theorem trailing_success (hop : e.op = .on_success) : trailing (reports (log ++ [e])) = [] := by
  simp [trailing, reports, hop]

theorem trailing_failure (hop : e.op = .on_failure) :
    trailing (reports (log ++ [e])) = ⟨true, e.pre.instant⟩ :: trailing (reports log) := by
  simp [trailing, reports, hop]

/-! ## The order of a sequential log -/

/-- Each call completes at most once, after its admission. -/
def Once (log : List (BreakerEvent σ Req R)) : Prop :=
  ∀ before e after, log = before ++ e :: after → Completes e →
    (∃ a ∈ before, Admits a ∧ a.tid = e.tid) ∧ ∀ x ∈ before, Completes x → x.tid ≠ e.tid

theorem OneAtATime.of_append (h : OneAtATime (log ++ after)) : OneAtATime log := by
  intro before a mid b rest split
  exact h before a mid b (rest ++ after) (by simp [split])

theorem Once.of_append (h : Once (log ++ after)) : Once log := by
  intro before e rest split
  exact h before e (rest ++ after) (by simp [split])

/-- **Only the request admitted last can complete.** -/
theorem completed_is_last (single : OneAtATime (before ++ [e])) (once : Once (before ++ [e]))
    (he : Completes e) :
    ∃ b a mid, before = b ++ a :: mid ∧ Admits a ∧ ∀ q ∈ mid, ¬ Completes q := by
  obtain ⟨⟨a, ha, hadmits, htid⟩, hfirst⟩ := once before e [] rfl he
  obtain ⟨b, mid, rfl⟩ := List.append_of_mem ha
  -- No request arrives after `a`: it would find `e` completed already.
  have alone : ∀ q ∈ mid, q.op ≠ .allow_request := by
    intro q hq hop
    obtain ⟨m₁, m₂, rfl⟩ := List.append_of_mem hq
    obtain ⟨x, hx, hxt, hxc⟩ := single b a m₁ q (m₂ ++ [e]) (by simp) hadmits hop
    exact hfirst x (by simp [hx]) hxc (hxt.trans htid)
  refine ⟨b, a, mid, rfl, hadmits, ?_⟩
  intro q hq hc
  obtain ⟨m₁, m₂, rfl⟩ := List.append_of_mem hq
  obtain ⟨⟨a', ha', hadmits', htid'⟩, hfirst'⟩ := once (b ++ a :: m₁) q (m₂ ++ [e]) (by simp) hc
  rcases List.mem_append.mp ha' with hb | hm
  · -- `q` was admitted before `a`, and so completed before it.
    obtain ⟨b₁, b₂, rfl⟩ := List.append_of_mem hb
    obtain ⟨x, hx, hxt, hxc⟩ := single b₁ a' b₂ a (m₁ ++ q :: (m₂ ++ [e])) (by simp) hadmits'
      hadmits.op_eq
    exact hfirst' x (by simp [hx]) hxc (hxt.trans htid')
  · rcases List.mem_cons.mp hm with rfl | hm
    · exact hfirst q (by simp) hc (htid'.symm.trans htid)
    · exact alone a' (by simp [hm]) hadmits'.op_eq

/-! ## The meaning of the states -/

/-- Every admitted request is followed by a completion. -/
def Settled (log : List (BreakerEvent σ Req R)) : Prop :=
  ∀ b a mid, log = b ++ a :: mid → Admits a → ∃ q ∈ mid, Completes q

/-- What each state says about the log. -/
def Tracks (log : List (BreakerEvent σ Req R)) : State → Prop
  | .Closed n => (trailing (reports log)).length = n ∧ n < 5
  | .Open f => 5 ≤ (trailing (reports log)).length ∧
      (trailing (reports log)).head? = some ⟨true, f⟩ ∧ Settled log
  | .HalfOpen => 5 ≤ (trailing (reports log)).length ∧
      ∃ b a mid, log = b ++ a :: mid ∧ Admits a ∧ ∀ q ∈ mid, ¬ Completes q

theorem Settled.snoc (h : Settled log) (he : ¬ Admits e) : Settled (log ++ [e]) := by
  intro b a mid split ha
  rcases split_snoc split with ⟨_, _, rfl⟩ | ⟨mid', rfl, hlog⟩
  · exact absurd ha he
  · obtain ⟨q, hq, hc⟩ := h b a mid' hlog ha
    exact ⟨q, List.mem_append_left _ hq, hc⟩

theorem Settled.of_completes (he : Completes e) : Settled (log ++ [e]) := by
  intro b a mid split ha
  rcases split_snoc split with ⟨_, _, rfl⟩ | ⟨mid', rfl, _⟩
  · exact absurd he ha.not_completes
  · exact ⟨e, by simp, he⟩

/-- An event that neither admits nor completes says nothing new. -/
theorem Tracks.snoc {state : State} (h : Tracks log state) (hadmits : ¬ Admits e)
    (hcompletes : ¬ Completes e) : Tracks (log ++ [e]) state := by
  cases state with
  | Closed n =>
    unfold Tracks
    rw [reports_quiet hcompletes]
    exact h
  | Open f =>
    unfold Tracks
    rw [reports_quiet hcompletes]
    exact ⟨h.1, h.2.1, h.2.2.snoc hadmits⟩
  | HalfOpen =>
    obtain ⟨hlong, b, a, mid, rfl, ha, hmid⟩ := h
    unfold Tracks
    rw [reports_quiet hcompletes]
    refine ⟨hlong, b, a, mid ++ [e], by simp, ha, ?_⟩
    intro q hq
    rcases List.mem_append.mp hq with hq | hq
    · exact hmid q hq
    · rwa [List.mem_singleton.mp hq]

/-- What a 5xx makes of the state. -/
theorem Tracks.failure (h : Tracks log e.pre.state) (hop : e.op = .on_failure)
    (last : ∃ b a mid, log = b ++ a :: mid ∧ Admits a ∧ ∀ q ∈ mid, ¬ Completes q) :
    Tracks (log ++ [e]) (on_failure e.pre.instant e.pre.state) := by
  have hc : Completes e := by rw [Completes, hop]; rfl
  have opened : 4 ≤ (trailing (reports log)).length →
      Tracks (log ++ [e]) (.Open e.pre.instant) := by
    intro hlong
    unfold Tracks
    rw [trailing_failure hop]
    refine ⟨?_, rfl, .of_completes hc⟩
    rw [List.length_cons]
    omega
  cases hpre : e.pre.state with
  | Closed n =>
    rw [hpre] at h
    obtain ⟨hlen, hlt⟩ := h
    have hthreshold : FAILURE_THRESHOLD = 5 := rfl
    simp only [on_failure]
    by_cases hopens : FAILURE_THRESHOLD ≤ n + 1
    · rw [if_pos hopens]
      exact opened (by omega)
    · rw [if_neg hopens]
      unfold Tracks
      rw [trailing_failure hop, List.length_cons]
      omega
  | Open f =>
    rw [hpre] at h
    obtain ⟨b, a, mid, hlog, ha, hmid⟩ := last
    obtain ⟨q, hq, hqc⟩ := h.2.2 b a mid hlog ha
    exact absurd hqc (hmid q hq)
  | HalfOpen =>
    rw [hpre] at h
    exact opened (by have := h.1; omega)

/-- **Each state means what it says**, after every sequential log. -/
theorem tracks {state : State} {t : Nat} (h : Traced log state t) (single : OneAtATime log)
    (once : Once log) : Tracks log state := by
  induction h with
  | nil t =>
    unfold Tracks
    exact ⟨rfl, by omega⟩
  | pass _ _ ih => exact ih single once
  | @event log e _ heffect ih =>
    have ih := ih single.of_append once.of_append
    rcases event_cases e with ha | hr | hop | hop | ⟨op, hop⟩
    · have hquiet : reports (log ++ [e]) = reports log := reports_quiet ha.not_completes
      rcases heffect.admits ha with ⟨n, hpre, hpost⟩ | ⟨f, hpre, _, hpost⟩
      · rw [hpre] at ih
        rw [hpost]
        unfold Tracks
        rw [hquiet]
        exact ih
      · rw [hpre] at ih
        rw [hpost]
        unfold Tracks
        rw [hquiet]
        refine ⟨ih.1, log, e, [], rfl, ha, ?_⟩
        intro q hq
        cases hq
    · rw [(heffect.refuses hr).1]
      exact ih.snoc hr.not_admits hr.not_completes
    · rw [heffect.on_success hop]
      unfold Tracks
      rw [trailing_success hop]
      exact ⟨rfl, by omega⟩
    · rw [heffect.on_failure hop]
      exact ih.failure hop (completed_is_last single once (by rw [Completes, hop]; rfl))
    · rw [heffect.service hop]
      apply ih.snoc
      · intro ha
        rw [ha.op_eq] at hop
        cases hop
      · rw [Completes, hop]
        exact Bool.false_ne_true

/-- **The breaker's sequential meaning**: in every run in which each admitted request completes
before the next arrives, a request is rejected exactly when the trailing 5xx responses are at
least five and the last is less than 30 seconds old, and is admitted otherwise. -/
theorem sequential_meaning (M : Machine σ I R Ch En) (name : String)
    (inner : Req → Prog I R ε Response) (instant : Nat) (s₀ : σ)
    (ls : List (Label Req Ch (Outside En)))
    (d : Conf (Store σ) Req (Op I) (Op.Res R) ε Response)
    (h : BreakerRun M name inner (start instant s₀) ls d) (single : OneAtATime d.world.log)
    (before after : List (BreakerEvent σ Req R)) (e : BreakerEvent σ Req R)
    (split : d.world.log = before ++ e :: after) (arrives : e.op = .allow_request) :
    (Rejected name d e ↔ Tripped (outcomes d before) e.pre.instant) ∧
      (¬ Tripped (outcomes d before) e.pre.instant → Admits e) := by
  have hmem : e ∈ d.world.log := by simp [split]
  have once : Once d.world.log := fun _ _ _ hsplit he => completes_once h hsplit he
  obtain ⟨htraced, heffect⟩ := traced_before h split
  have single' := single
  have once' := once
  rw [split] at single' once'
  have htracks := tracks htraced single'.of_append once'.of_append
  rw [outcomes_eq_reports h (split ▸ List.subset_append_left _ _)]
  rcases admits_or_refuses arrives with ha | hr
  · have calm : ¬ Tripped (reports before) e.pre.instant := by
      rintro ⟨hlong, last, hlast, hrecent⟩
      rcases heffect.admits ha with ⟨n, hpre, _⟩ | ⟨f, hpre, helapsed, _⟩
      · rw [hpre] at htracks
        have := htracks.1
        have := htracks.2
        omega
      · rw [hpre] at htracks
        rw [htracks.2.1, Option.mem_some_iff] at hlast
        subst hlast
        simp only at hrecent
        omega
    refine ⟨⟨?_, fun ht => absurd ht calm⟩, fun _ => ha⟩
    rintro ⟨_, hrefused⟩
    have hdone : e.did ∈ history e.tid d.world.log := mem_history.mpr ⟨e, hmem, rfl, rfl⟩
    rw [hrefused, ha] at hdone
    cases List.mem_singleton.mp hdone
  · have tripped : Tripped (reports before) e.pre.instant := by
      rcases (heffect.refuses hr).2 with hpre | ⟨f, hpre, hwithin⟩
      · rw [hpre] at htracks
        obtain ⟨_, b, a, mid, hlog, ha, hmid⟩ := htracks
        obtain ⟨x, hx, _, hc⟩ := single b a mid e after (by rw [split, hlog]; simp) ha arrives
        exact absurd hc (hmid x hx)
      · rw [hpre] at htracks
        exact ⟨htracks.1, ⟨true, f⟩, htracks.2.1, hwithin⟩
    exact ⟨⟨fun _ => tripped, fun _ => refused_response h hmem hr⟩,
      fun ht => absurd tripped ht⟩

/-- `OneAtATime`, computed: `waiting` is the request that has not completed. -/
def one_at_a_time (waiting : Option Nat) : List (BreakerEvent σ Req R) → Bool
  | [] => true
  | e :: rest =>
    match waiting with
    | none => one_at_a_time (if Admits e then some e.tid else none) rest
    | some t =>
      (match e.op with
        | .allow_request => false
        | _ => true) &&
        one_at_a_time (if Completes e ∧ e.tid = t then none else some t) rest

/-- While a request has not completed, none arrives. -/
theorem none_arrives {t : Nat} {mid : List (BreakerEvent σ Req R)} {b : BreakerEvent σ Req R} :
    one_at_a_time (some t) (mid ++ b :: after) = true → b.op = .allow_request →
      ∃ x ∈ mid, x.tid = t ∧ Completes x := by
  induction mid with
  | nil =>
    intro h hop
    simp [one_at_a_time, hop] at h
  | cons q mid ih =>
    intro h hop
    by_cases hq : Completes q ∧ q.tid = t
    · exact ⟨q, List.mem_cons_self, hq.2, hq.1⟩
    · simp only [List.cons_append, one_at_a_time, if_neg hq, Bool.and_eq_true] at h
      obtain ⟨x, hx, hxt⟩ := ih h.2 hop
      exact ⟨x, List.mem_cons_of_mem _ hx, hxt⟩

theorem one_at_a_time_sound {waiting : Option Nat} (h : one_at_a_time waiting log = true) :
    OneAtATime log := by
  induction log generalizing waiting with
  | nil =>
    intro before a mid b after split
    simp at split
  | cons e rest ih =>
    intro before a mid b after split ha hop
    cases before with
    | nil =>
      obtain ⟨rfl, rfl⟩ := List.cons.inj split
      cases waiting with
      | none =>
        rw [one_at_a_time, if_pos ha] at h
        exact none_arrives h hop
      | some t =>
        rw [one_at_a_time, ha.op_eq] at h
        cases h
    | cons e' before =>
      obtain ⟨rfl, rfl⟩ := List.cons.inj split
      cases waiting with
      | none => exact ih h before a mid b after rfl ha hop
      | some t =>
        rw [one_at_a_time, Bool.and_eq_true] at h
        exact ih h.2 before a mid b after rfl ha hop

/-- Ten seconds after five failures a request arrives. -/
def after_five : List SampleLabel :=
  five_failures ++ [.env (.advance 10000000000), .spawn (), .run 5 none]

def after_five_conf : SampleConf :=
  replayed (machine sample) (call "kova-gateway" sample_inner) sample_start after_five

theorem after_five_runs :
    BreakerRun sample "kova-gateway" sample_inner sample_start after_five after_five_conf ∧
      OneAtATime after_five_conf.world.log ∧
        ∃ before e, after_five_conf.world.log = before ++ [e] ∧ e.op = .allow_request ∧
          e.tid = 5 ∧ Tripped (outcomes after_five_conf before) e.pre.instant := by
  obtain ⟨run, checked⟩ := replayed_spec (machine sample) (call "kova-gateway" sample_inner)
    sample_start after_five
    (fun d => one_at_a_time none d.world.log && d.world.log.getLast?.any fun e : SampleEvent =>
      decide (e.op = .allow_request ∧ e.tid = 5 ∧
        Tripped (outcomes d d.world.log.dropLast) e.pre.instant))
    (by decide +kernel)
  obtain ⟨single, hlast⟩ := Bool.and_eq_true_iff.mp checked
  obtain ⟨e, he, hspec⟩ := (Option.any_eq_true _ _).mp hlast
  refine ⟨run, one_at_a_time_sound single, after_five_conf.world.log.dropLast, e, ?_,
    of_decide_eq_true hspec⟩
  exact (List.dropLast_append_getLast? e he).symm

/-- The specification at that run: the request is rejected. -/
theorem sequential_meaning_after_five :
    ∃ e ∈ after_five_conf.world.log, e.tid = 5 ∧ Rejected "kova-gateway" after_five_conf e := by
  obtain ⟨run, single, before, e, split, arrives, ht, tripped⟩ := after_five_runs
  have meaning := sequential_meaning sample "kova-gateway" sample_inner 0 () after_five
    after_five_conf run single before [] e split arrives
  exact ⟨e, by simp [split], ht, meaning.1.mpr tripped⟩

end Kova.Gateway.CircuitBreaker

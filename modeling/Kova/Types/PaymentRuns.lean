import Kova.Types.Payment

/-!
# The histories of a payment

Any events, one after another, applied to a new payment: those that are accepted are its history.
A payment that never comes to the fraud check has one of the four histories of `early`, or is
waiting. Any other is validated and approved, held for review any number of times, and goes one of
the ways of `late` (`path_iff`: these are all the histories, and each of them is accepted). What
holds of every run is read off them (`lifecycle_safe`).
-/

set_option autoImplicit false

namespace Kova.PaymentStatus

open Conc PaymentEvent

variable {s d : PaymentStatus} {es h before after : List PaymentEvent} {e : PaymentEvent}

/-- The history of a payment to which the events came, in turn. -/
def history (es : List PaymentEvent) : List PaymentEvent := accepted transition .Initiated es

/-- Its status after them. -/
def status (es : List PaymentEvent) : PaymentStatus := reached transition .Initiated es

/-! ## All the histories -/

/-- The histories that end before the fraud check. -/
def early : PaymentStatus → List (List PaymentEvent)
  | .Initiated => [[]]
  | .Validating => [[ValidationPassed]]
  | .Failed => [[ValidationFailed], [ValidationPassed, FraudBlocked]]
  | .Expired => [[.Expired], [ValidationPassed, .Expired]]
  | _ => []

/-- The ways on from the fraud check. -/
def late : PaymentStatus → List (List PaymentEvent)
  | .FraudCheck => [[]]
  | .FxConversion => [[FraudApproved]]
  | .SettlementSubmitted => [[SubmittedToRail], [FraudApproved, FxConverted]]
  | .Settled => [[SubmittedToRail, RailSettled], [FraudApproved, FxConverted, RailSettled]]
  | .Refunded =>
    [[SubmittedToRail, RailSettled, RefundRequested],
      [FraudApproved, FxConverted, RailSettled, RefundRequested]]
  | .Failed =>
    [[FraudBlocked], [SubmittedToRail, RailFailed], [FraudApproved, FxConverted, RailFailed]]
  | .Expired => [[.Expired], [FraudApproved, .Expired]]
  | _ => []

/-- Validated, approved, and held for review `n` times. -/
def checked (n : Nat) : List PaymentEvent :=
  [ValidationPassed, FraudApproved] ++ List.replicate n FraudReview

/-- A payment with this history has this status. -/
def Traces (s : PaymentStatus) (h : List PaymentEvent) : Prop :=
  h ∈ early s ∨ ∃ n, ∃ way ∈ late s, h = checked n ++ way

theorem early_step {a b : PaymentStatus} (hh : h ∈ early a) (hstep : a.transition e = .ok b) :
    Traces b (h ++ [e]) := by
  cases a with
  | Initiated =>
    obtain rfl := List.mem_singleton.mp hh
    cases e <;> cases hstep <;> exact Or.inl (by decide)
  | Validating =>
    obtain rfl := List.mem_singleton.mp hh
    cases e with
    | FraudApproved =>
      cases hstep
      exact Or.inr ⟨0, [], by decide, rfl⟩
    | _ => cases hstep <;> exact Or.inl (by decide)
  | Failed | Expired => cases e <;> cases hstep
  | _ => cases hh

theorem late_step {a b : PaymentStatus} {way : List PaymentEvent} (hway : way ∈ late a)
    (hstep : a.transition e = .ok b) (hreview : e ≠ FraudReview) : way ++ [e] ∈ late b := by
  cases a with
  | FraudCheck =>
    obtain rfl := List.mem_singleton.mp hway
    cases e with
    | FraudReview => exact absurd rfl hreview
    | _ => cases hstep <;> decide
  | FxConversion =>
    obtain rfl := List.mem_singleton.mp hway
    cases e <;> cases hstep <;> decide
  | SettlementSubmitted | Settled =>
    rcases List.mem_pair.mp hway with rfl | rfl <;> cases e <;> cases hstep <;> decide
  | Failed | Refunded | Expired => cases e <;> cases hstep
  | _ => cases hway

/-- Each step leads from a history to a history. -/
theorem Traces.step {a b : PaymentStatus} (hh : Traces a h) (hstep : a.transition e = .ok b) :
    Traces b (h ++ [e]) := by
  rcases hh with hh | ⟨n, way, hway, rfl⟩
  · exact early_step hh hstep
  · by_cases hreview : e = FraudReview
    · subst hreview
      obtain ⟨rfl, rfl⟩ := of_review hstep
      obtain rfl := List.mem_singleton.mp hway
      refine Or.inr ⟨n + 1, [], hway, ?_⟩
      rw [checked, checked, List.replicate_succ']
      simp only [List.append_nil, List.append_assoc]
    · refine Or.inr ⟨n, way ++ [e], late_step hway hstep hreview, ?_⟩
      exact List.append_assoc _ _ _

theorem path_checked (n : Nat) : Path transition .Initiated (checked n) .FraudCheck :=
  .cons rfl (.cons rfl (Path.replicate rfl n))

theorem early_accepted : ∀ s, ∀ h ∈ early s,
    accepted transition .Initiated h = h ∧ reached transition .Initiated h = s := by
  intro s
  cases s <;> decide

theorem late_accepted : ∀ s, ∀ way ∈ late s,
    accepted transition .FraudCheck way = way ∧ reached transition .FraudCheck way = s := by
  intro s
  cases s <;> decide

/-- **All the histories**: these lists, and no others, lead from a new payment to the status. -/
theorem path_iff : Path transition .Initiated h s ↔ Traces s h := by
  constructor
  · intro hpath
    have start : Traces .Initiated [] := Or.inl (List.mem_singleton_self [])
    exact hpath.keeps (fun a b e h => Traces.step) start
  · rintro (hh | ⟨n, way, hway, rfl⟩)
    · exact path_iff_accepted.mpr (early_accepted s h hh)
    · exact (path_checked n).append (path_iff_accepted.mpr (late_accepted s way hway))

/-! ## What the histories have in common -/

/-- The events of a history that decide something: all but the reviews. -/
def decisive (h : List PaymentEvent) : List PaymentEvent := h.filter (· ≠ FraudReview)

/-- What is decided about a payment that has the status. -/
def decisions (s : PaymentStatus) : List (List PaymentEvent) :=
  early s ++ (late s).map ([ValidationPassed, FraudApproved] ++ ·)

theorem decisive_sublist (h : List PaymentEvent) : (decisive h).Sublist h := List.filter_sublist

theorem count_decisive (he : e ≠ FraudReview) : (decisive h).count e = h.count e :=
  List.count_filter (by simpa using he)

theorem decisive_checked (n : Nat) (way : List PaymentEvent) :
    decisive (checked n ++ way) = [ValidationPassed, FraudApproved] ++ decisive way := by
  have reviews : decisive (List.replicate n FraudReview) = [] := by
    simp [decisive]
  have parts : decisive (checked n ++ way) = decisive [ValidationPassed, FraudApproved] ++
      decisive (List.replicate n FraudReview) ++ decisive way := by
    simp only [checked, decisive, List.filter_append]
  rw [parts, reviews, List.append_nil]
  rfl

/-- The reviews leave no trace in what is decided. -/
theorem Traces.decided (hh : Traces s h) : decisive h ∈ decisions s := by
  rcases hh with hh | ⟨n, way, hway, rfl⟩
  · have whole : ∀ h ∈ early s, decisive h = h := by cases s <;> decide
    rw [whole h hh]
    exact List.mem_append_left _ hh
  · have whole : ∀ way ∈ late s, decisive way = way := by cases s <;> decide
    rw [decisive_checked, whole way hway]
    exact List.mem_append_right _ (List.mem_map_of_mem hway)

/-- The history of a payment and its status. -/
theorem traced (es : List PaymentEvent) : Traces (status es) (history es) :=
  path_iff.mp (path_accepted transition .Initiated es)

/-- **What was decided before an event** of the history, the status that accepted it, and what came
after. -/
theorem before_event (hh : history es = before ++ e :: after) :
    ∃ a b, decisive before ∈ decisions a ∧ a.transition e = .ok b ∧
      Path transition b after (status es) := by
  have hpath := path_accepted transition .Initiated es
  rw [show accepted transition .Initiated es = before ++ e :: after from hh] at hpath
  obtain ⟨a, b, hbefore, hevent, hafter⟩ := hpath.at_event
  exact ⟨a, b, (path_iff.mp hbefore).decided, hevent, hafter⟩

/-- **A terminal status**: at most a refund follows, of a settled payment. -/
theorem from_terminal (hterminal : s.is_terminal = true) (hpath : Path transition s h d) :
    h = [] ∨ (s = .Settled ∧ h = [RefundRequested]) := by
  cases hpath with
  | nil => exact Or.inl rfl
  | cons hstep hrest =>
    obtain ⟨rfl, rfl, rfl⟩ := of_terminal hterminal hstep
    have hend := hrest.of_stuck fun e b hstep => absurd (of_terminal rfl hstep).1 (by decide)
    rw [hend]
    exact Or.inr ⟨rfl, rfl⟩

/-- What a payment has been through, and no settled one has. -/
def failures : List PaymentEvent := [FraudBlocked, RailFailed, ValidationFailed, .Expired]

theorem settled_clean (hh : Traces .Settled h) : ∀ e ∈ failures, e ∉ h := by
  have clean : ∀ h ∈ decisions .Settled, ∀ e ∈ failures, e ≠ FraudReview ∧ h.count e = 0 := by
    decide
  intro e he
  obtain ⟨hreview, hcount⟩ := clean _ hh.decided e he
  rw [count_decisive hreview] at hcount
  exact List.count_eq_zero.mp hcount

/-! ## Every run -/

/-- What holds of the history of a payment, whatever events come. -/
structure LifecycleSafe (es : List PaymentEvent) : Prop where
  submitted_once : (history es).count SubmittedToRail + (history es).count FxConverted ≤ 1
  settled_after : ∀ before after, history es = before ++ RailSettled :: after →
    SubmittedToRail ∈ before ∨ FxConverted ∈ before
  submitted_after : ∀ before after, history es = before ++ SubmittedToRail :: after →
    [ValidationPassed, FraudApproved].Sublist before
  converted_after : ∀ before after, history es = before ++ FxConverted :: after →
    [ValidationPassed, FraudApproved, FraudApproved].Sublist before
  settled_clean : ∀ first rest, es = first ++ rest → status first = .Settled →
    ∀ e ∈ failures, e ∉ history es
  refund_only : ∀ before after, history es = before ++ RailSettled :: after →
    after = [] ∨ after = [RefundRequested]
  ended : ∀ first rest, es = first ++ rest → status first ∈ [Failed, .Refunded, .Expired] →
    history es = history first
  six_decide : (decisive (history es)).length ≤ 6

/-- **The payment lifecycle is safe** in every run. -/
theorem lifecycle_safe (es : List PaymentEvent) : LifecycleSafe es where
  submitted_once := by
    have once : ∀ s, ∀ h ∈ decisions s, h.count SubmittedToRail + h.count FxConverted ≤ 1 := by
      intro s
      cases s <;> decide
    have hdecided := once _ _ (traced es).decided
    rw [count_decisive (by decide), count_decisive (by decide)] at hdecided
    exact hdecided
  settled_after := by
    intro before after hh
    obtain ⟨a, b, hdecided, hevent, _⟩ := before_event hh
    have sub : ∀ e, e ∈ decisive before → e ∈ before := fun _ he =>
      (decisive_sublist before).subset he
    cases a with
    | SettlementSubmitted =>
      have submitted : ∀ h ∈ decisions .SettlementSubmitted,
          SubmittedToRail ∈ h ∨ FxConverted ∈ h := by decide
      exact (submitted _ hdecided).imp (sub _) (sub _)
    | _ => cases hevent
  submitted_after := by
    intro before after hh
    obtain ⟨a, b, hdecided, hevent, _⟩ := before_event hh
    cases a with
    | FraudCheck =>
      have approved : ∀ h ∈ decisions .FraudCheck,
          [ValidationPassed, FraudApproved].Sublist h := by decide
      exact (approved _ hdecided).trans (decisive_sublist before)
    | _ => cases hevent
  converted_after := by
    intro before after hh
    obtain ⟨a, b, hdecided, hevent, _⟩ := before_event hh
    cases a with
    | FxConversion =>
      have approved : ∀ h ∈ decisions .FxConversion,
          [ValidationPassed, FraudApproved, FraudApproved].Sublist h := by decide
      exact (approved _ hdecided).trans (decisive_sublist before)
    | _ => cases hevent
  settled_clean := by
    rintro first rest rfl hsettled e he hmem
    have hsplit : history (first ++ rest) =
        history first ++ accepted transition (status first) rest := accepted_append _ _ _ _
    have hafter := path_accepted transition (status first) rest
    rw [hsettled] at hsplit hafter
    rw [hsplit] at hmem
    rcases List.mem_append.mp hmem with hmem | hmem
    · exact PaymentStatus.settled_clean (hsettled ▸ traced first) e he hmem
    · rcases from_terminal rfl hafter with hnone | ⟨_, hrefund⟩
      · rw [hnone] at hmem
        cases hmem
      · rw [hrefund, List.mem_singleton] at hmem
        subst hmem
        exact absurd he (by decide)
  refund_only := by
    intro before after hh
    obtain ⟨a, b, _, hevent, hafter⟩ := before_event hh
    cases a with
    | SettlementSubmitted =>
      cases hevent
      exact (from_terminal rfl hafter).imp id And.right
    | _ => cases hevent
  ended := by
    rintro first rest rfl hended
    have hafter := path_accepted transition (status first) rest
    have closed : ∀ s ∈ [PaymentStatus.Failed, .Refunded, .Expired],
        s.is_terminal = true ∧ s ≠ .Settled := by decide
    obtain ⟨hterminal, hsettled⟩ := closed _ hended
    have hsplit : history (first ++ rest) =
        history first ++ accepted transition (status first) rest := accepted_append _ _ _ _
    rcases from_terminal hterminal hafter with hnone | ⟨hs, _⟩
    · rw [hsplit, hnone, List.append_nil]
    · exact absurd hs hsettled
  six_decide := by
    have six : ∀ s, ∀ h ∈ decisions s, h.length ≤ 6 := by
      intro s
      cases s <;> decide
    exact six _ _ (traced es).decided

end Kova.PaymentStatus

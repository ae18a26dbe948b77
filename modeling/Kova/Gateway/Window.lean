import Kova.Gateway.Arrivals
import Kova.Gateway.Frame

/-!
# The limit over a span of a minute

The limiter counts by calendar minutes, so up to twice the limit of a client's requests pass
within 60 seconds: the last of one minute and the first of the next (`two_minutes_full`). What is
admitted are the requests that are among the first of their own minute; the limit holds over every
span of 60 seconds if and only if these are few enough in it (`sliding_window_iff`).
-/

set_option autoImplicit false

namespace Kova.Gateway

/-- The limiter counts the request for this tier and identifier. -/
def OfClient (env : Env) (tier : Tier) (identifier : String) (a : Arrival) : Prop :=
  ∃ slot, a.slot env = some slot ∧ slot.tier = tier ∧ slot.identifier = identifier

instance (env : Env) (tier : Tier) (identifier : String) (a : Arrival) :
    Decidable (OfClient env tier identifier a) :=
  decidable_of_iff ((a.slot env).any fun slot =>
    slot.tier = tier && slot.identifier = identifier) (by simp [OfClient, Option.any_eq_true])

/-- The request arrives within the 60 seconds from a moment on. -/
def InSpan (start : Nat) (a : Arrival) : Prop := start ≤ a.time ∧ a.time < start + 60000000000

instance (start : Nat) (a : Arrival) : Decidable (InSpan start a) :=
  inferInstanceAs (Decidable (_ ∧ _))

/-- How many of a client's requests within a span the limiter admits. -/
def admitted_in (env : Env) (tier : Tier) (identifier : String) (start : Nat)
    (served : List (Arrival × Response)) : Nat :=
  served.countP fun p =>
    p.2.status ≠ 429 ∧ OfClient env tier identifier p.1 ∧ InSpan start p.1

/-- A request that arrives after others is among the first of its slot, as many as the limit. -/
def among_first (env : Env) (before : List Arrival) (a : Arrival) : Bool :=
  (a.slot env).any fun slot => load env slot before < slot.tier.limit

/-- The requests that are among the first of their slots. -/
def firsts (env : Env) : List Arrival → List Arrival → List Arrival
  | _, [] => []
  | before, a :: as =>
    if among_first env before a then a :: firsts env (before ++ [a]) as
    else firsts env (before ++ [a]) as

section

variable {env : Env} {tier : Tier} {identifier : String} {start : Nat}

/-- A client's request is admitted if it is among the first of its slot. -/
theorem limited_of_client (before : List Arrival) {a : Arrival} (hfault : a.fault = .none)
    (hclient : OfClient env tier identifier a) :
    limited env before a = !among_first env before a := by
  obtain ⟨slot, hslot, _, _⟩ := hclient
  simp only [limited, among_first, hfault, hslot, Option.any_some, decide_true, Bool.true_and]
  by_cases hfull : slot.tier.limit ≤ load env slot before
  · simp [hfull]
  · simp [hfull, Nat.lt_of_not_le hfull]

/-- The admitted requests are the first ones. -/
theorem verdicts_firsts : ∀ (as before : List Arrival), (∀ a ∈ as, a.fault = .none) →
    (verdicts env before as).countP
        (fun p => p.2 = false ∧ OfClient env tier identifier p.1 ∧ InSpan start p.1) =
      (firsts env before as).countP fun a => OfClient env tier identifier a ∧ InSpan start a
  | [], _, _ => rfl
  | a :: as, before, hfaults => by
    have hrest := verdicts_firsts as (before ++ [a])
      (fun b hb => hfaults b (List.mem_cons_of_mem _ hb))
    have hfault := hfaults a List.mem_cons_self
    rw [verdicts, List.countP_cons, hrest, firsts]
    by_cases hcounts : OfClient env tier identifier a ∧ InSpan start a
    · have hlimited := limited_of_client before hfault hcounts.1
      by_cases hfirst : among_first env before a = true
      · rw [if_pos hfirst, List.countP_cons]
        simp [hlimited, hfirst, hcounts]
      · rw [if_neg hfirst]
        simp [hlimited, hfirst]
    · have hnot : decide ((a, limited env before a).2 = false ∧
          OfClient env tier identifier a ∧ InSpan start a) = false :=
        decide_eq_false fun h => hcounts h.2
      rw [hnot]
      by_cases hfirst : among_first env before a = true
      · rw [if_pos hfirst, List.countP_cons, decide_eq_false hcounts]
      · rw [if_neg hfirst]
        rfl

/-- What is admitted, by the counting law. -/
theorem admitted_firsts {db : Redis.Db} {as : List Arrival} (hunused : Unused db)
    (hordered : InOrder as) (hfaults : ∀ a ∈ as, a.fault = .none) :
    admitted_in env tier identifier start (serve_all env db as) =
      (firsts env [] as).countP fun a => OfClient env tier identifier a ∧ InSpan start a := by
  rw [← verdicts_firsts as [] hfaults,
    ← limited_iff (Tallies.start hunused) hordered (fun a _ => Nat.zero_le a.time),
    List.countP_map]
  apply List.countP_congr
  intro p _
  simp

end

/-- **The sliding window**: with Redis always answering, a client's requests of any 60 seconds
are admitted within its limit if and only if at most that many of them are among the first of
their own calendar minute, as many as the limit allows. -/
theorem sliding_window_iff (env : Env) (db : Redis.Db) (as : List Arrival) (hunused : Unused db)
    (hordered : InOrder as) (hfaults : ∀ a ∈ as, a.fault = .none) (tier : Tier)
    (identifier : String) :
    (∀ start, admitted_in env tier identifier start (serve_all env db as) ≤ tier.limit) ↔
      ∀ start, ((firsts env [] as).countP fun a =>
        OfClient env tier identifier a ∧ InSpan start a) ≤ tier.limit := by
  apply forall_congr'
  intro start
  rw [admitted_firsts hunused hordered hfaults]

/-! ## Two minutes -/

def otp_request_at (secs : Nat) : Arrival where
  time := secs * 1000000000
  req := { method := .POST, path := "/api/v1/kova/auth/otp/request" }

theorem unused_nil : Unused [] := fun _ _ => rfl

/-- Two requests of a client on either side of a minute are within its limit. -/
theorem sliding_window_two_requests :
    admitted_in no_keys .Auth "unknown" (59 * 1000000000)
      (serve_all no_keys [] [otp_request_at 59, otp_request_at 60]) ≤ Tier.Auth.limit := by
  refine (sliding_window_iff no_keys [] _ unused_nil (by unfold InOrder; decide) (by decide)
    .Auth "unknown").mpr ?_ _
  intro start
  apply List.countP_le_length.trans
  decide +kernel

/-- Ten requests in the last second of a minute, and ten in the first second of the next. -/
def two_minutes : List Arrival :=
  List.replicate 10 (otp_request_at 59) ++ List.replicate 10 (otp_request_at 60)

/-- All twenty are admitted, within two seconds. -/
theorem two_minutes_full :
    ¬ ∀ (env : Env) (db : Redis.Db) (as : List Arrival), Unused db → InOrder as →
      (∀ a ∈ as, a.fault = .none) → ∀ tier identifier start,
        admitted_in env tier identifier start (serve_all env db as) ≤ tier.limit := by
  intro claim
  have hordered : InOrder two_minutes := by unfold InOrder; decide +kernel
  have hfaults : ∀ a ∈ two_minutes, a.fault = .none := by decide +kernel
  have hlimit := claim no_keys [] two_minutes unused_nil hordered hfaults .Auth "unknown"
    (59 * 1000000000)
  rw [admitted_firsts unused_nil hordered hfaults] at hlimit
  revert hlimit
  decide +kernel

end Kova.Gateway

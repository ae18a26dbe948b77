import Kova.Gateway.Mediation
import Kova.Gateway.Turns

/-!
# One client and the others

A user's identifier and the text of X-Forwarded-For go into the same field of the limiter's key.
On a Payment path a request has a user, and another user has another identifier; but a request
for an exempt path that is not an OTP one is counted in the Standard tier under the address it
says it comes from, which may be the text of a user's id. And all clients share the circuit
breaker, which keeps requests from the limiter. So two runs with the same requests of a user
decide alike on them if and only if in both the breaker lets the same of them through, and what
it has let through leaves each Standard request of the user on the same side of the limit
(`isolated_iff`).
-/

set_option autoImplicit false

namespace Kova.Gateway

/-- The request is authenticated as the user's. -/
def ByUser (env : Env) (u : Uuid) (a : Arrival) : Bool :=
  match authenticated env (a.time / 1000000000) a.req with
  | .ok seen => seen.user.any (·.user_id = u)
  | .error _ => false

/-- The request has no user, and says that it comes from the text of the user's id. -/
def Impostor (env : Env) (u : Uuid) (a : Arrival) : Bool :=
  match authenticated env (a.time / 1000000000) a.req with
  | .ok seen => seen.user = none && extract_client_ip seen = u.to_string
  | .error _ => false

/-- The decisions on a user's requests, in their order: whether they are refused, if the limiter
sees them. -/
def decisions (env : Env) (u : Uuid) (reached : List (Arrival × Response)) : List (Option Bool) :=
  (reached.filter fun p => ByUser env u p.1).map fun p => decision p.2

/-- What each request of a user meets. -/
def meet_user (env : Env) (u : Uuid) (state : CircuitBreaker.State) (as : List Arrival) :
    List Met :=
  (meet_all env state [] as).filter fun m => ByUser env u m.arrival

/-- How many requests of the user have been counted in a slot. -/
def own (env : Env) (u : Uuid) (slot : Slot) (as : List Arrival) : Nat :=
  as.countP fun a => ByUser env u a && a.adds env slot

/-- How many impostors have. -/
def forged (env : Env) (u : Uuid) (slot : Slot) (as : List Arrival) : Nat :=
  as.countP fun a => Impostor env u a && a.adds env slot

/-- A request of the user meets the same in two runs. The breaker lets it through in both or in
neither; and if it does, a Standard request that Redis answers finds the limit used up, by the
user's own requests and the impostors let through before, in both or in neither. -/
def SameSide (env : Env) (u : Uuid) (p q : Met) : Prop :=
  p.passes = q.passes ∧
    (p.passes = true → ∀ slot ∈ p.arrival.slot env, slot.tier = .Standard →
      p.arrival.fault = .none →
        (slot.tier.limit ≤ own env u slot p.passed + forged env u slot p.passed ↔
          slot.tier.limit ≤ own env u slot q.passed + forged env u slot q.passed))

instance (env : Env) (u : Uuid) (p q : Met) : Decidable (SameSide env u p q) :=
  inferInstanceAs (Decidable (_ ∧ _))

section

variable {env : Env} {u : Uuid} {a b : Arrival} {slot : Slot}

/-! ## Who is counted where -/

/-- The token check gives a user to exactly the requests that are not exempt. -/
theorem authenticated_seen {now : Nat} {req : HttpRequest} {seen : Request}
    (h : authenticated env now req = .ok seen) :
    seen.path = req.path ∧ (seen.user = none ↔ is_exempt req.path = true) := by
  unfold authenticated at h
  split at h
  · next hexempt =>
    cases h
    exact ⟨rfl, iff_of_true rfl hexempt⟩
  · next hexempt =>
    split at h
    · cases h
    · split at h
      · cases h
      · obtain ⟨_, _, _, _, _, _, rfl⟩ := identify_ok h
        exact ⟨rfl, iff_of_false nofun hexempt⟩

/-- A path that begins with a text begins with what the text begins with. -/
theorem starts_with_trans {path s t : String} (h : starts_with path s = true)
    (hst : t.toList <+: s.toList) : starts_with path t = true :=
  List.isPrefixOf_iff_prefix.mpr (hst.trans (List.isPrefixOf_iff_prefix.mp h))

/-- Two texts that a path begins with begin alike. -/
theorem starts_with_both {path s t : String} (hs : starts_with path s = true)
    (ht : starts_with path t = true) : s.toList <+: t.toList ∨ t.toList <+: s.toList :=
  List.prefix_or_prefix_of_prefix (List.isPrefixOf_iff_prefix.mp hs)
    (List.isPrefixOf_iff_prefix.mp ht)

/-- No OTP path wants a token. -/
theorem tier_of_protected {path : String} (h : is_exempt path = false) :
    RateLimitConfig.tier_for {} path ≠ .Auth := by
  intro htier
  unfold RateLimitConfig.tier_for at htier
  split at htier
  · next hotp =>
    have hauth := starts_with_trans (t := "/api/v1/kova/auth/") hotp (by decide)
    simp [is_exempt, hauth] at h
  · split at htier <;> cases htier

/-- Every Payment path wants a token. -/
theorem tier_of_exempt {path : String} (h : is_exempt path = true) :
    RateLimitConfig.tier_for {} path ≠ .Payment := by
  intro htier
  unfold RateLimitConfig.tier_for at htier
  split at htier
  · cases htier
  · split at htier
    · next hpayments =>
      rcases Bool.or_eq_true_iff.mp h with hhealth | hauth
      · rw [of_decide_eq_true hhealth] at hpayments
        revert hpayments
        decide
      · have hboth := starts_with_both hauth hpayments
        revert hboth
        decide
    · cases htier

/-- What the token check said of a request that is counted. -/
theorem slot_seen (hslot : a.slot env = some slot) :
    ∃ seen, authenticated env (a.time / 1000000000) a.req = .ok seen ∧
      slot = seen.slot (a.time / 1000000000 / 60) := by
  unfold Arrival.slot at hslot
  split at hslot
  · cases hslot
  · next seen hseen =>
    split at hslot
    · cases hslot
    · cases hslot
      exact ⟨seen, hseen, rfl⟩

/-- **A user's request** is counted under the user's id, in the Standard or the Payment tier. -/
theorem slot_of_user (h : ByUser env u a = true) :
    ∃ slot, a.slot env = some slot ∧ slot.identifier = u.to_string ∧ slot.tier ≠ .Auth := by
  unfold ByUser at h
  split at h
  · next seen hseen =>
    obtain ⟨user, huser, hid⟩ := (Option.any_eq_true _ _).mp h
    obtain ⟨hpath, hexempt⟩ := authenticated_seen hseen
    have hprotected : is_exempt a.req.path = false := by
      rw [huser] at hexempt
      simpa using hexempt
    have hhealth : seen.path ≠ "/api/v1/kova/health" := by
      intro hhealth
      rw [← hpath, hhealth] at hprotected
      revert hprotected
      decide
    have htier : RateLimitConfig.tier_for {} seen.path ≠ .Auth := by
      rw [hpath]
      exact tier_of_protected hprotected
    refine ⟨seen.slot (a.time / 1000000000 / 60), ?_, ?_, htier⟩
    · simp only [Arrival.slot, hseen, if_neg hhealth]
    · show identifier _ seen = _
      rw [identifier, if_neg htier, huser]
      exact congrArg Uuid.to_string (of_decide_eq_true hid)
  · cases h

/-- **What is counted under a user's id** is the user's, or in the Standard tier an impostor's. -/
theorem counted_under (hslot : a.slot env = some slot) (hid : slot.identifier = u.to_string)
    (htier : slot.tier ≠ .Auth) :
    ByUser env u a = true ∨ (Impostor env u a = true ∧ slot.tier = .Standard) := by
  obtain ⟨seen, hseen, rfl⟩ := slot_seen hslot
  obtain ⟨hpath, hexempt⟩ := authenticated_seen hseen
  have hname : identifier (RateLimitConfig.tier_for {} seen.path) seen = u.to_string := hid
  have hpublic : RateLimitConfig.tier_for {} seen.path ≠ .Auth := htier
  rw [identifier, if_neg hpublic] at hname
  cases huser : seen.user with
  | some user =>
    rw [huser] at hname
    left
    simp only [ByUser, hseen, huser, Option.any_some]
    exact decide_eq_true (Uuid.to_string_injective hname)
  | none =>
    rw [huser] at hname
    right
    refine ⟨?_, ?_⟩
    · simp only [Impostor, hseen, huser]
      exact Bool.and_eq_true_iff.mpr ⟨by simp, decide_eq_true hname⟩
    · have hpayment := tier_of_exempt (hexempt.mp huser)
      rw [← hpath] at hpayment
      show RateLimitConfig.tier_for {} seen.path = .Standard
      cases hcase : RateLimitConfig.tier_for {} seen.path with
      | Auth => exact absurd hcase hpublic
      | Standard => rfl
      | Payment => exact absurd hcase hpayment

/-- An impostor is not the user. -/
theorem impostor_not_user (h : Impostor env u a = true) : ByUser env u a = false := by
  unfold Impostor at h
  unfold ByUser
  split at h
  · next seen hseen =>
    have hnone := of_decide_eq_true (Bool.and_eq_true_iff.mp h).1
    rw [hnone]
    rfl
  · cases h

/-- **The load of a user's slot** is the user's own and the impostors'. -/
theorem load_of_user (hid : slot.identifier = u.to_string) (htier : slot.tier ≠ .Auth)
    (as : List Arrival) : load env slot as = own env u slot as + forged env u slot as := by
  induction as with
  | nil => rfl
  | cons a as ih =>
    have hone : (if a.adds env slot = true then 1 else 0) =
        (if (ByUser env u a && a.adds env slot) = true then 1 else 0) +
          (if (Impostor env u a && a.adds env slot) = true then 1 else 0) := by
      cases hadds : a.adds env slot with
      | false => simp
      | true =>
        have hslot := of_decide_eq_true (Bool.and_eq_true_iff.mp hadds).1
        rcases counted_under hslot hid htier with huser | ⟨himpostor, _⟩
        · have hnot : Impostor env u a = false := by
            apply Bool.eq_false_iff.mpr
            intro himpostor
            rw [impostor_not_user himpostor] at huser
            cases huser
          simp [huser, hnot]
        · simp [himpostor, impostor_not_user himpostor]
    simp only [load, own, forged, List.countP_cons] at ih ⊢
    omega

/-- No impostor is counted in a Payment slot. -/
theorem forged_payment (hid : slot.identifier = u.to_string) (htier : slot.tier = .Payment)
    (as : List Arrival) : forged env u slot as = 0 := by
  rw [forged, List.countP_eq_zero]
  intro a _ h
  obtain ⟨himpostor, hadds⟩ := Bool.and_eq_true_iff.mp h
  have hslot := of_decide_eq_true (Bool.and_eq_true_iff.mp hadds).1
  rcases counted_under hslot hid (by rw [htier]; decide) with huser | ⟨_, hstandard⟩
  · rw [impostor_not_user himpostor] at huser
    cases huser
  · rw [htier] at hstandard
    cases hstandard

/-! ## Two runs -/

/-- What a user's request meets without the others: the user's requests let through before, and
whether it is let through. -/
def own_view (env : Env) (u : Uuid) (m : Met) : List Arrival × Arrival × Bool :=
  (m.passed.filter (ByUser env u), m.arrival, m.passes)

/-- Requests, each with those let through before it. -/
def positions : List Arrival → List (Arrival × Bool) → List (List Arrival × Arrival × Bool)
  | _, [] => []
  | before, (a, passes) :: rest =>
    (before, a, passes) :: positions (if passes then before ++ [a] else before) rest

/-- **What a user's requests meet without the others** depends on which of them are let through,
and on nothing else. -/
theorem own_views (env : Env) (u : Uuid) : ∀ (as passed : List Arrival)
    (state : CircuitBreaker.State),
    ((meet_all env state passed as).filter fun m => ByUser env u m.arrival).map (own_view env u) =
      positions (passed.filter (ByUser env u))
        (((meet_all env state passed as).filter fun m => ByUser env u m.arrival).map fun m =>
          (m.arrival, m.passes))
  | [], _, _ => rfl
  | a :: as, passed, state => by
    have hrest := own_views env u as (⟨state, passed, a⟩ : Met).passed_after
      ((⟨state, passed, a⟩ : Met).state_after env)
    have hpassed : (⟨state, passed, a⟩ : Met).passed_after.filter (ByUser env u) =
        if (⟨state, passed, a⟩ : Met).passes && ByUser env u a then
          passed.filter (ByUser env u) ++ [a]
        else passed.filter (ByUser env u) := by
      unfold Met.passed_after
      cases (⟨state, passed, a⟩ : Met).passes with
      | false => rfl
      | true => cases huser : ByUser env u a <;> simp [List.filter_append, huser]
    rw [meet_all, List.filter_cons]
    by_cases huser : ByUser env u a = true
    · rw [hpassed, huser, Bool.and_true] at hrest
      simp only [huser, ↓reduceIte, List.map_cons, positions]
      exact congrArg (List.cons _) hrest
    · rw [hpassed, Bool.eq_false_iff.mpr huser, Bool.and_false] at hrest
      simp only [huser, Bool.false_eq_true, ↓reduceIte]
      exact hrest

/-- What the user's own requests make of a slot does not depend on the others. -/
theorem own_alone (slot : Slot) (as : List Arrival) :
    own env u slot as = (as.filter (ByUser env u)).countP fun a => a.adds env slot := by
  rw [List.countP_filter]
  exact List.countP_congr fun a _ => by simp [and_comm]

/-- **A decision** on a request that is let through in both runs or in neither is the same if and
only if it meets the same in both. -/
theorem due_same_side {p q : Met} (huser : ByUser env u p.arrival = true)
    (hview : own_view env u p = own_view env u q) :
    p.due env = q.due env ↔ SameSide env u p q := by
  simp only [own_view, Prod.mk.injEq] at hview
  obtain ⟨hpassed, harrival, hpasses⟩ := hview
  obtain ⟨slot, hslot, hid, htier⟩ := slot_of_user huser
  have hown : own env u slot p.passed = own env u slot q.passed := by
    rw [own_alone, own_alone, hpassed]
  unfold SameSide Met.due
  rw [← hpasses]
  cases p.passes with
  | false => simp
  | true =>
    simp only [limited, hslot, ← harrival, Option.any_some, load_of_user hid htier,
      Option.mem_some_iff, forall_eq', ↓reduceIte, Option.some.injEq, true_and, forall_const]
    by_cases hfault : p.arrival.fault = .none
    · by_cases hstandard : slot.tier = .Standard
      · simp [hfault, hstandard]
      · have hpayment : slot.tier = .Payment := by
          cases hcase : slot.tier with
          | Auth => exact absurd hcase htier
          | Standard => exact absurd hcase hstandard
          | Payment => rfl
        simp [hfault, hstandard, forged_payment hid hpayment, hown]
    · simp [hfault]

/-- Lists are mapped alike if their members are. -/
theorem map_eq_map_iff {α β : Type} (f : α → β) (l l' : List α) :
    l.map f = l'.map f ↔ List.Forall₂ (fun p q => f p = f q) l l' := by
  rw [← List.forall₂_eq_eq_eq, List.forall₂_map_left_iff, List.forall₂_map_right_iff]

/-- Relations that agree on related members. -/
theorem forall₂_iff {α : Type} {R P Q : α → α → Prop} {l l' : List α} (h : List.Forall₂ R l l')
    (hagree : ∀ p ∈ l, ∀ q, R p q → (P p q ↔ Q p q)) : List.Forall₂ P l l' ↔ List.Forall₂ Q l l' := by
  induction h with
  | nil => exact iff_of_true .nil .nil
  | cons hpq _ ih =>
    rw [List.forall₂_cons, List.forall₂_cons, hagree _ List.mem_cons_self _ hpq,
      ih fun p hp => hagree p (List.mem_cons_of_mem _ hp)]

end

/-- Every request meets something. -/
theorem meet_all_arrivals (env : Env) : ∀ (as passed : List Arrival) (state : CircuitBreaker.State),
    (meet_all env state passed as).map (·.arrival) = as
  | [], _, _ => rfl
  | a :: as, _, _ => congrArg (List.cons a) (meet_all_arrivals env as _ _)

theorem meet_user_arrivals (env : Env) (u : Uuid) (state : CircuitBreaker.State)
    (as : List Arrival) :
    (meet_user env u state as).map (·.arrival) = as.filter (ByUser env u) := by
  conv_rhs => rw [← meet_all_arrivals env as [] state, List.filter_map]
  rfl

/-- The decisions on a user's requests are those that the counts make. -/
theorem decisions_due {env : Env} {db : Redis.Db} {as : List Arrival} (hunused : Unused db)
    (hordered : InOrder as) (state : CircuitBreaker.State) (u : Uuid) :
    decisions env u (reach_all env state db as) = (meet_user env u state as).map (·.due env) := by
  have hdecided : (reach_all env state db as).map (fun p => (p.1, decision p.2)) =
      (meet_all env state [] as).map fun m => (m.arrival, m.due env) :=
    decided (Tallies.start hunused) hordered fun a _ => Nat.zero_le a.time
  have huser := congrArg (fun l => (l.filter fun p => ByUser env u p.1).map (·.2)) hdecided
  simp only [List.filter_map, List.map_map] at huser
  exact huser

/-- A decision is made on what is let through. -/
theorem due_isSome (env : Env) (m : Met) : (m.due env).isSome = m.passes := by
  unfold Met.due
  cases m.passes <;> rfl

/-- **Isolation**: two runs with the same requests of a user, whatever the others are, decide
alike on each of them if and only if for each of them the breaker lets it through in both runs or
in neither, and, if it is a Standard request let through that Redis answers, the user's own
requests and the impostors let through before have used up the limit in both runs or in
neither. -/
theorem isolated_iff (env : Env) (state : CircuitBreaker.State) (db : Redis.Db) (u : Uuid)
    (as bs : List Arrival) (hunused : Unused db) (has : InOrder as) (hbs : InOrder bs)
    (hsame : as.filter (ByUser env u) = bs.filter (ByUser env u)) :
    decisions env u (reach_all env state db as) = decisions env u (reach_all env state db bs) ↔
      List.Forall₂ (SameSide env u) (meet_user env u state as) (meet_user env u state bs) := by
  have harrivals : (meet_user env u state as).map (·.arrival) =
      (meet_user env u state bs).map (·.arrival) := by
    rw [meet_user_arrivals, meet_user_arrivals, hsame]
  -- On either side of the equivalence the same requests of the user are let through.
  have pointwise (hpasses : (meet_user env u state as).map (·.passes) =
        (meet_user env u state bs).map (·.passes)) :
      (meet_user env u state as).map (·.due env) = (meet_user env u state bs).map (·.due env) ↔
        List.Forall₂ (SameSide env u) (meet_user env u state as) (meet_user env u state bs) := by
    have hviews : (meet_user env u state as).map (own_view env u) =
        (meet_user env u state bs).map (own_view env u) := by
      unfold meet_user at harrivals hpasses ⊢
      rw [own_views, own_views, ← List.zip_map', ← List.zip_map', harrivals, hpasses]
    rw [map_eq_map_iff] at hviews ⊢
    apply forall₂_iff hviews
    intro p hp q hpq
    exact due_same_side (List.mem_filter.mp hp).2 hpq
  rw [decisions_due hunused has, decisions_due hunused hbs]
  constructor
  · intro hdecisions
    refine (pointwise ?_).mp hdecisions
    have hmade := congrArg (List.map Option.isSome) hdecisions
    simpa only [List.map_map, Function.comp_def, due_isSome] using hmade
  · intro hsides
    refine (pointwise ?_).mpr hsides
    exact (map_eq_map_iff _ _ _).mpr (hsides.imp fun p q hpq => hpq.1)

/-! ## A user and an impostor -/

/-- The subject of the sample token. -/
def victim : Uuid := Uuid.low 1

/-- A gateway with one key, to which every text is a token of the victim's. -/
def victim_env : Env where
  keys := ⟨[("default", 7)]⟩
  parse _ := .jws { access_token with
    payload := { access_token.payload with sub := some victim.to_string } }

/-- The victim looks at an account. -/
def victim_request : Arrival where
  time := 500000000000
  req := account_get

/-- A registration, with what it says of where it comes from. -/
def registration_from (x_forwarded_for : Option HeaderValue) : Arrival where
  time := 499000000000
  req := { registration with headers := { x_forwarded_for } }

/-- The victim's request without its token: it is answered with 401. -/
def tokenless_request : Arrival where
  time := 499000000000
  req := { account_get with headers := {} }

/-- Registrations. Their route answers 501; the 401 before each keeps the circuit closed. -/
def registrations (x_forwarded_for : Option HeaderValue) (n : Nat) : List Arrival :=
  (List.replicate n [tokenless_request, registration_from x_forwarded_for]).flatten

/-- A single impostor changes nothing for the victim, who comes before and after it. -/
theorem isolated_from_one_impostor :
    decisions victim_env victim (reach_all victim_env .init []
        [{ victim_request with time := 498000000000 }, victim_request]) =
      decisions victim_env victim (reach_all victim_env .init []
        [{ victim_request with time := 498000000000 },
          registration_from (some (.text victim.to_string)), victim_request]) :=
  (isolated_iff victim_env .init [] victim _ _ (fun _ _ => rfl) (by unfold InOrder; decide)
    (by unfold InOrder; decide) (by decide +kernel)).mpr (by decide +kernel)

/-- After registrations the victim finds the circuit closed, and all of them let through. -/
theorem meet_registrations (x_forwarded_for : Option HeaderValue) (n : Nat) :
    ∀ (failures : Nat) (passed : List Arrival), ∃ failures',
      (meet_all victim_env (.Closed failures) passed
          (registrations x_forwarded_for n ++ [victim_request])).filter
          (fun m => ByUser victim_env victim m.arrival) =
        [⟨.Closed failures', passed ++ registrations x_forwarded_for n, victim_request⟩] := by
  induction n with
  | zero =>
    intro failures passed
    have huser : ByUser victim_env victim victim_request = true := by decide +kernel
    refine ⟨failures, ?_⟩
    simp [registrations, meet_all, huser]
  | succ n ih =>
    intro failures passed
    have htokenless : ByUser victim_env victim tokenless_request = false := by decide +kernel
    have hregistration : ByUser victim_env victim (registration_from x_forwarded_for) = false := by
      have hexempt : is_exempt (registration_from x_forwarded_for).req.path = true := by
        show is_exempt "/api/v1/kova/auth/register" = true
        decide
      simp only [ByUser, authenticated, if_pos hexempt]
      rfl
    have hunauthorized : Met.state_after victim_env ⟨.Closed failures, passed, tokenless_request⟩ =
        .Closed 0 := by
      have hfails : tokenless_request.fails victim_env = false := by decide +kernel
      simp only [Met.state_after, hfails, Bool.and_false]
      rfl
    have hregistered : ∃ failures', Met.state_after victim_env
        ⟨.Closed 0, passed ++ [tokenless_request], registration_from x_forwarded_for⟩ =
          .Closed failures' := by
      unfold Met.state_after
      cases !limited victim_env (passed ++ [tokenless_request])
          (registration_from x_forwarded_for) &&
        (registration_from x_forwarded_for).fails victim_env with
      | false => exact ⟨0, rfl⟩
      | true => exact ⟨1, rfl⟩
    obtain ⟨failures', hregistered⟩ := hregistered
    obtain ⟨last, hlast⟩ := ih failures' (passed ++ [tokenless_request] ++
      [registration_from x_forwarded_for])
    refine ⟨last, ?_⟩
    have hsplit : registrations x_forwarded_for (n + 1) = tokenless_request ::
        registration_from x_forwarded_for :: registrations x_forwarded_for n := rfl
    simp only [hsplit, List.cons_append, meet_all, hunauthorized]
    show List.filter _ (_ :: ⟨.Closed 0, passed ++ [tokenless_request], _⟩ ::
      meet_all victim_env (Met.state_after victim_env
        ⟨.Closed 0, passed ++ [tokenless_request], registration_from x_forwarded_for⟩)
        (passed ++ [tokenless_request] ++ [registration_from x_forwarded_for]) _) = _
    rw [hregistered, List.filter_cons, List.filter_cons, htokenless, hregistration]
    simpa using hlast

/-- A hundred impostors leave nothing of the victim's limit. -/
theorem impostors_spend_limit :
    ¬ ∀ (env : Env) (state : CircuitBreaker.State) (db : Redis.Db) (u : Uuid)
      (as bs : List Arrival), Unused db → InOrder as → InOrder bs →
        as.map (·.time) = bs.map (·.time) →
          as.filter (ByUser env u) = bs.filter (ByUser env u) →
            decisions env u (reach_all env state db as) =
              decisions env u (reach_all env state db bs) := by
  intro claim
  have has : InOrder (registrations (some (.text victim.to_string)) 100 ++ [victim_request]) := by
    unfold InOrder
    decide +kernel
  have hbs : InOrder (registrations none 100 ++ [victim_request]) := by
    unfold InOrder
    decide +kernel
  have hdecisions := claim victim_env .init [] victim _ _ (fun _ _ => rfl) has hbs
    (by decide +kernel) (by decide +kernel)
  rw [decisions_due (fun _ _ => rfl) has, decisions_due (fun _ _ => rfl) hbs] at hdecisions
  obtain ⟨m, hspent⟩ := meet_registrations (some (.text victim.to_string)) 100 0 []
  obtain ⟨n, hunspent⟩ := meet_registrations none 100 0 []
  simp only [meet_user, CircuitBreaker.State.init, hspent, hunspent, List.nil_append,
    List.map_cons, List.map_nil] at hdecisions
  have hrefused : limited victim_env (registrations (some (.text victim.to_string)) 100)
      victim_request = true := by decide +kernel
  have hadmitted : limited victim_env (registrations none 100) victim_request = false := by
    decide +kernel
  simp [Met.due, hrefused, hadmitted, Met.passes, lets_through,
    CircuitBreaker.allow_request] at hdecisions

end Kova.Gateway

import Kova.Events.Schema
import Kova.Types.DecimalLaws

/-!
# Events are read back

What holds of every struct of the event schema at once.

- `event_read_back_iff`: an event is read back from what it was written to, in any order and among
  members that the reader does not know, exactly if its risk score is at most 100 and its extra
  payload is not `null`.
- `event_accepted_iff`: an object is read as an event exactly if it has every field but the optional
  ones, none twice, and each is well formed.
- `topics_differ`: no two structs are for one topic.
- `visit_map_ok_iff`: the ledger's event may as well be read field by field.

The texts of decimals are told apart (`sample_decimal_text`), so that there are formats that read
what they write.
-/

set_option autoImplicit false

namespace Kova.Events

open Json (Format FieldError)
open Ledger (Formats)

variable {f : Formats}

/-! ## Every struct -/

/-- The fields that may be missing. -/
def OPTIONAL : List String :=
  ["failure_reason", "reviewer_id", "assigned_to", "deep_link", "extra"]

theorem fields_value (f : Formats) (k : Kind) (ev : k.Event) : (k.fields f).value ev = ev := by
  cases k <;> rfl

/-- The names do not depend on how decimals and instants are read. -/
theorem fields_names (f f' : Formats) (k : Kind) : (k.fields f).names = (k.fields f').names := by
  cases k <;> rfl

theorem fields_required (f : Formats) (k : Kind) :
    (k.fields f).required = (k.fields f).names.filter (· ∉ OPTIONAL) := by
  cases k <;> rfl

/-- No struct has two fields of one name. -/
theorem names_nodup (f : Formats) (k : Kind) : (k.fields f).names.Nodup := by
  rw [fields_names f ⟨fun _ => none, fun _ => "", fun _ => none⟩ k]
  cases k <;> decide

/-! ## The reader of the ledger's consumers -/

/-- **The two readers of the ledger's event** accept the same objects for the same events. -/
theorem visit_map_ok_iff (f : Formats) (members : List (String × Json))
    (ev : Ledger.LedgerEntryCreatedEvent) :
    Ledger.LedgerEntryCreatedEvent.visit_map f members = .ok ev ↔
      (LedgerEntryCreatedEvent.fields f).read members = .ok ev := by
  have distinct : (LedgerEntryCreatedEvent.fields f).names.Nodup :=
    names_nodup f .LedgerEntryCreated
  have hturn : (LedgerEntryCreatedEvent.fields f).in_turn members =
      Ledger.LedgerEntryCreatedEvent.visit_map f members := by
    simp only [LedgerEntryCreatedEvent.fields, Json.Fields.in_turn,
      Json.Fields.look_up_required (show u8.absent = none from rfl),
      Json.Fields.look_up_required (show (id _).absent = none from rfl),
      Json.Fields.look_up_required (show (decimal f).absent = none from rfl),
      Json.Fields.look_up_required (show currency_code.absent = none from rfl),
      Json.Fields.look_up_required (show text.absent = none from rfl),
      Json.Fields.look_up_required (show (date_time f).absent = none from rfl), bind_assoc]
    rfl
  rw [Json.Fields.read_iff_in_turn _ distinct, hturn]

/-! ## Reading back -/

@[simp] theorem DeclineReason.faithful (r : DeclineReason) : DeclineReason.format.Faithful r := by
  cases r <;> rfl

@[simp] theorem KycRiskLevel.faithful (l : KycRiskLevel) : KycRiskLevel.format.Faithful l := by
  cases l <;> rfl

@[simp] theorem FraudDecision.faithful (d : FraudDecision) : FraudDecision.format.Faithful d := by
  cases d <;> rfl

@[simp] theorem NotificationType.faithful (t : NotificationType) :
    NotificationType.format.Faithful t := by
  cases t <;> rfl

/-- What a reader takes back: of a risk score up to 100, of an extra payload that is not `null`. -/
def Kind.Readable : (k : Kind) → k.Event → Prop
  | .FraudDecision, (ev : FraudDecisionEvent) => ev.risk_score ≤ 100
  | .FraudCaseCreated, (ev : FraudCaseCreatedEvent) => ev.risk_score ≤ 100
  | .PushNotificationRequested, (ev : PushNotificationRequestedEvent) => ev.extra ≠ some .null
  | _, _ => True

theorem faithful_iff (exact : Exact f) (k : Kind) (ev : k.Event) :
    (k.fields f).Faithful ev ↔ k.Readable ev := by
  have amounts := exact.decimal
  have instants := exact.date_time
  cases k <;> simp [Kind.fields, Kind.Readable, Json.Fields.Faithful, amounts, instants,
    PaymentInitiatedEvent.fields, PaymentValidatedEvent.fields, PaymentFraudCheckedEvent.fields,
    PaymentFxConvertedEvent.fields, PaymentSettledEvent.fields, PaymentFailedEvent.fields,
    PaymentRefundedEvent.fields, PaymentExpiredEvent.fields, AccountCreatedEvent.fields,
    AccountActivatedEvent.fields, AccountSuspendedEvent.fields, AccountClosedEvent.fields,
    AccountLimitChangedEvent.fields, CardIssuedEvent.fields, CardActivatedEvent.fields,
    CardBlockedEvent.fields, CardUnblockedEvent.fields, CardExpiredEvent.fields,
    CardTransactionApprovedEvent.fields, CardTransactionDeclinedEvent.fields,
    KycSubmittedEvent.fields, KycDocumentUploadedEvent.fields, KycReviewStartedEvent.fields,
    KycApprovedEvent.fields, KycRejectedEvent.fields, FraudDecisionEvent.fields,
    FraudCaseCreatedEvent.fields, PushNotificationRequestedEvent.fields,
    InAppNotificationEvent.fields, LedgerEntryCreatedEvent.fields,
    LedgerReconciliationEvent.fields]

/-- An object is read as the event whatever else it has and in whatever order. -/
def ReadBack (f : Formats) (k : Kind) (ev : k.Event) : Prop :=
  ∀ members others : List (String × Json), members.Perm ((k.fields f).write ev ++ others) →
    (∀ m ∈ others, m.1 ∉ (k.fields f).names) → (k.fields f).read members = .ok ev

/-- A score that is not read refuses the whole object. -/
theorem not_read_of_score {k : Kind} {ev : k.Event} {n : UInt8}
    (hmem : ("risk_score", Json.integer n.toNat) ∈ (k.fields f).write ev)
    (hreads : (k.fields f).reads ("risk_score", .integer n.toNat) = false) :
    ¬ ReadBack f k ev := by
  intro back
  have hread := back ((k.fields f).write ev) [] (by rw [List.append_nil]) (by simp)
  have hok := (Json.Fields.read_ok_iff _ (names_nodup f k) _).mp ⟨ev, hread⟩
  have hall := hok.2.2 _ hmem
  rw [hreads] at hall
  cases hall

theorem score_unread {n : UInt8} (h : ¬ n ≤ 100) :
    deserialize_risk_score.read (.integer n.toNat) = none := by
  unfold deserialize_risk_score
  dsimp only
  rw [Json.u8_integer, Option.filter_some, if_neg (by simpa using h)]

theorem read_back (exact : Exact f) (k : Kind) (ev : k.Event) (readable : k.Readable ev) :
    ReadBack f k ev := by
  intro members others perm unknown
  have hread := Json.Fields.read_perm (k.fields f) (names_nodup f k)
    ((faithful_iff exact k ev).mpr readable) perm unknown
  rwa [fields_value] at hread

/-- **An event is read back** from what it was written to exactly if its risk score, where it has
one, is at most 100, and its extra payload, where it has one, is not `null`. -/
theorem event_read_back_iff (f : Formats) (exact : Exact f) (k : Kind) (ev : k.Event) :
    ReadBack f k ev ↔ k.Readable ev := by
  constructor
  · intro back
    by_contra unreadable
    cases k with
    | FraudDecision =>
      let ev : FraudDecisionEvent := ev
      have hscore : ¬ ev.risk_score ≤ 100 := unreadable
      refine not_read_of_score (n := ev.risk_score) ?_ ?_ back
      · simp [Kind.fields, FraudDecisionEvent.fields, Json.Fields.write, deserialize_risk_score, ev]
      · simp [Kind.fields, FraudDecisionEvent.fields, Json.Fields.reads, score_unread hscore]
    | FraudCaseCreated =>
      let ev : FraudCaseCreatedEvent := ev
      have hscore : ¬ ev.risk_score ≤ 100 := unreadable
      refine not_read_of_score (n := ev.risk_score) ?_ ?_ back
      · simp [Kind.fields, FraudCaseCreatedEvent.fields, Json.Fields.write, deserialize_risk_score,
          ev]
      · simp [Kind.fields, FraudCaseCreatedEvent.fields, Json.Fields.reads, score_unread hscore]
    | PushNotificationRequested =>
      -- The object is also what the event without the payload is written to.
      let ev : PushNotificationRequestedEvent := ev
      have hnull : ev.extra = some .null := not_not.mp unreadable
      let bare : PushNotificationRequestedEvent := { ev with extra := none }
      have hsame : (PushNotificationRequestedEvent.fields f).write ev =
          (PushNotificationRequestedEvent.fields f).write bare := by
        simp [PushNotificationRequestedEvent.fields, Json.Fields.write, bare, hnull, optional,
          value]
      have hread : (PushNotificationRequestedEvent.fields f).read
          ((PushNotificationRequestedEvent.fields f).write ev) = .ok ev :=
        back _ [] (by rw [List.append_nil]; rfl) (by simp)
      have hbare : (PushNotificationRequestedEvent.fields f).read
          ((PushNotificationRequestedEvent.fields f).write bare) = .ok bare :=
        read_back exact .PushNotificationRequested bare (by rintro ⟨⟩) _ []
          (by rw [List.append_nil]; rfl)
          (by simp)
      rw [hsame, hbare] at hread
      have heq : bare = ev := Except.ok.inj hread
      have hextra := congrArg PushNotificationRequestedEvent.extra heq
      rw [hnull] at hextra
      cases hextra
    | _ => exact unreadable trivial
  · exact read_back exact k ev

/-! ## What is accepted -/

/-- **What is read as an event**: an object that has every field but the optional ones, none of them
twice, and in each of them a value that its format reads. -/
theorem event_accepted_iff (f : Formats) (k : Kind) (members : List (String × Json)) :
    (∃ ev, (k.fields f).read members = .ok ev) ↔
      (∀ name ∈ (k.fields f).names, name ∉ OPTIONAL → name ∈ members.map Prod.fst) ∧
        ((k.fields f).own members).Nodup ∧ ∀ m ∈ members, (k.fields f).reads m = true := by
  rw [Json.Fields.read_ok_iff _ (names_nodup f k), fields_required]
  refine and_congr_left' ?_
  simp only [List.subset_def, List.mem_filter, decide_eq_true_eq, and_imp]

/-! ## Topics -/

theorem Kind.mem_all (k : Kind) : k ∈ Kind.all := by
  cases k <;> decide

/-- **No two structs are for one topic.** -/
theorem topics_differ : Function.Injective Kind.topic := by
  have hnodup : (Kind.all.map Kind.topic).Nodup := by decide +kernel
  intro k k' h
  exact List.inj_on_of_nodup_map hnodup k.mem_all k'.mem_all h

/-! ## Formats that read what they write -/

/-- The whole number that a text's digits and sign write. -/
def signed (text : String) : Int :=
  let n : Nat := Nat.ofDigitChars 10 (text.toList.filter Char.isDigit) 0
  if text.toList.head? = some '-' then -n else n

/-- The digits with their point, and where the point stands. -/
def sample_decimal (v : Json) : Option Decimal :=
  v.text.bind fun text =>
    let scale := (Text.behind_point text.toList).length
    if h : (signed text).natAbs < 2 ^ 96 ∧ scale ≤ 28 then some ⟨signed text, scale, h.1, h.2⟩
    else none

/-- The evening of 14 November 2023. -/
def sample_instant : DateTime := ⟨1700000000 * 1000000000⟩

/-- The sample's instant as it is written, the others by their nanoseconds. -/
def sample_rfc3339 (t : DateTime) : String :=
  if t = sample_instant then "2023-11-14T22:13:20Z"
  else String.ofList ((if t.nanos < 0 then ['-'] else []) ++ Text.padded 1 t.nanos.natAbs)

def sample_date_time (v : Json) : Option DateTime :=
  v.text.map fun text =>
    if text = "2023-11-14T22:13:20Z" then sample_instant else ⟨signed text⟩

def sample_formats : Formats := ⟨sample_decimal, sample_rfc3339, sample_date_time⟩

theorem filter_digits {cs : List Char} (h : Text.Digits cs) : cs.filter Char.isDigit = cs :=
  List.filter_eq_self.mpr h

/-- A sign, and digits with a point among them or without. -/
theorem signed_digits {n : Int} {whole part : List Char} (digits : Text.Digits (whole ++ part))
    (hvalue : Nat.ofDigitChars 10 (whole ++ part) 0 = n.natAbs) (hwhole : whole ≠ []) :
    signed (String.ofList ((if n < 0 then ['-'] else []) ++ (whole ++ Text.pointed part))) = n := by
  have hpoint : (whole ++ Text.pointed part).filter Char.isDigit = whole ++ part := by
    rw [List.filter_append, filter_digits digits.left]
    cases part with
    | nil => rfl
    | cons c cs =>
      show whole ++ List.filter Char.isDigit ('.' :: (c :: cs)) = _
      rw [List.filter_cons_of_neg (by decide), filter_digits digits.right]
  obtain ⟨c, cs, rfl⟩ := List.exists_cons_of_ne_nil hwhole
  have hc : c ≠ '-' := digits.ne (by simp) rfl
  unfold signed
  rw [String.toList_ofList]
  by_cases hneg : n < 0
  · rw [if_pos hneg, List.singleton_append, List.filter_cons_of_neg (by decide), hpoint, hvalue]
    simp only [List.head?_cons, ↓reduceIte]
    omega
  · rw [if_neg hneg, List.nil_append, hpoint, hvalue]
    simp only [List.cons_append, List.head?_cons, Option.some.injEq, hc, ↓reduceIte]
    omega

/-- **The text of a decimal is read back.** -/
theorem sample_decimal_text (d : Decimal) : sample_decimal (.string d.to_string) = some d := by
  obtain ⟨whole, part, htext, hdigits, hwhole, hpart⟩ := d.to_string_signed
  have digits : Text.Digits (whole ++ part) := hdigits ▸ d.digits_padded
  have hsigned : signed d.to_string = d.mantissa := by
    rw [htext]
    exact signed_digits digits (hdigits ▸ d.value_padded) hwhole
  have hscale : (Text.behind_point d.to_string.toList).length = d.scale := by
    rw [htext, String.toList_ofList, ← hpart]
    by_cases hneg : d.mantissa < 0
    · rw [if_pos hneg, List.singleton_append]
      exact congrArg List.length (Text.behind_point_of_digits digits.left)
    · rw [if_neg hneg, List.nil_append, Text.behind_point_of_digits digits.left]
  rw [sample_decimal, Json.text, Option.bind_some]
  simp only [hsigned, hscale]
  rw [dif_pos ⟨d.mantissa_lt, d.scale_le⟩]

theorem sample_date_time_text (t : DateTime) :
    sample_date_time (.string (sample_rfc3339 t)) = some t := by
  rw [sample_date_time, Json.text, Option.map_some, sample_rfc3339]
  by_cases ht : t = sample_instant
  · rw [if_pos ht, if_pos rfl, ht]
  · rw [if_neg ht]
    have digits := Text.digits_padded 1 t.nanos.natAbs
    have hother : String.ofList ((if t.nanos < 0 then ['-'] else []) ++
        Text.padded 1 t.nanos.natAbs) ≠ "2023-11-14T22:13:20Z" := by
      intro heq
      have hT : 'T' ∈ (if t.nanos < 0 then ['-'] else []) ++ Text.padded 1 t.nanos.natAbs := by
        rw [← String.toList_ofList (l := _ ++ _), heq]
        decide
      rcases List.mem_append.mp hT with hT | hT
      · split at hT <;> simp at hT
      · exact digits.ne hT rfl rfl
    have hne : Text.padded 1 t.nanos.natAbs ≠ [] := by
      refine List.ne_nil_of_length_pos ?_
      rw [Text.length_padded]
      omega
    have hsigned := @signed_digits t.nanos (Text.padded 1 t.nanos.natAbs) []
      (by rwa [List.append_nil]) (by rw [List.append_nil, Text.ofDigitChars_padded]) hne
    rw [Text.pointed, List.append_nil] at hsigned
    rw [if_neg hother, hsigned]

theorem sample_exact : Exact sample_formats :=
  ⟨sample_decimal_text, sample_date_time_text⟩

/-- A settled payment of -0.500. -/
def sample_settled : PaymentSettledEvent where
  schema_version := SCHEMA_VERSION
  event_id := ⟨.low 1⟩
  payment_id := ⟨.low 2⟩
  user_id := ⟨.low 3⟩
  amount := ⟨-500, 3, by decide, by decide⟩
  currency := .GBP
  rail_reference := "rail-1"
  settled_at := sample_instant
  occurred_at := sample_instant

/-- It is read back, from its members in the other order and behind an unknown one. -/
theorem settled_read_back :
    (PaymentSettledEvent.fields sample_formats).read (("trace", .null) ::
      ((PaymentSettledEvent.fields sample_formats).write sample_settled).reverse) =
        .ok sample_settled := by
  refine (event_read_back_iff sample_formats sample_exact .PaymentSettled sample_settled).mpr
    trivial _ [("trace", .null)] ?_ (by decide)
  exact (List.reverse_perm _).cons _ |>.trans (List.perm_append_singleton _ _).symm

end Kova.Events

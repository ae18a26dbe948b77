import Kova.Types.Uuid

/-!
# Two encoders for one column

The ID types write a UUID through sqlx, as its sixteen bytes. The hand-written queries write its
text through `UUID_TO_BIN(?, true)`, which moves the two halves of the timestamp behind the rest
of it. Each encoder reads back what it wrote itself (`decode_encode`, `BIN_TO_UUID_UUID_TO_BIN`).
Both write the same, and the ID types read what the queries wrote, for exactly the UUIDs whose
first eight bytes are one pair repeated (`typed_id_iff`), and no identifier that the code
generates is one of them (`repeats_not_v7`).
-/

set_option autoImplicit false

namespace Kova

/-! ## ids.rs -/

/-- The invocations of `define_kova_id!`. -/
inductive IdKind where
  | User | Account | Payment | Transaction | LedgerEntry | Card | KycDocument | AuditEvent | FxQuote
  | Notification
  deriving DecidableEq

/-- `define_kova_id!`: a newtype around a UUID. -/
structure KovaId (kind : IdKind) where
  uuid : Uuid
  deriving DecidableEq

abbrev KovaUserId := KovaId .User
abbrev KovaAccountId := KovaId .Account
abbrev KovaPaymentId := KovaId .Payment
abbrev KovaTransactionId := KovaId .Transaction
abbrev KovaLedgerEntryId := KovaId .LedgerEntry
abbrev KovaCardId := KovaId .Card
abbrev KovaKycDocumentId := KovaId .KycDocument
abbrev KovaAuditEventId := KovaId .AuditEvent
abbrev KovaFxQuoteId := KovaId .FxQuote
abbrev KovaNotificationId := KovaId .Notification

namespace KovaId

variable {kind : IdKind}

/-- `Display`: the hyphenated text. -/
def to_string (id : KovaId kind) : String := id.uuid.to_string

/-- `as_bytes`. -/
def as_bytes (id : KovaId kind) : List UInt8 := id.uuid.bytes

/-- `sqlx::Encode`, by that of the UUID: its bytes. -/
def encode_by_ref (id : KovaId kind) : List UInt8 := id.uuid.bytes

/-- `sqlx::Decode`, by that of the UUID: sixteen bytes. -/
def decode (kind : IdKind) (value : List UInt8) : Option (KovaId kind) :=
  if h : value.length = 16 then some ⟨⟨value, h⟩⟩ else none

/-- The ID types read what they wrote. -/
theorem decode_encode (id : KovaId kind) : decode kind id.encode_by_ref = some id :=
  dif_pos id.uuid.size

/-- What they read a UUID from is its bytes. -/
theorem decode_eq_some {value : List UInt8} {id : KovaId kind} :
    decode kind value = some id ↔ value = id.encode_by_ref := by
  constructor
  · intro h
    unfold decode at h
    split at h
    · cases h
      rfl
    · cases h
  · rintro rfl
    exact decode_encode id

end KovaId

/-! ## The swap flag -/

namespace Uuid

/-- Two bytes: `time_low` is the pairs 0 and 1, `time_mid` and `time_hi_and_version` the pairs 2
and 3. -/
def pair (u : Uuid) (i : Nat) : List UInt8 := (u.bytes.drop (2 * i)).take 2

/-- `UUID_TO_BIN(_, true)`: `time_hi_and_version`, `time_mid`, `time_low`, and the rest. -/
def swap (u : Uuid) : List UInt8 := u.pair 3 ++ (u.pair 2 ++ (u.bytes.take 4 ++ u.bytes.drop 8))

/-- `BIN_TO_UUID(_, true)`: the parts back in their places. -/
def unswap (value : List UInt8) : List UInt8 :=
  (value.drop 4).take 4 ++ ((value.drop 2).take 2 ++ (value.take 2 ++ value.drop 8))

/-- What a statement stores for `UUID_TO_BIN(?, true)`, the text bound. -/
def UUID_TO_BIN_swapped (text : String) : Option (List UInt8) := (UUID_TO_BIN text).map swap

theorem stored (u : Uuid) : UUID_TO_BIN_swapped u.to_string = some u.swap := by
  rw [UUID_TO_BIN_swapped, UUID_TO_BIN_to_string, Option.map_some]

/-- What a statement selects for `BIN_TO_UUID(_, true)`. -/
def BIN_TO_UUID_swapped (value : List UInt8) : Option String :=
  if h : (unswap value).length = 16 then some (to_string ⟨unswap value, h⟩) else none

/-- The first eight bytes are one pair repeated. -/
def Repeats (u : Uuid) : Prop := u.pair 0 = u.pair 1 ∧ u.pair 1 = u.pair 2 ∧ u.pair 2 = u.pair 3

instance (u : Uuid) : Decidable u.Repeats := inferInstanceAs (Decidable (_ ∧ _ ∧ _))

theorem pair_length (u : Uuid) {i : Nat} (hi : i < 8) : (u.pair i).length = 2 := by
  rw [pair, List.length_take, List.length_drop, u.size]
  omega

/-- A UUID by its pairs. -/
theorem bytes_eq_pairs (u : Uuid) :
    u.bytes = u.pair 0 ++ (u.pair 1 ++ (u.pair 2 ++ (u.pair 3 ++ u.bytes.drop 8))) := by
  have h6 := List.take_append_drop 2 (u.bytes.drop 6)
  have h4 := List.take_append_drop 2 (u.bytes.drop 4)
  have h2 := List.take_append_drop 2 (u.bytes.drop 2)
  rw [List.drop_drop] at h6 h4 h2
  show u.bytes = u.bytes.take 2 ++ ((u.bytes.drop 2).take 2 ++ ((u.bytes.drop 4).take 2 ++
    ((u.bytes.drop 6).take 2 ++ u.bytes.drop 8)))
  rw [h6, h4, h2, List.take_append_drop]

theorem swap_eq_pairs (u : Uuid) :
    u.swap = u.pair 3 ++ (u.pair 2 ++ (u.pair 0 ++ (u.pair 1 ++ u.bytes.drop 8))) := by
  have low : u.bytes.take 4 = u.pair 0 ++ u.pair 1 := List.take_add (i := 2) (j := 2)
  rw [swap, low, List.append_assoc]

/-- **Where the swap changes nothing.** -/
theorem swap_eq_bytes_iff (u : Uuid) : u.swap = u.bytes ↔ u.Repeats := by
  have length : ∀ i j, i < 8 → j < 8 → (u.pair i).length = (u.pair j).length := by
    intro i j hi hj
    rw [u.pair_length hi, u.pair_length hj]
  rw [swap_eq_pairs]
  constructor
  · intro h
    rw [bytes_eq_pairs] at h
    obtain ⟨h30, h⟩ := List.append_inj h (length 3 0 (by decide) (by decide))
    obtain ⟨h21, h⟩ := List.append_inj h (length 2 1 (by decide) (by decide))
    obtain ⟨h02, _⟩ := List.append_inj h (length 0 2 (by decide) (by decide))
    exact ⟨h02.trans h21, h21.symm, h02.symm.trans h30.symm⟩
  · rintro ⟨h01, h12, h23⟩
    conv_rhs => rw [bytes_eq_pairs]
    rw [← h23, ← h12, ← h01]

/-- The queries read the text that they wrote. -/
theorem unswap_swap (u : Uuid) : unswap u.swap = u.bytes := by
  have h3 := u.pair_length (i := 3) (by decide)
  have h2 := u.pair_length (i := 2) (by decide)
  have h0 := u.pair_length (i := 0) (by decide)
  have h1 := u.pair_length (i := 1) (by decide)
  rw [swap_eq_pairs, unswap]
  conv_rhs => rw [bytes_eq_pairs]
  simp [List.take_append, List.drop_append, h0, h1, h2, h3, List.take_of_length_le,
    List.drop_of_length_le]

theorem BIN_TO_UUID_UUID_TO_BIN {text : String} {u : Uuid} (h : UUID_TO_BIN text = some u) :
    (UUID_TO_BIN_swapped text).bind BIN_TO_UUID_swapped = some u.to_string := by
  have hsize : (unswap u.swap).length = 16 := by rw [unswap_swap, u.size]
  rw [UUID_TO_BIN_swapped, h, Option.map_some, Option.bind_some, BIN_TO_UUID_swapped, dif_pos hsize]
  simp only [unswap_swap]

end Uuid

/-! ## Where the two agree -/

/-- The ID types and the queries write the same bytes for the UUID, and the ID types read it from
what the queries wrote. -/
structure SameColumn (kind : IdKind) (u : Uuid) : Prop where
  written : Uuid.UUID_TO_BIN_swapped u.to_string = some (⟨u⟩ : KovaId kind).encode_by_ref
  read : (Uuid.UUID_TO_BIN_swapped u.to_string).bind (KovaId.decode kind) = some ⟨u⟩

/-- **The two encoders agree** on a UUID if and only if its first eight bytes are one pair
repeated. -/
theorem typed_id_iff (kind : IdKind) (u : Uuid) : SameColumn kind u ↔ u.Repeats := by
  rw [← Uuid.swap_eq_bytes_iff]
  constructor
  · intro h
    exact Option.some.inj (u.stored.symm.trans h.written)
  · intro h
    refine ⟨u.stored.trans (congrArg some h), ?_⟩
    rw [u.stored, Option.bind_some]
    exact KovaId.decode_eq_some.mpr h

/-- **No identifier that is generated** is one of them: the version is 7, and the timestamp counts
milliseconds, so that its first byte stays below 112 for the next 3900 years. -/
theorem repeats_not_v7 {u : Uuid} {first seventh : UInt8} (hfirst : u.bytes[0]? = some first)
    (hseventh : u.bytes[6]? = some seventh) (version : seventh.toNat / 16 = 7)
    (time : first.toNat < 112) : ¬ u.Repeats := by
  rintro ⟨h01, h12, h23⟩
  have hpair := congrArg List.head? (h01.trans (h12.trans h23))
  have same : first = seventh := by
    simpa [Uuid.pair, List.head?_drop, List.head?_eq_getElem?, hfirst, hseventh] using hpair
  subst same
  omega

/-- An identifier generated in 2024. -/
def sample_v7 : Uuid :=
  ⟨[1, 143, 62, 92, 122, 16, 123, 34, 156, 1, 77, 5, 211, 64, 8, 250], rfl⟩

/-- The ID types would read another identifier than the one that the queries wrote. -/
theorem typed_id_differs : ¬ ∀ (kind : IdKind) (u : Uuid), SameColumn kind u := by
  intro claim
  have written := (claim .Account sample_v7).written
  rw [Uuid.stored, Option.some.injEq] at written
  exact absurd written (by decide)

end Kova

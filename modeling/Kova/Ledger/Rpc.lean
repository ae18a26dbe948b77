import Kova.Ledger.PostingLaws

/-!
# The PostEntry RPC

`LedgerService::post_entry` is an adapter around the function of the same name: it makes the
parameters of the request's fields, and a status of the error. The decimal crate's `from_str` is a
parameter. A request whose fields make no parameters is answered with INVALID_ARGUMENT
(`params_error`), and the amount of the parameters is what `from_str` reads (`params_amount`).
-/

set_option autoImplicit false

namespace Kova.Ledger.Rpc

open Conc

/-- The codes of `tonic` that the service uses. -/
inductive Code where
  | InvalidArgument | AlreadyExists | Internal
  deriving DecidableEq

structure Status where
  code : Code
  message : String
  deriving DecidableEq

/-- `From<LedgerError>`. -/
def Status.of_error : LedgerError → Status
  | .InvalidArgument message => ⟨.InvalidArgument, message⟩
  | .IdempotencyMismatch =>
    ⟨.AlreadyExists, "idempotency key exists with a different payload"⟩
  | .DecimalParse message => ⟨.InvalidArgument, "invalid decimal: " ++ message⟩
  | .Database _ => ⟨.Internal, "internal database error"⟩
  | .Internal message => ⟨.Internal, message⟩

/-- A message of the protocol: an absent field is an empty one. -/
structure PostEntryRequest where
  debit_account_id : List UInt8
  credit_account_id : List UInt8
  amount : String
  currency : String
  idempotency_key : String
  payment_id : List UInt8
  metadata_json : String

structure PostEntryResponse where
  entry_id : List UInt8
  was_idempotent : Bool
  created_at : DateTime
  deriving DecidableEq

def bytes_to_id (b : List UInt8) : Except Status Uuid :=
  if h : b.length = 16 then .ok ⟨b, h⟩
  else .error ⟨.InvalidArgument, "UUID field must be exactly 16 bytes"⟩

/-- `payment_id`, absent when empty. -/
def optional_id (b : List UInt8) : Except Status (Option Uuid) :=
  if b.isEmpty then .ok none else (bytes_to_id b).map some

/-- The amount of a request, its error made a status. -/
def parse_amount (from_str : String → Except String Decimal) (amount : String) :
    Except Status Decimal :=
  match from_str amount with
  | .ok amount => .ok amount
  | .error e => .error ⟨.InvalidArgument, "invalid amount: " ++ e⟩

/-- What `post_entry` calls the ledger with. -/
def PostEntryRequest.params (from_str : String → Except String Decimal) (req : PostEntryRequest) :
    Except Status PostEntryParams := do
  let debit_account_id ← bytes_to_id req.debit_account_id
  let credit_account_id ← bytes_to_id req.credit_account_id
  let amount ← parse_amount from_str req.amount
  let payment_id ← optional_id req.payment_id
  let metadata_json := if req.metadata_json = "" then none else some req.metadata_json
  .ok
    { debit_account_id
      credit_account_id
      amount
      currency := req.currency
      idempotency_key := req.idempotency_key
      payment_id
      metadata_json }

/-- What it answers with. -/
def reply : Except LedgerError PostEntryResult → Except Status PostEntryResponse
  | .ok result => .ok ⟨result.entry_id.bytes, result.was_idempotent, result.created_at⟩
  | .error e => .error (.of_error e)

/-- The RPC is answered with INVALID_ARGUMENT. -/
def Invalid (answer : Except Status PostEntryResponse) : Prop :=
  ∃ message, answer = .error ⟨.InvalidArgument, message⟩

variable {from_str : String → Except String Decimal} {req : PostEntryRequest}

theorem bytes_to_id_error {b : List UInt8} {status : Status} (h : bytes_to_id b = .error status) :
    status.code = .InvalidArgument := by
  unfold bytes_to_id at h
  split at h
  · cases h
  · cases h
    rfl

theorem optional_id_error {b : List UInt8} {status : Status} (h : optional_id b = .error status) :
    status.code = .InvalidArgument := by
  unfold optional_id at h
  split at h
  · cases h
  · cases hid : bytes_to_id b with
    | ok id =>
      rw [hid] at h
      cases h
    | error e =>
      rw [hid] at h
      cases h
      exact bytes_to_id_error hid

theorem parse_amount_error {amount : String} {status : Status}
    (h : parse_amount from_str amount = .error status) : status.code = .InvalidArgument := by
  unfold parse_amount at h
  split at h
  · cases h
  · cases h
    rfl

section Bind

variable {ε α β : Type} {x : Except ε α} {f : α → Except ε β}

theorem of_bind_error {e : ε} (h : x >>= f = .error e) :
    x = .error e ∨ ∃ a, x = .ok a ∧ f a = .error e := by
  cases x with
  | error e' =>
    cases h
    exact .inl rfl
  | ok a => exact .inr ⟨a, rfl, h⟩

theorem of_bind_ok {b : β} (h : x >>= f = .ok b) : ∃ a, x = .ok a ∧ f a = .ok b := by
  cases x with
  | error e => cases h
  | ok a => exact ⟨a, rfl, h⟩

end Bind

/-- **A request whose fields make no parameters** is invalid. -/
theorem params_error {status : Status} (h : req.params from_str = .error status) :
    status.code = .InvalidArgument := by
  rcases of_bind_error h with hdebit | ⟨_, _, h⟩
  · exact bytes_to_id_error hdebit
  rcases of_bind_error h with hcredit | ⟨_, _, h⟩
  · exact bytes_to_id_error hcredit
  rcases of_bind_error h with hamount | ⟨_, _, h⟩
  · exact parse_amount_error hamount
  rcases of_bind_error h with hpayment | ⟨_, _, h⟩
  · exact optional_id_error hpayment
  · cases h

/-- The amount of the parameters is the one that was read. -/
theorem params_amount {p : PostEntryParams} (h : req.params from_str = .ok p) :
    from_str req.amount = .ok p.amount := by
  obtain ⟨_, _, h⟩ := of_bind_ok h
  obtain ⟨_, _, h⟩ := of_bind_ok h
  obtain ⟨amount, hamount, h⟩ := of_bind_ok h
  obtain ⟨_, _, h⟩ := of_bind_ok h
  cases h
  unfold parse_amount at hamount
  split at hamount
  · next heq =>
    cases hamount
    exact heq
  · cases hamount

end Kova.Ledger.Rpc

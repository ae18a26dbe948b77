import Kova.Codec.Record
import Kova.Ledger.Events

/-!
# How the values of events are written

The types that the event structs of kova-types are made of: integers, texts, ID types, enumerations
without data, decimals and instants as texts, optional values, and any JSON. Each format reads what
it writes, with two exceptions: a risk score above 100 is written and not read, and an optional JSON
that is `null` is read as absent.
-/

set_option autoImplicit false

namespace Kova.Events

open Json (Format)
open Ledger (Formats)

/-! ## Texts and numbers -/

/-- An unsigned integer of `bits` bits. -/
def read_unsigned (bits : Nat) : Json → Option Nat
  | .integer n => if 0 ≤ n ∧ n < 2 ^ bits then some n.toNat else none
  | _ => none

theorem read_unsigned_integer {bits n : Nat} (h : n < 2 ^ bits) :
    read_unsigned bits (.integer n) = some n := by
  have hbound : (n : Int) < 2 ^ bits := by exact_mod_cast h
  rw [read_unsigned, if_pos ⟨Int.natCast_nonneg n, hbound⟩, Int.toNat_natCast]

def u8 : Format UInt8 where
  write n := .integer n.toNat
  read := Json.u8

def u32 : Format UInt32 where
  write n := .integer n.toNat
  read v := (read_unsigned 32 v).map UInt32.ofNat

def u64 : Format UInt64 where
  write n := .integer n.toNat
  read v := (read_unsigned 64 v).map UInt64.ofNat

def bool : Format Bool where
  write := .bool
  read
    | .bool b => some b
    | _ => none

def text : Format String where
  write := .string
  read := Json.text

/-- `serde_json::Value`. -/
def value : Format Json where
  write v := v
  read := some

/-- `Option<T>`: `null` and a missing member are `None`. -/
def optional {α : Type} (f : Format α) : Format (Option α) where
  write
    | some a => f.write a
    | none => .null
  read
    | .null => some none
    | v => (f.read v).map some
  absent := some none

/-! ## Types of kova-types -/

/-- A newtype around a UUID. -/
def id (kind : IdKind) : Format (KovaId kind) where
  write x := .string x.to_string
  read := Ledger.LedgerEntryCreatedEvent.id kind

/-- An enumeration without data: the name of the variant, by itself or with `null`. -/
def variant {α : Type} (name : α → String) (all : List α) : Format α where
  write a := .string (name a)
  read
    | .string s | .object [(s, .null)] => all.find? (name · == s)
    | _ => none

/-- `CurrencyCode`. -/
def currency_code : Format Ledger.Currency := variant Ledger.Currency.code Ledger.Currency.all

section

variable (f : Formats)

/-- `rust_decimal::serde::str`. -/
def decimal : Format Decimal where
  write d := .string d.to_string
  read := f.decimal

/-- `DateTime<Utc>`. -/
def date_time : Format DateTime where
  write t := .string (f.rfc3339 t)
  read := f.date_time

end

/-- A score, written as the integer and read by `deserialize_risk_score`. -/
def deserialize_risk_score : Format UInt8 where
  write n := .integer n.toNat
  read v := (Json.u8 v).filter (· ≤ 100)

/-! ## What is read back -/

/-- The texts of decimals and of instants are read back. -/
structure Exact (f : Formats) : Prop where
  decimal : ∀ d, (decimal f).Faithful d
  date_time : ∀ t, (date_time f).Faithful t

@[simp] theorem u8_faithful (n : UInt8) : u8.Faithful n := by
  unfold Format.Faithful u8
  dsimp only
  exact Json.u8_integer n

@[simp] theorem u32_faithful (n : UInt32) : u32.Faithful n := by
  unfold Format.Faithful u32
  dsimp only
  rw [read_unsigned_integer n.toNat_lt, Option.map_some, UInt32.ofNat_toNat]

@[simp] theorem u64_faithful (n : UInt64) : u64.Faithful n := by
  unfold Format.Faithful u64
  dsimp only
  rw [read_unsigned_integer n.toNat_lt, Option.map_some, UInt64.ofNat_toNat]

@[simp] theorem bool_faithful (b : Bool) : bool.Faithful b := rfl

@[simp] theorem text_faithful (s : String) : text.Faithful s := rfl

@[simp] theorem id_faithful {kind : IdKind} (x : KovaId kind) : (id kind).Faithful x :=
  Ledger.LedgerEntryCreatedEvent.id_text x

@[simp] theorem currency_code_faithful (c : Ledger.Currency) : currency_code.Faithful c := by
  cases c <;> rfl

/-- A value that is not written as `null` is read back where it is optional. -/
theorem optional_faithful {α : Type} {f : Format α} (other : ∀ a, f.write a ≠ .null)
    (faithful : ∀ a, f.Faithful a) (x : Option α) : (optional f).Faithful x := by
  cases x with
  | none => rfl
  | some a =>
    have hread := faithful a
    have hnull := other a
    unfold Format.Faithful at hread ⊢
    generalize hv : f.write a = v at hread hnull
    show (match f.write a with | .null => some none | v => (f.read v).map some) = _
    rw [hv]
    cases v with
    | null => exact absurd rfl hnull
    | _ => simp [hread]

@[simp] theorem optional_text_faithful (x : Option String) : (optional text).Faithful x :=
  optional_faithful (fun _ h => by cases h) text_faithful x

@[simp] theorem optional_id_faithful {kind : IdKind} (x : Option (KovaId kind)) :
    (optional (id kind)).Faithful x :=
  optional_faithful (fun _ h => by cases h) id_faithful x

/-- **An optional JSON is read back** unless it is `null`. -/
@[simp] theorem optional_value_faithful_iff (x : Option Json) :
    (optional value).Faithful x ↔ x ≠ some .null := by
  rcases x with _ | v
  · exact ⟨fun _ h => (by cases h), fun _ => rfl⟩
  · cases v with
    | null => exact ⟨fun h => (by cases h), fun h => absurd rfl h⟩
    | _ => exact ⟨fun _ h => (by cases h), fun _ => rfl⟩

/-- **A risk score is read back** up to 100. -/
@[simp] theorem risk_score_faithful_iff (n : UInt8) :
    deserialize_risk_score.Faithful n ↔ n ≤ 100 := by
  unfold Format.Faithful deserialize_risk_score
  dsimp only
  rw [Json.u8_integer, Option.filter_eq_some_iff]
  simp

end Kova.Events

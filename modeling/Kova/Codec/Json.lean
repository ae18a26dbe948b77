import Mathlib.Data.List.Basic

/-!
# JSON objects read into records

A record's derived reader takes the members of an object by their names. A field that is not
optional must be there once, with a value that its own reader takes (`required`); members of other
names are ignored.
-/

set_option autoImplicit false

/-- A JSON value. Numbers with a fraction or an exponent are kept as they are written. -/
inductive Json where
  | null
  | bool (b : Bool)
  | integer (n : Int)
  | real (literal : String)
  | string (s : String)
  | array (items : List Json)
  | object (members : List (String × Json))

namespace Json

/-- Why a record is not read. -/
inductive FieldError where
  | missing (name : String)
  | duplicate (name : String)
  | invalid (name : String)
  deriving DecidableEq

/-! ## Values -/

def text : Json → Option String
  | string s => some s
  | _ => none

def u8 : Json → Option UInt8
  | integer n => if 0 ≤ n ∧ n < 256 then some (UInt8.ofNat n.toNat) else none
  | _ => none

theorem u8_integer (n : UInt8) : u8 (integer n.toNat) = some n := by
  have hn := n.toNat_lt
  rw [u8, if_pos ⟨by omega, by omega⟩, Int.toNat_natCast, UInt8.ofNat_toNat]

/-! ## Fields -/

variable {α : Type} {name : String} {read : Json → Option α} {members : List (String × Json)}

section

variable (name : String) (read : Json → Option α)

/-- The value of a field, read. -/
def field (value : Json) : Except FieldError α :=
  match read value with
  | some a => .ok a
  | none => .error (.invalid name)

/-- A field that must be there. -/
def required (members : List (String × Json)) : Except FieldError α :=
  match members.filter fun m => m.1 == name with
  | [] => .error (.missing name)
  | [m] => field name read m.2
  | _ => .error (.duplicate name)

end

theorem required_missing (h : ∀ m ∈ members, m.1 ≠ name) :
    required name read members = .error (.missing name) := by
  have hnone : (members.filter fun m => m.1 == name) = [] := by
    rw [List.filter_eq_nil_iff]
    intro m hm hname
    exact h m hm (eq_of_beq hname)
  rw [required, hnone]

end Json

import Mathlib.Data.Rat.Defs
import Mathlib.Tactic.NormNum

/-!
# Decimal numbers

`Decimal` is the `rust_decimal` value: a 96-bit mantissa and a scale of at most 28 decimals, the
scale being part of the value (500, 500.0 and 500.00 are three values of one number).
`Dec19_4` is what a DECIMAL(19,4) column holds, counted in ten-thousandths.
-/

namespace Kova

structure Decimal where
  mantissa : Int
  scale : Nat
  mantissa_lt : mantissa.natAbs < 2 ^ 96
  scale_le : scale ≤ 28
  deriving DecidableEq

namespace Decimal

/-- The number a decimal stands for. -/
def toRat (d : Decimal) : ℚ := d.mantissa / 10 ^ d.scale

/-- `amount <= Decimal::ZERO`. -/
def le_zero (d : Decimal) : Bool := d.mantissa ≤ 0

/-- `Display`: every stored decimal is printed, trailing zeros included. -/
def to_string (d : Decimal) : String :=
  let digits := d.mantissa.natAbs.repr.toList
  let padded := List.replicate (d.scale + 1 - digits.length) '0' ++ digits
  let whole := padded.take (padded.length - d.scale)
  let part := padded.drop (padded.length - d.scale)
  String.ofList ((if d.mantissa < 0 then ['-'] else []) ++ whole ++
    if d.scale = 0 then [] else '.' :: part)

/-- The decimal's ten-thousandths, rounded half away from zero when it has more than four
decimals. -/
def units (d : Decimal) : Int :=
  if d.scale ≤ 4 then d.mantissa * 10 ^ (4 - d.scale)
  else
    let k := 10 ^ (d.scale - 4)
    let n : Nat := (d.mantissa.natAbs + k / 2) / k
    if d.mantissa < 0 then -n else n

end Decimal

/-- A DECIMAL(19,4) value: fewer than 10^19 ten-thousandths either way. -/
structure Dec19_4 where
  units : Int
  bound : units.natAbs < 10 ^ 19
  deriving DecidableEq

namespace Dec19_4

/-- Whether a sum of ten-thousandths fits the column type. -/
def Fits (x : Int) : Prop := x.natAbs < 10 ^ 19

instance (x : Int) : Decidable (Fits x) := inferInstanceAs (Decidable (_ < _))

/-- Storing a decimal: rounded to four decimals, refused when out of range. -/
def ofDecimal (d : Decimal) : Option Dec19_4 :=
  if h : d.units.natAbs < 10 ^ 19 then some ⟨d.units, h⟩ else none

/-- `CAST(x AS DECIMAL(19,4))`: an out-of-range value becomes the nearest bound. -/
def cast (x : Int) : Dec19_4 :=
  ⟨max (-(10 ^ 19 - 1)) (min x (10 ^ 19 - 1)), by omega⟩

theorem cast_units {x : Int} (h : Fits x) : (cast x).units = x := by
  have : x.natAbs < 10 ^ 19 := h
  simp only [cast]
  omega

theorem cast_units_eq_zero {x : Int} : (cast x).units = 0 ↔ x = 0 := by
  simp only [cast]
  omega

/-- A column value as the driver hands it out: four decimals. -/
def toDecimal (x : Dec19_4) : Decimal :=
  ⟨x.units, 4, lt_trans x.bound (by norm_num), by omega⟩

@[simp] theorem toRat_toDecimal (x : Dec19_4) : x.toDecimal.toRat = x.units / 10 ^ 4 := rfl

theorem toRat_eq_zero {x : Dec19_4} : x.toDecimal.toRat = 0 ↔ x.units = 0 := by
  rw [toRat_toDecimal, div_eq_zero_iff, Int.cast_eq_zero]
  simp

end Dec19_4

end Kova

import Kova.Codec.Padded
import Kova.Types.Decimal

/-!
# Decimals, their text and their column

`Display` writes the number that the decimal stands for (`number_to_string`). A DECIMAL(19,4) column
holds a decimal without rounding it exactly if there is a value of the column type that is the same
number (`stored_exactly_iff`).
-/

set_option autoImplicit false

namespace Kova

namespace Decimal

variable {d : Decimal}

/-- The digits that are printed: those of the mantissa, with a zero before the point at least. -/
def padded (d : Decimal) : List Char :=
  List.replicate (d.scale + 1 - d.mantissa.natAbs.repr.toList.length) '0' ++
    d.mantissa.natAbs.repr.toList

theorem padded_eq (d : Decimal) : d.padded = Text.padded (d.scale + 1) d.mantissa.natAbs := rfl

theorem digits_padded (d : Decimal) : Text.Digits d.padded := by
  rw [padded_eq]
  exact Text.digits_padded _ _

theorem scale_lt_padded (d : Decimal) : d.scale < d.padded.length := by
  rw [padded_eq, Text.length_padded]
  omega

theorem value_padded (d : Decimal) : Nat.ofDigitChars 10 d.padded 0 = d.mantissa.natAbs := by
  rw [padded_eq, Text.ofDigitChars_padded]

/-- What is printed: the sign, and the digits with a point before the decimals. -/
theorem to_string_signed (d : Decimal) :
    ∃ whole part, d.to_string = String.ofList
        ((if d.mantissa < 0 then ['-'] else []) ++ (whole ++ Text.pointed part)) ∧
      whole ++ part = d.padded ∧ whole ≠ [] ∧ part.length = d.scale := by
  have hlength := d.scale_lt_padded
  have hpart : (d.padded.drop (d.padded.length - d.scale)).length = d.scale := by
    rw [List.length_drop]
    omega
  refine ⟨d.padded.take (d.padded.length - d.scale), d.padded.drop (d.padded.length - d.scale), ?_,
    List.take_append_drop _ _, ?_, hpart⟩
  · have point : ∀ part : List Char, part.length = d.scale →
        Text.pointed part = if d.scale = 0 then [] else '.' :: part := by
      intro part hlen
      rw [← hlen]
      cases part <;> rfl
    rw [point _ hpart, ← List.append_assoc]
    rfl
  · apply List.ne_nil_of_length_pos
    rw [List.length_take]
    omega

/-- What is printed of a number that is not negative. -/
theorem to_string_parts (h : 0 ≤ d.mantissa) :
    ∃ whole part, d.to_string = String.ofList (whole ++ Text.pointed part) ∧
      whole ++ part = d.padded ∧ whole ≠ [] ∧ part.length = d.scale := by
  obtain ⟨whole, part, htext, hparts⟩ := d.to_string_signed
  rw [if_neg (not_lt.mpr h), List.nil_append] at htext
  exact ⟨whole, part, htext, hparts⟩

/-- **The text of a decimal** writes its number. -/
theorem number_to_string (h : 0 ≤ d.mantissa) : Text.number d.to_string = some d.toRat := by
  obtain ⟨whole, part, htext, hdigits, hwhole, hpart⟩ := to_string_parts h
  have digits : Text.Digits (whole ++ part) := hdigits ▸ d.digits_padded
  have hmantissa : ((d.mantissa.natAbs : Int) : ℚ) = d.mantissa := by rw [Int.natAbs_of_nonneg h]
  rw [htext, Text.number_of_digits digits.left digits.right hwhole, Text.value, hpart, hdigits,
    value_padded, toRat, ← hmantissa, Int.cast_natCast]

/-- It writes the scale. -/
theorem places_to_string (h : 0 ≤ d.mantissa) : Text.places d.to_string = d.scale := by
  obtain ⟨whole, part, htext, hdigits, _, hpart⟩ := to_string_parts h
  have digits : Text.Digits (whole ++ part) := hdigits ▸ d.digits_padded
  rw [htext, Text.places_of_digits digits.left, hpart]

/-- A number at a scale is one decimal. -/
theorem eq_of_toRat {d' : Decimal} (hscale : d.scale = d'.scale) (h : d.toRat = d'.toRat) :
    d = d' := by
  obtain ⟨m, s, _, _⟩ := d
  obtain ⟨m', s', _, _⟩ := d'
  obtain rfl : s = s' := hscale
  have hmantissa : (m : ℚ) = m' := (div_left_inj' (by positivity)).mp h
  obtain rfl : m = m' := by exact_mod_cast hmantissa
  rfl

/-- A number of ten-thousandths is not rounded. -/
theorem units_of_toRat {n : Int} (h : d.toRat = n / 10 ^ 4) : d.units = n := by
  have hcross : d.mantissa * 10 ^ 4 = n * 10 ^ d.scale := by
    have := (div_eq_div_iff (by positivity) (by positivity)).mp h
    exact_mod_cast this
  rw [units]
  by_cases hscale : d.scale ≤ 4
  · rw [if_pos hscale]
    have hpow : (10 : Int) ^ 4 = 10 ^ (4 - d.scale) * 10 ^ d.scale := by
      rw [← pow_add, Nat.sub_add_cancel hscale]
    rw [hpow, ← mul_assoc] at hcross
    exact Int.eq_of_mul_eq_mul_right (by positivity) hcross
  · rw [if_neg hscale]
    have hpow : (10 : Int) ^ d.scale = 10 ^ (d.scale - 4) * 10 ^ 4 := by
      rw [← pow_add, Nat.sub_add_cancel (by omega)]
    rw [hpow, ← mul_assoc] at hcross
    have hmantissa : d.mantissa = n * 10 ^ (d.scale - 4) :=
      Int.eq_of_mul_eq_mul_right (by positivity) hcross
    have hk : 0 < 10 ^ (d.scale - 4) := by positivity
    have habs : d.mantissa.natAbs = n.natAbs * 10 ^ (d.scale - 4) := by
      rw [hmantissa, Int.natAbs_mul, Int.natAbs_pow]
      rfl
    have hround : (d.mantissa.natAbs + 10 ^ (d.scale - 4) / 2) / 10 ^ (d.scale - 4) = n.natAbs := by
      rw [habs, Nat.add_comm, Nat.add_mul_div_right _ _ hk,
        Nat.div_eq_of_lt (Nat.div_lt_self hk (by decide)), Nat.zero_add]
    simp only [hround]
    have hsign : d.mantissa < 0 ↔ n < 0 := by
      rw [hmantissa]
      constructor
      · intro hlt
        exact neg_of_mul_neg_left hlt (by positivity)
      · intro hlt
        exact mul_neg_of_neg_of_pos hlt (by positivity)
    by_cases hneg : n < 0
    · rw [if_pos (hsign.mpr hneg)]
      omega
    · rw [if_neg (hsign.not.mpr hneg)]
      omega

end Decimal

namespace Dec19_4

/-- The column type has the number. -/
def Holds (x : ℚ) : Prop := ∃ a : Dec19_4, a.toDecimal.toRat = x

/-- A number that the column type has is stored as it is. -/
theorem ofDecimal_of_eq {d : Decimal} {a : Dec19_4} (h : d.toRat = a.toDecimal.toRat) :
    ofDecimal d = some a := by
  rw [toRat_toDecimal] at h
  have hunits := Decimal.units_of_toRat h
  have hfits : d.units.natAbs < 10 ^ 19 := hunits ▸ a.bound
  rw [ofDecimal, dif_pos hfits, Option.some.injEq]
  cases a
  simp only [hunits]

/-- **What is stored without rounding.** -/
theorem stored_exactly_iff {d : Decimal} {a : Dec19_4} (h : ofDecimal d = some a) :
    a.toDecimal.toRat = d.toRat ↔ Holds d.toRat := by
  constructor
  · intro heq
    exact ⟨a, heq⟩
  · rintro ⟨b, hb⟩
    obtain rfl : b = a := Option.some.inj ((ofDecimal_of_eq hb.symm).symm.trans h)
    exact hb

end Dec19_4

end Kova

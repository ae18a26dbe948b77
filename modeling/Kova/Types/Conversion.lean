import Kova.Types.Money

/-!
# Conversion

A product is rounded twice: by the crate, to the largest scale that it fits at, and by `new`, to
four decimals. The two are one rounding of the exact product unless the first one misleads the
second (`conversion_rounds_once_iff`): where a rate has so many decimals that the product is rounded
to a tie, the tie decides and not the product.
-/

set_option autoImplicit false

namespace Kova

open Rounding

namespace Money

variable {R : RustDecimal} {C D : Currency}

/-- The exact number rounded to four decimals, and no further from it than half of the last. -/
structure RoundedOnce (x y : ℚ) : Prop where
  eq : y = decimals 4 x
  error : |x - y| ≤ 0.00005

theorem roundedOnce_iff {x y : ℚ} : RoundedOnce x y ↔ y = decimals 4 x := by
  constructor
  · exact RoundedOnce.eq
  · rintro rfl
    refine ⟨rfl, (decimals_error 4 x).trans ?_⟩
    norm_num

/-- The crate's rounding of the product leads `new` to the same four decimals. -/
def ProductClear (a b : Decimal) : Prop :=
  ∀ s, LargestScale (a.toRat * b.toRat) (a.scale + b.scale) s → Clear 4 s (a.toRat * b.toRat)

theorem largestScale_unique {x : ℚ} {scale s s' : Nat} (h : LargestScale x scale s)
    (h' : LargestScale x scale s') : s = s' :=
  le_antisymm (h'.largest s h.le h.fits) (h.largest s' h'.le h'.fits)

/-- A product that fits is not rounded by the crate. -/
theorem productClear_of_fits {a b : Decimal} (hscale : a.scale + b.scale ≤ 28)
    (hfits : (a.mantissa * b.mantissa).natAbs < 2 ^ 96) : ProductClear a b := by
  have product : a.toRat * b.toRat =
      ((a.mantissa * b.mantissa : Int) : ℚ) / 10 ^ (a.scale + b.scale) := by
    rw [Decimal.toRat, Decimal.toRat, div_mul_div_comm, ← pow_add]
    push_cast
    rfl
  have scaled : a.toRat * b.toRat * 10 ^ (a.scale + b.scale) = (a.mantissa * b.mantissa : Int) := by
    rw [product, div_mul_cancel₀ _ (by positivity)]
  intro s largest
  have hs : s = a.scale + b.scale := by
    have hle := largest.le
    have hge := largest.largest (a.scale + b.scale) (by omega) (by
      rw [scaled, halfEven_intCast]
      exact hfits)
    omega
  rw [← decimals_twice_iff, hs, decimals_eq_iff.mpr ⟨_, product⟩]

/-- A product is rounded by the crate and by `new`. -/
theorem product_rounds_once_iff {a b c : Decimal} (h : R.checked_mul a b = some c) :
    RoundedOnce (a.toRat * b.toRat) (new R c : Money D).amount.toRat ↔ ProductClear a b := by
  obtain ⟨s, largest, hc⟩ := R.mul_value a b c h
  rw [roundedOnce_iff, new_value, hc, decimals_twice_iff]
  constructor
  · intro hclear s' largest'
    exact largestScale_unique largest largest' ▸ hclear
  · intro hclear
    exact hclear s largest

/-- **A conversion rounds once**, and so does a product, exactly where the crate's own rounding does
not mislead. -/
theorem conversion_rounds_once_iff (R : RustDecimal) (self : Money C) (rate : Decimal) :
    (∀ m, self.convert_to R D rate = some m →
      (RoundedOnce (self.amount.toRat * rate.toRat) m.amount.toRat ↔
        ProductClear self.amount rate)) ∧
    (∀ m, self.checked_mul R rate = some m →
      (RoundedOnce (self.amount.toRat * rate.toRat) m.amount.toRat ↔
        ProductClear self.amount rate)) := by
  constructor
  · intro m hm
    obtain ⟨c, hc, rfl⟩ := Option.map_eq_some_iff.mp hm
    exact product_rounds_once_iff hc
  · intro m hm
    obtain ⟨c, hc, rfl⟩ := Option.map_eq_some_iff.mp hm
    exact product_rounds_once_iff hc

/-- A thousand at the rate 0.0005. -/
theorem conversion_of_a_thousand :
    ∃ m : Money .GBP,
      (⟨⟨1000, 0, by decide, by decide⟩⟩ : Money .NGN).convert_to RustDecimal.written_out .GBP
        ⟨5, 4, by decide, by decide⟩ = some m ∧
      RoundedOnce (1000 * 0.0005) m.amount.toRat := by
  refine ⟨⟨⟨5000, 4, by decide, by decide⟩⟩, by decide +kernel, ?_⟩
  have rounds := (conversion_rounds_once_iff (C := .NGN) (D := .GBP) RustDecimal.written_out
    ⟨⟨1000, 0, by decide, by decide⟩⟩ ⟨5, 4, by decide, by decide⟩).1
    ⟨⟨5000, 4, by decide, by decide⟩⟩ (by decide +kernel)
  have amounts := rounds.mpr (productClear_of_fits (by decide) (by decide))
  norm_num [Decimal.toRat] at amounts ⊢
  exact amounts

/-- **A ten-thousandth at a rate just above a half** is nearer to a ten-thousandth than to nothing,
but the product is rounded to the tie between them. -/
theorem conversion_misled :
    ∃ m : Money .GBP,
      (⟨⟨1, 4, by decide, by decide⟩⟩ : Money .NGN).convert_to RustDecimal.written_out .GBP
        ⟨5000000000000000000000000001, 28, by decide, by decide⟩ = some m ∧
      m.amount.toRat = 0 ∧
      ¬ RoundedOnce (0.0001 * 0.5000000000000000000000000001) m.amount.toRat := by
  -- The crate's product is 0.00005.
  refine ⟨new RustDecimal.written_out ⟨500000000000000000000000, 28, by decide, by decide⟩,
    by decide +kernel, by decide +kernel, ?_⟩
  rw [roundedOnce_iff]
  decide +kernel

end Money

end Kova

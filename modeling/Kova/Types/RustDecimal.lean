import Kova.Rounding.HalfEven
import Kova.Types.DecimalLaws
import Mathlib.Algebra.Order.Archimedean.Basic
import Mathlib.Data.Rat.Floor

/-!
# The arithmetic of `rust_decimal`

What `Money` relies on of the crate (`RustDecimal`): a sum is exact where the operands, aligned to
the larger scale, and the sum fit the mantissa; a product is rounded half to even to the largest
scale that fits; and a decimal is rounded half to even to the places asked for. `written_out` is an
arithmetic of this kind on integers.
-/

set_option autoImplicit false

namespace Kova

open Rounding

namespace Decimal

/-- The mantissa at a larger scale. -/
def aligned (d : Decimal) (scale : Nat) : Int := d.mantissa * 10 ^ (scale - d.scale)

theorem hasDecimals (d : Decimal) : HasDecimals d.scale d.toRat := ⟨d.mantissa, rfl⟩

theorem aligned_eq {d : Decimal} {scale : Nat} (h : d.scale ≤ scale) :
    (d.aligned scale : ℚ) = d.toRat * 10 ^ scale := by
  have hpow : (10 : ℚ) ^ scale = 10 ^ d.scale * 10 ^ (scale - d.scale) := by
    rw [← pow_add, Nat.add_sub_cancel' h]
  rw [aligned, toRat, hpow, ← mul_assoc, div_mul_cancel₀ _ (by positivity)]
  push_cast
  rfl

end Decimal

/-- The operands, aligned to the larger scale, and the result fit a 96-bit mantissa. -/
structure Aligns (a b : Decimal) (result : Int) : Prop where
  left : (a.aligned (max a.scale b.scale)).natAbs < 2 ^ 96
  right : (b.aligned (max a.scale b.scale)).natAbs < 2 ^ 96
  result : result.natAbs < 2 ^ 96

/-- The largest scale, of 28 and the exact one at most, at which the rounded number fits. -/
structure LargestScale (x : ℚ) (scale s : Nat) : Prop where
  le : s ≤ min 28 scale
  fits : (halfEven (x * 10 ^ s)).natAbs < 2 ^ 96
  largest : ∀ s', s' ≤ min 28 scale → (halfEven (x * 10 ^ s')).natAbs < 2 ^ 96 → s' ≤ s

/-- **What the code relies on** of the crate. -/
structure RustDecimal where
  /-- `round_dp_with_strategy` with `MidpointNearestEven`. -/
  round_dp : Decimal → Nat → Decimal
  checked_add : Decimal → Decimal → Option Decimal
  checked_sub : Decimal → Decimal → Option Decimal
  checked_mul : Decimal → Decimal → Option Decimal
  neg : Decimal → Decimal
  /-- `serde::str::deserialize`, on the text of the field. -/
  deserialize : String → Except String Decimal
  round_value : ∀ d dp, (round_dp d dp).toRat = decimals dp d.toRat
  round_scale : ∀ d dp, (round_dp d dp).scale ≤ dp
  add_value : ∀ a b : Decimal,
    Aligns a b (a.aligned (max a.scale b.scale) + b.aligned (max a.scale b.scale)) →
      ∃ c, checked_add a b = some c ∧ c.toRat = a.toRat + b.toRat
  sub_value : ∀ a b : Decimal,
    Aligns a b (a.aligned (max a.scale b.scale) - b.aligned (max a.scale b.scale)) →
      ∃ c, checked_sub a b = some c ∧ c.toRat = a.toRat - b.toRat
  mul_value : ∀ a b c : Decimal, checked_mul a b = some c →
    ∃ s, LargestScale (a.toRat * b.toRat) (a.scale + b.scale) s ∧
      c.toRat = decimals s (a.toRat * b.toRat)
  neg_value : ∀ d, (neg d).toRat = -d.toRat

namespace RustDecimal

/-! ## Written out on integers -/

/-- The quotient rounded half to even. -/
def half_even (n : Int) (k : Nat) : Int :=
  if 2 * (n % k) < k then n / k
  else if k < 2 * (n % k) then n / k + 1
  else if n / k % 2 = 0 then n / k else n / k + 1

theorem half_even_eq (n : Int) {k : Nat} (hk : 0 < k) :
    half_even n k = halfEven ((n : ℚ) / k) := by
  have hk' : (0 : ℚ) < k := by exact_mod_cast hk
  have hfloor : ⌊(n : ℚ) / k⌋ = n / k := Rat.floor_intCast_div_natCast n k
  have hrest : 2 * ((n : ℚ) / k - ⌊(n : ℚ) / k⌋) = (2 * (n % k) : Int) / k := by
    have hdiv : (n : ℚ) = k * (n / (k : Int) : Int) + (n % (k : Int) : Int) := by
      exact_mod_cast (Int.mul_ediv_add_emod n k).symm
    rw [hfloor, eq_div_iff hk'.ne', mul_assoc, sub_mul, div_mul_cancel₀ _ hk'.ne']
    push_cast at hdiv ⊢
    linarith
  have hbelow : 2 * ((n : ℚ) / k - ⌊(n : ℚ) / k⌋) < 1 ↔ 2 * (n % k) < (k : Int) := by
    rw [hrest, div_lt_one hk']
    exact_mod_cast Iff.rfl
  have habove : 1 < 2 * ((n : ℚ) / k - ⌊(n : ℚ) / k⌋) ↔ (k : Int) < 2 * (n % k) := by
    rw [hrest, one_lt_div hk']
    exact_mod_cast Iff.rfl
  unfold half_even halfEven
  rw [hfloor] at hbelow habove ⊢
  rw [if_congr hbelow rfl (if_congr habove rfl (if_congr Int.even_iff rfl rfl))]

/-- Rounding a quotient does not enlarge the number. -/
theorem half_even_le (n : Int) {k : Nat} (hk : 0 < k) : (half_even n k).natAbs ≤ n.natAbs := by
  have hk' : (1 : ℚ) ≤ k := by exact_mod_cast hk
  have hnear := (nearest_halfEven ((n : ℚ) / k)).near
  rw [← half_even_eq n hk] at hnear
  have hquot : |(n : ℚ) / k| ≤ |(n : ℚ)| := by
    rw [abs_div, abs_of_pos (by linarith : (0 : ℚ) < k)]
    exact div_le_self (abs_nonneg _) hk'
  have hround : |(half_even n k : ℚ)| ≤ |(n : ℚ) / k| + 1 / 2 := by
    have := abs_sub_abs_le_abs_sub (half_even n k : ℚ) ((n : ℚ) / k)
    rw [abs_sub_comm] at hnear
    linarith
  have hle : |(half_even n k : ℚ)| < |(n : ℚ)| + 1 := by linarith
  have hle' : |half_even n k| < |n| + 1 := by exact_mod_cast hle
  rw [Int.abs_eq_natAbs, Int.abs_eq_natAbs] at hle'
  omega

/-- The number `n / 10 ^ scale` rounded to a scale, if it fits there. -/
def placed (n : Int) (scale s : Nat) (hs : s ≤ 28) : Option Decimal :=
  if h : (half_even n (10 ^ (scale - s))).natAbs < 2 ^ 96 then
    some ⟨half_even n (10 ^ (scale - s)), s, h, hs⟩
  else none

/-- The number at the largest scale that fits, of those up to `s`. -/
def fitted (n : Int) (scale : Nat) : (s : Nat) → s ≤ 28 → Option Decimal
  | 0, hs => placed n scale 0 hs
  | s + 1, hs => (placed n scale (s + 1) hs).or (fitted n scale s (by omega))

section

variable {n : Int} {scale s : Nat} {c : Decimal}

/-- At a scale no larger than its own the number is rounded as written out. -/
theorem half_even_scaled (h : s ≤ scale) :
    half_even n (10 ^ (scale - s)) = halfEven ((n : ℚ) / 10 ^ scale * 10 ^ s) := by
  have hpow : (10 : ℚ) ^ scale = 10 ^ (scale - s) * 10 ^ s := by
    rw [← pow_add, Nat.sub_add_cancel h]
  rw [half_even_eq n (by positivity), hpow]
  congr 1
  push_cast
  field_simp

theorem placed_eq {hs : s ≤ 28} (h : s ≤ scale) (hc : placed n scale s hs = some c) :
    c.scale = s ∧ (halfEven ((n : ℚ) / 10 ^ scale * 10 ^ s)).natAbs < 2 ^ 96 ∧
      c.toRat = decimals s ((n : ℚ) / 10 ^ scale) := by
  unfold placed at hc
  split at hc
  · next hfits =>
    cases hc
    rw [half_even_scaled h] at hfits
    refine ⟨rfl, hfits, ?_⟩
    simp only [Decimal.toRat, half_even_scaled h, decimals]
  · cases hc

theorem fitted_eq {hs : s ≤ 28} (h : s ≤ scale) (hc : fitted n scale s hs = some c) :
    c.scale ≤ s ∧ (halfEven ((n : ℚ) / 10 ^ scale * 10 ^ c.scale)).natAbs < 2 ^ 96 ∧
      (∀ s' ≤ s, (halfEven ((n : ℚ) / 10 ^ scale * 10 ^ s')).natAbs < 2 ^ 96 → s' ≤ c.scale) ∧
        c.toRat = decimals c.scale ((n : ℚ) / 10 ^ scale) := by
  induction s with
  | zero =>
    obtain ⟨hscale, hfits, hvalue⟩ := placed_eq h hc
    rw [hscale]
    exact ⟨le_rfl, hfits, fun s' hs' _ => hs', hvalue⟩
  | succ s ih =>
    rw [fitted, Option.or_eq_some_iff] at hc
    rcases hc with hc | ⟨hnone, hc⟩
    · obtain ⟨hscale, hfits, hvalue⟩ := placed_eq h hc
      rw [hscale]
      exact ⟨le_rfl, hfits, fun s' hs' _ => hs', hvalue⟩
    · obtain ⟨hscale, hfits, hlargest, hvalue⟩ := ih (by omega) hc
      refine ⟨by omega, hfits, ?_, hvalue⟩
      intro s' hs' hfits'
      rcases Nat.lt_or_ge s' (s + 1) with hlt | hge
      · exact hlargest s' (by omega) hfits'
      · obtain rfl : s' = s + 1 := by omega
        rw [placed, dif_pos (by rwa [half_even_scaled h])] at hnone
        cases hnone

/-- An integer that fits stays at its own scale. -/
theorem fitted_exact {hs : scale ≤ 28} (h : n.natAbs < 2 ^ 96) :
    fitted n scale scale hs = some ⟨n, scale, h, hs⟩ := by
  have hone : half_even n (10 ^ (scale - scale)) = n := by
    rw [half_even_scaled le_rfl, div_mul_cancel₀ _ (by positivity), halfEven_intCast]
  have hplaced : placed n scale scale hs = some ⟨n, scale, h, hs⟩ := by
    unfold placed
    rw [dif_pos (by rwa [hone])]
    simp only [hone]
  cases scale with
  | zero => exact hplaced
  | succ scale => rw [fitted, hplaced, Option.some_or]

end

/-- `round_dp_with_strategy`: a decimal of no more places stays as it is. -/
def rounded (d : Decimal) (dp : Nat) : Decimal :=
  if h : d.scale ≤ dp then d
  else
    ⟨half_even d.mantissa (10 ^ (d.scale - dp)), dp,
      lt_of_le_of_lt (half_even_le _ (by positivity)) d.mantissa_lt,
      (Nat.le_of_not_le h).trans d.scale_le⟩

theorem rounded_value (d : Decimal) (dp : Nat) : (rounded d dp).toRat = decimals dp d.toRat := by
  unfold rounded
  split
  · next h => exact (decimals_eq_iff.mpr (d.hasDecimals.mono h)).symm
  · next h =>
    simp only [Decimal.toRat, half_even_scaled (Nat.le_of_not_le h), decimals]

theorem rounded_scale (d : Decimal) (dp : Nat) : (rounded d dp).scale ≤ dp := by
  unfold rounded
  split
  · next h => exact h
  · exact le_rfl

/-- A sum of mantissas at one scale. -/
def summed (n : Int) (a b : Decimal) : Option Decimal :=
  fitted n (max a.scale b.scale) (max a.scale b.scale) (max_le a.scale_le b.scale_le)

theorem summed_value {n : Int} {a b : Decimal} {x : ℚ} (h : Aligns a b n)
    (hn : (n : ℚ) = x * 10 ^ max a.scale b.scale) : ∃ c, summed n a b = some c ∧ c.toRat = x := by
  refine ⟨_, fitted_exact h.result, ?_⟩
  rw [Decimal.toRat, hn, mul_div_cancel_right₀ _ (by positivity)]

/-- The decimal that a numeral writes, underscores left out. -/
def read (text : String) : Except String Decimal :=
  let plain := String.ofList (text.toList.filter (· != '_'))
  match Text.number plain with
  | none => .error "Invalid decimal: unknown character"
  | some q =>
    match fitted (q * 10 ^ Text.places plain).num (Text.places plain)
        (min 28 (Text.places plain)) (min_le_left _ _) with
    | none => .error "Invalid decimal: overflow from too many digits"
    | some d => .ok d

/-- An arithmetic of the kind that the code relies on. -/
def written_out : RustDecimal where
  round_dp := rounded
  checked_add a b :=
    summed (a.aligned (max a.scale b.scale) + b.aligned (max a.scale b.scale)) a b
  checked_sub a b :=
    summed (a.aligned (max a.scale b.scale) - b.aligned (max a.scale b.scale)) a b
  checked_mul a b :=
    fitted (a.mantissa * b.mantissa) (a.scale + b.scale) (min 28 (a.scale + b.scale))
      (min_le_left _ _)
  neg d := ⟨-d.mantissa, d.scale, by simpa using d.mantissa_lt, d.scale_le⟩
  deserialize := read
  round_value := rounded_value
  round_scale := rounded_scale
  add_value a b h := by
    refine summed_value h ?_
    push_cast
    rw [Decimal.aligned_eq (le_max_left _ _), Decimal.aligned_eq (le_max_right _ _), add_mul]
  sub_value a b h := by
    refine summed_value h ?_
    push_cast
    rw [Decimal.aligned_eq (le_max_left _ _), Decimal.aligned_eq (le_max_right _ _), sub_mul]
  mul_value a b c h := by
    have hvalue : a.toRat * b.toRat =
        ((a.mantissa * b.mantissa : Int) : ℚ) / 10 ^ (a.scale + b.scale) := by
      rw [Decimal.toRat, Decimal.toRat, div_mul_div_comm, ← pow_add]
      push_cast
      rfl
    obtain ⟨hle, hfits, hlargest, hc⟩ := fitted_eq (min_le_right _ _) h
    rw [← hvalue] at hfits hlargest hc
    exact ⟨c.scale, ⟨hle, hfits, hlargest⟩, hc⟩
  neg_value d := by
    rw [Decimal.toRat, Decimal.toRat, Int.cast_neg, neg_div]

end RustDecimal

end Kova

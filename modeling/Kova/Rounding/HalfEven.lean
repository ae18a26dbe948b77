import Mathlib.Algebra.Order.Floor.Ring
import Mathlib.Algebra.Ring.Int.Parity
import Mathlib.Tactic.FieldSimp
import Mathlib.Tactic.Linarith
import Mathlib.Tactic.Positivity
import Mathlib.Tactic.Ring

/-!
# Rounding to the nearest, ties to even

`Nearest x n` says that `n` is the integer that `x` is rounded to, the even one where two are as
near; there is exactly one (`Nearest.unique`, `nearest_halfEven`). `decimals s x` is `x` rounded to
`s` decimals.

Rounding twice is rounding once unless the first rounding lands on a tie of the second that the
number itself is not on (`halfEven_twice_iff`, `decimals_twice_iff`).
-/

set_option autoImplicit false

namespace Rounding

variable {K : Type*} [Field K] [LinearOrder K] [IsStrictOrderedRing K] {x y : K} {m n : ℤ}

/-- The integer is as near as any, and even where another is as near. -/
structure Nearest (x : K) (n : ℤ) : Prop where
  near : |x - n| ≤ 1 / 2
  even : |x - n| = 1 / 2 → Even n

omit [IsStrictOrderedRing K] in
/-- A number that is nearer than any tie. -/
theorem Nearest.of_lt (h : |x - n| < 1 / 2) : Nearest x n := ⟨h.le, fun heq => absurd heq h.ne⟩

/-- Of two integers as near, one is one more than the other. -/
theorem tie_of_nearest (h : |x - m| ≤ 1 / 2) (h' : |x - n| ≤ 1 / 2) (hlt : m < n) :
    n = m + 1 ∧ |x - m| = 1 / 2 ∧ |x - n| = 1 / 2 := by
  obtain ⟨hm, hm'⟩ := abs_le.mp h
  obtain ⟨hn, hn'⟩ := abs_le.mp h'
  have hcast : (m : K) + 1 ≤ n := by exact_mod_cast hlt
  have hsucc : (n : K) = m + 1 := by linarith
  refine ⟨by exact_mod_cast hsucc, ?_, ?_⟩
  · rw [abs_of_nonneg (by linarith)]
    linarith
  · rw [abs_of_nonpos (by linarith)]
    linarith

/-- **One integer is the nearest.** -/
theorem Nearest.unique (h : Nearest x m) (h' : Nearest x n) : m = n := by
  rcases lt_trichotomy m n with hlt | heq | hlt
  · obtain ⟨hsucc, hm, hn⟩ := tie_of_nearest h.near h'.near hlt
    have odd := (h.even hm).add_one
    rw [← hsucc] at odd
    exact absurd (h'.even hn) (Int.not_even_iff_odd.mpr odd)
  · exact heq
  · obtain ⟨hsucc, hn, hm⟩ := tie_of_nearest h'.near h.near hlt
    have odd := (h'.even hn).add_one
    rw [← hsucc] at odd
    exact absurd (h.even hm) (Int.not_even_iff_odd.mpr odd)

theorem nearest_int (n : ℤ) : Nearest (n : K) n := by
  refine Nearest.of_lt ?_
  rw [sub_self, abs_zero]
  positivity

section Floor

variable [FloorRing K]

/-- The nearest integer, the even one of two. -/
def halfEven (x : K) : ℤ :=
  if 2 * (x - ⌊x⌋) < 1 then ⌊x⌋
  else if 1 < 2 * (x - ⌊x⌋) then ⌊x⌋ + 1
  else if Even ⌊x⌋ then ⌊x⌋ else ⌊x⌋ + 1

/-- **It is the nearest.** -/
theorem nearest_halfEven (x : K) : Nearest x (halfEven x) := by
  have hle := Int.floor_le x
  have hlt := Int.lt_floor_add_one x
  unfold halfEven
  split
  · next h =>
    refine Nearest.of_lt (abs_lt.mpr ⟨?_, ?_⟩) <;> linarith
  · next h =>
    split
    · next h' =>
      refine Nearest.of_lt (abs_lt.mpr ⟨?_, ?_⟩) <;> push_cast <;> linarith
    · next h' =>
      have htie : x - ⌊x⌋ = 1 / 2 := by linarith
      split
      · next heven =>
        exact ⟨by rw [htie, abs_of_pos (by positivity)], fun _ => heven⟩
      · next hodd =>
        have htie' : x - (⌊x⌋ + 1 : ℤ) = -(1 / 2) := by
          push_cast
          linarith
        refine ⟨by rw [htie', abs_neg, abs_of_pos (by positivity)], fun _ => ?_⟩
        exact (Int.not_even_iff_odd.mp hodd).add_one

theorem halfEven_eq (h : Nearest x n) : halfEven x = n := (nearest_halfEven x).unique h

@[simp] theorem halfEven_intCast (n : ℤ) : halfEven (n : K) = n := halfEven_eq (nearest_int n)

/-! ## Rounding twice -/

/-- The number rounds to a tie of the multiples of `2 * h`, and lies on its side of the odd one. -/
def Misled (h : ℕ) (y : K) : Prop :=
  ∃ j : ℤ, Nearest y ((2 * j + 1) * h) ∧
    (y < ((2 * j + 1) * h : ℤ) ∧ Odd j ∨ ((2 * j + 1) * h : ℤ) < y ∧ Even j)

section Twice

variable {h : ℕ} {j : ℤ}

/-- What lies below a tie, half a unit away at most, is nearest to the lower multiple. -/
theorem nearest_below (hpos : 0 < h) (near : Nearest y ((2 * j + 1) * h))
    (hlt : y < ((2 * j + 1) * h : ℤ)) : Nearest (y / (2 * h)) j := by
  have hh : (1 : K) ≤ h := by exact_mod_cast hpos
  obtain ⟨hbelow, _⟩ := abs_le.mp near.near
  push_cast at hbelow hlt
  refine Nearest.of_lt ?_
  have hdiff : y / (2 * h) - j = (y - 2 * h * j) / (2 * h) := by
    field_simp
  rw [hdiff, abs_div, abs_of_pos (by positivity : (0 : K) < 2 * h), div_lt_iff₀ (by positivity)]
  rw [abs_lt]
  constructor <;> linarith

/-- What lies above a tie is nearest to the upper multiple. -/
theorem nearest_above (hpos : 0 < h) (near : Nearest y ((2 * j + 1) * h))
    (hlt : ((2 * j + 1) * h : ℤ) < y) : Nearest (y / (2 * h)) (j + 1) := by
  have hh : (1 : K) ≤ h := by exact_mod_cast hpos
  obtain ⟨_, habove⟩ := abs_le.mp near.near
  push_cast at habove hlt
  refine Nearest.of_lt ?_
  have hdiff : y / (2 * h) - (j + 1 : ℤ) = (y - 2 * h * (j + 1)) / (2 * h) := by
    push_cast
    field_simp
  rw [hdiff, abs_div, abs_of_pos (by positivity : (0 : K) < 2 * h), div_lt_iff₀ (by positivity)]
  rw [abs_lt]
  constructor <;> linarith

/-- A tie is as near to either multiple. -/
theorem halfEven_tie (hpos : 0 < h) :
    halfEven (((2 * j + 1) * h : ℤ) / (2 * h) : K) = if Even j then j else j + 1 := by
  have hh : (0 : K) < h := by exact_mod_cast hpos
  have hvalue : (((2 * j + 1) * h : ℤ) / (2 * h) : K) = j + 1 / 2 := by
    push_cast
    field_simp
  rw [hvalue]
  apply halfEven_eq
  split
  · next heven => exact ⟨by norm_num, fun _ => heven⟩
  · next hodd =>
    have hdist : (j : K) + 1 / 2 - (j + 1 : ℤ) = -(1 / 2) := by
      push_cast
      ring
    exact ⟨by rw [hdist]; norm_num, fun _ => (Int.not_even_iff_odd.mp hodd).add_one⟩

/-- What does not round to a tie rounds as its rounding does. -/
theorem halfEven_off_tie (hpos : 0 < h) (off : ∀ j : ℤ, halfEven y ≠ (2 * j + 1) * h) :
    halfEven ((halfEven y : K) / (2 * h)) = halfEven (y / (2 * h)) := by
  have hh : (0 : K) < 2 * h := by
    have : (0 : K) < h := by exact_mod_cast hpos
    linarith
  set n := halfEven y with hn
  set q := halfEven ((n : K) / (2 * h)) with hq
  obtain ⟨hlow, hhigh⟩ := abs_le.mp (nearest_halfEven ((n : K) / (2 * h))).near
  rw [← hq] at hlow hhigh
  have hscaled : (n : K) / (2 * h) - q = ((n - 2 * h * q : ℤ) : K) / (2 * h) := by
    push_cast
    field_simp
  rw [hscaled, le_div_iff₀ hh] at hlow
  rw [hscaled, div_le_iff₀ hh] at hhigh
  have hlow' : -(h : ℤ) ≤ n - 2 * h * q := by
    have : ((-(h : ℤ) : ℤ) : K) ≤ ((n - 2 * h * q : ℤ) : K) := by
      push_cast at hlow ⊢
      linarith
    exact_mod_cast this
  have hhigh' : n - 2 * h * q ≤ (h : ℤ) := by
    have : ((n - 2 * h * q : ℤ) : K) ≤ ((h : ℤ) : K) := by
      push_cast at hhigh ⊢
      linarith
    exact_mod_cast this
  -- Neither end is reached: there the rounding is a tie.
  have hlow₁ : -(h : ℤ) + 1 ≤ n - 2 * h * q := by
    rcases hlow'.lt_or_eq with hlt | heq
    · omega
    · exact absurd (by linarith : n = (2 * (q - 1) + 1) * h) (off (q - 1))
  have hhigh₁ : n - 2 * h * q ≤ (h : ℤ) - 1 := by
    rcases hhigh'.lt_or_eq with hlt | heq
    · omega
    · exact absurd (by linarith : n = (2 * q + 1) * h) (off q)
  have hlow₂ : -(h : K) + 1 ≤ n - 2 * h * q := by exact_mod_cast hlow₁
  have hhigh₂ : (n : K) - 2 * h * q ≤ h - 1 := by exact_mod_cast hhigh₁
  obtain ⟨hy, hy'⟩ := abs_le.mp (nearest_halfEven y).near
  rw [← hn] at hy hy'
  symm
  apply halfEven_eq
  refine Nearest.of_lt ?_
  have hdiff : y / (2 * h) - q = (y - 2 * h * q) / (2 * h) := by
    field_simp
  rw [hdiff, abs_div, abs_of_pos hh, div_lt_iff₀ hh, abs_lt]
  constructor <;> linarith

/-- **Rounding to integers and then to multiples of `2 * h`** is rounding to the multiples unless
the first rounding misleads. -/
theorem halfEven_twice_iff (hpos : 0 < h) (y : K) :
    halfEven ((halfEven y : K) / (2 * h)) = halfEven (y / (2 * h)) ↔ ¬ Misled h y := by
  by_cases htie : ∃ j : ℤ, halfEven y = (2 * j + 1) * h
  · obtain ⟨j, hj⟩ := htie
    have near : Nearest y ((2 * j + 1) * h) := hj ▸ nearest_halfEven y
    rw [hj, halfEven_tie hpos]
    have same : Misled h y ↔
        (y < ((2 * j + 1) * h : ℤ) ∧ Odd j ∨ ((2 * j + 1) * h : ℤ) < y ∧ Even j) := by
      refine ⟨?_, fun hside => ⟨j, near, hside⟩⟩
      rintro ⟨i, hi, hside⟩
      have heq := hi.unique near
      have hij : i = j := by
        have hh : (h : ℤ) ≠ 0 := by exact_mod_cast hpos.ne'
        have := mul_right_cancel₀ hh heq
        omega
      exact hij ▸ hside
    rw [same]
    rcases lt_trichotomy y ((2 * j + 1) * h : ℤ) with hlt | heq | hlt
    · rw [halfEven_eq (nearest_below hpos near hlt)]
      generalize (((2 * j + 1) * h : ℤ) : K) = τ at hlt
      by_cases heven : Even j
      · simp [heven, hlt, hlt.not_gt]
      · simp [heven, hlt, hlt.not_gt, Int.not_even_iff_odd.mp heven]
    · rw [heq, halfEven_tie hpos]
      simp
    · rw [halfEven_eq (nearest_above hpos near hlt)]
      generalize (((2 * j + 1) * h : ℤ) : K) = τ at hlt
      by_cases heven : Even j
      · simp [heven, hlt, hlt.not_gt]
      · simp [heven, hlt, hlt.not_gt]
  · rw [not_exists] at htie
    refine ⟨fun _ => ?_, fun _ => halfEven_off_tie hpos htie⟩
    rintro ⟨j, near, _⟩
    exact htie j (halfEven_eq near)

end Twice

/-- A multiple of `k` is what both roundings give where the number is half a unit away from it. -/
theorem halfEven_mul_iff {k : ℕ} (hk : k = 1 ∨ Even k) (hpos : 0 < k) (y : K) :
    halfEven (y * k) = halfEven y * k ↔ ∃ n : ℤ, |y - n| * k ≤ 1 / 2 := by
  have hk' : (0 : K) < k := by exact_mod_cast hpos
  have dist : ∀ n : ℤ, |y * k - (n * k : ℤ)| = |y - n| * k := by
    intro n
    push_cast
    rw [← sub_mul, abs_mul, abs_of_pos hk']
  constructor
  · intro heq
    refine ⟨halfEven y, ?_⟩
    rw [← dist, ← heq]
    exact (nearest_halfEven (y * k)).near
  · rintro ⟨n, hn⟩
    rcases hk with rfl | heven
    · simp
    · have htwo : (2 : K) ≤ k := by exact_mod_cast Nat.le_of_dvd hpos heven.two_dvd
      have hnear : |y - n| * 2 ≤ |y - n| * k := mul_le_mul_of_nonneg_left htwo (abs_nonneg _)
      rw [halfEven_eq (Nearest.of_lt (by linarith : |y - n| < 1 / 2))]
      refine halfEven_eq ⟨(dist n).le.trans hn, fun _ => ?_⟩
      exact (Int.even_coe_nat k).mpr heven |>.mul_left n

/-! ## Decimals -/

/-- The number rounded to `s` decimals. -/
def decimals (s : ℕ) (x : K) : K := halfEven (x * 10 ^ s) / 10 ^ s

theorem decimals_error (s : ℕ) (x : K) : |x - decimals s x| ≤ 1 / 2 / 10 ^ s := by
  have hpos : (0 : K) < 10 ^ s := by positivity
  have hdiff : x - decimals s x = (x * 10 ^ s - halfEven (x * 10 ^ s)) / 10 ^ s := by
    rw [decimals]
    field_simp
  rw [hdiff, abs_div, abs_of_pos hpos]
  exact div_le_div_of_nonneg_right (nearest_halfEven _).near hpos.le

/-- The number can be written with `s` decimals. -/
def HasDecimals (s : ℕ) (x : K) : Prop := ∃ n : ℤ, x = n / 10 ^ s

section HasDecimals

variable {s p : ℕ}

omit [LinearOrder K] [IsStrictOrderedRing K] [FloorRing K] in
theorem HasDecimals.add (hx : HasDecimals s x) (hy : HasDecimals s y) : HasDecimals s (x + y) := by
  obtain ⟨m, rfl⟩ := hx
  obtain ⟨n, rfl⟩ := hy
  exact ⟨m + n, by push_cast; rw [add_div]⟩

omit [LinearOrder K] [IsStrictOrderedRing K] [FloorRing K] in
theorem HasDecimals.neg (hx : HasDecimals s x) : HasDecimals s (-x) := by
  obtain ⟨m, rfl⟩ := hx
  exact ⟨-m, by push_cast; rw [neg_div]⟩

omit [LinearOrder K] [IsStrictOrderedRing K] [FloorRing K] in
theorem HasDecimals.sub (hx : HasDecimals s x) (hy : HasDecimals s y) : HasDecimals s (x - y) := by
  rw [sub_eq_add_neg]
  exact hx.add hy.neg

omit [FloorRing K] in
theorem HasDecimals.mono (h : s ≤ p) (hx : HasDecimals s x) : HasDecimals p x := by
  obtain ⟨n, rfl⟩ := hx
  refine ⟨n * 10 ^ (p - s), ?_⟩
  have hpow : (10 : K) ^ p = 10 ^ (p - s) * 10 ^ s := by rw [← pow_add, Nat.sub_add_cancel h]
  rw [hpow]
  push_cast
  field_simp

omit [IsStrictOrderedRing K] in
theorem hasDecimals_decimals (s : ℕ) (x : K) : HasDecimals s (decimals s x) := ⟨_, rfl⟩

/-- **What has `s` decimals stays**, and nothing else does. -/
theorem decimals_eq_iff : decimals s x = x ↔ HasDecimals s x := by
  constructor
  · intro heq
    exact heq ▸ hasDecimals_decimals s x
  · rintro ⟨n, rfl⟩
    have hpos : (10 : K) ^ s ≠ 0 := by positivity
    rw [decimals, div_mul_cancel₀ _ hpos, halfEven_intCast]

end HasDecimals

/-- Rounding to `s` decimals before `p` does no harm: with `s` no more than `p`, a number of `s`
decimals is half a unit of `p` away at most; with more, the first rounding does not mislead. -/
def Clear (p s : ℕ) (x : K) : Prop :=
  if s ≤ p then ∃ n : ℤ, |x * 10 ^ s - n| * 10 ^ (p - s) ≤ 1 / 2
  else ¬ Misled (5 * 10 ^ (s - p - 1)) (x * 10 ^ s)

/-- **Rounding to `s` decimals and then to `p`** is rounding to `p` exactly where that is clear. -/
theorem decimals_twice_iff (p s : ℕ) (x : K) :
    decimals p (decimals s x) = decimals p x ↔ Clear p s x := by
  unfold Clear
  split
  · next hle =>
    have hten : (10 : ℕ) ^ (p - s) = 1 ∨ Even (10 ^ (p - s)) := by
      rcases Nat.eq_zero_or_pos (p - s) with hzero | hpos
      · exact .inl (by rw [hzero, pow_zero])
      · exact .inr ((by decide : Even 10).pow_of_ne_zero hpos.ne')
    have hiff := halfEven_mul_iff hten (by positivity) (x * 10 ^ s)
    push_cast at hiff
    have hfewer : decimals p (decimals s x) = halfEven (x * 10 ^ s) / 10 ^ s :=
      decimals_eq_iff.mpr ((hasDecimals_decimals s x).mono hle)
    rw [← hiff, hfewer, decimals]
    have hpow : (10 : K) ^ p = 10 ^ s * 10 ^ (p - s) := by
      rw [← pow_add, Nat.add_sub_cancel' hle]
    rw [hpow, ← mul_assoc, div_eq_div_iff (by positivity) (by positivity)]
    have hcancel : ((halfEven (x * 10 ^ s) : K) * (10 ^ s * 10 ^ (p - s)) =
        halfEven (x * 10 ^ s * 10 ^ (p - s)) * 10 ^ s) ↔
          ((halfEven (x * 10 ^ s) * 10 ^ (p - s) : ℤ) : K) =
            halfEven (x * 10 ^ s * 10 ^ (p - s)) := by
      rw [← mul_assoc, mul_right_comm, mul_left_inj' (by positivity)]
      push_cast
      rfl
    rw [hcancel, Int.cast_inj]
    exact eq_comm
  · next hlt =>
    have hscale : (10 : K) ^ s = 2 * ((5 * 10 ^ (s - p - 1) : ℕ) : K) * 10 ^ p := by
      have hs : s = (s - p - 1) + 1 + p := by omega
      conv_lhs => rw [hs, pow_add, pow_add]
      push_cast
      ring
    have hiff := halfEven_twice_iff (h := 5 * 10 ^ (s - p - 1)) (by positivity) (x * 10 ^ s)
    have hcoarse : x * 10 ^ s / (2 * ((5 * 10 ^ (s - p - 1) : ℕ) : K)) = x * 10 ^ p := by
      rw [hscale]
      have : ((5 * 10 ^ (s - p - 1) : ℕ) : K) ≠ 0 := by positivity
      field_simp
    have hfine : decimals s x * 10 ^ p =
        halfEven (x * 10 ^ s) / (2 * ((5 * 10 ^ (s - p - 1) : ℕ) : K)) := by
      rw [decimals, hscale]
      have : ((5 * 10 ^ (s - p - 1) : ℕ) : K) ≠ 0 := by positivity
      field_simp
    rw [← hiff, hcoarse, decimals, hfine, decimals, div_left_inj' (by positivity), Int.cast_inj]

end Floor

end Rounding

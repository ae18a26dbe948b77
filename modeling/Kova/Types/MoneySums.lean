import Kova.Types.Money
import Mathlib.Algebra.BigOperators.Group.List.Lemmas

/-!
# Sums of money

Values of four decimals that a DECIMAL(19,4) column holds are summed exactly, in any order: a
partial sum of `n` of them stays within `n * 10 ^ 15` and keeps four decimals (`Partial`), which
fits the mantissa for a milliard values and more, so that no addition fails and no rounding has
anything to round (`partial_step`, `summed_exactly`).
-/

set_option autoImplicit false

namespace Kova

open Rounding

namespace Money

variable {R : RustDecimal} {C : Currency}

/-! ## One operation -/

/-- The decimal has four decimals by its scale, and stays below a bound. -/
structure Small (bound : ℚ) (d : Decimal) : Prop where
  scale : d.scale ≤ 4
  bound : |d.toRat| ≤ bound

/-- A number of four decimals up to this fits a mantissa. -/
def room : ℚ := 79 * 10 ^ 23

theorem fits_of_room {n : Int} {x : ℚ} {s : Nat} (hs : s ≤ 4) (hn : (n : ℚ) = x * 10 ^ s)
    (hx : |x| ≤ room) : n.natAbs < 2 ^ 96 := by
  have hpow : (10 : ℚ) ^ s ≤ 10 ^ 4 := pow_le_pow_right₀ (by norm_num) hs
  have hle : |(n : ℚ)| ≤ room * 10 ^ 4 := by
    rw [hn, abs_mul, abs_of_pos (by positivity : (0 : ℚ) < 10 ^ s)]
    exact mul_le_mul hx hpow (by positivity) (by norm_num [room])
  have hlt : |(n : ℚ)| < ((2 ^ 96 : Int) : ℚ) := hle.trans_lt (by norm_num [room])
  have hlt' : |n| < 2 ^ 96 := by exact_mod_cast hlt
  rw [Int.abs_eq_natAbs] at hlt'
  omega

theorem Small.hasDecimals {bound : ℚ} {d : Decimal} (h : Small bound d) :
    HasDecimals 4 d.toRat := d.hasDecimals.mono h.scale

/-- Small operands with a small result are aligned. -/
theorem Small.aligns {a b : Decimal} {n : Int} {x : ℚ} (ha : Small room a) (hb : Small room b)
    (hn : (n : ℚ) = x * 10 ^ max a.scale b.scale) (hx : |x| ≤ room) : Aligns a b n where
  left := fits_of_room (max_le ha.scale hb.scale) (Decimal.aligned_eq (le_max_left _ _)) ha.bound
  right := fits_of_room (max_le ha.scale hb.scale) (Decimal.aligned_eq (le_max_right _ _)) hb.bound
  result := fits_of_room (max_le ha.scale hb.scale) hn hx

/-- **An addition of small values is exact**. -/
theorem checked_add_exact {a b : Money C} (ha : Small room a.amount) (hb : Small room b.amount)
    (h : |a.amount.toRat + b.amount.toRat| ≤ room) :
    ∃ c, a.checked_add R b = some c ∧ c.amount.scale ≤ 4 ∧
      c.amount.toRat = a.amount.toRat + b.amount.toRat := by
  obtain ⟨c, hc, hvalue⟩ := R.add_value a.amount b.amount (ha.aligns hb (by
    push_cast
    rw [Decimal.aligned_eq (le_max_left _ _), Decimal.aligned_eq (le_max_right _ _), add_mul]) h)
  refine ⟨new R c, ?_, new_scale c, ?_⟩
  · rw [checked_add, hc, Option.map_some]
  · rw [new_exact (hvalue ▸ ha.hasDecimals.add hb.hasDecimals), hvalue]

/-- So is a subtraction. -/
theorem checked_sub_exact {a b : Money C} (ha : Small room a.amount) (hb : Small room b.amount)
    (h : |a.amount.toRat - b.amount.toRat| ≤ room) :
    ∃ c, a.checked_sub R b = some c ∧ c.amount.scale ≤ 4 ∧
      c.amount.toRat = a.amount.toRat - b.amount.toRat := by
  obtain ⟨c, hc, hvalue⟩ := R.sub_value a.amount b.amount (ha.aligns hb (by
    push_cast
    rw [Decimal.aligned_eq (le_max_left _ _), Decimal.aligned_eq (le_max_right _ _), sub_mul]) h)
  refine ⟨new R c, ?_, new_scale c, ?_⟩
  · rw [checked_sub, hc, Option.map_some]
  · rw [new_exact (hvalue ▸ ha.hasDecimals.sub hb.hasDecimals), hvalue]

/-- A value and its negation. -/
theorem negate_exact {a : Money C} (h : a.amount.scale ≤ 4) :
    (a.negate R).amount.scale ≤ 4 ∧ (a.negate R).amount.toRat = -a.amount.toRat := by
  have decimals_neg : HasDecimals 4 (R.neg a.amount).toRat := by
    rw [R.neg_value]
    exact (a.amount.hasDecimals.mono h).neg
  exact ⟨new_scale _, by rw [negate, new_exact decimals_neg, R.neg_value]⟩

/-! ## A list -/

/-- What a DECIMAL(19,4) column holds, at a scale that `new` leaves. -/
structure Stored (m : Money C) : Prop where
  scale : m.amount.scale ≤ 4
  bound : |m.amount.toRat| < 10 ^ 15

/-- The amounts of a list, added up. -/
def total (l : List (Money C)) : ℚ := (l.map fun m => m.amount.toRat).sum

/-- `checked_add`, folded over a list from zero. -/
def folded (R : RustDecimal) (l : List (Money C)) : Option (Money C) :=
  l.foldlM (fun sum m => sum.checked_add R m) (zero R)

/-- A sum of `n` stored values. -/
structure Partial (n : Nat) (m : Money C) : Prop where
  scale : m.amount.scale ≤ 4
  bound : |m.amount.toRat| ≤ n * 10 ^ 15

theorem partial_zero : Partial 0 (zero R : Money C) ∧ (zero R : Money C).amount.toRat = 0 := by
  have value : (zero R : Money C).amount.toRat = 0 := by
    have nought : (whole 0).toRat = 0 := by simp
    have fits : HasDecimals 4 (whole 0).toRat := ⟨0, by rw [nought]; norm_num⟩
    rw [zero, new_exact fits, nought]
  exact ⟨⟨new_scale _, by rw [value]; norm_num⟩, value⟩

theorem Partial.small {n : Nat} {m : Money C} (h : Partial n m) (hn : n ≤ 10 ^ 9) :
    Small room m.amount := by
  have hn' : (n : ℚ) ≤ 10 ^ 9 := by exact_mod_cast hn
  exact ⟨h.scale, h.bound.trans (by rw [room]; linarith)⟩

theorem Stored.small {m : Money C} (h : Stored m) : Small room m.amount :=
  ⟨h.scale, h.bound.le.trans (by norm_num [room])⟩

/-- One value more. -/
theorem partial_step {n : Nat} {sum m : Money C} (hsum : Partial n sum) (hm : Stored m)
    (hn : n < 10 ^ 9) :
    ∃ sum', sum.checked_add R m = some sum' ∧ Partial (n + 1) sum' ∧
      sum'.amount.toRat = sum.amount.toRat + m.amount.toRat := by
  have bound : |sum.amount.toRat + m.amount.toRat| ≤ (n + 1 : Nat) * 10 ^ 15 := by
    have hadd := abs_add_le sum.amount.toRat m.amount.toRat
    have hsum' := hsum.bound
    have hm' := hm.bound
    push_cast
    linarith
  have hn' : ((n + 1 : Nat) : ℚ) ≤ 10 ^ 9 := by exact_mod_cast hn
  obtain ⟨sum', hsum', scale, value⟩ := checked_add_exact (R := R) (hsum.small hn.le) hm.small
    (bound.trans (by rw [room]; linarith))
  exact ⟨sum', hsum', ⟨scale, value ▸ bound⟩, value⟩

/-- The fold from a partial sum on. -/
theorem folded_from {l : List (Money C)} :
    ∀ {n : Nat} {sum : Money C}, Partial n sum → (∀ m ∈ l, Stored m) → n + l.length ≤ 10 ^ 9 →
      ∃ sum', l.foldlM (fun sum m => sum.checked_add R m) sum = some sum' ∧
        Partial (n + l.length) sum' ∧ sum'.amount.toRat = sum.amount.toRat + total l := by
  induction l with
  | nil =>
    intro n sum hsum _ _
    exact ⟨sum, rfl, hsum, by simp [total]⟩
  | cons m l ih =>
    intro n sum hsum hl hlength
    rw [List.length_cons] at hlength
    obtain ⟨next, hnext, hpartial, hvalue⟩ :=
      partial_step (R := R) hsum (hl m List.mem_cons_self) (by omega)
    obtain ⟨sum', hfold, hpartial', hvalue'⟩ :=
      ih hpartial (fun m' hm' => hl m' (List.mem_cons_of_mem m hm')) (by omega)
    refine ⟨sum', ?_, ?_, ?_⟩
    · rw [List.foldlM_cons, hnext]
      exact hfold
    · rw [List.length_cons, Nat.add_comm l.length 1, ← Nat.add_assoc]
      exact hpartial'
    · rw [hvalue', hvalue]
      simp only [total, List.map_cons, List.sum_cons]
      ring

theorem total_perm {l l' : List (Money C)} (h : l.Perm l') : total l = total l' :=
  (h.map _).sum_eq

/-- **Sums are exact and free of order**: a list folded in any order gives the sum of its amounts,
an element taken off it the sum of the others, and its negation added nothing. -/
theorem summed_exactly (R : RustDecimal) {l l' : List (Money C)} (hl : ∀ m ∈ l, Stored m)
    (hlength : l.length ≤ 10 ^ 9) (order : l'.Perm l) :
    ∃ sum, folded R l' = some sum ∧ sum.amount.toRat = total l ∧
      (∀ m rest, l.Perm (m :: rest) →
        ∃ others, sum.checked_sub R m = some others ∧ others.amount.toRat = total rest) ∧
      ∃ nothing, sum.checked_add R (sum.negate R) = some nothing ∧ nothing.amount.toRat = 0 := by
  have hl' : ∀ m ∈ l', Stored m := fun m hm => hl m (order.mem_iff.mp hm)
  have hlength' : l'.length ≤ 10 ^ 9 := order.length_eq ▸ hlength
  obtain ⟨hzero, hvalue⟩ := partial_zero (R := R) (C := C)
  obtain ⟨sum, hsum, hpartial, htotal⟩ := folded_from (R := R) hzero hl' (by omega)
  rw [hvalue, zero_add, total_perm order] at htotal
  rw [Nat.zero_add] at hpartial
  have small := hpartial.small hlength'
  refine ⟨sum, hsum, htotal, ?_, ?_⟩
  · intro m rest hrest
    have stored := hl m (hrest.mem_iff.mpr List.mem_cons_self)
    have split : total l = m.amount.toRat + total rest := by
      rw [total_perm hrest]
      simp only [total, List.map_cons, List.sum_cons]
    have bound : |sum.amount.toRat - m.amount.toRat| ≤ room := by
      have hsub := abs_sub sum.amount.toRat m.amount.toRat
      have hm := stored.bound
      have hn : (l'.length : ℚ) ≤ 10 ^ 9 := by exact_mod_cast hlength'
      have hs := hpartial.bound
      rw [room]
      linarith
    obtain ⟨others, hothers, _, hrestvalue⟩ := checked_sub_exact (R := R) small stored.small bound
    refine ⟨others, hothers, ?_⟩
    rw [hrestvalue, htotal, split, add_sub_cancel_left]
  · obtain ⟨scale, value⟩ := negate_exact (R := R) hpartial.scale
    have small' : Small room (sum.negate R).amount :=
      ⟨scale, by rw [value, abs_neg]; exact small.bound⟩
    obtain ⟨nothing, hnothing, _, hvalue'⟩ := checked_add_exact (R := R) small small' (by
      rw [value, add_neg_cancel, abs_zero]
      norm_num [room])
    refine ⟨nothing, hnothing, ?_⟩
    rw [hvalue', value, add_neg_cancel]

/-- A thousand and a half less a ten-thousandth, folded in the other order. -/
theorem summed_exactly_two :
    ∃ sum : Money .NGN,
      folded RustDecimal.written_out
        [⟨⟨-1, 4, by decide, by decide⟩⟩, ⟨⟨10005, 1, by decide, by decide⟩⟩] = some sum ∧
      sum.amount.toRat = 1000.4999 := by
  have stored : ∀ m ∈ ([⟨⟨10005, 1, by decide, by decide⟩⟩, ⟨⟨-1, 4, by decide, by decide⟩⟩] :
      List (Money .NGN)), Stored m := by
    intro m hm
    rcases List.mem_cons.mp hm with rfl | hm
    · exact ⟨by decide, by norm_num [Decimal.toRat, abs_of_pos]⟩
    · obtain rfl := List.mem_singleton.mp hm
      exact ⟨by decide, by norm_num [Decimal.toRat, abs_of_neg]⟩
  obtain ⟨sum, hsum, htotal, _⟩ :=
    summed_exactly RustDecimal.written_out stored (by decide) (List.Perm.swap _ _ _)
  refine ⟨sum, hsum, ?_⟩
  rw [htotal]
  norm_num [total, Decimal.toRat]

end Money

end Kova

import Mathlib.Data.List.Induction
import Kova.Codec.Text

/-!
# Numbers in fixed-width text

`padded width n` prints a number in decimal with zeros in front, as `{:0width}` does. A number that
has more digits than the width is printed whole, so that the text always tells the number
(`ofDigitChars_padded`), and has the width exactly for the numbers below `10 ^ width`
(`length_padded_iff`). On the texts of that width printing and reading are inverse to each other
(`padded_iff`).
-/

set_option autoImplicit false

namespace Text

variable {width n m : Nat} {cs cs' : List Char}

/-- The decimal digits, behind zeros up to the width. -/
def padded (width n : Nat) : List Char :=
  List.replicate (width - n.repr.toList.length) '0' ++ n.repr.toList

theorem digits_padded (width n : Nat) : Digits (padded width n) := by
  refine Digits.append ?_ ?_
  · intro c hc
    rw [List.eq_of_mem_replicate hc]
    decide
  · intro c hc
    rw [Nat.toList_repr] at hc
    exact Nat.isDigit_of_mem_toDigits (by decide) (by decide) hc

/-- The text tells the number, whatever the width. -/
theorem ofDigitChars_padded (width n : Nat) : Nat.ofDigitChars 10 (padded width n) 0 = n := by
  rw [padded, Nat.ofDigitChars_append, Nat.ofDigitChars_replicate_zero, Nat.mul_zero,
    Nat.toList_repr, Nat.ofDigitChars_ten_toDigits]

theorem padded_injective (width : Nat) : Function.Injective (padded width) := by
  intro n m h
  rw [← ofDigitChars_padded width n, h, ofDigitChars_padded]

theorem length_padded (width n : Nat) :
    (padded width n).length = max width n.repr.toList.length := by
  rw [padded, List.length_append, List.length_replicate]
  omega

/-- **Which numbers fit the width.** -/
theorem length_padded_iff (h : 0 < width) : (padded width n).length = width ↔ n < 10 ^ width := by
  rw [length_padded, Nat.toList_repr, ← Nat.length_toDigits_le_iff (by decide) h]
  omega

/-! ## Reading -/

/-- A digit is its value. -/
theorem digit_range {c : Char} (h : c.isDigit = true) : 48 ≤ c.toNat ∧ c.toNat ≤ 57 := by
  have hdigit : 48 ≤ c.val ∧ c.val ≤ 57 := by simpa [Char.isDigit] using h
  exact ⟨UInt32.le_iff_toNat_le.mp hdigit.1, UInt32.le_iff_toNat_le.mp hdigit.2⟩

theorem ofDigitChars_snoc (cs : List Char) (c : Char) :
    Nat.ofDigitChars 10 (cs ++ [c]) 0 = 10 * Nat.ofDigitChars 10 cs 0 + (c.toNat - 48) := by
  rw [Nat.ofDigitChars_append, Nat.ofDigitChars_cons, Nat.ofDigitChars_nil]
  rfl

theorem ofDigitChars_lt (h : Digits cs) : Nat.ofDigitChars 10 cs 0 < 10 ^ cs.length := by
  induction cs using List.reverseRecOn with
  | nil => exact Nat.one_pos
  | append_singleton cs c ih =>
    have hvalue := ih h.left
    have hdigit := digit_range (h c (by simp))
    rw [ofDigitChars_snoc, List.length_append, List.length_singleton, Nat.pow_succ]
    omega

/-- Digits of one length that spell one number are the same. -/
theorem ofDigitChars_injective (h : Digits cs) (h' : Digits cs') (hlength : cs.length = cs'.length)
    (hvalue : Nat.ofDigitChars 10 cs 0 = Nat.ofDigitChars 10 cs' 0) : cs = cs' := by
  induction cs using List.reverseRecOn generalizing cs' with
  | nil => exact (List.eq_nil_of_length_eq_zero hlength.symm).symm
  | append_singleton cs c ih =>
    rcases List.eq_nil_or_concat cs' with rfl | ⟨cs', c', rfl⟩
    · simp at hlength
    · rw [List.concat_eq_append] at h' hlength hvalue ⊢
      have hc := digit_range (h c (by simp))
      have hc' := digit_range (h' c' (by simp))
      rw [ofDigitChars_snoc, ofDigitChars_snoc] at hvalue
      have hlast : c = c' := Char.toNat_inj.mp (by omega)
      have hfront := ih h.left h'.left (by simpa using hlength) (by omega)
      rw [hfront, hlast]

/-- **Printing and reading** on the digits of the width. -/
theorem padded_iff (h : Digits cs) (hlength : cs.length = width) (hn : n < 10 ^ width)
    (hwidth : 0 < width) : padded width n = cs ↔ n = Nat.ofDigitChars 10 cs 0 := by
  constructor
  · intro heq
    rw [← heq, ofDigitChars_padded]
  · intro heq
    have hprinted := (length_padded_iff hwidth).mpr hn
    refine ofDigitChars_injective (digits_padded width n) h (hprinted.trans hlength.symm) ?_
    rw [ofDigitChars_padded, heq]

end Text

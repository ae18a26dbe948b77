import Mathlib.SetTheory.Cardinal.Finite
import Kova.Auth.Handlers
import Kova.Codec.Padded
import Kova.Sampling.Rejection

/-!
# One-time codes are unbiased

`generate_otp` draws 32 bits until they are below a multiple of a million, and prints the remainder
in six digits. So it is a rejection loop (`generate_otp_loop`) that returns the code of the first
draw below the threshold, and each text of six digits is the code of 4294 of those draws
(`card_draws`).
-/

set_option autoImplicit false

namespace Kova.Auth

open Conc

/-- A text of six ASCII digits. -/
structure SixDigits (c : String) : Prop where
  length : c.toList.length = 6
  digits : Text.Digits c.toList

/-- The draw is used. -/
def Passes (n : UInt32) : Prop := n < OTP_REJECT_THRESHOLD

instance (n : UInt32) : Decidable (Passes n) :=
  inferInstanceAs (Decidable (n < OTP_REJECT_THRESHOLD))

/-- The code that a draw is printed as. -/
def otp_code (n : UInt32) : String := six_digits (n.toNat % 1000000)

/-! ## The codes -/

theorem six_digits_eq (n : Nat) : six_digits n = String.ofList (Text.padded 6 n) := by
  rw [six_digits, Text.padded, String.length_toList]

/-- **Every code has six digits.** -/
theorem otp_code_digits (n : UInt32) : SixDigits (otp_code n) := by
  have hlt : n.toNat % 1000000 < 10 ^ 6 := Nat.mod_lt _ (by decide)
  refine ⟨?_, ?_⟩
  · rw [otp_code, six_digits_eq, String.toList_ofList]
    exact (Text.length_padded_iff (by decide)).mpr hlt
  · rw [otp_code, six_digits_eq, String.toList_ofList]
    exact Text.digits_padded 6 _

/-- A code is printed from one remainder. -/
theorem otp_code_eq_iff {c : String} (hc : SixDigits c) (n : UInt32) :
    otp_code n = c ↔ n.toNat % 1000000 = Nat.ofDigitChars 10 c.toList 0 := by
  have hlt : n.toNat % 1000000 < 10 ^ 6 := Nat.mod_lt _ (by decide)
  rw [otp_code, six_digits_eq, ← Text.padded_iff hc.digits hc.length hlt (by decide)]
  constructor
  · intro heq
    rw [← heq, String.toList_ofList]
  · intro heq
    rw [heq, String.ofList_toList]

theorem passes_iff (n : UInt32) : Passes n ↔ n.toNat < 1000000 * 4294 := UInt32.lt_iff_toNat_lt

theorem toNat_draw {n : Nat} (h : n < 1000000 * 4294) : (UInt32.ofNat n).toNat = n :=
  UInt32.toNat_ofNat_of_lt' (h.trans (by decide))

theorem passes_draw {c : String} (hc : SixDigits c) {n : Nat} (hlt : n < 1000000 * 4294)
    (hcode : n % 1000000 = Nat.ofDigitChars 10 c.toList 0) :
    Passes (UInt32.ofNat n) ∧ otp_code (UInt32.ofNat n) = c := by
  rw [passes_iff, otp_code_eq_iff hc, toNat_draw hlt]
  exact ⟨hlt, hcode⟩

/-- The draws that pass and are printed as a code, as numbers. -/
def draws_of {c : String} (hc : SixDigits c) :
    { n : UInt32 // Passes n ∧ otp_code n = c } ≃
      { n : Nat // n < 1000000 * 4294 ∧ n % 1000000 = Nat.ofDigitChars 10 c.toList 0 } where
  toFun n := ⟨n.val.toNat, (passes_iff _).mp n.property.1, (otp_code_eq_iff hc _).mp n.property.2⟩
  invFun n := ⟨UInt32.ofNat n.val, passes_draw hc n.property.1 n.property.2⟩
  left_inv _ := Subtype.ext UInt32.ofNat_toNat
  right_inv n := Subtype.ext (toNat_draw n.property.1)

/-- **Each code comes from equally many draws.** -/
theorem card_draws {c : String} (hc : SixDigits c) :
    Nat.card { n : UInt32 // Passes n ∧ otp_code n = c } = 4294 := by
  have hvalue : Nat.ofDigitChars 10 c.toList 0 < 1000000 := by
    have hlt := Text.ofDigitChars_lt hc.digits
    rwa [hc.length] at hlt
  have hcard := Rejection.card_residue (by decide) 4294 hvalue
  rw [Nat.card_congr (draws_of hc)]
  generalize Nat.ofDigitChars 10 c.toList 0 = v at hcard ⊢
  refine (Nat.subtype_card _ ?_).trans hcard
  intro n
  rw [Finset.mem_filter, Finset.mem_range]

/-! ## The loop -/

/-- The loop of `generate_otp`, on the draws that come one after another; `none` among them is a
draw that fails. -/
def otp_loop : List (Option UInt32) → Option (Option String) :=
  Rejection.loop (fun n => decide (Passes n)) otp_code

/-- What the loop is where the draws end with a failure. -/
theorem generate_otp_eq (draws : List UInt32) :
    otp_loop (draws.map some ++ [none]) =
      some ((draws.find? fun n => n < OTP_REJECT_THRESHOLD).map otp_code) :=
  Rejection.loop_find draws

/-- What the function returns of a loop that ended. -/
def otp_result : Option String → Except Failure String
  | some code => .ok code
  | none => .error (.error (.Crypto "rng fill failed"))

/-- **`generate_otp` is the loop**: it returns what the loop returns on the draws, the generator
failing after them. -/
theorem generate_otp_loop (env : Env) (t : Nat) (ch : Choice) (s : Store) {code : Option String}
    (h : otp_loop (ch.draws.map some ++ [none]) = some code) :
    (machine env).alone t ch generate_otp s = some (otp_result code, s) := by
  rw [generate_otp_eq, Option.some.injEq] at h
  have hdraws : (machine env).exec t ch s .random_draws = some (ch.draws, s) := rfl
  rw [generate_otp, Machine.alone_exec hdraws]
  cases hfind : ch.draws.find? fun n => n < OTP_REJECT_THRESHOLD with
  | none =>
    rw [hfind] at h
    cases h
    rfl
  | some n =>
    rw [hfind] at h
    cases h
    rfl

/-- **One-time codes are unbiased.** Each text of six digits is the code of 4294 of the draws that
pass, they have no other codes, and the loop goes on until a draw passes and returns the code of
that one. -/
theorem otp_unbiased :
    (∀ c, SixDigits c → Nat.card { n : UInt32 // Passes n ∧ otp_code n = c } = 4294) ∧
    (∀ n, Passes n → SixDigits (otp_code n)) ∧
    (∀ draws : List UInt32, (∀ m ∈ draws, ¬ Passes m) → otp_loop (draws.map some) = none) ∧
    ∀ (before : List UInt32) (n : UInt32), (∀ m ∈ before, ¬ Passes m) → Passes n →
      (∀ after, otp_loop (before.map some ++ some n :: after) = some (some (otp_code n))) ∧
      ∀ (env : Env) (t : Nat) (ch : Choice) (s : Store) (after : List UInt32),
        ch.draws = before ++ n :: after →
          (machine env).alone t ch generate_otp s = some (.ok (otp_code n), s) := by
  refine ⟨fun c => card_draws, fun n _ => otp_code_digits n, ?_, ?_⟩
  · intro draws hdraws
    exact Rejection.loop_rejected fun m hm => decide_eq_false (hdraws m hm)
  · intro before n hbefore hn
    have hloop : ∀ after,
        otp_loop (before.map some ++ some n :: after) = some (some (otp_code n)) :=
      Rejection.loop_accepted (fun m hm => decide_eq_false (hbefore m hm)) (decide_eq_true hn)
    refine ⟨hloop, ?_⟩
    intro env t ch s after hdraws
    refine @generate_otp_loop env t ch s (some (otp_code n)) ?_
    rw [hdraws, List.map_append, List.map_cons, List.append_assoc, List.cons_append]
    exact hloop _

/-- The largest draw is rejected, and the next one printed with its zeros. -/
theorem otp_unbiased_sample :
    Nat.card { n : UInt32 // Passes n ∧ otp_code n = "000042" } = 4294 ∧
      (machine sample).alone 0 { draws := 4294967295 :: [42] } generate_otp
        sample_start.world.store = some (.ok (otp_code 42), sample_start.world.store) := by
  have hcode : otp_code 42 = "000042" := by decide +kernel
  have hrejected : ∀ m ∈ [(4294967295 : UInt32)], ¬ Passes m := by
    intro m hm
    rw [List.mem_singleton.mp hm, passes_iff]
    exact Nat.not_lt.mpr (by decide +kernel)
  have hpasses : Passes 42 := (passes_iff 42).mpr (by decide +kernel)
  exact ⟨otp_unbiased.1 "000042" (hcode ▸ otp_code_digits 42),
    (otp_unbiased.2.2.2 [4294967295] 42 hrejected hpasses).2 sample 0 _ _ [] rfl⟩

end Kova.Auth

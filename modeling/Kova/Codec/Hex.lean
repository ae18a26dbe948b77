import Mathlib.Data.List.Basic

/-!
# Hexadecimal text

Two lower-case digits a byte, as `hex::encode` and the text of a UUID write them. Reading
accepts either case; `decode_encode` says that it reads what was written.
-/

namespace Hex

/-- The lower-case digit of a 4-bit value. -/
def digit (n : Nat) : Char := if n < 10 then Char.ofNat (48 + n) else Char.ofNat (87 + n)

/-- The 4-bit value of a digit of either case. -/
def value (c : Char) : Option Nat :=
  let k := c.toNat
  if 48 ≤ k ∧ k ≤ 57 then some (k - 48)
  else if 97 ≤ k ∧ k ≤ 102 then some (k - 87)
  else if 65 ≤ k ∧ k ≤ 70 then some (k - 55)
  else none

theorem value_digit {n : Nat} (h : n < 16) : value (digit n) = some n := by
  have all : ∀ m : Fin 16, value (digit m) = some m.val := by decide
  exact all ⟨n, h⟩

/-- Write bytes as text. -/
def encode : List UInt8 → List Char
  | [] => []
  | b :: bs => digit (b.toNat / 16) :: digit (b.toNat % 16) :: encode bs

/-- Read text back. -/
def decode : List Char → Option (List UInt8)
  | [] => some []
  | hi :: lo :: rest =>
    (value hi).bind fun hi => (value lo).bind fun lo =>
      (decode rest).map (UInt8.ofNat (hi * 16 + lo) :: ·)
  | _ => none

@[simp] theorem encode_length (bs : List UInt8) : (encode bs).length = 2 * bs.length := by
  induction bs with
  | nil => rfl
  | cons b bs ih => simp only [encode, List.length_cons, ih]; omega

/-- **Reading what was written gives it back.** -/
theorem decode_encode (bs : List UInt8) : decode (encode bs) = some bs := by
  induction bs with
  | nil => rfl
  | cons b bs ih =>
    have hb := b.toNat_lt
    have byte : UInt8.ofNat (b.toNat / 16 * 16 + b.toNat % 16) = b := by
      apply UInt8.toNat_inj.mp
      rw [UInt8.toNat_ofNat']
      omega
    simp only [encode, decode, value_digit (show b.toNat / 16 < 16 by omega),
      value_digit (show b.toNat % 16 < 16 by omega), Option.bind_some, ih, Option.map_some, byte]

end Hex

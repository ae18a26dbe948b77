import Mathlib.Data.List.Basic

/-!
# Base64 with canonical padding

The standard alphabet, three bytes to four characters, `=` padding to a multiple of four.
`decode` is strict: padding must be there, must be at the end, and the bits it leaves over must
be zero. `decode_encode` reads back what was written, and `encode_decode` says that nothing else is
read: a text that `decode` takes is the text of its bytes.
-/

namespace Base64

/-- The character of a 6-bit value. -/
def digit (n : Nat) : Char :=
  if n < 26 then Char.ofNat (65 + n)
  else if n < 52 then Char.ofNat (71 + n)
  else if n < 62 then Char.ofNat (n - 4)
  else if n = 62 then '+' else '/'

/-- The 6-bit value of a character of the alphabet. -/
def value (c : Char) : Option Nat :=
  let k := c.toNat
  if 65 ≤ k ∧ k ≤ 90 then some (k - 65)
  else if 97 ≤ k ∧ k ≤ 122 then some (k - 71)
  else if 48 ≤ k ∧ k ≤ 57 then some (k + 4)
  else if k = 43 then some 62
  else if k = 47 then some 63
  else none

theorem value_digit {n : Nat} (h : n < 64) : value (digit n) = some n := by
  have all : ∀ m : Fin 64, value (digit m) = some m.val := by decide
  exact all ⟨n, h⟩

theorem digit_ne_pad {n : Nat} (h : n < 64) : digit n ≠ '=' := by
  have all : ∀ m : Fin 64, digit m ≠ '=' := by decide
  exact all ⟨n, h⟩

/-- Nothing but the digits has a value. -/
theorem digit_value {c : Char} {n : Nat} (h : value c = some n) : digit n = c ∧ n < 64 := by
  suffices digit n = Char.ofNat c.toNat ∧ n < 64 by rwa [Char.ofNat_toNat] at this
  simp only [value] at h
  generalize c.toNat = k at h
  split at h
  next upper =>
    cases h
    rw [digit, if_pos (by omega), show 65 + (k - 65) = k by omega]
    exact ⟨rfl, by omega⟩
  next =>
    split at h
    next lower =>
      cases h
      rw [digit, if_neg (by omega), if_pos (by omega), show 71 + (k - 71) = k by omega]
      exact ⟨rfl, by omega⟩
    next =>
      split at h
      next figure =>
        cases h
        rw [digit, if_neg (by omega), if_neg (by omega), if_pos (by omega),
          show k + 4 - 4 = k by omega]
        exact ⟨rfl, by omega⟩
      next =>
        split at h
        next plus =>
          cases h
          cases plus
          exact ⟨rfl, by decide⟩
        next =>
          split at h
          next slash =>
            cases h
            cases slash
            exact ⟨rfl, by decide⟩
          next => cases h

/-- Write bytes as text. -/
def encode : List UInt8 → List Char
  | a :: b :: c :: rest =>
    digit (a.toNat / 4) :: digit (a.toNat % 4 * 16 + b.toNat / 16) ::
      digit (b.toNat % 16 * 4 + c.toNat / 64) :: digit (c.toNat % 64) :: encode rest
  | [a, b] =>
    [digit (a.toNat / 4), digit (a.toNat % 4 * 16 + b.toNat / 16), digit (b.toNat % 16 * 4), '=']
  | [a] => [digit (a.toNat / 4), digit (a.toNat % 4 * 16), '=', '=']
  | [] => []

/-- Four characters for every three bytes. -/
theorem length_encode (bs : List UInt8) : (encode bs).length = (bs.length + 2) / 3 * 4 := by
  induction bs using encode.induct with
  | case1 a b c rest ih =>
    simp only [encode, List.length_cons, ih]
    omega
  | case2 a b => simp only [encode, List.length_cons, List.length_nil]
  | case3 a => simp only [encode, List.length_cons, List.length_nil]
  | case4 => rfl

/-- One full group of four values. -/
def join3 (w x y z : Nat) : List UInt8 :=
  [UInt8.ofNat (w * 4 + x / 16), UInt8.ofNat (x % 16 * 16 + y / 4), UInt8.ofNat (y % 4 * 64 + z)]

/-- The last group, one byte: the four bits left over must be zero. -/
def join1 (w x : Nat) : Option (List UInt8) :=
  if x % 16 = 0 then some [UInt8.ofNat (w * 4 + x / 16)] else none

/-- The last group, two bytes: the two bits left over must be zero. -/
def join2 (w x y : Nat) : Option (List UInt8) :=
  if y % 4 = 0 then some [UInt8.ofNat (w * 4 + x / 16), UInt8.ofNat (x % 16 * 16 + y / 4)]
  else none

/-- Read text back, strictly. -/
def decode : List Char → Option (List UInt8)
  | [] => some []
  | [w, x, '=', '='] => (value w).bind fun w => (value x).bind fun x => join1 w x
  | [w, x, y, '='] =>
    (value w).bind fun w => (value x).bind fun x => (value y).bind fun y => join2 w x y
  | w :: x :: y :: z :: rest =>
    (value w).bind fun w => (value x).bind fun x => (value y).bind fun y =>
      (value z).bind fun z => (decode rest).map (join3 w x y z ++ ·)
  | _ => none

theorem join3_split (a b c : UInt8) :
    join3 (a.toNat / 4) (a.toNat % 4 * 16 + b.toNat / 16) (b.toNat % 16 * 4 + c.toNat / 64)
      (c.toNat % 64) = [a, b, c] := by
  have ha := a.toNat_lt
  have hb := b.toNat_lt
  have hc := c.toNat_lt
  simp only [join3, List.cons.injEq, and_true]
  refine ⟨?_, ?_, ?_⟩ <;> apply UInt8.toNat_inj.mp <;> rw [UInt8.toNat_ofNat'] <;> omega

/-- **Reading what was written gives it back.** -/
theorem decode_encode : ∀ bs : List UInt8, decode (encode bs) = some bs
  | [] => rfl
  | [a] => by
    have ha := a.toNat_lt
    simp only [encode, decode, value_digit (show a.toNat / 4 < 64 by omega),
      value_digit (show a.toNat % 4 * 16 < 64 by omega), Option.bind_some, join1]
    rw [if_pos (by omega)]
    congr 2
    apply UInt8.toNat_inj.mp
    rw [UInt8.toNat_ofNat']
    omega
  | [a, b] => by
    have ha := a.toNat_lt
    have hb := b.toNat_lt
    have hpad := digit_ne_pad (show b.toNat % 16 * 4 < 64 by omega)
    rw [encode, decode]
    · simp only [value_digit (show a.toNat / 4 < 64 by omega),
        value_digit (show a.toNat % 4 * 16 + b.toNat / 16 < 64 by omega),
        value_digit (show b.toNat % 16 * 4 < 64 by omega), Option.bind_some, join2]
      rw [if_pos (by omega)]
      simp only [Option.some.injEq, List.cons.injEq, and_true]
      refine ⟨?_, ?_⟩ <;> apply UInt8.toNat_inj.mp <;> rw [UInt8.toNat_ofNat'] <;> omega
    · exact fun h => hpad h
  | a :: b :: c :: rest => by
    have ha := a.toNat_lt
    have hb := b.toNat_lt
    have hc := c.toNat_lt
    have hpad := digit_ne_pad (show c.toNat % 64 < 64 by omega)
    rw [encode, decode]
    · simp only [value_digit (show a.toNat / 4 < 64 by omega),
        value_digit (show a.toNat % 4 * 16 + b.toNat / 16 < 64 by omega),
        value_digit (show b.toNat % 16 * 4 + c.toNat / 64 < 64 by omega),
        value_digit (show c.toNat % 64 < 64 by omega), Option.bind_some, decode_encode rest,
        Option.map_some, join3_split]
      rfl
    · exact fun _ h _ => hpad h
    · exact fun h _ => hpad h

/-! ## Nothing else is read -/

theorem encode_join3 {w x y z : Nat} (hw : w < 64) (hx : x < 64) (hy : y < 64) (hz : z < 64)
    (rest : List UInt8) :
    encode (join3 w x y z ++ rest) = digit w :: digit x :: digit y :: digit z :: encode rest := by
  simp only [join3, List.cons_append, List.nil_append, encode, UInt8.toNat_ofNat']
  rw [show (w * 4 + x / 16) % 2 ^ 8 / 4 = w by omega,
    show (w * 4 + x / 16) % 2 ^ 8 % 4 * 16 + (x % 16 * 16 + y / 4) % 2 ^ 8 / 16 = x by omega,
    show (x % 16 * 16 + y / 4) % 2 ^ 8 % 16 * 4 + (y % 4 * 64 + z) % 2 ^ 8 / 64 = y by omega,
    show (y % 4 * 64 + z) % 2 ^ 8 % 64 = z by omega]

theorem encode_join1 {w x : Nat} {bs : List UInt8} (hw : w < 64) (hx : x < 64)
    (h : join1 w x = some bs) : encode bs = [digit w, digit x, '=', '='] := by
  simp only [join1] at h
  split at h
  next hzero =>
    cases h
    simp only [encode, UInt8.toNat_ofNat']
    rw [show (w * 4 + x / 16) % 2 ^ 8 / 4 = w by omega,
      show (w * 4 + x / 16) % 2 ^ 8 % 4 * 16 = x by omega]
  next => cases h

theorem encode_join2 {w x y : Nat} {bs : List UInt8} (hw : w < 64) (hx : x < 64) (hy : y < 64)
    (h : join2 w x y = some bs) : encode bs = [digit w, digit x, digit y, '='] := by
  simp only [join2] at h
  split at h
  next hzero =>
    cases h
    simp only [encode, UInt8.toNat_ofNat']
    rw [show (w * 4 + x / 16) % 2 ^ 8 / 4 = w by omega,
      show (w * 4 + x / 16) % 2 ^ 8 % 4 * 16 + (x % 16 * 16 + y / 4) % 2 ^ 8 / 16 = x by omega,
      show (x % 16 * 16 + y / 4) % 2 ^ 8 % 16 * 4 = y by omega]
  next => cases h

/-- **What is read is the text of its bytes.** -/
theorem encode_decode {cs : List Char} {bs : List UInt8} (h : decode cs = some bs) :
    encode bs = cs := by
  induction cs using decode.induct generalizing bs with
  | case1 =>
    cases h
    rfl
  | case2 w x =>
    simp only [decode, Option.bind_eq_some_iff] at h
    obtain ⟨vw, hw, vx, hx, hjoin⟩ := h
    obtain ⟨rfl, w_lt⟩ := digit_value hw
    obtain ⟨rfl, x_lt⟩ := digit_value hx
    exact encode_join1 w_lt x_lt hjoin
  | case3 w x y hpad =>
    rw [decode] at h
    · simp only [Option.bind_eq_some_iff] at h
      obtain ⟨vw, hw, vx, hx, vy, hy, hjoin⟩ := h
      obtain ⟨rfl, w_lt⟩ := digit_value hw
      obtain ⟨rfl, x_lt⟩ := digit_value hx
      obtain ⟨rfl, y_lt⟩ := digit_value hy
      exact encode_join2 w_lt x_lt y_lt hjoin
    · exact hpad
  | case4 w x y z rest hpad1 hpad2 ih =>
    rw [decode] at h
    · simp only [Option.bind_eq_some_iff, Option.map_eq_some_iff] at h
      obtain ⟨vw, hw, vx, hx, vy, hy, vz, hz, tail, htail, rfl⟩ := h
      obtain ⟨rfl, w_lt⟩ := digit_value hw
      obtain ⟨rfl, x_lt⟩ := digit_value hx
      obtain ⟨rfl, y_lt⟩ := digit_value hy
      obtain ⟨rfl, z_lt⟩ := digit_value hz
      rw [encode_join3 w_lt x_lt y_lt z_lt, ih htail]
    · exact hpad1
    · exact hpad2
  | case5 cs h1 h2 h3 h4 =>
    rw [decode] at h
    · cases h
    all_goals assumption

/-- What `decode` reads, and nothing else. -/
theorem decode_eq_some {cs : List Char} {bs : List UInt8} :
    decode cs = some bs ↔ cs = encode bs := by
  constructor
  · intro h
    exact (encode_decode h).symm
  · rintro rfl
    exact decode_encode bs

end Base64

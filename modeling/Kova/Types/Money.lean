import Kova.Types.RustDecimal

/-!
# Money

`Money C` pairs a decimal with the marker of its currency. `new` rounds half to even to four
decimals, and everything else is built by it but `deserialize`, which is derived and keeps what it
has read. So a value has four decimals unless it is one that was read with more, and nothing has
been done to it since (`four_decimals_iff`).
-/

set_option autoImplicit false

namespace Kova

open Rounding

/-- The markers; the trait is sealed. -/
inductive Money.Currency
  | NGN
  | GBP
  | USD
  | KES
  deriving DecidableEq, Repr

structure Money (C : Money.Currency) where
  amount : Decimal
  deriving DecidableEq

namespace Money

variable (R : RustDecimal) {C D : Currency}

/-! ## Constructors -/

/-- The amount is normalised to four decimals. -/
def new (amount : Decimal) : Money C := ⟨R.round_dp amount 4⟩

theorem whole_fits (major : Int64) : major.toInt.natAbs < 2 ^ 96 := by
  have := major.le_toInt
  have := major.toInt_lt
  omega

theorem whole_scale_le : 0 ≤ 28 := Nat.zero_le 28

/-- `Decimal::new(major, 0)`. -/
def whole (major : Int64) : Decimal := ⟨major.toInt, 0, whole_fits major, whole_scale_le⟩

def from_major (major : Int64) : Money C := new R (whole major)

def from_minor (amount : Decimal) : Money C := new R amount

/-- Of `Decimal::ZERO`. -/
def zero : Money C := new R (whole 0)

def default : Money C := zero R

/-! ## Arithmetic -/

def checked_add (self rhs : Money C) : Option (Money C) :=
  (R.checked_add self.amount rhs.amount).map (new R)

def checked_sub (self rhs : Money C) : Option (Money C) :=
  (R.checked_sub self.amount rhs.amount).map (new R)

def checked_mul (self : Money C) (factor : Decimal) : Option (Money C) :=
  (R.checked_mul self.amount factor).map (new R)

/-- `+`. -/
def add (self rhs : Money C) : Option (Money C) := self.checked_add R rhs

/-- `-`. -/
def sub (self rhs : Money C) : Option (Money C) := self.checked_sub R rhs

/-- `*`. -/
def mul (self : Money C) (factor : Decimal) : Option (Money C) := self.checked_mul R factor

def negate (self : Money C) : Money C := new R (R.neg self.amount)

def convert_to (D : Currency) (self : Money C) (rate : Decimal) : Option (Money D) :=
  (R.checked_mul self.amount rate).map (new R)

/-! ## Columns and messages -/

/-- sqlx `Decode`, of a column that the driver has read as a decimal. -/
def decode (column : Decimal) : Money C := new R column

/-- sqlx `Encode` to a DECIMAL(19,4) column. -/
def encode (self : Money C) : Option Dec19_4 := Dec19_4.ofDecimal self.amount

/-- The derived `Deserialize`: the field is what the decimal's deserializer reads. -/
def deserialize (text : String) : Except String (Money C) :=
  (R.deserialize text).map fun amount => ⟨amount⟩

/-! ## What `new` leaves -/

variable {R}

@[simp] theorem new_value (amount : Decimal) :
    (new R amount : Money C).amount.toRat = decimals 4 amount.toRat := R.round_value amount 4

@[simp] theorem whole_value (major : Int64) : (whole major).toRat = major.toInt := by
  rw [Decimal.toRat, whole, pow_zero, div_one]

theorem new_scale (amount : Decimal) : (new R amount : Money C).amount.scale ≤ 4 :=
  R.round_scale amount 4

/-- A number of four decimals is kept. -/
theorem new_exact {amount : Decimal} (h : HasDecimals 4 amount.toRat) :
    (new R amount : Money C).amount.toRat = amount.toRat := by
  rw [new_value, decimals_eq_iff.mpr h]

/-! ## Every value of the public functions -/

/-- A composition of the public functions that give a value, with its arguments. -/
inductive Api : Currency → Type
  | new {C : Currency} (amount : Decimal) : Api C
  | from_major {C : Currency} (major : Int64) : Api C
  | from_minor {C : Currency} (amount : Decimal) : Api C
  | zero {C : Currency} : Api C
  | default {C : Currency} : Api C
  | checked_add {C : Currency} (self rhs : Api C) : Api C
  | checked_sub {C : Currency} (self rhs : Api C) : Api C
  | checked_mul {C : Currency} (self : Api C) (factor : Decimal) : Api C
  | add {C : Currency} (self rhs : Api C) : Api C
  | sub {C : Currency} (self rhs : Api C) : Api C
  | mul {C : Currency} (self : Api C) (factor : Decimal) : Api C
  | negate {C : Currency} (self : Api C) : Api C
  | convert_to {C : Currency} (D : Currency) (self : Api C) (rate : Decimal) : Api D
  | decode {C : Currency} (column : Decimal) : Api C
  | deserialize {C : Currency} (text : String) : Api C

/-- The value of a composition, if no step of it fails. -/
def Api.eval (R : RustDecimal) : {C : Currency} → Api C → Option (Money C)
  | _, .new amount => some (Money.new R amount)
  | _, .from_major major => some (Money.from_major R major)
  | _, .from_minor amount => some (Money.from_minor R amount)
  | _, .zero => some (Money.zero R)
  | _, .default => some (Money.default R)
  | _, .checked_add self rhs => do Money.checked_add R (← self.eval R) (← rhs.eval R)
  | _, .checked_sub self rhs => do Money.checked_sub R (← self.eval R) (← rhs.eval R)
  | _, .checked_mul self factor => do Money.checked_mul R (← self.eval R) factor
  | _, .add self rhs => do Money.add R (← self.eval R) (← rhs.eval R)
  | _, .sub self rhs => do Money.sub R (← self.eval R) (← rhs.eval R)
  | _, .mul self factor => do Money.mul R (← self.eval R) factor
  | _, .negate self => do return Money.negate R (← self.eval R)
  | _, .convert_to D self rate => do Money.convert_to R D (← self.eval R) rate
  | _, .decode column => some (Money.decode R column)
  | _, .deserialize text => (Money.deserialize R text).toOption

/-- What is done last makes the value: `new` has built it, or it has been read. -/
theorem built_last {e : Api C} {m : Money C} (h : e.eval R = some m) :
    (∃ amount, m = new R amount) ∨
      ∃ text, e = .deserialize text ∧ R.deserialize text = .ok m.amount := by
  cases e with
  | new | from_major | from_minor | zero | default | decode =>
    exact .inl ⟨_, (Option.some.inj h).symm⟩
  | checked_add self rhs | checked_sub self rhs | add self rhs | sub self rhs =>
    obtain ⟨a, _, h⟩ := Option.bind_eq_some_iff.mp h
    obtain ⟨b, _, h⟩ := Option.bind_eq_some_iff.mp h
    obtain ⟨c, _, rfl⟩ := Option.map_eq_some_iff.mp h
    exact .inl ⟨c, rfl⟩
  | checked_mul self factor | mul self factor | convert_to D self factor =>
    obtain ⟨a, _, h⟩ := Option.bind_eq_some_iff.mp h
    obtain ⟨c, _, rfl⟩ := Option.map_eq_some_iff.mp h
    exact .inl ⟨c, rfl⟩
  | negate self =>
    obtain ⟨a, _, h⟩ := Option.bind_eq_some_iff.mp h
    exact .inl ⟨_, (Option.some.inj h).symm⟩
  | deserialize text =>
    refine .inr ⟨text, rfl, ?_⟩
    simp only [Api.eval, Money.deserialize] at h
    cases hread : R.deserialize text with
    | error e =>
      rw [hread] at h
      cases h
    | ok d =>
      rw [hread] at h
      cases h
      rfl

/-- The amount is its own rounding to four decimals, and a column that takes it gives it back. -/
structure FourDecimals (R : RustDecimal) (m : Money C) : Prop where
  rounded : m.amount.toRat = decimals 4 m.amount.toRat
  stored : ∀ column, m.encode = some column →
    (decode R column.toDecimal : Money C).amount.toRat = m.amount.toRat

theorem fourDecimals_iff {m : Money C} : FourDecimals R m ↔ HasDecimals 4 m.amount.toRat := by
  constructor
  · intro h
    exact decimals_eq_iff.mp h.rounded.symm
  · intro h
    refine ⟨(decimals_eq_iff.mpr h).symm, ?_⟩
    intro column hcolumn
    have column_has : HasDecimals 4 column.toDecimal.toRat := ⟨column.units, rfl⟩
    rw [decode, new_exact column_has]
    obtain ⟨n, hn⟩ := h
    unfold encode Dec19_4.ofDecimal at hcolumn
    split at hcolumn
    · cases hcolumn
      rw [hn, ← Decimal.units_of_toRat hn]
      rfl
    · cases hcolumn

/-- **Four decimals** are what a value has exactly if it is not one that was read with more. -/
theorem four_decimals_iff {e : Api C} {m : Money C} (h : e.eval R = some m) :
    FourDecimals R m ↔
      ∀ text amount, e = .deserialize text → R.deserialize text = .ok amount →
        HasDecimals 4 amount.toRat := by
  rw [fourDecimals_iff]
  rcases built_last h with ⟨amount, rfl⟩ | ⟨text, rfl, hread⟩
  · have kept : HasDecimals 4 (new R amount : Money C).amount.toRat := by
      rw [new_value]
      exact hasDecimals_decimals 4 amount.toRat
    refine ⟨?_, fun _ => kept⟩
    rintro - text amount' rfl hread
    simp only [Api.eval, Money.deserialize, hread] at h
    cases h
    exact kept
  · constructor
    · rintro hkept text' amount heq hread'
      cases heq
      cases hread.symm.trans hread'
      exact hkept
    · intro hclear
      exact hclear text m.amount rfl hread

/-- A thousand, halved and negated. -/
theorem four_decimals_halved :
    FourDecimals RustDecimal.written_out
      (⟨⟨-5000, 1, by decide, by decide⟩⟩ : Money .NGN) :=
  (four_decimals_iff (e := .negate (.mul (.from_major 1000) ⟨5, 1, by decide, by decide⟩))
    (by decide +kernel)).mpr (by
      intro text amount heq
      cases heq)

/-- **A value that was read with five decimals**: its column gives back another. -/
theorem read_with_five_decimals :
    ∃ m : Money .NGN, (Api.deserialize "0.00005").eval RustDecimal.written_out = some m ∧
      m.amount.toRat ≠ decimals 4 m.amount.toRat ∧
      ∃ column, m.encode = some column ∧
        (decode RustDecimal.written_out column.toDecimal : Money .NGN).amount.toRat ≠
          m.amount.toRat := by
  refine ⟨⟨⟨5, 5, by decide, by decide⟩⟩, by decide +kernel, by decide +kernel, ?_⟩
  exact ⟨⟨1, by decide⟩, by decide, by decide +kernel⟩

end Money

end Kova

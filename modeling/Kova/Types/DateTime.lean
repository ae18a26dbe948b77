import Mathlib.Data.Int.Basic

/-!
# Instants

`DateTime` is chrono's `DateTime<Utc>`, in nanoseconds since the Unix epoch. A DATETIME(6)
column and the parameters bound to it hold whole microseconds: binding an instant cuts the rest
off. A DATETIME column holds whole seconds, and MySQL rounds what is stored into it.
-/

namespace Kova

structure DateTime where
  nanos : Int
  deriving DecidableEq

namespace DateTime

/-- `timestamp()`: whole seconds. -/
def timestamp (d : DateTime) : Int := d.nanos / 1000000000

/-- `timestamp_micros()`: whole microseconds. -/
def timestamp_micros (d : DateTime) : Int := d.nanos / 1000

/-- `NaiveDateTime::and_utc` of a DATETIME(6) value. -/
def of_micros (m : Int) : DateTime := ⟨m * 1000⟩

@[simp] theorem timestamp_micros_of_micros (m : Int) : (of_micros m).timestamp_micros = m := by
  simp only [timestamp_micros, of_micros]
  omega

/-- The instant as the driver binds it to a DATETIME(6) parameter. -/
def bind (d : DateTime) : Int := d.nanos / 1000

/-- The first and the last second chrono can represent. -/
def MIN_SECS : Int := -8334601228800
def MAX_SECS : Int := 8210266876799

/-- `DateTime::from_timestamp`: `None` outside chrono's range or for a malformed sub-second
part (a part of a second or more is a leap second's, allowed in a minute's last second). -/
def from_timestamp (secs : Int) (nsecs : Nat) : Option DateTime :=
  if MIN_SECS ≤ secs ∧ secs ≤ MAX_SECS ∧
      (nsecs < 1000000000 ∨ nsecs < 2000000000 ∧ secs % 60 = 59) then
    some ⟨secs * 1000000000 + nsecs⟩
  else none

/-- What a DATETIME(6) column can store: the years 1000 to 9999, in microseconds. -/
def storable (m : Int) : Bool := -30610224000000000 ≤ m && m < 253402300800000000

/-- What a DATETIME column stores of a bound instant: the nearest second, halves up. -/
def to_datetime (d : DateTime) : Int := (d.bind + 500000) / 1000000

end DateTime

end Kova

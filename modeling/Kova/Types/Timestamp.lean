import Kova.Types.DateTime

/-!
# Protobuf timestamps

The ledger's two conversions between chrono's instants and the timestamps of the wire. A timestamp
may hold any two machine integers: `timestamp_to_dt` reinterprets the nanoseconds as unsigned, so
that negative ones are no part of a second, and gives no instant for what chrono cannot represent.
-/

set_option autoImplicit false

namespace Kova

/-- `prost_types::Timestamp`. -/
structure Timestamp where
  seconds : Int64
  nanos : Int32
  deriving DecidableEq

namespace Timestamp

/-- The instant that a timestamp names, in nanoseconds since the Unix epoch. -/
def instant (ts : Timestamp) : Int := ts.seconds.toInt * 1000000000 + ts.nanos.toInt

end Timestamp

def dt_to_timestamp (dt : DateTime) : Timestamp where
  seconds := .ofInt dt.timestamp
  nanos := .ofInt (dt.nanos % 1000000000)

def timestamp_to_dt (ts : Timestamp) : Option DateTime :=
  DateTime.from_timestamp ts.seconds.toInt ts.nanos.toUInt32.toNat

/-- The cast reinterprets the bits. -/
theorem toUInt32_cases (x : Int32) :
    (0 ≤ x.toInt ∧ (x.toUInt32.toNat : Int) = x.toInt) ∨
      (x.toInt < 0 ∧ (x.toUInt32.toNat : Int) = x.toInt + 4294967296) := by
  have hbits : x.toInt = x.toBitVec.toInt := rfl
  have hnat : x.toUInt32.toNat = x.toBitVec.toNat := rfl
  have hlt := x.toBitVec.isLt
  rw [hbits, hnat, BitVec.toInt_eq_toNat_cond]
  split <;> omega

/-- **What is converted is converted exactly.** -/
theorem timestamp_to_dt_exact {ts : Timestamp} {dt : DateTime} (h : timestamp_to_dt ts = some dt) :
    dt.nanos = ts.instant := by
  unfold timestamp_to_dt DateTime.from_timestamp at h
  split at h
  · next hrange =>
    cases h
    have hlow := ts.nanos.le_toInt
    rcases toUInt32_cases ts.nanos with ⟨_, hnanos⟩ | ⟨hneg, hnanos⟩
    · show _ + (ts.nanos.toUInt32.toNat : Int) = _
      rw [hnanos, Timestamp.instant]
    · -- a negative part has become more than two seconds
      omega
  · cases h

end Kova

import Kova.Ledger.StatementLaws

/-!
# The cursor codec

`decode_cursor` reads the texts of the 24-byte cursors and no other: what it takes is the base64
text of the eight bytes of the count that it returns and of the id (`decode_cursor_iff`). Everything
else is an INVALID_ARGUMENT. The slices, the conversion and the copies of the source are total where
they stand: `encode_cursor_steps` and `decode_cursor_steps` spell them out, with `none` for a panic.
-/

set_option autoImplicit false

namespace Kova.Ledger

/-! ## The buffers -/

/-- `&bytes[start..stop]`, which panics outside the bytes. -/
def slice (bytes : List UInt8) (start stop : Nat) : Option (List UInt8) :=
  if start ≤ stop ∧ stop ≤ bytes.length then some ((bytes.take stop).drop start) else none

/-- A slice as an array of `size` bytes: what `try_into` converts, and what `copy_from_slice` puts
into a buffer of that size. Both want the length to be the same. -/
def array (size : Nat) (bytes : List UInt8) : Option { a : List UInt8 // a.length = size } :=
  if h : bytes.length = size then some ⟨bytes, h⟩ else none

/-- `buf[start..stop].copy_from_slice(src)`. -/
def copy_into (buf : List UInt8) (start stop : Nat) (src : List UInt8) : Option (List UInt8) :=
  if start ≤ stop ∧ stop ≤ buf.length ∧ src.length = stop - start then
    some (buf.take start ++ src ++ buf.drop stop)
  else none

/-- `encode_cursor` with its copies. -/
def encode_cursor_steps (created_at : DateTime) (entry_id : Uuid) : Option String := do
  let micros := BigEndian.bytes 8 (i64_bits created_at.timestamp_micros)
  let buf ← copy_into (List.replicate 24 0) 0 8 micros
  let buf ← copy_into buf 8 24 entry_id.bytes
  some (String.ofList (Base64.encode buf))

/-- `decode_cursor` with its slices, its conversion and its copy. -/
def decode_cursor_steps (cursor : String) : Option (Except LedgerError (Int × Uuid)) :=
  match Base64.decode cursor.toList with
  | none => some (.error (.InvalidArgument "invalid cursor encoding"))
  | some bytes =>
    if bytes.length ≠ 24 then some (.error (.InvalidArgument "malformed cursor"))
    else do
      let head ← slice bytes 0 8
      let micros ← array 8 head
      let tail ← slice bytes 8 24
      let id ← array 16 tail
      some (.ok (i64_of_bits (BigEndian.value micros.val), ⟨id.val, id.property⟩))

theorem array_of_length {size : Nat} {bytes : List UInt8} (h : bytes.length = size) :
    array size bytes = some ⟨bytes, h⟩ := dif_pos h

/-- No copy into the buffer fails. -/
theorem encode_cursor_steps_eq (created_at : DateTime) (entry_id : Uuid) :
    encode_cursor_steps created_at entry_id = some (encode_cursor created_at entry_id) := by
  have hsize := BigEndian.bytes_length 8 (i64_bits created_at.timestamp_micros)
  simp only [encode_cursor_steps, encode_cursor]
  generalize BigEndian.bytes 8 (i64_bits created_at.timestamp_micros) = micros at hsize ⊢
  have hfirst : copy_into (List.replicate 24 0) 0 8 micros =
      some (micros ++ List.replicate 16 0) := by
    rw [copy_into, if_pos ⟨by decide, by decide, hsize⟩]
    rfl
  have hsecond : copy_into (micros ++ List.replicate 16 0) 8 24 entry_id.bytes =
      some (micros ++ entry_id.bytes) := by
    rw [copy_into, if_pos ⟨by decide, by rw [List.length_append, hsize]; decide, entry_id.size⟩,
      List.take_left' hsize, List.drop_of_length_le (by rw [List.length_append, hsize]; decide),
      List.append_nil]
  simp only [hfirst, hsecond, Option.bind_eq_bind, Option.bind_some]

/-- No slice, no conversion and no copy out of the bytes fails. -/
theorem decode_cursor_steps_eq (cursor : String) :
    decode_cursor_steps cursor = some (decode_cursor cursor) := by
  unfold decode_cursor_steps decode_cursor
  cases Base64.decode cursor.toList with
  | none => rfl
  | some bytes =>
    by_cases hsize : bytes.length = 24
    · have hhead : slice bytes 0 8 = some (bytes.take 8) := by
        rw [slice, if_pos ⟨by decide, by omega⟩, List.drop_zero]
      have htail : slice bytes 8 24 = some (bytes.drop 8) := by
        rw [slice, if_pos ⟨by decide, by omega⟩, List.take_of_length_le (by omega)]
      have hmicros := array_of_length (show (bytes.take 8).length = 8 by simp [hsize])
      have hid := array_of_length (show (bytes.drop 8).length = 16 by simp [hsize])
      simp only [hsize, ne_eq, not_true_eq_false, ↓reduceIte, ↓reduceDIte, hhead, htail, hmicros,
        hid, Option.bind_eq_bind, Option.bind_some]
    · simp only [hsize, ne_eq, not_false_eq_true, ↓reduceIte, ↓reduceDIte]

/-! ## What is accepted -/

/-- The range of an `i64`. -/
def InI64 (x : Int) : Prop := -2 ^ 63 ≤ x ∧ x < 2 ^ 63

theorem i64_of_bits_range {n : Nat} (h : n < 2 ^ 64) : InI64 (i64_of_bits n) := by
  unfold InI64 i64_of_bits
  split <;> omega

theorem i64_bits_of_bits {n : Nat} (h : n < 2 ^ 64) : i64_bits (i64_of_bits n) = n := by
  unfold i64_bits i64_of_bits
  split <;> omega

/-- The bytes of a decoded cursor, spelled by what they decode to. -/
theorem cursor_bytes {bytes : List UInt8} (hsize : bytes.length = 24) :
    InI64 (i64_of_bits (BigEndian.value (bytes.take 8))) ∧
      BigEndian.bytes 8 (i64_bits (i64_of_bits (BigEndian.value (bytes.take 8)))) ++
        bytes.drop 8 = bytes := by
  have hhead : (bytes.take 8).length = 8 := by simp [hsize]
  have hlt := BigEndian.value_lt (bytes.take 8)
  rw [hhead] at hlt
  have hspelled := BigEndian.bytes_value (bytes.take 8)
  rw [hhead] at hspelled
  refine ⟨i64_of_bits_range hlt, ?_⟩
  rw [i64_bits_of_bits hlt, hspelled, List.take_append_drop]

/-- What is made of a text: that of 24 bytes is read, every other one is refused in one way. -/
theorem decode_cursor_cases (cursor : String) :
    (∃ bytes : List UInt8, cursor = String.ofList (Base64.encode bytes) ∧
      ∃ hsize : bytes.length = 24, decode_cursor cursor =
        .ok (i64_of_bits (BigEndian.value (bytes.take 8)), ⟨bytes.drop 8, by simp [hsize]⟩)) ∨
      ∃ message, decode_cursor cursor = .error (.InvalidArgument message) := by
  unfold decode_cursor
  cases hdecode : Base64.decode cursor.toList with
  | none => exact .inr ⟨_, rfl⟩
  | some bytes =>
    by_cases hsize : bytes.length = 24
    · refine .inl ⟨bytes, ?_, hsize, ?_⟩
      · rw [← Base64.decode_eq_some.mp hdecode, String.ofList_toList]
      · simp only [hsize, ↓reduceDIte]
    · simp only [hsize, ↓reduceDIte]
      exact .inr ⟨_, rfl⟩

/-- **Which texts are cursors, and of what.** -/
theorem decode_cursor_iff {cursor : String} {micros : Int} {id : Uuid} :
    decode_cursor cursor = .ok (micros, id) ↔ InI64 micros ∧ cursor = cursor_text micros id := by
  constructor
  · intro h
    rcases decode_cursor_cases cursor with ⟨bytes, htext, hsize, hread⟩ | ⟨message, hrefused⟩
    · rw [hread] at h
      cases h
      obtain ⟨hrange, hbytes⟩ := cursor_bytes hsize
      refine ⟨hrange, ?_⟩
      rw [cursor_text, hbytes, htext]
    · rw [hrefused] at h
      cases h
  · rintro ⟨⟨hlow, hhigh⟩, rfl⟩
    exact decode_cursor_text id hlow hhigh

/-! ## The instants -/

/-- The instants that chrono represents. -/
def Represented (created_at : DateTime) : Prop :=
  ∃ secs nsecs, DateTime.from_timestamp secs nsecs = some created_at

/-- The microseconds of an instant fit an `i64`. -/
theorem Represented.micros_range {created_at : DateTime} (h : Represented created_at) :
    InI64 created_at.timestamp_micros := by
  obtain ⟨secs, nsecs, hmade⟩ := h
  unfold DateTime.from_timestamp at hmade
  split at hmade
  next hinside =>
    cases hmade
    obtain ⟨hfirst, hlast, hpart⟩ := hinside
    simp only [DateTime.MIN_SECS, DateTime.MAX_SECS] at hfirst hlast
    simp only [InI64, DateTime.timestamp_micros]
    omega
  next => cases hmade

/-- **The cursor codec**: every instant and id is read back as it was written, and a text is read
if and only if it is the text of what is read, the others being refused; nothing panics. -/
theorem cursor_codec :
    (∀ (created_at : DateTime) (entry_id : Uuid), Represented created_at →
      encode_cursor_steps created_at entry_id = some (encode_cursor created_at entry_id) ∧
        decode_cursor (encode_cursor created_at entry_id) =
          .ok (created_at.timestamp_micros, entry_id)) ∧
    ∀ cursor : String,
      decode_cursor_steps cursor = some (decode_cursor cursor) ∧
      (∀ (micros : Int) (id : Uuid), decode_cursor cursor = .ok (micros, id) ↔
        InI64 micros ∧ cursor = cursor_text micros id) ∧
      ((¬ ∃ (micros : Int) (id : Uuid), InI64 micros ∧ cursor = cursor_text micros id) →
        ∃ message, decode_cursor cursor = .error (.InvalidArgument message)) := by
  refine ⟨fun created_at entry_id hinstant => ⟨encode_cursor_steps_eq _ _, ?_⟩, fun cursor =>
    ⟨decode_cursor_steps_eq cursor, fun _ _ => decode_cursor_iff, fun hother => ?_⟩⟩
  · exact decode_cursor_iff.mpr ⟨hinstant.micros_range, rfl⟩
  · rcases decode_cursor_cases cursor with ⟨_, _, _, hread⟩ | hrefused
    · exact absurd ⟨_, _, decode_cursor_iff.mp hread⟩ hother
    · exact hrefused

/-- The last nanosecond before 1970, and a text whose left-over bits are not zero. -/
theorem cursor_codec_sample :
    decode_cursor (encode_cursor ⟨-1⟩ (.low 9)) = .ok (-1, .low 9) ∧
      decode_cursor_steps "AB==" = some (decode_cursor "AB==") :=
  ⟨(cursor_codec.1 ⟨-1⟩ (.low 9) ⟨-1, 999999999, by decide⟩).2, (cursor_codec.2 "AB==").1⟩

end Kova.Ledger

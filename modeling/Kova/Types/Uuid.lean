import Mathlib.Order.Lex
import Mathlib.Data.List.Lex
import Kova.Codec.Hex

/-!
# Identifiers

A UUID is its sixteen bytes. A BINARY(16) column compares them byte by byte, which is the order
here. The text is the hyphenated lower-case one; `parse_str` reads the forms the `uuid` crate
reads, `UUID_TO_BIN` the forms MySQL reads, and both read back what `to_string` wrote. (The swap
flag that the schemas pass to UUID_TO_BIN and BIN_TO_UUID permutes the bytes on the way in and
on the way out; a row is modelled by the identifier it stands for.)
-/

namespace Kova

structure Uuid where
  bytes : List UInt8
  size : bytes.length = 16
  deriving DecidableEq

namespace Uuid

theorem toNat_injective : Function.Injective fun u : Uuid => u.bytes.map UInt8.toNat := by
  intro u v h
  have bytes := List.map_injective_iff.mpr (fun _ _ => UInt8.toNat_inj.mp) h
  cases u
  cases v
  cases bytes
  rfl

/-- Byte order, as a BINARY(16) column sorts. -/
instance : LinearOrder Uuid := LinearOrder.lift' _ toNat_injective

/-- The identifier whose last byte is `n`, the others zero. -/
def low (n : UInt8) : Uuid := ⟨List.replicate 15 0 ++ [n], rfl⟩

/-! ## Text -/

/-- Hyphens after 8, 12, 16 and 20 digits. -/
def hyphenate (cs : List Char) : List Char :=
  cs.take 8 ++ '-' :: ((cs.drop 8).take 4 ++ '-' :: ((cs.drop 12).take 4 ++
    '-' :: ((cs.drop 16).take 4 ++ '-' :: cs.drop 20)))

/-- The hyphens of a 36-character text taken out. -/
def dehyphenate (cs : List Char) : Option (List Char) :=
  if cs.length = 36 ∧ [8, 13, 18, 23].all (fun i => cs[i]? == some '-') then
    some (cs.take 8 ++ ((cs.drop 9).take 4 ++ ((cs.drop 14).take 4 ++
      ((cs.drop 19).take 4 ++ cs.drop 24))))
  else none

/-- Thirty-two digits. -/
def simple (cs : List Char) : Option Uuid :=
  (Hex.decode cs).bind fun bs => if h : bs.length = 16 then some ⟨bs, h⟩ else none

def hyphenated (cs : List Char) : Option Uuid := (dehyphenate cs).bind simple

/-- The text between braces. -/
def braced (cs : List Char) : Option (List Char) :=
  if cs.head? = some (Char.ofNat 123) ∧ cs.getLast? = some (Char.ofNat 125) then
    some cs.tail.dropLast
  else none

def to_string (u : Uuid) : String := String.ofList (hyphenate (Hex.encode u.bytes))

/-- `Uuid::parse_str`: simple, hyphenated, braced or URN. -/
def parse_str (s : String) : Option Uuid :=
  let cs := s.toList
  match cs.length with
  | 32 => simple cs
  | 36 => hyphenated cs
  | 38 => (braced cs).bind hyphenated
  | 45 => if "urn:uuid:".toList <+: cs then hyphenated (cs.drop 9) else none
  | _ => none

/-- `UUID_TO_BIN(?, true)`: hyphenated, simple or braced; anything else is an error. -/
def UUID_TO_BIN (s : String) : Option Uuid :=
  let cs := s.toList
  match cs.length with
  | 32 => simple cs
  | 36 => hyphenated cs
  | 38 => (braced cs).bind hyphenated
  | _ => none

theorem dehyphenate_parts {a b c d e : List Char} (ha : a.length = 8) (hb : b.length = 4)
    (hc : c.length = 4) (hd : d.length = 4) (he : e.length = 12) :
    dehyphenate (a ++ '-' :: (b ++ '-' :: (c ++ '-' :: (d ++ '-' :: e)))) =
      some (a ++ (b ++ (c ++ (d ++ e)))) := by
  unfold dehyphenate
  rw [if_pos]
  · simp [List.drop_append, ha, hb, hc, hd, List.drop_of_length_le]
  · simp [List.getElem?_append, List.getElem?_cons, ha, hb, hc, hd, he]

theorem dehyphenate_hyphenate {cs : List Char} (h : cs.length = 32) :
    dehyphenate (hyphenate cs) = some cs := by
  have parts := dehyphenate_parts (a := cs.take 8) (b := (cs.drop 8).take 4)
    (c := (cs.drop 12).take 4) (d := (cs.drop 16).take 4) (e := cs.drop 20)
    (by simp [h]) (by simp [h]) (by simp [h]) (by simp [h]) (by simp [h])
  have whole : cs.take 8 ++ ((cs.drop 8).take 4 ++ ((cs.drop 12).take 4 ++
      ((cs.drop 16).take 4 ++ cs.drop 20))) = cs := by
    have h16 := List.take_append_drop 4 (cs.drop 16)
    have h12 := List.take_append_drop 4 (cs.drop 12)
    have h8 := List.take_append_drop 4 (cs.drop 8)
    rw [List.drop_drop] at h16 h12 h8
    rw [h16, h12, h8, List.take_append_drop]
  rw [hyphenate, parts, whole]

theorem hyphenate_length {cs : List Char} (h : cs.length = 32) : (hyphenate cs).length = 36 := by
  simp [hyphenate, h]

theorem hyphenated_encode (u : Uuid) : hyphenated (hyphenate (Hex.encode u.bytes)) = some u := by
  have h32 : (Hex.encode u.bytes).length = 32 := by rw [Hex.encode_length, u.size]
  rw [hyphenated, dehyphenate_hyphenate h32, Option.bind_some, simple, Hex.decode_encode,
    Option.bind_some, dif_pos u.size]

/-- The crate reads its own text. -/
@[simp] theorem parse_str_to_string (u : Uuid) : parse_str u.to_string = some u := by
  have h36 : (hyphenate (Hex.encode u.bytes)).length = 36 :=
    hyphenate_length (by rw [Hex.encode_length, u.size])
  simp only [parse_str, to_string, String.toList_ofList, h36, hyphenated_encode]

theorem to_string_injective : Function.Injective to_string := by
  intro u v h
  have hparse := congrArg parse_str h
  rwa [parse_str_to_string, parse_str_to_string, Option.some.injEq] at hparse

/-- MySQL reads the crate's text. -/
@[simp] theorem UUID_TO_BIN_to_string (u : Uuid) : UUID_TO_BIN u.to_string = some u := by
  have h36 : (hyphenate (Hex.encode u.bytes)).length = 36 :=
    hyphenate_length (by rw [Hex.encode_length, u.size])
  simp only [UUID_TO_BIN, to_string, String.toList_ofList, h36, hyphenated_encode]

theorem to_string_length (u : Uuid) : u.to_string.length = 36 := by
  have h32 : (Hex.encode u.bytes).length = 32 := by rw [Hex.encode_length, u.size]
  rw [to_string, String.length_ofList, hyphenate_length h32]

/-- What MySQL reads, the crate reads the same. -/
theorem parse_str_of_UUID_TO_BIN {s : String} {u : Uuid} (h : UUID_TO_BIN s = some u) :
    parse_str s = some u := by
  simp only [UUID_TO_BIN] at h
  simp only [parse_str]
  split at h
  · next hlen => simpa only [hlen] using h
  · next hlen => simpa only [hlen] using h
  · next hlen => simpa only [hlen] using h
  · cases h

end Uuid

end Kova

import Mathlib.Algebra.Order.Field.Rat
import Mathlib.Tactic.FieldSimp
import Mathlib.Tactic.Ring

/-!
# Text, its bytes and its numbers

A text is told by the list of its UTF-8 bytes (`utf8_injective`). `number` reads a decimal numeral:
a sign, digits with at most one point among them, underscores between them ignored. The digits are
read as one natural number and divided by the power of ten that the point stands for
(`number_of_digits`).
-/

set_option autoImplicit false

namespace Text

/-! ## Bytes -/

theorem byteArray_loop (bs : ByteArray) (i : Nat) (r : List UInt8) :
    ByteArray.toList.loop bs i r = r.reverse ++ bs.data.toList.drop i := by
  fun_induction ByteArray.toList.loop bs i r with
  | case1 i r h ih =>
    have hlt : i < bs.data.toList.length := by simpa using h
    have hget : bs.get! i = bs.data.toList[i] := by
      have hlt : i < bs.data.size := h
      rw [ByteArray.get!, getElem!_pos bs.data i hlt, Array.getElem_toList]
    rw [ih, List.drop_eq_getElem_cons hlt, List.reverse_cons, List.append_assoc, hget]
    rfl
  | case2 i r h =>
    rw [List.drop_of_length_le (by simpa using h), List.append_nil]

theorem byteArray_toList (bs : ByteArray) : bs.toList = bs.data.toList := byteArray_loop bs 0 []

/-- The UTF-8 bytes of a text. -/
def utf8 (s : String) : List UInt8 := s.toUTF8.toList

theorem utf8_injective : Function.Injective utf8 := by
  intro s s' h
  rw [utf8, utf8, byteArray_toList, byteArray_toList] at h
  exact String.toByteArray_inj.mp (ByteArray.ext (Array.toList_inj.mp h))

/-! ## Numerals -/

/-- The number that digits before and behind a point write. -/
def value (whole part : List Char) : ℚ :=
  (Nat.ofDigitChars 10 (whole ++ part) 0 : ℕ) / 10 ^ part.length

/-- What stands behind the first point. -/
def behind_point (cs : List Char) : List Char := (cs.dropWhile (· != '.')).drop 1

/-- How many places a text writes. -/
def places (text : String) : Nat := (behind_point text.toList).length

/-- The number that digits write, with a point among them or without. -/
def unsigned (cs : List Char) : Option ℚ :=
  let whole := cs.takeWhile (· != '.')
  let part := behind_point cs
  if whole ++ part ≠ [] ∧ (whole ++ part).all Char.isDigit then some (value whole part) else none

/-- The number that a text writes. -/
def number (text : String) : Option ℚ :=
  match text.toList.filter (· != '_') with
  | '-' :: cs => (unsigned cs).map (- ·)
  | '+' :: cs => unsigned cs
  | cs => unsigned cs

/-- Nothing but digits. -/
def Digits (cs : List Char) : Prop := ∀ c ∈ cs, c.isDigit = true

theorem Digits.append {cs cs' : List Char} (h : Digits cs) (h' : Digits cs') :
    Digits (cs ++ cs') := by
  intro c hc
  exact (List.mem_append.mp hc).elim (h c) (h' c)

theorem Digits.left {cs cs' : List Char} (h : Digits (cs ++ cs')) : Digits cs :=
  fun c hc => h c (List.mem_append_left _ hc)

theorem Digits.right {cs cs' : List Char} (h : Digits (cs ++ cs')) : Digits cs' :=
  fun c hc => h c (List.mem_append_right _ hc)

theorem Digits.ne {cs : List Char} (h : Digits cs) {c x : Char} (hc : c ∈ cs)
    (hx : x.isDigit = false) : c ≠ x := by
  rintro rfl
  exact absurd (h c hc) (Bool.eq_false_iff.mp hx)

variable {whole part : List Char}

/-- The digits behind the point, if there are any. -/
def pointed : List Char → List Char
  | [] => []
  | part => '.' :: part

theorem before_point (hwhole : Digits whole) : ∀ c ∈ whole, (c != '.') = true :=
  fun _ hc => bne_iff_ne.mpr (hwhole.ne hc rfl)

theorem behind_point_of_digits (hwhole : Digits whole) :
    behind_point (whole ++ pointed part) = part := by
  rw [behind_point, List.dropWhile_append_of_pos (before_point hwhole)]
  cases part <;> simp [pointed]

theorem places_of_digits (hwhole : Digits whole) :
    places (String.ofList (whole ++ pointed part)) = part.length := by
  rw [places, String.toList_ofList, behind_point_of_digits hwhole]

theorem unsigned_of_digits (hwhole : Digits whole) (hpart : Digits part) (hne : whole ≠ []) :
    unsigned (whole ++ pointed part) = some (value whole part) := by
  have htake : (whole ++ pointed part).takeWhile (· != '.') = whole := by
    rw [List.takeWhile_append_of_pos (before_point hwhole)]
    cases part <;> simp [pointed]
  have hall : (whole ++ part).all Char.isDigit = true := List.all_eq_true.mpr (hwhole.append hpart)
  simp only [unsigned, htake, behind_point_of_digits hwhole, hall]
  rw [if_pos ⟨fun hnil => hne (List.append_eq_nil_iff.mp hnil).1, trivial⟩]

/-- **The number of a numeral**, by its digits. -/
theorem number_of_digits (hwhole : Digits whole) (hpart : Digits part) (hne : whole ≠ []) :
    number (String.ofList (whole ++ pointed part)) = some (value whole part) := by
  have hfilter : (whole ++ pointed part).filter (· != '_') = whole ++ pointed part := by
    rw [List.filter_eq_self]
    intro c hc
    rw [bne_iff_ne]
    rcases List.mem_append.mp hc with hc | hc
    · exact hwhole.ne hc rfl
    · cases part with
      | nil => cases hc
      | cons d ds =>
        rcases List.mem_cons.mp hc with rfl | hc
        · decide
        · exact hpart.ne hc rfl
  obtain ⟨c, cs, rfl⟩ := List.exists_cons_of_ne_nil hne
  have hc := List.mem_cons_self (a := c) (l := cs)
  rw [number, String.toList_ofList, hfilter, ← unsigned_of_digits hwhole hpart hne,
    List.cons_append]
  split
  · next heq => exact absurd (List.cons.inj heq).1 (hwhole.ne hc rfl)
  · next heq => exact absurd (List.cons.inj heq).1 (hwhole.ne hc rfl)
  · rfl

end Text

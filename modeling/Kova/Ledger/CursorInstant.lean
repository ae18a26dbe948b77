import Kova.Ledger.StatementLaws

/-!
# The instant of a cursor

A cursor carries a count of microseconds, any `i64` at all, and `micros_to_naive` makes an instant
of it. The division and the remainder truncate, so that a count before 1970 has a negative part of a
second, which the cast to `u32` turns into more than two seconds; what chrono refuses becomes the
epoch without an error. The keyset query is run at the count that the cursor carries if and only if
the count is not negative, or one of whole seconds, and within chrono's range (`cursor_used_iff`).
-/

set_option autoImplicit false

namespace Kova.Ledger

open Conc

/-- chrono represents the count, which has no negative part of a second. -/
structure Converts (micros : Int) : Prop where
  whole : 0 ≤ micros ∨ micros % 1000000 = 0
  first : DateTime.MIN_SECS * 1000000 ≤ micros
  last : micros < (DateTime.MAX_SECS + 1) * 1000000

instance (micros : Int) : Decidable (Converts micros) :=
  decidable_of_iff ((0 ≤ micros ∨ micros % 1000000 = 0) ∧ DateTime.MIN_SECS * 1000000 ≤ micros ∧
    micros < (DateTime.MAX_SECS + 1) * 1000000)
    ⟨fun ⟨whole, first, last⟩ => ⟨whole, first, last⟩, fun ⟨whole, first, last⟩ =>
      ⟨whole, first, last⟩⟩

/-- The two parts of a count: both have its sign. -/
theorem micros_parts (micros : Int) :
    micros.tdiv 1000000 * 1000000 + micros.tmod 1000000 = micros ∧
      ((0 ≤ micros ∧ 0 ≤ micros.tmod 1000000 ∧ micros.tmod 1000000 < 1000000) ∨
        (micros < 0 ∧ -1000000 < micros.tmod 1000000 ∧ micros.tmod 1000000 ≤ 0)) := by
  have hsum := Int.mul_tdiv_add_tmod micros 1000000
  refine ⟨by omega, ?_⟩
  by_cases hsign : 0 ≤ micros
  · exact .inl ⟨hsign, Int.tmod_nonneg _ hsign, Int.tmod_lt_of_pos _ (by decide)⟩
  · have hneg : (-micros).tmod 1000000 = -micros.tmod 1000000 := Int.neg_tmod _ _
    have hlow := Int.tmod_nonneg (a := -micros) 1000000 (by omega)
    have hhigh := Int.tmod_lt_of_pos (-micros) (show (0 : Int) < 1000000 by decide)
    exact .inr ⟨by omega, by omega, by omega⟩

/-- The cast keeps a part that is not negative. -/
theorem part_kept {sub_micros : Int} (hlow : 0 ≤ sub_micros) (hhigh : sub_micros < 1000000) :
    ((sub_micros * 1000 % 2 ^ 32).toNat : Int) = sub_micros * 1000 := by
  omega

/-- A negative part becomes more than two seconds. -/
theorem part_wraps {sub_micros : Int} (hlow : -1000000 < sub_micros) (hneg : sub_micros < 0) :
    2000000000 ≤ (sub_micros * 1000 % 2 ^ 32).toNat := by
  have hwraps : sub_micros * 1000 % 2 ^ 32 = sub_micros * 1000 + 2 ^ 32 := by
    rw [← Int.add_emod_right]
    exact Int.emod_eq_of_lt (by omega) (by omega)
  omega

/-- **What the conversion makes of a count**: the instant itself, or the epoch. -/
theorem micros_to_naive_cases (micros : Int) :
    (Converts micros ∧ micros_to_naive micros = .of_micros micros) ∨
      (¬ Converts micros ∧ micros_to_naive micros = ⟨0⟩) := by
  obtain ⟨hsum, hparts⟩ := micros_parts micros
  simp only [micros_to_naive, DateTime.from_timestamp]
  generalize micros.tdiv 1000000 = secs at hsum ⊢
  generalize micros.tmod 1000000 = sub_micros at hsum hparts ⊢
  by_cases hpart : 0 ≤ sub_micros
  · have hhigh : sub_micros < 1000000 := by omega
    have hkept := part_kept hpart hhigh
    generalize (sub_micros * 1000 % 2 ^ 32).toNat = nanos at hkept ⊢
    by_cases hrange : DateTime.MIN_SECS ≤ secs ∧ secs ≤ DateTime.MAX_SECS
    · refine .inl ⟨⟨by omega, by omega, by omega⟩, ?_⟩
      rw [if_pos ⟨hrange.1, hrange.2, .inl (by omega)⟩, Option.getD_some, DateTime.of_micros]
      exact congrArg DateTime.mk (by omega)
    · refine .inr ⟨?_, ?_⟩
      · rintro ⟨-, first, last⟩
        exact hrange ⟨by omega, by omega⟩
      · rw [if_neg fun h => hrange ⟨h.1, h.2.1⟩, Option.getD_none]
  · have hlow : -1000000 < sub_micros := by omega
    have hwraps := part_wraps hlow (not_le.mp hpart)
    generalize (sub_micros * 1000 % 2 ^ 32).toNat = nanos at hwraps ⊢
    refine .inr ⟨?_, ?_⟩
    · rintro ⟨hwhole, -, -⟩
      omega
    · rw [if_neg, Option.getD_none]
      rintro ⟨-, -, hsmall | hleap⟩ <;> omega

/-! ## The query -/

variable {json_text : String → Option String}

/-- The cursor is used as encoded, or refused: an INVALID_ARGUMENT, or one SELECT at its place. -/
def UsesCursor (place : Int × Uuid) (prog : Async StatementPage) : Prop :=
  (∃ message, prog = .raise (.InvalidArgument message)) ∨
    ∃ query next, prog = sql (.select_statement query) >>= next ∧ query.cursor = some place

/-- The range that `get_statement` checks. -/
def LimitRefused (limit : UInt32) : Prop := limit = 0 ∨ limit > 100

/-- **When a cursor is used as encoded**: if and only if its count converts, or the limit is
refused. -/
theorem cursor_used_iff (json_text : String → Option String) (account_id : Uuid)
    (currency : Option String) (cursor : String) (limit : UInt32) (from_time to_time : Option DateTime)
    (micros : Int) (id : Uuid) (decoded : decode_cursor cursor = .ok (micros, id)) :
    UsesCursor (micros, id)
        (get_statement json_text account_id currency (some cursor) limit from_time to_time) ↔
      LimitRefused limit ∨ Converts micros := by
  by_cases hlimit : limit = 0 ∨ limit > 100
  · refine ⟨fun _ => .inl hlimit, fun _ => .inl ⟨"limit must be between 1 and 100", ?_⟩⟩
    simp only [get_statement, hlimit, ↓reduceIte]
    rfl
  · have hread : read_cursor (some cursor) = .ret (some (micros, id)) := by
      simp only [read_cursor, decoded]
    have hprog : ∃ next, get_statement json_text account_id currency (some cursor) limit from_time
        to_time = sql (.select_statement (StatementFilter.query
          { account_id, currency, from_time, to_time } (some (micros, id)) (limit + 1).toNat)) >>=
            next := by
      simp only [get_statement, hlimit, ↓reduceIte, hread]
      exact ⟨_, rfl⟩
    obtain ⟨next, hprog⟩ := hprog
    rw [hprog]
    have hplace : ((micros_to_naive micros).bind = micros) ↔ Converts micros := by
      rcases micros_to_naive_cases micros with ⟨hconverts, heq⟩ | ⟨hconverts, heq⟩
      · rw [heq]
        exact iff_of_true (DateTime.timestamp_micros_of_micros micros) hconverts
      · rw [heq]
        refine iff_of_false ?_ hconverts
        rintro rfl
        exact hconverts (by decide)
    constructor
    · rintro (⟨message, hraise⟩ | ⟨query, next', hsql, hcursor⟩)
      · cases hraise
      · obtain rfl := Sql.select_statement.inj (Op.sql.inj (Prog.await.inj hsql).1)
        exact .inr (hplace.mp (congrArg Prod.fst (Option.some.inj hcursor)))
    · rintro (hrefused | hconverts)
      · exact absurd hrefused hlimit
      · refine .inr ⟨_, next, rfl, ?_⟩
        exact congrArg (fun instant => some (instant, id)) (hplace.mpr hconverts)

/-! ## Two samples -/

/-- The cursor of an instant in November 2023. -/
theorem cursor_used_recent :
    UsesCursor (1700000000000000, .low 9) (get_statement some (.low 1) none
      (some (encode_cursor (.of_micros 1700000000000000) (.low 9))) 20 none none) :=
  (cursor_used_iff some (.low 1) none _ 20 none none _ _
    (decode_encode_cursor (.low 9) (by decide) (by decide))).mpr (.inr (by decide))

/-- The cursor of the microsecond before 1970 is used as one of 1970. -/
theorem cursor_used_before_epoch :
    ¬ ∀ (json_text : String → Option String) (account_id : Uuid) (currency : Option String)
      (cursor : String) (limit : UInt32) (from_time to_time : Option DateTime) (micros : Int)
      (id : Uuid), decode_cursor cursor = .ok (micros, id) → UsesCursor (micros, id)
        (get_statement json_text account_id currency (some cursor) limit from_time to_time) := by
  intro claim
  have decoded : decode_cursor (encode_cursor (.of_micros (-1)) (.low 9)) = .ok (-1, .low 9) :=
    decode_encode_cursor (.low 9) (by decide) (by decide)
  have hread : read_cursor (some (encode_cursor (.of_micros (-1)) (.low 9))) =
      .ret (some (-1, .low 9)) := by
    simp only [read_cursor, decoded]
  have hused := claim some (.low 1) none _ 20 none none _ _ decoded
  simp only [get_statement, hread] at hused
  rcases hused with ⟨_, hraise⟩ | ⟨query, _, hsql, hcursor⟩
  · cases hraise
  · obtain rfl := Sql.select_statement.inj (Op.sql.inj (Prog.await.inj hsql).1)
    exact absurd (congrArg Prod.fst (Option.some.inj hcursor)) (by decide)

end Kova.Ledger

import Mathlib.Data.List.Basic

/-!
# Comparing text columns

A text column is compared under its collation: two strings are the same when they have the same
sort key. `Collation` holds what the schemas' utf8mb4_unicode_ci promises of its keys: trailing
spaces do not count (PAD SPACE), and two strings of capital Latin letters are the same only when
they are equal. Nothing else of the collation is assumed, so what is proved holds for it however
it treats case, accents and width. `ascii_ci` is such a collation, case-insensitive on ASCII.
-/

namespace Kova

/-- A string without the spaces at its end. -/
def trim_end (s : String) : List Char := (s.toList.reverse.dropWhile (· == ' ')).reverse

structure Collation where
  sortKey : String → List Nat
  /-- PAD SPACE. -/
  pad : ∀ s t, trim_end s = trim_end t → sortKey s = sortKey t
  /-- Capital Latin letters have different primary weights. -/
  capitals : ∀ s t : String, s.toList.all Char.isUpper → t.toList.all Char.isUpper →
    sortKey s = sortKey t → s = t

namespace Collation

/-- The equality of a unique index and of `=`. -/
def same (coll : Collation) (s t : String) : Prop := coll.sortKey s = coll.sortKey t

instance (coll : Collation) (s t : String) : Decidable (coll.same s t) :=
  inferInstanceAs (Decidable (_ = _))

theorem same_refl (coll : Collation) (s : String) : coll.same s s := rfl

theorem same_symm {coll : Collation} {s t : String} (h : coll.same s t) : coll.same t s := h.symm

theorem same_trans {coll : Collation} {s t u : String} (h : coll.same s t) (h' : coll.same t u) :
    coll.same s u := h.trans h'

/-- Storing in VARCHAR(n): up to `n` characters; a longer string is an error unless only
trailing spaces are too many, which are cut off. -/
def varchar (n : Nat) (s : String) : Option String :=
  if s.length ≤ n then some s
  else if (s.toList.drop n).all (· == ' ') then some (String.ofList (s.toList.take n))
  else none

/-- What is stored compares equal to what was sent. -/
theorem same_varchar (coll : Collation) {n : Nat} {s t : String} (h : varchar n s = some t) :
    coll.same s t := by
  unfold varchar at h
  split at h
  · cases h
    exact coll.same_refl s
  · split at h
    · next hspaces =>
      cases h
      apply coll.pad
      have tail : ∀ c ∈ (s.toList.drop n).reverse, (c == ' ') = true := fun c hc =>
        List.all_eq_true.mp hspaces c (List.mem_reverse.mp hc)
      unfold trim_end
      rw [String.toList_ofList]
      conv_lhs => rw [← List.take_append_drop n s.toList]
      rw [List.reverse_append, List.dropWhile_append_of_pos tail]
    · cases h

end Collation

/-- Capital letters end in no space. -/
theorem trim_end_of_isUpper {s : String} (h : s.toList.all Char.isUpper) :
    trim_end s = s.toList := by
  unfold trim_end
  cases hr : s.toList.reverse with
  | nil => simpa using hr.symm
  | cons c cs =>
    have mem : c ∈ s.toList := List.mem_reverse.mp (hr ▸ List.mem_cons_self)
    have upper := List.all_eq_true.mp h c mem
    have space : ¬ (c == ' ') = true := by
      intro hc
      rw [beq_iff_eq.mp hc] at upper
      exact absurd upper (by decide)
    rw [List.dropWhile_cons, if_neg space, ← hr, List.reverse_reverse]

theorem toUpper_of_isUpper {c : Char} (h : c.isUpper) : c.toUpper = c := by
  have upper : c.val ≥ 'A'.val ∧ c.val ≤ 'Z'.val := of_decide_eq_true h
  have low : ¬ ('a'.val ≤ c.val ∧ c.val ≤ 'z'.val) := fun hlow =>
    absurd (UInt32.le_trans hlow.1 upper.2) (by decide)
  exact dif_neg low

/-- ASCII letters without their case, trailing spaces dropped. -/
def ascii_ci : Collation where
  sortKey s := (trim_end s).map fun c => c.toUpper.toNat
  pad s t h := by rw [h]
  capitals s t hs ht h := by
    have keep : ∀ u : String, u.toList.all Char.isUpper →
        (trim_end u).map (fun c => c.toUpper.toNat) = u.toList.map Char.toNat := by
      intro u hu
      rw [trim_end_of_isUpper hu]
      exact List.map_congr_left fun c hc => by
        rw [toUpper_of_isUpper (List.all_eq_true.mp hu c hc)]
    rw [keep s hs, keep t ht] at h
    exact String.toList_injective (List.map_injective_iff.mpr (fun _ _ => Char.toNat_inj.mp) h)

end Kova

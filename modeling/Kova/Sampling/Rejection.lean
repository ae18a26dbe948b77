import Mathlib.Data.Int.CardIntervalMod

/-!
# Rejection sampling

A loop that draws until a draw is accepted, and makes the result of that one (`loop`). It returns
the result of the first accepted draw, whatever comes after it (`loop_accepted`), and goes on as
long as there is none (`loop_rejected`). Where the draws below a multiple of `m` are accepted and
reduced modulo `m`, every residue comes from equally many of them (`card_residue`).
-/

set_option autoImplicit false

namespace Rejection

variable {α β : Type} {accept : α → Bool} {make : α → β}

section Loop

variable (accept : α → Bool) (make : α → β)

/-- The loop on the draws that come one after another. `none` among them is a draw that fails, which
ends the loop without a result; the outer `none` is a loop that goes on drawing. -/
def loop : List (Option α) → Option (Option β)
  | [] => none
  | none :: _ => some none
  | some a :: rest => if accept a then some (some (make a)) else loop rest

end Loop

theorem loop_rejected_append {before : List α} (hbefore : ∀ a ∈ before, accept a = false)
    (rest : List (Option α)) :
    loop accept make (before.map some ++ rest) = loop accept make rest := by
  induction before with
  | nil => rfl
  | cons a before ih =>
    rw [List.map_cons, List.cons_append, loop, hbefore a List.mem_cons_self]
    exact ih fun b hb => hbefore b (List.mem_cons_of_mem _ hb)

/-- **The first accepted draw decides.** -/
theorem loop_accepted {before : List α} {a : α} (hbefore : ∀ b ∈ before, accept b = false)
    (ha : accept a = true) (after : List (Option α)) :
    loop accept make (before.map some ++ some a :: after) = some (some (make a)) := by
  rw [loop_rejected_append hbefore, loop, if_pos ha]

/-- Without one the loop goes on. -/
theorem loop_rejected {draws : List α} (h : ∀ a ∈ draws, accept a = false) :
    loop accept make (draws.map some) = none := by
  rw [← List.append_nil (draws.map some), loop_rejected_append h, loop]

/-- A loop whose draws fail in the end is a search. -/
theorem loop_find (draws : List α) :
    loop accept make (draws.map some ++ [none]) = some ((draws.find? accept).map make) := by
  induction draws with
  | nil => rfl
  | cons a draws ih =>
    rw [List.map_cons, List.cons_append, loop, List.find?_cons]
    cases accept a with
    | true => rfl
    | false => exact ih

/-- **No residue is preferred**: below a multiple of the modulus each comes equally often. -/
theorem card_residue {m : Nat} (hm : 0 < m) (q : Nat) {r : Nat} (hr : r < m) :
    ((Finset.range (m * q)).filter fun n => n % m = r).card = q := by
  have hcount := Nat.count_modEq_card (m * q) hm r
  rw [Nat.count_eq_card_filter_range, Nat.mul_mod_right, Nat.mul_div_cancel_left q hm,
    if_neg (Nat.not_lt_zero _), Nat.add_zero] at hcount
  have hresidue : ∀ n, n ≡ r [MOD m] ↔ n % m = r := by
    intro n
    rw [Nat.ModEq, Nat.mod_eq_of_lt hr]
  simpa only [hresidue] using hcount

end Rejection

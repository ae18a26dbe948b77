import Mathlib.Data.List.Basic

/-!
# The events a state machine accepts

A machine that answers an event with its next state, or refuses it and stays where it is. A list of
events leaves it in one state (`reached`), and some of them have been accepted (`accepted`): they
are a `Path` of steps to that state. What the empty path has and each step keeps, every path has
(`Path.keeps`); what stands anywhere in a path splits it there (`Path.at_event`).
-/

set_option autoImplicit false

namespace Conc

variable {S E ε : Type}

section Accepting

variable (step : S → E → Except ε S)

/-- The state after the events, one after another. -/
def reached : S → List E → S
  | s, [] => s
  | s, e :: es =>
    match step s e with
    | .ok s' => reached s' es
    | .error _ => reached s es

/-- Those of the events that are not refused. -/
def accepted : S → List E → List E
  | _, [] => []
  | s, e :: es =>
    match step s e with
    | .ok s' => e :: accepted s' es
    | .error _ => accepted s es

/-- The events of the list, none of them refused. -/
inductive Path : S → List E → S → Prop
  | nil (s : S) : Path s [] s
  | cons {s s' d : S} {e : E} {h : List E} (hstep : step s e = .ok s') (hrest : Path s' h d) :
    Path s (e :: h) d

end Accepting

variable {step : S → E → Except ε S} {s a b d : S} {h h' : List E} {e : E}

theorem path_accepted (step : S → E → Except ε S) :
    ∀ (s : S) (es : List E), Path step s (accepted step s es) (reached step s es)
  | s, [] => .nil s
  | s, e :: es => by
    rw [accepted, reached]
    cases hstep : step s e with
    | ok s' => exact .cons hstep (path_accepted step s' es)
    | error x => exact path_accepted step s es

theorem accepted_append (step : S → E → Except ε S) :
    ∀ (s : S) (es fs : List E),
      accepted step s (es ++ fs) = accepted step s es ++ accepted step (reached step s es) fs
  | s, [], fs => rfl
  | s, e :: es, fs => by
    rw [List.cons_append, accepted, accepted, reached]
    cases step s e with
    | ok s' => exact congrArg (e :: ·) (accepted_append step s' es fs)
    | error x => exact accepted_append step s es fs

/-- A path is what is accepted as it is. -/
theorem path_iff_accepted : Path step s h d ↔ accepted step s h = h ∧ reached step s h = d := by
  constructor
  · intro hpath
    induction hpath with
    | nil s => exact ⟨rfl, rfl⟩
    | cons hstep _ ih =>
      rw [accepted, reached, hstep]
      exact ⟨congrArg _ ih.1, ih.2⟩
  · rintro ⟨hwhole, rfl⟩
    have hpath := path_accepted step s h
    rw [hwhole] at hpath
    exact hpath

theorem Path.append (hpath : Path step s h a) (hrest : Path step a h' d) :
    Path step s (h ++ h') d := by
  induction hpath with
  | nil s => exact hrest
  | cons hstep _ ih => exact .cons hstep (ih hrest)

/-- The same event any number of times, where it leads back. -/
theorem Path.replicate (hstep : step s e = .ok s) : ∀ n, Path step s (List.replicate n e) s
  | 0 => .nil s
  | n + 1 => .cons hstep (Path.replicate hstep n)

/-- **An event of a path**: the path to it, its step, and the path from it. -/
theorem Path.at_event (hpath : Path step s (h ++ e :: h') d) :
    ∃ a b, Path step s h a ∧ step a e = .ok b ∧ Path step b h' d := by
  induction h generalizing s with
  | nil =>
    cases hpath with
    | cons hstep hrest => exact ⟨s, _, .nil s, hstep, hrest⟩
  | cons x h ih =>
    cases hpath with
    | cons hstep hrest =>
      obtain ⟨a, b, hbefore, hevent, hafter⟩ := ih hrest
      exact ⟨a, b, .cons hstep hbefore, hevent, hafter⟩

/-- **The invariant rule**: what holds of the start and the empty history, and is kept by each
step, holds at the end of every path. -/
theorem Path.keeps {I : S → List E → Prop}
    (keep : ∀ a b e h, I a h → step a e = .ok b → I b (h ++ [e])) (hpath : Path step s h d) :
    ∀ {past : List E}, I s past → I d (past ++ h) := by
  induction hpath with
  | nil s =>
    intro past hpast
    exact (List.append_nil past).symm ▸ hpast
  | @cons s s' d e h hstep _ ih =>
    intro past hpast
    rw [List.append_cons]
    exact ih (keep s s' e past hpast hstep)

/-- Where nothing is accepted, no path leads on. -/
theorem Path.of_stuck (stuck : ∀ e b, step s e ≠ .ok b) (hpath : Path step s h d) : h = [] := by
  cases hpath with
  | nil => rfl
  | cons hstep _ => exact absurd hstep (stuck _ _)

end Conc

import Mathlib.Data.Option.Basic
import Kova.Conc.Serial

/-!
# Two runs with the same moves

The same calls over two stores that differ. A program is `Blind` to the difference if each of its
operations, wherever it comes to it, answers alike on both stores and leaves them related; and it
does nothing but what it is `allowed` to. When every call is blind, the two runs move together, and
their calls stand where they stand in the other (`replay_together`).
-/

set_option autoImplicit false

namespace Conc

variable {σ Req Op Ch En ε α β : Type} {Res : Op → Type}

section Blind

variable (M : Machine σ Op Res Ch En) (R : σ → σ → Prop) (allowed : Op → Prop)

/-- **A program is blind** to what `R` lets differ. -/
def Blind : Prog Op Res ε α → Prop
  | .await op next => allowed op ∧ ∀ t ch s s', R s s' →
      Option.Rel (fun x y => x.1 = y.1 ∧ R x.2 y.2 ∧ Blind (next x.1))
        (M.exec t ch s op) (M.exec t ch s' op)
  | _ => True

/-- Two configurations with the same calls, all blind, over related stores. -/
structure Together (c c' : Conf σ Req Op Res ε α) : Prop where
  pool : c.pool = c'.pool
  stores : R c.world.store c'.world.store
  blind : ∀ call ∈ c.pool, Blind M R allowed call.prog
  log : ∀ e ∈ c.world.log, allowed e.op

end Blind

variable {M : Machine σ Op Res Ch En} {R : σ → σ → Prop} {allowed : Op → Prop}
  {body : Req → Prog Op Res ε α} {c c' : Conf σ Req Op Res ε α}

/-- One move of both. -/
theorem Together.step (h : Together M R allowed c c')
    (outside : ∀ o s s', R s s' → Option.Rel R (M.env o s) (M.env o s')) {l : Label Req Ch En}
    (arrives : ∀ req, l = .spawn req → Blind M R allowed (body req)) :
    Option.Rel (Together M R allowed) (step M body c l) (step M body c' l) := by
  obtain ⟨world, pool⟩ := c
  obtain ⟨world', pool'⟩ := c'
  obtain rfl : pool = pool' := h.pool
  cases l with
  | spawn req =>
    refine .some ⟨rfl, h.stores, ?_, h.log⟩
    intro call hcall
    rcases List.mem_append.mp hcall with hcall | hcall
    · exact h.blind call hcall
    · exact List.mem_singleton.mp hcall ▸ arrives req rfl
  | run t ch =>
    simp only [Conc.step]
    cases hcall : pool[t]? with
    | none => exact .none
    | some call =>
      dsimp only
      split
      · exact .none
      · have hblind := h.blind call (List.mem_of_getElem? hcall)
        cases hprog : call.prog with
        | ret a => exact .none
        | raise e => exact .none
        | await op next =>
          rw [hprog] at hblind
          have both := hblind.2 t ch _ _ h.stores
          dsimp only
          generalize M.exec t ch world.store op = x at both
          generalize M.exec t ch world'.store op = y at both
          cases both with
          | none => exact .none
          | @some x y hxy =>
            obtain ⟨r, s⟩ := x
            obtain ⟨r', s'⟩ := y
            obtain ⟨rfl, hR, hnext⟩ := hxy
            refine .some ⟨rfl, hR, ?_, ?_⟩
            · intro call' hcall'
              rcases List.mem_or_eq_of_mem_set hcall' with hcall' | rfl
              · exact h.blind call' hcall'
              · exact hnext
            · intro e he
              rcases List.mem_append.mp he with he | he
              · exact h.log e he
              · exact List.mem_singleton.mp he ▸ hblind.1
  | drop t =>
    simp only [Conc.step]
    cases hcall : pool[t]? with
    | none => exact .none
    | some call =>
      dsimp only
      split
      · exact .none
      · refine .some ⟨rfl, h.stores, ?_, h.log⟩
        intro call' hcall'
        rcases List.mem_or_eq_of_mem_set hcall' with hcall' | rfl
        · exact h.blind call' hcall'
        · exact h.blind call (List.mem_of_getElem? hcall)
  | env o =>
    have both := outside o _ _ h.stores
    simp only [Conc.step]
    generalize M.env o world.store = x at both
    generalize M.env o world'.store = y at both
    cases both with
    | none => exact .none
    | some hR => exact .some ⟨rfl, hR, h.blind, h.log⟩

/-- **Two runs with the same moves** go together, if every call that arrives is blind. -/
theorem replay_together (outside : ∀ o s s', R s s' → Option.Rel R (M.env o s) (M.env o s')) :
    ∀ {ls : List (Label Req Ch En)} {c c' : Conf σ Req Op Res ε α}, Together M R allowed c c' →
      (∀ req, .spawn req ∈ ls → Blind M R allowed (body req)) →
        Option.Rel (Together M R allowed) (replay M body c ls) (replay M body c' ls)
  | [], _, _, h, _ => .some h
  | l :: ls, c, c', h, arrive => by
    have both : Option.Rel (Together M R allowed) (step M body c l) (step M body c' l) :=
      h.step outside fun req hl => arrive req (hl ▸ List.mem_cons_self)
    simp only [replay]
    generalize step M body c l = x at both
    generalize step M body c' l = y at both
    cases both with
    | none => exact .none
    | some h' =>
      refine replay_together outside h' ?_
      intro req hreq
      exact arrive req (List.mem_cons_of_mem _ hreq)

/-- The same calls, in both or in neither. -/
theorem pool_eq_of_together {x y : Option (Conf σ Req Op Res ε α)}
    (h : Option.Rel (Together M R allowed) x y) : x.map (·.pool) = y.map (·.pool) := by
  cases h with
  | none => rfl
  | some h => exact congrArg some h.pool

end Conc

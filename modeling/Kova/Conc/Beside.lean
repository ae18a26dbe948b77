import Kova.Conc.Pool

/-!
# Two services side by side

Two pools, each over a store of its own. The first moves as it may by itself. What happens to the
second may depend on what the first has done so far: a request may present what the first service
has handed out. In any interleaving of their moves each pool has a run of its own
(`Beside.first_run`, `Beside.second_run`), and what a request had from the first service when it
arrived, and the first service does not take back, its call has to the end (`Beside.granted`).
-/

set_option autoImplicit false

namespace Conc

variable {σ σ' Req Req' Op Op' Ch Ch' En En' ε ε' α α' : Type} {Res : Op → Type}
  {Res' : Op' → Type}

section

variable (M : Machine σ Op Res Ch En) (body : Req → Prog Op Res ε α)
  (P : Conf σ Req Op Res ε α → Label Req Ch En → Conf σ Req Op Res ε α → Prop)
  (M' : Machine σ' Op' Res' Ch' En') (body' : Req' → Prog Op' Res' ε' α')
  (allowed : Conf σ Req Op Res ε α → Label Req' Ch' En' → Prop)

/-- The runs of two services side by side. -/
inductive Beside (c₀ : Conf σ Req Op Res ε α) (c₀' : Conf σ' Req' Op' Res' ε' α') :
    List (Label Req Ch En) → Conf σ Req Op Res ε α → List (Label Req' Ch' En') →
      Conf σ' Req' Op' Res' ε' α' → Prop
  | start : Beside c₀ c₀' [] c₀ [] c₀'
  | first {ls : List (Label Req Ch En)} {c d : Conf σ Req Op Res ε α}
      {ls' : List (Label Req' Ch' En')} {c' : Conf σ' Req' Op' Res' ε' α'} {l : Label Req Ch En} :
      Beside c₀ c₀' ls c ls' c' → step M body c l = some d → P c l d →
        Beside c₀ c₀' (ls ++ [l]) d ls' c'
  | second {ls : List (Label Req Ch En)} {c : Conf σ Req Op Res ε α}
      {ls' : List (Label Req' Ch' En')} {c' d' : Conf σ' Req' Op' Res' ε' α'}
      {l' : Label Req' Ch' En'} :
      Beside c₀ c₀' ls c ls' c' → allowed c l' → step M' body' c' l' = some d' →
        Beside c₀ c₀' ls c (ls' ++ [l']) d'

end

variable {M : Machine σ Op Res Ch En} {body : Req → Prog Op Res ε α}
  {P : Conf σ Req Op Res ε α → Label Req Ch En → Conf σ Req Op Res ε α → Prop}
  {M' : Machine σ' Op' Res' Ch' En'} {body' : Req' → Prog Op' Res' ε' α'}
  {allowed : Conf σ Req Op Res ε α → Label Req' Ch' En' → Prop}
  {c₀ c : Conf σ Req Op Res ε α} {c₀' c' d' : Conf σ' Req' Op' Res' ε' α'}
  {ls : List (Label Req Ch En)} {ls' ms' : List (Label Req' Ch' En')}

/-- The first service runs as it does by itself. -/
theorem Beside.first_run (h : Beside M body P M' body' allowed c₀ c₀' ls c ls' c') :
    RunWhere M body P c₀ ls c := by
  induction h with
  | start => exact .nil _
  | first _ hstep hok ih => exact .snoc ih hstep hok
  | second _ _ _ ih => exact ih

/-- The second does nothing that it could not do by itself. -/
theorem Beside.second_run (h : Beside M body P M' body' allowed c₀ c₀' ls c ls' c') :
    Run M' body' .all c₀' ls' c' := by
  induction h with
  | start => exact .nil _
  | first _ _ _ ih => exact ih
  | @second ls c ls' c' d' l' _ _ hstep ih =>
    refine .snoc ih ?_ hstep
    cases l' <;> simp [Scope.allows, Scope.all]

/-- **What is granted stays granted**: what a request has when it arrives, and each move of the
first service leaves it, its call has, and had at each of its operations. -/
theorem Beside.granted {G : Conf σ Req Op Res ε α → Req' → Prop} {s' : σ'}
    (grant : ∀ c req, allowed c (.spawn req) → G c req)
    (stays : ∀ {c d l}, step M body c l = some d → ∀ req, G c req → G d req)
    (h : Beside M body P M' body' allowed c₀ (.init s') ls c ls' c') :
    (∀ call ∈ c'.pool, G c call.req) ∧ ∀ e ∈ c'.world.log, G c e.req := by
  induction h with
  | start =>
    refine ⟨?_, ?_⟩
    · intro call hcall
      cases hcall
    · intro e he
      cases he
  | first _ hstep _ ih =>
    exact ⟨fun call hcall => stays hstep _ (ih.1 call hcall),
      fun e he => stays hstep _ (ih.2 e he)⟩
  | @second ls c ls' c' d' l' _ hallowed hstep ih =>
    obtain ⟨calls, events⟩ := ih
    have updated : ∀ {t : Nat} {call : Call Req' Op' Res' ε' α'}
        (call' : Call Req' Op' Res' ε' α'), c'.pool[t]? = some call → call'.req = call.req →
          ∀ x ∈ c'.pool.set t call', G c x.req := by
      intro t call call' hcall hreq x hx
      rcases List.mem_or_eq_of_mem_set hx with hx | rfl
      · exact calls x hx
      · exact hreq ▸ calls call (List.mem_of_getElem? hcall)
    rcases step_cases hstep with ⟨req, rfl, rfl⟩ |
      ⟨t, ch, call, op, next, r, s, _, hcall, _, _, _, rfl⟩ | ⟨t, call, _, hcall, rfl⟩ |
      ⟨o, s, _, _, rfl⟩
    · refine ⟨?_, events⟩
      intro call hcall
      rcases List.mem_append.mp hcall with hcall | hcall
      · exact calls call hcall
      · obtain rfl := List.mem_singleton.mp hcall
        exact grant c req hallowed
    · refine ⟨updated _ hcall rfl, ?_⟩
      intro e he
      rcases List.mem_append.mp he with he | he
      · exact events e he
      · obtain rfl := List.mem_singleton.mp he
        exact calls call (List.mem_of_getElem? hcall)
    · exact ⟨updated _ hcall rfl, events⟩
    · exact ⟨calls, events⟩

/-! ## One after the other -/

/-- The first service alone. -/
theorem RunWhere.beside (h : RunWhere M body P c₀ ls c) :
    Beside M body P M' body' allowed c₀ c₀' ls c [] c₀' := by
  induction h with
  | nil => exact .start
  | snoc _ hstep hok ih => exact .first ih hstep hok

/-- Then the second, where each of its moves is allowed. -/
theorem Beside.then (h : Beside M body P M' body' allowed c₀ c₀' ls c ls' c')
    (hrest : Run M' body' .all c' ms' d') (hallowed : ∀ l' ∈ ms', allowed c l') :
    Beside M body P M' body' allowed c₀ c₀' ls c (ls' ++ ms') d' := by
  induction hrest with
  | nil => simpa using h
  | snoc _ _ hstep ih =>
    rw [← List.append_assoc]
    exact .second (ih fun l' hl' => hallowed l' (List.mem_append_left _ hl'))
      (hallowed _ (List.mem_append_right _ List.mem_cons_self)) hstep

end Conc

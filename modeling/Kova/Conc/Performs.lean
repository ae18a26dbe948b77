import Mathlib.Logic.Relation
import Kova.Conc.History

/-!
# A program, and the outside

A program executed while no call moves: before each of its operations the outside may have moved
(`Performs`). Each step is kept with its choice and with the stores around it (`Taken`), so that
what failed, and in which state, can be read off.

Such an execution is one of the pool (`Performs.reachable`), a guarded program executes guarded
steps (`Performs.guarded`), and a preorder of stores that the outside and every step follow relates
its two ends (`Performs.relates`).
-/

set_option autoImplicit false

namespace Conc

variable {σ Req Op Ch En ε α β : Type} {Res : Op → Type}

/-- One executed operation with the choice it was executed with. -/
structure Taken (σ Op : Type) (Res : Op → Type) (Ch : Type) where
  choice : Ch
  op : Op
  pre : σ
  res : Res op
  post : σ

/-- What a step says of its program. -/
def Taken.did (y : Taken σ Op Res Ch) : Done Op Res := ⟨y.op, y.res⟩

/-- The outside moves from one store to another. -/
def Machine.Drifts (M : Machine σ Op Res Ch En) : σ → σ → Prop :=
  Relation.ReflTransGen fun s s' => ∃ o, M.env o s = some s'

/-- **What a program executes** as task `t`, and what is left of it. -/
inductive Performs (M : Machine σ Op Res Ch En) (t : Nat) :
    Prog Op Res ε α → σ → List (Taken σ Op Res Ch) → Prog Op Res ε α → σ → Prop
  | rest {p : Prog Op Res ε α} {s s' : σ} : M.Drifts s s' → Performs M t p s [] p s'
  | next {op : Op} {next : Res op → Prog Op Res ε α} {s s₀ s₁ s' : σ} {ch : Ch} {r : Res op}
      {steps : List (Taken σ Op Res Ch)} {p : Prog Op Res ε α} :
      M.Drifts s s₀ → M.exec t ch s₀ op = some (r, s₁) → Performs M t (next r) s₁ steps p s' →
        Performs M t (.await op next) s (⟨ch, op, s₀, r, s₁⟩ :: steps) p s'

variable {M : Machine σ Op Res Ch En} {body : Req → Prog Op Res ε α} {t : Nat} {s s' : σ}
  {p p' : Prog Op Res ε α} {steps : List (Taken σ Op Res Ch)}

/-- A program that came to its end executed its first operation. -/
theorem Performs.first {op : Op} {next : Res op → Prog Op Res ε α}
    (h : Performs M t (.await op next) s steps p s') (hp : p.finished = true) :
    ∃ ch s₀ r s₁ rest, steps = ⟨ch, op, s₀, r, s₁⟩ :: rest ∧ M.Drifts s s₀ ∧
      M.exec t ch s₀ op = some (r, s₁) ∧ Performs M t (next r) s₁ rest p s' := by
  cases h with
  | rest => cases hp
  | next drift hexec rest => exact ⟨_, _, _, _, _, rfl, drift, hexec, rest⟩

/-- A program that was at its end executed nothing. -/
theorem Performs.ended (h : Performs M t p s steps p' s') (hp : p.finished = true) :
    p' = p ∧ steps = [] ∧ M.Drifts s s' := by
  cases h with
  | rest drift => exact ⟨rfl, rfl, drift⟩
  | next => cases hp

/-- Every step was executed. -/
theorem Performs.executed (h : Performs M t p s steps p' s') :
    ∀ y ∈ steps, M.exec t y.choice y.pre y.op = some (y.res, y.post) := by
  induction h with
  | rest =>
    intro y hy
    cases hy
  | next _ hexec _ ih =>
    intro y hy
    rcases List.mem_cons.mp hy with rfl | hy
    · exact hexec
    · exact ih y hy

/-! ## What holds of the steps -/

/-- **A preorder that every step follows**, and that the outside follows, relates the two ends. -/
theorem Performs.relates {R : σ → σ → Prop} (refl : ∀ s, R s s)
    (trans : ∀ {s₁ s₂ s₃}, R s₁ s₂ → R s₂ s₃ → R s₁ s₃)
    (outside : ∀ {o s s'}, M.env o s = some s' → R s s')
    (h : Performs M t p s steps p' s') (each : ∀ y ∈ steps, R y.pre y.post) : R s s' := by
  have drifted : ∀ {s s'}, M.Drifts s s' → R s s' := by
    intro s s' drift
    induction drift with
    | refl => exact refl _
    | tail _ hmove ih =>
      obtain ⟨o, henv⟩ := hmove
      exact trans ih (outside henv)
  induction h with
  | rest drift => exact drifted drift
  | next drift _ _ ih =>
    have first := each _ List.mem_cons_self
    have later := ih fun y hy => each y (List.mem_cons_of_mem _ hy)
    exact trans (drifted drift) (trans first later)

/-- So does a preorder that every move of the machine follows. -/
theorem Performs.follows {R : σ → σ → Prop} (F : Follows M R)
    (h : Performs M t p s steps p' s') : R s s' :=
  h.relates F.refl F.trans F.env fun y hy => F.exec (h.executed y hy)

/-- The outside alone follows it. -/
theorem Follows.drifts {R : σ → σ → Prop} (F : Follows M R) (h : M.Drifts s s') : R s s' := by
  induction h with
  | refl => exact F.refl _
  | tail _ hmove ih =>
    obtain ⟨o, henv⟩ := hmove
    exact F.trans ih (F.env henv)

/-- **A guarded program** executes guarded operations, and its end answers what it executed. -/
theorem Performs.guarded {G : List (Done Op Res) → Op → Prop}
    {Q : List (Done Op Res) → Except ε α → Prop} (h : Performs M t p s steps p' s') :
    ∀ {done : List (Done Op Res)}, Guarded G Q p done →
      Guarded G Q p' (done ++ steps.map Taken.did) ∧ ∀ y ∈ steps, ∃ h', G h' y.op := by
  induction h with
  | rest =>
    intro done hg
    rw [List.map_nil, List.append_nil]
    refine ⟨hg, ?_⟩
    intro y hy
    cases hy
  | @next op next s s₀ s₁ s' ch r steps p _ _ _ ih =>
    intro done hg
    obtain ⟨last, each⟩ := ih (hg.2 r)
    rw [List.append_assoc] at last
    refine ⟨last, ?_⟩
    intro y hy
    rcases List.mem_cons.mp hy with rfl | hy
    · exact ⟨done, hg.1⟩
    · exact each y hy

/-! ## What is performed is a run -/

/-- A program that another goes on after performs the same. -/
theorem Performs.bind (h : Performs M t p s steps p' s') (f : α → Prog Op Res ε β) :
    Performs M t (p >>= f) s steps (p' >>= f) s' := by
  induction h with
  | rest drift => exact .rest drift
  | next drift hexec _ ih => exact .next drift hexec ih

/-- A program that handles what another raises performs the same. -/
theorem Performs.caught {ε' : Type} (h : Performs M t p s steps p' s') :
    Performs M t (p.caught : Prog Op Res ε' (Except ε α)) s steps p'.caught s' := by
  induction h with
  | rest drift => exact .rest drift
  | next drift hexec _ ih => exact .next drift hexec ih

/-- What is left of a program performs on. -/
theorem Performs.append {p'' : Prog Op Res ε α} {s'' : σ} {steps' : List (Taken σ Op Res Ch)}
    (h : Performs M t p s steps p' s') (h' : Performs M t p' s' steps' p'' s'') :
    Performs M t p s (steps ++ steps') p'' s'' := by
  induction h with
  | rest drift =>
    cases h' with
    | rest drift' => exact .rest (drift.trans drift')
    | next drift' hexec rest => exact .next (drift.trans drift') hexec rest
  | next drift hexec _ ih => exact .next drift hexec (ih h')

/-- The outside moves in a run. -/
theorem Machine.Drifts.run {c : Conf σ Req Op Res ε α} (h : M.Drifts c.world.store s) :
    ∃ ls, Run M body .all c ls { c with world := c.world.moved s } := by
  induction h with
  | refl => exact ⟨[], .nil c⟩
  | tail _ hmove ih =>
    obtain ⟨ls, hrun⟩ := ih
    obtain ⟨o, henv⟩ := hmove
    refine ⟨_, hrun.snoc (l := .env o) trivial ?_⟩
    simp only [step, World.moved_store, henv, Option.map_some]
    rfl

/-- **What a call of the pool performs is a run** of the pool. -/
theorem Performs.run (h : Performs M t p s steps p' s') :
    ∀ {c : Conf σ Req Op Res ε α} {call : Call Req Op Res ε α}, c.pool[t]? = some call →
      call.dropped = false → call.prog = p → c.world.store = s →
        ∃ ls d, Run M body .all c ls d ∧ d.world.store = s' := by
  induction h with
  | rest drift =>
    intro c call _ _ _ hs
    subst hs
    have moved : ∃ ls, Run M body .all c ls _ := drift.run
    obtain ⟨ls, hrun⟩ := moved
    exact ⟨ls, _, hrun, rfl⟩
  | @next op next s s₀ s₁ s' ch r steps p drift hexec _ ih =>
    intro c call hcall hdropped hprog hs
    subst hs
    have moved : ∃ ls, Run M body .all c ls { c with world := c.world.moved s₀ } := drift.run
    obtain ⟨ls, hmoved⟩ := moved
    have hstep : step M body { c with world := c.world.moved s₀ } (.run t ch) =
        some ⟨(c.world.moved s₀).push ⟨t, call.req, op, s₀, r, s₁⟩,
          c.pool.set t { call with prog := next r }⟩ := step_run hcall hdropped hprog hexec
    have hthere : (c.pool.set t { call with prog := next r })[t]? =
        some { call with prog := next r } :=
      List.getElem?_set_self (List.getElem?_eq_some_iff.mp hcall).1
    obtain ⟨ms, d, hrest, hd⟩ := ih
      (c := ⟨(c.world.moved s₀).push ⟨t, call.req, op, s₀, r, s₁⟩,
        c.pool.set t { call with prog := next r }⟩) hthere hdropped rfl rfl
    exact ⟨_, d, (hmoved.snoc (l := .run t ch) (fun _ _ _ _ _ => trivial) hstep).append hrest, hd⟩

/-- The log of that run, and the call at its end. -/
theorem Performs.logged (body : Req → Prog Op Res ε α) (h : Performs M t p s steps p' s') :
    ∀ {c : Conf σ Req Op Res ε α} {call : Call Req Op Res ε α}, c.pool[t]? = some call →
      call.dropped = false → call.prog = p → c.world.store = s →
        ∃ ls d new, Run M body .all c ls d ∧ d.world = ⟨s', c.world.log ++ new⟩ ∧
          new.map Event.did = steps.map Taken.did ∧
            d.pool = c.pool.set t { call with prog := p' } := by
  induction h with
  | rest drift =>
    intro c call hcall _ hprog hs
    subst hs
    subst hprog
    have moved : ∃ ls, Run M body .all c ls _ := drift.run
    obtain ⟨ls, hrun⟩ := moved
    obtain ⟨hlt, rfl⟩ := List.getElem?_eq_some_iff.mp hcall
    exact ⟨ls, _, [], hrun, by simp [World.moved], rfl, (List.set_getElem_self hlt).symm⟩
  | @next op next s s₀ s₁ s' ch r steps p drift hexec _ ih =>
    intro c call hcall hdropped hprog hs
    subst hs
    have moved : ∃ ls, Run M body .all c ls { c with world := c.world.moved s₀ } := drift.run
    obtain ⟨ls, hmoved⟩ := moved
    have hstep : step M body { c with world := c.world.moved s₀ } (.run t ch) =
        some ⟨(c.world.moved s₀).push ⟨t, call.req, op, s₀, r, s₁⟩,
          c.pool.set t { call with prog := next r }⟩ := step_run hcall hdropped hprog hexec
    have hthere : (c.pool.set t { call with prog := next r })[t]? =
        some { call with prog := next r } :=
      List.getElem?_set_self (List.getElem?_eq_some_iff.mp hcall).1
    obtain ⟨ms, d, new, hrest, hworld, hnew, hpool⟩ := ih
      (c := ⟨(c.world.moved s₀).push ⟨t, call.req, op, s₀, r, s₁⟩,
        c.pool.set t { call with prog := next r }⟩) hthere hdropped rfl rfl
    refine ⟨_, d, ⟨t, call.req, op, s₀, r, s₁⟩ :: new,
      (hmoved.snoc (l := .run t ch) (fun _ _ _ _ _ => trivial) hstep).append hrest, ?_, ?_, ?_⟩
    · rw [hworld]
      simp [World.push, World.moved]
    · rw [List.map_cons, List.map_cons, hnew]
      rfl
    · rw [hpool, List.set_set]

/-- Where the machine does not look at the task, any task performs the same. -/
theorem Performs.renamed (anyone : ∀ t t' ch s op, M.exec t ch s op = M.exec t' ch s op) (t' : Nat)
    (h : Performs M t p s steps p' s') : Performs M t' p s steps p' s' := by
  induction h with
  | rest drift => exact .rest drift
  | next drift hexec _ ih => exact .next drift ((anyone t' t _ _ _).trans hexec) ih

/-- **The store that a request's program leaves is reached** by a run. -/
theorem Performs.reachable {c : Conf σ Req Op Res ε α} {ls : List (Label Req Ch En)} {s₀ : σ}
    (anyone : ∀ t t' ch s op, M.exec t ch s op = M.exec t' ch s op)
    (hrun : Run M body .all (.init s₀) ls c) {req : Req}
    (h : Performs M t (body req) c.world.store steps p' s') :
    ∃ ms d, Run M body .all (.init s₀) ms d ∧ d.world.store = s' := by
  have arrival : Run M body .all (.init s₀) (ls ++ [.spawn req])
      { c with pool := c.pool ++ [{ req, prog := body req }] } := hrun.snoc trivial rfl
  have rest : ∃ ms d, Run M body .all { c with pool := c.pool ++ [{ req, prog := body req }] } ms
      d ∧ d.world.store = s' :=
    (h.renamed anyone c.pool.length).run (List.getElem?_concat_length ..) rfl rfl rfl
  obtain ⟨ms, d, hrest, hd⟩ := rest
  exact ⟨_, d, arrival.append hrest, hd⟩

/-! ## Executing one -/

/-- A program executed with these choices in turn, while the outside rests. -/
def Machine.perform (M : Machine σ Op Res Ch En) (t : Nat) : List Ch → Prog Op Res ε α → σ →
    Option (List (Taken σ Op Res Ch) × Prog Op Res ε α × σ)
  | ch :: chs, .await op next, s => (M.exec t ch s op).bind fun (r, s₁) =>
    (M.perform t chs (next r) s₁).map fun (steps, p, s') => (⟨ch, op, s, r, s₁⟩ :: steps, p, s')
  | _, p, s => some ([], p, s)

/-- What `perform` executes is performed. -/
theorem performs_of_perform : ∀ {chs : List Ch} {p : Prog Op Res ε α} {s : σ}
    {steps : List (Taken σ Op Res Ch)}, M.perform t chs p s = some (steps, p', s') →
      Performs M t p s steps p' s'
  | [], p, s, steps, h => by
    rw [Machine.perform] at h
    · cases h
      exact .rest .refl
    · intro _ _ _ _ hnil
      cases hnil
  | ch :: chs, .ret a, s, steps, h => by
    cases h
    exact .rest .refl
  | ch :: chs, .raise e, s, steps, h => by
    cases h
    exact .rest .refl
  | ch :: chs, .await op next, s, steps, h => by
    obtain ⟨⟨r, s₁⟩, hexec, hrest⟩ := Option.bind_eq_some_iff.mp h
    obtain ⟨⟨steps', p₁, s₂⟩, hperform, heq⟩ := Option.map_eq_some_iff.mp hrest
    cases heq
    exact .next .refl hexec (performs_of_perform hperform)

end Conc

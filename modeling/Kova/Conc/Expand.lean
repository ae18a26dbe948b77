import Kova.Conc.Performs

/-!
# Operations carried out by programs

A service at two levels: what is one operation above is a program below, such as the method of a
trait object whose implementation awaits operations of its own. `Prog.expand` puts the programs in
place of the operations. A program carries an operation out (`Carries`) if its last step does, on
the part of the store that is seen above, what the operation does, and the steps before leave that
part alone.

Every run below is then a run above with the same calls (`Run.refined`), in which each operation is
accounted for by what its call has executed below (`Alike.accounted`). In the other direction, what
a program performs above it performs below where each of its operations can be carried out
(`Performs.expanded`).
-/

set_option autoImplicit false

namespace Conc

variable {σ σ' Req Op Op' Ch Ch' En En' ε α β : Type} {Res : Op → Type} {Res' : Op' → Type}

namespace Prog

/-- A program that raises nothing, and what follows it. -/
def within : Prog Op' Res' Empty β → (β → Prog Op' Res' ε α) → Prog Op' Res' ε α
  | .ret b, k => k b
  | .raise e, _ => nomatch e
  | .await op next, k => .await op fun r => (next r).within k

/-- Each operation replaced by the program that carries it out. -/
def expand (impl : (op : Op) → Prog Op' Res' Empty (Res op)) :
    Prog Op Res ε α → Prog Op' Res' ε α
  | .ret a => .ret a
  | .raise e => .raise e
  | .await op next => (impl op).within fun r => (next r).expand impl

end Prog

/-! ## Carrying an operation out -/

/-- What the program of an operation has executed, and what it answers. -/
abbrev Accounts (Op : Type) (Res : Op → Type) (Op' : Type) (Res' : Op' → Type) : Type :=
  (op : Op) → Res op → List (Done Op' Res') → Prop

section

variable (M : Machine σ Op Res Ch En) (M' : Machine σ' Op' Res' Ch' En') (part : σ' → σ)

/-- A step below is the operation if it ends the program, and nothing above if it does not. -/
def Lands (t : Nat) (op : Op) (s s' : σ') : Prog Op' Res' Empty (Res op) → Prop
  | .ret b => ∃ ch, M.exec t ch (part s) op = some (b, part s')
  | _ => part s' = part s

/-- **A program carries an operation out**. -/
def Carries (op : Op) : Prog Op' Res' Empty (Res op) → Prop
  | .await op' next => ∀ r, (∀ {t ch' s s'}, M'.exec t ch' s op' = some (r, s') →
      Lands M part t op s s' (next r)) ∧ Carries op (next r)
  | _ => True

/-- **Programs that realize the operations of a machine**, each guarded by `G` and accounted for by
`W`. -/
structure Realizes (impl : (op : Op) → Prog Op' Res' Empty (Res op))
    (G : Op → List (Done Op' Res') → Op' → Prop) (W : Accounts Op Res Op' Res') : Prop where
  awaits : ∀ op, (impl op).finished = false
  carries : ∀ op, Carries M M' part op (impl op)
  guarded : ∀ op h, Guarded (G op) (fun h' r => ∀ b, r = .ok b → W op b h') (impl op) h
  grows : ∀ {op b h h'}, h <+: h' → W op b h → W op b h'
  env : ∀ {e' s s'}, M'.env e' s = some s' →
    part s' = part s ∨ ∃ e, M.env e (part s) = some (part s')

variable (impl : (op : Op) → Prog Op' Res' Empty (Res op))
  (G : Op → List (Done Op' Res') → Op' → Prop) (W : Accounts Op Res Op' Res')

/-- Where a call stands below, given where it stands above: an operation that is due may have begun
below. -/
inductive Stage (h : List (Done Op' Res')) : Prog Op' Res' ε α → Prog Op Res ε α → Prop
  | ret (a : α) : Stage h (.ret a) (.ret a)
  | raise (e : ε) : Stage h (.raise e) (.raise e)
  | inside {op : Op} {next : Res op → Prog Op Res ε α} (q : Prog Op' Res' Empty (Res op)) :
      q.finished = false → Carries M M' part op q →
        Guarded (G op) (fun h' r => ∀ b, r = .ok b → W op b h') q h →
          Stage h (q.within fun r => (next r).expand impl) (.await op next)

end

variable {M : Machine σ Op Res Ch En} {M' : Machine σ' Op' Res' Ch' En'} {part : σ' → σ}
  {impl : (op : Op) → Prog Op' Res' Empty (Res op)}
  {G : Op → List (Done Op' Res') → Op' → Prop} {W : Accounts Op Res Op' Res'}

/-- A call that has not begun what is due. -/
theorem Realizes.stage (R : Realizes M M' part impl G W) (h : List (Done Op' Res')) :
    ∀ p : Prog Op Res ε α, Stage M M' part impl G W h (p.expand impl) p
  | .ret a => .ret a
  | .raise e => .raise e
  | .await op _ => .inside (impl op) (R.awaits op) (R.carries op) (R.guarded op h)

/-- Both are at their end, or neither. -/
theorem Stage.finished {h : List (Done Op' Res')} {p' : Prog Op' Res' ε α} {p : Prog Op Res ε α}
    (stage : Stage M M' part impl G W h p' p) : p'.finished = p.finished := by
  cases stage with
  | ret a => rfl
  | raise e => rfl
  | inside q hq _ _ =>
    cases q with
    | await op' n => rfl
    | ret b => cases hq
    | raise e => cases e

/-- **A call that awaits below** awaits above, and its operation is being carried out. -/
theorem Stage.await {h : List (Done Op' Res')} {op' : Op'} {next' : Res' op' → Prog Op' Res' ε α}
    {p : Prog Op Res ε α} (stage : Stage M M' part impl G W h (.await op' next') p) :
    ∃ (op : Op) (next : Res op → Prog Op Res ε α) (n : Res' op' → Prog Op' Res' Empty (Res op)),
      p = .await op next ∧ G op h op' ∧
      (next' = fun r => (n r).within fun b => (next b).expand impl) ∧
      ∀ r, (∀ {t ch' s s'}, M'.exec t ch' s op' = some (r, s') → Lands M part t op s s' (n r)) ∧
        Carries M M' part op (n r) ∧
          Guarded (G op) (fun h' r => ∀ b, r = .ok b → W op b h') (n r) (h ++ [⟨op', r⟩]) := by
  generalize hp : Prog.await op' next' = p' at stage
  cases stage with
  | ret a => cases hp
  | raise e => cases hp
  | @inside op next q hq hcarries hguarded =>
    cases q with
    | ret b => cases hq
    | raise e => cases e
    | await op'' n =>
      obtain ⟨rfl, hnext⟩ := Prog.await.inj hp
      exact ⟨op, next, n, rfl, hguarded.1, eq_of_heq hnext,
        fun r => ⟨(hcarries r).1, (hcarries r).2, hguarded.2 r⟩⟩

/-! ## Two pools -/

section

variable (M M' part impl G W)

/-- A call below and a call above. -/
structure SameCall (h : List (Done Op' Res')) (call' : Call Req Op' Res' ε α)
    (call : Call Req Op Res ε α) : Prop where
  req : call.req = call'.req
  dropped : call.dropped = call'.dropped
  stage : Stage M M' part impl G W h call'.prog call.prog

/-- **A configuration below and one above.** -/
structure Alike (c' : Conf σ' Req Op' Res' ε α) (c : Conf σ Req Op Res ε α) : Prop where
  store : c.world.store = part c'.world.store
  length : c.pool.length = c'.pool.length
  calls : ∀ t call' call, c'.pool[t]? = some call' → c.pool[t]? = some call →
    SameCall M M' part impl G W (history t c'.world.log) call' call
  accounted : ∀ e ∈ c.world.log, W e.op e.res (history e.tid c'.world.log)

end

variable {body : Req → Prog Op Res ε α} {c' d' : Conf σ' Req Op' Res' ε α}
  {c d : Conf σ Req Op Res ε α}

/-- Every call below has its call above. -/
theorem Alike.call (a : Alike M M' part impl G W c' c) {t : Nat} {call' : Call Req Op' Res' ε α}
    (hcall' : c'.pool[t]? = some call') : ∃ call, c.pool[t]? = some call ∧
      SameCall M M' part impl G W (history t c'.world.log) call' call := by
  have hlt : t < c.pool.length := by
    rw [a.length]
    exact (List.getElem?_eq_some_iff.mp hcall').1
  have hcall := List.getElem?_eq_getElem hlt
  exact ⟨_, hcall, a.calls t call' _ hcall' hcall⟩

/-- A call arrives at both levels. -/
theorem Alike.spawn (R : Realizes M M' part impl G W) (a : Alike M M' part impl G W c' c)
    (req : Req) :
    Alike M M' part impl G W
      { c' with pool := c'.pool ++ [{ req, prog := (body req).expand impl }] }
      { c with pool := c.pool ++ [{ req, prog := body req }] } where
  store := a.store
  length := by simp [a.length]
  calls t call' call hcall' hcall := by
    rcases Nat.lt_or_ge t c'.pool.length with hlt | hge
    · rw [List.getElem?_append_left hlt] at hcall'
      rw [List.getElem?_append_left (by rw [a.length]; exact hlt)] at hcall
      exact a.calls t call' call hcall' hcall
    · rw [List.getElem?_append_right hge] at hcall'
      rw [List.getElem?_append_right (by rw [a.length]; exact hge), a.length] at hcall
      obtain ⟨_, rfl⟩ := List.getElem?_eq_some_iff.mp hcall'
      obtain ⟨_, rfl⟩ := List.getElem?_eq_some_iff.mp hcall
      simp only [List.getElem_singleton]
      exact ⟨rfl, rfl, R.stage _ _⟩
  accounted := a.accounted

/-- The calls after one has moved below, and above or not. -/
theorem Alike.moved {t : Nat} {w' : World σ' Req Op' Res'} (a : Alike M M' part impl G W c' c)
    (call₁' : Call Req Op' Res' ε α) (call₁ : Call Req Op Res ε α)
    (others : ∀ u, u ≠ t → history u w'.log = history u c'.world.log)
    (same : SameCall M M' part impl G W (history t w'.log) call₁' call₁) :
    ∀ u x' x, (c'.pool.set t call₁')[u]? = some x' → (c.pool.set t call₁)[u]? = some x →
      SameCall M M' part impl G W (history u w'.log) x' x := by
  intro u x' x hx' hx
  rcases set_cases hx' with ⟨rfl, rfl⟩ | ⟨hne, hx'⟩
  · rcases set_cases hx with ⟨_, rfl⟩ | ⟨hne, _⟩
    · exact same
    · exact absurd rfl hne
  · rcases set_cases hx with ⟨heq, _⟩ | ⟨_, hx⟩
    · exact absurd heq hne
    · rw [others u (Ne.symm hne)]
      exact a.calls u x' x hx' hx

/-- **One operation below** is nothing above, or the operation that it ends. -/
theorem Alike.run (R : Realizes M M' part impl G W) (a : Alike M M' part impl G W c' c) {t : Nat}
    {ch' : Ch'} {call' : Call Req Op' Res' ε α} {op' : Op'}
    {next' : Res' op' → Prog Op' Res' ε α} {r : Res' op'} {s' : σ'}
    (hcall' : c'.pool[t]? = some call') (hdropped : call'.dropped = false)
    (hprog' : call'.prog = .await op' next')
    (hexec : M'.exec t ch' c'.world.store op' = some (r, s')) :
    ∃ d, (d = c ∨ ∃ ch, step M body c (.run t ch) = some d) ∧
      Alike M M' part impl G W ⟨c'.world.push ⟨t, call'.req, op', c'.world.store, r, s'⟩,
        c'.pool.set t { call' with prog := next' r }⟩ d := by
  obtain ⟨call, hcall, same⟩ := a.call hcall'
  have stage := same.stage
  rw [hprog'] at stage
  obtain ⟨op, next, n, hprog, _, rfl, hn⟩ := stage.await
  obtain ⟨hlands, hcarries, hguarded⟩ := hn r
  have landed := hlands hexec
  have grown : ∀ u, history u c'.world.log <+:
      history u (c'.world.push ⟨t, call'.req, op', c'.world.store, r, s'⟩).log :=
    fun u => history_grows (List.prefix_append _ _)
  have others : ∀ u, u ≠ t →
      history u (c'.world.push ⟨t, call'.req, op', c'.world.store, r, s'⟩).log =
        history u c'.world.log := fun u hne => history_append_other _ (Ne.symm hne)
  have own : history t (c'.world.push ⟨t, call'.req, op', c'.world.store, r, s'⟩).log =
      history t c'.world.log ++ [⟨op', r⟩] := history_append_self _ rfl
  cases hq : n r with
  | raise e => cases e
  | ret b =>
    -- The program has ended: the operation above is executed, with what it answers.
    rw [hq] at landed hguarded
    obtain ⟨ch, hexec⟩ := landed
    rw [← a.store] at hexec
    refine ⟨_, .inr ⟨ch, step_run hcall (same.dropped.trans hdropped) hprog hexec⟩, rfl, ?_, ?_, ?_⟩
    · simp [a.length]
    · refine a.moved _ _ others ⟨same.req, same.dropped, ?_⟩
      simp only [hq, Prog.within]
      exact R.stage _ _
    · intro e he
      rcases List.mem_append.mp he with he | he
      · exact R.grows (grown _) (a.accounted e he)
      · obtain rfl := List.mem_singleton.mp he
        rw [own]
        exact hguarded b rfl
  | await op₁ next₁ =>
    rw [hq] at landed hcarries hguarded
    refine ⟨c, .inl rfl, a.store.trans (Eq.symm landed), by simp [a.length], ?_, ?_⟩
    · obtain ⟨hlt, hget⟩ := List.getElem?_eq_some_iff.mp hcall
      have calls := a.moved { call' with prog := (n r).within fun b => (next b).expand impl } call
        others ⟨same.req, same.dropped, by
          rw [hq, hprog, own]
          exact .inside (.await op₁ next₁) rfl hcarries hguarded⟩
      rwa [← hget, List.set_getElem_self] at calls
    · intro e he
      exact R.grows (grown _) (a.accounted e he)

/-- **One move below** is no move above, or one. -/
theorem Alike.step (R : Realizes M M' part impl G W) (a : Alike M M' part impl G W c' c)
    {l' : Label Req Ch' En'}
    (hstep : Conc.step M' (fun req => (body req).expand impl) c' l' = some d') :
    ∃ d, (d = c ∨ ∃ l, Conc.step M body c l = some d) ∧ Alike M M' part impl G W d' d := by
  rcases step_cases hstep with ⟨req, _, rfl⟩ |
    ⟨t, ch', call', op', next', r, s', _, hcall', hdropped, hprog', hexec, rfl⟩ |
    ⟨t, call', rfl, hcall', rfl⟩ | ⟨e', s', _, henv, rfl⟩
  · exact ⟨_, .inr ⟨.spawn req, rfl⟩, a.spawn R req⟩
  · have moved : ∃ d, (d = c ∨ ∃ ch, Conc.step M body c (.run t ch) = some d) ∧ Alike .. :=
      a.run R hcall' hdropped hprog' hexec
    obtain ⟨d, hmove, alike⟩ := moved
    exact ⟨d, hmove.imp_right fun ⟨ch, hrun⟩ => ⟨.run t ch, hrun⟩, alike⟩
  · obtain ⟨call, hcall, same⟩ := a.call hcall'
    have others : ∀ u, u ≠ t → history u c'.world.log = history u c'.world.log := fun _ _ => rfl
    have calls := a.moved { call' with dropped := true } { call with dropped := true } others
      ⟨same.req, rfl, same.stage⟩
    refine ⟨{ c with pool := c.pool.set t { call with dropped := true } }, .inr ⟨.drop t, ?_⟩,
      a.store, by simp [a.length], calls, a.accounted⟩
    simp only [Conc.step, hcall', hcall, ← same.dropped, ← same.stage.finished] at hstep ⊢
    split at hstep
    · cases hstep
    · next hgoes => rw [if_neg hgoes]
  · rcases R.env henv with hsame | ⟨e, hguest⟩
    · exact ⟨c, .inl rfl, a.store.trans hsame.symm, a.length, a.calls, a.accounted⟩
    · rw [← a.store] at hguest
      refine ⟨{ c with world := c.world.moved (part s') }, .inr ⟨.env e, ?_⟩, rfl, a.length,
        a.calls, a.accounted⟩
      simp only [Conc.step, hguest, Option.map_some]

/-- **Every run below is a run above.** -/
theorem Run.refined {S' : Scope σ' Req Op' Res' Ch'} (R : Realizes M M' part impl G W) {s : σ'}
    {ls' : List (Label Req Ch' En')}
    (h : Run M' (fun req => (body req).expand impl) S' (.init s) ls' d') :
    ∃ ls d, Run M body .all (.init (part s)) ls d ∧ Alike M M' part impl G W d' d := by
  refine h.invariant (P := fun d' => ∃ ls d, Run M body .all (.init (part s)) ls d ∧
    Alike M M' part impl G W d' d) ?_ ?_
  · rintro c' d' l' ⟨ls, c, hrun, alike⟩ _ hstep
    obtain ⟨d, hmove, alike'⟩ := alike.step R hstep
    rcases hmove with rfl | ⟨l, hmove⟩
    · exact ⟨ls, d, hrun, alike'⟩
    · refine ⟨ls ++ [l], d, .snoc hrun ?_ hmove, alike'⟩
      cases l <;> simp [Scope.allows, Scope.all]
  · refine ⟨[], .init (part s), .nil _, rfl, rfl, ?_, ?_⟩
    · intro t call' call hcall'
      cases hcall'
    · intro e he
      cases he

/-! ## From above -/

/-- A program that raises nothing performs, and what follows waits. -/
theorem Performs.within {t : Nat} {q q' : Prog Op' Res' Empty β} {s s' : σ'}
    {steps : List (Taken σ' Op' Res' Ch')} (h : Performs M' t q s steps q' s')
    (k : β → Prog Op' Res' ε α) : Performs M' t (q.within k) s steps (q'.within k) s' := by
  induction h with
  | rest drift => exact .rest drift
  | next drift hexec _ ih => exact .next drift hexec ih

/-- **What a program performs above it performs below**, where each of its operations can be carried
out and the outside can move as it does above. -/
theorem Performs.expanded {t : Nat} (good : (op : Op) → Res op → Prop)
    (carried : ∀ {ch op s r s₁}, M.exec t ch (part s) op = some (r, s₁) → good op r →
      ∃ steps s', Performs M' t (impl op) s steps (.ret r) s' ∧ part s' = s₁)
    (outside : ∀ {s s₁}, M.Drifts (part s) s₁ → ∃ s', M'.Drifts s s' ∧ part s' = s₁)
    {p p' : Prog Op Res ε α} {s s₁ : σ} {steps : List (Taken σ Op Res Ch)}
    (h : Performs M t p s steps p' s₁) :
    (∀ y ∈ steps, good y.op y.res) → ∀ {s₀ : σ'}, part s₀ = s → ∃ steps' s',
      Performs M' t (p.expand impl) s₀ steps' (p'.expand impl) s' ∧ part s' = s₁ := by
  induction h with
  | rest drift =>
    intro _ s₀ hs
    subst hs
    obtain ⟨s', drift', hs'⟩ := outside drift
    exact ⟨[], s', .rest drift', hs'⟩
  | @next op next s s₂ s₃ s₄ ch r steps p drift hexec _ ih =>
    intro each s₀ hs
    subst hs
    obtain ⟨s', drift', rfl⟩ := outside drift
    obtain ⟨first, s'', hfirst, hpart⟩ := carried hexec (each _ List.mem_cons_self)
    obtain ⟨rest, s₅, hrest, hend⟩ := ih (fun y hy => each y (List.mem_cons_of_mem _ hy)) hpart
    have moved : Performs M' t ((Prog.await op next).expand impl) s₀ [] _ s' := .rest drift'
    exact ⟨_, s₅, moved.append ((hfirst.within _).append hrest), hend⟩

end Conc

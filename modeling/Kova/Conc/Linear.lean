import Kova.Conc.Pool

/-!
# Linearizability

A sequential object is a relation: what a request may be answered with in a state, and the state it
leaves. `Linearizes` says that a history of the object explains a configuration of a pool: the
calls that have returned stand in it once each, with their results, and it ends in the state that
the store stands for. The histories of a run grow at their end (`linearized`), so a call that had
returned before another arrived stands before it.

The rule is for calls that take effect with their last operation (`LastTakesEffect`): an operation
that ends its call does what the object does, every other one leaves the state alone.
-/

set_option autoImplicit false

namespace Conc

variable {σ Req Op Ch En ε α A R : Type} {Res : Op → Type}

/-- One call of a history: its number, its request and its result. -/
structure Answered (Req R : Type) where
  tid : Nat
  req : Req
  result : R

/-- The histories of a sequential object. -/
inductive Sequential (next : A → Req → R → A → Prop) : A → List (Answered Req R) → A → Prop
  | nil (a : A) : Sequential next a [] a
  | snoc {a b c : A} {h : List (Answered Req R)} {x : Answered Req R} : Sequential next a h b →
      next b x.req x.result c → Sequential next a (h ++ [x]) c

/-- **The history explains the configuration.** -/
structure Linearizes (next : A → Req → Except ε α → A → Prop) (a : A) (abs : σ → A)
    (h : List (Answered Req (Except ε α))) (c : Conf σ Req Op Res ε α) : Prop where
  sequential : Sequential next a h (abs c.world.store)
  answered : ∀ t req r, ⟨t, req, r⟩ ∈ h ↔ c.returned t req r
  once : (h.map (·.tid)).Nodup

/-- **Every call takes effect with its last operation**, in the runs from `s`. -/
structure LastTakesEffect (M : Machine σ Op Res Ch En) (body : Req → Prog Op Res ε α)
    (S : Scope σ Req Op Res Ch) (s : σ) (next : A → Req → Except ε α → A → Prop) (abs : σ → A) :
    Prop where
  /-- A call that executes nothing is answered where it arrives. -/
  arrives : ∀ {ls : List (Label Req Ch En)} {c : Conf σ Req Op Res ε α} {req : Req}
    {r : Except ε α}, Run M body S (.init s) ls c → (body req).result? = some r →
      next (abs c.world.store) req r (abs c.world.store)
  returns : ∀ {ls : List (Label Req Ch En)} {d : Conf σ Req Op Res ε α}
    {before : List (Event σ Req Op Res)} {e : Event σ Req Op Res} {r : Except ε α},
    Run M body S (.init s) ls d → d.world = ⟨e.post, before ++ [e]⟩ → d.returned e.tid e.req r →
      next (abs e.pre) e.req r (abs e.post)
  goes_on : ∀ {ls : List (Label Req Ch En)} {d : Conf σ Req Op Res ε α}
    {before : List (Event σ Req Op Res)} {e : Event σ Req Op Res},
    Run M body S (.init s) ls d → d.world = ⟨e.post, before ++ [e]⟩ →
      (∀ req r, ¬ d.returned e.tid req r) → abs e.post = abs e.pre
  outside : ∀ {o : En} {s s' : σ}, M.env o s = some s' → abs s' = abs s

variable {M : Machine σ Op Res Ch En} {body : Req → Prog Op Res ε α}
  {S : Scope σ Req Op Res Ch} {next : A → Req → Except ε α → A → Prop} {a : A} {abs : σ → A}
  {h : List (Answered Req (Except ε α))} {c d : Conf σ Req Op Res ε α} {s : σ}

/-! ## Who has returned -/

/-- A call that has arrived has returned if it had nothing to execute. -/
theorem returned_arrival {req : Req} {t : Nat} {req' : Req} {r : Except ε α} :
    (⟨c.world, c.pool ++ [{ req, prog := body req }]⟩ : Conf σ Req Op Res ε α).returned t req' r ↔
      c.returned t req' r ∨ t = c.pool.length ∧ req' = req ∧ (body req).result? = some r := by
  constructor
  · rintro ⟨call, hcall, rfl, hres⟩
    rcases Nat.lt_or_ge t c.pool.length with hlt | hge
    · rw [List.getElem?_append_left hlt] at hcall
      exact .inl ⟨call, hcall, rfl, hres⟩
    · have hlast := (List.getElem?_eq_some_iff.mp hcall).1
      simp only [List.length_append, List.length_singleton] at hlast
      obtain rfl : t = c.pool.length := by omega
      rw [List.getElem?_concat_length, Option.some.injEq] at hcall
      subst hcall
      exact .inr ⟨rfl, rfl, hres⟩
  · rintro (⟨call, hcall, hreq, hres⟩ | ⟨rfl, rfl, hres⟩)
    · have hlt := (List.getElem?_eq_some_iff.mp hcall).1
      exact ⟨call, (List.getElem?_append_left hlt).trans hcall, hreq, hres⟩
    · exact ⟨_, List.getElem?_concat_length .., rfl, hres⟩

/-- Of the calls only the one that moves can return. -/
theorem returned_move {w : World σ Req Op Res} {t : Nat} {call : Call Req Op Res ε α}
    (hcall : c.pool[t]? = some call) (hawaits : call.prog.result? = none)
    (call' : Call Req Op Res ε α) (hreq : call'.req = call.req) (u : Nat) (req : Req)
    (r : Except ε α) :
    (⟨w, c.pool.set t call'⟩ : Conf σ Req Op Res ε α).returned u req r ↔
      c.returned u req r ∨ u = t ∧ req = call.req ∧ call'.prog.result? = some r := by
  have hlt := (List.getElem?_eq_some_iff.mp hcall).1
  constructor
  · rintro ⟨found, hfound, rfl, hres⟩
    by_cases hut : t = u
    · subst hut
      rw [List.getElem?_set_self hlt, Option.some.injEq] at hfound
      subst hfound
      exact .inr ⟨rfl, hreq, hres⟩
    · rw [List.getElem?_set_ne hut] at hfound
      exact .inl ⟨found, hfound, rfl, hres⟩
  · rintro (⟨found, hfound, hreq', hres⟩ | ⟨rfl, rfl, hres⟩)
    · have hne : t ≠ u := by
        rintro rfl
        rw [hcall, Option.some.injEq] at hfound
        rw [← hfound, hawaits] at hres
        cases hres
      exact ⟨found, (List.getElem?_set_ne hne).trans hfound, hreq', hres⟩
    · exact ⟨call', List.getElem?_set_self hlt, hreq, hres⟩

/-- A call that is dropped has returned if it had before. -/
theorem returned_drop {t : Nat} {call : Call Req Op Res ε α} (hcall : c.pool[t]? = some call)
    {u : Nat} {req : Req} {r : Except ε α} :
    (⟨c.world, c.pool.set t { call with dropped := true }⟩ : Conf σ Req Op Res ε α).returned u req
      r ↔ c.returned u req r := by
  have hlt := (List.getElem?_eq_some_iff.mp hcall).1
  by_cases hut : t = u
  · subst hut
    simp only [Conf.returned, List.getElem?_set_self hlt, hcall, Option.some.injEq,
      exists_eq_left']
  · simp only [Conf.returned, List.getElem?_set_ne hut]

/-- A call that has not come to its end has not returned. -/
theorem not_returned {t : Nat} {call : Call Req Op Res ε α} (hcall : c.pool[t]? = some call)
    (hawaits : call.prog.result? = none) (req : Req) (r : Except ε α) : ¬ c.returned t req r := by
  rintro ⟨found, hfound, _, hres⟩
  rw [hcall, Option.some.injEq] at hfound
  rw [← hfound, hawaits] at hres
  cases hres

/-! ## One move -/

/-- Nothing has happened to the object. -/
theorem Linearizes.same (hlin : Linearizes next a abs h c)
    (habs : abs d.world.store = abs c.world.store)
    (hreturned : ∀ t req r, d.returned t req r ↔ c.returned t req r) :
    Linearizes next a abs h d :=
  ⟨habs ▸ hlin.sequential, fun t req r => (hlin.answered t req r).trans (hreturned t req r).symm,
    hlin.once⟩

/-- One more call has been answered. -/
theorem Linearizes.answer (hlin : Linearizes next a abs h c)
    {x : Answered Req (Except ε α)} (hnew : ∀ req r, ¬ c.returned x.tid req r)
    (heffect : next (abs c.world.store) x.req x.result (abs d.world.store))
    (hreturned : ∀ t req r, d.returned t req r ↔
      c.returned t req r ∨ t = x.tid ∧ req = x.req ∧ r = x.result) :
    Linearizes next a abs (h ++ [x]) d := by
  refine ⟨.snoc hlin.sequential heffect, ?_, ?_⟩
  · intro t req r
    rw [hreturned, ← hlin.answered, List.mem_append, List.mem_singleton]
    constructor
    · rintro (hold | rfl)
      · exact .inl hold
      · exact .inr ⟨rfl, rfl, rfl⟩
    · rintro (hold | ⟨rfl, rfl, rfl⟩)
      · exact .inl hold
      · exact .inr rfl
  · rw [List.map_append, List.map_singleton, List.nodup_append]
    refine ⟨hlin.once, List.pairwise_singleton _ _, ?_⟩
    rintro t ht u hu rfl
    obtain ⟨y, hy, rfl⟩ := List.mem_map.mp ht
    have hreturned := (hlin.answered y.tid y.req y.result).mp hy
    rw [List.mem_singleton.mp hu] at hreturned
    exact hnew _ _ hreturned

/-- **One move** extends the history by at most one call. -/
theorem Linearizes.step (rule : LastTakesEffect M body S s next abs)
    {ls : List (Label Req Ch En)} {l : Label Req Ch En} (hrun : Run M body S (.init s) ls c)
    (hok : S.allows c l) (hstep : step M body c l = some d)
    (hlin : Linearizes next a abs h c) : ∃ h', Linearizes next a abs (h ++ h') d := by
  have hlater := hrun.snoc hok hstep
  have unanswered : Linearizes next a abs h d → ∃ h', Linearizes next a abs (h ++ h') d := by
    intro hlin
    exact ⟨[], (List.append_nil h).symm ▸ hlin⟩
  rcases step_cases hstep with ⟨req, rfl, rfl⟩ |
    ⟨t, ch, call, op, goes, x, s', rfl, hcall, _, hprog, _, rfl⟩ |
    ⟨t, call, rfl, hcall, rfl⟩ | ⟨o, s', rfl, henv, rfl⟩
  · cases hres : (body req).result? with
    | none =>
      refine unanswered (hlin.same rfl fun t req' r => returned_arrival.trans ?_)
      simp [hres]
    | some r =>
      have hnew : ∀ req' r', ¬ c.returned c.pool.length req' r' := by
        rintro req' r' ⟨call, hcall, _⟩
        rw [List.getElem?_eq_none (Nat.le_refl _)] at hcall
        cases hcall
      refine ⟨[⟨c.pool.length, req, r⟩], hlin.answer hnew (rule.arrives hrun hres) ?_⟩
      intro t req' r'
      refine returned_arrival.trans ?_
      rw [hres, Option.some.injEq, eq_comm (a := r)]
  · have hawaits : call.prog.result? = none := hprog ▸ rfl
    have hreturned := returned_move (w := c.world.push
      ⟨t, call.req, op, c.world.store, x, s'⟩) hcall hawaits { call with prog := goes x } rfl
    cases hres : (goes x).result? with
    | none =>
      have hquiet : ∀ req r, ¬ (⟨c.world.push ⟨t, call.req, op, c.world.store, x, s'⟩,
          c.pool.set t { call with prog := goes x }⟩ : Conf σ Req Op Res ε α).returned t req r := by
        intro req r
        rw [hreturned, hres]
        rintro (hold | ⟨_, _, hnone⟩)
        · exact not_returned hcall hawaits req r hold
        · cases hnone
      refine unanswered (hlin.same (rule.goes_on hlater rfl hquiet) fun u req r => ?_)
      rw [hreturned, hres]
      simp
    | some r =>
      have hend : (⟨c.world.push ⟨t, call.req, op, c.world.store, x, s'⟩,
          c.pool.set t { call with prog := goes x }⟩ : Conf σ Req Op Res ε α).returned t call.req
            r := (hreturned t call.req r).mpr (.inr ⟨rfl, rfl, hres⟩)
      refine ⟨[⟨t, call.req, r⟩], hlin.answer (not_returned hcall hawaits)
        (rule.returns hlater rfl hend) fun u req r' => ?_⟩
      rw [hreturned, hres, Option.some.injEq, eq_comm (a := r)]
  · exact unanswered (hlin.same rfl fun _ _ _ => returned_drop hcall)
  · exact unanswered (hlin.same (rule.outside henv) fun _ _ _ => Iff.rfl)

/-! ## Runs -/

/-- **A run extends the history**: what had been answered before stands before what is answered
later. -/
theorem linearized (rule : LastTakesEffect M body S s next abs)
    {ls ms : List (Label Req Ch En)} (hc : Run M body S (.init s) ls c) (hd : Run M body S c ms d)
    (hlin : Linearizes next a abs h c) : ∃ h', Linearizes next a abs (h ++ h') d := by
  induction hd with
  | nil => exact ⟨[], (List.append_nil h).symm ▸ hlin⟩
  | snoc hrun hok hstep ih =>
    obtain ⟨h₁, hlin₁⟩ := ih
    obtain ⟨h₂, hlin₂⟩ := hlin₁.step rule (hc.append hrun) hok hstep
    exact ⟨h₁ ++ h₂, List.append_assoc h h₁ h₂ ▸ hlin₂⟩

/-- Before the first call there is nothing to explain. -/
theorem linearizes_init (next : A → Req → Except ε α → A → Prop) (abs : σ → A) (s : σ) :
    Linearizes next (abs s) abs [] (.init s : Conf σ Req Op Res ε α) := by
  refine ⟨.nil _, ?_, .nil⟩
  intro t req r
  refine iff_of_false List.not_mem_nil ?_
  rintro ⟨call, hcall, _⟩
  cases hcall

/-- A call in the longer history only had not returned before. -/
theorem Linearizes.later {h' : List (Answered Req (Except ε α))} (hlin : Linearizes next a abs h c)
    (hlater : Linearizes next a abs (h ++ h') d) {x : Answered Req (Except ε α)} (hx : x ∈ h')
    (req : Req) (r : Except ε α) : ¬ c.returned x.tid req r := by
  intro hreturned
  have hold := List.mem_map_of_mem (f := Answered.tid) ((hlin.answered x.tid req r).mpr hreturned)
  have honce := hlater.once
  rw [List.map_append, List.nodup_append] at honce
  exact honce.2.2 _ hold _ (List.mem_map_of_mem hx) rfl

end Conc

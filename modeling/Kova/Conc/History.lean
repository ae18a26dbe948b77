import Mathlib.Data.List.Basic
import Kova.Conc.Pool

/-!
# Histories of calls

What a call has executed so far, as the list of its operations with their results, says where
its program stands. `Guarded` is a recursion on the program: every operation that can be reached
fits the history before it, and every end fits the whole history. No store is involved, so a
handler is verified by walking its tree once, whatever the other calls do.

`Run.obeys` carries this to the log of a run from the empty pool: each logged operation was
guarded by the history of its own call (`Run.guard`), each result answers it (`Run.answer`). A
run can be cut at any logged event (`Run.at_event`), so that what holds of every world a run reaches
(`Run.world_invariant`) holds where the event was executed (`Run.world_at`); and a preorder of
stores that every move follows relates any two events of the log (`Run.between`).
-/

set_option autoImplicit false

namespace Conc

variable {σ Req Op Ch En ε ε' α β : Type} {Res : Op → Type}

/-- One operation of a call with its result. -/
structure Done (Op : Type) (Res : Op → Type) where
  op : Op
  res : Res op

/-- What an event says of its call. -/
def Event.did (e : Event σ Req Op Res) : Done Op Res := ⟨e.op, e.res⟩

/-- The operations of one call within a list of events. -/
def history (t : Nat) (es : List (Event σ Req Op Res)) : List (Done Op Res) :=
  (es.filter (·.tid == t)).map Event.did

theorem mem_history {t : Nat} {es : List (Event σ Req Op Res)} {x : Done Op Res} :
    x ∈ history t es ↔ ∃ e ∈ es, e.tid = t ∧ e.did = x := by
  simp only [history, List.mem_map, List.mem_filter, beq_iff_eq, and_assoc]

theorem history_append_self {t : Nat} (es : List (Event σ Req Op Res))
    {e : Event σ Req Op Res} (h : e.tid = t) :
    history t (es ++ [e]) = history t es ++ [e.did] := by
  simp only [history, List.filter_append, List.filter_cons, beq_iff_eq.mpr h, ↓reduceIte,
    List.filter_nil, List.map_append, List.map_cons, List.map_nil]

theorem history_append_other {t : Nat} (es : List (Event σ Req Op Res))
    {e : Event σ Req Op Res} (h : e.tid ≠ t) : history t (es ++ [e]) = history t es := by
  simp only [history, List.filter_append, List.filter_cons, beq_eq_false_iff_ne.mpr h,
    Bool.false_eq_true, ↓reduceIte, List.filter_nil, List.append_nil]

theorem mem_history_append {t : Nat} {es : List (Event σ Req Op Res)} {e : Event σ Req Op Res}
    {x : Done Op Res} :
    x ∈ history t (es ++ [e]) ↔ x ∈ history t es ∨ (e.tid = t ∧ x = e.did) := by
  by_cases h : e.tid = t
  · simp [history_append_self es h, h]
  · simp [history_append_other es h, h]

/-- What a call has done it has done later on. -/
theorem history_grows {t : Nat} {es es' : List (Event σ Req Op Res)} (h : es <+: es') :
    history t es <+: history t es' :=
  (h.filter _).map _

/-! ## Guarded programs -/

/-- **A program is guarded** after a history: each operation it can reach satisfies `G` with the
history before it, and each end `Q` with the whole history. -/
def Guarded (G : List (Done Op Res) → Op → Prop)
    (Q : List (Done Op Res) → Except ε α → Prop) :
    Prog Op Res ε α → List (Done Op Res) → Prop
  | .ret a, h => Q h (.ok a)
  | .raise e, h => Q h (.error e)
  | .await op next, h => G h op ∧ ∀ r, Guarded G Q (next r) (h ++ [⟨op, r⟩])

section Guarded

variable {G : List (Done Op Res) → Op → Prop} {Q : List (Done Op Res) → Except ε α → Prop}

theorem Guarded.mono {G' : List (Done Op Res) → Op → Prop}
    {Q' : List (Done Op Res) → Except ε α → Prop} (guard : ∀ h op, G h op → G' h op)
    (answer : ∀ h r, Q h r → Q' h r) : ∀ {p : Prog Op Res ε α} {h : List (Done Op Res)},
      Guarded G Q p h → Guarded G' Q' p h
  | .ret _, _, hp => answer _ _ hp
  | .raise _, _, hp => answer _ _ hp
  | .await _ _, _, hp => ⟨guard _ _ hp.1, fun r => (hp.2 r).mono guard answer⟩

/-- **A function that calls another** is guarded if the other is, up to where the rest is. -/
theorem Guarded.bind {R : List (Done Op Res) → Except ε β → Prop} {f : β → Prog Op Res ε α}
    (raised : ∀ h e, R h (.error e) → Q h (.error e))
    (rest : ∀ h b, R h (.ok b) → Guarded G Q (f b) h) :
    ∀ {p : Prog Op Res ε β} {h : List (Done Op Res)}, Guarded G R p h → Guarded G Q (p >>= f) h
  | .ret _, _, hp => rest _ _ hp
  | .raise _, _, hp => raised _ _ hp
  | .await _ _, _, hp => ⟨hp.1, fun r => Guarded.bind raised rest (hp.2 r)⟩

/-- Nothing is asked of a program. -/
theorem guarded_any : ∀ (p : Prog Op Res ε α) (h : List (Done Op Res)),
    Guarded (fun _ _ => True) (fun _ _ => True) p h
  | .ret _, _ => trivial
  | .raise _, _ => trivial
  | .await _ next, _ => ⟨trivial, fun r => guarded_any (next r) _⟩

/-- One operation of a walk. -/
theorem guarded_await {op : Op} {next : Res op → Prog Op Res ε α} {h : List (Done Op Res)}
    (hop : G h op) (rest : ∀ r, Guarded G Q (next r) (h ++ [⟨op, r⟩])) :
    Guarded G Q (.await op next) h := ⟨hop, rest⟩

/-- What an end answers has grown from the history. -/
theorem Guarded.grown : ∀ {p : Prog Op Res ε α} {h h₀ : List (Done Op Res)}, h₀ <+: h →
    Guarded G Q p h → Guarded G (fun h' r => h₀ <+: h' ∧ Q h' r) p h
  | .ret _, _, _, hgrown, hp => ⟨hgrown, hp⟩
  | .raise _, _, _, hgrown, hp => ⟨hgrown, hp⟩
  | .await _ _, _, _, hgrown, hp =>
    ⟨hp.1, fun r => Guarded.grown (hgrown.trans (List.prefix_append _ _)) (hp.2 r)⟩

/-- Every operation that is one of the others' is let pass. -/
theorem guarded_among {Op' : Type} {Res' : Op' → Type} {f : Op → Op'}
    {back : ∀ op, Res' (f op) → Res op} {G : List (Done Op' Res') → Op' → Prop}
    (pass : ∀ h op, G h (f op)) : ∀ (p : Prog Op Res ε α) (h : List (Done Op' Res')),
      Guarded G (fun _ _ => True) (p.among f back) h
  | .ret _, _ => trivial
  | .raise _, _ => trivial
  | .await op next, h => ⟨pass h op, fun r => guarded_among pass (next (back op r)) _⟩

/-- **A program among others** is guarded if it is by itself: `R` relates what it has executed to
what stands in the history. -/
theorem Guarded.among {Op' : Type} {Res' : Op' → Type} {f : Op → Op'}
    {back : ∀ op, Res' (f op) → Res op} {R : List (Done Op Res) → List (Done Op' Res') → Prop}
    {G' : List (Done Op' Res') → Op' → Prop} {Q' : List (Done Op' Res') → Except ε α → Prop}
    (grow : ∀ h h' op r, R h h' → R (h ++ [⟨op, back op r⟩]) (h' ++ [⟨f op, r⟩]))
    (pass : ∀ h h' op, R h h' → G h op → G' h' (f op))
    (ends : ∀ h h' r, R h h' → Q h r → Q' h' r) :
    ∀ {p : Prog Op Res ε α} {h : List (Done Op Res)} {h' : List (Done Op' Res')}, R h h' →
      Guarded G Q p h → Guarded G' Q' (p.among f back) h'
  | .ret _, _, _, hR, hp => ends _ _ _ hR hp
  | .raise _, _, _, hR, hp => ends _ _ _ hR hp
  | .await op _, h, h', hR, hp =>
    ⟨pass _ _ _ hR hp.1, fun r =>
      Guarded.among grow pass ends (grow h h' op r hR) (hp.2 (back op r))⟩

/-- **A function that handles the errors of another** is guarded if the other is, up to where
either rest is. -/
theorem Guarded.bind_caught {R : List (Done Op Res) → Except ε' β → Prop}
    {f : Except ε' β → Prog Op Res ε α} (rest : ∀ h r, R h r → Guarded G Q (f r) h) :
    ∀ {p : Prog Op Res ε' β} {h : List (Done Op Res)}, Guarded G R p h →
      Guarded G Q (p.caught >>= f) h
  | .ret _, _, hp => rest _ _ hp
  | .raise _, _, hp => rest _ _ hp
  | .await _ _, _, hp => ⟨hp.1, fun r => Guarded.bind_caught rest (hp.2 r)⟩

end Guarded

/-! ## Runs -/

section Runs

variable {M : Machine σ Op Res Ch En} {body : Req → Prog Op Res ε α}
  {S : Scope σ Req Op Res Ch} {s : σ} {c d : Conf σ Req Op Res ε α}
  {ls : List (Label Req Ch En)}

/-- **A run can be cut at a logged event**: the configuration in which the event was executed,
and that it was executed there. -/
theorem Run.at_event (h : Run M body S c ls d) {new : List (Event σ Req Op Res)}
    (hd : d.world.log = c.world.log ++ new) {before after : List (Event σ Req Op Res)}
    {e : Event σ Req Op Res} (split : new = before ++ e :: after) :
    ∃ ms c', Run M body S c ms c' ∧ c'.world = ⟨e.pre, c.world.log ++ before⟩ ∧
      (∃ call next, c'.pool[e.tid]? = some call ∧ call.req = e.req ∧
        call.prog = .await e.op next) ∧
      ∃ ch, S.run e.tid e.req c'.world e.op ch ∧
        M.exec e.tid ch e.pre e.op = some (e.res, e.post) := by
  induction h generalizing new after with
  | nil =>
    have : new = [] := by simpa using hd
    simp [this] at split
  | @snoc d d' ls l hrun hok hstep ih =>
    rcases step_cases hstep with ⟨req, _, rfl⟩ |
      ⟨t, ch, call, op, next, r, s', rfl, hcall, _, hprog, hexec, rfl⟩ | ⟨t, call, _, _, rfl⟩ |
      ⟨o, s', _, _, rfl⟩
    · exact ih hd split
    · -- The last event is the one executed now; any other was there before.
      obtain ⟨old, hold⟩ := hrun.log_prefix
      have hnew : new = old ++ [⟨t, call.req, op, d.world.store, r, s'⟩] := by
        refine List.append_cancel_left (?_ : c.world.log ++ _ = c.world.log ++ _)
        rw [← hd, World.push_log, ← hold, List.append_assoc]
      rcases List.eq_nil_or_concat after with rfl | ⟨after', last, rfl⟩
      · rw [hnew] at split
        obtain ⟨rfl, hlast⟩ := List.append_inj' split rfl
        obtain rfl := (List.cons.inj hlast).1
        exact ⟨ls, d, hrun, by simp [hold], ⟨call, next, hcall, rfl, hprog⟩, ch,
          hok call op next hcall hprog, hexec⟩
      · rw [hnew, List.concat_eq_append, ← List.cons_append, ← List.append_assoc] at split
        exact ih hold.symm (List.append_inj' split rfl).1
    · exact ih hd split
    · exact ih hd split

/-- So can a run whose moves meet a condition: the move that executed the event met it too. -/
theorem RunWhere.at_event
    {P : Conf σ Req Op Res ε α → Label Req Ch En → Conf σ Req Op Res ε α → Prop}
    (h : RunWhere M body P c ls d) {new : List (Event σ Req Op Res)}
    (hd : d.world.log = c.world.log ++ new) {before after : List (Event σ Req Op Res)}
    {e : Event σ Req Op Res} (split : new = before ++ e :: after) :
    ∃ ms c' ch d', RunWhere M body P c ms c' ∧ c'.world = ⟨e.pre, c.world.log ++ before⟩ ∧
      P c' (.run e.tid ch) d' ∧ M.exec e.tid ch e.pre e.op = some (e.res, e.post) := by
  induction h generalizing new after with
  | nil =>
    have : new = [] := by simpa using hd
    simp [this] at split
  | @snoc d d' ls l hrun hstep hP ih =>
    rcases step_cases hstep with ⟨req, _, rfl⟩ |
      ⟨t, ch, call, op, next, r, s', rfl, _, _, _, hexec, rfl⟩ | ⟨t, call, _, _, rfl⟩ |
      ⟨o, s', _, _, rfl⟩
    · exact ih hd split
    · obtain ⟨old, hold⟩ := hrun.run.log_prefix
      have hnew : new = old ++ [⟨t, call.req, op, d.world.store, r, s'⟩] := by
        refine List.append_cancel_left (?_ : c.world.log ++ _ = c.world.log ++ _)
        rw [← hd, World.push_log, ← hold, List.append_assoc]
      rcases List.eq_nil_or_concat after with rfl | ⟨after', last, rfl⟩
      · rw [hnew] at split
        obtain ⟨rfl, hlast⟩ := List.append_inj' split rfl
        obtain rfl := (List.cons.inj hlast).1
        exact ⟨ls, d, ch, _, hrun, by simp [hold], hP, hexec⟩
      · rw [hnew, List.concat_eq_append, ← List.cons_append, ← List.append_assoc] at split
        exact ih hold.symm (List.append_inj' split rfl).1
    · exact ih hd split
    · exact ih hd split

/-- What holds of every world that a run reaches held where an event was executed. -/
theorem Run.world_at {P : World σ Req Op Res → Prop} (h : Run M body S (.init s) ls d)
    {before after : List (Event σ Req Op Res)} {e : Event σ Req Op Res}
    (split : d.world.log = before ++ e :: after)
    (every : ∀ {ms c}, Run M body S (.init s) ms c → P c.world) : P ⟨e.pre, before⟩ := by
  obtain ⟨_, c', hrun, hworld, _⟩ := h.at_event (List.nil_append _).symm split
  have hP := every hrun
  rwa [hworld] at hP

/-- So did what holds of every store. -/
theorem Run.store_at {P : σ → Prop} (h : Run M body S (.init s) ls d) {e : Event σ Req Op Res}
    (he : e ∈ d.world.log) (every : ∀ {ms c}, Run M body S (.init s) ms c → P c.world.store) :
    P e.pre := by
  obtain ⟨before, after, split⟩ := List.append_of_mem he
  exact h.world_at (P := fun w => P w.store) split every

/-- Every logged event was executed. -/
theorem Run.executed (h : Run M body S (.init s) ls d) {e : Event σ Req Op Res}
    (he : e ∈ d.world.log) :
    ∃ w ch, S.run e.tid e.req w e.op ch ∧ M.exec e.tid ch e.pre e.op = some (e.res, e.post) := by
  obtain ⟨before, after, split⟩ := List.append_of_mem he
  obtain ⟨_, c', _, _, _, ch, hscope, hexec⟩ := h.at_event (List.nil_append _).symm split
  exact ⟨c'.world, ch, hscope, hexec⟩

/-- The same of an event known by what it did. -/
theorem Run.did (h : Run M body S (.init s) ls d) {e : Event σ Req Op Res}
    (he : e ∈ d.world.log) {x : Done Op Res} (hx : e.did = x) :
    ∃ w ch, S.run e.tid e.req w x.op ch ∧ M.exec e.tid ch e.pre x.op = some (x.res, e.post) := by
  subst hx
  exact h.executed he

/-- Where each call stands: its history leads there, and every logged event has its call. -/
structure Obeys (G : Req → List (Done Op Res) → Op → Prop)
    (Q : Req → List (Done Op Res) → Except ε α → Prop) (c : Conf σ Req Op Res ε α) : Prop where
  guarded : ∀ t call, c.pool[t]? = some call →
    Guarded (G call.req) (Q call.req) call.prog (history t c.world.log)
  called : ∀ e ∈ c.world.log, ∃ call, c.pool[e.tid]? = some call ∧ call.req = e.req

variable {G : Req → List (Done Op Res) → Op → Prop}
  {Q : Req → List (Done Op Res) → Except ε α → Prop}

/-- A call that has not arrived has no history. -/
theorem Obeys.unborn (h : Obeys G Q c) : history c.pool.length c.world.log = [] := by
  rw [List.eq_nil_iff_forall_not_mem]
  intro x hx
  obtain ⟨e, he, ht, _⟩ := mem_history.mp hx
  obtain ⟨call, hcall, _⟩ := h.called e he
  rw [ht] at hcall
  exact absurd (List.getElem?_eq_some_iff.mp hcall).1 (Nat.lt_irrefl _)

/-- What a list holds after one of its members was replaced. -/
theorem set_cases {γ : Type} {l : List γ} {t u : Nat} {x y : γ} (h : (l.set t x)[u]? = some y) :
    (t = u ∧ y = x) ∨ (t ≠ u ∧ l[u]? = some y) := by
  by_cases htu : t = u
  · subst htu
    obtain ⟨hlt, hy⟩ := List.getElem?_eq_some_iff.mp h
    exact .inl ⟨rfl, hy.symm.trans (List.getElem_set_self hlt)⟩
  · exact .inr ⟨htu, (List.getElem?_set_ne htu).symm.trans h⟩

/-- Replacing a call by one for the same request takes no request away. -/
theorem called_set {t u : Nat} {req : Req} {call call' : Call Req Op Res ε α}
    (hcall : c.pool[t]? = some call) (same : call'.req = call.req)
    (h : ∃ x, c.pool[u]? = some x ∧ x.req = req) :
    ∃ x, (c.pool.set t call')[u]? = some x ∧ x.req = req := by
  obtain ⟨x, hx, hreq⟩ := h
  by_cases htu : t = u
  · subst htu
    rw [hcall, Option.some.injEq] at hx
    refine ⟨call', List.getElem?_set_self (List.getElem?_eq_some_iff.mp hcall).1, ?_⟩
    rw [same, hx, hreq]
  · exact ⟨x, (List.getElem?_set_ne htu).trans hx, hreq⟩

/-- One move keeps every call where its history leads. -/
theorem Obeys.step (bodies : ∀ req, Guarded (G req) (Q req) (body req) [])
    (h : Obeys G Q c) {l : Label Req Ch En} (hstep : step M body c l = some d) :
    Obeys G Q d := by
  rcases step_cases hstep with ⟨req, _, rfl⟩ |
    ⟨t, ch, call, op, next, r, s', _, hcall, _, hprog, _, rfl⟩ | ⟨t, call, _, hcall, rfl⟩ |
    ⟨e, s', _, _, rfl⟩
  · refine ⟨?_, ?_⟩
    · intro u call hu
      rcases Nat.lt_or_ge u c.pool.length with hlt | hge
      · rw [List.getElem?_append_left hlt] at hu
        exact h.guarded u call hu
      · rw [List.getElem?_append_right hge] at hu
        obtain ⟨hzero, rfl⟩ := List.getElem?_eq_some_iff.mp hu
        have hu : u = c.pool.length := by
          simp only [List.length_singleton] at hzero
          omega
        subst hu
        simpa only [h.unborn, List.getElem_singleton] using bodies req
    · intro e he
      obtain ⟨call, hcall, hreq⟩ := h.called e he
      have hlt := (List.getElem?_eq_some_iff.mp hcall).1
      exact ⟨call, (List.getElem?_append_left hlt).trans hcall, hreq⟩
  · refine ⟨?_, ?_⟩
    · intro u call' hu
      rcases set_cases hu with ⟨rfl, rfl⟩ | ⟨htu, hu⟩
      · have hg := h.guarded t call hcall
        rw [hprog] at hg
        have grown : history t (c.world.push ⟨t, call.req, op, c.world.store, r, s'⟩).log =
            history t c.world.log ++ [⟨op, r⟩] := history_append_self _ rfl
        rw [grown]
        exact hg.2 r
      · rw [World.push_log, history_append_other _ htu]
        exact h.guarded u call' hu
    · intro e he
      refine called_set hcall rfl ?_
      rcases List.mem_append.mp he with he | he
      · exact h.called e he
      · obtain rfl := List.mem_singleton.mp he
        exact ⟨call, hcall, rfl⟩
  · refine ⟨?_, ?_⟩
    · intro u call' hu
      rcases set_cases hu with ⟨rfl, rfl⟩ | ⟨_, hu⟩
      · exact h.guarded t call hcall
      · exact h.guarded u call' hu
    · intro e he
      exact called_set hcall rfl (h.called e he)
  · exact ⟨h.guarded, h.called⟩

/-- **Guarded programs in a pool**: in every run from the empty pool each call stands where its
history leads. -/
theorem Run.obeys (bodies : ∀ req, Guarded (G req) (Q req) (body req) [])
    (h : Run M body S (.init s) ls d) : Obeys G Q d := by
  apply h.invariant
  · intro c d l hc _ hstep
    exact hc.step bodies hstep
  · refine ⟨?_, ?_⟩
    · intro t call hcall
      cases hcall
    · intro e he
      cases he

/-- Each logged operation is guarded by what its call had done before. -/
theorem Run.guard (bodies : ∀ req, Guarded (G req) (Q req) (body req) [])
    (h : Run M body S (.init s) ls d) {before after : List (Event σ Req Op Res)}
    {e : Event σ Req Op Res} (split : d.world.log = before ++ e :: after) :
    G e.req (history e.tid before) e.op := by
  obtain ⟨_, c', hrun, hworld, ⟨call, next, hcall, hreq, hprog⟩, _⟩ :=
    h.at_event (List.nil_append _).symm split
  have hg := (hrun.obeys bodies).guarded e.tid call hcall
  rw [hprog, hreq, hworld] at hg
  exact hg.1

/-- **The invariant rule for the world**: what holds of the empty log, and is kept by every event
that its call's history guards and by the outside, holds of every run. -/
theorem Run.world_invariant {P : World σ Req Op Res → Prop}
    (bodies : ∀ req, Guarded (G req) (Q req) (body req) [])
    (event : ∀ {ms c e}, Run M body S (.init s) ms c → P c.world → e.pre = c.world.store →
      (∃ ch, S.run e.tid e.req c.world e.op ch ∧
        M.exec e.tid ch e.pre e.op = some (e.res, e.post)) →
      G e.req (history e.tid c.world.log) e.op → P (c.world.push e))
    (outside : ∀ {ms c o s'}, Run M body S (.init s) ms c → P c.world →
      M.env o c.world.store = some s' → P (c.world.moved s'))
    (start : P ⟨s, []⟩) (h : Run M body S (.init s) ls d) : P d.world := by
  induction h with
  | nil => exact start
  | @snoc c d ls l hrun hok hstep ih =>
    rcases step_cases hstep with ⟨req, _, rfl⟩ |
      ⟨t, ch, call, op, next, r, s', rfl, hcall, _, hprog, hexec, rfl⟩ | ⟨t, call, _, _, rfl⟩ |
      ⟨o, s', _, henv, rfl⟩
    · exact ih
    · have hg := (hrun.obeys bodies).guarded t call hcall
      rw [hprog] at hg
      exact event (e := ⟨t, call.req, op, c.world.store, r, s'⟩) hrun ih rfl
        ⟨ch, hok call op next hcall hprog, hexec⟩ hg.1
    · exact ih
    · exact outside hrun ih henv

/-- Each result answers what its call has done. -/
theorem Run.answer (bodies : ∀ req, Guarded (G req) (Q req) (body req) [])
    (h : Run M body S (.init s) ls d) {t : Nat} {req : Req} {r : Except ε α}
    (hr : d.returned t req r) : Q req (history t d.world.log) r := by
  obtain ⟨call, hcall, rfl, hres⟩ := hr
  have hg := (h.obeys bodies).guarded t call hcall
  cases hprog : call.prog with
  | ret a =>
    rw [hprog] at hg hres
    cases hres
    exact hg
  | raise e =>
    rw [hprog] at hg hres
    cases hres
    exact hg
  | await op next =>
    rw [hprog] at hres
    cases hres

/-- **A call that did something after which nothing is guarded has returned.** -/
theorem Run.ended (bodies : ∀ req, Guarded (G req) (Q req) (body req) [])
    (h : Run M body S (.init s) ls d) {e : Event σ Req Op Res} (he : e ∈ d.world.log)
    (last : ∀ hist op, e.did ∈ hist → ¬ G e.req hist op) :
    ∃ r, d.returned e.tid e.req r ∧ Q e.req (history e.tid d.world.log) r := by
  have hobeys := h.obeys bodies
  obtain ⟨call, hcall, hreq⟩ := hobeys.called e he
  have hguarded := hobeys.guarded e.tid call hcall
  have hdone : e.did ∈ history e.tid d.world.log := mem_history.mpr ⟨e, he, rfl, rfl⟩
  rw [hreq] at hguarded
  cases hprog : call.prog with
  | ret a =>
    rw [hprog] at hguarded
    exact ⟨.ok a, ⟨call, hcall, hreq, by rw [hprog, Prog.result?_ret]⟩, hguarded⟩
  | raise e' =>
    rw [hprog] at hguarded
    exact ⟨.error e', ⟨call, hcall, hreq, by rw [hprog, Prog.result?_raise]⟩, hguarded⟩
  | await op next =>
    rw [hprog] at hguarded
    exact absurd hguarded.1 (last _ op hdone)

/-- The events of one call are for one request. -/
theorem Obeys.same_req (h : Obeys G Q d) {a b : Event σ Req Op Res} (ha : a ∈ d.world.log)
    (hb : b ∈ d.world.log) (ht : a.tid = b.tid) : a.req = b.req := by
  obtain ⟨x, hx, hax⟩ := h.called a ha
  obtain ⟨y, hy, hby⟩ := h.called b hb
  rw [ht, hy, Option.some.injEq] at hx
  rw [← hax, ← hby, hx]

/-- The events of a returned call are for its request. -/
theorem Run.own_req (bodies : ∀ req, Guarded (G req) (Q req) (body req) [])
    (h : Run M body S (.init s) ls d) {t : Nat} {req : Req} {r : Except ε α}
    (hr : d.returned t req r) {e : Event σ Req Op Res} (he : e ∈ d.world.log)
    (ht : e.tid = t) : e.req = req := by
  obtain ⟨call, hcall, rfl, _⟩ := hr
  obtain ⟨call', hcall', hreq⟩ := (h.obeys bodies).called e he
  rw [ht, hcall, Option.some.injEq] at hcall'
  rw [← hreq, ← hcall']

end Runs

/-! ## The order of the log -/

section Order

variable {γ : Type}

/-- `b` stands in the list with `a` before it. -/
def Precedes (l : List γ) (a b : γ) : Prop := ∃ before after, l = before ++ b :: after ∧ a ∈ before

theorem Precedes.left {l : List γ} {a b : γ} (h : Precedes l a b) : a ∈ l := by
  obtain ⟨before, after, rfl, ha⟩ := h
  exact List.mem_append_left _ ha

theorem Precedes.right {l : List γ} {a b : γ} (h : Precedes l a b) : b ∈ l := by
  obtain ⟨before, after, rfl, ha⟩ := h
  simp

/-- What holds pairwise holds of what precedes. -/
theorem Precedes.rel {R : γ → γ → Prop} {l : List γ} (hl : l.Pairwise R) {a b : γ}
    (h : Precedes l a b) : R a b := by
  obtain ⟨before, after, rfl, ha⟩ := h
  exact (List.pairwise_append.mp hl).2.2 a ha b List.mem_cons_self

/-- What stands earlier precedes. -/
theorem precedes_of_getElem? {l : List γ} {a b : γ} {i j : Nat} (ha : l[i]? = some a)
    (hb : l[j]? = some b) (hij : i < j) : Precedes l a b := by
  obtain ⟨hj, rfl⟩ := List.getElem?_eq_some_iff.mp hb
  refine ⟨l.take j, l.drop (j + 1), ?_, ?_⟩
  · rw [List.getElem_cons_drop, List.take_append_drop]
  · exact List.mem_of_getElem? (List.getElem?_take_of_lt hij ▸ ha)

theorem Precedes.getElem? {l : List γ} {a b : γ} (h : Precedes l a b) :
    ∃ i j : Nat, i < j ∧ l[i]? = some a ∧ l[j]? = some b := by
  obtain ⟨before, after, rfl, ha⟩ := h
  obtain ⟨i, hi, rfl⟩ := List.getElem_of_mem ha
  exact ⟨i, before.length, hi, by simp [List.getElem?_append_left hi], by simp⟩

/-- Order passes over a member that stands in the list once. -/
theorem Precedes.trans {l : List γ} {a b c : γ} (h : Precedes l a b) (once : ¬ Precedes l b b)
    (h' : Precedes l b c) : Precedes l a c := by
  obtain ⟨i, j, hij, ha, hb⟩ := h.getElem?
  obtain ⟨j', k, hjk, hb', hc⟩ := h'.getElem?
  rcases Nat.lt_or_ge j' j with hlt | hge
  · exact absurd (precedes_of_getElem? hb' hb hlt) once
  · exact precedes_of_getElem? ha hc (by omega)

/-- What precedes a member that stands in the list once is before it. -/
theorem Precedes.mem_before {l : List γ} {a b : γ} (h : Precedes l a b)
    (once : ¬ Precedes l b b) {before after : List γ} (split : l = before ++ b :: after) :
    a ∈ before := by
  obtain ⟨i, j, hij, ha, hb⟩ := h.getElem?
  have hhere : l[before.length]? = some b := by simp [split]
  have hj : j = before.length := by
    rcases Nat.lt_trichotomy j before.length with hlt | heq | hgt
    · exact absurd (precedes_of_getElem? hb hhere hlt) once
    · exact heq
    · exact absurd (precedes_of_getElem? hhere hb hgt) once
  rw [split, List.getElem?_append_left (hj ▸ hij)] at ha
  exact List.mem_of_getElem? ha

/-- Of two members of a list one precedes the other, unless they are the same. -/
theorem precedes_total {l : List γ} {a b : γ} (ha : a ∈ l) (hb : b ∈ l) :
    a = b ∨ Precedes l a b ∨ Precedes l b a := by
  obtain ⟨x, y, rfl⟩ := List.append_of_mem ha
  rcases List.mem_append.mp hb with hb | hb
  · exact .inr (.inr ⟨x, y, rfl, hb⟩)
  · rcases List.mem_cons.mp hb with rfl | hb
    · exact .inl rfl
    · obtain ⟨u, v, rfl⟩ := List.append_of_mem hb
      exact .inr (.inl ⟨x ++ a :: u, v, by simp, by simp⟩)

/-- What holds of what precedes holds pairwise. -/
theorem pairwise_of_precedes {R : γ → γ → Prop} : ∀ {l : List γ},
    (∀ a b, Precedes l a b → R a b) → l.Pairwise R
  | [], _ => .nil
  | a :: l, h => by
    refine List.pairwise_cons.mpr ⟨?_, pairwise_of_precedes fun b c hbc => h b c ?_⟩
    · intro b hb
      obtain ⟨before, after, rfl⟩ := List.append_of_mem hb
      exact h a b ⟨a :: before, after, rfl, List.mem_cons_self⟩
    · obtain ⟨before, after, rfl, hb⟩ := hbc
      exact ⟨a :: before, after, rfl, List.mem_cons_of_mem _ hb⟩

/-- The last of the members with `q`, and those before it, where no two of them have the same `f`. -/
theorem last_of_filter {δ : Type} {q : γ → Bool} {f : γ → δ} {l : List γ}
    (apart : ∀ a b, Precedes l a b → q a = true → q b = true → f a ≠ f b) :
    l.filter q = [] ∨ ∃ init b, l.filter q = init ++ [b] ∧ b ∈ l ∧ q b = true ∧
      (init.map f).Nodup ∧ ∀ a ∈ init, Precedes l a b ∧ q a = true := by
  rcases List.eq_nil_or_concat (l.filter q) with hnil | ⟨init, b, hlast⟩
  · exact .inl hnil
  · rw [List.concat_eq_append] at hlast
    obtain ⟨l₁, l₂, rfl, rfl, hb⟩ := List.filter_eq_append_iff.mp hlast
    obtain ⟨hbmem, hqb⟩ := List.mem_filter.mp (hb ▸ List.mem_cons_self : b ∈ l₂.filter q)
    obtain ⟨mid, rest, rfl⟩ := List.append_of_mem hbmem
    refine .inr ⟨l₁.filter q, b, hlast, List.mem_append_right _ hbmem, hqb, ?_, ?_⟩
    · have hpair := (List.pairwise_append.mp (pairwise_of_precedes apart)).1
      refine List.pairwise_map.mpr (List.pairwise_filter.mpr ?_)
      exact hpair.imp fun h ha hb => h ha hb
    · intro a ha
      obtain ⟨ha, hqa⟩ := List.mem_filter.mp ha
      exact ⟨⟨l₁ ++ mid, rest, by simp, List.mem_append_left _ ha⟩, hqa⟩

/-- After every member with `p` there is one with `q`. -/
def followed (p q : γ → Bool) : List γ → Bool
  | [] => true
  | a :: l => (!p a || l.any q) && followed p q l

theorem followed_snoc (p q : γ → Bool) (l : List γ) (x : γ) :
    followed p q (l ++ [x]) = (!p x && (q x || followed p q l)) := by
  induction l with
  | nil => simp [followed]
  | cons a l ih =>
    rw [List.cons_append, followed, ih, followed, List.any_append, List.any_cons, List.any_nil,
      Bool.or_false]
    cases q x <;> cases p x <;> simp

/-- What a call had done before an event is in the log, before it. -/
theorem event_of_history {t : Nat} {before : List (Event σ Req Op Res)} {x : Done Op Res}
    (after : List (Event σ Req Op Res)) (e : Event σ Req Op Res) (hx : x ∈ history t before) :
    ∃ a ∈ before, a.tid = t ∧ a.did = x ∧ Precedes (before ++ e :: after) a e := by
  obtain ⟨a, ha, ht, hdid⟩ := mem_history.mp hx
  exact ⟨a, ha, ht, hdid, before, after, rfl, ha⟩

/-- One operation of a history is that of an event, between those of the others. -/
theorem history_split {t : Nat} {es : List (Event σ Req Op Res)} {before after : List (Done Op Res)}
    {x : Done Op Res} (h : history t es = before ++ x :: after) :
    ∃ es₁ e es₂, es = es₁ ++ e :: es₂ ∧ e.tid = t ∧ e.did = x ∧ history t es₁ = before ∧
      history t es₂ = after := by
  obtain ⟨l, l', hfilter, rfl, hl'⟩ := List.map_eq_append_iff.mp h
  obtain ⟨e, rest, rfl, hx, hafter⟩ := List.map_eq_cons_iff.mp hl'
  obtain ⟨es₁, es₂, rfl, rfl, hrest⟩ := List.filter_eq_append_iff.mp hfilter
  obtain ⟨mid, last, rfl, hmid, he, rfl⟩ := List.filter_eq_cons_iff.mp hrest
  refine ⟨es₁ ++ mid, e, last, by simp, beq_iff_eq.mp he, hx, ?_, hafter⟩
  rw [history, List.filter_append, List.filter_eq_nil_iff.mpr hmid, List.append_nil]

/-- What is not in the history of a call is no event of it. -/
theorem no_event {t : Nat} {es : List (Event σ Req Op Res)} (h : history t es = [])
    {e : Event σ Req Op Res} (he : e ∈ es) : e.tid ≠ t := by
  intro ht
  have hmem : e.did ∈ history t es := mem_history.mpr ⟨e, he, ht, rfl⟩
  rw [h] at hmem
  cases hmem

/-- A history of two operations is that of two events. -/
theorem history_pair {t : Nat} {es : List (Event σ Req Op Res)} {x y : Done Op Res}
    (h : history t es = [x, y]) :
    ∃ a b, Precedes es a b ∧ a.tid = t ∧ b.tid = t ∧ a.did = x ∧ b.did = y ∧
      ∀ e ∈ es, e.tid = t → e = a ∨ e = b := by
  obtain ⟨es₁, a, rest, rfl, hat, hx, hbefore, hrest⟩ := history_split
    (show history t es = [] ++ x :: [y] from h)
  obtain ⟨mid, b, es₂, rfl, hbt, hy, hmid, hafter⟩ := history_split
    (show history t rest = [] ++ y :: [] from hrest)
  refine ⟨a, b, ⟨es₁ ++ a :: mid, es₂, by simp, by simp⟩, hat, hbt, hx, hy, ?_⟩
  intro e he ht
  simp only [List.mem_append, List.mem_cons] at he
  rcases he with he | rfl | he | rfl | he
  · exact absurd ht (no_event hbefore he)
  · exact .inl rfl
  · exact absurd ht (no_event hmid he)
  · exact .inr rfl
  · exact absurd ht (no_event hafter he)

end Order

section Between

variable {M : Machine σ Op Res Ch En} {body : Req → Prog Op Res ε α}
  {S : Scope σ Req Op Res Ch} {s : σ} {d : Conf σ Req Op Res ε α}
  {ls : List (Label Req Ch En)} {R : σ → σ → Prop}

/-- A preorder of stores that every move follows. -/
structure Follows (M : Machine σ Op Res Ch En) (R : σ → σ → Prop) : Prop where
  refl : ∀ s, R s s
  trans : ∀ {s₁ s₂ s₃}, R s₁ s₂ → R s₂ s₃ → R s₁ s₃
  exec : ∀ {t ch s op r s'}, M.exec t ch s op = some (r, s') → R s s'
  env : ∀ {e s s'}, M.env e s = some s' → R s s'

theorem Follows.step (F : Follows M R) {c d : Conf σ Req Op Res ε α} {l : Label Req Ch En}
    (hstep : step M body c l = some d) : R c.world.store d.world.store := by
  rcases step_cases hstep with ⟨req, _, rfl⟩ |
    ⟨t, ch, call, op, next, r, s', _, _, _, _, hexec, rfl⟩ | ⟨t, call, _, _, rfl⟩ |
    ⟨e, s', _, henv, rfl⟩
  · exact F.refl _
  · exact F.exec hexec
  · exact F.refl _
  · exact F.env henv

/-- The store after a run follows the store before. -/
theorem Run.follows (F : Follows M R) {c : Conf σ Req Op Res ε α} (h : Run M body S c ls d) :
    R c.world.store d.world.store := by
  refine h.invariant (P := fun d => R c.world.store d.world.store) ?_ (F.refl _)
  intro e f l he _ hstep
  exact F.trans he (F.step hstep)

/-- What relates the two stores of every event after one, and those of every move of the outside,
relates the store that this event left to the store at the end. -/
theorem Run.along_after (refl : ∀ s, R s s) (trans : ∀ {s₁ s₂ s₃}, R s₁ s₂ → R s₂ s₃ → R s₁ s₃)
    (outside : ∀ {o s s'}, M.env o s = some s' → R s s') (h : Run M body S (.init s) ls d)
    {before after : List (Event σ Req Op Res)} {a : Event σ Req Op Res}
    (split : d.world.log = before ++ a :: after) (events : ∀ x ∈ after, R x.pre x.post) :
    R a.post d.world.store := by
  induction h generalizing after with
  | nil =>
    have hlen := congrArg List.length split
    simp [Conf.init] at hlen
  | @snoc c d ls l _ _ hstep ih =>
    rcases step_cases hstep with ⟨req, _, rfl⟩ |
      ⟨t, ch, call, op, next, r, s', _, _, _, _, hexec, rfl⟩ | ⟨t, call, _, _, rfl⟩ |
      ⟨o, s', _, henv, rfl⟩
    · exact ih split events
    · rcases List.eq_nil_or_concat after with rfl | ⟨after', last, rfl⟩
      · obtain ⟨_, hlast⟩ := List.append_inj' split rfl
        obtain rfl := (List.cons.inj hlast).1
        exact refl _
      · rw [List.concat_eq_append, ← List.cons_append, ← List.append_assoc] at split
        obtain ⟨hbefore, hlast⟩ := List.append_inj' split rfl
        obtain rfl := (List.cons.inj hlast).1
        rw [List.concat_eq_append] at events
        have last := events _ (List.mem_append_right _ List.mem_cons_self)
        exact trans (ih hbefore fun x hx => events x (List.mem_append_left _ hx)) last
    · exact ih split events
    · exact trans (ih split events) (outside henv)

/-- What relates the two stores of every event of a run, and those of every move of the outside,
relates the store before the run to the store after. -/
theorem Run.along_from (refl : ∀ s, R s s) (trans : ∀ {s₁ s₂ s₃}, R s₁ s₂ → R s₂ s₃ → R s₁ s₃)
    (outside : ∀ {o s s'}, M.env o s = some s' → R s s') {c : Conf σ Req Op Res ε α}
    (h : Run M body S c ls d) (events : ∀ e ∈ d.world.log, R e.pre e.post) :
    R c.world.store d.world.store := by
  induction h with
  | nil => exact refl _
  | @snoc c' d ls l _ _ hstep ih =>
    rcases step_cases hstep with ⟨req, _, rfl⟩ |
      ⟨t, ch, call, op, next, r, s', _, _, _, _, _, rfl⟩ | ⟨t, call, _, _, rfl⟩ |
      ⟨o, s', _, henv, rfl⟩
    · exact ih events
    · refine trans (ih fun e he => events e (List.mem_append_left _ he)) ?_
      exact events _ (List.mem_append_right _ List.mem_cons_self)
    · exact ih events
    · exact trans (ih events) (outside henv)

/-- What relates the two stores of every event relates the store that any event left to the store
at the end. -/
theorem Run.along (refl : ∀ s, R s s) (trans : ∀ {s₁ s₂ s₃}, R s₁ s₂ → R s₂ s₃ → R s₁ s₃)
    (outside : ∀ {o s s'}, M.env o s = some s' → R s s') (h : Run M body S (.init s) ls d)
    (events : ∀ e ∈ d.world.log, R e.pre e.post) :
    ∀ e ∈ d.world.log, R e.post d.world.store := by
  intro e he
  obtain ⟨before, after, split⟩ := List.append_of_mem he
  refine h.along_after refl trans outside split ?_
  intro x hx
  exact events x (split ▸ List.mem_append_right _ (List.mem_cons_of_mem _ hx))

/-- And to the store that any later event found. -/
theorem Run.along_between (refl : ∀ s, R s s)
    (trans : ∀ {s₁ s₂ s₃}, R s₁ s₂ → R s₂ s₃ → R s₁ s₃)
    (outside : ∀ {o s s'}, M.env o s = some s' → R s s') (h : Run M body S (.init s) ls d)
    (events : ∀ e ∈ d.world.log, R e.pre e.post) {a b : Event σ Req Op Res}
    (hab : Precedes d.world.log a b) : R a.post b.pre := by
  obtain ⟨before, after, split, ha⟩ := hab
  obtain ⟨_, c', hrun, hworld, _⟩ := h.at_event (List.nil_append _).symm split
  have hlog : c'.world.log = before := congrArg World.log hworld
  have hsince := hrun.along refl trans outside (fun e he => events e ?_) a (hlog ▸ ha)
  · rwa [hworld] at hsince
  · rw [split]
    exact List.mem_append_left _ (hlog ▸ he)

/-- What has become true in a run, and not by the outside, became so by an event. -/
theorem Run.becomes {P : σ → Prop} (outside : ∀ {o s s'}, M.env o s = some s' → P s' → P s)
    (h : Run M body S (.init s) ls d) (hstart : ¬ P s) (hend : P d.world.store) :
    ∃ e ∈ d.world.log, ¬ P e.pre ∧ P e.post := by
  induction h with
  | nil => exact absurd hend hstart
  | @snoc c d ls l _ _ hstep ih =>
    rcases step_cases hstep with ⟨req, _, rfl⟩ |
      ⟨t, ch, call, op, next, r, s', _, _, _, _, _, rfl⟩ | ⟨t, call, _, _, rfl⟩ |
      ⟨o, s', _, henv, rfl⟩
    · exact ih hend
    · by_cases hbefore : P c.world.store
      · obtain ⟨e, he, hturn⟩ := ih hbefore
        exact ⟨e, List.mem_append_left _ he, hturn⟩
      · exact ⟨_, List.mem_append_right _ List.mem_cons_self, hbefore, hend⟩
    · exact ih hend
    · exact ih (outside henv hend)

/-- The store at the end follows the store that any event left. -/
theorem Run.since (F : Follows M R) (h : Run M body S (.init s) ls d)
    {e : Event σ Req Op Res} (he : e ∈ d.world.log) : R e.post d.world.store := by
  refine h.along F.refl F.trans F.env ?_ e he
  intro e he
  obtain ⟨_, _, _, hexec⟩ := h.executed he
  exact F.exec hexec

/-- **What happens between two events**: the later one found a store that follows what the
earlier one left. -/
theorem Run.between (F : Follows M R) (h : Run M body S (.init s) ls d)
    {a b : Event σ Req Op Res} (hab : Precedes d.world.log a b) : R a.post b.pre := by
  refine h.along_between F.refl F.trans F.env ?_ hab
  intro e he
  obtain ⟨_, _, _, hexec⟩ := h.executed he
  exact F.exec hexec

end Between

end Conc

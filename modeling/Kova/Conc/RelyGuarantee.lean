import Kova.Conc.Pool

/-!
# Rely and guarantee over a pool

`Safe` says of one call, program and world: whatever the others do within the call's *rely*,
each operation the call executes keeps the invariant and stays within its *guarantee*, and where
the program ends its postcondition holds, and goes on holding. It is a recursion on the
program, so a handler is verified by walking its tree once (`safe_await`, `safe_ret`,
`Safe.bind` for a function it calls).

`Protocol` collects what makes the local arguments add up: a rely is a preorder, one call's
guarantee lies within every other call's rely, and so do the outside's moves. Under a protocol,
calls whose programs are `Safe` when they arrive stay so in every run (`Run.sound`), and a
finished call has its postcondition (`Sound.result`).
-/

namespace Conc

variable {σ Req Op Ch En ε α β : Type} {Res : Op → Type}

/-- The invariant, and what each call relies on and guarantees. -/
structure Terms (σ Req Op : Type) (Res : Op → Type) where
  inv : World σ Req Op Res → Prop
  rely : Nat → World σ Req Op Res → World σ Req Op Res → Prop
  guar : Nat → World σ Req Op Res → World σ Req Op Res → Prop

/-- Between two operations of call `t` the others executed only operations of their own. -/
structure Others (t : Nat) (w w' : World σ Req Op Res) : Prop where
  log : w.log <+: w'.log
  own : w'.own t = w.own t

theorem Others.refl (t : Nat) (w : World σ Req Op Res) : Others t w w :=
  ⟨List.prefix_rfl, rfl⟩

theorem Others.trans {t : Nat} {w₁ w₂ w₃ : World σ Req Op Res} (h : Others t w₁ w₂)
    (h' : Others t w₂ w₃) : Others t w₁ w₃ :=
  ⟨h.log.trans h'.log, h'.own.trans h.own⟩

theorem Others.push {t : Nat} {w : World σ Req Op Res} {e : Event σ Req Op Res}
    (h : e.tid ≠ t) : Others t w (w.push e) :=
  ⟨List.prefix_append _ _, w.own_push_other h⟩

theorem Others.moved {t : Nat} (w : World σ Req Op Res) (s : σ) : Others t w (w.moved s) :=
  ⟨List.prefix_rfl, rfl⟩

section Safe

variable (M : Machine σ Op Res Ch En) (S : Scope σ Req Op Res Ch) (T : Terms σ Req Op Res)
  (t : Nat) (req : Req)

/-- **A call is safe** in a world: along every way its program can go on, whatever the others do
within the rely. -/
def Safe (Q : Except ε α → World σ Req Op Res → Prop) :
    Prog Op Res ε α → World σ Req Op Res → Prop
  | .ret a, w => ∀ w', T.rely t w w' → T.inv w' → Q (.ok a) w'
  | .raise e, w => ∀ w', T.rely t w w' → T.inv w' → Q (.error e) w'
  | .await op next, w => ∀ w', T.rely t w w' → T.inv w' → ∀ ch, S.run t req w' op ch →
      ∀ r s, M.exec t ch w'.store op = some (r, s) →
        T.inv (w'.push ⟨t, req, op, w'.store, r, s⟩) ∧
        T.guar t w' (w'.push ⟨t, req, op, w'.store, r, s⟩) ∧
        Safe Q (next r) (w'.push ⟨t, req, op, w'.store, r, s⟩)

/-- What makes local arguments add up. -/
structure Protocol : Prop where
  refl : ∀ u w, T.rely u w w
  trans : ∀ u w₁ w₂ w₃, T.rely u w₁ w₂ → T.rely u w₂ w₃ → T.rely u w₁ w₃
  other : ∀ u v w w', u ≠ v → T.inv w → T.inv w' → T.guar u w w' → T.rely v w w'
  env : ∀ e w s, T.inv w → M.env e w.store = some s →
    T.inv (w.moved s) ∧ ∀ u, T.rely u w (w.moved s)

end Safe

variable {M : Machine σ Op Res Ch En} {S : Scope σ Req Op Res Ch} {T : Terms σ Req Op Res}
  {t : Nat} {req : Req} {Q : Except ε α → World σ Req Op Res → Prop}

theorem safe_ret {a : α} {w : World σ Req Op Res}
    (h : ∀ w', T.rely t w w' → T.inv w' → Q (.ok a) w') :
    Safe M S T t req Q (.ret a) w := h

theorem safe_raise {e : ε} {w : World σ Req Op Res}
    (h : ∀ w', T.rely t w w' → T.inv w' → Q (.error e) w') :
    Safe M S T t req Q (.raise e) w := h

theorem safe_await {op : Op} {next : Res op → Prog Op Res ε α} {w : World σ Req Op Res}
    (h : ∀ w', T.rely t w w' → T.inv w' → ∀ ch, S.run t req w' op ch →
      ∀ r s, M.exec t ch w'.store op = some (r, s) →
        T.inv (w'.push ⟨t, req, op, w'.store, r, s⟩) ∧
        T.guar t w' (w'.push ⟨t, req, op, w'.store, r, s⟩) ∧
        Safe M S T t req Q (next r) (w'.push ⟨t, req, op, w'.store, r, s⟩)) :
    Safe M S T t req Q (.await op next) w := h

/-- A safe call stays safe while the others move. -/
theorem Safe.rely (P : Protocol M T) {p : Prog Op Res ε α} {w w' : World σ Req Op Res}
    (h : Safe M S T t req Q p w) (hw : T.rely t w w') : Safe M S T t req Q p w' := by
  cases p with
  | ret a => exact fun w₂ h₂ => h w₂ (P.trans t _ _ _ hw h₂)
  | raise e => exact fun w₂ h₂ => h w₂ (P.trans t _ _ _ hw h₂)
  | await op next => exact fun w₂ h₂ => h w₂ (P.trans t _ _ _ hw h₂)

/-- A call is safe here if it is safe wherever the others may have taken it. -/
theorem Safe.of_rely (P : Protocol M T) {p : Prog Op Res ε α} {w : World σ Req Op Res}
    (h : ∀ w', T.rely t w w' → T.inv w' → Safe M S T t req Q p w') :
    Safe M S T t req Q p w := by
  cases p with
  | ret a => exact fun w' hr hi => h w' hr hi w' (P.refl t w') hi
  | raise e => exact fun w' hr hi => h w' hr hi w' (P.refl t w') hi
  | await op next => exact fun w' hr hi => h w' hr hi w' (P.refl t w') hi

/-- **A function that calls another** is safe if the other is, with a postcondition from which
the rest is. -/
theorem Safe.bind (P : Protocol M T) {Q' : Except ε β → World σ Req Op Res → Prop}
    {p : Prog Op Res ε β} {f : β → Prog Op Res ε α}
    (raised : ∀ e w, Q' (.error e) w → Q (.error e) w)
    (rest : ∀ b w, T.inv w → Q' (.ok b) w → Safe M S T t req Q (f b) w) :
    ∀ {w : World σ Req Op Res}, Safe M S T t req Q' p w → Safe M S T t req Q (p >>= f) w := by
  induction p with
  | ret b =>
    intro w h
    exact .of_rely P fun w' hr hi => rest b w' hi (h w' hr hi)
  | raise e => exact fun h w' hr hi => raised e w' (h w' hr hi)
  | await op next ih =>
    intro w h w' hr hi ch hok r s hexec
    obtain ⟨hinv, hguar, hnext⟩ := h w' hr hi ch hok r s hexec
    exact ⟨hinv, hguar, ih r hnext⟩

/-! ## The pool -/

section Pool

variable (M S T)
variable (post : Nat → Req → Except ε α → World σ Req Op Res → Prop)
  (idle : Nat → World σ Req Op Res → Prop)

/-- Every call of the configuration is safe, and a number not yet given to a call is idle. -/
structure Sound (c : Conf σ Req Op Res ε α) : Prop where
  inv : T.inv c.world
  calls : ∀ (t : Nat) (call : Call Req Op Res ε α), c.pool[t]? = some call →
    Safe M S T t call.req (post t call.req) call.prog c.world
  idle : ∀ t, c.pool.length ≤ t → idle t c.world

end Pool

variable {post : Nat → Req → Except ε α → World σ Req Op Res → Prop}
  {idle : Nat → World σ Req Op Res → Prop} {body : Req → Prog Op Res ε α}

/-- **A finished call has its postcondition.** -/
theorem Sound.result (P : Protocol M T) {c : Conf σ Req Op Res ε α}
    (h : Sound M S T post idle c) {t : Nat} {call : Call Req Op Res ε α}
    (hcall : c.pool[t]? = some call) {r : Except ε α} (hr : call.prog.result? = some r) :
    post t call.req r c.world := by
  have safe := h.calls t call hcall
  cases hp : call.prog with
  | ret a =>
    rw [hp] at hr safe
    cases hr
    exact safe c.world (P.refl t _) h.inv
  | raise e =>
    rw [hp] at hr safe
    cases hr
    exact safe c.world (P.refl t _) h.inv
  | await op next => rw [hp] at hr; cases hr

/-- One move in scope keeps every call safe: the mover by its own program, every other call by
its rely. -/
theorem Sound.step (P : Protocol M T)
    (arrive : ∀ t req w, S.spawn req → T.inv w → idle t w →
      Safe M S T t req (post t req) (body req) w)
    (rest : ∀ t w w', T.rely t w w' → idle t w → idle t w')
    {c d : Conf σ Req Op Res ε α} {l : Label Req Ch En} (h : Sound M S T post idle c)
    (hok : S.allows c l) (hstep : step M body c l = some d) : Sound M S T post idle d := by
  rcases step_cases hstep with ⟨req, rfl, rfl⟩ |
    ⟨t, ch, call, op, next, r, s, rfl, hcall, _, hprog, hexec, rfl⟩ | ⟨t, call, rfl, hcall, rfl⟩ |
    ⟨e, s, rfl, henv, rfl⟩
  · -- a call arrives: the new number was idle
    refine ⟨h.inv, fun t call ht => ?_, fun t ht => h.idle t ?_⟩
    · by_cases hlt : t < c.pool.length
      · rw [List.getElem?_append_left hlt] at ht
        exact h.calls t call ht
      · have hlen : c.pool.length ≤ t := Nat.le_of_not_lt hlt
        rw [List.getElem?_append_right hlen] at ht
        have hmem := List.mem_singleton.mp (List.mem_of_getElem? ht)
        subst hmem
        exact arrive t req _ hok h.inv (h.idle t hlen)
    · simp only [List.length_append, List.length_singleton] at ht
      omega
  · -- call `t` executes its next operation
    have safe := h.calls t call hcall
    rw [hprog] at safe
    obtain ⟨hinv, hguar, hnext⟩ :=
      safe c.world (P.refl t _) h.inv ch (hok call op next hcall hprog) r s hexec
    refine ⟨hinv, fun u call' hu => ?_, fun u hu => ?_⟩
    · by_cases htu : t = u
      · subst htu
        have hlt := (List.getElem?_eq_some_iff.mp hcall).1
        rw [List.getElem?_set_self hlt, Option.some.injEq] at hu
        subst hu
        exact hnext
      · rw [List.getElem?_set_ne htu] at hu
        exact (h.calls u call' hu).rely P (P.other t u _ _ htu h.inv hinv hguar)
    · rw [List.length_set] at hu
      have hlt := (List.getElem?_eq_some_iff.mp hcall).1
      exact rest u _ _ (P.other t u _ _ (by omega) h.inv hinv hguar) (h.idle u hu)
  · -- a call is dropped: its program is left where it is
    refine ⟨h.inv, fun u call' hu => ?_, fun u hu => h.idle u (by simpa using hu)⟩
    by_cases htu : t = u
    · subst htu
      have hlt := (List.getElem?_eq_some_iff.mp hcall).1
      rw [List.getElem?_set_self hlt, Option.some.injEq] at hu
      subst hu
      exact h.calls t call hcall
    · rw [List.getElem?_set_ne htu] at hu
      exact h.calls u call' hu
  · -- the outside moves
    obtain ⟨hinv, hrely⟩ := P.env e c.world s h.inv henv
    exact ⟨hinv, fun u call hu => (h.calls u call hu).rely P (hrely u),
      fun u hu => rest u _ _ (hrely u) (h.idle u hu)⟩

/-- **The rule of the pool**: calls that are safe when they arrive are safe in every run. -/
theorem Run.sound (P : Protocol M T)
    (arrive : ∀ t req w, S.spawn req → T.inv w → idle t w →
      Safe M S T t req (post t req) (body req) w)
    (rest : ∀ t w w', T.rely t w w' → idle t w → idle t w')
    {c d : Conf σ Req Op Res ε α} {ls : List (Label Req Ch En)} (h : Run M body S c ls d)
    (start : Sound M S T post idle c) : Sound M S T post idle d :=
  h.invariant (fun hc hok hstep => hc.step P arrive rest hok hstep) start

end Conc

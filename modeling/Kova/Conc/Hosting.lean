import Mathlib.Data.List.Basic
import Kova.Conc.History

/-!
# A service among others

A pool often runs next to other work on the same store: its operations are some of a larger
set, its store a part of a larger one. `Hosts` says that the larger machine does to that part
what the smaller machine does. Then every run of the larger pool is, on that part, a run of the
smaller one (`Run.hosted`), in which the calls that are no guests never move. What is proved of
the smaller service holds of it among others.
-/

set_option autoImplicit false

namespace Conc

variable {σ σ' Req Req' Op Op' Ch Ch' En En' ε ε' α α' : Type} {Res : Op → Type}
  {Res' : Op' → Type}

/-- Both machines do the same to the part of the store that `part` cuts out. -/
structure Hosts (M : Machine σ Op Res Ch En) (M' : Machine σ' Op' Res' Ch' En')
    (f : Op → Op') (back : ∀ op, Res' (f op) → Res op) (part : σ' → σ) : Prop where
  exec : ∀ {t ch' s op r s'}, M'.exec t ch' s (f op) = some (r, s') →
    ∃ ch, M.exec t ch (part s) op = some (back op r, part s')
  others : ∀ {t ch' s op' r s'}, (∀ op, op' ≠ f op) → M'.exec t ch' s op' = some (r, s') →
    part s' = part s
  env : ∀ {e' s s'}, M'.env e' s = some s' →
    part s' = part s ∨ ∃ e, M.env e (part s) = some (part s')

section

variable (f : Op → Op') (back : ∀ op, Res' (f op) → Res op)

/-- A program of the host that awaits what a program of the guest awaits. -/
inductive Mirrors : Prog Op' Res' ε' α' → Prog Op Res ε α → Prop
  | ret (a' : α') (a : α) : Mirrors (.ret a') (.ret a)
  | raise (e' : ε') (e : ε) : Mirrors (.raise e') (.raise e)
  | await (op : Op) {next' : Res' (f op) → Prog Op' Res' ε' α'} {next : Res op → Prog Op Res ε α} :
      (∀ r, Mirrors (next' r) (next (back op r))) → Mirrors (.await (f op) next') (.await op next)

/-- A program that awaits nothing of the guest's. -/
def Avoids : Prog Op' Res' ε' α' → Prop
  | .await op' next => (∀ op, op' ≠ f op) ∧ ∀ r, Avoids (next r)
  | _ => True

end

variable {f : Op → Op'} {back : ∀ op, Res' (f op) → Res op} {part : σ' → σ}

/-- A program that is guarded from the guest's operations. -/
theorem avoids_of_guarded {G : List (Done Op' Res') → Op' → Prop}
    {Q : List (Done Op' Res') → Except ε' α' → Prop} (apart : ∀ h op, ¬ G h (f op)) :
    ∀ {p : Prog Op' Res' ε' α'} {h : List (Done Op' Res')}, Guarded G Q p h → Avoids f p
  | .ret _, _, _ => trivial
  | .raise _, _, _ => trivial
  | .await _ _, _, hp =>
    ⟨fun op hop => apart _ op (hop ▸ hp.1), fun r => avoids_of_guarded apart (hp.2 r)⟩

/-- A program among others mirrors itself, whatever both make of its result. -/
theorem mirrors_among {β : Type} {g' : β → Prog Op' Res' ε α'} {g : β → Prog Op Res ε α}
    (rest : ∀ b, Mirrors f back (g' b) (g b)) : ∀ p : Prog Op Res ε β,
      Mirrors f back (p.among f back >>= g') (p >>= g)
  | .ret b => rest b
  | .raise e => .raise e e
  | .await op next => .await op fun r => mirrors_among rest (next (back op r))

/-- The same of a program whose error its host handles. -/
theorem mirrors_caught {g' : Except ε α → Prog Op' Res' ε' α'}
    (ok : ∀ a, ∃ a', g' (.ok a) = .ret a') (error : ∀ e, ∃ e', g' (.error e) = .raise e') :
    ∀ p : Prog Op Res ε α, Mirrors f back (p.caught.among f back >>= g') p
  | .ret a => by
    obtain ⟨a', ha⟩ := ok a
    show Mirrors f back (g' (.ok a)) (.ret a)
    rw [ha]
    exact .ret a' a
  | .raise e => by
    obtain ⟨e', he⟩ := error e
    show Mirrors f back (g' (.error e)) (.raise e)
    rw [he]
    exact .raise e' e
  | .await op next => .await op fun r => mirrors_caught ok error (next (back op r))

/-- Two calls, of the host and of the guest, of which the first moves only as the second may. -/
def Follower (f : Op → Op') (back : ∀ op, Res' (f op) → Res op)
    (call' : Call Req' Op' Res' ε' α') (call : Call Req Op Res ε α) : Prop :=
  Avoids f call'.prog ∨ ((call'.dropped = false → call.dropped = false) ∧
    Mirrors f back call'.prog call.prog)

/-- Two pools with a call of the guest for each call of the host. -/
structure Following (f : Op → Op') (back : ∀ op, Res' (f op) → Res op)
    (pool' : List (Call Req' Op' Res' ε' α')) (pool : List (Call Req Op Res ε α)) : Prop where
  length : pool.length = pool'.length
  calls : ∀ (t : Nat) (call' : Call Req' Op' Res' ε' α') (call : Call Req Op Res ε α),
    pool'[t]? = some call' → pool[t]? = some call → Follower f back call' call

variable {pool' : List (Call Req' Op' Res' ε' α')} {pool : List (Call Req Op Res ε α)}

theorem Following.set' (h : Following f back pool' pool) {t : Nat}
    {call' : Call Req' Op' Res' ε' α'}
    (follower : ∀ call, pool[t]? = some call → Follower f back call' call) :
    Following f back (pool'.set t call') pool := by
  refine ⟨by rw [h.length, List.length_set], ?_⟩
  intro u call'' call hu' hu
  rcases set_cases hu' with ⟨rfl, rfl⟩ | ⟨_, hu'⟩
  · exact follower call hu
  · exact h.calls u call'' call hu' hu

theorem Following.set (h : Following f back pool' pool) {t : Nat}
    {call' : Call Req' Op' Res' ε' α'} {call : Call Req Op Res ε α}
    (follower : Follower f back call' call) :
    Following f back (pool'.set t call') (pool.set t call) := by
  refine ⟨by rw [List.length_set, h.length, List.length_set], ?_⟩
  intro u call₁' call₁ hu' hu
  rcases set_cases hu' with ⟨rfl, rfl⟩ | ⟨hne, hu'⟩
  · rcases set_cases hu with ⟨_, rfl⟩ | ⟨hne, _⟩
    · exact follower
    · exact absurd rfl hne
  · rcases set_cases hu with ⟨heq, _⟩ | ⟨_, hu⟩
    · exact absurd heq hne
    · exact h.calls u call₁' call₁ hu' hu

theorem Following.spawn (h : Following f back pool' pool) {call' : Call Req' Op' Res' ε' α'}
    {call : Call Req Op Res ε α} (follower : Follower f back call' call) :
    Following f back (pool' ++ [call']) (pool ++ [call]) := by
  refine ⟨by simp [h.length], ?_⟩
  intro u call₁' call₁ hu' hu
  rcases Nat.lt_or_ge u pool'.length with hlt | hge
  · rw [List.getElem?_append_left hlt] at hu'
    rw [List.getElem?_append_left (by rw [h.length]; exact hlt)] at hu
    exact h.calls u call₁' call₁ hu' hu
  · rw [List.getElem?_append_right hge] at hu'
    rw [List.getElem?_append_right (by rw [h.length]; exact hge), h.length] at hu
    obtain ⟨hzero', rfl⟩ := List.getElem?_eq_some_iff.mp hu'
    obtain ⟨hzero, rfl⟩ := List.getElem?_eq_some_iff.mp hu
    simpa using follower

variable {M : Machine σ Op Res Ch En} {M' : Machine σ' Op' Res' Ch' En'}
  {body : Req → Prog Op Res ε α} {body' : Req' → Prog Op' Res' ε' α'}
  {S' : Scope σ' Req' Op' Res' Ch'}

/-- **One move of the host** is no move of the guest, or one. -/
theorem Hosts.step (H : Hosts M M' f back part) {guest : Req' → Req}
    (bodies : ∀ req', Follower f back ({ req := req', prog := body' req' } : Call _ _ _ _ _)
      ({ req := guest req', prog := body (guest req') } : Call _ _ _ _ _))
    {c' d' : Conf σ' Req' Op' Res' ε' α'} {l' : Label Req' Ch' En'}
    (hstep : Conc.step M' body' c' l' = some d') {c : Conf σ Req Op Res ε α}
    (hstore : c.world.store = part c'.world.store) (hpool : Following f back c'.pool c.pool) :
    ∃ d, (d = c ∨ ∃ l, Conc.step M body c l = some d) ∧ d.world.store = part d'.world.store ∧
      Following f back d'.pool d.pool := by
  rcases step_cases hstep with ⟨req', _, rfl⟩ |
    ⟨t, ch', call', op', next', r, s', _, hcall', hdropped, hprog', hexec, rfl⟩ |
    ⟨t, call', _, hcall', rfl⟩ | ⟨e', s', _, henv, rfl⟩
  · exact ⟨_, .inr ⟨.spawn (guest req'), rfl⟩, hstore, hpool.spawn (bodies req')⟩
  · have hlt : t < c.pool.length := by
      rw [hpool.length]
      exact (List.getElem?_eq_some_iff.mp hcall').1
    have hcall : c.pool[t]? = some c.pool[t] := List.getElem?_eq_getElem hlt
    rcases hpool.calls t call' _ hcall' hcall with havoids | ⟨hdrop, hmirrors⟩
    · rw [hprog'] at havoids
      refine ⟨c, .inl rfl, ?_, hpool.set' fun _ _ => .inl (havoids.2 r)⟩
      exact hstore.trans (H.others havoids.1 hexec).symm
    · rw [hprog'] at hmirrors
      cases hprog : c.pool[t].prog with
      | ret a =>
        rw [hprog] at hmirrors
        cases hmirrors
      | raise e =>
        rw [hprog] at hmirrors
        cases hmirrors
      | await op next =>
        rw [hprog] at hmirrors
        cases hmirrors with
        | await _ hnext =>
          obtain ⟨ch, hguest⟩ := H.exec hexec
          rw [← hstore] at hguest
          refine ⟨_, .inr ⟨.run t ch, step_run hcall (hdrop hdropped) hprog hguest⟩, rfl, ?_⟩
          exact hpool.set (.inr ⟨hdrop, hnext r⟩)
  · refine ⟨c, .inl rfl, hstore, hpool.set' ?_⟩
    intro call hcall
    rcases hpool.calls t call' call hcall' hcall with havoids | ⟨_, hmirrors⟩
    · exact .inl havoids
    · exact .inr ⟨fun hdropped => (by cases hdropped), hmirrors⟩
  · rcases H.env henv with hsame | ⟨e, hguest⟩
    · exact ⟨c, .inl rfl, hstore.trans hsame.symm, hpool⟩
    · rw [← hstore] at hguest
      refine ⟨{ c with world := c.world.moved (part s') }, .inr ⟨.env e, ?_⟩, rfl, hpool⟩
      simp only [Conc.step, hguest, Option.map_some]

/-- **Every run of the host** is a run of the guest on its part of the store. -/
theorem Run.hosted (H : Hosts M M' f back part) {guest : Req' → Req}
    (bodies : ∀ req', Follower f back ({ req := req', prog := body' req' } : Call _ _ _ _ _)
      ({ req := guest req', prog := body (guest req') } : Call _ _ _ _ _))
    {s : σ'} {ls' : List (Label Req' Ch' En')} {d' : Conf σ' Req' Op' Res' ε' α'}
    (h : Run M' body' S' (.init s) ls' d') :
    ∃ ls d, Run M body .all (.init (part s)) ls d ∧ d.world.store = part d'.world.store ∧
      Following f back d'.pool d.pool := by
  refine h.invariant (P := fun d' => ∃ ls d, Run M body .all (.init (part s)) ls d ∧
    d.world.store = part d'.world.store ∧ Following f back d'.pool d.pool) ?_ ?_
  · rintro c' d' l' ⟨ls, c, hrun, hstore, hpool⟩ _ hstep
    obtain ⟨d, hmove, hstore', hpool'⟩ := H.step bodies hstep hstore hpool
    rcases hmove with rfl | ⟨l, hmove⟩
    · exact ⟨ls, d, hrun, hstore', hpool'⟩
    · refine ⟨ls ++ [l], d, .snoc hrun ?_ hmove, hstore', hpool'⟩
      cases l <;> simp [Scope.allows, Scope.all]
  · refine ⟨[], .init (part s), .nil _, rfl, rfl, ?_⟩
    intro t call' call hcall'
    cases hcall'

end Conc

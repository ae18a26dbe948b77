import Kova.Conc.Pool

/-!
# One call by itself

A program executed from an await to the next, with a choice for each of its operations in turn
(`Machine.solo`). What it comes to by itself, a call for it comes to in a run in which nothing else
moves (`run_of_solo`).
-/

set_option autoImplicit false

namespace Conc

variable {σ Req Op Ch En ε α : Type} {Res : Op → Type}

/-- A program executed by itself, with these choices in turn. -/
def Machine.solo (M : Machine σ Op Res Ch En) (t : Nat) :
    List Ch → Prog Op Res ε α → σ → Option (Except ε α × σ)
  | _, .ret a, s => some (.ok a, s)
  | _, .raise e, s => some (.error e, s)
  | [], .await _ _, _ => none
  | ch :: chs, .await op next, s => (M.exec t ch s op).bind fun (r, s') => M.solo t chs (next r) s'

variable {M : Machine σ Op Res Ch En} {body : Req → Prog Op Res ε α} {t : Nat} {s' : σ}
  {r : Except ε α}

/-- A program that is done comes to its result; any other executes its operation. -/
theorem solo_cases {chs : List Ch} {p : Prog Op Res ε α} {s : σ}
    (h : M.solo t chs p s = some (r, s')) :
    p.result? = some r ∨ ∃ ch rest op next x s₁, chs = ch :: rest ∧ p = .await op next ∧
      M.exec t ch s op = some (x, s₁) ∧ M.solo t rest (next x) s₁ = some (r, s') := by
  cases p with
  | ret a =>
    cases chs <;> cases h <;> exact .inl rfl
  | raise e =>
    cases chs <;> cases h <;> exact .inl rfl
  | await op next =>
    cases chs with
    | nil => cases h
    | cons ch rest =>
      obtain ⟨⟨x, s₁⟩, hexec, hrest⟩ := Option.bind_eq_some_iff.mp h
      exact .inr ⟨ch, rest, op, next, x, s₁, rfl, rfl, hexec, hrest⟩

/-- From where the call stands. -/
theorem run_of_solo_from {chs : List Ch} : ∀ {c : Conf σ Req Op Res ε α}
    {call : Call Req Op Res ε α}, c.pool[t]? = some call → call.dropped = false →
      M.solo t chs call.prog c.world.store = some (r, s') →
        ∃ ls d, Run M body .all c ls d ∧ d.returned t call.req r := by
  induction chs with
  | nil =>
    intro c call hcall _ hsolo
    rcases solo_cases hsolo with hres | ⟨_, _, _, _, _, _, hnil, _⟩
    · exact ⟨[], c, .nil c, call, hcall, rfl, hres⟩
    · cases hnil
  | cons ch chs ih =>
    intro c call hcall hlive hsolo
    rcases solo_cases hsolo with hres | ⟨_, _, op, next, x, s₁, heq, hprog, hexec, hrest⟩
    · exact ⟨[], c, .nil c, call, hcall, rfl, hres⟩
    · cases heq
      have hstep : step M body c (.run t ch) =
          some ⟨c.world.push ⟨t, call.req, op, c.world.store, x, s₁⟩,
            c.pool.set t { call with prog := next x }⟩ := step_run hcall hlive hprog hexec
      have hthere : (c.pool.set t { call with prog := next x })[t]? =
          some { call with prog := next x } :=
        List.getElem?_set_self (List.getElem?_eq_some_iff.mp hcall).1
      obtain ⟨ls, d, hrun, hret⟩ := ih
        (c := ⟨c.world.push ⟨t, call.req, op, c.world.store, x, s₁⟩,
          c.pool.set t { call with prog := next x }⟩) hthere hlive hrest
      have first : Run M body .all c ([] ++ [.run t ch]) _ :=
        .snoc (.nil c) (fun _ _ _ _ _ => trivial) hstep
      exact ⟨_, d, first.append hrun, hret⟩

/-- **A call by itself**: a run that lets it arrive and return, and does nothing else. -/
theorem run_of_solo {chs : List Ch} {s : σ} {req : Req}
    (h : M.solo 0 chs (body req) s = some (r, s')) :
    ∃ ls d, Run M body .all (.init s) ls d ∧ d.returned 0 req r := by
  have arrival : Run M body .all (.init s) ([] ++ [.spawn req])
      ⟨⟨s, []⟩, [{ req, prog := body req }]⟩ := .snoc (.nil _) trivial rfl
  obtain ⟨ls, d, hrun, hret⟩ := run_of_solo_from (c := ⟨⟨s, []⟩, [{ req, prog := body req }]⟩)
    (t := 0) rfl rfl h
  exact ⟨_, d, arrival.append hrun, hret⟩

end Conc

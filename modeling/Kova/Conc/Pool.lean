import Mathlib.Data.List.Basic
import Kova.Conc.Prog

/-!
# A pool of calls over one shared store

Any number of calls run the programs of `Conc.Prog` against one store. A `Machine` says what one
operation does to the store and what the outside does on its own; a `Conf` holds the store, the
log of the operations executed so far, and the calls. One label moves one call by one
operation, so every interleaving of the calls' awaits is a list of labels (`Run`), and `replay`
executes such a list.

A `Scope` restricts the runs under discussion: which requests are spawned, and in which states
an operation may take its step. `Scope.all` restricts nothing.
-/

namespace Conc

/-- One executed operation: who executed it and for which request, on which store, with which
result, and the store it left. -/
structure Event (σ Req Op : Type) (Res : Op → Type) where
  tid : Nat
  req : Req
  op : Op
  pre : σ
  res : Res op
  post : σ

/-- The shared part of a configuration: the store, and every operation executed on it. -/
structure World (σ Req Op : Type) (Res : Op → Type) where
  store : σ
  log : List (Event σ Req Op Res)

/-- What one operation may do (`Ch` resolves what the store leaves open: a fresh identifier, a
failure, which of several rows), and what the outside may do between operations. -/
structure Machine (σ Op : Type) (Res : Op → Type) (Ch En : Type) where
  exec : Nat → Ch → σ → (op : Op) → Option (Res op × σ)
  env : En → σ → Option σ

/-- One call: its request and the rest of its program. A dropped call never moves again. -/
structure Call (Req Op : Type) (Res : Op → Type) (ε α : Type) where
  req : Req
  prog : Prog Op Res ε α
  dropped : Bool := false

/-- A configuration: the world and the calls, numbered in the order they were spawned. -/
structure Conf (σ Req Op : Type) (Res : Op → Type) (ε α : Type) where
  world : World σ Req Op Res
  pool : List (Call Req Op Res ε α)

/-- One move: a call arrives, a call executes its next operation, a call is dropped while it
awaits, or the outside moves. -/
inductive Label (Req Ch En : Type) where
  | spawn (req : Req)
  | run (tid : Nat) (choice : Ch)
  | drop (tid : Nat)
  | env (e : En)

/-- The runs under discussion. -/
structure Scope (σ Req Op : Type) (Res : Op → Type) (Ch : Type) where
  spawn : Req → Prop
  run : Nat → Req → World σ Req Op Res → Op → Ch → Prop

variable {σ Req Op Ch En ε α : Type} {Res : Op → Type}

/-- No restriction. -/
def Scope.all : Scope σ Req Op Res Ch := ⟨fun _ => True, fun _ _ _ _ _ => True⟩

namespace World

/-- The world after one more event. -/
def push (w : World σ Req Op Res) (e : Event σ Req Op Res) : World σ Req Op Res :=
  ⟨e.post, w.log ++ [e]⟩

/-- The world after the outside moved the store. -/
def moved (w : World σ Req Op Res) (s : σ) : World σ Req Op Res := { w with store := s }

/-- The events of one call. -/
def own (t : Nat) (w : World σ Req Op Res) : List (Event σ Req Op Res) :=
  w.log.filter (·.tid == t)

@[simp] theorem push_store (w : World σ Req Op Res) (e : Event σ Req Op Res) :
    (w.push e).store = e.post := rfl

@[simp] theorem push_log (w : World σ Req Op Res) (e : Event σ Req Op Res) :
    (w.push e).log = w.log ++ [e] := rfl

@[simp] theorem moved_store (w : World σ Req Op Res) (s : σ) : (w.moved s).store = s := rfl

@[simp] theorem moved_log (w : World σ Req Op Res) (s : σ) : (w.moved s).log = w.log := rfl

@[simp] theorem own_moved (t : Nat) (w : World σ Req Op Res) (s : σ) :
    (w.moved s).own t = w.own t := rfl

theorem own_push_self {t : Nat} (w : World σ Req Op Res) {e : Event σ Req Op Res}
    (h : e.tid = t) : (w.push e).own t = w.own t ++ [e] := by
  simp only [own, push_log, List.filter_append, List.filter_cons, beq_iff_eq.mpr h, ↓reduceIte,
    List.filter_nil]

theorem own_push_other {t : Nat} (w : World σ Req Op Res) {e : Event σ Req Op Res}
    (h : e.tid ≠ t) : (w.push e).own t = w.own t := by
  simp only [own, push_log, List.filter_append, List.filter_cons, beq_eq_false_iff_ne.mpr h,
    Bool.false_eq_true, ↓reduceIte, List.filter_nil, List.append_nil]

theorem mem_own {t : Nat} {w : World σ Req Op Res} {e : Event σ Req Op Res} :
    e ∈ w.own t ↔ e ∈ w.log ∧ e.tid = t := by
  simp only [own, List.mem_filter, beq_iff_eq]

end World

/-- The configuration no call has reached yet. -/
def Conf.init (s : σ) : Conf σ Req Op Res ε α := ⟨⟨s, []⟩, []⟩

/-- Call `t` has returned `r` for the request `req`. -/
def Conf.returned (c : Conf σ Req Op Res ε α) (t : Nat) (req : Req) (r : Except ε α) : Prop :=
  ∃ call, c.pool[t]? = some call ∧ call.req = req ∧ call.prog.result? = some r

/-- One move of the pool. -/
def step (M : Machine σ Op Res Ch En) (body : Req → Prog Op Res ε α)
    (c : Conf σ Req Op Res ε α) : Label Req Ch En → Option (Conf σ Req Op Res ε α)
  | .spawn req => some { c with pool := c.pool ++ [{ req, prog := body req }] }
  | .run t ch =>
    match c.pool[t]? with
    | none => none
    | some call =>
      if call.dropped then none
      else match call.prog with
        | .await op next =>
          (M.exec t ch c.world.store op).map fun (r, s) =>
            { world := c.world.push ⟨t, call.req, op, c.world.store, r, s⟩
              pool := c.pool.set t { call with prog := next r } }
        | _ => none
  | .drop t =>
    match c.pool[t]? with
    | none => none
    | some call =>
      if call.dropped || call.prog.finished then none
      else some { c with pool := c.pool.set t { call with dropped := true } }
  | .env e => (M.env e c.world.store).map fun s => { c with world := c.world.moved s }

/-- A program executed by itself, with one choice for every operation. -/
def Machine.alone (M : Machine σ Op Res Ch En) (t : Nat) (ch : Ch) :
    Prog Op Res ε α → σ → Option (Except ε α × σ)
  | .ret a, s => some (.ok a, s)
  | .raise e, s => some (.error e, s)
  | .await op next, s => (M.exec t ch s op).bind fun (r, s') => M.alone t ch (next r) s'

/-- A list of moves executed one after another. -/
def replay (M : Machine σ Op Res Ch En) (body : Req → Prog Op Res ε α)
    (c : Conf σ Req Op Res ε α) : List (Label Req Ch En) → Option (Conf σ Req Op Res ε α)
  | [] => some c
  | l :: ls => (step M body c l).bind fun d => replay M body d ls

/-- Whether a move is within the scope. -/
def Scope.allows (S : Scope σ Req Op Res Ch) (c : Conf σ Req Op Res ε α) :
    Label Req Ch En → Prop
  | .spawn req => S.spawn req
  | .run t ch => ∀ call op next, c.pool[t]? = some call → call.prog = .await op next →
      S.run t call.req c.world op ch
  | _ => True

/-- The runs within a scope: every interleaving of the calls' operations. -/
inductive Run (M : Machine σ Op Res Ch En) (body : Req → Prog Op Res ε α)
    (S : Scope σ Req Op Res Ch) :
    Conf σ Req Op Res ε α → List (Label Req Ch En) → Conf σ Req Op Res ε α → Prop
  | nil (c : Conf σ Req Op Res ε α) : Run M body S c [] c
  | snoc {c d e : Conf σ Req Op Res ε α} {ls : List (Label Req Ch En)} {l : Label Req Ch En} :
      Run M body S c ls d → S.allows d l → step M body d l = some e → Run M body S c (ls ++ [l]) e

variable {M : Machine σ Op Res Ch En} {body : Req → Prog Op Res ε α}
  {S : Scope σ Req Op Res Ch}

/-- **What one move can do**, read off `step` once. -/
theorem step_cases {c d : Conf σ Req Op Res ε α} {l : Label Req Ch En}
    (h : step M body c l = some d) :
    (∃ req, l = .spawn req ∧ d = { c with pool := c.pool ++ [{ req, prog := body req }] }) ∨
    (∃ t ch call op next r s, l = .run t ch ∧ c.pool[t]? = some call ∧ call.dropped = false ∧
      call.prog = .await op next ∧ M.exec t ch c.world.store op = some (r, s) ∧
      d = ⟨c.world.push ⟨t, call.req, op, c.world.store, r, s⟩,
        c.pool.set t { call with prog := next r }⟩) ∨
    (∃ t call, l = .drop t ∧ c.pool[t]? = some call ∧
      d = { c with pool := c.pool.set t { call with dropped := true } }) ∨
    (∃ e s, l = .env e ∧ M.env e c.world.store = some s ∧ d = { c with world := c.world.moved s }) := by
  cases l with
  | spawn req =>
    simp only [step, Option.some.injEq] at h
    exact .inl ⟨req, rfl, h.symm⟩
  | run t ch =>
    right; left
    simp only [step] at h
    split at h
    · cases h
    · next call hcall =>
      split at h
      · cases h
      · next hd =>
        split at h
        · next op next hprog =>
          obtain ⟨⟨r, s⟩, hexec, rfl⟩ := Option.map_eq_some_iff.mp h
          exact ⟨t, ch, call, op, next, r, s, rfl, hcall, by simpa using hd, hprog, hexec, rfl⟩
        · cases h
  | drop t =>
    right; right; left
    simp only [step] at h
    split at h
    · cases h
    · next call hcall =>
      split at h
      · cases h
      · simp only [Option.some.injEq] at h
        exact ⟨t, call, rfl, hcall, h.symm⟩
  | env e =>
    right; right; right
    simp only [step] at h
    obtain ⟨s, henv, rfl⟩ := Option.map_eq_some_iff.mp h
    exact ⟨e, s, rfl, henv, rfl⟩

/-- A call that awaits an operation can execute it. -/
theorem step_run {c : Conf σ Req Op Res ε α} {t : Nat} {ch : Ch} {call : Call Req Op Res ε α}
    {op : Op} {next : Res op → Prog Op Res ε α} {r : Res op} {s : σ}
    (hcall : c.pool[t]? = some call) (hdropped : call.dropped = false)
    (hprog : call.prog = .await op next) (hexec : M.exec t ch c.world.store op = some (r, s)) :
    step M body c (.run t ch) = some ⟨c.world.push ⟨t, call.req, op, c.world.store, r, s⟩,
      c.pool.set t { call with prog := next r }⟩ := by
  simp only [step, hcall, hdropped, Bool.false_eq_true, ↓reduceIte, hprog, hexec, Option.map_some]

/-- Where a replay ends, for a replay that does not get stuck. -/
def replayed (M : Machine σ Op Res Ch En) (body : Req → Prog Op Res ε α)
    (c : Conf σ Req Op Res ε α) (ls : List (Label Req Ch En)) : Conf σ Req Op Res ε α :=
  (replay M body c ls).getD c

/-- Runs compose. -/
theorem Run.append {c d e : Conf σ Req Op Res ε α} {ls ms : List (Label Req Ch En)}
    (h : Run M body S c ls d) (h' : Run M body S d ms e) : Run M body S c (ls ++ ms) e := by
  induction h' with
  | nil => simpa using h
  | snoc _ hok hstep ih =>
    rw [← List.append_assoc]
    exact .snoc ih hok hstep

/-- A program executed by itself begins with its first operation. -/
theorem Machine.alone_await {t : Nat} {ch : Ch} {op : Op} {next : Res op → Prog Op Res ε α}
    {s s' : σ} {r : Except ε α} (h : M.alone t ch (.await op next) s = some (r, s')) :
    ∃ x s₁, M.exec t ch s op = some (x, s₁) ∧ M.alone t ch (next x) s₁ = some (r, s') := by
  obtain ⟨⟨x, s₁⟩, hexec, hrest⟩ := Option.bind_eq_some_iff.mp h
  exact ⟨x, s₁, hexec, hrest⟩

/-- An operation executed at the beginning of a program. -/
theorem Machine.alone_exec {t : Nat} {ch : Ch} {op : Op} {next : Res op → Prog Op Res ε α}
    {s s' : σ} {r : Res op} (h : M.exec t ch s op = some (r, s')) :
    M.alone t ch (.await op next) s = M.alone t ch (next r) s' := by
  simp only [Machine.alone, h, Option.bind_some]

/-- The result of call `t`, computed. -/
def Conf.result? (c : Conf σ Req Op Res ε α) (t : Nat) : Option (Except ε α) :=
  c.pool[t]?.bind (·.prog.result?)

theorem returned_of_result? {c : Conf σ Req Op Res ε α} {t : Nat} {req : Req} {r : Except ε α}
    (hreq : c.pool[t]?.map (·.req) = some req) (hres : c.result? t = some r) :
    c.returned t req r := by
  obtain ⟨call, hcall, hreq⟩ := Option.map_eq_some_iff.mp hreq
  rw [Conf.result?, hcall, Option.bind_some] at hres
  exact ⟨call, hcall, hreq, hres⟩

theorem returned_of_result {c : Conf σ Req Op Res ε α} {t : Nat} {r : Except ε α}
    (h : c.result? t = some r) : ∃ req, c.returned t req r := by
  obtain ⟨call, hcall, _⟩ := Option.bind_eq_some_iff.mp h
  exact ⟨call.req, returned_of_result? (congrArg (Option.map Call.req) hcall) h⟩

/-- Whether call `t` has returned a value for the request, computed. -/
def Conf.succeeded [DecidableEq Req] (c : Conf σ Req Op Res ε α) (t : Nat) (req : Req) : Bool :=
  c.pool[t]?.map (·.req) = some req && (c.result? t).any Except.isOk

theorem returned_ok [DecidableEq Req] {c : Conf σ Req Op Res ε α} {t : Nat} {req : Req}
    (h : c.succeeded t req = true) : ∃ a, c.returned t req (.ok a) := by
  obtain ⟨hreq, hres⟩ := Bool.and_eq_true_iff.mp h
  obtain ⟨r, hr, hok⟩ := (Option.any_eq_true _ _).mp hres
  cases r with
  | error e => cases hok
  | ok a => exact ⟨a, returned_of_result? (of_decide_eq_true hreq) hr⟩

/-- What `replay` executes is a run. -/
theorem run_of_replay : ∀ {ls : List (Label Req Ch En)} {c d : Conf σ Req Op Res ε α},
    replay M body c ls = some d → Run M body .all c ls d
  | [], c, d, h => by
    simp only [replay, Option.some.injEq] at h
    exact h ▸ .nil c
  | l :: ls, c, d, h => by
    obtain ⟨e, hstep, hrest⟩ := Option.bind_eq_some_iff.mp h
    have first : Run M body .all c ([] ++ [l]) e := by
      refine .snoc (.nil c) ?_ hstep
      cases l <;> simp [Scope.allows, Scope.all]
    exact first.append (run_of_replay hrest)

theorem run_replayed {c : Conf σ Req Op Res ε α} {ls : List (Label Req Ch En)}
    (h : (replay M body c ls).isSome = true) : Run M body .all c ls (replayed M body c ls) := by
  obtain ⟨d, hd⟩ := Option.isSome_iff_exists.mp h
  rw [replayed, hd]
  exact run_of_replay hd

/-- The same in one evaluation with a test of where the replay ends. -/
theorem replayed_spec (M : Machine σ Op Res Ch En) (body : Req → Prog Op Res ε α)
    (c : Conf σ Req Op Res ε α) (ls : List (Label Req Ch En)) (P : Conf σ Req Op Res ε α → Bool)
    (h : (replay M body c ls).any P = true) :
    Run M body .all c ls (replayed M body c ls) ∧ P (replayed M body c ls) = true := by
  obtain ⟨d, hd, hP⟩ := (Option.any_eq_true _ _).mp h
  rw [replayed, hd]
  exact ⟨run_of_replay hd, hP⟩

/-- **The invariant rule**: what holds at the start and is kept by every move in scope holds at
the end of every run in scope. -/
theorem Run.invariant {P : Conf σ Req Op Res ε α → Prop}
    (keep : ∀ {c d : Conf σ Req Op Res ε α} {l : Label Req Ch En}, P c → S.allows c l →
      step M body c l = some d → P d)
    {c d : Conf σ Req Op Res ε α} {ls : List (Label Req Ch En)} (h : Run M body S c ls d)
    (start : P c) : P d := by
  induction h with
  | nil => exact start
  | snoc _ hok hstep ih => exact keep ih hok hstep

/-- **What every operation and the outside keep** of the store holds at the end. -/
theorem Run.store_invariant {P : σ → Prop}
    (exec : ∀ {t ch s op r s'}, P s → M.exec t ch s op = some (r, s') → P s')
    (outside : ∀ {o s s'}, P s → M.env o s = some s' → P s') {c d : Conf σ Req Op Res ε α}
    {ls : List (Label Req Ch En)} (h : Run M body S c ls d) (start : P c.world.store) :
    P d.world.store := by
  refine h.invariant (P := fun d => P d.world.store) ?_ start
  intro c d l hc _ hstep
  rcases step_cases hstep with ⟨req, _, rfl⟩ |
    ⟨t, ch, call, op, next, r, s, _, _, _, _, hexec, rfl⟩ | ⟨t, call, _, _, rfl⟩ |
    ⟨o, s, _, henv, rfl⟩
  · exact hc
  · exact exec hc hexec
  · exact hc
  · exact outside hc henv

/-- The log only grows. -/
theorem Run.log_prefix {c d : Conf σ Req Op Res ε α} {ls : List (Label Req Ch En)}
    (h : Run M body S c ls d) : c.world.log <+: d.world.log := by
  refine h.invariant (P := fun d => c.world.log <+: d.world.log) (fun {d e l} hd _ hstep => ?_)
    List.prefix_rfl
  rcases step_cases hstep with ⟨req, _, rfl⟩ | ⟨t, ch, call, op, next, r, s, _, _, _, _, _, rfl⟩ |
    ⟨t, call, _, _, rfl⟩ | ⟨e, s, _, _, rfl⟩
  · exact hd
  · exact hd.trans (List.prefix_append _ _)
  · exact hd
  · exact hd

/-- A call that has returned moves no more. -/
theorem step_returned {c d : Conf σ Req Op Res ε α} {l : Label Req Ch En}
    (hstep : step M body c l = some d) {t : Nat} {req : Req} {r : Except ε α}
    (hr : c.returned t req r) : d.returned t req r ∧ d.world.own t = c.world.own t := by
  obtain ⟨call, hcall, hreq, hres⟩ := hr
  have hlt := (List.getElem?_eq_some_iff.mp hcall).1
  rcases step_cases hstep with ⟨req', _, rfl⟩ |
    ⟨u, ch, call', op, next, r', s, _, hcall', _, hprog, _, rfl⟩ | ⟨u, call', _, hcall', rfl⟩ |
    ⟨e, s, _, _, rfl⟩
  · exact ⟨⟨call, (List.getElem?_append_left hlt).trans hcall, hreq, hres⟩, rfl⟩
  · have hne : u ≠ t := by
      rintro rfl
      rw [hcall, Option.some.injEq] at hcall'
      rw [hcall', hprog] at hres
      cases hres
    exact ⟨⟨call, (List.getElem?_set_ne hne).trans hcall, hreq, hres⟩,
      c.world.own_push_other hne⟩
  · by_cases hut : u = t
    · subst hut
      rw [hcall, Option.some.injEq] at hcall'
      subst hcall'
      exact ⟨⟨_, List.getElem?_set_self hlt, hreq, hres⟩, rfl⟩
    · exact ⟨⟨call, (List.getElem?_set_ne hut).trans hcall, hreq, hres⟩, rfl⟩
  · exact ⟨⟨call, hcall, hreq, hres⟩, rfl⟩

/-- **A result stays**, and with it the list of what its call executed. -/
theorem Run.returned {c d : Conf σ Req Op Res ε α} {ls : List (Label Req Ch En)}
    (h : Run M body S c ls d) {t : Nat} {req : Req} {r : Except ε α} (hr : c.returned t req r) :
    d.returned t req r ∧ d.world.own t = c.world.own t := by
  refine h.invariant (P := fun d => d.returned t req r ∧ d.world.own t = c.world.own t)
    (fun {d e l} hd _ hstep => ?_) ⟨hr, rfl⟩
  obtain ⟨hres, hown⟩ := step_returned hstep hd.1
  exact ⟨hres, hown.trans hd.2⟩

/-! ## Runs whose moves meet a condition -/

/-- The runs of which every move satisfies `P`. -/
inductive RunWhere (M : Machine σ Op Res Ch En) (body : Req → Prog Op Res ε α)
    (P : Conf σ Req Op Res ε α → Label Req Ch En → Conf σ Req Op Res ε α → Prop) :
    Conf σ Req Op Res ε α → List (Label Req Ch En) → Conf σ Req Op Res ε α → Prop
  | nil (c : Conf σ Req Op Res ε α) : RunWhere M body P c [] c
  | snoc {c d e : Conf σ Req Op Res ε α} {ls : List (Label Req Ch En)} {l : Label Req Ch En} :
      RunWhere M body P c ls d → step M body d l = some e → P d l e →
        RunWhere M body P c (ls ++ [l]) e

variable {P : Conf σ Req Op Res ε α → Label Req Ch En → Conf σ Req Op Res ε α → Prop}

theorem RunWhere.run {c d : Conf σ Req Op Res ε α} {ls : List (Label Req Ch En)}
    (h : RunWhere M body P c ls d) : Run M body .all c ls d := by
  induction h with
  | nil => exact .nil _
  | @snoc d e ls l _ hstep _ ih =>
    refine .snoc ih ?_ hstep
    cases l <;> simp [Scope.allows, Scope.all]

/-- A run whose labels another scope allows is a run within that scope. -/
theorem Run.within {S' : Scope σ Req Op Res Ch} {c d : Conf σ Req Op Res ε α}
    {ls : List (Label Req Ch En)} (h : Run M body S c ls d)
    (hls : ∀ l ∈ ls, ∀ c : Conf σ Req Op Res ε α, S'.allows c l) : Run M body S' c ls d := by
  induction h with
  | nil => exact .nil _
  | snoc _ _ hstep ih =>
    exact .snoc (ih fun l hl => hls l (List.mem_append_left _ hl))
      (hls _ (List.mem_append_right _ List.mem_cons_self) _) hstep

/-- A run of which every label meets a condition. -/
theorem Run.where_labels {Q : Label Req Ch En → Prop} {c d : Conf σ Req Op Res ε α}
    {ls : List (Label Req Ch En)} (h : Run M body S c ls d) (hls : ∀ l ∈ ls, Q l) :
    RunWhere M body (fun _ l _ => Q l) c ls d := by
  induction h with
  | nil => exact .nil _
  | snoc _ _ hstep ih =>
    exact .snoc (ih fun l hl => hls l (List.mem_append_left _ hl)) hstep
      (hls _ (List.mem_append_right _ List.mem_cons_self))

/-- What weaker moves allow. -/
theorem RunWhere.mono {P' : Conf σ Req Op Res ε α → Label Req Ch En → Conf σ Req Op Res ε α → Prop}
    (weaker : ∀ c l d, P c l d → P' c l d) {c d : Conf σ Req Op Res ε α}
    {ls : List (Label Req Ch En)} (h : RunWhere M body P c ls d) : RunWhere M body P' c ls d := by
  induction h with
  | nil => exact .nil _
  | snoc _ hstep hok ih => exact .snoc ih hstep (weaker _ _ _ hok)

theorem RunWhere.append {c d e : Conf σ Req Op Res ε α} {ls ms : List (Label Req Ch En)}
    (h : RunWhere M body P c ls d) (h' : RunWhere M body P d ms e) :
    RunWhere M body P c (ls ++ ms) e := by
  induction h' with
  | nil => simpa using h
  | snoc _ hstep hok ih =>
    rw [← List.append_assoc]
    exact .snoc ih hstep hok

/-- A list of moves executed one after another, as long as each passes a test. -/
def replay_where (M : Machine σ Op Res Ch En) (body : Req → Prog Op Res ε α)
    (test : Label Req Ch En → Conf σ Req Op Res ε α → Bool) (c : Conf σ Req Op Res ε α) :
    List (Label Req Ch En) → Option (Conf σ Req Op Res ε α)
  | [] => some c
  | l :: ls => (step M body c l).bind fun d =>
    if test l d then replay_where M body test d ls else none

/-- What `replay_where` executes is such a run. -/
theorem run_where_of_replay {test : Label Req Ch En → Conf σ Req Op Res ε α → Bool}
    (sound : ∀ c l d, test l d = true → P c l d) :
    ∀ {ls : List (Label Req Ch En)} {c d : Conf σ Req Op Res ε α},
      replay_where M body test c ls = some d → RunWhere M body P c ls d
  | [], c, d, h => by
    simp only [replay_where, Option.some.injEq] at h
    exact h ▸ .nil c
  | l :: ls, c, d, h => by
    obtain ⟨e, hstep, hrest⟩ := Option.bind_eq_some_iff.mp h
    by_cases htest : test l e = true
    · rw [if_pos htest] at hrest
      have first : RunWhere M body P c ([] ++ [l]) e :=
        .snoc (.nil c) hstep (sound c l e htest)
      exact first.append (run_where_of_replay sound hrest)
    · rw [if_neg htest] at hrest
      cases hrest

/-- A list of moves executed one after another, as long as each passes a test where it is made. -/
def replay_if (M : Machine σ Op Res Ch En) (body : Req → Prog Op Res ε α)
    (test : Conf σ Req Op Res ε α → Label Req Ch En → Bool) (c : Conf σ Req Op Res ε α) :
    List (Label Req Ch En) → Option (Conf σ Req Op Res ε α)
  | [] => some c
  | l :: ls => if test c l then (step M body c l).bind fun d => replay_if M body test d ls else none

/-- What `replay_if` executes is such a run. -/
theorem run_where_of_replay_if {test : Conf σ Req Op Res ε α → Label Req Ch En → Bool}
    (sound : ∀ c l d, test c l = true → P c l d) :
    ∀ {ls : List (Label Req Ch En)} {c d : Conf σ Req Op Res ε α},
      replay_if M body test c ls = some d → RunWhere M body P c ls d
  | [], c, d, h => by
    simp only [replay_if, Option.some.injEq] at h
    exact h ▸ .nil c
  | l :: ls, c, d, h => by
    simp only [replay_if] at h
    split at h
    · next htest =>
      obtain ⟨e, hstep, hrest⟩ := Option.bind_eq_some_iff.mp h
      have first : RunWhere M body P c ([] ++ [l]) e := .snoc (.nil c) hstep (sound c l e htest)
      exact first.append (run_where_of_replay_if sound hrest)
    · cases h

end Conc

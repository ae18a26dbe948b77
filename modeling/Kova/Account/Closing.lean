import Kova.Account.RunLaws

/-!
# Closing happens once

`close_account` reads the status, checks the payments and the balance, and then closes the row by
an UPDATE that has no condition on the status. If every such UPDATE finds the row not yet closed,
then at most one call for an account succeeds, at most one closure of it is published, and
`closed_at` never changes once it is set (`closing_once`). Two calls that both read the open row
before either closes it both succeed, both publish, and the second overwrites `closed_at`
(`overlapping_closures`).

The state machine is terminal at Closed (`closed_is_terminal`), but it is asked about the status
that was read.
-/

set_option autoImplicit false

namespace Kova.Account

open Conc Ledger

/-- No transition leads out of Closed. -/
theorem closed_is_terminal (target : AccountStatus) :
    transition .Closed target = .error ("Closed", target.text) := by
  cases target <;> rfl

variable {env : Env} {table : Table env} {clock : Nat} {ls : List AccountLabel} {d : AccountConf}

/-- Call `t` closed account `x` and answered so. -/
def Succeeded (d : AccountConf) (x : Uuid) (t : Nat) : Prop :=
  ∃ auth id resp, d.returned t (.close_account auth id) (.ok resp) ∧ Uuid.parse_str id = some x

/-- The event hands the closure of account `x` to the publisher. -/
def Publishes (x : Uuid) (e : AccountEvent) : Prop :=
  ∃ topic key event, e.op = .publish_json topic key (.closed event) ∧ event.account_id = x

/-- A `closed_at` that is set stays as it is. -/
def KeepsClosedAt (s s' : Store) : Prop :=
  ∀ r ∈ s.accounts, ∀ closed_at, r.closed_at = some closed_at →
    ∃ r' ∈ s'.accounts, r'.id = r.id ∧ r'.closed_at = some closed_at

/-- **An account is closed once.** -/
structure ClosedOnce (d : AccountConf) : Prop where
  success : ∀ x t t', Succeeded d x t → Succeeded d x t' → t = t'
  published : ∀ x e e', Publishes x e → Publishes x e' → ¬ Precedes d.world.log e e'
  final : ∀ e ∈ d.world.log, KeepsClosedAt e.pre d.world.store ∧ KeepsClosedAt e.post d.world.store

/-- If the event is the UPDATE of a closure, it finds the row not closed. -/
def FindsOpen (e : AccountEvent) : Prop :=
  match e.op with
  | .sql (.update_closed _ id) =>
    ∀ r ∈ e.pre.accounts, Uuid.UUID_TO_BIN id = some r.id → r.status ≠ .Closed
  | _ => True

instance (e : AccountEvent) : Decidable (FindsOpen e) := by
  unfold FindsOpen
  split <;> infer_instance

theorem FindsOpen.not_closed {e : AccountEvent} (h : FindsOpen e) {closed_at : DateTime}
    {id : String} (hop : e.op = .sql (.update_closed closed_at id)) {r : AccountRow}
    (hr : r ∈ e.pre.accounts) (hid : Uuid.UUID_TO_BIN id = some r.id) : r.status ≠ .Closed := by
  simp only [FindsOpen, hop] at h
  exact h r hr hid

/-! ## Closed rows -/

/-- Closed rows stay as they are. -/
def ClosedStay (s s' : Store) : Prop := ∀ r ∈ s.accounts, r.status = .Closed → r ∈ s'.accounts

/-- An event whose UPDATE finds the row open touches no closed row. -/
theorem event_closed_stay (h : AccountRun env (start table clock) ls d) {e : AccountEvent}
    (he : e ∈ d.world.log) (hopen : FindsOpen e) : ClosedStay e.pre e.post := by
  obtain ⟨_, _, _, hexec⟩ := h.executed he
  have hchange := exec_accounts hexec
  generalize hop : e.op = op at hchange
  intro r hr hclosed
  generalize e.post.accounts = l at hchange
  cases hchange with
  | same => exact hr
  | inserted => exact List.mem_append_left _ hr
  | @deleted text x parsed =>
    refine List.mem_filter.mpr ⟨hr, bne_iff_ne.mpr ?_⟩
    rintro rfl
    have hpending := deletes_pending h he hop hr parsed
    rw [hclosed] at hpending
    cases hpending
  | @closed closed_at text x parsed =>
    have hne : r.id ≠ x := by
      rintro rfl
      exact hopen.not_closed hop hr parsed hclosed
    have hsame : r.closed_by x closed_at = r := if_neg hne
    exact hsame ▸ List.mem_map_of_mem hr

section Open

variable (h : AccountRun env (start table clock) ls d) (hopen : ∀ e ∈ d.world.log, FindsOpen e)

include h hopen

/-- What is closed when an event is over is there, as it is, at the end. -/
theorem closed_since {e : AccountEvent} (he : e ∈ d.world.log) :
    ClosedStay e.post d.world.store := by
  refine h.along (R := ClosedStay) (fun _ _ hr _ => hr) ?_ ?_ ?_ e he
  · intro s₁ s₂ s₃ h₁ h₂ r hr hclosed
    exact h₂ r (h₁ r hr hclosed) hclosed
  · intro o s s' henv r hr _
    exact outside_accounts henv ▸ hr
  · intro e he
    exact event_closed_stay h he (hopen e he)

theorem closed_between {a b : AccountEvent} (hprec : Precedes d.world.log a b) :
    ClosedStay a.post b.pre := by
  refine h.along_between (R := ClosedStay) (fun _ _ hr _ => hr) ?_ ?_ ?_ hprec
  · intro s₁ s₂ s₃ h₁ h₂ r hr hclosed
    exact h₂ r (h₁ r hr hclosed) hclosed
  · intro o s s' henv r hr _
    exact outside_accounts henv ▸ hr
  · intro e he
    exact event_closed_stay h he (hopen e he)

end Open

/-! ## One UPDATE for each account -/

/-- The event is the answered UPDATE that closes account `x`. -/
def Closes (x : Uuid) (e : AccountEvent) : Prop :=
  ∃ closed_at id, e.did = did (.update_closed closed_at id) (some ()) ∧
    Uuid.UUID_TO_BIN id = some x

/-- It leaves the row closed. -/
theorem Closes.closed (h : AccountRun env (start table clock) ls d) {x : Uuid} {e : AccountEvent}
    (he : e ∈ d.world.log) (hc : Closes x e) :
    ∃ r ∈ e.post.accounts, r.id = x ∧ r.status = .Closed := by
  obtain ⟨closed_at, id, hdid, hid⟩ := hc
  obtain ⟨r, hr, hrid⟩ := closing_row h he (congrArg Done.op hdid) hid
  obtain ⟨_, _, _, hexec⟩ := h.did he hdid
  obtain ⟨x', hx', haccounts⟩ := exec_update_closed (t := e.tid) hexec
  obtain rfl := Option.some.inj (hid.symm.trans hx')
  refine ⟨r.closed_by x closed_at, haccounts ▸ List.mem_map_of_mem hr, ?_, ?_⟩
  · rw [AccountRow.closed_by_id, hrid]
  · rw [AccountRow.closed_by, if_pos hrid]
    rfl

/-- **One UPDATE closes an account**, if each finds its row not closed. -/
theorem closes_once (h : AccountRun env (start table clock) ls d)
    (hopen : ∀ e ∈ d.world.log, FindsOpen e) {x : Uuid} {e e' : AccountEvent}
    (he : e ∈ d.world.log) (he' : e' ∈ d.world.log) (hc : Closes x e) (hc' : Closes x e') :
    e = e' := by
  have never : ∀ {a b : AccountEvent}, Closes x a → Closes x b → ¬ Precedes d.world.log a b := by
    intro a b ha hb hprec
    obtain ⟨r, hr, rfl, hclosed⟩ := ha.closed h hprec.left
    have hr' := closed_between h hopen hprec r hr hclosed
    obtain ⟨closed_at, id, hdid, hid⟩ := hb
    exact (hopen b hprec.right).not_closed (congrArg Done.op hdid) hr' hid hclosed
  rcases precedes_total he he' with heq | hlt | hgt
  · exact heq
  · exact absurd hlt (never hc hc')
  · exact absurd hgt (never hc' hc)

/-- A call that succeeded has closed the account. -/
theorem Succeeded.closes (h : AccountRun env (start table clock) ls d) {x : Uuid} {t : Nat}
    (hs : Succeeded d x t) : ∃ e ∈ d.world.log, e.tid = t ∧ Closes x e := by
  obtain ⟨auth, id, resp, hr, hx⟩ := hs
  obtain ⟨closed_at, hmem⟩ := h.answer (serve_guarded env) hr
  obtain ⟨e, he, htid, hdid⟩ := mem_history.mp hmem
  obtain ⟨_, _, _, hexec⟩ := h.did he hdid
  obtain ⟨x', hx', _⟩ := exec_update_closed (t := e.tid) hexec
  have hparsed := Uuid.parse_str_of_UUID_TO_BIN hx'
  obtain rfl := Option.some.inj (hx.symm.trans hparsed)
  exact ⟨e, he, htid, closed_at, id, hdid, hx'⟩

/-- A call that publishes a closure has closed the account, and published nothing before. -/
theorem Publishes.closes (h : AccountRun env (start table clock) ls d) {x : Uuid}
    {before after : List AccountEvent} {e : AccountEvent}
    (split : d.world.log = before ++ e :: after) (hp : Publishes x e) :
    (∃ u ∈ d.world.log, u.tid = e.tid ∧ Closes x u) ∧
      ∀ a ∈ before, a.tid = e.tid → ¬ Publishes x a := by
  obtain ⟨topic, key, event, hop, rfl⟩ := hp
  have hguard := h.guard (serve_guarded env) split
  rw [hop] at hguard
  obtain ⟨⟨closed_at, id, hmem, hx⟩, first⟩ := hguard
  refine ⟨?_, ?_⟩
  · obtain ⟨u, _, htid, hdid, hprec⟩ := event_of_history after e hmem
    rw [← split] at hprec
    obtain ⟨_, _, _, hexec⟩ := h.did hprec.left hdid
    obtain ⟨x', hx', _⟩ := exec_update_closed (t := u.tid) hexec
    have hparsed := Uuid.parse_str_of_UUID_TO_BIN hx'
    obtain rfl := Option.some.inj (hx.symm.trans hparsed)
    exact ⟨u, hprec.left, htid, closed_at, id, hdid, hx'⟩
  · rintro a ha htid ⟨topic', key', event', hop', _⟩
    exact first a.did (mem_history.mpr ⟨a, ha, htid, rfl⟩) topic' key' _ hop'

/-- **Closing happens once**, whatever the calls are and however they interleave, if each UPDATE
finds the row it closes not closed. -/
theorem closing_once (env : Env) (table : Table env) (clock : Nat) (ls : List AccountLabel)
    (d : AccountConf) (h : AccountRun env (start table clock) ls d)
    (hopen : ∀ e ∈ d.world.log, FindsOpen e) : ClosedOnce d := by
  refine ⟨?_, ?_, ?_⟩
  · intro x t t' hs hs'
    obtain ⟨e, he, rfl, hc⟩ := hs.closes h
    obtain ⟨e', he', rfl, hc'⟩ := hs'.closes h
    rw [closes_once h hopen he he' hc hc']
  · rintro x e e' hp hp' ⟨before, after, split, hmem⟩
    obtain ⟨⟨u', hu', htid', hc'⟩, first⟩ := hp'.closes h split
    obtain ⟨before', after', split'⟩ := List.append_of_mem
      (split ▸ List.mem_append_left _ hmem : e ∈ d.world.log)
    obtain ⟨⟨u, hu, htid, hc⟩, _⟩ := hp.closes h split'
    obtain rfl := closes_once h hopen hu hu' hc hc'
    exact first e hmem (htid.symm.trans htid') hp
  · intro e he
    -- A row whose `closed_at` is set is closed, and closed rows stay.
    have since : KeepsClosedAt e.post d.world.store := by
      intro r hr closed_at hset
      obtain ⟨_, _, _, hexec⟩ := h.executed he
      have hvalid := (exec_accounts hexec).valid (event_valid h he)
      have hclosed := hvalid.closed_at r hr (Option.isSome_iff_exists.mpr ⟨closed_at, hset⟩)
      exact ⟨r, closed_since h hopen he r hr hclosed, rfl, hset⟩
    refine ⟨?_, since⟩
    intro r hr closed_at hset
    have hclosed := (event_valid h he).closed_at r hr (Option.isSome_iff_exists.mpr ⟨closed_at, hset⟩)
    exact since r (event_closed_stay h he (hopen e he) r hr hclosed) closed_at hset

/-! ## Closing the sample account -/

/-- `Succeeded`, computed. -/
def succeeded (d : AccountConf) (x : Uuid) (t : Nat) : Bool :=
  d.pool[t]?.any fun call =>
    match call.req, call.prog.result? with
    | .close_account _ id, some (.ok _) => Uuid.parse_str id = some x
    | _, _ => false

theorem succeeded_sound {x : Uuid} {t : Nat} (h : succeeded d x t = true) : Succeeded d x t := by
  obtain ⟨call, hcall, htest⟩ := (Option.any_eq_true _ _).mp h
  split at htest
  · next auth id resp hreq hresult =>
    exact ⟨auth, id, resp, ⟨call, hcall, hreq, hresult⟩, of_decide_eq_true htest⟩
  · cases htest

def sample_close : Request := .close_account sample_bearer (Uuid.low 2).to_string

/-- A closure whose UPDATE fails, the retry that closes the account, and a third call that is told
so. -/
def retried_closure : List AccountLabel :=
  [.spawn sample_close, .run 0 {}, .run 0 {}, .run 0 {}, .run 0 {}, .run 0 {},
    .run 0 { fault := .failed }, .spawn sample_close, .run 1 {}, .run 1 {}, .run 1 {}, .run 1 {},
    .run 1 {}, .run 1 {}, .run 1 { uuid := .low 9 }, .run 1 {}, .spawn sample_close, .run 2 {},
    .run 2 {}]

/-- The guarantee for them. -/
theorem closing_once_retried :
    ∃ d, AccountRun sample sample_start retried_closure d ∧ Succeeded d (.low 2) 1 ∧
      d.result? 2 = some (.error (.error .AlreadyClosed)) ∧ ClosedOnce d := by
  obtain ⟨run, checked⟩ := replayed_spec (machine sample) (serve sample) sample_start
    retried_closure (fun d => succeeded d (.low 2) 1 &&
      (d.result? 2 == some (.error (.error .AlreadyClosed))) &&
      d.world.log.all fun e => FindsOpen e) (by decide +kernel)
  simp only [Bool.and_eq_true, beq_iff_eq] at checked
  obtain ⟨⟨success, refused⟩, checked⟩ := checked
  refine ⟨_, run, succeeded_sound success, refused, ?_⟩
  exact closing_once sample sample_table _ retried_closure _ run fun e he =>
    of_decide_eq_true (List.all_eq_true.mp checked e he)

/-- Two calls that both read the account open before either closes it. -/
def two_closures : List AccountLabel :=
  [.spawn sample_close, .spawn sample_close, .run 0 {}, .run 0 {}, .run 0 {}, .run 0 {}, .run 1 {},
    .run 1 {}, .run 1 {}, .run 1 {}, .run 0 {}, .run 0 {}, .run 0 { uuid := .low 9 }, .run 0 {},
    .run 1 {}, .run 1 {}, .run 1 { uuid := .low 10 }, .run 1 {}]

/-- Both succeed. -/
theorem overlapping_closures :
    ¬ ∀ (env : Env) (table : Table env) (clock : Nat) (ls : List AccountLabel) (d : AccountConf),
      AccountRun env (start table clock) ls d → ClosedOnce d := by
  intro claim
  obtain ⟨run, checked⟩ := replayed_spec (machine sample) (serve sample) sample_start two_closures
    (fun d => succeeded d (.low 2) 0 && succeeded d (.low 2) 1) (by decide +kernel)
  obtain ⟨first, second⟩ := Bool.and_eq_true_iff.mp checked
  have same := (claim sample sample_table _ two_closures _ run).success (.low 2) 0 1
    (succeeded_sound first) (succeeded_sound second)
  cases same

end Kova.Account

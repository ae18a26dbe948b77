import Kova.Account.Closing

/-!
# A closure and its event

`close_account` closes the row first, and hands the event to the publisher afterwards. If the
publisher does not fail and no UPDATE that changes a row loses its reply (`Kept`), a call that
returns an error has left the table as it was, a call that succeeds leaves the account closed and
its event published, and so no closure is without its event once its call has returned
(`closing_with_event`). If the publisher fails, the row is closed already, the caller gets the
error, and the retry is told that the account is closed (`unpublished_closure`).
-/

set_option autoImplicit false

namespace Kova.Account

open Conc Ledger

/-- Of the requests only the closures say anything. -/
theorem serve_closes (env : Env) (req : Request) :
    Guarded (fun _ _ => True)
      (fun h r => ∀ auth id, req = .close_account auth id → ClosureAnswer id h r)
      (serve env req) [] := by
  refine (serve_steps env req).mono (fun _ _ _ => trivial) ?_
  rintro h r ends auth id rfl
  cases ends with
  | rejected => exact .refused (unwritten_extracted _)
  | close answer => exact answer

/-! ## The condition and the guarantee -/

/-- The publisher takes the event of a closure, and an UPDATE without a reply has changed no
row. -/
def Kept (e : AccountEvent) : Prop :=
  match e.op, e.res with
  | .publish_json _ _ (.closed _), .error _ => False
  | .sql (.update_closed ..), none => e.post.accounts = e.pre.accounts
  | _, _ => True

theorem Kept.answered {e : AccountEvent} (h : Kept e) {closed_at : DateTime} {id : String}
    (hdid : e.did = did (.update_closed closed_at id) none) : e.post.accounts = e.pre.accounts := by
  obtain ⟨tid, req, op, pre, res, post⟩ := e
  cases hdid
  exact h

theorem Kept.published {e : AccountEvent} (h : Kept e) {topic key : String}
    {event : AccountClosedEvent} {error : AccountError} :
    e.did ≠ ⟨.publish_json topic key (.closed event), .error error⟩ := by
  obtain ⟨tid, req, op, pre, res, post⟩ := e
  intro hdid
  cases hdid
  exact h

/-- Call `t` has published the closure of account `x`. -/
def Published (d : AccountConf) (x : Uuid) (t : Nat) : Prop :=
  ∃ e ∈ d.world.log, e.tid = t ∧ ∃ topic key event,
    e.did = ⟨.publish_json topic key (.closed event), .ok ()⟩ ∧ event.account_id = x

/-- **An account's closure and its event go together.** -/
structure ClosesWithEvent (table : List AccountRow) (d : AccountConf) : Prop where
  unchanged : ∀ t auth id e, d.returned t (.close_account auth id) (.error e) →
    ∀ a ∈ d.world.log, a.tid = t → a.post.accounts = a.pre.accounts
  success : ∀ x t, Succeeded d x t → IsClosed d.world.store.accounts x ∧ Published d x t
  /-- Of an account that was closed in the run, the call that closed it has published the event,
  or has not returned. -/
  closed : ∀ x, IsClosed d.world.store.accounts x → ¬ IsClosed table x →
    ∃ e ∈ d.world.log, ¬ IsClosed e.pre.accounts x ∧ IsClosed e.post.accounts x ∧
      (Published d x e.tid ∨ ∀ req r, ¬ d.returned e.tid req r)

variable {env : Env} {table : Table env} {clock : Nat} {ls : List AccountLabel} {d : AccountConf}

/-! ## What a call has done -/

/-- An operation that writes nothing leaves the table as it is. -/
theorem unwritten_same (h : AccountRun env (start table clock) ls d) {e : AccountEvent}
    (he : e ∈ d.world.log) (hop : e.op.writes = false) : e.post.accounts = e.pre.accounts := by
  obtain ⟨_, _, _, hexec⟩ := h.executed he
  have hchange := exec_accounts hexec
  generalize e.op = op at hchange hop
  generalize e.post.accounts = l at hchange
  cases hchange with
  | same => rfl
  | inserted => cases hop
  | deleted => cases hop
  | closed => cases hop

theorem close_answer (h : AccountRun env (start table clock) ls d) {t : Nat} {auth : Jwt.AuthHeader}
    {id : String} {r : Except Failure Response} (hr : d.returned t (.close_account auth id) r) :
    ClosureAnswer id (history t d.world.log) r :=
  h.answer (serve_closes env) hr auth id rfl

/-- **A call that returned an error** has left the table as it was. -/
theorem unchanged_of_kept (h : AccountRun env (start table clock) ls d)
    (kept : ∀ e ∈ d.world.log, Kept e) {t : Nat} {auth : Jwt.AuthHeader} {id : String} {e : Failure}
    (hr : d.returned t (.close_account auth id) (.error e)) {a : AccountEvent}
    (ha : a ∈ d.world.log) (htid : a.tid = t) : a.post.accounts = a.pre.accounts := by
  have hanswer := close_answer h hr
  have hmem : a.did ∈ history t d.world.log := mem_history.mpr ⟨a, ha, htid, rfl⟩
  generalize hhistory : history t d.world.log = done at hanswer hmem
  cases hanswer with
  | refused unwritten => exact unwritten_same h ha (unwritten a.did hmem)
  | unanswered unwritten =>
    rcases List.mem_append.mp hmem with hmem | hmem
    · exact unwritten_same h ha (unwritten a.did hmem)
    · exact (kept a ha).answered (List.mem_singleton.mp hmem)
  | unpublished =>
    obtain ⟨b, hb, _, hdid⟩ := mem_history.mp
      (hhistory ▸ List.mem_append_right _ List.mem_cons_self : _ ∈ history t d.world.log)
    exact absurd hdid (kept b hb).published

/-- A call that succeeded has published the closure. -/
theorem published_of_ok (h : AccountRun env (start table clock) ls d) {t : Nat}
    {auth : Jwt.AuthHeader} {id : String} {resp : Response}
    (hr : d.returned t (.close_account auth id) (.ok resp)) {x : Uuid}
    (hx : Uuid.parse_str id = some x) : Published d x t := by
  have hanswer := close_answer h hr
  generalize hhistory : history t d.world.log = done at hanswer
  cases hanswer with
  | published parsed =>
    obtain ⟨e, he, htid, hdid⟩ := mem_history.mp
      (hhistory ▸ List.mem_append_right _ List.mem_cons_self : _ ∈ history t d.world.log)
    exact ⟨e, he, htid, _, _, _, hdid, Option.some.inj (parsed.symm.trans hx)⟩

/-- An account that is closed stays closed. -/
theorem closed_stays {s s' : Store} (hstays : Stays s s') {x : Uuid}
    (hclosed : IsClosed s.accounts x) : IsClosed s'.accounts x := by
  obtain ⟨r, hr, rfl, hstatus⟩ := hclosed
  obtain ⟨r', hr', hb⟩ := hstays r hr (by rw [hstatus]; exact nofun)
  refine ⟨r', hr', hb.id_eq, ?_⟩
  cases hb with
  | same => exact hstatus
  | closed => rfl

theorem stays_since (h : AccountRun env (start table clock) ls d) {e : AccountEvent}
    (he : e ∈ d.world.log) : Stays e.post d.world.store := by
  refine h.along Stays.refl Stays.trans ?_ ?_ e he
  · intro o s s' henv r hr _
    exact ⟨r, outside_accounts henv ▸ hr, .same⟩
  · intro e he
    exact event_stays h he

/-- **A closure goes together with its event**, whatever the calls are and whatever else fails, if
the publisher does not fail and no UPDATE that changes a row loses its reply. -/
theorem closing_with_event (env : Env) (table : Table env) (clock : Nat) (ls : List AccountLabel)
    (d : AccountConf) (h : AccountRun env (start table clock) ls d)
    (kept : ∀ e ∈ d.world.log, Kept e) : ClosesWithEvent table.rows d := by
  refine ⟨?_, ?_, ?_⟩
  · intro t auth id e hr a ha htid
    exact unchanged_of_kept h kept hr ha htid
  · intro x t hs
    obtain ⟨e, he, _, hc⟩ := hs.closes h
    obtain ⟨auth, id, resp, hr, hx⟩ := hs
    exact ⟨closed_stays (stays_since h he) (hc.closed h he), published_of_ok h hr hx⟩
  · intro x hclosed hopen
    have outside : ∀ {o s s'}, (machine env).env o s = some s' →
        IsClosed s'.accounts x → IsClosed s.accounts x := by
      intro o s s' henv hc
      rwa [outside_accounts henv] at hc
    obtain ⟨e, he, hbefore, hafter⟩ := h.becomes outside hopen hclosed
    obtain ⟨_, _, _, hexec⟩ := h.executed he
    obtain ⟨closed_at, text, hop, parsed⟩ := exec_closes hexec hbefore hafter
    refine ⟨e, he, hbefore, hafter, ?_⟩
    by_contra hnone
    simp only [not_or, not_forall, not_not] at hnone
    obtain ⟨unpublished, req, r, hr⟩ := hnone
    -- The call that closed the account is a request to close it, and has returned.
    obtain ⟨before, after, split⟩ := List.append_of_mem he
    have hguard := h.guard (serve_guarded env) split
    rw [hop] at hguard
    obtain ⟨⟨auth, hreq⟩, _⟩ := hguard
    obtain rfl := (h.own_req (serve_guarded env) hr he rfl).symm.trans hreq
    cases r with
    | error failure =>
      have hsame := unchanged_of_kept h kept hr he rfl
      exact hbefore (hsame ▸ hafter)
    | ok resp => exact unpublished (published_of_ok h hr (Uuid.parse_str_of_UUID_TO_BIN parsed))

/-! ## Closing the sample account -/

/-- `Kept`, computed. -/
def kept (e : AccountEvent) : Bool :=
  match e.op, e.res with
  | .publish_json _ _ (.closed _), .error _ => false
  | .sql (.update_closed ..), none => e.post.accounts == e.pre.accounts
  | _, _ => true

theorem kept_sound {e : AccountEvent} (h : kept e = true) : Kept e := by
  unfold kept at h
  unfold Kept
  split at h
  · cases h
  · exact eq_of_beq h
  · trivial

/-- Call `t` was to close an account, and answered with an error. -/
def failed (d : AccountConf) (t : Nat) : Bool :=
  d.pool[t]?.any fun call =>
    match call.req, call.prog.result? with
    | .close_account .., some (.error _) => true
    | _, _ => false

theorem failed_sound {t : Nat} (h : failed d t = true) :
    ∃ auth id e, d.returned t (.close_account auth id) (.error e) := by
  obtain ⟨call, hcall, htest⟩ := (Option.any_eq_true _ _).mp h
  split at htest
  · next auth id e hreq hresult => exact ⟨auth, id, e, call, hcall, hreq, hresult⟩
  · cases htest

/-- The guarantee for a closure whose UPDATE fails, and the retry. -/
theorem closing_with_event_retried :
    ∃ d, AccountRun sample sample_start retried_closure d ∧
      (∃ auth id e, d.returned 0 (.close_account auth id) (.error e)) ∧ Succeeded d (.low 2) 1 ∧
        ClosesWithEvent sample_table.rows d := by
  obtain ⟨run, checked⟩ := replayed_spec (machine sample) (serve sample) sample_start
    retried_closure (fun d => failed d 0 && succeeded d (.low 2) 1 && d.world.log.all kept)
    (by decide +kernel)
  simp only [Bool.and_eq_true] at checked
  obtain ⟨⟨error, success⟩, checked⟩ := checked
  refine ⟨_, run, failed_sound error, succeeded_sound success, ?_⟩
  exact closing_with_event sample sample_table _ retried_closure _ run fun e he =>
    kept_sound (List.all_eq_true.mp checked e he)

/-- A closure whose event the publisher refuses, and the retry. -/
def unpublished_run : List AccountLabel :=
  [.spawn sample_close, .run 0 {}, .run 0 {}, .run 0 {}, .run 0 {}, .run 0 {}, .run 0 {},
    .run 0 { uuid := .low 9 }, .run 0 { published := .error (.EventPublish "broker down") },
    .spawn sample_close, .run 1 {}, .run 1 {}]

/-- The row is closed, and the retry is told so. -/
theorem unpublished_closure :
    ¬ ∀ (env : Env) (table : Table env) (clock : Nat) (ls : List AccountLabel) (d : AccountConf),
      AccountRun env (start table clock) ls d → ClosesWithEvent table.rows d := by
  intro claim
  obtain ⟨run, checked⟩ := replayed_spec (machine sample) (serve sample) sample_start
    unpublished_run
    (fun d => failed d 0 && (d.result? 1 == some (.error (.error .AlreadyClosed))) &&
      d.world.log.any fun a => a.tid == 0 && a.post.accounts != a.pre.accounts) (by decide +kernel)
  simp only [Bool.and_eq_true, List.any_eq_true, beq_iff_eq, bne_iff_ne] at checked
  obtain ⟨⟨error, _⟩, a, ha, htid, hchanged⟩ := checked
  obtain ⟨auth, id, e, hr⟩ := failed_sound error
  have safe := claim sample sample_table _ unpublished_run _ run
  exact hchanged (safe.unchanged 0 auth id e hr a ha htid)

end Kova.Account

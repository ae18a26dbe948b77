import Kova.Account.HandlerLaws
import Kova.Account.StoreLaws
import Kova.Conc.TwoRuns

/-!
# Another user's account

Every handler that takes an account id asks first whether the caller owns the account, and stops
where the answer is no: before Redis, the ledger, the payments and the publisher. So whatever calls
of one user about another user's account are made, and however they interleave, they read and
answer what they would if the account did not exist, and change nothing (`foreign_is_absent`). The
list of accounts is of those that the user owns.
-/

set_option autoImplicit false

namespace Kova.Account

open Conc Ledger

/-! ## Whose calls, and about what -/

/-- A request with this header is the user's, or is rejected. -/
def CalledBy (env : Env) (u : Uuid) (auth : Jwt.AuthHeader) : Prop :=
  ∀ now user, AuthUser.from_request_parts env.key now auth = .ok user →
    Uuid.UUID_TO_BIN user.sub = some u

/-- The text names no account but `x`, in any of the forms that are read as a UUID. -/
def Names (x : Uuid) (text : String) : Prop := ∀ y, Uuid.UUID_TO_BIN text = some y → y = x

/-- The requests of user `u` about account `x`. -/
def Request.asks (env : Env) (u x : Uuid) : Request → Prop
  | .get_account auth account_id | .get_balance auth account_id
  | .get_statement auth account_id _ _ | .close_account auth account_id =>
    CalledBy env u auth ∧ Names x account_id
  | _ => False

/-- The user owns no account `x`. -/
def Foreign (u x : Uuid) (s : Store) : Prop := ∀ r ∈ s.accounts, r.id = x → r.user_id ≠ u

/-- The store in which account `x` does not exist. -/
def Store.without (x : Uuid) (s : Store) : Store :=
  { s with accounts := s.accounts.filter (·.id != x) }

/-- The operation reads the clock, or asks who owns an account. -/
def Op.reads : Op → Bool
  | .utc_now | .sql (.select_account ..) | .sql (.select_currency ..) | .sql (.select_owned ..)
  | .sql (.select_to_close ..) => true
  | _ => false

/-- The same calls with the same results, whether account `x` exists or not, and no call changes
anything. -/
structure Hidden (env : Env) (s : Store) (x : Uuid) (ls : List AccountLabel) : Prop where
  alike : (replay (machine env) (serve env) (.init s) ls).map (·.pool) =
    (replay (machine env) (serve env) (.init (s.without x)) ls).map (·.pool)
  unchanged : ∀ d, replay (machine env) (serve env) (.init s) ls = some d →
    ∀ e ∈ d.world.log, e.op.reads = true ∧ e.post = e.pre

/-- What `list_accounts` answered is what its statement found of the user's accounts. -/
def ListsOwn (u : Uuid) (d : AccountConf) (t : Nat) (resp : Response) : Prop :=
  ∃ e ∈ d.world.log, e.tid = t ∧ ∃ data, resp = .accounts data ∧
    data.Perm ((e.pre.accounts.filter (·.user_id == u)).map AccountRow.view)

/-! ## The ownership query -/

section Query

variable {env : Env} {u x : Uuid} {s : Store}

/-- A query for account `x` of user `u`. -/
def Sql.owner (u x : Uuid) : Sql → Prop
  | .select_account id user_id | .select_currency id user_id | .select_owned id user_id
  | .select_to_close id user_id => Uuid.UUID_TO_BIN user_id = some u ∧ Names x id
  | _ => False

/-- What it answers when there is no such account. -/
def Sql.absent : (q : Sql) → Option q.Res
  | .select_account id _ => (Uuid.UUID_TO_BIN id).map fun _ => none
  | .select_currency id _ => (Uuid.UUID_TO_BIN id).map fun _ => none
  | .select_owned id _ => (Uuid.UUID_TO_BIN id).map fun _ => none
  | .select_to_close id _ => (Uuid.UUID_TO_BIN id).map fun _ => none
  | _ => none

theorem Foreign.owned (h : Foreign u x s) : s.owned x u = none := by
  refine List.find?_eq_none.mpr ?_
  intro r hr hfound
  obtain ⟨hid, huser⟩ := Bool.and_eq_true_iff.mp hfound
  exact h r hr (beq_iff_eq.mp hid) (beq_iff_eq.mp huser)

theorem Foreign.without (h : Foreign u x s) : Foreign u x (s.without x) :=
  fun r hr => h r (List.mem_of_mem_filter hr)

/-- **The query finds nothing** where the user owns no such account. -/
theorem Foreign.run (h : Foreign u x s) {q : Sql} (hq : q.owner u x) (rows : List AccountRow) :
    q.run env rows s = some (q.absent, s) := by
  cases q with
  | select_account id user_id | select_currency id user_id | select_owned id user_id
  | select_to_close id user_id =>
    obtain ⟨huser, hnames⟩ := hq
    simp only [Sql.run, Sql.absent, huser]
    cases hid : Uuid.UUID_TO_BIN id with
    | none => rfl
    | some y =>
      obtain rfl := hnames y hid
      simp only [h.owned, Option.map_none, Option.filter_none]
      rfl
  | _ => cases hq

theorem Foreign.exec (h : Foreign u x s) {q : Sql} (hq : q.owner u x) (t : Nat) (ch : Choice) :
    exec env t ch s (.sql q) = some (if ch.fault = .none then q.absent else none, s) := by
  cases hfault : ch.fault with
  | none =>
    simp only [Account.exec, hfault, h.run hq]
    rfl
  | failed =>
    simp only [Account.exec, hfault]
    rfl
  | lost =>
    simp only [Account.exec, hfault, h.run hq]
    rfl

/-! ## The handlers are blind to it -/

/-- The two stores that the same calls are made on. -/
def Apart (u x : Uuid) (s s' : Store) : Prop := Foreign u x s ∧ s' = s.without x

/-- A program that reads, and does not see whether account `x` exists. -/
abbrev Unseeing (env : Env) (u x : Uuid) (p : Async Response) : Prop :=
  Blind (machine env) (Apart u x) (fun op => op.reads = true) p

theorem unseeing_auth_user {auth : Jwt.AuthHeader} (hauth : CalledBy env u auth)
    {f : AuthUser → Async Response}
    (rest : ∀ user, Uuid.UUID_TO_BIN user.sub = some u → Unseeing env u x (f user)) :
    Unseeing env u x (auth_user env.key auth >>= f) := by
  refine ⟨rfl, ?_⟩
  rintro t ch s _ ⟨hforeign, rfl⟩
  refine .some ⟨rfl, ⟨hforeign, rfl⟩, ?_⟩
  simp only [Prog.bind]
  cases huser : AuthUser.from_request_parts env.key _ auth with
  | error message => trivial
  | ok user => exact rest user (hauth _ _ huser)

/-- What follows an ownership query is what follows its finding nothing. -/
theorem unseeing_owner {q : Sql} (hq : q.owner u x) (hreads : (Op.sql q).reads = true)
    {f : q.Res → Async Response} (rest : ∀ r, q.absent = some r → Unseeing env u x (f r)) :
    Unseeing env u x (sql q >>= f) := by
  refine ⟨hreads, ?_⟩
  rintro t ch s _ ⟨hforeign, rfl⟩
  show Option.Rel _ (exec env t ch s (.sql q)) (exec env t ch (s.without x) (.sql q))
  rw [hforeign.exec hq, hforeign.without.exec hq]
  refine .some ⟨rfl, ⟨hforeign, rfl⟩, ?_⟩
  show Unseeing env u x ((match (if ch.fault = .none then q.absent else none) with
    | some r => (.ret r : Async q.Res)
    | none => fail .Database) >>= f)
  split
  · next hr =>
    split at hr
    · exact rest _ hr
    · cases hr
  · trivial

/-- It finds nothing, so the handler stops. -/
theorem unseeing_or_fail {β : Type} {text : String} {e : AccountError} {f : β → Async Response} :
    ∀ r, (Uuid.UUID_TO_BIN text).map (fun _ => (none : Option β)) = some r →
      Unseeing env u x (or_fail e r >>= f) := by
  intro r hr
  obtain ⟨_, _, rfl⟩ := Option.map_eq_some_iff.mp hr
  trivial

/-- **The four handlers** do not see another user's account. -/
theorem serve_unseeing {req : Request} (hreq : req.asks env u x) :
    Unseeing env u x (serve env req) := by
  cases req with
  | get_account auth account_id =>
    obtain ⟨hauth, hnames⟩ := hreq
    apply unseeing_auth_user hauth
    intro user huser
    exact unseeing_owner (q := .select_account account_id user.sub) ⟨huser, hnames⟩ rfl
      unseeing_or_fail
  | get_balance auth account_id =>
    obtain ⟨hauth, hnames⟩ := hreq
    apply unseeing_auth_user hauth
    intro user huser
    exact unseeing_owner (q := .select_currency account_id user.sub) ⟨huser, hnames⟩ rfl
      unseeing_or_fail
  | get_statement auth account_id cursor limit =>
    obtain ⟨hauth, hnames⟩ := hreq
    apply unseeing_auth_user hauth
    intro user huser
    unfold get_statement
    dsimp only
    split
    · trivial
    · exact unseeing_owner (q := .select_owned account_id user.sub) ⟨huser, hnames⟩ rfl
        unseeing_or_fail
  | close_account auth account_id =>
    obtain ⟨hauth, hnames⟩ := hreq
    apply unseeing_auth_user hauth
    intro user huser
    exact unseeing_owner (q := .select_to_close account_id user.sub) ⟨huser, hnames⟩ rfl
      unseeing_or_fail
  | _ => cases hreq

/-- What reads changes nothing. -/
theorem exec_reads {t : Nat} {ch : Choice} {s s' : Store} {op : Op} (hop : op.reads = true)
    {r : op.Res} (h : exec env t ch s op = some (r, s')) : s' = s := by
  cases op with
  | utc_now =>
    cases h
    rfl
  | sql q =>
    rcases exec_sql h with ⟨_, rfl⟩ | ⟨r', hrun, _⟩
    · rfl
    · cases q with
      | select_account | select_currency | select_owned | select_to_close =>
        simp only [Sql.run] at hrun
        split at hrun <;> cases hrun <;> rfl
      | _ => cases hop
  | _ => cases hop

theorem outside_apart (o : Outside) (s s' : Store) (h : Apart u x s s') :
    Option.Rel (Apart u x) (outside o s) (outside o s') := by
  obtain ⟨hforeign, rfl⟩ := h
  cases o with
  | advance n => exact .some ⟨hforeign, rfl⟩
  | ledger o =>
    show Option.Rel _ ((Ledger.outside o s.ledger).map _) ((Ledger.outside o s.ledger).map _)
    cases Ledger.outside o s.ledger with
    | none => exact .none
    | some ledger => exact .some ⟨hforeign, rfl⟩

theorem hidden_of_foreign (hforeign : Foreign u x s) {ls : List AccountLabel}
    (hasks : ∀ req, .spawn req ∈ ls → req.asks env u x) : Hidden env s x ls := by
  have start : Together (machine env) (Apart u x) (fun op => op.reads = true)
      (.init s : AccountConf) (.init (s.without x)) := by
    refine ⟨rfl, ⟨hforeign, rfl⟩, ?_, ?_⟩
    · intro call hcall
      cases hcall
    · intro e he
      cases he
  have both : Option.Rel (Together (machine env) (Apart u x) fun op => op.reads = true)
      (replay (machine env) (serve env) (.init s) ls)
      (replay (machine env) (serve env) (.init (s.without x)) ls) :=
    replay_together outside_apart start fun req hreq => serve_unseeing (hasks req hreq)
  refine ⟨pool_eq_of_together both, ?_⟩
  intro d hd e he
  rw [hd] at both
  generalize replay (machine env) (serve env) (.init (s.without x)) ls = other at both
  cases both with
  | some together =>
    have hreads := together.log e he
    obtain ⟨_, _, _, hexec⟩ := (run_of_replay hd).executed he
    exact ⟨hreads, exec_reads hreads hexec⟩

end Query

/-! ## The list of accounts -/

/-- What `list_accounts` answers is what its statement answered. -/
theorem serve_lists (env : Env) (req : Request) :
    Guarded (fun _ _ => True)
      (fun h r => ∀ auth resp, req = .list_accounts auth → r = .ok resp →
        ∃ now user data, AuthUser.from_request_parts env.key now auth = .ok user ∧
          did (.select_accounts user.sub) (some data) ∈ h ∧ resp = .accounts data)
      (serve env req) [] := by
  refine (serve_steps env req).mono (fun _ _ _ => trivial) ?_
  rintro h r ends auth resp rfl rfl
  cases ends with
  | listed accepted => exact ⟨_, _, _, accepted, by simp, rfl⟩

theorem exec_select_accounts {env : Env} {t : Nat} {ch : Choice} {s s' : Store} {sub : String}
    {data : List AccountView}
    (h : exec env t ch s (.sql (.select_accounts sub)) = some (some data, s')) {u : Uuid}
    (hsub : Uuid.UUID_TO_BIN sub = some u) :
    data.Perm ((s.accounts.filter (·.user_id == u)).map AccountRow.view) := by
  have hrun := exec_answered h
  simp only [Sql.run, hsub] at hrun
  split at hrun
  · next hrows =>
    cases hrun
    exact hrows.1.map _
  · cases hrun

theorem lists_own {env : Env} {s : Store} {ls : List AccountLabel} {d : AccountConf}
    (h : AccountRun env (.init s) ls d) {u : Uuid} {auth : Jwt.AuthHeader}
    (hauth : CalledBy env u auth) {t : Nat} {resp : Response}
    (hr : d.returned t (.list_accounts auth) (.ok resp)) : ListsOwn u d t resp := by
  obtain ⟨now, user, data, huser, hmem, rfl⟩ := h.answer (serve_lists env) hr auth resp rfl rfl
  obtain ⟨e, he, htid, hdid⟩ := mem_history.mp hmem
  obtain ⟨_, _, _, hexec⟩ := h.did he hdid
  exact ⟨e, he, htid, data, rfl, exec_select_accounts (t := e.tid) hexec (hauth now user huser)⟩

/-! ## Another user's account is no account -/

/-- **Another user's account is indistinguishable from none**, to any calls of the four handlers,
in any state; and `list_accounts` returns the user's own accounts, whatever other calls there
are. -/
theorem foreign_is_absent (env : Env) (s : Store) (u : Uuid) :
    (∀ x ls, Foreign u x s → (∀ req, .spawn req ∈ ls → req.asks env u x) → Hidden env s x ls) ∧
      ∀ ls d t auth resp, AccountRun env (.init s) ls d → CalledBy env u auth →
        d.returned t (.list_accounts auth) (.ok resp) → ListsOwn u d t resp :=
  ⟨fun _ _ hforeign hasks => hidden_of_foreign hforeign hasks,
    fun _ _ _ _ _ h hauth hr => lists_own h hauth hr⟩

/-- A store in which user 3 has the account 2. -/
def sample_other : Store where
  accounts := [{ sample_account with user_id := .low 3 }]
  clock := 1700000000000000000

/-- User 1 asks for its balance. -/
def sample_asks : List AccountLabel :=
  [.spawn (.get_balance sample_bearer (Uuid.low 2).to_string), .run 0 {}, .run 0 {}]

/-- User 1 asks for a list. -/
def sample_lists : List AccountLabel :=
  [.spawn (.list_accounts sample_bearer), .run 0 {}, .run 0 {}]

theorem sample_called : CalledBy sample (.low 1) sample_bearer := by
  intro now user huser
  simp only [sample_bearer, AuthUser.from_request_parts] at huser
  split at huser
  · next user' hdecode =>
    cases huser
    obtain ⟨token, htoken, _, _, hread, _⟩ := Jwt.decode_ok hdecode
    cases htoken
    cases hread
    exact Uuid.UUID_TO_BIN_to_string _
  · cases huser

/-- The guarantee for it. -/
theorem foreign_is_absent_sample :
    Hidden sample sample_other (.low 2) sample_asks ∧
      (∃ d, AccountRun sample (.init sample_other) sample_asks d ∧
        d.result? 0 = some (.error (.error .AccountNotFound))) ∧
      ∃ d, AccountRun sample (.init sample_other) sample_lists d ∧
        ListsOwn (.low 1) d 0 (.accounts []) := by
  refine ⟨?_, ?_, ?_⟩
  · refine (foreign_is_absent sample sample_other (.low 1)).1 (.low 2) sample_asks ?_ ?_
    · intro r hr _
      obtain rfl := List.mem_singleton.mp hr
      decide
    · intro req hreq
      obtain rfl : req = .get_balance sample_bearer (Uuid.low 2).to_string := by
        simpa [sample_asks] using hreq
      refine ⟨sample_called, ?_⟩
      intro y hy
      rw [Uuid.UUID_TO_BIN_to_string, Option.some.injEq] at hy
      exact hy.symm
  · obtain ⟨run, checked⟩ := replayed_spec (machine sample) (serve sample) (.init sample_other)
      sample_asks (fun d => d.result? 0 == some (.error (.error .AccountNotFound)))
      (by decide +kernel)
    exact ⟨_, run, beq_iff_eq.mp checked⟩
  · obtain ⟨run, checked⟩ := replayed_spec (machine sample) (serve sample) (.init sample_other)
      sample_lists (fun d => d.result? 0 == some (.ok (.accounts []))) (by decide +kernel)
    exact ⟨_, run, (foreign_is_absent sample sample_other (.low 1)).2 sample_lists _ 0
      sample_bearer _ run sample_called (returned_of_result? rfl (beq_iff_eq.mp checked))⟩

end Kova.Account

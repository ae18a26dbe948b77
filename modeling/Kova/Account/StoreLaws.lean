import Kova.Account.Store
import Kova.Conc.Hosting
import Kova.Ledger.StoreLaws

/-!
# What the operations do

- `exec_effect`: what one operation can do to the store, of which each part moves by operations of
  its own (`exec_frame`, `exec_apart`), and `outside_cases`: what the outside can do to it.
- `exec_accounts`: what one operation can do to the table of accounts. A row is inserted, a row is
  deleted, a row is closed, or nothing happens.
- `Valid`: the keys and CHECK constraints of the table, kept by every operation.
- `exec_minted`, `exec_ledger`: the other parts of the store that later proofs read.
- what the statements of the closure answer.
-/

set_option autoImplicit false

namespace Kova.Account

open Conc Ledger

variable {env : Env} {t : Nat} {ch : Choice} {s s' : Store}

@[simp] theorem AccountRow.close_id (closed_at : DateTime) (r : AccountRow) :
    (r.close closed_at).id = r.id := rfl

@[simp] theorem AccountRow.close_status (closed_at : DateTime) (r : AccountRow) :
    (r.close closed_at).status = .Closed := rfl

/-- The column tells the statuses apart. -/
theorem AccountStatus.text_injective : Function.Injective AccountStatus.text := by
  intro s s' h
  cases s <;> cases s' <;> first | rfl | exact absurd h (by decide)

/-- The row as an UPDATE of account `x` leaves it. -/
def AccountRow.closed_by (x : Uuid) (closed_at : DateTime) (r : AccountRow) : AccountRow :=
  if r.id = x then r.close closed_at else r

theorem AccountRow.closed_by_id (x : Uuid) (closed_at : DateTime) (r : AccountRow) :
    (r.closed_by x closed_at).id = r.id := by
  unfold closed_by
  split <;> rfl

/-! ## The table of accounts -/

/-- What an operation can do to the table. -/
inductive AccountsChange (env : Env) (s : Store) : Op → List AccountRow → Prop
  | same (op : Op) : AccountsChange env s op s.accounts
  | inserted {id user_id account_number currency : String} {row : AccountRow}
      (values : inserted_row env id user_id account_number currency s.now = some row)
      (fresh : ∀ r ∈ s.accounts, clashes env row r = false) :
      AccountsChange env s (.sql (.insert_account id user_id account_number currency))
        (s.accounts ++ [row])
  | deleted {text : String} {x : Uuid} (parsed : Uuid.UUID_TO_BIN text = some x) :
      AccountsChange env s (.sql (.delete_account text)) (s.accounts.filter (·.id != x))
  | closed {closed_at : DateTime} {text : String} {x : Uuid}
      (parsed : Uuid.UUID_TO_BIN text = some x) :
      AccountsChange env s (.sql (.update_closed closed_at text))
        (s.accounts.map (AccountRow.closed_by x closed_at))

theorem run_accounts {rows : List AccountRow} {q : Sql} {r : Option q.Res}
    (h : q.run env rows s = some (r, s')) : AccountsChange env s (.sql q) s'.accounts := by
  cases q with
  | insert_account id user_id account_number currency =>
    simp only [Sql.run] at h
    split at h
    · cases h
      exact .same _
    · next row hrow =>
      split at h
      · cases h
        exact .same _
      · next hnew =>
        cases h
        refine .inserted hrow ?_
        intro r hr
        exact Bool.eq_false_iff.mpr fun hclash => hnew (List.any_eq_true.mpr ⟨r, hr, hclash⟩)
  | delete_account id =>
    simp only [Sql.run] at h
    split at h
    · next hparsed =>
      cases h
      exact .deleted hparsed
    · cases h
      exact .same _
  | update_closed closed_at id =>
    simp only [Sql.run] at h
    split at h
    · next hparsed =>
      split at h
      · cases h
        exact .closed hparsed
      · cases h
        exact .same _
    · cases h
      exact .same _
  | _ =>
    simp only [Sql.run] at h
    repeat' split at h
    all_goals cases h
    all_goals exact .same _

/-- A statement fails without effect, or has its effect, the reply possibly lost. -/
theorem exec_sql {q : Sql} {r : Option q.Res} (h : exec env t ch s (.sql q) = some (r, s')) :
    (r = none ∧ s' = s) ∨ ∃ r', q.run env ch.rows s = some (r', s') ∧ (r = r' ∨ r = none) :=
  fault_cases h

/-- A statement that answered was executed. -/
theorem exec_answered {q : Sql} {r : q.Res} (h : exec env t ch s (.sql q) = some (some r, s')) :
    q.run env ch.rows s = some (some r, s') := by
  rcases exec_sql h with ⟨hr, _⟩ | ⟨r', hrun, rfl | hr⟩
  · cases hr
  · exact hrun
  · cases hr

/-- A statement changes the table and the sequence only. -/
theorem run_frame {rows : List AccountRow} {q : Sql} {r : Option q.Res}
    (h : q.run env rows s = some (r, s')) :
    ∃ accounts account_number_seq, s' = { s with accounts, account_number_seq } := by
  cases q <;> simp only [Sql.run] at h <;> repeat' split at h
  all_goals cases h
  all_goals exact ⟨_, _, rfl⟩

/-- What an operation can do to the store: each part moves by operations of its own. -/
inductive Effect (env : Env) (ch : Choice) (s : Store) : Op → Store → Prop
  | same (op : Op) : Effect env ch s op s
  | sql {q : Sql} {r : Option q.Res} {s' : Store} (run : q.run env ch.rows s = some (r, s')) :
      Effect env ch s (.sql q) s'
  | redis (cmd : Redis.Cmd) (redis : Redis.Db) : Effect env ch s (.redis cmd) { s with redis }
  | now_v7 (minted : List Uuid) : Effect env ch s .now_v7 { s with minted }
  | ledger (q : Ledger.Op) (ledger : Ledger.Store) : Effect env ch s (.ledger q) { s with ledger }

theorem exec_effect {op : Op} {r : op.Res} (h : exec env t ch s op = some (r, s')) :
    Effect env ch s op s' := by
  cases op with
  | sql q =>
    rcases exec_sql h with ⟨_, rfl⟩ | ⟨_, hrun, _⟩
    · exact .same _
    · exact .sql hrun
  | redis cmd =>
    simp only [exec] at h
    cases hf : ch.fault <;> rw [hf] at h <;> cases h
    · exact .redis _ _
    · exact .same _
    · exact .redis _ _
  | now_v7 =>
    simp only [exec] at h
    split at h <;> cases h
    exact .now_v7 _
  | ledger q =>
    obtain ⟨_, _, heq⟩ := Option.map_eq_some_iff.mp h
    cases heq
    exact .ledger _ _
  | _ =>
    cases h
    exact .same _

/-- Each part of the store moves by operations of its own. -/
structure Frame (op : Op) (s s' : Store) : Prop where
  accounts : (∀ q, op ≠ .sql q) → s'.accounts = s.accounts
  minted : op ≠ .now_v7 → s'.minted = s.minted
  ledger : (∀ q, op ≠ .ledger q) → s'.ledger = s.ledger

/-- The accounts change by statements, no identifier is generated but by `now_v7`, and the ledger
moves by its own operations. -/
theorem exec_frame {op : Op} {r : op.Res} (h : exec env t ch s op = some (r, s')) :
    Frame op s s' := by
  cases exec_effect h with
  | same => exact ⟨fun _ => rfl, fun _ => rfl, fun _ => rfl⟩
  | sql run =>
    obtain ⟨_, _, rfl⟩ := run_frame run
    exact ⟨fun hop => absurd rfl (hop _), fun _ => rfl, fun _ => rfl⟩
  | redis => exact ⟨fun _ => rfl, fun _ => rfl, fun _ => rfl⟩
  | now_v7 => exact ⟨fun _ => rfl, fun hop => absurd rfl hop, fun _ => rfl⟩
  | ledger => exact ⟨fun _ => rfl, fun _ => rfl, fun hop => absurd rfl (hop _)⟩

/-- Redis moves by its commands, and the clock by none of the operations. -/
theorem exec_apart {op : Op} {r : op.Res} (h : exec env t ch s op = some (r, s')) :
    s'.clock = s.clock ∧ ((∀ cmd, op ≠ .redis cmd) → s'.redis = s.redis) := by
  cases exec_effect h with
  | sql run =>
    obtain ⟨_, _, rfl⟩ := run_frame run
    exact ⟨rfl, fun _ => rfl⟩
  | redis => exact ⟨rfl, fun hop => absurd rfl (hop _)⟩
  | same | now_v7 | ledger => exact ⟨rfl, fun _ => rfl⟩

/-- From the outside the clock advances, or the ledger moves. -/
theorem outside_cases {o : Outside} (h : outside o s = some s') :
    (∃ n, o = .advance n ∧ s' = { s with clock := s.clock + n }) ∨
      ∃ q ledger, o = .ledger q ∧ Ledger.outside q s.ledger = some ledger ∧
        s' = { s with ledger } := by
  cases o with
  | advance n =>
    cases h
    exact .inl ⟨n, rfl, rfl⟩
  | ledger q =>
    obtain ⟨ledger, houtside, rfl⟩ := Option.map_eq_some_iff.mp h
    exact .inr ⟨q, ledger, rfl, houtside, rfl⟩

theorem outside_accounts {o : Outside} (h : outside o s = some s') : s'.accounts = s.accounts := by
  rcases outside_cases h with ⟨_, _, rfl⟩ | ⟨_, _, _, _, rfl⟩ <;> rfl

/-- A command that was answered was executed. -/
theorem exec_redis {cmd : Redis.Cmd} {r : cmd.Res}
    (h : exec env t ch s (.redis cmd) = some (some r, s')) :
    r = (Redis.run s.clock s.redis cmd).1 ∧
      s' = { s with redis := (Redis.run s.clock s.redis cmd).2 } := by
  simp only [exec] at h
  cases hf : ch.fault <;> rw [hf] at h <;> cases h
  exact ⟨rfl, rfl⟩

/-- **What one operation can do to the accounts.** -/
theorem exec_accounts {op : Op} {r : op.Res} (h : exec env t ch s op = some (r, s')) :
    AccountsChange env s op s'.accounts := by
  by_cases hop : ∃ q, op = .sql q
  · obtain ⟨q, rfl⟩ := hop
    rcases exec_sql h with ⟨_, rfl⟩ | ⟨_, hrun, _⟩
    · exact .same _
    · exact run_accounts hrun
  · rw [(exec_frame h).accounts fun q hq => hop ⟨q, hq⟩]
    exact .same _

/-! ## Closed accounts -/

/-- The table has the account as closed. -/
def IsClosed (accounts : List AccountRow) (x : Uuid) : Prop :=
  ∃ r ∈ accounts, r.id = x ∧ r.status = .Closed

/-- The row that an INSERT stores. -/
theorem inserted_row_spec {id user_id account_number currency : String} {now : Int}
    {row : AccountRow} (h : inserted_row env id user_id account_number currency now = some row) :
    Uuid.UUID_TO_BIN id = some row.id ∧ row.status = .PendingKYC ∧ row.closed_at = none := by
  simp only [inserted_row, Option.bind_eq_bind, Option.bind_eq_some_iff] at h
  obtain ⟨x, hx, _, _, _, _, _, _, h⟩ := h
  split at h
  · cases h
    exact ⟨hx, rfl, rfl⟩
  · cases h

/-- **An account becomes closed** by the UPDATE of its row only. -/
theorem exec_closes {op : Op} {r : op.Res} (h : exec env t ch s op = some (r, s')) {x : Uuid}
    (hopen : ¬ IsClosed s.accounts x) (hclosed : IsClosed s'.accounts x) :
    ∃ closed_at text, op = .sql (.update_closed closed_at text) ∧
      Uuid.UUID_TO_BIN text = some x := by
  have hchange := exec_accounts h
  obtain ⟨row, hrow, rfl, hstatus⟩ := hclosed
  have moved : row ∉ s.accounts := fun hmem => hopen ⟨row, hmem, rfl, hstatus⟩
  generalize s'.accounts = l at hchange hrow
  cases hchange with
  | same => exact absurd hrow moved
  | inserted values =>
    rcases List.mem_append.mp hrow with hrow | hrow
    · exact absurd hrow moved
    · obtain rfl := List.mem_singleton.mp hrow
      rw [(inserted_row_spec values).2.1] at hstatus
      cases hstatus
  | deleted => exact absurd (List.mem_of_mem_filter hrow) moved
  | @closed closed_at text x parsed =>
    obtain ⟨row₀, hrow₀, rfl⟩ := List.mem_map.mp hrow
    by_cases hid : row₀.id = x
    · refine ⟨closed_at, text, rfl, ?_⟩
      rw [AccountRow.closed_by_id, hid]
      exact parsed
    · rw [AccountRow.closed_by, if_neg hid] at moved
      exact absurd hrow₀ moved

/-! ## Keys and checks -/

/-- The primary key, and the CHECK constraint on `closed_at`. -/
structure Valid (accounts : List AccountRow) : Prop where
  ids : (accounts.map (·.id)).Nodup
  closed_at : ∀ r ∈ accounts, r.closed_at.isSome = true → r.status = .Closed

theorem Table.valid (table : Table env) : Valid table.rows where
  ids := by
    rw [List.Nodup, List.pairwise_map]
    refine table.keys.imp ?_
    intro r r' hclash hid
    simp [clashes, hid] at hclash
  closed_at r hr := (table.checks r hr).2

theorem Valid.eq_of_id {accounts : List AccountRow} (h : Valid accounts) {r r' : AccountRow}
    (hr : r ∈ accounts) (hr' : r' ∈ accounts) (hid : r.id = r'.id) : r = r' :=
  List.inj_on_of_nodup_map h.ids hr hr' hid

theorem AccountsChange.valid {op : Op} {l : List AccountRow} (h : AccountsChange env s op l)
    (hs : Valid s.accounts) : Valid l := by
  cases h with
  | same => exact hs
  | @inserted _ _ _ _ row values fresh =>
    obtain ⟨_, _, hnull⟩ := inserted_row_spec values
    refine ⟨?_, ?_⟩
    · rw [List.map_append, List.nodup_append]
      refine ⟨hs.ids, by simp, ?_⟩
      intro x hx y hy hxy
      obtain ⟨r, hr, rfl⟩ := List.mem_map.mp hx
      obtain rfl : y = row.id := by simpa using hy
      have hfresh := fresh r hr
      simp [clashes, hxy] at hfresh
    · intro r hr hsome
      rcases List.mem_append.mp hr with hr | hr
      · exact hs.closed_at r hr hsome
      · obtain rfl := List.mem_singleton.mp hr
        rw [hnull] at hsome
        cases hsome
  | deleted => exact ⟨hs.ids.sublist (List.filter_sublist.map _), fun r hr =>
      hs.closed_at r (List.mem_of_mem_filter hr)⟩
  | @closed closed_at _ x _ =>
    refine ⟨?_, ?_⟩
    · have same : (s.accounts.map (AccountRow.closed_by x closed_at)).map (·.id) =
          s.accounts.map (·.id) := by
        rw [List.map_map]
        exact List.map_congr_left fun r _ => AccountRow.closed_by_id x closed_at r
      rw [same]
      exact hs.ids
    · intro r' hr' hsome
      obtain ⟨r, hr, rfl⟩ := List.mem_map.mp hr'
      unfold AccountRow.closed_by at hsome ⊢
      split
      · rfl
      · next hne =>
        rw [if_neg hne] at hsome
        exact hs.closed_at r hr hsome

/-! ## The other parts of the store -/

/-- The identifier that is generated is new. -/
theorem exec_now_v7 {x : Uuid} (h : exec env t ch s .now_v7 = some (x, s')) :
    x ∉ s.minted ∧ s'.minted = x :: s.minted := by
  simp only [exec] at h
  split at h
  · cases h
  · next hnew =>
    cases h
    exact ⟨hnew, rfl⟩

theorem exec_minted {op : Op} {r : op.Res} (h : exec env t ch s op = some (r, s')) :
    s.minted ⊆ s'.minted := by
  by_cases hop : op = .now_v7
  · subst hop
    rw [(exec_now_v7 h).2]
    exact List.subset_cons_self _ _
  · rw [(exec_frame h).minted hop]
    exact List.Subset.refl _

theorem exec_ledger {q : Ledger.Op} {r : q.Res}
    (h : exec env t ch s (.ledger q) = some (r, s')) :
    ∃ ledger, Ledger.exec env.ledger.db t ch.ledger s.ledger q = some (r, ledger) ∧
      s' = { s with ledger } := by
  obtain ⟨⟨r', ledger⟩, hexec, heq⟩ := Option.map_eq_some_iff.mp h
  cases heq
  exact ⟨ledger, hexec, rfl⟩

/-- **The ledger beside the handlers** does what the ledger does. -/
theorem hosts (env : Env) :
    Hosts (Ledger.machine env.ledger.db) (machine env) .ledger (fun _ r => r) Store.ledger where
  exec {t ch' s op r s'} h := by
    obtain ⟨ledger, hexec, rfl⟩ := exec_ledger h
    exact ⟨ch'.ledger, hexec⟩
  others hop h := (exec_frame h).ledger hop
  env {e' s s'} h := by
    cases e' with
    | advance n =>
      cases h
      exact .inl rfl
    | ledger o =>
      obtain ⟨ledger, hledger, rfl⟩ := Option.map_eq_some_iff.mp h
      exact .inr ⟨o, hledger⟩

/-! ## What a reply says -/

theorem owned_spec {id user_id : Uuid} {r : AccountRow} (h : s.owned id user_id = some r) :
    r ∈ s.accounts ∧ r.id = id ∧ r.user_id = user_id := by
  have hfound := List.find?_some h
  simp only [Bool.and_eq_true, beq_iff_eq] at hfound
  exact ⟨List.mem_of_find?_eq_some h, hfound⟩

/-- The row that a closure reads is the caller's. -/
theorem exec_to_close {id user_id : String} {row : CloseRow}
    (h : exec env t ch s (.sql (.select_to_close id user_id)) = some (some (some row), s')) :
    ∃ r ∈ s.accounts, Uuid.UUID_TO_BIN id = some r.id ∧ Uuid.UUID_TO_BIN user_id = some r.user_id ∧
      row = ⟨r.user_id.to_string, r.status.text⟩ := by
  have hrun := exec_answered h
  simp only [Sql.run] at hrun
  split at hrun
  · next x y hx hy =>
    obtain ⟨r, hr, hrow⟩ := Option.map_eq_some_iff.mp
      (Option.some.inj (congrArg Prod.fst (Option.some.inj hrun)))
    obtain ⟨hmem, rfl, rfl⟩ := owned_spec hr
    exact ⟨r, hmem, hx, hy, hrow.symm⟩
  · cases hrun

/-- An UPDATE that answered closed the row, if there is one. -/
theorem exec_update_closed {closed_at : DateTime} {text : String}
    (h : exec env t ch s (.sql (.update_closed closed_at text)) = some (some (), s')) :
    ∃ x, Uuid.UUID_TO_BIN text = some x ∧
      s'.accounts = s.accounts.map (AccountRow.closed_by x closed_at) := by
  have hrun := exec_answered h
  simp only [Sql.run] at hrun
  split at hrun
  · next x hx =>
    split at hrun
    · cases hrun
      exact ⟨x, hx, rfl⟩
    · cases hrun
  · cases hrun

end Kova.Account

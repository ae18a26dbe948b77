import Kova.Account.HandlerLaws
import Kova.Account.StoreLaws
import Kova.Conc.Performs

/-!
# A creation that fails

The opening of create.rs promises that the row is rolled back where the ledger's call or the
publication fails. The code deletes the row after the ledger's refusal alone, by a DELETE whose own
failure it ignores; the event's publication and the parsing of the caller's identifier return with
the row in place. So a creation that fails leaves nothing behind exactly when its INSERT had no
effect or a DELETE had one (`failed_creation_iff`). A row left behind has every later creation in the
currency refused as a duplicate (`left_account_refused`).
-/

set_option autoImplicit false

namespace Kova.Account

open Conc Ledger

/-- One step of a call of kova-account, with its choice. -/
abbrev AccountTaken := Taken Store Op Op.Res Choice

/-- What a program of kova-account executes by itself as call `t`, time passing and the ledger
moving. -/
abbrev Executes (env : Env) (t : Nat) {α : Type} (p : Async α) (s : Store)
    (steps : List AccountTaken) (p' : Async α) (s' : Store) : Prop :=
  Performs (machine env) t p s steps p' s'

variable {env : Env} {t : Nat} {ch : Choice} {s s' : Store} {user : AuthUser}
  {body_currency : String} {steps : List AccountTaken}

/-- The step is an INSERT of an account that takes effect, its reply possibly lost. -/
def InsertsAccount (env : Env) (y : AccountTaken) : Prop :=
  ∃ id user_id account_number currency row,
    y.op = .sql (.insert_account id user_id account_number currency) ∧ y.choice.fault ≠ .failed ∧
      inserted_row env id user_id account_number currency y.pre.now = some row ∧
        ∀ r ∈ y.pre.accounts, clashes env row r = false

/-- The step is a DELETE that takes effect. -/
def DeletesAccount (y : AccountTaken) : Prop :=
  ∃ id, y.op = .sql (.delete_account id) ∧ y.choice.fault ≠ .failed

/-- **A failed creation left nothing behind**: the accounts are as before, and where the call made
again is refused as a duplicate, a row of before is the reason. -/
structure Undone (env : Env) (user : AuthUser) (body_currency : String) (s s' : Store) : Prop where
  accounts : s'.accounts = s.accounts
  again : ∀ t steps p s'', Executes env t (create_account user body_currency) s' steps p s'' →
    p.finished = true → ∀ y ∈ steps, ∀ id user_id account_number currency,
      y.did = did (.insert_account id user_id account_number currency) (some .unique_violation) →
        ∃ row, inserted_row env id user_id account_number currency y.pre.now = some row ∧
          ∃ r ∈ s.accounts, clashes env row r = true

/-! ## The INSERT -/

/-- **What the INSERT of an account comes to**: it takes effect, or nothing changes. -/
theorem exec_insert_account {id user_id account_number currency : String} {r : Option InsertResult}
    (h : exec env t ch s (.sql (.insert_account id user_id account_number currency)) =
      some (r, s')) :
    (∃ row, inserted_row env id user_id account_number currency s.now = some row ∧
        (∀ r ∈ s.accounts, clashes env row r = false) ∧ ch.fault ≠ .failed ∧
          s' = { s with accounts := s.accounts ++ [row] } ∧ (r = some .inserted ∨ r = none)) ∨
      ((∀ row, inserted_row env id user_id account_number currency s.now = some row →
          (∀ r ∈ s.accounts, clashes env row r = false) → ch.fault = .failed) ∧
        s' = s ∧ (r = none ∨ r = some .unique_violation ∧ ∃ row,
          inserted_row env id user_id account_number currency s.now = some row ∧
            ∃ r ∈ s.accounts, clashes env row r = true)) := by
  rcases fault_effect h with ⟨hfault, rfl, rfl⟩ | ⟨hfault, r', hrun, hr⟩
  · exact .inr ⟨fun _ _ _ => hfault, rfl, .inl rfl⟩
  · simp only [Sql.run] at hrun
    split at hrun
    · next hnone =>
      cases hrun
      refine .inr ⟨?_, rfl, .inl (or_self_iff.mp hr)⟩
      intro row hrow
      rw [hnone] at hrow
      cases hrow
    · next row hrow =>
      split at hrun
      · next hclash =>
        cases hrun
        obtain ⟨r₀, hr₀, hsame⟩ := List.any_eq_true.mp hclash
        refine .inr ⟨?_, rfl, ?_⟩
        · intro row' hrow' hfresh
          obtain rfl := Option.some.inj (hrow.symm.trans hrow')
          rw [hfresh r₀ hr₀] at hsame
          cases hsame
        · exact hr.symm.imp (fun hr => hr) fun hr => ⟨hr, row, hrow, r₀, hr₀, hsame⟩
      · next hnew =>
        cases hrun
        refine .inl ⟨row, hrow, ?_, hfault, rfl, hr⟩
        intro r₀ hr₀
        exact Bool.eq_false_iff.mpr fun hclash => hnew (List.any_eq_true.mpr ⟨r₀, hr₀, hclash⟩)

/-! ## The steps of a creation -/

/-- What follows the INSERT. -/
def after_insert (user : AuthUser) (body_currency : String) (currency : Currency) (seq_num : Nat)
    (account_id : Uuid) : Option InsertResult → Async Response
  | none => fail .Database
  | some .unique_violation => fail .AccountAlreadyExists
  | some .inserted => opening user body_currency currency seq_num account_id

/-- What a supported currency's creation awaits first. -/
def inserting (user : AuthUser) (body_currency : String) (currency : Currency) : Async Response :=
  .await (.sql .insert_seq) fun
    | none => fail .Database
    | some seq_num => .await .now_v7 fun account_id =>
      .await (.sql (.insert_account account_id.to_string user.sub (account_number seq_num)
        currency.code)) (after_insert user body_currency currency seq_num account_id)

theorem create_account_eq (user : AuthUser) {currency : Currency}
    (h : parse_currency body_currency = .ret currency) :
    create_account user body_currency = inserting user body_currency currency := by
  simp only [create_account, h]
  refine congrArg (Prog.await _) (funext fun reply => ?_)
  cases reply with
  | none => rfl
  | some seq_num =>
    refine congrArg (Prog.await Op.now_v7) (funext fun account_id => ?_)
    refine congrArg (Prog.await _) (funext fun result => ?_)
    rcases result with _ | _ | _ <;> rfl

theorem drifts_accounts (h : (machine env).Drifts s s') : s'.accounts = s.accounts := by
  induction h with
  | refl => rfl
  | tail _ hmove ih =>
    obtain ⟨o, henv⟩ := hmove
    rw [← ih]
    exact outside_accounts henv

/-- **What a creation executes**: it ends before its INSERT, or it executes the INSERT and what
follows, on the accounts as they were. -/
theorem creation_steps {p : Async Response}
    (h : Executes env t (create_account user body_currency) s steps p s') (hp : p.finished = true) :
    ((∀ y ∈ steps, y.op = .sql .insert_seq) ∧ s'.accounts = s.accounts ∧
        (parse_currency body_currency = fail .UnsupportedCurrency ∨
          did .insert_seq none ∈ steps.map Taken.did)) ∨
      ∃ currency seq_num account_id y₁ y₂ ch s₂ r s₃ rest,
        parse_currency body_currency = .ret currency ∧ steps = y₁ :: y₂ ::
          ⟨ch, .sql (.insert_account account_id.to_string user.sub (account_number seq_num)
            currency.code), s₂, r, s₃⟩ :: rest ∧ y₁.op = .sql .insert_seq ∧ y₂.op = .now_v7 ∧
          s₂.accounts = s.accounts ∧
            exec env t ch s₂ (.sql (.insert_account account_id.to_string user.sub
              (account_number seq_num) currency.code)) = some (r, s₃) ∧
              Executes env t (after_insert user body_currency currency seq_num account_id r) s₃ rest
                p s' := by
  rcases parse_currency_cases body_currency with hcode | ⟨currency, hcode⟩
  · have hrefused : create_account user body_currency = fail .UnsupportedCurrency := by
      simp only [create_account, hcode]
      rfl
    rw [hrefused] at h
    obtain ⟨_, rfl, drift⟩ := h.ended rfl
    exact .inl ⟨by simp, drifts_accounts drift, .inl hcode⟩
  · rw [create_account_eq user hcode] at h
    obtain ⟨ch₁, s₀, reply, s₁, rest₁, rfl, drift₀, hseq, h⟩ := h.first hp
    have hseq : exec env t ch₁ s₀ (.sql .insert_seq) = some (reply, s₁) := hseq
    have seq_accounts : s₁.accounts = s₀.accounts := by
      have hchange := exec_accounts hseq
      generalize s₁.accounts = l at hchange
      cases hchange
      rfl
    cases reply with
    | none =>
      obtain ⟨_, rfl, drift⟩ := h.ended rfl
      refine .inl ⟨by simp, ?_, .inr List.mem_cons_self⟩
      rw [drifts_accounts drift, seq_accounts, drifts_accounts drift₀]
    | some seq_num =>
      obtain ⟨ch₂, s₁', account_id, s₂, rest₂, rfl, drift₁, hdrawn, h⟩ := h.first hp
      obtain ⟨ch₃, s₂', r, s₃, rest, rfl, drift₂, hinsert, h⟩ := h.first hp
      have hdrawn : exec env t ch₂ s₁' .now_v7 = some (account_id, s₂) := hdrawn
      have drawn_accounts := (exec_frame hdrawn).accounts nofun
      refine .inr ⟨currency, seq_num, account_id, _, _, ch₃, s₂', r, s₃, rest, hcode, rfl, rfl,
        rfl, ?_, hinsert, h⟩
      rw [drifts_accounts drift₂, drawn_accounts, drifts_accounts drift₁, seq_accounts,
        drifts_accounts drift₀]

/-! ## What follows the INSERT -/

/-- An operation that follows the INSERT of an account: of the statements, its DELETE alone. -/
def opens (account_id : Uuid) : Op → Prop
  | .sql (.delete_account id) => id = account_id.to_string
  | .sql _ | .ledger _ => False
  | _ => True

theorem opening_opens (user : AuthUser) (body_currency : String) (currency : Currency)
    (seq_num : Nat) (account_id : Uuid) :
    Guarded (fun _ op => opens account_id op) (fun _ _ => True)
      (opening user body_currency currency seq_num account_id) [] := by
  refine (opening_steps user body_currency currency seq_num account_id []).mono ?_
    fun _ _ _ => trivial
  intro h op step
  cases step with
  | withdraw => rfl
  | _ => trivial

/-- The account is there no more, and no other was touched. -/
def Without (account_id : Uuid) (s s' : Store) : Prop :=
  s'.accounts = s.accounts.filter (·.id != account_id)

/-- What a step that follows the INSERT does to the accounts. -/
theorem opens_accounts {op : Op} {r : op.Res} {account_id : Uuid} (hop : opens account_id op)
    (h : exec env t ch s op = some (r, s')) :
    (DeletesAccount ⟨ch, op, s, r, s'⟩ ∧ Without account_id s s') ∨
      (¬ DeletesAccount ⟨ch, op, s, r, s'⟩ ∧ s'.accounts = s.accounts) := by
  by_cases hsql : ∃ q, op = .sql q
  · obtain ⟨q, rfl⟩ := hsql
    cases q with
    | delete_account id =>
      obtain rfl : id = account_id.to_string := hop
      rcases fault_effect h with ⟨hfault, _, hsame⟩ | ⟨hfault, r', hrun, _⟩
      · refine .inr ⟨?_, congrArg Store.accounts hsame⟩
        rintro ⟨id, _, hfault'⟩
        exact hfault' hfault
      · refine .inl ⟨⟨_, rfl, hfault⟩, ?_⟩
        simp only [Sql.run, Uuid.UUID_TO_BIN_to_string] at hrun
        cases hrun
        rfl
    | _ => exact hop.elim
  · refine .inr ⟨?_, (exec_frame h).accounts fun q hq => hsql ⟨q, hq⟩⟩
    rintro ⟨id, hid, _⟩
    exact hsql ⟨_, hid⟩

/-- **What is executed after the INSERT** deletes the row, or leaves the accounts alone. -/
theorem executes_opens {α : Type} {p p' : Async α} {account_id : Uuid}
    (h : Executes env t p s steps p' s') (each : ∀ y ∈ steps, opens account_id y.op) :
    ((∃ y ∈ steps, DeletesAccount y) → Without account_id s s') ∧
      ((¬ ∃ y ∈ steps, DeletesAccount y) → s'.accounts = s.accounts) := by
  induction h with
  | rest drift =>
    refine ⟨?_, fun _ => drifts_accounts drift⟩
    rintro ⟨y, hy, _⟩
    cases hy
  | @next op next s s₀ s₁ s' ch r steps p drift hexec _ ih =>
    obtain ⟨gone, kept⟩ := ih fun y hy => each y (List.mem_cons_of_mem _ hy)
    unfold Without at gone ⊢
    rw [← drifts_accounts drift]
    rcases opens_accounts (each _ List.mem_cons_self) hexec with ⟨hdel, hfirst⟩ | ⟨hkeep, hfirst⟩
    · have hfirst : s₁.accounts = s₀.accounts.filter (·.id != account_id) := hfirst
      refine ⟨fun _ => ?_, fun hno => absurd ⟨_, List.mem_cons_self, hdel⟩ hno⟩
      by_cases hrest : ∃ y ∈ steps, DeletesAccount y
      · rw [gone hrest, hfirst, List.filter_filter]
        simp
      · rw [kept hrest, hfirst]
    · have hfirst : s₁.accounts = s₀.accounts := hfirst
      rw [← hfirst]
      refine ⟨?_, ?_⟩
      · rintro ⟨y, hy, hdel⟩
        rcases List.mem_cons.mp hy with rfl | hy
        · exact absurd hdel hkeep
        · exact gone ⟨y, hy, hdel⟩
      · intro hno
        refine kept ?_
        rintro ⟨y, hy, hdel⟩
        exact hno ⟨y, List.mem_cons_of_mem _ hy, hdel⟩

/-- Nothing but the DELETE follows an INSERT, however it was answered. -/
theorem after_insert_opens {p : Async Response} {currency : Currency} {seq_num : Nat}
    {account_id : Uuid} {r : Option InsertResult}
    (h : Executes env t (after_insert user body_currency currency seq_num account_id r) s steps p
      s') : ∀ y ∈ steps, opens account_id y.op := by
  have guarded : Guarded (fun _ op => opens account_id op) (fun _ _ => True)
      (after_insert user body_currency currency seq_num account_id r) [] := by
    rcases r with _ | _ | _
    · trivial
    · exact opening_opens user body_currency currency seq_num account_id
    · trivial
  intro y hy
  obtain ⟨_, hop⟩ := (h.guarded guarded).2 y hy
  exact hop

/-! ## A call that fails -/

/-- The call fails with its INSERT without effect, or with a DELETE that takes effect. -/
def LeavesNothing (env : Env) (steps : List AccountTaken) : Prop :=
  (∃ y ∈ steps, InsertsAccount env y) → ∃ y ∈ steps, DeletesAccount y

/-- A row is left for the user, in the currency. -/
def LeavesAccount (env : Env) (user : AuthUser) (body_currency : String) (s s' : Store) : Prop :=
  ∃ currency row, parse_currency body_currency = .ret currency ∧
    s'.accounts = s.accounts ++ [row] ∧ Uuid.UUID_TO_BIN user.sub = some row.user_id ∧
      Currency.named env.coll currency.code = some row.currency

/-- The user and the currency of the row that an INSERT stores. -/
theorem inserted_row_owner {id user_id account_number currency : String} {now : Int}
    {row : AccountRow} (h : inserted_row env id user_id account_number currency now = some row) :
    Uuid.UUID_TO_BIN user_id = some row.user_id ∧
      Currency.named env.coll currency = some row.currency := by
  simp only [inserted_row, Option.bind_eq_bind, Option.bind_eq_some_iff] at h
  obtain ⟨_, _, user, huser, _, _, code, hcode, h⟩ := h
  split at h
  · cases h
    exact ⟨huser, hcode⟩
  · cases h

/-- **What a failed call comes to**: it leaves nothing, or it leaves the row that it inserted. -/
theorem creation_comes_to {e : Failure}
    (h : Executes env t (create_account user body_currency) s steps (.raise e) s') :
    (LeavesNothing env steps ∧ s'.accounts = s.accounts) ∨
      (¬ LeavesNothing env steps ∧ LeavesAccount env user body_currency s s') := by
  rcases creation_steps h rfl with ⟨hseq, hsame, _⟩ |
    ⟨currency, seq_num, account_id, y₁, y₂, ch, s₂, r, s₃, rest, hcode, rfl, hy₁, hy₂, haccounts,
      hinsert, hrest⟩
  · refine .inl ⟨?_, hsame⟩
    rintro ⟨y, hy, _, _, _, _, _, hop, _⟩
    rw [hseq y hy] at hop
    cases hop
  · have opened := after_insert_opens hrest
    obtain ⟨gone, kept⟩ := executes_opens hrest opened
    -- No step but the third inserts, and none up to it deletes.
    have only : ∀ y, y ∈ y₁ :: y₂ :: ⟨ch, .sql (.insert_account account_id.to_string user.sub
        (account_number seq_num) currency.code), s₂, r, s₃⟩ :: rest → DeletesAccount y →
          y ∈ rest := by
      rintro y hy ⟨id, hop, _⟩
      simp only [List.mem_cons] at hy
      rcases hy with rfl | rfl | rfl | hy
      · rw [hy₁] at hop
        cases hop
      · rw [hy₂] at hop
        cases hop
      · cases hop
      · exact hy
    rcases exec_insert_account hinsert with ⟨row, hrow, hfresh, hfault, rfl, _⟩ | ⟨hno, rfl, hr⟩
    · have inserts : InsertsAccount env ⟨ch, .sql (.insert_account account_id.to_string user.sub
          (account_number seq_num) currency.code), s₂, r, { s₂ with accounts := s₂.accounts ++
            [row] }⟩ := ⟨_, _, _, _, row, rfl, hfault, hrow, hfresh⟩
      by_cases hdel : ∃ y ∈ rest, DeletesAccount y
      · refine .inl ⟨fun _ => ?_, ?_⟩
        · obtain ⟨y, hy, hdel⟩ := hdel
          exact ⟨y, List.mem_cons_of_mem _ (List.mem_cons_of_mem _ (List.mem_cons_of_mem _ hy)),
            hdel⟩
        · have hid : row.id = account_id := by
            have hparsed := (inserted_row_spec hrow).1
            rw [Uuid.UUID_TO_BIN_to_string, Option.some.injEq] at hparsed
            exact hparsed.symm
          have others : s₂.accounts.filter (·.id != account_id) = s₂.accounts := by
            refine List.filter_eq_self.mpr fun r₀ hr₀ => bne_iff_ne.mpr fun heq => ?_
            have hclash := hfresh r₀ hr₀
            simp [clashes, hid, heq] at hclash
          rw [gone hdel, List.filter_append, others, haccounts]
          simp [hid]
      · refine .inr ⟨?_, currency, row, hcode, ?_, inserted_row_owner hrow⟩
        · intro hleaves
          obtain ⟨y, hy, hdel'⟩ := hleaves ⟨_, by simp, inserts⟩
          exact hdel ⟨y, only y hy hdel', hdel'⟩
        · rw [kept hdel, haccounts]
    · have hend : (after_insert user body_currency currency seq_num account_id r).finished =
          true := by
        rcases hr with rfl | ⟨rfl, _⟩ <;> rfl
      obtain ⟨_, rfl, drift⟩ := hrest.ended hend
      refine .inl ⟨?_, (drifts_accounts drift).trans haccounts⟩
      rintro ⟨y, hy, _, _, _, _, row, hop, hfault, hrow, hfresh⟩
      simp only [List.mem_cons, List.not_mem_nil, or_false] at hy
      rcases hy with rfl | rfl | rfl
      · rw [hy₁] at hop
        cases hop
      · rw [hy₂] at hop
        cases hop
      · cases hop
        exact absurd (hno row hrow hfresh) hfault

/-- **Where a row was left, the user has no account in the currency to create**: the call made again
is refused as a duplicate. -/
theorem left_account_refused {s₀ : Store} {p : Async Response}
    (left : LeavesAccount env user body_currency s₀ s)
    (h : Executes env t (create_account user body_currency) s steps p s') (hp : p.finished = true)
    (answered : ∀ q, did q none ∉ steps.map Taken.did) :
    p = fail .AccountAlreadyExists ∧ s'.accounts = s.accounts := by
  obtain ⟨currency, row, hcode, haccounts, huser, hcurrency⟩ := left
  rcases creation_steps h hp with ⟨_, _, hnone⟩ |
    ⟨currency', seq_num, account_id, y₁, y₂, ch, s₂, r, s₃, rest, hcode', rfl, _, _, hthere,
      hinsert, hrest⟩
  · rcases hnone with hfail | hnone
    · rw [hfail] at hcode
      cases hcode
    · exact absurd hnone (answered _)
  · obtain rfl : currency = currency' := by
      rw [hcode] at hcode'
      cases hcode'
      rfl
    rcases exec_insert_account hinsert with ⟨row', hrow', hfresh, _⟩ | ⟨_, rfl, rfl | ⟨rfl, _⟩⟩
    · obtain ⟨huser', hcurrency'⟩ := inserted_row_owner hrow'
      have hclash := hfresh row (by simp [hthere, haccounts])
      have heq : row'.user_id = row.user_id := Option.some.inj (huser'.symm.trans huser)
      have heq' : row'.currency = row.currency := Option.some.inj (hcurrency'.symm.trans hcurrency)
      simp [clashes, heq, heq'] at hclash
    · exact absurd (List.mem_cons_of_mem _ (List.mem_cons_of_mem _ List.mem_cons_self)) (answered _)
    · obtain ⟨rfl, _, drift⟩ := hrest.ended rfl
      exact ⟨rfl, (drifts_accounts drift).trans hthere⟩

/-- **A failed creation leaves nothing behind exactly when its INSERT had no effect or a DELETE had
one.** -/
theorem failed_creation_iff (env : Env) (t : Nat) (s : Store) (user : AuthUser)
    (body_currency : String) (steps : List AccountTaken) (e : Failure) (s' : Store)
    (call : Executes env t (create_account user body_currency) s steps (.raise e) s') :
    Undone env user body_currency s s' ↔ LeavesNothing env steps := by
  rcases creation_comes_to call with ⟨hnothing, hsame⟩ | ⟨hleft, currency, row, _, hadded, _⟩
  · refine ⟨fun _ => hnothing, fun _ => ⟨hsame, ?_⟩⟩
    intro t' steps' p s'' retry hp y hy id user_id number code hdid
    have hop : y.op = .sql (.insert_account id user_id number code) := congrArg Done.op hdid
    rcases creation_steps retry hp with ⟨hseq, _⟩ |
      ⟨currency, seq_num, account_id, y₁, y₂, ch, s₂, r, s₃, rest, _, rfl, hy₁, hy₂, hthere,
        hinsert, hrest⟩
    · rw [hseq y hy] at hop
      cases hop
    · rcases List.mem_cons.mp hy with rfl | hy
      · rw [hy₁] at hop
        cases hop
      · rcases List.mem_cons.mp hy with rfl | hy
        · rw [hy₂] at hop
          cases hop
        · rcases List.mem_cons.mp hy with rfl | hy
          · cases hdid
            rcases exec_insert_account hinsert with ⟨_, _, _, _, _, hr | hr⟩ |
              ⟨_, _, hr | ⟨_, row, hrow, r₀, hr₀, hclash⟩⟩
            · cases hr
            · cases hr
            · cases hr
            · exact ⟨row, hrow, r₀, hsame ▸ hthere ▸ hr₀, hclash⟩
          · have opened := after_insert_opens hrest y hy
            rw [hop] at opened
            exact opened.elim
  · refine ⟨fun undone => ?_, fun hnothing => absurd hnothing hleft⟩
    have hlen := congrArg List.length (hadded.symm.trans undone.accounts)
    simp at hlen

/-! ## The ledger's refusal, and the publisher's -/

/-- The sample's user. -/
def sample_user : AuthUser := ⟨(Uuid.low 1).to_string, (Uuid.low 4).to_string⟩

/-- The sample's accounts, with the number of the one there is drawn. -/
def sample_store : Store := { sample_start.world.store with account_number_seq := 1 }

/-- A creation of an account in pounds, executed with these choices. -/
def creation_performed (choices : List Choice) :
    Option (List AccountTaken × Async Response × Store) :=
  (machine sample).perform 0 choices (create_account sample_user "GBP") sample_store

/-- The creation fails, and a test of its steps and of the store it leaves. -/
theorem creation_fails (e : AccountError) (choices : List Choice)
    (P : List AccountTaken → Store → Bool)
    (h : (creation_performed choices).any (fun (steps, p, s') =>
      decide (p.result? = some (.error (.error e))) && P steps s') = true) :
    ∃ steps s', Executes sample 0 (create_account sample_user "GBP") sample_store steps
      (.raise (.error e)) s' ∧ P steps s' = true := by
  obtain ⟨⟨steps, p, s'⟩, hperform, htest⟩ := (Option.any_eq_true _ _).mp h
  obtain ⟨hres, hP⟩ := Bool.and_eq_true_iff.mp htest
  obtain rfl := Prog.raised_of_result? (of_decide_eq_true hres)
  exact ⟨steps, s', performs_of_perform hperform, hP⟩

/-- A DELETE takes effect. -/
def deletes (y : AccountTaken) : Bool :=
  match y.op with
  | .sql (.delete_account _) => y.choice.fault ≠ .failed
  | _ => false

theorem deletes_account {y : AccountTaken} (h : deletes y = true) : DeletesAccount y := by
  obtain ⟨ch, op, s, r, s'⟩ := y
  cases op with
  | sql q =>
    cases q with
    | delete_account id => exact ⟨id, rfl, of_decide_eq_true h⟩
    | _ => cases h
  | _ => cases h

/-- The equivalence where the ledger refuses and the row is deleted. -/
theorem failed_creation_ledger : ∃ s',
    Undone sample sample_user "GBP" sample_store s' := by
  obtain ⟨steps, s', call, hdel⟩ := creation_fails (.LedgerClient "unavailable")
    ({} :: { uuid := .low 9 } :: {} :: { opening := .error (.LedgerClient "unavailable") } :: [{}])
    (fun steps _ => steps.any deletes) (by decide +kernel)
  refine ⟨s', (failed_creation_iff sample 0 _ sample_user "GBP" steps _ s' call).mpr fun _ => ?_⟩
  obtain ⟨y, hy, hdel⟩ := List.any_eq_true.mp hdel
  exact ⟨y, hy, deletes_account hdel⟩

/-- The publication fails, and the row stays. -/
theorem failed_publication_leaves_row :
    ¬ ∀ (env : Env) (t : Nat) (s : Store) (user : AuthUser) (body_currency : String)
        (steps : List AccountTaken) (e : Failure) (s' : Store),
      Executes env t (create_account user body_currency) s steps (.raise e) s' →
        Undone env user body_currency s s' := by
  intro claim
  obtain ⟨steps, s', call, hchanged⟩ := creation_fails (.EventPublish "unavailable")
    ({} :: { uuid := .low 9 } :: {} :: {} :: { uuid := .low 10 } :: {} ::
      [{ published := .error (.EventPublish "unavailable") }])
    (fun _ s' => decide (s'.accounts ≠ sample_store.accounts)) (by decide +kernel)
  have undone := claim sample 0 _ sample_user "GBP" steps _ s' call
  exact of_decide_eq_true hchanged undone.accounts

end Kova.Account

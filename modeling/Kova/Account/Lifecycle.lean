import Kova.Account.AccountNumbers
import Kova.Account.RunLaws

/-!
# The life of an account

An account's row over a whole run of kova-account, whatever the calls are and however they
interleave.

- `account_lifecycle`: from any moment of a run to any later one a row stays the same account, its
  status moving along `transition` of state_machine.rs alone; or it was pending and is gone by the
  compensation of the very creation that generated its identifier, which the ledger had refused.
- `created_once`: a creation that answered with an account has left its row for good, and no other
  call ever creates an account for the same user in the same currency.
-/

set_option autoImplicit false

namespace Kova.Account

open Conc Ledger

variable {env : Env} {table : Table env} {clock : Nat} {ls ms : List AccountLabel}
  {c d : AccountConf}

/-! ## What a creation has done -/

/-- The ledger refused the account's opening entry. -/
def Refused (h : List AccountDone) (x : Uuid) : Prop :=
  ∃ currency e, (⟨.create_opening_entry x currency, .error e⟩ : AccountDone) ∈ h

/-- An account is inserted once, and deleted after the ledger refused it. -/
def opens_once (h : List AccountDone) : Op → Prop
  | .sql (.insert_account ..) => ∀ x ∈ h, ∀ id user_id number currency,
      x.op ≠ .sql (.insert_account id user_id number currency)
  | .sql (.delete_account id) => ∃ x : Uuid, id = x.to_string ∧ (⟨.now_v7, x⟩ : AccountDone) ∈ h ∧
      Refused h x ∧ ∃ user_id number currency,
        did (.insert_account id user_id number currency) (some .inserted) ∈ h
  | _ => True

/-- What a creation that answered with an account has done: its INSERT was answered, it deleted
nothing, and its event was published. -/
structure Opened (h : List AccountDone) (view : AccountView) (x kova_user_id : Uuid)
    (currency : Currency) : Prop where
  generated : (⟨.now_v7, x⟩ : AccountDone) ∈ h
  inserted : did (.insert_account x.to_string view.user_id view.account_number currency.code)
    (some .inserted) ∈ h
  accepted : ∀ y ∈ h, ∀ id, y.op ≠ .sql (.delete_account id)
  account_id : view.account_id = x.to_string
  user_id : Uuid.parse_str view.user_id = some kova_user_id
  supported : parse_currency view.currency = .ret currency
  status : view.status = "PendingKYC"
  event : ∃ event, (⟨.publish_json TOPIC_ACCOUNT_CREATED view.account_id (.created event), .ok ()⟩ :
    AccountDone) ∈ h ∧ event.account_id = x ∧ event.user_id = kova_user_id ∧
      event.currency = currency ∧ event.account_number = view.account_number

/-- What a creation's answer says of its history. -/
def AnswersOpened (h : List AccountDone) (r : Except Failure Response) : Prop :=
  ∀ view, r = .ok (.created view) → ∃ x kova_user_id currency, Opened h view x kova_user_id currency

theorem opens_failed (h : List AccountDone) (e : Failure) : AnswersOpened h (.error e) := by
  rintro view ⟨⟩

section Steps

variable {user : AuthUser} {body_currency : String} {now : DateTime} {h : List AccountDone}
  {op : Op} {r : Except Failure Response}

theorem CreationStep.opens_once (step : CreationStep user body_currency now h op) :
    opens_once h op := by
  cases step with
  | draw | name => trivial
  | insert code =>
    intro x hx id user_id number currency hop
    simp only [List.mem_cons, List.not_mem_nil, or_false] at hx
    rcases hx with rfl | rfl | rfl <;> cases hop
  | @opening currency seq_num account_id _ _ code step =>
    cases step with
    | @withdraw e =>
      exact ⟨account_id, rfl, by simp [inserted], ⟨currency, e, by simp⟩, user.sub,
        account_number seq_num, currency.code, by simp [inserted, did]⟩
    | _ => trivial

theorem CreationEnd.opened (ends : CreationEnd user body_currency now h r) : AnswersOpened h r := by
  cases ends with
  | failed => exact opens_failed _ _
  | @opening currency _ account_id _ _ code ends =>
    cases ends with
    | failed => exact opens_failed _ _
    | @opened kova_user_id _ _ owner =>
      rintro view ⟨⟩
      refine ⟨account_id, kova_user_id, currency, by simp [inserted], by simp [inserted, did], ?_,
        rfl, owner, code, rfl, _, List.mem_append_right _ List.mem_cons_self, rfl, rfl, rfl, rfl⟩
      intro y hy id hop
      simp only [inserted, List.mem_append, List.mem_cons, List.not_mem_nil, or_false] at hy
      rcases hy with ((((rfl | rfl | rfl | rfl) | rfl) | rfl) | rfl) | rfl <;> cases hop

end Steps

/-- What a request's answer says: a creation's alone says anything. -/
def AnswersRequest : Request → List AccountDone → Except Failure Response → Prop
  | .create_account .., h, r => AnswersOpened h r
  | _, _, _ => True

/-- Of the requests only a creation inserts or deletes an account. -/
theorem serve_opens (env : Env) (req : Request) :
    Guarded opens_once (AnswersRequest req) (serve env req) [] := by
  refine (serve_steps env req).mono ?_ ?_
  · intro h op step
    cases step with
    | create _ step => exact step.opens_once
    | balance _ step | statement _ step | close _ step => cases step <;> trivial
    | extract | list | get | ledger => trivial
  · intro h r ends
    cases ends with
    | rejected =>
      cases req with
      | create_account => exact opens_failed _ _
      | _ => trivial
    | create _ ends => exact ends.opened
    | unlisted | listed | get | balance | statement | close | ledger => trivial

/-! ## Identifiers -/

theorem minted_follows (env : Env) : Follows (machine env) fun s s' => s.minted ⊆ s'.minted where
  refl _ := List.Subset.refl _
  trans h h' := List.Subset.trans h h'
  exec := exec_minted
  env := by
    intro o s s' h
    rcases outside_cases h with ⟨_, _, rfl⟩ | ⟨_, _, _, _, rfl⟩
    · exact List.Subset.refl _
    · exact List.Subset.refl _

/-- An identifier is generated once. -/
theorem generated_once {s : Store} (h : AccountRun env (.init s) ls d) {a b : AccountEvent}
    (ha : a ∈ d.world.log) (hb : b ∈ d.world.log) {x : Uuid} (hda : a.did = ⟨.now_v7, x⟩)
    (hdb : b.did = ⟨.now_v7, x⟩) : a = b := by
  have apart : ∀ {y z : AccountEvent}, y.did = ⟨.now_v7, x⟩ → z.did = ⟨.now_v7, x⟩ →
      ¬ Precedes d.world.log y z := by
    intro y z hy hz hyz
    obtain ⟨_, ch, _, hfirst⟩ := h.did hyz.left hy
    obtain ⟨_, ch', _, hsecond⟩ := h.did hyz.right hz
    have hfirst : exec env y.tid ch y.pre .now_v7 = some (x, y.post) := hfirst
    have hsecond : exec env z.tid ch' z.pre .now_v7 = some (x, z.post) := hsecond
    have hpost := (exec_now_v7 hfirst).2
    have kept : y.post.minted ⊆ z.pre.minted := h.between (minted_follows env) hyz
    have hfresh := (exec_now_v7 hsecond).1
    exact hfresh (kept (hpost ▸ List.mem_cons_self))
  rcases precedes_total ha hb with hsame | hab | hba
  · exact hsame
  · exact absurd hab (apart hda hdb)
  · exact absurd hba (apart hdb hda)

/-- So one call has it. -/
theorem generated_by_one {s : Store} (h : AccountRun env (.init s) ls d) {t t' : Nat} {x : Uuid}
    (ht : (⟨.now_v7, x⟩ : AccountDone) ∈ history t d.world.log)
    (ht' : (⟨.now_v7, x⟩ : AccountDone) ∈ history t' d.world.log) : t = t' := by
  obtain ⟨a, ha, rfl, hda⟩ := mem_history.mp ht
  obtain ⟨b, hb, rfl, hdb⟩ := mem_history.mp ht'
  rw [generated_once h ha hb hda hdb]

/-- The event inserts an account under the identifier. -/
def InsertsAs (x : Uuid) (e : AccountEvent) : Prop :=
  ∃ user_id number currency, e.op = .sql (.insert_account x.to_string user_id number currency)

/-- What is inserted was generated by the call, which inserts nothing else. -/
theorem InsertsAs.generated {s : Store} (h : AccountRun env (.init s) ls d)
    {before after : List AccountEvent} {e : AccountEvent}
    (split : d.world.log = before ++ e :: after) {x : Uuid} (hins : InsertsAs x e) :
    (⟨.now_v7, x⟩ : AccountDone) ∈ history e.tid before := by
  obtain ⟨user_id, number, currency, hop⟩ := hins
  have hguard := h.guard (serve_guarded env) split
  rw [hop] at hguard
  obtain ⟨y, hnow, hid⟩ := hguard
  rwa [Uuid.to_string_injective hid]

/-- An identifier is inserted once. -/
theorem inserted_once {s : Store} (h : AccountRun env (.init s) ls d) {a b : AccountEvent}
    (hab : Precedes d.world.log a b) {x : Uuid} (ha : InsertsAs x a) : ¬ InsertsAs x b := by
  intro hb
  obtain ⟨before, after, split, hmem⟩ := hab
  obtain ⟨before', after', rfl⟩ := List.append_of_mem hmem
  have split' : d.world.log = before' ++ a :: (after' ++ b :: after) := by simp [split]
  have hsame : a.tid = b.tid :=
    generated_by_one h ((history_grows ⟨_, split'.symm⟩).subset (ha.generated h split'))
      ((history_grows ⟨_, split.symm⟩).subset (hb.generated h split))
  obtain ⟨user_id, number, currency, hop⟩ := ha
  obtain ⟨user_id', number', currency', hop'⟩ := hb
  have hguard := h.guard (serve_opens env) split
  rw [hop'] at hguard
  exact hguard a.did (mem_history.mpr ⟨a, hmem, hsame, rfl⟩) _ _ _ _ hop

/-! ## The life of a row -/

/-- One move of state_machine.rs. -/
def Moves (s s' : AccountStatus) : Prop := transition s s' = .ok s'

/-- Nothing moves to the status that an account begins with. -/
theorem not_moves_to_pending (s : AccountStatus) : ¬ Moves s .PendingKYC := by
  cases s <;> exact nofun

theorem moves_to_closed {s : AccountStatus} (h : s ≠ .PendingKYC) :
    Relation.ReflTransGen Moves s .Closed := by
  cases s with
  | PendingKYC => exact absurd rfl h
  | Closed => exact .refl
  | Active => exact .single rfl
  | Frozen => exact .single rfl

theorem AccountRow.Becomes.user_id_eq {r r' : AccountRow} (h : r.Becomes r') :
    r'.user_id = r.user_id := by
  cases h <;> rfl

/-- The row is the same account, its status moved by the state machine. -/
structure Continues (r r' : AccountRow) : Prop where
  becomes : r.Becomes r'
  moved : Relation.ReflTransGen Moves r.status r'.status

theorem Continues.refl (r : AccountRow) : Continues r r := ⟨.same, .refl⟩

theorem Continues.trans {r r' r'' : AccountRow} (h : Continues r r') (h' : Continues r' r'') :
    Continues r r'' := ⟨h.becomes.trans h'.becomes, h.moved.trans h'.moved⟩

theorem Continues.pending {r r' : AccountRow} (h : Continues r r') (hr : r'.status = .PendingKYC) :
    r.status = .PendingKYC := by
  rcases h.moved.cases_tail with hsame | ⟨s, _, hlast⟩
  · exact hsame.symm.trans hr
  · rw [hr] at hlast
    exact absurd hlast (not_moves_to_pending s)

/-- The event takes the row out of the table. -/
def Removes (e : AccountEvent) (r : AccountRow) : Prop :=
  e.op = .sql (.delete_account r.id.to_string) ∧ ∀ r' ∈ e.post.accounts, r'.id ≠ r.id

/-- The row was withdrawn: the call that had generated its identifier deleted it, after the ledger
had refused its opening entry. -/
structure Withdrawn (log : List AccountEvent) (r : AccountRow) : Prop where
  pending : r.status = .PendingKYC
  removed : ∃ e ∈ log, Removes e r ∧ (⟨.now_v7, r.id⟩ : AccountDone) ∈ history e.tid log ∧
    Refused (history e.tid log) r.id

section Run

/-- **One event** leaves a row the same account, or takes it out. -/
theorem event_continues (h : AccountRun env (start table clock) ls d) {e : AccountEvent}
    (he : e ∈ d.world.log) {r : AccountRow} (hr : r ∈ e.pre.accounts) :
    (∃ r' ∈ e.post.accounts, Continues r r') ∨ (r.status = .PendingKYC ∧ Removes e r) := by
  obtain ⟨_, _, _, hexec⟩ := h.executed he
  have hchange := exec_accounts hexec
  unfold Removes
  generalize hop : e.op = op at hchange
  generalize e.post.accounts = l at hchange
  cases hchange with
  | same => exact .inl ⟨r, hr, .refl r⟩
  | inserted => exact .inl ⟨r, List.mem_append_left _ hr, .refl r⟩
  | @deleted text x parsed =>
    by_cases hid : r.id = x
    · subst hid
      obtain ⟨before, after, split⟩ := List.append_of_mem he
      have hguard := h.guard (serve_guarded env) split
      rw [hop] at hguard
      obtain ⟨y, _, rfl⟩ := hguard
      have hpending := deletes_pending h he hop hr parsed
      rw [Uuid.UUID_TO_BIN_to_string, Option.some.injEq] at parsed
      refine .inr ⟨hpending, by rw [parsed], ?_⟩
      intro r' hr'
      exact bne_iff_ne.mp (List.mem_filter.mp hr').2
    · exact .inl ⟨r, List.mem_filter.mpr ⟨hr, bne_iff_ne.mpr hid⟩, .refl r⟩
  | @closed closed_at text x parsed =>
    refine .inl ⟨r.closed_by x closed_at, List.mem_map_of_mem hr, ?_⟩
    unfold AccountRow.closed_by
    split
    · next hid =>
      obtain ⟨before, after, split⟩ := List.append_of_mem he
      obtain ⟨r₀, hr₀, hid₀, hopen⟩ := read_row h split (closing_read h split hop) parsed
      obtain rfl := (event_valid h he).eq_of_id hr hr₀ (hid.trans hid₀.symm)
      exact ⟨.closed closed_at, moves_to_closed hopen⟩
    · exact .refl r

/-- A row that is taken out is withdrawn. -/
theorem removed_withdrawn (h : AccountRun env (start table clock) ls d) {e : AccountEvent}
    (he : e ∈ d.world.log) {r : AccountRow} (hpending : r.status = .PendingKYC)
    (removes : Removes e r) : Withdrawn d.world.log r := by
  obtain ⟨before, after, split⟩ := List.append_of_mem he
  have hguard := h.guard (serve_opens env) split
  rw [removes.1] at hguard
  obtain ⟨x, hid, hgenerated, ⟨currency, failure, hrefused⟩, _⟩ := hguard
  obtain rfl := Uuid.to_string_injective hid
  have grown := history_grows (t := e.tid) ⟨e :: after, split.symm⟩
  exact ⟨hpending, e, he, removes, grown.subset hgenerated, currency, failure,
    grown.subset hrefused⟩

/-- What a stretch of the run leaves of the rows. -/
def Lives (log : List AccountEvent) (s s' : Store) : Prop :=
  ∀ r ∈ s.accounts, (∃ r' ∈ s'.accounts, Continues r r') ∨ Withdrawn log r

theorem Withdrawn.of_continues {log : List AccountEvent} {r r' : AccountRow}
    (h : Withdrawn log r') (hr : Continues r r') : Withdrawn log r := by
  obtain ⟨hpending, e, he, removes⟩ := h
  unfold Removes at removes
  rw [hr.becomes.id_eq] at removes
  exact ⟨hr.pending hpending, e, he, removes⟩

theorem Lives.trans {log : List AccountEvent} {s s' s'' : Store} (h : Lives log s s')
    (h' : Lives log s' s'') : Lives log s s'' := by
  intro r hr
  rcases h r hr with ⟨r', hr', hcont⟩ | hgone
  · rcases h' r' hr' with ⟨r'', hr'', hcont'⟩ | hgone
    · exact .inl ⟨r'', hr'', hcont.trans hcont'⟩
    · exact .inr (hgone.of_continues hcont)
  · exact .inr hgone

theorem event_lives (h : AccountRun env (start table clock) ls d) {e : AccountEvent}
    (he : e ∈ d.world.log) : Lives d.world.log e.pre e.post := by
  intro r hr
  rcases event_continues h he hr with hstay | ⟨hpending, removes⟩
  · exact .inl hstay
  · exact .inr (removed_withdrawn h he hpending removes)

theorem outside_lives {log : List AccountEvent} {o : Outside} {s s' : Store}
    (henv : outside o s = some s') : Lives log s s' :=
  fun r hr => .inl ⟨r, outside_accounts henv ▸ hr, .refl r⟩

theorem Lives.refl (log : List AccountEvent) (s : Store) : Lives log s s :=
  fun r hr => .inl ⟨r, hr, .refl r⟩

/-- From any moment of a run to any later one. -/
theorem run_lives (hc : AccountRun env (start table clock) ls c) (hd : AccountRun env c ms d) :
    Lives d.world.log c.world.store d.world.store := by
  exact hd.along_from (Lives.refl _) Lives.trans outside_lives fun e he =>
    event_lives (hc.append hd) he

/-- What does not insert an identifier brings no row with it. -/
theorem absent_kept (h : AccountRun env (start table clock) ls d) {e : AccountEvent}
    (he : e ∈ d.world.log) {x : Uuid} (hno : ¬ InsertsAs x e)
    (absent : ∀ r ∈ e.pre.accounts, r.id ≠ x) : ∀ r ∈ e.post.accounts, r.id ≠ x := by
  obtain ⟨before, after, split⟩ := List.append_of_mem he
  have hguard := h.guard (serve_guarded env) split
  obtain ⟨_, _, _, hexec⟩ := h.executed he
  have hchange := exec_accounts hexec
  intro r hr
  unfold InsertsAs at hno
  generalize e.op = op at hchange hguard hno
  generalize e.post.accounts = l at hchange hr
  cases hchange with
  | same => exact absent r hr
  | @inserted id user_id number currency row values =>
    rcases List.mem_append.mp hr with hr | hr
    · exact absent r hr
    · obtain rfl := List.mem_singleton.mp hr
      obtain ⟨y, _, rfl⟩ := hguard
      have hid := (inserted_row_spec values).1
      rw [Uuid.UUID_TO_BIN_to_string, Option.some.injEq] at hid
      rintro rfl
      exact hno ⟨user_id, number, currency, by rw [hid]⟩
  | deleted => exact absent r (List.mem_of_mem_filter hr)
  | closed =>
    obtain ⟨r₀, hr₀, rfl⟩ := List.mem_map.mp hr
    rw [AccountRow.closed_by_id]
    exact absent r₀ hr₀

/-- A row that was taken out is gone for good: its identifier is inserted no second time. -/
theorem Withdrawn.gone (h : AccountRun env (start table clock) ls d) {r : AccountRow}
    (hgone : Withdrawn d.world.log r) : ∀ r' ∈ d.world.store.accounts, r'.id ≠ r.id := by
  obtain ⟨_, e, he, ⟨hop, absent⟩, _⟩ := hgone
  obtain ⟨before, after, split⟩ := List.append_of_mem he
  have hguard := h.guard (serve_opens env) split
  rw [hop] at hguard
  obtain ⟨x, hid, _, _, user_id, number, currency, hins⟩ := hguard
  obtain ⟨a, ha, _, hdid, hprec⟩ := event_of_history after e hins
  have first : InsertsAs r.id a := ⟨user_id, number, currency, congrArg Done.op hdid⟩
  rw [← split] at hprec
  let R (s s' : Store) : Prop :=
    (∀ r' ∈ s.accounts, r'.id ≠ r.id) → ∀ r' ∈ s'.accounts, r'.id ≠ r.id
  have trans : ∀ {s₁ s₂ s₃}, R s₁ s₂ → R s₂ s₃ → R s₁ s₃ := fun hfirst hrest habsent =>
    hrest (hfirst habsent)
  refine h.along_after (R := R) (fun _ habsent => habsent) trans ?_ split ?_ absent
  · intro o s s' henv habsent
    rw [outside_accounts henv]
    exact habsent
  · intro b hb
    have hb' : b ∈ d.world.log := split ▸ List.mem_append_right _ (List.mem_cons_of_mem _ hb)
    obtain ⟨mid, last, rfl⟩ := List.append_of_mem hb
    have hab : Precedes d.world.log a b :=
      ⟨before ++ e :: mid, last, by simp [split], List.mem_append_left _ ha⟩
    exact absent_kept h hb' (inserted_once h hab first)

/-- **The life of an account**: from any moment of a run to any later one its row stays the same
account, the status moving along the state machine; or the creation that generated its identifier
has withdrawn it, and no row ever has the identifier again. -/
theorem account_lifecycle (env : Env) (table : Table env) (clock : Nat) (ls : List AccountLabel)
    (c : AccountConf) (ms : List AccountLabel) (d : AccountConf)
    (run : AccountRun env (start table clock) ls c) (later : AccountRun env c ms d) :
    ∀ r ∈ c.world.store.accounts, (∃ r' ∈ d.world.store.accounts, Continues r r') ∨
      (Withdrawn d.world.log r ∧ ∀ r' ∈ d.world.store.accounts, r'.id ≠ r.id) := by
  intro r hr
  rcases run_lives run later r hr with hstay | hgone
  · exact .inl hstay
  · exact .inr ⟨hgone, hgone.gone (run.append later)⟩

end Run

/-! ### A refused creation -/

/-- Two creations in pounds: the first draws the number that there is and is refused as a duplicate,
the second has inserted its row. -/
def half_created : List AccountLabel :=
  [.spawn (.create_account sample_bearer "GBP"), .run 0 {}, .run 0 {}, .run 0 { uuid := .low 8 },
    .run 0 {}, .spawn (.create_account sample_bearer "GBP"), .run 1 {}, .run 1 {},
    .run 1 { uuid := .low 9 }, .run 1 {}]

/-- The ledger refuses, and the row is deleted. -/
def refusal : List AccountLabel :=
  [.run 1 { opening := .error (.LedgerClient "unavailable") }, .run 1 {}]

/-- The row of a refused creation is withdrawn, and the other account continues. -/
theorem refused_lifecycle : ∃ c d : AccountConf,
    c.world.store.accounts.map (·.status) = [.Active, .PendingKYC] ∧
      d.world.store.accounts = [sample_account] ∧
        ∀ r ∈ c.world.store.accounts, (∃ r' ∈ d.world.store.accounts, Continues r r') ∨
          (Withdrawn d.world.log r ∧ ∀ r' ∈ d.world.store.accounts, r'.id ≠ r.id) := by
  obtain ⟨run, statuses⟩ := replayed_spec (machine sample) (serve sample) sample_start half_created
    (fun c => c.world.store.accounts.map (·.status) = [.Active, .PendingKYC]) (by decide +kernel)
  obtain ⟨later, rows⟩ := replayed_spec (machine sample) (serve sample)
    (replayed (machine sample) (serve sample) sample_start half_created) refusal
    (fun d => d.world.store.accounts = [sample_account]) (by decide +kernel)
  exact ⟨_, _, of_decide_eq_true statuses, of_decide_eq_true rows,
    account_lifecycle sample sample_table _ _ _ _ _ run later⟩

/-! ## One account for a user in a currency -/

/-- The columns of the unique key on the user and the currency. -/
def AccountRow.holder (r : AccountRow) : Uuid × Currency := (r.user_id, r.currency)

theorem clashes_of_holder {r r' : AccountRow} (h : r.holder = r'.holder) :
    clashes env r r' = true := by
  obtain ⟨huser, hcurrency⟩ := Prod.mk.inj h
  simp [clashes, huser, hcurrency]

theorem AccountRow.closed_by_holder (x : Uuid) (closed_at : DateTime) (r : AccountRow) :
    (r.closed_by x closed_at).holder = r.holder := by
  unfold closed_by
  split <;> rfl

/-- The key is kept by every operation. -/
theorem AccountsChange.holders {s : Store} {op : Op} {l : List AccountRow}
    (h : AccountsChange env s op l) (hs : (s.accounts.map AccountRow.holder).Nodup) :
    (l.map AccountRow.holder).Nodup := by
  cases h with
  | same => exact hs
  | @inserted _ _ _ _ row values fresh =>
    rw [List.map_append, List.nodup_append]
    refine ⟨hs, by simp, ?_⟩
    intro x hx y hy hxy
    obtain ⟨r, hr, rfl⟩ := List.mem_map.mp hx
    obtain rfl : y = row.holder := by simpa using hy
    have hclash : clashes env row r = true := clashes_of_holder hxy.symm
    rw [fresh r hr] at hclash
    cases hclash
  | deleted => exact hs.sublist (List.filter_sublist.map _)
  | @closed closed_at _ x _ =>
    have same : (s.accounts.map (AccountRow.closed_by x closed_at)).map AccountRow.holder =
        s.accounts.map AccountRow.holder := by
      rw [List.map_map]
      exact List.map_congr_left fun r _ => AccountRow.closed_by_holder x closed_at r
    rw [same]
    exact hs

theorem run_holders (h : AccountRun env (start table clock) ls d) :
    (d.world.store.accounts.map AccountRow.holder).Nodup := by
  refine h.store_invariant (P := fun s => (s.accounts.map AccountRow.holder).Nodup) ?_ ?_ ?_
  · intro t ch s op r s' hs hexec
    exact (exec_accounts (t := t) hexec).holders hs
  · intro o s s' hs henv
    rwa [outside_accounts henv]
  · show (table.rows.map AccountRow.holder).Nodup
    rw [List.Nodup, List.pairwise_map]
    refine table.keys.imp ?_
    intro r r' hclash hsame
    rw [clashes_of_holder hsame] at hclash
    cases hclash

/-- A supported currency is stored as itself. -/
theorem named_code (coll : Collation) (currency : Currency) :
    Currency.named coll currency.code = some currency := by
  have capital : ∀ c : Currency, c.code.toList.all Char.isUpper = true := by
    intro c
    cases c <;> decide
  have found : (Currency.named coll currency.code).isSome = true := by
    refine List.find?_isSome.mpr ⟨currency, ?_, decide_eq_true (coll.same_refl _)⟩
    cases currency <;> simp [Currency.all]
  obtain ⟨c, hc⟩ := Option.isSome_iff_exists.mp found
  have hfound := List.find?_some hc
  have hcode := coll.capitals _ _ (capital _) (capital _) (of_decide_eq_true hfound)
  rw [hc]
  cases currency <;> cases c <;> first | rfl | exact absurd hcode (by decide)

/-- A creation's event says what its row says. -/
structure Announced (h : List AccountDone) (view : AccountView) (r : AccountRow) : Prop where
  account_id : view.account_id = r.id.to_string
  user_id : Uuid.UUID_TO_BIN view.user_id = some r.user_id
  account_number : view.account_number = r.account_number
  currency : parse_currency view.currency = .ret r.currency
  status : view.status = r.status.text
  event : ∃ event, (⟨.publish_json TOPIC_ACCOUNT_CREATED view.account_id (.created event), .ok ()⟩ :
    AccountDone) ∈ h ∧ event.account_id = r.id ∧ event.user_id = r.user_id ∧
      event.currency = r.currency ∧ event.account_number = r.account_number

/-- The row of a creation that the ledger did not refuse stays, and as it is: a row whose identifier
was generated in the run is closed by no call. -/
theorem accepted_stays (h : AccountRun env (start table clock) ls d) {s : Store}
    (lives : Lives d.world.log s d.world.store) {r : AccountRow} (hr : r ∈ s.accounts) {t : Nat}
    (hnow : (⟨.now_v7, r.id⟩ : AccountDone) ∈ history t d.world.log)
    (accepted : ∀ y ∈ history t d.world.log, ∀ id, y.op ≠ .sql (.delete_account id)) :
    r ∈ d.world.store.accounts := by
  rcases lives r hr with ⟨r', hr', hcont⟩ | ⟨_, e, he, ⟨hop, _⟩, hnow', _⟩
  · have hfresh : Fresh d.world.log r'.id := by
      obtain ⟨a, ha, _, hdid⟩ := mem_history.mp hnow
      exact ⟨a, ha, hcont.becomes.id_eq ▸ hdid⟩
    have hpending := (run_sound h).pending r' hr' hfresh
    cases hcont.becomes with
    | same => exact hr'
    | closed closed_at => cases hpending
  · obtain rfl : e.tid = t := generated_by_one h hnow' hnow
    exact absurd hop (accepted e.did (mem_history.mpr ⟨e, he, rfl, rfl⟩) _)

/-- **The row of an INSERT that was answered** is in the table, if its call deletes nothing. -/
theorem inserted_stays (h : AccountRun env (start table clock) ls d) {t : Nat} {x : Uuid}
    {user_id number : String} {currency : Currency}
    (generated : (⟨.now_v7, x⟩ : AccountDone) ∈ history t d.world.log)
    (inserted : did (.insert_account x.to_string user_id number currency.code) (some .inserted) ∈
      history t d.world.log)
    (accepted : ∀ y ∈ history t d.world.log, ∀ id, y.op ≠ .sql (.delete_account id)) :
    ∃ r ∈ d.world.store.accounts, r.id = x ∧ Uuid.UUID_TO_BIN user_id = some r.user_id ∧
      r.currency = currency ∧ r.account_number = number ∧ r.status = .PendingKYC := by
  obtain ⟨a, ha, htid, hdid⟩ := mem_history.mp inserted
  obtain ⟨_, _, _, hexec⟩ := h.did ha hdid
  rcases exec_insert_account (t := a.tid) hexec with ⟨r, hrow, _, _, hpost, _⟩ | ⟨_, _, hr⟩
  · obtain ⟨hid, hstatus, _⟩ := inserted_row_spec hrow
    obtain ⟨huser, hcurrency⟩ := inserted_row_owner hrow
    rw [Uuid.UUID_TO_BIN_to_string, Option.some.injEq] at hid
    rw [named_code, Option.some.injEq] at hcurrency
    have hmem : r ∈ a.post.accounts := by
      rw [hpost]
      exact List.mem_append_right _ List.mem_cons_self
    obtain ⟨before, after, split⟩ := List.append_of_mem ha
    have later : ∀ e ∈ after, Lives d.world.log e.pre e.post := fun e he =>
      event_lives h (split ▸ List.mem_append_right _ (List.mem_cons_of_mem _ he))
    have lives : Lives d.world.log a.post d.world.store :=
      h.along_after (Lives.refl _) Lives.trans outside_lives split later
    exact ⟨r, accepted_stays h lives hmem (hid ▸ generated) accepted, hid.symm, huser,
      hcurrency.symm, inserted_row_number hrow, hstatus⟩
  · rcases hr with hr | ⟨hr, _⟩ <;> cases hr

/-- **The row of a creation that answered** is in the table, as it was inserted. -/
theorem opened_row (h : AccountRun env (start table clock) ls d) {t : Nat} {auth : Jwt.AuthHeader}
    {body_currency : String} {view : AccountView}
    (returned : d.returned t (.create_account auth body_currency) (.ok (.created view))) :
    ∃ r ∈ d.world.store.accounts, (⟨.now_v7, r.id⟩ : AccountDone) ∈ history t d.world.log ∧
      Announced (history t d.world.log) view r := by
  obtain ⟨x, kova_user_id, currency, hopened⟩ := h.answer (serve_opens env) returned view rfl
  obtain ⟨r, hr, rfl, huser, rfl, hnumber, hstatus⟩ :=
    inserted_stays h hopened.generated hopened.inserted hopened.accepted
  refine ⟨r, hr, hopened.generated, ?_⟩
  obtain ⟨event, hevent, haccount, howner, hcode, hannounced⟩ := hopened.event
  have hparsed := Uuid.parse_str_of_UUID_TO_BIN huser
  rw [hopened.user_id, Option.some.injEq] at hparsed
  exact ⟨hopened.account_id, huser, hnumber.symm, hopened.supported,
    by rw [hopened.status, hstatus]; rfl, event, hevent, haccount, howner.trans hparsed, hcode,
    hannounced.trans hnumber.symm⟩

/-- The row is there, the only one of its user in its currency, and no creation but call `t` has
answered with an account of theirs. -/
structure OnlyAccount (d : AccountConf) (t : Nat) (view : AccountView) (r : AccountRow) : Prop where
  stays : r ∈ d.world.store.accounts
  single : ∀ r' ∈ d.world.store.accounts, r'.user_id = r.user_id → r'.currency = r.currency →
    r' = r
  answered : ∀ (t' : Nat) (auth : Jwt.AuthHeader) (body_currency : String) (view' : AccountView),
    d.returned t' (.create_account auth body_currency) (.ok (.created view')) →
      Uuid.UUID_TO_BIN view'.user_id = Uuid.UUID_TO_BIN view.user_id →
        view'.currency = view.currency → t' = t

/-- **One account for a user in a currency**: a creation that answered with an account has
published what its row says, and whatever happens later the row stays the only one. -/
theorem created_once (env : Env) (table : Table env) (clock : Nat) (ls : List AccountLabel)
    (c : AccountConf) (t : Nat) (auth : Jwt.AuthHeader) (body_currency : String)
    (view : AccountView) (run : AccountRun env (start table clock) ls c)
    (returned : c.returned t (.create_account auth body_currency) (.ok (.created view))) :
    ∃ r, Announced (history t c.world.log) view r ∧
      ∀ (ms : List AccountLabel) (d : AccountConf), AccountRun env c ms d →
        OnlyAccount d t view r := by
  obtain ⟨r, hr, hnow, announced⟩ := opened_row run returned
  refine ⟨r, announced, ?_⟩
  intro ms d later
  have h := run.append later
  have single : ∀ r₁ ∈ d.world.store.accounts, ∀ r₂ ∈ d.world.store.accounts,
      r₁.user_id = r₂.user_id → r₁.currency = r₂.currency → r₁ = r₂ := by
    intro r₁ hr₁ r₂ hr₂ huser hcurrency
    exact List.inj_on_of_nodup_map (run_holders h) hr₁ hr₂ (Prod.ext huser hcurrency)
  have hgrown := (history_grows (t := t) later.log_prefix).subset hnow
  obtain ⟨_, _, _, hopened⟩ := h.answer (serve_opens env) (later.returned returned).1 view rfl
  have hstays : r ∈ d.world.store.accounts :=
    accepted_stays h (run_lives run later) hr hgrown hopened.accepted
  refine ⟨hstays, fun r' hr' huser hcurrency => single r' hr' r hstays huser hcurrency, ?_⟩
  intro t' auth' body_currency' view' returned' huser hcurrency
  obtain ⟨r', hr', hnow', announced'⟩ := opened_row h returned'
  rw [announced'.user_id, announced.user_id, Option.some.injEq] at huser
  have hcode : (Prog.ret r'.currency : Async Currency) = .ret r.currency := by
    rw [← announced'.currency, ← announced.currency, hcurrency]
  have hsame := single r' hr' r hstays huser (Prog.ret.inj hcode)
  exact generated_by_one h (hsame ▸ hnow') hgrown

/-- Call `t` is a creation that answered with an account, computed. -/
def created (d : AccountConf) (t : Nat) : Bool :=
  d.pool[t]?.any fun call =>
    match call.req, call.prog.result? with
    | .create_account .., some (.ok (.created _)) => true
    | _, _ => false

theorem created_sound {t : Nat} (h : created d t = true) : ∃ auth body_currency view,
    d.returned t (.create_account auth body_currency) (.ok (.created view)) := by
  obtain ⟨call, hcall, htest⟩ := (Option.any_eq_true _ _).mp h
  split at htest
  · next auth body_currency view hreq hresult =>
    exact ⟨auth, body_currency, view, call, hcall, hreq, hresult⟩
  · cases htest

/-- The sample's user is given an account in pounds, at the second try. -/
theorem created_once_sample : ∃ (c : AccountConf) (view : AccountView) (r : AccountRow),
    Announced (history 1 c.world.log) view r ∧
      ∀ (ms : List AccountLabel) (d : AccountConf), AccountRun sample c ms d →
        OnlyAccount d 1 view r := by
  obtain ⟨run, answered⟩ := replayed_spec (machine sample) (serve sample) sample_start
    (half_created ++ [.run 1 {}, .run 1 { uuid := .low 10 }, .run 1 {}, .run 1 {}])
    (fun c => created c 1) (by decide +kernel)
  obtain ⟨auth, body_currency, view, returned⟩ := created_sound answered
  exact ⟨_, view, created_once sample sample_table _ _ _ 1 auth body_currency view run returned⟩

end Kova.Account

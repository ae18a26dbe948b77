import Kova.Account.Lifecycle

/-!
# Who changes the accounts

A call inserts and deletes an account in the name of the user whom its access token names, and
closes one that it has found to be that user's. A row stays the same user's as long as it is there.
So whatever row a call adds to the table, changes or takes away is its caller's
(`touched_by_caller`).
-/

set_option autoImplicit false

namespace Kova.Account

open Conc Ledger

variable {env : Env} {table : Table env} {clock : Nat} {ls : List AccountLabel} {d : AccountConf}

/-! ## The handlers -/

/-- The request's token was accepted, and names the user. -/
def Named (env : Env) (req : Request) (h : List AccountDone) (user : AuthUser) : Prop :=
  ∃ auth now, req.auth = some auth ∧ (⟨.utc_now, now⟩ : AccountDone) ∈ h ∧
    AuthUser.from_request_parts env.key now.timestamp.toNat auth = .ok user

/-- What comes before a statement that changes the table. -/
def names_caller (env : Env) (req : Request) (h : List AccountDone) : Op → Prop
  | .sql (.insert_account _ user_id _ _) => ∃ user, Named env req h user ∧ user_id = user.sub
  | .sql (.delete_account id) => ∃ user number currency, Named env req h user ∧
      did (.insert_account id user.sub number currency) (some .inserted) ∈ h
  | .sql (.update_closed _ id) => ∃ user row, Named env req h user ∧
      did (.select_to_close id user.sub) (some (some row)) ∈ h
  | _ => True

/-- **Every handler** changes the table in the name of its caller. -/
theorem serve_names (env : Env) (req : Request) :
    Guarded (names_caller env req) (fun _ _ => True) (serve env req) [] := by
  refine (serve_steps env req).mono ?_ fun _ _ _ => trivial
  intro h op step
  cases step with
  | @create auth currency now user _ _ accepted step =>
    cases step with
    | draw | name => trivial
    | insert code => exact ⟨user, ⟨auth, now, rfl, by simp, accepted⟩, rfl⟩
    | @opening currency seq_num _ _ _ code step =>
      cases step with
      | withdraw =>
        exact ⟨user, account_number seq_num, currency.code,
          ⟨auth, now, rfl, by simp [inserted], accepted⟩, by simp [inserted, did]⟩
      | _ => trivial
  | @close auth account_id now user _ _ accepted step =>
    cases step with
    | @close row =>
      exact ⟨user, row, ⟨auth, now, rfl, by simp [checks_done], accepted⟩,
        by simp [checks_done, did]⟩
    | _ => trivial
  | balance _ step | statement _ step => cases step <;> trivial
  | extract | list | get | ledger => trivial

/-! ## Every run -/

/-- The event adds the row to the table, or takes it away. What changes is the row it was and the
row it becomes. -/
def Touches (e : AccountEvent) (r : AccountRow) : Prop :=
  ¬ (r ∈ e.pre.accounts ↔ r ∈ e.post.accounts)

/-- A row stays the same user's as long as it is there. -/
theorem owner_kept (h : AccountRun env (start table clock) ls d) {s : Store}
    (lives : Lives d.world.log s d.world.store) {r r' : AccountRow} (hr : r ∈ s.accounts)
    (hr' : r' ∈ d.world.store.accounts) (hid : r'.id = r.id) : r'.user_id = r.user_id := by
  rcases lives r hr with ⟨r₁, hr₁, hcont⟩ | hgone
  · obtain rfl := (run_sound h).valid.eq_of_id hr₁ hr' (hcont.becomes.id_eq.trans hid.symm)
    exact hcont.becomes.user_id_eq
  · exact absurd hid (hgone.gone h r' hr')

/-- The store that an event left, and the store at the end. -/
theorem lives_after (h : AccountRun env (start table clock) ls d) {a : AccountEvent}
    (ha : a ∈ d.world.log) : Lives d.world.log a.post d.world.store := by
  obtain ⟨before, after, split⟩ := List.append_of_mem ha
  refine h.along_after (Lives.refl _) Lives.trans outside_lives split ?_
  intro e he
  exact event_lives h (split ▸ List.mem_append_right _ (List.mem_cons_of_mem _ he))

/-- A row that a call inserted is the user's whose identifier it bound. -/
theorem inserted_owner (h : AccountRun env (start table clock) ls d) {t : Nat}
    {id user_id number currency : String}
    (inserted : did (.insert_account id user_id number currency) (some .inserted) ∈
      history t d.world.log) {r : AccountRow} (hr : r ∈ d.world.store.accounts)
    (hid : Uuid.UUID_TO_BIN id = some r.id) : Uuid.UUID_TO_BIN user_id = some r.user_id := by
  obtain ⟨a, ha, rfl, hdid⟩ := mem_history.mp inserted
  obtain ⟨_, _, _, hexec⟩ := h.did ha hdid
  rcases exec_insert_account (t := a.tid) hexec with ⟨row, hrow, _, _, hpost, _⟩ | ⟨_, _, hr⟩
  · have hmem : row ∈ a.post.accounts := by
      rw [hpost]
      exact List.mem_append_right _ List.mem_cons_self
    have hsame := (inserted_row_spec hrow).1
    rw [hid, Option.some.injEq] at hsame
    rw [owner_kept h (lives_after h ha) hmem hr hsame]
    exact (inserted_row_owner hrow).1
  · rcases hr with hr | ⟨hr, _⟩ <;> cases hr

/-- A row that a call has read as its user's is that user's. -/
theorem read_owner (h : AccountRun env (start table clock) ls d) {t : Nat} {id user_id : String}
    {row : CloseRow}
    (hread : did (.select_to_close id user_id) (some (some row)) ∈ history t d.world.log)
    {r : AccountRow} (hr : r ∈ d.world.store.accounts) (hid : Uuid.UUID_TO_BIN id = some r.id) :
    Uuid.UUID_TO_BIN user_id = some r.user_id := by
  obtain ⟨a, ha, rfl, hdid⟩ := mem_history.mp hread
  obtain ⟨_, _, _, hexec⟩ := h.did ha hdid
  obtain ⟨r₀, hr₀, hid₀, huser, _⟩ := exec_to_close (t := a.tid) hexec
  rw [hid, Option.some.injEq] at hid₀
  rw [huser, owner_kept h ((event_lives h ha).trans (lives_after h ha)) hr₀ hr hid₀]

/-- **Whoever changes an account is its user**: the row that an event adds, changes or takes away is
the user's whom the token of the call names. -/
theorem touched_by_caller (h : AccountRun env (start table clock) ls d)
    {before after : List AccountEvent} {e : AccountEvent}
    (split : d.world.log = before ++ e :: after) {r : AccountRow} (touches : Touches e r) : ∃ user,
      Named env e.req (history e.tid before) user ∧ Uuid.UUID_TO_BIN user.sub = some r.user_id := by
  have he : e ∈ d.world.log := split ▸ List.mem_append_right _ List.mem_cons_self
  have hguard := h.guard (serve_names env) split
  obtain ⟨_, _, _, hexec⟩ := h.executed he
  have hchange := exec_accounts hexec
  -- The run up to the event.
  obtain ⟨_, c, hrun, hworld, _⟩ := h.at_event (List.nil_append _).symm split
  have hlog : c.world.log = before := congrArg World.log hworld
  have hstore : c.world.store = e.pre := congrArg World.store hworld
  unfold Touches at touches
  generalize e.op = op at hchange hguard
  generalize e.post.accounts = l at hchange touches
  cases hchange with
  | same => exact absurd Iff.rfl touches
  | @inserted id user_id number currency row values =>
    obtain ⟨user, named, rfl⟩ := hguard
    have hr : r = row := by
      by_contra hne
      exact touches (by simp [hne])
    exact ⟨user, named, hr ▸ (inserted_row_owner values).1⟩
  | @deleted text x parsed =>
    obtain ⟨user, number, currency, named, inserted⟩ := hguard
    have hr : r ∈ e.pre.accounts ∧ r.id = x := by
      by_contra hne
      refine touches ⟨fun hpre => ?_, List.mem_of_mem_filter⟩
      exact List.mem_filter.mpr ⟨hpre, bne_iff_ne.mpr fun hid => hne ⟨hpre, hid⟩⟩
    obtain ⟨hpre, rfl⟩ := hr
    exact ⟨user, named, inserted_owner hrun (hlog ▸ inserted) (hstore ▸ hpre) parsed⟩
  | @closed closed_at text x parsed =>
    obtain ⟨user, row, named, hread⟩ := hguard
    obtain ⟨r₀, hr₀, hid, huser⟩ : ∃ r₀ ∈ e.pre.accounts, r₀.id = x ∧ r.user_id = r₀.user_id := by
      by_contra hnone
      have stays : ∀ r₀ ∈ e.pre.accounts, r₀.user_id = r.user_id →
          AccountRow.closed_by x closed_at r₀ = r₀ := by
        intro r₀ hr₀ huser
        exact if_neg fun hid => hnone ⟨r₀, hr₀, hid, huser.symm⟩
      refine touches ⟨fun hpre => ?_, fun hpost => ?_⟩
      · exact List.mem_map.mpr ⟨r, hpre, stays r hpre rfl⟩
      · obtain ⟨r₀, hr₀, rfl⟩ := List.mem_map.mp hpost
        rw [stays r₀ hr₀ (congrArg Prod.fst (AccountRow.closed_by_holder x closed_at r₀)).symm]
        exact hr₀
    subst hid
    exact ⟨user, named, huser ▸ read_owner hrun (hlog ▸ hread) (hstore ▸ hr₀) parsed⟩

end Kova.Account

import Kova.Auth.StoreLaws

/-!
# Users

What the operations do to the table of users (`exec_users`): a registration adds a user whose
identifier and phone number no other has, a PIN is set, nothing else happens. And what the
statements that look something up for a user reply.
-/

set_option autoImplicit false

namespace Kova.Auth

open Conc

variable {env : Env} {ch : Choice} {s s' : Store}

/-- What an operation can do to the table of users. -/
inductive UsersChange (env : Env) (s : Store) : Op → List User → Prop
  | same (op : Op) : UsersChange env s op s.users
  | registered {id phone_number : String} {u : User} (parsed : Uuid.UUID_TO_BIN id = some u.id)
      (stored : Collation.varchar 20 phone_number = some u.phone_number) (pin : u.pin_hash = "")
      (fresh : ∀ u' ∈ s.users, u'.id ≠ u.id ∧ ¬ env.coll.same u'.phone_number u.phone_number) :
      UsersChange env s (.sql (.insert_user id phone_number)) (s.users ++ [u])
  | pin {text pin_hash stored : String} {u : Uuid} (parsed : Uuid.UUID_TO_BIN text = some u) :
      UsersChange env s (.sql (.update_pin_hash pin_hash text))
        (s.users.map fun x => if x.id = u then { x with pin_hash := stored } else x)

theorem run_users (pick : Nat) (s : Store) (q : Sql) :
    UsersChange env s (.sql q) (q.run env pick s).2.users := by
  cases q with
  | insert_user id phone_number =>
    simp only [Sql.run]
    split
    · next u phone hu hphone =>
      split
      · exact .same _
      · next hnew =>
        refine .registered (u := ⟨u, phone, ""⟩) hu hphone rfl ?_
        intro u' hu'
        refine ⟨?_, ?_⟩
        · intro heq
          exact hnew ⟨u', hu', .inl heq⟩
        · intro hsame
          exact hnew ⟨u', hu', .inr hsame⟩
    · exact .same _
  | update_pin_hash pin_hash text =>
    simp only [Sql.run]
    split
    · next hu _ => exact .pin hu
    · exact .same _
  | _ =>
    simp only [Sql.run]
    repeat' split
    all_goals exact .same _

/-- **What one operation can do to the users.** -/
theorem exec_users {op : Op} {r : op.Res} (h : exec env ch s op = some (r, s')) :
    UsersChange env s op s'.users := by
  rcases exec_cases h with aside | ⟨q, rfl, rfl⟩
  · rw [aside.users]
    exact .same _
  · exact run_users _ _ q

/-! ## The table over a run -/

/-- The primary key and the unique key on the phone number. -/
def DistinctUsers (env : Env) (users : List User) : Prop :=
  ∀ u ∈ users, ∀ u' ∈ users, u.id = u'.id ∨ env.coll.same u.phone_number u'.phone_number → u = u'

theorem UsersChange.distinct {op : Op} {l : List User} (h : UsersChange env s op l)
    (hs : DistinctUsers env s.users) : DistinctUsers env l := by
  cases h with
  | same => exact hs
  | @registered _ _ u _ _ _ fresh =>
    intro x hx y hy hxy
    rcases List.mem_append.mp hx with hx' | hx' <;> rcases List.mem_append.mp hy with hy' | hy'
    · exact hs x hx' y hy' hxy
    · obtain rfl := List.mem_singleton.mp hy'
      exact (hxy.elim (fresh x hx').1 (fresh x hx').2).elim
    · obtain rfl := List.mem_singleton.mp hx'
      rcases hxy with hid | hphone
      · exact ((fresh y hy').1 hid.symm).elim
      · exact ((fresh y hy').2 (Collation.same_symm hphone)).elim
    · rw [List.mem_singleton.mp hx', List.mem_singleton.mp hy']
  | @pin _ _ stored u _ =>
    have keeps : ∀ x : User, (if x.id = u then { x with pin_hash := stored } else x).id = x.id ∧
        (if x.id = u then { x with pin_hash := stored } else x).phone_number = x.phone_number := by
      intro x
      split <;> exact ⟨rfl, rfl⟩
    intro x' hx y' hy hxy
    obtain ⟨x, hx', rfl⟩ := List.mem_map.mp hx
    obtain ⟨y, hy', rfl⟩ := List.mem_map.mp hy
    rw [(keeps x).1, (keeps y).1, (keeps x).2, (keeps y).2] at hxy
    rw [hs x hx' y hy' hxy]

/-- Users stay, under their identifiers and phone numbers. -/
def UsersStay (s s' : Store) : Prop :=
  ∀ u ∈ s.users, ∃ u' ∈ s'.users, u'.id = u.id ∧ u'.phone_number = u.phone_number

theorem users_stay (env : Env) : Follows (machine env) UsersStay where
  refl _ u hu := ⟨u, hu, rfl, rfl⟩
  trans h h' u hu := by
    obtain ⟨v, hv, hid, hphone⟩ := h u hu
    obtain ⟨w, hw, hid', hphone'⟩ := h' v hv
    exact ⟨w, hw, hid'.trans hid, hphone'.trans hphone⟩
  exec {_ _ _ _ _ s'} h u hu := by
    have hchange := exec_users h
    generalize s'.users = l at hchange
    cases hchange with
    | same => exact ⟨u, hu, rfl, rfl⟩
    | registered => exact ⟨u, List.mem_append_left _ hu, rfl, rfl⟩
    | pin _ => refine ⟨_, List.mem_map_of_mem hu, ?_, ?_⟩ <;> split <;> rfl
  env {o _ _} h u hu := by
    cases o with
    | advance n =>
      cases h
      exact ⟨u, hu, rfl, rfl⟩

/-! ## What a reply says -/

/-- The user that a phone number selects. -/
theorem exec_select_user {phone_number : String} {found : Option String}
    (h : exec env ch s (.sql (.select_user_by_phone phone_number)) = some (some found, s')) :
    found = (limit_one ch.pick (s.users.filter fun u => env.coll.same u.phone_number phone_number)).map
      fun u => u.id.to_string := by
  exact (Option.some.inj (congrArg Prod.fst (exec_answered h))).symm

/-- A session that a user's own SELECT found is live and the user's. -/
theorem exec_select_own_session {id user_id : String} {jti : Option String}
    (h : exec env ch s (.sql (.select_own_session id user_id)) = some (some (some jti), s')) :
    ∃ r ∈ s.sessions, Uuid.UUID_TO_BIN id = some r.id ∧
      Uuid.UUID_TO_BIN user_id = some r.user_id ∧ r.revoked_at = none ∧
        jti = r.access_token_jti := by
  have hrun := exec_answered h
  simp only [Sql.run] at hrun
  split at hrun
  · next u v hu hv =>
    obtain ⟨r, hr, hjti⟩ := Option.map_eq_some_iff.mp (Option.some.inj (congrArg Prod.fst hrun))
    have hfound := List.find?_some hr
    simp only [Bool.and_eq_true, beq_iff_eq, Option.isNone_iff_eq_none] at hfound
    obtain ⟨⟨rfl, rfl⟩, hlive⟩ := hfound
    exact ⟨r, List.mem_of_find?_eq_some hr, hu, hv, hlive, hjti.symm⟩
  · cases congrArg Prod.fst hrun

/-- The identifiers of a user's live sessions. -/
theorem exec_select_live_jtis {user_id : String} {rows : List (Option String)}
    (h : exec env ch s (.sql (.select_live_jtis user_id)) = some (some rows, s')) {r : Session}
    (hr : r ∈ s.sessions) (hlive : r.revoked_at = none)
    (huser : Uuid.UUID_TO_BIN user_id = some r.user_id) : r.access_token_jti ∈ rows := by
  have hrun := exec_answered h
  simp only [Sql.run, huser] at hrun
  have hrows := Option.some.inj (congrArg Prod.fst hrun)
  rw [← hrows]
  apply List.mem_map_of_mem
  exact List.mem_filter.mpr ⟨hr, by simp [hlive]⟩

end Kova.Auth

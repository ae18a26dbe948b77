import Mathlib.Data.List.Nodup
import Kova.Conc.History
import Kova.Auth.Store

/-!
# What the operations keep

Read off each operation once, for every later argument:

- `exec_cases`: an operation is a statement, or it leaves the tables alone;
- `exec_sessions`, `exec_otp_codes`: what an operation can do to the two tables. Sessions are
  inserted and revoked, codes are inserted and used; nothing is deleted, and no column but
  `revoked_at` and `used_at` is ever changed;
- `Later`: the preorder of stores that this amounts to. A revoked session stays revoked and a
  used code stays used (`later_follows`);
- `Store.Keyed`: the primary keys hold;
- the statements inverted (`exec_select_session`, `exec_revoke_session` and the rest): what a
  reply says about the store it came from.
-/

set_option autoImplicit false

namespace Kova.Auth

open Conc

variable {env : Env} {ch : Choice} {s s' : Store}

/-! ## Rows over time -/

/-- The same session, revoked in the meantime or not. -/
structure Session.Becomes (r r' : Session) : Prop where
  same : r' = { r with revoked_at := r'.revoked_at }
  revoked : r.revoked_at.isSome → r'.revoked_at.isSome

namespace Session.Becomes

variable {r r' r'' : Session}

theorem refl (r : Session) : r.Becomes r := ⟨rfl, fun h => h⟩

theorem trans (h : r.Becomes r') (h' : r'.Becomes r'') : r.Becomes r'' := by
  refine ⟨?_, fun hr => h'.revoked (h.revoked hr)⟩
  rw [h'.same, h.same]

theorem id_eq (h : r.Becomes r') : r'.id = r.id := by rw [h.same]

theorem user_id_eq (h : r.Becomes r') : r'.user_id = r.user_id := by rw [h.same]

theorem refresh_token_hash_eq (h : r.Becomes r') :
    r'.refresh_token_hash = r.refresh_token_hash := by rw [h.same]

theorem token_selector_eq (h : r.Becomes r') : r'.token_selector = r.token_selector := by
  rw [h.same]

theorem access_token_jti_eq (h : r.Becomes r') : r'.access_token_jti = r.access_token_jti := by
  rw [h.same]

theorem expires_at_eq (h : r.Becomes r') : r'.expires_at = r.expires_at := by rw [h.same]

end Session.Becomes

/-- The same code, used in the meantime or not. -/
structure OtpCode.Becomes (r r' : OtpCode) : Prop where
  same : r' = { r with used_at := r'.used_at }
  used : r.used_at.isSome → r'.used_at.isSome

namespace OtpCode.Becomes

variable {r r' r'' : OtpCode}

theorem refl (r : OtpCode) : r.Becomes r := ⟨rfl, fun h => h⟩

theorem trans (h : r.Becomes r') (h' : r'.Becomes r'') : r.Becomes r'' := by
  refine ⟨?_, fun hr => h'.used (h.used hr)⟩
  rw [h'.same, h.same]

theorem id_eq (h : r.Becomes r') : r'.id = r.id := by rw [h.same]

end OtpCode.Becomes

/-- What every operation, and the passing of time, keeps. -/
structure Later (s s' : Store) : Prop where
  sessions : ∀ r ∈ s.sessions, ∃ r' ∈ s'.sessions, r.Becomes r'
  otp_codes : ∀ r ∈ s.otp_codes, ∃ r' ∈ s'.otp_codes, r.Becomes r'
  generated : s.generated ⊆ s'.generated
  clock : s.clock ≤ s'.clock

theorem Later.refl (s : Store) : Later s s :=
  ⟨fun r hr => ⟨r, hr, .refl r⟩, fun r hr => ⟨r, hr, .refl r⟩, fun _ h => h, le_rfl⟩

theorem Later.trans {s₁ s₂ s₃ : Store} (h : Later s₁ s₂) (h' : Later s₂ s₃) : Later s₁ s₃ := by
  refine ⟨?_, ?_, fun _ hx => h'.generated (h.generated hx), h.clock.trans h'.clock⟩
  · intro r hr
    obtain ⟨r', hr', hb⟩ := h.sessions r hr
    obtain ⟨r'', hr'', hb'⟩ := h'.sessions r' hr'
    exact ⟨r'', hr'', hb.trans hb'⟩
  · intro r hr
    obtain ⟨r', hr', hb⟩ := h.otp_codes r hr
    obtain ⟨r'', hr'', hb'⟩ := h'.otp_codes r' hr'
    exact ⟨r'', hr'', hb.trans hb'⟩

theorem Later.now (h : Later s s') : s.now ≤ s'.now :=
  Int.ofNat_le.mpr (Nat.div_le_div_right h.clock)

/-! ## What an operation does -/

/-- The WHERE clause of a statement that sets `revoked_at`. -/
def Sql.revokes (env : Env) : Sql → Option (Session → Bool)
  | .revoke_session id => (Uuid.UUID_TO_BIN id).map fun id r => r.id == id
  | .revoke_user_sessions user_id =>
    (Uuid.UUID_TO_BIN user_id).map fun user_id r => r.user_id == user_id && r.revoked_at.isNone
  | .revoke_by_jti jti user_id =>
    (Uuid.UUID_TO_BIN user_id).map fun user_id r =>
      (r.access_token_jti.any fun j => env.coll.same j jti) && r.user_id == user_id &&
        r.revoked_at.isNone
  | _ => none

theorem revokes_session {id : String} {u : Uuid} (h : Uuid.UUID_TO_BIN id = some u) :
    (Sql.revoke_session id).revokes env = some (·.id == u) := by
  simp only [Sql.revokes, h, Option.map_some]

theorem revokes_user {user_id : String} {u : Uuid} (h : Uuid.UUID_TO_BIN user_id = some u) :
    (Sql.revoke_user_sessions user_id).revokes env =
      some fun r => r.user_id == u && r.revoked_at.isNone := by
  simp only [Sql.revokes, h, Option.map_some]

/-- What an operation can do to the table of sessions. -/
inductive SessionsChange (env : Env) (s : Store) : Op → List Session → Prop
  | same (op : Op) : SessionsChange env s op s.sessions
  | inserted {v : SessionInsert} {row : Session} (values : v.row = some row)
      (fresh : ∀ r ∈ s.sessions, r.id ≠ row.id) :
      SessionsChange env s (.sql (.insert_session v)) (s.sessions ++ [row])
  | revoked {q : Sql} {p : Session → Bool} (clause : q.revokes env = some p) :
      SessionsChange env s (.sql q) (s.revoke p).sessions

/-- What an operation can do to the table of codes. -/
inductive OtpCodesChange (s : Store) : Op → List OtpCode → Prop
  | same (op : Op) : OtpCodesChange s op s.otp_codes
  | inserted {id user_id code_hash : String} {expires_at : DateTime} {row : OtpCode}
      (fresh : ∀ r ∈ s.otp_codes, r.id ≠ row.id) (unused : row.used_at = none) :
      OtpCodesChange s (.sql (.insert_otp id user_id code_hash expires_at)) (s.otp_codes ++ [row])
  | used {id : String} {u : Uuid} (parsed : Uuid.UUID_TO_BIN id = some u) :
      OtpCodesChange s (.sql (.use_otp id)) (s.consume u).otp_codes

theorem run_sessions (pick : Nat) (s : Store) (q : Sql) :
    SessionsChange env s (.sql q) (q.run env pick s).2.sessions := by
  cases q with
  | insert_session v =>
    simp only [Sql.run]
    split
    · next row hrow =>
      split
      · next hok =>
        refine .inserted hrow ?_
        intro r hr heq
        simp only [Bool.and_eq_true, Bool.not_eq_true', List.any_eq_false, beq_iff_eq] at hok
        exact hok.2 r hr heq
      · exact .same _
    · exact .same _
  | revoke_session id =>
    simp only [Sql.run]
    split
    · next u hu => exact .revoked (revokes_session hu)
    · exact .same _
  | revoke_user_sessions id =>
    simp only [Sql.run]
    split
    · next u hu => exact .revoked (revokes_user hu)
    · exact .same _
  | revoke_by_jti jti id =>
    simp only [Sql.run]
    split
    · next u hu => exact .revoked (by simp only [Sql.revokes, hu, Option.map_some])
    · exact .same _
  | _ =>
    simp only [Sql.run]
    repeat' split
    all_goals exact .same _

theorem run_otp_codes (pick : Nat) (s : Store) (q : Sql) :
    OtpCodesChange s (.sql q) (q.run env pick s).2.otp_codes := by
  cases q with
  | insert_otp id user_id code_hash expires_at =>
    simp only [Sql.run]
    split
    · split
      · next hok =>
        refine .inserted ?_ rfl
        intro r hr heq
        simp only [Bool.and_eq_true, Bool.not_eq_true', List.any_eq_false, beq_iff_eq] at hok
        exact hok.1.1.2 r hr heq
      · exact .same _
    · exact .same _
  | use_otp id =>
    simp only [Sql.run]
    split
    · next u hu => exact .used hu
    · exact .same _
  | _ =>
    simp only [Sql.run]
    repeat' split
    all_goals exact .same _

/-- Redis, the clock and what has been generated are not a statement's. -/
theorem run_frame (pick : Nat) (s : Store) (q : Sql) :
    (q.run env pick s).2.redis = s.redis ∧ (q.run env pick s).2.clock = s.clock ∧
      (q.run env pick s).2.generated = s.generated ∧ (q.run env pick s).2.minted = s.minted := by
  cases q <;> simp only [Sql.run] <;> repeat' split
  all_goals simp only [Store.revoke, Store.consume, and_self]

/-- A statement fails without effect, or has its effect, the reply possibly lost. -/
theorem exec_fault {q : Sql} {r : Option q.Res} (h : exec env ch s (.sql q) = some (r, s')) :
    (ch.fault = .failed ∧ r = none ∧ s' = s) ∨
      (ch.fault ≠ .failed ∧ s' = (q.run env ch.pick s).2 ∧
        (r = (q.run env ch.pick s).1 ∨ r = none)) := by
  simp only [exec] at h
  split at h
  · next hfault =>
    have h := Option.some.inj h
    exact .inr ⟨by simp [hfault], (congrArg Prod.snd h).symm, .inl (congrArg Prod.fst h).symm⟩
  · next hfault =>
    cases h
    exact .inl ⟨hfault, rfl, rfl⟩
  · next hfault =>
    cases h
    exact .inr ⟨by simp [hfault], rfl, .inr rfl⟩

theorem exec_sql {q : Sql} {r : Option q.Res} (h : exec env ch s (.sql q) = some (r, s')) :
    (r = none ∧ s' = s) ∨
      (s' = (q.run env ch.pick s).2 ∧ (r = (q.run env ch.pick s).1 ∨ r = none)) := by
  rcases exec_fault h with ⟨_, hfailed⟩ | ⟨_, heffect⟩
  · exact .inl hfailed
  · exact .inr heffect

/-- A statement that answered was executed. -/
theorem exec_answered {q : Sql} {r : q.Res} (h : exec env ch s (.sql q) = some (some r, s')) :
    q.run env ch.pick s = (some r, s') := by
  rcases exec_sql h with ⟨hr, _⟩ | ⟨hs, hr | hr⟩
  · cases hr
  · exact Prod.ext hr.symm hs.symm
  · cases hr

/-- What an operation does apart from the tables: a command of its own to Redis, or a token or a
UUID that is remembered. -/
structure LeavesTables (op : Op) (s s' : Store) : Prop where
  users : s'.users = s.users
  sessions : s'.sessions = s.sessions
  otp_codes : s'.otp_codes = s.otp_codes
  clock : s'.clock = s.clock
  redis : s'.redis = s.redis ∨
    ∃ cmd, op = .redis cmd ∧ s'.redis = (Redis.run s.clock s.redis cmd).2
  generated : s.generated ⊆ s'.generated
  minted : s.minted ⊆ s'.minted

theorem LeavesTables.refl (op : Op) (s : Store) : LeavesTables op s s :=
  ⟨rfl, rfl, rfl, rfl, .inl rfl, fun _ hx => hx, fun _ hx => hx⟩

/-- **What one operation can do**: the effect of a statement, or nothing to the tables. -/
theorem exec_cases {op : Op} {r : op.Res} (h : exec env ch s op = some (r, s')) :
    LeavesTables op s s' ∨ ∃ q, op = .sql q ∧ s' = (q.run env ch.pick s).2 := by
  cases op with
  | sql q =>
    rcases exec_sql h with ⟨_, rfl⟩ | ⟨rfl, _⟩
    · exact .inl (.refl _ _)
    · exact .inr ⟨q, rfl, rfl⟩
  | redis cmd =>
    left
    unfold exec at h
    cases hf : ch.fault <;> rw [hf] at h <;> cases h
    · exact { LeavesTables.refl (.redis cmd) s with redis := .inr ⟨cmd, rfl, rfl⟩ }
    · exact .refl _ _
    · exact { LeavesTables.refl (.redis cmd) s with redis := .inr ⟨cmd, rfl, rfl⟩ }
  | now_v7 =>
    left
    simp only [exec] at h
    split at h <;> cases h
    exact { LeavesTables.refl .now_v7 s with minted := fun _ hx => List.mem_cons_of_mem _ hx }
  | random_hex =>
    left
    simp only [exec] at h
    split at h
    · cases h
      exact .refl _ _
    · split at h <;> cases h
      exact { LeavesTables.refl .random_hex s with
        generated := fun _ hx => List.mem_cons_of_mem _ hx }
  | utc_now | random_draws | salt | sign | send_sms =>
    cases h
    exact .inl (.refl _ _)

/-- **What one operation can do to the sessions.** -/
theorem exec_sessions {op : Op} {r : op.Res} (h : exec env ch s op = some (r, s')) :
    SessionsChange env s op s'.sessions := by
  rcases exec_cases h with aside | ⟨q, rfl, rfl⟩
  · rw [aside.sessions]
    exact .same _
  · exact run_sessions _ _ q

/-- **What one operation can do to the codes.** -/
theorem exec_otp_codes {op : Op} {r : op.Res} (h : exec env ch s op = some (r, s')) :
    OtpCodesChange s op s'.otp_codes := by
  rcases exec_cases h with aside | ⟨q, rfl, rfl⟩
  · rw [aside.otp_codes]
    exact .same _
  · exact run_otp_codes _ _ q

theorem exec_clock {op : Op} {r : op.Res} (h : exec env ch s op = some (r, s')) :
    s'.clock = s.clock := by
  rcases exec_cases h with aside | ⟨q, rfl, rfl⟩
  · exact aside.clock
  · exact (run_frame _ _ q).2.1

theorem exec_generated {op : Op} {r : op.Res} (h : exec env ch s op = some (r, s')) :
    s.generated ⊆ s'.generated := by
  rcases exec_cases h with aside | ⟨q, rfl, rfl⟩
  · exact aside.generated
  · exact (run_frame _ _ q).2.2.1.symm ▸ fun _ hx => hx

/-- What one operation can do to Redis: a command of its own, or nothing. -/
theorem exec_redis {op : Op} {r : op.Res} (h : exec env ch s op = some (r, s')) :
    s'.redis = s.redis ∨ ∃ cmd, op = .redis cmd ∧
      s'.redis = (Redis.run s.clock s.redis cmd).2 := by
  rcases exec_cases h with aside | ⟨q, rfl, rfl⟩
  · exact aside.redis
  · exact .inl (run_frame _ _ q).1

/-- The UUIDs generated so far are remembered. -/
theorem exec_minted {op : Op} {r : op.Res} (h : exec env ch s op = some (r, s')) :
    s.minted ⊆ s'.minted := by
  rcases exec_cases h with aside | ⟨q, rfl, rfl⟩
  · exact aside.minted
  · exact (run_frame _ _ q).2.2.2.symm ▸ fun _ hx => hx

/-! ## What is kept -/

theorem becomes_revoke {p : Session → Bool} (r : Session) (at_ : Int) :
    r.Becomes (if p r then { r with revoked_at := some at_ } else r) := by
  split
  · exact ⟨rfl, fun _ => rfl⟩
  · exact .refl r

theorem becomes_consume {u : Uuid} (r : OtpCode) (at_ : Int) :
    r.Becomes (if r.id = u then { r with used_at := some at_ } else r) := by
  split
  · exact ⟨rfl, fun _ => rfl⟩
  · exact .refl r

theorem SessionsChange.becomes {op : Op} {l : List Session} (h : SessionsChange env s op l) :
    ∀ r ∈ s.sessions, ∃ r' ∈ l, r.Becomes r' := by
  intro r hr
  cases h with
  | same => exact ⟨r, hr, .refl r⟩
  | inserted => exact ⟨r, List.mem_append_left _ hr, .refl r⟩
  | revoked => exact ⟨_, List.mem_map_of_mem hr, becomes_revoke r s.now⟩

theorem OtpCodesChange.becomes {op : Op} {l : List OtpCode} (h : OtpCodesChange s op l) :
    ∀ r ∈ s.otp_codes, ∃ r' ∈ l, r.Becomes r' := by
  intro r hr
  cases h with
  | same => exact ⟨r, hr, .refl r⟩
  | inserted => exact ⟨r, List.mem_append_left _ hr, .refl r⟩
  | used => exact ⟨_, List.mem_map_of_mem hr, becomes_consume r s.now⟩

/-- **Rows stay, and stay revoked or used**, whatever is executed. -/
theorem later_follows (env : Env) : Follows (machine env) Later where
  refl := Later.refl
  trans := Later.trans
  exec h := ⟨(exec_sessions h).becomes, (exec_otp_codes h).becomes, exec_generated h,
    (exec_clock h).ge⟩
  env {e s s'} h := by
    cases e with
    | advance n =>
      cases h
      exact ⟨(Later.refl s).sessions, (Later.refl s).otp_codes, fun _ hx => hx, Nat.le_add_right _ _⟩

/-- The generated UUIDs are remembered, whatever is executed. -/
theorem minted_follows (env : Env) : Follows (machine env) fun s s' => s.minted ⊆ s'.minted where
  refl _ := List.Subset.refl _
  trans := List.Subset.trans
  exec := exec_minted
  env {e s s'} h := by
    cases e with
    | advance n =>
      cases h
      exact List.Subset.refl _

/-- The primary keys of the two tables. -/
structure Store.Keyed (s : Store) : Prop where
  sessions : (s.sessions.map (·.id)).Nodup
  otp_codes : (s.otp_codes.map (·.id)).Nodup

theorem Store.Keyed.session_eq (h : s.Keyed) {r r' : Session} (hr : r ∈ s.sessions)
    (hr' : r' ∈ s.sessions) (hid : r.id = r'.id) : r = r' :=
  List.inj_on_of_nodup_map h.sessions hr hr' hid

/-- A map that changes nothing a filter keeps, and does not change what it keeps. -/
theorem filter_map_of_fixed {α : Type} {p : α → Bool} {f : α → α} (l : List α)
    (hp : ∀ a, p (f a) = p a) (hf : ∀ a ∈ l, p a = true → f a = a) :
    (l.map f).filter p = l.filter p := by
  induction l with
  | nil => rfl
  | cons a l ih =>
    have rest := ih fun b hb => hf b (List.mem_cons_of_mem a hb)
    rw [List.map_cons, List.filter_cons, List.filter_cons, rest, hp]
    split
    · next hpa => rw [hf a List.mem_cons_self hpa]
    · rfl

theorem ids_revoke (s : Store) (p : Session → Bool) :
    (s.revoke p).sessions.map (·.id) = s.sessions.map (·.id) := by
  rw [Store.revoke, List.map_map]
  refine List.map_congr_left fun r _ => ?_
  exact (becomes_revoke r s.now).id_eq

theorem ids_consume (s : Store) (u : Uuid) :
    (s.consume u).otp_codes.map (·.id) = s.otp_codes.map (·.id) := by
  rw [Store.consume, List.map_map]
  refine List.map_congr_left fun r _ => ?_
  exact (becomes_consume r s.now).id_eq

theorem nodup_snoc {α β : Type} {l : List α} {f : α → β} {a : α} (h : (l.map f).Nodup)
    (fresh : ∀ x ∈ l, f x ≠ f a) : ((l ++ [a]).map f).Nodup := by
  rw [List.map_append, List.map_singleton, ← List.concat_eq_append, List.nodup_concat]
  refine ⟨?_, h⟩
  intro hmem
  obtain ⟨x, hx, heq⟩ := List.mem_map.mp hmem
  exact fresh x hx heq

theorem SessionsChange.nodup {op : Op} {l : List Session} (h : SessionsChange env s op l)
    (keyed : s.Keyed) : (l.map (·.id)).Nodup := by
  cases h with
  | same => exact keyed.sessions
  | inserted _ fresh => exact nodup_snoc keyed.sessions fresh
  | revoked => exact (ids_revoke s _).symm ▸ keyed.sessions

theorem OtpCodesChange.nodup {op : Op} {l : List OtpCode} (h : OtpCodesChange s op l)
    (keyed : s.Keyed) : (l.map (·.id)).Nodup := by
  cases h with
  | same => exact keyed.otp_codes
  | inserted fresh => exact nodup_snoc keyed.otp_codes fresh
  | used => exact (ids_consume s _).symm ▸ keyed.otp_codes

/-- The primary keys are kept. -/
theorem Store.Keyed.exec (h : s.Keyed) {op : Op} {r : op.Res}
    (hexec : exec env ch s op = some (r, s')) : s'.Keyed :=
  ⟨(exec_sessions hexec).nodup h, (exec_otp_codes hexec).nodup h⟩

/-! ## What a reply says -/

/-- The row is one of those a selector finds. -/
def Session.Selected (env : Env) (r : Session) (selector : String) : Prop :=
  ∃ sel, r.token_selector = some sel ∧ env.coll.same sel selector

theorem Session.Becomes.selected {r r' : Session} (h : r.Becomes r') {selector : String} :
    r'.Selected env selector ↔ r.Selected env selector := by
  rw [Session.Selected, Session.Selected, h.token_selector_eq]

/-- The columns the rotation reads. -/
def Session.read (r : Session) : SessionRow :=
  ⟨r.id.to_string, r.user_id.to_string, r.refresh_token_hash, r.revoked_at⟩

theorem limit_one_mem {α : Type} {pick : Nat} {l : List α} {a : α}
    (h : limit_one pick l = some a) : a ∈ l := List.mem_of_getElem? h

/-- Of the rows there are one is chosen. -/
theorem limit_one_some {α : Type} (pick : Nat) {l : List α} {a : α} (h : a ∈ l) :
    ∃ b, limit_one pick l = some b :=
  ⟨_, List.getElem?_eq_getElem (Nat.mod_lt pick (List.length_pos_of_mem h))⟩

theorem mem_by_selector {selector : String} {r : Session} :
    r ∈ s.by_selector env selector ↔
      r ∈ s.sessions ∧ r.Selected env selector ∧ s.now < r.expires_at := by
  simp only [Store.by_selector, List.mem_filter, Bool.and_eq_true, Option.any_eq_true,
    decide_eq_true_eq, Session.Selected]

/-- A row was found for the selector. -/
theorem exec_select_session {selector : String} {row : SessionRow}
    (h : exec env ch s (.sql (.select_session selector)) = some (some (some row), s')) :
    ∃ r ∈ s.sessions, r.Selected env selector ∧ s.now < r.expires_at ∧ row = r.read := by
  have hrun := exec_answered h
  obtain ⟨r, hr, hrow⟩ := Option.map_eq_some_iff.mp (Option.some.inj (congrArg Prod.fst hrun))
  obtain ⟨hmem, hsel, hexp⟩ := mem_by_selector.mp (limit_one_mem hr)
  exact ⟨r, hmem, hsel, hexp, hrow.symm⟩

/-- If a selector has a session that has not expired, the SELECT finds one. -/
theorem exec_select_session_found {selector : String} {r : Session}
    (hr : r ∈ s.by_selector env selector) (fault : ch.fault = .none)
    {reply : Option (Option SessionRow)}
    (h : exec env ch s (.sql (.select_session selector)) = some (reply, s')) :
    ∃ r' ∈ s.by_selector env selector, reply = some (some r'.read) := by
  obtain ⟨r', hpick⟩ := limit_one_some ch.pick hr
  refine ⟨r', limit_one_mem hpick, ?_⟩
  simp only [exec, fault, Sql.run, hpick, Option.map_some] at h
  exact (congrArg Prod.fst (Option.some.inj h)).symm

/-- Without a fault the bulk UPDATE answers. -/
theorem exec_revoke_user_answers {user_id : String} {u : Uuid}
    (hu : Uuid.UUID_TO_BIN user_id = some u) (fault : ch.fault = .none) {reply : Option Unit}
    (h : exec env ch s (.sql (.revoke_user_sessions user_id)) = some (reply, s')) :
    reply = some () := by
  simp only [exec, fault, Sql.run, hu] at h
  exact (congrArg Prod.fst (Option.some.inj h)).symm

/-- A session of the answered INSERT is there. -/
theorem exec_insert_session {v : SessionInsert}
    (h : exec env ch s (.sql (.insert_session v)) = some (some (), s')) :
    ∃ row, v.row = some row ∧ (∀ r ∈ s.sessions, r.id ≠ row.id) ∧
      s'.sessions = s.sessions ++ [row] := by
  have hrun := exec_answered h
  simp only [Sql.run] at hrun
  split at hrun
  · next row hrow =>
    split at hrun
    · next hok =>
      refine ⟨row, hrow, ?_, ?_⟩
      · intro r hr heq
        simp only [Bool.and_eq_true, Bool.not_eq_true', List.any_eq_false, beq_iff_eq] at hok
        exact hok.2 r hr heq
      · exact congrArg Store.sessions (congrArg Prod.snd hrun).symm
    · cases congrArg Prod.fst hrun
  · cases congrArg Prod.fst hrun

/-- An answered UPDATE of `revoked_at` has revoked the rows of its WHERE clause. -/
theorem exec_revokes {q : Sql} {p : Session → Bool} (hq : q.revokes env = some p)
    {r : q.Res} (h : exec env ch s (.sql q) = some (some r, s')) :
    s' = s.revoke p := by
  have hrun := exec_answered h
  cases q with
  | revoke_session id | revoke_user_sessions id =>
    simp only [Sql.revokes] at hq
    obtain ⟨u, hu, rfl⟩ := Option.map_eq_some_iff.mp hq
    simp only [Sql.run, hu] at hrun
    exact (congrArg Prod.snd hrun).symm
  | revoke_by_jti jti id =>
    simp only [Sql.revokes] at hq
    obtain ⟨u, hu, rfl⟩ := Option.map_eq_some_iff.mp hq
    simp only [Sql.run, hu] at hrun
    exact (congrArg Prod.snd hrun).symm
  | _ => cases hq

/-- Without a fault an UPDATE of `revoked_at` answers. -/
theorem exec_revokes_answers {q : Sql} {p : Session → Bool} (hq : q.revokes env = some p)
    (fault : ch.fault = .none) {reply : Option q.Res}
    (h : exec env ch s (.sql q) = some (reply, s')) : reply.isSome := by
  simp only [exec, fault] at h
  cases q with
  | revoke_session id | revoke_user_sessions id | revoke_by_jti jti id =>
    simp only [Sql.revokes] at hq
    obtain ⟨u, hu, rfl⟩ := Option.map_eq_some_iff.mp hq
    simp only [Sql.run, hu] at h
    cases h
    rfl
  | _ => cases hq

/-- After the UPDATE the rows of its WHERE clause are revoked. -/
theorem revoke_revoked {p : Session → Bool} {r : Session} (hr : r ∈ (s.revoke p).sessions)
    (hp : ∀ r₀, r₀.Becomes r → p r₀ = true ∨ r₀.revoked_at.isSome) : r.revoked_at.isSome := by
  obtain ⟨r₀, _, heq⟩ := List.mem_map.mp hr
  have hb : r₀.Becomes r := heq ▸ becomes_revoke r₀ s.now
  rcases hp r₀ hb with htrue | hsome
  · rw [← heq, if_pos htrue, Option.isSome_some]
  · exact hb.revoked hsome

theorem revoked_by_id {u : Uuid} {r : Session} (hr : r ∈ (s.revoke (·.id == u)).sessions)
    (hid : r.id = u) : r.revoked_at.isSome := by
  apply revoke_revoked hr
  intro r₀ hb
  exact .inl (beq_iff_eq.mpr (hb.id_eq ▸ hid))

theorem revoked_by_user {u : Uuid} {r : Session}
    (hr : r ∈ (s.revoke fun r => r.user_id == u && r.revoked_at.isNone).sessions)
    (huser : r.user_id = u) : r.revoked_at.isSome := by
  apply revoke_revoked hr
  intro r₀ hb
  cases hrev : r₀.revoked_at with
  | none => simp only [Option.isNone_none, Bool.and_true, beq_iff_eq, ← hb.user_id_eq, huser, true_or]
  | some _ => exact .inr rfl

theorem consumed_by_id {u : Uuid} {r : OtpCode} (hr : r ∈ (s.consume u).otp_codes)
    (hid : r.id = u) : r.used_at.isSome := by
  obtain ⟨r₀, _, heq⟩ := List.mem_map.mp hr
  have hb : r₀.Becomes r := heq ▸ becomes_consume r₀ s.now
  rw [← heq, if_pos (hb.id_eq ▸ hid), Option.isSome_some]

/-- The SELECT of a user's code answers with one of the latest. -/
theorem exec_select_latest {user_id : String} {u : Uuid} {found : Option OtpRow}
    (hu : Uuid.UUID_TO_BIN user_id = some u)
    (h : exec env ch s (.sql (.select_otp user_id)) = some (some found, s')) :
    found = (limit_one ch.pick (s.latest_otps u)).map fun r =>
      ⟨r.id.to_string, r.code_hash, r.used_at⟩ := by
  have hrun := exec_answered h
  simp only [Sql.run, hu] at hrun
  exact (Option.some.inj (congrArg Prod.fst hrun)).symm

/-- A code that it found is the user's and unused. -/
theorem exec_select_otp {user_id : String} {row : OtpRow}
    (h : exec env ch s (.sql (.select_otp user_id)) = some (some (some row), s')) :
    ∃ r ∈ s.otp_codes, Uuid.UUID_TO_BIN user_id = some r.user_id ∧ r.used_at = none ∧
      row = ⟨r.id.to_string, r.code_hash, r.used_at⟩ := by
  cases hu : Uuid.UUID_TO_BIN user_id with
  | none =>
    have hrun := exec_answered h
    simp only [Sql.run, hu] at hrun
    cases congrArg Prod.fst hrun
  | some u =>
    obtain ⟨r, hr, hrow⟩ := Option.map_eq_some_iff.mp (exec_select_latest hu h).symm
    have hmem := limit_one_mem hr
    simp only [Store.latest_otps, List.mem_filter, Bool.and_eq_true, beq_iff_eq] at hmem
    obtain ⟨⟨hcode, ⟨huser, _⟩, hunused⟩, _⟩ := hmem
    exact ⟨r, hcode, congrArg some huser.symm, Option.isNone_iff_eq_none.mp hunused, hrow.symm⟩

/-- An answered UPDATE of `used_at` has used the code. -/
theorem exec_use_otp {id : String}
    (h : exec env ch s (.sql (.use_otp id)) = some (some (), s')) :
    ∃ u, Uuid.UUID_TO_BIN id = some u ∧ s' = s.consume u := by
  have hrun := exec_answered h
  simp only [Sql.run] at hrun
  split at hrun
  · next u hu => exact ⟨u, hu, (congrArg Prod.snd hrun).symm⟩
  · cases congrArg Prod.fst hrun

/-- A row that an INSERT added is created now, for the user that it names. -/
theorem exec_insert_otp {id user_id code_hash : String}
    {expires_at : DateTime} {r : Option Unit}
    (h : exec env ch s (.sql (.insert_otp id user_id code_hash expires_at)) = some (r, s')) :
    s'.otp_codes = s.otp_codes ∨ ∃ row, Uuid.UUID_TO_BIN user_id = some row.user_id ∧
      row.created_at = s.now ∧ s'.otp_codes = s.otp_codes ++ [row] := by
  rcases exec_sql h with ⟨_, rfl⟩ | ⟨rfl, _⟩
  · exact .inl rfl
  · simp only [Sql.run]
    split
    · next u _ _ hu _ =>
      split
      · exact .inr ⟨_, hu, rfl, rfl⟩
      · exact .inl rfl
    · exact .inl rfl

/-- **What one operation can do to the codes**, with the row that an INSERT adds. -/
theorem exec_otp_rows {op : Op} {r : op.Res} (h : exec env ch s op = some (r, s')) :
    s'.otp_codes = s.otp_codes ∨
      (∃ id user_id code_hash expires_at row,
        op = .sql (.insert_otp id user_id code_hash expires_at) ∧
        Uuid.UUID_TO_BIN user_id = some row.user_id ∧ row.created_at = s.now ∧
          s'.otp_codes = s.otp_codes ++ [row]) ∨
        ∃ u, s'.otp_codes = (s.consume u).otp_codes := by
  have hchange := exec_otp_codes h
  generalize hl : s'.otp_codes = l at hchange
  cases hchange with
  | same => exact .inl rfl
  | inserted =>
    rcases exec_insert_otp h with hsame | ⟨row, huser, hcreated, hrows⟩
    · exact .inl (hl ▸ hsame)
    · exact .inr (.inl ⟨_, _, _, _, row, rfl, huser, hcreated, hl ▸ hrows⟩)
  | used => exact .inr (.inr ⟨_, rfl⟩)

/-- A generated UUID is new, and is known from now on. -/
theorem exec_now_v7 {u : Uuid} (h : exec env ch s .now_v7 = some (u, s')) :
    u ∉ s.minted ∧ u ∈ s'.minted := by
  simp only [exec] at h
  split at h
  · cases h
  · next hnew =>
    cases h
    exact ⟨hnew, List.mem_cons_self⟩

/-- A random token is new, and is known from now on. -/
theorem exec_random_hex {token : String} (h : exec env ch s .random_hex = some (some token, s')) :
    (∀ old ∈ s.generated, ¬ env.coll.same (env.sha256_hex old) (env.sha256_hex token)) ∧
      token ∈ s'.generated := by
  simp only [exec] at h
  split at h
  · cases h
  · split at h
    · cases h
    · next hnew =>
      cases h
      exact ⟨fun old hold hsame => hnew ⟨old, hold, hsame⟩, List.mem_cons_self⟩

end Kova.Auth

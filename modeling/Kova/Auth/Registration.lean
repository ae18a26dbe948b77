import Kova.Auth.FailedRotation
import Kova.Auth.Footprint
import Kova.Auth.UserLaws

/-!
# A registration that fails

`register` inserts the user and then the device, each by a statement of its own. A call that fails
leaves the two tables as they were, and can be repeated, exactly when the INSERT of the user has not
taken effect (`failed_registration_iff`). After any other failure the user is there, and the number
is refused as already registered (`left_user_refused`).
-/

set_option autoImplicit false

namespace Kova.Auth

open Conc

variable {env : Env} {S : AuthScope} {clock : Nat} {ls : List AuthLabel} {c d : AuthConf}
  {s s' : Store} {ch : Choice} {phone_number device_fingerprint : String} {steps : List AuthTaken}

/-- The INSERT takes effect: the values fit, and no user has the identifier or the number. -/
structure Insertable (env : Env) (s : Store) (id phone_number : String) (u : User) : Prop where
  parsed : Uuid.UUID_TO_BIN id = some u.id
  stored : Collation.varchar 20 phone_number = some u.phone_number
  pin : u.pin_hash = ""
  fresh : ∀ u' ∈ s.users, u'.id ≠ u.id ∧ ¬ env.coll.same u'.phone_number u.phone_number

/-- The step is an INSERT of a user that takes effect, its reply possibly lost. -/
def InsertsUser (env : Env) (y : AuthTaken) : Prop :=
  ∃ id phone_number u, y.op = .sql (.insert_user id phone_number) ∧ y.choice.fault ≠ .failed ∧
    Insertable env y.pre id phone_number u

/-- The user is there, with the device. -/
def RegisteredWith (env : Env) (s : Store) (phone_number device_fingerprint : String) : Prop :=
  ∃ u ∈ s.users, env.coll.same u.phone_number phone_number ∧
    ∃ x ∈ s.devices, x.user_id = u.id ∧ env.coll.same x.device_fingerprint device_fingerprint

/-- **A failed registration can be repeated**: the two tables are as before, and if the number was
not registered before, a call whose statements do not fail succeeds and leaves both rows. -/
structure Repeatable (env : Env) (phone_number device_fingerprint : String) (s s' : Store) :
    Prop where
  users : s'.users = s.users
  devices : s'.devices = s.devices
  again : ∀ phone, env.e164 phone_number = some phone →
    (∀ u ∈ s.users, ¬ env.coll.same u.phone_number phone) → ∀ steps p s'',
      Executes env (register env phone_number device_fingerprint) s' steps p s'' →
        p.finished = true → (∀ q, did q none ∉ steps.map Taken.did) →
          (∃ user_id, p = .ret (.registered user_id phone)) ∧
            RegisteredWith env s'' phone device_fingerprint

/-! ## The two statements -/

/-- What MySQL does for the INSERT of a user. -/
theorem run_insert_user (pick : Nat) (s : Store) (id phone : String) :
    (∃ u, Insertable env s id phone u ∧ (Sql.insert_user id phone).run env pick s =
        (some .inserted, { s with users := s.users ++ [u] })) ∨
      ((∀ u, ¬ Insertable env s id phone u) ∧
        ((Sql.insert_user id phone).run env pick s = (none, s) ∨
          (Sql.insert_user id phone).run env pick s = (some .unique_violation, s) ∧
            ∃ v stored, Uuid.UUID_TO_BIN id = some v ∧ Collation.varchar 20 phone = some stored ∧
              ∃ u ∈ s.users, u.id = v ∨ env.coll.same u.phone_number stored)) := by
  simp only [Sql.run]
  split
  · next v stored hv hstored =>
    split
    · next htaken =>
      refine .inr ⟨?_, .inr ⟨rfl, v, stored, hv, hstored, htaken⟩⟩
      intro u hins
      obtain ⟨u', hu', hsame⟩ := htaken
      obtain rfl : v = u.id := Option.some.inj (hv.symm.trans hins.parsed)
      obtain rfl : stored = u.phone_number := Option.some.inj (hstored.symm.trans hins.stored)
      exact hsame.elim (hins.fresh u' hu').1 (hins.fresh u' hu').2
    · next hfree =>
      refine .inl ⟨⟨v, stored, ""⟩, ⟨hv, hstored, rfl, ?_⟩, rfl⟩
      intro u' hu'
      exact ⟨fun hid => hfree ⟨u', hu', .inl hid⟩, fun hsame => hfree ⟨u', hu', .inr hsame⟩⟩
  · next hnone =>
    refine .inr ⟨?_, .inl rfl⟩
    intro u hins
    exact hnone u.id u.phone_number hins.parsed hins.stored

/-- **What the INSERT of a user comes to**: it takes effect, or nothing changes. -/
theorem exec_insert_user {id phone : String} {r : Option InsertResult}
    (h : exec env ch s (.sql (.insert_user id phone)) = some (r, s')) :
    (∃ u, Insertable env s id phone u ∧ ch.fault ≠ .failed ∧
        s' = { s with users := s.users ++ [u] } ∧ (r = some .inserted ∨ r = none)) ∨
      ((∀ u, Insertable env s id phone u → ch.fault = .failed) ∧ s' = s ∧ (r = none ∨
        (r = some .unique_violation ∧ ∃ v stored, Uuid.UUID_TO_BIN id = some v ∧
          Collation.varchar 20 phone = some stored ∧
            ∃ u ∈ s.users, u.id = v ∨ env.coll.same u.phone_number stored))) := by
  rcases exec_fault h with ⟨hfault, rfl, rfl⟩ | ⟨hfault, rfl, hr⟩
  · exact .inr ⟨fun _ _ => hfault, rfl, .inl rfl⟩
  · rcases @run_insert_user env ch.pick s id phone with ⟨u, hins, hrun⟩ |
      ⟨hno, hrun | ⟨hrun, htaken⟩⟩
    · rw [hrun] at hr ⊢
      exact .inl ⟨u, hins, hfault, rfl, hr⟩
    · rw [hrun] at hr ⊢
      exact .inr ⟨fun u hins => absurd hins (hno u), rfl, .inl (or_self_iff.mp hr)⟩
    · rw [hrun] at hr ⊢
      refine .inr ⟨fun u hins => absurd hins (hno u), rfl, ?_⟩
      rcases hr with hr | hr
      · exact .inr ⟨hr, htaken⟩
      · exact .inl hr

/-- An answered upsert leaves the device there, unless its identifier was taken. -/
theorem exec_upsert_device {id user_id fingerprint : String} {v : Uuid}
    (h : exec env ch s (.sql (.upsert_device id user_id fingerprint)) = some (some (), s'))
    (hv : Uuid.UUID_TO_BIN user_id = some v)
    (fresh : ∀ x ∈ s.devices, Uuid.UUID_TO_BIN id ≠ some x.id) :
    s'.users = s.users ∧ ∃ x ∈ s'.devices, x.user_id = v ∧
      env.coll.same x.device_fingerprint fingerprint := by
  have hrun := exec_answered h
  simp only [Sql.run, hv] at hrun
  split at hrun
  · next w u stored hw hu hstored =>
    obtain rfl : v = u := Option.some.inj hu
    have hsame := env.coll.same_varchar hstored
    split at hrun
    · next hknown =>
      obtain rfl := (congrArg Prod.snd hrun).symm
      obtain ⟨x, hx, hx'⟩ := List.any_eq_true.mp hknown
      refine ⟨rfl, _, List.mem_map_of_mem hx, ?_⟩
      rw [if_pos hx']
      rcases Bool.or_eq_true_iff.mp hx' with hid | hown
      · exact absurd (hw.trans (congrArg some (beq_iff_eq.mp hid).symm)) (fresh x hx)
      · obtain ⟨huser, hdevice⟩ := Bool.and_eq_true_iff.mp hown
        exact ⟨beq_iff_eq.mp huser, (of_decide_eq_true hdevice).trans hsame.symm⟩
    · split at hrun
      · obtain rfl := (congrArg Prod.snd hrun).symm
        exact ⟨rfl, _, List.mem_append_right _ List.mem_cons_self, rfl, hsame.symm⟩
      · cases congrArg Prod.fst hrun
  · cases congrArg Prod.fst hrun

/-! ## Identifiers are fresh -/

/-- The users and the devices have identifiers that were generated. -/
structure Store.Generated (s : Store) : Prop where
  users : ∀ u ∈ s.users, u.id ∈ s.minted
  devices : ∀ x ∈ s.devices, x.id ∈ s.minted

/-- The identifier that a row is inserted with was generated by the call. -/
def generates (h : List AuthDone) : Op → Prop
  | .sql (.insert_user id _) | .sql (.upsert_device id _ _) =>
    ∃ v : Uuid, id = v.to_string ∧ (⟨.now_v7, v⟩ : AuthDone) ∈ h
  | _ => True

/-- **Every handler** inserts users and devices with identifiers of its own. -/
theorem serve_generates (env : Env) (req : Request) :
    Guarded (fun h op => generates h op) (fun _ _ => True) (serve env req) [] := by
  refine (serve_steps env req).mono ?_ fun _ _ _ => trivial
  intro h op step
  by_cases hreq : ∃ phone_number fp, req = .register phone_number fp
  · obtain ⟨phone_number, fp, rfl⟩ := hreq
    cases step.registration with
    | inward inward => cases inward <;> trivial
    | @insert user_id => exact ⟨user_id, rfl, by simp⟩
    | @device _ device_id => exact ⟨device_id, rfl, by simp⟩
  · cases op with
    | sql q =>
      cases q with
      | insert_user | upsert_device => exact absurd step.may hreq
      | _ => trivial
    | _ => trivial

/-- What one operation does to the devices: the upsert, or nothing. -/
theorem exec_devices {op : Op} {r : op.Res} (h : exec env ch s op = some (r, s')) :
    s'.devices.map (·.id) = s.devices.map (·.id) ∨ ∃ id user_id fingerprint v,
      op = .sql (.upsert_device id user_id fingerprint) ∧ Uuid.UUID_TO_BIN id = some v ∧
        s'.devices.map (·.id) = s.devices.map (·.id) ++ [v] := by
  cases op with
  | sql q =>
    rcases exec_sql h with ⟨_, rfl⟩ | ⟨rfl, _⟩
    · exact .inl rfl
    · cases q with
      | upsert_device id user_id fingerprint =>
        simp only [Sql.run]
        split
        · next v u stored hv _ _ =>
          split
          · left
            rw [List.map_map]
            refine List.map_congr_left fun x _ => ?_
            simp only [Function.comp_apply]
            split <;> rfl
          · split
            · exact .inr ⟨id, user_id, fingerprint, v, rfl, hv, by simp⟩
            · exact .inl rfl
        · exact .inl rfl
      | _ =>
        left
        simp only [Sql.run]
        repeat' split
        all_goals rfl
  | redis cmd =>
    unfold exec at h
    cases hf : ch.fault <;> rw [hf] at h <;> cases h <;> exact .inl rfl
  | now_v7 =>
    simp only [exec] at h
    split at h <;> cases h
    exact .inl rfl
  | random_hex =>
    simp only [exec] at h
    split at h
    · cases h
      exact .inl rfl
    · split at h <;> cases h
      exact .inl rfl
  | utc_now | random_draws | salt | sign | send_sms =>
    cases h
    exact .inl rfl

/-- The rows of the users, after an operation whose identifier has been generated. -/
theorem users_generated {ch : Choice} {s s' : Store} {op : Op} {r : op.Res} {h : List AuthDone}
    (hexec : exec env ch s op = some (r, s')) (hguard : generates h op)
    (own : ∀ v : Uuid, (⟨.now_v7, v⟩ : AuthDone) ∈ h → v ∈ s'.minted)
    (hs : ∀ u ∈ s.users, u.id ∈ s.minted) : ∀ u ∈ s'.users, u.id ∈ s'.minted := by
  have minted := exec_minted hexec
  have hchange := exec_users hexec
  generalize s'.users = l at hchange
  cases hchange with
  | same => exact fun u hu => minted (hs u hu)
  | registered parsed =>
    obtain ⟨v, rfl, hv⟩ := hguard
    rw [Uuid.UUID_TO_BIN_to_string, Option.some.injEq] at parsed
    intro u hu
    rcases List.mem_append.mp hu with hu | hu
    · exact minted (hs u hu)
    · rw [List.mem_singleton.mp hu, ← parsed]
      exact own v hv
  | pin _ =>
    intro u hu
    obtain ⟨u₀, hu₀, rfl⟩ := List.mem_map.mp hu
    have hid := minted (hs u₀ hu₀)
    split <;> exact hid

/-- Those of the devices. -/
theorem devices_generated {ch : Choice} {s s' : Store} {op : Op} {r : op.Res} {h : List AuthDone}
    (hexec : exec env ch s op = some (r, s')) (hguard : generates h op)
    (own : ∀ v : Uuid, (⟨.now_v7, v⟩ : AuthDone) ∈ h → v ∈ s'.minted)
    (hs : ∀ x ∈ s.devices, x.id ∈ s.minted) : ∀ x ∈ s'.devices, x.id ∈ s'.minted := by
  have minted := exec_minted hexec
  have before : ∀ id ∈ s.devices.map (·.id), id ∈ s'.minted := by
    intro id hid
    obtain ⟨x, hx, rfl⟩ := List.mem_map.mp hid
    exact minted (hs x hx)
  intro x hx
  have hmem := List.mem_map_of_mem (f := (·.id)) hx
  rcases exec_devices hexec with hsame | ⟨id, user_id, fp, v, rfl, hv, hnew⟩
  · exact before x.id (hsame ▸ hmem)
  · rw [hnew] at hmem
    rcases List.mem_append.mp hmem with hmem | hmem
    · exact before x.id hmem
    · obtain ⟨w, rfl, hw⟩ := hguard
      rw [Uuid.UUID_TO_BIN_to_string, Option.some.injEq] at hv
      rw [List.mem_singleton.mp hmem, ← hv]
      exact own w hw

/-- **The identifiers of the two tables were generated**, in every run. -/
theorem run_generated (h : AuthRun env S (start clock) ls d) : d.world.store.Generated := by
  refine h.world_invariant (P := fun w => w.store.Generated) (serve_generates env) ?_ ?_
    ⟨by simp, by simp⟩
  · rintro ms c e hrun hc hpre ⟨ch, _, hexec⟩ hguard
    have hexec : exec env ch e.pre e.op = some (e.res, e.post) := hexec
    have own : ∀ v : Uuid, (⟨.now_v7, v⟩ : AuthDone) ∈ history e.tid c.world.log →
        v ∈ e.post.minted := by
      intro v hv
      obtain ⟨a, ha, _, hdid⟩ := mem_history.mp hv
      obtain ⟨_, _, _, hdrawn⟩ := hrun.did ha hdid
      have hdrawn := @exec_now_v7 env _ _ _ _ hdrawn
      exact exec_minted hexec (hpre ▸ hrun.since (minted_follows env) ha hdrawn.2)
    rw [← hpre] at hc
    exact ⟨users_generated hexec hguard own hc.users, devices_generated hexec hguard own hc.devices⟩
  · rintro ms c ⟨n⟩ s' _ hc henv
    cases henv
    exact ⟨hc.users, hc.devices⟩

/-! ## The steps of a registration -/

/-- What follows the INSERT of the user. -/
def after_insert (phone device_fingerprint : String) (user_id : Uuid) :
    Option InsertResult → Async Response
  | none => fail .Database
  | some .unique_violation => fail .PhoneAlreadyRegistered
  | some .inserted => .await .now_v7 fun device_id =>
    .await (.sql (.upsert_device device_id.to_string user_id.to_string device_fingerprint)) fun
      | none => fail .Database
      | some () => .ret (.registered user_id.to_string phone)

theorem register_await {phone : String} (hphone : env.e164 phone_number = some phone) :
    register env phone_number device_fingerprint =
      .await .now_v7 fun user_id => .await (.sql (.insert_user user_id.to_string phone))
        (after_insert phone device_fingerprint user_id) := by
  simp only [register, validate_e164, hphone]
  refine congrArg (Prog.await Op.now_v7) (funext fun user_id => ?_)
  refine congrArg (Prog.await _) (funext fun result => ?_)
  rcases result with _ | _ | _
  · rfl
  · refine congrArg (Prog.await Op.now_v7) (funext fun device_id => ?_)
    refine congrArg (Prog.await _) (funext fun reply => ?_)
    cases reply <;> rfl
  · rfl

theorem drifts_tables (h : (machine env).Drifts s s') :
    s'.users = s.users ∧ s'.devices = s.devices ∧ s'.minted = s.minted := by
  obtain ⟨n, rfl⟩ := drifts_time h
  exact ⟨rfl, rfl, rfl⟩

/-- The generation of an identifier leaves the tables alone. -/
theorem now_v7_tables {v : Uuid} (h : exec env ch s .now_v7 = some (v, s')) :
    s'.users = s.users ∧ s'.devices = s.devices := by
  simp only [exec] at h
  split at h <;> cases h
  exact ⟨rfl, rfl⟩

/-- **What a registration executes**: an identifier, the INSERT of the user, and what follows. -/
theorem registration_steps {phone : String} {p : Async Response}
    (hphone : env.e164 phone_number = some phone)
    (h : Executes env (register env phone_number device_fingerprint) s steps p s')
    (hp : p.finished = true) :
    ∃ y ch v s₁ s₂ r s₃ rest, y.op = .now_v7 ∧
      steps = y :: ⟨ch, .sql (.insert_user v.to_string phone), s₂, r, s₃⟩ :: rest ∧
        v ∉ s.minted ∧ s₁.users = s.users ∧ s₁.devices = s.devices ∧ s.minted ⊆ s₁.minted ∧
          (machine env).Drifts s₁ s₂ ∧
            exec env ch s₂ (.sql (.insert_user v.to_string phone)) = some (r, s₃) ∧
              Executes env (after_insert phone device_fingerprint v r) s₃ rest p s' := by
  rw [register_await hphone] at h
  obtain ⟨ch₀, s₀, v, s₁, steps₁, rfl, drift₀, hdrawn, h⟩ := h.first hp
  obtain ⟨ch, s₂, r, s₃, rest, rfl, drift, hinsert, h⟩ := h.first hp
  have hdrawn : exec env ch₀ s₀ .now_v7 = some (v, s₁) := hdrawn
  obtain ⟨husers, hdevices, hminted⟩ := drifts_tables drift₀
  obtain ⟨husers', hdevices'⟩ := now_v7_tables hdrawn
  refine ⟨_, ch, v, s₁, s₂, r, s₃, rest, rfl, rfl, ?_, husers'.trans husers,
    hdevices'.trans hdevices, ?_, drift, hinsert, ?_⟩
  · rw [← hminted]
    exact (exec_now_v7 hdrawn).1
  · rw [← hminted]
    exact exec_minted hdrawn
  · exact h

/-- A call that inserted its user, and whose statements are all answered, ends with the device. -/
theorem inserted_ends {phone : String} {v : Uuid} {p : Async Response}
    (gen : ∀ x ∈ s.devices, x.id ∈ s.minted)
    (h : Executes env (after_insert phone device_fingerprint v (some .inserted)) s steps p s')
    (hp : p.finished = true) (answered : ∀ q, did q none ∉ steps.map Taken.did) :
    p = .ret (.registered v.to_string phone) ∧ s'.users = s.users ∧
      ∃ x ∈ s'.devices, x.user_id = v ∧ env.coll.same x.device_fingerprint device_fingerprint := by
  obtain ⟨ch₀, s₀, w, s₁, steps₁, rfl, drift₀, hdrawn, h⟩ := h.first hp
  obtain ⟨ch, s₂, r, s₃, rest, rfl, drift, hupsert, h⟩ := h.first hp
  have hdrawn : exec env ch₀ s₀ .now_v7 = some (w, s₁) := hdrawn
  obtain ⟨husers₀, hdevices₀, hminted₀⟩ := drifts_tables drift₀
  obtain ⟨husers₁, hdevices₁⟩ := now_v7_tables hdrawn
  obtain ⟨husers₂, hdevices₂, _⟩ := drifts_tables drift
  cases r with
  | none =>
    exact absurd (List.mem_cons_of_mem _ List.mem_cons_self) (answered _)
  | some r =>
    obtain ⟨rfl, _, hdrift⟩ := h.ended rfl
    obtain ⟨husers', hdevices', _⟩ := drifts_tables hdrift
    have hfresh := (exec_now_v7 hdrawn).1
    have fresh : ∀ x ∈ s₂.devices, Uuid.UUID_TO_BIN (Uuid.to_string w) ≠ some x.id := by
      intro x hx heq
      have hid : w = x.id := Option.some.inj ((Uuid.UUID_TO_BIN_to_string w).symm.trans heq)
      rw [hdevices₂, hdevices₁, hdevices₀] at hx
      rw [hminted₀, hid] at hfresh
      exact hfresh (gen x hx)
    obtain ⟨husers₃, x, hx, howner⟩ :=
      exec_upsert_device hupsert (Uuid.UUID_TO_BIN_to_string v) fresh
    refine ⟨rfl, ?_, x, hdevices' ▸ hx, howner⟩
    rw [husers', husers₃, husers₂, husers₁, husers₀]

/-- **A registration of a free number whose statements do not fail succeeds**, with both rows. -/
theorem registration_succeeds {phone : String} {p : Async Response} (gen : s.Generated)
    (hphone : env.e164 phone_number = some phone)
    (free : ∀ u ∈ s.users, ¬ env.coll.same u.phone_number phone)
    (h : Executes env (register env phone_number device_fingerprint) s steps p s')
    (hp : p.finished = true) (answered : ∀ q, did q none ∉ steps.map Taken.did) :
    (∃ user_id, p = .ret (.registered user_id phone)) ∧
      RegisteredWith env s' phone device_fingerprint := by
  obtain ⟨y, ch, v, s₁, s₂, r, s₃, rest, _, rfl, hfresh, husers, hdevices, hminted, drift, hinsert,
    h⟩ := registration_steps hphone h hp
  obtain ⟨husers₂, hdevices₂, hminted₂⟩ := drifts_tables drift
  rw [husers] at husers₂
  rw [hdevices] at hdevices₂
  have unanswered : r ≠ none := by
    rintro rfl
    exact absurd (List.mem_cons_of_mem _ List.mem_cons_self) (answered _)
  rcases exec_insert_user hinsert with ⟨u, hins, _, rfl, hr⟩ | ⟨_, _, hr⟩
  · obtain rfl : r = some .inserted := hr.resolve_right unanswered
    obtain rfl : v = u.id :=
      Option.some.inj ((Uuid.UUID_TO_BIN_to_string v).symm.trans hins.parsed)
    have gen' : ∀ x ∈ s₂.devices, x.id ∈ s₂.minted := by
      intro x hx
      rw [hdevices₂] at hx
      rw [hminted₂]
      exact hminted (gen.devices x hx)
    have answered' : ∀ q, did q none ∉ rest.map Taken.did := fun q hq =>
      answered q (List.mem_cons_of_mem _ (List.mem_cons_of_mem _ hq))
    obtain ⟨rfl, husers', x, hx, howner⟩ :=
      inserted_ends (s := { s₂ with users := s₂.users ++ [u] }) gen' h hp answered'
    refine ⟨⟨_, rfl⟩, u, ?_, (env.coll.same_varchar hins.stored).symm, x, hx, howner⟩
    rw [husers']
    exact List.mem_append_right _ List.mem_cons_self
  · rcases hr with rfl | ⟨_, w, stored, hw, hstored, u, hu, htaken⟩
    · exact absurd rfl unanswered
    · obtain rfl : v = w := Option.some.inj ((Uuid.UUID_TO_BIN_to_string v).symm.trans hw)
      rw [husers₂] at hu
      rcases htaken with rfl | hsame
      · exact absurd (gen.users u hu) hfresh
      · exact absurd (hsame.trans (env.coll.same_varchar hstored).symm) (free u hu)

/-! ## A call that fails -/

/-- The store a registration leaves is one of the service's. -/
theorem registration_reached {p : Async Response} (h : AuthRun env .all (start clock) ls c)
    (call : Executes env (register env phone_number device_fingerprint) c.world.store steps p s') :
    ∃ ms d, AuthRun env .all (start clock) ms d ∧ d.world.store = s' := by
  have served : Executes env (serve env (.register phone_number device_fingerprint))
      c.world.store steps p s' := call
  exact Performs.reachable (fun _ _ _ _ _ => rfl) h served

/-- A user is left that was not there before, under the number. -/
def LeavesUser (env : Env) (phone_number : String) (s s' : Store) : Prop :=
  ∃ u ∈ s'.users, u.id ∉ s.minted ∧
    ∃ phone, env.e164 phone_number = some phone ∧ env.coll.same u.phone_number phone

/-- **What a failed call comes to**: it executed no INSERT of a user with effect and left the tables
alone, or it executed one and left the user. -/
theorem registration_comes_to {e : AuthError}
    (h : Executes env (register env phone_number device_fingerprint) s steps (fail e) s') :
    ((¬ ∃ y ∈ steps, InsertsUser env y) ∧ s'.users = s.users ∧ s'.devices = s.devices) ∨
      ((∃ y ∈ steps, InsertsUser env y) ∧ LeavesUser env phone_number s s') := by
  cases hphone : env.e164 phone_number with
  | none =>
    have hregister : register env phone_number device_fingerprint = fail .InvalidPhoneFormat := by
      simp only [register, validate_e164, hphone]
      rfl
    rw [hregister] at h
    obtain ⟨_, rfl, hdrift⟩ := h.ended rfl
    obtain ⟨husers, hdevices, _⟩ := drifts_tables hdrift
    exact .inl ⟨by simp, husers, hdevices⟩
  | some phone =>
    obtain ⟨y, ch, v, s₁, s₂, r, s₃, rest, hy, rfl, hfresh, husers, hdevices, _, drift, hinsert,
      hrest⟩ := registration_steps hphone h rfl
    obtain ⟨husers₂, hdevices₂, _⟩ := drifts_tables drift
    rcases exec_insert_user hinsert with ⟨u, hins, hfault, rfl, _⟩ | ⟨hno, rfl, hr⟩
    · refine .inr ⟨⟨_, List.mem_cons_of_mem _ List.mem_cons_self, _, _, u, rfl, hfault, hins⟩, ?_⟩
      obtain rfl : v = u.id :=
        Option.some.inj ((Uuid.UUID_TO_BIN_to_string v).symm.trans hins.parsed)
      obtain ⟨u', hu', hid, hnumber⟩ :=
        hrest.follows (users_stay env) u (List.mem_append_right _ List.mem_cons_self)
      refine ⟨u', hu', hid ▸ hfresh, phone, hphone, ?_⟩
      rw [hnumber]
      exact (env.coll.same_varchar hins.stored).symm
    · have hend : (after_insert phone device_fingerprint v r).finished = true := by
        rcases hr with rfl | ⟨rfl, _⟩ <;> rfl
      obtain ⟨_, rfl, hdrift⟩ := hrest.ended hend
      obtain ⟨husers', hdevices', _⟩ := drifts_tables hdrift
      refine .inl ⟨?_, husers'.trans (husers₂.trans husers),
        hdevices'.trans (hdevices₂.trans hdevices)⟩
      rintro ⟨y', hy', id, number, u, hop, hfault, hins⟩
      rcases List.mem_cons.mp hy' with rfl | hy'
      · rw [hy] at hop
        cases hop
      · obtain rfl := List.mem_singleton.mp hy'
        cases hop
        exact hfault (hno u hins)

/-- **The number of a user left behind is refused**: the call made again inserts nothing. -/
theorem left_user_refused {s₀ : Store} {p : Async Response} {fingerprint : String}
    (left : LeavesUser env phone_number s₀ s)
    (h : Executes env (register env phone_number fingerprint) s steps p s')
    (hp : p.finished = true) (answered : ∀ q, did q none ∉ steps.map Taken.did) :
    p = fail .PhoneAlreadyRegistered ∧ s'.users = s.users ∧ s'.devices = s.devices := by
  obtain ⟨u, hu, _, phone, hphone, hsame⟩ := left
  obtain ⟨y, ch, v, s₁, s₂, r, s₃, rest, _, rfl, _, husers, hdevices, _, drift, hinsert, hrest⟩ :=
    registration_steps hphone h hp
  obtain ⟨husers₂, hdevices₂, _⟩ := drifts_tables drift
  rcases exec_insert_user hinsert with ⟨u', hins, _, _, _⟩ | ⟨_, rfl, rfl | ⟨rfl, _⟩⟩
  · have hthere : u ∈ s₂.users := by rwa [husers₂, husers]
    exact absurd (hsame.trans (env.coll.same_varchar hins.stored)) (hins.fresh u hthere).2
  · exact absurd (List.mem_cons_of_mem _ List.mem_cons_self) (answered _)
  · obtain ⟨rfl, _, hdrift⟩ := hrest.ended rfl
    obtain ⟨husers', hdevices', _⟩ := drifts_tables hdrift
    exact ⟨rfl, husers'.trans (husers₂.trans husers), hdevices'.trans (hdevices₂.trans hdevices)⟩

/-- **A failed registration can be repeated exactly when no INSERT of a user took effect.** -/
theorem failed_registration_iff (env : Env) (clock : Nat) (ls : List AuthLabel) (c : AuthConf)
    (h : AuthRun env .all (start clock) ls c) (phone_number device_fingerprint : String)
    (steps : List AuthTaken) (e : AuthError) (s' : Store)
    (call : Executes env (register env phone_number device_fingerprint) c.world.store steps
      (fail e) s') :
    Repeatable env phone_number device_fingerprint c.world.store s' ↔
      ¬ ∃ y ∈ steps, InsertsUser env y := by
  rcases registration_comes_to call with ⟨hno, husers, hdevices⟩ | ⟨hins, u, hu, hfresh, _⟩
  · refine ⟨fun _ => hno, fun _ => ⟨husers, hdevices, ?_⟩⟩
    intro phone hphone free steps' p s'' retry hp answered
    obtain ⟨ms, d, hrun, rfl⟩ := registration_reached h call
    rw [← husers] at free
    exact registration_succeeds (run_generated hrun) hphone free retry hp answered
  · refine ⟨fun again => ?_, fun hno => absurd hins hno⟩
    rw [again.users] at hu
    exact absurd ((run_generated h).users u hu) hfresh

/-! ## A registration without its device -/

/-- A registration executed with these choices. -/
def registration_performed (choices : List Choice) :
    Option (List AuthTaken × Async Response × Store) :=
  (machine sample).perform 0 choices (register sample "+2348012345678" "phone")
    sample_start.world.store

/-- The registration fails, and a test of its steps and of the store it leaves. -/
theorem registration_fails (choices : List Choice) (P : List AuthTaken → Store → Bool)
    (h : (registration_performed choices).any (fun (steps, p, s') =>
      decide (p.result? = some (.error (.error .Database))) && P steps s') = true) :
    ∃ steps s', Executes sample (register sample "+2348012345678" "phone")
      sample_start.world.store steps (fail .Database) s' ∧ P steps s' = true := by
  obtain ⟨⟨steps, p, s'⟩, hperform, htest⟩ := (Option.any_eq_true _ _).mp h
  obtain ⟨hres, hP⟩ := Bool.and_eq_true_iff.mp htest
  have hp := Prog.raised_of_result? (of_decide_eq_true hres)
  subst hp
  exact ⟨steps, s', performs_of_perform hperform, hP⟩

/-- An INSERT of a user would have failed without effect. -/
def fails_insert (y : AuthTaken) : Bool :=
  match y.op with
  | .sql (.insert_user _ _) => y.choice.fault = .failed
  | _ => true

theorem not_inserts {y : AuthTaken} (h : fails_insert y = true) : ¬ InsertsUser env y := by
  rintro ⟨id, number, u, hop, hfault, _⟩
  simp only [fails_insert, hop, decide_eq_true_eq] at h
  exact hfault h

/-- The equivalence where the INSERT of the user fails. -/
theorem failed_registration_user : ∃ s',
    Repeatable sample "+2348012345678" "phone" sample_start.world.store s' := by
  obtain ⟨steps, s', call, hfails⟩ :=
    registration_fails [{ uuid := .low 1 }, { fault := .failed }]
      (fun steps _ => steps.all fails_insert) (by decide +kernel)
  refine ⟨s', (failed_registration_iff sample _ [] sample_start (.nil _) "+2348012345678" "phone"
    steps _ s' call).mpr ?_⟩
  rintro ⟨y, hy, hins⟩
  exact not_inserts (List.all_eq_true.mp hfails y hy) hins

/-- The INSERT of the device fails, and the user stays. -/
theorem failed_device_loses_number :
    ¬ ∀ (env : Env) (clock : Nat) (ls : List AuthLabel) (c : AuthConf),
      AuthRun env .all (start clock) ls c → ∀ (phone_number device_fingerprint : String)
        (steps : List AuthTaken) (e : AuthError) (s' : Store),
          Executes env (register env phone_number device_fingerprint) c.world.store steps
            (fail e) s' →
              Repeatable env phone_number device_fingerprint c.world.store s' := by
  intro claim
  obtain ⟨steps, s', call, hchanged⟩ :=
    registration_fails ({ uuid := .low 1 } :: {} :: { uuid := .low 2 } :: [{ fault := .failed }])
      (fun _ s' => decide (s'.users ≠ sample_start.world.store.users)) (by decide +kernel)
  have again := claim sample _ [] sample_start (.nil _) "+2348012345678" "phone" steps _ s' call
  exact of_decide_eq_true hchanged again.users

end Kova.Auth

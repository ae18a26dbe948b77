import Kova.Auth.Footprint
import Kova.Auth.LatestCode
import Kova.Auth.OtpUse
import Kova.Auth.UserLaws

/-!
# The PIN in force

`pin_set` and `pin_change` read `pin_hash` and check it, verify a code, compute an Argon2 hash, and
then write `pin_hash` by the user's identifier alone. If nothing changes the user's PIN between a
call's reading and its writing, every write respects the PIN in force, and the calls that wrote can
be put in an order in which each of them is legal (`pin_writes_respected`). The UPDATE does not ask
for it: of two overlapping calls of `pin_set` both succeed (`overlapping_pin_sets`).
-/

set_option autoImplicit false

namespace Kova.Auth

open Conc

variable {env : Env} {S : AuthScope} {clock : Nat} {ls : List AuthLabel} {d : AuthConf} {u : Uuid}

/-- The PIN hash stored for a user. -/
def Store.pin_of (s : Store) (u : Uuid) : Option String :=
  (s.users.find? (·.id == u)).map (·.pin_hash)

/-- The event reads the PIN hash of the user. -/
def reads_pin (u : Uuid) (e : AuthEvent) : Bool :=
  match e.op with
  | .sql (.select_pin_hash user_id) => Uuid.UUID_TO_BIN user_id == some u
  | _ => false

/-- The event is an UPDATE of the PIN hash of the user. -/
def updates_pin (u : Uuid) (e : AuthEvent) : Bool :=
  match e.op with
  | .sql (.update_pin_hash _ user_id) => Uuid.UUID_TO_BIN user_id == some u
  | _ => false

/-- **No event between a call's reading of the user's PIN hash and its UPDATE changes it.** -/
def PinKept (u : Uuid) (log : List AuthEvent) : Prop :=
  ∀ before read between update after,
    log = before ++ read :: (between ++ update :: after) → read.tid = update.tid →
      reads_pin u read = true → updates_pin u update = true →
        ∀ x ∈ between, x.post.pin_of u = x.pre.pin_of u

/-- The event stored this PIN hash for the user. -/
def StoresPin (u : Uuid) (e : AuthEvent) (stored : String) : Prop :=
  ∃ pin_hash user_id, e.op = .sql (.update_pin_hash pin_hash user_id) ∧
    Uuid.UUID_TO_BIN user_id = some u ∧ Collation.varchar 255 pin_hash = some stored ∧
      e.post.pin_of u = some stored

/-- A call that stored a PIN, and the hash it stored. -/
structure PinWrite where
  tid : Nat
  req : Request
  pin_hash : String

/-- The hash is one of the request's new PIN. -/
def PinWrite.Hashed (env : Env) (w : PinWrite) : Prop :=
  ∃ new_pin salt pin_hash, w.req.new_pin = some new_pin ∧
    env.argon2_hash salt new_pin = .ok pin_hash ∧ Collation.varchar 255 pin_hash = some w.pin_hash

/-- **The calls in an order in which each is legal**, for a user who begins without a PIN, and the
PIN hash after them. -/
inductive InTurn (env : Env) : List PinWrite → String → Prop
  | start : InTurn env [] ""
  | next {ws : List PinWrite} {pin_hash : String} {w : PinWrite} : InTurn env ws pin_hash →
      w.req.Allowed env pin_hash → w.Hashed env → InTurn env (ws ++ [w]) w.pin_hash

/-- Call `t` succeeded with a request that stores a PIN for the user. -/
def SetsPin (d : AuthConf) (u : Uuid) (t : Nat) (req : Request) : Prop :=
  req.sets_pin = true ∧ req.auth.bind caller = some u ∧ ∃ resp, d.returned t req (.ok resp)

/-- The write took effect and its reply was lost. -/
def ReplyLost (d : AuthConf) (u : Uuid) (w : PinWrite) : Prop :=
  ∃ e ∈ d.world.log, e.tid = w.tid ∧ e.req = w.req ∧ StoresPin u e w.pin_hash ∧
    ∃ q, e.did = did q none

/-- **The PIN in force is respected**: every call that succeeded wrote where its request was
allowed, and these calls, with those whose reply was lost, can be arranged legally. -/
structure PinRespected (env : Env) (u : Uuid) (d : AuthConf) : Prop where
  legal : ∀ t req, SetsPin d u t req → ∃ e ∈ d.world.log, e.tid = t ∧
    (∃ stored, StoresPin u e stored) ∧ ∃ pin, e.pre.pin_of u = some pin ∧ req.Allowed env pin
  order : ∃ ws pin, InTurn env ws pin ∧ (ws.map (·.tid)).Nodup ∧
    (∀ t req, SetsPin d u t req → ∃ w ∈ ws, w.tid = t ∧ w.req = req) ∧
      ∀ w ∈ ws, SetsPin d u w.tid w.req ∨ ReplyLost d u w

/-! ## The handlers -/

/-- No PIN was written. -/
def Unwritten (h : List AuthDone) : Prop :=
  ∀ x ∈ h, ∀ pin_hash user_id, x.op ≠ .sql (.update_pin_hash pin_hash user_id)

theorem Unwritten.snoc {h : List AuthDone} (hn : Unwritten h) {x : AuthDone}
    (hx : ∀ pin_hash user_id, x.op ≠ .sql (.update_pin_hash pin_hash user_id)) :
    Unwritten (h ++ [x]) :=
  List.forall_mem_append.mpr ⟨hn, List.forall_mem_singleton.mpr hx⟩

/-- What a call has read that allows its request. -/
def ReadAllowed (env : Env) (req : Request) (h : List AuthDone) (user_id : String) : Prop :=
  Uuid.UUID_TO_BIN user_id = req.auth.bind caller ∧
    ∃ pin, did (.select_pin_hash user_id) (some (some pin)) ∈ h ∧ req.Allowed env pin

/-- What comes before an operation: before the UPDATE of a PIN hash its check; after it nothing. -/
def pin_checked (env : Env) (req : Request) (h : List AuthDone) (op : Op) : Prop :=
  (req.sets_pin = true → Unwritten h) ∧
    ∀ pin_hash user_id, op = .sql (.update_pin_hash pin_hash user_id) →
      req.sets_pin = true ∧ ReadAllowed env req h user_id ∧
        ∃ new_pin salt, req.new_pin = some new_pin ∧ env.argon2_hash salt new_pin = .ok pin_hash

/-- A call succeeds exactly if its UPDATE was answered. -/
def PinAnswer (req : Request) (h : List AuthDone) (r : Except Failure Response) : Prop :=
  req.sets_pin = true → ((∃ resp, r = .ok resp) ↔
    ∃ pin_hash user_id, did (.update_pin_hash pin_hash user_id) (some ()) ∈ h)

section Steps

variable {req : Request} {h : List AuthDone}

/-- An operation that writes no PIN. -/
theorem Unwritten.checked (hn : Unwritten h) {op : Op}
    (hop : ∀ pin_hash user_id, op ≠ .sql (.update_pin_hash pin_hash user_id)) :
    pin_checked env req h op :=
  ⟨fun _ => hn, fun pin_hash user_id heq => absurd heq (hop pin_hash user_id)⟩

/-- An error before the UPDATE. -/
theorem Unwritten.failed (hn : Unwritten h) (e : Failure) : PinAnswer req h (.error e) := by
  intro _
  constructor
  · rintro ⟨resp, hresp⟩
    cases hresp
  · rintro ⟨pin_hash, user_id, hmem⟩
    exact absurd rfl (hn _ hmem pin_hash user_id)

theorem unwritten_pin (claims : KovaClaims) (now : DateTime) (pin_hash : String) :
    Unwritten (pin_read claims now pin_hash) := by
  simp [Unwritten, pin_read, did]

theorem Unwritten.check_done (hn : Unwritten h) {user_id : String} {row : OtpRow}
    {used : Option Unit} : Unwritten (check_done user_id h row used) :=
  (hn.snoc (by simp [did])).snoc (by simp [did])

theorem PinStep.checked {auth : Jwt.AuthHeader} {claims : KovaClaims} {now : DateTime}
    {new_pin otp_code : String} {op : Op}
    (step : PinStep env req claims now new_pin otp_code h op) (header : req.auth = some auth)
    (accepted : Accepted env auth now claims) (sets : req.new_pin = some new_pin)
    (sets_pin : req.sets_pin = true) : pin_checked env req h op := by
  cases step with
  | read => exact Unwritten.checked (by simp [Unwritten]) (by simp)
  | @check pin_hash _ _ _ step =>
    have unwritten := unwritten_pin claims now pin_hash
    cases step with
    | read => exact unwritten.checked (by simp)
    | use => exact (unwritten.snoc (by simp [did])).checked (by simp)
  | salt => exact (unwritten_pin _ _ _).check_done.checked (by simp)
  | @store pin_hash salt new_hash row allows _ hashed =>
    refine ⟨fun _ => (unwritten_pin _ _ _).check_done.snoc (by simp), ?_⟩
    rintro _ _ ⟨⟩
    refine ⟨sets_pin, ⟨?_, pin_hash, ?_, allows.allowed⟩, new_pin, salt, sets, hashed⟩
    · rw [header]
      exact caller_of_claims accepted
    · exact List.mem_append_left _ (List.mem_append_left _ (List.mem_append_left _
        (List.mem_cons_of_mem _ List.mem_cons_self)))

theorem CheckEnd.unwritten {user_id otp_code : String} {h₀ : List AuthDone}
    {r : Except Failure Unit} (ends : CheckEnd env user_id otp_code h₀ h r) (hn : Unwritten h₀) :
    Unwritten h := by
  cases ends with
  | refused => exact hn.snoc (by simp [did])
  | unanswered | used => exact hn.check_done

theorem PinEnd.written {claims : KovaClaims} {now : DateTime} {otp_code : String}
    {r : Except Failure Response} (ends : PinEnd env claims now otp_code h r) :
    PinAnswer req h r := by
  cases ends with
  | invalid => exact Unwritten.failed (by simp [Unwritten]) _
  | refused => exact Unwritten.failed (by simp [Unwritten, did]) _
  | unchecked ends => exact (ends.unwritten (unwritten_pin _ _ _)).failed _
  | unhashed => exact ((unwritten_pin _ _ _).check_done.snoc (by simp)).failed _
  | @unstored pin_hash salt _ row =>
    have salted : Unwritten (check_done claims.sub (pin_read claims now pin_hash) row (some ()) ++
        [⟨.salt, salt⟩]) := (unwritten_pin _ _ _).check_done.snoc (by simp)
    intro _
    constructor
    · rintro ⟨resp, ⟨⟩⟩
    · rintro ⟨new_hash, user_id, hmem⟩
      rcases List.mem_append.mp hmem with hmem | hmem
      · exact absurd rfl (salted _ hmem new_hash user_id)
      · cases List.mem_singleton.mp hmem
  | @stored _ _ new_hash =>
    exact fun _ => ⟨fun _ => ⟨new_hash, claims.sub, List.mem_append_right _ List.mem_cons_self⟩,
      fun _ => ⟨_, rfl⟩⟩

/-- **Every handler**: a PIN is written by the two PIN handlers only, once, after its check. -/
theorem serve_pin_checked (env : Env) (req : Request) :
    Guarded (pin_checked env req) (PinAnswer req) (serve env req) [] := by
  refine (serve_steps env req).mono ?_ ?_
  · intro h op step
    by_cases sets_pin : req.sets_pin = true
    · cases step with
      | extract => exact Unwritten.checked (by simp [Unwritten]) (by simp)
      | pin header sets _ accepted step => exact step.checked header accepted sets sets_pin
      | cache revokes =>
        cases req with
        | pin_set | pin_change => cases revokes
        | _ => cases sets_pin
      | _ => cases sets_pin
    · refine ⟨fun sets => absurd sets sets_pin, ?_⟩
      rintro pin_hash user_id rfl
      exact absurd step.may sets_pin
  · intro h r ends sets_pin
    cases ends with
    | rejected => exact Unwritten.failed (by simp [Unwritten]) _ sets_pin
    | pin _ _ ends => exact ends.written sets_pin
    | _ => cases sets_pin

end Steps

/-! ## The statements -/

section Statements

variable {ch : Choice} {s s' : Store}

theorem pin_of_map (s : Store) (u v : Uuid) (stored : String) :
    Store.pin_of { s with users := s.users.map fun x =>
      if x.id = v then { x with pin_hash := stored } else x } u =
        if v = u then (s.pin_of u).map fun _ => stored else s.pin_of u := by
  simp only [Store.pin_of]
  induction s.users with
  | nil => simp
  | cons x users ih =>
    by_cases hx : x.id = u
    · by_cases hv : v = u
      · simp [hx, hv]
      · have hne : ¬ u = v := fun heq => hv heq.symm
        simp [hx, hv, hne]
    · have hsame : (if x.id = v then { x with pin_hash := stored } else x).id = x.id := by
        split <;> rfl
      rw [List.map_cons, List.find?_cons_of_neg (by simpa [hsame] using hx),
        List.find?_cons_of_neg (by simpa using hx), ih]

/-- What the UPDATE of a PIN hash does. -/
theorem exec_update_pin {pin_hash user_id : String} {r : Option Unit}
    (h : exec env ch s (.sql (.update_pin_hash pin_hash user_id)) = some (r, s')) :
    (r = none ∧ s' = s) ∨ ∃ v stored, Uuid.UUID_TO_BIN user_id = some v ∧
      Collation.varchar 255 pin_hash = some stored ∧ ∀ u,
        s'.pin_of u = if v = u then (s.pin_of u).map fun _ => stored else s.pin_of u := by
  rcases exec_sql h with hfailed | ⟨rfl, hr⟩
  · exact .inl hfailed
  · simp only [Sql.run] at hr ⊢
    split
    · next v stored hv hstored =>
      exact .inr ⟨v, stored, hv, hstored, fun u => pin_of_map s u v stored⟩
    · next hnone =>
      left
      rcases hr with hr | hr
      · split at hr
        · next v stored hv hstored => exact absurd hstored (hnone v stored hv)
        · exact ⟨hr, rfl⟩
      · exact ⟨hr, rfl⟩

/-- **What one operation can do to the PIN hash of a user.** -/
theorem exec_pin {op : Op} {r : op.Res} (h : exec env ch s op = some (r, s')) (u : Uuid) :
    s'.pin_of u = s.pin_of u ∨ (s.pin_of u = none ∧ s'.pin_of u = some "") ∨
      ∃ pin_hash user_id stored, op = .sql (.update_pin_hash pin_hash user_id) ∧
        Uuid.UUID_TO_BIN user_id = some u ∧ Collation.varchar 255 pin_hash = some stored ∧
          s'.pin_of u = some stored := by
  have hchange := exec_users h
  generalize hl : s'.users = l at hchange
  cases hchange with
  | same => exact .inl (by rw [Store.pin_of, hl, Store.pin_of])
  | @registered _ _ x _ _ hpin fresh =>
    rw [Store.pin_of, hl, List.find?_append]
    cases hfind : s.users.find? (·.id == u) with
    | some y => exact .inl (by simp [Store.pin_of, hfind])
    | none =>
      by_cases hx : x.id = u
      · exact .inr (.inl (by simp [Store.pin_of, hfind, hx, hpin]))
      · exact .inl (by simp [Store.pin_of, hfind, hx])
  | @pin user_id pin_hash _ v hv =>
    have hexec : exec env ch s (.sql (.update_pin_hash pin_hash user_id)) = some (r, s') := h
    rcases exec_update_pin hexec with ⟨_, rfl⟩ | ⟨v', stored, hv', hstored, hpost⟩
    · exact .inl rfl
    · by_cases hvu : v' = u
      · subst hvu
        have hpost := hpost v'
        rw [if_pos rfl] at hpost
        cases hpre : s.pin_of v' with
        | none => exact .inl (by rw [hpost, hpre, Option.map_none])
        | some old =>
          rw [hpre, Option.map_some] at hpost
          exact .inr (.inr ⟨pin_hash, user_id, stored, rfl, hv', hstored, hpost⟩)
      · exact .inl (by rw [hpost u, if_neg hvu])

/-- A PIN hash that was read is the user's. -/
theorem exec_select_pin {user_id pin : String}
    (h : exec env ch s (.sql (.select_pin_hash user_id)) = some (some (some pin), s')) :
    s' = s ∧ ∃ u, Uuid.UUID_TO_BIN user_id = some u ∧ s.pin_of u = some pin := by
  have hrun := exec_answered h
  simp only [Sql.run] at hrun
  split at hrun
  · next u hu =>
    exact ⟨(congrArg Prod.snd hrun).symm, u, hu, Option.some.inj (congrArg Prod.fst hrun)⟩
  · cases congrArg Prod.fst hrun

end Statements

/-! ## Over a run -/

theorem reads_pin_of_did {e : AuthEvent} {user_id : String} {found : Option (Option String)}
    (hd : e.did = did (.select_pin_hash user_id) found) (hu : Uuid.UUID_TO_BIN user_id = some u) :
    reads_pin u e = true := by
  simp only [reads_pin, show e.op = .sql (.select_pin_hash user_id) from congrArg Done.op hd, hu,
    beq_self_eq_true]

theorem updates_pin_of_op {e : AuthEvent} {pin_hash user_id : String}
    (hop : e.op = .sql (.update_pin_hash pin_hash user_id))
    (hu : Uuid.UUID_TO_BIN user_id = some u) : updates_pin u e = true := by
  simp only [updates_pin, hop, hu, beq_self_eq_true]

/-- What holds of a log held of what came before. -/
theorem PinKept.earlier {log log' : List AuthEvent} (h : PinKept u (log ++ log')) :
    PinKept u log := by
  intro before read between update after split
  exact h before read between update (after ++ log') (by simp [split])

/-- **At its UPDATE a call's check still holds**, if nothing changed the PIN since it was read. -/
theorem allowed_next {c : AuthConf} (hrun : AuthRun env S (start clock) ls c) {e : AuthEvent}
    (hpre : e.pre = c.world.store) (kept : PinKept u (c.world.log ++ [e]))
    {pin_hash user_id : String} (hop : e.op = .sql (.update_pin_hash pin_hash user_id))
    (hu : Uuid.UUID_TO_BIN user_id = some u)
    (hread : ReadAllowed env e.req (history e.tid c.world.log) user_id) :
    ∃ pin, e.pre.pin_of u = some pin ∧ e.req.Allowed env pin := by
  obtain ⟨_, pin, hmem, hallowed⟩ := hread
  obtain ⟨a, ha, hat, hdid⟩ := mem_history.mp hmem
  obtain ⟨_, _, _, hexec⟩ := hrun.did ha hdid
  obtain ⟨hsame, v, hv, hpin⟩ := exec_select_pin hexec
  obtain rfl : v = u := Option.some.inj (hv.symm.trans hu)
  obtain ⟨before, between, split⟩ := List.append_of_mem ha
  have unchanged := kept before a between e [] (by simp [split]) hat (reads_pin_of_did hdid hv)
    (updates_pin_of_op hop hu)
  have since : c.world.store.pin_of v = a.post.pin_of v := by
    refine hrun.along_after (R := fun s s' => s'.pin_of v = s.pin_of v) (fun _ => rfl) ?_ ?_ split
      unchanged
    · intro s₁ s₂ s₃ h₁₂ h₂₃
      exact h₂₃.trans h₁₂
    · rintro ⟨n⟩ s s' henv
      cases henv
      rfl
  exact ⟨pin, by rw [hpre, since, hsame, hpin], hallowed⟩

/-- The writes of a run, arranged. -/
structure Arranged (env : Env) (u : Uuid) (w : AuthWorld) (ws : List PinWrite) : Prop where
  turn : InTurn env ws ((w.store.pin_of u).getD "")
  once : (ws.map (·.tid)).Nodup
  all : ∀ e ∈ w.log, ∀ stored, StoresPin u e stored → ⟨e.tid, e.req, stored⟩ ∈ ws
  only : ∀ x ∈ ws, ∃ e ∈ w.log, e.tid = x.tid ∧ e.req = x.req ∧ StoresPin u e x.pin_hash

theorem StoresPin.unique {e : AuthEvent} {stored stored' : String} (h : StoresPin u e stored)
    (h' : StoresPin u e stored') : stored = stored' := by
  obtain ⟨_, _, _, _, _, hpost⟩ := h
  obtain ⟨_, _, _, _, _, hpost'⟩ := h'
  exact Option.some.inj (hpost.symm.trans hpost')

/-- A write comes last, the first of its call. -/
theorem Arranged.written {w : AuthWorld} {ws : List PinWrite} {e : AuthEvent} {stored : String}
    (harr : Arranged env u w ws) (hstores : StoresPin u e stored)
    (turn : InTurn env (ws ++ [⟨e.tid, e.req, stored⟩]) stored)
    (first : ∀ b ∈ w.log, b.tid = e.tid → ∀ stored', ¬ StoresPin u b stored') :
    Arranged env u (w.push e) (ws ++ [⟨e.tid, e.req, stored⟩]) := by
  have ⟨_, _, _, _, _, hpost⟩ := hstores
  refine ⟨?_, ?_, ?_, ?_⟩
  · rwa [World.push_store, hpost, Option.getD_some]
  · refine nodup_snoc harr.once ?_
    intro x hx heq
    obtain ⟨b, hb, hbt, _, hbstores⟩ := harr.only x hx
    exact first b hb (hbt.trans heq) x.pin_hash hbstores
  · intro b hb stored' hb'
    rcases List.mem_append.mp hb with hb | hb
    · exact List.mem_append_left _ (harr.all b hb stored' hb')
    · obtain rfl := List.mem_singleton.mp hb
      exact List.mem_append_right _ (hb'.unique hstores ▸ List.mem_cons_self)
  · intro x hx
    rcases List.mem_append.mp hx with hx | hx
    · obtain ⟨b, hb, hx⟩ := harr.only x hx
      exact ⟨b, List.mem_append_left _ hb, hx⟩
    · obtain rfl := List.mem_singleton.mp hx
      exact ⟨e, List.mem_append_right _ List.mem_cons_self, rfl, rfl, hstores⟩

/-- What writes no PIN leaves the arrangement. -/
theorem Arranged.passed {w : AuthWorld} {ws : List PinWrite} {e : AuthEvent}
    (harr : Arranged env u w ws) (hno : ∀ stored, ¬ StoresPin u e stored)
    (same : (e.post.pin_of u).getD "" = (w.store.pin_of u).getD "") :
    Arranged env u (w.push e) ws := by
  refine ⟨?_, harr.once, ?_, ?_⟩
  · rw [World.push_store, same]
    exact harr.turn
  · intro b hb stored hb'
    rcases List.mem_append.mp hb with hb | hb
    · exact harr.all b hb stored hb'
    · obtain rfl := List.mem_singleton.mp hb
      exact absurd hb' (hno stored)
  · intro x hx
    obtain ⟨b, hb, hx⟩ := harr.only x hx
    exact ⟨b, List.mem_append_left _ hb, hx⟩

/-- **The order in which they are executed is legal.** -/
theorem run_arranged (h : AuthRun env S (start clock) ls d) :
    PinKept u d.world.log → ∃ ws, Arranged env u d.world ws := by
  refine h.world_invariant (P := fun w => PinKept u w.log → ∃ ws, Arranged env u w ws)
    (serve_pin_checked env) ?_ ?_ ?_
  · rintro ms c e hrun ih hpre ⟨ch, _, hexec⟩ hguard kept
    obtain ⟨ws, harr⟩ := ih kept.earlier
    by_cases hstores : ∃ stored, StoresPin u e stored
    · obtain ⟨stored, hstores⟩ := hstores
      have ⟨pin_hash, user_id, hop, hu, hvarchar, _⟩ := hstores
      obtain ⟨sets, hread, new_pin, salt, hnew, hhash⟩ := hguard.2 pin_hash user_id hop
      obtain ⟨pin, hpin, hallowed⟩ := allowed_next hrun hpre kept hop hu hread
      have turn := harr.turn
      rw [← hpre, hpin, Option.getD_some] at turn
      refine ⟨_, harr.written hstores
        (.next turn hallowed ⟨new_pin, salt, pin_hash, hnew, hhash, hvarchar⟩) ?_⟩
      rintro b hb hbt stored' ⟨p, v, hbop, _⟩
      exact hguard.1 sets b.did (mem_history.mpr ⟨b, hb, hbt, rfl⟩) p v hbop
    · refine ⟨ws, harr.passed (fun stored hb => hstores ⟨stored, hb⟩) ?_⟩
      rw [← hpre]
      have hexec : exec env ch e.pre e.op = some (e.res, e.post) := hexec
      rcases exec_pin hexec u with hsame | ⟨hnone, hnew⟩ | hwritten
      · rw [hsame]
      · rw [hnone, hnew, Option.getD_none, Option.getD_some]
      · obtain ⟨pin_hash, user_id, stored, hstored⟩ := hwritten
        exact absurd ⟨stored, pin_hash, user_id, hstored⟩ hstores
  · rintro ms c ⟨n⟩ s' _ ih henv kept
    cases henv
    obtain ⟨ws, harr⟩ := ih kept
    exact ⟨ws, harr.turn, harr.once, harr.all, harr.only⟩
  · intro _
    refine ⟨[], .start, .nil, ?_, ?_⟩
    · intro e he
      cases he
    · intro x hx
      cases hx

/-- **A call that succeeded stored its PIN** where its request was allowed. -/
theorem SetsPin.stores (h : AuthRun env S (start clock) ls d) (kept : PinKept u d.world.log)
    {t : Nat} {req : Request} (hset : SetsPin d u t req) :
    ∃ e ∈ d.world.log, e.tid = t ∧ e.req = req ∧ (∃ stored, StoresPin u e stored) ∧
      ∃ pin, e.pre.pin_of u = some pin ∧ req.Allowed env pin := by
  obtain ⟨sets, hcaller, resp, hr⟩ := hset
  obtain ⟨pin_hash, user_id, hmem⟩ :=
    (h.answer (serve_pin_checked env) hr sets).mp ⟨resp, rfl⟩
  obtain ⟨e, he, hat, hdid⟩ := mem_history.mp hmem
  have hop : e.op = .sql (.update_pin_hash pin_hash user_id) := congrArg Done.op hdid
  have hreq := h.own_req (serve_pin_checked env) hr he hat
  obtain ⟨before, after, split⟩ := List.append_of_mem he
  obtain ⟨_, c, hrun, hworld, _⟩ := h.at_event (List.nil_append _).symm split
  obtain ⟨_, hread, _⟩ := (h.guard (serve_pin_checked env) split).2 pin_hash user_id hop
  have hu : Uuid.UUID_TO_BIN user_id = some u := by rw [hread.1, hreq, hcaller]
  have hlog : c.world.log = before := congrArg World.log hworld
  have earlier : PinKept u (c.world.log ++ [e]) := by
    rw [hlog]
    suffices whole : PinKept u ((before ++ [e]) ++ after) from whole.earlier
    rw [List.append_assoc, List.singleton_append, ← split]
    exact kept
  obtain ⟨pin, hpin, hallowed⟩ :=
    allowed_next hrun (congrArg World.store hworld).symm earlier hop hu (hlog ▸ hread)
  obtain ⟨_, _, _, hexec⟩ := h.did he hdid
  rcases exec_update_pin hexec with ⟨hnone, _⟩ | ⟨v, stored, hv, hstored, hpost⟩
  · cases hnone
  · obtain rfl : v = u := Option.some.inj (hv.symm.trans hu)
    have hpost := hpost v
    rw [if_pos rfl, hpin, Option.map_some] at hpost
    exact ⟨e, he, hat, hreq, ⟨stored, pin_hash, user_id, hop, hu, hstored, hpost⟩, pin, hpin,
      hreq ▸ hallowed⟩

/-- An answered UPDATE ends its call with success. -/
theorem sets_pin_of_answered (h : AuthRun env S (start clock) ls d) {e : AuthEvent}
    (he : e ∈ d.world.log) {pin_hash user_id : String}
    (hdid : e.did = did (.update_pin_hash pin_hash user_id) (some ()))
    (hu : Uuid.UUID_TO_BIN user_id = some u) : SetsPin d u e.tid e.req := by
  have hop : e.op = .sql (.update_pin_hash pin_hash user_id) := congrArg Done.op hdid
  obtain ⟨before, after, split⟩ := List.append_of_mem he
  obtain ⟨sets, hread, _⟩ := (h.guard (serve_pin_checked env) split).2 pin_hash user_id hop
  have last : ∀ hist op, e.did ∈ hist → ¬ pin_checked env e.req hist op := by
    intro hist op hmem hop'
    exact hop'.1 sets e.did hmem pin_hash user_id hop
  obtain ⟨r, hr, hanswer⟩ := h.ended (serve_pin_checked env) he last
  obtain ⟨resp, rfl⟩ :=
    (hanswer sets).mpr ⟨pin_hash, user_id, mem_history.mpr ⟨e, he, rfl, hdid⟩⟩
  exact ⟨sets, hread.1.symm.trans hu, resp, hr⟩

/-- **PIN writes respect the PIN in force**, whatever the calls are and however they interleave, if
nothing changes a user's PIN hash between a call's reading and its UPDATE of it. -/
theorem pin_writes_respected (env : Env) (clock : Nat) (ls : List AuthLabel) (d : AuthConf)
    (h : AuthRun env .all (start clock) ls d) (u : Uuid) (kept : PinKept u d.world.log) :
    PinRespected env u d := by
  refine ⟨?_, ?_⟩
  · intro t req hset
    obtain ⟨e, he, hat, _, hstores⟩ := hset.stores h kept
    exact ⟨e, he, hat, hstores⟩
  · obtain ⟨ws, harr⟩ := run_arranged h kept
    refine ⟨ws, _, harr.turn, harr.once, ?_, ?_⟩
    · intro t req hset
      obtain ⟨e, he, rfl, rfl, ⟨stored, hstored⟩, _⟩ := hset.stores h kept
      exact ⟨_, harr.all e he stored hstored, rfl, rfl⟩
    · intro w hw
      obtain ⟨e, he, hat, hreq, hstores⟩ := harr.only w hw
      have hstored := hstores
      obtain ⟨pin_hash, user_id, hop, hu, _⟩ := hstores
      obtain ⟨reply, hdid⟩ : ∃ reply, e.did = did (.update_pin_hash pin_hash user_id) reply := by
        cases e
        cases hop
        exact ⟨_, rfl⟩
      cases reply with
      | none => exact .inr ⟨e, he, hat, hreq, hstored, _, hdid⟩
      | some reply => exact .inl (hat ▸ hreq ▸ sets_pin_of_answered h he hdid hu)

/-! ## Two PINs -/

/-- Two PINs with their salts, and their Argon2id hashes with 64 MB, 3 iterations and 4 lanes. -/
def sample_pins : List ((String × String) × String) :=
  [(("ABCDEFGHIJKLMNOPQRSTUQ", "1234"),
      "$argon2id$v=19$m=65536,t=3,p=4$ABCDEFGHIJKLMNOPQRSTUQ$wnW86U3Y83Fg8TyiCoUpb9ACOO2TIJmw8QX9foSb5hY"),
   (("QRSTUVWXYZABCDEFGHIJKA", "5678"),
      "$argon2id$v=19$m=65536,t=3,p=4$QRSTUVWXYZABCDEFGHIJKA$Ot84h+P6HTeBsLhqJTH+M02bU2An3OVKKziLpVrwAs8")]

/-- The sample of two codes, with the hashes of two PINs. -/
def two_pins : Env :=
  { two_codes with
    argon2_hash := fun salt pin =>
      match sample_pins.lookup (salt, pin) with
      | some hash => .ok hash
      | none => .error "OutOfMemory"
    argon2_verify := fun pin hash => .ok (sample_pins.any fun p => p.1.2 == pin && p.2 == hash) }

/-- The user of the sample logs in, and ten minutes later asks for two codes within a second. -/
def two_codes_sent : List AuthLabel :=
  sample_login ++ (.env (.advance 601000000000) ::
    .spawn (.otp_request "+2348012345678" "phone") ::
      .spawn (.otp_request "+2348012345678" "phone") :: .run 3 {} :: .run 4 {} ::
        (((asking 123456 20 []).tail.map (.run 3)) ++
          (.env (.advance 1000000000) :: ((asking 654321 21 []).tail.map (.run 4)))))

/-- What a PIN handler draws, up to its use of the code, and after it. -/
def confirming (t : Nat) : List AuthLabel := [.run t {}, .run t {}, .run t {}, .run t {}]

def storing (t : Nat) (salt : String) : List AuthLabel := [.run t { text := salt }, .run t {}]

/-- The user sets a PIN, and changes it. -/
def pin_set_and_changed : List AuthLabel :=
  two_codes_sent ++
    (.spawn (.pin_set sample_bearer "1234" "654321") ::
      (confirming 5 ++ storing 5 "ABCDEFGHIJKLMNOPQRSTUQ" ++
        (.spawn (.pin_change sample_bearer "1234" "5678" "123456") ::
          (confirming 6 ++ storing 6 "QRSTUVWXYZABCDEFGHIJKA"))))

/-- Whether the user's PIN hash stays the same up to the last UPDATE of call `t`. -/
def kept_for (u : Uuid) (t : Nat) : List AuthEvent → Bool
  | [] => true
  | x :: es =>
    (x.post.pin_of u == x.pre.pin_of u || !es.any fun e => e.tid == t && updates_pin u e) &&
      kept_for u t es

/-- Whether it does for every call that has read it. -/
def pin_kept (u : Uuid) : List AuthEvent → Bool
  | [] => true
  | a :: es => (!reads_pin u a || kept_for u a.tid es) && pin_kept u es

theorem kept_for_sound {t : Nat} {update : AuthEvent} {after : List AuthEvent}
    (ht : update.tid = t) (hup : updates_pin u update = true) : ∀ {between : List AuthEvent},
      kept_for u t (between ++ update :: after) = true →
        ∀ x ∈ between, x.post.pin_of u = x.pre.pin_of u
  | [], _ => by simp
  | y :: between, h => by
    rw [List.cons_append, kept_for, Bool.and_eq_true] at h
    obtain ⟨hy, hrest⟩ := h
    intro x hx
    rcases List.mem_cons.mp hx with rfl | hx
    · rcases Bool.or_eq_true_iff.mp hy with hsame | hnone
      · exact beq_iff_eq.mp hsame
      · have hsome : (between ++ update :: after).any
            (fun e => e.tid == t && updates_pin u e) = true :=
          List.any_eq_true.mpr ⟨update, by simp, by simp [ht, hup]⟩
        rw [hsome] at hnone
        cases hnone
    · exact kept_for_sound ht hup hrest x hx

theorem pin_kept_sound {log : List AuthEvent} (h : pin_kept u log = true) : PinKept u log := by
  intro before read between update after split ht hread hup
  subst split
  induction before with
  | nil =>
    obtain ⟨hkept, _⟩ := Bool.and_eq_true_iff.mp h
    rw [hread, Bool.not_true, Bool.false_or] at hkept
    exact kept_for_sound ht.symm hup hkept
  | cons a before ih => exact ih (Bool.and_eq_true_iff.mp h).2

theorem set_and_changed_kept :
    AuthRun two_pins .all sample_start pin_set_and_changed
        (replayed (machine two_pins) (serve two_pins) sample_start pin_set_and_changed) ∧
      pin_kept (.low 1) (replayed (machine two_pins) (serve two_pins) sample_start
        pin_set_and_changed).world.log = true :=
  replayed_spec (machine two_pins) (serve two_pins) sample_start pin_set_and_changed
    (fun d => pin_kept (.low 1) d.world.log) (by decide +kernel)

/-- The guarantee for a PIN that is set and then changed. -/
theorem pin_writes_respected_change :
    PinRespected two_pins (.low 1)
      (replayed (machine two_pins) (serve two_pins) sample_start pin_set_and_changed) :=
  pin_writes_respected two_pins _ pin_set_and_changed _ set_and_changed_kept.1 _
    (pin_kept_sound set_and_changed_kept.2)

/-- Two calls set a PIN, each with a code of its own. Both have read that there is none. -/
def two_pins_set : List AuthLabel :=
  two_codes_sent ++
    (.spawn (.pin_set sample_bearer "1234" "654321") ::
      .spawn (.pin_set sample_bearer "5678" "123456") ::
        (confirming 5 ++ confirming 6 ++ storing 6 "QRSTUVWXYZABCDEFGHIJKA" ++
          storing 5 "ABCDEFGHIJKLMNOPQRSTUQ"))

/-- No two calls use one code. -/
def OwnCodes (d : AuthConf) : Prop :=
  ∀ e ∈ d.world.log, ∀ e' ∈ d.world.log, ∀ id, Uses e id → Uses e' id → e.tid = e'.tid

/-- Whether the first PIN is stored where there is one already. -/
def stored_over (e : AuthEvent) : Bool :=
  !(e.tid == 5 && updates_pin (.low 1) e) || (e.pre.pin_of (.low 1)).any fun pin => pin != ""

/-- Both calls succeed, and the user has a PIN when the second one stores its own. -/
theorem overlapping_pin_sets :
    ¬ ∀ (env : Env) (clock : Nat) (ls : List AuthLabel) (d : AuthConf),
      AuthRun env .all (start clock) ls d → OwnCodes d → ∀ u, PinRespected env u d := by
  intro claim
  obtain ⟨d, run, checked⟩ : ∃ d, AuthRun two_pins .all sample_start two_pins_set d ∧
      (d.succeeded 5 (.pin_set sample_bearer "1234" "654321") &&
        d.world.log.all fun e : AuthEvent => FindsUnused e && stored_over e) = true :=
    ⟨_, replayed_spec (machine two_pins) (serve two_pins) sample_start two_pins_set
      (fun d => d.succeeded 5 (.pin_set sample_bearer "1234" "654321") &&
        d.world.log.all fun e : AuthEvent => FindsUnused e && stored_over e) (by decide +kernel)⟩
  obtain ⟨first, events⟩ := Bool.and_eq_true_iff.mp checked
  obtain ⟨resp, first⟩ := returned_ok first
  have each : ∀ e ∈ d.world.log, FindsUnused e ∧ stored_over e = true := by
    intro e he
    obtain ⟨hunused, hover⟩ := Bool.and_eq_true_iff.mp (List.all_eq_true.mp events e he)
    exact ⟨of_decide_eq_true hunused, hover⟩
  have own : OwnCodes d := by
    intro e he e' he' id hu hu'
    rw [uses_once run (fun e he => (each e he).1) he he' hu hu']
  have hcaller : caller sample_bearer = some (.low 1) := by decide +kernel
  have hset : SetsPin d (.low 1) 5 (.pin_set sample_bearer "1234" "654321") :=
    ⟨rfl, hcaller, resp, first⟩
  obtain ⟨e, he, ht, ⟨_, _, _, hop, hu, _⟩, pin, hpin, hallowed⟩ :=
    (claim two_pins _ two_pins_set d run own (.low 1)).legal 5 _ hset
  have hover := (each e he).2
  rw [stored_over, ht, updates_pin_of_op hop hu, hpin] at hover
  subst hallowed
  cases hover

end Kova.Auth

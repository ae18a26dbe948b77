import Kova.Auth.Footprint
import Kova.Auth.OtpCounter
import Kova.Auth.RevocationCache

/-!
# Challenges are single-use and personal

The biometric challenge of a user is what `kova:biometric:challenge:<user_id>` holds, the user being
the subject of the access token. `biometric_challenge` stores a challenge for 60 seconds in place of
any earlier one, and `biometric_verify` takes it away before it compares. So the entry is that of
the last command on the key that took effect, if that stored one (`challenge_held`), and every
verification that succeeds has taken a challenge of its own (`challenges_single_use`).
-/

set_option autoImplicit false

namespace Kova.Auth

open Conc

variable {env : Env} {S : AuthScope} {clock : Nat} {ls : List AuthLabel} {d : AuthConf}
  {user_id : String}

/-- The command on the user's challenge took effect. -/
def touches (user_id : String) (e : AuthEvent) : Prop :=
  ∃ cmd, cmd.key = challenge_key user_id ∧ took_effect cmd e = true

/-- The event stored the challenge for the user, whose own request it was. -/
def Issues (e : AuthEvent) (user_id challenge : String) : Prop :=
  took_effect (.set_ex (challenge_key user_id) challenge CHALLENGE_TTL_SECS) e = true ∧
    ∃ auth, e.req = .biometric_challenge auth ∧ subject auth = some user_id

/-- The event took the challenge of the user away, and was answered with it. -/
def Takes (e : AuthEvent) (user_id challenge : String) : Prop :=
  e.did = ⟨.redis (.get_del (challenge_key user_id)), some (some challenge)⟩

/-- The challenge that the event at position `i` of the log issued to the user is the one that the
event at position `j` took, alone: the latest one issued to that user, at most 60 seconds old. The
call that issued it returned it, unless the reply from Redis was lost. -/
structure Consumption (d : AuthConf) (user_id challenge : String) (i j : Nat)
    (issue take : AuthEvent) : Prop where
  issued : d.world.log[i]? = some issue
  taken : d.world.log[j]? = some take
  order : i < j
  alone : ∀ k x, i < k → k < j → d.world.log[k]? = some x → ¬ touches user_id x
  issues : Issues issue user_id challenge
  takes : Takes take user_id challenge
  latest : ∀ k x other, i < k → k < j → d.world.log[k]? = some x → ¬ Issues x user_id other
  later : issue.pre.clock ≤ take.pre.clock
  recent : take.pre.clock ≤ issue.pre.clock + CHALLENGE_TTL_SECS * 1000000000
  returned : d.returned issue.tid issue.req (.ok (.challenge challenge)) ∨
    ∃ cmd, issue.did = ⟨.redis cmd, none⟩

/-- **Call `t` has consumed the challenge issued at position `i`**: the one that it presented,
issued to its own user. -/
def Consumed (d : AuthConf) (t : Nat) (auth : Jwt.AuthHeader) (challenge_token : String)
    (i : Nat) : Prop :=
  ∃ user_id j issue take, subject auth = some user_id ∧ take.tid = t ∧
    Consumption d user_id challenge_token i j issue take

theorem challenge_key_injective {p q : String} (h : challenge_key p = challenge_key q) : p = q :=
  Redis.key_injective h

/-! ## The handlers -/

/-- What comes before an operation. A call that issues a challenge does nothing after it; a call
goes to the challenge of its own user, as the first thing it asks of Redis. -/
structure Challenging (req : Request) (h : List AuthDone) (op : Op) : Prop where
  last : ∀ auth, req = .biometric_challenge auth → Uncached h
  command : ∀ cmd user_id, op = .redis cmd → cmd.key = challenge_key user_id → Uncached h ∧
    ((∃ auth challenge, req = .biometric_challenge auth ∧ subject auth = some user_id ∧
        cmd = .set_ex (challenge_key user_id) challenge CHALLENGE_TTL_SECS ∧
          (⟨.random_hex, some challenge⟩ : AuthDone) ∈ h) ∨
      cmd = .get_del (challenge_key user_id))

/-- A challenge that was stored is returned, and a verification succeeds with what it took. -/
def ChallengeAnswer : Request → List AuthDone → Except Failure Response → Prop
  | .biometric_challenge _, h, r => ∀ key challenge seconds,
      (⟨.redis (.set_ex key challenge seconds), some ()⟩ : AuthDone) ∈ h →
        r = .ok (.challenge challenge)
  | .biometric_verify auth challenge_token _ _, h, .ok _ => ∃ user_id,
      subject auth = some user_id ∧
        (⟨.redis (.get_del (challenge_key user_id)), some (some challenge_token)⟩ : AuthDone) ∈ h
  | _, _, _ => True

section Steps

variable {req : Request} {h : List AuthDone} {op : Op}

/-- A challenge is one of two requests'. -/
theorem Request.MayCommand.challenges {cmd : Redis.Cmd} {user_id : String}
    (may : req.MayCommand cmd) (hkey : cmd.key = challenge_key user_id) :
    (∃ auth, req = .biometric_challenge auth) ∨
      ∃ auth token signature fp, req = .biometric_verify auth token signature fp := by
  cases req with
  | biometric_challenge auth => exact .inl ⟨auth, rfl⟩
  | biometric_verify auth token signature fp => exact .inr ⟨auth, token, signature, fp, rfl⟩
  | otp_request phone_number fp =>
    exact absurd (hkey.symm.trans may)
      (Redis.key_ne 6 (by decide) (by decide) (by decide) user_id phone_number)
  | session_delete | sessions_revoke_all | logout =>
    obtain ⟨jti, rfl⟩ := may
    exact absurd hkey.symm (challenge_key_ne user_id jti)
  | _ => exact may.elim

theorem Awaits.challenging (step : Awaits env req h op) : Challenging req h op := by
  refine ⟨?_, ?_⟩
  · rintro auth rfl
    cases step with
    | extract | draw | challenge => simp [Uncached]
    | cache revokes => cases revokes
    | pin _ sets => cases sets
  · rintro cmd user_id rfl hkey
    rcases step.may.challenges hkey with ⟨auth, rfl⟩ | ⟨auth, token, signature, fp, rfl⟩
    · cases step with
      | @challenge _ _ _ challenge accepted =>
        obtain rfl := challenge_key_injective hkey
        exact ⟨by simp [Uncached], .inl ⟨auth, challenge, rfl, subject_of_claims accepted, rfl,
          List.mem_cons_of_mem _ List.mem_cons_self⟩⟩
      | cache revokes => cases revokes
      | pin _ sets => cases sets
    · cases step with
      | biometric _ step =>
        cases step with
        | take =>
          obtain rfl := challenge_key_injective hkey
          exact ⟨by simp [Uncached], .inr rfl⟩
        | issue _ step => cases step with
          | inward inward => cases inward
      | cache revokes => cases revokes
      | pin _ sets => cases sets

theorem Ends.challenged {r : Except Failure Response} (ends : Ends env req h r) :
    ChallengeAnswer req h r := by
  cases ends with
  | rejected =>
    cases req with
    | biometric_challenge =>
      intro key challenge seconds hmem
      cases List.mem_singleton.mp hmem
    | _ => trivial
  | undrawn =>
    intro key challenge seconds hmem
    simp only [List.mem_cons, List.not_mem_nil, or_false] at hmem
    exact absurd hmem (by rintro (⟨⟨⟩⟩ | ⟨⟨⟩⟩))
  | unanswered =>
    intro key challenge seconds hmem
    simp only [List.mem_cons, List.not_mem_nil, or_false] at hmem
    exact absurd hmem (by rintro (⟨⟨⟩⟩ | ⟨⟨⟩⟩ | ⟨⟨⟩⟩))
  | challenge =>
    intro key challenge seconds hmem
    simp only [List.mem_cons, List.not_mem_nil, or_false] at hmem
    obtain ⟨⟨⟩⟩ | ⟨⟨⟩⟩ | ⟨⟨⟩⟩ := hmem
    rfl
  | @biometric _ _ claims _ _ _ _ _ accepted ends =>
    cases ends with
    | refused => trivial
    | @issue _ _ r ends =>
      cases r with
      | error e => trivial
      | ok pair =>
        exact ⟨claims.sub, subject_of_claims accepted,
          ends.grown.subset (List.mem_cons_of_mem _ List.mem_cons_self)⟩
  | pin sets =>
    cases req with
    | pin_set | pin_change => trivial
    | _ => cases sets
  | _ => trivial

/-- **Every handler**: the challenge of a user is stored and taken in that user's own calls only. -/
theorem serve_challenging (env : Env) (req : Request) :
    Guarded (Challenging req) (ChallengeAnswer req) (serve env req) [] :=
  (serve_steps env req).mono (fun _ _ step => step.challenging) fun _ _ ends => ends.challenged

end Steps

/-! ## What the key holds -/

/-- The challenge of a user, if there is one. -/
def Store.challenge (s : Store) (user_id : String) : Option Redis.Entry :=
  s.redis.at s.clock (challenge_key user_id)

section Events

variable {e : AuthEvent} {ch : Choice} {h : List AuthDone}

theorem Issues.touches {challenge : String} (hi : Issues e user_id challenge) :
    touches user_id e := ⟨_, rfl, hi.1⟩

/-- **Nothing else** touches the challenge of a user. -/
theorem challenge_kept (hexec : exec env ch e.pre e.op = some (e.res, e.post))
    (hno : ¬ touches user_id e) : e.post.challenge user_id = e.pre.challenge user_id := by
  rw [Store.challenge, exec_clock hexec, Store.challenge]
  rcases exec_redis hexec with hsame | ⟨cmd, hop, hrun⟩
  · rw [hsame]
  · by_cases hkey : cmd.key = challenge_key user_id
    · exact absurd ⟨cmd, hkey, took_effect_iff.mpr ⟨hop, hrun⟩⟩ hno
    · rw [hrun, Redis.run_other _ _ hkey (Nat.le_refl _)]

/-- A command on it that takes effect stores a challenge of a call of the user's, or takes it. -/
theorem challenge_touched (hexec : exec env ch e.pre e.op = some (e.res, e.post))
    (hguard : Challenging e.req h e.op) (htouch : touches user_id e) :
    (∃ challenge, Issues e user_id challenge ∧ e.post.challenge user_id =
        some ⟨challenge, some (e.pre.clock + CHALLENGE_TTL_SECS * 1000000000)⟩) ∨
      e.post.challenge user_id = none := by
  obtain ⟨cmd, hkey, heffect⟩ := htouch
  obtain ⟨hop, hrun⟩ := took_effect_iff.mp heffect
  rw [Store.challenge, exec_clock hexec, hrun]
  obtain ⟨_, ⟨auth, challenge, hreq, hsubject, rfl, _⟩ | rfl⟩ := hguard.command cmd user_id hop hkey
  · refine .inl ⟨challenge, ⟨heffect, auth, hreq, hsubject⟩, ?_⟩
    rw [Redis.run, Redis.at_put, if_pos (Redis.lives_until _)]
    simp [CHALLENGE_TTL_SECS]
  · right
    rw [Redis.run, Redis.Db.at, Redis.live_erase, Redis.lookup_erase_self]

/-- A challenge that was taken was there, and the command took effect. -/
theorem Takes.there {challenge : String} (ht : Takes e user_id challenge)
    (hexec : exec env ch e.pre e.op = some (e.res, e.post)) :
    touches user_id e ∧ ∃ entry, e.pre.challenge user_id = some entry ∧
      entry.value = challenge := by
  obtain ⟨tid, req, op, pre, res, post⟩ := e
  cases ht
  simp only [exec] at hexec
  split at hexec
  · obtain ⟨hres, hpost⟩ := Prod.ext_iff.mp (Option.some.inj hexec)
    refine ⟨⟨.get_del (challenge_key user_id), rfl, took_effect_iff.mpr ⟨rfl, ?_⟩⟩, ?_⟩
    · exact (congrArg Store.redis hpost).symm
    · exact Option.map_eq_some_iff.mp (Option.some.inj hres)
  · cases congrArg Prod.fst (Option.some.inj hexec)
  · cases congrArg Prod.fst (Option.some.inj hexec)

end Events

/-! ## Over a run -/

/-- The challenge of a user was issued by the last command on it that took effect. -/
def Held (user_id : String) (w : AuthWorld) : Prop :=
  ∀ entry, w.store.challenge user_id = some entry → ∃ (i : Nat) (e : AuthEvent),
    w.log[i]? = some e ∧ Issues e user_id entry.value ∧
      entry.expires = some (e.pre.clock + CHALLENGE_TTL_SECS * 1000000000) ∧
        ∀ (k : Nat) (x : AuthEvent), i < k → w.log[k]? = some x → ¬ touches user_id x

theorem getElem?_snoc {α : Type} {l : List α} {a x : α} {k : Nat} (h : (l ++ [a])[k]? = some x) :
    l[k]? = some x ∨ (k = l.length ∧ x = a) := by
  rcases Nat.lt_or_ge k l.length with hlt | hge
  · exact .inl ((List.getElem?_append_left hlt).symm.trans h)
  · rw [List.getElem?_append_right hge] at h
    obtain ⟨hk, rfl⟩ := List.getElem?_eq_some_iff.mp h
    simp only [List.length_singleton] at hk
    exact .inr ⟨by omega, by simp⟩

/-- **What the key of a user holds**, in every run. -/
theorem challenge_held (h : AuthRun env S (start clock) ls d) (user_id : String) :
    Held user_id d.world := by
  refine h.world_invariant (P := Held user_id) (serve_challenging env) ?_ ?_ (by rintro _ ⟨⟩)
  · rintro ms c e _ hc hpre ⟨ch, _, hexec⟩ hguard entry hentry
    rw [World.push_store] at hentry
    rw [World.push_log]
    by_cases htouch : touches user_id e
    · rcases challenge_touched hexec hguard htouch with ⟨challenge, hissue, hpost⟩ | hnone
      · rw [hpost, Option.some.injEq] at hentry
        subst hentry
        refine ⟨c.world.log.length, e, by simp, hissue, rfl, ?_⟩
        intro k x hk hx
        have hlt := (List.getElem?_eq_some_iff.mp hx).1
        rw [List.length_append, List.length_singleton] at hlt
        omega
      · rw [hnone] at hentry
        cases hentry
    · rw [challenge_kept hexec htouch, hpre] at hentry
      obtain ⟨i, issue, hi, hissue, hexpires, hlast⟩ := hc entry hentry
      have hlt := (List.getElem?_eq_some_iff.mp hi).1
      refine ⟨i, issue, (List.getElem?_append_left hlt).trans hi, hissue, hexpires, ?_⟩
      intro k x hk hx
      rcases getElem?_snoc hx with hx | ⟨_, rfl⟩
      · exact hlast k x hk hx
      · exact htouch
  · rintro ms c ⟨n⟩ s' hrun hc henv entry hentry
    have hlater := ((later_follows env).env henv).clock
    cases henv
    have hfilter : c.world.store.redis.at (c.world.store.clock + n) (challenge_key user_id) =
        some entry := hentry
    rw [(redis_keyed hrun).at_later hlater, Option.filter_eq_some_iff] at hfilter
    exact hc entry hfilter.1

/-- **A challenge that was taken** was issued to the user, latest and recently. -/
theorem taken_challenge (h : AuthRun env S (start clock) ls d) {j : Nat} {take : AuthEvent}
    (hj : d.world.log[j]? = some take) {challenge : String} (htake : Takes take user_id challenge) :
    ∃ i issue, Consumption d user_id challenge i j issue take := by
  obtain ⟨hjlt, rfl⟩ := List.getElem?_eq_some_iff.mp hj
  have split : d.world.log = d.world.log.take j ++ d.world.log[j] :: d.world.log.drop (j + 1) := by
    rw [List.getElem_cons_drop, List.take_append_drop]
  obtain ⟨_, ch, _, hexec⟩ := h.executed (List.getElem_mem hjlt)
  obtain ⟨_, entry, hentry, hvalue⟩ := htake.there hexec
  have held : Held user_id ⟨d.world.log[j].pre, d.world.log.take j⟩ :=
    h.world_at (P := Held user_id) split fun hrun => challenge_held hrun user_id
  obtain ⟨i, issue, hi, hissue, hexpires, hlast⟩ := held entry hentry
  have hij : i < j := by
    have hlt := (List.getElem?_eq_some_iff.mp hi).1
    rw [List.length_take] at hlt
    omega
  have hi : d.world.log[i]? = some issue := (List.getElem?_take_of_lt hij).symm.trans hi
  have alone : ∀ k x, i < k → k < j → d.world.log[k]? = some x → ¬ touches user_id x := by
    intro k x hik hkj hx
    exact hlast k x hik ((List.getElem?_take_of_lt hkj).trans hx)
  have hprec := precedes_of_getElem? hi hj hij
  have hclock : issue.pre.clock ≤ d.world.log[j].pre.clock :=
    ((event_later h hprec.left).trans (h.between (later_follows env) hprec)).clock
  have hlives : entry.lives d.world.log[j].pre.clock = true := Redis.lives_of_at hentry
  refine ⟨i, issue, hi, hj, hij, alone, hvalue ▸ hissue, htake, ?_, hclock, ?_, ?_⟩
  · intro k x other hik hkj hx hother
    exact alone k x hik hkj hx hother.touches
  · rw [Redis.Entry.lives, hexpires, Option.all_some, decide_eq_true_eq] at hlives
    omega
  · -- The call that issued it was answered, and then it did nothing more, or the reply was lost.
    obtain ⟨heffect, auth, hreq, _⟩ := hvalue ▸ hissue
    have hop := (took_effect_iff.mp heffect).1
    obtain ⟨reply, hdid⟩ : ∃ reply, issue.did = ⟨.redis (.set_ex (challenge_key user_id) challenge
        CHALLENGE_TTL_SECS), reply⟩ := by
      cases issue
      cases hop
      exact ⟨_, rfl⟩
    cases reply with
    | none => exact .inr ⟨_, hdid⟩
    | some reply =>
      left
      have last : ∀ hist op, issue.did ∈ hist → ¬ Challenging issue.req hist op := by
        intro hist op hmem hop'
        exact hop'.last auth hreq issue.did hmem _ hop
      obtain ⟨r, hr, hanswer⟩ := h.ended (serve_challenging env) hprec.left last
      rw [hreq] at hanswer
      rw [hanswer _ challenge _ (mem_history.mpr ⟨issue, hprec.left, rfl, hdid⟩)] at hr
      exact hr

/-- No challenge is issued twice. -/
theorem issued_once (h : AuthRun env S (start clock) ls d) {i i' : Nat} {a b : AuthEvent}
    (ha : d.world.log[i]? = some a) (hb : d.world.log[i']? = some b) {user user' challenge : String}
    (hia : Issues a user challenge) (hib : Issues b user' challenge) : i = i' := by
  have drawn : ∀ {x : AuthEvent} {k : Nat} {v : String}, d.world.log[k]? = some x →
      Issues x v challenge → (∃ g ∈ d.world.log, g.tid = x.tid ∧
        g.did = ⟨.random_hex, some challenge⟩) ∧ ∀ y m, m < k → d.world.log[m]? = some y →
          y.tid = x.tid → ∀ cmd, y.op ≠ .redis cmd := by
    intro x k v hx hi
    obtain ⟨hk, rfl⟩ := List.getElem?_eq_some_iff.mp hx
    have split : d.world.log =
        d.world.log.take k ++ d.world.log[k] :: d.world.log.drop (k + 1) := by
      rw [List.getElem_cons_drop, List.take_append_drop]
    obtain ⟨huncached, ⟨_, token, _, _, heq, hmem⟩ | heq⟩ :=
      (h.guard (serve_challenging env) split).command _ v (took_effect_iff.mp hi.1).1 rfl
    · cases heq
      obtain ⟨g, hg, ht, hdid⟩ := mem_history.mp hmem
      refine ⟨⟨g, List.mem_of_mem_take hg, ht, hdid⟩, ?_⟩
      intro y m hm hy ht cmd
      refine huncached y.did (mem_history.mpr ⟨y, ?_, ht, rfl⟩) cmd
      exact List.mem_of_getElem? ((List.getElem?_take_of_lt hm).trans hy)
    · cases heq
  obtain ⟨⟨g, hg, htg, hdg⟩, hfirst⟩ := drawn ha hia
  obtain ⟨⟨g', hg', htg', hdg'⟩, hfirst'⟩ := drawn hb hib
  obtain rfl := drawn_once h hg hg' hdg hdg' (env.coll.same_refl _)
  have htid : a.tid = b.tid := htg.symm.trans htg'
  rcases Nat.lt_trichotomy i i' with hlt | heq | hgt
  · exact absurd (took_effect_iff.mp hia.1).1 (hfirst' a i hlt ha htid _)
  · exact heq
  · exact absurd (took_effect_iff.mp hib.1).1 (hfirst b i' hgt hb htid.symm _)

/-- A biometric login: the call presented this challenge and returned a token pair. -/
def BiometricLogin (d : AuthConf) (t : Nat) (auth : Jwt.AuthHeader) (challenge_token : String) :
    Prop :=
  ∃ signature fp pair, d.returned t (.biometric_verify auth challenge_token signature fp)
    (.ok (.tokens pair))

/-- **Challenges are single-use and personal**: every biometric login has consumed a challenge
issued to its own user, no two of them the same. -/
structure SingleUse (d : AuthConf) (issue : Nat → Nat) : Prop where
  consumed : ∀ t auth challenge, BiometricLogin d t auth challenge →
    Consumed d t auth challenge (issue t)
  injective : ∀ t t' auth auth' challenge challenge', BiometricLogin d t auth challenge →
    BiometricLogin d t' auth' challenge' → issue t = issue t' → t = t'
  different : ∀ t t' auth auth' challenge challenge', BiometricLogin d t auth challenge →
    BiometricLogin d t' auth' challenge' → challenge = challenge' → t = t'

/-- A biometric login has consumed a challenge. -/
theorem BiometricLogin.consumed (h : AuthRun env S (start clock) ls d) {t : Nat}
    {auth : Jwt.AuthHeader} {challenge : String} (hlogin : BiometricLogin d t auth challenge) :
    ∃ i, Consumed d t auth challenge i := by
  obtain ⟨signature, fp, pair, hr⟩ := hlogin
  obtain ⟨user_id, hsubject, hmem⟩ := h.answer (serve_challenging env) hr
  obtain ⟨take, htake, ht, hdid⟩ := mem_history.mp hmem
  obtain ⟨j, hj⟩ := List.mem_iff_getElem?.mp htake
  obtain ⟨i, issue, hconsumption⟩ := taken_challenge h hj hdid
  exact ⟨i, user_id, j, issue, take, hsubject, ht, hconsumption⟩

/-- The request of a biometric login is one. -/
theorem BiometricLogin.same {t : Nat} {auth auth' : Jwt.AuthHeader} {challenge challenge' : String}
    (h : BiometricLogin d t auth challenge) (h' : BiometricLogin d t auth' challenge') :
    auth = auth' ∧ challenge = challenge' := by
  obtain ⟨_, _, _, call, hcall, hreq, _⟩ := h
  obtain ⟨_, _, _, call', hcall', hreq', _⟩ := h'
  rw [hcall, Option.some.injEq] at hcall'
  subst hcall'
  rw [hreq] at hreq'
  cases hreq'
  exact ⟨rfl, rfl⟩

/-- What was issued at one position one call has consumed. -/
theorem Consumed.once (h : AuthRun env S (start clock) ls d) {t t' i : Nat}
    {auth auth' : Jwt.AuthHeader} {challenge challenge' : String}
    (hc : Consumed d t auth challenge i) (hc' : Consumed d t' auth' challenge' i) : t = t' := by
  obtain ⟨user, j, issue, take, _, ht, hcons⟩ := hc
  obtain ⟨user', j', issue', take', _, ht', hcons'⟩ := hc'
  obtain rfl : issue = issue' := Option.some.inj (hcons.issued.symm.trans hcons'.issued)
  have hop := (took_effect_iff.mp hcons.issues.1).1
  rw [(took_effect_iff.mp hcons'.issues.1).1] at hop
  simp only [Op.redis.injEq, Redis.Cmd.set_ex.injEq] at hop
  obtain rfl := challenge_key_injective hop.1
  -- The earlier of the two would stand between the other and what was issued.
  have taken : ∀ {k : Nat} {x : AuthEvent} {c : String}, d.world.log[k]? = some x →
      Takes x user' c → touches user' x := by
    intro k x c hx hx'
    obtain ⟨_, _, _, hexec⟩ := h.executed (List.mem_of_getElem? hx)
    exact (hx'.there hexec).1
  rcases Nat.lt_trichotomy j j' with hlt | rfl | hgt
  · exact absurd (taken hcons.taken hcons.takes) (hcons'.alone j take hcons.order hlt hcons.taken)
  · rw [← ht, ← ht', Option.some.inj (hcons.taken.symm.trans hcons'.taken)]
  · exact absurd (taken hcons'.taken hcons'.takes)
      (hcons.alone j' take' hcons'.order hgt hcons'.taken)

/-- **Challenges are single-use and personal**, whatever the calls are and however they
interleave. -/
theorem challenges_single_use (env : Env) (clock : Nat) (ls : List AuthLabel) (d : AuthConf)
    (h : AuthRun env .all (start clock) ls d) : ∃ issue, SingleUse d issue := by
  have each : ∀ t, ∃ i, ∀ auth challenge, BiometricLogin d t auth challenge →
      Consumed d t auth challenge i := by
    intro t
    by_cases hlogin : ∃ auth challenge, BiometricLogin d t auth challenge
    · obtain ⟨auth, challenge, hlogin⟩ := hlogin
      obtain ⟨i, hi⟩ := hlogin.consumed h
      refine ⟨i, ?_⟩
      intro auth' challenge' hlogin'
      obtain ⟨rfl, rfl⟩ := hlogin.same hlogin'
      exact hi
    · exact ⟨0, fun auth challenge h' => absurd ⟨auth, challenge, h'⟩ hlogin⟩
  choose issue consumed using each
  have injective : ∀ t t' auth auth' challenge challenge', BiometricLogin d t auth challenge →
      BiometricLogin d t' auth' challenge' → issue t = issue t' → t = t' := by
    intro t t' auth auth' challenge challenge' hlogin hlogin' heq
    have hc := consumed t auth challenge hlogin
    rw [heq] at hc
    exact hc.once h (consumed t' auth' challenge' hlogin')
  refine ⟨issue, consumed, injective, ?_⟩
  rintro t t' auth auth' challenge _ hlogin hlogin' rfl
  obtain ⟨_, _, _, _, _, _, hcons⟩ := consumed t auth challenge hlogin
  obtain ⟨_, _, _, _, _, _, hcons'⟩ := consumed t' auth' challenge hlogin'
  exact injective t t' auth auth' challenge challenge hlogin hlogin'
    (issued_once h hcons.issued hcons'.issued hcons.issues hcons'.issues)

/-- After a login the user asks for a challenge and presents it. -/
def biometric_login : List AuthLabel :=
  sample_login ++
    (uninterrupted 3 (.biometric_challenge sample_bearer) [{}, { text := sample_token 'b' }, {}] ++
      uninterrupted 4 (.biometric_verify sample_bearer (sample_token 'b') "signature" "phone")
        ({} :: {} :: issuing 'c' 20))

theorem biometric_login_run :
    AuthRun sample .all sample_start biometric_login
        (replayed (machine sample) (serve sample) sample_start biometric_login) ∧
      (replayed (machine sample) (serve sample) sample_start biometric_login).succeeded 4
        (.biometric_verify sample_bearer (sample_token 'b') "signature" "phone") = true :=
  replayed_spec (machine sample) (serve sample) sample_start biometric_login
    (fun d => d.succeeded 4
      (.biometric_verify sample_bearer (sample_token 'b') "signature" "phone")) (by decide +kernel)

/-- The guarantee for a biometric login. -/
theorem challenges_single_use_login :
    (replayed (machine sample) (serve sample) sample_start biometric_login).succeeded 4
        (.biometric_verify sample_bearer (sample_token 'b') "signature" "phone") = true ∧
      ∃ issue, SingleUse
        (replayed (machine sample) (serve sample) sample_start biometric_login) issue :=
  ⟨biometric_login_run.2,
    challenges_single_use sample _ biometric_login _ biometric_login_run.1⟩

end Kova.Auth

import Kova.Account.BalanceAnswer
import Kova.Account.StoreLaws
import Kova.Redis.DbLaws

/-!
# The cached balance

balance.rs answers a balance from Redis, else from the ledger, and says that it falls back on the
cached balance where the ledger fails. Both reads are of one key, which the SETEX of an earlier call
keeps for five seconds: what the first read misses the second finds only if another call has
cached a balance in between. And the five seconds are counted from the SETEX, not from the ledger's
answer. In a run whose events are timely (`Timely`), a failure of the ledger is answered with the
balance cached last, as stale, and a balance without the flag was confirmed within five seconds
(`balances_served`).
-/

set_option autoImplicit false

namespace Kova.Account

open Conc Ledger

variable {env : Env} {table : Table env} {clock : Nat} {ls : List AccountLabel} {d : AccountConf}

/-! ## What is promised -/

/-- The account that a call asks the balance of. -/
def Request.balance_of : Request → Option Uuid
  | .get_balance _ account_id => Uuid.parse_str account_id
  | _ => none

def Op.reads_cache : Op → Bool
  | .redis (.get _) => true
  | _ => false

/-- The ledger was asked for a balance and failed. -/
def refused (x : AccountDone) : Bool :=
  match x with
  | ⟨.get_balance _, .error _⟩ => true
  | _ => false

/-- The last event that cached a balance of the account. -/
def last_cached (account : Option Uuid) (before : List AccountEvent) : Option AccountEvent :=
  (before.filter fun w => w.op.caches && w.req.balance_of == account).getLast?

/-- The last event that cached a balance under the key. -/
def last_stored (key : Option String) (before : List AccountEvent) : Option AccountEvent :=
  (before.filter fun w => w.op.caches && w.req.balance_key == key).getLast?

/-- The event is the second read of its call, after the ledger failed. -/
def falls_back (before : List AccountEvent) (r : AccountEvent) : Bool :=
  r.op.reads_cache && (history r.tid before).any refused

/-- Five seconds. -/
def ttl : Nat := BALANCE_CACHE_TTL_SECS * 1000000000

/-- The event's call asked the ledger at most five seconds before the moment. -/
def Confirmed (before : List AccountEvent) (w : AccountEvent) (now : Nat) : Prop :=
  ∀ f ∈ before, f.tid = w.tid → f.op.asks_balance = true → now ≤ f.pre.clock + ttl

/-- **The event is timely.** A second read comes less than five seconds after the account's last
balance was cached, and under the same spelling of its identifier; a balance is cached, and is
found by a first read, at most five seconds after the ledger was asked for it. -/
structure Timely (before : List AccountEvent) (r : AccountEvent) : Prop where
  fallback : falls_back before r = true → ∀ w ∈ last_cached r.req.balance_of before,
    w.req.balance_key = r.req.balance_key ∧ r.pre.clock < w.pre.clock + ttl
  stored : r.op.caches = true → Confirmed before r r.pre.clock
  read : r.op.reads_cache = true → falls_back before r = false →
    ∀ w ∈ last_stored r.req.balance_key before, r.pre.clock < w.pre.clock + ttl →
      Confirmed before w r.pre.clock

instance (before : List AccountEvent) (w : AccountEvent) (now : Nat) :
    Decidable (Confirmed before w now) :=
  inferInstanceAs (Decidable (∀ f ∈ before, f.tid = w.tid → f.op.asks_balance = true →
    now ≤ f.pre.clock + ttl))

instance (before : List AccountEvent) (r : AccountEvent) : Decidable (Timely before r) :=
  decidable_of_iff
    ((falls_back before r = true → ∀ w ∈ last_cached r.req.balance_of before,
        w.req.balance_key = r.req.balance_key ∧ r.pre.clock < w.pre.clock + ttl) ∧
      (r.op.caches = true → Confirmed before r r.pre.clock) ∧
      (r.op.reads_cache = true → falls_back before r = false →
        ∀ w ∈ last_stored r.req.balance_key before, r.pre.clock < w.pre.clock + ttl →
          Confirmed before w r.pre.clock))
    ⟨fun h => ⟨h.1, h.2.1, h.2.2⟩, fun h => ⟨h.fallback, h.stored, h.read⟩⟩

/-- Every event is timely. -/
def InTime (log : List AccountEvent) : Prop :=
  ∀ before r after, log = before ++ r :: after → Timely before r

/-- Redis answers every command. -/
def RedisAnswers (log : List AccountEvent) : Prop :=
  ∀ e ∈ log, ∀ cmd, e.did ≠ ⟨.redis cmd, none⟩

/-- The last event of call `t`, with those before it. -/
def LastOf (log : List AccountEvent) (t : Nat) (before : List AccountEvent) (r : AccountEvent) :
    Prop :=
  ∃ after, log = before ++ r :: after ∧ r.tid = t ∧ history t after = []

/-- The balance that the event caches. -/
def Caches (env : Env) (w : AccountEvent) (v : Value) : Prop :=
  ∃ key, w.op = .redis (.set_ex key (env.json_text v) BALANCE_CACHE_TTL_SECS)

/-- The event is the ledger's answer that the account's balance is this one. -/
def Confirms (account_id : String) (f : AccountEvent) (v : Value) : Prop :=
  ∃ x bal currency, f.did = ⟨.get_balance x, .ok bal⟩ ∧ Uuid.parse_str account_id = some x ∧
    v = .balance account_id currency bal.available_balance.to_string bal.pending_amount.to_string

/-- **The fallback works, and nothing old passes for fresh.** -/
structure BalancesServed (env : Env) (d : AccountConf) : Prop where
  stale : ∀ t auth account_id r, d.returned t (.get_balance auth account_id) r →
    (history t d.world.log).any refused = true → ∃ before read, LastOf d.world.log t before read ∧
      ∀ w ∈ last_cached (Uuid.parse_str account_id) before,
        ∃ v, Caches env w v ∧ r = .ok (.balance v true)
  fresh : ∀ t auth account_id v,
    d.returned t (.get_balance auth account_id) (.ok (.balance v false)) →
      ∃ before last, LastOf d.world.log t before last ∧
        ∃ f ∈ before, Confirms account_id f v ∧ last.pre.clock ≤ f.pre.clock + ttl

/-- What is printed of a balance is parsed to it. -/
def RoundTrips (env : Env) : Prop :=
  ∀ account_id currency available pending,
    env.json_value (env.json_text (.balance account_id currency available pending)) =
      some (.balance account_id currency available pending)

/-! ## What the key holds -/

/-- What is left at a moment of what the event stored. -/
def left_of : Option AccountEvent → Nat → Option Redis.Entry
  | none, _ => none
  | some w, later =>
    match w.op with
    | .redis (.set_ex _ text seconds) =>
      if later < w.pre.clock + seconds * 1000000000 then
        some ⟨text, some (w.pre.clock + seconds * 1000000000)⟩
      else none
    | _ => none

theorem last_stored_snoc (key : Option String) (before : List AccountEvent) (e : AccountEvent) :
    last_stored key (before ++ [e]) =
      if e.op.caches && e.req.balance_key == key then some e else last_stored key before := by
  unfold last_stored
  rw [List.filter_append, List.filter_singleton]
  cases e.op.caches && e.req.balance_key == key with
  | true => exact List.getLast?_concat
  | false => exact congrArg List.getLast? (List.append_nil _)

/-- What a command leaves at a key: what its event stores there, or what was there. -/
theorem command_cached {e : AccountEvent} {cmd : Redis.Cmd} {hist : List AccountDone}
    {last : Option AccountEvent} {key : String} {s : Store} {later : Nat}
    (hguard : balance_guard env e.req hist (.redis cmd)) (hop : e.op = .redis cmd)
    (hpre : e.pre = s) (hle : s.clock ≤ later)
    (before : s.redis.at later key = left_of last later) :
    (Redis.run s.clock s.redis cmd).2.at later key =
      left_of (if e.op.caches && e.req.balance_key == some key then some e else last) later := by
  obtain ⟨t, req, op, pre, r, post⟩ := e
  obtain rfl : op = .redis cmd := hop
  obtain rfl : pre = s := hpre
  cases cmd with
  | get key' => exact (Redis.at_live _ hle key).trans before
  | set_ex key' text seconds =>
    obtain ⟨_, auth, account_id, _, _, _, _, rfl, rfl, _⟩ := hguard
    by_cases hkey : balance_cache_key account_id = key
    · rw [if_pos (by simp [Op.caches, Request.balance_key, hkey]), hkey]
      exact Redis.at_set_ex _ _ key text seconds later
    · rw [if_neg (by simp [Op.caches, Request.balance_key, hkey]), ← before]
      exact Redis.run_other _ (.set_ex _ text seconds) hkey hle
  | _ => exact hguard.elim

/-- **What the key of an account holds**: what was stored last, for five seconds. -/
theorem run_cache (h : AccountRun env (start table clock) ls d)
    (answers : RedisAnswers d.world.log) (key : String) {later : Nat}
    (hle : d.world.store.clock ≤ later) :
    d.world.store.redis.at later key = left_of (last_stored (some key) d.world.log) later := by
  have holds : RedisAnswers d.world.log → ∀ key later, d.world.store.clock ≤ later →
      d.world.store.redis.at later key = left_of (last_stored (some key) d.world.log) later := by
    refine h.world_invariant (P := fun w => RedisAnswers w.log → ∀ key later,
      w.store.clock ≤ later →
        w.store.redis.at later key = left_of (last_stored (some key) w.log) later)
      (serve_balance env) ?_ ?_ ?_
    · rintro ms c ⟨t, req, op, s, r, s'⟩ _ hc rfl ⟨ch, _, hexec⟩ hguard answers key later hle
      have hexec : exec env t ch c.world.store op = some (r, s') := hexec
      obtain ⟨hclock, hredis⟩ := exec_apart hexec
      have before := hc (fun e he => answers e (List.mem_append_left _ he)) key later
        (hclock ▸ hle)
      have hle : c.world.store.clock ≤ later := hclock ▸ hle
      rw [World.push_store, World.push_log, last_stored_snoc]
      by_cases hop : ∃ cmd, op = .redis cmd
      · obtain ⟨cmd, rfl⟩ := hop
        cases r with
        | none => exact absurd rfl (answers _ (List.mem_append_right _ List.mem_cons_self) cmd)
        | some r =>
          obtain ⟨_, rfl⟩ := exec_redis hexec
          exact command_cached hguard rfl rfl hle before
      · have hcaches : op.caches = false := by
          cases op with
          | redis cmd => exact absurd ⟨cmd, rfl⟩ hop
          | _ => rfl
        rw [hredis fun cmd hcmd => hop ⟨cmd, hcmd⟩, before]
        simp [hcaches]
    · rintro ms c o s' _ hc henv answers key later hle
      rcases outside_cases henv with ⟨_, _, rfl⟩ | ⟨_, _, _, _, rfl⟩
      · exact hc answers key later (Nat.le_trans (Nat.le_add_right _ _) hle)
      · exact hc answers key later hle
    · intro _ key later _
      rfl
  exact holds answers key later hle

/-- What a caching event caches: what the ledger had answered to its call. -/
theorem caching_event (h : AccountRun env (start table clock) ls d)
    {before after : List AccountEvent} {w : AccountEvent}
    (split : d.world.log = before ++ w :: after) (hw : w.op.caches = true) :
    ∃ auth account_id v f, w.req = .get_balance auth account_id ∧
      w.op = .redis (.set_ex (balance_cache_key account_id) (env.json_text v)
        BALANCE_CACHE_TTL_SECS) ∧ f ∈ before ∧ f.tid = w.tid ∧ Confirms account_id f v := by
  have hguard := h.guard (serve_balance env) split
  obtain ⟨t, req, op, s, r, s'⟩ := w
  cases op with
  | redis cmd =>
    cases cmd with
    | set_ex key text seconds =>
      obtain ⟨rfl, auth, account_id, h', x, bal, currency, rfl, rfl, parsed, hist, rfl⟩ := hguard
      have hasked : (⟨.get_balance x, .ok bal⟩ : AccountDone) ∈ history t before := by
        rw [hist]
        exact List.mem_append_right _ List.mem_cons_self
      obtain ⟨f, hf, ht, hdid⟩ := mem_history.mp hasked
      exact ⟨auth, account_id, _, f, rfl, rfl, hf, ht, x, bal, currency, hdid, parsed, rfl⟩
    | _ => cases hw
  | _ => cases hw

/-- **What a read is answered with**: what the key holds. -/
theorem read_reply (h : AccountRun env (start table clock) ls d)
    (answers : RedisAnswers d.world.log) {before after : List AccountEvent} {e : AccountEvent}
    (split : d.world.log = before ++ e :: after) {key : String} {reply : Option (Option String)}
    (hdid : e.did = ⟨.redis (.get key), reply⟩) :
    reply = some ((left_of (last_stored (some key) before) e.pre.clock).map (·.value)) := by
  have he : e ∈ d.world.log := split ▸ List.mem_append_right _ List.mem_cons_self
  have holds := h.world_at (P := fun w => RedisAnswers w.log →
      w.store.redis.at w.store.clock key = left_of (last_stored (some key) w.log) w.store.clock)
    split (fun hrun answers => run_cache hrun answers key (Nat.le_refl _)) (fun x hx =>
      answers x (split ▸ List.mem_append_left _ hx))
  obtain ⟨_, ch, _, hexec⟩ := h.did he hdid
  cases reply with
  | none => exact absurd hdid (answers e he _)
  | some reply =>
    rw [← holds]
    have hexec : exec env e.tid ch e.pre (.redis (.get key)) = some (some reply, e.post) := hexec
    exact congrArg some (exec_redis hexec).1

theorem mem_last_stored {key : Option String} {before : List AccountEvent} {w : AccountEvent}
    (h : last_stored key before = some w) :
    w ∈ before ∧ w.op.caches = true ∧ w.req.balance_key = key := by
  obtain ⟨hmem, hw⟩ := List.mem_filter.mp (List.mem_of_getLast? h)
  obtain ⟨hcaches, hkey⟩ := Bool.and_eq_true_iff.mp hw
  exact ⟨hmem, hcaches, beq_iff_eq.mp hkey⟩

theorem balance_key_of {req : Request} {account_id : String}
    (h : req.balance_key = some (balance_cache_key account_id)) :
    ∃ auth, req = .get_balance auth account_id := by
  cases req with
  | get_balance auth account_id' =>
    obtain rfl := Redis.key_injective (Option.some.inj h)
    exact ⟨auth, rfl⟩
  | _ => cases h

/-- What was cached last for the account was stored last under its key, if that is the key. -/
theorem last_stored_of_cached {account_id : String} {before : List AccountEvent} {w : AccountEvent}
    (h : last_cached (Uuid.parse_str account_id) before = some w)
    (hkey : w.req.balance_key = some (balance_cache_key account_id)) :
    last_stored (some (balance_cache_key account_id)) before = some w := by
  unfold last_cached at h
  unfold last_stored
  have finer : before.filter (fun w =>
      w.op.caches && w.req.balance_key == some (balance_cache_key account_id)) =
      (before.filter fun w => w.op.caches && w.req.balance_of == Uuid.parse_str account_id).filter
        fun w => w.req.balance_key == some (balance_cache_key account_id) := by
    rw [List.filter_filter]
    refine List.filter_congr fun x _ => ?_
    by_cases hx : x.req.balance_key = some (balance_cache_key account_id)
    · obtain ⟨auth, hreq⟩ := balance_key_of hx
      simp [hreq, Request.balance_key, Request.balance_of]
    · rw [beq_eq_false_iff_ne.mpr hx, Bool.and_false, Bool.false_and]
  obtain ⟨init, hinit⟩ := List.getLast?_eq_some_iff.mp h
  rw [finer, hinit, List.filter_append, List.filter_singleton, beq_iff_eq.mpr hkey]
  exact List.getLast?_concat

/-- What is confirmed is printed and parsed to itself. -/
theorem Confirms.parsed {account_id : String} {f : AccountEvent} {v : Value}
    (hf : Confirms account_id f v) (json : RoundTrips env) :
    env.json_value (env.json_text v) = some v := by
  obtain ⟨_, _, _, _, _, rfl⟩ := hf
  exact json _ _ _ _

theorem Confirms.asked {account_id : String} {f : AccountEvent} {v : Value}
    (hf : Confirms account_id f v) : f.op.asks_balance = true := by
  obtain ⟨x, bal, _, hdid, _⟩ := hf
  rw [show f.op = .get_balance x from congrArg Done.op hdid]
  rfl

section Reading

variable {before after : List AccountEvent} {read : AccountEvent} {account_id : String}
  {reply : Option (Option String)}

/-- **A read within five seconds of the last store** finds what was stored, which the ledger had
answered to the storing call. -/
theorem read_within (json : RoundTrips env) (h : AccountRun env (start table clock) ls d)
    (answers : RedisAnswers d.world.log) (split : d.world.log = before ++ read :: after)
    (hdid : read.did = ⟨.redis (.get (balance_cache_key account_id)), reply⟩) {w : AccountEvent}
    (hlast : last_stored (some (balance_cache_key account_id)) before = some w)
    (hsoon : read.pre.clock < w.pre.clock + ttl) :
    ∃ v f, found env reply = some v ∧ Caches env w v ∧ f ∈ before ∧ f.tid = w.tid ∧
      Confirms account_id f v := by
  obtain ⟨hin, hcaches, hkey⟩ := mem_last_stored hlast
  obtain ⟨b, a, hb⟩ := List.append_of_mem hin
  obtain ⟨_, account_id', v, f, hreq, hstore, hf, hft, hconfirms⟩ :=
    caching_event h (split.trans (by rw [hb, List.append_assoc]; rfl)) hcaches
  obtain rfl : account_id' = account_id := by
    rw [hreq] at hkey
    exact Redis.key_injective (Option.some.inj hkey)
  have hreply := read_reply h answers split hdid
  rw [hlast, left_of, hstore] at hreply
  simp only [if_pos (show read.pre.clock < w.pre.clock + BALANCE_CACHE_TTL_SECS * 1000000000 from
    hsoon)] at hreply
  refine ⟨v, f, ?_, ⟨_, hstore⟩, hb ▸ List.mem_append_left _ hf, hft, hconfirms⟩
  rw [hreply]
  exact hconfirms.parsed json

/-- A read that finds something comes within five seconds of the last store. -/
theorem read_soon (h : AccountRun env (start table clock) ls d)
    (answers : RedisAnswers d.world.log) (split : d.world.log = before ++ read :: after)
    (hdid : read.did = ⟨.redis (.get (balance_cache_key account_id)), reply⟩) {v : Value}
    (hfound : found env reply = some v) :
    ∃ w, last_stored (some (balance_cache_key account_id)) before = some w ∧
      read.pre.clock < w.pre.clock + ttl := by
  have hreply := read_reply h answers split hdid
  cases hlast : last_stored (some (balance_cache_key account_id)) before with
  | none =>
    rw [hreply, hlast] at hfound
    cases hfound
  | some w =>
    obtain ⟨hin, hcaches, _⟩ := mem_last_stored hlast
    obtain ⟨b, a, hb⟩ := List.append_of_mem hin
    obtain ⟨_, _, _, _, _, hstore, _⟩ :=
      caching_event h (split.trans (by rw [hb, List.append_assoc]; rfl)) hcaches
    refine ⟨w, rfl, ?_⟩
    by_contra hlate
    rw [hlast, left_of, hstore] at hreply
    simp only [if_neg (show ¬ read.pre.clock < w.pre.clock + BALANCE_CACHE_TTL_SECS * 1000000000
      from hlate)] at hreply
    rw [hreply] at hfound
    cases hfound

end Reading

/-! ## Every call -/

theorem unasked_refused {h : List AccountDone} (hs : Unasked h) : h.any refused = false := by
  rw [List.any_eq_false]
  rintro ⟨op, r⟩ hx
  have hop := hs _ hx
  cases op with
  | get_balance x => cases hop
  | _ => exact Bool.false_ne_true

/-- **The ledger's failure is answered with the balance cached last.** -/
theorem served_stale (json : RoundTrips env) (h : AccountRun env (start table clock) ls d)
    (answers : RedisAnswers d.world.log) (timely : InTime d.world.log) {t : Nat}
    {auth : Jwt.AuthHeader} {account_id : String} {r : Except Failure Response}
    (hr : d.returned t (.get_balance auth account_id) r)
    (hrefused : (history t d.world.log).any refused = true) :
    ∃ before read, LastOf d.world.log t before read ∧
      ∀ w ∈ last_cached (Uuid.parse_str account_id) before,
        ∃ v, Caches env w v ∧ r = .ok (.balance v true) := by
  have hanswer : BalanceAnswer env account_id (history t d.world.log) r :=
    h.answer (serve_balance env) hr
  generalize hhist : history t d.world.log = hist at hanswer hrefused
  cases hanswer with
  | hit reply unasked =>
    rw [List.any_append, unasked_refused unasked] at hrefused
    cases hrefused
  | fetched unasked =>
    rw [List.any_append, unasked_refused unasked] at hrefused
    cases hrefused
  | refused unasked =>
    rw [unasked_refused unasked] at hrefused
    cases hrefused
  | @fallback h₀ x e reply unasked =>
    obtain ⟨before, read, after, split, ht, hdid, hbefore, hafter⟩ := history_split
      (show _ = (h₀ ++ [⟨.get_balance x, .error e⟩]) ++ _ :: [] from
        hhist.trans (by rw [List.append_assoc]; rfl))
    refine ⟨before, read, ⟨after, split, ht, hafter⟩, ?_⟩
    intro w hw
    have hmem : read ∈ d.world.log := split ▸ List.mem_append_right _ List.mem_cons_self
    have hreq := h.own_req (serve_balance env) hr hmem ht
    have hop : read.op = .redis (.get (balance_cache_key account_id)) := congrArg Done.op hdid
    have hfalls : falls_back before read = true := by
      rw [falls_back, hop, ht, hbefore, List.any_append]
      simp [Op.reads_cache, refused]
    obtain ⟨hkey, hsoon⟩ :=
      (timely before read after split).fallback hfalls w (by rwa [hreq])
    rw [hreq] at hkey
    obtain ⟨v, _, hfound, hcached, _⟩ := read_within json h answers split hdid
      (last_stored_of_cached hw hkey) hsoon
    refine ⟨v, hcached, ?_⟩
    rw [hfound]
    rfl

/-- **A balance without the flag was confirmed within five seconds.** -/
theorem served_fresh (json : RoundTrips env) (h : AccountRun env (start table clock) ls d)
    (answers : RedisAnswers d.world.log) (timely : InTime d.world.log) {t : Nat}
    {auth : Jwt.AuthHeader} {account_id : String} {v : Value}
    (hr : d.returned t (.get_balance auth account_id) (.ok (.balance v false))) :
    ∃ before last, LastOf d.world.log t before last ∧
      ∃ f ∈ before, Confirms account_id f v ∧ last.pre.clock ≤ f.pre.clock + ttl := by
  have hanswer : BalanceAnswer env account_id (history t d.world.log) (.ok (.balance v false)) :=
    h.answer (serve_balance env) hr
  generalize hhist : history t d.world.log = hist at hanswer
  generalize hresult : (.ok (.balance v false) : Except Failure Response) = r at hanswer
  cases hanswer with
  | @hit h₀ v' reply unasked hit =>
    cases hresult
    obtain ⟨before, read, after, split, ht, hdid, hbefore, hafter⟩ := history_split hhist
    refine ⟨before, read, ⟨after, split, ht, hafter⟩, ?_⟩
    have hmem : read ∈ d.world.log := split ▸ List.mem_append_right _ List.mem_cons_self
    have hreq := h.own_req (serve_balance env) hr hmem ht
    have hop : read.op = .redis (.get (balance_cache_key account_id)) := congrArg Done.op hdid
    obtain ⟨w, hlast, hsoon⟩ := read_soon h answers split hdid hit
    obtain ⟨v', f, hfound, _, hf, hft, hconfirms⟩ :=
      read_within json h answers split hdid hlast hsoon
    obtain rfl := Option.some.inj (hfound.symm.trans hit)
    have first : falls_back before read = false := by
      rw [falls_back, ht, hbefore, unasked_refused unasked, Bool.and_false]
    have hlast' : last_stored read.req.balance_key before = some w := by
      rw [hreq]
      exact hlast
    exact ⟨f, hf, hconfirms, (timely before read after split).read
      (by rw [hop]; rfl) first w hlast' hsoon f hf hft hconfirms.asked⟩
  | @fetched h₀ x bal currency cmd reply unasked parsed caching =>
    cases hresult
    obtain ⟨before, last, after, split, ht, hdid, hbefore, hafter⟩ := history_split
      (show _ = (h₀ ++ [⟨.get_balance x, .ok bal⟩]) ++ _ :: [] from
        hhist.trans (by rw [List.append_assoc]; rfl))
    refine ⟨before, last, ⟨after, split, ht, hafter⟩, ?_⟩
    have hasked : (⟨.get_balance x, .ok bal⟩ : AccountDone) ∈ history t before := by
      rw [hbefore]
      exact List.mem_append_right _ List.mem_cons_self
    obtain ⟨f, hf, hft, hfdid⟩ := mem_history.mp hasked
    have hop : last.op = .redis cmd := congrArg Done.op hdid
    have hconfirms : Confirms account_id f _ := ⟨x, bal, currency, hfdid, parsed, rfl⟩
    exact ⟨f, hf, hconfirms, (timely before last after split).stored (by rw [hop]; exact caching) f
      hf (hft.trans ht.symm) hconfirms.asked⟩
  | @fallback h₀ x e reply unasked =>
    cases hfound : found env reply <;> rw [hfound] at hresult <;> cases hresult
  | refused => cases hresult

/-- **In a run whose events are timely the fallback works, and nothing old passes for fresh.** -/
theorem balances_served (env : Env) (json : RoundTrips env) (table : Table env) (clock : Nat)
    (ls : List AccountLabel) (d : AccountConf) (h : AccountRun env (start table clock) ls d)
    (answers : RedisAnswers d.world.log) (timely : InTime d.world.log) : BalancesServed env d where
  stale _ _ _ _ hr hrefused := served_stale json h answers timely hr hrefused
  fresh _ _ _ _ hr := served_fresh json h answers timely hr

/-! ## A service that prints its JSON -/

/-- A quote and a backslash are written behind a backslash. -/
def escaped (c : Char) : List Char := if c = '"' ∨ c = '\\' then ['\\', c] else [c]

/-- A text, and the quote that ends it. -/
def quoted (s : String) : List Char := s.toList.flatMap escaped ++ ['"']

/-- The text up to the quote that ends it, and what follows. -/
def unquoted : List Char → List Char × List Char
  | [] => ([], [])
  | '"' :: rest => ([], rest)
  | '\\' :: c :: rest => (c :: (unquoted rest).1, (unquoted rest).2)
  | c :: rest => (c :: (unquoted rest).1, (unquoted rest).2)

/-- What follows a beginning. -/
def follows (start l : List Char) : Option (List Char) :=
  if start.isPrefixOf l then some (l.drop start.length) else none

theorem unquoted_quoted (s : String) (rest : List Char) :
    unquoted (quoted s ++ rest) = (s.toList, rest) := by
  unfold quoted
  generalize s.toList = l
  induction l with
  | nil => rfl
  | cons c l ih =>
    by_cases hc : c = '"' ∨ c = '\\'
    · rw [List.flatMap_cons, escaped, if_pos hc]
      simp only [List.cons_append, List.nil_append, unquoted, ih]
    · rw [List.flatMap_cons, escaped, if_neg hc]
      rw [not_or] at hc
      have step : ∀ rest, unquoted (c :: rest) = (c :: (unquoted rest).1, (unquoted rest).2) := by
        intro rest
        rw [unquoted]
        · exact hc.1
        · intro _ _ heq
          exact absurd heq hc.2
      simp only [List.cons_append, List.nil_append, step, ih]

theorem follows_append (start l : List Char) : follows start (start ++ l) = some l := by
  simp [follows]

/-- A balance as an object of four texts, each behind its key. -/
def printed (k₁ k₂ k₃ k₄ : List Char) (account_id available currency pending : String) :
    List Char :=
  k₁ ++ (quoted account_id ++ (k₂ ++ (quoted available ++ (k₃ ++ (quoted currency ++
    (k₄ ++ (quoted pending ++ ['\x7d'])))))))

/-- The balance that a text is the object of. -/
def parsed (k₁ k₂ k₃ k₄ text : List Char) : Option Value := do
  let l ← follows k₁ text
  let (account_id, l) := unquoted l
  let l ← follows k₂ l
  let (available, l) := unquoted l
  let l ← follows k₃ l
  let (currency, l) := unquoted l
  let l ← follows k₄ l
  let (pending, l) := unquoted l
  if l = ['\x7d'] then
    some (.balance (String.ofList account_id) (String.ofList currency) (String.ofList available)
      (String.ofList pending))
  else none

theorem parsed_printed (k₁ k₂ k₃ k₄ : List Char) (account_id available currency pending : String) :
    parsed k₁ k₂ k₃ k₄ (printed k₁ k₂ k₃ k₄ account_id available currency pending) =
      some (.balance account_id currency available pending) := by
  simp only [parsed, printed, follows_append, unquoted_quoted, Option.bind_eq_bind,
    Option.bind_some, if_true, String.ofList_toList]

/-- The sample, with a JSON of these keys. -/
def printing (k₁ k₂ k₃ k₄ : List Char) : Env where
  coll := ascii_ci
  key := 1
  json_text
    | .balance account_id currency available_balance pending_amount =>
      String.ofList (printed k₁ k₂ k₃ k₄ account_id available_balance currency pending_amount)
    | .other text => text
  json_value text := parsed k₁ k₂ k₃ k₄ text.toList <|> some (.other text)
  ledger := Ledger.sample

theorem printing_round_trips (k₁ k₂ k₃ k₄ : List Char) : RoundTrips (printing k₁ k₂ k₃ k₄) := by
  intro account_id currency available pending
  simp only [printing, String.toList_ofList, parsed_printed]
  rfl

/-- The sample, with the object's keys in order. -/
def sample_json : Env :=
  printing "\x7b\"account_id\":\"".toList ",\"available_balance\":\"".toList
    ",\"currency\":\"".toList ",\"pending_amount\":\"".toList

def json_table : Table sample_json where
  rows := [sample_account]
  keys := List.pairwise_singleton _ _
  checks := sample_table.checks

def json_start : AccountConf := start json_table 1700000000000000000

/-- Two calls read the cache, the first caches what the ledger answers, and two seconds later the
ledger fails the second. -/
def overlapping_reads : List AccountLabel :=
  [.spawn (.get_balance sample_bearer (Uuid.low 2).to_string),
    .spawn (.get_balance sample_bearer (Uuid.low 2).to_string), .run 0 {}, .run 0 {}, .run 0 {},
    .run 1 {}, .run 1 {}, .run 1 {}, .run 0 {}, .run 0 {}, .env (.advance 2000000000),
    .run 1 { balance := .error (.LedgerClient "unavailable") }, .run 1 {}]

/-- A call caches what the ledger answers, and six seconds later the ledger fails another. -/
def late_failure : List AccountLabel :=
  [.spawn (.get_balance sample_bearer (Uuid.low 2).to_string), .run 0 {}, .run 0 {}, .run 0 {},
    .run 0 {}, .run 0 {}, .env (.advance 6000000000),
    .spawn (.get_balance sample_bearer (Uuid.low 2).to_string), .run 1 {}, .run 1 {}, .run 1 {},
    .run 1 { balance := .error (.LedgerClient "unavailable") }, .run 1 {}]

/-- A command to Redis was answered. -/
def answered_done : AccountDone → Bool
  | ⟨.redis _, none⟩ => false
  | _ => true

theorem redis_answers_of {log : List AccountEvent}
    (h : log.all (fun e => answered_done e.did) = true) : RedisAnswers log := by
  intro e he cmd hdid
  have hdone := List.all_eq_true.mp h e he
  rw [hdid] at hdone
  cases hdone

theorem in_time_of {log : List AccountEvent}
    (h : ∀ i : Fin log.length, Timely (log.take i) (log.get i)) : InTime log := by
  rintro before r after rfl
  have here := h ⟨before.length, by simp⟩
  simpa using here

/-- The promise where another call caches in between. -/
theorem balances_served_between : ∃ d,
    AccountRun sample_json json_start overlapping_reads d ∧ BalancesServed sample_json d ∧
      d.result? 1 = some (.ok (.balance
        (.balance (Uuid.low 2).to_string "NGN" "0" "0") true)) := by
  obtain ⟨d, run, checked⟩ : ∃ d, AccountRun sample_json json_start overlapping_reads d ∧
      (decide (∀ i : Fin d.world.log.length, Timely (d.world.log.take i) (d.world.log.get i)) &&
        d.world.log.all (fun e => answered_done e.did) && d.result? 1 == some (.ok (.balance
          (.balance (Uuid.low 2).to_string "NGN" "0" "0") true))) = true :=
    ⟨_, replayed_spec (machine sample_json) (serve sample_json) json_start overlapping_reads
      (fun d => decide (∀ i : Fin d.world.log.length,
        Timely (d.world.log.take i) (d.world.log.get i)) &&
          d.world.log.all (fun e => answered_done e.did) && d.result? 1 == some (.ok (.balance
            (.balance (Uuid.low 2).to_string "NGN" "0" "0") true))) (by decide +kernel)⟩
  simp only [Bool.and_eq_true, decide_eq_true_eq, beq_iff_eq] at checked
  obtain ⟨⟨timely, answers⟩, result⟩ := checked
  exact ⟨d, run, balances_served sample_json (printing_round_trips _ _ _ _) json_table
    1700000000000000000 overlapping_reads d run (redis_answers_of answers) (in_time_of timely),
    result⟩

/-- Where the log ends with an event of the call, that is the call's last. -/
theorem LastOf.whole {log before : List AccountEvent} {t : Nat} {r last : AccountEvent}
    (h : LastOf log t before r) (hlast : log.getLast? = some last) (ht : last.tid = t) :
    before = log.dropLast := by
  obtain ⟨after, rfl, _, hafter⟩ := h
  rcases List.eq_nil_or_concat after with rfl | ⟨init, x, rfl⟩
  · simp
  · have hx : x ∈ init.concat x := by simp
    have heq : x = last := by simpa [List.getLast?_cons] using hlast
    exact absurd (heq ▸ ht) (no_event hafter hx)

/-- Call 1 is for the account and ends the log, it failed with the ledger, and a balance of the
account had been cached. -/
def fails_cached (account_id : String) (d : AccountConf) : Bool :=
  d.world.log.all (fun e => answered_done e.did) &&
    d.result? 1 == some (.error (.error (.LedgerClient "unavailable"))) &&
      (history 1 d.world.log).any refused && d.world.log.getLast?.any (fun e => e.tid == 1) &&
        d.pool[1]?.any (fun call => call.req.balance_key == some (balance_cache_key account_id)) &&
          (last_cached (Uuid.parse_str account_id) d.world.log.dropLast).isSome

/-- A balance is cached, and six seconds later the ledger's failure is answered with an error. -/
theorem cached_balance_lost :
    ¬ ∀ (env : Env), RoundTrips env → ∀ (table : Table env) (clock : Nat) (ls : List AccountLabel)
        (d : AccountConf), AccountRun env (start table clock) ls d → RedisAnswers d.world.log →
          BalancesServed env d := by
  intro claim
  obtain ⟨run, checked⟩ := replayed_spec (machine sample_json) (serve sample_json) json_start
    late_failure (fails_cached (Uuid.low 2).to_string) (by decide +kernel)
  generalize replayed (machine sample_json) (serve sample_json) json_start late_failure = d
    at run checked
  simp only [fails_cached, Bool.and_eq_true, beq_iff_eq] at checked
  obtain ⟨⟨⟨⟨⟨answers, result⟩, hrefused⟩, hlast⟩, hcall⟩, hcached⟩ := checked
  obtain ⟨call, hcall, hkey⟩ := (Option.any_eq_true _ _).mp hcall
  obtain ⟨auth, hreq⟩ := balance_key_of (beq_iff_eq.mp hkey)
  have served := claim sample_json (printing_round_trips _ _ _ _) json_table 1700000000000000000
    late_failure d run (redis_answers_of answers)
  obtain ⟨before, read, ends, hall⟩ := served.stale 1 auth (Uuid.low 2).to_string _
    (returned_of_result? (by rw [hcall, ← hreq]; rfl) result) hrefused
  obtain ⟨last, hlast, ht⟩ := (Option.any_eq_true _ _).mp hlast
  obtain ⟨w, hw⟩ := Option.isSome_iff_exists.mp hcached
  rw [← ends.whole hlast (beq_iff_eq.mp ht)] at hw
  obtain ⟨v, _, hok⟩ := hall w hw
  cases hok

end Kova.Account

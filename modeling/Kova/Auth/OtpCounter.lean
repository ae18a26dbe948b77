import Mathlib
import Kova.Auth.OtpSteps

/-!
# The counter of a phone number

What one operation does to the counter: an INCR that takes effect begins or raises it
(`counter_raised`), an EXPIRE that takes effect gives it 600 seconds (`counter_timed`), and nothing
else touches it (`counter_kept`). Its value is the number of the increments since it was last begun
(`counter_counts`), and it is there for the 600 seconds from then on (`counter_lasts`), for ever if
it never got an expiry.
-/

set_option autoImplicit false

namespace Kova.Auth

open Conc

variable {env : Env} {S : AuthScope} {clock : Nat} {ls : List AuthLabel} {d : AuthConf}

/-! ## What the log says of it -/

/-- The counter of a phone number, if it is there. -/
def Store.counter (s : Store) (phone_number : String) : Option Redis.Entry :=
  s.redis.at s.clock (rl_key phone_number)

deriving instance DecidableEq for Redis.Cmd

/-- The command took effect, its reply possibly lost. -/
def took_effect (cmd : Redis.Cmd) (e : AuthEvent) : Bool :=
  match e.op with
  | .redis cmd' =>
    cmd' = cmd && decide (e.post.redis = (Redis.run e.pre.clock e.pre.redis cmd).2)
  | _ => false

/-- The event incremented the counter. -/
def increments (phone_number : String) : AuthEvent → Bool :=
  took_effect (.incr (rl_key phone_number) 1)

/-- The event gave the counter its expiry. -/
def expires (phone_number : String) : AuthEvent → Bool :=
  took_effect (.expire (rl_key phone_number) OTP_RATE_WINDOW_SECS)

/-- The event incremented the counter when it was not there. -/
def begins (phone_number : String) (e : AuthEvent) : Bool :=
  increments phone_number e && (e.pre.counter phone_number).isNone

/-- The event sent a code to the phone number. -/
def sends (phone_number : String) (e : AuthEvent) : Bool :=
  match e.did with
  | ⟨.send_sms phone_number' _, some ()⟩ => phone_number' = phone_number
  | _ => false

/-- The event read the counter, with an answer. -/
def reads (phone_number : String) (e : AuthEvent) : Bool :=
  match e.did with
  | ⟨.redis (.get key), some _⟩ => key = rl_key phone_number
  | _ => false

section Events

variable {phone_number : String} {e : AuthEvent} {cmd : Redis.Cmd}

theorem took_effect_iff : took_effect cmd e = true ↔
    e.op = .redis cmd ∧ e.post.redis = (Redis.run e.pre.clock e.pre.redis cmd).2 := by
  unfold took_effect
  split
  · next cmd' hop =>
    rw [Bool.and_eq_true, decide_eq_true_eq, decide_eq_true_eq, hop, Op.redis.injEq]
  · next hop =>
    constructor
    · rintro ⟨⟩
    · rintro ⟨h, _⟩
      exact absurd h (hop cmd)

theorem begins_iff : begins phone_number e = true ↔
    increments phone_number e = true ∧ e.pre.counter phone_number = none := by
  rw [begins, Bool.and_eq_true, Option.isNone_iff_eq_none]

theorem sends_iff : sends phone_number e = true ↔ ∃ otp, e.did = sending phone_number otp := by
  unfold sends
  split
  · next phone_number' otp hdid =>
    rw [hdid, decide_eq_true_eq]
    constructor
    · rintro rfl
      exact ⟨otp, rfl⟩
    · rintro ⟨_, ⟨⟩⟩
      rfl
  · next hdid =>
    constructor
    · rintro ⟨⟩
    · rintro ⟨otp, h⟩
      exact absurd h (hdid phone_number otp)

theorem reads_iff :
    reads phone_number e = true ↔ ∃ value, e.did = reading phone_number (some value) := by
  unfold reads
  split
  · next key value hdid =>
    rw [hdid, decide_eq_true_eq]
    constructor
    · rintro rfl
      exact ⟨value, rfl⟩
    · rintro ⟨_, ⟨⟩⟩
      rfl
  · next hdid =>
    constructor
    · rintro ⟨⟩
    · rintro ⟨value, h⟩
      exact absurd h (hdid (rl_key phone_number) value)

/-- What an INCR makes of the counter. -/
def raised : Option Redis.Entry → Option Redis.Entry
  | none => some ⟨"1", none⟩
  | some entry => some <|
    match Redis.integer entry.value with
    | none => entry
    | some n => ⟨toString (n + 1), entry.expires⟩

/-- What an EXPIRE at a given moment makes of it. -/
def timed (now : Nat) (counter : Option Redis.Entry) : Option Redis.Entry :=
  counter.map fun entry => { entry with expires := some (now + 600000000000) }

theorem counter_raised (hclock : e.post.clock = e.pre.clock)
    (h : increments phone_number e = true) :
    e.post.counter phone_number = raised (e.pre.counter phone_number) := by
  rw [Store.counter, hclock, (took_effect_iff.mp h).2]
  cases hentry : e.pre.counter phone_number with
  | none =>
    rw [Redis.run_incr_none hentry, Redis.at_put]
    rfl
  | some entry =>
    cases hn : Redis.integer entry.value with
    | none =>
      rw [Redis.run_incr_text hentry hn, Redis.at_live _ (Nat.le_refl _)]
      simp only [raised, hn]
      exact hentry
    | some n =>
      have hlives : entry.lives e.pre.clock = true := Redis.lives_of_at hentry
      rw [Redis.run_incr_some hentry hn, Redis.at_put]
      refine (if_pos hlives).trans ?_
      simp only [raised, hn]

theorem counter_timed (hclock : e.post.clock = e.pre.clock) (h : expires phone_number e = true) :
    e.post.counter phone_number = timed e.pre.clock (e.pre.counter phone_number) := by
  rw [Store.counter, hclock, (took_effect_iff.mp h).2]
  cases hentry : e.pre.counter phone_number with
  | none =>
    have hlookup := hentry
    rw [Store.counter, Redis.Db.at] at hlookup
    simp only [Redis.run, hlookup]
    exact (Redis.at_live _ (Nat.le_refl _) _).trans hentry
  | some entry =>
    rw [Redis.run_expire hentry, Redis.at_put, if_pos (Redis.lives_until _)]
    · rfl
    · simp [OTP_RATE_WINDOW_SECS]

/-- **Nothing else** touches the counter. -/
theorem counter_kept {ch : Choice} (hexec : exec env ch e.pre e.op = some (e.res, e.post))
    {h : List AuthDone} (hguard : counting e.req h e.op) (hinc : ¬ increments phone_number e = true)
    (hexp : ¬ expires phone_number e = true) :
    e.post.counter phone_number = e.pre.counter phone_number := by
  rw [Store.counter, exec_clock hexec]
  rcases exec_redis hexec with hsame | ⟨cmd, hop, hrun⟩
  · rw [hsame, Store.counter]
  · by_cases hkey : cmd.key = rl_key phone_number
    · rw [hop] at hguard
      obtain ⟨_, hcmd⟩ := hguard phone_number hkey
      cases cmd with
      | get key =>
        rw [hrun]
        exact Redis.at_live _ (Nat.le_refl _) _
      | incr key delta =>
        obtain ⟨rfl, _⟩ := hcmd
        obtain rfl : key = rl_key phone_number := hkey
        exact absurd (took_effect_iff.mpr ⟨hop, hrun⟩) hinc
      | expire key seconds =>
        obtain ⟨rfl, _⟩ := hcmd
        obtain rfl : key = rl_key phone_number := hkey
        exact absurd (took_effect_iff.mpr ⟨hop, hrun⟩) hexp
      | set_ex | get_del => cases hcmd
    · rw [hrun, Redis.run_other _ _ hkey (Nat.le_refl _), Store.counter]

/-- No command is two. -/
theorem not_increments_of_expires (h : expires phone_number e = true) :
    increments phone_number e = false := by
  apply Bool.eq_false_iff.mpr
  intro hinc
  cases (took_effect_iff.mp h).1.symm.trans (took_effect_iff.mp hinc).1

theorem not_expires_of_increments (h : increments phone_number e = true) :
    expires phone_number e = false := by
  apply Bool.eq_false_iff.mpr
  intro hexp
  rw [not_increments_of_expires hexp] at h
  cases h

theorem not_begins_of_increments (h : increments phone_number e = false) :
    begins phone_number e = false := by
  rw [begins, h, Bool.false_and]

theorem not_begins_of_there {entry : Redis.Entry} (h : e.pre.counter phone_number = some entry) :
    begins phone_number e = false := by
  rw [begins, h]
  exact Bool.and_false _

end Events

/-! ## Over a run -/

/-- Redis has no key twice. -/
theorem redis_keyed (h : AuthRun env S (start clock) ls d) : d.world.store.redis.Keyed := by
  refine h.store_invariant (P := fun s => s.redis.Keyed) ?_ ?_ List.nodup_nil
  · intro t ch s op r s' hc hexec
    rcases exec_redis hexec with hsame | ⟨cmd, _, hrun⟩
    · exact hsame ▸ hc
    · exact hrun ▸ hc.run _ _
  · rintro ⟨n⟩ s s' hc henv
    cases henv
    exact hc

/-- Where time passes, the counter stays until it expires. -/
theorem counter_outside (h : AuthRun env S (start clock) ls d) {o : Outside} {s' : Store}
    (henv : (machine env).env o d.world.store = some s') (phone_number : String) :
    s'.counter phone_number = (d.world.store.counter phone_number).filter (·.lives s'.clock) := by
  have hlater := ((later_follows env).env henv).clock
  obtain ⟨n⟩ := o
  cases henv
  exact (redis_keyed h).at_later hlater _

variable {phone_number : String}

/-- The end of a log from where the counter was last begun. -/
structure Window (phone_number : String) (log window : List AuthEvent) : Prop where
  suffix : window <:+ log
  begun : ∃ b after, window = b :: after ∧ begins phone_number b = true ∧
    ∀ x ∈ after, begins phone_number x = false

theorem window_begun (log : List AuthEvent) {e : AuthEvent} (he : begins phone_number e = true) :
    Window phone_number (log ++ [e]) [e] :=
  ⟨List.suffix_append _ _, e, [], rfl, he, by simp⟩

theorem Window.snoc {log window : List AuthEvent} (h : Window phone_number log window)
    {e : AuthEvent} (he : begins phone_number e = false) :
    Window phone_number (log ++ [e]) (window ++ [e]) := by
  obtain ⟨before, rfl⟩ := h.suffix
  obtain ⟨b, after, rfl, hb, hafter⟩ := h.begun
  refine ⟨⟨before, (List.append_assoc _ _ _).symm⟩, b, after ++ [e], rfl, hb, ?_⟩
  intro x hx
  rcases List.mem_append.mp hx with hx | hx
  · exact hafter x hx
  · exact List.mem_singleton.mp hx ▸ he

/-- The counter holds the number of the increments since it was last begun. -/
def Counts (phone_number : String) (log : List AuthEvent) (counter : Option Redis.Entry) : Prop :=
  ∀ entry, counter = some entry → ∃ window, Window phone_number log window ∧
    Redis.integer entry.value = some ((window.countP (increments phone_number) : Nat) : Int)

/-- An event that does not increment leaves the count alone. -/
theorem Counts.idle {log : List AuthEvent} {counter counter' : Option Redis.Entry} {e : AuthEvent}
    (h : Counts phone_number log counter) (he : increments phone_number e = false)
    (same : ∀ entry', counter' = some entry' →
      ∃ entry, counter = some entry ∧ entry.value = entry'.value) :
    Counts phone_number (log ++ [e]) counter' := by
  intro entry' hentry'
  obtain ⟨entry, hentry, hvalue⟩ := same entry' hentry'
  obtain ⟨window, hwindow, hcount⟩ := h entry hentry
  refine ⟨window ++ [e], hwindow.snoc (not_begins_of_increments he), ?_⟩
  rw [← hvalue, hcount, List.countP_append, List.countP_singleton, if_neg (by simp [he])]
  rfl

/-- An increment adds one to it, or begins it. -/
theorem Counts.incremented {log : List AuthEvent} {e : AuthEvent}
    (h : Counts phone_number log (e.pre.counter phone_number))
    (he : increments phone_number e = true) :
    Counts phone_number (log ++ [e]) (raised (e.pre.counter phone_number)) := by
  intro entry' hentry'
  cases hentry : e.pre.counter phone_number with
  | none =>
    rw [hentry] at hentry'
    cases hentry'
    refine ⟨[e], window_begun log (begins_iff.mpr ⟨he, hentry⟩), ?_⟩
    rw [List.countP_singleton, if_pos he]
    exact Redis.integer_toString 1
  | some entry =>
    obtain ⟨window, hwindow, hcount⟩ := h entry hentry
    simp only [hentry, raised, hcount, Option.some.injEq] at hentry'
    refine ⟨window ++ [e], hwindow.snoc (not_begins_of_there hentry), ?_⟩
    rw [← hentry', List.countP_append, List.countP_singleton, if_pos he, Nat.cast_add,
      Nat.cast_one]
    exact Redis.integer_toString (((window.countP (increments phone_number) : Nat) : Int) + 1)

/-- **The value of the counter**, in every run. -/
theorem counter_counts (h : AuthRun env S (start clock) ls d) (phone_number : String) :
    Counts phone_number d.world.log (d.world.store.counter phone_number) := by
  refine h.world_invariant
    (P := fun w => Counts phone_number w.log (w.store.counter phone_number)) (serve_counting env)
    ?_ ?_ (by rintro entry ⟨⟩)
  · rintro ms c e _ hc hpre ⟨ch, _, hexec⟩ hguard
    rw [← hpre] at hc
    by_cases hinc : increments phone_number e = true
    · rw [World.push_store, counter_raised (exec_clock hexec) hinc]
      exact hc.incremented hinc
    · refine hc.idle (Bool.eq_false_iff.mpr hinc) ?_
      intro entry' hentry'
      rw [World.push_store] at hentry'
      by_cases hexp : expires phone_number e = true
      · rw [counter_timed (exec_clock hexec) hexp] at hentry'
        obtain ⟨entry, hentry, rfl⟩ := Option.map_eq_some_iff.mp hentry'
        exact ⟨entry, hentry, rfl⟩
      · rw [counter_kept hexec hguard hinc hexp] at hentry'
        exact ⟨entry', hentry', rfl⟩
  · rintro ms c o s' hrun hc henv entry hentry
    rw [World.moved_store, counter_outside hrun henv, Option.filter_eq_some_iff] at hentry
    exact hc entry hentry.1

/-- And where an event was executed. -/
theorem event_counts (h : AuthRun env S (start clock) ls d) {before after : List AuthEvent}
    {e : AuthEvent} (split : d.world.log = before ++ e :: after) (phone_number : String) :
    Counts phone_number before (e.pre.counter phone_number) :=
  h.world_at (P := fun w => Counts phone_number w.log (w.store.counter phone_number)) split
    fun hrun => counter_counts hrun phone_number

/-- The counter is there until a given moment. -/
def Lasts (s : Store) (phone_number : String) (T : Nat) : Prop :=
  s.clock < T → ∃ entry, s.counter phone_number = some entry ∧ entry.expires.all (T ≤ ·) = true

/-- No operation shortens its life to less than 600 seconds from now. -/
theorem Lasts.exec {ch : Choice} {e : AuthEvent} {T : Nat} (held : Lasts e.pre phone_number T)
    (hexec : exec env ch e.pre e.op = some (e.res, e.post)) {h : List AuthDone}
    (hguard : counting e.req h e.op) (soon : T ≤ e.pre.clock + 600000000000) :
    Lasts e.post phone_number T := by
  intro hT
  rw [exec_clock hexec] at hT
  obtain ⟨entry, hentry, hlong⟩ := held hT
  by_cases hinc : increments phone_number e = true
  · rw [counter_raised (exec_clock hexec) hinc, hentry]
    refine ⟨_, rfl, ?_⟩
    split
    · exact hlong
    · exact hlong
  · by_cases hexp : expires phone_number e = true
    · rw [counter_timed (exec_clock hexec) hexp, hentry]
      exact ⟨_, rfl, decide_eq_true soon⟩
    · rw [counter_kept hexec hguard hinc hexp]
      exact ⟨entry, hentry, hlong⟩

/-- **A counter lasts**: where it was begun, it is there for 600 seconds. -/
theorem counter_lasts (h : AuthRun env S (start clock) ls d) :
    ∀ b ∈ d.world.log, begins phone_number b = true →
      Lasts d.world.store phone_number (b.pre.clock + 600000000000) := by
  refine h.world_invariant (P := fun w => ∀ b ∈ w.log, begins phone_number b = true →
    Lasts w.store phone_number (b.pre.clock + 600000000000)) (serve_counting env) ?_ ?_
    (by rintro b ⟨⟩)
  · rintro ms c e hrun hc hpre ⟨ch, _, hexec⟩ hguard b hb hbegins
    rw [← hpre] at hc
    rcases List.mem_append.mp hb with hb | hb
    · have hpast := (event_since hrun hb).clock
      rw [← hpre] at hpast
      exact (hc b hb hbegins).exec hexec hguard (by omega)
    · obtain rfl := List.mem_singleton.mp hb
      obtain ⟨hinc, hnone⟩ := begins_iff.mp hbegins
      intro _
      rw [World.push_store, counter_raised (exec_clock hexec) hinc, hnone]
      exact ⟨_, rfl, rfl⟩
  · rintro ms c o s' hrun hc henv b hb hbegins hT
    have hlater := ((later_follows env).env henv).clock
    rw [World.moved_store] at hT ⊢
    obtain ⟨entry, hentry, hlong⟩ := hc b hb hbegins (by omega)
    refine ⟨entry, ?_, hlong⟩
    rw [counter_outside hrun henv, hentry]
    exact Option.filter_some_pos (Redis.lives_before hlong hT)

/-! ## The events of a call -/

section Calls

variable {e x a b g i : AuthEvent} {reply : Option (Option String)}

theorem event_counting (h : AuthRun env S (start clock) ls d) (hab : Precedes d.world.log x e) :
    ∃ before after, d.world.log = before ++ e :: after ∧ x ∈ before ∧
      counting e.req (history e.tid before) e.op := by
  obtain ⟨before, after, split, hx⟩ := hab
  exact ⟨before, after, split, hx, h.guard (serve_counting env) split⟩

/-- The reading is the first operation of its call. -/
theorem read_first (h : AuthRun env S (start clock) ls d) (hg : g.did = reading phone_number reply)
    (hx : Precedes d.world.log x g) : x.tid ≠ g.tid := by
  obtain ⟨before, after, _, hx, hguard⟩ := event_counting h hx
  rw [show g.op = .redis (.get (rl_key phone_number)) from congrArg Done.op hg] at hguard
  obtain ⟨_, hfirst⟩ := hguard phone_number rfl
  exact no_event hfirst hx

theorem read_once (h : AuthRun env S (start clock) ls d) (hg : g.did = reading phone_number reply) :
    ¬ Precedes d.world.log g g := fun hgg => read_first h hg hgg rfl

/-- A call reads one counter, once. -/
theorem read_unique (h : AuthRun env S (start clock) ls d) (ha : a ∈ d.world.log)
    (hg : g ∈ d.world.log) {phone_number' : String} {reply' : Option (Option String)}
    (hread : a.did = reading phone_number reply) (hread' : g.did = reading phone_number' reply')
    (ht : a.tid = g.tid) : a = g := by
  rcases precedes_total ha hg with heq | hag | hga
  · exact heq
  · exact absurd ht (read_first h hread' hag)
  · exact absurd ht.symm (read_first h hread hga)

/-- A call sends one code. -/
theorem sent_once (h : AuthRun env S (start clock) ls d) {phone_number' : String}
    (ha : sends phone_number' a = true) (hb : sends phone_number b = true)
    (hab : Precedes d.world.log a b) : a.tid ≠ b.tid := by
  obtain ⟨before, after, _, ha', hguard⟩ := event_counting h hab
  obtain ⟨otp, hsent⟩ := sends_iff.mp ha
  obtain ⟨otp', hsent'⟩ := sends_iff.mp hb
  rw [show b.op = .send_sms phone_number otp' from congrArg Done.op hsent'] at hguard
  obtain ⟨_, _, honce⟩ := hguard
  intro ht
  exact honce a.did (mem_history.mpr ⟨a, ha', ht, rfl⟩) phone_number' otp (congrArg Done.op hsent)

theorem sent_unique (h : AuthRun env S (start clock) ls d) (ha : a ∈ d.world.log)
    (hb : b ∈ d.world.log) (hsent : sends phone_number a = true)
    (hsent' : sends phone_number b = true) (ht : a.tid = b.tid) : a = b := by
  rcases precedes_total ha hb with heq | hab | hba
  · exact heq
  · exact absurd ht (sent_once h hsent hsent' hab)
  · exact absurd ht.symm (sent_once h hsent' hsent hba)

/-- A call increments one counter, once. -/
theorem incremented_once (h : AuthRun env S (start clock) ls d) {phone_number' : String}
    (ha : increments phone_number' a = true) (hb : increments phone_number b = true)
    (hab : Precedes d.world.log a b) : a.tid ≠ b.tid := by
  obtain ⟨before, after, _, ha', hguard⟩ := event_counting h hab
  rw [(took_effect_iff.mp hb).1] at hguard
  obtain ⟨_, _, _, honce⟩ := hguard phone_number rfl
  intro ht
  exact honce a.did (mem_history.mpr ⟨a, ha', ht, rfl⟩) _ _ (took_effect_iff.mp ha).1

/-- What is incremented was sent a code before. -/
theorem increment_sent (h : AuthRun env S (start clock) ls d) (hi : i ∈ d.world.log)
    (hinc : increments phone_number i = true) :
    ∃ a, Precedes d.world.log a i ∧ a.tid = i.tid ∧ sends phone_number a = true := by
  obtain ⟨before, after, split⟩ := List.append_of_mem hi
  have hguard := h.guard (serve_counting env) split
  rw [(took_effect_iff.mp hinc).1] at hguard
  obtain ⟨_, _, ⟨otp, hotp⟩, _⟩ := hguard phone_number rfl
  obtain ⟨a, _, hat, hdid, hprec⟩ := event_of_history after i hotp
  exact ⟨a, split ▸ hprec, hat, sends_iff.mpr ⟨otp, hdid⟩⟩

/-- Who sends a code has read a count below the limit before. -/
theorem sent_read (h : AuthRun env S (start clock) ls d) (ha : a ∈ d.world.log)
    (hsent : sends phone_number a = true) :
    ∃ g reply, Precedes d.world.log g a ∧ g.tid = a.tid ∧ g.did = reading phone_number reply ∧
      counted_as reply < OTP_RATE_LIMIT := by
  obtain ⟨before, after, split⟩ := List.append_of_mem ha
  obtain ⟨otp, hotp⟩ := sends_iff.mp hsent
  have hguard := h.guard (serve_counting env) split
  rw [show a.op = .send_sms phone_number otp from congrArg Done.op hotp] at hguard
  obtain ⟨_, ⟨reply, hread, hbelow⟩, _⟩ := hguard
  obtain ⟨g, _, hgt, hdid, hprec⟩ := event_of_history after a hread
  exact ⟨g, reply, split ▸ hprec, hgt, hdid, hbelow⟩

/-- A reply to the reading is the counter's value. -/
theorem read_value (h : AuthRun env S (start clock) ls d) (hg : g ∈ d.world.log)
    {value : Option String} (hread : g.did = reading phone_number (some value)) :
    value = (g.pre.counter phone_number).map (·.value) := by
  obtain ⟨_, ch, _, hexec⟩ := h.did hg hread
  simp only [machine, reading, exec] at hexec
  split at hexec
  · exact (Option.some.inj (congrArg Prod.fst (Option.some.inj hexec))).symm
  · cases congrArg Prod.fst (Option.some.inj hexec)
  · cases congrArg Prod.fst (Option.some.inj hexec)

/-- **A count below the limit**: the counter is not there, or it was incremented at most twice since
it was begun. -/
theorem read_below (h : AuthRun env S (start clock) ls d) {before after : List AuthEvent}
    (split : d.world.log = before ++ g :: after) {value : Option String}
    (hread : g.did = reading phone_number (some value))
    (hbelow : counted_as (some value) < OTP_RATE_LIMIT) :
    g.pre.counter phone_number = none ∨ ∃ window, Window phone_number before window ∧
      window.countP (increments phone_number) ≤ 2 := by
  have hcounts := event_counts h split phone_number
  have hvalue := read_value h (split ▸ List.mem_append_right _ List.mem_cons_self) hread
  cases hentry : g.pre.counter phone_number with
  | none => exact .inl rfl
  | some entry =>
    obtain ⟨window, hwindow, hcount⟩ := hcounts entry hentry
    rw [hvalue, hentry, Option.map_some, counted_as, hcount, Option.getD_some,
      OTP_RATE_LIMIT] at hbelow
    exact .inr ⟨window, hwindow, by omega⟩

/-- Events of different calls, each of which has incremented the counter, are no more than the
increments. -/
theorem length_le_increments {l window : List AuthEvent} (calls : (l.map (·.tid)).Nodup)
    (counted : ∀ a ∈ l, ∃ i ∈ window, increments phone_number i = true ∧ i.tid = a.tid) :
    l.length ≤ window.countP (increments phone_number) := by
  have hsub : l.map (·.tid) ⊆ (window.filter (increments phone_number)).map (·.tid) := by
    intro t ht
    obtain ⟨a, ha, rfl⟩ := List.mem_map.mp ht
    obtain ⟨i, hi, hinc, hit⟩ := counted a ha
    exact List.mem_map.mpr ⟨i, List.mem_filter.mpr ⟨hi, hinc⟩, hit⟩
  have hlen := (List.subperm_of_subset calls hsub).length_le
  rwa [List.length_map, List.length_map, ← List.countP_eq_length_filter] at hlen

end Calls

/-! ## More codes of the sample -/

/-- Call `t` asks for another code of the sample's phone number. -/
def asks_again (t : Nat) (n : UInt8) : List AuthLabel :=
  uninterrupted t (.otp_request "+2348012345678" "phone")
    [{}, {}, { draws := [123456] }, { text := sample_salt }, { uuid := .low n }, {}, {}, {}, {}]

/-- Call `t` asks for one and is refused. -/
def refused_again (t : Nat) : List AuthLabel :=
  uninterrupted t (.otp_request "+2348012345678" "phone") [{}]

end Kova.Auth

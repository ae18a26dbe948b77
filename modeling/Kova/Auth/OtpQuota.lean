import Kova.Auth.OtpCounter
import Kova.Conc.Serial

/-!
# How many codes are stored for a user

The limiter counts by the text of the phone number, byte by byte; the user is found by the collation
of `users.phone_number`. And a code is stored before the SMS is sent and the counter incremented. So
a user gets more than three codes in a window under different spellings of the number
(`spellings_share_no_quota`), and where the counting fails. If of any two calls that store a code
for the user the later one has read the counter that the earlier one incremented (`OneCounter`), at
most three codes are stored within ten minutes (`codes_quota`).
-/

set_option autoImplicit false

namespace Kova.Auth

open Conc

variable {env : Env} {S : AuthScope} {clock : Nat} {ls : List AuthLabel} {d : AuthConf}
  {phone_number : String} {u : Uuid}

/-- The number of the codes stored for the user. -/
def Store.codes_of (s : Store) (u : Uuid) : Nat := s.otp_codes.countP fun r => r.user_id == u

/-- The event stored one more code for the user. -/
def stores (u : Uuid) (e : AuthEvent) : Bool := e.post.codes_of u = e.pre.codes_of u + 1

/-- The event is one of a request for a code. -/
def Asks (e : AuthEvent) : Prop := ∃ phone_number fp, e.req = .otp_request phone_number fp

/-- The requests for a code execute one at a time. -/
def OneAtATime (log : List AuthEvent) : Prop :=
  ∀ a b c, Asks a → Asks b → Asks c → Precedes log a b → Precedes log b c → a.tid = c.tid →
    b.tid = a.tid

/-- They do so within 600 seconds. -/
def TenMinutes (log : List AuthEvent) : Prop :=
  ∀ a ∈ log, ∀ b ∈ log, Asks a → Asks b → b.pre.clock < a.pre.clock + 600000000000

/-- Of two calls that store a code for the user, the later one has read, with an answer, the counter
that the earlier one incremented: they send the same text, and neither the reading nor what stands
between the storing and the increment failed. -/
def OneCounter (u : Uuid) (log : List AuthEvent) : Prop :=
  ∀ a b, Precedes log a b → stores u a = true → stores u b = true →
    ∃ phone_number, (∃ i ∈ log, i.tid = a.tid ∧ increments phone_number i = true) ∧
      ∃ g ∈ log, g.tid = b.tid ∧ ∃ value, g.did = reading phone_number (some value)

/-! ## The rows and the log -/

theorem codes_of_consume (s : Store) (id u : Uuid) : (s.consume id).codes_of u = s.codes_of u := by
  rw [Store.codes_of, Store.codes_of, Store.consume, List.countP_map]
  refine List.countP_congr fun r _ => ?_
  simp only [Function.comp_apply]
  split
  · rfl
  · rfl

/-- What one operation adds to the codes of a user: a row, by an INSERT, or nothing. -/
theorem exec_codes_of {ch : Choice} {s s' : Store} {op : Op} {r : op.Res}
    (h : exec env ch s op = some (r, s')) (u : Uuid) :
    s'.codes_of u = s.codes_of u ∨
      (s'.codes_of u = s.codes_of u + 1 ∧ ∃ id user_id code_hash expires_at,
        op = .sql (.insert_otp id user_id code_hash expires_at)) := by
  rcases exec_otp_rows h with hsame | ⟨_, _, _, _, row, hop, _, _, hrows⟩ | ⟨id, hrows⟩
  · exact .inl (by rw [Store.codes_of, hsame, Store.codes_of])
  · rw [Store.codes_of, hrows, List.countP_append, List.countP_singleton]
    split
    · exact .inr ⟨rfl, _, _, _, _, hop⟩
    · exact .inl rfl
  · exact .inl (by rw [Store.codes_of, hrows, ← Store.codes_of, codes_of_consume])

/-- **The rows of the user** are those that the log has stored. -/
theorem codes_of_log (h : AuthRun env S (start clock) ls d) (u : Uuid) :
    d.world.store.codes_of u = d.world.log.countP (stores u) := by
  refine h.world_invariant (P := fun w => w.store.codes_of u = w.log.countP (stores u))
    (serve_counting env) ?_ ?_ rfl
  · rintro ms c e _ hc hpre ⟨ch, _, hexec⟩ _
    rw [← hpre] at hc
    rw [World.push_store, World.push_log, List.countP_append, List.countP_singleton, ← hc]
    rcases exec_codes_of hexec u with hsame | ⟨hmore, _⟩
    · rw [if_neg (by simp [stores, hsame]), hsame, Nat.add_zero]
    · rw [if_pos (by simp [stores, hmore]), hmore]
  · rintro ms c ⟨n⟩ s' _ hc henv
    cases henv
    exact hc

section Calls

variable {a b e g i x : AuthEvent} {reply : Option (Option String)}

/-- Who stores a code asked for one, and has read a count below the limit before. -/
theorem stored_read (h : AuthRun env S (start clock) ls d) (hb : b ∈ d.world.log)
    (hstores : stores u b = true) : Asks b ∧ ∃ phone_number g reply, Precedes d.world.log g b ∧
      g.tid = b.tid ∧ g.did = reading phone_number reply ∧ counted_as reply < OTP_RATE_LIMIT := by
  obtain ⟨before, after, split⟩ := List.append_of_mem hb
  obtain ⟨_, _, _, hexec⟩ := h.executed hb
  rcases exec_codes_of hexec u with hsame | ⟨_, _, _, _, _, hop⟩
  · simp [stores, hsame] at hstores
  · have hguard := h.guard (serve_counting env) split
    rw [hop] at hguard
    obtain ⟨phone_number, hreq, ⟨reply, hread, hbelow⟩, _⟩ := hguard
    obtain ⟨g, _, hgt, hdid, hprec⟩ := event_of_history after b hread
    exact ⟨⟨phone_number, hreq⟩, phone_number, g, reply, split ▸ hprec, hgt, hdid, hbelow⟩

/-- A call stores one code. -/
theorem stored_once (h : AuthRun env S (start clock) ls d) (ha : stores u a = true)
    (hb : stores u b = true) (hab : Precedes d.world.log a b) : a.tid ≠ b.tid := by
  obtain ⟨before, after, split, ha'⟩ := hab
  have ha'' : a ∈ d.world.log := split ▸ List.mem_append_left _ ha'
  have hb' : b ∈ d.world.log := split ▸ List.mem_append_right _ List.mem_cons_self
  obtain ⟨_, _, _, hexec⟩ := h.executed ha''
  obtain ⟨_, _, _, hexec'⟩ := h.executed hb'
  rcases exec_codes_of hexec u with hsame | ⟨_, _, _, _, _, hop⟩
  · simp [stores, hsame] at ha
  · rcases exec_codes_of hexec' u with hsame | ⟨_, _, _, _, _, hop'⟩
    · simp [stores, hsame] at hb
    · have hguard := h.guard (serve_counting env) split
      rw [hop'] at hguard
      obtain ⟨_, _, _, _, honce⟩ := hguard
      intro ht
      exact honce a.did (mem_history.mpr ⟨a, ha', ht, rfl⟩) _ _ _ _ hop

/-- So did every event of its call. -/
theorem Asks.same_call (hasks : Asks a) (h : AuthRun env S (start clock) ls d)
    (ha : a ∈ d.world.log) (hb : b ∈ d.world.log) (ht : b.tid = a.tid) : Asks b := by
  rw [Asks, (h.obeys (serve_counting env)).same_req hb ha ht]
  exact hasks

/-- A call that stored its code earlier has counted it before the later call reads, where they
execute one at a time. -/
theorem counted_first (h : AuthRun env S (start clock) ls d) (one : OneAtATime d.world.log)
    (hab : Precedes d.world.log a b) (ha : stores u a = true) (hb : stores u b = true)
    (hi : i ∈ d.world.log) (hit : i.tid = a.tid) (hgb : Precedes d.world.log g b)
    (hgt : g.tid = b.tid) : Precedes d.world.log i g := by
  have hne := stored_once h ha hb hab
  have asks_a := (stored_read h hab.left ha).1
  have asks_b := (stored_read h hab.right hb).1
  have asks_i : Asks i := asks_a.same_call h hab.left hi hit
  have asks_g : Asks g := asks_b.same_call h hab.right hgb.left hgt
  have hag : Precedes d.world.log a g := by
    rcases precedes_total hab.left hgb.left with heq | hag | hga
    · exact absurd (heq ▸ hgt) hne
    · exact hag
    · exact absurd ((one g a b asks_g asks_a asks_b hga hab hgt).trans hgt) hne
  rcases precedes_total hi hgb.left with heq | hig | hgi
  · exact absurd (hit.symm.trans (heq ▸ hgt)) hne
  · exact hig
  · exact absurd ((one a g i asks_a asks_g asks_i hag hgi hit.symm).symm.trans hgt) hne

/-- Who increments a counter asked for a code. -/
theorem increment_asks (h : AuthRun env S (start clock) ls d) (hi : i ∈ d.world.log)
    (hinc : increments phone_number i = true) : Asks i := by
  obtain ⟨before, after, split⟩ := List.append_of_mem hi
  have hguard := h.guard (serve_counting env) split
  rw [(took_effect_iff.mp hinc).1] at hguard
  exact ⟨phone_number, (hguard phone_number rfl).1⟩

/-- Before an increment the counter was begun, or by it. -/
theorem increment_begun (h : AuthRun env S (start clock) ls d) (hi : i ∈ d.world.log)
    (hinc : increments phone_number i = true) :
    ∃ x, begins phone_number x = true ∧ (x = i ∨ Precedes d.world.log x i) := by
  cases hentry : i.pre.counter phone_number with
  | none => exact ⟨i, begins_iff.mpr ⟨hinc, hentry⟩, .inl rfl⟩
  | some entry =>
    obtain ⟨before, after, split⟩ := List.append_of_mem hi
    obtain ⟨window, hwindow, _⟩ := event_counts h split phone_number entry hentry
    obtain ⟨x, _, rfl, hx, _⟩ := hwindow.begun
    exact ⟨x, hx, .inr ⟨before, after, split, hwindow.suffix.subset List.mem_cons_self⟩⟩

/-- **Within the ten minutes the counter does not expire**: once incremented, it is there. -/
theorem counter_there (h : AuthRun env S (start clock) ls d) (period : TenMinutes d.world.log)
    (hinc : increments phone_number i = true) (hie : Precedes d.world.log i e) (he : Asks e) :
    e.pre.counter phone_number ≠ none := by
  obtain ⟨x, hx, hxi⟩ := increment_begun h hie.left hinc
  have hxe : Precedes d.world.log x e := by
    rcases hxi with rfl | hxi
    · exact hie
    · exact hxi.trans (fun hii => incremented_once h hinc hinc hii rfl) hie
  obtain ⟨before, after, split, hmem⟩ := hxe
  have hxlog : x ∈ d.world.log := split ▸ List.mem_append_left _ hmem
  have asks_x := increment_asks h hxlog (begins_iff.mp hx).1
  have hlasts : Lasts e.pre phone_number (x.pre.clock + 600000000000) :=
    h.world_at (P := fun w => ∀ b ∈ w.log, begins phone_number b = true →
      Lasts w.store phone_number (b.pre.clock + 600000000000)) split counter_lasts x hmem hx
  obtain ⟨entry, hentry, _⟩ := hlasts (period x hxlog e hie.right asks_x he)
  rw [hentry]
  rintro ⟨⟩

/-- **At most two codes before one**: the call that stores it has read a count below three, and each
of them is counted in it. -/
theorem two_stored_before (h : AuthRun env S (start clock) ls d) (one : OneAtATime d.world.log)
    (period : TenMinutes d.world.log) (counter : OneCounter u d.world.log)
    (hb : b ∈ d.world.log) (hstores : stores u b = true) {l : List AuthEvent}
    (calls : (l.map (·.tid)).Nodup)
    (earlier : ∀ a ∈ l, Precedes d.world.log a b ∧ stores u a = true) : l.length ≤ 2 := by
  obtain ⟨asks_b, phone_number, g, reply, hgb, hgt, hread, hbelow⟩ := stored_read h hb hstores
  have asks_g : Asks g := asks_b.same_call h hb hgb.left hgt
  have counted : ∀ a ∈ l, (∃ value, reply = some value) ∧
      ∃ i, increments phone_number i = true ∧ i.tid = a.tid ∧ Precedes d.world.log i g := by
    intro a ha
    obtain ⟨hab, hstores'⟩ := earlier a ha
    obtain ⟨phone_number', ⟨i, hi, hit, hinc⟩, g', hg', hgt', value, hread'⟩ :=
      counter a b hab hstores' hstores
    obtain rfl := read_unique h hgb.left hg' hread hread' (hgt.trans hgt'.symm)
    obtain ⟨hop, hreply⟩ := Done.mk.inj (hread.symm.trans hread')
    obtain rfl : phone_number = phone_number' :=
      rl_key_injective (Redis.Cmd.get.inj (Op.redis.inj hop))
    exact ⟨⟨value, eq_of_heq hreply⟩, i, hinc, hit,
      counted_first h one hab hstores' hstores hi hit hgb hgt⟩
  cases l with
  | nil => exact Nat.zero_le _
  | cons a₀ l =>
    obtain ⟨⟨value, rfl⟩, i₁, hinc₁, _, hi₁g⟩ := counted a₀ List.mem_cons_self
    obtain ⟨before, after, split⟩ := List.append_of_mem hgb.left
    rcases read_below h split hread hbelow with hnone | ⟨window, hwindow, htwo⟩
    · exact absurd hnone (counter_there h period hinc₁ hi₁g asks_g)
    · refine (length_le_increments calls fun a ha => ?_).trans htwo
      obtain ⟨_, i, hinc, hit, hig⟩ := counted a ha
      refine ⟨i, ?_, hinc, hit⟩
      obtain ⟨i₀, rest, rfl, hbegins, _⟩ := hwindow.begun
      obtain ⟨old, rfl⟩ := hwindow.suffix
      rcases List.mem_append.mp (hig.mem_before (read_once h hread) split) with hi | hi
      · -- After this increment the counter is not begun anew.
        have hii₀ : Precedes d.world.log i i₀ := ⟨old, rest ++ g :: after, by simp [split], hi⟩
        obtain ⟨hinc₀, hnone⟩ := begins_iff.mp hbegins
        exact absurd hnone
          (counter_there h period hinc hii₀ (increment_asks h hii₀.right hinc₀))
      · exact hi

end Calls

/-- **The quota of a user**: where the requests for a code execute one at a time, within ten
minutes, and each that stores a code for the user reads a counter that the earlier ones have
incremented, at most three codes are stored for the user. -/
theorem codes_quota (env : Env) (clock : Nat) (ls : List AuthLabel) (d : AuthConf)
    (h : AuthRun env .all (start clock) ls d) (one : OneAtATime d.world.log)
    (period : TenMinutes d.world.log) (u : Uuid) (counter : OneCounter u d.world.log) :
    d.world.store.codes_of u ≤ 3 := by
  rw [codes_of_log h, List.countP_eq_length_filter]
  rcases last_of_filter (f := Event.tid) fun a b hab ha hb => stored_once h ha hb hab with
    hnil | ⟨l, b, hlast, hb, hstores, calls, hearlier⟩
  · rw [hnil]
    exact Nat.zero_le _
  · have htwo := two_stored_before h one period counter hb hstores calls hearlier
    rw [hlast, List.length_append, List.length_singleton]
    omega

/-- The calls of a serial run execute one at a time. -/
theorem one_at_a_time_of_serial
    (h : Serial (machine env) (serve env) S (start clock) ls d) : OneAtATime d.world.log := by
  intro a b c _ _ _ hab hbc hac
  have hle := hab.rel h.ordered.log
  have hle' := hbc.rel h.ordered.log
  omega

/-- All events of the log are of one moment. -/
theorem ten_minutes_at {t : Nat} (h : (d.world.log.all fun e => e.pre.clock = t) = true) :
    TenMinutes d.world.log := by
  intro a ha b hb _ _
  have hta : a.pre.clock = t := of_decide_eq_true (List.all_eq_true.mp h a ha)
  have htb : b.pre.clock = t := of_decide_eq_true (List.all_eq_true.mp h b hb)
  omega

/-- A list of moves that executes one call after another at one moment, checked where it ends. -/
theorem serial_at (moves : List AuthLabel) (P : AuthConf → Bool)
    (h : (serial_replay (machine sample) (serve sample) (fun _ => true) sample_start moves).any
      (fun d => d.world.log.all (fun e => e.pre.clock = 1700000000000000000) && P d) = true) :
    ∃ d, AuthRun sample .all sample_start moves d ∧ OneAtATime d.world.log ∧
      TenMinutes d.world.log ∧ P d = true := by
  obtain ⟨d, hd, hchecks⟩ := (Option.any_eq_true _ _).mp h
  obtain ⟨htime, hP⟩ := Bool.and_eq_true_iff.mp hchecks
  have serial : Serial (machine sample) (serve sample) .all sample_start moves d :=
    serial_of_replay (fun c l _ => by cases l <;> simp [Scope.allows, Scope.all]) hd
  exact ⟨d, serial.run, one_at_a_time_of_serial serial, ten_minutes_at htime, hP⟩

/-- Calls that each read and increment the counter of one text share it. -/
theorem one_counter_of_text (phone_number : String)
    (h : ∀ e ∈ d.world.log, stores u e = true →
      (∃ i ∈ d.world.log, i.tid = e.tid ∧ increments phone_number i = true) ∧
        ∃ g ∈ d.world.log, g.tid = e.tid ∧ reads phone_number g = true) :
    OneCounter u d.world.log := by
  intro a b hab ha hb
  obtain ⟨counted, _⟩ := h a hab.left ha
  obtain ⟨_, g, hg, hgt, hreads⟩ := h b hab.right hb
  exact ⟨phone_number, counted, g, hg, hgt, reads_iff.mp hreads⟩

/-- A user asks for three codes and is refused a fourth. -/
def three_codes : List AuthLabel :=
  sample_code ++ asks_again 2 4 ++ asks_again 3 5 ++ refused_again 4

/-- The quota at that run, which exhausts it. -/
theorem codes_quota_three :
    ∃ d, AuthRun sample .all sample_start three_codes d ∧
      d.world.log.countP (stores (.low 1)) = 3 ∧ d.world.store.codes_of (.low 1) ≤ 3 := by
  obtain ⟨d, run, one, period, checked⟩ := serial_at three_codes (fun d => decide (
      d.world.log.countP (stores (.low 1)) = 3 ∧
      ∀ e ∈ d.world.log, stores (.low 1) e = true →
        (∃ i ∈ d.world.log, i.tid = e.tid ∧ increments "+2348012345678" i = true) ∧
          ∃ g ∈ d.world.log, g.tid = e.tid ∧ reads "+2348012345678" g = true))
    (by decide +kernel)
  obtain ⟨hthree, hshared⟩ := of_decide_eq_true checked
  exact ⟨d, run, hthree, codes_quota sample _ three_codes d run one period (.low 1)
    (one_counter_of_text "+2348012345678" hshared)⟩

/-- Call `t` asks for a code of the phone number as it is spelled there. -/
def spelled (t : Nat) (phone_number : String) (n : UInt8) : List AuthLabel :=
  uninterrupted t (.otp_request phone_number "phone")
    [{}, {}, { draws := [123456] }, { text := sample_salt }, { uuid := .low n }, {}, {}, {}, {}, {}]

/-- Four requests for a code of one user, with spaces after the number. -/
def four_spellings : List AuthLabel :=
  uninterrupted 0 (.register "+2348012345678" "phone")
      [{ uuid := .low 1 }, {}, { uuid := .low 2 }, {}] ++
    (spelled 1 "+2348012345678" 3 ++ spelled 2 "+2348012345678 " 4 ++
      spelled 3 "+2348012345678  " 5 ++ spelled 4 "+2348012345678   " 6)

/-- Each spelling has a counter of its own, and all four codes are the user's. -/
theorem spellings_share_no_quota :
    ¬ ∀ (env : Env) (clock : Nat) (ls : List AuthLabel) (d : AuthConf),
      AuthRun env .all (start clock) ls d → OneAtATime d.world.log → TenMinutes d.world.log →
        ∀ u, d.world.store.codes_of u ≤ 3 := by
  intro claim
  obtain ⟨d, run, one, period, checked⟩ := serial_at four_spellings
    (fun d => decide (d.world.store.codes_of (.low 1) = 4)) (by decide +kernel)
  have three := claim sample _ four_spellings d run one period (.low 1)
  rw [of_decide_eq_true checked] at three
  omega

end Kova.Auth

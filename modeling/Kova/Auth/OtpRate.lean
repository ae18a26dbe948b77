import Kova.Auth.OtpCounter
import Kova.Auth.RevocationCache
import Kova.Conc.Serial

/-!
# How many codes are sent

A call reads the counter first and increments it after the code is sent, and the counter is gone
600 seconds after it was begun, however recent the last code is. So a call may read a count without
the codes of calls that it overlaps (`overlapping_requests`), or without those that an older counter
counted. If every call that sends a code has read a counter that counts the codes of the last 600
seconds (`CountsRecent`), no span of 600 seconds has more than three codes (`codes_rate_limited`).
The condition is met if of any two calls one counts before the other reads, and no counter is found
missing within 600 seconds of a code (`counts_recent_of_apart`).
-/

set_option autoImplicit false

namespace Kova.Auth

open Conc

variable {env : Env} {S : AuthScope} {clock : Nat} {ls : List AuthLabel} {d : AuthConf}
  {phone_number : String}

/-- The codes sent to the phone number within 600 seconds from a moment. -/
def sent_within (phone_number : String) (T : Nat) (log : List AuthEvent) : List AuthEvent :=
  log.filter fun e => sends phone_number e &&
    (decide (T ≤ e.pre.clock) && decide (e.pre.clock < T + 600000000000))

/-- No span of 600 seconds has more than three. -/
def RateLimited (phone_number : String) (log : List AuthEvent) : Prop :=
  ∀ T, (sent_within phone_number T log).length ≤ 3

/-- The counter that `g` read counts the increment `i`: it is there, and was not begun since. -/
structure CountedAt (phone_number : String) (log : List AuthEvent) (i g : AuthEvent) : Prop where
  earlier : Precedes log i g
  there : g.pre.counter phone_number ≠ none
  since : ∀ x, begins phone_number x = true → Precedes log i x → ¬ Precedes log x g

/-- **Every call that sends a code has read a counter that counts the recent ones**: those that the
other calls sent in the 600 seconds before. -/
def CountsRecent (phone_number : String) (log : List AuthEvent) : Prop :=
  ∀ a b, Precedes log a b → sends phone_number a = true → sends phone_number b = true →
    a.tid ≠ b.tid → b.pre.clock < a.pre.clock + 600000000000 →
      ∃ i g reply, i.tid = a.tid ∧ increments phone_number i = true ∧ g.tid = b.tid ∧
        g.did = reading phone_number reply ∧ CountedAt phone_number log i g

section Counted

variable {a b g : AuthEvent} {reply : Option (Option String)}

/-- Where Redis always answers, so does the reading. -/
theorem read_answered (h : AuthRun env no_fault (start clock) ls d) (hg : g ∈ d.world.log)
    (hread : g.did = reading phone_number reply) : ∃ value, reply = some value := by
  obtain ⟨_, ch, hok, hexec⟩ := h.did hg hread
  have fault : ch.fault = .none := hok (.inr ⟨_, rfl⟩)
  simp only [machine, reading, exec, fault] at hexec
  exact ⟨_, (congrArg Prod.fst (Option.some.inj hexec)).symm⟩

/-- **At most two codes in the 600 seconds before one**: the call that sends it has read a count
below three, and each of them is counted in it. -/
theorem two_before (h : AuthRun env no_fault (start clock) ls d)
    (recent : CountsRecent phone_number d.world.log) (hb : b ∈ d.world.log)
    (hsent : sends phone_number b = true) {l : List AuthEvent} (calls : (l.map (·.tid)).Nodup)
    (earlier : ∀ a ∈ l, Precedes d.world.log a b ∧ sends phone_number a = true ∧
      b.pre.clock < a.pre.clock + 600000000000) : l.length ≤ 2 := by
  obtain ⟨g, reply, hgb, hgt, hread, hbelow⟩ := sent_read h hb hsent
  obtain ⟨value, rfl⟩ := read_answered h hgb.left hread
  obtain ⟨before, after, split⟩ := List.append_of_mem hgb.left
  have counted : ∀ a ∈ l, ∃ i, increments phone_number i = true ∧ i.tid = a.tid ∧
      CountedAt phone_number d.world.log i g := by
    intro a ha
    obtain ⟨hab, hsent', hrecent⟩ := earlier a ha
    obtain ⟨i, g', _, hit, hinc, hgt', hread', hcounted⟩ :=
      recent a b hab hsent' hsent (sent_once h hsent' hsent hab) hrecent
    obtain rfl := read_unique h hcounted.earlier.right hgb.left hread' hread (hgt'.trans hgt.symm)
    exact ⟨i, hinc, hit, hcounted⟩
  rcases read_below h split hread hbelow with hnone | ⟨window, hwindow, htwo⟩
  · have hnil : l = [] := by
      refine List.eq_nil_iff_forall_not_mem.mpr fun a ha => ?_
      obtain ⟨_, _, _, hcounted⟩ := counted a ha
      exact hcounted.there hnone
    rw [hnil]
    exact Nat.zero_le _
  · refine (length_le_increments calls fun a ha => ?_).trans htwo
    obtain ⟨i, hinc, hit, hcounted⟩ := counted a ha
    refine ⟨i, ?_, hinc, hit⟩
    obtain ⟨i₀, rest, rfl, hbegins, _⟩ := hwindow.begun
    obtain ⟨old, rfl⟩ := hwindow.suffix
    rcases List.mem_append.mp (hcounted.earlier.mem_before (read_once h hread) split) with hi | hi
    · -- Before the increment that began the counter.
      have hii₀ : Precedes d.world.log i i₀ := ⟨old, rest ++ g :: after, by simp [split], hi⟩
      exact absurd ⟨_, after, split, by simp⟩ (hcounted.since i₀ hbegins hii₀)
    · exact hi

end Counted

/-- **The rate limit**: in every interleaving where Redis and MySQL always answer, if every call
that sends a code has read a counter that counts those of the last 600 seconds, at most three codes
are sent within any 600 seconds. -/
theorem codes_rate_limited (env : Env) (clock : Nat) (ls : List AuthLabel) (d : AuthConf)
    (h : AuthRun env no_fault (start clock) ls d) (phone_number : String)
    (recent : CountsRecent phone_number d.world.log) : RateLimited phone_number d.world.log := by
  intro T
  rcases last_of_filter (l := d.world.log) (f := Event.tid) (q := fun e => sends phone_number e &&
    (decide (T ≤ e.pre.clock) && decide (e.pre.clock < T + 600000000000)))
    fun a b hab ha hb => sent_once h (Bool.and_eq_true_iff.mp ha).1 (Bool.and_eq_true_iff.mp hb).1
      hab with hnil | ⟨l, b, hlast, hb, hwithin, calls, hearlier⟩
  · rw [sent_within, hnil]
    exact Nat.zero_le _
  · simp only [Bool.and_eq_true, decide_eq_true_eq] at hwithin hearlier
    obtain ⟨hsent, _, hend⟩ := hwithin
    have htwo : l.length ≤ 2 := by
      refine two_before h recent hb hsent calls fun a ha => ?_
      obtain ⟨hab, hsent', hstart, _⟩ := hearlier a ha
      exact ⟨hab, hsent', by omega⟩
    rw [sent_within, hlast, List.length_append, List.length_singleton]
    omega

/-- Labels without a fault make a run in which Redis and MySQL always answer. -/
theorem run_no_fault (h : AuthRun env .all (start clock) ls d)
    (kept : ls.all undisturbed = true) : AuthRun env no_fault (start clock) ls d :=
  h.within fun l hl _ => undisturbed_allows (List.all_eq_true.mp kept l hl)

/-- Call `t` goes on, after its reading, until it has sent the code. -/
def sending_on (t : Nat) (n : UInt8) : List AuthLabel :=
  [{}, { draws := [123456] }, { text := sample_salt }, { uuid := .low n }, {}, {}, {}].map (.run t)

/-- Four requests for a code of one user, each of which reads the counter before any counts. -/
def four_at_once : List AuthLabel :=
  uninterrupted 0 (.register "+2348012345678" "phone")
      [{ uuid := .low 1 }, {}, { uuid := .low 2 }, {}] ++
    (List.replicate 4 (.spawn (.otp_request "+2348012345678" "phone")) ++
      ([1, 2, 3, 4].map (.run · {}) ++
        (sending_on 1 3 ++ sending_on 2 4 ++ sending_on 3 5 ++ sending_on 4 6)))

/-- All four send a code, at the same moment. -/
theorem overlapping_requests :
    ¬ ∀ (env : Env) (clock : Nat) (ls : List AuthLabel) (d : AuthConf),
      AuthRun env no_fault (start clock) ls d →
        ∀ phone_number, RateLimited phone_number d.world.log := by
  intro claim
  obtain ⟨run, checked⟩ := replayed_spec (machine sample) (serve sample) sample_start four_at_once
    (fun d => decide ((sent_within "+2348012345678" 1700000000000000000 d.world.log).length = 4))
    (by decide +kernel)
  have three := claim sample _ four_at_once _ (run_no_fault run (by decide +kernel))
    "+2348012345678" 1700000000000000000
  rw [of_decide_eq_true checked] at three
  omega

/-! ## Calls that do not overlap -/

/-- Call `t` has incremented the counter before call `u` reads it. -/
def CountsBefore (phone_number : String) (log : List AuthEvent) (t u : Nat) : Prop :=
  ∃ i g reply, i.tid = t ∧ increments phone_number i = true ∧ g.tid = u ∧
    g.did = reading phone_number reply ∧ Precedes log i g

/-- Of two calls that send a code one has counted before the other reads the counter. -/
def Apart (phone_number : String) (log : List AuthEvent) : Prop :=
  ∀ a ∈ log, ∀ b ∈ log, sends phone_number a = true → sends phone_number b = true →
    a.tid ≠ b.tid →
      CountsBefore phone_number log a.tid b.tid ∨ CountsBefore phone_number log b.tid a.tid

/-- Whoever finds the counter missing, reading it before a code is sent or incrementing it after,
sends or counts 600 seconds after every code of the other calls. -/
structure Renewed (phone_number : String) (log : List AuthEvent) : Prop where
  read : ∀ g b reply, Precedes log g b → g.tid = b.tid → g.did = reading phone_number reply →
    g.pre.counter phone_number = none → sends phone_number b = true →
      ∀ a, Precedes log a b → sends phone_number a = true → a.tid ≠ b.tid →
        a.pre.clock + 600000000000 ≤ b.pre.clock
  begun : ∀ i ∈ log, begins phone_number i = true →
    ∀ a, Precedes log a i → sends phone_number a = true → a.tid ≠ i.tid →
      a.pre.clock + 600000000000 ≤ i.pre.clock

section Apart

variable {a b g i : AuthEvent} {reply : Option (Option String)}

/-- The clock does not go back. -/
theorem precedes_clock (h : AuthRun env S (start clock) ls d) (hab : Precedes d.world.log a b) :
    a.pre.clock ≤ b.pre.clock :=
  (event_later h hab.left).clock.trans (h.between (later_follows env) hab).clock

/-- What a call sent stands before its increment. -/
theorem sent_before_increment (h : AuthRun env S (start clock) ls d) (hi : i ∈ d.world.log)
    (hinc : increments phone_number i = true) (ha : a ∈ d.world.log)
    (hsent : sends phone_number a = true) (ht : i.tid = a.tid) : Precedes d.world.log a i := by
  obtain ⟨a', ha'i, ha't, hsent'⟩ := increment_sent h hi hinc
  rwa [sent_unique h ha'i.left ha hsent' hsent (ha't.trans ht)] at ha'i

/-- Who sent a code before has counted before: in the other order the codes would have been sent in
the other order. -/
theorem earlier_counted (h : AuthRun env S (start clock) ls d)
    (apart : Apart phone_number d.world.log) (hab : Precedes d.world.log a b)
    (ha : sends phone_number a = true) (hb : sends phone_number b = true) :
    CountsBefore phone_number d.world.log a.tid b.tid := by
  rcases apart a hab.left b hab.right ha hb (sent_once h ha hb hab) with hcounts |
    ⟨i, g, _, hit, hinc, hgt, hread, hig⟩
  · exact hcounts
  · have hbi := sent_before_increment h hig.left hinc hab.right hb hit
    obtain ⟨g₀, _, hg₀a, hg₀t, hread₀, _⟩ := sent_read h hab.left ha
    obtain rfl := read_unique h hig.right hg₀a.left hread hread₀ (hgt.trans hg₀t.symm)
    have hba : Precedes d.world.log b a :=
      (hbi.trans (fun hii => incremented_once h hinc hinc hii rfl) hig).trans
        (read_once h hread) hg₀a
    have haa := hab.trans (fun hbb => sent_once h hb hb hbb rfl) hba
    exact absurd rfl (sent_once h ha ha haa)

/-- **Calls one after another**, as far as they send codes, meet the condition where no counter is
found missing within 600 seconds of a code. -/
theorem counts_recent_of_apart (h : AuthRun env S (start clock) ls d)
    (apart : Apart phone_number d.world.log) (renewed : Renewed phone_number d.world.log) :
    CountsRecent phone_number d.world.log := by
  intro a b hab ha hb hne hrecent
  obtain ⟨i, g, reply, hit, hinc, hgt, hread, hig⟩ := earlier_counted h apart hab ha hb
  obtain ⟨g₀, reply₀, hgb, hg₀t, hread₀, _⟩ := sent_read h hab.right hb
  obtain rfl := read_unique h hig.right hgb.left hread hread₀ (hgt.trans hg₀t.symm)
  have hai := sent_before_increment h hig.left hinc hab.left ha hit
  refine ⟨i, g, reply, hit, hinc, hgt, hread, hig, ?_, ?_⟩
  · intro hnone
    have hold := renewed.read g b reply hgb hgt hread hnone hb a hab ha hne
    omega
  · intro x hx hix hxg
    have hold := renewed.begun x hxg.left hx a
      (hai.trans (fun hii => incremented_once h hinc hinc hii rfl) hix) ha
      (hit ▸ incremented_once h hinc (begins_iff.mp hx).1 hix)
    have hle := precedes_clock h hxg
    have hle' := precedes_clock h hgb
    omega

/-- **Calls one at a time** count their codes before the next one reads, if each that sends a code
counts it and none finds the counter missing after a code of an earlier call. -/
theorem counts_recent_of_serial
    (h : Serial (machine env) (serve env) no_fault (start clock) ls d)
    (counted : ∀ a ∈ d.world.log, sends phone_number a = true →
      ∃ i ∈ d.world.log, i.tid = a.tid ∧ increments phone_number i = true)
    (lasts : ∀ e ∈ d.world.log, e.pre.counter phone_number = none →
      (reads phone_number e = true ∨ begins phone_number e = true) → ∀ a ∈ d.world.log,
        sends phone_number a = true → e.tid ≤ a.tid) :
    CountsRecent phone_number d.world.log := by
  have before : ∀ a ∈ d.world.log, ∀ b ∈ d.world.log, sends phone_number a = true →
      sends phone_number b = true → a.tid < b.tid →
        CountsBefore phone_number d.world.log a.tid b.tid := by
    intro a ha b hb hsent hsent' hlt
    obtain ⟨i, hi, hit, hinc⟩ := counted a ha hsent
    obtain ⟨g, reply, hgb, hgt, hread, _⟩ := sent_read h.run hb hsent'
    exact ⟨i, g, reply, hit, hinc, hgt, hread, h.precedes hi hgb.left (by rwa [hit, hgt])⟩
  apply counts_recent_of_apart h.run
  · intro a ha b hb hsent hsent' hne
    rcases Nat.lt_or_gt_of_ne hne with hlt | hlt
    · exact .inl (before a ha b hb hsent hsent' hlt)
    · exact .inr (before b hb a ha hsent' hsent hlt)
  · constructor
    · intro g b reply hgb hgt hread hnone _ a hab hsent hne
      obtain ⟨value, rfl⟩ := read_answered h.run hgb.left hread
      have hfirst := lasts g hgb.left hnone (.inl (reads_iff.mpr ⟨value, hread⟩)) a hab.left hsent
      have hle := hab.rel h.ordered.log
      omega
    · intro i hi hbegins a hai hsent hne
      have hfirst := lasts i hi (begins_iff.mp hbegins).2 (.inr hbegins) a hai.left hsent
      have hle := hai.rel h.ordered.log
      omega

end Apart

/-! ## Three codes -/

/-- A user asks for three codes and is refused a fourth, a minute after each other. -/
def four_minutes : List AuthLabel :=
  sample_code ++ (.env (.advance 60000000000) :: asks_again 2 4) ++
    (.env (.advance 60000000000) :: asks_again 3 5) ++
      (.env (.advance 60000000000) :: refused_again 4)

/-- The guarantee at that run, which reaches the limit. -/
theorem codes_rate_limited_three :
    ∃ d, AuthRun sample no_fault sample_start four_minutes d ∧
      (sent_within "+2348012345678" 1700000000000000000 d.world.log).length = 3 ∧
        RateLimited "+2348012345678" d.world.log := by
  obtain ⟨d, hd, checked⟩ := (Option.any_eq_true _ _).mp (show (serial_replay (machine sample)
      (serve sample) undisturbed sample_start four_minutes).any (fun d => decide (
        (sent_within "+2348012345678" 1700000000000000000 d.world.log).length = 3 ∧
        (∀ a ∈ d.world.log, sends "+2348012345678" a = true →
          ∃ i ∈ d.world.log, i.tid = a.tid ∧ increments "+2348012345678" i = true) ∧
        ∀ e ∈ d.world.log, e.pre.counter "+2348012345678" = none →
          (reads "+2348012345678" e = true ∨ begins "+2348012345678" e = true) →
            ∀ a ∈ d.world.log, sends "+2348012345678" a = true → e.tid ≤ a.tid)) = true
    by decide +kernel)
  obtain ⟨hthree, counted, lasts⟩ := of_decide_eq_true checked
  have serial : Serial (machine sample) (serve sample) no_fault sample_start four_minutes d :=
    serial_of_replay (fun _ _ hl => undisturbed_allows hl) hd
  exact ⟨d, serial.run, hthree, codes_rate_limited sample _ four_minutes d serial.run _
    (counts_recent_of_serial serial counted lasts)⟩

end Kova.Auth

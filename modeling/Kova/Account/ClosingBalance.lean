import Kova.Account.Closing
import Kova.Ledger.BalanceLaws

/-!
# The balance of a closed account

`close_account` asks the ledger for the balance, and then closes the row in another database, with
nothing held in between; and the ledger posts to an account whatever its status is. Let every
balance that the client answers be the ledger's of that moment. Then an account is empty when its
row becomes Closed if and only if the entries that were committed for it between the check and the
UPDATE net to zero (`closed_empty_iff`). A payment that falls between the two leaves money in a
closed account (`payment_between`).
-/

set_option autoImplicit false

namespace Kova.Account

open Conc Ledger

variable {env : Env} {table : Table env} {clock : Nat} {ls : List AccountLabel} {d : AccountConf}

/-- The ledger's balance of an account, in its currency. -/
def balance_of (env : Env) (s : Store) (r : AccountRow) : Dec19_4 :=
  (select_balance env.ledger.db s.ledger.entries r.id r.currency.code).balance

/-- What the ledger client answers for a balance is the ledger's balance at that moment. -/
def ReadsLedger (env : Env) (e : AccountEvent) : Prop :=
  ∀ x balance, e.did = ⟨.get_balance x, .ok balance⟩ → ∀ r ∈ e.pre.accounts, r.id = x →
    balance.available_balance.toRat = (balance_of env e.pre r).toDecimal.toRat

/-- The event changes the status of the row to Closed. -/
def TurnsClosed (e : AccountEvent) (r : AccountRow) : Prop :=
  r ∈ e.pre.accounts ∧ r.status ≠ .Closed ∧
    ∃ r' ∈ e.post.accounts, r'.id = r.id ∧ r'.status = .Closed

/-- **No account is closed with money in it.** -/
def ClosedEmpty (env : Env) (d : AccountConf) : Prop :=
  ∀ e ∈ d.world.log, ∀ r, TurnsClosed e r → (balance_of env e.post r).units = 0

/-- The entries committed between two events. -/
def posted_between (b e : AccountEvent) : List EntryRow :=
  e.pre.ledger.entries.drop b.pre.ledger.entries.length

/-- What the ledger commits for an account between the balance check of a call that closes it and
the call's UPDATE nets to zero. -/
def NetsToZero (env : Env) (d : AccountConf) : Prop :=
  ∀ b e r, Precedes d.world.log b e → b.tid = e.tid → b.op = .get_balance r.id → TurnsClosed e r →
    net env.ledger.db (posted_between b e) r.id r.currency.code = 0

/-! ## The ledger between two events -/

/-- What an account's net is at a later event. -/
theorem net_since (h : AccountRun env (start table clock) ls d) {b e : AccountEvent}
    (hprec : Precedes d.world.log b e) (x : Uuid) (c : String) :
    net env.ledger.db e.pre.ledger.entries x c =
      net env.ledger.db b.pre.ledger.entries x c + net env.ledger.db (posted_between b e) x c := by
  obtain ⟨new, hnew⟩ := entries_between h hprec
  have hbetween : posted_between b e = new := by
    rw [posted_between, ← hnew, List.drop_left]
  rw [hbetween, ← hnew, net_append_list]

theorem balance_of_eq_zero {s : Store} {r : AccountRow} :
    (balance_of env s r).units = 0 ↔ net env.ledger.db s.ledger.entries r.id r.currency.code = 0 := by
  rw [balance_of, select_balance_cast, Dec19_4.cast_units_eq_zero]

/-! ## The UPDATE and its checks -/

theorem toRat_of_is_zero {x : Decimal} (h : is_zero x = true) : x.toRat = 0 := by
  rw [Decimal.toRat, of_decide_eq_true h, Int.cast_zero, zero_div]

/-- **A row becomes Closed** by the UPDATE of a closure only, and the ledger does not move. -/
theorem TurnsClosed.update (h : AccountRun env (start table clock) ls d) {e : AccountEvent}
    (he : e ∈ d.world.log) {r : AccountRow} (hturns : TurnsClosed e r) :
    (∃ closed_at text, e.op = .sql (.update_closed closed_at text) ∧
      Uuid.UUID_TO_BIN text = some r.id) ∧ e.post.ledger = e.pre.ledger := by
  obtain ⟨hr, hopen, hclosed⟩ := hturns
  have hopen' : ¬ IsClosed e.pre.accounts r.id := by
    rintro ⟨r', hr', hid, hstatus⟩
    obtain rfl := (event_valid h he).eq_of_id hr' hr hid
    exact hopen hstatus
  obtain ⟨_, _, _, hexec⟩ := h.executed he
  obtain ⟨closed_at, text, hop, parsed⟩ := exec_closes hexec hopen' hclosed
  refine ⟨⟨closed_at, text, hop, parsed⟩, (exec_frame hexec).ledger ?_⟩
  intro q hq
  rw [hop] at hq
  cases hq

/-- **A call checks the balance once** before its UPDATE, and finds it zero. -/
theorem TurnsClosed.checked (h : AccountRun env (start table clock) ls d)
    (hreads : ∀ e ∈ d.world.log, ReadsLedger env e) {before after : List AccountEvent}
    {e : AccountEvent} (split : d.world.log = before ++ e :: after) {r : AccountRow}
    (hturns : TurnsClosed e r) :
    ∃ b ∈ before, b.tid = e.tid ∧ b.op = .get_balance r.id ∧ (balance_of env b.pre r).units = 0 ∧
      ∀ b' ∈ before, b'.tid = e.tid → ∀ y, b'.op = .get_balance y → b' = b := by
  have he : e ∈ d.world.log := split ▸ List.mem_append_right _ List.mem_cons_self
  obtain ⟨⟨closed_at, text, hop, parsed⟩, _⟩ := hturns.update h he
  have hguard := h.guard (serve_guarded env) split
  rw [hop] at hguard
  obtain ⟨first, last, kova_id, balance, hhistory, hread, hkova, hzero, _, once⟩ :=
    hguard.2.empty
  obtain rfl := Option.some.inj ((Uuid.parse_str_of_UUID_TO_BIN parsed).symm.trans hkova)
  obtain ⟨es₁, b, es₂, rfl, htid, hdid, rfl, rfl⟩ := history_split hhistory
  refine ⟨b, by simp, htid, congrArg Done.op hdid, ?_, ?_⟩
  · -- The account that was read is there when its balance is, and is the one that is closed.
    have split' : d.world.log = es₁ ++ b :: (es₂ ++ e :: after) := by
      rw [split, List.append_assoc, List.cons_append]
    have hprec : Precedes d.world.log b e := ⟨_, after, split, by simp⟩
    obtain ⟨r₁, hr₁, hid, hopen⟩ := read_row h split' hread parsed
    obtain ⟨r₂, hr₂, hb⟩ := stays_between h hprec r₁ hr₁ hopen
    obtain rfl := (event_valid h he).eq_of_id hr₂ hturns.1 (hb.id_eq.trans hid)
    have hanswer := hreads b hprec.left _ balance hdid r₁ hr₁ hid
    have hsame : balance_of env b.pre r₁ = balance_of env b.pre r₂ := by
      rw [balance_of, balance_of, hb.id_eq, hb.currency_eq]
    rwa [hsame, toRat_of_is_zero hzero, eq_comm, Dec19_4.toRat_eq_zero] at hanswer
  · intro b' hb' htid' y hop'
    rcases List.mem_append.mp hb' with hb' | hb'
    · exact absurd hop' (once _ (List.mem_append_left _ (mem_history.mpr ⟨b', hb', htid', rfl⟩)) y)
    · rcases List.mem_cons.mp hb' with rfl | hb'
      · rfl
      · exact absurd hop' (once _ (List.mem_append_right _ (mem_history.mpr ⟨b', hb', htid', rfl⟩)) y)

/-- **An account is closed empty exactly when nothing came in between**: in every run in which the
balances that the client answers are the ledger's, whatever the calls are and however they
interleave. -/
theorem closed_empty_iff (env : Env) (table : Table env) (clock : Nat) (ls : List AccountLabel)
    (d : AccountConf) (h : AccountRun env (start table clock) ls d)
    (hreads : ∀ e ∈ d.world.log, ReadsLedger env e) : ClosedEmpty env d ↔ NetsToZero env d := by
  have key : ∀ b e r, Precedes d.world.log b e → TurnsClosed e r →
      (balance_of env b.pre r).units = 0 →
        ((balance_of env e.post r).units = 0 ↔
          net env.ledger.db (posted_between b e) r.id r.currency.code = 0) := by
    intro b e r hprec hturns hzero
    have hledger : e.post.ledger = e.pre.ledger := (hturns.update h hprec.right).2
    rw [balance_of_eq_zero] at hzero ⊢
    rw [hledger, net_since h hprec, hzero, Int.zero_add]
  refine ⟨?_, ?_⟩
  · rintro hempty b e r ⟨before, after, split, hb⟩ htid hop hturns
    have hprec : Precedes d.world.log b e := ⟨before, after, split, hb⟩
    obtain ⟨b', _, _, _, hzero, once⟩ := hturns.checked h hreads split
    obtain rfl := once b hb htid _ hop
    exact (key b e r hprec hturns hzero).mp (hempty e hprec.right r hturns)
  · intro hnets e he r hturns
    obtain ⟨before, after, split⟩ := List.append_of_mem he
    obtain ⟨b, hb, htid, hop, hzero, _⟩ := hturns.checked h hreads split
    have hprec : Precedes d.world.log b e := ⟨before, after, split, hb⟩
    exact (key b e r hprec hturns hzero).mpr (hnets b e r hprec htid hop hturns)

/-! ## A payment to the sample account -/

instance (e : AccountEvent) (r : AccountRow) : Decidable (TurnsClosed e r) :=
  inferInstanceAs (Decidable (_ ∧ _ ∧ _))

/-- `ReadsLedger`, computed. -/
def reads_ledger (env : Env) : AccountEvent → Bool
  | ⟨_, _, .get_balance x, s, .ok balance, _⟩ =>
    s.accounts.all fun r => r.id ≠ x ∨
      balance.available_balance.toRat = (balance_of env s r).toDecimal.toRat
  | _ => true

theorem reads_ledger_sound {e : AccountEvent} (h : reads_ledger env e = true) :
    ReadsLedger env e := by
  obtain ⟨t, req, op, s, res, s'⟩ := e
  rintro x balance hdid r hr hid
  cases hdid
  have hr := List.all_eq_true.mp h r hr
  exact (of_decide_eq_true hr).resolve_left (fun hne => hne hid)

/-- `NetsToZero`, computed. -/
def nets_to_zero (env : Env) (d : AccountConf) : Bool :=
  d.world.log.all fun b => d.world.log.all fun e => e.pre.accounts.all fun r =>
    match b.op with
    | .get_balance x => b.tid ≠ e.tid ∨ r.id ≠ x ∨ ¬ TurnsClosed e r ∨
        net env.ledger.db (posted_between b e) x r.currency.code = 0
    | _ => true

theorem nets_to_zero_sound (h : nets_to_zero env d = true) : NetsToZero env d := by
  intro b e r hprec htid hop hturns
  have check := List.all_eq_true.mp h b hprec.left
  have check := List.all_eq_true.mp (List.all_eq_true.mp check e hprec.right) r hturns.1
  rw [hop] at check
  rcases of_decide_eq_true check with hother | hother | hother | hnets
  · exact absurd htid hother
  · exact absurd rfl hother
  · exact absurd hturns hother
  · exact hnets

/-- A sample payment back to account 1. -/
def refund (idempotency_key : String) : PostEntryParams :=
  { payment idempotency_key with debit_account_id := .low 2, credit_account_id := .low 1 }

/-- The sample deployment, with the digest of a refund beside that of a payment. -/
def sample_refunding : Env :=
  { sample with
    ledger := { Ledger.sample with
      sha256_hex := fun bytes =>
        if bytes = payload_bytes (.low 2) (.low 1) (refund "").amount "NGN" then
          "a3092455ee30e0dfd562ca136e116266c5d326901c28f46741ed93b99409dcbc"
        else Ledger.sample.sha256_hex bytes } }

def refunding_start : AccountConf :=
  @start sample_refunding ⟨sample_table.rows, sample_table.keys, sample_table.checks⟩
    1700000000000000000

/-- Call `t` is the ledger's, and posts a refund. -/
def sample_refund (t : Nat) (idempotency_key : String) (id outbox_id : Uuid) : List AccountLabel :=
  .spawn (.ledger (.post_entry (refund idempotency_key))) ::
    (sample_payment t idempotency_key id outbox_id).tail

/-- After a payment the account is not closed. It is when the payment was refunded, although
another comes and is refunded between the check and the UPDATE. -/
def refunded_closure : List AccountLabel :=
  sample_payment 0 "pay-1" (.low 10) (.low 20) ++
    [.spawn sample_close, .run 1 {}, .run 1 {}, .run 1 {},
      .run 1 { balance := .ok ⟨(payment "").amount, zero, .NGN⟩ }] ++
    sample_refund 2 "refund-1" (.low 11) (.low 21) ++
    [.spawn sample_close, .run 3 {}, .run 3 {}, .run 3 {}, .run 3 {}] ++
    sample_payment 4 "pay-2" (.low 12) (.low 22) ++ sample_refund 5 "refund-2" (.low 13) (.low 23) ++
    [.run 3 {}, .run 3 {}, .run 3 { uuid := .low 9 }, .run 3 {}]

/-- The guarantee for it. -/
theorem closed_empty_refunded :
    ∃ d, AccountRun sample_refunding refunding_start refunded_closure d ∧
      d.result? 1 = some (.error (.error (.AccountHasBalance "500.00"))) ∧
        Succeeded d (.low 2) 3 ∧ d.world.store.ledger.entries.length = 4 ∧
          ClosedEmpty sample_refunding d := by
  obtain ⟨run, checked⟩ := replayed_spec (machine sample_refunding) (serve sample_refunding)
    refunding_start refunded_closure
    (fun d => (d.result? 1 == some (.error (.error (.AccountHasBalance "500.00")))) &&
      succeeded d (.low 2) 3 && (d.world.store.ledger.entries.length == 4) &&
      d.world.log.all (reads_ledger sample_refunding) && nets_to_zero sample_refunding d)
    (by decide +kernel)
  simp only [Bool.and_eq_true, beq_iff_eq, List.all_eq_true] at checked
  obtain ⟨⟨⟨⟨refused, success⟩, four⟩, reads⟩, nets⟩ := checked
  refine ⟨_, run, refused, succeeded_sound success, four, ?_⟩
  exact (closed_empty_iff sample_refunding _ _ refunded_closure _ run
    fun e he => reads_ledger_sound (reads e he)).mpr (nets_to_zero_sound nets)

/-- A payment of 500 NGN that commits after the balance was read as zero, and before the row is
closed. -/
def payment_in_between : List AccountLabel :=
  [.spawn sample_close, .run 0 {}, .run 0 {}, .run 0 {}, .run 0 {}] ++
    sample_payment 1 "pay-1" (.low 10) (.low 20) ++
    [.run 0 {}, .run 0 {}, .run 0 { uuid := .low 9 }, .run 0 {}]

/-- The account is closed with it. -/
theorem payment_between :
    ¬ ∀ (env : Env) (table : Table env) (clock : Nat) (ls : List AccountLabel) (d : AccountConf),
      AccountRun env (start table clock) ls d → (∀ e ∈ d.world.log, ReadsLedger env e) →
        ClosedEmpty env d := by
  intro claim
  obtain ⟨run, checked⟩ := replayed_spec (machine sample) (serve sample) sample_start
    payment_in_between (fun d => d.world.log.all (reads_ledger sample) && d.world.log.any fun e =>
      decide (TurnsClosed e sample_account) && (balance_of sample e.post sample_account).units != 0)
    (by decide +kernel)
  obtain ⟨reads, closing⟩ := Bool.and_eq_true_iff.mp checked
  obtain ⟨e, he, hfull⟩ := List.any_eq_true.mp closing
  obtain ⟨turns, hfull⟩ := Bool.and_eq_true_iff.mp hfull
  have empty := claim sample sample_table _ payment_in_between _ run
    (fun e he => reads_ledger_sound (List.all_eq_true.mp reads e he)) e he sample_account
    (of_decide_eq_true turns)
  exact absurd empty (bne_iff_ne.mp hfull)

end Kova.Account

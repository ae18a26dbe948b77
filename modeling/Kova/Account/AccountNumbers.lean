import Mathlib.Data.List.TakeWhile
import Kova.Account.Creation
import Kova.Codec.Padded

/-!
# Account numbers

An account number is `KOVA` and the value that the sequence gave its creation, in ten digits or,
from `10 ^ 10` on, in as many as the value has; only the numbers of ten digits pass the CHECK
constraint (`account_number_ok_iff`). The generated column reads the value back
(`account_number_idx_eq`). However the creations interleave, each INSERT sends the number of the
value that its own call drew, and the column orders the accounts as their values were drawn
(`account_numbers`).
-/

set_option autoImplicit false

namespace Kova.Account

open Conc Ledger

/-! ## The generated column -/

/-- `CAST(text AS UNSIGNED)`: blanks, a sign and digits, up to the first other character. What does
not fit 64 bits becomes the last value that does, and a negative number its complement. -/
def cast_unsigned (cs : List Char) : Nat :=
  let digits (cs : List Char) := Nat.ofDigitChars 10 (cs.takeWhile Char.isDigit) 0
  match cs.dropWhile fun c => c == ' ' || c == '\t' with
  | '-' :: cs => (2 ^ 64 - min (digits cs) (2 ^ 63)) % 2 ^ 64
  | '+' :: cs => min (digits cs) (2 ^ 64 - 1)
  | cs => min (digits cs) (2 ^ 64 - 1)

/-- `account_number_idx`: `CAST(SUBSTRING(account_number, 5) AS UNSIGNED)`. -/
def account_number_idx (account_number : String) : Nat :=
  cast_unsigned (account_number.toList.drop 4)

/-- Digits are read as their number. -/
theorem cast_unsigned_digits {cs : List Char} (h : Text.Digits cs) :
    cast_unsigned cs = min (Nat.ofDigitChars 10 cs 0) (2 ^ 64 - 1) := by
  have hblank : cs.dropWhile (fun c => c == ' ' || c == '\t') = cs := by
    cases cs with
    | nil => rfl
    | cons c cs =>
      have hspace := h.ne List.mem_cons_self (x := ' ') rfl
      have htab := h.ne List.mem_cons_self (x := '\t') rfl
      simp [hspace, htab]
  have hdigits : cs.takeWhile Char.isDigit = cs := List.takeWhile_eq_self_iff.mpr h
  simp only [cast_unsigned, hblank]
  split
  · next heq => exact absurd rfl (h.ne List.mem_cons_self (x := '-') rfl)
  · next heq => exact absurd rfl (h.ne List.mem_cons_self (x := '+') rfl)
  · rw [hdigits]

/-! ## One number -/

theorem account_number_toList (n : Nat) :
    (account_number n).toList = ['K', 'O', 'V', 'A'] ++ Text.padded 10 n := by
  show (String.ofList ("KOVA".toList ++ _ ++ _)).toList = _
  rw [String.toList_ofList, List.append_assoc]
  rfl

theorem account_number_digits (n : Nat) : (account_number n).toList.drop 4 = Text.padded 10 n := by
  rw [account_number_toList]
  rfl

/-- **Which numbers pass the CHECK constraint.** -/
theorem account_number_ok_iff (n : Nat) :
    account_number_ok (account_number n) = true ↔ n < 10 ^ 10 := by
  have hprefix : (account_number n).toList.take 4 = "KOVA".toList := by
    rw [account_number_toList]
    rfl
  have hdigits : (Text.padded 10 n).all Char.isDigit = true :=
    List.all_eq_true.mpr (Text.digits_padded 10 n)
  rw [account_number_ok, account_number_digits, hprefix, hdigits, beq_self_eq_true, Bool.true_and,
    Bool.and_true, beq_iff_eq, Text.length_padded_iff (by decide)]

/-- **The generated column is the value.** -/
theorem account_number_idx_eq {n : Nat} (h : n < 2 ^ 64) :
    account_number_idx (account_number n) = n := by
  rw [account_number_idx, account_number_digits, cast_unsigned_digits (Text.digits_padded 10 n),
    Text.ofDigitChars_padded]
  omega

theorem account_number_injective : Function.Injective account_number := by
  intro n m h
  refine Text.padded_injective 10 ?_
  rw [← account_number_digits, h, account_number_digits]

/-! ## The sequence -/

variable {env : Env} {t : Nat} {ch : Choice} {s s' : Store} {ls : List AccountLabel}
  {d : AccountConf}

/-- The event drew the value that the number is made of. -/
def Allocates (a : AccountEvent) (number : String) : Prop :=
  ∃ n : Nat, a.did = did .insert_seq (some n) ∧ number = account_number n

/-- The sequence moves by its own INSERT only, and by one. -/
theorem run_seq {rows : List AccountRow} {q : Sql} {r : Option q.Res}
    (h : q.run env rows s = some (r, s')) :
    s'.account_number_seq = s.account_number_seq ∨
      s'.account_number_seq = s.account_number_seq + 1 := by
  cases q <;> simp only [Sql.run] at h <;> repeat' split at h
  all_goals cases h
  all_goals first | exact .inl rfl | exact .inr rfl

/-- **The sequence never goes back.** -/
theorem seq_grows (env : Env) :
    Follows (machine env) fun s s' => s.account_number_seq ≤ s'.account_number_seq where
  refl _ := Nat.le_refl _
  trans h h' := h.trans h'
  exec := by
    intro t ch s op r s' h
    cases exec_effect h with
    | sql run => rcases run_seq run with hsame | hnext <;> omega
    | same | redis | now_v7 | ledger => exact Nat.le_refl _
  env := by
    intro o s s' h
    rcases outside_cases h with ⟨_, _, rfl⟩ | ⟨_, _, _, _, rfl⟩
    · exact Nat.le_refl _
    · exact Nat.le_refl _

/-- A value that is drawn is the next one. -/
theorem exec_insert_seq {n : Nat} (h : exec env t ch s (.sql .insert_seq) = some (some n, s')) :
    s.account_number_seq < n ∧ s'.account_number_seq = n ∧ n < 2 ^ 64 := by
  have hrun := exec_answered h
  simp only [Sql.run] at hrun
  split at hrun
  · next hroom =>
    cases hrun
    exact ⟨Nat.lt_succ_self _, rfl, hroom⟩
  · cases hrun

theorem allocated_fits (h : AccountRun env (.init s) ls d) {a : AccountEvent}
    (ha : a ∈ d.world.log) {n : Nat} (hdid : a.did = did .insert_seq (some n)) : n < 2 ^ 64 := by
  obtain ⟨_, _, _, hexec⟩ := h.did ha hdid
  exact (exec_insert_seq (t := a.tid) hexec).2.2

/-- **An earlier draw gives the smaller value.** -/
theorem allocated_rises (h : AccountRun env (.init s) ls d) {a b : AccountEvent}
    (hab : Precedes d.world.log a b) {n m : Nat} (ha : a.did = did .insert_seq (some n))
    (hb : b.did = did .insert_seq (some m)) : n < m := by
  obtain ⟨_, _, _, hfirst⟩ := h.did hab.left ha
  obtain ⟨_, _, _, hsecond⟩ := h.did hab.right hb
  have hn := (exec_insert_seq (t := a.tid) hfirst).2.1
  have hm := (exec_insert_seq (t := b.tid) hsecond).1
  have hbetween : a.post.account_number_seq ≤ b.pre.account_number_seq :=
    h.between (seq_grows env) hab
  omega

/-! ## The creations -/

/-- What comes before the two INSERTs: none of the sequence's, and one whose value is sent on. -/
def numbered (h : List AccountDone) : Op → Prop
  | .sql .insert_seq => ∀ x ∈ h, x.op ≠ .sql .insert_seq
  | .sql (.insert_account _ _ number _) => ∃ n : Nat, did .insert_seq (some n) ∈ h ∧
      number = account_number n
  | _ => True

/-- Of the requests only a creation draws a value, and only it inserts an account. -/
theorem serve_numbered (env : Env) (req : Request) :
    Guarded (fun h op => numbered h op) (fun _ _ => True) (serve env req) [] := by
  refine (serve_steps env req).mono ?_ fun _ _ _ => trivial
  intro h op step
  cases step with
  | create _ step =>
    cases step with
    | draw =>
      intro x hx
      rw [List.mem_singleton.mp hx]
      rintro ⟨⟩
    | name => trivial
    | insert code => exact ⟨_, by simp, rfl⟩
    | opening code step => cases step <;> trivial
  | balance _ step | statement _ step | close _ step => cases step <;> trivial
  | extract | list | get | ledger => trivial

/-! ## The rows -/

/-- A row is stored under the number that was sent: one that is cut does not pass the CHECK. -/
theorem inserted_row_number {id user_id number currency : String} {now : Int} {row : AccountRow}
    (h : inserted_row env id user_id number currency now = some row) :
    row.account_number = number := by
  simp only [inserted_row, Option.bind_eq_bind, Option.bind_eq_some_iff] at h
  obtain ⟨_, _, _, _, stored, hstored, _, _, h⟩ := h
  split at h
  · next hok =>
    cases h
    unfold Collation.varchar at hstored
    split at hstored
    · exact (Option.some.inj hstored).symm
    · next hlong =>
      split at hstored
      · cases hstored
        have hlength : 20 < number.toList.length := by
          rw [String.length_toList]
          omega
        simp only [account_number_ok, Bool.and_eq_true, beq_iff_eq, String.toList_ofList,
          List.length_drop, List.length_take] at hok
        omega
      · cases hstored
  · cases h

/-- The row has the number of a row that there was, or of a value drawn in the run. -/
def Numbered (s : Store) (log : List AccountEvent) (r : AccountRow) : Prop :=
  (∃ r₀ ∈ s.accounts, r₀.account_number = r.account_number) ∨
    ∃ a ∈ log, Allocates a r.account_number

theorem Numbered.mono {log log' : List AccountEvent} {r r' : AccountRow} (h : Numbered s log r)
    (hlog : log ⊆ log') (hnumber : r'.account_number = r.account_number) :
    Numbered s log' r' := by
  unfold Numbered
  rw [hnumber]
  exact h.imp_right fun ⟨a, ha, hdrawn⟩ => ⟨a, hlog ha, hdrawn⟩

theorem AccountRow.closed_by_number (x : Uuid) (closed_at : DateTime) (r : AccountRow) :
    (r.closed_by x closed_at).account_number = r.account_number := by
  unfold closed_by
  split <;> rfl

/-- What an operation leaves in the table is numbered. -/
theorem AccountsChange.numbered {s₀ : Store} {log : List AccountEvent} {op : Op}
    {l : List AccountRow} (h : AccountsChange env s op l)
    (before : ∀ r ∈ s.accounts, Numbered s₀ log r)
    (drawn : ∀ id user_id number currency,
      op = .sql (.insert_account id user_id number currency) → ∃ a ∈ log, Allocates a number) :
    ∀ r ∈ l, Numbered s₀ log r := by
  intro r hr
  cases h with
  | same => exact before r hr
  | inserted values =>
    rcases List.mem_append.mp hr with hr | hr
    · exact before r hr
    · obtain rfl := List.mem_singleton.mp hr
      rw [Numbered, inserted_row_number values]
      exact .inr (drawn _ _ _ _ rfl)
  | deleted => exact before r (List.mem_of_mem_filter hr)
  | closed =>
    obtain ⟨r₀, hr₀, rfl⟩ := List.mem_map.mp hr
    exact (before r₀ hr₀).mono (List.Subset.refl _) (AccountRow.closed_by_number _ _ r₀)

/-- **Every row is numbered**, in every run. -/
theorem run_numbered (h : AccountRun env (.init s) ls d) :
    ∀ r ∈ d.world.store.accounts, Numbered s d.world.log r := by
  refine h.world_invariant (P := fun w => ∀ r ∈ w.store.accounts, Numbered s w.log r)
    (serve_numbered env) ?_ ?_ ?_
  · intro ms c e hrun before hpre hexec hnumbered
    obtain ⟨ch, _, hexec⟩ := hexec
    have hchange := exec_accounts (t := e.tid) hexec
    refine hchange.numbered ?_ ?_
    · intro r hr
      rw [hpre] at hr
      exact (before r hr).mono (List.subset_append_left _ _) rfl
    · intro id user_id number currency hop
      rw [hop] at hnumbered
      obtain ⟨n, hmem, hnumber⟩ := hnumbered
      obtain ⟨a, ha, _, hdid⟩ := mem_history.mp hmem
      exact ⟨a, List.mem_append_left _ ha, n, hdid, hnumber⟩
  · intro ms c o s' hrun before henv r hr
    rw [World.moved_store, outside_accounts henv] at hr
    exact before r hr
  · intro r hr
    exact .inl ⟨r, hr, rfl⟩

/-! ## The order -/

/-- An INSERT sends the number of the value that its own call drew, and drew once. -/
theorem insert_allocated (h : AccountRun env (.init s) ls d) {e : AccountEvent}
    (he : e ∈ d.world.log) {id user_id number currency : String}
    (hop : e.op = .sql (.insert_account id user_id number currency)) :
    ∃ a, Precedes d.world.log a e ∧ a.tid = e.tid ∧ Allocates a number := by
  obtain ⟨before, after, split⟩ := List.append_of_mem he
  have hnumbered := h.guard (serve_numbered env) split
  rw [hop] at hnumbered
  obtain ⟨n, hmem, hnumber⟩ := hnumbered
  obtain ⟨a, _, htid, hdid, hprec⟩ := event_of_history after e hmem
  exact ⟨a, split ▸ hprec, htid, n, hdid, hnumber⟩

/-- A call draws one value. -/
theorem allocated_once (h : AccountRun env (.init s) ls d) {a b : AccountEvent}
    (hab : Precedes d.world.log a b) (ha : a.op = .sql .insert_seq)
    (hb : b.op = .sql .insert_seq) : a.tid ≠ b.tid := by
  intro htid
  obtain ⟨before, after, split, hmem⟩ := hab
  have hnumbered := h.guard (serve_numbered env) split
  rw [hb] at hnumbered
  exact hnumbered a.did (mem_history.mpr ⟨a, hmem, htid, rfl⟩) ha

/-- **The order of the column is the order of the draws.** -/
theorem idx_order (h : AccountRun env (.init s) ls d) {a b : AccountEvent}
    (ha : a ∈ d.world.log) (hb : b ∈ d.world.log) {number number' : String}
    (hnumber : Allocates a number) (hnumber' : Allocates b number') :
    (account_number_idx number < account_number_idx number' ↔ Precedes d.world.log a b) ∧
      (number = number' ↔ a = b) := by
  obtain ⟨n, hn, rfl⟩ := hnumber
  obtain ⟨m, hm, rfl⟩ := hnumber'
  rw [account_number_idx_eq (allocated_fits h ha hn),
    account_number_idx_eq (allocated_fits h hb hm), account_number_injective.eq_iff]
  rcases precedes_total ha hb with rfl | hab | hba
  · have hsame : n = m := by
      cases hn.symm.trans hm
      rfl
    have honce : ¬ Precedes d.world.log a a := fun hself =>
      absurd (allocated_rises h hself hn hn) (Nat.lt_irrefl n)
    simp [hsame, honce]
  · have hlt := allocated_rises h hab hn hm
    refine ⟨iff_of_true hlt hab, iff_of_false (by omega) ?_⟩
    intro hsame
    subst hsame
    exact absurd (allocated_rises h hab hn hn) (Nat.lt_irrefl n)
  · have hlt := allocated_rises h hba hm hn
    refine ⟨iff_of_false (by omega) ?_, iff_of_false (by omega) ?_⟩
    · intro hab
      have hrises := allocated_rises h hab hn hm
      omega
    · intro hsame
      subst hsame
      exact absurd (allocated_rises h hba hm hm) (Nat.lt_irrefl m)

/-- **Account numbers encode their sequence values**, and order the accounts as the values were
drawn. -/
theorem account_numbers :
    (∀ n, account_number_ok (account_number n) = true ↔ n < 10 ^ 10) ∧
    (∀ n, n < 2 ^ 64 → account_number_idx (account_number n) = n) ∧
    Function.Injective account_number ∧
    ∀ (env : Env) (s : Store) (ls : List AccountLabel) (d : AccountConf),
      AccountRun env (.init s) ls d →
      (∀ e ∈ d.world.log, ∀ id user_id number currency,
        e.op = .sql (.insert_account id user_id number currency) →
          ∃ a, Precedes d.world.log a e ∧ a.tid = e.tid ∧ Allocates a number) ∧
      (∀ a ∈ d.world.log, ∀ b ∈ d.world.log, ∀ number number', Allocates a number →
        Allocates b number' →
          (account_number_idx number < account_number_idx number' ↔ Precedes d.world.log a b) ∧
            (number = number' ↔ a = b) ∧ (a.tid = b.tid ↔ a = b)) ∧
      ∀ r ∈ d.world.store.accounts, Numbered s d.world.log r := by
  refine ⟨account_number_ok_iff, fun n => account_number_idx_eq, account_number_injective, ?_⟩
  intro env s ls d h
  refine ⟨fun e he _ _ _ _ hop => insert_allocated h he hop, ?_, run_numbered h⟩
  intro a ha b hb number number' hnumber hnumber'
  obtain ⟨horder, hsame⟩ := idx_order h ha hb hnumber hnumber'
  refine ⟨horder, hsame, ?_, fun heq => heq ▸ rfl⟩
  intro htid
  obtain ⟨n, hn, _⟩ := hnumber
  obtain ⟨m, hm, _⟩ := hnumber'
  have hopa : a.op = .sql .insert_seq := congrArg Done.op hn
  have hopb : b.op = .sql .insert_seq := congrArg Done.op hm
  rcases precedes_total ha hb with heq | hab | hba
  · exact heq
  · exact absurd htid (allocated_once h hab hopa hopb)
  · exact absurd htid.symm (allocated_once h hba hopb hopa)

/-! ## Two creations that cross -/

/-- The call that draws the later value inserts its account first. -/
def crossed_creations : List AccountLabel :=
  [.spawn (.create_account sample_bearer "GBP"), .spawn (.create_account sample_bearer "USD"),
    .run 0 {}, .run 1 {}, .run 0 {}, .run 1 {}, .run 1 { uuid := .low 9 }, .run 1 {},
    .run 0 { uuid := .low 10 }, .run 0 {}]

/-- The rows stand in the order of their INSERTs, the column in that of the draws. -/
theorem account_numbers_crossed :
    ∃ d, AccountRun sample (.init sample_store) crossed_creations d ∧
      d.world.store.accounts.map (fun r => account_number_idx r.account_number) = [1, 3, 2] ∧
        ∀ r ∈ d.world.store.accounts, Numbered sample_store d.world.log r := by
  obtain ⟨run, checked⟩ := replayed_spec (machine sample) (serve sample) (.init sample_store)
    crossed_creations (fun d => d.world.store.accounts.map
      (fun r => account_number_idx r.account_number) == [1, 3, 2]) (by decide +kernel)
  exact ⟨_, run, eq_of_beq checked, (account_numbers.2.2.2 sample _ _ _ run).2.2⟩

end Kova.Account

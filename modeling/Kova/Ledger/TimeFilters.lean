import Kova.Conc.Solo
import Kova.Ledger.PostingOrder
import Kova.Ledger.RowRequests
import Kova.Ledger.StatementRpc

/-!
# The time filters of a statement

A request may name a first and a last instant. The service converts them first, and a timestamp that
chrono does not represent is dropped like an absent one; the first instant is then cut to whole
microseconds. Every entry that is returned is within the times of the request, for every ledger and
whatever else is asked for, if and only if neither changes the instants that a stored entry can have
(`times_kept_iff`).
-/

set_option autoImplicit false

namespace Kova.Ledger

open Conc Rpc

variable {v : Env} {s : Store} {ls : List LedgerLabel} {c : LedgerConf} {t : Nat}
  {from_time to_time : Option Timestamp} {m : Int}

/-! ## The instants of the entries -/

/-- An instant that an entry can have: since 1970, and one that the column shows. -/
def Datable (m : Int) : Prop := 0 ≤ m ∧ m ≤ 253402300799999999

/-- Every entry of the ledger has one. -/
def Store.Dated (s : Store) : Prop := ∀ r ∈ s.index_rows, Datable r.created_at

theorem datable_of_ok {r : EntryRow} (h : RowOk r) : Datable r.created_at := by
  have hstorable := h.storable
  simp only [DateTime.storable, Bool.and_eq_true, decide_eq_true_eq] at hstorable
  exact ⟨h.since_epoch, by omega⟩

/-- A reading of the clock. -/
theorem reading_since_epoch (h : LedgerRun v (.init s) ls c) {now : DateTime}
    (hread : ⟨.utc_now, now⟩ ∈ history t c.world.log) : 0 ≤ now.nanos := by
  obtain ⟨e, he, _, hdid⟩ := mem_history.mp hread
  obtain ⟨_, ch, _, hexec⟩ := h.did he hdid
  have hexec : exec v.db e.tid ch e.pre .utc_now = some (now, e.post) := hexec
  obtain ⟨rfl, _⟩ := exec_utc_now hexec
  exact Int.natCast_nonneg _

/-- **New entries have one too.** -/
theorem run_dated (h : LedgerRun v (.init s) ls c) (dated : s.Dated) :
    ∀ r ∈ c.world.store.entries, Datable r.created_at := by
  intro r hr
  rcases entry_inserted h hr with hold | ⟨e, he, values, hop, hrow⟩
  · exact dated r hold
  · obtain ⟨before, after, split⟩ := List.append_of_mem he
    obtain ⟨p, hreq, _⟩ := carried h split (hop ▸ rfl)
    have hordered := ordered_at h (hreq ▸ asked_of_event h he) split rfl
    rw [hop] at hordered
    obtain ⟨_, now, rfl, hclock, _⟩ := hordered
    have hread := (history_grows ⟨_, split.symm⟩).subset hclock
    exact datable_of_ok (EntryInsert.row_ok hrow (reading_since_epoch h hread))

/-- An instant of an entry is sent as it is. -/
theorem instant_of_micros (h : Datable m) :
    (dt_to_timestamp (.of_micros m)).instant = m * 1000 := by
  obtain ⟨hlow, hhigh⟩ := h
  have hsecs : ((DateTime.of_micros m).timestamp) = m / 1000000 := by
    simp only [DateTime.timestamp, DateTime.of_micros]
    omega
  have hnanos : (DateTime.of_micros m).nanos % 1000000000 = m % 1000000 * 1000 := by
    simp only [DateTime.of_micros]
    omega
  have seconds := Int64.toInt_ofInt_of_le (show -2 ^ 63 ≤ m / 1000000 by omega)
    (show m / 1000000 < 2 ^ 63 by omega)
  have nanos := Int32.toInt_ofInt_of_le (show -2 ^ 31 ≤ m % 1000000 * 1000 by omega)
    (show m % 1000000 * 1000 < 2 ^ 31 by omega)
  simp only [Timestamp.instant, dt_to_timestamp, hsecs, hnanos, seconds, nanos]
  omega

/-! ## The rows of a page -/

/-- What a page is made of: rows that its call has read. -/
def page_from (v : Env) : Request → List LedgerDone → Except LedgerError Response → Prop
  | .get_statement f _ _, h, .ok (.statement page) => ∃ place n, ∃ rows : List EntryRow,
      did (.select_statement (f.query place n)) (some rows) ∈ h ∧
        ∀ e ∈ page.entries, ∃ row ∈ rows, row.statement_entry v.json_text = some e
  | _, _, _ => True

theorem serve_page_from (v : Env) (req : Request) :
    Guarded (fun _ _ => True) (page_from v req) (serve v req) [] := by
  cases req with
  | post_entry | get_balance =>
    refine (guarded_any _ []).mono (fun _ _ _ => trivial) ?_
    intro h r _
    trivial
  | get_statement f cursor limit =>
    rcases serve_get_statement (v := v) f cursor limit with ⟨e, heq⟩ | ⟨_, _, place, _, heq⟩
    · rw [heq]
      trivial
    · rw [heq]
      refine guarded_sql trivial trivial ?_
      intro rows
      unfold statement_response
      cases hpage : statement_page v.json_text limit.toNat rows with
      | none => trivial
      | some page =>
        obtain ⟨entries, hentries, rfl⟩ := Option.map_eq_some_iff.mp hpage
        refine ⟨place, _, rows, List.mem_append_right _ List.mem_cons_self, ?_⟩
        intro e he
        obtain ⟨row, hrow, hentry⟩ := mem_right_of_forall₂ (forall₂_of_mapM hentries) he
        exact ⟨row, List.mem_of_mem_take hrow, hentry⟩

/-- A row that a page's SELECT yields is an entry that matches. -/
theorem selected_matches {db : Engine} {entries : List EntryRow} {f : StatementFilter}
    {place : Option (Int × Uuid)} {n : Nat} {row : EntryRow}
    (h : row ∈ select_statement db entries (f.query place n)) : row ∈ entries ∧ f.Matches db row := by
  rw [select_statement_eq] at h
  obtain ⟨hmem, _⟩ := Keyset.mem_listing.mp (List.mem_of_mem_take h)
  obtain ⟨hentry, hmatches⟩ := List.mem_filter.mp hmem
  exact ⟨hentry, of_decide_eq_true hmatches⟩

theorem exec_select_statement {db : Engine} {ch : Choice} {s' : Store} {q : StatementQuery}
    {rows : List EntryRow}
    (h : exec db t ch s (.sql (.select_statement q)) = some (some rows, s')) :
    rows = select_statement db s.entries q := by
  rcases exec_sql h with ⟨hr, _⟩ | ⟨r', hrun, hr⟩
  · cases hr
  · cases hrun
    rcases hr with hr | hr
    · exact Option.some.inj hr
    · cases hr

/-- **A page is made of committed entries** that match its filter. -/
theorem page_rows (h : LedgerRun v (.init s) ls c) {f : StatementFilter} {cursor : Option String}
    {limit : UInt32} {page : StatementPage}
    (hr : c.returned t (.get_statement f cursor limit) (.ok (.statement page))) :
    ∀ e ∈ page.entries, ∃ row ∈ c.world.store.entries, f.Matches v.db row ∧
      e.created_at = .of_micros row.created_at := by
  obtain ⟨place, n, rows, hread, hrows⟩ := h.answer (serve_page_from v) hr
  obtain ⟨e, he, _, hdid⟩ := mem_history.mp hread
  obtain ⟨_, _, _, hexec⟩ := h.did he hdid
  have hselected := exec_select_statement (t := e.tid) hexec
  obtain ⟨_, new, hsplit, hnew⟩ := run_grows h
  have hmem : e ∈ new := by
    rw [hsplit] at he
    exact he
  intro x hx
  obtain ⟨row, hrow, hentry⟩ := hrows x hx
  obtain ⟨hcommitted, hmatches⟩ := selected_matches (hselected ▸ hrow)
  exact ⟨row, (hnew e hmem).2.subset hcommitted, hmatches, (statement_entry_spec hentry).2⟩

/-! ## The guarantee -/

/-- The RPC has been answered with this message. -/
def Answers (req : GetStatementRequest) (c : LedgerConf) (t : Nat) (resp : GetStatementResponse) :
    Prop :=
  ∃ ask page, req.ask = .ok ask ∧ c.returned t ask (.ok (.statement page)) ∧
    resp = statement_reply page

/-- Every entry that is sent is within the times of the request. -/
def TimesKept (req : GetStatementRequest) (resp : GetStatementResponse) : Prop :=
  ∀ e ∈ resp.entries, (∀ ts ∈ req.from_time, ts.instant ≤ e.created_at.instant) ∧
    ∀ ts ∈ req.to_time, e.created_at.instant ≤ ts.instant

/-- An entry of this instant passes the times as the query has them. -/
def Passes (from_time to_time : Option Timestamp) (m : Int) : Prop :=
  (∀ first ∈ from_time.bind timestamp_to_dt, first.timestamp_micros ≤ m) ∧
    ∀ last ∈ to_time.bind timestamp_to_dt, m ≤ last.timestamp_micros

/-- It is within the times that were asked for. -/
def Within (from_time to_time : Option Timestamp) (m : Int) : Prop :=
  (∀ ts ∈ from_time, ts.instant ≤ m * 1000) ∧ ∀ ts ∈ to_time, m * 1000 ≤ ts.instant

/-- The first instant excludes no entry, or is one of chrono's and of whole microseconds. -/
def FromKept (ts : Timestamp) : Prop :=
  ts.instant ≤ 0 ∨ (timestamp_to_dt ts).isSome = true ∧ ts.instant % 1000 = 0

/-- The last instant excludes no entry, or is one of chrono's. -/
def ToKept (ts : Timestamp) : Prop :=
  253402300799999999000 ≤ ts.instant ∨ (timestamp_to_dt ts).isSome = true

/-- The times are kept: each by itself, or because no entry at all passes the query. -/
def Kept (from_time to_time : Option Timestamp) : Prop :=
  (∀ m, Datable m → ¬ Passes from_time to_time m) ∨
    (∀ ts ∈ from_time, FromKept ts) ∧ ∀ ts ∈ to_time, ToKept ts

/-- What passes a converted time. -/
theorem mem_converted {time : Option Timestamp} {dt : DateTime}
    (h : dt ∈ time.bind timestamp_to_dt) :
    ∃ ts ∈ time, timestamp_to_dt ts = some dt ∧ dt.nanos = ts.instant := by
  obtain ⟨ts, hts, hdt⟩ := Option.bind_eq_some_iff.mp h
  exact ⟨ts, hts, hdt, timestamp_to_dt_exact hdt⟩

/-- **What passes the query was asked for**, if the times are kept. -/
theorem within_of_kept (h : Kept from_time to_time) (hm : Datable m)
    (passes : Passes from_time to_time m) : Within from_time to_time m := by
  rcases h with hnone | ⟨hfrom, hto⟩
  · exact absurd passes (hnone m hm)
  · refine ⟨?_, ?_⟩
    · intro ts hts
      have hlow := hm.1
      rcases hfrom ts hts with hearly | ⟨hconverts, hwhole⟩
      · omega
      · obtain ⟨dt, hdt⟩ := Option.isSome_iff_exists.mp hconverts
        have hfirst := passes.1 dt (Option.bind_eq_some_iff.mpr ⟨ts, hts, hdt⟩)
        have hexact := timestamp_to_dt_exact hdt
        simp only [DateTime.timestamp_micros] at hfirst
        omega
    · intro ts hts
      have hhigh := hm.2
      rcases hto ts hts with hlate | hconverts
      · omega
      · obtain ⟨dt, hdt⟩ := Option.isSome_iff_exists.mp hconverts
        have hlast := passes.2 dt (Option.bind_eq_some_iff.mpr ⟨ts, hts, hdt⟩)
        have hexact := timestamp_to_dt_exact hdt
        simp only [DateTime.timestamp_micros] at hlast
        omega

/-- **Otherwise some instant passes that was not asked for**: the one that the first time is cut to,
1970 where it is dropped, or the last of the column where the last time is. -/
theorem kept_of_within (h : ∀ m, Datable m → Passes from_time to_time m → Within from_time to_time m) :
    Kept from_time to_time := by
  by_contra hkept
  obtain ⟨hsome, hboth⟩ := not_or.mp hkept
  obtain ⟨m, hm, passes⟩ : ∃ m, Datable m ∧ Passes from_time to_time m := by
    simpa using hsome
  obtain ⟨hlow, hhigh⟩ := hm
  apply hboth
  refine ⟨?_, ?_⟩
  · intro ts hts
    by_contra hlost
    obtain ⟨hpos, hlost⟩ := not_or.mp hlost
    cases hdt : timestamp_to_dt ts with
    | none =>
      have hzero : Passes from_time to_time 0 := by
        refine ⟨?_, fun last hlast => le_trans hlow (passes.2 last hlast)⟩
        intro first hfirst
        obtain ⟨ts', hts', hdt', _⟩ := mem_converted hfirst
        cases Option.mem_unique hts hts'
        rw [hdt] at hdt'
        cases hdt'
      have hwithin := (h 0 ⟨le_refl _, by decide⟩ hzero).1 ts hts
      omega
    | some dt =>
      have hexact := timestamp_to_dt_exact hdt
      have hfirst := passes.1 dt (Option.bind_eq_some_iff.mpr ⟨ts, hts, hdt⟩)
      have hcut : Passes from_time to_time dt.timestamp_micros := by
        refine ⟨?_, fun last hlast => le_trans hfirst (passes.2 last hlast)⟩
        intro first hfirst'
        obtain ⟨ts', hts', hdt', _⟩ := mem_converted hfirst'
        cases Option.mem_unique hts hts'
        rw [hdt] at hdt'
        cases hdt'
        exact le_refl _
      have hdatable : Datable dt.timestamp_micros :=
        ⟨by simp only [DateTime.timestamp_micros]; omega, le_trans hfirst hhigh⟩
      have hwithin := (h _ hdatable hcut).1 ts hts
      rw [hdt] at hlost
      simp only [DateTime.timestamp_micros] at hwithin
      simp only [Option.isSome_some, true_and] at hlost
      omega
  · intro ts hts
    by_contra hlost
    obtain ⟨hbefore, hdropped⟩ := not_or.mp hlost
    have hdt : timestamp_to_dt ts = none := by simpa using hdropped
    have hlast : Passes from_time to_time 253402300799999999 := by
      refine ⟨fun first hfirst => le_trans (passes.1 first hfirst) hhigh, ?_⟩
      intro last hlast
      obtain ⟨ts', hts', hdt', _⟩ := mem_converted hlast
      cases Option.mem_unique hts hts'
      rw [hdt] at hdt'
      cases hdt'
    have hwithin := (h _ ⟨by decide, le_refl _⟩ hlast).2 ts hts
    omega

/-! ## The equivalence -/

/-- An entry of this instant. -/
def entry_at (m : Int) : EntryRow where
  id := .low 9
  debit_account_id := .low 1
  credit_account_id := .low 2
  amount := .cast 5000000
  currency := .NGN
  idempotency_key := "pay-1"
  payload_hash := none
  payment_id := none
  metadata := none
  created_at := m

/-- A ledger that has it and no other. -/
def ledger_at (m : Int) : Store := { entries := [entry_at m] }

/-- The statement of its account between these times. -/
def asking_between (from_time to_time : Option Timestamp) : GetStatementRequest where
  account_id := (Uuid.low 1).bytes
  currency := ""
  cursor := ""
  limit := 0
  from_time := from_time
  to_time := to_time

/-- What it asks the ledger for. -/
def filter_between (from_time to_time : Option Timestamp) : StatementFilter where
  account_id := .low 1
  currency := none
  from_time := from_time.bind timestamp_to_dt
  to_time := to_time.bind timestamp_to_dt

theorem asking_between_ask (from_time to_time : Option Timestamp) :
    (asking_between from_time to_time).ask =
      .ok (.get_statement (filter_between from_time to_time) none 20) := rfl

theorem ledger_at_dated (hm : Datable m) : (ledger_at m).Dated := by
  intro r hr
  obtain rfl : r = entry_at m := by simpa [Store.index_rows, ledger_at] using hr
  exact hm

/-- What passes the times is selected. -/
theorem selects_entry (passes : Passes from_time to_time m) :
    select_statement sample.db [entry_at m]
      ((filter_between from_time to_time).query none 21) = [entry_at m] := by
  have hmatches : (filter_between from_time to_time).Matches sample.db (entry_at m) :=
    ⟨.inl rfl, by simp [filter_between], passes.1, passes.2⟩
  have hfilters := (filters_iff sample.db _ none 21 (entry_at m)).trans (decide_eq_true hmatches)
  have hafter : ((filter_between from_time to_time).query none 21).after (entry_at m) = true := rfl
  simp only [select_statement, List.filter_cons, hfilters, hafter, Bool.and_self, ↓reduceIte,
    List.filter_nil]
  rfl

/-- **An entry that passes the times is sent**, in some run. -/
theorem sends_entry (passes : Passes from_time to_time m) :
    ∃ ls c resp, LedgerRun sample (.init (ledger_at m)) ls c ∧
      Answers (asking_between from_time to_time) c 0 resp ∧
        ∃ e ∈ resp.entries, e.created_at = dt_to_timestamp (.of_micros m) := by
  obtain ⟨entry, hentry⟩ : ∃ entry, (entry_at m).statement_entry sample.json_text = some entry :=
    ⟨_, rfl⟩
  have hsolo : (machine sample.db).solo 0 [{}]
      (serve sample (.get_statement (filter_between from_time to_time) none 20)) (ledger_at m) =
        some (.ok (.statement ⟨[entry], none, false⟩), ledger_at m) := by
    rcases serve_get_statement (v := sample) (filter_between from_time to_time) none 20 with
      ⟨e, heq⟩ | ⟨_, _, place, hplace, heq⟩
    · cases heq
    · cases hplace
      have hpage : statement_page sample.json_text 20 [entry_at m] = some ⟨[entry], none, false⟩ := by
        simp [statement_page, hentry]
      have hrun : (machine sample.db).exec 0 {} (ledger_at m)
          (.sql (.select_statement ((filter_between from_time to_time).query none 21))) =
            some (some [entry_at m], ledger_at m) :=
        congrArg (fun rows => some (some rows, ledger_at m)) (selects_entry passes)
      rw [heq]
      show ((machine sample.db).exec 0 {} (ledger_at m)
        (.sql (.select_statement ((filter_between from_time to_time).query none 21)))).bind _ = _
      rw [hrun]
      show (machine sample.db).solo 0 [] (statement_response sample 20 [entry_at m]) (ledger_at m) = _
      rw [statement_response, hpage]
      rfl
  obtain ⟨ls, c, hrun, hret⟩ := run_of_solo hsolo
  refine ⟨ls, c, _, hrun, ⟨_, _, asking_between_ask from_time to_time, hret, rfl⟩, _,
    List.mem_cons_self, ?_⟩
  exact congrArg dt_to_timestamp (statement_entry_spec hentry).2

/-- What is sent is within the times, for whatever else is asked of whatever ledger. -/
def AlwaysKept (from_time to_time : Option Timestamp) : Prop :=
  ∀ (v : Env) (s : Store), s.Dated → ∀ ls c, LedgerRun v (.init s) ls c →
    ∀ req : GetStatementRequest, req.from_time = from_time → req.to_time = to_time →
      ∀ t resp, Answers req c t resp → TimesKept req resp

/-- **When the times of a request are kept**: if and only if each excludes no entry, or is an instant
of chrono's (the first one of whole microseconds); or no entry at all passes the query. -/
theorem times_kept_iff (from_time to_time : Option Timestamp) :
    AlwaysKept from_time to_time ↔ Kept from_time to_time := by
  constructor
  · intro kept
    apply kept_of_within
    intro m hm passes
    obtain ⟨ls, c, resp, hrun, hanswers, e, he, hcreated⟩ := sends_entry passes
    have hwithin := kept sample _ (ledger_at_dated hm) ls c hrun
      (asking_between from_time to_time) rfl rfl 0 resp hanswers e he
    rw [hcreated, instant_of_micros hm] at hwithin
    exact hwithin
  · rintro hkept v s dated ls c hrun req rfl rfl t resp ⟨ask, page, hask, hret, rfl⟩ e he
    obtain ⟨f, cursor, limit, rfl, hfrom, hto⟩ := ask_times hask
    obtain ⟨entry, hentry, rfl⟩ := List.mem_map.mp he
    obtain ⟨row, hrow, hmatches, hcreated⟩ := page_rows hrun hret entry hentry
    have hm := run_dated hrun dated row hrow
    have passes : Passes req.from_time req.to_time row.created_at :=
      ⟨hfrom ▸ hmatches.2.2.1, hto ▸ hmatches.2.2.2⟩
    have hinstant : (entry_proto entry).created_at.instant = row.created_at * 1000 := by
      rw [← instant_of_micros hm, ← hcreated]
      rfl
    rw [hinstant]
    exact within_of_kept hkept hm passes

/-! ## A sample -/

/-- One nanosecond before the year 2026, as a second and a negative part of it. -/
def before_2026 : Timestamp := ⟨1767225600, -1⟩

/-- An entry of 1970 is sent to a client who asks for those since 2026. -/
theorem first_time_dropped :
    ¬ ∀ (v : Env) (s : Store), s.Dated → ∀ ls c, LedgerRun v (.init s) ls c →
      ∀ req t resp, Answers req c t resp → TimesKept req resp := by
  intro claim
  have passes : Passes (some before_2026) none 0 := by
    refine ⟨?_, ?_⟩
    · intro first hfirst
      obtain ⟨_, hts, hdt, _⟩ := mem_converted hfirst
      cases hts
      cases hdt
    · intro last hlast
      cases hlast
  obtain ⟨ls, c, resp, hrun, hanswers, e, he, hcreated⟩ := sends_entry passes
  have datable : Datable 0 := ⟨by decide, by decide⟩
  have hwithin := (claim sample _ (ledger_at_dated datable) ls c hrun _ 0 resp hanswers e he).1
    before_2026 rfl
  rw [hcreated, instant_of_micros datable] at hwithin
  revert hwithin
  decide

end Kova.Ledger

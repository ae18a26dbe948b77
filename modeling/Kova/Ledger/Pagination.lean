import Mathlib.Data.List.Forall2
import Kova.Ledger.ExactlyOnce
import Kova.Ledger.StatementLaws

/-!
# Paging through a statement

A reader asks for a first page and follows `next_cursor` until `has_more` is false, each page
with a limit of its own, while the other calls of the service go on between the pages and
during them (`Follow`). What the reader collects is a `Keyset.Follows` over the committed entries
of the moments at which the pages were read (`follow_reads`), and the guarantee of the
pagination is the library's (`statement_pagination`).
-/

namespace Kova.Ledger

open Conc

variable {v : Env} {f : StatementFilter}

/-- The place of an entry in its statement. -/
def StatementEntry.sort_key (e : StatementEntry) : Int ×ₗ Uuid :=
  toLex (e.created_at.timestamp_micros, e.entry_id)

/-- A reader's pages, each with the number of the call that fetched it: from a configuration in
which the first of these calls has not arrived to one in which the last has returned. -/
inductive Follow (v : Env) (f : StatementFilter) :
    LedgerConf → Option String → List (Nat × StatementPage) → LedgerConf → Prop
  | last {c d : LedgerConf} {ls : List LedgerLabel} {t : Nat} {cursor : Option String}
      {limit : UInt32} {page : StatementPage} (run : LedgerRun v c ls d)
      (arrived : c.pool.length ≤ t)
      (answered : d.returned t (.get_statement f cursor limit) (.ok (.statement page)))
      (final : page.has_more = false) : Follow v f c cursor [(t, page)] d
  | next {c d e : LedgerConf} {ls : List LedgerLabel} {t : Nat} {cursor : Option String}
      {limit : UInt32} {page : StatementPage} {rest : List (Nat × StatementPage)}
      (run : LedgerRun v c ls d) (arrived : c.pool.length ≤ t)
      (answered : d.returned t (.get_statement f cursor limit) (.ok (.statement page)))
      (more : page.has_more = true) (follow : Follow v f d page.next_cursor rest e) :
      Follow v f c cursor ((t, page) :: rest) e

/-- One page of a reader: the one event of its call, and the rows behind its entries. -/
structure Visit (v : Env) (f : StatementFilter) (c d : LedgerConf)
    (visit : Nat × StatementPage) (read : List EntryRow × List EntryRow) : Prop where
  moment : ∃ e, d.world.own visit.1 = [e] ∧ Inv v.db e.pre ∧
    c.world.store.entries <+: e.pre.entries ∧ e.pre.entries <+: d.world.store.entries ∧
    read.1 = e.pre.entries.filter fun r => f.Matches v.db r
  entries : List.Forall₂ (fun r e => r.statement_entry v.json_text = some e) read.2 visit.2.entries
  more_iff : visit.2.has_more = true ↔
    ∃ last, read.2.getLast? = some last ∧ ∃ r ∈ read.1, r.sort_key < last.sort_key

/-- A cursor text stands for a place in the order. -/
def Stands (f : StatementFilter) (cursor : Option String) (key : Option (Int ×ₗ Uuid)) : Prop :=
  ∀ place, read_cursor cursor = .ret place → place_key (f.query place 0).cursor = key

theorem stands_none (f : StatementFilter) : Stands f none none := by
  intro place h
  cases h
  rfl

/-- The cursor written from an entry stands for the entry's place. -/
theorem stands_encode (f : StatementFilter) {r : EntryRow} (h : RowOk r) :
    Stands f (some (encode_cursor (.of_micros r.created_at) r.id)) (some r.sort_key) := by
  have hlast : r.created_at < 253402300800000000 := by
    have := h.storable
    simp only [DateTime.storable, Bool.and_eq_true, decide_eq_true_eq] at this
    exact this.2
  have hfirst := h.since_epoch
  intro place hread
  simp only [read_cursor, decode_encode_cursor r.id (show -2 ^ 63 ≤ r.created_at by omega)
    (show r.created_at < 2 ^ 63 by omega)] at hread
  cases hread
  simp only [StatementFilter.query, Option.map_some, place_key,
    bind_micros_to_naive h.since_epoch h.storable]
  rfl

/-- One page, in context. -/
theorem visit_page {clock : Nat} {ls ms : List LedgerLabel} {c d : LedgerConf}
    (hc : LedgerRun v (start clock) ls c) (hd : LedgerRun v c ms d) {t : Nat}
    (harrived : c.pool.length ≤ t) {cursor : Option String} {limit : UInt32}
    {page : StatementPage} {key : Option (Int ×ₗ Uuid)} (hcursor : Stands f cursor key)
    (hr : d.returned t (.get_statement f cursor limit) (.ok (.statement page))) :
    ∃ read, Visit v f c d (t, page) read ∧
      Keyset.IsPage EntryRow.sort_key key read.1 read.2 page.has_more ∧
      (∀ r ∈ read.1, RowOk r) ∧
      page.next_cursor = if page.has_more then
        read.2.getLast?.map fun r => encode_cursor (.of_micros r.created_at) r.id else none := by
  obtain ⟨e, hown, hinv, hfrom, hto, halone⟩ := read_moment hc hd harrived (by simp) hr
  obtain ⟨place, rows, hplace, hpage, _⟩ := page_read hinv halone
  have isPage := hcursor place hplace ▸ hpage.isPage
  exact ⟨(_, rows), ⟨⟨e, hown, hinv, hfrom, hto, rfl⟩, hpage.entries, isPage.more_iff⟩, isPage,
    fun r hr => hinv.rows r (List.mem_append_left _ (List.mem_of_mem_filter hr)),
    hpage.next_cursor⟩

/-- A visit stays one when the reader started earlier and the service goes on. -/
theorem Visit.widen {c c' d d' : LedgerConf} {ms ms' : List LedgerLabel}
    (hc : LedgerRun v c' ms c) (hd : LedgerRun v d ms' d') {visit : Nat × StatementPage}
    {read : List EntryRow × List EntryRow} (h : Visit v f c d visit read)
    (hown : d'.world.own visit.1 = d.world.own visit.1) : Visit v f c' d' visit read := by
  obtain ⟨e, he, hinv, hfrom, hto, hread⟩ := h.moment
  exact ⟨⟨e, hown.trans he, hinv, (run_grows hc).entries.trans hfrom,
    hto.trans (run_grows hd).entries, hread⟩, h.entries, h.more_iff⟩

/-- A reader takes the service along a run. -/
theorem Follow.run {c d : LedgerConf} {cursor : Option String} {visits : List (Nat × StatementPage)}
    (h : Follow v f c cursor visits d) : ∃ ls, LedgerRun v c ls d := by
  induction h with
  | last run => exact ⟨_, run⟩
  | next run _ _ _ _ ih =>
    obtain ⟨ls, hrest⟩ := ih
    exact ⟨_, run.append hrest⟩

/-- **What a reader collects** are the reads of a keyset listing of the matching entries. -/
theorem follow_reads {clock : Nat} {c d : LedgerConf} {cursor : Option String}
    {visits : List (Nat × StatementPage)} (h : Follow v f c cursor visits d) :
    ∀ {ls : List LedgerLabel} {key : Option (Int ×ₗ Uuid)}, LedgerRun v (start clock) ls c →
      Stands f cursor key →
      ∃ reads, List.Forall₂ (Visit v f c d) visits reads ∧
        Keyset.Follows EntryRow.sort_key key reads := by
  induction h with
  | last run arrived answered final =>
    intro ls key hc hcursor
    obtain ⟨read, visit, isPage, _, _⟩ := visit_page hc run arrived hcursor answered
    exact ⟨[read], .cons visit .nil, .last (final ▸ isPage)⟩
  | @next c d e ms t cursor limit page rest run arrived answered more follow ih =>
    intro ls key hc hcursor
    obtain ⟨read, visit, isPage, rowsOk, hnext⟩ := visit_page hc run arrived hcursor answered
    rw [more] at isPage
    obtain ⟨last, hlast, -⟩ := isPage.more_iff.mp rfl
    rw [more, if_pos rfl, hlast, Option.map_some] at hnext
    have hok := rowsOk last (isPage.sound last (List.mem_of_getLast? hlast)).1
    obtain ⟨reads, visits, follows⟩ :=
      ih (hc.append run) (hnext ▸ stands_encode f hok)
    obtain ⟨ms', hrest⟩ := follow.run
    refine ⟨read :: reads, .cons ?_ ?_, .next isPage hlast ?_ follows⟩
    · exact visit.widen (.nil c) hrest (hrest.returned answered).2
    · exact visits.imp fun _ _ hv => hv.widen run (.nil e) rfl
    · -- what this page was read from, the later pages were read from too
      intro read' hread' r hr
      obtain ⟨_, _, visit'⟩ := mem_right_of_forall₂ visits hread'
      obtain ⟨e₁, _, _, _, hto, hrows⟩ := visit.moment
      obtain ⟨e₂, _, _, hfrom, _, hrows'⟩ := visit'.moment
      rw [hrows] at hr
      obtain ⟨hmem, hmatch⟩ := List.mem_filter.mp hr
      rw [hrows']
      exact List.mem_filter.mpr ⟨(hto.trans hfrom).subset hmem, hmatch⟩

/-! ## The guarantee -/

/-- Everything the reader was given, in the order it was given. -/
def listed (visits : List (Nat × StatementPage)) : List StatementEntry :=
  visits.flatMap fun visit => visit.2.entries

/-- The pages list every entry exactly once. -/
structure Paged (v : Env) (f : StatementFilter) (visits : List (Nat × StatementPage))
    (d : LedgerConf) : Prop where
  /-- Strictly descending in `created_at` and `id`. -/
  descending : (listed visits).Pairwise fun a b => b.sort_key < a.sort_key
  /-- No entry twice. -/
  once : ((listed visits).map (·.entry_id)).Nodup
  /-- Only entries of the ledger that match the account and the filters. -/
  matching : ∀ e ∈ listed visits, ∃ r ∈ d.world.store.entries,
    f.Matches v.db r ∧ r.statement_entry v.json_text = some e
  /-- Every matching entry that was committed when the first page was read. -/
  complete : ∀ first ∈ visits.head?, ∃ read, d.world.own first.1 = [read] ∧
    ∀ r ∈ read.pre.entries, f.Matches v.db r →
      ∃ e ∈ listed visits, r.statement_entry v.json_text = some e
  /-- `has_more` says whether a matching entry below the last one existed at the page's read. -/
  has_more : ∀ visit ∈ visits, ∃ read, d.world.own visit.1 = [read] ∧
    (visit.2.has_more = true ↔ ∃ last, visit.2.entries.getLast? = some last ∧
      ∃ r ∈ read.pre.entries, f.Matches v.db r ∧ r.sort_key < last.sort_key)

theorem statement_entry_sort_key {r : EntryRow} {e : StatementEntry}
    (h : r.statement_entry v.json_text = some e) : e.sort_key = r.sort_key := by
  obtain ⟨hid, hat⟩ := statement_entry_spec h
  rw [StatementEntry.sort_key, hid, hat, DateTime.timestamp_micros_of_micros]
  rfl

/-- The entries listed are, one by one, those of the rows read. -/
theorem listed_rows {c d : LedgerConf} {visits : List (Nat × StatementPage)}
    {reads : List (List EntryRow × List EntryRow)} (h : List.Forall₂ (Visit v f c d) visits reads) :
    List.Forall₂ (fun e r => r.statement_entry v.json_text = some e) (listed visits)
      (reads.flatMap (·.2)) :=
  List.rel_flatMap h fun _ _ visit => visit.entries.flip

theorem map_sort_key {es : List StatementEntry} {rs : List EntryRow}
    (h : List.Forall₂ (fun e r => r.statement_entry v.json_text = some e) es rs) :
    es.map StatementEntry.sort_key = rs.map EntryRow.sort_key := by
  induction h with
  | nil => rfl
  | cons hentry _ ih => rw [List.map_cons, List.map_cons, ih, statement_entry_sort_key hentry]

/-- **Statement pagination**: whatever is posted between and during the page reads, following
`next_cursor` from the first page to the end lists every entry exactly once. -/
theorem statement_pagination (v : Env) (clock : Nat) (ls : List LedgerLabel) (c d : LedgerConf)
    (f : StatementFilter) (visits : List (Nat × StatementPage))
    (hc : LedgerRun v (start clock) ls c) (h : Follow v f c none visits d) :
    Paged v f visits d := by
  obtain ⟨reads, hvisits, follows⟩ := follow_reads h hc (stands_none f)
  have entries := listed_rows hvisits
  obtain ⟨ms, hd⟩ := h.run
  have inv : Inv v.db d.world.store := (service_sound (hc.append hd)).inv
  -- a row read is a matching entry of the ledger
  have rows : ∀ r ∈ reads.flatMap (·.2), r ∈ d.world.store.entries ∧ f.Matches v.db r := by
    intro r hr
    obtain ⟨read, hread, hr⟩ := List.mem_flatMap.mp hr
    obtain ⟨_, _, visit⟩ := mem_right_of_forall₂ hvisits hread
    obtain ⟨e, _, _, _, hto, hrows⟩ := visit.moment
    have hin := (follows.sound read hread r hr).1
    rw [hrows] at hin
    obtain ⟨hmem, hmatch⟩ := List.mem_filter.mp hin
    exact ⟨hto.subset hmem, of_decide_eq_true hmatch⟩
  have descending := follows.descending
  refine ⟨?_, ?_, fun e he => ?_, fun first hfirst => ?_, fun visit hvisit => ?_⟩
  · rw [← List.pairwise_map (R := fun a b => b < a), map_sort_key entries, List.pairwise_map]
    exact descending
  · -- different rows of the ledger have different ids
    rw [map_entry_id entries]
    exact inv.listed_ids_nodup descending fun r hr => (rows r hr).1
  · obtain ⟨r, hr, hentry⟩ := mem_right_of_forall₂ entries.flip he
    exact ⟨r, (rows r hr).1, (rows r hr).2, hentry⟩
  · cases hvisits with
    | nil => cases hfirst
    | @cons visit read visits' reads' hvisit _ =>
      cases hfirst
      obtain ⟨e, hown, _, _, _, hrows⟩ := hvisit.moment
      refine ⟨e, hown, fun r hr hmatch => ?_⟩
      have hread : r ∈ read.1 := by
        rw [hrows]
        exact List.mem_filter.mpr ⟨hr, decide_eq_true hmatch⟩
      have hlisted := follows.complete (follows.grown rfl hread) nofun
      exact mem_right_of_forall₂ entries hlisted
  · obtain ⟨read, hread, hv⟩ := mem_right_of_forall₂ hvisits.flip hvisit
    obtain ⟨e, hown, _, _, _, hrows⟩ := hv.moment
    refine ⟨e, hown, hv.more_iff.trans ?_⟩
    rw [hrows]
    rcases getLast?_of_forall₂ hv.entries with ⟨hnil, hnil'⟩ | ⟨x, y, hx, hy, hentry⟩
    · simp only [hnil, hnil', List.getLast?_nil, reduceCtorEq, false_and, exists_false]
    · simp only [hx, hy, Option.some.injEq, exists_eq_left', List.mem_filter, decide_eq_true_eq,
        statement_entry_sort_key hentry, and_assoc]

/-! ## A reader on the sample deployment -/

/-- The labels of one payment by call `t`, from its arrival to its COMMIT. -/
def pay (t : Nat) (idempotency_key : String) (id outbox_id : Uuid) : List LedgerLabel :=
  [.spawn (.post_entry (payment idempotency_key)), .run t { uuid := id }, .run t {}, .run t {},
    .run t {}, .run t { uuid := outbox_id }, .run t {}, .run t {}]

/-- The statement of account 1 in NGN. -/
def payer_statement : StatementFilter := ⟨.low 1, some "NGN", none, none⟩

/-- A payment as a statement shows it. -/
def paid (id : Uuid) (idempotency_key : String) (micros : Int) : StatementEntry where
  entry_id := id
  debit_account_id := .low 1
  credit_account_id := .low 2
  amount := Dec19_4.toDecimal ⟨5000000, by decide⟩
  currency := "NGN"
  idempotency_key := idempotency_key
  payment_id := none
  metadata_json := none
  created_at := .of_micros micros

/-- Two payments of one microsecond. -/
def two_payments : List LedgerLabel :=
  .env (.advance 1700000000000000000) :: pay 0 "pay-1" (.low 10) (.low 20) ++
    pay 1 "pay-2" (.low 11) (.low 21)

def first_page : StatementPage where
  entries := [paid (.low 11) "pay-2" 1700000000000000]
  next_cursor := some (encode_cursor (.of_micros 1700000000000000) (.low 11))
  has_more := true

def second_page : StatementPage where
  entries := [paid (.low 10) "pay-1" 1700000000000000]
  next_cursor := none
  has_more := false

def before_pages : LedgerConf := replayed (machine sample.db) (serve sample) (start 0) two_payments

def after_first_page : LedgerConf :=
  replayed (machine sample.db) (serve sample) before_pages
    [.spawn (.get_statement payer_statement none 1), .run 2 {}]

/-- A third payment comes between the pages. -/
def after_second_page : LedgerConf :=
  replayed (machine sample.db) (serve sample) after_first_page
    (.env (.advance 5000) :: pay 3 "pay-3" (.low 12) (.low 22) ++
      [.spawn (.get_statement payer_statement first_page.next_cursor 1), .run 4 {}])

theorem two_pages : Follow sample payer_statement before_pages none
    [(2, first_page), (4, second_page)] after_second_page :=
  .next (run_replayed (by decide +kernel)) (by decide +kernel)
    (returned_of_result? rfl (by decide +kernel)) rfl
    (.last (run_replayed (by decide +kernel)) (by decide +kernel)
      (returned_of_result? rfl (by decide +kernel)) rfl)

theorem statement_pagination_two_pages :
    Paged sample payer_statement [(2, first_page), (4, second_page)] after_second_page :=
  statement_pagination sample 0 two_payments before_pages after_second_page payer_statement _
    (run_replayed (by decide +kernel)) two_pages

end Kova.Ledger

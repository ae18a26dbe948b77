import Mathlib.Data.List.Chain
import Kova.Account.RunLaws
import Kova.Ledger.Pagination

/-!
# Paging through the public statement

The statement endpoint hands the cursor of a request to the ledger client as it is, and encodes
the client's `next_cursor` once more on the way out. So the cursor of the next page's request is
never the one that the client gave, unless that is the empty text. A reader pages to the end if
and only if no page with a non-empty `next_cursor` is followed by another request; when the client
forwards to the ledger, if and only if the statement fits on its first page
(`statement_paged_iff`). Where there are two pages, the ledger refuses the second cursor as
malformed (`second_page_malformed`).
-/

set_option autoImplicit false

namespace Kova.Account

open Conc Ledger

variable {env : Env} {table : Table env} {clock : Nat} {ls : List AccountLabel} {c d : AccountConf}

/-! ## The cursor -/

theorem length_le_as_bytes (c : String) : c.toList.length ≤ (as_bytes c).length := by
  unfold as_bytes
  induction c.toList with
  | nil => exact Nat.le_refl 0
  | cons x l ih =>
    have hpos := x.utf8Size_pos
    simp only [List.flatMap_cons, List.length_append, List.length_cons,
      String.length_utf8EncodeChar]
    omega

/-- **A cursor is changed by its encoding**, unless it is empty: it gets longer. -/
theorem encoded_cursor_eq {c : String} : encoded_cursor c = c ↔ c = "" := by
  refine ⟨?_, ?_⟩
  · intro h
    have hlength := congrArg (fun c => c.toList.length) h
    simp only [encoded_cursor, String.toList_ofList, Base64.length_encode] at hlength
    have hbytes := length_le_as_bytes c
    have hnone : c.toList = [] := List.eq_nil_of_length_eq_zero (by omega)
    exact String.toList_inj.mp hnone
  · rintro rfl
    rfl

/-! ## Page requests -/

/-- A request for a page as it reached the ledger client, with the client's answer, and the ledger
at that moment. -/
structure PageCall where
  account_id : Uuid
  cursor : Option String
  limit : UInt32
  answer : Except AccountError StatementPage
  ledger : Ledger.Store

def page_call : AccountEvent → Option PageCall
  | ⟨_, _, .get_statement account_id cursor limit, s, answer, _⟩ =>
    some { account_id, cursor, limit, answer, ledger := s.ledger }
  | _ => none

/-- The page requests of a call. -/
def page_calls (d : AccountConf) (t : Nat) : List PageCall := (d.world.own t).filterMap page_call

theorem page_call_ledger {e : AccountEvent} {a : PageCall} (h : page_call e = some a) :
    a.ledger = e.pre.ledger := by
  unfold page_call at h
  split at h
  · cases h
    rfl
  · cases h

theorem page_call_none {e : AccountEvent} (h : e.op.asks_page = false) : page_call e = none := by
  unfold page_call
  split
  · cases h
  · rfl

/-- What a statement request that has returned asked of the client: nothing, or the page of its
own cursor. -/
inductive Asked (d : AccountConf) (t : Nat) (cursor : Option String) :
    Except Failure Response → Prop
  | refused {e : Failure} (unasked : page_calls d t = []) : Asked d t cursor (.error e)
  | asked {e : AccountEvent} {a : PageCall} (he : e ∈ d.world.log) (call : page_call e = some a)
      (only : page_calls d t = [a]) (own : a.cursor = cursor) :
      Asked d t cursor (statement_result a.limit a.answer)

theorem returned_asked (h : AccountRun env (start table clock) ls d) {t : Nat}
    {auth : Jwt.AuthHeader} {account_id : String} {cursor : Option String} {limit : Option UInt32}
    {r : Except Failure Response}
    (hr : d.returned t (.get_statement auth account_id cursor limit) r) : Asked d t cursor r := by
  have hanswer : StatementAnswer account_id cursor (history t d.world.log) r :=
    h.answer (serve_guarded env) hr
  have silent : ∀ es : List AccountEvent, (∀ x ∈ es.map Event.did, x.op.asks_page = false) →
      es.filterMap page_call = [] := by
    intro es hes
    apply List.filterMap_eq_nil_iff.mpr
    intro e he
    exact page_call_none (hes e.did (List.mem_map_of_mem he))
  generalize hh : history t d.world.log = h' at hanswer
  cases hanswer with
  | refused unasked =>
    subst hh
    exact .refused (silent _ unasked)
  | @asked h' kova_id limit answer unasked parsed =>
    obtain ⟨es, last, hown, rfl, hlast⟩ := List.map_eq_append_iff.mp hh
    obtain ⟨e, rest, rfl, hdid, hnil⟩ := List.map_eq_cons_iff.mp hlast
    obtain rfl := List.map_eq_nil_iff.mp hnil
    have he : e ∈ d.world.log :=
      List.mem_of_mem_filter (hown ▸ List.mem_append_right _ List.mem_cons_self)
    obtain ⟨tid, req, op, s, res, s'⟩ := e
    cases hdid
    refine .asked (a := ⟨kova_id, cursor, limit, res, s.ledger⟩) he rfl ?_ rfl
    rw [page_calls, World.own, hown, List.filterMap_append, silent _ unasked]
    rfl

/-! ## A reader -/

/-- The cursor that a response gives for the next request. -/
def meta_cursor : Except Failure Response → Option String
  | .ok (.statement _ cursor _ _) => cursor
  | _ => none

/-- What a response lists. -/
def data : Except Failure Response → List StatementItem
  | .ok (.statement items _ _ _) => items
  | _ => []

/-- A reader's requests for an account's statement, each with the number of its call and the
response: from a configuration in which the first of these calls has not arrived to one in which
the last has returned. Each request after the first has the cursor of the response before. -/
inductive Reads (env : Env) (account_id : String) :
    AccountConf → Option String → List (Nat × Except Failure Response) → AccountConf → Prop
  | last {c d : AccountConf} {ls : List AccountLabel} {t : Nat} {auth : Jwt.AuthHeader}
      {cursor : Option String} {limit : Option UInt32} {r : Except Failure Response}
      (run : AccountRun env c ls d) (arrived : c.pool.length ≤ t)
      (returned : d.returned t (.get_statement auth account_id cursor limit) r) :
      Reads env account_id c cursor [(t, r)] d
  | next {c d e : AccountConf} {ls : List AccountLabel} {t : Nat} {auth : Jwt.AuthHeader}
      {cursor : Option String} {limit : Option UInt32} {r : Except Failure Response}
      {rest : List (Nat × Except Failure Response)} (run : AccountRun env c ls d)
      (arrived : c.pool.length ≤ t)
      (returned : d.returned t (.get_statement auth account_id cursor limit) r) {next : String}
      (given : meta_cursor r = some next) (reads : Reads env account_id d (some next) rest e) :
      Reads env account_id c cursor ((t, r) :: rest) e

variable {account_id : String} {cursor : Option String}
  {visits : List (Nat × Except Failure Response)}

/-- The page requests of a reader, as they reached the ledger client. -/
def asked (d : AccountConf) (visits : List (Nat × Except Failure Response)) : List PageCall :=
  visits.flatMap fun visit => page_calls d visit.1

/-- `b` is the page request after `a`. -/
def Followed (d : AccountConf) (visits : List (Nat × Except Failure Response)) (a b : PageCall) :
    Prop :=
  ∃ before after, asked d visits = before ++ a :: b :: after

/-- How the service hands a cursor on. -/
structure Hands (a b : PageCall) (page : StatementPage) (cursor : String) : Prop where
  answered : a.answer = .ok page
  given : page.next_cursor = some cursor
  handed : b.cursor = some (encoded_cursor cursor)

/-- A response with a cursor is made of a page with one. -/
theorem meta_cursor_statement_result {limit : UInt32} {answer : Except AccountError StatementPage}
    {next : String} (h : meta_cursor (statement_result limit answer) = some next) :
    ∃ page cursor, answer = .ok page ∧ page.next_cursor = some cursor ∧
      next = encoded_cursor cursor := by
  cases answer with
  | error e => cases h
  | ok page =>
    obtain ⟨cursor, hcursor, rfl⟩ := Option.map_eq_some_iff.mp h
    exact ⟨page, cursor, rfl, hcursor, rfl⟩

/-- What a reader asks of the client. -/
structure Session (d : AccountConf) (cursor : Option String)
    (visits : List (Nat × Except Failure Response)) : Prop where
  each : ∀ visit ∈ visits, ∃ cursor, Asked d visit.1 cursor visit.2
  made : ∀ a ∈ asked d visits, ∃ e ∈ d.world.log, page_call e = some a
  first : ∀ a ∈ (asked d visits).head?, a.cursor = cursor
  hands : (asked d visits).IsChain fun a b => ∃ page cursor, Hands a b page cursor

theorem Session.nil : Session d cursor [] := ⟨nofun, nofun, nofun, .nil⟩

/-- One request more, in front. -/
theorem Session.cons {t : Nat} {r : Except Failure Response} (h : Asked d t cursor r)
    (rest : ∀ next, meta_cursor r = some next → Session d (some next) visits)
    (ended : meta_cursor r = none → visits = []) : Session d cursor ((t, r) :: visits) := by
  have split : asked d ((t, r) :: visits) = page_calls d t ++ asked d visits := List.flatMap_cons
  have later : Session d (meta_cursor r) visits := by
    cases hmeta : meta_cursor r with
    | none => exact ended hmeta ▸ .nil
    | some next => exact rest next hmeta
  refine ⟨?_, ?_, ?_, ?_⟩
  · intro visit hvisit
    rcases List.mem_cons.mp hvisit with rfl | hvisit
    · exact ⟨cursor, h⟩
    · exact later.each visit hvisit
  all_goals rw [split]
  · intro b hb
    rcases List.mem_append.mp hb with hb | hb
    · cases h with
      | refused unasked =>
        rw [unasked] at hb
        cases hb
      | asked he call only own =>
        rw [only, List.mem_singleton] at hb
        exact ⟨_, he, hb ▸ call⟩
    · exact later.made b hb
  · cases h with
    | refused unasked =>
      rw [unasked, ended rfl]
      nofun
    | asked he call only own =>
      rw [only]
      rintro _ ⟨⟩
      exact own
  · cases h with
    | refused unasked =>
      rw [unasked, ended rfl]
      exact .nil
    | @asked e a he call only own =>
      rw [only]
      refine List.isChain_cons.mpr ⟨?_, later.hands⟩
      intro b hb
      have handed := later.first b hb
      cases hmeta : meta_cursor (statement_result a.limit a.answer) with
      | none =>
        rw [ended hmeta] at hb
        cases hb
      | some next =>
        obtain ⟨page, cursor, answered, given, rfl⟩ := meta_cursor_statement_result hmeta
        exact ⟨page, cursor, answered, given, handed.trans hmeta⟩

/-- A reader takes the service along a run. -/
theorem Reads.run (hs : Reads env account_id c cursor visits d) : ∃ ls, AccountRun env c ls d := by
  induction hs with
  | last run => exact ⟨_, run⟩
  | next run _ _ _ _ ih =>
    obtain ⟨ls, hrest⟩ := ih
    exact ⟨_, run.append hrest⟩

/-- **Every cursor that is handed to the client**, but the first, is one of its own, encoded. -/
theorem Reads.session (hs : Reads env account_id c cursor visits d) :
    ∀ {ls : List AccountLabel}, AccountRun env (start table clock) ls c →
      Session d cursor visits := by
  induction hs with
  | last run _ returned =>
    intro ls hc
    exact .cons (returned_asked (hc.append run) returned) (fun _ _ => .nil) (fun _ => rfl)
  | next run _ returned given reads ih =>
    intro ls hc
    obtain ⟨_, hrest⟩ := reads.run
    have hd := hc.append run
    refine .cons (returned_asked (hd.append hrest) (hrest.returned returned).1) ?_ ?_
    · intro next hnext
      obtain rfl := Option.some.inj (given.symm.trans hnext)
      exact ih hd
    · intro hnone
      rw [given] at hnone
      cases hnone

/-! ## The client and the ledger -/

/-- What a reader asks of the ledger: every entry of the account. -/
def statement_of (account_id : Uuid) : StatementFilter := ⟨account_id, none, none, none⟩

/-- How a client writes the ledger's entries for an account: different ones with different ids. -/
structure View where
  entry : Uuid → StatementEntry → LedgerEntry
  entry_id : ∀ {account_id : Uuid} {a b : StatementEntry},
    (entry account_id a).entry_id = (entry account_id b).entry_id → a.entry_id = b.entry_id

variable {view : View}

def View.page (view : View) (account_id : Uuid) (page : Ledger.StatementPage) : StatementPage where
  entries := page.entries.map (view.entry account_id)
  next_cursor := page.next_cursor
  has_more := page.has_more

/-- A page that the client answers is the ledger's answer at that moment. -/
def Forwards (env : Env) (view : View) (a : PageCall) : Prop :=
  ∀ page, a.answer = .ok page → ∃ answer s,
    (Ledger.machine env.ledger.db).alone 0 {} (Ledger.serve env.ledger
      (.get_statement (statement_of a.account_id) a.cursor a.limit)) a.ledger =
        some (.ok (.statement answer), s) ∧
      page = view.page a.account_id answer

/-- The client forwards to the ledger. -/
def Forwarding (env : Env) (view : View) (d : AccountConf) : Prop :=
  ∀ e ∈ d.world.log, ∀ a, page_call e = some a → Forwards env view a

/-- The entries that a page request is about. -/
def PageCall.matching (env : Env) (a : PageCall) : List EntryRow :=
  a.ledger.entries.filter fun r => (statement_of a.account_id).Matches env.ledger.db r

/-- What the ledger read for a page that was forwarded. -/
structure Forwarded (env : Env) (view : View) (a : PageCall) (page : StatementPage)
    (place : Option (Int × Uuid)) (rows : List EntryRow) (answer : Ledger.StatementPage) : Prop where
  read : read_cursor a.cursor = .ret place
  of : PageOf env.ledger (statement_of a.account_id) a.ledger place rows answer
  more : answer.has_more = true ↔ a.limit.toNat < (Keyset.listing EntryRow.sort_key
    (place_key ((statement_of a.account_id).query place 0).cursor) (a.matching env)).length
  same : page = view.page a.account_id answer

theorem Forwards.forwarded {a : PageCall} (h : Forwards env view a)
    (hinv : Ledger.Inv env.ledger.db a.ledger) {page : StatementPage} (hp : a.answer = .ok page) :
    ∃ place rows answer, Forwarded env view a page place rows answer := by
  obtain ⟨answer, s, halone, hsame⟩ := h page hp
  obtain ⟨place, rows, hread, hof, hmore⟩ := page_read hinv halone
  exact ⟨place, rows, answer, hread, hof, hmore, hsame⟩

section Forwarded

variable {a : PageCall} {page : StatementPage} {place : Option (Int × Uuid)} {rows : List EntryRow}
  {answer : Ledger.StatementPage}

/-- The ledger gives a cursor, and no empty one, if and only if there are more entries. -/
theorem Forwarded.next_cursor (h : Forwarded env view a page place rows answer) :
    (answer.has_more = false ∧ page.next_cursor = none) ∨
      answer.has_more = true ∧ ∃ next, next ≠ "" ∧ page.next_cursor = some next := by
  have hnext : page.next_cursor = answer.next_cursor := by rw [h.same, View.page]
  rw [hnext, h.of.next_cursor]
  cases hmore : answer.has_more with
  | false => exact .inl ⟨rfl, rfl⟩
  | true =>
    obtain ⟨last, hlast, _⟩ := h.of.isPage.more_iff.mp hmore
    rw [if_pos rfl, hlast, Option.map_some]
    exact .inr ⟨rfl, _, encode_cursor_ne_empty _ _, rfl⟩

/-- A first page has more entries behind it if there are more than it holds. -/
theorem Forwarded.first_page (h : Forwarded env view a page place rows answer)
    (first : a.cursor = none) : answer.has_more = true ↔ a.limit.toNat < (a.matching env).length := by
  have hread := h.read
  rw [first] at hread
  cases hread
  have hmore := h.more
  have start : place_key ((statement_of a.account_id).query none 0).cursor = none := rfl
  rwa [start, Keyset.length_listing] at hmore

end Forwarded

/-! ## Paging to the end -/

/-- Everything that the reader was given. -/
def listed (visits : List (Nat × Except Failure Response)) : List StatementItem :=
  visits.flatMap fun visit => data visit.2

/-- The reader was told that there is no further page. -/
def Finished (visits : List (Nat × Except Failure Response)) : Prop :=
  ∃ t items has_more limit, visits.getLast? = some (t, .ok (.statement items none has_more limit))

/-- The pages list the account's entries exactly once. -/
structure Enumerated (env : Env) (view : View) (d : AccountConf)
    (visits : List (Nat × Except Failure Response)) : Prop where
  /-- No entry twice. -/
  once : ((listed visits).map (·.entry_id)).Nodup
  /-- Only entries of the account. -/
  sound : ∀ item ∈ listed visits, ∃ a ∈ asked d visits, ∃ r ∈ a.matching env, ∃ e,
    r.statement_entry env.ledger.json_text = some e ∧ item = (view.entry a.account_id e).item
  /-- Every entry of the account that was committed when the first page was read. -/
  complete : ∀ first ∈ (asked d visits).head?, ∀ r ∈ first.matching env, ∃ e,
    r.statement_entry env.ledger.json_text = some e ∧
      (view.entry first.account_id e).item ∈ listed visits

/-- **The statement can be paged to the end.** -/
structure PagedToEnd (env : Env) (view : View) (d : AccountConf)
    (visits : List (Nat × Except Failure Response)) : Prop where
  /-- The cursor handed to the client is the one that it gave with the page before. -/
  handed : ∀ a b, Followed d visits a b →
    ∃ page, a.answer = .ok page ∧ b.cursor = page.next_cursor
  /-- No cursor is malformed for the ledger. -/
  accepted : Forwarding env view d → ∀ a ∈ asked d visits, ∀ cursor ∈ a.cursor,
    ∃ place, decode_cursor cursor = .ok place
  enumerated : Forwarding env view d → Finished visits → Enumerated env view d visits

/-- No page with a non-empty cursor is followed by another request. -/
def EmptyCursors (d : AccountConf) (visits : List (Nat × Except Failure Response)) : Prop :=
  ∀ a b, Followed d visits a b → ∀ page, a.answer = .ok page → page.next_cursor = some ""

theorem Session.followed (h : Session d cursor visits) {a b : PageCall}
    (hab : Followed d visits a b) : ∃ page cursor, Hands a b page cursor := by
  obtain ⟨before, after, split⟩ := hab
  exact List.isChain_iff_forall_rel_of_append_cons_cons.mp h.hands split

/-- What was answered was asked for. -/
theorem Asked.of_ok {t : Nat} {resp : Response} {r : Except Failure Response} (h : Asked d t cursor r)
    (hr : r = .ok resp) : ∃ a, page_calls d t = [a] := by
  cases h with
  | refused => cases hr
  | asked _ _ only => exact ⟨_, only⟩

/-- Two requests that were asked are one after the other. -/
theorem followed_of {t : Nat} {r : Except Failure Response} {a b : PageCall}
    (only : page_calls d t = [a]) (hb : b ∈ asked d visits) :
    ∃ b', Followed d ((t, r) :: visits) a b' := by
  have split : asked d ((t, r) :: visits) = page_calls d t ++ asked d visits := List.flatMap_cons
  cases hrest : asked d visits with
  | nil =>
    rw [hrest] at hb
    cases hb
  | cons b' after => exact ⟨b', [], after, by rw [split, only, hrest]; rfl⟩

/-- **A cursor comes back as it was given** if and only if it is empty. -/
theorem Session.handed_iff (h : Session d cursor visits) :
    (∀ a b, Followed d visits a b → ∃ page, a.answer = .ok page ∧ b.cursor = page.next_cursor) ↔
      EmptyCursors d visits := by
  refine ⟨?_, ?_⟩
  · intro handed a b hab page hpage
    obtain ⟨page₁, next, hands⟩ := h.followed hab
    obtain ⟨page₂, hpage₂, hcursor⟩ := handed a b hab
    obtain rfl := Except.ok.inj (hpage.symm.trans hands.answered)
    obtain rfl := Except.ok.inj (hpage.symm.trans hpage₂)
    rw [hands.given, hands.handed, Option.some.injEq] at hcursor
    rw [hands.given, encoded_cursor_eq.mp hcursor]
  · intro empty a b hab
    obtain ⟨page, next, hands⟩ := h.followed hab
    refine ⟨page, hands.answered, ?_⟩
    have hnext := empty a b hab page hands.answered
    rw [hands.given, Option.some.injEq] at hnext
    rw [hands.handed, hands.given, hnext, encoded_cursor_eq.mpr rfl]

section Forwarding

variable (h : AccountRun env (start table clock) ls d) (session : Session d none visits)
  (forwarding : Forwarding env view d)

include h session forwarding

/-- What a page request of the reader read. -/
theorem asked_forwarded {a : PageCall} (ha : a ∈ asked d visits) {page : StatementPage}
    (hp : a.answer = .ok page) : ∃ place rows answer, Forwarded env view a page place rows answer := by
  obtain ⟨e, he, hcall⟩ := session.made a ha
  exact (forwarding e he a hcall).forwarded (page_call_ledger hcall ▸ ledger_inv h he) hp

/-- The ledger gives no empty cursor, so no second request comes to it. -/
theorem unfollowed (empty : EmptyCursors d visits) (a b : PageCall) : ¬ Followed d visits a b := by
  intro hab
  obtain ⟨page, next, hands⟩ := session.followed hab
  have ha : a ∈ asked d visits := by
    obtain ⟨before, after, split⟩ := hab
    rw [split]
    simp
  have hnext := empty a b hab page hands.answered
  obtain ⟨_, _, _, hforwarded⟩ := asked_forwarded h session forwarding ha hands.answered
  rcases hforwarded.next_cursor with ⟨_, hnone⟩ | ⟨_, _, hne, hsome⟩
  · rw [hnext] at hnone
    cases hnone
  · rw [hnext, Option.some.injEq] at hsome
    exact hne hsome.symm

/-- The only cursor that the client is handed is none. -/
theorem accepted (empty : EmptyCursors d visits) :
    ∀ a ∈ asked d visits, ∀ cursor ∈ a.cursor, ∃ place, decode_cursor cursor = .ok place := by
  intro a ha cursor hcursor
  have alone := unfollowed h session forwarding empty
  cases hall : asked d visits with
  | nil =>
    rw [hall] at ha
    cases ha
  | cons first after =>
    cases after with
    | nil =>
      rw [hall, List.mem_singleton] at ha
      subst ha
      rw [session.first a (by rw [hall]; rfl)] at hcursor
      cases hcursor
    | cons second after => exact absurd ⟨[], after, hall⟩ (alone first second)

end Forwarding

/-- **A statement of one page is paged to the end.** -/
theorem enumerated_single {a : PageCall} {page : StatementPage} {place : Option (Int × Uuid)}
    {rows : List EntryRow} {answer : Ledger.StatementPage} (hinv : Ledger.Inv env.ledger.db a.ledger)
    (hf : Forwarded env view a page place rows answer) (hp : a.answer = .ok page)
    (first : a.cursor = none) (ended : page.next_cursor = none) {t : Nat}
    (only : page_calls d t = [a]) :
    Enumerated env view d [(t, statement_result a.limit a.answer)] := by
  have hasked : asked d [(t, statement_result a.limit a.answer)] = [a] := by
    simp only [asked, List.flatMap_cons, List.flatMap_nil, List.append_nil, only]
  have hlisted : listed [(t, statement_result a.limit a.answer)] =
      answer.entries.map fun e => (view.entry a.account_id e).item := by
    simp only [listed, List.flatMap_cons, List.flatMap_nil, List.append_nil, hp, statement_result,
      data, hf.same, View.page, List.map_map]
    rfl
  have hlast : answer.has_more = false := by
    rcases hf.next_cursor with ⟨hmore, _⟩ | ⟨_, _, _, hsome⟩
    · exact hmore
    · rw [ended] at hsome
      cases hsome
  have matching : ∀ r ∈ rows, r ∈ a.matching env := fun r hr => (hf.of.isPage.sound r hr).1
  refine ⟨?_, ?_, ?_⟩
  · have ids : (answer.entries.map (·.entry_id)).Nodup := by
      rw [map_entry_id (hf.of.entries.flip)]
      exact hinv.listed_ids_nodup hf.of.isPage.descending fun r hr =>
        List.mem_of_mem_filter (matching r hr)
    rw [hlisted, List.map_map, List.Nodup, List.pairwise_map]
    rw [List.Nodup, List.pairwise_map] at ids
    exact ids.imp fun hne heq => hne (view.entry_id heq)
  · intro item hitem
    rw [hlisted] at hitem
    obtain ⟨e, he, rfl⟩ := List.mem_map.mp hitem
    obtain ⟨r, hr, hentry⟩ := mem_right_of_forall₂ hf.of.entries he
    exact ⟨a, hasked ▸ List.mem_cons_self, r, matching r hr, e, hentry, rfl⟩
  · intro a' ha' r hr
    rw [hasked] at ha'
    obtain rfl := Option.some.inj ha'
    have hread := hf.read
    rw [first] at hread
    cases hread
    rcases hf.of.isPage.complete r hr nofun with hrow | ⟨hmore, _⟩
    · obtain ⟨e, he, hentry⟩ := mem_right_of_forall₂ hf.of.entries.flip hrow
      exact ⟨e, hentry, hlisted ▸ List.mem_map_of_mem he⟩
    · rw [hlast] at hmore
      cases hmore

/-- No request was refused before it reached the client, the first was answered, and the reader went
on as long as it was given a cursor. -/
structure Unrefused (d : AccountConf) (visits : List (Nat × Except Failure Response)) : Prop where
  reached : ∀ visit ∈ visits, page_calls d visit.1 ≠ []
  answered : ∀ first ∈ visits.head?, ∃ resp, first.2 = .ok resp
  ended : ∀ last ∈ visits.getLast?, meta_cursor last.2 = none

/-- The account has no more entries than the first page holds, when it is read. -/
def FitsFirstPage (env : Env) (d : AccountConf) (visits : List (Nat × Except Failure Response)) :
    Prop :=
  ∀ first ∈ (asked d visits).head?, (first.matching env).length ≤ first.limit.toNat

/-- A last page's response. -/
theorem Asked.last_page {t : Nat} {r : Except Failure Response} (h : Asked d t cursor r)
    {resp : Response} (hr : r = .ok resp) (ended : meta_cursor r = none) :
    ∃ a page, page_calls d t = [a] ∧ a.cursor = cursor ∧ a.answer = .ok page ∧
      page.next_cursor = none ∧ r = statement_result a.limit a.answer := by
  cases h with
  | refused => cases hr
  | @asked e a he call only own =>
    cases hanswer : a.answer with
    | error e =>
      rw [hanswer] at hr
      cases hr
    | ok page =>
      rw [hanswer] at ended
      exact ⟨a, page, only, own, hanswer, Option.map_eq_none_iff.mp ended, by rw [hanswer]⟩

/-- A reader makes one request, or one that gives a cursor and then others. -/
theorem Reads.shape (hs : Reads env account_id c cursor visits d)
    (hc : AccountRun env (start table clock) ls c) :
    (∃ t r, visits = [(t, r)] ∧ Asked d t cursor r) ∨
      ∃ t r rest a, visits = (t, r) :: rest ∧ rest ≠ [] ∧ page_calls d t = [a] := by
  cases hs with
  | last run arrived returned => exact .inl ⟨_, _, rfl, returned_asked (hc.append run) returned⟩
  | @next _ _ _ _ t _ _ _ r rest run arrived returned next given reads =>
    obtain ⟨_, hrest⟩ := reads.run
    have hasked := returned_asked ((hc.append run).append hrest) (hrest.returned returned).1
    have answered : ∃ resp, r = .ok resp := by
      cases r with
      | error e => cases given
      | ok resp => exact ⟨resp, rfl⟩
    obtain ⟨resp, hresp⟩ := answered
    obtain ⟨a, only⟩ := hasked.of_ok hresp
    refine .inr ⟨t, r, rest, a, rfl, ?_, only⟩
    rintro rfl
    cases reads

section Reader

variable (hc : AccountRun env (start table clock) ls c) (hs : Reads env account_id c none visits d)
  (forwarding : Forwarding env view d)

include hc hs forwarding

/-- **A reader that is not handed a cursor** is given the whole statement. -/
theorem Reads.enumerated (empty : EmptyCursors d visits) (finished : Finished visits) :
    Enumerated env view d visits := by
  have session := hs.session hc
  obtain ⟨_, hd⟩ := hs.run
  have h := hc.append hd
  obtain ⟨t', items, has_more, limit, hlast⟩ := finished
  rcases hs.shape hc with ⟨t, r, rfl, hasked⟩ | ⟨t, r, rest, a, rfl, hrest, only⟩
  · obtain ⟨rfl, rfl⟩ := Prod.mk.inj (Option.some.inj hlast)
    obtain ⟨a, page, only, own, hp, ended, hr⟩ := hasked.last_page rfl rfl
    have ha : a ∈ asked d [(t, statement_result a.limit a.answer)] := by
      simp [asked, only]
    rw [hr] at session ⊢
    obtain ⟨e, he, hcall⟩ := session.made a ha
    obtain ⟨place, rows, answer, hforwarded⟩ := asked_forwarded h session forwarding ha hp
    exact enumerated_single (page_call_ledger hcall ▸ ledger_inv h he) hforwarded hp own ended only
  · -- The last request was answered too, so there are two.
    have hmem := List.mem_of_getLast? ((List.getLast?_cons_of_ne_nil hrest).symm.trans hlast)
    obtain ⟨_, hasked⟩ := session.each _ (List.mem_cons_of_mem _ hmem)
    obtain ⟨b, only'⟩ := hasked.of_ok rfl
    have hb : b ∈ asked d rest := List.mem_flatMap.mpr ⟨_, hmem, only' ▸ List.mem_cons_self⟩
    obtain ⟨b', hab⟩ := followed_of only hb
    exact absurd hab (unfollowed h session forwarding empty a b')

/-- **No cursor is handed on** if and only if the statement fits on its first page. -/
theorem Reads.fits_iff (unrefused : Unrefused d visits) :
    EmptyCursors d visits ↔ FitsFirstPage env d visits := by
  have session := hs.session hc
  obtain ⟨_, hd⟩ := hs.run
  have h := hc.append hd
  rcases hs.shape hc with ⟨t, r, rfl, hasked⟩ | ⟨t, r, rest, a, rfl, hrest, only⟩
  · obtain ⟨resp, hresp⟩ := unrefused.answered (t, r) rfl
    obtain ⟨a, page, only, own, hp, ended, hr⟩ := hasked.last_page hresp (unrefused.ended (t, r) rfl)
    have hall : asked d [(t, r)] = [a] := by simp [asked, only]
    have ha : a ∈ asked d [(t, r)] := hall ▸ List.mem_cons_self
    obtain ⟨place, rows, answer, hforwarded⟩ := asked_forwarded h session forwarding ha hp
    refine iff_of_true ?_ ?_
    · rintro x y ⟨before, after, split⟩
      rw [hall] at split
      have hlength := congrArg List.length split
      simp at hlength
      omega
    · intro first hfirst
      rw [hall] at hfirst
      obtain rfl := Option.some.inj hfirst
      rcases hforwarded.next_cursor with ⟨hmore, _⟩ | ⟨_, _, _, hsome⟩
      · have hfits := hforwarded.first_page own
        rw [hmore] at hfits
        exact Nat.le_of_not_lt fun hlt => Bool.false_ne_true (hfits.mpr hlt)
      · rw [ended] at hsome
        cases hsome
  · obtain ⟨visit, hvisit⟩ := List.exists_mem_of_ne_nil rest hrest
    obtain ⟨b, hb⟩ := List.exists_mem_of_ne_nil _
      (unrefused.reached visit (List.mem_cons_of_mem _ hvisit))
    obtain ⟨b', hab⟩ := followed_of (r := r) only (List.mem_flatMap.mpr ⟨visit, hvisit, hb⟩)
    have hhead : (asked d ((t, r) :: rest)).head? = some a := by simp [asked, only]
    obtain ⟨page, next, hands⟩ := session.followed hab
    obtain ⟨place, rows, answer, hforwarded⟩ :=
      asked_forwarded h session forwarding (List.mem_of_mem_head? hhead) hands.answered
    refine iff_of_false (fun empty => unfollowed h session forwarding empty a b' hab) ?_
    intro hfits
    rcases hforwarded.next_cursor with ⟨_, hnone⟩ | ⟨hmore, _⟩
    · rw [hands.given] at hnone
      cases hnone
    · have hlt := (hforwarded.first_page (session.first a hhead)).mp hmore
      exact absurd (hfits a hhead) (Nat.not_le_of_lt hlt)

end Reader

/-- **The public statement can be paged to the end** if and only if no page with a non-empty cursor
is followed by another request. Where the client forwards to the ledger and nothing else stops the
reader, that is: if and only if the statement fits on its first page. -/
theorem statement_paged_iff (env : Env) (view : View) (table : Table env) (clock : Nat)
    (ls : List AccountLabel) (c d : AccountConf) (account_id : String)
    (visits : List (Nat × Except Failure Response)) (hc : AccountRun env (start table clock) ls c)
    (hs : Reads env account_id c none visits d) :
    (PagedToEnd env view d visits ↔ EmptyCursors d visits) ∧
      (Forwarding env view d → Unrefused d visits →
        (PagedToEnd env view d visits ↔ FitsFirstPage env d visits)) := by
  have session := hs.session hc
  obtain ⟨_, hd⟩ := hs.run
  have h := hc.append hd
  have paged : PagedToEnd env view d visits ↔ EmptyCursors d visits := by
    refine ⟨fun hpaged => session.handed_iff.mp hpaged.handed, fun empty => ⟨?_, ?_, ?_⟩⟩
    · exact session.handed_iff.mpr empty
    · exact fun forwarding => accepted h session forwarding empty
    · exact fun forwarding => hs.enumerated hc forwarding empty
  exact ⟨paged, fun forwarding unrefused => paged.trans (hs.fits_iff hc forwarding unrefused)⟩

/-! ## Two readers on the sample deployment -/

/-- A client that writes an id as its text, and the side that the account is on. -/
def sample_view : View where
  entry account_id e :=
    { entry_id := e.entry_id.to_string
      amount := e.amount
      direction := if e.credit_account_id = account_id then "credit" else "debit"
      description := e.idempotency_key
      created_at := e.created_at }
  entry_id h := Uuid.to_string_injective h

/-- `Forwards`, computed. -/
def forwards (env : Env) (view : View) (a : PageCall) : Bool :=
  match a.answer with
  | .error _ => true
  | .ok page =>
    match (Ledger.machine env.ledger.db).alone 0 {} (Ledger.serve env.ledger
      (.get_statement (statement_of a.account_id) a.cursor a.limit)) a.ledger with
    | some (.ok (.statement answer), _) => page = view.page a.account_id answer
    | _ => false

theorem forwards_sound {a : PageCall} (h : forwards env view a = true) : Forwards env view a := by
  intro page hp
  unfold forwards at h
  rw [hp] at h
  dsimp only at h
  split at h
  · next answer s halone => exact ⟨answer, s, halone, of_decide_eq_true h⟩
  · cases h

/-- `Forwarding`, computed. -/
def forwarding (env : Env) (view : View) (d : AccountConf) : Bool :=
  d.world.log.all fun e => (page_call e).all (forwards env view)

theorem forwarding_sound (h : forwarding env view d = true) : Forwarding env view d := by
  intro e he a ha
  have hall := List.all_eq_true.mp h e he
  rw [ha] at hall
  exact forwards_sound hall

/-- Call `t` asks for a page of the user's account 2, and the client answers `answer`. -/
def read_page (t : Nat) (cursor : Option String) (limit : Option UInt32)
    (answer : Except AccountError StatementPage) : List AccountLabel :=
  [.spawn (.get_statement sample_bearer (Uuid.low 2).to_string cursor limit), .run t {}, .run t {},
    .run t { page := answer }]

/-- One payment to the account. -/
def after_payment : AccountConf :=
  replayed (machine sample) (serve sample) sample_start
    (sample_payment 0 "pay-1" (.low 10) (.low 20))

/-- Its statement is one page. -/
def one_page : AccountConf :=
  replayed (machine sample) (serve sample) after_payment
    (read_page 1 none none (.ok (sample_view.page (.low 2) second_page)))

/-- The entry as the endpoint shows it. -/
def shown (e : StatementEntry) : StatementItem := (sample_view.entry (.low 2) e).item

def whole_statement : List (Nat × Except Failure Response) :=
  [(1, .ok (.statement [shown (paid (.low 10) "pay-1" 1700000000000000)] none false 20))]

theorem one_page_reads :
    Reads sample (Uuid.low 2).to_string after_payment none whole_statement one_page :=
  .last (run_replayed (by decide +kernel)) (by decide +kernel)
    (returned_of_result? rfl (by decide +kernel))

theorem one_page_unrefused : Unrefused one_page whole_statement := by
  have reached : (page_calls one_page 1).isEmpty = false := by decide +kernel
  refine ⟨?_, ?_, ?_⟩
  · rintro visit hvisit hnone
    obtain rfl := List.mem_singleton.mp hvisit
    rw [hnone] at reached
    cases reached
  · rintro _ ⟨⟩
    exact ⟨_, rfl⟩
  · rintro _ ⟨⟩
    rfl

/-- It is paged to the end. -/
theorem statement_paged_one_page : PagedToEnd sample sample_view one_page whole_statement := by
  have fits : ((asked one_page whole_statement).head?.all fun first =>
      decide ((first.matching sample).length ≤ first.limit.toNat)) = true := by decide +kernel
  refine ((statement_paged_iff sample sample_view sample_table _ _ after_payment one_page _ _
    (run_replayed (by decide +kernel)) one_page_reads).2 (forwarding_sound (by decide +kernel))
      one_page_unrefused).mpr ?_
  intro first hfirst
  exact of_decide_eq_true ((Option.all_eq_true _ _).mp fits first hfirst)

/-- Two payments to the account. -/
def after_payments : AccountConf :=
  replayed (machine sample) (serve sample) after_payment
    (sample_payment 1 "pay-2" (.low 11) (.low 21))

/-- The first page holds one of them. -/
def after_page : AccountConf :=
  replayed (machine sample) (serve sample) after_payments
    (read_page 2 none (some 1) (.ok (sample_view.page (.low 2) first_page)))

/-- The cursor of the next. -/
def next_page : String := encoded_cursor (encode_cursor (.of_micros 1700000000000000) (.low 11))

def after_refusal : AccountConf :=
  replayed (machine sample) (serve sample) after_page
    (read_page 3 (some next_page) (some 1) (.error (.LedgerClient "malformed cursor")))

def two_requests : List (Nat × Except Failure Response) :=
  [(2, .ok (.statement [shown (paid (.low 11) "pay-2" 1700000000000000)] (some next_page) true 1)),
    (3, .error (.error (.LedgerClient "malformed cursor")))]

theorem two_requests_reads :
    Reads sample (Uuid.low 2).to_string after_payments none two_requests after_refusal :=
  .next (run_replayed (by decide +kernel)) (by decide +kernel)
    (returned_of_result? rfl (by decide +kernel)) rfl
    (.last (run_replayed (by decide +kernel)) (by decide +kernel)
      (returned_of_result? rfl (by decide +kernel)))

/-- The ledger does not accept it. -/
theorem second_page_malformed :
    ¬ ∀ (env : Env) (view : View) (table : Table env) (clock : Nat) (ls : List AccountLabel)
      (c d : AccountConf) (account_id : String) (visits : List (Nat × Except Failure Response)),
      AccountRun env (start table clock) ls c → Reads env account_id c none visits d →
        PagedToEnd env view d visits := by
  intro claim
  have before : AccountRun sample sample_start (sample_payment 0 "pay-1" (.low 10) (.low 20) ++
      sample_payment 1 "pay-2" (.low 11) (.low 21)) after_payments :=
    (run_replayed (by decide +kernel)).append (run_replayed (by decide +kernel))
  have paged := claim sample sample_view sample_table _ _ _ _ _ _ before two_requests_reads
  have malformed : ((asked after_refusal two_requests).any fun a =>
      a.cursor.any fun cursor => !(decode_cursor cursor).isOk) = true := by decide +kernel
  obtain ⟨a, ha, hcursor⟩ := List.any_eq_true.mp malformed
  obtain ⟨cursor, hsome, hrefused⟩ := (Option.any_eq_true _ _).mp hcursor
  obtain ⟨place, hplace⟩ := paged.accepted (forwarding_sound (by decide +kernel)) a ha cursor hsome
  rw [hplace] at hrefused
  cases hrefused

end Kova.Account

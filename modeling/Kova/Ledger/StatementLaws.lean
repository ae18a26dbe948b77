import Kova.Ledger.ServiceLaws
import Kova.Paging.Keyset

/-!
# One page of a statement

The cursor reads back what it was written from, the keyset condition of the query is the one of
`Keyset` at the entries' sort key, and so a page that the service answered is a `Keyset.IsPage`
of the matching entries (`page_read`).
-/

namespace Kova.Ledger

open Conc

/-! ## The cursor -/

theorem i64_of_bits_bits {x : Int} (hlow : -2 ^ 63 ≤ x) (hhigh : x < 2 ^ 63) :
    i64_of_bits (i64_bits x) = x := by
  unfold i64_of_bits i64_bits
  split <;> omega

/-- The text of a count of microseconds and an id: 24 bytes in base64. -/
def cursor_text (micros : Int) (id : Uuid) : String :=
  String.ofList (Base64.encode (BigEndian.bytes 8 (i64_bits micros) ++ id.bytes))

/-- A cursor reads back as the count and the id it was written from. -/
theorem decode_cursor_text {micros : Int} (id : Uuid) (hlow : -2 ^ 63 ≤ micros)
    (hhigh : micros < 2 ^ 63) : decode_cursor (cursor_text micros id) = .ok (micros, id) := by
  unfold decode_cursor cursor_text
  rw [String.toList_ofList, Base64.decode_encode]
  have size : (BigEndian.bytes 8 (i64_bits micros) ++ id.bytes).length = 24 := by
    rw [List.length_append, BigEndian.bytes_length, id.size]
  have bits : i64_bits micros % 256 ^ 8 = i64_bits micros := by
    unfold i64_bits
    omega
  simp only [size, ↓reduceDIte]
  rw [List.take_left' (BigEndian.bytes_length 8 _), BigEndian.value_bytes, bits,
    i64_of_bits_bits hlow hhigh]
  simp only [List.drop_left' (BigEndian.bytes_length 8 _)]

/-- **A cursor reads back** as the instant and the id it was written from. -/
theorem decode_encode_cursor {micros : Int} (id : Uuid) (hlow : -2 ^ 63 ≤ micros)
    (hhigh : micros < 2 ^ 63) :
    decode_cursor (encode_cursor (.of_micros micros) id) = .ok (micros, id) := by
  have htext : encode_cursor (.of_micros micros) id = cursor_text micros id := by
    rw [encode_cursor, DateTime.timestamp_micros_of_micros, cursor_text]
  rw [htext, decode_cursor_text id hlow hhigh]

/-- A cursor is not empty. -/
theorem encode_cursor_ne_empty (created_at : DateTime) (entry_id : Uuid) :
    encode_cursor created_at entry_id ≠ "" := by
  intro h
  have size := congrArg (fun c => c.toList.length) h
  simp only [encode_cursor, String.toList_ofList, Base64.length_encode, List.length_append,
    BigEndian.bytes_length, entry_id.size] at size
  cases size

/-- The instant that the keyset condition compares with is the cursor's. -/
theorem bind_micros_to_naive {micros : Int} (since_epoch : 0 ≤ micros)
    (hstorable : DateTime.storable micros) : (micros_to_naive micros).bind = micros := by
  have hlast : micros < 253402300800000000 := by
    simp only [DateTime.storable, Bool.and_eq_true, decide_eq_true_eq] at hstorable
    exact hstorable.2
  have wraps : micros % 1000000 * 1000 % 2 ^ 32 = micros % 1000000 * 1000 :=
    Int.emod_eq_of_lt (by omega) (by omega)
  have inside : DateTime.from_timestamp (micros / 1000000) (micros % 1000000 * 1000).toNat =
      some ⟨micros / 1000000 * 1000000000 + (micros % 1000000 * 1000).toNat⟩ :=
    if_pos ⟨by unfold DateTime.MIN_SECS; omega, by unfold DateTime.MAX_SECS; omega,
      .inl (by omega)⟩
  simp only [micros_to_naive, Int.tdiv_eq_ediv_of_nonneg since_epoch,
    Int.tmod_eq_emod_of_nonneg since_epoch, wraps, inside, Option.getD_some, DateTime.bind]
  omega

/-! ## The query -/

/-- An entry is in a statement: the account is on one of its sides, and it is within the filters
at the precision of the columns. -/
def StatementFilter.Matches (db : Engine) (f : StatementFilter) (r : EntryRow) : Prop :=
  (r.debit_account_id = f.account_id ∨ r.credit_account_id = f.account_id) ∧
    (∀ c ∈ f.currency, db.same r.currency.code c) ∧
    (∀ first ∈ f.from_time, first.timestamp_micros ≤ r.created_at) ∧
    ∀ last ∈ f.to_time, r.created_at ≤ last.timestamp_micros

instance (db : Engine) (f : StatementFilter) (r : EntryRow) : Decidable (f.Matches db r) :=
  inferInstanceAs (Decidable (_ ∧ _ ∧ _ ∧ _))

theorem filters_iff (db : Engine) (f : StatementFilter) (place : Option (Int × Uuid)) (n : Nat)
    (r : EntryRow) : (f.query place n).filters db r = decide (f.Matches db r) := by
  apply Bool.eq_iff_iff.mpr
  simp only [StatementQuery.filters, StatementFilter.query, StatementFilter.Matches,
    Bool.and_eq_true, Bool.or_eq_true, beq_iff_eq, Option.all_eq_true, decide_eq_true_eq,
    Option.mem_def, and_assoc, Option.map_eq_some_iff, forall_exists_index, and_imp,
    forall_apply_eq_imp_iff₂, DateTime.bind, DateTime.timestamp_micros]

/-- The place in the order that a cursor stands for. -/
def place_key (place : Option (Int × Uuid)) : Option (Int ×ₗ Uuid) := place.map toLex

/-- The split comparison of the keyset condition is the order of the sort keys. -/
theorem after_iff (q : StatementQuery) (r : EntryRow) :
    q.after r = decide (Keyset.Below (place_key q.cursor) r.sort_key) := by
  rw [Bool.eq_iff_iff, decide_eq_true_eq, Keyset.Below, StatementQuery.after]
  cases q.cursor with
  | none => simp [place_key]
  | some place =>
    obtain ⟨micros, id⟩ := place
    simp [place_key, EntryRow.sort_key, Prod.Lex.toLex_lt_toLex]

/-- **The SELECT is a keyset fetch** of the matching entries. -/
theorem select_statement_eq (db : Engine) (entries : List EntryRow) (f : StatementFilter)
    (place : Option (Int × Uuid)) (n : Nat) :
    select_statement db entries (f.query place n) =
      Keyset.fetch EntryRow.sort_key (place_key (f.query place n).cursor) n
        (entries.filter fun r => f.Matches db r) := by
  unfold select_statement Keyset.fetch Keyset.listing
  rw [List.filter_filter]
  simp only [filters_iff, after_iff, Bool.and_comm]
  rfl

/-! ## The page -/

variable {v : Env}

/-- The entries of a page, row by row. -/
theorem forall₂_of_mapM {α β : Type} {g : α → Option β} :
    ∀ {xs : List α} {ys : List β}, xs.mapM g = some ys → List.Forall₂ (fun x y => g x = some y) xs ys
  | [], ys, h => by
    cases h
    exact .nil
  | x :: xs, ys, h => by
    rw [List.mapM_cons] at h
    obtain ⟨y, hy, h⟩ := Option.bind_eq_some_iff.mp h
    obtain ⟨ys', hys, h⟩ := Option.bind_eq_some_iff.mp h
    cases h
    exact .cons hy (forall₂_of_mapM hys)

/-- The ids, and so the sort keys, of the committed entries are pairwise different. -/
theorem Inv.sort_keys_nodup {db : Engine} {s : Store} (h : Inv db s) (p : EntryRow → Bool) :
    ((s.entries.filter p).map EntryRow.sort_key).Nodup := by
  rw [List.Nodup, List.pairwise_map]
  refine ((List.pairwise_append.mp h.index).1.imp fun {r r'} hclash hkey => hclash (.inl ?_)).sublist
    List.filter_sublist
  exact congrArg (fun k => (ofLex k).2) hkey

/-- So are the ids of the rows that a statement lists. -/
theorem Inv.listed_ids_nodup {db : Engine} {s : Store} (h : Inv db s) {rows : List EntryRow}
    (descending : Keyset.Descending EntryRow.sort_key rows) (committed : ∀ r ∈ rows, r ∈ s.entries) :
    (rows.map (·.id)).Nodup := by
  rw [List.Nodup, List.pairwise_map]
  refine descending.imp_of_mem ?_
  intro a b ha hb hlt hid
  obtain rfl := h.unique (committed a ha) (committed b hb) (.inl hid)
  exact absurd hlt (lt_irrefl _)

/-- What a page says: its entries are those of `rows`, a page of the matching entries. -/
structure PageOf (v : Env) (f : StatementFilter) (s : Store) (place : Option (Int × Uuid))
    (rows : List EntryRow) (page : StatementPage) : Prop where
  entries : List.Forall₂ (fun r e => r.statement_entry v.json_text = some e) rows page.entries
  isPage : Keyset.IsPage EntryRow.sort_key (place_key (f.query place 0).cursor)
    (s.entries.filter fun r => f.Matches v.db r) rows page.has_more
  next_cursor : page.next_cursor =
    if page.has_more then rows.getLast?.map fun r => encode_cursor (.of_micros r.created_at) r.id
    else none

/-- The last entry of a page comes from its last row. -/
theorem getLast?_of_forall₂ {α β : Type} {R : α → β → Prop} {xs : List α} {ys : List β}
    (h : List.Forall₂ R xs ys) :
    (xs = [] ∧ ys = []) ∨ ∃ x y, xs.getLast? = some x ∧ ys.getLast? = some y ∧ R x y := by
  induction h with
  | nil => exact .inl ⟨rfl, rfl⟩
  | @cons x y xs ys hxy _ ih =>
    right
    rcases ih with ⟨rfl, rfl⟩ | ⟨x', y', hx, hy, hR⟩
    · exact ⟨x, y, rfl, rfl, hxy⟩
    · exact ⟨x', y', by rw [List.getLast?_cons, hx]; rfl, by rw [List.getLast?_cons, hy]; rfl, hR⟩

theorem statement_entry_spec {r : EntryRow} {e : StatementEntry}
    (h : r.statement_entry v.json_text = some e) :
    e.entry_id = r.id ∧ e.created_at = .of_micros r.created_at := by
  obtain ⟨_, _, rfl⟩ := Option.map_eq_some_iff.mp h
  exact ⟨rfl, rfl⟩

theorem mem_right_of_forall₂ {α β : Type} {R : α → β → Prop} {xs : List α} {ys : List β}
    (h : List.Forall₂ R xs ys) {y : β} (hy : y ∈ ys) : ∃ x ∈ xs, R x y := by
  induction h with
  | nil => cases hy
  | @cons x y' xs ys hxy _ ih =>
    rcases List.mem_cons.mp hy with rfl | hy
    · exact ⟨x, List.mem_cons_self, hxy⟩
    · obtain ⟨x', hx', hR⟩ := ih hy
      exact ⟨x', List.mem_cons_of_mem _ hx', hR⟩

theorem map_entry_id {es : List StatementEntry} {rs : List EntryRow}
    (h : List.Forall₂ (fun e r => r.statement_entry v.json_text = some e) es rs) :
    es.map (·.entry_id) = rs.map (·.id) := by
  induction h with
  | nil => rfl
  | cons hentry _ ih => rw [List.map_cons, List.map_cons, ih, (statement_entry_spec hentry).1]

/-- **A page read at once is a page of the matching entries**, and the last one if no more than
`limit` of them are left. -/
theorem page_read {s s' : Store} (hinv : Inv v.db s) {t : Nat} {f : StatementFilter}
    {cursor : Option String} {limit : UInt32} {page : StatementPage}
    (h : (machine v.db).alone t {} (serve v (.get_statement f cursor limit)) s =
      some (.ok (.statement page), s')) :
    ∃ place rows, read_cursor cursor = .ret place ∧ PageOf v f s place rows page ∧
      (page.has_more = true ↔ limit.toNat < (Keyset.listing EntryRow.sort_key
        (place_key (f.query place 0).cursor)
        (s.entries.filter fun r => f.Matches v.db r)).length) := by
  rcases serve_get_statement (v := v) f cursor limit with
    ⟨e, heq⟩ | ⟨hpos, _, place, hplace, heq⟩
  · rw [heq] at h
    cases h
  · rw [heq] at h
    have read : (machine v.db).alone t {} (statement_response v limit.toNat
        (select_statement v.db s.entries (f.query place (limit.toNat + 1)))) s =
          some (.ok (.statement page), s') := h
    rw [select_statement_eq] at read
    generalize hrows : Keyset.fetch EntryRow.sort_key _ _ _ = fetched at read
    have hpage : Keyset.IsPage EntryRow.sort_key (place_key (f.query place 0).cursor)
        (s.entries.filter fun r => f.Matches v.db r) (fetched.take limit.toNat)
        (decide (limit.toNat < fetched.length)) :=
      hrows ▸ Keyset.isPage_fetch hpos (hinv.sort_keys_nodup fun r => f.Matches v.db r)
    have count : limit.toNat < fetched.length ↔ limit.toNat < (Keyset.listing EntryRow.sort_key
        (place_key (f.query place 0).cursor) (s.entries.filter fun r => f.Matches v.db r)).length :=
      hrows ▸ Keyset.lt_length_fetch
    have take : fetched.take (if limit.toNat < fetched.length then limit.toNat
        else fetched.length) = fetched.take limit.toNat := by
      split
      · rfl
      · next hall => rw [List.take_length, List.take_of_length_le (Nat.le_of_not_lt hall)]
    unfold statement_response at read
    cases hp : statement_page v.json_text limit.toNat fetched with
    | none =>
      rw [hp] at read
      cases read
    | some page' =>
      rw [hp] at read
      cases read
      obtain ⟨entries, hentries, rfl⟩ := Option.map_eq_some_iff.mp hp
      rw [take] at hentries
      have same := forall₂_of_mapM hentries
      refine ⟨place, _, hplace, ⟨same, hpage, ?_⟩, decide_eq_true_iff.trans count⟩
      simp only [decide_eq_true_eq]
      congr 1
      rcases getLast?_of_forall₂ same with ⟨hnil, hnil'⟩ | ⟨r, e, hr, he, hentry⟩
      · rw [hnil, hnil']
        rfl
      · obtain ⟨hid, hat⟩ := statement_entry_spec hentry
        rw [hr, he, Option.map_some, Option.map_some, hid, hat]

end Kova.Ledger

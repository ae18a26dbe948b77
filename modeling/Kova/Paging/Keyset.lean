import Mathlib.Data.List.Sort
import Mathlib.Order.Basic

/-!
# Keyset pagination

Rows are listed in descending order of a key. A page holds the first rows strictly below a
cursor; the next page is asked with the key of the last row as its cursor. One more row than
the page holds is fetched, and its presence says that there are more pages.

- `isPage_fetch`: what one fetch yields, for rows with pairwise different keys.
- `Follows`: a reader follows the pages while the rows change between them, each read being of
  at least the rows of the reads before it.
- `Follows.descending`, `Follows.sound`, `Follows.complete`: the pages together list every row
  of the first read exactly once, in order, and nothing that no read held.
-/

namespace Keyset

variable {α κ : Type} [LinearOrder κ] (key : α → κ)

/-- Strictly below the cursor; without a cursor, anywhere. -/
def Below (cursor : Option κ) (k : κ) : Prop := ∀ x ∈ cursor, k < x

instance (cursor : Option κ) (k : κ) : Decidable (Below cursor k) :=
  inferInstanceAs (Decidable (∀ x ∈ cursor, k < x))

/-- The order of the listing. -/
def Descending (rows : List α) : Prop := rows.Pairwise fun a b => key b < key a

/-- All rows below the cursor, in order. -/
def listing (cursor : Option κ) (rows : List α) : List α :=
  (rows.filter fun a => Below cursor (key a)).insertionSort fun a b => key b ≤ key a

/-- The first `n` of them. -/
def fetch (cursor : Option κ) (n : Nat) (rows : List α) : List α := (listing key cursor rows).take n

/-- What a page says about the rows it was read from. -/
structure IsPage (cursor : Option κ) (rows page : List α) (more : Bool) : Prop where
  descending : Descending key page
  sound : ∀ a ∈ page, a ∈ rows ∧ Below cursor (key a)
  complete : ∀ a ∈ rows, Below cursor (key a) →
    a ∈ page ∨ more = true ∧ ∀ b ∈ page, key a < key b
  more_iff : more = true ↔
    ∃ last, page.getLast? = some last ∧ ∃ a ∈ rows, key a < key last

variable {key} {cursor : Option κ} {rows page : List α} {more : Bool}

theorem mem_listing {a : α} : a ∈ listing key cursor rows ↔ a ∈ rows ∧ Below cursor (key a) := by
  simp only [listing, List.mem_insertionSort, List.mem_filter, decide_eq_true_eq]

/-- The extra row is there when there are more rows than the page holds. -/
theorem lt_length_fetch {limit : Nat} :
    limit < (fetch key cursor (limit + 1) rows).length ↔ limit < (listing key cursor rows).length := by
  rw [fetch, List.length_take]
  omega

/-- Without a cursor every row is listed. -/
theorem length_listing : (listing key none rows).length = rows.length := by
  have all : (rows.filter fun a => decide (Below none (key a))) = rows :=
    List.filter_eq_self.mpr fun _ _ => decide_eq_true nofun
  rw [listing, List.length_insertionSort, all]

/-- Rows with different keys are listed in strictly descending order. -/
theorem descending_listing (distinct : (rows.map key).Nodup) :
    Descending key (listing key cursor rows) := by
  have : Std.Total fun a b : α => key b ≤ key a := ⟨fun a b => le_total (key b) (key a)⟩
  have : IsTrans α fun a b : α => key b ≤ key a := ⟨fun _ _ _ hab hbc => hbc.trans hab⟩
  have sorted : (listing key cursor rows).Pairwise fun a b => key b ≤ key a :=
    List.pairwise_insertionSort _ _
  have filtered : ((rows.filter fun a => decide (Below cursor (key a))).map key).Nodup :=
    distinct.sublist (List.filter_sublist.map key)
  have keys : ((listing key cursor rows).map key).Nodup :=
    ((List.perm_insertionSort _ _).map key).nodup_iff.mpr filtered
  rw [List.Nodup, List.pairwise_map] at keys
  exact (sorted.and keys).imp fun ⟨hle, hne⟩ => lt_of_le_of_ne hle (Ne.symm hne)

/-- Below the last row of a descending list there is no other of its rows. -/
theorem Descending.last_le (h : Descending key page) {a last : α} (ha : a ∈ page)
    (hlast : page.getLast? = some last) : key last ≤ key a := by
  obtain ⟨front, rfl⟩ := List.getLast?_eq_some_iff.mp hlast
  rcases List.mem_append.mp ha with ha | ha
  · exact ((List.pairwise_append.mp h).2.2 a ha last (List.mem_singleton_self _)).le
  · rw [List.mem_singleton.mp ha]

/-- **One fetch**: with one row more than the page holds, the page is the first rows below the
cursor, and the extra row says whether there are more. -/
theorem isPage_fetch {limit : Nat} (hlimit : 0 < limit) (distinct : (rows.map key).Nodup) :
    IsPage key cursor rows ((fetch key cursor (limit + 1) rows).take limit)
      (decide (limit < (fetch key cursor (limit + 1) rows).length)) := by
  have all : Descending key (listing key cursor rows) := descending_listing distinct
  have page : (fetch key cursor (limit + 1) rows).take limit =
      (listing key cursor rows).take limit := by
    rw [fetch, List.take_take, Nat.min_eq_left (Nat.le_succ _)]
  have more : (decide (limit < (fetch key cursor (limit + 1) rows).length)) =
      decide (limit < (listing key cursor rows).length) := decide_eq_decide.mpr lt_length_fetch
  rw [page, more]
  generalize hL : listing key cursor rows = L at *
  have mem : ∀ {a}, a ∈ L ↔ a ∈ rows ∧ Below cursor (key a) := hL ▸ mem_listing
  have parts : Descending key (L.take limit ++ L.drop limit) := by rwa [List.take_append_drop]
  obtain ⟨first, -, across⟩ := List.pairwise_append.mp parts
  refine ⟨first, fun a ha => mem.mp (List.mem_of_mem_take ha), fun a ha hbelow => ?_, ?_⟩
  · have inL := mem.mpr ⟨ha, hbelow⟩
    rw [← List.take_append_drop limit L] at inL
    rcases List.mem_append.mp inL with hin | hout
    · exact .inl hin
    · refine .inr ⟨?_, fun b hb => across b hb a hout⟩
      have := List.length_pos_of_mem hout
      rw [List.length_drop] at this
      exact decide_eq_true (by omega)
  · rw [decide_eq_true_eq]
    constructor
    · intro hlen
      have hfirst : L.take limit ≠ [] := fun h => by
        have := congrArg List.length h
        rw [List.length_take, List.length_nil] at this
        omega
      have hrest : 0 < (L.drop limit).length := by rw [List.length_drop]; omega
      obtain ⟨a, ha⟩ := List.exists_mem_of_length_pos hrest
      exact ⟨_, List.getLast?_eq_some_getLast hfirst, a, (mem.mp (List.mem_of_mem_drop ha)).1,
        across _ (List.getLast_mem hfirst) a ha⟩
    · rintro ⟨last, hlast, a, ha, hlt⟩
      by_contra hlen
      -- a page that holds everything holds `a`, which is below its last row
      have whole : L.take limit = L := List.take_of_length_le (Nat.le_of_not_lt hlen)
      rw [whole] at hlast
      have hbelow : Below cursor (key a) := fun x hx =>
        hlt.trans ((mem.mp (List.mem_of_getLast? hlast)).2 x hx)
      exact absurd hlt (not_lt.mpr (all.last_le (mem.mpr ⟨ha, hbelow⟩) hlast))

/-! ## Following the pages -/

variable (key) in
/-- The reads of a reader that follows the cursors to the end: the rows at the time of each
read, and the page it yielded. -/
inductive Follows : Option κ → List (List α × List α) → Prop
  | last {cursor : Option κ} {rows page : List α} (h : IsPage key cursor rows page false) :
      Follows cursor [(rows, page)]
  | next {cursor : Option κ} {rows page : List α} {last : α} {rest : List (List α × List α)}
      (h : IsPage key cursor rows page true) (hlast : page.getLast? = some last)
      (grown : ∀ read ∈ rest, rows ⊆ read.1) (hrest : Follows (some (key last)) rest) :
      Follows cursor ((rows, page) :: rest)

variable {reads : List (List α × List α)}

/-- Everything listed was in the read that listed it, below the cursor. -/
theorem Follows.sound (h : Follows key cursor reads) :
    ∀ read ∈ reads, ∀ a ∈ read.2, a ∈ read.1 ∧ Below cursor (key a) := by
  induction h with
  | last h =>
    intro read hread a ha
    obtain rfl := List.mem_singleton.mp hread
    exact h.sound a ha
  | @next cursor rows page last rest h hlast _ _ ih =>
    intro read hread a ha
    rcases List.mem_cons.mp hread with rfl | hread
    · exact h.sound a ha
    · obtain ⟨hin, hbelow⟩ := ih read hread a ha
      have hlt : key a < key last := hbelow _ rfl
      exact ⟨hin, fun x hx => hlt.trans ((h.sound last (List.mem_of_getLast? hlast)).2 x hx)⟩

/-- **The pages together are in strictly descending order.** -/
theorem Follows.descending (h : Follows key cursor reads) :
    Descending key (reads.flatMap (·.2)) := by
  induction h with
  | last h => simpa using h.descending
  | @next cursor rows page last rest h hlast _ hrest ih =>
    rw [List.flatMap_cons]
    refine List.pairwise_append.mpr ⟨h.descending, ih, fun a ha b hb => ?_⟩
    obtain ⟨read, hread, hb⟩ := List.mem_flatMap.mp hb
    have hlt : key b < key last := (hrest.sound read hread b hb).2 _ rfl
    exact hlt.trans_le (h.descending.last_le ha hlast)

/-- **What every read held is listed.** -/
theorem Follows.complete (h : Follows key cursor reads) {a : α}
    (ha : ∀ read ∈ reads, a ∈ read.1) (hbelow : Below cursor (key a)) :
    a ∈ reads.flatMap (·.2) := by
  induction h with
  | @last cursor rows page h =>
    rcases h.complete a (ha _ (List.mem_singleton_self _)) hbelow with hin | ⟨hmore, _⟩
    · simpa using hin
    · cases hmore
  | @next cursor rows page last rest h hlast _ _ ih =>
    rw [List.flatMap_cons, List.mem_append]
    rcases h.complete a (ha _ List.mem_cons_self) hbelow with hin | ⟨_, hlow⟩
    · exact .inl hin
    · refine .inr (ih (fun read hread => ha read (List.mem_cons_of_mem _ hread)) ?_)
      rintro _ ⟨⟩
      exact hlow last (List.mem_of_getLast? hlast)

/-- What the first read held, every later read held. -/
theorem Follows.grown (h : Follows key cursor reads) {first : List α × List α}
    (hfirst : reads.head? = some first) {a : α} (ha : a ∈ first.1) :
    ∀ read ∈ reads, a ∈ read.1 := by
  cases h with
  | last h =>
    cases hfirst
    intro read hread
    obtain rfl := List.mem_singleton.mp hread
    exact ha
  | next h hlast grown hrest =>
    cases hfirst
    intro read hread
    rcases List.mem_cons.mp hread with rfl | hread
    · exact ha
    · exact grown read hread ha

end Keyset

import Mathlib.Data.List.Nodup
import Kova.Codec.Json

/-!
# Records written to JSON objects and read back

A record's fields as a value (`Fields`): each has a name, a format and its place in the record. From
it come the derived writer (`write`) and the derived reader, which visits the members of an object
one by one (`visit`), puts each value into the slot of its field, refuses a member that comes twice,
ignores members of other names, and completes the record at the end (`finish`).

`read_perm`: whatever other members an object has and in whatever order they stand, a record is read
back whose every field's format reads what it wrote (`Faithful`). `read_ok_iff`: an object is read
exactly if it has every field that must be there (`required`), none twice, and in each a value that
its format reads (`reads`). `read_iff_in_turn`: it may as well be searched for each field in turn.
-/

set_option autoImplicit false

namespace Json

/-- How a value is written and read; `absent` is what a missing member stands for. -/
structure Format (α : Type) where
  write : α → Json
  read : Json → Option α
  absent : Option α := none

/-- The format reads what it writes of the value. -/
def Format.Faithful {α : Type} (f : Format α) (a : α) : Prop := f.read (f.write a) = some a

/-- The fields of a record of type `R`, from which an `α` is made. -/
inductive Fields (R : Type) : Type → Type 1
  | done {α : Type} (a : α) : Fields R α
  | field {α β : Type} (rest : Fields R (β → α)) (name : String) (format : Format β) (get : R → β) :
      Fields R α

namespace Fields

variable {R α β : Type}

def names : {α : Type} → Fields R α → List String
  | _, .done _ => []
  | _, .field rest name _ _ => rest.names ++ [name]

/-- The derived writer: the members in the order of the fields. -/
def write : {α : Type} → Fields R α → R → List (String × Json)
  | _, .done _, _ => []
  | _, .field rest name format get, r => rest.write r ++ [(name, format.write (get r))]

/-- What the fields of a record make. -/
def value : {α : Type} → Fields R α → R → α
  | _, .done a, _ => a
  | _, .field rest _ _ get, r => rest.value r (get r)

/-! ## The derived reader -/

/-- The values found so far. -/
inductive Slots {R : Type} : {α : Type} → Fields R α → Type 1
  | done {α : Type} {a : α} : Slots (.done a)
  | field {α β : Type} {rest : Fields R (β → α)} {name : String} {format : Format β} {get : R → β}
      (slots : Slots rest) (slot : Option β) : Slots (.field rest name format get)

def start : {α : Type} → (c : Fields R α) → c.Slots
  | _, .done _ => .done
  | _, .field rest _ _ _ => .field rest.start none

/-- The value of a field that may have been found. -/
def place (name : String) (format : Format β) (slot : Option β) (v : Json) :
    Except FieldError β :=
  match slot with
  | some _ => .error (.duplicate name)
  | none => Json.field name format.read v

/-- One member; `none` where no field has its name. -/
def visit : {α : Type} → {c : Fields R α} → c.Slots → String × Json →
    Option (Except FieldError c.Slots)
  | _, .done _, .done, _ => none
  | _, .field _ name format _, .field slots slot, m =>
    match visit slots m with
    | some found => some (found.map fun slots => .field slots slot)
    | none =>
      if m.1 = name then some ((place name format slot m.2).map fun b => .field slots (some b))
      else none

/-- The members of an object, one by one. -/
def visit_map {α : Type} {c : Fields R α} : List (String × Json) → c.Slots →
    Except FieldError c.Slots
  | [], slots => .ok slots
  | m :: members, slots =>
    match visit slots m with
    | some (.ok slots) => visit_map members slots
    | some (.error e) => .error e
    | none => visit_map members slots

/-- The end of the object: a field that was not found is missing, or has its value by default. -/
def finish : {α : Type} → {c : Fields R α} → c.Slots → Except FieldError α
  | _, .done a, .done => .ok a
  | _, .field _ name format _, .field slots slot =>
    match finish slots with
    | .error e => .error e
    | .ok make =>
      match slot.or format.absent with
      | some b => .ok (make b)
      | none => .error (.missing name)

/-- The derived reader, from the members of an object. -/
def read {α : Type} (c : Fields R α) (members : List (String × Json)) : Except FieldError α :=
  match visit_map members c.start with
  | .ok slots => finish slots
  | .error e => .error e

/-! ## What is written is read back -/

/-- Every field's format reads what it writes. -/
def Faithful : {α : Type} → Fields R α → R → Prop
  | _, .done _, _ => True
  | _, .field rest _ format get, r =>
    rest.Faithful r ∧ format.Faithful (get r)

/-- The slots in which the fields of these names have been found. -/
def found (r : R) (there : String → Bool) : {α : Type} → (c : Fields R α) → c.Slots
  | _, .done _ => .done
  | _, .field rest name _ get =>
    .field (rest.found r there) (if there name then some (get r) else none)

theorem found_start (r : R) {α : Type} (c : Fields R α) : c.found r (fun _ => false) = c.start := by
  induction c with
  | done a => rfl
  | field rest name format get ih =>
    rw [found, ih]
    rfl

theorem found_congr (r : R) {there there' : String → Bool} {α : Type} (c : Fields R α)
    (h : ∀ name ∈ c.names, there name = there' name) : c.found r there = c.found r there' := by
  induction c with
  | done a => rfl
  | field rest name format get ih =>
    rw [found, found, ih fun n hn => h n (List.mem_append_left _ hn),
      h name (List.mem_append_right _ List.mem_cons_self)]

theorem write_names (r : R) {α : Type} (c : Fields R α) : (c.write r).map Prod.fst = c.names := by
  induction c with
  | done a => rfl
  | field rest name format get ih =>
    rw [write, List.map_append, ih]
    rfl

/-- No field has the name. -/
theorem visit_other {m : String × Json} {α : Type} {c : Fields R α} (slots : c.Slots)
    (h : m.1 ∉ c.names) : visit slots m = none := by
  induction slots with
  | done => rfl
  | @field _ _ rest name format get slots slot ih =>
    obtain ⟨hrest, hname⟩ := not_or.mp (mt List.mem_append.mpr h)
    have hname : m.1 ≠ name := fun heq => hname (List.mem_singleton.mpr heq)
    simp only [visit, ih hrest, if_neg hname]

/-- **A member of the record** goes into its slot. -/
theorem visit_own {r : R} {m : String × Json} {there : String → Bool} {α : Type} (c : Fields R α)
    (distinct : c.names.Nodup) (faithful : c.Faithful r) (hm : m ∈ c.write r)
    (hnew : there m.1 = false) :
    visit (c.found r there) m = some (.ok (c.found r fun n => n == m.1 || there n)) := by
  induction c with
  | done a => cases hm
  | field rest name format get ih =>
    obtain ⟨hrest, _, hdisjoint⟩ := List.nodup_append.mp distinct
    obtain ⟨hfaithful, hread⟩ := faithful
    rcases List.mem_append.mp hm with hm | hm
    · have hmem : m.1 ∈ rest.names := write_names r rest ▸ List.mem_map_of_mem hm
      have hne : name ≠ m.1 := fun heq => hdisjoint _ hmem _ List.mem_cons_self heq.symm
      simp only [found, visit, ih hrest hfaithful hm, beq_eq_false_iff_ne.mpr hne, Bool.false_or]
      rfl
    · obtain rfl := List.mem_singleton.mp hm
      have hnot : name ∉ rest.names := fun hmem => hdisjoint _ hmem _ List.mem_cons_self rfl
      have hsame : (rest.found r fun n => n == name || there n) = rest.found r there := by
        refine found_congr r rest fun n hn => ?_
        have hne : n ≠ name := fun heq => hnot (heq ▸ hn)
        simp [hne]
      have hnew : there name = false := hnew
      have hvisit := visit_other (m := (name, format.write (get r))) (rest.found r there) hnot
      rw [Format.Faithful] at hread
      simp only [found, visit, hvisit, hnew, hsame, place, Json.field, hread, ↓reduceIte,
        beq_self_eq_true, Bool.true_or, Bool.false_eq_true]
      rfl

/-- The members of an object: those that are the record's fill their slots. -/
theorem visit_map_found {r : R} {α : Type} (c : Fields R α) (distinct : c.names.Nodup)
    (faithful : c.Faithful r) (members : List (String × Json)) (there : String → Bool)
    (own : ∀ m ∈ members, m.1 ∈ c.names → m ∈ c.write r ∧ there m.1 = false)
    (once : ((members.filter fun m => m.1 ∈ c.names).map Prod.fst).Nodup) :
    visit_map members (c.found r there) =
      .ok (c.found r fun n => members.any (·.1 == n) || there n) := by
  induction members generalizing there with
  | nil => rfl
  | cons m members ih =>
    by_cases hm : m.1 ∈ c.names
    · obtain ⟨hwritten, hnew⟩ := own m List.mem_cons_self hm
      rw [List.filter_cons_of_pos (by simpa using hm), List.map_cons, List.nodup_cons] at once
      simp only [visit_map, visit_own c distinct faithful hwritten hnew]
      rw [ih _ ?_ once.2]
      · refine congrArg Except.ok (found_congr r c fun n _ => ?_)
        rw [List.any_cons, Bool.beq_comm (a := n)]
        simp only [Bool.or_assoc, Bool.or_left_comm]
      · intro m' hm' hname
        obtain ⟨hwritten', hnew'⟩ := own m' (List.mem_cons_of_mem _ hm') hname
        have hne : m'.1 ≠ m.1 := by
          intro heq
          refine once.1 (heq ▸ List.mem_map_of_mem (List.mem_filter.mpr ⟨hm', ?_⟩))
          simpa using hname
        exact ⟨hwritten', by simp [hne, hnew']⟩
    · simp only [visit_map, visit_other (c.found r there) hm]
      rw [List.filter_cons_of_neg (by simpa using hm)] at once
      rw [ih there (fun m' hm' => own m' (List.mem_cons_of_mem _ hm')) once]
      refine congrArg Except.ok (found_congr r c fun n hn => ?_)
      have hne : m.1 ≠ n := fun heq => hm (heq ▸ hn)
      rw [List.any_cons, beq_eq_false_iff_ne.mpr hne, Bool.false_or]

theorem finish_found {r : R} {there : String → Bool} {α : Type} (c : Fields R α)
    (all : ∀ name ∈ c.names, there name = true) : finish (c.found r there) = .ok (c.value r) := by
  induction c with
  | done a => rfl
  | field rest name format get ih =>
    have hthere := all name (List.mem_append_right _ List.mem_cons_self)
    simp only [found, finish, ih fun n hn => all n (List.mem_append_left _ hn), hthere]
    rfl

/-- **What is written is read back**, in any order and among any other members. -/
theorem read_perm {r : R} {α : Type} (c : Fields R α) (distinct : c.names.Nodup)
    (faithful : c.Faithful r) {members others : List (String × Json)}
    (perm : members.Perm (c.write r ++ others)) (unknown : ∀ m ∈ others, m.1 ∉ c.names) :
    c.read members = .ok (c.value r) := by
  have hnames : ∀ m ∈ c.write r, m.1 ∈ c.names := fun m hm =>
    write_names r c ▸ List.mem_map_of_mem hm
  have own : ∀ m ∈ members, m.1 ∈ c.names → m ∈ c.write r ∧ false = false := by
    intro m hm hname
    rcases List.mem_append.mp (perm.mem_iff.mp hm) with hm | hm
    · exact ⟨hm, rfl⟩
    · exact absurd hname (unknown m hm)
  have once : ((members.filter fun m => m.1 ∈ c.names).map Prod.fst).Nodup := by
    have hwrite : (c.write r).filter (fun m => m.1 ∈ c.names) = c.write r :=
      List.filter_eq_self.mpr fun m hm => by simpa using hnames m hm
    have hothers : others.filter (fun m => m.1 ∈ c.names) = [] :=
      List.filter_eq_nil_iff.mpr fun m hm => by simpa using unknown m hm
    have hfiltered := perm.filter fun m => m.1 ∈ c.names
    rw [List.filter_append, hwrite, hothers, List.append_nil] at hfiltered
    rw [(hfiltered.map Prod.fst).nodup_iff, write_names]
    exact distinct
  have all : ∀ name ∈ c.names, (members.any (·.1 == name) || false) = true := by
    intro name hname
    rw [← write_names r c] at hname
    obtain ⟨m, hm, rfl⟩ := List.mem_map.mp hname
    rw [Bool.or_false, List.any_eq_true]
    exact ⟨m, perm.mem_iff.mpr (List.mem_append_left _ hm), beq_self_eq_true _⟩
  rw [read, ← found_start r, visit_map_found c distinct faithful members _ own once]
  exact finish_found c all

/-! ## What is read -/

/-- The fields that must be there. -/
def required : {α : Type} → Fields R α → List String
  | _, .done _ => []
  | _, .field rest name format _ =>
    rest.required ++ if format.absent.isNone then [name] else []

/-- The member is no field's, or its field's format reads it. -/
def reads : {α : Type} → Fields R α → String × Json → Bool
  | _, .done _, _ => true
  | _, .field rest name format _, m =>
    rest.reads m && (m.1 != name || (format.read m.2).isSome)

/-- The names of the slots that are filled. -/
def filled : {α : Type} → {c : Fields R α} → c.Slots → List String
  | _, .done _, .done => []
  | _, .field _ name _ _, .field slots slot => filled slots ++ if slot.isSome then [name] else []

theorem filled_names {α : Type} {c : Fields R α} (slots : c.Slots) : filled slots ⊆ c.names := by
  induction slots with
  | done => exact fun _ h => h
  | @field _ _ rest name format get slots slot ih =>
    intro n hn
    rcases List.mem_append.mp hn with hn | hn
    · exact List.mem_append_left _ (ih hn)
    · refine List.mem_append_right _ ?_
      split at hn
      · exact hn
      · cases hn

theorem reads_other {m : String × Json} {α : Type} (c : Fields R α) (h : m.1 ∉ c.names) :
    c.reads m = true := by
  induction c with
  | done a => rfl
  | field rest name format get ih =>
    obtain ⟨hrest, hname⟩ := not_or.mp (mt List.mem_append.mpr h)
    have hname : m.1 ≠ name := fun heq => hname (List.mem_singleton.mpr heq)
    simp [reads, ih hrest, hname]

/-- What a member of the record does to the slots. -/
theorem visit_named {m : String × Json} {α : Type} {c : Fields R α} (distinct : c.names.Nodup)
    (slots : c.Slots) (hm : m.1 ∈ c.names) :
    (m.1 ∉ filled slots ∧ c.reads m = true ∧ ∃ slots', visit slots m = some (.ok slots') ∧
        ∀ n, n ∈ filled slots' ↔ n ∈ filled slots ∨ n = m.1) ∨
      (¬ (m.1 ∉ filled slots ∧ c.reads m = true) ∧ ∃ e, visit slots m = some (.error e)) := by
  induction slots with
  | done => cases hm
  | @field _ _ rest name format get slots slot ih =>
    obtain ⟨hrest, _, hdisjoint⟩ := List.nodup_append.mp distinct
    by_cases hmem : m.1 ∈ rest.names
    · have hne : m.1 ≠ name := fun heq => hdisjoint _ hmem _ List.mem_cons_self heq
      have hslot : m.1 ∉ (if slot.isSome then [name] else []) := by
        split
        · exact fun h => hne (List.mem_singleton.mp h)
        · exact List.not_mem_nil
      rcases ih hrest hmem with ⟨hnew, hreads, slots', hvisit, hfilled⟩ | ⟨hnot, e, hvisit⟩
      · refine .inl ⟨?_, ?_, .field slots' slot, ?_, ?_⟩
        · exact fun h => (List.mem_append.mp h).elim hnew hslot
        · simp [reads, hreads, hne]
        · simp only [visit, hvisit]
          rfl
        · intro n
          simp only [filled, List.mem_append, hfilled]
          exact or_right_comm
      · refine .inr ⟨?_, e, ?_⟩
        · rintro ⟨hnew, hreads⟩
          simp only [reads, Bool.and_eq_true] at hreads
          exact hnot ⟨fun h => hnew (List.mem_append_left _ h), hreads.1⟩
        · simp only [visit, hvisit]
          rfl
    · obtain hname : m.1 = name := by
        rcases List.mem_append.mp hm with hm | hm
        · exact absurd hm hmem
        · exact List.mem_singleton.mp hm
      have hvisit := visit_other slots hmem
      have hrestreads := reads_other rest hmem
      have hunfilled : m.1 ∉ filled slots := fun h => hmem (filled_names slots h)
      cases slot with
      | some b =>
        refine .inr ⟨?_, .duplicate name, ?_⟩
        · rintro ⟨hnew, _⟩
          exact hnew (List.mem_append_right _ (by simp [hname]))
        · simp only [visit, hvisit, if_pos hname]
          rfl
      | none =>
        cases hread : format.read m.2 with
        | none =>
          refine .inr ⟨?_, .invalid name, ?_⟩
          · rintro ⟨_, hreads⟩
            simp [reads, hname, hread] at hreads
          · simp only [visit, hvisit, if_pos hname, place, Json.field, hread]
            rfl
        | some b =>
          refine .inl ⟨?_, ?_, .field slots (some b), ?_, ?_⟩
          · simpa [filled] using hunfilled
          · simp [reads, hrestreads, hread]
          · simp only [visit, hvisit, if_pos hname, place, Json.field, hread]
            rfl
          · intro n
            simp [filled, hname]

theorem required_names {α : Type} (c : Fields R α) : c.required ⊆ c.names := by
  induction c with
  | done a => exact fun _ h => h
  | field rest name format get ih =>
    intro n hn
    rcases List.mem_append.mp hn with hn | hn
    · exact List.mem_append_left _ (ih hn)
    · refine List.mem_append_right _ ?_
      split at hn
      · exact hn
      · cases hn

/-- The record is complete when every field that must be there has been found. -/
theorem finish_ok_iff {α : Type} {c : Fields R α} (distinct : c.names.Nodup) (slots : c.Slots) :
    (∃ a, finish slots = .ok a) ↔ ∀ name ∈ c.required, name ∈ filled slots := by
  induction slots with
  | done => exact ⟨fun _ _ h => absurd h List.not_mem_nil, fun _ => ⟨_, rfl⟩⟩
  | @field _ _ rest name format get slots slot ih =>
    obtain ⟨hrest, _, hdisjoint⟩ := List.nodup_append.mp distinct
    have hname : ∀ n ∈ rest.names, n ≠ name := fun n hn heq =>
      hdisjoint n hn _ List.mem_cons_self heq
    let slots' : (Fields.field rest name format get).Slots := .field slots slot
    have here : name ∈ filled slots' ↔ slot.isSome = true := by
      have hnot : name ∉ filled slots := fun h => hname _ (filled_names slots h) rfl
      simp [slots', filled, hnot]
    have before : ∀ n ∈ rest.required, (n ∈ filled slots' ↔ n ∈ filled slots) := by
      intro n hn
      have hne := hname n (required_names rest hn)
      simp [slots', filled, hne]
    have last : (∃ b, slot.or format.absent = some b) ↔
        (format.absent.isNone = true → slot.isSome = true) := by
      cases slot <;> cases format.absent <;> simp
    have whole : (∃ a, finish slots' = .ok a) ↔
        (∃ a, finish slots = .ok a) ∧ ∃ b, slot.or format.absent = some b := by
      cases hfinish : finish slots <;> cases hslot : slot.or format.absent <;>
        simp [slots', finish, hfinish, hslot]
    rw [whole, ih hrest, last, required, List.forall_mem_append]
    refine and_congr (forall₂_congr fun n hn => (before n hn).symm) ?_
    rw [← here]
    show _ ↔ ∀ n ∈ (if format.absent.isNone then [name] else []), n ∈ filled slots'
    cases format.absent <;> simp

theorem filled_start {α : Type} (c : Fields R α) : filled c.start = [] := by
  induction c with
  | done a => rfl
  | field rest name format get ih =>
    rw [start, filled, ih]
    rfl

/-- The members of the record in an object. -/
def own {α : Type} (c : Fields R α) (members : List (String × Json)) : List String :=
  (members.filter fun m => m.1 ∈ c.names).map Prod.fst

/-- **What an object is read for**: no field comes twice, and each is read. -/
theorem visit_map_ok_iff {α : Type} {c : Fields R α} (distinct : c.names.Nodup)
    (members : List (String × Json)) (slots : c.Slots) :
    (∀ slots', visit_map members slots = .ok slots' →
        ∀ n, n ∈ filled slots' ↔ n ∈ filled slots ∨ n ∈ c.own members) ∧
      ((∃ slots', visit_map members slots = .ok slots') ↔ (c.own members).Nodup ∧
        (∀ n ∈ c.own members, n ∉ filled slots) ∧ ∀ m ∈ members, c.reads m = true) := by
  induction members generalizing slots with
  | nil =>
    refine ⟨?_, by simp [visit_map, own]⟩
    rintro slots' ⟨⟩ n
    simp [own]
  | cons m members ih =>
    by_cases hm : m.1 ∈ c.names
    · have hown : c.own (m :: members) = m.1 :: c.own members := by
        rw [own, List.filter_cons_of_pos (by simpa using hm)]
        rfl
      rcases visit_named distinct slots hm with ⟨hnew, hreads, slots', hvisit, hfilled⟩ |
        ⟨hnot, e, hvisit⟩
      · obtain ⟨hends, hiff⟩ := ih slots'
        simp only [visit_map, hvisit]
        refine ⟨?_, ?_⟩
        · intro slots'' hslots n
          rw [hends slots'' hslots n, hfilled, hown, List.mem_cons, or_assoc]
        · rw [hiff, hown, List.nodup_cons, List.forall_mem_cons, List.forall_mem_cons]
          simp only [hfilled, not_or]
          grind
      · simp only [visit_map, hvisit]
        refine ⟨nofun, ?_⟩
        rw [hown, List.forall_mem_cons, List.forall_mem_cons]
        grind
    · have hown : c.own (m :: members) = c.own members := by
        rw [own, List.filter_cons_of_neg (by simpa using hm)]
        rfl
      simp only [visit_map, visit_other slots hm, hown, List.forall_mem_cons, reads_other c hm,
        true_and]
      exact ih slots

/-- **What is read**: an object with every field that must be there, in which no field comes twice
and each has a value that its format reads. -/
theorem read_ok_iff {α : Type} (c : Fields R α) (distinct : c.names.Nodup)
    (members : List (String × Json)) : (∃ a, c.read members = .ok a) ↔
      c.required ⊆ members.map Prod.fst ∧ (c.own members).Nodup ∧
        ∀ m ∈ members, c.reads m = true := by
  obtain ⟨hends, hiff⟩ := visit_map_ok_iff distinct members c.start
  simp only [filled_start, List.not_mem_nil, not_false_eq_true, implies_true, true_and, false_or]
    at hends hiff
  have named : ∀ name ∈ c.required, name ∈ c.own members ↔ name ∈ members.map Prod.fst := by
    intro name hname
    have hmem := required_names c hname
    simp only [own, List.mem_map, List.mem_filter, decide_eq_true_eq]
    constructor
    · rintro ⟨m, ⟨hm, _⟩, rfl⟩
      exact ⟨m, hm, rfl⟩
    · rintro ⟨m, hm, rfl⟩
      exact ⟨m, ⟨hm, hmem⟩, rfl⟩
  rw [read]
  cases hvisit : visit_map members c.start with
  | error e =>
    have hnot : ¬ ∃ slots', visit_map members c.start = .ok slots' := by simp [hvisit]
    rw [hiff] at hnot
    refine ⟨nofun, fun h => absurd h.2 hnot⟩
  | ok slots =>
    have hall := hiff.mp ⟨slots, hvisit⟩
    simp only [finish_ok_iff distinct, hends slots hvisit]
    refine ⟨fun h => ⟨fun name hname => (named name hname).mp (h name hname), hall⟩, ?_⟩
    intro h name hname
    exact (named name hname).mpr (h.1 hname)

/-! ## Field by field -/

/-- The value of a field in an object, or what a missing field stands for. -/
def look_up (name : String) (format : Format β) (members : List (String × Json)) :
    Except FieldError β :=
  match members.filter fun m => m.1 == name, format.absent with
  | [], some b => .ok b
  | _, _ => Json.required name format.read members

/-- A field that nothing stands for must be there. -/
theorem look_up_required {name : String} {format : Format β} (h : format.absent = none)
    (members : List (String × Json)) :
    look_up name format members = Json.required name format.read members := by
  unfold look_up
  rw [h]
  cases members.filter fun m => m.1 == name <;> rfl

/-- The fields looked up in turn, each in the whole object. -/
def in_turn : {α : Type} → Fields R α → List (String × Json) → Except FieldError α
  | _, .done a, _ => .ok a
  | _, .field rest name format _, members => do
    let make ← rest.in_turn members
    let b ← look_up name format members
    .ok (make b)

/-- What the members leave in the slot of one field. -/
def gather (name : String) (format : Format β) : Option β → List (String × Json) →
    Except FieldError (Option β)
  | slot, [] => .ok slot
  | slot, m :: members =>
    if m.1 = name then
      match place name format slot m.2 with
      | .ok b => gather name format (some b) members
      | .error e => .error e
    else gather name format slot members

/-- The members that are no value of a field fill the slots of the others. -/
theorem visit_map_field_iff {rest : Fields R (β → α)} {name : String} {format : Format β}
    {get : R → β} (hname : name ∉ rest.names) (members : List (String × Json))
    (slots : rest.Slots) (slot : Option β) (filled : (Fields.field rest name format get).Slots) :
    visit_map members (.field slots slot) = .ok filled ↔ ∃ slots' slot',
      visit_map members slots = .ok slots' ∧ gather name format slot members = .ok slot' ∧
        filled = .field slots' slot' := by
  induction members generalizing slots slot with
  | nil => simp [visit_map, gather, eq_comm]
  | cons m members ih =>
    by_cases hm : m.1 = name
    · have hother : visit slots m = none := visit_other slots (hm ▸ hname)
      simp only [visit_map, visit, hother, if_pos hm, gather]
      cases place name format slot m.2 with
      | error e => simp [Except.map]
      | ok b => exact ih slots (some b)
    · simp only [visit_map, visit, if_neg hm, gather]
      cases visit slots m with
      | none => exact ih slots slot
      | some found =>
        cases found with
        | error e => simp [Except.map]
        | ok slots' => exact ih slots' slot

/-- A slot that is filled stays so, if no other value comes. -/
theorem gather_some_iff {name : String} {format : Format β} {b : β} {slot : Option β}
    (members : List (String × Json)) : gather name format (some b) members = .ok slot ↔
      members.filter (fun m => m.1 == name) = [] ∧ slot = some b := by
  induction members with
  | nil => simp [gather, eq_comm]
  | cons m members ih =>
    by_cases hm : m.1 = name
    · simp [gather, hm, place]
    · simp [gather, hm, ih]

/-- **The slot of a field** holds at the end what is found by looking the field up. -/
theorem gather_none_iff {name : String} {format : Format β} {b : β}
    (members : List (String × Json)) :
    (∃ slot, gather name format none members = .ok slot ∧ slot.or format.absent = some b) ↔
      look_up name format members = .ok b := by
  induction members with
  | nil =>
    simp only [gather, look_up, Json.required, List.filter_nil]
    cases format.absent <;> simp
  | cons m members ih =>
    by_cases hm : m.1 = name
    · have hfirst : (m :: members).filter (fun m => m.1 == name) =
          m :: members.filter fun m => m.1 == name := List.filter_cons_of_pos (by simpa using hm)
      simp only [gather, if_pos hm, look_up, Json.required, hfirst, place, Json.field]
      cases hread : format.read m.2 with
      | none => cases members.filter fun m => m.1 == name <;> simp [hread]
      | some b' =>
        simp only [gather_some_iff]
        cases members.filter fun m => m.1 == name <;> simp [hread]
    · have hrest : (m :: members).filter (fun m => m.1 == name) =
          members.filter fun m => m.1 == name := List.filter_cons_of_neg (by simpa using hm)
      simp only [gather, if_neg hm, look_up, Json.required, hrest] at ih ⊢
      exact ih

/-- **Reading in one pass or field by field** accepts the same objects for the same values. -/
theorem read_iff_in_turn {α : Type} (c : Fields R α) (distinct : c.names.Nodup)
    (members : List (String × Json)) (a : α) :
    c.read members = .ok a ↔ c.in_turn members = .ok a := by
  have passes : c.read members = .ok a ↔
      ∃ slots, visit_map members c.start = .ok slots ∧ finish slots = .ok a := by
    rw [read]
    cases visit_map members c.start <;> simp
  rw [passes]
  clear passes
  induction c with
  | done a' =>
    have hidle : visit_map members (.done : (Fields.done (R := R) a').Slots) = .ok .done := by
      induction members with
      | nil => rfl
      | cons m members ih => exact ih
    simp only [start, hidle, Except.ok.injEq, in_turn]
    constructor
    · rintro ⟨_, rfl, h⟩
      exact Except.ok.inj h
    · rintro rfl
      exact ⟨_, rfl, rfl⟩
  | field rest name format get ih =>
    obtain ⟨hrest, _, hdisjoint⟩ := List.nodup_append.mp distinct
    have hname : name ∉ rest.names := fun hmem => hdisjoint _ hmem _ List.mem_cons_self rfl
    have before := fun make => ih hrest make
    simp only [start, visit_map_field_iff hname, in_turn]
    constructor
    · rintro ⟨_, ⟨slots, slot, hslots, hslot, rfl⟩, hfinish⟩
      simp only [finish] at hfinish
      cases hmake : finish slots with
      | error e =>
        rw [hmake] at hfinish
        cases hfinish
      | ok make =>
        simp only [hmake] at hfinish
        cases hvalue : slot.or format.absent with
        | none =>
          rw [hvalue] at hfinish
          cases hfinish
        | some b =>
          simp only [hvalue, Except.ok.injEq] at hfinish
          rw [(before make).mp ⟨slots, hslots, hmake⟩,
            (gather_none_iff members).mp ⟨slot, hslot, hvalue⟩]
          exact congrArg Except.ok hfinish
    · intro h
      cases hmake : rest.in_turn members with
      | error e =>
        rw [hmake] at h
        cases h
      | ok make =>
        rw [hmake] at h
        cases hvalue : look_up name format members with
        | error e =>
          rw [hvalue] at h
          cases h
        | ok b =>
          rw [hvalue] at h
          cases h
          obtain ⟨slots, hslots, hfinish⟩ := (before make).mpr hmake
          obtain ⟨slot, hslot, hslotvalue⟩ := (gather_none_iff members).mpr hvalue
          refine ⟨_, ⟨slots, slot, hslots, hslot, rfl⟩, ?_⟩
          simp only [finish, hfinish, hslotvalue]

end Fields

end Json

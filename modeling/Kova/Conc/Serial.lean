import Mathlib.Data.List.Basic
import Kova.Conc.History

/-!
# Calls one at a time

The runs in which a call arrives only when every earlier call has come to its end or was dropped
(`Serial`). Their logs are ordered by call (`Serial.ordered`): what an earlier call executed
precedes what a later one did.
-/

set_option autoImplicit false

namespace Conc

variable {σ Req Op Ch En ε α : Type} {Res : Op → Type}

/-- A call that will not move again. -/
def Call.over (call : Call Req Op Res ε α) : Bool := call.dropped || call.prog.finished

/-- No call is at work. -/
def Conf.Idle (c : Conf σ Req Op Res ε α) : Prop := ∀ call ∈ c.pool, call.over = true

/-- The runs within a scope whose calls execute one at a time. -/
inductive Serial (M : Machine σ Op Res Ch En) (body : Req → Prog Op Res ε α)
    (S : Scope σ Req Op Res Ch) :
    Conf σ Req Op Res ε α → List (Label Req Ch En) → Conf σ Req Op Res ε α → Prop
  | nil (c : Conf σ Req Op Res ε α) : Serial M body S c [] c
  | snoc {c d e : Conf σ Req Op Res ε α} {ls : List (Label Req Ch En)} {l : Label Req Ch En} :
      Serial M body S c ls d → S.allows d l → (∀ req, l = .spawn req → d.Idle) →
        step M body d l = some e → Serial M body S c (ls ++ [l]) e

variable {M : Machine σ Op Res Ch En} {body : Req → Prog Op Res ε α}
  {S : Scope σ Req Op Res Ch} {c d e : Conf σ Req Op Res ε α} {ls ms : List (Label Req Ch En)}

/-- A serial run is a run. -/
theorem Serial.run (h : Serial M body S c ls d) : Run M body S c ls d := by
  induction h with
  | nil => exact .nil _
  | snoc _ hok _ hstep ih => exact .snoc ih hok hstep

theorem Serial.append (h : Serial M body S c ls d) (h' : Serial M body S d ms e) :
    Serial M body S c (ls ++ ms) e := by
  induction h' with
  | nil => simpa using h
  | snoc _ hok hidle hstep ih =>
    rw [← List.append_assoc]
    exact .snoc ih hok hidle hstep

/-- At most the last call is at work, and the log is in the order of the calls. -/
structure Ordered (c : Conf σ Req Op Res ε α) : Prop where
  last : ∀ t call, c.pool[t]? = some call → t + 1 < c.pool.length → call.over = true
  bound : ∀ e ∈ c.world.log, e.tid < c.pool.length
  log : c.world.log.Pairwise fun a b => a.tid ≤ b.tid

theorem Ordered.step (h : Ordered c) {l : Label Req Ch En} (hidle : ∀ req, l = .spawn req → c.Idle)
    (hstep : step M body c l = some d) : Ordered d := by
  rcases step_cases hstep with ⟨req, rfl, rfl⟩ |
    ⟨t, ch, call, op, next, r, s', _, hcall, hdropped, hprog, _, rfl⟩ |
    ⟨t, call, _, hcall, rfl⟩ | ⟨o, s', _, _, rfl⟩
  · refine ⟨?_, ?_, h.log⟩
    · intro u call hu hlt
      simp only [List.length_append, List.length_singleton] at hlt
      rw [List.getElem?_append_left (by omega)] at hu
      exact hidle req rfl call (List.mem_of_getElem? hu)
    · intro e he
      have hlt := h.bound e he
      simp only [List.length_append, List.length_singleton]
      omega
  · -- The call that moves is at work, so it is the last one.
    have hlt := (List.getElem?_eq_some_iff.mp hcall).1
    have hlast : t + 1 = c.pool.length := by
      by_contra hne
      have hover := h.last t call hcall (by omega)
      rw [Call.over, hdropped, hprog] at hover
      cases hover
    refine ⟨?_, ?_, ?_⟩
    · intro u call' hu hlt'
      rw [List.length_set] at hlt'
      rcases set_cases hu with ⟨rfl, _⟩ | ⟨_, hu⟩
      · omega
      · exact h.last u call' hu hlt'
    · intro e he
      rw [List.length_set]
      rcases List.mem_append.mp he with he | he
      · exact h.bound e he
      · obtain rfl := List.mem_singleton.mp he
        exact hlt
    · refine List.pairwise_append.mpr ⟨h.log, List.pairwise_singleton _ _, ?_⟩
      intro a ha b hb
      obtain rfl := List.mem_singleton.mp hb
      have hbound := h.bound a ha
      show a.tid ≤ t
      omega
  · refine ⟨?_, ?_, h.log⟩
    · intro u call' hu hlt
      rw [List.length_set] at hlt
      rcases set_cases hu with ⟨rfl, rfl⟩ | ⟨_, hu⟩
      · rfl
      · exact h.last u call' hu hlt
    · intro e he
      rw [List.length_set]
      exact h.bound e he
  · exact ⟨h.last, h.bound, h.log⟩

/-- **The log of a serial run** is in the order of its calls. -/
theorem Serial.ordered {s : σ} (h : Serial M body S (.init s) ls d) : Ordered d := by
  induction h with
  | nil =>
    refine ⟨?_, ?_, .nil⟩
    · intro t call hcall
      cases hcall
    · intro e he
      cases he
  | snoc _ _ hidle hstep ih => exact ih.step hidle hstep

/-- What an earlier call executed precedes what a later one did. -/
theorem Serial.precedes {s : σ} (h : Serial M body S (.init s) ls d) {a b : Event σ Req Op Res}
    (ha : a ∈ d.world.log) (hb : b ∈ d.world.log) (hab : a.tid < b.tid) :
    Precedes d.world.log a b := by
  rcases precedes_total ha hb with rfl | hlt | hgt
  · exact absurd hab (Nat.lt_irrefl _)
  · exact hlt
  · have hle := hgt.rel h.ordered.log
    omega

/-! ## Runs without a dropped call -/

/-- If no move drops a call, no call is dropped. -/
theorem Run.undropped {s : σ} (h : Run M body S (.init s) ls d) (kept : ∀ t, .drop t ∉ ls) :
    ∀ call ∈ d.pool, call.dropped = false := by
  induction h with
  | nil =>
    intro call hcall
    cases hcall
  | @snoc c d ls l _ _ hstep ih =>
    have old := ih fun t hmem => kept t (List.mem_append_left _ hmem)
    rcases step_cases hstep with ⟨req, _, rfl⟩ |
      ⟨t, ch, call, op, next, r, s', _, hcall, hdropped, _, _, rfl⟩ | ⟨t, call, rfl, _, _⟩ |
      ⟨o, s', _, _, rfl⟩
    · intro call hcall
      rcases List.mem_append.mp hcall with hcall | hcall
      · exact old call hcall
      · exact List.mem_singleton.mp hcall ▸ rfl
    · intro call' hcall'
      rcases List.mem_or_eq_of_mem_set hcall' with hcall' | rfl
      · exact old call' hcall'
      · exact hdropped
    · exact absurd (List.mem_append_right _ List.mem_cons_self) (kept t)
    · exact old

/-- When no call is at work and none was dropped, every call has returned. -/
theorem Conf.Idle.returned (idle : d.Idle) (undropped : ∀ call ∈ d.pool, call.dropped = false)
    {t : Nat} {call : Call Req Op Res ε α} (hcall : d.pool[t]? = some call) :
    ∃ r, d.returned t call.req r := by
  have hmem := List.mem_of_getElem? hcall
  have hover := idle call hmem
  rw [Call.over, undropped call hmem, Bool.false_or] at hover
  cases hprog : call.prog with
  | ret a => exact ⟨.ok a, call, hcall, rfl, by rw [hprog, Prog.result?_ret]⟩
  | raise e => exact ⟨.error e, call, hcall, rfl, by rw [hprog, Prog.result?_raise]⟩
  | await op next =>
    rw [hprog] at hover
    cases hover

/-! ## Executing a serial run -/

/-- A list of moves executed one after another, as long as each is `allowed` and no call arrives
while another is at work. -/
def serial_replay (M : Machine σ Op Res Ch En) (body : Req → Prog Op Res ε α)
    (allowed : Label Req Ch En → Bool) (c : Conf σ Req Op Res ε α) :
    List (Label Req Ch En) → Option (Conf σ Req Op Res ε α)
  | [] => some c
  | l :: ls =>
    match l with
    | .spawn req =>
      if allowed l && c.pool.all Call.over then
        (step M body c (.spawn req)).bind fun d => serial_replay M body allowed d ls
      else none
    | l => if allowed l then (step M body c l).bind fun d => serial_replay M body allowed d ls
      else none

/-- What `serial_replay` executes is a serial run. -/
theorem serial_of_replay {allowed : Label Req Ch En → Bool}
    (sound : ∀ (c : Conf σ Req Op Res ε α) l, allowed l = true → S.allows c l) :
    ∀ {ls : List (Label Req Ch En)} {c d : Conf σ Req Op Res ε α},
      serial_replay M body allowed c ls = some d → Serial M body S c ls d
  | [], c, d, h => by
    simp only [serial_replay, Option.some.injEq] at h
    exact h ▸ .nil c
  | l :: ls, c, d, h => by
    have first : allowed l = true ∧ (∀ req, l = .spawn req → c.Idle) ∧
        (step M body c l).bind (fun d => serial_replay M body allowed d ls) = some d := by
      cases l with
      | spawn req =>
        simp only [serial_replay] at h
        split at h
        · next hok =>
          obtain ⟨hallowed, hidle⟩ := Bool.and_eq_true_iff.mp hok
          exact ⟨hallowed, fun _ _ => List.all_eq_true.mp hidle, h⟩
        · cases h
      | run | drop | env =>
        simp only [serial_replay] at h
        split at h
        · next hok => exact ⟨hok, fun _ hspawn => (by cases hspawn), h⟩
        · cases h
    obtain ⟨hallowed, hidle, hrest⟩ := first
    obtain ⟨e, hstep, hrest⟩ := Option.bind_eq_some_iff.mp hrest
    have one : Serial M body S c ([] ++ [l]) e := .snoc (.nil c) (sound c l hallowed) hidle hstep
    exact one.append (serial_of_replay sound hrest)

end Conc

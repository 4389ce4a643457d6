/-
# Theory.Calls -- calls in progress, as a list of program points

A list of calls grows when one is started and is rewritten at one position when that call
makes a step.  What an invariant needs about the list is how the number of calls at points
of some kind changes with it (`countP_same`,
`countP_leave`, `countP_enter`, `countP_start`), what becomes of a sum over the calls
(`sum_map_move`) and which calls there are afterwards (`getElem?_move`).

The interlocked operations of the code work on a `LONG`; `long` is its value.
-/
import Mathlib.Data.List.Basic
import Mathlib.Algebra.GroupWithZero.Nat
import Mathlib.Algebra.Ring.Int.Defs

namespace KvmGuestDrivers.Theory

open List

set_option autoImplicit false

section Calls

variable {π : Type} {calls : List π} {i j : Nat} {old new b : π} {p : π → Bool} {w : π → Nat}
  {P : π → Prop}

section

variable (here : calls[i]? = some old)

include here

/-- The calls before call `i` and those after it. -/
theorem split_at : ∃ before after, calls = before ++ old :: after ∧ i = before.length := by
  obtain ⟨inside, rfl⟩ := List.getElem?_eq_some_iff.mp here
  refine ⟨calls.take i, calls.drop (i + 1), ?_, ?_⟩
  · rw [getElem_cons_drop, take_append_drop]
  · rw [length_take_of_le (le_of_lt inside)]

/-- A step of call `i` moves it from `old` to `new` and leaves the others where they are. -/
theorem countP_move (new : π) (p : π → Bool) :
    (calls.set i new).countP p + (p old).toNat = calls.countP p + (p new).toNat := by
  obtain ⟨_, _, rfl, rfl⟩ := split_at here
  cases was : p old <;> cases now : p new <;> simp [was, now] <;> omega

theorem countP_same (new : π) (p : π → Bool) (same : p new = p old) :
    (calls.set i new).countP p = calls.countP p := by
  have moved := countP_move here new p
  rw [same] at moved
  omega

theorem countP_leave (new : π) (p : π → Bool) (was : p old = true)
    (gone : p new = false) : (calls.set i new).countP p + 1 = calls.countP p := by
  have moved := countP_move here new p
  rw [was, gone] at moved
  exact moved

theorem countP_enter (new : π) (p : π → Bool) (was : p old = false)
    (now : p new = true) : (calls.set i new).countP p = calls.countP p + 1 := by
  have moved := countP_move here new p
  rw [was, now] at moved
  exact moved

end

theorem countP_start (new : π) (p : π → Bool) :
    (calls ++ [new]).countP p = calls.countP p + (p new).toNat := by
  rw [countP_append, countP_cons]
  cases p new <;> rfl

/-- What a step of call `i` does to a sum over the calls. -/
theorem sum_map_move (here : calls[i]? = some old) (new : π) (w : π → Nat) :
    ((calls.set i new).map w).sum + w old = (calls.map w).sum + w new := by
  obtain ⟨_, _, rfl, rfl⟩ := split_at here
  simp
  omega

theorem sum_map_start (new : π) (w : π → Nat) :
    ((calls ++ [new]).map w).sum = (calls.map w).sum + w new := by
  simp

/-- A call that is taken out. -/
theorem sum_map_eraseIdx (here : calls[i]? = some old) (w : π → Nat) :
    ((calls.eraseIdx i).map w).sum + w old = (calls.map w).sum := by
  obtain ⟨_, _, rfl, rfl⟩ := split_at here
  simp [eraseIdx_append_of_length_le]
  omega

/-- What is filtered out weighs nothing. -/
theorem sum_map_filter (calls : List π) (light : ∀ q ∈ calls, p q = false → w q = 0) :
    ((calls.filter p).map w).sum = (calls.map w).sum := by
  induction calls with
  | nil => rfl
  | cons first _ ih =>
    have later := ih fun q mem => light q (mem_cons_of_mem first mem)
    cases keep : p first with
    | true => simp [keep, later]
    | false => simp [keep, later, light first mem_cons_self keep]

theorem sum_map_zero (light : ∀ q ∈ calls, w q = 0) : (calls.map w).sum = 0 := by
  induction calls with
  | nil => rfl
  | cons first _ ih =>
    have later := ih fun q mem => light q (mem_cons_of_mem first mem)
    simp [later, light first mem_cons_self]

/-- One call weighs no more than all of them. -/
theorem le_sum_map (here : calls[i]? = some old) (w : π → Nat) : w old ≤ (calls.map w).sum := by
  obtain ⟨_, _, rfl, rfl⟩ := split_at here
  simp
  omega

theorem sum_map_le {v : π → Nat} (le : ∀ p, w p ≤ v p) (ps : List π) :
    (ps.map w).sum ≤ (ps.map v).sum := by
  induction ps with
  | nil => exact le_rfl
  | cons first _ ih =>
    exact Nat.add_le_add (le first) ih

/-- What holds of the entries there were and of the new one holds of all of them. -/
theorem forall_mem_concat (old : ∀ q ∈ calls, P q) (own : P new) : ∀ q ∈ calls ++ [new], P q :=
  forall_mem_append.mpr ⟨old, forall_mem_singleton.mpr own⟩

/-- An entry other than the new one was there before. -/
theorem mem_of_mem_concat {q : π} (there : q ∈ calls ++ [new]) (other : new ≠ q) : q ∈ calls :=
  (mem_append.mp there).resolve_right fun last => other (mem_singleton.mp last).symm

theorem forall_mem_set (old : ∀ q ∈ calls, P q) (own : P new) : ∀ q ∈ calls.set i new, P q := by
  intro q member
  rcases mem_or_eq_of_mem_set member with before | rfl
  · exact old q before
  · exact own

/-- Where a call is after a step of call `i`. -/
theorem getElem?_move {pc : π} (there : (calls.set i new)[j]? = some pc) :
    (j = i ∧ pc = new) ∨ (j ≠ i ∧ calls[j]? = some pc) := by
  by_cases same : i = j
  · subst same
    rw [getElem?_set_self'] at there
    obtain ⟨_, _, rfl⟩ := Option.map_eq_some_iff.mp there
    exact .inl ⟨rfl, rfl⟩
  · rw [getElem?_set_ne same] at there
    exact .inr ⟨fun h => same h.symm, there⟩

theorem forall_mem_move (own : P new) (others : ∀ j q, j ≠ i → calls[j]? = some q → P q) :
    ∀ q ∈ calls.set i new, P q := by
  intro q member
  obtain ⟨j, there⟩ := getElem?_of_mem member
  rcases getElem?_move there with ⟨-, rfl⟩ | ⟨other, before⟩
  · exact own
  · exact others j q other before

theorem getElem?_moved (here : calls[i]? = some old) (new : π) :
    (calls.set i new)[i]? = some new := by
  rw [getElem?_set_self', here]
  rfl

theorem set_same (here : calls[i]? = some old) : calls.set i old = calls := by
  obtain ⟨_, entry⟩ := List.getElem?_eq_some_iff.mp here
  rw [← entry, set_getElem_self]

/-- A property of some call survives a step of call `i` that does not take it away. -/
theorem exists_mem_move (here : calls[i]? = some old) (stays : P old → P new)
    (before : ∃ p ∈ calls, P p) : ∃ p ∈ calls.set i new, P p := by
  obtain ⟨p, member, holds⟩ := before
  obtain ⟨j, there⟩ := getElem?_of_mem member
  by_cases moved : i = j
  · subst moved
    obtain rfl := Option.some.inj (here.symm.trans there)
    exact ⟨new, mem_of_getElem? (getElem?_moved here new), stays holds⟩
  · exact ⟨p, mem_of_getElem? ((getElem?_set_ne moved).trans there), holds⟩

theorem exists_mem_start (new : π) (before : ∃ p ∈ calls, P p) : ∃ p ∈ calls ++ [new], P p := by
  obtain ⟨p, member, holds⟩ := before
  exact ⟨p, mem_append_left _ member, holds⟩

/-- Where a call is after a new one has been started. -/
theorem getElem?_start {pc : π} (there : (calls ++ [new])[j]? = some pc) :
    (j = calls.length ∧ pc = new) ∨ calls[j]? = some pc := by
  rcases Nat.lt_trichotomy j calls.length with old | rfl | _
  · rw [getElem?_append_left old] at there
    exact .inr there
  · rw [getElem?_append_right le_rfl, Nat.sub_self] at there
    exact .inl ⟨rfl, (Option.some.inj there).symm⟩
  · rw [getElem?_eq_none (by simp; omega)] at there
    cases there

section

variable (here : calls[i]? = some old) {α : Type} {a : α}

include here

/-- What all calls hold in their hands together, counted. -/
theorem count_flatMap_move [DecidableEq α] (new : π) (hand : π → List α) (a : α) :
    ((calls.set i new).flatMap hand).count a + (hand old).count a =
      (calls.flatMap hand).count a + (hand new).count a := by
  obtain ⟨_, _, rfl, rfl⟩ := split_at here
  simp
  omega

/-- A call gives something away. -/
theorem flatMap_take [DecidableEq α] (new : π) (hand : π → List α)
    (left : (hand old).Perm (a :: hand new)) :
    (calls.flatMap hand).Perm (a :: (calls.set i new).flatMap hand) := by
  refine perm_iff_count.mpr fun b => ?_
  have moved := count_flatMap_move here new hand b
  have taken := left.count_eq b
  rw [count_cons] at taken ⊢
  omega

/-- A call gets something. -/
theorem flatMap_put [DecidableEq α] (new : π) (hand : π → List α)
    (more : (hand new).Perm (a :: hand old)) :
    ((calls.set i new).flatMap hand).Perm (a :: calls.flatMap hand) := by
  refine perm_iff_count.mpr fun b => ?_
  have moved := count_flatMap_move here new hand b
  have put := more.count_eq b
  rw [count_cons] at put ⊢
  omega

theorem flatMap_keep [DecidableEq α] (new : π) (hand : π → List α)
    (same : (hand new).Perm (hand old)) :
    ((calls.set i new).flatMap hand).Perm (calls.flatMap hand) := by
  refine perm_iff_count.mpr fun b => ?_
  have moved := count_flatMap_move here new hand b
  have kept := same.count_eq b
  omega

/-- What all calls hold together, where only one holds something. -/
theorem flatMap_of_only {hand : π → List α}
    (others : ∀ j p, j ≠ i → calls[j]? = some p → hand p = []) : calls.flatMap hand = hand old := by
  induction calls generalizing i with
  | nil => cases here
  | cons first rest ih =>
    rw [flatMap_cons]
    cases i with
    | zero =>
      cases here
      have behind : rest.flatMap hand = [] := by
        apply flatMap_eq_nil_iff.mpr
        intro p member
        obtain ⟨j, there⟩ := getElem?_of_mem member
        exact others (j + 1) p (Nat.succ_ne_zero j) there
      rw [behind, append_nil]
    | succ i =>
      rw [others 0 first (Nat.succ_ne_zero i).symm rfl]
      exact ih here fun j p ne there => others (j + 1) p (by omega) there

theorem countP_pos_of_getElem? (p : π → Bool) (holds : p old = true) : 0 < calls.countP p :=
  countP_pos_iff.mpr ⟨old, mem_of_getElem? here, holds⟩

end

/-- Two calls at points of a kind that only one call can be at are at the same point. -/
theorem eq_of_countP_le_one (one : calls.countP p ≤ 1) {a : π} (ha : a ∈ calls) (pa : p a = true)
    (hb : b ∈ calls) (pb : p b = true) : a = b := by
  have inA := mem_filter.mpr ⟨ha, pa⟩
  have inB := mem_filter.mpr ⟨hb, pb⟩
  rw [countP_eq_length_filter] at one
  generalize calls.filter p = there at one inA inB
  match there, one with
  | [only], _ => rw [mem_singleton.mp inA, mem_singleton.mp inB]

/-- Only one call is at points of a kind that at most one call is counted at. -/
theorem index_eq_of_countP_le_one (one : calls.countP p ≤ 1) (here : calls[i]? = some old)
    (pa : p old = true) (there : calls[j]? = some b) (pb : p b = true) : i = j := by
  induction calls generalizing i j with
  | nil => cases here
  | cons _ rest ih =>
    rw [countP_cons] at one
    cases i with
    | zero =>
      cases j with
      | zero => rfl
      | succ j =>
        cases here
        have later : rest[j]? = some b := there
        have more := countP_pos_of_getElem? later p pb
        rw [if_pos pa] at one
        omega
    | succ i =>
      cases j with
      | zero =>
        cases there
        have later : rest[i]? = some old := here
        have more := countP_pos_of_getElem? later p pa
        rw [if_pos pb] at one
        omega
      | succ => rw [ih (by omega) here there]

/-- One call holds each position from `low` on up to `high`. -/
def HeldOnce (holds : Nat → π → Bool) (low high : Nat) (calls : List π) : Prop :=
  ∀ pos, low ≤ pos → pos < high → calls.countP (holds pos) = 1

section HeldOnce

variable {holds : Nat → π → Bool} {low high : Nat} {new : π}

section

variable (held : HeldOnce holds low high calls)

include held

theorem HeldOnce.holder {pos : Nat} (le : low ≤ pos)
    (lt : pos < high) : ∃ (j : Nat) (p : π), calls[j]? = some p ∧ holds pos p = true := by
  have counted : 0 < calls.countP (holds pos) := by
    rw [held pos le lt]
    exact Nat.one_pos
  obtain ⟨p, member, own⟩ := countP_pos_iff.mp counted
  obtain ⟨j, there⟩ := getElem?_of_mem member
  exact ⟨j, p, there, own⟩

/-- Nobody but call `i` holds the first position. -/
theorem HeldOnce.other (lt : low < high) (here : calls[i]? = some old)
    (own : holds low old = true) {p : π} (there : calls[j]? = some p) (ne : j ≠ i) :
    holds low p = false := by
  have one := le_of_eq (held low le_rfl lt)
  rw [← Bool.not_eq_true]
  exact fun second => ne (index_eq_of_countP_le_one one there second here own)

theorem HeldOnce.keep (here : calls[i]? = some old)
    (same : ∀ pos, holds pos new = holds pos old) : HeldOnce holds low high (calls.set i new) := by
  intro pos le lt
  rw [countP_same here new _ (same pos)]
  exact held pos le lt

/-- Call `i` takes the position behind the last. -/
theorem HeldOnce.enter (here : calls[i]? = some old)
    (was : ∀ pos, holds pos old = false) (now : ∀ pos, holds pos new = (high == pos))
    (nobody : calls.countP (holds high) = 0) : HeldOnce holds low (high + 1) (calls.set i new) := by
  intro pos le lt
  by_cases last : high = pos
  · subst last
    rw [countP_enter here new _ (was high) ((now high).trans (beq_self_eq_true high)), nobody]
  · rw [countP_same here new _ ((now pos).trans ((beq_false_of_ne last).trans (was pos).symm))]
    exact held pos le (by omega)

/-- Call `i` gives up the first position. -/
theorem HeldOnce.leave (here : calls[i]? = some old)
    (was : ∀ pos, holds pos old = (low == pos)) (now : ∀ pos, holds pos new = false) :
    HeldOnce holds (low + 1) high (calls.set i new) := by
  intro pos le lt
  have apart : low ≠ pos := by omega
  rw [countP_same here new _ ((now pos).trans ((was pos).trans (beq_false_of_ne apart)).symm)]
  exact held pos (by omega) lt

end

/-- Of the positions below a bound each is held once, and the others are not held. -/
theorem countP_below (here : calls[i]? = some old)
    (count : ∀ pos, calls.countP (holds pos) = if pos < high then 1 else 0)
    (was : ∀ pos, holds pos old = false) (now : ∀ pos, holds pos new = (high == pos)) (pos : Nat) :
    (calls.set i new).countP (holds pos) = if pos < high + 1 then 1 else 0 := by
  have moved := countP_move here new (holds pos)
  rw [was, now, count, Bool.toNat_false, add_zero] at moved
  rw [moved]
  by_cases last : high = pos
  · simp [last]
  · rw [beq_false_of_ne last]
    exact if_congr (by omega) rfl rfl

end HeldOnce

/-- Where one call at most is at points of a kind, what it does decides the count of a
smaller kind. -/
theorem countP_of_only {q : π → Bool} (one : calls.countP p ≤ 1)
    (sub : ∀ a, q a = true → p a = true) (here : calls[i]? = some old) (pa : p old = true) :
    calls.countP q = (q old).toNat := by
  have le := countP_mono_left (l := calls) fun a _ => sub a
  cases there : q old with
  | true =>
    have pos := countP_pos_of_getElem? here q there
    simp only [Bool.toNat_true]
    omega
  | false =>
    refine countP_eq_zero.mpr fun a member qa => ?_
    have same := eq_of_countP_le_one one member (sub a qa) (mem_of_getElem? here) pa
    rw [same, there] at qa
    cases qa

end Calls

/-! ## `LONG` -/

/-- The `LONG` that is congruent to `x`. -/
def long (x : Int) : Int := x.bmod (2 ^ 32)

theorem long_eq {x : Int} (low : -(2 ^ 31) ≤ x) (high : x < 2 ^ 31) : long x = x :=
  Int.bmod_eq_of_le low high

theorem long_add (x y : Int) : long (long x + y) = long (x + y) := Int.bmod_add_bmod

theorem long_sub (x y : Int) : long (long x - y) = long (x - y) := Int.bmod_sub_bmod

end KvmGuestDrivers.Theory

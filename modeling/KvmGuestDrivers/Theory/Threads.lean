/-
# Theory.Threads -- threads at program points

The threads of a program are a function from thread names to program points, and a step of
one thread updates it there.

* `Somewhere p`: some thread is at a point of `p`.
* `Exclusive owns threads busy`: at most one thread is at a point that owns the flag
  `busy`, and the flag is set exactly then.  `acquire`, `keep` and `release` are what a
  step can do to it.
* `gather f`: what all threads hold in their hands together.
-/
import Mathlib.Data.List.FinRange

namespace KvmGuestDrivers.Theory

open List Function

set_option autoImplicit false

section Somewhere

variable {ι π : Type}

def Somewhere (p : π → Bool) (threads : ι → π) : Prop := ∃ t, p (threads t) = true

variable [DecidableEq ι] {p : π → Bool} {threads : ι → π} {t : ι} {pc : π}

/-- The thread that moved is there. -/
theorem somewhere_here (there : p pc = true) : Somewhere p (update threads t pc) := by
  refine ⟨t, ?_⟩
  rw [update_self]
  exact there

/-- A thread that did not move still is there. -/
theorem somewhere_other {a : ι} (there : p (threads a) = true) (other : a ≠ t) :
    Somewhere p (update threads t pc) := by
  refine ⟨a, ?_⟩
  rw [update_of_ne other]
  exact there

/-- A thread that was there still is, unless it is the one that moved away. -/
theorem Somewhere.stay (old : Somewhere p threads) (stays : p (threads t) = true → p pc = true) :
    Somewhere p (update threads t pc) := by
  obtain ⟨a, there⟩ := old
  by_cases same : a = t
  · subst same
    exact somewhere_here (stays there)
  · exact somewhere_other there same

/-- A thread that is there was there before, unless it is the one that arrived. -/
theorem Somewhere.before (new : Somewhere p (update threads t pc))
    (was : p pc = true → p (threads t) = true) : Somewhere p threads := by
  obtain ⟨a, there⟩ := new
  by_cases same : a = t
  · subst same
    rw [update_self] at there
    exact ⟨a, was there⟩
  · rw [update_of_ne same] at there
    exact ⟨a, there⟩

end Somewhere

instance {π : Type} {n : Nat} (p : π → Bool) (threads : Fin n → π) :
    Decidable (Somewhere p threads) :=
  inferInstanceAs (Decidable (∃ t, p (threads t) = true))

section Exclusive

variable {ι π : Type}

structure Exclusive (owns : π → Bool) (threads : ι → π) (busy : Bool) : Prop where
  busy_iff : busy = true ↔ Somewhere owns threads
  unique : ∀ a b, owns (threads a) = true → owns (threads b) = true → a = b

namespace Exclusive

variable {owns : π → Bool} {threads : ι → π} {busy : Bool} {t : ι} {old pc : π}

theorem others (ex : Exclusive owns threads busy) (own : owns (threads t) = true) {a : ι}
    (other : a ≠ t) : owns (threads a) = false := by
  rw [Bool.eq_false_iff]
  exact fun second => other (ex.unique a t second own)

variable [DecidableEq ι]

/-- A step between two points that both own the flag, or both do not. -/
theorem keep (ex : Exclusive owns threads busy) (here : threads t = old)
    (same : owns pc = owns old) : Exclusive owns (update threads t pc) busy := by
  have points : ∀ a, owns (update threads t pc a) = owns (threads a) := by
    intro a
    by_cases moved : a = t
    · rw [moved, update_self, here, same]
    · rw [update_of_ne moved]
  constructor
  · simp only [Somewhere, points]
    exact ex.busy_iff
  · simp only [points]
    exact ex.unique

theorem acquire (ex : Exclusive owns threads false) (own : owns pc = true) :
    Exclusive owns (update threads t pc) true := by
  have nobody : ∀ a, owns (threads a) ≠ true := fun a there => by
    cases ex.busy_iff.mpr ⟨a, there⟩
  have only : ∀ a, owns (update threads t pc a) = true → a = t := by
    intro a there
    by_contra other
    rw [update_of_ne other] at there
    exact nobody a there
  constructor
  · exact iff_of_true rfl (somewhere_here own)
  · intro a b first second
    rw [only a first, only b second]

theorem release (ex : Exclusive owns threads busy) (here : threads t = old)
    (own : owns old = true) (leaves : owns pc = false) :
    Exclusive owns (update threads t pc) false := by
  subst here
  have nobody : ∀ a, owns (update threads t pc a) = false := by
    intro a
    by_cases moved : a = t
    · rw [moved, update_self, leaves]
    · rw [update_of_ne moved]
      exact ex.others own moved
  constructor
  · simp [Somewhere, nobody]
  · intro a b first
    rw [nobody a] at first
    cases first

end Exclusive

end Exclusive

section Gather

variable {π α : Type} {n : Nat}

def gather (f : π → List α) (threads : Fin n → π) : List α := (List.ofFn threads).flatMap f

variable {f : π → List α} {threads : Fin n → π} {t : Fin n} {pc : π}

theorem gather_keep (same : f pc = f (threads t)) :
    gather f (update threads t pc) = gather f threads := by
  have each (a : Fin n) : f (update threads t pc a) = f (threads a) := by
    by_cases here : a = t
    · rw [here, update_self, same]
    · rw [update_of_ne here]
  simp only [gather, ofFn_eq_map, flatMap_map, each]

theorem gather_nil (empty : ∀ a, f (threads a) = []) : gather f threads = [] := by
  refine flatMap_eq_nil_iff.mpr fun pc member => ?_
  obtain ⟨a, rfl⟩ := mem_ofFn.mp member
  exact empty a

/-- Only one thread has anything in its hands. -/
theorem gather_single (empty : ∀ a, a ≠ t → f (threads a) = []) :
    gather f threads = f (threads t) := by
  obtain ⟨before, after, split⟩ := append_of_mem (mem_finRange t)
  have distinct := nodup_finRange n
  rw [split, nodup_append, nodup_cons] at distinct
  have first : before.flatMap (fun a => f (threads a)) = [] :=
    flatMap_eq_nil_iff.mpr fun a member =>
      empty a (distinct.2.2 a member t mem_cons_self)
  have last : after.flatMap (fun a => f (threads a)) = [] := flatMap_eq_nil_iff.mpr fun a member =>
      empty a fun same => distinct.2.1.1 (same ▸ member)
  rw [gather, ofFn_eq_map, flatMap_map, split, flatMap_append, flatMap_cons,
    first, last, nil_append, append_nil]

variable {owns : π → Bool} {busy : Bool}

section

variable (ex : Exclusive owns threads busy) (only : ∀ pc, owns pc = false → f pc = [])
  (own : owns (threads t) = true)

include ex only own

/-- Where only owners have something in their hands, the owner has it all. -/
theorem Exclusive.gather_owner : gather f threads = f (threads t) :=
  gather_single fun _ other => only _ (ex.others own other)

theorem Exclusive.gather_step : gather f (update threads t pc) = f pc := by
  have here : f (update threads t pc t) = f pc := by
    rw [update_self]
  rw [← here]
  apply gather_single
  intro a other
  rw [update_of_ne other]
  exact only _ (ex.others own other)

end

end Gather

end KvmGuestDrivers.Theory

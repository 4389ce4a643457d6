/-
# Theory.Extent -- sorted lists of extents that coalesce

An extent is a run of `size` units from `offset` on.  A list of extents is `Spaced` when
it is sorted, none of them is empty and between any two there is a gap: what a free
list looks like when everything adjacent has been merged.

`insertExtent` puts one more extent into such a list and merges it with the neighbour it
touches on either side: the list stays `Spaced` if the new extent overlaps none of it
(`Spaced.insert`), no unit is lost or gained (`bytes_insert`), and what holds of every extent and
survives a merge holds afterwards (`forall_insert`), in particular (`Extent.Apart.join`) being apart
from some other extent.

`units` lists the units of the extents one by one, for extents in any order; `runs` goes back from a
list of units to extents of consecutive ones, and `runs_spread` says that it does not cut a unit
that is itself made of smaller ones.  The last section is about rounding to a power of two by
masking.
-/
import Mathlib.Data.List.TakeWhile
import Mathlib.Algebra.BigOperators.Group.List.Basic
import Mathlib.Algebra.GroupWithZero.Nat

namespace KvmGuestDrivers.Theory

open List

set_option autoImplicit false

structure Extent where
  offset : Nat
  size : Nat
  deriving DecidableEq

namespace Extent

/-- The first unit past the extent. -/
def stop (e : Extent) : Nat := e.offset + e.size

def Apart (a b : Extent) : Prop := a.stop ≤ b.offset ∨ b.stop ≤ a.offset

def Covers (a b : Extent) : Prop := a.offset ≤ b.offset ∧ b.stop ≤ a.stop

/-- `a` and an extent that starts where `a` stops, as one. -/
def join (a b : Extent) : Extent := ⟨a.offset, a.size + b.size⟩

theorem Apart.symm {a b : Extent} (apart : a.Apart b) : b.Apart a := Or.symm apart

/-- An extent apart from two touching ones fits in between only if it is empty. -/
theorem Apart.join {x a b : Extent} (filled : 0 < x.size) (touch : a.stop = b.offset)
    (left : x.Apart a) (right : x.Apart b) : x.Apart (a.join b) := by
  simp only [Apart, stop, Extent.join] at *
  omega

/-- Part of an extent is apart from what the whole is apart from. -/
theorem Apart.part {x a b : Extent} (apart : x.Apart a) (starts : a.offset ≤ b.offset)
    (upTo : b.stop ≤ a.stop) : x.Apart b := by
  simp only [Apart] at *
  omega

end Extent

variable (l : List Extent)

/-- The units covered by a list of extents that do not overlap. -/
def bytes : Nat := (l.map Extent.size).sum

@[simp] theorem bytes_nil : bytes [] = 0 := rfl

@[simp] theorem bytes_cons (e : Extent) (l : List Extent) : bytes (e :: l) = e.size + bytes l := rfl

@[simp] theorem bytes_append (m : List Extent) : bytes (l ++ m) = bytes l + bytes m := by
  simp [bytes]

theorem bytes_perm {l m : List Extent} (perm : l.Perm m) : bytes l = bytes m :=
  (perm.map Extent.size).sum_eq

def units : List Nat := l.flatMap fun e => List.range' e.offset e.size

@[simp] theorem units_nil : units [] = [] := rfl

@[simp] theorem units_cons (e : Extent) (l : List Extent) :
    units (e :: l) = List.range' e.offset e.size ++ units l := rfl

@[simp] theorem units_append (m : List Extent) : units (l ++ m) = units l ++ units m :=
  flatMap_append

theorem length_units : (units l).length = bytes l := by
  induction l with
  | nil => rfl
  | cons e l ih => rw [units_cons, length_append, length_range', ih, bytes_cons]

/-- Sorted, fully merged, nothing empty. -/
structure Spaced (l : List Extent) : Prop where
  filled : ∀ e ∈ l, 0 < e.size
  gaps : l.Pairwise fun a b => a.stop < b.offset

/-! ## Inserting -/

/-- Merge `e` with the last extent before it, if they touch. -/
def joinPrev (before : List Extent) (e : Extent) : List Extent × Extent :=
  match before.getLast? with
  | some prev => if prev.stop = e.offset then (before.dropLast, prev.join e) else (before, e)
  | none => (before, e)

/-- Merge `e` with the first extent after it, if they touch. -/
def joinNext (e : Extent) : List Extent → List Extent
  | next :: rest => if e.stop = next.offset then e.join next :: rest else e :: next :: rest
  | [] => [e]

/-- The extents of a sorted list that start at `x` or before, and the others. -/
def upTo (x : Nat) : List Extent := l.takeWhile fun c => decide (c.offset ≤ x)

def past (x : Nat) : List Extent := l.dropWhile fun c => decide (c.offset ≤ x)

def insertExtent (e : Extent) : List Extent :=
  (joinPrev (upTo l e.offset) e).1 ++ joinNext (joinPrev (upTo l e.offset) e).2 (past l e.offset)

section Insert

variable {l} {before after m : List Extent} {e c : Extent} {x : Nat} {P : Extent → Prop}

theorem mem_of_mem_upTo (member : c ∈ upTo l x) : c ∈ l := ( takeWhile_prefix _).subset member

theorem mem_of_mem_past (member : c ∈ past l x) : c ∈ l := (dropWhile_suffix _).subset member

/-- The two outcomes of merging backwards. -/
theorem joinPrev_cases (before : List Extent) (e : Extent) :
    (∃ init prev, before = init ++ [prev] ∧ prev.stop = e.offset ∧
      joinPrev before e = (init, prev.join e)) ∨
    ((∀ init prev, before = init ++ [prev] → prev.stop ≠ e.offset) ∧
      joinPrev before e = (before, e)) := by
  unfold joinPrev
  cases last : before.getLast? with
  | none =>
    refine .inr ⟨fun init prev shape => ?_, rfl⟩
    rw [shape, getLast?_concat] at last
    cases last
  | some prev =>
    obtain ⟨init, rfl⟩ := getLast?_eq_some_iff.mp last
    by_cases touch : prev.stop = e.offset
    · refine .inl ⟨init, prev, rfl, touch, ?_⟩
      simp only [if_pos touch, dropLast_concat]
    · refine .inr ⟨fun init' prev' shape => ?_, by simp only [if_neg touch]⟩
      obtain ⟨-, rfl⟩ := append_singleton_inj.mp shape
      exact touch

/-- The two outcomes of merging forwards. -/
theorem joinNext_cases (e : Extent) (after : List Extent) :
    (∃ next rest, after = next :: rest ∧ e.stop = next.offset ∧
      joinNext e after = e.join next :: rest) ∨
    ((∀ next rest, after = next :: rest → e.stop ≠ next.offset) ∧
      joinNext e after = e :: after) := by
  cases after with
  | nil => exact .inr ⟨by simp, rfl⟩
  | cons next rest =>
    by_cases touch : e.stop = next.offset
    · exact .inl ⟨next, rest, rfl, touch, if_pos touch⟩
    · refine .inr ⟨fun next' rest' shape => ?_, if_neg touch⟩
      cases shape
      exact touch

/-- No unit is lost or gained. -/
theorem bytes_insert (l : List Extent) (e : Extent) :
    bytes (insertExtent l e) = bytes l + e.size := by
  have whole : bytes (upTo l e.offset) + bytes (past l e.offset) = bytes l := by
    rw [← bytes_append, upTo, past, takeWhile_append_dropWhile]
  have prev : ∀ before : List Extent, bytes (joinPrev before e).1 + (joinPrev before e).2.size =
      bytes before + e.size := by
    intro before
    rcases joinPrev_cases before e with ⟨_, _, rfl, -, joined⟩ | ⟨-, kept⟩
    · simp [joined, Extent.join, add_assoc]
    · simp [kept]
  have next : ∀ (e : Extent) (after : List Extent), bytes (joinNext e after) =
      e.size + bytes after := by
    intro e after
    rcases joinNext_cases e after with ⟨next, _, rfl, -, joined⟩ | ⟨-, kept⟩
    · simp [joined, Extent.join, add_assoc]
    · simp [kept]
  have merged := prev (upTo l e.offset)
  rw [insertExtent, bytes_append, next]
  omega

/-- Merging backwards does not move the end. -/
theorem joinPrev_stop (before : List Extent) (e : Extent) :
    (joinPrev before e).2.stop = e.stop := by
  rcases joinPrev_cases before e with ⟨_, _, rfl, touch, joined⟩ | ⟨-, kept⟩
  · rw [joined]
    simp only [Extent.stop, Extent.join] at touch ⊢
    omega
  · rw [kept]

section

variable (joins : ∀ a b, P a → P b → a.stop = b.offset → P (a.join b))

include joins

theorem forall_joinPrev (old : ∀ c ∈ before, P c) (new : P e) :
    (∀ c ∈ (joinPrev before e).1, P c) ∧ P (joinPrev before e).2 := by
  rcases joinPrev_cases before e with ⟨_, prev, rfl, touch, joined⟩ | ⟨-, kept⟩
  · rw [joined]
    exact ⟨fun c member => old c (by simp [member]), joins _ _ (old prev (by simp)) new touch⟩
  · rw [kept]
    exact ⟨old, new⟩

theorem forall_joinNext (old : ∀ c ∈ after, P c) (new : P e) : ∀ c ∈ joinNext e after, P c := by
  rcases joinNext_cases e after with ⟨next, _, rfl, touch, joined⟩ | ⟨-, kept⟩
  · rw [joined]
    intro c member
    rcases mem_cons.mp member with rfl | later
    · exact joins _ _ new (old next (by simp)) touch
    · exact old c (by simp [later])
  · rw [kept]
    intro c member
    rcases mem_cons.mp member with rfl | later
    · exact new
    · exact old c later

/-- What holds of all extents and survives a merge holds after an insertion. -/
theorem forall_insert (old : ∀ c ∈ l, P c) (new : P e) : ∀ c ∈ insertExtent l e, P c := by
  have merged := forall_joinPrev joins
    (fun c (member : c ∈ upTo l e.offset) => old c (mem_of_mem_upTo member)) new
  intro c member
  rcases mem_append.mp member with left | right
  · exact merged.1 c left
  · exact forall_joinNext joins (fun c member => old c (mem_of_mem_past member)) merged.2 c right

end

/-! ## Sortedness -/

namespace Spaced

theorem sublist (spaced : Spaced l) (sub : m.Sublist l) : Spaced m :=
  ⟨fun c member => spaced.filled c (sub.subset member), spaced.gaps.sublist sub⟩

theorem append (left : Spaced l) (right : Spaced m) (apart : ∀ a ∈ l, ∀ b ∈ m, a.stop < b.offset) :
    Spaced (l ++ m) :=
  ⟨fun c member => (mem_append.mp member).elim (left.filled c) (right.filled c),
    pairwise_append.mpr ⟨left.gaps, right.gaps, apart⟩⟩

/-- In a spaced list everything from the first later extent on is later. -/
theorem lt_of_mem_past (spaced : Spaced l) : ∀ c ∈ past l x, x < c.offset := by
  unfold past
  induction l with
  | nil => simp
  | cons a l ih =>
    obtain ⟨first, rest⟩ := pairwise_cons.mp spaced.gaps
    by_cases early : a.offset ≤ x
    · rw [dropWhile_cons_of_pos (by simpa using early)]
      exact ih ⟨fun c member => spaced.filled c (by simp [member]), rest⟩
    rw [dropWhile_cons_of_neg (by simpa using early)]
    intro c member
    rcases mem_cons.mp member with rfl | later
    · omega
    · have gap := first c later
      rw [Extent.stop] at gap
      omega

/-- Merging backwards leaves a gap before the merged extent. -/
theorem of_joinPrev (spaced : Spaced before) (ends : ∀ c ∈ before, c.stop ≤ e.offset) :
    Spaced (joinPrev before e).1 ∧
      (∀ c ∈ (joinPrev before e).1, c.stop < (joinPrev before e).2.offset) ∧
      e.size ≤ (joinPrev before e).2.size := by
  rcases joinPrev_cases before e with ⟨init, prev, rfl, _, joined⟩ | ⟨loose, kept⟩
  · obtain ⟨inner, -, gap⟩ := pairwise_append.mp spaced.gaps
    rw [joined]
    refine ⟨spaced.sublist (sublist_append_left _ _), fun c member => ?_, ?_⟩
    · exact gap c member prev (by simp)
    · exact Nat.le_add_left _ _
  · rw [kept]
    refine ⟨spaced, fun c member => ?_, le_rfl⟩
    rcases eq_nil_or_concat' before with rfl | ⟨init, prev, rfl⟩
    · cases member
    obtain ⟨-, -, gap⟩ := pairwise_append.mp spaced.gaps
    have last := ends prev (by simp)
    have apart := loose init prev rfl
    rcases mem_append.mp member with inner | outer
    · have before := gap c inner prev (by simp)
      simp only [Extent.stop] at *
      omega
    · obtain rfl : c = prev := by simpa using outer
      exact Nat.lt_of_le_of_ne last apart

theorem of_joinNext (spaced : Spaced after) (filled : 0 < e.size)
    (starts : ∀ c ∈ after, e.stop ≤ c.offset) :
    Spaced (joinNext e after) ∧ ∀ c ∈ joinNext e after, e.offset ≤ c.offset := by
  rcases joinNext_cases e after with ⟨next, rest, rfl, _, joined⟩ | ⟨loose, kept⟩
  · obtain ⟨gap, inner⟩ := pairwise_cons.mp spaced.gaps
    rw [joined]
    refine ⟨⟨fun c member => ?_, pairwise_cons.mpr ⟨fun c member => ?_, inner⟩⟩, ?_⟩
    · rcases mem_cons.mp member with rfl | later
      · simp only [Extent.join]
        omega
      · exact spaced.filled c (by simp [later])
    · have far := gap c member
      simp only [Extent.stop, Extent.join] at *
      omega
    · intro c member
      rcases mem_cons.mp member with rfl | later
      · exact le_rfl
      · have far := starts c (by simp [later])
        rw [Extent.stop] at far
        omega
  · rw [kept]
    have gap : ∀ c ∈ after, e.stop < c.offset := by
      intro c member
      cases after with
      | nil => cases member
      | cons next rest =>
        have first := starts next (by simp)
        have apart := loose next rest rfl
        rcases mem_cons.mp member with rfl | later
        · omega
        · have far := (pairwise_cons.mp spaced.gaps).1 c later
          simp only [Extent.stop] at *
          omega
    refine ⟨⟨fun c member => ?_, pairwise_cons.mpr ⟨gap, spaced.gaps⟩⟩, ?_⟩
    · rcases mem_cons.mp member with rfl | later
      · exact filled
      · exact spaced.filled c later
    intro c member
    rcases mem_cons.mp member with rfl | later
    · exact le_rfl
    · have far := starts c later
      rw [Extent.stop] at far
      omega

/-- **Inserting an extent that overlaps nothing keeps the list spaced.** -/
theorem insert (spaced : Spaced l) (filled : 0 < e.size) (apart : ∀ c ∈ l, e.Apart c) :
    Spaced (insertExtent l e) := by
  have ends : ∀ c ∈ upTo l e.offset, c.stop ≤ e.offset := by
    intro c member
    have early : c.offset ≤ e.offset := by simpa using mem_takeWhile_imp member
    have other := apart c (mem_of_mem_upTo member)
    simp only [Extent.Apart, Extent.stop] at *
    omega
  have early : Spaced (upTo l e.offset) := spaced.sublist (takeWhile_sublist _)
  have late : Spaced (past l e.offset) := spaced.sublist (dropWhile_sublist _)
  obtain ⟨front, gap, grown⟩ := early.of_joinPrev ends
  have starts : ∀ c ∈ past l e.offset, (joinPrev (upTo l e.offset) e).2.stop ≤ c.offset := by
    intro c member
    have after := spaced.lt_of_mem_past c member
    have other := apart c (mem_of_mem_past member)
    rw [joinPrev_stop]
    simp only [Extent.Apart, Extent.stop] at *
    omega
  obtain ⟨back, behind⟩ := late.of_joinNext (lt_of_lt_of_le filled grown) starts
  refine front.append back fun a inFront b inBack => ?_
  exact lt_of_lt_of_le (gap a inFront) (behind b inBack)

section

variable (spaced : Spaced l) (member : e ∈ l)

include spaced member

/-- One extent of a spaced list, with what lies before and after it. -/
theorem split : ∃ front back, l = front ++ e :: back ∧ l.erase e = front ++ back ∧
      (∀ c ∈ front, c.stop < e.offset) ∧ ∀ c ∈ back, e.stop < c.offset := by
  obtain ⟨front, back, rfl⟩ := append_of_mem member
  obtain ⟨-, later, earlier⟩ := pairwise_append.mp spaced.gaps
  have fresh : e ∉ front := by
    intro again
    have self := earlier e again e (by simp)
    rw [Extent.stop] at self
    omega
  refine ⟨front, back, rfl, ?_, fun c inFront => earlier c inFront e (by simp),
    (pairwise_cons.mp later).1⟩
  rw [erase_append_right _ fresh, erase_cons_head]

theorem apart_of_mem_erase : ∀ c ∈ l.erase e, e.Apart c := by
  obtain ⟨_, _, rfl, erased, before, after⟩ := spaced.split member
  rw [erased]
  intro c other
  rcases mem_append.mp other with left | right
  · exact .inr (le_of_lt (before c left))
  · exact .inl (le_of_lt (after c right))

/-- Putting back what was taken out restores the list. -/
theorem insert_erase : insertExtent (l.erase e) e = l := by
  obtain ⟨front, back, rfl, erased, before, after⟩ := spaced.split member
  have early : ∀ c ∈ front, decide (c.offset ≤ e.offset) = true := by
    intro c inFront
    have gap := before c inFront
    rw [Extent.stop] at gap
    simp
    omega
  have late : ∀ c ∈ back, ¬ c.offset ≤ e.offset := by
    intro c inBack
    have gap := after c inBack
    rw [Extent.stop] at gap
    omega
  have split : upTo (front ++ back) e.offset = front ∧ past (front ++ back) e.offset = back := by
    rw [upTo, past, takeWhile_append_of_pos early, dropWhile_append_of_pos early]
    cases back with
    | nil => simp
    | cons c => simp [late c (by simp)]
  have prev : joinPrev front e = (front, e) := by
    rcases joinPrev_cases front e with ⟨_, prev, rfl, touch, -⟩ | ⟨-, kept⟩
    · have gap := before prev (by simp)
      omega
    · exact kept
  have next : joinNext e back = e :: back := by
    rcases joinNext_cases e back with ⟨next, _, rfl, _, -⟩ | ⟨-, kept⟩
    · have gap := after next (by simp)
      omega
    · exact kept
  rw [erased, insertExtent, split.1, split.2, prev, next]

end

end Spaced

/-! ## Carving -/

def putBack (l : List Extent) (e : Extent) : List Extent :=
  if 0 < e.size then insertExtent l e else l

/-- Take `n` units from `a` on out of the extent `e` of the list. -/
def carve (l : List Extent) (e : Extent) (a n : Nat) : List Extent :=
  putBack (putBack (l.erase e) ⟨e.offset, a - e.offset⟩) ⟨a + n, e.stop - (a + n)⟩

theorem bytes_putBack (l : List Extent) (e : Extent) : bytes (putBack l e) = bytes l + e.size := by
  unfold putBack
  split
  · exact bytes_insert l e
  · omega

theorem forall_putBack (joins : ∀ a b, P a → P b → a.stop = b.offset → P (a.join b))
    (old : ∀ c ∈ l, P c) (new : P e) : ∀ c ∈ putBack l e, P c := by
  unfold putBack
  split
  · exact forall_insert joins old new
  · exact old

theorem Spaced.putBack (spaced : Spaced l) (apart : 0 < e.size → ∀ c ∈ l, e.Apart c) :
    Spaced (putBack l e) := by
  unfold Theory.putBack
  split
  · exact spaced.insert ‹_› (apart ‹_›)
  · exact spaced

variable {a n : Nat}

theorem bytes_carve (member : e ∈ l) (starts : e.offset ≤ a) (upTo : a + n ≤ e.stop) :
    bytes (carve l e a n) + n = bytes l := by
  have whole := bytes_perm (perm_cons_erase member)
  rw [bytes_cons] at whole
  rw [carve, bytes_putBack, bytes_putBack]
  rw [Extent.stop] at *
  simp only
  omega

theorem forall_carve (joins : ∀ a b, P a → P b → a.stop = b.offset → P (a.join b))
    (old : ∀ c ∈ l, P c) (front : P ⟨e.offset, a - e.offset⟩) (tail : P ⟨a + n, e.stop - (a + n)⟩) :
    ∀ c ∈ carve l e a n, P c :=
  forall_putBack joins
    (forall_putBack joins (fun c member => old c (mem_of_mem_erase member)) front) tail

/-- Carving out of a spaced list leaves it spaced and apart from what was taken. -/
theorem Spaced.carve (spaced : Spaced l) (member : e ∈ l) (starts : e.offset ≤ a)
    (upTo : a + n ≤ e.stop) (some : 0 < n) :
    Spaced (carve l e a n) ∧ ∀ c ∈ Theory.carve l e a n, Extent.Apart ⟨a, n⟩ c := by
  have others := spaced.apart_of_mem_erase member
  have left : Spaced (l.erase e) := spaced.sublist erase_sublist
  -- Parts of `e` are apart from the rest of the list.
  have part : ∀ x : Extent, e.offset ≤ x.offset → x.stop ≤ e.stop → ∀ c ∈ l.erase e, x.Apart c :=
    fun x low high c inside => ((others c inside).symm.part low high).symm
  have tailFront : Extent.Apart ⟨a + n, e.stop - (a + n)⟩ ⟨e.offset, a - e.offset⟩ := by
    simp only [Extent.Apart, Extent.stop] at *
    omega
  have joins : ∀ x : Extent, 0 < x.size → ∀ b c, x.Apart b → x.Apart c → b.stop = c.offset →
      x.Apart (b.join c) := fun x filled b c hb hc touch => hb.join filled touch hc
  have front : Spaced (Theory.putBack (l.erase e) ⟨e.offset, a - e.offset⟩) := by
    refine left.putBack fun _ => part _ le_rfl ?_
    simp only [Extent.stop] at *
    omega
  refine ⟨front.putBack fun filled => ?_, ?_⟩
  · refine forall_putBack (joins _ filled) (part _ ?_ ?_) tailFront
    · simp only
      omega
    · simp only [Extent.stop] at *
      omega
  · refine forall_putBack (joins _ some) (forall_putBack (joins _ some) (part _ starts upTo) ?_) ?_
    · simp only [Extent.Apart, Extent.stop]
      omega
    · simp only [Extent.Apart, Extent.stop]
      omega

end Insert

/-! ## Runs of consecutive units -/

/-- How many elements at the head of the list count up from `n`. -/
def countUp (n : Nat) : List Nat → Nat
  | [] => 0
  | x :: l => if x = n then countUp (n + 1) l + 1 else 0

/-- The list as extents of consecutive units, one for each place where the counting stops. -/
def runs : Nat → List Nat → List Extent
  | 0, _ => []
  | _, [] => []
  | fuel + 1, x :: l =>
    ⟨x, countUp (x + 1) l + 1⟩ :: runs fuel (l.drop (countUp (x + 1) l))

/-- Each unit of the list as `p` units of its own, from `a` on. -/
def spread (a p : Nat) (l : List Nat) : List Nat := l.flatMap fun x => List.range' (a + x * p) p

section Runs

theorem take_countUp (l : List Nat) (n : Nat) :
    l.take (countUp n l) = List.range' n (countUp n l) := by
  induction l generalizing n with
  | nil => rfl
  | cons x l ih =>
    unfold countUp
    split
    · rename_i next
      rw [take_succ_cons, ih, range'_succ, next]
    · rfl

theorem countUp_range' (k n : Nat) (l : List Nat) :
    countUp n (List.range' n k ++ l) = k + countUp (n + k) l := by
  induction k generalizing n with
  | zero => rw [range'_zero, nil_append, zero_add, add_zero]
  | succ k ih =>
    rw [range'_succ, cons_append, countUp, if_pos rfl, ih, Nat.add_right_comm,
      Nat.add_right_comm n 1 k, add_assoc n k 1]

/-- The extents list the units again. -/
theorem units_runs {l : List Nat} {fuel : Nat} (enough : l.length ≤ fuel) :
    units (runs fuel l) = l := by
  induction fuel generalizing l with
  | zero => rw [length_eq_zero_iff.mp (Nat.le_zero.mp enough), runs, units_nil]
  | succ fuel ih =>
    cases l with
    | nil => rfl
    | cons x l =>
      have left : (l.drop (countUp (x + 1) l)).length ≤ fuel := by
        rw [length_drop]
        exact le_trans (Nat.sub_le _ _) (Nat.le_of_succ_le_succ enough)
      rw [runs, units_cons, ih left, range'_succ, ← take_countUp, cons_append, take_append_drop]

theorem runs_filled (fuel : Nat) (l : List Nat) : ∀ e ∈ runs fuel l, 0 < e.size := by
  induction fuel generalizing l with
  | zero => exact forall_mem_nil _
  | succ _ ih =>
    cases l with
    | nil => exact forall_mem_nil _
    | cons => exact forall_mem_cons.mpr ⟨Nat.succ_pos _, ih _⟩

variable {a p : Nat}

theorem spread_cons (x : Nat) (l : List Nat) :
    spread a p (x :: l) = List.range' (a + x * p) p ++ spread a p l := rfl

theorem length_spread (l : List Nat) : (spread a p l).length = l.length * p := by
  induction l with
  | nil => rw [length_nil, Nat.zero_mul]; rfl
  | cons x l ih =>
    rw [spread_cons, length_append, length_range', ih, length_cons, Nat.succ_mul, add_comm]

theorem drop_spread (k : Nat) (l : List Nat) :
    (spread a p l).drop (k * p) = spread a p (l.drop k) := by
  induction k generalizing l with
  | zero => rw [Nat.zero_mul, drop_zero, drop_zero]
  | succ k ih =>
    cases l with
    | nil => exact drop_nil
    | cons x l =>
      rw [drop_succ_cons, Nat.succ_mul, add_comm, ← drop_drop, ← ih l]
      congr 1
      exact drop_left' length_range'

/-- Counting goes on over whole pieces only. -/
theorem countUp_spread (some : 0 < p) (l : List Nat) (n : Nat) :
    countUp (a + n * p) (spread a p l) = countUp n l * p := by
  induction l generalizing n with
  | nil => exact (Nat.zero_mul p).symm
  | cons x l ih =>
    rw [spread_cons]
    by_cases next : x = n
    · rw [next, countUp_range', add_assoc, ← Nat.succ_mul, ih, countUp, if_pos rfl,
        Nat.succ_mul, add_comm]
    obtain ⟨q, rfl⟩ : ∃ q, p = q + 1 := ⟨p - 1, by omega⟩
    have apart : a + x * (q + 1) ≠ a + n * (q + 1) := fun same =>
      next (Nat.eq_of_mul_eq_mul_right some (Nat.add_left_cancel same))
    rw [range'_succ, cons_append, countUp, if_neg apart, countUp, if_neg next, Nat.zero_mul]

/-- The runs of the pieces are the runs of the list, piece by piece. -/
theorem runs_spread (some : 0 < p) {l : List Nat} {fuel more : Nat} (enough : l.length ≤ fuel)
    (enoughMore : l.length * p ≤ more) :
    runs more (spread a p l) = (runs fuel l).map fun e => ⟨a + e.offset * p, e.size * p⟩ := by
  induction fuel generalizing l more with
  | zero =>
    rw [length_eq_zero_iff.mp (Nat.le_zero.mp enough)]
    cases more <;> rfl
  | succ fuel ih =>
    cases l with
    | nil => cases more <;> rfl
    | cons x l =>
      obtain ⟨q, rfl⟩ : ∃ q, p = q + 1 := ⟨p - 1, by omega⟩
      rw [length_cons, Nat.succ_mul] at enoughMore
      obtain ⟨m, rfl⟩ : ∃ m, more = m + 1 := ⟨more - 1, by omega⟩
      have counted : countUp (a + x * (q + 1) + 1)
          (List.range' (a + x * (q + 1) + 1) q ++ spread a (q + 1) l) =
          q + countUp (x + 1) l * (q + 1) := by
        rw [countUp_range', add_assoc _ 1 q, add_comm 1 q, add_assoc a,
          ← Nat.succ_mul, countUp_spread some]
      have left : (l.drop (countUp (x + 1) l)).length ≤ fuel := by
        rw [length_drop]
        exact le_trans (Nat.sub_le _ _) (Nat.le_of_succ_le_succ enough)
      have leftMore : (l.drop (countUp (x + 1) l)).length * (q + 1) ≤ m := by
        refine le_trans (Nat.mul_le_mul_right _ ?_) (?_ : l.length * (q + 1) ≤ m)
        · rw [length_drop]
          exact Nat.sub_le _ _
        · omega
      have dropped : (List.range' (a + x * (q + 1) + 1) q ++ spread a (q + 1) l).drop
          (q + countUp (x + 1) l * (q + 1)) =
          spread a (q + 1) (l.drop (countUp (x + 1) l)) := by
        rw [← drop_spread, ← drop_drop]
        congr 1
        exact drop_left' length_range'
      rw [spread_cons, range'_succ, cons_append, runs, runs, counted, dropped,
        ih left leftMore, map_cons, Nat.succ_mul (countUp (x + 1) l),
        add_comm q (_ * _), add_assoc]

end Runs

/-! ## Rounding by masking -/

/-- Clearing the low `k` bits of a `w`-bit number. -/
theorem land_mask {w k x : Nat} (wide : k ≤ w) (bound : x < 2 ^ w) :
    x &&& (2 ^ w - 2 ^ k) = 2 ^ k * (x / 2 ^ k) := by
  have mask : 2 ^ w - 2 ^ k = 2 ^ k * (2 ^ (w - k) - 1) := by
    rw [Nat.mul_sub, ← Nat.pow_add, Nat.add_sub_cancel' wide, Nat.mul_one]
  refine Nat.eq_of_testBit_eq fun j => ?_
  rw [mask, Nat.testBit_and, Nat.testBit_two_pow_mul, Nat.testBit_two_pow_mul,
    Nat.testBit_div_two_pow]
  by_cases low : k ≤ j
  · rw [Nat.sub_add_cancel low]
    by_cases high : j < w
    · have inside : j - k < w - k := by omega
      simp [low, inside]
    · have clear : x.testBit j = false :=
        Nat.testBit_lt_two_pow (lt_of_lt_of_le bound (Nat.pow_le_pow_right (by omega) (by omega)))
      simp [clear]
  · simp [low]

/-- A number that shares no bit with its predecessor is a power of two. -/
theorem eq_two_pow_of_land_pred {n : Nat} (pos : 0 < n) (clear : n &&& (n - 1) = 0) :
    ∃ k, n = 2 ^ k := by
  refine ⟨n.log2, ?_⟩
  by_contra differs
  have low : 2 ^ n.log2 ≤ n := Nat.log2_self_le (by omega)
  have high : n < 2 ^ (n.log2 + 1) := Nat.lt_log2_self
  have bit : (n &&& (n - 1)).testBit n.log2 = true := by
    rw [Nat.testBit_and, Nat.testBit_of_two_pow_le_and_two_pow_add_one_gt low high,
      Nat.testBit_of_two_pow_le_and_two_pow_add_one_gt (by omega) (by omega)]
    rfl
  rw [clear, Nat.zero_testBit] at bit
  cases bit

end KvmGuestDrivers.Theory

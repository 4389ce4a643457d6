/-
# Theory.Runs -- programs that end without an error

`Runs program post` says that a program that can fail ends without failing, with a result
for which `post` holds.  The rules follow the program: `Runs.bind` for a sequence, `Runs.pure`
for its end, `Runs.foldlM_range` and `Runs.mapM` for loops; a branch is taken apart by `split`.

`readAt` is the one way in which a program reads from a list of bytes; outside of it there is
nothing to be read.
-/
import KvmGuestDrivers.Theory.Bytes

namespace KvmGuestDrivers.Theory

open List

set_option autoImplicit false

universe u v

def Runs {ε : Type u} {α : Type v} (program : Except ε α) (post : α → Prop) : Prop :=
  ∃ a, program = .ok a ∧ post a

section Rules

variable {ε : Type u} {α β : Type v} {program : Except ε α} {post : α → Prop} {a : α}
  {I : Nat → α → Prop} {post' : β → Prop}

theorem Runs.pure (holds : post a) : Runs (pure a : Except ε α) post := ⟨a, rfl, holds⟩

theorem Runs.bind {next : α → Except ε β} (first : Runs program post)
    (second : ∀ a, post a → Runs (next a) post') : Runs (program >>= next) post' := by
  obtain ⟨a, rfl, holds⟩ := first
  exact second a holds

/-- A loop over `0, …, n - 1` keeps its invariant to the end. -/
theorem Runs.foldlM_range {body : α → Nat → Except ε α} (n : Nat)
    (keep : ∀ i a, i < n → I i a → Runs (body a i) (I (i + 1))) (start : I 0 a) :
    Runs ((List.range n).foldlM body a) (I n) := by
  induction n with
  | zero => exact .pure start
  | succ n ih =>
    rw [range_succ, foldlM_append]
    refine (ih fun i a lt => keep i a (Nat.lt_succ_of_lt lt)).bind fun b holds => ?_
    obtain ⟨c, stepped, kept⟩ := keep n b (Nat.lt_succ_self n) holds
    exact ⟨c, by rw [foldlM_cons, stepped]; rfl, kept⟩

theorem Runs.mapM {f : α → Except ε β} (l : List α) (each : ∀ a ∈ l, Runs (f a) post') :
    Runs (l.mapM f) fun bs => ∀ b ∈ bs, post' b := by
  induction l with
  | nil => exact .pure fun b mem => nomatch mem
  | cons a l ih =>
    rw [mapM_cons]
    refine (each a mem_cons_self).bind fun b holds => ?_
    refine (ih fun c mem => each c (mem_cons_of_mem a mem)).bind fun bs rest => ?_
    refine .pure fun c mem => ?_
    rcases mem_cons.mp mem with rfl | mem
    · exact holds
    · exact rest c mem

theorem foldl_range {body : α → Nat → α} (n : Nat)
    (keep : ∀ i a, i < n → I i a → I (i + 1) (body a i)) (start : I 0 a) :
    I n ((List.range n).foldl body a) := by
  induction n with
  | zero => exact start
  | succ n ih =>
    rw [range_succ, foldl_append]
    exact keep n _ (Nat.lt_succ_self n) (ih fun i a lt => keep i a (Nat.lt_succ_of_lt lt))

/-- A loop over a list keeps an invariant that also speaks of what is left of the list. -/
theorem foldl_rest {γ : Type v} {body : α → γ → α} {I : α → List γ → Prop}
    (keep : ∀ a x rest, I a (x :: rest) → I (body a x) rest) (l : List γ) (start : I a l) :
    I (l.foldl body a) [] := by
  induction l generalizing a with
  | nil => exact start
  | cons x rest ih => exact ih (keep a x rest start)

/-- A loop that can give up keeps its invariant as long as it goes on. -/
theorem foldlM_range_some {body : α → Nat → Option α} (n : Nat)
    (keep : ∀ i a b, i < n → I i a → body a i = some b → I (i + 1) b) {b : α} (start : I 0 a)
    (done : (List.range n).foldlM body a = some b) : I n b := by
  induction n generalizing b with
  | zero =>
    cases done
    exact start
  | succ n ih =>
    rw [range_succ, foldlM_append] at done
    obtain ⟨c, before, turn⟩ := Option.bind_eq_some_iff.mp done
    obtain ⟨d, stepped, last⟩ := Option.bind_eq_some_iff.mp turn
    obtain rfl := Option.some.inj last
    exact keep n c d (Nat.lt_succ_self n)
      (ih (fun i a b lt => keep i a b (Nat.lt_succ_of_lt lt)) before) stepped

end Rules

/-! ## Reading -/

inductive ReadFault where
  | outside
  | outOfFuel
  deriving DecidableEq

variable (bytes : List Byte)

/-- A value that is made of the `n` bytes from `i` on. -/
def readAt {α : Type} (i n : Nat) (value : α) : Except ReadFault α :=
  if i + n ≤ bytes.length then .ok value else .error .outside

theorem readAt_runs {α : Type} {bytes : List Byte} {i n : Nat} (inside : i + n ≤ bytes.length)
    (value : α) : Runs (readAt bytes i n value) (fun a => a = value) :=
  ⟨value, if_pos inside, rfl⟩

def readByte (i : Nat) : Except ReadFault Nat :=
  readAt bytes i 1 (memory bytes i).toNat

theorem readByte_eq {bytes : List Byte} {i : Nat} (inside : i + 1 ≤ bytes.length) :
    readByte bytes i = .ok (memory bytes i).toNat := if_pos inside

theorem readByte_outside {bytes : List Byte} {i : Nat} (outside : ¬ i + 1 ≤ bytes.length) :
    readByte bytes i = .error .outside := if_neg outside

def readShort (i : Nat) : Except ReadFault Nat :=
  readAt bytes i 2 (le16 (memory bytes) i)

def readSpan (i n : Nat) : Except ReadFault (List Byte) :=
  readAt bytes i n (span (memory bytes) i n)

end KvmGuestDrivers.Theory

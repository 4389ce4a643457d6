/-
# Theory.Counter -- counters that wrap, and positions on a ring

What is used throughout about fixed-width counters:

* A loop counter of `modulus` values reaches every bound below `modulus` and no
  bound above it: `forWrapped` is the loop, `forWrapped_eq` its result and
  `forWrapped_diverges` the loop that never ends.
* A position on a ring of `size` slots that is visited lap after lap is a free
  running number `a`; the ring sees only `a % size` and one bit of the lap,
  `wrapBit size a`.  `mod_advance` and `wrapBit_advance` say how the pair moves,
  `eq_of_mod_eq` that `size` successive positions occupy distinct slots.
* A queue kept in a ring of `size` slots from position `base` on: `Window`; segments
  of any length one behind the other: `Laid`.
-/
import Mathlib.Data.Nat.ModEq

namespace KvmGuestDrivers.Theory

open Function

set_option autoImplicit false

universe u

/-! ## Loops over a wrapping counter -/

/-- `for (; i < bound; i++) body` for a counter `i` of `modulus` values.  `none`
when the bound is not reached within `fuel` rounds. -/
def forWrapped {σ : Type u} (modulus bound : Nat) (body : Nat → σ → σ) :
    Nat → Nat → σ → Option σ
  | 0, i, s => if i < bound then none else some s
  | fuel + 1, i, s =>
    if i < bound then forWrapped modulus bound body fuel ((i + 1) % modulus) (body i s)
    else some s

/-- The body at `i`, `i + 1`, …, `i + n - 1`. -/
def iterFrom {σ : Type u} (body : Nat → σ → σ) : Nat → Nat → σ → σ
  | 0, _, s => s
  | n + 1, i, s => iterFrom body n (i + 1) (body i s)

variable {σ : Type u}

variable (body : Nat → σ → σ)

theorem iterFrom_snoc (n i : Nat) (s : σ) :
    iterFrom body (n + 1) i s = body (i + n) (iterFrom body n i s) := by
  induction n generalizing i s with
  | zero => rfl
  | succ n ih =>
    rw [iterFrom, ih]
    congr 1
    omega

/-- A loop whose turn `i` rewrites cell `i` rewrites the cells below its bound. -/
theorem iterFrom_update {β : Type u} (g : Nat → β → β) (n : Nat) (f : Nat → β) (i : Nat) :
    iterFrom (fun i f => update f i (g i (f i))) n 0 f i = if i < n then g i (f i) else f i := by
  induction n with
  | zero => simp [iterFrom]
  | succ n ih =>
    rw [iterFrom_snoc, zero_add, update_apply]
    by_cases here : i = n
    · subst here
      rw [if_pos rfl, if_pos (by omega), ih, if_neg (by omega)]
    rw [if_neg here, ih]
    by_cases below : i < n
    · rw [if_pos below, if_pos (by omega)]
    · rw [if_neg below, if_neg (by omega)]

theorem forWrapped_eq {modulus bound : Nat} (reach : bound < modulus) {fuel i : Nat}
    (start : i ≤ bound) (enough : bound - i ≤ fuel) (s : σ) :
    forWrapped modulus bound body fuel i s = some (iterFrom body (bound - i) i s) := by
  induction fuel generalizing i s with
  | zero =>
    have done : bound - i = 0 := by omega
    rw [forWrapped, if_neg (by omega), done, iterFrom]
  | succ _ ih =>
    by_cases more : i < bound
    · have left : bound - i = (bound - (i + 1)) + 1 := by omega
      rw [forWrapped, if_pos more, Nat.mod_eq_of_lt (by omega), ih (by omega) (by omega), left]
      rfl
    · have done : bound - i = 0 := by omega
      rw [forWrapped, if_neg more, done, iterFrom]

/-- A bound the counter cannot represent is never reached, whatever the fuel. -/
theorem forWrapped_diverges {modulus bound : Nat} (pos : 0 < modulus) (beyond : modulus ≤ bound)
    {i : Nat} (start : i < modulus) (fuel : Nat) (s : σ) :
    forWrapped modulus bound body fuel i s = none := by
  induction fuel generalizing i s with
  | zero => rw [forWrapped, if_pos (by omega)]
  | succ _ ih =>
    rw [forWrapped, if_pos (by omega)]
    exact ih (Nat.mod_lt _ pos) _

/-! ## Positions on a ring -/

/-- Positions less than `size` apart that fall into the same slot are equal. -/
theorem eq_of_mod_eq {size a b : Nat} (same : a % size = b % size) (le : a ≤ b)
    (near : b < a + size) : a = b := by
  have zero : (b - a) % size = 0 := Nat.sub_mod_eq_zero_of_mod_eq same.symm
  rw [Nat.mod_eq_of_lt (by omega)] at zero
  omega

theorem mod_ne_of_lt {size a b : Nat} (lt : a < b) (near : b < a + size) :
    a % size ≠ b % size := fun same => by
  have := eq_of_mod_eq same (by omega) near
  omega

/-- The lap bit of position `a`: set on the first lap, flipped at every passage
of the end of the ring. -/
def wrapBit (size a : Nat) : Bool := decide (a / size % 2 = 0)

theorem wrapBit_of_lt {size a : Nat} (first : a < size) : wrapBit size a = true := by
  simp [wrapBit, Nat.div_eq_of_lt first]

theorem wrapBit_add_size {size : Nat} (pos : 0 < size) (a : Nat) :
    wrapBit size (a + size) = !wrapBit size a := by
  unfold wrapBit
  rw [Nat.add_div_right a pos]
  by_cases even : a / size % 2 = 0
  · have odd : ¬ (a / size).succ % 2 = 0 := by omega
    simp [even, odd]
  · have even' : (a / size).succ % 2 = 0 := by omega
    simp [even, even']

theorem mod_advance {size n : Nat} (a : Nat) (pos : 0 < size) (short : n ≤ size) :
    (a + n) % size = if a % size + n < size then a % size + n else a % size + n - size := by
  have bound := Nat.mod_lt a pos
  rw [Nat.add_mod]
  by_cases full : n = size
  · subst full
    rw [Nat.mod_self, add_zero, Nat.mod_mod, if_neg (by omega), Nat.add_sub_cancel]
  rw [Nat.mod_eq_of_lt (a := n) (by omega)]
  split
  · exact Nat.mod_eq_of_lt ‹_›
  · rw [Nat.mod_eq_sub_mod (by omega), Nat.mod_eq_of_lt (by omega)]

/-- Every slot is met within one lap from any position. -/
theorem exists_position {size slot : Nat} (inside : slot < size) (base : Nat) :
    ∃ p, base ≤ p ∧ p < base + size ∧ p % size = slot := by
  have pos : 0 < size := by omega
  have start := Nat.mod_lt base pos
  by_cases ahead : base % size ≤ slot
  · refine ⟨base + (slot - base % size), by omega, by omega, ?_⟩
    rw [mod_advance base pos (by omega), if_pos (by omega)]
    omega
  · refine ⟨base + (size - base % size + slot), by omega, by omega, ?_⟩
    rw [mod_advance base pos (by omega), if_neg (by omega)]
    omega

theorem div_advance {size n : Nat} (a : Nat) (pos : 0 < size) (short : n ≤ size) :
    (a + n) / size = if a % size + n < size then a / size else a / size + 1 := by
  have bound := Nat.mod_lt a pos
  have whole := Nat.div_add_mod a size
  split
  · rw [Nat.div_eq_iff pos]
    constructor
    · rw [mul_comm]; omega
    · rw [mul_comm]; omega
  · rw [Nat.div_eq_iff pos]
    constructor
    · rw [Nat.add_mul, mul_comm]; omega
    · rw [Nat.add_mul, mul_comm]; omega

theorem wrapBit_advance {size n : Nat} (a : Nat) (pos : 0 < size) (short : n ≤ size) :
    wrapBit size (a + n) = if a % size + n < size then wrapBit size a else !wrapBit size a := by
  unfold wrapBit
  rw [div_advance a pos short]
  split
  · rfl
  by_cases even : a / size % 2 = 0
  · have odd : ¬ (a / size + 1) % 2 = 0 := by omega
    simp [even, odd]
  · have even' : (a / size + 1) % 2 = 0 := by omega
    simp [even, even']

/-- Two visits of a slot that show the same lap bit are the same or at least two laps
apart. -/
theorem two_laps {size p q : Nat} (pos : 0 < size) (slot : p % size = q % size)
    (bit : wrapBit size p = wrapBit size q) (lt : p < q) : p + 2 * size ≤ q := by
  by_contra near
  by_cases one : q < p + size
  · exact mod_ne_of_lt lt one slot
  have next : p + size = q := by
    have same : (p + size) % size = q % size := by rw [Nat.add_mod_right, slot]
    exact eq_of_mod_eq same (by omega) (by omega)
  rw [← next, wrapBit_add_size pos] at bit
  cases h : wrapBit size p <;> simp at bit

/-- The ends of the ring passed between two positions, and what they do to the lap
bit. -/
theorem exists_laps (size p j : Nat) : ∃ k, p % size + j = (p + j) % size + k * size ∧
      (wrapBit size p = wrapBit size (p + j) ↔ k % 2 = 0) := by
  obtain ⟨k, laps⟩ := Nat.exists_eq_add_of_le (Nat.div_le_div_right (Nat.le_add_right p j))
  refine ⟨k, ?_, ?_⟩
  · have here := Nat.div_add_mod p size
    have there := Nat.div_add_mod (p + j) size
    rw [laps, Nat.mul_add, mul_comm size k] at there
    omega
  · rw [wrapBit, wrapBit, decide_eq_decide]
    omega

/-! ## Queues kept in a ring -/

section Window

variable {β : Type u} {ring : Nat → β} {size base : Nat} {l : List β} {x : β}

/-- The slots of `ring` from position `base` on hold the entries of `l`, in order. -/
def Window (ring : Nat → β) (size base : Nat) (l : List β) : Prop :=
  ∀ (k : Nat) (x : β), l[k]? = some x → ring ((base + k) % size) = x

theorem window_nil (ring : Nat → β) (size base : Nat) : Window ring size base [] := by
  intro k x h
  simp at h

theorem Window.front (window : Window ring size base (x :: l)) : ring (base % size) = x :=
  window 0 x rfl

theorem Window.pop (window : Window ring size base (x :: l)) : Window ring size (base + 1) l := by
  intro k y h
  rw [add_assoc, add_comm 1 k]
  exact window (k + 1) y h

/-- Only the slot of the first entry matters for where the queue starts. -/
theorem Window.rebase {base' : Nat} (window : Window ring size base l)
    (same : base' % size = base % size) : Window ring size base' l := by
  intro k x h
  rw [Nat.add_mod, same, ← Nat.add_mod]
  exact window k x h

/-- Writing behind the last entry, while there is room, appends. -/
theorem Window.push (window : Window ring size base l) (room : l.length < size) (x : β) :
    Window (update ring ((base + l.length) % size) x) size base (l ++ [x]) := by
  intro k y h
  rcases Nat.lt_trichotomy k l.length with inside | rfl | _
  · rw [List.getElem?_append_left inside] at h
    rw [update_of_ne (mod_ne_of_lt (by omega) (by omega))]
    exact window k y h
  · rw [List.getElem?_concat_length] at h
    rw [update_self]
    exact Option.some.inj h
  · rw [List.getElem?_eq_none (by simp; omega)] at h
    cases h

end Window

/-! ## Segments laid end to end -/

section Laid

variable {β : Type u} {size : β → Nat} {P Q : Nat → β → Prop} {l : List β} {p : Nat}

/-- The segments of `l` lie one behind the other from position `p` on, each where `P`
wants it. -/
def Laid (size : β → Nat) (P : Nat → β → Prop) : Nat → List β → Prop
  | _, [] => True
  | p, x :: l => P p x ∧ Laid size P (p + size x) l

theorem laid_snoc {x : β} :
    Laid size P p (l ++ [x]) ↔ Laid size P p l ∧ P (p + (l.map size).sum) x := by
  induction l generalizing p with
  | nil => simp [Laid]
  | cons y l ih =>
    rw [List.cons_append, Laid, ih, Laid, List.map_cons, List.sum_cons, add_assoc, and_assoc]

/-- What holds of a segment may be replaced by what follows from it where it lies. -/
theorem Laid.imp (laid : Laid size P p l)
    (step : ∀ q x, x ∈ l → p ≤ q → q + size x ≤ p + (l.map size).sum → P q x → Q q x) :
    Laid size Q p l := by
  induction l generalizing p with
  | nil => trivial
  | cons y l ih =>
    rw [List.map_cons, List.sum_cons] at step
    refine ⟨step p y (by simp) le_rfl (by omega) laid.1, ih laid.2 ?_⟩
    intro q x member low high
    exact step q x (by simp [member]) (by omega) (by omega)

end Laid

end KvmGuestDrivers.Theory

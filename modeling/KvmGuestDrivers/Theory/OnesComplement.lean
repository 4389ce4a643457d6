/-
# Theory.OnesComplement -- sums with end-around carry

Addition in one's complement on words of `m + 1` values is addition modulo `m`, except that
a sum is zero only if all of its terms are: of the two zeros it gives the one with all
bits set.  `onesNorm m n` is the word that `n` stands for, and `OnesEq m` says that two sums
stand for the same word; it is a congruence for addition, so that sums can be regrouped.
-/
import Mathlib.Algebra.BigOperators.Group.List.Basic
import Mathlib.Data.Nat.ModEq

namespace KvmGuestDrivers.Theory

set_option autoImplicit false

/-- The word from 1 to `m` that is congruent to `n` modulo `m`; zero for zero. -/
def onesNorm (m n : Nat) : Nat := if n = 0 then 0 else (n - 1) % m + 1

/-- Addition of words of `w` values with end-around carry. -/
def onesAdd (w a b : Nat) : Nat := (a + b) % w + (a + b) / w

/-- The two sums stand for the same word. -/
def OnesEq (m a b : Nat) : Prop := a % m = b % m ∧ (a = 0 ↔ b = 0)

section Congruence

variable {m a b c d : Nat}

theorem OnesEq.refl (m a : Nat) : OnesEq m a a := ⟨rfl, Iff.rfl⟩

theorem OnesEq.symm (same : OnesEq m a b) : OnesEq m b a := ⟨same.1.symm, same.2.symm⟩

theorem OnesEq.trans (first : OnesEq m a b) (second : OnesEq m b c) : OnesEq m a c :=
  ⟨first.1.trans second.1, first.2.trans second.2⟩

theorem OnesEq.add (first : OnesEq m a b) (second : OnesEq m c d) : OnesEq m (a + c) (b + d) := by
  refine ⟨Nat.ModEq.add first.1 second.1, ?_⟩
  rw [Nat.add_eq_zero_iff, Nat.add_eq_zero_iff, first.2, second.2]

/-- A double word stands for the sum of its halves. -/
theorem onesEq_halves (m a b : Nat) : OnesEq m (a * (m + 1) + b) (a + b) := by
  constructor
  · rw [Nat.mul_succ, add_assoc, mul_comm, Nat.mul_add_mod]
  rw [Nat.mul_succ]
  constructor
  · omega
  intro zero
  have none : a = 0 := by omega
  rw [none]
  omega

theorem OnesEq.of_dvd {m' : Nat} (dvd : m ∣ m') (same : OnesEq m' a b) : OnesEq m a b :=
  ⟨Nat.ModEq.of_dvd dvd same.1, same.2⟩

end Congruence

section Words

variable {m a b n : Nat}

theorem onesNorm_of_le (le : n ≤ m) : onesNorm m n = n := by
  unfold onesNorm
  split
  · rename_i zero
    exact zero.symm
  · rw [Nat.mod_eq_of_lt (by omega)]
    omega

theorem onesNorm_le (pos : 0 < m) : onesNorm m n ≤ m := by
  unfold onesNorm
  split
  · exact Nat.zero_le m
  · exact Nat.mod_lt _ pos

theorem onesNorm_eq_zero : onesNorm m n = 0 ↔ n = 0 := by
  unfold onesNorm
  split
  · rename_i zero
    exact ⟨fun _ => zero, fun _ => rfl⟩
  · rename_i some
    exact ⟨fun zero => absurd zero (Nat.succ_ne_zero _), fun zero => absurd zero some⟩

/-- The word stands for the number it is made of. -/
theorem onesEq_onesNorm (m n : Nat) : OnesEq m (onesNorm m n) n := by
  refine ⟨?_, onesNorm_eq_zero⟩
  unfold onesNorm
  split
  · rename_i zero
    rw [zero]
  · rename_i some
    rw [Nat.mod_add_mod, Nat.sub_add_cancel (Nat.one_le_iff_ne_zero.mpr some)]

/-- There is one word for a sum. -/
theorem OnesEq.onesNorm_eq (pos : 0 < m) (same : OnesEq m a b) : onesNorm m a = onesNorm m b := by
  have both := ((onesEq_onesNorm m a).trans same).trans (onesEq_onesNorm m b).symm
  have left := onesNorm_le (n := a) pos
  have right := onesNorm_le (n := b) pos
  generalize onesNorm m a = x at both left
  generalize onesNorm m b = y at both right
  obtain ⟨congruent, zero⟩ := both
  -- both are at most `m`, and only `m` and zero are congruent
  rcases Nat.lt_or_eq_of_le left with less | rfl
  · rcases Nat.lt_or_eq_of_le right with less' | rfl
    · rwa [Nat.mod_eq_of_lt less, Nat.mod_eq_of_lt less'] at congruent
    · rw [Nat.mod_eq_of_lt less, Nat.mod_self] at congruent
      omega
  · rcases Nat.lt_or_eq_of_le right with less' | same
    · rw [Nat.mod_self, Nat.mod_eq_of_lt less'] at congruent
      omega
    · exact same.symm

theorem onesAdd_eq (left : a ≤ m) (right : b ≤ m) : onesAdd (m + 1) a b = onesNorm m (a + b) := by
  unfold onesAdd
  rcases Nat.lt_or_ge (a + b) (m + 1) with less | more
  · rw [Nat.mod_eq_of_lt less, Nat.div_eq_of_lt less, onesNorm_of_le (Nat.le_of_lt_succ less),
      add_zero]
  have carry : (a + b) / (m + 1) = 1 := by
    apply Nat.div_eq_of_lt_le <;> omega
  have rest : (a + b) % (m + 1) = a + b - (m + 1) := by
    rw [Nat.mod_eq_sub_mod more, Nat.mod_eq_of_lt (by omega)]
  have congruent : (a + b - 1) % m = a + b - 1 - m := by
    rw [Nat.mod_eq_sub_mod (by omega), Nat.mod_eq_of_lt (by omega)]
  rw [onesNorm, if_neg (by omega)]
  omega

/-- A run of additions with end-around carry. -/
theorem foldl_onesAdd (pos : 0 < m) {words : List Nat} (small : ∀ x ∈ words, x ≤ m) {acc : Nat}
    (le : acc ≤ m) : words.foldl (onesAdd (m + 1)) acc = onesNorm m (acc + words.sum) := by
  induction words generalizing acc with
  | nil =>
    rw [List.foldl_nil, List.sum_nil, add_zero, onesNorm_of_le le]
  | cons x _ ih =>
    obtain ⟨here, later⟩ := List.forall_mem_cons.mp small
    rw [List.foldl_cons, onesAdd_eq le here, ih later (onesNorm_le pos), List.sum_cons, ← add_assoc]
    exact OnesEq.onesNorm_eq pos ((onesEq_onesNorm m _).add (.refl m _))

/-- A sum is checked by comparing its complement with the word that was sent, which can be
either zero; or by adding that word, after which all bits are set. -/
theorem complement_eq_iff (some : 0 < n) (le : a ≤ m) (pos : 0 < m) :
    m - onesNorm m n = (if a = m then 0 else a) ↔ onesNorm m (n + a) = m := by
  have high : onesNorm m n ≤ m := onesNorm_le pos
  have low : 0 < onesNorm m n := Nat.pos_of_ne_zero (fun zero => by
    rw [onesNorm_eq_zero] at zero
    omega)
  have sums := ((onesEq_onesNorm m n).add (.refl m a)).onesNorm_eq pos
  rw [← sums]
  generalize onesNorm m n = x at high low ⊢
  have word : onesNorm m (x + a) = (x + a - 1) % m + 1 := by rw [onesNorm, if_neg (by omega)]
  rw [word]
  rcases Nat.lt_or_ge (x + a - 1) m with less | more
  · rw [Nat.mod_eq_of_lt less]
    split <;> omega
  · rw [Nat.mod_eq_sub_mod more, Nat.mod_eq_of_lt (by omega)]
    split <;> omega

end Words

/-! ## Adding the halves of a word -/

/-- Add a word of `2 * k` bits to itself, rotated by half, and keep the upper half. -/
def rotateAdd (k sum : Nat) : Nat :=
  (((sum >>> k ||| (sum <<< k) % 2 ^ (2 * k)) + sum) % 2 ^ (2 * k)) >>> k

/-- The upper half of the sum is that of the halves, with the carry added. -/
theorem rotateAdd_eq {k sum : Nat} (some : 0 < k) (lt : sum < 2 ^ (2 * k)) :
    rotateAdd k sum = onesNorm (2 ^ k - 1) sum := by
  have square : 2 ^ (2 * k) = 2 ^ k * 2 ^ k := by rw [← Nat.pow_add, Nat.two_mul]
  have two : 2 ≤ 2 ^ k := Nat.le_self_pow (Nat.pos_iff_ne_zero.mp some) 2
  have whole := Nat.div_add_mod sum (2 ^ k)
  have low := Nat.mod_lt sum (Nat.two_pow_pos k)
  have high : sum / 2 ^ k < 2 ^ k := Nat.div_lt_of_lt_mul (square ▸ lt)
  have rotated : sum >>> k ||| (sum <<< k) % 2 ^ (2 * k) = sum % 2 ^ k * 2 ^ k + sum / 2 ^ k := by
    rw [Nat.shiftRight_eq_div_pow, Nat.shiftLeft_eq, square, Nat.mul_mod_mul_right, Nat.or_comm,
      ← Nat.shiftLeft_eq, ← Nat.shiftLeft_add_eq_or_of_lt high]
  unfold rotateAdd
  rw [rotated, Nat.shiftRight_eq_div_pow, square]
  generalize 2 ^ k = w at *
  generalize sum / w = a at *
  generalize sum % w = b at *
  obtain ⟨m, rfl⟩ : ∃ m, w = m + 1 := ⟨w - 1, by omega⟩
  have sums : b * (m + 1) + a + sum = (a + b) * (m + 1) + (a + b) := by
    rw [← whole, mul_comm (m + 1) a, Nat.add_mul]
    omega
  have word : onesNorm m sum = onesNorm m (a + b) := by
    refine OnesEq.onesNorm_eq (by omega) ?_
    rw [← whole, mul_comm]
    exact onesEq_halves m a b
  rw [sums, Nat.add_sub_cancel, word, Nat.mod_mul_right_div_self, mul_comm,
    Nat.mul_add_div (Nat.succ_pos m), ← onesAdd_eq (by omega) (by omega), onesAdd]
  rcases Nat.lt_or_ge (a + b) (m + 1) with less | more
  · rw [Nat.div_eq_of_lt less]
    rfl
  have carry : (a + b) / (m + 1) = 1 := by
    apply Nat.div_eq_of_lt_le <;> omega
  rw [carry, Nat.mod_eq_sub_mod (by omega), Nat.mod_eq_of_lt (by omega),
    Nat.mod_eq_sub_mod more, Nat.mod_eq_of_lt (by omega)]
  omega

end KvmGuestDrivers.Theory

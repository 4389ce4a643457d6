/-
# Theory.Windows -- a register that slides over a stream of bits

`window w stream p` is the word of the `w` bits of a stream from position `p` on, the first of
them most significant.  A register that shifts in the next bit goes from one window to the next
(`window_succ`).

`xorWhere which words n` is the exclusive or of the words at those positions below `n` that
`which` picks out; `xorWhere_succ` is what one more position adds.
-/
import Mathlib.Data.List.Basic

namespace KvmGuestDrivers.Theory

open List

set_option autoImplicit false

variable {w i : Nat}

def window (w : Nat) (stream : Nat → Bool) (p : Nat) : BitVec w :=
  (List.range w).foldl (fun word i => word.shiftConcat (stream (p + i))) 0

/-- The bits shifted in last are the least significant ones. -/
theorem getLsbD_foldl_shiftConcat (bits : Nat → Bool) (n : Nat) (lt : i < w) (shifted : i < n) :
    ((List.range n).foldl (fun word k => word.shiftConcat (bits k)) (0 : BitVec w)).getLsbD i =
      bits (n - 1 - i) := by
  induction n generalizing i with
  | zero => omega
  | succ n ih =>
    rw [range_succ, foldl_append, foldl_cons, foldl_nil,
      BitVec.getLsbD_shiftConcat, decide_eq_true lt, Bool.true_and]
    cases i with
    | zero => rfl
    | succ i =>
      rw [if_neg (Nat.succ_ne_zero i), ih (by omega) (by omega)]
      congr 1
      omega

theorem getLsbD_window {stream : Nat → Bool} {p : Nat} (lt : i < w) :
    (window w stream p).getLsbD i = stream (p + (w - 1 - i)) :=
  getLsbD_foldl_shiftConcat (fun k => stream (p + k)) w lt lt

/-- Shifting in the bit behind the window moves it on by one. -/
theorem window_succ (stream : Nat → Bool) (p : Nat) :
    window w stream (p + 1) = (window w stream p).shiftConcat (stream (p + w)) := by
  apply BitVec.eq_of_getLsbD_eq
  intro i lt
  rw [getLsbD_window lt, BitVec.getLsbD_shiftConcat, decide_eq_true lt]
  cases i with
  | zero =>
    congr 1
    omega
  | succ i =>
    rw [getLsbD_window (by omega)]
    congr 1
    omega

def xorWhere (which : Nat → Bool) (words : Nat → BitVec w) (n : Nat) : BitVec w :=
  (((List.range n).filter which).map words).foldl (fun acc word => acc ^^^ word) 0

theorem xorWhere_succ (which : Nat → Bool) (words : Nat → BitVec w) (n : Nat) :
    xorWhere which words (n + 1) =
      if which n then xorWhere which words n ^^^ words n else xorWhere which words n := by
  unfold xorWhere
  rw [range_succ, filter_append]
  cases here : which n with
  | true =>
    rw [filter_cons_of_pos here, map_append, foldl_append]
    rfl
  | false =>
    rw [filter_cons_of_neg (by rw [here]; nofun), filter_nil, append_nil]
    rfl

end KvmGuestDrivers.Theory

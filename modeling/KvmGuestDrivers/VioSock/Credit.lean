/-
# VioSock.Credit -- send credit of a socket

The peer of a stream socket announces in every header how large its receive buffer is and
how many bytes it has taken out of it.  The sender keeps the number of bytes it was granted
so far; the difference to what the peer has taken is in flight, and what is left of the
peer's buffer is the window.  All three are `ULONG32` and wrap.
-/
import KvmGuestDrivers.Theory.Transition
import Mathlib.Algebra.GroupWithZero.Nat
import Mathlib.Algebra.Ring.Int.Defs
import Mathlib.Data.List.Basic

namespace KvmGuestDrivers.VioSock

set_option autoImplicit false

open Theory

/-! ## The functions of the header -/

/-- The fields of a socket that `StateLock` guards for the send path. -/
structure SendCredit where
  peerBufAlloc : BitVec 32
  peerFwdCnt : BitVec 32
  txCnt : BitVec 32
  deriving DecidableEq

variable (s : SendCredit)

def txGetCredit (uCredit : BitVec 32) : SendCredit × BitVec 32 :=
  let space := s.peerBufAlloc - (s.txCnt - s.peerFwdCnt)
  let uRet := if uCredit < space then uCredit else space
  ({ s with txCnt := s.txCnt + uRet }, uRet)

def txPutCredit (uCredit : BitVec 32) : SendCredit :=
  { s with txCnt := s.txCnt - uCredit }

/-- `VIOSockTxHasSpace`: the difference is unsigned, only its result is a `LONG`. -/
def txHasSpace : Int :=
  let lBytes := (s.peerBufAlloc - (s.txCnt - s.peerFwdCnt)).toInt
  if lBytes < 0 then 0 else lBytes

/-- `VIOSockTxSpaceUpdate`, for a header with these two fields. -/
def txSpaceUpdate (bufAlloc fwdCnt : BitVec 32) : SendCredit × Int :=
  let s := { s with peerBufAlloc := bufAlloc, peerFwdCnt := fwdCnt }
  (s, txHasSpace s)

/-! ## The window -/

/-- The bytes in flight: granted, and not yet taken by the peer. -/
def inFlight : Nat := (s.txCnt - s.peerFwdCnt).toNat

/-- What the peer has room for, as an exact integer. -/
def sendWindow : Int := s.peerBufAlloc.toNat - inFlight s

theorem sendWindow_bounds : -(2 ^ 32) < sendWindow s ∧ sendWindow s < 2 ^ 32 := by
  simp only [sendWindow, inFlight]
  omega

theorem toNat_noCredit : (0 : BitVec 32).toNat = 0 := rfl

theorem toNat_space : ((s.peerBufAlloc - (s.txCnt - s.peerFwdCnt)).toNat : Int) =
      if sendWindow s < 0 then sendWindow s + 2 ^ 32 else sendWindow s := by
  rw [BitVec.toNat_sub s.peerBufAlloc]
  by_cases overrun : sendWindow s < 0
  · simp only [sendWindow, inFlight] at overrun ⊢
    omega
  · simp only [sendWindow, inFlight] at overrun ⊢
    omega

variable (n : BitVec 32)

theorem toNat_txGetCredit : ((txGetCredit s n).2.toNat : Int) =
      min (n.toNat : Int) (if sendWindow s < 0 then sendWindow s + 2 ^ 32 else sendWindow s) := by
  rw [← toNat_space s]
  simp only [txGetCredit]
  split
  · rename_i small
    rw [BitVec.lt_def] at small
    omega
  · rename_i large
    rw [BitVec.lt_def] at large
    omega

/-- No space is reported exactly when the window is empty or overrun, or does not fit a
`LONG`. -/
theorem txHasSpace_eq_zero_iff : txHasSpace s = 0 ↔
      sendWindow s = 0 ∨ (-(2 ^ 31) ≤ sendWindow s ∧ sendWindow s < 0) ∨ 2 ^ 31 ≤ sendWindow s := by
  have space := toNat_space s
  have bounds := sendWindow_bounds s
  simp only [txHasSpace, BitVec.toInt_eq_toNat_cond]
  split at space <;> omega

/-! ## Runs -/

/-- A socket, and the credits that were granted and have not been returned. -/
structure CreditState where
  socket : SendCredit
  granted : List (BitVec 32)

inductive CreditOp where
  | header (bufAlloc fwdCnt : BitVec 32)
  | get (n : BitVec 32)
  | put (credit : BitVec 32)

def creditStart : CreditState := ⟨⟨0, 0, 0⟩, []⟩

def creditStep (s : CreditState) : CreditOp → Except Empty (CreditState × Int)
  | .header bufAlloc fwdCnt =>
    let (socket, space) := txSpaceUpdate s.socket bufAlloc fwdCnt
    .ok ({ s with socket := socket }, space)
  | .get n =>
    let (socket, uRet) := txGetCredit s.socket n
    .ok (⟨socket, uRet :: s.granted⟩, uRet.toNat)
  | .put credit => .ok (⟨txPutCredit s.socket credit, s.granted.erase credit⟩, 0)

/-- Only what was granted is returned, and only once. -/
def creditAllowed (s : CreditState) : CreditOp → Prop
  | .put credit => credit ∈ s.granted
  | _ => True

instance (s : CreditState) (op : CreditOp) : Decidable (creditAllowed s op) := by
  cases op <;> unfold creditAllowed <;> infer_instance

/-- Any sequence of headers, grants and returns of credits granted before. -/
def CreditRun (s : CreditState) : Prop :=
  Reachable (· = creditStart) (Next creditStep creditAllowed) s

theorem txCnt_eq_sum {s : CreditState} (reach : CreditRun s) :
    s.socket.txCnt = s.granted.foldr (· + ·) 0 := by
  refine reach.machine_invariant (P := fun s => s.socket.txCnt = s.granted.foldr (· + ·) 0) ?_ ?_
  · rintro _ rfl
    rfl
  intro s op counted may
  cases op with
  | header => exact ⟨_, _, rfl, counted⟩
  | get =>
    refine ⟨_, _, rfl, ?_⟩
    simp only [counted]
    exact BitVec.add_comm _ _
  | put credit =>
    refine ⟨_, _, rfl, ?_⟩
    have split : (credit :: s.granted.erase credit).foldr (· + ·) 0 = s.granted.foldr (· + ·) 0 :=
      (List.perm_cons_erase may).symm.foldr_eq' (fun x _ y _ z => by ac_rfl) 0
    simp only [txPutCredit, counted, ← split, List.foldr_cons]
    rw [BitVec.add_comm]
    exact BitVec.add_sub_cancel _ _

/-- A grant is right: the smaller of what is asked for and of the window, and nothing where
no space is reported. -/
def GrantsWindow : Prop :=
  ((txGetCredit s n).2.toNat : Int) = min (n.toNat : Int) (max 0 (sendWindow s)) ∧
    (txHasSpace s = 0 → (txGetCredit s n).2 = 0)

/-- Nothing is asked for, or the peer has room for what is in flight and the rest fits a
`LONG`. -/
def WindowRegular : Prop :=
  n = 0 ∨ (0 ≤ sendWindow s ∧ sendWindow s < 2 ^ 31)

instance : Decidable (WindowRegular s n) :=
  inferInstanceAs (Decidable (n = 0 ∨ (0 ≤ sendWindow s ∧ sendWindow s < 2 ^ 31)))

variable {s}

variable {n}

theorem grantsWindow_of_regular (regular : WindowRegular s n) : GrantsWindow s n := by
  have granted := toNat_txGetCredit s n
  constructor
  · rw [granted]
    rcases regular with rfl | ⟨low, high⟩
    · simp only [toNat_noCredit]
      split <;> omega
    · omega
  · intro none
    rw [txHasSpace_eq_zero_iff] at none
    apply BitVec.eq_of_toNat_eq
    rcases regular with rfl | ⟨_, _⟩
    · simp only [toNat_noCredit] at granted ⊢
      split at granted <;> omega
    · simp only [toNat_noCredit]
      omega

theorem regular_of_grantsWindow (grants : GrantsWindow s n) : WindowRegular s n := by
  obtain ⟨exact, silent⟩ := grants
  have granted := toNat_txGetCredit s n
  have bounds := sendWindow_bounds s
  by_cases asked : n = 0
  · exact .inl asked
  refine .inr ?_
  have positive : 0 < n.toNat := by
    rcases Nat.eq_zero_or_pos n.toNat with zero | positive
    · exact absurd (BitVec.eq_of_toNat_eq zero) asked
    · exact positive
  -- an overrun window would have granted something, an oversized one something unreported
  by_contra oversized
  have zero := silent ((txHasSpace_eq_zero_iff s).mpr (.inr (.inr (by omega))))
  rw [zero] at granted
  simp only [toNat_noCredit] at granted
  omega

/-- **When the sender keeps to the window.**  In every state a socket reaches, `tx_cnt` is
what was granted and not returned, and a grant is the smaller of the request and of the
window if and only if the window is regular. -/
theorem grants_window_iff {s : CreditState} (reach : CreditRun s) (n : BitVec 32) :
    s.socket.txCnt = s.granted.foldr (· + ·) 0 ∧
      (GrantsWindow s.socket n ↔ WindowRegular s.socket n) :=
  ⟨txCnt_eq_sum reach, regular_of_grantsWindow, grantsWindow_of_regular⟩

/-- A peer with 100 bytes, of which 60 are granted. -/
theorem grants_window_sixty : ∃ s, CreditRun s ∧ s.granted = [60] ∧ WindowRegular s.socket 90 ∧
      GrantsWindow s.socket 90 ∧ (txGetCredit s.socket 90).2 = 40 := by
  have replay : ∃ s ∈ attempt creditStep creditAllowed creditStart [.header 100 0, .get 60],
      s.socket = ⟨100, 0, 60⟩ ∧ s.granted = [60] := by
    decide
  obtain ⟨s, reach, socket, granted⟩ := reachable_of_replay _ replay
  have regular : WindowRegular s.socket 90 := by
    rw [socket]
    decide
  refine ⟨s, reach, granted, regular, (grants_window_iff reach 90).2.mpr regular, ?_⟩
  rw [socket]
  decide

/-- **The window overrun.**  The peer shrinks its buffer below what is in flight: no space
is reported, and ten more bytes are granted. -/
theorem shrunk_window_overrun :
    ∃ s, CreditRun s ∧ sendWindow s.socket = -50 ∧ txHasSpace s.socket = 0 ∧
      (txGetCredit s.socket 10).2 = 10 := by
  refine reachable_of_replay [.header 100 0, .get 100, .header 50 0] ?_
  decide

end KvmGuestDrivers.VioSock

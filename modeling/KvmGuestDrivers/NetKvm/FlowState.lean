/-
# NetKvm.FlowState -- stopping a flow

A flow counts the items it has handed out in one interlocked word, together with the bit
`StoppedMask` that says that no more are handed out.  A registration adds its items first and
looks at the bit afterwards; one that finds the bit set takes its items back.  `Stop` marks
the state, sets the bit, drops the reference that `Start` took, and waits for an event, and
whoever brings the word down to the bare bit signals it (`CompleteStopping`).

Calls run one interlocked operation or one store at a time.  Thread 0 is the one that calls
`Start` and `Stop`, one after the other; registrations and releases come and go.
-/
import KvmGuestDrivers.Theory.Calls
import KvmGuestDrivers.Theory.Transition
import Mathlib.Data.Nat.Bitwise

namespace KvmGuestDrivers.NetKvm

set_option autoImplicit false

open Theory List

/-! ## The machine -/

inductive FlowState where
  | running
  | stopping
  | stopped
  deriving DecidableEq

inductive Caller where
  | register
  | unregister
  | stop
  deriving DecidableEq

/-- Where `CompleteStopping` is: before the operation named. -/
inductive Completing where
  | locking
  /-- The test of `m_State`, under the lock. -/
  | checking
  | marking
  | notifying
  | unlocking
  deriving DecidableEq

/-- Where a thread is: before the operation named. -/
inductive FlowPoint where
  /-- `RegisterOutstandingItems`: `AddRef(NumItems)`. -/
  | adding (numItems : BitVec 32)
  /-- The `Release(NumItems)` of a rejected registration. -/
  | withdrawing (numItems : BitVec 32)
  /-- The read of `m_StopReason`. -/
  | refusing
  | registered
  | refused (reason : Nat)
  /-- `UnregisterOutstandingItems`: `Release(NumItems)`. -/
  | releasing (numItems : BitVec 32)
  | unregistered
  /-- `CompleteStopping`; `cause` is the `Stop` that was in progress, or the last one, when
  the count reached the bare bit. -/
  | completing (caller : Caller) (cause : Nat) (point : Completing)
  /-- Thread 0 between its calls; `stopped` if the last one was `Stop`. -/
  | outside (stopped : Bool)
  /-- `Start`: the test of `m_State`. -/
  | startChecking (stopped : Bool)
  | startAdding
  | startRunning
  | startClearing
  /-- `Stop`: the test of `m_State`. -/
  | stopChecking (stopped : Bool) (reason : Nat)
  | stopMarking (reason : Nat)
  | stopReasoning (reason : Nat)
  | stopClearing
  | stopMasking
  /-- `UnregisterOutstandingItem` for the reference of `Start`. -/
  | stopReleasing
  | waiting
  deriving DecidableEq

/-- A call of `Notify`: the `Stop` whose drain led to it, and the one it ends. -/
structure Signal where
  cause : Nat
  stop : Nat
  deriving DecidableEq

structure Flow where
  counter : BitVec 32
  state : FlowState
  /-- `m_CompleteStoppingLock`. -/
  locked : Bool
  /-- `m_NoOutstandingItems`. -/
  signalled : Bool
  stopReason : Nat
  /-- Items registered and not yet handed to a call of `UnregisterOutstandingItems`. -/
  available : Nat
  /-- `Stop` calls that have marked the state. -/
  stopNo : Nat
  signals : List Signal
  /-- `Stop` calls that have waited to the end. -/
  finished : List Nat

def stoppedMask : BitVec 32 := 0x40000000#32

def afterCompleting : Caller → FlowPoint
  | .register => .refusing
  | .unregister => .unregistered
  | .stop => .waiting

variable (f : Flow)

/-- `m_Counter.Release` and the test for the bare bit that follows it. -/
def releaseItems (numItems : BitVec 32) (caller : Caller) : Flow × FlowPoint :=
  let value := f.counter - numItems
  ({ f with counter := value },
    if value = stoppedMask then .completing caller f.stopNo .locking else afterCompleting caller)

def flowAdvance : FlowPoint → Flow × FlowPoint
  | .adding n =>
    let value := f.counter + n
    if value &&& stoppedMask = 0 then
      ({ f with counter := value, available := f.available + n.toNat }, .registered)
    else ({ f with counter := value }, .withdrawing n)
  | .withdrawing n => releaseItems f n .register
  | .refusing => (f, .refused f.stopReason)
  | .registered => (f, .registered)
  | .refused reason => (f, .refused reason)
  | .releasing n => releaseItems f n .unregister
  | .unregistered => (f, .unregistered)
  | .completing caller cause .locking =>
    if f.locked then (f, .completing caller cause .locking)
    else ({ f with locked := true }, .completing caller cause .checking)
  | .completing caller cause .checking =>
    (f, .completing caller cause (if f.state = .stopping then .marking else .unlocking))
  | .completing caller cause .marking =>
    ({ f with state := .stopped }, .completing caller cause .notifying)
  | .completing caller cause .notifying =>
    ({ f with signalled := true, signals := f.signals ++ [⟨cause, f.stopNo⟩] },
      .completing caller cause .unlocking)
  | .completing caller _ .unlocking => ({ f with locked := false }, afterCompleting caller)
  | .outside stopped => (f, .outside stopped)
  | .startChecking _ => (f, if f.state = .stopped then .startAdding else .outside false)
  | .startAdding => ({ f with counter := f.counter + 1 }, .startRunning)
  | .startRunning => ({ f with state := .running }, .startClearing)
  | .startClearing => ({ f with counter := f.counter &&& ~~~stoppedMask }, .outside false)
  | .stopChecking _ reason =>
    (f, if f.state = .running then .stopMarking reason else .outside true)
  | .stopMarking reason =>
    ({ f with state := .stopping, stopNo := f.stopNo + 1 }, .stopReasoning reason)
  | .stopReasoning reason => ({ f with stopReason := reason }, .stopClearing)
  | .stopClearing => ({ f with signalled := false }, .stopMasking)
  | .stopMasking => ({ f with counter := f.counter ||| stoppedMask }, .stopReleasing)
  | .stopReleasing => releaseItems f 1 .stop
  | .waiting =>
    if f.signalled then ({ f with finished := f.finished ++ [f.stopNo] }, .outside true)
    else (f, .waiting)

structure FlowRun where
  flow : Flow
  /-- Thread 0. -/
  control : FlowPoint
  calls : List FlowPoint

def flowStart : FlowRun :=
  ⟨⟨stoppedMask, .stopped, false, false, 0, 0, 0, [], []⟩, .outside true, []⟩

variable (s : FlowRun)

def flowPoints : List FlowPoint := s.control :: s.calls

variable (p : FlowPoint)

def moveTo : Nat → FlowRun
  | 0 => { s with control := p }
  | i + 1 => { s with calls := s.calls.set i p }

inductive FlowOp where
  | register (numItems : BitVec 32)
  | unregister (numItems : BitVec 32)
  | start
  | stop (reason : Nat)
  | advance (i : Nat)

def flowStep : FlowOp → Except Empty (FlowRun × Unit)
  | .register n => .ok ({ s with calls := s.calls ++ [.adding n] }, ())
  | .unregister n =>
    .ok ({ s with
            flow := { s.flow with available := s.flow.available - n.toNat }
            calls := s.calls ++ [.releasing n] }, ())
  | .start =>
    match s.control with
    | .outside stopped => .ok ({ s with control := .startChecking stopped }, ())
    | _ => .ok (s, ())
  | .stop reason =>
    match s.control with
    | .outside stopped => .ok ({ s with control := .stopChecking stopped reason }, ())
    | _ => .ok (s, ())
  | .advance i =>
    match (flowPoints s)[i]? with
    | none => .ok (s, ())
    | some p =>
      let (f, q) := flowAdvance s.flow p
      .ok (moveTo { s with flow := f } q i, ())

/-- An item is unregistered once, after its registration succeeded. -/
def flowAllowed : FlowOp → Prop
  | .unregister n => n.toNat ≤ s.flow.available
  | _ => True

variable (op : FlowOp)

instance : Decidable (flowAllowed s op) := by
  cases op <;> unfold flowAllowed <;> infer_instance

/-! ## When the bit and the count do not meet -/

/-- A call of `CompleteStopping` that has not yet looked at the state, or is about to store
it. -/
def pendingPoint : FlowPoint → Bool
  | .completing _ _ point => point = .locking ∨ point = .checking ∨ point = .marking
  | _ => false

def itemCount (counter : BitVec 32) : Nat := counter.toNat % 2 ^ 30

/-- The count stays below the bit when `n` is added. -/
def CountFits (n : Nat) : Prop := itemCount f.counter + n < 2 ^ 30

instance (n : Nat) : Decidable (CountFits f n) :=
  inferInstanceAs (Decidable (itemCount f.counter + n < 2 ^ 30))

variable (ps : List FlowPoint)

/-- The count stays below the bit, and a `Stop` marks the state only when no
`CompleteStopping` is pending. -/
def FlowRegular : FlowPoint → Prop
  | .adding n => CountFits f n.toNat
  | .startAdding => CountFits f 1
  | .stopMarking _ => ∀ p ∈ ps, pendingPoint p = false
  | _ => True

instance (p : FlowPoint) : Decidable (FlowRegular f ps p) := by
  cases p <;> unfold FlowRegular <;> infer_instance

def flowRegular : Prop :=
  flowAllowed s op ∧
    match op with
    | .advance i => ∀ p ∈ (flowPoints s)[i]?, FlowRegular s.flow (flowPoints s) p
    | _ => True

instance : Decidable (flowRegular s op) := by
  cases op <;> unfold flowRegular <;> infer_instance

/-- The items registered and not yet unregistered, in a call or not. -/
def heldItems : FlowPoint → Nat
  | .releasing n => n.toNat
  | _ => 0

def outstandingItems : Nat := f.available + (ps.map heldItems).sum

/-! ## The bit in the word -/

theorem toNat_stoppedMask : stoppedMask.toNat = 2 ^ 30 := rfl

theorem testBit_high {n : Nat} (low : 2 ^ 30 ≤ n) (high : n < 2 ^ 31) : n.testBit 30 = true := by
  rw [Nat.testBit_eq_decide_div_mod_eq]
  have quotient : n / 2 ^ 30 = 1 := by omega
  rw [quotient]
  decide

theorem and_stoppedMask (x : BitVec 32) :
    (x &&& stoppedMask).toNat = (x.toNat.testBit 30).toNat * 2 ^ 30 := by
  rw [BitVec.toNat_and, toNat_stoppedMask, Nat.and_two_pow]

theorem and_stoppedMask_eq_zero {x : BitVec 32} (small : x.toNat < 2 ^ 30) :
    x &&& stoppedMask = 0 := by
  apply BitVec.eq_of_toNat_eq
  rw [and_stoppedMask, Nat.testBit_lt_two_pow small]
  rfl

theorem and_stoppedMask_ne_zero {x : BitVec 32} (low : 2 ^ 30 ≤ x.toNat) (high : x.toNat < 2 ^ 31) :
    x &&& stoppedMask ≠ 0 := by
  intro zero
  have bits := congrArg BitVec.toNat zero
  rw [and_stoppedMask, testBit_high low high] at bits
  cases bits

theorem toNat_setMask {x : BitVec 32} (small : x.toNat < 2 ^ 30) :
    (x ||| stoppedMask).toNat = x.toNat + 2 ^ 30 := by
  rw [← BitVec.add_eq_or_of_and_eq_zero x _ (and_stoppedMask_eq_zero small), BitVec.toNat_add,
    toNat_stoppedMask]
  omega

theorem toNat_clearMask {x : BitVec 32} (low : 2 ^ 30 ≤ x.toNat) (high : x.toNat < 2 ^ 31) :
    (x &&& ~~~stoppedMask).toNat = x.toNat - 2 ^ 30 := by
  have parts : (x &&& ~~~stoppedMask) + (x &&& stoppedMask) = x := by
    rw [BitVec.add_eq_or_of_and_eq_zero]
    · ext i
      simp only [BitVec.getElem_or, BitVec.getElem_and, BitVec.getElem_not]
      cases x[i] <;> cases stoppedMask[i] <;> rfl
    · ext i
      simp only [BitVec.getElem_and]
      cases x[i] <;> simp
  have total := congrArg BitVec.toNat parts
  rw [BitVec.toNat_add, and_stoppedMask, testBit_high low high] at total
  simp only [Bool.toNat_true] at total
  omega

/-! ## What one step does -/

def releases : FlowPoint → Option (BitVec 32 × Caller)
  | .withdrawing n => some (n, .register)
  | .releasing n => some (n, .unregister)
  | .stopReleasing => some (1, .stop)
  | _ => none

inductive FlowMove (f : Flow) : FlowPoint → Flow → FlowPoint → Prop where
  /-- A thread that waits, or has nothing left to do. -/
  | stay (p : FlowPoint) : FlowMove f p f p
  | accept (n : BitVec 32) : (f.counter + n) &&& stoppedMask = 0 →
      FlowMove f (.adding n)
        { f with counter := f.counter + n, available := f.available + n.toNat } .registered
  | reject (n : BitVec 32) : (f.counter + n) &&& stoppedMask ≠ 0 →
      FlowMove f (.adding n) { f with counter := f.counter + n } (.withdrawing n)
  | refuse : FlowMove f .refusing f (.refused f.stopReason)
  | released (p : FlowPoint) (n : BitVec 32) (caller : Caller) : releases p = some (n, caller) →
      FlowMove f p { f with counter := f.counter - n } (afterCompleting caller)
  | drained (p : FlowPoint) (n : BitVec 32) (caller : Caller) : releases p = some (n, caller) →
      f.counter - n = stoppedMask →
      FlowMove f p { f with counter := f.counter - n } (.completing caller f.stopNo .locking)
  | lock (caller : Caller) (cause : Nat) : f.locked = false →
      FlowMove f (.completing caller cause .locking) { f with locked := true }
        (.completing caller cause .checking)
  | check (caller : Caller) (cause : Nat) : f.state = .stopping →
      FlowMove f (.completing caller cause .checking) f (.completing caller cause .marking)
  | pass (caller : Caller) (cause : Nat) :
      FlowMove f (.completing caller cause .checking) f (.completing caller cause .unlocking)
  | mark (caller : Caller) (cause : Nat) :
      FlowMove f (.completing caller cause .marking) { f with state := .stopped }
        (.completing caller cause .notifying)
  | notify (caller : Caller) (cause : Nat) :
      FlowMove f (.completing caller cause .notifying)
        { f with signalled := true, signals := f.signals ++ [⟨cause, f.stopNo⟩] }
        (.completing caller cause .unlocking)
  | unlock (caller : Caller) (cause : Nat) :
      FlowMove f (.completing caller cause .unlocking) { f with locked := false }
        (afterCompleting caller)
  | startCall (stopped : Bool) : FlowMove f (.outside stopped) f (.startChecking stopped)
  | stopCall (stopped : Bool) (reason : Nat) :
      FlowMove f (.outside stopped) f (.stopChecking stopped reason)
  | startFound (stopped : Bool) : f.state = .stopped →
      FlowMove f (.startChecking stopped) f .startAdding
  | startReturn (stopped : Bool) : f.state ≠ .stopped →
      FlowMove f (.startChecking stopped) f (.outside false)
  | startAdd : FlowMove f .startAdding { f with counter := f.counter + 1 } .startRunning
  | startRun : FlowMove f .startRunning { f with state := .running } .startClearing
  | startClear : FlowMove f .startClearing { f with counter := f.counter &&& ~~~stoppedMask }
      (.outside false)
  | stopFound (stopped : Bool) (reason : Nat) : f.state = .running →
      FlowMove f (.stopChecking stopped reason) f (.stopMarking reason)
  | stopReturn (stopped : Bool) (reason : Nat) : f.state ≠ .running →
      FlowMove f (.stopChecking stopped reason) f (.outside true)
  | stopMark (reason : Nat) :
      FlowMove f (.stopMarking reason) { f with state := .stopping, stopNo := f.stopNo + 1 }
        (.stopReasoning reason)
  | stopReason (reason : Nat) :
      FlowMove f (.stopReasoning reason) { f with stopReason := reason } .stopClearing
  | stopClear : FlowMove f .stopClearing { f with signalled := false } .stopMasking
  | stopMask : FlowMove f .stopMasking { f with counter := f.counter ||| stoppedMask }
      .stopReleasing
  | wake : f.signalled = true →
      FlowMove f .waiting { f with finished := f.finished ++ [f.stopNo] } (.outside true)

variable {caller : Caller} {p} {q : FlowPoint} {f} {g : Flow}

theorem flowMove_releaseItems {n : BitVec 32} (gives : releases p = some (n, caller)) :
    FlowMove f p (releaseItems f n caller).1 (releaseItems f n caller).2 := by
  simp only [releaseItems]
  split
  · rename_i bare
    exact .drained p n caller gives bare
  · exact .released p n caller gives

/-- Every step of a thread is a move. -/
theorem flowMove_advance (f : Flow) (p : FlowPoint) :
    FlowMove f p (flowAdvance f p).1 (flowAdvance f p).2 := by
  cases p with
  | adding n =>
    simp only [flowAdvance]
    split
    · rename_i clear
      exact .accept n clear
    · rename_i set
      exact .reject n set
  | withdrawing | releasing | stopReleasing => exact flowMove_releaseItems rfl
  | refusing => exact .refuse
  | completing caller cause point =>
    cases point with
    | locking =>
      simp only [flowAdvance]
      split
      · exact .stay _
      · rename_i free
        exact .lock caller cause (by simpa using free)
    | checking =>
      simp only [flowAdvance]
      split
      · rename_i stopping
        exact .check caller cause stopping
      · exact .pass caller cause
    | marking => exact .mark caller cause
    | notifying => exact .notify caller cause
    | unlocking => exact .unlock caller cause
  | startChecking stopped =>
    simp only [flowAdvance]
    split
    · rename_i found
      exact .startFound stopped found
    · rename_i other
      exact .startReturn stopped other
  | startAdding => exact .startAdd
  | startRunning => exact .startRun
  | startClearing => exact .startClear
  | stopChecking stopped reason =>
    simp only [flowAdvance]
    split
    · rename_i found
      exact .stopFound stopped reason found
    · rename_i other
      exact .stopReturn stopped reason other
  | stopMarking reason => exact .stopMark reason
  | stopReasoning reason => exact .stopReason reason
  | stopClearing => exact .stopClear
  | stopMasking => exact .stopMask
  | waiting =>
    simp only [flowAdvance]
    split
    · rename_i awake
      exact .wake awake
    · exact .stay _
  | registered | refused | unregistered | outside => exact .stay _

/-! ## The threads and the word -/

def controls : FlowPoint → Bool
  | .completing caller _ _ => caller = .stop
  | .outside _ | .startChecking _ | .startAdding | .startRunning | .startClearing
  | .stopChecking _ _ | .stopMarking _ | .stopReasoning _ | .stopClearing | .stopMasking
  | .stopReleasing | .waiting => true
  | _ => false

/-- Thread 0 while the bit is set. -/
def masks : FlowPoint → Bool
  | .completing caller _ _ => caller = .stop
  | .outside stopped | .startChecking stopped | .stopChecking stopped _ => stopped
  | .startAdding | .startRunning | .startClearing | .stopReleasing | .waiting => true
  | _ => false

/-- `Stop` after it has dropped its reference. -/
def drains : FlowPoint → Bool
  | .completing caller _ _ => caller = .stop
  | .waiting => true
  | _ => false

/-- The items that a call has in the count. -/
def countedItems : FlowPoint → Nat
  | .withdrawing n | .releasing n => n.toNat
  | _ => 0

/-- Thread 0 while the reference of `Start` is in the count. -/
def references : FlowPoint → Bool
  | .outside stopped | .startChecking stopped | .stopChecking stopped _ => !stopped
  | .startRunning | .startClearing | .stopMarking _ | .stopReasoning _ | .stopClearing
  | .stopMasking | .stopReleasing => true
  | _ => false

def share (p : FlowPoint) : Nat := countedItems p + (references p).toNat

def holdsLock : FlowPoint → Bool
  | .completing _ _ point => point ≠ .locking
  | _ => false

theorem controls_of_masks (h : masks p = true) : controls p = true := by
  cases p <;> first | exact h | rfl

theorem controls_of_drains (h : drains p = true) : controls p = true := by
  cases p <;> first | exact h | rfl

theorem FlowMove.controls_eq (move : FlowMove f p g q) : controls q = controls p := by
  cases move with
  | released _ n _ gives | drained _ n _ gives =>
    cases p <;> cases gives <;> rfl
  | unlock caller => cases caller <;> rfl
  | _ => rfl

/-! ## The invariant -/

/-- What `Start` and `Stop` rely on at each of their points. -/
def ControlOk (f : Flow) : FlowPoint → Prop
  | .outside stopped | .startChecking stopped | .stopChecking stopped _ =>
    f.state = if stopped then .stopped else .running
  | .startAdding | .startRunning => f.state = .stopped
  | .startClearing | .stopMarking _ => f.state = .running
  | .stopReasoning _ | .stopClearing => f.state = .stopping
  | .stopMasking | .stopReleasing => f.state = .stopping ∧ f.signalled = false
  | .waiting => f.state ≠ .running
  | .completing caller _ _ => caller = .stop → f.state ≠ .running
  | _ => True

/-- The `Stop` named waits for nothing but the signal. -/
def Drained (f : Flow) (ps : List FlowPoint) (cause : Nat) : Prop :=
  (∃ p ∈ ps, drains p = true) ∧ outstandingItems f ps = 0 ∧ cause = f.stopNo

/-- What `CompleteStopping` relies on at each of its points. -/
def CompleteOk (f : Flow) (ps : List FlowPoint) : FlowPoint → Prop
  | .completing _ cause point =>
    match point with
    | .locking | .checking => f.state = .stopping → Drained f ps cause
    | .marking => f.state = .stopping ∧ Drained f ps cause
    | .notifying => f.state = .stopped ∧ f.signalled = false ∧ Drained f ps cause
    | .unlocking => True
  | _ => True

/-- The word is what is outstanding, what calls have in their hands, and the bit. -/
structure FlowInv (f : Flow) (ps : List FlowPoint) : Prop where
  one : ps.countP controls = 1
  control : ∀ p ∈ ps, ControlOk f p
  small : f.available + (ps.map share).sum < 2 ^ 30
  word : f.counter.toNat = f.available + (ps.map share).sum + 2 ^ 30 * ps.countP masks
  /-- The bit is set and the drain is over, or has not begun. -/
  empty : ps.countP masks = 1 → f.state ≠ .stopping → outstandingItems f ps = 0
  complete : ∀ p ∈ ps, CompleteOk f ps p
  woken : (∃ p ∈ ps, drains p = true) → f.signalled = true → f.state = .stopped
  lock : ps.countP holdsLock = f.locked.toNat

variable {r : FlowPoint} {cause : Nat} {s}

section Step

variable {ps} {i j : Nat} {n : BitVec 32}

section

variable (inv : FlowInv f ps)

include inv

theorem FlowInv.masks_le : ps.countP masks ≤ 1 := by
  have le := countP_mono_left (l := ps) fun a _ => controls_of_masks (p := a)
  have one := inv.one
  omega

theorem FlowInv.itemCount_eq : itemCount f.counter = f.available + (ps.map share).sum := by
  have small := inv.small
  have word := inv.word
  unfold itemCount
  omega

section

variable (here : ps[i]? = some p) (control : controls p = true)

include here control

theorem FlowInv.masks_eq : ps.countP masks = (masks p).toNat :=
  countP_of_only (by have := inv.one; omega) (fun _ => controls_of_masks) here control

theorem FlowInv.others_call (there : ps[j]? = some r) (other : j ≠ i) : controls r = false := by
  rw [← Bool.not_eq_true]
  exact fun both => other (index_eq_of_countP_le_one (le_of_eq inv.one) there both here control)

theorem FlowInv.not_drained (busy : drains p = false) : ¬ ∃ r ∈ ps, drains r = true := by
  rintro ⟨r, member, dr⟩
  have same := eq_of_countP_le_one (by have := inv.one; omega) member (controls_of_drains dr)
    (mem_of_getElem? here) control
  rw [same, busy] at dr
  cases dr

end

theorem FlowInv.masks_of_drains (dr : ∃ r ∈ ps, drains r = true) : ps.countP masks = 1 := by
  obtain ⟨r, member, draining⟩ := dr
  have set : masks r = true := by cases r <;> first | exact draining | rfl | cases draining
  have pos := countP_pos_iff.mpr ⟨r, member, set⟩
  have le := inv.masks_le
  omega

theorem FlowInv.masks_of_admit (fits : CountFits f n.toNat)
    (clear : (f.counter + n) &&& stoppedMask = 0) : ps.countP masks = 0 := by
  have le := inv.masks_le
  have word := inv.word
  have count := inv.itemCount_eq
  unfold CountFits at fits
  have sum : (f.counter + n).toNat = f.counter.toNat + n.toNat := by
    rw [BitVec.toNat_add]
    omega
  by_contra set
  exact and_stoppedMask_ne_zero (by omega) (by omega) clear

end

/-! ### The word -/

theorem releases_share (gives : releases p = some (n, caller)) :
    share p = n.toNat ∧ share (afterCompleting caller) = 0 ∧
      masks p = masks (afterCompleting caller) ∧ masks p = decide (caller = .stop) ∧
      heldItems (afterCompleting caller) = 0 := by
  cases p <;> cases gives <;> exact ⟨rfl, rfl, rfl, rfl, rfl⟩

theorem releases_not_drains (gives : releases p = some (n, caller)) : drains p = false := by
  cases p <;> cases gives <;> rfl

section

variable (here : ps[i]? = some p)

include here

/-- A move keeps the counter at the items and the reference below the bit. -/
theorem FlowInv.keep_word (inv : FlowInv f ps) (move : FlowMove f p g q)
    (regular : FlowRegular f ps p) :
    g.available + ((ps.set i q).map share).sum < 2 ^ 30 ∧
      g.counter.toNat = g.available + ((ps.set i q).map share).sum +
        2 ^ 30 * (ps.set i q).countP masks := by
  have small := inv.small
  have word := inv.word
  have count := inv.itemCount_eq
  have le := inv.masks_le
  have shares := sum_map_move here q share
  have masked := countP_move here q masks
  have state := inv.control p (mem_of_getElem? here)
  have own := le_sum_map here share
  cases move with
  | accept n | reject n =>
    have fits : CountFits f n.toNat := regular
    simp only [CountFits] at fits
    simp only [share, countedItems, references, masks, BitVec.toNat_add] at *
    omega
  | released _ n _ gives =>
    obtain ⟨before, after, same, -, -⟩ := releases_share gives
    rw [same] at masked
    simp only [BitVec.toNat_sub]
    omega
  | drained _ n caller gives =>
    obtain ⟨before, -, -, same, -⟩ := releases_share gives
    have after : share (.completing caller f.stopNo .locking) = 0 := rfl
    have bit : masks (.completing caller f.stopNo .locking) = masks p := same.symm
    rw [bit] at masked
    simp only [BitVec.toNat_sub]
    omega
  | startAdd =>
    have fits : CountFits f 1 := regular
    simp only [CountFits] at fits
    simp only [share, countedItems, references, masks, Bool.toNat_true, Bool.toNat_false] at *
    have one : (f.counter + 1).toNat = (f.counter.toNat + 1) % 2 ^ 32 := BitVec.toNat_add _ _
    omega
  | startClear =>
    simp only [share, countedItems, references, masks, Bool.toNat_true, Bool.toNat_false,
      Bool.not_false] at *
    have clear := toNat_clearMask (x := f.counter) (by omega) (by omega)
    omega
  | stopMask =>
    have closed := inv.masks_eq here rfl
    simp only [share, countedItems, references, masks, Bool.toNat_true, Bool.toNat_false] at *
    have set := toNat_setMask (x := f.counter) (by omega)
    omega
  | startFound stopped | startReturn stopped | stopFound stopped | stopReturn stopped =>
    cases stopped <;> simp_all [ControlOk, share, countedItems, references, masks]
  | unlock caller =>
    cases caller <;> simp_all [share, countedItems, references, masks, afterCompleting]
  | _ => simp_all [share, countedItems, references, masks]

/-! ### The items -/

theorem FlowInv.keep_empty_of_same (inv : FlowInv f ps)
    (bit : masks q = masks p) (state : g.state = f.state) (same : g.available = f.available)
    (less : heldItems q ≤ heldItems p) :
    (ps.set i q).countP masks = 1 → g.state ≠ .stopping → outstandingItems g (ps.set i q) = 0 := by
  intro set idle
  rw [countP_same here q masks bit] at set
  have before := inv.empty set (state ▸ idle)
  have held := sum_map_move here q heldItems
  simp only [outstandingItems] at before ⊢
  omega

theorem FlowInv.keep_empty (inv : FlowInv f ps) (move : FlowMove f p g q)
    (regular : FlowRegular f ps p) :
    (ps.set i q).countP masks = 1 → g.state ≠ .stopping → outstandingItems g (ps.set i q) = 0 := by
  have state := inv.control p (mem_of_getElem? here)
  have complete := inv.complete p (mem_of_getElem? here)
  have keep := inv.keep_empty_of_same (g := g) (q := q) here
  cases move with
  | accept n clear =>
    intro set
    rw [countP_same here .registered masks rfl, inv.masks_of_admit regular clear] at set
    cases set
  | mark caller cause =>
    have held := sum_map_move here (.completing caller cause .notifying) heldItems
    have before : outstandingItems f ps = 0 := complete.2.2.1
    simp only [outstandingItems, heldItems] at before held ⊢
    omega
  | startRun =>
    have idle : f.state ≠ .stopping := by
      rw [state]
      nofun
    have before := inv.empty (inv.masks_eq here rfl) idle
    have held := sum_map_move here .startClearing heldItems
    simp only [outstandingItems, heldItems] at before held ⊢
    omega
  | startClear =>
    have left := countP_leave here (.outside false) masks rfl rfl
    have before := inv.masks_eq here rfl
    simp only [masks, Bool.toNat_true] at before
    omega
  | stopMark => exact fun _ idle => absurd rfl idle
  | stopMask => exact fun _ idle => absurd state.1 idle
  | startFound stopped | startReturn stopped | stopFound stopped | stopReturn stopped =>
    exact keep (by cases stopped <;> simp_all [ControlOk, masks]) rfl rfl le_rfl
  | released _ n _ gives =>
    obtain ⟨-, -, same, -, none⟩ := releases_share gives
    exact keep same.symm rfl rfl (by rw [none]; exact Nat.zero_le _)
  | drained _ n _ gives =>
    obtain ⟨-, -, -, same, -⟩ := releases_share gives
    exact keep same.symm rfl rfl (Nat.zero_le _)
  | unlock caller =>
    exact keep (by cases caller <;> rfl) rfl rfl (by cases caller <;> exact le_rfl)
  | _ => exact keep rfl rfl rfl le_rfl

/-! ### `CompleteStopping` -/

theorem Drained.keep (drained : Drained f ps cause)
    (stays : drains p = true → drains q = true) (number : g.stopNo = f.stopNo)
    (same : g.available = f.available) (less : heldItems q ≤ heldItems p) :
    Drained g (ps.set i q) cause := by
  obtain ⟨waits, none, caused⟩ := drained
  refine ⟨exists_mem_move here stays waits, ?_, caused.trans number.symm⟩
  have held := sum_map_move here q heldItems
  simp only [outstandingItems] at none ⊢
  omega

end

/-- What a call of `CompleteStopping` relies on is the state, the event and the drain. -/
theorem CompleteOk.imp {ps' : List FlowPoint} (ok : CompleteOk f ps r) (state : g.state = f.state)
    (signal : g.signalled = f.signalled)
    (drained : ∀ {cause}, Drained f ps cause → Drained g ps' cause) : CompleteOk g ps' r := by
  cases r with
  | completing _ _ point =>
    cases point with
    | locking | checking => exact fun stopping => drained (ok (state ▸ stopping))
    | marking => exact ⟨state.trans ok.1, drained ok.2⟩
    | notifying => exact ⟨state.trans ok.1, signal.trans ok.2.1, drained ok.2.2⟩
    | unlocking => trivial
  | _ => trivial

/-- A step that does not touch what another call of `CompleteStopping` relies on. -/
theorem CompleteOk.keep (ok : CompleteOk f ps r) (here : ps[i]? = some p)
    (state : g.state = f.state) (signal : g.signalled = f.signalled)
    (stays : drains p = true → drains q = true) (number : g.stopNo = f.stopNo)
    (same : g.available = f.available) (less : heldItems q ≤ heldItems p) :
    CompleteOk g (ps.set i q) r :=
  ok.imp state signal fun old => old.keep here stays number same less

/-- Where nothing is drained, a call of `CompleteStopping` finds nothing to do. -/
theorem CompleteOk.idle (ok : CompleteOk f ps r) (not : ¬ ∃ r ∈ ps, drains r = true)
    (state : pendingPoint r = true → g.state = .stopping → f.state = .stopping)
    (ps' : List FlowPoint) : CompleteOk g ps' r := by
  cases r with
  | completing _ _ point =>
    cases point with
    | locking | checking => exact fun stopping => absurd (ok (state rfl stopping)).1 not
    | marking => exact absurd ok.2.1 not
    | notifying => exact absurd ok.2.2.1 not
    | unlocking => trivial
  | _ => trivial

theorem FlowInv.others_outside (inv : FlowInv f ps) (here : ps[i]? = some p)
    (own : holdsLock p = true) (there : ps[j]? = some r) (other : j ≠ i) : holdsLock r = false := by
  have one : ps.countP holdsLock ≤ 1 := by
    rw [inv.lock]
    exact f.locked.toNat_le
  rw [← Bool.not_eq_true]
  exact fun held => other (index_eq_of_countP_le_one one there held here own)

/-- What `CompleteStopping` relies on survives the moves of others, -/
theorem FlowInv.complete_other (inv : FlowInv f ps) (here : ps[i]? = some p)
    (move : FlowMove f p g q) (regular : FlowRegular f ps p) (there : ps[j]? = some r)
    (other : j ≠ i) : CompleteOk g (ps.set i q) r := by
  have ok := inv.complete r (mem_of_getElem? there)
  have keep := ok.keep (g := g) (q := q) here
  have idle (not : ¬ ∃ r ∈ ps, drains r = true)
      (same : pendingPoint r = true → g.state = .stopping → f.state = .stopping) :
      CompleteOk g (ps.set i q) r := ok.idle not same _
  cases move with
  | accept n clear =>
    have unset := inv.masks_of_admit regular clear
    refine idle (fun dr => ?_) fun _ stopping => stopping
    rw [inv.masks_of_drains dr] at unset
    cases unset
  | mark =>
    have outside := inv.others_outside here rfl there other
    cases r with
    | completing _ _ point =>
      cases point with
      | locking => exact nofun
      | _ => cases outside
    | _ => trivial
  | notify =>
    have outside := inv.others_outside here rfl there other
    cases r with
    | completing _ _ point =>
      cases point with
      | locking => exact fun stopping => (ok stopping).keep here id rfl rfl le_rfl
      | _ => cases outside
    | _ => trivial
  | wake awake =>
    have done := inv.woken ⟨_, mem_of_getElem? here, rfl⟩ awake
    cases r with
    | completing _ _ point =>
      cases point with
      | locking | checking => exact fun stopping => nomatch done.symm.trans stopping
      | marking => exact nomatch done.symm.trans ok.1
      | notifying => exact nomatch awake.symm.trans ok.2.1
      | unlocking => trivial
    | _ => trivial
  | released _ n _ gives =>
    refine keep rfl rfl (fun dr => nomatch dr.symm.trans (releases_not_drains gives)) rfl rfl ?_
    rw [(releases_share gives).2.2.2.2]
    exact Nat.zero_le _
  | drained _ n _ gives =>
    exact keep rfl rfl (fun dr => nomatch dr.symm.trans (releases_not_drains gives)) rfl rfl
      (Nat.zero_le _)
  | unlock caller =>
    exact keep rfl rfl (by cases caller <;> exact id) rfl rfl (by cases caller <;> exact le_rfl)
  | stay | refuse | reject | lock | check | pass =>
    exact keep rfl rfl id rfl rfl le_rfl
  -- while `Start` or the first half of `Stop` runs, nothing is drained
  | stopMark =>
    refine idle (inv.not_drained here rfl rfl) fun pending => ?_
    exact nomatch pending.symm.trans (regular r (mem_of_getElem? there))
  | startRun => exact idle (inv.not_drained here rfl rfl) nofun
  | _ => exact idle (inv.not_drained here rfl rfl) fun _ stopping => stopping

/-- Whoever brings the word down to the bare bit while a `Stop` is in progress finds it
drained. -/
theorem drained_of_bare (control : ∀ p ∈ ps, ControlOk f p)
    (small : f.available + (ps.map share).sum < 2 ^ 30)
    (word : f.counter.toNat = f.available + (ps.map share).sum + 2 ^ 30 * ps.countP masks)
    (bare : f.counter = stoppedMask) (stopping : f.state = .stopping) :
    Drained f ps f.stopNo := by
  rw [bare, toNat_stoppedMask] at word
  have set : 0 < ps.countP masks := by omega
  refine ⟨?_, ?_, rfl⟩
  · obtain ⟨c, member, bit⟩ := countP_pos_iff.mp set
    obtain ⟨k, there⟩ := getElem?_of_mem member
    have own := le_sum_map there share
    have state := control c member
    refine ⟨c, member, ?_⟩
    cases c with
    | outside stopped | startChecking stopped | stopChecking stopped =>
      cases stopped with
      | true => exact nomatch stopping.symm.trans state
      | false => cases bit
    | startAdding | startRunning | startClearing => exact nomatch stopping.symm.trans state
    | stopReleasing =>
      simp only [share, references, Bool.toNat_true] at own
      omega
    | completing => exact bit
    | waiting => rfl
    | _ => cases bit
  · have held := sum_map_le (v := share) (w := heldItems)
      (fun p => by cases p <;> simp [heldItems, share, countedItems]) ps
    simp only [outstandingItems]
    omega

/-- and its own. -/
theorem FlowInv.complete_moved (inv : FlowInv f ps) (here : ps[i]? = some p)
    (move : FlowMove f p g q) (regular : FlowRegular f ps p)
    (control : ∀ r ∈ ps.set i q, ControlOk g r) : CompleteOk g (ps.set i q) q := by
  have complete := inv.complete p (mem_of_getElem? here)
  have words := inv.keep_word here move regular
  cases move with
  | drained _ n _ _ bare =>
    exact fun stopping => drained_of_bare control words.1 words.2 bare stopping
  | lock =>
    exact fun stopping => (complete stopping).keep here id rfl rfl le_rfl
  | check _ _ stopping =>
    exact ⟨stopping, (complete stopping).keep here id rfl rfl le_rfl⟩
  | mark =>
    refine ⟨rfl, ?_, complete.2.keep here id rfl rfl le_rfl⟩
    by_contra awake
    have done := inv.woken complete.2.1 (by simpa using awake)
    exact nomatch done.symm.trans complete.1
  | released _ _ caller | unlock caller => cases caller <;> trivial
  | stay => exact complete.keep here rfl rfl id rfl rfl le_rfl
  | _ => trivial

/-! ### Thread 0, the event and the lock -/

theorem controlOk_of_call (call : controls r = false) : ControlOk g r := by
  cases r with
  | completing =>
    intro stop
    simp [controls, stop] at call
  | _ => trivial

theorem ControlOk.keep (ok : ControlOk f r) (state : g.state = f.state)
    (signal : g.signalled = f.signalled) : ControlOk g r := by
  cases r <;> simp only [ControlOk, state, signal] at ok ⊢ <;> exact ok

variable (inv : FlowInv f ps) (here : ps[i]? = some p) (move : FlowMove f p g q)

include inv here move

theorem FlowInv.control_other (there : ps[j]? = some r) (other : j ≠ i) : ControlOk g r := by
  have ok := inv.control r (mem_of_getElem? there)
  have complete := inv.complete p (mem_of_getElem? here)
  by_cases call : controls r = false
  · exact controlOk_of_call call
  have control : controls r = true := by simpa using call
  -- the moving thread is not thread 0
  have mover := inv.others_call there control here other.symm
  have waits (dr : ∃ r ∈ ps, drains r = true) : drains r = true := by
    by_contra busy
    exact inv.not_drained there control (by simpa using busy) dr
  cases move with
  | mark =>
    have dr := waits complete.2.1
    cases r with
    | waiting | completing => exact nofun
    | _ => cases dr
  | notify =>
    have dr := waits complete.2.2.1
    cases r <;> first | exact ok | cases dr
  | startAdd | startRun | startClear | stopMark | stopReason | stopClear | stopMask | wake =>
    cases mover
  | _ => exact ok.keep rfl rfl

theorem FlowInv.control_moved : ControlOk g q := by
  have state := inv.control p (mem_of_getElem? here)
  cases move with
  | stay | lock | check | pass | notify | startCall | stopCall | startAdd | startClear
  | stopReason | stopMask => exact state
  | released _ n _ gives =>
    cases p with
    | stopReleasing =>
      cases gives
      exact fun run => nomatch state.1.symm.trans run
    | _ => cases gives <;> trivial
  | drained _ n _ gives =>
    cases p with
    | stopReleasing => exact fun _ run => nomatch state.1.symm.trans run
    | _ => cases gives <;> exact nofun
  | unlock caller =>
    cases caller with
    | stop => exact state rfl
    | _ => trivial
  | mark => exact fun _ => nofun
  | startFound _ found | stopFound _ _ found => exact found
  | startReturn stopped other =>
    cases stopped with
    | true => exact absurd state other
    | false => exact state
  | startRun | stopMark => rfl
  | stopReturn stopped _ other =>
    cases stopped with
    | true => exact state
    | false => exact absurd state other
  | stopClear => exact ⟨state, rfl⟩
  | wake awake => exact inv.woken ⟨_, mem_of_getElem? here, rfl⟩ awake
  | _ => trivial

theorem FlowInv.keep_control : ∀ r ∈ ps.set i q, ControlOk g r :=
  forall_mem_move (inv.control_moved here move)
    fun _ _ other before => inv.control_other here move before other

theorem FlowInv.keep_woken :
    (∃ r ∈ ps.set i q, drains r = true) → g.signalled = true → g.state = .stopped := by
  have state := inv.control p (mem_of_getElem? here)
  have complete := inv.complete p (mem_of_getElem? here)
  -- a drain that was there before
  have old (same : drains q = true → drains p = true) (dr : ∃ r ∈ ps.set i q, drains r = true) :
      ∃ r ∈ ps, drains r = true := by
    obtain ⟨r, member, draining⟩ := dr
    obtain ⟨j, there⟩ := getElem?_of_mem member
    rcases getElem?_move there with ⟨-, rfl⟩ | ⟨-, before⟩
    · exact ⟨p, mem_of_getElem? here, same draining⟩
    · exact ⟨r, mem_of_getElem? before, draining⟩
  cases move with
  | mark => exact fun _ _ => rfl
  | notify => exact fun _ _ => complete.1
  | wake awake => exact fun _ _ => inv.woken ⟨_, mem_of_getElem? here, rfl⟩ awake
  | stopClear => exact nofun
  | startRun | stopMark =>
    exact fun dr _ => absurd (old nofun dr) (inv.not_drained here rfl rfl)
  | released _ n _ gives | drained _ n _ gives =>
    cases p with
    | stopReleasing => exact fun _ awake => nomatch state.2.symm.trans awake
    | withdrawing | releasing =>
      cases gives
      exact fun dr => inv.woken (old nofun dr)
    | _ => cases gives
  | unlock caller => exact fun dr => inv.woken (old (by cases caller <;> exact id) dr)
  | _ => exact fun dr => inv.woken (old id dr)

theorem FlowInv.keep_lock : (ps.set i q).countP holdsLock = g.locked.toNat := by
  have count := inv.lock
  have moved := countP_move here q holdsLock
  have same (eq : holdsLock q = holdsLock p) : (ps.set i q).countP holdsLock = f.locked.toNat :=
    (countP_same here q holdsLock eq).trans inv.lock
  cases move with
  | lock _ _ free =>
    rw [free] at count
    simp only [holdsLock] at moved
    simpa [count] using moved
  | unlock caller =>
    have none : holdsLock (afterCompleting caller) = false := by cases caller <;> rfl
    rw [none, count] at moved
    cases locked : f.locked <;> simp_all [holdsLock]
  | released _ n _ gives | drained _ n _ gives =>
    exact same (by cases p <;> cases gives <;> rfl)
  | _ => exact same rfl

theorem FlowInv.keep (regular : FlowRegular f ps p) : FlowInv g (ps.set i q) := by
  have control := inv.keep_control here move
  refine ⟨?_, control, (inv.keep_word here move regular).1, (inv.keep_word here move regular).2,
    inv.keep_empty here move regular, ?_, inv.keep_woken here move, inv.keep_lock here move⟩
  · exact (countP_same here q controls move.controls_eq).trans inv.one
  · exact forall_mem_move (inv.complete_moved here move regular control)
      fun _ _ other before => inv.complete_other here move regular before other

end Step

/-! ## The signals -/

/-- The signals that ended the `Stop` named. -/
def signalsOf (f : Flow) (n : Nat) : List Signal := f.signals.filter fun g => g.stop = n

/-- What is known about the signals at each point of thread 0. -/
def StopOk (f : Flow) : FlowPoint → Prop
  | .stopReasoning _ | .stopClearing => signalsOf f f.stopNo = [] ∧ f.stopNo ∉ f.finished
  | .stopMasking | .stopReleasing | .waiting =>
    signalsOf f f.stopNo = (if f.signalled then [⟨f.stopNo, f.stopNo⟩] else []) ∧
      f.stopNo ∉ f.finished
  | .completing caller _ _ => caller = .stop →
      signalsOf f f.stopNo = (if f.signalled then [⟨f.stopNo, f.stopNo⟩] else []) ∧
        f.stopNo ∉ f.finished
  | .outside _ | .startChecking _ | .startAdding | .startRunning | .startClearing
  | .stopChecking _ _ | .stopMarking _ => 0 < f.stopNo → f.stopNo ∈ f.finished
  | _ => True

/-- Every `Stop` that has returned was ended by one signal, its own. -/
structure SignalInv (f : Flow) (ps : List FlowPoint) : Prop where
  past : ∀ g ∈ f.signals, g.stop ≤ f.stopNo
  once : ∀ n ∈ f.finished, n ≤ f.stopNo ∧ signalsOf f n = [⟨n, n⟩]
  earlier : ∀ n, 0 < n → n < f.stopNo → n ∈ f.finished
  stop : ∀ p ∈ ps, StopOk f p

section Signals

variable {ps} {i : Nat}

theorem stopOk_of_call (call : controls r = false) : StopOk g r := by
  cases r with
  | completing =>
    intro stop
    simp [controls, stop] at call
  | _ => trivial

theorem StopOk.silent (ok : StopOk f r) (waits : drains r = true) (silent : f.signalled = false) :
    signalsOf f f.stopNo = [] ∧ f.stopNo ∉ f.finished := by
  cases r with
  | completing =>
    have both := ok (by simpa [drains] using waits)
    rwa [silent] at both
  | waiting =>
    have both : _ ∧ _ := ok
    rwa [silent] at both
  | _ => cases waits

theorem StopOk.keep (ok : StopOk f r) (signals : g.signals = f.signals)
    (finished : g.finished = f.finished) (number : g.stopNo = f.stopNo)
    (signal : g.signalled = f.signalled) : StopOk g r := by
  cases r <;> simp only [StopOk, signalsOf, signals, finished, number, signal] at ok ⊢ <;> exact ok

theorem SignalInv.keep_of_same (sig : SignalInv f ps) (signals : g.signals = f.signals)
    (finished : g.finished = f.finished) (number : g.stopNo = f.stopNo)
    (signal : g.signalled = f.signalled) (own : StopOk g q) : SignalInv g (ps.set i q) := by
  refine ⟨?_, ?_, ?_, ?_⟩
  · rw [signals, number]
    exact sig.past
  · simp only [signalsOf, signals, finished, number]
    exact sig.once
  · rw [finished, number]
    exact sig.earlier
  · exact forall_mem_set (fun r old => (sig.stop r old).keep signals finished number signal) own

theorem signalsOf_append (n : Nat) (signal : Signal) (signals : List Signal) :
    (signals ++ [signal]).filter (fun g => g.stop = n) =
      signals.filter (fun g => g.stop = n) ++ if signal.stop = n then [signal] else [] := by
  by_cases same : signal.stop = n <;> simp [same]

section

variable (inv : FlowInv f ps)

include inv

/-- The signal ends the `Stop` that waits for it. -/
theorem SignalInv.notify (sig : SignalInv f ps)
    (here : ps[i]? = some (.completing caller cause .notifying)) :
    SignalInv { f with signalled := true, signals := f.signals ++ [⟨cause, f.stopNo⟩] }
      (ps.set i (.completing caller cause .unlocking)) := by
  obtain ⟨-, silent, ⟨c, waiting, waits⟩, -, caused⟩ := inv.complete _ (mem_of_getElem? here)
  subst caused
  obtain ⟨none, unfinished⟩ := (sig.stop c waiting).silent waits silent
  have own : ∀ r ∈ ps.set i (.completing caller f.stopNo .unlocking), controls r = true →
      drains r = true := by
    intro r member control
    have one : (ps.set i (.completing caller f.stopNo .unlocking)).countP controls ≤ 1 :=
      le_of_eq ((countP_same here (.completing caller f.stopNo .unlocking) controls rfl).trans
        inv.one)
    obtain ⟨d, there, stays⟩ : ∃ d ∈ ps.set i (.completing caller f.stopNo .unlocking),
        drains d = true := exists_mem_move here id ⟨c, waiting, waits⟩
    rw [eq_of_countP_le_one one member control there (controls_of_drains stays)]
    exact stays
  refine ⟨?_, ?_, sig.earlier, ?_⟩
  · exact forall_mem_concat sig.past le_rfl
  · intro n member
    obtain ⟨le, once⟩ := sig.once n member
    refine ⟨le, ?_⟩
    have other : f.stopNo ≠ n := fun same => unfinished (same ▸ member)
    simp only [signalsOf, signalsOf_append, if_neg other, append_nil]
    exact once
  · intro r member
    have first :
        signalsOf { f with signalled := true, signals := f.signals ++ [⟨f.stopNo, f.stopNo⟩] }
          f.stopNo = [⟨f.stopNo, f.stopNo⟩] := by
      simp only [signalsOf, signalsOf_append, if_true] at none ⊢
      rw [none, nil_append]
    by_cases control : controls r = true
    · have dr := own r member control
      cases r with
      | completing => exact fun _ => ⟨first, unfinished⟩
      | waiting => exact ⟨first, unfinished⟩
      | _ => cases dr
    · exact stopOk_of_call (by simpa using control)

theorem FlowInv.only_stop (here : ps[i]? = some p) (control : controls p = true)
    (own : StopOk g q) : ∀ r ∈ ps.set i q, StopOk g r :=
  forall_mem_move own fun _ _ other old => stopOk_of_call (inv.others_call here control old other)

theorem SignalInv.mark (sig : SignalInv f ps) {reason : Nat}
    (here : ps[i]? = some (.stopMarking reason)) :
    SignalInv { f with state := .stopping, stopNo := f.stopNo + 1 }
      (ps.set i (.stopReasoning reason)) := by
  have before : 0 < f.stopNo → f.stopNo ∈ f.finished := sig.stop _ (mem_of_getElem? here)
  refine ⟨?_, ?_, ?_, ?_⟩
  · exact fun g member => Nat.le_succ_of_le (sig.past g member)
  · exact fun n member => ⟨Nat.le_succ_of_le (sig.once n member).1, (sig.once n member).2⟩
  · intro n pos le
    rcases Nat.lt_succ_iff_lt_or_eq.mp le with lt | rfl
    · exact sig.earlier n pos lt
    · exact before pos
  · refine inv.only_stop here rfl ⟨?_, fun member => ?_⟩
    · refine filter_eq_nil_iff.mpr fun g member same => ?_
      have le := sig.past g member
      simp only [decide_eq_true_eq] at same
      omega
    · have le := (sig.once (f.stopNo + 1) member).1
      omega

theorem SignalInv.wake (sig : SignalInv f ps) (here : ps[i]? = some .waiting)
    (awake : f.signalled = true) :
    SignalInv { f with finished := f.finished ++ [f.stopNo] } (ps.set i (.outside true)) := by
  obtain ⟨once, -⟩ : _ ∧ _ := sig.stop _ (mem_of_getElem? here)
  rw [awake] at once
  refine ⟨sig.past, ?_, ?_, ?_⟩
  · exact forall_mem_concat sig.once ⟨le_rfl, once⟩
  · exact fun n pos lt => mem_append_left _ (sig.earlier n pos lt)
  · exact inv.only_stop here rfl fun _ => mem_append_right _ (mem_singleton.mpr rfl)

theorem SignalInv.keep (sig : SignalInv f ps) (here : ps[i]? = some p)
    (move : FlowMove f p g q) : SignalInv g (ps.set i q) := by
  have own := sig.stop p (mem_of_getElem? here)
  cases move with
  | notify => exact SignalInv.notify inv sig here
  | stopMark => exact SignalInv.mark inv sig here
  | wake awake => exact SignalInv.wake inv sig here awake
  | stopClear =>
    obtain ⟨none, unfinished⟩ : _ ∧ _ := own
    exact ⟨sig.past, sig.once, sig.earlier, inv.only_stop here rfl ⟨none, unfinished⟩⟩
  | released _ n _ gives =>
    refine sig.keep_of_same rfl rfl rfl rfl ?_
    cases p <;> cases gives <;> trivial
  | drained _ n _ gives =>
    refine sig.keep_of_same rfl rfl rfl rfl ?_
    cases p with
    | stopReleasing => exact fun _ => own
    | _ => cases gives <;> exact nofun
  | unlock caller =>
    refine sig.keep_of_same rfl rfl rfl rfl ?_
    cases caller with
    | stop => exact own rfl
    | _ => trivial
  | accept | reject | refuse => exact sig.keep_of_same rfl rfl rfl rfl trivial
  | _ => exact sig.keep_of_same rfl rfl rfl rfl own

end

end Signals

/-! ## Runs -/

/-- A call of `RegisterOutstandingItems` or `UnregisterOutstandingItems` begins. -/
def callPoint : FlowPoint → Bool
  | .adding _ | .releasing _ => true
  | _ => false

section Call

variable {ps} {x : FlowPoint} {available : Nat}

theorem FlowInv.call (inv : FlowInv f ps) (call : callPoint x = true)
    (total : available + heldItems x = f.available) :
    FlowInv { f with available := available } (ps ++ [x]) := by
  have own : share x = heldItems x ∧ controls x = false ∧ masks x = false ∧ drains x = false ∧
      holdsLock x = false := by
    cases x <;> first | exact ⟨rfl, rfl, rfl, rfl, rfl⟩ | cases call
  obtain ⟨_, control, bit, busy, free⟩ := own
  have shares : ((ps ++ [x]).map share).sum = _ := sum_map_start x share
  have held : ((ps ++ [x]).map heldItems).sum = _ := sum_map_start x heldItems
  have count (p : FlowPoint → Bool) (none : p x = false) : (ps ++ [x]).countP p = ps.countP p := by
    rw [countP_start, none]
    rfl
  have waits : (∃ r ∈ ps ++ [x], drains r = true) → ∃ r ∈ ps, drains r = true := by
    simp [busy]
  have items : outstandingItems { f with available := available } (ps ++ [x]) =
      outstandingItems f ps := by
    simp only [outstandingItems]
    omega
  have drained {cause : Nat} (old : Drained f ps cause) :
      Drained { f with available := available } (ps ++ [x]) cause := by
    obtain ⟨⟨r, member, dr⟩, none, caused⟩ := old
    exact ⟨⟨r, mem_append_left _ member, dr⟩, items.trans none, caused⟩
  have small := inv.small
  have word := inv.word
  refine ⟨(count controls control).trans inv.one, ?_, by simp only; omega, ?_, ?_, ?_, ?_, ?_⟩
  · exact forall_mem_concat (fun r old => (inv.control r old).keep rfl rfl)
      (controlOk_of_call control)
  · rw [count masks bit]
    simp only
    omega
  · rw [count masks bit, items]
    exact inv.empty
  · refine forall_mem_concat (fun r old => (inv.complete r old).imp rfl rfl drained) ?_
    cases x with
    | completing => cases call
    | _ => trivial
  · exact fun dr => inv.woken (waits dr)
  · rw [count holdsLock free]
    exact inv.lock

theorem SignalInv.call (sig : SignalInv f ps) (call : callPoint x = true) :
    SignalInv { f with available := available } (ps ++ [x]) := by
  refine ⟨sig.past, sig.once, sig.earlier, ?_⟩
  exact forall_mem_concat (fun r old => (sig.stop r old).keep rfl rfl rfl rfl)
    (stopOk_of_call (by cases x <;> first | rfl | cases call))

end Call

def FlowRunInv (s : FlowRun) : Prop :=
  FlowInv s.flow (flowPoints s) ∧ SignalInv s.flow (flowPoints s)

theorem flowRunInv_start : FlowRunInv flowStart := by
  constructor
  · exact ⟨rfl, forall_mem_singleton.mpr rfl, by decide, by decide, fun _ _ => rfl,
      forall_mem_singleton.mpr trivial, nofun, rfl⟩
  · exact ⟨nofun, nofun, fun n _ lt => absurd lt (Nat.not_lt_zero n),
      forall_mem_singleton.mpr fun pos => absurd pos (lt_irrefl 0)⟩

theorem FlowRunInv.move (inv : FlowRunInv s) {i : Nat} (here : (flowPoints s)[i]? = some p)
    (move : FlowMove s.flow p g q) (regular : FlowRegular s.flow (flowPoints s) p) :
    FlowRunInv (moveTo { s with flow := g } q i) := by
  cases i <;> exact ⟨inv.1.keep here move regular, SignalInv.keep inv.1 inv.2 here move⟩

/-- Every regular step ends and keeps both invariants. -/
theorem FlowRunInv.step (inv : FlowRunInv s) {op : FlowOp} (may : flowRegular s op) :
    ∃ t out, flowStep s op = .ok (t, out) ∧ FlowRunInv t := by
  obtain ⟨allowed, regular⟩ := may
  cases op with
  | register =>
    exact ⟨_, _, rfl, inv.1.call rfl rfl, inv.2.call rfl⟩
  | unregister =>
    refine ⟨_, _, rfl, inv.1.call rfl ?_, inv.2.call rfl⟩
    exact Nat.sub_add_cancel allowed
  | start =>
    cases point : s.control with
    | outside stopped =>
      refine ⟨{ s with control := .startChecking stopped }, (), by simp only [flowStep, point], ?_⟩
      exact inv.move (i := 0) (congrArg some point) (.startCall stopped) trivial
    | _ => exact ⟨s, (), by simp only [flowStep, point], inv⟩
  | stop reason =>
    cases point : s.control with
    | outside stopped =>
      refine ⟨{ s with control := .stopChecking stopped reason }, (),
        by simp only [flowStep, point], ?_⟩
      exact inv.move (i := 0) (congrArg some point) (.stopCall stopped reason) trivial
    | _ => exact ⟨s, (), by simp only [flowStep, point], inv⟩
  | advance i =>
    cases here : (flowPoints s)[i]? with
    | none => exact ⟨s, (), by simp only [flowStep, here], inv⟩
    | some p =>
      refine ⟨moveTo { s with flow := (flowAdvance s.flow p).1 } (flowAdvance s.flow p).2 i, (),
        by simp only [flowStep, here], ?_⟩
      exact inv.move here (flowMove_advance s.flow p) (regular p here)

/-- **`Stop` waits.**  Along every run in which the count stays below the bit and no
`CompleteStopping` is left over when a `Stop` marks the state: when `Stop` has returned and
`Start` has not been called again, no item is outstanding and no registration goes through;
and every `Stop` that has returned was ended by one signal, which its own drain gave. -/
theorem stop_waits {s : FlowRun} (reach : Reachable (· = flowStart) (Next flowStep flowRegular) s) :
    (s.control = .outside true → outstandingItems s.flow (flowPoints s) = 0 ∧
        ∀ n, CountFits s.flow n.toNat → (flowAdvance s.flow (.adding n)).2 = .withdrawing n) ∧
      ∀ b, s.control = .outside b →
        ∀ n, 0 < n → n ≤ s.flow.stopNo → signalsOf s.flow n = [⟨n, n⟩] := by
  have inv : FlowRunInv s := reach.machine_run flowRunInv_start fun _ _ inv may => inv.step may
  obtain ⟨inv, sig⟩ := inv
  refine ⟨fun outside => ?_, fun b outside n pos le => ?_⟩
  · have here : (flowPoints s)[0]? = some (.outside true) := congrArg some outside
    have state : s.flow.state = .stopped := inv.control _ (mem_of_getElem? here)
    have set : (flowPoints s).countP masks = 1 := inv.masks_eq here rfl
    refine ⟨inv.empty set (by rw [state]; decide), fun n fits => ?_⟩
    have refused : (s.flow.counter + n) &&& stoppedMask ≠ 0 := by
      intro clear
      rw [inv.masks_of_admit fits clear] at set
      cases set
    simp only [flowAdvance, if_neg refused]
  · have here : (flowPoints s)[0]? = some (.outside b) := congrArg some outside
    have last : 0 < s.flow.stopNo → s.flow.stopNo ∈ s.flow.finished :=
      sig.stop _ (mem_of_getElem? here)
    rcases Nat.lt_or_eq_of_le le with lt | rfl
    · exact (sig.once n (sig.earlier n pos lt)).2
    · exact (sig.once _ (last pos)).2

/-- One item is registered and released between a `Start` and a `Stop`. -/
theorem stop_waits_one : ∃ s, Reachable (· = flowStart) (Next flowStep flowRegular) s ∧
      s.control = .outside true ∧ s.flow.stopNo = 1 ∧
      outstandingItems s.flow (flowPoints s) = 0 ∧ signalsOf s.flow 1 = [⟨1, 1⟩] := by
  have replay : ∃ s ∈ attempt flowStep flowRegular flowStart
      [.start, .advance 0, .advance 0, .advance 0, .advance 0, .register 1, .advance 1,
        .stop 7, .advance 0, .advance 0, .advance 0, .advance 0, .advance 0, .advance 0,
        .unregister 1, .advance 2, .advance 2, .advance 2, .advance 2, .advance 2, .advance 2,
        .advance 0], s.control = .outside true ∧ s.flow.stopNo = 1 := by
    decide +kernel
  obtain ⟨s, reach, control, number⟩ := reachable_of_replay _ replay
  have waits := stop_waits reach
  exact ⟨s, reach, control, number, (waits.1 control).1,
    waits.2 true control 1 (by decide) (le_of_eq number.symm)⟩

/-- **A `Stop` that does not wait.**  A rejected registration takes its items back before
`Start` and calls `CompleteStopping` after the next `Stop` has marked the state: that `Stop`
returns while an item is outstanding. -/
theorem stop_returned_early : ∃ s, Reachable (· = flowStart) (Next flowStep flowAllowed) s ∧
      s.control = .outside true ∧ outstandingItems s.flow (flowPoints s) = 1 ∧
      signalsOf s.flow 1 = [⟨0, 1⟩] := by
  refine reachable_of_replay [.register 1, .advance 1, .advance 1,
      .start, .advance 0, .advance 0, .advance 0, .advance 0, .register 1, .advance 2,
      .stop 7, .advance 0, .advance 0, .advance 0, .advance 0,
      .advance 1, .advance 1, .advance 1, .advance 1, .advance 1,
      .advance 0, .advance 0, .advance 0] ?_
  decide +kernel

end KvmGuestDrivers.NetKvm

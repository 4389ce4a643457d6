/-
# VioStor.Adapter -- the features and the queues of the block driver

What the requests of viostor have in common: the features and the geometry of the device,
`MESSAGENUMBER_TO_QUEUE`, which turns the message number that Storport reports into a queue and a
message id, and `VioStorVQLock`, which picks the lock of a message id.
-/
import Mathlib.Algebra.GroupWithZero.Nat

namespace KvmGuestDrivers.VioStor

set_option autoImplicit false

/-- The values of `SrbStatus` that the modelled functions set. -/
inductive SrbStatus where
  | pending
  | success
  | aborted
  | error
  | errorAutosense
  | busy
  | invalidRequest
  | noDevice
  | busReset
  | badSrbBlockLength
  | badFunction
  | dataOverrun
  | invalidTargetId
  deriving DecidableEq

/-! ## Geometry -/

def sectorSize : Nat := 512

/-- The features of the device that the modelled functions test. -/
structure BlkFeatures where
  sizeMax : Bool
  discard : Bool
  flush : Bool
  ro : Bool

/-- The fields of `info` that the modelled functions read. -/
structure BlkConfig where
  capacity : Nat
  sizeMax : Nat
  segMax : Nat
  blkSize : Nat

/-! ## Queues -/

/-- The fields of the adapter extension that decide about queues and locks. -/
structure QueueSetup where
  numQueues : Nat
  msixEnabled : Bool
  msixOneVector : Bool
  dpcOk : Bool
  short : numQueues < 2 ^ 16

/-- `MAX_CPU`, the length of `vq` and of `processing_srbs`. -/
def maxCpu : Nat := 256

/-- The locks of Storport: that of a DPC of the adapter, that of an MSI message, and that of the
interrupt. -/
inductive StorLock where
  | dpc (i : Nat)
  | msi (message : Nat)
  | interrupt
  deriving DecidableEq

variable (a : QueueSetup)

variable (messageId : Nat)

/-- `VioStorVQLock`; in an interrupt routine no further lock is taken. -/
def vioStorVQLock (isr : Bool) : Option StorLock :=
  if isr then none
  else if a.msixEnabled then
    if 1 < a.numQueues then some (.dpc ((messageId + (2 ^ 32 - 1)) % 2 ^ 32))
    else some (.msi (if a.msixOneVector then 0 else messageId))
  else some .interrupt

/-- `MESSAGENUMBER_TO_QUEUE`: `QueueNumber` and `MessageId`. -/
def messageNumberToQueue (numQueues messageNumber : Nat) : Nat × Nat :=
  if messageNumber ≠ 0 then
    let queueNumber := messageNumber - 1
    if numQueues ≤ queueNumber then (queueNumber % numQueues, (messageNumber + 1) % 2 ^ 32)
    else (queueNumber, messageNumber)
  else (0, 1)

/-- The choice of `RhelDoReadWrite`, `RhelDoFlush`, `RhelDoUnMap` and `RhelGetSerialNumber`;
`param` is the message number of `StorPortGetStartIoPerfParams`, if it succeeds. -/
def chooseQueue (param : Option Nat) : Nat × Nat :=
  if 1 < a.numQueues then
    match param with
    | some messageNumber => messageNumberToQueue a.numQueues messageNumber
    | none => (0, 1)
  else (0, 1)

/-- The choice of `RhelDoFlush` for a request that is sent again: from `MessageID` of the SRB. -/
def resendQueue : Nat × Nat := ((messageId + (2 ^ 32 - 1)) % 2 ^ 32, messageId)

/-- `VioStorCompleteRequest`: the index of the queue and of the list of a message id. -/
def completionQueue : Nat := (messageId + (2 ^ 32 - 1)) % 2 ^ 32

/-- The message id that `VirtIoMSInterruptRoutine` or `VirtIoInterrupt` hands on when a queue
interrupts: one vector for all queues, and a line interrupt, stand for the first queue. -/
def completionMessage (queue : Nat) : Nat :=
  if a.msixEnabled && !a.msixOneVector then queue + 1 else 1

/-- The lock that is held while `VioStorCompleteRequest` runs for a message id: the one it takes in
the DPC, and without DPCs the one that Storport holds around the interrupt routine. -/
def completionLock : Option StorLock :=
  if a.dpcOk then vioStorVQLock a messageId false
  else if a.msixEnabled then some (.msi (if a.msixOneVector then 0 else messageId))
  else some .interrupt

theorem messageNumberToQueue_paired {numQueues messageNumber : Nat} (existing : 1 ≤ numQueues)
    (inside : messageNumber ≤ numQueues) :
    (messageNumberToQueue numQueues messageNumber).1 < numQueues ∧
      (messageNumberToQueue numQueues messageNumber).2 =
        (messageNumberToQueue numQueues messageNumber).1 + 1 := by
  cases messageNumber with
  | zero => exact ⟨existing, rfl⟩
  | succ queueNumber =>
    have below : ¬ numQueues ≤ queueNumber + 1 - 1 := by omega
    rw [messageNumberToQueue]
    simp only [if_neg below]
    exact ⟨inside, rfl⟩

variable {a}

/-- With a message number up to the number of queues, the message id of a request is the one that
`VioStorCompleteRequest` gets for its queue. -/
theorem chooseQueue_paired {param : Option Nat} (existing : 1 ≤ a.numQueues)
    (inside : ∀ messageNumber ∈ param, messageNumber ≤ a.numQueues) :
    (chooseQueue a param).1 < a.numQueues ∧
      (chooseQueue a param).2 = (chooseQueue a param).1 + 1 := by
  unfold chooseQueue
  split
  · cases param with
    | none => exact ⟨existing, rfl⟩
    | some messageNumber => exact messageNumberToQueue_paired existing (inside messageNumber rfl)
  · exact ⟨existing, rfl⟩

end KvmGuestDrivers.VioStor

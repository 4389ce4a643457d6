/-
# VioScsi.Queues -- the queue and the lock of a request, in both storage drivers

Storport tells a driver the number of the message that it wants a request to be completed with.  The
driver makes a queue of it, and takes the lock of that queue; the completion routine makes queue,
lock and list of the message that has arrived.  In `vioscsi` the request queues come after the
control queue and the event queue.
-/
import KvmGuestDrivers.VioStor.Adapter
import Mathlib.Tactic.ByContra
import Mathlib.Tactic.SplitIfs

namespace KvmGuestDrivers.VioScsi

set_option autoImplicit false

open VioStor

/-- The fields of the adapter extension that decide about queues and locks. -/
structure ScsiSetup where
  numQueues : Nat
  dpcOk : Bool

/-- `VIRTIO_SCSI_REQUEST_QUEUE_0`: the control queue and the event queue come first. -/
def requestQueue0 : Nat := 2

def messageToQueue (messageId : Nat) : Nat := (messageId + (2 ^ 32 - 1)) % 2 ^ 32

variable (queueNumber : Nat)

def queueToMessage : Nat := (queueNumber + 1) % 2 ^ 32

/-- The reduction of `SendSRB` and `ProcessBuffer`. -/
def reduceQueue (numQueues queueNumber : Nat) : Nat :=
  if (numQueues + requestQueue0) % 2 ^ 32 ≤ queueNumber then queueNumber % numQueues
  else queueNumber

variable (a : ScsiSetup)

/-- The choice of `SendSRB`; `param` is the message number of `StorPortGetStartIoPerfParams`, if it
succeeds. -/
def sendSrbQueue (param : Option Nat) : Nat :=
  if 1 < a.numQueues then
    match param with
    | some messageNumber =>
      if messageNumber ≠ 0 then reduceQueue a.numQueues (messageToQueue messageNumber)
      else requestQueue0
    | none => requestQueue0
  else requestQueue0

/-- `vq_req_idx`: the index into `dpc` and `processing_srbs`. -/
def vqReqIdx : Nat := (queueNumber + (2 ^ 32 - requestQueue0)) % 2 ^ 32

def sendSrbLock : StorLock := .dpc (vqReqIdx queueNumber)

def processBufferQueue (messageId : Nat) : Nat :=
  reduceQueue a.numQueues (messageToQueue messageId)

/-- The lock of `ProcessBuffer`: `DpcLock` in the DPC, and `InterruptLock` without DPCs. -/
def processBufferLock (messageId : Nat) : StorLock :=
  if a.dpcOk then .dpc (vqReqIdx (processBufferQueue a messageId)) else .interrupt

/-- `VIRTIO_SCSI_QUEUE_LAST`, the length of `vq`. -/
def queueLast : Nat := requestQueue0 + maxCpu

/-- A message number from which `SendSRB` gets a request queue inside `vq`. -/
def MessageRegular (numQueues messageNumber : Nat) : Prop :=
  messageNumber = 0 ∨
    3 ≤ messageNumber ∧ messageNumber < numQueues + 3 ∧ messageNumber ≤ queueLast ∨
    numQueues + 3 ≤ messageNumber ∧ messageNumber < 2 ^ 32 ∧
      requestQueue0 ≤ (messageNumber - 1) % numQueues ∧ (messageNumber - 1) % numQueues < queueLast

instance (numQueues messageNumber : Nat) : Decidable (MessageRegular numQueues messageNumber) :=
  inferInstanceAs (Decidable (_ ∨ _ ∧ _ ∧ _ ∨ _ ∧ _ ∧ _ ∧ _))

theorem MessageRegular.word {numQueues messageNumber : Nat}
    (regular : MessageRegular numQueues messageNumber) : messageNumber < 2 ^ 32 := by
  rcases regular with rfl | ⟨-, -, last⟩ | ⟨-, word, -⟩
  · decide
  · exact Nat.lt_of_le_of_lt last (by decide)
  · exact word

variable {queueNumber} {a} {param : Option Nat}

section Request

-- `num_queues` is at most the number of processors, as a `USHORT`
variable (short : a.numQueues < 2 ^ 16)

include short

theorem reduceQueue_existing (inside : queueNumber < a.numQueues + requestQueue0) :
    reduceQueue a.numQueues queueNumber = queueNumber := by
  refine if_neg ?_
  unfold requestQueue0 at *
  omega

theorem processBufferQueue_message (inside : queueNumber < a.numQueues + requestQueue0) :
    processBufferQueue a (queueToMessage queueNumber) = queueNumber := by
  have back : messageToQueue (queueToMessage queueNumber) = queueNumber := by
    unfold messageToQueue queueToMessage
    unfold requestQueue0 at inside
    omega
  rw [processBufferQueue, back, reduceQueue_existing short inside]

variable (a) in
def RequestQueue (queueNumber : Nat) : Prop :=
  requestQueue0 ≤ queueNumber ∧ queueNumber < a.numQueues + requestQueue0 ∧ queueNumber < queueLast

omit short in
theorem requestQueue_first : RequestQueue a requestQueue0 ↔ 1 ≤ a.numQueues := by
  unfold RequestQueue requestQueue0 queueLast maxCpu
  omega

/-- The message numbers that give a request queue. -/
theorem requestQueue_message {messageNumber : Nat} (several : 1 < a.numQueues)
    (word : messageNumber < 2 ^ 32) :
    RequestQueue a (sendSrbQueue a (some messageNumber)) ↔
      MessageRegular a.numQueues messageNumber := by
  unfold sendSrbQueue MessageRegular
  simp only [if_pos several]
  by_cases zero : messageNumber = 0
  · rw [if_neg (not_not.mpr zero), requestQueue_first]
    exact iff_of_true (by omega) (.inl zero)
  have queue : messageToQueue messageNumber = messageNumber - 1 := by
    unfold messageToQueue
    omega
  rw [if_pos zero, queue]
  unfold RequestQueue queueLast maxCpu requestQueue0
  by_cases beyond : a.numQueues + 3 ≤ messageNumber
  · have below := Nat.mod_lt (messageNumber - 1) (show a.numQueues > 0 by omega)
    rw [reduceQueue, if_pos (by unfold requestQueue0; omega)]
    omega
  · rw [reduceQueue_existing short (by unfold requestQueue0; omega)]
    omega

/-- `SendSRB` gets a request queue from one queue, or from several and a regular message number. -/
theorem requestQueue_sendSrb (words : ∀ m ∈ param, m < 2 ^ 32) :
    RequestQueue a (sendSrbQueue a param) ↔
      a.numQueues = 1 ∨ 1 < a.numQueues ∧ ∀ m ∈ param, MessageRegular a.numQueues m := by
  by_cases several : 1 < a.numQueues
  · rw [or_iff_right (by omega), and_iff_right several]
    cases param with
    | none =>
      have first : sendSrbQueue a none = requestQueue0 := if_pos several
      rw [first, requestQueue_first]
      exact iff_of_true (by omega) nofun
    | some m => simpa using requestQueue_message short several (words m rfl)
  · have first : sendSrbQueue a param = requestQueue0 := if_neg several
    rw [first, requestQueue_first]
    omega

end Request

theorem vqReqIdx_request (request : requestQueue0 ≤ queueNumber) (short : queueNumber < 2 ^ 32) :
    vqReqIdx queueNumber = queueNumber - requestQueue0 := by
  unfold vqReqIdx requestQueue0 at *
  omega

/-! ## Both drivers -/

structure StorConsistent (a : QueueSetup) (param : Option Nat) : Prop where
  /-- `vq` and `processing_srbs`. -/
  inside : (chooseQueue a param).1 < a.numQueues ∧ (chooseQueue a param).1 < maxCpu
  lock : vioStorVQLock a (chooseQueue a param).2 false =
    completionLock a (completionMessage a (chooseQueue a param).1)
  dpc : ∀ i, vioStorVQLock a (chooseQueue a param).2 false = some (.dpc i) → i < a.numQueues
  /-- For the flush that is sent again. -/
  stored : (chooseQueue a param).2 = completionMessage a (chooseQueue a param).1
  resend : (resendQueue (chooseQueue a param).2).1 = (chooseQueue a param).1
  list : completionQueue (completionMessage a (chooseQueue a param).1) = (chooseQueue a param).1

structure ScsiConsistent (a : ScsiSetup) (param : Option Nat) : Prop where
  /-- `vq`, and neither the control queue nor the event queue. -/
  inside : requestQueue0 ≤ sendSrbQueue a param ∧
    sendSrbQueue a param < a.numQueues + requestQueue0 ∧ sendSrbQueue a param < queueLast
  /-- `dpc` and `processing_srbs`. -/
  index : vqReqIdx (sendSrbQueue a param) < a.numQueues ∧
    vqReqIdx (sendSrbQueue a param) < maxCpu
  back : processBufferQueue a (queueToMessage (sendSrbQueue a param)) = sendSrbQueue a param
  lock : sendSrbLock (sendSrbQueue a param) =
    processBufferLock a (queueToMessage (sendSrbQueue a param))

/-- `viostor` has one queue.  Or it has several, and the message number, if any, is that of a queue
inside `vq`, and of the first one where all queues share a vector or there is no MSI-X; and with
MSI-X there are DPCs. -/
def StorChoiceRegular (a : QueueSetup) (param : Option Nat) : Prop :=
  a.numQueues = 1 ∨ 1 < a.numQueues ∧
    (∀ m ∈ param, m ≤ a.numQueues ∧ m ≤ maxCpu ∧
      (1 < m → a.msixEnabled = true ∧ a.msixOneVector = false)) ∧
    (a.msixEnabled = true → a.dpcOk = true)

/-- `vioscsi` uses DPCs, and has one queue, or several and a message number that gives a request
queue. -/
def ScsiChoiceRegular (a : ScsiSetup) (param : Option Nat) : Prop :=
  a.dpcOk = true ∧ (a.numQueues = 1 ∨ 1 < a.numQueues ∧ ∀ m ∈ param, MessageRegular a.numQueues m)

section Stor

variable {a : QueueSetup} {m : Nat}

theorem completionMessage_eq_succ (queue : Nat) : queue + 1 = completionMessage a queue ↔
    queue = 0 ∨ a.msixEnabled = true ∧ a.msixOneVector = false := by
  unfold completionMessage
  split
  · rename_i own
    exact iff_of_true rfl (Or.inr (by simpa using own))
  · rename_i shared
    simp only [Bool.and_eq_true, Bool.not_eq_true'] at shared
    simp [shared]

/-- With several queues and MSI-X the lock of a message id is that of a DPC, which the completion
has only in the DPC. -/
theorem lock_iff (messageId : Nat) : vioStorVQLock a messageId false = completionLock a messageId ↔
    (1 < a.numQueues → a.msixEnabled = true → a.dpcOk = true) := by
  unfold completionLock
  cases dpc : a.dpcOk with
  | true => simp
  | false =>
    by_cases several : 1 < a.numQueues <;> cases msix : a.msixEnabled <;>
      simp [vioStorVQLock, msix, several]

/-- A choice whose message id is the one of its queue. -/
theorem storConsistent_pair {queue : Nat} (is : chooseQueue a param = (queue, queue + 1)) :
    StorConsistent a param ↔ queue < a.numQueues ∧ queue < maxCpu ∧
      (queue = 0 ∨ a.msixEnabled = true ∧ a.msixOneVector = false) ∧
      (1 < a.numQueues → a.msixEnabled = true → a.dpcOk = true) := by
  have short := a.short
  constructor
  · rintro ⟨inside, lock, -, stored, -, -⟩
    rw [is] at inside lock stored
    rw [← stored, lock_iff] at lock
    exact ⟨inside.1, inside.2, (completionMessage_eq_succ queue).mp stored, lock⟩
  · rintro ⟨lt, few, own, dpcs⟩
    have stored := (completionMessage_eq_succ (a := a) queue).mpr own
    have back : (queue + 1 + (2 ^ 32 - 1)) % 2 ^ 32 = queue := by omega
    constructor
    · rw [is]
      exact ⟨lt, few⟩
    · rw [is, ← stored]
      exact (lock_iff _).mpr dpcs
    · intro i lock
      rw [is, vioStorVQLock, if_neg Bool.false_ne_true, back] at lock
      split_ifs at lock <;> cases lock
      exact lt
    · rw [is]
      exact stored
    · rw [is]
      exact back
    · rw [is, ← stored]
      exact back

/-- Several queues and a message number of one of them, or none. -/
theorem storConsistent_several {queue : Nat} (several : 1 < a.numQueues)
    (is : chooseQueue a param = (queue, queue + 1)) (lt : queue < a.numQueues) :
    StorConsistent a param ↔ (queue < maxCpu ∧
        (0 < queue → a.msixEnabled = true ∧ a.msixOneVector = false)) ∧
      (a.msixEnabled = true → a.dpcOk = true) := by
  rw [storConsistent_pair is, and_iff_right lt, Nat.pos_iff_ne_zero, ← or_iff_not_imp_left,
    and_assoc]
  simp only [several, true_implies]

theorem storConsistent_iff (words : ∀ m ∈ param, m < 2 ^ 32) :
    StorConsistent a param ↔ StorChoiceRegular a param := by
  unfold StorChoiceRegular
  by_cases several : 1 < a.numQueues
  · rw [or_iff_right (by omega), and_iff_right several]
    have existing : 0 < a.numQueues := by omega
    cases param with
    | none =>
      rw [storConsistent_several several (show chooseQueue a none = (0, 0 + 1) from
        if_pos several) existing]
      simp [maxCpu]
    | some m =>
      have word := words m rfl
      have choice : chooseQueue a (some m) = messageNumberToQueue a.numQueues m := if_pos several
      simp only [Option.mem_def, Option.some.injEq, forall_eq']
      by_cases inside : m ≤ a.numQueues
      · have is : chooseQueue a (some m) = (m - 1, m - 1 + 1) := by
          rcases Nat.eq_zero_or_pos m with rfl | positive
          · exact choice
          · rw [choice, messageNumberToQueue, if_pos (by omega)]
            dsimp only
            rw [if_neg (by omega), Nat.sub_add_cancel positive]
        rw [storConsistent_several several is (by omega), and_iff_right inside]
        refine and_congr_left' (and_congr ?_ (imp_congr_left (by omega)))
        unfold maxCpu
        omega
      · -- the message id is larger than that of any queue, or zero
        refine iff_of_false (fun consistent => ?_) fun regular => inside regular.1.1
        have stored := consistent.stored
        have below := consistent.inside.1
        rw [choice, messageNumberToQueue, if_pos (by omega), if_pos (by omega)] at stored below
        simp only [completionMessage] at stored below
        split_ifs at stored <;> omega
  · have one : chooseQueue a param = (0, 0 + 1) := if_neg several
    rw [storConsistent_pair one]
    simp only [several, maxCpu, false_implies, false_and, or_false, true_or, and_true]
    omega

end Stor

theorem scsiConsistent_iff (short : a.numQueues < 2 ^ 16) (words : ∀ m ∈ param, m < 2 ^ 32) :
    ScsiConsistent a param ↔ ScsiChoiceRegular a param := by
  rw [ScsiChoiceRegular, ← requestQueue_sendSrb short words]
  constructor
  · rintro ⟨inside, -, -, lock⟩
    refine ⟨?_, inside⟩
    by_contra interrupts
    rw [processBufferLock, if_neg interrupts] at lock
    cases lock
  · rintro ⟨dpcs, request, lt, last⟩
    have back := processBufferQueue_message short lt
    refine ⟨⟨request, lt, last⟩, ?_, back, ?_⟩
    · rw [vqReqIdx_request request (by unfold requestQueue0 at lt; omega)]
      unfold queueLast at last
      omega
    · rw [sendSrbLock, processBufferLock, if_pos dpcs, back]

/-- **Queues and locks fit** exactly for the regular choices: both drivers choose a request queue
that exists, and take its lock, its message id and its list. -/
theorem queues_consistent (a : QueueSetup) (b : ScsiSetup) (short : b.numQueues < 2 ^ 16)
    (param : Option Nat) (words : ∀ m ∈ param, m < 2 ^ 32) :
    (StorConsistent a param ↔ StorChoiceRegular a param) ∧
      (ScsiConsistent b param ↔ ScsiChoiceRegular b param) :=
  ⟨storConsistent_iff words, scsiConsistent_iff short words⟩

def fourQueues : QueueSetup := ⟨4, true, false, true, by decide⟩

def fourScsiQueues : ScsiSetup := ⟨4, true⟩

/-- The last queue of four; and message 11 of `vioscsi`, which is reduced to the first. -/
theorem queues_consistent_last :
    StorConsistent fourQueues (some 4) ∧ ScsiConsistent fourScsiQueues (some 6) ∧
      ScsiConsistent fourScsiQueues (some 11) := by
  have short : fourScsiQueues.numQueues < 2 ^ 16 := by decide
  refine ⟨(queues_consistent fourQueues _ short (some 4) ?_).1.mpr (.inr ⟨?_, ?_, ?_⟩),
    (queues_consistent fourQueues _ short (some 6) ?_).2.mpr ⟨rfl, .inr ⟨?_, ?_⟩⟩,
    (queues_consistent fourQueues _ short (some 11) ?_).2.mpr ⟨rfl, .inr ⟨?_, ?_⟩⟩⟩ <;>
    decide

/-- Message 5 and four queues: `viostor` chooses queue 0, with the message id of queue 5, and so the
lock of a DPC behind the array and a queue that does not exist for the flush.  Two queues on one
vector: the second is completed as the first.  Message 9: `vioscsi` chooses the control queue, and
an index of 4294967294. -/
theorem queues_inconsistent : chooseQueue fourQueues (some 5) = (0, 6) ∧
      vioStorVQLock fourQueues 6 false = some (.dpc 5) ∧
      completionLock fourQueues 1 = some (.dpc 0) ∧ (resendQueue 6).1 = 5 ∧
      chooseQueue ⟨2, true, true, true, by decide⟩ (some 2) = (1, 2) ∧
      completionMessage ⟨2, true, true, true, by decide⟩ 1 = 1 ∧
      sendSrbQueue fourScsiQueues (some 9) = 0 ∧ vqReqIdx 0 = 4294967294 := by
  decide

end KvmGuestDrivers.VioScsi

/-
# NetKvm.TxDrain -- who empties the send queue

`NBLMappingDone` puts a list of buffers into the send queue and then drains the queue itself,
unless it finds that a DPC is waiting for the TX lock: then it leaves the queue to the DPC.  A
DPC announces itself before it takes the lock and takes the announcement back under the lock,
before it drains.  `SendMapped` drains until it finds the queue empty or the virtqueue full.

Calls run one access to a shared variable at a time; the accesses inside the send queue are steps
of `NetKvm.DynamicQueue`, where `NBLMappingDone` is a producer and the call under the TX lock the
consumer.  What is under the TX lock alone, the virtqueue and the buffers of a queued list, is one
step.
-/
import KvmGuestDrivers.NetKvm.DynamicQueue
import Mathlib.Algebra.BigOperators.Group.List.Basic

namespace KvmGuestDrivers.NetKvm

set_option autoImplicit false

open Theory List

/-! ## The machine -/

inductive SubmitTxPacketResult where
  | noPlaceInQueue
  | packetTooLarge
  | success
  | failure
  deriving DecidableEq

/-- The TX path; a list of buffers is named by a number. -/
structure TxPath where
  /-- `m_SendQueue`, and the calls that are inside it. -/
  sendQueue : DynRun Nat
  /-- The number of buffers in `m_Buffers` of a list. -/
  mapped : Nat → Nat
  dpcWaiting : Int
  locked : Bool
  descriptors : Nat
  totalDescriptors : Nat
  freeHWBuffers : Nat
  /-- `m_DescriptorsInUse`: the number of buffers that each descriptor in flight uses. -/
  inUse : List Nat

/-- What a step finds outside the TX path. -/
structure TxChoice where
  completed : Option Nat := none
  /-- Whether `BindToDescriptor` succeeds.  It has no other failure when nothing is copied. -/
  bound : Bool := true
  /-- The entries of the descriptor's scatter list, or one if they are indirect. -/
  usedBuffers : Nat := 1
  added : Bool := true
  restart : Bool := false

inductive SendPoint where
  /-- `HaveMappedNBLs`: `m_Queue.IsEmpty()`. -/
  | ringCheck
  /-- `HaveMappedNBLs`: the read of `m_QueueFullListIsEmpty`. -/
  | flagCheck
  | peeking
  /-- `PopMappedNB` and `SubmitPacket`. -/
  | submitting (nbl : Nat)
  | popping
  deriving DecidableEq

/-- Where a call is: before the operation named.  `dpc` is set in a call from the DPC, `again`
after the queue could not be restarted. -/
inductive TxPoint where
  /-- `NBLMappingDone`: `m_SendQueue.Enqueue`, as a producer of the queue. -/
  | enqueuing (producer : Nat)
  | readingDpc
  /-- `DoPendingTasks`: `m_DpcWaiting.AddRef()`. -/
  | announcing
  | locking (dpc : Bool)
  /-- `ProcessTXCompletions`: the next `GetBuf`. -/
  | reclaiming (dpc again : Bool)
  /-- `m_DpcWaiting.Release()`. -/
  | retiring
  /-- The read of `m_DpcWaiting` under the lock. -/
  | deciding
  | sending (dpc again : Bool) (point : SendPoint)
  | restarting (again : Bool)
  | unlocking
  | postProcessing
  | returned
  deriving DecidableEq

inductive TxFault where
  /-- `PeekMappedNBL` has returned nothing. -/
  | nullDereference

variable (t : TxPath)

def enqueueDescriptor (choice : TxChoice) : SubmitTxPacketResult :=
  if t.totalDescriptors < choice.usedBuffers then .packetTooLarge
  else if t.freeHWBuffers < choice.usedBuffers then .noPlaceInQueue
  else if choice.added then .success else .failure

def submitPacket (choice : TxChoice) : TxPath × SubmitTxPacketResult :=
  if t.descriptors = 0 then (t, .noPlaceInQueue)
  else if choice.bound then
    match enqueueDescriptor t choice with
    | .success =>
      ({ t with
          descriptors := t.descriptors - 1
          freeHWBuffers := t.freeHWBuffers - choice.usedBuffers
          inUse := t.inUse ++ [choice.usedBuffers] }, .success)
    | result => (t, result)
  else (t, .failure)

/-- `ReleaseOneBuffer` for the descriptor that `GetBuf` has returned. -/
def releaseOneBuffer (j used : Nat) : TxPath :=
  { t with
      descriptors := t.descriptors + 1
      freeHWBuffers := t.freeHWBuffers + used
      inUse := t.inUse.eraseIdx j }

def setMapped (mapped : Nat → Nat) (nbl buffers : Nat) : Nat → Nat :=
  fun other => if other = nbl then buffers else mapped other

def afterSending (dpc again : Bool) : TxPoint := if dpc then .restarting again else .unlocking

variable (size : Nat)

def dynNext (q : DynRun Nat) (op : DynOp Nat) : DynRun Nat :=
  match dynStep size q op with
  | .ok (q', _) => q'
  | .error e => nomatch e

def TxPath.queue (op : DynOp Nat) : TxPath :=
  { t with sendQueue := dynNext size t.sendQueue op }

/-- Where `SendMapped` goes on after a buffer that was the last of its list, or not. -/
def afterSubmit (dpc again last : Bool) : TxPath × TxPoint :=
  if last then (t.queue size .dequeue, .sending dpc again .popping)
  else (t, .sending dpc again .ringCheck)

/-- The turn of the loop of `SendMapped` for the list at the head of the queue. -/
def submitNext (dpc again : Bool) (nbl : Nat) (choice : TxChoice) : TxPath × TxPoint :=
  if t.mapped nbl = 0 then (t, .sending dpc again .ringCheck)
  else
    match submitPacket t choice with
    | (_, .noPlaceInQueue) => (t, afterSending dpc again)
    | (t', _) =>
      afterSubmit { t' with mapped := setMapped t.mapped nbl (t.mapped nbl - 1) } size dpc again
        (t.mapped nbl == 1)

def sendAdvance (t : TxPath) (dpc again : Bool) (choice : TxChoice) :
    SendPoint → Except TxFault (TxPath × TxPoint)
  | .ringCheck =>
    .ok (if t.sendQueue.queue.ring.isEmpty then (t, .sending dpc again .flagCheck)
      else (t.queue size .peek, .sending dpc again .peeking))
  | .flagCheck =>
    .ok (if t.sendQueue.queue.listIsEmpty then (t, afterSending dpc again)
      else (t.queue size .peek, .sending dpc again .peeking))
  | .peeking =>
    match t.sendQueue.consumer with
    | .peeked (some nbl) => .ok (t, .sending dpc again (.submitting nbl.2))
    | .peeked none => .error .nullDereference
    | _ => .ok (t.queue size .advanceConsumer, .sending dpc again .peeking)
  | .submitting nbl => .ok (submitNext t size dpc again nbl choice)
  | .popping =>
    match t.sendQueue.consumer with
    | .dequeued _ => .ok (t, .sending dpc again .ringCheck)
    | _ => .ok (t.queue size .advanceConsumer, .sending dpc again .popping)

def txAdvance (t : TxPath) (choice : TxChoice) : TxPoint → Except TxFault (TxPath × TxPoint)
  | .enqueuing n =>
    .ok (if (t.sendQueue.producers.map producerDone)[n]? = some true then (t, .readingDpc)
      else (t.queue size (.advance n), .enqueuing n))
  | .readingDpc => .ok (t, if t.dpcWaiting = 0 then .locking false else .returned)
  | .announcing => .ok ({ t with dpcWaiting := long (t.dpcWaiting + 1) }, .locking true)
  | .locking dpc =>
    if t.locked then .ok (t, .locking dpc)
    else .ok ({ t with locked := true }, .reclaiming dpc false)
  | .reclaiming dpc again =>
    match choice.completed.bind (t.inUse[·]?), choice.completed with
    | some used, some j => .ok (releaseOneBuffer t j used, .reclaiming dpc again)
    | _, _ =>
      .ok (t, if again then .sending dpc again .ringCheck
        else if dpc then .retiring else .deciding)
  | .retiring =>
    .ok ({ t with dpcWaiting := long (t.dpcWaiting - 1) }, .sending true false .ringCheck)
  | .deciding =>
    .ok (t, if t.dpcWaiting = 0 then .sending false false .ringCheck else .unlocking)
  | .sending dpc again p => sendAdvance size t dpc again choice p
  | .restarting again =>
    .ok (t, if choice.restart && !again then .reclaiming true true else .unlocking)
  | .unlocking => .ok ({ t with locked := false }, .postProcessing)
  | .postProcessing => .ok (t, .returned)
  | .returned => .ok (t, .returned)

/-! ## Runs -/

structure TxRun where
  path : TxPath
  calls : List TxPoint

inductive TxOp where
  /-- `NBLMappingDone` for a list of `buffers` buffers. -/
  | mappingDone (nbl buffers : Nat)
  | dpc
  | advance (i : Nat) (choice : TxChoice)

/-- The path as `PrepareBuffers` leaves it. -/
def txStart (totalDescriptors : Nat) : TxRun :=
  { path :=
      { sendQueue := dynStart, mapped := fun _ => 0, dpcWaiting := 0, locked := false,
        descriptors := totalDescriptors, totalDescriptors := totalDescriptors,
        freeHWBuffers := totalDescriptors, inUse := [] }
    calls := [] }

def txStep (s : TxRun) : TxOp → Except TxFault (TxRun × Unit)
  | .mappingDone nbl buffers =>
    let producer := s.path.sendQueue.producers.length
    let path := (s.path.queue size .join).queue size (.enqueue producer nbl)
    .ok ({ path := { path with mapped := setMapped s.path.mapped nbl buffers }
           calls := s.calls ++ [.enqueuing producer] }, ())
  | .dpc => .ok ({ s with calls := s.calls ++ [.announcing] }, ())
  | .advance i choice =>
    match s.calls[i]? with
    | none => .ok (s, ())
    | some p => do
      let (path, q) ← txAdvance size s.path choice p
      .ok ({ path := path, calls := s.calls.set i q }, ())

def queueOp : TxPoint → Option (DynOp Nat)
  | .enqueuing n => some (.advance n)
  | .sending _ _ .peeking => some .advanceConsumer
  | .sending _ _ .popping => some .advanceConsumer
  | _ => none

def txRegular (s : TxRun) : TxOp → Prop
  | .advance i _ =>
    ∀ p ∈ s.calls[i]?, ∀ op ∈ queueOp p, dynRegular size s.path.sendQueue op
  | _ => True

instance (s : TxRun) (op : TxOp) : Decidable (txRegular size s op) := by
  cases op <;> unfold txRegular <;> infer_instance

/-! ## What a step does -/

/-- What one step does.  `SendMapped` looks at the queue again after `look` and `submit`. -/
inductive TxMove (size : Nat) (t : TxPath) : TxPoint → TxPath → TxPoint → Prop where
  | enqueue (n : Nat) :
      TxMove size t (.enqueuing n) (t.queue size (.advance n)) (.enqueuing n)
  | enqueued (n : Nat) (done : (t.sendQueue.producers.map producerDone)[n]? = some true) :
      TxMove size t (.enqueuing n) t .readingDpc
  | take : TxMove size t .readingDpc t (.locking false)
  | leave (waiting : t.dpcWaiting ≠ 0) : TxMove size t .readingDpc t .returned
  | announce :
      TxMove size t .announcing { t with dpcWaiting := long (t.dpcWaiting + 1) } (.locking true)
  | wait (dpc : Bool) : TxMove size t (.locking dpc) t (.locking dpc)
  | lock (dpc : Bool) (free : t.locked = false) :
      TxMove size t (.locking dpc) { t with locked := true } (.reclaiming dpc false)
  | reclaim (dpc again : Bool) (j used : Nat) (found : t.inUse[j]? = some used) :
      TxMove size t (.reclaiming dpc again) (releaseOneBuffer t j used) (.reclaiming dpc again)
  | reclaimed (dpc : Bool) :
      TxMove size t (.reclaiming dpc true) t (.sending dpc true .ringCheck)
  | arrived : TxMove size t (.reclaiming true false) t .retiring
  | ask : TxMove size t (.reclaiming false false) t .deciding
  | retire :
      TxMove size t .retiring { t with dpcWaiting := long (t.dpcWaiting - 1) }
        (.sending true false .ringCheck)
  | stayOn : TxMove size t .deciding t (.sending false false .ringCheck)
  | defer (waiting : t.dpcWaiting ≠ 0) : TxMove size t .deciding t .unlocking
  | ringEmpty (dpc again : Bool) (empty : t.sendQueue.queue.ring.isEmpty = true) :
      TxMove size t (.sending dpc again .ringCheck) t (.sending dpc again .flagCheck)
  | drained (dpc again : Bool) (empty : t.sendQueue.queue.listIsEmpty = true) :
      TxMove size t (.sending dpc again .flagCheck) t (afterSending dpc again)
  | peek (dpc again : Bool) (p : SendPoint) (looks : p = .ringCheck ∨ p = .flagCheck) :
      TxMove size t (.sending dpc again p) (t.queue size .peek) (.sending dpc again .peeking)
  | consume (dpc again : Bool) (p : SendPoint) (inside : p = .peeking ∨ p = .popping) :
      TxMove size t (.sending dpc again p) (t.queue size .advanceConsumer) (.sending dpc again p)
  | peeked (dpc again : Bool) (nbl : Nat) (done : consumerDone t.sendQueue.consumer = true) :
      TxMove size t (.sending dpc again .peeking) t (.sending dpc again (.submitting nbl))
  | popped (dpc again : Bool) (done : consumerDone t.sendQueue.consumer = true) :
      TxMove size t (.sending dpc again .popping) t (.sending dpc again .ringCheck)
  | submit (dpc again last : Bool) (nbl used : Nat) (mapped : Nat → Nat)
      (left : 0 < t.descriptors) (fits : used ≤ t.freeHWBuffers) {next : TxPath × TxPoint}
      (is : next = afterSubmit { t with
            mapped := mapped
            descriptors := t.descriptors - 1
            freeHWBuffers := t.freeHWBuffers - used
            inUse := t.inUse ++ [used] } size dpc again last) :
      TxMove size t (.sending dpc again (.submitting nbl)) next.1 next.2
  | drop (dpc again last : Bool) (nbl : Nat) (mapped : Nat → Nat) {next : TxPath × TxPoint}
      (is : next = afterSubmit { t with mapped := mapped } size dpc again last) :
      TxMove size t (.sending dpc again (.submitting nbl)) next.1 next.2
  | noPlace (dpc again : Bool) (nbl used : Nat)
      (full : t.descriptors = 0 ∨ t.freeHWBuffers < used ∧ used ≤ t.totalDescriptors) :
      TxMove size t (.sending dpc again (.submitting nbl)) t (afterSending dpc again)
  | restart (again : Bool) : TxMove size t (.restarting again) t (.reclaiming true true)
  | settled (again : Bool) : TxMove size t (.restarting again) t .unlocking
  | unlock : TxMove size t .unlocking { t with locked := false } .postProcessing
  | post : TxMove size t .postProcessing t .returned
  | stay : TxMove size t .returned t .returned

section Moves

variable {size} {t} {t' : TxPath} {choice : TxChoice} {q : TxPoint}

theorem submitPacket_cases (t : TxPath) (choice : TxChoice) :
    (submitPacket t choice = (t, .noPlaceInQueue) ∧
        (t.descriptors = 0 ∨ t.freeHWBuffers < choice.usedBuffers ∧
          choice.usedBuffers ≤ t.totalDescriptors)) ∨
      (∃ result, result ≠ .noPlaceInQueue ∧ submitPacket t choice = (t, result)) ∨
      (0 < t.descriptors ∧ choice.usedBuffers ≤ t.freeHWBuffers ∧ submitPacket t choice = ({ t with
              descriptors := t.descriptors - 1
              freeHWBuffers := t.freeHWBuffers - choice.usedBuffers
              inUse := t.inUse ++ [choice.usedBuffers] }, .success)) := by
  by_cases none : t.descriptors = 0
  · exact .inl ⟨by rw [submitPacket, if_pos none], .inl none⟩
  cases bound : choice.bound with
  | false =>
    refine .inr (.inl ⟨.failure, by decide, ?_⟩)
    rw [submitPacket, if_neg none, bound]
    rfl
  | true =>
    by_cases large : t.totalDescriptors < choice.usedBuffers
    · refine .inr (.inl ⟨.packetTooLarge, by decide, ?_⟩)
      simp only [submitPacket, none, bound, enqueueDescriptor, large, if_true, if_false]
    by_cases few : t.freeHWBuffers < choice.usedBuffers
    · refine .inl ⟨?_, .inr ⟨few, by omega⟩⟩
      simp only [submitPacket, none, bound, enqueueDescriptor, large, few, if_true, if_false]
    cases added : choice.added with
    | false =>
      refine .inr (.inl ⟨.failure, by decide, ?_⟩)
      simp only [submitPacket, none, bound, enqueueDescriptor, large, few, added,
        Bool.false_eq_true, if_true, if_false]
    | true =>
      refine .inr (.inr ⟨by omega, by omega, ?_⟩)
      simp only [submitPacket, none, bound, enqueueDescriptor, large, few, added, if_true, if_false]

theorem submitNext_move (t : TxPath) (dpc again : Bool) (nbl : Nat) (choice : TxChoice) :
    TxMove size t (.sending dpc again (.submitting nbl)) (submitNext t size dpc again nbl choice).1
      (submitNext t size dpc again nbl choice).2 := by
  by_cases none : t.mapped nbl = 0
  · rw [submitNext, if_pos none]
    exact .drop dpc again false nbl t.mapped rfl
  rw [submitNext, if_neg none]
  rcases submitPacket_cases t choice with
    ⟨result, full⟩ | ⟨result, other, kept⟩ | ⟨left, fits, sent⟩
  · rw [result]
    exact .noPlace dpc again nbl choice.usedBuffers full
  · rw [kept]
    cases result with
    | noPlaceInQueue => exact absurd rfl other
    | packetTooLarge | success | failure => exact .drop dpc again _ nbl _ rfl
  · rw [sent]
    exact .submit dpc again _ nbl choice.usedBuffers _ left fits rfl

theorem sendMove_advance {dpc again : Bool} {p : SendPoint}
    (stepped : sendAdvance size t dpc again choice p = .ok (t', q)) :
    TxMove size t (.sending dpc again p) t' q := by
  cases p with
  | ringCheck =>
    rw [sendAdvance] at stepped
    split at stepped <;> cases stepped
    · exact .ringEmpty dpc again ‹_›
    · exact .peek dpc again _ (.inl rfl)
  | flagCheck =>
    rw [sendAdvance] at stepped
    split at stepped <;> cases stepped
    · exact .drained dpc again ‹_›
    · exact .peek dpc again _ (.inr rfl)
  | peeking =>
    rw [sendAdvance] at stepped
    split at stepped
    · rename_i found
      cases stepped
      exact .peeked dpc again _ (by rw [found]; rfl)
    · cases stepped
    · cases stepped
      exact .consume dpc again _ (.inl rfl)
  | submitting nbl =>
    have moved : TxMove size t (.sending dpc again (.submitting nbl))
        (submitNext t size dpc again nbl choice).1 (submitNext t size dpc again nbl choice).2 :=
      submitNext_move t dpc again nbl choice
    have same : submitNext t size dpc again nbl choice = (t', q) := Except.ok.inj stepped
    rw [same] at moved
    exact moved
  | popping =>
    rw [sendAdvance] at stepped
    split at stepped <;> cases stepped
    · rename_i found
      exact .popped dpc again (by rw [found]; rfl)
    · exact .consume dpc again _ (.inr rfl)

theorem txMove_advance {p : TxPoint} (stepped : txAdvance size t choice p = .ok (t', q)) :
    TxMove size t p t' q := by
  cases p with
  | enqueuing n =>
    rw [txAdvance] at stepped
    split at stepped <;> cases stepped
    · exact .enqueued n ‹_›
    · exact .enqueue n
  | readingDpc =>
    cases stepped
    split
    · exact .take
    · exact .leave ‹_›
  | announcing =>
    cases stepped
    exact .announce
  | locking dpc =>
    rw [txAdvance] at stepped
    split at stepped
    · cases stepped
      exact .wait dpc
    · cases stepped
      exact .lock dpc (Bool.not_eq_true _ ▸ ‹_›)
  | reclaiming dpc again =>
    have done (same : (t, if again then TxPoint.sending dpc again .ringCheck
        else if dpc then .retiring else .deciding) = (t', q)) :
        TxMove size t (.reclaiming dpc again) t' q := by
      cases again with
      | true => cases same; exact .reclaimed dpc
      | false =>
        cases dpc with
        | true => cases same; exact .arrived
        | false => cases same; exact .ask
    cases got : choice.completed with
    | none =>
      simp only [txAdvance, got] at stepped
      exact done (Except.ok.inj stepped)
    | some j =>
      cases found : t.inUse[j]? with
      | none =>
        simp only [txAdvance, got, Option.bind_some, found] at stepped
        exact done (Except.ok.inj stepped)
      | some used =>
        simp only [txAdvance, got, Option.bind_some, found] at stepped
        cases stepped
        exact .reclaim dpc again j used found
  | retiring =>
    cases stepped
    exact .retire
  | deciding =>
    cases stepped
    split
    · exact .stayOn
    · exact .defer ‹_›
  | sending => exact sendMove_advance stepped
  | restarting again =>
    cases stepped
    split
    · exact .restart again
    · exact .settled again
  | unlocking =>
    cases stepped
    exact .unlock
  | postProcessing =>
    cases stepped
    exact .post
  | returned =>
    cases stepped
    exact .stay

end Moves

/-! ## The invariant -/

def holdsTx : TxPoint → Bool
  | .reclaiming _ _ => true
  | .retiring => true
  | .deciding => true
  | .sending _ _ _ => true
  | .restarting _ => true
  | .unlocking => true
  | _ => false

/-- The call is a DPC's between its announcement and taking it back. -/
def announced : TxPoint → Bool
  | .locking dpc => dpc
  | .reclaiming dpc again => dpc && !again
  | .retiring => true
  | _ => false

/-- The call is in `HaveMappedNBLs`, past the ring. -/
def atFlag : TxPoint → Bool
  | .sending _ _ .flagCheck => true
  | _ => false

/-- The call has still to look at the send queue, at the ring first. -/
def owes : TxPoint → Bool
  | .enqueuing _ => true
  | .readingDpc => true
  | .announcing => true
  | .locking _ => true
  | .reclaiming _ _ => true
  | .retiring => true
  | .deciding => true
  | .sending _ _ .flagCheck => false
  | .sending _ _ _ => true
  | _ => false

/-- While the send queue is not empty and nothing is in flight, a call is in progress that still has
to look at the queue (`duty`). -/
structure TxInv (s : TxRun) : Prop where
  lock : s.calls.countP holdsTx = s.path.locked.toNat
  waiting : s.path.dpcWaiting = long (s.calls.countP announced)
  hardware : 0 < s.path.totalDescriptors ∧
    s.path.descriptors + s.path.inUse.length = s.path.totalDescriptors ∧
    s.path.freeHWBuffers + s.path.inUse.sum = s.path.totalDescriptors
  duty : s.path.sendQueue.queue.isEmpty = false → s.path.inUse = [] →
    ∃ p ∈ s.calls, owes p = true ∨ atFlag p = true
  flag : (∃ p ∈ s.calls, atFlag p = true) → s.path.sendQueue.queue.ring.isEmpty = false →
    ∃ p ∈ s.calls, owes p = true

theorem owes_of_announced {p : TxPoint} (waits : announced p = true) : owes p = true := by
  cases p <;> first | rfl | cases waits

section Keep

variable {size} {i : Nat} {s : TxRun} {p q : TxPoint} {t' : TxPath}

theorem long_zero : long 0 = 0 := long_eq (by decide) (by decide)

theorem TxInv.dpc_owes (inv : TxInv s) (waiting : s.path.dpcWaiting ≠ 0) :
    ∃ p ∈ s.calls, announced p = true := by
  have pos : 0 < s.calls.countP announced := by
    refine Nat.pos_of_ne_zero fun none => waiting ?_
    rw [inv.waiting, none]
    exact long_zero
  exact countP_pos_iff.mp pos

section

variable (inv : TxInv s) (here : s.calls[i]? = some p) (move : TxMove size s.path p t' q)

include inv here move

theorem TxInv.lock_move : (s.calls.set i q).countP holdsTx = t'.locked.toNat := by
  have before := inv.lock
  have same (eq : holdsTx q = holdsTx p) : (s.calls.set i q).countP holdsTx = s.path.locked.toNat :=
    (countP_same here q _ eq).trans before
  cases move with
  | lock _ free =>
    rw [free] at before
    rw [countP_enter here _ _ rfl rfl, before]
    rfl
  | drained dpc | noPlace dpc => exact same (by cases dpc <;> rfl)
  | submit _ _ last _ _ _ _ _ is | drop _ _ last _ _ is =>
    cases last <;> cases is <;> exact same rfl
  | unlock =>
    have left := countP_leave here .postProcessing holdsTx rfl rfl
    have held : s.path.locked.toNat ≤ 1 := Bool.toNat_le _
    show _ = 0
    omega
  | _ => exact same rfl

theorem TxInv.waiting_move : t'.dpcWaiting = long ((s.calls.set i q).countP announced) := by
  have before := inv.waiting
  have same (eq : announced q = announced p) :
      s.path.dpcWaiting = long ((s.calls.set i q).countP announced) := by
    rw [countP_same here q _ eq]
    exact before
  cases move with
  | announce =>
    show long (s.path.dpcWaiting + 1) = _
    rw [countP_enter here _ _ rfl rfl, before, long_add]
    rfl
  | retire =>
    have left := countP_leave here (.sending true false .ringCheck) announced rfl rfl
    show long (s.path.dpcWaiting - 1) = _
    rw [before, long_sub]
    congr 1
    omega
  | lock dpc | reclaimed dpc | drained dpc | noPlace dpc => exact same (by cases dpc <;> rfl)
  | submit _ _ last _ _ _ _ _ is | drop _ _ last _ _ is =>
    cases last <;> cases is <;> exact same rfl
  | _ => exact same rfl

end

theorem TxInv.hardware_move (inv : TxInv s) (move : TxMove size s.path p t' q) :
    0 < t'.totalDescriptors ∧ t'.descriptors + t'.inUse.length = t'.totalDescriptors ∧
      t'.freeHWBuffers + t'.inUse.sum = t'.totalDescriptors := by
  obtain ⟨positive, descriptors, buffers⟩ := inv.hardware
  cases move with
  | reclaim _ _ j _ found =>
    obtain ⟨lt, rfl⟩ := List.getElem?_eq_some_iff.mp found
    refine ⟨positive, ?_, ?_⟩
    · show s.path.descriptors + 1 + (s.path.inUse.eraseIdx j).length = _
      rw [length_eraseIdx_of_lt lt]
      show _ = s.path.totalDescriptors
      omega
    · show s.path.freeHWBuffers + s.path.inUse[j] + (s.path.inUse.eraseIdx j).sum = _
      have total : s.path.inUse[j] + (s.path.inUse.eraseIdx j).sum = s.path.inUse.sum :=
        List.CommMonoid.add_sum_eraseIdx lt
      show _ = s.path.totalDescriptors
      omega
  | submit _ _ last _ used _ _ _ is =>
    have fewer : s.path.descriptors - 1 + (s.path.inUse ++ [used]).length =
        s.path.totalDescriptors := by
      rw [length_append, length_singleton]
      omega
    have taken : s.path.freeHWBuffers - used + (s.path.inUse ++ [used]).sum =
        s.path.totalDescriptors := by
      rw [sum_append, sum_singleton]
      omega
    cases last <;> cases is <;> exact ⟨positive, fewer, taken⟩
  | drop _ _ last _ _ is => cases last <;> cases is <;> exact ⟨positive, descriptors, buffers⟩
  | _ => exact ⟨positive, descriptors, buffers⟩

theorem TxInv.others (here : s.calls[i]? = some p) (idle : owes p = false) (q : TxPoint)
    (due : ∃ o ∈ s.calls, owes o = true) : ∃ o ∈ s.calls.set i q, owes o = true :=
  exists_mem_move here (fun own => by rw [idle] at own; cases own) due

/-- The call under the lock is alone there. -/
theorem TxInv.alone {j : Nat} {o : TxPoint} (inv : TxInv s) (here : s.calls[i]? = some p)
    (holds : holdsTx p = true) (there : s.calls[j]? = some o) (locks : holdsTx o = true) :
    j = i := by
  have one : s.calls.countP holdsTx ≤ 1 := by
    rw [inv.lock]
    exact Bool.toNat_le _
  exact index_eq_of_countP_le_one one there locks here holds

theorem TxInv.nobody_atFlag (inv : TxInv s) (here : s.calls[i]? = some p)
    (holds : holdsTx p = true) (away : atFlag q = false) :
    ¬∃ o ∈ s.calls.set i q, atFlag o = true := by
  rintro ⟨o, member, flagged⟩
  obtain ⟨j, there⟩ := getElem?_of_mem member
  rcases getElem?_move there with ⟨_, rfl⟩ | ⟨ne, old⟩
  · rw [away] at flagged
    cases flagged
  have locks : holdsTx o = true := by cases o <;> first | rfl | cases flagged
  exact ne (inv.alone here holds old locks)

theorem TxInv.inFlight {used : Nat} (inv : TxInv s) (full : s.path.descriptors = 0 ∨
      s.path.freeHWBuffers < used ∧ used ≤ s.path.totalDescriptors) : s.path.inUse ≠ [] := by
  obtain ⟨_, descriptors, buffers⟩ := inv.hardware
  intro none
  rw [none] at descriptors buffers
  simp only [length_nil, sum_nil] at descriptors buffers
  omega

/-- The two facts about who looks at the queue, after a step. -/
def Looked (calls : List TxPoint) : Prop :=
  (t.sendQueue.queue.isEmpty = false → t.inUse = [] →
      ∃ p ∈ calls, owes p = true ∨ atFlag p = true) ∧
    ((∃ p ∈ calls, atFlag p = true) → t.sendQueue.queue.ring.isEmpty = false →
      ∃ p ∈ calls, owes p = true)

theorem TxInv.looked_move (inv : TxInv s) (here : s.calls[i]? = some p)
    (move : TxMove size s.path p t' q) : Looked t' (s.calls.set i q) := by
  -- a call that has still to look is its own witness
  have self (due : owes q = true) : Looked t' (s.calls.set i q) := by
    have among : q ∈ s.calls.set i q := mem_of_getElem? (getElem?_moved here q)
    exact ⟨fun _ _ => ⟨q, among, .inl due⟩, fun _ _ => ⟨q, among, due⟩⟩
  -- a call that has not leaves the others to it
  have rest (idle : owes p = false) (away : atFlag p = false) (quiet : atFlag q = false)
      (queue : t'.sendQueue = s.path.sendQueue) (flight : t'.inUse = s.path.inUse) :
      Looked t' (s.calls.set i q) := by
    refine ⟨fun nonempty none => ?_, fun flagged nonempty => ?_⟩
    · rw [queue] at nonempty
      rw [flight] at none
      refine exists_mem_move here (fun due => ?_) (inv.duty nonempty none)
      rw [idle, away] at due
      rcases due with due | due <;> cases due
    · rw [queue] at nonempty
      refine TxInv.others here idle q (inv.flag ?_ nonempty)
      obtain ⟨o, member, checks⟩ := flagged
      obtain ⟨j, there⟩ := getElem?_of_mem member
      rcases getElem?_move there with ⟨_, rfl⟩ | ⟨_, old⟩
      · rw [quiet] at checks
        cases checks
      · exact ⟨o, mem_of_getElem? old, checks⟩
  -- a waiting DPC takes over
  have deferred (alone : announced p = false) (waiting : s.path.dpcWaiting ≠ 0)
      (queue : t' = s.path) : Looked t' (s.calls.set i q) := by
    have still : ∃ o ∈ s.calls.set i q, announced o = true :=
      exists_mem_move here (fun h => by rw [alone] at h; cases h) (inv.dpc_owes waiting)
    obtain ⟨o, member, waits⟩ := still
    have due := owes_of_announced waits
    exact ⟨fun _ _ => ⟨o, member, .inl due⟩, fun _ _ => ⟨o, member, due⟩⟩
  cases move with
  | leave waiting | defer waiting => exact deferred rfl waiting rfl
  | ringEmpty dpc again empty =>
    have among := mem_of_getElem? (getElem?_moved here (.sending dpc again .flagCheck))
    refine ⟨fun _ _ => ⟨_, among, .inr rfl⟩, fun _ nonempty => ?_⟩
    rw [empty] at nonempty
    cases nonempty
  | drained dpc again empty =>
    -- what is in the ring now came after the look at it, and its producer is still there
    have due (nonempty : s.path.sendQueue.queue.ring.isEmpty = false) :
        ∃ o ∈ s.calls.set i (afterSending dpc again), owes o = true :=
      TxInv.others here rfl _ (inv.flag ⟨_, mem_of_getElem? here, rfl⟩ nonempty)
    refine ⟨fun nonempty _ => ?_, fun _ nonempty => due nonempty⟩
    have ring : s.path.sendQueue.queue.ring.isEmpty = false := by
      cases ring : s.path.sendQueue.queue.ring.isEmpty with
      | false => rfl
      | true =>
        rw [DynQueue.isEmpty, ring, empty] at nonempty
        cases nonempty
    obtain ⟨o, member, owed⟩ := due ring
    exact ⟨o, member, .inl owed⟩
  | noPlace dpc _ _ _ full =>
    refine ⟨fun _ none => absurd none (inv.inFlight full), fun flagged => ?_⟩
    exact absurd flagged (inv.nobody_atFlag here rfl (by cases dpc <;> rfl))
  | submit _ _ last _ _ _ _ _ is | drop _ _ last _ _ is =>
    exact self (by cases last <;> cases is <;> rfl)
  | consume _ _ _ inside => exact self (by rcases inside with rfl | rfl <;> rfl)
  | settled | unlock | post | stay => exact rest rfl rfl rfl rfl rfl
  | _ => exact self rfl

/-- **What a step keeps.** -/
theorem TxInv.move (inv : TxInv s) (here : s.calls[i]? = some p)
    (move : TxMove size s.path p t' q) : TxInv { path := t', calls := s.calls.set i q } where
  lock := inv.lock_move here move
  waiting := inv.waiting_move here move
  hardware := inv.hardware_move move
  duty := (inv.looked_move here move).1
  flag := (inv.looked_move here move).2

theorem TxInv.start {path : TxPath} (inv : TxInv s) (free : holdsTx q = false)
    (quiet : announced q = false) (due : owes q = true) (locked : path.locked = s.path.locked)
    (waiting : path.dpcWaiting = s.path.dpcWaiting)
    (hardware : path.totalDescriptors = s.path.totalDescriptors ∧
      path.descriptors = s.path.descriptors ∧ path.freeHWBuffers = s.path.freeHWBuffers ∧
      path.inUse = s.path.inUse) : TxInv { path := path, calls := s.calls ++ [q] } where
  lock := by
    rw [countP_start, free, locked]
    exact inv.lock
  waiting := by
    rw [countP_start, quiet, waiting]
    exact inv.waiting
  hardware := by
    rw [hardware.1, hardware.2.1, hardware.2.2.1, hardware.2.2.2]
    exact inv.hardware
  duty _ _ := ⟨q, mem_append_right _ (mem_singleton.mpr rfl), .inl due⟩
  flag _ _ := ⟨q, mem_append_right _ (mem_singleton.mpr rfl), due⟩

theorem txInv_start {totalDescriptors : Nat} (positive : 0 < totalDescriptors) :
    TxInv (txStart totalDescriptors) where
  lock := rfl
  waiting := long_zero.symm
  hardware := ⟨positive, rfl, rfl⟩
  duty nonempty := by cases nonempty
  flag flagged := by
    obtain ⟨_, member, _⟩ := flagged
    cases member

variable {s' : TxRun} {op : TxOp} {out : Unit}

/-- A call that goes on makes a move; a number that is no call's does nothing. -/
theorem txStep_advance {choice : TxChoice}
    (stepped : txStep size s (.advance i choice) = .ok (s', out)) :
    s' = s ∨ ∃ p t' q, s.calls[i]? = some p ∧ TxMove size s.path p t' q ∧
      s' = { path := t', calls := s.calls.set i q } := by
  cases here : s.calls[i]? with
  | none =>
    simp only [txStep, here] at stepped
    cases stepped
    exact .inl rfl
  | some p =>
    simp only [txStep, here] at stepped
    cases moved : txAdvance size s.path choice p with
    | error =>
      rw [moved] at stepped
      cases stepped
    | ok =>
      rw [moved] at stepped
      cases stepped
      exact .inr ⟨p, _, _, rfl, txMove_advance moved, rfl⟩

theorem TxInv.step (inv : TxInv s) (stepped : txStep size s op = .ok (s', out)) : TxInv s' := by
  cases op with
  | mappingDone | dpc =>
    cases stepped
    exact inv.start rfl rfl rfl rfl rfl ⟨rfl, rfl, rfl, rfl⟩
  | advance =>
    rcases txStep_advance stepped with rfl | ⟨p, _, _, here, move, rfl⟩
    · exact inv
    · exact inv.move here move

/-! ## The send queue -/

def consuming : TxPoint → Bool
  | .sending _ _ .peeking => true
  | .sending _ _ .popping => true
  | _ => false

/-- The send queue and the calls that are inside it. -/
structure TxQueueInv (k : Nat) (s : TxRun) : Prop where
  queue : DynInv k s.path.sendQueue
  producer : ∀ (n : Nat) (o : ProducerPoint (Nat × Nat)),
    s.path.sendQueue.producers[n]? = some o →
      producerDone o = true ∨ ∃ p ∈ s.calls, p = .enqueuing n
  consumer : (∃ p ∈ s.calls, consuming p = true) ∨
    consumerDone s.path.sendQueue.consumer = true

variable {k : Nat}

theorem DynInv.next {r : DynRun Nat} {op : DynOp Nat} (inv : DynInv k r)
    (may : dynRegular (2 ^ k) r op) : DynInv k (dynNext (2 ^ k) r op) := by
  obtain ⟨_, _, stepped, kept⟩ := inv.step may
  rw [dynNext, stepped]
  exact kept

theorem dynNext_advance (size : Nat) (r : DynRun Nat) (n : Nat) :
    (dynNext size r (.advance n)).consumer = r.consumer ∧
      ∀ m, m ≠ n → (dynNext size r (.advance n)).producers[m]? = r.producers[m]? := by
  cases here : r.producers[n]? with
  | none => simp [dynNext, dynStep, here]
  | some =>
    simp only [dynNext, dynStep, here, true_and]
    exact fun m ne => getElem?_set_ne (Ne.symm ne)

namespace TxQueueInv

variable (inv : TxQueueInv k s) (here : s.calls[i]? = some p)

include inv here

/-- A step outside the send queue. -/
theorem outside (same : t'.sendQueue = s.path.sendQueue)
    (done : consuming p = true → consumerDone s.path.sendQueue.consumer = true)
    (left : ∀ n, p = .enqueuing n →
      (s.path.sendQueue.producers.map producerDone)[n]? = some true) :
    TxQueueInv k { path := t', calls := s.calls.set i q } where
  queue := by
    rw [same]
    exact inv.queue
  producer n o there := by
    rw [same] at there
    rcases inv.producer n o there with idle | inside
    · exact .inl idle
    · by_cases own : p = .enqueuing n
      · have idle := left n own
        rw [getElem?_map, there] at idle
        exact .inl (Option.some.inj idle)
      · exact .inr (exists_mem_move here (absurd · own) inside)
  consumer := by
    rw [same]
    rcases inv.consumer with inside | idle
    · cases own : consuming p with
      | true => exact .inr (done own)
      | false =>
        refine .inl (exists_mem_move here (fun busy => ?_) inside)
        rw [own] at busy
        cases busy
    · exact .inr idle

/-- A step of the consumer. -/
theorem consumes (op : DynOp Nat) (busy : consuming q = true)
    (away : ∀ n, p ≠ .enqueuing n) (sent : t'.sendQueue = dynNext (2 ^ k) s.path.sendQueue op)
    (same : (dynNext (2 ^ k) s.path.sendQueue op).producers = s.path.sendQueue.producers)
    (may : dynRegular (2 ^ k) s.path.sendQueue op) :
    TxQueueInv k { path := t', calls := s.calls.set i q } where
  queue := by
    rw [sent]
    exact inv.queue.next may
  producer n o there := by
    rw [sent, same] at there
    rcases inv.producer n o there with idle | inside
    · exact .inl idle
    · exact .inr (exists_mem_move here (absurd · (away n)) inside)
  consumer := .inl ⟨q, mem_of_getElem? (getElem?_moved here q), busy⟩

/-- A step of a producer. -/
theorem produces {n : Nat} (own : p = .enqueuing n) (stays : q = .enqueuing n)
    (sent : t'.sendQueue = dynNext (2 ^ k) s.path.sendQueue (.advance n))
    (may : dynRegular (2 ^ k) s.path.sendQueue (.advance n)) :
    TxQueueInv k { path := t', calls := s.calls.set i q } := by
  obtain ⟨idle, others⟩ := dynNext_advance (2 ^ k) s.path.sendQueue n
  have among := mem_of_getElem? (getElem?_moved here q)
  refine ⟨by rw [sent]; exact inv.queue.next may, fun m o there => ?_, ?_⟩
  · by_cases mine : m = n
    · exact .inr ⟨q, among, by rw [stays, mine]⟩
    rw [sent, others m mine] at there
    refine (inv.producer m o there).imp id (exists_mem_move here fun is => ?_)
    rw [own] at is
    exact absurd (TxPoint.enqueuing.inj is).symm mine
  · rw [sent, idle]
    refine inv.consumer.imp (exists_mem_move here fun busy => ?_) id
    rw [own] at busy
    cases busy

/-- **What a step keeps of the send queue.** -/
theorem move (tx : TxInv s) (move : TxMove (2 ^ k) s.path p t' q)
    (regular : ∀ op ∈ queueOp p, dynRegular (2 ^ k) s.path.sendQueue op) :
    TxQueueInv k { path := t', calls := s.calls.set i q } := by
  -- the call under the lock enters the queue when nobody is in it as the consumer
  have free (holds : holdsTx p = true) (out : consuming p = false) :
      consumerDone s.path.sendQueue.consumer = true := by
    refine inv.consumer.resolve_left ?_
    rintro ⟨o, member, busy⟩
    obtain ⟨j, there⟩ := getElem?_of_mem member
    have locks : holdsTx o = true := by cases o <;> first | rfl | cases busy
    obtain rfl := tx.alone here holds there locks
    rw [here] at there
    cases there
    rw [out] at busy
    cases busy
  have quiet (same : t'.sendQueue = s.path.sendQueue) (away : consuming p = false)
      (other : ∀ n, p ≠ .enqueuing n) : TxQueueInv k { path := t', calls := s.calls.set i q } := by
    refine inv.outside here same (fun busy => ?_) fun n is => absurd is (other n)
    rw [away] at busy
    cases busy
  cases move with
  | enqueue n => exact inv.produces here rfl rfl rfl (regular _ rfl)
  | enqueued n done =>
    refine inv.outside here rfl nofun fun m is => ?_
    cases is
    exact done
  | peek dpc again p looks =>
    have out : consuming (.sending dpc again p) = false := by rcases looks with rfl | rfl <;> rfl
    exact inv.consumes here .peek rfl nofun rfl rfl ⟨free rfl out, trivial⟩
  | consume dpc again p inside =>
    have busy : consuming (.sending dpc again p) = true := by
      rcases inside with rfl | rfl <;> rfl
    refine inv.consumes here .advanceConsumer busy nofun rfl rfl (regular _ ?_)
    rcases inside with rfl | rfl <;> rfl
  | peeked _ _ _ done | popped _ _ done => exact inv.outside here rfl (fun _ => done) nofun
  | submit dpc again last nbl used mapped left fits is | drop dpc again last nbl mapped is =>
    cases last with
    | false =>
      cases is
      exact quiet rfl rfl nofun
    | true =>
      cases is
      exact inv.consumes here .dequeue rfl nofun rfl rfl ⟨free rfl rfl, trivial⟩
  | _ => exact quiet rfl rfl nofun

end TxQueueInv

theorem TxQueueInv.mappingDone (inv : TxQueueInv k s) (mapped : Nat → Nat) (nbl : Nat) :
    TxQueueInv k
      { path := { (s.path.queue (2 ^ k) .join).queue (2 ^ k)
            (.enqueue s.path.sendQueue.producers.length nbl) with mapped := mapped }
        calls := s.calls ++ [.enqueuing s.path.sendQueue.producers.length] } where
  queue := by
    have joined : DynInv k (dynNext (2 ^ k) s.path.sendQueue .join) :=
      inv.queue.next ⟨trivial, trivial⟩
    have new : dynRegular (2 ^ k) (dynNext (2 ^ k) s.path.sendQueue .join)
        (.enqueue s.path.sendQueue.producers.length nbl) := by
      refine ⟨?_, trivial⟩
      show ((s.path.sendQueue.producers ++ [ProducerPoint.outside]).map producerDone)[_]? = _
      simp [producerDone]
    exact joined.next new
  producer n o there := by
    change (List.set (s.path.sendQueue.producers ++ [ProducerPoint.outside]) _ _)[n]? = some o
      at there
    rcases getElem?_move there with ⟨rfl, -⟩ | ⟨ne, old⟩
    · exact .inr ⟨_, mem_append_right _ (mem_singleton.mpr rfl), rfl⟩
    · rcases getElem?_start old with ⟨is, -⟩ | before
      · exact absurd is ne
      · exact (inv.producer n o before).imp_right (exists_mem_start _)
  consumer := inv.consumer.imp_left (exists_mem_start _)

theorem TxQueueInv.step (inv : TxQueueInv k s) (tx : TxInv s) (may : txRegular (2 ^ k) s op)
    (stepped : txStep (2 ^ k) s op = .ok (s', out)) : TxQueueInv k s' := by
  cases op with
  | mappingDone nbl buffers =>
    cases stepped
    exact inv.mappingDone _ nbl
  | dpc =>
    cases stepped
    exact ⟨inv.queue, fun n o there => (inv.producer n o there).imp_right (exists_mem_start _),
      inv.consumer.imp_left (exists_mem_start _)⟩
  | advance =>
    rcases txStep_advance stepped with rfl | ⟨p, _, _, here, move, rfl⟩
    · exact inv
    · exact inv.move here tx move (may p here)

/-- With all calls returned nobody is inside the send queue. -/
theorem TxQueueInv.dynQuiet (inv : TxQueueInv k s) (idle : ∀ p ∈ s.calls, p = .returned) :
    dynQuiet s.path.sendQueue := by
  refine ⟨all_eq_true.mpr fun o member => ?_, inv.consumer.resolve_left ?_⟩
  · obtain ⟨n, there⟩ := getElem?_of_mem member
    refine (inv.producer n o there).resolve_right ?_
    rintro ⟨p, among, rfl⟩
    cases idle _ among
  · rintro ⟨p, among, busy⟩
    rw [idle p among] at busy
    cases busy

end Keep

/-- **No transmit is forgotten.**  Along every interleaving of `NBLMappingDone` and DPC calls,
on a virtqueue with any number of descriptors and with the device completing them at any time, in
which no compare-exchange of the send queue's ring meets an index that has gone around since it
was read: when all calls have returned and more lists have been enqueued than dequeued, a
descriptor is in flight. -/
theorem no_transmit_forgotten (k totalDescriptors : Nat) (positive : 0 < totalDescriptors)
    {s : TxRun}
    (reach : Reachable (· = txStart totalDescriptors) (Next (txStep (2 ^ k)) (txRegular (2 ^ k))) s)
    (idle : ∀ p ∈ s.calls, p = .returned)
    (nonempty : s.path.sendQueue.returned.length < s.path.sendQueue.sent.length) :
    s.path.inUse ≠ [] := by
  have inv : TxInv s ∧ TxQueueInv k s := by
    refine reach.invariant (P := fun s => TxInv s ∧ TxQueueInv k s) ?_ ?_
    · rintro _ rfl
      exact ⟨txInv_start positive, dynInv_start, nofun, .inr rfl⟩
    · rintro s t inv ⟨op, _, may, stepped⟩
      exact ⟨inv.1.step stepped, inv.2.step inv.1 may stepped⟩
  obtain ⟨tx, queue⟩ := inv
  have quiet := queue.dynQuiet idle
  have sound := queue.queue.sound
  have seen : s.path.sendQueue.queue.isEmpty = false := by
    refine Bool.eq_false_iff.mpr fun empty => ?_
    have same := (sound.kept quiet).2.1.length_eq
    rw [(sound.isEmpty quiet).mp empty, append_nil] at same
    omega
  intro none
  obtain ⟨p, member, due⟩ := tx.duty seen none
  rw [idle p member] at due
  rcases due with due | due <;> cases due

/-- One descriptor: the first list is in flight, the second one waits in the send queue. -/
theorem no_transmit_forgotten_full :
    ∃ s, Reachable (· = txStart 1) (Next (txStep (2 ^ 2)) (txRegular (2 ^ 2))) s ∧
      s.calls = [.returned, .returned] ∧
      s.path.sendQueue.returned.length < s.path.sendQueue.sent.length ∧ s.path.inUse ≠ [] := by
  have replay : ∃ s ∈ attempt (txStep (2 ^ 2)) (txRegular (2 ^ 2)) (txStart 1)
      (.mappingDone 7 1 :: List.replicate 50 (.advance 0 {}) ++
        .mappingDone 8 1 :: List.replicate 50 (.advance 1 {})),
      s.calls = [.returned, .returned] ∧
        s.path.sendQueue.returned.length < s.path.sendQueue.sent.length := by
    decide +kernel
  obtain ⟨s, reach, calls, nonempty⟩ := reachable_of_replay _ replay
  refine ⟨s, reach, calls, nonempty, ?_⟩
  refine no_transmit_forgotten 2 1 Nat.one_pos reach (fun p member => ?_) nonempty
  rw [calls] at member
  simpa using member

/-- **Lists that nobody sends.**  The late compare-exchange of `ring_lost_elements`, made by call 0:
call 1 sends its list, and the lists of calls 0 and 2 stay in a ring that looks empty. -/
theorem transmit_forgotten :
    ∃ s, Reachable (· = txStart 8) (Next (txStep (2 ^ 1)) fun _ _ => True) s ∧
      s.calls = [.returned, .returned, .returned] ∧
      s.path.sendQueue.sent = [(0, 10), (1, 20), (2, 30)] ∧
      s.path.sendQueue.returned = [(1, 20)] ∧ s.path.inUse = [] := by
  refine reachable_of_replay (.mappingDone 10 1 :: List.replicate 4 (.advance 0 {}) ++
      .mappingDone 20 1 :: List.replicate 50 (.advance 1 {}) ++
      .mappingDone 30 1 :: List.replicate 9 (.advance 2 {}) ++
      List.replicate 9 (.advance 0 { completed := some 0 }) ++
      List.replicate 20 (.advance 0 {}) ++ List.replicate 20 (.advance 2 {})) ?_
  decide +kernel

/-- **The list that is not there.**  Call 0 has won the one free slot of the ring and not stored its
list yet, so that call 1 puts its own into the overflow list.  That is enough for `HaveMappedNBLs`,
but `Peek` can not move it into the ring, and `SendMapped` uses the result as it is. -/
theorem peek_null : ∃ s, Reachable (· = txStart 8) (Next (txStep (2 ^ 1)) (txRegular (2 ^ 1))) s ∧
    txStep (2 ^ 1) s (.advance 1 {}) = .error .nullDereference := by
  have replay : ∃ s ∈ attempt (txStep (2 ^ 1)) (txRegular (2 ^ 1)) (txStart 8)
      (.mappingDone 10 1 :: List.replicate 5 (.advance 0 {}) ++
        .mappingDone 20 1 :: List.replicate 28 (.advance 1 {})),
      s.calls[1]? = some (.sending false false .peeking) ∧
        s.path.sendQueue.consumer = .peeked none := by
    decide +kernel
  obtain ⟨s, reach, here, nothing⟩ := reachable_of_replay _ replay
  refine ⟨s, reach, ?_⟩
  simp only [txStep, here, txAdvance, sendAdvance, nothing]
  rfl

end KvmGuestDrivers.NetKvm

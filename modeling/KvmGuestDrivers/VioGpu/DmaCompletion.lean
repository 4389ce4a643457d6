/-
# VioGpu.DmaCompletion -- how a submission is notified and freed

`VioGpuCommand::Run` submits the packets of one DMA range to the control queue.  Two
counters of the command follow them:

* `m_isrPendingPackets` is set to the number of packets before the first is submitted, and
  decremented by the interrupt routine for every packet the device returns; the decrement
  that reaches zero makes `OnPacketCompletedFromIsr` answer `TRUE`, unless `m_dmaNotified`
  was set before;
* `m_done` counts references: one for `Run` itself and one for each packet until its
  callback.  Whoever drops the last one deletes the command.

The device may return packets while `Run` is still submitting others, and in any order.
The interrupt routine and the callback of a packet run at any time after that; a step is one
interlocked operation, one submission, or the deletion.

`m_pContext` and the pointers to the scanout do not take part.
-/
import KvmGuestDrivers.Theory.Calls
import KvmGuestDrivers.VioGpu.CtrlQueue
import KvmGuestDrivers.VioGpu.DmaStream

namespace KvmGuestDrivers.VioGpu

set_option autoImplicit false

open Theory VirtIO List

/-! ## What `Run` does -/

/-- The buffer a packet is queued in: `GPU_CMD_SUBMIT` with its data, `GPU_CMD_SUBMIT` with
none, `GPU_CMD_TRANSFER_HOST_3D` or `GPU_RES_FLUSH`, each with a `GPU_CTRL_HDR` to answer. -/
def Packet.vbuffer (p : Packet) (buf dataBuf respBuf : Nat) : GpuVbuffer :=
  match p with
  | .nop => ⟨buf, 32, dataBuf, 0, respBuf, 24, by omega⟩
  | .submit payload => ⟨buf, 32, dataBuf, payload.length, respBuf, 24, by omega⟩
  | .transfer _ _ => ⟨buf, 72, dataBuf, 0, respBuf, 24, by omega⟩
  | .flip _ => ⟨buf, 48, dataBuf, 0, respBuf, 24, by omega⟩

/-- `QueueBuffer` takes the packet; it asks for sizes only. -/
def Packet.accepted (p : Packet) : Bool := validateCtrlQueueBuffer (p.vbuffer 0 0 0)

/-- The operations of `Run` that other parties can observe. -/
inductive RunAction where
  /-- `InterlockedIncrement(&m_done)`. -/
  | addRef
  /-- `InterlockedExchange(&m_isrPendingPackets, n)`. -/
  | setPending (n : Nat)
  /-- The packet is queued with `RunningCbDone` as its callback. -/
  | submit (p : Packet)
  /-- `InterlockedDecrement(&m_done)` in `VioGpuCommandDone`. -/
  | release
  /-- The rest of `VioGpuCommandDone`, up to `delete this`. -/
  | destroy
  deriving DecidableEq

/-- The submissions of the loop, each with a reference of its own, and the end of `Run`. -/
def submissions : List Packet → List RunAction
  | [] => [.release]
  | p :: ps => .addRef :: .submit p :: submissions ps

variable (range : DmaRange)

/-- `VioGpuCommand::Run`.  A range without bytes and one that is not valid are both
completed by a `NOP`. -/
def runActions : List RunAction :=
  .addRef ::
    if range.length = 0 then [.setPending 1, .addRef, .submit .nop, .release]
    else
      match countDmaCompletionPackets range with
      | .error _ => [.setPending 1, .addRef, .submit .nop, .release]
      | .ok count => .setPending count.packets :: submissions range.runPackets

def RunAction.packet? : RunAction → Option Packet
  | .submit p => some p
  | _ => none

def DmaRange.submitted : List Packet :=
  (runActions range).filterMap RunAction.packet?

/-! ## The machine -/

/-- Where a submitted packet is.  A `Bool` is what `OnPacketCompletedFromIsr` answered. -/
inductive PacketPoint where
  | queued
  /-- Decremented below zero, before the counter is set to zero. -/
  | underflowed
  /-- Decremented to zero, before `m_dmaNotified` is tested and set. -/
  | drained
  | staged (notified : Bool)
  /-- Its callback dropped the last reference. -/
  | deleting (notified : Bool)
  | completed (notified : Bool)
  deriving DecidableEq

/-- The command and everybody who works on it.  `completions` records the packets in the
order of their decrements, `deletions` how often the command was deleted. -/
structure DmaState where
  todo : List RunAction
  done : Int
  isrPendingPackets : Int
  dmaNotified : Bool
  packets : List PacketPoint
  completions : List Nat
  deletions : Nat

inductive DmaOp where
  | run
  | isr (i : Nat)
  | dpc (i : Nat)

variable (s : DmaState)

def runStep : Except Fault DmaState :=
  match s.todo with
  | [] => .ok s
  | .addRef :: rest => .ok { s with todo := rest, done := long (s.done + 1) }
  | .setPending n :: rest => .ok { s with todo := rest, isrPendingPackets := long n }
  | .submit p :: rest =>
    -- `BugCheckDmaQueueSubmitFailure`
    if p.accepted then .ok { s with todo := rest, packets := s.packets ++ [.queued] }
    else .error .bugCheck
  | .release :: rest =>
    let done := long (s.done - 1)
    .ok { s with todo := if done = 0 then .destroy :: rest else rest, done := done }
  | .destroy :: rest => .ok { s with todo := rest, deletions := s.deletions + 1 }

def isrStep (i : Nat) : DmaState :=
  match s.packets[i]? with
  | some .queued =>
    let pending := long (s.isrPendingPackets - 1)
    { s with
      isrPendingPackets := pending
      packets := s.packets.set i
        (if 0 < pending then .staged false else if pending < 0 then .underflowed else .drained)
      completions := s.completions ++ [i] }
  | some .underflowed =>
    { s with isrPendingPackets := 0, packets := s.packets.set i (.staged false) }
  | some .drained =>
    { s with dmaNotified := true, packets := s.packets.set i (.staged (!s.dmaNotified)) }
  | _ => s

def dpcStep (i : Nat) : DmaState :=
  match s.packets[i]? with
  | some (.staged notified) =>
    let done := long (s.done - 1)
    { s with
      done := done
      packets := s.packets.set i (if done = 0 then .deleting notified else .completed notified) }
  | some (.deleting notified) =>
    { s with packets := s.packets.set i (.completed notified), deletions := s.deletions + 1 }
  | _ => s

def dmaStep : DmaOp → Except Fault (DmaState × Unit)
  | .run => (runStep s).map fun t => (t, ())
  | .isr i => .ok (isrStep s i, ())
  | .dpc i => .ok (dpcStep s i, ())

/-- `PrepareSubmit` has reset the counters and `Run` begins. -/
def dmaStart : DmaState where
  todo := runActions range
  done := 0
  isrPendingPackets := 0
  dmaNotified := false
  packets := []
  completions := []
  deletions := 0

/-- Every order of steps is possible. -/
abbrev DmaReachable : DmaState → Prop :=
  Reachable (· = dmaStart range) (Next dmaStep fun _ _ => True)

/-! ## The count agrees with the submissions -/

variable {payload : List Byte}

theorem Packet.accepted_submit (short : payload.length ≤ 254 * pageSize) :
    (Packet.submit payload).accepted = true := by
  refine validate_of_le (show 32 ≤ pageSize by decide) (show 24 ≤ pageSize by decide) ?_
  show bytesToPages payload.length ≤ 254
  rw [bytesToPages_eq]
  rw [pageSize] at short
  omega

theorem Packet.accepted_transfer (toHost : Bool) (cmd : TransferCmd) :
    (Packet.transfer toHost cmd).accepted = true :=
  validate_of_le (show 72 ≤ pageSize by decide) (show 24 ≤ pageSize by decide)
    (show bytesToPages 0 ≤ 254 by decide)

theorem Packet.accepted_flip (cmd : PresentFlipCmd) : (Packet.flip cmd).accepted = true :=
  validate_of_le (show 48 ≤ pageSize by decide) (show 24 ≤ pageSize by decide)
    (show bytesToPages 0 ≤ 254 by decide)

theorem Packet.refused_submit (long : 254 * pageSize < payload.length) :
    (Packet.submit payload).accepted = false := by
  have pages : 254 < bytesToPages payload.length := by
    rw [bytesToPages_eq]
    rw [pageSize] at long
    omega
  rw [← Bool.not_eq_true]
  intro accepted
  have count : 1 + bytesToPages payload.length + 1 ≤ sglistSize := sgCount_le_of_valid accepted
  rw [sglistSize] at count
  omega

variable {range}

theorem packet_of_counted {c : DmaCommand} (counted : c.hdr.refusal = none) :
    ∃ p, range.packet c = some p := by
  unfold CommandHdr.refusal at counted
  unfold DmaRange.packet DmaCommand.kind
  cases kind : CommandKind.ofType c.hdr.type with
  | none =>
    rw [kind] at counted
    cases counted
  | some k =>
    rw [kind] at counted
    cases k with
    | nop | submit | transferToHost | transferFromHost => exact ⟨_, rfl⟩
    | presentFlip =>
      by_cases short : c.hdr.size < sizeofPresentFlipCmd
      · simp [short] at counted
      · exact ⟨_, if_neg short⟩

theorem length_filterMap_of_forall {α β : Type} {f : α → Option β} {l : List α}
    (all : ∀ a ∈ l, ∃ b, f a = some b) : (l.filterMap f).length = l.length := by
  induction l with
  | nil => rfl
  | cons a l ih =>
    obtain ⟨b, image⟩ := all a mem_cons_self
    rw [filterMap_cons_some image, length_cons, length_cons,
      ih fun a' member => all a' (mem_cons_of_mem _ member)]

theorem filterMap_submissions (ps : List Packet) :
    (submissions ps).filterMap RunAction.packet? = ps := by
  induction ps with
  | nil => rfl
  | cons p ps ih =>
    simp only [submissions, filterMap_cons, RunAction.packet?, ih]

theorem Frames.length_le {cursor stop : Nat} {cmds : List DmaCommand}
    (frames : Frames range cursor cmds stop) : cursor + 8 * cmds.length ≤ stop := by
  induction frames with
  | nil => simp
  | cons _ _ ih =>
    rw [length_cons]
    simp only [sizeofCommandHdr] at ih
    omega

/-- **The count agrees.**  Whatever the range, `Run` takes its base reference, sets the
counter to the number of packets it is going to submit, and submits them. -/
theorem runActions_eq (range : DmaRange) : runActions range =
        .addRef :: .setPending range.submitted.length :: submissions range.submitted ∧
      0 < range.submitted.length ∧ range.submitted.length ≤ 2 ^ 29 := by
  unfold DmaRange.submitted runActions
  split
  · exact ⟨rfl, by decide, by decide⟩
  rename_i some
  split
  · exact ⟨rfl, by decide, by decide⟩
  rename_i accepted
  obtain ⟨frames, -, fine, rfl⟩ := accepted_frames accepted
  have all : range.runPackets.length = range.runCommands.length :=
    length_filterMap_of_forall fun c member => packet_of_counted (fine c member)
  have shorter := frames.length_le
  have fits := range.small
  rw [filterMap_cons_none rfl, filterMap_cons_none rfl, filterMap_submissions, all]
  refine ⟨rfl, ?_, by omega⟩
  cases cmds : range.runCommands with
  | nil =>
    rw [cmds] at frames
    generalize same : range.length = stop at frames
    cases frames
    exact absurd same some
  | cons => exact Nat.succ_pos _

theorem submitted_accepted
    (short : ∀ c ∈ range.runCommands, c.kind = some .submit → c.hdr.size ≤ 254 * pageSize) :
    ∀ p ∈ range.submitted, p.accepted = true := by
  have nop : ∀ p ∈ [Packet.nop], p.accepted = true := by decide
  unfold DmaRange.submitted runActions
  split
  · exact nop
  split
  · exact nop
  rw [filterMap_cons_none rfl, filterMap_cons_none rfl, filterMap_submissions]
  intro p member
  obtain ⟨c, executed, packet⟩ := mem_filterMap.mp member
  unfold DmaRange.packet at packet
  cases kind : c.kind with
  | none =>
    rw [kind] at packet
    cases packet
  | some k =>
    rw [kind] at packet
    cases k with
    | nop =>
      cases packet
      exact nop _ mem_cons_self
    | submit =>
      cases packet
      apply Packet.accepted_submit
      rw [length_span]
      exact short c executed kind
    | transferToHost | transferFromHost =>
      cases packet
      exact Packet.accepted_transfer _ _
    | presentFlip =>
      simp only at packet
      split at packet
      · cases packet
      · cases packet
        exact Packet.accepted_flip _

/-! ## Counting -/

variable {pt : PacketPoint}

namespace PacketPoint

@[simp] def isOpen : PacketPoint → Bool
  | .queued | .underflowed | .drained | .staged _ => true
  | .deleting _ | .completed _ => false

@[simp] def isQueued : PacketPoint → Bool
  | .queued => true
  | _ => false

@[simp] def isUnderflowed : PacketPoint → Bool
  | .underflowed => true
  | _ => false

/-- `OnPacketCompletedFromIsr` answered `TRUE`. -/
@[simp] def isNotified : PacketPoint → Bool
  | .staged notified | .deleting notified | .completed notified => notified
  | _ => false

/-- It has answered `TRUE`, or is about to. -/
@[simp] def isAnswering : PacketPoint → Bool
  | .drained => true
  | .staged notified | .deleting notified | .completed notified => notified
  | _ => false

@[simp] def isDeleting : PacketPoint → Bool
  | .deleting _ => true
  | _ => false

@[simp] def isCompleted : PacketPoint → Bool
  | .completed _ => true
  | _ => false

theorem isCompleted_of_not (closed : pt.isOpen = false) (idle : pt.isDeleting = false) :
    pt.isCompleted = true := by
  cases pt with
  | completed => rfl
  | deleting => cases idle
  | _ => cases closed

theorem isAnswering_of_isNotified (notified : pt.isNotified = true) : pt.isAnswering = true := by
  cases pt <;> first | exact notified | cases notified

end PacketPoint

/-- Where `Run` is, for a range of `n` packets: what it has still to do, the references it
holds, the packets it has still to submit, and whether the counter of packets is set. -/
inductive RunPoint (n : Nat) : List RunAction → (held left : Nat) → (armed : Bool) → Prop where
  | enter {ps} (total : ps.length = n) (fit : ∀ p ∈ ps, p.accepted = true) :
      RunPoint n (.addRef :: .setPending n :: submissions ps) 0 n false
  | based {ps} (total : ps.length = n) (fit : ∀ p ∈ ps, p.accepted = true) :
      RunPoint n (.setPending n :: submissions ps) 1 n false
  | loop {ps} (fit : ∀ p ∈ ps, p.accepted = true) : RunPoint n (submissions ps) 1 ps.length true
  | referenced {p ps} (first : p.accepted = true) (fit : ∀ p ∈ ps, p.accepted = true) :
      RunPoint n (.submit p :: submissions ps) 2 (ps.length + 1) true
  | destroying : RunPoint n [.destroy] 0 0 true
  | finished : RunPoint n [] 0 0 true

structure Books (n : Nat) (s : DmaState) (held left : Nat) (armed : Bool) : Prop where
  total : s.packets.length + left = n
  /-- `m_done` counts the references of `Run` and of the packets. -/
  refs : s.done = held + s.packets.countP PacketPoint.isOpen
  /-- `m_isrPendingPackets` counts the packets that are not decremented. -/
  pending : s.isrPendingPackets =
    if armed then (left + s.packets.countP PacketPoint.isQueued : Int) else 0
  unarmed : armed = false → s.packets = []
  sound : s.packets.countP PacketPoint.isUnderflowed = 0
  /-- One packet answers, when none is left. -/
  answers : s.packets.countP PacketPoint.isAnswering =
    if armed = true ∧ left + s.packets.countP PacketPoint.isQueued = 0 then 1 else 0
  notified : s.dmaNotified = true ↔ 0 < s.packets.countP PacketPoint.isNotified
  order : s.completions.length + s.packets.countP PacketPoint.isQueued = s.packets.length
  last : ∀ (i : Nat) (pt : PacketPoint), s.packets[i]? = some pt → pt.isAnswering = true →
    s.completions.getLast? = some i
  /-- The deletion is due when nobody holds a reference. -/
  deleted : s.deletions + s.packets.countP PacketPoint.isDeleting +
      (if s.todo = [.destroy] then 1 else 0) =
    if held = 0 ∧ armed = true ∧ s.packets.countP PacketPoint.isOpen = 0 then 1 else 0

def DmaInv (n : Nat) (s : DmaState) : Prop :=
  ∃ held left armed, RunPoint n s.todo held left armed ∧ Books n s held left armed

variable {todo : List RunAction}

section Steps

open PacketPoint

variable {n held left : Nat} {armed : Bool} {s} {i : Nat} {pending done : Int}

theorem RunPoint.held_le (point : RunPoint n todo held left armed) : held ≤ 2 := by
  cases point <;> omega

theorem Books.done_lt (books : Books n s held left armed) (few : n ≤ 2 ^ 29) (low : held ≤ 2) :
    0 ≤ s.done ∧ s.done ≤ 2 ^ 29 + 2 := by
  have total := books.total
  have refs := books.refs
  have some : s.packets.countP isOpen ≤ s.packets.length := countP_le_length
  omega

theorem Books.pending_lt (books : Books n s held left armed) (few : n ≤ 2 ^ 29) :
    0 ≤ s.isrPendingPackets ∧ s.isrPendingPackets ≤ 2 ^ 29 := by
  have total := books.total
  have pending := books.pending
  have some : s.packets.countP isQueued ≤ s.packets.length := countP_le_length
  split at pending <;> omega

theorem submissions_ne_destroy (ps : List Packet) : submissions ps ≠ [.destroy] := by
  cases ps <;> simp [submissions]

theorem Books.alive (books : Books n s held left armed)
    (someone : 0 < held ∨ armed = false ∨ 0 < s.packets.countP isOpen) :
    s.deletions = 0 ∧ s.packets.countP isDeleting = 0 ∧ s.todo ≠ [.destroy] := by
  have deleted := books.deleted
  have none : ¬ (held = 0 ∧ armed = true ∧ s.packets.countP isOpen = 0) := by
    rintro ⟨_, set, _⟩
    rcases someone with _ | unset | _
    · omega
    · rw [set] at unset
      cases unset
    · omega
  rw [if_neg none] at deleted
  refine ⟨by omega, by omega, ?_⟩
  intro destroying
  rw [if_pos destroying] at deleted
  omega

theorem Books.rerun {held' : Nat} (books : Books n s held left armed)
    (someone : 0 < held ∨ armed = false) (refs : done = held' + s.packets.countP isOpen)
    (due : (if todo = [.destroy] then 1 else 0) =
      if held' = 0 ∧ armed = true ∧ s.packets.countP isOpen = 0 then 1 else 0) :
    Books n { s with todo := todo, done := done } held' left armed := by
  have alive := books.alive (someone.imp_right .inl)
  refine { books with refs := refs, deleted := ?_ }
  rw [due, alive.1, alive.2.1]
  simp

theorem Books.arm (books : Books n s 1 n false) (some : 0 < n) (set : pending = n)
    (other : todo ≠ [.destroy]) :
    Books n { s with todo := todo, isrPendingPackets := pending } 1 n true := by
  have none := books.unarmed rfl
  have alive := books.alive (.inr (.inl rfl))
  refine { books with pending := ?_, unarmed := nofun, answers := ?_, deleted := ?_ }
  · simp [set, none]
  · have more : n ≠ 0 := by omega
    simp [none, more]
  · simp [alive.1, none, other]

theorem Books.submit (books : Books n s 2 (left + 1) true) (other : todo ≠ [.destroy]) :
    Books n { s with todo := todo, packets := s.packets ++ [.queued] } 1 left true := by
  obtain ⟨noDeletion, noDeleting, -⟩ := books.alive (.inl (by decide))
  have refs := books.refs
  have pending := books.pending
  have total := books.total
  have order := books.order
  have noAnswer : s.packets.countP isAnswering = 0 := by
    rw [books.answers, if_neg (by omega)]
  constructor
  case total => simp only [length_append, length_singleton]; omega
  case refs => simp only [countP_start, isOpen, Bool.toNat_true]; omega
  case pending =>
    simp only [countP_start, isQueued, Bool.toNat_true, if_true] at pending ⊢
    omega
  case unarmed => exact nofun
  case sound => simpa [countP_start] using books.sound
  case answers =>
    simp only [countP_start, noAnswer]
    rfl
  case notified => simpa [countP_start] using books.notified
  case order =>
    simp only [countP_start, isQueued, Bool.toNat_true, length_append, length_singleton]
    omega
  case last =>
    intro i pt there answering
    rcases getElem?_start there with ⟨-, rfl⟩ | old
    · cases answering
    · have some := countP_pos_of_getElem? old isAnswering answering
      omega
  case deleted => simp [noDeletion, noDeleting, other]

/-- A step of `Run` keeps the books, -/
theorem runStep_keeps (some : 0 < n) (few : n ≤ 2 ^ 29) (inv : DmaInv n s) :
    ∃ t, runStep s = .ok t ∧ DmaInv n t := by
  obtain ⟨_, _, _, point, books⟩ := inv
  have bound := books.done_lt few point.held_le
  have refs := books.refs
  unfold runStep
  generalize now : s.todo = todo at point
  cases point with
  | enter total fit =>
    refine ⟨_, rfl, 1, n, false, .based total fit, ?_⟩
    refine books.rerun (.inr rfl) ?_ (by simp)
    rw [long_eq (by omega) (by omega)]
    omega
  | @based ps total fit =>
    refine ⟨_, rfl, 1, n, true, ?_, ?_⟩
    · have point := RunPoint.loop (n := n) fit
      rwa [total] at point
    · exact books.arm some (long_eq (by omega) (by omega)) (submissions_ne_destroy ps)
  | @loop ps fit =>
    cases ps with
    | nil =>
      -- the base reference: the command is deleted here if every packet is done
      have dropped : long (s.done - 1) = s.packets.countP isOpen := by
        rw [long_eq (by omega) (by omega)]
        omega
      by_cases free : s.packets.countP isOpen = 0
      · refine ⟨_, rfl, 0, 0, true, ?_, books.rerun (.inl (by decide)) ?_ ?_⟩
        · simp only [dropped, free]
          exact .destroying
        · simpa using dropped
        · simp [dropped]
      · refine ⟨_, rfl, 0, 0, true, ?_, books.rerun (.inl (by decide)) ?_ ?_⟩
        · have more : ¬ ((s.packets.countP isOpen : Int) = 0) := by omega
          simp only [dropped, if_neg more]
          exact .finished
        · simpa using dropped
        · simp [dropped]
    | cons p ps =>
      refine ⟨_, rfl, 2, ps.length + 1, true, ?_, ?_⟩
      · exact .referenced (fit p mem_cons_self) fun q member => fit q (mem_cons_of_mem _ member)
      · refine books.rerun (.inl (by decide)) ?_ (by simp)
        rw [long_eq (by omega) (by omega)]
        omega
  | @referenced p ps first fit =>
    simp only [first]
    exact ⟨_, rfl, 1, ps.length, true, .loop fit, books.submit (submissions_ne_destroy ps)⟩
  | destroying =>
    refine ⟨_, rfl, 0, 0, true, .finished, ?_⟩
    refine { books with deleted := ?_ }
    have deleted := books.deleted
    rw [if_pos now] at deleted
    rw [← deleted]
    rw [if_neg nofun, add_zero, Nat.add_right_comm]
  | finished => exact ⟨s, rfl, 0, 0, true, now ▸ .finished, books⟩

theorem Books.armed_of_packet (books : Books n s held left armed) (here : s.packets[i]? = some pt) :
    armed = true := by
  cases armed with
  | true => rfl
  | false =>
    rw [books.unarmed rfl] at here
    cases here

/-- The interrupt routine decrements for packet `i`: it is going to answer `TRUE` if no other
packet is with the device and none is left to submit. -/
theorem Books.decrement {new : PacketPoint} (books : Books n s held left true)
    (here : s.packets[i]? = some .queued) (set : pending = s.isrPendingPackets - 1)
    (choice : new = if left + s.packets.countP isQueued = 1 then .drained else .staged false) :
    Books n { s with isrPendingPackets := pending, packets := s.packets.set i new,
                     completions := s.completions ++ [i] } held left true := by
  have flags : new.isOpen = true ∧ new.isQueued = false ∧ new.isUnderflowed = false ∧
      new.isNotified = false ∧ new.isDeleting = false ∧
      (new.isAnswering = true ↔ left + s.packets.countP isQueued = 1) := by
    rw [choice]
    split
    · rename_i only
      exact ⟨rfl, rfl, rfl, rfl, rfl, iff_of_true rfl only⟩
    · rename_i more
      exact ⟨rfl, rfl, rfl, rfl, rfl, iff_of_false nofun more⟩
  obtain ⟨opens, notQueued, notUnderflowed, notNotified, notDeleting, answer⟩ := flags
  have queued := countP_leave here new isQueued rfl notQueued
  have opened := countP_same here new isOpen opens
  -- nobody has answered as long as packet `i` was with the device
  have before : s.packets.countP isAnswering = 0 := by
    rw [books.answers, if_neg (by omega)]
  constructor
  case total => simpa using books.total
  case refs => rw [opened]; exact books.refs
  case pending =>
    have old := books.pending
    simp only [if_true] at old ⊢
    omega
  case unarmed => exact nofun
  case sound => rw [countP_same here new isUnderflowed notUnderflowed]; exact books.sound
  case answers =>
    have answering := countP_move here new isAnswering
    by_cases only : left + s.packets.countP isQueued = 1
    · have none : left + (s.packets.set i new).countP isQueued = 0 := by omega
      rw [answer.mpr only, before] at answering
      rw [if_pos ⟨rfl, none⟩]
      exact answering
    · have more : left + (s.packets.set i new).countP isQueued ≠ 0 := by omega
      rw [Bool.eq_false_iff.mpr (mt answer.mp only), before] at answering
      rw [if_neg (mt And.right more)]
      exact answering
  case notified => rw [countP_same here new isNotified notNotified]; exact books.notified
  case order =>
    have order := books.order
    simp only [length_append, length_set, length_singleton]
    omega
  case last =>
    intro j pt there answering
    rcases getElem?_move there with ⟨rfl, -⟩ | ⟨-, old⟩
    · exact getLast?_concat
    · have some := countP_pos_of_getElem? old isAnswering answering
      omega
  case deleted =>
    rw [countP_same here new isDeleting notDeleting, opened]
    exact books.deleted

theorem Books.advance {old new : PacketPoint} {dmaNotified : Bool} {deletions : Nat}
    (books : Books n s held left armed) (here : s.packets[i]? = some old)
    (queued : new.isQueued = old.isQueued) (underflowed : new.isUnderflowed = old.isUnderflowed)
    (answering : new.isAnswering = old.isAnswering)
    (refs : done = held + (s.packets.set i new).countP isOpen)
    (notified : dmaNotified = true ↔ 0 < (s.packets.set i new).countP isNotified)
    (deleted : deletions + (s.packets.set i new).countP isDeleting +
        (if s.todo = [.destroy] then 1 else 0) =
      if held = 0 ∧ armed = true ∧ (s.packets.set i new).countP isOpen = 0
      then 1 else 0) :
    Books n { s with done := done, dmaNotified := dmaNotified, packets := s.packets.set i new,
                     deletions := deletions } held left armed := by
  constructor
  case total => simpa using books.total
  case refs => exact refs
  case pending => rw [countP_same here new isQueued queued]; exact books.pending
  case unarmed =>
    intro unset
    rw [books.armed_of_packet here] at unset
    cases unset
  case sound => rw [countP_same here new isUnderflowed underflowed]; exact books.sound
  case answers =>
    rw [countP_same here new isAnswering answering, countP_same here new isQueued queued]
    exact books.answers
  case notified => exact notified
  case order =>
    rw [countP_same here new isQueued queued]
    simpa using books.order
  case last =>
    intro j pt there answers
    rcases getElem?_move there with ⟨rfl, rfl⟩ | ⟨-, other⟩
    · exact books.last j old here (answering ▸ answers)
    · exact books.last j pt other answers
  case deleted => exact deleted

/-- a step of the interrupt routine does, -/
theorem isrStep_keeps (few : n ≤ 2 ^ 29) (inv : DmaInv n s) : DmaInv n (isrStep s i) := by
  obtain ⟨held, left, armed, point, books⟩ := inv
  unfold isrStep
  split
  · rename_i here
    obtain rfl := books.armed_of_packet here
    refine ⟨held, left, true, point, ?_⟩
    have bound := books.pending_lt few
    have pending := books.pending
    have some := countP_pos_of_getElem? here isQueued rfl
    have less : long (s.isrPendingPackets - 1) = s.isrPendingPackets - 1 :=
      long_eq (by omega) (by omega)
    refine books.decrement here less ?_
    simp only [if_true] at pending
    by_cases only : left + s.packets.countP isQueued = 1
    · rw [if_pos only, if_neg (by omega), if_neg (by omega)]
    · rw [if_neg only, if_pos (by omega)]
  · rename_i here
    have some := countP_pos_of_getElem? here isUnderflowed rfl
    have none := books.sound
    omega
  · rename_i here
    obtain rfl := books.armed_of_packet here
    -- the packet is the only one that answers, so nobody has been notified
    have first : s.packets.countP isNotified = 0 := by
      have others := countP_leave here (.staged false) isAnswering rfl rfl
      have same := countP_same here (.staged false) isNotified rfl
      have fewer : (s.packets.set i (.staged false)).countP isNotified ≤
          (s.packets.set i (.staged false)).countP isAnswering :=
        countP_mono_left fun pt _ => isAnswering_of_isNotified
      have answers := books.answers
      split at answers <;> omega
    have unset : s.dmaNotified = false := by
      rw [Bool.eq_false_iff]
      intro set
      have some := books.notified.mp set
      omega
    rw [unset, Bool.not_false]
    refine ⟨held, left, true, point, books.advance here rfl rfl rfl ?_ ?_ ?_⟩
    · rw [countP_same here (.staged true) isOpen rfl]
      exact books.refs
    · rw [countP_enter here (.staged true) isNotified rfl rfl]
      simp
    · rw [countP_same here (.staged true) isDeleting rfl,
        countP_same here (.staged true) isOpen rfl]
      exact books.deleted
  · exact ⟨held, left, armed, point, books⟩

/-- and a step of the DPC. -/
theorem dpcStep_keeps (few : n ≤ 2 ^ 29) (inv : DmaInv n s) : DmaInv n (dpcStep s i) := by
  obtain ⟨held, left, armed, point, books⟩ := inv
  have bound := books.done_lt few point.held_le
  have refs := books.refs
  unfold dpcStep
  split
  · rename_i notified here
    have opened := countP_pos_of_getElem? here isOpen rfl
    obtain ⟨_, _, noDestroy⟩ := books.alive (.inr (.inr opened))
    obtain rfl := books.armed_of_packet here
    have dropped : long (s.done - 1) = s.done - 1 := long_eq (by omega) (by omega)
    refine ⟨held, left, true, point, ?_⟩
    simp only [dropped]
    by_cases last : s.done - 1 = 0
    · rw [if_pos last]
      have fewer := countP_leave here (.deleting notified) isOpen rfl rfl
      refine books.advance here rfl rfl rfl (by omega) ?_ ?_
      · rw [countP_same here (.deleting notified) isNotified rfl]
        exact books.notified
      · rw [countP_enter here (.deleting notified) isDeleting rfl rfl, if_neg noDestroy,
          if_pos ⟨by omega, rfl, by omega⟩]
        omega
    · rw [if_neg last]
      have fewer := countP_leave here (.completed notified) isOpen rfl rfl
      refine books.advance here rfl rfl rfl (by omega) ?_ ?_
      · rw [countP_same here (.completed notified) isNotified rfl]
        exact books.notified
      · rw [countP_same here (.completed notified) isDeleting rfl, if_neg noDestroy,
          if_neg (by omega)]
        omega
  · rename_i notified here
    have fewer := countP_leave here (.completed notified) isDeleting rfl rfl
    refine ⟨held, left, armed, point, books.advance here rfl rfl rfl ?_ ?_ ?_⟩
    · rw [countP_same here (.completed notified) isOpen rfl]
      exact books.refs
    · rw [countP_same here (.completed notified) isNotified rfl]
      exact books.notified
    · have deleted := books.deleted
      rw [countP_same here (.completed notified) isOpen rfl]
      omega
  · exact ⟨held, left, armed, point, books⟩

theorem dmaInv_start (fit : ∀ p ∈ range.submitted, p.accepted = true) :
    DmaInv range.submitted.length (dmaStart range) := by
  refine ⟨0, range.submitted.length, false, ?_, ?_⟩
  · show RunPoint _ (runActions range) _ _ _
    rw [(runActions_eq range).1]
    exact .enter rfl fit
  constructor
  case total => exact zero_add _
  case refs => rfl
  case pending => rfl
  case unarmed => exact fun _ => rfl
  case sound => rfl
  case answers => rfl
  case notified => exact iff_of_false nofun nofun
  case order => rfl
  case last => exact nofun
  case deleted =>
    rfl

theorem dmaInv_of_reachable (fit : ∀ p ∈ range.submitted, p.accepted = true)
    (reach : DmaReachable range s) : DmaInv range.submitted.length s := by
  obtain ⟨-, some, few⟩ := runActions_eq range
  refine reach.machine_run (dmaInv_start fit) ?_
  intro s op inv _
  cases op with
  | run =>
    obtain ⟨t, stepped, inv'⟩ := runStep_keeps some few inv
    refine ⟨t, (), ?_, inv'⟩
    rw [dmaStep, stepped]
    rfl
  | isr => exact ⟨_, (), rfl, isrStep_keeps few inv⟩
  | dpc => exact ⟨_, (), rfl, dpcStep_keeps few inv⟩

theorem RunPoint.of_nil (point : RunPoint n [] held left armed) :
    held = 0 ∧ left = 0 ∧ armed = true := by
  generalize nil : [] = todo at point
  cases point with
  | @loop ps => cases ps <;> cases nil
  | finished => exact ⟨rfl, rfl, rfl⟩
  | _ => cases nil

theorem RunPoint.of_unheld (point : RunPoint n todo held left true) (noRef : held = 0)
    (other : todo ≠ [.destroy]) : todo = [] ∧ left = 0 := by
  cases point with
  | destroying => exact absurd rfl other
  | finished => exact ⟨rfl, rfl⟩
  | _ => cases noRef

theorem DmaInv.notified_le (inv : DmaInv n s) : s.packets.countP isNotified ≤ 1 := by
  obtain ⟨_, _, _, -, books⟩ := inv
  have fewer : s.packets.countP isNotified ≤ s.packets.countP isAnswering :=
    countP_mono_left fun pt _ => isAnswering_of_isNotified
  have answers := books.answers
  split at answers <;> omega

/-- The packet that answers `TRUE` is the last to be completed. -/
theorem DmaInv.notified_last (inv : DmaInv n s) (here : s.packets[i]? = some pt)
    (notified : pt.isNotified = true) :
    s.completions.length = n ∧ s.completions.getLast? = some i := by
  obtain ⟨_, _, _, -, books⟩ := inv
  have answering := isAnswering_of_isNotified notified
  have some := countP_pos_of_getElem? here isAnswering answering
  have answers := books.answers
  have order := books.order
  have total := books.total
  refine ⟨?_, books.last i pt here answering⟩
  split at answers <;> omega

/-- The command is deleted once, after `Run` and all packets. -/
theorem DmaInv.deleted_last (inv : DmaInv n s) (deleted : 0 < s.deletions) :
    s.deletions = 1 ∧ s.todo = [] ∧ s.packets.length = n ∧
      ∀ pt ∈ s.packets, pt.isCompleted = true := by
  obtain ⟨held, _, armed, point, books⟩ := inv
  have due := books.deleted
  by_cases nobody : held = 0 ∧ armed = true ∧ s.packets.countP isOpen = 0
  · rw [if_pos nobody] at due
    obtain ⟨noRef, rfl, closed⟩ := nobody
    have other : s.todo ≠ [.destroy] := by
      intro destroying
      rw [if_pos destroying] at due
      omega
    obtain ⟨atEnd, _⟩ := point.of_unheld noRef other
    have total := books.total
    have idle : s.packets.countP isDeleting = 0 := by omega
    refine ⟨by omega, atEnd, by omega, ?_⟩
    intro pt member
    apply isCompleted_of_not
    · simpa using countP_eq_zero.mp closed pt member
    · simpa using countP_eq_zero.mp idle pt member
  · rw [if_neg nobody] at due
    omega

theorem DmaInv.finished (inv : DmaInv n s) (atEnd : s.todo = [])
    (all : ∀ pt ∈ s.packets, pt.isCompleted = true) :
    s.packets.length = n ∧ s.packets.countP isNotified = 1 ∧ s.deletions = 1 := by
  obtain ⟨_, _, _, point, books⟩ := inv
  rw [atEnd] at point
  obtain ⟨rfl, rfl, rfl⟩ := point.of_nil
  have none : ∀ p : PacketPoint → Bool, (∀ b, p (.completed b) = false) →
      s.packets.countP p = 0 := by
    intro p never
    refine countP_eq_zero.mpr fun pt member => ?_
    have done := all pt member
    cases pt with
    | completed => simp [never]
    | _ => cases done
  have same : s.packets.countP isAnswering = s.packets.countP isNotified := by
    apply countP_congr
    intro pt member
    have done := all pt member
    cases pt with
    | completed => exact Iff.rfl
    | _ => cases done
  refine ⟨books.total, ?_, ?_⟩
  · rw [← same, books.answers, none isQueued fun _ => rfl]
    rfl
  · have due := books.deleted
    rw [atEnd, none isDeleting fun _ => rfl, none isOpen fun _ => rfl] at due
    exact due

end Steps

/-- **Notified once, freed once.**  For a range whose `SUBMIT` payloads fit into the control
queue: the counter is set to the number of packets submitted, no step stops the system, the
answer `TRUE` is given at most once and only for the last packet to complete, the command is
deleted at most once and only after `Run` and all callbacks are done, and when they are, both
have happened. -/
theorem submission_notified_and_freed_once (range : DmaRange)
    (short : ∀ c ∈ range.runCommands, c.kind = some .submit → c.hdr.size ≤ 254 * pageSize)
    (s : DmaState) (reach : DmaReachable range s) :
    (∃ rest, runActions range = .addRef :: .setPending range.submitted.length :: rest) ∧
      (∀ op, faultOf (dmaStep s op) = none) ∧
      s.packets.countP PacketPoint.isNotified ≤ 1 ∧
      (∀ (i : Nat) (pt : PacketPoint), s.packets[i]? = some pt → pt.isNotified = true →
        s.completions.length = range.submitted.length ∧ s.completions.getLast? = some i) ∧
      (0 < s.deletions → s.deletions = 1 ∧ s.todo = [] ∧
        s.packets.length = range.submitted.length ∧ ∀ pt ∈ s.packets, pt.isCompleted = true) ∧
      (s.todo = [] → (∀ pt ∈ s.packets, pt.isCompleted = true) →
        s.packets.length = range.submitted.length ∧
          s.packets.countP PacketPoint.isNotified = 1 ∧ s.deletions = 1) := by
  have inv := dmaInv_of_reachable (submitted_accepted short) reach
  obtain ⟨actions, some, few⟩ := runActions_eq range
  refine ⟨⟨_, actions⟩, ?_, inv.notified_le, ?_, inv.deleted_last, inv.finished⟩
  · intro op
    cases op with
    | run =>
      obtain ⟨t, stepped, -⟩ := runStep_keeps some few inv
      rw [dmaStep, stepped]
      rfl
    | isr | dpc => rfl
  · intro i pt here notified
    exact inv.notified_last here notified

def twoNops : DmaRange where
  read := memory (headerBytes 0 0 ++ headerBytes 0 0)
  length := 16
  small := by decide

/-- The first packet comes back while `Run` is about to submit the second, and the second
before `Run` drops its own reference. -/
theorem twoNops_notified_and_freed_once :
    ∃ s, DmaReachable twoNops s ∧ s.packets = [.completed false, .completed true] ∧
      s.packets.countP PacketPoint.isNotified = 1 ∧ s.deletions = 1 := by
  have replay : ∃ s ∈ attempt dmaStep (fun _ _ => True) (dmaStart twoNops)
      [.run, .run, .run, .run, .isr 0, .run, .dpc 0, .run, .isr 1, .isr 1, .dpc 1, .run, .run],
      s.todo = [] ∧ s.packets = [.completed false, .completed true] := by
    decide
  obtain ⟨s, reach, todo, packets⟩ := reachable_of_replay _ replay
  obtain ⟨-, -, -, -, -, finished⟩ := submission_notified_and_freed_once twoNops (by decide) s reach
  refine ⟨s, reach, packets, (finished todo ?_).2⟩
  rw [packets]
  decide

theorem bugCheck_of_refused {p : Packet} {ps : List Packet} (first : range.submitted = p :: ps)
    (refused : p.accepted = false) :
    ∃ s, DmaReachable range s ∧ dmaStep s .run = .error .bugCheck := by
  have actions := (runActions_eq range).1
  rw [first] at actions
  have entered : DmaReachable range (dmaStart range) := .start rfl
  have based := Reachable.next entered
    ⟨.run, (), trivial, by simp only [dmaStart, actions]; rfl⟩
  have armed := Reachable.next based ⟨.run, (), trivial, rfl⟩
  have referenced := Reachable.next armed ⟨.run, (), trivial, rfl⟩
  refine ⟨_, referenced, ?_⟩
  simp only [dmaStep, runStep, refused]
  rfl

def oversizedSubmit : DmaRange where
  read := memory [1, 0, 0, 0, 0x01, 0xE0, 0x0F, 0x00]
  length := 1040393
  small := by decide

/-- It is accepted and counted, but not submitted. -/
theorem oversizedSubmit_bugCheck : countDmaCompletionPackets oversizedSubmit = .ok ⟨1040393, 1⟩ ∧
      ∃ s, DmaReachable oversizedSubmit s ∧ dmaStep s .run = .error .bugCheck := by
  have accepted : countDmaCompletionPackets oversizedSubmit = .ok ⟨1040393, 1⟩ := by decide
  have submitted : oversizedSubmit.submitted = [.submit (span oversizedSubmit.read 8 1040385)] := by
    rw [DmaRange.submitted, runActions]
    rfl
  refine ⟨accepted, bugCheck_of_refused submitted (Packet.refused_submit ?_)⟩
  rw [length_span]
  decide

end KvmGuestDrivers.VioGpu

/-
# VioSock.RxQueue -- the receive path of a vsock socket

A packet that arrives for a connected socket is kept in the buffer it came in, a control block
of `RxCbList`, or its bytes are appended to the last block of the list.  A write of a loopback
peer is put into the same list, with the buffer of its request.  Reads wait in `ReadQueue` and
take bytes from the blocks.

Memory has a byte where the device, or the writer, has reported one, and nothing elsewhere.
What was copied, and the bytes that were accepted, are noted and read by nothing.  The event bits
of a socket change none of this.
-/
import KvmGuestDrivers.Theory.Bytes
import KvmGuestDrivers.Theory.Calls
import KvmGuestDrivers.Theory.Transition

namespace KvmGuestDrivers.VioSock

set_option autoImplicit false

open Theory

/-! ## Blocks, reads and the socket -/

def rxBufSize : Nat := 4096

def bytesToMerge : BitVec 32 := 128

def headerSize : Nat := 44

abbrev RxMemory := Nat → Option Byte

/-- `memcpy`, of `n` bytes from the start of `src` to `start`. -/
def RxMemory.write (mem : RxMemory) (start n : Nat) (src : RxMemory) : RxMemory := fun i =>
  if start ≤ i ∧ i < start + n then src (i - start) else mem i

def RxMemory.read (mem : RxMemory) (start n : Nat) : List (Option Byte) :=
  (List.range' start n).map mem

/-- `VIOSOCK_RX_CB`.  Only the blocks of loopback writes have a request. -/
structure RxCb where
  request : Option Nat
  size : Nat
  mem : RxMemory
  dataLen : BitVec 32
  bytesToRead : BitVec 32
  /-- The distance of `ReadPtr` from `BufferVA`. -/
  readPtr : Nat

/-- A range of a buffer that was read or written. -/
structure RxAccess where
  start : Nat
  len : Nat
  size : Nat
  deriving DecidableEq

/-- `VIOSOCK_RX_CONTEXT`, of a read. -/
structure ReadReq where
  id : Nat
  bufferLen : BitVec 32
  freeBytes : BitVec 32
  peek : Bool
  waitAll : Bool
  /-- The bytes in its buffer, up to `FreePtr`. -/
  out : List (Option Byte)

/-- The fields of a socket that `RxLock` guards. -/
structure RxSocket where
  rxCbList : List RxCb
  rxBytes : BitVec 32
  fwdCnt : BitVec 32
  bufAlloc : BitVec 32
  /-- The loopback writes whose cancellation has begun, and whose cancel routine is to come. -/
  cancels : List Nat
  /-- The blocks of such writes that a read has taken out of the list. -/
  unlinked : List RxCb
  accepted : List (Option Byte)
  accesses : List RxAccess

variable (s : RxSocket)

variable (pktLen : BitVec 32)

def rxPktInc : Option RxSocket :=
  if s.bufAlloc < s.rxBytes + pktLen then none
  else some { s with rxBytes := s.rxBytes + pktLen }

def rxPktDec : RxSocket :=
  { s with rxBytes := s.rxBytes - pktLen, fwdCnt := s.fwdCnt + pktLen }

/-! ## Packets and loopback writes -/

def pktCb (mem : RxMemory) : RxCb :=
  { request := none, size := rxBufSize, mem := mem, dataLen := pktLen, bytesToRead := pktLen
    readPtr := 0 }

variable (request : Nat)

/-- The block of a loopback write, as `VIOSockRxCbEntryForRequest` makes it. -/
def requestCb (length : BitVec 32) (mem : RxMemory) : RxCb :=
  { request := some request, size := length.toNat, mem := mem, dataLen := length
    bytesToRead := length, readPtr := 0 }

variable (cb : RxCb)

def insertCb : RxSocket :=
  { s with
      rxCbList := s.rxCbList ++ [cb]
      accepted := s.accepted ++ cb.mem.read 0 cb.dataLen.toNat }

/-- The second part of `VIOSockRxPktEnqueueCb`. -/
def enqueueBuffer (mem : RxMemory) (bRes : Bool) : RxSocket × Bool :=
  match rxPktInc s pktLen with
  | some s => (insertCb s (pktCb pktLen mem), bRes)
  | none => (s, false)

def mergeCb (pktLen : BitVec 32) (mem : RxMemory) : RxCb :=
  { cb with
      mem := cb.mem.write cb.dataLen.toNat pktLen.toNat mem
      dataLen := cb.dataLen + pktLen
      bytesToRead := cb.bytesToRead + pktLen }

def mergeLast (last : RxCb) (pktLen : BitVec 32) (mem : RxMemory) : RxSocket :=
  { s with
      rxCbList := s.rxCbList.dropLast ++ [mergeCb last pktLen mem]
      accepted := s.accepted ++ mem.read 0 pktLen.toNat
      accesses := s.accesses ++
        [⟨0, pktLen.toNat, rxBufSize⟩, ⟨last.dataLen.toNat, pktLen.toNat, last.size⟩] }

/-- `VIOSockRxPktEnqueueCb`, for a packet with this length in its header. -/
def rxPktEnqueueCb (mem : RxMemory) : RxSocket × Bool :=
  match s.rxCbList.getLast? with
  | none => enqueueBuffer s pktLen mem true
  | some last =>
    if pktLen ≤ bytesToMerge then
      let bufferFree := BitVec.ofNat 32 rxBufSize - last.dataLen
      if pktLen ≤ bufferFree then
        match rxPktInc s pktLen with
        | some s => (mergeLast s last pktLen mem, false)
        | none => (s, false)
      else enqueueBuffer s pktLen mem false
    else enqueueBuffer s pktLen mem true

/-- `VIOSockRxRequestEnqueueCb`; `marked` is the result of `WdfRequestMarkCancelableEx`.  The
result is whether the write was queued. -/
def rxRequestEnqueueCb (length : BitVec 32) (mem : RxMemory) (marked : Bool) : RxSocket × Bool :=
  match rxPktInc s length with
  | some s => if marked then (insertCb s (requestCb request length mem), true) else (s, false)
  | none => (s, false)

/-- The framework cancels a loopback write that is marked cancelable. -/
def cancelWrite : RxSocket :=
  if request ∉ s.cancels ∧ ∃ cb ∈ s.rxCbList, cb.request = some request then
    { s with cancels := request :: s.cancels }
  else s

/-- `VIOSockRxRequestCancelCb`.  A block that a read has taken out of the list is linked to
itself, and removing it does nothing. -/
def rxRequestCancelCb : RxSocket :=
  if request ∈ s.cancels then
    match (s.rxCbList ++ s.unlinked).find? fun cb => cb.request = some request with
    | none => s
    | some cb =>
      { rxPktDec s cb.bytesToRead with
          rxCbList := s.rxCbList.filter fun cb => cb.request ≠ some request
          unlinked := s.unlinked.filter fun cb => cb.request ≠ some request
          cancels := s.cancels.erase request }
  else s

/-! ## Reads -/

/-- The framework has begun to cancel the write of a block, and `WdfRequestUnmarkCancelable`
fails. -/
def cancelling : Bool :=
  match cb.request with
  | none => false
  | some request => request ∈ s.cancels

def noteRead (n : BitVec 32) : RxSocket :=
  { s with accesses := s.accesses ++ [⟨cb.readPtr, n.toNat, cb.size⟩] }

def ReadReq.copy (req : ReadReq) (cb : RxCb) (n : BitVec 32) : ReadReq :=
  { req with
      out := req.out ++ cb.mem.read cb.readPtr n.toNat
      freeBytes := req.freeBytes - n }

/-- A block whose bytes were all copied leaves the list.  The bytes of a write that is being
cancelled are left to its cancel routine, which finds none. -/
def finishCb : RxSocket :=
  if cancelling s cb then { s with unlinked := { cb with bytesToRead := 0 } :: s.unlinked }
  else rxPktDec s cb.bytesToRead

/-- A block with more bytes than the read has room for stays at the head of the list. -/
def takePart (n : BitVec 32) (rest : List RxCb) : RxSocket :=
  { rxPktDec s n with
      rxCbList :=
        { cb with readPtr := cb.readPtr + n.toNat, bytesToRead := cb.bytesToRead - n } :: rest }

/-- The loop of `VIOSockReadDequeueCb` over the blocks of the list. -/
def copyCbs (s : RxSocket) (req : ReadReq) : List RxCb → RxSocket × ReadReq
  | [] => ({ s with rxCbList := [] }, req)
  | cb :: rest =>
    if cb.bytesToRead ≤ req.freeBytes then
      let s := noteRead s cb cb.bytesToRead
      if req.peek then
        let (s, req) := copyCbs s (req.copy cb cb.bytesToRead) rest
        ({ s with rxCbList := cb :: s.rxCbList }, req)
      else copyCbs (finishCb s cb) (req.copy cb cb.bytesToRead) rest
    else
      let s := noteRead s cb req.freeBytes
      if req.peek then ({ s with rxCbList := cb :: rest }, req.copy cb req.freeBytes)
      else (takePart s cb req.freeBytes rest, req.copy cb req.freeBytes)

inductive NtStatus where
  | success
  | cantWait
  | ioTimeout
  | cancelled
  | localDisconnect
  | remoteDisconnect
  | other
  deriving DecidableEq

/-- What the rest of the driver and the framework answer to a read. -/
structure ReadChoice where
  nonBlocking : Bool
  connected : Bool
  validate : NtStatus
  /-- `llTimeout` is not zero and within the tolerance. -/
  expired : Bool
  requeue : NtStatus

inductive ReadEnd where
  | requeued (req : ReadReq)
  | completed (req : ReadReq) (status : NtStatus)

def ReadEnd.req : ReadEnd → ReadReq
  | .requeued req => req
  | .completed req _ => req

/-- The two places at which a read is requeued. -/
def requeueRead (req : ReadReq) (c : ReadChoice) : ReadEnd :=
  if c.expired then .completed req .ioTimeout
  else if c.requeue = .success then .requeued req
  else .completed req c.requeue

def readNoData (req : ReadReq) (c : ReadChoice) : ReadEnd :=
  if c.nonBlocking ∨ c.connected = false then
    if c.validate = .success then
      if c.nonBlocking then .completed req .cantWait else requeueRead req c
    else if c.validate = .remoteDisconnect then .completed req .success
    else .completed req c.validate
  else if c.validate = .success then requeueRead req c
  else if c.validate = .localDisconnect ∨ c.validate = .remoteDisconnect then
    .completed req .success
  else .completed req c.validate

/-- `VIOSockReadDequeueCb` from the lock on, with the socket, the end of the read and whether the
caller goes on.  A requeue may call `VIOSockReadSocketState` on the same thread, which
`RxProcessingThreadId` sends back at once. -/
def readLocked (req : ReadReq) (c : ReadChoice) : RxSocket × ReadEnd × Bool :=
  if s.rxBytes = 0 then (s, readNoData req c, false)
  else
    let (s, req) := copyCbs s req s.rxCbList
    if req.freeBytes = 0 ∨ req.peek then (s, .completed req .success, true)
    else if req.bufferLen = req.freeBytes ∨ req.waitAll then
      match requeueRead req c with
      | .requeued req => (s, .requeued req, false)
      | .completed req status => (s, .completed req status, true)
    else (s, .completed req .success, true)

/-! ## Runs -/

/-- Where a call of `VIOSockReadProcessDequeueCb` is. -/
inductive RxPoint where
  | retrieving
  | holding (req : ReadReq)
  | done

def RxPoint.isDone : RxPoint → Bool
  | .done => true
  | _ => false

structure RxRun where
  sock : RxSocket
  queue : List ReadReq
  calls : List RxPoint
  completed : List (ReadReq × NtStatus)
  nextId : Nat

inductive RxOp where
  /-- A data packet, with the length that the device reports and that of its header. -/
  | packet (len headerLen : BitVec 32) (data : Memory)
  | write (length : BitVec 32) (data : Memory) (marked : Bool)
  | read (length : BitVec 32) (peek waitAll : Bool)
  | scan
  | step (i : Nat) (c : ReadChoice)
  | cancel (request : Nat)
  | cancelRoutine (request : Nat)
  /-- A read in the queue is completed by its timer, or because it was cancelled. -/
  | endRead (i : Nat) (status : NtStatus)

/-- The buffer of a packet: the device has written what follows the header. -/
def pktMemory (len : BitVec 32) (data : Memory) : RxMemory := fun i =>
  if headerSize + i < len.toNat then some (data i) else none

/-- Short and long packets are dropped by `VIOSockRxVqProcess`. -/
def shortOrLong (len headerLen : BitVec 32) : Bool :=
  len.toNat < headerSize ∨ headerSize + headerLen.toNat < len.toNat

def scanIf (b : Bool) (s : RxRun) : RxRun :=
  if b then { s with calls := s.calls ++ [.retrieving] } else s

def readAdvance (s : RxRun) (i : Nat) (c : ReadChoice) : RxPoint → RxRun
  | .retrieving =>
    match s.queue with
    | [] => { s with calls := s.calls.set i .done }
    | req :: rest => { s with queue := rest, calls := s.calls.set i (.holding req) }
  | .holding req =>
    let (sock, ends, bRestart) := readLocked s.sock req c
    let calls := s.calls.set i (if bRestart then .retrieving else .done)
    let s := { s with sock := sock, calls := calls }
    match ends with
    | .requeued req => { s with queue := req :: s.queue }
    | .completed req status => { s with completed := s.completed ++ [(req, status)] }
  | .done => s

/-- `VIOSockReadDequeueCb` takes a read off the queue before it acquires the lock. -/
def rxStep (s : RxRun) : RxOp → Except Empty (RxRun × Unit)
  | .packet len headerLen data =>
    if shortOrLong len headerLen then .ok (s, ())
    else
      let (sock, bRes) := rxPktEnqueueCb s.sock headerLen (pktMemory len data)
      .ok (scanIf bRes { s with sock := sock }, ())
  | .write length data marked =>
    let (sock, queued) :=
      rxRequestEnqueueCb s.sock s.nextId length (fun i => some (data i)) marked
    .ok (scanIf queued { s with sock := sock, nextId := s.nextId + 1 }, ())
  | .read length peek waitAll =>
    let req : ReadReq :=
      { id := s.nextId, bufferLen := length, freeBytes := length, peek := peek
        waitAll := waitAll, out := [] }
    -- the ready callback
    .ok (scanIf s.queue.isEmpty
      { s with queue := s.queue ++ [req], nextId := s.nextId + 1 }, ())
  | .scan => .ok (scanIf true s, ())
  | .step i c =>
    match s.calls[i]? with
    | none => .ok (s, ())
    | some p => .ok (readAdvance s i c p, ())
  | .cancel request => .ok ({ s with sock := cancelWrite s.sock request }, ())
  | .cancelRoutine request => .ok ({ s with sock := rxRequestCancelCb s.sock request }, ())
  | .endRead i status =>
    match s.queue[i]? with
    | none => .ok (s, ())
    | some req =>
      .ok ({ s with
        queue := s.queue.eraseIdx i, completed := s.completed ++ [(req, status)] }, ())

/-- A connected socket with this receive window, before the first packet. -/
def rxStart (bufAlloc : BitVec 32) : RxRun :=
  { sock :=
      { rxCbList := [], rxBytes := 0, fwdCnt := 0, bufAlloc := bufAlloc, cancels := []
        unlinked := [], accepted := [], accesses := [] }
    queue := [], calls := [], completed := [], nextId := 0 }

def RxIdle (s : RxRun) : Prop := ∀ p ∈ s.calls, p.isDone = true

instance (s : RxRun) : Decidable (RxIdle s) :=
  inferInstanceAs (Decidable (∀ p ∈ s.calls, p.isDone = true))

/-! ## What a packet does -/

theorem rxPktInc_some {s t : RxSocket} {n : BitVec 32} (inc : rxPktInc s n = some t) :
    t = { s with rxBytes := s.rxBytes + n } := by
  rw [rxPktInc] at inc
  split at inc
  · cases inc
  · exact (Option.some.inj inc).symm

/-- A packet is dropped, is put into a block of its own, or is merged into the last block. -/
inductive PktMove (s : RxSocket) (n : BitVec 32) (mem : RxMemory) : RxSocket × Bool → Prop where
  | dropped (full : rxPktInc s n = none) : PktMove s n mem (s, false)
  | stored (inc : rxPktInc s n = some { s with rxBytes := s.rxBytes + n }) {bRes}
      (scans : s.rxCbList = [] → bRes = true) :
      PktMove s n mem (insertCb { s with rxBytes := s.rxBytes + n } (pktCb n mem), bRes)
  | merged (inc : rxPktInc s n = some { s with rxBytes := s.rxBytes + n }) {last}
      (there : s.rxCbList.getLast? = some last) (short : n ≤ bytesToMerge)
      (room : n ≤ BitVec.ofNat 32 rxBufSize - last.dataLen) :
      PktMove s n mem (mergeLast { s with rxBytes := s.rxBytes + n } last n mem, false)

theorem enqueueBuffer_move {s : RxSocket} {bRes : Bool} (n : BitVec 32) (mem : RxMemory)
    (scans : s.rxCbList = [] → bRes = true) : PktMove s n mem (enqueueBuffer s n mem bRes) := by
  rw [enqueueBuffer]
  cases inc : rxPktInc s n with
  | none => exact .dropped inc
  | some =>
    obtain rfl := rxPktInc_some inc
    exact .stored inc scans

theorem rxPktEnqueueCb_move (n : BitVec 32) (mem : RxMemory) :
    PktMove s n mem (rxPktEnqueueCb s n mem) := by
  cases there : s.rxCbList.getLast? with
  | none =>
    rw [rxPktEnqueueCb, there]
    exact enqueueBuffer_move n mem fun _ => rfl
  | some =>
    have nonempty : s.rxCbList ≠ [] := by
      rintro empty
      rw [empty] at there
      cases there
    rw [rxPktEnqueueCb, there]
    dsimp only
    split
    · rename_i short
      split
      · rename_i room
        cases inc : rxPktInc s n with
        | none => exact .dropped inc
        | some =>
          obtain rfl := rxPktInc_some inc
          exact .merged inc there short room
      · exact enqueueBuffer_move n mem fun empty => absurd empty nonempty
    · exact enqueueBuffer_move n mem fun _ => rfl

/-! ## The loop over the blocks -/

section Reads

variable {s} {req : ReadReq}

theorem copyCbs_peek (peek : req.peek = true) (cbs : List RxCb) :
    ∃ accesses, (copyCbs s req cbs).1 = { s with rxCbList := cbs, accesses := accesses } := by
  induction cbs generalizing s req with
  | nil => exact ⟨s.accesses, rfl⟩
  | cons cb _ ih =>
    rw [copyCbs]
    by_cases fits : cb.bytesToRead ≤ req.freeBytes
    · obtain ⟨accesses, left⟩ := @ih (noteRead s cb cb.bytesToRead)
        (req.copy cb cb.bytesToRead) peek
      simp only [if_pos fits, peek, left]
      exact ⟨accesses, rfl⟩
    · simp only [if_neg fits, peek]
      exact ⟨_, rfl⟩

/-- The rule for a read that takes what it copies: `J` is kept by a block that is taken whole,
and `Q` holds at the end of the list and after a block that is taken in part. -/
theorem copyCbs_keeps {J Q : RxSocket → ReadReq → Prop}
    (whole : ∀ s req cb rest, req.peek = false → cb.bytesToRead ≤ req.freeBytes →
      J { s with rxCbList := cb :: rest } req →
      J { finishCb (noteRead s cb cb.bytesToRead) cb with rxCbList := rest }
        (req.copy cb cb.bytesToRead))
    (part : ∀ s req cb rest, req.peek = false → ¬cb.bytesToRead ≤ req.freeBytes →
      J { s with rxCbList := cb :: rest } req →
      Q (takePart (noteRead s cb req.freeBytes) cb req.freeBytes rest) (req.copy cb req.freeBytes))
    (last : ∀ (s : RxSocket) req, J { s with rxCbList := [] } req → Q { s with rxCbList := [] } req)
    (cbs : List RxCb) (plain : req.peek = false) (start : J { s with rxCbList := cbs } req) :
    Q (copyCbs s req cbs).1 (copyCbs s req cbs).2 := by
  induction cbs generalizing s req with
  | nil => exact last s req start
  | cons cb rest ih =>
    rw [copyCbs]
    by_cases fits : cb.bytesToRead ≤ req.freeBytes
    · simp only [if_pos fits, plain]
      exact ih plain (whole s req cb rest plain fits start)
    · simp only [if_neg fits, plain]
      exact part s req cb rest plain fits start

theorem copyCbs_req (cbs : List RxCb) :
    ∃ out freeBytes, (copyCbs s req cbs).2 = { req with out := out, freeBytes := freeBytes } := by
  induction cbs generalizing s req with
  | nil => exact ⟨req.out, req.freeBytes, rfl⟩
  | cons cb _ ih =>
    rw [copyCbs]
    by_cases fits : cb.bytesToRead ≤ req.freeBytes
    · rw [if_pos fits]
      split
      · obtain ⟨out, freeBytes, same⟩ := @ih (noteRead s cb cb.bytesToRead)
          (req.copy cb cb.bytesToRead)
        exact ⟨out, freeBytes, same⟩
      · obtain ⟨out, freeBytes, same⟩ := @ih (finishCb (noteRead s cb cb.bytesToRead) cb)
          (req.copy cb cb.bytesToRead)
        exact ⟨out, freeBytes, same⟩
    · rw [if_neg fits]
      split
      · exact ⟨_, _, rfl⟩
      · exact ⟨_, _, rfl⟩

/-! ## The end of a read -/

theorem requeueRead_cases (req : ReadReq) (c : ReadChoice) :
    requeueRead req c = .requeued req ∨ ∃ status, requeueRead req c = .completed req status := by
  rw [requeueRead]
  split
  · exact .inr ⟨_, rfl⟩
  · split
    · exact .inl rfl
    · exact .inr ⟨_, rfl⟩

theorem readNoData_cases (req : ReadReq) (c : ReadChoice) :
    readNoData req c = .requeued req ∨ ∃ status, readNoData req c = .completed req status := by
  rw [readNoData]
  repeat' split
  all_goals first | exact requeueRead_cases req c | exact .inr ⟨_, rfl⟩

/-- What the locked part does: without data the read goes back to the queue or is completed, and
the caller stops; with data it is completed and the caller goes on, or it has room left after all
blocks were taken, goes back to the queue and the caller stops. -/
theorem readLocked_cases (s : RxSocket) (req : ReadReq) (c : ReadChoice) :
    (s.rxBytes = 0 ∧ readLocked s req c = (s, readNoData req c, false)) ∨
    (s.rxBytes ≠ 0 ∧ ∃ status, readLocked s req c =
      ((copyCbs s req s.rxCbList).1, .completed (copyCbs s req s.rxCbList).2 status, true)) ∨
    (s.rxBytes ≠ 0 ∧ (copyCbs s req s.rxCbList).2.freeBytes ≠ 0 ∧ req.peek = false ∧
      ((copyCbs s req s.rxCbList).2.freeBytes = req.bufferLen ∨ req.waitAll = true) ∧
      readLocked s req c =
        ((copyCbs s req s.rxCbList).1, .requeued (copyCbs s req s.rxCbList).2, false)) := by
  by_cases empty : s.rxBytes = 0
  · exact .inl ⟨empty, by rw [readLocked, if_pos empty]⟩
  obtain ⟨_, freeBytes, same⟩ := @copyCbs_req s req s.rxCbList
  rw [readLocked, if_neg empty]
  generalize copyCbs s req s.rxCbList = after at same ⊢
  obtain ⟨t, r⟩ := after
  dsimp only at same ⊢
  have peek : r.peek = req.peek := by rw [same]
  have waitAll : r.waitAll = req.waitAll := by rw [same]
  have bufferLen : r.bufferLen = req.bufferLen := by rw [same]
  by_cases full : r.freeBytes = 0 ∨ r.peek = true
  · rw [if_pos full]
    exact .inr (.inl ⟨empty, _, rfl⟩)
  rw [if_neg full]
  rw [not_or, Bool.not_eq_true, peek] at full
  by_cases wait : r.bufferLen = r.freeBytes ∨ r.waitAll = true
  · rw [if_pos wait]
    rcases requeueRead_cases r c with requeued | ⟨_, completed⟩
    · rw [requeued]
      rw [bufferLen, waitAll, eq_comm] at wait
      exact .inr (.inr ⟨empty, full.1, full.2, wait, rfl⟩)
    · rw [completed]
      exact .inr (.inl ⟨empty, _, rfl⟩)
  · rw [if_neg wait]
    exact .inr (.inl ⟨empty, _, rfl⟩)

theorem readLocked_eq (s : RxSocket) (req : ReadReq) (c : ReadChoice) :
    (s.rxBytes = 0 ∧ (readLocked s req c).1 = s ∧ (readLocked s req c).2.1.req = req) ∨
    (s.rxBytes ≠ 0 ∧ (readLocked s req c).1 = (copyCbs s req s.rxCbList).1 ∧
      (readLocked s req c).2.1.req = (copyCbs s req s.rxCbList).2) := by
  rcases readLocked_cases s req c with ⟨empty, same⟩ | ⟨data, status, same⟩ | ⟨data, _, _, _, same⟩
  · refine .inl ⟨empty, by rw [same], ?_⟩
    rw [same]
    rcases readNoData_cases req c with ends | ⟨_, ends⟩
    all_goals rw [ends]; rfl
  · exact .inr ⟨data, by rw [same], by rw [same]; rfl⟩
  · exact .inr ⟨data, by rw [same], by rw [same]; rfl⟩

theorem readLocked_keeps {J : RxSocket → Prop} (start : J s)
    (peeks : ∀ accesses, J { s with accesses := accesses })
    (whole : ∀ t cb n rest, J { t with rxCbList := cb :: rest } →
      J { finishCb (noteRead t cb n) cb with rxCbList := rest })
    (part : ∀ t cb rest (n : BitVec 32), ¬cb.bytesToRead ≤ n → J { t with rxCbList := cb :: rest } →
      J (takePart (noteRead t cb n) cb n rest)) (req : ReadReq) (c : ReadChoice) :
    J (readLocked s req c).1 := by
  rcases readLocked_eq s req c with ⟨_, sock, _⟩ | ⟨_, sock, _⟩
  · rw [sock]
    exact start
  rw [sock]
  cases peek : req.peek with
  | true =>
    obtain ⟨accesses, same⟩ := @copyCbs_peek s req peek s.rxCbList
    rw [same]
    exact peeks accesses
  | false =>
    exact copyCbs_keeps (J := fun t _ => J t) (Q := fun t _ => J t)
      (fun t _ cb rest _ _ kept => whole t cb _ rest kept)
      (fun t _ cb rest _ more kept => part t cb rest _ more kept) (fun _ _ kept => kept) s.rxCbList
      peek start

end Reads

/-! ## What a step does -/

inductive RxEffect (s : RxRun) : RxOp → RxRun → Prop where
  | quiet {op} : RxEffect s op s
  | packet {len headerLen data after} (kept : shortOrLong len headerLen = false)
      (move : PktMove s.sock headerLen (pktMemory len data) after) :
      RxEffect s (.packet len headerLen data) (scanIf after.2 { s with sock := after.1 })
  | write (length : BitVec 32) (data : Memory) (marked : Bool) {after}
      (eq : after = rxRequestEnqueueCb s.sock s.nextId length (fun i => some (data i)) marked) :
      RxEffect s (.write length data marked)
        (scanIf after.2 { s with sock := after.1, nextId := s.nextId + 1 })
  | read {length peek waitAll req} (fresh : req.out = []) : RxEffect s (.read length peek waitAll)
        (scanIf s.queue.isEmpty { s with queue := s.queue ++ [req], nextId := s.nextId + 1 })
  | scan : RxEffect s .scan (scanIf true s)
  | retrieve {i} (c : ReadChoice) (here : s.calls[i]? = some .retrieving) :
      RxEffect s (.step i c) (readAdvance s i c .retrieving)
  | hold {i req} (c : ReadChoice) (here : s.calls[i]? = some (.holding req)) :
      RxEffect s (.step i c) (readAdvance s i c (.holding req))
  | cancel (request : Nat) :
      RxEffect s (.cancel request) { s with sock := cancelWrite s.sock request }
  | cancelRoutine (request : Nat) :
      RxEffect s (.cancelRoutine request) { s with sock := rxRequestCancelCb s.sock request }
  | endRead {i req} (status : NtStatus) (here : s.queue[i]? = some req) :
      RxEffect s (.endRead i status)
        { s with queue := s.queue.eraseIdx i, completed := s.completed ++ [(req, status)] }

/-- Every step ends and has one of the effects. -/
theorem rxStep_effect (s : RxRun) (op : RxOp) :
    ∃ t, rxStep s op = .ok (t, ()) ∧ RxEffect s op t := by
  cases op with
  | packet len headerLen =>
    rw [rxStep]
    cases long : shortOrLong len headerLen with
    | true => exact ⟨s, rfl, .quiet⟩
    | false => exact ⟨_, rfl, .packet long (rxPktEnqueueCb_move _ _ _)⟩
  | write length data marked => exact ⟨_, rfl, .write length data marked rfl⟩
  | read => exact ⟨_, rfl, .read rfl⟩
  | scan => exact ⟨_, rfl, .scan⟩
  | step i c =>
    rw [rxStep]
    cases here : s.calls[i]? with
    | none => exact ⟨s, rfl, .quiet⟩
    | some p =>
      cases p with
      | retrieving => exact ⟨_, rfl, .retrieve c here⟩
      | holding => exact ⟨_, rfl, .hold c here⟩
      | done => exact ⟨s, rfl, .quiet⟩
  | cancel request => exact ⟨_, rfl, .cancel request⟩
  | cancelRoutine request => exact ⟨_, rfl, .cancelRoutine request⟩
  | endRead i status =>
    rw [rxStep]
    cases here : s.queue[i]? with
    | none => exact ⟨s, rfl, .quiet⟩
    | some => exact ⟨_, rfl, .endRead status here⟩

theorem rx_invariant {P : RxRun → Prop} {allowed : RxRun → RxOp → Prop} {bufAlloc : BitVec 32}
    {s : RxRun} (reach : Reachable (· = rxStart bufAlloc) (Next rxStep allowed) s)
    (base : P (rxStart bufAlloc))
    (keep : ∀ s op t, P s → allowed s op → RxEffect s op t → P t) : P s := by
  refine reach.machine_run base ?_
  intro s op holds may
  obtain ⟨t, stepped, effect⟩ := rxStep_effect s op
  exact ⟨t, (), stepped, keep s op t holds may effect⟩

end KvmGuestDrivers.VioSock

/-
# VioSock.TxQueue -- the transmit path of a vsock device

Write requests and control packets wait in `TxList` for a slice of the packet pool and a
place in the TX virtqueue.  The functions that work on the list hold `TxLock`, but
`VIOSockTxDequeue` gives it up to validate the socket and to map the buffer of a request, and
the callback of the mapping, the cancel routine of a request, the timer and the cleanup of a
socket come whenever they want.

The bytes that were handed to the virtqueue for each socket are noted in `handed`, which nothing
reads.  Whether to kick the device or to restart the receive path is decided from the same
counters, and changes none of this.
-/
import KvmGuestDrivers.Theory.Calls
import KvmGuestDrivers.VioSock.Credit
import KvmGuestDrivers.VirtIO.Ring

namespace KvmGuestDrivers.VioSock

set_option autoImplicit false

open Theory VirtIO

/-! ## Entries, packets and the device -/

/-- What an entry is about.  Only `VIOSockSendWrite` queues requests, and it sets `reply` to
`FALSE`; an entry without a request has no payload. -/
inductive TxBody where
  /-- `cancelled`: the framework has begun to cancel the request, and `WdfRequestUnmarkCancelable`
  fails. -/
  | write (socket : Nat) (len : BitVec 32) (timeout : Int) (cancelled : Bool)
  | control (socket : Nat) (reply : Bool)
  /-- The reset that `VIOSockSendResetNoSock` queues.  It does not set the timeout, which is what
  the memory had. -/
  | reset (timeout : Int)
  deriving DecidableEq

/-- `VIOSOCK_TX_ENTRY`; `id` stands for its address. -/
structure TxEntry where
  id : Nat
  body : TxBody
  deriving DecidableEq

def TxEntry.socket (e : TxEntry) : Option Nat :=
  match e.body with
  | .write socket _ _ _ => some socket
  | .control socket _ => some socket
  | .reset _ => none

def TxEntry.len (e : TxEntry) : BitVec 32 :=
  match e.body with
  | .write _ len _ _ => len
  | _ => 0

def TxEntry.reply (e : TxEntry) : Bool :=
  match e.body with
  | .control _ reply => reply
  | _ => false

def TxEntry.timeout (e : TxEntry) : Int :=
  match e.body with
  | .write _ _ timeout _ => timeout
  | .control _ _ => 0
  | .reset timeout => timeout

def TxEntry.cancelled (e : TxEntry) : Bool :=
  match e.body with
  | .write _ _ _ cancelled => cancelled
  | _ => false

structure TxPkt where
  id : Nat
  socket : Option Nat
  len : BitVec 32
  transaction : Bool
  deriving DecidableEq

def pktBytes (k : Nat) (pkt : TxPkt) : Nat := if pkt.socket = some k then pkt.len.toNat else 0

/-- A cancel routine that the framework is going to call. -/
structure TxCancel where
  id : Nat
  socket : Nat
  len : BitVec 32

structure TxDevice where
  txList : List TxEntry
  txEnqueued : Int
  txQueuedReply : Int
  txPktAllocated : Int
  slices : Nat
  /-- The packets that were added to the virtqueue and not yet taken from it. -/
  vq : List TxPkt
  locked : Bool
  inProgress : Bool
  /-- DMA transactions that are executed, with the packet that the callback will insert. -/
  transactions : List TxPkt
  cancels : List TxCancel
  sockets : Nat → SendCredit
  handed : Nat → Nat
  nextId : Nat

variable (d : TxDevice)

variable (e : TxEntry)

def txPktAlloc : Option (TxDevice × TxPkt) :=
  if d.slices = 0 then none
  else
    some ({ d with slices := d.slices - 1, txPktAllocated := long (d.txPktAllocated + 1) },
      { id := e.id, socket := e.socket, len := e.len, transaction := false })

def txPktFree : TxDevice :=
  { d with slices := d.slices + 1, txPktAllocated := long (d.txPktAllocated - 1) }

def txPktFreeAll (d : TxDevice) : List TxPkt → TxDevice
  | [] => d
  | _ :: rest => txPktFreeAll (txPktFree d) rest

def txPktInsert (pkt : TxPkt) : TxDevice :=
  { d with vq := d.vq ++ [pkt], handed := fun k => d.handed k + pktBytes k pkt }

def setCredit (k : Nat) (credit : SendCredit) : TxDevice :=
  { d with sockets := Function.update d.sockets k credit }

/-! ## The steps of a call -/

inductive TxPoint where
  /-- `VIOSockTxEnqueue` with a request, before `VIOSockStateValidate`. -/
  | validating (socket : Nat) (len : BitVec 32) (timeout : Int)
  | taking (body : TxBody)
  /-- Before `TxLock` is acquired, by `VIOSockTxEnqueue` or by `VIOSockSendResetNoSock`. -/
  | queueing (body : TxBody)
  /-- `VIOSockTxVqProcess`, before it takes packets from the virtqueue. -/
  | draining
  /-- Before it frees the packets whose transactions it has completed. -/
  | freeing (pkts : List TxPkt)
  /-- `VIOSockTxDequeue`, before `lInProgress` is tested. -/
  | dequeuing
  | locking
  | looping
  | checking (pkt : TxPkt)
  | mapping (pkt : TxPkt)
  | dropping (pkt : TxPkt)
  | done
  deriving DecidableEq

def leaveLoop : TxDevice := { d with inProgress := false, locked := false }

variable (body : TxBody)

def appendEntry : TxDevice :=
  { d with txList := d.txList ++ [{ id := d.nextId, body := body }], nextId := d.nextId + 1 }

def txEnqueue (reply : Bool) : TxDevice :=
  { appendEntry d body with
      txEnqueued := long (d.txEnqueued + 1)
      txQueuedReply := if reply then long (d.txQueuedReply + 1) else d.txQueuedReply }

/-- `VIOSockTxGetCredit`, which a control packet asks for nothing. -/
def takeCredit : TxBody → TxDevice × TxPoint
  | .write socket len timeout _ =>
    let (credit, uLen) := txGetCredit (d.sockets socket) len
    if len ≠ 0 ∧ uLen = 0 then (setCredit d socket credit, .done)
    else (setCredit d socket credit, .queueing (.write socket uLen timeout false))
  | .control socket reply =>
    let (credit, _) := txGetCredit (d.sockets socket) 0
    (setCredit d socket credit, .queueing (.control socket reply))
  | .reset timeout => (d, .queueing (.reset timeout))

/-- The end of an enqueue, under the lock; `marked` is the result of
`WdfRequestMarkCancelableEx`. -/
def queueEntry (marked : Bool) : TxBody → TxDevice × TxPoint
  | .write socket len timeout _ =>
    if marked then (txEnqueue d (.write socket len timeout false) false, .draining)
    else (setCredit d socket (txPutCredit (d.sockets socket) len), .done)
  | .control socket reply => (txEnqueue d (.control socket reply) reply, .draining)
  -- `VIOSockSendResetNoSock` does not count it
  | .reset timeout => (appendEntry d (.reset timeout), .draining)

variable (rest : List TxEntry)

def removeHead : TxDevice :=
  { d with txList := rest, txEnqueued := long (d.txEnqueued - 1) }

/-- An entry without a request, which was removed from the list `e :: rest`. -/
def sendControl (pkt : TxPkt) (inserted : Bool) : TxDevice × TxPoint :=
  if inserted then
    (txPktInsert
      { d with
          txQueuedReply := if e.reply then long (d.txQueuedReply - 1) else d.txQueuedReply } pkt,
      .looping)
  else
    (leaveLoop (txPktFree
      { d with txList := e :: rest, txEnqueued := long (d.txEnqueued + 1) }), .done)

/-- A turn of the loop of `VIOSockTxDequeue`; `inserted` is the result of
`VIOSockTxPktInsert`. -/
def loopTurn (inserted : Bool) : TxDevice × TxPoint :=
  match d.txList with
  | [] => (leaveLoop d, .done)
  | e :: rest =>
    match txPktAlloc d e with
    | none => (leaveLoop d, .done)
    | some (d, pkt) =>
      match e.body with
      -- the packet of a cancelled request is forgotten
      | .write _ _ _ true => (removeHead d rest, .looping)
      | .write _ _ _ false => ({ removeHead d rest with locked := false }, .checking pkt)
      | _ => sendControl (removeHead d rest) e rest pkt inserted

/-- The first part of `VIOSockTxVqProcess`: the packets that the device has used are taken;
those without a transaction are freed. -/
def drainUsed (used : Nat → Bool) : TxDevice × TxPoint :=
  let back := d.vq.filter fun pkt => used pkt.id
  (txPktFreeAll { d with vq := d.vq.filter fun pkt => !used pkt.id }
      (back.filter fun pkt => !pkt.transaction),
    .freeing (back.filter fun pkt => pkt.transaction))

variable (ok : Bool)

/-- A step.  `ok` is the outcome of the call to the framework that is made there, if there is
one; `used` are the packets that the device has used. -/
def txAdvance (used : Nat → Bool) : TxPoint → TxDevice × TxPoint
  | .validating socket len timeout =>
    if ok then (d, .taking (.write socket len timeout false)) else (d, .done)
  | .taking body => takeCredit d body
  | .queueing body => if d.locked then (d, .queueing body) else queueEntry d ok body
  | .draining => if d.locked then (d, .draining) else drainUsed d used
  | .freeing pkts =>
    if d.locked then (d, .freeing pkts) else (txPktFreeAll d pkts, .dequeuing)
  | .dequeuing =>
    if d.inProgress then (d, .done) else ({ d with inProgress := true }, .locking)
  | .locking => if d.locked then (d, .locking) else ({ d with locked := true }, .looping)
  | .looping => loopTurn d ok
  | .checking pkt => if ok then (d, .mapping pkt) else (d, .dropping pkt)
  | .mapping pkt =>
    -- `VirtIOWdfDeviceDmaTxAsync`
    if ok then ({ d with transactions := d.transactions ++ [pkt] }, .locking)
    else (d, .dropping pkt)
  | .dropping pkt =>
    if d.locked then (d, .dropping pkt) else ({ txPktFree d with locked := true }, .looping)
  | .done => (d, .done)

/-! ## Calls with one critical section -/

variable (i : Nat)

def txDequeueCallback (inserted : Bool) : TxDevice :=
  match d.transactions[i]? with
  | none => d
  | some pkt =>
    let d := { d with transactions := d.transactions.eraseIdx i }
    if inserted then txPktInsert d { pkt with transaction := true } else txPktFree d

/-- The framework cancels the request of an entry that is marked cancelable. -/
def cancelRequest : TxDevice :=
  match d.txList[i]? with
  | some ⟨id, .write socket len timeout false⟩ =>
    { d with
        txList := d.txList.set i ⟨id, .write socket len timeout true⟩
        cancels := d.cancels ++ [⟨id, socket, len⟩] }
  | _ => d

/-- `VIOSockTxEnqueueCancel`.  An entry that `VIOSockTxDequeue` or the timer has removed is
linked to itself, and removing it again does nothing. -/
def txEnqueueCancel : TxDevice :=
  match d.cancels[i]? with
  | none => d
  | some c =>
    { setCredit d c.socket (txPutCredit (d.sockets c.socket) c.len) with
        txList := d.txList.filter fun e => e.id ≠ c.id
        cancels := d.cancels.eraseIdx i }

/-- `VIOSOCK_TIMER_TOLERANCE`, in units of 100 ns. -/
def timerTolerance : Int := 500000

variable (passed : Int)

/-- The entries that the timer removes; `passed` is `TxTimer.Timeout`. -/
def expired (e : TxEntry) : Bool :=
  e.timeout ≠ 0 ∧ e.timeout ≤ passed + timerTolerance

def passTime (e : TxEntry) : TxEntry :=
  let left (timeout : Int) : Int := if timeout ≠ 0 then timeout - passed else timeout
  match e.body with
  | .write socket len timeout cancelled =>
    { e with body := .write socket len (left timeout) cancelled }
  | .control _ _ => e
  | .reset timeout => { e with body := .reset (left timeout) }

def txTimerFunc : TxDevice :=
  { d with
      txList := (d.txList.filter fun e => !expired passed e).map (passTime passed)
      txEnqueued := long (d.txEnqueued - d.txList.countP (expired passed)) }

/-- The entries that `VIOSockTxCleanup` removes; no socket stands for the whole device. -/
def cleaned (socket : Option Nat) (e : TxEntry) : Bool :=
  (socket = none ∨ e.socket = socket) ∧ e.cancelled = false

def txCleanup (socket : Option Nat) : TxDevice :=
  { d with
      txList := d.txList.filter fun e => !cleaned socket e
      txQueuedReply :=
        if socket ≠ none then
          long (d.txQueuedReply - d.txList.countP fun e => cleaned socket e && e.reply)
        else d.txQueuedReply }

/-! ## Runs -/

def maxPktBufSize : Nat := 65536

variable (txPktNum : Nat)

def writeIsAvailable (d : TxDevice) (nonBlocking : Bool) : Bool :=
  if nonBlocking then long (d.txEnqueued + d.txPktAllocated) < long txPktNum else true

def txMoreReplies (rxPktNum : Nat) (d : TxDevice) : Bool := d.txQueuedReply < long rxPktNum

structure TxRun where
  dev : TxDevice
  calls : List TxPoint

inductive TxOp where
  | write (socket length : Nat) (nonBlocking : Bool) (timeout : Int)
  | control (socket : Nat) (reply allocated : Bool)
  /-- `VIOSockSendResetNoSock`, for a packet that is a reset or not. -/
  | resetNoSock (isReset allocated : Bool) (timeout : Int)
  | interrupt
  | step (i : Nat) (ok : Bool) (used : Nat → Bool)
  | callback (i : Nat) (inserted : Bool)
  | cancel (i : Nat)
  | cancelRoutine (i : Nat)
  | timer (passed : Int)
  | cleanup (socket : Option Nat)
  | header (socket : Nat) (bufAlloc fwdCnt : BitVec 32)

variable (s : TxRun)

def startCall (p : TxPoint) : TxRun := { s with calls := s.calls ++ [p] }

/-- A call that waits for `TxLock` comes later. -/
def whenFree (d : TxDevice) : TxRun := if s.dev.locked then s else { s with dev := d }

/-- Starts the calls, and takes the steps of those that have only one: the callback of a DMA
transaction, the cancel routine, the timer and the cleanup. -/
def txStep (s : TxRun) : TxOp → Except Empty (TxRun × Unit)
  | .write socket length nonBlocking timeout =>
    if writeIsAvailable txPktNum s.dev nonBlocking then
      .ok (startCall s
        (.validating socket (BitVec.ofNat 32 (min length maxPktBufSize)) timeout), ())
    else .ok (s, ())
  | .control socket reply allocated =>
    if allocated then .ok (startCall s (.taking (.control socket reply)), ())
    else .ok (s, ())
  | .resetNoSock isReset allocated timeout =>
    if isReset = false ∧ allocated = true then
      .ok (startCall s (.queueing (.reset timeout)), ())
    else .ok (s, ())
  | .interrupt => .ok (startCall s .draining, ())
  | .step i ok used =>
    match s.calls[i]? with
    | none => .ok (s, ())
    | some p =>
      let (d, q) := txAdvance s.dev ok used p
      .ok ({ dev := d, calls := s.calls.set i q }, ())
  | .callback i inserted => .ok (whenFree s (txDequeueCallback s.dev i inserted), ())
  | .cancel i => .ok ({ s with dev := cancelRequest s.dev i }, ())
  | .cancelRoutine i => .ok (whenFree s (txEnqueueCancel s.dev i), ())
  | .timer passed => .ok (whenFree s (txTimerFunc s.dev passed), ())
  | .cleanup socket => .ok (whenFree s (txCleanup s.dev socket), ())
  | .header socket bufAlloc fwdCnt =>
    let (credit, _) := txSpaceUpdate (s.dev.sockets socket) bufAlloc fwdCnt
    .ok ({ s with dev := setCredit s.dev socket credit }, ())

/-- A device with a pool of `txPktNum` slices, before the first call. -/
def txStart : TxRun :=
  { dev :=
      { txList := [], txEnqueued := 0, txQueuedReply := 0, txPktAllocated := 0
        slices := txPktNum, vq := [], locked := false, inProgress := false, transactions := []
        cancels := [], sockets := fun _ => ⟨0, 0, 0⟩, handed := fun _ => 0, nextId := 0 }
    calls := [] }

/-- No call is in progress: every call has ended, no transaction is executed, and no cancel
routine is to come. -/
def TxIdle : Prop :=
  (∀ p ∈ s.calls, p = .done) ∧ s.dev.transactions = [] ∧ s.dev.cancels = []

instance : Decidable (TxIdle s) := by
  unfold TxIdle
  infer_instance

/-! ## What the steps change -/

section

include d

theorem txPktFreeAll_frame (pkts : List TxPkt) : ∃ slices allocated,
      txPktFreeAll d pkts = { d with slices := slices, txPktAllocated := allocated } := by
  induction pkts generalizing d with
  | nil => exact ⟨_, _, rfl⟩
  | cons _ _ ih =>
    obtain ⟨slices, allocated, same⟩ := ih (txPktFree d)
    exact ⟨slices, allocated, same⟩

theorem drainUsed_frame (used : Nat → Bool) : ∃ vq slices allocated pkts, drainUsed d used =
      ({ d with vq := vq, slices := slices, txPktAllocated := allocated }, .freeing pkts) := by
  obtain ⟨slices, allocated, same⟩ := txPktFreeAll_frame
    { d with vq := d.vq.filter fun pkt => !used pkt.id }
    ((d.vq.filter fun pkt => used pkt.id).filter fun pkt => !pkt.transaction)
  exact ⟨_, slices, allocated, _, Prod.ext same rfl⟩

theorem takeCredit_frame : ∃ sockets q, takeCredit d body = ({ d with sockets := sockets }, q) ∧
      (q = .done ∨ ∃ body, q = .queueing body) := by
  fun_cases takeCredit d body with
  | case1 => exact ⟨_, _, rfl, .inl rfl⟩
  | _ => exact ⟨_, _, rfl, .inr ⟨_, rfl⟩⟩

theorem txDequeueCallback_frame (inserted : Bool) :
    ∃ vq slices allocated transactions handed, txDequeueCallback d i inserted =
      { d with vq := vq, slices := slices, txPktAllocated := allocated
               transactions := transactions, handed := handed } := by
  fun_cases txDequeueCallback d i inserted <;> exact ⟨_, _, _, _, _, rfl⟩

theorem cancelRequest_frame :
    ∃ txList cancels, cancelRequest d i = { d with txList := txList, cancels := cancels } := by
  fun_cases cancelRequest d i <;> exact ⟨_, _, rfl⟩

theorem txEnqueueCancel_frame : ∃ txList cancels sockets, txEnqueueCancel d i =
      { d with txList := txList, cancels := cancels, sockets := sockets } := by
  fun_cases txEnqueueCancel d i <;> exact ⟨_, _, _, rfl⟩

end

def TxEntry.isWrite : Bool :=
  match e.body with
  | .write .. => true
  | _ => false

theorem cancelled_of_control {e : TxEntry} (control : e.isWrite = false) : e.cancelled = false := by
  obtain ⟨id, body⟩ := e
  cases body <;> first | rfl | cases control

def TxEntry.pkt : TxPkt :=
  { id := e.id, socket := e.socket, len := e.len, transaction := false }

def sliced : TxDevice :=
  removeHead { d with slices := d.slices - 1, txPktAllocated := long (d.txPktAllocated + 1) } rest

def TxPoint.waits : TxPoint → Bool
  | .queueing _ | .draining | .freeing _ | .locking | .dropping _ | .done => true
  | _ => false

/-- What a step does.  A call that waits for `TxLock`, or has ended, stays where it is.  A turn of
the loop leaves it without an entry or without a slice; otherwise it forgets the packet of a
request that is being cancelled, goes on to send a request, or sends an entry without one. -/
inductive TxMove (d : TxDevice) (ok : Bool) : TxPoint → TxDevice → TxPoint → Prop where
  | stay (p : TxPoint) (waits : p.waits = true) : TxMove d ok p d p
  | validated (socket : Nat) (len : BitVec 32) (timeout : Int) :
      TxMove d ok (.validating socket len timeout) d (.taking (.write socket len timeout false))
  | invalid (socket : Nat) (len : BitVec 32) (timeout : Int) :
      TxMove d ok (.validating socket len timeout) d .done
  | take (body : TxBody) {sockets q} (eq : takeCredit d body = ({ d with sockets := sockets }, q))
      (next : q = .done ∨ ∃ body, q = .queueing body) :
      TxMove d ok (.taking body) { d with sockets := sockets } q
  | unmarked (body : TxBody) {sockets}
      (eq : queueEntry d ok body = ({ d with sockets := sockets }, .done)) :
      TxMove d ok (.queueing body) { d with sockets := sockets } .done
  | append (body entry : TxBody) {enqueued replies} (free : d.locked = false)
      (live : TxEntry.cancelled ⟨d.nextId, entry⟩ = false)
      (eq : queueEntry d ok body = ({ appendEntry d entry with
        txEnqueued := enqueued, txQueuedReply := replies }, .draining)) :
      TxMove d ok (.queueing body)
        { appendEntry d entry with txEnqueued := enqueued, txQueuedReply := replies } .draining
  | drain (used : Nat → Bool) {vq pkts slices allocated} (eq : drainUsed d used =
        ({ d with vq := vq, slices := slices, txPktAllocated := allocated }, .freeing pkts)) :
      TxMove d ok .draining { d with vq := vq, slices := slices, txPktAllocated := allocated }
        (.freeing pkts)
  | free (pkts : List TxPkt) {slices allocated}
      (eq : txPktFreeAll d pkts = { d with slices := slices, txPktAllocated := allocated }) :
      TxMove d ok (.freeing pkts) { d with slices := slices, txPktAllocated := allocated }
        .dequeuing
  | turnedAway (taken : d.inProgress = true) : TxMove d ok .dequeuing d .done
  | enter : TxMove d ok .dequeuing { d with inProgress := true } .locking
  | lock : TxMove d ok .locking { d with locked := true } .looping
  | leave (nothing : d.txList = [] ∨ d.slices = 0) :
      TxMove d ok .looping (leaveLoop d) .done
  | forget (e : TxEntry) (rest : List TxEntry) (list : d.txList = e :: rest)
      (free : d.slices ≠ 0) (write : e.isWrite = true) (cancelled : e.cancelled = true) :
      TxMove d ok .looping (sliced d rest) .looping
  | request (e : TxEntry) (rest : List TxEntry) (list : d.txList = e :: rest)
      (free : d.slices ≠ 0) (write : e.isWrite = true) (live : e.cancelled = false) :
      TxMove d ok .looping { sliced d rest with locked := false } (.checking e.pkt)
  | send (e : TxEntry) (rest : List TxEntry) (list : d.txList = e :: rest)
      (free : d.slices ≠ 0) (control : e.isWrite = false) (inserted : ok = true) :
      TxMove d ok .looping (sendControl (sliced d rest) e rest e.pkt true).1 .looping
  | putBack (e : TxEntry) (rest : List TxEntry) (list : d.txList = e :: rest)
      (free : d.slices ≠ 0) (control : e.isWrite = false) (failed : ok = false) :
      TxMove d ok .looping (sendControl (sliced d rest) e rest e.pkt false).1 .done
  | checked (pkt : TxPkt) : TxMove d ok (.checking pkt) d (.mapping pkt)
  | unchecked (pkt : TxPkt) (failed : ok = false) : TxMove d ok (.checking pkt) d (.dropping pkt)
  | map (pkt : TxPkt) :
      TxMove d ok (.mapping pkt) { d with transactions := d.transactions ++ [pkt] } .locking
  | unmapped (pkt : TxPkt) (failed : ok = false) : TxMove d ok (.mapping pkt) d (.dropping pkt)
  | dropped (pkt : TxPkt) : TxMove d ok (.dropping pkt) { txPktFree d with locked := true } .looping

theorem txMove_turn : TxMove d ok .looping (loopTurn d ok).1 (loopTurn d ok).2 := by
  cases list : d.txList with
  | nil => simpa only [loopTurn, list] using TxMove.leave (.inl list)
  | cons e rest =>
    by_cases full : d.slices = 0
    · simpa only [loopTurn, list, txPktAlloc, if_pos full] using TxMove.leave (.inr full)
    simp only [loopTurn, list, txPktAlloc, if_neg full]
    obtain ⟨id, body⟩ := e
    cases body with
    | write _ _ _ cancelled =>
      cases cancelled with
      | true => exact .forget _ rest list full rfl rfl
      | false => exact .request _ rest list full rfl rfl
    | control | reset =>
      cases inserted : ok with
      | true => exact .send _ rest list full rfl rfl
      | false => exact .putBack _ rest list full rfl rfl

theorem txMove_queue (body : TxBody) (free : d.locked = false) :
    TxMove d ok (.queueing body) (queueEntry d ok body).1 (queueEntry d ok body).2 := by
  cases body with
  | write socket len timeout =>
    cases ok with
    | true => exact .append _ (.write socket len timeout false) free rfl rfl
    | false => exact .unmarked _ rfl
  | control socket reply => exact .append _ (.control socket reply) free rfl rfl
  | reset timeout => exact .append _ (.reset timeout) free rfl rfl

theorem txMove_advance (used : Nat → Bool) (p : TxPoint) :
    TxMove d ok p (txAdvance d ok used p).1 (txAdvance d ok used p).2 := by
  fun_cases txAdvance d ok used p with
  | case1 => exact .validated ..
  | case2 => exact .invalid ..
  | case3 body =>
    obtain ⟨_, q, eq, next⟩ := takeCredit_frame d body
    rw [eq]
    exact .take body eq next
  | case5 body free => exact txMove_queue d ok body (Bool.not_eq_true _ ▸ free)
  | case7 =>
    obtain ⟨vq, slices, allocated, pkts, eq⟩ := drainUsed_frame d used
    rw [eq]
    exact .drain used eq
  | case9 pkts =>
    obtain ⟨_, _, eq⟩ := txPktFreeAll_frame d pkts
    rw [eq]
    exact .free pkts eq
  | case10 taken => exact .turnedAway taken
  | case11 => exact .enter
  | case13 => exact .lock
  | case14 => exact txMove_turn d ok
  | case15 pkt => exact .checked pkt
  | case16 pkt failed => exact .unchecked pkt (Bool.not_eq_true _ ▸ failed)
  | case17 pkt => exact .map pkt
  | case18 pkt failed => exact .unmapped pkt (Bool.not_eq_true _ ▸ failed)
  | case20 pkt => exact .dropped pkt
  | _ => exact .stay _ rfl

/-! ## What the operations do -/

def TxOp.starts : TxOp → Bool
  | .write .. | .control .. | .resetNoSock .. | .interrupt => true
  | _ => false

def TxOp.waits : TxOp → Bool
  | .callback .. | .cancelRoutine _ | .timer _ | .cleanup _ => true
  | _ => false

def TxPoint.starting : TxPoint → Bool
  | .validating .. | .taking (.control ..) | .queueing (.reset _) | .draining => true
  | _ => false

inductive TxEffect (s : TxRun) : TxOp → TxRun → Prop where
  | refused (op : TxOp) (starts : op.starts = true) : TxEffect s op s
  | start (op : TxOp) (starts : op.starts = true) (p : TxPoint) (starting : p.starting = true) :
      TxEffect s op (startCall s p)
  | absent (i : Nat) (ok : Bool) (used : Nat → Bool) (gone : s.calls[i]? = none) :
      TxEffect s (.step i ok used) s
  | step (i : Nat) (ok : Bool) (used : Nat → Bool) {p q d}
      (here : s.calls[i]? = some p) (eq : txAdvance s.dev ok used p = (d, q))
      (move : TxMove s.dev ok p d q) :
      TxEffect s (.step i ok used) { dev := d, calls := s.calls.set i q }
  | locked (op : TxOp) (waits : op.waits = true) (locked : s.dev.locked = true) : TxEffect s op s
  | callback (i : Nat) (inserted : Bool) (free : s.dev.locked = false) :
      TxEffect s (.callback i inserted) { s with dev := txDequeueCallback s.dev i inserted }
  | cancel (i : Nat) : TxEffect s (.cancel i) { s with dev := cancelRequest s.dev i }
  | cancelRoutine (i : Nat) :
      TxEffect s (.cancelRoutine i) { s with dev := txEnqueueCancel s.dev i }
  | timer (passed : Int) : TxEffect s (.timer passed) { s with dev := txTimerFunc s.dev passed }
  | cleanup (socket : Option Nat) (free : s.dev.locked = false) :
      TxEffect s (.cleanup socket) { s with dev := txCleanup s.dev socket }
  | header (socket : Nat) (bufAlloc fwdCnt : BitVec 32) {credit}
      (eq : credit = (txSpaceUpdate (s.dev.sockets socket) bufAlloc fwdCnt).1) :
      TxEffect s (.header socket bufAlloc fwdCnt) { s with dev := setCredit s.dev socket credit }

theorem txStep_effect (s : TxRun) (op : TxOp) :
    ∃ t, txStep txPktNum s op = .ok (t, ()) ∧ TxEffect s op t := by
  have free {op : TxOp} (waits : op.waits = true) {d : TxDevice}
      (effect : s.dev.locked = false → TxEffect s op { s with dev := d }) :
      TxEffect s op (whenFree s d) := by
    rw [whenFree]
    split
    · rename_i locked
      exact .locked op waits locked
    · rename_i free
      exact effect (Bool.not_eq_true _ ▸ free)
  cases op with
  | write | control | resetNoSock =>
    rw [txStep]
    split
    · exact ⟨_, rfl, .start _ rfl _ rfl⟩
    · exact ⟨_, rfl, .refused _ rfl⟩
  | interrupt => exact ⟨_, rfl, .start _ rfl _ rfl⟩
  | step i ok used =>
    cases here : s.calls[i]? with
    | none => exact ⟨s, by simp only [txStep, here], .absent i ok used here⟩
    | some p =>
      have move := txMove_advance s.dev ok used p
      rcases eq : txAdvance s.dev ok used p with ⟨d, q⟩
      rw [eq] at move
      exact ⟨⟨d, s.calls.set i q⟩, by simp only [txStep, here, eq], .step i ok used here eq move⟩
  | callback i inserted => exact ⟨_, rfl, free rfl (.callback i inserted)⟩
  | cancel i => exact ⟨_, rfl, .cancel i⟩
  | cancelRoutine i => exact ⟨_, rfl, free rfl fun _ => .cancelRoutine i⟩
  | timer passed => exact ⟨_, rfl, free rfl fun _ => .timer passed⟩
  | cleanup socket => exact ⟨_, rfl, free rfl (.cleanup socket)⟩
  | header socket bufAlloc fwdCnt => exact ⟨_, rfl, .header socket bufAlloc fwdCnt rfl⟩

/-! ## Pieces of runs -/

def goOn (n : Nat) : List TxOp := List.replicate n (.step i true fun _ => false)

def queueWrite (timeout : Int) : List TxOp :=
  .header 0 100 0 :: .write 0 10 false timeout :: goOn i 3

/-! ## The descriptors of a packet -/

def dmaTxPages : Nat := 16

variable (len : Nat)

/-- The loop of `VIOSockTxPktInsert` from element `i` on: what follows the header, or nothing when
there is no place for an element.  `uPktLen` is a `ULONG`. -/
def fillSg : List Scatterlist → Nat → Nat → Option (List Scatterlist)
  | [], _, _ => some []
  | e :: rest, i, pktLen =>
    let sum := (pktLen + e.length) % 2 ^ 32
    if dmaTxPages + 2 ≤ i + 1 then none
    else if len ≤ sum then some [{ e with length := e.length - (sum - len) }]
    else (fillSg rest (i + 1) sum).map (e :: ·)

/-- What `VIOSockTxPktInsert` adds to the virtqueue for a packet whose `Header.len` is `len`. -/
def txPktElements (header : Scatterlist) : Option (List Scatterlist) → Option (List Scatterlist)
  | none => some [header]
  | some sgList => (fillSg len sgList 0 0).map (header :: ·)

def sgBytes (l : List Scatterlist) : List Nat :=
  l.flatMap fun e => List.range' e.physAddr e.length

def sgLength (l : List Scatterlist) : Nat := (l.map Scatterlist.length).sum

variable {len}

theorem fillSg_exact {l : List Scatterlist} {i pktLen : Nat} (begun : i = 0 ∨ pktLen < len)
    (le : pktLen ≤ len) (places : i ≤ dmaTxPages + 1) (covers : len ≤ pktLen + sgLength l)
    (fits : ∀ e ∈ l, len + e.length < 2 ^ 32) :
    (fillSg len l i pktLen = none ∧ pktLen + sgLength (l.take (dmaTxPages + 1 - i)) < len) ∨
    ∃ data, fillSg len l i pktLen = some data ∧
      sgBytes data = (sgBytes l).take (len - pktLen) ∧ i + data.length ≤ dmaTxPages + 1 := by
  induction l generalizing i pktLen with
  | nil => exact .inr ⟨[], rfl, by simp [sgBytes], places⟩
  | cons e rest ih =>
    have total : sgLength (e :: rest) = e.length + sgLength rest := rfl
    have := fits e (.head _)
    have sum : (pktLen + e.length) % 2 ^ 32 = pktLen + e.length := Nat.mod_eq_of_lt (by omega)
    simp only [fillSg, sum]
    split
    · rename_i full
      have past : dmaTxPages + 1 - i = 0 := by omega
      rw [past]
      exact .inl ⟨rfl, begun.resolve_left (by rw [dmaTxPages] at full; omega)⟩
    split
    · have cut : e.length - (pktLen + e.length - len) = len - pktLen := by omega
      refine .inr ⟨_, rfl, ?_, by simp; omega⟩
      show List.range' _ _ ++ [] = (List.range' _ _ ++ sgBytes rest).take _
      rw [cut, List.append_nil, List.take_append_of_le_length (by simp; omega)]
      exact List.ext_getElem (by simp; omega) (by simp)
    · have step : dmaTxPages + 1 - i = dmaTxPages + 1 - (i + 1) + 1 := by omega
      have more : pktLen + e.length < len := Nat.not_le.mp ‹_›
      rcases ih (i := i + 1) (.inr more) (le_of_lt more) (by omega) (by omega)
        (fun e mem => fits e (.tail _ mem)) with ⟨refused, short⟩ | ⟨data, added, bytes, few⟩
      · refine .inl ⟨by rw [refused]; rfl, ?_⟩
        rw [step, List.take_succ_cons]
        show pktLen + (e.length + sgLength _) < len
        omega
      · refine .inr ⟨e :: data, by rw [added]; rfl, ?_, by simp; omega⟩
        show List.range' _ _ ++ sgBytes data = (List.range' _ _ ++ sgBytes rest).take _
        rw [bytes, ← List.take_length_add_append, List.length_range']
        congr 1
        omega

/-- **The descriptors are exact.**  What is added is the header and the first `Header.len` bytes of
the list, in at most `VIOSOCK_DMA_TX_PAGES + 2` elements; a list is refused only if the bytes are
not in its first `VIOSOCK_DMA_TX_PAGES + 1` elements. -/
theorem tx_descriptors_exact (header : Scatterlist) {sgList : List Scatterlist}
    (covers : len ≤ sgLength sgList) (fits : ∀ e ∈ sgList, len + e.length < 2 ^ 32) :
    (txPktElements len header (some sgList) = none ∧
      sgLength (sgList.take (dmaTxPages + 1)) < len) ∨
    ∃ data, txPktElements len header (some sgList) = some (header :: data) ∧
      sgBytes data = (sgBytes sgList).take len ∧ (header :: data).length ≤ dmaTxPages + 2 := by
  rcases fillSg_exact (.inl rfl) (Nat.zero_le len) (Nat.zero_le _) (by rwa [Nat.zero_add])
      fits with ⟨refused, short⟩ | ⟨data, added, bytes, few⟩
  · rw [Nat.zero_add] at short
    exact .inl ⟨by rw [txPktElements, refused]; rfl, short⟩
  · exact .inr ⟨data, by rw [txPktElements, added]; rfl, bytes, by simp; omega⟩

/-- Credit for 5 of the 8 bytes. -/
theorem tx_descriptors_exact_short : ∃ data,
    txPktElements 5 ⟨0, 44⟩ (some [⟨4094, 2⟩, ⟨8192, 6⟩]) = some (⟨0, 44⟩ :: data) ∧
      sgBytes data = [4094, 4095, 8192, 8193, 8194] := by
  rcases tx_descriptors_exact ⟨0, 44⟩ (show 5 ≤ sgLength [⟨4094, 2⟩, ⟨8192, 6⟩] by decide)
    (by decide) with ⟨refused, -⟩ | ⟨data, added, bytes, -⟩
  · cases refused
  · exact ⟨data, added, bytes⟩

/-- The length wraps around, and the elements are added whole. -/
theorem tx_descriptors_wrap :
    txPktElements 2 ⟨0, 44⟩ (some [⟨4095, 1⟩, ⟨8192, 2 ^ 32 - 1⟩]) =
      some [⟨0, 44⟩, ⟨4095, 1⟩, ⟨8192, 2 ^ 32 - 1⟩] :=
  rfl

end KvmGuestDrivers.VioSock

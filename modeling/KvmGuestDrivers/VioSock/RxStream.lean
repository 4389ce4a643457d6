/-
# VioSock.RxStream -- the bytes of a stream, in order

Packets are merged into a buffer that may be partly read, a read may span blocks or stop inside
one, and a read that waits for all its bytes goes back to the head of the queue half filled.

The socket has no loopback peer, and `VIOSockReadDequeueCb` serves one read at a time.
-/
import KvmGuestDrivers.VioSock.RxBounds

namespace KvmGuestDrivers.VioSock

set_option autoImplicit false

open Theory List

/-! ## What is where -/

def RxCb.unread (cb : RxCb) : List (Option Byte) := cb.mem.read cb.readPtr cb.bytesToRead.toNat

def unread (s : RxSocket) : List (Option Byte) := s.rxCbList.flatMap RxCb.unread

def ReadReq.taken (req : ReadReq) : List (Option Byte) := if req.peek then [] else req.out

def RxPoint.taken : RxPoint → List (Option Byte)
  | .holding req => req.taken
  | _ => []

def RxPoint.holds : RxPoint → Bool
  | .holding _ => true
  | _ => false

variable (s : RxRun)

def completedBytes : List (Option Byte) := s.completed.flatMap fun e => e.1.taken

/-- What is in the buffers of the reads in hand or in the queue. -/
def placedBytes : List (Option Byte) :=
  s.calls.flatMap RxPoint.taken ++ s.queue.flatMap ReadReq.taken

def payload (data : Memory) (n : Nat) : List (Option Byte) :=
  (List.range n).map fun i => some (data i)

section Memory

variable {mem src : RxMemory} {start m n : Nat}

@[simp] theorem length_read : (mem.read start n).length = n := by
  rw [RxMemory.read, length_map, length_range']

theorem read_add : mem.read start (m + n) = mem.read start m ++ mem.read (start + m) n := by
  rw [RxMemory.read, ← range'_append_1, map_append]
  rfl

theorem read_write_before (before : start + m ≤ n) (len : Nat) :
    (mem.write n len src).read start m = mem.read start m := by
  apply map_congr_left
  intro i member
  exact write_of_lt (by have := (mem_range'_1.mp member).2; omega)

theorem read_write_self (len : Nat) :
    (mem.write start len src).read start len = src.read 0 len := by
  rw [RxMemory.read, RxMemory.read, range'_eq_map_range, range'_eq_map_range, map_map, map_map]
  apply map_congr_left
  intro i member
  have below := mem_range.mp member
  simp only [Function.comp_apply]
  rw [write_of_mem (by omega) (by omega)]
  congr 1
  omega

theorem read_pktMemory {len headerLen : BitVec 32} (data : Memory)
    (whole : len.toNat = headerSize + headerLen.toNat) :
    RxMemory.read (pktMemory len data) 0 headerLen.toNat = payload data headerLen.toNat := by
  rw [RxMemory.read, ← range_eq_range']
  apply map_congr_left
  intro i member
  have below := mem_range.mp member
  rw [pktMemory, if_pos (by omega)]

end Memory

/-! ## The socket -/

/-- The bytes in `before` have left the socket, and the others are in its blocks. -/
structure Streams (s : RxSocket) (before : List (Option Byte)) : Prop where
  receive : ∀ cb ∈ s.rxCbList, cb.request = none
  quiet : s.cancels = []
  counted : s.rxBytes = BitVec.ofNat 32 (unread s).length
  stream : before ++ unread s = s.accepted

section Socket

variable {s : RxSocket} {cb : RxCb} {rest : List RxCb} {before : List (Option Byte)}
  {pktLen n : BitVec 32} {mem : RxMemory} {req : ReadReq}

theorem length_unread_cb : cb.unread.length = cb.bytesToRead.toNat := length_read

theorem ofNat_sub_length (x : BitVec 32) (k : Nat) :
    BitVec.ofNat 32 (x.toNat + k) - x = BitVec.ofNat 32 k := by
  rw [BitVec.ofNat_add, BitVec.ofNat_toNat, BitVec.setWidth_eq, BitVec.add_comm,
    BitVec.add_sub_cancel]

theorem ofNat_add_length (k : Nat) (x : BitVec 32) :
    BitVec.ofNat 32 k + x = BitVec.ofNat 32 (k + x.toNat) := by
  rw [BitVec.ofNat_add, BitVec.ofNat_toNat, BitVec.setWidth_eq]

theorem unread_cons :
    unread { s with rxCbList := cb :: rest } = cb.unread ++ unread { s with rxCbList := rest } := by
  rw [unread, unread, flatMap_cons]

/-- A block that a read takes whole keeps the stream. -/
theorem Streams.whole (streams : Streams { s with rxCbList := cb :: rest } (before ++ req.out)) :
    Streams { finishCb (noteRead s cb cb.bytesToRead) cb with rxCbList := rest }
      (before ++ (req.copy cb cb.bytesToRead).out) := by
  have receive := streams.receive cb mem_cons_self
  have counted := streams.counted
  have stream := streams.stream
  rw [unread_cons, length_append, length_unread_cb] at counted
  have finish : finishCb (noteRead s cb cb.bytesToRead) cb =
      rxPktDec (noteRead s cb cb.bytesToRead) cb.bytesToRead := by
    simp [finishCb, cancelling, receive]
  rw [finish]
  refine ⟨fun other member => streams.receive other (mem_cons_of_mem cb member),
    streams.quiet, ?_, ?_⟩
  · have less := congrArg (· - cb.bytesToRead) counted
    simp only [ofNat_sub_length] at less
    exact less
  · simpa [ReadReq.copy, RxCb.unread, rxPktDec, noteRead, unread] using stream

/-- So does a block that it takes a part of. -/
theorem Streams.part (le : req.freeBytes ≤ cb.bytesToRead)
    (streams : Streams { s with rxCbList := cb :: rest } (before ++ req.out)) :
    Streams (takePart (noteRead s cb req.freeBytes) cb req.freeBytes rest)
      (before ++ (req.copy cb req.freeBytes).out) := by
  have counted := streams.counted
  have stream := streams.stream
  have few := BitVec.le_def.mp le
  have split : cb.unread = cb.mem.read cb.readPtr req.freeBytes.toNat ++
      cb.mem.read (cb.readPtr + req.freeBytes.toNat)
        (cb.bytesToRead.toNat - req.freeBytes.toNat) := by
    rw [RxCb.unread, ← read_add, Nat.add_sub_cancel' few]
  rw [unread_cons] at counted stream
  have left : unread (takePart (noteRead s cb req.freeBytes) cb req.freeBytes rest) =
      cb.mem.read (cb.readPtr + req.freeBytes.toNat)
        (cb.bytesToRead.toNat - req.freeBytes.toNat) ++ unread { s with rxCbList := rest } := by
    rw [takePart, unread, flatMap_cons, RxCb.unread, BitVec.toNat_sub_of_le le]
    rfl
  refine ⟨?_, streams.quiet, ?_, ?_⟩
  · intro other member
    rcases mem_cons.mp member with rfl | old
    · exact streams.receive cb mem_cons_self
    · exact streams.receive other (mem_cons_of_mem cb old)
  · rw [split, append_assoc, length_append, length_read] at counted
    rw [left]
    have less := congrArg (· - req.freeBytes) counted
    simp only [ofNat_sub_length] at less
    exact less
  · rw [left]
    rw [split] at stream
    simpa [ReadReq.copy, takePart, rxPktDec, noteRead] using stream

theorem Streams.copyCbs (plain : req.peek = false) (streams : Streams s (before ++ req.out)) :
    Streams (copyCbs s req s.rxCbList).1 (before ++ (copyCbs s req s.rxCbList).2.out) :=
  copyCbs_keeps (J := fun s req => Streams s (before ++ req.out))
    (Q := fun s req => Streams s (before ++ req.out))
    (fun _ _ _ _ _ _ streams => streams.whole)
    (fun _ _ _ _ _ more streams =>
      streams.part (BitVec.le_of_lt (BitVec.not_le.mp more)))
    (fun _ _ streams => streams) s.rxCbList plain streams

/-- A peek copies from the start of what is unread. -/
theorem peek_out (cbs : List RxCb) (peek : req.peek = true) :
    ∃ seen, (copyCbs s req cbs).2.out = req.out ++ seen ∧ seen <+: cbs.flatMap RxCb.unread := by
  induction cbs generalizing s req with
  | nil => exact ⟨[], (append_nil _).symm, nil_prefix⟩
  | cons cb _ ih =>
    rw [VioSock.copyCbs]
    by_cases fits : cb.bytesToRead ≤ req.freeBytes
    · obtain ⟨seen, out, begins⟩ := @ih (noteRead s cb cb.bytesToRead)
        (req.copy cb cb.bytesToRead) peek
      simp only [if_pos fits, peek, if_true]
      refine ⟨cb.unread ++ seen, ?_, ?_⟩
      · rw [out, ← append_assoc]
        rfl
      · exact (prefix_append_right_inj _).mpr begins
    · simp only [if_neg fits, peek]
      have few := BitVec.le_def.mp (BitVec.le_of_lt (BitVec.not_le.mp fits))
      refine ⟨cb.mem.read cb.readPtr req.freeBytes.toNat, rfl, ?_⟩
      have begins : cb.mem.read cb.readPtr req.freeBytes.toNat <+: cb.unread := by
        rw [RxCb.unread, ← Nat.add_sub_cancel' few, read_add]
        exact prefix_append _ _
      exact begins.trans (prefix_append _ _)

/-- A peek changes nothing but its own buffer. -/
theorem readLocked_peek (peek : req.peek = true) (fresh : req.out = []) (c : ReadChoice) :
    (readLocked s req c).1.rxCbList = s.rxCbList ∧ (readLocked s req c).1.rxBytes = s.rxBytes ∧
    (readLocked s req c).1.fwdCnt = s.fwdCnt ∧ (readLocked s req c).1.accepted = s.accepted ∧
    (readLocked s req c).1.cancels = s.cancels ∧
    (readLocked s req c).2.1.req.out <+: unread s := by
  rcases readLocked_eq s req c with ⟨_, sock, ends⟩ | ⟨_, sock, ends⟩
  · rw [sock, ends, fresh]
    exact ⟨rfl, rfl, rfl, rfl, rfl, nil_prefix⟩
  rw [sock, ends]
  obtain ⟨_, left⟩ := @copyCbs_peek s req peek s.rxCbList
  obtain ⟨_, out, begins⟩ := @peek_out s req s.rxCbList peek
  rw [left, out, fresh]
  exact ⟨rfl, rfl, rfl, rfl, rfl, begins⟩

/-! ## A packet -/

theorem unread_insertCb :
    unread (insertCb { s with rxBytes := s.rxBytes + pktLen } (pktCb pktLen mem)) =
      unread s ++ mem.read 0 pktLen.toNat := by
  rw [insertCb, unread, flatMap_append, flatMap_singleton]
  rfl

theorem Streams.insert (streams : Streams s before) :
    Streams (insertCb { s with rxBytes := s.rxBytes + pktLen } (pktCb pktLen mem)) before := by
  refine ⟨?_, streams.quiet, ?_, ?_⟩
  · exact forall_mem_concat streams.receive rfl
  · rw [unread_insertCb, length_append, length_read, ← ofNat_add_length, ← streams.counted]
    rfl
  · rw [unread_insertCb, ← append_assoc, streams.stream]
    rfl

theorem unread_mergeCb (sound : cb.Sound) (room : cb.dataLen.toNat + pktLen.toNat ≤ rxBufSize) :
    (mergeCb cb pktLen mem).unread = cb.unread ++ mem.read 0 pktLen.toNat := by
  have left := sound.left
  have sum : (cb.bytesToRead + pktLen).toNat = cb.bytesToRead.toNat + pktLen.toNat :=
    BitVec.toNat_add_of_lt (by simp only [rxBufSize] at room; omega)
  rw [RxCb.unread, mergeCb]
  simp only [sum]
  rw [read_add, read_write_before (le_of_eq left), left, read_write_self]
  rfl

theorem unread_mergeLast {last : RxCb} (there : s.rxCbList.getLast? = some last)
    (sound : last.Sound) (room : last.dataLen.toNat + pktLen.toNat ≤ rxBufSize) :
    unread (mergeLast { s with rxBytes := s.rxBytes + pktLen } last pktLen mem) =
      unread s ++ mem.read 0 pktLen.toNat := by
  have old : unread s = s.rxCbList.dropLast.flatMap RxCb.unread ++ last.unread := by
    rw [unread, ← flatMap_singleton RxCb.unread last, ← flatMap_append,
      dropLast_append_getLast? last there]
  rw [mergeLast, unread, flatMap_append, flatMap_singleton,
    unread_mergeCb sound room, ← append_assoc, old]

section

variable (streams : Streams s before)

include streams

/-- A packet appended to the last block keeps the stream. -/
theorem Streams.merge {last : RxCb}
    (there : s.rxCbList.getLast? = some last) (sound : last.Sound)
    (room : last.dataLen.toNat + pktLen.toNat ≤ rxBufSize) :
    Streams (mergeLast { s with rxBytes := s.rxBytes + pktLen } last pktLen mem) before := by
  have whole := @unread_mergeLast s pktLen mem last there sound room
  refine ⟨?_, streams.quiet, ?_, ?_⟩
  · exact forall_mem_concat (fun other old => streams.receive other (dropLast_subset _ old))
      (streams.receive last (mem_of_getLast? there))
  · rw [whole, length_append, length_read, ← ofNat_add_length, ← streams.counted]
    rfl
  · rw [whole, ← append_assoc, streams.stream]
    rfl

/-- A packet is dropped only if it does not fit the window. -/
theorem Streams.dropped (full : rxPktInc s pktLen = none) :
    s.bufAlloc.toNat < (unread s).length + pktLen.toNat := by
  rw [rxPktInc] at full
  split at full
  · rename_i beyond
    rw [streams.counted, ofNat_add_length] at beyond
    exact lt_of_lt_of_le beyond (Nat.mod_le _ _)
  · cases full

/-- A packet as long as its header says, which fits a receive buffer. -/
def StreamPkt (len headerLen : BitVec 32) : Prop :=
  len.toNat = headerSize + headerLen.toNat ∧ headerLen.toNat ≤ rxBufSize

/-- A packet is appended to the unread bytes, or is dropped for want of room. -/
structure Appends (s t : RxSocket) (bytes : List (Option Byte)) : Prop where
  unread : unread t = unread s ++ bytes
  accepted : t.accepted = s.accepted ++ bytes

theorem Streams.enqueue (bounded : s.Bounded)
    {after : RxSocket × Bool} (move : PktMove s pktLen mem after) :
    (Appends s after.1 (mem.read 0 pktLen.toNat) ∨ after.1 = s ∧ rxPktInc s pktLen = none) ∧
    Streams after.1 before := by
  cases move with
  | dropped full => exact ⟨.inr ⟨rfl, full⟩, streams⟩
  | stored => exact ⟨.inl ⟨unread_insertCb, rfl⟩, streams.insert⟩
  | merged _ there _ room =>
    have member := mem_of_getLast? there
    have sound := bounded.cbs _ member
    have fits := sound.room (streams.receive _ member) room
    exact ⟨.inl ⟨unread_mergeLast there sound fits, rfl⟩, streams.merge there sound fits⟩

/-- A packet is appended as a whole, or does not fit and changes nothing. -/
theorem Streams.packet (bounded : s.Bounded)
    {len headerLen : BitVec 32} (data : Memory) (pkt : StreamPkt len headerLen) :
    Appends s (rxPktEnqueueCb s headerLen (pktMemory len data)).1 (payload data headerLen.toNat) ∨
      ((rxPktEnqueueCb s headerLen (pktMemory len data)).1 = s ∧
        s.bufAlloc.toNat < (unread s).length + headerLen.toNat) := by
  rcases (streams.enqueue bounded (rxPktEnqueueCb_move _ _ _)).1 with appends | ⟨same, full⟩
  · rw [read_pktMemory data pkt.1] at appends
    exact .inl appends
  · exact .inr ⟨same, streams.dropped full⟩

end

theorem taken_of_plain (plain : req.peek = false) : req.taken = req.out := by
  rw [ReadReq.taken, plain]
  rfl

theorem taken_of_peek (peek : req.peek = true) : req.taken = [] := by
  rw [ReadReq.taken, if_pos peek]

theorem taken_of_empty (fresh : req.out = []) : req.taken = [] := by
  rw [ReadReq.taken, fresh, ite_self]

/-- A read takes the bytes that come next. -/
theorem Streams.readLocked (streams : Streams s (before ++ req.taken))
    (fresh : req.peek = true → req.out = []) (c : ReadChoice) :
    Streams (readLocked s req c).1 (before ++ (readLocked s req c).2.1.req.taken) := by
  have keeps : (VioSock.readLocked s req c).2.1.req.peek = req.peek := by
    obtain ⟨_, _, same⟩ := @copyCbs_req s req s.rxCbList
    rcases readLocked_eq s req c with ⟨_, _, ends⟩ | ⟨_, _, ends⟩
    · rw [ends]
    · rw [ends, same]
  cases peek : req.peek with
  | true =>
    obtain ⟨cbs, bytes, _, accepted, cancels, _⟩ := @readLocked_peek s req peek (fresh peek) c
    rw [taken_of_peek peek] at streams
    rw [taken_of_peek (keeps.trans peek)]
    refine ⟨?_, cancels.trans streams.quiet, ?_, ?_⟩
    · rw [cbs]
      exact streams.receive
    · rw [bytes, VioSock.unread, cbs]
      exact streams.counted
    · rw [accepted, VioSock.unread, cbs]
      exact streams.stream
  | false =>
    rw [taken_of_plain peek] at streams
    rw [taken_of_plain (keeps.trans peek)]
    rcases readLocked_eq s req c with ⟨_, sock, ends⟩ | ⟨_, sock, ends⟩
    · rw [sock, ends]
      exact streams
    · rw [sock, ends]
      exact streams.copyCbs peek

end Socket

/-! ## Runs -/

def RxPoint.retrieves : RxPoint → Bool
  | .retrieving => true
  | _ => false

/-- A socket without a loopback peer, whose packets are as long as their headers say, and whose
reads are served one at a time. -/
def StreamOp : RxOp → Prop
  | .packet len headerLen _ => StreamPkt len headerLen
  | .write .. => False
  | .step i _ =>
    ∀ p ∈ s.calls[i]?, p.retrieves = true → ∀ q ∈ s.calls, q.holds = false
  | _ => True

/-- What was completed, what is placed and what is unread are, in this order, the bytes that were
accepted. -/
structure Streaming (s : RxRun) : Prop where
  bounded : s.Bounded
  sock : Streams s.sock (completedBytes s ++ placedBytes s)
  one : s.calls.countP RxPoint.holds ≤ 1
  /-- Only the head of the queue can be half filled, -/
  behind : ∀ req ∈ s.queue.tail, req.out = []
  /-- and only if no read is in hand. -/
  held : (∃ p ∈ s.calls, p.holds = true) → ∀ req ∈ s.queue, req.out = []
  peeks : ∀ req, req ∈ s.queue ∨ .holding req ∈ s.calls → req.peek = true → req.out = []

variable {queue : List ReadReq} {p : RxPoint}

section Runs

variable {s} {t : RxRun} {i : Nat} {req : ReadReq}

theorem taken_of_free (free : p.holds = false) : p.taken = [] := by
  cases p with
  | holding => cases free
  | retrieving | done => rfl

theorem calls_free (free : ∀ p ∈ s.calls, p.holds = false) : s.calls.flatMap RxPoint.taken = [] :=
  flatMap_eq_nil_iff.mpr fun p member => taken_of_free (free p member)

theorem queue_empty (fresh : ∀ req ∈ queue, req.out = []) : queue.flatMap ReadReq.taken = [] :=
  flatMap_eq_nil_iff.mpr fun req member => taken_of_empty (fresh req member)

theorem others_free (one : s.calls.countP RxPoint.holds ≤ 1)
    (here : s.calls[i]? = some (.holding req)) (j : Nat) (p : RxPoint) (ne : j ≠ i)
    (there : s.calls[j]? = some p) : p.holds = false := by
  rw [← Bool.not_eq_true]
  intro holds
  exact ne (index_eq_of_countP_le_one one here rfl there holds).symm

theorem Streaming.placed_held (inv : Streaming s) (here : s.calls[i]? = some (.holding req)) :
    placedBytes s = req.taken := by
  have calls : s.calls.flatMap RxPoint.taken = req.taken :=
    flatMap_of_only here fun j p ne there => taken_of_free (others_free inv.one here j p ne there)
  rw [placedBytes, calls, queue_empty (inv.held ⟨_, mem_of_getElem? here, rfl⟩), append_nil]

theorem Streaming.scanIf (inv : Streaming s) (b : Bool) : Streaming (scanIf b s) := by
  cases b with
  | false => exact inv
  | true =>
    have member {p : RxPoint} (new : p ∈ s.calls ++ [.retrieving]) (holds : p.holds = true) :
        p ∈ s.calls := by
      rcases mem_append.mp new with old | new
      · exact old
      · rw [mem_singleton.mp new] at holds
        cases holds
    have placed : placedBytes (VioSock.scanIf true s) = placedBytes s := by
      rw [placedBytes, placedBytes, VioSock.scanIf]
      simp [RxPoint.taken]
    refine ⟨inv.bounded.scanIf true, ?_, ?_, inv.behind, ?_, ?_⟩
    · rw [placed]
      exact inv.sock
    · have counted := @countP_start _ s.calls RxPoint.retrieving RxPoint.holds
      have one := inv.one
      simp only [RxPoint.holds, Bool.toNat_false] at counted
      simp only [VioSock.scanIf, if_true]
      omega
    · rintro ⟨p, new, holds⟩
      exact inv.held ⟨p, member new holds, holds⟩
    · rintro req (queued | new)
      · exact inv.peeks req (.inl queued)
      · exact inv.peeks req (.inr (member new rfl))

theorem Streaming.withSock (inv : Streaming s) {sock : RxSocket}
    (bounded : RxRun.Bounded { s with sock := sock })
    (streams : Streams sock (completedBytes s ++ placedBytes s)) :
    Streaming { s with sock := sock } :=
  { inv with bounded, sock := streams }

theorem streaming_free (bounded : t.Bounded) (free : ∀ p ∈ t.calls, p.holds = false)
    (sock : Streams t.sock (completedBytes t ++ t.queue.flatMap ReadReq.taken))
    (behind : ∀ req ∈ t.queue.tail, req.out = [])
    (peeks : ∀ req ∈ t.queue, req.peek = true → req.out = []) : Streaming t := by
  refine ⟨bounded, ?_, ?_, behind, ?_, ?_⟩
  · rw [placedBytes, calls_free free]
    exact sock
  · have nobody : t.calls.countP RxPoint.holds = 0 :=
      countP_eq_zero.mpr fun p member => by simp [free p member]
    omega
  · rintro ⟨p, member, holds⟩
    rw [free p member] at holds
    cases holds
  · rintro req (queued | member)
    · exact peeks req queued
    · cases free _ member

theorem streaming_held (bounded : t.Bounded) (here : t.calls[i]? = some (.holding req))
    (one : t.calls.countP RxPoint.holds ≤ 1) (sock : Streams t.sock (completedBytes t ++ req.taken))
    (fresh : ∀ other ∈ t.queue, other.out = []) (peek : req.peek = true → req.out = []) :
    Streaming t := by
  have only : t.calls.flatMap RxPoint.taken = req.taken :=
    flatMap_of_only here fun j p ne there => taken_of_free (others_free one here j p ne there)
  refine ⟨bounded, ?_, one, fun other member => fresh other (mem_of_mem_tail member),
    fun _ => fresh, ?_⟩
  · rw [placedBytes, only, queue_empty fresh, append_nil]
    exact sock
  rintro other (queued | member) peeks
  · exact fresh other queued
  obtain ⟨j, there⟩ := getElem?_of_mem member
  have same := index_eq_of_countP_le_one one here rfl there rfl
  subst same
  rw [here] at there
  cases there
  exact peek peeks

theorem free_moved (free : ∀ j q, j ≠ i → s.calls[j]? = some q → q.holds = false)
    (new : p.holds = false) (q : RxPoint) (member : q ∈ s.calls.set i p) : q.holds = false := by
  obtain ⟨j, there⟩ := getElem?_of_mem member
  rcases getElem?_move there with ⟨_, rfl⟩ | ⟨ne, old⟩
  · exact new
  · exact free j q ne old

/-- A read that is taken from the queue keeps the stream. -/
theorem Streaming.retrieve (inv : Streaming s) (here : s.calls[i]? = some .retrieving)
    (c : ReadChoice) (free : ∀ q ∈ s.calls, q.holds = false) :
    Streaming (readAdvance s i c .retrieving) := by
  have bounded := @RxRun.Bounded.retrieve s i inv.bounded c
  have sock := inv.sock
  rw [placedBytes, calls_free free] at sock
  cases queue : s.queue with
  | nil =>
    have same : readAdvance s i c .retrieving = { s with calls := s.calls.set i .done } := by
      rw [readAdvance, queue]
    rw [same] at bounded ⊢
    refine streaming_free bounded ?_ sock inv.behind fun req member => inv.peeks req (.inl member)
    exact free_moved (fun j q _ there => free q (mem_of_getElem? there)) rfl
  | cons first rest =>
    have same : readAdvance s i c .retrieving =
        { s with queue := rest, calls := s.calls.set i (.holding first) } := by
      rw [readAdvance, queue]
    have behind : ∀ req ∈ rest, req.out = [] := by
      intro req member
      exact inv.behind req (by rw [queue]; exact member)
    have entered := countP_enter here (.holding first) RxPoint.holds rfl rfl
    have nobody : s.calls.countP RxPoint.holds = 0 :=
      countP_eq_zero.mpr fun p member => by simp [free p member]
    rw [same] at bounded ⊢
    refine streaming_held bounded (getElem?_moved here _) ?_ ?_ behind ?_
    · simp only
      omega
    · rw [queue, flatMap_cons, queue_empty behind, append_nil] at sock
      exact sock
    · exact inv.peeks first (.inl (by rw [queue]; exact mem_cons_self))

/-- A read in hand goes on, completes or is put back, and keeps the stream. -/
theorem Streaming.hold (inv : Streaming s) (here : s.calls[i]? = some (.holding req))
    (c : ReadChoice) : Streaming (readAdvance s i c (.holding req)) := by
  have bounded := inv.bounded.hold here c
  have fresh := inv.held ⟨_, mem_of_getElem? here, rfl⟩
  have peek := inv.peeks req (.inr (mem_of_getElem? here))
  have sock := inv.sock
  rw [inv.placed_held here] at sock
  have streams := sock.readLocked peek c
  have free {p : RxPoint} (new : p.holds = false) := free_moved (others_free inv.one here) new
  -- a peek goes back to the queue only if it has seen nothing
  have again (r : ReadReq) (ends : (readLocked s.sock req c).2.1 = .requeued r)
      (peeks : r.peek = true) : r.out = [] := by
    obtain ⟨_, _, keeps⟩ := @copyCbs_req s.sock req s.sock.rxCbList
    rcases readLocked_cases s.sock req c with ⟨_, same⟩ | ⟨_, status, same⟩ | ⟨_, _, plain, _, same⟩
    · rw [same] at ends
      rcases readNoData_cases req c with back | ⟨_, done⟩
      · obtain rfl := ReadEnd.requeued.inj (back.symm.trans ends)
        exact peek peeks
      · cases done.symm.trans ends
    · rw [same] at ends
      cases ends
    · rw [same] at ends
      cases ends
      rw [keeps] at peeks
      cases plain.symm.trans peeks
  rw [readAdvance] at bounded ⊢
  generalize readLocked s.sock req c = after at bounded streams again ⊢
  obtain ⟨_, ends, bRestart⟩ := after
  have calls : ∀ q ∈ s.calls.set i (if bRestart then .retrieving else .done), q.holds = false := by
    cases bRestart with
    | true | false => exact free rfl
  cases ends with
  | requeued =>
    refine streaming_free bounded calls ?_ fresh ?_
    · simp only [flatMap_cons, queue_empty fresh, append_nil]
      exact streams
    intro other member peeks
    rcases mem_cons.mp member with rfl | old
    · exact again other rfl peeks
    · exact fresh other old
  | completed =>
    refine streaming_free bounded calls ?_ ?_ fun other member _ => fresh other member
    · simp only [completedBytes, flatMap_append, flatMap_singleton, queue_empty fresh, append_nil]
      exact streams
    · exact fun other member => fresh other (mem_of_mem_tail member)

theorem taken_eraseIdx (behind : ∀ req ∈ queue.tail, req.out = []) (here : queue[i]? = some req) :
    queue.flatMap ReadReq.taken = req.taken ++ (queue.eraseIdx i).flatMap ReadReq.taken := by
  cases queue with
  | nil => cases here
  | cons _ rest =>
    cases i with
    | zero =>
      cases here
      rw [flatMap_cons, eraseIdx_cons_zero]
    | succ i =>
      rw [tail_cons] at behind
      have away (other : ReadReq) (member : other ∈ rest.eraseIdx i) : other.out = [] :=
        behind other (mem_of_mem_eraseIdx member)
      rw [flatMap_cons, eraseIdx_cons_succ, flatMap_cons, queue_empty behind,
        queue_empty away, taken_of_empty (behind req (mem_of_getElem? here)),
        nil_append]

theorem behind_eraseIdx (behind : ∀ req ∈ queue.tail, req.out = []) (req : ReadReq)
    (member : req ∈ (queue.eraseIdx i).tail) : req.out = [] := by
  cases queue with
  | nil => cases member
  | cons =>
    cases i with
    | zero => exact behind req (mem_of_mem_tail member)
    | succ => exact behind req (mem_of_mem_eraseIdx member)

section

variable (inv : Streaming s)

include inv

/-- A read that ends in the queue hands over what it has. -/
theorem Streaming.endRead {status : NtStatus} (bounded : RxRun.Bounded { s with
      queue := s.queue.eraseIdx i, completed := s.completed ++ [(req, status)] })
    (here : s.queue[i]? = some req) :
    Streaming { s with
      queue := s.queue.eraseIdx i, completed := s.completed ++ [(req, status)] } := by
  have sock := inv.sock
  by_cases held : ∃ p ∈ s.calls, p.holds = true
  · have fresh := inv.held held
    obtain ⟨p, member, holds⟩ := held
    obtain ⟨j, there⟩ := getElem?_of_mem member
    cases p with
    | holding first =>
      rw [inv.placed_held there] at sock
      refine streaming_held bounded there inv.one ?_
        (fun other member => fresh other (mem_of_mem_eraseIdx member))
        (inv.peeks first (.inr (mem_of_getElem? there)))
      simp only [completedBytes, flatMap_append, flatMap_singleton,
        taken_of_empty (fresh req (mem_of_getElem? here)), append_nil]
      exact sock
    | retrieving | done => cases holds
  · have free : ∀ p ∈ s.calls, p.holds = false := fun p member => by
      rw [← Bool.not_eq_true]
      exact fun holds => held ⟨p, member, holds⟩
    rw [placedBytes, calls_free free, nil_append] at sock
    refine streaming_free bounded free ?_ (behind_eraseIdx inv.behind)
      fun other member => inv.peeks other (.inl (mem_of_mem_eraseIdx member))
    rw [taken_eraseIdx inv.behind here, ← append_assoc] at sock
    simp only [completedBytes, flatMap_append, flatMap_singleton]
    exact sock

theorem Streaming.read (fresh : req.out = [])
    (bounded : RxRun.Bounded { s with queue := s.queue ++ [req], nextId := s.nextId + 1 }) :
    Streaming { s with queue := s.queue ++ [req], nextId := s.nextId + 1 } := by
  refine ⟨bounded, ?_, inv.one, ?_, ?_, ?_⟩
  · simp only [placedBytes, flatMap_append, flatMap_singleton, taken_of_empty fresh, append_nil]
    exact inv.sock
  · intro other member
    cases queue : s.queue with
    | nil =>
      simp only [queue] at member
      cases member
    | cons =>
      simp only [queue] at member
      have behind := inv.behind
      rw [queue] at behind
      exact forall_mem_concat behind fresh other member
  · exact fun held => forall_mem_concat (inv.held held) fresh
  · rintro other (queued | holding) peeks
    · rcases mem_append.mp queued with old | new
      · exact inv.peeks other (.inl old) peeks
      · rw [mem_singleton.mp new]
        exact fresh
    · exact inv.peeks other (.inr holding) peeks

theorem Streaming.noCancel (request : Nat) :
    cancelWrite s.sock request = s.sock ∧ rxRequestCancelCb s.sock request = s.sock := by
  constructor
  · rw [cancelWrite, if_neg]
    rintro ⟨_, cb, member, has⟩
    cases (inv.sock.receive cb member).symm.trans has
  · rw [rxRequestCancelCb, if_neg]
    rw [inv.sock.quiet]
    exact not_mem_nil

/-- A host that sends a stream stores only sound packets. -/
theorem Streaming.safe (op : RxOp) (streamed : StreamOp s op) : RxSafe s op := by
  cases op with
  | packet =>
    intro _ _
    exact ⟨streamed.1, streamed.2, fun last there _ _ =>
      inv.sock.receive last (mem_of_getLast? there)⟩
  | _ => trivial

/-- Every effect of an operation keeps the stream. -/
theorem Streaming.effect {op : RxOp} (streamed : StreamOp s op) (effect : RxEffect s op t) :
    Streaming t := by
  have safe := inv.safe op streamed
  have bounded := inv.bounded.effect safe effect
  cases effect with
  | quiet => exact inv
  | @packet _ _ data _ kept move =>
    have stored := inv.bounded.sock.packet data kept safe move
    have streams := (inv.sock.enqueue inv.bounded.sock move).2
    exact (inv.withSock (inv.bounded.withSock stored s.nextId) streams).scanIf _
  | write => cases streamed
  | read fresh =>
    refine Streaming.scanIf (inv.read fresh ⟨inv.bounded.sock, ?_, inv.bounded.calls,
      inv.bounded.completed⟩) _
    refine forall_mem_concat inv.bounded.queue ?_
    rw [fresh]
    nofun
  | scan => exact inv.scanIf true
  | retrieve c here => exact inv.retrieve here c (streamed _ here rfl)
  | hold c here => exact inv.hold here c
  | cancel request =>
    rw [(inv.noCancel request).1]
    exact inv
  | cancelRoutine request =>
    rw [(inv.noCancel request).2]
    exact inv
  | endRead _ here => exact inv.endRead bounded here

end

theorem streaming_rxStart (bufAlloc : BitVec 32) : Streaming (rxStart bufAlloc) := by
  refine streaming_free (bounded_rxStart bufAlloc) ?_ ⟨?_, rfl, rfl, rfl⟩ ?_ ?_
  · nofun
  · nofun
  · nofun
  · nofun

end Runs

/-! ## Fixed runs -/

section Fixed

instance (len headerLen : BitVec 32) : Decidable (StreamPkt len headerLen) :=
  inferInstanceAs (Decidable (_ ∧ _))

instance : (op : RxOp) → Decidable (StreamOp s op)
  | .packet .. | .write .. | .read .. | .scan | .step .. | .cancel _ | .cancelRoutine _
  | .endRead .. => by unfold StreamOp; infer_instance

/-- A read that waits for all of its five bytes gets two, is requeued, and gets three of the next
four; a peek then sees the last one. -/
def halfFilled : List RxOp :=
  [.packet 46 2 fun i => BitVec.ofNat 8 i, .read 5 false true] ++ serve 1 ++
    [.packet 48 4 fun i => BitVec.ofNat 8 (2 + i)] ++ serve 2 ++ serve 2 ++
    [.read 3 true false] ++ serve 3

end Fixed

end KvmGuestDrivers.VioSock

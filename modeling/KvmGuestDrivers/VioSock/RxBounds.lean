/-
# VioSock.RxBounds -- packets of the host and the receive buffers

`VIOSockRxVqProcess` drops a packet that is longer than its header says, but not one that is
shorter: that the two agree is only asserted.  The length of the header is what the buffer is
believed to hold from there on.
-/
import KvmGuestDrivers.VioSock.RxQueue

namespace KvmGuestDrivers.VioSock

set_option autoImplicit false

open Theory List

/-! ## Memory -/

section Memory

variable {mem src : RxMemory} {start n i : Nat}

theorem write_of_lt (below : i < start) : mem.write start n src i = mem i := by
  rw [RxMemory.write, if_neg (by omega)]

theorem write_of_mem (low : start ≤ i) (high : i < start + n) :
    mem.write start n src i = src (i - start) := by
  rw [RxMemory.write, if_pos ⟨low, high⟩]

end Memory

/-! ## Blocks -/

/-- Of a block, the bytes up to `dataLen` were reported, and those from `readPtr` on are left. -/
structure RxCb.Sound (cb : RxCb) : Prop where
  left : cb.readPtr + cb.bytesToRead.toNat = cb.dataLen.toNat
  inside : cb.dataLen.toNat ≤ cb.size
  reported : ∀ i, i < cb.dataLen.toNat → (cb.mem i).isSome = true
  buffer : cb.request = none → cb.size = rxBufSize

def RxAccess.Inside (a : RxAccess) : Prop := a.start + a.len ≤ a.size

def Reported (bytes : List (Option Byte)) : Prop := ∀ b ∈ bytes, b.isSome = true

structure RxSocket.Bounded (s : RxSocket) : Prop where
  cbs : ∀ cb ∈ s.rxCbList, cb.Sound
  accesses : ∀ a ∈ s.accesses, a.Inside

section Blocks

variable {s : RxSocket} {cb : RxCb} {req : ReadReq} {pktLen n headerLen len : BitVec 32}
  {mem : RxMemory}

theorem Reported.append {bytes more : List (Option Byte)} (first : Reported bytes)
    (second : Reported more) : Reported (bytes ++ more) := forall_mem_append.mpr ⟨first, second⟩

section

variable (sound : cb.Sound) (le : n ≤ cb.bytesToRead)

include sound le

theorem RxCb.Sound.reportedRead : Reported (cb.mem.read cb.readPtr n.toNat) := by
  intro b member
  simp only [RxMemory.read, mem_map, mem_range'_1] at member
  obtain ⟨i, ⟨_, _⟩, rfl⟩ := member
  have left := sound.left
  have few := BitVec.le_def.mp le
  exact sound.reported i (by omega)

theorem RxCb.Sound.insideRead : RxAccess.Inside ⟨cb.readPtr, n.toNat, cb.size⟩ := by
  have left := sound.left
  have inside := sound.inside
  have few := BitVec.le_def.mp le
  simp only [RxAccess.Inside]
  omega

theorem RxCb.Sound.part :
    RxCb.Sound { cb with readPtr := cb.readPtr + n.toNat, bytesToRead := cb.bytesToRead - n } where
  __ := sound
  left := by
    have left := sound.left
    have few := BitVec.le_def.mp le
    simp only [BitVec.toNat_sub_of_le le]
    omega

end

theorem sound_pktCb (fits : pktLen.toNat ≤ rxBufSize)
    (reported : ∀ i, i < pktLen.toNat → (mem i).isSome = true) : (pktCb pktLen mem).Sound where
  left := zero_add _
  inside := fits
  reported := reported
  buffer := fun _ => rfl

variable (request : Nat)

theorem sound_requestCb (reported : ∀ i, (mem i).isSome = true) :
    (requestCb request pktLen mem).Sound where
  left := zero_add _
  inside := le_rfl
  reported := fun i _ => reported i
  buffer := nofun

/-- There is as much room behind the data of a receive buffer as `BufferFree` says. -/
theorem RxCb.Sound.room (sound : cb.Sound) (receive : cb.request = none)
    (room : pktLen ≤ BitVec.ofNat 32 rxBufSize - cb.dataLen) :
    cb.dataLen.toNat + pktLen.toNat ≤ rxBufSize := by
  have inside := sound.inside
  rw [sound.buffer receive] at inside
  have few := BitVec.le_def.mp room
  rw [BitVec.toNat_sub_of_le (BitVec.le_def.mpr inside)] at few
  simp only [BitVec.toNat_ofNat] at few inside ⊢
  omega

/-- A packet that has room keeps the block sound. -/
theorem RxCb.Sound.merge (sound : cb.Sound) (receive : cb.request = none)
    (room : pktLen ≤ BitVec.ofNat 32 rxBufSize - cb.dataLen)
    (reported : ∀ i, i < pktLen.toNat → (mem i).isSome = true) :
    (mergeCb cb pktLen mem).Sound := by
  have fits := sound.room receive room
  have sum : (cb.dataLen + pktLen).toNat = cb.dataLen.toNat + pktLen.toNat :=
    BitVec.toNat_add_of_lt (by simp only [rxBufSize] at fits; omega)
  have left := sound.left
  refine ⟨?_, ?_, ?_, sound.buffer⟩
  · have rest : (cb.bytesToRead + pktLen).toNat = cb.bytesToRead.toNat + pktLen.toNat :=
      BitVec.toNat_add_of_lt (by omega)
    simp only [mergeCb]
    omega
  · simp only [mergeCb, sum, sound.buffer receive]
    exact fits
  · intro i below
    simp only [mergeCb, sum] at below ⊢
    by_cases old : i < cb.dataLen.toNat
    · rw [write_of_lt old]
      exact sound.reported i old
    · rw [write_of_mem (by omega) below]
      exact reported _ (by omega)

/-! ## The functions of the socket -/

theorem RxSocket.Bounded.same {t : RxSocket} (bounded : s.Bounded)
    (cbs : t.rxCbList = s.rxCbList) (accesses : t.accesses = s.accesses) : t.Bounded :=
  ⟨cbs ▸ bounded.cbs, accesses ▸ bounded.accesses⟩

theorem RxSocket.Bounded.insert (bounded : s.Bounded) (sound : cb.Sound) :
    (insertCb s cb).Bounded := by
  refine ⟨?_, bounded.accesses⟩
  exact forall_mem_concat bounded.cbs sound

theorem RxSocket.Bounded.mergeLast (bounded : s.Bounded) {last : RxCb}
    (there : s.rxCbList.getLast? = some last) (receive : last.request = none)
    (room : pktLen ≤ BitVec.ofNat 32 rxBufSize - last.dataLen) (fits : pktLen.toNat ≤ rxBufSize)
    (reported : ∀ i, i < pktLen.toNat → (mem i).isSome = true) :
    (mergeLast s last pktLen mem).Bounded := by
  have sound := bounded.cbs last (mem_of_getLast? there)
  constructor
  · exact forall_mem_concat (fun cb old => bounded.cbs cb (dropLast_subset _ old))
      (sound.merge receive room reported)
  · intro a member
    rcases mem_append.mp member with old | new
    · exact bounded.accesses a old
    simp only [mem_cons, not_mem_nil, or_false] at new
    have inside := sound.room receive room
    rcases new with rfl | rfl
    · simp only [RxAccess.Inside]
      omega
    · simp only [sound.buffer receive]
      exact inside

/-- A packet that is stored has the length of its header, fits a receive buffer and is not merged
into the buffer of a loopback write. -/
def StoresSound (s : RxSocket) (len headerLen : BitVec 32) : Prop :=
  shortOrLong len headerLen = false → (rxPktInc s headerLen).isSome = true →
    len.toNat = headerSize + headerLen.toNat ∧ headerLen.toNat ≤ rxBufSize ∧
    ∀ last ∈ s.rxCbList.getLast?, headerLen ≤ bytesToMerge →
      headerLen ≤ BitVec.ofNat 32 rxBufSize - last.dataLen → last.request = none

theorem reported_pktMemory (data : Memory) (whole : len.toNat = headerSize + headerLen.toNat)
    (i : Nat) (below : i < headerLen.toNat) : (pktMemory len data i).isSome = true := by
  rw [pktMemory, if_pos (by omega)]
  rfl

section

variable (bounded : s.Bounded)

include bounded

/-- A packet from a sound store keeps all accesses inside. -/
theorem RxSocket.Bounded.packet (data : Memory) (long : shortOrLong len headerLen = false)
    (stores : StoresSound s len headerLen) {after : RxSocket × Bool}
    (move : PktMove s headerLen (pktMemory len data) after) : after.1.Bounded := by
  have counted : RxSocket.Bounded { s with rxBytes := s.rxBytes + headerLen } :=
    bounded.same rfl rfl
  cases move with
  | dropped => exact bounded
  | stored inc =>
    obtain ⟨whole, fits, _⟩ := stores long (by rw [inc]; rfl)
    exact counted.insert (sound_pktCb fits (reported_pktMemory data whole))
  | merged inc there short room =>
    obtain ⟨whole, fits, receive⟩ := stores long (by rw [inc]; rfl)
    exact counted.mergeLast there (receive _ there short room) room fits
      (reported_pktMemory data whole)

theorem RxSocket.Bounded.write (length : BitVec 32) (data : Memory) (marked : Bool) :
    (rxRequestEnqueueCb s request length (fun i => some (data i)) marked).1.Bounded := by
  rw [rxRequestEnqueueCb]
  cases inc : rxPktInc s length with
  | none => exact bounded
  | some =>
    obtain rfl := rxPktInc_some inc
    have counted : RxSocket.Bounded { s with rxBytes := s.rxBytes + length } := bounded.same rfl rfl
    cases marked with
    | false => exact counted
    | true => exact counted.insert (sound_requestCb request fun _ => rfl)

theorem RxSocket.Bounded.cancelWrite : (cancelWrite s request).Bounded := by
  rw [VioSock.cancelWrite]
  split
  · exact bounded.same rfl rfl
  · exact bounded

theorem RxSocket.Bounded.cancelRoutine : (rxRequestCancelCb s request).Bounded := by
  rw [rxRequestCancelCb]
  split
  · split
    · exact bounded
    · exact ⟨fun cb member => bounded.cbs cb (mem_of_mem_filter member), bounded.accesses⟩
  · exact bounded

end

/-! ## A read -/

def CopySound (s : RxSocket) (req : ReadReq) : Prop := s.Bounded ∧ Reported req.out

/-- What a read copies of a block is inside it and was reported. -/
theorem CopySound.copy {cbs : List RxCb} (sound : CopySound { s with rxCbList := cb :: cbs } req)
    (le : n ≤ cb.bytesToRead) :
    (∀ a ∈ (noteRead s cb n).accesses, a.Inside) ∧ Reported (req.copy cb n).out := by
  have good := sound.1.cbs cb mem_cons_self
  refine ⟨?_, sound.2.append (good.reportedRead le)⟩
  exact forall_mem_concat sound.1.accesses (good.insideRead le)

theorem CopySound.whole (s : RxSocket) (req : ReadReq) (cb : RxCb) (rest : List RxCb)
    (sound : CopySound { s with rxCbList := cb :: rest } req) :
    CopySound { finishCb (noteRead s cb cb.bytesToRead) cb with rxCbList := rest }
      (req.copy cb cb.bytesToRead) := by
  obtain ⟨inside, reported⟩ := sound.copy (BitVec.le_refl _)
  refine ⟨⟨fun other member => sound.1.cbs other (mem_cons_of_mem cb member), ?_⟩, reported⟩
  rw [finishCb]
  split <;> exact inside

theorem CopySound.part (s : RxSocket) (req : ReadReq) (cb : RxCb) (rest : List RxCb)
    (more : ¬cb.bytesToRead ≤ req.freeBytes)
    (sound : CopySound { s with rxCbList := cb :: rest } req) :
    CopySound (takePart (noteRead s cb req.freeBytes) cb req.freeBytes rest)
      (req.copy cb req.freeBytes) := by
  have le : req.freeBytes ≤ cb.bytesToRead := BitVec.le_of_lt (BitVec.not_le.mp more)
  obtain ⟨inside, reported⟩ := sound.copy le
  refine ⟨⟨?_, inside⟩, reported⟩
  intro other member
  rcases mem_cons.mp member with rfl | old
  · exact (sound.1.cbs cb mem_cons_self).part le
  · exact sound.1.cbs other (mem_cons_of_mem cb old)

theorem CopySound.peek (cbs : List RxCb) (peek : req.peek = true)
    (sound : CopySound { s with rxCbList := cbs } req) :
    CopySound (copyCbs s req cbs).1 (copyCbs s req cbs).2 := by
  induction cbs generalizing s req with
  | nil => exact sound
  | cons cb _ ih =>
    rw [copyCbs]
    by_cases fits : cb.bytesToRead ≤ req.freeBytes
    · obtain ⟨inside, reported⟩ := sound.copy (BitVec.le_refl _)
      have later := @ih (noteRead s cb cb.bytesToRead) (req.copy cb cb.bytesToRead) peek
        ⟨⟨fun other member => sound.1.cbs other (mem_cons_of_mem cb member), inside⟩, reported⟩
      simp only [if_pos fits, peek]
      refine ⟨⟨?_, later.1.accesses⟩, later.2⟩
      intro other member
      rcases mem_cons.mp member with rfl | old
      · exact sound.1.cbs _ mem_cons_self
      · exact later.1.cbs other old
    · obtain ⟨inside, reported⟩ := sound.copy (BitVec.le_of_lt (BitVec.not_le.mp fits))
      simp only [if_neg fits, peek]
      exact ⟨⟨sound.1.cbs, inside⟩, reported⟩

/-- So is all that it copies in the loop. -/
theorem CopySound.copyCbs (bounded : s.Bounded) (reported : Reported req.out) :
    CopySound (copyCbs s req s.rxCbList).1 (copyCbs s req s.rxCbList).2 := by
  cases peek : req.peek with
  | true => exact CopySound.peek s.rxCbList peek ⟨bounded, reported⟩
  | false =>
    exact copyCbs_keeps
      (fun s req cb rest _ _ sound => CopySound.whole s req cb rest sound)
      (fun s req cb rest _ more sound => CopySound.part s req cb rest more sound)
      (fun _ _ sound => sound) s.rxCbList peek ⟨bounded, reported⟩

theorem CopySound.readLocked (bounded : s.Bounded) (reported : Reported req.out) (c : ReadChoice) :
    CopySound (readLocked s req c).1 (readLocked s req c).2.1.req := by
  rcases readLocked_eq s req c with ⟨_, sock, ends⟩ | ⟨_, sock, ends⟩
  · rw [sock, ends]
    exact ⟨bounded, reported⟩
  · rw [sock, ends]
    exact CopySound.copyCbs bounded reported

end Blocks

/-! ## Runs -/

/-- The host stores only sound packets. -/
def RxSafe (s : RxRun) : RxOp → Prop
  | .packet len headerLen _ => StoresSound s.sock len headerLen
  | _ => True

structure RxRun.Bounded (s : RxRun) : Prop where
  sock : s.sock.Bounded
  queue : ∀ req ∈ s.queue, Reported req.out
  calls : ∀ req, RxPoint.holding req ∈ s.calls → Reported req.out
  completed : ∀ e ∈ s.completed, Reported e.1.out

section Runs

variable {s : RxRun} {i : Nat}

theorem RxRun.Bounded.withSock (bounded : s.Bounded) {sock : RxSocket} (inside : sock.Bounded)
    (nextId : Nat) : RxRun.Bounded { s with sock := sock, nextId := nextId } :=
  { bounded with sock := inside }

theorem RxRun.Bounded.scanIf (bounded : s.Bounded) (b : Bool) : (scanIf b s).Bounded := by
  cases b with
  | false => exact bounded
  | true =>
    refine ⟨bounded.sock, bounded.queue, ?_, bounded.completed⟩
    intro req member
    rcases mem_append.mp member with old | new
    · exact bounded.calls req old
    · cases mem_singleton.mp new

theorem mem_moved {calls : List RxPoint} {p q : RxPoint} (member : p ∈ calls.set i q) :
    p = q ∨ p ∈ calls := by
  rcases mem_or_eq_of_mem_set member with old | new
  · exact .inr old
  · exact .inl new

theorem RxRun.Bounded.retrieve (bounded : s.Bounded) (c : ReadChoice) :
    (readAdvance s i c .retrieving).Bounded := by
  rw [readAdvance]
  split
  · refine ⟨bounded.sock, bounded.queue, fun req member => ?_, bounded.completed⟩
    rcases mem_moved member with new | old
    · cases new
    · exact bounded.calls req old
  · rename_i first rest queue
    have reported (req : ReadReq) (member : req ∈ first :: rest) : Reported req.out :=
      bounded.queue req (queue ▸ member)
    refine ⟨bounded.sock, fun req member => reported req (mem_cons_of_mem first member),
      fun req member => ?_, bounded.completed⟩
    rcases mem_moved member with new | old
    · cases new
      exact reported first mem_cons_self
    · exact bounded.calls req old

theorem RxRun.Bounded.hold (bounded : s.Bounded) {req : ReadReq}
    (here : s.calls[i]? = some (.holding req)) (c : ReadChoice) :
    (readAdvance s i c (.holding req)).Bounded := by
  have sound := CopySound.readLocked bounded.sock (bounded.calls req (mem_of_getElem? here)) c
  rw [readAdvance]
  generalize readLocked s.sock req c = after at sound ⊢
  obtain ⟨_, ends, bRestart⟩ := after
  have calls (other : ReadReq)
      (member : RxPoint.holding other ∈ s.calls.set i (if bRestart then .retrieving else .done)) :
      Reported other.out := by
    rcases mem_moved member with new | old
    · cases bRestart <;> cases new
    · exact bounded.calls other old
  cases ends with
  | requeued =>
    refine ⟨sound.1, fun other member => ?_, calls, bounded.completed⟩
    rcases mem_cons.mp member with rfl | old
    · exact sound.2
    · exact bounded.queue other old
  | completed =>
    exact ⟨sound.1, bounded.queue, calls, forall_mem_concat bounded.completed sound.2⟩

/-- Every effect of a safe operation keeps the bounds. -/
theorem RxRun.Bounded.effect (bounded : s.Bounded) {op : RxOp} {t : RxRun} (safe : RxSafe s op)
    (effect : RxEffect s op t) : t.Bounded := by
  cases effect with
  | quiet => exact bounded
  | @packet _ _ data _ kept move =>
    exact (bounded.withSock (bounded.sock.packet data kept safe move) s.nextId).scanIf _
  | write length data marked eq =>
    subst eq
    have sock := bounded.sock.write s.nextId length data marked
    exact (bounded.withSock sock (s.nextId + 1)).scanIf _
  | read fresh =>
    refine RxRun.Bounded.scanIf ?_ _
    refine ⟨bounded.sock, forall_mem_concat bounded.queue ?_, bounded.calls, bounded.completed⟩
    rw [fresh]
    nofun
  | scan => exact bounded.scanIf true
  | retrieve c => exact bounded.retrieve c
  | hold c here => exact bounded.hold here c
  | cancel request => exact bounded.withSock (bounded.sock.cancelWrite request) s.nextId
  | cancelRoutine request => exact bounded.withSock (bounded.sock.cancelRoutine request) s.nextId
  | endRead _ here =>
    exact ⟨bounded.sock, fun other member => bounded.queue other (mem_of_mem_eraseIdx member),
      bounded.calls, forall_mem_concat bounded.completed (bounded.queue _ (mem_of_getElem? here))⟩

theorem bounded_rxStart (bufAlloc : BitVec 32) : (rxStart bufAlloc).Bounded := by
  constructor
  · constructor
    · nofun
    · nofun
  · nofun
  · nofun
  · nofun

/-- **Packets of the host stay inside the receive buffers**: nothing outside a buffer is read or
written, what is left of each receive buffer lies inside it and was reported, and so was every
byte that a read was given. -/
theorem rx_in_bounds {bufAlloc : BitVec 32}
    (reach : Reachable (· = rxStart bufAlloc) (Next rxStep RxSafe) s) :
    (∀ a ∈ s.sock.accesses, a.start + a.len ≤ a.size) ∧
    (∀ cb ∈ s.sock.rxCbList, cb.request = none →
      cb.size = rxBufSize ∧ cb.readPtr + cb.bytesToRead.toNat ≤ rxBufSize ∧
      ∀ b ∈ cb.mem.read cb.readPtr cb.bytesToRead.toNat, b.isSome = true) ∧
    (∀ e ∈ s.completed, ∀ b ∈ e.1.out, b.isSome = true) := by
  have bounded : s.Bounded := by
    refine rx_invariant reach (bounded_rxStart bufAlloc) ?_
    intro s op t bounded safe effect
    exact bounded.effect safe effect
  refine ⟨bounded.sock.accesses, ?_, bounded.completed⟩
  intro cb member receive
  have sound := bounded.sock.cbs cb member
  have left := sound.left
  have inside := sound.inside
  rw [sound.buffer receive] at inside
  exact ⟨sound.buffer receive, by omega, sound.reportedRead (BitVec.le_refl _)⟩

end Runs

/-! ## Fixed runs -/

section Fixed

instance (s : RxSocket) (len headerLen : BitVec 32) : Decidable (StoresSound s len headerLen) :=
  inferInstanceAs (Decidable (_ → _ → _ ∧ _ ∧ _))

instance (s : RxRun) (op : RxOp) : Decidable (RxSafe s op) := by
  unfold RxSafe
  split <;> infer_instance

def blocking : ReadChoice :=
  { nonBlocking := false, connected := true, validate := .success, expired := false
    requeue := .success }

/-- The next two steps of call `i`, on such a socket: a read is taken off the queue, and served. -/
def serve (i : Nat) : List RxOp := [.step i blocking, .step i blocking]

/-- The ranges that were copied, what is left of the blocks and which of the delivered bytes were
reported. -/
def boundsView (s : RxRun) : List RxAccess × List (Nat × Nat × Nat) × List (List Bool) :=
  (s.sock.accesses,
    s.sock.rxCbList.map fun cb => (cb.readPtr, cb.bytesToRead.toNat, cb.size),
    s.completed.map fun e => e.1.out.map Option.isSome)

/-- A packet of three bytes, one of two bytes that is merged into its buffer, and a read of four
bytes. -/
theorem rx_in_bounds_merged :
    ∃ s : RxRun, s.sock.accesses = [⟨0, 2, 4096⟩, ⟨3, 2, 4096⟩, ⟨0, 4, 4096⟩] ∧
      (∀ a ∈ s.sock.accesses, a.start + a.len ≤ a.size) ∧
      (∀ cb ∈ s.sock.rxCbList, cb.request = none →
        cb.size = rxBufSize ∧ cb.readPtr + cb.bytesToRead.toNat ≤ rxBufSize ∧
        ∀ b ∈ cb.mem.read cb.readPtr cb.bytesToRead.toNat, b.isSome = true) ∧
      (∀ e ∈ s.completed, ∀ b ∈ e.1.out, b.isSome = true) := by
  have replay : ∃ s ∈ attempt rxStep RxSafe (rxStart 262144)
      ([.packet 47 3 fun _ => 1, .packet 46 2 fun _ => 2, .read 4 false false] ++ serve 1),
      s.sock.accesses = [⟨0, 2, 4096⟩, ⟨3, 2, 4096⟩, ⟨0, 4, 4096⟩] := by
    decide +kernel
  obtain ⟨s, reach, accesses⟩ := reachable_of_replay _ replay
  exact ⟨s, accesses, rx_in_bounds reach⟩

def Shows (ops : List RxOp) (view : List RxAccess × List (Nat × Nat × Nat) × List (List Bool)) :
    Prop :=
  ∃ s, Reachable (· = rxStart 262144) (Next rxStep fun _ _ => True) s ∧
    attempt rxStep (fun _ _ => True) (rxStart 262144) ops = some s ∧ boundsView s = view

theorem shows_of_replay {ops : List RxOp}
    {view : List RxAccess × List (Nat × Nat × Nat) × List (List Bool)}
    (replay : (attempt rxStep (fun _ _ => True) (rxStart 262144) ops).map boundsView =
      some view) : Shows ops view := by
  obtain ⟨s, ran, shape⟩ := Option.map_eq_some_iff.mp replay
  exact ⟨s, reachable_of_attempt ops (.start rfl) ran, ran, shape⟩

/-- A header that announces 5000 bytes, without payload, is stored: what is left of the buffer
ends behind it.  One that announces two bytes makes a read deliver two bytes that were not
reported.  And a packet is merged into the ten bytes of a loopback write, behind their end. -/
theorem rx_out_of_bounds : Shows [.packet 44 5000 fun _ => 1] ([], [(0, 5000, 4096)], []) ∧
    Shows ([.packet 44 2 fun _ => 1, .read 2 false false] ++ serve 1)
      ([⟨0, 2, 4096⟩], [], [[false, false]]) ∧
    Shows [.write 10 (fun _ => 1) true, .packet 46 2 fun _ => 2]
      ([⟨0, 2, 4096⟩, ⟨10, 2, 10⟩], [(0, 12, 10)], []) := by
  refine ⟨?_, ?_, ?_⟩
  all_goals exact shows_of_replay (by decide +kernel)

end Fixed

end KvmGuestDrivers.VioSock

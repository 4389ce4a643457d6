/-
# VioGpu.CtrlQueue -- the staging list in front of the GPU's control queue

`CtrlQueue::QueueBuffer` puts a command on a staging list and calls `Flush`, which moves
commands from the head of the list to the virtqueue for as long as that has descriptors.
Only one caller of `Flush` works at a time: the others find the flag
`m_CtrlQueueFlushInProgress` taken and return at once.  When the device has returned
commands, the interrupt routine takes them off the virtqueue and queues a DPC, whose
routine calls `Flush` again.

Any number of threads run these routines at once.  A thread is at one of the program
points below; a step of a thread is one interlocked operation on the shared state, one
list operation under the list's spin lock, or one call into the virtqueue, which runs
synchronised with the interrupt.  The virtqueue is the abstract one of
`VirtIO.QueueSpec`, which both ring layouts refine.

`accepted` and `submitted` record the commands in the order in which they were put on the
staging list and reached the virtqueue.
-/
import KvmGuestDrivers.VirtIO.QueueSpec

namespace KvmGuestDrivers.VioGpu

set_option autoImplicit false

open Theory VirtIO

/-! ## Commands -/

def sglistSize : Nat := 256

/-- The part of `GPU_VBUFFER` the control queue reads: the addresses and sizes of command,
data and response.  A buffer has at least one byte; in the driver, the command header. -/
structure GpuVbuffer where
  buf : Nat
  size : Nat
  dataBuf : Nat
  dataSize : Nat
  respBuf : Nat
  respSize : Nat
  nonempty : 0 < size + dataSize + respSize
  deriving DecidableEq

def headerOnly (addr : Nat) : GpuVbuffer := ⟨addr, 24, 0, 0, addr + 0x800, 24, by decide⟩

def bytesToPages (size : Nat) : Nat := size / pageSize + if size % pageSize ≠ 0 then 1 else 0

theorem bytesToPages_eq (size : Nat) : bytesToPages size = (size + 4095) / 4096 := by
  unfold bytesToPages
  split
  · rename_i part
    simp only [pageSize] at part ⊢
    omega
  · rename_i whole
    simp only [pageSize] at whole ⊢
    omega

def GpuVbuffer.sgCount (b : GpuVbuffer) : Nat :=
  (if b.size ≠ 0 then 1 else 0) + bytesToPages b.dataSize + if b.respSize ≠ 0 then 1 else 0

def validateCtrlQueueBuffer (b : GpuVbuffer) : Bool :=
  if pageSize < b.size then false
  else if pageSize < b.respSize then false
  else if sglistSize < b.sgCount then false
  else true

variable {b : GpuVbuffer} {size addr : Nat}

theorem sgCount_le_of_valid (valid : validateCtrlQueueBuffer b = true) :
    b.sgCount ≤ sglistSize := by
  unfold validateCtrlQueueBuffer at valid
  split at valid
  · cases valid
  split at valid
  · cases valid
  split at valid
  · cases valid
  · rename_i short
    exact Nat.not_lt.mp short

theorem validate_of_le (command : b.size ≤ pageSize) (response : b.respSize ≤ pageSize)
    (data : bytesToPages b.dataSize ≤ 254) : validateCtrlQueueBuffer b = true := by
  have count : b.sgCount ≤ sglistSize := by
    rw [GpuVbuffer.sgCount, sglistSize]
    split <;> split <;> omega
  unfold validateCtrlQueueBuffer
  rw [if_neg (Nat.not_lt.mpr command), if_neg (Nat.not_lt.mpr response),
    if_neg (Nat.not_lt.mpr count)]

theorem GpuVbuffer.sgCount_pos (b : GpuVbuffer) : 0 < b.sgCount := by
  have some := b.nonempty
  rw [sgCount, bytesToPages_eq]
  split <;> split <;> omega

section Submit

-- `MmGetPhysicalAddress`; `none` where `MmIsAddressValid` fails.
variable (phys : Nat → Option Nat)

def buildSGElement (addr size : Nat) : Option Scatterlist :=
  if size ≠ 0 then (phys addr).map fun pa => ⟨pa, min size pageSize⟩ else none

/-- The element of the command or of the response, where there is one. -/
def buildElement (addr size : Nat) : Option (List Scatterlist) :=
  if size = 0 then some [] else (buildSGElement phys addr size).map fun e => [e]

/-- The loop over the data, with `sgleft` elements left. -/
def buildDataElements : (sgleft addr size : Nat) → Option (List Scatterlist)
  | 0, _, size => if size = 0 then some [] else none
  | sgleft + 1, addr, size =>
    if size = 0 then some []
    else
      match buildSGElement phys addr size with
      | none => none
      | some e =>
        (buildDataElements sgleft (addr + e.length) (size - e.length)).map (e :: ·)

/-- `BuildCtrlQueueSGList`: what the device reads, and what it writes. -/
def buildCtrlQueueSGList (b : GpuVbuffer) : Option (List Scatterlist × List Scatterlist) :=
  if !validateCtrlQueueBuffer b then none
  else do
    let command ← buildElement phys b.buf b.size
    let data ← buildDataElements phys (sglistSize - command.length) b.dataBuf b.dataSize
    if b.respSize ≠ 0 ∧ sglistSize - command.length - data.length = 0 then none
    else
      let response ← buildElement phys b.respBuf b.respSize
      some (command ++ data, response)

variable {phys}

theorem length_buildSGElement {e : Scatterlist} (built : buildSGElement phys addr size = some e) :
    e.length = min size pageSize := by
  unfold buildSGElement at built
  split at built
  · obtain ⟨pa, -, rfl⟩ := Option.map_eq_some_iff.mp built
    rfl
  · cases built

theorem length_buildElement {l : List Scatterlist} (built : buildElement phys addr size = some l) :
    l.length = if size = 0 then 0 else 1 := by
  unfold buildElement at built
  split at built
  · rename_i none
    cases built
    rw [if_pos none, List.length_nil]
  · rename_i some
    obtain ⟨e, -, rfl⟩ := Option.map_eq_some_iff.mp built
    rw [if_neg some, List.length_singleton]

theorem bytesToPages_sub (some : size ≠ 0) :
    bytesToPages size = bytesToPages (size - min size pageSize) + 1 := by
  rw [bytesToPages_eq, bytesToPages_eq, pageSize]
  omega

theorem length_buildDataElements {sgleft : Nat} {data : List Scatterlist}
    (built : buildDataElements phys sgleft addr size = some data) :
    data.length = bytesToPages size ∧ data.length ≤ sgleft := by
  induction sgleft generalizing addr size data with
  | zero =>
    unfold buildDataElements at built
    split at built
    · rename_i done
      cases built
      rw [done]
      exact ⟨rfl, le_rfl⟩
    · cases built
  | succ _ ih =>
    unfold buildDataElements at built
    split at built
    · rename_i done
      cases built
      rw [done]
      exact ⟨rfl, Nat.zero_le _⟩
    · rename_i more
      split at built
      · cases built
      rename_i e first
      obtain ⟨_, later, rfl⟩ := Option.map_eq_some_iff.mp built
      obtain ⟨pages, _⟩ := ih later
      rw [length_buildSGElement first] at pages
      rw [List.length_cons, pages, ← bytesToPages_sub more]
      exact ⟨rfl, by rw [bytesToPages_sub more]; omega⟩

/-- A list that is built has as many elements as the check has counted. -/
theorem length_buildCtrlQueueSGList {out inn : List Scatterlist}
    (built : buildCtrlQueueSGList phys b = some (out, inn)) :
    out.length + inn.length = b.sgCount ∧ b.sgCount ≤ sglistSize := by
  unfold buildCtrlQueueSGList at built
  split at built
  · cases built
  rename_i valid
  obtain ⟨_, first, built⟩ := Option.bind_eq_some_iff.mp built
  obtain ⟨_, second, built⟩ := Option.bind_eq_some_iff.mp built
  split at built
  · cases built
  obtain ⟨_, third, same⟩ := Option.bind_eq_some_iff.mp built
  cases same
  constructor
  · rw [List.length_append, length_buildElement first, (length_buildDataElements second).1,
      length_buildElement third]
    simp [GpuVbuffer.sgCount]
  · exact sgCount_le_of_valid (by simpa using valid)

variable (phys)

def ctrlRequest (b : GpuVbuffer) (out inn : List Scatterlist)
    (count : out.length + inn.length = b.sgCount ∧ b.sgCount ≤ sglistSize) :
    BufferRequest GpuVbuffer where
  sg := fun i => (out ++ inn).getD i ⟨0, 0⟩
  outNum := out.length
  inNum := inn.length
  data := some b
  indirect := none
  total_pos := by
    have some := b.sgCount_pos
    rw [sglistSize] at count
    omega

theorem ctrlRequest_cost {out inn : List Scatterlist}
    (count : out.length + inn.length = b.sgCount ∧ b.sgCount ≤ sglistSize) :
    (ctrlRequest b out inn count).cost = b.sgCount := by
  have total : (ctrlRequest b out inn count).cost = (out.length + inn.length) % 2 ^ 32 := rfl
  rw [sglistSize] at count
  omega

/-- What `SubmitBuffer` returns: zero, `-ENOSPC`, or anything else. -/
inductive SubmitResult where
  | submitted (vq : AbstractQueue GpuVbuffer)
  | noSpace
  | failed

/-- `SubmitBuffer`; `AddBuf` gets the buffer as its token and no indirect area. -/
def submitBuffer (vq : AbstractQueue GpuVbuffer) (b : GpuVbuffer) : SubmitResult :=
  match built : buildCtrlQueueSGList phys b with
  | none => .failed
  | some (out, inn) =>
    match vq.step (.add (ctrlRequest b out inn (length_buildCtrlQueueSGList built))) with
    | (vq, .added true) => .submitted vq
    | _ => .noSpace

variable {phys}

/-- A submitted command is one `add` of the virtqueue, with the command as its token. -/
theorem exists_request_of_submitted {vq vq' : AbstractQueue GpuVbuffer}
    (done : submitBuffer phys vq b = .submitted vq') :
    ∃ r : BufferRequest GpuVbuffer, r.data = some b ∧ vq.step (.add r) = (vq', .added true) := by
  unfold submitBuffer at done
  split at done
  · cases done
  split at done
  · rename_i added
    cases done
    exact ⟨_, rfl, added⟩
  · cases done

/-- The ring refuses a command only for want of descriptors. -/
theorem free_lt_of_noSpace {vq : AbstractQueue GpuVbuffer}
    (full : submitBuffer phys vq b = .noSpace) : vq.free < b.sgCount := by
  unfold submitBuffer at full
  split at full
  · cases full
  rename_i built
  split at full
  · cases full
  rename_i refused
  rw [← ctrlRequest_cost (length_buildCtrlQueueSGList built)]
  by_contra room
  exact refused _ (if_neg room)

end Submit

/-! ## Threads -/

/-- Where a call of `Flush` is.  From `clear` to `release` it holds the flag. -/
inductive FlushPc where
  | enter
  | clear
  | remove
  | submit (b : GpuVbuffer)
  | restage (b : GpuVbuffer)
  | giveUp
  | release
  | recheck
  | reenter
  deriving DecidableEq

/-- Where a thread is: in `QueueBuffer`, in `DequeueBuffer`, in `Flush` (called by the DPC
routine or not), in `InterruptRoutine` or in `DpcRoutine`. -/
inductive Pc where
  | idle
  | queueInsert (b : GpuVbuffer)
  | queueRequest
  | dequeue
  | flush (pc : FlushPc) (dpc : Bool)
  | isrDrain
  | isrPend
  | isrQueueDpc
  | dpcPoll
  deriving DecidableEq

structure CtrlQueue (n : Nat) where
  list : List GpuVbuffer
  flushInProgress : Bool
  flushRequested : Bool
  vq : AbstractQueue GpuVbuffer
  pendingWorks : Bool
  dpcQueued : Bool
  threads : Fin n → Pc
  accepted : List GpuVbuffer
  submitted : List GpuVbuffer

variable {n : Nat} {pc : Pc}

/-- What can happen next.  An idle thread starts a call, a thread makes its next step, or
the device returns the `k`-th command it holds. -/
inductive CtrlOp (n : Nat) where
  | queueBuffer (t : Fin n) (b : GpuVbuffer)
  | dequeueBuffer (t : Fin n)
  | flush (t : Fin n)
  | interrupt (t : Fin n) (display : Bool)
  | dpc (t : Fin n)
  | advance (t : Fin n)
  | complete (k len : Nat)

namespace CtrlQueue

def goto (s : CtrlQueue n) (t : Fin n) (pc : Pc) : CtrlQueue n :=
  { s with threads := Function.update s.threads t pc }

def afterFlush (dpc : Bool) : Pc := if dpc then .dpcPoll else .idle

def flushStep (phys : Nat → Option Nat) (s : CtrlQueue n) (t : Fin n) (dpc : Bool) :
    FlushPc → Except Fault (CtrlQueue n)
  | .enter =>
    if s.flushInProgress then .ok (s.goto t (afterFlush dpc))
    else .ok ({ s with flushInProgress := true }.goto t (.flush .clear dpc))
  | .clear => .ok ({ s with flushRequested := false }.goto t (.flush .remove dpc))
  | .remove =>
    match s.list with
    | [] => .ok (s.goto t (.flush .release dpc))
    | b :: rest => .ok ({ s with list := rest }.goto t (.flush (.submit b) dpc))
  | .submit b =>
    match submitBuffer phys s.vq b with
    | .submitted vq =>
      .ok ({ s with vq, submitted := s.submitted ++ [b] }.goto t (.flush .remove dpc))
    | .noSpace => .ok (s.goto t (.flush (.restage b) dpc))
    | .failed => .error .bugCheck
  | .restage b => .ok ({ s with list := b :: s.list }.goto t (.flush .giveUp dpc))
  | .giveUp => .ok ({ s with flushInProgress := false }.goto t (afterFlush dpc))
  | .release => .ok ({ s with flushInProgress := false }.goto t (.flush .recheck dpc))
  | .recheck =>
    if s.flushRequested then .ok (s.goto t (.flush .reenter dpc))
    else .ok (s.goto t (afterFlush dpc))
  | .reenter =>
    if s.flushInProgress then .ok (s.goto t (afterFlush dpc))
    else .ok ({ s with flushInProgress := true }.goto t (.flush .clear dpc))

def advance (phys : Nat → Option Nat) (s : CtrlQueue n) (t : Fin n) :
    Except Fault (CtrlQueue n) :=
  match s.threads t with
  | .idle => .ok s
  | .queueInsert b =>
    .ok ({ s with list := s.list ++ [b], accepted := s.accepted ++ [b] }.goto t .queueRequest)
  | .queueRequest => .ok ({ s with flushRequested := true }.goto t (.flush .enter false))
  | .dequeue => .ok ({ s with vq := (s.vq.step .get).1 }.goto t (.flush .enter false))
  | .flush pc dpc => s.flushStep phys t dpc pc
  | .isrDrain =>
    match s.vq.step .get with
    | (vq, .got (some _)) => .ok { s with vq }
    | _ => .ok (s.goto t .isrPend)
  | .isrPend => .ok ({ s with pendingWorks := true }.goto t .isrQueueDpc)
  | .isrQueueDpc => .ok ({ s with dpcQueued := true }.goto t .idle)
  | .dpcPoll =>
    if s.pendingWorks then
      .ok ({ s with pendingWorks := false }.goto t (.flush .enter true))
    else .ok (s.goto t .idle)

def begin (s : CtrlQueue n) (t : Fin n) (pc : Pc) : CtrlQueue n :=
  if s.threads t = .idle then s.goto t pc else s

end CtrlQueue

def ctrlStep (phys : Nat → Option Nat) (s : CtrlQueue n) :
    CtrlOp n → Except Fault (CtrlQueue n × Unit)
  | .queueBuffer t b =>
    -- A buffer that is not valid is refused and stays with the caller.
    .ok (if validateCtrlQueueBuffer b then s.begin t (.queueInsert b) else s, ())
  | .flush t => .ok (s.begin t (.flush .enter false), ())
  | .dequeueBuffer t => .ok (s.begin t .dequeue, ())
  -- Only an interrupt for the display queue takes commands off it.
  | .interrupt t display => .ok (s.begin t (if display then .isrDrain else .isrPend), ())
  | .dpc t =>
    .ok (if s.dpcQueued ∧ s.threads t = .idle then
      { s with dpcQueued := false }.goto t .dpcPoll else s, ())
  | .advance t =>
    match s.advance phys t with
    | .error e => .error e
    | .ok s => .ok (s, ())
  | .complete k len => .ok ({ s with vq := (s.vq.step (.complete k len)).1 }, ())

/-- Nothing staged, all threads idle, a virtqueue of `num` descriptors. -/
def ctrlStart (n num : Nat) : CtrlQueue n :=
  ⟨[], false, false, .empty GpuVbuffer num, false, false, fun _ => .idle, [], []⟩

/-! ## What one step can do -/

/-- Points at which a thread starts that brings no buffer and is not the DPC routine. -/
def Pc.fresh : Pc → Bool
  | .dequeue | .flush .enter false | .isrDrain | .isrPend => true
  | _ => false

theorem Pc.cases_of_fresh (fresh : pc.fresh = true) :
    pc = .dequeue ∨ pc = .flush .enter false ∨ pc = .isrDrain ∨ pc = .isrPend := by
  unfold Pc.fresh at fresh
  split at fresh <;> simp_all

/-- Points at which `Flush` tries to take the flag. -/
def FlushPc.tries : FlushPc → Bool
  | .enter | .reenter => true
  | _ => false

open CtrlQueue in
/-- The moves of the system, each with what the step found. -/
inductive CtrlMove (phys : Nat → Option Nat) (s : CtrlQueue n) :
    CtrlOp n → CtrlQueue n → Prop where
  | keep (op : CtrlOp n) : CtrlMove phys s op s
  | queueBuffer (t : Fin n) (b : GpuVbuffer) (idle : s.threads t = .idle) :
      CtrlMove phys s (.queueBuffer t b) (s.goto t (.queueInsert b))
  | start (op : CtrlOp n) (t : Fin n) (pc : Pc) (idle : s.threads t = .idle)
      (fresh : pc.fresh = true) : CtrlMove phys s op (s.goto t pc)
  | startDpc (t : Fin n) (idle : s.threads t = .idle) :
      CtrlMove phys s (.dpc t) ({ s with dpcQueued := false }.goto t .dpcPoll)
  | complete (k len : Nat) :
      CtrlMove phys s (.complete k len) { s with vq := (s.vq.step (.complete k len)).1 }
  | insert (t : Fin n) (b : GpuVbuffer) (here : s.threads t = .queueInsert b) :
      CtrlMove phys s (.advance t)
        ({ s with list := s.list ++ [b], accepted := s.accepted ++ [b] }.goto t .queueRequest)
  | request (t : Fin n) (here : s.threads t = .queueRequest) :
      CtrlMove phys s (.advance t) ({ s with flushRequested := true }.goto t (.flush .enter false))
  | dequeue (t : Fin n) (here : s.threads t = .dequeue) :
      CtrlMove phys s (.advance t)
        ({ s with vq := (s.vq.step .get).1 }.goto t (.flush .enter false))
  | lose (t : Fin n) (dpc : Bool) (pc : FlushPc) (here : s.threads t = .flush pc dpc)
      (tries : pc.tries = true) (taken : s.flushInProgress = true) :
      CtrlMove phys s (.advance t) (s.goto t (afterFlush dpc))
  | acquire (t : Fin n) (dpc : Bool) (pc : FlushPc) (here : s.threads t = .flush pc dpc)
      (tries : pc.tries = true) (free : s.flushInProgress = false) :
      CtrlMove phys s (.advance t) ({ s with flushInProgress := true }.goto t (.flush .clear dpc))
  | clear (t : Fin n) (dpc : Bool) (here : s.threads t = .flush .clear dpc) :
      CtrlMove phys s (.advance t) ({ s with flushRequested := false }.goto t (.flush .remove dpc))
  | removeNone (t : Fin n) (dpc : Bool) (here : s.threads t = .flush .remove dpc)
      (empty : s.list = []) : CtrlMove phys s (.advance t) (s.goto t (.flush .release dpc))
  | removeHead (t : Fin n) (dpc : Bool) (b : GpuVbuffer) (rest : List GpuVbuffer)
      (here : s.threads t = .flush .remove dpc) (head : s.list = b :: rest) :
      CtrlMove phys s (.advance t) ({ s with list := rest }.goto t (.flush (.submit b) dpc))
  | submit (t : Fin n) (dpc : Bool) (b : GpuVbuffer) (vq : AbstractQueue GpuVbuffer)
      (here : s.threads t = .flush (.submit b) dpc)
      (done : submitBuffer phys s.vq b = .submitted vq) :
      CtrlMove phys s (.advance t)
        ({ s with vq, submitted := s.submitted ++ [b] }.goto t (.flush .remove dpc))
  | noSpace (t : Fin n) (dpc : Bool) (b : GpuVbuffer)
      (here : s.threads t = .flush (.submit b) dpc)
      (full : submitBuffer phys s.vq b = .noSpace) :
      CtrlMove phys s (.advance t) (s.goto t (.flush (.restage b) dpc))
  | restage (t : Fin n) (dpc : Bool) (b : GpuVbuffer)
      (here : s.threads t = .flush (.restage b) dpc) :
      CtrlMove phys s (.advance t) ({ s with list := b :: s.list }.goto t (.flush .giveUp dpc))
  | giveUp (t : Fin n) (dpc : Bool) (here : s.threads t = .flush .giveUp dpc) :
      CtrlMove phys s (.advance t) ({ s with flushInProgress := false }.goto t (afterFlush dpc))
  | release (t : Fin n) (dpc : Bool) (here : s.threads t = .flush .release dpc) :
      CtrlMove phys s (.advance t)
        ({ s with flushInProgress := false }.goto t (.flush .recheck dpc))
  | again (t : Fin n) (dpc : Bool) (here : s.threads t = .flush .recheck dpc)
      (requested : s.flushRequested = true) :
      CtrlMove phys s (.advance t) (s.goto t (.flush .reenter dpc))
  | leave (t : Fin n) (dpc : Bool) (here : s.threads t = .flush .recheck dpc)
      (requested : s.flushRequested = false) :
      CtrlMove phys s (.advance t) (s.goto t (afterFlush dpc))
  | drain (t : Fin n) (here : s.threads t = .isrDrain) :
      CtrlMove phys s (.advance t) { s with vq := (s.vq.step .get).1 }
  | drained (t : Fin n) (here : s.threads t = .isrDrain) :
      CtrlMove phys s (.advance t) (s.goto t .isrPend)
  | pend (t : Fin n) (here : s.threads t = .isrPend) :
      CtrlMove phys s (.advance t) ({ s with pendingWorks := true }.goto t .isrQueueDpc)
  | queueDpc (t : Fin n) (here : s.threads t = .isrQueueDpc) :
      CtrlMove phys s (.advance t) ({ s with dpcQueued := true }.goto t .idle)
  | poll (t : Fin n) (here : s.threads t = .dpcPoll) :
      CtrlMove phys s (.advance t) ({ s with pendingWorks := false }.goto t (.flush .enter true))
  | polled (t : Fin n) (here : s.threads t = .dpcPoll) (none : s.pendingWorks = false) :
      CtrlMove phys s (.advance t) (s.goto t .idle)

variable {phys : Nat → Option Nat} {s s' : CtrlQueue n} {t : Fin n}

theorem move_begin (op : CtrlOp n) (t : Fin n) (fresh : pc.fresh = true) :
    CtrlMove phys s op (s.begin t pc) := by
  unfold CtrlQueue.begin
  split
  · rename_i idle
    exact .start op t pc idle fresh
  · exact .keep op

/-- Every step of `Flush` is a move. -/
theorem move_flush {dpc : Bool} {pc : FlushPc} (here : s.threads t = .flush pc dpc)
    (stepped : s.flushStep phys t dpc pc = .ok s') : CtrlMove phys s (.advance t) s' := by
  cases pc with
  | enter | reenter =>
    rw [CtrlQueue.flushStep] at stepped
    split at stepped
    · rename_i taken
      cases stepped
      exact .lose t dpc _ here rfl taken
    · rename_i taken
      cases stepped
      exact .acquire t dpc _ here rfl (Bool.eq_false_iff.mpr taken)
  | clear => cases stepped; exact .clear t dpc here
  | remove =>
    rw [CtrlQueue.flushStep] at stepped
    split at stepped
    · rename_i empty
      cases stepped
      exact .removeNone t dpc here empty
    · rename_i b rest head
      cases stepped
      exact .removeHead t dpc b rest here head
  | submit b =>
    rw [CtrlQueue.flushStep] at stepped
    split at stepped
    · rename_i vq done
      cases stepped
      exact .submit t dpc b vq here done
    · rename_i full
      cases stepped
      exact .noSpace t dpc b here full
    · cases stepped
  | restage b => cases stepped; exact .restage t dpc b here
  | giveUp => cases stepped; exact .giveUp t dpc here
  | release => cases stepped; exact .release t dpc here
  | recheck =>
    rw [CtrlQueue.flushStep] at stepped
    split at stepped
    · rename_i requested
      cases stepped
      exact .again t dpc here requested
    · rename_i requested
      cases stepped
      exact .leave t dpc here (Bool.eq_false_iff.mpr requested)

theorem move_advance (stepped : s.advance phys t = .ok s') : CtrlMove phys s (.advance t) s' := by
  unfold CtrlQueue.advance at stepped
  cases here : s.threads t with
  | idle => simp only [here] at stepped; cases stepped; exact .keep _
  | queueInsert b => simp only [here] at stepped; cases stepped; exact .insert t b here
  | queueRequest => simp only [here] at stepped; cases stepped; exact .request t here
  | dequeue => simp only [here] at stepped; cases stepped; exact .dequeue t here
  | flush => simp only [here] at stepped; exact move_flush here stepped
  | isrDrain =>
    simp only [here] at stepped
    split at stepped
    · rename_i vq _ got
      cases stepped
      have same : vq = (s.vq.step .get).1 := by rw [got]
      rw [same]
      exact .drain t here
    · cases stepped
      exact .drained t here
  | isrPend => simp only [here] at stepped; cases stepped; exact .pend t here
  | isrQueueDpc => simp only [here] at stepped; cases stepped; exact .queueDpc t here
  | dpcPoll =>
    simp only [here] at stepped
    split at stepped
    · cases stepped
      exact .poll t here
    · rename_i none
      cases stepped
      exact .polled t here (Bool.eq_false_iff.mpr none)

/-- Every step of the machine is a move. -/
theorem move_of_step {op : CtrlOp n} {out : Unit} (stepped : ctrlStep phys s op = .ok (s', out)) :
    CtrlMove phys s op s' := by
  cases op with
  | queueBuffer t b =>
    cases stepped
    split
    · unfold CtrlQueue.begin
      split
      · rename_i idle
        exact .queueBuffer t b idle
      · exact .keep _
    · exact .keep _
  | dequeueBuffer t | flush t => cases stepped; exact move_begin _ t rfl
  | interrupt t display =>
    cases stepped
    cases display <;> exact move_begin _ t rfl
  | dpc t =>
    cases stepped
    split
    · rename_i may
      exact .startDpc t may.2
    · exact .keep _
  | advance =>
    rw [ctrlStep] at stepped
    split at stepped
    · cases stepped
    · rename_i next
      cases stepped
      exact move_advance next
  | complete k len => cases stepped; exact .complete k len

end KvmGuestDrivers.VioGpu

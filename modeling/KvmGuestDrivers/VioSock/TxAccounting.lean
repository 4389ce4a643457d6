/-
# VioSock.TxAccounting -- the counters of the transmit path

`TxEnqueued` counts the entries of `TxList`, `TxQueuedReply` those that are replies, and
`TxPktAllocated` the slices of the packet pool that are in use.  Each of them is changed by
hand wherever the list or the pool is.

`Counts` ties the counters to the list and to the packets, those included that a call has in its
hands.  Every step keeps it (`Counts.advance`, `Counts.step`) except for four:
`VIOSockSendResetNoSock` queues an entry that is not counted; the cancel routine and
`VIOSockTxCleanup` remove entries that stay counted; `VIOSockTxDequeue` forgets the packet of a
request that is being cancelled.
-/
import KvmGuestDrivers.VioSock.TxQueue

namespace KvmGuestDrivers.VioSock

set_option autoImplicit false

open Theory List

/-! ## The invariant -/

def TxPoint.packets : TxPoint → List TxPkt
  | .freeing pkts => pkts
  | .checking pkt | .mapping pkt | .dropping pkt => [pkt]
  | _ => []

def TxPoint.held (p : TxPoint) : Nat := p.packets.length

/-- The counters are those of the list and of the packets, `held` of which are in the hands of
calls. -/
structure Counts (txPktNum : Nat) (d : TxDevice) (held : Nat) : Prop where
  enqueued : d.txEnqueued = long d.txList.length
  replies : d.txQueuedReply = long (d.txList.countP TxEntry.reply)
  allocated : d.txPktAllocated = long (d.vq.length + d.transactions.length + held : Nat)
  slices : d.slices + (d.vq.length + d.transactions.length + held) = txPktNum

section Device

variable {txPktNum held : Nat} {d d' : TxDevice} {e : TxEntry} {rest : List TxEntry}

namespace Counts

theorem free (counts : Counts txPktNum d (held + 1)) : Counts txPktNum (txPktFree d) held where
  __ := counts
  allocated := by
    show long (d.txPktAllocated - 1) = _
    rw [counts.allocated, long_sub]
    congr 1
    show _ = ((d.vq.length + d.transactions.length + held : Nat) : Int)
    omega
  slices := by
    have slices := counts.slices
    show d.slices + 1 + (d.vq.length + d.transactions.length + held) = txPktNum
    omega

theorem freeAll (pkts : List TxPkt) (counts : Counts txPktNum d (pkts.length + held)) :
    Counts txPktNum (txPktFreeAll d pkts) held := by
  induction pkts generalizing d with
  | nil => simpa [txPktFreeAll] using counts
  | cons _ _ ih =>
    apply ih
    apply Counts.free
    simpa [Nat.add_right_comm] using counts

theorem regroup (counts : Counts txPktNum d held) {held' : Nat} (list : d'.txList = d.txList)
    (enqueued : d'.txEnqueued = d.txEnqueued) (replies : d'.txQueuedReply = d.txQueuedReply)
    (allocated : d'.txPktAllocated = d.txPktAllocated) (slices : d'.slices = d.slices)
    (packets : d'.vq.length + d'.transactions.length + held' =
      d.vq.length + d.transactions.length + held) : Counts txPktNum d' held' := by
  refine ⟨?_, ?_, ?_, ?_⟩
  · rw [enqueued, list]
    exact counts.enqueued
  · rw [replies, list]
    exact counts.replies
  · rw [allocated, packets]
    exact counts.allocated
  · rw [slices, packets]
    exact counts.slices

theorem insert (counts : Counts txPktNum d (held + 1)) (pkt : TxPkt) :
    Counts txPktNum (txPktInsert d pkt) held := by
  refine counts.regroup rfl rfl rfl rfl rfl ?_
  simp only [txPktInsert, length_append, length_singleton]
  omega

section

variable (counts : Counts txPktNum d held)

include counts

theorem enqueue (body : TxBody) :
    Counts txPktNum (txEnqueue d body (TxEntry.reply ⟨d.nextId, body⟩)) held where
  __ := counts
  enqueued := by simp [txEnqueue, appendEntry, counts.enqueued, long_add]
  replies := by
    simp only [txEnqueue, appendEntry, countP_append, countP_singleton]
    cases TxEntry.reply ⟨d.nextId, body⟩ with
    | false => exact counts.replies
    | true => simp [counts.replies, long_add]

theorem sliced (list : d.txList = e :: rest) (free : d.slices ≠ 0) : Counts txPktNum
      { sliced d rest with
          txQueuedReply := if e.reply then long (d.txQueuedReply - 1) else d.txQueuedReply }
      (held + 1) where
  enqueued := by simp [VioSock.sliced, removeHead, counts.enqueued, list, long_sub]
  replies := by
    have replies := counts.replies
    rw [list] at replies
    cases reply : e.reply with
    | false => simpa [VioSock.sliced, removeHead, reply] using replies
    | true => simp [VioSock.sliced, removeHead, reply, replies, long_sub]
  allocated := by
    simp only [VioSock.sliced, removeHead, counts.allocated, long_add]
    rfl
  slices := by
    have slices := counts.slices
    simp only [VioSock.sliced, removeHead]
    omega

theorem putBack (list : d.txList = e :: rest) (free : d.slices ≠ 0) (pkt : TxPkt) :
    Counts txPktNum (sendControl (VioSock.sliced d rest) e rest pkt false).1 held := by
  have slices := counts.slices
  simp only [sendControl, Bool.false_eq_true, if_false, leaveLoop, txPktFree, VioSock.sliced,
    removeHead]
  refine ⟨?_, ?_, ?_, ?_⟩
  · simp [counts.enqueued, list, long_add, long_sub]
  · simpa [list] using counts.replies
  · simp [counts.allocated, long_add, long_sub]
  · dsimp only
    omega

/-- The packets that the device has used are freed or in the hands of the call. -/
theorem drain (used : Nat → Bool) :
    Counts txPktNum (drainUsed d used).1 (held + (drainUsed d used).2.held) := by
  have back := length_eq_length_filter_add (l := d.vq) fun pkt : TxPkt => used pkt.id
  have kinds := length_eq_length_filter_add
    (l := d.vq.filter fun pkt : TxPkt => used pkt.id) fun pkt => pkt.transaction
  apply Counts.freeAll
  refine counts.regroup rfl rfl rfl rfl rfl ?_
  simp only [drainUsed, TxPoint.held, TxPoint.packets]
  omega

theorem queue (marked : Bool) (body : TxBody) (counted : ∀ timeout, body ≠ .reset timeout) :
    Counts txPktNum (queueEntry d marked body).1 held := by
  cases body with
  | write socket len timeout =>
    cases marked with
    | false => exact counts.regroup rfl rfl rfl rfl rfl rfl
    | true => exact counts.enqueue (.write socket len timeout false)
  | control socket reply => exact counts.enqueue (.control socket reply)
  | reset timeout => exact absurd rfl (counted timeout)

end

end Counts

/-- What a step of a call must not do: queue a reset, or forget a packet. -/
def PointRegular (d : TxDevice) : TxPoint → Prop
  | .queueing (.reset _) => d.locked = true
  | .looping => ∀ e ∈ d.txList.head?, e.cancelled = false ∨ d.slices = 0
  | _ => True

/-- **One step of a call** keeps the counters right. -/
theorem Counts.advance {p q : TxPoint} {ok : Bool} (counts : Counts txPktNum d (held + p.held))
    (move : TxMove d ok p d' q) (regular : PointRegular d p) :
    Counts txPktNum d' (held + q.held) := by
  cases move with
  | take _ _ next => obtain rfl | ⟨_, rfl⟩ := next <;> exact counts.regroup rfl rfl rfl rfl rfl rfl
  | append body _ free _ eq =>
    have queued := Counts.queue counts ok body ?_
    · rwa [eq] at queued
    · rintro _ rfl
      exact absurd (free.symm.trans regular) Bool.false_ne_true
  | drain used eq =>
    have drained := Counts.drain counts used
    rwa [eq] at drained
  | free pkts eq =>
    rw [← eq]
    exact Counts.freeAll pkts (add_comm held _ ▸ counts)
  | leave => exact counts.regroup rfl rfl rfl rfl rfl rfl
  | forget e _ list free _ cancelled =>
    have live := (regular e (by rw [list]; rfl)).resolve_right free
    exact absurd (live.symm.trans cancelled) Bool.false_ne_true
  | request e _ list free write =>
    have quiet : e.reply = false := by
      obtain ⟨id, body⟩ := e
      cases body <;> first | rfl | cases write
    have sliced := Counts.sliced counts list free
    rw [quiet] at sliced
    exact sliced.regroup rfl rfl rfl rfl rfl rfl
  | send e _ list free => exact (Counts.sliced counts list free).insert e.pkt
  | putBack e _ list free => exact Counts.putBack counts list free e.pkt
  | map =>
    refine counts.regroup rfl rfl rfl rfl rfl ?_
    simp [TxPoint.held, TxPoint.packets]
    omega
  | dropped => exact (Counts.free counts).regroup rfl rfl rfl rfl rfl rfl
  | _ => exact counts.regroup rfl rfl rfl rfl rfl rfl

/-! ## The calls with one critical section -/

section

variable (counts : Counts txPktNum d held) (i : Nat)

include counts i

theorem Counts.callback (inserted : Bool) :
    Counts txPktNum (txDequeueCallback d i inserted) held := by
  unfold txDequeueCallback
  split
  · exact counts
  rename_i there
  -- the packet is in the hands of the callback
  have taken : Counts txPktNum { d with transactions := d.transactions.eraseIdx i } (held + 1) := by
    have inside : i < d.transactions.length := (List.getElem?_eq_some_iff.mp there).1
    refine counts.regroup rfl rfl rfl rfl rfl ?_
    dsimp only
    rw [length_eraseIdx_of_lt inside]
    omega
  cases inserted with
  | false => exact taken.free
  | true => exact taken.insert _

theorem Counts.cancel : Counts txPktNum (cancelRequest d i) held := by
  unfold cancelRequest
  split
  · rename_i id socket len timeout there
    refine ⟨?_, ?_, counts.allocated, counts.slices⟩
    · simpa using counts.enqueued
    · have same := countP_same there ⟨id, .write socket len timeout true⟩ TxEntry.reply rfl
      simpa [same] using counts.replies
  · exact counts

theorem Counts.cancelRoutine (gone : ∀ c ∈ d.cancels[i]?, ∀ e ∈ d.txList, e.id ≠ c.id) :
    Counts txPktNum (txEnqueueCancel d i) held := by
  unfold txEnqueueCancel
  split
  · exact counts
  rename_i c there
  have list : (d.txList.filter fun e => e.id ≠ c.id) = d.txList := by
    apply filter_eq_self.mpr
    intro e mem
    simp [gone c there e mem]
  exact counts.regroup list rfl rfl rfl rfl rfl

end

theorem reply_passTime (passed : Int) (e : TxEntry) : (passTime passed e).reply = e.reply := by
  obtain ⟨id, body⟩ := e
  cases body <;> rfl

theorem reply_expired {passed : Int} (out : expired passed e = true) : e.reply = false := by
  obtain ⟨id, body⟩ := e
  cases body with
  | write | reset => rfl
  | control => simp [expired, TxEntry.timeout] at out

theorem Counts.timer (counts : Counts txPktNum d held) (passed : Int) :
    Counts txPktNum (txTimerFunc d passed) held := by
  have split := length_eq_length_filter_add (l := d.txList) (expired passed)
  refine ⟨?_, ?_, counts.allocated, counts.slices⟩
  · simp only [txTimerFunc, counts.enqueued, long_sub, length_map, countP_eq_length_filter]
    congr 1
    omega
  · have kept : ((d.txList.filter fun e => !expired passed e).map (passTime passed)).countP
        TxEntry.reply = d.txList.countP TxEntry.reply := by
      rw [countP_map, countP_filter]
      apply countP_congr
      intro e _
      cases out : expired passed e with
      | false => simp [reply_passTime]
      | true => simp [reply_expired out]
    rw [txTimerFunc, kept]
    exact counts.replies

theorem Counts.cleanup (counts : Counts txPktNum d held) (socket : Option Nat)
    (stays : ∀ e ∈ d.txList, cleaned socket e = false) :
    Counts txPktNum (txCleanup d socket) held := by
  have list : (d.txList.filter fun e => !cleaned socket e) = d.txList := by
    apply filter_eq_self.mpr
    intro e mem
    simp [stays e mem]
  have replies : d.txList.countP (fun e => cleaned socket e && e.reply) = 0 := by
    apply countP_eq_zero.mpr
    intro e mem
    simp [stays e mem]
  have unchanged : (txCleanup d socket).txQueuedReply = d.txQueuedReply := by
    simp only [txCleanup, replies]
    split
    · rw [counts.replies]
      exact long_sub _ 0
    · rfl
  exact counts.regroup list rfl unchanged rfl rfl rfl

end Device

/-! ## Runs -/

def heldBy (calls : List TxPoint) : Nat := (calls.map TxPoint.held).sum

/-- The steps that keep the counters: no reset without a socket is queued, no packet of a
cancelled request is forgotten, and neither the cancel routine nor the cleanup of a socket
removes an entry from the list. -/
def AccountingRegular (s : TxRun) : TxOp → Prop
  | .step i _ _ => ∀ p ∈ s.calls[i]?, PointRegular s.dev p
  | .cancelRoutine i => ∀ c ∈ s.dev.cancels[i]?, ∀ e ∈ s.dev.txList, e.id ≠ c.id
  | .cleanup socket => ∀ e ∈ s.dev.txList, cleaned socket e = false
  | _ => True

section Runs

variable {txPktNum : Nat} {s : TxRun} {d : TxDevice}

theorem Counts.call (counts : Counts txPktNum s.dev (heldBy s.calls)) {i : Nat} {p q : TxPoint}
    {ok : Bool} (here : s.calls[i]? = some p) (move : TxMove s.dev ok p d q)
    (regular : PointRegular s.dev p) : Counts txPktNum d (heldBy (s.calls.set i q)) := by
  obtain ⟨rest, total⟩ := Nat.exists_eq_add_of_le' (le_sum_map here TxPoint.held)
  have moved := sum_map_move here q TxPoint.held
  have after : heldBy (s.calls.set i q) = rest + q.held := by
    unfold heldBy
    omega
  rw [after]
  exact Counts.advance (total ▸ counts) move regular

/-- **One operation** keeps the counters right. -/
theorem Counts.step (counts : Counts txPktNum s.dev (heldBy s.calls)) {op : TxOp} {t : TxRun}
    (effect : TxEffect s op t) (regular : AccountingRegular s op) :
    Counts txPktNum t.dev (heldBy t.calls) := by
  cases effect with
  | refused | absent | locked => exact counts
  | start _ _ p starting =>
    have empty : p.held = 0 := by cases p <;> first | rfl | cases starting
    rw [heldBy, startCall, sum_map_start, empty]
    exact counts
  | step i ok _ here _ move => exact counts.call here move (regular _ here)
  | callback i inserted => exact counts.callback i inserted
  | cancel i => exact counts.cancel i
  | cancelRoutine i => exact counts.cancelRoutine i regular
  | timer passed => exact counts.timer passed
  | cleanup socket => exact counts.cleanup socket regular
  | header => exact counts.regroup rfl rfl rfl rfl rfl rfl

theorem heldBy_idle (idle : TxIdle s) : heldBy s.calls = 0 := by
  apply Theory.sum_map_zero
  intro p mem
  rw [idle.1 p mem]
  rfl

/-- The counters say what there is, as `LONG`s and, as long as they can, as numbers; no slice is
lost, and the two tests that read them are about the list and the virtqueue. -/
structure TxExact (txPktNum : Nat) (d : TxDevice) : Prop where
  enqueued : d.txEnqueued = long d.txList.length
  replies : d.txQueuedReply = long (d.txList.countP TxEntry.reply)
  allocated : d.txPktAllocated = long d.vq.length
  pool : d.slices + d.vq.length = txPktNum
  numbers : d.txList.length < 2 ^ 31 → txPktNum < 2 ^ 31 →
    d.txEnqueued = d.txList.length ∧ d.txQueuedReply = d.txList.countP TxEntry.reply ∧
      d.txPktAllocated = d.vq.length
  writable : ∀ nonBlocking, writeIsAvailable txPktNum d nonBlocking = true ↔
    nonBlocking = true → long (d.txList.length + d.vq.length) < long txPktNum
  moreReplies : ∀ rxPktNum : Nat, txMoreReplies rxPktNum d = true ↔
    long (d.txList.countP TxEntry.reply) < long rxPktNum

theorem long_natCast {n : Nat} (small : n < 2 ^ 31) : long n = n := long_eq (by omega) (by omega)

theorem Counts.exactly (counts : Counts txPktNum d 0) (idle : d.transactions = []) :
    TxExact txPktNum d := by
  have allocated : d.txPktAllocated = long d.vq.length := by
    simpa [idle] using counts.allocated
  have pool : d.slices + d.vq.length = txPktNum := by
    simpa [idle] using counts.slices
  refine ⟨counts.enqueued, counts.replies, allocated, pool, ?_, ?_, ?_⟩
  · intro few pooled
    have part := countP_le_length (p := TxEntry.reply) (l := d.txList)
    rw [counts.enqueued, counts.replies, allocated]
    exact ⟨long_natCast few, long_natCast (by omega), long_natCast (by omega)⟩
  · intro nonBlocking
    have total : long (d.txEnqueued + d.txPktAllocated) = long (d.txList.length + d.vq.length) := by
      rw [counts.enqueued, allocated, long_add, Int.add_comm, long_add, Int.add_comm]
    cases nonBlocking <;> simp [writeIsAvailable, total]
  · simp [txMoreReplies, counts.replies]

theorem counts_txStart : Counts txPktNum (txStart txPktNum).dev (heldBy []) := by
  have zero : (0 : Int) = long (0 : Nat) := (long_natCast (by decide)).symm
  refine ⟨zero, zero, zero, ?_⟩
  simp [txStart, heldBy]

/-- **The counters are exact** whenever no call is in progress. -/
theorem tx_accounting_exact
    (reach : Reachable (· = txStart txPktNum) (Next (txStep txPktNum) AccountingRegular) s)
    (idle : TxIdle s) : TxExact txPktNum s.dev := by
  have counts : Counts txPktNum s.dev (heldBy s.calls) := by
    refine reach.machine_run (P := fun s => Counts txPktNum s.dev (heldBy s.calls))
      counts_txStart ?_
    intro s op counts regular
    obtain ⟨t, stepped, effect⟩ := txStep_effect txPktNum s op
    exact ⟨t, (), stepped, counts.step effect regular⟩
  rw [heldBy_idle idle] at counts
  exact counts.exactly idle.2.1

end Runs

/-! ## Fixed runs -/

section Fixed

instance (d : TxDevice) (p : TxPoint) : Decidable (PointRegular d p) := by
  unfold PointRegular
  split <;> infer_instance

instance (s : TxRun) (op : TxOp) : Decidable (AccountingRegular s op) := by
  unfold AccountingRegular
  split <;> infer_instance

def fillPool : List TxOp :=
  .control 0 false true :: goOn 0 8 ++ .control 0 true true :: goOn 1 7

theorem tx_accounting_exact_waiting :
    ∃ s : TxRun, s.dev.txList.length = 1 ∧ s.dev.vq.length = 1 ∧ TxExact 1 s.dev := by
  have replay : ∃ s ∈ attempt (txStep 1) AccountingRegular (txStart 1) fillPool,
      TxIdle s ∧ s.dev.txList.length = 1 ∧ s.dev.vq.length = 1 := by
    decide +kernel
  obtain ⟨s, reach, idle, list, packets⟩ := reachable_of_replay _ replay
  exact ⟨s, list, packets, tx_accounting_exact reach idle⟩

/-- A state without calls in progress that any operations reach, with what it looks like. -/
def Drifts (counters : List Int) (counted : List Nat) : Prop :=
  ∃ s, Reachable (· = txStart 1) (Next (txStep 1) fun _ _ => True) s ∧ TxIdle s ∧
    [s.dev.txEnqueued, s.dev.txQueuedReply, s.dev.txPktAllocated] = counters ∧
    [s.dev.txList.length, s.dev.txList.countP TxEntry.reply, s.dev.vq.length, s.dev.slices] =
      counted

/-- Four runs on a pool of one slice: a reset without a socket is sent; a request is cancelled
that waits for a slice; the whole device is cleaned up while a reply waits; a request is
cancelled that `VIOSockTxDequeue` takes from the list before the cancel routine does. -/
theorem tx_accounting_drift : Drifts [-1, 0, 1] [0, 0, 1, 0] ∧ Drifts [1, 0, 1] [0, 0, 1, 0] ∧
      Drifts [1, 1, 1] [0, 0, 1, 0] ∧ Drifts [0, 0, 1] [0, 0, 0, 0] := by
  refine ⟨?_, ?_, ?_, ?_⟩
  · exact reachable_of_replay (.resetNoSock false true 0 :: goOn 0 7) (by decide +kernel)
  · exact reachable_of_replay (.control 0 false true :: goOn 0 8 ++ queueWrite 1 0 ++ goOn 1 5
      ++ [.cancel 0, .cancelRoutine 0]) (by decide +kernel)
  · exact reachable_of_replay (fillPool ++ [.cleanup none]) (by decide +kernel)
  · exact reachable_of_replay (queueWrite 0 0 ++ .cancel 0 :: goOn 0 6 ++ [.cancelRoutine 0])
      (by decide +kernel)

end Fixed

end KvmGuestDrivers.VioSock

/-
# VioSock.TxCredit -- send credit is given back

`VIOSockTxEnqueue` takes credit for the payload of a write before it queues the request.  The
payload is then in `TxList`, or with a call or a DMA transaction on its way to the virtqueue, or
in the virtqueue; or the request is dropped, and the credit has to be returned.  Of the ways in
which it is dropped only two return the credit: the cancel routine and the failure to mark the
request.  `credit_conserved` is about the runs that take no other; `credit_lost` are five runs that
do.
-/
import KvmGuestDrivers.VioSock.TxQueue

namespace KvmGuestDrivers.VioSock

set_option autoImplicit false

open Theory List Function

/-! ## Cancelled requests -/

def TxEntry.key (e : TxEntry) : Nat × Bool := (e.id, e.cancelled)

/-- A request that is being cancelled has one cancel routine to come, which finds its entry in the
list or finds that it was removed. -/
structure Linked (d : TxDevice) : Prop where
  ids : (d.txList.map TxEntry.id).Nodup
  fresh : ∀ e ∈ d.txList, e.id < d.nextId
  known : ∀ c ∈ d.cancels, c.id < d.nextId
  pending : ∀ e ∈ d.txList, e.cancelled = true → ∃ c ∈ d.cancels, c.id = e.id
  marked : ∀ c ∈ d.cancels, ∀ e ∈ d.txList, e.id = c.id → e.cancelled = true

variable {d' d : TxDevice} {ok : Bool} {body : TxBody} {op : TxOp} {i : Nat}

section Linked

section

variable (linked : Linked d)

include linked

/-- Entries that are removed, or change in something that does not matter here. -/
theorem Linked.shrink (sub : (d'.txList.map TxEntry.key).Sublist (d.txList.map TxEntry.key))
    (cancels : d'.cancels = d.cancels) (nextId : d'.nextId = d.nextId) : Linked d' := by
  have before (e : TxEntry) (mem : e ∈ d'.txList) :
      ∃ old ∈ d.txList, old.id = e.id ∧ old.cancelled = e.cancelled := by
    obtain ⟨old, there, same⟩ := mem_map.mp (sub.subset (mem_map_of_mem mem))
    exact ⟨old, there, congrArg Prod.fst same, congrArg Prod.snd same⟩
  have ids : ∀ l : List TxEntry, l.map TxEntry.id = (l.map TxEntry.key).map Prod.fst := by
    intro l
    rw [map_map]
    rfl
  refine ⟨?_, ?_, ?_, ?_, ?_⟩
  · rw [ids]
    apply List.Nodup.sublist (sub.map Prod.fst)
    rw [← ids]
    exact linked.ids
  · intro e mem
    obtain ⟨old, there, id, _⟩ := before e mem
    rw [nextId, ← id]
    exact linked.fresh old there
  · rw [cancels, nextId]
    exact linked.known
  · intro e mem cancelled
    obtain ⟨old, there, id, flag⟩ := before e mem
    rw [cancels, ← id]
    exact linked.pending old there (flag.trans cancelled)
  · intro c mem e there same
    rw [cancels] at mem
    obtain ⟨old, before, id, flag⟩ := before e there
    rw [← flag]
    exact linked.marked c mem old before (id.trans same)

theorem Linked.same (list : d'.txList = d.txList)
    (cancels : d'.cancels = d.cancels) (nextId : d'.nextId = d.nextId) : Linked d' :=
  linked.shrink (by rw [list]) cancels nextId

theorem Linked.append (live : TxEntry.cancelled ⟨d.nextId, body⟩ = false) :
    Linked (appendEntry d body) := by
  have oldOrNew (e : TxEntry) (mem : e ∈ d.txList ++ [⟨d.nextId, body⟩]) :
      e ∈ d.txList ∨ e = ⟨d.nextId, body⟩ := by
    simpa using mem
  refine ⟨?_, ?_, ?_, ?_, ?_⟩
  · simp only [appendEntry, map_append]
    apply nodup_append.mpr
    refine ⟨linked.ids, by simp, ?_⟩
    intro id mem new there same
    obtain ⟨e, old, rfl⟩ := mem_map.mp mem
    have lt := linked.fresh e old
    rw [same, mem_singleton.mp there] at lt
    exact absurd lt (lt_irrefl _)
  · intro e mem
    rcases oldOrNew e mem with old | rfl
    · exact Nat.lt_succ_of_lt (linked.fresh e old)
    · exact Nat.lt_succ_self _
  · intro c mem
    exact Nat.lt_succ_of_lt (linked.known c mem)
  · intro e mem cancelled
    rcases oldOrNew e mem with old | rfl
    · exact linked.pending e old cancelled
    · rw [live] at cancelled
      cases cancelled
  · intro c there e mem same
    rcases oldOrNew e mem with old | rfl
    · exact linked.marked c there e old same
    · have lt := linked.known c there
      rw [← same] at lt
      exact absurd lt (lt_irrefl _)

theorem Linked.cancel (i : Nat) : Linked (cancelRequest d i) := by
  unfold cancelRequest
  split
  · rename_i id socket len timeout there
    have fresh : id < d.nextId := linked.fresh _ (mem_of_getElem? there)
    have sameIds : (d.txList.set i ⟨id, .write socket len timeout true⟩).map TxEntry.id =
        d.txList.map TxEntry.id := by
      have whole : (d.txList.map TxEntry.id)[i]? = some id := by rw [getElem?_map, there]; rfl
      obtain ⟨inside, entry⟩ := List.getElem?_eq_some_iff.mp whole
      rw [map_set]
      exact (congrArg (List.set _ i) entry.symm).trans (set_getElem_self inside)
    have now (e : TxEntry) (mem : e ∈ d.txList.set i ⟨id, .write socket len timeout true⟩) :
        e = ⟨id, .write socket len timeout true⟩ ∨ e ∈ d.txList ∧ e.id ≠ id := by
      obtain ⟨j, found⟩ := mem_iff_getElem?.mp mem
      rcases getElem?_move found with ⟨_, rfl⟩ | ⟨other, old⟩
      · exact .inl rfl
      refine .inr ⟨mem_of_getElem? old, fun same => other ?_⟩
      -- ids are unique
      have inside : j < (d.txList.map TxEntry.id).length := by
        rw [length_map]
        exact (List.getElem?_eq_some_iff.mp old).1
      apply (getElem?_inj inside linked.ids).mp
      rw [getElem?_map, getElem?_map, old, there]
      exact congrArg some same
    refine ⟨?_, ?_, ?_, ?_, ?_⟩
    · rw [sameIds]
      exact linked.ids
    · intro e mem
      rcases now e mem with rfl | ⟨old, _⟩
      · exact fresh
      · exact linked.fresh e old
    · exact forall_mem_concat linked.known fresh
    · intro e mem cancelled
      rcases now e mem with rfl | ⟨old, _⟩
      · exact ⟨⟨id, socket, len⟩, by simp, rfl⟩
      · obtain ⟨c, there, same⟩ := linked.pending e old cancelled
        exact ⟨c, mem_append_left _ there, same⟩
    · intro c mem e there same
      rcases now e there with rfl | ⟨old, other⟩
      · rfl
      rcases mem_append.mp mem with before | new
      · exact linked.marked c before e old same
      · rw [mem_singleton.mp new] at same
        exact absurd same other
  · exact linked

theorem Linked.cancelRoutine (i : Nat) : Linked (txEnqueueCancel d i) := by
  unfold txEnqueueCancel
  split
  · exact linked
  rename_i c there
  have kept (e : TxEntry) (mem : e ∈ d.txList.filter fun e => e.id ≠ c.id) :
      e ∈ d.txList ∧ e.id ≠ c.id := by
    simpa using mem
  refine ⟨?_, ?_, ?_, ?_, ?_⟩
  · exact List.Nodup.sublist (filter_sublist.map _) linked.ids
  · intro e mem
    exact linked.fresh e (kept e mem).1
  · intro c' mem
    exact linked.known c' (mem_of_mem_eraseIdx mem)
  · intro e mem cancelled
    obtain ⟨c', there', same⟩ := linked.pending e (kept e mem).1 cancelled
    obtain ⟨j, found⟩ := mem_iff_getElem?.mp there'
    refine ⟨c', mem_eraseIdx_iff_getElem?.mpr ⟨j, ?_, found⟩, same⟩
    rintro rfl
    rw [there] at found
    cases found
    exact (kept e mem).2 same.symm
  · intro c' mem e mem' same
    exact linked.marked c' (mem_of_mem_eraseIdx mem) e (kept e mem').1 same

end

theorem Linked.timer (linked : Linked d) (passed : Int) : Linked (txTimerFunc d passed) := by
  have same : ((d.txList.filter fun e => !expired passed e).map (passTime passed)).map TxEntry.key =
      (d.txList.filter fun e => !expired passed e).map TxEntry.key := by
    rw [map_map]
    apply map_congr_left
    rintro ⟨id, body⟩ _
    cases body <;> rfl
  have sub : ((txTimerFunc d passed).txList.map TxEntry.key).Sublist
      (d.txList.map TxEntry.key) := by
    rw [txTimerFunc, same]
    exact filter_sublist.map _
  exact linked.shrink sub rfl rfl

/-- **One step of a call.** -/
theorem Linked.advance (linked : Linked d) {p q : TxPoint} (move : TxMove d ok p d' q) :
    Linked d' := by
  have shrunk {e : TxEntry} {rest : List TxEntry} (list : d.txList = e :: rest) {d' : TxDevice}
      (now : d'.txList = rest) (cancels : d'.cancels = d.cancels)
      (nextId : d'.nextId = d.nextId) : Linked d' := by
    refine linked.shrink ?_ cancels nextId
    rw [now, list]
    exact sublist_cons_self _ _
  cases move with
  | append _ _ _ live => exact (linked.append live).same rfl rfl rfl
  | forget _ _ list | request _ _ list | send _ _ list => exact shrunk list rfl rfl rfl
  | putBack _ _ list => exact linked.same list.symm rfl rfl
  | _ => exact linked.same rfl rfl rfl

theorem Linked.step {s t : TxRun} (linked : Linked s.dev) (effect : TxEffect s op t) :
    Linked t.dev := by
  cases effect with
  | step _ _ _ _ _ move => exact linked.advance move
  | callback i inserted =>
    obtain ⟨_, _, _, _, _, same⟩ := txDequeueCallback_frame s.dev i inserted
    rw [same]
    exact linked.same rfl rfl rfl
  | cancel i => exact linked.cancel i
  | cancelRoutine i => exact linked.cancelRoutine i
  | timer passed => exact linked.timer passed
  | cleanup => exact linked.shrink (filter_sublist.map _) rfl rfl
  | _ => exact linked.same rfl rfl rfl

end Linked

/-! ## Credit -/

section Credit

variable (k : Nat) {e : TxEntry}

def writeBytes (e : TxEntry) : Nat :=
  match e.body with
  | .write socket len _ _ => if socket = k then len.toNat else 0
  | _ => 0

def liveBytes (e : TxEntry) : Nat := if e.cancelled then 0 else writeBytes k e

def cancelBytes (c : TxCancel) : Nat := if c.socket = k then c.len.toNat else 0

/-- The credit that a call has taken for a request that is not in the list. -/
def TxPoint.owes : TxPoint → Nat
  | .queueing (.write socket len _ _) => if socket = k then len.toNat else 0
  | .checking pkt | .mapping pkt => pktBytes k pkt
  | _ => 0

/-- What was handed to the virtqueue, and what the list, the cancel routines and the transactions
have. -/
def accountedFor (d : TxDevice) : Nat :=
  d.handed k + (d.txList.map (liveBytes k)).sum + (d.cancels.map (cancelBytes k)).sum +
    (d.transactions.map (pktBytes k)).sum

/-- The credit of the socket is what was handed to the virtqueue and what is on its way there, with
`owed` bytes that calls have; the bytes of a request that is being cancelled belong to the cancel
routine. -/
def Credited (d : TxDevice) (owed : Nat) : Prop :=
  (d.sockets k).txCnt = BitVec.ofNat 32 (accountedFor k d + owed)

variable {k} {owed socket owed' : Nat}

theorem Credited.same (credited : Credited k d owed)
    (credit : (d'.sockets k).txCnt = (d.sockets k).txCnt)
    (total : accountedFor k d' + owed' = accountedFor k d + owed) : Credited k d' owed' := by
  rw [Credited, credit, total]
  exact credited

theorem txGetCredit_zero (s : SendCredit) : txGetCredit s 0 = (s, 0) := by
  have nothing : (if 0 < s.peerBufAlloc - (s.txCnt - s.peerFwdCnt) then (0 : BitVec 32)
      else s.peerBufAlloc - (s.txCnt - s.peerFwdCnt)) = 0 := by
    split
    · rfl
    rename_i not_lt
    apply BitVec.eq_of_toNat_eq
    exact Nat.eq_zero_of_not_pos not_lt
  simp only [txGetCredit, nothing]
  simp

theorem Credited.other (credited : Credited k d owed) (other : socket ≠ k) (credit : SendCredit) :
    Credited k (setCredit d socket credit) owed := by
  have sockets : (setCredit d socket credit).sockets k = d.sockets k := by
    simp [setCredit, update_of_ne (Ne.symm other)]
  exact credited.same (congrArg SendCredit.txCnt sockets) rfl

theorem Credited.get (credited : Credited k d owed) (socket : Nat) (len : BitVec 32) :
    Credited k (setCredit d socket (txGetCredit (d.sockets socket) len).1)
      (owed + if socket = k then (txGetCredit (d.sockets socket) len).2.toNat else 0) := by
  by_cases same : socket = k
  · subst same
    show (update d.sockets socket _ socket).txCnt = BitVec.ofNat 32 (accountedFor socket d + _)
    rw [← add_assoc, BitVec.ofNat_add, ← credited]
    simp [txGetCredit]
  · rw [if_neg same]
    exact credited.other same _

theorem Credited.put {len : BitVec 32}
    (credited : Credited k d (owed + if socket = k then len.toNat else 0)) :
    Credited k (setCredit d socket (txPutCredit (d.sockets socket) len)) owed := by
  by_cases same : socket = k
  · subst same
    rw [if_pos rfl, Credited, ← add_assoc, BitVec.ofNat_add] at credited
    show (update d.sockets socket _ socket).txCnt = BitVec.ofNat 32 (accountedFor socket d + owed)
    rw [update_self, txPutCredit, credited, BitVec.ofNat_toNat]
    exact BitVec.add_sub_cancel _ _
  · rw [if_neg same] at credited
    exact credited.other same _

/-! ### Packets -/

theorem pktBytes_other {pkt : TxPkt} (other : pkt.socket ≠ some k) : pktBytes k pkt = 0 :=
  if_neg other

theorem Credited.insert (pkt : TxPkt) (credited : Credited k d (owed + pktBytes k pkt)) :
    Credited k (txPktInsert d pkt) owed := by
  refine credited.same rfl ?_
  simp only [accountedFor, txPktInsert]
  omega

theorem Credited.callback (credited : Credited k d owed) {inserted : Bool}
    (sent : ∀ pkt ∈ d.transactions[i]?, inserted = true ∨ pkt.socket ≠ some k) :
    Credited k (txDequeueCallback d i inserted) owed := by
  unfold txDequeueCallback
  split
  · exact credited
  rename_i pkt there
  have taken : Credited k { d with transactions := d.transactions.eraseIdx i }
      (owed + pktBytes k pkt) := by
    have erased := sum_map_eraseIdx there (pktBytes k)
    refine credited.same rfl ?_
    simp only [accountedFor]
    omega
  cases inserted with
  | true => exact taken.insert { pkt with transaction := true }
  | false =>
    have other : pkt.socket ≠ some k := (sent pkt there).resolve_left Bool.false_ne_true
    rw [pktBytes_other other] at taken
    exact taken.same rfl rfl

/-! ### The list -/

theorem Credited.relist (credited : Credited k d owed)
    (credit : (d'.sockets k).txCnt = (d.sockets k).txCnt) (handed : d'.handed = d.handed)
    (cancels : d'.cancels = d.cancels) (transactions : d'.transactions = d.transactions)
    (list : (d'.txList.map (liveBytes k)).sum = (d.txList.map (liveBytes k)).sum) :
    Credited k d' owed := by
  apply credited.same credit
  rw [accountedFor, accountedFor, handed, cancels, transactions, list]

def liveWrite (k : Nat) (e : TxEntry) : Bool :=
  match e.body with
  | .write socket _ _ false => socket = k
  | _ => false

theorem liveBytes_of_not_live (not_live : liveWrite k e = false) : liveBytes k e = 0 := by
  obtain ⟨id, body⟩ := e
  cases body with
  | write socket _ _ cancelled =>
    cases cancelled with
    | true => rfl
    | false =>
      have other : socket ≠ k := by simpa [liveWrite] using not_live
      exact if_neg other
  | control | reset => rfl

section

variable (credited : Credited k d owed)

include credited

theorem Credited.timer {passed : Int}
    (kept : ∀ e ∈ d.txList, expired passed e = true → liveWrite k e = false) :
    Credited k (txTimerFunc d passed) owed := by
  refine credited.relist rfl rfl rfl rfl ?_
  have same : (fun e => liveBytes k (passTime passed e)) = liveBytes k :=
    funext fun ⟨_, body⟩ => by cases body <;> rfl
  simp only [txTimerFunc, map_map, Function.comp_def, same]
  apply sum_map_filter
  intro e mem removed
  exact liveBytes_of_not_live (kept e mem (by simpa using removed))

theorem Credited.cleanup {socket : Option Nat}
    (kept : ∀ e ∈ d.txList, cleaned socket e = true → liveWrite k e = false) :
    Credited k (txCleanup d socket) owed := by
  refine credited.relist rfl rfl rfl rfl ?_
  apply sum_map_filter
  intro e mem removed
  exact liveBytes_of_not_live (kept e mem (by simpa using removed))

theorem Credited.cancel (i : Nat) : Credited k (cancelRequest d i) owed := by
  unfold cancelRequest
  split
  · rename_i id socket len timeout there
    have moved := sum_map_move there ⟨id, .write socket len timeout true⟩ (liveBytes k)
    have before : liveBytes k ⟨id, .write socket len timeout false⟩ =
        if socket = k then len.toNat else 0 := rfl
    have after : liveBytes k ⟨id, .write socket len timeout true⟩ = 0 := rfl
    refine credited.same rfl ?_
    simp only [accountedFor, map_append, sum_append, map_singleton, sum_singleton, cancelBytes]
    omega
  · exact credited

/-- The cancel routine returns the credit; the entry, if it is still there, is one that is being
cancelled. -/
theorem Credited.cancelRoutine (linked : Linked d) (i : Nat) :
    Credited k (txEnqueueCancel d i) owed := by
  unfold txEnqueueCancel
  split
  · exact credited
  rename_i c there
  have erased := sum_map_eraseIdx there (cancelBytes k)
  have list : ((d.txList.filter fun e => e.id ≠ c.id).map (liveBytes k)).sum =
      (d.txList.map (liveBytes k)).sum := by
    apply sum_map_filter
    intro e mem removed
    have cancelled : e.cancelled = true :=
      linked.marked c (mem_of_getElem? there) e mem (by simpa using removed)
    simp [liveBytes, cancelled]
  have owing : Credited k
      { d with
          txList := d.txList.filter fun e => e.id ≠ c.id, cancels := d.cancels.eraseIdx i }
      (owed + cancelBytes k c) := by
    refine credited.same rfl ?_
    simp only [accountedFor]
    omega
  exact owing.put

/-! ### The steps of a call -/

theorem Credited.append (body : TxBody) (bytes : owed' + liveBytes k ⟨d.nextId, body⟩ = owed) :
    Credited k (appendEntry d body) owed' := by
  refine credited.same rfl ?_
  simp only [accountedFor, appendEntry, map_append, sum_append, map_singleton, sum_singleton]
  omega

end

theorem Credited.queue (credited : Credited k d (owed + (TxPoint.queueing body).owes k))
    (marked : Bool) : Credited k (queueEntry d marked body).1 owed := by
  cases body with
  | write socket len timeout =>
    cases marked with
    | false => exact credited.put
    | true => exact (credited.append (.write socket len timeout false) rfl).same rfl rfl
  | control socket reply =>
    exact (credited.append (.control socket reply) rfl).same rfl rfl
  | reset => exact credited.append _ rfl

theorem Credited.take (credited : Credited k d owed) (body : TxBody) :
    Credited k (takeCredit d body).1 (owed + (takeCredit d body).2.owes k) := by
  cases body with
  | write socket len =>
    have taken := credited.get socket len
    simp only [takeCredit]
    split
    · rename_i closed
      rw [closed.2] at taken
      simpa [TxPoint.owes] using taken
    · exact taken
  | control socket =>
    have taken := credited.get socket 0
    rw [txGetCredit_zero] at taken
    rw [takeCredit, txGetCredit_zero]
    simpa [TxPoint.owes] using taken
  | reset => exact credited

theorem Credited.removed (credited : Credited k d owed) {rest : List TxEntry}
    (list : d.txList = e :: rest) : Credited k (sliced d rest) (owed + liveBytes k e) := by
  refine credited.same rfl ?_
  simp only [accountedFor, sliced, removeHead, list, map_cons, sum_cons]
  omega

theorem pktBytes_pkt (live : e.cancelled = false) : pktBytes k e.pkt = liveBytes k e := by
  obtain ⟨id, body⟩ := e
  cases body with
  | write socket len _ cancelled =>
    obtain rfl : cancelled = false := live
    simp [pktBytes, TxEntry.pkt, TxEntry.socket, TxEntry.len, liveBytes, writeBytes,
      TxEntry.cancelled]
  | control | reset => simp [pktBytes, TxEntry.pkt, TxEntry.len, liveBytes, writeBytes]

/-- The outcomes in which a request is not dropped on its way to the virtqueue. -/
def PointSends (k : Nat) (ok : Bool) : TxPoint → Prop
  | .checking pkt | .mapping pkt => ok = true ∨ pkt.socket ≠ some k
  | _ => True

/-- **One step of a call** conserves the credit. -/
theorem Credited.advance {p q : TxPoint} (credited : Credited k d (owed + p.owes k))
    (move : TxMove d ok p d' q) (sends : PointSends k ok p) : Credited k d' (owed + q.owes k) := by
  have drops {pkt : TxPkt} (credited : Credited k d (owed + pktBytes k pkt)) (failed : ok = false)
      (sends : ok = true ∨ pkt.socket ≠ some k) : Credited k d owed := by
    rwa [pktBytes_other (sends.resolve_left (by simp [failed]))] at credited
  cases move with
  | take body eq =>
    have taken := Credited.take credited body
    rwa [eq] at taken
  | unmarked _ eq | append _ _ _ _ eq =>
    have queued := credited.queue ok
    rwa [eq] at queued
  | forget e _ list _ _ cancelled =>
    have removed := Credited.removed credited list
    rwa [liveBytes, if_pos cancelled] at removed
  | request e _ list _ _ live =>
    rw [TxPoint.owes, pktBytes_pkt live]
    exact (Credited.removed credited list).same rfl rfl
  | send e _ list _ control =>
    refine Credited.insert e.pkt ?_
    rw [pktBytes_pkt (cancelled_of_control control)]
    exact (Credited.removed credited list).same rfl rfl
  | putBack e _ list => exact credited.same rfl (by rw [accountedFor, accountedFor, list]; rfl)
  | unchecked _ failed | unmapped _ failed => exact drops credited failed sends
  | map =>
    refine credited.same rfl ?_
    simp only [accountedFor, TxPoint.owes, map_append, sum_append, map_singleton, sum_singleton]
    omega
  | _ => exact credited.same rfl rfl

end Credit

/-! ## Runs -/

variable (k : Nat)

def owedBy (calls : List TxPoint) : Nat := (calls.map (TxPoint.owes k)).sum

/-- The steps that conserve the credit of socket `k`: its writes are validated, mapped and
inserted without a failure when they are dequeued, they do not time out, and no cleanup finds
them in the list. -/
def CreditRegular (s : TxRun) : TxOp → Prop
  | .step i ok _ => ∀ p ∈ s.calls[i]?, PointSends k ok p
  | .callback i inserted => ∀ pkt ∈ s.dev.transactions[i]?, inserted = true ∨ pkt.socket ≠ some k
  | .timer passed => ∀ e ∈ s.dev.txList, expired passed e = true → liveWrite k e = false
  | .cleanup socket => ∀ e ∈ s.dev.txList, cleaned socket e = true → liveWrite k e = false
  | _ => True

structure CreditInv (k : Nat) (s : TxRun) : Prop where
  linked : Linked s.dev
  credited : Credited k s.dev (owedBy k s.calls)

section Runs

variable {k} {txPktNum : Nat} {s : TxRun}

/-- A step of a call keeps the credit of the socket. -/
theorem CreditInv.call (inv : CreditInv k s) {p q : TxPoint} (here : s.calls[i]? = some p)
    (move : TxMove s.dev ok p d q) (sends : PointSends k ok p) :
    Credited k d (owedBy k (s.calls.set i q)) := by
  obtain ⟨rest, total⟩ := Nat.exists_eq_add_of_le' (le_sum_map here (TxPoint.owes k))
  have moved := sum_map_move here q (TxPoint.owes k)
  have after : owedBy k (s.calls.set i q) = rest + q.owes k := by
    unfold owedBy
    omega
  rw [after]
  exact Credited.advance (total ▸ inv.credited) move sends

theorem CreditInv.step (inv : CreditInv k s) {t : TxRun} (effect : TxEffect s op t)
    (regular : CreditRegular k s op) : CreditInv k t := by
  refine ⟨inv.linked.step effect, ?_⟩
  cases effect with
  | refused | absent | locked => exact inv.credited
  | start _ _ p starting =>
    have nothing : p.owes k = 0 := by
      cases p with
      | queueing body => cases body <;> first | rfl | cases starting
      | _ => first | rfl | cases starting
    rw [owedBy, startCall, sum_map_start, nothing]
    exact inv.credited
  | step i ok _ here _ move => exact inv.call here move (regular _ here)
  | callback => exact inv.credited.callback regular
  | cancel i => exact inv.credited.cancel i
  | cancelRoutine i => exact inv.credited.cancelRoutine inv.linked i
  | timer => exact inv.credited.timer regular
  | cleanup => exact inv.credited.cleanup regular
  | header socket _ _ eq =>
    by_cases same : socket = k
    · subst same
      refine inv.credited.same ?_ rfl
      simp [setCredit, eq, txSpaceUpdate]
    · exact inv.credited.other same _

theorem creditInv_txStart : CreditInv k (txStart txPktNum) := by
  refine ⟨⟨?_, ?_, ?_, ?_, ?_⟩, ?_⟩
  all_goals simp [txStart, Credited, accountedFor, owedBy]

theorem owedBy_idle (idle : TxIdle s) : owedBy k s.calls = 0 := by
  apply Theory.sum_map_zero
  intro p mem
  rw [idle.1 p mem]
  rfl

theorem Linked.live (linked : Linked d) (idle : d.cancels = []) :
    (d.txList.map (liveBytes k)).sum = (d.txList.map (writeBytes k)).sum := by
  congr 1
  apply map_congr_left
  intro e mem
  have live : e.cancelled = false := by
    rw [← Bool.not_eq_true]
    intro cancelled
    obtain ⟨c, there, _⟩ := linked.pending e mem cancelled
    rw [idle] at there
    cases there
  simp [liveBytes, live]

/-- **Credit is conserved**: whenever no call is in progress, `tx_cnt` is what was handed to the
virtqueue and what waits in the list, modulo `2 ^ 32`. -/
theorem credit_conserved
    (reach : Reachable (· = txStart txPktNum) (Next (txStep txPktNum) (CreditRegular k)) s)
    (idle : TxIdle s) :
    (s.dev.sockets k).txCnt =
      BitVec.ofNat 32 (s.dev.handed k + (s.dev.txList.map (writeBytes k)).sum) := by
  have inv : CreditInv k s := by
    refine reach.machine_run creditInv_txStart ?_
    intro s op inv regular
    obtain ⟨t, stepped, effect⟩ := txStep_effect txPktNum s op
    exact ⟨t, (), stepped, inv.step effect regular⟩
  have credited := inv.credited
  rw [owedBy_idle idle, Credited, accountedFor, idle.2.1, idle.2.2,
    inv.linked.live idle.2.2] at credited
  exact credited

end Runs

/-! ## Fixed runs -/

section Fixed

instance (ok : Bool) (p : TxPoint) : Decidable (PointSends k ok p) := by
  unfold PointSends
  split <;> infer_instance

instance (s : TxRun) : (op : TxOp) → Decidable (CreditRegular k s op)
  | .write .. | .control .. | .resetNoSock .. | .interrupt | .step .. | .callback ..
  | .cancel _ | .cancelRoutine _ | .timer _ | .cleanup _ | .header .. => by
    unfold CreditRegular; infer_instance

/-- A write is sent, and a second one waits for a slice. -/
theorem credit_conserved_waiting :
    ∃ s : TxRun, s.dev.handed 0 = 10 ∧ (s.dev.txList.map (writeBytes 0)).sum = 20 ∧
      (s.dev.sockets 0).txCnt =
        BitVec.ofNat 32 (s.dev.handed 0 + (s.dev.txList.map (writeBytes 0)).sum) := by
  have replay : ∃ s ∈ attempt (txStep 1) (CreditRegular 0) (txStart 1)
      (queueWrite 0 0 ++ goOn 0 7 ++ .callback 0 true :: goOn 0 2 ++
        .write 0 20 false 0 :: goOn 1 8),
      TxIdle s ∧ s.dev.handed 0 = 10 ∧ (s.dev.txList.map (writeBytes 0)).sum = 20 := by
    decide +kernel
  obtain ⟨s, reach, idle, handed, listed⟩ := reachable_of_replay _ replay
  exact ⟨s, handed, listed, credit_conserved reach idle⟩

/-- A state without calls in progress in which socket 0 has taken credit for ten bytes that are
nowhere. -/
def LosesCredit (ops : List TxOp) : Prop :=
  ∃ s, attempt (txStep 1) (fun _ _ => True) (txStart 1) ops = some s ∧ TxIdle s ∧
    (s.dev.sockets 0).txCnt = 10 ∧ s.dev.handed 0 = 0 ∧ s.dev.txList = []

theorem losesCredit_of_view {ops : List TxOp}
    (replay : (attempt (txStep 1) (fun _ _ => True) (txStart 1) ops).map
      (fun s => (decide (TxIdle s), (s.dev.sockets 0).txCnt, s.dev.handed 0, s.dev.txList)) =
        some (true, 10, 0, [])) : LosesCredit ops := by
  obtain ⟨s, ran, shape⟩ := Option.map_eq_some_iff.mp replay
  simp only [Prod.mk.injEq, decide_eq_true_eq] at shape
  exact ⟨s, ran, shape.1, shape.2.1, shape.2.2.1, shape.2.2.2⟩

def waitForSlice (timeout : Int) : List TxOp :=
  .control 0 false true :: goOn 0 8 ++ queueWrite 1 timeout ++ goOn 1 5

/-- The five ways in which the credit of a write is lost: the socket is found in a wrong state,
the mapping fails, the insertion fails in the callback, the write times out, and the socket is
cleaned up. -/
theorem credit_lost :
    LosesCredit (queueWrite 0 0 ++ goOn 0 5 ++ .step 0 false (fun _ => false) :: goOn 0 2) ∧
    LosesCredit (queueWrite 0 0 ++ goOn 0 6 ++ .step 0 false (fun _ => false) :: goOn 0 2) ∧
    LosesCredit (queueWrite 0 0 ++ goOn 0 7 ++ .callback 0 false :: goOn 0 2) ∧
    LosesCredit (waitForSlice 1 ++ [.timer 0]) ∧
    LosesCredit (waitForSlice 0 ++ [.cleanup (some 0)]) := by
  refine ⟨?_, ?_, ?_, ?_, ?_⟩
  all_goals exact losesCredit_of_view (by decide +kernel)

end Fixed

end KvmGuestDrivers.VioSock

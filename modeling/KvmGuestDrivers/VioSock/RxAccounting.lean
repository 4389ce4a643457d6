/-
# VioSock.RxAccounting -- the bytes a socket believes to have

`RxBytes` is raised before the request of a loopback write is marked cancelable, and a block that
a read has emptied is left to the cancel routine if its write is being cancelled.  In both cases
nobody lowers the counter again.
-/
import KvmGuestDrivers.VioSock.RxBounds

namespace KvmGuestDrivers.VioSock

set_option autoImplicit false

open Theory List

/-! ## The drain loop -/

/-- `VIOSockReadProcessDequeueCb`, with what is left of the queue. -/
def readProcessDequeueCb (choose : Nat → ReadChoice) (s : RxSocket) :
    List ReadReq → RxSocket × List ReadReq
  | [] => (s, [])
  | req :: rest =>
    match readLocked s req (choose 0) with
    | (s, .requeued req, _) => (s, req :: rest)
    | (s, .completed _ _, true) => readProcessDequeueCb (fun i => choose (i + 1)) s rest
    | (s, .completed _ _, false) => (s, rest)

/-- The loop of `VIOSockShutdownFromPeer`, for at most so many turns. -/
def drainReads (choose : Nat → Nat → ReadChoice) : Nat → RxSocket → List ReadReq → Option RxSocket
  | _, s, [] => some s
  | 0, _, _ :: _ => none
  | n + 1, s, req :: rest =>
    let (s, queue) := readProcessDequeueCb (choose n) s (req :: rest)
    drainReads choose n s queue

/-! ## The counters -/

def bytesLeft (cbs : List RxCb) : Nat := (cbs.map fun cb => cb.bytesToRead.toNat).sum

def Distinct (cbs : List RxCb) : Prop := (cbs.filterMap RxCb.request).Nodup

/-- `RxBytes` is what the blocks have left, within the window, and `fwd_cnt` what has left them. -/
structure Accounted (s : RxSocket) : Prop where
  counted : s.rxBytes.toNat = bytesLeft s.rxCbList
  window : s.rxBytes.toNat ≤ s.bufAlloc.toNat
  left : ∃ n, s.accepted.length = n + bytesLeft s.rxCbList ∧ s.fwdCnt = BitVec.ofNat 32 n
  distinct : Distinct s.rxCbList
  linked : s.unlinked = []

/-- The blocks that a read with this much room takes whole. -/
def wholeCbs (freeBytes : BitVec 32) : List RxCb → List RxCb
  | [] => []
  | cb :: rest =>
    if cb.bytesToRead ≤ freeBytes then cb :: wholeCbs (freeBytes - cb.bytesToRead) rest else []

section Socket

variable {s : RxSocket} {cb : RxCb} {rest cbs : List RxCb} {req : ReadReq} {n : BitVec 32}
  {after : RxSocket × Bool} {mem : RxMemory} {request : Nat}

@[simp] theorem bytesLeft_nil : bytesLeft [] = 0 := rfl

@[simp] theorem bytesLeft_cons :
    bytesLeft (cb :: rest) = cb.bytesToRead.toNat + bytesLeft rest := by
  simp [bytesLeft]

@[simp] theorem bytesLeft_append : bytesLeft (cbs ++ rest) = bytesLeft cbs + bytesLeft rest := by
  simp [bytesLeft]

theorem Distinct.tail (distinct : Distinct (cb :: rest)) : Distinct rest :=
  distinct.sublist ((sublist_cons_self cb rest).filterMap _)

/-- What `VIOSockRxPktDec` does for bytes that are taken out of the list. -/
theorem Accounted.dec (acc : Accounted s) (less : bytesLeft cbs + n.toNat = bytesLeft s.rxCbList)
    (distinct : Distinct cbs) : Accounted { rxPktDec s n with rxCbList := cbs } := by
  obtain ⟨gone, _, fwd⟩ := acc.left
  have counted := acc.counted
  have window := acc.window
  have le : n ≤ s.rxBytes := by
    rw [BitVec.le_def]
    omega
  refine ⟨?_, ?_, ⟨gone + n.toNat, ?_, ?_⟩, distinct, acc.linked⟩
  · simp only [rxPktDec, BitVec.toNat_sub_of_le le]
    omega
  · simp only [rxPktDec, BitVec.toNat_sub_of_le le]
    omega
  · simp only [rxPktDec]
    omega
  · simp only [rxPktDec, fwd, BitVec.ofNat_add, BitVec.ofNat_toNat, BitVec.setWidth_eq]

theorem Accounted.inc (acc : Accounted s) {t : RxSocket} (inc : rxPktInc s n = some t)
    (fits : s.rxBytes.toNat + n.toNat < 2 ^ 32) {accepted : List (Option Byte)}
    {accesses : List RxAccess} (more : bytesLeft cbs = bytesLeft s.rxCbList + n.toNat)
    (length : accepted.length = s.accepted.length + n.toNat) (distinct : Distinct cbs) :
    Accounted { t with rxCbList := cbs, accepted := accepted, accesses := accesses } := by
  obtain ⟨gone, _, fwd⟩ := acc.left
  have counted := acc.counted
  have sum := BitVec.toNat_add_of_lt fits
  have room : (s.rxBytes + n).toNat ≤ s.bufAlloc.toNat := by
    rw [rxPktInc] at inc
    split at inc
    · cases inc
    · rename_i within
      exact Nat.le_of_not_lt within
  obtain rfl := rxPktInc_some inc
  refine ⟨?_, room, ⟨gone, ?_, fwd⟩, distinct, acc.linked⟩
  · simp only
    omega
  · simp only
    omega

/-! ## A read -/

def TakesLive (s : RxSocket) (req : ReadReq) : Prop :=
  ∀ cb ∈ wholeCbs req.freeBytes s.rxCbList, cancelling s cb = false

theorem Accounted.whole (fits : cb.bytesToRead ≤ req.freeBytes)
    (acc : Accounted { s with rxCbList := cb :: rest })
    (live : TakesLive { s with rxCbList := cb :: rest } req) :
    Accounted { finishCb (noteRead s cb cb.bytesToRead) cb with rxCbList := rest } ∧
    TakesLive { finishCb (noteRead s cb cb.bytesToRead) cb with rxCbList := rest }
      (req.copy cb cb.bytesToRead) := by
  rw [TakesLive, wholeCbs, if_pos fits] at live
  have finish : finishCb (noteRead s cb cb.bytesToRead) cb =
      rxPktDec (noteRead s cb cb.bytesToRead) cb.bytesToRead := by
    have first : cancelling (noteRead s cb cb.bytesToRead) cb = false := live cb mem_cons_self
    rw [finishCb, first]
    rfl
  rw [finish]
  constructor
  · have noted : Accounted { noteRead s cb cb.bytesToRead with rxCbList := cb :: rest } :=
      { acc with }
    exact noted.dec (by rw [bytesLeft_cons]; omega) acc.distinct.tail
  · exact fun other member => live other (mem_cons_of_mem cb member)

theorem Accounted.part (le : req.freeBytes ≤ cb.bytesToRead)
    (acc : Accounted { s with rxCbList := cb :: rest }) :
    Accounted (takePart (noteRead s cb req.freeBytes) cb req.freeBytes rest) := by
  have noted : Accounted { noteRead s cb req.freeBytes with rxCbList := cb :: rest } :=
    { acc with }
  have few := BitVec.le_def.mp le
  exact noted.dec (by simp only [bytesLeft_cons, BitVec.toNat_sub_of_le le]; omega) acc.distinct

theorem Accounted.peek (acc : Accounted s) (peek : req.peek = true) :
    Accounted (copyCbs s req s.rxCbList).1 := by
  obtain ⟨_, same⟩ := @copyCbs_peek s req peek s.rxCbList
  rw [same]
  exact { acc with }

section

variable (acc : Accounted s) (live : req.peek = false → TakesLive s req)

include acc live

theorem Accounted.copyCbs : Accounted (copyCbs s req s.rxCbList).1 := by
  cases peek : req.peek with
  | true => exact acc.peek peek
  | false =>
    exact copyCbs_keeps (J := fun s req => Accounted s ∧ TakesLive s req)
      (Q := fun s _ => Accounted s)
      (fun _ _ _ _ _ fits kept => kept.1.whole fits kept.2)
      (fun _ _ _ _ _ more kept => kept.1.part (BitVec.le_of_lt (BitVec.not_le.mp more)))
      (fun _ _ kept => kept.1) s.rxCbList peek ⟨acc, live peek⟩

theorem Accounted.readLocked (c : ReadChoice) : Accounted (readLocked s req c).1 := by
  rcases readLocked_eq s req c with ⟨_, sock, _⟩ | ⟨_, sock, _⟩
  · rw [sock]
    exact acc
  · rw [sock]
    exact acc.copyCbs live

end

theorem copyCbs_room (plain : req.peek = false) (cbs : List RxCb)
    (room : (copyCbs s req cbs).2.freeBytes ≠ 0) : (copyCbs s req cbs).1.rxCbList = [] := by
  refine copyCbs_keeps (J := fun _ _ => True)
    (Q := fun s req => req.freeBytes ≠ 0 → s.rxCbList = []) ?_ ?_ ?_ cbs plain trivial room
  · intros
    trivial
  · intro s req cb rest _ _ _ room
    exact absurd (BitVec.sub_self _) room
  · intros
    rfl

/-! ## Packets and loopback writes -/

/-- Bytes that the window lets in do not make the counter wrap. -/
def NoWrap (s : RxSocket) (n : BitVec 32) : Prop :=
  (rxPktInc s n).isSome = true → s.rxBytes.toNat + n.toNat < 2 ^ 32

theorem Accounted.packet (acc : Accounted s) (fits : NoWrap s n) (move : PktMove s n mem after) :
    Accounted after.1 := by
  cases move with
  | dropped => exact acc
  | stored inc =>
    refine acc.inc inc (fits (by rw [inc]; rfl)) ?_ ?_ ?_
    · simp [pktCb]
    · simp [pktCb, RxMemory.read]
    · simpa [Distinct, pktCb] using acc.distinct
  | @merged inc last there =>
    have below := fits (by rw [inc]; rfl)
    have list := dropLast_append_getLast? last there
    have whole := congrArg bytesLeft list
    simp only [bytesLeft_append, bytesLeft_cons, bytesLeft_nil] at whole
    have counted := acc.counted
    have sum : (last.bytesToRead + n).toNat = last.bytesToRead.toNat + n.toNat :=
      BitVec.toNat_add_of_lt (by omega)
    refine acc.inc inc below ?_ ?_ ?_
    · simp only [bytesLeft_append, bytesLeft_cons, bytesLeft_nil, mergeCb]
      omega
    · simp [RxMemory.read]
    have distinct := acc.distinct
    rw [Distinct, ← list, filterMap_append] at distinct
    rw [Distinct, filterMap_append]
    exact distinct

theorem Accounted.write (acc : Accounted s) {marked : Bool} (fits : NoWrap s n)
    (stays : (rxPktInc s n).isSome = true → marked = true) (mem : RxMemory)
    (fresh : request ∉ s.rxCbList.filterMap RxCb.request) :
    Accounted (rxRequestEnqueueCb s request n mem marked).1 := by
  rw [rxRequestEnqueueCb]
  cases inc : rxPktInc s n with
  | none => exact acc
  | some =>
    obtain rfl := stays (by rw [inc]; rfl)
    have same := rxPktInc_some inc
    refine acc.inc inc (fits (by rw [inc]; rfl)) ?_ ?_ ?_
    · simp [same, requestCb]
    · simp [same, requestCb, RxMemory.read]
    rw [same, Distinct, filterMap_append, nodup_append]
    refine ⟨acc.distinct, ?_, ?_⟩
    · simp [requestCb]
    rintro a member b new rfl
    simp only [requestCb, filterMap_cons, filterMap_nil, mem_singleton] at new
    exact fresh (new ▸ member)

theorem bytesLeft_filter (cbs : List RxCb) (distinct : Distinct cbs)
    (found : cbs.find? (fun cb => cb.request = some request) = some cb) :
    bytesLeft (cbs.filter fun cb => cb.request ≠ some request) + cb.bytesToRead.toNat =
      bytesLeft cbs := by
  induction cbs with
  | nil => cases found
  | cons first rest ih =>
    by_cases has : first.request = some request
    · have others : ∀ other ∈ rest, other.request ≠ some request := by
        intro other member same
        rw [Distinct, filterMap_cons, has, nodup_cons] at distinct
        exact distinct.1 (mem_filterMap.mpr ⟨other, member, same⟩)
      have keep : rest.filter (fun cb => cb.request ≠ some request) = rest := by
        apply filter_eq_self.mpr
        intro other member
        simp [others other member]
      rw [find?_cons_of_pos (by simp [has])] at found
      cases found
      rw [filter_cons_of_neg (by simp [has]), keep, bytesLeft_cons]
      omega
    · rw [find?_cons_of_neg (by simp [has])] at found
      have later := ih distinct.tail found
      rw [filter_cons_of_pos (by simp [has]), bytesLeft_cons, bytesLeft_cons]
      omega

theorem Accounted.cancelRoutine (acc : Accounted s) (request : Nat) :
    Accounted (rxRequestCancelCb s request) := by
  rw [rxRequestCancelCb]
  split
  · split
    · exact acc
    rename_i cb found
    rw [acc.linked, append_nil] at found
    have after := acc.dec (bytesLeft_filter s.rxCbList acc.distinct found)
      (acc.distinct.sublist (filter_sublist.filterMap _))
    exact { after with linked := by simp [acc.linked] }
  · exact acc

theorem Accounted.cancelWrite (acc : Accounted s) (request : Nat) :
    Accounted (cancelWrite s request) := by
  rw [VioSock.cancelWrite]
  split
  · exact { acc with }
  · exact acc

/-! ## The writes that are in the list -/

theorem requests_readLocked (s : RxSocket) (req : ReadReq) (c : ReadChoice) :
    (readLocked s req c).1.rxCbList.filterMap RxCb.request ⊆ s.rxCbList.filterMap RxCb.request := by
  refine readLocked_keeps
    (J := fun t => t.rxCbList.filterMap RxCb.request ⊆ s.rxCbList.filterMap RxCb.request)
    (List.Subset.refl _) (fun _ => List.Subset.refl _) ?_ ?_ req c
  · intro t cb n rest sub
    exact List.Subset.trans ((sublist_cons_self cb rest).filterMap _).subset sub
  · intro t cb rest n _ sub
    exact sub

theorem requests_packet (move : PktMove s n mem after) :
    after.1.rxCbList.filterMap RxCb.request = s.rxCbList.filterMap RxCb.request := by
  cases move with
  | dropped => rfl
  | stored => simp [insertCb, pktCb]
  | @merged _ last there =>
    have old : s.rxCbList.filterMap RxCb.request =
        s.rxCbList.dropLast.filterMap RxCb.request ++ [last].filterMap RxCb.request := by
      rw [← filterMap_append, dropLast_append_getLast? last there]
    rw [old]
    simp only [mergeLast, filterMap_append]
    rfl

theorem requests_write (s : RxSocket) (request : Nat) (n : BitVec 32) (mem : RxMemory)
    (marked : Bool) :
    (rxRequestEnqueueCb s request n mem marked).1.rxCbList.filterMap RxCb.request ⊆
      s.rxCbList.filterMap RxCb.request ++ [request] := by
  rw [rxRequestEnqueueCb]
  cases inc : rxPktInc s n with
  | none => exact subset_append_left _ _
  | some =>
    cases marked with
    | false => simp [rxPktInc_some inc]
    | true => simp [rxPktInc_some inc, insertCb, requestCb]

theorem requests_cancelRoutine (s : RxSocket) (request : Nat) :
    (rxRequestCancelCb s request).rxCbList.filterMap RxCb.request ⊆
      s.rxCbList.filterMap RxCb.request := by
  rw [rxRequestCancelCb]
  split
  · split
    · exact List.Subset.refl _
    · exact (filter_sublist.filterMap _).subset
  · exact List.Subset.refl _

end Socket

/-! ## Runs -/

variable (s : RxSocket)

/-- A read in hand takes no block whose write is being cancelled. -/
def TakesLiveAt : RxPoint → Prop
  | .holding req => req.peek = false → s.rxBytes ≠ 0 → TakesLive s req
  | _ => True

/-- The counter does not wrap, a write that the window lets in is marked cancelable, and a read
takes no block whose write is being cancelled. -/
def RxCounted (s : RxRun) : RxOp → Prop
  | .packet len headerLen _ => shortOrLong len headerLen = false → NoWrap s.sock headerLen
  | .write length _ marked =>
    NoWrap s.sock length ∧ ((rxPktInc s.sock length).isSome = true → marked = true)
  | .step i _ => ∀ p ∈ s.calls[i]?, TakesLiveAt s.sock p
  | _ => True

structure RxRun.Accounted (s : RxRun) : Prop where
  sock : VioSock.Accounted s.sock
  fresh : ∀ r ∈ s.sock.rxCbList.filterMap RxCb.request, r < s.nextId

section Runs

variable {s t : RxRun} {i : Nat}

/-- What a run has accounted for is a matter of its socket and of the next number. -/
theorem RxRun.Accounted.same (acc : s.Accounted) (sock : t.sock = s.sock)
    (more : s.nextId ≤ t.nextId) : t.Accounted := by
  refine ⟨by rw [sock]; exact acc.sock, ?_⟩
  rw [sock]
  exact fun r member => lt_of_lt_of_le (acc.fresh r member) more

theorem scanIf_sock (b : Bool) : (scanIf b s).sock = s.sock ∧ (scanIf b s).nextId = s.nextId := by
  cases b with
  | true | false => exact ⟨rfl, rfl⟩

theorem RxRun.Accounted.scanIf (acc : s.Accounted) (b : Bool) : (scanIf b s).Accounted :=
  acc.same (scanIf_sock b).1 (le_of_eq (scanIf_sock b).2.symm)

theorem readAdvance_sock (c : ReadChoice) (p : RxPoint) : (readAdvance s i c p).nextId = s.nextId ∧
    ((readAdvance s i c p).sock = s.sock ∨
      ∃ req, p = .holding req ∧ (readAdvance s i c p).sock = (readLocked s.sock req c).1) := by
  cases p with
  | retrieving =>
    rw [readAdvance]
    split
    · exact ⟨rfl, .inl rfl⟩
    · exact ⟨rfl, .inl rfl⟩
  | holding req =>
    have both : (readAdvance s i c (.holding req)).nextId = s.nextId ∧
        (readAdvance s i c (.holding req)).sock = (readLocked s.sock req c).1 := by
      rw [readAdvance]
      generalize readLocked s.sock req c = after
      obtain ⟨_, ends, _⟩ := after
      cases ends with
      | requeued | completed => exact ⟨rfl, rfl⟩
    exact ⟨both.1, .inr ⟨req, rfl, both.2⟩⟩
  | done => exact ⟨rfl, .inl rfl⟩

theorem RxRun.Accounted.advance (acc : s.Accounted) (c : ReadChoice) {p : RxPoint}
    (live : TakesLiveAt s.sock p) : (readAdvance s i c p).Accounted := by
  obtain ⟨next, same | ⟨req, rfl, locked⟩⟩ := @readAdvance_sock s i c p
  · exact acc.same same (le_of_eq next.symm)
  constructor
  · rw [locked]
    rcases readLocked_eq s.sock req c with ⟨_, sock, _⟩ | ⟨data, _, _⟩
    · rw [sock]
      exact acc.sock
    · exact acc.sock.readLocked (fun plain => live plain data) c
  · rw [next, locked]
    exact fun r member => acc.fresh r (requests_readLocked s.sock req c member)

/-- Every effect keeps the counters. -/
theorem RxRun.Accounted.effect (acc : s.Accounted) {op : RxOp} (counted : RxCounted s op)
    (effect : RxEffect s op t) : t.Accounted := by
  cases effect with
  | quiet => exact acc
  | packet kept move =>
    refine RxRun.Accounted.scanIf ?_ _
    refine ⟨acc.sock.packet (counted kept) move, ?_⟩
    rw [requests_packet move]
    exact acc.fresh
  | write length _ marked eq =>
    subst eq
    refine RxRun.Accounted.scanIf ⟨?_, ?_⟩ _
    · exact acc.sock.write counted.1 counted.2 _ fun old => lt_irrefl _ (acc.fresh _ old)
    intro r member
    rcases mem_append.mp (requests_write s.sock s.nextId length _ marked member) with
      old | new
    · exact Nat.lt_succ_of_lt (acc.fresh r old)
    · rw [mem_singleton.mp new]
      exact Nat.lt_succ_self _
  | read =>
    refine RxRun.Accounted.scanIf ?_ _
    exact acc.same rfl (Nat.le_succ _)
  | scan => exact acc.scanIf true
  | retrieve c here | hold c here => exact acc.advance c (counted _ here)
  | cancel request =>
    refine ⟨acc.sock.cancelWrite request, ?_⟩
    simp only [cancelWrite]
    split
    · exact acc.fresh
    · exact acc.fresh
  | cancelRoutine request =>
    exact ⟨acc.sock.cancelRoutine request,
      fun r member => acc.fresh r (requests_cancelRoutine s.sock request member)⟩
  | endRead => exact acc.same rfl le_rfl

theorem accounted_rxStart (bufAlloc : BitVec 32) : (rxStart bufAlloc).Accounted := by
  refine ⟨⟨rfl, Nat.zero_le _, ⟨0, rfl, rfl⟩, ?_, rfl⟩, ?_⟩
  · exact nodup_nil
  · nofun

end Runs

/-! ## The drain loop ends -/

section Drain

variable {s} {choose : Nat → ReadChoice}

def Shut (choose : Nat → ReadChoice) : Prop := ∀ i, (choose i).validate ≠ .success

theorem takesLive_of_quiet (quiet : s.cancels = []) (req : ReadReq) : TakesLive s req := by
  intro cb _
  rw [cancelling]
  split
  · rfl
  · rw [quiet]
    rfl

theorem readNoData_shut (req : ReadReq) {c : ReadChoice} (shut : c.validate ≠ .success) :
    ∃ status, readNoData req c = .completed req status := by
  rw [readNoData]
  repeat' split
  all_goals exact ⟨_, rfl⟩

theorem cancels_readLocked (s : RxSocket) (req : ReadReq) (c : ReadChoice) :
    (readLocked s req c).1.cancels = s.cancels := by
  refine readLocked_keeps (J := fun t => t.cancels = s.cancels) rfl (fun _ => rfl) ?_ ?_ req c
  · intro t cb n rest same
    simp only [finishCb]
    split
    · exact same
    · exact same
  · exact fun _ _ _ _ _ same => same

/-- What a call leaves: the accounts are in order, and it has served a read, or has emptied the
socket. -/
structure Served (queue : List ReadReq) (after : RxSocket × List ReadReq) : Prop where
  acc : Accounted after.1
  quiet : after.1.cancels = []
  less : after.2.length < queue.length ∨
    (after.2.length = queue.length ∧ (queue = [] ∨ after.1.rxBytes = 0))

theorem readProcessDequeueCb_served (acc : Accounted s) (quiet : s.cancels = [])
    (queue : List ReadReq) (shut : Shut choose) :
    Served queue (readProcessDequeueCb choose s queue) := by
  induction queue generalizing s choose with
  | nil => exact ⟨acc, quiet, .inr ⟨rfl, .inl rfl⟩⟩
  | cons req _ ih =>
    have kept := acc.readLocked (fun _ => takesLive_of_quiet quiet req) (choose 0)
    have still := (cancels_readLocked s req (choose 0)).trans quiet
    rw [readProcessDequeueCb]
    rcases readLocked_cases s req (choose 0) with ⟨_, same⟩ | ⟨_, status, same⟩ |
      ⟨_, room, plain, _, same⟩
    · obtain ⟨_, ends⟩ := readNoData_shut req (shut 0)
      rw [ends] at same
      rw [same]
      exact ⟨acc, quiet, .inl (Nat.lt_succ_self _)⟩
    · rw [same] at kept still ⊢
      have later := @ih _ (fun i => choose (i + 1)) kept still fun i => shut (i + 1)
      refine ⟨later.acc, later.quiet, .inl ?_⟩
      rcases later.less with less | ⟨same, _⟩
      · exact Nat.lt_succ_of_lt less
      · exact Nat.lt_succ_of_le (le_of_eq same)
    · have empty := copyCbs_room plain s.rxCbList room
      rw [same] at kept still ⊢
      refine ⟨kept, still, .inr ⟨rfl, .inr ?_⟩⟩
      have counted := kept.counted
      rw [empty] at counted
      exact BitVec.eq_of_toNat_eq counted

theorem readProcessDequeueCb_empty (unread : s.rxBytes = 0) (req : ReadReq) (rest : List ReadReq)
    (shut : Shut choose) : readProcessDequeueCb choose s (req :: rest) = (s, rest) := by
  obtain ⟨_, ends⟩ := readNoData_shut req (shut 0)
  rw [readProcessDequeueCb, readLocked, if_pos unread, ends]

def drainTurns (s : RxSocket) (queue : List ReadReq) : Nat :=
  2 * queue.length + if s.rxBytes = 0 then 0 else 1

theorem drainReads_ends {choose : Nat → Nat → ReadChoice} (shut : ∀ n, Shut (choose n)) (n : Nat)
    (acc : Accounted s) (quiet : s.cancels = []) (queue : List ReadReq)
    (enough : drainTurns s queue ≤ n) : (drainReads choose n s queue).isSome = true := by
  induction n generalizing s queue with
  | zero =>
    cases queue with
    | nil => rfl
    | cons => simp [drainTurns] at enough
  | succ n ih =>
    cases queue with
    | nil => rfl
    | cons req rest =>
      have turn : drainReads choose (n + 1) s (req :: rest) =
          drainReads choose n (readProcessDequeueCb (choose n) s (req :: rest)).1
            (readProcessDequeueCb (choose n) s (req :: rest)).2 := by
        rw [drainReads]
      rw [turn]
      by_cases unread : s.rxBytes = 0
      · rw [readProcessDequeueCb_empty unread req rest (shut n)]
        refine ih acc quiet rest ?_
        simp only [drainTurns, length_cons] at enough ⊢
        omega
      · have served := readProcessDequeueCb_served acc quiet (req :: rest) (shut n)
        rw [drainTurns, if_neg unread] at enough
        generalize readProcessDequeueCb (choose n) s (req :: rest) = after at served ⊢
        refine ih served.acc served.quiet after.2 ?_
        rcases served.less with _ | ⟨_, no | empty⟩
        · rw [drainTurns]
          split <;> omega
        · cases no
        · rw [drainTurns, if_pos empty]
          omega

end Drain

section Results

variable {s : RxRun}

end Results

/-! ## A socket that believes to have data -/

section Stuck

def shutDown : ReadChoice :=
  { nonBlocking := false, connected := true, validate := .remoteDisconnect, expired := false
    requeue := .success }

def ReadReq.untouched (req : ReadReq) : Bool :=
  !req.peek && req.freeBytes != 0 && req.bufferLen == req.freeBytes

/-- Where there should be data and is none, a read goes back to the queue, and the drain loop
runs forever. -/
theorem drainReads_stuck {s : RxSocket} {req : ReadReq} {rest : List ReadReq}
    (data : s.rxBytes ≠ 0) (empty : s.rxCbList = []) (waits : req.untouched = true) (n : Nat) :
    drainReads (fun _ _ => shutDown) n s (req :: rest) = none := by
  simp only [ReadReq.untouched, Bool.and_eq_true, Bool.not_eq_true', bne_iff_ne,
    beq_iff_eq] at waits
  obtain ⟨⟨plain, room⟩, whole⟩ := waits
  have more : ¬(req.freeBytes = 0 ∨ req.peek = true) := by
    rw [plain]
    exact fun h => h.elim room nofun
  have same : { s with rxCbList := [] } = s := by
    rw [← empty]
  have turn : readProcessDequeueCb (fun _ => shutDown) s (req :: rest) = (s, req :: rest) := by
    rw [readProcessDequeueCb, readLocked, if_neg data, empty, copyCbs, same]
    dsimp only
    rw [if_neg more, if_pos (.inl whole)]
    rfl
  induction n with
  | zero => rfl
  | succ n ih =>
    rw [drainReads, turn]
    exact ih

end Stuck

/-! ## Fixed runs -/

section Fixed

instance (req : ReadReq) : Decidable (TakesLive s req) :=
  inferInstanceAs (Decidable (∀ cb ∈ wholeCbs req.freeBytes s.rxCbList, cancelling s cb = false))

instance (n : BitVec 32) : Decidable (NoWrap s n) :=
  inferInstanceAs (Decidable (_ → _))

instance : (p : RxPoint) → Decidable (TakesLiveAt s p)
  | .holding req =>
    inferInstanceAs (Decidable (req.peek = false → s.rxBytes ≠ 0 → TakesLive s req))
  | .retrieving | .done => isTrue trivial

instance (s : RxRun) : (op : RxOp) → Decidable (RxCounted s op)
  | .packet .. | .write .. | .read .. | .scan | .step .. | .cancel _ | .cancelRoutine _
  | .endRead .. => by unfold RxCounted; infer_instance

end Fixed

end KvmGuestDrivers.VioSock

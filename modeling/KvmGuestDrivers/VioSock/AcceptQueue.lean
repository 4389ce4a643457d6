/-
# VioSock.AcceptQueue -- connections that wait to be accepted

A connection request for a listening socket is counted in `AcceptPended` and put into
`AcceptList`, unless the counter says that it is the only one and an accept request is pended,
which is then completed with it.  An accept takes the head of the list, or pends its request when
it finds the list empty.  The counter is changed by interlocked operations, the list and the
pended request under `RxLock`, in separate steps.
-/
import KvmGuestDrivers.Theory.Calls
import KvmGuestDrivers.Theory.Transition

namespace KvmGuestDrivers.VioSock

set_option autoImplicit false

open Theory List

/-! ## The listening socket -/

/-- `VIOSOCK_ACCEPT_ENTRY`; `id` stands for its address. -/
structure AcceptEntry where
  id : Nat
  dstCid : BitVec 32
  dstPort : BitVec 32
  loopback : Bool
  deriving DecidableEq

structure ListenSocket where
  acceptPended : Int
  acceptList : List AcceptEntry
  pendedRequest : Option Nat
  locked : Bool
  /-- The connections that were put into the list, in that order. -/
  queued : List Nat
  /-- The connections that accept calls took from the list, in that order. -/
  taken : List (Nat × Nat)
  /-- The connections that were handed to a pended request. -/
  direct : List (Nat × Nat)

inductive AcceptPoint where
  /-- A connection request, before the counter is incremented. -/
  | counting (e : AcceptEntry)
  /-- The list is full, and the counter is to be decremented. -/
  | refusing
  /-- The first connection, before `VIOSockPendedRequestGetLocked`. -/
  | asking (e : AcceptEntry)
  /-- It has got a request, and the counter is to be decremented. -/
  | serving (e : AcceptEntry) (request : Nat)
  | storing (e : AcceptEntry)
  | failing
  | inserting (e : AcceptEntry)
  /-- `VIOSockAcceptRemovePkt`, before `RxLock` is acquired. -/
  | removing (srcCid : BitVec 64) (srcPort : BitVec 32)
  /-- The entry is removed, and `RxLock` is held. -/
  | removed
  /-- `VIOSockAcceptDequeue`, before it looks at the list. -/
  | dequeuing (request : Nat)
  | taking (request : Nat) (e : AcceptEntry)
  /-- Before `VIOSockLoopbackAcceptDequeue`. -/
  | linking (request : Nat) (e : AcceptEntry)
  /-- Before `PendedRequest` is tested, without the lock. -/
  | testing (request : Nat)
  /-- `VIOSockPendedRequestSetEx`, before it allocates the context of the request. -/
  | pending (request : Nat)
  /-- Before `WdfRequestMarkCancelableEx`. -/
  | marking (request : Nat)
  | done
  deriving DecidableEq

/-- The entry of a connection request of a peer. -/
def acceptEnqueuePkt (id : Nat) (srcCid : BitVec 64) (srcPort : BitVec 32) : AcceptEntry :=
  { id := id, dstCid := srcCid.setWidth 32, dstPort := srcPort, loopback := false }

def loopbackAcceptEnqueue (id : Nat) (guestCid : BitVec 32) (srcPort : BitVec 32) : AcceptEntry :=
  { id := id, dstCid := guestCid, dstPort := srcPort, loopback := true }

/-- The test of `VIOSockAcceptRemovePkt`. -/
def resets (srcCid : BitVec 64) (srcPort : BitVec 32) (e : AcceptEntry) : Bool :=
  e.dstCid.setWidth 64 = srcCid ∧ e.dstPort = srcPort

def countDown (s : ListenSocket) : ListenSocket :=
  { s with acceptPended := long (s.acceptPended - 1) }

/-- A step; `ok` is the outcome of the call that is made there, if there is one. -/
def acceptAdvance (backlog : Int) (s : ListenSocket) (ok : Bool) :
    AcceptPoint → ListenSocket × AcceptPoint
  | .counting e =>
    let lAcceptPended := long (s.acceptPended + 1)
    ({ s with acceptPended := lAcceptPended },
      if backlog < lAcceptPended then .refusing
      else if lAcceptPended = 1 then .asking e
      else .storing e)
  | .refusing => (countDown s, .done)
  | .asking e =>
    if s.locked then (s, .asking e)
    else
      match s.pendedRequest with
      | some request => ({ s with pendedRequest := none }, .serving e request)
      | none => (s, .storing e)
  | .serving e request =>
    (countDown { s with direct := s.direct ++ [(e.id, request)] }, .done)
  | .storing e => (s, if ok then .inserting e else .failing)
  | .failing => (countDown s, .done)
  | .inserting e =>
    if s.locked then (s, .inserting e)
    else
      ({ s with acceptList := s.acceptList ++ [e], queued := s.queued ++ [e.id] }, .done)
  | .removing srcCid srcPort =>
    if s.locked then (s, .removing srcCid srcPort)
    else if s.acceptList.any (resets srcCid srcPort) then
      ({ s with acceptList := s.acceptList.eraseP (resets srcCid srcPort), locked := true },
        .removed)
    else (s, .done)
  | .removed => (countDown { s with locked := false }, .done)
  | .dequeuing request =>
    if s.locked then (s, .dequeuing request)
    else
      match s.acceptList with
      | [] => (s, .testing request)
      | e :: rest =>
        ({ s with acceptList := rest, taken := s.taken ++ [(e.id, request)] },
          .taking request e)
  | .taking request e => (countDown s, if e.loopback then .linking request e else .done)
  -- a connection that has been given up is skipped
  | .linking request _ => (s, if ok then .done else .dequeuing request)
  | .testing request => (s, if s.pendedRequest = none then .pending request else .done)
  | .pending request => (s, if ok then .marking request else .done)
  -- a request that is not marked has taken the place of one that was pended
  | .marking request =>
    if s.locked then (s, .marking request)
    else ({ s with pendedRequest := if ok then some request else none }, .done)
  | .done => (s, .done)

/-! ## Runs -/

structure AcceptRun where
  sock : ListenSocket
  calls : List AcceptPoint
  nextId : Nat

inductive AcceptOp where
  | connect (srcCid : BitVec 64) (srcPort : BitVec 32)
  | loopback (guestCid : BitVec 32) (srcPort : BitVec 32)
  | reset (srcCid : BitVec 64) (srcPort : BitVec 32)
  /-- `VIOSockAccept` on a blocking socket. -/
  | accept
  | step (i : Nat) (ok : Bool)

variable (s : AcceptRun)

def callAccept (p : AcceptPoint) : AcceptRun :=
  { s with calls := s.calls ++ [p], nextId := s.nextId + 1 }

def acceptStep (backlog : Int) (s : AcceptRun) : AcceptOp → Except Empty (AcceptRun × Unit)
  | .connect srcCid srcPort =>
    .ok (callAccept s (.counting (acceptEnqueuePkt s.nextId srcCid srcPort)), ())
  | .loopback guestCid srcPort =>
    .ok (callAccept s (.counting (loopbackAcceptEnqueue s.nextId guestCid srcPort)), ())
  | .reset srcCid srcPort => .ok (callAccept s (.removing srcCid srcPort), ())
  | .accept => .ok (callAccept s (.dequeuing s.nextId), ())
  | .step i ok =>
    match s.calls[i]? with
    | none => .ok (s, ())
    | some p =>
      let (sock, q) := acceptAdvance backlog s.sock ok p
      .ok ({ s with sock := sock, calls := s.calls.set i q }, ())

def acceptStart : AcceptRun :=
  { sock :=
      { acceptPended := 0, acceptList := [], pendedRequest := none, locked := false
        queued := [], taken := [], direct := [] }
    calls := []
    nextId := 0 }

def AcceptIdle : Prop := ∀ p ∈ s.calls, p = .done

/-! ## The invariant -/

/-- The call is counted in `AcceptPended`, beside the entries of the list. -/
def AcceptPoint.counted : AcceptPoint → Bool
  | .refusing | .asking _ | .serving .. | .storing _ | .failing | .inserting _ | .removed
  | .taking .. => true
  | _ => false

/-- The call has looked for a pended request in vain, or did not have to look. -/
def AcceptPoint.stores : AcceptPoint → Bool
  | .storing _ | .inserting _ => true
  | _ => false

def AcceptPoint.asks : AcceptPoint → Bool
  | .asking _ => true
  | _ => false

/-- The connections that a call is about to hand over. -/
def AcceptPoint.hands : AcceptPoint → List Nat
  | .counting e | .asking e | .serving e _ | .storing e | .inserting e => [e.id]
  | _ => []

/-- Nothing is queued, and the next connection will look for the request, or be refused. -/
structure AcceptClear (backlog : Int) (sock : ListenSocket) (calls : List AcceptPoint) : Prop where
  empty : sock.acceptList = []
  stores : ∀ p ∈ calls, p.stores = false
  next : sock.acceptPended = 0 ∨ backlog < 1

/-- What the counter counts, the limit, who is going to look at the pended request, and the order in
which the list was filled. -/
structure AcceptInv (backlog : Int) (s : AcceptRun) : Prop where
  counted : s.sock.acceptPended =
    (s.sock.acceptList.length + s.calls.countP AcceptPoint.counted : Nat)
  range : s.sock.acceptPended < 2 ^ 31
  limit : (s.sock.acceptList.length + s.calls.countP AcceptPoint.asks +
    s.calls.countP AcceptPoint.stores : Nat) ≤ max backlog 0
  waiting : s.sock.pendedRequest ≠ none →
    (∃ p ∈ s.calls, p.asks = true) ∨ AcceptClear backlog s.sock s.calls
  order : (s.sock.taken.map Prod.fst ++ s.sock.acceptList.map AcceptEntry.id).Sublist s.sock.queued
  once : ∀ id, s.sock.queued.count id + (s.sock.direct.map Prod.fst).count id +
    (s.calls.flatMap AcceptPoint.hands).count id ≤ if id < s.nextId then 1 else 0

/-- A request is pended only if nobody is counted, or somebody is still going to look for it; and
the counter does not wrap. -/
def AcceptRegular : AcceptOp → Prop
  | .step i ok => ∀ p ∈ s.calls[i]?,
      match p with
      | .counting _ => s.sock.acceptPended + 1 < 2 ^ 31
      | .marking _ => ok = true → s.sock.locked = false →
          (∃ p ∈ s.calls, p.asks = true) ∨ s.sock.acceptPended = 0
      | _ => True
  | _ => True

section Steps

variable {backlog : Int} {s} {i request : Nat} {p q : AcceptPoint} {sock : ListenSocket}

theorem countP_asks_stores_le (calls : List AcceptPoint) :
    calls.countP AcceptPoint.asks + calls.countP AcceptPoint.stores ≤
      calls.countP AcceptPoint.counted := by
  induction calls with
  | nil => simp
  | cons p =>
    simp only [countP_cons]
    cases p <;> simp [AcceptPoint.asks, AcceptPoint.stores, AcceptPoint.counted] <;> omega

theorem AcceptInv.moved (inv : AcceptInv backlog s) (here : s.calls[i]? = some p)
    (counted : sock.acceptPended + (s.sock.acceptList.length + p.counted.toNat : Nat) =
      s.sock.acceptPended + (sock.acceptList.length + q.counted.toNat : Nat))
    (range : sock.acceptPended < 2 ^ 31)
    (limit : sock.acceptList.length + q.asks.toNat + q.stores.toNat ≤
        s.sock.acceptList.length + p.asks.toNat + p.stores.toNat ∨
      (sock.acceptPended ≤ backlog ∧ sock.acceptList.length = s.sock.acceptList.length))
    (waiting : sock.pendedRequest ≠ none →
      (∃ r ∈ s.calls.set i q, r.asks = true) ∨ AcceptClear backlog sock (s.calls.set i q))
    (order : (sock.taken.map Prod.fst ++ sock.acceptList.map AcceptEntry.id).Sublist sock.queued)
    (once : ∀ id, sock.queued.count id + (sock.direct.map Prod.fst).count id + q.hands.count id ≤
      s.sock.queued.count id + (s.sock.direct.map Prod.fst).count id + p.hands.count id) :
    AcceptInv backlog { s with sock := sock, calls := s.calls.set i q } := by
  have movedCounted := countP_move here q AcceptPoint.counted
  have movedAsks := countP_move here q AcceptPoint.asks
  have movedStores := countP_move here q AcceptPoint.stores
  have before := inv.counted
  have total : sock.acceptPended =
      (sock.acceptList.length + (s.calls.set i q).countP AcceptPoint.counted : Nat) := by
    omega
  refine ⟨total, range, ?_, waiting, order, fun id => ?_⟩
  · show ((sock.acceptList.length + (s.calls.set i q).countP AcceptPoint.asks +
      (s.calls.set i q).countP AcceptPoint.stores : Nat) : Int) ≤ max backlog 0
    have old := inv.limit
    have bound := countP_asks_stores_le (s.calls.set i q)
    omega
  · have hands := count_flatMap_move here q AcceptPoint.hands id
    have old := inv.once id
    have new := once id
    dsimp only
    omega

def AcceptRun.advanced (s : AcceptRun) (backlog : Int) (i : Nat) (ok : Bool) (p : AcceptPoint) :
    AcceptRun :=
  { s with
    sock := (acceptAdvance backlog s.sock ok p).1
    calls := s.calls.set i (acceptAdvance backlog s.sock ok p).2 }

theorem AcceptInv.nonneg (inv : AcceptInv backlog s) : 0 ≤ s.sock.acceptPended := by
  rw [inv.counted]
  exact Int.natCast_nonneg _

theorem AcceptInv.pos (inv : AcceptInv backlog s) (here : s.calls[i]? = some p)
    (counted : p.counted = true) : 1 ≤ s.sock.acceptPended := by
  have positive := countP_pos_of_getElem? here AcceptPoint.counted counted
  rw [inv.counted]
  omega

theorem AcceptClear.moved (clear : AcceptClear backlog s.sock s.calls)
    (empty : sock.acceptList = []) (stores : q.stores = false)
    (next : sock.acceptPended = 0 ∨ backlog < 1) :
    AcceptClear backlog sock (s.calls.set i q) := by
  exact ⟨empty, forall_mem_set clear.stores stores, next⟩

section

variable (inv : AcceptInv backlog s) {e : AcceptEntry} {ok : Bool}

include inv

section

variable (here : s.calls[i]? = some p)

include here

theorem AcceptInv.keepWaiting
    (same : sock.pendedRequest = s.sock.pendedRequest) (asks : p.asks = false)
    (clear : AcceptClear backlog s.sock s.calls →
      q.asks = true ∨ AcceptClear backlog sock (s.calls.set i q)) :
    sock.pendedRequest ≠ none →
      (∃ r ∈ s.calls.set i q, r.asks = true) ∨ AcceptClear backlog sock (s.calls.set i q) := by
  intro pended
  rw [same] at pended
  rcases inv.waiting pended with somebody | nobody
  · left
    refine exists_mem_move here (fun own => ?_) somebody
    rw [asks] at own
    cases own
  · refine (clear nobody).imp_left fun now => ⟨q, ?_, now⟩
    exact mem_of_getElem? (getElem?_moved here q)

theorem AcceptInv.down (counted : p.counted = true)
    (asks : p.asks = false) (after : q.counted = false ∧ q.asks = false ∧ q.stores = false)
    (number : sock.acceptPended = s.sock.acceptPended) (list : sock.acceptList = s.sock.acceptList)
    (pended : sock.pendedRequest = s.sock.pendedRequest) (taken : sock.taken = s.sock.taken)
    (queued : sock.queued = s.sock.queued)
    (once : ∀ id, (sock.direct.map Prod.fst).count id + q.hands.count id ≤
      (s.sock.direct.map Prod.fst).count id + p.hands.count id) :
    AcceptInv backlog { s with sock := countDown sock, calls := s.calls.set i q } := by
  have pos := inv.pos here counted
  have range := inv.range
  have less : (countDown sock).acceptPended = s.sock.acceptPended - 1 := by
    rw [countDown, number]
    exact long_eq (by omega) (by omega)
  refine inv.moved here ?_ ?_ (.inl ?_) ?_ ?_ fun id => ?_
  · rw [less, counted, after.1]
    simp only [countDown, list, Bool.toNat_true, Bool.toNat_false]
    omega
  · omega
  · rw [after.2.1, after.2.2]
    simp only [countDown, list, Bool.toNat_false]
    omega
  · refine inv.keepWaiting here pended asks fun clear => .inr ?_
    refine clear.moved ?_ after.2.2 ?_
    · simp only [countDown, list]
      exact clear.empty
    · rcases clear.next with _ | small
      · omega
      · exact .inr small
  · simp only [countDown, taken, list, queued]
    exact inv.order
  · have once := once id
    simp only [countDown, queued]
    omega

theorem AcceptInv.same (asks : p.asks = false)
    (counted : q.counted = p.counted) (stores : q.asks.toNat + q.stores.toNat ≤ p.stores.toNat)
    (once : ∀ id, q.hands.count id ≤ p.hands.count id) :
    AcceptInv backlog { s with calls := s.calls.set i q } := by
  refine inv.moved here ?_ inv.range (.inl ?_) ?_ inv.order fun id => ?_
  · rw [counted]
  · omega
  · refine inv.keepWaiting here rfl asks fun clear => .inr ?_
    have quiet := clear.stores p (mem_of_getElem? here)
    refine clear.moved clear.empty ?_ clear.next
    rw [quiet] at stores
    cases now : q.stores with
    | false => rfl
    | true =>
      rw [now] at stores
      simp at stores
  · have once := once id
    omega

theorem AcceptInv.stay : AcceptInv backlog { s with calls := s.calls.set i p } := by
  rw [set_same here]
  exact inv

end

namespace AcceptInv

/-- The counter goes up before the connection is stored. -/
theorem count (here : s.calls[i]? = some (.counting e)) (room : s.sock.acceptPended + 1 < 2 ^ 31)
    (ok : Bool) : AcceptInv backlog (s.advanced backlog i ok (.counting e)) := by
  have nonneg := inv.nonneg
  have number : long (s.sock.acceptPended + 1) = s.sock.acceptPended + 1 := long_eq (by omega) room
  simp only [AcceptRun.advanced, acceptAdvance, number]
  by_cases full : backlog < s.sock.acceptPended + 1
  · rw [if_pos full]
    refine inv.moved here ?_ room (.inl (by simp [AcceptPoint.asks, AcceptPoint.stores])) ?_
      inv.order fun id => ?_
    · simp [AcceptPoint.counted]
      omega
    · refine inv.keepWaiting here rfl rfl fun clear => .inr ?_
      refine clear.moved clear.empty rfl (.inr ?_)
      rcases clear.next with zero | small
      · omega
      · exact small
    · simp [AcceptPoint.hands]
  · rw [if_neg full]
    by_cases first : s.sock.acceptPended + 1 = 1
    · rw [if_pos first]
      refine inv.moved here ?_ room (.inr ⟨Int.not_lt.mp full, rfl⟩) ?_ inv.order fun id => ?_
      · simp [AcceptPoint.counted]
        omega
      · exact inv.keepWaiting here rfl rfl fun _ => .inl rfl
      · exact le_rfl
    · rw [if_neg first]
      refine inv.moved here ?_ room (.inr ⟨Int.not_lt.mp full, rfl⟩) ?_ inv.order fun id => ?_
      · simp [AcceptPoint.counted]
        omega
      · refine inv.keepWaiting here rfl rfl fun clear => ?_
        rcases clear.next with zero | small <;> omega
      · exact le_rfl

theorem ask (here : s.calls[i]? = some (.asking e)) (ok : Bool) :
    AcceptInv backlog (s.advanced backlog i ok (.asking e)) := by
  rw [AcceptRun.advanced, acceptAdvance]
  split
  · exact inv.stay here
  cases pended : s.sock.pendedRequest with
  | some =>
    refine inv.moved here rfl inv.range (.inl ?_) (fun pends => absurd rfl pends) inv.order
      fun id => le_rfl
    simp [AcceptPoint.asks, AcceptPoint.stores]
  | none =>
    refine inv.moved here rfl inv.range (.inl ?_) (fun pends => absurd pended pends) inv.order
      fun id => le_rfl
    simp [AcceptPoint.asks, AcceptPoint.stores]

theorem insert (here : s.calls[i]? = some (.inserting e)) (ok : Bool) :
    AcceptInv backlog (s.advanced backlog i ok (.inserting e)) := by
  rw [AcceptRun.advanced, acceptAdvance]
  split
  · exact inv.stay here
  refine inv.moved here ?_ inv.range (.inl ?_) ?_ ?_ fun id => ?_
  · simp [AcceptPoint.counted]
  · simp [AcceptPoint.asks, AcceptPoint.stores]
  · refine inv.keepWaiting here rfl rfl fun clear => ?_
    cases clear.stores _ (mem_of_getElem? here)
  · have appended := inv.order.append (List.Sublist.refl [e.id])
    simpa using appended
  · simp only [count_append, AcceptPoint.hands, count_nil]
    omega

theorem remove {srcCid : BitVec 64} {srcPort : BitVec 32}
    (here : s.calls[i]? = some (.removing srcCid srcPort)) (ok : Bool) :
    AcceptInv backlog (s.advanced backlog i ok (.removing srcCid srcPort)) := by
  rw [AcceptRun.advanced, acceptAdvance]
  split
  · exact inv.stay here
  split
  · rename_i found
    obtain ⟨e, member, fits⟩ := any_eq_true.mp found
    have shorter := length_eraseP_of_mem member fits
    have positive := length_pos_of_mem member
    refine inv.moved here ?_ inv.range (.inl ?_) ?_ ?_ fun id => le_rfl
    · simp only [AcceptPoint.counted, Bool.toNat_false, Bool.toNat_true]
      omega
    · simp only [AcceptPoint.asks, AcceptPoint.stores]
      omega
    · refine inv.keepWaiting here rfl rfl fun clear => ?_
      rw [clear.empty] at member
      cases member
    · refine List.Sublist.trans ?_ inv.order
      exact (List.Sublist.refl _).append (eraseP_sublist.map _)
  · exact inv.same here rfl rfl (by simp [AcceptPoint.asks, AcceptPoint.stores]) fun id => le_rfl

theorem dequeue (here : s.calls[i]? = some (.dequeuing request)) (ok : Bool) :
    AcceptInv backlog (s.advanced backlog i ok (.dequeuing request)) := by
  rw [AcceptRun.advanced, acceptAdvance]
  split
  · exact inv.stay here
  cases list : s.sock.acceptList with
  | nil =>
    exact inv.same here rfl rfl (by simp [AcceptPoint.asks, AcceptPoint.stores]) fun id => le_rfl
  | cons =>
    refine inv.moved here ?_ inv.range (.inl ?_) ?_ ?_ fun id => le_rfl
    · simp [list, AcceptPoint.counted]
    · simp [list, AcceptPoint.asks, AcceptPoint.stores]
    · refine inv.keepWaiting here rfl rfl fun clear => ?_
      rw [clear.empty] at list
      cases list
    · have order := inv.order
      rw [list] at order
      simpa using order

/-- The request is pended while nobody is counted, or somebody will look for it. -/
theorem mark (here : s.calls[i]? = some (.marking request))
    (regular : ok = true → s.sock.locked = false →
      (∃ p ∈ s.calls, p.asks = true) ∨ s.sock.acceptPended = 0) :
    AcceptInv backlog (s.advanced backlog i ok (.marking request)) := by
  rw [AcceptRun.advanced, acceptAdvance]
  split
  · exact inv.stay here
  rename_i free
  refine inv.moved here rfl inv.range (.inl ?_) (fun pends => ?_) inv.order fun id => le_rfl
  · simp [AcceptPoint.asks, AcceptPoint.stores]
  cases ok with
  | false => exact absurd rfl pends
  | true =>
    rcases regular rfl (by simpa using free) with somebody | zero
    · exact .inl (exists_mem_move here nofun somebody)
    right
    have total := inv.counted
    have few := countP_asks_stores_le s.calls
    have nobody : s.calls.countP AcceptPoint.stores = 0 := by omega
    have empty : s.sock.acceptList = [] := length_eq_zero_iff.mp (by omega)
    refine ⟨empty, forall_mem_set (fun r old => ?_) rfl, .inl zero⟩
    simpa using countP_eq_zero.mp nobody r old

theorem call (here : s.calls[i]? = some p) (regular : AcceptRegular s (.step i ok)) :
    AcceptInv backlog (s.advanced backlog i ok p) := by
  have regular := regular p here
  cases p with
  | counting => exact inv.count here regular ok
  | asking => exact inv.ask here ok
  | inserting => exact inv.insert here ok
  | removing => exact inv.remove here ok
  | dequeuing => exact inv.dequeue here ok
  | marking => exact inv.mark here regular
  | refusing | failing | removed =>
    exact inv.down here rfl rfl ⟨rfl, rfl, rfl⟩ rfl rfl rfl rfl rfl fun id => le_rfl
  | serving =>
    refine inv.down here rfl rfl ⟨rfl, rfl, rfl⟩ rfl rfl rfl rfl rfl fun id => ?_
    simp [AcceptPoint.hands, acceptAdvance]
  | taking =>
    simp only [AcceptRun.advanced, acceptAdvance]
    split <;> exact inv.down here rfl rfl ⟨rfl, rfl, rfl⟩ rfl rfl rfl rfl rfl fun id => le_rfl
  | storing =>
    cases ok with
    | true => exact inv.same here rfl rfl le_rfl fun id => le_rfl
    | false => exact inv.same here rfl rfl (Nat.zero_le _) fun id => Nat.zero_le _
  | linking | pending =>
    cases ok <;> exact inv.same here rfl rfl le_rfl fun id => le_rfl
  | testing =>
    simp only [AcceptRun.advanced, acceptAdvance]
    split <;> exact inv.same here rfl rfl le_rfl fun id => le_rfl
  | done => exact inv.stay here

theorem start (counted : p.counted = false) (asks : p.asks = false)
    (stores : p.stores = false) (new : p.hands = [] ∨ p.hands = [s.nextId]) :
    AcceptInv backlog (callAccept s p) := by
  have sameCounted : (s.calls ++ [p]).countP AcceptPoint.counted = _ := countP_start p _
  have sameAsks : (s.calls ++ [p]).countP AcceptPoint.asks = _ := countP_start p _
  have sameStores : (s.calls ++ [p]).countP AcceptPoint.stores = _ := countP_start p _
  rw [counted] at sameCounted
  rw [asks] at sameAsks
  rw [stores] at sameStores
  refine ⟨?_, inv.range, ?_, fun pended => ?_, inv.order, fun id => ?_⟩
  · simp only [callAccept, sameCounted]
    exact inv.counted
  · simp only [callAccept, sameAsks, sameStores]
    exact inv.limit
  · rcases inv.waiting pended with ⟨r, member, asks⟩ | clear
    · exact .inl ⟨r, mem_append_left _ member, asks⟩
    · exact .inr ⟨clear.empty, forall_mem_concat clear.stores stores, clear.next⟩
  · have once := inv.once id
    have total : ((callAccept s p).calls.flatMap AcceptPoint.hands).count id =
        (s.calls.flatMap AcceptPoint.hands).count id + p.hands.count id := by
      simp [callAccept]
    rw [total]
    show s.sock.queued.count id + (s.sock.direct.map Prod.fst).count id + _ ≤
      if id < s.nextId + 1 then 1 else 0
    by_cases same : id = s.nextId
    · subst same
      have few : p.hands.count s.nextId ≤ 1 := by
        rcases new with nothing | fresh
        · simp [nothing]
        · simp [fresh]
      rw [if_neg (lt_irrefl _)] at once
      rw [if_pos (Nat.lt_add_one _)]
      omega
    · have zero : p.hands.count id = 0 := by
        rcases new with nothing | fresh
        · simp [nothing]
        · simp [fresh, Ne.symm same]
      have older : id < s.nextId + 1 ↔ id < s.nextId := by omega
      simp only [older, zero]
      exact once

theorem step (op : AcceptOp) (regular : AcceptRegular s op) :
    ∃ t out, acceptStep backlog s op = .ok (t, out) ∧ AcceptInv backlog t := by
  cases op with
  | connect | loopback => exact ⟨_, _, rfl, inv.start rfl rfl rfl (.inr rfl)⟩
  | reset | accept => exact ⟨_, _, rfl, inv.start rfl rfl rfl (.inl rfl)⟩
  | step i =>
    cases here : s.calls[i]? with
    | none => exact ⟨s, (), by simp only [acceptStep, here], inv⟩
    | some => exact ⟨_, (), by rw [acceptStep, here]; rfl, inv.call here regular⟩

end AcceptInv

end

theorem acceptInv_start : AcceptInv backlog acceptStart := by
  refine ⟨rfl, by decide, ?_, fun pended => absurd rfl pended, List.Sublist.slnil, fun id => ?_⟩
  · simp only [acceptStart, length_nil, countP_nil]
    omega
  · simp [acceptStart]

/-- **The accept queue strands no connection**: without calls in progress the counter is the
length of the list and within the backlog, no accept waits beside a queued connection, and the
connections were taken from the list in the order in which they came into it, each by one accept,
and by none if it was handed to a pended request. -/
theorem accept_not_stranded (positive : 0 ≤ backlog)
    (reach : Reachable (· = acceptStart) (Next (acceptStep backlog) AcceptRegular) s)
    (idle : AcceptIdle s) :
    s.sock.acceptPended = s.sock.acceptList.length ∧ s.sock.acceptPended ≤ backlog ∧
      ¬(s.sock.pendedRequest ≠ none ∧ s.sock.acceptList ≠ []) ∧
      (s.sock.taken.map Prod.fst).Sublist s.sock.queued ∧
      ((s.sock.taken ++ s.sock.direct).map Prod.fst).Nodup := by
  have inv : AcceptInv backlog s := by
    refine reach.machine_run acceptInv_start ?_
    intro s op inv regular
    exact inv.step op regular
  have nobody (f : AcceptPoint → Bool) (done : f .done = false) : s.calls.countP f = 0 := by
    refine countP_eq_zero.mpr fun p member => ?_
    rw [idle p member, done]
    exact Bool.false_ne_true
  have number : s.sock.acceptPended = s.sock.acceptList.length := by
    rw [inv.counted, nobody _ rfl, add_zero]
  refine ⟨number, ?_, ?_, ?_, ?_⟩
  · have limit := inv.limit
    omega
  · rintro ⟨pended, entries⟩
    rcases inv.waiting pended with ⟨p, member, asks⟩ | clear
    · rw [idle p member] at asks
      cases asks
    · exact entries clear.empty
  · exact (sublist_append_left _ _).trans inv.order
  · rw [map_append]
    refine nodup_iff_count.mpr fun id => ?_
    have once := inv.once id
    have taken := ((sublist_append_left _ _).trans inv.order).count_le id
    rw [count_append]
    split at once <;> omega

end Steps

/-! ## Fixed runs -/

section Fixed

instance : Decidable (AcceptIdle s) :=
  inferInstanceAs (Decidable (∀ p ∈ s.calls, p = .done))

instance (op : AcceptOp) : Decidable (AcceptRegular s op) := by
  unfold AcceptRegular
  split
  · refine @Option.decidableForallMem _ _ (fun p => ?_) _
    split <;> infer_instance
  all_goals infer_instance

def acceptSteps (i n : Nat) : List AcceptOp := List.replicate n (.step i true)

/-- Two connections are queued and one is refused; an accept takes the first one. -/
theorem accept_not_stranded_full : ∃ s : AcceptRun, s.sock.acceptList.map AcceptEntry.id = [1] ∧
      s.sock.acceptPended = s.sock.acceptList.length ∧ s.sock.acceptPended ≤ 2 := by
  have replay : ∃ s ∈ attempt (acceptStep 2) AcceptRegular acceptStart
      (.connect 7 1 :: acceptSteps 0 4 ++ .loopback 3 2 :: acceptSteps 1 3 ++
        .connect 7 3 :: acceptSteps 2 2 ++ .accept :: acceptSteps 3 2),
      AcceptIdle s ∧ s.sock.acceptList.map AcceptEntry.id = [1] := by
    decide +kernel
  obtain ⟨s, reach, idle, list⟩ := reachable_of_replay _ replay
  have sound := accept_not_stranded (by decide) reach idle
  exact ⟨s, list, sound.1, sound.2.1⟩

/-- An accept finds the list empty; a connection finds no pended request and is queued; then the
accept pends its request.  No call is in progress, and both wait. -/
theorem accept_stranded :
    ∃ s, Reachable (· = acceptStart) (Next (acceptStep 1) fun _ _ => True) s ∧ AcceptIdle s ∧
      s.sock.acceptPended = 1 ∧ s.sock.acceptList.length = 1 ∧ s.sock.pendedRequest.isSome := by
  refine reachable_of_replay
    (.accept :: acceptSteps 0 1 ++ .connect 7 1 :: acceptSteps 1 4 ++ acceptSteps 0 3) ?_
  decide +kernel

end Fixed

end KvmGuestDrivers.VioSock

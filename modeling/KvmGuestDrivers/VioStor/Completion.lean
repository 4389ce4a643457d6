/-
# VioStor.Completion -- the life of a request of the block driver

From `VirtIoStartIo` an SRB goes to one of the queues, is returned by the device, found in the list
of the queue by its id, and completed; with Force Unit Access it is first sent a second time, as
a flush.  Resets empty the lists.
-/
import KvmGuestDrivers.Theory.Requests
import KvmGuestDrivers.Theory.Transition
import KvmGuestDrivers.VioStor.Adapter

namespace KvmGuestDrivers.VioStor

set_option autoImplicit false

open Theory List

/-! ## Requests -/

/-- `vbr.out_hdr.type`; reads and writes are transfers. -/
inductive BlkType where
  | transfer
  | flush
  | discard
  | getId
  deriving DecidableEq

inductive VpdPage where
  | serialNumber
  | deviceIdentifiers
  | other
  deriving DecidableEq

def virtioBlkSOk : Nat := 0

def deviceToSrbStatus : Nat → SrbStatus
  | 0 => .success
  | 1 => .error
  | 2 => .invalidRequest
  | _ => .error

/-- What `CompleteRequestWithStatus` makes of a status; `sense` tells whether a check condition is
to be reported and the SRB has room for it. -/
def completionStatus (sense : Bool) (status : SrbStatus) : SrbStatus :=
  if sense = true ∧ status = .success then .errorAutosense else status

structure SrbExt where
  type : BlkType
  page : VpdPage
  fua : Bool
  id : Nat
  messageId : Nat
  /-- `vbr.status`, which the device writes. -/
  status : Nat
  /-- Whether the device was given the request, and whether a flush was chained to it. -/
  sent : Bool
  chained : Bool
  /-- What the device has answered: whether for the chained flush, and the status. -/
  answers : List (Bool × Nat)

def SrbExt.new (type : BlkType) (page : VpdPage) (fua : Bool) : SrbExt :=
  ⟨type, page, fua, 0, 0, 0, false, false, []⟩

def SrbExt.answer (status : Nat) (x : SrbExt) : SrbExt :=
  { x with status := status, answers := x.answers ++ [(x.chained, status)] }

variable (x : SrbExt)

/-- `RhelScsiGetInquiryData` asks the device for two pages only. -/
def SrbExt.sendable : Bool := x.type ≠ .getId ∨ x.page ≠ .other

/-- Where a call is that has an SRB in its hands: in `VirtIoStartIo` before and after it has read
`last_srb_id`, and after it has counted it up; in a `RhelDo...` function when it has found no reset;
and in `VioStorCompleteRequest` with an SRB that it took from the list of a queue. -/
inductive SrbPoint where
  | entered
  | numbered
  | counted
  | tested (queueNumber : Nat)
  | collected (queueNumber : Nat)
  | gone
  deriving DecidableEq

structure SrbCall where
  srb : Nat
  point : SrbPoint

/-- The SRB of a call that has not given it away, and whether it has its id. -/
def SrbCall.hold (c : SrbCall) : Option (Nat × Bool) :=
  if c.point = .gone then none else some (c.srb, c.point ≠ .entered)

structure StorRun where
  ext : Nat → SrbExt
  accepted : Nat
  calls : List SrbCall
  queues : List RequestRing
  lastSrbId : Nat
  resetInProgress : Bool
  /-- The resets under way: the list that each empties next. -/
  resets : List Nat
  completed : List (Nat × SrbStatus)

inductive StorFault where
  | noQueue

namespace StorRun

variable (s : StorRun)

def idOf (n : Nat) : Nat := (s.ext n).id

def modify (n : Nat) (f : SrbExt → SrbExt) : StorRun :=
  { s with ext := fun m => if m = n then f (s.ext m) else s.ext m }

/-- `StorPortNotification(RequestComplete, ..)`, by the call that has the SRB. -/
def complete (i n : Nat) (status : SrbStatus) : StorRun :=
  { s with calls := s.calls.set i ⟨n, .gone⟩, completed := s.completed ++ [(n, status)] }

/-- `virtqueue_add_buf` and `InsertTailList`, by the call that has the SRB. -/
def post (i n k : Nat) (q : RequestRing) : StorRun :=
  { s with calls := s.calls.set i ⟨n, .gone⟩, queues := s.queues.set k (q.post n (s.idOf n)) }

def move (i : Nat) (c : SrbCall) : StorRun := { s with calls := s.calls.set i c }

def view : Requests where
  idOf := s.idOf
  accepted := s.accepted
  hands := s.calls.map SrbCall.hold
  queues := s.queues
  completed := s.completed.map Prod.fst

end StorRun

/-- `last_srb_id++`, and once more if it is zero. -/
def nextSrbId (id : Nat) : Nat := if (id + 1) % 2 ^ 64 = 0 then 1 else (id + 1) % 2 ^ 64

inductive StorOp where
  | startIo (type : BlkType) (page : VpdPage) (fua : Bool)
  | readId (i : Nat)
  | countId (i : Nat)
  | immediate (i : Nat) (status : SrbStatus)
  | testReset (i : Nat) (param : Option Nat)
  | submit (i : Nat) (added : Bool)
  | answer (k j status : Nat)
  | collect (k : Nat)
  | finish (i : Nat) (added sense : Bool)
  | resetBus
  | drain (j : Nat)
  | resetDone (j : Nat)

variable (s : StorRun)

/-- `RhelDoFlush` for a request that is sent again. -/
def resendFlush (i n : Nat) (added : Bool) : Except StorFault StorRun :=
  if s.resetInProgress then .ok ((s.complete i n .busReset).modify n ({ · with fua := false }))
  else
    match s.queues[(resendQueue (s.ext n).messageId).1]? with
    | none => .error .noQueue
    | some q =>
      if added then
        .ok ((s.post i n (resendQueue (s.ext n).messageId).1 q).modify n
          ({ · with type := .flush, fua := false, chained := true }))
      else .ok ((s.complete i n .error).modify n ({ · with type := .flush, fua := false }))

/-- A turn of `VioStorCompleteRequest` with an SRB that it has found. -/
def finishRequest (i n : Nat) (added sense : Bool) : Except StorFault StorRun :=
  if (s.ext n).type = .getId then
    -- without a page that it knows, nobody completes the SRB
    if (s.ext n).page = .other then .ok (s.move i ⟨n, .gone⟩) else .ok (s.complete i n .success)
  else if (s.ext n).fua then resendFlush s i n added
  else .ok (s.complete i n (completionStatus sense (deviceToSrbStatus (s.ext n).status)))

variable (a : QueueSetup)

def storNext (s : StorRun) : StorOp → Except StorFault StorRun
  | .startIo type page fua =>
    .ok { s with
      ext := fun m => if m = s.accepted then .new type page fua else s.ext m
      accepted := s.accepted + 1
      calls := s.calls ++ [⟨s.accepted, .entered⟩] }
  | .readId i =>
    match s.calls[i]? with
    | some ⟨n, .entered⟩ =>
      .ok ((s.move i ⟨n, .numbered⟩).modify n ({ · with id := s.lastSrbId }))
    | _ => .ok s
  | .countId i =>
    match s.calls[i]? with
    | some ⟨n, .numbered⟩ =>
      .ok { s.move i ⟨n, .counted⟩ with lastSrbId := nextSrbId s.lastSrbId }
    | _ => .ok s
  -- what `VirtIoBuildIo` refuses, and what `VirtIoStartIo` completes itself
  | .immediate i status =>
    match s.calls[i]? with
    | some ⟨n, .entered⟩ => .ok (s.complete i n status)
    | some ⟨n, .counted⟩ => .ok (s.complete i n status)
    | _ => .ok s
  | .testReset i param =>
    match s.calls[i]? with
    | some ⟨n, .counted⟩ =>
      if (s.ext n).sendable then
        if s.resetInProgress then .ok (s.complete i n .busReset)
        else
          .ok ((s.move i ⟨n, .tested (chooseQueue a param).1⟩).modify n
            ({ · with messageId := (chooseQueue a param).2 }))
      else .ok s
    | _ => .ok s
  -- under the lock
  | .submit i added =>
    match s.calls[i]? with
    | some ⟨n, .tested k⟩ =>
      match s.queues[k]? with
      | none => .error .noQueue
      | some q =>
        if added then .ok ((s.post i n k q).modify n ({ · with sent := true }))
        else .ok (s.complete i n (if (s.ext n).type = .transfer then .busy else .error))
    | _ => .ok s
  | .answer k j status =>
    match s.queues[k]? with
    | none => .ok s
    | some q =>
      match q.device[j]? with
      | none => .ok s
      | some e =>
        .ok { s.modify e.request (.answer status) with
          queues := s.queues.set k (q.answer j status) }
  -- `virtqueue_get_buf`, and the search of the list
  | .collect k =>
    match s.queues[k]? with
    | none => .ok s
    | some q =>
      match q.collect s.idOf with
      | (q, none) => .ok { s with queues := s.queues.set k q }
      | (q, some n) =>
        .ok { s with
          queues := s.queues.set k q
          calls := s.calls ++ [⟨n, .collected k⟩] }
  | .finish i added sense =>
    match s.calls[i]? with
    | some ⟨n, .collected _⟩ => finishRequest s i n added sense
    | _ => .ok s
  -- `CompletePendingRequests`
  | .resetBus =>
    if s.resetInProgress then .ok { s with resetInProgress := false }
    else .ok { s with resetInProgress := true, resets := s.resets ++ [0] }
  | .drain j =>
    match s.resets[j]? with
    | none => .ok s
    | some k =>
      match s.queues[k]? with
      | none => .ok s
      | some q =>
        .ok { s with
          queues := s.queues.set k q.drain
          completed := s.completed ++ q.list.map fun n => (n, SrbStatus.busReset)
          resets := s.resets.set j (k + 1) }
  | .resetDone j =>
    match s.resets[j]? with
    | none => .ok s
    | some k =>
      if s.queues.length ≤ k then
        .ok { s with resetInProgress := false, resets := s.resets.eraseIdx j }
      else .ok s

/-- What a lock makes atomic are single steps; the numbering of the SRBs, the test of
`reset_in_progress` and the steps of a turn are steps of their own. -/
def storStep (s : StorRun) (op : StorOp) : Except StorFault (StorRun × Unit) :=
  (storNext a s op).map (·, ())

/-- `VirtIoFindAdapter` and `VirtIoHwInitialize`. -/
def storStart : StorRun where
  ext := fun _ => .new .transfer .other false
  accepted := 0
  calls := []
  queues := List.replicate a.numQueues .empty
  lastSrbId := 1
  resetInProgress := false
  resets := []
  completed := []

/-! ## Conditions -/

/-- `last_srb_id` is not zero, and neither an SRB in the hands of a call nor descriptors on a ring
have it as their id. -/
def FreshId : Prop :=
  s.lastSrbId ≠ 0 ∧ (∀ c ∈ s.calls, c.hold = some (c.srb, true) → s.idOf c.srb ≠ s.lastSrbId) ∧
    ∀ q ∈ s.queues, ∀ e ∈ q.ring, e.id ≠ s.lastSrbId

/-- An SRB is numbered with an id that is not in use, and Storport reports a message number up to
the number of queues. -/
def StorRegular (s : StorRun) : StorOp → Prop
  | .readId _ => FreshId s
  | .testReset _ param => 1 ≤ a.numQueues ∧ ∀ messageNumber ∈ param, messageNumber ≤ a.numQueues
  | _ => True

instance : Decidable (FreshId s) := inferInstanceAs (Decidable (_ ∧ _ ∧ _))

instance (s : StorRun) (op : StorOp) : Decidable (StorRegular a s op) := by
  unfold StorRegular
  split <;> infer_instance

/-! ## Where the SRBs are -/

variable {k : Nat} {q : RequestRing} {status : SrbStatus}

section View

variable {s} {i n : Nat} {c : SrbCall}

theorem FreshId.view (fresh : FreshId s) : s.view.Fresh s.lastSrbId := by
  refine ⟨fresh.1, fun n held => ?_, fresh.2.2⟩
  obtain ⟨c, member, has⟩ := mem_map.mp held
  have srb : c.srb = n := by
    rw [SrbCall.hold] at has
    split at has
    · cases has
    · exact (Prod.mk.inj (Option.some.inj has)).1
  rw [← srb] at has ⊢
  exact fresh.2.1 c member has

theorem view_hands (here : s.calls[i]? = some c) : s.view.hands[i]? = some c.hold := by
  rw [StorRun.view, getElem?_map, here]
  rfl

theorem hold_of_ne (ne : c.point ≠ .gone) : ∃ b, c.hold = some (c.srb, b) := ⟨_, if_neg ne⟩

theorem view_modify (s : StorRun) (n : Nat) {f : SrbExt → SrbExt} (same : ∀ x, (f x).id = x.id) :
    (s.modify n f).view = s.view := by
  have ids : (s.modify n f).idOf = s.idOf := by
    funext m
    show (if m = n then f (s.ext m) else s.ext m).id = (s.ext m).id
    split
    · exact same _
    · rfl
  rw [StorRun.view, ids]
  rfl

theorem view_move (here : s.calls[i]? = some c) (d : SrbCall) (same : d.hold = c.hold) :
    (s.move i d).view = s.view := by
  have hands : (s.calls.set i d).map SrbCall.hold = s.calls.map SrbCall.hold := by
    rw [map_set, same]
    exact set_same (view_hands here)
  rw [StorRun.view, StorRun.move, hands]
  rfl

theorem view_complete (status : SrbStatus) : (s.complete i n status).view =
    { s.view with
      hands := s.view.hands.set i none
      completed := s.view.completed ++ [n] } := by
  rw [StorRun.view, StorRun.complete, map_set, map_append]
  rfl

theorem view_post : (s.post i n k q).view =
    { s.view with
      hands := s.view.hands.set i none
      queues := s.view.queues.set k (q.post n (s.view.idOf n)) } := by
  rw [StorRun.view, StorRun.post, map_set]
  rfl

end View

/-- The queue that a call is about to use, or has the SRB from. -/
def SrbPoint.queue : SrbPoint → Option Nat
  | .tested k | .collected k => some k
  | _ => none

/-- The message id of an SRB that is sent is that of its queue. -/
def Routed (x : SrbExt) (k : Nat) : Prop :=
  k < a.numQueues ∧ x.messageId = k + 1 ∧ x.sendable = true

/-- An SRB is in one place, the lists fit the rings, and what is sent again goes to the queue that
it came from. -/
structure StorInv (a : QueueSetup) (s : StorRun) : Prop where
  placed : s.view.Placed
  length : s.queues.length = a.numQueues
  calls : ∀ (i : Nat) (c : SrbCall) (k : Nat), s.calls[i]? = some c → c.point.queue = some k →
    Routed a (s.ext c.srb) k
  lists : ∀ (k : Nat) (q : RequestRing), s.queues[k]? = some q → ∀ n ∈ q.list,
    Routed a (s.ext n) k

/-! ## What a step can do -/

/-- All that the steps do to SRBs, calls and queues. -/
inductive StorEffect (a : QueueSetup) (s : StorRun) : StorOp → StorRun → Prop where
  | quiet (op : StorOp) (lastSrbId : Nat) (resetInProgress : Bool) (resets : List Nat) :
      StorEffect a s op { s with
        lastSrbId := lastSrbId, resetInProgress := resetInProgress, resets := resets }
  | accept (type : BlkType) (page : VpdPage) (fua : Bool) :
      StorEffect a s (.startIo type page fua) { s with
        ext := fun m => if m = s.accepted then .new type page fua else s.ext m
        accepted := s.accepted + 1
        calls := s.calls ++ [⟨s.accepted, .entered⟩] }
  | number {i n} (here : s.calls[i]? = some ⟨n, .entered⟩) (fresh : FreshId s) :
      StorEffect a s (.readId i) ((s.move i ⟨n, .numbered⟩).modify n ({ · with id := s.lastSrbId }))
  | count {i n} (here : s.calls[i]? = some ⟨n, .numbered⟩) (lastSrbId : Nat) :
      StorEffect a s (.countId i) { s.move i ⟨n, .counted⟩ with lastSrbId := lastSrbId }
  | route {i n k param} (here : s.calls[i]? = some ⟨n, .counted⟩)
      (sendable : (s.ext n).sendable = true) (inside : k < a.numQueues) :
      StorEffect a s (.testReset i param)
        ((s.move i ⟨n, .tested k⟩).modify n ({ · with messageId := k + 1 }))
  | complete {i c} (op : StorOp) (status : SrbStatus)
      (here : s.calls[i]? = some c) (under : c.point ≠ .gone)
      (fine : status = .success → c.point = .entered ∨ c.point = .counted ∨
        (s.ext c.srb).type = .getId ∨
          (∃ k, c.point = .collected k) ∧ (s.ext c.srb).status = virtioBlkSOk) :
      StorEffect a s op (s.complete i c.srb status)
  | fail {i n k} (op : StorOp) (status : SrbStatus) (f : SrbExt → SrbExt)
      (here : s.calls[i]? = some ⟨n, .collected k⟩) (bad : status ≠ .success)
      (same : ∀ x, (f x).id = x.id) : StorEffect a s op ((s.complete i n status).modify n f)
  | submit {i n k q} (added : Bool)
      (here : s.calls[i]? = some ⟨n, .tested k⟩) (there : s.queues[k]? = some q) :
      StorEffect a s (.submit i added) ((s.post i n k q).modify n ({ · with sent := true }))
  | resend {i n k q} (added sense : Bool)
      (here : s.calls[i]? = some ⟨n, .collected k⟩) (there : s.queues[k]? = some q)
      (fua : (s.ext n).fua = true) :
      StorEffect a s (.finish i added sense) ((s.post i n k q).modify n
        ({ · with type := .flush, fua := false, chained := true }))
  | answer {k j q e} (status : Nat) (there : s.queues[k]? = some q) (has : q.device[j]? = some e) :
      StorEffect a s (.answer k j status) { s.modify e.request (.answer status) with
        queues := s.queues.set k (q.answer j status) }
  | collectNone {k q q'} (there : s.queues[k]? = some q) (taken : q.collect s.idOf = (q', none)) :
      StorEffect a s (.collect k) { s with queues := s.queues.set k q' }
  | collectSome {k n : Nat} {q q' : RequestRing} (there : s.queues[k]? = some q)
      (taken : q.collect s.idOf = (q', some n)) :
      StorEffect a s (.collect k) { s with
        queues := s.queues.set k q'
        calls := s.calls ++ [⟨n, .collected k⟩] }
  | drain {j k q} (reset : s.resets[j]? = some k) (there : s.queues[k]? = some q) :
      StorEffect a s (.drain j) { s with
        queues := s.queues.set k q.drain
        completed := s.completed ++ q.list.map fun n => (n, SrbStatus.busReset)
        resets := s.resets.set j (k + 1) }

theorem StorEffect.idle (s : StorRun) (op : StorOp) : StorEffect a s op s :=
  .quiet op s.lastSrbId s.resetInProgress s.resets

theorem deviceToSrbStatus_success {status : Nat} (is : deviceToSrbStatus status = .success) :
    status = virtioBlkSOk := by
  unfold deviceToSrbStatus at is
  split at is
  · rfl
  · cases is
  · cases is
  · cases is

theorem completionStatus_success {sense : Bool} (is : completionStatus sense status = .success) :
    status = .success := by
  unfold completionStatus at is
  split at is
  · cases is
  · exact is

variable {a} {s}

theorem StorInv.queue (inv : StorInv a s) {x : SrbExt} (routed : Routed a x k) :
    ∃ q, s.queues[k]? = some q :=
  ⟨_, getElem?_eq_getElem (inv.length.symm ▸ routed.1)⟩

theorem finishRequest_effect (inv : StorInv a s) {i n : Nat}
    (here : s.calls[i]? = some ⟨n, .collected k⟩) (added sense : Bool) :
    ∃ t, finishRequest s i n added sense = .ok t ∧ StorEffect a s (.finish i added sense) t := by
  have routed : Routed a (s.ext n) k := inv.calls i _ k here rfl
  obtain ⟨q, there⟩ := inv.queue routed
  have queue : (resendQueue (s.ext n).messageId).1 = k := by
    rw [routed.2.1]
    show (k + 1 + (2 ^ 32 - 1)) % 2 ^ 32 = k
    have short := a.short
    have inside := routed.1
    omega
  fun_cases finishRequest s i n added sense with
  | case1 getId other =>
    have sendable := routed.2.2
    rw [SrbExt.sendable, getId, other] at sendable
    exact absurd sendable (by decide)
  | case2 getId =>
    exact ⟨_, rfl, .complete _ _ here SrbPoint.noConfusion fun _ => .inr (.inr (.inl getId))⟩
  | case3 _ fua =>
    unfold resendFlush
    rw [queue]
    simp only [there]
    split
    · exact ⟨_, rfl, .fail _ _ _ here SrbStatus.noConfusion fun _ => rfl⟩
    · split
      · exact ⟨_, rfl, .resend _ _ here there fua⟩
      · exact ⟨_, rfl, .fail _ _ _ here SrbStatus.noConfusion fun _ => rfl⟩
  | case4 =>
    refine ⟨_, rfl, .complete _ _ here SrbPoint.noConfusion fun success => ?_⟩
    exact .inr (.inr (.inr ⟨⟨k, rfl⟩,
      deviceToSrbStatus_success (completionStatus_success success)⟩))

variable {op : StorOp} {t : StorRun} {e : Posted} {j m : Nat}

/-- Every regular step has one of the effects. -/
theorem storNext_effect (inv : StorInv a s) (regular : StorRegular a s op) :
    ∃ t, storNext a s op = .ok t ∧ StorEffect a s op t := by
  fun_cases storNext a s op with
  | case1 type page fua => exact ⟨_, rfl, .accept type page fua⟩
  | case2 i n here => exact ⟨_, rfl, .number here regular⟩
  | case4 i n here => exact ⟨_, rfl, .count here _⟩
  | case6 i status n here =>
    exact ⟨_, rfl, .complete _ status here SrbPoint.noConfusion fun _ => .inl rfl⟩
  | case7 i status n here =>
    exact ⟨_, rfl, .complete _ status here SrbPoint.noConfusion fun _ => .inr (.inl rfl)⟩
  | case9 i _ n here =>
    exact ⟨_, rfl, .complete _ _ here SrbPoint.noConfusion SrbStatus.noConfusion⟩
  | case10 i _ n here sendable =>
    obtain ⟨inside, messageId⟩ := chooseQueue_paired regular.1 regular.2
    rw [messageId]
    exact ⟨_, rfl, .route here sendable inside⟩
  | case13 i _ n k here noQueue =>
    obtain ⟨q, there⟩ := inv.queue (inv.calls i _ k here rfl)
    rw [noQueue] at there
    cases there
  | case14 i n k here q there => exact ⟨_, rfl, .submit true here there⟩
  | case15 i _ n k here =>
    refine ⟨_, rfl, .complete _ _ here SrbPoint.noConfusion fun success => ?_⟩
    split at success
    · cases success
    · cases success
  | case19 k j status q there e has => exact ⟨_, rfl, .answer status there has⟩
  | case21 k q there q' taken => exact ⟨_, rfl, .collectNone there taken⟩
  | case22 k q there q' n taken => exact ⟨_, rfl, .collectSome there taken⟩
  | case23 i added sense n k here => exact finishRequest_effect inv here added sense
  | case25 | case26 | case31 => exact ⟨_, rfl, .quiet _ _ _ _⟩
  | case29 j k reset q there => exact ⟨_, rfl, .drain reset there⟩
  | _ => exact ⟨s, rfl, .idle a s _⟩

/-! ## The places are kept -/

theorem ext_modify_self (s : StorRun) (n : Nat) (f : SrbExt → SrbExt) :
    (s.modify n f).ext n = f (s.ext n) := if_pos rfl

theorem ext_modify_ne (s : StorRun) {n : Nat} (ne : m ≠ n) (f : SrbExt → SrbExt) :
    (s.modify n f).ext m = s.ext m := if_neg ne

theorem ext_accept (lt : m < s.accepted) (x : SrbExt) :
    (if m = s.accepted then x else s.ext m) = s.ext m := if_neg (Nat.ne_of_lt lt)

section

variable {i : Nat} {c : SrbCall} (placed : s.view.Placed) (here : s.calls[i]? = some c)
  (under : c.point ≠ .gone)

include placed here under

/-- The SRB of a call that is under way is in no list, not on a ring, and another call has another
one. -/
theorem srb_not_listed (there : s.queues[k]? = some q) (listed : m ∈ q.list) : m ≠ c.srb := by
  rintro rfl
  obtain ⟨b, has⟩ := hold_of_ne under
  exact (placed.hand_apart (has ▸ mem_of_getElem? (view_hands here))).1 q
    (mem_of_getElem? there) listed

theorem srb_not_posted (there : s.queues[k]? = some q) (onRing : e ∈ q.ring) :
    e.request ≠ c.srb := by
  obtain ⟨b, has⟩ := hold_of_ne under
  exact placed.off_ring (has ▸ mem_of_getElem? (view_hands here)) (mem_of_getElem? there) onRing

theorem srb_ne {d : SrbCall} (there : s.calls[j]? = some d) (under' : d.point ≠ .gone)
    (other : j ≠ i) : d.srb ≠ c.srb := by
  intro same
  obtain ⟨b, has⟩ := hold_of_ne under
  obtain ⟨b', has'⟩ := hold_of_ne under'
  rw [same] at has'
  exact other (placed.hand_inj (has' ▸ view_hands there) (has ▸ view_hands here))

theorem srb_lt : c.srb < s.accepted := by
  obtain ⟨b, has⟩ := hold_of_ne under
  exact placed.hand_lt (has ▸ mem_of_getElem? (view_hands here))

end

theorem StorEffect.placed (placed : s.view.Placed) (effect : StorEffect a s op t) :
    t.view.Placed := by
  cases effect with
  | quiet => exact placed
  | accept type page fua =>
    have view : StorRun.view { s with
        ext := fun m => if m = s.accepted then .new type page fua else s.ext m
        accepted := s.accepted + 1
        calls := s.calls ++ [⟨s.accepted, .entered⟩] } =
        { s.view with
          idOf := Requests.setId s.view.idOf s.view.accepted 0
          accepted := s.view.accepted + 1
          hands := s.view.hands ++ [some (s.view.accepted, false)] } := by
      rw [StorRun.view, map_append]
      congr 1
      funext m
      show SrbExt.id (if m = s.accepted then _ else _) = if m = s.accepted then 0 else _
      split
      · rfl
      · rfl
    rw [view]
    exact placed.accept 0
  | @number i n here fresh =>
    have view : ((s.move i ⟨n, .numbered⟩).modify n ({ · with id := s.lastSrbId })).view =
        { s.view with
          idOf := Requests.setId s.view.idOf n s.lastSrbId
          hands := s.view.hands.set i (some (n, true)) } := by
      rw [StorRun.view, StorRun.modify, StorRun.move, map_set]
      congr 1
      funext m
      show SrbExt.id (if m = n then _ else _) = if m = n then _ else _
      split
      · rfl
      · rfl
    rw [view]
    exact placed.name (view_hands here) fresh.view
  | @count i n here =>
    show (s.move i ⟨n, .counted⟩).view.Placed
    rw [view_move here ⟨n, .counted⟩ rfl]
    exact placed
  | @route i n k _ here =>
    rw [view_modify, view_move here ⟨n, .tested k⟩ rfl]
    · exact placed
    · exact fun _ => rfl
  | @complete i c _ _ here under =>
    obtain ⟨b, has⟩ := hold_of_ne under
    rw [view_complete]
    exact placed.complete ((view_hands here).trans (congrArg some has))
  | @fail i n _ _ _ _ here _ same =>
    rw [view_modify _ n same, view_complete]
    exact placed.complete (view_hands here)
  | @submit _ _ _ _ _ here there | @resend _ _ _ _ _ _ here there =>
    rw [view_modify, view_post]
    · exact placed.post (view_hands here) there
    · exact fun _ => rfl
  | @answer k j q e status there =>
    have view : (s.modify e.request (.answer status)).view = s.view :=
      view_modify s e.request fun _ => rfl
    have kept := placed.answer there j status
    rw [← view] at kept
    exact kept
  | collectNone there taken => exact placed.collect_none there taken
  | @collectSome k n q q' there taken =>
    have kept := placed.collect_some there taken
    rw [StorRun.view, map_append]
    exact kept
  | @drain j k q _ there =>
    have kept := placed.drain there
    rw [StorRun.view, map_append, map_map]
    show Requests.Placed { s.view with
      queues := s.view.queues.set k q.drain
      completed := s.view.completed ++ q.list.map id }
    rw [map_id]
    exact kept

theorem point_ne_gone {p : SrbPoint} (uses : p.queue = some k) : p ≠ .gone := by
  rintro rfl
  cases uses

/-- A step of a call that changes its own SRB only: the others stay routed. -/
theorem StorInv.call (inv : StorInv a s) (placed : t.view.Placed) {i : Nat} {c d : SrbCall}
    (here : s.calls[i]? = some c) (under : c.point ≠ .gone) (calls : t.calls = s.calls.set i d)
    (frame : ∀ m, m ≠ c.srb → t.ext m = s.ext m)
    (own : ∀ k, d.point.queue = some k → Routed a (t.ext d.srb) k)
    (length : t.queues.length = s.queues.length)
    (lists : ∀ (k : Nat) (q : RequestRing), t.queues[k]? = some q → ∀ n ∈ q.list,
      (∃ p, s.queues[k]? = some p ∧ n ∈ p.list) ∨ Routed a (t.ext n) k) : StorInv a t where
  placed := placed
  length := length.trans inv.length
  calls := by
    intro j c' k there uses
    rw [calls] at there
    rcases getElem?_move there with ⟨-, rfl⟩ | ⟨other, before⟩
    · exact own k uses
    · rw [frame _ (srb_ne inv.placed here under before (point_ne_gone uses) other)]
      exact inv.calls j c' k before uses
  lists := by
    intro k q there n listed
    rcases lists k q there n listed with ⟨p, before, old⟩ | new
    · rw [frame n (srb_not_listed inv.placed here under before old)]
      exact inv.lists k p before n old
    · exact new

theorem listed_post {queues : List RequestRing} {n id : Nat} (there : queues[k]? = some q) {l : Nat}
    {p : RequestRing} (after : (queues.set k (q.post n id))[l]? = some p) (listed : m ∈ p.list) :
    (∃ p, queues[l]? = some p ∧ m ∈ p.list) ∨ l = k ∧ m = n := by
  rcases getElem?_move after with ⟨rfl, rfl⟩ | ⟨-, before⟩
  · exact (mem_append.mp listed).imp (fun old => ⟨q, there, old⟩)
      fun last => ⟨rfl, mem_singleton.mp last⟩
  · exact .inl ⟨p, before, listed⟩

theorem StorInv.lists_set (inv : StorInv a s) (there : s.queues[k]? = some q) {q' : RequestRing}
    (less : ∀ n ∈ q'.list, n ∈ q.list) (l : Nat) (p : RequestRing)
    (after : (s.queues.set k q')[l]? = some p) (n : Nat) (listed : n ∈ p.list) :
    Routed a (s.ext n) l := by
  rcases getElem?_move after with ⟨rfl, rfl⟩ | ⟨-, before⟩
  · exact inv.lists l q there n (less n listed)
  · exact inv.lists l p before n listed

/-- Every effect keeps each SRB at the queue of its message id. -/
theorem StorInv.effect (inv : StorInv a s) (effect : StorEffect a s op t) : StorInv a t := by
  have placed := effect.placed inv.placed
  have same (k : Nat) (q : RequestRing) (there : s.queues[k]? = some q) (n : Nat)
      (listed : n ∈ q.list) : (∃ p, s.queues[k]? = some p ∧ n ∈ p.list) ∨ Routed a (t.ext n) k :=
    .inl ⟨q, there, listed⟩
  have length {k : Nat} {q : RequestRing} : (s.queues.set k q).length = s.queues.length :=
    length_set
  cases effect with
  | quiet => exact { inv with placed }
  | accept =>
    refine ⟨placed, inv.length, ?_, ?_⟩
    · intro j c k there uses
      rcases getElem?_start there with ⟨-, rfl⟩ | before
      · cases uses
      · show Routed a (if _ then _ else _) k
        rw [ext_accept (srb_lt inv.placed before (point_ne_gone uses))]
        exact inv.calls j c k before uses
    · intro k q there n listed
      obtain ⟨e, onRing, rfl⟩ := (inv.placed.matched q (mem_of_getElem? there)).held n listed
      show Routed a (if _ then _ else _) k
      rw [ext_accept (inv.placed.ring_lt (mem_of_getElem? there) onRing)]
      exact inv.lists k q there _ listed
  | number here | fail _ _ _ here =>
    exact inv.call placed here SrbPoint.noConfusion rfl (fun _ ne => if_neg ne)
      (fun k is => by cases is) rfl same
  | count here =>
    exact inv.call placed here SrbPoint.noConfusion rfl (fun _ _ => rfl)
      (fun k is => by cases is) rfl same
  | @route i n k _ here sendable inside =>
    refine inv.call placed here SrbPoint.noConfusion rfl (fun _ ne => if_neg ne) (fun l is => ?_)
      rfl same
    cases is
    rw [ext_modify_self]
    exact ⟨inside, rfl, sendable⟩
  | complete _ _ here under =>
    exact inv.call placed here under rfl (fun _ _ => rfl) (fun k is => by cases is) rfl same
  | @submit i n k q _ here there =>
    refine inv.call placed here SrbPoint.noConfusion rfl (fun _ ne => if_neg ne)
      (fun k is => by cases is) length fun l p after m listed =>
        (listed_post there after listed).imp_right ?_
    rintro ⟨rfl, rfl⟩
    rw [ext_modify_self]
    exact inv.calls i _ l here rfl
  | @resend i n k q _ _ here there =>
    refine inv.call placed here SrbPoint.noConfusion rfl (fun _ ne => if_neg ne)
      (fun k is => by cases is) length fun l p after m listed =>
        (listed_post there after listed).imp_right ?_
    rintro ⟨rfl, rfl⟩
    rw [ext_modify_self]
    exact ⟨(inv.calls i _ l here rfl).1, (inv.calls i _ l here rfl).2.1, rfl⟩
  | @answer k j q e status there =>
    have same {m l : Nat} (routed : Routed a (s.ext m) l) :
        Routed a ((s.modify e.request (.answer status)).ext m) l := by
      by_cases is : m = e.request
      · rw [is, ext_modify_self]
        exact is ▸ routed
      · rw [ext_modify_ne s is]
        exact routed
    refine ⟨placed, length.trans inv.length,
      fun i c l here uses => same (inv.calls i c l here uses),
      fun l p after m listed => same (inv.lists_set there (fun n old => ?_) l p after m listed)⟩
    rwa [RequestRing.list_answer] at old
  | @collectNone k q q' there taken =>
    refine ⟨placed, length.trans inv.length, inv.calls, inv.lists_set there fun n listed => ?_⟩
    have matched := inv.placed.matched q (mem_of_getElem? there)
    rcases matched.collect_none taken with rfl | ⟨_, _, -, -, rfl⟩
    · exact listed
    · exact listed
  | @collectSome k n q q' there taken =>
    have matched := inv.placed.matched q (mem_of_getElem? there)
    obtain ⟨e, _, -, rfl, listed, rfl⟩ := matched.collect_some taken
    refine ⟨placed, length.trans inv.length, fun j c l here uses => ?_,
      inv.lists_set there fun _ => mem_of_mem_erase⟩
    rcases getElem?_start here with ⟨-, rfl⟩ | before
    · cases uses
      exact inv.lists k q there e.request listed
    · exact inv.calls j c l before uses
  | @drain j k q _ there =>
    exact ⟨placed, length.trans inv.length, inv.calls, inv.lists_set there (forall_mem_nil _)⟩

theorem StorInv.start (a : QueueSetup) : StorInv a (storStart a) where
  placed := Requests.Placed.start _ a.numQueues
  length := length_replicate
  calls := fun i c k here => by cases here
  lists := fun k q there n listed => by
    have is := eq_of_mem_replicate (mem_of_getElem? there)
    rw [is] at listed
    cases listed

theorem StorInv.step (inv : StorInv a s) (regular : StorRegular a s op) :
    ∃ t out, storStep a s op = .ok (t, out) ∧ StorEffect a s op t ∧ StorInv a t := by
  obtain ⟨t, stepped, effect⟩ := storNext_effect inv regular
  refine ⟨t, (), ?_, effect, inv.effect effect⟩
  rw [storStep, stepped]
  rfl

/-! ## What the device has answered -/

/-- The answers before the last one: with a chained flush, that for the data. -/
def SrbExt.earlier : List (Bool × Nat) :=
  if x.chained then [(false, virtioBlkSOk)] else []

def Unsent : Prop := x.sent = false ∧ x.chained = false ∧ x.answers = []

def Waiting : Prop :=
  x.sent = true ∧ (x.fua = true → x.chained = false) ∧ x.answers = x.earlier

/-- Returned by the device with the status in the extension. -/
def Answered : Prop :=
  x.sent = true ∧ (x.fua = true → x.chained = false) ∧
    x.answers = x.earlier ++ [(x.chained, x.status)]

/-- Every stage was answered with `VIRTIO_BLK_S_OK`. -/
def Passed : Prop :=
  x.sent = true → x.type ≠ .getId → x.answers = x.earlier ++ [(x.chained, virtioBlkSOk)]

/-- The stage of an SRB in the hands of a call. -/
def CallStage : SrbPoint → Prop
  | .collected _ => Answered x
  | .gone => True
  | _ => Unsent x

/-- The stages of the descriptors of a queue.  One that is not in the list any more is of an SRB
that a reset has completed. -/
structure QueueStage (s : StorRun) (q : RequestRing) : Prop where
  device : ∀ e ∈ q.device, e.request ∈ q.list → Waiting (s.ext e.request)
  used : ∀ e ∈ q.used, e.request ∈ q.list → Answered (s.ext e.request)
  reset : ∀ e ∈ q.ring, e.request ∈ q.list ∨ (e.request, SrbStatus.busReset) ∈ s.completed

structure StageInv (s : StorRun) : Prop where
  calls : ∀ (i : Nat) (c : SrbCall), s.calls[i]? = some c → CallStage (s.ext c.srb) c.point
  queues : ∀ (k : Nat) (q : RequestRing), s.queues[k]? = some q → QueueStage s q
  passed : ∀ n, (n, SrbStatus.success) ∈ s.completed → Passed (s.ext n)

/-- The first stage of a request that is sent again was answered with `VIRTIO_BLK_S_OK`. -/
def FuaOk (s : StorRun) : StorOp → Prop
  | .finish i _ _ =>
    ∀ c ∈ s.calls[i]?, (s.ext c.srb).fua = true → (s.ext c.srb).status = virtioBlkSOk
  | _ => True

def StageRegular (a : QueueSetup) (s : StorRun) (op : StorOp) : Prop :=
  StorRegular a s op ∧ FuaOk s op

instance (s : StorRun) (op : StorOp) : Decidable (FuaOk s op) := by
  unfold FuaOk
  split <;> infer_instance

instance (a : QueueSetup) (s : StorRun) (op : StorOp) : Decidable (StageRegular a s op) :=
  inferInstanceAs (Decidable (_ ∧ _))

variable {c : SrbCall}

theorem srb_not_completed (placed : s.view.Placed) {i : Nat}
    (here : s.calls[i]? = some c) (under : c.point ≠ .gone) {n : Nat}
    (done : (n, status) ∈ s.completed) : n ≠ c.srb := by
  rintro rfl
  obtain ⟨b, has⟩ := hold_of_ne under
  exact (placed.hand_apart (has ▸ mem_of_getElem? (view_hands here))).2 (mem_map_of_mem done)

section Queue

section

variable (stage : QueueStage s q)

include stage

theorem QueueStage.frame (same : ∀ e ∈ q.ring, t.ext e.request = s.ext e.request)
    (more : ∀ done ∈ s.completed, done ∈ t.completed) : QueueStage t q where
  device e has listed := by
    rw [same e (mem_append_left _ has)]
    exact stage.device e has listed
  used e has listed := by
    rw [same e (mem_append_right _ has)]
    exact stage.used e has listed
  reset e onRing := (stage.reset e onRing).imp_right (more _)

theorem QueueStage.same (ext : t.ext = s.ext)
    (completed : t.completed = s.completed) : QueueStage t q :=
  stage.frame (fun _ _ => congrFun ext _) fun _ before => completed ▸ before

theorem QueueStage.post {n : Nat} (waiting : Waiting (s.ext n))
    (unlisted : ∀ e ∈ q.ring, e.request ≠ n) (id : Nat) : QueueStage s (q.post n id) := by
  have old {e : Posted} (onRing : e ∈ q.ring) (listed : e.request ∈ q.list ++ [n]) :
      e.request ∈ q.list :=
    (mem_append.mp listed).resolve_right fun last =>
      unlisted e onRing (mem_singleton.mp last)
  refine ⟨fun e has listed => ?_, fun e has listed => ?_, fun e onRing => ?_⟩
  · rcases mem_append.mp has with before | last
    · exact stage.device e before (old (mem_append_left _ before) listed)
    · rw [mem_singleton.mp last]
      exact waiting
  · exact stage.used e has (old (mem_append_right _ has) listed)
  · rcases RequestRing.mem_ring_post.mp onRing with rfl | before
    · exact .inl (mem_append_right _ (mem_singleton.mpr rfl))
    · exact (stage.reset e before).imp_left (mem_append_left _)

theorem QueueStage.shrink (q' : RequestRing)
    (device : ∀ e ∈ q'.device, e ∈ q.device) (used : ∀ e ∈ q'.used, e ∈ q.used)
    (list : ∀ n ∈ q'.list, n ∈ q.list) (reset : ∀ e ∈ q'.ring, e.request ∈ q.list →
      e.request ∈ q'.list ∨ (e.request, SrbStatus.busReset) ∈ s.completed) : QueueStage s q' where
  device e has listed := stage.device e (device e has) (list _ listed)
  used e has listed := stage.used e (used e has) (list _ listed)
  reset e onRing := by
    have old : e ∈ q.ring := (mem_append.mp onRing).elim
      (fun has => mem_append_left _ (device e has))
      (fun has => mem_append_right _ (used e has))
    exact (stage.reset e old).elim (reset e onRing) .inr

theorem QueueStage.answer (matched : q.Matched s.idOf) (has : q.device[j]? = some e)
    (status : Nat) : QueueStage (s.modify e.request (.answer status)) (q.answer j status) := by
  obtain ⟨left, -⟩ := matched.left (RequestRing.ring_eraseIdx has)
  have after : q.answer j status = { q with
      device := q.device.eraseIdx j, used := q.used ++ [{ e with status := status }] } := by
    rw [RequestRing.answer, has]
  refine ⟨fun f held listed => ?_, fun f held listed => ?_, fun f held => ?_⟩
  · rw [RequestRing.list_answer] at listed
    rw [after] at held
    rw [ext_modify_ne s (left f (mem_append_left _ held)).2]
    exact stage.device f (mem_of_mem_eraseIdx held) listed
  · rw [RequestRing.list_answer] at listed
    rw [after] at held
    rcases mem_append.mp held with old | last
    · rw [ext_modify_ne s (left f (mem_append_right _ old)).2]
      exact stage.used f old listed
    rw [mem_singleton.mp last] at listed ⊢
    obtain ⟨sent, fua, answers⟩ := stage.device e (mem_of_getElem? has) listed
    rw [ext_modify_self]
    exact ⟨sent, fua, congrArg (· ++ [((s.ext e.request).chained, status)]) answers⟩
  · obtain ⟨f', old, request, -⟩ := RequestRing.mem_ring_answer held
    rw [RequestRing.list_answer, ← request]
    exact stage.reset f' old

end

end Queue

section

variable (inv : StageInv s)

include inv

/-- What a call does to its own SRB changes nothing for the other ones. -/
theorem StageInv.others (placed : s.view.Placed) {i : Nat}
    (here : s.calls[i]? = some c) (under : c.point ≠ .gone) {ext : Nat → SrbExt}
    (frame : ∀ m, m ≠ c.srb → ext m = s.ext m) (d : SrbCall) (stage : CallStage (ext d.srb) d.point)
    {completed : List (Nat × SrbStatus)} (more : ∀ done ∈ s.completed, done ∈ completed)
    (passed : ∀ n, (n, SrbStatus.success) ∈ completed →
      (n, SrbStatus.success) ∈ s.completed ∨ Passed (ext n)) :
    StageInv { s with ext := ext, calls := s.calls.set i d, completed := completed } where
  calls := by
    intro j c' there
    rcases getElem?_move there with ⟨-, rfl⟩ | ⟨other, before⟩
    · exact stage
    by_cases gone : c'.point = .gone
    · rw [gone]
      trivial
    · show CallStage (ext c'.srb) c'.point
      rw [frame _ (srb_ne placed here under before gone other)]
      exact inv.calls j c' before
  queues k q there := (inv.queues k q there).frame
    (fun e onRing => frame _ (srb_not_posted placed here under there onRing)) more
  passed := by
    intro n done
    rcases passed n done with before | new
    · show Passed (ext n)
      rw [frame _ (srb_not_completed placed here under before)]
      exact inv.passed n before
    · exact new

theorem StageInv.setQueue (stage : QueueStage s q) :
    StageInv { s with queues := s.queues.set k q } where
  __ := inv
  queues l p after := by
    rcases getElem?_move after with ⟨rfl, rfl⟩ | ⟨-, before⟩
    · exact stage.same rfl rfl
    · exact (inv.queues l p before).same rfl rfl

theorem StageInv.answer (placed : s.view.Placed) (status : Nat) (there : s.queues[k]? = some q)
    (has : q.device[j]? = some e) : StageInv { s.modify e.request (.answer status) with
      queues := s.queues.set k (q.answer j status) } := by
  have onRing : e ∈ q.ring := mem_append_left _ (mem_of_getElem? has)
  refine ⟨fun i c here => ?_, fun l p set => ?_, fun n done => ?_⟩
  · by_cases gone : c.point = .gone
    · rw [gone]
      trivial
    · rw [ext_modify_ne s (srb_not_posted placed here gone there onRing).symm]
      exact inv.calls i c here
  · rcases getElem?_move set with ⟨rfl, rfl⟩ | ⟨other, before⟩
    · have matched := placed.matched q (mem_of_getElem? there)
      exact ((inv.queues l q there).answer matched has status).same rfl rfl
    · refine (inv.queues l p before).frame (fun f held => ?_) fun done before => before
      exact ext_modify_ne s (placed.rings_apart before there other held onRing) _
  · -- descriptors on a ring are of an SRB that is in the list or that a reset has completed
    have ne : n ≠ e.request := by
      rintro rfl
      rcases (inv.queues k q there).reset e onRing with listed | reset
      · exact placed.list_apart (mem_of_getElem? there) listed (mem_map_of_mem done)
      · have nodup : (s.completed.map Prod.fst).Nodup := (nodup_append.mp placed.nodup).2.1
        have same := inj_on_of_nodup_map nodup done reset rfl
        exact SrbStatus.noConfusion (Prod.mk.inj same).2
    rw [ext_modify_ne s ne]
    exact inv.passed n done

theorem StageInv.move (placed : s.view.Placed) {i : Nat}
    (here : s.calls[i]? = some c) (under : c.point ≠ .gone) (f : SrbExt → SrbExt) (p : SrbPoint)
    (stage : CallStage (f (s.ext c.srb)) p) :
    StageInv { s.modify c.srb f with calls := s.calls.set i ⟨c.srb, p⟩ } := by
  refine inv.others placed here under (fun m ne => if_neg ne) ⟨c.srb, p⟩ ?_
    (fun done before => before) fun n before => .inl before
  show CallStage ((s.modify c.srb f).ext c.srb) p
  rw [ext_modify_self]
  exact stage

theorem StageInv.post (placed : s.view.Placed) {i : Nat} (here : s.calls[i]? = some c)
    (under : c.point ≠ .gone) (there : s.queues[k]? = some q) (f : SrbExt → SrbExt)
    (waiting : Waiting (f (s.ext c.srb))) : StageInv ((s.post i c.srb k q).modify c.srb f) := by
  have moved := inv.move placed here under f .gone trivial
  refine moved.setQueue ((moved.queues k q there).post ?_
    (fun e => srb_not_posted placed here under there) _)
  rw [ext_modify_self]
  exact waiting

end

/-- Every effect keeps the stage of each SRB. -/
theorem StorEffect.stages (stages : StageInv s) (placed : s.view.Placed) (ok : FuaOk s op)
    (effect : StorEffect a s op t) : StageInv t := by
  cases effect with
  | quiet =>
    exact ⟨stages.calls, fun k q there => (stages.queues k q there).same rfl rfl, stages.passed⟩
  | accept =>
    refine ⟨fun i c there => ?_, fun k q there => ?_, fun n done => ?_⟩
    · show CallStage (if c.srb = s.accepted then _ else _) c.point
      rcases getElem?_start there with ⟨-, rfl⟩ | before
      · rw [if_pos rfl]
        exact ⟨rfl, rfl, rfl⟩
      by_cases gone : c.point = .gone
      · rw [gone]
        trivial
      · rw [ext_accept (srb_lt placed before gone)]
        exact stages.calls i c before
    · refine (stages.queues k q there).frame (fun e onRing => ?_) fun _ before => before
      exact ext_accept (placed.ring_lt (mem_of_getElem? there) onRing) _
    · show Passed (if n = s.accepted then _ else _)
      rw [ext_accept (mem_range.mp (placed.once.mem_iff.mp
        (mem_append_right _ (mem_map_of_mem done))))]
      exact stages.passed n done
  | @number i n here =>
    have unsent : Unsent (s.ext n) := stages.calls i _ here
    exact stages.move placed here SrbPoint.noConfusion ({ · with id := s.lastSrbId }) _ unsent
  | @count i n here =>
    have unsent : Unsent (s.ext n) := stages.calls i _ here
    have moved := stages.others placed here SrbPoint.noConfusion (fun m ne => rfl)
      ⟨n, .counted⟩ unsent (fun _ before => before) fun n before => .inl before
    exact ⟨moved.calls, fun k q there => (moved.queues k q there).same rfl rfl, moved.passed⟩
  | @route i n k _ here =>
    have unsent : Unsent (s.ext n) := stages.calls i _ here
    exact stages.move placed here SrbPoint.noConfusion ({ · with messageId := k + 1 }) _ unsent
  | @complete i c _ _ here under fine =>
    have stage := stages.calls i c here
    refine stages.others placed here under (fun m ne => rfl) ⟨c.srb, .gone⟩ trivial
      (fun done before => mem_append_left _ before) fun n done => ?_
    rcases mem_append.mp done with before | last
    · exact .inl before
    obtain ⟨rfl, is⟩ := Prod.mk.inj (mem_singleton.mp last)
    refine .inr fun sent notId => ?_
    rcases fine is.symm with entered | counted | getId | ⟨⟨k, collected⟩, ok⟩
    · rw [entered] at stage
      exact absurd (stage.1.symm.trans sent) Bool.false_ne_true
    · rw [counted] at stage
      exact absurd (stage.1.symm.trans sent) Bool.false_ne_true
    · exact absurd getId notId
    · rw [collected] at stage
      rw [← ok]
      exact stage.2.2
  | @fail i n _ _ _ f here bad =>
    refine stages.others placed here SrbPoint.noConfusion (fun m ne => if_neg ne) ⟨n, .gone⟩ trivial
      (fun done before => mem_append_left _ before) fun m done => ?_
    rcases mem_append.mp done with before | last
    · exact .inl before
    · exact absurd (Prod.mk.inj (mem_singleton.mp last)).2.symm bad
  | @submit i n k q _ here there =>
    obtain ⟨-, chained, answers⟩ : Unsent (s.ext n) := stages.calls i _ here
    refine stages.post placed here SrbPoint.noConfusion there _ ⟨rfl, fun _ => chained, ?_⟩
    rw [answers, chained]
    rfl
  | @resend i n k q _ _ here there fua =>
    obtain ⟨sent, first, answers⟩ : Answered (s.ext n) := stages.calls i _ here
    refine stages.post placed here SrbPoint.noConfusion there _
      ⟨sent, fun again => absurd again Bool.false_ne_true, ?_⟩
    rw [answers, SrbExt.earlier, first fua, ok _ here fua]
    rfl
  | answer status there has => exact stages.answer placed status there has
  | @collectNone k q q' there taken =>
    have matched := placed.matched q (mem_of_getElem? there)
    rcases matched.collect_none taken with rfl | ⟨e, rest, first, -, rfl⟩
    · rw [set_same there]
      exact stages
    · exact stages.setQueue ((stages.queues k q there).shrink _ (fun _ has => has)
        (fun f has => first ▸ mem_cons_of_mem e has) (fun _ listed => listed)
        fun _ _ listed => .inl listed)
  | @collectSome k n q q' there taken =>
    have matched := placed.matched q (mem_of_getElem? there)
    obtain ⟨e, rest, first, rfl, listed, rfl⟩ := matched.collect_some taken
    obtain ⟨left, -⟩ := matched.left (RequestRing.ring_cons first)
    have taken := stages.setQueue (k := k) ((stages.queues k q there).shrink
      { q with used := rest, list := q.list.erase e.request, count := q.count - 1#32 }
      (fun _ has => has) (fun f has => first ▸ mem_cons_of_mem e has)
      (fun _ listed => mem_of_mem_erase listed)
      fun f onRing listed => .inl ((mem_erase_of_ne (left f onRing).2).mpr listed))
    refine ⟨fun i c here => ?_, fun l p after => ?_, taken.passed⟩
    · rcases getElem?_start here with ⟨-, rfl⟩ | before
      · exact (stages.queues k q there).used e (first ▸ mem_cons_self) listed
      · exact stages.calls i c before
    · exact (taken.queues l p after).same rfl rfl
  | @drain j k q _ there =>
    refine ⟨stages.calls, fun l p after => ?_, fun n done => stages.passed n ?_⟩
    · have more (l : Nat) (p : RequestRing) (there : s.queues[l]? = some p) :
          QueueStage { s with completed := s.completed ++ q.list.map (·, SrbStatus.busReset) }
            p := (stages.queues l p there).frame (fun _ _ => rfl)
        fun _ before => mem_append_left _ before
      rcases getElem?_move after with ⟨rfl, rfl⟩ | ⟨-, before⟩
      · refine ((more l q there).shrink q.drain (fun _ has => has) (fun _ has => has)
          (forall_mem_nil _) fun f _ listed => ?_).same rfl rfl
        exact .inr (mem_append_right _ (mem_map_of_mem listed))
      · exact (more l p before).same rfl rfl
    · refine (mem_append.mp done).resolve_right fun new => ?_
      obtain ⟨m, -, is⟩ := mem_map.mp new
      cases is

theorem StageInv.start (a : QueueSetup) : StageInv (storStart a) := by
  refine ⟨fun i c here => ?_, fun k q there => ?_, fun n done => absurd done not_mem_nil⟩
  · cases here
  · rw [eq_of_mem_replicate (mem_of_getElem? there)]
    exact ⟨forall_mem_nil _, forall_mem_nil _, forall_mem_nil _⟩

/-- **No error becomes a success**: what is completed with success and went to the device, other
than for the serial number, was answered with `VIRTIO_BLK_S_OK`, and so was the flush that was
chained to it. -/
theorem success_of_ok
    (reach : Reachable (· = storStart a) (Next (storStep a) (StageRegular a)) s) {n : Nat}
    (done : (n, SrbStatus.success) ∈ s.completed) (sent : (s.ext n).sent = true)
    (notId : (s.ext n).type ≠ .getId) :
    (s.ext n).answers = if (s.ext n).chained then [(false, virtioBlkSOk), (true, virtioBlkSOk)]
      else [(false, virtioBlkSOk)] := by
  have inv : StorInv a s ∧ StageInv s := by
    refine reach.machine_run (P := fun s => StorInv a s ∧ StageInv s) ⟨.start a, .start a⟩ ?_
    rintro s op ⟨inv, stages⟩ ⟨regular, ok⟩
    obtain ⟨t, out, stepped, effect, inv'⟩ := inv.step regular
    exact ⟨t, out, stepped, inv', effect.stages stages inv.placed ok⟩
  rw [inv.2.passed n done sent notId, SrbExt.earlier]
  cases (s.ext n).chained with
  | true | false => rfl

def oneQueue : QueueSetup := ⟨1, false, false, true, by decide⟩

def sendWrite (fua : Bool) (i : Nat) : List StorOp :=
  [.startIo .transfer .other fua, .readId i, .countId i, .testReset i none, .submit i true]

/-- A write with Force Unit Access: the answer for the data, and the one for the flush. -/
theorem success_of_ok_fua :
    ∃ s : StorRun, s.completed = [(0, .success)] ∧ (s.ext 0).chained = true ∧
      (s.ext 0).answers = if (s.ext 0).chained then [(false, virtioBlkSOk), (true, virtioBlkSOk)]
        else [(false, virtioBlkSOk)] := by
  have replay : ∃ s ∈ attempt (storStep oneQueue) (StageRegular oneQueue) (storStart oneQueue)
      (sendWrite true 0 ++ [.answer 0 0 0, .collect 0, .finish 1 true false, .answer 0 0 0,
        .collect 0, .finish 2 true false]),
      s.completed = [(0, .success)] ∧ (s.ext 0).chained = true ∧ (s.ext 0).sent = true ∧
        (s.ext 0).type ≠ .getId := by
    decide +kernel
  obtain ⟨s, reach, completed, chained, sent, notId⟩ := reachable_of_replay _ replay
  have done : (0, SrbStatus.success) ∈ s.completed := by
    rw [completed]
    exact mem_singleton.mpr rfl
  exact ⟨s, completed, chained, success_of_ok reach done sent notId⟩

/-- A write with Force Unit Access that the device fails, and whose flush it then answers with
`VIRTIO_BLK_S_OK`. -/
theorem fua_error_lost :
    ∃ s, Reachable (· = storStart oneQueue) (Next (storStep oneQueue) (StorRegular oneQueue)) s ∧
      s.completed = [(0, .success)] ∧ (s.ext 0).sent = true ∧ (s.ext 0).chained = true ∧
        (s.ext 0).answers = [(false, 1), (true, 0)] := by
  refine reachable_of_replay
    (sendWrite true 0 ++ [.answer 0 0 1, .collect 0, .finish 1 true false, .answer 0 0 0,
      .collect 0, .finish 2 true false]) ?_
  decide +kernel

/-! ## Every SRB once -/

/-- The device has nothing of a queue whose list a reset empties. -/
def DrainIdle (s : StorRun) : StorOp → Prop
  | .drain j => ∀ k ∈ s.resets[j]?, ∀ q ∈ s.queues[k]?, q.device = []
  | _ => True

def OnceRegular (a : QueueSetup) (s : StorRun) (op : StorOp) : Prop :=
  StorRegular a s op ∧ DrainIdle s op

instance (s : StorRun) (op : StorOp) : Decidable (DrainIdle s op) := by
  unfold DrainIdle
  split <;> infer_instance

instance (a : QueueSetup) (s : StorRun) (op : StorOp) : Decidable (OnceRegular a s op) :=
  inferInstanceAs (Decidable (_ ∧ _))

theorem StorEffect.owned (placed : s.view.Placed) (owned : s.view.Owned) (idle : DrainIdle s op)
    (effect : StorEffect a s op t) : t.view.Owned := by
  cases effect with
  | quiet | accept | number | count | route | complete | fail => exact owned
  | submit _ _ there | resend _ _ _ there => exact owned.post there _ _
  | @answer k j q e status there => exact owned.answer there j status
  | collectNone there taken | collectSome there taken => exact owned.collect there placed taken
  | @drain j k q reset there => exact owned.drain (idle k reset q there)

theorem owned_of_reachable
    (reach : Reachable (· = storStart a) (Next (storStep a) (OnceRegular a)) s) :
    StorInv a s ∧ s.view.Owned := by
  refine reach.machine_invariant (P := fun s => StorInv a s ∧ s.view.Owned) ?_ ?_
  · rintro _ rfl
    exact ⟨.start a, Requests.Owned.start _ a.numQueues⟩
  · rintro s op ⟨inv, owned⟩ ⟨regular, idle⟩
    obtain ⟨t, out, stepped, effect, inv'⟩ := inv.step regular
    exact ⟨t, out, stepped, inv', effect.owned inv.placed owned idle⟩

/-- **Exactly once**: an SRB is in the hands of one call, in one list, or completed once, and so all
are completed when no call has one and the lists are empty; the device has nothing of a completed
SRB; and a list holds the SRBs that are outstanding on its queue. -/
theorem srb_once (reach : Reachable (· = storStart a) (Next (storStep a) (OnceRegular a)) s) :
    s.view.places.Perm (List.range s.accepted) ∧
      ((∀ c ∈ s.calls, c.point = .gone) → (∀ q ∈ s.queues, q.list = []) →
        (s.completed.map Prod.fst).Perm (List.range s.accepted)) ∧
      (∀ done ∈ s.completed, ∀ q ∈ s.queues, ∀ e ∈ q.device, e.request ≠ done.1) ∧
      ∀ q ∈ s.queues, q.count = BitVec.ofNat 32 q.list.length ∧
        ∀ n, n ∈ q.list ↔ (∃ e ∈ q.ring, e.request = n) ∧ n ∉ s.completed.map Prod.fst := by
  obtain ⟨inv, owned⟩ := owned_of_reachable reach
  refine ⟨inv.placed.once, fun gone empty => ?_, ?_, fun q there => ?_⟩
  · refine inv.placed.all_completed (fun hold member => ?_) empty
    obtain ⟨c, there, rfl⟩ := mem_map.mp member
    exact if_pos (gone c there)
  · intro done member q there e has
    exact inv.placed.not_owned owned (mem_map_of_mem member) there has
  · exact ⟨(inv.placed.matched q there).count, fun n => inv.placed.mem_list_iff there⟩

structure StorView where
  points : List SrbPoint
  device : List (List Nat)
  lists : List (List Nat)
  completed : List (Nat × SrbStatus)
  deriving DecidableEq

def storView (s : StorRun) : StorView where
  points := s.calls.map SrbCall.point
  device := s.queues.map fun q => q.device.map Posted.request
  lists := s.queues.map RequestRing.list
  completed := s.completed

/-- A write with Force Unit Access, from its submission to its completion after the flush. -/
theorem srb_once_fua :
    ∃ s, Reachable (· = storStart oneQueue) (Next (storStep oneQueue) (OnceRegular oneQueue)) s ∧
      storView s = ⟨[.gone, .gone, .gone], [[]], [[]], [(0, .success)]⟩ ∧
        s.view.places.Perm (List.range s.accepted) := by
  have replay : ∃ s ∈ attempt (storStep oneQueue) (OnceRegular oneQueue) (storStart oneQueue)
      (sendWrite true 0 ++ [.answer 0 0 0, .collect 0, .finish 1 true false, .answer 0 0 0,
        .collect 0, .finish 2 true false]),
      storView s = ⟨[.gone, .gone, .gone], [[]], [[]], [(0, .success)]⟩ := by
    decide +kernel
  obtain ⟨s, reach, shape⟩ := reachable_of_replay _ replay
  exact ⟨s, reach, shape, (srb_once reach).1⟩

/-- A reset completes a write that the device has. -/
theorem reset_while_owned :
    ∃ s, Reachable (· = storStart oneQueue) (Next (storStep oneQueue) (StorRegular oneQueue)) s ∧
      storView s = ⟨[.gone], [[0]], [[]], [(0, .busReset)]⟩ := by
  refine reachable_of_replay (sendWrite false 0 ++ [.resetBus, .drain 0]) ?_
  decide +kernel

end KvmGuestDrivers.VioStor

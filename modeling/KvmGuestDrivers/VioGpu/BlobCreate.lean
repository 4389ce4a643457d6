/-
# VioGpu.BlobCreate -- creating the resource of a blob allocation

The resource of a blob allocation is created on first use, by whoever comes first
(`CreateBlobResource`); the others wait for the host's response.  The state word says whether
a request is pending, the event wakes those who wait, and a reference of the run-down
protection keeps the allocation alive until the completion callback has run.

Each read and write of a shared variable is a step, and calls and callbacks are interleaved
in any way.  A request queued is a member of `calls` of its own, from the moment it is queued
to the end of its callback.  Every reference acquired has a number; `released` lists them as
they are given back.
-/
import KvmGuestDrivers.Theory.Calls
import KvmGuestDrivers.VioGpu.CtrlQueue

namespace KvmGuestDrivers.VioGpu

set_option autoImplicit false

open Theory VirtIO List

/-! ## The machine -/

inductive NtStatus where
  | success
  | pending
  | unsuccessful
  | insufficientResources
  | deletePending
  | invalidParameter
  | notSupported
  deriving DecidableEq

def NtStatus.code : NtStatus → Nat
  | .success => 0x00000000
  | .pending => 0x00000103
  | .unsuccessful => 0xC0000001
  | .insufficientResources => 0xC000009A
  | .deletePending => 0xC0000056
  | .invalidParameter => 0xC000000D
  | .notSupported => 0xC00000BB

/-- `NT_SUCCESS`: not negative as a `LONG`. -/
def ntSuccess (code : Nat) : Bool := decide (0 ≤ long code)

variable (status : NtStatus)

def NtStatus.ntSuccess : Bool := VioGpu.ntSuccess status.code

theorem NtStatus.ntSuccess_iff :
    status.ntSuccess = true ↔ status = .success ∨ status = .pending := by
  cases status <;> decide

inductive BlobCreateState where
  | idle
  | pending
  | created
  deriving DecidableEq

def respErrUnspec : Nat := 0x1200

/-- The buffer that `CtrlQueue::CreateResourceBlob` queues: a `GPU_RES_CREATE_BLOB` and room
for a header. -/
def createResourceBlobVbuffer : GpuVbuffer := ⟨0, 56, 0, 0, 56, 24, by decide⟩

/-- Who called `CreateBlobResource`; in `EnsureBlobCreatedAndWait`, whether the IRQL lets the
caller wait. -/
inductive CreateCaller where
  | direct
  | ensure (canWait : Bool)
  deriving DecidableEq

/-- Where a call is: before the operation named.  `ref` is the reference it holds. -/
inductive BlobPoint where
  /-- `EnsureBlobCreated`: the read of `m_resource_created`. -/
  | ensuring (canWait : Bool)
  /-- `CreateBlobResource`: `ExAcquireRundownProtection`. -/
  | acquiring (caller : CreateCaller)
  | clearing (caller : CreateCaller) (ref : Nat)
  | claiming (caller : CreateCaller) (ref : Nat)
  /-- The state was 2: `KeSetEvent`, then the reads that give the status. -/
  | settingAgain (caller : CreateCaller) (ref : Nat)
  | readingCreated (caller : CreateCaller) (ref : Nat)
  | readingStatus (caller : CreateCaller) (ref : Nat)
  /-- The state was 0: the store of `STATUS_PENDING`, and the request. -/
  | storingPending (caller : CreateCaller) (ref : Nat)
  | allocating (caller : CreateCaller) (ref : Nat)
  | queueing (caller : CreateCaller) (ref : Nat)
  /-- No memory: the store of the status, the state back to 0, and `KeSetEvent`. -/
  | failing (caller : CreateCaller) (ref : Nat) (status : NtStatus)
  | undoing (caller : CreateCaller) (ref : Nat) (status : NtStatus)
  | settingFailed (caller : CreateCaller) (ref : Nat) (status : NtStatus)
  /-- `ExReleaseRundownProtection` before the return of `status`; `found` when the state was 2. -/
  | releasing (caller : CreateCaller) (ref : Nat) (status : NtStatus) (found : Bool)
  | created (status : NtStatus) (found : Bool)
  /-- The request is with the queue or the host. -/
  | queued (ref : Nat)
  /-- `BlobCreateCompleteCB`, with the verdict on the response. -/
  | completing (ref : Nat) (ok : Bool)
  | storingCreated (ref : Nat) (ok : Bool)
  | storingResource (ref : Nat)
  | leaving (ref : Nat) (ok : Bool)
  | setting (ref : Nat)
  | releasingRequest (ref : Nat)
  | completed
  /-- `WaitForPendingBlobCreate`: the read of the state; `result` when the status is wanted. -/
  | checking (canWait : Bool) (result : Bool)
  | waiting (result : Bool)
  | waited
  /-- The end of `EnsureBlobCreatedAndWait`: the read of `m_blob_created`, and the two reads of
  `m_blob_create_status`. -/
  | readingResult
  | readingFailure
  | rereading
  | ensured (status : NtStatus)
  deriving DecidableEq

structure BlobAllocation where
  state : BlobCreateState
  event : Bool
  status : NtStatus
  blobCreated : Bool
  resourceCreated : Bool
  /-- `m_blob_create_rundown`: the references, and whether the destructor waits for them. -/
  references : Nat
  rundown : Bool
  calls : List BlobPoint
  acquired : Nat
  released : List Nat
  responses : List Nat

def blobStart : BlobAllocation :=
  ⟨.idle, true, .pending, false, false, 0, false, [], 0, [], []⟩

inductive BlobOp where
  | create
  | ensure (canWait : Bool)
  | wait (canWait : Bool)
  | rundown
  | advance (i : Nat)
  /-- The next operation of a call is an allocation, and there is no memory. -/
  | exhaust (i : Nat)
  | respond (i : Nat) (type : Nat)

/-- What follows the return of `CreateBlobResource`: `EnsureBlobCreated` ignores the status. -/
def CreateCaller.back (found : Bool) : CreateCaller → BlobPoint
  | .direct => .created status found
  | .ensure canWait => .checking canWait true

def afterWait (result : Bool) : BlobPoint := if result then .readingResult else .waited

variable (s : BlobAllocation)

def blobAdvance : BlobPoint → BlobAllocation × BlobPoint
  | .ensuring canWait =>
    (s, if s.resourceCreated then .checking canWait true else .acquiring (.ensure canWait))
  | .acquiring caller =>
    if s.rundown then (s, caller.back .deletePending false)
    else ({ s with references := s.references + 1, acquired := s.acquired + 1 },
      .clearing caller s.acquired)
  | .clearing caller ref => ({ s with event := false }, .claiming caller ref)
  | .claiming caller ref =>
    match s.state with
    | .pending => (s, .releasing caller ref .pending false)
    | .created => (s, .settingAgain caller ref)
    | .idle => ({ s with state := .pending }, .storingPending caller ref)
  | .settingAgain caller ref => ({ s with event := true }, .readingCreated caller ref)
  | .readingCreated caller ref =>
    (s, if s.blobCreated then .releasing caller ref .success true else .readingStatus caller ref)
  | .readingStatus caller ref => (s, .releasing caller ref s.status true)
  | .storingPending caller ref => ({ s with status := .pending }, .allocating caller ref)
  | .allocating caller ref => (s, .queueing caller ref)
  | .queueing caller ref =>
    -- the result of `QueueBufferFenced` is not looked at
    (if validateCtrlQueueBuffer createResourceBlobVbuffer then
        { s with calls := s.calls ++ [.queued ref] }
      else s,
      caller.back .success false)
  | .failing caller ref status => ({ s with status := status }, .undoing caller ref status)
  | .undoing caller ref status => ({ s with state := .idle }, .settingFailed caller ref status)
  | .settingFailed caller ref status =>
    ({ s with event := true }, .releasing caller ref status false)
  | .releasing caller ref status found =>
    ({ s with references := s.references - 1, released := s.released ++ [ref] },
      caller.back status found)
  | .completing ref ok =>
    ({ s with status := if ok then .success else .unsuccessful }, .storingCreated ref ok)
  | .storingCreated ref ok =>
    ({ s with blobCreated := ok }, if ok then .storingResource ref else .leaving ref false)
  | .storingResource ref => ({ s with resourceCreated := true }, .leaving ref true)
  | .leaving ref ok => ({ s with state := if ok then .created else .idle }, .setting ref)
  | .setting ref => ({ s with event := true }, .releasingRequest ref)
  | .releasingRequest ref =>
    ({ s with references := s.references - 1, released := s.released ++ [ref] }, .completed)
  | .checking canWait result =>
    (s, if s.state = .pending ∧ canWait = true then .waiting result else afterWait result)
  | .waiting result => (s, if s.event then afterWait result else .waiting result)
  | .readingResult => (s, if s.blobCreated then .ensured .success else .readingFailure)
  | .readingFailure => (s, if s.status.ntSuccess then .ensured .unsuccessful else .rereading)
  | .rereading => (s, .ensured s.status)
  | .queued ref => (s, .queued ref)
  | .created status found => (s, .created status found)
  | .completed => (s, .completed)
  | .waited => (s, .waited)
  | .ensured status => (s, .ensured status)

def BlobAllocation.moved (t : BlobAllocation) (i : Nat) (new : BlobPoint) : BlobAllocation :=
  { t with calls := t.calls.set i new }

def blobStep : BlobOp → Except Empty (BlobAllocation × Unit)
  | .create => .ok ({ s with calls := s.calls ++ [.acquiring .direct] }, ())
  | .ensure canWait => .ok ({ s with calls := s.calls ++ [.ensuring canWait] }, ())
  | .wait canWait => .ok ({ s with calls := s.calls ++ [.checking canWait false] }, ())
  | .rundown => .ok ({ s with rundown := true }, ())
  | .advance i =>
    match s.calls[i]? with
    | none => .ok (s, ())
    | some old => .ok ((blobAdvance s old).1.moved i (blobAdvance s old).2, ())
  | .exhaust i =>
    match s.calls[i]? with
    | some (.allocating caller ref) | some (.queueing caller ref) =>
      .ok (s.moved i (.failing caller ref .insufficientResources), ())
    | _ => .ok (s, ())
  | .respond i type =>
    match s.calls[i]? with
    | some (.queued ref) =>
      .ok (BlobAllocation.moved { s with responses := s.responses ++ [type] } i
        (.completing ref (type < respErrUnspec)), ())
    | _ => .ok (s, ())

def BlobAnyOp (_ : BlobAllocation) (_ : BlobOp) : Prop := True

def BlobPoint.isStoring : BlobPoint → Bool
  | .storingPending _ _ => true
  | _ => false

def BlobPoint.isRereading : BlobPoint → Bool
  | .rereading => true
  | _ => false

/-- No call stores `STATUS_PENDING` while another is between the two reads of the status. -/
def Undisturbed : BlobOp → Prop
  | .advance i =>
    ((s.calls[i]?).all fun pt => !pt.isStoring) = true ∨ s.calls.countP BlobPoint.isRereading = 0
  | _ => True

variable (op : BlobOp)

instance : Decidable (BlobAnyOp s op) := by
  unfold BlobAnyOp
  infer_instance

instance : Decidable (Undisturbed s op) := by
  unfold Undisturbed
  split <;> infer_instance

/-- The host refuses the request of call 0, which reads `STATUS_UNSUCCESSFUL`; call 2 stores
`STATUS_PENDING` for its own request, and call 0 returns that, which its callers take for
success. -/
theorem blob_status_reread : ∃ s, Reachable (· = blobStart) (Next blobStep BlobAnyOp) s ∧
      s.calls[0]? = some (.ensured .pending) ∧ s.responses = [0x1200] ∧
      NtStatus.pending.ntSuccess = true ∧ ¬ 0x1200 < respErrUnspec := by
  refine reachable_of_replay
    ([.ensure true] ++ List.replicate 8 (.advance 0) ++ [.respond 1 0x1200] ++
      List.replicate 5 (.advance 1) ++ List.replicate 3 (.advance 0) ++ [.ensure true] ++
      List.replicate 5 (.advance 2) ++ [.advance 0]) ?_
  decide

/-! ## What an operation can do -/

/-- The operations of calls, requests and callbacks, with the tests they make. -/
inductive BlobMove (s : BlobAllocation) : BlobPoint → BlobAllocation → BlobPoint → Prop where
  | known {canWait} (made : s.resourceCreated = true) :
      BlobMove s (.ensuring canWait) s (.checking canWait true)
  | unknown {canWait} : BlobMove s (.ensuring canWait) s (.acquiring (.ensure canWait))
  | refuse {caller} : BlobMove s (.acquiring caller) s (caller.back .deletePending false)
  | acquire {caller} : BlobMove s (.acquiring caller)
      { s with references := s.references + 1, acquired := s.acquired + 1 }
      (.clearing caller s.acquired)
  | clear {caller ref} :
      BlobMove s (.clearing caller ref) { s with event := false } (.claiming caller ref)
  | busy {caller ref} (is : s.state = .pending) :
      BlobMove s (.claiming caller ref) s (.releasing caller ref .pending false)
  | find {caller ref} (is : s.state = .created) :
      BlobMove s (.claiming caller ref) s (.settingAgain caller ref)
  | claim {caller ref} (is : s.state = .idle) :
      BlobMove s (.claiming caller ref) { s with state := .pending } (.storingPending caller ref)
  | setAgain {caller ref} :
      BlobMove s (.settingAgain caller ref) { s with event := true } (.readingCreated caller ref)
  | found {caller ref} (made : s.blobCreated = true) :
      BlobMove s (.readingCreated caller ref) s (.releasing caller ref .success true)
  | lost {caller ref} (made : s.blobCreated = false) :
      BlobMove s (.readingCreated caller ref) s (.readingStatus caller ref)
  | readStatus {caller ref} :
      BlobMove s (.readingStatus caller ref) s (.releasing caller ref s.status true)
  | storePending {caller ref} : BlobMove s (.storingPending caller ref)
      { s with status := .pending } (.allocating caller ref)
  | allocate {caller ref} : BlobMove s (.allocating caller ref) s (.queueing caller ref)
  | queue {caller ref} : BlobMove s (.queueing caller ref)
      { s with calls := s.calls ++ [.queued ref] } (caller.back .success false)
  | exhaust {caller ref} : BlobMove s (.allocating caller ref) s
      (.failing caller ref .insufficientResources)
  | exhaustQueue {caller ref} : BlobMove s (.queueing caller ref) s
      (.failing caller ref .insufficientResources)
  | fail {caller ref status} : BlobMove s (.failing caller ref status) { s with status := status }
        (.undoing caller ref status)
  | undo {caller ref status} : BlobMove s (.undoing caller ref status) { s with state := .idle }
        (.settingFailed caller ref status)
  | setFailed {caller ref status} :
      BlobMove s (.settingFailed caller ref status) { s with event := true }
        (.releasing caller ref status false)
  | release {caller ref status found} : BlobMove s (.releasing caller ref status found)
        { s with references := s.references - 1, released := s.released ++ [ref] }
        (caller.back status found)
  | respond {ref type} : BlobMove s (.queued ref)
      { s with responses := s.responses ++ [type] } (.completing ref (type < respErrUnspec))
  | complete {ref ok} : BlobMove s (.completing ref ok)
      { s with status := if ok then .success else .unsuccessful } (.storingCreated ref ok)
  | storeCreated {ref} : BlobMove s (.storingCreated ref true)
      { s with blobCreated := true } (.storingResource ref)
  | storeRefused {ref} : BlobMove s (.storingCreated ref false)
      { s with blobCreated := false } (.leaving ref false)
  | storeResource {ref} : BlobMove s (.storingResource ref)
      { s with resourceCreated := true } (.leaving ref true)
  | leave {ref ok} : BlobMove s (.leaving ref ok)
      { s with state := if ok then .created else .idle } (.setting ref)
  | set {ref} : BlobMove s (.setting ref) { s with event := true } (.releasingRequest ref)
  | releaseRequest {ref} : BlobMove s (.releasingRequest ref)
      { s with references := s.references - 1, released := s.released ++ [ref] } .completed
  | pass {canWait result} : BlobMove s (.checking canWait result) s (afterWait result)
  | wait {result} (is : s.state = .pending) : BlobMove s (.checking true result) s (.waiting result)
  | wake {result} (set : s.event = true) : BlobMove s (.waiting result) s (afterWait result)
  | readYes (made : s.blobCreated = true) : BlobMove s .readingResult s (.ensured .success)
  | readNo : BlobMove s .readingResult s .readingFailure
  | mask : BlobMove s .readingFailure s (.ensured .unsuccessful)
  | failed (is : s.status.ntSuccess = false) : BlobMove s .readingFailure s .rereading
  | reread : BlobMove s .rereading s (.ensured s.status)
  | stay {pt} : BlobMove s pt s pt

section Moves

variable {s} {t : BlobAllocation} {i : Nat} {old new pt : BlobPoint}

theorem move_of_blobAdvance (s : BlobAllocation) (old : BlobPoint) :
    BlobMove s old (blobAdvance s old).1 (blobAdvance s old).2 := by
  cases old with
  | ensuring =>
    simp only [blobAdvance]
    split
    · rename_i made
      exact .known made
    · exact .unknown
  | acquiring =>
    simp only [blobAdvance]
    split
    · exact .refuse
    · exact .acquire
  | claiming =>
    simp only [blobAdvance]
    split
    · rename_i is
      exact .busy is
    · rename_i is
      exact .find is
    · rename_i is
      exact .claim is
  | readingCreated =>
    simp only [blobAdvance]
    split
    · rename_i made
      exact .found made
    · rename_i made
      exact .lost (Bool.eq_false_iff.mpr made)
  | queueing =>
    exact .queue
  | storingCreated _ ok =>
    cases ok with
    | false => exact .storeRefused
    | true => exact .storeCreated
  | checking =>
    simp only [blobAdvance]
    split
    · rename_i both
      obtain ⟨is, rfl⟩ := both
      exact .wait is
    · exact .pass
  | waiting =>
    simp only [blobAdvance]
    split
    · rename_i set
      exact .wake set
    · exact .stay
  | readingResult =>
    simp only [blobAdvance]
    split
    · rename_i made
      exact .readYes made
    · exact .readNo
  | readingFailure =>
    simp only [blobAdvance]
    split
    · exact .mask
    · rename_i is
      exact .failed (Bool.eq_false_iff.mpr is)
  | clearing => exact .clear
  | settingAgain => exact .setAgain
  | readingStatus => exact .readStatus
  | storingPending => exact .storePending
  | allocating => exact .allocate
  | failing => exact .fail
  | undoing => exact .undo
  | settingFailed => exact .setFailed
  | releasing => exact .release
  | completing => exact .complete
  | storingResource => exact .storeResource
  | leaving => exact .leave
  | setting => exact .set
  | releasingRequest => exact .releaseRequest
  | rereading => exact .reread
  | _ => exact .stay

/-- Calls are as many as before, or a request has been added behind them. -/
theorem BlobMove.here (move : BlobMove s old t new) (here : s.calls[i]? = some old) :
    t.calls[i]? = some old := by
  cases move with
  | queue => exact (getElem?_append_left (List.getElem?_eq_some_iff.mp here).1).trans here
  | _ => exact here

/-! ## The owner of the pending state -/

namespace BlobPoint

/-- The call, request or callback that has to leave the pending state. -/
def owns : BlobPoint → Bool
  | .storingPending _ _ | .allocating _ _ | .queueing _ _ | .failing _ _ _ | .undoing _ _ _ => true
  | .queued _ | .completing _ _ | .storingCreated _ _ | .storingResource _ | .leaving _ _ => true
  | _ => false

def isOutstanding : BlobPoint → Bool
  | .queued _ => true
  | _ => false

end BlobPoint

open BlobPoint

/-- The state is "pending" as long as one call, request or callback owns it. -/
def Owned (s : BlobAllocation) : Prop :=
  s.calls.countP owns = if s.state = .pending then 1 else 0

theorem Owned.le_one (owned : Owned s) : s.calls.countP owns ≤ 1 := by
  rw [owned]
  split <;> decide

theorem Owned.pending (owned : Owned s) (there : pt ∈ s.calls) (owns : pt.owns = true) :
    s.state = .pending := by
  have some := countP_pos_iff.mpr ⟨pt, there, owns⟩
  by_contra other
  rw [owned, if_neg other] at some
  exact lt_irrefl 0 some

section

variable (here : s.calls[i]? = some old)

include here

theorem Owned.move (owned : Owned s)
    (move : BlobMove s old t new) : Owned (t.moved i new) := by
  have owner := owned.pending (mem_of_getElem? here)
  have frame : t.calls = s.calls → t.state = s.state → new.owns = old.owns →
      Owned (t.moved i new) := by
    intro calls state same
    show (t.calls.set i new).countP owns = if t.state = .pending then 1 else 0
    rw [calls, state, countP_same here new owns same]
    exact owned
  cases move with
  | claim is =>
    show (s.calls.set i _).countP owns = 1
    rw [countP_enter here _ owns rfl rfl, owned, is]
    rfl
  | @undo caller ref status =>
    have left := countP_leave here (settingFailed caller ref status) owns rfl rfl
    rw [owned, owner rfl] at left
    exact Nat.succ.inj left
  | @leave ref ok =>
    have left := countP_leave here (setting ref) owns rfl rfl
    rw [owned, owner rfl] at left
    show (s.calls.set i (setting ref)).countP owns = _
    rw [Nat.succ.inj left]
    cases ok <;> rfl
  | @queue caller =>
    -- the request takes over from the call
    have there := BlobMove.queue.here here
    have left := countP_leave there (caller.back .success false) owns rfl (by cases caller <;> rfl)
    rw [countP_start, owned, owner rfl] at left
    rw [owner rfl]
    exact Nat.succ.inj left
  | @refuse caller | @release caller => exact frame rfl rfl (by cases caller <;> rfl)
  | @pass _ result | @wake result => exact frame rfl rfl (by cases result <;> rfl)
  | _ => exact frame rfl rfl rfl

/-! ## The event -/

namespace BlobPoint

/-- The call or callback has cleared the event and is going to look at the state, or is going to
set the event. -/
def isChanging : BlobPoint → Bool
  | .claiming _ _ | .settingAgain _ _ | .settingFailed _ _ _ | .setting _ => true
  | _ => false

end BlobPoint

/-- With the event clear and the state not "pending", somebody is going to set the event, or to look
at the state having cleared the event. -/
def Signalled (s : BlobAllocation) : Prop :=
  s.event = false → s.state ≠ .pending → 0 < s.calls.countP isChanging

theorem Signalled.move (signalled : Signalled s)
    (move : BlobMove s old t new) : Signalled (t.moved i new) := by
  -- the call that moved is there now
  have arrives : t.calls = s.calls → new.isChanging = true → Signalled (t.moved i new) := by
    intro calls there _ _
    apply countP_pos_iff.mpr
    refine ⟨new, ?_, there⟩
    show new ∈ t.calls.set i new
    rw [calls]
    exact mem_set (List.getElem?_eq_some_iff.mp here).1 new
  have frame : t.calls = s.calls → t.state = s.state → t.event = s.event →
      new.isChanging = old.isChanging → Signalled (t.moved i new) := by
    intro calls state event same clear other
    show 0 < (t.calls.set i new).countP isChanging
    rw [calls, countP_same here new isChanging same]
    exact signalled (event ▸ clear) (state ▸ other)
  cases move with
  | clear | find | undo | leave => exact arrives rfl rfl
  | busy is => exact fun _ other => absurd is other
  | claim => exact fun _ other => absurd rfl other
  | setAgain | setFailed | set => exact nofun
  | @queue caller ref =>
    intro clear other
    have there := BlobMove.queue.here here
    show 0 < ((s.calls ++ [queued ref]).set i _).countP isChanging
    rw [countP_same there _ isChanging (by cases caller <;> rfl), countP_start]
    exact signalled clear other
  | @refuse caller | @release caller => exact frame rfl rfl rfl (by cases caller <;> rfl)
  | @pass _ result | @wake result => exact frame rfl rfl rfl (by cases result <;> rfl)
  | _ => exact frame rfl rfl rfl rfl

/-! ## The references -/

namespace BlobPoint

def hand : BlobPoint → List Nat
  | .clearing _ ref | .claiming _ ref | .settingAgain _ ref | .readingCreated _ ref => [ref]
  | .readingStatus _ ref | .storingPending _ ref | .allocating _ ref | .queueing _ ref => [ref]
  | .failing _ ref _ | .undoing _ ref _ | .settingFailed _ ref _ | .releasing _ ref _ _ => [ref]
  | .queued ref | .completing ref _ | .storingCreated ref _ | .storingResource ref => [ref]
  | .leaving ref _ | .setting ref | .releasingRequest ref => [ref]
  | _ => []

def holds (pt : BlobPoint) : Bool := !pt.hand.isEmpty

end BlobPoint

/-- A reference acquired is held by one call, request or callback, or has been released once;
and the count is that of the references held. -/
structure References (s : BlobAllocation) : Prop where
  once : ∀ ref, (s.calls.flatMap hand).count ref + s.released.count ref =
    if ref < s.acquired then 1 else 0
  held : s.references = s.calls.countP holds

/-- What a release does to the references, in `CreateBlobResource` and in the callback. -/
theorem References.release (refs : References s) {ref : Nat}
    (was : old.hand = [ref]) (gone : new.hand = []) :
    References (BlobAllocation.moved
      { s with references := s.references - 1, released := s.released ++ [ref] } i new) := by
  refine ⟨fun r => ?_, ?_⟩
  · show ((s.calls.set i new).flatMap hand).count r + (s.released ++ [ref]).count r =
      if r < s.acquired then 1 else 0
    have moved := count_flatMap_move here new hand r
    have once := refs.once r
    rw [was, gone, count_nil] at moved
    rw [count_append]
    omega
  · show s.references - 1 = (s.calls.set i new).countP holds
    have left := countP_leave here new holds (by rw [holds, was]; rfl) (by rw [holds, gone]; rfl)
    rw [refs.held]
    omega

theorem References.move (refs : References s)
    (move : BlobMove s old t new) : References (t.moved i new) := by
  have frame : t.calls = s.calls → t.references = s.references → t.acquired = s.acquired →
      t.released = s.released → new.hand = old.hand → References (t.moved i new) := by
    intro calls references acquired released same
    refine ⟨fun r => ?_, ?_⟩
    · show ((t.calls.set i new).flatMap hand).count r + t.released.count r =
        if r < t.acquired then 1 else 0
      have moved := count_flatMap_move here new hand r
      have once := refs.once r
      rw [calls, released, acquired]
      rw [same] at moved
      omega
    · show t.references = (t.calls.set i new).countP holds
      rw [calls, references, countP_same here new holds (by rw [holds, holds, same])]
      exact refs.held
  cases move with
  | @acquire caller =>
    refine ⟨fun r => ?_, ?_⟩
    · show ((s.calls.set i _).flatMap hand).count r + s.released.count r =
        if r < s.acquired + 1 then 1 else 0
      have moved := count_flatMap_move here (clearing caller s.acquired) hand r
      have once := refs.once r
      simp only [hand, count_nil, count_singleton, beq_iff_eq] at moved
      split at moved <;> split at once <;> split <;> omega
    · show s.references + 1 = (s.calls.set i _).countP holds
      rw [countP_enter here _ holds rfl rfl, refs.held]
  | @queue caller ref =>
    have there := BlobMove.queue.here here
    refine ⟨fun r => ?_, ?_⟩
    · show (((s.calls ++ [queued ref]).set i _).flatMap hand).count r + s.released.count r =
        if r < s.acquired then 1 else 0
      have moved := count_flatMap_move there (caller.back .success false) hand r
      have once := refs.once r
      have gone : (caller.back .success false).hand = [] := by cases caller <;> rfl
      rw [gone, flatMap_append, count_append, flatMap_singleton] at moved
      simp only [hand, count_nil] at moved
      omega
    · have left := countP_leave there (caller.back .success false) holds rfl
        (by cases caller <;> rfl)
      rw [countP_start] at left
      rw [refs.held]
      exact (Nat.succ.inj left).symm
  | @release caller => exact refs.release here rfl (by cases caller <;> rfl)
  | releaseRequest => exact refs.release here rfl rfl
  | @refuse caller => exact frame rfl rfl rfl rfl (by cases caller <;> rfl)
  | @pass _ result | @wake result => exact frame rfl rfl rfl rfl (by cases result <;> rfl)
  | _ => exact frame rfl rfl rfl rfl rfl

end

/-! ## What callers are told -/

def Answered (s : BlobAllocation) : Prop := ∃ type ∈ s.responses, type < respErrUnspec

namespace BlobPoint

def isSure : BlobPoint → Bool
  | .storingResource _ | .leaving _ true => true
  | _ => false

def isFinding : BlobPoint → Bool
  | .settingAgain _ _ | .readingCreated _ _ => true
  | _ => false

def isLost : BlobPoint → Bool
  | .readingStatus _ _ => true
  | _ => false

/-- What the call says, or is going to say, rests on a successful response. -/
def tells : BlobPoint → Bool
  | .completing _ true | .storingCreated _ true | .releasing _ _ _ true | .created _ true => true
  | _ => false

end BlobPoint

/-- `m_blob_created` and `STATUS_SUCCESS` stand for a response received. -/
structure Truthful (s : BlobAllocation) : Prop where
  made : s.blobCreated = true → Answered s
  status : s.status = .success → Answered s
  settled : s.state = .created → s.blobCreated = true
  sure : ∀ pt ∈ s.calls, pt.isSure = true → s.blobCreated = true
  finding : ∀ pt ∈ s.calls, pt.isFinding = true → s.state = .created
  lost : ∀ pt ∈ s.calls, pt.isLost = false
  refusing : ∀ caller ref status, failing caller ref status ∈ s.calls →
    status = .insufficientResources
  told : ∀ pt ∈ s.calls, pt.tells = true → Answered s

theorem Answered.move (answered : Answered s) (move : BlobMove s old t new) : Answered t := by
  obtain ⟨type, heard, good⟩ := answered
  cases move with
  | respond => exact ⟨type, mem_append_left _ heard, good⟩
  | _ => exact ⟨type, heard, good⟩

theorem BlobMove.present (move : BlobMove s old t new) (there : pt ∈ (t.moved i new).calls) :
    pt ∈ s.calls ∨ pt = new ∨ ∃ ref, pt = queued ref := by
  rcases mem_or_eq_of_mem_set there with before | now
  · cases move with
    | queue =>
      rcases mem_append.mp before with before | request
      · exact .inl before
      · exact .inr (.inr ⟨_, mem_singleton.mp request⟩)
    | _ => exact .inl before
  · exact .inr (.inl now)

/-- A property of calls that a move keeps: those that were there have it still, and the call that
moved has it. -/
theorem BlobMove.all {P : BlobPoint → Prop} (move : BlobMove s old t new)
    (others : ∀ pt ∈ s.calls, P pt) (mover : P new) (request : ∀ ref, P (queued ref)) :
    ∀ pt ∈ (t.moved i new).calls, P pt := by
  intro pt there
  rcases move.present there with before | rfl | ⟨ref, rfl⟩
  · exact others pt before
  · exact mover
  · exact request ref

section

variable (truth : Truthful s)

include truth

theorem Truthful.made_move (there : old ∈ s.calls)
    (move : BlobMove s old t new) : t.blobCreated = true → Answered t := by
  intro made
  refine Answered.move ?_ move
  cases move with
  | storeCreated => exact truth.told _ there rfl
  | storeRefused => cases made
  | _ => exact truth.made made

theorem Truthful.status_move (there : old ∈ s.calls)
    (move : BlobMove s old t new) : t.status = .success → Answered t := by
  intro is
  refine Answered.move ?_ move
  cases move with
  | storePending => cases is
  | fail =>
    rw [truth.refusing _ _ _ there] at is
    cases is
  | @complete _ ok =>
    cases ok with
    | false => cases is
    | true => exact truth.told _ there rfl
  | _ => exact truth.status is

section

variable (owned : Owned s) (there : old ∈ s.calls) (move : BlobMove s old t new)

include owned there move

theorem Truthful.settled_move : t.state = .created → t.blobCreated = true := by
  intro is
  cases move with
  | claim | undo => cases is
  | @leave _ ok =>
    cases ok with
    | false => cases is
    | true => exact truth.sure _ there rfl
  | storeCreated => rfl
  | storeRefused =>
    rw [owned.pending there rfl] at is
    cases is
  | _ => exact truth.settled is

theorem Truthful.sure_move :
    ∀ pt ∈ (t.moved i new).calls, pt.isSure = true → t.blobCreated = true := by
  refine move.all (fun pt before is => ?_) (fun is => ?_) (fun _ is => absurd is Bool.false_ne_true)
  · cases move with
    | storeCreated => rfl
    | storeRefused =>
      -- the callback that stores is the only owner
      have owner : pt.owns = true := by
        cases pt with
        | storingResource | leaving => rfl
        | _ => cases is
      have same := eq_of_countP_le_one owned.le_one before owner there rfl
      rw [same] at is
      cases is
    | _ => exact truth.sure pt before is
  · cases move with
    | storeCreated => rfl
    | storeResource => exact truth.sure _ there rfl
    | @refuse caller | @release caller | @queue caller => cases caller <;> cases is
    | @pass _ result | @wake result => cases result <;> cases is
    | stay => exact truth.sure _ there is
    | _ => cases is

theorem Truthful.finding_move :
    ∀ pt ∈ (t.moved i new).calls, pt.isFinding = true → t.state = .created := by
  refine move.all (fun pt before is => ?_) (fun is => ?_) (fun _ is => absurd is Bool.false_ne_true)
  · have found := truth.finding pt before is
    cases move with
    | claim idle =>
      rw [idle] at found
      cases found
    | undo | leave =>
      rw [owned.pending there rfl] at found
      cases found
    | _ => exact found
  · cases move with
    | find found => exact found
    | setAgain => exact truth.finding _ there rfl
    | @refuse caller | @release caller | @queue caller => cases caller <;> cases is
    | @pass _ result | @wake result => cases result <;> cases is
    | stay => exact truth.finding _ there is
    | _ => cases is

end

end

section

variable (truth : Truthful s) (there : old ∈ s.calls) (move : BlobMove s old t new)

include truth there move

theorem Truthful.lost_move : ∀ pt ∈ (t.moved i new).calls, pt.isLost = false := by
  refine move.all truth.lost ?_ (fun ref => rfl)
  cases move with
  | lost refused =>
    -- the state is 2, so `m_blob_created` has been stored
    rw [truth.settled (truth.finding _ there rfl)] at refused
    cases refused
  | @refuse caller | @release caller | @queue caller => cases caller <;> rfl
  | @pass _ result | @wake result => cases result <;> rfl
  | stay => exact truth.lost _ there
  | _ => rfl

theorem Truthful.refusing_move (caller : CreateCaller) (ref : Nat) (status : NtStatus)
    (now : failing caller ref status ∈ (t.moved i new).calls) :
    status = .insufficientResources := by
  rcases move.present now with before | same | ⟨_, request⟩
  · exact truth.refusing _ _ _ before
  · cases move with
    | exhaust | exhaustQueue =>
      cases same
      rfl
    | @refuse caller | @release caller | @queue caller => cases caller <;> cases same
    | @pass _ result | @wake result => cases result <;> cases same
    | stay => exact truth.refusing _ _ _ (same ▸ there)
    | _ => cases same
  · cases request

theorem Truthful.told_move : ∀ pt ∈ (t.moved i new).calls, pt.tells = true → Answered t := by
  refine move.all (fun pt before is => (truth.told pt before is).move move) (fun is => ?_)
    (fun _ is => absurd is Bool.false_ne_true)
  cases move with
  | @respond _ type =>
    -- the callback believes the response that has just been received
    by_cases good : type < respErrUnspec
    · exact ⟨type, mem_append_right _ (mem_singleton.mpr rfl), good⟩
    · rw [decide_eq_false good] at is
      cases is
  | @complete _ ok =>
    cases ok with
    | false => cases is
    | true => exact truth.told _ there rfl
  | found made => exact truth.made made
  | readStatus => exact nomatch truth.lost _ there
  | @release caller _ _ found =>
    cases caller with
    | ensure => cases is
    | direct =>
      cases found with
      | false => cases is
      | true => exact truth.told _ there rfl
  | @refuse caller | @queue caller => cases caller <;> cases is
  | @pass _ result | @wake result => cases result <;> cases is
  | stay => exact truth.told _ there is
  | _ => cases is

end

theorem Truthful.move (truth : Truthful s) (owned : Owned s) (there : old ∈ s.calls)
    (move : BlobMove s old t new) : Truthful (t.moved i new) := by
  have made := truth.made_move there move
  have status := truth.status_move there move
  have settled := truth.settled_move owned there move
  exact ⟨made, status, settled, truth.sure_move owned there move,
    truth.finding_move owned there move, truth.lost_move there move,
    truth.refusing_move there move, truth.told_move there move⟩

/-- What `EnsureBlobCreatedAndWait` returns. -/
structure Reported (s : BlobAllocation) : Prop where
  /-- Between the two reads the status stays a failure, or becomes `STATUS_SUCCESS`. -/
  reading : rereading ∈ s.calls → s.status ≠ .pending
  ensured : ∀ status, BlobPoint.ensured status ∈ s.calls → status.ntSuccess = true → Answered s

theorem Reported.move (reported : Reported s) (truth : Truthful s) (there : old ∈ s.calls)
    (alone : old.isStoring = true → s.calls.countP isRereading = 0)
    (move : BlobMove s old t new) : Reported (t.moved i new) := by
  refine ⟨fun now => ?_, fun status now good => ?_⟩
  · show t.status ≠ .pending
    rcases move.present now with before | same | ⟨ref, request⟩
    · have kept := reported.reading before
      cases move with
      | storePending =>
        have some := countP_pos_iff.mpr ⟨_, before, (rfl : isRereading rereading = true)⟩
        rw [alone rfl] at some
        cases some
      | fail =>
        rw [truth.refusing _ _ _ there]
        exact nofun
      | @complete _ ok => cases ok <;> exact nofun
      | _ => exact kept
    · cases move with
      | failed is =>
        intro pending
        rw [pending] at is
        cases is
      | @refuse caller | @release caller | @queue caller => cases caller <;> cases same
      | @pass _ result | @wake result => cases result <;> cases same
      | stay => exact reported.reading (same ▸ there)
      | _ => cases same
    · cases request
  · show Answered t
    refine Answered.move ?_ move
    rcases move.present now with before | same | ⟨_, request⟩
    · exact reported.ensured status before good
    · cases move with
      | readYes made => exact truth.made made
      | mask =>
        cases same
        cases good
      | reread =>
        cases same
        rcases (NtStatus.ntSuccess_iff _).mp good with success | pending
        · exact truth.status success
        · exact absurd pending (reported.reading there)
      | @refuse caller | @release caller | @queue caller => cases caller <;> cases same
      | @pass _ result | @wake result => cases result <;> cases same
      | stay => exact reported.ensured status (same ▸ there) good
      | _ => cases same
    · cases request

end Moves

/-! ## Whole runs -/

open BlobPoint

structure BlobInv (s : BlobAllocation) : Prop where
  owned : Owned s
  signalled : Signalled s
  references : References s
  truth : Truthful s

theorem blobInv_start : BlobInv blobStart where
  owned := rfl
  signalled := nofun
  references := ⟨fun _ => rfl, rfl⟩
  truth := ⟨nofun, nofun, nofun, nofun, nofun, nofun, nofun, nofun⟩

inductive BlobStep (s : BlobAllocation) : BlobAllocation → Prop where
  | move {i old new t} (here : s.calls[i]? = some old)
      (move : BlobMove s old t new) : BlobStep s (t.moved i new)
  | create : BlobStep s { s with calls := s.calls ++ [.acquiring .direct] }
  | ensure {canWait} : BlobStep s { s with calls := s.calls ++ [.ensuring canWait] }
  | wait {canWait} : BlobStep s { s with calls := s.calls ++ [.checking canWait false] }
  | rundown : BlobStep s { s with rundown := true }
  | stay : BlobStep s s

theorem blobStep_cases : ∃ t, blobStep s op = .ok (t, ()) ∧ BlobStep s t := by
  cases op with
  | create => exact ⟨_, rfl, .create⟩
  | ensure => exact ⟨_, rfl, .ensure⟩
  | wait => exact ⟨_, rfl, .wait⟩
  | rundown => exact ⟨_, rfl, .rundown⟩
  | advance i =>
    rw [blobStep]
    cases here : s.calls[i]? with
    | none => exact ⟨s, rfl, .stay⟩
    | some old => exact ⟨_, rfl, .move here (move_of_blobAdvance s old)⟩
  | exhaust =>
    rw [blobStep]
    split
    · rename_i here
      exact ⟨_, rfl, .move here .exhaust⟩
    · rename_i here
      exact ⟨_, rfl, .move here .exhaustQueue⟩
    · exact ⟨s, rfl, .stay⟩
  | respond =>
    rw [blobStep]
    split
    · rename_i here
      exact ⟨_, rfl, .move here .respond⟩
    · exact ⟨s, rfl, .stay⟩

section Starts

variable {s} {t : BlobAllocation}

/-- A call that begins owns nothing, holds nothing and has told nothing. -/
theorem BlobInv.start (inv : BlobInv s) (new : BlobPoint) (owns : new.owns = false)
    (hand : new.hand = []) (sure : new.isSure = false) (finding : new.isFinding = false)
    (lost : new.isLost = false) (refusing : ∀ caller ref status, new ≠ failing caller ref status)
    (tells : new.tells = false) : BlobInv { s with calls := s.calls ++ [new] } := by
  have no : ∀ {b : Bool} {Q : Prop}, b = false → b = true → Q := by
    intro b Q no yes
    exact absurd (no.symm.trans yes) Bool.false_ne_true
  refine ⟨?_, fun clear other => ?_, ⟨fun ref => ?_, ?_⟩, ?_⟩
  · show (s.calls ++ [new]).countP BlobPoint.owns = if s.state = .pending then 1 else 0
    rw [countP_start, owns]
    exact inv.owned
  · rw [countP_start]
    exact Nat.lt_add_right _ (inv.signalled clear other)
  · rw [flatMap_append, flatMap_singleton, hand, append_nil]
    exact inv.references.once ref
  · have empty : new.holds = false := by rw [holds, hand]; rfl
    rw [countP_start, empty]
    exact inv.references.held
  · exact {
      made := inv.truth.made
      status := inv.truth.status
      settled := inv.truth.settled
      sure := forall_mem_concat inv.truth.sure (no sure)
      finding := forall_mem_concat inv.truth.finding (no finding)
      lost := forall_mem_concat inv.truth.lost lost
      refusing := fun caller ref status now => inv.truth.refusing caller ref status
        (mem_of_mem_concat now (refusing caller ref status))
      told := forall_mem_concat inv.truth.told (no tells) }

theorem BlobInv.step (inv : BlobInv s) (step : BlobStep s t) : BlobInv t := by
  cases step with
  | move here move =>
    exact ⟨inv.owned.move here move, inv.signalled.move here move, inv.references.move here move,
      inv.truth.move inv.owned (mem_of_getElem? here) move⟩
  | create => exact inv.start (acquiring _) rfl rfl rfl rfl rfl nofun rfl
  | ensure => exact inv.start (ensuring _) rfl rfl rfl rfl rfl nofun rfl
  | wait => exact inv.start (checking _ _) rfl rfl rfl rfl rfl nofun rfl
  | rundown =>
    exact ⟨inv.owned, inv.signalled, { inv.references with }, { inv.truth with }⟩
  | stay => exact inv

theorem Reported.start (reported : Reported s) (new : BlobPoint) (quiet : new ≠ rereading)
    (silent : ∀ status, new ≠ BlobPoint.ensured status) :
    Reported { s with calls := s.calls ++ [new] } := by
  refine ⟨fun now => ?_, fun status now good => ?_⟩
  · exact reported.reading (mem_of_mem_concat now quiet)
  · exact reported.ensured status (mem_of_mem_concat now (silent status)) good

theorem Reported.step (reported : Reported s) (truth : Truthful s) {op : BlobOp}
    (may : Undisturbed s op) (stepped : blobStep s op = .ok (t, ())) : Reported t := by
  cases op with
  | create =>
    cases stepped
    exact reported.start (acquiring _) nofun nofun
  | ensure =>
    cases stepped
    exact reported.start (ensuring _) nofun nofun
  | wait =>
    cases stepped
    exact reported.start (checking _ _) nofun nofun
  | rundown =>
    cases stepped
    exact ⟨reported.reading, reported.ensured⟩
  | advance i =>
    rw [blobStep] at stepped
    cases here : s.calls[i]? with
    | none =>
      rw [here] at stepped
      cases stepped
      exact reported
    | some old =>
      rw [here] at stepped
      cases stepped
      refine reported.move truth (mem_of_getElem? here) (fun stores => ?_)
        (move_of_blobAdvance s old)
      rcases may with other | alone
      · rw [here, Option.all_some, stores] at other
        cases other
      · exact alone
  | exhaust =>
    rw [blobStep] at stepped
    split at stepped
    · rename_i here
      cases stepped
      exact reported.move truth (mem_of_getElem? here) nofun .exhaust
    · rename_i here
      cases stepped
      exact reported.move truth (mem_of_getElem? here) nofun .exhaustQueue
    · cases stepped
      exact reported
  | respond =>
    rw [blobStep] at stepped
    split at stepped
    · rename_i here
      cases stepped
      exact reported.move truth (mem_of_getElem? here) nofun .respond
    · cases stepped
      exact reported

end Starts

variable {s}

/-- **Every run keeps the invariant**, whatever the calls and the host do. -/
theorem blobInv_of_reachable (reach : Reachable (· = blobStart) (Next blobStep BlobAnyOp) s) :
    BlobInv s := by
  refine reach.machine_run blobInv_start ?_
  intro s op inv _
  obtain ⟨t, stepped, step⟩ := blobStep_cases s op
  exact ⟨t, (), stepped, inv.step step⟩

theorem blobInv_of_reachable_refused : ∃ s, s.responses = [0x1200] ∧ BlobInv s := by
  have replay : ∃ s ∈ attempt blobStep BlobAnyOp blobStart
      ([.ensure true] ++ List.replicate 8 (.advance 0) ++ [.respond 1 0x1200]),
      s.responses = [0x1200] := by
    decide
  obtain ⟨s, reach, refused⟩ := reachable_of_replay _ replay
  exact ⟨s, refused, blobInv_of_reachable reach⟩

theorem reported_of_reachable (reach : Reachable (· = blobStart) (Next blobStep Undisturbed) s) :
    BlobInv s ∧ Reported s := by
  refine reach.machine_run (P := fun s => BlobInv s ∧ Reported s) ⟨blobInv_start, nofun, nofun⟩ ?_
  rintro s op ⟨inv, reported⟩ may
  obtain ⟨t, stepped, step⟩ := blobStep_cases s op
  exact ⟨t, (), stepped, inv.step step, reported.step inv.truth may stepped⟩

/-- **One request, one response, everybody woken.**  At most one request is outstanding.  The
event is signalled unless the state is pending, which has an owner then, or somebody is between
clearing it and looking at the state, or about to set it.  A reference is held once or has been
released once.  And who is told that the resource exists, by a success of
`EnsureBlobCreatedAndWait` or by `CreateBlobResource` having found it, is told so after a
successful response. -/
theorem blob_created_once {s : BlobAllocation}
    (reach : Reachable (· = blobStart) (Next blobStep Undisturbed) s) :
    s.calls.countP isOutstanding ≤ 1 ∧ (s.event = false → 0 < s.calls.countP isChanging ∨
        s.state = .pending ∧ 0 < s.calls.countP owns) ∧
      (∀ ref, (s.calls.flatMap hand).count ref + s.released.count ref =
        if ref < s.acquired then 1 else 0) ∧
      s.references = s.calls.countP holds ∧
      (∀ status, ensured status ∈ s.calls → status.ntSuccess = true → Answered s) ∧
      (∀ status, created status true ∈ s.calls → Answered s) := by
  obtain ⟨inv, reported⟩ := reported_of_reachable reach
  refine ⟨?_, fun clear => ?_, inv.references.once, inv.references.held, reported.ensured,
    fun status there => inv.truth.told _ there rfl⟩
  · refine le_trans (countP_mono_left fun pt _ is => ?_) inv.owned.le_one
    cases pt with
    | queued => rfl
    | _ => cases is
  · by_cases is : s.state = .pending
    · right
      refine ⟨is, ?_⟩
      rw [inv.owned, if_pos is]
      exact Nat.one_pos
    · exact .inl (inv.signalled clear is)

/-- Two calls meet: call 2 finds the request of call 0 pending, both wait, and both return
success after the response. -/
theorem blob_created_once_two : ∃ s, Reachable (· = blobStart) (Next blobStep Undisturbed) s ∧
      s.calls[0]? = some (ensured .success) ∧ s.calls[2]? = some (ensured .success) ∧
      s.calls.countP isOutstanding ≤ 1 := by
  have replay : ∃ s ∈ attempt blobStep Undisturbed blobStart
      ([.ensure true] ++ List.replicate 8 (.advance 0) ++ [.ensure true] ++
        List.replicate 6 (.advance 2) ++ [.respond 1 0x1100] ++ List.replicate 6 (.advance 1) ++
        List.replicate 2 (.advance 0) ++ List.replicate 2 (.advance 2)),
      s.calls[0]? = some (ensured .success) ∧ s.calls[2]? = some (ensured .success) := by
    decide
  obtain ⟨s, reach, first, second⟩ := reachable_of_replay _ replay
  exact ⟨s, reach, first, second, (blob_created_once reach).1⟩

end KvmGuestDrivers.VioGpu

/-
# VioScsi.Completion -- the life of a request of the SCSI driver

From `VioScsiStartIo` an SRB goes to a request queue, is returned by the device, found in the list
of the queue by its id, and completed with what `HandleResponse` makes of the response.  A reset
empties the lists, and the removal of a unit completes its SRBs.
-/
import KvmGuestDrivers.Theory.Requests
import KvmGuestDrivers.Theory.Transition
import KvmGuestDrivers.VioScsi.Queues
import KvmGuestDrivers.VioScsi.Response

namespace KvmGuestDrivers.VioScsi

set_option autoImplicit false

open Theory List
open VioStor (SrbStatus maxCpu)

/-! ## Requests -/

structure ScsiUnit where
  path : Nat
  target : Nat
  lun : Nat
  deriving DecidableEq

structure ScsiAdapter extends ScsiSetup where
  maxPhysicalBreaks : Nat
  /-- The address of `tmf_cmd.SrbExtension->cmd`, if there is one. -/
  tmfCmd : Option Nat

/-- Where a call is that has an SRB in its hands: in `VioScsiStartIo` before and after it has read
`last_srb_id`, and after it has counted it up; in `SendSRB` when it has found that the adapter is
not removed, and that there is no reset; and in `ProcessBuffer` with an SRB that it took from a
list. -/
inductive ScsiPoint where
  | entered
  | numbered
  | counted
  | present
  | tested (vqReqIdx : Nat)
  | collected
  | gone
  deriving DecidableEq

structure ScsiCall where
  srb : Nat
  point : ScsiPoint

/-- The SRB of a call that has not given it away, and whether it has its id. -/
def ScsiCall.hold (c : ScsiCall) : Option (Nat × Bool) :=
  if c.point = .gone then none else some (c.srb, c.point ≠ .entered)

structure ScsiRun where
  /-- The SRBs, their units, and of their extensions the id and the response. -/
  srb : Nat → ScsiSrb
  unit : Nat → ScsiUnit
  idOf : Nat → Nat
  resp : Nat → ScsiResponse
  accepted : Nat
  calls : List ScsiCall
  queues : List RequestRing
  lastSrbId : Nat
  bRemoved : Bool
  resetInProgress : Bool
  /-- The resets and the removals under way: the list that each comes to next. -/
  resets : List Nat
  removals : List (ScsiUnit × Nat)
  completed : List (Nat × SrbStatus)

inductive ScsiFault where
  | noQueue

namespace ScsiRun

variable (s : ScsiRun)

def move (i : Nat) (c : ScsiCall) : ScsiRun := { s with calls := s.calls.set i c }

/-- `CompleteRequest`, by the call that has the SRB. -/
def complete (i n : Nat) (status : SrbStatus) : ScsiRun :=
  { s with calls := s.calls.set i ⟨n, .gone⟩, completed := s.completed ++ [(n, status)] }

/-- `virtqueue_add_buf` and `InsertTailList`, by the call that has the SRB. -/
def post (i n k : Nat) (q : RequestRing) : ScsiRun :=
  { s with calls := s.calls.set i ⟨n, .gone⟩, queues := s.queues.set k (q.post n (s.idOf n)) }

def view : Requests where
  idOf := s.idOf
  accepted := s.accepted
  hands := s.calls.map ScsiCall.hold
  queues := s.queues
  completed := s.completed.map Prod.fst

end ScsiRun

/-- `last_srb_id++`, and once more if it is zero or the address of the task management command. -/
def nextScsiId (tmfCmd : Option Nat) (id : Nat) : Nat :=
  if (id + 1) % 2 ^ 64 = 0 ∨ tmfCmd = some ((id + 1) % 2 ^ 64) then ((id + 1) % 2 ^ 64 + 1) % 2 ^ 64
  else (id + 1) % 2 ^ 64

/-- `VioScsiUnitControl` completes the SRBs of a unit, but leaves them in the list. -/
def removeUnit (q : RequestRing) (found : List Nat) : RequestRing :=
  { q with count := q.count - BitVec.ofNat 32 found.length }

inductive ScsiOp where
  | startIo (srb : ScsiSrb) (unit : ScsiUnit)
  | immediate (i : Nat) (status : SrbStatus)
  | readId (i : Nat)
  | countId (i : Nat)
  | testRemoved (i : Nat)
  | testReset (i : Nat) (param : Option Nat)
  | submit (i : Nat) (added : Bool)
  | answer (k j : Nat) (resp : ScsiResponse)
  | collect (k : Nat)
  | finish (i : Nat)
  | surpriseRemoval
  | unitRemove (unit : ScsiUnit)
  | removeNext (j : Nat)
  | resetDevice
  | drain (j : Nat)
  | resetDone (j : Nat)

variable (a : ScsiAdapter)

variable (s : ScsiRun)

def scsiNext : ScsiOp → Except ScsiFault ScsiRun
  | .startIo srb unit =>
    .ok { s with
      srb := fun m => if m = s.accepted then srb else s.srb m
      unit := fun m => if m = s.accepted then unit else s.unit m
      idOf := Requests.setId s.idOf s.accepted 0
      accepted := s.accepted + 1
      calls := s.calls ++ [⟨s.accepted, .entered⟩] }
  -- what `VioScsiBuildIo` refuses, and what `PreProcessRequest` handles
  | .immediate i status =>
    match s.calls[i]? with
    | some ⟨n, .entered⟩ => .ok (s.complete i n status)
    | _ => .ok s
  | .readId i =>
    match s.calls[i]? with
    | some ⟨n, .entered⟩ =>
      .ok { s.move i ⟨n, .numbered⟩ with idOf := Requests.setId s.idOf n s.lastSrbId }
    | _ => .ok s
  | .countId i =>
    match s.calls[i]? with
    | some ⟨n, .numbered⟩ =>
      .ok { s.move i ⟨n, .counted⟩ with lastSrbId := nextScsiId a.tmfCmd s.lastSrbId }
    | _ => .ok s
  | .testRemoved i =>
    match s.calls[i]? with
    | some ⟨n, .counted⟩ =>
      if s.bRemoved then .ok (s.complete i n .noDevice) else .ok (s.move i ⟨n, .present⟩)
    | _ => .ok s
  | .testReset i param =>
    match s.calls[i]? with
    | some ⟨n, .present⟩ =>
      if s.resetInProgress then .ok (s.complete i n .busReset)
      else .ok (s.move i ⟨n, .tested (vqReqIdx (sendSrbQueue a.toScsiSetup param))⟩)
    | _ => .ok s
  -- under the lock
  | .submit i added =>
    match s.calls[i]? with
    | some ⟨n, .tested k⟩ =>
      match s.queues[k]? with
      | none => .error .noQueue
      | some q => if added then .ok (s.post i n k q) else .ok (s.complete i n .busy)
    | _ => .ok s
  | .answer k j resp =>
    match s.queues[k]? with
    | none => .ok s
    | some q =>
      match q.device[j]? with
      | none => .ok s
      | some e =>
        .ok { s with
          resp := fun m => if m = e.request then resp else s.resp m
          queues := s.queues.set k (q.answer j resp.response) }
  -- `virtqueue_get_buf`, and the search of the list
  | .collect k =>
    match s.queues[k]? with
    | none => .ok s
    | some q =>
      match q.collect s.idOf with
      | (q, none) => .ok { s with queues := s.queues.set k q }
      | (q, some n) =>
        .ok { s with
          queues := s.queues.set k q
          calls := s.calls ++ [⟨n, .collected⟩] }
  | .finish i =>
    match s.calls[i]? with
    | some ⟨n, .collected⟩ =>
      let io := buildIo a.maxPhysicalBreaks (s.srb n)
      .ok (s.complete i n (handleResponse (s.resp n) (s.srb n) io.xfer).srbStatus)
    | _ => .ok s
  | .surpriseRemoval => .ok { s with bRemoved := true }
  -- `VioScsiUnitControl`
  | .unitRemove unit => .ok { s with removals := s.removals ++ [(unit, 0)] }
  | .removeNext j =>
    match s.removals[j]? with
    | none => .ok s
    | some (unit, k) =>
      match s.queues[k]? with
      | none => .ok s
      | some q =>
        let found := q.list.filter fun n => s.unit n = unit
        .ok { s with
          queues := s.queues.set k (removeUnit q found)
          completed := s.completed ++ found.map fun n => (n, SrbStatus.noDevice)
          removals := s.removals.set j (unit, k + 1) }
  -- `CompletePendingRequestsOnReset`
  | .resetDevice =>
    if s.resetInProgress then .ok { s with resetInProgress := false }
    else .ok { s with resetInProgress := true, resets := s.resets ++ [0] }
  | .drain j =>
    match s.resets[j]? with
    | none => .ok s
    | some k =>
      match s.queues[k]? with
      | none => .ok s
      | some q =>
        .ok { s with
          queues := s.queues.set k q.drain
          completed := s.completed ++ q.list.map fun n => (n, SrbStatus.busReset)
          resets := s.resets.set j (k + 1) }
  | .resetDone j =>
    match s.resets[j]? with
    | none => .ok s
    | some k =>
      if s.queues.length ≤ k then
        .ok { s with resetInProgress := false, resets := s.resets.eraseIdx j }
      else .ok s

/-- What a lock makes atomic are single steps, one for each list that a reset or a removal goes
through; the numbering of the SRBs and the tests of `bRemoved` and `reset_in_progress` are steps of
their own. -/
def scsiStep (op : ScsiOp) : Except ScsiFault (ScsiRun × Unit) :=
  (scsiNext a s op).map (·, ())

/-- `VioScsiFindAdapter` and `VioScsiHwInitialize`. -/
def scsiStart : ScsiRun where
  srb := fun _ => ⟨0, 0, false, none, by decide⟩
  unit := fun _ => ⟨0, 0, 0⟩
  idOf := fun _ => 0
  resp := fun _ => ⟨0, 0, 0, 0⟩
  accepted := 0
  calls := []
  queues := List.replicate a.numQueues .empty
  lastSrbId := 1
  bRemoved := false
  resetInProgress := false
  resets := []
  removals := []
  completed := []

/-! ## Conditions -/

/-- `last_srb_id` is not zero, and neither an SRB in the hands of a call nor descriptors on a ring
have it as their id. -/
def FreshScsiId : Prop :=
  s.lastSrbId ≠ 0 ∧ (∀ c ∈ s.calls, c.hold = some (c.srb, true) → s.idOf c.srb ≠ s.lastSrbId) ∧
    ∀ q ∈ s.queues, ∀ e ∈ q.ring, e.id ≠ s.lastSrbId

/-- An SRB is numbered with an id that is not in use, Storport reports a message number that gives a
request queue, and a unit is removed when no SRB of it is in the list. -/
def ScsiRegular : ScsiOp → Prop
  | .readId _ => FreshScsiId s
  | .testReset _ param =>
    1 ≤ a.numQueues ∧ a.numQueues ≤ maxCpu ∧ ∀ m ∈ param, MessageRegular a.numQueues m
  | .removeNext j =>
    ∀ r ∈ s.removals[j]?, ∀ q ∈ s.queues[r.2]?, ∀ n ∈ q.list, s.unit n ≠ r.1
  | _ => True

/-- And the device has nothing of a queue whose list a reset empties. -/
def ScsiOnceRegular : ScsiOp → Prop
  | .drain j => ∀ k ∈ s.resets[j]?, ∀ q ∈ s.queues[k]?, q.device = []
  | op => ScsiRegular a s op

instance : Decidable (FreshScsiId s) := inferInstanceAs (Decidable (_ ∧ _ ∧ _))

instance (op : ScsiOp) : Decidable (ScsiRegular a s op) := by
  unfold ScsiRegular
  split <;> infer_instance

instance (op : ScsiOp) : Decidable (ScsiOnceRegular a s op) := by
  unfold ScsiOnceRegular
  split <;> infer_instance

variable {op : ScsiOp} {q : RequestRing} {c : ScsiCall} {k : Nat}

variable {a}

theorem ScsiOnceRegular.regular {s : ScsiRun} (once : ScsiOnceRegular a s op) :
    ScsiRegular a s op := by
  cases op with
  | drain => trivial
  | _ => exact once

/-! ## Where the SRBs are -/

section View

variable {s} {i n : Nat}

theorem FreshScsiId.view (fresh : FreshScsiId s) : s.view.Fresh s.lastSrbId := by
  refine ⟨fresh.1, fun n held => ?_, fresh.2.2⟩
  obtain ⟨c, member, has⟩ := mem_map.mp held
  have srb : c.srb = n := by
    rw [ScsiCall.hold] at has
    split at has
    · cases has
    · exact (Prod.mk.inj (Option.some.inj has)).1
  rw [← srb] at has ⊢
  exact fresh.2.1 c member has

theorem view_hands (here : s.calls[i]? = some c) : s.view.hands[i]? = some c.hold := by
  rw [ScsiRun.view, getElem?_map, here]
  rfl

theorem view_move (here : s.calls[i]? = some c) (d : ScsiCall) (same : d.hold = c.hold) :
    (s.move i d).view = s.view := by
  have hands : (s.calls.set i d).map ScsiCall.hold = s.calls.map ScsiCall.hold := by
    rw [map_set, same]
    exact set_same (view_hands here)
  rw [ScsiRun.view, ScsiRun.move, hands]
  rfl

theorem view_complete (status : SrbStatus) : (s.complete i n status).view =
    { s.view with
      hands := s.view.hands.set i none
      completed := s.view.completed ++ [n] } := by
  rw [ScsiRun.view, ScsiRun.complete, map_set, map_append]
  rfl

theorem view_post : (s.post i n k q).view =
    { s.view with
      hands := s.view.hands.set i none
      queues := s.view.queues.set k (q.post n (s.view.idOf n)) } := by
  rw [ScsiRun.view, ScsiRun.post, map_set]
  rfl

end View

/-- Every SRB is in one place, and goes to a queue that exists. -/
structure ScsiInv (a : ScsiAdapter) (s : ScsiRun) : Prop where
  placed : s.view.Placed
  length : s.queues.length = a.numQueues
  calls : ∀ (i n k : Nat), s.calls[i]? = some ⟨n, .tested k⟩ → k < a.numQueues

/-! ## What a step can do -/

/-- All that regular steps do to SRBs, calls and queues. -/
inductive ScsiEffect (a : ScsiAdapter) (s : ScsiRun) : ScsiOp → ScsiRun → Prop where
  | quiet (op : ScsiOp) (lastSrbId : Nat) (bRemoved resetInProgress : Bool) (resets : List Nat)
      (removals : List (ScsiUnit × Nat)) :
      ScsiEffect a s op { s with
        lastSrbId := lastSrbId, bRemoved := bRemoved, resetInProgress := resetInProgress
        resets := resets, removals := removals }
  | accept (srb : ScsiSrb) (unit : ScsiUnit) :
      ScsiEffect a s (.startIo srb unit) { s with
        srb := fun m => if m = s.accepted then srb else s.srb m
        unit := fun m => if m = s.accepted then unit else s.unit m
        idOf := Requests.setId s.idOf s.accepted 0
        accepted := s.accepted + 1
        calls := s.calls ++ [⟨s.accepted, .entered⟩] }
  | number {i n} (here : s.calls[i]? = some ⟨n, .entered⟩) (fresh : FreshScsiId s) :
      ScsiEffect a s (.readId i)
        { s.move i ⟨n, .numbered⟩ with idOf := Requests.setId s.idOf n s.lastSrbId }
  | move {i c d} (op : ScsiOp) (lastSrbId : Nat)
      (here : s.calls[i]? = some c) (same : d.hold = c.hold)
      (inside : ∀ k, d.point = .tested k → k < a.numQueues) :
      ScsiEffect a s op { s.move i d with lastSrbId := lastSrbId }
  | complete {i n p} (op : ScsiOp) (status : SrbStatus)
      (here : s.calls[i]? = some ⟨n, p⟩) (under : p ≠ .gone) :
      ScsiEffect a s op (s.complete i n status)
  | submit {i n k q} (op : ScsiOp)
      (here : s.calls[i]? = some ⟨n, .tested k⟩) (there : s.queues[k]? = some q) :
      ScsiEffect a s op (s.post i n k q)
  | answer {k : Nat} {q : RequestRing} (op : ScsiOp) (j code : Nat) (resp : Nat → ScsiResponse)
      (there : s.queues[k]? = some q) :
      ScsiEffect a s op { s with resp := resp, queues := s.queues.set k (q.answer j code) }
  | collectNone {k q q'} (there : s.queues[k]? = some q) (taken : q.collect s.idOf = (q', none)) :
      ScsiEffect a s (.collect k) { s with queues := s.queues.set k q' }
  | collectSome {k n : Nat} {q q' : RequestRing} (there : s.queues[k]? = some q)
      (taken : q.collect s.idOf = (q', some n)) :
      ScsiEffect a s (.collect k) { s with
        queues := s.queues.set k q'
        calls := s.calls ++ [⟨n, .collected⟩] }
  | drain {j k q} (reset : s.resets[j]? = some k) (there : s.queues[k]? = some q) :
      ScsiEffect a s (.drain j) { s with
        queues := s.queues.set k q.drain
        completed := s.completed ++ q.list.map fun n => (n, SrbStatus.busReset)
        resets := s.resets.set j (k + 1) }

variable {s} {t : ScsiRun}

theorem ScsiEffect.idle (a : ScsiAdapter) (s : ScsiRun) (op : ScsiOp) : ScsiEffect a s op s :=
  .quiet op s.lastSrbId s.bRemoved s.resetInProgress s.resets s.removals

theorem vqReqIdx_lt {param : Option Nat} (existing : 1 ≤ a.numQueues) (few : a.numQueues ≤ maxCpu)
    (regular : ∀ m ∈ param, MessageRegular a.numQueues m) :
    vqReqIdx (sendSrbQueue a.toScsiSetup param) < a.numQueues := by
  have short : a.numQueues < 2 ^ 16 := Nat.lt_of_le_of_lt few (by decide)
  have choice : a.numQueues = 1 ∨ 1 < a.numQueues ∧ ∀ m ∈ param, MessageRegular a.numQueues m :=
    (Nat.eq_or_lt_of_le existing).imp Eq.symm fun several => ⟨several, regular⟩
  obtain ⟨request, lt, -⟩ :=
    (requestQueue_sendSrb short fun m given => (regular m given).word).mpr choice
  rw [vqReqIdx_request request (by unfold requestQueue0 at lt; omega)]
  omega

theorem removeUnit_none (there : s.queues[k]? = some q) {unit : ScsiUnit}
    (others : ∀ n ∈ q.list, s.unit n ≠ unit) :
    s.queues.set k (removeUnit q (q.list.filter fun n => s.unit n = unit)) = s.queues ∧
      (q.list.filter fun n => s.unit n = unit) = [] := by
  have empty : (q.list.filter fun n => s.unit n = unit) = [] :=
    filter_eq_nil_iff.mpr fun n listed found => others n listed (of_decide_eq_true found)
  have same : removeUnit q [] = q := by
    rw [removeUnit, length_nil, BitVec.sub_zero]
  refine ⟨?_, empty⟩
  rw [empty, same, set_same there]

/-- Every regular step has one of the effects. -/
theorem scsiNext_effect (inv : ScsiInv a s) (regular : ScsiRegular a s op) :
    ∃ t, scsiNext a s op = .ok t ∧ ScsiEffect a s op t := by
  fun_cases scsiNext a s op with
  | case1 srb unit => exact ⟨_, rfl, .accept srb unit⟩
  | case2 i status n here => exact ⟨_, rfl, .complete _ status here ScsiPoint.noConfusion⟩
  | case4 i n here => exact ⟨_, rfl, .number here regular⟩
  | case6 i n here => exact ⟨_, rfl, .move _ _ here rfl fun k is => ScsiPoint.noConfusion is⟩
  | case8 i n here | case11 i _ n here | case24 i n here =>
    exact ⟨_, rfl, .complete _ _ here ScsiPoint.noConfusion⟩
  | case9 i n here =>
    exact ⟨_, rfl, .move _ s.lastSrbId here rfl fun k is => ScsiPoint.noConfusion is⟩
  | case12 i _ n here =>
    refine ⟨_, rfl, .move _ s.lastSrbId here rfl fun k is => ?_⟩
    rw [← ScsiPoint.tested.inj is]
    exact vqReqIdx_lt regular.1 regular.2.1 regular.2.2
  | case14 i _ n k here noQueue =>
    rw [getElem?_eq_getElem (inv.length.symm ▸ inv.calls i n k here)] at noQueue
    cases noQueue
  | case15 i n k here q there => exact ⟨_, rfl, .submit _ here there⟩
  | case16 i _ n k here => exact ⟨_, rfl, .complete _ _ here ScsiPoint.noConfusion⟩
  | case20 k j _ q there => exact ⟨_, rfl, .answer _ j _ _ there⟩
  | case22 k q there q' taken => exact ⟨_, rfl, .collectNone there taken⟩
  | case23 k q there q' n taken => exact ⟨_, rfl, .collectSome there taken⟩
  | case26 | case27 | case31 | case32 | case37 => exact ⟨_, rfl, .quiet _ _ _ _ _ _⟩
  | case30 j _ k removal q there found =>
    obtain ⟨queues, empty⟩ := removeUnit_none there (regular _ removal q there)
    rw [queues, show found = [] from empty, map_nil, append_nil]
    exact ⟨_, rfl, .quiet _ _ _ _ _ _⟩
  | case35 j k reset q there => exact ⟨_, rfl, .drain reset there⟩
  | _ => exact ⟨s, rfl, .idle a s _⟩

/-- Every effect leaves each SRB in one place. -/
theorem ScsiEffect.placed (placed : s.view.Placed) (effect : ScsiEffect a s op t) :
    t.view.Placed := by
  cases effect with
  | quiet => exact placed
  | accept =>
    have kept := placed.accept 0
    rw [ScsiRun.view, map_append]
    exact kept
  | @number i n here fresh =>
    have kept := placed.name (view_hands here) fresh.view
    rw [ScsiRun.view, ScsiRun.move, map_set]
    exact kept
  | @move i c d _ _ here same =>
    show (s.move i d).view.Placed
    rw [view_move here d same]
    exact placed
  | @complete i n p _ _ here under =>
    have has : ScsiCall.hold ⟨n, p⟩ = some (n, decide (p ≠ .entered)) := if_neg under
    rw [view_complete]
    exact placed.complete ((view_hands here).trans (congrArg some has))
  | @submit i n k q _ here there =>
    rw [view_post]
    exact placed.post (view_hands here) there
  | answer _ j code _ there => exact placed.answer there j code
  | collectNone there taken => exact placed.collect_none there taken
  | collectSome there taken =>
    have kept := placed.collect_some there taken
    rw [ScsiRun.view, map_append]
    exact kept
  | @drain j k q _ there =>
    have kept := placed.drain there
    rw [ScsiRun.view, map_append, map_map]
    show Requests.Placed { s.view with
      queues := s.view.queues.set k q.drain
      completed := s.view.completed ++ q.list.map id }
    rw [map_id]
    exact kept

/-- Every effect keeps the lists of their length, and every call at a queue that exists. -/
theorem ScsiInv.effect (inv : ScsiInv a s) (effect : ScsiEffect a s op t) : ScsiInv a t := by
  have placed := effect.placed inv.placed
  -- a call whose new point is no queue's
  have moved {i : Nat} {c : ScsiCall} (inside : ∀ k, c.point = .tested k → k < a.numQueues)
      (j m k : Nat) (there : (s.calls.set i c)[j]? = some ⟨m, .tested k⟩) : k < a.numQueues := by
    rcases getElem?_move there with ⟨-, rfl⟩ | ⟨-, before⟩
    · exact inside k rfl
    · exact inv.calls j m k before
  have started {c : ScsiCall} (away : ∀ k, c.point ≠ .tested k) (j m k : Nat)
      (there : (s.calls ++ [c])[j]? = some ⟨m, .tested k⟩) : k < a.numQueues := by
    rcases getElem?_start there with ⟨-, rfl⟩ | before
    · exact absurd rfl (away k)
    · exact inv.calls j m k before
  cases effect with
  | quiet => exact ⟨placed, inv.length, inv.calls⟩
  | accept => exact ⟨placed, inv.length, started fun k => ScsiPoint.noConfusion⟩
  | number | complete => exact ⟨placed, inv.length, moved fun k is => ScsiPoint.noConfusion is⟩
  | move _ _ _ _ inside => exact ⟨placed, inv.length, moved inside⟩
  | submit =>
    exact ⟨placed, length_set.trans inv.length, moved fun k is => ScsiPoint.noConfusion is⟩
  | answer | collectNone | drain => exact ⟨placed, length_set.trans inv.length, inv.calls⟩
  | collectSome =>
    exact ⟨placed, length_set.trans inv.length, started fun k => ScsiPoint.noConfusion⟩

theorem ScsiInv.start (a : ScsiAdapter) : ScsiInv a (scsiStart a) where
  placed := Requests.Placed.start _ a.numQueues
  length := length_replicate
  calls := fun i n k here => by cases here

theorem ScsiEffect.owned (placed : s.view.Placed) (owned : s.view.Owned)
    (once : ScsiOnceRegular a s op) (effect : ScsiEffect a s op t) : t.view.Owned := by
  cases effect with
  | quiet | accept | number | move | complete => exact owned
  | submit _ _ there => exact owned.post there _ _
  | answer _ j code _ there => exact owned.answer there j code
  | collectNone there taken | collectSome there taken => exact owned.collect there placed taken
  | @drain j k q reset there => exact owned.drain (once k reset q there)

/-! ## Every SRB once -/

theorem scsi_owned_of_reachable
    (reach : Reachable (· = scsiStart a) (Next (scsiStep a) (ScsiOnceRegular a)) s) :
    ScsiInv a s ∧ s.view.Owned := by
  refine reach.machine_invariant (P := fun s => ScsiInv a s ∧ s.view.Owned) ?_ ?_
  · rintro _ rfl
    exact ⟨.start a, Requests.Owned.start _ a.numQueues⟩
  · rintro s op ⟨inv, owned⟩ once
    obtain ⟨t, stepped, effect⟩ := scsiNext_effect inv once.regular
    refine ⟨t, (), ?_, inv.effect effect, effect.owned inv.placed owned once⟩
    rw [scsiStep, stepped]
    rfl

/-- **Exactly once**: an SRB is in the hands of one call, in one list, or completed once, and so all
are completed when no call has one and the lists are empty; a completed SRB is in no list and not
with the device; and the counters are the lengths of the lists. -/
theorem scsi_once (reach : Reachable (· = scsiStart a) (Next (scsiStep a) (ScsiOnceRegular a)) s) :
    s.view.places.Perm (List.range s.accepted) ∧
      ((∀ c ∈ s.calls, c.point = .gone) → (∀ q ∈ s.queues, q.list = []) →
        (s.completed.map Prod.fst).Perm (List.range s.accepted)) ∧
      (∀ done ∈ s.completed, ∀ q ∈ s.queues, done.1 ∉ q.list ∧ ∀ e ∈ q.device, e.request ≠ done.1) ∧
      ∀ q ∈ s.queues, q.count = BitVec.ofNat 32 q.list.length := by
  obtain ⟨inv, owned⟩ := scsi_owned_of_reachable reach
  refine ⟨inv.placed.once, fun gone empty => ?_, fun done member q there => ⟨fun listed => ?_, ?_⟩,
    fun q there => (inv.placed.matched q there).count⟩
  · refine inv.placed.all_completed (fun hand member => ?_) empty
    obtain ⟨c, there, rfl⟩ := mem_map.mp member
    exact if_pos (gone c there)
  · exact inv.placed.list_apart there listed (mem_map_of_mem member)
  · exact fun e has => inv.placed.not_owned owned (mem_map_of_mem member) there has

def oneScsiQueue : ScsiAdapter := ⟨⟨1, true⟩, 16, none⟩

/-- A read of a unit, up to its descriptors on the ring. -/
def sendRead (unit : ScsiUnit) (i : Nat) : List ScsiOp :=
  [.startIo (readOf 4096 (by decide)) unit, .readId i, .countId i, .testRemoved i,
    .testReset i none, .submit i true]

structure ScsiView where
  device : List (List Nat)
  lists : List (List Nat × BitVec 32)
  completed : List (Nat × SrbStatus)
  deriving DecidableEq

def scsiView (s : ScsiRun) : ScsiView where
  device := s.queues.map fun q => q.device.map Posted.request
  lists := s.queues.map fun q => (q.list, q.count)
  completed := s.completed

/-- Two reads, one of which is answered, while another unit is removed. -/
theorem scsi_once_reads : ∃ s, scsiView s = ⟨[[1]], [([1], 1#32)], [(0, .success)]⟩ ∧
      s.view.places.Perm (List.range s.accepted) := by
  have replay : ∃ s ∈ attempt (scsiStep oneScsiQueue) (ScsiOnceRegular oneScsiQueue)
      (scsiStart oneScsiQueue) (sendRead ⟨0, 0, 0⟩ 0 ++ sendRead ⟨0, 0, 1⟩ 1 ++
        [.answer 0 0 ⟨0, 0, 0, 0⟩, .unitRemove ⟨0, 0, 2⟩, .removeNext 0, .collect 0, .finish 2]),
      scsiView s = ⟨[[1]], [([1], 1#32)], [(0, .success)]⟩ := by
    decide +kernel
  obtain ⟨s, reach, shape⟩ := reachable_of_replay _ replay
  exact ⟨s, shape, (scsi_once reach).1⟩

/-- A unit is removed while the device has a read of it: the read is completed and stays in the
list, with a counter of zero; when the device answers, it is completed again and the counter
wraps. -/
theorem unit_removed_twice :
    ∃ s, Reachable (· = scsiStart oneScsiQueue) (Next (scsiStep oneScsiQueue) fun _ _ => True) s ∧
      scsiView s = ⟨[[]], [([], 4294967295#32)], [(0, .noDevice), (0, .success)]⟩ := by
  refine reachable_of_replay
    (sendRead ⟨0, 0, 0⟩ 0 ++ [.unitRemove ⟨0, 0, 0⟩, .removeNext 0, .answer 0 0 ⟨0, 0, 0, 0⟩,
      .collect 0, .finish 1]) ?_
  decide +kernel

end KvmGuestDrivers.VioScsi

/-
# VioSock.TxDevices -- one flag for all devices

`lInProgress` of `VIOSockTxDequeue` is a static variable: there is one for the driver, not one
for each device.  A call that finds it set goes home and leaves its work to the call that has set
it, which looks at the list of its own device only.
-/
import KvmGuestDrivers.VioSock.TxQueue

namespace KvmGuestDrivers.VioSock

set_option autoImplicit false

open Theory Function

/-! ## Devices around one flag -/

/-- The call is in `VIOSockTxVqProcess` or `VIOSockTxDequeue`, and has not turned back. -/
def TxPoint.serves : TxPoint → Bool
  | .draining | .freeing _ | .dequeuing | .locking | .looping | .checking _ | .mapping _
  | .dropping _ => true
  | .validating .. | .taking _ | .queueing _ | .done => false

def TxPoint.inLoop : TxPoint → Bool
  | .locking | .looping | .checking _ | .mapping _ | .dropping _ => true
  | _ => false

structure TxFleet (n : Nat) where
  devices : Fin n → TxRun
  lInProgress : Bool

def TxFleet.device {n : Nat} (s : TxFleet n) (k : Fin n) : TxRun :=
  { s.devices k with dev := { (s.devices k).dev with inProgress := s.lInProgress } }

def fleetStep {n : Nat} (txPktNum : Fin n → Nat) (s : TxFleet n) :
    Fin n × TxOp → Except Empty (TxFleet n × Unit)
  | (k, op) =>
    match txStep (txPktNum k) (s.device k) op with
    | .ok (t, _) =>
      .ok ({ devices := update s.devices k t, lInProgress := t.dev.inProgress }, ())
    | .error e => nomatch e

def fleetStart {n : Nat} (txPktNum : Fin n → Nat) : TxFleet n :=
  { devices := fun k => txStart (txPktNum k), lInProgress := false }

/-! ## One device -/

variable (others : Prop)

/-- The flag was set by a call of this device, or by one of the `others`. -/
def Flagged (s : TxRun) : Prop :=
  s.dev.inProgress = true → others ∨ ∃ p ∈ s.calls, p.inLoop = true

/-- Entries that could be sent have a call that is going to look at them. -/
def Attended (s : TxRun) : Prop :=
  s.dev.txList ≠ [] → s.dev.slices ≠ 0 → ∃ p ∈ s.calls, p.serves = true

/-- No call is turned away from entries that it could send while one of the `others` is in the
loop, and insertions succeed. -/
def TxAttentive (s : TxRun) : TxOp → Prop
  | .step i ok _ => ∀ p ∈ s.calls[i]?,
      match p with
      | .dequeuing => s.dev.txList ≠ [] → s.dev.slices ≠ 0 → ¬others
      | .looping => s.dev.slices ≠ 0 → (∃ e ∈ s.dev.txList.head?, e.isWrite = false) → ok = true
      | _ => True
  | .callback i inserted =>
    s.dev.transactions[i]?.isSome = true → inserted = true ∨ s.dev.txList = []
  | _ => True

section Device

variable {others} {s t : TxRun} {i : Nat} {p q : TxPoint} {d : TxDevice} {ok : Bool} {op : TxOp}

theorem serves_of_inLoop (inLoop : p.inLoop = true) : p.serves = true := by
  cases p <;> simp_all [TxPoint.inLoop, TxPoint.serves]

/-! ### The flag -/

theorem Flagged.same (flagged : Flagged others s) (flag : d.inProgress = s.dev.inProgress) :
    Flagged others { s with dev := d } := by
  intro busy
  exact flagged (flag ▸ busy)

theorem Flagged.start (flagged : Flagged others s) (p : TxPoint) :
    Flagged others (startCall s p) := by
  intro busy
  obtain elsewhere | ⟨q, member, inLoop⟩ := flagged busy
  · exact .inl elsewhere
  · exact .inr ⟨q, List.mem_append_left _ member, inLoop⟩

theorem flagged_of_inLoop (here : s.calls[i]? = some p) (d : TxDevice) (inLoop : q.inLoop = true) :
    Flagged others { dev := d, calls := s.calls.set i q } :=
  fun _ => .inr ⟨q, List.mem_of_getElem? (getElem?_moved here q), inLoop⟩

theorem Flagged.moved (flagged : Flagged others s) (here : s.calls[i]? = some p)
    (outside : p.inLoop = false) (flag : d.inProgress = s.dev.inProgress) :
    Flagged others { dev := d, calls := s.calls.set i q } := by
  intro busy
  refine (flagged (flag ▸ busy)).imp_right (exists_mem_move here fun inLoop => ?_)
  rw [outside] at inLoop
  cases inLoop

theorem Flagged.call (flagged : Flagged others s) (here : s.calls[i]? = some p)
    (move : TxMove s.dev ok p d q) : Flagged others { dev := d, calls := s.calls.set i q } := by
  cases move with
  | stay =>
    rw [set_same here]
    exact flagged
  | leave | putBack => exact fun busy => absurd busy Bool.false_ne_true
  | enter | lock | forget | request | send | checked | unchecked | map | unmapped | dropped =>
    exact flagged_of_inLoop here _ rfl
  | _ => exact flagged.moved here rfl rfl

theorem Flagged.step (flagged : Flagged others s) (effect : TxEffect s op t) :
    Flagged others t := by
  cases effect with
  | start _ _ p => exact flagged.start p
  | step _ _ _ here _ move => exact flagged.call here move
  | callback i inserted =>
    obtain ⟨_, _, _, _, _, same⟩ := txDequeueCallback_frame s.dev i inserted
    exact flagged.same (by rw [same])
  | cancel i =>
    obtain ⟨_, _, same⟩ := cancelRequest_frame s.dev i
    exact flagged.same (by rw [same])
  | cancelRoutine i =>
    obtain ⟨_, _, _, same⟩ := txEnqueueCancel_frame s.dev i
    exact flagged.same (by rw [same])
  | _ => exact flagged

/-! ### The entries -/

theorem Attended.less (att : Attended s)
    (list : t.dev.txList ≠ [] → s.dev.txList ≠ []) (slices : t.dev.slices = s.dev.slices)
    (calls : (∃ p ∈ s.calls, p.serves = true) → ∃ p ∈ t.calls, p.serves = true) :
    Attended t := by
  intro entries free
  exact calls (att (list entries) (slices ▸ free))

theorem Attended.start (att : Attended s) (p : TxPoint) : Attended (startCall s p) :=
  att.less id rfl (exists_mem_start _)

theorem ne_nil_of_filter {α : Type} {l : List α} {p : α → Bool} (nonempty : l.filter p ≠ []) :
    l ≠ [] := by
  rintro rfl
  exact nonempty rfl

theorem attended_of_serves (here : s.calls[i]? = some p) (d : TxDevice)
    (serves : q.serves = true) : Attended { dev := d, calls := s.calls.set i q } :=
  fun _ _ => ⟨q, List.mem_of_getElem? (getElem?_moved here q), serves⟩

/-- A step of a call that was not serving, and leaves the list and the slices alone. -/
theorem Attended.moved (att : Attended s) (here : s.calls[i]? = some p)
    (idle : p.serves = false) (list : d.txList = s.dev.txList)
    (slices : d.slices = s.dev.slices) : Attended { dev := d, calls := s.calls.set i q } := by
  refine att.less (by rw [list]; exact id) slices (exists_mem_move here fun serves => ?_)
  rw [idle] at serves
  cases serves

theorem Attended.call (att : Attended s) (flagged : Flagged others s) {used : Nat → Bool}
    (here : s.calls[i]? = some p) (attentive : TxAttentive others s (.step i ok used))
    (move : TxMove s.dev ok p d q) : Attended { dev := d, calls := s.calls.set i q } := by
  have regular := attentive p here
  cases move with
  | stay =>
    rw [set_same here]
    exact att
  | validated | invalid | take | unmarked => exact att.moved here rfl rfl rfl
  | turnedAway taken =>
    -- the call that has set the flag is one of this device, and not this one
    intro entries free
    have loops := (flagged taken).resolve_left (regular entries free)
    obtain ⟨q, member, inLoop⟩ := exists_mem_move here nofun loops
    exact ⟨q, member, serves_of_inLoop inLoop⟩
  | leave nothing =>
    intro entries free
    rcases nothing with empty | full
    · exact absurd empty entries
    · exact absurd full free
  | putBack e _ list slices control failed =>
    have inserted := regular slices ⟨e, by rw [list]; rfl, control⟩
    exact absurd (failed.symm.trans inserted) Bool.false_ne_true
  | _ => exact attended_of_serves here _ rfl

theorem Attended.step (att : Attended s) (flagged : Flagged others s) (effect : TxEffect s op t)
    (attentive : TxAttentive others s op) : Attended t := by
  cases effect with
  | refused | absent | locked | header => exact att
  | start _ _ p => exact att.start p
  | step i ok _ here _ move => exact att.call flagged here attentive move
  | callback i inserted =>
    rw [txDequeueCallback]
    cases there : s.dev.transactions[i]? with
    | none => exact att
    | some =>
      cases inserted with
      | true => exact att.less id rfl id
      | false =>
        -- a packet is freed, and no entry waits for its slice
        have empty := (attentive (by rw [there]; rfl)).resolve_left Bool.false_ne_true
        exact fun entries => absurd empty entries
  | cancel =>
    rw [cancelRequest]
    split
    · refine att.less (fun nonempty empty => nonempty ?_) rfl id
      rw [empty]
      rfl
    · exact att
  | cancelRoutine =>
    rw [txEnqueueCancel]
    split
    · exact att
    · exact att.less ne_nil_of_filter rfl id
  | timer =>
    refine att.less (fun nonempty => ?_) rfl id
    exact ne_nil_of_filter fun empty => nonempty (List.map_eq_nil_iff.mpr empty)
  | cleanup => exact att.less ne_nil_of_filter rfl id

end Device

/-! ## All devices -/

def TxFleet.Elsewhere {n : Nat} (s : TxFleet n) (k : Fin n) : Prop :=
  ∃ j, j ≠ k ∧ ∃ p ∈ (s.devices j).calls, p.inLoop = true

def FleetAttentive {n : Nat} (s : TxFleet n) : Fin n × TxOp → Prop
  | (k, op) => TxAttentive (s.Elsewhere k) (s.device k) op

/-- Every device is attended, and the flag, if it is set, was set by a call in the loop. -/
structure FleetSound {n : Nat} (s : TxFleet n) : Prop where
  attended : ∀ k, Attended (s.devices k)
  flagged : s.lInProgress = true → ∃ k, ∃ p ∈ (s.devices k).calls, p.inLoop = true

section Fleet

variable {n : Nat} {txPktNum : Fin n → Nat} {s : TxFleet n}

theorem FleetSound.device (sound : FleetSound s) (k : Fin n) :
    Flagged (s.Elsewhere k) (s.device k) := by
  intro busy
  obtain ⟨j, p, member, inLoop⟩ := sound.flagged busy
  by_cases same : j = k
  · subst same
    exact .inr ⟨p, member, inLoop⟩
  · exact .inl ⟨j, same, p, member, inLoop⟩

theorem FleetSound.step (sound : FleetSound s) (op : Fin n × TxOp)
    (attentive : FleetAttentive s op) :
    ∃ t out, fleetStep txPktNum s op = .ok (t, out) ∧ FleetSound t := by
  obtain ⟨k, op⟩ := op
  have att : Attended (s.device k) := sound.attended k
  obtain ⟨t, stepped, effect⟩ := txStep_effect (txPktNum k) (s.device k) op
  have after := att.step (sound.device k) effect attentive
  have flagged := (sound.device k).step effect
  refine ⟨{ devices := update s.devices k t, lInProgress := t.dev.inProgress }, (),
    by simp only [fleetStep, stepped], ?_, ?_⟩
  · intro j
    by_cases same : j = k
    · subst same
      simpa using after
    · simpa [update_of_ne same] using sound.attended j
  · intro busy
    obtain ⟨j, other, p, member, inLoop⟩ | ⟨p, member, inLoop⟩ := flagged busy
    · exact ⟨j, p, by simpa [update_of_ne other] using member, inLoop⟩
    · exact ⟨k, p, by simpa using member, inLoop⟩

/-- **No transmission is stranded**: a device without a call in `VIOSockTxVqProcess` or
`VIOSockTxDequeue` has no entries, or no free slice. -/
theorem no_tx_stranded
    (reach : Reachable (· = fleetStart txPktNum) (Next (fleetStep txPktNum) FleetAttentive) s)
    (k : Fin n) (quiet : ∀ p ∈ (s.devices k).calls, p.serves = false)
    (entries : (s.devices k).dev.txList ≠ []) : (s.devices k).dev.slices = 0 := by
  have sound : FleetSound s := by
    refine reach.machine_invariant ?_ ?_
    · rintro _ rfl
      constructor
      · intro k entries
        exact absurd rfl entries
      · intro busy
        cases busy
    · intro s op sound attentive
      exact sound.step op attentive
  by_contra free
  obtain ⟨p, member, serves⟩ := sound.attended k entries free
  rw [quiet p member] at serves
  cases serves

end Fleet

/-! ## Fixed runs -/

section Fixed

instance [Decidable others] (s : TxRun) : (op : TxOp) → Decidable (TxAttentive others s op)
  | .step .. => @Option.decidableForallMem _ _ (fun
    | .dequeuing | .looping => inferInstanceAs (Decidable (_ → _ → _))
    | .validating .. | .taking _ | .queueing _ | .draining | .freeing _ | .locking | .checking _
    | .mapping _ | .dropping _ | .done => isTrue trivial) _
  | .write .. | .control .. | .resetNoSock .. | .interrupt | .callback .. | .cancel _
  | .cancelRoutine _ | .timer _ | .cleanup _ | .header .. => by unfold TxAttentive; infer_instance

instance {n : Nat} (s : TxFleet n) : (op : Fin n × TxOp) → Decidable (FleetAttentive s op)
  | (k, op) =>
    have : Decidable (s.Elsewhere k) := inferInstanceAs (Decidable (∃ j, j ≠ k ∧ _))
    inferInstanceAs (Decidable (TxAttentive (s.Elsewhere k) (s.device k) op))

def sendOn (k : Fin 2) (i m : Nat) : List (Fin 2 × TxOp) :=
  (TxOp.control 0 false true :: goOn i m).map fun op => (k, op)

/-- Two devices with a slice each.  Device 0 sends a packet and has another one wait for the
slice; then device 1 sends one. -/
theorem no_tx_stranded_waiting :
    ∃ s : TxFleet 2, (s.devices 0).dev.txList.length = 1 ∧ (s.devices 0).dev.slices = 0 := by
  have replay : ∃ s ∈ attempt (fleetStep fun _ => 1) FleetAttentive (fleetStart fun _ => 1)
      (sendOn 0 0 8 ++ sendOn 0 1 7 ++ sendOn 1 0 8),
      TxIdle (s.devices 0) ∧ (s.devices 0).dev.txList.length = 1 := by
    decide +kernel
  obtain ⟨s, reach, idle, one⟩ := reachable_of_replay _ replay
  refine ⟨s, one, no_tx_stranded reach 0 (fun p member => ?_) fun empty => ?_⟩
  · rw [idle.1 p member]
    rfl
  · rw [empty] at one
    cases one

/-- Two devices with a slice each.  While the dequeue of device 0 has the flag, the packet of
device 1 is queued and its dequeue turned away; the dequeue of device 0 looks at its own list and
leaves.  No call is in progress, the packet waits, and the slice is free. -/
theorem tx_stranded : ∃ s : TxFleet 2, Reachable (· = fleetStart fun _ => 1)
        (Next (fleetStep fun _ => 1) fun _ _ => True) s ∧
      (∀ k, TxIdle (s.devices k)) ∧
      (s.devices 1).dev.txList.length = 1 ∧ (s.devices 1).dev.slices = 1 := by
  refine reachable_of_replay (sendOn 0 0 5 ++ sendOn 1 0 5 ++ (goOn 0 3).map fun op => (0, op)) ?_
  decide +kernel

end Fixed

end KvmGuestDrivers.VioSock

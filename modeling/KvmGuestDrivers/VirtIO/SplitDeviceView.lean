/-
# VirtIO.SplitDeviceView -- what the device reads is what the driver queued

`deviceWalk` reads a chain as the device does: along `NEXT` from the published head
or, for a head with `INDIRECT`, along `NEXT` through the table it points to, which has
`len / 16` entries.  After a successful `virtqueue_add_buf_split` that walk yields the
caller's buffers in order, readable ones first (`walk_direct`, `walk_indirect`).

The call writes no descriptor of a chain that is in flight.  It can write the
*available slot* through which a chain in flight was published, once the device has
read that slot (`slot_reused_while_in_flight`): the slots are reused in ring order,
the chains come back in any order.  No slot the device has still to read is written.
-/
import KvmGuestDrivers.VirtIO.SplitPartition
import KvmGuestDrivers.VirtIO.SplitRefinement

namespace KvmGuestDrivers.VirtIO

set_option autoImplicit false

open Theory Function

variable {α : Type}

/-! ## The device's walk -/

structure DeviceBuffer where
  addr : Nat
  len : Nat
  writable : Bool

def bufferOf (d : VringDesc) : DeviceBuffer := ⟨d.addr, d.len, d.has virtqDescFWrite⟩

def deviceWalk (vq : VirtqueueSplit α) (head : Nat) : Option (List DeviceBuffer) :=
  let d := vq.desc head
  if d.has virtqDescFIndirect then
    let table := vq.indirectTable d.addr
    (chainFrom table (d.len / sizeofVringDesc) 0).map fun c => c.map fun i => bufferOf (table i)
  else (chainFrom vq.desc vq.num head).map fun c => c.map fun i => bufferOf (vq.desc i)

/-- The buffers of a request: the first `out` for the device to read, the others for
it to write. -/
def requestBuffers (r : BufferRequest α) : List DeviceBuffer :=
  (List.range r.total).map fun i =>
    ⟨(r.sg i).physAddr, (r.sg i).length, decide (r.outNum ≤ i)⟩

/-! ## Direct chains -/

theorem chainFlags_write (outNum i : Nat) :
    (chainFlags outNum i &&& virtqDescFWrite != 0) = decide (outNum ≤ i) ∧
      (chainFlags outNum i &&& ~~~virtqDescFNext &&& virtqDescFWrite != 0) =
        decide (outNum ≤ i) := by
  unfold chainFlags
  by_cases writable : outNum ≤ i
  · rw [if_pos writable, decide_eq_true writable]
    decide
  · rw [if_neg writable, decide_eq_false writable]
    decide

theorem chainFlags_indirect (outNum i : Nat) :
    (chainFlags outNum i &&& virtqDescFIndirect != 0) = false ∧
      (chainFlags outNum i &&& ~~~virtqDescFNext &&& virtqDescFIndirect != 0) = false := by
  unfold chainFlags
  split <;> decide

variable {n : Nat} {vq : VirtqueueSplit α} {chains : List (List Nat)}

variable (sg : Nat → Scatterlist)

theorem takeChain_desc (outNum : Nat) {k : Nat} (data : Option α)
    (nodup : (follow vq.next vq.firstUnused (n + 1)).Nodup) (bound : k ≤ n) :
    let d := (takeChain sg outNum n data vq).desc (vq.next^[k] vq.firstUnused)
    bufferOf d = ⟨(sg k).physAddr, (sg k).length, decide (outNum ≤ k)⟩ ∧
      d.has virtqDescFIndirect = false := by
  by_cases last : k = n
  · subst last
    rw [takeChain_desc_last sg outNum data nodup]
    refine ⟨?_, (chainFlags_indirect outNum k).2⟩
    simp only [bufferOf, VringDesc.has, (chainFlags_write outNum k).2]
    rfl
  · rw [takeChain_desc_inner sg outNum data nodup (by omega)]
    refine ⟨?_, (chainFlags_indirect outNum k).1⟩
    simp only [bufferOf, VringDesc.has, chainDesc, (chainFlags_write outNum k).1]

variable {r : BufferRequest α}

theorem walk_direct (total : r.total = n + 1)
    (nodup : (follow vq.next vq.firstUnused (n + 1)).Nodup) (enough : n + 1 ≤ vq.num) :
    deviceWalk (publishAvail (takeChain r.sg r.outNum n r.data vq) vq.firstUnused) vq.firstUnused =
      some (requestBuffers r) := by
  have cells := fun k (bound : k ≤ n) => takeChain_desc r.sg r.outNum r.data nodup bound
  have links := takeChain_next r.sg r.outNum n r.data vq
  have marked := takeChain_marked r.sg r.outNum r.data nodup
  rw [← links] at marked
  have chain := (chain_walk marked (show n < vq.num by omega)).2
  have head := (cells 0 (Nat.zero_le _)).2
  have walk : deviceWalk (publishAvail (takeChain r.sg r.outNum n r.data vq) vq.firstUnused)
      vq.firstUnused = (chainFrom (takeChain r.sg r.outNum n r.data vq).desc vq.num
        vq.firstUnused).map fun c => c.map fun i =>
          bufferOf ((takeChain r.sg r.outNum n r.data vq).desc i) :=
    if_neg (Bool.not_eq_true _ ▸ head)
  rw [walk, chain, Option.map_some, requestBuffers, total]
  refine congrArg some ?_
  rw [show (fun j => ((takeChain r.sg r.outNum n r.data vq).desc j).next) = vq.next from links,
    follow_eq_map, List.map_map]
  refine List.map_congr_left fun k member => ?_
  exact (cells k (by simpa [Nat.lt_succ_iff] using member)).1

/-! ## Indirect tables -/

/-- The flags the indirect path gives to entry `i`, before the last `NEXT` is cleared. -/
def indirectFlags (outNum i : Nat) : BitVec 16 :=
  (if i < outNum then 0 else virtqDescFWrite) ||| virtqDescFNext

theorem indirectFlags_bits_split (outNum i : Nat) :
    (indirectFlags outNum i &&& virtqDescFNext != 0) = true ∧
      (indirectFlags outNum i &&& ~~~virtqDescFNext &&& virtqDescFNext != 0) = false ∧
      (indirectFlags outNum i &&& virtqDescFWrite != 0) = decide (outNum ≤ i) ∧
      (indirectFlags outNum i &&& ~~~virtqDescFNext &&& virtqDescFWrite != 0) =
        decide (outNum ≤ i) := by
  unfold indirectFlags
  by_cases readable : i < outNum
  · rw [if_pos readable, decide_eq_false (by omega)]
    decide
  · rw [if_neg readable, decide_eq_true (by omega)]
    decide

theorem indirectEntries_eq (outNum n : Nat) (table : Nat → VringDesc) {i : Nat} (bound : i ≤ n) :
    indirectEntries sg outNum (n + 1) table i =
      { addr := (sg i).physAddr
        len := (sg i).length
        flags := if i = n then indirectFlags outNum i &&& ~~~virtqDescFNext
          else indirectFlags outNum i
        next := (i % 2 ^ 16 + 1) % 2 ^ 16 } := by
  have filled : ∀ j, j ≤ n → iterFrom (fillIndirect sg outNum) (n + 1) 0 table j =
      ⟨(sg j).physAddr, (sg j).length, indirectFlags outNum j, (j % 2 ^ 16 + 1) % 2 ^ 16⟩ := by
    intro j le
    refine (iterFrom_update (fun i _ => ⟨(sg i).physAddr, (sg i).length, indirectFlags outNum i,
      (i % 2 ^ 16 + 1) % 2 ^ 16⟩) (n + 1) table j).trans ?_
    exact if_pos (by omega)
  simp only [indirectEntries, Nat.add_sub_cancel, update_apply]
  split
  · rename_i last
    rw [filled n le_rfl, last]
  · exact filled i bound

theorem chainFrom_indirect (outNum : Nat) (table : Nat → VringDesc) (small : n + 1 ≤ 2 ^ 16) :
    chainFrom (indirectEntries sg outNum (n + 1) table) (n + 1) 0 = some (List.range (n + 1)) := by
  have entry := fun i (bound : i ≤ n) => indirectEntries_eq sg outNum n table bound
  have links : ∀ i, i + 1 < n + 1 → (indirectEntries sg outNum (n + 1) table i).next = i + 1 := by
    intro i below
    rw [entry i (by omega)]
    simp only
    omega
  have marked : Marked (indirectEntries sg outNum (n + 1) table)
      (follow (fun j => (indirectEntries sg outNum (n + 1) table j).next) 0 (n + 1)) := by
    rw [marked_follow, follow_consecutive links (by omega)]
    constructor
    · intro j hj
      have below : j < n := by simpa using hj
      rw [entry j (by omega), if_neg (by omega)]
      exact (indirectFlags_bits_split outNum j).1
    · have last : (fun j => (indirectEntries sg outNum (n + 1) table j).next)^[n] 0 = n := by
        have walk := getElem?_follow
          (fun j => (indirectEntries sg outNum (n + 1) table j).next) 0 (show n < n + 1 by omega)
        rw [follow_consecutive links (by omega)] at walk
        simpa using walk.symm
      rw [last, entry n le_rfl, if_pos rfl]
      exact (indirectFlags_bits_split outNum n).2.1
  rw [(chain_walk marked (by omega)).2, follow_consecutive links (by omega), List.range_eq_range']

theorem walk_indirect (pa : Nat) (small : r.total < 2 ^ 16) :
    deviceWalk (publishAvail (takeIndirect r.sg r.outNum r.total pa r.data vq) vq.firstUnused)
      vq.firstUnused = some (requestBuffers r) := by
  have totalPos := r.pos
  obtain ⟨n, total⟩ : ∃ n, r.total = n + 1 := ⟨r.total - 1, by omega⟩
  have length : r.total * sizeofVringDesc % 2 ^ 32 / sizeofVringDesc = r.total := by
    simp only [sizeofVringDesc]
    omega
  have flag : (virtqDescFIndirect &&& virtqDescFIndirect != 0) = true := by decide
  have walk : deviceWalk (publishAvail (takeIndirect r.sg r.outNum r.total pa r.data vq)
      vq.firstUnused) vq.firstUnused =
        (chainFrom (indirectEntries r.sg r.outNum r.total (vq.indirectTable pa)) r.total 0).map
          fun c => c.map fun i =>
            bufferOf (indirectEntries r.sg r.outNum r.total (vq.indirectTable pa) i) := by
    simp only [deviceWalk, publishAvail, takeIndirect, VringDesc.has, update_self, flag,
      if_true, length]
  rw [walk, requestBuffers, total, chainFrom_indirect r.sg r.outNum _ (by omega)]
  refine congrArg some (List.map_congr_left fun i member => ?_)
  have bound : i ≤ n := by simpa [Nat.lt_succ_iff] using member
  have bits := indirectFlags_bits_split r.outNum i
  rw [indirectEntries_eq r.sg r.outNum n _ bound]
  simp only [bufferOf, VringDesc.has]
  by_cases last : i = n
  · rw [if_pos last, bits.2.2.2]
  · rw [if_neg last, bits.2.2.1]

/-! ## `virtqueue_add_buf_split` as the device sees it -/

/-- The head in the slot the current available index has published last, found as the
device finds it. -/
def publishedHead (vq : VirtqueueSplit α) : Nat :=
  vq.availRing ((vq.availIdx + (2 ^ 16 - 1)) % 2 ^ 16 % vq.num)

/-- The device reads the request's buffers from the chain published last. -/
def SeesRequest (vq : VirtqueueSplit α) (r : BufferRequest α) : Prop :=
  deviceWalk vq (publishedHead vq) = some (requestBuffers r)

def KeepsChains (s : SplitLedger α) (vq' : VirtqueueSplit α) : Prop :=
  ∀ h ∈ s.inflight, ∀ i ∈ chainAt s.vq h, vq'.desc i = s.vq.desc i

def KeepsTables (vq vq' : VirtqueueSplit α) (r : BufferRequest α) : Prop :=
  ∀ pa, r.indirect ≠ some pa → vq'.indirectTable pa = vq.indirectTable pa

variable {vq' : VirtqueueSplit α} {data : Option α} {num : Nat} {s : SplitSystem α}

theorem publishedHead_added (pow : vq.num.isPowerOfTwo) (small : vq.num ≤ 2 ^ 16)
    (master : vq.masterIdx < 2 ^ 16) (added : Added vq vq' n data) :
    publishedHead vq' = vq.firstUnused := by
  have slot : ((vq.masterIdx + 1) % 2 ^ 16 + (2 ^ 16 - 1)) % 2 ^ 16 = vq.masterIdx := by omega
  rw [publishedHead, added.availIdx, slot, added.num, added.avail,
    descIndex_eq_mod pow (by omega), update_self]

theorem enospc_ne_success : -enospc ≠ vqAddBufferSuccess := by decide

section

variable (inv : SplitInv vq chains) (ok : addSplit vq r = (vqAddBufferSuccess, vq'))

include inv ok

theorem added_of_success : ∃ n, Added vq vq' n r.data := by
  rcases addSplit_spec r inv.free_nodup inv.count_lt with ⟨-, full⟩ | ⟨_, n, -, ok', added⟩
  · rw [full] at ok
    exact absurd (Prod.ext_iff.mp ok).1 enospc_ne_success
  · rw [ok'] at ok
    obtain rfl := (Prod.ext_iff.mp ok).2
    exact ⟨n, added⟩

theorem addSplit_success : (∃ pa, r.indirect = some pa ∧
        vq' = publishAvail (takeIndirect r.sg r.outNum r.total pa r.data vq) vq.firstUnused) ∨
      ∃ n, r.total = n + 1 ∧ n + 1 ≤ vq.numUnused ∧
        vq' = publishAvail (takeChain r.sg r.outNum n r.data vq) vq.firstUnused := by
  by_cases indirect : UsesIndirect vq r
  · obtain ⟨area, many, some⟩ := indirect
    obtain ⟨pa, area⟩ := Option.ne_none_iff_exists'.mp area
    rw [addSplit_indirect area many some inv.count_lt] at ok
    exact .inl ⟨pa, area, (Prod.ext_iff.mp ok).2.symm⟩
  · have totalPos := r.pos
    obtain ⟨n, total⟩ : ∃ n, r.total = n + 1 := ⟨r.total - 1, by omega⟩
    rw [addSplit_direct indirect, total] at ok
    by_cases full : vq.numUnused < n + 1
    · rw [virtqueueAddBufSplit.directPath, if_pos full] at ok
      exact absurd (Prod.ext_iff.mp ok).1 enospc_ne_success
    · rw [directPath_eq r.sg r.outNum _ (by omega) inv.count_lt] at ok
      exact .inr ⟨n, total, by omega, (Prod.ext_iff.mp ok).2.symm⟩

end

theorem addSplit_deviceWalk (inv : SplitInv vq chains) (fits : r.IndirectFits)
    (ok : addSplit vq r = (vqAddBufferSuccess, vq')) :
    deviceWalk vq' vq.firstUnused = some (requestBuffers r) ∧ KeepsTables vq vq' r := by
  rcases addSplit_success inv ok with ⟨pa, area, rfl⟩ | ⟨n, total, enough, rfl⟩
  · refine ⟨walk_indirect pa (fits (by simp [area])), fun pa' other => ?_⟩
    have ne : pa' ≠ pa := by
      rintro rfl
      exact other area
    exact update_of_ne ne _ _
  · have nodup := inv.free_nodup
    rw [← Nat.add_sub_cancel' enough, follow_add] at nodup
    have count := inv.count_le
    exact ⟨walk_direct total (List.nodup_append.mp nodup).1 (by omega), fun pa _ => rfl⟩

theorem LedgerInv.keepsChains {s : SplitLedger α} (inv : LedgerInv num s)
    (added : Added s.vq vq' n data) : KeepsChains s vq' := by
  intro h flying i member
  obtain ⟨_, c, _, rfl, split, -⟩ := inv.splitAt flying
  rw [split.chainAt_head (by simp)] at member
  refine added.frame i fun taken => ?_
  have free : i ∈ follow s.vq.next s.vq.firstUnused s.vq.numUnused := by
    rw [← Nat.add_sub_cancel' added.enough, follow_add]
    exact List.mem_append_left _ taken
  exact split.pool.free_disjoint List.nodup_range (by simp) free member

/-- The number of entries of the available ring the device has still to read. -/
def SplitSystem.unread (s : SplitSystem α) : Nat :=
  (s.vq.availIdx + (2 ^ 16 - s.lastAvail)) % 2 ^ 16

/-- No available slot the device has still to read differs. -/
def KeepsUnread (s : SplitSystem α) (vq' : VirtqueueSplit α) : Prop :=
  ∀ k, k < s.unread →
    vq'.availRing ((s.lastAvail + k) % s.vq.num) = s.vq.availRing ((s.lastAvail + k) % s.vq.num)

theorem SplitSim.keepsUnread {prog pub : List (Flight α)} {used : List (Flight α × Nat)}
    (sim : SplitSim num s prog pub used) (pow : num.isPowerOfTwo) (small : num < 2 ^ 16)
    (added : Added s.vq vq' n data) : KeepsUnread s vq' := by
  have few := sim.few
  have idx := sim.availIdx
  have bound := sim.lastAvail
  have enough := added.enough
  have count : s.unread = pub.length := by
    rw [SplitSystem.unread]
    omega
  have slot : descIndex s.vq.num s.vq.masterIdx = (s.lastAvail + pub.length) % num := by
    rw [sim.numEq, descIndex_eq_mod pow (by omega), sim.masterIdx, idx,
      Nat.mod_mod_of_dvd _ (dvd_of_isPowerOfTwo pow (by omega))]
  intro k less
  rw [added.avail, slot, sim.numEq]
  exact update_of_ne (mod_ne_of_lt (by omega) (by omega)) _ _

theorem splitRefines_of_reachable {ev : Bool} (pow : num.isPowerOfTwo) (small : num < 2 ^ 16)
    (reach : Reachable (SplitStart num ev) (Next splitStep fun _ _ => True) s) :
    ∃ q, SplitRefines num s q := by
  refine reach.machine_invariant (P := fun s => ∃ q, SplitRefines num s q)
    (fun s start => ⟨_, splitRefines_start pow start⟩) ?_
  rintro s op ⟨q, rel⟩ -
  obtain ⟨s', stepped, rel'⟩ := splitStep_simulates pow small s q op rel
  exact ⟨s', _, stepped, _, rel'⟩

/-- **What the device reads is what the driver queued.**  A successful `add_buf`
publishes a chain that reads as the caller's buffers, writes no descriptor of a chain
in flight and no other indirect table; and, as long as nothing was detached, it
writes no available slot the device has still to read. -/
theorem device_sees_request {num : Nat} {ev : Bool} (pow : num.isPowerOfTwo)
    (small : num < 2 ^ 16) (r : BufferRequest α) (fits : r.IndirectFits) (vq' : VirtqueueSplit α) :
    (∀ s : SplitLedger α, Reachable (Fresh num ev)
        (Next ledgerStep (LedgerAllowed (fun _ => True) TakesUnreturned)) s →
      addSplit s.vq r = (vqAddBufferSuccess, vq') →
        SeesRequest vq' r ∧ KeepsChains s vq' ∧ KeepsTables s.vq vq' r) ∧
      ∀ s : SplitSystem α, Reachable (SplitStart num ev) (Next splitStep fun _ _ => True) s →
        addSplit s.vq r = (vqAddBufferSuccess, vq') → KeepsUnread s vq' := by
  constructor
  · intro s reach ok
    have inv := ledgerInv_of_reachable pow reach
    obtain ⟨chains, split, -⟩ := inv.chains
    obtain ⟨n, added⟩ := added_of_success split ok
    have head := publishedHead_added (inv.numEq ▸ pow) split.small inv.masterIdx added
    obtain ⟨walk, tables⟩ := addSplit_deviceWalk split fits ok
    refine ⟨?_, inv.keepsChains added, tables⟩
    rw [SeesRequest, head]
    exact walk
  · intro s reach ok
    obtain ⟨q, _, _, _, sim, -⟩ := splitRefines_of_reachable pow small reach
    obtain ⟨n, added⟩ := added_of_success sim.inv ok
    exact sim.keepsUnread pow small added

/-- A chain of two descriptors is in flight, and a younger buffer has come back before it; what is
free again becomes part of the next chain. -/
theorem device_sees_later_request :
    ∃ (s : SplitLedger Unit) (vq' : VirtqueueSplit Unit), s.inflight = [0] ∧
      addSplit s.vq twoBuffers = (vqAddBufferSuccess, vq') ∧ SeesRequest vq' twoBuffers ∧
      KeepsChains s vq' := by
  have replay : ∃ s ∈ attempt ledgerStep (LedgerAllowed (fun _ => True) TakesUnreturned)
      (freshLedger Unit 4 false)
      [.add twoBuffers, .add (oneBuffer (some ())), .complete 2 512, .get],
      s.inflight = [0] ∧ (addSplit s.vq twoBuffers).1 = vqAddBufferSuccess := by
    decide +kernel
  obtain ⟨s, run, inflight, ok⟩ := replay
  have fresh := fresh_freshLedger (α := Unit) false ⟨2, rfl⟩ (by decide)
  have sees := (device_sees_request ⟨2, rfl⟩ (by decide) twoBuffers
    (by simp [twoBuffers, BufferRequest.IndirectFits]) _).1 s
    (reachable_of_attempt _ (.start fresh) run) (Prod.ext ok rfl)
  exact ⟨s, _, inflight, Prod.ext ok rfl, sees.1, sees.2.1⟩

/-! ## Available slots are reused -/

/-- A ledger that remembers through which available slot each head was published
last. -/
structure SlotLedger (α : Type) where
  ledger : SplitLedger α
  slotOf : Nat → Nat

def slotStep (s : SlotLedger α) (op : LedgerOp α) : Except Fault (SlotLedger α × Unit) :=
  match ledgerStep s.ledger op with
  | .error e => .error e
  | .ok (t, ()) =>
    match op with
    | .add r =>
      if (addSplit s.ledger.vq r).1 = vqAddBufferSuccess then
        .ok ({ ledger := t
               slotOf := update s.slotOf s.ledger.vq.firstUnused
                 (descIndex t.vq.num s.ledger.vq.masterIdx) }, ())
      else .ok ({ s with ledger := t }, ())
    | _ => .ok ({ s with ledger := t }, ())

/-- No available slot of a chain in flight differs. -/
def KeepsSlots (s : SlotLedger α) (vq' : VirtqueueSplit α) : Prop :=
  ∀ h ∈ s.ledger.inflight,
    vq'.availRing (s.slotOf h) = s.ledger.vq.availRing (s.slotOf h)

/-- A chain that is still in flight can lose its available slot: two buffers are
added, the younger is returned and collected, and the third is published through the
slot of the first. -/
theorem slot_reused_while_in_flight : ¬ ∀ (num : Nat) (ev : Bool), num.isPowerOfTwo → num < 2 ^ 16 →
      ∀ (r : BufferRequest Unit) (vq' : VirtqueueSplit Unit) (s : SlotLedger Unit), r.IndirectFits →
        Reachable (fun s => Fresh num ev s.ledger) (Next slotStep fun s op =>
            LedgerAllowed (fun _ => True) (fun _ => False) s.ledger op) s →
        addSplit s.ledger.vq r = (vqAddBufferSuccess, vq') →
          SeesRequest vq' r ∧ KeepsChains s.ledger vq' ∧ KeepsSlots s vq' := by
  intro always
  have replay : ∃ s ∈ attempt slotStep
      (fun s op => LedgerAllowed (fun _ => True) (fun _ => False) s.ledger op)
      ⟨freshLedger Unit 2 false, fun _ => 0⟩
      [.add (oneBuffer (some ())), .add (oneBuffer (some ())), .complete 1 512, .get],
      s.ledger.inflight = [0] ∧ s.slotOf 0 = 0 ∧ s.ledger.vq.availRing 0 = 0 ∧
        (addSplit s.ledger.vq (oneBuffer (some ()))).1 = vqAddBufferSuccess ∧
        (addSplit s.ledger.vq (oneBuffer (some ()))).2.availRing 0 = 1 := by
    decide
  obtain ⟨s, run, inflight, slot, before, ok, after⟩ := replay
  have fresh := fresh_freshLedger (α := Unit) false ⟨1, rfl⟩ (by decide)
  have keeps := (always 2 false ⟨1, rfl⟩ (by decide) (oneBuffer (some ())) _ s
    (by simp [oneBuffer, BufferRequest.IndirectFits])
    (reachable_of_attempt _ (.start fresh) run) (Prod.ext ok rfl)).2.2
  have same := keeps 0 (by simp [inflight])
  rw [slot, before, after] at same
  cases same

end KvmGuestDrivers.VirtIO

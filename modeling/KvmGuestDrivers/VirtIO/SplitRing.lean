/-
# VirtIO.SplitRing -- the split virtqueue of `VirtIORing.c`

`VirtqueueSplit` holds the driver's control block (`struct virtqueue_split`) and
the ring memory it shares with the device (`struct vring`), as one flat record.
Arrays are functions of the index.  16- and 32-bit counters are natural numbers
reduced where the source's type reduces them.

The indirect tables live in caller memory: `indirectTable pa i` is entry `i` of the
table at physical address `pa`.

`put_unused_desc_chain` follows links in a `while` loop.  Its index is a `u16`, so
a walk of `2 ^ 16` steps that has not met a descriptor without `NEXT` repeats
itself for ever; `chainEnd` answers `none` there and the callers `Fault.hang`.
-/
import KvmGuestDrivers.VirtIO.Ring

namespace KvmGuestDrivers.VirtIO

set_option autoImplicit false

open Theory Function

/-- `DESC_INDEX(num, i)`: `(i) & ((num)-1)` in 32 bits. -/
def descIndex (num i : Nat) : Nat := i &&& (num + (2 ^ 32 - 1)) % 2 ^ 32

def virtqDescFNext : BitVec 16 := 1
def virtqDescFWrite : BitVec 16 := 2
def virtqDescFIndirect : BitVec 16 := 4
def virtqUsedFNoNotify : BitVec 16 := 1
def virtqAvailFNoInterrupt : BitVec 16 := 1

structure VringDesc where
  addr : Nat
  len : Nat
  flags : BitVec 16
  next : Nat

def sizeofVringDesc : Nat := 16

/-- `desc.flags & flag`, as a condition. -/
def VringDesc.has (d : VringDesc) (flag : BitVec 16) : Bool := d.flags &&& flag != 0

structure VringUsedElem where
  id : Nat
  len : Nat

/-- `struct virtqueue_split` together with the ring memory and the one field of the
device, `event_suppression_enabled`, that the ring functions read. -/
structure VirtqueueSplit (α : Type) where
  eventSuppressionEnabled : Bool
  num : Nat
  desc : Nat → VringDesc
  availFlags : BitVec 16
  availIdx : Nat
  availRing : Nat → Nat
  /-- `vring_used_event`, the word behind the available ring. -/
  usedEvent : Nat
  usedFlags : BitVec 16
  usedIdx : Nat
  usedRing : Nat → VringUsedElem
  /-- `vring_avail_event`, the word behind the used ring. -/
  availEvent : Nat
  masterFlags : BitVec 16
  masterIdx : Nat
  numUnused : Nat
  numAddedSinceKick : Nat
  firstUnused : Nat
  lastUsed : Nat
  opaquePtr : Nat → Option α
  indirectTable : Nat → Nat → VringDesc

variable {α : Type}

variable (vq : VirtqueueSplit α)

namespace VirtqueueSplit

def next (i : Nat) : Nat := (vq.desc i).next

def setDesc (i : Nat) (d : VringDesc) : VirtqueueSplit α :=
  { vq with desc := update vq.desc i d }

def setOpaque (i : Nat) (data : Option α) : VirtqueueSplit α :=
  { vq with opaquePtr := update vq.opaquePtr i data }

@[simp] theorem setOpaque_desc (i : Nat) (data : Option α) :
    (vq.setOpaque i data).desc = vq.desc := rfl

def clearNext (i : Nat) : VirtqueueSplit α :=
  vq.setDesc i { vq.desc i with flags := (vq.desc i).flags &&& ~~~virtqDescFNext }

end VirtqueueSplit

/-! ## The free list -/

/-- `get_unused_desc`: the first unused descriptor, and the queue without it. -/
def getUnusedDesc : Nat × VirtqueueSplit α :=
  (vq.firstUnused,
    { vq with
      firstUnused := (vq.desc vq.firstUnused).next
      numUnused := (vq.numUnused + (2 ^ 32 - 1)) % 2 ^ 32 })

/-- The `while` loop of `put_unused_desc_chain`: the end of the chain at `idx` and
the number of links followed. -/
def chainEnd (desc : Nat → VringDesc) : Nat → Nat → Option (Nat × Nat)
  | 0, _ => none
  | fuel + 1, idx =>
    if (desc idx).has virtqDescFNext then
      (chainEnd desc fuel (desc idx).next).map fun r => (r.1, r.2 + 1)
    else some (idx, 0)

def putUnusedDescChain (start : Nat) : Except Fault (VirtqueueSplit α) :=
  match chainEnd vq.desc (2 ^ 16) start with
  | none => .error .hang
  | some (idx, links) =>
    .ok { vq with
      opaquePtr := update vq.opaquePtr start none
      desc := update vq.desc idx
        { vq.desc idx with flags := virtqDescFNext, next := vq.firstUnused }
      numUnused := (vq.numUnused + links + 1) % 2 ^ 32
      firstUnused := start }

/-! ## Adding buffers -/

variable (sg : Nat → Scatterlist)

/-- One turn of the loop that fills the indirect table. -/
def fillIndirect (outNum i : Nat) (table : Nat → VringDesc) : Nat → VringDesc :=
  update table i
    { addr := (sg i).physAddr
      len := (sg i).length
      flags := (if i < outNum then 0 else virtqDescFWrite) ||| virtqDescFNext
      next := (i % 2 ^ 16 + 1) % 2 ^ 16 }

/-- The indirect table of `total` entries: the loop, then `NEXT` of the last entry
cleared. -/
def indirectEntries (outNum total : Nat) (table : Nat → VringDesc) : Nat → VringDesc :=
  let table := iterFrom (fillIndirect sg outNum) total 0 table
  let last := table (total - 1)
  update table (total - 1) { last with flags := last.flags &&& ~~~virtqDescFNext }

/-- Take one descriptor for `sg[i]` and link it to the free list behind it: the body
of the loop over the rest of the descriptors, and the code for the first one. -/
def takeDesc (outNum i : Nat) (vq : VirtqueueSplit α) : Nat × VirtqueueSplit α :=
  let (idx, vq) := getUnusedDesc vq
  (idx, vq.setDesc idx
    { addr := (sg i).physAddr
      len := (sg i).length
      flags := if outNum ≤ i then virtqDescFNext ||| virtqDescFWrite else virtqDescFNext
      next := vq.firstUnused })

/-- The loop over the rest of the descriptors: `n` more, from `sg[i]` on. -/
def takeRest (sg : Nat → Scatterlist) (outNum : Nat) :
    Nat → Nat → Nat → VirtqueueSplit α → Nat × VirtqueueSplit α
  | 0, _, last, vq => (last, vq)
  | n + 1, i, _, vq =>
    let (last, vq) := takeDesc sg outNum i vq
    takeRest sg outNum n (i + 1) last vq

/-- The end of `virtqueue_add_buf_split`: write the head into the available ring and
publish the new index. -/
def publishAvail (head : Nat) : VirtqueueSplit α :=
  { vq with
    availRing := update vq.availRing (descIndex vq.num vq.masterIdx) head
    masterIdx := (vq.masterIdx + 1) % 2 ^ 16
    availIdx := (vq.masterIdx + 1) % 2 ^ 16
    numAddedSinceKick := (vq.numAddedSinceKick + 1) % 2 ^ 32 }

def virtqueueAddBufSplit (sg : Nat → Scatterlist) (outNum inNum : Nat)
    (data : Option α) (indirect : Option Nat) : Int × VirtqueueSplit α :=
  let total := (outNum + inNum) % 2 ^ 32
  match indirect with
  | some pa =>
    if 1 < total ∧ 0 < vq.numUnused then indirectPath total pa
    else directPath total
  | none => directPath total
where
  indirectPath (total pa : Nat) : Int × VirtqueueSplit α :=
    let vq := { vq with
      indirectTable := update vq.indirectTable pa
        (indirectEntries sg outNum total (vq.indirectTable pa)) }
    let (idx, vq) := getUnusedDesc vq
    let vq := vq.setDesc idx
      { vq.desc idx with
        flags := virtqDescFIndirect
        addr := pa
        len := total * sizeofVringDesc % 2 ^ 32 }
    (vqAddBufferSuccess, publishAvail (vq.setOpaque idx data) idx)
  directPath (total : Nat) : Int × VirtqueueSplit α :=
    if vq.numUnused < total then (-enospc, vq)
    else
      let (idx, vq) := takeDesc sg outNum 0 vq
      let (lastIdx, vq) := takeRest sg outNum (total - 1) 1 idx (vq.setOpaque idx data)
      (vqAddBufferSuccess, publishAvail (vq.clearNext lastIdx) idx)

/-! ## Taking buffers back -/

def virtqueueIsInterruptEnabledSplit : Bool :=
  !(vq.masterFlags &&& virtqAvailFNoInterrupt != 0)

/-- The end of `virtqueue_get_buf_split`: step over the used entry and, when an
interrupt is wanted for the next one, tell the device so. -/
def advanceLastUsed : VirtqueueSplit α :=
  let lastUsed := (vq.lastUsed + 1) % 2 ^ 16
  { vq with
    lastUsed
    usedEvent := if vq.eventSuppressionEnabled && virtqueueIsInterruptEnabledSplit vq then lastUsed
      else vq.usedEvent }

/-- `virtqueue_get_buf_split`: the queue, and the `opaque` and length of the buffer
returned, or `none` when there is none. -/
def virtqueueGetBufSplit :
    Except Fault (VirtqueueSplit α × Option (Option α × Nat)) :=
  if vq.lastUsed = vq.usedIdx then .ok (vq, none)
  else
    let elem := vq.usedRing (descIndex vq.num vq.lastUsed)
    let idx := elem.id % 2 ^ 16
    let data := vq.opaquePtr idx
    match putUnusedDescChain vq idx with
    | .error e => .error e
    | .ok vq => .ok (advanceLastUsed vq, some (data, elem.len))

def virtqueueHasBufSplit : Bool := vq.lastUsed != vq.usedIdx

/-- The search of `virtqueue_detach_unused_buf_split`: the first index below the
bound whose `opaque` is set. -/
def firstAttached (opaquePtr : Nat → Option α) (bound : Nat) : Option Nat :=
  (List.range bound).find? fun i => (opaquePtr i).isSome

def unpublishAvail : VirtqueueSplit α :=
  { vq with
    masterIdx := (vq.masterIdx + (2 ^ 16 - 1)) % 2 ^ 16
    availIdx := (vq.masterIdx + (2 ^ 16 - 1)) % 2 ^ 16 }

/-- `virtqueue_detach_unused_buf_split`.  The loop's bound is `(u16)num`. -/
def virtqueueDetachUnusedBufSplit :
    Except Fault (VirtqueueSplit α × Option α) :=
  match firstAttached vq.opaquePtr (vq.num % 2 ^ 16) with
  | none => .ok (vq, none)
  | some idx =>
    let data := vq.opaquePtr idx
    match putUnusedDescChain vq idx with
    | .error e => .error e
    | .ok vq => .ok (unpublishAvail vq, data)

/-! ## Notifications -/

def virtqueueKickPrepareSplit : Bool × VirtqueueSplit α :=
  let wrapAround := decide (2 ^ 16 ≤ vq.numAddedSinceKick)
  let old := (((vq.masterIdx : Int) - vq.numAddedSinceKick) % 2 ^ 16).toNat
  let new := vq.masterIdx
  let kick := if vq.eventSuppressionEnabled then
      wrapAround || vringNeedEvent vq.availEvent new old
    else !(vq.usedFlags &&& virtqUsedFNoNotify != 0)
  (kick, { vq with numAddedSinceKick := 0 })

def virtqueueKickAlwaysSplit : VirtqueueSplit α :=
  { vq with numAddedSinceKick := 0 }

/-! ## Creation -/

/-- One turn of the loop that builds the list of unused descriptors. -/
def linkUnused (i : Nat) (desc : Nat → VringDesc) : Nat → VringDesc :=
  update desc i { desc i with flags := virtqDescFNext, next := (i + 1) % 2 ^ 16 }

/-- The fields `vring_new_virtqueue_split` sets up, over zeroed memory, around a
descriptor table. -/
def freshSplit (α : Type) (num : Nat) (eventSuppressionEnabled : Bool) (desc : Nat → VringDesc) :
    VirtqueueSplit α where
  eventSuppressionEnabled := eventSuppressionEnabled
  num := num
  desc := desc
  availFlags := 0
  availIdx := 0
  availRing := fun _ => 0
  usedEvent := 0
  usedFlags := 0
  usedIdx := 0
  usedRing := fun _ => ⟨0, 0⟩
  availEvent := 0
  masterFlags := 0
  masterIdx := 0
  numUnused := num
  numAddedSinceKick := 0
  firstUnused := 0
  lastUsed := 0
  opaquePtr := fun _ => none
  indirectTable := fun _ _ => ⟨0, 0, 0, 0⟩

/-- `vring_new_virtqueue_split` on zeroed ring memory: `none` for a length that is
not a power of two, a hang when the 16-bit counter cannot reach `num - 1`. -/
def vringNewVirtqueueSplit (α : Type) (num : Nat) (eventSuppressionEnabled : Bool) :
    Except Fault (Option (VirtqueueSplit α)) :=
  if descIndex num num ≠ 0 then .ok none
  else
    match forU16 ((num + (2 ^ 32 - 1)) % 2 ^ 32) linkUnused (fun _ => ⟨0, 0, 0, 0⟩) with
    | none => .error .hang
    | some desc => .ok (some (freshSplit α num eventSuppressionEnabled desc))

/-! ## The device's side -/

/-- The device returns the chain at `head`: it fills the next used slot and moves
the used index. -/
def deviceUse (head len : Nat) : VirtqueueSplit α :=
  { vq with
    usedRing := update vq.usedRing (vq.usedIdx % vq.num) ⟨head, len⟩
    usedIdx := (vq.usedIdx + 1) % 2 ^ 16 }

end KvmGuestDrivers.VirtIO

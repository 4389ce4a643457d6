/-
# VirtIO.PackedRing -- the packed virtqueue of `VirtIORing-Packed.c`

`VirtqueuePacked` holds the driver's control block (`struct virtqueue_packed`) and
the memory it shares with the device: one ring of descriptors, which both sides
overwrite in ring order, and the two event suppression areas.

Unlike in the split ring the descriptors carry no links.  The links are between
buffer ids, in `desc_state`, private to the driver; a buffer reserves as many ids as
it takes descriptors, and the first of them names it.

`BUG_ON` and `BAD_RING` stop the system (`Fault.bugCheck`).  The loop that fills an
indirect table has a `u16` counter and never ends for `2 ^ 16` buffers or more.
-/
import KvmGuestDrivers.VirtIO.Ring

namespace KvmGuestDrivers.VirtIO

set_option autoImplicit false

open Theory Function

def vringDescFNext : BitVec 16 := 1
def vringDescFWrite : BitVec 16 := 2
def vringDescFIndirect : BitVec 16 := 4

/-- `1 << VRING_PACKED_DESC_F_AVAIL`. -/
def packedDescFAvail : BitVec 16 := 1#16 <<< 7
/-- `1 << VRING_PACKED_DESC_F_USED`. -/
def packedDescFUsed : BitVec 16 := 1#16 <<< 15

def packedEventFlagDisable : Nat := 1
def packedEventFlagDesc : Nat := 2

structure VringPackedDesc where
  addr : Nat
  len : Nat
  id : Nat
  flags : BitVec 16

def sizeofVringPackedDesc : Nat := 16

namespace VringPackedDesc

variable (d : VringPackedDesc)

def has (flag : BitVec 16) : Bool := d.flags &&& flag != 0

def avail : Bool := d.has packedDescFAvail

def used : Bool := d.has packedDescFUsed

end VringPackedDesc

structure DescStatePacked (α : Type) where
  data : Option α
  num : Nat
  next : Nat
  last : Nat

/-- `struct virtqueue_packed` together with the ring memory.  `deviceOffWrap` and
`deviceFlags` are the device's event suppression area, `driverOffWrap` the word of
the driver's area that `get_buf` writes. -/
structure VirtqueuePacked (α : Type) where
  num : Nat
  desc : Nat → VringPackedDesc
  driverOffWrap : Nat
  deviceOffWrap : Nat
  deviceFlags : Nat
  numAdded : Nat
  freeHead : Nat
  numFree : Nat
  lastUsedIdx : Nat
  availUsedFlags : BitVec 16
  availWrapCounter : Bool
  usedWrapCounter : Bool
  nextAvailIdx : Nat
  eventFlagsShadow : Nat
  descState : Nat → DescStatePacked α
  indirectTable : Nat → Nat → VringPackedDesc

variable {α : Type}

variable (vq : VirtqueuePacked α)

def VirtqueuePacked.next (i : Nat) : Nat := (vq.descState i).next

/-- `avail_used_flags ^= 1 << AVAIL | 1 << USED`. -/
def flipAvailUsed (flags : BitVec 16) : BitVec 16 :=
  flags ^^^ (packedDescFAvail ||| packedDescFUsed)

/-! ## Adding buffers -/

variable (sg : Nat → Scatterlist)

/-- One turn of the loop that fills the indirect table; the ids of its entries are
left alone. -/
def fillIndirectPacked (outNum i : Nat) (table : Nat → VringPackedDesc) : Nat → VringPackedDesc :=
  update table i
    { table i with
      flags := if i < outNum then 0 else vringDescFWrite
      addr := (sg i).physAddr
      len := (sg i).length }

/-- The variables of the loop over the descriptors of a direct chain. -/
structure AddCursor where
  desc : Nat → VringPackedDesc
  i : Nat
  curr : Nat
  prev : Nat
  availUsedFlags : BitVec 16
  headFlags : BitVec 16

/-- One turn of that loop.  The flags of the first descriptor are held back in
`head_flags`. -/
def addDesc (outNum descsUsed id n : Nat) (c : AddCursor) : AddCursor :=
  let flags := c.availUsedFlags ||| (if n < outNum then 0 else vringDescFWrite) |||
    (if n = descsUsed - 1 then 0 else vringDescFNext)
  let i := (c.i + 1) % 2 ^ 16
  { desc := update c.desc c.i
      { addr := (sg n).physAddr
        len := (sg n).length
        id := id
        flags := if n = 0 then (c.desc c.i).flags else flags }
    headFlags := if n = 0 then flags else c.headFlags
    prev := c.curr
    curr := vq.next c.curr
    i := if vq.num ≤ i then 0 else i
    availUsedFlags := if vq.num ≤ i then flipAvailUsed c.availUsedFlags else c.availUsedFlags }

def setState (descState : Nat → DescStatePacked α) (id num : Nat) (data : Option α) (last : Nat) :
    Nat → DescStatePacked α :=
  update descState id { descState id with num := num, data := data, last := last }

def virtqueueAddBufPacked (outNum inNum : Nat) (data : Option α) (indirect : Option Nat) :
    Except Fault (Int × VirtqueuePacked α) :=
  let descsUsed := (outNum + inNum) % 2 ^ 32
  let head := vq.nextAvailIdx
  let id := vq.freeHead % 2 ^ 16
  if descsUsed = 0 then .error .bugCheck
  else if vq.num ≤ id then .error .bugCheck
  else
    match indirect with
    | some pa =>
      if 0 < vq.numFree then
        match forU16 descsUsed (fillIndirectPacked sg outNum) (vq.indirectTable pa) with
        | none => .error .hang
        | some table => .ok (vqAddBufferSuccess, indirectPath descsUsed head id pa table)
      else .ok (directPath descsUsed head id)
    | none => .ok (directPath descsUsed head id)
where
  indirectPath (descsUsed head id pa : Nat) (table : Nat → VringPackedDesc) : VirtqueuePacked α :=
    let next := (head + 1) % 2 ^ 16
    { vq with
      indirectTable := update vq.indirectTable pa table
      desc := update vq.desc head
        { addr := pa
          len := descsUsed * sizeofVringPackedDesc % 2 ^ 32
          id := id
          flags := vringDescFIndirect ||| vq.availUsedFlags }
      availWrapCounter := if vq.num ≤ next then !vq.availWrapCounter else vq.availWrapCounter
      availUsedFlags := if vq.num ≤ next then flipAvailUsed vq.availUsedFlags
        else vq.availUsedFlags
      nextAvailIdx := if vq.num ≤ next then 0 else next
      numFree := (vq.numFree + (2 ^ 32 - 1)) % 2 ^ 32
      numAdded := (vq.numAdded + 1) % 2 ^ 32
      freeHead := vq.next id
      descState := setState vq.descState id 1 data id }
  directPath (descsUsed head id : Nat) : Int × VirtqueuePacked α :=
    if vq.numFree < descsUsed then (-enospc, vq)
    else
      let c := iterFrom (addDesc vq sg outNum descsUsed id) descsUsed 0
        ⟨vq.desc, head, id, id, vq.availUsedFlags, 0⟩
      (vqAddBufferSuccess, { vq with
        desc := update c.desc head { c.desc head with flags := c.headFlags }
        availUsedFlags := c.availUsedFlags
        availWrapCounter := if c.i < head then !vq.availWrapCounter else vq.availWrapCounter
        numFree := (vq.numFree + (2 ^ 32 - descsUsed)) % 2 ^ 32
        nextAvailIdx := c.i
        freeHead := c.curr
        descState := setState vq.descState id (descsUsed % 2 ^ 16) data c.prev
        numAdded := (vq.numAdded + descsUsed) % 2 ^ 32 })

/-! ## Taking buffers back -/

/-- `detach_buf_packed`: the ids of the buffer go back in front of the free list. -/
def detachBufPacked (id : Nat) : VirtqueuePacked α :=
  let descState := update vq.descState id { vq.descState id with data := none }
  let last := (descState id).last
  { vq with
    descState := update descState last
      { descState last with next := vq.freeHead % 2 ^ 16 }
    freeHead := id
    numFree := (vq.numFree + (descState id).num) % 2 ^ 32 }

/-- The search of `virtqueue_detach_unused_buf_packed`: the first id with a token. -/
def firstToken : Option Nat :=
  (List.range vq.num).find? fun i => (vq.descState i).data.isSome

def virtqueueDetachUnusedBufPacked : Except Fault (VirtqueuePacked α × Option α) :=
  match firstToken vq with
  | some i => .ok (detachBufPacked vq i, (vq.descState i).data)
  | none => if vq.numFree ≠ vq.num then .error .bugCheck else .ok (vq, none)

def isUsedDescPacked (idx : Nat) (usedWrapCounter : Bool) : Bool :=
  let avail := (vq.desc idx).avail
  let used := (vq.desc idx).used
  avail == used && used == usedWrapCounter

def moreUsedPacked : Bool :=
  isUsedDescPacked vq vq.lastUsedIdx vq.usedWrapCounter

/-- The end of `virtqueue_get_buf_packed`: step over the descriptors of the buffer
and, when an interrupt is wanted for the next one, tell the device so. -/
def advanceLastUsedIdx (num : Nat) : VirtqueuePacked α :=
  let next := (vq.lastUsedIdx + num) % 2 ^ 16
  let lastUsedIdx := if vq.num ≤ next then (next + (2 ^ 16 - vq.num % 2 ^ 16)) % 2 ^ 16 else next
  let usedWrapCounter := if vq.num ≤ next then !vq.usedWrapCounter else vq.usedWrapCounter
  { vq with
    lastUsedIdx
    usedWrapCounter
    driverOffWrap := if vq.eventFlagsShadow = packedEventFlagDesc then
        lastUsedIdx ||| (usedWrapCounter.toNat <<< 15)
      else vq.driverOffWrap }

/-- `virtqueue_get_buf_packed`: the queue, and the token and length of the buffer
returned, or `none` when there is none. -/
def virtqueueGetBufPacked : Except Fault (VirtqueuePacked α × Option (Option α × Nat)) :=
  if !moreUsedPacked vq then .ok (vq, none)
  else
    let id := (vq.desc vq.lastUsedIdx).id
    let len := (vq.desc vq.lastUsedIdx).len
    if vq.num ≤ id then .error .bugCheck
    else
      match (vq.descState id).data with
      | none => .error .bugCheck
      | some data =>
        let vq := detachBufPacked vq id
        .ok (advanceLastUsedIdx vq (vq.descState id).num, some (some data, len))

def virtqueueHasBufPacked : Bool := moreUsedPacked vq

/-! ## Notifications -/

def virtqueueKickPreparePacked : Bool × VirtqueuePacked α :=
  let old := (((vq.nextAvailIdx : Int) - vq.numAdded) % 2 ^ 16).toNat
  let new := vq.nextAvailIdx
  let flags := vq.deviceFlags
  let needsKick :=
    if flags ≠ packedEventFlagDesc then decide (flags ≠ packedEventFlagDisable)
    else
      let wrapCounter := vq.deviceOffWrap >>> 15
      let eventIdx := vq.deviceOffWrap % 2 ^ 15
      let eventIdx := if wrapCounter ≠ vq.availWrapCounter.toNat then
          (eventIdx + (2 ^ 16 - vq.num % 2 ^ 16)) % 2 ^ 16
        else eventIdx
      vringNeedEvent eventIdx new old
  (needsKick, { vq with numAdded := 0 })

def virtqueueKickAlwaysPacked : VirtqueuePacked α :=
  { vq with numAdded := 0 }

/-! ## Creation -/

def linkState (i : Nat) (descState : Nat → DescStatePacked α) : Nat → DescStatePacked α :=
  update descState i { descState i with next := (i + 1) % 2 ^ 16 }

def vringNewVirtqueuePacked (α : Type) (num : Nat) : VirtqueuePacked α where
  num := num
  desc := fun _ => ⟨0, 0, 0, 0⟩
  driverOffWrap := 0
  deviceOffWrap := 0
  deviceFlags := 0
  numAdded := 0
  freeHead := 0
  numFree := num
  lastUsedIdx := 0
  availUsedFlags := packedDescFAvail
  availWrapCounter := true
  usedWrapCounter := true
  nextAvailIdx := 0
  eventFlagsShadow := 0
  descState := iterFrom linkState ((num + (2 ^ 32 - 1)) % 2 ^ 32) 0 fun _ => ⟨none, 0, 0, 0⟩
  indirectTable := fun _ _ => ⟨0, 0, 0, 0⟩

/-! ## The device's side -/

/-- A used descriptor's flags: `AVAIL` and `USED` both show the device's lap, the
other bits are the device's own (`extra`). -/
def usedFlags (wrap : Bool) (extra : BitVec 16) : BitVec 16 :=
  (extra &&& ~~~(packedDescFAvail ||| packedDescFUsed)) |||
    (if wrap then packedDescFAvail ||| packedDescFUsed else 0)

/-- The device writes a used descriptor at `pos`. -/
def writeUsed (pos : Nat) (wrap : Bool) (id len : Nat) (extra : BitVec 16) : VirtqueuePacked α :=
  { vq with
    desc := update vq.desc pos
      { vq.desc pos with id := id, len := len, flags := usedFlags wrap extra } }

/-- Moving on by `n` descriptors: the position, and the lap bit, which flips at the
end of the ring. -/
def advance (num pos : Nat) (wrap : Bool) (n : Nat) : Nat × Bool :=
  if num ≤ pos + n then (pos + n - num, !wrap) else (pos + n, wrap)

end KvmGuestDrivers.VirtIO

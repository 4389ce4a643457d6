/-
# VioMem.Bitmap -- the bitmap of plugged memory

The driver of the memory device keeps a bitmap with one bit for each block of the region.
`VirtioMemAddPhysicalMemory` looks for clear bits, asks the device to plug the blocks, gives them to
the system and sets the bits; `VirtioMemRemovePhysicalMemory` takes blocks that are in use from the
system, asks the device to unplug them, range by range, and clears the bits.
-/
import KvmGuestDrivers.Theory.Extent
import KvmGuestDrivers.Theory.Transition

namespace KvmGuestDrivers.VioMem

set_option autoImplicit false

open Theory List

def pageSize : Nat := 4096

/-! ## The region -/

/-- The memory region of the device, in whole pages.  `blocks` is the size of the bitmap. -/
structure MemRegion where
  firstPage : Nat
  pagesPerBlock : Nat
  blocks : Nat
  filled : 0 < pagesPerBlock
  few : blocks < 2 ^ 32
  low : (firstPage + blocks * pagesPerBlock) * pageSize < 2 ^ 63

structure PhysicalMemoryRange where
  baseAddress : Nat
  numberOfBytes : Nat

structure Mdl where
  pages : List Nat

namespace MemRegion

variable (r : MemRegion)

def addr : Nat := r.firstPage * pageSize

def blockSize : Nat := r.pagesPerBlock * pageSize

def rangeOf (start n : Nat) : PhysicalMemoryRange := ⟨r.addr + start * r.blockSize, n * r.blockSize⟩

def blockAt (address : Nat) : Nat := (address - r.addr) / r.blockSize

def mdlOf (blocks : List Nat) : Mdl := ⟨spread r.firstPage r.pagesPerBlock blocks⟩

theorem blockSize_pos : 0 < r.blockSize := Nat.mul_pos r.filled (by decide)

theorem blockAt_rangeOf (start n : Nat) : r.blockAt (r.rangeOf start n).baseAddress = start := by
  show (r.addr + start * r.blockSize - r.addr) / r.blockSize = start
  rw [Nat.add_sub_cancel_left, Nat.mul_div_cancel _ r.blockSize_pos]

theorem bytes_rangeOf (start n : Nat) : (r.rangeOf start n).numberOfBytes / r.blockSize = n :=
  Nat.mul_div_cancel n r.blockSize_pos

end MemRegion

/-! ## Requests to the device -/

/-- `VIRTIO_MEM_RESP_ACK`, the value that `MemoryResponse` is cleared to. -/
def respAck : Nat := 0

/-- What becomes of a request: the device handles it and answers, or it answers only after the
driver has gone on, because `hostAcknowledge` was still set, or `virtqueue_add_buf` fails. -/
inductive HostAnswer where
  | response (type : Nat)
  | stale (type : Nat)
  | notAdded

def HostAnswer.acked : HostAnswer → Bool
  | .response type => type == respAck
  | .stale type => type == respAck
  | .notAdded => false

-- without a response the cleared `MemoryResponse` is read; a request that was not added is waited
-- for all the same
def sendPlugRequest : HostAnswer → Bool
  | .response type => type == respAck
  | .stale _ => true
  | .notAdded => true

def sendUnPlugRequest : HostAnswer → Bool
  | .response type => type == respAck
  | .stale _ => true
  | .notAdded => false

variable (r : MemRegion)

/-- The number of blocks of a range as a `__virtio16`. -/
def requestBlocks (range : PhysicalMemoryRange) : Nat :=
  range.numberOfBytes / r.blockSize % 2 ^ 16

/-! ## The bitmap -/

def mark (f : Nat → Bool) (start n : Nat) (v : Bool) (i : Nat) : Bool :=
  if start ≤ i ∧ i < start + n then v else f i

variable (bits : List Bool)

/-- `RtlSetBits` and `RtlClearBits`. -/
def writeBits (start n : Nat) (v : Bool) : List Bool :=
  bits.mapIdx fun i b => if start ≤ i ∧ i < start + n then v else b

inductive MemFault where
  | divideByZero

/-- The first bit and the number of bits of a range.  The block size is cut to a `ULONG`. -/
def rangeBits (range : PhysicalMemoryRange) : Except MemFault (Nat × Nat) :=
  let size := r.blockSize % 2 ^ 32
  if size = 0 then .error .divideByZero
  else .ok ((range.baseAddress - r.addr) / size % 2 ^ 32, range.numberOfBytes / size % 2 ^ 32)

def allocateMemoryRangeInMemoryBitmap (range : PhysicalMemoryRange) (bits : List Bool) :
    Except MemFault (List Bool) :=
  (rangeBits r range).map fun (start, n) => writeBits bits start n true

def deallocateMemoryRangeInMemoryBitmap (range : PhysicalMemoryRange) (bits : List Bool) :
    Except MemFault (List Bool) :=
  (rangeBits r range).map fun (start, n) => writeBits bits start n false

structure BitRun where
  start : Nat
  length : Nat

/-- The loop of `RtlFindLongestRunSet` from bit `i` on.  `current` is not cleared at a clear bit. -/
def setRunLoop : List Bool → Nat → Nat → BitRun → BitRun
  | [], i, current, longest =>
    if longest.length < current then ⟨i - current, current⟩ else longest
  | b :: bits, i, current, longest =>
    if b then setRunLoop bits (i + 1) (current + 1) longest
    else setRunLoop bits (i + 1) current
      (if longest.length < current then ⟨i - current, current⟩ else longest)

def rtlFindLongestRunSet : BitRun := setRunLoop bits 0 0 ⟨0, 0⟩

variable (run : BitRun)

/-- The range of a run, cut to the number of blocks wanted. -/
def rangeOfRun (lessOrEqual : Nat) : Option PhysicalMemoryRange :=
  if run.length = 0 then none else some (r.rangeOf run.start (min run.length lessOrEqual))

def findAllocatedMemoryRangeInBitmap (bits : List Bool) (lessOrEqual : Nat) :
    Option PhysicalMemoryRange :=
  rangeOfRun r (rtlFindLongestRunSet bits) lessOrEqual

/-- `longestRunClear` is what `RtlFindLongestRunClear` returns. -/
def findFreeMemoryRangeInBitmap (longestRunClear : BitRun) (lessOrEqual : Nat) :
    Option PhysicalMemoryRange :=
  rangeOfRun r longestRunClear lessOrEqual

/-! ## Ranges of an MDL -/

def Mdl.byteCount (mdl : Mdl) : Nat := mdl.pages.length * pageSize % 2 ^ 32

/-- The ranges of consecutive pages; `FindConsecutivePagesCountMDL` counts up from each first page.
-/
def getMemoryRangesFromMdl (mdl : Mdl) : List PhysicalMemoryRange :=
  let pagesToScan := mdl.byteCount / pageSize
  (runs pagesToScan (mdl.pages.take pagesToScan)).map fun e =>
    ⟨e.offset * pageSize, e.size * pageSize⟩

def getMemoryRangesCountFromMdl (mdl : Mdl) : Nat := (getMemoryRangesFromMdl mdl).length

/-! ## The calls -/

/-- The bitmap of the driver, and the blocks that the device has plugged and that the system
uses. -/
structure MemState where
  bitmap : List Bool
  plugged : Nat → Bool
  inSystem : Nat → Bool

variable (s : MemState)

namespace MemState

/-- After `ViomemInit`, with everything unplugged. -/
def start : MemState :=
  ⟨List.replicate r.blocks false, fun _ => false, fun _ => false⟩

/-- The device plugs or unplugs the blocks of a request that it acknowledges. -/
def handle (r : MemRegion) (range : PhysicalMemoryRange) (answer : HostAnswer)
    (v : Bool) : MemState :=
  if answer.acked then
    { s with plugged := mark s.plugged (r.blockAt range.baseAddress) (requestBlocks r range) v }
  else s

/-- `MmAddPhysicalMemory` succeeds. -/
def mmAdd (r : MemRegion) (range : PhysicalMemoryRange) : MemState :=
  let n := range.numberOfBytes / r.blockSize
  { s with inSystem := mark s.inSystem (r.blockAt range.baseAddress) n true }

/-- `MmAllocateNodePagesForMdlEx` takes these blocks from the system. -/
def mmRemove (blocks : List Nat) : MemState :=
  { s with inSystem := fun i => s.inSystem i && !blocks.contains i }

end MemState

def wantedBlocks (larger smaller : UInt64) : Nat :=
  (larger - smaller).toNat / r.blockSize % 2 ^ 32

/-- A call of `VirtioMemAddPhysicalMemory`, with the results of what it calls. -/
structure AddCall where
  requestedSize : UInt64
  pluggedSize : UInt64
  longestRunClear : BitRun
  answer : HostAnswer
  mmAdded : Bool

/-- A call of `VirtioMemRemovePhysicalMemory`.  `removed` has the blocks of the MDL, if there is
one, and `answers` for each range what becomes of the request and, if it is needed, of
`MmAddPhysicalMemory`. -/
structure RemoveCall where
  requestedSize : UInt64
  pluggedSize : UInt64
  removed : Option (List Nat)
  allocated : Bool
  answers : Nat → HostAnswer × Bool

def AddCall.range (call : AddCall) (r : MemRegion) : Option PhysicalMemoryRange :=
  findFreeMemoryRangeInBitmap r call.longestRunClear
    (wantedBlocks r call.requestedSize call.pluggedSize)

def RemoveCall.range (call : RemoveCall) (r : MemRegion) (bits : List Bool) :
    Option PhysicalMemoryRange :=
  findAllocatedMemoryRangeInBitmap r bits (wantedBlocks r call.pluggedSize call.requestedSize)

/-- `VirtioMemAddPhysicalMemory`, with the answers of the device and the system as inputs; the
device changes the blocks that it acknowledges. -/
def virtioMemAddPhysicalMemory (call : AddCall) :
    Except MemFault (MemState × Bool) :=
  match call.range r with
  | none => .ok (s, false)
  | some range =>
    let s := s.handle r range call.answer true
    if !sendPlugRequest call.answer then .ok (s, false)
    else if !call.mmAdded then .ok (s, false)
    else (allocateMemoryRangeInMemoryBitmap r range s.bitmap).map fun bits =>
      ({ s.mmAdd r range with bitmap := bits }, true)

/-- One turn of the loop of `VirtioMemRemovePhysicalMemory`. -/
def unplugRange (range : PhysicalMemoryRange) (answer : HostAnswer × Bool) :
    Except MemFault MemState :=
  let s := s.handle r range answer.1 false
  if sendUnPlugRequest answer.1 then
    (deallocateMemoryRangeInMemoryBitmap r range s.bitmap).map fun bits => { s with bitmap := bits }
  else .ok (if answer.2 then s.mmAdd r range else s)

def unplugRanges (r : MemRegion) : MemState → List PhysicalMemoryRange →
    (Nat → HostAnswer × Bool) → Except MemFault MemState
  | s, [], _ => .ok s
  | s, range :: ranges, answers =>
    match unplugRange r s range (answers 0) with
    | .error e => .error e
    | .ok s => unplugRanges r s ranges fun i => answers (i + 1)

def virtioMemRemovePhysicalMemory (call : RemoveCall) :
    Except MemFault (MemState × Bool) :=
  match call.range r s.bitmap, call.removed with
  | none, _ => .ok (s, false)
  | some _, none => .ok (s, true)
  | some _, some blocks =>
    let s := s.mmRemove blocks
    if getMemoryRangesCountFromMdl (r.mdlOf blocks) = 0 then .ok (s, false)
    else if !call.allocated then .ok (s, false)
    else (unplugRanges r s (getMemoryRangesFromMdl (r.mdlOf blocks)) call.answers).map (·, true)

inductive MemOp where
  | add (call : AddCall)
  | remove (call : RemoveCall)

def memStep : MemOp → Except MemFault (MemState × Bool)
  | .add call => virtioMemAddPhysicalMemory r s call
  | .remove call => virtioMemRemovePhysicalMemory r s call

/-! ## What the system guarantees, and when the bitmap is right -/

def ClearRun : Prop :=
  ∀ i < run.length, bits[run.start + i]? = some false

/-- The blocks of an MDL are different ones of the system in the range, and their bytes are counted
by a `ULONG`. -/
def MdlFits (range : PhysicalMemoryRange) (blocks : List Nat) : Prop :=
  blocks.Nodup ∧ blocks.length * r.pagesPerBlock * pageSize < 2 ^ 32 ∧
    ∀ b ∈ blocks, s.inSystem b = true ∧ range.baseAddress ≤ r.addr + b * r.blockSize ∧
      r.addr + (b + 1) * r.blockSize ≤ range.baseAddress + range.numberOfBytes

/-- What the functions of the system guarantee. -/
def MemContract : MemOp → Prop
  | .add call => ClearRun s.bitmap call.longestRunClear
  | .remove call =>
    ∀ range ∈ call.range r s.bitmap, ∀ blocks ∈ call.removed, MdlFits r s range blocks

/-- The number of blocks fits the request, the return value says what the device did, and plugged
blocks are taken by the system. -/
def AnswersRegular : MemOp → Prop
  | .add call =>
    (∀ range ∈ call.range r, range.numberOfBytes / r.blockSize < 2 ^ 16) ∧
      sendPlugRequest call.answer = call.answer.acked ∧
      (call.answer.acked = true → call.mmAdded = true)
  | .remove call =>
    ∀ blocks ∈ call.removed,
      (∀ range ∈ getMemoryRangesFromMdl (r.mdlOf blocks),
        range.numberOfBytes / r.blockSize < 2 ^ 16) ∧
      ∀ i < getMemoryRangesCountFromMdl (r.mdlOf blocks),
        sendUnPlugRequest (call.answers i).1 = (call.answers i).1.acked

structure MemRegular (r : MemRegion) (s : MemState) (op : MemOp) : Prop where
  narrow : r.blockSize < 2 ^ 32
  contract : MemContract r s op
  answers : AnswersRegular r op

instance : Decidable (ClearRun bits run) :=
  inferInstanceAs (Decidable (∀ i < run.length, bits[run.start + i]? = some false))

instance (range : PhysicalMemoryRange) (blocks : List Nat) :
    Decidable (MdlFits r s range blocks) :=
  inferInstanceAs (Decidable (_ ∧ _ ∧ ∀ b ∈ blocks, _))

instance : (op : MemOp) → Decidable (MemContract r s op)
  | .add call => inferInstanceAs (Decidable (ClearRun s.bitmap call.longestRunClear))
  | .remove call =>
    inferInstanceAs (Decidable (∀ range ∈ call.range r s.bitmap, ∀ blocks ∈ call.removed, _))

instance : (op : MemOp) → Decidable (AnswersRegular r op)
  | .add call => inferInstanceAs (Decidable ((∀ range ∈ call.range r, _) ∧ _ ∧ _))
  | .remove call => inferInstanceAs (Decidable (∀ blocks ∈ call.removed, _))

instance (op : MemOp) : Decidable (MemRegular r s op) :=
  decidable_of_iff (r.blockSize < 2 ^ 32 ∧ MemContract r s op ∧ AnswersRegular r op)
    ⟨fun h => ⟨h.1, h.2.1, h.2.2⟩, fun h => ⟨h.narrow, h.contract, h.answers⟩⟩

/-- Bit `i` is set exactly when block `i` is plugged, and the system has plugged blocks only. -/
structure BitmapTrue : Prop where
  bits : ∀ i, s.bitmap[i]? = some true ↔ s.plugged i = true
  system : ∀ i, s.inSystem i = true → s.plugged i = true

structure MemInv (r : MemRegion) (s : MemState) : Prop extends BitmapTrue s where
  size : s.bitmap.length = r.blocks

/-! ## Whole blocks -/

variable {start n i : Nat} {f : Nat → Bool} {v : Bool}

section Blocks

variable {r}

/-- The page scan of an MDL finds runs of whole blocks. -/
theorem getMemoryRangesFromMdl_mdlOf {blocks : List Nat}
    (short : blocks.length * r.pagesPerBlock * pageSize < 2 ^ 32) :
    getMemoryRangesFromMdl (r.mdlOf blocks) =
      (runs blocks.length blocks).map fun e => r.rangeOf e.offset e.size := by
  have count : (r.mdlOf blocks).byteCount / pageSize = blocks.length * r.pagesPerBlock := by
    show (spread _ _ blocks).length * pageSize % 2 ^ 32 / pageSize = _
    rw [length_spread, Nat.mod_eq_of_lt short, Nat.mul_div_cancel _ (by decide)]
  have all : (r.mdlOf blocks).pages.take (blocks.length * r.pagesPerBlock) =
      spread r.firstPage r.pagesPerBlock blocks :=
    take_of_length_le (le_of_eq (length_spread blocks))
  unfold getMemoryRangesFromMdl
  simp only [count, all]
  rw [runs_spread r.filled (Nat.le_refl blocks.length) le_rfl, map_map]
  refine map_congr_left fun e _ => ?_
  show PhysicalMemoryRange.mk ((r.firstPage + e.offset * r.pagesPerBlock) * pageSize)
    (e.size * r.pagesPerBlock * pageSize) = ⟨r.addr + e.offset * r.blockSize, e.size * r.blockSize⟩
  rw [Nat.add_mul, Nat.mul_assoc, Nat.mul_assoc]
  rfl

theorem rangeBits_rangeOf (narrow : r.blockSize < 2 ^ 32) (low : start < 2 ^ 32)
    (few : n < 2 ^ 32) : rangeBits r (r.rangeOf start n) = .ok (start, n) := by
  have first : ((r.rangeOf start n).baseAddress - r.addr) / r.blockSize = start :=
    r.blockAt_rangeOf start n
  have count : (r.rangeOf start n).numberOfBytes / r.blockSize = n := r.bytes_rangeOf start n
  unfold rangeBits
  simp only [Nat.mod_eq_of_lt narrow, if_neg (Nat.ne_of_gt r.blockSize_pos), first, count,
    Nat.mod_eq_of_lt low, Nat.mod_eq_of_lt few]

theorem requestBlocks_rangeOf (short : n < 2 ^ 16) : requestBlocks r (r.rangeOf start n) = n := by
  unfold requestBlocks
  rw [r.bytes_rangeOf, Nat.mod_eq_of_lt short]

theorem handle_rangeOf (answer : HostAnswer) (v : Bool) (short : n < 2 ^ 16) :
    s.handle r (r.rangeOf start n) answer v =
      if answer.acked then { s with plugged := mark s.plugged start n v } else s := by
  unfold MemState.handle
  rw [r.blockAt_rangeOf, requestBlocks_rangeOf short]

theorem mmAdd_rangeOf : s.mmAdd r (r.rangeOf start n) =
    { s with inSystem := mark s.inSystem start n true } := by
  unfold MemState.mmAdd
  rw [r.blockAt_rangeOf, r.bytes_rangeOf]

end Blocks

/-! ## The bitmap after a call -/

theorem mark_true : mark f start n v i = true ↔
      (start ≤ i ∧ i < start + n) ∧ v = true ∨ ¬ (start ≤ i ∧ i < start + n) ∧ f i = true := by
  unfold mark
  split
  · rename_i inside
    simp only [inside, true_and, not_true_eq_false, false_and, or_false]
  · rename_i outside
    simp only [outside, false_and, not_false_eq_true, true_and, false_or]

theorem writeBits_true {bits : List Bool} (same : ∀ i, bits[i]? = some true ↔ f i = true)
    (inside : v = true → ∀ i, start ≤ i → i < start + n → i < bits.length) (i : Nat) :
    (writeBits bits start n v)[i]? = some true ↔ mark f start n v i = true := by
  rw [mark_true, writeBits, getElem?_mapIdx, Option.map_eq_some_iff]
  by_cases inRange : start ≤ i ∧ i < start + n
  · simp only [inRange, true_and, not_true_eq_false, false_and, or_false]
    constructor
    · rintro ⟨_, _, set⟩
      exact set
    · intro set
      exact ⟨_, getElem?_eq_getElem (inside set i inRange.1 inRange.2), set⟩
  · simp only [inRange, false_and, not_false_eq_true, true_and, false_or]
    rw [← same i]
    constructor
    · rintro ⟨_, here, rfl⟩
      exact here
    · intro here
      exact ⟨true, here, rfl⟩

theorem length_writeBits (start n : Nat) (v : Bool) :
    (writeBits bits start n v).length = bits.length := length_mapIdx

section Calls

variable {r} {s : MemState}

section

variable (inv : MemInv r s)

include inv

theorem MemInv.plugged_lt (on : s.plugged i = true) : i < r.blocks := by
  obtain ⟨low, _⟩ := List.getElem?_eq_some_iff.mp ((inv.bits i).mpr on)
  exact inv.size ▸ low

/-- Blocks of clear bits are plugged, given to the system and their bits set. -/
theorem MemInv.plug (clear : ∀ i < n, s.bitmap[start + i]? = some false) :
    MemInv r ⟨writeBits s.bitmap start n true, mark s.plugged start n true,
      mark s.inSystem start n true⟩ := by
  refine ⟨⟨?_, ?_⟩, ?_⟩
  · refine writeBits_true inv.bits fun _ i starts upTo => ?_
    have here := clear (i - start) (by omega)
    rw [Nat.add_sub_cancel' starts] at here
    exact (List.getElem?_eq_some_iff.mp here).1
  · intro i has
    rcases mark_true.mp has with ⟨inside, _⟩ | ⟨outside, had⟩
    · exact mark_true.mpr (.inl ⟨inside, rfl⟩)
    · exact mark_true.mpr (.inr ⟨outside, inv.system i had⟩)
  · rw [length_writeBits]
    exact inv.size

/-- Blocks that the system does not have are unplugged and their bits cleared. -/
theorem MemInv.unplug (gone : ∀ i, start ≤ i → i < start + n → s.inSystem i = false) :
    MemInv r ⟨writeBits s.bitmap start n false, mark s.plugged start n false, s.inSystem⟩ := by
  refine ⟨⟨writeBits_true inv.bits fun off => absurd off Bool.false_ne_true, ?_⟩, ?_⟩
  · intro i has
    refine mark_true.mpr (.inr ⟨fun inside => ?_, inv.system i has⟩)
    exact Bool.false_ne_true ((gone i inside.1 inside.2).symm.trans has)
  · rw [length_writeBits]
    exact inv.size

theorem MemInv.giveBack (on : ∀ i, start ≤ i → i < start + n → s.plugged i = true) :
    MemInv r { s with inSystem := mark s.inSystem start n true } := by
  refine ⟨⟨inv.bits, fun i has => ?_⟩, inv.size⟩
  rcases mark_true.mp has with ⟨inside, _⟩ | ⟨_, had⟩
  · exact on i inside.1 inside.2
  · exact inv.system i had

theorem MemInv.mmRemove (blocks : List Nat) : MemInv r (s.mmRemove blocks) :=
  ⟨⟨inv.bits, fun i has => inv.system i (Bool.and_eq_true_iff.mp has).1⟩, inv.size⟩

/-- Adding memory keeps the bitmap and the blocks of the device in step. -/
theorem MemInv.add {call : AddCall} (regular : MemRegular r s (.add call)) :
    ∃ t out, virtioMemAddPhysicalMemory r s call = .ok (t, out) ∧ MemInv r t := by
  obtain ⟨short, honest, taken⟩ := regular.answers
  have clear : ClearRun s.bitmap call.longestRunClear := regular.contract
  unfold virtioMemAddPhysicalMemory
  cases found : call.range r with
  | none => exact ⟨s, false, rfl, inv⟩
  | some range =>
    have fits := short range found
    unfold AddCall.range findFreeMemoryRangeInBitmap rangeOfRun at found
    split at found
    · cases found
    rename_i nonzero
    cases found
    rw [r.bytes_rangeOf] at fits
    have first := clear 0 (Nat.pos_of_ne_zero nonzero)
    have low : call.longestRunClear.start < 2 ^ 32 := by
      have below := (List.getElem?_eq_some_iff.mp first).1
      have few := r.few
      rw [inv.size] at below
      omega
    simp only [handle_rangeOf s call.answer true fits, honest]
    cases acked : call.answer.acked with
    | false => exact ⟨s, false, rfl, inv⟩
    | true =>
      simp only [taken acked]
      unfold allocateMemoryRangeInMemoryBitmap
      rw [rangeBits_rangeOf regular.narrow low (by omega), mmAdd_rangeOf]
      exact ⟨_, true, rfl, inv.plug fun i below => clear i (by omega)⟩

theorem MemInv.unplugRange {answer : HostAnswer × Bool}
    (narrow : r.blockSize < 2 ^ 32) (filled : 0 < n) (short : n < 2 ^ 16)
    (honest : sendUnPlugRequest answer.1 = answer.1.acked)
    (own : ∀ i, start ≤ i → i < start + n → s.inSystem i = false ∧ s.plugged i = true) :
    ∃ t, VioMem.unplugRange r s (r.rangeOf start n) answer = .ok t ∧ MemInv r t ∧
      ∀ i, ¬ (start ≤ i ∧ i < start + n) →
        t.inSystem i = s.inSystem i ∧ t.plugged i = s.plugged i := by
  have low : start < 2 ^ 32 := Nat.lt_trans (inv.plugged_lt (own start le_rfl (by omega)).2) r.few
  unfold VioMem.unplugRange
  simp only [handle_rangeOf s answer.1 false short, honest]
  cases acked : answer.1.acked with
  | true =>
    unfold deallocateMemoryRangeInMemoryBitmap
    rw [rangeBits_rangeOf narrow low (by omega)]
    refine ⟨_, rfl, inv.unplug fun i starts upTo => (own i starts upTo).1, fun i outside => ?_⟩
    exact ⟨rfl, if_neg outside⟩
  | false =>
    cases answer.2 with
    | false => exact ⟨s, rfl, inv, fun i _ => ⟨rfl, rfl⟩⟩
    | true =>
      rw [mmAdd_rangeOf]
      refine ⟨_, rfl, inv.giveBack fun i starts upTo => (own i starts upTo).2, ?_⟩
      exact fun i outside => ⟨if_neg outside, rfl⟩

end

theorem MemInv.unplugRanges (narrow : r.blockSize < 2 ^ 32) {l : List Extent} (inv : MemInv r s)
    (answers : Nat → HostAnswer × Bool) (filled : ∀ e ∈ l, 0 < e.size)
    (short : ∀ e ∈ l, e.size < 2 ^ 16)
    (honest : ∀ i < l.length, sendUnPlugRequest (answers i).1 = (answers i).1.acked)
    (apart : (units l).Nodup)
    (own : ∀ i ∈ units l, s.inSystem i = false ∧ s.plugged i = true) :
    ∃ t, VioMem.unplugRanges r s (l.map fun e => r.rangeOf e.offset e.size) answers = .ok t ∧
      MemInv r t := by
  induction l generalizing s answers with
  | nil => exact ⟨s, rfl, inv⟩
  | cons e l ih =>
    obtain ⟨_, apartLeft, off⟩ := nodup_append.mp apart
    have ownHead : ∀ i, e.offset ≤ i → i < e.offset + e.size →
        s.inSystem i = false ∧ s.plugged i = true := fun i starts upTo =>
      own i (mem_append_left _ (mem_range'_1.mpr ⟨starts, upTo⟩))
    obtain ⟨t, turned, inv', others⟩ := inv.unplugRange narrow (filled e mem_cons_self)
      (short e mem_cons_self) (honest 0 (Nat.succ_pos _)) ownHead
    have ownLeft : ∀ i ∈ units l, t.inSystem i = false ∧ t.plugged i = true := by
      intro i there
      obtain ⟨sameSystem, samePlugged⟩ :=
        others i fun inside => off i (mem_range'_1.mpr inside) i there rfl
      rw [sameSystem, samePlugged]
      exact own i (mem_append_right _ there)
    rw [map_cons, VioMem.unplugRanges, turned]
    exact ih inv' _ (fun x there => filled x (mem_cons_of_mem _ there))
      (fun x there => short x (mem_cons_of_mem _ there))
      (fun i below => honest (i + 1) (Nat.succ_lt_succ below)) apartLeft ownLeft

/-- So does removing it, whatever becomes of each range. -/
theorem MemInv.remove (inv : MemInv r s) {call : RemoveCall}
    (regular : MemRegular r s (.remove call)) :
    ∃ t out, virtioMemRemovePhysicalMemory r s call = .ok (t, out) ∧ MemInv r t := by
  unfold virtioMemRemovePhysicalMemory
  cases found : call.range r s.bitmap with
  | none => exact ⟨s, false, rfl, inv⟩
  | some range =>
    cases removed : call.removed with
    | none => exact ⟨s, true, rfl, inv⟩
    | some blocks =>
      dsimp only
      obtain ⟨different, fits, inSystem⟩ := regular.contract range found blocks removed
      obtain ⟨short, honest⟩ := regular.answers blocks removed
      unfold getMemoryRangesCountFromMdl at honest ⊢
      rw [getMemoryRangesFromMdl_mdlOf fits] at short honest ⊢
      have inv' := inv.mmRemove blocks
      split
      · exact ⟨_, false, rfl, inv'⟩
      split
      · exact ⟨_, false, rfl, inv'⟩
      have listed : units (runs blocks.length blocks) = blocks :=
        units_runs (Nat.le_refl blocks.length)
      have few : ∀ e ∈ runs blocks.length blocks, e.size < 2 ^ 16 := by
        intro e there
        have below := short _ (mem_map_of_mem there)
        rwa [r.bytes_rangeOf] at below
      have own : ∀ b ∈ blocks, (s.mmRemove blocks).inSystem b = false ∧ s.plugged b = true := by
        intro b there
        refine ⟨?_, inv.system b (inSystem b there).1⟩
        show (s.inSystem b && !blocks.contains b) = false
        rw [contains_iff_mem.mpr there]
        exact Bool.and_false _
      obtain ⟨t, ran, right⟩ := inv'.unplugRanges regular.narrow call.answers
        (runs_filled _ _) few (fun i below => honest i (by rwa [length_map]))
        (listed.symm ▸ different) (listed.symm ▸ own)
      rw [ran]
      exact ⟨t, true, rfl, right⟩

end Calls

/-- **The bitmap is the truth**: after every call a bit is set exactly when its block is plugged,
and the system has plugged blocks only. -/
theorem bitmap_true (r : MemRegion) {s : MemState}
    (reach : Reachable (· = MemState.start r) (Next (memStep r) (MemRegular r)) s) :
    BitmapTrue s := by
  refine (reach.machine_invariant (P := MemInv r) ?_ ?_).toBitmapTrue
  · rintro _ rfl
    refine ⟨⟨fun i => ⟨fun on => ?_, fun on => absurd on Bool.false_ne_true⟩,
      fun i has => absurd has Bool.false_ne_true⟩, length_replicate⟩
    have off := eq_of_mem_replicate (mem_of_getElem? on)
    exact absurd off.symm Bool.false_ne_true
  · intro s op inv regular
    cases op with
    | add => exact inv.add regular
    | remove => exact inv.remove regular

def fourBlocks : MemRegion := ⟨1024, 2, 4, by decide, by decide, by decide⟩

def MemState.firstFour : List Bool × List Bool × List Bool :=
  (s.bitmap, (List.range 4).map s.plugged, (List.range 4).map s.inSystem)

/-- Four blocks are added; of the blocks 0 and 2, which the system gives up, the device takes back
the first one only. -/
theorem bitmap_true_unplugged : ∃ s : MemState, Reachable (· = MemState.start fourBlocks)
        (Next (memStep fourBlocks) (MemRegular fourBlocks)) s ∧
      s.firstFour = ([false, true, true, true], [false, true, true, true],
        [false, true, true, true]) ∧ BitmapTrue s := by
  have replay : ∃ s ∈
      attempt (memStep fourBlocks) (MemRegular fourBlocks) (MemState.start fourBlocks)
        [.add ⟨32768, 0, ⟨0, 4⟩, .response respAck, true⟩, .remove ⟨8192, 32768, some [0, 2], true,
            fun i => if i = 0 then (.response respAck, false) else (.response 1, true)⟩],
      s.firstFour = ([false, true, true, true], [false, true, true, true],
        [false, true, true, true]) := by
    decide +kernel
  obtain ⟨s, reach, seen⟩ := reachable_of_replay _ replay
  exact ⟨s, reach, seen, bitmap_true fourBlocks reach⟩

/-- The device plugs the blocks, and the system refuses them. -/
theorem plugged_bit_clear : ∃ s : MemState, Reachable (· = MemState.start fourBlocks)
        (Next (memStep fourBlocks) (MemContract fourBlocks)) s ∧
      s.plugged 0 = true ∧ s.bitmap[0]? = some false ∧ ¬ BitmapTrue s := by
  have replay : ∃ s ∈
      attempt (memStep fourBlocks) (MemContract fourBlocks) (MemState.start fourBlocks)
        [.add ⟨32768, 0, ⟨0, 4⟩, .response respAck, false⟩],
      s.plugged 0 = true ∧ s.bitmap[0]? = some false := by
    decide +kernel
  obtain ⟨s, reach, plugged, clear⟩ := reachable_of_replay _ replay
  refine ⟨s, reach, plugged, clear, fun right => ?_⟩
  have set := (right.bits 0).mpr plugged
  rw [clear] at set
  exact Bool.false_ne_true (Option.some.inj set)

/-! ## The search for set bits -/

section SetRuns

variable {bits} {current : Nat} {longest : BitRun}

def SetRun (bits : List Bool) (run : BitRun) : Prop :=
  ∀ i < run.length, bits[run.start + i]? = some true

def LongestSetRun (bits : List Bool) (run : BitRun) : Prop :=
  SetRun bits run ∧ ∀ other, SetRun bits other → other.length ≤ run.length

def oneRun (before n after : Nat) : List Bool :=
  replicate before false ++ (replicate n true ++ replicate after false)

theorem setRunLoop_clear (le : current ≤ longest.length) (n i : Nat) :
    setRunLoop (replicate n false ++ bits) i current longest =
      setRunLoop bits (i + n) current longest := by
  induction n generalizing i with
  | zero => rfl
  | succ n ih =>
    show setRunLoop (replicate n false ++ bits) (i + 1) current (if _ then _ else longest) = _
    rw [if_neg (Nat.not_lt.mpr le), ih, Nat.add_assoc, Nat.add_comm 1]

theorem setRunLoop_set (n i : Nat) : setRunLoop (replicate n true ++ bits) i current longest =
    setRunLoop bits (i + n) (current + n) longest := by
  induction n generalizing i current with
  | zero => rfl
  | succ n ih =>
    show setRunLoop (replicate n true ++ bits) (i + 1) (current + 1) longest = _
    rw [ih, Nat.add_assoc, Nat.add_assoc, Nat.add_comm 1]

theorem rtlFindLongestRunSet_oneRun (before n after : Nat) :
    rtlFindLongestRunSet (oneRun before n after) = ⟨if 0 < n then before else 0, n⟩ := by
  have taken : (if 0 < n then ⟨before + n - n, n⟩ else ⟨0, 0⟩ : BitRun) =
      ⟨if 0 < n then before else 0, n⟩ := by
    grind
  rw [rtlFindLongestRunSet, oneRun, setRunLoop_clear (Nat.zero_le 0), setRunLoop_set,
    Nat.zero_add, Nat.zero_add, ← taken]
  cases after with
  | zero => rfl
  | succ after =>
    -- the first clear bit behind the run makes it the longest one
    show setRunLoop (replicate after false) _ n (if _ then _ else _) = _
    rw [taken, ← append_nil (replicate after false), setRunLoop_clear (Nat.le_refl n)]
    exact if_neg (Nat.lt_irrefl n)

/-- The length that is returned is that of all set bits together. -/
theorem length_setRunLoop (le : longest.length ≤ current) (i : Nat) :
    (setRunLoop bits i current longest).length = current + bits.count true := by
  induction bits generalizing i current longest with
  | nil =>
    rw [setRunLoop, count_nil]
    split
    · rfl
    · omega
  | cons b bits ih =>
    rw [setRunLoop]
    split
    · rename_i set
      rw [ih (by omega), set, count_cons_self]
      omega
    · rename_i clear
      rw [ih (by split <;> grind), count_cons_of_ne (by simpa using clear)]

theorem eq_replicate_of_count {l : List Bool} (none : l.count true = 0) :
    l = replicate l.length false :=
  eq_replicate_of_mem fun _ member => Bool.eq_false_iff.mpr fun set =>
    count_eq_zero.mp none (set ▸ member)

theorem oneRun_of_setRun {run : BitRun} (set : SetRun bits run)
    (all : run.length = bits.count true) : ∃ before n after, bits = oneRun before n after := by
  have middle : (bits.drop run.start).take run.length = replicate run.length true := by
    refine ext_getElem? fun i => ?_
    rw [getElem?_take, getElem?_drop, getElem?_replicate]
    split
    · rename_i lt
      exact set i lt
    · rfl
  have parts : bits = bits.take run.start ++
      (replicate run.length true ++ bits.drop (run.start + run.length)) := by
    rw [← middle, ← drop_drop, take_append_drop, take_append_drop]
  have counts := congrArg (count true) parts
  rw [count_append, count_append, count_replicate_self] at counts
  refine ⟨(bits.take run.start).length, run.length, (bits.drop (run.start + run.length)).length, ?_⟩
  rw [oneRun, ← eq_replicate_of_count (by omega), ← eq_replicate_of_count (by omega)]
  exact parts

/-- **The search returns a longest run of set bits exactly if they lie together**, and a range that
is found then consists of set blocks. -/
theorem found_range_set (bits : List Bool) :
    (LongestSetRun bits (rtlFindLongestRunSet bits) ∧
      ∀ lessOrEqual range, findAllocatedMemoryRangeInBitmap r bits lessOrEqual = some range →
        ∃ run, SetRun bits run ∧ range = r.rangeOf run.start run.length) ↔
      ∃ before n after, bits = oneRun before n after := by
  constructor
  · rintro ⟨⟨set, -⟩, -⟩
    exact oneRun_of_setRun set
      ((length_setRunLoop (Nat.le_refl 0) 0).trans (Nat.zero_add _))
  intro together
  have longest : LongestSetRun bits (rtlFindLongestRunSet bits) := by
    obtain ⟨before, n, after, rfl⟩ := together
    have set_iff : ∀ i, (oneRun before n after)[i]? = some true ↔
        before ≤ i ∧ i < before + n := by
      grind [oneRun]
    rw [rtlFindLongestRunSet_oneRun]
    refine ⟨fun i lt => (set_iff _).mpr ?_, fun other set => ?_⟩
    · grind
    · refine Nat.not_lt.mp fun (more : n < other.length) => ?_
      have first := (set_iff _).mp (set 0 (by omega))
      have last := (set_iff _).mp (set n (by omega))
      omega
  refine ⟨longest, fun lessOrEqual range found => ?_⟩
  unfold findAllocatedMemoryRangeInBitmap rangeOfRun at found
  split at found <;> cases found
  exact ⟨⟨_, min _ lessOrEqual⟩,
    fun i lt => longest.1 i (lt_of_lt_of_le lt (Nat.min_le_left _ _)), rfl⟩

theorem found_range_set_pair :
    LongestSetRun [false, true, true] (rtlFindLongestRunSet [false, true, true]) :=
  ((found_range_set fourBlocks _).mpr ⟨1, 2, 0, rfl⟩).1

/-- The count goes on over a clear bit: two runs of one block are taken for one of two blocks, and
the range that is found is the clear block between them. -/
theorem found_range_clear :
    ¬ LongestSetRun [true, false, true] (rtlFindLongestRunSet [true, false, true]) ∧
      findAllocatedMemoryRangeInBitmap fourBlocks [true, false, true] 1 =
        some (fourBlocks.rangeOf 1 1) :=
  ⟨fun longest => absurd (longest.1 0 (by decide)) (by decide), rfl⟩

end SetRuns

end KvmGuestDrivers.VioMem

/-
# VioGpu.ShmemAllocator -- the allocator of the host visible memory window

`VioGpuShmemAllocator` hands out page aligned ranges of a window of at most 16 GiB.  It
keeps a list of free blocks, sorted by offset; allocation takes the block that wastes
least and puts back what is left in front and behind, freeing coalesces with both
neighbours.

All offsets and sizes are 64 bits wide and wrap.  A list node comes from the pool, and
every call that asks for one takes a flag that says whether the pool has one.  Each call
runs under the allocator's spin lock, so a call is one step.
-/
import KvmGuestDrivers.Theory.Extent
import KvmGuestDrivers.Theory.Transition
import KvmGuestDrivers.VirtIO.Ring

namespace KvmGuestDrivers.VioGpu

set_option autoImplicit false

open Theory VirtIO

def kMaxShmemSize : Nat := 16 * 1024 * 1024 * 1024

def add64 (a b : Nat) : Nat := (a + b) % 2 ^ 64

def sub64 (a b : Nat) : Nat := (a + (2 ^ 64 - b)) % 2 ^ 64

abbrev FreeBlock := Extent

/-! ## Alignment -/

/-- `AlignUp`; `~(alignment - 1)` is `2 ^ 64 - alignment`. -/
def alignUp (value alignment : Nat) : Nat :=
  if alignment = 0 then value
  else if alignment &&& (alignment - 1) ≠ 0 then value
  else (value + alignment - 1) % 2 ^ 64 &&& (2 ^ 64 - alignment)

def alignDown (value alignment : Nat) : Nat :=
  if alignment = 0 then value
  else if alignment &&& (alignment - 1) ≠ 0 then value
  else value &&& (2 ^ 64 - alignment)

/-! ## The allocator -/

structure VioGpuShmemAllocator where
  freeList : List FreeBlock
  total : Nat
  initialized : Bool

/-- `InsertFreeBlockLocked`: the block goes before the first one with a larger offset,
and merges with its predecessor, then with its successor. -/
def insertFreeBlockLocked (freeList : List FreeBlock) (block : FreeBlock) : List FreeBlock :=
  let before := freeList.takeWhile fun cur => !decide (block.offset < cur.offset)
  let after := freeList.dropWhile fun cur => !decide (block.offset < cur.offset)
  let (before, block) := coalescePrev before block
  before ++ coalesceNext block after
where
  coalescePrev (before : List FreeBlock) (block : FreeBlock) : List FreeBlock × FreeBlock :=
    match before.getLast? with
    | some prev =>
      if add64 prev.offset prev.size = block.offset then
        (before.dropLast, ⟨prev.offset, add64 prev.size block.size⟩)
      else (before, block)
    | none => (before, block)
  coalesceNext (block : FreeBlock) : List FreeBlock → List FreeBlock
    | next :: rest =>
      if add64 block.offset block.size = next.offset then
        ⟨block.offset, add64 block.size next.size⟩ :: rest
      else block :: next :: rest
    | [] => [block]

/-- The variables `best`, `best_waste` and `best_aligned`. -/
structure BestFit where
  block : FreeBlock
  waste : Nat
  aligned : Nat

def improves (block : FreeBlock) (waste : Nat) : Option BestFit → Bool
  | none => true
  | some best =>
    decide (waste < best.waste) ||
      (decide (waste = best.waste) && decide (block.size < best.block.size))

/-- `FindBestFitLocked`, from the current list entry on. -/
def findBestFitLocked (size alignment : Nat) : List FreeBlock → Option BestFit → Option BestFit
  | [], best => best
  | block :: rest, best =>
    let blockStart := block.offset
    let blockEnd := add64 blockStart block.size
    let aligned := alignUp blockStart alignment
    let allocEnd := add64 aligned size
    if blockEnd < blockStart then findBestFitLocked size alignment rest best
    else if aligned < blockStart then findBestFitLocked size alignment rest best
    else if allocEnd < aligned ∨ blockEnd < allocEnd then
      findBestFitLocked size alignment rest best
    else
      let waste := add64 (sub64 aligned blockStart) (sub64 blockEnd allocEnd)
      if improves block waste best then
        -- Nothing beats a perfect fit.
        if waste = 0 then some ⟨block, waste, aligned⟩
        else findBestFitLocked size alignment rest (some ⟨block, waste, aligned⟩)
      else findBestFitLocked size alignment rest best

/-- The alignment `Allocate` works with: powers of two from a page on are kept. -/
def effectiveAlignment (alignment : Nat) : Nat :=
  if alignment = 0 ∨ alignment < pageSize ∨ alignment &&& (alignment - 1) ≠ 0 then pageSize
  else alignment

namespace VioGpuShmemAllocator

def new : VioGpuShmemAllocator := ⟨[], 0, false⟩

def reset (_ : VioGpuShmemAllocator) : VioGpuShmemAllocator := ⟨[], 0, false⟩

variable (s : VioGpuShmemAllocator)

/-- `Init`; `node` says whether the pool has a list node. -/
def init (size : Nat) (node : Bool) : VioGpuShmemAllocator :=
  let clamped := if kMaxShmemSize < size then kMaxShmemSize else size
  let clamped := alignDown clamped pageSize
  let s := s.reset
  if clamped = 0 then s
  else if !node then s
  else { freeList := s.freeList ++ [⟨0, clamped⟩], total := clamped, initialized := true }

/-- `Allocate`: the allocator and the offset, or `none` for `false`. -/
def allocate (size alignment : Nat) (node : Bool) : VioGpuShmemAllocator × Option Nat :=
  if size = 0 then (s, none)
  else
    let alignment := effectiveAlignment alignment
    let size := alignUp size pageSize
    if !s.initialized ∨ s.total = 0 then (s, none)
    else
      match findBestFitLocked size alignment s.freeList none with
      | none => (s, none)
      | some ⟨block, _, aligned⟩ =>
        match splitBlock s.freeList block aligned size with
        | (freeList, false) => ({ s with freeList }, none)
        | (freeList, true) => ({ s with freeList }, some aligned)
where
  /-- Take the block off the list and put back what is left in front and behind; with both,
  a second list node is needed. -/
  splitBlock (freeList : List FreeBlock) (block : FreeBlock) (aligned size : Nat) :
      List FreeBlock × Bool :=
    let freeList := freeList.erase block
    let blockStart := block.offset
    let blockEnd := add64 blockStart block.size
    let allocEnd := add64 aligned size
    let frontSize := sub64 aligned blockStart
    let tailSize := sub64 blockEnd allocEnd
    if 0 < frontSize ∧ 0 < tailSize then
      if !node then
        (insertFreeBlockLocked freeList ⟨blockStart, sub64 blockEnd blockStart⟩, false)
      else
        let freeList := insertFreeBlockLocked freeList ⟨blockStart, frontSize⟩
        (insertFreeBlockLocked freeList ⟨allocEnd, tailSize⟩, true)
    else if 0 < frontSize then (insertFreeBlockLocked freeList ⟨blockStart, frontSize⟩, true)
    else if 0 < tailSize then (insertFreeBlockLocked freeList ⟨allocEnd, tailSize⟩, true)
    else (freeList, true)

def free (offset size : Nat) (node : Bool) : VioGpuShmemAllocator :=
  if size = 0 then s
  else if offset &&& (pageSize - 1) ≠ 0 ∨ size &&& (pageSize - 1) ≠ 0 then s
  else if !s.initialized ∨ s.total = 0 then s
  else if s.total ≤ offset ∨ s.total - offset < size then s
  else if !node then s
  else { s with freeList := insertFreeBlockLocked s.freeList ⟨offset, size⟩ }

end VioGpuShmemAllocator

/-! ## Runs -/

/-- A successful `Allocate(size, alignment)` and the offset it returned. -/
structure Allocation where
  offset : Nat
  size : Nat
  alignment : Nat

def Allocation.extent (a : Allocation) : Extent := ⟨a.offset, alignUp a.size pageSize⟩

/-- The allocator, the live allocations, and the ranges lost because `Free` got no list
node. -/
structure ShmemRun where
  heap : VioGpuShmemAllocator
  live : List Allocation
  lost : List Extent

inductive ShmemOp where
  | allocate (size alignment : Nat) (node : Bool)
  | free (k : Nat) (node : Bool)

def shmemStep (s : ShmemRun) : ShmemOp → Except Empty (ShmemRun × Option Nat)
  | .allocate size alignment node =>
    match s.heap.allocate size alignment node with
    | (heap, none) => .ok ({ s with heap }, none)
    | (heap, some offset) =>
      .ok ({ s with heap, live := ⟨offset, size, alignment⟩ :: s.live }, some offset)
  | .free k node =>
    match s.live[k]? with
    | none => .ok (s, none)
    | some a =>
      .ok ({ heap := s.heap.free a.offset (alignUp a.size pageSize) node
             live := s.live.eraseIdx k
             lost := if node then s.lost else a.extent :: s.lost }, none)

/-- Sizes up to `maxSize` are asked for, and only live allocations are freed. -/
def ShmemAllowed (maxSize : Nat) (s : ShmemRun) : ShmemOp → Prop
  | .allocate size alignment _ => size ≤ maxSize ∧ alignment < 2 ^ 64
  | .free k _ => k < s.live.length

instance (maxSize : Nat) (s : ShmemRun) (op : ShmemOp) : Decidable (ShmemAllowed maxSize s op) := by
  unfold ShmemAllowed
  split <;> infer_instance

def shmemStart (size : Nat) (node : Bool) : ShmemRun :=
  ⟨VioGpuShmemAllocator.new.init size node, [], []⟩

end KvmGuestDrivers.VioGpu

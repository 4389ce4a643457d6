/-
# VioGpu.ShmemInvariant -- what the shared memory allocator keeps

Over every run of `Allocate` and `Free`, with any pattern of pool failures: the free list
is sorted, merged, page aligned and inside the window; live allocations are aligned,
inside the window, apart from each other and from the free list, and as large as asked
for; and free, live and lost bytes add up to the window.

One size class is not served right.  `Allocate` rounds the size up to pages in 64 bits.
From `2 ^ 64 - 4095` on the rounded size is zero: the call succeeds and hands out
nothing (`empty_allocation`).  The results below are for the other sizes.

The list surgery is that of `Theory.Extent`: within the window nothing wraps, and
`InsertFreeBlockLocked` is `insertExtent`.
-/
import KvmGuestDrivers.VioGpu.ShmemAllocator

namespace KvmGuestDrivers.VioGpu

set_option autoImplicit false

open Theory VirtIO List

/-! ## 64-bit arithmetic that does not wrap -/

theorem add64_eq {a b : Nat} (small : a + b < 2 ^ 64) : add64 a b = a + b := Nat.mod_eq_of_lt small

theorem sub64_eq {a b : Nat} (le : b ≤ a) (small : a < 2 ^ 64) : sub64 a b = a - b := by
  unfold sub64
  omega

theorem alignUp_lt {value : Nat} (alignment : Nat) (small : value < 2 ^ 64) :
    alignUp value alignment < 2 ^ 64 := by
  unfold alignUp
  split
  · exact small
  · split
    · exact small
    · exact lt_of_le_of_lt Nat.and_le_left (Nat.mod_lt _ (Nat.two_pow_pos 64))

variable {k : Nat}

theorem alignUp_two_pow (narrow : k < 64) (value : Nat) :
    alignUp value (2 ^ k) = 2 ^ k * ((value + 2 ^ k - 1) % 2 ^ 64 / 2 ^ k) := by
  have pos := Nat.two_pow_pos k
  rw [alignUp, if_neg (by omega), if_neg (by simp),
    land_mask (le_of_lt narrow) (Nat.mod_lt _ (Nat.two_pow_pos 64))]

variable {size alignment : Nat}

theorem alignUp_page (room : size ≤ 2 ^ 64 - pageSize) :
    size ≤ alignUp size pageSize ∧ alignUp size pageSize % pageSize = 0 := by
  have page : alignUp size pageSize = 2 ^ 12 * ((size + 2 ^ 12 - 1) % 2 ^ 64 / 2 ^ 12) :=
    alignUp_two_pow (k := 12) (by decide) size
  rw [pageSize] at *
  omega

theorem effectiveAlignment_eq (small : alignment < 2 ^ 64) :
    ∃ k, 12 ≤ k ∧ k < 64 ∧ effectiveAlignment alignment = 2 ^ k := by
  unfold effectiveAlignment
  split
  · exact ⟨12, by decide, by decide, rfl⟩
  rename_i kept
  have large : pageSize ≤ alignment := by omega
  have clear : alignment &&& (alignment - 1) = 0 := by
    by_contra set
    exact kept (.inr (.inr set))
  obtain ⟨k, rfl⟩ := eq_two_pow_of_land_pred (by omega) clear
  refine ⟨k, ?_, (Nat.pow_lt_pow_iff_right (by decide)).mp small, rfl⟩
  exact (Nat.pow_le_pow_iff_right (by decide)).mp (show 2 ^ 12 ≤ 2 ^ k from large)

/-! ## The list operations -/

variable {block : FreeBlock}

theorem coalescePrev_eq {before : List FreeBlock} (small : ∀ c ∈ before, c.stop < 2 ^ 64)
    (fits : block.stop < 2 ^ 64) :
    insertFreeBlockLocked.coalescePrev before block = joinPrev before block := by
  unfold insertFreeBlockLocked.coalescePrev joinPrev
  cases last : before.getLast? with
  | none => rfl
  | some prev =>
    have stop : add64 prev.offset prev.size = prev.stop :=
      add64_eq (small prev (mem_of_getLast? last))
    simp only [stop]
    by_cases touch : prev.stop = block.offset
    · have joined : prev.size + block.size < 2 ^ 64 := by
        rw [Extent.stop] at fits touch
        omega
      rw [if_pos touch, if_pos touch, add64_eq joined]
      rfl
    · rw [if_neg touch, if_neg touch]

theorem coalesceNext_eq {after : List FreeBlock} (small : ∀ c ∈ after, c.stop < 2 ^ 64)
    (fits : block.stop < 2 ^ 64) :
    insertFreeBlockLocked.coalesceNext block after = joinNext block after := by
  cases after with
  | nil => rfl
  | cons next =>
    have bound := small next (by simp)
    have stop : add64 block.offset block.size = block.stop := add64_eq fits
    simp only [insertFreeBlockLocked.coalesceNext, joinNext, stop]
    by_cases touch : block.stop = next.offset
    · have joined : block.size + next.size < 2 ^ 64 := by
        rw [Extent.stop] at bound touch
        omega
      rw [if_pos touch, if_pos touch, add64_eq joined]
      rfl
    · rw [if_neg touch, if_neg touch]

variable {freeList : List FreeBlock} {a : Allocation} {fit : BestFit} {total : Nat}

theorem insertFreeBlockLocked_eq (small : ∀ c ∈ freeList, c.stop < 2 ^ 64)
    (fits : block.stop < 2 ^ 64) :
    insertFreeBlockLocked freeList block = insertExtent freeList block := by
  have test : (fun cur : FreeBlock => !decide (block.offset < cur.offset)) =
      fun cur => decide (cur.offset ≤ block.offset) := by
    funext cur
    rw [← decide_not, decide_eq_decide, Nat.not_lt]
  have prev := coalescePrev_eq (fun c (member : c ∈ upTo freeList block.offset) =>
    small c (mem_of_mem_upTo member)) fits
  have stop : (joinPrev (upTo freeList block.offset) block).2.stop = block.stop := joinPrev_stop _ _
  have next := coalesceNext_eq (fun c (member : c ∈ past freeList block.offset) =>
    small c (mem_of_mem_past member)) (stop ▸ fits)
  simp only [insertFreeBlockLocked, test]
  rw [show freeList.takeWhile (fun cur => decide (cur.offset ≤ block.offset)) =
    upTo freeList block.offset from rfl, prev]
  exact congrArg _ next

/-! ## Best fit -/

/-- The block has room for `size` bytes from the aligned offset on. -/
structure Fits (size alignment : Nat) (fit : BestFit) : Prop where
  aligned : fit.aligned = alignUp fit.block.offset alignment
  above : fit.block.offset ≤ fit.aligned
  room : fit.aligned + size ≤ fit.block.stop

theorem findBestFitLocked_fits (bound : size < 2 ^ 64) (small : ∀ c ∈ freeList, c.stop < 2 ^ 64)
    {best : Option BestFit} (found : findBestFitLocked size alignment freeList best = some fit) :
    best = some fit ∨ (fit.block ∈ freeList ∧ Fits size alignment fit) := by
  induction freeList generalizing best with
  | nil => exact .inl found
  | cons block rest ih =>
    have later : ∀ best', findBestFitLocked size alignment rest best' = some fit →
        best' = some fit ∨ (fit.block ∈ block :: rest ∧ Fits size alignment fit) := by
      intro best' found'
      rcases ih (fun c member => small c (by simp [member])) found' with old | ⟨member, fits⟩
      · exact .inl old
      · exact .inr ⟨mem_cons_of_mem _ member, fits⟩
    unfold findBestFitLocked at found
    simp only at found
    split at found
    · exact later best found
    split at found
    · exact later best found
    split at found
    · exact later best found
    rename_i above room
    have here : ∀ waste, Fits size alignment ⟨block, waste, alignUp block.offset alignment⟩ := by
      intro waste
      refine ⟨rfl, Nat.le_of_not_lt above, ?_⟩
      rw [Extent.stop]
      simp only [add64] at room ⊢
      omega
    split at found
    · split at found
      · cases found
        exact .inr ⟨mem_cons_self, here _⟩
      rcases later _ found with same | found'
      · cases same
        exact .inr ⟨mem_cons_self, here _⟩
      · exact .inr found'
    · exact later best found

/-! ## `Allocate` and `Free` -/

/-- The allocator's own state: a sorted, merged, page aligned free list in the window. -/
structure HeapInv (s : VioGpuShmemAllocator) : Prop where
  spaced : Spaced s.freeList
  paged : ∀ b ∈ s.freeList, b.offset % pageSize = 0 ∧ b.size % pageSize = 0
  within : ∀ b ∈ s.freeList, b.stop ≤ s.total
  window : s.total ≤ kMaxShmemSize
  ready : s.total ≠ 0 → s.initialized = true

namespace HeapInv

variable {s : VioGpuShmemAllocator}

theorem total_lt (inv : HeapInv s) : s.total < 2 ^ 64 := lt_of_le_of_lt inv.window (by decide)

theorem stop_lt (inv : HeapInv s) : ∀ b ∈ s.freeList, b.stop < 2 ^ 64 :=
  fun b member => lt_of_le_of_lt (inv.within b member) inv.total_lt

end HeapInv

section

variable (small : ∀ c ∈ freeList, c.stop < 2 ^ 64) (fits : block.stop < 2 ^ 64)

include small fits

theorem putBack_eq : putBack freeList block =
      if 0 < block.size then insertFreeBlockLocked freeList block else freeList := by
  rw [putBack, insertFreeBlockLocked_eq small fits]

theorem stop_lt_putBack : ∀ c ∈ putBack freeList block, c.stop < 2 ^ 64 := by
  refine forall_putBack (fun a b _ upper touch => ?_) small fits
  simp only [Extent.stop, Extent.join] at *
  omega

end

/-- Splitting a block carves the range out of it, or, without a list node, puts the block
back where it was. -/
theorem splitBlock_cases (spaced : Spaced freeList) (small : ∀ c ∈ freeList, c.stop < 2 ^ 64)
    (member : block ∈ freeList) {aligned : Nat} (above : block.offset ≤ aligned)
    (upTo : aligned + size ≤ block.stop) (node : Bool) :
    VioGpuShmemAllocator.allocate.splitBlock node freeList block aligned size = (freeList, false) ∨
      VioGpuShmemAllocator.allocate.splitBlock node freeList block aligned size =
        (carve freeList block aligned size, true) := by
  have stop := small block member
  have others : ∀ c ∈ freeList.erase block, c.stop < 2 ^ 64 :=
    fun c left => small c (mem_of_mem_erase left)
  have blockEnd : add64 block.offset block.size = block.stop := add64_eq stop
  have allocEnd := add64_eq (lt_of_le_of_lt upTo stop)
  have front := sub64_eq above (by omega)
  have tail := sub64_eq upTo stop
  have whole : sub64 block.stop block.offset = block.size :=
    (sub64_eq (Nat.le_add_right _ _) stop).trans (Nat.add_sub_cancel_left _ _)
  have frontStop : Extent.stop ⟨block.offset, aligned - block.offset⟩ < 2 ^ 64 := by
    simp only [Extent.stop] at *
    omega
  have tailStop : Extent.stop ⟨aligned + size, block.stop - (aligned + size)⟩ < 2 ^ 64 := by
    simp only [Extent.stop] at *
    omega
  have carved := putBack_eq (stop_lt_putBack others frontStop) tailStop
  rw [putBack_eq others frontStop] at carved
  simp only [VioGpuShmemAllocator.allocate.splitBlock, blockEnd, allocEnd, front, tail, whole]
  rw [carve, putBack_eq others frontStop, carved]
  by_cases hasFront : 0 < aligned - block.offset
  · by_cases hasTail : 0 < block.stop - (aligned + size)
    · cases node with
      | false =>
        have back : insertFreeBlockLocked (freeList.erase block) ⟨block.offset, block.size⟩ =
            freeList :=
          (insertFreeBlockLocked_eq others stop).trans (spaced.insert_erase member)
        simp [hasFront, hasTail, back]
      | true => exact .inr (by simp [hasFront, hasTail])
    · exact .inr (by simp [hasFront, hasTail])
  · by_cases hasTail : 0 < block.stop - (aligned + size)
    · exact .inr (by simp [hasFront, hasTail])
    · exact .inr (by simp [hasFront, hasTail])

/-- The two outcomes of `Allocate`: nothing happened, or the range was carved out of a
free block that has room for it at the right alignment. -/
theorem allocate_cases {s : VioGpuShmemAllocator} (inv : HeapInv s) (small : size < 2 ^ 64)
    (alignment : Nat) (node : Bool) :
    s.allocate size alignment node = (s, none) ∨ ∃ fit, 0 < size ∧ fit.block ∈ s.freeList ∧
        Fits (alignUp size pageSize) (effectiveAlignment alignment) fit ∧
        s.allocate size alignment node =
          ({ s with freeList := carve s.freeList fit.block fit.aligned (alignUp size pageSize) },
            some fit.aligned) := by
  by_cases zero : size = 0
  · exact .inl (by rw [VioGpuShmemAllocator.allocate, if_pos zero])
  by_cases idle : !s.initialized ∨ s.total = 0
  · exact .inl (by simp only [VioGpuShmemAllocator.allocate, if_neg zero, if_pos idle])
  cases found : findBestFitLocked (alignUp size pageSize) (effectiveAlignment alignment)
      s.freeList none with
  | none =>
    exact .inl (by simp only [VioGpuShmemAllocator.allocate, if_neg zero, if_neg idle, found])
  | some fit =>
    obtain none | ⟨member, fits⟩ :=
      findBestFitLocked_fits (alignUp_lt pageSize small) inv.stop_lt found
    · cases none
    rcases splitBlock_cases inv.spaced inv.stop_lt member fits.above fits.room node with
      back | carved
    · refine .inl ?_
      simp only [VioGpuShmemAllocator.allocate, if_neg zero, if_neg idle, found, back]
    · refine .inr ⟨fit, Nat.pos_of_ne_zero zero, member, fits, ?_⟩
      simp only [VioGpuShmemAllocator.allocate, if_neg zero, if_neg idle, found, carved]

theorem free_eq {s : VioGpuShmemAllocator} (inv : HeapInv s) {e : Extent} (filled : 0 < e.size)
    (paged : e.offset % pageSize = 0 ∧ e.size % pageSize = 0) (inside : e.stop ≤ s.total)
    (node : Bool) :
    s.free e.offset e.size node =
      if node then { s with freeList := insertExtent s.freeList e } else s := by
  have low : ∀ x, x % pageSize = 0 → x &&& (pageSize - 1) = 0 := fun x aligned =>
    (Nat.and_two_pow_sub_one_eq_mod x 12).trans aligned
  have stop := lt_of_le_of_lt inside inv.total_lt
  rw [Extent.stop] at inside
  have ready := inv.ready (by omega)
  have outside : ¬ (s.total ≤ e.offset ∨ s.total - e.offset < e.size) := by omega
  have busy : ¬ ((!s.initialized) = true ∨ s.total = 0) := by
    rw [ready]
    simp
    omega
  rw [VioGpuShmemAllocator.free, if_neg (by omega), if_neg (by simp [low, paged.1, paged.2]),
    if_neg busy, if_neg outside]
  cases node with
  | false => rfl
  | true =>
    have inserted : insertFreeBlockLocked s.freeList ⟨e.offset, e.size⟩ =
        insertExtent s.freeList e := insertFreeBlockLocked_eq inv.stop_lt stop
    simp [inserted]

theorem paged_join (a b : Extent) (first : a.offset % pageSize = 0 ∧ a.size % pageSize = 0)
    (second : b.offset % pageSize = 0 ∧ b.size % pageSize = 0) (_ : a.stop = b.offset) :
    (a.join b).offset % pageSize = 0 ∧ (a.join b).size % pageSize = 0 := by
  simp only [Extent.join, pageSize] at *
  omega

theorem within_join (a b : Extent) (_ : a.stop ≤ total) (second : b.stop ≤ total)
    (touch : a.stop = b.offset) : (a.join b).stop ≤ total := by
  simp only [Extent.stop, Extent.join] at *
  omega

/-! ## Runs -/

/-- A live allocation is as large as asked for, in the window, at the alignment asked for
(pages by default), in whole pages. -/
structure Placed (total : Nat) (a : Allocation) : Prop where
  filled : 0 < a.size
  covers : a.size ≤ a.extent.size
  inside : a.extent.stop ≤ total
  aligned : a.offset % effectiveAlignment a.alignment = 0
  paged : a.extent.offset % pageSize = 0 ∧ a.extent.size % pageSize = 0

theorem Placed.extent_filled (placed : Placed total a) :
    0 < a.extent.size := lt_of_lt_of_le placed.filled placed.covers

/-- Free list, live allocations and lost ranges share out the window. -/
structure ShmemInv (s : ShmemRun) : Prop where
  heap : HeapInv s.heap
  live : ∀ a ∈ s.live, Placed s.heap.total a
  liveApart : s.live.Pairwise fun a b => a.extent.Apart b.extent
  freeApart : ∀ a ∈ s.live, ∀ b ∈ s.heap.freeList, a.extent.Apart b
  shared : bytes s.heap.freeList + bytes (s.live.map Allocation.extent) + bytes s.lost =
    s.heap.total

namespace ShmemInv

variable {s : ShmemRun}

theorem keep_allocate (inv : ShmemInv s) (room : size ≤ 2 ^ 64 - pageSize)
    (small : alignment < 2 ^ 64) (filled : 0 < size) (member : fit.block ∈ s.heap.freeList)
    (fits : Fits (alignUp size pageSize) (effectiveAlignment alignment) fit) : ShmemInv { s with
      heap := { s.heap with
        freeList := carve s.heap.freeList fit.block fit.aligned (alignUp size pageSize) }
      live := ⟨fit.aligned, size, alignment⟩ :: s.live } := by
  obtain ⟨covers, pages⟩ := alignUp_page room
  obtain ⟨k, low, high, power⟩ := effectiveAlignment_eq small
  have aligned : fit.aligned % effectiveAlignment alignment = 0 := by
    rw [fits.aligned, power, alignUp_two_pow high]
    exact Nat.mul_mod_right _ _
  have page : fit.aligned % pageSize = 0 := by
    rw [power] at aligned
    exact Nat.mod_eq_zero_of_dvd
      (Nat.dvd_trans (Nat.pow_dvd_pow 2 low) (Nat.dvd_of_mod_eq_zero aligned))
  have blockPaged := inv.heap.paged _ member
  have within := inv.heap.within _ member
  obtain ⟨spaced, apart⟩ := inv.heap.spaced.carve member fits.above fits.room (by omega)
  have above := fits.above
  have upTo := fits.room
  have shared := inv.shared
  have carved := bytes_carve member above upTo
  refine ⟨⟨spaced, ?_, ?_, inv.heap.window, inv.heap.ready⟩, ?_, ?_, ?_, ?_⟩
  · refine forall_carve paged_join inv.heap.paged ?_ ?_
    · simp only [pageSize] at *
      omega
    · simp only [Extent.stop, pageSize] at *
      omega
  · refine forall_carve within_join inv.heap.within ?_ ?_
    · simp only [Extent.stop] at *
      omega
    · simp only [Extent.stop] at *
      omega
  · intro a live
    rcases mem_cons.mp live with rfl | old
    · exact ⟨filled, covers, le_trans upTo within, aligned, page, pages⟩
    · exact inv.live a old
  · refine pairwise_cons.mpr ⟨fun a live => ?_, inv.liveApart⟩
    have off := inv.freeApart a live _ member
    exact (off.part (b := ⟨fit.aligned, alignUp size pageSize⟩) above upTo).symm
  · intro a live
    rcases mem_cons.mp live with rfl | old
    · exact apart
    have some := (inv.live a old).extent_filled
    have off := inv.freeApart a old _ member
    refine forall_carve (fun _ _ left right touch => left.join some touch right)
      (inv.freeApart a old) (off.part le_rfl ?_) (off.part ?_ ?_)
    · simp only [Extent.stop] at *
      omega
    · simp only
      omega
    · simp only [Extent.stop] at *
      omega
  · have grown : (Allocation.extent ⟨fit.aligned, size, alignment⟩).size = alignUp size pageSize :=
      rfl
    simp only [map_cons, bytes_cons]
    omega

theorem keep_free (inv : ShmemInv s) (node : Bool) (freed : s.live[k]? = some a) : ShmemInv {
      heap := s.heap.free a.offset (alignUp a.size pageSize) node
      live := s.live.eraseIdx k
      lost := if node then s.lost else a.extent :: s.lost } := by
  obtain ⟨bound, rfl⟩ := List.getElem?_eq_some_iff.mp freed
  have perm := getElem_cons_eraseIdx_perm bound
  have placed := inv.live _ (getElem_mem bound)
  have others : ∀ c ∈ s.live.eraseIdx k, c ∈ s.live := fun c left =>
    (eraseIdx_sublist _ _).subset left
  have apart : ∀ c ∈ s.live.eraseIdx k, (s.live[k]).extent.Apart c.extent := by
    have paired := (perm.pairwise_iff fun h => Extent.Apart.symm h).mpr inv.liveApart
    exact (pairwise_cons.mp paired).1
  have counted := bytes_perm (perm.map Allocation.extent)
  rw [map_cons, bytes_cons] at counted
  have shared := inv.shared
  have freed : s.heap.free (s.live[k]).offset (alignUp (s.live[k]).size pageSize) node = _ :=
    free_eq inv.heap placed.extent_filled placed.paged placed.inside node
  rw [freed]
  cases node with
  | false =>
    refine ⟨inv.heap, fun c left => inv.live c (others c left),
      inv.liveApart.sublist (eraseIdx_sublist _ _),
      fun c left => inv.freeApart c (others c left), ?_⟩
    simp only [Bool.false_eq_true, if_false, bytes_cons]
    omega
  | true =>
    refine ⟨⟨?_, ?_, ?_, inv.heap.window, inv.heap.ready⟩, fun c left => inv.live c (others c left),
      inv.liveApart.sublist (eraseIdx_sublist _ _), fun c left => ?_, ?_⟩
    · exact inv.heap.spaced.insert placed.extent_filled (inv.freeApart _ (getElem_mem bound))
    · exact forall_insert paged_join inv.heap.paged placed.paged
    · exact forall_insert within_join inv.heap.within placed.inside
    · have some := (inv.live c (others c left)).extent_filled
      exact forall_insert (fun _ _ first second touch => first.join some touch second)
        (inv.freeApart c (others c left)) (apart c left).symm
    · simp only [if_true, bytes_insert]
      omega

end ShmemInv

theorem shmemInv_start (size : Nat) (node : Bool) : ShmemInv (shmemStart size node) := by
  have empty : ShmemInv ⟨⟨[], 0, false⟩, [], []⟩ :=
    ⟨⟨⟨by simp, .nil⟩, by simp, by simp, Nat.zero_le _, by simp⟩, by simp, .nil, by simp, rfl⟩
  generalize clamp : (if kMaxShmemSize < size then kMaxShmemSize else size) = clamped
  have bound : clamped ≤ kMaxShmemSize := by
    rw [← clamp]
    split <;> omega
  have rounded : alignDown clamped pageSize = 2 ^ 12 * (clamped / 2 ^ 12) :=
    land_mask (k := 12) (by decide) (lt_of_le_of_lt bound (by decide))
  simp only [shmemStart, VioGpuShmemAllocator.init, VioGpuShmemAllocator.reset, clamp, rounded]
  split
  · exact empty
  cases node with
  | false => exact empty
  | true =>
    simp only [Bool.not_true, Bool.false_eq_true, if_false, nil_append]
    refine ⟨⟨⟨?_, pairwise_singleton _ _⟩, ?_, ?_, ?_, fun _ => rfl⟩, by simp, .nil, by simp, ?_⟩
    · simp only [mem_singleton, forall_eq]
      omega
    · simp only [mem_singleton, forall_eq]
      exact ⟨rfl, Nat.mul_mod_right (2 ^ 12) _⟩
    · simp [Extent.stop]
    · simp only
      omega
    · simp

/-- **The shared memory allocator never hands out a byte twice and loses none.**  After
`Init` of any size, for every sequence of allocations of at most `2 ^ 64 - 4096` bytes and
frees of live allocations, whether or not the pool had list nodes. -/
theorem shmemInv_of_reachable {size : Nat} {node : Bool} {s : ShmemRun}
    (reach : Reachable (· = shmemStart size node)
      (Next shmemStep (ShmemAllowed (2 ^ 64 - pageSize))) s) : ShmemInv s := by
  refine reach.machine_run (shmemInv_start size node) ?_
  intro s op inv allowed
  cases op with
  | allocate size alignment node =>
    obtain ⟨room, narrow⟩ := allowed
    have bound : size < 2 ^ 64 := by
      rw [pageSize] at room
      omega
    rcases allocate_cases inv.heap bound alignment node with
      same | ⟨fit, filled, member, fits, ok⟩
    · exact ⟨s, none, by simp only [shmemStep, same], inv⟩
    · exact ⟨_, some fit.aligned, by simp only [shmemStep, ok],
        inv.keep_allocate room narrow filled member fits⟩
  | free k node =>
    have live : s.live[k]? = some (s.live[k]) := getElem?_eq_getElem allowed
    exact ⟨_, none, by simp only [shmemStep, live], inv.keep_free node live⟩

/-- A window of 16 pages, with an allocation that leaves free blocks on both sides and a
refused one for want of a list node. -/
theorem shmemInv_after_split :
    ∃ s : ShmemRun, s.heap.freeList = [⟨0, 0x8000⟩, ⟨0xa000, 0x6000⟩] ∧ ShmemInv s := by
  have replay : ∃ s ∈ attempt shmemStep (ShmemAllowed (2 ^ 64 - pageSize)) (shmemStart 0x10fff true)
        [.allocate 1 0 true, .allocate 5000 0x8000 false, .allocate 5000 0x8000 true,
          .free 1 true], s.heap.freeList = [⟨0, 0x8000⟩, ⟨0xa000, 0x6000⟩] := by
    decide
  obtain ⟨s, reach, shape⟩ := reachable_of_replay _ replay
  exact ⟨s, shape, shmemInv_of_reachable reach⟩

/-- The largest sizes round to zero: the caller of `Allocate(2 ^ 64 - 1)` gets an offset
and not one byte. -/
theorem empty_allocation : ¬ ∀ (size : Nat) (node : Bool) (s : ShmemRun),
      Reachable (· = shmemStart size node) (Next shmemStep (ShmemAllowed (2 ^ 64 - 1))) s →
      ShmemInv s := by
  intro always
  have replay : ∃ s ∈ attempt shmemStep (ShmemAllowed (2 ^ 64 - 1)) (shmemStart 0x2000 true)
      [.allocate (2 ^ 64 - 1) 0 true],
      ∃ a ∈ s.live, a.size = 2 ^ 64 - 1 ∧ a.extent.size = 0 := by
    decide
  obtain ⟨s, reach, a, live, _, _⟩ := reachable_of_replay _ replay
  have covers := ((always 0x2000 true s reach).live a live).covers
  omega

end KvmGuestDrivers.VioGpu

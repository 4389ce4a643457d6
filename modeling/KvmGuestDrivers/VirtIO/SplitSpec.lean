/-
# VirtIO.SplitSpec -- what each split-ring function does to a queue

One specification per function, so that the run-level modules never unfold the
code.  The facts they rest on:

* no path of `virtqueue_add_buf_split` changes a link: a descriptor is linked to the
  free list behind it before that list's head moves, and that is the link it already
  had (`fillCells_next`).  Adding therefore only cuts a prefix off the free list
  (`Added`);
* `put_unused_desc_chain` writes exactly one descriptor, the chain's last
  (`putUnusedDescChain_eq`);
* for a power of two, `DESC_INDEX` is the remainder (`descIndex_eq_mod`).
-/
import KvmGuestDrivers.VirtIO.SplitRing
import KvmGuestDrivers.Theory.LinkedChain

namespace KvmGuestDrivers.VirtIO

set_option autoImplicit false

open Theory Function

variable {α : Type} {num : Nat}

/-! ## Flags and indices -/

/-- For a power of two the mask is a remainder. -/
theorem descIndex_eq_mod (pow : num.isPowerOfTwo) (small : num ≤ 2 ^ 31) (i : Nat) :
    descIndex num i = i % num := by
  obtain ⟨k, rfl⟩ := pow
  have pos : 0 < 2 ^ k := Nat.two_pow_pos k
  have mask : (2 ^ k + (2 ^ 32 - 1)) % 2 ^ 32 = 2 ^ k - 1 := by omega
  rw [descIndex, mask, Nat.and_two_pow_sub_one_eq_mod]

theorem dvd_of_isPowerOfTwo (pow : num.isPowerOfTwo) (small : num ≤ 2 ^ 16) : num ∣ 2 ^ 16 := by
  obtain ⟨k, rfl⟩ := pow
  exact Nat.pow_dvd_pow 2 ((Nat.pow_le_pow_iff_right (by decide)).mp small)

/-- The flags the direct path gives to the descriptor of `sg[i]`. -/
def chainFlags (outNum i : Nat) : BitVec 16 :=
  if outNum ≤ i then virtqDescFNext ||| virtqDescFWrite else virtqDescFNext

theorem chainFlags_next (outNum i : Nat) : chainFlags outNum i &&& virtqDescFNext ≠ 0 := by
  unfold chainFlags
  split <;> decide

theorem chainFlags_clear (outNum i : Nat) :
    chainFlags outNum i &&& ~~~virtqDescFNext &&& virtqDescFNext = 0 := by
  unfold chainFlags
  split <;> decide

/-! ## Chains in the descriptor table -/

/-- The chain at `i`, followed while `VIRTQ_DESC_F_NEXT` is set; `none` when it has
not ended after `fuel` descriptors. -/
def chainFrom (desc : Nat → VringDesc) : Nat → Nat → Option (List Nat)
  | 0, _ => none
  | fuel + 1, i =>
    if (desc i).has virtqDescFNext then (chainFrom desc fuel (desc i).next).map (i :: ·)
    else some [i]

/-- Every descriptor of `c` has `NEXT`, except the last. -/
def Marked (desc : Nat → VringDesc) (c : List Nat) : Prop :=
  (∀ i ∈ c.dropLast, (desc i).has virtqDescFNext = true) ∧
    ∀ i ∈ c.getLast?, (desc i).has virtqDescFNext = false

variable {desc : Nat → VringDesc} {i n fuel : Nat} (sg : Nat → Scatterlist) {next : Nat → Nat}
  {c : List Nat}

theorem marked_follow : Marked desc (follow next i (n + 1)) ↔
      (∀ j ∈ follow next i n, (desc j).has virtqDescFNext = true) ∧
        (desc (next^[n] i)).has virtqDescFNext = false := by
  rw [Marked, follow_snoc]
  simp

theorem Marked.congr {desc' : Nat → VringDesc} (marked : Marked desc c)
    (same : ∀ i ∈ c, desc' i = desc i) : Marked desc' c := by
  refine ⟨fun i hi => ?_, fun i hi => ?_⟩
  · rw [same i (List.dropLast_subset _ hi)]
    exact marked.1 i hi
  · rw [same i (List.mem_of_getLast? hi)]
    exact marked.2 i hi

/-- A marked chain is walked to its end by the code (`chainEnd`) and by a reader of the table. -/
theorem chain_walk (marked : Marked desc (follow (fun j => (desc j).next) i (n + 1)))
    (enough : n < fuel) : chainEnd desc fuel i = some ((fun j => (desc j).next)^[n] i, n) ∧
      chainFrom desc fuel i = some (follow (fun j => (desc j).next) i (n + 1)) := by
  rw [marked_follow] at marked
  induction n generalizing i fuel with
  | zero =>
    obtain ⟨fuel, rfl⟩ : ∃ f, fuel = f + 1 := ⟨fuel - 1, by omega⟩
    have last : ¬ (desc i).has virtqDescFNext = true := by simpa using marked.2
    rw [chainEnd, chainFrom, if_neg last, if_neg last]
    exact ⟨rfl, rfl⟩
  | succ n ih =>
    obtain ⟨fuel, rfl⟩ : ∃ f, fuel = f + 1 := ⟨fuel - 1, by omega⟩
    have here : (desc i).has virtqDescFNext = true := marked.1 i (by simp [follow_succ])
    obtain ⟨ends, walked⟩ := ih ⟨fun j hj => marked.1 j (by simp [follow_succ, hj]), marked.2⟩
      (show n < fuel by omega)
    rw [chainEnd, chainFrom, if_pos here, if_pos here, ends, walked]
    exact ⟨rfl, rfl⟩

/-! ## `put_unused_desc_chain` -/

/-- The queue after `put_unused_desc_chain` on the chain of `n + 1` descriptors at
`start`. -/
def giveBack (vq : VirtqueueSplit α) (start n : Nat) : VirtqueueSplit α :=
  { vq with
    opaquePtr := update vq.opaquePtr start none
    desc := update vq.desc (vq.next^[n] start)
      { vq.desc (vq.next^[n] start) with flags := virtqDescFNext, next := vq.firstUnused }
    numUnused := (vq.numUnused + n + 1) % 2 ^ 32
    firstUnused := start }

variable {vq : VirtqueueSplit α} {r : BufferRequest α} {start k x : Nat}

/-- A marked chain is given back as a whole. -/
theorem putUnusedDescChain_eq (marked : Marked vq.desc (follow vq.next start (n + 1)))
    (short : n < 2 ^ 16) : putUnusedDescChain vq start = .ok (giveBack vq start n) := by
  have walk : chainEnd vq.desc (2 ^ 16) start = some (vq.next^[n] start, n) :=
    (chain_walk marked short).1
  rw [putUnusedDescChain, walk]
  rfl

theorem giveBack_next (vq : VirtqueueSplit α) (start n : Nat) :
    (giveBack vq start n).next = update vq.next (vq.next^[n] start) vq.firstUnused := by
  funext i
  by_cases here : i = vq.next^[n] start
  · subst here
    simp [VirtqueueSplit.next, giveBack]
  · simp [VirtqueueSplit.next, giveBack, here]

/-! ## The direct path of `virtqueue_add_buf_split` -/

/-- The descriptor written for `sg[i]` into a cell whose link is `link`. -/
def chainDesc (sg : Nat → Scatterlist) (outNum i link : Nat) : VringDesc :=
  { addr := (sg i).physAddr, len := (sg i).length, flags := chainFlags outNum i, next := link }

/-- Fill the cells `c` with `sg[i]`, `sg[i + 1]`, …, keeping their links. -/
def fillCells (sg : Nat → Scatterlist) (outNum : Nat) :
    List Nat → Nat → (Nat → VringDesc) → Nat → VringDesc
  | [], _, desc => desc
  | x :: c, i, desc =>
    fillCells sg outNum c (i + 1)
      (update desc x (chainDesc sg outNum i (desc x).next))

theorem fillCells_of_notMem (outNum : Nat) (off : x ∉ c) (i : Nat) (desc : Nat → VringDesc) :
    fillCells sg outNum c i desc x = desc x := by
  induction c generalizing i desc with
  | nil => rfl
  | cons y c ih =>
    obtain ⟨ne, rest⟩ : x ≠ y ∧ x ∉ c := by simpa using off
    rw [fillCells, ih rest, update_of_ne ne]

theorem fillCells_next (outNum : Nat) (c : List Nat) (i : Nat) (desc : Nat → VringDesc) (x : Nat) :
    (fillCells sg outNum c i desc x).next = (desc x).next := by
  induction c generalizing i desc with
  | nil => rfl
  | cons y c ih =>
    rw [fillCells, ih]
    by_cases same : x = y
    · subst same
      rw [update_self]
      rfl
    · rw [update_of_ne same]

theorem fillCells_getElem (outNum : Nat) {cells : List Nat} (nodup : cells.Nodup)
    (there : cells[k]? = some x) (i : Nat) (desc : Nat → VringDesc) :
    fillCells sg outNum cells i desc x = chainDesc sg outNum (i + k) (desc x).next := by
  induction cells generalizing i desc k with
  | nil => simp at there
  | cons y cells ih =>
    obtain ⟨fresh, rest⟩ := List.nodup_cons.mp nodup
    cases k with
    | zero =>
      obtain rfl : y = x := by simpa using there
      rw [fillCells, fillCells_of_notMem sg outNum fresh, update_self]
      rfl
    | succ k =>
      have later : cells[k]? = some x := there
      have ne : x ≠ y := by
        rintro rfl
        exact fresh (List.mem_of_getElem? later)
      rw [fillCells, ih rest later, update_of_ne ne]
      congr 1
      omega

/-- The queue after `n` descriptors have been taken for `sg[i]`, `sg[i + 1]`, …. -/
def takeCells (sg : Nat → Scatterlist) (outNum i n : Nat) (vq : VirtqueueSplit α) :
    VirtqueueSplit α :=
  { vq with
    desc := fillCells sg outNum (follow vq.next vq.firstUnused n) i vq.desc
    firstUnused := vq.next^[n] vq.firstUnused
    numUnused := vq.numUnused - n }

theorem takeDesc_eq (outNum i : Nat) (some : 0 < vq.numUnused) (small : vq.numUnused < 2 ^ 32) :
    takeDesc sg outNum i vq = (vq.firstUnused, takeCells sg outNum i 1 vq) := by
  have count : (vq.numUnused + (2 ^ 32 - 1)) % 2 ^ 32 = vq.numUnused - 1 := by omega
  simp only [takeDesc, getUnusedDesc, count]
  rfl

theorem takeCells_next (outNum i n : Nat) (vq : VirtqueueSplit α) :
    (takeCells sg outNum i n vq).next = vq.next := by
  funext x
  exact fillCells_next sg outNum _ i vq.desc x

theorem takeCells_succ (outNum i n : Nat) (vq : VirtqueueSplit α) :
    takeCells sg outNum (i + 1) n (takeCells sg outNum i 1 vq) =
      takeCells sg outNum i (n + 1) vq := by
  have links := takeCells_next sg outNum i 1 vq
  rw [takeCells, links]
  simp only [takeCells, follow_succ, follow_zero, fillCells, iterate_succ_apply,
    Function.iterate_zero, id_eq, Nat.sub_sub, add_comm 1 n]

/-- The loop takes the first cells off the list. -/
theorem takeRest_eq (outNum : Nat) (n i last : Nat) (enough : n ≤ vq.numUnused)
    (small : vq.numUnused < 2 ^ 32) :
    takeRest sg outNum n i last vq =
      (if n = 0 then last else vq.next^[n - 1] vq.firstUnused, takeCells sg outNum i n vq) := by
  induction n generalizing i last vq with
  | zero => rfl
  | succ n ih =>
    have first := takeDesc_eq sg outNum i (by omega) small
    have left : (takeCells sg outNum i 1 vq).numUnused = vq.numUnused - 1 := rfl
    rw [takeRest, first]
    simp only
    rw [ih _ _ (by omega) (by omega), takeCells_succ, takeCells_next]
    cases n with
    | zero | succ => rfl

/-- The queue after the direct path has taken `n + 1` descriptors, before the head
is published. -/
def takeChain (sg : Nat → Scatterlist) (outNum n : Nat) (data : Option α)
    (vq : VirtqueueSplit α) : VirtqueueSplit α :=
  ((takeCells sg outNum 0 (n + 1) vq).setOpaque vq.firstUnused data).clearNext
    (vq.next^[n] vq.firstUnused)

/-- The direct path in closed form. -/
theorem directPath_eq (outNum : Nat) (data : Option α) (enough : n + 1 ≤ vq.numUnused)
    (small : vq.numUnused < 2 ^ 32) :
    virtqueueAddBufSplit.directPath vq sg outNum data (n + 1) =
      (vqAddBufferSuccess, publishAvail (takeChain sg outNum n data vq) vq.firstUnused) := by
  have first := takeDesc_eq sg outNum 0 (by omega) small
  -- The pointer is stored between the first descriptor and the rest; neither side reads it.
  have cells : takeCells sg outNum 1 n
      ((takeCells sg outNum 0 1 vq).setOpaque vq.firstUnused data) =
      (takeCells sg outNum 0 (n + 1) vq).setOpaque vq.firstUnused data :=
    congrArg (fun q => q.setOpaque vq.firstUnused data) (takeCells_succ sg outNum 0 n vq)
  have links : ((takeCells sg outNum 0 1 vq).setOpaque vq.firstUnused data).next = vq.next :=
    takeCells_next sg outNum 0 1 vq
  have left : ((takeCells sg outNum 0 1 vq).setOpaque vq.firstUnused data).numUnused =
      vq.numUnused - 1 := rfl
  have rest := takeRest_eq sg outNum n 1 vq.firstUnused
    (show n ≤ ((takeCells sg outNum 0 1 vq).setOpaque vq.firstUnused data).numUnused by omega)
    (by omega)
  have last : (if n = 0 then vq.firstUnused else vq.next^[n - 1] (vq.next vq.firstUnused)) =
      vq.next^[n] vq.firstUnused := by
    cases n with
    | zero | succ => rfl
  rw [links, cells] at rest
  rw [virtqueueAddBufSplit.directPath, if_neg (by omega), first]
  simp only [Nat.add_sub_cancel]
  rw [rest]
  simp only [takeChain]
  rw [← last]
  rfl

theorem takeChain_next (outNum n : Nat) (data : Option α) (vq : VirtqueueSplit α) :
    (takeChain sg outNum n data vq).next = vq.next := by
  funext i
  have cells : (takeCells sg outNum 0 (n + 1) vq).next i = vq.next i :=
    congrFun (takeCells_next sg outNum 0 (n + 1) vq) i
  by_cases last : i = vq.next^[n] vq.firstUnused
  · subst last
    simpa [takeChain, VirtqueueSplit.next, VirtqueueSplit.clearNext, VirtqueueSplit.setDesc]
      using cells
  · simpa [takeChain, VirtqueueSplit.next, VirtqueueSplit.clearNext, VirtqueueSplit.setDesc, last]
      using cells

theorem takeChain_desc_of_notMem (outNum : Nat) (data : Option α)
    (off : i ∉ follow vq.next vq.firstUnused (n + 1)) :
    (takeChain sg outNum n data vq).desc i = vq.desc i := by
  have ne : i ≠ vq.next^[n] vq.firstUnused := by
    rintro rfl
    exact off (iterate_mem_follow vq.next vq.firstUnused (by omega))
  simp only [takeChain, VirtqueueSplit.clearNext, VirtqueueSplit.setDesc]
  rw [update_of_ne ne]
  exact fillCells_of_notMem sg outNum off 0 vq.desc

theorem takeCells_desc_iterate (outNum : Nat)
    (nodup : (follow vq.next vq.firstUnused (n + 1)).Nodup) (bound : k < n + 1) :
    (takeCells sg outNum 0 (n + 1) vq).desc (vq.next^[k] vq.firstUnused) =
      chainDesc sg outNum k (vq.next^[k + 1] vq.firstUnused) := by
  have cell := fillCells_getElem sg outNum nodup (getElem?_follow vq.next vq.firstUnused bound) 0
    vq.desc
  rw [zero_add] at cell
  rw [iterate_succ_apply']
  exact cell

theorem iterate_ne {j : Nat} (nodup : (follow next i n).Nodup) (lt : j < k) (bound : k < n) :
    next^[j] i ≠ next^[k] i := by
  intro same
  have first := getElem?_follow next i (show j < n by omega)
  have second := getElem?_follow next i bound
  rw [← same, ← first] at second
  have := (List.getElem?_inj (by simpa using bound) nodup).mp second
  omega

section

variable (outNum : Nat) (data : Option α) (nodup : (follow vq.next vq.firstUnused (n + 1)).Nodup)

include outNum data nodup

theorem takeChain_desc_inner (inner : k < n) :
    (takeChain sg outNum n data vq).desc (vq.next^[k] vq.firstUnused) =
      chainDesc sg outNum k (vq.next^[k + 1] vq.firstUnused) := by
  have ne := iterate_ne nodup inner (by omega)
  simp only [takeChain, VirtqueueSplit.clearNext, VirtqueueSplit.setDesc]
  rw [update_of_ne ne]
  exact takeCells_desc_iterate sg outNum nodup (by omega)

theorem takeChain_desc_last : (takeChain sg outNum n data vq).desc (vq.next^[n] vq.firstUnused) =
      { chainDesc sg outNum n (vq.next^[n + 1] vq.firstUnused) with
        flags := chainFlags outNum n &&& ~~~virtqDescFNext } := by
  have cell := takeCells_desc_iterate sg outNum nodup (show n < n + 1 by omega)
  simp only [takeChain, VirtqueueSplit.clearNext, VirtqueueSplit.setDesc, update_self]
  rw [VirtqueueSplit.setOpaque_desc, cell]
  rfl

/-- The descriptors that were taken form a marked chain. -/
theorem takeChain_marked :
    Marked (takeChain sg outNum n data vq).desc (follow vq.next vq.firstUnused (n + 1)) := by
  rw [marked_follow]
  constructor
  · intro j hj
    obtain ⟨k, bound, rfl⟩ := List.mem_iff_getElem.mp hj
    have inner : k < n := by simpa using bound
    have cell := getElem?_follow vq.next vq.firstUnused inner
    rw [List.getElem?_eq_getElem bound] at cell
    rw [Option.some.inj cell, takeChain_desc_inner sg outNum data nodup inner]
    simpa [VringDesc.has, chainDesc] using chainFlags_next outNum k
  · rw [takeChain_desc_last sg outNum data nodup]
    simpa [VringDesc.has] using chainFlags_clear outNum n

end

/-! ## `virtqueue_add_buf_split` -/

/-- What a successful `add_buf` does: it cuts the first `n + 1` descriptors off the
free list, turns them into a chain, stores the pointer at its head and publishes
the head. -/
structure Added (vq vq' : VirtqueueSplit α) (n : Nat) (data : Option α) : Prop where
  enough : n + 1 ≤ vq.numUnused
  links : vq'.next = vq.next
  first : vq'.firstUnused = vq.next^[n + 1] vq.firstUnused
  count : vq'.numUnused = vq.numUnused - (n + 1)
  frame : ∀ i, i ∉ follow vq.next vq.firstUnused (n + 1) → vq'.desc i = vq.desc i
  marked : Marked vq'.desc (follow vq.next vq.firstUnused (n + 1))
  pointers : vq'.opaquePtr = update vq.opaquePtr vq.firstUnused data
  avail : vq'.availRing =
    update vq.availRing (descIndex vq.num vq.masterIdx) vq.firstUnused
  availIdx : vq'.availIdx = (vq.masterIdx + 1) % 2 ^ 16
  masterIdx : vq'.masterIdx = (vq.masterIdx + 1) % 2 ^ 16
  sinceKick : vq'.numAddedSinceKick = (vq.numAddedSinceKick + 1) % 2 ^ 32
  num : vq'.num = vq.num
  lastUsed : vq'.lastUsed = vq.lastUsed
  usedIdx : vq'.usedIdx = vq.usedIdx
  usedRing : vq'.usedRing = vq.usedRing
  suppression : vq'.eventSuppressionEnabled = vq.eventSuppressionEnabled
  availEvent : vq'.availEvent = vq.availEvent

/-- The direct path adds a chain. -/
theorem added_direct (outNum : Nat) (data : Option α)
    (nodup : (follow vq.next vq.firstUnused (n + 1)).Nodup) (enough : n + 1 ≤ vq.numUnused) :
    Added vq (publishAvail (takeChain sg outNum n data vq) vq.firstUnused) n data where
  enough := enough
  links := takeChain_next sg outNum n data vq
  first := rfl
  count := rfl
  frame _ off := takeChain_desc_of_notMem sg outNum data off
  marked := takeChain_marked sg outNum data nodup
  pointers := rfl
  avail := rfl
  availIdx := rfl
  masterIdx := rfl
  sinceKick := rfl
  num := rfl
  lastUsed := rfl
  usedIdx := rfl
  usedRing := rfl
  suppression := rfl
  availEvent := rfl

/-- The queue after the indirect path has taken its descriptor, before the head is
published. -/
def takeIndirect (sg : Nat → Scatterlist) (outNum total pa : Nat) (data : Option α)
    (vq : VirtqueueSplit α) : VirtqueueSplit α :=
  { vq with
    indirectTable := update vq.indirectTable pa
      (indirectEntries sg outNum total (vq.indirectTable pa))
    desc := update vq.desc vq.firstUnused
      { vq.desc vq.firstUnused with
        flags := virtqDescFIndirect
        addr := pa
        len := total * sizeofVringDesc % 2 ^ 32 }
    opaquePtr := update vq.opaquePtr vq.firstUnused data
    firstUnused := vq.next vq.firstUnused
    numUnused := vq.numUnused - 1 }

theorem indirectPath_eq (outNum total pa : Nat) (data : Option α) (some : 0 < vq.numUnused)
    (small : vq.numUnused < 2 ^ 32) :
    virtqueueAddBufSplit.indirectPath vq sg outNum data total pa = (vqAddBufferSuccess,
        publishAvail (takeIndirect sg outNum total pa data vq) vq.firstUnused) := by
  have count : (vq.numUnused + (2 ^ 32 - 1)) % 2 ^ 32 = vq.numUnused - 1 := by omega
  simp only [virtqueueAddBufSplit.indirectPath, getUnusedDesc, count]
  rfl

/-- The indirect path adds a chain of one. -/
theorem added_indirect (outNum total pa : Nat) (data : Option α) (some : 0 < vq.numUnused) :
    Added vq (publishAvail (takeIndirect sg outNum total pa data vq) vq.firstUnused) 0 data where
  enough := some
  links := by
    funext i
    by_cases here : i = vq.firstUnused
    · subst here
      simp [VirtqueueSplit.next, publishAvail, takeIndirect]
    · simp [VirtqueueSplit.next, publishAvail, takeIndirect, here]
  first := rfl
  count := rfl
  frame i off := by
    have ne : i ≠ vq.firstUnused := by simpa [follow_succ] using off
    exact update_of_ne ne _ _
  marked := by
    rw [marked_follow]
    constructor
    · intro j hj
      simp at hj
    · simp [publishAvail, takeIndirect, VringDesc.has, virtqDescFIndirect, virtqDescFNext]
  pointers := rfl
  avail := rfl
  availIdx := rfl
  masterIdx := rfl
  sinceKick := rfl
  num := rfl
  lastUsed := rfl
  usedIdx := rfl
  usedRing := rfl
  suppression := rfl
  availEvent := rfl

def addSplit (vq : VirtqueueSplit α) (r : BufferRequest α) : Int × VirtqueueSplit α :=
  virtqueueAddBufSplit vq r.sg r.outNum r.inNum r.data r.indirect

def UsesIndirect (vq : VirtqueueSplit α) (r : BufferRequest α) : Prop :=
  r.indirect ≠ none ∧ 1 < r.total ∧ 0 < vq.numUnused

theorem addSplit_indirect {pa : Nat} (area : r.indirect = some pa) (many : 1 < r.total)
    (some : 0 < vq.numUnused) (small : vq.numUnused < 2 ^ 32) :
    addSplit vq r = (vqAddBufferSuccess, publishAvail
      (takeIndirect r.sg r.outNum r.total pa r.data vq) vq.firstUnused) := by
  rw [← indirectPath_eq r.sg r.outNum r.total pa _ some small]
  simp only [addSplit, area]
  exact if_pos ⟨many, some⟩

theorem addSplit_direct (direct : ¬ UsesIndirect vq r) :
    addSplit vq r = virtqueueAddBufSplit.directPath vq r.sg r.outNum r.data r.total := by
  unfold addSplit virtqueueAddBufSplit
  cases area : r.indirect with
  | none => rfl
  | some pa =>
    refine if_neg fun taken => direct ⟨?_, taken⟩
    rw [area]
    exact Option.some_ne_none pa

/-- **`virtqueue_add_buf_split`** fails exactly when the descriptors the request
takes are not there, and then changes nothing; otherwise it takes them. -/
theorem addSplit_spec (r : BufferRequest α)
    (nodup : (follow vq.next vq.firstUnused vq.numUnused).Nodup) (small : vq.numUnused < 2 ^ 32) :
    (vq.numUnused < r.cost ∧ addSplit vq r = (-enospc, vq)) ∨
      ∃ vq' n, r.cost = n + 1 ∧ addSplit vq r = (vqAddBufferSuccess, vq') ∧
        Added vq vq' n r.data := by
  by_cases indirect : UsesIndirect vq r
  · obtain ⟨area, many, some⟩ := indirect
    obtain ⟨pa, area⟩ := Option.ne_none_iff_exists'.mp area
    refine .inr ⟨_, 0, ?_, addSplit_indirect area many some small, added_indirect _ _ _ _ _ some⟩
    simp [BufferRequest.cost, area]
  · -- An indirect area is passed over only for a single buffer or on a full ring.
    have cost : r.cost = r.total ∨ vq.numUnused = 0 := by
      by_cases area : r.indirect = none
      · simp [BufferRequest.cost, area]
      have pos := r.pos
      have single : r.cost = 1 := by
        simp [BufferRequest.cost, area]
      by_cases empty : vq.numUnused = 0
      · exact .inr empty
      · have : ¬ 1 < r.total := fun many => indirect ⟨area, many, by omega⟩
        exact .inl (by omega)
    have costPos := r.cost_pos
    have totalPos := r.pos
    by_cases full : vq.numUnused < r.total
    · refine .inl ⟨by omega, ?_⟩
      rw [addSplit_direct indirect, virtqueueAddBufSplit.directPath, if_pos full]
    obtain ⟨n, hn⟩ : ∃ n, r.total = n + 1 := ⟨r.total - 1, by omega⟩
    have enough : n + 1 ≤ vq.numUnused := by omega
    refine .inr ⟨_, n, by omega, ?_, added_direct r.sg r.outNum _ ?_ enough⟩
    · rw [addSplit_direct indirect, hn, directPath_eq r.sg r.outNum _ enough small]
    · rw [← Nat.add_sub_cancel' enough, follow_add] at nodup
      exact (List.nodup_append.mp nodup).1

end KvmGuestDrivers.VirtIO

/-
# VirtIO.SplitInvariant -- the representation invariant of the split queue

`SplitInv vq chains`: the free list and the chains of descriptors in flight
partition the descriptor table, every chain ends where its flags say it does, and
the pointer array is set only at the heads of the chains.  The chains are not
stored anywhere in the queue; they are the ghost argument the operations change.

The invariant is stated through `ChainPool`, so each operation on it is one of the
pool's two moves: `SplitInv.added` is `ChainPool.take`, `SplitInv.give` is
`ChainPool.give`.
-/
import KvmGuestDrivers.VirtIO.SplitSpec
import KvmGuestDrivers.VirtIO.QueueSpec

namespace KvmGuestDrivers.VirtIO

set_option autoImplicit false

open Theory List

variable {α : Type}

structure SplitInv (vq : VirtqueueSplit α) (chains : List (List Nat)) : Prop where
  pool : ChainPool vq.next vq.firstUnused vq.numUnused (List.range vq.num) chains
  marked : ∀ c ∈ chains, Marked vq.desc c
  owned : ∀ i, vq.opaquePtr i ≠ none → i ∈ chains.map chainHead
  small : vq.num ≤ 2 ^ 16

variable {c : List Nat} {before after : List (List Nat)} {num : Nat} {vq : VirtqueueSplit α}
  {ev : Bool}

namespace SplitInv

variable {vq' : VirtqueueSplit α} {chains : List (List Nat)}

section

variable (inv : SplitInv vq chains)

include inv

theorem count_le : vq.numUnused ≤ vq.num := by
  have total := inv.pool.total
  rw [length_range] at total
  omega

theorem count_lt : vq.numUnused < 2 ^ 32 := by
  have le := inv.count_le
  have small := inv.small
  omega

theorem free_nodup : (follow vq.next vq.firstUnused vq.numUnused).Nodup :=
  inv.pool.free_nodup nodup_range

section

variable (member : c ∈ chains)

include member

theorem chain_eq : ∃ n, n < 2 ^ 16 ∧ c = follow vq.next (chainHead c) (n + 1) := by
  obtain ⟨i, n, rfl⟩ := inv.pool.threaded c member
  refine ⟨n, ?_, rfl⟩
  have bound := inv.pool.length_le member
  have small := inv.small
  simp only [length_follow, length_range] at bound
  omega

theorem head_mem_chain : chainHead c ∈ c := inv.pool.headD_mem member 0

theorem head_lt : chainHead c < vq.num := by
  have inTable := inv.pool.chain_mem member (inv.head_mem_chain member)
  simpa using inTable

theorem chainFrom_head : chainFrom vq.desc (2 ^ 16) (chainHead c) = some c := by
  obtain ⟨n, short, shape⟩ := inv.chain_eq member
  have marked := inv.marked c member
  rw [shape] at marked
  have walk := (chain_walk marked short).2
  rw [walk]
  exact congrArg some shape.symm

end

theorem heads_nodup : (chains.map chainHead).Nodup := inv.pool.heads_nodup nodup_range 0

end

theorem head_ne {d : List Nat} (inv : SplitInv vq (before ++ c :: after))
    (other : d ∈ before ++ after) :
    chainHead d ≠ chainHead c := inv.pool.headD_ne nodup_range other 0

section

variable (inv : SplitInv vq chains)

include inv

theorem chains_length_le : vq.numUnused + chains.length ≤ vq.num := by
  simpa using inv.pool.count_add_length_le

theorem congr (desc : vq'.desc = vq.desc) (first : vq'.firstUnused = vq.firstUnused)
    (count : vq'.numUnused = vq.numUnused) (pointers : vq'.opaquePtr = vq.opaquePtr)
    (num : vq'.num = vq.num) : SplitInv vq' chains where
  pool := by
    have links : vq'.next = vq.next := by
      funext i
      simp only [VirtqueueSplit.next, desc]
    rw [links, first, count, num]
    exact inv.pool
  marked := by
    rw [desc]
    exact inv.marked
  owned := by
    rw [pointers]
    exact inv.owned
  small := by
    rw [num]
    exact inv.small

theorem reorder {chains' : List (List Nat)} (perm : chains.Perm chains') : SplitInv vq chains' where
  pool := inv.pool.reorder perm
  marked c member := inv.marked c (perm.mem_iff.mpr member)
  owned i set := (perm.map chainHead).mem_iff.mp (inv.owned i set)
  small := inv.small

theorem added {n : Nat} {data : Option α} (step : Added vq vq' n data) :
    SplitInv vq' (follow vq.next vq.firstUnused (n + 1) :: chains) where
  pool := by
    rw [step.links, step.first, step.count, step.num]
    exact inv.pool.take step.enough
  marked := by
    intro c member
    rcases mem_cons.mp member with rfl | old
    · exact step.marked
    -- The cells taken were free, so no descriptor of an older chain was written.
    refine (inv.marked c old).congr fun i hi => step.frame i fun taken => ?_
    have free : i ∈ follow vq.next vq.firstUnused vq.numUnused := by
      rw [← Nat.add_sub_cancel' step.enough, follow_add]
      exact mem_append_left _ taken
    exact inv.pool.free_disjoint nodup_range old free hi
  owned := by
    intro i set
    rw [step.pointers, Function.update_apply] at set
    rw [map_cons, mem_cons]
    by_cases here : i = vq.firstUnused
    · exact .inl here
    · rw [if_neg here] at set
      exact .inr (inv.owned i set)
  small := by
    rw [step.num]
    exact inv.small

end

/-- `put_unused_desc_chain` on the head of a chain in flight returns and takes that
chain out of flight. -/
theorem give (inv : SplitInv vq (before ++ c :: after)) :
    ∃ n, putUnusedDescChain vq (chainHead c) = .ok (giveBack vq (chainHead c) n) ∧
      (giveBack vq (chainHead c) n).numUnused = vq.numUnused + c.length ∧
      SplitInv (giveBack vq (chainHead c) n) (before ++ after) := by
  have member : c ∈ before ++ c :: after := by simp
  obtain ⟨n, short, shape⟩ := inv.chain_eq member
  have length : c.length = n + 1 := by rw [shape, length_follow]
  have total := inv.pool.total
  rw [map_append, length_range] at total
  have small := inv.small
  have count : (vq.numUnused + n + 1) % 2 ^ 32 = vq.numUnused + c.length := by omega
  have marked := inv.marked c member
  rw [shape] at marked
  refine ⟨n, putUnusedDescChain_eq marked short, count, ?_⟩
  have pool := inv.pool
  rw [shape] at pool
  refine ⟨?_, ?_, ?_, inv.small⟩
  · have given := pool.give nodup_range
    rw [giveBack_next]
    have counted : (giveBack vq (chainHead c) n).numUnused = n + 1 + vq.numUnused := by
      simp only [giveBack]
      omega
    rw [counted]
    exact given
  · intro d hd
    refine (inv.marked d (mem_others hd)).congr fun i hi => Function.update_of_ne ?_ _ _
    rintro rfl
    -- The descriptor written is the last of `c`, which is on no other chain.
    have onGiven : vq.next^[n] (chainHead c) ∈ c := by
      rw [shape]
      exact iterate_mem_follow _ _ (by omega)
    exact inv.pool.disjoint_others nodup_range hd onGiven hi
  · intro i set
    simp only [giveBack, Function.update_apply] at set
    by_cases here : i = chainHead c
    · rw [if_pos here] at set
      exact absurd rfl set
    rw [if_neg here] at set
    have old := inv.owned i set
    simp only [map_append, map_cons, mem_append, mem_cons, here, false_or] at old ⊢
    exact old

end SplitInv

/-! ## Taking buffers back -/

def nextUsedHead (vq : VirtqueueSplit α) : Nat :=
  (vq.usedRing (descIndex vq.num vq.lastUsed)).id % 2 ^ 16

/-- What giving back the chain at `head` leaves alone. -/
structure Released (vq vq' : VirtqueueSplit α) (head : Nat) : Prop where
  pointers : vq'.opaquePtr = Function.update vq.opaquePtr head none
  num : vq'.num = vq.num
  usedIdx : vq'.usedIdx = vq.usedIdx
  usedRing : vq'.usedRing = vq.usedRing
  availRing : vq'.availRing = vq.availRing
  sinceKick : vq'.numAddedSinceKick = vq.numAddedSinceKick
  suppression : vq'.eventSuppressionEnabled = vq.eventSuppressionEnabled
  availEvent : vq'.availEvent = vq.availEvent

theorem getSplit_empty (empty : vq.lastUsed = vq.usedIdx) :
    virtqueueGetBufSplit vq = .ok (vq, none) := by
  rw [virtqueueGetBufSplit, if_pos empty]

/-- **`virtqueue_get_buf_split`** on a used slot that names a chain in flight returns
that chain's pointer and the device's length, and puts the chain on the free list. -/
theorem getSplit_collect (inv : SplitInv vq (before ++ c :: after))
    (pending : vq.lastUsed ≠ vq.usedIdx) (head : nextUsedHead vq = chainHead c) :
    ∃ vq', virtqueueGetBufSplit vq = .ok (vq', some (vq.opaquePtr (chainHead c),
        (vq.usedRing (descIndex vq.num vq.lastUsed)).len)) ∧
      SplitInv vq' (before ++ after) ∧ vq'.numUnused = vq.numUnused + c.length ∧
      vq'.lastUsed = (vq.lastUsed + 1) % 2 ^ 16 ∧ vq'.masterIdx = vq.masterIdx ∧
      vq'.availIdx = vq.availIdx ∧ Released vq vq' (chainHead c) := by
  obtain ⟨n, put, count, given⟩ := inv.give
  refine ⟨advanceLastUsed (giveBack vq (chainHead c) n), ?_, given.congr rfl rfl rfl rfl rfl, count,
    rfl, rfl, rfl, rfl, rfl, rfl, rfl, rfl, rfl, rfl, rfl⟩
  unfold nextUsedHead at head
  rw [virtqueueGetBufSplit, if_neg pending]
  simp only [head, put]

/-- **`virtqueue_detach_unused_buf_split`** takes the chain with the lowest head. -/
theorem detachSplit_take (inv : SplitInv vq (before ++ c :: after))
    (lowest : firstAttached vq.opaquePtr (vq.num % 2 ^ 16) = some (chainHead c)) :
    ∃ vq', virtqueueDetachUnusedBufSplit vq = .ok (vq', vq.opaquePtr (chainHead c)) ∧
      SplitInv vq' (before ++ after) ∧ vq'.lastUsed = vq.lastUsed ∧
      vq'.masterIdx = (vq.masterIdx + (2 ^ 16 - 1)) % 2 ^ 16 ∧
      Released vq vq' (chainHead c) := by
  obtain ⟨n, put, -, given⟩ := inv.give
  refine ⟨unpublishAvail (giveBack vq (chainHead c) n), ?_, given.congr rfl rfl rfl rfl rfl, rfl,
    rfl, rfl, rfl, rfl, rfl, rfl, rfl, rfl, rfl⟩
  rw [virtqueueDetachUnusedBufSplit, lowest]
  simp only [put]

/-! ## Creation -/

theorem iterFrom_linkUnused (n : Nat) (desc : Nat → VringDesc) (i : Nat) :
    iterFrom linkUnused n 0 desc i =
      if i < n then { desc i with flags := virtqDescFNext, next := (i + 1) % 2 ^ 16 }
      else desc i :=
  iterFrom_update (fun i (d : VringDesc) =>
    { d with flags := virtqDescFNext, next := (i + 1) % 2 ^ 16 }) n desc i

def newSplit (α : Type) (num : Nat) (ev : Bool) : VirtqueueSplit α :=
  freshSplit α num ev (iterFrom linkUnused (num - 1) 0 fun _ => ⟨0, 0, 0, 0⟩)

/-- A power of two whose predecessor a 16-bit counter reaches (in 32-bit arithmetic)
is at most `2 ^ 16`. -/
theorem le_of_reached (pow : num.isPowerOfTwo) (reach : (num + (2 ^ 32 - 1)) % 2 ^ 32 < 2 ^ 16) :
    num ≤ 2 ^ 16 := by
  obtain ⟨k, rfl⟩ := pow
  by_cases word : k < 32
  · have upper : 2 ^ k < 2 ^ 32 := Nat.pow_lt_pow_right (by decide) word
    omega
  · -- A multiple of `2 ^ 32` would leave the remainder at `2 ^ 32 - 1`.
    obtain ⟨m, hm⟩ : 2 ^ 32 ∣ 2 ^ k := Nat.pow_dvd_pow 2 (by omega)
    omega

/-- A created queue of a power-of-two length: its length fits the 16-bit counter
and the loop has run over all its descriptors but the last. -/
theorem created (pow : num.isPowerOfTwo) (new : vringNewVirtqueueSplit α num ev = .ok (some vq)) :
    num ≤ 2 ^ 16 ∧ vq = newSplit α num ev := by
  unfold vringNewVirtqueueSplit at new
  generalize loop : forU16 ((num + (2 ^ 32 - 1)) % 2 ^ 32) linkUnused
    (fun _ => (⟨0, 0, 0, 0⟩)) = result at new
  split at new
  · cases new
  cases result with
  | none => cases new
  | some =>
    cases new
    have reach : (num + (2 ^ 32 - 1)) % 2 ^ 32 < 2 ^ 16 := by
      by_contra beyond
      rw [forU16_diverges (by omega)] at loop
      cases loop
    have bound := le_of_reached pow reach
    have count : (num + (2 ^ 32 - 1)) % 2 ^ 32 = num - 1 := by omega
    rw [count, forU16_eq (by omega)] at loop
    cases loop
    exact ⟨bound, rfl⟩

theorem vringNewVirtqueueSplit_eq (ev : Bool) (pow : num.isPowerOfTwo) (small : num ≤ 2 ^ 16) :
    vringNewVirtqueueSplit α num ev = .ok (some (newSplit α num ev)) := by
  have pos : 0 < num := Nat.pos_of_isPowerOfTwo pow
  have count : (num + (2 ^ 32 - 1)) % 2 ^ 32 = num - 1 := by omega
  have index : descIndex num num = 0 := by
    rw [descIndex_eq_mod pow (by omega), Nat.mod_self]
  unfold vringNewVirtqueueSplit
  rw [index, count, forU16_eq (by omega)]
  rfl

theorem created_next (bound : num ≤ 2 ^ 16) {i : Nat} (below : i + 1 < num) :
    (iterFrom linkUnused (num - 1) 0 (fun _ => ⟨0, 0, 0, 0⟩) i).next = i + 1 := by
  rw [iterFrom_linkUnused, if_pos (by omega)]
  exact Nat.mod_eq_of_lt (by omega)

theorem splitInv_created (pow : num.isPowerOfTwo)
    (new : vringNewVirtqueueSplit α num ev = .ok (some vq)) : SplitInv vq [] := by
  obtain ⟨small, rfl⟩ := created pow new
  have links : ∀ i, i + 1 < num → (newSplit α num ev).next i = i + 1 :=
    fun i below => created_next small below
  refine ⟨⟨by simp, ?_⟩, by simp, by simp [newSplit, freshSplit], small⟩
  change (follow _ 0 num ++ []).Perm (List.range num)
  rw [follow_consecutive links (by omega), range_eq_range', append_nil]

end KvmGuestDrivers.VirtIO

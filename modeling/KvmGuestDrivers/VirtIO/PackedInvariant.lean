/-
# VirtIO.PackedInvariant -- the id list of the packed queue

`IdInv vq chains`: the free ids and the ids reserved by the buffers in flight
partition `0, …, num - 1`; the first id of a buffer records how many it reserved and
which is the last.  It is the packed counterpart of `SplitInv`, over the links of
`desc_state` instead of those of the descriptor table, and again a `ChainPool`:
`IdInv.added` takes, `IdInv.give` gives.

`free_head` is range-checked even when no id is free.  It then holds whatever link
the last id taken had, which is why every link stays in range (`closed`).
-/
import KvmGuestDrivers.VirtIO.PackedSpec
import KvmGuestDrivers.VirtIO.QueueSpec

namespace KvmGuestDrivers.VirtIO

set_option autoImplicit false

open Theory List Function

variable {α : Type}

structure IdInv (vq : VirtqueuePacked α) (chains : List (List Nat)) : Prop where
  pool : ChainPool vq.next vq.freeHead vq.numFree (List.range vq.num) chains
  closed : ∀ i, i < vq.num → vq.next i < vq.num
  headLt : vq.freeHead < vq.num
  counted : ∀ c ∈ chains, (vq.descState (chainHead c)).num = c.length
  ended : ∀ c ∈ chains, c.getLast? = some (vq.descState (chainHead c)).last
  owned : ∀ i, (vq.descState i).data ≠ none → i ∈ chains.map chainHead
  small : vq.num ≤ 2 ^ 15

/-! ## `detach_buf_packed` -/

variable (vq : VirtqueuePacked α)

theorem detachBufPacked_descState (id i : Nat) : (detachBufPacked vq id).descState i =
      { data := if i = id then none else (vq.descState i).data
        num := (vq.descState i).num
        next := if i = (vq.descState id).last then vq.freeHead % 2 ^ 16 else vq.next i
        last := (vq.descState i).last } := by
  simp only [detachBufPacked, update_self, update_apply, VirtqueuePacked.next]
  by_cases ending : i = (vq.descState id).last
  · subst ending
    by_cases here : (vq.descState id).last = id
    · simp [here]
    · simp [here]
  · rw [if_neg ending, if_neg ending]
    by_cases here : i = id
    · subst here
      simp
    · simp [here]

theorem detachBufPacked_next (id : Nat) : (detachBufPacked vq id).next =
      update vq.next (vq.descState id).last (vq.freeHead % 2 ^ 16) := by
  funext i
  simp only [VirtqueuePacked.next, detachBufPacked_descState, update_apply]

variable {c : List Nat} {before after : List (List Nat)} {vq} {data : Option α} {whole : Prop}

namespace IdInv

variable {vq' : VirtqueuePacked α} {chains : List (List Nat)}

section

variable (inv : IdInv vq chains)

include inv

theorem pos : 0 < vq.num := by
  have := inv.headLt
  omega

theorem total : vq.numFree + (chains.map List.length).sum = vq.num := by
  simpa using inv.pool.total

theorem count_le : vq.numFree ≤ vq.num := by
  have := inv.total
  omega

theorem free_nodup : (follow vq.next vq.freeHead vq.numFree).Nodup :=
  inv.pool.free_nodup nodup_range

section

variable (member : c ∈ chains)

include member

theorem chain_eq : ∃ n, c = follow vq.next (chainHead c) (n + 1) := by
  obtain ⟨i, n, rfl⟩ := inv.pool.threaded c member
  exact ⟨n, rfl⟩

theorem head_mem_chain : chainHead c ∈ c := inv.pool.headD_mem member 0

theorem head_lt : chainHead c < vq.num := by
  have inTable := inv.pool.chain_mem member (inv.head_mem_chain member)
  simpa using inTable

theorem length_pos : 0 < c.length := length_pos_of_mem (inv.head_mem_chain member)

theorem length_le : c.length ≤ vq.num := by
  simpa using inv.pool.length_le member

end

theorem heads_nodup : (chains.map chainHead).Nodup := inv.pool.heads_nodup nodup_range 0

end

theorem head_ne {d : List Nat} (inv : IdInv vq (before ++ c :: after)) (other : d ∈ before ++ after)
    :
    chainHead d ≠ chainHead c := inv.pool.headD_ne nodup_range other 0

section

variable (inv : IdInv vq chains)

include inv

/-- The next id to be given out is not in flight. -/
theorem head_ne_freeHead (some : 0 < vq.numFree) (member : c ∈ chains) :
    chainHead c ≠ vq.freeHead :=
  inv.pool.headD_ne_head nodup_range some member 0

theorem reorder {chains' : List (List Nat)} (perm : chains.Perm chains') : IdInv vq chains' where
  __ := inv
  pool := inv.pool.reorder perm
  counted c member := inv.counted c (perm.mem_iff.mpr member)
  ended c member := inv.ended c (perm.mem_iff.mpr member)
  owned i set := (perm.map chainHead).mem_iff.mp (inv.owned i set)

theorem congr (states : vq'.descState = vq.descState)
    (head : vq'.freeHead = vq.freeHead) (count : vq'.numFree = vq.numFree)
    (num : vq'.num = vq.num) : IdInv vq' chains := by
  have links : vq'.next = vq.next := by
    funext i
    simp only [VirtqueuePacked.next, states]
  refine ⟨?_, ?_, ?_, ?_, ?_, ?_, ?_⟩
  · rw [links, head, count, num]
    exact inv.pool
  · rw [links, num]
    exact inv.closed
  · rw [head, num]
    exact inv.headLt
  · rw [states]
    exact inv.counted
  · rw [states]
    exact inv.ended
  · rw [states]
    exact inv.owned
  · rw [num]
    exact inv.small

theorem iterate_lt (n : Nat) : vq.next^[n] vq.freeHead < vq.num := by
  induction n with
  | zero => exact inv.headLt
  | succ n ih =>
    rw [iterate_succ_apply']
    exact inv.closed _ ih

/-- `add_buf` takes the ids of one more chain off the list. -/
theorem added {a n : Nat} [Decidable whole] (step : AddedPacked a vq vq' n data whole) :
    IdInv vq' (follow vq.next vq.freeHead (n + 1) :: chains) := by
  have enough := step.enough
  have state : ∀ i, vq'.descState i = if i = vq.freeHead then
      { vq.descState i with num := n + 1, data := data, last := vq.next^[n] vq.freeHead }
      else vq.descState i := by
    intro i
    rw [step.states, setState, update_apply]
    split
    · rename_i here
      rw [here]
    · rfl
  have links : vq'.next = vq.next := by
    funext i
    simp only [VirtqueuePacked.next, state]
    split <;> rfl
  have others : ∀ c ∈ chains, vq'.descState (chainHead c) = vq.descState (chainHead c) := by
    intro c member
    rw [state, if_neg (inv.head_ne_freeHead (by omega) member)]
  refine ⟨?_, ?_, ?_, ?_, ?_, ?_, ?_⟩
  · rw [links, step.freeHead, step.count, step.num]
    exact inv.pool.take enough
  · rw [links, step.num]
    exact inv.closed
  · rw [step.freeHead, step.num]
    exact inv.iterate_lt (n + 1)
  · intro c member
    rcases mem_cons.mp member with rfl | old
    · rw [chainHead_follow, state, if_pos rfl, length_follow]
    · rw [others c old]
      exact inv.counted c old
  · intro c member
    rcases mem_cons.mp member with rfl | old
    · rw [chainHead_follow, state, if_pos rfl, follow_snoc, getLast?_concat]
    · rw [others c old]
      exact inv.ended c old
  · intro i set
    rw [map_cons, mem_cons]
    by_cases here : i = vq.freeHead
    · exact .inl here
    · rw [state, if_neg here] at set
      exact .inr (inv.owned i set)
  · rw [step.num]
    exact inv.small

end

/-- `detach_buf_packed` on the first id of a buffer in flight frees its ids. -/
theorem give (inv : IdInv vq (before ++ c :: after)) :
    IdInv (detachBufPacked vq (chainHead c)) (before ++ after) ∧
      (detachBufPacked vq (chainHead c)).numFree = vq.numFree + c.length := by
  have member : c ∈ before ++ c :: after := by simp
  have small := inv.small
  have headLt := inv.headLt
  have total := inv.total
  rw [map_append, map_cons, sum_append, sum_cons] at total
  have counted := inv.counted c member
  have count : (detachBufPacked vq (chainHead c)).numFree = vq.numFree + c.length := by
    simp only [detachBufPacked, update_self]
    omega
  obtain ⟨n, shape⟩ := inv.chain_eq member
  have length : c.length = n + 1 := by rw [shape, length_follow]
  have last : (vq.descState (chainHead c)).last = vq.next^[n] (chainHead c) := by
    have final : c.getLast? = some (vq.next^[n] (chainHead c)) := by
      refine (congrArg List.getLast? shape).trans ?_
      rw [follow_snoc, getLast?_concat]
    exact Option.some.inj ((inv.ended c member).symm.trans final)
  have links : (detachBufPacked vq (chainHead c)).next =
      update vq.next (vq.next^[n] (chainHead c)) vq.freeHead := by
    rw [detachBufPacked_next, last, Nat.mod_eq_of_lt (by omega)]
  refine ⟨⟨?_, ?_, ?_, ?_, ?_, ?_, small⟩, count⟩
  · have pool := inv.pool
    rw [shape] at pool
    have given := pool.give nodup_range
    rw [links, count, length, add_comm vq.numFree]
    exact given
  · intro i below
    rw [links, update_apply]
    split
    · exact headLt
    · exact inv.closed i below
  · exact inv.head_lt member
  · intro d hd
    rw [detachBufPacked_descState]
    exact inv.counted d (mem_others hd)
  · intro d hd
    rw [detachBufPacked_descState]
    exact inv.ended d (mem_others hd)
  · intro i set
    rw [detachBufPacked_descState] at set
    by_cases here : i = chainHead c
    · rw [if_pos here] at set
      exact absurd rfl set
    rw [if_neg here] at set
    have owned := inv.owned i set
    simp only [map_append, map_cons, mem_append, mem_cons, here, false_or] at owned ⊢
    exact owned

end IdInv

/-! ## Taking buffers back -/

/-- The index and the wrap counter follow the position. -/
theorem advance_eq {num n : Nat} (p : Nat) (pos : 0 < num) (short : n ≤ num) :
    advance num (p % num) (wrapBit num p) n = ((p + n) % num, wrapBit num (p + n)) := by
  rw [advance, mod_advance p pos short, wrapBit_advance p pos short]
  by_cases inside : p % num + n < num
  · rw [if_neg (by omega), if_pos inside, if_pos inside]
  · rw [if_pos (by omega), if_neg inside, if_neg inside]

/-- The driver has collected the descriptors before position `d`. -/
structure CollectedTo (vq : VirtqueuePacked α) (d : Nat) : Prop where
  idx : vq.lastUsedIdx = d % vq.num
  lap : vq.usedWrapCounter = wrapBit vq.num d

theorem AddedPacked.collectedTo {a n d : Nat} {vq' : VirtqueuePacked α} [Decidable whole]
    (added : AddedPacked a vq vq' n data whole) (upTo : CollectedTo vq d) : CollectedTo vq' d := by
  constructor <;> rw [added.num]
  · exact added.lastUsedIdx.trans upTo.idx
  · exact added.usedWrapCounter.trans upTo.lap

/-- `get_buf` moves on by the size of the chain. -/
theorem advanceLastUsedIdx_collected (vq : VirtqueuePacked α) {d n : Nat} (pos : 0 < vq.num)
    (small : vq.num ≤ 2 ^ 15) (short : n ≤ vq.num) (upTo : CollectedTo vq d) :
    CollectedTo (advanceLastUsedIdx vq n) (d + n) := by
  have slot := Nat.mod_lt d pos
  have idx := upTo.idx
  have turn := mod_advance d pos short
  have word : (vq.lastUsedIdx + n) % 2 ^ 16 = d % vq.num + n := by omega
  constructor
  · simp only [advanceLastUsedIdx]
    rw [turn]
    split <;> split <;> omega
  simp only [advanceLastUsedIdx]
  rw [wrapBit_advance d pos short, upTo.lap]
  by_cases inside : d % vq.num + n < vq.num
  · rw [if_neg (by omega), if_pos inside]
  · rw [if_pos (by omega), if_neg inside]

theorem getPacked_empty (empty : moreUsedPacked vq = false) :
    virtqueueGetBufPacked vq = .ok (vq, none) := by
  rw [virtqueueGetBufPacked, empty]
  rfl

/-- **`virtqueue_get_buf_packed`** on a used descriptor that names a buffer in flight:
a `BAD_RING` stop if the buffer has no token, else it returns the token and the
device's length and frees the buffer's ids. -/
theorem getPacked_collect (inv : IdInv vq (before ++ c :: after)) (more : moreUsedPacked vq = true)
    (id : (vq.desc vq.lastUsedIdx).id = chainHead c) :
    ((vq.descState (chainHead c)).data = none ∧ virtqueueGetBufPacked vq = .error .bugCheck) ∨
      ∃ data, (vq.descState (chainHead c)).data = some data ∧ virtqueueGetBufPacked vq =
          .ok (advanceLastUsedIdx (detachBufPacked vq (chainHead c)) c.length,
            some (some data, (vq.desc vq.lastUsedIdx).len)) := by
  have member : c ∈ before ++ c :: after := by simp
  have bound := inv.head_lt member
  have counted : ((detachBufPacked vq (chainHead c)).descState (chainHead c)).num = c.length := by
    rw [detachBufPacked_descState]
    exact inv.counted c member
  rw [virtqueueGetBufPacked, more]
  simp only [Bool.not_true, Bool.false_eq_true, if_false, id]
  rw [if_neg (by omega)]
  cases token : (vq.descState (chainHead c)).data with
  | none => exact .inl ⟨rfl, rfl⟩
  | some data => exact .inr ⟨data, rfl, by rw [counted]⟩

/-! ## Creation -/

theorem idInv_created {num : Nat} (pos : 0 < num) (small : num ≤ 2 ^ 15) :
    IdInv (vringNewVirtqueuePacked α num) [] := by
  have count : (num + (2 ^ 32 - 1)) % 2 ^ 32 = num - 1 := by omega
  have state : ∀ i, (vringNewVirtqueuePacked α num).descState i =
      if i < num - 1 then ⟨none, 0, (i + 1) % 2 ^ 16, 0⟩ else ⟨none, 0, 0, 0⟩ := by
    intro i
    simp only [vringNewVirtqueuePacked, count]
    exact iterFrom_update (fun i (s : DescStatePacked α) => { s with next := (i + 1) % 2 ^ 16 })
      (num - 1) (fun _ => ⟨none, 0, 0, 0⟩) i
  have links : ∀ i, i + 1 < num → (vringNewVirtqueuePacked α num).next i = i + 1 := by
    intro i below
    rw [VirtqueuePacked.next, state, if_pos (by omega)]
    exact Nat.mod_eq_of_lt (by omega)
  refine ⟨⟨by simp, ?_⟩, ?_, pos, by simp, by simp, ?_, small⟩
  · change (follow _ 0 num ++ []).Perm (List.range num)
    rw [follow_consecutive links (by omega), range_eq_range', append_nil]
  · intro i below
    by_cases inner : i + 1 < num
    · rw [links i inner]
      exact inner
    · rw [VirtqueuePacked.next, state, if_neg (by omega)]
      exact pos
  · intro i set
    rw [state] at set
    split at set <;> exact absurd rfl set

end KvmGuestDrivers.VirtIO

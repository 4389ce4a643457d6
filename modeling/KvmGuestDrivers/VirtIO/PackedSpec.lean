/-
# VirtIO.PackedSpec -- what each packed-ring function does to a queue

The driver's place in the ring is a free running position `a`, the number of
descriptors added so far: `next_avail_idx` is `a % num` and `avail_used_flags` shows
the lap of `a`.  Against it the loop of `virtqueue_add_buf_packed` has a closed form
(`addLoop_eq`): the `k`-th descriptor of a chain lands in slot `(a + k) % num` and
shows the lap of `a + k`.

`AddedPacked` states what a successful call does, for the direct and the indirect
path alike.  They differ in one thing: the direct path flips `avail_wrap_counter`
only if the new index is *below* the old one, so a chain that fills the whole ring
and comes back to its own head does not flip it (`WholeRing`).
-/
import KvmGuestDrivers.VirtIO.PackedRing
import KvmGuestDrivers.Theory.LinkedChain

namespace KvmGuestDrivers.VirtIO

set_option autoImplicit false

open Theory Function

variable {α : Type}

/-! ## Lap bits in flags -/

variable (wrap : Bool)

/-- `avail_used_flags` on a lap with bit `wrap`: `AVAIL` shows the lap, `USED` its
negation. -/
def lapFlags : BitVec 16 := if wrap then packedDescFAvail else packedDescFUsed

theorem flipAvailUsed_lapFlags : flipAvailUsed (lapFlags wrap) = lapFlags (!wrap) := by
  cases wrap <;> decide

/-- The descriptor is marked available on the lap with bit `wrap`. -/
def ShowsAvail (d : VringPackedDesc) (wrap : Bool) : Prop := d.avail = wrap ∧ d.used = !wrap

/-- The descriptor is marked used on the lap with bit `wrap`. -/
def ShowsUsed (d : VringPackedDesc) (wrap : Bool) : Prop := d.avail = wrap ∧ d.used = wrap

/-- The flags of the `n`-th of `total` descriptors of a direct chain. -/
def chainFlagsPacked (outNum total n : Nat) (wrap : Bool) : BitVec 16 :=
  lapFlags wrap ||| (if n < outNum then 0 else vringDescFWrite) |||
    (if n = total - 1 then 0 else vringDescFNext)

theorem chainFlagsPacked_bits (outNum total n : Nat) (wrap : Bool) :
    (chainFlagsPacked outNum total n wrap &&& packedDescFAvail != 0) = wrap ∧
      (chainFlagsPacked outNum total n wrap &&& packedDescFUsed != 0) = !wrap ∧
      (chainFlagsPacked outNum total n wrap &&& vringDescFNext != 0) = decide (n ≠ total - 1) := by
  unfold chainFlagsPacked
  by_cases last : n = total - 1
  · rw [decide_eq_false (by simpa using last)]
    split <;> cases wrap <;> decide
  · rw [decide_eq_true last]
    split <;> cases wrap <;> decide

theorem indirectFlags_bits :
    ((vringDescFIndirect ||| lapFlags wrap) &&& packedDescFAvail != 0) = wrap ∧
      ((vringDescFIndirect ||| lapFlags wrap) &&& packedDescFUsed != 0) = !wrap ∧
      ((vringDescFIndirect ||| lapFlags wrap) &&& vringDescFNext != 0) = false := by
  cases wrap <;> decide

theorem usedFlags_bits (extra : BitVec 16) :
    (usedFlags wrap extra &&& packedDescFAvail != 0) = wrap ∧
      (usedFlags wrap extra &&& packedDescFUsed != 0) = wrap := by
  have masked : ∀ b : BitVec 16, ~~~(packedDescFAvail ||| packedDescFUsed) &&& b = 0 →
      usedFlags wrap extra &&& b =
        (if wrap then packedDescFAvail ||| packedDescFUsed else 0) &&& b := by
    intro b off
    rw [usedFlags, BitVec.and_comm, BitVec.and_or_distrib_left, BitVec.and_comm b,
      BitVec.and_assoc, off]
    simp [BitVec.and_comm]
  rw [masked _ (by decide), masked _ (by decide)]
  cases wrap <;> decide

/-! ## The loop over a direct chain -/

variable (sg : Nat → Scatterlist)

def chainDescPacked (outNum total id n : Nat) (wrap : Bool) : VringPackedDesc where
  addr := (sg n).physAddr
  len := (sg n).length
  id := id
  flags := chainFlagsPacked outNum total n wrap

/-- The loop after `m` turns, from position `a`. -/
structure AddLoop (vq : VirtqueuePacked α) (sg : Nat → Scatterlist) (outNum total id a m : Nat)
    (c : AddCursor) : Prop where
  i : c.i = (a + m) % vq.num
  curr : c.curr = vq.next^[m] id
  prev : 0 < m → c.prev = vq.next^[m - 1] id
  lap : c.availUsedFlags = lapFlags (wrapBit vq.num (a + m))
  headFlags : 0 < m → c.headFlags = chainFlagsPacked outNum total 0 (wrapBit vq.num a)
  -- The flags of the first descriptor are not written yet.
  first : 0 < m → ∃ flags, c.desc (a % vq.num) =
    { chainDescPacked sg outNum total id 0 (wrapBit vq.num a) with flags := flags }
  rest : ∀ k, 0 < k → k < m → c.desc ((a + k) % vq.num) =
    chainDescPacked sg outNum total id k (wrapBit vq.num (a + k))
  frame : ∀ s, (∀ k, k < m → s ≠ (a + k) % vq.num) → c.desc s = vq.desc s

variable {vq vq' : VirtqueuePacked α} {data : Option α} {a n : Nat}

/-- What the loop has done after `m` descriptors. -/
theorem addLoop_eq (outNum total id a : Nat) (pos : 0 < vq.num) (small : vq.num ≤ 2 ^ 15) {m : Nat}
    (short : m ≤ vq.num) (flags : vq.availUsedFlags = lapFlags (wrapBit vq.num a)) :
    AddLoop vq sg outNum total id a m (iterFrom (addDesc vq sg outNum total id) m 0
      ⟨vq.desc, a % vq.num, id, id, vq.availUsedFlags, 0⟩) := by
  induction m with
  | zero =>
    refine ⟨rfl, rfl, by simp, flags, by simp, by simp, by simp, fun s _ => rfl⟩
  | succ m ih =>
    have loop := ih (by omega)
    rw [iterFrom_snoc, zero_add]
    generalize iterFrom (addDesc vq sg outNum total id) m 0
      ⟨vq.desc, a % vq.num, id, id, vq.availUsedFlags, 0⟩ = c at loop
    have slot := Nat.mod_lt (a + m) pos
    have word : (c.i + 1) % 2 ^ 16 = (a + m) % vq.num + 1 := by
      rw [loop.i]
      omega
    have step := mod_advance (a + m) pos (show 1 ≤ vq.num by omega)
    have lap := wrapBit_advance (a + m) pos (show 1 ≤ vq.num by omega)
    rw [add_assoc] at step lap
    have apart : ∀ k, k < m → (a + k) % vq.num ≠ c.i := fun k less =>
      loop.i ▸ mod_ne_of_lt (by omega) (by omega)
    have flagsHere : c.availUsedFlags ||| (if m < outNum then 0 else vringDescFWrite) |||
        (if m = total - 1 then 0 else vringDescFNext) =
          chainFlagsPacked outNum total m (wrapBit vq.num (a + m)) := by
      rw [loop.lap]
      rfl
    simp only [addDesc, flagsHere]
    refine ⟨?_, ?_, ?_, ?_, ?_, ?_, ?_, ?_⟩ <;> dsimp only
    · rw [step]
      split <;> split <;> omega
    · rw [loop.curr, ← iterate_succ_apply' vq.next]
    · intro _
      exact loop.curr
    · rw [loop.lap, lap, flipAvailUsed_lapFlags]
      by_cases inside : (a + m) % vq.num + 1 < vq.num
      · rw [if_neg (by omega), if_pos inside]
      · rw [if_pos (by omega), if_neg inside]
    · intro _
      by_cases zero : m = 0
      · subst zero
        rfl
      · rw [if_neg zero]
        exact loop.headFlags (by omega)
    · intro _
      by_cases zero : m = 0
      · subst zero
        have here : a % vq.num = c.i := loop.i.symm
        rw [here, update_self]
        exact ⟨_, rfl⟩
      · have other : a % vq.num ≠ c.i := apart 0 (by omega)
        rw [update_of_ne other]
        exact loop.first (by omega)
    · intro k some less
      by_cases last : k = m
      · subst last
        rw [← loop.i, update_self, if_neg (by omega)]
        rfl
      · rw [update_of_ne (apart k (by omega))]
        exact loop.rest k some (by omega)
    · intro s off
      have ne : s ≠ c.i := loop.i ▸ off m (by omega)
      rw [update_of_ne ne]
      exact loop.frame s fun k less => off k (by omega)

/-! ## `virtqueue_add_buf_packed` -/

def WholeRing (num : Nat) (r : BufferRequest α) : Prop := r.indirect = none ∧ r.total = num

instance (num : Nat) : DecidablePred (WholeRing (α := α) num) := fun r =>
  inferInstanceAs (Decidable (r.indirect = none ∧ r.total = num))

/-- What a successful `add_buf` at position `a` does: it cuts the first `n + 1` ids off
the free list, stores the token at the first of them, and fills the next `n + 1`
slots of the ring with descriptors of that id. -/
structure AddedPacked (a : Nat) (vq vq' : VirtqueuePacked α) (n : Nat) (data : Option α)
    (whole : Prop) [Decidable whole] : Prop where
  enough : n + 1 ≤ vq.numFree
  states : vq'.descState =
    setState vq.descState vq.freeHead (n + 1) data (vq.next^[n] vq.freeHead)
  freeHead : vq'.freeHead = vq.next^[n + 1] vq.freeHead
  count : vq'.numFree = vq.numFree - (n + 1)
  position : vq'.nextAvailIdx = (a + (n + 1)) % vq.num
  lap : vq'.availUsedFlags = lapFlags (wrapBit vq.num (a + (n + 1)))
  wrap : vq'.availWrapCounter =
    if a % vq.num + (n + 1) < vq.num ∨ whole then vq.availWrapCounter else !vq.availWrapCounter
  avail : ∀ k, k ≤ n → ShowsAvail (vq'.desc ((a + k) % vq.num)) (wrapBit vq.num (a + k))
  chained : ∀ k, k ≤ n → (vq'.desc ((a + k) % vq.num)).has vringDescFNext = decide (k < n)
  ids : ∀ k, k ≤ n → (vq'.desc ((a + k) % vq.num)).id = vq.freeHead
  frame : ∀ s, (∀ k, k ≤ n → s ≠ (a + k) % vq.num) → vq'.desc s = vq.desc s
  numAdded : vq'.numAdded = (vq.numAdded + (n + 1)) % 2 ^ 32
  num : vq'.num = vq.num
  lastUsedIdx : vq'.lastUsedIdx = vq.lastUsedIdx
  usedWrapCounter : vq'.usedWrapCounter = vq.usedWrapCounter
  deviceOffWrap : vq'.deviceOffWrap = vq.deviceOffWrap
  deviceFlags : vq'.deviceFlags = vq.deviceFlags

theorem AddedPacked.of_iff {whole whole' : Prop} [Decidable whole] [Decidable whole']
    (added : AddedPacked a vq vq' n data whole) (same : whole ↔ whole') :
    AddedPacked a vq vq' n data whole' :=
  { added with wrap := by simpa only [same] using added.wrap }

/-- Where the driver stands: ready to add at position `a`. -/
structure AtPosition (vq : VirtqueuePacked α) (a : Nat) : Prop where
  pos : 0 < vq.num
  small : vq.num ≤ 2 ^ 15
  idx : vq.nextAvailIdx = a % vq.num
  lap : vq.availUsedFlags = lapFlags (wrapBit vq.num a)

theorem AddedPacked.atPosition {whole : Prop} [Decidable whole]
    (added : AddedPacked a vq vq' n data whole) (ready : AtPosition vq a) :
    AtPosition vq' (a + (n + 1)) := by
  constructor <;> rw [added.num]
  · exact ready.pos
  · exact ready.small
  · exact added.position
  · exact added.lap

/-- The direct path adds a chain. -/
theorem added_directPacked (outNum : Nat) (data : Option α) (ready : AtPosition vq a)
    (enough : n + 1 ≤ vq.numFree) (few : vq.numFree ≤ vq.num) :
    ∃ vq', virtqueueAddBufPacked.directPath vq sg outNum data (n + 1) vq.nextAvailIdx vq.freeHead =
        (vqAddBufferSuccess, vq') ∧ AddedPacked a vq vq' n data (n + 1 = vq.num) := by
  have pos := ready.pos
  have small := ready.small
  have loop := addLoop_eq sg outNum (n + 1) vq.freeHead a pos small
    (show n + 1 ≤ vq.num by omega) ready.lap
  rw [virtqueueAddBufPacked.directPath, if_neg (by omega), ready.idx]
  generalize iterFrom (addDesc vq sg outNum (n + 1) vq.freeHead) (n + 1) 0
    ⟨vq.desc, a % vq.num, vq.freeHead, vq.freeHead, vq.availUsedFlags, 0⟩ = c at loop
  have cell : ∀ k, k ≤ n → update c.desc (a % vq.num)
      { c.desc (a % vq.num) with flags := c.headFlags } ((a + k) % vq.num) =
        chainDescPacked sg outNum (n + 1) vq.freeHead k (wrapBit vq.num (a + k)) := by
    intro k le
    by_cases zero : k = 0
    · subst zero
      obtain ⟨_, first⟩ := loop.first (by omega)
      rw [add_zero, update_self, first, loop.headFlags (by omega)]
      rfl
    · have other : (a + k) % vq.num ≠ a % vq.num :=
        (mod_ne_of_lt (by omega) (by omega)).symm
      rw [update_of_ne other]
      exact loop.rest k (by omega) (by omega)
  have bits := fun k => chainFlagsPacked_bits outNum (n + 1) k (wrapBit vq.num (a + k))
  have turn := mod_advance a pos (show n + 1 ≤ vq.num by omega)
  refine ⟨_, rfl, enough, ?_, loop.curr, ?_, loop.i, loop.lap, ?_, ?_, ?_, ?_, ?_, rfl, rfl, rfl,
    rfl, rfl, rfl⟩ <;> dsimp only
  · rw [loop.prev (by omega), Nat.mod_eq_of_lt (by omega)]
    rfl
  · omega
  · rw [loop.i, turn]
    by_cases inside : a % vq.num + (n + 1) < vq.num
    · rw [if_pos inside, if_neg (by omega), if_pos (.inl inside)]
    rw [if_neg inside]
    by_cases whole : n + 1 = vq.num
    · rw [if_neg (by omega), if_pos (.inr whole)]
    · rw [if_pos (by omega), if_neg (by omega)]
  · intro k le
    rw [cell k le]
    exact ⟨(bits k).1, (bits k).2.1⟩
  · intro k le
    rw [cell k le]
    refine (bits k).2.2.trans (decide_eq_decide.mpr ?_)
    omega
  · intro k le
    rw [cell k le]
    rfl
  · intro s off
    have ne : s ≠ a % vq.num := off 0 (by omega)
    rw [update_of_ne ne]
    exact loop.frame s fun k less => off k (by omega)

/-- The indirect path adds a chain of one. -/
theorem added_indirectPacked (descsUsed pa : Nat) (table : Nat → VringPackedDesc) (data : Option α)
    (ready : AtPosition vq a) (some : 0 < vq.numFree) (few : vq.numFree ≤ vq.num) :
    AddedPacked a vq (virtqueueAddBufPacked.indirectPath vq data descsUsed vq.nextAvailIdx
      vq.freeHead pa table) 0 data False := by
  have pos := ready.pos
  have small := ready.small
  have slot := Nat.mod_lt a pos
  have turn := mod_advance a pos (show 1 ≤ vq.num by omega)
  have lap := wrapBit_advance a pos (show 1 ≤ vq.num by omega)
  have bits := indirectFlags_bits (wrapBit vq.num a)
  have here : ∀ k, k ≤ 0 → update vq.desc (a % vq.num)
      ⟨pa, descsUsed * sizeofVringPackedDesc % 2 ^ 32, vq.freeHead,
        vringDescFIndirect ||| lapFlags (wrapBit vq.num a)⟩ ((a + k) % vq.num) =
      ⟨pa, descsUsed * sizeofVringPackedDesc % 2 ^ 32, vq.freeHead,
        vringDescFIndirect ||| lapFlags (wrapBit vq.num (a + k))⟩ := by
    intro k le
    obtain rfl : k = 0 := by omega
    exact update_self _ _ _
  simp only [virtqueueAddBufPacked.indirectPath, ready.idx, ready.lap]
  refine ⟨some, rfl, rfl, ?_, ?_, ?_, ?_, ?_, ?_, ?_, ?_, rfl, rfl, rfl, rfl, rfl, rfl⟩ <;>
    dsimp only
  · omega
  · rw [turn]
    split <;> split <;> omega
  · rw [lap, flipAvailUsed_lapFlags]
    by_cases inside : a % vq.num + 1 < vq.num
    · rw [if_neg (by omega), if_pos inside]
    · rw [if_pos (by omega), if_neg inside]
  · by_cases inside : a % vq.num + 1 < vq.num
    · rw [if_neg (by omega), if_pos (.inl inside)]
    · rw [if_pos (by omega), if_neg (by simpa using inside)]
  · intro k le
    rw [here k le]
    obtain rfl : k = 0 := by omega
    exact ⟨bits.1, bits.2.1⟩
  · intro k le
    rw [here k le]
    obtain rfl : k = 0 := by omega
    exact bits.2.2
  · intro k le
    rw [here k le]
  · intro s off
    have ne : s ≠ a % vq.num := off 0 (by omega)
    exact update_of_ne ne _ _

def addPacked (vq : VirtqueuePacked α) (r : BufferRequest α) :
    Except Fault (Int × VirtqueuePacked α) :=
  virtqueueAddBufPacked vq r.sg r.outNum r.inNum r.data r.indirect

/-- **`virtqueue_add_buf_packed`** fails exactly when the descriptors the request takes
are not there, and then changes nothing; it loops for ever on an indirect table of
`2 ^ 16` entries or more; otherwise it adds the buffer. -/
theorem addPacked_spec (r : BufferRequest α) (ready : AtPosition vq a) (head : vq.freeHead < vq.num)
    (few : vq.numFree ≤ vq.num) : (vq.numFree < r.cost ∧ addPacked vq r = .ok (-enospc, vq)) ∨
      (¬ r.IndirectFits ∧ addPacked vq r = .error .hang) ∨
      ∃ vq' n, r.cost = n + 1 ∧ addPacked vq r = .ok (vqAddBufferSuccess, vq') ∧
        AddedPacked a vq vq' n r.data (WholeRing vq.num r) := by
  have small := ready.small
  have total : (r.outNum + r.inNum) % 2 ^ 32 = r.total := rfl
  have totalPos := r.pos
  have id : vq.freeHead % 2 ^ 16 = vq.freeHead := Nat.mod_eq_of_lt (by omega)
  have direct : ∀ {n}, r.total = n + 1 → n + 1 ≤ vq.numFree →
      ∃ vq', virtqueueAddBufPacked.directPath vq r.sg r.outNum r.data r.total vq.nextAvailIdx
          vq.freeHead = (vqAddBufferSuccess, vq') ∧
        AddedPacked a vq vq' n r.data (n + 1 = vq.num) := by
    intro n hn enough
    rw [hn]
    exact added_directPacked r.sg r.outNum r.data ready enough few
  unfold addPacked virtqueueAddBufPacked
  rw [total, id]
  rw [if_neg (by omega), if_neg (by omega)]
  cases area : r.indirect with
  | none =>
    have cost : r.cost = r.total := by simp [BufferRequest.cost, area]
    by_cases full : vq.numFree < r.total
    · refine .inl ⟨by omega, ?_⟩
      rw [virtqueueAddBufPacked.directPath, if_pos full]
    obtain ⟨n, hn⟩ : ∃ n, r.total = n + 1 := ⟨r.total - 1, by omega⟩
    obtain ⟨vq', ok, added⟩ := direct hn (by omega)
    refine .inr (.inr ⟨vq', n, by omega, congrArg _ ok, added.of_iff ?_⟩)
    simp [WholeRing, area, hn]
  | some pa =>
    have cost : r.cost = 1 := by simp [BufferRequest.cost, area]
    by_cases some : 0 < vq.numFree
    · simp only [if_pos some]
      by_cases fits : r.total < 2 ^ 16
      · rw [forU16_eq fits]
        refine .inr (.inr ⟨_, 0, cost, rfl, ?_⟩)
        refine (added_indirectPacked r.total pa _ r.data ready some few).of_iff ?_
        simp [WholeRing, area]
      · rw [forU16_diverges (by omega)]
        refine .inr (.inl ⟨fun all => fits (all ?_), rfl⟩)
        rw [area]
        exact Option.some_ne_none pa
    · simp only [if_neg some]
      refine .inl ⟨by omega, ?_⟩
      rw [virtqueueAddBufPacked.directPath, if_pos (by omega)]

end KvmGuestDrivers.VirtIO

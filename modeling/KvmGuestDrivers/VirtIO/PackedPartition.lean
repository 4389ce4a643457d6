/-
# VirtIO.PackedPartition -- the id list over whole runs of a packed queue

A `PackedLedger` is a packed queue, the device's used position, and three ghosts: the
ids in flight, those of them the device has returned and `get_buf` has not collected,
and the number of descriptors added so far.

`ids_partitioned_of_reachable`: free list and reserved ids stay a partition, and no
`BUG_ON` or `BAD_RING` is reached, in every run in which `detach_unused_buf` takes only
buffers the device has not returned.  After such a detach the driver adds
descriptors the ring has no room for, so the ring no longer holds what `PackedSim`
says.  What carries the proof is weaker and survives: a slot that shows a used
descriptor of the lap `get_buf` is on, but of an earlier visit, would be two laps old,
and the driver has overwritten every slot since (`SlotState`, `completed_of_more`).

Without the restriction this fails (`bad_ring_after_detach`), as it does for
buffers added without a token.
-/
import KvmGuestDrivers.VirtIO.PackedInvariant
import KvmGuestDrivers.Theory.Calls
import Mathlib.Algebra.Order.BigOperators.Group.List
import Mathlib.Algebra.Order.Group.Nat

namespace KvmGuestDrivers.VirtIO

set_option autoImplicit false

open Theory List
open Function (update update_apply update_of_ne update_self)

variable {α : Type}

/-! ## Runs -/

/-- A packed queue, the device's used position and its lap, the ids in flight, those
waiting in the ring to be collected, and the descriptors added so far. -/
structure PackedLedger (α : Type) where
  vq : VirtqueuePacked α
  nextUsed : Nat
  usedWrap : Bool
  inflight : List Nat
  completed : List Nat
  total : Nat

inductive PackedOp (α : Type) where
  | add (r : BufferRequest α)
  | complete (id len : Nat) (extra : BitVec 16)
  | get
  | detach

variable (s : PackedLedger α)

/-- The device returns the buffer `id`: a used descriptor at its used position, which
moves on by the buffer's descriptors. -/
def PackedLedger.complete (id len : Nat) (extra : BitVec 16) : PackedLedger α :=
  { s with
    vq := writeUsed s.vq s.nextUsed s.usedWrap id len extra
    nextUsed := (advance s.vq.num s.nextUsed s.usedWrap (s.vq.descState id).num).1
    usedWrap := (advance s.vq.num s.nextUsed s.usedWrap (s.vq.descState id).num).2
    completed := s.completed ++ [id] }

def packedLedgerStep : PackedOp α → Except Fault (PackedLedger α × Unit)
  | .add r =>
    match addPacked s.vq r with
    | .error e => .error e
    | .ok (ret, vq) =>
      if ret = vqAddBufferSuccess then
        .ok ({ s with
          vq
          inflight := (vq.desc s.vq.nextAvailIdx).id :: s.inflight
          total := s.total + r.cost }, ())
      else .ok ({ s with vq }, ())
  | .complete id len extra => .ok (s.complete id len extra, ())
  | .get =>
    match virtqueueGetBufPacked s.vq with
    | .error e => .error e
    | .ok (vq, none) => .ok ({ s with vq }, ())
    | .ok (vq, some _) =>
      .ok ({ s with
        vq
        inflight := s.inflight.erase (s.vq.desc s.vq.lastUsedIdx).id
        completed := s.completed.tail }, ())
  | .detach =>
    match virtqueueDetachUnusedBufPacked s.vq with
    | .error e => .error e
    | .ok (vq, _) =>
      match firstToken s.vq with
      | none => .ok ({ s with vq }, ())
      | some id => .ok ({ s with vq, inflight := s.inflight.erase id }, ())

variable (mayAdd : PackedLedger α → BufferRequest α → Prop)

variable (mayDetach : PackedLedger α → Prop)

/-- The device returns an id in flight, once; `mayAdd` and `mayDetach` restrict the
driver. -/
def PackedAllowed (s : PackedLedger α) : PackedOp α → Prop
  | .add r => mayAdd s r
  | .complete id _ _ => id ∈ s.inflight ∧ id ∉ s.completed
  | .get => True
  | .detach => mayDetach s

instance [∀ s r, Decidable (mayAdd s r)] [DecidablePred mayDetach] (s : PackedLedger α)
    (op : PackedOp α) : Decidable (PackedAllowed mayAdd mayDetach s op) := by
  unfold PackedAllowed
  split <;> infer_instance

def freshPacked (α : Type) (num : Nat) : PackedLedger α :=
  ⟨vringNewVirtqueuePacked α num, 0, true, [], [], 0⟩

/-- The buffer `detach_unused_buf` would take has not been returned by the device. -/
def TakesUnreturnedPacked : Prop :=
  ∀ id, firstToken s.vq = some id → id ∉ s.completed

instance : DecidablePred (TakesUnreturnedPacked (α := α)) := fun s =>
  inferInstanceAs (Decidable (∀ id ∈ firstToken s.vq, id ∉ s.completed))

/-! ## The invariant -/

def span (vq : VirtqueuePacked α) (ids : List Nat) : Nat :=
  (ids.map fun id => (vq.descState id).num).sum

variable {vq' vq : VirtqueuePacked α} {id num d slot n : Nat} {s} {t : PackedLedger α}
  {op : PackedOp α} {data : Option α} {whole : Prop}

theorem span_congr {ids : List Nat}
    (same : ∀ id ∈ ids, (vq'.descState id).num = (vq.descState id).num) :
    span vq' ids = span vq ids :=
  congrArg List.sum (map_congr_left same)

@[simp] theorem span_nil (vq : VirtqueuePacked α) : span vq [] = 0 := rfl

@[simp] theorem span_cons (vq : VirtqueuePacked α) (id : Nat) (ids : List Nat) :
    span vq (id :: ids) = (vq.descState id).num + span vq ids := rfl

theorem span_snoc (vq : VirtqueuePacked α) (ids : List Nat) (id : Nat) :
    span vq (ids ++ [id]) = span vq ids + (vq.descState id).num := by
  simp [span]

/-- The slot was written last by the device, at position `p`.  Since position `e` of
the driver it has not been overwritten; `budget` bounds how far `get_buf` can have
moved on meanwhile. -/
structure WrittenAt (num : Nat) (s : PackedLedger α) (d slot p e : Nat) : Prop where
  here : p % num = slot
  shows : ShowsUsed (s.vq.desc slot) (wrapBit num p)
  before : p < d + span s.vq s.completed
  start : e ≤ s.total
  since : ∀ q, e ≤ q → q < s.total → q % num ≠ slot
  budget : d ≤ p + s.vq.numFree + (s.total - e)
  entry : d ≤ p → ∃ pre post, s.completed = pre ++ (s.vq.desc slot).id :: post ∧
    p = d + span s.vq pre

/-- A slot is blank, shows an available descriptor, or was written last by the device. -/
def SlotState (num : Nat) (s : PackedLedger α) (d slot : Nat) : Prop :=
  (s.total ≤ slot ∧ (s.vq.desc slot).used = false) ∨
    (s.vq.desc slot).avail ≠ (s.vq.desc slot).used ∨ ∃ p e, WrittenAt num s d slot p e

/-- Freeing ids does not touch the ring; `get_buf` moves on by no more than it frees. -/
theorem SlotState.release {d' : Nat} (state : SlotState num s d slot) (desc : t.vq.desc = s.vq.desc)
    (total : t.total = s.total) (spans : ∀ l, span t.vq l = span s.vq l) (on : d ≤ d')
    (freed : d' + s.vq.numFree ≤ d + t.vq.numFree)
    (ends : d' + span s.vq t.completed = d + span s.vq s.completed)
    (entries : ∀ pre x post, s.completed = pre ++ x :: post → d' ≤ d + span s.vq pre →
      ∃ pre', t.completed = pre' ++ x :: post ∧ d + span s.vq pre = d' + span s.vq pre') :
    SlotState num t d' slot := by
  rw [SlotState, desc, total]
  rcases state with blank | avail | ⟨p, e, written⟩
  · exact .inl blank
  · exact .inr (.inl avail)
  have before := written.before
  have budget := written.budget
  refine .inr (.inr ⟨p, e, written.here, ?_, ?_, ?_, ?_, ?_, ?_⟩)
  · rw [desc]
    exact written.shows
  · rw [spans]
    omega
  · rw [total]
    exact written.start
  · rw [total]
    exact written.since
  · omega
  · intro later
    obtain ⟨pre, post, shape, _⟩ := written.entry (by omega)
    obtain ⟨pre', shape', _⟩ := entries pre _ post shape (by omega)
    refine ⟨pre', post, ?_, ?_⟩
    · rw [desc]
      exact shape'
    · rw [spans]
      omega

/-- An addition writes available descriptors over the slots it takes. -/
theorem SlotState.add {inflight : List Nat} [Decidable whole] (state : SlotState num s d slot)
    (inside : slot < num) (numEq : s.vq.num = num)
    (added : AddedPacked s.total s.vq vq' n data whole)
    (spans : ∀ l, (∀ id ∈ l, id ∈ s.completed) → span vq' l = span s.vq l) : SlotState num { s with
      vq := vq'
      inflight := inflight
      total := s.total + (n + 1) } d slot := by
  have returned := spans s.completed fun _ h => h
  by_cases hit : ∃ k, k ≤ n ∧ slot = (s.total + k) % num
  · obtain ⟨k, le, rfl⟩ := hit
    have shows := added.avail k le
    rw [numEq] at shows
    refine .inr (.inl ?_)
    simp only [shows.1, shows.2]
    cases wrapBit num (s.total + k) <;> decide
  · have missed : ∀ k, k ≤ n → slot ≠ (s.total + k) % num := fun k le same => hit ⟨k, le, same⟩
    have kept : vq'.desc slot = s.vq.desc slot := by
      refine added.frame slot fun k le => ?_
      rw [numEq]
      exact missed k le
    rcases state with ⟨_, unused⟩ | avail | ⟨p, e, written⟩
    · refine .inl ⟨?_, by simp only [kept, unused]⟩
      by_contra reached
      obtain ⟨k, rfl⟩ : ∃ k, slot = s.total + k := ⟨slot - s.total, by omega⟩
      exact missed k (by simp only at reached; omega) (Nat.mod_eq_of_lt inside).symm
    · exact .inr (.inl (by simp only [kept]; exact avail))
    · have start := written.start
      have budget := written.budget
      refine .inr (.inr ⟨p, e, written.here, ?_, ?_, ?_, ?_, ?_, ?_⟩) <;> simp only [kept, returned]
      · exact written.shows
      · exact written.before
      · omega
      · intro q low high
        by_cases old : q < s.total
        · exact written.since q low old
        · obtain ⟨k, rfl⟩ : ∃ k, q = s.total + k := ⟨q - s.total, by omega⟩
          exact (missed k (by omega)).symm
      · rw [added.count]
        omega
      · intro later
        obtain ⟨pre, post, shape, size⟩ := written.entry later
        refine ⟨pre, post, shape, ?_⟩
        rw [spans pre fun id member => by simp [shape, member]]
        exact size

/-- The device writes one slot, at the position after all that it has written. -/
theorem SlotState.complete {len : Nat} {extra : BitVec 16} (state : SlotState num s d slot)
    (some : 0 < (s.vq.descState id).num) (nextUsed : s.nextUsed = (d + span s.vq s.completed) % num)
    (usedWrap : s.usedWrap = wrapBit num (d + span s.vq s.completed)) :
    SlotState num (s.complete id len extra) d slot := by
  have bits := usedFlags_bits (wrapBit num (d + span s.vq s.completed)) extra
  have grown := span_snoc s.vq s.completed id
  have desc : (s.complete id len extra).vq.desc =
      update s.vq.desc ((d + span s.vq s.completed) % num)
        { s.vq.desc ((d + span s.vq s.completed) % num) with
          id := id
          len := len
          flags := usedFlags (wrapBit num (d + span s.vq s.completed)) extra } := by
    simp only [PackedLedger.complete, writeUsed, nextUsed, usedWrap]
  by_cases here : slot = (d + span s.vq s.completed) % num
  · have cell := congrFun desc slot
    rw [here, update_self] at cell
    refine .inr (.inr ⟨d + span s.vq s.completed, s.total, here.symm, ?_, ?_, le_rfl,
      fun q low high => absurd high (by simp only [PackedLedger.complete]; omega), ?_, fun _ => ?_⟩)
    · rw [here, cell]
      exact ⟨bits.1, bits.2⟩
    · change _ < d + span s.vq (s.completed ++ [id])
      omega
    · omega
    · rw [here, cell]
      exact ⟨s.completed, [], rfl, rfl⟩
  · have kept : (s.complete id len extra).vq.desc slot = s.vq.desc slot := by
      rw [desc, update_of_ne here]
    rcases state with ⟨blank, unused⟩ | avail | ⟨p, e, written⟩
    · exact .inl ⟨blank, by rw [kept]; exact unused⟩
    · exact .inr (.inl (by rw [kept]; exact avail))
    have before := written.before
    refine .inr (.inr ⟨p, e, written.here, ?_, ?_, written.start, written.since,
      written.budget, fun later => ?_⟩)
    · rw [kept]
      exact written.shows
    · change p < d + span s.vq (s.completed ++ [id])
      omega
    · obtain ⟨pre, post, shape, size⟩ := written.entry later
      rw [kept]
      refine ⟨pre, post ++ [id], ?_, size⟩
      simp [PackedLedger.complete, shape]

structure PackedLedgerInv (num : Nat) (s : PackedLedger α) (d : Nat) : Prop where
  chains : ∃ chains, IdInv s.vq chains ∧ s.inflight = chains.map chainHead
  numEq : s.vq.num = num
  ready : AtPosition s.vq s.total
  upTo : CollectedTo s.vq d
  nextUsed : s.nextUsed = (d + span s.vq s.completed) % num
  usedWrap : s.usedWrap = wrapBit num (d + span s.vq s.completed)
  distinct : s.completed.Nodup
  inFlight : ∀ id ∈ s.completed, id ∈ s.inflight
  room : d + num ≤ s.total + s.vq.numFree
  slots : ∀ slot, slot < num → SlotState num s d slot

namespace PackedLedgerInv

section

variable (inv : PackedLedgerInv num s d)

include inv

theorem num_pos : 0 < num := inv.numEq ▸ inv.ready.pos

theorem count_le : s.vq.numFree ≤ num := by
  obtain ⟨chains, ids, -⟩ := inv.chains
  exact inv.numEq ▸ ids.count_le

theorem num_state_pos (flying : id ∈ s.inflight) :
    0 < (s.vq.descState id).num ∧ (s.vq.descState id).num ≤ num := by
  obtain ⟨chains, ids, heads⟩ := inv.chains
  rw [heads] at flying
  obtain ⟨c, member, rfl⟩ := mem_map.mp flying
  rw [ids.counted c member, ← inv.numEq]
  exact ⟨ids.length_pos member, ids.length_le member⟩

theorem span_le : span s.vq s.completed + s.vq.numFree ≤ num := by
  obtain ⟨chains, ids, heads⟩ := inv.chains
  obtain ⟨l, perm, sub⟩ := subperm_of_subset inv.distinct inv.inFlight
  have part : span s.vq s.completed ≤ span s.vq s.inflight := by
    have same : span s.vq l = span s.vq s.completed := (perm.map _).sum_eq
    rw [← same]
    exact (sub.map _).sum_le_sum fun _ _ => Nat.zero_le _
  have whole : span s.vq s.inflight = (chains.map List.length).sum := by
    rw [heads, span, map_map]
    exact congrArg List.sum (map_congr_left fun c member => ids.counted c member)
  have total := ids.total
  rw [inv.numEq] at total
  omega

theorem inflight_nodup : s.inflight.Nodup := by
  obtain ⟨chains, ids, heads⟩ := inv.chains
  rw [heads]
  exact ids.heads_nodup

theorem splitAt (flying : id ∈ s.inflight) :
    ∃ before c after, chainHead c = id ∧ IdInv s.vq (before ++ c :: after) ∧
      s.inflight.erase id = (before ++ after).map chainHead := by
  obtain ⟨chains, ids, heads⟩ := inv.chains
  rw [heads] at flying ⊢
  obtain ⟨before, c, after, rfl, head, erased⟩ := exists_split_key ids.heads_nodup flying
  exact ⟨before, c, after, head, ids, erased⟩

/-- **No stale descriptor is taken for a used one**: where `get_buf` sees a used
descriptor, it is the oldest one not collected. -/
theorem completed_of_more (more : moreUsedPacked s.vq = true) :
    ∃ rest, s.completed = (s.vq.desc s.vq.lastUsedIdx).id :: rest := by
  have pos := inv.num_pos
  have idx := inv.upTo.idx
  have lap := inv.upTo.lap
  have room := inv.room
  have spanLe := inv.span_le
  rw [inv.numEq] at idx lap
  have slotLt := Nat.mod_lt d pos
  rw [moreUsedPacked, isUsedDescPacked, idx, lap] at more
  simp only [Bool.and_eq_true, beq_iff_eq] at more
  rw [idx]
  rcases inv.slots (d % num) slotLt with ⟨_, unused⟩ | avail | ⟨p, e, written⟩
  · have small : d < num := by
      omega
    rw [unused, wrapBit_of_lt small] at more
    exact absurd more.2 (by decide)
  · exact absurd more.1 avail
  · have bit : wrapBit num p = wrapBit num d := written.shows.2.symm.trans more.2
    have before := written.before
    have budget := written.budget
    rcases Nat.lt_trichotomy p d with earlier | _ | later
    · -- Two laps old: the driver has been everywhere since.
      have old := two_laps pos written.here bit earlier
      obtain ⟨q, low, _, slot⟩ := exists_position slotLt e
      exact absurd slot (written.since q low (by omega))
    · obtain ⟨pre, post, shape, size⟩ := written.entry (by omega)
      cases pre with
      | nil => exact ⟨post, shape⟩
      | cons id =>
        have flying : id ∈ s.inflight := inv.inFlight id (by simp [shape])
        have := (inv.num_state_pos flying).1
        rw [span_cons] at size
        omega
    · exact absurd written.here.symm (mod_ne_of_lt later (by omega))

theorem add_cases (r : BufferRequest α) : packedLedgerStep s (.add r) = .error .hang ∨
      packedLedgerStep s (.add r) = .ok (s, ()) ∨
      ∃ vq' n, r.cost = n + 1 ∧ AddedPacked s.total s.vq vq' n r.data (WholeRing s.vq.num r) ∧
        packedLedgerStep s (.add r) = .ok ({ s with
          vq := vq'
          inflight := s.vq.freeHead :: s.inflight
          total := s.total + (n + 1) }, ()) := by
  obtain ⟨chains, ids, -⟩ := inv.chains
  rcases addPacked_spec r inv.ready ids.headLt ids.count_le with ⟨-, full⟩ | ⟨-, hang⟩ |
    ⟨vq', n, cost, ok, added⟩
  · refine .inr (.inl ?_)
    simp only [packedLedgerStep, full]
    rw [if_neg (by decide)]
  · refine .inl ?_
    simp only [packedLedgerStep, hang]
  refine .inr (.inr ⟨vq', n, cost, added, ?_⟩)
  have id : (vq'.desc s.vq.nextAvailIdx).id = s.vq.freeHead := by
    rw [inv.ready.idx]
    exact added.ids 0 (Nat.zero_le n)
  simp only [packedLedgerStep, ok, id, cost]
  rfl

theorem keep_added [Decidable whole] (added : AddedPacked s.total s.vq vq' n data whole) :
    PackedLedgerInv num { s with
      vq := vq'
      inflight := s.vq.freeHead :: s.inflight
      total := s.total + (n + 1) } d := by
  obtain ⟨chains, ids, heads⟩ := inv.chains
  have numEq := inv.numEq
  have enough := added.enough
  have room := inv.room
  have nums : ∀ id ∈ s.inflight, (vq'.descState id).num = (s.vq.descState id).num := by
    intro id flying
    rw [heads] at flying
    obtain ⟨c, member, rfl⟩ := mem_map.mp flying
    rw [added.states, setState, update_of_ne (ids.head_ne_freeHead (by omega) member)]
  have spans : ∀ l, (∀ id ∈ l, id ∈ s.completed) → span vq' l = span s.vq l := fun l sub =>
    span_congr fun id member => nums id (inv.inFlight id (sub id member))
  have returned := spans s.completed fun _ h => h
  refine ⟨⟨_, ids.added added, by simp [heads]⟩, added.num.trans numEq,
    added.atPosition inv.ready, added.collectedTo inv.upTo, ?_, ?_, inv.distinct,
    fun id h => mem_cons_of_mem _ (inv.inFlight id h), ?_,
    fun slot inside => (inv.slots slot inside).add inside numEq added spans⟩
  · simp only [returned]
    exact inv.nextUsed
  · simp only [returned]
    exact inv.usedWrap
  · simp only [added.count]
    omega

theorem keep_complete (len : Nat) (extra : BitVec 16) (flying : id ∈ s.inflight)
    (once : id ∉ s.completed) : PackedLedgerInv num (s.complete id len extra) d := by
  obtain ⟨chains, ids, heads⟩ := inv.chains
  have pos := inv.num_pos
  obtain ⟨some, short⟩ := inv.num_state_pos flying
  have moved : advance s.vq.num s.nextUsed s.usedWrap (s.vq.descState id).num =
      ((d + span s.vq s.completed + (s.vq.descState id).num) % num,
        wrapBit num (d + span s.vq s.completed + (s.vq.descState id).num)) := by
    rw [inv.numEq, inv.nextUsed, inv.usedWrap, advance_eq _ pos short]
  have grown : d + span s.vq (s.completed ++ [id]) =
      d + span s.vq s.completed + (s.vq.descState id).num := by
    rw [span_snoc, add_assoc]
  refine ⟨⟨chains, ids.congr rfl rfl rfl rfl, heads⟩, inv.numEq, ⟨inv.ready.1, inv.ready.2,
    inv.ready.3, inv.ready.4⟩, ⟨inv.upTo.1, inv.upTo.2⟩,
    (congrArg Prod.fst moved).trans (congrArg (· % num) grown.symm),
    (congrArg Prod.snd moved).trans (congrArg (wrapBit num) grown.symm), ?_, ?_, inv.room,
    fun slot inside => (inv.slots slot inside).complete some inv.nextUsed inv.usedWrap⟩
  · refine nodup_append.mpr ⟨inv.distinct, by simp, ?_⟩
    rintro a ha b hb rfl
    obtain rfl : a = id := by simpa using hb
    exact once ha
  · exact forall_mem_concat inv.inFlight flying

end

theorem span_detach (vq : VirtqueuePacked α) (id : Nat) (l : List Nat) :
    span (detachBufPacked vq id) l = span vq l :=
  span_congr fun i _ => by rw [detachBufPacked_descState]

theorem get_cases (inv : PackedLedgerInv num s d) : packedLedgerStep s .get = .ok (s, ()) ∨
      ∃ id rest, s.completed = id :: rest ∧
        (((s.vq.descState id).data = none ∧ packedLedgerStep s .get = .error .bugCheck) ∨
          packedLedgerStep s .get = .ok ({ s with
            vq := advanceLastUsedIdx (detachBufPacked s.vq id) (s.vq.descState id).num
            inflight := s.inflight.erase id
            completed := rest }, ())) := by
  cases more : moreUsedPacked s.vq with
  | false =>
    refine .inl ?_
    simp only [packedLedgerStep, getPacked_empty more]
  | true =>
    obtain ⟨rest, oldest⟩ := inv.completed_of_more more
    refine .inr ⟨_, rest, oldest, ?_⟩
    generalize front : (s.vq.desc s.vq.lastUsedIdx).id = id at oldest
    have flying : id ∈ s.inflight := inv.inFlight id (by simp [oldest])
    obtain ⟨_, c, _, rfl, ids, -⟩ := inv.splitAt flying
    have counted := ids.counted c (by simp)
    rcases getPacked_collect ids more front with ⟨none, bad⟩ | ⟨_, _, got⟩
    · exact .inl ⟨none, by simp only [packedLedgerStep, bad]⟩
    · refine .inr ?_
      simp only [packedLedgerStep, got, front, oldest, tail_cons, counted]

theorem keep_get (inv : PackedLedgerInv num s d) {rest : List Nat}
    (oldest : s.completed = id :: rest) :
    PackedLedgerInv num { s with
      vq := advanceLastUsedIdx (detachBufPacked s.vq id) (s.vq.descState id).num
      inflight := s.inflight.erase id
      completed := rest } (d + (s.vq.descState id).num) := by
  have flying : id ∈ s.inflight := inv.inFlight id (by simp [oldest])
  obtain ⟨_, short⟩ := inv.num_state_pos flying
  obtain ⟨_, c, _, rfl, ids, erased⟩ := inv.splitAt flying
  obtain ⟨given, _⟩ := ids.give
  have counted := ids.counted c (by simp)
  have room := inv.room
  have distinct := inv.distinct
  rw [oldest, nodup_cons] at distinct
  have ends : d + (s.vq.descState (chainHead c)).num + span s.vq rest =
      d + span s.vq s.completed := by
    rw [oldest, span_cons, add_assoc]
  have spans : ∀ l, span (advanceLastUsedIdx (detachBufPacked s.vq (chainHead c))
      (s.vq.descState (chainHead c)).num) l = span s.vq l := fun l => span_detach s.vq _ l
  have upTo : CollectedTo (advanceLastUsedIdx (detachBufPacked s.vq (chainHead c))
      (s.vq.descState (chainHead c)).num) (d + (s.vq.descState (chainHead c)).num) :=
    advanceLastUsedIdx_collected (detachBufPacked s.vq (chainHead c)) inv.ready.pos
      inv.ready.small (inv.numEq ▸ short) ⟨inv.upTo.1, inv.upTo.2⟩
  refine ⟨⟨_, given.congr rfl rfl rfl rfl, erased⟩, inv.numEq, ⟨inv.ready.1, inv.ready.2,
    inv.ready.3, inv.ready.4⟩, upTo, ?_, ?_, distinct.2, ?_, ?_, fun slot inside => ?_⟩
  · simp only [spans, ends]
    exact inv.nextUsed
  · simp only [spans, ends]
    exact inv.usedWrap
  · intro a ha
    have ne : a ≠ chainHead c := by
      rintro rfl
      exact distinct.1 ha
    exact (mem_erase_of_ne ne).mpr (inv.inFlight a (by simp [oldest, ha]))
  · change _ ≤ s.total + (detachBufPacked s.vq (chainHead c)).numFree
    omega
  · refine (inv.slots slot inside).release rfl rfl spans (by omega) ?_ ends ?_
    · change _ ≤ d + (detachBufPacked s.vq (chainHead c)).numFree
      omega
    intro pre x post shape later
    rw [oldest] at shape
    cases pre with
    | nil => rw [span_nil] at later; omega
    | cons y pre =>
      obtain ⟨rfl, tail⟩ := List.cons.inj shape
      exact ⟨pre, tail, by rw [span_cons, add_assoc]⟩

theorem detach_cases (s : PackedLedger α) : (firstToken s.vq = none ∧ s.vq.numFree ≠ s.vq.num ∧
        packedLedgerStep s .detach = .error .bugCheck) ∨
      packedLedgerStep s .detach = .ok (s, ()) ∨
      ∃ id, firstToken s.vq = some id ∧ packedLedgerStep s .detach = .ok ({ s with
          vq := detachBufPacked s.vq id
          inflight := s.inflight.erase id }, ()) := by
  cases first : firstToken s.vq with
  | none =>
    by_cases whole : s.vq.numFree = s.vq.num
    · refine .inr (.inl ?_)
      simp only [packedLedgerStep, virtqueueDetachUnusedBufPacked, first]
      rw [if_neg (by simpa using whole)]
    · refine .inl ⟨rfl, whole, ?_⟩
      simp only [packedLedgerStep, virtqueueDetachUnusedBufPacked, first]
      rw [if_pos whole]
  | some id =>
    refine .inr (.inr ⟨id, rfl, ?_⟩)
    simp only [packedLedgerStep, virtqueueDetachUnusedBufPacked, first]

section

variable (inv : PackedLedgerInv num s d) (first : firstToken s.vq = some id)

include inv first

theorem firstToken_flying : id ∈ s.inflight := by
  obtain ⟨chains, ids, heads⟩ := inv.chains
  have found := find?_some first
  rw [heads]
  exact ids.owned id (Option.isSome_iff_ne_none.mp found)

theorem keep_detach (unreturned : id ∉ s.completed) : PackedLedgerInv num { s with
      vq := detachBufPacked s.vq id
      inflight := s.inflight.erase id } d := by
  obtain ⟨_, c, _, rfl, ids, erased⟩ := inv.splitAt (inv.firstToken_flying first)
  obtain ⟨given, count⟩ := ids.give
  have room := inv.room
  have spans := span_detach s.vq (chainHead c)
  refine ⟨⟨_, given, erased⟩, inv.numEq, { inv.ready with }, { inv.upTo with }, ?_, ?_,
    inv.distinct, ?_, ?_, fun slot inside => ?_⟩
  · simp only [spans]
    exact inv.nextUsed
  · simp only [spans]
    exact inv.usedWrap
  · intro a ha
    have ne : a ≠ chainHead c := by
      rintro rfl
      exact unreturned ha
    exact (mem_erase_of_ne ne).mpr (inv.inFlight a ha)
  · simp only
    omega
  · refine (inv.slots slot inside).release rfl rfl spans le_rfl ?_ rfl ?_
    · simp only
      omega
    · intro pre x post shape _
      exact ⟨pre, shape, rfl⟩

end

end PackedLedgerInv

inductive PackedMove (s : PackedLedger α) : PackedOp α → PackedLedger α → Prop where
  | stay {op : PackedOp α} : PackedMove s op s
  | added {r vq' n} (cost : r.cost = n + 1)
      (added : AddedPacked s.total s.vq vq' n r.data (WholeRing s.vq.num r)) :
      PackedMove s (.add r) { s with
        vq := vq', inflight := s.vq.freeHead :: s.inflight, total := s.total + (n + 1) }
  | complete (id len : Nat) (extra : BitVec 16) :
      PackedMove s (.complete id len extra) (s.complete id len extra)
  | collect {id : Nat} {rest : List Nat} (oldest : s.completed = id :: rest) :
      PackedMove s .get { s with
        vq := advanceLastUsedIdx (detachBufPacked s.vq id) (s.vq.descState id).num
        inflight := s.inflight.erase id
        completed := rest }
  | detach {id : Nat} (first : firstToken s.vq = some id) :
      PackedMove s .detach
        { s with vq := detachBufPacked s.vq id, inflight := s.inflight.erase id }

namespace PackedLedgerInv

theorem move (inv : PackedLedgerInv num s d) (stepped : packedLedgerStep s op = .ok (t, ())) :
    PackedMove s op t := by
  cases op with
  | add r =>
    rcases inv.add_cases r with hang | same | ⟨_, n, cost, added, ok⟩
    · rw [hang] at stepped
      cases stepped
    · rw [same] at stepped
      cases stepped
      exact .stay
    · rw [ok] at stepped
      cases stepped
      exact .added cost added
  | complete id len extra =>
    cases stepped
    exact .complete id len extra
  | get =>
    rcases inv.get_cases with same | ⟨id, _, oldest, ⟨-, bad⟩ | ok⟩
    · rw [same] at stepped
      cases stepped
      exact .stay
    · rw [bad] at stepped
      cases stepped
    · rw [ok] at stepped
      cases stepped
      exact .collect oldest
  | detach =>
    rcases detach_cases s with ⟨-, -, bad⟩ | same | ⟨id, first, ok⟩
    · rw [bad] at stepped
      cases stepped
    · rw [same] at stepped
      cases stepped
      exact .stay
    · rw [ok] at stepped
      cases stepped
      exact .detach first

theorem keep {mayAdd : PackedLedger α → BufferRequest α → Prop} (inv : PackedLedgerInv num s d)
    (allowed : PackedAllowed mayAdd TakesUnreturnedPacked s op) (move : PackedMove s op t) :
    ∃ d', PackedLedgerInv num t d' := by
  cases move with
  | stay => exact ⟨d, inv⟩
  | added _ added => exact ⟨d, inv.keep_added added⟩
  | complete id len extra => exact ⟨d, inv.keep_complete len extra allowed.1 allowed.2⟩
  | collect oldest => exact ⟨_, inv.keep_get oldest⟩
  | detach first => exact ⟨d, inv.keep_detach first (allowed _ first)⟩

end PackedLedgerInv

theorem packedLedgerInv_fresh (pos : 0 < num) (small : num ≤ 2 ^ 15) :
    PackedLedgerInv num (freshPacked α num) 0 := by
  have lap : wrapBit num 0 = true := wrapBit_of_lt pos
  have zero : 0 % num = 0 := Nat.zero_mod num
  have blank : VringPackedDesc.used ⟨0, 0, 0, 0⟩ = false := by decide
  refine ⟨⟨[], idInv_created pos small, rfl⟩, rfl, ⟨pos, small, zero.symm,
    (congrArg lapFlags lap).symm⟩, ⟨zero.symm, lap.symm⟩, zero.symm, lap.symm, nodup_nil,
    by simp [freshPacked], ?_, fun slot inside => .inl ⟨Nat.zero_le _, blank⟩⟩
  change 0 + num ≤ 0 + num
  omega

/-! ## The partition of the ids -/

def tokens (vq : VirtqueuePacked α) (id : Nat) : Option α := (vq.descState id).data

theorem tokens_detach (vq : VirtqueuePacked α) (id : Nat) :
    tokens (detachBufPacked vq id) = update (tokens vq) id none := by
  funext i
  simp only [tokens, detachBufPacked_descState, update_apply]

variable {mayDetach}

theorem PackedLedgerInv.keep_attached (inv : PackedLedgerInv num s d)
    (allowed : PackedAllowed (fun _ => BufferRequest.HasOpaque) mayDetach s op)
    (move : PackedMove s op t) (attached : Attached (tokens s.vq) s.inflight) :
    Attached (tokens t.vq) t.inflight := by
  cases move with
  | stay | complete => exact attached
  | @added r vq' n _ added =>
    have set : tokens vq' = update (tokens s.vq) s.vq.freeHead r.data := by
      funext i
      simp only [tokens, added.states, setState, update_apply]
      split <;> rfl
    simp only [set]
    exact attached.add _ (Option.isSome_iff_ne_none.mp allowed)
  | @collect id =>
    change Attached (tokens (detachBufPacked s.vq id)) (s.inflight.erase id)
    rw [tokens_detach]
    exact attached.erase inv.inflight_nodup id
  | detach =>
    simp only [tokens_detach]
    exact attached.erase inv.inflight_nodup _

theorem tokens_attached_of_reachable (pos : 0 < num) (small : num ≤ 2 ^ 15)
    (reach : Reachable (· = freshPacked α num) (Next packedLedgerStep
        (PackedAllowed (fun _ => BufferRequest.HasOpaque) TakesUnreturnedPacked)) s) :
    (∃ d, PackedLedgerInv num s d) ∧ Attached (tokens s.vq) s.inflight := by
  refine reach.invariant
    (P := fun s => (∃ d, PackedLedgerInv num s d) ∧ Attached (tokens s.vq) s.inflight) ?_ ?_
  · rintro s rfl
    exact ⟨⟨0, packedLedgerInv_fresh pos small⟩, fun id member => by cases member⟩
  · rintro s t ⟨⟨d, inv⟩, attached⟩ ⟨op, _, allowed, stepped⟩
    have move := inv.move stepped
    exact ⟨inv.keep allowed move, inv.keep_attached allowed move attached⟩

def reserved (vq : VirtqueuePacked α) (id : Nat) : List Nat :=
  follow vq.next id (vq.descState id).num

def freeIds (vq : VirtqueuePacked α) : List Nat := follow vq.next vq.freeHead vq.numFree

/-- The ids are partitioned into the free ones and those of the buffers in flight. -/
structure IdsPartitioned (s : PackedLedger α) : Prop where
  freeDistinct : (freeIds s.vq).Nodup
  freeInRange : ∀ i ∈ freeIds s.vq, i < s.vq.num
  headInRange : s.vq.freeHead < s.vq.num
  inflightDistinct : s.inflight.Nodup
  reservedDistinct : ∀ id ∈ s.inflight, (reserved s.vq id).Nodup
  reservedEnds : ∀ id ∈ s.inflight, (reserved s.vq id).head? = some id ∧
    (reserved s.vq id).getLast? = some (s.vq.descState id).last
  reservedApart : (s.inflight.map (reserved s.vq)).Pairwise List.Disjoint
  freeApart : ∀ id ∈ s.inflight, List.Disjoint (freeIds s.vq) (reserved s.vq id)
  total : s.vq.numFree + (s.inflight.map fun id => (s.vq.descState id).num).sum = s.vq.num

theorem IdInv.reserved_head {chains : List (List Nat)} (inv : IdInv vq chains) {c : List Nat}
    (member : c ∈ chains) : reserved vq (chainHead c) = c := by
  obtain ⟨n, shape⟩ := inv.chain_eq member
  have length : c.length = n + 1 := by rw [shape, length_follow]
  rw [reserved, inv.counted c member, length]
  exact shape.symm

theorem PackedLedgerInv.partitioned (inv : PackedLedgerInv num s d) : IdsPartitioned s := by
  obtain ⟨chains, ids, heads⟩ := inv.chains
  have mapped : s.inflight.map (reserved s.vq) = chains := by
    rw [heads, map_map]
    exact (map_congr_left fun c member => ids.reserved_head member).trans (map_id chains)
  have each : ∀ id ∈ s.inflight, ∃ c ∈ chains, chainHead c = id ∧ reserved s.vq id = c := by
    intro id flying
    rw [heads] at flying
    obtain ⟨c, member, rfl⟩ := mem_map.mp flying
    exact ⟨c, member, rfl, ids.reserved_head member⟩
  refine ⟨ids.free_nodup, ?_, ids.headLt, inv.inflight_nodup, ?_, ?_, ?_, ?_, ?_⟩
  · intro i free
    simpa using ids.pool.free_mem free
  · intro id flying
    obtain ⟨c, member, -, shape⟩ := each id flying
    rw [shape]
    exact (nodup_flatten.mp (ids.pool.chains_nodup nodup_range)).1 c member
  · intro id flying
    obtain ⟨c, member, rfl, shape⟩ := each id flying
    rw [shape]
    refine ⟨?_, ids.ended c member⟩
    obtain ⟨n, follows⟩ := ids.chain_eq member
    rw [follows]
    rfl
  · rw [mapped]
    exact ids.pool.pairwise_disjoint nodup_range
  · intro id flying
    obtain ⟨c, member, -, shape⟩ := each id flying
    rw [shape]
    exact ids.pool.free_disjoint nodup_range member
  · have sizes : s.inflight.map (fun id => (s.vq.descState id).num) = chains.map List.length := by
      rw [heads, map_map]
      exact map_congr_left fun c member => ids.counted c member
    rw [sizes]
    exact ids.total

/-- Neither `add_buf` nor `get_buf` nor `detach_unused_buf` stops the system. -/
structure NoBugCheck (s : PackedLedger α) : Prop where
  add : ∀ r, packedLedgerStep s (.add r) ≠ .error .bugCheck
  get : packedLedgerStep s .get ≠ .error .bugCheck
  detach : packedLedgerStep s .detach ≠ .error .bugCheck

theorem PackedLedgerInv.noBugCheck (inv : PackedLedgerInv num s d)
    (attached : Attached (tokens s.vq) s.inflight) : NoBugCheck s := by
  refine ⟨fun r bad => ?_, fun bad => ?_, fun bad => ?_⟩
  · rcases inv.add_cases r with hang | same | ⟨_, n, -, -, ok⟩
    · rw [hang] at bad
      cases bad
    · rw [same] at bad
      cases bad
    · rw [ok] at bad
      cases bad
  · rcases inv.get_cases with same | ⟨id, _, oldest, ⟨none, -⟩ | ok⟩
    · rw [same] at bad
      cases bad
    · exact attached id (inv.inFlight id (by simp [oldest])) none
    · rw [ok] at bad
      cases bad
  · rcases PackedLedgerInv.detach_cases s with ⟨bare, short, -⟩ | same | ⟨id, -, ok⟩
    · -- Without a token there is no buffer in flight, so all ids are free.
      obtain ⟨chains, ids, heads⟩ := inv.chains
      have none : chains = [] := by
        by_contra some
        obtain ⟨c, member⟩ := exists_mem_of_ne_nil _ some
        have flying : chainHead c ∈ s.inflight := heads ▸ mem_map_of_mem member
        have missing := find?_eq_none.mp bare (chainHead c) (mem_range.mpr (ids.head_lt member))
        exact missing (Option.isSome_iff_ne_none.mpr (attached _ flying))
      have total := ids.total
      rw [none] at total
      exact short total
    · rw [same] at bad
      cases bad
    · rw [ok] at bad
      cases bad

/-- **The packed queue's ids stay partitioned** and no `BUG_ON` or `BAD_RING` is reached,
in every run in which each buffer has a token and `detach_unused_buf` takes only
buffers the device has not returned. -/
theorem ids_partitioned_of_reachable {num : Nat} {s : PackedLedger α} (pos : 0 < num)
    (small : num ≤ 2 ^ 15) (reach : Reachable (· = freshPacked α num) (Next packedLedgerStep
        (PackedAllowed (fun _ => BufferRequest.HasOpaque) TakesUnreturnedPacked)) s) :
    IdsPartitioned s ∧ NoBugCheck s := by
  obtain ⟨⟨d, inv⟩, attached⟩ := tokens_attached_of_reachable pos small reach
  exact ⟨inv.partitioned, inv.noBugCheck attached⟩

/-- A buffer is detached, its id reused, and a younger one returned: the partition after
that run. -/
theorem ids_partitioned_after_detach :
    ∃ s : PackedLedger Unit, s.inflight = [0] ∧ s.vq.numFree = 2 ∧ IdsPartitioned s := by
  have replay : ∃ s ∈ attempt packedLedgerStep
      (PackedAllowed (fun _ => BufferRequest.HasOpaque) TakesUnreturnedPacked)
      (freshPacked Unit 4) [.add (oneBuffer (some ())), .add (oneBuffer (some ())),
        .complete 1 512 0, .detach, .add twoBuffers, .get],
      s.inflight = [0] ∧ s.vq.numFree = 2 := by
    decide
  obtain ⟨s, reach, inflight, free⟩ := reachable_of_replay _ replay
  exact ⟨s, inflight, free, (ids_partitioned_of_reachable (by decide) (by decide) reach).1⟩

/-- A buffer the device has returned is detached before it is collected, or a buffer
without a token is collected: either stops the system. -/
theorem bad_ring_after_detach : (¬ ∀ num : Nat, 0 < num → num ≤ 2 ^ 15 → ∀ s : PackedLedger Unit,
      Reachable (· = freshPacked Unit num) (Next packedLedgerStep
        (PackedAllowed (fun _ => BufferRequest.HasOpaque) fun _ => True)) s →
      IdsPartitioned s ∧ NoBugCheck s) ∧
    ¬ ∀ num : Nat, 0 < num → num ≤ 2 ^ 15 → ∀ s : PackedLedger Unit,
      Reachable (· = freshPacked Unit num) (Next packedLedgerStep
        (PackedAllowed (fun _ _ => True) TakesUnreturnedPacked)) s →
      IdsPartitioned s ∧ NoBugCheck s := by
  constructor
  · intro always
    have replay : ∃ s ∈ attempt packedLedgerStep
        (PackedAllowed (fun _ => BufferRequest.HasOpaque) fun _ => True) (freshPacked Unit 2)
        [.add (oneBuffer (some ())), .complete 0 512 0, .detach],
        faultOf (packedLedgerStep s .get) = some .bugCheck := by
      decide
    obtain ⟨s, reach, fault⟩ := reachable_of_replay _ replay
    exact (always 2 (by decide) (by decide) s reach).2.get (eq_error_of_faultOf fault)
  · intro always
    have replay : ∃ s ∈ attempt packedLedgerStep
        (PackedAllowed (fun _ _ => True) TakesUnreturnedPacked)
        (freshPacked Unit 2) [.add (oneBuffer none), .complete 0 512 0],
        faultOf (packedLedgerStep s .get) = some .bugCheck := by
      decide
    obtain ⟨s, reach, fault⟩ := reachable_of_replay _ replay
    exact (always 2 (by decide) (by decide) s reach).2.get (eq_error_of_faultOf fault)

end KvmGuestDrivers.VirtIO

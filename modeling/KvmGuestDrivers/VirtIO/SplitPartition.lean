/-
# VirtIO.SplitPartition -- the descriptor table over whole runs of a split queue

A `SplitLedger` is a queue with two ghost lists: the heads added and not yet given
back, and among them the heads the device has put into the used ring and
`get_buf` has not collected.  The operations are the driver's `add_buf`, `get_buf`
and `detach_unused_buf` and the device's completion of a head that is in flight and
not completed already.

`partitioned_of_reachable`: the table stays partitioned into free list and chains,
and no call hangs, in every run in which `detach_unused_buf` takes only chains the
device has not returned.  Its comment in the source asks for that ("a
not-yet-returned buffer").  The code does not check it, and without it the
partition is lost: `partition_lost_after_detach` replays completion, detach,
collection of one and the same chain, which then is put on the free list twice.
-/
import KvmGuestDrivers.VirtIO.SplitInvariant
import KvmGuestDrivers.Theory.Calls

namespace KvmGuestDrivers.VirtIO

set_option autoImplicit false

open Theory List

variable {α : Type}

/-! ## Runs -/

variable (vq : VirtqueueSplit α)

def lastPublished : Nat :=
  vq.availRing (descIndex vq.num ((vq.availIdx + (2 ^ 16 - 1)) % 2 ^ 16))

/-- A queue, the heads in flight, and those of them waiting in the used ring. -/
structure SplitLedger (α : Type) where
  vq : VirtqueueSplit α
  inflight : List Nat
  completed : List Nat

inductive LedgerOp (α : Type) where
  | add (r : BufferRequest α)
  | complete (head len : Nat)
  | get
  | detach

variable (s : SplitLedger α)

def ledgerStep : LedgerOp α → Except Fault (SplitLedger α × Unit)
  | .add r =>
    let (ret, vq) := addSplit s.vq r
    .ok ({ s with
      vq
      inflight := if ret = vqAddBufferSuccess then lastPublished vq :: s.inflight
        else s.inflight }, ())
  | .complete head len =>
    .ok ({ s with vq := deviceUse s.vq head len, completed := s.completed ++ [head] }, ())
  | .get =>
    match virtqueueGetBufSplit s.vq with
    | .error e => .error e
    | .ok (vq, none) => .ok ({ s with vq }, ())
    | .ok (vq, some _) =>
      .ok ({ vq
             inflight := s.inflight.erase (nextUsedHead s.vq)
             completed := s.completed.tail }, ())
  | .detach =>
    match virtqueueDetachUnusedBufSplit s.vq with
    | .error e => .error e
    | .ok (vq, _) =>
      match firstAttached s.vq.opaquePtr (s.vq.num % 2 ^ 16) with
      | none => .ok ({ s with vq }, ())
      | some idx => .ok ({ s with vq, inflight := s.inflight.erase idx }, ())

variable (mayAdd : BufferRequest α → Prop)

variable (mayDetach : SplitLedger α → Prop)

/-- The device completes a head in flight, once; `mayAdd` and `mayDetach` restrict
the driver. -/
def LedgerAllowed (s : SplitLedger α) : LedgerOp α → Prop
  | .add r => mayAdd r
  | .complete head _ => head ∈ s.inflight ∧ head ∉ s.completed
  | .get => True
  | .detach => mayDetach s

instance [DecidablePred mayAdd] [DecidablePred mayDetach] (s : SplitLedger α) (op : LedgerOp α) :
    Decidable (LedgerAllowed mayAdd mayDetach s op) := by
  unfold LedgerAllowed
  split <;> infer_instance

/-- A queue fresh from `vring_new_virtqueue_split`. -/
def Fresh (num : Nat) (ev : Bool) (s : SplitLedger α) : Prop :=
  vringNewVirtqueueSplit α num ev = .ok (some s.vq) ∧ s.inflight = [] ∧ s.completed = []

/-- The chain `detach_unused_buf` would take has not been returned by the device. -/
def TakesUnreturned : Prop :=
  ∀ idx, firstAttached s.vq.opaquePtr (s.vq.num % 2 ^ 16) = some idx → idx ∉ s.completed

instance : DecidablePred (TakesUnreturned (α := α)) := fun s =>
  inferInstanceAs (Decidable (∀ idx ∈ firstAttached s.vq.opaquePtr (s.vq.num % 2 ^ 16),
    idx ∉ s.completed))

/-! ## The partition -/

def chainAt (head : Nat) : List Nat :=
  (chainFrom vq.desc (2 ^ 16) head).getD []

def freeList : List Nat := follow vq.next vq.firstUnused vq.numUnused

/-- The descriptor table is partitioned into the free list and the chains of the
heads in flight. -/
structure Partitioned : Prop where
  ended : ∀ h ∈ s.inflight, chainFrom s.vq.desc (2 ^ 16) h ≠ none
  freeDistinct : (freeList s.vq).Nodup
  freeInTable : ∀ i ∈ freeList s.vq, i < s.vq.num
  headsDistinct : s.inflight.Nodup
  chainsApart : (s.inflight.map (chainAt s.vq)).Pairwise List.Disjoint
  freeApart : ∀ h ∈ s.inflight, List.Disjoint (freeList s.vq) (chainAt s.vq h)
  total : s.vq.numUnused + (s.inflight.map fun h => (chainAt s.vq h).length).sum = s.vq.num
  pointers : ∀ i, s.vq.opaquePtr i ≠ none ↔ i ∈ s.inflight

variable {chains left : List (List Nat)} {s t : SplitLedger α} {num : Nat} {mayAdd} {vq} {ev : Bool}
  {op : LedgerOp α} {rest : List Nat}

theorem SplitInv.chainAt_head (inv : SplitInv vq chains) {c : List Nat} (member : c ∈ chains) :
    chainAt vq (chainHead c) = c := by
  rw [chainAt, inv.chainFrom_head member]
  rfl

theorem SplitInv.map_chainAt (inv : SplitInv vq chains) :
    (chains.map chainHead).map (chainAt vq) = chains := by
  rw [map_map]
  refine (map_congr_left fun c member => ?_).trans (map_id chains)
  exact inv.chainAt_head member

/-- The chains in flight and the free list share out the descriptors. -/
theorem SplitInv.partitioned (inv : SplitInv s.vq chains)
    (heads : s.inflight = chains.map chainHead) (attached : Attached s.vq.opaquePtr s.inflight) :
    Partitioned s where
  ended := by
    intro h member
    rw [heads] at member
    obtain ⟨c, hc, rfl⟩ := mem_map.mp member
    rw [inv.chainFrom_head hc]
    exact Option.some_ne_none c
  freeDistinct := inv.free_nodup
  freeInTable := by
    intro i free
    simpa using inv.pool.free_mem free
  headsDistinct := by
    rw [heads]
    exact inv.heads_nodup
  chainsApart := by
    rw [heads, inv.map_chainAt]
    exact inv.pool.pairwise_disjoint nodup_range
  freeApart := by
    intro h member
    rw [heads] at member
    obtain ⟨c, hc, rfl⟩ := mem_map.mp member
    rw [inv.chainAt_head hc]
    exact inv.pool.free_disjoint nodup_range hc
  total := by
    have total := inv.pool.total
    rw [length_range] at total
    have lengths : s.inflight.map (fun h => (chainAt s.vq h).length) = chains.map List.length := by
      rw [heads]
      have mapped := congrArg (List.map List.length) inv.map_chainAt
      rwa [map_map] at mapped
    rw [lengths]
    exact total
  pointers i := ⟨fun set => heads ▸ inv.owned i set, attached i⟩

/-! ## The invariant of a run -/

/-- The used ring between `last_used` and the device's index holds the completed
heads, oldest first; they are in flight and distinct. -/
structure LedgerInv (num : Nat) (s : SplitLedger α) : Prop where
  chains : ∃ chains, SplitInv s.vq chains ∧ s.inflight = chains.map chainHead
  numEq : s.vq.num = num
  distinct : s.completed.Nodup
  inFlight : ∀ h ∈ s.completed, h ∈ s.inflight
  used : Window (fun p => (s.vq.usedRing p).id) num s.vq.lastUsed s.completed
  usedIdx : s.vq.usedIdx = (s.vq.lastUsed + s.completed.length) % 2 ^ 16
  lastUsed : s.vq.lastUsed < 2 ^ 16
  masterIdx : s.vq.masterIdx < 2 ^ 16

namespace LedgerInv

variable {h : Nat}

section

variable (inv : LedgerInv num s)

include inv

theorem inflight_nodup : s.inflight.Nodup := by
  obtain ⟨chains, split, heads⟩ := inv.chains
  rw [heads]
  exact split.heads_nodup

theorem splitAt (member : h ∈ s.inflight) :
    ∃ before c after, chainHead c = h ∧ SplitInv s.vq (before ++ c :: after) ∧
      s.inflight.erase h = (before ++ after).map chainHead := by
  obtain ⟨chains, split, heads⟩ := inv.chains
  rw [heads] at member ⊢
  obtain ⟨before, c, after, rfl, head, erased⟩ := exists_split_key split.heads_nodup member
  exact ⟨before, c, after, head, split, erased⟩

theorem nextUsedHead_eq (pow : num.isPowerOfTwo) (oldest : s.completed = h :: rest) :
    nextUsedHead s.vq = h := by
  have member : h ∈ s.inflight := inv.inFlight h (by simp [oldest])
  obtain ⟨_, c, _, rfl, split, -⟩ := inv.splitAt member
  have small := split.small
  have bound := split.head_lt (c := c) (by simp)
  have window := inv.used
  rw [oldest] at window
  have front := window.front
  rw [nextUsedHead, descIndex_eq_mod (inv.numEq ▸ pow) (by omega), inv.numEq, front]
  exact Nat.mod_eq_of_lt (by omega)

/-- With entries outstanding, the 16-bit indices differ unless all `2 ^ 16` slots of
the largest ring are outstanding; in no case do they differ without one. -/
theorem oldest_of_ne (pending : s.vq.lastUsed ≠ s.vq.usedIdx) :
    ∃ h rest, s.completed = h :: rest := by
  cases completed : s.completed with
  | nil =>
    have idx := inv.usedIdx
    have bound := inv.lastUsed
    rw [completed] at idx
    simp only [length_nil] at idx
    omega
  | cons h rest => exact ⟨h, rest, rfl⟩

end

end LedgerInv

inductive LedgerMove (s : SplitLedger α) : LedgerOp α → SplitLedger α → Prop where
  | full {r} (refused : addSplit s.vq r = (-enospc, s.vq)) : LedgerMove s (.add r) s
  | added {r vq' n}
      (ok : addSplit s.vq r = (vqAddBufferSuccess, vq')) (added : Added s.vq vq' n r.data) :
      LedgerMove s (.add r) { s with vq := vq', inflight := s.vq.firstUnused :: s.inflight }
  | complete (head len : Nat) :
      LedgerMove s (.complete head len)
        { s with vq := deviceUse s.vq head len, completed := s.completed ++ [head] }
  | empty : LedgerMove s .get s
  | collect {head rest vq' left} (oldest : s.completed = head :: rest) (split : SplitInv vq' left)
      (heads : s.inflight.erase head = left.map chainHead)
      (lastUsed : vq'.lastUsed = (s.vq.lastUsed + 1) % 2 ^ 16)
      (master : vq'.masterIdx = s.vq.masterIdx) (released : Released s.vq vq' head) :
      LedgerMove s .get { vq := vq', inflight := s.inflight.erase head, completed := rest }
  | bare : LedgerMove s .detach s
  | detach {head vq' left} (lowest : firstAttached s.vq.opaquePtr (s.vq.num % 2 ^ 16) = some head)
      (split : SplitInv vq' left) (heads : s.inflight.erase head = left.map chainHead)
      (lastUsed : vq'.lastUsed = s.vq.lastUsed)
      (master : vq'.masterIdx = (s.vq.masterIdx + (2 ^ 16 - 1)) % 2 ^ 16)
      (released : Released s.vq vq' head) :
      LedgerMove s .detach { s with vq := vq', inflight := s.inflight.erase head }

namespace LedgerInv

variable {head : Nat} {vq' : VirtqueueSplit α}

variable (inv : LedgerInv num s)

include inv

theorem move_add (r : BufferRequest α) :
    ∃ t, ledgerStep s (.add r) = .ok (t, ()) ∧ LedgerMove s (.add r) t := by
  obtain ⟨chains, split, _⟩ := inv.chains
  rcases addSplit_spec r split.free_nodup split.count_lt with ⟨-, full⟩ | ⟨vq', n, -, ok, added⟩
  · refine ⟨s, ?_, .full full⟩
    simp only [ledgerStep, full]
    rw [if_neg (by decide)]
  refine ⟨_, ?_, .added ok added⟩
  have master := inv.masterIdx
  have published : lastPublished vq' = s.vq.firstUnused := by
    have slot : ((s.vq.masterIdx + 1) % 2 ^ 16 + (2 ^ 16 - 1)) % 2 ^ 16 = s.vq.masterIdx := by
      omega
    rw [lastPublished, added.availIdx, slot, added.num, added.avail, Function.update_self]
  simp only [ledgerStep, ok, published]
  rfl

theorem move_get (pow : num.isPowerOfTwo) :
    ∃ t, ledgerStep s .get = .ok (t, ()) ∧ LedgerMove s .get t := by
  by_cases pending : s.vq.lastUsed = s.vq.usedIdx
  · exact ⟨s, by simp only [ledgerStep, getSplit_empty pending], .empty⟩
  obtain ⟨h, _, oldest⟩ := inv.oldest_of_ne pending
  have front := inv.nextUsedHead_eq pow oldest
  obtain ⟨_, c, _, rfl, split, erased⟩ := inv.splitAt (inv.inFlight h (by simp [oldest]))
  obtain ⟨_, got, split', -, lastUsed, master, -, released⟩ := getSplit_collect split pending front
  refine ⟨_, ?_, .collect oldest split' erased lastUsed master released⟩
  simp only [ledgerStep, got, front, oldest]
  rfl

theorem move_detach : ∃ t, ledgerStep s .detach = .ok (t, ()) ∧ LedgerMove s .detach t := by
  cases lowest : firstAttached s.vq.opaquePtr (s.vq.num % 2 ^ 16) with
  | none => exact ⟨s, by simp only [ledgerStep, virtqueueDetachUnusedBufSplit, lowest], .bare⟩
  | some idx =>
    obtain ⟨chains, split, heads⟩ := inv.chains
    have attached : s.vq.opaquePtr idx ≠ none := by
      have found := find?_some lowest
      exact Option.isSome_iff_ne_none.mp found
    have flying : idx ∈ s.inflight := by
      rw [heads]
      exact split.owned idx attached
    obtain ⟨_, c, _, rfl, split, erased⟩ := inv.splitAt flying
    obtain ⟨_, got, split', lastUsed, master, released⟩ := detachSplit_take split lowest
    refine ⟨_, ?_, .detach lowest split' erased lastUsed master released⟩
    simp only [ledgerStep, got, lowest]

/-- Every operation succeeds and is a move. -/
theorem move (pow : num.isPowerOfTwo) (op : LedgerOp α) :
    ∃ t, ledgerStep s op = .ok (t, ()) ∧ LedgerMove s op t := by
  cases op with
  | add r => exact inv.move_add r
  | complete head len => exact ⟨_, rfl, .complete head len⟩
  | get => exact inv.move_get pow
  | detach => exact inv.move_detach

theorem keep_added {n : Nat} {data : Option α} (added : Added s.vq vq' n data) :
    LedgerInv num { s with vq := vq', inflight := s.vq.firstUnused :: s.inflight } := by
  obtain ⟨chains, split, heads⟩ := inv.chains
  refine ⟨⟨_, split.added added, ?_⟩, added.num.trans inv.numEq, inv.distinct, ?_, ?_, ?_, ?_, ?_⟩
  · simp [heads]
  · intro h member
    exact mem_cons_of_mem _ (inv.inFlight h member)
  · simpa only [added.usedRing, added.lastUsed] using inv.used
  · simpa only [added.usedIdx, added.lastUsed] using inv.usedIdx
  · simpa only [added.lastUsed] using inv.lastUsed
  · simp only [added.masterIdx]
    omega

theorem keep_complete (pow : num.isPowerOfTwo) (len : Nat) (flying : head ∈ s.inflight)
    (once : head ∉ s.completed) :
    LedgerInv num { s with vq := deviceUse s.vq head len, completed := s.completed ++ [head] } := by
  obtain ⟨chains, split, heads⟩ := inv.chains
  have small := split.small
  have numEq := inv.numEq
  have distinct : (s.completed ++ [head]).Nodup := by
    rw [nodup_append]
    refine ⟨inv.distinct, by simp, ?_⟩
    intro a ha b hb same
    obtain rfl : b = head := by simpa using hb
    exact once (same ▸ ha)
  have inFlight : ∀ h ∈ s.completed ++ [head], h ∈ s.inflight := by
    exact forall_mem_concat inv.inFlight flying
  -- The completed heads are distinct heads in flight, so there is a free used slot.
  have room : s.completed.length < num := by
    have sub := List.Nodup.length_le_of_subset distinct (fun h member => inFlight h member)
    have few := split.chains_length_le
    rw [heads, length_map] at sub
    simp only [length_append, length_singleton] at sub
    omega
  have slot : s.vq.usedIdx % num = (s.vq.lastUsed + s.completed.length) % num := by
    rw [inv.usedIdx, Nat.mod_mod_of_dvd _ (dvd_of_isPowerOfTwo pow (by omega))]
  refine ⟨⟨chains, split.congr rfl rfl rfl rfl rfl, heads⟩, numEq, distinct, inFlight, ?_, ?_,
    inv.lastUsed, inv.masterIdx⟩
  · have pushed := inv.used.push room head
    have ids : (fun p => ((deviceUse s.vq head len).usedRing p).id) =
        Function.update (fun p => (s.vq.usedRing p).id)
          ((s.vq.lastUsed + s.completed.length) % num) head := by
      funext p
      simp only [deviceUse, numEq, slot, Function.update_apply]
      split <;> rfl
    rw [ids]
    exact pushed
  · have idx := inv.usedIdx
    simp only [deviceUse, length_append, length_singleton]
    omega

theorem keep_collect (pow : num.isPowerOfTwo) (oldest : s.completed = head :: rest)
    (split : SplitInv vq' left) (heads : s.inflight.erase head = left.map chainHead)
    (lastUsed : vq'.lastUsed = (s.vq.lastUsed + 1) % 2 ^ 16)
    (master : vq'.masterIdx = s.vq.masterIdx) (released : Released s.vq vq' head) :
    LedgerInv num { vq := vq', inflight := s.inflight.erase head, completed := rest } := by
  have distinct := inv.distinct
  rw [oldest, nodup_cons] at distinct
  refine ⟨⟨_, split, heads⟩, released.num.trans inv.numEq, distinct.2, ?_, ?_, ?_, ?_, ?_⟩
  · intro h member
    have ne : h ≠ head := by
      rintro rfl
      exact distinct.1 member
    exact (mem_erase_of_ne ne).mpr (inv.inFlight h (by simp [oldest, member]))
  · have window := inv.used
    have small := released.num.symm.trans_le split.small
    have numEq := inv.numEq
    rw [oldest] at window
    simp only [released.usedRing, lastUsed]
    refine window.pop.rebase ?_
    rw [Nat.mod_mod_of_dvd _ (dvd_of_isPowerOfTwo pow (by omega))]
  · have idx := inv.usedIdx
    rw [oldest, length_cons] at idx
    simp only [released.usedIdx]
    omega
  · simp only
    omega
  · simp only [master]
    exact inv.masterIdx

theorem keep_detach (split : SplitInv vq' left) (heads : s.inflight.erase head = left.map chainHead)
    (lastUsed : vq'.lastUsed = s.vq.lastUsed)
    (master : vq'.masterIdx = (s.vq.masterIdx + (2 ^ 16 - 1)) % 2 ^ 16)
    (released : Released s.vq vq' head) (unreturned : head ∉ s.completed) :
    LedgerInv num { s with vq := vq', inflight := s.inflight.erase head } := by
  refine ⟨⟨_, split, heads⟩, released.num.trans inv.numEq, inv.distinct, ?_, ?_, ?_, ?_, ?_⟩
  · intro h member
    have ne : h ≠ head := by
      rintro rfl
      exact unreturned member
    exact (mem_erase_of_ne ne).mpr (inv.inFlight h member)
  · simpa only [released.usedRing, lastUsed] using inv.used
  · simpa only [released.usedIdx, lastUsed] using inv.usedIdx
  · simpa only [lastUsed] using inv.lastUsed
  · simp only
    omega

/-- An allowed move keeps the ledger. -/
theorem keep (pow : num.isPowerOfTwo) (allowed : LedgerAllowed mayAdd TakesUnreturned s op)
    (move : LedgerMove s op t) : LedgerInv num t := by
  cases move with
  | full | empty | bare => exact inv
  | added ok added => exact inv.keep_added added
  | complete _ len => exact inv.keep_complete pow len allowed.1 allowed.2
  | collect oldest split heads lastUsed master released =>
    exact inv.keep_collect pow oldest split heads lastUsed master released
  | detach lowest split heads lastUsed master released =>
    exact inv.keep_detach split heads lastUsed master released (allowed _ lowest)

theorem keep_attached {mayDetach : SplitLedger α → Prop}
    (allowed : LedgerAllowed BufferRequest.HasOpaque mayDetach s op) (move : LedgerMove s op t)
    (attached : Attached s.vq.opaquePtr s.inflight) : Attached t.vq.opaquePtr t.inflight := by
  cases move with
  | full | complete | empty | bare => exact attached
  | added ok added =>
    simp only [added.pointers]
    exact attached.add _ (Option.isSome_iff_ne_none.mp allowed)
  | collect _ _ _ _ _ released | detach _ _ _ _ _ released =>
    simp only [released.pointers]
    exact attached.erase inv.inflight_nodup _

end LedgerInv

theorem ledgerInv_fresh (pow : num.isPowerOfTwo) (fresh : Fresh num ev s) : LedgerInv num s := by
  obtain ⟨vq, _, _⟩ := s
  obtain ⟨new, rfl, rfl⟩ := fresh
  have split := splitInv_created pow new
  obtain ⟨-, rfl⟩ := created pow new
  exact ⟨⟨[], split, rfl⟩, rfl, nodup_nil, by simp, window_nil _ _ _, rfl,
    Nat.two_pow_pos 16, Nat.two_pow_pos 16⟩

theorem ledgerInv_of_reachable (pow : num.isPowerOfTwo)
    (reach : Reachable (Fresh num ev) (Next ledgerStep (LedgerAllowed mayAdd TakesUnreturned)) s) :
    LedgerInv num s := by
  refine reach.machine_invariant (fun s fresh => ledgerInv_fresh pow fresh) ?_
  intro s op inv allowed
  obtain ⟨t, stepped, move⟩ := inv.move pow op
  exact ⟨t, (), stepped, inv.keep pow allowed move⟩

theorem attached_of_reachable (pow : num.isPowerOfTwo) (reach : Reachable (Fresh num ev)
      (Next ledgerStep (LedgerAllowed BufferRequest.HasOpaque TakesUnreturned)) s) :
    LedgerInv num s ∧ Attached s.vq.opaquePtr s.inflight := by
  refine reach.machine_invariant
    (P := fun s => LedgerInv num s ∧ Attached s.vq.opaquePtr s.inflight) ?_ ?_
  · intro s fresh
    refine ⟨ledgerInv_fresh pow fresh, fun h member => ?_⟩
    rw [fresh.2.1] at member
    cases member
  · rintro s op ⟨inv, attached⟩ allowed
    obtain ⟨t, stepped, move⟩ := inv.move pow op
    exact ⟨t, (), stepped, inv.keep pow allowed move, inv.keep_attached allowed move attached⟩

/-- **The split queue's table stays partitioned.**  In every run in which
`detach_unused_buf` takes only chains the device has not returned, the free list and
the chains in flight partition the descriptor table, and `get_buf` and
`detach_unused_buf` return. -/
theorem partitioned_of_reachable {num : Nat} {ev : Bool} {s : SplitLedger α}
    (pow : num.isPowerOfTwo) (reach : Reachable (Fresh num ev)
      (Next ledgerStep (LedgerAllowed BufferRequest.HasOpaque TakesUnreturned)) s) :
    Partitioned s ∧ (∃ t, ledgerStep s .get = .ok t) ∧ ∃ t, ledgerStep s .detach = .ok t := by
  obtain ⟨inv, attached⟩ := attached_of_reachable pow reach
  obtain ⟨chains, split, heads⟩ := inv.chains
  obtain ⟨_, got, -⟩ := inv.move pow .get
  obtain ⟨_, detached, -⟩ := inv.move pow .detach
  exact ⟨split.partitioned heads attached, ⟨_, got⟩, ⟨_, detached⟩⟩

/-! ## Concrete runs -/

def freshLedger (α : Type) (num : Nat) (ev : Bool) : SplitLedger α :=
  ⟨newSplit α num ev, [], []⟩

theorem fresh_freshLedger (ev : Bool) (pow : num.isPowerOfTwo) (small : num ≤ 2 ^ 16) :
    Fresh num ev (freshLedger α num ev) :=
  ⟨vringNewVirtqueueSplit_eq ev pow small, rfl, rfl⟩

/-- Two buffers added and the second returned: the partition after that run. -/
theorem partitioned_after_out_of_order :
    ∃ s : SplitLedger Unit, s.inflight = [0] ∧ s.vq.numUnused = 1 ∧ Partitioned s := by
  have replay : ∃ s ∈ attempt ledgerStep (LedgerAllowed BufferRequest.HasOpaque TakesUnreturned)
      (freshLedger Unit 2 false)
      [.add (oneBuffer (some ())), .add (oneBuffer (some ())), .complete 1 512, .get],
      s.inflight = [0] ∧ s.vq.numUnused = 1 := by
    decide
  obtain ⟨s, run, inflight, unused⟩ := replay
  have reach := reachable_of_attempt _ (.start (fresh_freshLedger false ⟨1, rfl⟩ (by decide))) run
  exact ⟨s, inflight, unused, (partitioned_of_reachable ⟨1, rfl⟩ reach).1⟩

/-- Without the restriction on `detach_unused_buf` the partition is lost: the device
returns a chain, the driver detaches it and then collects the used entry. -/
theorem partition_lost_after_detach :
    ¬ ∀ (num : Nat) (ev : Bool), num.isPowerOfTwo → ∀ s : SplitLedger Unit,
      Reachable (Fresh num ev)
        (Next ledgerStep (LedgerAllowed BufferRequest.HasOpaque fun _ => True)) s →
        Partitioned s := by
  intro always
  have replay : ∃ s ∈ attempt ledgerStep (LedgerAllowed BufferRequest.HasOpaque fun _ => True)
      (freshLedger Unit 2 false) [.add (oneBuffer (some ())), .complete 0 512, .detach, .get],
      s.vq.num = 2 ∧ s.vq.numUnused = 4 := by
    decide
  obtain ⟨s, run, _, _⟩ := replay
  have reach := reachable_of_attempt _ (.start (fresh_freshLedger false ⟨1, rfl⟩ (by decide))) run
  have total := (always 2 false ⟨1, rfl⟩ s reach).total
  omega

end KvmGuestDrivers.VirtIO

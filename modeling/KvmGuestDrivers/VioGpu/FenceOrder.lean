/-
# VioGpu.FenceOrder -- which DMA fences are notified

`ShouldNotifyDmaFence` keeps, for each tracked node and engine, the last fence that was notified.
A call reads the slot and then tries to exchange it against its own fence, again and again, as long
as the fence is newer than what it has read or the slot is 0.  Other calls work on the slot
in between.
-/
import Mathlib.Data.List.Chain
import KvmGuestDrivers.Theory.Calls
import KvmGuestDrivers.Theory.Transition

namespace KvmGuestDrivers.VioGpu

open Theory List

set_option autoImplicit false

/-- `IsFenceStrictlyNewer`: the difference, as a `LONG`, is positive. -/
def isFenceStrictlyNewer (candidateFence lastFence : BitVec 32) : Bool :=
  decide (0 < (candidateFence - lastFence).toInt)

inductive NotifyPoint where
  | reading
  /-- In the loop, before `InterlockedCompareExchange`. -/
  | exchanging (observed : BitVec 32)
  | returned (notify : Bool)

/-- The condition of the loop, for the value that was read last. -/
def observe (fenceId observed : BitVec 32) : NotifyPoint :=
  if observed = 0 ∨ isFenceStrictlyNewer fenceId observed = true then .exchanging observed
  else .returned false

/-- One entry of `m_lastNotifiedFence`, the calls on it with their fences, and the fences that were
accepted. -/
structure FenceSlot where
  lastNotified : BitVec 32
  calls : List (BitVec 32 × NotifyPoint)
  notified : List (BitVec 32)

inductive NotifyOp where
  | call (fenceId : BitVec 32)
  | step (i : Nat)

variable (s : FenceSlot)

def notifyMove : NotifyOp → FenceSlot
  | .call fenceId => { s with calls := s.calls ++ [(fenceId, .reading)] }
  | .step i =>
    match s.calls[i]? with
    | some (fenceId, .reading) =>
      { s with calls := s.calls.set i (fenceId, observe fenceId s.lastNotified) }
    | some (fenceId, .exchanging observed) =>
      if s.lastNotified = observed then
        { lastNotified := fenceId
          calls := s.calls.set i (fenceId, .returned true)
          notified := s.notified ++ [fenceId] }
      -- the exchange returns what it found
      else { s with calls := s.calls.set i (fenceId, observe fenceId s.lastNotified) }
    | _ => s

def notifyStep (op : NotifyOp) : Except Empty (FenceSlot × Unit) :=
  .ok (notifyMove s op, ())

def freshSlot : FenceSlot := ⟨0, [], []⟩

/-- No call is for the fence 0, which means that nothing was notified. -/
def NonzeroFence (_ : FenceSlot) : NotifyOp → Prop
  | .call fenceId => fenceId ≠ 0
  | .step _ => True

instance : (op : NotifyOp) → Decidable (NonzeroFence s op)
  | .call _ | .step _ => by unfold NonzeroFence; infer_instance

/-- A call of a fence other than 0 exchanges only a value that its fence may follow. -/
def MayFollow (c : BitVec 32 × NotifyPoint) : Prop :=
  c.1 ≠ 0 ∧ ∀ observed, c.2 = .exchanging observed →
    observed = 0 ∨ isFenceStrictlyNewer c.1 observed = true

structure Newest (s : FenceSlot) : Prop where
  slot : s.lastNotified = s.notified.getLast?.getD 0
  nonzero : ∀ fence ∈ s.notified, fence ≠ 0
  calls : ∀ c ∈ s.calls, MayFollow c
  chain : s.notified.IsChain fun last fence => isFenceStrictlyNewer fence last = true

variable {fenceId : BitVec 32}

theorem mayFollow_observe (nonzero : fenceId ≠ 0) (observed : BitVec 32) :
    MayFollow (fenceId, observe fenceId observed) := by
  refine ⟨nonzero, ?_⟩
  intro seen loops
  simp only [observe] at loops
  split at loops
  · rename_i may
    obtain rfl := NotifyPoint.exchanging.inj loops
    exact may
  · cases loops

variable {s}

theorem Newest.last {last : BitVec 32} (inv : Newest s) (there : last ∈ s.notified.getLast?) :
    s.lastNotified = last ∧ last ≠ 0 := by
  have found : s.notified.getLast? = some last := there
  constructor
  · rw [inv.slot, found]
    rfl
  · exact inv.nonzero last (mem_of_getLast? found)

theorem Newest.exchange (inv : Newest s) (i : Nat)
    (own : MayFollow (fenceId, .exchanging s.lastNotified)) : Newest
      { lastNotified := fenceId
        calls := s.calls.set i (fenceId, .returned true)
        notified := s.notified ++ [fenceId] } where
  slot := by simp
  nonzero := forall_mem_concat inv.nonzero own.1
  calls := forall_mem_set inv.calls ⟨own.1, fun _ impossible => nomatch impossible⟩
  chain := by
    refine isChain_append.mpr ⟨inv.chain, isChain_singleton _, ?_⟩
    intro last there fence first
    cases first
    obtain ⟨same, nonzero⟩ := inv.last there
    rw [← same] at nonzero ⊢
    exact (own.2 _ rfl).resolve_left nonzero

theorem Newest.move {op : NotifyOp} (inv : Newest s) (may : NonzeroFence s op) :
    Newest (notifyMove s op) := by
  cases op with
  | call =>
    exact { inv with
      calls := forall_mem_concat inv.calls ⟨may, fun _ impossible => nomatch impossible⟩ }
  | step i =>
    simp only [notifyMove]
    split
    · rename_i fenceId here
      have nonzero := (inv.calls _ (mem_of_getElem? here)).1
      exact { inv with calls := forall_mem_set inv.calls (mayFollow_observe nonzero _) }
    · rename_i here
      have own := inv.calls _ (mem_of_getElem? here)
      split
      · rename_i same
        subst same
        exact inv.exchange i own
      · exact { inv with calls := forall_mem_set inv.calls (mayFollow_observe own.1 _) }
    · exact inv

theorem newest_of_reachable (reach : Reachable (· = freshSlot) (Next notifyStep NonzeroFence) s) :
    Newest s := by
  refine reach.machine_run ?_ ?_
  · exact ⟨rfl, forall_mem_nil _, forall_mem_nil _, isChain_nil⟩
  · intro s op inv may
    exact ⟨_, (), rfl, inv.move may⟩

theorem isFenceStrictlyNewer_asymm {fence last : BitVec 32}
    (newer : isFenceStrictlyNewer fence last = true) :
    fence ≠ last ∧ isFenceStrictlyNewer last fence = false := by
  simp only [isFenceStrictlyNewer, decide_eq_true_eq, decide_eq_false_iff_not] at newer ⊢
  constructor
  · rintro rfl
    simp at newer
  · intro older
    rw [BitVec.toInt_eq_toNat_cond, BitVec.toNat_sub] at newer older
    omega

/-- **Every fence that is notified is newer than the one before it**, which is neither the same nor
newer in turn. -/
theorem notified_newer {s : FenceSlot}
    (reach : Reachable (· = freshSlot) (Next notifyStep NonzeroFence) s)
    (before after : List (BitVec 32)) (last fence : BitVec 32)
    (order : s.notified = before ++ last :: fence :: after) :
    isFenceStrictlyNewer fence last = true ∧ fence ≠ last ∧
      isFenceStrictlyNewer last fence = false := by
  have chain := (newest_of_reachable reach).chain
  rw [order, isChain_append] at chain
  have newer := (isChain_cons_cons.mp chain.2.1).1
  exact ⟨newer, isFenceStrictlyNewer_asymm newer⟩

/-- Two calls read the slot together, and the one that loses the race reads it again. -/
theorem notified_newer_wrapped :
    ∃ s : FenceSlot, s.notified = [0xfffffffe, 3] ∧ isFenceStrictlyNewer 3 0xfffffffe = true := by
  have replay : ∃ s ∈ attempt notifyStep NonzeroFence freshSlot
      [.call 0xfffffffe, .call 3, .step 0, .step 1, .step 0, .step 1, .step 1],
      s.notified = [] ++ 0xfffffffe :: 3 :: [] := by
    decide +kernel
  obtain ⟨s, reach, order⟩ := reachable_of_replay _ replay
  exact ⟨s, order, (notified_newer reach _ _ _ _ order).1⟩

theorem isFenceStrictlyNewer_iff {last older fence : BitVec 32}
    (near : (older - last).toNat < 2 ^ 31) (window : (fence - last).toNat < 2 ^ 31) :
    isFenceStrictlyNewer fence older = true ↔ (older - last).toNat < (fence - last).toNat := by
  simp only [isFenceStrictlyNewer, decide_eq_true_eq, BitVec.toInt_eq_toNat_cond,
    BitVec.toNat_sub] at near window ⊢
  omega

/-- While the fences notified since `last` are less than 2^31 ahead of it, each is newer than all
of them before it. -/
theorem notified_window (reach : Reachable (· = freshSlot) (Next notifyStep NonzeroFence) s)
    {before after : List (BitVec 32)} {last : BitVec 32}
    (order : s.notified = before ++ last :: after)
    (window : ∀ fence ∈ after, (fence - last).toNat < 2 ^ 31) :
    (last :: after).Pairwise fun older fence => isFenceStrictlyNewer fence older = true := by
  have near : ∀ fence ∈ last :: after, (fence - last).toNat < 2 ^ 31 :=
    forall_mem_cons.mpr ⟨by simp, window⟩
  have chain := (newest_of_reachable reach).chain
  rw [order, isChain_append] at chain
  -- the distance to `last` grows, and so does not return to that of an earlier fence
  have ahead : ((last :: after).map fun fence => (fence - last).toNat).IsChain (· < ·) :=
    (isChain_map _).mpr (chain.2.1.imp_of_mem_imp fun older fence a b newer =>
      (isFenceStrictlyNewer_iff (near older a) (near fence b)).mp newer)
  exact (pairwise_map.mp ahead.pairwise).imp_of_mem fun a b less =>
    (isFenceStrictlyNewer_iff (near _ a) (near _ b)).mpr less

/-- Fence 0 follows fence 2^32 - 1, and leaves the slot as it is before anything was notified; the
old fence is then notified once more. -/
theorem stale_after_zero : ∃ s, Reachable (· = freshSlot) (Next notifyStep fun _ _ => True) s ∧
      s.notified = [0xffffffff, 0, 0xffffffff] ∧
      isFenceStrictlyNewer 0xffffffff 0 = false := by
  refine reachable_of_replay
    [.call 0xffffffff, .step 0, .step 0, .call 0, .step 1, .step 1, .call 0xffffffff, .step 2,
      .step 2] ?_
  decide +kernel

end KvmGuestDrivers.VioGpu

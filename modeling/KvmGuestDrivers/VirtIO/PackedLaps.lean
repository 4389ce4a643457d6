/-
# VirtIO.PackedLaps -- lap bits over whole runs of a packed queue

Two questions about the two-valued lap bits of the packed ring.

* Does the driver know its own lap?  `avail_used_flags` does, always: the loop of
  `add_buf` flips it at the end of the ring.  `avail_wrap_counter` is flipped after the
  loop, if the index has come out *below* where it started.  A direct chain that fills
  the whole ring comes out where it started, passes the end of the ring, and leaves
  the counter behind (`wrap_lost_on_whole_ring`).  As long as no such chain is added
  the two agree with the true lap (`wrapConsistent_of_reachable`).
* Does the driver take a left-over descriptor for a used one?  It does not
  (`isUsed_iff_written`).
-/
import KvmGuestDrivers.VirtIO.PackedPartition
import KvmGuestDrivers.VirtIO.PackedRefinement

namespace KvmGuestDrivers.VirtIO

set_option autoImplicit false

open Theory

variable {α : Type} {num d : Nat}

/-! ## The driver's own lap -/

/-- The driver's index, wrap counter and flags all show the position it has reached. -/
structure WrapConsistent (s : PackedLedger α) : Prop where
  idx : s.vq.nextAvailIdx = s.total % s.vq.num
  counter : s.vq.availWrapCounter = wrapBit s.vq.num s.total
  availBit : (s.vq.availUsedFlags &&& packedDescFAvail != 0) = s.vq.availWrapCounter
  usedBit : (s.vq.availUsedFlags &&& packedDescFUsed != 0) = !s.vq.availWrapCounter

variable (s : PackedLedger α)

/-- The request does not put a direct chain of the ring's length on an empty ring. -/
def LeavesGap (r : BufferRequest α) : Prop :=
  ¬ (WholeRing s.vq.num r ∧ s.vq.numFree = s.vq.num)

instance (r : BufferRequest α) : Decidable (LeavesGap s r) :=
  inferInstanceAs (Decidable (¬ _))

theorem lapFlags_bits (wrap : Bool) : (lapFlags wrap &&& packedDescFAvail != 0) = wrap ∧
      (lapFlags wrap &&& packedDescFUsed != 0) = !wrap := by
  cases wrap <;> decide

/-- One addition moves the wrap counter to the lap of the new position, unless it is a
chain of the ring's length. -/
theorem AddedPacked.wrap_eq {a n : Nat} {vq vq' : VirtqueuePacked α} {data : Option α}
    {whole : Prop} [Decidable whole] (added : AddedPacked a vq vq' n data whole)
    (pos : 0 < vq.num) (short : n + 1 ≤ vq.num) (gap : ¬ whole)
    (counter : vq.availWrapCounter = wrapBit vq.num a) :
    vq'.availWrapCounter = wrapBit vq.num (a + (n + 1)) := by
  rw [added.wrap, counter, wrapBit_advance a pos short]
  by_cases inside : a % vq.num + (n + 1) < vq.num
  · rw [if_pos (.inl inside), if_pos inside]
  · rw [if_neg (by tauto), if_neg inside]

variable {s}

theorem PackedLedgerInv.keep_counter {mayDetach : PackedLedger α → Prop} {op : PackedOp α}
    {t : PackedLedger α} (inv : PackedLedgerInv num s d)
    (allowed : PackedAllowed LeavesGap mayDetach s op) (move : PackedMove s op t)
    (counter : s.vq.availWrapCounter = wrapBit num s.total) :
    t.vq.availWrapCounter = wrapBit num t.total := by
  cases move with
  | stay | complete | collect | detach => exact counter
  | @added r _ n cost added =>
    have enough := added.enough
    have few := inv.count_le
    have numEq := inv.numEq
    have gap : ¬ WholeRing s.vq.num r := by
      -- A chain of the ring's length needs all descriptors free.
      intro whole
      have length : r.cost = s.vq.num := by
        rw [BufferRequest.cost, whole.1]
        exact whole.2
      exact allowed ⟨whole, by omega⟩
    rw [← numEq] at counter ⊢
    exact added.wrap_eq inv.ready.pos (by omega) gap counter

theorem PackedLedgerInv.wrapConsistent (inv : PackedLedgerInv num s d)
    (counter : s.vq.availWrapCounter = wrapBit num s.total) : WrapConsistent s := by
  rw [← inv.numEq] at counter
  have bits := lapFlags_bits (wrapBit s.vq.num s.total)
  refine ⟨inv.ready.idx, counter, ?_, ?_⟩
  · rw [inv.ready.lap, counter]
    exact bits.1
  · rw [inv.ready.lap, counter]
    exact bits.2

/-- **The driver's wrap state is consistent** in every run that adds no direct chain
filling the whole ring. -/
theorem wrapConsistent_of_reachable {num : Nat} {s : PackedLedger α} (pos : 0 < num)
    (small : num ≤ 2 ^ 15) (reach : Reachable (· = freshPacked α num)
      (Next packedLedgerStep (PackedAllowed LeavesGap TakesUnreturnedPacked)) s) :
    WrapConsistent s := by
  have both : (∃ d, PackedLedgerInv num s d) ∧ s.vq.availWrapCounter = wrapBit num s.total := by
    refine reach.invariant (P := fun s => (∃ d, PackedLedgerInv num s d) ∧
      s.vq.availWrapCounter = wrapBit num s.total) ?_ ?_
    · rintro s rfl
      exact ⟨⟨0, packedLedgerInv_fresh pos small⟩, (wrapBit_of_lt pos).symm⟩
    · rintro s t ⟨⟨d, inv⟩, counter⟩ ⟨op, _, allowed, stepped⟩
      have move := inv.move stepped
      exact ⟨inv.keep allowed move, inv.keep_counter allowed move counter⟩
  obtain ⟨⟨d, inv⟩, counter⟩ := both
  exact inv.wrapConsistent counter

/-- Three additions that pass the end of a ring of two. -/
theorem wrapConsistent_after_three : ∃ s : PackedLedger Unit, s.total = 3 ∧ WrapConsistent s := by
  have replay : ∃ s ∈ attempt packedLedgerStep (PackedAllowed LeavesGap TakesUnreturnedPacked)
      (freshPacked Unit 2) [.add (oneBuffer (some ())), .add (oneBuffer (some ())),
        .complete 0 512 0, .get, .add (oneBuffer (some ()))], s.total = 3 := by
    decide
  obtain ⟨s, reach, total⟩ := reachable_of_replay _ replay
  exact ⟨s, total, wrapConsistent_of_reachable (by decide) (by decide) reach⟩

/-- One direct chain of the ring's length leaves the wrap counter a lap behind the
flags. -/
theorem wrap_lost_on_whole_ring : ¬ ∀ num : Nat, 0 < num → num ≤ 2 ^ 15 → ∀ s : PackedLedger Unit,
      Reachable (· = freshPacked Unit num) (Next packedLedgerStep
        (PackedAllowed (fun _ _ => True) fun _ => False)) s → WrapConsistent s := by
  intro always
  have replay : ∃ s ∈ attempt packedLedgerStep (PackedAllowed (fun _ _ => True) fun _ => False)
      (freshPacked Unit 2) [.add twoBuffers],
      s.vq.availUsedFlags = packedDescFUsed ∧ s.vq.availWrapCounter = true := by
    decide
  obtain ⟨s, reach, flags, counter⟩ := reachable_of_replay _ replay
  have consistent := (always 2 (by decide) (by decide) s reach).availBit
  rw [flags, counter] at consistent
  exact absurd consistent (by decide)

/-! ## Left-over descriptors -/

theorem packedRefines_of_reachable {s : PackedSystem α} (pos : 0 < num) (small : num ≤ 2 ^ 15)
    (reach : Reachable (· = packedStart α num) (Next packedStep fun _ _ => True) s) :
    ∃ q, PackedRefines num s q := by
  refine reach.invariant (P := fun s => ∃ q, PackedRefines num s q) ?_ ?_
  · rintro s rfl
    exact ⟨_, packedRefines_start pos small⟩
  rintro s t ⟨q, rel⟩ ⟨op, _, -, stepped⟩
  rcases packedStep_refines s q op rel with ⟨⟨e, fault⟩, -⟩ | ⟨s', ok, rel'⟩
  · rw [fault] at stepped
    cases stepped
  · rw [ok] at stepped
    cases stepped
    exact ⟨_, rel'⟩

/-- **No stale descriptor is reported as used.**  `is_used_desc_packed` at the position
`get_buf` has reached is true exactly if the device has written a used descriptor there
that was not collected. -/
theorem isUsed_iff_written {num : Nat} {s : PackedSystem α} (pos : 0 < num) (small : num ≤ 2 ^ 15)
    (reach : Reachable (· = packedStart α num) (Next packedStep fun _ _ => True) s) :
    isUsedDescPacked s.vq s.vq.lastUsedIdx s.vq.usedWrapCounter = true ↔
      ∃ k, s.collected ≤ k ∧ s.written[k]? = some s.vq.lastUsedIdx := by
  obtain ⟨q, d, u, f, a, _, _, used, sim, -⟩ := packedRefines_of_reachable pos small reach
  have more : isUsedDescPacked s.vq s.vq.lastUsedIdx s.vq.usedWrapCounter = !used.isEmpty :=
    sim.more_eq
  have uncollected : (∃ k, s.collected ≤ k ∧ s.written[k]? = some s.vq.lastUsedIdx) ↔
      s.vq.lastUsedIdx ∈ s.written.drop s.collected := by
    rw [List.mem_iff_getElem?]
    simp only [List.getElem?_drop]
    exact ⟨fun ⟨k, le, here⟩ => ⟨k - s.collected, by rwa [Nat.add_sub_cancel' le]⟩,
      fun ⟨i, here⟩ => ⟨_, Nat.le_add_right _ i, here⟩⟩
  rw [more, uncollected, sim.history, sim.collected.idx, sim.numEq]
  cases used with
  | nil | cons => simp [usedSlots]

/-- A returned buffer is seen at the position the driver has reached. -/
theorem isUsed_iff_written_after_return :
    ∃ s : PackedSystem Unit, s.written = [0, 1] ∧ s.collected = 1 ∧
      (isUsedDescPacked s.vq s.vq.lastUsedIdx s.vq.usedWrapCounter = true ↔
        ∃ k, s.collected ≤ k ∧ s.written[k]? = some s.vq.lastUsedIdx) := by
  have replay : ∃ s ∈ attempt packedStep (fun _ _ => True) (packedStart Unit 2)
      [(⟨0, 0⟩, .add (oneBuffer (some ()))), (⟨1, 0⟩, .add (oneBuffer (some ()))),
        (⟨0, 0⟩, .complete 1 512), (⟨0, 0⟩, .get), (⟨0, 0⟩, .complete 0 512)],
      s.written = [0, 1] ∧ s.collected = 1 := by
    decide
  obtain ⟨s, reach, written, collected⟩ := reachable_of_replay _ replay
  exact ⟨s, written, collected, isUsed_iff_written (by decide) (by decide) reach⟩

end KvmGuestDrivers.VirtIO

/-
# VirtIO.RingEquivalence -- split and packed virtqueues are one queue

Both layouts simulate the abstract queue of `QueueSpec`, so on the same operations
they give the same answers and have the same number of free descriptors, for runs of
any length and whatever each device chooses where its layout leaves it a choice.

The two do differ on a `NULL` token.  The split queue keeps it like any other; the
packed queue takes it for a missing one and stops the system when the buffer comes
back (`rings_differ_on_null_token`).

What the abstract queue does with the tokens is therefore what both layouts do: a run
returns each buffer once (`split_returns_once`, `packed_returns_once`).
-/
import KvmGuestDrivers.VirtIO.SplitRefinement
import KvmGuestDrivers.VirtIO.PackedRefinement
import KvmGuestDrivers.Theory.Calls

namespace KvmGuestDrivers.VirtIO

set_option autoImplicit false

open Theory

variable {α : Type} {q : AbstractQueue α} {op : QueueOp α}

def OpFits : QueueOp α → Prop
  | .add r => r.IndirectFits
  | _ => True

def OpTokened : QueueOp α → Prop
  | .add r => r.HasOpaque
  | _ => True

namespace AbstractQueue

/-- Every buffer in the queue carries a token. -/
structure Tokened (q : AbstractQueue α) : Prop where
  outstanding : ∀ e ∈ q.outstanding, e.data ≠ none
  used : ∀ u ∈ q.used, u.1.data ≠ none

theorem Tokened.step (tokened : q.Tokened) (carries : OpTokened op) : (q.step op).1.Tokened := by
  cases op with
  | add r =>
    rw [AbstractQueue.step]
    split
    · exact tokened
    refine ⟨fun e member => ?_, tokened.used⟩
    rcases List.mem_append.mp member with old | new
    · exact tokened.outstanding e old
    · obtain rfl : e = ⟨r.data, r.cost⟩ := by simpa using new
      exact Option.isSome_iff_ne_none.mp carries
  | complete =>
    rw [AbstractQueue.step]
    split
    · exact tokened
    rename_i e found
    refine ⟨fun e' member => tokened.outstanding e' (List.mem_of_mem_eraseIdx member), ?_⟩
    exact forall_mem_concat tokened.used (tokened.outstanding e (List.mem_of_getElem? found))
  | get =>
    rw [AbstractQueue.step]
    split
    · exact tokened
    rename_i e _ _ used
    refine ⟨tokened.outstanding, fun u member => tokened.used u ?_⟩
    rw [used]
    exact List.mem_cons_of_mem _ member

end AbstractQueue

theorem not_blocked (tokened : q.Tokened) (fits : OpFits op) : ¬ Blocked q op := by
  cases op with
  | add => exact fun unfit => unfit fits
  | complete => exact id
  | get =>
    rintro ⟨e, len, _, used, none⟩
    exact tokened.used (e, len) (by simp [used]) none

theorem le_of_isPowerOfTwo {num : Nat} (pow : num.isPowerOfTwo) (small : num < 2 ^ 16) :
    num ≤ 2 ^ 15 := by
  obtain ⟨k, rfl⟩ := pow
  have exponent : k < 16 := (Nat.pow_lt_pow_iff_right (by decide)).mp small
  exact Nat.pow_le_pow_right (by decide) (by omega)

/-- A split ring answers as the abstract queue does, and ends with what that holds. -/
theorem split_run_refines {num : Nat} {ev : Bool} (pow : num.isPowerOfTwo) (small : num < 2 ^ 16)
    {s : SplitSystem α} (start : SplitStart num ev s) (ops : List (Nat × QueueOp α)) :
    let spec := runSpec AbstractQueue.step (.empty α num) (ops.map Prod.snd)
    ∃ t, run splitStep s ops = .ok (t, spec.2) ∧ SplitRefines num t spec.1 := by
  have ran := run_simulates _ (V := fun _ => True)
    (fun s q op _ rel => splitStep_simulates pow small s q op rel) ops (by simp)
    (splitRefines_start pow start)
  rwa [runSpec_scheduled] at ran

/-- So does a packed ring, if every buffer has a token and fits its indirect area. -/
theorem packed_run_refines {num : Nat} (pos : 0 < num) (small : num ≤ 2 ^ 15)
    (ops : List (PackedChoice × QueueOp α)) (valid : ∀ op ∈ ops, OpFits op.2 ∧ OpTokened op.2) :
    let spec := runSpec AbstractQueue.step (.empty α num) (ops.map Prod.snd)
    ∃ t, run packedStep (packedStart α num) ops = .ok (t, spec.2) ∧ PackedRefines num t spec.1 := by
  obtain ⟨t, ran, rel, -⟩ := run_simulates
    (fun p q => PackedRefines num p q ∧ q.Tokened) (V := fun op => OpFits op.2 ∧ OpTokened op.2)
    (fun p q op valid rel => by
      rcases packedStep_refines p q op rel.1 with ⟨-, blocked⟩ | ⟨p', stepped, rel'⟩
      · exact absurd blocked (not_blocked rel.2 valid.1)
      · exact ⟨p', stepped, rel', rel.2.step valid.2⟩)
    ops valid ⟨packedRefines_start pos small, nofun, nofun⟩
  rw [runSpec_scheduled] at ran rel
  exact ⟨t, ran, rel⟩

/-- Runs of the two layouts on one sequence of operations never stop, answer alike, as
the abstract queue does, and end with the same number of free descriptors. -/
def RunAlike (num : Nat) (s : SplitSystem α) (splitOps : List (Nat × QueueOp α))
    (packedOps : List (PackedChoice × QueueOp α)) : Prop :=
  ∃ s' p' answers, run splitStep s splitOps = .ok (s', answers) ∧
    run packedStep (packedStart α num) packedOps = .ok (p', answers) ∧
    s'.vq.numUnused = p'.vq.numFree ∧
    ∃ q, runSpec AbstractQueue.step (.empty α num) (splitOps.map Prod.snd) = (q, answers) ∧
      s'.vq.numUnused = q.free

/-- **Split and packed virtqueues implement the same abstract queue.** -/
theorem rings_run_alike {num : Nat} {ev : Bool} (pow : num.isPowerOfTwo) (small : num < 2 ^ 16)
    {s : SplitSystem α} (start : SplitStart num ev s) (splitOps : List (Nat × QueueOp α))
    (packedOps : List (PackedChoice × QueueOp α))
    (same : splitOps.map Prod.snd = packedOps.map Prod.snd)
    (fits : ∀ op ∈ splitOps.map Prod.snd, OpFits op)
    (tokened : ∀ op ∈ splitOps.map Prod.snd, OpTokened op) :
    RunAlike num s splitOps packedOps := by
  have valid (op : PackedChoice × QueueOp α) (member : op ∈ packedOps) :
      OpFits op.2 ∧ OpTokened op.2 := by
    have listed : op.2 ∈ splitOps.map Prod.snd := same ▸ List.mem_map_of_mem member
    exact ⟨fits _ listed, tokened _ listed⟩
  obtain ⟨s', splitRun, splitRel⟩ := split_run_refines pow small start splitOps
  obtain ⟨p', packedRun, packedRel⟩ := packed_run_refines (Nat.pos_of_isPowerOfTwo pow)
    (le_of_isPowerOfTwo pow small) packedOps valid
  rw [← same] at packedRun packedRel
  obtain ⟨_, _, _, -, splitFree⟩ := splitRel
  obtain ⟨d, u, f, a, _, _, _, -, packedFree⟩ := packedRel
  have splitCount := congrArg AbstractQueue.free splitFree
  have packedCount := congrArg AbstractQueue.free packedFree
  exact ⟨s', p', _, splitRun, packedRun, splitCount.symm.trans packedCount, _, rfl, splitCount.symm⟩

/-- Two buffers, returned in the opposite order by devices that read ahead by
different amounts. -/
theorem rings_run_alike_out_of_order : RunAlike 2 (splitStart Unit 2 false)
      [(0, .add (oneBuffer (some ()))), (2, .add (oneBuffer (some ()))), (0, .complete 1 512),
        (1, .get)]
      [(⟨0, 0⟩, .add (oneBuffer (some ()))), (⟨0, 0⟩, .add (oneBuffer (some ()))),
        (⟨0, 2⟩, .complete 1 512), (⟨0, 0⟩, .get)] := by
  refine rings_run_alike ⟨1, rfl⟩ (by decide) (splitStart_starts false ⟨1, rfl⟩ (by decide)) _ _ rfl
    ?_ ?_
  · simp [OpFits, oneBuffer, BufferRequest.IndirectFits]
  · simp [OpTokened, oneBuffer, BufferRequest.HasOpaque]

/-- With `NULL` tokens the packed queue stops the system where the split queue
returns the buffer. -/
theorem rings_differ_on_null_token : ¬ ∀ (num : Nat) (ev : Bool), num.isPowerOfTwo → num < 2 ^ 16 →
      ∀ s : SplitSystem Unit, SplitStart num ev s → ∀ splitOps packedOps,
        splitOps.map Prod.snd = packedOps.map Prod.snd →
        (∀ op ∈ splitOps.map Prod.snd, OpFits op) → RunAlike num s splitOps packedOps := by
  intro alike
  obtain ⟨s', p', _, -, packedRun, -⟩ := alike 2 false ⟨1, rfl⟩ (by decide) _
    (splitStart_starts false ⟨1, rfl⟩ (by decide))
    [(0, .add (oneBuffer none)), (0, .complete 0 512), (0, .get)]
    [(⟨0, 0⟩, .add (oneBuffer none)), (⟨0, 0⟩, .complete 0 512), (⟨0, 0⟩, .get)] rfl
    (by simp [OpFits, oneBuffer, BufferRequest.IndirectFits])
  have stops : (run packedStep (packedStart Unit 2)
      [(⟨0, 0⟩, .add (oneBuffer none)), (⟨0, 0⟩, .complete 0 512), (⟨0, 0⟩, .get)]).toBool =
        false := by
    decide
  rw [packedRun] at stops
  cases stops

/-! ## Every buffer comes back once -/

theorem SplitSim.hasBuf_eq {num : Nat} {s : SplitSystem α} {prog pub : List (Flight α)}
    {used : List (Flight α × Nat)} (sim : SplitSim num s prog pub used) (small : num < 2 ^ 16) :
    virtqueueHasBufSplit s.vq = !used.isEmpty := by
  have few := sim.few
  have bound := sim.lastUsed
  rw [virtqueueHasBufSplit, sim.usedIdx]
  cases used with
  | nil =>
    rw [List.length_nil, add_zero, Nat.mod_eq_of_lt bound]
    simp
  | cons =>
    rw [List.length_cons] at few ⊢
    simp only [List.isEmpty_cons, Bool.not_false, bne_iff_ne]
    omega

/-- **The split queue returns every buffer once**, and `has_buf` tells whether there is one to
collect. -/
theorem split_returns_once {num : Nat} {ev : Bool} (pow : num.isPowerOfTwo) (small : num < 2 ^ 16)
    {s : SplitSystem α} (start : SplitStart num ev s) (ops : List (Nat × QueueOp α)) :
    ∃ t answers, run splitStep s ops = .ok (t, answers) ∧
      ReturnedOnce num t.vq.numUnused (ops.map Prod.snd) answers ∧ virtqueueHasBufSplit t.vq =
        !(runSpec AbstractQueue.step (.empty α num) (ops.map Prod.snd)).1.used.isEmpty := by
  obtain ⟨t, ran, prog, pub, used, sim, same⟩ := split_run_refines pow small start ops
  refine ⟨t, _, ran, returnedOnce_of_realised _ (sim.numEq ▸ sim.inv.pool) same, ?_⟩
  rw [same, sim.hasBuf_eq small]
  simp [realised]

/-- A chain of two descriptors and a buffer.  The buffer comes back first and is collected, the
chain comes back, and the buffer is added again. -/
def reordered : List (QueueOp Unit) :=
  [.add twoBuffers, .add (oneBuffer (some ())), .complete 1 512, .get, .complete 0 1024,
    .add (oneBuffer (some ()))]

theorem split_returns_once_reordered : ∃ t answers,
      run splitStep (splitStart Unit 4 false) (reordered.map fun op => (1, op)) =
        .ok (t, answers) ∧ virtqueueHasBufSplit t.vq = true := by
  obtain ⟨t, answers, ran, -, has⟩ := split_returns_once ⟨2, rfl⟩ (by decide)
    (splitStart_starts false ⟨2, rfl⟩ (by decide)) (reordered.map fun op => (1, op))
  exact ⟨t, answers, ran, has.trans (by decide)⟩

/-- **So does the packed queue**, if every buffer has a token and fits its indirect area. -/
theorem packed_returns_once {num : Nat} (pos : 0 < num) (small : num ≤ 2 ^ 15)
    (ops : List (PackedChoice × QueueOp α)) (valid : ∀ op ∈ ops, OpFits op.2 ∧ OpTokened op.2) :
    ∃ t answers, run packedStep (packedStart α num) ops = .ok (t, answers) ∧
      ReturnedOnce num t.vq.numFree (ops.map Prod.snd) answers ∧ virtqueueHasBufPacked t.vq =
        !(runSpec AbstractQueue.step (.empty α num) (ops.map Prod.snd)).1.used.isEmpty := by
  obtain ⟨t, ran, _, _, _, _, prog, pub, used, sim, same⟩ := packed_run_refines pos small ops valid
  refine ⟨t, _, ran, returnedOnce_of_realised _ (sim.numEq ▸ sim.inv.pool) same, ?_⟩
  rw [same, virtqueueHasBufPacked, sim.more_eq]
  simp [realised]

theorem packed_returns_once_reordered : ∃ t answers,
      run packedStep (packedStart Unit 4) (reordered.map fun op => (⟨1, 0⟩, op)) =
        .ok (t, answers) ∧ virtqueueHasBufPacked t.vq = true := by
  have valid : ∀ op ∈ reordered.map fun op => ((⟨1, 0⟩ : PackedChoice), op),
      OpFits op.2 ∧ OpTokened op.2 := by
    simp [reordered, OpFits, OpTokened, oneBuffer, twoBuffers, BufferRequest.IndirectFits,
      BufferRequest.HasOpaque]
  obtain ⟨t, answers, ran, -, has⟩ := @packed_returns_once Unit 4 (by decide) (by decide) _ valid
  exact ⟨t, answers, ran, has.trans (by decide)⟩

end KvmGuestDrivers.VirtIO

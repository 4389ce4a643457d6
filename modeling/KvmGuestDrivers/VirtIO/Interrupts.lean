/-
# VirtIO.Interrupts -- asking for an interrupt

`enable_cb_delayed`, `enable_cb` and `disable_cb` of the split ring, over the words in which the
driver tells the device when it wants an interrupt.
-/
import KvmGuestDrivers.VirtIO.SplitInvariant

namespace KvmGuestDrivers.VirtIO

open Theory

set_option autoImplicit false

variable {α : Type}

variable (vq : VirtqueueSplit α)

/-- Write `master_vring_avail.flags` and, without event suppression, `avail->flags`. -/
def VirtqueueSplit.setFlags (flags : BitVec 16) : VirtqueueSplit α :=
  { vq with
    masterFlags := flags
    availFlags := if vq.eventSuppressionEnabled then vq.availFlags else flags }

/-- How `enable_cb_delayed` starts. -/
def allowInterrupts : VirtqueueSplit α :=
  if virtqueueIsInterruptEnabledSplit vq then vq
  else vq.setFlags (vq.masterFlags &&& ~~~virtqAvailFNoInterrupt)

/-- `bufs`: 3/4 of the buffers that were not fetched yet. -/
def delayedBufs : Nat :=
  (((vq.masterIdx : Int) - vq.lastUsed) % 2 ^ 16).toNat * 3 / 4

/-- `virtqueue_enable_cb_delayed_split`.  The comparison is one of `int`s. -/
def virtqueueEnableCbDelayedSplit : Bool × VirtqueueSplit α :=
  (decide ((vq.usedIdx : Int) - vq.lastUsed ≤ delayedBufs vq),
    { allowInterrupts vq with usedEvent := (vq.lastUsed + delayedBufs vq) % 2 ^ 16 })

def pendingUsed : Nat := (((vq.usedIdx : Int) - vq.lastUsed) % 2 ^ 16).toNat

/-- **`enable_cb_delayed` strands no completion** exactly as long as the used index has not wrapped,
or at most 3/4 of the buffers have come back: when it returns true, the entry it asks an interrupt
for is not among those already used. -/
theorem enableCbDelayed_exact (vq : VirtqueueSplit α) (used : vq.usedIdx < 2 ^ 16) :
    (((virtqueueEnableCbDelayedSplit vq).1 = true → pendingUsed vq ≤ delayedBufs vq ∧
      ∀ k < pendingUsed vq,
        (vq.lastUsed + k) % 2 ^ 16 ≠ (virtqueueEnableCbDelayedSplit vq).2.usedEvent) ∧
    ((virtqueueEnableCbDelayedSplit vq).1 = false → delayedBufs vq < pendingUsed vq)) ↔
      vq.lastUsed ≤ vq.usedIdx ∨
        pendingUsed vq * 4 ≤ (((vq.masterIdx : Int) - vq.lastUsed) % 2 ^ 16).toNat * 3 := by
  have pending : vq.lastUsed ≤ vq.usedIdx → (pendingUsed vq : Int) = vq.usedIdx - vq.lastUsed := by
    simp only [pendingUsed]
    omega
  have few : delayedBufs vq < 2 ^ 16 := by
    simp only [delayedBufs]
    omega
  have enough : pendingUsed vq ≤ delayedBufs vq ↔
      pendingUsed vq * 4 ≤ (((vq.masterIdx : Int) - vq.lastUsed) % 2 ^ 16).toNat * 3 := by
    simp only [delayedBufs]
    omega
  simp only [virtqueueEnableCbDelayedSplit, decide_eq_true_eq, decide_eq_false_iff_not]
  rw [← enough]
  constructor
  · rintro ⟨returns, -⟩
    refine or_iff_not_imp_left.mpr fun wrapped => ?_
    exact (returns (by omega)).1
  · intro regular
    refine ⟨fun below => ⟨by omega, ?_⟩, by omega⟩
    omega

/-- All four buffers have come back, and it would wait for three. -/
theorem enableCbDelayed_exact_pending :
    let vq : VirtqueueSplit Unit := { newSplit Unit 4 true with masterIdx := 4, usedIdx := 4 }
    (virtqueueEnableCbDelayedSplit vq).1 = false ∧ delayedBufs vq < pendingUsed vq :=
  ⟨by decide, ((enableCbDelayed_exact _ (by decide)).mpr (.inl (by decide))).2 (by decide)⟩

/-- The subtraction is done on promoted integers, and is negative once the used index has wrapped:
all four buffers are back, and it is to wait for the fourth. -/
theorem enableCbDelayed_stranded : let vq : VirtqueueSplit Unit :=
      { newSplit Unit 4 true with lastUsed := 65535, masterIdx := 3, availIdx := 3, usedIdx := 3 }
    (virtqueueEnableCbDelayedSplit vq).1 = true ∧ pendingUsed vq = 4 ∧ delayedBufs vq = 3 := by
  decide

/-! ## Waiting for an interrupt -/

/-- `virtqueue_enable_cb_split` up to its barrier; behind it, it compares `last_used` with the used
index. -/
def enableCbSplit : VirtqueueSplit α := { allowInterrupts vq with usedEvent := vq.lastUsed }

def virtqueueDisableCbSplit : VirtqueueSplit α :=
  if virtqueueIsInterruptEnabledSplit vq then
    vq.setFlags (vq.masterFlags ||| virtqAvailFNoInterrupt)
  else vq

/-- A queue, the number of used entries that the device has not decided about, whether it has
interrupted, whether the driver is at the barrier of `enable_cb`, and whether it was told that no
buffer is there. -/
structure InterruptRun (α : Type) where
  vq : VirtqueueSplit α
  undecided : Nat
  interrupted : Bool
  enabling : Bool
  waiting : Bool

inductive InterruptOp (α : Type) where
  | add (r : BufferRequest α)
  | get
  | enable
  | compare
  | disable
  | use (head len : Nat)
  /-- The device decides whether to interrupt for what it has returned. -/
  | decide
  | serve

variable (s : InterruptRun α)

/-- The device interrupts if one of the new entries stands at `used_event`; without event
suppression, if there is one and the flag is clear. -/
def InterruptRun.interrupts : Bool :=
  if s.vq.eventSuppressionEnabled then
    vringNeedEvent s.vq.usedEvent s.vq.usedIdx (((s.vq.usedIdx : Int) - s.undecided) % 2 ^ 16).toNat
  else s.undecided != 0 && s.vq.availFlags &&& virtqAvailFNoInterrupt == 0

def interruptStep : InterruptOp α → Except Fault (InterruptRun α × Unit)
  | .add r => .ok ({ s with vq := (addSplit s.vq r).2 }, ())
  | .get =>
    match virtqueueGetBufSplit s.vq with
    | .error e => .error e
    | .ok (vq, buf) =>
      .ok ({ s with vq, waiting := buf.isNone && virtqueueIsInterruptEnabledSplit vq }, ())
  | .enable => .ok ({ s with vq := enableCbSplit s.vq, enabling := true, waiting := false }, ())
  | .compare =>
    .ok ({ s with enabling := false, waiting := s.enabling && s.vq.lastUsed == s.vq.usedIdx }, ())
  | .disable => .ok ({ s with vq := virtqueueDisableCbSplit s.vq, waiting := false }, ())
  | .use head len =>
    .ok ({ s with vq := deviceUse s.vq head len, undecided := s.undecided + 1 }, ())
  | .decide => .ok ({ s with undecided := 0, interrupted := s.interrupted || s.interrupts }, ())
  | .serve => .ok ({ s with interrupted := false, waiting := false }, ())

/-- The driver does nothing else while it is in `enable_cb`, and the device decides before it has
returned `2 ^ 16` buffers. -/
def InterruptAllowed : InterruptOp α → Prop
  | .use _ _ => s.undecided + 1 < 2 ^ 16
  | .decide | .serve | .compare => True
  | _ => s.enabling = false

instance (op : InterruptOp α) : Decidable (InterruptAllowed s op) := by
  unfold InterruptAllowed
  split <;> infer_instance

/-- Where interrupts are on, the device sees that they are; and what is there when the driver waits
has been returned since the device last decided, or it has interrupted. -/
structure InterruptInv (s : InterruptRun α) : Prop where
  few : s.undecided < 2 ^ 16
  usedIdx : s.vq.usedIdx < 2 ^ 16
  lastUsed : s.vq.lastUsed < 2 ^ 16
  flags : s.vq.eventSuppressionEnabled = false → s.vq.availFlags = s.vq.masterFlags
  event : s.vq.eventSuppressionEnabled = true → virtqueueIsInterruptEnabledSplit s.vq = true →
    s.vq.usedEvent = s.vq.lastUsed
  enabled : s.enabling = true ∨ s.waiting = true → virtqueueIsInterruptEnabledSplit s.vq = true
  wait : s.waiting = true → s.interrupted = true ∨ pendingUsed s.vq ≤ s.undecided

def VirtqueueSplit.interruptWords : Bool × BitVec 16 × BitVec 16 × Nat × Nat × Nat :=
  (vq.eventSuppressionEnabled, vq.masterFlags, vq.availFlags, vq.usedEvent, vq.usedIdx, vq.lastUsed)

theorem setFlags_availFlags (plain : vq.eventSuppressionEnabled = false) (flags : BitVec 16) :
    (vq.setFlags flags).availFlags = flags := if_neg (by simp [plain])

variable {vq} {s}

theorem takeRest_interruptWords (sg : Nat → Scatterlist) (outNum n i last : Nat) :
    (takeRest sg outNum n i last vq).2.interruptWords = vq.interruptWords := by
  induction n generalizing i last vq with
  | zero => rfl
  | succ n ih => exact ih _ _

theorem addSplit_interruptWords (r : BufferRequest α) :
    (addSplit vq r).2.interruptWords = vq.interruptWords := by
  have direct : ∀ total, (virtqueueAddBufSplit.directPath vq r.sg r.outNum r.data
      total).2.interruptWords = vq.interruptWords := by
    intro total
    unfold virtqueueAddBufSplit.directPath
    split
    · rfl
    · exact takeRest_interruptWords _ _ _ _ _
  unfold addSplit virtqueueAddBufSplit
  dsimp only
  split
  · split
    · rfl
    · exact direct _
  · exact direct _

namespace InterruptInv

variable (inv : InterruptInv s)

include inv

theorem keep_add (r : BufferRequest α) : InterruptInv { s with vq := (addSplit s.vq r).2 } := by
  have same : (addSplit s.vq r).2.interruptWords = s.vq.interruptWords :=
    addSplit_interruptWords r
  generalize (addSplit s.vq r).2 = vq' at same ⊢
  simp only [VirtqueueSplit.interruptWords, Prod.mk.injEq] at same
  obtain ⟨suppression, master, avail, event, usedIdx, lastUsed⟩ := same
  constructor <;>
    simp only [virtqueueIsInterruptEnabledSplit, pendingUsed, suppression, master, avail, event,
      usedIdx, lastUsed]
  · exact inv.few
  · exact inv.usedIdx
  · exact inv.lastUsed
  · exact inv.flags
  · exact inv.event
  · exact inv.enabled
  · exact inv.wait

theorem keep_get {buf : Option (Option α × Nat)} (got : virtqueueGetBufSplit s.vq = .ok (vq, buf)) :
    InterruptInv { s with vq, waiting := buf.isNone && virtqueueIsInterruptEnabledSplit vq } := by
  rw [virtqueueGetBufSplit] at got
  split at got
  · rename_i empty
    cases got
    refine { inv with enabled := ?_, wait := fun _ => .inr (by simp [pendingUsed, empty]) }
    rintro (enabling | on)
    · exact inv.enabled (.inl enabling)
    · exact on
  dsimp only at got
  split at got
  · cases got
  rename_i put
  cases got
  unfold putUnusedDescChain at put
  split at put
  · cases put
  cases put
  -- `used_event` follows `last_used` as long as interrupts are on
  exact { inv with
    lastUsed := Nat.mod_lt _ (Nat.two_pow_pos 16)
    event := fun suppression on => if_pos (Bool.and_eq_true_iff.mpr ⟨suppression, on⟩)
    enabled := fun on => inv.enabled (.inl (on.resolve_right Bool.false_ne_true))
    wait := fun on => absurd on Bool.false_ne_true }

theorem keep_enable :
    InterruptInv { s with vq := enableCbSplit s.vq, enabling := true, waiting := false } := by
  unfold enableCbSplit allowInterrupts
  split
  · rename_i on
    exact { inv with
      event := fun _ _ => rfl
      enabled := fun _ => on
      wait := fun on => absurd on Bool.false_ne_true }
  · refine { inv with
      flags := fun plain => setFlags_availFlags s.vq plain _
      event := fun _ _ => rfl
      enabled := fun _ => ?_
      wait := fun on => absurd on Bool.false_ne_true }
    simp [VirtqueueSplit.setFlags, virtqueueIsInterruptEnabledSplit, BitVec.and_assoc]

theorem keep_disable (idle : s.enabling = false) :
    InterruptInv { s with vq := virtqueueDisableCbSplit s.vq, waiting := false } := by
  have nobody : ¬ (s.enabling = true ∨ false = true) := by simp [idle]
  unfold virtqueueDisableCbSplit
  split
  · refine { inv with
      flags := fun plain => setFlags_availFlags s.vq plain _
      event := fun _ on => absurd on ?_
      enabled := fun on => absurd on nobody
      wait := fun on => absurd on Bool.false_ne_true }
    have set : (s.vq.masterFlags ||| virtqAvailFNoInterrupt) &&& virtqAvailFNoInterrupt ≠ 0 := by
      intro clear
      simpa [virtqAvailFNoInterrupt] using congrArg (BitVec.getLsbD · 0) clear
    simpa [VirtqueueSplit.setFlags, virtqueueIsInterruptEnabledSplit] using set
  · exact { inv with
      enabled := fun on => absurd on nobody
      wait := fun on => absurd on Bool.false_ne_true }

theorem keep_use (head len : Nat) (soon : s.undecided + 1 < 2 ^ 16) :
    InterruptInv { s with vq := deviceUse s.vq head len, undecided := s.undecided + 1 } := by
  refine { inv with
    few := soon
    usedIdx := Nat.mod_lt _ (Nat.two_pow_pos 16)
    wait := fun waiting => (inv.wait waiting).imp id fun new => ?_ }
  simp only [pendingUsed, deviceUse] at new ⊢
  omega

/-- The device interrupts for what it has returned since the driver began to wait. -/
theorem interrupts (waiting : s.waiting = true) (there : s.vq.lastUsed ≠ s.vq.usedIdx)
    (new : pendingUsed s.vq ≤ s.undecided) : s.interrupts = true := by
  have few := inv.few
  have usedIdx := inv.usedIdx
  have lastUsed := inv.lastUsed
  have enabled := inv.enabled (.inr waiting)
  simp only [pendingUsed] at new
  unfold InterruptRun.interrupts
  split
  · rename_i suppression
    rw [inv.event suppression enabled, vringNeedEvent, decide_eq_true_eq]
    omega
  · rename_i plain
    have undecided : s.undecided ≠ 0 := by omega
    rw [inv.flags (by simpa using plain)]
    simpa [virtqueueIsInterruptEnabledSplit, undecided] using enabled

theorem keep_decide :
    InterruptInv { s with undecided := 0, interrupted := s.interrupted || s.interrupts } := by
  refine { inv with few := Nat.two_pow_pos 16, wait := fun waiting => ?_ }
  rcases inv.wait waiting with done | new
  · exact .inl (by simp [done])
  by_cases empty : s.vq.lastUsed = s.vq.usedIdx
  · exact .inr (by simp [pendingUsed, empty])
  · exact .inl (by simp [inv.interrupts waiting empty new])

theorem keep_compare : InterruptInv
    { s with enabling := false, waiting := s.enabling && s.vq.lastUsed == s.vq.usedIdx } := by
  refine { inv with enabled := fun on => ?_, wait := fun on => .inr ?_ }
  · exact inv.enabled (.inl (Bool.and_eq_true_iff.mp (on.resolve_left Bool.false_ne_true)).1)
  · simp [pendingUsed, eq_of_beq (Bool.and_eq_true_iff.mp on).2]

theorem keep_serve : InterruptInv { s with interrupted := false, waiting := false } where
  __ := inv
  enabled := fun on => inv.enabled (.inl (on.resolve_right Bool.false_ne_true))
  wait := fun on => absurd on Bool.false_ne_true

theorem step {t : InterruptRun α} {op : InterruptOp α} (may : InterruptAllowed s op)
    (stepped : interruptStep s op = .ok (t, ())) : InterruptInv t := by
  cases op with
  | get =>
    simp only [interruptStep] at stepped
    split at stepped
    · cases stepped
    · rename_i got
      cases stepped
      exact inv.keep_get got
  | add r =>
    cases stepped
    exact inv.keep_add r
  | enable =>
    cases stepped
    exact inv.keep_enable
  | compare =>
    cases stepped
    exact inv.keep_compare
  | disable =>
    cases stepped
    exact inv.keep_disable may
  | use head len =>
    cases stepped
    exact inv.keep_use head len may
  | decide =>
    cases stepped
    exact inv.keep_decide
  | serve =>
    cases stepped
    exact inv.keep_serve

end InterruptInv

/-- **No interrupt is lost.**  When `enable_cb` or `get_buf` has told the driver that no buffer is
there, and the device has returned one and decided, then it has interrupted. -/
theorem no_interrupt_lost {num : Nat} {ev : Bool} {s : InterruptRun α}
    (reach : Reachable (· = ⟨newSplit α num ev, 0, false, false, false⟩)
      (Next interruptStep InterruptAllowed) s) (waiting : s.waiting = true)
    (decided : s.undecided = 0) (there : virtqueueHasBufSplit s.vq = true) :
    s.interrupted = true := by
  have inv : InterruptInv s := by
    refine reach.invariant ?_ fun s t inv ⟨op, _, may, stepped⟩ => inv.step may stepped
    rintro s rfl
    exact ⟨Nat.two_pow_pos 16, Nat.two_pow_pos 16, Nat.two_pow_pos 16, fun _ => rfl,
      fun _ _ => rfl, by simp, by simp⟩
  have usedIdx := inv.usedIdx
  have lastUsed := inv.lastUsed
  refine (inv.wait waiting).resolve_right fun new => ?_
  rw [virtqueueHasBufSplit, bne_iff_ne] at there
  simp only [decided, pendingUsed] at new
  omega

/-- The buffer comes back after the driver was told that none is there. -/
theorem no_interrupt_lost_late : ∃ s : InterruptRun Unit, s.waiting = true ∧
      virtqueueHasBufSplit s.vq = true ∧ s.interrupted = true := by
  have replay : ∃ s ∈ attempt interruptStep InterruptAllowed
      ⟨newSplit Unit 2 true, 0, false, false, false⟩
      [.disable, .add (oneBuffer (some ())), .get, .enable, .compare, .use 0 512, .decide],
      s.waiting = true ∧ s.undecided = 0 ∧ virtqueueHasBufSplit s.vq = true := by
    decide
  obtain ⟨s, reach, waiting, decided, there⟩ := reachable_of_replay _ replay
  exact ⟨s, waiting, there, no_interrupt_lost reach waiting decided there⟩

end KvmGuestDrivers.VirtIO

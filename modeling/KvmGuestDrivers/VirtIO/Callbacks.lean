/-
# VirtIO.Callbacks -- whether interrupts are wanted

`enable_cb`, `enable_cb_delayed` and `disable_cb` of both rings: what `is_interrupt_enabled` says
after them, and what the device reads.
-/
import KvmGuestDrivers.VirtIO.Interrupts
import KvmGuestDrivers.VirtIO.PackedSpec

namespace KvmGuestDrivers.VirtIO

open Theory

set_option autoImplicit false

variable {α : Type} {off : Bool}

/-! ## The packed ring -/

/-- The packed ring with `event_suppression_enabled` and `driver->flags`. -/
structure PackedCallbacks (α : Type) where
  vq : VirtqueuePacked α
  eventSuppressionEnabled : Bool
  driverFlags : Nat

def packedEventFlagEnable : Nat := 0

section

variable (p : PackedCallbacks α)

def virtqueueIsInterruptEnabledPacked : Bool :=
  p.vq.eventFlagsShadow &&& packedEventFlagDisable != 0

def PackedCallbacks.setFlags (flags : Nat) : PackedCallbacks α :=
  { p with vq := { p.vq with eventFlagsShadow := flags }, driverFlags := flags }

def PackedCallbacks.setOffWrap (offWrap : Nat) : PackedCallbacks α :=
  if p.eventSuppressionEnabled then { p with vq := { p.vq with driverOffWrap := offWrap } } else p

/-- How both functions go on that enable interrupts. -/
def allowPacked : PackedCallbacks α :=
  if p.vq.eventFlagsShadow = packedEventFlagDisable then
    p.setFlags (if p.eventSuppressionEnabled then packedEventFlagDesc else packedEventFlagEnable)
  else p

def virtqueueEnableCbPacked : Bool × PackedCallbacks α :=
  let offWrap := p.vq.lastUsedIdx ||| (p.vq.usedWrapCounter.toNat <<< 15)
  (!isUsedDescPacked p.vq (offWrap % 2 ^ 15) (offWrap >>> 15 != 0),
    allowPacked (p.setOffWrap offWrap))

def virtqueueEnableCbDelayedPacked : Bool × PackedCallbacks α :=
  let num := p.vq.num
  let bufs := (num + (2 ^ 32 - p.vq.numFree)) % 2 ^ 32 * 3 % 2 ^ 32 / 4 % 2 ^ 16
  let usedIdx := (p.vq.lastUsedIdx + bufs) % 2 ^ 16
  (!moreUsedPacked p.vq, allowPacked (p.setOffWrap
    (if num ≤ usedIdx then
      (usedIdx + (2 ^ 16 - num % 2 ^ 16)) % 2 ^ 16 ||| ((!p.vq.usedWrapCounter).toNat <<< 15)
    else usedIdx ||| (p.vq.usedWrapCounter.toNat <<< 15))))

def virtqueueDisableCbPacked : PackedCallbacks α :=
  if p.vq.eventFlagsShadow ≠ packedEventFlagDisable then p.setFlags packedEventFlagDisable else p

end

/-! ## Calls -/

/-- What is done to a split ring.  `off` says whether `disable_cb` came last. -/
inductive SplitCall (vq : VirtqueueSplit α) (off : Bool) : VirtqueueSplit α × Bool → Prop where
  | enableCb : SplitCall vq off (enableCbSplit vq, false)
  | enableCbDelayed : SplitCall vq off ((virtqueueEnableCbDelayedSplit vq).2, false)
  | disableCb : SplitCall vq off (virtqueueDisableCbSplit vq, true)
  | add (r : BufferRequest α) : SplitCall vq off ((addSplit vq r).2, off)
  | get {out} (got : virtqueueGetBufSplit vq = .ok out) : SplitCall vq off (out.1, off)
  | kickPrepare : SplitCall vq off ((virtqueueKickPrepareSplit vq).2, off)
  | kickAlways : SplitCall vq off (virtqueueKickAlwaysSplit vq, off)
  | device (head len : Nat) : SplitCall vq off (deviceUse vq head len, off)

/-- What is done to a packed ring. -/
inductive PackedCall (p : PackedCallbacks α) (off : Bool) : PackedCallbacks α × Bool → Prop where
  | enableCb : PackedCall p off ((virtqueueEnableCbPacked p).2, false)
  | enableCbDelayed : PackedCall p off ((virtqueueEnableCbDelayedPacked p).2, false)
  | disableCb : PackedCall p off (virtqueueDisableCbPacked p, true)
  | add {r out} (added : addPacked p.vq r = .ok out) :
      PackedCall p off ({ p with vq := out.2 }, off)
  | get {out} (got : virtqueueGetBufPacked p.vq = .ok out) :
      PackedCall p off ({ p with vq := out.1 }, off)
  | kickPrepare : PackedCall p off ({ p with vq := (virtqueueKickPreparePacked p.vq).2 }, off)
  | kickAlways : PackedCall p off ({ p with vq := virtqueueKickAlwaysPacked p.vq }, off)
  | device (pos : Nat) (wrap : Bool) (id len : Nat) (extra : BitVec 16) :
      PackedCall p off ({ p with vq := writeUsed p.vq pos wrap id len extra }, off)

/-- A ring of either layout, from its creation on. -/
inductive RingAfter (α : Type) (num : Nat) (ev off : Bool) where
  | split (vq fresh : VirtqueueSplit α) (new : vringNewVirtqueueSplit α num ev = .ok (some fresh))
      (reach : Reachable (· = (fresh, false)) (fun s t => SplitCall s.1 s.2 t) (vq, off))
  | packed (p : PackedCallbacks α)
      (reach : Reachable (· = (⟨vringNewVirtqueuePacked α num, ev, 0⟩, false))
        (fun s t => PackedCall s.1 s.2 t) (p, off))

namespace RingAfter

variable {num : Nat} {ev : Bool}

def isSplit : RingAfter α num ev off → Bool
  | .split _ _ _ _ => true
  | .packed _ _ => false

/-- `is_interrupt_enabled` tells whether `disable_cb` came last, and so do the flags that the device
reads, where it reads them. -/
def Reported : RingAfter α num ev off → Prop
  | .split vq _ _ _ => virtqueueIsInterruptEnabledSplit vq = !off ∧
      (vq.eventSuppressionEnabled = false → (vq.availFlags &&& virtqAvailFNoInterrupt ≠ 0 ↔
        virtqueueIsInterruptEnabledSplit vq = false))
  | .packed p _ => virtqueueIsInterruptEnabledPacked p = !off ∧
      (p.driverFlags = packedEventFlagDisable ↔ virtqueueIsInterruptEnabledPacked p = false)

end RingAfter

/-! ## The words of a split ring -/

/-- `master_vring_avail.flags` says whether interrupts are off, and so does `avail->flags`. -/
structure SplitWords (vq : VirtqueueSplit α) (off : Bool) : Prop where
  master : vq.masterFlags = if off then virtqAvailFNoInterrupt else 0
  avail : vq.eventSuppressionEnabled = false → vq.availFlags = vq.masterFlags

namespace SplitWords

variable {vq : VirtqueueSplit α} (words : SplitWords vq off)

include words

theorem isEnabled : virtqueueIsInterruptEnabledSplit vq = !off := by
  rw [virtqueueIsInterruptEnabledSplit, words.master]
  cases off <;> rfl

theorem allow : SplitWords (allowInterrupts vq) false := by
  rw [allowInterrupts, words.isEnabled, words.master]
  cases off with
  | false => exact words
  | true => exact ⟨rfl, fun plain => setFlags_availFlags vq plain _⟩

theorem disable : SplitWords (virtqueueDisableCbSplit vq) true := by
  rw [virtqueueDisableCbSplit, words.isEnabled, words.master]
  cases off with
  | false => exact ⟨rfl, fun plain => setFlags_availFlags vq plain _⟩
  | true => exact words

theorem add (r : BufferRequest α) : SplitWords (addSplit vq r).2 off := by
  have same : (addSplit vq r).2.interruptWords = vq.interruptWords := addSplit_interruptWords r
  generalize (addSplit vq r).2 = vq' at same
  simp only [VirtqueueSplit.interruptWords, Prod.mk.injEq] at same
  obtain ⟨suppression, master, avail, -⟩ := same
  constructor
  · rw [master, words.master]
  · rw [suppression, avail, master]
    exact words.avail

theorem get {out : VirtqueueSplit α × Option (Option α × Nat)}
    (got : virtqueueGetBufSplit vq = .ok out) : SplitWords out.1 off := by
  rw [virtqueueGetBufSplit] at got
  split at got
  · cases got
    exact words
  dsimp only at got
  split at got
  · cases got
  rename_i put
  cases got
  unfold putUnusedDescChain at put
  split at put
  · cases put
  · cases put
    exact { words with }

/-- Every call keeps the words. -/
theorem call {t : VirtqueueSplit α × Bool} (called : SplitCall vq off t) : SplitWords t.1 t.2 := by
  cases called with
  | enableCb | enableCbDelayed => exact { words.allow with }
  | disableCb => exact words.disable
  | add r => exact words.add r
  | get got => exact words.get got
  | _ => exact { words with }

end SplitWords

/-! ## The words of a packed ring -/

/-- `event_flags_shadow` says so, and `driver->flags` is the same. -/
structure PackedWords (p : PackedCallbacks α) (off : Bool) : Prop where
  driver : p.driverFlags = p.vq.eventFlagsShadow
  shadow : p.vq.eventFlagsShadow ∈
    if off then [packedEventFlagDisable] else [packedEventFlagEnable, packedEventFlagDesc]

namespace PackedWords

variable {p : PackedCallbacks α} (words : PackedWords p off)

include words

theorem isEnabled : virtqueueIsInterruptEnabledPacked p = off := by
  have shadow := words.shadow
  rw [virtqueueIsInterruptEnabledPacked]
  cases off with
  | false =>
    rcases List.mem_pair.mp shadow with is | is
    · rw [is]
      rfl
    · rw [is]
      rfl
  | true =>
    rw [List.mem_singleton.mp shadow]
    rfl

theorem allow : PackedWords (allowPacked p) false := by
  unfold allowPacked
  split
  · refine ⟨rfl, List.mem_pair.mpr ?_⟩
    cases p.eventSuppressionEnabled with
    | false => exact .inl rfl
    | true => exact .inr rfl
  · rename_i on
    cases off with
    | false => exact words
    | true => exact absurd (List.mem_singleton.mp words.shadow) on

theorem setOffWrap (offWrap : Nat) : PackedWords (p.setOffWrap offWrap) off := by
  unfold PackedCallbacks.setOffWrap
  split
  · exact { words with }
  · exact words

theorem disable : PackedWords (virtqueueDisableCbPacked p) true := by
  unfold virtqueueDisableCbPacked
  split
  · exact ⟨rfl, List.mem_singleton.mpr rfl⟩
  · rename_i already
    exact ⟨words.driver, List.mem_singleton.mpr (not_not.mp already)⟩

theorem congr {vq : VirtqueuePacked α} (same : vq.eventFlagsShadow = p.vq.eventFlagsShadow) :
    PackedWords { p with vq := vq } off :=
  ⟨words.driver.trans same.symm, same ▸ words.shadow⟩

theorem add {r : BufferRequest α} {out : Int × VirtqueuePacked α}
    (added : addPacked p.vq r = .ok out) : PackedWords { p with vq := out.2 } off := by
  have direct (n head id : Nat) : (virtqueueAddBufPacked.directPath p.vq r.sg r.outNum r.data n
      head id).2.eventFlagsShadow = p.vq.eventFlagsShadow := by
    unfold virtqueueAddBufPacked.directPath
    split <;> rfl
  refine words.congr ?_
  simp only [addPacked, virtqueueAddBufPacked] at added
  repeat' split at added
  all_goals cases added
  · rfl
  · exact direct _ _ _
  · exact direct _ _ _

theorem get {out : VirtqueuePacked α × Option (Option α × Nat)}
    (got : virtqueueGetBufPacked p.vq = .ok out) : PackedWords { p with vq := out.1 } off := by
  refine words.congr ?_
  simp only [virtqueueGetBufPacked] at got
  repeat' split at got
  all_goals cases got
  · rfl
  · rfl

/-- Every call keeps the words. -/
theorem call {t : PackedCallbacks α × Bool} (called : PackedCall p off t) :
    PackedWords t.1 t.2 := by
  cases called with
  | enableCb | enableCbDelayed => exact (words.setOffWrap _).allow
  | disableCb => exact words.disable
  | add added => exact words.add added
  | get got => exact words.get got
  | _ => exact words.congr rfl

end PackedWords

/-- **The split ring says whether interrupts are wanted**, and so does the word that the device
reads; **the packed ring says the opposite**, after any calls. -/
theorem interrupts_reported {num : Nat} {ev : Bool} (ring : RingAfter α num ev off) :
    ring.Reported ↔ ring.isSplit = true := by
  cases ring with
  | split vq fresh new reach =>
    have words : SplitWords vq off := by
      refine reach.invariant (P := fun s => SplitWords s.1 s.2) ?_ fun _ _ words => words.call
      rintro _ rfl
      unfold vringNewVirtqueueSplit at new
      split at new
      · cases new
      split at new
      · cases new
      · cases new
        exact ⟨rfl, fun _ => rfl⟩
    refine iff_of_true ⟨words.isEnabled, fun plain => ?_⟩ rfl
    rw [words.avail plain, virtqueueIsInterruptEnabledSplit]
    simp
  | packed p reach =>
    have words : PackedWords p off := by
      refine reach.invariant (P := fun s => PackedWords s.1 s.2) ?_ fun _ _ words => words.call
      rintro _ rfl
      exact ⟨rfl, List.mem_pair.mpr (.inl rfl)⟩
    refine iff_of_false (fun reported => ?_) Bool.false_ne_true
    have opposite := reported.1
    rw [words.isEnabled] at opposite
    cases off <;> cases opposite

example : ∃ ring : RingAfter Unit 4 true true, ring.isSplit = true :=
  ⟨.split _ _ rfl (.next (.start rfl) .disableCb), rfl⟩

/-- On a new packed ring `disable_cb` is called, and interrupts are said to be enabled. -/
theorem interrupts_misreported : ∃ ring : RingAfter Unit 4 true true, ¬ ring.Reported := by
  refine ⟨.packed _ (.next (.start rfl) .disableCb), fun reported => ?_⟩
  exact absurd reported.1 (by decide)

end KvmGuestDrivers.VirtIO

/-
# VirtIO.Notification -- which additions make the driver notify

With event suppression the device publishes one position and wants to be notified
when the driver adds an entry there.  `kick_prepare` compares that position with the
entries added since it last ran, in 16-bit arithmetic.

* Split ring.  Positions are the 16-bit available indices.  The answer is exact, as long
  as the 32-bit count of additions does not wrap; `detach_unused_buf` moves the index
  back, so it must not come between an addition and the next kick.
* Packed ring.  A position is a slot and a lap bit.  `kick_prepare` places the event at
  most one lap back, from its own wrap counter.  It errs when a direct chain of the
  ring's length has left that counter behind (`kick_lost_on_whole_ring`: a device that
  waits for the very first descriptor is not notified), and when more descriptors were
  added than it looks back over.
-/
import KvmGuestDrivers.VirtIO.PackedLaps
import KvmGuestDrivers.VirtIO.SplitPartition

namespace KvmGuestDrivers.VirtIO

set_option autoImplicit false

open Theory List

variable {α : Type} {num n : Nat} {t : PackedLedger α} {op : LedgerOp α}

/-! ## Runs with kicks -/

/-- A queue and the positions of the entries added since the last kick. -/
structure Notified (σ : Type) where
  ledger : σ
  sinceKick : List Nat

/-- The queue's operations, the two kicks, and the device publishing an event. -/
inductive NotifyOp (Op Event : Type) where
  | queue (op : Op)
  | kickPrepare
  | kickAlways
  | event (e : Event)

/-- The available index an operation publishes an entry at. -/
def publishedSplit (s : SplitLedger α) : LedgerOp α → List Nat
  | .add r => if (addSplit s.vq r).1 = vqAddBufferSuccess then [s.vq.masterIdx] else []
  | _ => []

variable (s : Notified (SplitLedger α))

def splitNotifyStep :
    NotifyOp (LedgerOp α) (BitVec 16) → Except Fault (Notified (SplitLedger α) × Unit)
  | .queue op =>
    match ledgerStep s.ledger op with
    | .error e => .error e
    | .ok (ledger, ()) =>
      .ok ({ ledger, sinceKick := s.sinceKick ++ publishedSplit s.ledger op }, ())
  | .kickPrepare =>
    .ok (⟨{ s.ledger with vq := (virtqueueKickPrepareSplit s.ledger.vq).2 }, []⟩, ())
  | .kickAlways =>
    .ok (⟨{ s.ledger with vq := virtqueueKickAlwaysSplit s.ledger.vq }, []⟩, ())
  | .event idx =>
    .ok ({ s with
      ledger := { s.ledger with vq := { s.ledger.vq with availEvent := idx.toNat } } }, ())

/-- `detach_unused_buf` takes a chain the device has not returned, and only when nothing
was added since the last kick. -/
def SplitNotifyAllowed : NotifyOp (LedgerOp α) (BitVec 16) → Prop
  | .queue op =>
    LedgerAllowed (fun _ => True) (fun l => TakesUnreturned l ∧ s.sinceKick = []) s.ledger op
  | _ => True

instance (op : NotifyOp (LedgerOp α) (BitVec 16)) : Decidable (SplitNotifyAllowed s op) := by
  unfold SplitNotifyAllowed
  split <;> infer_instance

/-- A packed event: the word with slot and lap bit, and the mode. -/
structure PackedEvent where
  offWrap : BitVec 16
  flags : BitVec 16

def packedNotifyStep (s : Notified (PackedLedger α)) :
    NotifyOp (PackedOp α) PackedEvent → Except Fault (Notified (PackedLedger α) × Unit)
  | .queue op =>
    match packedLedgerStep s.ledger op with
    | .error e => .error e
    | .ok (ledger, ()) =>
      .ok ({ ledger, sinceKick := s.sinceKick ++
        List.range' s.ledger.total (ledger.total - s.ledger.total) }, ())
  | .kickPrepare =>
    .ok (⟨{ s.ledger with vq := (virtqueueKickPreparePacked s.ledger.vq).2 }, []⟩, ())
  | .kickAlways =>
    .ok (⟨{ s.ledger with vq := virtqueueKickAlwaysPacked s.ledger.vq }, []⟩, ())
  | .event e =>
    .ok ({ s with ledger := { s.ledger with vq := { s.ledger.vq with
      deviceOffWrap := e.offWrap.toNat, deviceFlags := e.flags.toNat } } }, ())

variable (mayAdd : PackedLedger α → BufferRequest α → Prop)

def PackedNotifyAllowed (s : Notified (PackedLedger α)) : NotifyOp (PackedOp α) PackedEvent → Prop
  | .queue op => PackedAllowed mayAdd TakesUnreturnedPacked s.ledger op
  | _ => True

instance [∀ s r, Decidable (mayAdd s r)] (s : Notified (PackedLedger α))
    (op : NotifyOp (PackedOp α) PackedEvent) : Decidable (PackedNotifyAllowed mayAdd s op) := by
  unfold PackedNotifyAllowed
  split <;> infer_instance

/-! ## The split ring -/

/-- The entries since the last kick stand at consecutive indices up to the current
one. -/
structure SplitNotifyInv (num : Nat) (s : Notified (SplitLedger α)) : Prop where
  ledger : LedgerInv num s.ledger
  event : s.ledger.vq.availEvent < 2 ^ 16
  count : s.ledger.vq.numAddedSinceKick = s.sinceKick.length % 2 ^ 32
  positions : ∃ start, s.sinceKick = (List.range' start s.sinceKick.length).map (· % 2 ^ 16) ∧
    s.ledger.vq.masterIdx = (start + s.sinceKick.length) % 2 ^ 16

theorem LedgerAllowed.mono {mayAdd : BufferRequest α → Prop}
    {mayDetach mayDetach' : SplitLedger α → Prop} {s : SplitLedger α}
    (sub : mayDetach s → mayDetach' s) (allowed : LedgerAllowed mayAdd mayDetach s op) :
    LedgerAllowed mayAdd mayDetach' s op := by
  cases op with
  | detach => exact sub allowed
  | _ => exact allowed

/-- The ledger does not depend on the event nor on the count of additions. -/
theorem LedgerInv.notified {s : SplitLedger α} (inv : LedgerInv num s)
    (numAddedSinceKick availEvent : Nat) :
    LedgerInv num { s with vq := { s.vq with numAddedSinceKick, availEvent } } := by
  obtain ⟨⟨chains, split, heads⟩, numEq, distinct, inFlight, used, usedIdx, lastUsed, master⟩ := inv
  exact ⟨⟨chains, split.congr rfl rfl rfl rfl rfl, heads⟩, numEq, distinct, inFlight, used, usedIdx,
    lastUsed, master⟩

/-- `vring_need_event` after `n` additions: the event is less than `n` entries behind the
newest. -/
theorem vringNeedEvent_back (e idx : Nat) (few : n < 2 ^ 16) :
    vringNeedEvent e idx (((idx : Int) - n) % 2 ^ 16).toNat =
      decide (((idx : Int) - e - 1) % 2 ^ 16 < n) := by
  rw [vringNeedEvent, decide_eq_decide]
  omega

/-- Within `2 ^ 16` additions the event is met by one of them exactly if it is that close
behind. -/
theorem back_lt_iff {e start : Nat} (event : e < 2 ^ 16) :
    ((((start + n) % 2 ^ 16 : Nat) : Int) - e - 1) % 2 ^ 16 < n ↔
      ∃ k, k < n ∧ (start + k) % 2 ^ 16 = e := by
  constructor
  · intro less
    refine ⟨n - 1 - (((((start + n) % 2 ^ 16 : Nat) : Int) - e - 1) % 2 ^ 16).toNat, ?_, ?_⟩ <;>
      omega
  · omega

namespace SplitNotifyInv

variable {s}

section

variable (inv : SplitNotifyInv num s)

include inv

theorem mem_iff : s.ledger.vq.availEvent ∈ s.sinceKick ↔
      (((s.ledger.vq.masterIdx : Int) - s.ledger.vq.availEvent - 1) % 2 ^ 16 <
        s.sinceKick.length) := by
  obtain ⟨start, positions, master⟩ := inv.positions
  have listed : s.ledger.vq.availEvent ∈ s.sinceKick ↔
      ∃ k, k < s.sinceKick.length ∧ (start + k) % 2 ^ 16 = s.ledger.vq.availEvent := by
    rw [positions]
    simp only [mem_map, mem_range', length_map, length_range']
    constructor
    · rintro ⟨p, ⟨k, inside, rfl⟩, here⟩
      exact ⟨k, inside, by simpa using here⟩
    · rintro ⟨k, inside, here⟩
      exact ⟨start + k, ⟨k, inside, by simp⟩, here⟩
  rw [listed, master]
  exact (back_lt_iff inv.event).symm

theorem kick_iff
    (enabled : s.ledger.vq.eventSuppressionEnabled = true) (few : s.sinceKick.length < 2 ^ 32) :
    (virtqueueKickPrepareSplit s.ledger.vq).1 = true ↔ s.ledger.vq.availEvent ∈ s.sinceKick := by
  have count := inv.count
  rw [Nat.mod_eq_of_lt few] at count
  rw [inv.mem_iff]
  simp only [virtqueueKickPrepareSplit, enabled, if_true, count, Bool.or_eq_true,
    decide_eq_true_iff]
  by_cases short : s.sinceKick.length < 2 ^ 16
  · rw [vringNeedEvent_back _ _ short, decide_eq_true_iff]
    omega
  -- Every index was used at least once.
  constructor
  · omega
  · intro _
    exact .inl (by omega)

theorem same {t : SplitLedger α} (kept : LedgerInv num t)
    (event : t.vq.availEvent = s.ledger.vq.availEvent)
    (count : t.vq.numAddedSinceKick = s.ledger.vq.numAddedSinceKick)
    (master : t.vq.masterIdx = s.ledger.vq.masterIdx) :
    SplitNotifyInv num { ledger := t, sinceKick := s.sinceKick ++ [] } := by
  rw [append_nil]
  refine ⟨kept, ?_, ?_, ?_⟩
  · rw [event]
    exact inv.event
  · rw [count]
    exact inv.count
  · simp only [master]
    exact inv.positions

theorem keep_queue (pow : num.isPowerOfTwo) {t : SplitLedger α}
    (allowed : SplitNotifyAllowed s (.queue op)) (move : LedgerMove s.ledger op t) :
    SplitNotifyInv num { ledger := t, sinceKick := s.sinceKick ++ publishedSplit s.ledger op } := by
  have may : LedgerAllowed (fun _ => True) (fun l => TakesUnreturned l ∧ s.sinceKick = [])
    s.ledger op := allowed
  have kept := inv.ledger.keep pow (may.mono fun both => both.1) move
  cases move with
  | full refused =>
    simp only [publishedSplit, refused]
    exact inv.same kept rfl rfl rfl
  | added ok added =>
    rw [publishedSplit, ok, if_pos rfl]
    obtain ⟨start, positions, master⟩ := inv.positions
    have count := inv.count
    refine ⟨kept, ?_, ?_, start, ?_, ?_⟩
    · simp only [added.availEvent]
      exact inv.event
    · simp only [added.sinceKick, length_append, length_singleton]
      omega
    · rw [length_append, length_singleton, range'_concat, map_append, ← positions, master]
      simp
    · simp only [added.masterIdx, length_append, length_singleton]
      omega
  | complete | empty | bare => exact inv.same kept rfl rfl rfl
  | collect _ _ _ _ idx released =>
    exact inv.same kept released.availEvent released.sinceKick idx
  | detach _ _ _ _ idx released =>
    -- Nothing was added since the kick, so the next entry may stand anywhere.
    obtain ⟨-, none⟩ : TakesUnreturned s.ledger ∧ s.sinceKick = [] := may
    have count := inv.count
    rw [none] at count ⊢
    refine ⟨kept, ?_, released.sinceKick.trans count, s.ledger.vq.masterIdx + (2 ^ 16 - 1), rfl, ?_⟩
    · simp only [released.availEvent]
      exact inv.event
    · exact idx

theorem keep_kick : SplitNotifyInv num
      ⟨{ s.ledger with vq := { s.ledger.vq with numAddedSinceKick := 0 } }, []⟩ :=
  ⟨inv.ledger.notified 0 _, inv.event, rfl, s.ledger.vq.masterIdx, rfl,
    (Nat.mod_eq_of_lt inv.ledger.masterIdx).symm⟩

theorem keep_event (idx : BitVec 16) : SplitNotifyInv num { s with
      ledger := { s.ledger with vq := { s.ledger.vq with availEvent := idx.toNat } } } :=
  ⟨inv.ledger.notified _ _, idx.isLt, inv.count, inv.positions⟩

end

end SplitNotifyInv

def SplitNotifyFresh (num : Nat) (ev : Bool) (s : Notified (SplitLedger α)) : Prop :=
  Fresh num ev s.ledger ∧ s.sinceKick = []

variable {s}

theorem splitNotifyInv_of_reachable {ev : Bool} (pow : num.isPowerOfTwo)
    (reach : Reachable (SplitNotifyFresh num ev) (Next splitNotifyStep SplitNotifyAllowed) s) :
    SplitNotifyInv num s := by
  refine reach.machine_invariant ?_ ?_
  · rintro ⟨ledger, _⟩ ⟨fresh, rfl⟩
    have inv := ledgerInv_fresh pow fresh
    obtain ⟨vq, _, _⟩ := ledger
    obtain ⟨new, rfl, rfl⟩ := fresh
    obtain ⟨-, rfl⟩ := created pow new
    exact ⟨inv, Nat.two_pow_pos 16, rfl, 0, rfl, rfl⟩
  · intro s op inv allowed
    cases op with
    | queue op =>
      obtain ⟨t, stepped, move⟩ := inv.ledger.move pow op
      refine ⟨_, (), ?_, inv.keep_queue pow allowed move⟩
      simp only [splitNotifyStep, stepped]
    | kickPrepare | kickAlways => exact ⟨_, (), rfl, inv.keep_kick⟩
    | event idx => exact ⟨_, (), rfl, inv.keep_event idx⟩

/-! ## The packed ring -/

/-- The device's event names the slot and the lap of position `p`. -/
def PackedEventAt (vq : VirtqueuePacked α) (p : Nat) : Prop :=
  vq.deviceOffWrap % 2 ^ 15 = p % vq.num ∧ vq.deviceOffWrap >>> 15 = (wrapBit vq.num p).toNat

/-- No more descriptors were added since the last kick than `kick_prepare` looks back
over: those of this lap and the one before, or, in a ring of `2 ^ 15`, all that 16 bits
count. -/
def FewSinceKick (s : Notified (PackedLedger α)) : Prop :=
  s.sinceKick.length ≤ s.ledger.vq.num + s.ledger.vq.nextAvailIdx ∨
    (2 * s.ledger.vq.num = 2 ^ 16 ∧ s.sinceKick.length < 2 ^ 16)

/-- The descriptors added since the last kick stand at consecutive positions up to the
current one, and the wrap counter shows the current lap. -/
structure PackedNotifyInv (num : Nat) (s : Notified (PackedLedger α)) : Prop where
  ledger : ∃ d, PackedLedgerInv num s.ledger d
  counter : s.ledger.vq.availWrapCounter = wrapBit num s.ledger.total
  count : s.ledger.vq.numAdded = s.sinceKick.length % 2 ^ 32
  positions : ∃ start, s.sinceKick = List.range' start s.sinceKick.length ∧
    s.ledger.total = start + s.sinceKick.length

/-- The ledger does not depend on the device's event nor on the count of additions. -/
theorem PackedLedgerInv.notified {d : Nat} {s : PackedLedger α} (inv : PackedLedgerInv num s d)
    (numAdded deviceOffWrap deviceFlags : Nat) :
    PackedLedgerInv num { s with vq := { s.vq with numAdded, deviceOffWrap, deviceFlags } } d := by
  obtain ⟨chains, ids, heads⟩ := inv.chains
  refine ⟨⟨chains, ids.congr rfl rfl rfl rfl, heads⟩, inv.numEq,
    { inv.ready with }, { inv.upTo with }, inv.nextUsed,
    inv.usedWrap, inv.distinct, inv.inFlight, inv.room, fun slot inside => ?_⟩
  refine (inv.slots slot inside).release rfl rfl (fun _ => rfl) le_rfl le_rfl rfl ?_
  intro pre x post shape _
  exact ⟨pre, shape, rfl⟩

/-- `kick_prepare` places an event `k` laps back, with the lap bit of `k`'s parity, at its
true distance `j`, as far as it looks back. -/
theorem eventIdx_back {off idx j k : Nat} (small : num ≤ 2 ^ 15) (offLt : off < num)
    (idxLt : idx < num) (apart : off + j = idx + k * num)
    (few : j ≤ num + idx ∨ (2 * num = 2 ^ 16 ∧ j < 2 ^ 16)) : ((idx : Int) - (if k % 2 = 0 then off
      else (off + (2 ^ 16 - num % 2 ^ 16)) % 2 ^ 16 : Nat) - j) % 2 ^ 16 = 0 := by
  have laps : k * num < 2 * num ∨ (k * num < 3 * num ∧ 2 * num = 2 ^ 16) := by omega
  have cases : k = 0 ∨ k = 1 ∨ (k = 2 ∧ 2 * num = 2 ^ 16) := by
    rcases laps with two | ⟨three, full⟩
    · have := Nat.lt_of_mul_lt_mul_right two
      omega
    · have := Nat.lt_of_mul_lt_mul_right three
      omega
  rcases cases with rfl | rfl | ⟨rfl, _⟩
  · rw [if_pos rfl]
    omega
  · rw [if_neg (by decide)]
    omega
  · rw [if_pos rfl]
    omega

namespace PackedNotifyInv

variable {s : Notified (PackedLedger α)}

section

variable (inv : PackedNotifyInv num s)

include inv

theorem kick_of_event
    (mode : s.ledger.vq.deviceFlags = packedEventFlagDesc) (few : FewSinceKick s) {p : Nat}
    (added : p ∈ s.sinceKick) (event : PackedEventAt s.ledger.vq p) :
    (virtqueueKickPreparePacked s.ledger.vq).1 = true := by
  obtain ⟨d, ledger⟩ := inv.ledger
  obtain ⟨_, positions, total⟩ := inv.positions
  obtain ⟨slot, lap⟩ := event
  rw [positions, mem_range'_1] at added
  -- `p` is `j` descriptors behind the driver.
  obtain ⟨j, ahead⟩ : ∃ j, s.ledger.total = p + j := ⟨s.ledger.total - p, by omega⟩
  have pos := ledger.ready.pos
  have small := ledger.ready.small
  have idx := ledger.ready.idx
  have counter := inv.counter
  rw [← ledger.numEq] at counter
  rw [ahead] at idx counter
  obtain ⟨k, apart, parity⟩ := exists_laps s.ledger.vq.num p j
  have idxLt := Nat.mod_lt (p + j) pos
  have near : j ≤ s.ledger.vq.num + s.ledger.vq.nextAvailIdx ∨
      (2 * s.ledger.vq.num = 2 ^ 16 ∧ j < 2 ^ 16) := by
    rcases few with short | ⟨full, short⟩
    · exact .inl (by omega)
    · exact .inr ⟨full, by omega⟩
  have length : s.sinceKick.length < 2 ^ 16 := by
    rcases few with _ | ⟨-, _⟩ <;> omega
  have count := inv.count
  rw [Nat.mod_eq_of_lt (by omega)] at count
  have behind := eventIdx_back small (Nat.mod_lt p pos) idxLt apart (idx ▸ near)
  have same : (wrapBit s.ledger.vq.num p).toNat ≠ (wrapBit s.ledger.vq.num (p + j)).toNat ↔
      ¬ k % 2 = 0 := by
    rw [← parity]
    cases wrapBit s.ledger.vq.num p <;> cases wrapBit s.ledger.vq.num (p + j) <;> simp
  simp only [virtqueueKickPreparePacked, mode, count, slot, lap, counter, ne_eq, not_true_eq_false,
    if_false]
  rw [vringNeedEvent_back _ _ length, decide_eq_true_iff]
  simp only [same, ite_not]
  omega

theorem same (kept : ∃ d, PackedLedgerInv num t d) (total : t.total = s.ledger.total)
    (count : t.vq.numAdded = s.ledger.vq.numAdded)
    (counter : t.vq.availWrapCounter = s.ledger.vq.availWrapCounter) : PackedNotifyInv num
      ⟨t, s.sinceKick ++ List.range' s.ledger.total (t.total - s.ledger.total)⟩ := by
  rw [total, Nat.sub_self, range'_zero, append_nil]
  refine ⟨kept, ?_, ?_, ?_⟩
  · rw [counter, total]
    exact inv.counter
  · rw [count]
    exact inv.count
  · simp only [total]
    exact inv.positions

theorem keep_queue {op : PackedOp α}
    (allowed : PackedAllowed LeavesGap TakesUnreturnedPacked s.ledger op)
    (move : PackedMove s.ledger op t) : PackedNotifyInv num
      ⟨t, s.sinceKick ++ List.range' s.ledger.total (t.total - s.ledger.total)⟩ := by
  obtain ⟨d, ledger⟩ := inv.ledger
  have kept := ledger.keep allowed move
  have counter := ledger.keep_counter allowed move inv.counter
  cases move with
  | stay | complete | collect | detach => exact inv.same kept rfl rfl rfl
  | @added r _ n _ added =>
    obtain ⟨start, positions, total⟩ := inv.positions
    have count := inv.count
    have fresh : s.ledger.total + (n + 1) - s.ledger.total = n + 1 := by omega
    refine ⟨kept, counter, ?_, start, ?_, ?_⟩
    · simp only [added.numAdded, length_append, length_range']
      omega
    · simp only [fresh, length_append, length_range']
      have joined : List.range' start s.sinceKick.length ++
          List.range' (start + s.sinceKick.length) (n + 1) = _ := range'_append_1
      rwa [← positions, ← total] at joined
    · simp only [length_append, length_range']
      omega

theorem keep_kick :
    PackedNotifyInv num ⟨{ s.ledger with vq := { s.ledger.vq with numAdded := 0 } }, []⟩ := by
  obtain ⟨d, ledger⟩ := inv.ledger
  exact ⟨⟨d, ledger.notified 0 _ _⟩, inv.counter, rfl, s.ledger.total, rfl, rfl⟩

theorem keep_event (e : PackedEvent) :
    PackedNotifyInv num { s with ledger := { s.ledger with vq := { s.ledger.vq with
      deviceOffWrap := e.offWrap.toNat, deviceFlags := e.flags.toNat } } } := by
  obtain ⟨d, ledger⟩ := inv.ledger
  exact ⟨⟨d, ledger.notified _ _ _⟩, inv.counter, inv.count, inv.positions⟩

end

end PackedNotifyInv

def freshPackedNotify (α : Type) (num : Nat) : Notified (PackedLedger α) := ⟨freshPacked α num, []⟩

theorem packedNotifyInv_of_reachable {s : Notified (PackedLedger α)} (pos : 0 < num)
    (small : num ≤ 2 ^ 15) (reach : Reachable (· = freshPackedNotify α num)
      (Next packedNotifyStep (PackedNotifyAllowed LeavesGap)) s) : PackedNotifyInv num s := by
  refine reach.invariant ?_ ?_
  · rintro s rfl
    exact ⟨⟨0, packedLedgerInv_fresh pos small⟩, (wrapBit_of_lt pos).symm, rfl, 0, rfl, rfl⟩
  rintro s t inv ⟨op, _, allowed, stepped⟩
  cases op with
  | queue op =>
    obtain ⟨d, ledger⟩ := inv.ledger
    cases ran : packedLedgerStep s.ledger op with
    | error =>
      simp only [packedNotifyStep, ran] at stepped
      cases stepped
    | ok =>
      simp only [packedNotifyStep, ran] at stepped
      cases stepped
      exact inv.keep_queue allowed (ledger.move ran)
  | kickPrepare | kickAlways =>
    cases stepped
    exact inv.keep_kick
  | event e =>
    cases stepped
    exact inv.keep_event e

/-! ## No needed notification is suppressed -/

/-- **`kick_prepare` notifies whenever the device asked for it.**  Split: exactly when one
of the entries added since the last kick stands at the device's event, and always after
`2 ^ 16` additions.  Packed: whenever one of the descriptors does, in runs without a
direct chain of the ring's length and with no more descriptors added than
`kick_prepare` looks back over. -/
theorem kick_when_needed {num : Nat} (pow : num.isPowerOfTwo) (small : num ≤ 2 ^ 15) :
    (∀ (ev : Bool) (s : Notified (SplitLedger α)),
      Reachable (SplitNotifyFresh num ev) (Next splitNotifyStep SplitNotifyAllowed) s →
      s.ledger.vq.eventSuppressionEnabled = true → s.sinceKick.length < 2 ^ 32 →
      ((virtqueueKickPrepareSplit s.ledger.vq).1 = true ↔ s.ledger.vq.availEvent ∈ s.sinceKick) ∧
      (2 ^ 16 ≤ s.sinceKick.length → (virtqueueKickPrepareSplit s.ledger.vq).1 = true)) ∧
    ∀ s : Notified (PackedLedger α), Reachable (· = freshPackedNotify α num)
        (Next packedNotifyStep (PackedNotifyAllowed LeavesGap)) s →
      s.ledger.vq.deviceFlags = packedEventFlagDesc → FewSinceKick s →
      ∀ p ∈ s.sinceKick, PackedEventAt s.ledger.vq p →
        (virtqueueKickPreparePacked s.ledger.vq).1 = true := by
  constructor
  · intro ev s reach enabled few
    have inv := splitNotifyInv_of_reachable pow reach
    rw [inv.kick_iff enabled few, inv.mem_iff]
    omega
  · intro s reach mode few p added event
    have inv := packedNotifyInv_of_reachable (Nat.pos_of_isPowerOfTwo pow) small reach
    exact inv.kick_of_event mode few added event

/-- One buffer is added and the device waits for it. -/
theorem kick_after_first_add : (∃ s : Notified (SplitLedger Unit), s.sinceKick = [0] ∧
      (virtqueueKickPrepareSplit s.ledger.vq).1 = true) ∧
    ∃ s : Notified (PackedLedger Unit), s.sinceKick = [0] ∧
      (virtqueueKickPreparePacked s.ledger.vq).1 = true := by
  have needed := kick_when_needed (α := Unit) ⟨1, rfl⟩ (by decide)
  constructor
  · have replay : ∃ s ∈ attempt splitNotifyStep SplitNotifyAllowed ⟨freshLedger Unit 2 true, []⟩
        [.queue (.add (oneBuffer (some ())))],
        s.sinceKick = [0] ∧ s.ledger.vq.eventSuppressionEnabled = true ∧
          s.ledger.vq.availEvent = 0 := by
      decide
    obtain ⟨s, run, added, enabled, event⟩ := replay
    have fresh := fresh_freshLedger (α := Unit) true ⟨1, rfl⟩ (by decide)
    have kick := (needed.1 true s (reachable_of_attempt _ (.start ⟨fresh, rfl⟩) run) enabled
      (by simp [added])).1
    exact ⟨s, added, kick.mpr (by simp [added, event])⟩
  · have replay : ∃ s ∈ attempt packedNotifyStep (PackedNotifyAllowed LeavesGap)
        (freshPackedNotify Unit 2)
        [.queue (.add (oneBuffer (some ()))), .event ⟨0x8000, 2⟩],
        s.sinceKick = [0] ∧ s.ledger.vq.deviceFlags = 2 ∧ s.ledger.vq.deviceOffWrap = 0x8000 ∧
          s.ledger.vq.num = 2 := by
      decide
    obtain ⟨s, reach, added, mode, offWrap, num⟩ := reachable_of_replay _ replay
    refine ⟨s, added, needed.2 s reach mode ?_ 0 (by simp [added]) ?_⟩
    · exact .inl (by simp [added]; omega)
    · rw [PackedEventAt, offWrap, num]
      decide

/-- A device that waits for the first descriptor is not notified when the first chain
takes the whole ring. -/
theorem kick_lost_on_whole_ring :
    ¬ ∀ num : Nat, num.isPowerOfTwo → num ≤ 2 ^ 15 → ∀ s : Notified (PackedLedger Unit),
      Reachable (· = freshPackedNotify Unit num)
        (Next packedNotifyStep (PackedNotifyAllowed fun _ _ => True)) s →
      s.ledger.vq.deviceFlags = packedEventFlagDesc →
      ∀ p ∈ s.sinceKick, PackedEventAt s.ledger.vq p →
        (virtqueueKickPreparePacked s.ledger.vq).1 = true := by
  intro always
  have replay : ∃ s ∈ attempt packedNotifyStep (PackedNotifyAllowed fun _ _ => True)
      (freshPackedNotify Unit 2) [.event ⟨0x8000, 2⟩, .queue (.add twoBuffers)],
      s.sinceKick = [0, 1] ∧ s.ledger.vq.deviceFlags = 2 ∧ s.ledger.vq.deviceOffWrap = 0x8000 ∧
        s.ledger.vq.num = 2 ∧ (virtqueueKickPreparePacked s.ledger.vq).1 = false := by
    decide
  obtain ⟨s, reach, added, mode, offWrap, num, silent⟩ := reachable_of_replay _ replay
  have kick := always 2 ⟨1, rfl⟩ (by decide) s reach mode 0 (by simp [added])
    (by rw [PackedEventAt, offWrap, num]; decide)
  rw [silent] at kick
  cases kick

end KvmGuestDrivers.VirtIO

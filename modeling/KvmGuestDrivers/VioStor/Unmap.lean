/-
# VioStor.Unmap -- the segments of a discard request

`RhelDoUnMap` turns the descriptors of an UNMAP parameter list into discard segments.  It stages
them in `blk_discard`, one array of sixteen in the adapter extension, before it takes the lock of a
queue, and describes the array to the device, which reads it later.
-/
import KvmGuestDrivers.Theory.Bytes
import KvmGuestDrivers.Theory.Calls
import KvmGuestDrivers.Theory.Transition
import KvmGuestDrivers.VioStor.Adapter

namespace KvmGuestDrivers.VioStor

set_option autoImplicit false

open Theory

/-! ## Parameter lists -/

structure DiscardSegment where
  sector : Nat
  numSectors : Nat
  flags : Nat
  deriving DecidableEq

def blkDiscardLength : Nat := 16

def blockDescrDataLength (list : Memory) : Nat := be16 list 2

/-- `BlockDescrCount`: descriptors have sixteen bytes. -/
def blockDescrCount (list : Memory) : Nat := blockDescrDataLength list / 16

def startingLba (list : Memory) (i : Nat) : Nat := be64 list (8 + 16 * i)

def lbaCount (list : Memory) (i : Nat) : Nat := be32 list (8 + 16 * i + 8)

section Run

variable (features : BlkFeatures) (blkSize : Nat)

variable (list : Memory)

/-- The segment that the loop of `RhelDoUnMap` stores for a descriptor. -/
def discardSegment (i : Nat) : DiscardSegment where
  sector := startingLba list i * (blkSize / sectorSize) % 2 ^ 64
  numSectors := lbaCount list i * (blkSize / sectorSize) % 2 ^ 32
  flags := 0

def askedSegment (i : Nat) : DiscardSegment where
  sector := startingLba list i * (blkSize / sectorSize)
  numSectors := lbaCount list i * (blkSize / sectorSize)
  flags := 0

/-- The tests of `RhelDoUnMap`; what is accepted is the parameter list. -/
def unmapAccepts (srbDataBuffer : Option Memory) (srbDataBufferLength : Nat) : Option Memory :=
  match srbDataBuffer with
  | none => none
  | some list =>
    if features.discard = false ∨ srbDataBufferLength < blockDescrDataLength list + 8 then none
    else some list

/-! ## Runs -/

/-- A request from the call of `RhelDoUnMap` until the device is done with it. -/
structure UnmapCall where
  list : Memory
  staged : Nat
  device : Bool

def UnmapCall.described (r : UnmapCall) : Nat := 16 * blockDescrCount r.list

structure UnmapRun where
  blkDiscard : Nat → DiscardSegment
  requests : List UnmapCall
  written : List Nat

inductive UnmapOp where
  | start (srbDataBuffer : Option Memory) (srbDataBufferLength : Nat)
  | stage (k : Nat)
  | submit (k : Nat) (resetInProgress added : Bool)
  | finish (k : Nat)

variable (s : UnmapRun)

/-- One step; the answer is the status of an SRB that is completed.  What lies behind the array is
memory like any other. -/
def unmapStep : UnmapOp → Except Empty (UnmapRun × Option SrbStatus)
  | .start buffer length =>
    match unmapAccepts features buffer length with
    | none => .ok (s, some .error)
    | some list => .ok ({ s with requests := s.requests ++ [⟨list, 0, false⟩] }, none)
  -- a turn of the loop
  | .stage k =>
    match s.requests[k]? with
    | none => .ok (s, none)
    | some r =>
      if r.staged < blockDescrCount r.list then
        .ok ({ blkDiscard := fun i =>
                 if i = r.staged then discardSegment blkSize r.list i else s.blkDiscard i
               requests := s.requests.set k { r with staged := r.staged + 1 }
               written := s.written ++ [r.staged] }, none)
      else .ok (s, none)
  -- what follows the loop
  | .submit k resetInProgress added =>
    match s.requests[k]? with
    | none => .ok (s, none)
    | some r =>
      if r.staged < blockDescrCount r.list ∨ r.device then .ok (s, none)
      else if resetInProgress then
        .ok ({ s with requests := s.requests.eraseIdx k }, some .busReset)
      else if added then
        .ok ({ s with requests := s.requests.set k { r with device := true } }, none)
      else .ok ({ s with requests := s.requests.eraseIdx k }, some .error)
  | .finish k =>
    match s.requests[k]? with
    | none => .ok (s, none)
    | some r =>
      if r.device then .ok ({ s with requests := s.requests.eraseIdx k }, none)
      else .ok (s, none)

/-- No request yet; the array holds anything. -/
def unmapStart (blkDiscard : Nat → DiscardSegment) : UnmapRun := ⟨blkDiscard, [], []⟩

def UnmapRun.found : List DiscardSegment :=
  (List.range (blockDescrCount list)).map s.blkDiscard

def asked : List DiscardSegment :=
  (List.range (blockDescrCount list)).map (askedSegment blkSize list)

/-- The descriptors fit the array, and their ranges the fields of a segment. -/
def UnmapFits : Prop :=
  blockDescrCount list ≤ blkDiscardLength ∧
    ∀ i < blockDescrCount list, startingLba list i * (blkSize / sectorSize) < 2 ^ 64 ∧
      lbaCount list i * (blkSize / sectorSize) < 2 ^ 32

instance : Decidable (UnmapFits blkSize list) :=
  inferInstanceAs (Decidable (_ ∧ _))

/-- A request that is accepted fits, and of two requests at a time one has no descriptors. -/
def UnmapRegular : UnmapOp → Prop
  | .start buffer length =>
    ∀ list ∈ unmapAccepts features buffer length, UnmapFits blkSize list ∧
      (blockDescrCount list = 0 ∨ ∀ r ∈ s.requests, blockDescrCount r.list = 0)
  | _ => True

instance (op : UnmapOp) : Decidable (UnmapRegular features blkSize s op) := by
  unfold UnmapRegular
  split <;> infer_instance

end Run

/-! ## The invariant -/

section Invariant

variable {features : BlkFeatures} {blkSize k : Nat} {s : UnmapRun} {r : UnmapCall} {list : Memory}

def UnmapCall.busy (r : UnmapCall) : Bool := decide (0 < blockDescrCount r.list)

/-- What holds of a request: the segments it has stored are still there. -/
structure UnmapKept (blkSize : Nat) (blkDiscard : Nat → DiscardSegment) (r : UnmapCall) : Prop where
  fits : UnmapFits blkSize r.list
  le : r.staged ≤ blockDescrCount r.list
  all : r.device = true → r.staged = blockDescrCount r.list
  kept : ∀ i < r.staged, blkDiscard i = discardSegment blkSize r.list i

structure UnmapInv (blkSize : Nat) (s : UnmapRun) : Prop where
  one : s.requests.countP UnmapCall.busy ≤ 1
  kept : ∀ (k : Nat) (r : UnmapCall), s.requests[k]? = some r → UnmapKept blkSize s.blkDiscard r
  written : ∀ i ∈ s.written, i < blkDiscardLength

section

variable (inv : UnmapInv blkSize s)

include inv

theorem UnmapInv.erase (k : Nat) :
    UnmapInv blkSize { s with requests := s.requests.eraseIdx k } where
  one := le_trans ((List.eraseIdx_sublist s.requests k).countP_le) inv.one
  kept := by
    intro j r there
    obtain ⟨i, here⟩ := List.getElem?_of_mem
      ((List.eraseIdx_sublist s.requests k).subset (List.mem_of_getElem? there))
    exact inv.kept i r here
  written := inv.written

theorem UnmapInv.start (fits : UnmapFits blkSize list)
    (alone : blockDescrCount list = 0 ∨ ∀ r ∈ s.requests, blockDescrCount r.list = 0) :
    UnmapInv blkSize { s with requests := s.requests ++ [⟨list, 0, false⟩] } where
  one := by
    have one := inv.one
    rw [countP_start]
    rcases alone with empty | others
    · have idle : UnmapCall.busy ⟨list, 0, false⟩ = false :=
        decide_eq_false (Nat.not_lt.mpr (le_of_eq empty))
      rw [idle]
      exact one
    · have nobody : s.requests.countP UnmapCall.busy = 0 :=
        List.countP_eq_zero.mpr fun r member => by simp [UnmapCall.busy, others r member]
      rw [nobody, zero_add]
      exact Bool.toNat_le _
  kept := by
    intro j r there
    rcases getElem?_start there with ⟨-, rfl⟩ | old
    · exact ⟨fits, Nat.zero_le _, fun device => absurd device Bool.false_ne_true,
        fun i lt => absurd lt (Nat.not_lt_zero i)⟩
    · exact inv.kept j r old
  written := inv.written

/-- A turn keeps the segments of the other requests if they have none. -/
theorem UnmapInv.stage (here : s.requests[k]? = some r) (more : r.staged < blockDescrCount r.list) :
    UnmapInv blkSize
      { blkDiscard := fun i =>
          if i = r.staged then discardSegment blkSize r.list i else s.blkDiscard i
        requests := s.requests.set k { r with staged := r.staged + 1 }
        written := s.written ++ [r.staged] } where
  one := le_trans (le_of_eq (countP_same here _ _ rfl)) inv.one
  kept := by
    intro j q there
    have own := inv.kept k r here
    rcases getElem?_move there with ⟨-, rfl⟩ | ⟨apart, old⟩
    · refine ⟨own.fits, more, fun device => absurd (own.all device) (Nat.ne_of_lt more), ?_⟩
      intro i lt
      by_cases last : i = r.staged
      · exact if_pos last
      · exact (if_neg last).trans (own.kept i (by have lt : i < r.staged + 1 := lt; omega))
    · have other := inv.kept j q old
      have idle : blockDescrCount q.list = 0 := by
        by_contra positive
        refine apart (index_eq_of_countP_le_one inv.one here ?_ old ?_).symm
        · exact decide_eq_true (Nat.zero_lt_of_lt more)
        · exact decide_eq_true (Nat.pos_of_ne_zero positive)
      refine { other with kept := fun i lt => ?_ }
      have le := other.le
      omega
  written := by
    exact forall_mem_concat inv.written (lt_of_lt_of_le more (inv.kept k r here).fits.1)

theorem UnmapInv.submit (here : s.requests[k]? = some r)
    (ended : ¬ r.staged < blockDescrCount r.list) :
    UnmapInv blkSize { s with requests := s.requests.set k { r with device := true } } where
  one := le_trans (le_of_eq (countP_same here _ _ rfl)) inv.one
  kept := by
    intro j q there
    have own := inv.kept k r here
    rcases getElem?_move there with ⟨-, rfl⟩ | ⟨-, old⟩
    · exact ⟨own.fits, own.le, fun _ => Nat.le_antisymm own.le (Nat.not_lt.mp ended), own.kept⟩
    · exact inv.kept j q old
  written := inv.written

theorem UnmapInv.step (op : UnmapOp) (regular : UnmapRegular features blkSize s op) :
    ∃ t out, unmapStep features blkSize s op = .ok (t, out) ∧ UnmapInv blkSize t := by
  cases op with
  | start buffer length =>
    rw [unmapStep]
    cases accepted : unmapAccepts features buffer length with
    | none => exact ⟨s, _, rfl, inv⟩
    | some list =>
      obtain ⟨fits, alone⟩ := regular list accepted
      exact ⟨_, _, rfl, inv.start fits alone⟩
  | stage k =>
    rw [unmapStep]
    cases here : s.requests[k]? with
    | none => exact ⟨s, _, rfl, inv⟩
    | some =>
      dsimp only
      split
      · rename_i more
        exact ⟨_, _, rfl, inv.stage here more⟩
      · exact ⟨s, _, rfl, inv⟩
  | submit k =>
    rw [unmapStep]
    cases here : s.requests[k]? with
    | none => exact ⟨s, _, rfl, inv⟩
    | some =>
      dsimp only
      split
      · exact ⟨s, _, rfl, inv⟩
      rename_i ended
      split
      · exact ⟨_, _, rfl, inv.erase k⟩
      · split
        · exact ⟨_, _, rfl, inv.submit here fun more => ended (.inl more)⟩
        · exact ⟨_, _, rfl, inv.erase k⟩
  | finish k =>
    rw [unmapStep]
    cases here : s.requests[k]? with
    | none => exact ⟨s, _, rfl, inv⟩
    | some =>
      dsimp only
      split
      · exact ⟨_, _, rfl, inv.erase k⟩
      · exact ⟨s, _, rfl, inv⟩

end

theorem discardSegment_eq_asked (fits : UnmapFits blkSize list) {i : Nat}
    (lt : i < blockDescrCount list) :
    discardSegment blkSize list i = askedSegment blkSize list i := by
  obtain ⟨sector, numSectors⟩ := fits.2 i lt
  rw [discardSegment, askedSegment, Nat.mod_eq_of_lt sector, Nat.mod_eq_of_lt numSectors]

theorem UnmapKept.found_eq_asked (keeps : UnmapKept blkSize s.blkDiscard r)
    (device : r.device = true) : s.found r.list = asked blkSize r.list := by
  refine List.map_congr_left fun i member => ?_
  have lt := List.mem_range.mp member
  rw [keeps.kept i (Nat.lt_of_lt_of_eq lt (keeps.all device).symm)]
  exact discardSegment_eq_asked keeps.fits lt

/-- **UNMAP discards what was asked**: while the device has a request it finds the ranges of the
request, and nothing outside of the array is written or described. -/
theorem unmap_exact {blkDiscard : Nat → DiscardSegment}
    (reach : Reachable (· = unmapStart blkDiscard)
      (Next (unmapStep features blkSize) (UnmapRegular features blkSize)) s) :
    (∀ r ∈ s.requests, r.device = true → s.found r.list = asked blkSize r.list ∧
        r.described ≤ 16 * blkDiscardLength) ∧
      ∀ i ∈ s.written, i < blkDiscardLength := by
  have inv : UnmapInv blkSize s := by
    refine reach.machine_invariant ?_ fun s op inv => inv.step op
    rintro _ rfl
    exact ⟨Nat.zero_le 1, fun k r there => absurd (List.mem_of_getElem? there) List.not_mem_nil,
      List.forall_mem_nil _⟩
  refine ⟨fun r member device => ?_, inv.written⟩
  obtain ⟨k, here⟩ := List.getElem?_of_mem member
  have keeps := inv.kept k r here
  exact ⟨keeps.found_eq_asked device, Nat.mul_le_mul_left 16 keeps.fits.1⟩

def oneDescriptor (lba count : Byte) : Memory :=
  memory ([0, 22, 0, 16, 0, 0, 0, 0] ++ [0, 0, 0, 0, 0, 0, 0, lba] ++ [0, 0, 0, count, 0, 0, 0, 0])

def discardOnly : BlkFeatures := ⟨false, true, false, false⟩

/-- A discard of a block of 4096 bytes, after one that the device has returned. -/
theorem unmap_exact_second :
    ∃ (s : UnmapRun) (r : UnmapCall), r ∈ s.requests ∧ s.found r.list = asked 4096 r.list ∧
      asked 4096 r.list = [⟨800, 8, 0⟩] := by
  have replay : ∃ s ∈ attempt (unmapStep discardOnly 4096) (UnmapRegular discardOnly 4096)
      (unmapStart fun _ => ⟨0, 0, 0⟩)
      [.start (some (oneDescriptor 8 8)) 24, .stage 0, .submit 0 false true, .finish 0,
        .start (some (oneDescriptor 100 1)) 24, .stage 0, .submit 0 false true],
      ∃ r ∈ s.requests, r.device = true ∧ asked 4096 r.list = [⟨800, 8, 0⟩] := by
    decide +kernel
  obtain ⟨s, reach, r, there, device, is⟩ := reachable_of_replay _ replay
  exact ⟨s, r, there, ((unmap_exact reach).1 r there device).1, is⟩

/-- The device has a discard of the blocks from 8 on when the descriptor of a second request, for
block 100, is staged. -/
theorem unmap_mixed :
    ∃ (s : UnmapRun) (r : UnmapCall), Reachable (· = unmapStart fun _ => ⟨0, 0, 0⟩)
        (Next (unmapStep discardOnly 4096) fun _ _ => True) s ∧
      r ∈ s.requests ∧ r.device = true ∧ s.found r.list = [⟨800, 8, 0⟩] ∧
      asked 4096 r.list = [⟨64, 64, 0⟩] := by
  have replay : ∃ s ∈ attempt (unmapStep discardOnly 4096) (fun _ _ => True)
      (unmapStart fun _ => ⟨0, 0, 0⟩)
      [.start (some (oneDescriptor 8 8)) 24, .stage 0, .submit 0 false true,
        .start (some (oneDescriptor 100 1)) 24, .stage 1],
      ∃ r ∈ s.requests, r.device = true ∧ s.found r.list = [⟨800, 8, 0⟩] ∧
        asked 4096 r.list = [⟨64, 64, 0⟩] := by
    decide +kernel
  obtain ⟨s, reach, r, found⟩ := reachable_of_replay _ replay
  exact ⟨s, r, reach, found⟩

end Invariant

end KvmGuestDrivers.VioStor

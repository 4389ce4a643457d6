/-
# VioStor.BuildIo -- the extent of a read or a write

`VirtIoBuildIo` turns a READ or WRITE command into a request of the device: the first sector, and
the scatter-gather list of Storport behind the header.  It refuses what runs past `lastLBA`, the
capacity at the last READ CAPACITY, and cuts the elements into parts of `size_max` bytes.
-/
import KvmGuestDrivers.Theory.Bytes
import KvmGuestDrivers.VioStor.Adapter

namespace KvmGuestDrivers.VioStor

set_option autoImplicit false

open Theory List

/-! ## Commands -/

/-- The operation codes that the modelled functions distinguish. -/
inductive ScsiOp where
  | read6
  | write6
  | readCapacity
  | read
  | write
  | writeVerify
  | verify
  | unmap
  | read16
  | write16
  | writeVerify16
  | verify16
  | readCapacity16
  | read12
  | write12
  | writeVerify12
  | other

def scsiOp (cdb : Memory) : ScsiOp :=
  match (cdb 0).toNat with
  | 0x08 => .read6
  | 0x0A => .write6
  | 0x25 => .readCapacity
  | 0x28 => .read
  | 0x2A => .write
  | 0x2E => .writeVerify
  | 0x2F => .verify
  | 0x42 => .unmap
  | 0x88 => .read16
  | 0x8A => .write16
  | 0x8E => .writeVerify16
  | 0x8F => .verify16
  | 0x9E => .readCapacity16
  | 0xA8 => .read12
  | 0xAA => .write12
  | 0xAE => .writeVerify12
  | _ => .other

/-- The block address that `RhelGetLba` takes from a command.  That of the six byte commands is
read in the wrong order. -/
def logicalBlock (cdb : Memory) : Option Nat :=
  match scsiOp cdb with
  | .read | .write | .readCapacity | .writeVerify | .verify | .unmap => some (be32 cdb 2)
  | .read6 | .write6 =>
    some ((cdb 1).toNat % 32 + 256 * (cdb 2).toNat + 65536 * (cdb 3).toNat)
  | .read12 | .write12 | .writeVerify12 => some (be32 cdb 2)
  | .read16 | .write16 | .readCapacity16 | .writeVerify16 | .verify16 => some (be64 cdb 2)
  | .other => none

def rhelGetLba (blkSize : Nat) (cdb : Memory) : Nat :=
  match logicalBlock cdb with
  | some lba => lba * (blkSize / sectorSize) % 2 ^ 64
  | none => 2 ^ 64 - 1

/-- The commands that `VirtIoBuildIo` builds a request for. -/
def ScsiOp.transfers : ScsiOp → Bool
  | .read | .write | .writeVerify | .read6 | .write6 | .read12 | .write12 | .writeVerify12
  | .read16 | .write16 | .writeVerify16 => true
  | _ => false

variable (features : BlkFeatures)

/-- The commands that `VirtIoStartIo` gives to `RhelDoReadWrite`. -/
def startIoForwards : ScsiOp → Bool
  | .read | .read16 => true
  | .write | .write16 => !features.ro
  | _ => false

/-! ## Segments -/

def maxPhysSegments : Nat := 512

/-- `VIRTIO_MAX_SG`, the length of `sg` of the SRB extension. -/
def virtioMaxSg : Nat := 3 + maxPhysSegments

/-- The loop over one element of the list: `room` segments may be used, `sgOffset` bytes are behind
and `sgLength` bytes ahead.  The segments that are stored, and whether they are all. -/
def splitElement (sizeMax addr : Nat) : (room sgOffset sgLength : Nat) → List Extent × Bool
  | _, _, 0 => ([], true)
  | 0, _, _ + 1 => ([], false)
  | room + 1, sgOffset, sgLength + 1 =>
    if sizeMax < sgLength + 1 then
      let more := splitElement sizeMax addr room (sgOffset + sizeMax) (sgLength + 1 - sizeMax)
      (⟨addr + sgOffset, sizeMax⟩ :: more.1, more.2)
    else ([⟨addr + sgOffset, sgLength + 1⟩], true)

/-- The loop over the list, with `sgElement` at `segMax + 1 - room`. -/
def splitAll (sizeMax : Nat) : (room : Nat) → List Extent → List Extent × Bool
  | _, [] => ([], true)
  | room, e :: l =>
    let parts := splitElement sizeMax e.offset room 0 e.size
    if parts.2 then
      let more := splitAll sizeMax (room - parts.1.length) l
      (parts.1 ++ more.1, more.2)
    else parts

def dataSegments (info : BlkConfig) (l : List Extent) : List Extent × Bool :=
  if features.sizeMax then splitAll info.sizeMax info.segMax (l.take (maxPhysSegments + 1))
  else (l.take (maxPhysSegments + 1), true)

variable {features}

/-! ## Requests -/

/-- What `VirtIoBuildIo` reads of the adapter extension. -/
structure BlkAdapter where
  features : BlkFeatures
  info : BlkConfig
  /-- `info.capacity` when `RhelScsiGetCapacity` last ran, and zero before. -/
  lastLBA : Nat
  removed : Bool
  stopped : Bool

/-- What `VirtIoBuildIo` reads of an SRB.  The list of Storport describes the transfer. -/
structure BlkSrb where
  pathId : Nat
  targetId : Nat
  lun : Nat
  executeScsi : Bool
  cdb : Option Memory
  dataOut : Bool
  dataTransferLength : Nat
  sgList : Option (List Extent)
  outHdr : Nat
  status : Nat
  describes : ∀ l ∈ sgList, bytes l = dataTransferLength

structure BlkRequest where
  dataOut : Bool
  sector : Nat
  fua : Bool
  sg : List Extent
  out : Nat
  inn : Nat

/-- The data segments: those between the header and the status. -/
def BlkRequest.data (r : BlkRequest) : List Extent := r.sg.tail.dropLast

def transferBlocks (blkSize dataTransferLength : Nat) : Nat :=
  (dataTransferLength + blkSize + (2 ^ 32 - 1)) % 2 ^ 32 / blkSize

variable (a : BlkAdapter)

variable (srb : BlkSrb)

def blkRequest (cdb : Memory) (data : List Extent) : BlkRequest where
  dataOut := srb.dataOut
  sector := rhelGetLba a.info.blkSize cdb
  fua := a.features.flush && (cdb 1).getLsbD 3
  sg := ⟨srb.outHdr, 16⟩ :: data ++ [⟨srb.status, 1⟩]
  out := if srb.dataOut then data.length + 1 else 1
  inn := if srb.dataOut then 1 else data.length + 1

def buildTransfer (cdb : Memory) : Except (SrbStatus × List Extent) BlkRequest :=
  let lba := rhelGetLba a.info.blkSize cdb
  let blocks := transferBlocks a.info.blkSize srb.dataTransferLength
  if (a.lastLBA + (2 ^ 64 - 1)) % 2 ^ 64 < lba then .error (.badSrbBlockLength, [])
  else if a.lastLBA < (lba + blocks) % 2 ^ 64 then .error (.badSrbBlockLength, [])
  else
    match srb.sgList with
    | none => .error (.badFunction, [])
    | some l =>
      let segments := dataSegments a.features a.info l
      if segments.2 then .ok (blkRequest a srb cdb segments.1)
      else .error (.badSrbBlockLength, segments.1)

/-- `VirtIoBuildIo`: an error has the status that the SRB is completed with, and the data segments
that are stored in `sg` by then; without a request the SRB goes on to `VirtIoStartIo` as it is. -/
def virtIoBuildIo : Except (SrbStatus × List Extent) (Option BlkRequest) :=
  if srb.pathId ≠ 0 ∨ srb.targetId ≠ 0 ∨ srb.lun ≠ 0 ∨ a.removed = true then .error (.noDevice, [])
  else if a.stopped then .error (.aborted, [])
  else if srb.executeScsi = false then .ok none
  else
    match srb.cdb with
    | none => .ok none
    | some cdb =>
      if (scsiOp cdb).transfers then (buildTransfer a srb cdb).map some else .ok none

def placed : Option BlkRequest :=
  match virtIoBuildIo a srb, srb.cdb with
  | .ok (some r), some cdb => if startIoForwards a.features (scsiOp cdb) then some r else none
  | _, _ => none

/-! ## The parts of a list -/

def segmentsOf (sizeMax : Nat) (l : List Extent) : Nat :=
  (l.map fun e => (e.size + sizeMax - 1) / sizeMax).sum

/-- A list for which `room` segments of `size_max` bytes are not enough. -/
def Crowded (sizeMax room : Nat) (l : List Extent) : Prop :=
  sizeMax = 0 ∧ 0 < bytes l ∨ room < segmentsOf sizeMax l

/-- What a loop stores: the bytes of the list, or as many segments as there may be. -/
structure Splits (sizeMax room : Nat) (whole : List Extent) (parts : List Extent × Bool) :
    Prop where
  sizes : ∀ e ∈ parts.1, e.size ≤ sizeMax
  all : parts.2 = true → units parts.1 = units whole ∧
    parts.1.length = segmentsOf sizeMax whole ∧ ¬ Crowded sizeMax room whole
  refused : parts.2 = false → parts.1.length = room ∧ Crowded sizeMax room whole

section Parts

variable {sizeMax addr room sgOffset sgLength : Nat} {l : List Extent}

theorem segmentsOf_cons (e : Extent) :
    segmentsOf sizeMax (e :: l) = segmentsOf sizeMax [e] + segmentsOf sizeMax l := rfl

theorem splits_empty : Splits sizeMax room [⟨addr, 0⟩] ([], true) := by
  have empty : segmentsOf sizeMax [⟨addr, 0⟩] = 0 := by
    change (0 + sizeMax - 1) / sizeMax + 0 = 0
    rcases Nat.eq_zero_or_pos sizeMax with rfl | positive
    · rfl
    · rw [Nat.div_eq_of_lt (by omega)]
  refine ⟨forall_mem_nil _, fun _ => ⟨rfl, empty.symm, ?_⟩, nofun⟩
  rintro (⟨-, filled⟩ | more)
  · exact Nat.lt_irrefl 0 filled
  · exact Nat.not_lt_zero room (empty ▸ more)

theorem segmentsOf_one (filled : 0 < sgLength) (short : sgLength ≤ sizeMax) :
    segmentsOf sizeMax [⟨addr, sgLength⟩] = 1 := by
  change (sgLength + sizeMax - 1) / sizeMax + 0 = 1
  rw [show sgLength + sizeMax - 1 = sgLength - 1 + sizeMax by omega,
    Nat.add_div_right _ (by omega), Nat.div_eq_of_lt (by omega)]

theorem segmentsOf_part (positive : 0 < sizeMax) (long : sizeMax < sgLength) :
    segmentsOf sizeMax [⟨addr, sgLength⟩] =
      segmentsOf sizeMax [⟨addr + sizeMax, sgLength - sizeMax⟩] + 1 := by
  change (sgLength + sizeMax - 1) / sizeMax + 0 =
    (sgLength - sizeMax + sizeMax - 1) / sizeMax + 0 + 1
  rw [show sgLength + sizeMax - 1 = sgLength - sizeMax + sizeMax - 1 + sizeMax by omega,
    Nat.add_div_right _ positive]

/-- One segment more is stored, and there may be one more. -/
theorem crowded_part (long : sizeMax < sgLength) :
    Crowded sizeMax (room + 1) [⟨addr, sgLength⟩] ↔
      Crowded sizeMax room [⟨addr + sizeMax, sgLength - sizeMax⟩] := by
  unfold Crowded
  rcases Nat.eq_zero_or_pos sizeMax with rfl | positive
  · exact iff_of_true (.inl ⟨rfl, long⟩) (.inl ⟨rfl, long⟩)
  · rw [segmentsOf_part positive long]
    omega

theorem splitElement_splits : Splits sizeMax room [⟨addr + sgOffset, sgLength⟩]
    (splitElement sizeMax addr room sgOffset sgLength) := by
  induction room generalizing sgOffset sgLength with
  | zero =>
    cases sgLength with
    | zero => exact splits_empty
    | succ sgLength =>
      refine ⟨forall_mem_nil _, nofun, fun _ => ⟨rfl, ?_⟩⟩
      rcases Nat.eq_zero_or_pos sizeMax with rfl | positive
      · exact .inl ⟨rfl, Nat.succ_pos sgLength⟩
      · exact .inr (Nat.add_pos_left (Nat.div_pos (by simp) positive) 0)
  | succ room ih =>
    cases sgLength with
    | zero => exact splits_empty
    | succ sgLength =>
      rw [splitElement]
      split
      · rename_i long
        have later := @ih (sgOffset + sizeMax) (sgLength + 1 - sizeMax)
        rw [← add_assoc] at later
        refine ⟨forall_mem_cons.mpr ⟨le_rfl, later.sizes⟩, fun all => ?_, fun refused => ?_⟩
        · obtain ⟨units, length, room⟩ := later.all all
          have positive : 0 < sizeMax :=
            Nat.pos_of_ne_zero fun zero => room (.inl ⟨zero, Nat.sub_pos_of_lt long⟩)
          refine ⟨?_, ?_, mt (crowded_part long).mp room⟩
          · -- the first `sizeMax` bytes, and what is left behind them
            rw [units_cons, units, units_cons, units_cons, units_nil, append_nil, append_nil,
              range'_append_1]
            exact congrArg (List.range' _) (Nat.add_sub_of_le (le_of_lt long))
          · rw [segmentsOf_part positive long, ← length, length_cons]
        · obtain ⟨length, crowded⟩ := later.refused refused
          exact ⟨congrArg (· + 1) length, (crowded_part long).mpr crowded⟩
      · rename_i short
        have le := Nat.not_lt.mp short
        have one : segmentsOf sizeMax [⟨addr + sgOffset, sgLength + 1⟩] = 1 :=
          segmentsOf_one (Nat.succ_pos sgLength) le
        refine ⟨forall_mem_singleton.mpr le, fun _ => ⟨rfl, one.symm, ?_⟩, nofun⟩
        rw [Crowded, one]
        omega

/-- The first element is stored, and there may be as many segments less for the others. -/
theorem crowded_cons (e : Extent) (fits : ¬ Crowded sizeMax room [e]) :
    Crowded sizeMax room (e :: l) ↔ Crowded sizeMax (room - segmentsOf sizeMax [e]) l := by
  have size : bytes [e] = e.size := rfl
  unfold Crowded at *
  rw [size] at fits
  rw [segmentsOf_cons, bytes_cons]
  omega

/-- The parts are the bytes of the list, in order. -/
theorem splitAll_splits : Splits sizeMax room l (splitAll sizeMax room l) := by
  induction l generalizing room with
  | nil =>
    refine ⟨forall_mem_nil _, fun _ => ⟨rfl, rfl, ?_⟩, nofun⟩
    rintro (⟨-, filled⟩ | more)
    · exact Nat.lt_irrefl 0 filled
    · exact Nat.not_lt_zero room more
  | cons e l ih =>
    have head := @splitElement_splits sizeMax e.offset room 0 e.size
    change Splits sizeMax room [e] _ at head
    rw [splitAll]
    split
    · rename_i first
      obtain ⟨same, length, fits⟩ := head.all first
      have tail := @ih (room - segmentsOf sizeMax [e])
      rw [length]
      refine ⟨forall_mem_append.mpr ⟨head.sizes, tail.sizes⟩, fun all => ?_, fun refused => ?_⟩
      · obtain ⟨later, count, more⟩ := tail.all all
        refine ⟨?_, ?_, mt (crowded_cons e fits).mp more⟩
        · rw [units_append, same, later, ← units_append, singleton_append]
        · rw [length_append, length, count, ← segmentsOf_cons]
      · obtain ⟨count, crowded⟩ := tail.refused refused
        refine ⟨?_, (crowded_cons e fits).mpr crowded⟩
        rw [length_append, length, count]
        unfold Crowded at fits
        omega
    · rename_i first
      obtain ⟨count, crowded⟩ := head.refused (by simpa using first)
      refine ⟨head.sizes, fun all => absurd all first, fun _ => ⟨count, ?_⟩⟩
      rcases crowded with ⟨zero, filled⟩ | more
      · exact .inl ⟨zero, Nat.add_pos_left filled _⟩
      · exact .inr (Nat.lt_of_lt_of_le more (Nat.le_add_right _ _))

end Parts

/-! ## The extent -/

section Extents

variable {a} {srb} {cdb : Memory} {lba : Nat}

theorem startIoForwards_transfers {op : ScsiOp} (forwards : startIoForwards features op = true) :
    op.transfers = true := by
  cases op <;> first | rfl | cases forwards

variable (a srb) in
/-- A transfer that is refused before its list is read. -/
def TransferRefused (lba : Nat) : Prop :=
  (srb.pathId ≠ 0 ∨ srb.targetId ≠ 0 ∨ srb.lun ≠ 0 ∨ a.removed = true) ∨ a.stopped = true ∨
    (a.lastLBA + (2 ^ 64 - 1)) % 2 ^ 64 < lba * (a.info.blkSize / sectorSize) % 2 ^ 64 ∨
    a.lastLBA < (lba * (a.info.blkSize / sectorSize) % 2 ^ 64 +
      transferBlocks a.info.blkSize srb.dataTransferLength) % 2 ^ 64 ∨
    srb.sgList = none

section Outcome

variable (execute : srb.executeScsi = true) (is : srb.cdb = some cdb)
  (transfers : (scsiOp cdb).transfers = true) (address : logicalBlock cdb = some lba)

include execute is transfers address

theorem virtIoBuildIo_refused (refused : TransferRefused a srb lba) :
    ∃ status, virtIoBuildIo a srb = .error (status, []) := by
  rw [virtIoBuildIo, is, if_neg (by simp [execute] : ¬ srb.executeScsi = false)]
  dsimp only
  rw [if_pos transfers, buildTransfer, rhelGetLba, address]
  dsimp only
  split_ifs with absent stopped first last
  · exact ⟨_, rfl⟩
  · exact ⟨_, rfl⟩
  · exact ⟨_, rfl⟩
  · exact ⟨_, rfl⟩
  · simp only [TransferRefused, absent, stopped, first, last, Bool.false_eq_true, false_or]
      at refused
    rw [refused]
    exact ⟨_, rfl⟩

/-- What becomes of a transfer that passes the tests. -/
theorem virtIoBuildIo_eq {l : List Extent} (passed : ¬ TransferRefused a srb lba)
    (list : srb.sgList = some l) : virtIoBuildIo a srb =
      if (dataSegments a.features a.info l).2 then
        .ok (some (blkRequest a srb cdb (dataSegments a.features a.info l).1))
      else .error (.badSrbBlockLength, (dataSegments a.features a.info l).1) := by
  simp only [TransferRefused, not_or] at passed
  obtain ⟨present, running, first, last, -⟩ := passed
  rw [virtIoBuildIo, is, if_neg (by simpa using present), if_neg running,
    if_neg (by simp [execute] : ¬ srb.executeScsi = false)]
  dsimp only
  rw [if_pos transfers, buildTransfer, rhelGetLba, address]
  dsimp only
  rw [if_neg first, if_neg last, list]
  dsimp only
  split <;> rfl

end Outcome

structure ExtentFits (a : BlkAdapter) (srb : BlkSrb) (lba : Nat) (l : List Extent) : Prop where
  /-- The sector does not wrap in 64 bits. -/
  sector : lba * (a.info.blkSize / sectorSize) < 2 ^ 64
  inside : lba * a.info.blkSize + srb.dataTransferLength ≤ a.info.capacity * sectorSize
  /-- There are no bytes in the elements that are left out. -/
  elements : bytes (l.drop (maxPhysSegments + 1)) = 0
  segments : a.features.sizeMax = true →
    segmentsOf a.info.sizeMax (l.take (maxPhysSegments + 1)) ≤ maxPhysSegments + 1

/-- The list of a transfer needs more than `seg_max` segments. -/
def SegMaxExceeded (a : BlkAdapter) (l : List Extent) : Prop :=
  a.features.sizeMax = true ∧
    Crowded a.info.sizeMax a.info.segMax (l.take (maxPhysSegments + 1))

theorem dataSegments_spec (l : List Extent) :
    (a.features.sizeMax = true →
      ∀ e ∈ (dataSegments a.features a.info l).1, e.size ≤ a.info.sizeMax) ∧
    ((dataSegments a.features a.info l).2 = true → ¬ SegMaxExceeded a l ∧
      units (dataSegments a.features a.info l).1 = units (l.take (maxPhysSegments + 1)) ∧
      ((dataSegments a.features a.info l).1.length ≤ maxPhysSegments + 1 ↔
        (a.features.sizeMax = true →
          segmentsOf a.info.sizeMax (l.take (maxPhysSegments + 1)) ≤ maxPhysSegments + 1))) ∧
    ((dataSegments a.features a.info l).2 = false → SegMaxExceeded a l ∧
      (dataSegments a.features a.info l).1.length = a.info.segMax) := by
  unfold dataSegments SegMaxExceeded
  cases limit : a.features.sizeMax with
  | true =>
    rw [if_pos rfl]
    have splits := @splitAll_splits a.info.sizeMax a.info.segMax (l.take (maxPhysSegments + 1))
    refine ⟨fun _ => splits.sizes, fun all => ?_, fun refused => ?_⟩
    · obtain ⟨same, count, fits⟩ := splits.all all
      exact ⟨fun more => fits more.2, same, by rw [count]; simp⟩
    · obtain ⟨count, crowded⟩ := splits.refused refused
      exact ⟨⟨rfl, crowded⟩, count⟩
  | false =>
    rw [if_neg Bool.false_ne_true]
    exact ⟨nofun, fun _ => ⟨nofun, rfl, iff_of_true (length_take_le _ _) nofun⟩, nofun⟩

/-- The transfer is refused before its list is read; or because the list needs more than `seg_max`
segments, and so many fit `sg`; or it may be built. -/
def ExtentRegular (a : BlkAdapter) (srb : BlkSrb) (lba : Nat) : Prop :=
  TransferRefused a srb lba ∨ ∀ l ∈ srb.sgList,
    (SegMaxExceeded a l → a.info.segMax < virtioMaxSg) ∧
    (¬ SegMaxExceeded a l → ExtentFits a srb lba l)

variable (a srb) in
/-- A read or a write reaches the device with its extent, or is refused. -/
structure ExtentRight (lba : Nat) : Prop where
  request : ∀ r, placed a srb = some r → r.sector = lba * a.info.blkSize / sectorSize ∧
    r.sector * sectorSize + bytes r.data ≤ a.info.capacity * sectorSize ∧
    (∃ l ∈ srb.sgList, units r.data = units l) ∧
    (a.features.sizeMax = true → ∀ e ∈ r.data, e.size ≤ a.info.sizeMax) ∧
    r.sg.length ≤ virtioMaxSg
  /-- What a refused request leaves in `sg`, from index 1 on. -/
  stored : ∀ status data, virtIoBuildIo a srb = .error (status, data) → data.length < virtioMaxSg
  past : a.info.capacity * sectorSize < lba * a.info.blkSize + srb.dataTransferLength →
    ∃ e, virtIoBuildIo a srb = .error e

theorem blkRequest_data (data : List Extent) : (blkRequest a srb cdb data).data = data := by
  rw [BlkRequest.data, blkRequest, cons_append, tail_cons, dropLast_concat]

theorem length_blkRequest (data : List Extent) :
    (blkRequest a srb cdb data).sg.length = data.length + 2 := by
  simp [blkRequest]

theorem extentRight_error {e : SrbStatus × List Extent} (is : virtIoBuildIo a srb = .error e) :
    ExtentRight a srb lba ↔ e.2.length < virtioMaxSg := by
  have nothing : placed a srb = none := by rw [placed, is]
  constructor
  · intro right
    exact right.stored e.1 e.2 is
  · intro small
    refine ⟨fun r onQueue => ?_, fun status data refused => ?_, fun _ => ⟨e, is⟩⟩
    · rw [nothing] at onQueue
      cases onQueue
    · rw [is] at refused
      cases refused
      exact small

theorem extentRight_ok {l data : List Extent} (is : srb.cdb = some cdb)
    (forwards : startIoForwards a.features (scsiOp cdb) = true)
    (built : virtIoBuildIo a srb = .ok (some (blkRequest a srb cdb data)))
    (address : logicalBlock cdb = some lba) (whole : sectorSize ∣ a.info.blkSize)
    (list : srb.sgList = some l) (same : units data = units (l.take (maxPhysSegments + 1)))
    (sizes : a.features.sizeMax = true → ∀ e ∈ data, e.size ≤ a.info.sizeMax)
    (count : data.length ≤ maxPhysSegments + 1 ↔ (a.features.sizeMax = true →
      segmentsOf a.info.sizeMax (l.take (maxPhysSegments + 1)) ≤ maxPhysSegments + 1)) :
    ExtentRight a srb lba ↔ ExtentFits a srb lba l := by
  obtain ⟨k, size⟩ := whole
  have scale : a.info.blkSize / sectorSize = k := by
    rw [size]
    exact Nat.mul_div_cancel_left k (by decide)
  have sector : (blkRequest a srb cdb data).sector = lba * k % 2 ^ 64 := by
    rw [blkRequest, rhelGetLba, address, scale]
  have start : lba * a.info.blkSize / sectorSize = lba * k := by
    rw [size, Nat.mul_left_comm, Nat.mul_div_cancel_left _ (by decide)]
  have onQueue : placed a srb = some (blkRequest a srb cdb data) := by
    rw [placed, built, is]
    exact if_pos forwards
  have parts : bytes data + bytes (l.drop (maxPhysSegments + 1)) = srb.dataTransferLength := by
    rw [← length_units data, same, length_units, ← bytes_append, take_append_drop,
      srb.describes l list]
  constructor
  · intro right
    obtain ⟨atSector, -, ⟨l', list', all⟩, -, fits⟩ := right.request _ onQueue
    rw [list] at list'
    cases list'
    rw [sector, start] at atSector
    rw [blkRequest_data] at all
    refine ⟨?_, Nat.le_of_not_lt fun past => ?_, ?_, count.mp ?_⟩
    · rw [scale]
      have := Nat.mod_lt (lba * k) (show 0 < 2 ^ 64 by decide)
      omega
    · obtain ⟨e, refused⟩ := right.past past
      rw [built] at refused
      cases refused
    · have total := congrArg length all
      rw [length_units, length_units, srb.describes l list] at total
      omega
    · rw [length_blkRequest] at fits
      exact Nat.le_of_add_le_add_right fits
  · rintro ⟨word, inside, elements, segments⟩
    rw [scale] at word
    refine ⟨fun r here => ?_, fun status data refused => ?_, fun past => ?_⟩
    · rw [onQueue] at here
      cases here
      rw [blkRequest_data, start, sector, Nat.mod_eq_of_lt word]
      refine ⟨rfl, ?_, ⟨l, list, ?_⟩, sizes, ?_⟩
      · rw [size, Nat.mul_left_comm, Nat.mul_comm sectorSize] at inside
        omega
      · have rest : units (l.drop (maxPhysSegments + 1)) = [] :=
          eq_nil_of_length_eq_zero (by rw [length_units, elements])
        rw [same, ← append_nil (units _), ← rest, ← units_append, take_append_drop]
      · rw [length_blkRequest]
        exact Nat.add_le_add_right (count.mpr segments) 2
    · rw [built] at refused
      cases refused
    · omega

/-- **A read or a write reaches the device with its extent**, and what runs past the end of the
device is refused, exactly for the regular transfers. -/
theorem readWrite_extent (execute : srb.executeScsi = true) (is : srb.cdb = some cdb)
    (forwards : startIoForwards a.features (scsiOp cdb) = true)
    (address : logicalBlock cdb = some lba)
    (whole : 0 < a.info.blkSize ∧ sectorSize ∣ a.info.blkSize) :
    ExtentRight a srb lba ↔ ExtentRegular a srb lba := by
  have transfers := startIoForwards_transfers forwards
  by_cases refused : TransferRefused a srb lba
  · obtain ⟨status, error⟩ := virtIoBuildIo_refused execute is transfers address refused
    have small : 0 < virtioMaxSg := by decide
    exact iff_of_true ((extentRight_error error).mpr small) (.inl refused)
  rw [ExtentRegular, or_iff_right refused]
  cases list : srb.sgList with
  | none => simp [TransferRefused, list] at refused
  | some l =>
    have outcome := virtIoBuildIo_eq execute is transfers address refused list
    obtain ⟨sizes, all, more⟩ := dataSegments_spec (a := a) l
    simp only [Option.mem_def, Option.some.injEq, forall_eq']
    cases done : (dataSegments a.features a.info l).2 with
    | false =>
      obtain ⟨exceeded, count⟩ := more done
      rw [done, if_neg Bool.false_ne_true] at outcome
      rw [extentRight_error outcome, count, forall_prop_of_true exceeded,
        and_iff_left (absurd exceeded)]
    | true =>
      obtain ⟨fits, same, count⟩ := all done
      rw [done, if_pos rfl] at outcome
      rw [extentRight_ok is forwards outcome address whole.2 list same sizes count,
        and_iff_right (absurd · fits), forall_prop_of_true fits]

def write16Cdb (lba : Byte) : Memory := memory [0x8A, 0, 0, 0, 0, 0, 0, 0, 0, lba]

def writeSrb (lba : Byte) (length : Nat) : BlkSrb where
  pathId := 0
  targetId := 0
  lun := 0
  executeScsi := true
  cdb := some (write16Cdb lba)
  dataOut := true
  dataTransferLength := length
  sgList := some [⟨0x10000, length⟩]
  outHdr := 0x1000
  status := 0x1010
  describes := by
    intro l list
    obtain rfl := Option.some.inj list
    rfl

/-- A device of ten blocks of 4096 bytes, with segments of up to 1024 bytes. -/
def tenBlocks : BlkAdapter where
  features := ⟨true, false, false, false⟩
  info := ⟨80, 1024, 126, 4096⟩
  lastLBA := 80
  removed := false
  stopped := false

/-- The last block, in four segments. -/
theorem readWrite_extent_last : ∃ r, placed tenBlocks (writeSrb 9 4096) = some r ∧ r.sector = 72 ∧
      units r.data = units [⟨0x10000, 4096⟩] ∧ r.data.length = 4 := by
  have regular : ExtentRegular tenBlocks (writeSrb 9 4096) 9 := by
    refine .inr fun l list => ?_
    cases list
    exact ⟨fun _ => by decide, fun _ => ⟨by decide, by decide, by decide, fun _ => by decide⟩⟩
  have address : logicalBlock (write16Cdb 9) = some 9 := by decide
  have count : (placed tenBlocks (writeSrb 9 4096)).map (·.data.length) = some 4 := by
    decide +kernel
  obtain ⟨r, onQueue, four⟩ := Option.map_eq_some_iff.mp count
  obtain ⟨sector, -, ⟨l, list, same⟩, -⟩ := ((readWrite_extent rfl rfl (by decide) address
    (by decide)).mpr regular).request r onQueue
  cases list
  exact ⟨r, onQueue, sector, same, four⟩

/-- Two blocks from the last one on: the test adds two to sector 72. -/
theorem readWrite_past_end :
    ∃ r, placed tenBlocks (writeSrb 9 8192) = some r ∧ r.sector = 72 ∧ bytes r.data = 16 * 512 ∧
      tenBlocks.info.capacity < r.sector + 16 := by
  have shape : (placed tenBlocks (writeSrb 9 8192)).map (fun r => (r.sector, bytes r.data)) =
      some (72, 16 * 512) := by
    decide +kernel
  obtain ⟨r, onQueue, is⟩ := Option.map_eq_some_iff.mp shape
  obtain ⟨sector, length⟩ := Prod.mk.inj is
  refine ⟨r, onQueue, sector, length, ?_⟩
  rw [sector]
  decide

end Extents

end KvmGuestDrivers.VioStor

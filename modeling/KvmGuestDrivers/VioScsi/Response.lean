/-
# VioScsi.Response -- what the driver makes of a response of the device

`VioScsiBuildIo` describes the data of an SRB to the device, up to a number of elements, and sums
the lengths up in `Xfer`.  `HandleResponse` makes the status, the transfer length and the sense data
of the SRB from what the device returns.
-/
import KvmGuestDrivers.VioStor.Adapter

namespace KvmGuestDrivers.VioScsi

set_option autoImplicit false

open VioStor (SrbStatus)

/-! ## Requests and responses -/

/-- The fields of an SRB that the two functions read. -/
structure ScsiSrb where
  dataTransferLength : Nat
  senseInfoBufferLength : Nat
  dataOut : Bool
  /-- The lengths of the scatter-gather list, if there is one. -/
  sgList : Option (List Nat)
  short : dataTransferLength < 2 ^ 32

/-- `VirtIOSCSICmdResp`; the bytes of `sense` are only counted. -/
structure ScsiResponse where
  senseLen : Nat
  resid : Nat
  status : Nat
  response : Nat

/-- `VIRTIO_SCSI_SENSE_SIZE`, the length of `sense`. -/
def senseSize : Nat := 96

/-- `FIELD_OFFSET(SENSE_DATA, CommandSpecificInformation)`. -/
def senseMinimum : Nat := 8

def scsistatGood : Nat := 0

/-! ## Building -/

/-- The data of a request as it is described to the device: what it reads, what it writes, and
`Xfer`. -/
structure ScsiIo where
  outData : List Nat
  inData : List Nat
  xfer : Nat

def addXfer (xfer length : Nat) : Nat := (xfer + length) % 2 ^ 32

variable (maxPhysicalBreaks : Nat)

/-- `VioScsiBuildIo`: the elements up to `max_physical_breaks + 1` are described, in the loop of the
direction. -/
def buildIo (srb : ScsiSrb) : ScsiIo :=
  match srb.sgList with
  | none => ⟨[], [], 0⟩
  | some list =>
    let taken := list.take (min ((maxPhysicalBreaks + 1) % 2 ^ 32) list.length)
    if srb.dataOut then ⟨taken, [], taken.foldl addXfer 0⟩
    else ⟨[], taken, taken.foldl addXfer 0⟩

def ScsiIo.described (io : ScsiIo) : Nat := io.outData.sum + io.inData.sum

theorem foldl_addXfer (lengths : List Nat) (xfer : Nat) (short : xfer < 2 ^ 32) :
    lengths.foldl addXfer xfer = (xfer + lengths.sum) % 2 ^ 32 := by
  induction lengths generalizing xfer with
  | nil => exact (Nat.mod_eq_of_lt short).symm
  | cons length _ ih =>
    rw [List.foldl_cons, ih (addXfer xfer length) (Nat.mod_lt _ (by decide)), addXfer,
      List.sum_cons, Nat.mod_add_mod, add_assoc]

/-- `Xfer` is the number of bytes described, modulo 2^32. -/
theorem buildIo_xfer (srb : ScsiSrb) :
    (buildIo maxPhysicalBreaks srb).xfer = (buildIo maxPhysicalBreaks srb).described % 2 ^ 32 := by
  have sum (taken : List Nat) : taken.foldl addXfer 0 = taken.sum % 2 ^ 32 := by
    rw [foldl_addXfer taken 0 (by decide), zero_add]
  unfold buildIo
  cases srb.sgList with
  | none => rfl
  | some =>
    simp only [ScsiIo.described]
    split
    · exact sum _
    · refine (sum _).trans ?_
      rw [List.sum_nil, zero_add]

/-! ## Handling -/

/-- What `HandleResponse` leaves in the SRB; `senseCopied` is the number of bytes that it copies
from the start of `resp->sense`. -/
structure ScsiOutcome where
  srbStatus : SrbStatus
  scsiStatus : Option Nat
  dataTransferLength : Nat
  senseCopied : Nat
  deriving DecidableEq

variable (resp : ScsiResponse)

/-- The first switch of `HandleResponse`, over the `VIRTIO_SCSI_S_...` codes. -/
def responseStatus : SrbStatus :=
  match resp.response with
  | 0 => if resp.status = scsistatGood then .success else .error
  | 1 => .dataOverrun
  | 2 => .aborted
  | 3 => .invalidTargetId
  | 4 => .busReset
  | 5 => .busy
  | _ => .error

/-- `HandleResponse`, up to `CompleteRequest`. -/
def handleResponse (srb : ScsiSrb) (xfer : Nat) : ScsiOutcome :=
  let scsiStatus := if resp.response = 0 then some resp.status else none
  let srbStatus := responseStatus resp
  if srbStatus = .success ∧ resp.resid ≠ 0 ∧ resp.resid < srb.dataTransferLength then
    ⟨.dataOverrun, scsiStatus, srb.dataTransferLength - resp.resid, 0⟩
  else if srbStatus ≠ .success then
    if senseMinimum ≤ srb.senseInfoBufferLength then
      ⟨if srbStatus = .error then .errorAutosense else srbStatus, scsiStatus, 0,
        min resp.senseLen srb.senseInfoBufferLength⟩
    else ⟨srbStatus, scsiStatus, 0, 0⟩
  else if xfer ≠ 0 ∧ xfer < srb.dataTransferLength then ⟨.dataOverrun, scsiStatus, xfer, 0⟩
  else ⟨.success, scsiStatus, srb.dataTransferLength, 0⟩

/-- What the SRB says is true of what the device did. -/
structure Honest (resp : ScsiResponse) (srb : ScsiSrb) (described : Nat) (o : ScsiOutcome) :
    Prop where
  length : o.dataTransferLength ≤ described - resp.resid
  success : o.srbStatus = .success → srb.dataTransferLength ≤ described - resp.resid
  sense : o.senseCopied ≤ resp.senseLen ∧ o.senseCopied ≤ senseSize

/-- A good response with data has a residue below the transfer length, and data that was described
(all of it if there is a residue), or so much data was described that the residue can be larger;
with another response no more than the sense array is copied. -/
def ResponseRegular (srb : ScsiSrb) (described : Nat) : Prop :=
  if responseStatus resp = .success then
    srb.dataTransferLength = 0 ∨ resp.resid = 0 ∧ described ≠ 0 ∨
      resp.resid < srb.dataTransferLength ∧ srb.dataTransferLength ≤ described ∨
      srb.dataTransferLength + resp.resid ≤ described ∨
      described % 2 ^ 32 ≠ 0 ∧ srb.dataTransferLength ≤ resp.resid ∧
        described % 2 ^ 32 + resp.resid ≤ described
  else
    senseMinimum ≤ srb.senseInfoBufferLength →
      min resp.senseLen srb.senseInfoBufferLength ≤ senseSize

section Cases

variable {resp} (srb : ScsiSrb)

theorem handleResponse_bad (xfer : Nat) (bad : responseStatus resp ≠ .success) :
    (handleResponse resp srb xfer).srbStatus ≠ .success ∧
      (handleResponse resp srb xfer).dataTransferLength = 0 ∧
      (handleResponse resp srb xfer).senseCopied = if senseMinimum ≤ srb.senseInfoBufferLength then
          min resp.senseLen srb.senseInfoBufferLength else 0 := by
  unfold handleResponse
  simp only [if_neg fun h : responseStatus resp = .success ∧ _ => bad h.1, if_pos bad]
  split
  · refine ⟨?_, rfl, rfl⟩
    split
    · exact SrbStatus.noConfusion
    · exact bad
  · exact ⟨bad, rfl, rfl⟩

theorem handleResponse_good (xfer : Nat) (good : responseStatus resp = .success) :
    (handleResponse resp srb xfer).senseCopied = 0 ∧
      if resp.resid ≠ 0 ∧ resp.resid < srb.dataTransferLength then
        (handleResponse resp srb xfer).srbStatus = .dataOverrun ∧
          (handleResponse resp srb xfer).dataTransferLength = srb.dataTransferLength - resp.resid
      else if xfer ≠ 0 ∧ xfer < srb.dataTransferLength then
        (handleResponse resp srb xfer).srbStatus = .dataOverrun ∧
          (handleResponse resp srb xfer).dataTransferLength = xfer
      else (handleResponse resp srb xfer).srbStatus = .success ∧
        (handleResponse resp srb xfer).dataTransferLength = srb.dataTransferLength := by
  have notBad : ¬ responseStatus resp ≠ .success := fun bad => bad good
  by_cases residue : resp.resid ≠ 0 ∧ resp.resid < srb.dataTransferLength
  · unfold handleResponse
    simp only [if_pos (And.intro good residue), if_pos residue, and_self]
  unfold handleResponse
  simp only [if_neg fun h : responseStatus resp = .success ∧ _ => residue h.2, if_neg notBad,
    if_neg residue]
  by_cases truncated : xfer ≠ 0 ∧ xfer < srb.dataTransferLength
  · simp only [if_pos truncated, and_self]
  · simp only [if_neg truncated, and_self]

end Cases

/-- **An honest transfer**, exactly for the regular responses: the length that is left is no more
than the bytes described less the residue, success means that the whole length was moved, and only
sense bytes that the device has reported are copied. -/
theorem response_honest (maxPhysicalBreaks : Nat) (resp : ScsiResponse) (srb : ScsiSrb) :
    Honest resp srb (buildIo maxPhysicalBreaks srb).described
        (handleResponse resp srb (buildIo maxPhysicalBreaks srb).xfer) ↔
      ResponseRegular resp srb (buildIo maxPhysicalBreaks srb).described := by
  have short := srb.short
  rw [buildIo_xfer]
  generalize (buildIo maxPhysicalBreaks srb).described = described
  unfold ResponseRegular
  by_cases good : responseStatus resp = .success
  · rw [if_pos good]
    obtain ⟨sense, rest⟩ := handleResponse_good srb (described % 2 ^ 32) good
    have noSense := And.intro (Nat.zero_le resp.senseLen) (Nat.zero_le senseSize)
    rw [← sense] at noSense
    -- what is left to compare is the length, and the whole length after a success
    have overrun {length : Nat}
        (is : (handleResponse resp srb (described % 2 ^ 32)).srbStatus = .dataOverrun ∧
          (handleResponse resp srb (described % 2 ^ 32)).dataTransferLength = length) :
        Honest resp srb described (handleResponse resp srb (described % 2 ^ 32)) ↔
          length ≤ described - resp.resid := by
      refine ⟨fun honest => is.2 ▸ honest.length, fun le => ⟨is.2.symm ▸ le, fun success => ?_,
        noSense⟩⟩
      rw [is.1] at success
      cases success
    by_cases residue : resp.resid ≠ 0 ∧ resp.resid < srb.dataTransferLength
    · rw [if_pos residue] at rest
      rw [overrun rest]
      omega
    · rw [if_neg residue] at rest
      by_cases truncated : described % 2 ^ 32 ≠ 0 ∧ described % 2 ^ 32 < srb.dataTransferLength
      · rw [if_pos truncated] at rest
        rw [overrun rest]
        omega
      · rw [if_neg truncated] at rest
        have whole : Honest resp srb described (handleResponse resp srb (described % 2 ^ 32)) ↔
            srb.dataTransferLength ≤ described - resp.resid :=
          ⟨fun honest => honest.success rest.1, fun le => ⟨rest.2.symm ▸ le, fun _ => le, noSense⟩⟩
        rw [whole]
        omega
  · rw [if_neg good]
    obtain ⟨status, length, sense⟩ := handleResponse_bad srb (described % 2 ^ 32) good
    constructor
    · intro honest room
      have copied := honest.sense.2
      rwa [sense, if_pos room] at copied
    · intro regular
      refine ⟨length ▸ Nat.zero_le _, fun success => absurd success status, ?_⟩
      rw [sense]
      split
      · rename_i room
        exact ⟨Nat.min_le_left _ _, regular room⟩
      · exact ⟨Nat.zero_le _, Nat.zero_le _⟩

def readOf (length : Nat) (short : length < 2 ^ 32) : ScsiSrb :=
  ⟨length, 255, false, some [length], short⟩

/-- A read of 4096 bytes of which 512 are missing. -/
theorem response_honest_residue : handleResponse ⟨0, 512, 0, 0⟩ (readOf 4096 (by decide))
        (buildIo 16 (readOf 4096 (by decide))).xfer = ⟨.dataOverrun, some 0, 3584, 0⟩ ∧
      Honest ⟨0, 512, 0, 0⟩ (readOf 4096 (by decide))
        (buildIo 16 (readOf 4096 (by decide))).described
        (handleResponse ⟨0, 512, 0, 0⟩ (readOf 4096 (by decide))
          (buildIo 16 (readOf 4096 (by decide))).xfer) :=
  ⟨by decide +kernel, (response_honest 16 ⟨0, 512, 0, 0⟩ (readOf 4096 (by decide))).mpr
    (.inr (.inr (.inl (by decide +kernel))))⟩

/-- A read of 4096 bytes of which none has come is completed with success and its whole length; 255
bytes are copied from the 96 of the sense array. -/
theorem response_dishonest : handleResponse ⟨0, 4096, 0, 0⟩ (readOf 4096 (by decide))
        (buildIo 16 (readOf 4096 (by decide))).xfer = ⟨.success, some 0, 4096, 0⟩ ∧
      (buildIo 16 (readOf 4096 (by decide))).described - 4096 = 0 ∧
      handleResponse ⟨255, 0, 2, 0⟩ (readOf 4096 (by decide))
        (buildIo 16 (readOf 4096 (by decide))).xfer = ⟨.errorAutosense, some 2, 0, 255⟩ := by
  decide +kernel

end KvmGuestDrivers.VioScsi

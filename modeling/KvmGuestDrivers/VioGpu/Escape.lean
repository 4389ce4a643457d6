/-
# VioGpu.Escape -- what an escape makes the driver read

The two escapes whose arguments become an index or a length, over the fields that the caller of
`D3DKMTEscape` chooses.
-/
import Mathlib.Algebra.GroupWithZero.Nat
import Mathlib.Tactic.ByContra
import Mathlib.Tactic.SplitIfs

namespace KvmGuestDrivers.VioGpu

set_option autoImplicit false

def sizeofEscape : Nat := 40
def sizeofSubmitCmdReq : Nat := 12
def sizeofCapsetReq : Nat := 20
def maxCapsetId : Nat := 63

inductive EscapeType where
  | getCaps
  | submitCmd
  | other

/-- `DXGKARG_ESCAPE` with what the two escapes read of the buffer, a device or `NULL`, and whether
the copy of the command can be allocated. -/
structure EscapeArgs where
  privateDriverDataSize : BitVec 32
  type : EscapeType
  dataLength : BitVec 16
  capsetId : BitVec 32
  cmdIsSubmit : Bool
  cmdSize : BitVec 32
  device : Bool
  allocated : Bool

inductive EscapeStatus where
  | invalidBufferSize
  | invalidParameter
  | invalidParameter1
  | insufficientResources

inductive EscapeAccess where
  | capsetInfo (index : Nat)
  | copy (offset size : Nat)
  | none

/-- `NegotiateCapsets`, for the ids that the host has answered with. -/
def negotiateCapsets (ids : List (BitVec 32)) : BitVec 64 :=
  ids.foldl (fun supported (id : BitVec 32) =>
    if id = 0 ∨ maxCapsetId < id.toNat then supported else supported ||| 1#64 <<< id.toNat) 0

/-- `VioGpuAdapter::Escape`, up to the access. -/
def escape (supported : BitVec 64) (e : EscapeArgs) : Except EscapeStatus EscapeAccess :=
  if e.privateDriverDataSize.toNat < sizeofEscape then .error .invalidBufferSize
  else
    match e.type with
    | .getCaps =>
      if e.dataLength.toNat < sizeofCapsetReq then .error .invalidBufferSize
      -- the processor takes the amount of a 64-bit shift modulo 64
      else if supported &&& 1#64 <<< (e.capsetId.toNat % 64) = 0 then .error .invalidParameter1
      else .ok (.capsetInfo e.capsetId.toNat)
    | .submitCmd =>
      let totalSize := sizeofEscape + e.dataLength.toNat
      let needed := (sizeofSubmitCmdReq + e.cmdSize.toNat) % 2 ^ 32
      if e.dataLength.toNat < sizeofSubmitCmdReq then .error .invalidBufferSize
      else if e.privateDriverDataSize.toNat < totalSize then .error .invalidBufferSize
      else if e.dataLength.toNat < needed then .error .invalidBufferSize
      else if !e.device then .error .invalidParameter
      else if !e.cmdIsSubmit then .error .invalidParameter
      else if e.cmdSize = 0 then .error .invalidParameter
      else if !e.allocated then .error .insufficientResources
      else .ok (.copy (sizeofEscape + sizeofSubmitCmdReq) e.cmdSize.toNat)
    | .other => .ok .none

/-- An access inside the caller's buffer, or inside the table. -/
def EscapeAccess.Inside (e : EscapeArgs) : EscapeAccess → Prop
  | capsetInfo index => index ≤ maxCapsetId
  | copy offset size => offset + size ≤ e.privateDriverDataSize.toNat
  | none => True

/-- The host has answered with a capset whose bit is the one that is tested for `capsetId`. -/
def TestedBit (ids : List (BitVec 32)) (capsetId : BitVec 32) : Prop :=
  ∃ id ∈ ids, id ≠ 0 ∧ id.toNat ≤ maxCapsetId ∧ id.toNat = capsetId.toNat % 64

/-- The escape is refused before the defect, or it has a known capset id, or a command that is
shorter than 4 GB together with its header. -/
def EscapeRegular (ids : List (BitVec 32)) (e : EscapeArgs) : Prop :=
  e.privateDriverDataSize.toNat < sizeofEscape ∨
    match e.type with
    | .getCaps => e.dataLength.toNat < sizeofCapsetReq ∨ e.capsetId.toNat < 64 ∨
        ¬ TestedBit ids e.capsetId
    | .submitCmd => e.dataLength.toNat < sizeofSubmitCmdReq ∨
        e.privateDriverDataSize.toNat < sizeofEscape + e.dataLength.toNat ∨
        e.device = false ∨ e.cmdIsSubmit = false ∨ e.allocated = false ∨
        e.cmdSize.toNat + sizeofSubmitCmdReq < 2 ^ 32
    | .other => True

theorem negotiateCapsets_bit (ids : List (BitVec 32)) {k : Nat} (low : k < 64) :
    (negotiateCapsets ids).getLsbD k = true ↔
      ∃ id ∈ ids, id ≠ 0 ∧ id.toNat ≤ maxCapsetId ∧ id.toNat = k := by
  -- the bits that the loop has set before are kept
  suffices every : ∀ supported : BitVec 64,
      (ids.foldl (fun supported (id : BitVec 32) =>
        if id = 0 ∨ maxCapsetId < id.toNat then supported
        else supported ||| 1#64 <<< id.toNat) supported).getLsbD k = true ↔
      supported.getLsbD k = true ∨ ∃ id ∈ ids, id ≠ 0 ∧ id.toNat ≤ maxCapsetId ∧ id.toNat = k by
    rw [negotiateCapsets, every]
    simp
  induction ids with
  | nil => simp
  | cons id rest ih =>
    intro supported
    rw [List.foldl_cons, ih]
    by_cases skipped : id = 0 ∨ maxCapsetId < id.toNat
    · rw [if_pos skipped]
      grind
    · have bit : (supported ||| 1#64 <<< id.toNat).getLsbD k = true ↔
          supported.getLsbD k = true ∨ id.toNat = k := by
        simp only [BitVec.getLsbD_or, BitVec.getLsbD_shiftLeft, BitVec.getLsbD_one, low,
          Bool.or_eq_true, Bool.and_eq_true, decide_eq_true_eq, Bool.not_eq_true',
          decide_eq_false_iff_not, true_and]
        exact or_congr_right (by omega)
      rw [if_neg skipped, bit]
      grind

/-- The test of `VIOGPU_GET_CAPS`. -/
theorem capset_unsupported (ids : List (BitVec 32)) (capsetId : BitVec 32) :
    negotiateCapsets ids &&& 1#64 <<< (capsetId.toNat % 64) = 0 ↔ ¬ TestedBit ids capsetId := by
  have low : capsetId.toNat % 64 < 64 := Nat.mod_lt _ (by decide)
  rw [TestedBit, ← negotiateCapsets_bit ids low, Bool.not_eq_true]
  constructor
  · intro clear
    have bit := congrArg (fun word => BitVec.getLsbD word (capsetId.toNat % 64)) clear
    simpa [low] using bit
  · intro clear
    ext k inside
    by_cases tested : k = capsetId.toNat % 64
    · rw [BitVec.getLsbD_eq_getElem low] at clear
      simp [tested, clear]
    · simp only [BitVec.getElem_and, BitVec.getElem_shiftLeft, BitVec.getElem_one]
      grind

/-- **An escape stays inside the caller's buffer** exactly when it is regular. -/
theorem escape_inside (ids : List (BitVec 32)) (e : EscapeArgs) :
    (∀ access, escape (negotiateCapsets ids) e = .ok access → access.Inside e) ↔
      EscapeRegular ids e := by
  unfold escape EscapeRegular
  by_cases small : e.privateDriverDataSize.toNat < sizeofEscape
  · simp [small]
  simp only [small, if_false, false_or]
  cases e.type with
  | getCaps =>
    dsimp only
    constructor
    · intro inside
      by_contra irregular
      simp only [not_or, not_not] at irregular
      obtain ⟨long, unknown, tested⟩ := irregular
      rw [if_neg long, if_neg (fun clear => (capset_unsupported ids _).mp clear tested)] at inside
      have index : e.capsetId.toNat ≤ maxCapsetId := inside _ rfl
      unfold maxCapsetId at index
      omega
    · intro regular access reached
      split_ifs at reached with short unsupported
      have tested := mt (capset_unsupported ids e.capsetId).mpr unsupported
      cases reached
      simp only [short, tested, false_or, or_false] at regular
      exact Nat.le_of_lt_succ regular
  | submitCmd =>
    dsimp only
    unfold sizeofEscape sizeofSubmitCmdReq at *
    constructor
    · intro inside
      by_contra irregular
      simp only [not_or, Bool.not_eq_false] at irregular
      obtain ⟨long, room, device, submit, allocated, huge⟩ := irregular
      have wraps : ¬ e.dataLength.toNat < (12 + e.cmdSize.toNat) % 2 ^ 32 := by omega
      have nonzero : e.cmdSize ≠ 0 := by
        rintro zero
        simp [zero] at huge
      simp only [long, room, wraps, device, submit, allocated, nonzero, if_false, Bool.not_true,
        Bool.false_eq_true] at inside
      have copied : 40 + 12 + e.cmdSize.toNat ≤ e.privateDriverDataSize.toNat := inside _ rfl
      omega
    · intro regular access reached
      split_ifs at reached with _ _ _ device submit _ allocated
      cases reached
      simp only [Bool.not_eq_true', Bool.not_eq_false] at device submit allocated
      simp only [device, submit, allocated, Bool.true_eq_false, false_or] at regular
      show 40 + 12 + e.cmdSize.toNat ≤ e.privateDriverDataSize.toNat
      omega
  | other => simp [EscapeAccess.Inside]

theorem escape_inside_submit : ∃ e, escape (negotiateCapsets []) e = .ok (.copy 52 100) ∧
    (EscapeAccess.copy 52 100).Inside e :=
  ⟨⟨152, .submitCmd, 112, 0, true, 100, true, true⟩, rfl,
    (escape_inside [] _).mpr (Or.inr (by decide)) _ rfl⟩

/-- The length of a command and of its header is cut to 32 bits, and the test of the capset shifts
by the id modulo 64: a command of `2 ^ 32 - 12` bytes passes for none, and capset 65 for capset 1.
-/
theorem escape_outside : (∃ e, escape (negotiateCapsets []) e = .ok (.copy 52 0xfffffff4) ∧
      ¬ (EscapeAccess.copy 52 0xfffffff4).Inside e) ∧
    ∃ e, escape (negotiateCapsets [1]) e = .ok (.capsetInfo 65) ∧
      ¬ (EscapeAccess.capsetInfo 65).Inside e :=
  ⟨⟨⟨52, .submitCmd, 12, 0, true, 0xfffffff4, true, true⟩, rfl, by simp [EscapeAccess.Inside]⟩,
    ⟨60, .getCaps, 20, 65, true, 0, true, true⟩, rfl, by simp [EscapeAccess.Inside, maxCapsetId]⟩

end KvmGuestDrivers.VioGpu

/-
# VioFs.Write -- the requests of a write

`Write` sends a buffer to the host in pieces of at most `MaxWrite` bytes.  The host may take less
than it is sent; the loop goes on behind what was taken until nothing is left.  With
`ConstrainedIo` the buffer is first cut at the end of the file.

`writeFile` starts where the function knows the size of the file; before that, and when there is no
memory for a request, it returns without sending anything.
-/
import KvmGuestDrivers.Theory.Loop
import Mathlib.Algebra.GroupWithZero.Nat
import Mathlib.Tactic.ByContra

namespace KvmGuestDrivers.VioFs

set_option autoImplicit false

open Theory List

structure WriteArgs where
  offset : BitVec 64
  length : BitVec 32
  writeToEndOfFile : Bool
  constrainedIo : Bool

/-- A `FUSE_WRITE` request: the bytes of the buffer from `start` on, and how many of them the host
takes. -/
structure FuseWrite where
  offset : Nat
  start : Nat
  size : Nat
  taken : Nat
  deriving DecidableEq

variable (w : WriteArgs) (fileSize : BitVec 64)

/-- `Offset`, after `WriteToEndOfFile` has been looked at. -/
def WriteArgs.writeOffset : BitVec 64 := if w.writeToEndOfFile then fileSize else w.offset

/-- `Length`, after `ConstrainedIo` has been looked at; `none` if the function returns. -/
def WriteArgs.writeLength : Option (BitVec 32) :=
  if w.constrainedIo then
    if fileSize ≤ w.writeOffset fileSize then none
    else if fileSize < w.writeOffset fileSize + w.length.setWidth 64 then
      some ((fileSize - w.writeOffset fileSize).setWidth 32)
    else some w.length
  else some w.length

variable (maxWrite : Nat) (reply : Nat → Option Nat)

/-- The loop, with what it has sent; `reply` gives the size in the answer to each request, or an
error.  No answer is larger than its request. -/
def writeLoop (offset : Nat) : Nat → Nat → Nat → List FuseWrite → Option (Nat × List FuseWrite)
  | 0, _, _, _ => none
  | turns + 1, length, transferred, sent =>
    let size := min length maxWrite
    let request := FuseWrite.mk ((offset + transferred) % 2 ^ 64) transferred size
    match reply sent.length with
    | none => some (transferred, sent ++ [request 0])
    | some taken =>
      let sent := sent ++ [request taken]
      if 0 < length - taken then
        writeLoop offset turns (length - taken) (transferred + taken) sent
      else some (transferred + taken, sent)

/-- `Write`: `*PBytesTransferred` and the requests; `none` if it is still running after that many
turns. -/
def writeFile (turns : Nat) : Option (Nat × List FuseWrite) :=
  match w.writeLength fileSize with
  | none => some (0, [])
  | some length => writeLoop maxWrite reply (w.writeOffset fileSize).toNat turns length.toNat 0 []

/-- The bytes that the host has taken: where it puts them, and where they are in the buffer. -/
def written (sent : List FuseWrite) : List (Nat × Nat) :=
  sent.flatMap fun r => (range r.taken).map fun i => (r.offset + i, r.start + i)

/-! ## The replies -/

/-- What the first replies take together. -/
def taken : Nat → Nat
  | 0 => 0
  | k + 1 => taken k + (reply k).getD 0

variable (offset length : Nat)

/-- Another request follows request `k` of a write of `length` bytes: the host has taken some, and
there are more.  Request `k` is sent if one follows each of those before it. -/
def Continues (k : Nat) : Prop := reply k ≠ none ∧ taken reply (k + 1) < length

instance : DecidablePred (Continues reply length) := fun _ =>
  inferInstanceAs (Decidable (_ ∧ _))

/-- No answer is larger than its request. -/
def Honest : Prop :=
  ∀ k, Made (Continues reply length) k →
    ∀ n ∈ reply k, n ≤ min (length - taken reply k) maxWrite

def requestAt (k : Nat) : FuseWrite where
  offset := (offset + taken reply k) % 2 ^ 64
  start := taken reply k
  size := min (length - taken reply k) maxWrite
  taken := (reply k).getD 0

def requestsTo (k : Nat) : List FuseWrite :=
  (range k).map (requestAt maxWrite reply offset length)

variable {w fileSize maxWrite reply offset length}

theorem requestsTo_succ (k : Nat) : requestsTo maxWrite reply offset length (k + 1) =
    requestsTo maxWrite reply offset length k ++ [requestAt maxWrite reply offset length k] := by
  simp [requestsTo, range_succ]

/-- One turn, from the state in which request `k` is sent. -/
theorem writeLoop_turn (turns k : Nat) :
    writeLoop maxWrite reply offset (turns + 1) (length - taken reply k) (taken reply k)
        (requestsTo maxWrite reply offset length k) =
      if Continues reply length k then
        writeLoop maxWrite reply offset turns (length - taken reply (k + 1))
          (taken reply (k + 1)) (requestsTo maxWrite reply offset length (k + 1))
      else some (taken reply (k + 1), requestsTo maxWrite reply offset length (k + 1)) := by
  have number : (requestsTo maxWrite reply offset length k).length = k := by simp [requestsTo]
  rw [writeLoop, requestsTo_succ, requestAt]
  simp only [number]
  cases answer : reply k with
  | none => simp [Continues, taken, answer]
  | some n =>
    have rest : length - taken reply k - n = length - taken reply (k + 1) := by
      simp [taken, answer, Nat.sub_sub]
    simp only [rest, Nat.sub_pos_iff_lt]
    by_cases more : taken reply (k + 1) < length
    · rw [if_pos more, if_pos ⟨by simp [answer], more⟩]
      simp [taken, answer]
    · rw [if_neg more, if_neg fun goes => more goes.2]
      simp [taken, answer]

/-- The loop ends with the last request, if there is one. -/
theorem writeLoop_ends {result : Nat × List FuseWrite} :
    (∃ turns, writeLoop maxWrite reply offset turns length 0 [] = some result) ↔
      ∃ k, EndsAt (Continues reply length) k ∧
        result = (taken reply (k + 1), requestsTo maxWrite reply offset length (k + 1)) :=
  loop_ends (f := fun turns k => writeLoop maxWrite reply offset turns (length - taken reply k)
    (taken reply k) (requestsTo maxWrite reply offset length k)) (fun _ => rfl) writeLoop_turn

theorem Honest.taken_le (honest : Honest maxWrite reply length) {k : Nat}
    (sent : Made (Continues reply length) k) :
    taken reply k ≤ length ∧ taken reply (k + 1) ≤ length := by
  have here : taken reply k ≤ length := by
    cases k with
    | zero => exact Nat.zero_le length
    | succ k => exact Nat.le_of_lt (sent k (Nat.lt_succ_self k)).2
  refine ⟨here, ?_⟩
  cases answer : reply k with
  | none => simpa [taken, answer] using here
  | some n =>
    have le := honest k sent n answer
    simp only [taken, answer, Option.getD_some]
    omega

/-! ## What is written -/

theorem length_written (k : Nat) :
    (written (requestsTo maxWrite reply offset length k)).length = taken reply k := by
  induction k with
  | zero => rfl
  | succ k ih =>
    rw [requestsTo_succ, written, flatMap_append, length_append, ← written, ih]
    simp [requestAt, taken]

/-- The bytes of a request are at their place exactly when its offset does not wrap. -/
theorem written_eq (k : Nat) : written (requestsTo maxWrite reply offset length k) =
      (range (taken reply k)).map (fun i => (offset + i, i)) ↔
    ∀ j < k, 0 < (reply j).getD 0 → offset + taken reply j < 2 ^ 64 := by
  induction k with
  | zero => simp [requestsTo, written, taken]
  | succ k ih =>
    have piece : written [requestAt maxWrite reply offset length k] =
          (range ((reply k).getD 0)).map
            (fun i => (offset + (taken reply k + i), taken reply k + i))
        ↔ (0 < (reply k).getD 0 → offset + taken reply k < 2 ^ 64) := by
      simp only [written, flatMap_singleton, requestAt, map_inj_left, mem_range, Prod.mk.injEq,
        and_true]
      constructor
      · intro same some
        have first := same 0 some
        omega
      · intro below i lt
        rw [Nat.mod_eq_of_lt (below (by omega)), add_assoc]
    rw [requestsTo_succ, written, flatMap_append, ← written, ← written, taken, range_add,
      map_append, append_eq_append_iff_of_size_eq_left (by simp [length_written]), ih, map_map,
      Function.comp_def, piece, Nat.forall_lt_succ_right]

/-! ## The whole write -/

variable (w fileSize)

/-- The bytes of the buffer that are to be written: up to the end of the file with `ConstrainedIo`,
unless the end of the write wraps around. -/
def WriteArgs.bytes : Nat :=
  if w.constrainedIo = true ∧ (w.writeOffset fileSize).toNat + w.length.toNat < 2 ^ 64 then
    min w.length.toNat (fileSize.toNat - (w.writeOffset fileSize).toNat)
  else w.length.toNat

theorem WriteArgs.bytes_le : w.bytes fileSize ≤ w.length.toNat := by
  unfold bytes
  split
  · exact Nat.min_le_left ..
  · exact Nat.le_refl _

theorem WriteArgs.writeLength_eq : w.writeLength fileSize =
    if w.constrainedIo = true ∧ fileSize.toNat ≤ (w.writeOffset fileSize).toNat then none
    else some (BitVec.ofNat 32 (w.bytes fileSize)) := by
  have start := (w.writeOffset fileSize).isLt
  have few := w.length.isLt
  have sum : (w.writeOffset fileSize + w.length.setWidth 64).toNat =
      ((w.writeOffset fileSize).toNat + w.length.toNat) % 2 ^ 64 := by
    rw [BitVec.toNat_add, BitVec.toNat_setWidth_of_le (by decide)]
  have all : w.length = BitVec.ofNat 32 w.length.toNat := by simp
  unfold writeLength bytes
  cases w.constrainedIo with
  | false => simp
  | true =>
    simp only [if_true, true_and, BitVec.le_def, BitVec.lt_def, sum]
    by_cases behind : fileSize.toNat ≤ (w.writeOffset fileSize).toNat
    · rw [if_pos behind, if_pos behind]
    rw [if_neg behind, if_neg behind]
    by_cases fits : (w.writeOffset fileSize).toNat + w.length.toNat < 2 ^ 64
    · rw [Nat.mod_eq_of_lt fits, if_pos fits]
      by_cases cut : fileSize.toNat < (w.writeOffset fileSize).toNat + w.length.toNat
      · have rest : (fileSize - w.writeOffset fileSize).toNat =
            fileSize.toNat - (w.writeOffset fileSize).toNat :=
          BitVec.toNat_sub_of_le (BitVec.le_def.mpr (by omega))
        rw [if_pos cut, Nat.min_eq_right (by omega), ← rest]
        rfl
      · rw [if_neg cut, Nat.min_eq_left (by omega), ← all]
    · -- the sum is less than the length, and the file ends behind the offset
      rw [if_neg fits, if_neg (by omega), ← all]

/-- Nothing is written, or the replies come to an end, the host takes nothing of a request whose
offset wraps, and what a constrained write up to 2^64 sends before its offset wraps lies inside the
file. -/
def WriteRegular (maxWrite : Nat) (reply : Nat → Option Nat) : Prop :=
  let offset := (w.writeOffset fileSize).toNat
  let length := w.bytes fileSize
  w.constrainedIo = true ∧ fileSize.toNat ≤ offset ∨
    (∃ k, EndsAt (Continues reply length) k) ∧
    (∀ k, Made (Continues reply length) k →
      0 < (reply k).getD 0 → offset + taken reply k < 2 ^ 64) ∧
    (w.constrainedIo = true → 2 ^ 64 ≤ offset + w.length.toNat →
      ∀ k, Made (Continues reply length) k → offset + taken reply k < 2 ^ 64 →
        ∀ i < min (length - taken reply k) maxWrite, offset + taken reply k + i < fileSize.toNat)

variable {w fileSize}

/-- A request of a constrained write can reach the end of the file only where the sum of offset and
length wraps, and then only before its own offset does. -/
theorem request_inside {k : Nat} (constrained : w.constrainedIo = true)
    (inside : (w.writeOffset fileSize).toNat < fileSize.toNat) :
    (∀ i < (requestAt maxWrite reply (w.writeOffset fileSize).toNat (w.bytes fileSize) k).size,
      (requestAt maxWrite reply (w.writeOffset fileSize).toNat (w.bytes fileSize) k).offset + i <
        fileSize.toNat) ↔
    (2 ^ 64 ≤ (w.writeOffset fileSize).toNat + w.length.toNat →
      (w.writeOffset fileSize).toNat + taken reply k < 2 ^ 64 →
      ∀ i < min (w.bytes fileSize - taken reply k) maxWrite,
        (w.writeOffset fileSize).toNat + taken reply k + i < fileSize.toNat) := by
  have few := w.length.isLt
  have file := fileSize.isLt
  simp only [requestAt]
  by_cases fits : (w.writeOffset fileSize).toNat + w.length.toNat < 2 ^ 64
  · have bytes : w.bytes fileSize =
        min w.length.toNat (fileSize.toNat - (w.writeOffset fileSize).toNat) :=
      if_pos ⟨constrained, fits⟩
    refine iff_of_true (fun i lt => ?_) fun wraps => absurd fits (Nat.not_lt.mpr wraps)
    rw [Nat.mod_eq_of_lt (by omega)]
    omega
  · by_cases before : (w.writeOffset fileSize).toNat + taken reply k < 2 ^ 64
    · rw [Nat.mod_eq_of_lt before]
      exact ⟨fun every _ _ => every, fun every => every (Nat.not_lt.mp fits) before⟩
    · have le := w.bytes_le fileSize
      refine iff_of_true (fun i lt => ?_) fun _ early => absurd early before
      omega

/-- **Writes are exact** for these replies and no others: `Write` ends, what the host has taken is
the start of the buffer, placed from the offset on, `*PBytesTransferred` is its length, and with
`ConstrainedIo` nothing behind the end of the file is sent. -/
theorem write_exact (w : WriteArgs) (fileSize : BitVec 64) (maxWrite : Nat)
    (reply : Nat → Option Nat) (honest : Honest maxWrite reply (w.bytes fileSize)) :
    (∃ turns n requests, writeFile w fileSize maxWrite reply turns = some (n, requests) ∧
      n ≤ w.length.toNat ∧
      written requests = ((range n).map fun i => ((w.writeOffset fileSize).toNat + i, i)) ∧
      (w.constrainedIo = true → ∀ r ∈ requests, ∀ i < r.size, r.offset + i < fileSize.toNat)) ↔
    WriteRegular w fileSize maxWrite reply := by
  unfold WriteRegular writeFile
  rw [w.writeLength_eq]
  by_cases returns : w.constrainedIo = true ∧ fileSize.toNat ≤ (w.writeOffset fileSize).toNat
  · rw [if_pos returns]
    exact iff_of_true ⟨0, 0, [], rfl, Nat.zero_le _, rfl, by simp⟩ (Or.inl returns)
  have word : (BitVec.ofNat 32 (w.bytes fileSize)).toNat = w.bytes fileSize := by
    rw [BitVec.toNat_ofNat]
    exact Nat.mod_eq_of_lt (Nat.lt_of_le_of_lt (w.bytes_le fileSize) w.length.isLt)
  rw [if_neg returns, or_iff_right returns]
  simp only [word]
  constructor
  · rintro ⟨turns, n, requests, ends, -, placed, inside⟩
    obtain ⟨k, last, same⟩ := writeLoop_ends.mp ⟨turns, ends⟩
    cases same
    refine ⟨⟨k, last⟩, fun j sent => ?_, fun constrained wraps j sent => ?_⟩
    · exact (written_eq (k + 1)).mp placed j (Nat.lt_succ_of_le (last.made_iff.mp sent))
    · have member : requestAt maxWrite reply (w.writeOffset fileSize).toNat (w.bytes fileSize) j ∈
          requestsTo maxWrite reply (w.writeOffset fileSize).toNat (w.bytes fileSize) (k + 1) :=
        mem_map_of_mem (mem_range.mpr (Nat.lt_succ_of_le (last.made_iff.mp sent)))
      have below := Nat.not_le.mp fun behind => returns ⟨constrained, behind⟩
      exact (request_inside constrained below).mp (inside constrained _ member) wraps
  · rintro ⟨⟨k, last⟩, places, inside⟩
    obtain ⟨turns, ends⟩ := writeLoop_ends.mpr ⟨k, last, rfl⟩
    refine ⟨turns, _, _, ends, ?_, ?_, ?_⟩
    · exact Nat.le_trans (honest.taken_le last.made).2 (w.bytes_le fileSize)
    · exact (written_eq (k + 1)).mpr fun j lt =>
        places j (last.made_iff.mpr (Nat.le_of_lt_succ lt))
    · intro constrained r member
      obtain ⟨j, lt, rfl⟩ := mem_map.mp member
      have below := Nat.not_le.mp fun behind => returns ⟨constrained, behind⟩
      have sent := last.made_iff.mpr (Nat.le_of_lt_succ (mem_range.mp lt))
      exact (request_inside constrained below).mpr fun wraps => inside constrained wraps j sent

def takeThree (k : Nat) : Option Nat := if k = 0 then some 2 else some 1

/-- Three bytes at the end of a file of ten. -/
theorem write_exact_appended : ∃ turns n requests,
    writeFile ⟨0, 3, true, false⟩ 10 4096 takeThree turns = some (n, requests) ∧
      written requests = (range n).map fun i => (10 + i, i) := by
  have sent : ∀ k, Made (Continues takeThree 3) k → k = 0 ∨ k = 1 := by
    intro k sent
    by_contra more
    exact absurd (sent 1 (by omega)).2 (by decide)
  have honest : Honest 4096 takeThree 3 := by
    intro k here n answer
    rcases sent k here with rfl | rfl <;> cases answer <;> decide
  have last : EndsAt (Continues takeThree 3) 1 := by
    refine ⟨fun j lt => ?_, by decide⟩
    cases Nat.lt_one_iff.mp lt
    decide
  have regular : WriteRegular ⟨0, 3, true, false⟩ 10 4096 takeThree := by
    refine Or.inr ⟨⟨1, last⟩, fun k here _ => ?_, nofun⟩
    rcases sent k here with rfl | rfl <;> decide
  obtain ⟨turns, n, requests, ends, -, bytes, -⟩ :=
    (write_exact ⟨0, 3, true, false⟩ 10 4096 takeThree honest).mpr regular
  exact ⟨turns, n, requests, ends, bytes⟩

/-- A byte that the host never takes is sent again for ever; a write that ends at 2^64 is not cut,
since the sum wraps around. -/
theorem write_endless :
    (∀ turns, writeFile ⟨0, 1, false, false⟩ 0 4096 (fun _ => some 0) turns = none) ∧
      ∃ requests, writeFile ⟨0xFFFFFFFFFFFFFFFE#64, 2, false, true⟩ 0xFFFFFFFFFFFFFFFF#64 4096
        (fun _ => some 2) 1 = some (2, requests) ∧
          ∃ r ∈ requests, (0xFFFFFFFFFFFFFFFF#64).toNat < r.offset + r.size := by
  constructor
  · have loop (turns : Nat) (sent : List FuseWrite) :
        writeLoop 4096 (fun _ => some 0) 0 turns 1 0 sent = none := by
      induction turns generalizing sent with
      | zero => rfl
      | succ turns ih => simp [writeLoop, ih]
    simp [writeFile, WriteArgs.writeLength, WriteArgs.writeOffset, loop]
  · exact ⟨[⟨2 ^ 64 - 2, 0, 2, 2⟩], by decide +kernel, by decide⟩

end KvmGuestDrivers.VioFs

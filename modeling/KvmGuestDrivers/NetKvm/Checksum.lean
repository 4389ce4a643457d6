/-
# NetKvm.Checksum -- the Internet checksum in software

`RawCheckSumCalculator` adds up a buffer in pieces that depend on the processor: 32-bit words
on x64, 16-bit words on x86 and ARM64, all of them little-endian and in the width of a pointer.
`RawCheckSumFinalize` folds the sum to 16 bits and complements it.  What comes out is a
`USHORT` whose bytes in memory are those of the Internet checksum, in network order
(`internetChecksum`: 16-bit words, most significant byte first, added with end-around carry).

`CheckSumCalculator` does the same to a range of a list of pages, starting again with each page.

Byte order and grouping do not matter to a sum modulo 65535, nor to the question whether it is
zero (`Theory.OnesEq`); only the width of the accumulator does.
-/
import KvmGuestDrivers.Theory.Bytes
import KvmGuestDrivers.Theory.OnesComplement
import Mathlib.Data.Nat.Bitwise

namespace KvmGuestDrivers.NetKvm

set_option autoImplicit false

open Theory List

/-! ## The functions -/

inductive Arch where
  | x86
  | x64
  | arm64
  deriving DecidableEq

def Arch.bits : Arch → Nat
  | .x86 => 32
  | .x64 => 64
  | .arm64 => 64

/-- `while (count--)`: `add` what is at `ptr` and go on by `stride`. -/
def rawLoop (stride : Nat) (add : Nat → Nat → Nat) : (count val ptr : Nat) → Nat × Nat
  | 0, val, ptr => (val, ptr)
  | count + 1, val, ptr => rawLoop stride add count (add val ptr) (ptr + stride)

section Functions

variable (arch : Arch) (mem : Memory)

def plus (val x : Nat) : Nat := (val + x) % 2 ^ arch.bits

/-- The words of `RawCheckSumCalculator`: the sum, and where the words end. -/
def rawWords (buffer len : Nat) : Nat × Nat :=
  match arch with
  | .x64 =>
    let words := rawLoop 4 (fun val ptr => plus arch val (le32 mem ptr)) (len >>> 2) 0 buffer
    if len &&& 2 ≠ 0 then (plus arch words.1 (le16 mem words.2), words.2 + 2) else words
  | .arm64 =>
    rawLoop 2
      (fun val ptr => plus arch (plus arch val (mem ptr).toNat) ((mem (ptr + 1)).toNat <<< 8))
      (len >>> 1) 0 buffer
  | .x86 => rawLoop 2 (fun val ptr => plus arch val (le16 mem ptr)) (len >>> 1) 0 buffer

def rawCheckSumCalculator (buffer len : Nat) : Nat :=
  let words := rawWords arch mem buffer len
  if len &&& 1 ≠ 0 then plus arch words.1 (mem words.2).toNat else words.1

def rawCheckSumFinalize (sum : Nat) : Nat :=
  let sum32 := match arch with
    | .x86 => sum
    | .x64 | .arm64 => rotateAdd 32 sum
  65535 - rotateAdd 16 sum32

def checkSumCalculatorFlat (buffer len : Nat) : Nat :=
  rawCheckSumFinalize arch (rawCheckSumCalculator arch mem buffer len)

/-- `tCompletePhysicalAddress`. -/
structure Page where
  virtual : Nat
  size : Nat

/-- The pages from the one where the range starts, and the offset in it. -/
def skipPages : List Page → Nat → Option (List Page × Nat)
  | pages, 0 => some (pages, 0)
  | [], _ + 1 => none
  | page :: rest, start + 1 =>
    if min page.size (start + 1) < start + 1 then skipPages rest (start + 1 - page.size)
    else some (page :: rest, start + 1)

/-- The sums of the pages; `none` when the range goes on after the last page. -/
def sumPages : List Page → (offset len sum : Nat) → Option Nat
  | _, _, 0, sum => some sum
  | [], _, _ + 1, _ => none
  | page :: rest, offset, len + 1, sum =>
    let n := min (len + 1) (page.size - offset)
    sumPages rest 0 (len + 1 - n)
      (plus arch sum (rawCheckSumCalculator arch mem (page.virtual + offset) n))

def checkSumCalculator (pages : List Page) (start len : Nat) : Option Nat :=
  (skipPages pages start).bind fun (pages, offset) =>
    (sumPages arch mem pages offset len 0).map (rawCheckSumFinalize arch)

end Functions

/-! ## The Internet checksum -/

/-- The 16-bit words of a buffer in network order; a last byte is padded with zero. -/
def networkWords : List Byte → List Nat
  | a :: b :: rest => (256 * a.toNat + b.toNat) :: networkWords rest
  | [a] => [256 * a.toNat]
  | [] => []

variable (bytes : List Byte)

/-- The complement of the sum with end-around carry. -/
def internetChecksum : Nat :=
  65535 - (networkWords bytes).foldl (onesAdd 65536) 0

/-- A `USHORT` in memory, read in network order. -/
def swapShort (x : Nat) : Nat := x % 256 * 256 + x / 256

/-! ## Sums of bytes -/

def sum16 : List Byte → Nat
  | a :: b :: rest => a.toNat + 256 * b.toNat + sum16 rest
  | [a] => a.toNat
  | [] => 0

/-- The sum in 32-bit words, and what is left in 16-bit words. -/
def sum32 : List Byte → Nat
  | a :: b :: c :: d :: rest =>
    a.toNat + 256 * b.toNat + 65536 * (c.toNat + 256 * d.toNat) + sum32 rest
  | rest => sum16 rest

variable (arch : Arch)

/-- What `rawCheckSumCalculator` adds up, before it is cut to the width of a pointer. -/
def rawSum (bytes : List Byte) : Nat :=
  match arch with
  | .x64 => sum32 bytes
  | .x86 | .arm64 => sum16 bytes

theorem sum16_append (first second : List Byte) (even : first.length % 2 = 0) :
    sum16 (first ++ second) = sum16 first + sum16 second := by
  fun_induction sum16 first with
  | case1 a b rest ih =>
    have shorter : rest.length % 2 = 0 := by
      rw [length_cons, length_cons] at even
      omega
    rw [cons_append, cons_append, sum16]
    omega
  | case2 => cases even
  | case3 => rw [nil_append, zero_add]

theorem sum16_le : sum16 bytes ≤ bytes.length / 2 * 65535 + bytes.length % 2 * 255 := by
  fun_induction sum16 bytes with
  | case1 a b =>
    rw [length_cons, length_cons]
    omega
  | case2 a =>
    rw [length_singleton]
    omega
  | case3 => exact Nat.le_refl 0

theorem onesEq_sum32 : OnesEq 65535 (sum32 bytes) (sum16 bytes) := by
  fun_induction sum32 bytes with
  | case1 a b c d _ ih =>
    have word : OnesEq 65535 (a.toNat + 256 * b.toNat + 65536 * (c.toNat + 256 * d.toNat))
        (a.toNat + 256 * b.toNat + (c.toNat + 256 * d.toNat)) := by
      have halves := onesEq_halves 65535 (c.toNat + 256 * d.toNat) (a.toNat + 256 * b.toNat)
      rwa [mul_comm, add_comm, add_comm (c.toNat + _)] at halves
    rw [sum16, sum16, ← add_assoc]
    exact word.add ih
  | case2 => exact .refl _ _

theorem sum32_le : sum32 bytes ≤ 4294967295 * bytes.length := by
  fun_induction sum32 bytes with
  | case1 a b c d rest =>
    have longer : (a :: b :: c :: d :: rest).length = rest.length + 4 := rfl
    omega
  | case2 rest =>
    have le := sum16_le rest
    omega

/-- Every build sums the same word. -/
theorem onesEq_rawSum (bytes : List Byte) : OnesEq 65535 (rawSum arch bytes) (sum16 bytes) := by
  cases arch with
  | x64 => exact onesEq_sum32 bytes
  | x86 | arm64 => exact .refl _ _

theorem onesEq_networkWords : OnesEq 65535 (networkWords bytes).sum (256 * sum16 bytes) := by
  fun_induction networkWords bytes with
  | case1 a b _ ih =>
    rw [sum16, Nat.mul_add]
    refine OnesEq.add ?_ ih
    have halves := (onesEq_halves 65535 b.toNat (256 * a.toNat)).symm
    have swapped : 256 * (a.toNat + 256 * b.toNat) = b.toNat * (65535 + 1) + 256 * a.toNat := by
      omega
    rwa [swapped, add_comm (256 * _)]
  | case2 =>
    exact .refl _ _
  | case3 => exact .refl _ _

/-! ## Folding and byte order -/

/-- The folding ends at the complement of the word. -/
theorem rawCheckSumFinalize_eq {sum : Nat} (lt : sum < 2 ^ arch.bits) :
    rawCheckSumFinalize arch sum = 65535 - onesNorm 65535 sum := by
  have twice : sum < 2 ^ 64 → rotateAdd 16 (rotateAdd 32 sum) = onesNorm 65535 sum := by
    intro lt
    have folded : rotateAdd 32 sum = onesNorm (2 ^ 32 - 1) sum := rotateAdd_eq (by decide) lt
    have le : onesNorm (2 ^ 32 - 1) sum ≤ 2 ^ 32 - 1 := onesNorm_le (by decide)
    rw [folded, rotateAdd_eq (by decide) (by omega)]
    exact OnesEq.onesNorm_eq (by decide)
      ((onesEq_onesNorm (2 ^ 32 - 1) sum).of_dvd (by decide +kernel))
  cases arch with
  | x86 =>
    have once : rotateAdd 16 sum = onesNorm 65535 sum := rotateAdd_eq (by decide) lt
    rw [rawCheckSumFinalize, once]
  | x64 | arm64 => rw [rawCheckSumFinalize, twice lt]

theorem swapShort_complement {x : Nat} (le : x ≤ 65535) :
    swapShort (65535 - x) = 65535 - swapShort x := by
  unfold swapShort
  omega

theorem swapShort_onesNorm (sum : Nat) :
    swapShort (onesNorm 65535 sum) = onesNorm 65535 (256 * sum) := by
  have le : onesNorm 65535 sum ≤ 65535 := onesNorm_le (by decide)
  have same := onesEq_onesNorm 65535 sum
  generalize onesNorm 65535 sum = x at le same
  have small : swapShort x ≤ 65535 := by
    unfold swapShort
    omega
  have halves := onesEq_halves 65535 (x / 256) (256 * (x % 256))
  have word : OnesEq 65535 (swapShort x) (256 * x) := by
    refine OnesEq.symm ?_
    have whole : 256 * x = x / 256 * (65535 + 1) + 256 * (x % 256) := by omega
    rw [whole, swapShort, add_comm (x % 256 * 256), mul_comm (x % 256)]
    exact halves
  have scaled : OnesEq 65535 (256 * x) (256 * sum) := by
    refine ⟨Nat.ModEq.mul_left 256 same.1, ?_⟩
    have zero := same.2
    omega
  rw [← onesNorm_of_le small]
  exact (word.trans scaled).onesNorm_eq (by decide)

theorem internetChecksum_eq :
    internetChecksum bytes = 65535 - onesNorm 65535 (256 * sum16 bytes) := by
  have small : ∀ x ∈ networkWords bytes, x ≤ 65535 := by
    fun_induction networkWords bytes with
    | case1 a b _ ih =>
      exact forall_mem_cons.mpr ⟨by omega, ih⟩
    | case2 a =>
      exact forall_mem_cons.mpr ⟨by omega, forall_mem_nil _⟩
    | case3 => exact forall_mem_nil _
  rw [internetChecksum, foldl_onesAdd (by decide) small (Nat.zero_le _), zero_add,
    (onesEq_networkWords bytes).onesNorm_eq (by decide)]

theorem internetChecksum_eq_zero :
    internetChecksum bytes = 0 ↔ onesNorm 65535 (sum16 bytes) = 65535 := by
  have le : onesNorm 65535 (sum16 bytes) ≤ 65535 := onesNorm_le (by decide)
  rw [internetChecksum_eq, ← swapShort_onesNorm, swapShort]
  omega

/-! ## The loops -/

variable {add : Nat → Nat → Nat} {len : Nat} {bytes}

section Loops

variable (mem : Memory)

theorem plus_plus (val x y : Nat) : plus arch (plus arch val x) y = plus arch val (x + y) := by
  rw [plus, plus, plus, Nat.mod_add_mod, add_assoc]

theorem span_two (ptr n : Nat) :
    span mem ptr (n + 2) = mem ptr :: mem (ptr + 1) :: span mem (ptr + 2) n := rfl

theorem sum16_span (ptr n : Nat) :
    sum16 (span mem ptr (n + 2)) = le16 mem ptr + sum16 (span mem (ptr + 2) n) := rfl

theorem sum32_span (ptr n : Nat) :
    sum32 (span mem ptr (n + 4)) = le32 mem ptr + sum32 (span mem (ptr + 4) n) := by
  rfl

theorem rawLoop_words {w : Nat} {word : Nat → Nat} {total : List Byte → Nat}
    (adds : ∀ val ptr, add val ptr = plus arch val (word ptr))
    (first : ∀ ptr n, total (span mem ptr (n + w)) = word ptr + total (span mem (ptr + w) n))
    (count val ptr rest : Nat) :
    (rawLoop w add count val ptr).2 = ptr + w * count ∧
      plus arch (rawLoop w add count val ptr).1 (total (span mem (ptr + w * count) rest)) =
        plus arch val (total (span mem ptr (w * count + rest))) := by
  induction count generalizing val ptr with
  | zero =>
    rw [Nat.mul_zero, zero_add]
    exact ⟨rfl, rfl⟩
  | succ count ih =>
    obtain ⟨there, sum⟩ := ih (add val ptr) (ptr + w)
    have next : ptr + w * (count + 1) = ptr + w + w * count := by grind
    have more : w * (count + 1) + rest = w * count + rest + w := by grind
    rw [next]
    refine ⟨there, sum.trans ?_⟩
    rw [more, first, adds, plus_plus]

theorem plus_lt (val x : Nat) : plus arch val x < 2 ^ arch.bits := Nat.mod_lt _ (Nat.two_pow_pos _)

theorem rawLoop_lt (stride : Nat) {bound : Nat} (small : ∀ val ptr, add val ptr < bound)
    (count : Nat) {val : Nat} (lt : val < bound) (ptr : Nat) :
    (rawLoop stride add count val ptr).1 < bound := by
  induction count generalizing val ptr with
  | zero => exact lt
  | succ _ ih => exact ih (small val ptr) (ptr + stride)

theorem and_one_ne_zero (len : Nat) : len &&& 1 ≠ 0 ↔ len % 2 = 1 := by
  rw [Nat.and_one_is_mod]
  omega

theorem and_two_ne_zero (len : Nat) : len &&& 2 ≠ 0 ↔ len / 2 % 2 = 1 := by
  have bit := Nat.and_two_pow len 1
  rw [Nat.testBit_eq_decide_div_mod_eq, Nat.pow_one] at bit
  rw [bit]
  by_cases set : len / 2 % 2 = 1
  · rw [decide_eq_true set]
    exact ⟨fun _ => set, fun _ => by decide⟩
  · rw [decide_eq_false set]
    exact ⟨fun not => absurd rfl not, fun is => absurd is set⟩

theorem rawTail_two (adds : ∀ val ptr, add val ptr = plus arch val (le16 mem ptr))
    (buffer len : Nat) :
    (if len &&& 1 ≠ 0 then
        plus arch (rawLoop 2 add (len >>> 1) 0 buffer).1
          (mem (rawLoop 2 add (len >>> 1) 0 buffer).2).toNat
      else (rawLoop 2 add (len >>> 1) 0 buffer).1) = plus arch 0 (sum16 (span mem buffer len)) := by
  obtain ⟨there, sum⟩ := rawLoop_words arch mem adds (sum16_span mem) (len >>> 1) 0 buffer (len % 2)
  have lt : (rawLoop 2 add (len >>> 1) 0 buffer).1 < 2 ^ arch.bits :=
    rawLoop_lt 2 (fun val ptr => adds val ptr ▸ plus_lt arch _ _) _ (Nat.two_pow_pos _) _
  rw [Nat.shiftRight_eq_div_pow] at there sum lt ⊢
  rw [Nat.div_add_mod len 2] at sum
  rw [there, ← sum]
  split
  · rename_i odd
    rw [(and_one_ne_zero len).mp odd]
    rfl
  rename_i even
  rw [and_one_ne_zero] at even
  have none : len % 2 = 0 := by omega
  rw [none]
  exact (Nat.mod_eq_of_lt lt).symm

/-- The word loop and the tail add up all the bytes. -/
theorem rawCheckSumCalculator_eq (buffer len : Nat) :
    rawCheckSumCalculator arch mem buffer len =
      plus arch 0 (rawSum arch (span mem buffer len)) := by
  cases arch with
  | x86 => exact rawTail_two .x86 mem (fun _ _ => rfl) buffer len
  | arm64 =>
    refine rawTail_two .arm64 mem (fun val ptr => ?_) buffer len
    rw [plus_plus, le16, Nat.shiftLeft_eq, mul_comm 256]
  | x64 =>
    obtain ⟨there, sum⟩ :=
      rawLoop_words .x64 mem (fun _ _ => rfl) (sum32_span mem) (len >>> 2) 0 buffer (len % 4)
    have lt := rawLoop_lt 4 (fun val ptr => plus_lt .x64 val (le32 mem ptr)) (len >>> 2)
      (Nat.two_pow_pos _) buffer
    rw [rawCheckSumCalculator, rawWords, rawSum]
    generalize rawLoop 4 _ (len >>> 2) 0 buffer = words at there sum lt ⊢
    have whole : 4 * (len >>> 2) + len % 4 = len := by
      omega
    rw [whole] at sum
    rw [← sum, ← there]
    -- three bits of the length say which of the tail reads are made
    have zero : plus .x64 words.1 0 = words.1 := Nat.mod_eq_of_lt lt
    have odd := and_one_ne_zero len
    have two := and_two_ne_zero len
    have cases : len % 4 = 0 ∨ len % 4 = 1 ∨ len % 4 = 2 ∨ len % 4 = 3 := by omega
    rcases cases with tail | tail | tail | tail
    · rw [if_neg (by omega), if_neg (by omega), tail]
      exact zero.symm
    · rw [if_pos (by omega), if_neg (by omega), tail]
      rfl
    · rw [if_neg (by omega), if_pos (by omega), tail]
      rfl
    · rw [if_pos (by omega), if_pos (by omega), tail, plus_plus]
      rfl

end Loops

/-! ## A flat buffer -/

variable {arch}

theorem rawSum_lt (ulong : bytes.length < 2 ^ 32) (narrow : arch = .x86 → bytes.length ≤ 131074) :
    rawSum arch bytes < 2 ^ arch.bits := by
  cases arch with
  | x64 =>
    have le := sum32_le bytes
    show sum32 bytes < 2 ^ 64
    omega
  | arm64 =>
    have le := sum16_le bytes
    show sum16 bytes < 2 ^ 64
    omega
  | x86 =>
    have le := sum16_le bytes
    have short := narrow rfl
    show sum16 bytes < 2 ^ 32
    omega

theorem rawCheckSumFinalize_of_onesEq {sum : Nat} (lt : sum < 2 ^ arch.bits)
    (same : OnesEq 65535 sum (sum16 bytes)) :
    rawCheckSumFinalize arch (plus arch 0 sum) = 65535 - onesNorm 65535 (sum16 bytes) := by
  rw [plus, zero_add, Nat.mod_eq_of_lt lt, rawCheckSumFinalize_eq arch lt,
    same.onesNorm_eq (by decide)]

/-- The checksum of one buffer in closed form. -/
theorem checkSumCalculatorFlat_eq (ulong : len < 2 ^ 32) (narrow : arch = .x86 → len ≤ 131074)
    (mem : Memory) (buffer : Nat) : checkSumCalculatorFlat arch mem buffer len =
      65535 - onesNorm 65535 (sum16 (span mem buffer len)) := by
  have length := length_span mem buffer len
  have lt : rawSum arch (span mem buffer len) < 2 ^ arch.bits :=
    rawSum_lt (by rw [length]; exact ulong) (by rw [length]; exact narrow)
  rw [checkSumCalculatorFlat, rawCheckSumCalculator_eq,
    rawCheckSumFinalize_of_onesEq lt (onesEq_rawSum arch _)]

theorem swapShort_checkSumCalculatorFlat (ulong : len < 2 ^ 32)
    (narrow : arch = .x86 → len ≤ 131074) (mem : Memory) (buffer : Nat) :
    swapShort (checkSumCalculatorFlat arch mem buffer len) =
      internetChecksum (span mem buffer len) := by
  rw [checkSumCalculatorFlat_eq ulong narrow, swapShort_complement (onesNorm_le (by decide)),
    swapShort_onesNorm, internetChecksum_eq]

/-- On x86 the sum of 131076 bytes that are all ones is too large for 32 bits: the carry is lost,
and the checksum is 1 instead of 0. -/
theorem checkSumCalculatorFlat_carry_lost :
    checkSumCalculatorFlat .x86 (fun _ => 255) 0 131076 = 1 ∧
      internetChecksum (span (fun _ => 255) 0 131076) = 0 := by
  have sum (ptr count : Nat) : sum16 (span (fun _ => 255) ptr (2 * count)) = 65535 * count := by
    induction count generalizing ptr with
    | zero => rfl
    | succ count ih =>
      rw [Nat.mul_succ, span_two, sum16, ih]
      show 255 + 256 * 255 + 65535 * count = 65535 * (count + 1)
      omega
  have here : 131076 = 2 * 65538 := by decide
  constructor
  · rw [checkSumCalculatorFlat, rawCheckSumCalculator_eq, rawSum, here, sum]
    decide +kernel
  · rw [internetChecksum_eq, here, sum]
    decide +kernel

/-! ## Pages -/

variable {pages : List Page}

section Pages

variable (arch) (mem : Memory) {start offset : Nat}

def pageBytes (pages : List Page) : List Byte :=
  pages.flatMap fun page => span mem page.virtual page.size

def pageBoundary (pages : List Page) (k : Nat) : Nat := ((pages.take k).map Page.size).sum

/-- Boundaries inside the range are an even number of bytes away from where it starts. -/
def EvenBoundaries (pages : List Page) (start len : Nat) : Prop :=
  ∀ k, start < pageBoundary pages k → pageBoundary pages k < start + len →
    (pageBoundary pages k - start) % 2 = 0

theorem pageBoundary_cons (page : Page) (rest : List Page) (k : Nat) :
    pageBoundary (page :: rest) (k + 1) = page.size + pageBoundary rest k := by
  rw [pageBoundary, take_succ_cons, map_cons, sum_cons, pageBoundary]

theorem length_pageBytes (pages : List Page) :
    (pageBytes mem pages).length = (pages.map Page.size).sum := by
  induction pages with
  | nil => rfl
  | cons _ _ ih =>
    rw [pageBytes, flatMap_cons, length_append, length_span, map_cons, sum_cons, ← ih, pageBytes]

/-- The page and the offset at which the summing starts. -/
theorem skipPages_some (inside : start + len ≤ (pages.map Page.size).sum)
    (even : EvenBoundaries pages start len) :
    ∃ rest offset, skipPages pages start = some (rest, offset) ∧
      (pageBytes mem rest).drop offset = (pageBytes mem pages).drop start ∧
      offset + len ≤ (rest.map Page.size).sum ∧ (∀ page ∈ rest.head?, offset ≤ page.size) ∧
      EvenBoundaries rest offset len := by
  fun_induction skipPages pages start with
  | case1 pages =>
    exact ⟨pages, 0, rfl, rfl, inside, fun _ _ => Nat.zero_le _, even⟩
  | case2 =>
    rw [map_nil, sum_nil] at inside
    omega
  | case3 page _ start _ ih =>
    rw [map_cons, sum_cons] at inside
    obtain ⟨last, offset, found, same, fits, first, even'⟩ := ih (by omega) (by
      intro k after before
      have here := even (k + 1)
      rw [pageBoundary_cons] at here
      omega)
    refine ⟨last, offset, found, ?_, fits, first, even'⟩
    have gone : (span mem page.virtual page.size).drop (start + 1) = [] :=
      drop_eq_nil_of_le (by rw [length_span]; omega)
    rw [same, pageBytes, pageBytes, flatMap_cons, drop_append, length_span, gone, nil_append]
  | case4 page rest start =>
    refine ⟨page :: rest, start + 1, rfl, rfl, inside, ?_, even⟩
    rintro _ ⟨⟩
    omega

/-- What the pieces of a buffer can add up to: on x64 each piece is grouped on its own. -/
structure PiecesSum (arch : Arch) (sum : Nat) (bytes : List Byte) : Prop where
  same : OnesEq 65535 sum (sum16 bytes)
  le : sum ≤ 4294967295 * bytes.length
  exactly : arch ≠ .x64 → sum = sum16 bytes

theorem piecesSum_rawSum (bytes : List Byte) : PiecesSum arch (rawSum arch bytes) bytes := by
  refine ⟨onesEq_rawSum arch bytes, ?_, ?_⟩
  · cases arch with
    | x64 => exact sum32_le bytes
    | x86 | arm64 =>
      have le := sum16_le bytes
      show sum16 bytes ≤ _
      omega
  · intro narrow
    cases arch with
    | x64 => exact absurd rfl narrow
    | x86 | arm64 => rfl

theorem PiecesSum.append {sum rest : Nat} {tail : List Byte} (even : bytes.length % 2 = 0)
    (first : PiecesSum arch sum bytes) (second : PiecesSum arch rest tail) :
    PiecesSum arch (sum + rest) (bytes ++ tail) := by
  refine ⟨?_, ?_, fun narrow => ?_⟩
  · rw [sum16_append _ _ even]
    exact first.same.add second.same
  · have le := first.le
    have le' := second.le
    rw [length_append]
    omega
  · rw [sum16_append _ _ even, first.exactly narrow, second.exactly narrow]

theorem take_drop_pageBytes {page : Page} {rest : List Page} {n : Nat}
    (is : n = min len (page.size - offset)) (first : offset ≤ page.size) :
    ((pageBytes mem (page :: rest)).drop offset).take len =
      span mem (page.virtual + offset) n ++ (pageBytes mem rest).take (len - n) := by
  have split : page.size = offset + (page.size - offset) := by omega
  have dropped : (pageBytes mem (page :: rest)).drop offset =
      span mem (page.virtual + offset) (page.size - offset) ++ pageBytes mem rest := by
    rw [pageBytes, flatMap_cons, split, span_add, append_assoc,
      drop_append_of_le_length (by rw [length_span]), drop_eq_nil_of_le
        (by rw [length_span]), nil_append]
    congr 2
    omega
  rw [dropped, take_append, length_span]
  rcases Nat.le_total len (page.size - offset) with _ | more
  · have whole : page.size - offset = len + (page.size - offset - len) := by omega
    have here : n = len := by omega
    have none : len - (page.size - offset) = 0 := by omega
    rw [none, here, Nat.sub_self, take_zero, append_nil, append_nil, whole, span_add,
      take_append_of_le_length (by rw [length_span]), take_of_length_le (by rw [length_span])]
  · have here : n = page.size - offset := by omega
    rw [here, take_of_length_le (by rw [length_span]; exact more)]

/-- The pieces of the pages add up to the sum of their bytes. -/
theorem sumPages_some (sum : Nat) (fits : offset + len ≤ (pages.map Page.size).sum)
    (first : ∀ page ∈ pages.head?, offset ≤ page.size) (even : EvenBoundaries pages offset len)
    (lt : sum < 2 ^ arch.bits) :
    ∃ total, sumPages arch mem pages offset len sum = some (plus arch sum total) ∧
      PiecesSum arch total (((pageBytes mem pages).drop offset).take len) := by
  fun_induction sumPages arch mem pages offset len sum with
  | case1 =>
    refine ⟨0, congrArg some (Nat.mod_eq_of_lt lt).symm, ?_⟩
    exact ⟨.refl _ _, le_rfl, fun _ => rfl⟩
  | case2 =>
    rw [map_nil, sum_nil] at fits
    omega
  | case3 page rest offset len _ n ih =>
    rw [map_cons, sum_cons] at fits
    have inPage := first page rfl
    have is : n = min (len + 1) (page.size - offset) := rfl
    obtain ⟨total, summed, pieces⟩ := ih (by omega) (fun _ _ => Nat.zero_le _) (by
      intro k after before
      have next := even (k + 1)
      have here := even 1
      rw [pageBoundary_cons] at next here
      have zero : pageBoundary rest 0 = 0 := rfl
      rcases Nat.eq_zero_or_pos (page.size - offset) with none | some
      · omega
      · omega) (plus_lt arch _ _)
    refine ⟨rawSum arch (span mem (page.virtual + offset) n) + total, ?_, ?_⟩
    · rw [summed, rawCheckSumCalculator_eq, ← plus_plus]
      congr 2
      rw [plus, plus, plus, zero_add, Nat.add_mod_mod]
    rw [take_drop_pageBytes mem is inPage]
    have piece := piecesSum_rawSum arch (span mem (page.virtual + offset) n)
    rcases Nat.eq_zero_or_pos (len + 1 - n) with last | _
    · rw [last, take_zero] at pieces ⊢
      have nothing : total = 0 := Nat.le_zero.mp pieces.le
      rw [nothing, append_nil]
      exact piece
    · refine piece.append arch ?_ pieces
      rw [length_span]
      have here := even 1
      rw [pageBoundary_cons] at here
      have zero : pageBoundary rest 0 = 0 := rfl
      rcases Nat.eq_zero_or_pos (page.size - offset) with _ | _
      · omega
      · omega

/-- Pages are summed as one buffer with the same bytes would be. -/
theorem checkSumCalculator_eq_flat {mem' : Memory} {buffer : Nat} (ulong : len < 2 ^ 32)
    (inside : start + len ≤ (pages.map Page.size).sum) (even : EvenBoundaries pages start len)
    (same : span mem' buffer len = ((pageBytes mem pages).drop start).take len) :
    checkSumCalculator arch mem pages start len =
      some (checkSumCalculatorFlat arch mem' buffer len) := by
  obtain ⟨rest, offset, skipped, bytes, fits, first, even'⟩ := skipPages_some mem inside even
  obtain ⟨total, summed, pieces⟩ := sumPages_some arch mem 0 fits first even' (Nat.two_pow_pos _)
  rw [bytes, ← same] at pieces
  have flat := piecesSum_rawSum arch (span mem' buffer len)
  have le := pieces.le
  have le' := flat.le
  rw [length_span] at le le'
  rw [checkSumCalculator, skipped]
  show (sumPages arch mem rest offset len 0).map (rawCheckSumFinalize arch) = _
  rw [summed, Option.map_some, checkSumCalculatorFlat, rawCheckSumCalculator_eq]
  by_cases wide : arch = .x64
  · have fits : total < 2 ^ arch.bits := by
      rw [wide]
      show total < 2 ^ 64
      omega
    have fits' : rawSum arch (span mem' buffer len) < 2 ^ arch.bits := by
      rw [wide] at le' ⊢
      show rawSum .x64 (span mem' buffer len) < 2 ^ 64
      omega
    rw [rawCheckSumFinalize_of_onesEq fits pieces.same,
      rawCheckSumFinalize_of_onesEq fits' flat.same]
  · rw [pieces.exactly wide, flat.exactly wide]

theorem checkSumCalculator_eq (short : len ≤ 131074)
    (inside : start + len ≤ (pages.map Page.size).sum) (even : EvenBoundaries pages start len) :
    checkSumCalculator arch mem pages start len =
      some (65535 - onesNorm 65535 (sum16 (((pageBytes mem pages).drop start).take len))) := by
  have length : (((pageBytes mem pages).drop start).take len).length = len := by
    rw [length_take, length_drop, length_pageBytes]
    omega
  have bytes := span_memory (((pageBytes mem pages).drop start).take len)
  rw [length] at bytes
  rw [checkSumCalculator_eq_flat arch mem (by omega) inside even bytes,
    checkSumCalculatorFlat_eq (by omega) (fun _ => short), bytes]

end Pages

/-- **The software checksum is the Internet checksum.**  Up to the width of the accumulator no
carry is lost, which limits the length on x86 only; and a range of pages, with boundaries at even
distances, has the checksum of its bytes in one buffer. -/
theorem checkSum_is_internetChecksum (arch : Arch) {len : Nat} (ulong : len < 2 ^ 32) :
    ((arch = .x86 → len ≤ 131074) → ∀ mem buffer,
      swapShort (checkSumCalculatorFlat arch mem buffer len) =
        internetChecksum (span mem buffer len)) ∧
    ∀ mem pages start mem' buffer, start + len ≤ (pages.map Page.size).sum →
      EvenBoundaries pages start len →
      span mem' buffer len = ((pageBytes mem pages).drop start).take len →
      checkSumCalculator arch mem pages start len =
        some (checkSumCalculatorFlat arch mem' buffer len) :=
  ⟨fun narrow => swapShort_checkSumCalculatorFlat ulong narrow,
    fun mem _ _ _ _ inside even same => checkSumCalculator_eq_flat arch mem ulong inside even same⟩

/-- Three bytes: the words are 0x1234 and 0x5600, and the checksum is 0x97cb. -/
theorem checkSum_is_internetChecksum_three :
    checkSumCalculatorFlat .x64 (memory [0x12, 0x34, 0x56]) 0 3 = 0xcb97 ∧
      swapShort (checkSumCalculatorFlat .x64 (memory [0x12, 0x34, 0x56]) 0 3) =
        internetChecksum (span (memory [0x12, 0x34, 0x56]) 0 3) :=
  ⟨by decide +kernel, (checkSum_is_internetChecksum .x64 (by decide)).1 nofun _ _⟩

end KvmGuestDrivers.NetKvm

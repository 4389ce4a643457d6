/-
# Theory.Bytes -- words in memory

`Memory` is what a pointer sees: the byte at each distance from it.  Words are read from
it in either byte order, `span` is the list of bytes of a range, and `Agree` says that two
memories hold the same bytes in a range, which is all that a read of that range depends on.
-/
import KvmGuestDrivers.Theory.Extent

namespace KvmGuestDrivers.Theory

open List

set_option autoImplicit false

abbrev Byte := BitVec 8

abbrev Memory := Nat → Byte

variable (mem : Memory)

variable (i : Nat)

def le16 : Nat := (mem i).toNat + 256 * (mem (i + 1)).toNat

def be16 : Nat := 256 * (mem i).toNat + (mem (i + 1)).toNat

def le32 : Nat := le16 mem i + 65536 * le16 mem (i + 2)

def le64 : Nat := le32 mem i + 2 ^ 32 * le32 mem (i + 4)

def be32 : Nat := 65536 * be16 mem i + be16 mem (i + 2)

def be64 : Nat := 2 ^ 32 * be32 mem i + be32 mem (i + 4)

theorem le16_lt : le16 mem i < 2 ^ 16 := by
  unfold le16
  omega

/-! ## Ranges -/

def span (mem : Memory) : (start n : Nat) → List Byte
  | _, 0 => []
  | start, n + 1 => mem start :: span mem (start + 1) n

@[simp] theorem length_span (start n : Nat) : (span mem start n).length = n := by
  induction n generalizing start with
  | zero => rfl
  | succ n ih => rw [span, length_cons, ih]

/-- A range is read in two parts. -/
theorem span_add (start m n : Nat) :
    span mem start (m + n) = span mem start m ++ span mem (start + m) n := by
  induction m generalizing start with
  | zero => rw [zero_add, add_zero, span, nil_append]
  | succ m ih =>
    rw [Nat.succ_add, span, span, ih, cons_append, add_assoc, add_comm 1 m]

variable {mem} {mem' : Memory} {i} {start n word k : Nat}

theorem getElem?_span {n : Nat} (inside : i < n) :
    (span mem start n)[i]? = some (mem (start + i)) := by
  induction n generalizing start i with
  | zero => omega
  | succ n ih =>
    cases i with
    | zero => rfl
    | succ i =>
      rw [span, getElem?_cons_succ, ih (by omega), add_assoc, add_comm 1 i]

def memory (bytes : List Byte) : Memory := fun i => bytes.getD i 0

theorem span_memory (bytes : List Byte) : span (memory bytes) 0 bytes.length = bytes := by
  apply ext_getElem?
  intro i
  rcases Nat.lt_or_ge i bytes.length with inside | outside
  · rw [getElem?_span inside, zero_add, memory, getD_eq_getElem?_getD,
      getElem?_eq_getElem inside, Option.getD_some]
  · rw [getElem?_eq_none outside, getElem?_eq_none (by rw [length_span]; exact outside)]

def Agree (mem mem' : Memory) (e : Extent) : Prop :=
  ∀ i, e.offset ≤ i → i < e.stop → mem i = mem' i

theorem Agree.part {e f : Extent} (agree : Agree mem mem' e) (covers : e.Covers f) :
    Agree mem mem' f :=
  fun i low high => agree i (le_trans covers.1 low) (lt_of_lt_of_le high covers.2)

theorem Agree.le16 (agree : Agree mem mem' ⟨i, 2⟩) : le16 mem i = le16 mem' i := by
  unfold Theory.le16
  rw [agree i le_rfl (by simp [Extent.stop]), agree (i + 1) (by simp) (by simp [Extent.stop])]

theorem Agree.le32 (agree : Agree mem mem' ⟨i, 4⟩) : le32 mem i = le32 mem' i := by
  unfold Theory.le32
  rw [(agree.part (by simp [Extent.Covers, Extent.stop])).le16,
    (agree.part (by simp [Extent.Covers, Extent.stop])).le16]

theorem Agree.le64 (agree : Agree mem mem' ⟨i, 8⟩) : le64 mem i = le64 mem' i := by
  unfold Theory.le64
  rw [(agree.part (by simp [Extent.Covers, Extent.stop])).le32,
    (agree.part (by simp [Extent.Covers, Extent.stop])).le32]

theorem Agree.span (agree : Agree mem mem' ⟨start, n⟩) : span mem start n = span mem' start n := by
  induction n generalizing start with
  | zero => rfl
  | succ n ih =>
    rw [Theory.span, Theory.span, agree start le_rfl (by simp [Extent.stop])]
    have rest : Agree mem mem' ⟨start + 1, n⟩ :=
      agree.part ⟨Nat.le_succ _, le_of_eq (Nat.succ_add_eq_add_succ start n)⟩
    rw [ih rest]

/-- Equal ranges agree byte by byte. -/
theorem agree_of_span (same : span mem start n = span mem' start n) :
    Agree mem mem' ⟨start, n⟩ := by
  intro i low high
  simp only [Extent.stop] at low high
  obtain ⟨k, rfl⟩ := Nat.exists_eq_add_of_le low
  have first : (span mem start n)[k]? = some (mem (start + k)) := getElem?_span (by omega)
  have second : (span mem' start n)[k]? = some (mem' (start + k)) := getElem?_span (by omega)
  rw [same, second] at first
  exact (Option.some.inj first).symm

/-! ## Writing a word -/

/-- Store a 16-bit word at `i`, least significant byte first. -/
def write16 (mem : Memory) (i word : Nat) : Memory := fun k =>
  if k = i then BitVec.ofNat 8 word else if k = i + 1 then BitVec.ofNat 8 (word / 256) else mem k

theorem write16_of_ne (low : k ≠ i) (high : k ≠ i + 1) : write16 mem i word k = mem k := by
  rw [write16, if_neg low, if_neg high]

theorem le16_write16 (lt : word < 65536) : le16 (write16 mem i word) i = word := by
  rw [le16, write16, write16, if_pos rfl, if_neg (Nat.succ_ne_self i), if_pos rfl,
    BitVec.toNat_ofNat, BitVec.toNat_ofNat]
  omega

/-- Storing what is there changes nothing. -/
theorem write16_le16 (mem : Memory) (i : Nat) : write16 mem i (le16 mem i) = mem := by
  funext k
  unfold write16 le16
  split
  · rename_i here
    apply BitVec.eq_of_toNat_eq
    rw [BitVec.toNat_ofNat, here]
    omega
  · split
    · rename_i here
      apply BitVec.eq_of_toNat_eq
      rw [BitVec.toNat_ofNat, here]
      omega
    · rfl

/-- The word written is all that is written. -/
theorem agree_write16 {e : Extent} (apart : e.Apart ⟨i, 2⟩) (mem : Memory) (word : Nat) :
    Agree (write16 mem i word) mem e := by
  intro k low high
  simp only [Extent.Apart, Extent.stop] at apart high
  exact write16_of_ne (by omega) (by omega)

end KvmGuestDrivers.Theory

/-
# VioGpu.CtrlQueueSgList -- the bytes that a control queue command names

`BuildSGElement` describes up to a page from any address by the physical address of its first byte.
-/
import KvmGuestDrivers.VioGpu.CtrlQueue

namespace KvmGuestDrivers.VioGpu

set_option autoImplicit false

open VirtIO List

-- The physical page of each page.
variable (frames : Nat → Nat)

/-- `MmGetPhysicalAddress`, for memory that is resident. -/
def physByte (addr : Nat) : Nat := frames (addr / pageSize) * pageSize + addr % pageSize

def physBytes (addr size : Nat) : List Nat := (range' addr size).map (physByte frames)

/-- The bytes that the device takes a list for. -/
def sgBytes (l : List Scatterlist) : List Nat := l.flatMap fun e => range' e.physAddr e.length

/-- Wherever the bytes go from a page to the next one, the physical pages are adjacent. -/
def Adjacent (addr size : Nat) : Prop :=
  ∀ i, i + 1 < size → (addr + i + 1) % pageSize = 0 →
    frames ((addr + i + 1) / pageSize) = frames ((addr + i) / pageSize) + 1

variable {frames} {addr size : Nat}

theorem physByte_succ (addr : Nat) : physByte frames (addr + 1) = physByte frames addr + 1 ↔
    ((addr + 1) % pageSize = 0 →
      frames ((addr + 1) / pageSize) = frames (addr / pageSize) + 1) := by
  unfold physByte pageSize
  by_cases boundary : (addr + 1) % 4096 = 0
  · omega
  · have same : (addr + 1) / 4096 = addr / 4096 := by omega
    rw [same]
    omega

theorem physBytes_eq_range' :
    physBytes frames addr size = range' (physByte frames addr) size ↔
      Adjacent frames addr size := by
  have bytes : physBytes frames addr size = range' (physByte frames addr) size ↔
      ∀ i < size, physByte frames (addr + i) = physByte frames addr + i := by
    simp only [physBytes, ext_getElem_iff, length_map, length_range', getElem_map, getElem_range',
      true_and, one_mul]
    exact ⟨fun same i lt => same i lt lt, fun same i lt _ => same i lt⟩
  rw [bytes]
  constructor
  · intro same i lt
    refine (physByte_succ (addr + i)).mp ?_
    have next := same (i + 1) lt
    rw [← add_assoc, ← add_assoc] at next
    rw [next, same i (by omega)]
  · intro adjacent i
    induction i with
    | zero => simp
    | succ i ih =>
      intro lt
      rw [← add_assoc, (physByte_succ (addr + i)).mpr (adjacent i lt), ih (by omega), add_assoc]

theorem physBytes_add (frames : Nat → Nat) (addr m n : Nat) :
    physBytes frames addr (m + n) = physBytes frames addr m ++ physBytes frames (addr + m) n := by
  simp [physBytes, ← range'_append_1]

@[simp] theorem length_physBytes : (physBytes frames addr size).length = size := by
  simp [physBytes]

theorem buildElement_covers (frames : Nat → Nat) (addr : Nat) (small : size ≤ pageSize) :
    ∃ l, buildElement (fun a => some (physByte frames a)) addr size = some l ∧
      (sgBytes l).length = size ∧
      (sgBytes l = physBytes frames addr size ↔ Adjacent frames addr size) := by
  rw [← physBytes_eq_range', eq_comm]
  by_cases none : size = 0
  · subst none
    exact ⟨[], rfl, rfl, Iff.rfl⟩
  · refine ⟨[⟨physByte frames addr, size⟩], ?_, ?_, ?_⟩
    · simp [buildElement, buildSGElement, none, small]
    · simp [sgBytes]
    · simp [sgBytes]

theorem adjacent_of_aligned (aligned : addr % pageSize = 0) (small : size ≤ pageSize) :
    Adjacent frames addr size := by
  intro i lt boundary
  unfold pageSize at *
  omega

/-- The first page of the data, and what follows it.  The cut between the two is a page boundary
only where the data starts on one. -/
theorem adjacent_cut :
    addr % pageSize = 0 ∨ Adjacent frames addr size ↔
      Adjacent frames addr (min size pageSize) ∧
        ((addr + min size pageSize) % pageSize = 0 ∨
          Adjacent frames (addr + min size pageSize) (size - min size pageSize)) := by
  have first : min size pageSize = size ∨ min size pageSize = pageSize ∧ pageSize < size := by omega
  constructor
  · rintro (aligned | adjacent)
    · refine ⟨adjacent_of_aligned aligned (Nat.min_le_right ..), ?_⟩
      rcases first with all | ⟨page, -⟩
      · rw [all, Nat.sub_self]
        exact .inr fun i lt => by omega
      · rw [page, Nat.add_mod_right]
        exact .inl aligned
    · refine ⟨fun i lt => adjacent i (by omega), .inr fun i lt => ?_⟩
      have crossed := adjacent (min size pageSize + i) (by omega)
      rwa [← add_assoc] at crossed
  · rintro ⟨page, rest⟩
    rcases first with all | ⟨whole, more⟩
    · rw [all] at page
      exact .inr page
    · rw [whole] at page rest
      rw [Nat.add_mod_right] at rest
      refine or_iff_not_imp_left.mpr fun unaligned i lt boundary => ?_
      have adjacent := rest.resolve_left unaligned
      rcases lt_trichotomy (i + 1) pageSize with below | cut | above
      · exact page i below boundary
      · rw [add_assoc, cut, Nat.add_mod_right] at boundary
        exact absurd boundary unaligned
      · obtain ⟨k, rfl⟩ := Nat.exists_eq_add_of_le (Nat.le_of_lt_succ above)
        have crossed := adjacent k (by omega)
        rw [add_assoc addr] at crossed
        exact crossed boundary

theorem buildDataElements_covers (frames : Nat → Nat) (addr sgleft : Nat)
    (room : bytesToPages size ≤ sgleft) :
    ∃ l, buildDataElements (fun a => some (physByte frames a)) sgleft addr size = some l ∧
      (sgBytes l).length = size ∧
      (sgBytes l = physBytes frames addr size ↔
        addr % pageSize = 0 ∨ Adjacent frames addr size) := by
  have empty : ∀ addr, Adjacent frames addr 0 := fun addr i lt => by omega
  induction sgleft generalizing addr size with
  | zero =>
    have none : size = 0 := by
      rw [bytesToPages_eq] at room
      omega
    subst none
    exact ⟨[], rfl, rfl, iff_of_true rfl (.inr (empty addr))⟩
  | succ sgleft ih =>
    by_cases none : size = 0
    · subst none
      exact ⟨[], rfl, rfl, iff_of_true rfl (.inr (empty addr))⟩
    rw [bytesToPages_sub none] at room
    obtain ⟨l, built, length, covers⟩ :=
      @ih (size - min size pageSize) (addr + min size pageSize) (by omega)
    have bytes : sgBytes (⟨physByte frames addr, min size pageSize⟩ :: l) =
        range' (physByte frames addr) (min size pageSize) ++ sgBytes l := by
      simp [sgBytes]
    have whole : min size pageSize + (size - min size pageSize) = size := by omega
    refine ⟨⟨physByte frames addr, min size pageSize⟩ :: l, ?_, ?_, ?_⟩
    · simp [buildDataElements, buildSGElement, none, built]
    · rw [bytes, length_append, length, length_range', whole]
    · have cut := physBytes_add frames addr (min size pageSize) (size - min size pageSize)
      rw [whole] at cut
      rw [adjacent_cut, ← covers, ← physBytes_eq_range', bytes, cut,
        append_eq_append_iff_of_size_eq_left (by simp)]
      exact and_congr_left' eq_comm

variable {b : GpuVbuffer}

/-- The pages of a command that its elements take for adjacent: those of the command and of the
response, and those of data that does not start on a page. -/
def GpuVbuffer.Adjacent (frames : Nat → Nat) (b : GpuVbuffer) : Prop :=
  VioGpu.Adjacent frames b.buf b.size ∧
    (b.dataBuf % pageSize = 0 ∨ VioGpu.Adjacent frames b.dataBuf b.dataSize) ∧
    VioGpu.Adjacent frames b.respBuf b.respSize

/-- **The scatter list is exact** where it takes only adjacent pages for adjacent; it is built in
any case, with the elements there are. -/
theorem sgList_exact (frames : Nat → Nat) (valid : validateCtrlQueueBuffer b = true) :
    ∃ out inn, buildCtrlQueueSGList (fun a => some (physByte frames a)) b = some (out, inn) ∧
      out.length + inn.length ≤ sglistSize ∧
      (sgBytes out = physBytes frames b.buf b.size ++ physBytes frames b.dataBuf b.dataSize ∧
        sgBytes inn = physBytes frames b.respBuf b.respSize ↔ b.Adjacent frames) := by
  have command : b.size ≤ pageSize := by
    by_contra long
    simp [validateCtrlQueueBuffer, Nat.not_le.mp long] at valid
  have response : b.respSize ≤ pageSize := by
    by_contra long
    simp [validateCtrlQueueBuffer, Nat.not_le.mp long] at valid
  obtain ⟨first, builtFirst, lengthFirst, coversFirst⟩ :=
    buildElement_covers frames b.buf command
  obtain ⟨last, builtLast, -, coversLast⟩ :=
    buildElement_covers frames b.respBuf response
  have count := sgCount_le_of_valid valid
  have one := length_buildElement builtFirst
  simp only [GpuVbuffer.sgCount] at count
  obtain ⟨rest, builtRest, -, coversRest⟩ :=
    buildDataElements_covers frames b.dataBuf (sglistSize - first.length)
      (show bytesToPages b.dataSize ≤ _ by rw [one]; split at count <;> split <;> omega)
  have pages := (length_buildDataElements builtRest).1
  have built : buildCtrlQueueSGList (fun a => some (physByte frames a)) b =
      some (first ++ rest, last) := by
    have left : ¬(b.respSize ≠ 0 ∧ sglistSize - first.length - rest.length = 0) := by
      rw [one]
      split at count <;> split at count <;> split <;> omega
    simp [buildCtrlQueueSGList, valid, builtFirst, builtRest, builtLast, left]
  have total := length_buildCtrlQueueSGList built
  have bytes : sgBytes (first ++ rest) = sgBytes first ++ sgBytes rest := by simp [sgBytes]
  refine ⟨_, _, built, by omega, ?_⟩
  rw [bytes, append_eq_append_iff_of_size_eq_left (by simp [lengthFirst]), coversFirst, coversRest,
    coversLast, and_assoc]
  rfl

/-- Data that does not start on a page, and goes on in the next physical page. -/
theorem sgList_exact_pages : let b : GpuVbuffer := ⟨0, 24, 4100, 5000, 512, 24, by decide⟩
    ∃ out inn, buildCtrlQueueSGList (fun a => some (physByte (· + 7) a)) b = some (out, inn) ∧
      sgBytes out = physBytes (· + 7) 0 24 ++ physBytes (· + 7) 4100 5000 := by
  have adjacent : ∀ addr size, Adjacent (· + 7) addr size := by
    intro addr size i _ boundary
    unfold pageSize at *
    dsimp only
    omega
  obtain ⟨out, inn, built, -, covers⟩ := sgList_exact (· + 7)
    (b := ⟨0, 24, 4100, 5000, 512, 24, by decide⟩) rfl
  exact ⟨out, inn, built, (covers.mpr ⟨adjacent _ _, .inr (adjacent _ _), adjacent _ _⟩).1⟩

/-- Two bytes of data on two pages, which lie apart. -/
theorem sgList_crosses : let b : GpuVbuffer := ⟨0, 24, 4095, 2, 512, 24, by decide⟩
    let frames := fun page => if page = 0 then 5 else 9
    validateCtrlQueueBuffer b = true ∧ ∃ out inn,
      buildCtrlQueueSGList (fun a => some (physByte frames a)) b = some (out, inn) ∧
      sgBytes out ≠ physBytes frames 0 24 ++ physBytes frames 4095 2 :=
  ⟨rfl, [⟨20480, 24⟩, ⟨24575, 2⟩], [⟨20992, 24⟩], rfl, by decide⟩

end KvmGuestDrivers.VioGpu

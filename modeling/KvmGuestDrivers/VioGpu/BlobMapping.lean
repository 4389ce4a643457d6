/-
# VioGpu.BlobMapping -- mappings of a blob allocation

A mappable blob has one mapping on the host (`m_blob_mapped`) and any number of users of it:
processes, each with one mapping in its address space and a count of its own references
(`EscapeResourceMapBlob`, `EscapeResourceUnmapBlob`), and the kernel (`MapForCpuCopy`).  The
host mapping is made for the first user and given up after the last process, unless the
kernel uses it, which keeps it until the allocation is deleted.

The functions run under `m_blob_map_mutex`, one at a time.  Everything they learn from the
host and the operating system is an argument (`MapEnv`, `CopyEnv`).  Each mapping remembers
the range of physical addresses it was made for.  `mapBlob_cases`, `unmapBlob_cases` and
`mapForCpuCopy_cases` say what a call can do; the invariant follows from them.
-/
import KvmGuestDrivers.Theory.Extent
import KvmGuestDrivers.VioGpu.BlobCreate
import Mathlib.Algebra.Order.BigOperators.Group.List
import Mathlib.Algebra.Order.Group.Nat

namespace KvmGuestDrivers.VioGpu

set_option autoImplicit false

open Theory VirtIO List

/-! ## The functions -/

/-- `ALIGN_UP_BY(length, PAGE_SIZE)`, which works on a `ULONG_PTR`. -/
def alignUpBy (bits length : Nat) : Nat :=
  (length % 2 ^ bits + (pageSize - 1)) % 2 ^ bits / pageSize * pageSize

structure BlobConfig where
  /-- Bits of a `ULONG_PTR`. -/
  bits : Nat
  word : bits = 32 ∨ bits = 64
  size : Nat
  /-- The range that `DxgkCreateAllocation` has allocated, for mappable blobs. -/
  offset : Nat
  mappable : Bool
  shmemLen : Nat
  shmemPa : Nat

variable (c : BlobConfig)

def BlobConfig.blobSize : Nat := alignUpBy c.bits c.size

def BlobConfig.shmemAllocated : Bool := c.mappable

def BlobConfig.address (offset : Nat) : Nat := (c.shmemPa + offset) % 2 ^ 64

def BlobConfig.range : Extent := ⟨c.address c.offset, c.blobSize⟩

section Functions

variable {Process : Type} [DecidableEq Process]

/-- `BlobUserMapping`, and the range it was made for. -/
structure UserMapping (Process : Type) where
  process : Process
  processId : Nat
  userVa : Nat
  size : Nat
  mapInfo : Nat
  refCount : Nat
  range : Extent

structure BlobMappings (Process : Type) where
  offset : Nat
  mapInfo : Nat
  mapped : Bool
  /-- `m_blob_kernel_va`, zero when there is no mapping, and its range. -/
  kernelVa : Nat
  kernelRange : Extent
  /-- `m_blob_map_list`. -/
  entries : List (UserMapping Process)
  userRefs : Nat

def blobMappingsStart : BlobMappings Process :=
  ⟨c.offset, 0, false, 0, ⟨0, 0⟩, [], 0⟩

/-- Commands to the host and calls of the operating system. -/
inductive BlobAction where
  | resourceMapBlob
  | resourceUnmapBlob
  | mapMemory (range : Extent)
  | unmapMemory (userVa : Nat)
  | mapIoSpace (range : Extent)
  deriving DecidableEq

structure BlobHanded where
  va : Nat
  size : Nat
  range : Extent

structure BlobReply where
  status : Nat
  handed : Option BlobHanded
  actions : List BlobAction

def BlobReply.fail (status : NtStatus) : BlobReply := ⟨status.code, none, []⟩

/-- `VIOGPU_RES_MAP_BLOB_REQ`, from the process `VioGpuGetTargetProcess` finds. -/
structure MapRequest (Process : Type) where
  process : Process
  size : Nat
  offset : Nat

structure MapEnv where
  /-- What `EnsureBlobCreatedAndWait` returns. -/
  blobStatus : Nat
  /-- Whether `GetShmemCpuTranslatedAddress` succeeds. -/
  translated : Bool
  /-- What `ResourceMapBlob` learns from the host. -/
  hostMap : Option Nat
  /-- What `DxgkCbMapMemory` returns. -/
  mapStatus : Nat
  userVa : Nat
  /-- The probe of the new mapping, in debug builds. -/
  probe : Option Bool
  /-- Whether there is memory for a `BlobUserMapping`. -/
  room : Bool

structure CopyEnv where
  blobStatus : Nat
  translated : Bool
  hostMap : Option Nat
  /-- What `MmMapIoSpace` returns. -/
  kernelVa : Nat

def ulongInc (n : Nat) : Nat := (n + 1) % 2 ^ 32

def ulongDec (n : Nat) : Nat := (n + (2 ^ 32 - 1)) % 2 ^ 32

variable (s : BlobMappings Process)

/-- `if (!m_blob_mapped)`: map the blob on the host. -/
def hostMapped (hostMap : Option Nat) :
    Option (BlobMappings Process × List BlobAction) :=
  if s.mapped then some (s, [])
  else hostMap.map fun mapInfo =>
    ({ s with mapped := true, mapInfo := mapInfo }, [.resourceMapBlob])

/-- Unmap the blob on the host when nobody uses it. -/
def hostUnmapped : BlobMappings Process × List BlobAction :=
  if s.userRefs = 0 ∧ s.mapped = true ∧ s.kernelVa = 0 then
    ({ s with mapped := false, mapInfo := 0 }, [.resourceUnmapBlob])
  else (s, [])

/-- The test of `FindBlobMappingLocked`; neither process is `NULL`. -/
def UserMapping.isOf (processId : Nat) (process : Process) (m : UserMapping Process) : Bool :=
  m.processId == processId && m.process == process

def findBlobMappingLocked (processId : Nat) (process : Process) :
    Option (UserMapping Process) :=
  s.entries.find? (UserMapping.isOf processId process)

/-- Change the entry that `FindBlobMappingLocked` finds, or remove it. -/
def changeEntry (processId : Nat) (process : Process)
    (f : UserMapping Process → Option (UserMapping Process)) :
    List (UserMapping Process) → List (UserMapping Process)
  | [] => []
  | m :: rest =>
    if m.isOf processId process then (f m).toList ++ rest
    else m :: changeEntry processId process f rest

variable (pid : Process → Nat)

def referenced (s : BlobMappings Process) (process : Process) : BlobMappings Process :=
  { s with
    entries := changeEntry (pid process) process
      (fun m => some { m with refCount := ulongInc m.refCount }) s.entries
    userRefs := ulongInc s.userRefs }

def dereferenced (s : BlobMappings Process) (process : Process) : BlobMappings Process :=
  { s with
    entries := changeEntry (pid process) process
      (fun m => if m.refCount - 1 = 0 then none else some { m with refCount := m.refCount - 1 })
      s.entries
    userRefs := ulongDec s.userRefs }

/-- `EscapeResourceMapBlob` from the failure of `FindBlobMappingLocked` on. -/
def mapBlobNew (s : BlobMappings Process) (r : MapRequest Process) (e : MapEnv)
    (requestedSize mapLen : Nat) : BlobMappings Process × BlobReply :=
  match hostMapped s e.hostMap with
  | none => (s, ⟨NtStatus.unsuccessful.code, none, [.resourceMapBlob]⟩)
  | some (s, actions) =>
    let range : Extent := ⟨c.address s.offset, mapLen % 2 ^ 32⟩
    let actions := actions ++ [.mapMemory range]
    if !(ntSuccess e.mapStatus && e.userVa != 0) || e.probe == some false then
      -- debug builds undo a mapping that exists and is no good
      let undone :=
        if e.probe.isSome && e.userVa != 0 then [BlobAction.unmapMemory e.userVa] else []
      let (s, dropped) := hostUnmapped s
      let status := if ntSuccess e.mapStatus then NtStatus.unsuccessful.code else e.mapStatus
      (s, ⟨status, none, actions ++ undone ++ dropped⟩)
    else if !e.room then
      let (s, dropped) := hostUnmapped s
      (s, ⟨NtStatus.insufficientResources.code, none,
        actions ++ [.unmapMemory e.userVa] ++ dropped⟩)
    else
      let m : UserMapping Process :=
        ⟨r.process, pid r.process, e.userVa, requestedSize, s.mapInfo, 1, range⟩
      ({ s with entries := s.entries ++ [m], userRefs := ulongInc s.userRefs },
        ⟨NtStatus.success.code, some ⟨e.userVa, requestedSize, range⟩, actions⟩)

def mapBlob (s : BlobMappings Process) (r : MapRequest Process) (e : MapEnv) :
    BlobMappings Process × BlobReply :=
  let requestedSize := if r.size ≠ 0 then r.size else c.blobSize
  let mapLen := alignUpBy c.bits requestedSize
  if !c.mappable then (s, .fail .notSupported)
  else if !ntSuccess e.blobStatus then (s, ⟨e.blobStatus, none, []⟩)
  else if requestedSize = 0 ∨ c.blobSize < requestedSize then (s, .fail .invalidParameter)
  else if r.offset ≠ 0 ∧ r.offset ≠ s.offset then (s, .fail .invalidParameter)
  else if s.offset % pageSize ≠ 0 then (s, .fail .invalidParameter)
  else if mapLen = 0 ∨ 2 ^ 32 ≤ mapLen then (s, .fail .invalidParameter)
  else if c.shmemLen < s.offset ∨ c.shmemLen - s.offset < mapLen then (s, .fail .invalidParameter)
  else if !e.translated then (s, .fail .notSupported)
  else
    match findBlobMappingLocked s (pid r.process) r.process with
    | some m =>
      if r.size ≠ 0 ∧ r.size ≠ m.size then (s, .fail .invalidParameter)
      else
        (referenced pid s r.process,
          ⟨NtStatus.success.code, some ⟨m.userVa, m.size, m.range⟩, []⟩)
    | none => mapBlobNew c pid s r e requestedSize mapLen

def unmapBlob (s : BlobMappings Process) (process : Process) : BlobMappings Process × BlobReply :=
  if !c.mappable then (s, .fail .notSupported)
  else
    match findBlobMappingLocked s (pid process) process with
    | none => (s, .fail .invalidParameter)
    | some m =>
      if m.refCount = 0 then (s, .fail .invalidParameter)
      else
        let undone := if m.refCount - 1 = 0 then [BlobAction.unmapMemory m.userVa] else []
        let rest := hostUnmapped (dereferenced pid s process)
        (if !rest.2.isEmpty && !c.shmemAllocated then { rest.1 with offset := 0 } else rest.1,
          ⟨NtStatus.success.code, none, undone ++ rest.2⟩)

def mapForCpuCopy (e : CopyEnv) : BlobMappings Process × BlobReply :=
  let mapLen := alignUpBy c.bits c.blobSize
  if !ntSuccess e.blobStatus then (s, ⟨e.blobStatus, none, []⟩)
  else if !c.mappable then (s, .fail .notSupported)
  else if mapLen = 0 ∨ c.shmemLen < s.offset ∨ c.shmemLen - s.offset < mapLen then
    (s, .fail .invalidParameter)
  else
    match hostMapped s e.hostMap with
    | none => (s, ⟨NtStatus.unsuccessful.code, none, [.resourceMapBlob]⟩)
    | some (s, actions) =>
      if s.kernelVa ≠ 0 then
        (s, ⟨NtStatus.success.code, some ⟨s.kernelVa, s.kernelRange.size, s.kernelRange⟩, actions⟩)
      else if !e.translated then (s, ⟨NtStatus.notSupported.code, none, actions⟩)
      else
        let range : Extent := ⟨c.address s.offset, mapLen⟩
        let actions := actions ++ [.mapIoSpace range]
        if e.kernelVa = 0 then (s, ⟨NtStatus.insufficientResources.code, none, actions⟩)
        else
          ({ s with kernelVa := e.kernelVa, kernelRange := range },
            ⟨NtStatus.success.code, some ⟨e.kernelVa, range.size, range⟩, actions⟩)

inductive BlobMapOp (Process : Type) where
  | map (r : MapRequest Process) (e : MapEnv)
  | unmap (process : Process)
  | copy (e : CopyEnv)

def blobMapStep (s : BlobMappings Process) :
    BlobMapOp Process → Except Empty (BlobMappings Process × BlobReply)
  | .map r e => .ok (mapBlob c pid s r e)
  | .unmap process => .ok (unmapBlob c pid s process)
  | .copy e => .ok (mapForCpuCopy c s e)

/-- References can be counted in a `ULONG`, and the kernel gets the mapping it has made the host
map the blob for. -/
def Steady : BlobMapOp Process → Prop
  | .map _ _ => s.userRefs + 1 < 2 ^ 32
  | .unmap _ => True
  | .copy e => s.mapped = false → e.hostMap.isSome = true → e.translated = true ∧ e.kernelVa ≠ 0

end Functions

def pageBlob : BlobConfig := ⟨64, .inr rfl, 4096, 0, true, 0x10000, 0x80000000⟩

/-- `MmMapIoSpace` fails after the host has mapped the blob: the call fails, and the host mapping
stays without anybody using it. -/
theorem mapForCpuCopy_leaves_mapping : let s : BlobMappings Nat := blobMappingsStart pageBlob
    let result := mapForCpuCopy pageBlob s ⟨0, true, some 1, 0⟩
    ntSuccess result.2.status = false ∧ s.mapped = false ∧ result.1.mapped = true ∧
      result.1.entries = [] ∧ result.1.kernelVa = 0 := by
  refine ⟨?_, rfl, ?_, ?_, ?_⟩ <;> decide +kernel

/-! ## Sizes -/

section Sizes

theorem alignUpBy_le {bits length bound : Nat} (word : bits = 32 ∨ bits = 64)
    (le : length ≤ bound) (whole : bound % pageSize = 0) (fits : bound < 2 ^ bits) :
    length ≤ alignUpBy bits length ∧ alignUpBy bits length ≤ bound := by
  unfold alignUpBy pageSize at *
  rcases word with rfl | rfl <;> omega

theorem alignUpBy_lt {bits length : Nat} (word : bits = 32 ∨ bits = 64) :
    alignUpBy bits length < 2 ^ bits ∧ alignUpBy bits length % pageSize = 0 := by
  unfold alignUpBy pageSize
  rcases word with rfl | rfl <;> omega

theorem BlobConfig.blobSize_lt : c.blobSize < 2 ^ c.bits ∧ c.blobSize % pageSize = 0 :=
  alignUpBy_lt c.word

theorem BlobConfig.alignUpBy_le_blobSize {length : Nat} (le : length ≤ c.blobSize) :
    length ≤ alignUpBy c.bits length ∧ alignUpBy c.bits length ≤ c.blobSize :=
  alignUpBy_le c.word le c.blobSize_lt.2 c.blobSize_lt.1

theorem BlobConfig.range_covers {offset size : Nat} (starts : offset = c.offset)
    (le : size ≤ c.blobSize) : c.range.Covers ⟨c.address offset, size⟩ := by
  rw [starts]
  exact ⟨le_rfl, Nat.add_le_add_left le _⟩

end Sizes

/-! ## The list of mappings -/

section Entries

variable {Process : Type} [DecidableEq Process] {processId : Nat} {process : Process}
  {f : UserMapping Process → Option (UserMapping Process)} {entries : List (UserMapping Process)}

/-- Changing an entry changes the sum of the counters by as much. -/
theorem sum_changeEntry {m : UserMapping Process}
    (found : entries.find? (UserMapping.isOf processId process) = some m) :
    ((changeEntry processId process f entries).map UserMapping.refCount).sum + m.refCount =
      (entries.map UserMapping.refCount).sum + ((f m).toList.map UserMapping.refCount).sum := by
  induction entries with
  | nil => cases found
  | cons _ _ ih =>
    rw [changeEntry]
    rw [find?_cons] at found
    split at found
    · rename_i is
      cases found
      rw [if_pos is, map_append, sum_append, map_cons, sum_cons]
      omega
    · rename_i is
      rw [if_neg (Bool.eq_false_iff.mp is), map_cons, sum_cons, map_cons, sum_cons]
      have later := ih found
      omega

theorem forall_changeEntry {P : UserMapping Process → Prop} (all : ∀ m ∈ entries, P m)
    (changed : ∀ m ∈ entries, ∀ m' ∈ f m, P m') :
    ∀ m ∈ changeEntry processId process f entries, P m := by
  induction entries with
  | nil => exact all
  | cons _ _ ih =>
    obtain ⟨here, later⟩ := forall_mem_cons.mp all
    obtain ⟨changedHere, changedLater⟩ := forall_mem_cons.mp changed
    intro m member
    rw [changeEntry] at member
    split at member
    · rcases mem_append.mp member with new | old
      · exact changedHere m (Option.mem_toList.mp new)
      · exact later m old
    · rcases mem_cons.mp member with rfl | old
      · exact here
      · exact ih later changedLater m old

theorem processes_changeEntry (same : ∀ m, ∀ m' ∈ f m, m'.process = m.process) :
    ((changeEntry processId process f entries).map UserMapping.process).Sublist
      (entries.map UserMapping.process) := by
  induction entries with
  | nil => exact List.Sublist.refl _
  | cons first _ ih =>
    rw [changeEntry]
    split
    · cases new : f first with
      | none => exact sublist_cons_self _ _
      | some m =>
        rw [Option.toList_some, singleton_append, map_cons, map_cons, same first m new]
    · exact ih.cons_cons _

theorem not_mem_of_find?_eq_none {pid : Process → Nat}
    (named : ∀ m ∈ entries, m.processId = pid m.process)
    (none : entries.find? (UserMapping.isOf (pid process) process) = none) :
    process ∉ entries.map UserMapping.process := by
  intro there
  obtain ⟨m, member, rfl⟩ := mem_map.mp there
  have no := find?_eq_none.mp none m member
  rw [UserMapping.isOf, named m member, beq_self_eq_true, beq_self_eq_true] at no
  exact no rfl

end Entries

/-! ## What a call can do -/

variable {reply : BlobReply} {hostMap : Option Nat} {made : List BlobAction} {e : MapEnv}

section Outcomes

variable {Process : Type} {s t : BlobMappings Process}

theorem hostMapped_cases {u : BlobMappings Process} {actions : List BlobAction}
    (mapped : hostMapped s hostMap = some (u, actions)) :
    BlobAction.resourceUnmapBlob ∉ actions ∧ (s.mapped = true ∧ u = s ∨
        s.mapped = false ∧ ∃ mapInfo, hostMap = some mapInfo ∧
          u = { s with mapped := true, mapInfo := mapInfo }) := by
  unfold hostMapped at mapped
  split at mapped
  · rename_i was
    cases mapped
    exact ⟨not_mem_nil, .inl ⟨was, rfl⟩⟩
  rename_i was
  obtain ⟨mapInfo, learnt, made⟩ := Option.map_eq_some_iff.mp mapped
  cases made
  exact ⟨by decide, .inr ⟨Bool.eq_false_iff.mpr was, mapInfo, learnt, rfl⟩⟩

theorem dropped_of_mem {undone dropped : List BlobAction}
    (quiet : BlobAction.resourceUnmapBlob ∉ made) (other : BlobAction.resourceUnmapBlob ∉ undone)
    (there : BlobAction.resourceUnmapBlob ∈ made ++ undone ++ dropped) : dropped ≠ [] := by
  rintro rfl
  rw [append_nil] at there
  exact not_mem_append quiet other there

inductive CopyOutcome (s : BlobMappings Process) (e : CopyEnv) :
    BlobMappings Process → BlobReply → Prop where
  | refused {reply : BlobReply} (empty : reply.handed = none)
      (quiet : BlobAction.resourceUnmapBlob ∉ reply.actions) :
      CopyOutcome s e s reply
  /-- Leave the host mapping behind. -/
  | broken {u made reply} (mapped : hostMapped s e.hostMap = some (u, made))
      (bad : ¬ (e.translated = true ∧ e.kernelVa ≠ 0))
      (empty : reply.handed = none) (quiet : BlobAction.resourceUnmapBlob ∉ reply.actions) :
      CopyOutcome s e u reply
  /-- Hand out the kernel's mapping. -/
  | used {u made} (mapped : hostMapped s e.hostMap = some (u, made)) (there : u.kernelVa ≠ 0) :
      CopyOutcome s e u ⟨NtStatus.success.code,
        some ⟨u.kernelVa, u.kernelRange.size, u.kernelRange⟩, made⟩
  /-- Make the kernel's mapping. -/
  | new {u made range} (mapped : hostMapped s e.hostMap = some (u, made)) (got : e.kernelVa ≠ 0)
      (is : range = ⟨c.address u.offset, alignUpBy c.bits c.blobSize⟩) :
      CopyOutcome s e { u with kernelVa := e.kernelVa, kernelRange := range }
        ⟨NtStatus.success.code, some ⟨e.kernelVa, range.size, range⟩, made ++ [.mapIoSpace range]⟩

/-- Every call of `MapForCpuCopy` has one of the outcomes. -/
theorem mapForCpuCopy_cases {e : CopyEnv} (result : mapForCpuCopy c s e = (t, reply)) :
    CopyOutcome c s e t reply := by
  unfold mapForCpuCopy at result
  dsimp only at result
  split at result
  · cases result
    exact .refused rfl not_mem_nil
  split at result
  · cases result
    exact .refused rfl not_mem_nil
  split at result
  · cases result
    exact .refused rfl not_mem_nil
  cases mapped : hostMapped s e.hostMap with
  | none =>
    rw [mapped] at result
    cases result
    exact .refused rfl (by decide)
  | some host =>
    have quiet := (hostMapped_cases mapped).1
    rw [mapped] at result
    dsimp only at result
    split at result
    · rename_i there
      cases result
      exact .used mapped there
    split at result
    · rename_i untranslated
      cases result
      refine .broken mapped (fun both => ?_) rfl quiet
      rw [both.1] at untranslated
      cases untranslated
    split at result
    · rename_i nothing
      cases result
      refine .broken mapped (fun both => both.2 nothing) rfl ?_
      exact not_mem_append quiet fun last => nomatch mem_singleton.mp last
    · rename_i got
      cases result
      exact .new mapped got rfl

variable [DecidableEq Process] (pid : Process → Nat)

inductive MapOutcome (s : BlobMappings Process) (r : MapRequest Process) (e : MapEnv) :
    BlobMappings Process → BlobReply → Prop where
  | refused {reply : BlobReply} (empty : reply.handed = none)
      (quiet : BlobAction.resourceUnmapBlob ∉ reply.actions) :
      MapOutcome s r e s reply
  /-- Map the blob on the host, and fail afterwards. -/
  | undone {u made reply}
      (mapped : hostMapped s e.hostMap = some (u, made)) (empty : reply.handed = none)
      (quiet : BlobAction.resourceUnmapBlob ∈ reply.actions → (hostUnmapped u).2 ≠ []) :
      MapOutcome s r e (hostUnmapped u).1 reply
  /-- Count one more reference of a process. -/
  | again {m} (found : s.entries.find? (UserMapping.isOf (pid r.process) r.process) = some m) :
      MapOutcome s r e (referenced pid s r.process)
        ⟨NtStatus.success.code, some ⟨m.userVa, m.size, m.range⟩, []⟩
  /-- Add the mapping of a process. -/
  | new {u made requestedSize range} (mapped : hostMapped s e.hostMap = some (u, made))
      (absent : s.entries.find? (UserMapping.isOf (pid r.process) r.process) = none)
      (size : requestedSize ≤ c.blobSize)
      (covers : range = ⟨c.address u.offset, alignUpBy c.bits requestedSize⟩) : MapOutcome s r e
        { u with
          entries := u.entries ++
            [⟨r.process, pid r.process, e.userVa, requestedSize, u.mapInfo, 1, range⟩]
          userRefs := ulongInc u.userRefs }
        ⟨NtStatus.success.code, some ⟨e.userVa, requestedSize, range⟩, made ++ [.mapMemory range]⟩

theorem mapBlobNew_cases {r : MapRequest Process} {requestedSize : Nat}
    (absent : s.entries.find? (UserMapping.isOf (pid r.process) r.process) = none)
    (size : requestedSize ≤ c.blobSize) (small : alignUpBy c.bits requestedSize < 2 ^ 32)
    (result : mapBlobNew c pid s r e requestedSize (alignUpBy c.bits requestedSize) = (t, reply)) :
    MapOutcome c pid s r e t reply := by
  unfold mapBlobNew at result
  cases mapped : hostMapped s e.hostMap with
  | none =>
    rw [mapped] at result
    cases result
    exact .refused rfl (by decide)
  | some host =>
    obtain ⟨u, made⟩ := host
    have quiet := (hostMapped_cases mapped).1
    have quiet' : ∀ range, BlobAction.resourceUnmapBlob ∉ made ++ [.mapMemory range] :=
      fun _ => not_mem_append quiet fun last => nomatch mem_singleton.mp last
    rw [mapped] at result
    dsimp only at result
    split at result
    · cases result
      refine .undone mapped rfl (dropped_of_mem (quiet' _) ?_)
      split
      · exact fun last => nomatch mem_singleton.mp last
      · exact not_mem_nil
    · split at result
      · cases result
        refine .undone mapped rfl (dropped_of_mem (quiet' _) ?_)
        exact fun last => nomatch mem_singleton.mp last
      · cases result
        have covers : (⟨c.address u.offset, alignUpBy c.bits requestedSize % 2 ^ 32⟩ : Extent) =
            ⟨c.address u.offset, alignUpBy c.bits requestedSize⟩ := by
          rw [Nat.mod_eq_of_lt small]
        exact .new mapped absent size covers

/-- So has every call of `MapBlob`, -/
theorem mapBlob_cases {r : MapRequest Process} (result : mapBlob c pid s r e = (t, reply)) :
    MapOutcome c pid s r e t reply := by
  have fails {status : NtStatus} : (s, BlobReply.fail status) = (t, reply) →
      MapOutcome c pid s r e t reply := by
    rintro ⟨⟩
    exact .refused rfl not_mem_nil
  unfold mapBlob at result
  dsimp only at result
  generalize (if r.size ≠ 0 then r.size else c.blobSize) = requestedSize at result
  split at result
  · exact fails result
  split at result
  · cases result
    exact .refused rfl not_mem_nil
  split at result
  · exact fails result
  split at result
  · exact fails result
  split at result
  · exact fails result
  split at result
  · exact fails result
  split at result
  · exact fails result
  split at result
  · exact fails result
  split at result
  · rename_i m found
    split at result
    · exact fails result
    · cases result
      exact .again found
  · rename_i absent
    exact mapBlobNew_cases c pid absent (by omega) (by omega) result

inductive UnmapOutcome (s : BlobMappings Process) (process : Process) :
    BlobMappings Process → BlobReply → Prop where
  | refused {reply : BlobReply} (empty : reply.handed = none)
      (quiet : BlobAction.resourceUnmapBlob ∉ reply.actions) :
      UnmapOutcome s process s reply
  | counted {m reply} (found : s.entries.find? (UserMapping.isOf (pid process) process) = some m)
      (held : 0 < m.refCount)
      (done : reply.status = NtStatus.success.code) (empty : reply.handed = none)
      (quiet : BlobAction.resourceUnmapBlob ∈ reply.actions →
        (hostUnmapped (dereferenced pid s process)).2 ≠ []) :
      UnmapOutcome s process (hostUnmapped (dereferenced pid s process)).1 reply

/-- and of `UnmapBlob`. -/
theorem unmapBlob_cases {process : Process} (result : unmapBlob c pid s process = (t, reply)) :
    UnmapOutcome pid s process t reply := by
  unfold unmapBlob at result
  split at result
  · cases result
    exact .refused rfl not_mem_nil
  rename_i mappable
  split at result
  · cases result
    exact .refused rfl not_mem_nil
  rename_i m found
  split at result
  · cases result
    exact .refused rfl not_mem_nil
  rename_i some
  -- a mappable blob has a range of its own, so the offset stays
  have allocated : c.shmemAllocated = true := by simpa [BlobConfig.shmemAllocated] using mappable
  dsimp only at result
  rw [allocated, Bool.not_true, Bool.and_false, if_neg Bool.false_ne_true] at result
  obtain ⟨rfl, rfl⟩ := Prod.mk.inj result
  refine .counted found (Nat.pos_of_ne_zero some) rfl rfl (fun there => ?_)
  rcases mem_append.mp there with undone | dropped
  · split at undone
    · exact nomatch mem_singleton.mp undone
    · exact absurd undone not_mem_nil
  · exact ne_nil_of_mem dropped

end Outcomes

/-! ## The invariant -/

section Invariant

variable {Process : Type} {c} {pid : Process → Nat} {s t u : BlobMappings Process}
  {process : Process}

/-- The references are counted, and every mapping lies in the range of the blob. -/
structure Listed (c : BlobConfig) (pid : Process → Nat) (s : BlobMappings Process) : Prop where
  refs : s.userRefs = (s.entries.map UserMapping.refCount).sum
  few : s.userRefs < 2 ^ 32
  positive : ∀ m ∈ s.entries, 1 ≤ m.refCount
  named : ∀ m ∈ s.entries, m.processId = pid m.process
  single : (s.entries.map UserMapping.process).Nodup
  fixed : s.offset = c.offset
  inside : ∀ m ∈ s.entries, c.range.Covers m.range ∧ m.size ≤ m.range.size
  kernel : s.kernelVa ≠ 0 → c.range.Covers s.kernelRange

/-- The host mapping exists for its users, and without them nothing is left of it. -/
structure Shared (s : BlobMappings Process) : Prop where
  used : s.mapped = true ↔ s.entries ≠ [] ∨ s.kernelVa ≠ 0
  blank : s.mapped = false → s.mapInfo = 0

theorem Listed.empty_iff (listed : Listed c pid s) : s.userRefs = 0 ↔ s.entries = [] := by
  rw [listed.refs]
  constructor
  · intro zero
    cases held : s.entries with
    | nil => rfl
    | cons m =>
      have some := listed.positive m (held ▸ mem_cons_self ..)
      rw [held, map_cons, sum_cons] at zero
      omega
  · intro empty
    rw [empty]
    rfl

theorem Listed.hostMapped (listed : Listed c pid s)
    (mapped : hostMapped s hostMap = some (u, made)) : Listed c pid u := by
  rcases (hostMapped_cases mapped).2 with ⟨_, rfl⟩ | ⟨_, _, _, rfl⟩
  · exact listed
  · exact { listed with }

theorem hostUnmapped_cases (u : BlobMappings Process) :
    hostUnmapped u = (u, []) ∧ ¬ (u.userRefs = 0 ∧ u.mapped = true ∧ u.kernelVa = 0) ∨
      hostUnmapped u = ({ u with mapped := false, mapInfo := 0 }, [.resourceUnmapBlob]) ∧
        (u.userRefs = 0 ∧ u.mapped = true ∧ u.kernelVa = 0) := by
  unfold hostUnmapped
  split
  · rename_i nobody
    exact .inr ⟨rfl, nobody⟩
  · rename_i somebody
    exact .inl ⟨rfl, somebody⟩

/-- Undoing a host mapping restores the state. -/
theorem hostUnmapped_hostMapped (listed : Listed c pid s) (shared : Shared s)
    (mapped : hostMapped s hostMap = some (u, made)) :
    (hostUnmapped u).1 = s ∧ ((hostUnmapped u).2 ≠ [] → s.entries = [] ∧ s.kernelVa = 0) := by
  rcases (hostMapped_cases mapped).2 with ⟨was, rfl⟩ | ⟨was, mapInfo, _, rfl⟩
  · rcases hostUnmapped_cases u with ⟨same, _⟩ | ⟨_, none, _, kernel⟩
    · rw [same]
      exact ⟨rfl, fun some => absurd rfl some⟩
    · rcases shared.used.mp was with users | kernel'
      · exact absurd (listed.empty_iff.mp none) users
      · exact absurd kernel kernel'
  · have unused : s.entries = [] ∧ s.kernelVa = 0 := by
      by_contra used
      have is := shared.used.mpr (not_and_or.mp used)
      rw [was] at is
      cases is
    refine ⟨?_, fun _ => unused⟩
    rcases hostUnmapped_cases { s with mapped := true, mapInfo := mapInfo } with ⟨_, not⟩ | ⟨is, _⟩
    · exact absurd ⟨listed.empty_iff.mpr unused.1, rfl, unused.2⟩ not
    rw [is]
    have blank := shared.blank was
    cases s
    cases was
    cases blank
    rfl

theorem mapped_of_hostMapped (mapped : hostMapped s hostMap = some (u, made)) :
    u.mapped = true := by
  rcases (hostMapped_cases mapped).2 with ⟨was, rfl⟩ | ⟨_, _, _, rfl⟩
  · exact was
  · rfl

/-- The blob is unmapped on the host only when nobody uses it. -/
theorem Shared.hostUnmapped (listed : Listed c pid u) (blank : u.mapped = false → u.mapInfo = 0)
    (users : u.entries ≠ [] ∨ u.kernelVa ≠ 0 → u.mapped = true) :
    Listed c pid (hostUnmapped u).1 ∧ Shared (hostUnmapped u).1 ∧
      ((hostUnmapped u).2 ≠ [] →
        (hostUnmapped u).1.entries = [] ∧ (hostUnmapped u).1.kernelVa = 0) := by
  rcases hostUnmapped_cases u with ⟨same, somebody⟩ | ⟨dropped, none, _, kernel⟩
  · rw [same]
    refine ⟨listed, ⟨⟨fun is => ?_, users⟩, blank⟩, fun some => absurd rfl some⟩
    rw [listed.empty_iff] at somebody
    by_contra nobody
    rw [not_or, not_not, not_not] at nobody
    exact somebody ⟨nobody.1, is, nobody.2⟩
  · rw [dropped]
    have empty := listed.empty_iff.mp none
    refine ⟨{ listed with }, ⟨⟨fun is => absurd is Bool.false_ne_true, ?_⟩, fun _ => rfl⟩,
      fun _ => ⟨empty, kernel⟩⟩
    rintro (some | some)
    · exact absurd empty some
    · exact absurd kernel some

theorem Listed.refCount_le (listed : Listed c pid s) {m : UserMapping Process}
    (there : m ∈ s.entries) : m.refCount ≤ s.userRefs := by
  rw [listed.refs]
  exact le_sum_of_mem (mem_map_of_mem there)

theorem listed_start : Listed c pid (blobMappingsStart c) :=
  ⟨rfl, Nat.two_pow_pos 32, nofun, nofun, nodup_nil, rfl, nofun, fun some => absurd rfl some⟩

theorem shared_start : Shared (blobMappingsStart c : BlobMappings Process) := by
  refine ⟨⟨fun is => absurd is Bool.false_ne_true, ?_⟩, fun _ => rfl⟩
  rintro (some | some) <;> exact absurd rfl some

structure Kept (c : BlobConfig) (pid : Process → Nat) (s t : BlobMappings Process)
    (reply : BlobReply) : Prop where
  listed : Listed c pid t
  shared : Shared t
  unmap : BlobAction.resourceUnmapBlob ∈ reply.actions → t.entries = [] ∧ t.kernelVa = 0
  failed : ntSuccess reply.status = false → t = s
  handed : ∀ handed, reply.handed = some handed →
    c.range.Covers handed.range ∧ handed.size ≤ handed.range.size

theorem ntSuccess_success : ntSuccess NtStatus.success.code = true := by
  decide

theorem Kept.refused (listed : Listed c pid s) (shared : Shared s) (empty : reply.handed = none)
    (quiet : BlobAction.resourceUnmapBlob ∉ reply.actions) : Kept c pid s s reply := by
  refine ⟨listed, shared, fun there => absurd there quiet, fun _ => rfl, fun handed is => ?_⟩
  rw [empty] at is
  cases is

theorem Kept.copy (listed : Listed c pid s) (shared : Shared s) {e : CopyEnv}
    (steady : s.mapped = false → e.hostMap.isSome = true → e.translated = true ∧ e.kernelVa ≠ 0)
    (outcome : CopyOutcome c s e t reply) : Kept c pid s t reply := by
  cases outcome with
  | refused empty quiet => exact .refused listed shared empty quiet
  | broken mapped bad empty quiet =>
    rcases (hostMapped_cases mapped).2 with ⟨_, rfl⟩ | ⟨was, mapInfo, learnt, _⟩
    · exact .refused listed shared empty quiet
    · exact absurd (steady was (by rw [learnt]; rfl)) bad
  | used mapped there =>
    obtain ⟨quiet, ⟨_, rfl⟩ | ⟨was, _, _, rfl⟩⟩ := hostMapped_cases mapped
    · refine ⟨listed, shared, fun unmap => absurd unmap quiet, fun _ => rfl, fun handed is => ?_⟩
      cases is
      exact ⟨listed.kernel there, le_rfl⟩
    · have is := shared.used.mpr (.inr there)
      rw [was] at is
      cases is
  | @new u _ range mapped got covers =>
    have quiet := (hostMapped_cases mapped).1
    have listed' := listed.hostMapped mapped
    have is := mapped_of_hostMapped mapped
    have inside : c.range.Covers range := by
      rw [covers]
      exact c.range_covers listed'.fixed (c.alignUpBy_le_blobSize le_rfl).2
    refine ⟨{ listed' with kernel := fun _ => inside }, ⟨⟨fun _ => .inr got, fun _ => is⟩,
        fun no => (nomatch is.symm.trans no)⟩, fun there => ?_,
      fun failed => (nomatch ntSuccess_success.symm.trans failed),
      fun handed is => ?_⟩
    · exact absurd there (not_mem_append quiet fun last => nomatch mem_singleton.mp last)
    · cases is
      exact ⟨inside, le_rfl⟩

variable [DecidableEq Process]

/-- A new reference is counted in its entry and in the sum. -/
theorem Listed.referenced (listed : Listed c pid s) (few : s.userRefs + 1 < 2 ^ 32)
    {m : UserMapping Process}
    (found : s.entries.find? (UserMapping.isOf (pid process) process) = some m) :
    Listed c pid (referenced pid s process) ∧ (referenced pid s process).userRefs ≠ 0 := by
  have there := mem_of_find?_eq_some found
  have most := listed.refCount_le there
  have inc : ∀ n, n ≤ s.userRefs → ulongInc n = n + 1 := by
    intro n le
    exact Nat.mod_eq_of_lt (by omega)
  have sum := sum_changeEntry (f := fun m => some { m with refCount := ulongInc m.refCount }) found
  have refs := listed.refs
  have total : (VioGpu.referenced pid s process).userRefs = s.userRefs + 1 := inc _ le_rfl
  simp only [Option.toList_some, map_cons, map_nil, sum_singleton, inc _ most] at sum
  refine ⟨⟨?_, ?_, ?_, ?_, ?_, listed.fixed, ?_, listed.kernel⟩, by omega⟩
  · show _ = ((changeEntry _ _ _ s.entries).map UserMapping.refCount).sum
    omega
  · omega
  · refine forall_changeEntry listed.positive ?_
    rintro m there m' ⟨⟩
    show 1 ≤ ulongInc m.refCount
    rw [inc _ (listed.refCount_le there)]
    omega
  · refine forall_changeEntry listed.named ?_
    rintro m there m' ⟨⟩
    exact listed.named m there
  · refine listed.single.sublist (processes_changeEntry ?_)
    rintro m m' ⟨⟩
    rfl
  · refine forall_changeEntry listed.inside ?_
    rintro m there m' ⟨⟩
    exact listed.inside m there

theorem Listed.dereferenced (listed : Listed c pid s) {m : UserMapping Process}
    (found : s.entries.find? (UserMapping.isOf (pid process) process) = some m)
    (held : 0 < m.refCount) : Listed c pid (dereferenced pid s process) := by
  have most := listed.refCount_le (mem_of_find?_eq_some found)
  have refs := listed.refs
  have few := listed.few
  have total : (VioGpu.dereferenced pid s process).userRefs = s.userRefs - 1 := by
    show (s.userRefs + (2 ^ 32 - 1)) % 2 ^ 32 = s.userRefs - 1
    omega
  have less : ((if m.refCount - 1 = 0 then none
      else some { m with refCount := m.refCount - 1 }).toList.map UserMapping.refCount).sum =
        m.refCount - 1 := by
    split
    · rename_i zero
      exact zero.symm
    · rfl
  have sum := sum_changeEntry
    (f := fun m => if m.refCount - 1 = 0 then none else some { m with refCount := m.refCount - 1 })
    found
  -- what is left of an entry is the entry, with a reference less
  have part : ∀ {P : UserMapping Process → Prop},
      (∀ m ∈ s.entries, m.refCount - 1 ≠ 0 → P { m with refCount := m.refCount - 1 }) →
      ∀ m ∈ s.entries, ∀ m' ∈ (if m.refCount - 1 = 0 then none
        else some { m with refCount := m.refCount - 1 }), P m' := by
    intro P keep m there m' is
    split at is
    · cases is
    · rename_i more
      cases is
      exact keep m there more
  refine ⟨?_, by omega, ?_, ?_, ?_, listed.fixed, ?_, listed.kernel⟩
  · show _ = ((changeEntry _ _ _ s.entries).map UserMapping.refCount).sum
    omega
  · exact forall_changeEntry listed.positive (part fun m _ more => Nat.one_le_iff_ne_zero.mpr more)
  · exact forall_changeEntry listed.named (part fun m there _ => listed.named m there)
  · refine listed.single.sublist (processes_changeEntry fun m m' is => ?_)
    split at is
    · cases is
    · cases is
      rfl
  · exact forall_changeEntry listed.inside (part fun m there _ => listed.inside m there)

theorem Kept.map (listed : Listed c pid s) (shared : Shared s) {r : MapRequest Process}
    (few : s.userRefs + 1 < 2 ^ 32) (outcome : MapOutcome c pid s r e t reply) :
    Kept c pid s t reply := by
  cases outcome with
  | refused empty quiet => exact .refused listed shared empty quiet
  | undone mapped empty quiet =>
    obtain ⟨same, nobody⟩ := hostUnmapped_hostMapped listed shared mapped
    rw [same]
    refine ⟨listed, shared, fun there => nobody (quiet there), fun _ => rfl, fun handed is => ?_⟩
    rw [empty] at is
    cases is
  | @again m found =>
    have there := mem_of_find?_eq_some found
    obtain ⟨listed', some⟩ := listed.referenced few found
    have was : s.mapped = true := shared.used.mpr (.inl (ne_nil_of_mem there))
    refine ⟨listed', ⟨⟨fun _ => .inl ?_, fun _ => was⟩, fun is => ?_⟩,
      fun quiet => absurd quiet not_mem_nil, fun failed => ?_, fun handed is => ?_⟩
    · exact fun empty => some (listed'.empty_iff.mpr empty)
    · exact nomatch was.symm.trans is
    · exact nomatch ntSuccess_success.symm.trans failed
    · cases is
      exact listed.inside m there
  | @new u _ requestedSize range mapped absent size covers =>
    obtain ⟨quiet, host⟩ := hostMapped_cases mapped
    have listed' := listed.hostMapped mapped
    have is := mapped_of_hostMapped mapped
    have entries : u.entries = s.entries ∧ u.userRefs = s.userRefs := by
      rcases host with ⟨_, rfl⟩ | ⟨_, _, _, rfl⟩ <;> exact ⟨rfl, rfl⟩
    have sizes := c.alignUpBy_le_blobSize size
    have inside : c.range.Covers range ∧ requestedSize ≤ range.size := by
      rw [covers]
      exact ⟨c.range_covers listed'.fixed sizes.2, sizes.1⟩
    have inc : ulongInc u.userRefs = u.userRefs + 1 := by
      rw [entries.2]
      exact Nat.mod_eq_of_lt few
    refine ⟨?_, ⟨⟨fun _ => .inl (append_ne_nil_of_right_ne_nil _ (cons_ne_nil _ _)),
      fun _ => is⟩, fun no => (nomatch is.symm.trans no)⟩, fun there => ?_,
      fun failed => (nomatch ntSuccess_success.symm.trans failed),
      fun handed is => ?_⟩
    · refine ⟨?_, ?_, ?_, ?_, ?_, listed'.fixed, ?_, listed'.kernel⟩
      · rw [inc, map_append, sum_append, ← listed'.refs]
        rfl
      · rw [inc, entries.2]
        exact few
      · exact forall_mem_append.mpr ⟨listed'.positive, by simp⟩
      · exact forall_mem_append.mpr ⟨listed'.named, by simp⟩
      · rw [map_append, entries.1]
        refine List.Nodup.append listed.single (nodup_singleton _) ?_
        rw [map_singleton, disjoint_singleton]
        exact not_mem_of_find?_eq_none listed.named absent
      · exact forall_mem_append.mpr ⟨listed'.inside, by simpa using inside⟩
    · exact absurd there (not_mem_append quiet fun last => nomatch mem_singleton.mp last)
    · cases is
      exact inside

theorem Kept.unmap_of (listed : Listed c pid s) (shared : Shared s)
    (outcome : UnmapOutcome pid s process t reply) : Kept c pid s t reply := by
  cases outcome with
  | refused empty quiet => exact .refused listed shared empty quiet
  | @counted m _ found held done empty quiet =>
    have was : s.mapped = true :=
      shared.used.mpr (.inl (ne_nil_of_mem (mem_of_find?_eq_some found)))
    have blank : (dereferenced pid s process).mapped = false →
        (dereferenced pid s process).mapInfo = 0 := shared.blank
    obtain ⟨listed', shared', nobody⟩ := Shared.hostUnmapped (listed.dereferenced found held) blank
      fun _ => was
    refine ⟨listed', shared', fun there => nobody (quiet there), fun failed => ?_,
      fun handed is => ?_⟩
    · rw [done] at failed
      exact nomatch ntSuccess_success.symm.trans failed
    · rw [empty] at is
      cases is

/-! ## Whole runs -/

/-- A step keeps what is listed and shared, hands out parts of the blob, and has no effect if it
fails. -/
theorem kept_of_step (listed : Listed c pid s) (shared : Shared s) {op : BlobMapOp Process}
    (steady : Steady s op) (step : blobMapStep c pid s op = .ok (t, reply)) :
    Kept c pid s t reply := by
  cases op with
  | map => exact .map listed shared steady (mapBlob_cases c pid (Except.ok.inj step))
  | unmap => exact .unmap_of listed shared (unmapBlob_cases c pid (Except.ok.inj step))
  | copy => exact .copy listed shared steady (mapForCpuCopy_cases c (Except.ok.inj step))

theorem listed_of_reachable
    (reach : Reachable (· = blobMappingsStart c) (Next (blobMapStep c pid) Steady) s) :
    Listed c pid s ∧ Shared s := by
  refine reach.machine_run (P := fun s => Listed c pid s ∧ Shared s) ⟨listed_start, shared_start⟩ ?_
  rintro s op ⟨listed, shared⟩ steady
  obtain ⟨⟨t, reply⟩, step⟩ : ∃ result, blobMapStep c pid s op = .ok result := by
    cases op <;> exact ⟨_, rfl⟩
  have kept := kept_of_step listed shared steady step
  exact ⟨t, reply, step, kept.listed, kept.shared⟩

/-- **The references add up.**  In every state of a run the user references are those of the
entries, which have at least one each, and there is one entry for a process; the host mapping
exists for its users.  A call gives the host mapping up only without users, changes nothing when
it fails, and hands out addresses of the blob only. -/
theorem blob_references_counted
    (reach : Reachable (· = blobMappingsStart c) (Next (blobMapStep c pid) Steady) s) :
    (s.userRefs = (s.entries.map UserMapping.refCount).sum ∧ (∀ m ∈ s.entries, 1 ≤ m.refCount) ∧
      (s.entries.map UserMapping.process).Nodup ∧
      (s.entries ≠ [] ∨ s.kernelVa ≠ 0 → s.mapped = true)) ∧
    ∀ op t reply, Steady s op → blobMapStep c pid s op = .ok (t, reply) →
      (BlobAction.resourceUnmapBlob ∈ reply.actions → t.entries = [] ∧ t.kernelVa = 0) ∧
      (ntSuccess reply.status = false → t = s) ∧
      ∀ handed, reply.handed = some handed →
        c.range.Covers handed.range ∧ handed.size ≤ handed.range.size := by
  obtain ⟨listed, shared⟩ := listed_of_reachable reach
  refine ⟨⟨listed.refs, listed.positive, listed.single, shared.used.mpr⟩,
    fun op t reply steady step => ?_⟩
  have kept := kept_of_step listed shared steady step
  exact ⟨kept.unmap, kept.failed, kept.handed⟩

end Invariant

instance {Process : Type} (s : BlobMappings Process) (op : BlobMapOp Process) :
    Decidable (Steady s op) := by
  cases op <;> unfold Steady <;> infer_instance

/-- Process 5 maps the blob twice and unmaps it twice. -/
theorem blob_references_counted_twice : ∃ s, Reachable (· = blobMappingsStart pageBlob)
        (Next (blobMapStep pageBlob (fun process : Nat => process + 100)) Steady) s ∧
      s.entries = [] ∧ s.mapped = false ∧
      s.userRefs = (s.entries.map UserMapping.refCount).sum := by
  have replay : ∃ s ∈ attempt (blobMapStep pageBlob (fun process : Nat => process + 100)) Steady
      (blobMappingsStart pageBlob)
      [.map ⟨5, 0, 0⟩ ⟨0, true, some 1, 0, 0x7000, none, true⟩,
        .map ⟨5, 4096, 0⟩ ⟨0, true, none, 0, 0, none, true⟩, .unmap 5, .unmap 5],
      s.entries = [] ∧ s.mapped = false := by
    decide +kernel
  obtain ⟨s, reach, empty, unmapped⟩ := reachable_of_replay _ replay
  exact ⟨s, reach, empty, unmapped, (blob_references_counted reach).1.1⟩

end KvmGuestDrivers.VioGpu

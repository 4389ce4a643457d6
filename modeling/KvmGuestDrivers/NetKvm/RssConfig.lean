/-
# NetKvm.RssConfig -- the tables of receive-side scaling

`ParaNdis6_RSSSetParameters` takes an indirection table and a key out of a block of
parameters, makes the settings active, and has `ParaNdis_SetupRSSQueueMap` rebuild the map
from hash values to TX paths.  The mask of the active settings and the map are used together
by every send.

An access that leaves the block, a table or the map stops the model with a fault, so that a
call that has a result has made none.
-/
import KvmGuestDrivers.Theory.Calls
import KvmGuestDrivers.Theory.Runs
import KvmGuestDrivers.Theory.Transition
import KvmGuestDrivers.NetKvm.Toeplitz

namespace KvmGuestDrivers.NetKvm

set_option autoImplicit false

open Theory

/-! ## Processors, settings and parameters -/

structure ProcessorNumber where
  group : Nat
  number : Nat
  reserved : Nat

structure Processors where
  /-- `KeQueryActiveProcessorCountEx`. -/
  count : Nat
  /-- `KeGetProcessorIndexFromNumber`; `none` is `INVALID_PROCESSOR_INDEX`. -/
  indexOf : ProcessorNumber → Option Nat
  indexOf_lt : ∀ number index, indexOf number = some index → index < count
  /-- `KeGetProcessorNumberFromIndex`. -/
  numberOf : Nat → Option ProcessorNumber

inductive RssMode where
  | disabled
  | hashing
  | full
  deriving DecidableEq

def receiveUnclassifiedPacket : Int := -1

def receiveNoQueue : Int := -2

def invalidIndirectionIndex : Int := -1

/-- The entries of `IndirectionTable` and of `QueueIndirectionTable`. -/
def maxIndirectionEntries : Nat := 128

structure ScalingSettings where
  indirectionTable : Nat → ProcessorNumber
  indirectionTableSize : Nat
  queueIndirectionTable : Nat → Int
  rssHashMask : Nat
  cpuIndexMapping : Option (List Int)
  cpuIndexMappingSize : Nat
  firstQueueIndirectionIndex : Int
  defaultProcessor : ProcessorNumber
  defaultQueue : Int

structure HashingSettings where
  hashInformation : Nat
  hashSecretKeySize : Nat
  hashSecretKey : HashSecretKey

structure RssAdapter where
  mode : RssMode
  receiveQueuesNumber : Int
  /-- `RSSScalingSettings` and `RSSHashingSettings`. -/
  scaling : ScalingSettings
  hashing : HashingSettings
  /-- `ActiveRSSScalingSettings` and `ActiveHashingSettings`. -/
  active : ScalingSettings
  activeHashing : HashingSettings
  /-- `RSS2QueueMap`: the path bundle of each entry, `none` where the entry is `NULL`. -/
  rss2QueueMap : Option (List (Option Nat))
  rss2QueueLength : Nat

/-- `NDIS_RECEIVE_SCALE_PARAMETERS`. -/
structure RssParams where
  revision : Nat
  flags : BitVec 16
  hashInformation : BitVec 32
  indirectionTableSize : Nat
  indirectionTableOffset : Nat
  hashSecretKeySize : Nat
  hashSecretKeyOffset : Nat
  processorMasksOffset : Nat
  numberOfProcessorMasks : Nat
  processorMasksEntrySize : Nat
  defaultProcessorNumber : ProcessorNumber

def processorAt (mem : Memory) (i : Nat) : ProcessorNumber :=
  { group := le16 mem i, number := (mem (i + 2)).toNat, reserved := (mem (i + 3)).toNat }

def parseRssParams (block : List Byte) : RssParams :=
  let mem := memory block
  { revision := (mem 1).toNat
    flags := BitVec.ofNat 16 (le16 mem 4)
    hashInformation := BitVec.ofNat 32 (le32 mem 8)
    indirectionTableSize := le16 mem 12
    indirectionTableOffset := le32 mem 16
    hashSecretKeySize := le16 mem 20
    hashSecretKeyOffset := le32 mem 24
    processorMasksOffset := le32 mem 28
    numberOfProcessorMasks := le32 mem 32
    processorMasksEntrySize := le32 mem 36
    defaultProcessorNumber := processorAt mem 40 }

/-- The bits of `Flags`. -/
def flagHashInfoUnchanged : BitVec 16 := 0x0002#16
def flagItableUnchanged : BitVec 16 := 0x0004#16
def flagHashKeyUnchanged : BitVec 16 := 0x0008#16
def flagDisableRss : BitVec 16 := 0x0010#16
def flagDefaultProcessorUnchanged : BitVec 16 := 0x0020#16

variable (p : RssParams)

def RssParams.has (flag : BitVec 16) : Bool := p.flags &&& flag ≠ 0

structure RssEnv where
  /-- Whether the allocations of the call succeed: `CPUIndexMapping`, `cpuIndexTable` and
  `RSS2QueueMap`. -/
  mappingAllocated : Bool
  cpuTableAllocated : Bool
  mapAllocated : Bool
  /-- `rxPath.getCPUIndex()` of a path bundle; `none` is `INVALID_PROCESSOR_INDEX`. -/
  pathCpu : Nat → Option Nat
  /-- `CheckNdisVersion(6, 80)`. -/
  ndis680 : Bool

inductive RssFault where
  /-- A copy from outside the parameter block. -/
  | outsideBlock
  | outsideCpuMapping
  | outsideCpuTable
  | outsideMap
  | outsideIndirectionTable
  | nullPointer

inductive NdisStatus where
  | success
  | invalidLength
  | invalidParameter
  | notSupported
  | resources
  | softErrors
  deriving DecidableEq

def setEntry {α : Type} (table : Nat → α) (i : Nat) (value : α) : Nat → α :=
  fun j => if j = i then value else table j

/-! ## Queues for the processors of a table -/

section Fill

variable (procs : Processors)

def setDefaultQueue (settings : ScalingSettings) (idx : Option Nat) :
    Except RssFault ScalingSettings :=
  match idx with
  | none => .ok { settings with defaultQueue := receiveUnclassifiedPacket }
  | some idx =>
    if idx < settings.cpuIndexMappingSize then
      match procs.numberOf idx with
      | none => .ok { settings with defaultQueue := receiveUnclassifiedPacket }
      | some number =>
        match settings.cpuIndexMapping with
        | none => .error .nullPointer
        | some mapping =>
          match mapping[idx]? with
          | none => .error .outsideCpuMapping
          | some queue =>
            .ok { settings with defaultProcessor := number, defaultQueue := queue }
    else .ok { settings with defaultQueue := receiveUnclassifiedPacket }

structure FillState where
  mapping : List Int
  receiveQueue : Int
  first : Int
  queues : Nat → Int

variable (receiveQueuesNumber : Int)

/-- The queue for a processor that has none yet. -/
def assignQueue (f : FillState) (i cpu : Nat) : FillState :=
  { f with
      first := if f.receiveQueue = 0 then i else f.first
      mapping :=
        if f.receiveQueue ≠ receiveQueuesNumber then f.mapping.set cpu f.receiveQueue
        else f.mapping
      receiveQueue :=
        if f.receiveQueue ≠ receiveQueuesNumber then f.receiveQueue + 1 else f.receiveQueue }

def fillEntry (table : Nat → ProcessorNumber) (f : FillState) (i : Nat) :
    Except RssFault FillState :=
  match procs.indexOf (table i) with
  | none => .ok { f with queues := setEntry f.queues i receiveNoQueue }
  | some cpu =>
    match f.mapping[cpu]? with
    | none => .error .outsideCpuMapping
    | some queue =>
      if queue = receiveNoQueue then
        .ok { assignQueue receiveQueuesNumber f i cpu with
          queues := setEntry f.queues i
            ((assignQueue receiveQueuesNumber f i cpu).mapping.getD cpu 0) }
      else .ok { f with queues := setEntry f.queues i queue }

/-- A turn of the second loop: an entry without a queue is given the first one. -/
def repairEntry (first : Nat) (tables : (Nat → ProcessorNumber) × (Nat → Int)) (i : Nat) :
    (Nat → ProcessorNumber) × (Nat → Int) :=
  if tables.2 i = receiveNoQueue then
    (setEntry tables.1 i (tables.1 first), setEntry tables.2 i 0)
  else tables

def fillCPUMappingArray (settings : ScalingSettings) : Except RssFault ScalingSettings :=
  match settings.cpuIndexMapping with
  | none => .error .nullPointer
  | some mapping => do
    let entries := settings.indirectionTableSize / 4
    let f ← (List.range entries).foldlM
      (fillEntry procs receiveQueuesNumber settings.indirectionTable)
      { mapping := mapping, receiveQueue := 0, first := invalidIndirectionIndex,
        queues := settings.queueIndirectionTable }
    let tables :=
      if f.first = invalidIndirectionIndex then (settings.indirectionTable, f.queues)
      else (List.range entries).foldl (repairEntry f.first.toNat)
        (settings.indirectionTable, f.queues)
    .ok { settings with
      cpuIndexMapping := some f.mapping
      firstQueueIndirectionIndex := f.first
      indirectionTable := tables.1
      queueIndirectionTable := tables.2 }

end Fill

/-! ## The map -/

section Map

variable (procs : Processors) (nPathBundles : Nat)

/-- The bundle of each processor, or nothing when a path has no valid processor. -/
def buildCpuIndexTable (pathCpu : Nat → Option Nat) : Option (List Nat) :=
  (List.range nPathBundles).foldlM
    (fun table bundleIndex =>
      match pathCpu bundleIndex with
      | none => none
      | some cpuIndex =>
        if cpuIndex < procs.count then some (table.set cpuIndex (bundleIndex % 2 ^ 16)) else none)
    (List.replicate procs.count 0)

/-- `RSS2QueueMap[rssIndex] = pPathBundles + bundleIndex`. -/
def storeBundle (map : Option (List (Option Nat))) (rssIndex bundleIndex : Nat) :
    Except RssFault (Option (List (Option Nat))) :=
  match map with
  | none => .error .nullPointer
  | some entries =>
    if rssIndex < entries.length then .ok (some (entries.set rssIndex (some bundleIndex)))
    else .error .outsideMap

def mapEntry (table : Nat → ProcessorNumber) (cpuIndexTable : List Nat)
    (map : Option (List (Option Nat))) (rssIndex : Nat) :
    Except RssFault (Option (List (Option Nat))) :=
  match procs.indexOf (table rssIndex) with
  | none => .error .outsideCpuTable
  | some cpuIndex =>
    match cpuIndexTable[cpuIndex]? with
    | none => .error .outsideCpuTable
    | some bundleIndex => storeBundle map rssIndex bundleIndex

def fillMap (table : Nat → ProcessorNumber) (cpuIndexTable : List Nat) (rssTableSize : Nat)
    (map : Option (List (Option Nat))) : Except RssFault (Option (List (Option Nat))) := do
  let map ← (List.range rssTableSize).foldlM (fun map rssIndex => storeBundle map rssIndex 0) map
  (List.range rssTableSize).foldlM (mapEntry procs table cpuIndexTable) map

def setupRSSQueueMap (s : RssAdapter) (env : RssEnv) : Except RssFault (RssAdapter × NdisStatus) :=
  if env.cpuTableAllocated then
    match buildCpuIndexTable procs nPathBundles env.pathCpu with
    | none => .ok (s, .softErrors)
    | some cpuIndexTable => do
      let rssTableSize := s.scaling.indirectionTableSize / 4
      -- a map that is too small is freed, and a new one is allocated
      if s.rss2QueueLength < rssTableSize ∨ s.rss2QueueLength = 0 then
        if env.mapAllocated then
          let map ← fillMap procs s.scaling.indirectionTable cpuIndexTable rssTableSize
            (some (List.replicate rssTableSize none))
          .ok ({ s with rss2QueueMap := map, rss2QueueLength := rssTableSize % 2 ^ 16 }, .success)
        else
          .ok ({ s with rss2QueueMap := none, rss2QueueLength := rssTableSize % 2 ^ 16 },
            .resources)
      else
        let map ← fillMap procs s.scaling.indirectionTable cpuIndexTable rssTableSize
          s.rss2QueueMap
        .ok ({ s with rss2QueueMap := map }, .success)
  else .ok (s, .resources)

end Map

/-! ## `ParaNdis6_RSSSetParameters` -/

/-- The hash types that a build with NDIS 6.80 allows. -/
def allowedHashTypes : BitVec 32 := 0x0001FF00#32

def isValidHashInfo (hashInformation : BitVec 32) : Bool :=
  let hashType := hashInformation &&& 0x00FFFF00#32
  let hashFunction := hashInformation &&& 0x000000FF#32
  if hashInformation = 0 then true
  else if hashType &&& allowedHashTypes ≠ 0 ∧ hashType &&& ~~~allowedHashTypes = 0 then
    hashFunction = 1
  else false

def isPowerOfTwo (n : BitVec 32) : Bool := n ≠ 0 ∧ n &&& (~~~n + 1) = n

def headerSize : Nat := 4

def minimalRssParametersLength : Nat := if p.revision = 2 then 40 else 44

def ulongAdd (a b : Nat) : Nat := (a + b) % 2 ^ 32

inductive RssVerdict where
  | reject (status : NdisStatus) (bytesRead : Nat)
  | disable
  | configure
  deriving DecidableEq

def RssParams.processorMasksSize : Nat :=
  p.numberOfProcessorMasks * p.processorMasksEntrySize % 2 ^ 32

def RssParams.entries : Nat := p.indirectionTableSize / 4

def checkRssParameters (s : RssAdapter) (block : List Byte) : RssVerdict :=
  let p := parseRssParams block
  if block.length < headerSize then .reject .invalidLength 0
  else if block.length < minimalRssParametersLength p then .reject .invalidLength headerSize
  else if s.mode = .hashing ∧ p.has flagDisableRss = false ∧ p.hashInformation ≠ 0 then
    .reject .notSupported 0
  else if p.has (flagHashInfoUnchanged ||| flagDisableRss) = false ∧
      isValidHashInfo p.hashInformation = false then .reject .invalidParameter 0
  else if p.has flagDisableRss = true ∨ p.hashInformation = 0 then .disable
  else if p.has flagItableUnchanged = false ∧
      (4 * maxIndirectionEntries < p.indirectionTableSize ∨
        block.length < ulongAdd p.indirectionTableOffset p.indirectionTableSize ∨
        isPowerOfTwo (BitVec.ofNat 32 p.entries) = false) then .reject .invalidLength 0
  else if p.has flagHashKeyUnchanged = false ∧
      (40 < p.hashSecretKeySize ∨
        block.length < ulongAdd p.hashSecretKeyOffset p.hashSecretKeySize) then
    .reject .invalidLength 0
  else if block.length < ulongAdd p.processorMasksOffset p.processorMasksSize then
    .reject .invalidLength 0
  else .configure

def copyFromBlock (block : List Byte) (offset size : Nat) : Except RssFault (List Byte) :=
  if size = 0 ∨ offset + size ≤ block.length then .ok (span (memory block) offset size)
  else .error .outsideBlock

/-- The table with the first `size` bytes replaced.  A size that is no multiple of four leaves
bytes of one more entry, which nothing reads. -/
def overwriteTable (table : Nat → ProcessorNumber) (bytes : List Byte) : Nat → ProcessorNumber :=
  fun i => if i < bytes.length / 4 then processorAt (memory bytes) (4 * i) else table i

def overwriteKey (key : HashSecretKey) (bytes : List Byte) : HashSecretKey :=
  Vector.ofFn fun i => (bytes[i.val]?).getD (key.get i)

variable (s : RssAdapter)

section Calls

variable (procs : Processors) (nPathBundles : Nat)

def allocateCPUMappingArray (settings : ScalingSettings) : ScalingSettings :=
  { settings with
      cpuIndexMapping := some (List.replicate procs.count receiveNoQueue)
      cpuIndexMappingSize := procs.count }

def defaultCpuIndex (p : RssParams) : Option Nat :=
  if 3 ≤ p.revision ∧ p.has flagDefaultProcessorUnchanged = false then
    procs.indexOf { p.defaultProcessorNumber with reserved := 0 }
  else none

def copiedTable (settings : ScalingSettings) (p : RssParams) (bytes : List Byte) :
    ScalingSettings :=
  { allocateCPUMappingArray procs settings with
      indirectionTableSize := p.indirectionTableSize
      indirectionTable := overwriteTable settings.indirectionTable bytes
      rssHashMask := p.entries - 1 }

def installTable (s : RssAdapter) (block : List Byte) : Except RssFault ScalingSettings := do
  let p := parseRssParams block
  let bytes ← copyFromBlock block p.indirectionTableOffset p.indirectionTableSize
  let settings ← fillCPUMappingArray procs s.receiveQueuesNumber
    (copiedTable procs s.scaling p bytes)
  setDefaultQueue procs settings (defaultCpuIndex procs p)

def installHashing (block : List Byte) : Except RssFault HashingSettings := do
  let p := parseRssParams block
  let information :=
    if p.has flagHashInfoUnchanged then s.hashing.hashInformation else p.hashInformation.toNat
  if p.has flagHashKeyUnchanged then .ok { s.hashing with hashInformation := information }
  else
    let bytes ← copyFromBlock block p.hashSecretKeyOffset p.hashSecretKeySize
    .ok { hashInformation := information
          hashSecretKeySize := p.hashSecretKeySize
          hashSecretKey := overwriteKey s.hashing.hashSecretKey bytes }

/-- `ApplySettings` for `PARANDIS_RSS_FULL`. -/
def applySettings (hashing : Option HashingSettings)
    (scaling : Option ScalingSettings) : RssAdapter :=
  { s with
      mode := .full
      activeHashing := hashing.getD s.activeHashing
      active := scaling.getD s.active
      -- the mapping array has changed hands
      scaling :=
        match scaling with
        | none => s.scaling
        | some settings => { settings with cpuIndexMapping := none } }

/-- The settings part of a call that is not rejected; `none` when memory runs out. -/
def configureRss (s : RssAdapter) (block : List Byte) (env : RssEnv) :
    Except RssFault (Option (RssAdapter × Nat)) := do
  let p := parseRssParams block
  let keyRead := if p.has flagHashKeyUnchanged then 0 else p.hashSecretKeySize
  if p.has flagItableUnchanged then
    let active ← setDefaultQueue procs s.active (defaultCpuIndex procs p)
    let hashing ← installHashing s block
    let changed := !p.has flagHashInfoUnchanged || !p.has flagHashKeyUnchanged
    .ok (some (applySettings { s with active := active, hashing := hashing }
      (if changed then some hashing else none) none, keyRead))
  else if env.mappingAllocated then
    let settings ← installTable procs s block
    let hashing ← installHashing s block
    let changed := !p.has flagHashInfoUnchanged || !p.has flagHashKeyUnchanged
    .ok (some (applySettings { s with hashing := hashing }
      (if changed then some hashing else none) (some settings),
      p.indirectionTableSize + p.processorMasksSize + keyRead))
  else .ok none

def bytesReadAtEnd (block : List Byte) (env : RssEnv) (read : Nat) : Nat :=
  if env.ndis680 then block.length
  else (read + minimalRssParametersLength (parseRssParams block)) % 2 ^ 32

def rssSetParameters (s : RssAdapter) (block : List Byte) (env : RssEnv) :
    Except RssFault (RssAdapter × NdisStatus × Nat) :=
  match checkRssParameters s block with
  | .reject status bytesRead => .ok (s, status, bytesRead)
  | .disable => do
    let (t, status) ← setupRSSQueueMap procs nPathBundles { s with mode := .disabled } env
    .ok (t, status, bytesReadAtEnd block env 0)
  | .configure => do
    match ← configureRss procs s block env with
    | none => .ok (s, .resources, 0)
    | some (t, read) =>
      let (u, status) ← setupRSSQueueMap procs nPathBundles t env
      .ok (u, status, bytesReadAtEnd block env read)

end Calls

/-! ## The lookups -/

/-- The lookup of a TX path in `ParaNdis6_SendNetBufferLists`. -/
def txPathAt (index : Nat) : Except RssFault Nat :=
  match s.rss2QueueMap with
  | none => .error .nullPointer
  | some entries =>
    match entries[index]? with
    | none => .error .outsideMap
    | some none => .error .nullPointer
    | some (some bundle) => .ok bundle

/-- The loop of `ParaNdis6_SendNetBufferLists`: chains of lists with one index, in order.  A
list is given by its hash value. -/
def collectChains (mask : Nat) : List (BitVec 32) → List (BitVec 32) → Nat →
    List (Nat × List (BitVec 32))
  | [], head, index => if head.isEmpty then [] else [(index, head)]
  | hash :: rest, head, index =>
    if hash.toNat &&& mask = index then collectChains mask rest (head ++ [hash]) index
    else
      (if head.isEmpty then [] else [(index, head)]) ++
        collectChains mask rest [hash] (hash.toNat &&& mask)

/-- `ParaNdis6_SendNetBufferLists`: what is handed to which TX path. -/
def sendNetBufferLists (nPathBundles : Nat) (s : RssAdapter) (nbls : List (BitVec 32)) :
    Except RssFault (List (Nat × List (BitVec 32))) :=
  if 1 < nPathBundles ∧ s.rss2QueueMap.isSome = true then
    (collectChains s.active.rssHashMask nbls [] 0).mapM fun chain => do
      let bundle ← txPathAt s chain.1
      .ok (bundle, chain.2)
  else .ok [(0, nbls)]

/-- `ParaNdis6_RSSGetScalingDataForPacket`, for a packet whose hash is `value` if it has one. -/
def rssGetScalingDataForPacket (hash : Option (BitVec 32)) :
    Except RssFault (Int × Option ProcessorNumber) :=
  if s.mode ≠ .full ∨ s.active.firstQueueIndirectionIndex = invalidIndirectionIndex then
    .ok (receiveUnclassifiedPacket, none)
  else
    match hash with
    | none => .ok (s.active.defaultQueue, some s.active.defaultProcessor)
    | some value =>
      let index := value.toNat &&& s.active.rssHashMask
      if maxIndirectionEntries ≤ index then .error .outsideIndirectionTable
      else if s.active.queueIndirectionTable index = receiveNoQueue then
        .ok (receiveUnclassifiedPacket, none)
      else .ok (s.active.queueIndirectionTable index, some (s.active.indirectionTable index))

/-! ## What the loops do -/

section Loops

variable {procs : Processors} {j : Nat} {receiveQueuesNumber : Int} {table : Nat → ProcessorNumber}
  {α : Type}

theorem setEntry_self (table : Nat → α) (i : Nat) (value : α) :
    setEntry table i value i = value := if_pos rfl

theorem setEntry_other {table : Nat → α} {i : Nat} (ne : j ≠ i) (value : α) :
    setEntry table i value j = table j := if_neg ne

section

variable (procs receiveQueuesNumber table) (j : Nat) (f : FillState)

/-- `FirstQueueIndirectionIndex` is an entry before `j` with a processor and the first queue. -/
def FirstFound : Prop :=
  ∃ k < j, f.first = (k : Int) ∧ (procs.indexOf (table k)).isSome = true ∧
    (1 ≤ receiveQueuesNumber → f.queues k = 0 ∧ 0 < f.receiveQueue)

/-- What the first loop of `FillCPUMappingArray` has found after `j` entries. -/
structure Filled : Prop where
  length : f.mapping.length = procs.count
  high : 1 ≤ receiveQueuesNumber → f.receiveQueue ≤ receiveQueuesNumber
  /-- The queues before `receiveQueue` have been given to one processor each. -/
  owners : ∃ cpus : List Nat, f.receiveQueue = cpus.length ∧ ∀ (cpu : Nat) queue,
    f.mapping[cpu]? = some queue → queue ≠ receiveNoQueue →
      ∃ q : Nat, queue = q ∧ cpus[q]? = some cpu
  entries : ∀ i < j, f.queues i = receiveNoQueue ∨
    ∃ cpu, procs.indexOf (table i) = some cpu ∧ f.mapping[cpu]? = some (f.queues i)
  first : (f.first = invalidIndirectionIndex ∧ f.receiveQueue = 0 ∧
      ∀ i < j, procs.indexOf (table i) = none) ∨ FirstFound procs receiveQueuesNumber table j f

end

theorem fillEntry_runs {f : FillState} (before : Filled procs receiveQueuesNumber table j f) :
    Runs (fillEntry procs receiveQueuesNumber table f j)
      (Filled procs receiveQueuesNumber table (j + 1)) := by
  obtain ⟨length, high, ⟨cpus, next, owner⟩, entries, first⟩ := before
  -- the entries before `j` keep their queues, if the processors with a queue do
  have keep (queue : Int) {mapping : List Int}
      (old : ∀ (cpu : Nat) q, q ≠ receiveNoQueue → f.mapping[cpu]? = some q →
        mapping[cpu]? = some q)
      (own : queue = receiveNoQueue ∨
        ∃ cpu, procs.indexOf (table j) = some cpu ∧ mapping[cpu]? = some queue) :
      ∀ i < j + 1, setEntry f.queues j queue i = receiveNoQueue ∨
        ∃ cpu, procs.indexOf (table i) = some cpu ∧
          mapping[cpu]? = some (setEntry f.queues j queue i) := by
    intro i lt
    by_cases same : i = j
    · rw [same, setEntry_self]
      exact own
    · rw [setEntry_other same]
      by_cases unused : f.queues i = receiveNoQueue
      · exact .inl unused
      · obtain ⟨cpu, index, there⟩ := (entries i (by omega)).resolve_left unused
        exact .inr ⟨cpu, index, old cpu _ unused there⟩
  have stays (queue : Int) {mapping : List Int} {next : Int} (le : f.receiveQueue ≤ next)
      (found : FirstFound procs receiveQueuesNumber table j f) : FirstFound procs
        receiveQueuesNumber table (j + 1) ⟨mapping, next, f.first, setEntry f.queues j queue⟩ := by
    obtain ⟨k, lt, is, valid, head⟩ := found
    refine ⟨k, by omega, is, valid, fun bundles => ⟨?_, Int.lt_of_lt_of_le (head bundles).2 le⟩⟩
    show setEntry f.queues j queue k = 0
    rw [setEntry_other (Nat.ne_of_lt lt)]
    exact (head bundles).1
  cases index : procs.indexOf (table j) with
  | none =>
    simp only [fillEntry, index]
    refine .pure ⟨length, high, ⟨cpus, next, owner⟩, keep _ (fun _ _ _ => id) (.inl rfl), ?_⟩
    rcases first with ⟨unset, zero, nothing⟩ | found
    · refine .inl ⟨unset, zero, fun i lt => ?_⟩
      rcases Nat.lt_succ_iff_lt_or_eq.mp lt with lt | rfl
      · exact nothing i lt
      · exact index
    · exact .inr (stays _ (Int.le_refl _) found)
  | some cpu =>
    have inside : cpu < f.mapping.length := length ▸ procs.indexOf_lt _ _ index
    have there := List.getElem?_eq_getElem inside
    have valid : (procs.indexOf (table j)).isSome = true := by rw [index]; rfl
    simp only [fillEntry, index, there]
    split
    · rename_i free
      rw [free] at there
      unfold assignQueue
      split
      · -- the next queue
        rw [List.getD_eq_getElem?_getD, List.getElem?_set_self inside]
        have old (c : Nat) (q : Int) (has : q ≠ receiveNoQueue) (old : f.mapping[c]? = some q) :
            (f.mapping.set cpu f.receiveQueue)[c]? = some q := by
          rw [List.getElem?_set_ne, old]
          rintro rfl
          exact has (Option.some.inj (old.symm.trans there))
        refine .pure ⟨List.length_set.trans length, fun bundles => ?_, ⟨cpus ++ [cpu], ?_, ?_⟩,
          keep _ old (.inr ⟨cpu, index, List.getElem?_set_self inside⟩), .inr ?_⟩
        · show f.receiveQueue + 1 ≤ _
          omega
        · rw [next, List.length_append]
          rfl
        · intro c q set has
          rcases getElem?_move set with ⟨rfl, rfl⟩ | ⟨-, old⟩
          · exact ⟨cpus.length, next, by simp⟩
          · obtain ⟨n, is, there⟩ := owner c q old has
            have lt := (List.getElem?_eq_some_iff.mp there).1
            exact ⟨n, is, by rw [List.getElem?_append_left lt, there]⟩
        · split
          · rename_i zero
            exact ⟨j, by omega, rfl, valid, fun _ =>
              ⟨(setEntry_self ..).trans zero, show 0 < f.receiveQueue + 1 by omega⟩⟩
          · rcases first with ⟨_, zero, _⟩ | found
            · contradiction
            · exact stays _ (Int.le_add_one (Int.le_refl _)) found
      · rw [List.getD_eq_getElem?_getD, there]
        refine .pure
          ⟨length, high, ⟨cpus, next, owner⟩, keep _ (fun _ _ _ => id) (.inl rfl), .inr ?_⟩
        split
        · exact ⟨j, by omega, rfl, valid, fun bundles => by omega⟩
        · rcases first with ⟨_, zero, _⟩ | found
          · contradiction
          · exact stays _ (Int.le_refl _) found
    · rename_i has
      refine .pure ⟨length, high, ⟨cpus, next, owner⟩,
        keep _ (fun _ _ _ => id) (.inr ⟨_, index, there⟩), .inr ?_⟩
      rcases first with ⟨_, zero, _⟩ | found
      · obtain ⟨q, -, found⟩ := owner _ _ there has
        have lt := (List.getElem?_eq_some_iff.mp found).1
        omega
      · exact stays _ (Int.le_refl _) found

theorem repairEntries_eq (table : Nat → ProcessorNumber) (queues : Nat → Int) (first n : Nat) :
    (List.range n).foldl (repairEntry first) (table, queues) =
      (fun i => if i < n ∧ queues i = receiveNoQueue then table first else table i,
        fun i => if i < n ∧ queues i = receiveNoQueue then 0 else queues i) := by
  refine foldl_range (I := fun j tables => tables =
    (fun i => if i < j ∧ queues i = receiveNoQueue then table first else table i,
      fun i => if i < j ∧ queues i = receiveNoQueue then 0 else queues i)) n ?_ ?_
  · rintro j _ - rfl
    unfold repairEntry setEntry
    grind
  · simp

theorem fillCPUMappingArray_fills (receiveQueuesNumber : Int) (settings : ScalingSettings)
    (fresh : settings.cpuIndexMapping = some (List.replicate procs.count receiveNoQueue)) :
    ∃ f table queues, fillCPUMappingArray procs receiveQueuesNumber settings = .ok { settings with
        cpuIndexMapping := some f.mapping
        firstQueueIndirectionIndex := f.first
        indirectionTable := table
        queueIndirectionTable := queues } ∧
      Filled procs receiveQueuesNumber settings.indirectionTable
        (settings.indirectionTableSize / 4) f ∧
      ∀ k : Nat, f.first = k → ∀ i < settings.indirectionTableSize / 4, table i =
          (if f.queues i = receiveNoQueue then settings.indirectionTable k
            else settings.indirectionTable i) ∧
        queues i = if f.queues i = receiveNoQueue then 0 else f.queues i := by
  have unused (cpu : Nat) (queue : Int)
      (there : (List.replicate procs.count receiveNoQueue)[cpu]? = some queue) :
      queue = receiveNoQueue :=
    List.eq_of_mem_replicate (List.mem_of_getElem? there)
  have start : Filled procs receiveQueuesNumber settings.indirectionTable 0
      ⟨List.replicate procs.count receiveNoQueue, 0, invalidIndirectionIndex,
        settings.queueIndirectionTable⟩ :=
    ⟨List.length_replicate, fun bundles => show 0 ≤ receiveQueuesNumber by omega,
      ⟨[], rfl, fun cpu queue there has => absurd (unused cpu queue there) has⟩, nofun,
      .inl ⟨rfl, rfl, nofun⟩⟩
  obtain ⟨f, ran, filled⟩ := Runs.foldlM_range (settings.indirectionTableSize / 4)
    (fun j f _ before => fillEntry_runs before) start
  simp only [fillCPUMappingArray, fresh]
  refine ⟨f, _, _, by rw [ran]; rfl, filled, fun k is i lt => ?_⟩
  rw [if_neg (by rw [invalidIndirectionIndex]; omega), is, Int.toNat_natCast, repairEntries_eq]
  simp only [lt, true_and]

/-- **The tables agree.**  After `FillCPUMappingArray` no entry has a processor, or every entry
has a queue of the adapter, that of the processor that is in the table now, and no two processors
share a queue. -/
theorem rss_tables_agree (procs : Processors) (receiveQueuesNumber : Int)
    (bundles : 1 ≤ receiveQueuesNumber) (settings : ScalingSettings)
    (fresh : settings.cpuIndexMapping = some (List.replicate procs.count receiveNoQueue)) :
    Runs (fillCPUMappingArray procs receiveQueuesNumber settings) fun filled =>
      (filled.firstQueueIndirectionIndex = invalidIndirectionIndex ∧
        ∀ i < settings.indirectionTableSize / 4,
          procs.indexOf (settings.indirectionTable i) = none) ∨
      ∃ mapping, filled.cpuIndexMapping = some mapping ∧
        (∀ i < settings.indirectionTableSize / 4, 0 ≤ filled.queueIndirectionTable i ∧
          filled.queueIndirectionTable i < receiveQueuesNumber ∧
          ∃ cpu, procs.indexOf (filled.indirectionTable i) = some cpu ∧
            mapping[cpu]? = some (filled.queueIndirectionTable i)) ∧
        ∀ (cpu cpu' : Nat) queue, mapping[cpu]? = some queue → mapping[cpu']? = some queue →
          queue ≠ receiveNoQueue → cpu = cpu' := by
  obtain ⟨f, table, queues, ran, filled, repaired⟩ :=
    fillCPUMappingArray_fills receiveQueuesNumber settings fresh
  refine ⟨_, ran, ?_⟩
  rcases filled.first with ⟨unset, _, nothing⟩ | ⟨k, klt, first, _, head⟩
  · exact .inl ⟨unset, nothing⟩
  obtain ⟨cpus, next, owner⟩ := filled.owners
  have high := filled.high bundles
  obtain ⟨zero, pos⟩ := head bundles
  refine .inr ⟨f.mapping, rfl, fun i lt => ?_, fun cpu cpu' queue there there' has => ?_⟩
  · obtain ⟨atTable, atQueue⟩ := repaired k first i lt
    dsimp only
    rw [atTable, atQueue]
    split
    · -- the first queue, and its processor
      obtain ⟨cpu, index, there⟩ := (filled.entries k klt).resolve_left (by rw [zero]; decide)
      rw [zero] at there
      exact ⟨Int.le_refl 0, by omega, cpu, index, there⟩
    · obtain ⟨cpu, index, there⟩ := (filled.entries i lt).resolve_left ‹_›
      obtain ⟨q, is, found⟩ := owner cpu _ there ‹_›
      have lt := (List.getElem?_eq_some_iff.mp found).1
      exact ⟨by omega, by omega, cpu, index, there⟩
  · obtain ⟨q, rfl, found⟩ := owner cpu queue there has
    obtain ⟨q', same, at'⟩ := owner cpu' q there' has
    obtain rfl := Int.ofNat.inj same
    exact Option.some.inj (found.symm.trans at')

def twoProcessors : Processors where
  count := 2
  indexOf p := if p.group = 0 ∧ p.number < 2 ∧ p.reserved = 0 then some p.number else none
  indexOf_lt number index found := by
    split at found
    · rename_i holds
      obtain rfl := Option.some.inj found
      exact holds.2.1
    · cases found
  numberOf i := some { group := 0, number := i, reserved := 0 }

def noScaling : ScalingSettings :=
  { indirectionTable := fun _ => ⟨0, 0, 0⟩, indirectionTableSize := 0
    queueIndirectionTable := fun _ => 0, rssHashMask := 0, cpuIndexMapping := none
    cpuIndexMappingSize := 0, firstQueueIndirectionIndex := invalidIndirectionIndex
    defaultProcessor := ⟨0, 0, 0⟩, defaultQueue := receiveUnclassifiedPacket }

def fourEntries : ScalingSettings :=
  { noScaling with
    indirectionTable := fun i => ⟨0, [7, 1, 0, 1].getD i 0, 0⟩, indirectionTableSize := 16
    cpuIndexMapping := some [-2, -2] }

theorem rss_tables_agree_one_queue :
    ∃ filled, fillCPUMappingArray twoProcessors 1 fourEntries = .ok filled ∧
      ∀ i < 4, filled.queueIndirectionTable i = 0 := by
  obtain ⟨filled, ran, ⟨_, nothing⟩ | ⟨_, _, agree, _⟩⟩ :=
    rss_tables_agree twoProcessors 1 (Int.le_refl 1) fourEntries rfl
  · exact absurd (nothing 1 (by decide)) (by decide)
  · refine ⟨filled, ran, fun i lt => ?_⟩
    have range := agree i lt
    omega

end Loops

section Map

variable {procs : Processors} {nPathBundles j : Nat} {entries : List (Option Nat)}
  {table : Nat → ProcessorNumber} {cpuIndexTable : List Nat} {map : Option (List (Option Nat))}

def Bundles (nPathBundles : Nat) (entries : List (Option Nat)) : Prop :=
  ∀ e ∈ entries, ∃ bundle < nPathBundles, e = some bundle

/-- The map `entries` with its first `j` entries replaced by bundles. -/
def Stored (nPathBundles : Nat) (entries : List (Option Nat)) (j : Nat)
    (map : Option (List (Option Nat))) : Prop :=
  ∃ now, map = some now ∧ now.length = entries.length ∧
    ∀ i e, now[i]? = some e →
      (i < j → ∃ bundle < nPathBundles, e = some bundle) ∧ (j ≤ i → entries[i]? = some e)

theorem Stored.none (entries : List (Option Nat)) : Stored nPathBundles entries 0 (some entries) :=
  ⟨entries, rfl, rfl, fun i _ there => ⟨fun lt => absurd lt (Nat.not_lt_zero i), fun _ => there⟩⟩

theorem storeBundle_runs {bundle : Nat} (fits : j < entries.length) (known : bundle < nPathBundles)
    (before : Stored nPathBundles entries j map) :
    Runs (storeBundle map j bundle) (Stored nPathBundles entries (j + 1)) := by
  obtain ⟨now, rfl, length, holds⟩ := before
  have inside : j < now.length := by omega
  simp only [storeBundle, if_pos inside]
  refine .pure ⟨_, rfl, by rw [List.length_set, length], fun i e there => ?_⟩
  by_cases same : j = i
  · subst same
    rw [List.getElem?_set_self inside] at there
    cases there
    exact ⟨fun _ => ⟨bundle, known, rfl⟩, fun le => absurd le (by omega)⟩
  · rw [List.getElem?_set_ne same] at there
    exact ⟨fun lt => (holds i e there).1 (by omega), fun le => (holds i e there).2 (by omega)⟩

theorem mapEntry_runs (length : cpuIndexTable.length = procs.count)
    (known : ∀ bundle ∈ cpuIndexTable, bundle < nPathBundles) (fits : j < entries.length)
    (valid : (procs.indexOf (table j)).isSome = true) (before : Stored nPathBundles entries j map) :
    Runs (mapEntry procs table cpuIndexTable map j) (Stored nPathBundles entries (j + 1)) := by
  obtain ⟨cpu, index⟩ := Option.isSome_iff_exists.mp valid
  have inside : cpu < cpuIndexTable.length := by
    rw [length]
    exact procs.indexOf_lt _ _ index
  simp only [mapEntry, index, List.getElem?_eq_getElem inside]
  exact storeBundle_runs fits (known _ (List.getElem_mem inside)) before

theorem fillMap_runs (paths : 0 < nPathBundles) {size : Nat} (entries : List (Option Nat))
    (length : cpuIndexTable.length = procs.count)
    (known : ∀ bundle ∈ cpuIndexTable, bundle < nPathBundles) (fits : size ≤ entries.length)
    (valid : ∀ i < size, (procs.indexOf (table i)).isSome = true)
    (rest : ∀ i e, size ≤ i → entries[i]? = some e → ∃ bundle < nPathBundles, e = some bundle) :
    Runs (fillMap procs table cpuIndexTable size (some entries)) fun map =>
      ∃ now, map = some now ∧ now.length = entries.length ∧ Bundles nPathBundles now := by
  refine (Runs.foldlM_range size (fun j map lt before => storeBundle_runs (by omega) paths before)
    (.none entries)).bind ?_
  rintro _ ⟨zeroed, rfl, zeroedLength, zeroedHolds⟩
  obtain ⟨_, ran, now, rfl, nowLength, holds⟩ := Runs.foldlM_range size
    (fun j map lt before => mapEntry_runs length known (by omega) (valid j lt) before)
    (.none zeroed)
  refine ⟨_, ran, now, rfl, nowLength.trans zeroedLength, fun e mem => ?_⟩
  obtain ⟨i, lt, rfl⟩ := List.mem_iff_getElem.mp mem
  have there := List.getElem?_eq_getElem lt
  by_cases inTable : i < size
  · exact (holds i _ there).1 inTable
  · have old := (holds i _ there).2 (by omega)
    exact rest i _ (by omega) ((zeroedHolds i _ old).2 (by omega))

theorem buildCpuIndexTable_some (paths : 0 < nPathBundles) {pathCpu : Nat → Option Nat}
    (built : buildCpuIndexTable procs nPathBundles pathCpu = some cpuIndexTable) :
    cpuIndexTable.length = procs.count ∧ ∀ bundle ∈ cpuIndexTable, bundle < nPathBundles := by
  refine foldlM_range_some
    (I := fun _ table => table.length = procs.count ∧ ∀ bundle ∈ table, bundle < nPathBundles)
    nPathBundles ?_ ?_ built
  · rintro i _ _ lt ⟨length, known⟩ stepped
    split at stepped
    · cases stepped
    split at stepped
    · cases stepped
      exact ⟨by rw [List.length_set, length],
        forall_mem_set known (lt_of_le_of_lt (Nat.mod_le _ _) lt)⟩
    · cases stepped
  · refine ⟨List.length_replicate, fun bundle mem => ?_⟩
    rw [List.eq_of_mem_replicate mem]
    exact paths

end Map

/-! ## The invariant -/

section Invariant

variable (procs : Processors) (nPathBundles : Nat)

structure TableOk (settings : ScalingSettings) : Prop where
  pos : 0 < settings.indirectionTableSize / 4
  le : settings.indirectionTableSize / 4 ≤ maxIndirectionEntries
  mask : settings.rssHashMask + 1 = settings.indirectionTableSize / 4
  valid : ∀ i < settings.indirectionTableSize / 4,
    (procs.indexOf (settings.indirectionTable i)).isSome = true

/-- The array that the default queue is looked up in has the size that is noted for it. -/
def MappingOk (settings : ScalingSettings) : Prop :=
  settings.cpuIndexMappingSize = 0 ∨
    ∃ mapping, settings.cpuIndexMapping = some mapping ∧
      mapping.length = settings.cpuIndexMappingSize

def MapOk (map : Option (List (Option Nat))) (length : Nat) : Prop :=
  match map with
  | none => length = 0
  | some entries => entries.length = length ∧ Bundles nPathBundles entries

/-- What `ParaNdis_SetupRSSQueueMap` relies on. -/
structure RssReady (s : RssAdapter) : Prop where
  table : (s.scaling.indirectionTableSize / 4 = 0 ∧ s.scaling.rssHashMask = 0 ∧
      s.rss2QueueMap = none) ∨ TableOk procs s.scaling
  mask : s.active.rssHashMask = s.scaling.rssHashMask
  mapping : MappingOk s.active
  map : MapOk nPathBundles s.rss2QueueMap s.rss2QueueLength

/-- What holds between the calls: the map has room for the table as well. -/
structure RssInv (s : RssAdapter) : Prop extends RssReady procs nPathBundles s where
  room : s.rss2QueueMap = none ∨ s.scaling.indirectionTableSize / 4 ≤ s.rss2QueueLength

def reachesMap (env : RssEnv) : Bool :=
  env.cpuTableAllocated && (buildCpuIndexTable procs nPathBundles env.pathCpu).isSome

/-- A table of `entries` entries leaves a map that fits it. -/
def MapRegular (s : RssAdapter) (env : RssEnv) (entries : Nat) : Prop :=
  if reachesMap procs nPathBundles env = true then
    0 < entries ∧ (entries ≤ s.rss2QueueLength ∨ env.mapAllocated = true)
  else s.rss2QueueMap = none ∨ entries ≤ s.rss2QueueLength

/-- The ranges in the block do not wrap around, and a new table names a processor. -/
def BlockRegular (block : List Byte) : Prop :=
  let p := parseRssParams block
  (p.has flagHashKeyUnchanged = false → p.hashSecretKeyOffset + p.hashSecretKeySize < 2 ^ 32) ∧
    (p.has flagItableUnchanged = false →
      p.indirectionTableOffset + p.indirectionTableSize < 2 ^ 32 ∧
        ∃ i < p.entries,
          (procs.indexOf (processorAt (memory block) (p.indirectionTableOffset + 4 * i))).isSome
            = true)

def entriesAfter (p : RssParams) : Nat :=
  if p.has flagItableUnchanged then s.scaling.indirectionTableSize / 4 else p.entries

/-- The calls after which the lookups stay in range: the offsets in the block do not wrap around,
the first call that gets as far as the map has a table with a processor in it, and a map that is too
small for a new table is replaced without a failure. -/
def RssRegular (s : RssAdapter) (block : List Byte) (env : RssEnv) : Prop :=
  match checkRssParameters s block with
  | .reject _ _ => True
  | .disable => MapRegular procs nPathBundles s env (s.scaling.indirectionTableSize / 4)
  | .configure =>
    (parseRssParams block).has flagItableUnchanged = true ∨ env.mappingAllocated = true →
      BlockRegular procs block ∧
        MapRegular procs nPathBundles s env (entriesAfter s (parseRssParams block))

end Invariant

/-! ## One call -/

section Call

variable {procs : Processors} {nPathBundles offset size i : Nat} {s : RssAdapter} {env : RssEnv}
  {cpuIndexTable : List Nat} {block : List Byte} {mem : Memory}

section

variable (paths : 0 < nPathBundles) (ready : RssReady procs nPathBundles s)

include paths ready

theorem RssReady.replaced (filled : 0 < s.scaling.indirectionTableSize / 4)
    (built : buildCpuIndexTable procs nPathBundles env.pathCpu = some cpuIndexTable) :
    Runs (fillMap procs s.scaling.indirectionTable cpuIndexTable
        (s.scaling.indirectionTableSize / 4)
        (some (List.replicate (s.scaling.indirectionTableSize / 4) none))) fun map =>
      RssInv procs nPathBundles
        { s with
            rss2QueueMap := map
            rss2QueueLength := s.scaling.indirectionTableSize / 4 % 2 ^ 16 } := by
  obtain ⟨_, _, _⟩ | table := ready.table
  · omega
  obtain ⟨length, known⟩ := buildCpuIndexTable_some paths built
  obtain ⟨_, ran, _, rfl, nowLength, bundles⟩ := fillMap_runs paths
    (List.replicate (s.scaling.indirectionTableSize / 4) none) length known
    (by rw [List.length_replicate]) table.valid fun i e le there => by
      obtain ⟨lt, _⟩ := List.getElem?_eq_some_iff.mp there
      rw [List.length_replicate] at lt
      omega
  rw [List.length_replicate] at nowLength
  have small : s.scaling.indirectionTableSize / 4 % 2 ^ 16 = s.scaling.indirectionTableSize / 4 :=
    Nat.mod_eq_of_lt (lt_of_le_of_lt table.le (by decide))
  refine ⟨_, ran, ⟨.inr table, ready.mask, ready.mapping, ?_⟩, .inr (le_of_eq small.symm)⟩
  exact ⟨nowLength.trans small.symm, bundles⟩

theorem RssReady.refilled
    (room : s.scaling.indirectionTableSize / 4 ≤ s.rss2QueueLength) (mapped : s.rss2QueueLength ≠ 0)
    (built : buildCpuIndexTable procs nPathBundles env.pathCpu = some cpuIndexTable) :
    Runs (fillMap procs s.scaling.indirectionTable cpuIndexTable
        (s.scaling.indirectionTableSize / 4) s.rss2QueueMap) fun map =>
      RssInv procs nPathBundles { s with rss2QueueMap := map } := by
  have whole := ready.map
  cases there : s.rss2QueueMap with
  | none =>
    rw [there] at whole
    exact absurd whole mapped
  | some entries =>
    rw [there] at whole
    obtain ⟨entriesLength, old⟩ := whole
    obtain ⟨_, _, absent⟩ | table := ready.table
    · rw [there] at absent
      cases absent
    obtain ⟨length, known⟩ := buildCpuIndexTable_some paths built
    obtain ⟨_, ran, _, rfl, nowLength, bundles⟩ := fillMap_runs paths entries
      length known (by omega) table.valid
      fun i e _ there => old e (List.mem_of_getElem? there)
    refine ⟨_, ran, ⟨.inr table, ready.mask, ready.mapping, ?_⟩, .inr room⟩
    exact ⟨nowLength.trans entriesLength, bundles⟩

/-- The map is set up without a fault, and fits the table. -/
theorem setupRSSQueueMap_runs
    (regular : MapRegular procs nPathBundles s env (s.scaling.indirectionTableSize / 4)) :
    Runs (setupRSSQueueMap procs nPathBundles s env) fun out =>
      RssInv procs nPathBundles out.1 := by
  unfold MapRegular at regular
  unfold setupRSSQueueMap
  by_cases allocated : env.cpuTableAllocated = true
  · rw [if_pos allocated]
    cases built : buildCpuIndexTable procs nPathBundles env.pathCpu with
    | none =>
      rw [if_neg (by simp [reachesMap, built])] at regular
      exact .pure ⟨ready, regular⟩
    | some =>
      rw [if_pos (by simp [reachesMap, allocated, built])] at regular
      obtain ⟨filled, enough⟩ := regular
      by_cases small : s.rss2QueueLength < s.scaling.indirectionTableSize / 4 ∨
        s.rss2QueueLength = 0
      · have room : env.mapAllocated = true := enough.resolve_left (by omega)
        simp only [if_pos small, if_pos room]
        exact (ready.replaced paths filled built).bind fun map inv => .pure inv
      · simp only [if_neg small]
        exact (ready.refilled paths (by omega) (by omega) built).bind fun map inv => .pure inv
  · rw [if_neg allocated]
    rw [if_neg (by simp [reachesMap, allocated])] at regular
    exact .pure ⟨ready, regular⟩

end

theorem setDefaultQueue_runs {settings : ScalingSettings} (mapping : MappingOk settings)
    (idx : Option Nat) :
    Runs (setDefaultQueue procs settings idx) fun after =>
      ∃ processor queue,
        after = { settings with defaultProcessor := processor, defaultQueue := queue } := by
  have unclassified : Runs (ε := RssFault)
      (.ok { settings with defaultQueue := receiveUnclassifiedPacket }) fun after =>
      ∃ processor queue,
        after = { settings with defaultProcessor := processor, defaultQueue := queue } :=
    .pure ⟨settings.defaultProcessor, _, rfl⟩
  cases idx with
  | none => exact unclassified
  | some idx =>
    unfold setDefaultQueue
    by_cases lt : idx < settings.cpuIndexMappingSize
    · simp only [if_pos lt]
      cases procs.numberOf idx with
      | none => exact unclassified
      | some number =>
        obtain zero | ⟨m, there, length⟩ := mapping
        · omega
        · have inside : idx < m.length := by omega
          simp only [there, List.getElem?_eq_getElem inside]
          exact .pure ⟨number, _, rfl⟩
    · simp only [if_neg lt]
      exact unclassified

/-- What the tests have found out about a block that is accepted. -/
theorem check_configure (accepted : checkRssParameters s block = .configure) :
    let p := parseRssParams block
    (p.has flagItableUnchanged = false → p.indirectionTableSize ≤ 4 * maxIndirectionEntries ∧
        ulongAdd p.indirectionTableOffset p.indirectionTableSize ≤ block.length ∧
        0 < p.entries) ∧
      (p.has flagHashKeyUnchanged = false →
        ulongAdd p.hashSecretKeyOffset p.hashSecretKeySize ≤ block.length) := by
  intro p
  unfold checkRssParameters at accepted
  dsimp only at accepted
  -- every test but the last two that matter is only passed
  iterate 5 (split at accepted; · cases accepted)
  split at accepted
  · cases accepted
  rename_i table
  split at accepted
  · cases accepted
  rename_i key
  refine ⟨fun changed => ?_, fun changed => ?_⟩
  · have inside : ¬ (4 * maxIndirectionEntries < p.indirectionTableSize ∨
        block.length < ulongAdd p.indirectionTableOffset p.indirectionTableSize ∨
        isPowerOfTwo (BitVec.ofNat 32 p.entries) = false) := fun h => table ⟨changed, h⟩
    refine ⟨by omega, by omega, Nat.pos_of_ne_zero fun zero => inside (.inr (.inr ?_))⟩
    rw [zero]
    decide
  · have inside : ¬ (40 < p.hashSecretKeySize ∨
        block.length < ulongAdd p.hashSecretKeyOffset p.hashSecretKeySize) :=
      fun h => key ⟨changed, h⟩
    omega

theorem copyFromBlock_runs (inside : offset + size ≤ block.length) :
    Runs (copyFromBlock block offset size) (· = span (memory block) offset size) := by
  rw [copyFromBlock, if_pos (.inr inside)]
  exact .pure rfl

/-- What an accepted call has copied lies in the block. -/
def CopiedInside (block : List Byte) : Prop :=
  let p := parseRssParams block
  (p.has flagItableUnchanged = false →
    p.indirectionTableOffset + p.indirectionTableSize ≤ block.length) ∧
    (p.has flagHashKeyUnchanged = false →
      p.hashSecretKeyOffset + p.hashSecretKeySize ≤ block.length)

theorem copiedInside (accepted : checkRssParameters s block = .configure)
    (regular : BlockRegular procs block) : CopiedInside block := by
  obtain ⟨table, key⟩ := check_configure accepted
  simp only [ulongAdd] at table key
  refine ⟨fun changed => ?_, fun changed => ?_⟩
  · have range := (table changed).2.1
    rwa [Nat.mod_eq_of_lt (regular.2 changed).1] at range
  · have range := key changed
    rwa [Nat.mod_eq_of_lt (regular.1 changed)] at range

theorem installHashing_runs (accepted : checkRssParameters s block = .configure)
    (regular : BlockRegular procs block) : Runs (installHashing s block) fun _ => True := by
  unfold installHashing
  by_cases unchanged : (parseRssParams block).has flagHashKeyUnchanged = true
  · simp only [if_pos unchanged]
    exact .pure trivial
  simp only [if_neg unchanged]
  rw [Bool.not_eq_true] at unchanged
  have inside := (copiedInside accepted regular).2 unchanged
  exact (copyFromBlock_runs inside).bind fun _ _ => .pure trivial

theorem processorAt_span (lt : i < size / 4) :
    processorAt (memory (span mem offset size)) (4 * i) = processorAt mem (offset + 4 * i) := by
  have byte (j : Nat) (inside : j < size) : memory (span mem offset size) j = mem (offset + j) := by
    rw [memory, List.getD_eq_getElem?_getD, getElem?_span inside]
    rfl
  simp only [processorAt, le16]
  rw [byte (4 * i) (by omega), byte (4 * i + 1) (by omega), byte (4 * i + 2) (by omega),
    byte (4 * i + 3) (by omega)]
  rfl

end Call

section Call

variable {procs : Processors} {nPathBundles : Nat} {s : RssAdapter} {env : RssEnv}
  {block : List Byte}

theorem installTable_runs (accepted : checkRssParameters s block = .configure)
    (changed : (parseRssParams block).has flagItableUnchanged = false)
    (regular : BlockRegular procs block) :
    Runs (installTable procs s block) fun settings =>
      TableOk procs settings ∧ MappingOk settings ∧
        settings.indirectionTableSize = (parseRssParams block).indirectionTableSize := by
  obtain ⟨small, _, pos⟩ := (check_configure accepted).1 changed
  obtain ⟨_, k, klt, kvalid⟩ := regular.2 changed
  refine (copyFromBlock_runs ((copiedInside accepted regular).1 changed)).bind ?_
  rintro _ rfl
  let copied := copiedTable procs s.scaling (parseRssParams block)
    (span (memory block) (parseRssParams block).indirectionTableOffset
      (parseRssParams block).indirectionTableSize)
  have inTable : k < copied.indirectionTableSize / 4 := klt
  have named : (procs.indexOf (copied.indirectionTable k)).isSome = true := by
    show (procs.indexOf (overwriteTable _ _ k)).isSome = true
    rw [RssParams.entries] at klt
    rw [overwriteTable, length_span, if_pos klt, processorAt_span klt]
    exact kvalid
  obtain ⟨f, table, queues, ran, filled, repaired⟩ :=
    fillCPUMappingArray_fills s.receiveQueuesNumber copied rfl
  have valid (i : Nat) (lt : i < copied.indirectionTableSize / 4) :
      (procs.indexOf (table i)).isSome = true := by
    rcases filled.first with ⟨_, _, nothing⟩ | ⟨k, _, first, kvalid, _⟩
    · rw [nothing k inTable] at named
      cases named
    rw [(repaired k first i lt).1]
    split
    · exact kvalid
    · obtain ⟨cpu, index, _⟩ := (filled.entries i lt).resolve_left ‹_›
      rw [index]
      rfl
  refine Runs.bind ⟨_, ran, rfl⟩ ?_
  intro settings is
  have mapping : MappingOk settings := is ▸ .inr ⟨f.mapping, rfl, filled.length⟩
  obtain ⟨_, ran, _, _, rfl⟩ :=
    setDefaultQueue_runs mapping (defaultCpuIndex procs (parseRssParams block))
  subst is
  exact ⟨_, ran, ⟨pos, Nat.div_le_of_le_mul small, Nat.sub_add_cancel pos, valid⟩, mapping, rfl⟩

/-- A call that is accepted runs to its end. -/
theorem configureRss_runs (inv : RssInv procs nPathBundles s)
    (accepted : checkRssParameters s block = .configure)
    (regular : (parseRssParams block).has flagItableUnchanged = true ∨
      env.mappingAllocated = true → BlockRegular procs block) :
    Runs (configureRss procs s block env) fun out =>
      ∀ t read, out = some (t, read) →
        ((parseRssParams block).has flagItableUnchanged = true ∨ env.mappingAllocated = true) ∧
          RssReady procs nPathBundles t ∧ t.rss2QueueMap = s.rss2QueueMap ∧
          t.rss2QueueLength = s.rss2QueueLength ∧
          t.scaling.indirectionTableSize / 4 = entriesAfter s (parseRssParams block) := by
  unfold configureRss
  by_cases unchanged : (parseRssParams block).has flagItableUnchanged = true
  · simp only [if_pos unchanged]
    obtain ⟨_, ran, _, _, rfl⟩ :=
      setDefaultQueue_runs inv.mapping (defaultCpuIndex procs (parseRssParams block))
    obtain ⟨hashing, hashed, _⟩ := installHashing_runs accepted (regular (.inl unchanged))
    rw [ran, hashed]
    refine .pure ?_
    rintro t read ⟨⟩
    refine ⟨.inl unchanged, { inv with }, rfl, rfl, ?_⟩
    rw [entriesAfter, if_pos unchanged]
    rfl
  · simp only [if_neg unchanged]
    by_cases allocated : env.mappingAllocated = true
    · simp only [if_pos allocated]
      obtain ⟨_, ran, table, mapping, size⟩ := installTable_runs accepted
        (Bool.not_eq_true _ ▸ unchanged) (regular (.inr allocated))
      obtain ⟨_, hashed, _⟩ := installHashing_runs accepted (regular (.inr allocated))
      rw [ran, hashed]
      refine .pure ?_
      rintro t read ⟨⟩
      refine ⟨.inr allocated,
        ⟨.inr { table with }, rfl, mapping, inv.map⟩,
        rfl, rfl, ?_⟩
      rw [entriesAfter, if_neg unchanged, RssParams.entries, ← size]
      rfl
    · simp only [if_neg allocated]
      refine .pure ?_
      rintro t _ ⟨⟩

/-- **One call**: it makes no access out of range and keeps the invariant. -/
theorem rssSetParameters_runs (paths : 0 < nPathBundles) (inv : RssInv procs nPathBundles s)
    (regular : RssRegular procs nPathBundles s block env) :
    Runs (rssSetParameters procs nPathBundles s block env) fun out =>
      RssInv procs nPathBundles out.1 ∧
        (checkRssParameters s block = .configure → out.2.1 = .success → CopiedInside block) := by
  unfold RssRegular at regular
  unfold rssSetParameters
  cases verdict : checkRssParameters s block with
  | reject =>
    exact .pure ⟨inv, nofun⟩
  | disable =>
    rw [verdict] at regular
    have ready : RssReady procs nPathBundles { s with mode := .disabled } :=
      { inv with }
    exact (setupRSSQueueMap_runs paths ready regular).bind fun out after =>
      .pure ⟨after, nofun⟩
  | configure =>
    rw [verdict] at regular
    refine (configureRss_runs inv verdict fun goes => (regular goes).1).bind fun out after => ?_
    cases out with
    | none => exact .pure ⟨inv, nofun⟩
    | some result =>
      obtain ⟨t, read⟩ := result
      obtain ⟨goes, ready, map, length, size⟩ := after t read rfl
      obtain ⟨blockRegular, mapRegular⟩ := regular goes
      have mapRegular' : MapRegular procs nPathBundles t env
          (t.scaling.indirectionTableSize / 4) := by
        rw [MapRegular, map, length, size]
        exact mapRegular
      exact (setupRSSQueueMap_runs paths ready mapRegular').bind fun out after =>
        .pure ⟨after, fun _ _ => copiedInside verdict blockRegular⟩

end Call

/-! ## Lookups -/

section Lookups

variable {procs : Processors} {nPathBundles : Nat} {s : RssAdapter}

theorem RssInv.mask_lt (inv : RssInv procs nPathBundles s) :
    s.active.rssHashMask < maxIndirectionEntries := by
  rw [inv.mask]
  obtain ⟨_, mask, _⟩ | table := inv.table
  · rw [mask]
    decide
  · have := table.mask
    have := table.le
    omega

theorem RssInv.entries (inv : RssInv procs nPathBundles s) {entries : List (Option Nat)}
    (there : s.rss2QueueMap = some entries) :
    s.active.rssHashMask + 1 ≤ entries.length ∧ Bundles nPathBundles entries := by
  have whole := inv.map
  rw [there] at whole
  obtain ⟨length, bundles⟩ := whole
  obtain ⟨_, _, absent⟩ | table := inv.table
  · rw [there] at absent
    cases absent
  obtain absent | room := inv.room
  · rw [there] at absent
    cases absent
  · rw [inv.mask, table.mask, length]
    exact ⟨room, bundles⟩

theorem collectChains_le {mask : Nat} (nbls : List (BitVec 32)) {head : List (BitVec 32)}
    {index : Nat} (le : index ≤ mask) : ∀ chain ∈ collectChains mask nbls head index,
      chain.1 ≤ mask := by
  have own : ∀ chain ∈ (if head.isEmpty then [] else [(index, head)] : List (Nat × _)),
      chain.1 ≤ mask := by
    intro chain mem
    split at mem
    · cases mem
    · rw [List.mem_singleton.mp mem]
      exact le
  induction nbls generalizing head index with
  | nil => exact own
  | cons _ _ ih =>
    unfold collectChains
    split
    · exact ih le fun chain mem => by
        split at mem
        · cases mem
        · rw [List.mem_singleton.mp mem]
          exact le
    · intro chain mem
      rcases List.mem_append.mp mem with mem | mem
      · exact own chain mem
      · exact ih Nat.and_le_right (fun chain mem => by
          rw [List.mem_singleton.mp mem]
          exact Nat.and_le_right) chain mem

end Lookups

section Lookups

variable {procs : Processors} {nPathBundles : Nat} {s : RssAdapter}

theorem RssInv.sends (paths : 0 < nPathBundles) (inv : RssInv procs nPathBundles s)
    (nbls : List (BitVec 32)) :
    Runs (sendNetBufferLists nPathBundles s nbls) fun chains =>
      ∀ chain ∈ chains, chain.1 < nPathBundles := by
  unfold sendNetBufferLists
  split
  · rename_i goes
    obtain ⟨entries, there⟩ := Option.isSome_iff_exists.mp goes.2
    obtain ⟨room, bundles⟩ := inv.entries there
    refine .mapM _ fun chain mem => ?_
    have inside : chain.1 < entries.length :=
      lt_of_le_of_lt (collectChains_le nbls (Nat.zero_le _) chain mem) room
    obtain ⟨_, known, entry⟩ := bundles _ (List.getElem_mem inside)
    simp only [txPathAt, there, List.getElem?_eq_getElem inside, entry]
    exact .pure known
  · refine .pure fun chain mem => ?_
    rw [List.mem_singleton.mp mem]
    exact paths

theorem RssInv.packets (inv : RssInv procs nPathBundles s) (hash : Option (BitVec 32)) :
    Runs (rssGetScalingDataForPacket s hash) fun _ => True := by
  unfold rssGetScalingDataForPacket
  split
  · exact .pure trivial
  cases hash with
  | none => exact .pure trivial
  | some value =>
    have inside : ¬ maxIndirectionEntries ≤ value.toNat &&& s.active.rssHashMask :=
      Nat.not_le.mpr (lt_of_le_of_lt Nat.and_le_right inv.mask_lt)
    simp only [if_neg inside]
    split <;> exact .pure trivial

end Lookups

/-! ## Sequences of calls -/

section Sequences

variable (procs : Processors) (nPathBundles : Nat)

structure RssFresh : Prop where
  table : s.scaling.indirectionTableSize = 0
  scalingMask : s.scaling.rssHashMask = 0
  activeMask : s.active.rssHashMask = 0
  mapping : s.active.cpuIndexMappingSize = 0
  map : s.rss2QueueMap = none
  length : s.rss2QueueLength = 0

def rssStep (s : RssAdapter) (call : List Byte × RssEnv) :
    Except RssFault (RssAdapter × NdisStatus × Nat) :=
  rssSetParameters procs nPathBundles s call.1 call.2

/-- What holds between the calls: the map fits the mask, the lookups of every send and of every
received packet succeed, and so does every copy of the next call. -/
structure RssSound (s : RssAdapter) : Prop where
  entries : ∀ entries, s.rss2QueueMap = some entries →
    s.active.rssHashMask + 1 ≤ entries.length ∧ Bundles nPathBundles entries
  length : s.rss2QueueLength ≠ 0 → s.rss2QueueMap.isSome = true
  sends : ∀ nbls, Runs (sendNetBufferLists nPathBundles s nbls) fun chains =>
    ∀ chain ∈ chains, chain.1 < nPathBundles
  packets : ∀ hash, Runs (rssGetScalingDataForPacket s hash) fun _ => True
  calls : ∀ block env, RssRegular procs nPathBundles s block env →
    Runs (rssSetParameters procs nPathBundles s block env) fun out =>
      checkRssParameters s block = .configure → out.2.1 = .success → CopiedInside block

variable {procs nPathBundles}

theorem RssFresh.inv {s : RssAdapter} (fresh : RssFresh s) : RssInv procs nPathBundles s := by
  have map : MapOk nPathBundles s.rss2QueueMap s.rss2QueueLength := by
    rw [fresh.map]
    exact fresh.length
  refine ⟨⟨.inl ⟨?_, fresh.scalingMask, fresh.map⟩, ?_, .inl fresh.mapping, map⟩, .inl fresh.map⟩
  · rw [fresh.table]
  · rw [fresh.activeMask, fresh.scalingMask]

theorem RssInv.sound (paths : 0 < nPathBundles) {s : RssAdapter}
    (inv : RssInv procs nPathBundles s) : RssSound procs nPathBundles s where
  entries := fun _ there => inv.entries there
  length := fun nonempty => by
    have whole := inv.map
    cases there : s.rss2QueueMap with
    | none =>
      rw [there] at whole
      exact absurd whole nonempty
    | some => rfl
  sends := inv.sends paths
  packets := inv.packets
  calls := fun block env regular => by
    obtain ⟨out, ran, _, inside⟩ := rssSetParameters_runs paths inv regular
    exact ⟨out, ran, inside⟩

/-- **The lookups stay in range** after every sequence of regular calls: the map has an entry
for every value of the mask, and every entry is a path of the adapter. -/
theorem rss_lookups_in_range (paths : 0 < nPathBundles) {start s : RssAdapter}
    (fresh : RssFresh start)
    (reach : Reachable (· = start) (Next (rssStep procs nPathBundles)
      fun s call => RssRegular procs nPathBundles s call.1 call.2) s) :
    RssSound procs nPathBundles s := by
  suffices inv : RssInv procs nPathBundles s from inv.sound paths
  refine reach.machine_run fresh.inv ?_
  intro s call inv regular
  obtain ⟨⟨t, out⟩, ran, inv', _⟩ := rssSetParameters_runs paths inv regular
  exact ⟨t, out, ran, inv'⟩

end Sequences

/-! ## Fixed calls -/

section Fixed

variable (procs : Processors)

instance (nPathBundles : Nat) (s : RssAdapter) (env : RssEnv) (entries : Nat) :
    Decidable (MapRegular procs nPathBundles s env entries) := by
  unfold MapRegular
  infer_instance

instance (block : List Byte) : Decidable (BlockRegular procs block) := by
  unfold BlockRegular
  infer_instance

instance (nPathBundles : Nat) (s : RssAdapter) (block : List Byte) (env : RssEnv) :
    Decidable (RssRegular procs nPathBundles s block env) := by
  unfold RssRegular
  split <;> infer_instance

def noHashing : HashingSettings :=
  { hashInformation := 0, hashSecretKeySize := 0, hashSecretKey := Vector.replicate 40 0 }

def freshAdapter : RssAdapter :=
  { mode := .disabled, receiveQueuesNumber := 2, scaling := noScaling, hashing := noHashing
    active := noScaling, activeHashing := noHashing, rss2QueueMap := none, rss2QueueLength := 0 }

/-- A block of revision 2 whose table has `size` bytes from `offset` on, with no key. -/
def blockWithTable (flags : Byte) (size : Byte) (offset : List Byte) (table : List Byte) :
    List Byte :=
  [0x88, 2, 40, 0, flags, 0, 0, 0, 1, 1, 0, 0, size, 0, 0, 0] ++ offset ++
    [0, 0, 0, 0, 40, 0, 0, 0] ++ [0, 0, 0, 0, 0, 0, 0, 0, 0, 0, 0, 0] ++ table

/-- A call in which nothing fails; path bundle `i` runs on processor `i`. -/
def allAllocated : RssEnv :=
  { mappingAllocated := true, cpuTableAllocated := true, mapAllocated := true
    pathCpu := some, ndis680 := true }

def tableOfOne : List Byte := blockWithTable 0 4 [40, 0, 0, 0] [0, 0, 0, 0]

def tableOfTwo : List Byte := blockWithTable 0 8 [40, 0, 0, 0] [0, 0, 0, 0, 0, 0, 1, 0]

/-- A table of one entry, replaced by a table of two. -/
theorem rss_lookups_in_range_two :
    ∃ s, s.rss2QueueMap = some [some 0, some 1] ∧ s.active.rssHashMask = 1 ∧
      RssSound twoProcessors 2 s := by
  have replay : ∃ s ∈ attempt (rssStep twoProcessors 2)
      (fun s call => RssRegular twoProcessors 2 s call.1 call.2) freshAdapter
      [(tableOfOne, allAllocated), (tableOfTwo, allAllocated)],
      s.rss2QueueMap = some [some 0, some 1] ∧ s.active.rssHashMask = 1 := by
    decide +kernel
  obtain ⟨s, reach, map, mask⟩ := reachable_of_replay _ replay
  exact ⟨s, map, mask, rss_lookups_in_range (by decide) ⟨rfl, rfl, rfl, rfl, rfl, rfl⟩ reach⟩

def AnyCalls (s : RssAdapter) : Prop :=
  Reachable (· = freshAdapter) (Next (rssStep twoProcessors 2) fun _ _ => True) s

theorem outside_of_replay {entries : List (Option Nat)} {mask : Nat} (short : entries.length ≤ mask)
    (small : mask < 2 ^ 32) (calls : List (List Byte × RssEnv))
    (replay : ∃ s ∈ attempt (rssStep twoProcessors 2) (fun _ _ => True) freshAdapter calls,
      s.rss2QueueMap = some entries ∧ s.active.rssHashMask = mask) :
    ∃ s, AnyCalls s ∧ s.rss2QueueMap = some entries ∧ s.active.rssHashMask = mask ∧
      sendNetBufferLists 2 s [BitVec.ofNat 32 mask] = .error .outsideMap := by
  obtain ⟨s, reach, there, rfl⟩ := reachable_of_replay _ replay
  refine ⟨s, reach, there, rfl, ?_⟩
  have outside : entries[s.active.rssHashMask]? = none := List.getElem?_eq_none short
  have index : (BitVec.ofNat 32 s.active.rssHashMask).toNat = s.active.rssHashMask := by
    rw [BitVec.toNat_ofNat, Nat.mod_eq_of_lt small]
  have chains : collectChains s.active.rssHashMask [BitVec.ofNat 32 s.active.rssHashMask] [] 0 =
      [(s.active.rssHashMask, [BitVec.ofNat 32 s.active.rssHashMask])] := by
    simp only [collectChains, index, Nat.and_self]
    split
    · rename_i zero
      rw [zero]
      rfl
    · rfl
  rw [sendNetBufferLists, chains]
  simp only [List.mapM_cons, txPathAt, there, outside]
  rfl

/-- Four sequences of calls: RSS disabled before it was configured, a failed allocation of the
table of processors after a smaller table, a failed allocation of the map, and an offset that
wraps around. -/
theorem rss_lookup_outside :
    (∃ s, AnyCalls s ∧ s.rss2QueueMap = some [] ∧ s.active.rssHashMask = 0 ∧
      sendNetBufferLists 2 s [0] = .error .outsideMap) ∧
    (∃ s, AnyCalls s ∧ s.rss2QueueMap = some [some 0] ∧ s.active.rssHashMask = 1 ∧
      sendNetBufferLists 2 s [1] = .error .outsideMap) ∧
    (∃ s, AnyCalls s ∧ s.rss2QueueMap = none ∧ s.rss2QueueLength = 2) ∧
    ∃ block, checkRssParameters freshAdapter block = .configure ∧
      rssSetParameters twoProcessors 2 freshAdapter block allAllocated = .error .outsideBlock := by
  refine ⟨?_, ?_, ?_, ?_⟩
  · exact outside_of_replay (by decide) (by decide)
      [(blockWithTable 16 0 [0, 0, 0, 0] [], allAllocated)] (by decide +kernel)
  · exact outside_of_replay (by decide) (by decide) [(tableOfOne, allAllocated),
      (tableOfTwo, { allAllocated with cpuTableAllocated := false })] (by decide +kernel)
  · refine reachable_of_replay [(tableOfTwo, { allAllocated with mapAllocated := false })] ?_
    decide +kernel
  · exact ⟨blockWithTable 0 8 [252, 255, 255, 255] [], by decide +kernel, rfl⟩

end Fixed

end KvmGuestDrivers.NetKvm

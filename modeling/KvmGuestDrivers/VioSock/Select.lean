/-
# VioSock.Select -- the sets of a select request

A select request names sockets in three sets.  `VIOSockSelectCopyFds` looks the handles up, takes a
reference on each socket and packs the three sets into one array; `VIOSockSelectCheckPkt` reports
the sockets that are ready; `VIOSockSelectCleanupPkt` gives the references back.  The sets stand
one behind the other, and where one starts is computed from the counts of those before it.
-/
import KvmGuestDrivers.Theory.Calls
import KvmGuestDrivers.Theory.Transition
import Mathlib.Data.List.Perm.Basic

namespace KvmGuestDrivers.VioSock

set_option autoImplicit false

open Theory
open List hiding set

/-! ## The request -/

inductive FdSetType where
  | read
  | write
  | excpt
  deriving DecidableEq

def fdSetSize : Nat := 64

/-- `VIRTIO_VSOCK_FD_SET`; what is behind the array is whatever the memory has. -/
structure FdSet where
  fdCount : BitVec 32
  fdArray : Nat → BitVec 64

structure SelectHandle where
  hSocket : BitVec 64
  socket : Nat

/-- What happens to the arrays: `fd_array` of a set, and `Fds` on behalf of a set. -/
inductive SelectAccess where
  | readFd (set : FdSetType) (i : Nat)
  | writeFd (set : FdSetType) (i : Nat)
  | storeFds (set : FdSetType) (i : Nat)
  deriving DecidableEq

def SelectAccess.index : SelectAccess → Nat
  | .readFd _ i | .writeFd _ i | .storeFds _ i => i

/-- The memory that the functions work on: `FdCount` and `Fds` of the packet, the references of
the sockets, and the accesses so far. -/
structure SelectMem where
  fdCount : FdSetType → BitVec 32
  fds : Nat → SelectHandle
  /-- `SelectRefs`, as a `LONG`. -/
  selectRefs : Nat → FdSetType → BitVec 32
  /-- The references on the file objects of the sockets that select requests hold. -/
  references : Nat → Int
  log : List SelectAccess

def share (set k : FdSetType) (n : Nat) : BitVec 32 := if k = set then BitVec.ofNat 32 n else 0#32

variable (m : SelectMem)

def SelectMem.refer (set : FdSetType) (socket : Nat) : SelectMem :=
  { m with
      selectRefs := fun s k => m.selectRefs s k + share set k (if s = socket then 1 else 0)
      references := fun s => m.references s + if s = socket then 1 else 0 }

def SelectMem.unrefer (set : FdSetType) (socket : Nat) : SelectMem :=
  { m with
      selectRefs := fun s k => m.selectRefs s k - share set k (if s = socket then 1 else 0)
      references := fun s => m.references s - if s = socket then 1 else 0 }

def SelectMem.note (access : SelectAccess) : SelectMem :=
  { m with log := m.log ++ [access] }

def SelectMem.store (set : FdSetType) (i : Nat) (h : SelectHandle) : SelectMem :=
  { m with
      fds := fun j => if j = i then h else m.fds j
      log := m.log ++ [.storeFds set i] }

/-- What `VIOSockGetSocketFromHandle` finds for the handle at an index of a set. -/
abbrev Resolve := FdSetType → Nat → BitVec 64 → Option Nat

section Model

variable (resolve : Resolve) (fdss : FdSetType → FdSet)

/-- The loop of `VIOSockSelectCopyFds` from `i` on, with `n` turns left. -/
def copyLoop (set : FdSetType) (start : Nat) : Nat → Nat → SelectMem → SelectMem × Nat
  | 0, i, m => (m, i)
  | n + 1, i, m =>
    let m := m.note (.readFd set i)
    let hSocket := (fdss set).fdArray i
    if hSocket = 0 then (m, i)
    else
      match resolve set i hSocket with
      | none => (m, i)
      | some socket =>
        copyLoop set start n (i + 1)
          ((m.store set (start + i) ⟨hSocket, socket⟩).refer set socket)

def SelectMem.setCount (set : FdSetType) (count : BitVec 32) : SelectMem :=
  { m with fdCount := fun k => if k = set then count else m.fdCount k }

def selectCopyFds (set : FdSetType) (start : BitVec 32) (m : SelectMem) : SelectMem × Bool :=
  let (m, i) := copyLoop resolve fdss set start.toNat (fdss set).fdCount.toNat 0 m
  (m.setCount set (BitVec.ofNat 32 i), BitVec.ofNat 32 i = (fdss set).fdCount)

def selectCopy (m : SelectMem) : SelectMem × Bool :=
  match selectCopyFds resolve fdss .read 0 m with
  | (m, false) => (m, false)
  | (m, true) =>
    match selectCopyFds resolve fdss .write (m.fdCount .read) m with
    | (m, false) => (m, false)
    | (m, true) =>
      selectCopyFds resolve fdss .excpt (m.fdCount .read + m.fdCount .write) m

def cleanupLoop (set : FdSetType) (start : Nat) : Nat → Nat → SelectMem → SelectMem
  | 0, _, m => m
  | n + 1, i, m => cleanupLoop set start n (i + 1) (m.unrefer set (m.fds (start + i)).socket)

def selectCleanupFds (set : FdSetType) (start : BitVec 32) (m : SelectMem) : SelectMem :=
  (cleanupLoop set start.toNat (m.fdCount set).toNat 0 m).setCount set 0

/-- `VIOSockSelectCleanupPkt`.  The counts that say where a set starts have been cleared. -/
def selectCleanupPkt : SelectMem :=
  let m := selectCleanupFds .read 0 m
  let m := selectCleanupFds .write (m.fdCount .read) m
  selectCleanupFds .excpt (m.fdCount .read + m.fdCount .write) m

/-- The `Events` of a socket, and whether `EventsStatus[FD_CONNECT_BIT]` is a success. -/
structure SockEvents where
  accept : Bool
  read : Bool
  close : Bool
  write : Bool
  connect : Bool
  connected : Bool

def SockEvents.ready (e : SockEvents) : FdSetType → Bool
  | .read => e.accept || e.read || e.close
  | .write => e.write || e.connect && e.connected
  | .excpt => e.connect && !e.connected

/-- A loop of `VIOSockSelectCheckPkt`; `count` is `fd_count` so far. -/
def checkLoop (events : Nat → SockEvents) (set : FdSetType) (start : Nat) :
    Nat → Nat → Nat → SelectMem → SelectMem × Nat
  | 0, _, count, m => (m, count)
  | n + 1, i, count, m =>
    if (events (m.fds (start + i)).socket).ready set then
      checkLoop events set start n (i + 1) (count + 1) (m.note (.writeFd set count))
    else checkLoop events set start n (i + 1) count m

variable (events : Nat → SockEvents)

def selectCheckPkt (m : SelectMem) : SelectMem × Bool :=
  let r := m.fdCount .read
  let w := m.fdCount .write
  let (m, reads) := checkLoop events .read 0 r.toNat 0 0 m
  let (m, writes) := checkLoop events .write r.toNat w.toNat 0 0 m
  let (m, excpts) := checkLoop events .excpt (r + w).toNat (m.fdCount .excpt).toNat 0 0 m
  (m, decide (reads ≠ 0 ∨ writes ≠ 0 ∨ excpts ≠ 0))

def selectTooLarge : Bool :=
  BitVec.ofNat 32 fdSetSize < (fdss .read).fdCount + (fdss .write).fdCount + (fdss .excpt).fdCount

/-- `VIOSockSelect`, from the copying of the sets on; `marked` is the outcome of
`WdfRequestMarkCancelableEx`.  The answer tells whether the request is pending. -/
def sockSelect (marked : Bool) (m : SelectMem) : SelectMem × Bool :=
  match selectCopy resolve fdss m with
  | (m, false) => (selectCleanupPkt m, false)
  | (m, true) =>
    match selectCheckPkt events m with
    | (m, true) => (selectCleanupPkt m, false)
    | (m, false) => if marked then (m, true) else (selectCleanupPkt m, false)

end Model

/-! ## The loops -/

section Loops

variable (resolve : Resolve) (fdss : FdSetType → FdSet) (set : FdSetType) {start : Nat}

/-- The handles that are copied from `i` on: those before the first that is zero or invalid. -/
def copied : Nat → Nat → List SelectHandle
  | 0, _ => []
  | n + 1, i =>
    let hSocket := (fdss set).fdArray i
    if hSocket = 0 then []
    else
      match resolve set i hSocket with
      | none => []
      | some socket => ⟨hSocket, socket⟩ :: copied n (i + 1)

theorem length_copied (n i : Nat) : (copied resolve fdss set n i).length ≤ n := by
  induction n generalizing i with
  | zero => exact le_rfl
  | succ n ih =>
    rw [copied]
    split
    · exact Nat.zero_le _
    split
    · exact Nat.zero_le _
    · exact Nat.succ_le_succ (ih (i + 1))

def handlesAt (fds : Nat → SelectHandle) (start n : Nat) : List SelectHandle :=
  (List.range n).map fun j => fds (start + j)

theorem handlesAt_succ (fds : Nat → SelectHandle) (start n : Nat) :
    handlesAt fds start (n + 1) = fds start :: handlesAt fds (start + 1) n := by
  rw [handlesAt, range_succ_eq_map, map_cons, map_map]
  congr 1
  refine map_congr_left fun j _ => ?_
  show fds (start + (j + 1)) = fds (start + 1 + j)
  rw [Nat.add_right_comm, add_assoc]

def occurs (socket : Nat) (hs : List SelectHandle) : Nat := (hs.map (·.socket)).count socket

theorem occurs_cons (socket : Nat) (h : SelectHandle) (hs : List SelectHandle) :
    occurs socket (h :: hs) = occurs socket hs + if socket = h.socket then 1 else 0 := by
  rw [occurs, map_cons, count_cons]
  congr 1
  by_cases same : socket = h.socket
  · rw [if_pos same, if_pos (beq_iff_eq.mpr same.symm)]
  · rw [if_neg same, if_neg fun eq => same (beq_iff_eq.mp eq).symm]

theorem share_zero (set k : FdSetType) : share set k 0 = 0#32 := by
  rw [share]
  split <;> rfl

theorem share_add (set k : FdSetType) (a b : Nat) :
    share set k (a + b) = share set k a + share set k b := by
  rw [share, share, share]
  split
  · exact BitVec.ofNat_add a b
  · exact (BitVec.add_zero _).symm

/-- What the loop of `VIOSockSelectCopyFds` does that copies `hs` from `i` on. -/
structure Copies (set : FdSetType) (start i : Nat) (hs : List SelectHandle) (m m' : SelectMem) :
    Prop where
  fdCount : m'.fdCount = m.fdCount
  stored : handlesAt m'.fds (start + i) hs.length = hs
  below : ∀ j, j < start + i → m'.fds j = m.fds j
  selectRefs : ∀ s k, m'.selectRefs s k = m.selectRefs s k + share set k (occurs s hs)
  references : ∀ s, m'.references s = m.references s + occurs s hs

variable {set}

theorem Copies.stop {i : Nat} : Copies set start i [] m (m.note (.readFd set i)) := by
  refine ⟨rfl, rfl, fun j _ => rfl, fun s k => ?_, fun s => (Int.add_zero _).symm⟩
  simp [SelectMem.note, occurs, share_zero]

theorem Copies.turn {i : Nat} {h : SelectHandle} {hs : List SelectHandle} {m m' : SelectMem}
    (rest : Copies set start (i + 1) hs
      (((m.note (.readFd set i)).store set (start + i) h).refer set h.socket) m') :
    Copies set start i (h :: hs) m m' := by
  refine ⟨rest.fdCount, ?_, fun j lt => ?_, fun s k => ?_, fun s => ?_⟩
  · rw [length_cons, handlesAt_succ, add_assoc, rest.stored]
    congr 1
    rw [rest.below _ (by omega)]
    exact if_pos rfl
  · rw [rest.below j (by omega)]
    exact if_neg (by omega)
  · rw [rest.selectRefs s k, occurs_cons, share_add, BitVec.add_comm (share set k (occurs s hs)),
      ← BitVec.add_assoc]
    rfl
  · rw [rest.references s, occurs_cons]
    simp only [SelectMem.refer, SelectMem.store, SelectMem.note]
    split <;> omega

variable (set) in
/-- The loop, in terms of the list of handles that it walks over. -/
theorem copyLoop_copies (start n i : Nat) (m : SelectMem) :
    (copyLoop resolve fdss set start n i m).2 = i + (copied resolve fdss set n i).length ∧
      Copies set start i (copied resolve fdss set n i) m
        (copyLoop resolve fdss set start n i m).1 := by
  induction n generalizing i m with
  | zero =>
    refine ⟨rfl, rfl, rfl, fun j _ => rfl, fun s k => ?_, fun s => (Int.add_zero _).symm⟩
    simp [copyLoop, copied, occurs, share_zero]
  | succ n ih =>
    simp only [copyLoop, copied]
    split
    · exact ⟨rfl, .stop m⟩
    split
    · exact ⟨rfl, .stop m⟩
    · obtain ⟨length, rest⟩ := ih (i + 1) _
      exact ⟨by rw [length, length_cons]; omega, rest.turn⟩

variable (set) in
/-- The loop reads the handles that it copies, and the one it stops at, if there is one. -/
theorem copyLoop_log (P : SelectAccess → Prop) (start n i : Nat) (m : SelectMem) :
    (∀ a ∈ (copyLoop resolve fdss set start n i m).1.log, P a) ↔
      (∀ a ∈ m.log, P a) ∧
      (∀ j < n, j ≤ (copied resolve fdss set n i).length → P (.readFd set (i + j))) ∧
      ∀ j < (copied resolve fdss set n i).length, P (.storeFds set (start + (i + j))) := by
  induction n generalizing i m with
  | zero => simp [copyLoop, copied]
  | succ n ih =>
    have stop : (∀ a ∈ (m.note (.readFd set i)).log, P a) ↔ (∀ a ∈ m.log, P a) ∧
        (∀ j < n + 1, j ≤ 0 → P (.readFd set (i + j))) ∧
        ∀ j < 0, P (.storeFds set (start + (i + j))) := by
      simp only [SelectMem.note, mem_append, mem_singleton, or_imp, forall_and, forall_eq,
        Nat.forall_lt_succ_left, Nat.le_zero, Nat.add_one_ne_zero, Nat.not_lt_zero, false_implies,
        implies_true, true_implies, Nat.add_zero, and_true]
    simp only [copyLoop, copied]
    split
    · exact stop
    split
    · exact stop
    · rw [ih]
      simp only [SelectMem.refer, SelectMem.store, SelectMem.note, mem_append, mem_singleton,
        or_imp, forall_and, forall_eq, length_cons, Nat.forall_lt_succ_left, Nat.add_assoc,
        Nat.add_comm 1, Nat.add_le_add_iff_right, Nat.zero_le, true_implies, Nat.add_zero]
      exact ⟨fun ⟨⟨⟨old, read⟩, store⟩, reads, stores⟩ => ⟨old, ⟨read, reads⟩, store, stores⟩,
        fun ⟨old, ⟨read, reads⟩, store, stores⟩ => ⟨⟨⟨old, read⟩, store⟩, reads, stores⟩⟩

/-- What the loop of `VIOSockSelectCleanupFds` does to the references. -/
structure Cleans (set : FdSetType) (hs : List SelectHandle) (m m' : SelectMem) : Prop where
  fdCount : m'.fdCount = m.fdCount
  fds : m'.fds = m.fds
  selectRefs : ∀ s k, m'.selectRefs s k = m.selectRefs s k - share set k (occurs s hs)
  references : ∀ s, m'.references s = m.references s - occurs s hs

theorem cleanupLoop_cleans (n i : Nat) (m : SelectMem) :
    Cleans set (handlesAt m.fds (start + i) n) m (cleanupLoop set start n i m) := by
  induction n generalizing i m with
  | zero =>
    refine ⟨rfl, rfl, fun s k => ?_, fun s => ?_⟩ <;>
      simp [cleanupLoop, handlesAt, occurs, share_zero]
  | succ n ih =>
    have rest := ih (i + 1) (m.unrefer set (m.fds (start + i)).socket)
    rw [handlesAt_succ]
    refine ⟨rest.fdCount, rest.fds, fun s k => ?_, fun s => ?_⟩
    · rw [cleanupLoop, rest.selectRefs s k, occurs_cons, share_add]
      simp only [SelectMem.unrefer]
      grind
    · rw [cleanupLoop, rest.references s, occurs_cons]
      simp only [SelectMem.unrefer, add_assoc]
      split <;> omega

/-- A loop of `VIOSockSelectCheckPkt` changes nothing but the set of the caller. -/
structure Checks (set : FdSetType) (bound : Nat) (m m' : SelectMem) : Prop where
  fdCount : m'.fdCount = m.fdCount
  fds : m'.fds = m.fds
  selectRefs : m'.selectRefs = m.selectRefs
  references : m'.references = m.references
  kept : m.log ⊆ m'.log
  log : ∀ a ∈ m'.log, a ∈ m.log ∨ ∃ j, j < bound ∧ a = .writeFd set j

theorem checkLoop_checks {events : Nat → SockEvents} (n i count : Nat) (m : SelectMem) :
    Checks set (count + n) m (checkLoop events set start n i count m).1 := by
  induction n generalizing i count m with
  | zero => exact ⟨rfl, rfl, rfl, rfl, Subset.refl _, fun a old => .inl old⟩
  | succ n ih =>
    rw [checkLoop]
    split
    · have rest := ih (i + 1) (count + 1) (m.note (.writeFd set count))
      refine { rest with
        kept := fun _ old => rest.kept (mem_append_left _ old)
        log := fun a new => ?_ }
      rcases rest.log a new with old | ⟨j, lt, is⟩
      · rcases mem_append.mp old with old | written
        · exact .inl old
        · exact .inr ⟨count, by omega, mem_singleton.mp written⟩
      · exact .inr ⟨j, by omega, is⟩
    · have rest := ih (i + 1) count m
      refine { rest with log := fun a new => ?_ }
      rcases rest.log a new with old | ⟨j, lt, is⟩
      · exact .inl old
      · exact .inr ⟨j, by omega, is⟩

variable (set)

def copiedSet : List SelectHandle := copied resolve fdss set (fdss set).fdCount.toNat 0

theorem length_copiedSet : (copiedSet resolve fdss set).length ≤ (fdss set).fdCount.toNat :=
  length_copied ..

theorem toNat_length_copiedSet : (BitVec.ofNat 32 (copiedSet resolve fdss set).length).toNat =
      (copiedSet resolve fdss set).length := by
  refine Nat.mod_eq_of_lt ?_
  exact lt_of_le_of_lt (length_copiedSet resolve fdss set) (fdss set).fdCount.isLt

def complete : Bool := (copiedSet resolve fdss set).length = (fdss set).fdCount.toNat

def completeAll : Bool :=
  complete resolve fdss .read &&
    (complete resolve fdss .write && complete resolve fdss .excpt)

theorem selectCopyFds_copies (start : BitVec 32) (m : SelectMem) :
    ∃ m', Copies set start.toNat 0 (copiedSet resolve fdss set) m m' ∧
      selectCopyFds resolve fdss set start m =
        (m'.setCount set (BitVec.ofNat 32 (copiedSet resolve fdss set).length),
          complete resolve fdss set) := by
  obtain ⟨length, copies⟩ :=
    copyLoop_copies resolve fdss set start.toNat (fdss set).fdCount.toNat 0 m
  refine ⟨_, copies, ?_⟩
  rw [zero_add] at length
  have all : BitVec.ofNat 32 (copiedSet resolve fdss set).length = (fdss set).fdCount ↔
      (copiedSet resolve fdss set).length = (fdss set).fdCount.toNat := by
    rw [← BitVec.toNat_inj, toNat_length_copiedSet]
  simp only [selectCopyFds, length]
  exact congrArg (Prod.mk _) (decide_eq_decide.mpr all)

end Loops

/-! ## The array of a packet -/

variable (p : FdSetType → List SelectHandle)

section Packing

variable {resolve : Resolve} {fdss : FdSetType → FdSet} {m m' : SelectMem} {set : FdSetType}

def packedAll : List SelectHandle :=
  p .read ++ p .write ++ p .excpt

def FdSetType.index : FdSetType → Nat
  | .read => 0
  | .write => 1
  | .excpt => 2

/-- What is copied of the first `n` sets. -/
def firstSets (resolve : Resolve) (fdss : FdSetType → FdSet) (n : Nat) (k : FdSetType) :
    List SelectHandle :=
  if k.index < n then copiedSet resolve fdss k else []

/-- What is in the array after the copying, which ends with a set that is not complete. -/
def packed (resolve : Resolve) (fdss : FdSetType → FdSet) : FdSetType → List SelectHandle :=
  firstSets resolve fdss
    (if complete resolve fdss .read then if complete resolve fdss .write then 3 else 2 else 1)

def offset (fdss : FdSetType → FdSet) : FdSetType → Nat
  | .read => 0
  | .write => (fdss .read).fdCount.toNat
  | .excpt => (fdss .read).fdCount.toNat + (fdss .write).fdCount.toNat

/-- What the copying has done when `p` has been copied. -/
structure Packs (p : FdSetType → List SelectHandle) (m m' : SelectMem) : Prop where
  fdCount : ∀ k, m'.fdCount k = BitVec.ofNat 32 (p k).length
  stored : handlesAt m'.fds 0 (packedAll p).length = packedAll p
  selectRefs : ∀ s k, m'.selectRefs s k = m.selectRefs s k + BitVec.ofNat 32 (occurs s (p k))
  references : ∀ s, m'.references s = m.references s + occurs s (packedAll p)

theorem handlesAt_append (fds : Nat → SelectHandle) (start n k : Nat) :
    handlesAt fds start (n + k) = handlesAt fds start n ++ handlesAt fds (start + n) k := by
  rw [handlesAt, range_add, map_append, map_map]
  congr 1
  refine map_congr_left fun j _ => ?_
  show fds (start + (n + j)) = fds (start + n + j)
  rw [add_assoc]

theorem handlesAt_congr {f g : Nat → SelectHandle} {start n : Nat}
    (same : ∀ j, j < start + n → f j = g j) : handlesAt f start n = handlesAt g start n := by
  refine map_congr_left fun j member => same _ ?_
  have lt := mem_range.mp member
  omega

theorem occurs_append (socket : Nat) (hs ks : List SelectHandle) :
    occurs socket (hs ++ ks) = occurs socket hs + occurs socket ks := by
  rw [occurs, map_append, count_append, occurs, occurs]

theorem Packs.copyFds {p : FdSetType → List SelectHandle} (packs : Packs p m m')
    (resolve : Resolve) (set : FdSetType) (start : BitVec 32) {q : FdSetType → List SelectHandle}
    (empty : p set = []) (is : ∀ k, q k = if k = set then copiedSet resolve fdss set else p k)
    (all : packedAll q = packedAll p ++ copiedSet resolve fdss set)
    (behind : start.toNat = (packedAll p).length) :
    ∃ m'', selectCopyFds resolve fdss set start m' = (m'', complete resolve fdss set) ∧
      Packs q m m'' := by
  obtain ⟨_, copies, copied⟩ := selectCopyFds_copies resolve fdss set start m'
  refine ⟨_, copied, ?_⟩
  refine ⟨fun k => ?_, ?_, fun s k => ?_, fun s => ?_⟩
  · rw [is k]
    simp only [SelectMem.setCount]
    split
    · rfl
    · rw [copies.fdCount, packs.fdCount k]
  · have stored := copies.stored
    rw [all, length_append, handlesAt_append, zero_add, ← behind]
    congr 1
    rw [behind]
    refine (handlesAt_congr fun j lt => ?_).trans packs.stored
    exact copies.below j (by omega)
  · have refs := copies.selectRefs s k
    rw [packs.selectRefs s k] at refs
    refine refs.trans ?_
    rw [is k, share]
    split
    · rename_i mine
      rw [mine, empty]
      simp [occurs]
    · exact BitVec.add_zero _
  · have refs := copies.references s
    rw [packs.references s] at refs
    refine refs.trans ?_
    rw [all, occurs_append]
    omega

def CountsFit (fdss : FdSetType → FdSet) : Prop :=
  (fdss .read).fdCount.toNat + (fdss .write).fdCount.toNat + (fdss .excpt).fdCount.toNat < 2 ^ 32

instance (fdss : FdSetType → FdSet) : Decidable (CountsFit fdss) :=
  inferInstanceAs (Decidable (_ < _))

theorem length_of_complete (all : complete resolve fdss set = true) :
    (copiedSet resolve fdss set).length = (fdss set).fdCount.toNat :=
  of_decide_eq_true all

theorem selectCopy_packs (resolve : Resolve) (fits : CountsFit fdss)
    (empty : ∀ k, m.fdCount k = 0) :
    ∃ m', selectCopy resolve fdss m = (m', completeAll resolve fdss) ∧
      Packs (packed resolve fdss) m m' := by
  have fits : _ + _ + _ < 2 ^ 32 := fits
  have nothing : Packs (fun _ => []) m m :=
    ⟨empty, rfl, fun s k => (BitVec.add_zero _).symm, fun s => (Int.add_zero _).symm⟩
  obtain ⟨m₁, copied₁, packs₁⟩ := nothing.copyFds resolve .read 0
    (q := firstSets resolve fdss 1) rfl (fun k => by cases k <;> rfl)
    (by simp [packedAll, firstSets, FdSetType.index]) rfl
  rw [selectCopy, copied₁, packed, completeAll]
  cases reads : complete resolve fdss .read with
  | false => exact ⟨m₁, rfl, packs₁⟩
  | true =>
    have lengthR := length_of_complete reads
    have countR : (m₁.fdCount .read).toNat = (fdss .read).fdCount.toNat := by
      rw [packs₁.fdCount, ← lengthR]
      exact toNat_length_copiedSet resolve fdss .read
    obtain ⟨m₂, copied₂, packs₂⟩ := packs₁.copyFds resolve .write (m₁.fdCount .read)
      (q := firstSets resolve fdss 2) rfl (fun k => by cases k <;> rfl)
      (by simp [packedAll, firstSets, FdSetType.index])
      (by rw [countR, ← lengthR]; simp [packedAll, firstSets, FdSetType.index])
    simp only [copied₂]
    cases writes : complete resolve fdss .write with
    | false => exact ⟨m₂, rfl, packs₂⟩
    | true =>
      have lengthW := length_of_complete writes
      have countRW : (m₂.fdCount .read + m₂.fdCount .write).toNat =
          (fdss .read).fdCount.toNat + (fdss .write).fdCount.toNat := by
        rw [packs₂.fdCount, packs₂.fdCount, BitVec.toNat_add]
        simp only [firstSets, FdSetType.index, Nat.zero_lt_two, Nat.one_lt_two, if_true]
        rw [toNat_length_copiedSet, toNat_length_copiedSet, lengthR, lengthW]
        exact Nat.mod_eq_of_lt (by omega)
      obtain ⟨m₃, copied₃, packs₃⟩ := packs₂.copyFds resolve .excpt
        (m₂.fdCount .read + m₂.fdCount .write) (q := firstSets resolve fdss 3) rfl
        (fun k => by cases k <;> rfl) (by simp [packedAll, firstSets, FdSetType.index])
        (by rw [countRW, ← lengthR, ← lengthW]; simp [packedAll, firstSets, FdSetType.index])
      exact ⟨m₃, copied₃, packs₃⟩

/-- Once all is copied the counts of the packet are those of the caller. -/
theorem Packs.counts (packs : Packs (packed resolve fdss) m m')
    (all : completeAll resolve fdss = true) (k : FdSetType) :
    packed resolve fdss k = copiedSet resolve fdss k ∧ m'.fdCount k = (fdss k).fdCount := by
  simp only [completeAll, Bool.and_eq_true] at all
  obtain ⟨reads, writes, _⟩ := all
  have is : packed resolve fdss k = copiedSet resolve fdss k := by
    rw [packed, if_pos reads, if_pos writes]
    cases k <;> rfl
  have whole : complete resolve fdss k = true := by cases k <;> assumption
  refine ⟨is, BitVec.eq_of_toNat_eq ?_⟩
  rw [packs.fdCount, is, toNat_length_copiedSet, length_of_complete whole]

/-- `VIOSockSelectCheckPkt` writes no more handles than there are. -/
structure ChecksAll (fdss : FdSetType → FdSet) (m m' : SelectMem) : Prop where
  fdCount : m'.fdCount = m.fdCount
  fds : m'.fds = m.fds
  selectRefs : m'.selectRefs = m.selectRefs
  references : m'.references = m.references
  kept : m.log ⊆ m'.log
  log : ∀ a ∈ m'.log, a ∈ m.log ∨ ∃ set, ∃ j < (fdss set).fdCount.toNat, a = .writeFd set j

theorem Checks.all {n : Nat} (checks : Checks set (0 + n) m m')
    (count : n = (fdss set).fdCount.toNat) : ChecksAll fdss m m' := by
  refine { checks with log := fun a new => ?_ }
  rcases checks.log a new with old | ⟨j, lt, is⟩
  · exact .inl old
  · rw [zero_add, count] at lt
    exact .inr ⟨set, j, lt, is⟩

theorem ChecksAll.trans {m₁ m₂ m₃ : SelectMem} (first : ChecksAll fdss m₁ m₂)
    (second : ChecksAll fdss m₂ m₃) : ChecksAll fdss m₁ m₃ := by
  refine ⟨second.fdCount.trans first.fdCount, second.fds.trans first.fds,
    second.selectRefs.trans first.selectRefs, second.references.trans first.references,
    fun _ old => second.kept (first.kept old), ?_⟩
  intro a new
  rcases second.log a new with old | written
  · exact first.log a old
  · exact .inr written

theorem selectCheckPkt_checks (counts : ∀ k, m.fdCount k = (fdss k).fdCount)
    (events : Nat → SockEvents) : ChecksAll fdss m (selectCheckPkt events m).1 := by
  have step (set : FdSetType) (start n : Nat) (m : SelectMem)
      (count : n = (fdss set).fdCount.toNat) :
      ChecksAll fdss m (checkLoop events set start n 0 0 m).1 :=
    (checkLoop_checks n 0 0 m).all count
  have reads := step .read 0 _ m (congrArg BitVec.toNat (counts .read))
  have writes := step .write (m.fdCount .read).toNat _
    (checkLoop events .read 0 (m.fdCount .read).toNat 0 0 m).1
    (congrArg BitVec.toNat (counts .write))
  refine (reads.trans writes).trans (step .excpt _ _ _ ?_)
  rw [writes.fdCount, reads.fdCount, counts]

/-! ## Bounds -/

def emptyPkt (selectRefs : Nat → FdSetType → BitVec 32) (references : Nat → Int) : SelectMem :=
  { fdCount := fun _ => 0, fds := fun _ => ⟨0, 0⟩, selectRefs := selectRefs
    references := references, log := [] }

/-- What a select request does to the arrays: nothing if it is too large, otherwise the copying
and, when that succeeds, a check by `VIOSockSelect` and any number of checks by the work item. -/
def selectAccesses (resolve : Resolve) (fdss : FdSetType → FdSet)
    (checks : List (Nat → SockEvents)) : List SelectAccess :=
  if selectTooLarge fdss then []
  else
    match selectCopy resolve fdss (emptyPkt (fun _ _ => 0) fun _ => 0) with
    | (m, false) => m.log
    | (m, true) => (checks.foldl (fun m events => (selectCheckPkt events m).1) m).log

theorem checks_within (counts : ∀ k, m.fdCount k = (fdss k).fdCount)
    (checks : List (Nat → SockEvents)) :
    ChecksAll fdss m (checks.foldl (fun m events => (selectCheckPkt events m).1) m) := by
  induction checks generalizing m with
  | nil => exact ⟨rfl, rfl, rfl, rfl, Subset.refl _, fun a old => .inl old⟩
  | cons events _ ih =>
    have first := selectCheckPkt_checks counts events
    refine first.trans (ih fun k => ?_)
    rw [first.fdCount, counts]

/-- `P` holds of the accesses for a set whose handles are stored from `start` on. -/
def SetAll (P : SelectAccess → Prop) (resolve : Resolve) (fdss : FdSetType → FdSet)
    (set : FdSetType) (start : Nat) : Prop :=
  (∀ j < (fdss set).fdCount.toNat, j ≤ (copiedSet resolve fdss set).length → P (.readFd set j)) ∧
    ∀ j < (copiedSet resolve fdss set).length, P (.storeFds set (start + j))

theorem selectCopyFds_log (P : SelectAccess → Prop) (resolve : Resolve) (fdss : FdSetType → FdSet)
    (set : FdSetType) (start : BitVec 32) (m : SelectMem) :
    ∃ m', selectCopyFds resolve fdss set start m = (m', complete resolve fdss set) ∧
      (complete resolve fdss set = true →
        ∀ k, m'.fdCount k = if k = set then (fdss set).fdCount else m.fdCount k) ∧
      ((∀ a ∈ m'.log, P a) ↔
        (∀ a ∈ m.log, P a) ∧ SetAll P resolve fdss set start.toNat) := by
  have log := copyLoop_log resolve fdss set P start.toNat (fdss set).fdCount.toNat 0 m
  simp only [zero_add] at log
  obtain ⟨_, copies, is⟩ := selectCopyFds_copies resolve fdss set start m
  refine ⟨_, is, fun all k => ?_, ?_⟩
  · simp only [SelectMem.setCount, copies.fdCount, length_of_complete all, BitVec.ofNat_toNat,
      BitVec.setWidth_eq]
  · have same := congrArg (fun result : SelectMem × Bool => result.1.log) is
    exact (iff_of_eq (by rw [← show _ = _ from same]; rfl)).trans log

/-- The accesses of the copying, set by set. -/
theorem selectCopy_log (P : SelectAccess → Prop) (resolve : Resolve) (fdss : FdSetType → FdSet)
    (noted : m.log = []) :
    ∃ m', selectCopy resolve fdss m = (m', completeAll resolve fdss) ∧
      (completeAll resolve fdss = true → ∀ k, m'.fdCount k = (fdss k).fdCount) ∧
      ((∀ a ∈ m'.log, P a) ↔ SetAll P resolve fdss .read 0 ∧
        (complete resolve fdss .read = true →
          SetAll P resolve fdss .write (fdss .read).fdCount.toNat ∧
          (complete resolve fdss .write = true → SetAll P resolve fdss .excpt
            ((fdss .read).fdCount + (fdss .write).fdCount).toNat))) := by
  have before : ∀ a ∈ m.log, P a := by simp [noted]
  obtain ⟨m₁, copied₁, counts₁, log₁⟩ := selectCopyFds_log P resolve fdss .read 0 m
  rw [and_iff_right before] at log₁
  rw [selectCopy, copied₁, completeAll]
  cases reads : complete resolve fdss .read with
  | false => exact ⟨m₁, rfl, nofun, by simpa using log₁⟩
  | true =>
    have start₁ : m₁.fdCount .read = (fdss .read).fdCount := counts₁ reads .read
    obtain ⟨m₂, copied₂, counts₂, log₂⟩ :=
      selectCopyFds_log P resolve fdss .write (m₁.fdCount .read) m₁
    rw [log₁, start₁] at log₂
    simp only [copied₂]
    cases writes : complete resolve fdss .write with
    | false => exact ⟨m₂, rfl, nofun, by simpa using log₂⟩
    | true =>
      have start₂ : m₂.fdCount .read = (fdss .read).fdCount ∧
          m₂.fdCount .write = (fdss .write).fdCount :=
        ⟨(counts₂ writes .read).trans start₁, counts₂ writes .write⟩
      obtain ⟨m₃, copied₃, counts₃, log₃⟩ := selectCopyFds_log P resolve fdss .excpt
        (m₂.fdCount .read + m₂.fdCount .write) m₂
      rw [log₂, start₂.1, start₂.2] at log₃
      refine ⟨m₃, copied₃, fun excpts k => ?_, by simpa [and_assoc] using log₃⟩
      rw [counts₃ excpts]
      cases k with
      | read => exact start₂.1
      | write => exact start₂.2
      | excpt => rfl

/-- A set with its valid handles, and the handle that ends them, fits its array and `Fds`. -/
def SetFits (resolve : Resolve) (fdss : FdSetType → FdSet) (set : FdSetType) : Prop :=
  offset fdss set + (copiedSet resolve fdss set).length ≤ fdSetSize ∧
    ((copiedSet resolve fdss set).length < (fdss set).fdCount.toNat →
      (copiedSet resolve fdss set).length < fdSetSize)

/-- Each set fits that the copying gets to, which ends with a set that is not complete. -/
def SetsFit (resolve : Resolve) (fdss : FdSetType → FdSet) : Prop :=
  SetFits resolve fdss .read ∧ (complete resolve fdss .read = true →
    SetFits resolve fdss .write ∧ (complete resolve fdss .write = true →
      SetFits resolve fdss .excpt))

theorem setAll_index (resolve : Resolve) (set : FdSetType) (room : offset fdss set ≤ fdSetSize) :
    SetAll (·.index < fdSetSize) resolve fdss set (offset fdss set) ↔ SetFits resolve fdss set := by
  have le := length_copiedSet resolve fdss set
  unfold SetAll SetFits
  simp only [SelectAccess.index]
  constructor
  · rintro ⟨reads, stores⟩
    refine ⟨?_, fun more => reads _ more le_rfl⟩
    by_contra beyond
    have last := stores ((copiedSet resolve fdss set).length - 1) (by omega)
    omega
  · rintro ⟨fits, stop⟩
    refine ⟨fun j lt le => ?_, fun j lt => by omega⟩
    rcases lt_or_eq_of_le le with before | rfl
    · omega
    · exact stop lt

/-- A set that fits and is copied as a whole leaves room for the next one. -/
theorem SetFits.next (fits : SetFits resolve fdss set) (all : complete resolve fdss set = true) :
    offset fdss set + (fdss set).fdCount.toNat ≤ fdSetSize :=
  length_of_complete all ▸ fits.1

theorem toNat_offset (room : offset fdss .excpt ≤ fdSetSize) :
    ((fdss .read).fdCount + (fdss .write).fdCount).toNat = offset fdss .excpt := by
  have few : (fdss .read).fdCount.toNat + (fdss .write).fdCount.toNat ≤ 64 := room
  rw [BitVec.toNat_add, Nat.mod_eq_of_lt (by omega)]
  rfl

theorem selectCopy_index (resolve : Resolve) (fdss : FdSetType → FdSet) (noted : m.log = []) :
    (∀ a ∈ (selectCopy resolve fdss m).1.log, a.index < fdSetSize) ↔ SetsFit resolve fdss := by
  obtain ⟨m', copied, -, log⟩ := selectCopy_log (·.index < fdSetSize) resolve fdss noted
  rw [copied, log]
  refine (and_congr_left' (setAll_index resolve .read (Nat.zero_le _))).trans
    (and_congr_right fun reads => forall_congr' fun wholeR => ?_)
  have roomR : offset fdss .write ≤ fdSetSize := by simpa [offset] using reads.next wholeR
  refine (and_congr_left' (setAll_index resolve .write roomR)).trans
    (and_congr_right fun writes => forall_congr' fun wholeW => ?_)
  have roomW : offset fdss .excpt ≤ fdSetSize := writes.next wholeW
  rw [toNat_offset roomW]
  exact setAll_index resolve .excpt roomW

/-- The stores for a set are in its part of `Fds`. -/
def Apart (fdss : FdSetType → FdSet) : SelectAccess → Prop
  | .storeFds set i => offset fdss set ≤ i ∧ i < offset fdss set + (fdss set).fdCount.toNat
  | _ => True

theorem selectCopy_apart (noted : m.log = []) (fit : SetsFit resolve fdss) :
    ∀ a ∈ (selectCopy resolve fdss m).1.log, Apart fdss a := by
  have apart (set : FdSetType) : SetAll (Apart fdss) resolve fdss set (offset fdss set) := by
    have le := length_copiedSet resolve fdss set
    exact ⟨fun _ _ _ => trivial, fun j lt => ⟨by omega, by omega⟩⟩
  obtain ⟨m', copied, -, log⟩ := selectCopy_log (Apart fdss) resolve fdss noted
  rw [copied]
  refine log.mpr ⟨apart .read, fun wholeR => ⟨apart .write, fun wholeW => ?_⟩⟩
  rw [toNat_offset ((fit.2 wholeR).1.next wholeW)]
  exact apart .excpt

/-- The sets of a request that is copied as a whole. -/
theorem SetsFit.counts (fit : SetsFit resolve fdss) (all : completeAll resolve fdss = true)
    (k : FdSetType) : (fdss k).fdCount.toNat ≤ fdSetSize := by
  simp only [completeAll, Bool.and_eq_true] at all
  obtain ⟨reads, writes, excpts⟩ := all
  obtain ⟨fitsR, later⟩ := fit
  obtain ⟨fitsW, last⟩ := later reads
  cases k with
  | read => exact le_trans (Nat.le_add_left ..) (fitsR.next reads)
  | write => exact le_trans (Nat.le_add_left ..) (fitsW.next writes)
  | excpt => exact le_trans (Nat.le_add_left ..) ((last writes).next excpts)

/-- **Select stays inside its arrays**, and what it stores for one set it does not store for
another, exactly when it is refused or its sets fit. -/
theorem select_inside (resolve : Resolve) (fdss : FdSetType → FdSet)
    (checks : List (Nat → SockEvents)) :
    ((∀ a ∈ selectAccesses resolve fdss checks, a.index < fdSetSize) ∧
      ∀ (i : Nat) (set set' : FdSetType), .storeFds set i ∈ selectAccesses resolve fdss checks →
        .storeFds set' i ∈ selectAccesses resolve fdss checks → set = set') ↔
    selectTooLarge fdss = true ∨ SetsFit resolve fdss := by
  rw [selectAccesses]
  split
  · rename_i large
    simp [large]
  rename_i small
  rw [or_iff_right small]
  have index := selectCopy_index (m := emptyPkt (fun _ _ => 0) fun _ => 0) resolve fdss rfl
  have apart (fit : SetsFit resolve fdss) :=
    selectCopy_apart (m := emptyPkt (fun _ _ => 0) fun _ => 0) rfl fit
  obtain ⟨m, copied, counts, -⟩ := selectCopy_log (m := emptyPkt (fun _ _ => 0) fun _ => 0)
    (fun _ => True) resolve fdss rfl
  rw [copied] at index apart ⊢
  have distinct (fit : SetsFit resolve fdss) (i : Nat) (set set' : FdSetType)
      (first : .storeFds set i ∈ m.log) (second : .storeFds set' i ∈ m.log) : set = set' := by
    have first := apart fit _ first
    have second := apart fit _ second
    cases set <;> cases set' <;> simp only [Apart, offset] at first second <;>
      first | rfl | omega
  cases all : completeAll resolve fdss with
  | false => exact ⟨fun inside => index.mp inside.1, fun fit => ⟨index.mpr fit, distinct fit⟩⟩
  | true =>
    have checked := checks_within (counts all) checks
    have stored (i : Nat) (set : FdSetType) (new : .storeFds set i ∈
        (checks.foldl (fun m events => (selectCheckPkt events m).1) m).log) :
        .storeFds set i ∈ m.log := by
      rcases checked.log _ new with old | ⟨_, _, _, is⟩
      · exact old
      · cases is
    constructor
    · exact fun inside => index.mp fun a member => inside.1 a (checked.kept member)
    · intro fit
      refine ⟨fun a member => ?_, fun i set set' first second =>
        distinct fit i set set' (stored i set first) (stored i set' second)⟩
      rcases checked.log a member with old | ⟨set, j, lt, rfl⟩
      · exact index.mpr fit a old
      · exact lt_of_lt_of_le lt (fit.counts all set)

end Packing

def noEvents (_ : Nat) : SockEvents := ⟨false, false, false, false, false, false⟩

def twoHandles (count : FdSetType → BitVec 32) (k : FdSetType) : FdSet :=
  { fdCount := count k, fdArray := fun i => BitVec.ofNat 64 (i % 2 + 1) }

/-- Counts whose sum wraps, with a handle that is not valid in the read set: twenty handles are
copied, and nothing is read behind the next. -/
theorem select_inside_invalid : let fdss := twoHandles fun k => if k = .read then 0xFFFFFFFF else 1
    selectTooLarge fdss = false ∧
      ∀ a ∈ selectAccesses (fun _ i _ => if i < 20 then some 1 else none) fdss [noEvents],
        a.index < fdSetSize := by
  intro fdss
  have length :
      (copiedSet (fun _ i _ => if i < 20 then some 1 else none) fdss .read).length = 20 := by
    decide +kernel
  refine ⟨by decide, ((select_inside _ fdss _).mpr (Or.inr ⟨?_, ?_⟩)).1⟩
  · rw [SetFits, length]
    decide
  · intro all
    have whole := length_of_complete all
    rw [length] at whole
    exact absurd whole (by decide)

/-- A read set that says that it has `2 ^ 32 - 1` handles, beside a write set of one: the sum is
zero.  The loop reads the handle behind the array, and stores it behind `Fds`. -/
theorem select_outside : ∃ (resolve : Resolve) (fdss : FdSetType → FdSet),
      .readFd .read fdSetSize ∈ selectAccesses resolve fdss [] ∧
        .storeFds .read fdSetSize ∈ selectAccesses resolve fdss [] := by
  refine ⟨fun _ _ _ => some 0, fun
    | .read => ⟨0xFFFFFFFF#32, fun i => if i ≤ fdSetSize then 1 else 0⟩
    | .write => ⟨1, fun _ => 1⟩
    | .excpt => ⟨0, fun _ => 0⟩, ?_⟩
  decide +kernel

/-! ## References -/

section References

variable {m m' : SelectMem} {fdss : FdSetType → FdSet}

theorem selectCleanupFds_cleans (set : FdSetType) (m : SelectMem) :
    (selectCleanupFds set 0 m).fds = m.fds ∧
      (∀ k, (selectCleanupFds set 0 m).fdCount k = if k = set then 0 else m.fdCount k) ∧
      (∀ s k, (selectCleanupFds set 0 m).selectRefs s k = m.selectRefs s k -
        share set k (occurs s (handlesAt m.fds 0 (m.fdCount set).toNat))) ∧
      ∀ s, (selectCleanupFds set 0 m).references s =
        m.references s - occurs s (handlesAt m.fds 0 (m.fdCount set).toNat) := by
  have cleans : Cleans set (handlesAt m.fds (0 + 0) (m.fdCount set).toNat) m _ :=
    cleanupLoop_cleans (m.fdCount set).toNat 0 m
  refine ⟨cleans.fds, fun k => ?_, cleans.selectRefs, cleans.references⟩
  show (if k = set then 0 else (cleanupLoop set 0 (m.fdCount set).toNat 0 m).fdCount k) = _
  rw [cleans.fdCount]

/-- The clean-up gives back, for every set, the references on the sockets at the start of the
array, as many as the set has. -/
theorem selectCleanupPkt_cleans (m : SelectMem) : (∀ s k, (selectCleanupPkt m).selectRefs s k =
      m.selectRefs s k - BitVec.ofNat 32 (occurs s (handlesAt m.fds 0 (m.fdCount k).toNat))) ∧
    ∀ s, (selectCleanupPkt m).references s = m.references s -
      (occurs s (handlesAt m.fds 0 (m.fdCount .read).toNat) +
        occurs s (handlesAt m.fds 0 (m.fdCount .write).toNat) +
        occurs s (handlesAt m.fds 0 (m.fdCount .excpt).toNat)) := by
  obtain ⟨fds₁, counts₁, refs₁, held₁⟩ := selectCleanupFds_cleans .read m
  obtain ⟨fds₂, counts₂, refs₂, held₂⟩ :=
    selectCleanupFds_cleans .write (selectCleanupFds .read 0 m)
  obtain ⟨-, -, refs₃, held₃⟩ :=
    selectCleanupFds_cleans .excpt (selectCleanupFds .write 0 (selectCleanupFds .read 0 m))
  have is : selectCleanupPkt m =
      selectCleanupFds .excpt 0 (selectCleanupFds .write 0 (selectCleanupFds .read 0 m)) := by
    have read₁ : (selectCleanupFds .read 0 m).fdCount .read = 0 := counts₁ .read
    have read₂ : (selectCleanupFds .write 0 (selectCleanupFds .read 0 m)).fdCount .read = 0 :=
      (counts₂ .read).trans read₁
    simp only [selectCleanupPkt, read₁, read₂]
    rfl
  have write₁ : (selectCleanupFds .read 0 m).fdCount .write = m.fdCount .write := counts₁ .write
  have excpt₂ : (selectCleanupFds .write 0 (selectCleanupFds .read 0 m)).fdCount .excpt =
      m.fdCount .excpt := (counts₂ .excpt).trans (counts₁ .excpt)
  constructor
  · intro s k
    rw [is, refs₃, refs₂, refs₁, fds₂, fds₁, write₁, excpt₂]
    cases k <;> simp [share]
  · intro s
    rw [is, held₃, held₂, held₁, fds₂, fds₁, write₁, excpt₂]
    omega

/-- The sockets at the start of the array are those of the set. -/
def AlignedSet (k : FdSetType) : Prop :=
  (((packedAll p).take (p k).length).map SelectHandle.socket).Perm
    ((p k).map SelectHandle.socket)

instance (k : FdSetType) : Decidable (AlignedSet p k) :=
  inferInstanceAs (Decidable (List.Perm _ _))

/-- The read set is at the start of the array in any case. -/
def Aligned : Prop := AlignedSet p .write ∧ AlignedSet p .excpt

instance : Decidable (Aligned p) :=
  inferInstanceAs (Decidable (_ ∧ _))

theorem Aligned.occurs {p : FdSetType → List SelectHandle} (aligned : Aligned p) (socket : Nat)
    (k : FdSetType) :
    VioSock.occurs socket ((packedAll p).take (p k).length) = VioSock.occurs socket (p k) := by
  cases k with
  | read => rw [packedAll, append_assoc, take_left]
  | write => exact aligned.1.count_eq socket
  | excpt => exact aligned.2.count_eq socket

structure PendingSelect where
  fdCount : FdSetType → BitVec 32
  fds : Nat → SelectHandle
  /-- The sets of the request, which nothing reads. -/
  sets : FdSetType → List SelectHandle

structure SelectRun where
  selectRefs : Nat → FdSetType → BitVec 32
  references : Nat → Int
  pending : List PendingSelect

inductive SelectOp where
  /-- `VIOSockSelect`; `allocated` tells whether there is memory for the packet. -/
  | select (resolve : Resolve) (fdss : FdSetType → FdSet) (allocated : Bool)
      (events : Nat → SockEvents) (marked : Bool)
  /-- The work item takes a packet out of the list: it is ready, timed out or cancelled. -/
  | complete (i : Nat)

variable (s : SelectRun)

def selectStep : SelectOp → Except Empty (SelectRun × Unit)
  | .select resolve fdss allocated events marked =>
    if selectTooLarge fdss ∨ allocated = false then .ok (s, ())
    else
      let (m, waits) := sockSelect resolve fdss events marked
        (emptyPkt s.selectRefs s.references)
      let pkt := { fdCount := m.fdCount, fds := m.fds, sets := copiedSet resolve fdss }
      .ok ({ selectRefs := m.selectRefs, references := m.references
             pending := if waits then s.pending ++ [pkt] else s.pending }, ())
  | .complete i =>
    match s.pending[i]? with
    | none => .ok (s, ())
    | some pkt =>
      let m := selectCleanupPkt { emptyPkt s.selectRefs s.references with
        fdCount := pkt.fdCount, fds := pkt.fds }
      .ok ({ selectRefs := m.selectRefs, references := m.references
             pending := s.pending.eraseIdx i }, ())

def selectStart : SelectRun :=
  { selectRefs := fun _ _ => 0, references := fun _ => 0, pending := [] }

/-- How often a socket is in the sets of a kind of the pending requests. -/
def SelectRun.occurrences (socket : Nat) (k : FdSetType) : Nat :=
  (s.pending.map fun pkt => occurs socket (pkt.sets k)).sum

/-- When the clean-up of a request finds the sockets of every set at the start of the array: it
does if only one set has sockets, or if the later sets repeat what the array begins with. -/
def SelectRegular (_ : SelectRun) : SelectOp → Prop
  | .select resolve fdss _ _ _ => CountsFit fdss ∧ Aligned (packed resolve fdss)
  | .complete _ => True

/-- The clean-up of the packet gives back what its sets took. -/
def Returns (fdCount : FdSetType → BitVec 32) (fds : Nat → SelectHandle)
    (sets : FdSetType → List SelectHandle) : Prop :=
  ∀ s k, occurs s (handlesAt fds 0 (fdCount k).toNat) = occurs s (sets k)

theorem length_firstSets_lt (resolve : Resolve) (fdss : FdSetType → FdSet) (n : Nat)
    (k : FdSetType) : (firstSets resolve fdss n k).length < 2 ^ 32 := by
  rw [firstSets]
  split
  · exact lt_of_le_of_lt (length_copiedSet resolve fdss k) (fdss k).fdCount.isLt
  · exact Nat.two_pow_pos 32

theorem Packs.returns {resolve : Resolve} (packs : Packs (packed resolve fdss) m m')
    (aligned : Aligned (packed resolve fdss)) :
    Returns m'.fdCount m'.fds (packed resolve fdss) := by
  intro s k
  have part : (packed resolve fdss k).length ≤ (packedAll (packed resolve fdss)).length := by
    simp only [packedAll, length_append]
    cases k <;> omega
  have count : (m'.fdCount k).toNat = (packed resolve fdss k).length := by
    rw [packs.fdCount]
    exact Nat.mod_eq_of_lt (length_firstSets_lt resolve fdss _ k)
  rw [count, ← aligned.occurs s k, ← packs.stored, handlesAt, handlesAt, ← map_take,
    take_range, Nat.min_eq_left part]

theorem selectCleanupPkt_undoes {sets : FdSetType → List SelectHandle}
    (selectRefs : ∀ s k, m'.selectRefs s k = m.selectRefs s k + BitVec.ofNat 32 (occurs s (sets k)))
    (references : ∀ s, m'.references s = m.references s + occurs s (packedAll sets))
    (returns : Returns m'.fdCount m'.fds sets) : (selectCleanupPkt m').selectRefs = m.selectRefs ∧
      (selectCleanupPkt m').references = m.references := by
  obtain ⟨refs, held⟩ := selectCleanupPkt_cleans m'
  constructor
  · funext s k
    rw [refs, returns, selectRefs, BitVec.add_sub_cancel]
  · funext s
    rw [held, returns, returns, returns, references, packedAll, occurs_append, occurs_append]
    omega

/-- A call that does not leave its request pending changes no references; one that does takes one
for every handle. -/
theorem sockSelect_refers (resolve : Resolve) (fits : CountsFit fdss)
    (aligned : Aligned (packed resolve fdss)) (events : Nat → SockEvents) (marked : Bool)
    (empty : ∀ k, m.fdCount k = 0) :
    match sockSelect resolve fdss events marked m with
    | (m', false) => m'.selectRefs = m.selectRefs ∧ m'.references = m.references
    | (m', true) =>
      (∀ s k, m'.selectRefs s k =
        m.selectRefs s k + BitVec.ofNat 32 (occurs s (copiedSet resolve fdss k))) ∧
      (∀ s, m'.references s = m.references s + occurs s (packedAll (copiedSet resolve fdss))) ∧
      Returns m'.fdCount m'.fds (copiedSet resolve fdss) := by
  obtain ⟨m₁, copied, packs⟩ := selectCopy_packs resolve fits empty
  have returns := packs.returns aligned
  have undone := selectCleanupPkt_undoes packs.selectRefs packs.references returns
  rw [sockSelect, copied]
  cases all : completeAll resolve fdss with
  | false => exact undone
  | true =>
    have counts (k : FdSetType) := packs.counts all k
    have is : packed resolve fdss = copiedSet resolve fdss := funext fun k => (counts k).1
    have checks := selectCheckPkt_checks (fun k => (counts k).2) events
    have sets : Packs (copiedSet resolve fdss) m m₁ := is ▸ packs
    have selectRefs (s : Nat) (k : FdSetType) := sets.selectRefs s k
    have references (s : Nat) := sets.references s
    rw [is] at returns
    simp only
    generalize checked : selectCheckPkt events m₁ = result at checks
    obtain ⟨m₂, ready⟩ := result
    rw [← checks.selectRefs] at selectRefs
    rw [← checks.references] at references
    rw [← checks.fdCount, ← checks.fds] at returns
    have undone := selectCleanupPkt_undoes selectRefs references returns
    cases ready with
    | true => exact undone
    | false =>
      cases marked with
      | true => exact ⟨selectRefs, references, returns⟩
      | false => exact undone

structure SelectInv (s : SelectRun) : Prop where
  selectRefs : ∀ socket k, s.selectRefs socket k = BitVec.ofNat 32 (s.occurrences socket k)
  references : ∀ socket, s.references socket =
    s.occurrences socket .read + s.occurrences socket .write + s.occurrences socket .excpt
  returns : ∀ pkt ∈ s.pending, Returns pkt.fdCount pkt.fds pkt.sets

variable {s}

theorem SelectInv.select (inv : SelectInv s) (resolve : Resolve) (fits : CountsFit fdss)
    (aligned : Aligned (packed resolve fdss)) (allocated : Bool) (events : Nat → SockEvents)
    (marked : Bool) :
    ∃ t, selectStep s (.select resolve fdss allocated events marked) = .ok (t, ()) ∧
      SelectInv t := by
  rw [selectStep]
  split
  · exact ⟨s, rfl, inv⟩
  have refers := sockSelect_refers (m := emptyPkt s.selectRefs s.references) resolve fits aligned
    events marked fun _ => rfl
  generalize sockSelect resolve fdss events marked (emptyPkt s.selectRefs s.references) = result
    at refers ⊢
  obtain ⟨m, waits⟩ := result
  refine ⟨_, rfl, ?_⟩
  cases waits with
  | false =>
    obtain ⟨selectRefs, references⟩ := refers
    refine ⟨fun socket k => ?_, fun socket => ?_, inv.returns⟩
    · exact (congrFun (congrFun selectRefs socket) k).trans (inv.selectRefs socket k)
    · exact (congrFun references socket).trans (inv.references socket)
  | true =>
    obtain ⟨selectRefs, references, returns⟩ := refers
    refine ⟨fun socket k => ?_, fun socket => ?_, forall_mem_concat inv.returns returns⟩
    · refine (selectRefs socket k).trans ?_
      show s.selectRefs socket k + _ = _
      rw [inv.selectRefs, SelectRun.occurrences, SelectRun.occurrences, if_pos rfl,
        sum_map_start, BitVec.ofNat_add]
    · refine (references socket).trans ?_
      show s.references socket + _ = _
      simp only [inv.references, SelectRun.occurrences, if_true, sum_map_start, packedAll,
        occurs_append]
      omega

theorem SelectInv.complete (inv : SelectInv s) (i : Nat) :
    ∃ t, selectStep s (.complete i) = .ok (t, ()) ∧ SelectInv t := by
  rw [selectStep]
  cases here : s.pending[i]? with
  | none => exact ⟨s, rfl, inv⟩
  | some pkt =>
    obtain ⟨refs, held⟩ := selectCleanupPkt_cleans { emptyPkt s.selectRefs s.references with
      fdCount := pkt.fdCount, fds := pkt.fds }
    have returns := inv.returns pkt (mem_of_getElem? here)
    have fewer (socket : Nat) (k : FdSetType) :=
      sum_map_eraseIdx here fun pkt => occurs socket (pkt.sets k)
    refine ⟨_, rfl, fun socket k => ?_, fun socket => ?_, fun q member => ?_⟩
    · refine (refs socket k).trans ?_
      show s.selectRefs socket k - BitVec.ofNat 32 (occurs socket
        (handlesAt pkt.fds 0 (pkt.fdCount k).toNat)) = _
      rw [returns, inv.selectRefs, SelectRun.occurrences, ← fewer socket k, BitVec.ofNat_add,
        BitVec.add_sub_cancel]
      rfl
    · refine (held socket).trans ?_
      show s.references socket - (occurs socket (handlesAt pkt.fds 0 (pkt.fdCount .read).toNat) +
        occurs socket (handlesAt pkt.fds 0 (pkt.fdCount .write).toNat) +
        occurs socket (handlesAt pkt.fds 0 (pkt.fdCount .excpt).toNat) : Int) = _
      rw [returns, returns, returns, inv.references]
      have reads := fewer socket .read
      have writes := fewer socket .write
      have excpts := fewer socket .excpt
      simp only [SelectRun.occurrences]
      omega
    · exact inv.returns q (mem_of_mem_eraseIdx member)

/-- **Select references are balanced**: every socket is referenced by every kind of set as often
as it is in such sets of pending requests, and its file object as often as in all of them. -/
theorem select_balanced {s : SelectRun} (socket : Nat) (k : FdSetType)
    (reach : Reachable (· = selectStart) (Next selectStep SelectRegular) s) :
    s.selectRefs socket k = BitVec.ofNat 32 (s.occurrences socket k) ∧
      s.references socket = s.occurrences socket .read + s.occurrences socket .write +
        s.occurrences socket .excpt := by
  have inv : SelectInv s := by
    refine reach.machine_run
      ⟨fun _ _ => rfl, fun _ => rfl, fun pkt member => absurd member not_mem_nil⟩ ?_
    intro s op inv regular
    cases op with
    | select resolve _ allocated events marked =>
      obtain ⟨t, stepped, inv'⟩ := inv.select resolve regular.1 regular.2 allocated events marked
      exact ⟨t, (), stepped, inv'⟩
    | complete i =>
      obtain ⟨t, stepped, inv'⟩ := inv.complete i
      exact ⟨t, (), stepped, inv'⟩
  exact ⟨inv.selectRefs socket k, inv.references socket⟩

instance (s : SelectRun) : (op : SelectOp) → Decidable (SelectRegular s op)
  | .select resolve fdss _ _ _ =>
    inferInstanceAs (Decidable (CountsFit fdss ∧ Aligned (packed resolve fdss)))
  | .complete _ => isTrue trivial

def byNumber : Resolve := fun _ _ hSocket => some hSocket.toNat

def selectPair (read write : BitVec 64) : SelectOp :=
  .select byNumber (fun
    | .read => ⟨1, fun _ => read⟩
    | .write => ⟨1, fun _ => write⟩
    | .excpt => ⟨0, fun _ => 0⟩) true noEvents true

/-- Two requests for one socket in both sets; the first is completed. -/
theorem select_balanced_both :
    ∃ s : SelectRun, s.occurrences 1 .write = 1 ∧ s.selectRefs 1 .write = BitVec.ofNat 32 1 := by
  have replay : ∃ s ∈ attempt selectStep SelectRegular selectStart
      [selectPair 1 1, selectPair 1 1, .complete 0], s.occurrences 1 .write = 1 := by
    decide +kernel
  obtain ⟨s, reach, once⟩ := reachable_of_replay _ replay
  have balanced := (select_balanced 1 .write reach).1
  rw [once] at balanced
  exact ⟨s, once, balanced⟩

/-- A read set of one socket and a write set of another.  The clean-up takes the first socket for
that of the write set, since the count of the read set, which is to skip it, has been reset. -/
theorem select_unbalanced :
    ∃ s : SelectRun, Reachable (· = selectStart) (Next selectStep fun _ _ => True) s ∧
      s.pending.length = 0 ∧ (s.selectRefs 1 .write).toInt = -1 ∧
      (s.selectRefs 2 .write).toInt = 1 ∧ s.references 1 = -1 ∧ s.references 2 = 1 := by
  refine reachable_of_replay [selectPair 1 2, .complete 0] ?_
  decide +kernel

end References

end KvmGuestDrivers.VioSock

/-
# VioGpu.DmaStream -- the command streams of DMA buffers

A DMA buffer holds a stream of commands: a header of eight bytes with type and size, and a
body of that size.  Two routines walk such a stream on their own:

* `CountDmaCompletionPackets` checks it before execution and counts its commands;
* `VioGpuCommand::Run` executes it.

What they have in common is `Frames`: the commands lie one behind the other from one
position of the range to another.  A stream that `CountDmaCompletionPackets` has accepted
is framed up to its very end, and on a framed stream both walks are determined by the list
of commands.

Positions are offsets from the start of the range, whose length is a difference of 32-bit
offsets; on the 64-bit targets `cursor + size` does not wrap.
-/
import KvmGuestDrivers.Theory.Bytes

namespace KvmGuestDrivers.VioGpu

set_option autoImplicit false

open Theory List

/-! ## The layout of commands -/

structure CommandHdr where
  type : Nat
  size : Nat
  deriving DecidableEq

def sizeofCommandHdr : Nat := 8

inductive CommandKind where
  | nop
  | submit
  | transferToHost
  | transferFromHost
  | presentFlip
  deriving DecidableEq

def CommandKind.ofType : Nat → Option CommandKind
  | 0 => some .nop
  | 1 => some .submit
  | 2 => some .transferToHost
  | 3 => some .transferFromHost
  | 4 => some .presentFlip
  | _ => none

structure Box where
  x : Nat
  y : Nat
  z : Nat
  width : Nat
  height : Nat
  depth : Nat
  deriving DecidableEq

structure TransferCmd where
  resId : Nat
  box : Box
  offset : Nat
  level : Nat
  stride : Nat
  layerStride : Nat
  deriving DecidableEq

def sizeofTransferCmd : Nat := 48

structure PresentFlipCmd where
  scanId : Nat
  resId : Nat
  width : Nat
  height : Nat
  x : Nat
  y : Nat
  isBlob : Nat
  format : Nat
  stride : Nat
  offset : Nat
  deriving DecidableEq

def sizeofPresentFlipCmd : Nat := 40

variable (mem : Memory)

def readHeader (i : Nat) : CommandHdr := ⟨le32 mem i, le32 mem (i + 4)⟩

def readTransferCmd (i : Nat) : TransferCmd where
  resId := le32 mem i
  box := ⟨le32 mem (i + 4), le32 mem (i + 8), le32 mem (i + 12), le32 mem (i + 16),
    le32 mem (i + 20), le32 mem (i + 24)⟩
  offset := le64 mem (i + 28)
  level := le32 mem (i + 36)
  stride := le32 mem (i + 40)
  layerStride := le32 mem (i + 44)

def readPresentFlipCmd (i : Nat) : PresentFlipCmd :=
  ⟨le32 mem i, le32 mem (i + 4), le32 mem (i + 8), le32 mem (i + 12), le32 mem (i + 16),
    le32 mem (i + 20), le32 mem (i + 24), le32 mem (i + 28), le32 mem (i + 32), le32 mem (i + 36)⟩

section Congr

variable {mem} {mem' : Memory} {i : Nat}

theorem le32_of_agree {start size : Nat} (agree : Agree mem mem' ⟨start, size⟩) (k : Nat)
    (fits : k + 4 ≤ size) : le32 mem (start + k) = le32 mem' (start + k) := by
  apply Agree.le32
  refine agree.part ⟨Nat.le_add_right _ _, ?_⟩
  show start + k + 4 ≤ start + size
  omega

theorem readHeader_congr (agree : Agree mem mem' ⟨i, sizeofCommandHdr⟩) :
    readHeader mem i = readHeader mem' i := by
  have type : le32 mem i = le32 mem' i := le32_of_agree agree 0 (by decide)
  unfold readHeader
  rw [type, le32_of_agree agree 4 (by decide)]

theorem readTransferCmd_congr (agree : Agree mem mem' ⟨i, sizeofTransferCmd⟩) :
    readTransferCmd mem i = readTransferCmd mem' i := by
  have word : ∀ k, k + 4 ≤ sizeofTransferCmd → le32 mem (i + k) = le32 mem' (i + k) :=
    le32_of_agree agree
  have long : le64 mem (i + 28) = le64 mem' (i + 28) := by
    apply Agree.le64
    exact agree.part ⟨Nat.le_add_right _ _, by simp [Extent.stop, sizeofTransferCmd]⟩
  have first : le32 mem i = le32 mem' i := word 0 (by decide)
  unfold readTransferCmd
  rw [first, word 4 (by decide), word 8 (by decide), word 12 (by decide),
    word 16 (by decide), word 20 (by decide), word 24 (by decide), word 36 (by decide),
    word 40 (by decide), word 44 (by decide), long]

theorem readPresentFlipCmd_congr (agree : Agree mem mem' ⟨i, sizeofPresentFlipCmd⟩) :
    readPresentFlipCmd mem i = readPresentFlipCmd mem' i := by
  have word : ∀ k, k + 4 ≤ sizeofPresentFlipCmd → le32 mem (i + k) = le32 mem' (i + k) :=
    le32_of_agree agree
  have first : le32 mem i = le32 mem' i := word 0 (by decide)
  unfold readPresentFlipCmd
  rw [first, word 4 (by decide), word 8 (by decide), word 12 (by decide),
    word 16 (by decide), word 20 (by decide), word 24 (by decide), word 28 (by decide),
    word 32 (by decide), word 36 (by decide)]

end Congr

/-! ## The two walks over a range -/

/-- The range from `m_pCommand` to `m_pEnd`, and the memory it is part of. -/
structure DmaRange where
  read : Memory
  length : Nat
  small : length < 2 ^ 32

inductive DmaFault where
  | truncatedHeader
  | invalidSize
  | invalidPresentFlip
  | unsupportedType
  deriving DecidableEq

variable (range : DmaRange)

/-- The checks that `CountDmaCompletionPackets` and `Run` both make before they look at the
type of a command: its header and its body end before `end`. -/
def DmaRange.frameAt (cursor : Nat) : Except DmaFault CommandHdr :=
  if range.length < cursor + sizeofCommandHdr then .error .truncatedHeader
  else
    let cmdHdr := readHeader range.read cursor
    if range.length < cursor + sizeofCommandHdr + cmdHdr.size then .error .invalidSize
    else .ok cmdHdr

/-- The `switch` of `CountDmaCompletionPackets`: what it objects to. -/
def CommandHdr.refusal (cmdHdr : CommandHdr) : Option DmaFault :=
  match CommandKind.ofType cmdHdr.type with
  | some .nop | some .submit | some .transferToHost | some .transferFromHost => none
  | some .presentFlip =>
    if cmdHdr.size < sizeofPresentFlipCmd then some .invalidPresentFlip else none
  | none => some .unsupportedType

/-- The locals of `CountDmaCompletionPackets` when its loop ends. -/
structure DmaCount where
  cursor : Nat
  packets : Nat
  deriving DecidableEq

/-- The loop of `CountDmaCompletionPackets`.  A turn advances the cursor, so the length of
the range is fuel enough. -/
def countLoop (range : DmaRange) : (fuel cursor packets : Nat) → Except DmaFault DmaCount
  | 0, cursor, packets => .ok ⟨cursor, packets⟩
  | fuel + 1, cursor, packets =>
    if cursor < range.length then
      match range.frameAt cursor with
      | .error e => .error e
      | .ok cmdHdr =>
        match cmdHdr.refusal with
        | some e => .error e
        | none => countLoop range fuel (cursor + sizeofCommandHdr + cmdHdr.size) (packets + 1)
    else .ok ⟨cursor, packets⟩

/-- `CountDmaCompletionPackets`; an error stands for `*valid = FALSE`. -/
def countDmaCompletionPackets : Except DmaFault DmaCount :=
  countLoop range range.length 0 0

/-- A command of the stream: where its header is, and what that says. -/
structure DmaCommand where
  cursor : Nat
  hdr : CommandHdr
  deriving DecidableEq

variable (c : DmaCommand)

namespace DmaCommand

def body : Nat := c.cursor + sizeofCommandHdr

def extent : Extent := ⟨c.cursor, sizeofCommandHdr + c.hdr.size⟩

def kind : Option CommandKind := CommandKind.ofType c.hdr.type

def isTransfer : Bool :=
  match c.kind with
  | some .transferToHost | some .transferFromHost => true
  | _ => false

/-- The bytes of the body that `Run` looks at: it copies the payload of a `SUBMIT` and
passes or reads the structure of a transfer or a flip. -/
def bodyReads : List Extent :=
  match c.kind with
  | some .nop => []
  | some .submit => if 0 < c.hdr.size then [⟨c.body, c.hdr.size⟩] else []
  | some .transferToHost | some .transferFromHost => [⟨c.body, sizeofTransferCmd⟩]
  | some .presentFlip =>
    if c.hdr.size < sizeofPresentFlipCmd then [] else [⟨c.body, sizeofPresentFlipCmd⟩]
  | none => []

def reads : List Extent := ⟨c.cursor, sizeofCommandHdr⟩ :: c.bodyReads

end DmaCommand

/-- The loop of `Run`: the commands it executes, and the check that made it break off. -/
def runLoop (range : DmaRange) : (fuel cursor : Nat) → List DmaCommand × Option DmaFault
  | 0, _ => ([], none)
  | fuel + 1, cursor =>
    if cursor < range.length then
      match range.frameAt cursor with
      | .error e => ([], some e)
      | .ok cmdHdr =>
        let (cmds, stop) := runLoop range fuel (cursor + sizeofCommandHdr + cmdHdr.size)
        (⟨cursor, cmdHdr⟩ :: cmds, stop)
    else ([], none)

/-- The commands of the range that `Run` executes once the range has been accepted. -/
def DmaRange.runCommands : List DmaCommand :=
  (runLoop range range.length 0).1

/-- Why the loop of `Run` breaks off, if it does. -/
def DmaRange.runStop : Option DmaFault :=
  (runLoop range range.length 0).2

/-- What a command makes `Run` submit with its completion callback. -/
inductive Packet where
  | nop
  | submit (payload : List Byte)
  | transfer (toHost : Bool) (cmd : TransferCmd)
  | flip (cmd : PresentFlipCmd)
  deriving DecidableEq

/-- The `switch` of `Run`. -/
def DmaRange.packet : Option Packet :=
  match c.kind with
  | some .nop => some .nop
  | some .submit => some (.submit (span range.read c.body c.hdr.size))
  | some .transferToHost => some (.transfer true (readTransferCmd range.read c.body))
  | some .transferFromHost => some (.transfer false (readTransferCmd range.read c.body))
  | some .presentFlip =>
    if c.hdr.size < sizeofPresentFlipCmd then none
    else some (.flip (readPresentFlipCmd range.read c.body))
  | none => none

def DmaRange.runPackets : List Packet := range.runCommands.filterMap range.packet

variable {c : DmaCommand}

/-- What is submitted depends on nothing but the bytes listed in `reads`. -/
theorem packet_congr {range range' : DmaRange}
    (agree : ∀ e ∈ c.reads, Agree range.read range'.read e) : range.packet c = range'.packet c := by
  have bodies : ∀ e ∈ c.bodyReads, Agree range.read range'.read e :=
    fun e member => agree e (mem_cons_of_mem _ member)
  unfold DmaCommand.bodyReads at bodies
  unfold DmaRange.packet
  cases kind : c.kind with
  | none => rfl
  | some k =>
    cases k with
    | nop => rfl
    | submit =>
      simp only [kind] at bodies ⊢
      by_cases some : 0 < c.hdr.size
      · rw [if_pos some] at bodies
        rw [(bodies _ mem_cons_self).span]
      · rw [Nat.eq_zero_of_not_pos some]
        rfl
    | transferToHost | transferFromHost =>
      simp only [kind] at bodies ⊢
      rw [readTransferCmd_congr (bodies _ mem_cons_self)]
    | presentFlip =>
      simp only [kind] at bodies ⊢
      by_cases short : c.hdr.size < sizeofPresentFlipCmd
      · rw [if_pos short, if_pos short]
      · rw [if_neg short] at bodies
        rw [if_neg short, if_neg short, readPresentFlipCmd_congr (bodies _ mem_cons_self)]

/-! ## Framed streams -/

/-- `cmds` lie one behind the other from `cursor` to `stop`, inside the range. -/
inductive Frames (range : DmaRange) : Nat → List DmaCommand → Nat → Prop where
  | nil {cursor} : cursor ≤ range.length → Frames range cursor [] cursor
  | cons {cursor stop cmdHdr cmds} : range.frameAt cursor = .ok cmdHdr →
      Frames range (cursor + sizeofCommandHdr + cmdHdr.size) cmds stop →
      Frames range cursor (⟨cursor, cmdHdr⟩ :: cmds) stop

section Frames

variable {range} {range' : DmaRange} {cursor stop fuel packets : Nat} {cmdHdr : CommandHdr}
  {cmds : List DmaCommand} {count : DmaCount}

theorem frameAt_ok (framed : range.frameAt cursor = .ok cmdHdr) :
    cmdHdr = readHeader range.read cursor ∧
      cursor + sizeofCommandHdr + cmdHdr.size ≤ range.length := by
  unfold DmaRange.frameAt at framed
  split at framed
  · cases framed
  simp only at framed
  split at framed
  · cases framed
  · cases framed
    exact ⟨rfl, by omega⟩

theorem frameAt_of_fits
    (fits : cursor + sizeofCommandHdr + (readHeader range.read cursor).size ≤ range.length) :
    range.frameAt cursor = .ok (readHeader range.read cursor) := by
  unfold DmaRange.frameAt
  rw [if_neg (by omega)]
  exact if_neg (by omega)

namespace Frames

theorem cursor_le (frames : Frames range cursor cmds stop) : cursor ≤ stop := by
  induction frames with
  | nil => exact le_rfl
  | cons => omega

theorem inside (frames : Frames range cursor cmds stop) :
    ∀ c ∈ cmds, c.extent.stop ≤ range.length := by
  induction frames with
  | nil => exact nofun
  | cons framed _ ih =>
    intro c member
    rcases mem_cons.mp member with rfl | later
    · show _ + (_ + _) ≤ range.length
      rw [← add_assoc]
      exact (frameAt_ok framed).2
    · exact ih c later

section

variable (frames : Frames range cursor cmds range.length) (fuel_ok : range.length ≤ cursor + fuel)

include frames fuel_ok

theorem runLoop_eq : runLoop range fuel cursor = (cmds, none) := by
  induction fuel generalizing cursor cmds with
  | zero =>
    cases frames with
    | nil => rfl
    | cons _ rest =>
      have past := rest.cursor_le
      simp only [sizeofCommandHdr] at past
      omega
  | succ _ ih =>
    unfold runLoop
    cases frames with
    | nil => rw [if_neg (lt_irrefl _)]
    | cons framed rest =>
      have past := rest.cursor_le
      simp only [sizeofCommandHdr] at past
      rw [if_pos (by omega), framed]
      simp only
      rw [ih rest (by simp only [sizeofCommandHdr]; omega)]

theorem countLoop_eq :
    countLoop range fuel cursor packets = match cmds.findSome? fun c => c.hdr.refusal with
      | some e => .error e
      | none => .ok ⟨range.length, packets + cmds.length⟩ := by
  induction fuel generalizing cursor cmds packets with
  | zero =>
    cases frames with
    | nil => rfl
    | cons _ rest =>
      have past := rest.cursor_le
      simp only [sizeofCommandHdr] at past
      omega
  | succ _ ih =>
    unfold countLoop
    cases frames with
    | nil =>
      rw [if_neg (lt_irrefl _)]
      rfl
    | cons framed rest =>
      have past := rest.cursor_le
      simp only [sizeofCommandHdr] at past
      rw [if_pos (by omega), framed, findSome?_cons]
      simp only
      split
      · rename_i e objection
        rw [objection]
      · rename_i fine
        rw [ih rest (by simp only [sizeofCommandHdr]; omega), fine, length_cons,
          add_assoc, add_comm 1]

end

end Frames

theorem frames_of_countLoop (inside : cursor ≤ range.length)
    (fuel_ok : range.length ≤ cursor + fuel)
    (accepted : countLoop range fuel cursor packets = .ok count) :
    ∃ cmds, Frames range cursor cmds range.length ∧ ∀ c ∈ cmds, c.hdr.refusal = none := by
  induction fuel generalizing cursor packets with
  | zero =>
    obtain rfl : cursor = range.length := by omega
    exact ⟨[], .nil inside, nofun⟩
  | succ _ ih =>
    unfold countLoop at accepted
    split at accepted
    · cases framed : range.frameAt cursor with
      | error =>
        rw [framed] at accepted
        cases accepted
      | ok =>
        rw [framed] at accepted
        simp only at accepted
        split at accepted
        · cases accepted
        rename_i fine
        have fits := (frameAt_ok framed).2
        obtain ⟨_, frames, all⟩ := ih fits (by simp only [sizeofCommandHdr]; omega) accepted
        refine ⟨_, .cons framed frames, ?_⟩
        intro c member
        rcases mem_cons.mp member with rfl | later
        · exact fine
        · exact all c later
    · obtain rfl : cursor = range.length := by omega
      exact ⟨[], .nil inside, nofun⟩

theorem Frames.runCommands_eq (frames : Frames range 0 cmds range.length) :
    range.runCommands = cmds := by
  rw [DmaRange.runCommands, frames.runLoop_eq (le_of_eq (zero_add _).symm)]

theorem Frames.runStop_eq (frames : Frames range 0 cmds range.length) : range.runStop = none := by
  rw [DmaRange.runStop, frames.runLoop_eq (le_of_eq (zero_add _).symm)]

theorem Frames.congr (agree : Agree range.read range'.read ⟨0, range.length⟩)
    (same : range'.length = range.length) (frames : Frames range cursor cmds stop) :
    Frames range' cursor cmds stop := by
  induction frames with
  | nil inside => exact .nil (same ▸ inside)
  | @cons cursor _ _ _ framed _ ih =>
    obtain ⟨header, fits⟩ := frameAt_ok framed
    have bytes : readHeader range.read cursor = readHeader range'.read cursor := by
      apply readHeader_congr
      refine agree.part ⟨Nat.zero_le _, ?_⟩
      show cursor + sizeofCommandHdr ≤ 0 + range.length
      omega
    refine .cons ?_ ih
    rw [header, bytes]
    apply frameAt_of_fits
    rw [← bytes, ← header, same]
    exact fits

/-- **Acceptance.**  A range that `CountDmaCompletionPackets` accepts is framed to its end by
the commands `Run` executes, and the count is their number. -/
theorem accepted_frames (accepted : countDmaCompletionPackets range = .ok count) :
    Frames range 0 range.runCommands range.length ∧ range.runStop = none ∧
      (∀ c ∈ range.runCommands, c.hdr.refusal = none) ∧
      count = ⟨range.length, range.runCommands.length⟩ := by
  have enough : range.length ≤ 0 + range.length := le_of_eq (zero_add _).symm
  obtain ⟨_, frames, fine⟩ := frames_of_countLoop (Nat.zero_le _) enough accepted
  rw [frames.runCommands_eq]
  refine ⟨frames, frames.runStop_eq, fine, ?_⟩
  rw [countDmaCompletionPackets, frames.countLoop_eq enough,
    findSome?_eq_none_iff.mpr fine] at accepted
  simp only [zero_add] at accepted
  exact (Except.ok.inj accepted).symm

/-! ## What `Run` reads -/

theorem DmaCommand.covers_body {size : Nat} (fits : size ≤ c.hdr.size) :
    c.extent.Covers ⟨c.body, size⟩ := by
  constructor
  · exact Nat.le_add_right _ _
  · show c.cursor + sizeofCommandHdr + size ≤ c.cursor + (sizeofCommandHdr + c.hdr.size)
    omega

section

variable (full : c.isTransfer = true → sizeofTransferCmd ≤ c.hdr.size)

include full

theorem DmaCommand.covers_bodyReads : ∀ e ∈ c.bodyReads, c.extent.Covers e := by
  unfold DmaCommand.isTransfer at full
  unfold DmaCommand.bodyReads
  cases kind : c.kind with
  | none => exact nofun
  | some k =>
    rw [kind] at full
    cases k with
    | nop => exact nofun
    | submit =>
      intro e member
      simp only at member
      split at member
      · obtain rfl := mem_singleton.mp member
        exact covers_body le_rfl
      · cases member
    | transferToHost | transferFromHost =>
      intro e member
      obtain rfl := mem_singleton.mp member
      exact covers_body (full rfl)
    | presentFlip =>
      intro e member
      simp only at member
      split at member
      · cases member
      · rename_i long
        obtain rfl := mem_singleton.mp member
        exact covers_body (Nat.not_lt.mp long)

theorem DmaCommand.covers_reads : ∀ e ∈ c.reads, c.extent.Covers e := by
  intro e member
  rcases mem_cons.mp member with rfl | body
  · exact ⟨le_rfl, Nat.add_le_add_left (Nat.le_add_right _ _) _⟩
  · exact covers_bodyReads full e body

end

theorem DmaCommand.mem_reads_of_isTransfer (transfer : c.isTransfer = true) :
    ⟨c.body, sizeofTransferCmd⟩ ∈ c.reads := by
  apply mem_cons_of_mem
  unfold DmaCommand.isTransfer at transfer
  unfold DmaCommand.bodyReads
  split at transfer
  · rename_i kind
    rw [kind]
    exact mem_singleton_self _
  · rename_i kind
    rw [kind]
    exact mem_singleton_self _
  · cases transfer

/-- So what `Run` submits is determined by the bytes of the range. -/
theorem runPackets_congr (accepted : countDmaCompletionPackets range = .ok count)
    (full : ∀ c ∈ range.runCommands, c.isTransfer = true → sizeofTransferCmd ≤ c.hdr.size)
    (agree : Agree range.read range'.read ⟨0, range.length⟩) (same : range'.length = range.length) :
    range'.runPackets = range.runPackets := by
  have frames := (accepted_frames accepted).1
  have frames' : Frames range' 0 range.runCommands range'.length := by
    rw [same]
    exact frames.congr agree same
  rw [DmaRange.runPackets, frames'.runCommands_eq]
  apply filterMap_congr
  intro c executed
  apply Eq.symm
  apply packet_congr
  intro e member
  apply agree.part
  refine ⟨Nat.zero_le _, ?_⟩
  show e.stop ≤ 0 + range.length
  rw [zero_add]
  exact le_trans (DmaCommand.covers_reads (full c executed) e member).2 (frames.inside c executed)

end Frames

/-- **Reads stay inside.**  In a range that `CountDmaCompletionPackets` accepts, everything that
`Run` reads of a command lies inside that command, and the command inside the range, exactly if the
transfers are as long as a `VIOGPU_TRANSFER_CMD`. -/
theorem run_reads_inside (range : DmaRange) (count : DmaCount)
    (accepted : countDmaCompletionPackets range = .ok count) :
    (∀ c ∈ range.runCommands, (∀ e ∈ c.reads, c.extent.Covers e) ∧
        c.extent.stop ≤ range.length) ↔
      ∀ c ∈ range.runCommands, c.isTransfer = true → sizeofTransferCmd ≤ c.hdr.size := by
  constructor
  · intro inside c executed transfer
    have covers := (inside c executed).1 _ (DmaCommand.mem_reads_of_isTransfer transfer)
    have stop : c.cursor + sizeofCommandHdr + sizeofTransferCmd ≤
      c.cursor + (sizeofCommandHdr + c.hdr.size) := covers.2
    omega
  · intro full c executed
    constructor
    · exact DmaCommand.covers_reads (full c executed)
    · exact (accepted_frames accepted).1.inside c executed

def headerBytes (type size : Nat) : List Byte :=
  [BitVec.ofNat 8 type, 0, 0, 0, BitVec.ofNat 8 size, 0, 0, 0]

def transferStream : DmaRange where
  read := memory (headerBytes 0 0 ++ headerBytes 2 48)
  length := 64
  small := by decide

theorem transferStream_reads_inside : countDmaCompletionPackets transferStream = .ok ⟨64, 2⟩ ∧
      ∀ c ∈ transferStream.runCommands,
        (∀ e ∈ c.reads, c.extent.Covers e) ∧ c.extent.stop ≤ transferStream.length :=
  ⟨by decide, (run_reads_inside transferStream ⟨64, 2⟩ (by decide)).mpr (by decide)⟩

def emptyTransfer : DmaRange where
  read := memory (headerBytes 2 0)
  length := 8
  small := by decide

/-- The stream is accepted, and `Run` passes on a structure of 48 bytes that starts where
the range ends. -/
theorem emptyTransfer_reads_outside : countDmaCompletionPackets emptyTransfer = .ok ⟨8, 1⟩ ∧
      ∃ c ∈ emptyTransfer.runCommands, ∃ e ∈ c.reads,
        ¬ c.extent.Covers e ∧ emptyTransfer.length < e.stop := by
  refine ⟨by decide, ⟨0, ⟨2, 0⟩⟩, by decide, ⟨8, 48⟩, by decide, ?_, by decide⟩
  intro covers
  exact absurd covers.2 (by decide)

end KvmGuestDrivers.VioGpu

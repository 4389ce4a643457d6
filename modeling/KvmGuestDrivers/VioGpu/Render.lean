/-
# VioGpu.Render -- from the user's command buffer to the DMA buffer

`VioGpuDevice::Render` copies the stream of commands in the user's buffer into the DMA
buffer, command by command, and checks the framing on its way.  It makes its checks in its
own words, with the length of the rest in 32 bits; that they are the same framing as that
of `VioGpu.DmaStream` is `copyLoop_ok`.

So `VioGpuCommand::Run` does with the copy what the user's stream asks for
(`rendered_runs_alike`).

The user's buffer is taken not to change while it is copied.
-/
import KvmGuestDrivers.VioGpu.DmaCompletion

namespace KvmGuestDrivers.VioGpu

set_option autoImplicit false

open Theory

/-! ## Arguments and result -/

inductive RenderStatus where
  | invalidParameter
  | invalidUserBuffer
  | insufficientResources
  deriving DecidableEq

/-- `DXGKARG_RENDER`.  A `Bool` under the name of a pointer says that it is not `NULL`;
`user` is the memory at `pCommand` and `readable` which of its bytes can be read without
an exception. -/
structure RenderArgs where
  pDmaBuffer : Bool
  dmaSize : Nat
  pDmaBufferPrivateData : Bool
  dmaBufferPrivateDataSize : Nat
  pCommand : Bool
  commandLength : Nat
  user : Memory
  readable : Nat → Bool
  pPatchLocationListIn : Bool
  patchLocationListInSize : Nat
  allocationIndex : Nat → Option Nat
  pPatchLocationListOut : Bool
  patchLocationListOutSize : Nat
  multipassOffset : Nat
  pAllocationList : Bool
  allocationListSize : Nat
  commandLength_lt : commandLength < 2 ^ 32

structure PatchLocation where
  allocationIndex : Nat
  allocationOffset : Nat
  patchOffset : Nat
  splitOffset : Nat
  slotId : Nat
  deriving DecidableEq

/-- What `Render` leaves behind: the bytes between the old and the new `pDmaBuffer`, and the
patch locations. -/
structure Rendered where
  dma : List Byte
  patchLocationListOut : List PatchLocation
  deriving DecidableEq

variable (args : RenderArgs)

namespace RenderArgs

def stream : DmaRange := ⟨args.user, args.commandLength, args.commandLength_lt⟩

/-- The checks before anything is copied; eight is the size of a pointer. -/
def refusal : Option RenderStatus :=
  if !args.pDmaBufferPrivateData || args.dmaBufferPrivateDataSize < 8 then some .invalidParameter
  else if args.commandLength ≠ 0 && !args.pCommand then some .invalidUserBuffer
  else if args.commandLength ≠ 0 && !args.pDmaBuffer then some .invalidParameter
  else if args.patchLocationListOutSize < args.patchLocationListInSize then some .invalidParameter
  else if args.patchLocationListInSize ≠ 0 &&
      (!args.pPatchLocationListIn || !args.pPatchLocationListOut) then some .invalidUserBuffer
  else if args.multipassOffset ≠ 0 then some .invalidUserBuffer
  else none

/-- The loop over the patch locations; `none` stands for an exception. -/
def patchLocations : Option (List PatchLocation) :=
  (List.range args.patchLocationListInSize).mapM fun i =>
    (args.allocationIndex i).map fun index => ⟨index, 0, 0, 0, i⟩

/-- `memcpy` from the user's buffer; `none` stands for an exception. -/
def copy (start n : Nat) : Option (List Byte) :=
  if (List.range n).all fun i => args.readable (start + i) then some (span args.user start n)
  else none

/-- The loop over the commands.  `dma` holds what has been copied. -/
def copyLoop (args : RenderArgs) :
    (fuel cmdBuf dmaBytesLeft : Nat) → List Byte → Except RenderStatus (List Byte)
  | 0, _, _, dma => .ok dma
  | fuel + 1, cmdBuf, dmaBytesLeft, dma =>
    if cmdBuf < args.commandLength then
      if args.commandLength < cmdBuf + sizeofCommandHdr then .error .invalidUserBuffer
      else
        match args.copy cmdBuf sizeofCommandHdr with
        | none => .error .invalidParameter
        | some _ =>
          let cmdHdr := readHeader args.user cmdBuf
          if (args.commandLength - cmdBuf) % 2 ^ 32 - sizeofCommandHdr < cmdHdr.size then
            .error .invalidUserBuffer
          else
            let commandBytes := (sizeofCommandHdr + cmdHdr.size) % 2 ^ 32
            if dmaBytesLeft < commandBytes then .error .invalidUserBuffer
            else
              match args.copy cmdBuf commandBytes with
              | none => .error .invalidParameter
              | some bytes =>
                copyLoop args fuel (cmdBuf + commandBytes) (dmaBytesLeft - commandBytes)
                  (dma ++ bytes)
    else .ok dma

/-- `AttachAllocations`; `allocated` says whether there is memory for the array. -/
def attachAllocations (allocated : Bool) : Option RenderStatus :=
  if args.allocationListSize = 0 then none
  else if !args.pAllocationList then some .invalidParameter
  else if !allocated then some .insufficientResources
  else none

end RenderArgs

/-- `VioGpuDevice::Render`; the last two arguments say whether there is memory for the
command and for its array of allocations. -/
def render (commandAllocated arrayAllocated : Bool) :
    Except RenderStatus Rendered :=
  match args.refusal with
  | some e => .error e
  | none =>
    match args.patchLocations with
    | none => .error .invalidParameter
    | some patches =>
      match args.copyLoop args.commandLength 0 args.dmaSize [] with
      | .error e => .error e
      | .ok dma =>
        if !commandAllocated then .error .insufficientResources
        else
          match args.attachAllocations arrayAllocated with
          | some e => .error e
          | none => .ok ⟨dma, patches⟩

section Render

variable {args : RenderArgs} {fuel cmdBuf dmaBytesLeft : Nat} {dma out : List Byte}
  {cmds : List DmaCommand}

theorem RenderArgs.copy_eq {start n : Nat} {bytes : List Byte}
    (copied : args.copy start n = some bytes) : bytes = span args.user start n := by
  unfold RenderArgs.copy at copied
  split at copied
  · exact (Option.some.inj copied).symm
  · cases copied

theorem copyLoop_ok (inside : cmdBuf ≤ args.commandLength)
    (fuel_ok : args.commandLength ≤ cmdBuf + fuel)
    (copied : args.copyLoop fuel cmdBuf dmaBytesLeft dma = .ok out) :
    (∃ cmds, Frames args.stream cmdBuf cmds args.commandLength) ∧
      out = dma ++ span args.user cmdBuf (args.commandLength - cmdBuf) ∧
      args.commandLength - cmdBuf ≤ dmaBytesLeft := by
  have short := args.commandLength_lt
  induction fuel generalizing cmdBuf dmaBytesLeft dma with
  | zero =>
    obtain rfl : cmdBuf = args.commandLength := by omega
    cases copied
    refine ⟨⟨[], .nil inside⟩, ?_, by omega⟩
    rw [Nat.sub_self, span, List.append_nil]
  | succ _ ih =>
    unfold RenderArgs.copyLoop at copied
    split at copied
    · split at copied
      · cases copied
      split at copied
      · cases copied
      simp only at copied
      split at copied
      · cases copied
      split at copied
      · cases copied
      rename_i room
      split at copied
      · cases copied
      rename_i got
      -- no sum wraps: the command lies inside the user's buffer
      have fits : cmdBuf + sizeofCommandHdr + (readHeader args.user cmdBuf).size ≤
          args.commandLength := by
        omega
      have whole : (sizeofCommandHdr + (readHeader args.user cmdBuf).size) % 2 ^ 32 =
          sizeofCommandHdr + (readHeader args.user cmdBuf).size :=
        Nat.mod_eq_of_lt (by omega)
      obtain rfl := RenderArgs.copy_eq got
      rw [whole] at copied room
      have advance : sizeofCommandHdr = 8 := rfl
      obtain ⟨⟨_, frames⟩, text, _⟩ := ih (by omega) (by omega) copied
      rw [← add_assoc] at frames
      refine ⟨⟨_, .cons (frameAt_of_fits fits) frames⟩, ?_, by omega⟩
      rw [text, List.append_assoc, ← span_add]
      congr 2
      omega
    · obtain rfl : cmdBuf = args.commandLength := by omega
      cases copied
      refine ⟨⟨[], .nil inside⟩, ?_, by omega⟩
      rw [Nat.sub_self, span, List.append_nil]

theorem copyLoop_of_render {commandAllocated arrayAllocated : Bool} {rendered : Rendered}
    (done : render args commandAllocated arrayAllocated = .ok rendered) :
    args.copyLoop args.commandLength 0 args.dmaSize [] = .ok rendered.dma := by
  unfold render at done
  split at done
  · cases done
  split at done
  · cases done
  split at done
  · cases done
  rename_i copied
  split at done
  · cases done
  split at done
  · cases done
  · cases done
    exact copied

theorem frames_of_span {range range' : DmaRange} (frames : Frames range 0 cmds range.length)
    (bytes : span range'.read 0 range'.length = span range.read 0 range.length) :
    Frames range' 0 cmds range'.length := by
  have same : range'.length = range.length := by
    have lengths := congrArg List.length bytes
    rwa [length_span, length_span] at lengths
  rw [same] at bytes ⊢
  exact frames.congr (agree_of_span bytes.symm) same

theorem refusal_ne_framing (hdr : CommandHdr) :
    hdr.refusal ≠ some .truncatedHeader ∧ hdr.refusal ≠ some .invalidSize := by
  unfold CommandHdr.refusal
  split
  · exact ⟨nofun, nofun⟩
  · exact ⟨nofun, nofun⟩
  · exact ⟨nofun, nofun⟩
  · exact ⟨nofun, nofun⟩
  · split
    · exact ⟨nofun, nofun⟩
    · exact ⟨nofun, nofun⟩
  · exact ⟨nofun, nofun⟩

theorem count_ne_framing {range : DmaRange} (frames : Frames range 0 cmds range.length) :
    countDmaCompletionPackets range ≠ .error .truncatedHeader ∧
      countDmaCompletionPackets range ≠ .error .invalidSize := by
  rw [countDmaCompletionPackets, frames.countLoop_eq (le_of_eq (zero_add _).symm)]
  cases found : cmds.findSome? fun c => c.hdr.refusal with
  | some =>
    obtain ⟨c, -, objection⟩ := List.exists_of_findSome?_eq_some found
    obtain ⟨first, second⟩ := refusal_ne_framing c.hdr
    rw [objection] at first second
    exact ⟨fun same => first (congrArg some (Except.error.inj same)),
      fun same => second (congrArg some (Except.error.inj same))⟩
  | none =>
    constructor
    · intro same
      cases same
    · intro same
      cases same

end Render

/-- **Rendered streams are framed.**  What `Render` copies is the user's buffer, fits into
the DMA buffer, and makes neither walk stumble over a header or a size; the count reaches
the end of it unless it objects to a type or to the size of a flip. -/
theorem rendered_stream_framed (args : RenderArgs) (commandAllocated arrayAllocated : Bool)
    (rendered : Rendered) (done : render args commandAllocated arrayAllocated = .ok rendered)
    (range : DmaRange) (bytes : span range.read 0 range.length = rendered.dma) :
    rendered.dma = span args.user 0 args.commandLength ∧ rendered.dma.length ≤ args.dmaSize ∧
      countDmaCompletionPackets range ≠ .error .truncatedHeader ∧
      countDmaCompletionPackets range ≠ .error .invalidSize ∧
      ((∀ c ∈ range.runCommands, c.hdr.refusal = none) →
        countDmaCompletionPackets range = .ok ⟨range.length, range.runCommands.length⟩) ∧
      range.runStop = none := by
  obtain ⟨⟨cmds, user⟩, text, room⟩ := copyLoop_ok (Nat.zero_le _)
    (le_of_eq (zero_add _).symm) (copyLoop_of_render done)
  rw [List.nil_append] at text
  have frames : Frames range 0 cmds range.length := frames_of_span user (bytes.trans text)
  obtain ⟨header, size⟩ := count_ne_framing frames
  refine ⟨text, ?_, header, size, ?_, frames.runStop_eq⟩
  · rw [text, length_span]
    exact room
  rw [frames.runCommands_eq]
  intro fine
  rw [countDmaCompletionPackets, frames.countLoop_eq (le_of_eq (zero_add _).symm),
    List.findSome?_eq_none_iff.mpr fine]
  simp only [zero_add]

def renderArgs (bytes : List Byte) (fits : bytes.length < 2 ^ 32) : RenderArgs where
  pDmaBuffer := true
  dmaSize := 0x40000
  pDmaBufferPrivateData := true
  dmaBufferPrivateDataSize := 8
  pCommand := true
  commandLength := bytes.length
  user := memory bytes
  readable := fun _ => true
  pPatchLocationListIn := true
  patchLocationListInSize := 0
  allocationIndex := fun _ => none
  pPatchLocationListOut := true
  patchLocationListOutSize := 0
  multipassOffset := 0
  pAllocationList := true
  allocationListSize := 0
  commandLength_lt := fits

/-- A `SUBMIT` of two bytes and a `NOP` without a body. -/
def submitThenNop : List Byte := headerBytes 1 2 ++ 7 :: 9 :: headerBytes 0 0

theorem renderArgs_submit_framed :
    render (renderArgs submitThenNop (by decide)) true true = .ok ⟨submitThenNop, []⟩ ∧
      countDmaCompletionPackets ⟨memory submitThenNop, 18, by decide⟩ = .ok ⟨18, 2⟩ := by
  have done : render (renderArgs submitThenNop (by decide)) true true =
      .ok ⟨submitThenNop, []⟩ := by decide
  obtain ⟨-, -, -, -, reached, -⟩ := rendered_stream_framed _ true true _ done
    ⟨memory submitThenNop, 18, by decide⟩ (by decide)
  exact ⟨done, reached (by decide)⟩

/-- A flip without a body is rendered, and the count does not accept it. -/
theorem rendered_flip_refused :
    render (renderArgs (headerBytes 4 0) (by decide)) true true = .ok ⟨headerBytes 4 0, []⟩ ∧
      span (memory (headerBytes 4 0)) 0 8 = headerBytes 4 0 ∧
      countDmaCompletionPackets ⟨memory (headerBytes 4 0), 8, by decide⟩ =
        .error .invalidPresentFlip :=
  ⟨by decide, by decide, by decide⟩

/-- **Rendering keeps the meaning of a stream.**  What `Run` does with the DMA buffer, packet by
packet, is what the user's buffer asks for, and a stream that is refused is refused in both. -/
theorem rendered_runs_alike {args : RenderArgs} {commandAllocated arrayAllocated : Bool}
    {rendered : Rendered} (done : render args commandAllocated arrayAllocated = .ok rendered)
    {range : DmaRange} (bytes : span range.read 0 range.length = rendered.dma)
    (full : ∀ c ∈ range.runCommands, c.isTransfer = true → sizeofTransferCmd ≤ c.hdr.size) :
    runActions range = runActions args.stream := by
  obtain ⟨⟨cmds, user⟩, text, -⟩ := copyLoop_ok (Nat.zero_le _)
    (le_of_eq (zero_add _).symm) (copyLoop_of_render done)
  rw [List.nil_append] at text
  have copied : span range.read 0 range.length = span args.stream.read 0 args.stream.length :=
    bytes.trans text
  have frames : Frames range 0 cmds range.length := frames_of_span user copied
  have same : args.stream.length = range.length := by
    have lengths := congrArg List.length copied
    rwa [length_span, length_span, eq_comm] at lengths
  have count : countDmaCompletionPackets range = countDmaCompletionPackets args.stream := by
    rw [countDmaCompletionPackets, countDmaCompletionPackets,
      frames.countLoop_eq (le_of_eq (zero_add _).symm),
      Frames.countLoop_eq user (le_of_eq (zero_add _).symm), same]
  rw [same] at copied
  rw [runActions, runActions, ← count, same]
  cases accepted : countDmaCompletionPackets range with
  | error => rfl
  | ok =>
    have packets : args.stream.runPackets = range.runPackets :=
      runPackets_congr accepted full (agree_of_span copied) same
    rw [packets]

theorem rendered_submit_runs_alike :
    runActions ⟨memory (headerBytes 1 1 ++ [7, 9]), 9, by decide⟩ =
      runActions (renderArgs (headerBytes 1 1 ++ [7]) (by decide)).stream := by
  have done : render (renderArgs (headerBytes 1 1 ++ [7]) (by decide)) true true =
      .ok ⟨headerBytes 1 1 ++ [7], []⟩ := by decide
  exact rendered_runs_alike done (by decide) (by decide)

end KvmGuestDrivers.VioGpu

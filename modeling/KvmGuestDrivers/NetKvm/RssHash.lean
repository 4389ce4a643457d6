/-
# NetKvm.RssHash -- hashing a received frame

`RSSCalcHash_Unsafe` picks the addresses and ports of a frame that has been analysed
(`NetKvm.RxAnalyze`) and hashes them (`NetKvm.Toeplitz`).  It tests no length itself.

Neither the analysis nor the hash is safe for every frame: `cutOff_out_of_bounds`.
-/
import KvmGuestDrivers.NetKvm.RxAnalyze
import KvmGuestDrivers.NetKvm.Toeplitz

namespace KvmGuestDrivers.NetKvm

set_option autoImplicit false

open Theory List

/-! ## The functions -/

/-- The hash types that are enabled.  Those for UDP are never so in builds without NDIS 6.80. -/
structure HashTypes where
  ipv4 : Bool
  tcpIpv4 : Bool
  udpIpv4 : Bool
  ipv6 : Bool
  ipv6Ex : Bool
  tcpIpv6 : Bool
  tcpIpv6Ex : Bool
  udpIpv6 : Bool
  udpIpv6Ex : Bool

inductive HashType where
  | ipv4
  | tcpIpv4
  | udpIpv4
  | ipv6
  | ipv6Ex
  | tcpIpv6
  | tcpIpv6Ex
  | udpIpv6
  | udpIpv6Ex
  deriving DecidableEq

structure RssHash where
  value : BitVec 32
  type : HashType
  deriving DecidableEq

section Functions

variable (info : NetPacketInfo)

variable (xEnabled : Bool)

def getIP6SrcAddrForHash : Nat :=
  if xEnabled = true ∧ info.ip6HomeAddrOffset ≠ 0 then info.ip6HomeAddrOffset
  else info.l2HdrLen + 8

def getIP6DstAddrForHash : Nat :=
  if xEnabled = true ∧ info.ip6DestAddrOffset ≠ 0 then info.ip6DestAddrOffset
  else info.l2HdrLen + 24

def ip4Addresses : Extent := ⟨info.l2HdrLen + 12, 8⟩

def ip6Addresses : List Extent :=
  [⟨getIP6SrcAddrForHash info xEnabled, 16⟩, ⟨getIP6DstAddrForHash info xEnabled, 16⟩]

def ports : Extent := ⟨info.l2HdrLen + info.l3HdrLen, 4⟩

/-- `sgBuff` and the type of `RSSCalcHash_Unsafe`; `none` when nothing is hashed. -/
def rssChunks (types : HashTypes) : Option (HashType × List Extent) :=
  if info.isIP4 = true then
    if info.isTCP = true ∧ types.tcpIpv4 = true then
      some (.tcpIpv4, [ip4Addresses info, ports info])
    else if info.isUDP = true ∧ types.udpIpv4 = true then
      some (.udpIpv4, [ip4Addresses info, ports info])
    else if types.ipv4 = true then some (.ipv4, [ip4Addresses info])
    else none
  else if info.isIP6 = true then
    if info.isTCP = true ∧ (types.tcpIpv6 || types.tcpIpv6Ex) = true then
      some (if types.tcpIpv6Ex then .tcpIpv6Ex else .tcpIpv6,
        ip6Addresses info types.tcpIpv6Ex ++ [ports info])
    else if info.isUDP = true ∧ (types.udpIpv6 || types.udpIpv6Ex) = true then
      some (if types.udpIpv6Ex then .udpIpv6Ex else .udpIpv6,
        ip6Addresses info types.udpIpv6Ex ++ [ports info])
    else if (types.ipv6 || types.ipv6Ex) = true then
      some (if types.ipv6Ex then .ipv6Ex else .ipv6, ip6Addresses info types.ipv6Ex)
    else none
  else none

def readChunks (frame : List Byte) : List Extent → Except ReadFault (List (List Byte))
  | [] => pure []
  | chunk :: rest => do
    let first ← readSpan frame chunk.offset chunk.size
    let others ← readChunks frame rest
    pure (first :: others)

def rssCalcHash (frame : List Byte) (types : HashTypes) (key : HashSecretKey) :
    Except ReadFault (Option RssHash) :=
  match rssChunks info types with
  | none => pure none
  | some (type, chunks) => do
    let sgBuff ← readChunks frame chunks
    match toeplitzHash sgBuff key with
    | none => .error .outside
    | some value => pure (some ⟨value, type⟩)

def rssAnalyzeReceivedPacket (frame : List Byte) (enabled : Bool) (types : HashTypes)
    (key : HashSecretKey) : Except ReadFault (Option RssHash) :=
  if enabled = true then rssCalcHash info frame types key else pure none

end Functions

/-! ## What is hashed -/

section Chunks

variable {frame : List Byte} {info : NetPacketInfo} {chunks : List Extent}

def ChunksInside (frame : List Byte) (chunks : List Extent) : Prop :=
  ∀ chunk ∈ chunks, chunk.stop ≤ frame.length

theorem ip4Addresses_inside (known : InfoKnown info) (fits : FrameFits frame info)
    (isIP4 : info.isIP4 = true) : (ip4Addresses info).stop ≤ frame.length := by
  have headers := fits.1
  have long := known.ip4 isIP4
  show info.l2HdrLen + 12 + 8 ≤ frame.length
  omega

theorem ip6Addresses_inside (known : InfoKnown info) (fits : FrameFits frame info)
    (isIP4 : info.isIP4 = false) (isIP6 : info.isIP6 = true) (xEnabled : Bool) :
    ChunksInside frame (ip6Addresses info xEnabled) := by
  obtain ⟨_, ip6, _, home, dest⟩ := known
  have headers := fits.1
  have long := ip6 isIP4 isIP6
  have source : getIP6SrcAddrForHash info xEnabled + 16 ≤ frame.length := by
    unfold getIP6SrcAddrForHash
    split <;> omega
  have destination : getIP6DstAddrForHash info xEnabled + 16 ≤ frame.length := by
    unfold getIP6DstAddrForHash
    split <;> omega
  exact forall_mem_cons.mpr ⟨source, forall_mem_singleton.mpr destination⟩

/-- What is picked is not longer than the key allows. -/
theorem rssChunks_picks {types : HashTypes} {type : HashType}
    (picked : rssChunks info types = some (type, chunks)) :
    (chunks.map Extent.size).sum ≤ 36 ∧ ∀ chunk ∈ chunks,
      info.isIP4 = true ∧ chunk = ip4Addresses info ∨
      (info.isIP4 = false ∧ info.isIP6 = true ∧ ∃ xEnabled, chunk ∈ ip6Addresses info xEnabled) ∨
      (info.isTCP = true ∨ info.isUDP = true) ∧ chunk = ports info := by
  unfold rssChunks at picked
  split_ifs at picked <;> cases picked <;>
    exact ⟨Nat.le_of_ble_eq_true rfl, by simp_all [ip6Addresses]⟩

/-- With all types enabled, the ports of a packet that is taken for TCP or UDP are hashed. -/
theorem rssChunks_ports (known : InfoKnown info) (upper : info.isTCP = true ∨ info.isUDP = true) :
    ∃ types type chunks, rssChunks info types = some (type, chunks) ∧ ports info ∈ chunks := by
  refine ⟨⟨true, true, true, true, true, true, true, true, true⟩, ?_⟩
  have layer := known.upper upper
  unfold rssChunks
  split_ifs <;> simp_all

theorem readChunks_runs (inside : ChunksInside frame chunks) :
    Runs (readChunks frame chunks) (fun sgBuff =>
      sgBuff.map List.length = chunks.map Extent.size) := by
  induction chunks with
  | nil => exact Runs.pure rfl
  | cons _ _ ih =>
    obtain ⟨here, later⟩ := forall_mem_cons.mp inside
    refine Runs.bind (readAt_runs here _) ?_
    rintro _ rfl
    refine Runs.bind (ih later) ?_
    intro others lengths
    apply Runs.pure
    rw [map_cons, map_cons, length_span, lengths]

theorem readChunks_inside {sgBuff : List (List Byte)}
    (done : readChunks frame chunks = .ok sgBuff) : ChunksInside frame chunks := by
  induction chunks generalizing sgBuff with
  | nil => exact fun _ mem => nomatch mem
  | cons chunk rest ih =>
    rw [readChunks, readSpan, readAt] at done
    split at done
    · rename_i here
      cases others : readChunks frame rest with
      | error e =>
        rw [others] at done
        cases done
      | ok => exact forall_mem_cons.mpr ⟨here, ih others⟩
    · cases done

/-- Headers and addresses are in the frame, and the hash does not read anything else, whatever is
enabled. -/
structure InfoInside (frame : List Byte) (info : NetPacketInfo) : Prop where
  headers : info.l2HdrLen + info.l3HdrLen ≤ frame.length
  home : info.ip6HomeAddrOffset ≠ 0 → info.ip6HomeAddrOffset + 16 ≤ frame.length
  dest : info.ip6DestAddrOffset ≠ 0 → info.ip6DestAddrOffset + 16 ≤ frame.length
  hashed : ∀ enabled types key, ∃ hash,
    rssAnalyzeReceivedPacket info frame enabled types key = .ok hash

/-- Headers, addresses and all that is hashed under some setting are in the frame if and only if the
headers and the ports are. -/
theorem infoInside_iff (known : InfoKnown info) : InfoInside frame info ↔ FrameFits frame info := by
  constructor
  · rintro ⟨headers, -, -, hashed⟩
    refine ⟨headers, fun upper => ?_⟩
    obtain ⟨types, type, chunks, picked, mem⟩ := rssChunks_ports known upper
    obtain ⟨hash, ends⟩ := hashed true types testKey
    rw [rssAnalyzeReceivedPacket, if_pos rfl, rssCalcHash, picked] at ends
    cases read : readChunks frame chunks with
    | error e =>
      simp only [read] at ends
      cases ends
    | ok sgBuff => exact readChunks_inside read (ports info) mem
  · intro fits
    have headers := fits.1
    have home := known.home
    have dest := known.dest
    refine ⟨headers, by omega, by omega, fun enabled types key => ?_⟩
    unfold rssAnalyzeReceivedPacket
    split
    swap
    · exact ⟨none, rfl⟩
    unfold rssCalcHash
    split
    · exact ⟨none, rfl⟩
    rename_i picked
    obtain ⟨short, each⟩ := rssChunks_picks picked
    obtain ⟨sgBuff, read, lengths⟩ := readChunks_runs fun chunk mem => by
      rcases each chunk mem with ⟨isIP4, rfl⟩ | ⟨isIP4, isIP6, xEnabled, mem⟩ | ⟨upper, rfl⟩
      · exact ip4Addresses_inside known fits isIP4
      · exact ip6Addresses_inside known fits isIP4 isIP6 xEnabled chunk mem
      · exact fits.2 upper
    rw [← lengths, ← length_flatten] at short
    rw [read]
    dsimp only [bind, Except.bind]
    rw [toeplitzHash_eq key short]
    exact ⟨_, rfl⟩

end Chunks

/-! ## From the device to the hash -/

/-- **Received frames are analysed within their bounds**, whatever the receive-side scaling is set
to, if and only if the device reports no less than the virtio header and the frame is regular.  A
virtio header has at most 20 bytes. -/
theorem received_within_bounds {frame : List Byte} {nFullLength nVirtioHeaderSize fuel : Nat}
    (real : frame.length = nFullLength - nVirtioHeaderSize) (header : nVirtioHeaderSize ≤ 20)
    (buffer : frame.length < 2 ^ 31) (enough : frame.length < 8 * fuel) :
    (∃ result, analyzeReceivedPacket frame fuel
        (receivedDataLength nFullLength nVirtioHeaderSize) = .ok result ∧
      ∀ info ∈ result, InfoInside frame info) ↔
    nVirtioHeaderSize ≤ nFullLength ∧ FrameRegular frame := by
  by_cases reported : nVirtioHeaderSize ≤ nFullLength
  · have told : receivedDataLength nFullLength nVirtioHeaderSize = frame.length := by
      unfold receivedDataLength
      omega
    rw [told, and_iff_right reported]
    exact analyzeReceivedPacket_iff (fun _ => infoInside_iff) buffer enough
  · refine iff_of_false ?_ fun regular => reported regular.1
    -- the length wraps around, and there is no byte of a destination address
    have told : ¬ receivedDataLength nFullLength nVirtioHeaderSize < 14 := by
      unfold receivedDataLength
      omega
    have outside : readSpan frame 0 6 = .error .outside := if_neg (by omega)
    rintro ⟨result, ends, -⟩
    rw [analyzeReceivedPacket, analyzeL2Hdr, if_neg told, outside] at ends
    cases ends

/-- An IPv6 frame up to the extension headers, for TCP behind a header of type `nextHdr`. -/
def ip6Frame (nextHdr : Byte) (rest : List Byte) : List Byte :=
  [2, 0, 0, 0, 0, 1, 2, 0, 0, 0, 0, 2, 0x86, 0xDD] ++ [0x60, 0, 0, 0, 0, 44, nextHdr, 64] ++
    List.replicate 16 1 ++ List.replicate 16 2 ++ rest

/-- Destination options with a home address, in the places where the driver looks for them, and the
start of a TCP header. -/
def mobileFrame : List Byte :=
  ip6Frame 60 ([6, 2, 0, 0, 201, 16] ++ List.replicate 16 3 ++ [0, 0] ++ List.replicate 20 4)

theorem received_within_bounds_mobile :
    (analyzeReceivedPacket mobileFrame 16 (receivedDataLength 110 12)).toOption.join.map
        (fun info => (info.l2HdrLen + info.l3HdrLen, info.ip6HomeAddrOffset)) = some (78, 60) ∧
      ∃ result, analyzeReceivedPacket mobileFrame 16 (receivedDataLength 110 12) = .ok result ∧
        ∀ info ∈ result, InfoInside mobileFrame info := by
  refine ⟨by decide +kernel, ?_⟩
  have chain {nextHdr offset : Nat} (onChain : OnChain (l3Byte mobileFrame) 84 nextHdr offset) :
      nextHdr = 60 ∧ offset = 40 ∨ nextHdr = 6 ∧ offset = 64 := by
    induction onChain with
    | first => exact Or.inl ⟨by decide, rfl⟩
    | next _ steps ih =>
      rcases ih with ⟨rfl, rfl⟩ | ⟨rfl, rfl⟩
      · exact Or.inr ⟨by decide, by decide⟩
      · exact absurd steps.walked (by decide)
  have regular : FrameRegular mobileFrame := by
    refine fun _ => ⟨(absurd · (by decide)), fun _ => ⟨by decide, fun _ _ => ⟨?_, ?_⟩⟩⟩
    · intro nextHdr offset onChain destination _
      rcases chain onChain with ⟨rfl, rfl⟩ | ⟨rfl, rfl⟩
      · exact optionsInside_of_le (by decide)
      · exact absurd destination (by decide)
    · intro nextHdr offset onChain upper _
      rcases chain onChain with ⟨rfl, rfl⟩ | ⟨rfl, rfl⟩
      · exact absurd upper (by decide)
      · decide
  exact (received_within_bounds (by decide) (by decide) (by decide) (by decide)).mpr
    ⟨by decide, regular⟩

/-- A type 2 routing header of which only the first four bytes are there. -/
def cutOffFrame : List Byte := ip6Frame 43 [6, 2, 2, 1]

/-- Three ways out of the frame.  If the device reports less than the virtio header, the length
wraps around and the analysis reads a frame of no bytes; of a frame that says IPv6 and ends there,
it reads the version; and a cut off header is taken for whole, so that the end of the headers and
the address in it are outside, where the hash then reads. -/
theorem cutOff_out_of_bounds :
    analyzeReceivedPacket [] 1 (receivedDataLength 10 12) = .error .outside ∧
      analyzeReceivedPacket ((ip6Frame 6 []).take 14) 2 14 = .error .outside ∧
      cutOffFrame.length = 58 ∧
      ∃ info, analyzeReceivedPacket cutOffFrame 8 58 = .ok (some info) ∧
        info.l2HdrLen + info.l3HdrLen = 78 ∧ info.ip6DestAddrOffset = 62 ∧
        rssAnalyzeReceivedPacket info cutOffFrame true
          ⟨false, false, false, false, true, false, false, false, false⟩ testKey =
            .error .outside := by
  refine ⟨by decide +kernel, by decide +kernel, by decide, {
    dataLength := 58
    isUnicast := true
    isIP6 := true
    isTCP := true
    l2HdrLen := 14
    l3HdrLen := 64
    l2PayloadLen := 44
    ip6DestAddrOffset := 62 }, ?_⟩
  decide +kernel

end KvmGuestDrivers.NetKvm

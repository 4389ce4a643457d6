/-
# NetKvm.RxAnalyze -- the headers of a received frame

`ParaNdis_AnalyzeReceivedPacket` goes through the Ethernet, IPv4 and IPv6 headers of a frame and
notes down where they are.  Lengths come from the device and from the frame itself.

A frame is the list of its bytes, as many as the device has delivered after the virtio header;
every read is a `readAt` from that list, so that a run without a fault reads nothing else.
-/
import KvmGuestDrivers.NetKvm.PacketReview
import KvmGuestDrivers.Theory.Runs

namespace KvmGuestDrivers.NetKvm

set_option autoImplicit false

open Theory

/-! ## The result -/

/-- `NET_PACKET_INFO`, as far as the analysis of headers goes. -/
structure NetPacketInfo where
  dataLength : Nat
  isBroadcast : Bool := false
  isMulticast : Bool := false
  isUnicast : Bool := false
  hasVlanHeader : Bool := false
  isIP4 : Bool := false
  isIP6 : Bool := false
  isTCP : Bool := false
  isUDP : Bool := false
  isFragment : Bool := false
  userPriority : Nat := 0
  vlanId : Nat := 0
  l2HdrLen : Nat := 0
  l3HdrLen : Nat := 0
  l2PayloadLen : Nat := 0
  ip6HomeAddrOffset : Nat := 0
  ip6DestAddrOffset : Nat := 0
  deriving DecidableEq

/-- What `AnalyzeIP6Hdr` finds out: where the headers end, what follows, and the offsets from the
IPv6 header of the addresses in the extension headers, zero for none. -/
structure Ip6Headers where
  nextHdr : Nat
  hdrLength : Nat
  homeAddrOffset : Nat
  destAddrOffset : Nat

def ip6HdrHopByHop : Nat := 0

def ip6HdrRouting : Nat := 43

def ip6HdrFragment : Nat := 44

def ip6HdrAuthentication : Nat := 51

def ip6HdrDestination : Nat := 60

def ip6HdrMobility : Nat := 135

/-! ## The functions -/

section Functions

variable (frame : List Byte)

def analyzeL3Proto (l3Proto : Nat) (info : NetPacketInfo) : NetPacketInfo :=
  { info with
    isIP4 := decide (l3Proto = swapShort 0x0800)
    isIP6 := decide (l3Proto = swapShort 0x86DD) }

def classifyAddress (dstAddr : List Byte) (info : NetPacketInfo) : NetPacketInfo :=
  if dstAddr = List.replicate 6 0xFF then { info with isBroadcast := true }
  else if (dstAddr.headD 0).toNat &&& 1 ≠ 0 then { info with isMulticast := true }
  else { info with isUnicast := true }

/-- `none` is `FALSE`. -/
def analyzeL2Hdr (info : NetPacketInfo) : Except ReadFault (Option NetPacketInfo) :=
  if info.dataLength < 14 then pure none
  else do
    let dstAddr ← readSpan frame 0 6
    let ethType ← readShort frame 12
    let info := classifyAddress dstAddr info
    if ethType = swapShort 0x8100 then
      if info.dataLength < 18 then pure none
      else do
        let first ← readByte frame 14
        let second ← readByte frame 15
        let ethType ← readShort frame 16
        pure (some (analyzeL3Proto ethType { info with
          hasVlanHeader := true
          userPriority := (first &&& 0xE0) >>> 5
          vlanId := (first &&& 0x0F) <<< 8 ||| second
          l2HdrLen := 18
          l2PayloadLen := info.dataLength - 18 }))
    else
      pure (some (analyzeL3Proto ethType { info with
        l2HdrLen := 14
        l2PayloadLen := info.dataLength - 14 }))

section Ip6

variable (ip6Hdr dataLength : Nat)

/-- What comes after the extension header, and where. -/
def skipIP6ExtensionHeader (ip6HdrLength : Nat) : Except ReadFault (Option (Nat × Nat)) :=
  if dataLength < ip6HdrLength + 4 then pure none
  else do
    let nextHdr ← readByte frame (ip6Hdr + ip6HdrLength)
    let hdrLen ← readByte frame (ip6Hdr + ip6HdrLength + 1)
    pure (some (nextHdr, (ip6HdrLength + (hdrLen + 1) * 8) % 2 ^ 32))

/-- `AnalyzeIP6RoutingExtension` on the header at offset `routingHdr`; the offset of the address,
if there is one. -/
def analyzeIP6RoutingExtension (routingHdr hdrLength : Nat) :
    Except ReadFault (Option (Option Nat)) :=
  if hdrLength < 24 then pure none
  else do
    let routingType ← readByte frame (ip6Hdr + routingHdr + 2)
    if routingType = 2 then
      if hdrLength ≠ 24 then pure none
      else do
        let segmentsLeft ← readByte frame (ip6Hdr + routingHdr + 3)
        if segmentsLeft ≠ 1 then pure none else pure (some (some (routingHdr + 8)))
    else pure (some none)

/-- `while (dataLength != 0)` of `AnalyzeIP6DestinationExtension`. -/
def walkOptions : (fuel optHdr rest : Nat) → Option Nat → Except ReadFault (Option (Option Nat))
  | 0, _, rest, homeAddr => if rest = 0 then pure (some homeAddr) else .error .outOfFuel
  | fuel + 1, optHdr, rest, homeAddr =>
    if rest = 0 then pure (some homeAddr)
    else do
      let type ← readByte frame (ip6Hdr + optHdr)
      if type = 0 then walkOptions fuel (optHdr + 1) (rest - 1) homeAddr
      else if rest < 2 then pure none
      else do
        let length ← readByte frame (ip6Hdr + optHdr + 1)
        if type = 201 ∧ length ≠ 16 then pure none
        else if rest < length + 2 then pure none
        else
          let homeAddr := if type = 201 then some (optHdr + 2) else homeAddr
          walkOptions fuel (optHdr + (length + 2)) (rest - (length + 2)) homeAddr

/-- An option takes at least a byte. -/
def analyzeIP6DestinationExtension (destHdr hdrLength : Nat) :
    Except ReadFault (Option (Option Nat)) :=
  walkOptions frame ip6Hdr hdrLength destHdr hdrLength none

/-- What `AnalyzeIP6Hdr` does at an extension header, after `SkipIP6ExtensionHeader`. -/
def analyzeExtension (headers : Ip6Headers) (nextHdr hdrLength : Nat) :
    Except ReadFault (Option Ip6Headers) :=
  if headers.nextHdr = ip6HdrDestination then do
    let homeAddr ← analyzeIP6DestinationExtension frame ip6Hdr headers.hdrLength
      ((hdrLength + 2 ^ 32 - headers.hdrLength) % 2 ^ 32)
    pure (homeAddr.map fun homeAddr => { headers with
      nextHdr := nextHdr, hdrLength := hdrLength, homeAddrOffset := homeAddr.getD 0 })
  else if headers.nextHdr = ip6HdrRouting then do
    let destAddr ← analyzeIP6RoutingExtension frame ip6Hdr headers.hdrLength
      ((hdrLength + 2 ^ 32 - headers.hdrLength) % 2 ^ 32)
    pure (destAddr.map fun destAddr => { headers with
      nextHdr := nextHdr, hdrLength := hdrLength, destAddrOffset := destAddr.getD 0 })
  else pure (some { headers with nextHdr := nextHdr, hdrLength := hdrLength })

/-- The extension headers of the `switch`. -/
def walkedHeaders : List Nat :=
  [ip6HdrHopByHop, ip6HdrRouting, ip6HdrAuthentication, ip6HdrDestination, ip6HdrMobility]

/-- `for (;;)` of `AnalyzeIP6Hdr`. -/
def analyzeIP6Loop : (fuel : Nat) → Ip6Headers → Except ReadFault (Option Ip6Headers)
  | 0, _ => .error .outOfFuel
  | fuel + 1, headers =>
    if headers.nextHdr ∈ walkedHeaders then do
      let skipped ← skipIP6ExtensionHeader frame ip6Hdr dataLength headers.hdrLength
      match skipped with
      | none => pure none
      | some (nextHdr, hdrLength) => do
        let next ← analyzeExtension frame ip6Hdr headers nextHdr hdrLength
        match next with
        | none => pure none
        | some next => analyzeIP6Loop fuel next
    else pure (some headers)

def analyzeIP6Hdr (fuel : Nat) : Except ReadFault (Option Ip6Headers) :=
  if dataLength < 40 then pure none
  else do
    let nextHdr ← readByte frame (ip6Hdr + 6)
    analyzeIP6Loop frame ip6Hdr dataLength fuel ⟨nextHdr, 40, 0, 0⟩

end Ip6

def analyzeL4Proto (l4Protocol : Nat) (info : NetPacketInfo) : NetPacketInfo :=
  { info with
    isTCP := decide (l4Protocol = protocolTCP)
    isUDP := decide (l4Protocol = protocolUDP) }

def analyzeIP4 (info : NetPacketInfo) : Except ReadFault (Option NetPacketInfo) :=
  if info.dataLength < info.l2HdrLen + 20 then pure none
  else do
    let verlen ← readByte frame info.l2HdrLen
    let l3HdrLen := (verlen &&& 0x0F) <<< 2
    if l3HdrLen < 20 ∨ info.dataLength < info.l2HdrLen + l3HdrLen then pure none
    else if (verlen &&& 0xF0) >>> 4 ≠ 4 then pure none
    else do
      let offset ← readShort frame (info.l2HdrLen + 6)
      let info := { info with
        l3HdrLen := l3HdrLen
        isFragment := decide (offset &&& 0xFF3F ≠ 0) }
      if info.isFragment = true then pure (some info)
      else do
        let protocol ← readByte frame (info.l2HdrLen + 9)
        pure (some (analyzeL4Proto protocol info))

/-- What the headers of an IPv6 packet say; offsets are from the start of the frame. -/
def noteIP6Headers (headers : Ip6Headers) (info : NetPacketInfo) : NetPacketInfo :=
  { info with
    l3HdrLen := headers.hdrLength
    ip6HomeAddrOffset :=
      if headers.homeAddrOffset ≠ 0 then info.l2HdrLen + headers.homeAddrOffset else 0
    ip6DestAddrOffset :=
      if headers.destAddrOffset ≠ 0 then info.l2HdrLen + headers.destAddrOffset else 0
    isFragment := decide (headers.nextHdr = ip6HdrFragment) }

/-- The version is looked at before the length is. -/
def analyzeIP6 (fuel : Nat) (info : NetPacketInfo) : Except ReadFault (Option NetPacketInfo) := do
  let verTc ← readByte frame info.l2HdrLen
  if (verTc &&& 0xF0) >>> 4 ≠ 6 then pure none
  else do
    let found ← analyzeIP6Hdr frame info.l2HdrLen info.l2PayloadLen fuel
    match found with
    | none => pure none
    | some headers =>
      if 252 < headers.hdrLength then pure none
      else if (noteIP6Headers headers info).isFragment = true then
        pure (some (noteIP6Headers headers info))
      else pure (some (analyzeL4Proto headers.nextHdr (noteIP6Headers headers info)))

def analyzeL3Hdr (fuel : Nat) (info : NetPacketInfo) : Except ReadFault (Option NetPacketInfo) :=
  if info.isIP4 = true then analyzeIP4 frame info
  else if info.isIP6 = true then analyzeIP6 frame fuel info
  else pure (some info)

def analyzeReceivedPacket (fuel dataLength : Nat) : Except ReadFault (Option NetPacketInfo) := do
  let l2 ← analyzeL2Hdr frame { dataLength := dataLength }
  match l2 with
  | none => pure none
  | some info => analyzeL3Hdr frame fuel info

end Functions

/-- The length that `ProcessRxRing` hands on: what the device reports, less the virtio header, in
unsigned arithmetic. -/
def receivedDataLength (nFullLength nVirtioHeaderSize : Nat) : Nat :=
  (nFullLength + 2 ^ 32 - nVirtioHeaderSize) % 2 ^ 32

variable {fuel : Nat}

/-! ## Options -/

section Options

-- the bytes from the IPv6 header on, of which `dataLength` are in the frame
variable (ip6 : Nat → Nat) (dataLength : Nat)

/-- The option behind one, with the bytes from there on; none at the end, or where the header is
refused. -/
def nextOption : Nat × Nat → Option (Nat × Nat)
  | (optHdr, rest) =>
    if rest = 0 then none
    else if ip6 optHdr = 0 then some (optHdr + 1, rest - 1)
    else if rest < 2 ∨ (ip6 optHdr = 201 ∧ ip6 (optHdr + 1) ≠ 16) ∨
        rest < ip6 (optHdr + 1) + 2 then none
    else some (optHdr + (ip6 (optHdr + 1) + 2), rest - (ip6 (optHdr + 1) + 2))

/-- What the walk looks at of an option is in the frame. -/
def OptionInside : Nat × Nat → Prop
  | (optHdr, rest) => rest ≠ 0 → optHdr < dataLength ∧
      (ip6 optHdr ≠ 0 → 2 ≤ rest → optHdr + 1 < dataLength)

def OnOptions : Nat × Nat → Nat × Nat → Prop :=
  Relation.ReflTransGen fun o next => nextOption ip6 o = some next

variable (optHdr rest : Nat)

def OptionsInside : Prop := ∀ o, OnOptions ip6 (optHdr, rest) o → OptionInside ip6 dataLength o

def OptionsWhole : Prop := OnOptions ip6 (optHdr, rest) (optHdr + rest, 0)

variable {ip6 dataLength optHdr rest}

theorem options_stop (stops : nextOption ip6 (optHdr, rest) = none) :
    (OptionsInside ip6 dataLength optHdr rest ↔ OptionInside ip6 dataLength (optHdr, rest)) ∧
      (OptionsWhole ip6 optHdr rest ↔ rest = 0) := by
  have only (o : Nat × Nat) : OnOptions ip6 (optHdr, rest) o ↔ (optHdr, rest) = o := by
    rw [OnOptions, Relation.ReflTransGen.cases_head_iff]
    simp [stops]
  constructor
  · simp [OptionsInside, only]
  · simp [OptionsWhole, only]

theorem options_next {next : Nat × Nat}
    (goes : nextOption ip6 (optHdr, rest) = some next)
    (same : next.1 + next.2 = optHdr + rest) (more : rest ≠ 0) :
    (OptionsInside ip6 dataLength optHdr rest ↔
      OptionInside ip6 dataLength (optHdr, rest) ∧ OptionsInside ip6 dataLength next.1 next.2) ∧
      (OptionsWhole ip6 optHdr rest ↔ OptionsWhole ip6 next.1 next.2) := by
  have either (o : Nat × Nat) : OnOptions ip6 (optHdr, rest) o ↔
      (optHdr, rest) = o ∨ OnOptions ip6 next o := by
    rw [OnOptions, Relation.ReflTransGen.cases_head_iff]
    simp [goes]
  constructor
  · simp only [OptionsInside, either, or_imp, forall_and, forall_eq']
  · simp [OptionsWhole, either, same, more]

/-- The next option is behind this one, and behind the address in it. -/
theorem nextOption_some {next : Nat × Nat}
    (goes : nextOption ip6 (optHdr, rest) = some next) :
    next.1 + next.2 = optHdr + rest ∧ next.2 < rest ∧
      (ip6 optHdr = 201 → optHdr + 2 + 16 ≤ next.1 + next.2) := by
  simp only [nextOption] at goes
  split_ifs at goes <;> cases goes <;> dsimp only <;> omega

/-- The options of a header that is there as a whole are inside. -/
theorem optionsInside_of_le (whole : optHdr + rest ≤ dataLength) :
    OptionsInside ip6 dataLength optHdr rest := by
  intro o onOptions
  have same : o.1 + o.2 = optHdr + rest := by
    induction onOptions with
    | refl => rfl
    | tail _ goes ih => exact (nextOption_some goes).1.trans ih
  exact fun more => ⟨by omega, fun _ _ => by omega⟩

/-- `ip6` are the bytes from `ip6Hdr` on. -/
structure PacketAt (frame : List Byte) (ip6Hdr dataLength : Nat) (ip6 : Nat → Nat) : Prop where
  read : ∀ i, readByte frame (ip6Hdr + i) = if i < dataLength then .ok (ip6 i) else .error .outside
  byte : ∀ i, ip6 i < 256

variable {frame : List Byte} {ip6Hdr : Nat} (packet : PacketAt frame ip6Hdr dataLength ip6)
  {homeAddr : Option Nat}

section Turn

variable (more : rest ≠ 0)

include packet more

theorem walkOptions_turn (inside : OptionInside ip6 dataLength (optHdr, rest)) :
    walkOptions frame ip6Hdr (fuel + 1) optHdr rest homeAddr =
      match nextOption ip6 (optHdr, rest) with
      | none => .ok none
      | some next => walkOptions frame ip6Hdr fuel next.1 next.2
          (if ip6 optHdr = 201 then some (optHdr + 2) else homeAddr) := by
  obtain ⟨there, length⟩ := inside more
  rw [walkOptions, if_neg more, packet.read, if_pos there]
  simp only [nextOption, if_neg more, bind, Except.bind]
  by_cases pad : ip6 optHdr = 0
  · simp [pad]
  simp only [if_neg pad]
  by_cases few : rest < 2
  · rw [if_pos few, if_pos (.inl few)]
    rfl
  rw [if_neg few, Nat.add_assoc, packet.read, if_pos (length pad (Nat.not_lt.mp few))]
  dsimp only
  split_ifs <;> first | rfl | omega

theorem walkOptions_outside (outside : ¬ OptionInside ip6 dataLength (optHdr, rest)) :
    walkOptions frame ip6Hdr (fuel + 1) optHdr rest homeAddr = .error .outside := by
  rw [walkOptions, if_neg more, packet.read]
  by_cases there : optHdr < dataLength
  swap
  · rw [if_neg there]
    rfl
  rw [if_pos there]
  change (if ip6 optHdr = 0 then _ else if rest < 2 then _ else _) = _
  have beyond : ip6 optHdr ≠ 0 ∧ ¬ rest < 2 ∧ ¬ optHdr + 1 < dataLength := by
    unfold OptionInside at outside
    omega
  rw [if_neg beyond.1, if_neg beyond.2.1, Nat.add_assoc, packet.read, if_neg beyond.2.2]
  rfl

end Turn

theorem walkOptions_done (fits : ∀ home ∈ homeAddr, home + 16 ≤ optHdr + 0) :
    OptionsInside ip6 dataLength optHdr 0 ∧
      ∃ result, walkOptions frame ip6Hdr fuel optHdr 0 homeAddr = .ok result ∧
        (result.isSome = true ↔ OptionsWhole ip6 optHdr 0) ∧
        ∀ found ∈ result, ∀ home ∈ found, home + 16 ≤ optHdr + 0 := by
  refine ⟨(options_stop rfl).1.mpr nofun, some homeAddr, ?_, iff_of_true rfl .refl, ?_⟩
  · cases fuel <;> rfl
  · rintro _ ⟨⟩
    exact fits

include packet

/-- The walk over the options leaves the frame, or it is whole and refuses what it should. -/
theorem walkOptions_cases (enough : rest ≤ fuel)
    (fits : ∀ home ∈ homeAddr, home + 16 ≤ optHdr + rest) :
    (¬ OptionsInside ip6 dataLength optHdr rest ∧
      ∃ e, walkOptions frame ip6Hdr fuel optHdr rest homeAddr = .error e) ∨
    (OptionsInside ip6 dataLength optHdr rest ∧
      ∃ result, walkOptions frame ip6Hdr fuel optHdr rest homeAddr = .ok result ∧
        (result.isSome = true ↔ OptionsWhole ip6 optHdr rest) ∧
        ∀ found ∈ result, ∀ home ∈ found, home + 16 ≤ optHdr + rest) := by
  induction fuel generalizing optHdr rest homeAddr with
  | zero =>
    obtain rfl : rest = 0 := Nat.le_zero.mp enough
    exact .inr (walkOptions_done fits)
  | succ fuel ih =>
    by_cases more : rest = 0
    · subst more
      exact .inr (walkOptions_done fits)
    by_cases inside : OptionInside ip6 dataLength (optHdr, rest)
    swap
    · exact .inl ⟨fun all => inside (all _ .refl), _, walkOptions_outside packet more inside⟩
    rw [walkOptions_turn packet more inside]
    cases goes : nextOption ip6 (optHdr, rest) with
    | none =>
      obtain ⟨all, whole⟩ := options_stop goes
      exact .inr ⟨all.mpr inside, none, rfl, by simp [whole, more], nofun⟩
    | some next =>
      obtain ⟨same, less, address⟩ := nextOption_some goes
      obtain ⟨all, whole⟩ := options_next goes same more
      rw [all, and_iff_right inside, whole, ← same]
      refine ih (by omega) fun home found => ?_
      split at found
      · rename_i type
        cases found
        exact address type
      · rw [same]
        exact fits home found

theorem destination_cases (destHdr : Nat) {hdrLength : Nat} :
    (¬ OptionsInside ip6 dataLength destHdr hdrLength ∧
      ∃ e, analyzeIP6DestinationExtension frame ip6Hdr destHdr hdrLength = .error e) ∨
    (OptionsInside ip6 dataLength destHdr hdrLength ∧
      ∃ result, analyzeIP6DestinationExtension frame ip6Hdr destHdr hdrLength = .ok result ∧
        (result.isSome = true ↔ OptionsWhole ip6 destHdr hdrLength) ∧
        ∀ found ∈ result, ∀ home ∈ found, home + 16 ≤ destHdr + hdrLength) :=
  walkOptions_cases packet le_rfl nofun

end Options

/-! ## The chain of IPv6 headers -/

section Chain

variable (ip6 : Nat → Nat) (dataLength : Nat)

/-- The length of the extension header at an offset, as it says itself. -/
def extensionLength (offset : Nat) : Nat := (ip6 (offset + 1) + 1) * 8

def RoutingAccepted (offset : Nat) : Prop :=
  24 ≤ extensionLength ip6 offset ∧
    (ip6 (offset + 2) = 2 → extensionLength ip6 offset = 24 ∧ ip6 (offset + 3) = 1)

/-- The walk goes on behind a header. -/
structure StepsOn (nextHdr offset : Nat) : Prop where
  walked : nextHdr ∈ walkedHeaders
  there : offset + 4 ≤ dataLength
  options : nextHdr = ip6HdrDestination → OptionsWhole ip6 offset (extensionLength ip6 offset)
  routing : nextHdr = ip6HdrRouting → RoutingAccepted ip6 offset

/-- The headers that the walk comes to. -/
inductive OnChain : (nextHdr offset : Nat) → Prop where
  | first : OnChain (ip6 6) 40
  | next {nextHdr offset} : OnChain nextHdr offset → StepsOn ip6 dataLength nextHdr offset →
      OnChain (ip6 offset) (offset + extensionLength ip6 offset)

/-- What the walk looks at of a header is in the frame. -/
def HeaderSafe (nextHdr offset : Nat) : Prop :=
  nextHdr = ip6HdrDestination → offset + 4 ≤ dataLength →
    OptionsInside ip6 dataLength offset (extensionLength ip6 offset)

def ChainSafe : Prop := ∀ nextHdr offset, OnChain ip6 dataLength nextHdr offset →
  HeaderSafe ip6 dataLength nextHdr offset

/-- The walk stays in the frame, and where it ends at a supported offset, that is in the data, with
the ports of TCP and UDP behind it. -/
structure ChainRegular : Prop where
  safe : ChainSafe ip6 dataLength
  last : ∀ nextHdr offset, OnChain ip6 dataLength nextHdr offset →
    nextHdr ∉ walkedHeaders → offset ≤ 252 → offset ≤ dataLength ∧
      (nextHdr = protocolTCP ∨ nextHdr = protocolUDP → offset + 4 ≤ dataLength)

/-- The addresses found are in front of the end of the headers. -/
structure HeadersFit (headers : Ip6Headers) : Prop where
  low : 40 ≤ headers.hdrLength
  home : headers.homeAddrOffset = 0 ∨ headers.homeAddrOffset + 16 ≤ headers.hdrLength
  dest : headers.destAddrOffset = 0 ∨ headers.destAddrOffset + 16 ≤ headers.hdrLength

/-- What the walk finds at its end. -/
structure ChainEnd (headers : Ip6Headers) : Prop where
  onChain : OnChain ip6 dataLength headers.nextHdr headers.hdrLength
  upper : headers.nextHdr ∉ walkedHeaders
  fits : HeadersFit headers

def Ip6Headers.past (headers : Ip6Headers) (homeAddr destAddr : Nat) : Ip6Headers :=
  ⟨ip6 headers.hdrLength, headers.hdrLength + extensionLength ip6 headers.hdrLength,
    homeAddr, destAddr⟩

/-- What a turn of the walk does at a header; `more` is what it does behind it. -/
inductive HeaderTurn (headers : Ip6Headers)
    (more : Ip6Headers → Except ReadFault (Option Ip6Headers)) :
    Except ReadFault (Option Ip6Headers) → Prop where
  | done (upper : headers.nextHdr ∉ walkedHeaders) : HeaderTurn headers more (.ok (some headers))
  | refused (walked : headers.nextHdr ∈ walkedHeaders)
      (safe : HeaderSafe ip6 dataLength headers.nextHdr headers.hdrLength)
      (stops : ¬ StepsOn ip6 dataLength headers.nextHdr headers.hdrLength) :
      HeaderTurn headers more (.ok none)
  | fault (e : ReadFault)
      (outside : ¬ HeaderSafe ip6 dataLength headers.nextHdr headers.hdrLength) :
      HeaderTurn headers more (.error e)
  | on (homeAddr destAddr : Nat)
      (safe : HeaderSafe ip6 dataLength headers.nextHdr headers.hdrLength)
      (steps : StepsOn ip6 dataLength headers.nextHdr headers.hdrLength)
      (fits : HeadersFit headers → HeadersFit (headers.past ip6 homeAddr destAddr)) :
      HeaderTurn headers more (more (headers.past ip6 homeAddr destAddr))

/-- The walk ends, and at the end of the chain if it is not refused. -/
def ReachesEnd (walk : Except ReadFault (Option Ip6Headers)) : Prop :=
  Runs walk fun found => ∀ headers ∈ found, ChainEnd ip6 dataLength headers

variable {ip6 dataLength} {headers : Ip6Headers}
  {more : Ip6Headers → Except ReadFault (Option Ip6Headers)}

/-- A turn in the frame, if there is nothing wrong behind the header. -/
theorem HeaderTurn.runs {outcome : Except ReadFault (Option Ip6Headers)}
    (turn : HeaderTurn ip6 dataLength headers more outcome) (safe : ChainSafe ip6 dataLength)
    (onChain : OnChain ip6 dataLength headers.nextHdr headers.hdrLength) (fits : HeadersFit headers)
    (behind : ∀ homeAddr destAddr, StepsOn ip6 dataLength headers.nextHdr headers.hdrLength →
      HeadersFit (headers.past ip6 homeAddr destAddr) →
      ReachesEnd ip6 dataLength (more (headers.past ip6 homeAddr destAddr))) :
    ReachesEnd ip6 dataLength outcome := by
  cases turn with
  | done upper =>
    refine Runs.pure ?_
    rintro _ ⟨⟩
    exact ⟨onChain, upper, fits⟩
  | refused => exact Runs.pure nofun
  | fault _ outside => exact absurd (safe _ _ onChain) outside
  | on homeAddr destAddr _ steps later => exact behind homeAddr destAddr steps (later fits)

section Turn

variable {result : Option Ip6Headers} (turn : HeaderTurn ip6 dataLength headers more (.ok result))

include turn

theorem HeaderTurn.safe : HeaderSafe ip6 dataLength headers.nextHdr headers.hdrLength := by
  generalize outcome : Except.ok result = r at turn
  cases turn with
  | done upper =>
    refine fun destination => absurd ?_ upper
    rw [destination]
    decide
  | refused _ safe | on _ _ safe => exact safe
  | fault => cases outcome

theorem HeaderTurn.ends (upper : headers.nextHdr ∉ walkedHeaders) : result = some headers := by
  generalize outcome : Except.ok result = r at turn
  cases turn with
  | done => exact Except.ok.inj outcome
  | refused walked => exact absurd walked upper
  | fault => cases outcome
  | on _ _ _ steps => exact absurd steps.walked upper

end Turn

end Chain

section Walk

variable {frame : List Byte} {ip6Hdr dataLength : Nat} {ip6 : Nat → Nat}
  (packet : PacketAt frame ip6Hdr dataLength ip6) (short : dataLength < 2 ^ 31)

include packet short

theorem skipIP6ExtensionHeader_eq (offset : Nat) :
    skipIP6ExtensionHeader frame ip6Hdr dataLength offset =
      .ok (if offset + 4 ≤ dataLength then some (ip6 offset,
        offset + extensionLength ip6 offset) else none) := by
  unfold skipIP6ExtensionHeader
  by_cases there : offset + 4 ≤ dataLength
  · have byte := packet.byte (offset + 1)
    rw [if_neg (by omega), if_pos there, Nat.add_assoc, packet.read, packet.read,
      if_pos (by omega), if_pos (by omega)]
    refine congrArg (fun stop => Except.ok (some (_, stop))) (Nat.mod_eq_of_lt ?_)
    omega
  · rw [if_pos (by omega), if_neg there]
    rfl

omit short in
theorem analyzeIP6RoutingExtension_cases {routingHdr : Nat} (there : routingHdr + 4 ≤ dataLength)
    (hdrLength : Nat) (is : extensionLength ip6 routingHdr = hdrLength) :
    (RoutingAccepted ip6 routingHdr ∧ ∃ destAddr,
      analyzeIP6RoutingExtension frame ip6Hdr routingHdr hdrLength = .ok (some destAddr) ∧
        ∀ dest ∈ destAddr, dest + 16 ≤ routingHdr + hdrLength) ∨
    (¬ RoutingAccepted ip6 routingHdr ∧
      analyzeIP6RoutingExtension frame ip6Hdr routingHdr hdrLength = .ok none) := by
  rw [RoutingAccepted, is]
  have result : analyzeIP6RoutingExtension frame ip6Hdr routingHdr hdrLength =
      .ok (if hdrLength < 24 then none
        else if ip6 (routingHdr + 2) = 2 then
          if hdrLength ≠ 24 ∨ ip6 (routingHdr + 3) ≠ 1 then none
          else some (some (routingHdr + 8))
        else some none) := by
    unfold analyzeIP6RoutingExtension
    have read {i : Nat} (low : i < 4) : readByte frame (ip6Hdr + routingHdr + i) =
        .ok (ip6 (routingHdr + i)) := by
      rw [Nat.add_assoc, packet.read, if_pos (by omega)]
    rw [read (by decide), read (by decide)]
    dsimp only [bind, Except.bind]
    split_ifs <;> first | rfl | omega
  rw [result]
  split_ifs with few type wrong
  · exact .inr ⟨by omega, rfl⟩
  · exact .inr ⟨by omega, rfl⟩
  · refine .inl ⟨by omega, _, rfl, ?_⟩
    rintro _ ⟨⟩
    omega
  · exact .inl ⟨by omega, _, rfl, nofun⟩

omit short in
theorem extensionLength_eq (offset : Nat) :
    (offset + extensionLength ip6 offset + 2 ^ 32 - offset) % 2 ^ 32 =
      extensionLength ip6 offset := by
  have byte := packet.byte (offset + 1)
  unfold extensionLength
  omega

omit packet short in
theorem getD_fits {found : Option Nat} {stop : Nat}
    (fits : ∀ address ∈ found, address + 16 ≤ stop) :
    found.getD 0 = 0 ∨ found.getD 0 + 16 ≤ stop := by
  cases found with
  | none => exact Or.inl rfl
  | some address => exact Or.inr (fits address rfl)

/-- What a turn of the walk does at a header. -/
theorem analyzeIP6Loop_turn (headers : Ip6Headers) :
    HeaderTurn ip6 dataLength headers (analyzeIP6Loop frame ip6Hdr dataLength fuel)
      (analyzeIP6Loop frame ip6Hdr dataLength (fuel + 1) headers) := by
  rw [analyzeIP6Loop]
  split
  swap
  · exact .done ‹_›
  rename_i walked
  rw [skipIP6ExtensionHeader_eq packet short]
  by_cases there : headers.hdrLength + 4 ≤ dataLength
  swap
  · rw [if_neg there]
    exact .refused walked (fun _ reached => absurd reached there) fun steps => there steps.there
  rw [if_pos there]
  show HeaderTurn _ _ _ _ (analyzeExtension frame ip6Hdr headers _ _ >>= _)
  -- the addresses found before are in front of the new end, too
  have past {homeAddr destAddr : Nat} (fits : HeadersFit headers)
      (home : homeAddr = headers.homeAddrOffset ∨ homeAddr = 0 ∨
        homeAddr + 16 ≤ headers.hdrLength + extensionLength ip6 headers.hdrLength)
      (dest : destAddr = headers.destAddrOffset ∨ destAddr = 0 ∨
        destAddr + 16 ≤ headers.hdrLength + extensionLength ip6 headers.hdrLength) :
      HeadersFit (headers.past ip6 homeAddr destAddr) := by
    obtain ⟨low, oldHome, oldDest⟩ := fits
    exact ⟨Nat.le_add_right_of_le low, by dsimp only [Ip6Headers.past]; omega,
      by dsimp only [Ip6Headers.past]; omega⟩
  unfold analyzeExtension
  rw [extensionLength_eq packet]
  split
  · rename_i destination
    have routing : headers.nextHdr ≠ ip6HdrRouting := by rw [destination]; decide
    rcases destination_cases packet headers.hdrLength with
      ⟨outside, e, fault⟩ | ⟨inside, result, is, whole, address⟩
    · rw [fault]
      exact .fault e fun safe => outside (safe destination there)
    rw [is]
    cases result with
    | none =>
      refine .refused walked (fun _ _ => inside) fun steps => ?_
      cases whole.mpr (steps.options destination)
    | some homeAddr =>
      exact .on _ _ (fun _ _ => inside) ⟨walked, there, fun _ => whole.mp rfl, (absurd · routing)⟩
        fun fits => past fits (.inr (getD_fits (address _ rfl))) (.inl rfl)
  rename_i destination
  have safe : HeaderSafe ip6 dataLength headers.nextHdr headers.hdrLength := (absurd · destination)
  split
  · rename_i routing
    rcases analyzeIP6RoutingExtension_cases packet there _ rfl with
      ⟨accepted, destAddr, is, address⟩ | ⟨refused, is⟩
    · rw [is]
      exact .on _ _ safe ⟨walked, there, (absurd · destination), fun _ => accepted⟩
        fun fits => past fits (.inl rfl) (.inr (getD_fits address))
    · rw [is]
      exact .refused walked safe fun steps => refused (steps.routing routing)
  · rename_i routing
    exact .on _ _ safe ⟨walked, there, (absurd · destination), (absurd · routing)⟩
      fun fits => past fits (.inl rfl) (.inl rfl)

theorem analyzeIP6Loop_runs {headers : Ip6Headers} (safe : ChainSafe ip6 dataLength)
    (onChain : OnChain ip6 dataLength headers.nextHdr headers.hdrLength) (fits : HeadersFit headers)
    (enough : dataLength < headers.hdrLength + 4 + 8 * fuel) :
    ReachesEnd ip6 dataLength (analyzeIP6Loop frame ip6Hdr dataLength (fuel + 1) headers) := by
  induction fuel generalizing headers with
  | zero =>
    refine (analyzeIP6Loop_turn packet short headers).runs safe onChain fits fun _ _ steps => ?_
    have there := steps.there
    omega
  | succ fuel ih =>
    refine (analyzeIP6Loop_turn packet short headers).runs safe onChain fits
      fun _ _ steps later => ih (onChain.next steps) later ?_
    dsimp only [Ip6Headers.past, extensionLength]
    omega

/-- A walk that ends has been at every header of the chain. -/
theorem analyzeIP6Loop_reaches {nextHdr offset : Nat} {result : Option Ip6Headers}
    (ends : analyzeIP6Loop frame ip6Hdr dataLength fuel ⟨ip6 6, 40, 0, 0⟩ = .ok result)
    (onChain : OnChain ip6 dataLength nextHdr offset) :
    ∃ fuel homeAddr destAddr, HeadersFit ⟨nextHdr, offset, homeAddr, destAddr⟩ ∧
      HeaderTurn ip6 dataLength ⟨nextHdr, offset, homeAddr, destAddr⟩
        (analyzeIP6Loop frame ip6Hdr dataLength fuel) (.ok result) := by
  -- a walk with a result has fuel for a turn
  have turns {fuel : Nat} {headers : Ip6Headers}
      (ends : analyzeIP6Loop frame ip6Hdr dataLength fuel headers = .ok result) :
      ∃ fuel, HeaderTurn ip6 dataLength headers
        (analyzeIP6Loop frame ip6Hdr dataLength fuel) (.ok result) := by
    cases fuel with
    | zero => cases ends
    | succ fuel =>
      refine ⟨fuel, ?_⟩
      rw [← ends]
      exact analyzeIP6Loop_turn packet short headers
  induction onChain with
  | first =>
    obtain ⟨fuel, turn⟩ := turns ends
    exact ⟨fuel, 0, 0, ⟨le_rfl, .inl rfl, .inl rfl⟩, turn⟩
  | next _ steps ih =>
    obtain ⟨fuel, homeAddr, destAddr, fits, turn⟩ := ih
    generalize outcome : Except.ok result = r at turn
    cases turn with
    | done upper => exact absurd steps.walked upper
    | refused _ _ stops => exact absurd steps stops
    | fault => cases outcome
    | on homeAddr destAddr _ _ later =>
      obtain ⟨fuel, turn⟩ := turns outcome.symm
      rw [← outcome]
      exact ⟨fuel, homeAddr, destAddr, later fits, turn⟩

end Walk

/-! ## The frame -/

section Frame

variable (frame : List Byte)

def l2Length : Nat := if le16 (memory frame) 12 = swapShort 0x8100 then 18 else 14

/-- The type of what comes after it, as it is in memory. -/
def l3Proto : Nat := le16 (memory frame) (l2Length frame - 2)

/-- What the Ethernet header says. -/
structure L2Found (info : NetPacketInfo) : Prop where
  dataLength : info.dataLength = frame.length
  inside : l2Length frame ≤ frame.length
  l2HdrLen : info.l2HdrLen = l2Length frame
  l2PayloadLen : info.l2PayloadLen = frame.length - l2Length frame
  isIP4 : info.isIP4 = decide (l3Proto frame = swapShort 0x0800)
  isIP6 : info.isIP6 = decide (l3Proto frame = swapShort 0x86DD)
  upper : info.isTCP = false ∧ info.isUDP = false
  l3HdrLen : info.l3HdrLen = 0
  home : info.ip6HomeAddrOffset = 0
  dest : info.ip6DestAddrOffset = 0

/-- What holds of all that the analysis finds; the addresses in extension headers are in front of
the end of the headers. -/
structure InfoKnown (info : NetPacketInfo) : Prop where
  ip4 : info.isIP4 = true → 20 ≤ info.l3HdrLen
  ip6 : info.isIP4 = false → info.isIP6 = true → 40 ≤ info.l3HdrLen
  upper : info.isTCP = true ∨ info.isUDP = true → info.isIP4 = true ∨ info.isIP6 = true
  home : info.ip6HomeAddrOffset = 0 ∨ info.ip6HomeAddrOffset + 16 ≤ info.l2HdrLen + info.l3HdrLen
  dest : info.ip6DestAddrOffset = 0 ∨ info.ip6DestAddrOffset + 16 ≤ info.l2HdrLen + info.l3HdrLen

def FrameFits (info : NetPacketInfo) : Prop :=
  info.l2HdrLen + info.l3HdrLen ≤ frame.length ∧
    (info.isTCP = true ∨ info.isUDP = true → info.l2HdrLen + info.l3HdrLen + 4 ≤ frame.length)

def l3Byte (i : Nat) : Nat := (memory frame (l2Length frame + i)).toNat

def ip4Length : Nat := (l3Byte frame 0 &&& 0x0F) <<< 2

/-- A frame with an IPv4 packet: one that is accepted, is no fragment and is said to be TCP or UDP
has ports. -/
def Ip4Regular : Prop :=
  l2Length frame + 20 ≤ frame.length → 20 ≤ ip4Length frame →
    l2Length frame + ip4Length frame ≤ frame.length → (l3Byte frame 0 &&& 0xF0) >>> 4 = 4 →
    le16 (memory frame) (l2Length frame + 6) &&& 0xFF3F = 0 →
    l3Byte frame 9 = protocolTCP ∨ l3Byte frame 9 = protocolUDP →
    l2Length frame + ip4Length frame + 4 ≤ frame.length

/-- A frame that is said to hold an IPv6 packet holds some of it, and a chain of headers that is
regular, if it is walked along. -/
def Ip6Regular : Prop :=
  l2Length frame < frame.length ∧
    ((l3Byte frame 0 &&& 0xF0) >>> 4 = 6 → 40 ≤ frame.length - l2Length frame →
      ChainRegular (l3Byte frame) (frame.length - l2Length frame))

/-- What the analysis takes for granted of a frame. -/
def FrameRegular : Prop := l2Length frame ≤ frame.length →
  (l3Proto frame = swapShort 0x0800 → Ip4Regular frame) ∧
    (l3Proto frame = swapShort 0x86DD → Ip6Regular frame)

variable {frame}

theorem packetAt (inside : l2Length frame ≤ frame.length) :
    PacketAt frame (l2Length frame) (frame.length - l2Length frame) (l3Byte frame) where
  read i := by
    by_cases there : i < frame.length - l2Length frame
    · rw [if_pos there]
      exact readByte_eq (by omega)
    · rw [if_neg there]
      exact readByte_outside (by omega)
  byte i := (memory frame (l2Length frame + i)).isLt

end Frame

section Analysis

variable {frame : List Byte} {info : NetPacketInfo}

theorem classifyAddress_eq (dstAddr : List Byte) (info : NetPacketInfo) :
    ∃ isBroadcast isMulticast isUnicast, classifyAddress dstAddr info = { info with
      isBroadcast := isBroadcast, isMulticast := isMulticast, isUnicast := isUnicast } := by
  unfold classifyAddress
  split
  · exact ⟨_, _, _, rfl⟩
  · split
    · exact ⟨_, _, _, rfl⟩
    · exact ⟨_, _, _, rfl⟩

theorem analyzeL2Hdr_runs (frame : List Byte) :
    Runs (analyzeL2Hdr frame { dataLength := frame.length }) (fun found =>
      found = none ∧ ¬ l2Length frame ≤ frame.length ∨
        ∃ info, found = some info ∧ L2Found frame info) := by
  unfold analyzeL2Hdr
  split
  · rename_i short
    refine Runs.pure (.inl ⟨rfl, ?_⟩)
    unfold l2Length
    dsimp only at short
    split <;> omega
  rename_i short
  have long : 14 ≤ frame.length := Nat.le_of_not_lt short
  refine Runs.bind (readAt_runs (by omega) _) ?_
  rintro dstAddr -
  refine Runs.bind (readAt_runs (by omega) _) ?_
  rintro _ rfl
  obtain ⟨_, _, _, classified⟩ := classifyAddress_eq dstAddr { dataLength := frame.length }
  dsimp only
  rw [classified]
  split
  · rename_i tagged
    have l2 : l2Length frame = 18 := if_pos tagged
    split
    · rename_i short
      exact Runs.pure (.inl ⟨rfl, by rw [l2]; exact Nat.not_le.mpr short⟩)
    rename_i short
    have long : 18 ≤ frame.length := Nat.le_of_not_lt short
    refine Runs.bind (readAt_runs (by omega) _) ?_
    rintro _ -
    refine Runs.bind (readAt_runs (by omega) _) ?_
    rintro _ -
    refine Runs.bind (readAt_runs (by omega) _) ?_
    rintro _ rfl
    refine Runs.pure (.inr ⟨_, rfl, ?_⟩)
    refine ⟨rfl, by omega, l2.symm, by rw [l2]; rfl, ?_, ?_, ⟨rfl, rfl⟩, rfl, rfl, rfl⟩ <;>
      rw [l3Proto, l2] <;> rfl
  · rename_i untagged
    have l2 : l2Length frame = 14 := if_neg untagged
    refine Runs.pure (.inr ⟨_, rfl, ?_⟩)
    refine ⟨rfl, by omega, l2.symm, by rw [l2]; rfl, ?_, ?_, ⟨rfl, rfl⟩, rfl, rfl, rfl⟩ <;>
      rw [l3Proto, l2] <;> rfl

/-- The analysis ends, and an info is right if there is one. -/
def EndsRight (Q : NetPacketInfo → Prop) (analysis : Except ReadFault (Option NetPacketInfo)) :
    Prop :=
  Runs analysis fun result => ∀ info ∈ result, Q info

section Exact

-- `Q` says that an info is right, in terms of its own
variable {Q : NetPacketInfo → Prop}
  (same : ∀ info, InfoKnown info → (Q info ↔ FrameFits frame info))

omit same in
theorem endsRight_none : EndsRight Q (pure none) := Runs.pure nofun

omit same in
theorem endsRight_some {info : NetPacketInfo} : EndsRight Q (pure (some info)) ↔ Q info := by
  simp [EndsRight, Runs, pure, Except.pure]

variable (found : L2Found frame info)

include same found

theorem analyzeIP4_iff (isIP4 : info.isIP4 = true) :
    EndsRight Q (analyzeIP4 frame info) ↔ Ip4Regular frame := by
  obtain ⟨dataLength, inside, l2HdrLen, _, _, _, upper, _, home, dest⟩ := found
  have read {i : Nat} (there : l2Length frame + i < frame.length) :
      readByte frame (l2Length frame + i) = .ok (l3Byte frame i) := readByte_eq there
  unfold analyzeIP4
  rw [dataLength, l2HdrLen]
  by_cases short : frame.length < l2Length frame + 20
  · rw [if_pos short]
    exact iff_of_true endsRight_none fun long => absurd short (Nat.not_lt.mpr long)
  have first : readByte frame (l2Length frame) = .ok (l3Byte frame 0) := @read 0 (by omega)
  rw [if_neg short, first]
  change EndsRight Q (if ip4Length frame < 20 ∨ frame.length < l2Length frame + ip4Length frame
      then _
    else if (l3Byte frame 0 &&& 0xF0) >>> 4 ≠ 4 then _ else _) ↔ _
  by_cases wrong : ip4Length frame < 20 ∨ frame.length < l2Length frame + ip4Length frame
  · rw [if_pos wrong]
    exact iff_of_true endsRight_none fun _ low high => absurd wrong (by omega)
  rw [if_neg wrong]
  have ends : l2Length frame + ip4Length frame ≤ frame.length := by omega
  by_cases version : (l3Byte frame 0 &&& 0xF0) >>> 4 = 4
  swap
  · rw [if_pos version]
    exact iff_of_true endsRight_none fun _ _ _ is => absurd is version
  have offset : readShort frame (l2Length frame + 6) =
      .ok (le16 (memory frame) (l2Length frame + 6)) := if_pos (by omega)
  rw [if_neg (not_not.mpr version), offset]
  dsimp only [bind, Except.bind]
  rw [read (by omega)]
  have fits (upper : NetPacketInfo) (l3 : upper.l3HdrLen = ip4Length frame)
      (is : upper.isIP4 = true) (home : upper.ip6HomeAddrOffset = 0)
      (dest : upper.ip6DestAddrOffset = 0) : Q upper ↔ FrameFits frame upper :=
    same upper ⟨fun _ => by omega, fun not => absurd (is.symm.trans not) nofun, fun _ => .inl is,
      .inl home, .inl dest⟩
  split
  · rename_i fragment
    have fragment : le16 (memory frame) (l2Length frame + 6) &&& 0xFF3F ≠ 0 :=
      of_decide_eq_true fragment
    rw [endsRight_some, fits]
    · exact iff_of_true ⟨ends, by simp [upper]⟩ fun _ _ _ _ whole => absurd whole fragment
    exacts [rfl, isIP4, home, dest]
  · rename_i whole
    have whole : le16 (memory frame) (l2Length frame + 6) &&& 0xFF3F = 0 := by simpa using whole
    rw [endsRight_some, fits]
    · simp only [FrameFits, analyzeL4Proto, decide_eq_true_eq]
      exact ⟨fun fits _ _ _ _ _ => fits.2, fun regular =>
        ⟨ends, regular (by omega) (by omega) ends version whole⟩⟩
    exacts [rfl, isIP4, home, dest]

section Ip6

variable (isIP4 : info.isIP4 = false) (isIP6 : info.isIP6 = true)

include isIP4 isIP6

/-- What is noted down at the end of the chain. -/
theorem concludeIP6_iff {headers : Ip6Headers} (fits : HeadersFit headers) :
    EndsRight Q (if 252 < headers.hdrLength then pure none
        else if (noteIP6Headers headers info).isFragment = true then
          pure (some (noteIP6Headers headers info))
        else pure (some (analyzeL4Proto headers.nextHdr (noteIP6Headers headers info)))) ↔
      (headers.hdrLength ≤ 252 → headers.hdrLength ≤ frame.length - l2Length frame ∧
        (headers.nextHdr = protocolTCP ∨ headers.nextHdr = protocolUDP →
          headers.hdrLength + 4 ≤ frame.length - l2Length frame)) := by
  obtain ⟨_, inside, l2HdrLen, _, _, _, upper, _, _, _⟩ := found
  by_cases long : 252 < headers.hdrLength
  · rw [if_pos long]
    exact iff_of_true endsRight_none fun few => absurd long (Nat.not_lt.mpr few)
  rw [if_neg long, forall_prop_of_true (Nat.not_lt.mp long)]
  obtain ⟨low, homeFits, destFits⟩ := fits
  have note : InfoKnown (noteIP6Headers headers info) := by
    refine ⟨fun is => absurd (isIP4.symm.trans is) nofun, fun _ _ => low, fun _ => .inr isIP6,
      ?_, ?_⟩
    · dsimp only [noteIP6Headers]
      split <;> omega
    · dsimp only [noteIP6Headers]
      split <;> omega
  split
  · rename_i fragment
    have none : ¬ (headers.nextHdr = protocolTCP ∨ headers.nextHdr = protocolUDP) := by
      rw [show headers.nextHdr = ip6HdrFragment from of_decide_eq_true fragment]
      decide
    rw [endsRight_some, same _ note]
    simp only [FrameFits, noteIP6Headers, upper, none, l2HdrLen, Bool.false_eq_true, or_self,
      false_implies, and_true]
    omega
  · have known : InfoKnown (analyzeL4Proto headers.nextHdr (noteIP6Headers headers info)) :=
      ⟨note.ip4, note.ip6, fun _ => .inr isIP6, note.home, note.dest⟩
    rw [endsRight_some, same _ known]
    simp only [FrameFits, analyzeL4Proto, noteIP6Headers, decide_eq_true_eq, l2HdrLen]
    omega

theorem analyzeIP6_iff (buffer : frame.length < 2 ^ 31) (enough : frame.length < 8 * fuel) :
    EndsRight Q (analyzeIP6 frame fuel info) ↔ Ip6Regular frame := by
  have conclude {headers : Ip6Headers} := @concludeIP6_iff _ _ _ same found isIP4 isIP6 headers
  obtain ⟨_, inside, l2HdrLen, l2PayloadLen, _, _, _, _, _, _⟩ := found
  have packet := packetAt inside
  have short : frame.length - l2Length frame < 2 ^ 31 := by omega
  unfold analyzeIP6 Ip6Regular
  rw [l2HdrLen, l2PayloadLen, ← Nat.add_zero (l2Length frame), packet.read, Nat.add_zero]
  by_cases there : l2Length frame < frame.length
  swap
  · rw [if_neg (by omega)]
    refine iff_of_false ?_ fun regular => there regular.1
    rintro ⟨_, fault, -⟩
    cases fault
  rw [if_pos (by omega), and_iff_right there]
  change EndsRight Q (if (l3Byte frame 0 &&& 0xF0) >>> 4 ≠ 6 then _ else _) ↔ _
  by_cases version : (l3Byte frame 0 &&& 0xF0) >>> 4 = 6
  swap
  · rw [if_pos version]
    exact iff_of_true endsRight_none fun is => absurd is version
  rw [if_neg (not_not.mpr version), forall_prop_of_true version]
  unfold analyzeIP6Hdr
  by_cases few : frame.length - l2Length frame < 40
  · rw [if_pos few]
    exact iff_of_true endsRight_none fun long => absurd few (Nat.not_lt.mpr long)
  rw [if_neg few, forall_prop_of_true (Nat.not_lt.mp few), packet.read, if_pos (by omega)]
  constructor
  · rintro ⟨result, ends, right⟩
    cases walk : analyzeIP6Loop frame (l2Length frame) (frame.length - l2Length frame) fuel
        ⟨l3Byte frame 6, 40, 0, 0⟩ with
    | error e =>
      simp only [bind, Except.bind, walk] at ends
      cases ends
    | ok found =>
      simp only [bind, Except.bind, walk] at ends
      have reaches {nextHdr offset : Nat} := @analyzeIP6Loop_reaches _ _ _ _ _ packet short nextHdr
        offset _ walk
      refine ⟨fun nextHdr offset onChain => ?_, fun nextHdr offset onChain upper => ?_⟩
      · obtain ⟨fuel, homeAddr, destAddr, -, turn⟩ := reaches onChain
        exact turn.safe
      · obtain ⟨fuel, homeAddr, destAddr, fits, turn⟩ := reaches onChain
        cases turn.ends upper
        exact (conclude fits).mp ⟨result, ends, right⟩
  · intro regular
    obtain ⟨fuel, rfl⟩ : ∃ more, fuel = more + 1 := ⟨fuel - 1, by omega⟩
    have fits : HeadersFit ⟨l3Byte frame 6, 40, 0, 0⟩ := ⟨le_rfl, .inl rfl, .inl rfl⟩
    have enough : frame.length - l2Length frame < 40 + 4 + 8 * fuel := by omega
    obtain ⟨found, walked, ends⟩ := analyzeIP6Loop_runs packet short regular.safe .first fits enough
    simp only [bind, Except.bind, walked]
    cases found with
    | none => exact endsRight_none
    | some headers =>
      obtain ⟨onChain, upper, fits⟩ := ends headers rfl
      exact (conclude fits).mpr (regular.last _ _ onChain upper)

end Ip6

theorem analyzeL3Hdr_iff (buffer : frame.length < 2 ^ 31) (enough : frame.length < 8 * fuel) :
    EndsRight Q (analyzeL3Hdr frame fuel info) ↔
      (l3Proto frame = swapShort 0x0800 → Ip4Regular frame) ∧
        (l3Proto frame = swapShort 0x86DD → Ip6Regular frame) := by
  have type4 := found.isIP4
  have type6 := found.isIP6
  unfold analyzeL3Hdr
  split
  · rename_i isIP4
    rw [isIP4] at type4
    rw [analyzeIP4_iff same found isIP4, of_decide_eq_true type4.symm]
    simp [swapShort]
  rename_i notIP4
  have isIP4 : info.isIP4 = false := Bool.eq_false_iff.mpr notIP4
  rw [isIP4] at type4
  have other := of_decide_eq_false type4.symm
  split
  · rename_i isIP6
    rw [isIP6] at type6
    rw [analyzeIP6_iff same found isIP4 isIP6 buffer enough, and_iff_right (absurd · other),
      forall_prop_of_true (of_decide_eq_true type6.symm)]
  rename_i notIP6
  rw [Bool.eq_false_iff.mpr notIP6] at type6
  obtain ⟨_, _, _, _, _, _, ⟨tcp, udp⟩, _, home, dest⟩ := found
  have none (some : info.isTCP = true ∨ info.isUDP = true) : False := by simp [tcp, udp] at some
  have known : InfoKnown info :=
    ⟨(absurd · notIP4), fun _ => (absurd · notIP6), fun is => (none is).elim, .inl home, .inl dest⟩
  rw [endsRight_some, same info known]
  exact iff_of_true ⟨by omega, fun is => (none is).elim⟩
    ⟨(absurd · other), (absurd · (of_decide_eq_false type6.symm))⟩

end Exact

/-- **The analysis is right** for the regular frames, and for no others, where `Q` says of an info
that it fits the frame. -/
theorem analyzeReceivedPacket_iff {Q : NetPacketInfo → Prop}
    (same : ∀ info, InfoKnown info → (Q info ↔ FrameFits frame info))
    (buffer : frame.length < 2 ^ 31) (enough : frame.length < 8 * fuel) :
    EndsRight Q (analyzeReceivedPacket frame fuel frame.length) ↔ FrameRegular frame := by
  obtain ⟨l2, runs, ⟨rfl, cut⟩ | ⟨info, rfl, found⟩⟩ := analyzeL2Hdr_runs frame
  · rw [analyzeReceivedPacket, runs]
    exact iff_of_true endsRight_none fun whole => absurd whole cut
  · rw [analyzeReceivedPacket, runs, FrameRegular, forall_prop_of_true found.inside]
    exact analyzeL3Hdr_iff same found buffer enough

end Analysis

end KvmGuestDrivers.NetKvm

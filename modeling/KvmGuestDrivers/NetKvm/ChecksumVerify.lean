/-
# NetKvm.ChecksumVerify -- checking the checksums of a received packet

`ParaNdis_CheckSumVerify` looks at the headers of a packet (`NetKvm.PacketReview`) and checks the
checksum of its TCP segment or UDP datagram: it puts the sum of a pseudo-header into the
checksum field, sums up the segment in the driver's pages, compares, and puts the field back.

The definitions it is measured against are those of the protocols: `pseudoHeader`, which names
the transport protocol and its length, and `ChecksumAccepted`.

The driver takes the protocol in the pseudo-header from the base header of the packet, which
names the first extension header if there is one; the length of a UDP datagram from the IP
header; and it compares an IPv4 UDP checksum of zero like any other.
-/
import KvmGuestDrivers.NetKvm.PacketReview

namespace KvmGuestDrivers.NetKvm

set_option autoImplicit false

open Theory

/-! ## Requests -/

def pcrIpChecksum : Nat := 1 <<< 0

def pcrTcpV4Checksum : Nat := 1 <<< 1

def pcrUdpV4Checksum : Nat := 1 <<< 2

def pcrTcpV6Checksum : Nat := 1 <<< 3

def pcrUdpV6Checksum : Nat := 1 <<< 4

def pcrFixIPChecksum : Nat := 1 <<< 7

def pcrFixPHChecksum : Nat := 1 <<< 8

def pcrFixTcpV4Checksum : Nat := 1 <<< 9

def pcrFixUdpV4Checksum : Nat := 1 <<< 10

def pcrFixTcpV6Checksum : Nat := 1 <<< 11

def pcrFixUdpV6Checksum : Nat := 1 <<< 12

def pcrFixXxpChecksum : Nat :=
  pcrFixTcpV4Checksum ||| pcrFixUdpV4Checksum ||| pcrFixTcpV6Checksum ||| pcrFixUdpV6Checksum

/-! ## The functions -/

def shortBytes (x : Nat) : List Byte := [BitVec.ofNat 8 x, BitVec.ofNat 8 (x / 256)]

/-- Of the two zeros the sender may have used the other one. -/
def compareNetCheckSumOnEndSystem (computed arrived : Nat) : Bool :=
  decide (computed = if arrived = 0xFFFF then 0 else arrived)

section Functions

variable (arch : Arch) (mem : Memory)

/-- A `USHORT`, for which a difference can wrap around. -/
def getXxpHeaderAndPayloadLen (ip : Nat) (res : ParsingResult) : Nat :=
  match res.ipStatus with
  | .ipv4 => (swapShort (le16 mem (ip + 2)) + 65536 - ipHeaderLength mem ip) % 65536
  | .ipv6 => (swapShort (le16 mem (ip + 4)) + 40 + 65536 - res.ipHeaderSize) % 65536
  | .notTested | .notIP => 0

variable (ip headerAndPayloadLen : Nat)

def ipv4PseudoHeader : List Byte :=
  span mem (ip + 12) 8 ++ ([0, mem (ip + 9)] ++ shortBytes (swapShort headerAndPayloadLen))

/-- `tIPv6PseudoHeader`, filled in; the length is an `ULONG`, of which two bytes are set. -/
def ipv6PseudoHeader : List Byte :=
  span mem (ip + 8) 32 ++
    (shortBytes (swapShort headerAndPayloadLen) ++ [0, 0, 0, 0, 0, mem (ip + 6)])

def calculateIpv4PseudoHeaderChecksum : Nat :=
  65535 - checkSumCalculatorFlat arch (memory (ipv4PseudoHeader mem ip headerAndPayloadLen)) 0 12

def calculateIpv6PseudoHeaderChecksum : Nat :=
  65535 - checkSumCalculatorFlat arch (memory (ipv6PseudoHeader mem ip headerAndPayloadLen)) 0 40

def calculateIpPseudoHeaderChecksum (ip : Nat) (res : ParsingResult) (headerAndPayloadLen : Nat) :
    Nat :=
  match res.ipStatus with
  | .ipv4 => calculateIpv4PseudoHeaderChecksum arch mem ip headerAndPayloadLen
  | .ipv6 => calculateIpv6PseudoHeaderChecksum arch mem ip headerAndPayloadLen
  | .notTested | .notIP => 0

def calculateIpChecksum (ip : Nat) : Memory :=
  let cleared := write16 mem (ip + 10) 0
  write16 cleared (ip + 10) (checkSumCalculatorFlat arch cleared ip (ipHeaderLength cleared ip))

def verifyIpChecksum (ip : Nat) (known : ParsingResult) (fix : Bool) : Memory × ParsingResult :=
  if known.ipCheckSum ≠ .tooShort then
    let saved := le16 mem (ip + 10)
    let after := calculateIpChecksum arch mem ip
    let verdict : IpCheckSum :=
      if compareNetCheckSumOnEndSystem (le16 after (ip + 10)) saved then .csOK else .csBad
    if fix then
      (after, { known with ipCheckSum := verdict, fixedIpCS := decide (verdict = .csBad) })
    else (write16 after (ip + 10) saved, { known with ipCheckSum := verdict })
  else (mem, known)

/-- `CalculateTcpChecksumGivenPseudoCS` and `CalculateUdpChecksumGivenPseudoCS`: the memory with
the checksum in `field`, `none` when the segment is longer than the pages. -/
def calculateChecksumGivenPseudoCS (field : Nat) (pages : List Page) (start len : Nat) :
    Option Memory :=
  (checkSumCalculator arch mem pages start len).map (write16 mem field)

/-- Compare what has been put into `field` with what was there, and leave or restore it. -/
def judgeChecksum (field saved : Nat) (res : ParsingResult) (fix : Bool) : Memory × ParsingResult :=
  let res := if compareNetCheckSumOnEndSystem (le16 mem field) saved then
      { res with xxpCheckSum := .csOK }
    else res
  if fix then
    (mem, { res with
      fixedXxpCS := decide (res.xxpCheckSum = .csBad ∨ res.xxpCheckSum = .pcsOK) })
  else (write16 mem field saved, res)

/-- The verdict on what was in the field as a checksum of the pseudo-header. -/
def judgePseudoCS (phcs saved : Nat) (known : ParsingResult) : ParsingResult :=
  { known with
    xxpCheckSum := if compareNetCheckSumOnEndSystem phcs saved then .pcsOK else .csBad }

variable (first : Page)

variable (rest : List Page)

def verifyTcpChecksum (dataLength start : Nat) (known : ParsingResult) (whatToFix : Nat) :
    Option (Memory × ParsingResult) :=
  let ip := first.virtual + start
  let field := ip + known.ipHeaderSize + 16
  let saved := le16 mem field
  let len := getXxpHeaderAndPayloadLen mem ip known
  if known.ipHeaderSize ≤ dataLength then
    let phcs := calculateIpPseudoHeaderChecksum arch mem ip known len
    let res := judgePseudoCS phcs saved known
    if res.xxpCheckSum ≠ .pcsOK ∨ whatToFix ≠ 0 then
      if whatToFix &&& pcrFixPHChecksum ≠ 0 then
        if known.ipHeaderSize + 20 ≤ dataLength then
          some (write16 mem field phcs,
            { res with fixedXxpCS := decide (res.xxpCheckSum ≠ .pcsOK) })
        else some (mem, { res with xxpStatus := .incomplete })
      else if res.xxpFull = true then
        (calculateChecksumGivenPseudoCS arch (write16 mem field phcs) field (first :: rest)
          (start + known.ipHeaderSize) len).map fun after =>
            judgeChecksum after field saved res (decide (whatToFix &&& pcrFixXxpChecksum ≠ 0))
      else if whatToFix ≠ 0 then some (mem, { res with xxpStatus := .incomplete })
      else some (mem, res)
    else if res.xxpFull = true then
      -- the field holds the sum of the pseudo-header already, and nothing is to be put in
      (calculateChecksumGivenPseudoCS arch mem field (first :: rest)
        (start + known.ipHeaderSize) len).map fun after =>
          judgeChecksum after field saved res false
    else some (mem, res)
  else some (mem, { known with ipCheckSum := .tooShort })

def verifyUdpChecksum (dataLength start : Nat) (known : ParsingResult) (whatToFix : Nat) :
    Option (Memory × ParsingResult) :=
  let ip := first.virtual + start
  let field := ip + known.ipHeaderSize + 6
  let saved := le16 mem field
  let len := getXxpHeaderAndPayloadLen mem ip known
  if known.ipHeaderSize ≤ dataLength then
    let phcs := calculateIpPseudoHeaderChecksum arch mem ip known len
    let res := judgePseudoCS phcs saved known
    if whatToFix &&& pcrFixPHChecksum ≠ 0 then
      if known.ipHeaderSize + 8 ≤ dataLength then
        some (write16 mem field phcs, { res with fixedXxpCS := decide (res.xxpCheckSum ≠ .pcsOK) })
      else some (mem, { res with xxpStatus := .incomplete })
    else if res.xxpCheckSum ≠ .pcsOK ∨ whatToFix &&& pcrFixXxpChecksum ≠ 0 then
      if res.xxpFull = true then
        (calculateChecksumGivenPseudoCS arch (write16 mem field phcs) field (first :: rest)
          (start + known.ipHeaderSize) len).map fun after =>
            judgeChecksum after field saved res (decide (whatToFix &&& pcrFixXxpChecksum ≠ 0))
      else
        -- `ppresXxpIncomplete`, which in this field means a bad checksum
        some (mem, { res with xxpCheckSum := .csBad })
    else if res.xxpFull = true then
      (calculateChecksumGivenPseudoCS arch mem field (first :: rest)
        (start + known.ipHeaderSize) len).map fun after =>
          judgeChecksum after field saved res false
    else some (mem, res)
  else some (mem, { known with ipCheckSum := .tooShort })

/-- The part of `ParaNdis_CheckSumVerify` that both versions have, with the bits of the version. -/
def verifyXxpChecksum (dataLength start : Nat) (res : ParsingResult)
    (flags tcp fixTcp udp fixUdp : Nat) : Option (Memory × ParsingResult) :=
  if res.xxpStatus = .known then
    match res.tcpUdp with
    | .isTCP =>
      if flags &&& tcp ≠ 0 then
        verifyTcpChecksum arch mem first rest dataLength start res
          (flags &&& (pcrFixPHChecksum ||| fixTcp))
      else some (mem, res)
    | .isUDP =>
      if flags &&& udp ≠ 0 then
        verifyUdpChecksum arch mem first rest dataLength start res
          (flags &&& (pcrFixPHChecksum ||| fixUdp))
      else some (mem, res)
  else some (mem, res)

/-- `ParaNdis_CheckSumVerify`, on the pages `first :: rest`. -/
def checkSumVerify (fuel : Nat) (first : Page) (rest : List Page)
    (dataLength start flags : Nat) (verifyLength : Bool) : Option (Memory × ParsingResult) :=
  let ip := first.virtual + start
  (qualifyIpPacket mem ip fuel dataLength verifyLength).bind fun res =>
    if res.ipStatus = .notIP ∨ res.ipCheckSum = .tooShort then some (mem, res)
    else
      match res.ipStatus with
      | .ipv4 =>
        let reviewed := if flags &&& pcrIpChecksum ≠ 0 then
            verifyIpChecksum arch mem ip res (decide (flags &&& pcrFixIPChecksum ≠ 0))
          else (mem, res)
        verifyXxpChecksum arch reviewed.1 first rest dataLength start reviewed.2 flags
          pcrTcpV4Checksum pcrFixTcpV4Checksum pcrUdpV4Checksum pcrFixUdpV4Checksum
      | .ipv6 =>
        verifyXxpChecksum arch mem first rest dataLength start res flags
          pcrTcpV6Checksum pcrFixTcpV6Checksum pcrUdpV6Checksum pcrFixUdpV6Checksum
      | .notTested | .notIP => some (mem, res)

end Functions

/-! ## The checksum of the protocols -/

section Protocols

variable (mem : Memory) (ip : Nat) (version : IpVersion) (protocol upper full : Nat)

/-- Addresses, length and protocol, as they stand in front of the segment when it is summed up. -/
def pseudoHeader (length : Nat) : List Byte :=
  match version with
  | .v4 =>
    span mem (ip + 12) 8 ++
      [0, BitVec.ofNat 8 protocol, BitVec.ofNat 8 (length / 256), BitVec.ofNat 8 length]
  | .v6 =>
    span mem (ip + 8) 32 ++
      [0, 0, BitVec.ofNat 8 (length / 256), BitVec.ofNat 8 length, 0, 0, 0,
        BitVec.ofNat 8 protocol]

/-- UDP says how long a datagram is; a TCP segment is the rest of the packet. -/
def upperLength : Nat :=
  if protocol = protocolUDP then be16 mem (ip + upper + 4) else full - upper

/-- `length` bytes of the packet, from the transport header on. -/
def upperBytes (pages : List Page) (start length : Nat) : List Byte :=
  ((pageBytes mem pages).drop (start + upper)).take length

def xxpChecksumOffset : Nat := if protocol = protocolTCP then 16 else 6

/-- The sender of an IPv4 datagram did not compute a checksum. -/
def NoChecksum : Prop :=
  version = .v4 ∧ protocol = protocolUDP ∧ le16 mem (ip + upper + xxpChecksumOffset protocol) = 0

/-- The checksum is right, or there is none. -/
def ChecksumAccepted (pages : List Page) (start : Nat) : Prop :=
  NoChecksum mem ip version protocol upper ∨
    internetChecksum (
      pseudoHeader mem ip version protocol (upperLength mem ip protocol upper full) ++
      upperBytes mem upper pages start (upperLength mem ip protocol upper full)) = 0

/-- The packet in the driver's pages: all headers are in the first page, no other page shares
memory with it, and pages end at an even distance from the transport header. -/
structure InPages (first : Page) (rest : List Page) (start : Nat) : Prop where
  inside : start + full ≤ ((first :: rest).map Page.size).sum
  headers : start + upper + xxpHeaderSize protocol ≤ first.size
  apart : ∀ page ∈ rest, Extent.Apart ⟨page.virtual, page.size⟩ ⟨first.virtual, first.size⟩
  even : EvenBoundaries (first :: rest) (start + upper) (full - upper)

end Protocols

/-! ## Pseudo-headers -/

variable {res known : ParsingResult} {field start : Nat} {pages : List Page}

section PseudoHeader

variable (arch : Arch) (mem : Memory) (ip : Nat) (version : IpVersion) {length x : Nat}

def driverPseudoHeader (length : Nat) : List Byte :=
  match version with
  | .v4 => ipv4PseudoHeader mem ip length
  | .v6 => ipv6PseudoHeader mem ip length

def baseProtocol : Nat :=
  match version with
  | .v4 => (mem (ip + 9)).toNat
  | .v6 => (mem (ip + 6)).toNat

theorem swapShort_lt (lt : x < 65536) : swapShort x < 65536 := by
  unfold swapShort
  omega

theorem sum16_span_append (start n : Nat) (even : n % 2 = 0) (bytes : List Byte) :
    sum16 (span mem start n ++ bytes) = sum16 (span mem start n) + sum16 bytes :=
  sum16_append _ _ (by rw [length_span]; exact even)

theorem sum16_shortBytes (lt : x < 65536) (rest : List Byte) :
    sum16 (shortBytes x ++ rest) = x + sum16 rest := by
  rw [shortBytes, List.cons_append, List.singleton_append, sum16, BitVec.toNat_ofNat,
    BitVec.toNat_ofNat]
  omega

theorem sum16_ipv4PseudoHeader (lt : length < 65536) : sum16 (ipv4PseudoHeader mem ip length) =
      sum16 (span mem (ip + 12) 8) + (256 * (mem (ip + 9)).toNat + swapShort length) := by
  rw [ipv4PseudoHeader, sum16_span_append _ _ _ rfl, List.cons_append, List.singleton_append, sum16,
    ← List.append_nil (shortBytes _), sum16_shortBytes (swapShort_lt lt)]
  simp [sum16]

theorem sum16_ipv6PseudoHeader (lt : length < 65536) : sum16 (ipv6PseudoHeader mem ip length) =
      sum16 (span mem (ip + 8) 32) + (256 * (mem (ip + 6)).toNat + swapShort length) := by
  rw [ipv6PseudoHeader, sum16_span_append _ _ _ rfl, sum16_shortBytes (swapShort_lt lt)]
  simp [sum16, add_comm]

theorem sum16_driverPseudoHeader (lt : length < 65536) :
    sum16 (driverPseudoHeader mem ip version length) =
      sum16 (pseudoHeader mem ip version (baseProtocol mem ip version) length) := by
  have swap : swapShort length = length % 256 * 256 + length / 256 := rfl
  have zero : (0 : Byte).toNat = 0 := rfl
  cases version with
  | v4 =>
    rw [driverPseudoHeader, sum16_ipv4PseudoHeader mem ip lt, pseudoHeader,
      sum16_span_append _ _ _ rfl]
    simp only [sum16, baseProtocol, BitVec.toNat_ofNat]
    omega
  | v6 =>
    rw [driverPseudoHeader, sum16_ipv6PseudoHeader mem ip lt, pseudoHeader,
      sum16_span_append _ _ _ rfl]
    simp only [sum16, baseProtocol, BitVec.toNat_ofNat]
    omega

theorem sum16_driverPseudoHeader_pos (length : Nat) (some : 0 < length) (lt : length < 65536) :
    0 < sum16 (driverPseudoHeader mem ip version length) := by
  have swap : swapShort length = length % 256 * 256 + length / 256 := rfl
  cases version with
  | v4 =>
    rw [driverPseudoHeader, sum16_ipv4PseudoHeader mem ip lt]
    omega
  | v6 =>
    rw [driverPseudoHeader, sum16_ipv6PseudoHeader mem ip lt]
    omega

theorem calculateIpPseudoHeaderChecksum_eq (status : res.ipStatus = version.status) (length : Nat) :
    calculateIpPseudoHeaderChecksum arch mem ip res length =
      onesNorm 65535 (sum16 (driverPseudoHeader mem ip version length)) := by
  have flat (bytes : List Byte) (n : Nat) (is : bytes.length = n) (short : n ≤ 131074) :
      65535 - checkSumCalculatorFlat arch (memory bytes) 0 n = onesNorm 65535 (sum16 bytes) := by
    have le : onesNorm 65535 (sum16 bytes) ≤ 65535 := onesNorm_le (by decide)
    rw [checkSumCalculatorFlat_eq (by omega) (fun _ => short), ← is, span_memory]
    omega
  rw [calculateIpPseudoHeaderChecksum, status]
  cases version with
  | v4 => exact flat (ipv4PseudoHeader mem ip length) 12 rfl (by decide)
  | v6 => exact flat (ipv6PseudoHeader mem ip length) 40 rfl (by decide)

end PseudoHeader

/-! ## The sum with the pseudo-header in the field -/

theorem sum16_span_at {f k : Nat} (even : f % 2 = 0) (fits : f + 2 ≤ k) (mem : Memory) (base : Nat)
    (tail : List Byte) :
    sum16 (span mem base k ++ tail) =
      sum16 (span mem base f) + sum16 (span mem (base + f + 2) (k - f - 2) ++ tail) +
        le16 mem (base + f) := by
  have parts : k = f + (k - f - 2 + 2) := by omega
  rw [parts, span_add, List.append_assoc, sum16_append _ _ (by rw [length_span]; exact even),
    span_two, List.cons_append, List.cons_append, sum16]
  have rest : f + (k - f - 2 + 2) - f - 2 = k - f - 2 := by omega
  rw [rest, le16]
  omega

theorem pageBytes_congr {mem mem' : Memory}
    (agree : ∀ page ∈ pages, Agree mem mem' ⟨page.virtual, page.size⟩) :
    pageBytes mem pages = pageBytes mem' pages := by
  induction pages with
  | nil => rfl
  | cons _ _ ih =>
    obtain ⟨here, later⟩ := List.forall_mem_cons.mp agree
    rw [pageBytes, List.flatMap_cons, here.span]
    exact congrArg _ (ih later)

section Sum

variable {first} {rest : List Page} {protocol upper full : Nat}

theorem InPages.rest_agree (layout : InPages protocol upper full first rest start) (addr : Nat)
    (low : first.virtual ≤ addr) (high : addr + 2 ≤ first.virtual + first.size) (mem : Memory)
    (word : Nat) : pageBytes (write16 mem addr word) rest = pageBytes mem rest := by
  apply pageBytes_congr
  intro page member
  exact agree_write16 ((layout.apart page member).part low high) mem word

theorem sum16_upperBytes (layout : InPages protocol upper full first rest start) (length : Nat)
    (complete : xxpHeaderSize protocol ≤ length) (mem : Memory)
    (is : field = first.virtual + start + upper + xxpChecksumOffset protocol) :
    ∃ others, sum16 (upperBytes mem upper (first :: rest) start length) = others + le16 mem field ∧
      ∀ word < 65536,
        sum16 (upperBytes (write16 mem field word) upper (first :: rest) start length) =
          others + word := by
  obtain ⟨even, _⟩ : xxpChecksumOffset protocol % 2 = 0 ∧
      xxpChecksumOffset protocol + 2 ≤ xxpHeaderSize protocol := by
    unfold xxpChecksumOffset xxpHeaderSize
    split <;> decide
  have headers := layout.headers
  have here : start + upper ≤ first.size := by omega
  have place : first.virtual + (start + upper) + xxpChecksumOffset protocol = field := by omega
  obtain ⟨n, count⟩ : ∃ n, n = min length (first.size - (start + upper)) := ⟨_, rfl⟩
  have room : xxpChecksumOffset protocol + 2 ≤ n := by omega
  -- the first page holds the field; the sum over the rest of it and the others stays
  refine ⟨sum16 (span mem (first.virtual + (start + upper)) (xxpChecksumOffset protocol)) +
    sum16 (span mem (field + 2) (n - xxpChecksumOffset protocol - 2) ++
      (pageBytes mem rest).take (length - n)), ?_, ?_⟩
  · rw [upperBytes, take_drop_pageBytes mem count here, sum16_span_at even room, place]
  intro word lt
  have before : span (write16 mem field word) (first.virtual + (start + upper))
      (xxpChecksumOffset protocol) =
        span mem (first.virtual + (start + upper)) (xxpChecksumOffset protocol) := by
    refine (agree_write16 (Or.inl ?_) mem word).span
    simp only [Extent.stop]
    omega
  have after : span (write16 mem field word) (field + 2) (n - xxpChecksumOffset protocol - 2) =
      span mem (field + 2) (n - xxpChecksumOffset protocol - 2) :=
    (agree_write16 (Or.inr le_rfl) mem word).span
  have others := layout.rest_agree field (by omega) (by omega) mem word
  rw [upperBytes, take_drop_pageBytes _ count here, sum16_span_at even room, place, before,
    after, others, le16_write16 lt]

/-- **What the comparison says.**  With the sum of a pseudo-header in the field, the checksum
computed is the one that arrived exactly if the sum over the pseudo-header and the segment as it
arrived has all bits set. -/
theorem sum_given_pseudoCS (arch : Arch) (layout : InPages protocol upper full first rest start)
    (complete : upper + xxpHeaderSize protocol ≤ full) (short : full ≤ 65535) (mem : Memory)
    (is : field = first.virtual + start + upper + xxpChecksumOffset protocol) {pseudo : Nat}
    (positive : 0 < pseudo) :
    ∃ sum, checkSumCalculator arch (write16 mem field (onesNorm 65535 pseudo)) (first :: rest)
        (start + upper) (full - upper) = some sum ∧ sum < 65536 ∧
      (compareNetCheckSumOnEndSystem sum (le16 mem field) = true ↔
        onesNorm 65535
          (pseudo + sum16 (upperBytes mem upper (first :: rest) start (full - upper))) =
            65535) := by
  have le : onesNorm 65535 pseudo ≤ 65535 := onesNorm_le (by decide)
  have pos : onesNorm 65535 pseudo ≠ 0 := fun zero => by
    rw [onesNorm_eq_zero] at zero
    omega
  obtain ⟨others, arrived, written⟩ := sum16_upperBytes layout (full - upper) (by omega) mem is
  have sums := written (onesNorm 65535 pseudo) (by omega)
  have saved : le16 mem field ≤ 65535 := Nat.le_of_lt_succ (le16_lt mem field)
  have inside := layout.inside
  refine ⟨_, checkSumCalculator_eq arch _ (by omega) (by omega) layout.even, by omega, ?_⟩
  have check := complement_eq_iff (n := others + onesNorm 65535 pseudo)
    (by omega) saved (by decide)
  have same : onesNorm 65535 (others + onesNorm 65535 pseudo + le16 mem field) =
      onesNorm 65535 (pseudo + (others + le16 mem field)) := by
    refine OnesEq.onesNorm_eq (by decide) ?_
    have word := (onesEq_onesNorm 65535 pseudo).add (.refl 65535 (others + le16 mem field))
    rwa [Nat.add_left_comm, ← add_assoc] at word
  rw [compareNetCheckSumOnEndSystem, decide_eq_true_iff, arrived, ← same, ← check]
  rw [upperBytes] at sums
  rw [sums]

end Sum

/-! ## The verdict -/

section Verdict

variable {arch : Arch} {mem : Memory} {saved : Nat}

theorem judgeChecksum_csOK (fix : Bool) (not : res.xxpCheckSum ≠ .csOK) :
    (judgeChecksum mem field saved res fix).2.xxpCheckSum = .csOK ↔
      compareNetCheckSumOnEndSystem (le16 mem field) saved = true := by
  cases same : compareNetCheckSumOnEndSystem (le16 mem field) saved with
  | true => cases fix <;> simp [judgeChecksum, same]
  | false => cases fix <;> simp [judgeChecksum, same, not]

theorem judgePseudoCS_ne (phcs saved : Nat) (known : ParsingResult) :
    (judgePseudoCS phcs saved known).xxpCheckSum ≠ .csOK := by
  unfold judgePseudoCS
  split <;> nofun

theorem eq_of_judgePseudoCS {phcs : Nat} (some : phcs ≠ 0)
    (same : (judgePseudoCS phcs saved known).xxpCheckSum = .pcsOK) : phcs = saved := by
  cases compared : compareNetCheckSumOnEndSystem phcs saved with
  | true =>
    rw [compareNetCheckSumOnEndSystem, decide_eq_true_iff] at compared
    split at compared
    · exact absurd compared some
    · exact compared
  | false => simp [judgePseudoCS, compared] at same

/-- Computing, comparing and restoring: the verdict is that of the comparison. -/
theorem judged {sum len : Nat} (summed : checkSumCalculator arch mem pages start len = some sum)
    (lt : sum < 65536) (not : res.xxpCheckSum ≠ .csOK) (fix : Bool) :
    ∃ mem' res', ((calculateChecksumGivenPseudoCS arch mem field pages start len).map fun after =>
        judgeChecksum after field saved res fix) = some (mem', res') ∧
      (res'.xxpCheckSum = .csOK ↔ compareNetCheckSumOnEndSystem sum saved = true) := by
  refine ⟨(judgeChecksum (write16 mem field sum) field saved res fix).1,
    (judgeChecksum (write16 mem field sum) field saved res fix).2, ?_, ?_⟩
  · rw [calculateChecksumGivenPseudoCS, summed]
    rfl
  · rw [judgeChecksum_csOK fix not, le16_write16 lt]

/-- With the whole segment there, both ways through a verification compute the checksum with the
sum of the pseudo-header in the field. -/
theorem judged_full {phcs sum len : Nat} {asked : Prop} [Decidable asked] (nonzero : phcs ≠ 0)
    (full : known.xxpFull = true)
    (summed : checkSumCalculator arch (write16 mem field phcs) pages start len = some sum)
    (lt : sum < 65536) (fix : Bool) (short short' : Option (Memory × ParsingResult)) :
    let res := judgePseudoCS phcs (le16 mem field) known
    ∃ mem' res', (if res.xxpCheckSum ≠ .pcsOK ∨ asked then
          if res.xxpFull = true then
            (calculateChecksumGivenPseudoCS arch (write16 mem field phcs) field pages start len).map
              fun after => judgeChecksum after field (le16 mem field) res fix
          else short
        else if res.xxpFull = true then
          (calculateChecksumGivenPseudoCS arch mem field pages start len).map
            fun after => judgeChecksum after field (le16 mem field) res false
        else short') = some (mem', res') ∧
      (res'.xxpCheckSum = .csOK ↔ compareNetCheckSumOnEndSystem sum (le16 mem field) = true) := by
  intro res
  have full : res.xxpFull = true := full
  split
  · exact judged summed lt (judgePseudoCS_ne _ _ _) _
  rename_i nothing
  obtain ⟨same, _⟩ := not_or.mp nothing
  have saved := eq_of_judgePseudoCS nonzero (not_not.mp same)
  rw [saved, write16_le16] at summed
  exact judged summed lt (judgePseudoCS_ne _ _ _) _

variable {first} {rest : List Page} {dataLength : Nat}

variable {version : IpVersion} {protocol upper full : Nat}

/-- Both protocols: the verdict on a packet that has been qualified, by the sum over the
pseudo-header and the segment. -/
theorem verifyXxpChecksum_verdict {flags tcp fixTcp udp fixUdp : Nat}
    (transport : protocol = protocolTCP ∨ protocol = protocolUDP)
    (qualified : Qualified known version protocol upper) (contained : full ≤ dataLength)
    (complete : upper + xxpHeaderSize protocol ≤ full) (short : full ≤ 65535)
    (layout : InPages protocol upper full first rest start)
    (length : full - upper = getXxpHeaderAndPayloadLen mem (first.virtual + start) known)
    (asked : flags &&& (match tcpUdpOf protocol with | .isTCP => tcp | .isUDP => udp) ≠ 0)
    (noPH : flags &&& pcrFixPHChecksum = 0) :
    ∃ mem' res, verifyXxpChecksum arch mem first rest dataLength start known flags
        tcp fixTcp udp fixUdp = some (mem', res) ∧
      (res.xxpCheckSum = .csOK ↔
        onesNorm 65535 (
          sum16 (driverPseudoHeader mem (first.virtual + start) version (full - upper)) +
          sum16 (upperBytes mem upper (first :: rest) start (full - upper))) = 65535) := by
  have header : 8 ≤ xxpHeaderSize protocol := by
    unfold xxpHeaderSize
    split <;> decide
  have pos := sum16_driverPseudoHeader_pos mem (first.virtual + start) version
    (full - upper) (by omega) (by omega)
  have phcs := calculateIpPseudoHeaderChecksum_eq arch mem (first.virtual + start) version
    qualified.status (full - upper)
  have nonzero : onesNorm 65535
      (sum16 (driverPseudoHeader mem (first.virtual + start) version (full - upper))) ≠ 0 := by
    rw [Ne, onesNorm_eq_zero]
    omega
  have masked (fix : Nat) : flags &&& (pcrFixPHChecksum ||| fix) &&& pcrFixPHChecksum = 0 := by
    rw [Nat.land_assoc, Nat.land_comm _ pcrFixPHChecksum, ← Nat.land_assoc, noPH, Nat.zero_and]
  obtain ⟨_, summed, lt, verdict⟩ := sum_given_pseudoCS arch layout complete short mem rfl pos
  obtain ⟨_, _, is, isFull, which, size⟩ := qualified
  subst size
  have inside : known.ipHeaderSize ≤ dataLength := by omega
  rw [verifyXxpChecksum, if_pos is, which]
  rcases transport with rfl | rfl
  · have asked : flags &&& tcp ≠ 0 := asked
    rw [if_pos asked, verifyTcpChecksum, if_pos inside]
    dsimp only
    rw [if_neg (not_not_intro (masked fixTcp)), ← length, phcs, ← verdict]
    exact judged_full nonzero isFull summed lt _ _ _
  · have asked : flags &&& udp ≠ 0 := asked
    rw [if_pos asked, verifyUdpChecksum, if_pos inside]
    rw [if_neg (not_not_intro (masked fixUdp)), ← length, phcs, ← verdict]
    exact judged_full nonzero isFull summed lt _ _ _

end Verdict

/-! ## The IP header -/

section Header

variable {mem mem' : Memory} {ip protocol upper : Nat}

/-- All that can have changed is the checksum of the IP header. -/
def HeaderKept (mem mem' : Memory) (ip : Nat) : Prop :=
  ∀ i, i < ip + 10 ∨ ip + 12 ≤ i → mem' i = mem i

theorem HeaderKept.write16 {word : Nat} (kept : HeaderKept mem mem' ip) :
    HeaderKept mem (write16 mem' (ip + 10) word) ip := by
  intro i outside
  rw [write16_of_ne (by omega) (by omega), kept i outside]

theorem verifyIpChecksum_kept (arch : Arch) (mem : Memory) (ip : Nat) (known : ParsingResult)
    (fix : Bool) : HeaderKept mem (verifyIpChecksum arch mem ip known fix).1 ip := by
  have start : HeaderKept mem mem ip := fun _ _ => rfl
  have after : HeaderKept mem (calculateIpChecksum arch mem ip) ip := start.write16.write16
  unfold verifyIpChecksum
  split
  · cases fix with
    | true => exact after
    | false => exact after.write16
  · exact start

theorem verifyIpChecksum_qualified (arch : Arch) (mem : Memory) (ip : Nat) {version : IpVersion}
    (qualified : Qualified known version protocol upper) (fix : Bool) :
    Qualified (verifyIpChecksum arch mem ip known fix).2 version protocol upper := by
  obtain ⟨status, long, known, full, transport, size⟩ := qualified
  have verdict (same : Bool) : (if same then IpCheckSum.csOK else .csBad) ≠ .tooShort := by
    cases same <;> decide
  rw [verifyIpChecksum, if_pos long]
  cases fix with
  | true | false => exact ⟨status, verdict _, known, full, transport, size⟩

section

variable (kept : HeaderKept mem mem' ip)

include kept

theorem HeaderKept.agree {e : Extent} (apart : e.Apart ⟨ip + 10, 2⟩) : Agree mem' mem e := by
  intro i low high
  simp only [Extent.Apart, Extent.stop] at apart high
  exact kept i (by omega)

theorem HeaderKept.ipv4PseudoHeader (length : Nat) :
    ipv4PseudoHeader mem' ip length = ipv4PseudoHeader mem ip length := by
  have addresses := (kept.agree (e := ⟨ip + 12, 8⟩) (Or.inr le_rfl)).span
  rw [NetKvm.ipv4PseudoHeader, NetKvm.ipv4PseudoHeader, addresses, kept (ip + 9) (by omega)]

theorem HeaderKept.getXxpHeaderAndPayloadLen (status : res.ipStatus = .ipv4) :
    getXxpHeaderAndPayloadLen mem' ip res = getXxpHeaderAndPayloadLen mem ip res := by
  have word : le16 mem' (ip + 2) = le16 mem (ip + 2) := by
    refine (kept.agree (Or.inl ?_)).le16
    simp only [Extent.stop]
    omega
  rw [NetKvm.getXxpHeaderAndPayloadLen, NetKvm.getXxpHeaderAndPayloadLen, status]
  rw [word, ipHeaderLength, ipHeaderLength, kept ip (by omega)]

end

theorem HeaderKept.upperBytes {first : Page} {rest : List Page} {full : Nat}
    (kept : HeaderKept mem mem' (first.virtual + start)) (options : 20 ≤ upper)
    (layout : InPages protocol upper full first rest start) (length : Nat) :
    upperBytes mem' upper (first :: rest) start length =
      upperBytes mem upper (first :: rest) start length := by
  have headers := layout.headers
  have others : pageBytes mem' rest = pageBytes mem rest := by
    apply pageBytes_congr
    intro page member
    apply kept.agree
    apply (layout.apart page member).part
    · show first.virtual ≤ first.virtual + start + 10
      omega
    · show first.virtual + start + 10 + 2 ≤ first.virtual + first.size
      omega
  have here : Agree mem' mem ⟨first.virtual + (start + upper),
      min length (first.size - (start + upper))⟩ := by
    apply kept.agree
    apply Or.inr
    show first.virtual + start + 10 + 2 ≤ first.virtual + (start + upper)
    omega
  rw [NetKvm.upperBytes, NetKvm.upperBytes, take_drop_pageBytes mem' rfl (by omega),
    take_drop_pageBytes mem rfl (by omega), others, here.span]

end Header

/-! ## The whole function -/

/-- Which bit asks for the checksum of this packet. -/
def requestOf (version : IpVersion) (protocol : Nat) : Nat :=
  match version with
  | .v4 => match tcpUdpOf protocol with
    | .isTCP => pcrTcpV4Checksum
    | .isUDP => pcrUdpV4Checksum
  | .v6 => match tcpUdpOf protocol with
    | .isTCP => pcrTcpV6Checksum
    | .isUDP => pcrUdpV6Checksum

section Whole

variable {arch : Arch} {mem : Memory} {fuel dataLength flags protocol upper full ip : Nat} {first}
  {rest : List Page} {version : IpVersion}

theorem IpPacket.length_eq (packet : IpPacket mem ip version protocol upper full)
    (le : upper ≤ full) (short : full ≤ 65535) (qualified : Qualified res version protocol upper) :
    full - upper = getXxpHeaderAndPayloadLen mem ip res := by
  have status := qualified.status
  have size := qualified.size
  cases packet with
  | v4 =>
    rw [getXxpHeaderAndPayloadLen, status]
    show _ = (swapShort (le16 mem (ip + 2)) + 65536 - ipHeaderLength mem ip) % 65536
    rw [swapShort_le16, ipHeaderLength_eq]
    omega
  | v6 =>
    rw [getXxpHeaderAndPayloadLen, status]
    show _ = (swapShort (le16 mem (ip + 4)) + 40 + 65536 - res.ipHeaderSize) % 65536
    rw [swapShort_le16]
    omega

/-- The verdict on any packet, with any chain of headers that is not too long: the checksum is
checked under a pseudo-header that names the protocol of the base header. -/
theorem checkSumVerify_verdict
    (packet : IpPacket mem (first.virtual + start) version protocol upper full)
    (contained : full ≤ dataLength) (complete : upper + xxpHeaderSize protocol ≤ full)
    (small : upper ≤ 252) (short : full ≤ 65535) (enough : 27 ≤ fuel)
    (layout : InPages protocol upper full first rest start)
    (asked : flags &&& requestOf version protocol ≠ 0) (noPH : flags &&& pcrFixPHChecksum = 0)
    (verifyLength : Bool) :
    ∃ mem' res, checkSumVerify arch mem fuel first rest dataLength start flags verifyLength =
        some (mem', res) ∧
      (res.xxpCheckSum = .csOK ↔ internetChecksum (pseudoHeader mem (first.virtual + start) version
            (baseProtocol mem (first.virtual + start) version) (full - upper) ++
          upperBytes mem upper (first :: rest) start (full - upper)) = 0) := by
  obtain ⟨res, found, qualified⟩ := qualifyIpPacket_qualified packet contained complete small short
    enough verifyLength
  have length := packet.length_eq (by omega) short qualified
  have transport := packet.protocol_eq
  rw [internetChecksum_eq_zero, sum16_append _ _ (by cases version <;> simp [pseudoHeader]),
    ← sum16_driverPseudoHeader mem (first.virtual + start) version (by omega)]
  have enters : checkSumVerify arch mem fuel first rest dataLength start flags verifyLength =
      match version with
      | .v4 =>
        let reviewed := if flags &&& pcrIpChecksum ≠ 0 then
            verifyIpChecksum arch mem (first.virtual + start) res
              (decide (flags &&& pcrFixIPChecksum ≠ 0))
          else (mem, res)
        verifyXxpChecksum arch reviewed.1 first rest dataLength start reviewed.2 flags
          pcrTcpV4Checksum pcrFixTcpV4Checksum pcrUdpV4Checksum pcrFixUdpV4Checksum
      | .v6 =>
        verifyXxpChecksum arch mem first rest dataLength start res flags
          pcrTcpV6Checksum pcrFixTcpV6Checksum pcrUdpV6Checksum pcrFixUdpV6Checksum := by
    have status := qualified.status
    have goesOn : ¬(res.ipStatus = .notIP ∨ res.ipCheckSum = .tooShort) := by
      rw [status, not_or]
      refine ⟨?_, qualified.long⟩
      cases version <;> nofun
    rw [checkSumVerify]
    rw [found, Option.bind_some, if_neg goesOn, status]
    cases version <;> rfl
  rw [enters]
  cases version with
  | v6 =>
    exact verifyXxpChecksum_verdict transport qualified contained complete short layout length
      asked noPH
  | v4 =>
    have options : 20 ≤ upper := by
      cases packet with
      | v4 => omega
    dsimp only
    split
    · -- the check of the IP header leaves alone what the other one looks at
      have kept := verifyIpChecksum_kept arch mem (first.virtual + start) res
        (decide (flags &&& pcrFixIPChecksum ≠ 0))
      have stays := verifyIpChecksum_qualified arch mem (first.virtual + start) qualified
        (decide (flags &&& pcrFixIPChecksum ≠ 0))
      have len := packet.length_eq (by omega) short stays
      rw [← kept.getXxpHeaderAndPayloadLen stays.status] at len
      have pseudo : driverPseudoHeader _ (first.virtual + start) .v4 (full - upper) =
          driverPseudoHeader mem (first.virtual + start) .v4 (full - upper) :=
        kept.ipv4PseudoHeader (full - upper)
      rw [← pseudo, ← kept.upperBytes options layout]
      exact verifyXxpChecksum_verdict transport stays contained complete short layout len asked noPH
    · exact verifyXxpChecksum_verdict transport qualified contained complete short layout length
        asked noPH

/-- The packets that the driver knows all about: no header stands between the base header and
the transport header, a datagram takes up the rest of the packet, and it has a checksum. -/
structure Plain (mem : Memory) (ip : Nat) (version : IpVersion) (protocol upper full : Nat) :
    Prop where
  direct : baseProtocol mem ip version = protocol
  short : full ≤ 65535
  datagram : protocol = protocolUDP → be16 mem (ip + upper + 4) = full - upper
  given : ¬NoChecksum mem ip version protocol upper

theorem Plain.upper_le (plain : Plain mem ip version protocol upper full)
    (packet : IpPacket mem ip version protocol upper full) : upper ≤ 252 := by
  have direct := plain.direct
  cases packet with
  | v4 => omega
  | v6 _ chain =>
    rw [baseProtocol] at direct
    rw [direct] at chain
    have there := chain.upper_eq
    omega

theorem Plain.upperLength_eq (plain : Plain mem ip version protocol upper full) :
    upperLength mem ip protocol upper full = full - upper := by
  unfold upperLength
  split
  · rename_i udp
    exact plain.datagram udp
  · rfl

/-- **The verdict is right.**  A packet that is there as a whole is reported to have a correct
TCP or UDP checksum exactly if it has one, whatever its options, contents and pages. -/
theorem checkSumVerify_accepts (arch : Arch)
    (packet : IpPacket mem (first.virtual + start) version protocol upper full)
    (contained : full ≤ dataLength) (complete : upper + xxpHeaderSize protocol ≤ full)
    (plain : Plain mem (first.virtual + start) version protocol upper full) (enough : 27 ≤ fuel)
    (layout : InPages protocol upper full first rest start)
    (asked : flags &&& requestOf version protocol ≠ 0) (noPH : flags &&& pcrFixPHChecksum = 0)
    (verifyLength : Bool) :
    ∃ mem' res, checkSumVerify arch mem fuel first rest dataLength start flags verifyLength =
        some (mem', res) ∧
      (res.xxpCheckSum = .csOK ↔ ChecksumAccepted mem (first.virtual + start) version protocol
        upper full (first :: rest) start) := by
  obtain ⟨mem', res, result, verdict⟩ := checkSumVerify_verdict packet contained complete
    (plain.upper_le packet) plain.short enough layout asked noPH verifyLength
  refine ⟨mem', res, result, verdict.trans ?_⟩
  rw [ChecksumAccepted, plain.direct, plain.upperLength_eq]
  exact (or_iff_right plain.given).symm

end Whole

/-- A UDP datagram without payload, from 10.0.0.1 to 10.0.0.2. -/
def smallDatagram (checksum : List Byte) : Memory :=
  memory ([0x45, 0, 0, 28, 0, 0, 0, 0, 64, 17, 0, 0, 10, 0, 0, 1, 10, 0, 0, 2] ++
    [0, 1, 0, 2, 0, 8] ++ checksum)

theorem checkSumVerify_accepts_small :
    ChecksumAccepted (smallDatagram [0xEB, 0xD8]) 0 .v4 17 20 28 [⟨0, 28⟩] 0 ∧
      ∃ mem' res, checkSumVerify .x64 (smallDatagram [0xEB, 0xD8]) 27 ⟨0, 28⟩ [] 28 0
          pcrUdpV4Checksum true = some (mem', res) ∧
        (res.xxpCheckSum = .csOK ↔
          ChecksumAccepted (smallDatagram [0xEB, 0xD8]) 0 .v4 17 20 28 [⟨0, 28⟩] 0) := by
  refine ⟨Or.inr (by decide +kernel), ?_⟩
  have packet : IpPacket (smallDatagram [0xEB, 0xD8]) 0 .v4 17 20 28 :=
    .v4 (by decide) (by decide) (Or.inr rfl)
  have plain : Plain (smallDatagram [0xEB, 0xD8]) 0 .v4 17 20 28 :=
    ⟨by decide, by decide, fun _ => by decide, fun none => absurd none.2.2 (by decide)⟩
  have layout : InPages 17 20 28 ⟨0, 28⟩ [] 0 := by
    refine ⟨by decide, by decide, nofun, ?_⟩
    intro k after before
    cases k with
    | zero => cases after
    | succ k =>
      have whole : pageBoundary [⟨0, 28⟩] (k + 1) = 28 + pageBoundary [] k :=
        pageBoundary_cons _ _ k
      omega
  exact checkSumVerify_accepts .x64 packet (by decide) (by decide) plain (by decide) layout
    (by decide) (by decide) true

/-- A UDP datagram from `::1` to `::2` behind a hop-by-hop options header. -/
def hopByHopDatagram : Memory :=
  memory ([0x60, 0, 0, 0, 0, 16, 0, 64] ++
    [0, 0, 0, 0, 0, 0, 0, 0, 0, 0, 0, 0, 0, 0, 0, 1] ++
    [0, 0, 0, 0, 0, 0, 0, 0, 0, 0, 0, 0, 0, 0, 0, 2] ++
    [17, 0, 1, 4, 0, 0, 0, 0] ++ [0, 1, 0, 2, 0, 8, 0xFF, 0xD8])

/-- The checksum of the datagram behind the options is right, and it is reported to be bad, because
the pseudo-header names the options; and so is a datagram that comes without a checksum. -/
theorem accepted_reported_bad : (IpPacket hopByHopDatagram 0 .v6 17 48 56 ∧
      ChecksumAccepted hopByHopDatagram 0 .v6 17 48 56 [⟨0, 56⟩] 0 ∧
      (checkSumVerify .x64 hopByHopDatagram 27 ⟨0, 56⟩ [] 56 0 pcrUdpV6Checksum true).map
        (fun result => result.2.xxpCheckSum) = some .csBad) ∧
    IpPacket (smallDatagram [0, 0]) 0 .v4 17 20 28 ∧ NoChecksum (smallDatagram [0, 0]) 0 .v4 17 20 ∧
      (checkSumVerify .x64 (smallDatagram [0, 0]) 27 ⟨0, 28⟩ [] 28 0 pcrUdpV4Checksum true).map
        (fun result => result.2.xxpCheckSum) = some .csBad := by
  refine ⟨⟨?_, Or.inr (by decide +kernel), by decide +kernel⟩, ?_, ?_, by decide +kernel⟩
  · have options : Chain hopByHopDatagram 0 0 40 17 48 :=
      .option (by decide) (.transport (Or.inr rfl))
    exact .v6 (by decide) options
  · exact .v4 (by decide) (by decide) (Or.inr rfl)
  · exact ⟨rfl, rfl, by decide⟩

end KvmGuestDrivers.NetKvm

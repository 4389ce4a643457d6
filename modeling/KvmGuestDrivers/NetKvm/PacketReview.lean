/-
# NetKvm.PacketReview -- what the driver takes an IP packet for

`QualifyIpPacket` looks at the headers of an IP packet: the version, the lengths, and, in an
IPv6 packet, the chain of extension headers up to the transport header.  Its result is a record
of a few bits per question.

The walk is a loop that need not end: the size of the headers is kept in 16 bits and can wrap
around in frames of more than 64 KiB.  It is given fuel, and a chain says how much is enough.
-/
import KvmGuestDrivers.NetKvm.Checksum
import KvmGuestDrivers.Theory.Loop

namespace KvmGuestDrivers.NetKvm

set_option autoImplicit false

open Theory

/-! ## The result -/

inductive IpStatus where
  | notTested
  | notIP
  | ipv4
  | ipv6
  deriving DecidableEq

inductive IpCheckSum where
  | notTested
  | tooShort
  | csOK
  | csBad
  deriving DecidableEq

inductive XxpCheckSum where
  | notTested
  | pcsOK
  | csOK
  | csBad
  deriving DecidableEq

inductive XxpStatus where
  | notTested
  | other
  | known
  | incomplete
  deriving DecidableEq

inductive TcpUdp where
  | isTCP
  | isUDP
  deriving DecidableEq

/-- `tTcpIpPacketParsingResult`; the two sizes are fields of eight bits. -/
structure ParsingResult where
  ipStatus : IpStatus := .notTested
  ipCheckSum : IpCheckSum := .notTested
  xxpCheckSum : XxpCheckSum := .notTested
  xxpStatus : XxpStatus := .notTested
  xxpFull : Bool := false
  tcpUdp : TcpUdp := .isTCP
  fixedIpCS : Bool := false
  fixedXxpCS : Bool := false
  isFragment : Bool := false
  ipHeaderSize : Nat := 0
  xxpIpHeaderSize : Nat := 0
  deriving DecidableEq

def protocolTCP : Nat := 6

def protocolUDP : Nat := 17

/-! ## The functions -/

section Functions

variable (mem : Memory) (ip : Nat)

def ipHeaderLength : Nat := ((mem ip).toNat &&& 0x0F) <<< 2

def ipHeaderVersion : Nat := ((mem ip).toNat &&& 0xF0) >>> 4

def processTCPHeader (res : ParsingResult) (len ipHeaderSize : Nat) : ParsingResult :=
  if ipHeaderSize + 20 ≤ len then
    { res with
      tcpUdp := .isTCP
      xxpStatus := .known
      xxpFull := true
      xxpIpHeaderSize := (ipHeaderSize + (le16 mem (ip + ipHeaderSize + 12) &&& 0xF0) >>> 2) % 256 }
  else { res with tcpUdp := .isTCP, xxpFull := false, xxpStatus := .incomplete }

def processUDPHeader (res : ParsingResult) (len ipHeaderSize : Nat) : ParsingResult :=
  let res := { res with tcpUdp := .isUDP, xxpIpHeaderSize := (ipHeaderSize + 8) % 256 }
  if ipHeaderSize + 8 ≤ len then { res with xxpStatus := .known, xxpFull := true }
  else { res with xxpFull := false, xxpStatus := .incomplete }

def extHeaders : List Nat := [0, 60, 43, 44, 51, 50, 135]

/-- `while (nextHeader != 59)`; the result and `ipHeaderSize`, `none` when out of fuel. -/
def walkExtHeaders (len fullLength : Nat) (res : ParsingResult) :
    (fuel nextHeader ipHeaderSize : Nat) → Option (ParsingResult × Nat)
  | 0, _, _ => none
  | fuel + 1, nextHeader, ipHeaderSize =>
    if nextHeader = 59 then some (res, ipHeaderSize)
    else if nextHeader = protocolTCP then
      let res := { res with
        xxpStatus := .known, tcpUdp := .isTCP, xxpFull := decide (fullLength ≤ len) }
      some (processTCPHeader mem ip res len ipHeaderSize, ipHeaderSize)
    else if nextHeader = protocolUDP then
      let res := { res with
        xxpStatus := .known, tcpUdp := .isUDP, xxpFull := decide (fullLength ≤ len) }
      some (processUDPHeader res len ipHeaderSize, ipHeaderSize)
    else if nextHeader ∈ extHeaders then
      if ipHeaderSize + 8 ≤ len then
        walkExtHeaders len fullLength res fuel (mem (ip + ipHeaderSize)).toNat
          ((ipHeaderSize + 8 + (mem (ip + ipHeaderSize + 1)).toNat * 8) % 65536)
      else some ({ res with ipStatus := .notIP }, ipHeaderSize)
    else some ({ res with xxpStatus := .other }, ipHeaderSize)

def qualifyIpv4 (len : Nat) (verifyLength : Bool) : ParsingResult :=
  if len < 20 then { ipStatus := .notIP }
  else
    let ipHeaderSize := ipHeaderLength mem ip
    let fullLength := swapShort (le16 mem (ip + 2))
    if ipHeaderSize < 20 then { ipStatus := .notIP }
    else if fullLength ≤ ipHeaderSize ∨ verifyLength = true ∧ len < fullLength then
      { ipStatus := .ipv4, ipCheckSum := .tooShort }
    else
      let res : ParsingResult := {
        ipStatus := .ipv4
        ipHeaderSize := ipHeaderSize % 256
        -- more fragments, or an offset; all but the two bits above them
        isFragment := decide (le16 mem (ip + 6) &&& 0xFF3F ≠ 0) }
      if (mem (ip + 9)).toNat = protocolTCP then processTCPHeader mem ip res len ipHeaderSize
      else if (mem (ip + 9)).toNat = protocolUDP then processUDPHeader res len ipHeaderSize
      else { res with xxpStatus := .other }

/-- `QualifyIpPacket`, the part for version 6.  The length of the packet is a `USHORT`, and what
the headers may come to is 252 bytes. -/
def qualifyIpv6 (fuel len : Nat) (verifyLength : Bool) : Option ParsingResult :=
  if len < 40 then some { ipStatus := .notIP }
  else
    let fullLength := (swapShort (le16 mem (ip + 4)) + 40) % 65536
    if verifyLength = true ∧ len < fullLength then some { ipStatus := .notIP, ipCheckSum := .csOK }
    else
      (walkExtHeaders mem ip len fullLength { ipStatus := .ipv6, ipCheckSum := .csOK } fuel
        (mem (ip + 6)).toNat 40).map fun (res, ipHeaderSize) =>
          if ipHeaderSize ≤ 252 ∧ ipHeaderSize ≤ fullLength then
            { res with ipHeaderSize := ipHeaderSize % 256 }
          else { res with ipStatus := .notIP }

def qualifyIpPacket (fuel len : Nat) (verifyLength : Bool) : Option ParsingResult :=
  if len < 4 then some { ipStatus := .notIP }
  else if ipHeaderVersion mem ip = 4 then some (qualifyIpv4 mem ip len verifyLength)
  else if ipHeaderVersion mem ip = 6 then qualifyIpv6 mem ip fuel len verifyLength
  else some { ipStatus := .notIP }

end Functions

/-! ## Packets -/

inductive IpVersion where
  | v4
  | v6

/-- The numbers of the hop-by-hop, routing and destination options headers. -/
def optionHeaders : List Nat := [0, 43, 60]

/-- From a header of type `nextHeader` at `offset` the chain leads to the transport header of
`protocol` at `upper`; each header says what is next and how long it is. -/
inductive Chain (mem : Memory) (ip : Nat) :
    (nextHeader offset protocol upper : Nat) → Prop where
  | transport {protocol upper} : protocol = protocolTCP ∨ protocol = protocolUDP →
      Chain mem ip protocol upper protocol upper
  | option {nextHeader offset protocol upper} : nextHeader ∈ optionHeaders →
      Chain mem ip (mem (ip + offset)).toNat (offset + 8 * ((mem (ip + offset + 1)).toNat + 1))
        protocol upper → Chain mem ip nextHeader offset protocol upper

/-- An IP packet of `full` bytes whose transport header is at `upper`. -/
inductive IpPacket (mem : Memory) (ip : Nat) :
    IpVersion → (protocol upper full : Nat) → Prop where
  | v4 : (mem ip).toNat / 16 = 4 → 5 ≤ (mem ip).toNat % 16 →
      (mem (ip + 9)).toNat = protocolTCP ∨ (mem (ip + 9)).toNat = protocolUDP →
      IpPacket mem ip .v4 (mem (ip + 9)).toNat (4 * ((mem ip).toNat % 16)) (be16 mem (ip + 2))
  | v6 {protocol upper} : (mem ip).toNat / 16 = 6 →
      Chain mem ip (mem (ip + 6)).toNat 40 protocol upper →
      IpPacket mem ip .v6 protocol upper (be16 mem (ip + 4) + 40)

def xxpHeaderSize (protocol : Nat) : Nat := if protocol = protocolTCP then 20 else 8

def tcpUdpOf (protocol : Nat) : TcpUdp := if protocol = protocolTCP then .isTCP else .isUDP

def IpVersion.status : IpVersion → IpStatus
  | .v4 => .ipv4
  | .v6 => .ipv6

/-! ## Fields -/

variable (mem : Memory)

theorem swapShort_le16 (i : Nat) : swapShort (le16 mem i) = be16 mem i := by
  unfold swapShort le16 be16
  omega

variable (ip : Nat)

theorem ipHeaderLength_eq : ipHeaderLength mem ip = 4 * ((mem ip).toNat % 16) := by
  have all : ∀ x : BitVec 8, (x.toNat &&& 0x0F) <<< 2 = 4 * (x.toNat % 16) := by decide
  exact all (mem ip)

theorem ipHeaderVersion_eq : ipHeaderVersion mem ip = (mem ip).toNat / 16 := by
  have all : ∀ x : BitVec 8, (x.toNat &&& 0xF0) >>> 4 = x.toNat / 16 := by decide
  exact all (mem ip)

/-! ## The walk -/

variable {nextHeader offset protocol upper fuel : Nat} {version : IpVersion}

variable {mem}

variable {ip}

theorem Chain.protocol_eq (chain : Chain mem ip nextHeader offset protocol upper) :
    protocol = protocolTCP ∨ protocol = protocolUDP := by
  induction chain with
  | transport is => exact is
  | option _ _ ih => exact ih

theorem Chain.le (chain : Chain mem ip nextHeader offset protocol upper) : offset ≤ upper := by
  induction chain with
  | transport => exact le_rfl
  | option => omega

theorem Chain.upper_eq (chain : Chain mem ip protocol offset protocol upper) : upper = offset := by
  have is := chain.protocol_eq
  cases chain with
  | transport => rfl
  | option member =>
    rcases is with rfl | rfl <;> exact absurd member (by decide)

theorem IpPacket.protocol_eq {full : Nat} (packet : IpPacket mem ip version protocol upper full) :
    protocol = protocolTCP ∨ protocol = protocolUDP := by
  cases packet with
  | v4 _ _ is => exact is
  | v6 _ chain => exact chain.protocol_eq

/-- What the driver knows of a packet of which it has found the transport header. -/
structure Qualified (res : ParsingResult) (version : IpVersion) (protocol upper : Nat) : Prop where
  status : res.ipStatus = version.status
  long : res.ipCheckSum ≠ .tooShort
  known : res.xxpStatus = .known
  full : res.xxpFull = true
  transport : res.tcpUdp = tcpUdpOf protocol
  size : res.ipHeaderSize = upper

/-- What the transport headers add to the record. -/
structure Reached (before after : ParsingResult) (protocol : Nat) : Prop where
  status : after.ipStatus = before.ipStatus
  ipCheckSum : after.ipCheckSum = before.ipCheckSum
  size : after.ipHeaderSize = before.ipHeaderSize
  known : after.xxpStatus = .known
  full : after.xxpFull = true
  transport : after.tcpUdp = tcpUdpOf protocol

/-- A record that is right about the IP header is right about the packet. -/
theorem Reached.qualified {before after : ParsingResult} (reached : Reached before after protocol)
    (status : before.ipStatus = version.status) (long : before.ipCheckSum ≠ .tooShort)
    (size : before.ipHeaderSize = upper) : Qualified after version protocol upper :=
  ⟨reached.status.trans status, reached.ipCheckSum ▸ long, reached.known, reached.full,
    reached.transport, reached.size.trans size⟩

section Walk

variable {len ipHeaderSize : Nat}

theorem processTCPHeader_reached (mem : Memory) (ip : Nat) (res : ParsingResult)
    (complete : ipHeaderSize + 20 ≤ len) :
    Reached res (processTCPHeader mem ip res len ipHeaderSize) protocolTCP := by
  rw [processTCPHeader, if_pos complete]
  exact ⟨rfl, rfl, rfl, rfl, rfl, rfl⟩

theorem processUDPHeader_reached (res : ParsingResult) (complete : ipHeaderSize + 8 ≤ len) :
    Reached res (processUDPHeader res len ipHeaderSize) protocolUDP := by
  rw [processUDPHeader, if_pos complete]
  exact ⟨rfl, rfl, rfl, rfl, rfl, rfl⟩

theorem walkExtHeaders_step {fullLength : Nat} {res : ParsingResult}
    (member : nextHeader ∈ extHeaders) :
    walkExtHeaders mem ip len fullLength res (fuel + 1) nextHeader offset =
      if offset + 8 ≤ len then
        walkExtHeaders mem ip len fullLength res fuel (mem (ip + offset)).toNat
          ((offset + 8 + (mem (ip + offset + 1)).toNat * 8) % 65536)
      else some ({ res with ipStatus := .notIP }, offset) := by
  have numbers : ∀ n ∈ extHeaders, n ≠ 59 ∧ n ≠ protocolTCP ∧ n ≠ protocolUDP := by decide
  obtain ⟨notLast, notTCP, notUDP⟩ := numbers nextHeader member
  rw [walkExtHeaders, if_neg notLast, if_neg notTCP, if_neg notUDP, if_pos member]

/-- The walk follows the chain.  A header takes at least eight bytes, which bounds the number
of turns; the sizes do not wrap around as long as they fit into 16 bits. -/
theorem walkExtHeaders_chain (fullLength : Nat) (res : ParsingResult)
    (chain : Chain mem ip nextHeader offset protocol upper)
    (complete : upper + xxpHeaderSize protocol ≤ len) (short : upper < 65536)
    (enough : upper < offset + 8 * fuel) :
    ∃ after, walkExtHeaders mem ip len fullLength res fuel nextHeader offset = some (after, upper) ∧
      Reached res after protocol := by
  induction chain generalizing fuel with
  | transport is =>
    obtain ⟨fuel, rfl⟩ : ∃ n, fuel = n + 1 := ⟨fuel - 1, by omega⟩
    rcases is with rfl | rfl
    · have reached := processTCPHeader_reached mem ip { res with
        xxpStatus := .known, tcpUdp := .isTCP, xxpFull := decide (fullLength ≤ len) } complete
      exact ⟨_, rfl, { reached with }⟩
    · have reached := processUDPHeader_reached { res with
        xxpStatus := .known, tcpUdp := .isUDP, xxpFull := decide (fullLength ≤ len) } complete
      exact ⟨_, rfl, { reached with }⟩
  | @option nextHeader offset _ _ member rest ih =>
    have le := rest.le
    obtain ⟨fuel, rfl⟩ : ∃ n, fuel = n + 1 := ⟨fuel - 1, by omega⟩
    have next : (offset + 8 + (mem (ip + offset + 1)).toNat * 8) % 65536 =
        offset + 8 * ((mem (ip + offset + 1)).toNat + 1) := by
      omega
    have walked : nextHeader ∈ extHeaders := by
      simp only [optionHeaders, List.mem_cons, List.not_mem_nil, or_false] at member
      rcases member with rfl | rfl | rfl <;> decide
    rw [walkExtHeaders_step walked, if_pos (by omega), next]
    exact ih complete short (by omega)

end Walk

/-- What is made of a packet that is there as a whole, whatever its chain of headers: the record
says where the transport header is.  IPv6 headers must not take more than 252 bytes, nor the
packet more than 65535. -/
theorem qualifyIpPacket_qualified {full len : Nat}
    (packet : IpPacket mem ip version protocol upper full) (contained : full ≤ len)
    (complete : upper + xxpHeaderSize protocol ≤ full) (small : upper ≤ 252) (short : full ≤ 65535)
    (enough : 27 ≤ fuel) (verifyLength : Bool) :
    ∃ res, qualifyIpPacket mem ip fuel len verifyLength = some res ∧
      Qualified res version protocol upper := by
  have header : 8 ≤ xxpHeaderSize protocol := by
    unfold xxpHeaderSize
    split <;> decide
  cases packet with
  | v4 is _ transport =>
    have size := ipHeaderLength_eq mem ip
    have length := swapShort_le16 mem (ip + 2)
    rw [← size] at complete small ⊢
    refine ⟨qualifyIpv4 mem ip len verifyLength, ?_, ?_⟩
    · rw [qualifyIpPacket, if_neg (by omega), if_pos (by rw [ipHeaderVersion_eq]; exact is)]
    rw [qualifyIpv4, if_neg (by omega), if_neg (by omega), if_neg (by omega)]
    rcases transport with tcp | udp
    · rw [tcp] at complete ⊢
      have fits := le_trans complete contained
      refine (processTCPHeader_reached mem ip _ fits).qualified rfl nofun ?_
      exact Nat.mod_eq_of_lt (by omega)
    · rw [udp] at complete ⊢
      have fits := le_trans complete contained
      refine (processUDPHeader_reached _ fits).qualified rfl nofun ?_
      exact Nat.mod_eq_of_lt (by omega)
  | v6 is chain =>
    have length : (swapShort (le16 mem (ip + 4)) + 40) % 65536 = be16 mem (ip + 4) + 40 := by
      rw [swapShort_le16, Nat.mod_eq_of_lt (by omega)]
    have turns : upper < 40 + 8 * fuel := by omega
    obtain ⟨after, walked, reached⟩ := walkExtHeaders_chain (be16 mem (ip + 4) + 40)
      { ipStatus := .ipv6, ipCheckSum := .csOK } chain (le_trans complete contained)
      (by omega) turns
    refine ⟨{ after with ipHeaderSize := upper % 256 }, ?_, ?_⟩
    · rw [qualifyIpPacket, if_neg (by omega), if_neg (by rw [ipHeaderVersion_eq]; omega),
        if_pos (by rw [ipHeaderVersion_eq]; exact is), qualifyIpv6, if_neg (by omega), length,
        if_neg (by omega), walked]
      exact congrArg some (if_pos ⟨small, by omega⟩)
    · exact ⟨reached.status, reached.ipCheckSum ▸ nofun, reached.known, reached.full,
        reached.transport, Nat.mod_eq_of_lt (by omega)⟩

/-! ## Termination and reads -/

/-- The fields of a transport header that are looked at, when the header is there. -/
def transportReads (protocol len ipHeaderSize : Nat) : List Nat :=
  if protocol = protocolTCP ∧ ipHeaderSize + 20 ≤ len then [ipHeaderSize + 12, ipHeaderSize + 13]
  else if protocol = protocolUDP ∧ ipHeaderSize + 8 ≤ len then [ipHeaderSize + 4, ipHeaderSize + 5]
  else []

def walkReads (mem : Memory) (ip len : Nat) : (fuel nextHeader ipHeaderSize : Nat) → List Nat
  | 0, _, _ => []
  | fuel + 1, nextHeader, ipHeaderSize =>
    if nextHeader ∈ extHeaders ∧ ipHeaderSize + 8 ≤ len then
      [ipHeaderSize, ipHeaderSize + 1] ++ walkReads mem ip len fuel (mem (ip + ipHeaderSize)).toNat
        ((ipHeaderSize + 8 + (mem (ip + ipHeaderSize + 1)).toNat * 8) % 65536)
    else transportReads nextHeader len ipHeaderSize

/-- The offsets of the bytes that `qualifyIpPacket` reads, if it does not return before. -/
def qualifyReads (mem : Memory) (ip fuel len : Nat) : List Nat :=
  if len < 4 then []
  else if ipHeaderVersion mem ip = 4 ∧ 20 ≤ len then
    [0, 2, 3, 6, 7, 9] ++ transportReads (mem (ip + 9)).toNat len (ipHeaderLength mem ip)
  else if ipHeaderVersion mem ip = 6 ∧ 40 ≤ len then
    [0, 4, 5, 6] ++ walkReads mem ip len fuel (mem (ip + 6)).toNat 40
  else [0]

section Ends

variable {len : Nat}

theorem transportReads_inside : ∀ i ∈ transportReads protocol len offset, i < len := by
  grind [transportReads]

theorem walkReads_inside : ∀ i ∈ walkReads mem ip len fuel nextHeader offset, i < len := by
  induction fuel generalizing nextHeader offset with
  | zero => nofun
  | succ fuel ih =>
    rw [walkReads]
    split
    · exact List.forall_mem_append.mpr ⟨by simp; omega, ih⟩
    · exact transportReads_inside

theorem qualifyReads_inside : ∀ i ∈ qualifyReads mem ip fuel len, i < len := by
  unfold qualifyReads
  split
  · nofun
  split
  · exact List.forall_mem_append.mpr ⟨by simp; omega, transportReads_inside⟩
  split
  · exact List.forall_mem_append.mpr ⟨by simp; omega, walkReads_inside⟩
  · simp
    omega

section Congruence

variable {other : Memory}

theorem processTCPHeader_congr (res : ParsingResult)
    (agree : ∀ i ∈ transportReads protocolTCP len offset, other (ip + i) = mem (ip + i)) :
    processTCPHeader other ip res len offset = processTCPHeader mem ip res len offset := by
  unfold processTCPHeader
  split
  · rename_i complete
    rw [transportReads, if_pos ⟨rfl, complete⟩] at agree
    simp only [le16, Nat.add_assoc, agree _ (List.mem_cons_self ..),
      agree _ (List.mem_cons_of_mem _ (List.mem_cons_self ..))]
  · rfl

theorem walkExtHeaders_congr (fullLength : Nat) (res : ParsingResult)
    (agree : ∀ i ∈ walkReads mem ip len fuel nextHeader offset, other (ip + i) = mem (ip + i)) :
    walkExtHeaders other ip len fullLength res fuel nextHeader offset =
      walkExtHeaders mem ip len fullLength res fuel nextHeader offset := by
  induction fuel generalizing nextHeader offset with
  | zero => rfl
  | succ fuel ih =>
    rw [walkReads] at agree
    by_cases member : nextHeader ∈ extHeaders
    · rw [walkExtHeaders_step member, walkExtHeaders_step member]
      by_cases fits : offset + 8 ≤ len
      · rw [if_pos ⟨member, fits⟩] at agree
        obtain ⟨here, rest⟩ := List.forall_mem_append.mp agree
        rw [if_pos fits, if_pos fits, here offset (by simp), Nat.add_assoc ip,
          here (offset + 1) (by simp)]
        exact ih rest
      · rw [if_neg fits, if_neg fits]
    · rw [if_neg fun both => member both.1] at agree
      rw [walkExtHeaders, walkExtHeaders, if_neg member, if_neg member]
      by_cases tcp : nextHeader = protocolTCP
      · subst tcp
        simp only [processTCPHeader_congr _ agree]
      · rw [if_neg tcp, if_neg tcp]

/-- The record depends on the bytes that are read, and on no others. -/
theorem qualifyIpPacket_congr (verifyLength : Bool)
    (agree : ∀ i ∈ qualifyReads mem ip fuel len, other (ip + i) = mem (ip + i)) :
    qualifyIpPacket other ip fuel len verifyLength =
      qualifyIpPacket mem ip fuel len verifyLength := by
  unfold qualifyIpPacket
  rw [qualifyReads] at agree
  by_cases tiny : len < 4
  · rw [if_pos tiny, if_pos tiny]
  rw [if_neg tiny] at agree
  have first : other (ip + 0) = mem (ip + 0) := by
    refine agree 0 ?_
    split_ifs <;> simp
  have version : ipHeaderVersion other ip = ipHeaderVersion mem ip := by
    rw [ipHeaderVersion, ipHeaderVersion, ← Nat.add_zero ip, first]
  rw [if_neg tiny, if_neg tiny, version]
  split_ifs with four six
  · refine congrArg some ?_
    unfold qualifyIpv4
    by_cases short : len < 20
    · rw [if_pos short, if_pos short]
    rw [if_pos ⟨four, Nat.not_lt.mp short⟩] at agree
    obtain ⟨fixed, transport⟩ := List.forall_mem_append.mp agree
    have size : ipHeaderLength other ip = ipHeaderLength mem ip := by
      rw [ipHeaderLength, ipHeaderLength, ← Nat.add_zero ip, first]
    simp only [le16, Nat.add_assoc, fixed 2 (by simp), fixed 3 (by simp), fixed 6 (by simp),
      fixed 7 (by simp), fixed 9 (by simp), size]
    by_cases tcp : (mem (ip + 9)).toNat = protocolTCP
    · rw [tcp] at transport
      simp only [processTCPHeader_congr _ transport]
    · simp only [tcp, if_false]
  · unfold qualifyIpv6
    by_cases short : len < 40
    · rw [if_pos short, if_pos short]
    rw [if_neg fun both => four both.1, if_pos ⟨six, Nat.not_lt.mp short⟩] at agree
    obtain ⟨fixed, walk⟩ := List.forall_mem_append.mp agree
    simp only [le16, Nat.add_assoc, fixed 4 (by simp), fixed 5 (by simp), fixed 6 (by simp),
      walkExtHeaders_congr _ _ walk]
  · rfl

end Congruence

/-- The header after `k` extension headers, and its exact offset; the walk looks for it modulo
`2 ^ 16`. -/
def walkAt (mem : Memory) (ip : Nat) : Nat → Nat × Nat
  | 0 => ((mem (ip + 6)).toNat, 40)
  | k + 1 => let offset := (walkAt mem ip k).2
    ((mem (ip + offset % 65536)).toNat,
      offset + 8 * ((mem (ip + offset % 65536 + 1)).toNat + 1))

def StepsOver (mem : Memory) (ip len k : Nat) : Prop :=
  (walkAt mem ip k).1 ∈ extHeaders ∧ (walkAt mem ip k).2 % 65536 + 8 ≤ len

instance (mem : Memory) (ip len : Nat) : DecidablePred (StepsOver mem ip len) := fun _ =>
  inferInstanceAs (Decidable (_ ∧ _))

/-- What a turn returns that does not step over its header. -/
def lastTurn (mem : Memory) (ip len fullLength : Nat) (res : ParsingResult) (k : Nat) :
    ParsingResult × Nat :=
  (walkExtHeaders mem ip len fullLength res 1 (walkAt mem ip k).1
    ((walkAt mem ip k).2 % 65536)).getD (res, 0)

theorem lastTurn_eq {k : Nat} (fullLength : Nat) (res : ParsingResult)
    (stops : ¬ StepsOver mem ip len k) :
    (lastTurn mem ip len fullLength res k).2 = (walkAt mem ip k).2 % 65536 ∧
      (lastTurn mem ip len fullLength res k).1.ipStatus =
        (if (walkAt mem ip k).1 ∈ extHeaders then .notIP else res.ipStatus) ∧
      ∀ fuel, walkExtHeaders mem ip len fullLength res (fuel + 1) (walkAt mem ip k).1
        ((walkAt mem ip k).2 % 65536) = some (lastTurn mem ip len fullLength res k) := by
  unfold lastTurn
  by_cases member : (walkAt mem ip k).1 ∈ extHeaders
  · have cut : ¬ (walkAt mem ip k).2 % 65536 + 8 ≤ len := fun fits => stops ⟨member, fits⟩
    simp only [walkExtHeaders_step member, if_neg cut, if_pos member]
    exact ⟨rfl, rfl, fun _ => rfl⟩
  · simp only [walkExtHeaders, if_neg member]
    split_ifs
    · exact ⟨rfl, rfl, fun _ => rfl⟩
    · exact ⟨rfl, by simp only [processTCPHeader]; split <;> rfl, fun _ => rfl⟩
    · exact ⟨rfl, by simp only [processUDPHeader]; split <;> rfl, fun _ => rfl⟩
    · exact ⟨rfl, rfl, fun _ => rfl⟩

theorem walkExtHeaders_turn (fullLength : Nat) (res : ParsingResult) (fuel k : Nat) :
    walkExtHeaders mem ip len fullLength res (fuel + 1) (walkAt mem ip k).1
        ((walkAt mem ip k).2 % 65536) =
      if StepsOver mem ip len k then
        walkExtHeaders mem ip len fullLength res fuel (walkAt mem ip (k + 1)).1
          ((walkAt mem ip (k + 1)).2 % 65536)
      else some (lastTurn mem ip len fullLength res k) := by
  split
  · rename_i passed
    rw [walkExtHeaders_step passed.1, if_pos passed.2]
    congr 1
    simp only [walkAt]
    omega
  · rename_i stops
    exact (lastTurn_eq fullLength res stops).2.2 fuel

/-- The walk ends at the header that it does not step over, if there is one. -/
theorem walkExtHeaders_ends {fullLength : Nat} {res : ParsingResult}
    {result : ParsingResult × Nat} :
    (∃ fuel, walkExtHeaders mem ip len fullLength res fuel (mem (ip + 6)).toNat 40 =
      some result) ↔
      ∃ k, EndsAt (StepsOver mem ip len) k ∧ result = lastTurn mem ip len fullLength res k :=
  loop_ends (f := fun fuel k => walkExtHeaders mem ip len fullLength res fuel (walkAt mem ip k).1
    ((walkAt mem ip k).2 % 65536)) (fun _ => rfl) (walkExtHeaders_turn fullLength res)

theorem qualifyIpv4_status (mem : Memory) (ip len : Nat) (verifyLength : Bool) :
    (qualifyIpv4 mem ip len verifyLength).ipStatus ≠ .ipv6 := by
  simp only [qualifyIpv4, processTCPHeader, processUDPHeader]
  repeat' split
  all_goals nofun

/-- The packets whose headers are walked along. -/
def Walked (mem : Memory) (ip len : Nat) (verifyLength : Bool) : Prop :=
  40 ≤ len ∧ ipHeaderVersion mem ip = 6 ∧
    (verifyLength = true → (be16 mem (ip + 4) + 40) % 65536 ≤ len)

/-- The walk comes to an end; and where that is at a header that is no extension header, and the 16
bits of its offset pass the last test, its offset has not wrapped and is in the packet. -/
def WalkRegular (mem : Memory) (ip len : Nat) : Prop :=
  ∃ k, EndsAt (StepsOver mem ip len) k ∧
    ((walkAt mem ip k).1 ∉ extHeaders → (walkAt mem ip k).2 % 65536 ≤ 252 →
      (walkAt mem ip k).2 % 65536 ≤ (be16 mem (ip + 4) + 40) % 65536 →
      (walkAt mem ip k).2 < 65536 ∧ (walkAt mem ip k).2 ≤ len)

theorem qualifyIpPacket_unwalked {verifyLength : Bool}
    (unwalked : ¬ Walked mem ip len verifyLength) :
    ∃ res, res.ipStatus ≠ .ipv6 ∧
      ∀ fuel, qualifyIpPacket mem ip fuel len verifyLength = some res := by
  unfold qualifyIpPacket
  split_ifs with tiny four six
  · exact ⟨{ ipStatus := .notIP }, nofun, fun _ => rfl⟩
  · exact ⟨_, qualifyIpv4_status mem ip len verifyLength, fun _ => rfl⟩
  · unfold qualifyIpv6
    split_ifs with short
    · exact ⟨{ ipStatus := .notIP }, nofun, fun _ => rfl⟩
    · have refused : verifyLength = true ∧
          len < (swapShort (le16 mem (ip + 4)) + 40) % 65536 := by
        rw [swapShort_le16]
        by_contra accepted
        exact unwalked ⟨Nat.not_lt.mp short, six,
          fun verify => Nat.not_lt.mp fun lt => accepted ⟨verify, lt⟩⟩
      simp only [if_pos refused]
      exact ⟨{ ipStatus := .notIP, ipCheckSum := .csOK }, nofun, fun _ => rfl⟩
  · exact ⟨{ ipStatus := .notIP }, nofun, fun _ => rfl⟩

theorem qualifyIpPacket_walked {verifyLength : Bool} (walked : Walked mem ip len verifyLength)
    (fuel : Nat) : qualifyIpPacket mem ip fuel len verifyLength =
      (walkExtHeaders mem ip len ((be16 mem (ip + 4) + 40) % 65536)
        { ipStatus := .ipv6, ipCheckSum := .csOK } fuel (mem (ip + 6)).toNat 40).map
          fun (res, ipHeaderSize) =>
            if ipHeaderSize ≤ 252 ∧ ipHeaderSize ≤ (be16 mem (ip + 4) + 40) % 65536 then
              { res with ipHeaderSize := ipHeaderSize % 256 }
            else { res with ipStatus := .notIP } := by
  obtain ⟨long, six, verified⟩ := walked
  rw [qualifyIpPacket, if_neg (by omega), if_neg (by omega), if_pos six, qualifyIpv6,
    if_neg (by omega), swapShort_le16]
  exact if_neg fun refused => absurd (verified refused.1) (Nat.not_le.mpr refused.2)

/-- An IPv6 packet with a hop-by-hop and a destination options header before its UDP header. -/
def optionedPacket : Memory := fun i =>
  if i = 0 then 0x60 else if i = 5 then 40 else if i = 6 then 0 else if i = 40 then 60
  else if i = 48 then 17 else if i = 49 then 1 else 0

/-- Extension headers of 2 KiB each, in a packet of less than 64 KiB. -/
def circularHeaders : Memory := fun i =>
  if i = 0 then 0x60 else if i % 2048 = 41 then 255 else 0

end Ends

end KvmGuestDrivers.NetKvm

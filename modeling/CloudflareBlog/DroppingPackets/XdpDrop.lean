import CloudflareBlog.Lib.Packet

/-!
# Dropping the benchmark traffic

`xdp_drop_benchmark_traffic` looks for the UDP header behind up to two VLAN tags and an IP header.  It
takes each IPv4 header for one of twenty bytes with a whole datagram behind it, and compares two bytes
of the IPv6 destination where its comments name a prefix of one.
-/

namespace CloudflareBlog.DroppingPackets

open Lib Lib.Packet
open Lib.Buffer (Byte)

inductive XdpAction where
  | drop
  | pass
  deriving DecidableEq, Repr

def htons (x : BitVec 16) : BitVec 16 := swap16 x

def htonl (x : BitVec 32) : BitVec 32 := swap32 x

def ethPIp : BitVec 16 := 0x0800

def ethPIpv6 : BitVec 16 := 0x86dd

def ethP8021Q : BitVec 16 := 0x8100

def ethP8021AD : BitVec 16 := 0x88a8

def ipprotoUdp : Byte := 17

/-! ## The code

An access outside the packet has no result. -/

/-- The loop over the tags: the protocol behind them and where its header begins, or nothing if the
packet ends in a tag. -/
def vlanTags (packet : List Byte) : Nat → BitVec 16 → Nat → Option (Option (BitVec 16 × Nat))
  | 0, hProto, nhOff => some (some (hProto, nhOff))
  | i + 1, hProto, nhOff =>
    if hProto = htons ethP8021Q ∨ hProto = htons ethP8021AD then
      -- Both fields of the tag have to be within the packet, though only the second is read.
      if nhOff + 4 > packet.length then some none
      else (load16 packet (nhOff + 2)).bind fun hProto => vlanTags packet i hProto (nhOff + 4)
    else vlanTags packet i hProto nhOff

def dropIpv4 (packet : List Byte) (nhOff : Nat) : Option XdpAction :=
  let udph := nhOff + 20
  if udph + 8 > packet.length then some .pass
  else do
    let protocol ← byteAt packet (nhOff + 9)
    let daddr ← load32 packet (nhOff + 16)
    let dest ← load16 packet (udph + 2)
    return if protocol = ipprotoUdp ∧ htonl daddr &&& 0xffffff00 = 0xc6120000 ∧ dest = htons 1234
      then .drop else .pass

def dropIpv6 (packet : List Byte) (nhOff : Nat) : Option XdpAction :=
  let udph := nhOff + 40
  if udph + 8 > packet.length then some .pass
  else do
    let nexthdr ← byteAt packet (nhOff + 6)
    let first ← byteAt packet (nhOff + 24)
    let second ← byteAt packet (nhOff + 25)
    let dest ← load16 packet (udph + 2)
    return if nexthdr = ipprotoUdp ∧ first = 0xfd ∧ second = 0x00 ∧ dest = htons 1234
      then .drop else .pass

def xdpDropBenchmarkTraffic (packet : List Byte) : Option XdpAction :=
  let nhOff := 14
  if nhOff > packet.length then some .pass
  else do
    let hProto ← load16 packet 12
    match ← vlanTags packet 2 hProto nhOff with
    | none => return .pass
    | some (hProto, nhOff) =>
      if hProto = htons ethPIp then dropIpv4 packet nhOff
      else if hProto = htons ethPIpv6 then dropIpv6 packet nhOff
      else return .pass

/-! ## The traffic -/

/-- The EtherType behind so many tags. -/
def etherType (packet : List Byte) (tags : Nat) : Option (BitVec 16) := network16 packet (12 + 4 * tags)

/-- An EtherType that announces a tag. -/
def Tag (proto : BitVec 16) : Prop := proto = ethP8021Q ∨ proto = ethP8021AD

instance decidableTag (proto : BitVec 16) : Decidable (Tag proto) :=
  inferInstanceAs (Decidable (_ ∨ _))

/-- An Ethernet frame with so many tags, and with this protocol behind them. -/
structure Carries (packet : List Byte) (proto : BitVec 16) (tags : Nat) : Prop where
  few : tags ≤ 2
  tagged : ∀ k < tags, ∃ tag, etherType packet k = some tag ∧ Tag tag
  proto : etherType packet tags = some proto

/-- Where the header of the protocol begins. -/
def network (tags : Nat) : Nat := 14 + 4 * tags

/-- A UDP header, with the port 1234 as its destination. -/
structure UdpTo1234 (packet : List Byte) (offset : Nat) : Prop where
  fits : offset + 8 ≤ packet.length
  dest : network16 packet (offset + 2) = some 1234

/-- The header of IPv4 names UDP and the net 198.18.0.0/24. -/
structure NamesTraffic4 (packet : List Byte) (offset : Nat) : Prop where
  protocol : byteAt packet (offset + 9) = some ipprotoUdp
  net : network16 packet (offset + 16) = some 0xc612
  subnet : byteAt packet (offset + 18) = some 0

def headerLength (packet : List Byte) (offset : Nat) : Nat :=
  4 * ((byteAt packet offset).getD 0 &&& 0x0f).toNat

/-- Neither more fragments nor a fragment offset. -/
def Unfragmented (packet : List Byte) (offset : Nat) : Prop :=
  ∃ fragment, network16 packet (offset + 6) = some fragment ∧ fragment &&& 0x3fff = 0

structure Traffic4 (packet : List Byte) (offset : Nat) : Prop where
  names : NamesTraffic4 packet offset
  header : 20 ≤ headerLength packet offset
  whole : Unfragmented packet offset
  udp : UdpTo1234 packet (offset + headerLength packet offset)

/-- The header of IPv6 names UDP and the net fd00::/8. -/
structure Traffic6 (packet : List Byte) (offset : Nat) : Prop where
  nexthdr : byteAt packet (offset + 6) = some ipprotoUdp
  net : byteAt packet (offset + 24) = some 0xfd
  udp : UdpTo1234 packet (offset + 40)

def BenchmarkTraffic (packet : List Byte) : Prop :=
  (∃ tags, Carries packet ethPIp tags ∧ Traffic4 packet (network tags)) ∨
    ∃ tags, Carries packet ethPIpv6 tags ∧ Traffic6 packet (network tags)

/-- No access is outside the packet, and the traffic is what is dropped. -/
def DropsExactly (packet : List Byte) : Prop :=
  ∃ action, xdpDropBenchmarkTraffic packet = some action ∧
    (action = .drop ↔ BenchmarkTraffic packet)

/-- For a header of IPv4 that names the traffic: the port is 1234 behind twenty bytes if and only if
the header has its length from there, the datagram is whole, and the port is 1234 behind the header. -/
def Agrees4 (packet : List Byte) (offset : Nat) : Prop :=
  NamesTraffic4 packet offset →
    (UdpTo1234 packet (offset + 20) ↔
      20 ≤ headerLength packet offset ∧ Unfragmented packet offset ∧
        UdpTo1234 packet (offset + headerLength packet offset))

/-- For the traffic of IPv6: the second byte of the destination is zero. -/
def Agrees6 (packet : List Byte) (offset : Nat) : Prop :=
  Traffic6 packet offset → byteAt packet (offset + 25) = some 0

/-- For the frames with a header of IPv4 or of IPv6. -/
def Agrees (packet : List Byte) : Prop :=
  (∀ tags, Carries packet ethPIp tags → Agrees4 packet (network tags)) ∧
    ∀ tags, Carries packet ethPIpv6 tags → Agrees6 packet (network tags)

/-! ## The tags -/

section

variable {packet : List Byte} {proto : BitVec 16} {tags : Nat}

theorem htons_eq_iff {first second : BitVec 16} : swap16 first = htons second ↔ first = second :=
  swap16_injective.eq_iff

/-- Both numbers of tags are the one at which no further tag is announced. -/
theorem Carries.unique {other : BitVec 16} {count : Nat} (first : Carries packet proto tags)
    (second : Carries packet other count) (plain : ¬ Tag proto) (otherPlain : ¬ Tag other) :
    tags = count := by
  obtain less | same | more := Nat.lt_trichotomy tags count
  · obtain ⟨tag, read, announced⟩ := second.tagged tags less
    obtain rfl : proto = tag := Option.some.inj (first.proto.symm.trans read)
    exact absurd announced plain
  · exact same
  · obtain ⟨tag, read, announced⟩ := first.tagged count more
    obtain rfl : other = tag := Option.some.inj (second.proto.symm.trans read)
    exact absurd announced otherPlain

/-- No frame with anything but a tag. -/
def NothingBehind (packet : List Byte) : Prop :=
  ∀ proto tags, ¬ Tag proto → ¬ Carries packet proto tags

/-- What the loop leaves: a protocol behind the tags, one tag too many, or the end of the packet. -/
inductive Parsed (packet : List Byte) : Option (BitVec 16 × Nat) → Prop where
  | plain {proto : BitVec 16} {tags : Nat} (plain : ¬ Tag proto) (carries : Carries packet proto tags) :
      Parsed packet (some (swap16 proto, network tags))
  | tag {proto : BitVec 16} {tags : Nat} (tag : Tag proto) (nothing : NothingBehind packet) :
      Parsed packet (some (swap16 proto, network tags))
  | ended (nothing : NothingBehind packet) : Parsed packet none

/-- The frames with so many tags that any further protocol is beyond what is looked at. -/
theorem nothingBehind {last : Nat}
    (tagged : ∀ k ≤ last, ∃ tag, etherType packet k = some tag ∧ Tag tag)
    (beyond : ∀ k > last, k ≤ 2 → etherType packet k = none) : NothingBehind packet := by
  intro proto tags plain carries
  obtain after | within := Nat.lt_or_ge last tags
  · have missing := beyond tags after carries.few
    rw [carries.proto] at missing
    exact Option.some_ne_none _ missing
  · obtain ⟨tag, read, announced⟩ := tagged tags within
    obtain rfl : proto = tag := Option.some.inj (carries.proto.symm.trans read)
    exact plain announced

theorem vlanTags_plain (plain : ¬ Tag proto) (i nhOff : Nat) :
    vlanTags packet i (swap16 proto) nhOff = some (some (swap16 proto, nhOff)) := by
  induction i with
  | zero => rfl
  | succ i ih =>
    rw [vlanTags, if_neg fun tag => plain (tag.imp htons_eq_iff.mp htons_eq_iff.mp), ih]

theorem extend_tagged {k : Nat}
    (tagged : ∀ j < k, ∃ tag, etherType packet j = some tag ∧ Tag tag)
    (read : etherType packet k = some proto) (tag : Tag proto) :
    ∀ j ≤ k, ∃ tag, etherType packet j = some tag ∧ Tag tag := by
  intro j upTo
  obtain before | rfl := Nat.lt_or_eq_of_le upTo
  · exact tagged j before
  · exact ⟨proto, read, tag⟩

/-- The loop goes on while there are tags, and never reads outside the packet. -/
theorem vlanTags_parsed {i k : Nat} (left : k + i = 2)
    (tagged : ∀ j < k, ∃ tag, etherType packet j = some tag ∧ Tag tag)
    (read : etherType packet k = some proto) :
    ∃ parsed, vlanTags packet i (swap16 proto) (network k) = some parsed ∧ Parsed packet parsed := by
  -- `k` tags are behind the loop and `i` rounds before it, so that the loop ends at the second tag.
  induction i generalizing k proto with
  | zero =>
    refine ⟨_, rfl, ?_⟩
    by_cases tag : Tag proto
    · exact .tag tag (nothingBehind (extend_tagged tagged read tag) fun j beyond few => by omega)
    · exact .plain tag ⟨by omega, tagged, read⟩
  | succ i ih =>
    by_cases tag : Tag proto
    · have all := extend_tagged tagged read tag
      rw [vlanTags, if_pos (tag.imp htons_eq_iff.mpr htons_eq_iff.mpr)]
      by_cases short : network k + 4 > packet.length
      -- The program gives up here, and no further EtherType is within the packet.
      · refine ⟨none, if_pos short, .ended (nothingBehind all fun j beyond few => ?_)⟩
        cases further : etherType packet j with
        | none => rfl
        | some value =>
          have fits := length_of_network16 further
          unfold network at short
          omega
      · have fits : 12 + 4 * (k + 1) + 2 ≤ packet.length := by
          unfold network at short
          omega
        obtain ⟨next, found⟩ := exists_network16 fits
        have loaded : load16 packet (network k + 2) = some (swap16 next) := by
          have same : network k + 2 = 12 + 4 * (k + 1) := by
            unfold network
            omega
          rw [same, load16_of_network16 found]
        rw [if_neg short, loaded, Option.bind_some]
        exact ih (by omega) (fun j before => all j (Nat.le_of_lt_succ before)) found
    · exact ⟨_, vlanTags_plain tag _ _, .plain tag ⟨by omega, tagged, read⟩⟩

/-! ## The headers -/

variable {offset : Nat}

/-- The destination is loaded as two halves, of which the mask leaves three bytes. -/
theorem masked_daddr (net : BitVec 16) (subnet host : Byte) :
    htonl (swap16 (subnet ++ host) ++ swap16 net) &&& 0xffffff00 = 0xc6120000 ↔
      net = 0xc612 ∧ subnet = 0 := by
  have mask : (0xffffff00 : BitVec 32) = BitVec.allOnes 16 ++ (BitVec.allOnes 8 ++ (0 : Byte)) := by
    decide
  have result : (0xc6120000 : BitVec 32) = (0xc612 : BitVec 16) ++ ((0 : Byte) ++ (0 : Byte)) := by
    decide
  rw [htonl, swap32_append, swap16_swap16, swap16_swap16, mask, result, BitVec.and_append,
    BitVec.and_append, BitVec.and_allOnes, BitVec.and_allOnes, append_eq_append_iff,
    append_eq_append_iff]
  have cleared : host &&& (0 : Byte) = 0 := BitVec.and_zero
  simp only [cleared, and_true]

theorem verdict_eq_drop {traffic : Prop} [Decidable traffic] :
    (if traffic then XdpAction.drop else .pass) = .drop ↔ traffic := by
  by_cases drops : traffic <;> simp [drops]

theorem dropIpv4_eq (packet : List Byte) (offset : Nat) :
    ∃ action, dropIpv4 packet offset = some action ∧
      (action = .drop ↔ NamesTraffic4 packet offset ∧ UdpTo1234 packet (offset + 20)) := by
  by_cases short : offset + 20 + 8 > packet.length
  · refine ⟨.pass, if_pos short, iff_of_false (by decide) ?_⟩
    rintro ⟨-, fits, -⟩
    omega
  · obtain ⟨protocol, protocolRead⟩ := exists_byteAt (show offset + 9 < packet.length by omega)
    obtain ⟨net, netRead⟩ := exists_network16 (show offset + 16 + 2 ≤ packet.length by omega)
    obtain ⟨subnet, subnetRead⟩ := exists_byteAt (show offset + 18 < packet.length by omega)
    obtain ⟨host, hostRead⟩ := exists_byteAt (show offset + 19 < packet.length by omega)
    obtain ⟨dest, destRead⟩ := exists_network16 (show offset + 20 + 2 + 2 ≤ packet.length by omega)
    -- The one load of four bytes, as the net, the subnet and the host.
    have daddr := load32_of_network16 netRead (network16_of_bytes subnetRead hostRead)
    refine ⟨if protocol = ipprotoUdp ∧ htonl (swap16 (subnet ++ host) ++ swap16 net) &&& 0xffffff00 =
        0xc6120000 ∧ swap16 dest = htons 1234 then .drop else .pass, ?_, ?_⟩
    · simp only [dropIpv4, if_neg short, protocolRead, daddr, load16_of_network16 destRead]
      rfl
    · rw [verdict_eq_drop, masked_daddr, htons_eq_iff]
      constructor
      · rintro ⟨rfl, ⟨rfl, rfl⟩, rfl⟩
        exact ⟨⟨protocolRead, netRead, subnetRead⟩, by omega, destRead⟩
      · rintro ⟨⟨protocolIs, netIs, subnetIs⟩, -, destIs⟩
        exact ⟨Option.some.inj (protocolRead.symm.trans protocolIs),
          ⟨Option.some.inj (netRead.symm.trans netIs),
            Option.some.inj (subnetRead.symm.trans subnetIs)⟩,
          Option.some.inj (destRead.symm.trans destIs)⟩

theorem dropIpv6_eq (packet : List Byte) (offset : Nat) :
    ∃ action, dropIpv6 packet offset = some action ∧
      (action = .drop ↔ Traffic6 packet offset ∧ byteAt packet (offset + 25) = some 0) := by
  by_cases short : offset + 40 + 8 > packet.length
  · refine ⟨.pass, if_pos short, iff_of_false (by decide) ?_⟩
    rintro ⟨⟨-, -, fits, -⟩, -⟩
    omega
  · obtain ⟨nexthdr, nexthdrRead⟩ := exists_byteAt (show offset + 6 < packet.length by omega)
    obtain ⟨first, firstRead⟩ := exists_byteAt (show offset + 24 < packet.length by omega)
    obtain ⟨second, secondRead⟩ := exists_byteAt (show offset + 25 < packet.length by omega)
    obtain ⟨dest, destRead⟩ := exists_network16 (show offset + 40 + 2 + 2 ≤ packet.length by omega)
    refine ⟨if nexthdr = ipprotoUdp ∧ first = 0xfd ∧ second = 0x00 ∧ swap16 dest = htons 1234
      then .drop else .pass, ?_, ?_⟩
    · simp only [dropIpv6, if_neg short, nexthdrRead, firstRead, secondRead,
        load16_of_network16 destRead]
      rfl
    · rw [verdict_eq_drop, htons_eq_iff]
      constructor
      · rintro ⟨rfl, rfl, rfl, rfl⟩
        exact ⟨⟨nexthdrRead, firstRead, by omega, destRead⟩, secondRead⟩
      · rintro ⟨⟨nexthdrIs, firstIs, -, destIs⟩, secondIs⟩
        exact ⟨Option.some.inj (nexthdrRead.symm.trans nexthdrIs),
          Option.some.inj (firstRead.symm.trans firstIs),
          Option.some.inj (secondRead.symm.trans secondIs),
          Option.some.inj (destRead.symm.trans destIs)⟩

/-! ## The program -/

/-- The verdict of the program for what the loop leaves. -/
def verdict (packet : List Byte) : Option (BitVec 16 × Nat) → Option XdpAction
  | none => some .pass
  | some (hProto, nhOff) =>
    if hProto = htons ethPIp then dropIpv4 packet nhOff
    else if hProto = htons ethPIpv6 then dropIpv6 packet nhOff
    else some .pass

theorem xdpDropBenchmarkTraffic_eq {parsed : Option (BitVec 16 × Nat)}
    (first : etherType packet 0 = some proto)
    (looped : vlanTags packet 2 (swap16 proto) 14 = some parsed) :
    xdpDropBenchmarkTraffic packet = verdict packet parsed := by
  have fits := length_of_network16 first
  have loaded : load16 packet 12 = some (swap16 proto) := load16_of_network16 first
  have long : ¬ 14 > packet.length := by omega
  rw [xdpDropBenchmarkTraffic, if_neg long, loaded]
  show (vlanTags packet 2 (swap16 proto) 14).bind _ = _
  rw [looped, Option.bind_some]
  cases parsed with
  | none => rfl
  | some found => rfl

theorem verdict_ip :
    verdict packet (some (swap16 ethPIp, network tags)) = dropIpv4 packet (network tags) := by
  rw [verdict, if_pos (htons_eq_iff.mpr rfl)]

theorem verdict_ip6 :
    verdict packet (some (swap16 ethPIpv6, network tags)) = dropIpv6 packet (network tags) := by
  have other : ¬ swap16 ethPIpv6 = htons ethPIp := by decide
  rw [verdict, if_neg other, if_pos (htons_eq_iff.mpr rfl)]

theorem verdict_other (ip : proto ≠ ethPIp) (ip6 : proto ≠ ethPIpv6) :
    verdict packet (some (swap16 proto, network tags)) = some .pass :=
  (if_neg fun same => ip (htons_eq_iff.mp same)).trans
    (if_neg fun same => ip6 (htons_eq_iff.mp same))

theorem plain_ethPIp : ¬ Tag ethPIp := by decide

theorem plain_ethPIpv6 : ¬ Tag ethPIpv6 := by decide

theorem dropsExactly_iff_of_eq {action : XdpAction}
    (ran : xdpDropBenchmarkTraffic packet = some action) :
    DropsExactly packet ↔ (action = .drop ↔ BenchmarkTraffic packet) := by
  constructor
  · rintro ⟨same, again, exact⟩
    obtain rfl : action = same := Option.some.inj (ran.symm.trans again)
    exact exact
  · exact fun exact => ⟨action, ran, exact⟩

/-- What is neither IPv4 nor IPv6 passes, and there is no traffic in it. -/
theorem dropsExactly_of_pass (ran : xdpDropBenchmarkTraffic packet = some .pass)
    (no4 : ∀ tags, ¬ Carries packet ethPIp tags) (no6 : ∀ tags, ¬ Carries packet ethPIpv6 tags) :
    DropsExactly packet ↔ Agrees packet := by
  rw [dropsExactly_iff_of_eq ran]
  refine iff_of_true (iff_of_false (by decide) ?_)
    ⟨fun tags carries => absurd carries (no4 tags), fun tags carries => absurd carries (no6 tags)⟩
  rintro (⟨tags, carries, -⟩ | ⟨tags, carries, -⟩)
  · exact no4 tags carries
  · exact no6 tags carries

/-- A protocol that is no tag stands behind one number of tags, and no other one does. -/
theorem Carries.eq_of_plain {other : BitVec 16} {count : Nat} (first : Carries packet proto tags)
    (second : Carries packet other count) (plain : ¬ Tag proto) (otherPlain : ¬ Tag other) :
    tags = count ∧ proto = other := by
  obtain rfl := first.unique second plain otherPlain
  exact ⟨rfl, Option.some.inj (first.proto.symm.trans second.proto)⟩

theorem dropsExactly_ipv4 (carries : Carries packet ethPIp tags)
    (ran : xdpDropBenchmarkTraffic packet = dropIpv4 packet (network tags)) :
    DropsExactly packet ↔ Agrees packet := by
  have only : ∀ count, Carries packet ethPIp count → count = tags := fun count other =>
    (other.unique carries plain_ethPIp plain_ethPIp)
  have no6 : ∀ count, ¬ Carries packet ethPIpv6 count := fun count other =>
    absurd (carries.eq_of_plain other plain_ethPIp plain_ethPIpv6).2 (by decide)
  have traffic : BenchmarkTraffic packet ↔ Traffic4 packet (network tags) := by
    constructor
    · rintro (⟨count, other, holds⟩ | ⟨count, other, -⟩)
      · exact only count other ▸ holds
      · exact absurd other (no6 count)
    · exact fun holds => .inl ⟨tags, carries, holds⟩
  have agrees : Agrees packet ↔ Agrees4 packet (network tags) := by
    constructor
    · exact fun all => all.1 tags carries
    · exact fun here => ⟨fun count other => only count other ▸ here, fun count other =>
        absurd other (no6 count)⟩
  -- Both sides read the one header, which `dropIpv4` takes for twenty bytes.
  obtain ⟨action, dropped, exact⟩ := dropIpv4_eq packet (network tags)
  rw [dropsExactly_iff_of_eq (ran.trans dropped), traffic, agrees, exact]
  constructor
  · intro same names
    constructor
    · intro udp
      have holds := same.mp ⟨names, udp⟩
      exact ⟨holds.header, holds.whole, holds.udp⟩
    · rintro ⟨header, whole, udp⟩
      exact (same.mpr ⟨names, header, whole, udp⟩).2
  · intro same
    constructor
    · rintro ⟨names, udp⟩
      obtain ⟨header, whole, behind⟩ := (same names).mp udp
      exact ⟨names, header, whole, behind⟩
    · exact fun holds => ⟨holds.names, (same holds.names).mpr ⟨holds.header, holds.whole, holds.udp⟩⟩

theorem dropsExactly_ipv6 (carries : Carries packet ethPIpv6 tags)
    (ran : xdpDropBenchmarkTraffic packet = dropIpv6 packet (network tags)) :
    DropsExactly packet ↔ Agrees packet := by
  have only : ∀ count, Carries packet ethPIpv6 count → count = tags := fun count other =>
    (other.unique carries plain_ethPIpv6 plain_ethPIpv6)
  have no4 : ∀ count, ¬ Carries packet ethPIp count := fun count other =>
    absurd (carries.eq_of_plain other plain_ethPIpv6 plain_ethPIp).2 (by decide)
  have traffic : BenchmarkTraffic packet ↔ Traffic6 packet (network tags) := by
    constructor
    · rintro (⟨count, other, -⟩ | ⟨count, other, holds⟩)
      · exact absurd other (no4 count)
      · exact only count other ▸ holds
    · exact fun holds => .inr ⟨tags, carries, holds⟩
  have agrees : Agrees packet ↔ Agrees6 packet (network tags) := by
    constructor
    · exact fun all => all.2 tags carries
    · exact fun here => ⟨fun count other => absurd other (no4 count), fun count other =>
        only count other ▸ here⟩
  -- What is dropped is traffic in any case: only the second byte can keep some of it.
  obtain ⟨action, dropped, exact⟩ := dropIpv6_eq packet (network tags)
  rw [dropsExactly_iff_of_eq (ran.trans dropped), traffic, agrees, exact]
  constructor
  · exact fun same holds => (same.mpr holds).2
  · exact fun second => ⟨fun holds => holds.1, fun holds => ⟨holds, second holds⟩⟩

/-- No access is outside a packet, and the program drops the benchmark traffic and nothing else exactly
where the two readings of the headers agree. -/
theorem dropsExactly_iff (packet : List Byte) : DropsExactly packet ↔ Agrees packet := by
  by_cases short : 14 > packet.length
  · have nothing : ∀ proto tags, ¬ Carries packet proto tags := by
      intro proto tags carries
      have fits := length_of_network16 carries.proto
      omega
    exact dropsExactly_of_pass (if_pos short) (nothing _) (nothing _)
  · obtain ⟨proto, first⟩ := exists_network16 (show 12 + 2 ≤ packet.length by omega)
    obtain ⟨parsed, looped, leaves⟩ := vlanTags_parsed (show 0 + 2 = 2 from rfl)
      (fun j before => absurd before (Nat.not_lt_zero j)) first
    have ran := xdpDropBenchmarkTraffic_eq first looped
    cases leaves with
    | ended nothing =>
      exact dropsExactly_of_pass ran (fun tags => nothing _ _ plain_ethPIp)
        (fun tags => nothing _ _ plain_ethPIpv6)
    -- A third tag is no IP header, and passes.
    | @tag proto tags tag nothing =>
      have neither : verdict packet (some (swap16 proto, network tags)) = some .pass :=
        verdict_other (fun ip => plain_ethPIp (ip ▸ tag)) fun ip => plain_ethPIpv6 (ip ▸ tag)
      exact dropsExactly_of_pass (ran.trans neither) (fun tags => nothing _ _ plain_ethPIp)
        (fun tags => nothing _ _ plain_ethPIpv6)
    | @plain proto tags plain carries =>
      by_cases ip : proto = ethPIp
      · subst ip
        exact dropsExactly_ipv4 carries (ran.trans verdict_ip)
      · by_cases ip6 : proto = ethPIpv6
        · subst ip6
          exact dropsExactly_ipv6 carries (ran.trans verdict_ip6)
        · refine dropsExactly_of_pass (ran.trans (verdict_other ip ip6)) ?_ ?_
          · exact fun count other => ip (carries.eq_of_plain other plain plain_ethPIp).2
          · exact fun count other => ip6 (carries.eq_of_plain other plain plain_ethPIpv6).2

/-- A datagram of IPv6 to fd01::, which is in fd00::/8, with the port 1234. -/
def toFd01 : List Byte :=
  [0, 0, 0, 0, 0, 0, 0, 0, 0, 0, 0, 0, 0x86, 0xdd] ++
    [0x60, 0, 0, 0, 0, 8, 17, 64] ++ List.replicate 16 0 ++ 0xfd :: 0x01 :: List.replicate 14 0 ++
    [0x10, 0, 0x04, 0xd2, 0, 8, 0, 0]

/-- It passes. -/
theorem not_dropsExactly_toFd01 : ¬ DropsExactly toFd01 := by
  rintro ⟨action, ran, exact⟩
  have passed : xdpDropBenchmarkTraffic toFd01 = some .pass := by decide
  obtain rfl : XdpAction.pass = action := Option.some.inj (passed.symm.trans ran)
  have traffic : BenchmarkTraffic toFd01 :=
    .inr ⟨0, ⟨by decide, fun k before => absurd before (Nat.not_lt_zero k), by decide⟩,
      by decide, by decide, by decide, by decide⟩
  exact absurd (exact.mpr traffic) (by decide)

end

end CloudflareBlog.DroppingPackets

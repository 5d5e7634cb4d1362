import CloudflareBlog.Ebpf.ReadTtl
import CloudflareBlog.Lib.ByteOrder
import CloudflareBlog.Lib.Ebpf
import CloudflareBlog.Lib.Tally

/-!
# The filter that counts packets by their TTL

`AttachTTLBPF` builds the program of the socket filter as a list of instructions.  Here it runs on each
packet of a stream, one after the other, with the map that the packets before have left.
-/

namespace CloudflareBlog.Ebpf

open Lib.Ebpf Lib.Tally
open Lib.Buffer (Byte)
open Lib.Memory (Bytes)

/-! ## The program -/

def htons (a : BitVec 16) : BitVec 16 :=
  let p0 := a &&& 0xff
  let p1 := (a >>> 8) &&& 0xff
  (p0 <<< 8) ||| p1

def ethPIpv6 : BitVec 16 := 0x86dd

def bpfiDstOffSrc (op : OpCode) (dst src : Register) (off : Int) : Instruction := ⟨op, dst, src, off, 0⟩

def bpfiDstOffImm (op : OpCode) (dst : Register) (off : Int) (imm : BitVec 32) : Instruction :=
  ⟨op, dst, 0, off, imm⟩

def bpfiDstSrc (op : OpCode) (dst src : Register) : Instruction := ⟨op, dst, src, 0, 0⟩

def bpfiDstImm (op : OpCode) (dst : Register) (imm : BitVec 32) : Instruction := ⟨op, dst, 0, 0, imm⟩

def bpfiDstOff (op : OpCode) (dst : Register) (off : Int) : Instruction := ⟨op, dst, 0, off, 0⟩

def bpfiImm (op : OpCode) (imm : BitVec 32) : Instruction := ⟨op, 0, 0, 0, imm⟩

def bpfiLdMapFd (dst : Register) (fd : BitVec 32) : Instruction := ⟨.ldMapFd, dst, 0, 0, fd⟩

def bpfiOp (op : OpCode) : Instruction := ⟨op, 0, 0, 0, 0⟩

def regFP : Register := 10

def mapLookupElement : BitVec 32 := 1

def mapUpdateElement : BitVec 32 := 2

def ebpfInss (mapFd : BitVec 32) : List Instruction :=
  [ -- r0 = ctx[16], the protocol
   bpfiDstOffSrc .ldXW 0 1 16,
   bpfiDstOffImm .jEqImm 0 3 ((htons ethPIpv6).setWidth 32),
   -- the TTL of IPv4
   bpfiDstSrc .movSrc 6 1,
   bpfiImm .ldAbsB (BitVec.ofInt 32 (-0x100000 + 8)),
   bpfiDstOff .ja 0 2,
   -- the hop limit of IPv6
   bpfiDstSrc .movSrc 6 1,
   bpfiImm .ldAbsB (BitVec.ofInt 32 (-0x100000 + 7)),
   -- the key is in fp[-4]
   bpfiDstOffSrc .stXW regFP 0 (-4),
   bpfiDstSrc .movSrc 2 regFP,
   bpfiDstImm .addImm 2 (-4),
   bpfiLdMapFd 1 mapFd,
   bpfiImm .call mapLookupElement,
   bpfiDstOff .jEqImm 0 3,
   bpfiDstImm .movImm 1 1,
   bpfiDstSrc .xAddStSrc 0 1,
   bpfiDstOff .ja 0 9,
   -- the update with the value in fp[-16]
   bpfiLdMapFd 1 mapFd,
   bpfiDstSrc .movSrc 2 regFP,
   bpfiDstImm .addImm 2 (-4),
   bpfiDstOffImm .stDW regFP (-16) 1,
   bpfiDstSrc .movSrc 3 regFP,
   bpfiDstImm .addImm 3 (-16),
   bpfiDstImm .movImm 4 0,
   bpfiImm .call mapUpdateElement,
   bpfiDstImm .movImm 0 (-1),
   bpfiOp .exit]

/-- A packet as the filter sees it. -/
structure SkBuff where
  /-- The EtherType. -/
  protocol : BitVec 16
  /-- The bytes from the headers of the link and of the network on. -/
  mac : List Byte
  network : List Byte
  /-- What the filter may truncate. -/
  data : List Byte
  /-- Lengths are unsigned integers. -/
  fits : data.length < 2 ^ 32

/-- The word of the context that is read here: the protocol in the order of the network. -/
def skbField (skb : SkBuff) (off : Int) : Option (BitVec 32) :=
  if off = 16 then some ((Lib.swap16 skb.protocol).setWidth 32) else none

/-- `SKF_NET_OFF` and `SKF_LL_OFF`: a negative offset is one in the headers. -/
def skbLoad (skb : SkBuff) (k : Int) : Option Byte :=
  if 0 ≤ k then skb.data[k.toNat]?
  else if -0x100000 ≤ k then skb.network[(k + 0x100000).toNat]?
  else if -0x200000 ≤ k then skb.mac[(k + 0x200000).toNat]?
  else none

/-- `NewMap(Hash, 4, 8, 4, 0)`: four keys at most. -/
def ttlKernel (mapFd : BitVec 32) (skb : SkBuff) : Kernel where
  field := skbField skb
  packet := skbLoad skb
  mapFd := mapFd
  maxEntries := 4

/-- The filter on a packet: its result and the map behind it. -/
def ttlFilter (mapFd : BitVec 32) (skb : SkBuff) (stack : Bytes) (ttls : Counters 4) :
    Option (BitVec 32 × Counters 4) :=
  run (ttlKernel mapFd skb) (ebpfInss mapFd) stack ttls

/-- The filter on a stream of packets, each with the frame as it happens to be: the results, and the
map behind the last one. -/
def ttlFilters (mapFd : BitVec 32) : List (SkBuff × Bytes) → Counters 4 →
    Option (List (BitVec 32) × Counters 4)
  | [], ttls => some ([], ttls)
  | (skb, stack) :: stream, ttls =>
    (ttlFilter mapFd skb stack ttls).bind fun first =>
      (ttlFilters mapFd stream first.2).map fun rest => (first.1 :: rest.1, rest.2)

/-- What the filter leaves of a packet. -/
def SkBuff.trimmed (skb : SkBuff) (result : BitVec 32) : List Byte := skb.data.take result.toNat

/-- Where the time to live stands in the network header. -/
def ttlOffset (skb : SkBuff) : Nat := if skb.protocol = ethPIpv6 then 7 else 8

/-- The TTL of IPv4, or the hop limit of IPv6. -/
def ttlByte (skb : SkBuff) : Byte := skb.network.getD (ttlOffset skb) 0

def ttl (skb : SkBuff) : MapU32 := (ttlByte skb).setWidth 32

/-! ## The first part: the key -/

section

variable (mapFd : BitVec 32) {skb : SkBuff} {machine : Machine 4}

abbrev code (mapFd : BitVec 32) : List (Option Instruction) := slots (ebpfInss mapFd)

theorem swap16_protocol_eq_iff (protocol : BitVec 16) :
    ((Lib.swap16 protocol).setWidth 32).setWidth 64 =
      ((htons ethPIpv6).setWidth 32).signExtend 64 ↔ protocol = ethPIpv6 := by
  have constant : ((htons ethPIpv6).setWidth 32).signExtend 64 =
      ((Lib.swap16 ethPIpv6).setWidth 32).setWidth 64 := by decide
  rw [constant]
  constructor
  · intro same
    apply Lib.swap16_injective
    have values := congrArg BitVec.toNat same
    simp only [BitVec.toNat_setWidth] at values
    have first := (Lib.swap16 protocol).isLt
    have second := (Lib.swap16 ethPIpv6).isLt
    apply BitVec.eq_of_toNat_eq
    omega
  · rintro rfl
    rfl

theorem skbLoad_ttl (long : ttlOffset skb < skb.network.length) :
    skbLoad skb (-0x100000 + ttlOffset skb) = some (ttlByte skb) := by
  have small : ttlOffset skb ≤ 8 := by
    unfold ttlOffset
    split <;> omega
  have index : (-0x100000 + (ttlOffset skb : Int) + 0x100000).toNat = ttlOffset skb := by omega
  rw [skbLoad, if_neg (by omega), if_pos (by omega), index, ttlByte, List.getD_eq_getElem?_getD,
    List.getElem?_eq_getElem long, Option.getD_some]

/-- Both ways lead to the seventh slot with the TTL in the first register. -/
theorem leads_ttl (long : ttlOffset skb < skb.network.length) (stack : Bytes) (ttls : Counters 4) :
    ∃ count machine, count ≤ 5 ∧
      Leads (ttlKernel mapFd skb) (code mapFd) count (enter stack ttls) machine ∧
      machine.pc = 7 ∧ machine.registers 10 = some (.frame 0) ∧
      machine.registers 0 = some (.number ((ttlByte skb).setWidth 64)) ∧
      machine.entries = ttls := by
  have loaded : Leads (ttlKernel mapFd skb) (code mapFd) 1 (enter stack ttls) _ :=
    leads_ldXW rfl rfl rfl
  have compared := loaded.trans (leads_jEqImm_number rfl rfl)
  by_cases v6 : skb.protocol = ethPIpv6
  · rw [if_pos ((swap16_protocol_eq_iff _).mpr v6)] at compared
    have moved := compared.trans (leads_movSrc rfl rfl)
    -- The hop limit of IPv6; this way ends at the seventh slot, without the jump of the other.
    have seven : ttlOffset skb = 7 := if_pos v6
    have offset : (BitVec.ofInt 32 (-0x100000 + 7)).toInt = -0x100000 + (ttlOffset skb : Int) := by
      rw [seven]
      decide
    have read := moved.trans (leads_ldAbsB rfl rfl (offset ▸ skbLoad_ttl long))
    exact ⟨_, _, by decide, read, rfl, rfl, rfl, rfl⟩
  · rw [if_neg fun same => v6 ((swap16_protocol_eq_iff _).mp same)] at compared
    have moved := compared.trans (leads_movSrc rfl rfl)
    have eight : ttlOffset skb = 8 := if_neg v6
    have offset : (BitVec.ofInt 32 (-0x100000 + 8)).toInt = -0x100000 + (ttlOffset skb : Int) := by
      rw [eight]
      decide
    have read := moved.trans (leads_ldAbsB rfl rfl (offset ▸ skbLoad_ttl long))
    have joined := read.trans (leads_ja rfl)
    exact ⟨_, _, by decide, joined, rfl, rfl, rfl, rfl⟩

theorem keyOffset : 0 + BitVec.ofInt 64 (-4) = (-4 : BitVec 64) := by decide

theorem keyImmediate : 0 + (-4 : BitVec 32).signExtend 64 = (-4 : BitVec 64) := by decide

theorem valueOffset : 0 + BitVec.ofInt 64 (-16) = (-16 : BitVec 64) := by decide

theorem valueImmediate : 0 + (-16 : BitVec 32).signExtend 64 = (-16 : BitVec 64) := by decide

theorem load_key (stack : Bytes) (skb : SkBuff) :
    Lib.Memory.load (Lib.Memory.store stack (-4) 4 (((ttlByte skb).setWidth 64).setWidth 32)) (-4) 4 =
      ttl skb := by
  refine (Lib.Memory.load_store stack (-4) 4 (by decide) _).trans ?_
  exact BitVec.setWidth_setWidth_of_le _ (by decide)

/-- The value of eight bytes does not touch the key. -/
theorem load_beside (stack : Bytes) {value : BitVec 64} :
    Lib.Memory.load (Lib.Memory.store stack (-16) 8 value) (-4) 4 =
      Lib.Memory.load stack (-4) 4 := by
  apply Lib.Memory.load_store_of_disjoint (by decide)
  intro a inside within
  simp only [Lib.Memory.Inside] at inside within
  bv_omega

theorem load_value (stack : Bytes) {value : BitVec 64} :
    Lib.Memory.load (Lib.Memory.store stack (-16) 8 value) (-16) 8 = value :=
  Lib.Memory.load_store stack (-16) 8 (by decide) value

/-- The machine with the key of the packet in its frame. -/
structure Keyed (skb : SkBuff) (ttls : Counters 4) (machine : Machine 4) : Prop where
  frame : machine.registers 10 = some (.frame 0)
  key : Lib.Memory.load machine.stack (-4) 4 = ttl skb
  entries : machine.entries = ttls

/-- The key is stored, and the registers are set for the call. -/
theorem leads_call (at7 : machine.pc = 7) (frame : machine.registers 10 = some (.frame 0))
    (byte : machine.registers 0 = some (.number ((ttlByte skb).setWidth 64))) :
    ∃ last, Leads (ttlKernel mapFd skb) (code mapFd) 4 machine last ∧ last.pc = 12 ∧
      last.registers 1 = some .map ∧ last.registers 2 = some (.frame (-4)) ∧
      Keyed skb machine.entries last := by
  obtain ⟨pc, registers, held, entries⟩ := machine
  obtain rfl : pc = 7 := at7
  have stored : Leads (ttlKernel mapFd skb) (code mapFd) 1 ⟨7, registers, held, entries⟩ _ :=
    leads_stXW rfl frame byte keyOffset (by decide)
  have pointed := (stored.trans (leads_movSrc rfl frame)).trans
    (leads_addImm_frame rfl rfl keyImmediate)
  exact ⟨_, pointed.trans (leads_ldMapFd rfl), rfl, rfl, rfl, frame, load_key held skb, rfl⟩

variable {ttls : Counters 4}

/-- The key was found: the next slots have the address of its counter. -/
theorem leads_found (at12 : machine.pc = 12) (map : machine.registers 1 = some .map)
    (pointer : machine.registers 2 = some (.frame (-4))) (keyed : Keyed skb ttls machine)
    (present : ttl skb ∈ ttls) :
    ∃ last, Leads (ttlKernel mapFd skb) (code mapFd) 2 machine last ∧ last.pc = 14 ∧
      last.registers 0 = some (.counter (ttl skb)) ∧ last.entries = ttls := by
  obtain ⟨pc, registers, held, entries⟩ := machine
  obtain rfl : pc = 12 := at12
  obtain ⟨frame, key, rfl⟩ := keyed
  have called : Leads (ttlKernel mapFd skb) (code mapFd) 1 ⟨12, registers, held, entries⟩ _ :=
    leads_lookup rfl map pointer (by decide) key _ (if_pos present)
  exact ⟨_, called.trans (leads_jEqImm_counter rfl rfl), rfl, rfl, rfl⟩

/-- It was not: the jump leads to the update. -/
theorem leads_missing (at12 : machine.pc = 12) (map : machine.registers 1 = some .map)
    (pointer : machine.registers 2 = some (.frame (-4))) (keyed : Keyed skb ttls machine)
    (absent : ttl skb ∉ ttls) :
    ∃ last, Leads (ttlKernel mapFd skb) (code mapFd) 2 machine last ∧ last.pc = 17 ∧
      Keyed skb ttls last := by
  obtain ⟨pc, registers, held, entries⟩ := machine
  obtain rfl : pc = 12 := at12
  obtain ⟨frame, key, rfl⟩ := keyed
  have called : Leads (ttlKernel mapFd skb) (code mapFd) 1 ⟨12, registers, held, entries⟩ _ :=
    leads_lookup rfl map pointer (by decide) key _ (if_neg absent)
  exact ⟨_, called.trans (leads_jEqImm_number rfl rfl), rfl, frame, key, rfl⟩

/-- The counter is incremented in place. -/
theorem leads_increment (at14 : machine.pc = 14)
    (address : machine.registers 0 = some (.counter (ttl skb)))
    {counter : BitVec 64} (found : machine.entries.lookup (ttl skb) = some counter) :
    ∃ last, Leads (ttlKernel mapFd skb) (code mapFd) 3 machine last ∧ last.pc = 26 ∧
      last.entries = machine.entries.insert (ttl skb) (counter + 1) := by
  obtain ⟨pc, registers, held, entries⟩ := machine
  obtain rfl : pc = 14 := at14
  have one : Leads (ttlKernel mapFd skb) (code mapFd) 1 ⟨14, registers, held, entries⟩ _ :=
    leads_movImm rfl (show (1 : BitVec 32).signExtend 64 = 1 by decide)
  have added := one.trans (leads_xAddStSrc rfl address rfl found)
  exact ⟨_, added.trans (leads_ja rfl), rfl, rfl⟩

/-- The key gets the counter one, if the map has room. -/
theorem leads_insert (at17 : machine.pc = 17) (keyed : Keyed skb ttls machine) :
    ∃ last, Leads (ttlKernel mapFd skb) (code mapFd) 8 machine last ∧ last.pc = 26 ∧
      last.entries = (update (ttlKernel mapFd skb) ttls (ttl skb) 1).2 := by
  obtain ⟨pc, registers, held, entries⟩ := machine
  obtain rfl : pc = 17 := at17
  obtain ⟨frame, key, rfl⟩ := keyed
  have mapped : Leads (ttlKernel mapFd skb) (code mapFd) 1 ⟨17, registers, held, entries⟩ _ :=
    leads_ldMapFd rfl
  have keyPointed := (mapped.trans (leads_movSrc rfl frame)).trans
    (leads_addImm_frame rfl rfl keyImmediate)
  have stored := keyPointed.trans
    (leads_stDW rfl frame (show (1 : BitVec 32).signExtend 64 = 1 by decide) valueOffset (by decide))
  have valuePointed := (stored.trans (leads_movSrc rfl frame)).trans
    (leads_addImm_frame rfl rfl valueImmediate)
  have flagged := valuePointed.trans
    (leads_movImm rfl (show (0 : BitVec 32).signExtend 64 = 0 by decide))
  have called := flagged.trans (leads_update rfl rfl rfl rfl rfl (by decide)
    ((load_beside held).trans key) (load_value held))
  exact ⟨_, called, rfl, rfl⟩

theorem execute_passes (at26 : machine.pc = 26) (fuel : Nat) :
    execute (ttlKernel mapFd skb) (code mapFd) (1 + (fuel + 1)) machine =
      some (-1, machine.entries) := by
  obtain ⟨pc, registers, held, entries⟩ := machine
  obtain rfl : pc = 26 := at26
  have all : Leads (ttlKernel mapFd skb) (code mapFd) 1 ⟨26, registers, held, entries⟩ _ :=
    leads_movImm rfl (show (-1 : BitVec 32).signExtend 64 = -1 by decide)
  rw [all, execute_exit rfl rfl]
  rfl

theorem ttlFilter_eq (long : ttlOffset skb < skb.network.length) (stack : Bytes) :
    ttlFilter mapFd skb stack ttls = some (-1, tally 4 ttls (ttl skb)) := by
  obtain ⟨count, first, few, loaded, at7, frame, byte, same⟩ :=
    leads_ttl mapFd long stack ttls
  obtain ⟨second, stored, at12, map, pointer, keyed⟩ := leads_call mapFd at7 frame byte
  rw [same] at keyed
  -- The code has 28 slots and no way through it is that long: the fuel is divided among the pieces.
  obtain ⟨more, enough⟩ : ∃ more, (code mapFd).length = count + (4 + (2 + (8 + (1 + (more + 1))))) :=
    ⟨12 - count, by
      show 28 = _
      omega⟩
  have start : ttlFilter mapFd skb stack ttls = execute (ttlKernel mapFd skb) (code mapFd)
      (2 + (8 + (1 + (more + 1)))) second := by
    rw [ttlFilter, run, enough, loaded, stored]
  rw [start]
  cases found : ttls.lookup (ttl skb) with
  | some counter =>
    have present : ttl skb ∈ ttls := AList.lookup_isSome.mp (found ▸ rfl)
    obtain ⟨third, looked, at14, address, kept⟩ :=
      leads_found mapFd at12 map pointer keyed present
    obtain ⟨last, added, at26, entries⟩ :=
      leads_increment mapFd at14 address (kept ▸ found)
    -- This way takes five steps fewer than that of a new key.
    have fuel : 8 + (1 + (more + 1)) = 3 + (1 + (more + 5 + 1)) := by omega
    rw [looked, fuel, added, execute_passes mapFd at26, entries, kept]
    simp only [tally, found]
  | none =>
    have absent : ttl skb ∉ ttls := AList.lookup_eq_none.mp found
    obtain ⟨third, looked, at17, kept⟩ := leads_missing mapFd at12 map pointer keyed absent
    obtain ⟨last, inserted, at26, entries⟩ := leads_insert mapFd at17 kept
    rw [looked, inserted, execute_passes mapFd at26, entries]
    rw [update_of_not_mem absent]
    simp only [tally, found]
    rfl

/-! ## Streams -/

theorem ttlFilters_eq (stream : List (SkBuff × Bytes))
    (long : ∀ packet ∈ stream, ttlOffset packet.1 < packet.1.network.length) :
    ttlFilters mapFd stream ttls =
      some (List.replicate stream.length (-1),
        (stream.map fun packet => ttl packet.1).foldl (tally 4) ttls) := by
  induction stream generalizing ttls with
  | nil => rfl
  | cons packet rest ih =>
    obtain ⟨skb, stack⟩ := packet
    have first : ttlOffset skb < skb.network.length := long (skb, stack) List.mem_cons_self
    have others := fun packet inside => long packet (List.mem_cons_of_mem _ inside)
    rw [ttlFilters, ttlFilter_eq mapFd first, Option.bind_some, ih others]
    rfl

end

theorem trimmed_all (skb : SkBuff) : skb.trimmed (-1) = skb.data := by
  have all : (-1 : BitVec 32).toNat = 2 ^ 32 - 1 := by decide
  have fits := skb.fits
  exact List.take_of_length_le (by omega)

/-- The filter on a stream, from an empty map: the map has the first four values of the TTL, each with
the number of packets that have it, no other value is in it, and each packet passes as it is. -/
theorem ttlFilters_counts (mapFd : BitVec 32) (stream : List (SkBuff × Bytes))
    (long : ∀ packet ∈ stream, ttlOffset packet.1 < packet.1.network.length) :
    ∃ ttls : TtlMap,
      ttlFilters mapFd stream ∅ = some (List.replicate stream.length (-1), ttls) ∧
      (∀ t, ttls.lookup t =
        if t ∈ firstKeys 4 (stream.map fun packet => ttl packet.1)
        then some (BitVec.ofNat 64 ((stream.map fun packet => ttl packet.1).count t)) else none) ∧
      ∀ packet ∈ stream, packet.1.trimmed (-1) = packet.1.data := by
  have ran : ttlFilters mapFd stream ∅ =
      some (List.replicate stream.length (-1),
        (stream.map fun packet => ttl packet.1).foldl (tally 4) ∅) := ttlFilters_eq mapFd stream long
  have tallied : Tallied 4 _ ((stream.map fun packet => ttl packet.1).foldl (tally 4) (∅ : TtlMap)) :=
    Tallied.empty.foldl _
  rw [List.nil_append] at tallied
  exact ⟨_, ran, tallied.lookup, fun packet _ => trimmed_all packet.1⟩

theorem noData : ([] : List Byte).length < 2 ^ 32 := by decide

/-- A packet of IPv4, one of IPv6, and one of IPv4 again. -/
def threePackets : List (SkBuff × Bytes) :=
  [(⟨0x0800, [], [0x45, 0, 0, 0, 0, 0, 0, 0, 64], [], noData⟩, fun _ => 0),
   (⟨ethPIpv6, [], [0x60, 0, 0, 0, 0, 0, 0, 58], [], noData⟩, fun _ => 0),
   (⟨0x0800, [], [0x45, 0, 0, 0, 0, 0, 0, 0, 64], [], noData⟩, fun _ => 0)]

theorem ttlFilters_counts_threePackets :
    ∃ ttls : TtlMap, ttlFilters 3 threePackets ∅ = some ([-1, -1, -1], ttls) ∧
      ttls.lookup 64 = some 2 ∧ ttls.lookup 58 = some 1 ∧ ttls.lookup 0 = none := by
  obtain ⟨ttls, ran, counts, -⟩ := ttlFilters_counts 3 threePackets (by decide)
  refine ⟨ttls, ran, ?_, ?_, ?_⟩
  · rw [counts, if_pos (by decide)]
    rfl
  · rw [counts, if_pos (by decide)]
    rfl
  · rw [counts, if_neg (by decide)]

end CloudflareBlog.Ebpf

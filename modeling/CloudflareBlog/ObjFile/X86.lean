import CloudflareBlog.Lib.Displacement
import CloudflareBlog.ObjFile.Slots

/-!
# The loader for x86-64

Relocations are 32-bit displacements.  A slot of the jump table holds the address of a function and
an indirect jump through it.
-/

namespace CloudflareBlog.ObjFile

open CloudflareBlog.Lib.Buffer CloudflareBlog.Lib.Memory CloudflareBlog.Lib.Checked

namespace X86

/-- `R_X86_64_PC32`. -/
def pc32 : BitVec 32 := 2

/-- `R_X86_64_PLT32`. -/
def plt32 : BitVec 32 := 4

/-- `addr` and `instr` of a slot. -/
def fillSlot (memory : Bytes) (slot addr : Address) : Bytes :=
  storeBytes (store memory slot 8 addr) (slot + 8) [0xff, 0x25, 0xf2, 0xff, 0xff, 0xff]

/-- The `switch (type)`. -/
def patch (type : BitVec 32) (patchOffset target : Address) (memory : Bytes) : Bytes :=
  if type = pc32 ∨ type = plt32 then
    store memory patchOffset 4 ((target - patchOffset).setWidth 32)
  else memory

def machine : Machine where
  fillSlot := fillSlot
  instrOffset := 8
  patch := patch

def doTextRelocations : System → Object → Layout → Bytes → Except Stop Patching :=
  ObjFile.doTextRelocations machine

def parseObj : System → Bytes → Bytes → (Address → Protection) → Except Stop Loaded :=
  ObjFile.parseObj machine

/-- Where an indirect jump relative to the instruction pointer finds the address to jump to:
`ff 25` and a displacement from the end of the instruction. -/
def jumpPointer (memory : Bytes) (rip : Address) : Option Address :=
  if memory rip = 0xff ∧ memory (rip + 1) = 0x25 then
    some (rip + 6 + (load memory (rip + 2) 4).signExtend 64)
  else none

/-! ## A slot -/

/-- The slot holds the address and jumps there. -/
def SlotReady (memory : Bytes) (slot addr : Address) : Prop :=
  load memory slot 8 = addr ∧ jumpPointer memory (slot + 8) = some slot

theorem machine_local : machine.Local where
  patch type patchOffset target memory a outside := by
    simp only [machine, patch]
    split
    next => exact store_outside outside
    next => rfl
  fillSlot memory slot addr a outside := by
    have first : ¬Inside slot 8 a := fun inside => outside (by rw [Inside] at inside ⊢; omega)
    have second : ¬Inside (slot + 8) 6 a := fun inside =>
      outside (((inside_add_iff slot (by decide) a).mp inside).2.trans_le (by decide))
    simp only [machine, fillSlot]
    rw [storeBytes_outside second, store_outside first]

theorem slotReady_congr {memory other : Bytes} {slot addr : Address}
    (same : ∀ a, Inside slot 16 a → memory a = other a) (ready : SlotReady memory slot addr) :
    SlotReady other slot addr := by
  have number (offset : Address) (size : Nat) (fits : offset.toNat + size ≤ 16) :
      load memory (slot + offset) size = load other (slot + offset) size := by
    refine load_eq_of_inside (by omega) fun a inside => same a ?_
    have bounds := (inside_add_iff slot (by omega) a).mp inside
    rw [Inside]
    omega
  have byte (offset : Address) (inside : offset.toNat < 16) :
      memory (slot + offset) = other (slot + offset) :=
    same _ (by rw [Inside, add_sub_self]; exact inside)
  obtain ⟨isAddr, jumps⟩ := ready
  have first := number 0 8 (by decide)
  rw [add_zero] at first
  rw [first] at isAddr
  rw [jumpPointer, BitVec.add_assoc slot 8 1, BitVec.add_assoc slot 8 2, byte 8 (by decide),
    byte (8 + 1) (by decide), number (8 + 2) 4 (by decide)] at jumps
  rw [SlotReady, jumpPointer, BitVec.add_assoc slot 8 1, BitVec.add_assoc slot 8 2]
  exact ⟨isAddr, jumps⟩

theorem jumpPointer_storeBytes (memory : Bytes) (slot : Address) :
    jumpPointer (storeBytes memory (slot + 8) [0xff, 0x25, 0xf2, 0xff, 0xff, 0xff]) (slot + 8) =
      some slot := by
  obtain ⟨filled, isFilled⟩ : ∃ filled,
      storeBytes memory (slot + 8) [0xff, 0x25, 0xf2, 0xff, 0xff, 0xff] = filled := ⟨_, rfl⟩
  have byte (index : Nat) (inside : index < 6) :
      filled (slot + 8 + BitVec.ofNat 64 index) =
        ([0xff, 0x25, 0xf2, 0xff, 0xff, 0xff] : List Byte)[index] := by
    rw [← isFilled]
    exact storeBytes_at memory (slot + 8) [0xff, 0x25, 0xf2, 0xff, 0xff, 0xff]
      (Nat.lt_trans inside (by decide)) inside
  have opcode : filled (slot + 8) = 0xff := by
    rw [← add_zero (slot + 8)]
    exact byte 0 (by decide)
  have modrm : filled (slot + 8 + 1) = 0x25 := byte 1 (by decide)
  have displacement : load filled (slot + 8 + 2) 4 = 0xfffffff2 := by
    have here (index : Nat) : slot + 8 + 2 + BitVec.ofNat 64 index =
        slot + 8 + BitVec.ofNat 64 (2 + index) := by
      rw [BitVec.add_assoc (slot + 8), BitVec.ofNat_add]
      rfl
    simp only [load, here, byte 5 (by decide), byte 4 (by decide),
      byte 3 (by decide), byte 2 (by decide)]
    rfl
  have back : slot + 8 + 6 + (0xfffffff2 : BitVec 32).signExtend 64 = slot := by
    rw [BitVec.add_assoc, BitVec.add_assoc, show
      (8 + (6 + (0xfffffff2 : BitVec 32).signExtend 64) : Address) = 0 from rfl, add_zero]
  rw [isFilled, jumpPointer, if_pos ⟨opcode, modrm⟩, displacement, back]

theorem fillSlot_ready (memory : Bytes) (slot addr : Address) :
    SlotReady (fillSlot memory slot addr) slot addr := by
  refine ⟨?_, jumpPointer_storeBytes _ _⟩
  have kept : load (fillSlot memory slot addr) slot 8 = load (store memory slot 8 addr) slot 8 := by
    refine load_eq_of_inside (by decide) fun a inside => storeBytes_outside fun later => ?_
    have bounds := (inside_add_iff slot (by decide) a).mp later
    have eight : (8 : Address).toNat = 8 := rfl
    rw [Inside] at inside
    omega
  rw [kept]
  exact load_store memory slot 8 (by decide) addr

/-! ## All relocations -/

/-- The files that the loader can relocate: all entries are of the two types, the bytes they patch
are in `.text` and do not overlap, and the mapping is short and has all targets in it. -/
structure Relocatable (pageSize : Nat) (loaded : Loaded) : Prop where
  supported : ∀ entry ∈ loaded.object.relaText, entry.type = pc32 ∨ entry.type = plt32
  inText : ∀ entry ∈ loaded.object.relaText,
    entry.rOffset.toNat + 4 ≤ loaded.headers.text.shSize.toNat
  disjoint : loaded.object.relaText.Pairwise fun a b =>
    a.rOffset.toNat + 4 ≤ b.rOffset.toNat ∨ b.rOffset.toNat + 4 ≤ a.rOffset.toNat
  short : mappingSize pageSize loaded.headers loaded.numExtSymbols < 2 ^ 31
  targets : ∀ i (inside : i < loaded.object.relaText.length) (symbolAddress : Address),
    resolve machine loaded.object loaded.layout (loaded.object.relaText.take i)
        loaded.object.relaText[i] = .ok symbolAddress →
      Inside loaded.layout.textRuntimeBase
        (mappingSize pageSize loaded.headers loaded.numExtSymbols)
        (symbolAddress + loaded.object.relaText[i].rAddend)

/-- An entry has been applied, and its slot filled in. -/
structure Applied (system : System) (loaded : Loaded) (earlier : List Rela) (entry : Rela) :
    Prop where
  lands : ∃ symbolAddress,
    resolve machine loaded.object loaded.layout earlier entry = .ok symbolAddress ∧
    loaded.layout.patchOffset entry +
        (load loaded.memory (loaded.layout.patchOffset entry) 4).signExtend 64 =
      symbolAddress + entry.rAddend
  slot : loaded.object.isExternal entry = true →
    earlier.countP loaded.object.isExternal < loaded.numExtSymbols ∧
      ∃ addr, extFunction system loaded.object entry = .ok addr ∧
        SlotReady loaded.memory (slotOf loaded.object loaded.layout earlier) addr

section

variable {system : System} {base memory : Bytes} {loaded : Loaded} {k : Nat}

theorem relaText_run (returned : Returned machine system base memory loaded)
    (fit : Relocatable (2 ^ k) loaded) :
    loaded.numExtSymbols = loaded.object.relaText.countP loaded.object.isExternal ∧
      ∃ start patched, loaded.object.relaText.foldlM
          (relocate machine system loaded.object loaded.layout)
          ⟨copySections base loaded.headers loaded.layout start, 0⟩ = .ok patched ∧
        loaded.memory = patched.memory := by
  have positive : 0 < 2 ^ k := Nat.two_pow_pos k
  obtain ⟨text, data, rodata, whole⟩ :=
    offsets_ordered (2 ^ k) positive loaded.headers loaded.numExtSymbols
  have short := fit.short
  have windows := length_mul_le_of_disjoint 4 loaded.headers.text.shSize.toNat
    (loaded.object.relaText.map fun entry => entry.rOffset.toNat)
    (fun start among => by
      obtain ⟨entry, isEntry, rfl⟩ := List.mem_map.mp among
      exact fit.inText entry isEntry)
    (List.pairwise_map.mpr fit.disjoint)
  rw [List.length_map] at windows
  have few : loaded.object.relaText.length < 2 ^ 31 := by omega
  obtain ⟨relocations, found, same⟩ := countExternalSymbols_ok returned.counted
  have all := textRelocations_relaText found few
  obtain ⟨patched, run, isMemory⟩ := returned.relocated
  obtain ⟨again, foundAgain, loop⟩ := bind_eq_ok.mp run
  rw [textRelocations_relaText foundAgain few] at loop
  exact ⟨all ▸ same, _, patched, loop, isMemory⟩

theorem patch_lands {type : BitVec 32} (supported : type = pc32 ∨ type = plt32)
    (patchOffset target : Address) (memory : Bytes) :
    load (machine.patch type patchOffset target memory) patchOffset 4 =
      (target - patchOffset).setWidth 32 := by
  have stored : machine.patch type patchOffset target memory =
      store memory patchOffset 4 ((target - patchOffset).setWidth 32) := if_pos supported
  rw [stored]
  exact load_store memory patchOffset 4 (by decide) _

theorem later_frame (fit : Relocatable (2 ^ k) loaded)
    (placed : Placed (2 ^ k) loaded.headers loaded.layout)
    (counts : loaded.numExtSymbols = loaded.object.relaText.countP loaded.object.isExternal)
    {earlier later : List Rela} {entry : Rela}
    (split : loaded.object.relaText = earlier ++ entry :: later) {after final : Patching}
    (counted : after.currJmpIdx =
      earlier.countP loaded.object.isExternal + [entry].countP loaded.object.isExternal)
    (run : later.foldlM (relocate machine system loaded.object loaded.layout) after = .ok final) :
    (∀ a, Inside (loaded.layout.patchOffset entry) 4 a → after.memory a = final.memory a) ∧
      (loaded.object.isExternal entry = true →
        ∀ a, Inside (slotOf loaded.object loaded.layout earlier) 16 a →
          after.memory a = final.memory a) := by
  have small : mappingSize (2 ^ k) loaded.headers loaded.numExtSymbols ≤ 2 ^ 64 := by
    have short := fit.short
    omega
  have fits := slots_fit (2 ^ k) (Nat.two_pow_pos k) loaded.headers loaded.numExtSymbols
  have total : loaded.numExtSymbols = earlier.countP loaded.object.isExternal +
      [entry].countP loaded.object.isExternal + later.countP loaded.object.isExternal := by
    rw [counts, split, List.countP_append, ← List.singleton_append, List.countP_append,
      Nat.add_assoc]
  have among : ∀ other ∈ entry :: later, other ∈ loaded.object.relaText := fun other isLater =>
    split ▸ List.mem_append_right _ isLater
  -- patches do not overlap, and slots are numbered in the order of the entries
  have apart : ∀ other ∈ later, entry.rOffset.toNat + 4 ≤ other.rOffset.toNat ∨
      other.rOffset.toNat + 4 ≤ entry.rOffset.toNat := fun _ =>
    List.rel_of_pairwise_cons (List.pairwise_append.mp (split ▸ fit.disjoint)).2.1
  constructor
  · intro a inside
    refine (run_frame machine_local run (fun other isLater => ?_) fun index few => ?_).symm
    · have inText := fit.inText other (among other (List.mem_cons_of_mem _ isLater))
      have entryInText := fit.inText entry (among entry List.mem_cons_self)
      have textBound := loaded.headers.text.shSize.isLt
      exact windows_disjoint (by omega) (by omega) (apart other isLater) inside
    · exact window_slot_disjoint (Nat.two_pow_pos k) placed small
        (fit.inText entry (among entry List.mem_cons_self)) (by omega) inside
  · intro isExternal a inside
    rw [List.countP_singleton, if_pos isExternal] at counted total
    refine (run_frame machine_local run (fun other isLater window => ?_) fun index few => ?_).symm
    · exact window_slot_disjoint (Nat.two_pow_pos k) placed small
        (fit.inText other (among other (List.mem_cons_of_mem _ isLater))) (by omega) window inside
    · rw [slotOf, inside_slot_iff placed (by omega)] at inside
      rw [inside_slot_iff placed (by omega)]
      omega

theorem entry_applied (fit : Relocatable (2 ^ k) loaded)
    (placed : Placed (2 ^ k) loaded.headers loaded.layout)
    (counts : loaded.numExtSymbols = loaded.object.relaText.countP loaded.object.isExternal)
    {start : Bytes} {patched : Patching}
    (run : loaded.object.relaText.foldlM (relocate machine system loaded.object loaded.layout)
      ⟨start, 0⟩ = .ok patched)
    (isMemory : loaded.memory = patched.memory) (i : Nat)
    (inside : i < loaded.object.relaText.length) :
    Applied system loaded (loaded.object.relaText.take i) loaded.object.relaText[i] := by
  obtain ⟨earlier, isEarlier⟩ : ∃ earlier, loaded.object.relaText.take i = earlier := ⟨_, rfl⟩
  obtain ⟨entry, isEntry⟩ : ∃ entry, loaded.object.relaText[i] = entry := ⟨_, rfl⟩
  have target := fit.targets i inside
  have split : loaded.object.relaText =
      earlier ++ entry :: loaded.object.relaText.drop (i + 1) := by
    rw [← isEarlier, ← isEntry, ← List.drop_eq_getElem_cons, List.take_append_drop]
  rw [isEarlier, isEntry] at target ⊢
  have among : entry ∈ loaded.object.relaText := split ▸ List.mem_append_right _ List.mem_cons_self
  -- the entries before it give it its slot, its own round writes, the later ones keep that
  obtain ⟨before, after, first, here, last, counted, countedAfter⟩ :=
    run_split_counted (split ▸ run)
  obtain ⟨patchKept, slotKept⟩ := later_frame fit placed counts split countedAfter last
  obtain ⟨symbolAddress, filled, resolved, memoryAfter, external, -⟩ :=
    relocate_resolves counted here
  have supported := fit.supported entry among
  have inText := fit.inText entry among
  have positive : 0 < 2 ^ k := Nat.two_pow_pos k
  obtain ⟨text, data, rodata, whole⟩ :=
    offsets_ordered (2 ^ k) positive loaded.headers loaded.numExtSymbols
  have short := fit.short
  constructor
  case lands =>
    have field : load loaded.memory (loaded.layout.patchOffset entry) 4 =
        (symbolAddress + entry.rAddend - loaded.layout.patchOffset entry).setWidth 32 := by
      rw [isMemory, ← load_eq_of_inside (by decide) patchKept, memoryAfter]
      exact patch_lands supported _ _ _
    have targetInside := target symbolAddress resolved
    have patchInside : Inside loaded.layout.textRuntimeBase
        (mappingSize (2 ^ k) loaded.headers loaded.numExtSymbols)
        (loaded.layout.patchOffset entry) := by
      rw [Inside, Layout.patchOffset, add_sub_self]
      omega
    have difference := toInt_sub_of_inside (by omega) targetInside patchInside
    rw [Inside] at targetInside patchInside
    refine ⟨symbolAddress, resolved, ?_⟩
    rw [field]
    exact add_signExtend_setWidth (by decide) (by omega) (by omega)
  case slot =>
    intro isExternal
    obtain ⟨addr, lookedUp, isFilled⟩ := external isExternal
    have total := congrArg (List.countP loaded.object.isExternal) split
    rw [List.countP_append, List.countP_cons_of_pos isExternal, ← counts] at total
    have few : earlier.countP loaded.object.isExternal < loaded.numExtSymbols := by omega
    refine ⟨few, addr, lookedUp,
      slotReady_congr (fun a isSlot => ?_) (fillSlot_ready before.memory _ addr)⟩
    rw [isMemory, ← slotKept isExternal a isSlot, memoryAfter, isFilled]
    exact (machine_local.patch _ _ _ _ a fun window =>
      window_slot_disjoint positive placed (by omega) inText few window isSlot).symm

theorem text_kept (fit : Relocatable (2 ^ k) loaded)
    (placed : Placed (2 ^ k) loaded.headers loaded.layout)
    (counts : loaded.numExtSymbols = loaded.object.relaText.countP loaded.object.isExternal)
    {start : Bytes} {patched : Patching}
    (run : loaded.object.relaText.foldlM (relocate machine system loaded.object loaded.layout)
      ⟨copySections base loaded.headers loaded.layout start, 0⟩ = .ok patched)
    {offset : Address} (inside : offset.toNat < loaded.headers.text.shSize.toNat)
    (outside : ∀ entry ∈ loaded.object.relaText, ¬Inside entry.rOffset 4 offset) :
    patched.memory (loaded.layout.textRuntimeBase + offset) =
      base (loaded.headers.text.shOffset + offset) := by
  have positive : 0 < 2 ^ k := Nat.two_pow_pos k
  obtain ⟨text, data, rodata, whole⟩ :=
    offsets_ordered (2 ^ k) positive loaded.headers loaded.numExtSymbols
  have fits := slots_fit (2 ^ k) positive loaded.headers loaded.numExtSymbols
  have short := fit.short
  rw [run_frame machine_local run (fun entry among => ?_) fun index few => ?_]
  · exact copySections_text positive placed (by omega) base start inside
  · rw [Layout.patchOffset, Inside, add_sub_add_left_eq_sub]
    exact outside entry among
  · rw [Nat.zero_add, inside_slot_iff placed (by omega), add_sub_self]
    omega

end

/-- Every relocation of a file that the loader can relocate is applied: the displacement leads to
the symbol, through a slot of the jump table if it is external.  The loop uses the slots that
`count_external_symbols` has counted, all of them, and leaves the rest of `.text` alone. -/
theorem text_relocations_exact {system : System} {base memory : Bytes}
    {protections : Address → Protection} {loaded : Loaded}
    (isPower : ∃ k, system.pageSize.toNat = 2 ^ k)
    (run : parseObj system base memory protections = .ok loaded)
    (fit : Relocatable system.pageSize.toNat loaded) :
    countExternalSymbols loaded.object = .ok loaded.numExtSymbols ∧
      (∀ i (inside : i < loaded.object.relaText.length),
        Applied system loaded (loaded.object.relaText.take i) loaded.object.relaText[i]) ∧
      (∀ index < loaded.numExtSymbols, ∃ i, ∃ inside : i < loaded.object.relaText.length,
        loaded.object.isExternal loaded.object.relaText[i] = true ∧
          (loaded.object.relaText.take i).countP loaded.object.isExternal = index) ∧
      ∀ offset : Address, offset.toNat < loaded.headers.text.shSize.toNat →
        (∀ entry ∈ loaded.object.relaText, ¬Inside entry.rOffset 4 offset) →
        loaded.memory (loaded.layout.textRuntimeBase + offset) =
          base (loaded.headers.text.shOffset + offset) := by
  obtain ⟨k, isPower⟩ := isPower
  rw [isPower] at fit
  have short := fit.short
  have returned := parseObj_returned run
  obtain ⟨mapped, -, isLayout⟩ := returned.laidOut
  have placed : Placed (2 ^ k) loaded.headers loaded.layout := by
    have room : mappingSize (2 ^ k) loaded.headers loaded.numExtSymbols < 2 ^ 64 := by omega
    rw [isLayout]
    exact layOut_placed isPower room mapped
  obtain ⟨counts, start, patched, loop, isMemory⟩ := relaText_run returned fit
  refine ⟨returned.counted, entry_applied fit placed counts loop isMemory, fun index few => ?_,
    fun offset inside outside => ?_⟩
  · rw [counts] at few
    obtain ⟨earlier, entry, later, split, isExternal, same⟩ := exists_split_of_lt_countP few
    refine ⟨earlier.length, by simp [split], ?_, ?_⟩
    · simpa [split] using isExternal
    · simpa [split] using same
  · rw [isMemory]
    exact text_kept fit placed counts loop inside outside

/-- A call of `puts` and a reference to `.text`. -/
theorem text_relocations_exact_small :
    ∃ loaded, parseObj smallSystem (smallFile 4 0 8 0) (fun _ => 0)
        (fun _ => ⟨false, false, false⟩) = .ok loaded ∧
      loaded.object.relaText = [⟨0, 4, 0⟩, ⟨8, 0x100000004, 0⟩] ∧
      Applied smallSystem loaded [] ⟨0, 4, 0⟩ ∧
      Applied smallSystem loaded [⟨0, 4, 0⟩] ⟨8, 0x100000004, 0⟩ := by
  have found : ∃ loaded, parseObj smallSystem (smallFile 4 0 8 0) (fun _ => 0)
        (fun _ => ⟨false, false, false⟩) = .ok loaded ∧
      loaded.object.relaText = [⟨0, 4, 0⟩, ⟨8, 0x100000004, 0⟩] ∧
      loaded.headers.text.shSize = 16 ∧ loaded.layout.textRuntimeBase = 0x10000 ∧
      mappingSize 4096 loaded.headers loaded.numExtSymbols = 0x4000 ∧
      (resolve machine loaded.object loaded.layout [] ⟨0, 4, 0⟩).toOption = some 0x13008 ∧
      (resolve machine loaded.object loaded.layout [⟨0, 4, 0⟩] ⟨8, 0x100000004, 0⟩).toOption =
        some 0x10008 := by
    decide +kernel
  obtain ⟨loaded, run, entries, size, base, length, first, second⟩ := found
  have value {x : Except Stop Address} {target symbolAddress : Address}
      (known : x.toOption = some target) (result : x = .ok symbolAddress) :
      symbolAddress = target := by
    rw [result] at known
    exact Option.some.inj known
  have fit : Relocatable 4096 loaded := by
    refine ⟨?_, ?_, ?_, ?_, ?_⟩
    · rw [entries]
      decide
    · rw [entries, size]
      decide
    · rw [entries]
      decide
    · rw [length]
      decide
    · rw [entries, length, base]
      intro i inside symbolAddress resolved
      cases i with
      | zero =>
        rw [value first resolved]
        exact (by decide : Inside 0x10000 0x4000 (0x13008 + 0))
      | succ i =>
        obtain rfl : i = 0 := by
          simp only [List.length_cons, List.length_nil] at inside
          omega
        rw [value second resolved]
        exact (by decide : Inside 0x10000 0x4000 (0x10008 + 0))
  obtain ⟨-, applied, -, -⟩ := text_relocations_exact ⟨12, rfl⟩ run fit
  rw [entries] at applied
  exact ⟨loaded, run, entries, applied 0 (by decide), applied 1 (by decide)⟩

end X86

end CloudflareBlog.ObjFile

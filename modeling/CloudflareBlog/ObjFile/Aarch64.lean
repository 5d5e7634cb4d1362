import CloudflareBlog.Lib.Aarch64
import CloudflareBlog.ObjFile.Slots

/-!
# The loader for aarch64

Relocations change immediates within instruction words.  A slot of the jump table loads the address
of a function, of which 48 bits, into `x9` and branches there.
-/

namespace CloudflareBlog.ObjFile

open CloudflareBlog.Lib CloudflareBlog.Lib.Buffer CloudflareBlog.Lib.Memory
open CloudflareBlog.Lib.Checked CloudflareBlog.Lib.Aarch64

namespace Aarch64

/-- `R_AARCH64_CALL26`. -/
def call26 : BitVec 32 := 283

/-- `R_AARCH64_ADD_ABS_LO12_NC`. -/
def addAbsLo12Nc : BitVec 32 := 277

/-- `R_AARCH64_ADR_PREL_PG_HI21`. -/
def adrPrelPgHi21 : BitVec 32 := 275

/-- `word | ((addr << 48) >> 43)`, as a `uint32_t`. -/
def movWord (word : BitVec 32) (addr : BitVec 64) : BitVec 32 :=
  (word.setWidth 64 ||| (addr <<< 48) >>> 43).setWidth 32

/-- The four words of a slot. -/
def fillSlot (memory : Bytes) (slot addr : Address) : Bytes :=
  let mov := movWord 0b11010010100000000000000000001001 addr
  let movk1 := movWord 0b11110010101000000000000000001001 (addr >>> 16)
  let movk2 := movWord 0b11110010110000000000000000001001 (addr >>> 32)
  let memory := store memory slot 4 mov
  let memory := store memory (slot + 4) 4 movk1
  let memory := store memory (slot + 8) 4 movk2
  store memory (slot + 12) 4 0xd61f0120

/-- `*((uint32_t *)patch_offset) &= mask`. -/
def andWord (patchOffset : Address) (mask : BitVec 32) (memory : Bytes) : Bytes :=
  store memory patchOffset 4 (load memory patchOffset 4 &&& mask)

/-- `*((uint32_t *)patch_offset) |= val`. -/
def orWord (patchOffset : Address) (val : BitVec 32) (memory : Bytes) : Bytes :=
  store memory patchOffset 4 (load memory patchOffset 4 ||| val)

def maskBl : BitVec 32 := (0xffffffff : BitVec 32) <<< 26

/-- The case of `R_AARCH64_CALL26`. -/
def patchCall26 (patchOffset target : Address) (memory : Bytes) : Bytes :=
  let val : BitVec 32 := ((target - patchOffset).sshiftRight 2).setWidth 32
  orWord patchOffset (val &&& ~~~maskBl) (andWord patchOffset maskBl memory)

/-- The case of `R_AARCH64_ADR_PREL_PG_HI21`. -/
def patchAdrPrelPgHi21 (patchOffset target : Address) (memory : Bytes) : Bytes :=
  let page : BitVec 64 := ~~~0xfff
  let val : BitVec 32 := ((target &&& page) - (patchOffset &&& page)).setWidth 32
  let val := val >>> 12
  let immlo := (val &&& ((0xf : BitVec 32) >>> 2)) <<< 29
  let immhi := (val &&& (((0xffffff : BitVec 32) >>> 13) <<< 2)) <<< 22
  orWord patchOffset immhi (orWord patchOffset immlo memory)

/-- The case of `R_AARCH64_ADD_ABS_LO12_NC`.  It reads the byte that the symbol points to, and falls
through to the next case. -/
def patchAddAbsLo12Nc (patchOffset target : Address) (memory : Bytes) : Bytes :=
  let maskAdd : BitVec 32 := 0b11111111110000000000001111111111
  let val : BitVec 32 := (memory target).setWidth 32
  let val := val &&& ~~~maskAdd
  patchAdrPrelPgHi21 patchOffset target
    (orWord patchOffset val (andWord patchOffset maskAdd memory))

/-- The `switch (type)`. -/
def patch (type : BitVec 32) (patchOffset target : Address) (memory : Bytes) : Bytes :=
  if type = call26 then patchCall26 patchOffset target memory
  else if type = addAbsLo12Nc then patchAddAbsLo12Nc patchOffset target memory
  else if type = adrPrelPgHi21 then patchAdrPrelPgHi21 patchOffset target memory
  else memory

def machine : Machine where
  fillSlot := fillSlot
  instrOffset := 0
  patch := patch

def doTextRelocations : System → Object → Layout → Bytes → Except Stop Patching :=
  ObjFile.doTextRelocations machine

def parseObj : System → Bytes → Bytes → (Address → Protection) → Except Stop Loaded :=
  ObjFile.parseObj machine

/-! ## What stays -/

section

variable {patchOffset target a : Address} {memory : Bytes}

theorem andWord_outside (outside : ¬Inside patchOffset 4 a) (mask : BitVec 32) :
    andWord patchOffset mask memory a = memory a :=
  store_outside outside

theorem orWord_outside (outside : ¬Inside patchOffset 4 a) (val : BitVec 32) :
    orWord patchOffset val memory a = memory a :=
  store_outside outside

theorem patchAdrPrelPgHi21_outside (outside : ¬Inside patchOffset 4 a) :
    patchAdrPrelPgHi21 patchOffset target memory a = memory a := by
  rw [patchAdrPrelPgHi21, orWord_outside outside, orWord_outside outside]

theorem patch_outside (outside : ¬Inside patchOffset 4 a) (type : BitVec 32) :
    patch type patchOffset target memory a = memory a := by
  rw [patch]
  split
  next => rw [patchCall26, orWord_outside outside, andWord_outside outside]
  next =>
    split
    next =>
      rw [patchAddAbsLo12Nc, patchAdrPrelPgHi21_outside outside, orWord_outside outside,
        andWord_outside outside]
    next =>
      split
      next => exact patchAdrPrelPgHi21_outside outside
      next => rfl

theorem fillSlot_outside {slot addr : Address} (outside : ¬Inside slot 16 a) :
    fillSlot memory slot addr a = memory a := by
  have word (offset : Address) (fits : offset.toNat + 4 ≤ 16) : ¬Inside (slot + offset) 4 a :=
    fun inside => by
      have bounds := (inside_add_iff slot (by omega) a).mp inside
      rw [Inside] at outside
      omega
  have first : ¬Inside slot 4 a := fun inside => outside (by rw [Inside] at inside ⊢; omega)
  rw [fillSlot, store_outside (word 12 (by decide)), store_outside (word 8 (by decide)),
    store_outside (word 4 (by decide)), store_outside first]

end

theorem machine_local : machine.Local where
  patch type _ _ _ _ outside := patch_outside outside type
  fillSlot _ _ _ _ outside := fillSlot_outside outside

/-! ## A slot -/

/-- The slot goes to the address. -/
structure SlotReady (memory : Bytes) (slot addr : Address) : Prop where
  mov : load memory slot 4 = movWord 0b11010010100000000000000000001001 addr
  movk1 : load memory (slot + 4) 4 = movWord 0b11110010101000000000000000001001 (addr >>> 16)
  movk2 : load memory (slot + 8) 4 = movWord 0b11110010110000000000000000001001 (addr >>> 32)
  br : load memory (slot + 12) 4 = 0xd61f0120

theorem slotReady_congr {memory other : Bytes} {slot addr : Address}
    (same : ∀ a, Inside slot 16 a → memory a = other a) (ready : SlotReady memory slot addr) :
    SlotReady other slot addr := by
  have number (offset : Address) (fits : offset.toNat + 4 ≤ 16) :
      load memory (slot + offset) 4 = load other (slot + offset) 4 := by
    refine load_eq_of_inside (by omega) fun a inside => same a ?_
    have bounds := (inside_add_iff slot (by omega) a).mp inside
    rw [Inside]
    omega
  have first := number 0 (by decide)
  rw [add_zero] at first
  exact ⟨first ▸ ready.mov, number 4 (by decide) ▸ ready.movk1, number 8 (by decide) ▸ ready.movk2,
    number 12 (by decide) ▸ ready.br⟩

theorem fillSlot_ready (memory : Bytes) (slot addr : Address) :
    SlotReady (fillSlot memory slot addr) slot addr := by
  have other (memory : Bytes) (value : BitVec 32) (offset later : Address)
      (fits : offset.toNat + 4 ≤ later.toNat) (room : later.toNat + 4 ≤ 16) :
      load (store memory (slot + later) 4 value) (slot + offset) 4 =
        load memory (slot + offset) 4 := by
    refine load_store_of_disjoint (by decide) fun a inside => ?_
    rw [inside_add_iff slot (by omega)] at inside ⊢
    omega
  have otherFirst (memory : Bytes) (value : BitVec 32) (later : Address) (fits : 4 ≤ later.toNat)
      (room : later.toNat + 4 ≤ 16) :
      load (store memory (slot + later) 4 value) slot 4 = load memory slot 4 := by
    have zero := other memory value 0 later fits room
    rw [add_zero] at zero
    exact zero
  rw [fillSlot]
  constructor
  · rw [otherFirst _ _ 12 (by decide) (by decide), otherFirst _ _ 8 (by decide) (by decide),
      otherFirst _ _ 4 (by decide) (by decide)]
    exact load_store _ _ 4 (by decide) _
  · rw [other _ _ 4 12 (by decide) (by decide), other _ _ 4 8 (by decide) (by decide)]
    exact load_store _ _ 4 (by decide) _
  · rw [other _ _ 8 12 (by decide) (by decide)]
    exact load_store _ _ 4 (by decide) _
  · exact load_store _ _ 4 (by decide) _

/-- The shifts put sixteen bits of the address into the immediate. -/
theorem movWord_eq (word : BitVec 32) (addr : BitVec 64) :
    movWord word addr = withImmediate word (addr.setWidth 16) := by
  apply BitVec.eq_of_getLsbD_eq
  intro bit inside
  rw [getLsbD_withImmediate, movWord, BitVec.getLsbD_setWidth, BitVec.getLsbD_or,
    BitVec.getLsbD_setWidth, BitVec.getLsbD_ushiftRight, BitVec.getLsbD_shiftLeft,
    BitVec.getLsbD_setWidth]
  by_cases within : 5 ≤ bit ∧ bit < 21
  · simp [within, inside, show 43 + bit < 64 by omega, show ¬43 + bit < 48 by omega,
      show bit - 5 < 16 by omega, show 43 + bit - 48 = bit - 5 by omega, show bit < 64 by omega]
  · by_cases below : bit < 5
    · simp [within, inside, show 43 + bit < 48 by omega, show bit < 64 by omega]
    · simp [within, inside, show ¬43 + bit < 64 by omega, show bit < 64 by omega]

theorem steps_slot {memory : Bytes} {slot addr : Address} (ready : SlotReady memory slot addr)
    (small : addr.toNat < 2 ^ 48) (aligned : slot.toNat % 4 = 0) {cpu : Cpu}
    (atSlot : cpu.pc = slot) : ∃ x, steps memory 4 cpu = some ⟨x, addr⟩ := by
  subst atSlot
  refine steps_branch 9 (by decide) small aligned ?_ ?_ ?_ ?_
  · rw [ready.mov, movWord_eq, decode_movz (by decide) (by decide)]
    rfl
  · rw [ready.movk1, movWord_eq, decode_movk (by decide) (by decide)]
    rfl
  · rw [ready.movk2, movWord_eq, decode_movk (by decide) (by decide)]
    rfl
  · rw [ready.br]
    decide

/-! ## A call -/

/-- The target is in reach of a `bl`. -/
def InReach (start target : Address) : Prop :=
  (target - start).toNat % 4 = 0 ∧ -(2 ^ 27) ≤ (target - start).toInt ∧
    (target - start).toInt < 2 ^ 27

instance (start target : Address) : Decidable (InReach start target) :=
  inferInstanceAs (Decidable (_ ∧ _ ∧ _))

/-- The word after `R_AARCH64_CALL26`. -/
def callWord (word : BitVec 32) (d : BitVec 64) : BitVec 32 :=
  word &&& maskBl ||| (d.sshiftRight 2).setWidth 32 &&& ~~~maskBl

theorem load_andWord (patchOffset : Address) (mask : BitVec 32) (memory : Bytes) :
    load (andWord patchOffset mask memory) patchOffset 4 = load memory patchOffset 4 &&& mask :=
  load_store memory patchOffset 4 (by decide) _

theorem load_orWord (patchOffset : Address) (val : BitVec 32) (memory : Bytes) :
    load (orWord patchOffset val memory) patchOffset 4 = load memory patchOffset 4 ||| val :=
  load_store memory patchOffset 4 (by decide) _

theorem load_patchCall26 (patchOffset target : Address) (memory : Bytes) :
    load (patchCall26 patchOffset target memory) patchOffset 4 =
      callWord (load memory patchOffset 4) (target - patchOffset) := by
  rw [patchCall26, load_orWord, load_andWord]
  rfl

theorem getLsbD_callWord (word : BitVec 32) (d : BitVec 64) {bit : Nat} (inside : bit < 32) :
    (callWord word d).getLsbD bit =
      if 26 ≤ bit then word.getLsbD bit else (wordDisplacement d).getLsbD bit := by
  have mask : ∀ bit < 32, maskBl.getLsbD bit = decide (26 ≤ bit) := by decide
  rw [callWord, BitVec.getLsbD_or, BitVec.getLsbD_and, BitVec.getLsbD_and, BitVec.getLsbD_not,
    mask bit inside, wordDisplacement, BitVec.getLsbD_setWidth, BitVec.getLsbD_setWidth]
  by_cases top : 26 ≤ bit
  · simp [top]
  · simp [top, inside, show bit < 26 by omega]

theorem opcode_callWord (word : BitVec 32) (d : BitVec 64) : opcode (callWord word d) = opcode word := by
  apply BitVec.eq_of_getLsbD_eq
  intro bit inside
  rw [opcode, opcode, BitVec.getLsbD_extractLsb', BitVec.getLsbD_extractLsb',
    getLsbD_callWord _ _ (by omega), if_pos (Nat.le_add_right 26 bit)]

theorem field_callWord (word : BitVec 32) (d : BitVec 64) :
    (callWord word d).extractLsb' 0 26 = wordDisplacement d := by
  apply BitVec.eq_of_getLsbD_eq
  intro bit inside
  rw [BitVec.getLsbD_extractLsb', decide_eq_true inside, Bool.true_and, Nat.zero_add,
    getLsbD_callWord _ _ (by omega), if_neg (by omega)]

theorem step_callWord {memory : Bytes} {cpu : Cpu} {word : BitVec 32} {target : Address}
    (patched : load memory cpu.pc 4 = callWord word (target - cpu.pc))
    (isCall : opcode word = blOpcode) (aligned : cpu.pc.toNat % 4 = 0)
    (reach : InReach cpu.pc target) :
    step memory cpu = some { cpu.write 30 (cpu.pc + 4) with pc := target } := by
  refine step_bl aligned ?_ ?_ reach.1 reach.2.1 reach.2.2
  · rw [patched, opcode_callWord, isCall]
  · rw [patched, field_callWord]

/-! ## Calls among other relocations -/

/-- The other entries of a list leave the word that an entry patches, and its slot, alone. -/
structure Alone (object : Object) (layout : Layout) (earlier : List Rela) (entry : Rela)
    (later : List Rela) : Prop where
  word : ∀ other ∈ earlier ++ later, ∀ a, Inside (layout.patchOffset entry) 4 a →
    ¬Inside (layout.patchOffset other) 4 a
  wordSlots : ∀ index < (earlier ++ entry :: later).countP object.isExternal, ∀ a,
    Inside (layout.patchOffset entry) 4 a → ¬Inside (layout.slot index) 16 a
  slot : object.isExternal entry = true → ∀ other ∈ later, ∀ a,
    Inside (slotOf object layout earlier) 16 a → ¬Inside (layout.patchOffset other) 4 a

/-- In a mapping as `parse_obj` makes it, it is enough that the entries patch `.text` and that no
other overlaps. -/
theorem alone_of_placed {page : Nat} (positive : 0 < page) {headers : Headers} {layout : Layout}
    (placed : Placed page headers layout) {object : Object} {earlier later : List Rela} {entry : Rela}
    (small : mappingSize page headers
      ((earlier ++ entry :: later).countP object.isExternal) ≤ 2 ^ 64)
    (inText : ∀ other ∈ earlier ++ entry :: later,
      other.rOffset.toNat + 4 ≤ headers.text.shSize.toNat)
    (apart : ∀ other ∈ earlier ++ later, entry.rOffset.toNat + 4 ≤ other.rOffset.toNat ∨
      other.rOffset.toNat + 4 ≤ entry.rOffset.toNat) :
    Alone object layout earlier entry later := by
  have textBound := headers.text.shSize.isLt
  have isEntry : entry ∈ earlier ++ entry :: later := List.mem_append_right _ List.mem_cons_self
  have isOther (other : Rela) (among : other ∈ earlier ++ later) :
      other ∈ earlier ++ entry :: later := by
    rcases List.mem_append.mp among with before | after
    · exact List.mem_append_left _ before
    · exact List.mem_append_right _ (List.mem_cons_of_mem _ after)
  have entryInText := inText entry isEntry
  constructor
  case word =>
    intro other among a inside
    have otherInText := inText other (isOther other among)
    exact windows_disjoint (by omega) (by omega) (apart other among) inside
  case wordSlots =>
    intro index few a inside
    exact window_slot_disjoint positive placed small entryInText few inside
  case slot =>
    intro isExternal other among a inside window
    have own : earlier.countP object.isExternal <
        (earlier ++ entry :: later).countP object.isExternal := by
      rw [List.countP_append, List.countP_cons_of_pos isExternal]
      omega
    exact window_slot_disjoint positive placed small
      (inText other (isOther other (List.mem_append_right _ among))) own window inside

/-- A call goes where it should: the words that were there before all relocations, those after
them, and what executing the latter does. -/
structure Called (system : System) (object : Object) (layout : Layout) (start final : Bytes)
    (earlier : List Rela) (entry : Rela) : Prop where
  opcode : opcode (load final (layout.patchOffset entry) 4) =
    opcode (load start (layout.patchOffset entry) 4)
  lands : ∃ symbolAddress,
    resolve machine object layout earlier entry = .ok symbolAddress ∧
      (Aarch64.opcode (load start (layout.patchOffset entry) 4) = blOpcode →
        (layout.patchOffset entry).toNat % 4 = 0 →
        InReach (layout.patchOffset entry) (symbolAddress + entry.rAddend) →
        ∀ cpu : Cpu, cpu.pc = layout.patchOffset entry →
          step final cpu = some { cpu.write 30 (cpu.pc + 4) with
            pc := symbolAddress + entry.rAddend })
  slot : object.isExternal entry = true →
    (∃ numExtSymbols, countExternalSymbols object = .ok numExtSymbols ∧
      earlier.countP object.isExternal < numExtSymbols) ∧
    ∃ addr, extFunction system object entry = .ok addr ∧
      (addr.toNat < 2 ^ 48 → (slotOf object layout earlier).toNat % 4 = 0 →
        ∀ cpu : Cpu, cpu.pc = slotOf object layout earlier →
          ∃ x, steps final 4 cpu = some ⟨x, addr⟩)

section

variable {system : System} {object : Object} {layout : Layout} {start : Bytes}
  {before after final : Patching} {earlier later : List Rela} {entry : Rela}

theorem word_before (alone : Alone object layout earlier entry later)
    (run : earlier.foldlM (relocate machine system object layout) ⟨start, 0⟩ = .ok before) {a : Address}
    (inside : Inside (layout.patchOffset entry) 4 a) : before.memory a = start a := by
  refine run_frame machine_local run
    (fun other among => alone.word other (List.mem_append_left _ among) a inside)
    fun index few => ?_
  refine alone.wordSlots _ ?_ a inside
  rw [List.countP_append, Nat.zero_add]
  omega

theorem after_frame (alone : Alone object layout earlier entry later)
    (few : (earlier ++ entry :: later).length < 2 ^ 31)
    (counted : after.currJmpIdx =
      earlier.countP object.isExternal + [entry].countP object.isExternal)
    (run : later.foldlM (relocate machine system object layout) after = .ok final) :
    (∀ a, Inside (layout.patchOffset entry) 4 a → after.memory a = final.memory a) ∧
      (object.isExternal entry = true →
        ∀ a, Inside (slotOf object layout earlier) 16 a → after.memory a = final.memory a) := by
  have total : (earlier ++ entry :: later).countP object.isExternal =
      earlier.countP object.isExternal + [entry].countP object.isExternal +
        later.countP object.isExternal := by
    rw [List.countP_append, ← List.singleton_append, List.countP_append, Nat.add_assoc]
  have bound := List.countP_le_length (p := object.isExternal) (l := earlier ++ entry :: later)
  constructor
  · intro a inside
    refine (run_frame machine_local run (fun other among => ?_) fun index isLater => ?_).symm
    · exact alone.word other (List.mem_append_right _ among) a inside
    · exact alone.wordSlots _ (by omega) a inside
  · intro isExternal a inside
    rw [List.countP_singleton, if_pos isExternal] at counted total
    refine (run_frame machine_local run (fun other among => ?_) fun index isLater => ?_).symm
    · exact alone.slot isExternal other among a inside
    · exact slots_disjoint layout (by omega) (by omega) (by omega) inside

end

/-- A call to which no other entry reaches: after the relocations `bl` goes to the symbol if that is
in reach, and the slot of an external symbol goes on to the function. -/
theorem calls_land {system : System} {object : Object} {layout : Layout} {start : Bytes}
    {final : Patching} {relocations earlier later : List Rela} {entry : Rela}
    (found : textRelocations object = .ok relocations)
    (run : doTextRelocations system object layout start = .ok final)
    (split : relocations = earlier ++ entry :: later) (isCall : entry.type = call26)
    (alone : Alone object layout earlier entry later) :
    Called system object layout start final.memory earlier entry := by
  subst split
  obtain ⟨again, foundAgain, loop⟩ := bind_eq_ok.mp run
  obtain rfl := Except.ok.inj (found.symm.trans foundAgain)
  -- the rounds before the entry, its own, and those after it
  obtain ⟨before, after, first, here, last, counted, countedAfter⟩ := run_split_counted loop
  obtain ⟨wordKept, slotKept⟩ :=
    after_frame alone (length_textRelocations found) countedAfter last
  obtain ⟨symbolAddress, filled, resolved, memoryAfter, external, isDefined⟩ :=
    relocate_resolves counted here
  have ownIndex (isExternal : object.isExternal entry = true) :
      earlier.countP object.isExternal <
        (earlier ++ entry :: later).countP object.isExternal := by
    rw [List.countP_append, List.countP_cons_of_pos isExternal]
    omega
  -- the slot is filled before the patch, and elsewhere
  have wordFilled : load filled (layout.patchOffset entry) 4 =
      load start (layout.patchOffset entry) 4 := by
    refine load_eq_of_inside (by decide) fun a inside => ?_
    rw [← word_before alone first inside]
    cases isExternal : object.isExternal entry with
    | true =>
      obtain ⟨addr, -, rfl⟩ := external isExternal
      exact fillSlot_outside (alone.wordSlots _ (ownIndex isExternal) a inside)
    | false => rw [isDefined isExternal]
  have patched : load final.memory (layout.patchOffset entry) 4 =
      callWord (load start (layout.patchOffset entry) 4)
        (symbolAddress + entry.rAddend - layout.patchOffset entry) := by
    have isPatch : machine.patch entry.type (layout.patchOffset entry)
        (symbolAddress + entry.rAddend) filled =
          patchCall26 (layout.patchOffset entry) (symbolAddress + entry.rAddend) filled :=
      if_pos isCall
    rw [← load_eq_of_inside (by decide) wordKept, memoryAfter, isPatch, load_patchCall26, wordFilled]
  constructor
  case opcode => rw [patched, opcode_callWord]
  case lands =>
    refine ⟨symbolAddress, resolved, fun isBl aligned reach cpu atCall => ?_⟩
    rw [← atCall] at patched isBl aligned reach
    exact step_callWord patched isBl aligned reach
  case slot =>
    intro isExternal
    obtain ⟨addr, lookedUp, isFilled⟩ := external isExternal
    refine ⟨⟨_, ?_, ownIndex isExternal⟩, addr, lookedUp, fun small aligned cpu atSlot => ?_⟩
    · rw [countExternalSymbols, found]
      exact congrArg Except.ok ((foldl_count _ _ 0).trans (Nat.zero_add _))
    · refine steps_slot (slotReady_congr (fun a inside => ?_) (fillSlot_ready before.memory _ addr))
        small aligned atSlot
      rw [← slotKept isExternal a inside, memoryAfter, isFilled]
      exact (patch_outside (fun window =>
        alone.wordSlots _ (ownIndex isExternal) a window inside) _).symm

/-- Two calls in the text of the small file. -/
def smallCalls : Nat := 0x94000000 + 0x94000000 * 2 ^ 64

/-- Where the small file goes. -/
def smallLayout : Layout := ⟨0x10000, 0x11000, 0x12000, 0x13000⟩

/-- The text of the small file, in its place. -/
def smallStart : Bytes :=
  copy (fun _ => 0) 0x10000 (smallFile 0 0 0 smallCalls) 704 16

/-- A call of `puts`, which is `my_puts` here. -/
theorem calls_land_small :
    ∃ final, doTextRelocations smallSystem (smallObject 283 0 8 smallCalls) smallLayout smallStart =
        .ok final ∧
      (∀ cpu : Cpu, cpu.pc = 0x10000 →
        step final.memory cpu = some { cpu.write 30 (cpu.pc + 4) with pc := 0x13000 }) ∧
      ∀ cpu : Cpu, cpu.pc = 0x13000 → ∃ x, steps final.memory 4 cpu = some ⟨x, 0x400000⟩ := by
  have found : textRelocations (smallObject 283 0 8 smallCalls) =
      .ok ([] ++ ⟨0, 283, 0⟩ :: [⟨8, 2 ^ 32 + 283, 0⟩]) := by
    decide +kernel
  have isExternal : (smallObject 283 0 8 smallCalls).isExternal ⟨0, 283, 0⟩ = true := by
    decide +kernel
  have function : extFunction smallSystem (smallObject 283 0 8 smallCalls) ⟨0, 283, 0⟩ =
      .ok 0x400000 := by
    decide +kernel
  obtain ⟨final, run, -⟩ : ∃ final, doTextRelocations smallSystem
      (smallObject 283 0 8 smallCalls) smallLayout smallStart = .ok final ∧ True := by
    decide +kernel
  have alone : Alone (smallObject 283 0 8 smallCalls) smallLayout [] ⟨0, 283, 0⟩
      [⟨8, 2 ^ 32 + 283, 0⟩] := by
    have placed : Placed 4096 ⟨⟨0, 704, 16, 0⟩, ⟨0, 720, 1, 0⟩, ⟨0, 721, 1, 0⟩⟩ smallLayout :=
      ⟨rfl, rfl, rfl⟩
    exact alone_of_placed (by decide) placed (by decide +kernel) (by decide) (by decide)
  have called := calls_land found run rfl rfl alone
  refine ⟨final, run, fun cpu atCall => ?_, fun cpu atSlot => ?_⟩
  · obtain ⟨symbolAddress, resolved, lands⟩ := called.lands
    obtain rfl : symbolAddress = 0x13000 :=
      Except.ok.inj (resolved.symm.trans (if_pos isExternal))
    exact lands (by decide +kernel) (by decide) (by decide) cpu atCall
  · obtain ⟨-, addr, lookedUp, goes⟩ := called.slot isExternal
    obtain rfl : addr = 0x400000 := Except.ok.inj (lookedUp.symm.trans function)
    exact goes (by decide) (by decide) cpu atSlot

theorem step_ne {memory : Bytes} {cpu : Cpu} {imm : BitVec 26} {target : Address}
    (aligned : cpu.pc.toNat % 4 = 0) (decoded : decode (load memory cpu.pc 4) = some (.bl imm))
    (elsewhere : cpu.pc + (imm ++ 0#2).signExtend 64 ≠ target) :
    step memory cpu ≠ some { cpu.write 30 (cpu.pc + 4) with pc := target } := by
  rw [step_of_decode aligned decoded]
  intro same
  exact elsewhere (congrArg Cpu.pc (Option.some.inj same))

/-- Calls that miss.  The slot is in reach, but not with the addend of 256 MiB; and of two calls at
one place the later decides, so that the first does not go to its slot though that is in reach. -/
theorem calls_miss :
    InReach 0x10000 0x13000 ∧ opcode (load smallStart 0x10000 4) = blOpcode ∧
      (∃ final, textRelocations (smallObject 283 (2 ^ 28) 8 smallCalls) =
            .ok [⟨0, 283, 2 ^ 28⟩, ⟨8, 2 ^ 32 + 283, 2 ^ 28⟩] ∧
          doTextRelocations smallSystem (smallObject 283 (2 ^ 28) 8 smallCalls) smallLayout
            smallStart = .ok final ∧
          slotOf (smallObject 283 (2 ^ 28) 8 smallCalls) smallLayout [] = 0x13000 ∧
          ∀ cpu : Cpu, cpu.pc = 0x10000 →
            step final.memory cpu ≠
              some { cpu.write 30 (cpu.pc + 4) with pc := 0x13000 + 2 ^ 28 }) ∧
      ∃ final, textRelocations (smallObject 283 0 0 smallCalls) =
            .ok [⟨0, 283, 0⟩, ⟨0, 2 ^ 32 + 283, 0⟩] ∧
          doTextRelocations smallSystem (smallObject 283 0 0 smallCalls) smallLayout
            smallStart = .ok final ∧
          slotOf (smallObject 283 0 0 smallCalls) smallLayout [] = 0x13000 ∧
          ∀ cpu : Cpu, cpu.pc = 0x10000 →
            step final.memory cpu ≠ some { cpu.write 30 (cpu.pc + 4) with pc := 0x13000 } := by
  have far : ∃ final, doTextRelocations smallSystem (smallObject 283 (2 ^ 28) 8 smallCalls)
      smallLayout smallStart = .ok final ∧ load final.memory 0x10000 4 = 0x94000c00 := by
    decide +kernel
  have twice : ∃ final, doTextRelocations smallSystem (smallObject 283 0 0 smallCalls)
      smallLayout smallStart = .ok final ∧ load final.memory 0x10000 4 = 0x94000002 := by
    decide +kernel
  obtain ⟨farFinal, farRun, farWord⟩ := far
  obtain ⟨twiceFinal, twiceRun, twiceWord⟩ := twice
  refine ⟨by decide, by decide +kernel, ⟨farFinal, by decide +kernel, farRun, rfl, fun cpu atCall => ?_⟩,
    ⟨twiceFinal, by decide +kernel, twiceRun, rfl, fun cpu atCall => ?_⟩⟩
  · have decoded : decode (load farFinal.memory cpu.pc 4) = some (.bl 0xc00) := by
      rw [atCall, farWord]
      decide
    exact step_ne (by rw [atCall]; decide) decoded (by rw [atCall]; decide)
  · have decoded : decode (load twiceFinal.memory cpu.pc 4) = some (.bl 2) := by
      rw [atCall, twiceWord]
      decide
    exact step_ne (by rw [atCall]; decide) decoded (by rw [atCall]; decide)

end Aarch64

end CloudflareBlog.ObjFile

import CloudflareBlog.ObjFile.Placement

/-!
# The loop over the relocations

What one relocation does, which bytes it leaves alone, and how the loop numbers the slots of the
jump table: the slot of an entry is the number of entries for external symbols before it, and
`count_external_symbols` counts the same.
-/

namespace CloudflareBlog.ObjFile

open CloudflareBlog.Lib.Buffer CloudflareBlog.Lib.Memory CloudflareBlog.Lib.Checked

/-! ## Counting -/

theorem foldl_count {α : Type*} (test : α → Bool) (list : List α) (count : Nat) :
    list.foldl (fun count item => if test item then count + 1 else count) count =
      count + list.countP test := by
  induction list generalizing count with
  | nil => rfl
  | cons item list inductionHypothesis =>
    rw [List.foldl_cons, inductionHypothesis, List.countP_cons]
    split <;> omega

theorem countExternalSymbols_ok {object : Object} {numExtSymbols : Nat}
    (counted : countExternalSymbols object = .ok numExtSymbols) :
    ∃ relocations, textRelocations object = .ok relocations ∧
      numExtSymbols = relocations.countP object.isExternal := by
  obtain ⟨relocations, found, result⟩ := bind_eq_ok.mp counted
  refine ⟨relocations, found, ?_⟩
  rw [foldl_count, Nat.zero_add] at result
  exact (Except.ok.inj result).symm

theorem exists_split_of_lt_countP {α : Type*} {test : α → Bool} {list : List α} {index : Nat}
    (inside : index < list.countP test) :
    ∃ earlier item later, list = earlier ++ item :: later ∧ test item = true ∧
      earlier.countP test = index := by
  induction list generalizing index with
  | nil => exact absurd inside (Nat.not_lt_zero _)
  | cons head tail inductionHypothesis =>
    rw [List.countP_cons] at inside
    by_cases counted : test head
    · rw [if_pos counted] at inside
      cases index with
      | zero => exact ⟨[], head, tail, rfl, counted, rfl⟩
      | succ index =>
        obtain ⟨earlier, item, later, rfl, tested, same⟩ :=
          inductionHypothesis (Nat.lt_of_succ_lt_succ inside)
        refine ⟨head :: earlier, item, later, rfl, tested, ?_⟩
        rw [List.countP_cons_of_pos counted, same]
    · rw [if_neg counted] at inside
      obtain ⟨earlier, item, later, rfl, tested, same⟩ := inductionHypothesis inside
      refine ⟨head :: earlier, item, later, rfl, tested, ?_⟩
      rw [List.countP_cons_of_neg counted, same]

/-! ## One relocation -/

/-- The slot of an entry, with the entries before it. -/
def slotOf (object : Object) (layout : Layout) (earlier : List Rela) : Address :=
  layout.slot (earlier.countP object.isExternal)

/-- The symbol's address that an entry is resolved with. -/
def resolve (machine : Machine) (object : Object) (layout : Layout) (earlier : List Rela)
    (entry : Rela) : Except Stop Address :=
  if object.isExternal entry then .ok (slotOf object layout earlier + machine.instrOffset)
  else
    (sectionRuntimeBase object layout (object.sectionOf (object.symbol entry.symbolIdx))).map
      (· + (object.symbol entry.symbolIdx).stValue)

/-- `lookup_ext_function` of the symbol of an entry. -/
def extFunction (system : System) (object : Object) (entry : Rela) : Except Stop Address :=
  lookupExtFunction system object (object.symbolName (object.symbol entry.symbolIdx))

/-- The relocations of a machine change the four bytes at the patch address, and a slot is sixteen
bytes. -/
structure Machine.Local (machine : Machine) : Prop where
  patch (type : BitVec 32) (patchOffset target : Address) (memory : Bytes) (a : Address)
    (outside : ¬Inside patchOffset 4 a) : machine.patch type patchOffset target memory a = memory a
  fillSlot (memory : Bytes) (slot addr a : Address) (outside : ¬Inside slot 16 a) :
    machine.fillSlot memory slot addr a = memory a

section

variable {machine : Machine} {system : System} {object : Object} {layout : Layout}
  {state after final : Patching} {entry : Rela} {entries : List Rela}

theorem relocate_external (isExternal : object.isExternal entry = true)
    (run : relocate machine system object layout state entry = .ok after) :
    ∃ addr,
      extFunction system object entry = .ok addr ∧
        after = ⟨machine.patch entry.type (layout.patchOffset entry)
          (layout.slot state.currJmpIdx + machine.instrOffset + entry.rAddend)
          (machine.fillSlot state.memory (layout.slot state.currJmpIdx) addr),
          state.currJmpIdx + 1⟩ := by
  obtain ⟨⟨found, filled⟩, resolved, result⟩ := bind_eq_ok.mp run
  have isExternal : (object.symbol entry.symbolIdx).isExternal = true := isExternal
  rw [symbolAddress] at resolved
  simp only at resolved
  rw [if_pos isExternal] at resolved
  obtain ⟨addr, lookedUp, same⟩ := bind_eq_ok.mp resolved
  cases same
  cases result
  exact ⟨addr, lookedUp, rfl⟩

theorem relocate_defined (isDefined : object.isExternal entry = false)
    (run : relocate machine system object layout state entry = .ok after) :
    ∃ base,
      sectionRuntimeBase object layout (object.sectionOf (object.symbol entry.symbolIdx)) =
          .ok base ∧
        after = ⟨machine.patch entry.type (layout.patchOffset entry)
          (base + (object.symbol entry.symbolIdx).stValue + entry.rAddend) state.memory,
          state.currJmpIdx⟩ := by
  obtain ⟨⟨found, filled⟩, resolved, result⟩ := bind_eq_ok.mp run
  have isDefined : ¬(object.symbol entry.symbolIdx).isExternal = true :=
    Bool.eq_false_iff.mp isDefined
  rw [symbolAddress] at resolved
  simp only at resolved
  rw [if_neg isDefined] at resolved
  obtain ⟨base, isBase, same⟩ := bind_eq_ok.mp resolved
  cases same
  cases result
  exact ⟨base, isBase, rfl⟩

/-- The loop body resolves the symbol, fills in the slot of an external one, and patches. -/
theorem relocate_resolves {earlier : List Rela}
    (counted : state.currJmpIdx = earlier.countP object.isExternal)
    (run : relocate machine system object layout state entry = .ok after) :
    ∃ symbolAddress filled, resolve machine object layout earlier entry = .ok symbolAddress ∧
      after.memory = machine.patch entry.type (layout.patchOffset entry)
        (symbolAddress + entry.rAddend) filled ∧
      (object.isExternal entry = true → ∃ addr, extFunction system object entry = .ok addr ∧
        filled = machine.fillSlot state.memory (slotOf object layout earlier) addr) ∧
      (object.isExternal entry = false → filled = state.memory) := by
  cases isExternal : object.isExternal entry with
  | true =>
    obtain ⟨addr, lookedUp, rfl⟩ := relocate_external isExternal run
    rw [counted]
    exact ⟨_, _, if_pos isExternal, rfl, fun _ => ⟨addr, lookedUp, rfl⟩, (nomatch ·)⟩
  | false =>
    obtain ⟨base, isBase, rfl⟩ := relocate_defined isExternal run
    refine ⟨_, _, ?_, rfl, (nomatch ·), fun _ => rfl⟩
    rw [resolve, if_neg (Bool.eq_false_iff.mp isExternal), isBase]
    rfl

theorem relocate_currJmpIdx (run : relocate machine system object layout state entry = .ok after) :
    after.currJmpIdx = state.currJmpIdx + [entry].countP object.isExternal := by
  rw [List.countP_singleton]
  cases isExternal : object.isExternal entry with
  | true =>
    obtain ⟨addr, -, rfl⟩ := relocate_external isExternal run
    rfl
  | false =>
    obtain ⟨base, -, rfl⟩ := relocate_defined isExternal run
    rfl

theorem relocate_frame (isLocal : machine.Local)
    (run : relocate machine system object layout state entry = .ok after) {a : Address}
    (window : ¬Inside (layout.patchOffset entry) 4 a)
    (slot : object.isExternal entry = true → ¬Inside (layout.slot state.currJmpIdx) 16 a) :
    after.memory a = state.memory a := by
  cases isExternal : object.isExternal entry with
  | true =>
    obtain ⟨addr, -, rfl⟩ := relocate_external isExternal run
    simp only
    rw [isLocal.patch _ _ _ _ _ window, isLocal.fillSlot _ _ _ _ (slot isExternal)]
  | false =>
    obtain ⟨base, -, rfl⟩ := relocate_defined isExternal run
    exact isLocal.patch _ _ _ _ _ window

/-! ## The loop -/

theorem run_currJmpIdx
    (run : entries.foldlM (relocate machine system object layout) state = .ok final) :
    final.currJmpIdx = state.currJmpIdx + entries.countP object.isExternal := by
  have kept := foldlM_preserves
    (P := fun rest s => s.currJmpIdx + rest.countP object.isExternal =
      state.currJmpIdx + entries.countP object.isExternal)
    (fun entry rest s t same step => by
      rw [relocate_currJmpIdx step, Nat.add_assoc, ← List.countP_append]
      exact same) rfl run
  exact kept

theorem run_kept {a : Address}
    (round : ∀ entry ∈ entries, ∀ state after,
      relocate machine system object layout state entry = .ok after →
      (object.isExternal entry = true → ¬Inside (layout.slot state.currJmpIdx) 16 a) →
        after.memory a = state.memory a)
    (slots : ∀ index < entries.countP object.isExternal,
      ¬Inside (layout.slot (state.currJmpIdx + index)) 16 a)
    (run : entries.foldlM (relocate machine system object layout) state = .ok final) :
    final.memory a = state.memory a := by
  induction entries generalizing state with
  | nil =>
    cases run
    rfl
  | cons entry rest inductionHypothesis =>
    obtain ⟨next, here, later⟩ := foldlM_cons_ok.mp run
    have counted : (entry :: rest).countP object.isExternal =
        [entry].countP object.isExternal + rest.countP object.isExternal := by
      rw [← List.countP_append]
      rfl
    -- the later entries take slots from `curr_jmp_idx` on, which this one may have raised
    have unchanged := inductionHypothesis
      (fun other among => round other (List.mem_cons_of_mem _ among))
      (fun index inside => by
        rw [relocate_currJmpIdx here, Nat.add_assoc]
        exact slots _ (by omega)) later
    rw [unchanged]
    refine round entry List.mem_cons_self state next here fun isExternal => ?_
    have positive : 0 < (entry :: rest).countP object.isExternal := by
      rw [List.countP_cons_of_pos isExternal]
      exact Nat.succ_pos _
    exact slots 0 positive

theorem run_frame (isLocal : machine.Local)
    (run : entries.foldlM (relocate machine system object layout) state = .ok final) {a : Address}
    (windows : ∀ entry ∈ entries, ¬Inside (layout.patchOffset entry) 4 a)
    (slots : ∀ index < entries.countP object.isExternal,
      ¬Inside (layout.slot (state.currJmpIdx + index)) 16 a) :
    final.memory a = state.memory a :=
  run_kept (fun entry among _ _ here => relocate_frame isLocal here (windows entry among)) slots run

theorem run_split {earlier later : List Rela}
    (run : (earlier ++ entry :: later).foldlM (relocate machine system object layout) state =
      .ok final) :
    ∃ before after,
      earlier.foldlM (relocate machine system object layout) state = .ok before ∧
        relocate machine system object layout before entry = .ok after ∧
        later.foldlM (relocate machine system object layout) after = .ok final := by
  obtain ⟨before, first, rest⟩ := foldlM_append_ok.mp run
  obtain ⟨after, here, last⟩ := foldlM_cons_ok.mp rest
  exact ⟨before, after, first, here, last⟩

/-- From the first slot on, the index counts the external entries. -/
theorem run_split_counted {earlier later : List Rela} {start : Bytes}
    (run : (earlier ++ entry :: later).foldlM (relocate machine system object layout) ⟨start, 0⟩ =
      .ok final) :
    ∃ before after,
      earlier.foldlM (relocate machine system object layout) ⟨start, 0⟩ = .ok before ∧
        relocate machine system object layout before entry = .ok after ∧
        later.foldlM (relocate machine system object layout) after = .ok final ∧
        before.currJmpIdx = earlier.countP object.isExternal ∧
        after.currJmpIdx =
          earlier.countP object.isExternal + [entry].countP object.isExternal := by
  obtain ⟨before, after, first, here, last⟩ := run_split run
  have counted := run_currJmpIdx first
  rw [Nat.zero_add] at counted
  have countedAfter := relocate_currJmpIdx here
  rw [counted] at countedAfter
  exact ⟨before, after, first, here, last, counted, countedAfter⟩

end

/-! ## The entries of `.rela.text` -/

/-- The header is found, and the number of its entries is that of an `int`. -/
theorem textRelocations_eq_ok {object : Object} {relocations : List Rela}
    (found : textRelocations object = .ok relocations) :
    ∃ header : Shdr,
      relocations = object.relocations header
        ((header.shSize / header.shEntsize).setWidth 32).toInt.toNat ∧
      object.relaText = object.relocations header (header.shSize / header.shEntsize).toNat := by
  obtain ⟨header, required, rest⟩ := bind_eq_ok.mp found
  obtain ⟨numRelocations, divided, same⟩ := bind_eq_ok.mp rest
  rw [requireSection] at required
  cases isHeader : lookupSection object.toSections (ascii ".rela.text") with
  | none =>
    rw [isHeader] at required
    cases required
  | some looked =>
    rw [isHeader] at required
    cases required
    cases same
    rw [numEntries] at divided
    split at divided
    next => cases divided
    next =>
      cases divided
      exact ⟨header, rfl, by rw [Object.relaText, isHeader]⟩

theorem length_relocations (object : Object) (header : Shdr) (count : Nat) :
    (object.relocations header count).length = count := by
  rw [Object.relocations, List.length_map, List.length_range]

/-- The loops go over all entries if their number is that of an `int`. -/
theorem textRelocations_relaText {object : Object} {relocations : List Rela}
    (found : textRelocations object = .ok relocations) (few : object.relaText.length < 2 ^ 31) :
    relocations = object.relaText := by
  obtain ⟨header, gone, all⟩ := textRelocations_eq_ok found
  rw [all, length_relocations] at few
  -- the conversion to an `int` loses nothing
  have small : ((header.shSize / header.shEntsize).setWidth 32).toNat =
      (header.shSize / header.shEntsize).toNat := by
    rw [BitVec.toNat_setWidth]
    omega
  rw [gone, all, BitVec.toInt_eq_toNat_of_lt (by omega), small, Int.toNat_natCast]

theorem length_textRelocations {object : Object} {relocations : List Rela}
    (found : textRelocations object = .ok relocations) : relocations.length < 2 ^ 31 := by
  obtain ⟨header, gone, -⟩ := textRelocations_eq_ok found
  have small : ((header.shSize / header.shEntsize).setWidth 32).toInt < 2 ^ 31 := BitVec.toInt_lt
  rw [gone, length_relocations]
  omega

theorem slots_disjoint (layout : Layout) {index other : Nat} (different : index ≠ other)
    (small : index < 2 ^ 31) (otherSmall : other < 2 ^ 31) {a : Address}
    (inside : Inside (layout.slot index) 16 a) : ¬Inside (layout.slot other) 16 a := by
  have position (n : Nat) (few : n < 2 ^ 31) :
      (sizeofExtJump * BitVec.ofNat 64 n).toNat = 16 * n := by
    rw [BitVec.toNat_mul, BitVec.toNat_ofNat, show sizeofExtJump.toNat = 16 from rfl]
    omega
  have here := position index small
  have there := position other otherSmall
  rw [Layout.slot, inside_add_iff _ (by omega)] at inside ⊢
  omega

theorem window_slot_disjoint {page : Nat} (positive : 0 < page) {headers : Headers}
    {layout : Layout} (placed : Placed page headers layout) {numExtSymbols : Nat}
    (small : mappingSize page headers numExtSymbols ≤ 2 ^ 64) {entry : Rela}
    (inText : entry.rOffset.toNat + 4 ≤ headers.text.shSize.toNat) {index : Nat}
    (few : index < numExtSymbols) {a : Address}
    (window : Inside (layout.patchOffset entry) 4 a) : ¬Inside (layout.slot index) 16 a := by
  obtain ⟨text, data, rodata, -⟩ := offsets_ordered page positive headers numExtSymbols
  have fits := slots_fit page positive headers numExtSymbols
  rw [Layout.patchOffset, inside_add_iff _ (by omega)] at window
  rw [inside_slot_iff placed (by omega)]
  omega

theorem windows_disjoint {layout : Layout} {entry other : Rela}
    (entryBound : entry.rOffset.toNat + 4 ≤ 2 ^ 64)
    (otherBound : other.rOffset.toNat + 4 ≤ 2 ^ 64)
    (apart : entry.rOffset.toNat + 4 ≤ other.rOffset.toNat ∨
      other.rOffset.toNat + 4 ≤ entry.rOffset.toNat) {a : Address}
    (inside : Inside (layout.patchOffset entry) 4 a) :
    ¬Inside (layout.patchOffset other) 4 a := by
  rw [Layout.patchOffset, inside_add_iff _ (by omega)] at inside ⊢
  omega

/-! ## The whole loader -/

/-- The steps of `parse_obj`, with what each of them returned. -/
structure Performed (machine : Machine) (system : System) (base memory : Bytes)
    (protections : Address → Protection) (loaded : Loaded) (start : Address) (patched : Patching)
    (text rodata : Address → Protection) : Prop where
  found : findSymbols (findSections base) = .ok loaded.object
  required : findHeaders (findSections base) = .ok loaded.headers
  counted : countExternalSymbols loaded.object = .ok loaded.numExtSymbols
  mapped : system.mmap (mappingLength system.pageSize loaded.headers loaded.numExtSymbols) =
    some start
  laidOut : loaded.layout = layOut system.pageSize loaded.headers start
  relocated : doTextRelocations machine system loaded.object loaded.layout
    (copySections base loaded.headers loaded.layout
      (mapFresh memory loaded.layout.textRuntimeBase
        (mappingLength system.pageSize loaded.headers loaded.numExtSymbols))) = .ok patched
  written : loaded.memory = patched.memory
  protectedText : protect system loaded.layout.textRuntimeBase
    (pageAlign system.pageSize loaded.headers.text.shSize) ⟨true, false, true⟩
    "Failed to make .text executable"
    (fun address =>
      if Inside loaded.layout.textRuntimeBase
          (mappingLength system.pageSize loaded.headers loaded.numExtSymbols).toNat address
      then ⟨true, true, false⟩ else protections address) = .ok text
  protectedRodata : protect system loaded.layout.rodataRuntimeBase
    (pageAlign system.pageSize loaded.headers.rodata.shSize) ⟨true, false, false⟩
    "Failed to make .rodata readonly" text = .ok rodata
  protectedJumptable : protect system loaded.layout.jumptable
    (pageAlign system.pageSize (sizeofExtJump * BitVec.ofNat 64 loaded.numExtSymbols))
    ⟨true, false, true⟩ "Failed to make the jumptable executable" rodata = .ok loaded.protections

theorem parseObj_performed {machine : Machine} {system : System} {base memory : Bytes}
    {protections : Address → Protection} {loaded : Loaded}
    (run : parseObj machine system base memory protections = .ok loaded) :
    ∃ start patched text rodata,
      Performed machine system base memory protections loaded start patched text rodata := by
  obtain ⟨object, found, run⟩ := bind_eq_ok.mp run
  obtain ⟨headers, required, run⟩ := bind_eq_ok.mp run
  obtain ⟨numExtSymbols, counted, run⟩ := bind_eq_ok.mp run
  cases mapped : system.mmap (mappingLength system.pageSize headers numExtSymbols) with
  | none =>
    simp only [mapped] at run
    cases run
  | some start =>
    simp only [mapped] at run
    obtain ⟨patched, relocated, run⟩ := bind_eq_ok.mp run
    obtain ⟨text, protectedText, run⟩ := bind_eq_ok.mp run
    obtain ⟨rodata, protectedRodata, run⟩ := bind_eq_ok.mp run
    obtain ⟨jumptable, protectedJumptable, run⟩ := bind_eq_ok.mp run
    cases run
    exact ⟨start, patched, text, rodata, found, required, counted, mapped, rfl, relocated, rfl,
      protectedText, protectedRodata, protectedJumptable⟩

/-- What has happened when `parse_obj` returns. -/
structure Returned (machine : Machine) (system : System) (base memory : Bytes) (loaded : Loaded) :
    Prop where
  counted : countExternalSymbols loaded.object = .ok loaded.numExtSymbols
  laidOut : ∃ start, system.mmap
      (mappingLength system.pageSize loaded.headers loaded.numExtSymbols) = some start ∧
    loaded.layout = layOut system.pageSize loaded.headers start
  relocated : ∃ patched,
    doTextRelocations machine system loaded.object loaded.layout
        (copySections base loaded.headers loaded.layout
          (mapFresh memory loaded.layout.textRuntimeBase
            (mappingLength system.pageSize loaded.headers loaded.numExtSymbols))) = .ok patched ∧
      loaded.memory = patched.memory

theorem parseObj_returned {machine : Machine} {system : System} {base memory : Bytes}
    {protections : Address → Protection} {loaded : Loaded}
    (run : parseObj machine system base memory protections = .ok loaded) :
    Returned machine system base memory loaded := by
  obtain ⟨start, patched, text, rodata, performed⟩ := parseObj_performed run
  exact ⟨performed.counted, ⟨start, performed.mapped, performed.laidOut⟩,
    ⟨patched, performed.relocated, performed.written⟩⟩

end CloudflareBlog.ObjFile

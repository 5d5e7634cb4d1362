import CloudflareBlog.ObjFile.Elf

/-!
# The loaders of object files

`parse_obj` and what it calls.  The loaders for x86-64 and aarch64 differ in the slots of the jump
table and in the relocations they know; both are left open here (`Machine`).

The loader copies the sections into memory of its own.  The file is not part of that memory: it is
mapped for reading only.
-/

namespace CloudflareBlog.ObjFile

open CloudflareBlog.Lib.Buffer CloudflareBlog.Lib.Memory

/-! ## What the loaders depend on -/

structure Protection where
  read : Bool
  write : Bool
  execute : Bool
  deriving DecidableEq

/-- The system, and where `my_puts` is. -/
structure System where
  /-- `sysconf(_SC_PAGESIZE)`. -/
  pageSize : BitVec 64
  /-- The anonymous mapping of a length, unless `mmap` fails. -/
  mmap : BitVec 64 → Option Address
  /-- Whether `mprotect` returns zero. -/
  mprotect : Address → BitVec 64 → Protection → Bool
  myPuts : Address

/-- A system that maps memory at one address. -/
def smallSystem : System where
  pageSize := 4096
  mmap _ := some 0x10000
  mprotect _ _ _ := true
  myPuts := 0x400000

/-- What is special to a processor. -/
structure Machine where
  /-- Fill in the slot of the jump table at an address, for the function at another. -/
  fillSlot : Bytes → Address → Address → Bytes
  /-- The offset of `instr` in `struct ext_jump`. -/
  instrOffset : Address
  /-- The `switch (type)`, for the values of `patch_offset` and of `symbol_address + r_addend`. -/
  patch : BitVec 32 → Address → Address → Bytes → Bytes

/-! ## How the loaders stop -/

inductive Errno where
  | enoent
  | enoexec
  deriving DecidableEq

inductive Stop where
  /-- The message and `exit`. -/
  | exit (message : String) (error : Errno)
  /-- The message with the string at an address, and `exit`. -/
  | exitNaming (message : String) (name : Address) (error : Errno)
  /-- `perror` and `exit(errno)` after a system call. -/
  | systemCall (message : String)
  /-- A division by a zero `sh_entsize`. -/
  | divisionByZero
  deriving DecidableEq

/-- `lookup_section` where a section that is not found ends the program. -/
def requireSection (object : Sections) (name message : String) : Except Stop Shdr :=
  match lookupSection object (ascii name) with
  | none => .error (.exit message .enoexec)
  | some header => .ok header

/-- `sh_size / sh_entsize`, as an `int`. -/
def numEntries (header : Shdr) : Except Stop (BitVec 32) :=
  if header.shEntsize = 0 then .error .divisionByZero
  else .ok ((header.shSize / header.shEntsize).setWidth 32)

/-! ## Relocations -/

/-- The relocations that the loops of `count_external_symbols` and `do_text_relocations` go over. -/
def textRelocations (object : Object) : Except Stop (List Rela) := do
  let header ← requireSection object.toSections ".rela.text" "Failed to find .rela.text\n"
  let numRelocations ← numEntries header
  return object.relocations header numRelocations.toInt.toNat

/-- `count_external_symbols`: the value of `num_ext_symbols`. -/
def countExternalSymbols (object : Object) : Except Stop Nat := do
  let relocations ← textRelocations object
  return relocations.foldl
    (fun numExtSymbols relocation =>
      if object.isExternal relocation then numExtSymbols + 1 else numExtSymbols) 0

/-- `text_runtime_base`, `data_runtime_base`, `rodata_runtime_base` and `jumptable`. -/
structure Layout where
  textRuntimeBase : Address
  dataRuntimeBase : Address
  rodataRuntimeBase : Address
  jumptable : Address

/-- `sizeof(struct ext_jump)`. -/
def sizeofExtJump : BitVec 64 := 16

/-- `&jumptable[index]`. -/
def Layout.slot (layout : Layout) (index : Nat) : Address :=
  layout.jumptable + sizeofExtJump * BitVec.ofNat 64 index

def lookupFunction (object : Object) (layout : Layout) (name : List Byte) : Option Address :=
  (((List.range object.numSymbols.toInt.toNat).map fun i =>
    object.symbol (BitVec.ofNat 32 i)).find? fun symbol =>
      symbol.isFunction && sameString object.base (object.symbolName symbol) name).map fun symbol =>
        layout.textRuntimeBase + symbol.stValue

def lookupExtFunction (system : System) (object : Object) (name : Address) : Except Stop Address :=
  if sameString object.base name (ascii "puts") then .ok system.myPuts
  else .error (.exitNaming "No address for function %s\n" name .enoent)

def sectionRuntimeBase (object : Object) (layout : Layout) (header : Shdr) : Except Stop Address :=
  let sectionName := object.sectionName header
  if sameString object.base sectionName (ascii ".text") then .ok layout.textRuntimeBase
  else if sameString object.base sectionName (ascii ".data") then .ok layout.dataRuntimeBase
  else if sameString object.base sectionName (ascii ".rodata") then .ok layout.rodataRuntimeBase
  else .error (.exitNaming "No runtime base address for section %s\n" sectionName .enoent)

def Layout.patchOffset (layout : Layout) (relocation : Rela) : Address :=
  layout.textRuntimeBase + relocation.rOffset

/-- The memory and `curr_jmp_idx`. -/
structure Patching where
  memory : Bytes
  currJmpIdx : Nat

/-- The part of the loop body that finds `symbol_address`. -/
def symbolAddress (machine : Machine) (system : System) (object : Object) (layout : Layout)
    (relocation : Rela) (state : Patching) : Except Stop (Address × Patching) := do
  let symbol := object.symbol relocation.symbolIdx
  if symbol.isExternal then
    let addr ← lookupExtFunction system object (object.symbolName symbol)
    let slot := layout.slot state.currJmpIdx
    let memory := machine.fillSlot state.memory slot addr
    return (slot + machine.instrOffset, ⟨memory, state.currJmpIdx + 1⟩)
  else
    let base ← sectionRuntimeBase object layout (object.sectionOf symbol)
    return (base + symbol.stValue, state)

/-- The body of the loop. -/
def relocate (machine : Machine) (system : System) (object : Object) (layout : Layout)
    (state : Patching) (relocation : Rela) : Except Stop Patching := do
  let (symbolAddress, state) ← symbolAddress machine system object layout relocation state
  let memory := machine.patch relocation.type (layout.patchOffset relocation)
    (symbolAddress + relocation.rAddend) state.memory
  return ⟨memory, state.currJmpIdx⟩

def doTextRelocations (machine : Machine) (system : System) (object : Object) (layout : Layout)
    (memory : Bytes) : Except Stop Patching := do
  let relocations ← textRelocations object
  relocations.foldlM (relocate machine system object layout) ⟨memory, 0⟩

/-! ## `parse_obj` -/

def pageAlign (pageSize n : BitVec 64) : BitVec 64 := (n + (pageSize - 1)) &&& ~~~(pageSize - 1)

/-- The symbols table of a file. -/
def findSymbols (object : Sections) : Except Stop Object := do
  let symtabHdr ← requireSection object ".symtab" "Failed to find .symtab\n"
  let numSymbols ← numEntries symtabHdr
  let strtabHdr ← requireSection object ".strtab" "Failed to find .strtab\n"
  return { object with
    symbols := symtabHdr.shOffset, numSymbols := numSymbols, strtab := strtabHdr.shOffset }

/-- The headers of the sections to copy. -/
structure Headers where
  text : Shdr
  data : Shdr
  rodata : Shdr

def findHeaders (object : Sections) : Except Stop Headers := do
  let textHdr ← requireSection object ".text" "Failed to find .text\n"
  let dataHdr ← requireSection object ".data" "Failed to find .data\n"
  let rodataHdr ← requireSection object ".rodata" "Failed to find .rodata\n"
  return ⟨textHdr, dataHdr, rodataHdr⟩

def mappingLength (pageSize : BitVec 64) (headers : Headers) (numExtSymbols : Nat) : BitVec 64 :=
  pageAlign pageSize headers.text.shSize + pageAlign pageSize headers.data.shSize +
    pageAlign pageSize headers.rodata.shSize +
    pageAlign pageSize (sizeofExtJump * BitVec.ofNat 64 numExtSymbols)

/-- Where the copies and the jump table go. -/
def layOut (pageSize : BitVec 64) (headers : Headers) (textRuntimeBase : Address) : Layout :=
  let dataRuntimeBase := textRuntimeBase + pageAlign pageSize headers.text.shSize
  let rodataRuntimeBase := dataRuntimeBase + pageAlign pageSize headers.data.shSize
  let jumptable := rodataRuntimeBase + pageAlign pageSize headers.rodata.shSize
  ⟨textRuntimeBase, dataRuntimeBase, rodataRuntimeBase, jumptable⟩

/-- Fresh memory is zero. -/
def mapFresh (memory : Bytes) (start : Address) (length : BitVec 64) : Bytes :=
  copy memory start (fun _ => 0) 0 length.toNat

/-- The three calls of `memcpy`. -/
def copySections (base : Bytes) (headers : Headers) (layout : Layout) (memory : Bytes) : Bytes :=
  let copySection (destination : Address) (header : Shdr) (memory : Bytes) :=
    copy memory destination base header.shOffset header.shSize.toNat
  copySection layout.rodataRuntimeBase headers.rodata
    (copySection layout.dataRuntimeBase headers.data
      (copySection layout.textRuntimeBase headers.text memory))

/-- `mprotect`, which goes to the end of the last page. -/
def protect (system : System) (start : Address) (length : BitVec 64) (protection : Protection)
    (message : String) (protections : Address → Protection) :
    Except Stop (Address → Protection) :=
  if system.mprotect start length protection then
    .ok fun address =>
      if Inside start (pageAlign system.pageSize length).toNat address then protection
      else protections address
  else .error (.systemCall message)

/-- What `parse_obj` leaves behind. -/
structure Loaded where
  object : Object
  headers : Headers
  numExtSymbols : Nat
  layout : Layout
  memory : Bytes
  protections : Address → Protection

/-- `parse_obj`, for a file and the memory of the process. -/
def parseObj (machine : Machine) (system : System) (base memory : Bytes)
    (protections : Address → Protection) : Except Stop Loaded := do
  let sections := findSections base
  let object ← findSymbols sections
  let headers ← findHeaders sections
  let numExtSymbols ← countExternalSymbols object
  let length := mappingLength system.pageSize headers numExtSymbols
  match system.mmap length with
  | none => .error (.systemCall "Failed to allocate memory")
  | some textRuntimeBase =>
    let layout := layOut system.pageSize headers textRuntimeBase
    let memory := copySections base headers layout (mapFresh memory textRuntimeBase length)
    let protections := fun address =>
      if Inside textRuntimeBase length.toNat address then ⟨true, true, false⟩
      else protections address
    let patched ← doTextRelocations machine system object layout memory
    let protections ← protect system layout.textRuntimeBase
      (pageAlign system.pageSize headers.text.shSize) ⟨true, false, true⟩
      "Failed to make .text executable" protections
    let protections ← protect system layout.rodataRuntimeBase
      (pageAlign system.pageSize headers.rodata.shSize) ⟨true, false, false⟩
      "Failed to make .rodata readonly" protections
    let protections ← protect system layout.jumptable
      (pageAlign system.pageSize (sizeofExtJump * BitVec.ofNat 64 numExtSymbols))
      ⟨true, false, true⟩ "Failed to make the jumptable executable" protections
    return ⟨object, headers, numExtSymbols, layout, patched.memory, protections⟩

end CloudflareBlog.ObjFile

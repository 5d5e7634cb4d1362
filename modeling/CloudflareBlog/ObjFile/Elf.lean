import CloudflareBlog.Lib.Memory

/-!
# Object files

The tables of an ELF object file as the loaders find them: the section headers, their names, the
symbols and the relocations of `.text`.  The file is mapped as a whole and never written to.
Addresses in it are relative to `obj.base`; a pointer that leaves the file is followed all the same.
-/

namespace CloudflareBlog.ObjFile

open CloudflareBlog.Lib.Buffer CloudflareBlog.Lib.Memory

/-! ## Entries of the tables -/

/-- `Elf64_Shdr`, the fields in use. -/
structure Shdr where
  shName : BitVec 32
  shOffset : BitVec 64
  shSize : BitVec 64
  shEntsize : BitVec 64

def readShdr (base : Bytes) (address : Address) : Shdr where
  shName := load base address 4
  shOffset := load base (address + 24) 8
  shSize := load base (address + 32) 8
  shEntsize := load base (address + 56) 8

/-- `Elf64_Sym`, the fields in use. -/
structure Sym where
  stName : BitVec 32
  stInfo : BitVec 8
  stShndx : BitVec 16
  stValue : BitVec 64

def readSym (base : Bytes) (address : Address) : Sym where
  stName := load base address 4
  stInfo := base (address + 4)
  stShndx := load base (address + 6) 2
  stValue := load base (address + 8) 8

/-- `st_shndx == SHN_UNDEF`. -/
def Sym.isExternal (symbol : Sym) : Bool := symbol.stShndx = 0

/-- `ELF64_ST_TYPE(st_info) == STT_FUNC`. -/
def Sym.isFunction (symbol : Sym) : Bool := symbol.stInfo &&& 0xf = 2

/-- `Elf64_Rela`. -/
structure Rela where
  rOffset : BitVec 64
  rInfo : BitVec 64
  rAddend : BitVec 64
  deriving DecidableEq

def readRela (base : Bytes) (address : Address) : Rela where
  rOffset := load base address 8
  rInfo := load base (address + 8) 8
  rAddend := load base (address + 16) 8

/-- `int symbol_idx = ELF64_R_SYM(r_info)`. -/
def Rela.symbolIdx (relocation : Rela) : BitVec 32 := (relocation.rInfo >>> 32).setWidth 32

/-- `int type = ELF64_R_TYPE(r_info)`. -/
def Rela.type (relocation : Rela) : BitVec 32 := relocation.rInfo.setWidth 32

/-! ## Tables -/

/-- `obj`, `sections` and `shstrtab`. -/
structure Sections where
  base : Bytes
  sections : Address
  shstrtab : Address

/-- `e_shoff`, `e_shnum` and `e_shstrndx` of the header of the file. -/
def eShoff (base : Bytes) : BitVec 64 := load base 40 8

def eShnum (base : Bytes) : BitVec 16 := load base 60 2

def eShstrndx (base : Bytes) : BitVec 16 := load base 62 2

/-- `sections[i]`. -/
def sectionAt (base : Bytes) (sections : Address) (i : BitVec 16) : Shdr :=
  readShdr base (sections + 64 * i.setWidth 64)

/-- The beginning of `parse_obj`. -/
def findSections (base : Bytes) : Sections where
  base := base
  sections := eShoff base
  shstrtab := (sectionAt base (eShoff base) (eShstrndx base)).shOffset

/-- `shstrtab + section->sh_name`. -/
def Sections.sectionName (object : Sections) (header : Shdr) : Address :=
  object.shstrtab + header.shName.setWidth 64

/-- `lookup_section`: the header it points to. -/
def lookupSection (object : Sections) (name : List Byte) : Option Shdr :=
  ((List.range (eShnum object.base).toNat).map fun i =>
    sectionAt object.base object.sections (BitVec.ofNat 16 i)).find? fun header =>
      sameString object.base (object.sectionName header) name && header.shSize != 0

/-- With `symbols`, `num_symbols` and `strtab`. -/
structure Object extends Sections where
  symbols : Address
  numSymbols : BitVec 32
  strtab : Address

/-- `symbols[symbol_idx]`. -/
def Object.symbol (object : Object) (index : BitVec 32) : Sym :=
  readSym object.base (object.symbols + 24 * index.signExtend 64)

/-- `strtab + symbol.st_name`. -/
def Object.symbolName (object : Object) (symbol : Sym) : Address :=
  object.strtab + symbol.stName.setWidth 64

/-- `sections[symbol.st_shndx]`. -/
def Object.sectionOf (object : Object) (symbol : Sym) : Shdr :=
  sectionAt object.base object.sections symbol.stShndx

/-- The relocation refers to an external symbol. -/
def Object.isExternal (object : Object) (relocation : Rela) : Bool :=
  (object.symbol relocation.symbolIdx).isExternal

/-- `relocations[0]` to `relocations[count - 1]`. -/
def Object.relocations (object : Object) (header : Shdr) (count : Nat) : List Rela :=
  (List.range count).map fun i =>
    readRela object.base (header.shOffset + 24 * BitVec.ofNat 64 i)

/-- All entries of `.rela.text`. -/
def Object.relaText (object : Object) : List Rela :=
  match lookupSection object.toSections (ascii ".rela.text") with
  | none => []
  | some header => object.relocations header (header.shSize / header.shEntsize).toNat

/-! ## A small file -/

/-- A file made of fields: positions, sizes and values. -/
def fileOf (fields : List (Nat × Nat × Nat)) : Bytes := fun a =>
  match fields.find? fun field => field.1 ≤ a.toNat && a.toNat < field.1 + field.2.1 with
  | none => 0
  | some field => BitVec.ofNat 8 (field.2.2 >>> (8 * (a.toNat - field.1)))

def smallHeader (i name offset size entsize : Nat) : List (Nat × Nat × Nat) :=
  [(64 + 64 * i, 4, name), (88 + 64 * i, 8, offset), (96 + 64 * i, 8, size),
    (120 + 64 * i, 8, entsize)]

def smallString (position : Nat) (text : String) : Nat × Nat × Nat :=
  (position, text.length, (ascii text).foldr (fun byte rest => byte.toNat + 256 * rest) 0)

/-- A file with sixteen bytes of `.text` and two relocations of one type, at its beginning for the
external `puts` and at byte `second` for a symbol at byte 8. -/
def smallFile (type addend second text : Nat) : Bytes := fileOf <|
  [(40, 8, 64), (60, 2, 7), (62, 2, 0)] ++ smallHeader 0 10 512 50 0 ++
    smallHeader 1 12 576 48 24 ++ smallHeader 2 20 560 5 0 ++ smallHeader 3 5 704 16 0 ++
    smallHeader 4 28 720 1 0 ++ smallHeader 5 34 721 1 0 ++ smallHeader 6 0 640 48 24 ++
    [smallString 512 ".rela.text", smallString 524 ".symtab", smallString 532 ".strtab",
      smallString 540 ".data", smallString 546 ".rodata", smallString 560 "puts",
      (606, 2, 3), (608, 8, 8), (648, 8, type), (656, 8, addend), (664, 8, second),
      (672, 8, 2 ^ 32 + type), (680, 8, addend), (704, 16, text)]

def smallObject (type addend second text : Nat) : Object where
  base := smallFile type addend second text
  sections := 64
  shstrtab := 512
  symbols := 576
  numSymbols := 2
  strtab := 560

end CloudflareBlog.ObjFile

import CloudflareBlog.ObjFile.X86

/-!
# The regions of the mapping and their permissions

The four regions of a loaded file share out the pages of one mapping, and each ends up with the
permissions that `parse_obj` asked for it: the length in a call of `mprotect` is rounded up to pages
as the distance to the next region is, so no call reaches beyond its region.
-/

namespace CloudflareBlog.ObjFile

open CloudflareBlog.Lib.Memory CloudflareBlog.Lib.Pages CloudflareBlog.Lib.Checked

/-- A part of the mapping: its first byte, its size, and what it is for. -/
structure Region where
  start : Address
  size : Nat
  protection : Protection

def readWrite : Protection := ⟨true, true, false⟩

def readExecute : Protection := ⟨true, false, true⟩

def readOnly : Protection := ⟨true, false, false⟩

namespace Loaded

variable (loaded : Loaded)

def textRegion : Region :=
  ⟨loaded.layout.textRuntimeBase, loaded.headers.text.shSize.toNat, readExecute⟩

def dataRegion : Region :=
  ⟨loaded.layout.dataRuntimeBase, loaded.headers.data.shSize.toNat, readWrite⟩

def rodataRegion : Region :=
  ⟨loaded.layout.rodataRuntimeBase, loaded.headers.rodata.shSize.toNat, readOnly⟩

def jumptableRegion : Region :=
  ⟨loaded.layout.jumptable, 16 * loaded.numExtSymbols, readExecute⟩

/-- The copies of the sections and the jump table. -/
def regions : List Region :=
  [loaded.textRegion, loaded.dataRegion, loaded.rodataRegion, loaded.jumptableRegion]

end Loaded

/-- The bytes of the pages of a region. -/
def Region.Covers (page : Nat) (region : Region) (address : Address) : Prop :=
  Inside region.start (roundUp page region.size) address

/-- A region as a stretch of the mapping that begins at `base`, from one distance to another. -/
structure Region.Spans (page : Nat) (base : Address) (region : Region) (first last : Nat) : Prop where
  start : region.start = base + BitVec.ofNat 64 first
  whole : page ∣ first
  pages : first + roundUp page region.size = last

theorem Region.Spans.covers_iff {page : Nat} {base : Address} {region : Region} {first last : Nat}
    (spans : region.Spans page base first last) (room : last < 2 ^ 64) (address : Address) :
    region.Covers page address ↔
      first ≤ (address - base).toNat ∧ (address - base).toNat < last := by
  have pages := spans.pages
  have position : (BitVec.ofNat 64 first).toNat = first := by
    rw [BitVec.toNat_ofNat, Nat.mod_eq_of_lt (by omega)]
  rw [Region.Covers, spans.start, inside_add_iff _ (by omega), position, pages]

theorem Region.Spans.aligned {k : Nat} {base : Address} {region : Region} {first last : Nat}
    (spans : region.Spans (2 ^ k) base first last) (narrow : k ≤ 64)
    (aligned : 2 ^ k ∣ base.toNat) : 2 ^ k ∣ region.start.toNat := by
  rw [spans.start, BitVec.toNat_add, BitVec.toNat_ofNat, Nat.add_mod_mod]
  exact (Nat.dvd_mod_iff (Nat.pow_dvd_pow 2 narrow)).mpr (Nat.dvd_add aligned spans.whole)

section

variable {page : Nat} {loaded : Loaded}

theorem page_dvd_roundUp (page n : Nat) : page ∣ roundUp page n := Nat.dvd_mul_left _ _

theorem textRegion_spans (page : Nat) (loaded : Loaded) :
    loaded.textRegion.Spans page loaded.layout.textRuntimeBase 0 (dataOffset page loaded.headers) :=
  ⟨(BitVec.add_zero _).symm, Nat.dvd_zero _, Nat.zero_add _⟩

theorem dataRegion_spans (placed : Placed page loaded.headers loaded.layout) :
    loaded.dataRegion.Spans page loaded.layout.textRuntimeBase (dataOffset page loaded.headers)
      (rodataOffset page loaded.headers) :=
  ⟨placed.data, page_dvd_roundUp _ _, rfl⟩

theorem rodataRegion_spans (placed : Placed page loaded.headers loaded.layout) :
    loaded.rodataRegion.Spans page loaded.layout.textRuntimeBase
      (rodataOffset page loaded.headers) (jumptableOffset page loaded.headers) :=
  ⟨placed.rodata, Nat.dvd_add (dataRegion_spans placed).whole (page_dvd_roundUp _ _), rfl⟩

theorem jumptableRegion_spans (placed : Placed page loaded.headers loaded.layout) :
    loaded.jumptableRegion.Spans page loaded.layout.textRuntimeBase
      (jumptableOffset page loaded.headers)
      (mappingSize page loaded.headers loaded.numExtSymbols) :=
  ⟨placed.jumptable, Nat.dvd_add (rodataRegion_spans placed).whole (page_dvd_roundUp _ _), rfl⟩

theorem regions_apart (placed : Placed page loaded.headers loaded.layout)
    (room : mappingSize page loaded.headers loaded.numExtSymbols < 2 ^ 64) :
    loaded.regions.Pairwise fun first second =>
      ∀ address, ¬ (first.Covers page address ∧ second.Covers page address) := by
  have dataPages := (dataRegion_spans placed).pages
  have rodataPages := (rodataRegion_spans placed).pages
  have jumptablePages := (jumptableRegion_spans placed).pages
  -- each region is a stretch of distances, and where one ends the next one begins
  have text := (textRegion_spans page loaded).covers_iff (by omega)
  have data := (dataRegion_spans placed).covers_iff (by omega)
  have rodata := (rodataRegion_spans placed).covers_iff (by omega)
  have jumptable := (jumptableRegion_spans placed).covers_iff room
  simp only [Loaded.regions, List.pairwise_cons, List.mem_cons, List.not_mem_nil, or_false,
    forall_eq_or_imp, forall_eq, false_imp_iff, implies_true, List.Pairwise.nil, and_true,
    text, data, rodata, jumptable]
  refine ⟨⟨?_, ?_, ?_⟩, ⟨?_, ?_⟩, ?_⟩ <;> intro address <;> omega

end

/-! ## Permissions -/

theorem roundUp_roundUp {page : Nat} (positive : 0 < page) (n : Nat) :
    roundUp page (roundUp page n) = roundUp page n := by
  have whole : (roundUp page n + (page - 1)) / page = (n + (page - 1)) / page := by
    rw [roundUp, Nat.mul_comm, Nat.mul_add_div positive,
      Nat.div_eq_of_lt (Nat.sub_one_lt_of_lt positive)]
    rfl
  rw [roundUp, whole]
  rfl

/-- `mprotect` on a length in whole pages gives a region its permissions and leaves the rest alone. -/
theorem protect_region {system : System} {k : Nat} (isPower : system.pageSize.toNat = 2 ^ k)
    (region : Region) {size : BitVec 64} {message : String}
    {before after : Address → Protection} (same : size.toNat = region.size)
    (room : roundUp (2 ^ k) region.size < 2 ^ 64)
    (run : protect system region.start (pageAlign system.pageSize size) region.protection message
      before = .ok after) (address : Address) :
    (region.Covers (2 ^ k) address → after address = region.protection) ∧
      (¬ region.Covers (2 ^ k) address → after address = before address) := by
  have positive : 0 < 2 ^ k := Nat.two_pow_pos k
  have once := toNat_pageAlign isPower (n := size) (by rw [same]; exact room)
  have twice := toNat_pageAlign isPower (n := pageAlign system.pageSize size)
    (by rw [once, roundUp_roundUp positive, same]; exact room)
  rw [once, roundUp_roundUp positive, same] at twice
  rw [protect] at run
  split at run
  next =>
    cases run
    rw [twice]
    exact ⟨fun covered => if_pos covered, fun away => if_neg away⟩
  next => cases run

/-- The permissions when `parse_obj` returns are those of the fresh mapping after three calls of
`mprotect`. -/
theorem parseObj_protected {machine : Machine} {system : System} {base memory : Bytes}
    {protections : Address → Protection} {loaded : Loaded}
    (run : parseObj machine system base memory protections = .ok loaded) :
    ∃ text rodata,
      protect system loaded.textRegion.start (pageAlign system.pageSize loaded.headers.text.shSize)
          readExecute "Failed to make .text executable"
          (fun address =>
            if Inside loaded.layout.textRuntimeBase
                (mappingLength system.pageSize loaded.headers loaded.numExtSymbols).toNat address
            then readWrite else protections address) = .ok text ∧
        protect system loaded.rodataRegion.start
          (pageAlign system.pageSize loaded.headers.rodata.shSize) readOnly
          "Failed to make .rodata readonly" text = .ok rodata ∧
        protect system loaded.jumptableRegion.start
          (pageAlign system.pageSize (sizeofExtJump * BitVec.ofNat 64 loaded.numExtSymbols))
          readExecute "Failed to make the jumptable executable" rodata = .ok loaded.protections := by
  obtain ⟨start, patched, text, rodata, performed⟩ := parseObj_performed run
  exact ⟨text, rodata, performed.protectedText, performed.protectedRodata,
    performed.protectedJumptable⟩

theorem toNat_mappingLength {pageSize : BitVec 64} {k : Nat} {headers : Headers}
    {numExtSymbols : Nat} (isPower : pageSize.toNat = 2 ^ k)
    (room : mappingSize (2 ^ k) headers numExtSymbols < 2 ^ 64) :
    (mappingLength pageSize headers numExtSymbols).toNat =
        mappingSize (2 ^ k) headers numExtSymbols ∧
      (sizeofExtJump * BitVec.ofNat 64 numExtSymbols).toNat = 16 * numExtSymbols := by
  have slots := le_roundUp (Nat.two_pow_pos k) (16 * numExtSymbols)
  simp only [mappingSize, jumptableOffset, rodataOffset, dataOffset] at room ⊢
  have table : (sizeofExtJump * BitVec.ofNat 64 numExtSymbols).toNat = 16 * numExtSymbols := by
    have slot : sizeofExtJump.toNat = 16 := rfl
    rw [BitVec.toNat_mul, slot, BitVec.toNat_ofNat]
    omega
  refine ⟨?_, table⟩
  rw [mappingLength, BitVec.toNat_add, BitVec.toNat_add, BitVec.toNat_add,
    toNat_pageAlign isPower (by omega), toNat_pageAlign isPower (by omega),
    toNat_pageAlign isPower (by omega), toNat_pageAlign isPower (by rw [table]; omega), table]
  omega

/-- The permissions of an address by its distance from the beginning of the mapping. -/
theorem protections_eq {machine : Machine} {system : System} {base memory : Bytes}
    {protections : Address → Protection} {loaded : Loaded} {k : Nat}
    (run : parseObj machine system base memory protections = .ok loaded)
    (isPower : system.pageSize.toNat = 2 ^ k)
    (room : mappingSize (2 ^ k) loaded.headers loaded.numExtSymbols < 2 ^ 64)
    (placed : Placed (2 ^ k) loaded.headers loaded.layout) (address : Address) :
    let distance := (address - loaded.layout.textRuntimeBase).toNat
    loaded.protections address =
      if distance < dataOffset (2 ^ k) loaded.headers then readExecute
      else if distance < rodataOffset (2 ^ k) loaded.headers then readWrite
      else if distance < jumptableOffset (2 ^ k) loaded.headers then readOnly
      else if distance < mappingSize (2 ^ k) loaded.headers loaded.numExtSymbols then readExecute
      else protections address := by
  intro distance
  obtain ⟨whole, table⟩ := toNat_mappingLength isPower room
  obtain ⟨text, rodata, protectedText, protectedRodata, protectedJumptable⟩ :=
    parseObj_protected run
  have textSpans := textRegion_spans (2 ^ k) loaded
  have dataSpans := dataRegion_spans placed
  have rodataSpans := rodataRegion_spans placed
  have jumptableSpans := jumptableRegion_spans placed
  have textPages := textSpans.pages
  have dataPages := dataSpans.pages
  have rodataPages := rodataSpans.pages
  have jumptablePages := jumptableSpans.pages
  have inText := protect_region isPower loaded.textRegion rfl (by omega) protectedText
    address
  have inRodata := protect_region isPower loaded.rodataRegion rfl (by omega)
    protectedRodata address
  have inJumptable := protect_region isPower loaded.jumptableRegion table (by omega)
    protectedJumptable address
  rw [textSpans.covers_iff (by omega)] at inText
  rw [rodataSpans.covers_iff (by omega)] at inRodata
  rw [jumptableSpans.covers_iff (by omega)] at inJumptable
  -- the calls of `mprotect` one after the other: the last one that covers a page decides
  simp only [whole, Inside] at inText
  by_cases isText : distance < dataOffset (2 ^ k) loaded.headers
  · rw [if_pos isText, inJumptable.2 (by omega), inRodata.2 (by omega), inText.1 (by omega)]
    rfl
  rw [if_neg isText]
  by_cases isData : distance < rodataOffset (2 ^ k) loaded.headers
  · rw [if_pos isData, inJumptable.2 (by omega), inRodata.2 (by omega), inText.2 (by omega),
      if_pos (by omega)]
  rw [if_neg isData]
  by_cases isRodata : distance < jumptableOffset (2 ^ k) loaded.headers
  · rw [if_pos isRodata, inJumptable.2 (by omega), inRodata.1 (by omega)]
    rfl
  rw [if_neg isRodata]
  by_cases isJumptable : distance < mappingSize (2 ^ k) loaded.headers loaded.numExtSymbols
  · rw [if_pos isJumptable, inJumptable.1 (by omega)]
    rfl
  · rw [if_neg isJumptable, inJumptable.2 (by omega), inRodata.2 (by omega), inText.2 (by omega),
      if_neg isJumptable]

/-- A region that is a stretch of the mapping begins on a page boundary, and its pages have the
permissions of the stretch. -/
theorem Region.Spans.permits {k first last size : Nat} {base : Address} {region : Region}
    {protections : Address → Protection} (spans : region.Spans (2 ^ k) base first last)
    (narrow : k ≤ 64) (boundary : 2 ^ k ∣ base.toNat) (room : size < 2 ^ 64) (inside : last ≤ size)
    (permitted : ∀ address, first ≤ (address - base).toNat → (address - base).toNat < last →
      protections address = region.protection) :
    2 ^ k ∣ region.start.toNat ∧
      (∀ address, Inside region.start region.size address → region.Covers (2 ^ k) address) ∧
      ∀ address, region.Covers (2 ^ k) address →
        Inside base size address ∧ protections address = region.protection := by
  refine ⟨spans.aligned narrow boundary, fun address inRegion => ?_, fun address covered => ?_⟩
  · exact Nat.lt_of_lt_of_le inRegion (le_roundUp (Nat.two_pow_pos k) _)
  · obtain ⟨lower, upper⟩ := (spans.covers_iff (by omega) address).mp covered
    exact ⟨Nat.lt_of_lt_of_le upper inside, permitted address lower upper⟩

/-- The regions of a loaded file begin on page boundaries, share out the pages of the mapping and
have the permissions they should; no page of the mapping is writable and executable, and no page
outside of it has changed. -/
theorem regions_protected {machine : Machine} {system : System} {base memory : Bytes}
    {protections : Address → Protection} {loaded : Loaded} {k : Nat}
    (run : parseObj machine system base memory protections = .ok loaded)
    (isPower : system.pageSize.toNat = 2 ^ k)
    (aligned : ∀ length start, system.mmap length = some start →
      system.pageSize.toNat ∣ start.toNat)
    (room : mappingSize (2 ^ k) loaded.headers loaded.numExtSymbols < 2 ^ 64) :
    let mapping := mappingLength system.pageSize loaded.headers loaded.numExtSymbols
    let inMapping := Inside loaded.layout.textRuntimeBase mapping.toNat
    system.mmap mapping = some loaded.layout.textRuntimeBase ∧
      (∀ region ∈ loaded.regions, 2 ^ k ∣ region.start.toNat ∧
        (∀ address, Inside region.start region.size address → region.Covers (2 ^ k) address) ∧
        ∀ address, region.Covers (2 ^ k) address →
          inMapping address ∧ loaded.protections address = region.protection) ∧
      loaded.regions.Pairwise (fun first second =>
        ∀ address, ¬ (first.Covers (2 ^ k) address ∧ second.Covers (2 ^ k) address)) ∧
      (∀ address, inMapping address →
        ¬ ((loaded.protections address).write ∧ (loaded.protections address).execute)) ∧
      ∀ address, ¬ inMapping address → loaded.protections address = protections address := by
  intro mapping inMapping
  obtain ⟨start, mapped, laidOut⟩ := (parseObj_returned run).laidOut
  obtain rfl : loaded.layout.textRuntimeBase = start := by rw [laidOut]; rfl
  have placed : Placed (2 ^ k) loaded.headers loaded.layout := by
    rw [laidOut]
    exact layOut_placed isPower room _
  have permissions := protections_eq run isPower room placed
  have narrow : k ≤ 64 := by
    have small := system.pageSize.isLt
    rw [isPower] at small
    exact Nat.le_of_lt ((Nat.pow_lt_pow_iff_right (by decide)).mp small)
  have boundary := aligned _ _ mapped
  rw [isPower] at boundary
  have whole : mapping.toNat = mappingSize (2 ^ k) loaded.headers loaded.numExtSymbols :=
    (toNat_mappingLength isPower room).1
  have textSpans := textRegion_spans (2 ^ k) loaded
  have dataSpans := dataRegion_spans placed
  have rodataSpans := rodataRegion_spans placed
  have jumptableSpans := jumptableRegion_spans placed
  obtain ⟨-, data, rodata, jumptable⟩ :=
    offsets_ordered (2 ^ k) (Nat.two_pow_pos k) loaded.headers loaded.numExtSymbols
  refine ⟨mapped, ?_, ?_, ?_, ?_⟩
  · intro region among
    simp only [Loaded.regions, List.mem_cons, List.not_mem_nil, or_false] at among
    have bounded : mapping.toNat < 2 ^ 64 := mapping.isLt
    -- each region has the permissions of its stretch of distances
    obtain rfl | rfl | rfl | rfl := among
    · refine textSpans.permits narrow boundary bounded (by omega) fun address lower upper => ?_
      rw [permissions, if_pos upper]
      rfl
    · refine dataSpans.permits narrow boundary bounded (by omega) fun address lower upper => ?_
      rw [permissions, if_neg (by omega), if_pos upper]
      rfl
    · refine rodataSpans.permits narrow boundary bounded (by omega) fun address lower upper => ?_
      rw [permissions, if_neg (by omega), if_neg (by omega), if_pos upper]
      rfl
    · refine jumptableSpans.permits narrow boundary bounded (by omega) fun address lower upper => ?_
      rw [permissions, if_neg (by omega), if_neg (by omega), if_neg (by omega), if_pos upper]
      rfl
  · exact regions_apart placed room
  · intro address inside
    have below : (address - loaded.layout.textRuntimeBase).toNat < mapping.toNat := inside
    rw [whole] at below
    rw [permissions, if_pos below]
    split_ifs <;> simp [readExecute, readWrite, readOnly]
  · intro address outside
    have beyond : ¬(address - loaded.layout.textRuntimeBase).toNat < mapping.toNat := outside
    rw [whole] at beyond
    rw [permissions, if_neg (by omega), if_neg (by omega), if_neg (by omega), if_neg beyond]

/-- A file with a call of `puts`, on pages of 4096 bytes. -/
theorem regions_protected_small :
    ∃ loaded, parseObj X86.machine smallSystem (smallFile 4 0 8 0) (fun _ => 0)
        (fun _ => ⟨false, false, false⟩) = .ok loaded ∧
      loaded.protections 0x10000 = readExecute ∧
      ∀ address, Inside loaded.layout.textRuntimeBase
          (mappingLength 4096 loaded.headers loaded.numExtSymbols).toNat address →
        ¬ ((loaded.protections address).write ∧ (loaded.protections address).execute) := by
  have found : ∃ loaded, parseObj X86.machine smallSystem (smallFile 4 0 8 0) (fun _ => 0)
        (fun _ => ⟨false, false, false⟩) = .ok loaded ∧
      loaded.layout.textRuntimeBase = 0x10000 ∧ loaded.headers.text.shSize = 16 ∧
      mappingSize (2 ^ 12) loaded.headers loaded.numExtSymbols = 0x4000 := by
    decide +kernel
  obtain ⟨loaded, run, base, size, length⟩ := found
  obtain ⟨-, regions, -, exclusive, -⟩ := regions_protected (k := 12) run rfl
    (by rintro _ start mapped; cases mapped; decide) (by rw [length]; decide)
  refine ⟨loaded, run, ?_, exclusive⟩
  obtain ⟨-, inside, protection⟩ := regions loaded.textRegion List.mem_cons_self
  refine (protection 0x10000 (inside 0x10000 ?_)).2
  simp only [Loaded.textRegion, base, size]
  decide

end CloudflareBlog.ObjFile

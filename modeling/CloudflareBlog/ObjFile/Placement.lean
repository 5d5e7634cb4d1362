import CloudflareBlog.Lib.Checked
import CloudflareBlog.Lib.Pages
import CloudflareBlog.ObjFile.Loader

/-!
# Where the copies of the sections are

The regions of the mapping one after another, as distances from `text_runtime_base`, and what the
loader has put there before it relocates.
-/

namespace CloudflareBlog.ObjFile

open CloudflareBlog.Lib.Buffer CloudflareBlog.Lib.Memory CloudflareBlog.Lib.Pages
open CloudflareBlog.Lib.Checked

/-! ## The regions -/

def dataOffset (page : Nat) (headers : Headers) : Nat := roundUp page headers.text.shSize.toNat

def rodataOffset (page : Nat) (headers : Headers) : Nat :=
  dataOffset page headers + roundUp page headers.data.shSize.toNat

def jumptableOffset (page : Nat) (headers : Headers) : Nat :=
  rodataOffset page headers + roundUp page headers.rodata.shSize.toNat

/-- The length of the whole mapping, over the integers. -/
def mappingSize (page : Nat) (headers : Headers) (numExtSymbols : Nat) : Nat :=
  jumptableOffset page headers + roundUp page (16 * numExtSymbols)

section

variable {pageSize : BitVec 64} {k : Nat} {headers : Headers} {numExtSymbols : Nat}

theorem toNat_pageAlign (isPower : pageSize.toNat = 2 ^ k) {n : BitVec 64}
    (room : roundUp (2 ^ k) n.toNat < 2 ^ 64) :
    (pageAlign pageSize n).toNat = roundUp (2 ^ k) n.toNat :=
  toNat_alignMask isPower room

theorem slots_fit (page : Nat) (positive : 0 < page) (headers : Headers) (numExtSymbols : Nat) :
    jumptableOffset page headers + 16 * numExtSymbols ≤ mappingSize page headers numExtSymbols :=
  Nat.add_le_add_left (le_roundUp positive _) _

theorem offsets_ordered (page : Nat) (positive : 0 < page) (headers : Headers)
    (numExtSymbols : Nat) :
    headers.text.shSize.toNat ≤ dataOffset page headers ∧
      dataOffset page headers + headers.data.shSize.toNat ≤ rodataOffset page headers ∧
      rodataOffset page headers + headers.rodata.shSize.toNat ≤ jumptableOffset page headers ∧
      jumptableOffset page headers ≤ mappingSize page headers numExtSymbols := by
  have text := le_roundUp positive headers.text.shSize.toNat
  have data := le_roundUp positive headers.data.shSize.toNat
  have rodata := le_roundUp positive headers.rodata.shSize.toNat
  simp only [mappingSize, jumptableOffset, rodataOffset, dataOffset]
  omega

/-- The layout is that of the regions. -/
structure Placed (page : Nat) (headers : Headers) (layout : Layout) : Prop where
  data : layout.dataRuntimeBase =
    layout.textRuntimeBase + BitVec.ofNat 64 (dataOffset page headers)
  rodata : layout.rodataRuntimeBase =
    layout.textRuntimeBase + BitVec.ofNat 64 (rodataOffset page headers)
  jumptable : layout.jumptable =
    layout.textRuntimeBase + BitVec.ofNat 64 (jumptableOffset page headers)

theorem layOut_placed (isPower : pageSize.toNat = 2 ^ k)
    (room : mappingSize (2 ^ k) headers numExtSymbols < 2 ^ 64) (textRuntimeBase : Address) :
    Placed (2 ^ k) headers (layOut pageSize headers textRuntimeBase) := by
  have aligned {n : BitVec 64} (fits : roundUp (2 ^ k) n.toNat < 2 ^ 64) :
      pageAlign pageSize n = BitVec.ofNat 64 (roundUp (2 ^ k) n.toNat) := by
    apply BitVec.eq_of_toNat_eq
    rw [toNat_pageAlign isPower fits, BitVec.toNat_ofNat, Nat.mod_eq_of_lt fits]
  simp only [mappingSize, jumptableOffset, rodataOffset, dataOffset] at room
  constructor
  · rw [layOut, aligned (by omega), dataOffset]
  · rw [layOut, aligned (by omega), aligned (by omega), BitVec.add_assoc, ← BitVec.ofNat_add,
      rodataOffset, dataOffset]
  · rw [layOut, aligned (by omega), aligned (by omega), aligned (by omega), BitVec.add_assoc,
      BitVec.add_assoc, ← BitVec.ofNat_add, ← BitVec.ofNat_add, jumptableOffset, rodataOffset,
      dataOffset, Nat.add_assoc]

theorem slot_placed {page : Nat} {layout : Layout} (placed : Placed page headers layout)
    (index : Nat) :
    layout.slot index =
      layout.textRuntimeBase + BitVec.ofNat 64 (jumptableOffset page headers + 16 * index) := by
  rw [Layout.slot, placed.jumptable, BitVec.add_assoc, BitVec.ofNat_add, BitVec.ofNat_mul]
  rfl

theorem inside_slot_iff {page : Nat} {layout : Layout} (placed : Placed page headers layout)
    {index : Nat} (room : jumptableOffset page headers + 16 * index + 16 ≤ 2 ^ 64) (a : Address) :
    Inside (layout.slot index) 16 a ↔
      jumptableOffset page headers + 16 * index ≤ (a - layout.textRuntimeBase).toNat ∧
        (a - layout.textRuntimeBase).toNat < jumptableOffset page headers + 16 * index + 16 := by
  have position : (BitVec.ofNat 64 (jumptableOffset page headers + 16 * index)).toNat =
      jumptableOffset page headers + 16 * index := by
    rw [BitVec.toNat_ofNat, Nat.mod_eq_of_lt (by omega)]
  rw [slot_placed placed, inside_add_iff _ (by omega), position]

end

/-! ## The copies -/

theorem copySections_text {page : Nat} (positive : 0 < page) {headers : Headers} {layout : Layout}
    (placed : Placed page headers layout) (room : jumptableOffset page headers < 2 ^ 64)
    (base memory : Bytes) {offset : Address} (inside : offset.toNat < headers.text.shSize.toNat) :
    copySections base headers layout memory (layout.textRuntimeBase + offset) =
      base (headers.text.shOffset + offset) := by
  obtain ⟨text, data, rodata, -⟩ := offsets_ordered page positive headers 0
  have distance : (layout.textRuntimeBase + offset - layout.textRuntimeBase).toNat =
      offset.toNat := by
    rw [add_sub_self]
  have dataPosition : (BitVec.ofNat 64 (dataOffset page headers)).toNat =
      dataOffset page headers := by
    rw [BitVec.toNat_ofNat, Nat.mod_eq_of_lt (by omega)]
  have rodataPosition : (BitVec.ofNat 64 (rodataOffset page headers)).toNat =
      rodataOffset page headers := by
    rw [BitVec.toNat_ofNat, Nat.mod_eq_of_lt (by omega)]
  rw [copySections]
  simp only
  rw [copy_outside, copy_outside, copy_inside, add_sub_self]
  · rw [Inside, distance]
    exact inside
  · rw [placed.data, inside_add_iff _ (by omega), distance, dataPosition]
    omega
  · rw [placed.rodata, inside_add_iff _ (by omega), distance, rodataPosition]
    omega

end CloudflareBlog.ObjFile

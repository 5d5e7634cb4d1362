import CloudflareBlog.EPaper.Etag
import CloudflareBlog.Lib.PackedBits
import CloudflareBlog.Lib.Raster
import Mathlib.Data.Set.Function

/-!
# The bitmap of the display

`encodeBinary` turns the picture by 90 degrees and packs it, one bit a pixel: its two loops visit the
columns from the last one on, and the pixel they visit as number `s` is bit `s` of the bitmap
(`scan_eq`).  So pixels and bits correspond one to one, and nothing but the shade of a pixel is lost
(`encodeBinary_rearranges`).
-/

namespace CloudflareBlog.EPaper

open Lib.Buffer Lib.PackedBits Lib.Raster

def position (width height x y : Nat) : Nat := (width - 1 - x) * height + y

/-- The image that a bitmap shows, in black and white. -/
def decodeBinary (out : List Byte) (width height : Nat) : List Byte :=
  (List.range (width * height)).map fun index =>
    if bitAt out (position width height (index % width) (index / width)) then 0xff else 0

/-! ## The order of the loops -/

/-- The pixel that is visited as number `s`. -/
theorem scan_eq (width height : Nat) :
    scan width height = (List.range (width * height)).map fun s =>
      (width - 1 - s / height, s % height) :=
  flatMap_reverse_range (fun x y => (x, y)) width height

theorem length_scan (width height : Nat) : (scan width height).length = width * height := by
  rw [scan_eq, List.length_map, List.length_range]

/-! ## Pixels and bits -/

variable {width height x y s : Nat}

theorem position_lt (inRow : x < width) (inColumn : y < height) :
    position width height x y < width * height := by
  have turned : width - 1 - x < width := by omega
  exact index_lt turned inColumn

theorem position_div (inColumn : y < height) : position width height x y / height = width - 1 - x :=
  div_columns inColumn

theorem position_mod (inColumn : y < height) : position width height x y % height = y :=
  mod_columns inColumn

theorem position_bijOn (width height : Nat) :
    Set.BijOn (fun pixel : Nat × Nat => position width height pixel.1 pixel.2)
      {pixel | pixel.1 < width ∧ pixel.2 < height} {s | s < width * height} := by
  refine ⟨fun pixel inside => position_lt inside.1 inside.2, ?_, ?_⟩
  · rintro ⟨x, y⟩ ⟨inRow, inColumn⟩ ⟨x', y'⟩ ⟨inRow', inColumn'⟩ same
    simp only at inRow inColumn inRow' inColumn' same
    have column := congrArg (· / height) same
    have row := congrArg (· % height) same
    simp only [position_div inColumn, position_div inColumn'] at column
    simp only [position_mod inColumn, position_mod inColumn'] at row
    rw [Prod.mk.injEq]
    omega
  · intro s inside
    have inside : s < width * height := inside
    have positive : 0 < height := Nat.pos_of_ne_zero fun none => by simp [none] at inside
    have column : s / height < width := Nat.div_lt_of_lt_mul (by rwa [Nat.mul_comm] at inside)
    have back : width - 1 - (width - 1 - s / height) = s / height :=
      Nat.sub_sub_self (Nat.le_sub_one_of_lt column)
    refine ⟨(width - 1 - s / height, s % height), ⟨?_, Nat.mod_lt s positive⟩, ?_⟩
    · exact Nat.lt_of_le_of_lt (Nat.sub_le ..) (Nat.sub_one_lt_of_lt column)
    · simp only [position, back, Nat.div_add_mod']

/-! ## The bitmap -/

def on (raw : List Byte) (width : Nat) (pixel : Nat × Nat) : Bool :=
  raw.getD (pixel.2 * width + pixel.1) 0 ≠ 0

theorem encodePixel_eq (raw : List Byte) (width : Nat) (out : List Byte) (pixel : Nat × Nat)
    (s : Nat) : encodePixel raw width out (pixel, s) = orBit out (on raw width pixel, s) := by
  have shifted (place : Nat) : ((1 <<< place : Nat) : Byte) = (1 : Byte) <<< place := by
    apply BitVec.eq_of_toNat_eq
    simp
  rw [encodePixel, orBit]
  congr 1
  funext byte
  by_cases lit : raw.getD (pixel.2 * width + pixel.1) 0 = 0
  · simp only [on, lit, ne_eq, not_true_eq_false, if_false, decide_false, Bool.false_eq_true]
    rfl
  · simp only [on, lit, ne_eq, not_false_eq_true, if_true, decide_true, shifted]

theorem encodeBinary_eq (raw : List Byte) (width height : Nat) :
    encodeBinary raw width height =
      packBits (raw.length / 8) ((scan width height).map (on raw width)) := by
  rw [encodeBinary, packBits, List.zipIdx_map, List.foldl_map]
  congr 1
  funext out pixel
  exact encodePixel_eq raw width out pixel.1 pixel.2

theorem bitAt_encodeBinary {raw : List Byte} (size : raw.length = width * height)
    (whole : 8 ∣ width * height) (inRow : x < width) (inColumn : y < height) :
    bitAt (encodeBinary raw width height) (position width height x y) =
      decide (raw.getD (y * width + x) 0 ≠ 0) := by
  have room : ((scan width height).map (on raw width)).length ≤ 8 * (raw.length / 8) := by
    rw [List.length_map, length_scan, size, Nat.mul_div_cancel' whole]
  have back : width - 1 - (width - 1 - x) = x := by omega
  rw [encodeBinary_eq, bitAt_packBits room, scan_eq]
  simp [position_lt inRow inColumn, position_div inColumn, position_mod inColumn, back, on]

theorem ext_position {out other : List Byte} (whole : 8 ∣ width * height)
    (size : out.length = width * height / 8) (sizeOther : other.length = width * height / 8)
    (same : ∀ x < width, ∀ y < height,
      bitAt out (position width height x y) = bitAt other (position width height x y)) :
    out = other := by
  apply ext (size.trans sizeOther.symm)
  intro s inside
  rw [size, Nat.mul_div_cancel' whole] at inside
  obtain ⟨pixel, ⟨inRow, inColumn⟩, rfl⟩ := (position_bijOn width height).surjOn inside
  exact same pixel.1 inRow pixel.2 inColumn

theorem decodeBinary_encodeBinary {raw : List Byte} (size : raw.length = width * height)
    (whole : 8 ∣ width * height) :
    decodeBinary (encodeBinary raw width height) width height =
      raw.map fun pixel => if pixel ≠ 0 then 0xff else 0 := by
  apply List.ext_getElem (by simp [decodeBinary, size])
  intro index _ inside
  rw [List.length_map, size] at inside
  have positive : 0 < width := Nat.pos_of_ne_zero fun none => by simp [none] at inside
  have inRow := Nat.mod_lt index positive
  have inColumn : index / width < height := Nat.div_lt_of_lt_mul inside
  simp [decodeBinary, bitAt_encodeBinary size whole inRow inColumn, Nat.div_add_mod', size, inside]

theorem getD_decodeBinary (out : List Byte) (inRow : x < width) (inColumn : y < height) :
    (decodeBinary out width height).getD (y * width + x) 0 =
      if bitAt out (position width height x y) then 0xff else 0 := by
  have inside : y * width + x < width * height := by
    rw [Nat.mul_comm width]
    exact index_lt inColumn inRow
  simp [decodeBinary, inside, mod_columns inRow, div_columns inRow]

theorem encodeBinary_decodeBinary {out : List Byte} (size : out.length = width * height / 8)
    (whole : 8 ∣ width * height) :
    encodeBinary (decodeBinary out width height) width height = out := by
  have pixels : (decodeBinary out width height).length = width * height := by
    rw [decodeBinary, List.length_map, List.length_range]
  refine ext_position whole (by rw [length_encodeBinary, pixels]) size
    fun x inRow y inColumn => ?_
  rw [bitAt_encodeBinary pixels whole inRow inColumn, getD_decodeBinary out inRow inColumn]
  cases bitAt out (position width height x y) <;> rfl

/-- For every size of a multiple of eight pixels: pixels and bits correspond one to one, a bit is set
when its pixel is not zero, and decoding and encoding are inverse up to the shades. -/
theorem encodeBinary_rearranges (width height : Nat) (whole : 8 ∣ width * height) :
    Set.BijOn (fun pixel : Nat × Nat => position width height pixel.1 pixel.2)
        {pixel | pixel.1 < width ∧ pixel.2 < height} {s | s < width * height} ∧
      (∀ raw : List Byte, raw.length = width * height →
        (encodeBinary raw width height).length = width * height / 8 ∧
        (∀ x < width, ∀ y < height,
          bitAt (encodeBinary raw width height) (position width height x y) = true ↔
            raw.getD (y * width + x) 0 ≠ 0) ∧
        decodeBinary (encodeBinary raw width height) width height =
          raw.map fun pixel => if pixel ≠ 0 then 0xff else 0) ∧
      ∀ out : List Byte, out.length = width * height / 8 →
        encodeBinary (decodeBinary out width height) width height = out := by
  refine ⟨position_bijOn width height, fun raw size => ⟨?_, ?_, ?_⟩, fun out size => ?_⟩
  · rw [length_encodeBinary, size]
  · intro x inRow y inColumn
    rw [bitAt_encodeBinary size whole inRow inColumn, decide_eq_true_iff]
  · exact decodeBinary_encodeBinary size whole
  · exact encodeBinary_decodeBinary size whole

/-- A picture of four columns and two rows. -/
theorem encodeBinary_rearranges_small :
    encodeBinary [1, 0, 0, 0, 7, 0, 255, 1] 4 2 = [0b01010011] ∧
      decodeBinary [0b01010011] 4 2 = [255, 0, 0, 0, 255, 0, 255, 255] := by
  have encoded : encodeBinary [1, 0, 0, 0, 7, 0, 255, 1] 4 2 = [0b01010011] := by decide +kernel
  obtain ⟨-, decoded, -⟩ := encodeBinary_rearranges 4 2 (by decide)
  have back := (decoded [1, 0, 0, 0, 7, 0, 255, 1] rfl).2.2
  rw [encoded] at back
  exact ⟨encoded, back⟩

end CloudflareBlog.EPaper

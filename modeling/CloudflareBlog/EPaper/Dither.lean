import CloudflareBlog.Lib.Buffer
import CloudflareBlog.Lib.Diffusion
import CloudflareBlog.Lib.Raster
import Mathlib.Data.Rat.Floor
import Mathlib.Tactic.NormNum

/-!
# Dithering

`ditherTwoBits` makes every pixel black or white and adds the error to pixels that come later in the
array, at four places that are computed from the row and the column.  In the array it is an error
diffusion (`dither_eq_sweep`) whose weights are causal and sum up to one when a row has at least two
pixels.  So the result is black and white and stays so when it is dithered again
(`ditherTwoBits_bilevel`), and the values on the way stay in fixed bounds, however large the image is
(`ditherTwoBits_bounded`).  The arithmetic is that of exact rationals.
-/

namespace CloudflareBlog.EPaper

open Lib.Buffer Lib.Diffusion Lib.Raster

/-! ## The code -/

/-- `px[index] = value`, which does nothing outside of the array. -/
def setAt (px : List ℚ) (index : ℤ) (value : ℚ) : List ℚ :=
  if 0 ≤ index then px.set index.toNat value else px

/-- `px[index] += value`, which does nothing outside of the array. -/
def addAt (px : List ℚ) (index : ℤ) (value : ℚ) : List ℚ :=
  if 0 ≤ index then px.modify index.toNat (· + value) else px

/-- `old_pixel > 128 ? 0xff : 0x00`. -/
def newPixel (oldPixel : ℚ) : ℚ := if oldPixel > 128 then 0xff else 0x00

/-- The body of the two loops, on a pixel `(x, y)`. -/
def ditherPixel (width : ℕ) (px : List ℚ) (pixel : ℕ × ℕ) : List ℚ :=
  let x : ℤ := pixel.1
  let y : ℤ := pixel.2
  let oldPixel := px.getD (pixel.2 * width + pixel.1) 0
  let quantError := (oldPixel - newPixel oldPixel) / 16
  let px := setAt px ((y + 0) * width + (x + 0)) (newPixel oldPixel)
  let px := addAt px ((y + 0) * width + (x + 1)) (quantError * 7)
  let px := addAt px ((y + 1) * width + (x - 1)) (quantError * 3)
  let px := addAt px ((y + 1) * width + (x + 0)) (quantError * 5)
  addAt px ((y + 1) * width + (x + 1)) (quantError * 1)

/-- The pixels in the order of the two loops of `ditherTwoBits`. -/
def raster (width height : ℕ) : List (ℕ × ℕ) :=
  (List.range height).flatMap fun y => (List.range width).map fun x => (x, y)

def ditherUpTo (px : List ℚ) (width height count : ℕ) : List ℚ :=
  ((raster width height).take count).foldl (ditherPixel width) px

def dither (px : List ℚ) (width height : ℕ) : List ℚ :=
  (raster width height).foldl (ditherPixel width) px

/-- The value `old_pixel` in the turn of a pixel. -/
def oldPixel (px : List ℚ) (width height x y : ℕ) : ℚ :=
  (ditherUpTo px width height (y * width + x)).getD (y * width + x) 0

/-- `new Float32Array(px)`. -/
def float32Array (px : List Byte) : List ℚ := px.map fun byte => (byte.toNat : ℚ)

/-- An element of a `Uint8ClampedArray`: the nearest byte, the even one of two. -/
def uint8Clamped (value : ℚ) : Byte :=
  if value ≤ 0 then 0
  else if 255 ≤ value then 255
  else
    let below := ⌊value⌋
    let rest := value - below
    BitVec.ofInt 8
      (if rest < 1 / 2 then below else if 1 / 2 < rest then below + 1 else below + below % 2)

def ditherTwoBits (px : List Byte) (width height : ℕ) : List Byte :=
  (dither (float32Array px) width height).map uint8Clamped

/-! ## The array as a row of values -/

theorem raster_eq (width height : ℕ) :
    raster width height =
      (List.range (height * width)).map fun i => (i % width, i / width) :=
  flatMap_range (fun y x => (x, y)) height width

theorem ditherUpTo_succ {px : List ℚ} {width height count : ℕ} (inside : count < height * width) :
    ditherUpTo px width height (count + 1) =
      ditherPixel width (ditherUpTo px width height count) (count % width, count / width) := by
  have turn : (raster width height)[count]? = some (count % width, count / width) := by
    rw [raster_eq]
    simp [inside]
  rw [ditherUpTo, ditherUpTo, List.take_add_one, turn, List.foldl_append]
  rfl

theorem ditherUpTo_all (px : List ℚ) (width height : ℕ) :
    ditherUpTo px width height (height * width) = dither px width height := by
  have all : (raster width height).length ≤ height * width := by
    rw [raster_eq, List.length_map, List.length_range]
  rw [ditherUpTo, List.take_of_length_le all, dither]

/-- What the pixel at `i` gives of its error to the one at `j`; nothing goes outside of the array. -/
def given (width count i j : ℕ) : ℚ :=
  if j < count then
    (if j = i + 1 then 7 / 16 else 0) + (if j + 1 = i + width then 3 / 16 else 0) +
      (if j = i + width then 5 / 16 else 0) + (if j = i + width + 1 then 1 / 16 else 0)
  else 0

def values (px : List ℚ) (j : ℕ) : ℚ := px.getD j 0

theorem values_of_lt {px : List ℚ} {i : ℕ} (inside : i < px.length) : values px i = px[i] := by
  rw [values, List.getD_eq_getElem?_getD, List.getElem?_eq_getElem inside, Option.getD_some]

@[simp] theorem length_setAt (px : List ℚ) (index : ℤ) (value : ℚ) :
    (setAt px index value).length = px.length := by
  unfold setAt
  split <;> simp

@[simp] theorem length_addAt (px : List ℚ) (index : ℤ) (value : ℚ) :
    (addAt px index value).length = px.length := by
  unfold addAt
  split <;> simp

theorem values_setAt {px : List ℚ} {index : ℕ} (inside : index < px.length) (value : ℚ) (j : ℕ) :
    values (setAt px index value) j = if j = index then value else values px j := by
  simp only [values, setAt, Int.natCast_nonneg, if_true, Int.toNat_natCast,
    List.getD_eq_getElem?_getD, List.getElem?_set]
  by_cases here : j = index
  · simp [here, inside]
  · simp [here, Ne.symm here]

theorem values_addAt (px : List ℚ) (index : ℕ) (value : ℚ) (j : ℕ) :
    values (addAt px index value) j =
      values px j + if j = index ∧ j < px.length then value else 0 := by
  simp only [values, addAt, Int.natCast_nonneg, if_true, Int.toNat_natCast,
    List.getD_eq_getElem?_getD, List.getElem?_modify]
  by_cases here : index = j
  · by_cases inside : j < px.length
    · simp [here, inside]
    · simp [inside]
  · simp [here, Ne.symm here]

/-- A turn of the loops is a step of the diffusion. -/
theorem values_ditherPixel {px : List ℚ} {width x y : ℕ} (wide : 1 ≤ width)
    (inside : y * width + x < px.length) :
    values (ditherPixel width px (x, y)) =
      diffuse newPixel (given width px.length) (values px) (y * width + x) := by
  funext j
  have here : ((y : ℤ) + 0) * width + (x + 0) = (y * width + x : ℕ) := by push_cast; ring
  have right : ((y : ℤ) + 0) * width + (x + 1) = (y * width + x + 1 : ℕ) := by push_cast; ring
  have belowLeft : ((y : ℤ) + 1) * width + (x - 1) = (y * width + x + (width - 1) : ℕ) := by
    push_cast [wide]
    ring
  have below : ((y : ℤ) + 1) * width + (x + 0) = (y * width + x + width : ℕ) := by push_cast; ring
  have belowRight : ((y : ℤ) + 1) * width + (x + 1) = (y * width + x + width + 1 : ℕ) := by
    push_cast
    ring
  have place : j = y * width + x + (width - 1) ↔ j + 1 = y * width + x + width := by omega
  have read : px.getD (y * width + x) 0 = values px (y * width + x) := rfl
  simp only [ditherPixel, read, here, right, belowLeft, below, belowRight, values_addAt,
    values_setAt inside, length_addAt, length_setAt, diffuse, given, place]
  by_cases within : j < px.length
  · simp only [within, and_true, if_true, mul_add, mul_ite, mul_zero, ← add_assoc]
    congr 1
    · congr 1
      · congr 1
        · congr 1
          split <;> ring
        · split <;> ring
      · split <;> ring
    · split <;> ring
  · simp only [within, and_false, if_false, add_zero, mul_zero]

/-- The array after some turns, as a row of values. -/
theorem values_ditherUpTo {px : List ℚ} {width height count : ℕ} (wide : 1 ≤ width)
    (size : px.length = height * width) (turns : count ≤ height * width) :
    (ditherUpTo px width height count).length = px.length ∧
      values (ditherUpTo px width height count) =
        sweep newPixel (given width px.length) (values px) count := by
  induction count with
  | zero => exact ⟨rfl, rfl⟩
  | succ count inductionHypothesis =>
    obtain ⟨length, row⟩ := inductionHypothesis (by omega)
    have turn : count / width * width + count % width = count := Nat.div_add_mod' count width
    have inside : count / width * width + count % width <
        (ditherUpTo px width height count).length := by omega
    rw [ditherUpTo_succ (by omega), values_ditherPixel wide inside, row, turn, length]
    refine ⟨?_, rfl⟩
    rw [← length]
    simp [ditherPixel]

theorem length_dither {px : List ℚ} {width height : ℕ} (wide : 1 ≤ width)
    (size : px.length = height * width) : (dither px width height).length = px.length := by
  rw [← ditherUpTo_all]
  exact (values_ditherUpTo wide size le_rfl).1

theorem dither_eq_sweep {px : List ℚ} {width height : ℕ} (wide : 1 ≤ width)
    (size : px.length = height * width) :
    values (dither px width height) =
      sweep newPixel (given width px.length) (values px) (height * width) := by
  rw [← ditherUpTo_all]
  exact (values_ditherUpTo wide size le_rfl).2

/-! ## The weights -/

/-- At most one position gives over a fixed distance. -/
theorem sum_distance_le (weight : ℚ) (nonneg : 0 ≤ weight) (distance j : ℕ) :
    (∑ i ∈ Finset.range j, if j = i + distance then weight else 0) ≤ weight := by
  by_cases far : distance ≤ j
  · have only : ∀ i, j = i + distance ↔ i = j - distance := fun i => by omega
    simp only [only, Finset.sum_ite_eq']
    split
    · exact le_rfl
    · exact nonneg
  · have none : ∀ i ∈ Finset.range j, (if j = i + distance then weight else 0) = 0 :=
      fun i _ => if_neg (by omega)
    rw [Finset.sum_eq_zero none]
    exact nonneg

theorem given_nonneg (width count i j : ℕ) : 0 ≤ given width count i j := by
  unfold given
  positivity

theorem causal_given {width : ℕ} (wide : 2 ≤ width) (count : ℕ) : Causal (given width count) := by
  intro i j before
  rw [given, if_neg (show ¬ j = i + 1 by omega), if_neg (show ¬ j + 1 = i + width by omega),
    if_neg (show ¬ j = i + width by omega), if_neg (show ¬ j = i + width + 1 by omega)]
  simp

theorem sum_given_le {width : ℕ} (wide : 1 ≤ width) (count j : ℕ) :
    ∑ i ∈ Finset.range j, given width count i j ≤ 1 := by
  unfold given
  by_cases within : j < count
  · have left : ∀ i, j + 1 = i + width ↔ j = i + (width - 1) := fun i => by omega
    have right := sum_distance_le (7 / 16) (by norm_num) 1 j
    have belowLeft := sum_distance_le (3 / 16) (by norm_num) (width - 1) j
    have below := sum_distance_le (5 / 16) (by norm_num) width j
    have belowRight := sum_distance_le (1 / 16) (by norm_num) (width + 1) j
    simp only [within, if_true, Finset.sum_add_distrib, left, Nat.add_assoc]
    linarith
  · simp [within]

/-! ## Results -/

variable {width height : ℕ}

theorem newPixel_cases (value : ℚ) : newPixel value = 0 ∨ newPixel value = 255 := by
  unfold newPixel
  split
  · exact .inr rfl
  · exact .inl rfl

/-- A value not much outside of the range of a pixel has an error not much larger than half of it. -/
theorem newPixel_error (value : ℚ) (low : 0 + -127 ≤ value) (high : value ≤ 255 + 128) :
    -127 ≤ value - newPixel value ∧ value - newPixel value ≤ 128 := by
  unfold newPixel
  split
  next light => constructor <;> linarith
  next dark => constructor <;> linarith

theorem oldPixel_eq_sweep {px : List ℚ} (wide : 1 ≤ width) (size : px.length = height * width)
    {x y : ℕ} (inRow : x < width) (inColumn : y < height) :
    oldPixel px width height x y =
      sweep newPixel (given width px.length) (values px) (y * width + x) (y * width + x) := by
  have inside := index_lt inColumn inRow
  exact congrFun (values_ditherUpTo wide size inside.le).2 _

/-- A pixel that has been made black or white is not changed again. -/
theorem getD_ditherUpTo {px : List ℚ} (wide : 2 ≤ width) (size : px.length = height * width)
    {x y count : ℕ} (inRow : x < width) (inColumn : y < height)
    (done : y * width + x < count) (turns : count ≤ height * width) :
    (ditherUpTo px width height count).getD (y * width + x) 0 =
      newPixel (oldPixel px width height x y) := by
  have row := congrFun (values_ditherUpTo (by omega) size turns).2 (y * width + x)
  rw [sweep_of_lt (causal_given wide _) done] at row
  rw [oldPixel_eq_sweep (by omega) size inRow inColumn]
  exact row

theorem dither_cases {px : List ℚ} (wide : 2 ≤ width) (size : px.length = height * width) :
    ∀ value ∈ dither px width height, value = 0 ∨ value = 255 := by
  intro value among
  obtain ⟨i, inside, rfl⟩ := List.getElem_of_mem among
  have early := inside
  rw [length_dither (by omega) size, size] at early
  have row := congrFun (dither_eq_sweep (by omega) size) i
  rw [sweep_of_lt (causal_given wide _) early, values_of_lt inside] at row
  rw [row]
  exact newPixel_cases _

theorem dither_of_cases {px : List ℚ} (wide : 1 ≤ width) (size : px.length = height * width)
    (exact : ∀ value ∈ px, value = 0 ∨ value = 255) : dither px width height = px := by
  have kept : sweep newPixel (given width px.length) (values px) (height * width) = values px := by
    refine sweep_of_exact fun i inside => ?_
    have here : values px i ∈ px := by
      rw [← size] at inside
      rw [values_of_lt inside]
      exact List.getElem_mem inside
    obtain black | white := exact _ here
    · rw [black]
      norm_num [newPixel]
    · rw [white]
      norm_num [newPixel]
  have row := (dither_eq_sweep wide size).trans kept
  apply List.ext_getElem (length_dither wide size)
  intro i inside insidePx
  have same := congrFun row i
  rwa [values_of_lt inside, values_of_lt insidePx] at same

theorem length_ditherTwoBits {px : List Byte} (wide : 1 ≤ width) (size : px.length = height * width) :
    (ditherTwoBits px width height).length = px.length := by
  rw [ditherTwoBits, List.length_map, length_dither wide (by simpa [float32Array] using size),
    float32Array, List.length_map]

theorem uint8Clamped_zero : uint8Clamped 0 = 0 := by
  rw [uint8Clamped, if_pos le_rfl]

theorem uint8Clamped_white : uint8Clamped 255 = 255 := by
  rw [uint8Clamped, if_neg (by norm_num), if_pos le_rfl]

theorem ditherTwoBits_cases {px : List Byte} (wide : 2 ≤ width)
    (size : px.length = height * width) :
    ∀ pixel ∈ ditherTwoBits px width height, pixel = 0 ∨ pixel = 255 := by
  intro pixel among
  obtain ⟨value, amongValues, rfl⟩ := List.mem_map.mp among
  obtain rfl | rfl := dither_cases wide (by simpa [float32Array] using size) value amongValues
  · exact .inl uint8Clamped_zero
  · exact .inr uint8Clamped_white

theorem ditherTwoBits_of_cases {px : List Byte} (wide : 1 ≤ width)
    (size : px.length = height * width) (exact : ∀ pixel ∈ px, pixel = 0 ∨ pixel = 255) :
    ditherTwoBits px width height = px := by
  have exactValues : ∀ value ∈ float32Array px, value = 0 ∨ value = 255 := by
    intro value among
    obtain ⟨pixel, amongPixels, rfl⟩ := List.mem_map.mp among
    obtain rfl | rfl := exact pixel amongPixels
    · exact .inl (by simp)
    · exact .inr (by rw [show (255 : Byte).toNat = 255 from rfl]; norm_num)
  rw [ditherTwoBits, dither_of_cases wide (by simpa [float32Array] using size) exactValues,
    float32Array, List.map_map]
  refine (List.map_congr_left fun pixel among => ?_).trans (List.map_id px)
  obtain rfl | rfl := exact pixel among
  · exact uint8Clamped_zero
  · simp [uint8Clamped_white]

/-- For every image whose rows have at least two pixels: no pixel is modified after its turn, the
result is black and white, a black and white image is left as it is, and so is the result when it is
dithered again. -/
theorem ditherTwoBits_bilevel (width height : ℕ) (wide : 2 ≤ width) (px : List Byte)
    (size : px.length = width * height) :
    (∀ x < width, ∀ y < height, ∀ count, y * width + x < count → count ≤ width * height →
      (ditherUpTo (float32Array px) width height count).getD (y * width + x) 0 =
        newPixel (oldPixel (float32Array px) width height x y)) ∧
      (∀ pixel ∈ ditherTwoBits px width height, pixel = 0 ∨ pixel = 255) ∧
      ((∀ pixel ∈ px, pixel = 0 ∨ pixel = 255) → ditherTwoBits px width height = px) ∧
      ditherTwoBits (ditherTwoBits px width height) width height = ditherTwoBits px width height := by
  rw [Nat.mul_comm] at size
  have sizeValues : (float32Array px).length = height * width := by simpa [float32Array] using size
  refine ⟨?_, ditherTwoBits_cases wide size, ditherTwoBits_of_cases (by omega) size, ?_⟩
  · intro x inRow y inColumn count done turns
    rw [Nat.mul_comm] at turns
    exact getD_ditherUpTo wide sizeValues inRow inColumn done turns
  · have sizeResult : (ditherTwoBits px width height).length = height * width := by
      rw [length_ditherTwoBits (by omega) size, size]
    exact ditherTwoBits_of_cases (by omega) sizeResult (ditherTwoBits_cases wide size)

/-- A row of three pixels, two of them grey. -/
theorem ditherTwoBits_bilevel_row :
    ditherTwoBits [100, 200, 0] 3 1 = [0, 255, 0] ∧ ditherTwoBits [0, 255, 0] 3 1 = [0, 255, 0] := by
  have dithered : ditherTwoBits [100, 200, 0] 3 1 = [0, 255, 0] := by decide +kernel
  have again := (ditherTwoBits_bilevel 3 1 (by decide) [100, 200, 0] rfl).2.2.2
  rw [dithered] at again
  exact ⟨dithered, again⟩

/-- In every turn the value that is read and the error stay in bounds, for every image of values
between 0 and 255. -/
theorem ditherTwoBits_bounded (width height : ℕ) (wide : 2 ≤ width) (px : List ℚ)
    (size : px.length = width * height) (grey : ∀ value ∈ px, 0 ≤ value ∧ value ≤ 255) :
    ∀ x < width, ∀ y < height,
      (-127 ≤ oldPixel px width height x y ∧ oldPixel px width height x y ≤ 383) ∧
        -127 ≤ oldPixel px width height x y - newPixel (oldPixel px width height x y) ∧
        oldPixel px width height x y - newPixel (oldPixel px width height x y) ≤ 128 := by
  intro x inRow y inColumn
  rw [Nat.mul_comm] at size
  have begins : ∀ j < height * width, 0 ≤ values px j ∧ values px j ≤ 255 := by
    intro j inside
    rw [← size] at inside
    rw [values_of_lt inside]
    exact grey _ (List.getElem_mem inside)
  have bounds := sweep_mem_bounds (given_nonneg width px.length)
    (sum_given_le (by omega) px.length) (by norm_num) (by norm_num) newPixel_error begins
    (y * width + x) (index_lt inColumn inRow)
  rw [error] at bounds
  rw [oldPixel_eq_sweep (by omega) size inRow inColumn]
  norm_num at bounds ⊢
  exact bounds

/-- A light pixel after a dark one. -/
theorem ditherTwoBits_bounded_row :
    oldPixel [128, 255] 2 1 1 0 = 335 ∧ (335 : ℚ) ≤ 383 := by
  have read : oldPixel [128, 255] 2 1 1 0 = 335 := by decide +kernel
  have bounded := (ditherTwoBits_bounded 2 1 (by decide) [128, 255] rfl (by decide +kernel) 1
    (by decide) 0 (by decide)).1.2
  rw [read] at bounded
  exact ⟨read, bounded⟩

end CloudflareBlog.EPaper

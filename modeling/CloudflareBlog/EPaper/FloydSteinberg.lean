import CloudflareBlog.EPaper.Dither

/-!
# Dithering with borders

The weights and the coordinates of `ditherTwoBits` are those of Floyd and Steinberg, but it computes
an index from the coordinates without looking whether they are inside the image.  On the left border
`(x - 1, y + 1)` is the last pixel of the same row, and on the right one `(x + 1, y)` and
`(x + 1, y + 1)` are the first ones of the next two rows.  The reference drops the error there; both
agree, with no error at the opposite border, exactly for the images on which the pixels at the borders
have no error to give (`ditherTwoBits_follows_iff`).
-/

namespace CloudflareBlog.EPaper

open Lib.Buffer Lib.Diffusion Lib.Raster

/-! ## The reference -/

/-- Where the error of a pixel goes, in sixteenths. -/
def neighbours : List ((ℤ × ℤ) × ℚ) := [((1, 0), 7), ((-1, 1), 3), ((0, 1), 5), ((1, 1), 1)]

def Inside (width height : ℕ) (point : ℤ × ℤ) : Prop :=
  (0 ≤ point.1 ∧ point.1 < width) ∧ 0 ≤ point.2 ∧ point.2 < height

instance (width height : ℕ) (point : ℤ × ℤ) : Decidable (Inside width height point) :=
  inferInstanceAs (Decidable ((_ ∧ _) ∧ _ ∧ _))

/-- The weight of the error that a point gets from another one. -/
def share (source target : ℤ × ℤ) : ℚ :=
  (neighbours.map fun neighbour => if target = source + neighbour.1 then neighbour.2 else 0).sum

/-- A pixel is made black or white, and the points inside the image get their shares of the error. -/
def referencePixel (width height : ℕ) (image : ℤ × ℤ → ℚ) (point : ℤ × ℤ) : ℤ × ℤ → ℚ :=
  fun target =>
    (if target = point then newPixel (image point) else image target) +
      if Inside width height target
      then (image point - newPixel (image point)) / 16 * share point target else 0

def referenceUpTo (px : List ℚ) (width height count : ℕ) : ℤ × ℤ → ℚ :=
  ((raster width height).take count).foldl
    (fun image pixel => referencePixel width height image (pixel.1, pixel.2))
    fun point => values px (point.2.toNat * width + point.1.toNat)

def floydSteinberg (px : List Byte) (width height : ℕ) : List Byte :=
  (raster width height).map fun pixel => uint8Clamped
    (referenceUpTo (float32Array px) width height (width * height) (pixel.1, pixel.2))

def referenceError (px : List ℚ) (width height x y : ℕ) : ℚ :=
  let value := referenceUpTo px width height (y * width + x) (x, y)
  value - newPixel value

/-! ## The comparison -/

def written (width x y : ℕ) (offset : ℤ × ℤ) : ℤ := (y + offset.2) * width + (x + offset.1)

def turnError (px : List ℚ) (width height x y : ℕ) : ℚ :=
  oldPixel px width height x y - newPixel (oldPixel px width height x y)

/-- No pixel of the array gets error for a neighbour that is not in the row it is meant for. -/
def NoneWraps (px : List ℚ) (width height : ℕ) : Prop :=
  ∀ x < width, ∀ y < height, ∀ neighbour ∈ neighbours,
    ¬ (0 ≤ x + neighbour.1.1 ∧ x + neighbour.1.1 < width) →
    0 ≤ written width x y neighbour.1 → written width x y neighbour.1 < px.length →
    turnError px width height x y / 16 * neighbour.2 = 0

/-- The result is that of the reference, and no error crosses from one border to the other. -/
def FollowsReference (px : List Byte) (width height : ℕ) : Prop :=
  ditherTwoBits px width height = floydSteinberg px width height ∧
    NoneWraps (float32Array px) width height

/-- In the reference the pixels at the left border have no error, nor have those at the right one,
the last row apart. -/
def BordersExact (px : List ℚ) (width height : ℕ) : Prop :=
  ∀ y < height, referenceError px width height 0 y = 0 ∧
    (y + 1 < height → referenceError px width height (width - 1) y = 0)

/-! ## The reference in the array -/

variable {width height x y i j count : ℕ} {px : List ℚ}

def point (width i : ℕ) : ℤ × ℤ := ((i % width : ℕ), (i / width : ℕ))

/-- What the reference gives of the error of the pixel at `i` to the one at `j`. -/
def kept (width count i j : ℕ) : ℚ :=
  if j < count then share (point width i) (point width j) / 16 else 0

theorem point_index (inRow : x < width) : point width (y * width + x) = (↑x, ↑y) := by
  rw [point, mod_columns inRow, div_columns inRow]

theorem point_eq_iff : point width i = point width j ↔ i = j := by
  constructor
  · intro same
    simp only [point, Prod.mk.injEq, Nat.cast_inj] at same
    rw [← Nat.div_add_mod' i width, ← Nat.div_add_mod' j width, same.1, same.2]
  · rintro rfl
    rfl

theorem inside_point (wide : 1 ≤ width) (within : i < height * width) :
    Inside width height (point width i) := by
  have row : i / width < height := Nat.div_lt_of_lt_mul (by rwa [Nat.mul_comm] at within)
  have column : i % width < width := Nat.mod_lt _ wide
  simp only [Inside, point, Nat.cast_nonneg, Nat.cast_lt, true_and]
  exact ⟨column, row⟩

theorem referenceUpTo_succ (within : count < height * width) :
    referenceUpTo px width height (count + 1) =
      referencePixel width height (referenceUpTo px width height count) (point width count) := by
  have turn : (raster width height)[count]? = some (count % width, count / width) := by
    rw [raster_eq]
    simp [within]
  rw [referenceUpTo, referenceUpTo, List.take_add_one, turn, List.foldl_append]
  rfl

/-- On the points of the image, the reference is a diffusion with the weights that stay inside. -/
theorem referenceUpTo_eq_sweep (wide : 1 ≤ width) (size : px.length = height * width)
    (turns : count ≤ height * width) :
    ∀ j < height * width, referenceUpTo px width height count (point width j) =
      sweep newPixel (kept width px.length) (values px) count j := by
  induction count with
  | zero =>
    intro j _
    simp only [referenceUpTo, List.take_zero, List.foldl_nil, point, Int.toNat_natCast,
      Nat.div_add_mod', sweep]
  | succ count inductionHypothesis =>
    intro j within
    have before := inductionHypothesis (by omega)
    have here := before count (by omega)
    have there := before j within
    have inside : j < px.length := by omega
    rw [referenceUpTo_succ (by omega), sweep, diffuse, kept, if_pos inside]
    simp only [referencePixel, inside_point wide within, if_true, here, there, point_eq_iff]
    ring

/-! ## Errors at the borders -/

/-- Some error of the pixel goes to a pixel that is not in the row it is meant for. -/
def Border (width count i : ℕ) : Prop :=
  ∃ neighbour ∈ neighbours,
    ¬ (0 ≤ ((i % width : ℕ) : ℤ) + neighbour.1.1 ∧ ((i % width : ℕ) : ℤ) + neighbour.1.1 < width) ∧
      0 ≤ written width (i % width) (i / width) neighbour.1 ∧
      written width (i % width) (i / width) neighbour.1 < count

theorem border_index (inRow : x < width) :
    Border width count (y * width + x) ↔ ∃ neighbour ∈ neighbours,
      ¬ (0 ≤ (x : ℤ) + neighbour.1.1 ∧ (x : ℤ) + neighbour.1.1 < width) ∧
        0 ≤ written width x y neighbour.1 ∧ written width x y neighbour.1 < count := by
  rw [Border, mod_columns inRow, div_columns inRow]

theorem border_iff (wide : 2 ≤ width) (inRow : x < width) (inColumn : y < height) :
    Border width (height * width) (y * width + x) ↔ x = 0 ∨ x = width - 1 ∧ y + 1 < height := by
  rw [border_index inRow]
  have rows : ((y : ℤ) + 1) * width ≤ height * width := by
    exact_mod_cast Nat.mul_le_mul_right width inColumn
  have positive : 0 ≤ (y : ℤ) * width := by positivity
  constructor
  · rintro ⟨neighbour, among, outside, -, before⟩
    -- a write to the right of the last column is in the array only if there is a row below
    have bottom (right : ℤ) (edge : (x : ℤ) + 1 = width) (below : 0 ≤ right)
        (before : ((y : ℤ) + right) * width + (x + 1) < (height * width : ℕ)) : y + 1 < height := by
      by_contra last
      have same : (height : ℤ) = y + 1 := by omega
      push_cast at before
      rw [edge, same] at before
      nlinarith
    simp only [neighbours, List.mem_cons, List.not_mem_nil, or_false] at among
    obtain rfl | rfl | rfl | rfl := among
    · dsimp only at outside
      have edge : (x : ℤ) + 1 = width := by omega
      exact .inr ⟨by omega, bottom 0 edge (by decide) before⟩
    · dsimp only at outside
      exact .inl (by omega)
    · dsimp only at outside
      omega
    · dsimp only at outside
      have edge : (x : ℤ) + 1 = width := by omega
      exact .inr ⟨by omega, bottom 1 edge (by decide) before⟩
  · rintro (rfl | ⟨rfl, above⟩)
    · refine ⟨((-1, 1), 3), by simp [neighbours], by simp, ?_, ?_⟩
      · simp only [written]
        push_cast
        linarith
      · simp only [written]
        push_cast
        linarith
    · have more : ((y : ℤ) + 2) * width ≤ height * width := by
        exact_mod_cast Nat.mul_le_mul_right width above
      have edge : ((width - 1 : ℕ) : ℤ) + 1 = width := by omega
      refine ⟨((1, 0), 7), by simp [neighbours], fun inside => ?_, ?_, ?_⟩
      · exact absurd inside.2 (by rw [edge]; exact lt_irrefl _)
      · simp only [written, edge]
        linarith
      · simp only [written, edge]
        push_cast
        linarith

/-- An index is that of a neighbour when the point is, if the neighbour is in its row or its index is
outside of the array. -/
theorem eq_written_iff (wide : 1 ≤ width) (within : j < count) {offset : ℤ × ℤ}
    (inner : (0 ≤ ((i % width : ℕ) : ℤ) + offset.1 ∧ ((i % width : ℕ) : ℤ) + offset.1 < width) ∨
      ¬ (0 ≤ written width (i % width) (i / width) offset ∧
        written width (i % width) (i / width) offset < count)) :
    (j : ℤ) = written width (i % width) (i / width) offset ↔
      point width j = point width i + offset := by
  have place : (j : ℤ) = (j / width : ℕ) * width + (j % width : ℕ) := by
    exact_mod_cast (Nat.div_add_mod' j width).symm
  have column : j % width < width := Nat.mod_lt j wide
  constructor
  · intro here
    obtain ⟨low, high⟩ | outside := inner
    · -- two positions in their rows are the same when they differ by a number of rows
      rw [place, written] at here
      have columns : ((j % width : ℕ) : ℤ) - ((i % width : ℕ) + offset.1) = 0 := by
        apply Int.eq_zero_of_abs_lt_dvd (m := width)
        · exact ⟨(i / width : ℕ) + offset.2 - (j / width : ℕ), by linarith⟩
        · rw [abs_lt]
          omega
      have rows : (((j / width : ℕ) : ℤ) - ((i / width : ℕ) + offset.2)) * width = 0 := by linarith
      obtain rows | none := mul_eq_zero.mp rows
      · simp only [point, Prod.ext_iff, Prod.fst_add, Prod.snd_add]
        omega
      · omega
    · exact absurd ⟨by omega, by omega⟩ outside
  · intro here
    simp only [point, Prod.ext_iff, Prod.fst_add, Prod.snd_add] at here
    rw [place, here.1, here.2, written]

/-- The weights of a pixel that is not at a border are those of the reference. -/
theorem given_eq_kept (wide : 2 ≤ width) (inner : ¬ Border width count i) (j : ℕ) :
    given width count i j = kept width count i j := by
  unfold given kept
  split
  next within =>
    have place : (i : ℤ) = (i / width : ℕ) * width + (i % width : ℕ) := by
      exact_mod_cast (Nat.div_add_mod' i width).symm
    have matched : ∀ neighbour ∈ neighbours,
        ((j : ℤ) = written width (i % width) (i / width) neighbour.1 ↔
          point width j = point width i + neighbour.1) := by
      intro neighbour among
      refine eq_written_iff (by omega) within ?_
      by_contra apart
      rw [not_or, not_not] at apart
      exact inner ⟨neighbour, among, apart⟩
    simp only [neighbours, List.forall_mem_cons, List.not_mem_nil, false_implies, implies_true,
      and_true] at matched
    obtain ⟨right, belowLeft, below, belowRight⟩ := matched
    simp only [share, neighbours, List.map_cons, List.map_nil, List.sum_cons, List.sum_nil, ← right,
      ← belowLeft, ← below, ← belowRight]
    have toRight : (j : ℤ) = written width (i % width) (i / width) (1, 0) ↔ j = i + 1 := by
      rw [written, add_zero, ← add_assoc, ← place]
      omega
    have toBelowLeft :
        (j : ℤ) = written width (i % width) (i / width) (-1, 1) ↔ j + 1 = i + width := by
      have index : written width (i % width) (i / width) (-1, 1) = i + width - 1 := by
        rw [written]
        linarith
      omega
    have toBelow : (j : ℤ) = written width (i % width) (i / width) (0, 1) ↔ j = i + width := by
      have index : written width (i % width) (i / width) (0, 1) = i + width := by
        rw [written]
        linarith
      omega
    have toBelowRight :
        (j : ℤ) = written width (i % width) (i / width) (1, 1) ↔ j = i + width + 1 := by
      have index : written width (i % width) (i / width) (1, 1) = i + width + 1 := by
        rw [written]
        linarith
      omega
    simp only [toRight, toBelowLeft, toBelow, toBelowRight, add_zero, add_div, ite_div, zero_div]
    ring
  next => rfl

/-! ## The condition -/

theorem turnError_eq (wide : 1 ≤ width) (size : px.length = height * width) (inRow : x < width)
    (inColumn : y < height) : turnError px width height x y =
      error newPixel (given width px.length) (values px) (y * width + x) := by
  rw [turnError, oldPixel_eq_sweep wide size inRow inColumn, error]

theorem referenceError_eq (wide : 1 ≤ width) (size : px.length = height * width) (inRow : x < width)
    (inColumn : y < height) : referenceError px width height x y =
      error newPixel (kept width px.length) (values px) (y * width + x) := by
  have inside := index_lt inColumn inRow
  rw [referenceError, ← point_index inRow, referenceUpTo_eq_sweep wide size inside.le _ inside, error]

theorem forall_index_iff (wide : 1 ≤ width) {property : ℕ → Prop} :
    (∀ i < height * width, property i) ↔ ∀ y < height, ∀ x < width, property (y * width + x) := by
  constructor
  · intro all y inColumn x inRow
    exact all _ (index_lt inColumn inRow)
  · intro all i within
    have row : i / width < height := Nat.div_lt_of_lt_mul (by rwa [Nat.mul_comm] at within)
    have here := all (i / width) row (i % width) (Nat.mod_lt i wide)
    rwa [Nat.div_add_mod'] at here

theorem noneWraps_iff (wide : 2 ≤ width) (size : px.length = height * width) :
    NoneWraps px width height ↔ ∀ i < px.length, Border width px.length i →
      error newPixel (given width px.length) (values px) i = 0 := by
  rw [size, forall_index_iff (by omega), NoneWraps, ← size]
  constructor
  · intro none y inColumn x inRow border
    obtain ⟨neighbour, among, outside, low, high⟩ := (border_index inRow).mp border
    have nothing := none x inRow y inColumn neighbour among outside low high
    rw [turnError_eq (by omega) size inRow inColumn] at nothing
    have weighs : neighbour.2 ≠ 0 := by
      simp only [neighbours, List.mem_cons, List.not_mem_nil, or_false] at among
      obtain rfl | rfl | rfl | rfl := among <;> norm_num
    simpa [weighs] using nothing
  · intro exact x inRow y inColumn neighbour among outside low high
    have border : Border width px.length (y * width + x) :=
      (border_index inRow).mpr ⟨neighbour, among, outside, low, high⟩
    rw [turnError_eq (by omega) size inRow inColumn, exact y inColumn x inRow border, zero_div,
      zero_mul]

theorem bordersExact_iff (wide : 2 ≤ width) (size : px.length = height * width) :
    BordersExact px width height ↔ ∀ i < px.length, Border width px.length i →
      error newPixel (kept width px.length) (values px) i = 0 := by
  rw [size, forall_index_iff (by omega), BordersExact]
  constructor
  · intro exact y inColumn x inRow border
    rw [← size, ← referenceError_eq (by omega) size inRow inColumn]
    obtain rfl | ⟨rfl, above⟩ := (border_iff wide inRow inColumn).mp border
    · exact (exact y inColumn).1
    · exact (exact y inColumn).2 above
  · intro exact y inColumn
    rw [← size] at exact
    have first : 0 < width := by omega
    have last : width - 1 < width := by omega
    rw [referenceError_eq (by omega) size first inColumn,
      referenceError_eq (by omega) size last inColumn]
    rw [size] at exact ⊢
    exact ⟨exact y inColumn 0 first ((border_iff wide first inColumn).mpr (.inl rfl)),
      fun above => exact y inColumn _ last ((border_iff wide last inColumn).mpr (.inr ⟨rfl, above⟩))⟩

theorem ditherTwoBits_eq_of_sweep {px : List Byte} (wide : 1 ≤ width)
    (size : (float32Array px).length = height * width)
    (same : sweep newPixel (given width (float32Array px).length) (values (float32Array px))
        (height * width) =
      sweep newPixel (kept width (float32Array px).length) (values (float32Array px))
        (height * width)) :
    ditherTwoBits px width height = floydSteinberg px width height := by
  have row := (dither_eq_sweep wide size).trans same
  have lengths := length_dither wide size
  apply List.ext_getElem
  · rw [ditherTwoBits, List.length_map, lengths, size, floydSteinberg, List.length_map, raster_eq,
      List.length_map, List.length_range]
  · intro i inside _
    rw [ditherTwoBits, List.length_map, lengths, size] at inside
    have here := congrFun row i
    rw [← referenceUpTo_eq_sweep wide size le_rfl i inside, values_of_lt (by omega)] at here
    simp only [ditherTwoBits, floydSteinberg, raster_eq, List.getElem_map, List.getElem_range, here,
      Nat.mul_comm width height]
    rfl

/-- For every image whose rows have at least two pixels: the result is that of the reference and no
error crosses from border to border exactly when the pixels at the borders have none in the
reference. -/
theorem ditherTwoBits_follows_iff (width height : ℕ) (wide : 2 ≤ width) (px : List Byte)
    (size : px.length = width * height) :
    FollowsReference px width height ↔ BordersExact (float32Array px) width height := by
  have sizeValues : (float32Array px).length = height * width := by
    rw [float32Array, List.length_map, size, Nat.mul_comm]
  rw [FollowsReference, noneWraps_iff wide sizeValues, bordersExact_iff wide sizeValues]
  have agree : ∀ i, ¬ Border width (float32Array px).length i → ∀ j,
      given width (float32Array px).length i j = kept width (float32Array px).length i j :=
    fun i => given_eq_kept wide
  constructor
  · rintro ⟨-, exact⟩ i within border
    rw [error, ← sweep_congr_of_exact agree exact within.le]
    exact exact i within border
  · intro exact
    have sweeps (count : ℕ) (turns : count ≤ (float32Array px).length) :=
      sweep_congr_of_exact (fun i inner j => (agree i inner j).symm) exact turns
    refine ⟨ditherTwoBits_eq_of_sweep (by omega) sizeValues (sweeps _ sizeValues.ge).symm, ?_⟩
    intro i within border
    rw [error, ← sweeps i within.le]
    exact exact i within border

/-- A grey pixel between two black ones. -/
theorem ditherTwoBits_follows_iff_row : FollowsReference [0, 60, 0] 3 1 := by
  refine (ditherTwoBits_follows_iff 3 1 (by decide) [0, 60, 0] rfl).mpr ?_
  unfold BordersExact
  decide +kernel

/-- The first pixel of two gives its error to the second one twice. -/
theorem ditherTwoBits_not_follows : ¬ FollowsReference [128, 60] 2 1 := by
  have dithered : ditherTwoBits [128, 60] 2 1 = [0, 255] := by decide +kernel
  have reference : floydSteinberg [128, 60] 2 1 = [0, 0] := by decide +kernel
  rintro ⟨same, -⟩
  rw [dithered, reference] at same
  exact absurd same (by decide)

end CloudflareBlog.EPaper

import CloudflareBlog.Lib.Buffer
import CloudflareBlog.Lib.Driven
import Mathlib.Data.List.Basic

/-!
# The e-paper display and its worker

The display asks the worker for a picture once a minute and names the tag of the one it has; the
worker answers 304 when that is the tag of its picture, else 200 with the tag and a bitmap.  The
client stores the tag of every 200, but shows a bitmap only when it came whole: after a 200 whose
body was cut short the tag names a picture that is not on the display, and every later 304 leaves it
so.  In exactly the runs without such a body the tag is that of the picture on the display
(`coherent_iff`).
-/

namespace CloudflareBlog.EPaper

open Lib.Buffer Lib.Driven

/-! ## The worker -/

def width : Nat := 480

def height : Nat := 800

/-- What the worker does with a picture in the arithmetic of the platform: the SHA-1 digest, and the
decoding, greying and dithering that leave one byte a pixel. -/
structure Render (Image : Type) where
  digest : Image → Vector Byte 20
  dithered : Image → Vector Byte (width * height)

/-- `b.toString(16).padStart(2, '0')`. -/
def hexByte (b : Byte) : List Char := (Nat.toDigits 16 b.toNat).leftpad 2 '0'

/-- The digits of a digest, joined. -/
def genMd5 (digest : Vector Byte 20) : String := String.ofList (digest.toList.flatMap hexByte)

/-- The pixels in the order of the two loops of `encodeBinary`. -/
def scan (width height : Nat) : List (Nat × Nat) :=
  (List.range width).reverse.flatMap fun x => (List.range height).map fun y => (x, y)

/-- `out[Math.floor(s / 8)] |= (raw[y * width + x] ? (1 << (7 - (s % 8))) : 0)`. -/
def encodePixel (raw : List Byte) (width : Nat) (out : List Byte) (pixel : (Nat × Nat) × Nat) :
    List Byte :=
  let ((x, y), s) := pixel
  out.modify (s / 8) (· ||| if raw.getD (y * width + x) 0 ≠ 0 then 1 <<< (7 - s % 8) else 0)

def encodeBinary (raw : List Byte) (width height : Nat) : List Byte :=
  (scan width height).zipIdx.foldl (encodePixel raw width) (List.replicate (raw.length / 8) 0)

inductive Response where
  /-- `new Response(null, {status:304})`. -/
  | notModified
  /-- Status 200, the `ETag` header and the body. -/
  | ok (etag : String) (body : List Byte)
  deriving DecidableEq, Repr

section Worker

variable {Image : Type} (render : Render Image)

def tag (image : Image) : String := genMd5 (render.digest image)

/-- `fetch` with `binary=1`, for the picture that the worker has. -/
def fetch (image : Image) (ifNoneMatch : String) : Response :=
  if ifNoneMatch = tag render image then .notModified
  else .ok (tag render image) (encodeBinary (render.dithered image).toList width height)

end Worker

/-! ## The client -/

def refreshFreqMs : BitVec 32 := 60 * 1000

/-- `800 * 480 / 8`. -/
def payloadSize : Nat := 800 * 480 / 8

/-- What the client keeps, and what it did to the display. -/
structure Client (Image : Type) where
  refreshTsMs : BitVec 32
  etag : String
  /-- The bytes that the display got, none before it got any. -/
  display : List Byte
  /-- The picture they are of. -/
  shown : Option Image

def initialEtag : String := "00000000"

/-- The client after `setup`. -/
def start {Image : Type} : Client Image := ⟨0, initialEtag, [], none⟩

/-- What comes of `http.GET()`. -/
inductive Exchange (Image : Type) where
  /-- A negative code. -/
  | failed
  /-- A status that is neither 200 nor 304. -/
  | refused
  /-- The worker answers for the picture that it has, and this many bytes of a body arrive. -/
  | answered (image : Image) (arrived : Nat)

/-- What a call of `loop` finds. -/
structure Input (Image : Type) where
  /-- `millis()` in the condition, and in the assignment. -/
  millis : BitVec 32
  refreshed : BitVec 32
  /-- `WiFi.status() == WL_CONNECTED`. -/
  connected : Bool
  exchange : Exchange Image

section Client

variable {Image : Type} (render : Render Image)

/-- The fetch: the payload, the tag, and the picture that the payload is of. -/
def refresh (etag : String) : Exchange Image → List Byte × String × Option Image
  | .failed => ([], etag, none)
  | .refused => ([], etag, none)
  | .answered image arrived =>
    match fetch render image etag with
    | .notModified => ([], etag, none)
    | .ok newEtag body => (body.take arrived, newEtag, some image)

/-- A payload for the display is shown, inverted, when it is long enough. -/
def draw (s : Client Image) (payload : List Byte) (of : Option Image) : Client Image :=
  if payloadSize ≤ payload.length then
    { s with display := (payload.take payloadSize).map (~~~ ·), shown := of }
  else s

/-- The condition of the refresh. -/
def due (s : Client Image) (input : Input Image) : Bool :=
  input.millis - s.refreshTsMs > refreshFreqMs ∨ s.refreshTsMs = 0

def loop (s : Client Image) (input : Input Image) : Client Image :=
  if due s input then
    let (payload, etag, of) :=
      if input.connected then refresh render s.etag input.exchange else ([], s.etag, none)
    draw { s with refreshTsMs := input.refreshed, etag := etag } payload of
  else s

end Client

/-! ## Tags and bitmaps -/

theorem length_hexByte (b : Byte) : (hexByte b).length = 2 := by
  revert b
  decide +kernel

theorem length_genMd5 (digest : Vector Byte 20) : (genMd5 digest).length = 40 := by
  rw [genMd5, String.length_ofList, List.length_flatMap]
  simp [length_hexByte]

section Worker

variable {Image : Type} (render : Render Image) (image : Image)

theorem tag_ne_initialEtag : tag render image ≠ initialEtag := by
  intro same
  have lengths : (tag render image).length = initialEtag.length := congrArg String.length same
  rw [tag, length_genMd5] at lengths
  exact absurd lengths (by decide)

theorem fetch_eq_notModified_iff {ifNoneMatch : String} :
    fetch render image ifNoneMatch = .notModified ↔ ifNoneMatch = tag render image := by
  unfold fetch
  split
  next same => exact iff_of_true rfl same
  next other => exact iff_of_false nofun other

theorem length_encodeBinary (raw : List Byte) (width height : Nat) :
    (encodeBinary raw width height).length = raw.length / 8 := by
  unfold encodeBinary
  generalize (scan width height).zipIdx = pixels
  have kept (out : List Byte) :
      (pixels.foldl (encodePixel raw width) out).length = out.length := by
    induction pixels generalizing out with
    | nil => rfl
    | cons pixel rest ih => rw [List.foldl_cons, ih, encodePixel, List.length_modify]
  rw [kept, List.length_replicate]

def bitmap : List Byte := encodeBinary (render.dithered image).toList width height

theorem length_bitmap : (bitmap render image).length = payloadSize := by
  rw [bitmap, length_encodeBinary, Vector.length_toList]
  rfl

end Worker

/-! ## Coherence -/

section Coherence

variable {Image : Type} (render : Render Image)

/-- The 200 of an iteration: the picture, and how much of its body arrived. -/
def served (s : Client Image) (input : Input Image) : Option (Image × Nat) :=
  match input.exchange with
  | .answered image arrived =>
    if due s input ∧ input.connected ∧ s.etag ≠ tag render image then some (image, arrived) else none
  | _ => none

theorem loop_of_not_served {s : Client Image} {input : Input Image}
    (nothing : served render s input = none) :
    (loop render s input).etag = s.etag ∧ (loop render s input).display = s.display ∧
      (loop render s input).shown = s.shown := by
  unfold loop
  unfold served at nothing
  by_cases now : due s input
  · by_cases connected : input.connected
    · cases came : input.exchange with
      | failed => simp [now, connected, refresh, draw, payloadSize]
      | refused => simp [now, connected, refresh, draw, payloadSize]
      | answered image arrived =>
        have same : s.etag = tag render image := by simpa [came, now, connected] using nothing
        have cached := (fetch_eq_notModified_iff render image).mpr same
        simp [now, connected, refresh, cached, draw, payloadSize]
    · simp [now, connected, draw, payloadSize]
  · simp [now]

/-- What arrived of a body of the right length is drawn when nothing of it is missing. -/
theorem draw_take {body : List Byte} (whole : body.length = payloadSize) (s : Client Image)
    (arrived : Nat) (of : Option Image) :
    draw s (body.take arrived) of =
      if payloadSize ≤ arrived then { s with display := body.map (~~~ ·), shown := of } else s := by
  rw [draw, List.length_take, whole]
  by_cases long : payloadSize ≤ arrived
  · have all : body.take arrived = body := List.take_of_length_le (by omega)
    have first : body.take payloadSize = body := List.take_of_length_le (Nat.le_of_eq whole)
    rw [if_pos (Nat.le_min.mpr ⟨long, Nat.le_refl _⟩), if_pos long, all, first]
  · rw [if_neg (fun reaches => long (Nat.le_min.mp reaches).1), if_neg long]

/-- After a 200 the tag is new, and the picture is when the body is long enough. -/
theorem loop_of_served {s : Client Image} {input : Input Image} {image : Image} {arrived : Nat}
    (answer : served render s input = some (image, arrived)) :
    s.etag ≠ tag render image ∧ (loop render s input).etag = tag render image ∧
      (loop render s input).display =
        (if payloadSize ≤ arrived then (bitmap render image).map (~~~ ·) else s.display) ∧
      (loop render s input).shown = if payloadSize ≤ arrived then some image else s.shown := by
  unfold served at answer
  cases came : input.exchange with
  | failed => simp [came] at answer
  | refused => simp [came] at answer
  | answered current delivered =>
    simp only [came, Option.ite_none_right_eq_some, Option.some.injEq, Prod.mk.injEq] at answer
    obtain ⟨⟨now, connected, other⟩, rfl, rfl⟩ := answer
    have body : fetch render current s.etag = .ok (tag render current) (bitmap render current) := by
      rw [fetch, if_neg other, bitmap]
    have whole : (bitmap render current).length = payloadSize := length_bitmap render current
    have turned : loop render s input =
        draw { s with refreshTsMs := input.refreshed, etag := tag render current }
          ((bitmap render current).take delivered) (some current) := by
      simp [loop, now, connected, came, refresh, body]
    rw [turned, draw_take whole]
    -- the tag is taken over before the length of the body is looked at
    by_cases long : payloadSize ≤ delivered
    · simp only [long, if_true, and_true]
      exact other
    · simp only [long, if_false, and_true]
      exact other

/-- The tag is the initial one, or that of the picture last shown; so a 304 suppresses no picture whose
tag is not that of the one on the display. -/
def Coherent (s : Client Image) : Prop :=
  (s.etag = initialEtag ∨ ∃ image, s.shown = some image ∧ s.etag = tag render image) ∧
    (∀ image, s.shown = some image → s.display = (bitmap render image).map (~~~ ·)) ∧
    ∀ image, fetch render image s.etag = .notModified →
      ∃ shown, s.shown = some shown ∧ tag render shown = tag render image

/-- Every 200 brings its whole body. -/
def Delivers (s : Client Image) (input : Input Image) : Prop :=
  ∀ image arrived, served render s input = some (image, arrived) → payloadSize ≤ arrived

/-- The tag and the display change together. -/
def Fresh (s : Client Image) : Prop :=
  (s.etag = initialEtag ∧ s.shown = none) ∨
    ∃ image, s.shown = some image ∧ s.etag = tag render image ∧
      s.display = (bitmap render image).map (~~~ ·)

variable {render : Render Image} {s : Client Image} {input : Input Image}

theorem Fresh.coherent (fresh : Fresh render s) : Coherent render s := by
  refine ⟨?_, ?_, ?_⟩
  · rcases fresh with ⟨initial, -⟩ | ⟨image, shown, same, -⟩
    · exact Or.inl initial
    · exact Or.inr ⟨image, shown, same⟩
  · intro image shown
    rcases fresh with ⟨-, blank⟩ | ⟨current, drawn, -, display⟩
    · cases blank.symm.trans shown
    · obtain rfl := Option.some.inj (drawn.symm.trans shown)
      exact display
  · intro image cached
    have same := (fetch_eq_notModified_iff render image).mp cached
    rcases fresh with ⟨initial, -⟩ | ⟨current, drawn, held, -⟩
    · exact absurd (same.symm.trans initial) (tag_ne_initialEtag render image)
    · exact ⟨current, drawn, held.symm.trans same⟩

/-- Another iteration changes the tag and the display together, or neither. -/
theorem Fresh.loop (fresh : Fresh render s) (delivers : Delivers render s input) :
    Fresh render (loop render s input) := by
  cases answer : served render s input with
  | none =>
    obtain ⟨etag, display, shown⟩ := loop_of_not_served render answer
    unfold Fresh
    rw [etag, display, shown]
    exact fresh
  | some served =>
    obtain ⟨-, etag, display, shown⟩ := loop_of_served render answer
    have long : payloadSize ≤ served.2 := delivers _ _ answer
    rw [if_pos long] at display shown
    exact Or.inr ⟨served.1, shown, etag, display⟩

/-- A body cut short leaves the tag of a picture that is not shown. -/
theorem Fresh.diverges (fresh : Fresh render s) (short : ¬ Delivers render s input) :
    ¬ Coherent render (EPaper.loop render s input) := by
  simp only [Delivers, not_forall] at short
  obtain ⟨image, arrived, answer, short⟩ := short
  obtain ⟨other, etag, -, shown⟩ := loop_of_served render answer
  rw [if_neg short] at shown
  rintro ⟨initial | ⟨current, drawn, same⟩, -⟩
  · exact tag_ne_initialEtag render image (etag.symm.trans initial)
  · rcases fresh with ⟨-, blank⟩ | ⟨held, before, tagged, -⟩
    · cases blank.symm.trans (shown.symm.trans drawn)
    · obtain rfl := Option.some.inj (before.symm.trans (shown.symm.trans drawn))
      exact other (tagged.trans (same.symm.trans etag))

variable (render)

/-- The iterations of the client, whatever picture the worker has in each. -/
def step (s : Client Image) (input : Input Image) : Option (Client Image) := some (loop render s input)

/-- The tag stays that of the picture on the display in exactly the runs whose 200s bring their whole
bodies. -/
theorem coherent_iff (inputs : List (Input Image)) :
    Always (step render) (Coherent render) start inputs ↔
      EachStep (step render) (Delivers render) start inputs := by
  refine always_iff_eachStep (fun _ => Fresh.coherent) ?_ ?_ (Or.inl ⟨rfl, rfl⟩)
  · intro s input t fresh delivers stepped
    obtain rfl := Option.some.inj stepped
    exact fresh.loop delivers
  · intro s input t fresh short stepped
    obtain rfl := Option.some.inj stepped
    exact fresh.diverges short

/-- When nothing of the body of the first picture arrives, its tag is stored all the same, and the worker
answers 304 for it to a client that shows nothing. -/
theorem suppressed (image : Image) :
    (loop render start ⟨1, 1, true, .answered image 0⟩).shown = none ∧
      fetch render image (loop render start ⟨1, 1, true, .answered image 0⟩).etag = .notModified := by
  have answer : served render start ⟨1, 1, true, .answered image 0⟩ = some (image, 0) := by
    have other : initialEtag ≠ tag render image := (tag_ne_initialEtag render image).symm
    simp [served, due, start, other]
  obtain ⟨-, etag, -, shown⟩ := loop_of_served render answer
  exact ⟨shown, (fetch_eq_notModified_iff render image).mpr etag⟩

/-- A worker with one white picture, whose digest is zero. -/
def white : Render Unit := ⟨fun _ => .replicate 20 0, fun _ => .replicate _ 255⟩

theorem not_coherent :
    ¬ ∀ inputs, Always (step white) (Coherent white) start inputs := by
  intro always
  have after := ((always [⟨1, 1, true, .answered () 0⟩]).2 _ rfl).head
  obtain ⟨blank, cached⟩ := suppressed white ()
  obtain ⟨shown, drawn, -⟩ := after.2.2 () cached
  cases blank.symm.trans drawn

end Coherence

end CloudflareBlog.EPaper

import CloudflareBlog.Gadget.Fill

/-!
# The benchmarks for x86-64

`blob_fill_code` as it is compiled for x86-64, one definition for each type.  `alignment` and
`cycle_count` are integers: as long as the code fits the blob, no product of them overflows an `int`.
-/

namespace CloudflareBlog.Gadget.X86

open CloudflareBlog.Lib.Buffer CloudflareBlog.Lib.Memory

def assumedSz : Nat := 2 * 1024 * 1024

/-- `for (; j < alignment; j++) PUT(0x90)`. -/
def pad (alignment j : Int) (blob : Blob) : Blob := (forLoop j alignment 1 (fun _ => put 0x90) blob).2

/-- The loop over `cycle_count` around the cells. -/
def cells (cycleCount : Int) (cell : Blob → Blob) (blob : Blob) : Blob :=
  (forLoop 0 cycleCount 1 (fun _ => cell) blob).2

def callDedicatedRet (alignment cycleCount : Int) (blob : Blob) : Blob :=
  let alignment := if alignment < 5 then 5 else alignment
  blob |> putN 0x90 (63 - 5) |> put 0xc3 |> setFn
    |> put 0xe9 |> putQ (alignment * cycleCount)
    |> cells cycleCount (fun blob => blob |> put 0xc3 |> pad alignment 1)
    |> cells cycleCount (fun blob =>
      let (j, blob) := forLoop 0 1 5
        (fun _ blob => blob |> put 0xe8 |> putQ (-alignment * cycleCount - 5)) blob
      pad alignment j blob)
    |> setRet |> put 0xc3

def forwardCallWithoutRet (alignment cycleCount : Int) (blob : Blob) : Blob :=
  blob |> putN 0x90 63 |> put 0xc3 |> setFn
    |> cells cycleCount (fun blob =>
      let (j, blob) := forLoop 0 1 5
        (fun _ blob => blob |> put 0xe8 |> putQ (if alignment < 9 then 0 else alignment - 9)) blob
      blob |> pad (alignment - 4) j |> put 0x48 |> put 0x83 |> put 0xc4 |> put 0x08)
    |> setRet |> put 0xc3

/-- A cell of `call_shared_ret`.  `p` has moved past the opcode when the displacement is computed. -/
def sharedCell (alignment : Int) (blob : Blob) : Blob :=
  let (j, blob) := forLoop 0 1 5
    (fun _ blob =>
      let blob := put 0xe8 blob
      putQ (-(blob.code.length + 5 - blob.ptrFn) - 1) blob) blob
  pad alignment j blob

def callSharedRet (alignment cycleCount : Int) (blob : Blob) : Blob :=
  blob |> putN 0x90 62 |> put 0xc3 |> put 0x90 |> setFn
    |> cells cycleCount (sharedCell alignment)
    |> setRet |> put 0xc3

/-- `mov ecx, 1` and `dec ecx`. -/
def movMovOp : List Byte := [0xb9, 0x01, 0x00, 0x00, 0x00, 0xff, 0xc9]

/-- The conditional jumps: their opcode and their displacement. -/
def conditionalJumps (opcode direction alignment cycleCount : Int) (blob : Blob) : Blob :=
  blob |> putN 0x90 (63 - 7) |> put 0xc3 |> setFn |> putSeq movMovOp
    |> cells cycleCount (fun blob =>
      let (j, blob) := forLoop 0 2 2 (fun _ blob => blob |> put opcode |> put direction) blob
      pad alignment j blob)
    |> setRet |> put 0xc3

def jneNeverTaken (type : String) (alignment cycleCount : Int) : Blob → Blob :=
  let direction := 0xfe
  let direction :=
    if type = "jne_never_taken_backward" then direction - alignment else direction
  let direction :=
    if type = "jne_never_taken_forward" then direction + (alignment + 1) else direction
  conditionalJumps 0x75 direction alignment cycleCount

def jeAlwaysTaken (alignment cycleCount : Int) : Blob → Blob :=
  conditionalJumps 0x74 (0xfe + alignment) alignment cycleCount

def jmpWeaved (alignment cycleCount : Int) (blob : Blob) : Blob :=
  let blob := blob |> putN 0x90 63 |> put 0xc3 |> setFn
    |> cells cycleCount (fun blob =>
      let (j, blob) := forLoop 0 (if alignment ≥ 4 then 4 else 2) 2
        (fun _ blob => blob |> put 0xeb |> put (alignment - 2)) blob
      pad alignment j blob)
    |> setRet
  (forLoop 0 4 2 (fun _ blob => blob |> put 0xc3 |> put 0x90) blob).2

/-- `jmp` and `inc`: two bytes a cell. -/
def plainCells (first second alignment cycleCount : Int) (blob : Blob) : Blob :=
  blob |> putN 0x90 63 |> put 0xc3 |> setFn
    |> cells cycleCount (fun blob => blob |> put first |> put second |> pad alignment 2)
    |> setRet |> put 0xc3

def jmp (alignment cycleCount : Int) : Blob → Blob :=
  let alignment := if alignment < 2 then 2 else alignment
  plainCells 0xeb (alignment - 2) alignment cycleCount

def inc (alignment cycleCount : Int) : Blob → Blob := plainCells 0xff 0xc9 alignment cycleCount

/-- What `blob_fill_code` puts for a type. -/
def fillType (alignment cycleCount : Int) (type : String) : Blob → Blob :=
  if type = "call_dedicated_ret" then callDedicatedRet alignment cycleCount
  else if type = "forward_call_without_ret" then forwardCallWithoutRet alignment cycleCount
  else if type = "call_shared_ret" then callSharedRet alignment cycleCount
  else if type = "jne_never_taken" ∨ type = "jne_never_taken_forward" ∨
      type = "jne_never_taken_backward" then jneNeverTaken type alignment cycleCount
  else if type = "je_always_taken" then jeAlwaysTaken alignment cycleCount
  else if type = "jmp_weaved" then jmpWeaved alignment cycleCount
  else if type = "jmp" then jmp alignment cycleCount
  else if type = "inc" then inc alignment cycleCount
  else id

/-- `blob_fill_code`.  A type that puts nothing is an error. -/
def blobFillCode (alignment cycleCount : Int) (type : String) : Option Blob :=
  let blob := fillType alignment cycleCount type Blob.empty
  if blob.code.isEmpty then none else some blob

theorem fillType_of_filled {alignment cycleCount : Int} {type : String} {blob : Blob}
    (filled : blobFillCode alignment cycleCount type = some blob) :
    fillType alignment cycleCount type Blob.empty = blob := by
  rw [blobFillCode, Option.ite_none_left_eq_some] at filled
  exact Option.some.inj filled.2

/-- The address that `blob_warm_icache` calls: in the blob itself, or in its shadow. -/
def blobWarmIcache (ptr ptrShadow : Address) (blob : Blob) (alignment : Int) (type : String) :
    Option Address :=
  if type = "jmp_weaved" then
    if alignment < 4 then none else some (position ptr blob.ptrFn + 2)
  else some (position ptrShadow blob.ptrFn)

/-! ## What the cells come to -/

@[simp] theorem pad_eq (alignment j : Int) (blob : Blob) :
    pad alignment j blob = blob.extend (List.replicate (alignment - j).toNat 0x90) [] := by
  rw [pad, forLoop_extend (by decide) fun _ blob => put_eq blob 0x90]
  simp [flatMap_range_const]

/-- Cells that are as long as each other extend the blob by one after the other.  A cell may look at
how far `p` is. -/
theorem cells_eq {cell : Blob → Blob} {bytes : Nat → List Byte} {size : Nat} (blob : Blob)
    (sized : ∀ i, (bytes i).length = size)
    (turn : ∀ i reached, reached.code.length = blob.code.length + i * size →
      reached.ptrFn = blob.ptrFn → cell reached = reached.extend (bytes i) []) (count : Nat) :
    cells count cell blob = blob.extend ((List.range count).flatMap bytes) [] := by
  have length (k : Nat) : ((List.range k).flatMap bytes).length = k * size :=
    length_flatMap_range k fun i _ => sized i
  have looped := @forLoop_rule 0 count 1 (fun _ => cell) blob (by decide)
    (fun k reached => reached = blob.extend ((List.range k).flatMap bytes) [])
    (fun k reached _ same => by
      have here : cell reached = reached.extend (bytes k) [] :=
        turn k reached (by rw [same, code_extend, List.length_append, length]) (by rw [same]; rfl)
      rw [here, same, extend_extend, List.range_succ, List.flatMap_append, List.flatMap_singleton,
        List.append_nil])
    (extend_nil blob).symm
  rw [turns_one, Int.sub_zero, Int.toNat_natCast] at looped
  exact looped.1

@[simp] theorem cells_extend (count : Nat) (bytes : List Byte) (blob : Blob) :
    cells count (fun blob => blob.extend bytes []) blob =
      blob.extend ((List.range count).flatMap fun _ => bytes) [] :=
  cells_eq blob (fun _ => rfl) (fun _ _ _ _ => rfl) count

end CloudflareBlog.Gadget.X86

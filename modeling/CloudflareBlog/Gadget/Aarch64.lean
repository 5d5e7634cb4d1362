import CloudflareBlog.Gadget.Fill

/-!
# The benchmarks for aarch64

`blob_fill_code` as it is compiled for aarch64, one definition for each type.  Divisions are those
of C, which round toward zero.
-/

namespace CloudflareBlog.Gadget.Aarch64

open CloudflareBlog.Lib.Buffer CloudflareBlog.Lib.Memory

def assumedSz : Nat := 512 * 1024 * 1024

def nopOp : List Byte := [0xd5, 0x03, 0x20, 0x1f]

def retOp : List Byte := [0xc0, 0x03, 0x5f, 0xd6]

def stpX30 : List Byte := [0xfd, 0x7b, 0xbf, 0xa9]

def ldpX30 : List Byte := [0xfd, 0x7b, 0xc1, 0xa8]

/-- `mov w0, #0x2` and `cmp w0, #0xb`. -/
def movCmp : List Byte := [0x40, 0x00, 0x80, 0x52, 0x1f, 0x2c, 0x00, 0x71]

/-- `PUTSEQ(nop_op, 4)`. -/
def putNop (blob : Blob) : Blob :=
  { putSeq nopOp blob with padding := blob.padding ++ [nopOp] }

/-- `for (i = 0; i < n; i++) PUTSEQ(nop_op, 4)`. -/
def nops (n : Int) (blob : Blob) : Blob := (forLoop 0 n 1 (fun _ => putNop) blob).2

/-- `for (; j < alignment; j += 4) PUTSEQ(nop_op, 4)`. -/
def pad (alignment j : Int) (blob : Blob) : Blob := (forLoop j alignment 4 (fun _ => putNop) blob).2

/-- The loop over `cycle_count` around the cells. -/
def cells (cycleCount : Int) (cell : Int → Blob → Blob) (blob : Blob) : Blob :=
  (forLoop 0 cycleCount 1 cell blob).2

/-- `if (alignment < 4) alignment = 4`. -/
def clamp (alignment : Int) : Int := if alignment < 4 then 4 else alignment

def callDedicatedRet (alignment cycleCount : Int) (blob : Blob) : Blob :=
  let alignment := clamp alignment
  blob |> nops 5 |> putSeq retOp |> setFn
    |> putSeq stpX30
    |> putQ3 (Int.tdiv (4 + alignment * cycleCount) 4) |> put 0x14
    |> cells cycleCount (fun _ blob => blob |> putSeq retOp |> pad alignment 4)
    |> cells cycleCount (fun _ blob =>
      blob |> putQ3 (Int.tdiv (-alignment * cycleCount) 4) |> put 0x97 |> pad alignment 4)
    |> putSeq ldpX30 |> setRet |> putSeq retOp

def callSharedRet (alignment cycleCount : Int) (blob : Blob) : Blob :=
  let alignment := clamp alignment
  blob |> nops 6 |> putSeq retOp |> setFn
    |> putSeq stpX30
    |> cells cycleCount (fun i blob =>
      blob |> putQ3 (Int.tdiv (-(8 + i * alignment)) 4) |> put 0x97 |> pad alignment 4)
    |> putSeq ldpX30 |> setRet |> putSeq retOp

/-- The conditional branches: their displacement in words and their condition. -/
def conditionalBranches (x : BitVec 32) (cond : BitVec 32) (alignment cycleCount : Int)
    (blob : Blob) : Blob :=
  blob |> nops 6 |> putSeq retOp |> setFn
    |> putSeq movCmp
    |> cells cycleCount (fun _ blob =>
      blob |> put ((x &&& 0x7) <<< 5 ||| cond).toNat |> put (x >>> 3).toNat
        |> put (x >>> 11).toNat |> put 0x54 |> pad alignment 4)
    |> setRet |> putSeq retOp

def jneNeverTaken (alignment cycleCount : Int) : Blob → Blob :=
  conditionalBranches (BitVec.ofInt 32 (-1)) 0x0 (clamp alignment) cycleCount

def jeAlwaysTaken (alignment cycleCount : Int) : Blob → Blob :=
  let alignment := clamp alignment
  conditionalBranches (BitVec.ofInt 32 (Int.tdiv alignment 4)) 0x1 alignment cycleCount

/-- A `b` whose displacement is put as one byte. -/
def putB (alignment : Int) (blob : Blob) : Blob :=
  blob |> put (Int.tdiv alignment 4) |> put 0x00 |> put 0x00 |> put 0x14

def jmpWeaved (alignment cycleCount : Int) (blob : Blob) : Blob :=
  let blob := blob |> nops 7 |> putSeq retOp |> setFn
    |> cells cycleCount (fun _ blob =>
      let (j, blob) := forLoop 0 (if alignment ≥ 8 then 8 else 4) 4 (fun _ => putB alignment) blob
      pad alignment j blob)
    |> setRet
  (forLoop 0 2 1 (fun _ => putSeq retOp) blob).2

def jmp (alignment cycleCount : Int) (blob : Blob) : Blob :=
  let alignment := clamp alignment
  blob |> nops 7 |> putSeq retOp |> setFn
    |> cells cycleCount (fun _ blob => blob |> putB alignment |> pad alignment 4)
    |> setRet |> putSeq retOp

/-- What `blob_fill_code` puts for a type. -/
def fillType (alignment cycleCount : Int) (type : String) : Blob → Blob :=
  if type = "call_dedicated_ret" then callDedicatedRet alignment cycleCount
  else if type = "call_shared_ret" then callSharedRet alignment cycleCount
  else if type = "jne_never_taken" then jneNeverTaken alignment cycleCount
  else if type = "je_always_taken" then jeAlwaysTaken alignment cycleCount
  else if type = "jmp_weaved" then jmpWeaved alignment cycleCount
  else if type = "jmp" then jmp alignment cycleCount
  else id

/-- `blob_fill_code`.  A type that puts nothing is an error. -/
def blobFillCode (alignment cycleCount : Int) (type : String) : Option Blob :=
  let blob := fillType alignment cycleCount type Blob.empty
  if blob.code.isEmpty then none else some blob

theorem fillType_of_filled {alignment cycleCount : Int} {type : String} {blob : Blob}
    (filled : blobFillCode alignment cycleCount type = some blob) :
    fillType alignment cycleCount type Blob.empty = blob := by
  rw [blobFillCode, Option.ite_none_left_eq_some] at filled
  exact Option.some.inj filled.2

/-- The address that `blob_warm_icache` calls, if it calls any. -/
def blobWarmIcache (ptr : Address) (blob : Blob) (alignment : Int) (type : String) :
    Option Address :=
  if type = "jmp_weaved" then
    if alignment < 8 then none else some (position ptr blob.ptrFn + 4)
  else none

/-! ## What is put -/

/-- Words of padding. -/
def paddingWords (count : Nat) : List Byte := (List.replicate count nopOp).flatten

@[simp] theorem length_paddingWords (count : Nat) : (paddingWords count).length = 4 * count := by
  simp [paddingWords, nopOp, Nat.mul_comm]

@[simp] theorem putNop_eq (blob : Blob) : putNop blob = blob.extend nopOp [nopOp] := rfl

theorem nops_eq (count : Nat) (blob : Blob) :
    nops count blob = blob.extend (paddingWords count) (List.replicate count nopOp) := by
  rw [nops, forLoop_extend (by decide) fun _ => putNop_eq]
  simp [flatMap_range_const, paddingWords]

theorem pad_eq {alignment j : Int} {words : Nat} (whole : alignment = j + 4 * words) (blob : Blob) :
    pad alignment j blob = blob.extend (paddingWords words) (List.replicate words nopOp) := by
  have count : turns j alignment 4 = words := by
    rw [turns]
    omega
  rw [pad, forLoop_extend (by decide) fun _ => putNop_eq, count]
  simp [flatMap_range_const, paddingWords]

theorem cells_eq {cell : Int → Blob → Blob} {bytes : Nat → List Byte}
    {words : Nat → List (List Byte)} {count : Nat}
    (turn : ∀ i < count, ∀ reached, cell i reached = reached.extend (bytes i) (words i))
    (blob : Blob) :
    cells count cell blob =
      blob.extend ((List.range count).flatMap bytes) ((List.range count).flatMap words) := by
  have looped := @forLoop_rule 0 count 1 cell blob (by decide)
    (fun k reached => reached =
      blob.extend ((List.range k).flatMap bytes) ((List.range k).flatMap words))
    (fun k reached before same => by
      have here : cell (0 + 1 * k) reached = reached.extend (bytes k) (words k) := by
        rw [Int.one_mul, Int.zero_add]
        exact turn k (by omega) reached
      rw [here, same, extend_extend, List.range_succ, List.flatMap_append, List.flatMap_append,
        List.flatMap_singleton, List.flatMap_singleton])
    (extend_nil blob).symm
  rw [turns_one, Int.sub_zero, Int.toNat_natCast] at looped
  exact looped.1

end CloudflareBlog.Gadget.Aarch64

import CloudflareBlog.Lib.Aes
import CloudflareBlog.Mmuniq.FindNl
import CloudflareBlog.Mmuniq.HashTable

/-!
# `mmuniq.c`

The program from its read loop down to the table: `main` cuts the buffer into lines, `process_line`
collects them in batches of `C_LINE_SZ`, `process_flush` looks each up in the table and appends it
to `out_buf`, a forced `process_line` writes `out_buf` out, and `main` doubles the table when it is
too full.

`out_buf` is kept as its first `out_buf_pos` bytes and `c_lines` as its first `c_pos` entries: the
program reads nothing beyond them.  The options, the results of `write`, the fill rate and the
search for newlines are the environment.  `calls`, `resizes` and `writes` are history: what
`process_flush` was called with and found, the tables that were copied, and what was passed to
`write`.  The counters printed by `-v` are left out.
-/

namespace CloudflareBlog.Mmuniq

open CloudflareBlog.Lib.Buffer

/-- `BUF_SZ` of `mmuniq.c`. -/
def bufSz : Nat := 256 * 1024

def cLineSz : Nat := 128

/-- `struct c_line`: position in the read buffer, length, hash. -/
structure CLine where
  s : Nat
  l : Nat
  h : BitVec 64

/-- A call of `process_flush`, with the answer of `hash_insert`. -/
structure Call where
  line : List Byte
  h : BitVec 64
  miss : Int
  deriving DecidableEq

structure Env where
  finder : LineFinder
  /-- `-D`: print the repeated lines. -/
  globalRepeated : Bool
  /-- `fill_rate * (double)(size_mask + 1)`. -/
  fillThreshold : SizeMask → Nat
  /-- What the `index`-th `write(1, out_buf, count)` returns. -/
  write : (index count : Nat) → Int

structure Globals where
  globalBm : Slots
  globalSizeMask : SizeMask
  globalItems : Nat
  overflowCount : Nat
  fillThreshold : Nat
  outBuf : List Byte
  cLines : List CLine
  calls : List Call
  resizes : List (Slots × SizeMask)
  writes : List (List Byte)

section

variable (env : Env)

/-- Whether `process_flush` prints the line. -/
def prints (repeated : Bool) (miss : Int) : Bool :=
  (!repeated && miss == 1) || (repeated && miss == 0)

/-- `process_flush` up to the check of `out_buf_pos`. -/
def flush (line : List Byte) (h : BitVec 64) (g : Globals) : Globals :=
  let inserted := hashInsert h g.globalBm g.globalSizeMask.mask
  let miss := inserted.1
  { g with
    globalBm := inserted.2
    overflowCount := if miss = -1 then g.overflowCount + 1 else g.overflowCount
    globalItems := if miss = 1 then g.globalItems + 1 else g.globalItems
    outBuf := if prints env.globalRepeated miss then g.outBuf ++ line ++ [newline] else g.outBuf
    calls := g.calls ++ [⟨line, h, miss⟩] }

/-- `process_flush`; `none` is the `abort()`. -/
def processFlush (buf : Nat → Byte) (c : CLine) (g : Globals) : Option Globals :=
  let miss := (hashInsert c.h g.globalBm g.globalSizeMask.mask).1
  let flushed := flush env (slice buf c.s c.l) c.h g
  if prints env.globalRepeated miss ∧ bufSz + 1 < flushed.outBuf.length then none
  else some flushed

/-- The loop over the batch. -/
def flushLines (buf : Nat → Byte) (g : Globals) : Option Globals := do
  let flushed ← (g.cLines.take cLineSz).foldlM (fun g c => processFlush env buf c g) g
  return { flushed with cLines := [] }

/-- `write(1, out_buf, out_buf_pos)`.  A short write counts as success. -/
def writeOut (g : Globals) : BitVec 32 × Globals :=
  let r := env.write g.writes.length g.outBuf.length
  let g := { g with writes := g.writes ++ [g.outBuf] }
  if r ≤ 0 then (-1, g) else (0, { g with outBuf := [] })

/-- `process_line`; no line stands for `s == NULL`. -/
def processLine (buf : Nat → Byte) (line : Option CLine) (force : Bool) (g : Globals) :
    Option (BitVec 32 × Globals) := do
  let g := match line with
    | none => g
    | some c => { g with cLines := g.cLines ++ [c] }
  let g ← if force ∨ g.cLines.length = cLineSz then flushLines env buf g else some g
  return if force ∧ g.outBuf ≠ [] then writeOut env g else (0, g)

/-- The resize at the end of the loop body.  The loop copies the slots below the mask. -/
def growTable (g : Globals) : Globals :=
  if g.fillThreshold < g.globalItems then
    let sizeMaskNew := g.globalSizeMask.double
    let copied := rehash g.globalBm sizeMaskNew.mask g.globalSizeMask.mask.toNat
    { g with
      globalBm := copied.1
      globalSizeMask := sizeMaskNew
      overflowCount := g.overflowCount + copied.2
      fillThreshold := env.fillThreshold sizeMaskNew
      resizes := g.resizes ++ [(g.globalBm, g.globalSizeMask)] }
  else g

/-- The locals of `main` that live from one `read` to the next, and the globals. -/
structure State where
  buf : Nat → Byte
  bufPos : Nat
  res : BitVec 32
  globals : Globals

inductive Outcome where
  | loop (state : State)
  | exit (state : State)
  | abort

/-- The inner `while (1)`: `buf_pos`, `res` and the globals after it.  Each round consumes a byte, so
`buf_sz` rounds are enough. -/
def takeLines (buf : Nat → Byte) (size : Nat) :
    Nat → Nat → BitVec 32 → Globals → Option (Nat × BitVec 32 × Globals)
  | 0, bufPos, res, g => some (bufPos, res, g)
  | rounds + 1, bufPos, res, g =>
    match env.finder.findNlAndHash buf bufPos (size - bufPos) with
    | (none, _) => some (bufPos, res, g)
    | (some nlIdx, h) => do
      let sz := nlIdx - bufPos
      let (r, g) ← processLine env buf (some ⟨bufPos, sz, h⟩) false g
      takeLines buf size rounds (nlIdx + 1) (res ||| r) g

/-- The loop body on the result of `read`: `none` for `r < 0`, else the bytes read. -/
def iteration (state : State) (read : Option (List Byte)) : Outcome :=
  match read with
  | none => .exit state
  | some chunk =>
    let buf := store state.buf state.bufPos chunk
    let size := state.bufPos + chunk.length
    match takeLines env buf size size 0 state.res state.globals with
    | none => .abort
    | some (taken, res, g) =>
      match processLine env buf none true g with
      | none => .abort
      | some (r, g) =>
        let res := res ||| r
        let buf := move buf taken (size - taken)
        let bufPos := size - taken
        if bufPos = bufSz ∨ chunk = [] then
          let h := (env.finder.findNlAndHash buf 0 bufSz).2
          match processLine env buf (some ⟨0, bufSz, h⟩) true g with
          | none => .abort
          | some (r, g) =>
            let res := res ||| r
            if chunk = [] then .exit { buf, bufPos := 0, res, globals := g }
            else .loop { buf, bufPos := 0, res, globals := growTable env g }
        else .loop { buf, bufPos, res, globals := growTable env g }

/-- `while (res == 0)` over the successive results of `read`. -/
def mainLoop : State → List (Option (List Byte)) → Outcome
  | state, [] => .loop state
  | state, read :: rest =>
    if state.res = 0 then
      match iteration env state read with
      | .loop next => mainLoop next rest
      | other => other
    else .exit state

/-- `main` before the loop: a table of zeros and a buffer of zeros. -/
def start (sizeMask : SizeMask) : State where
  buf := fun _ => 0
  bufPos := 0
  res := 0
  globals :=
    { globalBm := fun _ => 0, globalSizeMask := sizeMask, globalItems := 0, overflowCount := 0
      fillThreshold := env.fillThreshold sizeMask, outBuf := [], cLines := [], calls := []
      resizes := [], writes := [] }

/-- The globals at the end of the loop, or where the reads considered end. -/
def Outcome.globals? : Outcome → Option Globals
  | .loop state => some state.globals
  | .exit state => some state.globals
  | .abort => none

/-- Every `read` returns at most as many bytes as `BUF_SZ - buf_pos` asks for. -/
def Delivers : State → List (Option (List Byte)) → Prop
  | _, [] => True
  | _, none :: _ => True
  | state, some chunk :: rest =>
    state.res = 0 → chunk.length ≤ bufSz - state.bufPos ∧
      ∀ next, iteration env state (some chunk) = .loop next → Delivers next rest

def printed (g : Globals) : List (List Byte) :=
  (g.calls.filter fun call => prints env.globalRepeated call.miss).map Call.line

end

/-- The SSE build in default mode, with a fill rate of `tenths / 10` and an output that takes all it
is given. -/
def filled (tenths : Nat) : Env where
  finder := sse Lib.Aes.aesenc
  globalRepeated := false
  fillThreshold sizeMask := (sizeMask.mask.toNat + 1) * tenths / 10
  write _ count := count

end CloudflareBlog.Mmuniq

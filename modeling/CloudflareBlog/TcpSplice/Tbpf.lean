import Mathlib.Algebra.Group.Nat.Defs
import Mathlib.Data.List.TakeWhile
import Mathlib.Logic.Function.Basic

/-!
# The relocation tables of tbpf

`tbpf-decode-elf.py` writes the relocations of a section out as an array of C that ends with a
sentinel, and `tbpf_fill_symbol` walks that array for the relocations of one symbol.  The writer puts
`NULL` for the name of the sentinel and for every symbol without a name; the reader stops at the
first `NULL`.  So it finds the relocations before the first unnamed one and none behind it, and it
does its work exactly when none of those behind names its symbol (`tbpfFillSymbol_eq_iff`).
-/

namespace CloudflareBlog.TcpSplice.Tbpf

/-! ## The writer -/

/-- An element of `list_of_relocs`: `r_info_type`, `r_offset` in bytes, and the symbol's name. -/
structure Relocation where
  type : Nat
  offset : Nat
  name : String
  deriving DecidableEq, Repr

structure TbpfReloc where
  /-- `none` is `NULL`. -/
  name : Option String
  type : Nat
  offset : Nat
  deriving DecidableEq, Repr

/-- Text that stands for itself between the quotes of a C string. -/
def literal (name : String) : Bool :=
  name.toList.all fun c => c ∉ ['"', '\\', '\n', '\r', Char.ofNat 0]

/-- `(False, 0, 0)`: `%d` prints `False` as 0, and the name 0 is as false as the empty one. -/
def sentinel : Relocation := ⟨0, 0, ""⟩

/-- `reloc_template`, filled in for one relocation and read by the C compiler.  There is no answer for
a text that does not say what it was made from: a name with a quote in it, a number past `int`. -/
def initializer (r : Relocation) : Option TbpfReloc :=
  if literal r.name ∧ r.type < 2 ^ 31 ∧ r.offset / 8 < 2 ^ 31 then
    some ⟨if r.name = "" then none else some r.name, r.type, r.offset / 8⟩
  else none

/-- The array `bpf_reloc_%s`. -/
def bpfReloc (listOfRelocs : List Relocation) : Option (List TbpfReloc) :=
  (listOfRelocs ++ [sentinel]).mapM initializer

/-! ## The reader -/

structure BpfInsn where
  code : BitVec 8
  dstReg : BitVec 4
  srcReg : BitVec 4
  off : BitVec 16
  imm : BitVec 32
  deriving DecidableEq, Repr

/-- How `tbpf_fill_symbol` can end without an answer. -/
inductive Stop where
  /-- `FATAL: unknown relocation %d`, and `abort`. -/
  | unknownRelocation (type : Nat)
  /-- A read behind the end of the array. -/
  | overrun
  deriving DecidableEq, Repr

/-- `src_reg = 1; imm = value`. -/
def BpfInsn.fill (insn : BpfInsn) (value : BitVec 32) : BpfInsn :=
  { insn with srcReg := 1, imm := value }

/-- The `while` loop of `tbpf_fill_symbol`. -/
def fillLoop (symbol : String) (value : BitVec 32) :
    (Nat → BpfInsn) → Nat → List TbpfReloc → Except Stop ((Nat → BpfInsn) × Nat)
  | _, _, [] => .error .overrun
  | insns, c, reloc :: relocs =>
    match reloc.name with
    | none => .ok (insns, c)
    | some name =>
      if name = "" then .ok (insns, c)
      else if name = symbol then
        if reloc.type = 1 then
          fillLoop symbol value
            (Function.update insns reloc.offset ((insns reloc.offset).fill value)) (c + 1) relocs
        else .error (.unknownRelocation reloc.type)
      else fillLoop symbol value insns c relocs

def tbpfFillSymbol (insns : Nat → BpfInsn) (relocs : List TbpfReloc) (symbol : String)
    (value : BitVec 32) : Except Stop ((Nat → BpfInsn) × Nat) :=
  fillLoop symbol value insns 0 relocs

/-! ## What the reader is for -/

/-- Some relocation of the list names the symbol and stands for instruction `i`. -/
def Names (listOfRelocs : List Relocation) (symbol : String) (i : Nat) : Prop :=
  ∃ r ∈ listOfRelocs, r.name = symbol ∧ r.offset / 8 = i

instance (listOfRelocs : List Relocation) (symbol : String) (i : Nat) :
    Decidable (Names listOfRelocs symbol i) :=
  inferInstanceAs (Decidable (∃ r ∈ listOfRelocs, r.name = symbol ∧ r.offset / 8 = i))

/-- The program with the instructions of one symbol filled in, and no other touched. -/
def filled (insns : Nat → BpfInsn) (listOfRelocs : List Relocation) (symbol : String)
    (value : BitVec 32) (i : Nat) : BpfInsn :=
  if Names listOfRelocs symbol i then (insns i).fill value else insns i

def occurrences (listOfRelocs : List Relocation) (symbol : String) : Nat :=
  listOfRelocs.countP fun r => r.name = symbol

/-- A relocation whose symbol has a name. -/
def named (r : Relocation) : Bool := r.name ≠ ""

section Names

variable {insns : Nat → BpfInsn} {symbol : String} {value : BitVec 32} {r : Relocation}
  {listOfRelocs : List Relocation}

theorem names_cons {i : Nat} :
    Names (r :: listOfRelocs) symbol i ↔
      r.name = symbol ∧ r.offset / 8 = i ∨ Names listOfRelocs symbol i := by
  simp [Names]

theorem filled_nil : filled insns [] symbol value = insns := by
  funext i
  simp [filled, Names]

theorem filled_cons_other (other : r.name ≠ symbol) :
    filled insns (r :: listOfRelocs) symbol value = filled insns listOfRelocs symbol value := by
  funext i
  simp [filled, names_cons, other]

theorem filled_cons_same (same : r.name = symbol) :
    filled insns (r :: listOfRelocs) symbol value =
      filled (Function.update insns (r.offset / 8) ((insns (r.offset / 8)).fill value))
        listOfRelocs symbol value := by
  -- filling twice is filling once, whatever the rest of the list names
  funext i
  by_cases here : i = r.offset / 8
  · subst here
    simp [filled, names_cons, same, BpfInsn.fill]
  · simp [filled, names_cons, Ne.symm here, here]

end Names

/-! ## The walk -/

theorem fillLoop_initializer {r : Relocation} {reloc : TbpfReloc} {relocs : List TbpfReloc}
    {symbol : String} {value : BitVec 32} {insns : Nat → BpfInsn} {c : Nat}
    (written : initializer r = some reloc) (typed : r.type = 1) :
    fillLoop symbol value insns c (reloc :: relocs) =
      if r.name = "" then .ok (insns, c)
      else if r.name = symbol then
        fillLoop symbol value
          (Function.update insns (r.offset / 8) ((insns (r.offset / 8)).fill value)) (c + 1) relocs
      else fillLoop symbol value insns c relocs := by
  unfold initializer at written
  split at written
  · obtain rfl := Option.some.inj written
    by_cases unnamed : r.name = ""
    · simp [fillLoop, unnamed]
    · simp [fillLoop, unnamed, typed]
  · cases written

/-- The loop serves the relocations before the first unnamed one, wherever that stands. -/
theorem fillLoop_eq {listOfRelocs : List Relocation} {relocs : List TbpfReloc} {symbol : String}
    {value : BitVec 32} (written : bpfReloc listOfRelocs = some relocs)
    (typed : ∀ r ∈ listOfRelocs, r.type = 1) (insns : Nat → BpfInsn) (c : Nat) :
    fillLoop symbol value insns c relocs =
      .ok (filled insns (listOfRelocs.takeWhile named) symbol value,
        c + occurrences (listOfRelocs.takeWhile named) symbol) := by
  induction listOfRelocs generalizing relocs insns c with
  | nil =>
    -- only the sentinel is left
    obtain rfl := Option.some.inj written
    simp [fillLoop, sentinel, filled_nil, occurrences]
  | cons r rest ih =>
    simp only [bpfReloc, List.cons_append, List.mapM_cons, Option.bind_eq_bind,
      Option.bind_eq_some_iff, Option.pure_def, Option.some.injEq] at written
    obtain ⟨reloc, first, table, others, rfl⟩ := written
    have typed_rest : ∀ r ∈ rest, r.type = 1 := fun r mem => typed r (List.mem_cons_of_mem _ mem)
    rw [fillLoop_initializer first (typed r List.mem_cons_self)]
    by_cases unnamed : r.name = ""
    · simp [unnamed, named, filled_nil, occurrences]
    · have kept : (r :: rest).takeWhile named = r :: rest.takeWhile named := by
        simp [named, unnamed]
      rw [if_neg unnamed, kept]
      by_cases same : r.name = symbol
      · rw [if_pos same, ih others typed_rest, filled_cons_same same]
        simp only [occurrences, List.countP_cons, same, decide_true, if_true]
        rw [Nat.add_assoc, Nat.add_comm 1]
      · rw [if_neg same, ih others typed_rest, filled_cons_other same]
        simp [occurrences, same]

/-- What is counted before the first unnamed relocation is the whole count when nothing is left to
count behind it. -/
theorem occurrences_takeWhile_eq_iff {listOfRelocs : List Relocation} {symbol : String} :
    occurrences (listOfRelocs.takeWhile named) symbol = occurrences listOfRelocs symbol ↔
      ∀ r ∈ listOfRelocs.dropWhile named, r.name ≠ symbol := by
  have split : occurrences listOfRelocs symbol =
      occurrences (listOfRelocs.takeWhile named) symbol +
        occurrences (listOfRelocs.dropWhile named) symbol := by
    rw [occurrences, occurrences, occurrences, ← List.countP_append, List.takeWhile_append_dropWhile]
  rw [split, Nat.left_eq_add, occurrences, List.countP_eq_zero]
  simp

theorem filled_takeWhile {insns : Nat → BpfInsn} {listOfRelocs : List Relocation} {symbol : String}
    {value : BitVec 32} (reached : ∀ r ∈ listOfRelocs.dropWhile named, r.name ≠ symbol) :
    filled insns (listOfRelocs.takeWhile named) symbol value =
      filled insns listOfRelocs symbol value := by
  have names_iff (i : Nat) :
      Names (listOfRelocs.takeWhile named) symbol i ↔ Names listOfRelocs symbol i := by
    constructor
    · rintro ⟨r, mem, is_symbol, at_i⟩
      exact ⟨r, (List.takeWhile_prefix _).subset mem, is_symbol, at_i⟩
    · rintro ⟨r, mem, is_symbol, at_i⟩
      rw [← List.takeWhile_append_dropWhile (p := named) (l := listOfRelocs), List.mem_append] at mem
      rcases mem with before | behind
      · exact ⟨r, before, is_symbol, at_i⟩
      · exact absurd is_symbol (reached r behind)
  funext i
  simp only [filled, names_iff]

/-- `tbpf_fill_symbol` fills in all instructions of a symbol, no other, and counts the relocations,
exactly when no relocation of the symbol stands behind one without a name. -/
theorem tbpfFillSymbol_eq_iff {listOfRelocs : List Relocation} {relocs : List TbpfReloc}
    (written : bpfReloc listOfRelocs = some relocs) (typed : ∀ r ∈ listOfRelocs, r.type = 1)
    (insns : Nat → BpfInsn) (symbol : String) (value : BitVec 32) :
    tbpfFillSymbol insns relocs symbol value =
        .ok (filled insns listOfRelocs symbol value, occurrences listOfRelocs symbol) ↔
      ∀ r ∈ listOfRelocs.dropWhile named, r.name ≠ symbol := by
  rw [tbpfFillSymbol, fillLoop_eq written typed, Nat.zero_add]
  constructor
  · intro same
    injection same with pair
    exact occurrences_takeWhile_eq_iff.mp (Prod.mk.inj pair).2
  · intro reached
    rw [filled_takeWhile reached, occurrences_takeWhile_eq_iff.mpr reached]

/-- A section symbol before the one relocation of `sock_map` hides it. -/
theorem tbpfFillSymbol_not_exact :
    ¬ ∀ (listOfRelocs : List Relocation) (relocs : List TbpfReloc) (insns : Nat → BpfInsn)
      (symbol : String) (value : BitVec 32),
      bpfReloc listOfRelocs = some relocs → (∀ r ∈ listOfRelocs, r.type = 1) → symbol ≠ "" →
        tbpfFillSymbol insns relocs symbol value =
          .ok (filled insns listOfRelocs symbol value, occurrences listOfRelocs symbol) := by
  intro exact
  have same := exact [⟨1, 0, ""⟩, ⟨1, 8, "sock_map"⟩]
    [⟨none, 1, 0⟩, ⟨some "sock_map", 1, 1⟩, ⟨none, 0, 0⟩] (fun _ => ⟨0x18, 1, 0, 0, 0⟩) "sock_map" 5
    (by decide) (by decide) (by decide)
  injection same with pair
  exact absurd (Prod.mk.inj pair).2 (by decide)

/-- Named relocations alone are all found: two of `sock_map`, one of another map. -/
theorem tbpfFillSymbol_eq_iff_sock_map :
    tbpfFillSymbol (fun _ => ⟨0x18, 1, 0, 0, 0⟩)
        [⟨some "sock_map", 1, 1⟩, ⟨some "counts", 1, 4⟩, ⟨some "sock_map", 1, 7⟩, ⟨none, 0, 0⟩]
        "sock_map" 5 =
      .ok (filled (fun _ => ⟨0x18, 1, 0, 0, 0⟩)
        [⟨1, 8, "sock_map"⟩, ⟨1, 32, "counts"⟩, ⟨1, 56, "sock_map"⟩] "sock_map" 5, 2) :=
  (tbpfFillSymbol_eq_iff (by decide) (by decide) _ "sock_map" 5).mpr (by decide)

end CloudflareBlog.TcpSplice.Tbpf

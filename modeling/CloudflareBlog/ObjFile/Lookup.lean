import CloudflareBlog.ObjFile.X86

/-!
# Functions by name

`lookup_function` takes the first function symbol of a name and adds its value to the address of the
copy of `.text`, wherever the symbol is defined and whether it is defined at all.  The result is in
`.text` if the symbols of that name which are defined there come first (`lookupFunction_inText_iff`).
-/

namespace CloudflareBlog.ObjFile

open CloudflareBlog.Lib.Buffer CloudflareBlog.Lib.Memory CloudflareBlog.Lib.Checked

/-- The index of the section that `lookup_section` points to. -/
def sectionIndex (object : Sections) (name : List Byte) : Option Nat :=
  (List.range (eShnum object.base).toNat).find? fun i =>
    let header := sectionAt object.base object.sections (BitVec.ofNat 16 i)
    sameString object.base (object.sectionName header) name && header.shSize != 0

namespace Object

variable (object : Object)

/-- The number of times the loop over the symbols goes round. -/
def symbolCount : Nat := object.numSymbols.toInt.toNat

/-- `symbols[i]`. -/
def symbolAt (i : Nat) : Sym := object.symbol (BitVec.ofNat 32 i)

/-- The symbol is a function of that name. -/
def Named (name : List Byte) (i : Nat) : Prop :=
  (object.symbolAt i).isFunction = true ∧
    sameString object.base (object.symbolName (object.symbolAt i)) name = true

/-- The symbol is defined in the section that is copied as `.text`. -/
def InText (i : Nat) : Prop :=
  (object.symbolAt i).stShndx ≠ 0 ∧
    sectionIndex object.toSections (ascii ".text") = some (object.symbolAt i).stShndx.toNat

instance (name : List Byte) (i : Nat) : Decidable (object.Named name i) :=
  inferInstanceAs (Decidable (_ ∧ _))

instance (i : Nat) : Decidable (object.InText i) := inferInstanceAs (Decidable (_ ∧ _))

/-- The function symbols that are defined in a section are within it. -/
def WellFormed : Prop :=
  ∀ i < object.symbolCount, (object.symbolAt i).isFunction = true →
    (object.symbolAt i).stShndx ≠ 0 →
      (object.symbolAt i).stShndx.toNat < (eShnum object.base).toNat →
        (object.symbolAt i).stValue.toNat < (object.sectionOf (object.symbolAt i)).shSize.toNat

instance : Decidable object.WellFormed := inferInstanceAs (Decidable (∀ _, _ → _))

/-- The index of the symbol whose value `lookup_function` returns. -/
def returned (name : List Byte) : Option Nat :=
  (List.range object.symbolCount).find? fun i => decide (object.Named name i)

/-- Every function symbol of that name that is undefined or in another section comes behind one in
`.text`. -/
def TextFirst (name : List Byte) : Prop :=
  ∀ i < object.symbolCount, object.Named name i → ¬ object.InText i →
    ∃ j < i, object.Named name j ∧ object.InText j

end Object

instance (object : Object) (name : List Byte) : Decidable (object.TextFirst name) :=
  inferInstanceAs (Decidable (∀ _, _ → _))

/-- What `lookup_function` returns is the address of a function of that name in the copy of `.text`, and
is taken from no other symbol. -/
structure StaysInText (loaded : Loaded) (name : List Byte) : Prop where
  address : ∀ a, lookupFunction loaded.object loaded.layout name = some a →
    ∃ i < loaded.object.symbolCount, loaded.object.Named name i ∧ loaded.object.InText i ∧
      a = loaded.layout.textRuntimeBase + (loaded.object.symbolAt i).stValue ∧
      Inside loaded.layout.textRuntimeBase loaded.headers.text.shSize.toNat a
  symbol : ∀ i, loaded.object.returned name = some i → loaded.object.InText i

/-! ## The scan -/

section

variable {object : Object} {name : List Byte}

theorem lookupSection_eq (object : Sections) (name : List Byte) :
    lookupSection object name = (sectionIndex object name).map fun i =>
      sectionAt object.base object.sections (BitVec.ofNat 16 i) := by
  rw [lookupSection, List.find?_map]
  rfl

theorem lookupFunction_eq (object : Object) (layout : Layout) (name : List Byte) :
    lookupFunction object layout name = (object.returned name).map fun i =>
      layout.textRuntimeBase + (object.symbolAt i).stValue := by
  rw [lookupFunction, List.find?_map, Option.map_map]
  have same : (fun i => decide (object.Named name i)) = (fun symbol : Sym => symbol.isFunction &&
      sameString object.base (object.symbolName symbol) name) ∘
        fun i => object.symbol (BitVec.ofNat 32 i) := by
    funext i
    rw [Function.comp_apply, Bool.eq_iff_iff, decide_eq_true_iff, Bool.and_eq_true]
    exact Iff.rfl
  rw [Object.returned, same]
  rfl

/-- `lookup_function` returns the first function symbol of the name. -/
theorem returned_eq_some_iff {i : Nat} :
    object.returned name = some i ↔
      i < object.symbolCount ∧ object.Named name i ∧ ∀ j < i, ¬ object.Named name j := by
  rw [Object.returned, List.find?_range_eq_some]
  simp only [decide_eq_true_eq, List.mem_range, Bool.not_eq_true', decide_eq_false_iff_not]
  constructor
  · rintro ⟨named, inside, first⟩
    exact ⟨inside, named, first⟩
  · rintro ⟨inside, named, first⟩
    exact ⟨named, inside, first⟩

/-- A function symbol of the name is there, so one is returned, and it does not come behind it. -/
theorem exists_returned {i : Nat} (inside : i < object.symbolCount) (named : object.Named name i) :
    ∃ j ≤ i, object.returned name = some j := by
  induction i using Nat.strong_induction_on with
  | _ i inductionHypothesis =>
    by_cases first : ∀ j < i, ¬ object.Named name j
    · exact ⟨i, Nat.le_refl i, returned_eq_some_iff.mpr ⟨inside, named, first⟩⟩
    · push Not at first
      obtain ⟨j, before, namedBefore⟩ := first
      obtain ⟨k, notBehind, found⟩ :=
        inductionHypothesis j before (Nat.lt_trans before inside) namedBefore
      exact ⟨k, by omega, found⟩

/-- The symbol that is returned is in `.text` if and only if the symbols in `.text` come first. -/
theorem returned_inText_iff :
    (∀ i, object.returned name = some i → object.InText i) ↔ object.TextFirst name := by
  constructor
  · intro inText i inside named outside
    obtain ⟨j, notBehind, found⟩ := exists_returned inside named
    have isText := inText j found
    obtain ⟨-, namedJ, -⟩ := returned_eq_some_iff.mp found
    refine ⟨j, Nat.lt_of_le_of_ne notBehind ?_, namedJ, isText⟩
    rintro rfl
    exact outside isText
  · intro textFirst i found
    obtain ⟨inside, named, first⟩ := returned_eq_some_iff.mp found
    by_contra outside
    obtain ⟨j, before, namedJ, -⟩ := textFirst i inside named outside
    exact first j before namedJ

end

/-! ## Loaded files -/

section

variable {machine : Machine} {system : System} {base memory : Bytes}
  {protections : Address → Protection} {loaded : Loaded}

theorem findSymbols_sections {object : Sections} {result : Object}
    (found : findSymbols object = .ok result) : result.toSections = object := by
  obtain ⟨_, -, found⟩ := bind_eq_ok.mp found
  obtain ⟨_, -, found⟩ := bind_eq_ok.mp found
  obtain ⟨_, -, found⟩ := bind_eq_ok.mp found
  cases found
  rfl

theorem findHeaders_text {object : Sections} {headers : Headers}
    (required : findHeaders object = .ok headers) :
    lookupSection object (ascii ".text") = some headers.text := by
  obtain ⟨text, lookedUp, required⟩ := bind_eq_ok.mp required
  obtain ⟨_, -, required⟩ := bind_eq_ok.mp required
  obtain ⟨_, -, required⟩ := bind_eq_ok.mp required
  cases required
  rw [requireSection] at lookedUp
  cases found : lookupSection object (ascii ".text") with
  | none =>
    rw [found] at lookedUp
    cases lookedUp
  | some header =>
    rw [found] at lookedUp
    cases lookedUp
    rfl

theorem parseObj_text (run : parseObj machine system base memory protections = .ok loaded) :
    lookupSection loaded.object.toSections (ascii ".text") = some loaded.headers.text := by
  obtain ⟨start, patched, text, rodata, performed⟩ := parseObj_performed run
  rw [findSymbols_sections performed.found]
  exact findHeaders_text performed.required

theorem inText_inside (run : parseObj machine system base memory protections = .ok loaded)
    (wellFormed : loaded.object.WellFormed) {i : Nat} (inRange : i < loaded.object.symbolCount)
    (isFunction : (loaded.object.symbolAt i).isFunction = true) (inText : loaded.object.InText i) :
    Inside loaded.layout.textRuntimeBase loaded.headers.text.shSize.toNat
      (loaded.layout.textRuntimeBase + (loaded.object.symbolAt i).stValue) := by
  obtain ⟨isDefined, isText⟩ := inText
  have text := parseObj_text run
  rw [lookupSection_eq, isText, Option.map_some, Option.some.injEq, BitVec.ofNat_toNat,
    BitVec.setWidth_eq] at text
  have inTable := List.mem_range.mp (List.mem_of_find?_eq_some isText)
  have within := wellFormed i inRange isFunction isDefined inTable
  rw [Inside, add_sub_self, ← text]
  exact within

/-- For every file that is loaded, and every name: what `lookup_function` returns stays in the copy of
`.text` if and only if the functions of that name in `.text` come before all others. -/
theorem lookupFunction_inText_iff
    (run : parseObj machine system base memory protections = .ok loaded)
    (wellFormed : loaded.object.WellFormed) (name : List Byte) :
    StaysInText loaded name ↔ loaded.object.TextFirst name := by
  rw [← returned_inText_iff]
  constructor
  · exact StaysInText.symbol
  · refine fun inText => ⟨fun a lookedUp => ?_, inText⟩
    rw [lookupFunction_eq] at lookedUp
    obtain ⟨i, found, rfl⟩ := Option.map_eq_some_iff.mp lookedUp
    obtain ⟨inRange, named, -⟩ := returned_eq_some_iff.mp found
    exact ⟨i, inRange, named, inText i found, rfl,
      inText_inside run wellFormed inRange named.1 (inText i found)⟩

end

/-- The small file, in which the symbol at an address of the file is a function. -/
def functionFile (symbol : Address) : Bytes :=
  Function.update (smallFile 4 0 8 0) (symbol + 4) 2

/-- The symbol that is defined at byte 8 of `.text` is the function. -/
theorem lookupFunction_inText_iff_defined :
    ∃ loaded, parseObj X86.machine smallSystem (functionFile 600) (fun _ => 0)
        (fun _ => ⟨false, false, false⟩) = .ok loaded ∧
      lookupFunction loaded.object loaded.layout (ascii "puts") = some 0x10008 ∧
      StaysInText loaded (ascii "puts") := by
  have found : ∃ loaded, parseObj X86.machine smallSystem (functionFile 600) (fun _ => 0)
        (fun _ => ⟨false, false, false⟩) = .ok loaded ∧
      lookupFunction loaded.object loaded.layout (ascii "puts") = some 0x10008 ∧
      loaded.object.WellFormed ∧ loaded.object.TextFirst (ascii "puts") := by
    decide +kernel
  obtain ⟨loaded, run, lookedUp, wellFormed, textFirst⟩ := found
  exact ⟨loaded, run, lookedUp, (lookupFunction_inText_iff run wellFormed _).mpr textFirst⟩

/-- The undefined symbol is a function: it is found at the beginning of `.text`. -/
theorem lookupFunction_outside :
    ∃ loaded, parseObj X86.machine smallSystem (functionFile 576) (fun _ => 0)
        (fun _ => ⟨false, false, false⟩) = .ok loaded ∧ loaded.object.WellFormed ∧
      lookupFunction loaded.object loaded.layout (ascii "puts") = some 0x10000 ∧
      (∀ i < loaded.object.symbolCount, ¬ (loaded.object.Named (ascii "puts") i ∧
        loaded.object.InText i)) ∧ ¬ StaysInText loaded (ascii "puts") := by
  have found : ∃ loaded, parseObj X86.machine smallSystem (functionFile 576) (fun _ => 0)
        (fun _ => ⟨false, false, false⟩) = .ok loaded ∧ loaded.object.WellFormed ∧
      lookupFunction loaded.object loaded.layout (ascii "puts") = some 0x10000 ∧
      ∀ i < loaded.object.symbolCount, ¬ (loaded.object.Named (ascii "puts") i ∧
        loaded.object.InText i) := by
    decide +kernel
  obtain ⟨loaded, run, wellFormed, lookedUp, none⟩ := found
  refine ⟨loaded, run, wellFormed, lookedUp, none, fun stays => ?_⟩
  obtain ⟨i, inRange, named, inText, -⟩ := stays.address _ lookedUp
  exact none i inRange ⟨named, inText⟩

end CloudflareBlog.ObjFile

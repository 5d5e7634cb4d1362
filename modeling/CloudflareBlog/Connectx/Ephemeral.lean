import Mathlib.Data.Int.Range
import CloudflareBlog.Connectx.Ports
import CloudflareBlog.Lib.Text

/-!
# `_read_ephemeral`

The range of the ephemeral ports and the reserved ones among them, from the text of two files of the
kernel, of which 512 characters are read.
-/

namespace CloudflareBlog.Connectx

open CloudflareBlog.Lib.Text

/-- `f.read(512)`. -/
def read (text : List Char) : List Char := text.take 512

/-- `int`. -/
def parseInt (text : List Char) : Except Exn Int :=
  match int text with
  | some value => .ok value
  | none => .error .valueError

/-- `lo, hi = map(int, f.read(512).strip().split())`. -/
def readRange (text : List Char) : Except Exn (Int × Int) := do
  match ← (words (strip (read text))).mapM parseInt with
  | [lo, hi] => return (lo, hi)
  | _ => throw .valueError

/-- One round of the `for` loop. -/
def addPort (skip : Finset Int) (port : List Char) : Except Exn (Finset Int) :=
  if '-' ∈ port then do
    let l ← parseInt (port.takeWhile (· ≠ '-'))
    let h ← parseInt (port.dropWhile (· ≠ '-')).tail
    return (Int.range l (h + 1)).foldl (fun skip c => insert c skip) skip
  else if port ≠ [] then do
    return insert (← parseInt port) skip
  else return skip

/-- The second half of `_read_ephemeral`. -/
def readReserved (text : List Char) : Except Exn (Finset Int) :=
  ((strip (read text)).splitOn ',').foldlM addPort ∅

/-- `_read_ephemeral`, on the contents of `ip_local_port_range` and `ip_local_reserved_ports`. -/
def readEphemeral {m : Type → Type} [Monad m] [MonadExcept Exn m]
    (portRange reservedPorts : m (List Char)) : m Ephemeral := do
  let (lo, hi) ← MonadExcept.ofExcept (readRange (← portRange))
  let skip ← MonadExcept.ofExcept (readReserved (← reservedPorts))
  return { lo, hi, skip }

/-- `_read_ephemeral` of two files that can be read. -/
def ephemeralOf (portRange reservedPorts : List Char) : Except Exn Ephemeral :=
  readEphemeral (.ok portRange) (.ok reservedPorts)

/-! ## What the kernel prints -/

/-- An entry of the list of reserved ports. -/
inductive Entry where
  | single (port : Nat)
  | range (first last : Nat)
  deriving DecidableEq

def Entry.text : Entry → List Char
  | .single port => Nat.toDigits 10 port
  | .range first last => Nat.toDigits 10 first ++ '-' :: Nat.toDigits 10 last

/-- The list without the newline at its end. -/
def body (entries : List Entry) : List Char := [','].intercalate (entries.map Entry.text)

/-- `ip_local_reserved_ports`. -/
def render (entries : List Entry) : List Char := body entries ++ ['\n']

def Entry.Covers : Entry → Int → Prop
  | .single port, p => p = port
  | .range first last, p => first ≤ p ∧ p ≤ last

instance (entry : Entry) (p : Int) : Decidable (entry.Covers p) := by
  cases entry with
  | single port => exact inferInstanceAs (Decidable (_ = _))
  | range first last => exact inferInstanceAs (Decidable (_ ∧ _))

def Listed (entries : List Entry) (p : Int) : Prop := ∃ entry ∈ entries, entry.Covers p

instance (entries : List Entry) (p : Int) : Decidable (Listed entries p) :=
  inferInstanceAs (Decidable (∃ entry ∈ entries, entry.Covers p))

/-- The reserved ports are read, and none of them is handed out. -/
def Reserves (portRange : List Char) (entries : List Entry) : Prop :=
  ∃ ephemeral, ephemeralOf portRange (render entries) = .ok ephemeral ∧
    (∀ p, p ∈ ephemeral.skip ↔ Listed entries p) ∧
    ∀ answer start port, ephemeral.lo ≤ start → start ≤ ephemeral.hi →
      (search ephemeral answer start).1 = .ok port → ¬ Listed entries port

/-! ## The text of the list -/

@[simp] theorem dash_not_mem (n : Nat) : '-' ∉ Nat.toDigits 10 n := not_mem_toDigits (by decide) n

theorem Entry.mem_text {entry : Entry} {c : Char} (among : c ∈ entry.text) :
    c.isDigit = true ∨ c = '-' := by
  have digit {n : Nat} (inside : c ∈ Nat.toDigits 10 n) : c.isDigit = true :=
    Nat.isDigit_of_mem_toDigits (by decide) (by decide) inside
  cases entry with
  | single port => exact .inl (digit among)
  | range first last =>
    rcases List.mem_append.mp among with inside | rest
    · exact .inl (digit inside)
    · rcases List.mem_cons.mp rest with dash | inside
      · exact .inr dash
      · exact .inl (digit inside)

theorem Entry.comma_not_mem (entry : Entry) : ',' ∉ entry.text := by
  intro among
  rcases Entry.mem_text among with digit | dash
  · exact absurd digit (by decide)
  · exact absurd dash (by decide)

theorem intercalate_cons (piece : List Char) {pieces : List (List Char)} (more : pieces ≠ []) :
    [','].intercalate (piece :: pieces) = piece ++ ',' :: [','].intercalate pieces := by
  cases pieces with
  | nil => exact absurd rfl more
  | cons next pieces => simp [List.intercalate_cons_cons]

theorem body_cons (entry : Entry) {rest : List Entry} (more : rest ≠ []) :
    body (entry :: rest) = entry.text ++ ',' :: body rest := by
  rw [body, List.map_cons, intercalate_cons _ (by simpa using more)]
  rfl

@[simp] theorem body_singleton (entry : Entry) : body [entry] = entry.text := by
  simp [body, List.intercalate_singleton]

theorem body_solid (entries : List Entry) : ∀ c ∈ body entries, isSpace c = false := by
  induction entries with
  | nil => simp [body]
  | cons entry rest inductionHypothesis =>
    have solid : ∀ c ∈ entry.text, isSpace c = false := by
      intro c among
      rcases Entry.mem_text among with digit | dash
      · exact isSpace_digit digit
      · rw [dash]
        decide
    by_cases more : rest = []
    · -- no comma behind the last entry
      rw [more, body_singleton]
      exact solid
    · rw [body_cons entry more]
      intro c among
      rcases List.mem_append.mp among with inside | tail
      · exact solid c inside
      · rcases List.mem_cons.mp tail with comma | later
        · rw [comma]
          decide
        · exact inductionHypothesis c later

theorem strip_read (entries : List Entry) :
    strip (read (render entries)) = (body entries).take 512 := by
  rw [read, render, List.take_append]
  -- the newline is the only white space, if it is among what is read
  refine stripOf_append (fun c among => body_solid entries c (List.mem_of_mem_take among)) ?_
  intro c among
  rw [List.mem_singleton.mp (List.mem_of_mem_take among)]
  decide

/-! ## One entry -/

@[simp] theorem parseInt_toDigits (n : Nat) : parseInt (Nat.toDigits 10 n) = .ok (n : Int) := by
  rw [parseInt, int_toDigits]

@[simp] theorem parseInt_nil : parseInt [] = .error .valueError := by
  rw [parseInt, int_nil]

theorem mem_foldl_insert (ports : List Int) (skip : Finset Int) (p : Int) :
    p ∈ ports.foldl (fun skip c => insert c skip) skip ↔ p ∈ skip ∨ p ∈ ports := by
  induction ports generalizing skip with
  | nil => simp
  | cons port ports inductionHypothesis =>
    rw [List.foldl_cons, inductionHypothesis, Finset.mem_insert, List.mem_cons]
    tauto

theorem addPort_single (skip : Finset Int) (port : Nat) :
    addPort skip (Nat.toDigits 10 port) = .ok (insert (port : Int) skip) := by
  rw [addPort, if_neg (dash_not_mem port), if_pos Nat.toDigits_ne_nil, parseInt_toDigits]
  rfl

theorem addPort_dash (skip : Finset Int) (first : Nat) (rest : List Char) :
    addPort skip (Nat.toDigits 10 first ++ '-' :: rest) =
      (parseInt rest).map fun h =>
        (Int.range first (h + 1)).foldl (fun skip c => insert c skip) skip := by
  -- the first dash is the one behind the digits
  have digits : ∀ c ∈ Nat.toDigits 10 first, decide (c ≠ '-') = true := by
    intro c among
    have other : c ≠ '-' := fun dash => dash_not_mem first (dash ▸ among)
    simpa using other
  have before : (Nat.toDigits 10 first ++ '-' :: rest).takeWhile (· ≠ '-') =
      Nat.toDigits 10 first := by
    rw [List.takeWhile_append_of_pos digits]
    simp
  have behind : (Nat.toDigits 10 first ++ '-' :: rest).dropWhile (· ≠ '-') = '-' :: rest := by
    rw [List.dropWhile_append_of_pos digits]
    simp
  rw [addPort, if_pos (by simp), before, behind, parseInt_toDigits, List.tail_cons]
  cases parseInt rest with
  | error raised => rfl
  | ok h => rfl

theorem addPort_text (skip : Finset Int) (entry : Entry) :
    ∃ added, addPort skip entry.text = .ok added ∧ ∀ p, p ∈ added ↔ p ∈ skip ∨ entry.Covers p := by
  cases entry with
  | single port =>
    refine ⟨_, addPort_single skip port, fun p => ?_⟩
    rw [Finset.mem_insert, Entry.Covers]
    tauto
  | range first last =>
    refine ⟨_, by rw [Entry.text, addPort_dash, parseInt_toDigits]; rfl, fun p => ?_⟩
    rw [mem_foldl_insert, Int.mem_range_iff, Int.lt_add_one_iff, Entry.Covers]

theorem foldlM_texts (entries : List Entry) (skip : Finset Int) :
    ∃ added, (entries.map Entry.text).foldlM addPort skip = .ok added ∧
      ∀ p, p ∈ added ↔ p ∈ skip ∨ Listed entries p := by
  induction entries generalizing skip with
  | nil => exact ⟨skip, rfl, by simp [Listed]⟩
  | cons entry rest inductionHypothesis =>
    obtain ⟨first, ranFirst, memFirst⟩ := addPort_text skip entry
    obtain ⟨added, ran, mem⟩ := inductionHypothesis first
    refine ⟨added, ?_, fun p => ?_⟩
    · rw [List.map_cons, List.foldlM_cons, ranFirst]
      exact ran
    · rw [mem, memFirst]
      simp only [Listed, List.mem_cons, exists_eq_or_imp]
      tauto

/-! ## A text that is cut -/

/-- An entry that lost characters at its end. -/
inductive Shortened : Entry → Entry → Prop
  | single {port shorter : Nat} (less : shorter < port) :
      Shortened (.single port) (.single shorter)
  | first {first last shorter : Nat} (less : shorter ≤ first) :
      Shortened (.range first last) (.single shorter)
  | last {first last shorter : Nat} (less : shorter < last) :
      Shortened (.range first last) (.range first shorter)

/-- What a cut can leave of the text of a list. -/
inductive Cut : List Entry → List Char → Prop
  | between (before after : List Entry) : Cut (before ++ after) (body before)
  | comma {before after : List Entry} (some : before ≠ []) (more : after ≠ []) :
      Cut (before ++ after) (body before ++ [','])
  | inside (before after : List Entry) {entry shorter : Entry} (less : Shortened entry shorter) :
      Cut (before ++ entry :: after) (body (before ++ [shorter]))
  | dash (before after : List Entry) (entry : Entry) (first : Nat) :
      Cut (before ++ entry :: after)
        ([','].intercalate (before.map Entry.text ++ [Nat.toDigits 10 first ++ ['-']]))

theorem Entry.take_text (entry : Entry) {count : Nat} (some : 0 < count)
    (short : count < entry.text.length) :
    (∃ shorter, Shortened entry shorter ∧ entry.text.take count = shorter.text) ∨
      ∃ first, entry.text.take count = Nat.toDigits 10 first ++ ['-'] := by
  cases entry with
  | single port =>
    obtain ⟨shorter, less, cut⟩ := take_toDigits port count some short
    exact .inl ⟨.single shorter, .single less, cut⟩
  | range first last =>
    simp only [Entry.text, List.length_append, List.length_cons] at short ⊢
    rcases Nat.lt_trichotomy count (Nat.toDigits 10 first).length with before | exactly | behind
    · -- of a range cut in its first number, or behind it, a single port is left
      obtain ⟨shorter, less, cut⟩ := take_toDigits first count some before
      refine .inl ⟨.single shorter, .first (by omega), ?_⟩
      rw [List.take_append_of_le_length (by omega), cut]
    · refine .inl ⟨.single first, .first (le_refl first), ?_⟩
      rw [List.take_left' exactly.symm]
    · obtain ⟨rest, rfl⟩ : ∃ rest, count = (Nat.toDigits 10 first).length + (rest + 1) :=
        ⟨count - (Nat.toDigits 10 first).length - 1, by omega⟩
      rw [List.take_length_add_append, List.take_succ_cons]
      by_cases nothing : rest = 0
      · -- cut behind the dash
        exact .inr ⟨first, by rw [nothing, List.take_zero]⟩
      · obtain ⟨shorter, less, cut⟩ := take_toDigits last rest (by omega) (by omega)
        exact .inl ⟨.range first shorter, .last less, by rw [cut]⟩

theorem Cut.cons {rest : List Entry} {text : List Char} (cut : Cut rest text) (more : rest ≠ [])
    (entry : Entry) : Cut (entry :: rest) (entry.text ++ ',' :: text) := by
  cases cut with
  | between before after =>
    by_cases empty : before = []
    · -- nothing is left behind the comma
      subst empty
      have alone : Cut ([entry] ++ after) (body [entry] ++ [',']) := .comma (by simp) more
      rwa [body_singleton] at alone
    · rw [← body_cons entry empty]
      exact .between (entry :: before) after
  | @comma before after some later =>
    have joined : entry.text ++ ',' :: (body before ++ [',']) = body (entry :: before) ++ [','] := by
      rw [body_cons entry some, List.append_assoc, List.cons_append]
    rw [joined]
    exact .comma (List.cons_ne_nil entry before) later
  | @inside before after cutEntry shorter less =>
    rw [← body_cons entry (by simp)]
    exact .inside (entry :: before) after less
  | dash before after cutEntry first =>
    rw [← intercalate_cons _ (by simp)]
    exact .dash (entry :: before) after cutEntry first

theorem Cut.head (entry : Entry) (rest : List Entry) {count : Nat}
    (short : count ≤ entry.text.length) : Cut (entry :: rest) (entry.text.take count) := by
  by_cases none : count = 0
  · rw [none, List.take_zero]
    exact .between [] (entry :: rest)
  by_cases whole : count = entry.text.length
  · have between := Cut.between [entry] rest
    rwa [body_singleton, ← List.take_length (l := entry.text), ← whole] at between
  rcases entry.take_text (Nat.pos_of_ne_zero none) (by omega) with
    ⟨shorter, less, cut⟩ | ⟨first, cut⟩
  · have shortened := Cut.inside [] rest less
    rwa [List.nil_append, List.nil_append, body_singleton, ← cut] at shortened
  · have dashed := Cut.dash [] rest entry first
    rwa [List.nil_append, List.map_nil, List.nil_append, List.intercalate_singleton,
      ← cut] at dashed

/-- Every prefix of the text is such a cut. -/
theorem cut_take (entries : List Entry) (count : Nat) :
    Cut entries ((body entries).take count) := by
  induction entries generalizing count with
  | nil =>
    have nothing : (body []).take count = [] := by simp [body]
    rw [nothing]
    exact .between [] []
  | cons entry rest inductionHypothesis =>
    by_cases more : rest = []
    · rw [more, body_singleton]
      rcases Nat.le_total count entry.text.length with short | long
      · exact .head entry [] short
      · rw [List.take_of_length_le long, ← List.take_length (l := entry.text)]
        exact .head entry [] (le_refl _)
    · rw [body_cons entry more]
      by_cases short : count ≤ entry.text.length
      · rw [List.take_append_of_le_length short]
        exact .head entry rest short
      · obtain ⟨behind, rfl⟩ : ∃ behind, count = entry.text.length + (behind + 1) :=
          ⟨count - entry.text.length - 1, by omega⟩
        rw [List.take_length_add_append, List.take_succ_cons]
        exact (inductionHypothesis behind).cons more entry

/-! ## The reserved ports -/

theorem comma_not_mem_texts (entries : List Entry) :
    ∀ piece ∈ entries.map Entry.text, ',' ∉ piece := by
  intro piece among
  obtain ⟨entry, -, rfl⟩ := List.mem_map.mp among
  exact entry.comma_not_mem

theorem foldlM_body (entries : List Entry) (skip : Finset Int) :
    ((body entries).splitOn ',').foldlM addPort skip =
      (entries.map Entry.text).foldlM addPort skip := by
  cases entries with
  | nil => rfl
  | cons entry rest =>
    rw [body, List.splitOn_intercalate _ (comma_not_mem_texts _) (by simp)]

theorem foldlM_comma (entries : List Entry) (skip : Finset Int) :
    ((body entries ++ [',']).splitOn ',').foldlM addPort skip =
      (entries.map Entry.text).foldlM addPort skip := by
  -- the piece behind the last comma is empty and is skipped
  rw [List.splitOn_append_cons_self, List.splitOn_nil, List.foldlM_append, foldlM_body]
  cases (entries.map Entry.text).foldlM addPort skip with
  | error raised => rfl
  | ok added => rfl

theorem foldlM_dash (entries : List Entry) (first : Nat) (skip : Finset Int) :
    (([','].intercalate (entries.map Entry.text ++ [Nat.toDigits 10 first ++ ['-']])).splitOn
      ',').foldlM addPort skip = .error .valueError := by
  have plain : ∀ piece ∈ entries.map Entry.text ++ [Nat.toDigits 10 first ++ ['-']],
      ',' ∉ piece := by
    intro piece among
    rcases List.mem_append.mp among with before | last
    · exact comma_not_mem_texts entries piece before
    · rw [List.mem_singleton.mp last, List.mem_append, List.mem_singleton]
      rintro (digit | dash)
      · exact not_mem_toDigits (by decide) first digit
      · exact absurd dash (by decide)
  obtain ⟨added, ran, -⟩ := foldlM_texts entries skip
  rw [List.splitOn_intercalate _ plain (by simp), List.foldlM_append, ran]
  change [Nat.toDigits 10 first ++ ['-']].foldlM addPort added = _
  -- `int('')` raises
  rw [List.foldlM_cons, addPort_dash, parseInt_nil]
  rfl

theorem readReserved_render (entries : List Entry) :
    readReserved (render entries) =
      (((body entries).take 512).splitOn ',').foldlM addPort ∅ := by
  rw [readReserved, strip_read]

/-- What is read is the text of the list `kept`, perhaps with a comma behind it. -/
def Leaves (entries kept : List Entry) : Prop :=
  read (body entries) = body kept ∨ read (body entries) = body kept ++ [',']

/-- Nothing that matters is cut off. -/
def Survives (entries : List Entry) : Prop :=
  ∃ kept, Leaves entries kept ∧ ∀ p, Listed kept p ↔ Listed entries p

theorem readReserved_leaves {entries kept : List Entry} (leaves : Leaves entries kept) :
    ∃ skip, readReserved (render entries) = .ok skip ∧ ∀ p, p ∈ skip ↔ Listed kept p := by
  obtain ⟨skip, ran, mem⟩ := foldlM_texts kept ∅
  refine ⟨skip, ?_, by simpa using mem⟩
  rw [readReserved_render, ← ran]
  cases leaves with
  | inl whole =>
    rw [read] at whole
    rw [whole, foldlM_body]
  | inr comma =>
    rw [read] at comma
    rw [comma, foldlM_comma]

theorem readReserved_returned (entries : List Entry) :
    (∃ kept, Leaves entries kept) ∨ readReserved (render entries) = .error .valueError := by
  have cut := cut_take entries 512
  rw [readReserved_render]
  generalize left : (body entries).take 512 = text at cut ⊢
  cases cut with
  | between before after => exact .inl ⟨before, .inl left⟩
  | comma some more => exact .inl ⟨_, .inr left⟩
  | @inside before after entry shorter less => exact .inl ⟨before ++ [shorter], .inl left⟩
  | dash before after entry first => exact .inr (foldlM_dash before first ∅)

theorem ofExcept_except {α : Type} (result : Except Exn α) :
    (MonadExcept.ofExcept result : Except Exn α) = result := by
  cases result with
  | error raised => rfl
  | ok a => rfl

theorem ephemeralOf_render {portRange : List Char} {lo hi : Int}
    (range : readRange portRange = .ok (lo, hi)) (entries : List Entry) :
    ephemeralOf portRange (render entries) =
      (readReserved (render entries)).map fun skip => { lo, hi, skip } := by
  simp only [ephemeralOf, readEphemeral, ofExcept_except]
  change (readRange portRange >>= fun range => readReserved (render entries) >>= fun skip =>
    pure (⟨range.1, range.2, skip⟩ : Ephemeral)) = _
  rw [range]
  cases readReserved (render entries) with
  | error raised => rfl
  | ok skip => rfl

/-- The reserved ports are read right, and so avoided, exactly when nothing that matters is cut off. -/
theorem readEphemeral_reserves_iff {portRange : List Char} {lo hi : Int}
    (range : readRange portRange = .ok (lo, hi)) (entries : List Entry) :
    Reserves portRange entries ↔ Survives entries := by
  constructor
  · rintro ⟨ephemeral, ran, mem, -⟩
    rw [ephemeralOf_render range] at ran
    rcases readReserved_returned entries with ⟨kept, leaves⟩ | raised
    · obtain ⟨skip, readSkip, memKept⟩ := readReserved_leaves leaves
      rw [readSkip] at ran
      cases ran
      exact ⟨kept, leaves, fun p => (memKept p).symm.trans (mem p)⟩
    · rw [raised] at ran
      cases ran
  · rintro ⟨kept, leaves, same⟩
    obtain ⟨skip, readSkip, memKept⟩ := readReserved_leaves leaves
    have mem (p : Int) : p ∈ skip ↔ Listed entries p := (memKept p).trans (same p)
    refine ⟨⟨lo, hi, skip⟩, by rw [ephemeralOf_render range, readSkip]; rfl, mem, ?_⟩
    intro answer start port low high returned listed
    exact (search_free low high returned).2.1 ((mem port).mpr listed)

/-- A short list whose last entry is a range. -/
theorem readEphemeral_reserves_short :
    Reserves "32768\t60999\n".toList [.single 32770, .range 40000 40002] ↔
      Survives [.single 32770, .range 40000 40002] :=
  @readEphemeral_reserves_iff _ 32768 60999 (by decide +kernel) _

/-- Every second port from 32768 on, 103 of them: a text of 617 characters. -/
def everySecond : List Entry := (List.range 103).map fun i => .single (32768 + 2 * i)

/-- The first 85 of them, and 32. -/
def everySecondRead : List Entry :=
  (List.range 85).map (fun i => .single (32768 + 2 * i)) ++ [.single 32]

theorem everySecond_leaves : Leaves everySecond everySecondRead := .inl (by decide +kernel)

/-- The text is cut within the 86th port: 32 is taken for reserved, and the last port is handed out. -/
theorem readEphemeral_not_reserves :
    (∃ ephemeral, ephemeralOf "32768\t60999\n".toList (render everySecond) =
        .ok ephemeral ∧ Listed everySecond 32972 ∧
      (search ephemeral (fun _ => none) 32972).1 = .ok 32972) ∧
    ¬ Reserves "32768\t60999\n".toList everySecond := by
  have range : readRange "32768\t60999\n".toList = .ok (32768, 60999) := by decide +kernel
  obtain ⟨skip, ran, mem⟩ := readReserved_leaves everySecond_leaves
  have result : ephemeralOf "32768\t60999\n".toList (render everySecond) =
      .ok ⟨32768, 60999, skip⟩ := by
    rw [ephemeralOf_render range, ran]
    rfl
  have listed : Listed everySecond 32972 := by decide +kernel
  have skipped : (32972 : Int) ∉ skip := by
    rw [mem]
    decide +kernel
  have low : (32768 : Int) ≤ 32972 := by decide
  have high : (32972 : Int) ≤ 60999 := by decide
  refine ⟨⟨_, result, listed, search_first low high ⟨⟨low, high⟩, skipped, rfl⟩⟩, ?_⟩
  · rintro ⟨ephemeral, returned, exact, -⟩
    rw [result] at returned
    cases returned
    exact skipped ((exact 32972).mpr listed)

/-! ## The lists that the kernel prints -/

def Entry.last : Entry → Nat
  | .single port => port
  | .range _ last => last

/-- A range has more than one port. -/
def Entry.Proper : Entry → Prop
  | .single _ => True
  | .range first last => first < last

/-- No port is in two entries of the list. -/
def Separate (entries : List Entry) : Prop :=
  entries.Pairwise fun a b => ∀ p, a.Covers p → ¬ b.Covers p

theorem Entry.covers_last {entry : Entry} (proper : entry.Proper) : entry.Covers entry.last := by
  cases entry with
  | single port => exact rfl
  | range first last => exact ⟨Int.ofNat_le.mpr (Nat.le_of_lt proper), le_refl _⟩

theorem Shortened.not_covers {entry shorter : Entry} (shortened : Shortened entry shorter)
    (proper : entry.Proper) : ¬ shorter.Covers entry.last := by
  cases shortened with
  | single less =>
    simp only [Entry.Covers, Entry.last]
    omega
  | first less =>
    simp only [Entry.Covers, Entry.last, Entry.Proper] at proper ⊢
    omega
  | last less =>
    simp only [Entry.Covers, Entry.last]
    omega

/-- The last port of an entry is not in the entries before it. -/
theorem not_listed_before {before after : List Entry} {entry : Entry} (proper : entry.Proper)
    (separate : Separate (before ++ entry :: after)) : ¬ Listed before entry.last := by
  rintro ⟨other, among, covers⟩
  have apart := (List.pairwise_append.mp separate).2.2 other among entry List.mem_cons_self
  exact apart _ covers (Entry.covers_last proper)

theorem Leaves.listed_iff {entries kept others : List Entry} (leaves : Leaves entries kept)
    (same : Leaves entries others) (p : Int) : Listed kept p ↔ Listed others p := by
  -- both are the ports of the set that is read
  obtain ⟨skip, ran, mem⟩ := readReserved_leaves leaves
  obtain ⟨_, ranOthers, memOthers⟩ := readReserved_leaves same
  rw [ran] at ranOthers
  cases ranOthers
  exact (mem p).symm.trans (memOthers p)

/-- The last port of an entry of a list that survives is among those that are left. -/
theorem Survives.last_listed {before after kept : List Entry} {entry : Entry}
    (survives : Survives (before ++ entry :: after)) (proper : entry.Proper)
    (left : Leaves (before ++ entry :: after) kept) : Listed kept entry.last := by
  obtain ⟨others, leaves, same⟩ := survives
  have listed : Listed (before ++ entry :: after) entry.last :=
    ⟨entry, by simp, Entry.covers_last proper⟩
  exact (leaves.listed_iff left _).mp ((same _).mpr listed)

theorem Survives.length_le {entries : List Entry} (survives : Survives entries)
    (proper : ∀ entry ∈ entries, entry.Proper) (separate : Separate entries) :
    (body entries).length ≤ 512 := by
  have cut := cut_take entries 512
  generalize left : (body entries).take 512 = text at cut
  cases cut with
  | between before after =>
    cases after with
    | nil =>
      rw [List.append_nil] at left ⊢
      rw [← left]
      exact List.length_take_le 512 _
    | cons entry after =>
      have entryProper := proper entry (by simp)
      exact absurd (survives.last_listed entryProper (.inl left))
        (not_listed_before entryProper separate)
  | @comma before after some more =>
    cases after with
    | nil => exact absurd rfl more
    | cons entry after =>
      have entryProper := proper entry (by simp)
      exact absurd (survives.last_listed entryProper (.inr left))
        (not_listed_before entryProper separate)
  | @inside before after entry shorter less =>
    -- neither the entries before nor what is left of the entry covers its last port
    have entryProper := proper entry (by simp)
    obtain ⟨other, among, covers⟩ := survives.last_listed entryProper (.inl left)
    rcases List.mem_append.mp among with inBefore | last
    · exact absurd ⟨other, inBefore, covers⟩ (not_listed_before entryProper separate)
    · rw [List.mem_singleton.mp last] at covers
      exact absurd covers (less.not_covers entryProper)
  | dash before after entry first =>
    obtain ⟨kept, leaves, -⟩ := survives
    obtain ⟨skip, ran, -⟩ := readReserved_leaves leaves
    rw [readReserved_render, left, foldlM_dash] at ran
    cases ran

/-- In a list without repetition every port matters. -/
theorem survives_iff_short {entries : List Entry} (proper : ∀ entry ∈ entries, entry.Proper)
    (separate : Separate entries) : Survives entries ↔ (body entries).length ≤ 512 := by
  constructor
  · intro survives
    exact survives.length_le proper separate
  · intro short
    exact ⟨entries, .inl (List.take_of_length_le short), fun _ => Iff.rfl⟩

end CloudflareBlog.Connectx

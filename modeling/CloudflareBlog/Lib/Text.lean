import Mathlib.Data.List.DropRight

/-!
# Text and decimal numbers

Python's `strip`, `split` and `int` on lists of ASCII characters, and what they do to numbers that are
written in decimal.
-/

namespace CloudflareBlog.Lib.Text

/-- White space to `str.strip` and `str.split`. -/
def isSpace (c : Char) : Bool := decide (9 ≤ c.toNat ∧ c.toNat ≤ 13 ∨ 28 ≤ c.toNat ∧ c.toNat ≤ 32)

/-- White space around a number: `int` does not know the separators 28 to 31. -/
def isNumberSpace (c : Char) : Bool := decide (9 ≤ c.toNat ∧ c.toNat ≤ 13 ∨ c.toNat = 32)

def stripOf (space : Char → Bool) (text : List Char) : List Char :=
  (text.dropWhile space).rdropWhile space

/-- `str.strip`. -/
def strip (text : List Char) : List Char := stripOf isSpace text

/-- `str.split` without a separator. -/
def words (text : List Char) : List (List Char) :=
  (text.splitOnP isSpace).filter (· ≠ [])

/-- Digits, with an underscore at most between two of them. -/
def decimal (text : List Char) : Option Nat :=
  let groups := text.splitOn '_'
  if groups.all fun group => group ≠ [] && group.all Char.isDigit
  then some (Nat.ofDigitChars 10 groups.flatten 0)
  else none

/-- `int` of a text, `none` where it raises `ValueError`. -/
def int (text : List Char) : Option Int :=
  match stripOf isNumberSpace text with
  | '-' :: digits => (decimal digits).map fun value => -Int.ofNat value
  | '+' :: digits => (decimal digits).map Int.ofNat
  | digits => (decimal digits).map Int.ofNat

/-! ## White space -/

theorem stripOf_append {space : Char → Bool} {text blank : List Char}
    (solid : ∀ c ∈ text, space c = false) (blanks : ∀ c ∈ blank, space c = true) :
    stripOf space (text ++ blank) = text := by
  have trailing : (text ++ blank).rdropWhile space = text := by
    induction blank using List.reverseRecOn with
    | nil =>
      rw [List.append_nil, List.rdropWhile_eq_self_iff]
      intro nonempty
      rw [solid _ (List.getLast_mem nonempty)]
      exact Bool.false_ne_true
    | append_singleton blank c inductionHypothesis =>
      rw [← List.append_assoc, List.rdropWhile_concat_pos _ _ _ (blanks c (by simp))]
      exact inductionHypothesis fun other among => blanks other (by simp [among])
  cases text with
  | nil =>
    have nothing : blank.dropWhile space = [] := by simpa using blanks
    rw [stripOf, List.nil_append, nothing]
    rfl
  | cons first rest =>
    rw [stripOf, List.cons_append, List.dropWhile_cons_of_neg (by simp [solid first]),
      ← List.cons_append]
    exact trailing

theorem stripOf_solid {space : Char → Bool} {text : List Char}
    (solid : ∀ c ∈ text, space c = false) : stripOf space text = text := by
  have padded : stripOf space (text ++ []) = text := stripOf_append solid (by simp)
  rwa [List.append_nil] at padded

/-! ## Digits -/

theorem isSpace_digit {c : Char} (digit : c.isDigit = true) : isSpace c = false := by
  have bounds : 48 ≤ c.toNat ∧ c.toNat ≤ 57 := Char.isDigit_iff_toNat.mp digit
  simp only [isSpace, decide_eq_false_iff_not]
  omega

theorem isNumberSpace_digit {c : Char} (digit : c.isDigit = true) : isNumberSpace c = false := by
  have bounds : 48 ≤ c.toNat ∧ c.toNat ≤ 57 := Char.isDigit_iff_toNat.mp digit
  simp only [isNumberSpace, decide_eq_false_iff_not]
  omega

theorem not_mem_toDigits {c : Char} (other : c.isDigit = false) (n : Nat) :
    c ∉ Nat.toDigits 10 n := by
  intro among
  rw [Nat.isDigit_of_mem_toDigits (by decide) (by decide) among] at other
  exact Bool.noConfusion other

theorem decimal_toDigits (n : Nat) : decimal (Nat.toDigits 10 n) = some n := by
  have whole : (Nat.toDigits 10 n).splitOn '_' = [Nat.toDigits 10 n] :=
    List.splitOn_eq_singleton Nat.underscore_not_in_toDigits
  have digits : ∀ c ∈ Nat.toDigits 10 n, c.isDigit = true := fun c among =>
    Nat.isDigit_of_mem_toDigits (by decide) (by decide) among
  simp only [decimal, whole]
  rw [if_pos (by simpa using digits)]
  simp

@[simp] theorem int_toDigits (n : Nat) : int (Nat.toDigits 10 n) = some (n : Int) := by
  have digits : ∀ c ∈ Nat.toDigits 10 n, c.isDigit = true := fun c among =>
    Nat.isDigit_of_mem_toDigits (by decide) (by decide) among
  have solid := stripOf_solid fun c among => isNumberSpace_digit (digits c among)
  simp only [int, solid]
  split
  case h_1 rest shape => simp [shape] at digits
  case h_2 rest shape => simp [shape] at digits
  case h_3 => rw [decimal_toDigits, Option.map_some, Int.ofNat_eq_natCast]

@[simp] theorem int_nil : int [] = none := by decide +kernel

theorem take_toDigits (n count : Nat) (some : 0 < count)
    (short : count < (Nat.toDigits 10 n).length) :
    ∃ m < n, (Nat.toDigits 10 n).take count = Nat.toDigits 10 m := by
  induction n using Nat.strongRecOn with
  | ind n inductionHypothesis =>
    by_cases small : n < 10
    · rw [Nat.toDigits_of_lt_base small, List.length_singleton] at short
      omega
    · have split := Nat.toDigits_of_base_le (b := 10) (n := n) (by decide) (by omega)
      have less : n / 10 < n := by omega
      rw [split, List.length_append, List.length_singleton] at short
      rw [split]
      by_cases whole : count = (Nat.toDigits 10 (n / 10)).length
      · exact ⟨n / 10, less, by rw [whole, List.take_left']; rfl⟩
      · obtain ⟨m, smaller, cut⟩ := inductionHypothesis (n / 10) less (by omega)
        exact ⟨m, by omega, by rw [List.take_append_of_le_length (by omega), cut]⟩

end CloudflareBlog.Lib.Text

import CloudflareBlog.Lib.Text
import Mathlib.Algebra.Group.Int.Defs
import Mathlib.Algebra.Group.Nat.Defs

/-!
# Text and decimal numbers of C

`strrchr`, `strtol` and the `%i` of `snprintf`, on the characters of a string before its end, and how
they read back what is written with a separator (`strrchr_append`, `strtol_printInt`).
-/

namespace CloudflareBlog.Lib.CString

open Text

/-- `strrchr`, as the index of the last occurrence. -/
def strrchr (text : List Char) (c : Char) : Option Nat :=
  match text with
  | [] => none
  | first :: rest =>
    match strrchr rest c with
    | some index => some (index + 1)
    | none => if first = c then some 0 else none

/-- The range of a `long`. -/
def clamp (value : Int) : Int := max (-2 ^ 63) (min (2 ^ 63 - 1) value)

/-- `strtol` in base ten, and the text behind the number.  Without a digit nothing is read. -/
def strtol (text : List Char) : Int × List Char :=
  let (sign, unsigned) : Int × List Char :=
    match text.dropWhile isNumberSpace with
    | '-' :: rest => (-1, rest)
    | '+' :: rest => (1, rest)
    | rest => (1, rest)
  let digits := unsigned.takeWhile Char.isDigit
  if digits = [] then (0, text)
  else (clamp (sign * Nat.ofDigitChars 10 digits 0), unsigned.dropWhile Char.isDigit)

/-- `%i`. -/
def printInt : Int → List Char
  | .ofNat value => Nat.toDigits 10 value
  | .negSucc value => '-' :: Nat.toDigits 10 (value + 1)

/-- What `snprintf` leaves of a text in a buffer. -/
def snprintf (size : Nat) (text : List Char) : List Char := text.take (size - 1)

theorem snprintf_of_lt {size : Nat} {text : List Char} (fits : text.length < size) :
    snprintf size text = text :=
  List.take_of_length_le (by omega)

theorem strrchr_of_not_mem {text : List Char} {c : Char} (absent : c ∉ text) :
    strrchr text c = none := by
  induction text with
  | nil => rfl
  | cons first rest inductionHypothesis =>
    obtain ⟨other, absent⟩ := List.ne_and_not_mem_of_not_mem_cons absent
    rw [strrchr, inductionHypothesis absent]
    exact if_neg (Ne.symm other)

/-- What is behind the separator has none, so it is the last one. -/
theorem strrchr_append {behind : List Char} {c : Char} (absent : c ∉ behind) (before : List Char) :
    strrchr (before ++ c :: behind) c = some before.length := by
  induction before with
  | nil =>
    rw [List.nil_append, strrchr, strrchr_of_not_mem absent]
    exact if_pos rfl
  | cons first rest inductionHypothesis =>
    rw [List.cons_append, strrchr, inductionHypothesis, List.length_cons]

theorem not_mem_printInt {c : Char} (other : c.isDigit = false) (value : Nat) :
    c ∉ printInt value :=
  not_mem_toDigits other value

theorem printInt_ne_nil (value : Nat) : printInt value ≠ [] :=
  Nat.toDigits_ne_nil

theorem length_printInt_le {value count : Nat} (some : 0 < count) (bound : value < 10 ^ count) :
    (printInt value).length ≤ count :=
  (Nat.length_toDigits_le_iff (by decide) some).mpr bound

/-- A number that is a `long` is read back. -/
theorem strtol_printInt {value : Nat} (bound : value < 2 ^ 63) :
    strtol (printInt value) = ((value : Int), []) := by
  have digits : ∀ c ∈ printInt value, c.isDigit = true := fun c among =>
    Nat.isDigit_of_mem_toDigits (by decide) (by decide) among
  have noSpace : (printInt value).dropWhile isNumberSpace = printInt value := by
    rw [List.dropWhile_eq_self_iff]
    intro nonempty
    simp [isNumberSpace_digit (digits _ (List.getElem_mem nonempty))]
  have whole : (printInt value).takeWhile Char.isDigit = printInt value :=
    List.takeWhile_eq_self_iff.mpr digits
  have nothing : (printInt value).dropWhile Char.isDigit = [] := List.dropWhile_eq_nil_iff.mpr digits
  have read : Nat.ofDigitChars 10 (printInt value) 0 = value := Nat.ofDigitChars_ten_toDigits
  have inRange : clamp value = value := by
    unfold clamp
    omega
  simp only [strtol, noSpace]
  split
  case h_1 rest shape => simp [shape] at digits
  case h_2 rest shape => simp [shape] at digits
  case h_3 => simp [whole, nothing, read, inRange, printInt_ne_nil]

end CloudflareBlog.Lib.CString

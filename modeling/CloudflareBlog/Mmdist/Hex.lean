import Mathlib.Data.List.TakeWhile
import CloudflareBlog.Mmdist.Queries

/-!
# The language of `parse_hex`

Pairs of hexadecimal digits with blanks anywhere between them, up to a zero byte.  `parse_hex` reads
this language except in two places: it sets the bit `0x20` of a character before it compares it, so
that the bytes from `0x10` to `0x19` pass for the digits `0` to `9`; and it looks for the second
character of a pair before it looks at the first one, so that a bad character that ends the string
is reported as a missing digit (`parseHex_conforms_iff`).
-/

namespace CloudflareBlog.Mmdist

open CloudflareBlog.Lib.Buffer

/-! ## The grammar -/

/-- The string without its blanks. -/
def significant (s : List Byte) : List Byte := s.filter (· ≠ 32)

/-- `0` to `9`, `a` to `f`, `A` to `F`. -/
def HexDigit (a : Byte) : Prop := (48 ≤ a ∧ a ≤ 57) ∨ (97 ≤ a ∧ a ≤ 102) ∨ (65 ≤ a ∧ a ≤ 70)

instance (a : Byte) : Decidable (HexDigit a) := inferInstanceAs (Decidable (_ ∨ _ ∨ _))

def hexValue (a : Byte) : BitVec 4 :=
  if a ≤ 57 then (a - 48).setWidth 4
  else if a ≤ 70 then (a - 65 + 10).setWidth 4
  else (a - 97 + 10).setWidth 4

/-- The bytes that pairs of digits stand for, the high half first. -/
def pairValues : List Byte → List Byte
  | a :: b :: rest => (hexValue a ++ hexValue b) :: pairValues rest
  | _ => []

/-- The string begins with `n` pairs of digits. -/
def StartsWithPairs (cs : List Byte) (n : Nat) : Prop :=
  2 * n ≤ cs.length ∧ ∀ a ∈ cs.take (2 * n), HexDigit a

/-! ## Reads -/

/-- `while (a == ' ') a = *src++`, where `src` is all there is to read. -/
def nextCharWithin : List Byte → Option (Byte × List Byte)
  | [] => none
  | a :: src => if a = 32 then nextCharWithin src else some (a, src)

/-- The loop of `parse_hex`, where `src` is all there is to read: no result if it reads behind it. -/
def parseHexWithin : Nat → List Byte → List Byte → Option (Int × List Byte)
  | 0, _, dst => some (dst.length, dst)
  | rounds + 1, src, dst =>
    match nextCharWithin src with
    | none => none
    | some (a, src) =>
      if a = 0 then some (dst.length, dst)
      else
        match nextCharWithin src with
        | none => none
        | some (b, src) =>
          if b = 0 then some (-1, dst)
          else
            let a1 := digit (a ||| 0x20)
            let b1 := digit (b ||| 0x20)
            if a1 = 0x100 ∨ b1 = 0x100 then some (-2, dst)
            else parseHexWithin rounds src (dst ++ [((a1 <<< 4) ||| b1).setWidth 8])

/-- What `parse_hex` does on a string that a zero byte ends, when it is asked for so many pairs, is
what the grammar calls for. -/
structure Conforms (s : List Byte) (max : Nat) : Prop where
  accepts : ∀ n : Nat, (parseHex s max).1 = n ↔
    n ≤ max ∧ StartsWithPairs (significant s) n ∧ (n = max ∨ (significant s).length = 2 * n)
  written : ∀ n : Nat, (parseHex s max).1 = n →
    (parseHex s max).2 = pairValues ((significant s).take (2 * n))
  odd : (parseHex s max).1 = -1 ↔
    (significant s).length < 2 * max ∧ (significant s).length % 2 = 1 ∧
      ∀ a ∈ significant s, HexDigit a
  invalid : (parseHex s max).1 = -2 ↔ ∃ a ∈ (significant s).take (2 * max), ¬ HexDigit a
  inside : parseHexWithin max (s ++ [0]) [] = some (parseHex s max)

/-! ## Digits -/

/-- What passes for a digit. -/
def Passes (a : Byte) : Prop := HexDigit a ∨ (0x10 ≤ a ∧ a ≤ 0x19)

instance (a : Byte) : Decidable (Passes a) := inferInstanceAs (Decidable (_ ∨ _))

theorem digit_invalid_iff : ∀ a : Byte, digit (a ||| 0x20) = 0x100 ↔ ¬ Passes a := by
  decide +kernel

theorem digit_hexDigit : ∀ a : Byte, HexDigit a →
    digit (a ||| 0x20) = (hexValue a).setWidth 32 := by
  decide +kernel

theorem join_nibbles : ∀ high low : BitVec 4,
    ((high.setWidth 32 <<< 4) ||| low.setWidth 32).setWidth 8 = high ++ low := by
  decide +kernel

theorem HexDigit.passes {a : Byte} (digit : HexDigit a) : Passes a := .inl digit

/-! ## The loop on the significant characters -/

/-- The loop of `parse_hex` without blanks. -/
def parsePairs : Nat → List Byte → List Byte → Int × List Byte
  | 0, _, dst => (dst.length, dst)
  | _ + 1, [], dst => (dst.length, dst)
  | _ + 1, [_], dst => (-1, dst)
  | rounds + 1, a :: b :: cs, dst =>
    if Passes a ∧ Passes b then
      parsePairs rounds cs
        (dst ++ [((digit (a ||| 0x20) <<< 4) ||| digit (b ||| 0x20)).setWidth 8])
    else (-2, dst)

/-- `nextChar` finds the first significant character, or the zero byte at the end. -/
theorem nextChar_cases (s : List Byte) :
    (significant s = [] ∧ nextChar s = (0, []) ∧ nextCharWithin (s ++ [0]) = some (0, [])) ∨
      ∃ a rest, significant s = a :: significant rest ∧ nextChar s = (a, rest) ∧
        nextCharWithin (s ++ [0]) = some (a, rest ++ [0]) := by
  induction s with
  | nil => exact .inl ⟨rfl, rfl, rfl⟩
  | cons c s inductionHypothesis =>
    by_cases blank : c = 32
    · have skips : significant (c :: s) = significant s :=
        List.filter_cons_of_neg (by simp [blank])
      rw [skips, nextChar, if_pos blank, List.cons_append, nextCharWithin, if_pos blank]
      exact inductionHypothesis
    · refine .inr ⟨c, s, List.filter_cons_of_pos (by simpa using blank), ?_, ?_⟩
      · rw [nextChar, if_neg blank]
      · rw [List.cons_append, nextCharWithin, if_neg blank]

theorem zero_notMem_significant {s : List Byte} (ends : 0 ∉ s) : 0 ∉ significant s :=
  fun among => ends (List.mem_of_mem_filter among)

/-- Without a zero byte in the string, the loop goes through its significant characters, and reads
nothing behind the zero byte that ends it. -/
theorem parseHexLoop_eq (rounds : Nat) {s : List Byte} (ends : 0 ∉ significant s) (dst : List Byte) :
    parseHexLoop rounds s dst = parsePairs rounds (significant s) dst ∧
      parseHexWithin rounds (s ++ [0]) dst = some (parsePairs rounds (significant s) dst) := by
  induction rounds generalizing s dst with
  | zero => exact ⟨rfl, rfl⟩
  | succ rounds inductionHypothesis =>
    rw [parseHexLoop, parseHexWithin]
    obtain ⟨empty, next, within⟩ | ⟨a, afterA, firstA, nextA, withinA⟩ := nextChar_cases s
    · -- the string has ended where a pair may begin
      simp only [next, within, empty, parsePairs, if_true, and_self]
    · rw [firstA, List.mem_cons, not_or] at ends
      obtain ⟨nonzeroA, ends⟩ := ends
      simp only [nextA, withinA, firstA, if_neg (Ne.symm nonzeroA)]
      obtain ⟨empty, next, within⟩ | ⟨b, afterB, firstB, nextB, withinB⟩ := nextChar_cases afterA
      · -- it has ended within a pair
        simp only [next, within, empty, parsePairs, if_true, and_self]
      · rw [firstB, List.mem_cons, not_or] at ends
        obtain ⟨nonzeroB, ends⟩ := ends
        simp only [nextB, withinB, firstB, if_neg (Ne.symm nonzeroB), parsePairs,
          digit_invalid_iff, ← not_and_or]
        by_cases pass : Passes a ∧ Passes b
        · simp only [pass, and_self, not_true_eq_false, if_false, if_true]
          exact inductionHypothesis ends _
        · simp only [pass, not_false_eq_true, if_true, if_false, and_self]

/-! ## What the loop returns -/

theorem take_pair (rounds : Nat) (a b : Byte) (cs : List Byte) :
    (a :: b :: cs).take (2 * (rounds + 1)) = a :: b :: cs.take (2 * rounds) := rfl

/-- On digits, the loop returns what the grammar calls for. -/
theorem parsePairs_digits {rounds : Nat} {cs : List Byte}
    (valid : ∀ a ∈ cs.take (2 * rounds), HexDigit a) (dst : List Byte) :
    parsePairs rounds cs dst =
      (if cs.length < 2 * rounds ∧ cs.length % 2 = 1 then -1
        else ((dst.length + (cs.take (2 * rounds)).length / 2 : Nat) : Int),
      dst ++ pairValues (cs.take (2 * rounds))) := by
  induction rounds generalizing cs dst with
  | zero => simp [parsePairs, pairValues]
  | succ rounds inductionHypothesis =>
    match cs with
    | [] => simp [parsePairs, pairValues]
    | [a] =>
      -- a digit without a partner
      have short : [a].length < 2 * (rounds + 1) ∧ [a].length % 2 = 1 := ⟨by simp; omega, rfl⟩
      rw [parsePairs, if_pos short, List.take_of_length_le (Nat.le_of_lt short.1), pairValues,
        List.append_nil]
      simp
    | a :: b :: cs =>
      rw [take_pair] at valid ⊢
      have digitA : HexDigit a := valid a List.mem_cons_self
      have digitB : HexDigit b := valid b (by simp)
      have later := @inductionHypothesis cs
        (fun c among => valid c (List.mem_cons_of_mem _ (List.mem_cons_of_mem _ among)))
        (dst ++ [hexValue a ++ hexValue b])
      rw [parsePairs, if_pos ⟨digitA.passes, digitB.passes⟩, digit_hexDigit a digitA,
        digit_hexDigit b digitB, join_nibbles, later, pairValues]
      refine Prod.ext ?_ (List.append_assoc _ _ _)
      simp only [List.length_cons, List.length_append, List.length_nil]
      split <;> split <;> omega

/-- A character that does not pass for a digit is found among the pairs: the first such one is not
the unpaired last character of the string. -/
def InvalidFound (cs : List Byte) (max : Nat) : Prop :=
  let passing := (cs.take (2 * max)).takeWhile (fun a => decide (Passes a))
  passing.length < (cs.take (2 * max)).length ∧
    ¬ (passing.length % 2 = 0 ∧ passing.length + 1 = cs.length)

/-- The loop reports an invalid character if and only if one is found. -/
theorem parsePairs_invalid_iff (rounds : Nat) (cs dst : List Byte) :
    (parsePairs rounds cs dst).1 = -2 ↔ InvalidFound cs rounds := by
  induction rounds generalizing cs dst with
  | zero =>
    simp only [parsePairs, InvalidFound, Nat.mul_zero, List.take_zero, List.length_nil]
    omega
  | succ rounds inductionHypothesis =>
    match cs with
    | [] =>
      simp only [parsePairs, InvalidFound, List.take_nil, List.length_nil]
      omega
    | [a] =>
      have whole : [a].take (2 * (rounds + 1)) = [a] := List.take_of_length_le (by simp; omega)
      by_cases pass : Passes a <;> simp [parsePairs, InvalidFound, whole, pass]
    | a :: b :: cs =>
      rw [parsePairs, InvalidFound, take_pair]
      by_cases passA : Passes a
      · by_cases passB : Passes b
        · rw [if_pos ⟨passA, passB⟩, inductionHypothesis, InvalidFound]
          simp only [List.takeWhile_cons, passA, passB, decide_true, if_true, List.length_cons]
          omega
        · rw [if_neg fun both => passB both.2]
          simp [passA, passB]
      · rw [if_neg fun both => passA both.1]
        simp [passA]

theorem InvalidFound.exists_invalid {cs : List Byte} {max : Nat} (found : InvalidFound cs max) :
    ∃ a ∈ cs.take (2 * max), ¬ HexDigit a := by
  by_contra none
  have all : ∀ a ∈ cs.take (2 * max), decide (Passes a) = true := by
    intro a among
    by_contra invalid
    exact none ⟨a, among, fun digit => invalid (decide_eq_true digit.passes)⟩
  have whole := List.takeWhile_eq_self_iff.mpr all
  rw [InvalidFound, whole] at found
  exact Nat.lt_irrefl _ found.1

/-! ## The language -/

theorem parseHex_eq {s : List Byte} (ends : 0 ∉ s) (max : Nat) :
    parseHex s max = parsePairs max (significant s) [] :=
  (parseHexLoop_eq max (zero_notMem_significant ends) []).1

theorem parseHex_inside {s : List Byte} (ends : 0 ∉ s) (max : Nat) :
    parseHexWithin max (s ++ [0]) [] = some (parseHex s max) := by
  rw [parseHex_eq ends]
  exact (parseHexLoop_eq max (zero_notMem_significant ends) []).2

theorem conforms_of_digits {s : List Byte} (ends : 0 ∉ s) {max : Nat}
    (valid : ∀ a ∈ (significant s).take (2 * max), HexDigit a) : Conforms s max := by
  have parsed := parseHex_eq ends max
  rw [parsePairs_digits valid, List.length_nil, List.nil_append, Nat.zero_add] at parsed
  have length : ((significant s).take (2 * max)).length = min (2 * max) (significant s).length :=
    List.length_take
  -- all characters are digits, so only the number of them matters
  refine ⟨fun n => ?_, fun n accepted => ?_, ?_, ?_, parseHex_inside ends max⟩
  · rw [parsed, length]
    constructor
    · intro accepted
      have bounds : n ≤ max ∧ 2 * n ≤ (significant s).length ∧
          (n = max ∨ (significant s).length = 2 * n) := by
        split at accepted <;> omega
      exact ⟨bounds.1, ⟨bounds.2.1, fun a among => valid a
        (List.take_subset_take_left _ (Nat.mul_le_mul_left 2 bounds.1) among)⟩, bounds.2.2⟩
    · rintro ⟨bounded, ⟨enough, -⟩, complete⟩
      split <;> omega
  · rw [parsed] at accepted ⊢
    rw [length] at accepted
    have same : min (2 * max) (significant s).length = min (2 * n) (significant s).length := by
      split at accepted <;> omega
    simp only
    rw [List.take_eq_take_iff.mpr same]
  · rw [parsed, length]
    constructor
    · intro odd
      have bounds : (significant s).length < 2 * max ∧ (significant s).length % 2 = 1 := by
        split at odd <;> omega
      rw [List.take_of_length_le (Nat.le_of_lt bounds.1)] at valid
      exact ⟨bounds.1, bounds.2, valid⟩
    · rintro ⟨short, odd, -⟩
      rw [if_pos ⟨short, odd⟩]
  · -- no invalid character is there to be reported
    refine iff_of_false ?_ ?_
    · rw [parsed]
      split <;> omega
    · rintro ⟨a, among, invalid⟩
      exact invalid (valid a among)

theorem conforms_of_found {s : List Byte} (ends : 0 ∉ s) {max : Nat}
    (found : InvalidFound (significant s) max) : Conforms s max := by
  have result : (parseHex s max).1 = -2 := by
    rw [parseHex_eq ends]
    exact (parsePairs_invalid_iff _ _ _).mpr found
  obtain ⟨a, among, invalid⟩ := found.exists_invalid
  refine ⟨fun n => ?_, fun n accepted => ?_, ?_, iff_of_true result ⟨a, among, invalid⟩,
    parseHex_inside ends max⟩
  · refine iff_of_false (by omega) ?_
    rintro ⟨bounded, ⟨enough, digits⟩, rfl | short⟩
    · exact invalid (digits a among)
    · rw [← short, List.take_length] at digits
      exact invalid (digits a (List.mem_of_mem_take among))
  · omega
  · refine iff_of_false (by omega) ?_
    rintro ⟨-, -, digits⟩
    exact invalid (digits a (List.mem_of_mem_take among))

/-- `parse_hex` conforms to the grammar if and only if the characters that it may need are all
digits, or one that does not even pass for a digit is found among them. -/
theorem parseHex_conforms_iff (s : List Byte) (ends : 0 ∉ s) (max : Int) :
    Conforms s max.toNat ↔
      (∀ a ∈ (significant s).take (2 * max.toNat), HexDigit a) ∨
        InvalidFound (significant s) max.toNat := by
  constructor
  · intro conforms
    by_cases valid : ∀ a ∈ (significant s).take (2 * max.toNat), HexDigit a
    · exact .inl valid
    · right
      push Not at valid
      rw [← parsePairs_invalid_iff _ _ [], ← parseHex_eq ends]
      exact conforms.invalid.mpr valid
  · rintro (valid | found)
    · exact conforms_of_digits ends valid
    · exact conforms_of_found ends found

/-- `1 F0`, asked for one pair. -/
theorem parseHex_conforms_iff_pair : Conforms [49, 32, 70, 48] 1 :=
  (parseHex_conforms_iff [49, 32, 70, 48] (by decide) 1).mpr (.inl (by decide))

/-- The bytes `0x10` and `0x11` are read as `01`, and `g` as an odd digit. -/
theorem parseHex_not_conforms : ¬ Conforms [0x10, 0x11] 1 ∧ ¬ Conforms [103] 1 := by
  constructor
  · intro conforms
    have invalid := conforms.invalid.mpr ⟨0x10, by decide, by decide⟩
    exact absurd invalid (by decide)
  · intro conforms
    have invalid := conforms.invalid.mpr ⟨103, by decide, by decide⟩
    exact absurd invalid (by decide)

example : parseHex [0x10, 0x11] 1 = (1, [0x01]) ∧ parseHex [103] 1 = (-1, []) := by decide

end CloudflareBlog.Mmdist

import CloudflareBlog.Mmdist.Hex
import CloudflareBlog.Mmdist.Saturating

/-!
# The ends of the mmdist programs

Behind its loop each program divides the time it took by the number of queries.  The number is an
`int` which the loop has counted up, and the division is one of integers; the figures computed
from its result are floating point, where a division by zero does not trap.  So the programs get to
their last line if and only if there was a query, and not more of them than an `int` counts
(`finishes_iff`).
-/

namespace CloudflareBlog.Mmdist

open CloudflareBlog.Lib.Buffer

/-- The programs, with the threshold that some of them take as an argument. -/
inductive Program where
  | naive
  | naiveAvx2
  | batchAvx2
  | shortAvx2 (argument : Option (BitVec 32))
  | shortInv (argument : Option (BitVec 32))
  | shortInvAvx2 (argument : Option (BitVec 32))

def Program.main : Program → Database → Stdin → Output
  | naive => Naive.main
  | naiveAvx2 => NaiveAvx2.main
  | batchAvx2 => BatchAvx2.main
  | shortAvx2 argument => ShortAvx2.main argument
  | shortInv argument => ShortInv.main argument
  | shortInvAvx2 argument => ShortInvAvx2.main argument

/-! ## The summary -/

/-- `count`, after additions that come to `total`.  None of them is of a negative number, so one of
them overflows if and only if the sum does not fit. -/
def countInt (total : Nat) : Option (BitVec 32) :=
  if total < 2 ^ 31 then some (BitVec.ofNat 32 total) else none

/-- `td / count`, for which `count` becomes a `uint64_t`. -/
def nsPerQuery (td : BitVec 64) (count : BitVec 32) : Option (BitVec 64) :=
  let divisor := count.signExtend 64
  if divisor = 0 then none else some (td / divisor)

/-- What the last line is computed from. -/
structure Summary where
  td : BitVec 64
  count : BitVec 32
  nsPerQuery : BitVec 64
  deriving DecidableEq

/-- The statements behind the loop; the other endings do not reach them. -/
def summary (td : BitVec 64) : Ending → Option Summary
  | .finished total => do
    let count ← countInt total
    let nsPerQuery ← nsPerQuery td count
    return ⟨td, count, nsPerQuery⟩
  | .badLine => none
  | .alignError => none

theorem nsPerQuery_of_small (td : BitVec 64) {total : Nat} (small : total < 2 ^ 31) :
    nsPerQuery td (BitVec.ofNat 32 total) =
      if total = 0 then none else some (td / BitVec.ofNat 64 total) := by
  have positive : (BitVec.ofNat 32 total).msb = false := by
    rw [BitVec.msb_eq_decide, BitVec.toNat_ofNat, decide_eq_false_iff_not]
    omega
  have divisor : (BitVec.ofNat 32 total).signExtend 64 = BitVec.ofNat 64 total := by
    rw [BitVec.signExtend_eq_setWidth_of_msb_false positive]
    apply BitVec.eq_of_toNat_eq
    rw [BitVec.toNat_setWidth, BitVec.toNat_ofNat, BitVec.toNat_ofNat]
    omega
  have zero : BitVec.ofNat 64 total = 0 ↔ total = 0 := by
    rw [← BitVec.toNat_inj, BitVec.toNat_ofNat]
    change total % 2 ^ 64 = 0 ↔ total = 0
    omega
  rw [nsPerQuery]
  simp only [divisor, zero]

theorem summary_finished (td : BitVec 64) (total : Nat) :
    summary td (.finished total) =
      if 0 < total ∧ total < 2 ^ 31 then
        some ⟨td, BitVec.ofNat 32 total, td / BitVec.ofNat 64 total⟩
      else none := by
  rw [summary, countInt]
  by_cases small : total < 2 ^ 31
  · rw [if_pos small, Option.bind_eq_bind, Option.bind_some, nsPerQuery_of_small td small]
    by_cases empty : total = 0
    · rw [if_pos empty, if_neg fun both => Nat.ne_of_gt both.1 empty]
      rfl
    · rw [if_neg empty, if_pos ⟨Nat.pos_of_ne_zero empty, small⟩]
      rfl
  · rw [if_neg small, if_neg fun both => small both.2]
    rfl

/-! ## The answers -/

/-- What a program is to print for a query. -/
def Program.Answer : Program → Database → (Nat → Byte) → Best → Prop
  | naive, state => Nearest state
  | naiveAvx2, state => Nearest state
  | batchAvx2, state => Nearest state
  | shortAvx2 argument, state => Answers state (threshold argument).toNat
  | shortInv argument, state => Answers state (threshold argument).toNat
  | shortInvAvx2 argument, state => Answers state (min (threshold argument).toNat 65534)

/-- The programs that look at sixteen hashes at a time refuse other numbers of them. -/
def Program.Accepts : Program → Database → Prop
  | shortInv _, state => state.items % laneSize = 0
  | shortInvAvx2 _, state => state.items % laneSize = 0
  | _, _ => True

/-- A program answers the queries one by one and in their order, counts them, and then comes to the
end of its last line, however long it took. -/
def Finishes (program : Program) (state : Database) (lines : List (List Byte)) : Prop :=
  ∃ printed : List Best,
    program.main state (lines.map some) = ⟨printed, .finished lines.length⟩ ∧
      printed.length = lines.length ∧
      List.Forall₂ (program.Answer state) (lines.filterMap parseQuery) printed ∧
      ∀ td, ∃ nsPerQuery,
        summary td (program.main state (lines.map some)).ending =
          some ⟨td, BitVec.ofNat 32 lines.length, nsPerQuery⟩

theorem eachQuery_answers {search : (Nat → Byte) → Best} {Right : (Nat → Byte) → Best → Prop}
    (right : ∀ query, Right query (search query)) {lines : List (List Byte)}
    (valid : ∀ line ∈ lines, (parseQuery line).isSome) :
    ∃ printed, eachQuery search 0 (lines.map some) = ⟨printed, .finished lines.length⟩ ∧
      List.Forall₂ Right (lines.filterMap parseQuery) printed := by
  rw [eachQuery_eq search 0 valid, Nat.zero_add]
  exact ⟨_, rfl, List.forall₂_map_right_iff.mpr (List.forall₂_same.mpr fun query _ => right query)⟩

/-- Whatever the number of lines, a program that accepts the database ends its loop. -/
theorem Program.main_answers {program : Program} {state : Database}
    (accepts : program.Accepts state) {lines : List (List Byte)}
    (valid : ∀ line ∈ lines, (parseQuery line).isSome) :
    ∃ printed, program.main state (lines.map some) = ⟨printed, .finished lines.length⟩ ∧
      List.Forall₂ (program.Answer state) (lines.filterMap parseQuery) printed := by
  -- Two of the programs read their queries one by one, the others in batches.
  cases program with
  | naive =>
    exact eachQuery_answers (fun query => nearest_searchAll toNat_fullDistance state query) valid
  | naiveAvx2 =>
    exact eachQuery_answers (fun query => nearest_searchAll toNat_fullDistanceAvx2 state query) valid
  | batchAvx2 =>
    refine eachBatch_lines _ _ (fun batch j query isEntry _ => ?_) valid
    rw [searchBatch_entry fullDistanceAvx2 state isEntry]
    exact nearest_searchAll toNat_fullDistanceAvx2 state query
  | shortAvx2 argument =>
    exact eachBatch_lines _ _
      (fun batch j query isEntry _ => ShortAvx2.search_answers argument state isEntry) valid
  | shortInv argument =>
    have aligned : state.items % laneSize = 0 := accepts
    rw [Program.main, ShortInv.main, if_neg (not_not_intro aligned)]
    exact eachBatch_lines _ _
      (fun batch j query isEntry _ => ShortInv.search_answers argument aligned isEntry) valid
  | shortInvAvx2 argument =>
    have aligned : state.items % laneSize = 0 := accepts
    rw [Program.main, ShortInvAvx2.main, if_neg (not_not_intro aligned)]
    exact eachBatch_lines _ _
      (fun batch j query isEntry few =>
        ShortInvAvx2.search_answers argument aligned isEntry few) valid

/-- A program that accepts the database and reads queries gets to its end if and only if there is a
query, but not too many to count. -/
theorem finishes_iff (program : Program) (state : Database) (accepts : program.Accepts state)
    (lines : List (List Byte)) (valid : ∀ line ∈ lines, (parseQuery line).isSome) :
    Finishes program state lines ↔ 0 < lines.length ∧ lines.length < 2 ^ 31 := by
  obtain ⟨printed, prints, answers⟩ := program.main_answers accepts valid
  constructor
  · intro finishes
    obtain ⟨-, -, -, -, completes⟩ := finishes
    obtain ⟨nsPerQuery, complete⟩ := completes 0
    by_contra outside
    rw [prints, summary_finished, if_neg outside] at complete
    cases complete
  · intro inside
    have length : (lines.filterMap parseQuery).length = lines.length := by
      rw [List.length_filterMap_eq_countP, List.countP_eq_length.mpr valid]
    refine ⟨printed, prints, by rw [← answers.length_eq, length], answers, fun td => ?_⟩
    rw [prints, summary_finished, if_pos inside]
    exact ⟨_, rfl⟩

/-- A line of 288 digits is a query, whatever follows them. -/
theorem parseQuery_digits {digits rest : List Byte} (sized : digits.length = 288)
    (valid : ∀ a ∈ digits, HexDigit a) (ends : 0 ∉ digits ++ rest) :
    (parseQuery (digits ++ rest)).isSome := by
  have noBlank : ∀ a : Byte, HexDigit a → a ≠ 32 := by
    intro a digit blank
    rw [blank] at digit
    exact absurd digit (by decide)
  -- No digit is a blank, so that all of them stay when the blanks are taken out.
  have front : (significant (digits ++ rest)).take (2 * 144) = digits := by
    rw [significant, List.filter_append,
      List.filter_eq_self.mpr fun a among => by simpa using noBlank a (valid a among)]
    exact List.take_left' sized
  have allDigits : ∀ a ∈ (significant (digits ++ rest)).take (2 * 144), HexDigit a := by
    rw [front]
    exact valid
  have parsed := parsePairs_digits allDigits []
  rw [front, sized, ← parseHex_eq ends] at parsed
  have enough : ¬(significant (digits ++ rest)).length < 2 * 144 := by
    have := congrArg List.length front
    rw [List.length_take, sized] at this
    omega
  rw [if_neg fun short => enough short.1] at parsed
  rw [parseQuery]
  simp only [parsed]
  rfl

/-- Seven queries, which make a full batch and one that is not full. -/
theorem finishes_seven :
    Finishes (.shortInv none) ⟨16, fun i _ => BitVec.ofNat 8 i⟩ (List.replicate 7 zeroLine) := by
  have zero : ∀ a ∈ zeroLine, a = 48 := fun a among => List.eq_of_mem_replicate among
  have valid : (parseQuery (zeroLine ++ [])).isSome := by
    refine parseQuery_digits List.length_replicate (fun a among => ?_) fun among => ?_
    · rw [zero a among]
      exact .inl (by decide)
    · rw [List.append_nil] at among
      exact absurd (zero 0 among) (by decide)
  rw [List.append_nil] at valid
  refine (finishes_iff (.shortInv none) ⟨16, fun i _ => BitVec.ofNat 8 i⟩ rfl _
    fun line among => ?_).mpr (by decide)
  rw [List.eq_of_mem_replicate among]
  exact valid

/-- With nothing to read, the loop ends and the division behind it has no result. -/
theorem not_finishes_empty :
    Naive.main ⟨16, fun i _ => BitVec.ofNat 8 i⟩ [] = ⟨[], .finished 0⟩ ∧
      summary 1000 (.finished 0) = none ∧
      ¬ Finishes .naive ⟨16, fun i _ => BitVec.ofNat 8 i⟩ [] := by
  refine ⟨rfl, rfl, fun finishes => ?_⟩
  obtain ⟨-, -, -, -, completes⟩ := finishes
  obtain ⟨nsPerQuery, complete⟩ := completes 1000
  cases complete

end CloudflareBlog.Mmdist

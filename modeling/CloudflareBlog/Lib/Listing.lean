import CloudflareBlog.Lib.Machine
import CloudflareBlog.Lib.Memory
import Mathlib.Data.List.Permutation

/-!
# Programs as a disassembler lists them

A listing has the instructions of a program in their order, each with its offset from the beginning,
so that the next entry says where an instruction ends.  What the instructions do is left to the
machine (`Isa`).  Code without jumps is executed a piece at a time (`reaches_piece`).
-/

namespace CloudflareBlog.Lib.Listing

open Memory Machine

variable {I S : Type}

abbrev Program (I : Type) := List (Address × I)

/-- The instruction at an offset, and the offset behind it.  Nothing is behind the last instruction,
which has to go elsewhere. -/
def fetch : Program I → Address → Option (I × Address)
  | (here, i) :: (next, j) :: rest, offset =>
    if here = offset then some (i, next) else fetch ((next, j) :: rest) offset
  | [(here, i)], offset => if here = offset then some (i, here) else none
  | [], _ => none

/-- So many instructions that follow each other, and the offset behind them. -/
def fetches (listing : Program I) : Nat → Address → Option (List I × Address)
  | 0, offset => some ([], offset)
  | count + 1, offset =>
    (fetch listing offset).bind fun found =>
      (fetches listing count found.2).map fun rest => (found.1 :: rest.1, rest.2)

/-- A machine whose code is apart from its memory. -/
structure Isa (I S : Type) where
  pc : S → Address
  goto : Address → S → S
  /-- What an instruction does to all but the program counter.  The address is the one behind it. -/
  effect : Address → I → S → S
  /-- Where an instruction goes on, for code from a base address on: there the offsets of jumps begin. -/
  target : (base next : Address) → I → S → Address
  /-- Instructions that go on to the next one, wherever that is. -/
  straight : I → Bool
  pc_goto : ∀ address s, pc (goto address s) = address
  goto_pc : ∀ s, goto (pc s) s = s
  goto_goto : ∀ address other s, goto address (goto other s) = goto address s
  target_straight : ∀ {i}, straight i = true → ∀ base next s, target base next i s = next
  effect_straight : ∀ {i}, straight i = true → ∀ next address s,
    effect next i (goto address s) = goto address (effect 0 i s)

namespace Isa

variable (isa : Isa I S)

def step (listing : Program I) (base : Address) : Step S Empty := fun s =>
  (fetch listing (isa.pc s - base)).map fun found =>
    let next := base + found.2
    ([], isa.goto (isa.target base next found.1 s) (isa.effect next found.1 s))

/-- The effects of instructions one after the other. -/
def effects (code : List I) (s : S) : S := code.foldl (fun s i => isa.effect 0 i s) s

/-- The state behind code without jumps that ends at an offset. -/
def behind (base : Address) (code : List I) (offset : Address) (s : S) : S :=
  isa.goto (base + offset) (isa.effects code s)

/-- Some number of steps leads to a state of which this holds. -/
def Reaches (listing : Program I) (base : Address) (s : S) (post : S → Prop) : Prop :=
  ∃ t, Runs (isa.step listing base) s [] t ∧ post t

end Isa

variable {isa : Isa I S} {listing : Program I} {base offset next : Address} {s : S}
  {post middle : S → Prop}

@[simp] theorem effects_nil (s : S) : isa.effects [] s = s := rfl

@[simp] theorem effects_cons (i : I) (code : List I) (s : S) :
    isa.effects (i :: code) s = isa.effects code (isa.effect 0 i s) :=
  rfl

theorem Isa.Reaches.here (holds : post s) : isa.Reaches listing base s post :=
  ⟨s, Runs.refl _ s, holds⟩

theorem Isa.Reaches.of_runs {t : S} (ran : Runs (isa.step listing base) s [] t)
    (rest : isa.Reaches listing base t post) : isa.Reaches listing base s post := by
  obtain ⟨u, later, holds⟩ := rest
  exact ⟨u, ran.trans later, holds⟩

theorem Isa.Reaches.trans (first : isa.Reaches listing base s middle)
    (second : ∀ t, middle t → isa.Reaches listing base t post) : isa.Reaches listing base s post := by
  obtain ⟨t, ran, holds⟩ := first
  exact (second t holds).of_runs ran

theorem Isa.Reaches.mono (reaches : isa.Reaches listing base s middle)
    (weaker : ∀ t, middle t → post t) : isa.Reaches listing base s post :=
  reaches.trans fun t holds => .here (weaker t holds)

theorem step_at {i : I} (at_ : isa.pc s = base + offset)
    (found : fetch listing offset = some (i, next)) :
    isa.step listing base s =
      some ([], isa.goto (isa.target base (base + next) i s) (isa.effect (base + next) i s)) := by
  rw [Isa.step, at_, add_sub_self, found, Option.map_some]

/-- The rule for one instruction, which may jump. -/
theorem reaches_at (i : I) (next : Address) (at_ : isa.pc s = base + offset)
    (found : fetch listing offset = some (i, next))
    (rest : isa.Reaches listing base
      (isa.goto (isa.target base (base + next) i s) (isa.effect (base + next) i s)) post) :
    isa.Reaches listing base s post :=
  rest.of_runs (Runs.of_step (step_at at_ found))

theorem effect_of_straight {i : I} (straight : isa.straight i = true) (next : Address) (s : S) :
    isa.effect next i s = isa.goto (isa.pc s) (isa.effect 0 i s) := by
  rw [← isa.effect_straight straight next, isa.goto_pc]

theorem effects_goto {code : List I} (straight : code.all isa.straight = true) (address : Address)
    (s : S) : isa.effects code (isa.goto address s) = isa.goto address (isa.effects code s) := by
  induction code generalizing s with
  | nil => rfl
  | cons i code inductionHypothesis =>
    rw [List.all_cons, Bool.and_eq_true] at straight
    rw [effects_cons, effects_cons, isa.effect_straight straight.1, inductionHypothesis straight.2]

theorem runs_fetches {code : List I} (at_ : isa.pc s = base + offset)
    (found : fetches listing code.length offset = some (code, next))
    (straight : code.all isa.straight = true) :
    Runs (isa.step listing base) s [] (isa.goto (base + next) (isa.effects code s)) := by
  induction code generalizing s offset with
  | nil =>
    obtain rfl : offset = next := by simpa [fetches] using found
    rw [← at_, effects_nil, isa.goto_pc]
    exact Runs.refl _ s
  | cons i code inductionHypothesis =>
    rw [List.all_cons, Bool.and_eq_true] at straight
    rw [List.length_cons, fetches] at found
    obtain ⟨first, isFirst, mapped⟩ := Option.bind_eq_some_iff.mp found
    obtain ⟨rest, isRest, same⟩ := Option.map_eq_some_iff.mp mapped
    obtain ⟨⟨rfl, rfl⟩, rfl⟩ : (first.1 = i ∧ rest.1 = code) ∧ rest.2 = next := by simpa using same
    have stepped := step_at at_ isFirst
    rw [isa.target_straight straight.1, effect_of_straight straight.1, isa.goto_goto] at stepped
    have later := inductionHypothesis (isa.pc_goto (base + first.2) (isa.effect 0 first.1 s)) isRest
      straight.2
    rw [effects_goto straight.2, isa.goto_goto] at later
    exact Runs.head stepped later

theorem effects_append (code more : List I) (s : S) :
    isa.effects (code ++ more) s = isa.effects more (isa.effects code s) :=
  List.foldl_append

theorem behind_nil (at_ : isa.pc s = base + offset) : isa.behind base [] offset s = s := by
  rw [Isa.behind, ← at_, effects_nil, isa.goto_pc]

theorem reaches_from (at_ : isa.pc s = base + offset)
    (rest : isa.Reaches listing base (isa.behind base [] offset s) post) :
    isa.Reaches listing base s post := by
  rwa [behind_nil at_] at rest

variable {done : List I}

theorem length_fetches {count : Nat} {code : List I}
    (found : fetches listing count offset = some (code, next)) : code.length = count := by
  induction count generalizing offset code with
  | zero =>
    obtain ⟨rfl, -⟩ : [] = code ∧ offset = next := by simpa [fetches] using found
    rfl
  | succ count inductionHypothesis =>
    rw [fetches] at found
    obtain ⟨first, -, mapped⟩ := Option.bind_eq_some_iff.mp found
    obtain ⟨rest, isRest, same⟩ := Option.map_eq_some_iff.mp mapped
    obtain ⟨rfl, rfl⟩ : first.1 :: rest.1 = code ∧ rest.2 = next := by simpa using same
    rw [List.length_cons, inductionHypothesis isRest]

/-- The rule for code without jumps. -/
theorem reaches_code {count : Nat} {code : List I}
    (found : fetches listing count offset = some (code, next))
    (straight : code.all isa.straight = true)
    (rest : isa.Reaches listing base (isa.behind base (done ++ code) next s) post) :
    isa.Reaches listing base (isa.behind base done offset s) post := by
  rw [← length_fetches found] at found
  have ran := runs_fetches (isa.pc_goto (base + offset) (isa.effects done s)) found straight
  rw [effects_goto straight, isa.goto_goto, ← effects_append] at ran
  exact rest.of_runs ran

/-- The rule for a piece of the listing without jumps. -/
theorem reaches_piece (piece : Program I) (next : Address)
    (found : fetches listing (piece.map Prod.snd).length offset = some (piece.map Prod.snd, next))
    (isStraight : (piece.map Prod.snd).all isa.straight = true)
    (rest : isa.Reaches listing base
      (isa.behind base (done ++ piece.map Prod.snd) next s) post) :
    isa.Reaches listing base (isa.behind base done offset s) post :=
  reaches_code found isStraight rest

/-- The rule for an instruction that does no more than jump. -/
theorem reaches_jump (i : I) (next there : Address) (found : fetch listing offset = some (i, next))
    (still : isa.effect (base + next) i (isa.behind base done offset s) =
      isa.behind base done offset s)
    (goes : isa.target base (base + next) i (isa.behind base done offset s) = base + there)
    (rest : isa.Reaches listing base (isa.behind base done there s) post) :
    isa.Reaches listing base (isa.behind base done offset s) post := by
  refine reaches_at i next (isa.pc_goto _ _) found ?_
  rwa [still, goes, Isa.behind, isa.goto_goto]

end CloudflareBlog.Lib.Listing

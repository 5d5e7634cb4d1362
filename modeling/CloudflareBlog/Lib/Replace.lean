import Mathlib.Data.List.Basic

/-!
# Replacement in texts

Replacing a text by another one from the left to the right, and tables that say what stands for each
letter.  A text can be read back from its translation when the words of the table are told apart by
their beginnings (`Readable`).
-/

namespace CloudflareBlog.Lib.Replace

variable {α β : Type} [DecidableEq α]

/-- `replace`, with so many letters still to be left out. -/
def replaceFrom (old new : List α) : Nat → List α → List α
  | _, [] => []
  | left + 1, _ :: rest => replaceFrom old new left rest
  | 0, a :: rest =>
    if old <+: a :: rest then new ++ replaceFrom old new (old.length - 1) rest
    else a :: replaceFrom old new 0 rest

/-- `s.replace(old, new)`; the old text is not empty. -/
def replace (old new s : List α) : List α := replaceFrom old new 0 s

@[simp] theorem replace_nil (old new : List α) : replace old new [] = [] := rfl

theorem replace_cons_of_ne {old : List α} (new : List α) {a : α} {rest : List α}
    (other : ¬old <+: a :: rest) : replace old new (a :: rest) = a :: replace old new rest := by
  rw [replace, replaceFrom, if_neg other]
  rfl

theorem replaceFrom_append (old new skipped rest : List α) :
    replaceFrom old new skipped.length (skipped ++ rest) = replace old new rest := by
  induction skipped with
  | nil => rfl
  | cons a skipped inductionHypothesis => exact inductionHypothesis

theorem replace_append_of_prefix (a : α) (old new rest : List α) :
    replace (a :: old) new (a :: old ++ rest) = new ++ replace (a :: old) new rest := by
  have found : a :: old <+: a :: (old ++ rest) := ⟨rest, rfl⟩
  rw [List.cons_append, replace, replaceFrom, if_pos found, List.length_cons, Nat.add_sub_cancel,
    replaceFrom_append]

/-- One letter. -/
theorem replace_singleton (old : α) (new s : List α) :
    replace [old] new s = s.flatMap fun a => if a = old then new else [a] := by
  induction s with
  | nil => rfl
  | cons a s inductionHypothesis =>
    rw [List.flatMap_cons, ← inductionHypothesis]
    split
    · rename_i same
      rw [same]
      exact replace_append_of_prefix old [] new s
    · rename_i differ
      refine replace_cons_of_ne new fun found => differ ?_
      exact (List.cons_prefix_cons.mp found).1.symm

/-! ## Tables -/

/-- What stands for a letter; the letters that are not in the table stand for themselves. -/
def translate (table : List (α × List α)) (a : α) : List α := (table.lookup a).getD [a]

/-- The words of the table have two letters at least, they begin with letters of the table, and none
begins with another one. -/
def Readable (table : List (α × List α)) : Prop :=
  ∀ entry ∈ table, 2 ≤ entry.2.length ∧ (∀ a ∈ entry.2.head?, (table.lookup a).isSome = true) ∧
    ∀ other ∈ table, entry.2 <+: other.2 → entry.1 = other.1

instance decidableReadable (table : List (α × List α)) : Decidable (Readable table) :=
  inferInstanceAs (Decidable (∀ entry ∈ table, _))

omit [DecidableEq α] in
theorem flatMap_injective {code : α → List β} (solid : ∀ a, code a ≠ [])
    (free : ∀ a b, code a <+: code b → a = b) : Function.Injective fun s : List α => s.flatMap code := by
  intro s
  induction s with
  | nil =>
    intro t same
    cases t with
    | nil => rfl
    | cons b t => exact absurd (List.append_eq_nil_iff.mp same.symm).1 (solid b)
  | cons a s inductionHypothesis =>
    intro t same
    cases t with
    | nil => exact absurd (List.append_eq_nil_iff.mp same).1 (solid a)
    | cons b t =>
      have equal : code a ++ s.flatMap code = code b ++ t.flatMap code := same
      have letters : a = b := by
        obtain before | before := List.prefix_or_prefix_of_prefix
          (List.prefix_append (code a) (s.flatMap code)) ⟨t.flatMap code, equal.symm⟩
        · exact free a b before
        · exact (free b a before).symm
      subst letters
      rw [inductionHypothesis (List.append_cancel_left equal)]

variable {table : List (α × List α)}

theorem mem_of_lookup {a : α} {word : List α} (found : table.lookup a = some word) :
    (a, word) ∈ table := by
  induction table with
  | nil => cases found
  | cons entry table inductionHypothesis =>
    rw [List.lookup_cons] at found
    split at found
    · rename_i same
      obtain rfl := eq_of_beq same
      obtain rfl := Option.some.inj found
      exact List.mem_cons_self
    · exact List.mem_cons_of_mem _ (inductionHypothesis found)

theorem translate_of_not_mem {a : α} (absent : a ∉ table.map Prod.fst) : translate table a = [a] := by
  have missing : table.lookup a = none := by
    refine List.lookup_eq_none_iff.mpr fun entry member => ?_
    have differ : a ≠ entry.1 := fun same => absent (same ▸ List.mem_map_of_mem member)
    simpa using differ
  rw [translate, missing]
  rfl

theorem translate_injective (readable : Readable table) :
    Function.Injective fun s : List α => s.flatMap (translate table) := by
  refine flatMap_injective (fun a => ?_) fun a b before => ?_
  · rw [translate]
    cases found : table.lookup a with
    | none => exact List.cons_ne_nil a []
    | some word =>
      have long : 2 ≤ word.length := (readable _ (mem_of_lookup found)).1
      rintro rfl
      cases long
  · rw [translate, translate] at before
    cases found : table.lookup a with
    | none =>
      cases found' : table.lookup b with
      | none =>
        rw [found, found'] at before
        exact (List.cons_prefix_cons.mp before).1
      | some word =>
        rw [found, found'] at before
        obtain ⟨rest, rfl⟩ := before
        have inTable := (readable _ (mem_of_lookup found')).2.1 a rfl
        rw [found] at inTable
        cases inTable
    | some word =>
      have entry := readable _ (mem_of_lookup found)
      cases found' : table.lookup b with
      | none =>
        rw [found, found'] at before
        exact absurd (Nat.le_trans entry.1 before.length_le) (Nat.not_succ_le_self 1)
      | some other =>
        rw [found, found'] at before
        exact entry.2.2 _ (mem_of_lookup found') before

end CloudflareBlog.Lib.Replace

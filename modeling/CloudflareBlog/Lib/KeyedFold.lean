import Mathlib.Data.Finmap

/-!
# A list that is collected by key

Entries are put into an object one after the other, where each key has one value.  The object has
all of them if and only if no two have the same key.
-/

namespace CloudflareBlog.Lib.KeyedFold

variable {Key Value : Type} [DecidableEq Key]

abbrev Object (Key Value : Type) := Finmap fun _ : Key => Value

abbrev Entry (Key Value : Type) := Sigma fun _ : Key => Value

def collect (object : Object Key Value) (entries : List (Entry Key Value)) : Object Key Value :=
  entries.foldl (fun object entry => object.insert entry.1 entry.2) object

theorem collect_cons (object : Object Key Value) (entry : Entry Key Value)
    (entries : List (Entry Key Value)) :
    collect object (entry :: entries) = collect (object.insert entry.1 entry.2) entries := rfl

theorem keys_insert (key : Key) (value : Value) (object : Object Key Value) :
    (object.insert key value).keys = insert key object.keys := by
  ext other
  rw [Finmap.mem_keys, Finmap.mem_insert, Finset.mem_insert, Finmap.mem_keys]

omit [DecidableEq Key] in
theorem card_entries (object : Object Key Value) :
    Multiset.card object.entries = object.keys.card :=
  (Multiset.card_map Sigma.fst object.entries).symm

theorem keys_collect (object : Object Key Value) (entries : List (Entry Key Value)) :
    (collect object entries).keys = object.keys ∪ (entries.map Sigma.fst).toFinset := by
  induction entries generalizing object with
  | nil => rw [collect, List.foldl_nil, List.map_nil, List.toFinset_nil, Finset.union_empty]
  | cons entry entries inductionHypothesis =>
    rw [collect_cons, inductionHypothesis, keys_insert, List.map_cons,
      List.toFinset_cons, Finset.insert_union, Finset.union_insert]

/-- An entry makes no difference if its key comes again. -/
theorem collect_shadowed (object : Object Key Value) (entry : Entry Key Value)
    {entries : List (Entry Key Value)} (again : entry.1 ∈ entries.map Sigma.fst) :
    collect object (entry :: entries) = collect object entries := by
  rw [collect_cons]
  induction entries generalizing object with
  | nil => cases again
  | cons other entries inductionHypothesis =>
    rw [collect_cons, collect_cons]
    by_cases same : other.1 = entry.1
    · rw [same, Finmap.insert_insert]
    · rw [Finmap.insert_insert_of_ne _ (Ne.symm same), inductionHypothesis]
      exact (List.mem_cons.mp again).resolve_left (Ne.symm same)

/-- With new keys, all entries are kept. -/
theorem entries_collect {object : Object Key Value} {entries : List (Entry Key Value)}
    (distinct : (entries.map Sigma.fst).Nodup) (fresh : ∀ entry ∈ entries, entry.1 ∉ object) :
    (collect object entries).entries = object.entries + (entries : Multiset (Entry Key Value)) := by
  induction entries generalizing object with
  | nil => rw [collect, List.foldl_nil, Multiset.coe_nil, Multiset.add_zero]
  | cons entry entries inductionHypothesis =>
    obtain ⟨notAgain, distinct⟩ := List.nodup_cons.mp distinct
    have freshLater : ∀ other ∈ entries, other.1 ∉ object.insert entry.1 entry.2 := by
      intro other among
      rw [Finmap.mem_insert, not_or]
      refine ⟨fun same => notAgain ?_, fresh other (List.mem_cons_of_mem _ among)⟩
      rw [← same]
      exact List.mem_map_of_mem among
    rw [collect_cons, inductionHypothesis distinct freshLater,
      Finmap.entries_insert_of_notMem (fresh entry List.mem_cons_self), ← Multiset.cons_coe,
      Multiset.cons_add, Multiset.add_cons]

theorem entries_collect_empty {entries : List (Entry Key Value)}
    (distinct : (entries.map Sigma.fst).Nodup) :
    (collect ∅ entries).entries = (entries : Multiset (Entry Key Value)) :=
  (entries_collect distinct fun _ _ => Finmap.notMem_empty).trans (Multiset.zero_add _)

/-- All entries are kept if and only if no two of them have the same key. -/
theorem card_collect_iff (entries : List (Entry Key Value)) :
    Multiset.card (collect ∅ entries).entries = entries.length ↔ (entries.map Sigma.fst).Nodup := by
  rw [card_entries, keys_collect, Finmap.keys_empty, Finset.empty_union, ← List.length_map Sigma.fst]
  exact Multiset.toFinset_card_eq_card_iff_nodup

end CloudflareBlog.Lib.KeyedFold

import CloudflareBlog.Lib.KeyOrder
import Mathlib.Logic.Function.Iterate

/-!
# Counting the first keys

A map with room for so many keys, which counts how often each key of a stream comes.  A key that comes
when the map is full is not counted, so the keys in the map are the first ones of the stream, and none
of their occurrences is missed.  And counters for all keys, however they count.
-/

namespace CloudflareBlog.Lib.Tally

open KeyOrder

variable {Key : Type*} [DecidableEq Key] {width capacity : Nat}

/-- A key comes: its counter is incremented, or it gets one if there is room. -/
def tally (capacity : Nat) (map : Map Key (BitVec width)) (key : Key) : Map Key (BitVec width) :=
  match map.lookup key with
  | some counter => map.insert key (counter + 1)
  | none => if map.keys.length < capacity then map.insert key 1 else map

/-- The first distinct keys, in the order in which they came. -/
def firstKeys (capacity : Nat) (keys : List Key) : List Key := keys.eraseDups.take capacity

/-- The map has the first keys, each with the number of its occurrences. -/
structure Tallied (capacity : Nat) (keys : List Key) (map : Map Key (BitVec width)) : Prop where
  perm : map.keys.Perm (firstKeys capacity keys)
  counts : ∀ key ∈ map, map.lookup key = some (BitVec.ofNat width (keys.count key))

variable {keys : List Key} {map : Map Key (BitVec width)} {key : Key}

theorem eraseDups_of_mem (present : key ∈ keys) : (keys ++ [key]).eraseDups = keys.eraseDups := by
  rw [List.eraseDups_append]
  simp [List.removeAll, present]

theorem eraseDups_of_not_mem (absent : key ∉ keys) :
    (keys ++ [key]).eraseDups = keys.eraseDups ++ [key] := by
  rw [List.eraseDups_append]
  simp [List.removeAll, absent, List.eraseDups_cons]

theorem Tallied.mem_keys (tallied : Tallied capacity keys map) (present : key ∈ map) :
    key ∈ keys := by
  have first := tallied.perm.mem_iff.mp (AList.mem_keys.mp present)
  exact List.mem_eraseDups.mp (List.mem_of_mem_take first)

/-- A map that has room has seen all keys. -/
theorem Tallied.mem_of_room (tallied : Tallied capacity keys map)
    (room : map.keys.length < capacity) (present : key ∈ keys) : key ∈ map := by
  have length := tallied.perm.length_eq
  rw [firstKeys, List.length_take] at length
  have whole : keys.eraseDups.take capacity = keys.eraseDups := List.take_of_length_le (by omega)
  rw [AList.mem_keys, tallied.perm.mem_iff, firstKeys, whole]
  exact List.mem_eraseDups.mpr present

theorem Tallied.empty : Tallied capacity [] (∅ : Map Key (BitVec width)) where
  perm := by simp [firstKeys]
  counts := fun key present => absurd present (AList.notMem_empty key)

theorem count_append_other {other : Key} (differs : other ≠ key) :
    (keys ++ [key]).count other = keys.count other := by
  simp [List.count_append, differs.symm]

/-- A known key is counted. -/
theorem Tallied.known (tallied : Tallied capacity keys map) {counter : BitVec width}
    (found : map.lookup key = some counter) :
    Tallied capacity (keys ++ [key]) (map.insert key (counter + 1)) := by
  have present : key ∈ map := AList.lookup_isSome.mp (found ▸ rfl)
  have number : counter = BitVec.ofNat width (keys.count key) :=
    Option.some.inj (found.symm.trans (tallied.counts key present))
  refine ⟨?_, fun other inside => ?_⟩
  · rw [firstKeys, eraseDups_of_mem (tallied.mem_keys present), AList.keys_insert]
    exact (List.perm_cons_erase (AList.mem_keys.mp present)).symm.trans tallied.perm
  · by_cases same : other = key
    · subst same
      rw [AList.lookup_insert, number, List.count_append, List.count_singleton_self, BitVec.ofNat_add]
      rfl
    · have old : other ∈ map := ((AList.mem_insert _).mp inside).resolve_left same
      rw [AList.lookup_insert_ne same, tallied.counts other old, count_append_other same]

/-- A new one gets the counter one: if there is room for it, this was its first occurrence. -/
theorem Tallied.new (tallied : Tallied capacity keys map) (absent : key ∉ map)
    (room : map.keys.length < capacity) :
    Tallied capacity (keys ++ [key]) (map.insert key 1) := by
  have first : key ∉ keys := fun old => absent (tallied.mem_of_room room old)
  have length := tallied.perm.length_eq
  rw [firstKeys, List.length_take] at length
  refine ⟨?_, fun other inside => ?_⟩
  · have before : firstKeys capacity keys = keys.eraseDups := List.take_of_length_le (by omega)
    have whole : (keys.eraseDups ++ [key]).take capacity = keys.eraseDups ++ [key] :=
      List.take_of_length_le (by rw [List.length_append, List.length_singleton]; omega)
    rw [firstKeys, eraseDups_of_not_mem first, whole, AList.keys_insert,
      List.erase_of_not_mem (fun inside => absent (AList.mem_keys.mpr inside))]
    exact ((before ▸ tallied.perm).cons key).trans (List.perm_append_singleton key _).symm
  · by_cases same : other = key
    · subst same
      rw [AList.lookup_insert, List.count_append, List.count_singleton_self,
        List.count_eq_zero.mpr first]
      rfl
    · have old : other ∈ map := ((AList.mem_insert _).mp inside).resolve_left same
      rw [AList.lookup_insert_ne same, tallied.counts other old, count_append_other same]

/-- A full map stays as it is. -/
theorem Tallied.full (tallied : Tallied capacity keys map) (absent : key ∉ map)
    (full : ¬ map.keys.length < capacity) : Tallied capacity (keys ++ [key]) map := by
  have length := tallied.perm.length_eq
  rw [firstKeys, List.length_take] at length
  refine ⟨?_, fun other inside => ?_⟩
  · have kept : firstKeys capacity (keys ++ [key]) = firstKeys capacity keys := by
      rw [firstKeys, List.eraseDups_append, List.take_append_of_le_length (by omega), firstKeys]
    exact kept ▸ tallied.perm
  · have differs : other ≠ key := fun same => absent (same ▸ inside)
    rw [tallied.counts other inside, count_append_other differs]

/-- The step of a stream. -/
theorem Tallied.tally (tallied : Tallied capacity keys map) (key : Key) :
    Tallied capacity (keys ++ [key]) (tally capacity map key) := by
  unfold Tally.tally
  cases found : map.lookup key with
  | some counter => exact tallied.known found
  | none =>
    have absent : key ∉ map := AList.lookup_eq_none.mp found
    dsimp only
    split
    next room => exact tallied.new absent room
    next full => exact tallied.full absent full

/-- The rule for streams. -/
theorem Tallied.foldl (tallied : Tallied capacity keys map) (stream : List Key) :
    Tallied capacity (keys ++ stream) (stream.foldl (Tally.tally capacity) map) := by
  induction stream generalizing keys map with
  | nil => rwa [List.append_nil]
  | cons key rest ih =>
    rw [List.append_cons]
    exact ih (tallied.tally key)

theorem Tallied.lookup (tallied : Tallied capacity keys map) (key : Key) :
    map.lookup key =
      if key ∈ firstKeys capacity keys then some (BitVec.ofNat width (keys.count key)) else none := by
  split
  next first => exact tallied.counts key (AList.mem_keys.mpr (tallied.perm.mem_iff.mpr first))
  next other =>
    exact AList.lookup_eq_none.mpr fun present =>
      other (tallied.perm.mem_iff.mp (AList.mem_keys.mp present))

/-! ## A counter for every key -/

section

variable {Value : Type*} {counters : Key → Value}

/-- A key comes, and its counter is bumped. -/
def bumpAt (bump : Value → Value) (counters : Key → Value) (key : Key) : Key → Value :=
  Function.update counters key (bump (counters key))

/-- Each counter is bumped as often as its key comes. -/
theorem foldl_bumpAt (bump : Value → Value) (keys : List Key) (key : Key) :
    keys.foldl (bumpAt bump) counters key = bump^[keys.count key] (counters key) := by
  induction keys generalizing counters with
  | nil => rfl
  | cons first rest ih =>
    rw [List.foldl_cons, ih]
    by_cases same : first = key
    · subst same
      rw [bumpAt, Function.update_self, List.count_cons_self, Function.iterate_succ_apply]
    · rw [bumpAt, Function.update_of_ne (Ne.symm same), List.count_cons_of_ne same]

end

end CloudflareBlog.Lib.Tally

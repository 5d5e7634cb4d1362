import Mathlib.Data.List.AList

/-!
# Maps that are walked by their keys

A map that lists its keys in some order, which may be any order and another one after each change.
The successor of a key is looked up in the present order; a key that is not in the map has the first
one as its successor, so a walk that takes away each key that it has reached never misses one.
-/

namespace CloudflareBlog.Lib.KeyOrder

variable {Key Value : Type*} [DecidableEq Key]

abbrev Map (Key Value : Type*) := AList fun _ : Key => Value

/-- The order in which each map has its keys. -/
structure Order (Key Value : Type*) where
  listed : Map Key Value → List Key
  perm : ∀ map, (listed map).Perm map.keys

/-- The key behind another one, or the first one if there is no such key. -/
def getNextKey (order : Order Key Value) (map : Map Key Value) (key : Key) : Option Key :=
  if key ∈ map.keys then (order.listed map)[(order.listed map).idxOf key + 1]?
  else (order.listed map).head?

variable {order : Order Key Value} {map : Map Key Value} {key next : Key}

theorem getNextKey_of_empty (absent : key ∉ map) (empty : map.keys = []) :
    getNextKey order map key = none := by
  have nothing : order.listed map = [] := List.perm_nil.mp (empty ▸ order.perm map)
  rw [getNextKey, if_neg fun present => absent (AList.mem_keys.mpr present), nothing, List.head?_nil]

/-- The successor of a key that is not in the map is one that is. -/
theorem getNextKey_of_nonempty (order : Order Key Value) (absent : key ∉ map)
    (nonempty : map.keys ≠ []) :
    ∃ first ∈ map, getNextKey order map key = some first := by
  rw [getNextKey, if_neg fun present => absent (AList.mem_keys.mpr present)]
  cases listed : order.listed map with
  | nil =>
    have perm := order.perm map
    rw [listed] at perm
    exact absurd (List.nil_perm.mp perm) nonempty
  | cons first rest =>
    have perm := order.perm map
    rw [listed] at perm
    exact ⟨first, AList.mem_keys.mpr (perm.mem_iff.mp List.mem_cons_self), rfl⟩

theorem keys_perm_erase (present : key ∈ map) : map.keys.Perm (key :: (map.erase key).keys) := by
  rw [AList.keys_erase]
  exact List.perm_cons_erase (AList.mem_keys.mp present)

end CloudflareBlog.Lib.KeyOrder

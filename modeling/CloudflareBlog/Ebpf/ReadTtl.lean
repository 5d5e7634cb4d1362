import CloudflareBlog.Lib.KeyOrder
import Mathlib.Order.Bounds.Basic
import Mathlib.Order.MinMax
import Mathlib.Tactic.SplitIfs

/-!
# The distance of a peer

The socket filter counts packets by their TTL in a BPF hash map.  `ReadTTLBPF` walks the map and
deletes every key that it has read: its cursor is then a key that is not in the map, so the next key is
the first one that is left.  Whatever the order of the map is, the walk ends after one turn more than
there are keys, each key is deleted once, and the result is the least distance (`readTTLBPF_drains`).
-/

namespace CloudflareBlog.Ebpf

open Lib.KeyOrder

abbrev MapU32 := BitVec 32

abbrev MapU64 := BitVec 64

/-- The map behind the descriptor, from a TTL to a counter. -/
abbrev TtlMap := Map MapU32 MapU64

/-! ## The code -/

/-- The distance to the initial TTL that is the least one possible. -/
def dist (ttl : Int) : Int :=
  if ttl > 128 then 255 - ttl
  else if ttl > 64 then 128 - ttl
  else if ttl > 32 then 64 - ttl
  else 32 - ttl

/-- The variables of the loop, the map, and the keys that were deleted. -/
structure Walk where
  minDist : Int
  a : MapU32
  b : MapU32
  bpfMap : TtlMap
  deleted : List MapU32

/-- `Get` and what is done if it finds the key: the distance is taken over when it is less, and the key
is deleted. -/
def visit (walk : Walk) : Walk :=
  match walk.bpfMap.lookup walk.a with
  | some _ =>
    let dist := dist walk.a.toNat
    { walk with
      minDist := if walk.minDist > dist then dist else walk.minDist
      bpfMap := walk.bpfMap.erase walk.a
      deleted := walk.deleted ++ [walk.a] }
  | none => walk

/-- A turn of the loop, and whether there is another one. -/
def turn (order : Order MapU32 MapU64) (walk : Walk) : Walk × Bool :=
  let walk := visit walk
  match getNextKey order walk.bpfMap walk.a with
  | none => (walk, false)
  | some key =>
    let walk := { walk with b := key }
    if walk.a = walk.b then (walk, false) else ({ walk with a := walk.b }, true)

/-- The loop, `none` when it has not ended after so many turns. -/
def loop (order : Order MapU32 MapU64) : Nat → Walk → Option Walk
  | 0, _ => none
  | fuel + 1, walk =>
    match turn order walk with
    | (next, true) => loop order fuel next
    | (last, false) => some last

/-- `ReadTTLBPF`: the result, the map behind it and the keys that were deleted. -/
def readTTLBPF (order : Order MapU32 MapU64) (fuel : Nat) (mapFd : Int) (bpfMap : TtlMap) :
    Option (Int × TtlMap × List MapU32) :=
  if mapFd < 0 then some (255, bpfMap, [])
  else (loop order fuel ⟨255, 0, 0, bpfMap, []⟩).map fun walk =>
    (walk.minDist, walk.bpfMap, walk.deleted)

/-! ## A turn -/

variable {order : Order MapU32 MapU64} {walk : Walk}

theorem visit_of_mem (present : walk.a ∈ walk.bpfMap) :
    visit walk = { walk with
      minDist := min walk.minDist (dist walk.a.toNat)
      bpfMap := walk.bpfMap.erase walk.a
      deleted := walk.deleted ++ [walk.a] } := by
  obtain ⟨counter, found⟩ := Option.isSome_iff_exists.mp (AList.lookup_isSome.mpr present)
  have least : (if walk.minDist > dist walk.a.toNat then dist walk.a.toNat else walk.minDist) =
      min walk.minDist (dist walk.a.toNat) := by
    split
    next more => exact (min_eq_right more.le).symm
    next less => exact (min_eq_left (not_lt.mp less)).symm
  simp only [visit, found, least]

theorem visit_of_not_mem (absent : walk.a ∉ walk.bpfMap) : visit walk = walk := by
  have missing := AList.lookup_eq_none.mpr absent
  simp only [visit, missing]

@[simp] theorem visit_a : (visit walk).a = walk.a := by
  unfold visit
  split <;> rfl

theorem not_mem_visit : walk.a ∉ (visit walk).bpfMap := by
  by_cases present : walk.a ∈ walk.bpfMap
  · rw [visit_of_mem present]
    exact fun left => (AList.mem_erase.mp left).1 rfl
  · rwa [visit_of_not_mem present]

theorem turn_of_empty (empty : (visit walk).bpfMap.keys = []) :
    turn order walk = (visit walk, false) := by
  have ended : getNextKey order (visit walk).bpfMap (visit walk).a = none :=
    getNextKey_of_empty (by rw [visit_a]; exact not_mem_visit) empty
  simp only [turn, ended]

/-- While keys are left, the next turn is for one of them. -/
theorem turn_of_nonempty (order : Order MapU32 MapU64) (nonempty : (visit walk).bpfMap.keys ≠ []) :
    ∃ key ∈ (visit walk).bpfMap,
      turn order walk = ({ visit walk with a := key, b := key }, true) := by
  have absent : (visit walk).a ∉ (visit walk).bpfMap := by
    rw [visit_a]
    exact not_mem_visit
  obtain ⟨key, present, next⟩ := getNextKey_of_nonempty order absent nonempty
  have other : (visit walk).a ≠ key := fun same => absent (same ▸ present)
  refine ⟨key, present, ?_⟩
  simp only [turn, next, if_neg other]

/-! ## The walk -/

/-- The end of a walk: no key is left, each key was deleted once, and the distance is the least one of
the keys and of what it was before. -/
structure Drains (walk last : Walk) : Prop where
  empty : last.bpfMap.keys = []
  deleted : ∃ keys, last.deleted = walk.deleted ++ keys ∧ keys.Perm walk.bpfMap.keys
  least : IsLeast {d | d = walk.minDist ∨ ∃ key ∈ walk.bpfMap, d = dist key.toNat} last.minDist

theorem Drains.refl (empty : walk.bpfMap.keys = []) : Drains walk walk := by
  refine ⟨empty, ⟨[], (List.append_nil _).symm, empty ▸ List.Perm.nil⟩, .inl rfl, ?_⟩
  rintro d (rfl | ⟨key, present, -⟩)
  · exact le_rfl
  · rw [AList.mem_keys, empty] at present
    exact absurd present List.not_mem_nil

/-- What ends the walk behind a visit ends it before. -/
theorem Drains.of_visit {last : Walk} (drains : Drains (visit walk) last) : Drains walk last := by
  by_cases present : walk.a ∈ walk.bpfMap
  · rw [visit_of_mem present] at drains
    obtain ⟨empty, ⟨keys, deleted, perm⟩, reached, below⟩ := drains
    refine ⟨empty, ⟨walk.a :: keys, by simpa using deleted, ?_⟩, ?_, ?_⟩
    · exact (perm.cons walk.a).trans (keys_perm_erase present).symm
    · obtain least | ⟨key, left, least⟩ := reached
      · obtain before | here := min_choice walk.minDist (dist walk.a.toNat)
        · exact .inl (least.trans before)
        · exact .inr ⟨walk.a, present, least.trans here⟩
      · exact .inr ⟨key, (AList.mem_erase.mp left).2, least⟩
    · have belowVisited := below (.inl rfl)
      rintro d (rfl | ⟨key, among, rfl⟩)
      · exact belowVisited.trans (min_le_left _ _)
      · by_cases here : key = walk.a
        · rw [here]
          exact belowVisited.trans (min_le_right _ _)
        · exact below (.inr ⟨key, AList.mem_erase.mpr ⟨here, among⟩, rfl⟩)
  · rwa [visit_of_not_mem present] at drains

/-- The walk ends, with as many turns as there are keys left behind the first one and one more. -/
theorem drains_loop (order : Order MapU32 MapU64) {fuel : Nat}
    (enough : (visit walk).bpfMap.keys.length < fuel) :
    ∃ last, loop order fuel walk = some last ∧ Drains walk last := by
  induction fuel generalizing walk with
  | zero => exact absurd enough (Nat.not_lt_zero _)
  | succ fuel inductionHypothesis =>
    by_cases empty : (visit walk).bpfMap.keys = []
    · refine ⟨visit walk, ?_, (Drains.refl empty).of_visit⟩
      simp only [loop, turn_of_empty empty]
    · obtain ⟨key, present, turned⟩ := turn_of_nonempty order empty
      let next : Walk := { visit walk with a := key, b := key }
      have fewer : (visit next).bpfMap.keys.length < fuel := by
        have erased := (keys_perm_erase present).length_eq
        have here : next.a ∈ next.bpfMap := present
        rw [List.length_cons] at erased
        rw [visit_of_mem here]
        exact Nat.lt_of_succ_lt_succ (Nat.lt_of_le_of_lt erased.ge enough)
      obtain ⟨last, ended, drains⟩ := inductionHypothesis fewer
      refine ⟨last, ?_, Drains.of_visit ⟨drains.empty, drains.deleted, drains.least⟩⟩
      simp only [loop, turned]
      exact ended

/-! ## The result -/

/-- The distance of a TTL to the first of the initial TTLs that it can come from. -/
def hops (ttl : Nat) : Nat := ([32, 64, 128, 255].find? (ttl ≤ ·)).getD 255 - ttl

theorem dist_eq_hops {ttl : Nat} (possible : ttl ≤ 255) : dist ttl = hops ttl := by
  obtain near | near | near | near :
      ttl ≤ 32 ∨ (32 < ttl ∧ ttl ≤ 64) ∨ (64 < ttl ∧ ttl ≤ 128) ∨ 128 < ttl := by omega
  · simp only [dist, hops, List.find?, near, decide_true, Option.getD_some]
    split_ifs <;> omega
  · simp only [dist, hops, List.find?, near, decide_true, Option.getD_some,
      show ¬ ttl ≤ 32 by omega, decide_false]
    split_ifs <;> omega
  · simp only [dist, hops, List.find?, near, decide_true, Option.getD_some,
      show ¬ ttl ≤ 32 by omega, show ¬ ttl ≤ 64 by omega, decide_false]
    split_ifs <;> omega
  · simp only [dist, hops, List.find?, possible, decide_true, Option.getD_some,
      show ¬ ttl ≤ 32 by omega, show ¬ ttl ≤ 64 by omega, show ¬ ttl ≤ 128 by omega, decide_false]
    split_ifs <;> omega

theorem dist_lt (ttl : Nat) : dist ttl < 255 := by
  unfold dist
  split_ifs <;> omega

theorem keys_visit_le : (visit walk).bpfMap.keys.length ≤ walk.bpfMap.keys.length := by
  by_cases present : walk.a ∈ walk.bpfMap
  · have erased := (keys_perm_erase present).length_eq
    rw [List.length_cons] at erased
    rw [visit_of_mem present]
    exact Nat.le_of_lt erased.ge
  · rw [visit_of_not_mem present]

/-- For every content of the map and every order of its keys: the loop ends, it deletes each key once,
and it returns the least distance of the keys, or 255 if there is none. -/
theorem readTTLBPF_drains (order : Order MapU32 MapU64) (mapFd : Int) (opened : 0 ≤ mapFd)
    (bpfMap : TtlMap) (possible : ∀ key ∈ bpfMap, key.toNat ≤ 255) (fuel : Nat)
    (enough : bpfMap.keys.length < fuel) :
    ∃ result rest deleted,
      readTTLBPF order fuel mapFd bpfMap = some (result, rest, deleted) ∧
        rest.keys = [] ∧ deleted.Perm bpfMap.keys ∧
        (bpfMap.keys = [] → result = 255) ∧
        (bpfMap.keys ≠ [] → IsLeast {d : Int | ∃ key ∈ bpfMap, d = hops key.toNat} result) := by
  let start : Walk := ⟨255, 0, 0, bpfMap, []⟩
  have turns : (visit start).bpfMap.keys.length < fuel := Nat.lt_of_le_of_lt keys_visit_le enough
  obtain ⟨last, ended, empty, ⟨keys, deleted, perm⟩, reached, below⟩ := drains_loop order turns
  have near : ∀ key ∈ bpfMap, dist key.toNat = hops key.toNat := fun key among =>
    dist_eq_hops (possible key among)
  refine ⟨last.minDist, last.bpfMap, last.deleted, ?_, empty, ?_, ?_, ?_⟩
  · rw [readTTLBPF, if_neg (by omega), ended, Option.map_some]
  · rw [deleted]
    exact perm
  · intro none
    obtain unchanged | ⟨key, among, -⟩ := reached
    · exact unchanged
    · rw [AList.mem_keys, none] at among
      exact absurd among List.not_mem_nil
  · intro some
    have inBounds : ∀ key ∈ bpfMap, last.minDist ≤ hops key.toNat := fun key among =>
      below (.inr ⟨key, among, (near key among).symm⟩)
    refine ⟨?_, ?_⟩
    · obtain unchanged | ⟨key, among, least⟩ := reached
      · -- every key is nearer than the 255 that the walk begins with
        obtain ⟨key, among⟩ := List.exists_mem_of_ne_nil _ some
        have nearer := below (.inr ⟨key, AList.mem_keys.mpr among, rfl⟩)
        rw [unchanged] at nearer
        exact absurd nearer (not_le.mpr (dist_lt _))
      · exact ⟨key, among, least.trans (near key among)⟩
    · rintro d ⟨key, among, rfl⟩
      exact inBounds key among

/-- The keys 60 and 250, the last one put in first. -/
theorem readTTLBPF_drains_two :
    ∃ rest deleted, readTTLBPF ⟨AList.keys, fun _ => .refl _⟩ 3 5
        ((AList.singleton 250 1).insert 60 7) = some (4, rest, deleted) ∧ rest.keys = [] := by
  have possible : ∀ key ∈ ((AList.singleton 250 1).insert 60 7 : TtlMap), key.toNat ≤ 255 := by
    simp [AList.mem_keys]
  obtain ⟨result, rest, deleted, ended, empty, -⟩ := readTTLBPF_drains
    ⟨AList.keys, fun _ => .refl _⟩ 5 (by decide) ((AList.singleton 250 1).insert 60 7) possible 3
    (by decide)
  have least : (readTTLBPF ⟨AList.keys, fun _ => .refl _⟩ 3 5
      ((AList.singleton 250 1).insert 60 7)).map Prod.fst = some 4 := by decide +kernel
  rw [ended] at least
  obtain rfl : result = 4 := by simpa using least
  exact ⟨rest, deleted, ended, empty⟩

end CloudflareBlog.Ebpf

import Mathlib.Data.Finset.Lattice.Fold
import Mathlib.Order.Lattice.Nat

/-!
# Open descriptors

The descriptors that a process has open.  A call that makes one picks any number that is free, and a
call to close one that is not open has no effect.
-/

namespace CloudflareBlog.Lib.Descriptors

abbrev Table := Finset ℕ

/-- How the number of a new descriptor is chosen. -/
structure Allocator where
  pick : Table → ℕ
  fresh : ∀ descriptors, pick descriptors ∉ descriptors

theorem sup_succ_not_mem (descriptors : Table) : descriptors.sup id + 1 ∉ descriptors :=
  fun inside => absurd (Finset.le_sup (f := id) inside) (Nat.not_succ_le_self _)

def Allocator.next : Allocator := ⟨fun descriptors => descriptors.sup id + 1, sup_succ_not_mem⟩

variable {Error : Type}

/-- A call that makes a descriptor, unless it fails. -/
def create (allocator : Allocator) (err : Option Error) : StateM Table (Except Error ℤ) :=
  fun descriptors =>
    match err with
    | some err => (.error err, descriptors)
    | none => (.ok (allocator.pick descriptors), insert (allocator.pick descriptors) descriptors)

def close (fd : ℤ) : StateM Table Unit :=
  fun descriptors => ((), if fd < 0 then descriptors else descriptors.erase fd.toNat)

variable {allocator : Allocator} {descriptors : Table} {fd : ℕ}

/-- The rule for what follows a call. -/
theorem run_bind {State α β : Type} {first : StateM State α} {rest : α → StateM State β}
    {start between : State} {a : α} (ran : first.run start = (a, between)) :
    (first >>= rest).run start = (rest a).run between := by
  rw [StateT.run_bind, ran]
  rfl

theorem create_error (err : Error) :
    (create allocator (some err)).run descriptors = (.error err, descriptors) := rfl

/-- A new descriptor is a number that was not open before. -/
theorem create_ok (Error : Type) (allocator : Allocator) (descriptors : Table) :
    ∃ fd : ℕ, fd ∉ descriptors ∧
      (create allocator (none : Option Error)).run descriptors = (.ok ↑fd, insert fd descriptors) :=
  ⟨allocator.pick descriptors, allocator.fresh descriptors, rfl⟩

theorem close_run (fd : ℕ) :
    (close fd).run descriptors = ((), descriptors.erase fd) := by
  show ((), if (fd : ℤ) < 0 then descriptors else descriptors.erase (fd : ℤ).toNat) = _
  rw [if_neg (by omega), Int.toNat_natCast]

/-- What was opened last is closed again. -/
theorem close_insert (closed : fd ∉ descriptors) :
    (close fd).run (insert fd descriptors) = ((), descriptors) := by
  rw [close_run, Finset.erase_insert closed]

/-- What was opened before the last one is closed. -/
theorem close_insert_insert {last : ℕ} (closed : fd ∉ descriptors) (differs : fd ≠ last) :
    (close fd).run (insert last (insert fd descriptors)) = ((), insert last descriptors) := by
  rw [close_run, Finset.erase_insert_of_ne differs.symm, Finset.erase_insert closed]

theorem close_negative {fd : ℤ} (negative : fd < 0) : (close fd).run descriptors = ((), descriptors) := by
  show ((), if fd < 0 then descriptors else descriptors.erase fd.toNat) = _
  rw [if_pos negative]

end CloudflareBlog.Lib.Descriptors

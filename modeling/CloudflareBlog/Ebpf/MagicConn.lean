import CloudflareBlog.Ebpf.ReadTtl
import CloudflareBlog.Lib.Buffer
import CloudflareBlog.Lib.Descriptors

/-!
# A connection and its filter

`MagicTCPDialTimeoutTTL` dials with the filter attached to the socket, and takes the filter off once
the connection is there.  Every call of the system may fail; what counts here is the descriptors that
are open in the end.
-/

namespace CloudflareBlog.Ebpf

open Lib.Descriptors
open Lib.Buffer (Byte)

abbrev Errno := ℕ

inductive Domain where
  | afInet
  | afInet6
  deriving DecidableEq, Repr

structure TCPAddr where
  ip : List Byte
  port : ℤ

inductive Sockaddr where
  | inet4 (port : ℤ) (addr : List Byte)
  | inet6 (port : ℤ) (addr : List Byte)
  deriving DecidableEq, Repr

structure Timeval where
  sec : ℤ
  usec : ℤ
  deriving DecidableEq, Repr

/-- What the calls of the system answer: `none` is success. -/
structure Answers where
  allocator : Allocator
  socket : Domain → Option Errno
  /-- The first `NewMap`, and the one that is tried when it fails. -/
  newMap : Option Errno
  newMapAgain : Option Errno
  newProgram : Option Errno
  attach : Option Errno
  setTimeout : Timeval → Option Errno
  connect : Sockaddr → Option Errno
  fileConn : Option Errno
  /-- What the filter has counted, and the order in which the map is walked. -/
  ttls : TtlMap
  order : Lib.KeyOrder.Order MapU32 MapU64

/-! ## The code -/

def v4InV6Prefix : List Byte := [0, 0, 0, 0, 0, 0, 0, 0, 0, 0, 0xff, 0xff]

def to4 (ip : List Byte) : Option (List Byte) :=
  if ip.length = 4 then some ip
  else if ip.length = 16 ∧ ip.take 12 = v4InV6Prefix then some (ip.drop 12)
  else none

def to16 (ip : List Byte) : Option (List Byte) :=
  if ip.length = 4 then some (v4InV6Prefix ++ ip)
  else if ip.length = 16 then some ip
  else none

section

variable (answers : Answers)

/-- `NewMap`, and once more when it fails. -/
def newMapRetried : StateM Table (Except Errno ℤ) := do
  match ← create answers.allocator answers.newMap with
  | .error _ => create answers.allocator answers.newMapAgain
  | .ok bpfMap => return .ok bpfMap

/-- `AttachTTLBPF` once it has a map: the descriptors of the map and of the program, or an error. -/
def attachProgram (mapFd : ℤ) : StateM Table (ℤ × ℤ × Option Errno) := do
  match ← create answers.allocator answers.newProgram with
  | .error err =>
    close mapFd
    return (-1, -1, some err)
  | .ok bpfFd =>
    match answers.attach with
    | some err =>
      close mapFd
      close bpfFd
      return (-1, -1, some err)
    | none => return (mapFd, bpfFd, none)

def attachTTLBPF : StateM Table (ℤ × ℤ × Option Errno) := do
  match ← newMapRetried answers with
  | .error err => return (-1, -1, some err)
  | .ok mapFd => attachProgram answers mapFd

/-- The option is taken off the socket, which may fail without notice. -/
def detachTTLBPF (mapFd bpfFd : ℤ) : StateM Table Unit := do
  close bpfFd
  close mapFd

/-- `ReadTTLBPF`, which takes one turn for each key and one more at most. -/
def readTTL (mapFd : ℤ) : ℤ :=
  ((readTTLBPF answers.order (answers.ttls.keys.length + 1) mapFd answers.ttls).map (·.1)).getD 255

def domainOf (dst : TCPAddr) : Domain := if (to4 dst.ip).isSome then .afInet else .afInet6

def sockaddrOf (dst : TCPAddr) : Sockaddr :=
  match to4 dst.ip with
  | some ip => .inet4 dst.port ip
  | none => .inet6 dst.port ((to16 dst.ip).getD (List.replicate 16 0))

/-- `SO_SNDTIMEO` for a timeout in nanoseconds. -/
def timevalOf (ns : ℤ) : Timeval :=
  let sec := ns.tdiv 1000000000
  { sec := sec, usec := (ns - sec * 1000000000).tdiv 1000 }

/-- The answer to the timeout, which is only set when there is one. -/
def timeoutSet (timeout : ℤ) : Option Errno :=
  if timeout > 0 then answers.setTimeout (timevalOf timeout) else none

/-- `MagicTCPDialTimeoutTTL` behind the attempt to attach the filter: the descriptor of the connection
and the distance, or the error. -/
def dialTimeout (dst : TCPAddr) (timeout fd mapFd bpfFd : ℤ) :
    StateM Table (Except Errno (ℤ × ℤ)) := do
  match timeoutSet answers timeout with
  | some err =>
    close fd
    return .error err
  | none =>
    match answers.connect (sockaddrOf dst) with
    | some err =>
      close fd
      return .error err
    | none =>
      -- the timeout is cleared again, and nothing is done if that fails
      let minDist := readTTL answers mapFd
      detachTTLBPF mapFd bpfFd
      let made ← create answers.allocator answers.fileConn
      close fd
      match made with
      | .error err => return .error err
      | .ok c => return .ok (c, minDist)

def magicTCPDialTimeoutTTL (dst : TCPAddr) (timeout : ℤ) : StateM Table (Except Errno (ℤ × ℤ)) := do
  match ← create answers.allocator (answers.socket (domainOf dst)) with
  | .error err => return .error err
  | .ok fd =>
    let (mapFd, bpfFd, _) ← attachTTLBPF answers
    dialTimeout answers dst timeout fd mapFd bpfFd

end

/-! ## The descriptors -/

/-- After an error the same descriptors are open as before, after a success one more, that of the
connection. -/
def KeepsDescriptors (before : Table) : Except Errno (ℤ × ℤ) × Table → Prop
  | (.error _, after) => after = before
  | (.ok (c, _), after) => ∃ fd : ℕ, c = fd ∧ fd ∉ before ∧ after = insert fd before

variable {answers : Answers} {before : Table} {dst : TCPAddr} {timeout : ℤ}

/-- The calls of `AttachTTLBPF` that matter succeed. -/
def Attaches (answers : Answers) : Prop :=
  (answers.newMap = none ∨ answers.newMapAgain = none) ∧
    answers.newProgram = none ∧ answers.attach = none

instance decidableAttaches (answers : Answers) : Decidable (Attaches answers) :=
  inferInstanceAs (Decidable (_ ∧ _))

theorem newMapRetried_ok (before : Table)
    (made : answers.newMap = none ∨ answers.newMapAgain = none) :
    ∃ fd : ℕ, fd ∉ before ∧ (newMapRetried answers).run before = (.ok ↑fd, insert fd before) := by
  obtain ⟨fd, fresh, opened⟩ := create_ok Errno answers.allocator before
  refine ⟨fd, fresh, ?_⟩
  cases first : answers.newMap with
  | none => exact run_bind (first ▸ opened)
  | some err =>
    have second : answers.newMapAgain = none := made.resolve_left (by simp [first])
    have failed : (create answers.allocator answers.newMap).run before = (.error err, before) := by
      rw [first, create_error]
    exact (run_bind failed).trans (second ▸ opened)

theorem newMapRetried_error {first second : Errno} (failed : answers.newMap = some first)
    (again : answers.newMapAgain = some second) :
    (newMapRetried answers).run before = (.error second, before) := by
  rw [newMapRetried, failed, again]
  rfl

/-- Without the program, or without the option, the map is closed again. -/
theorem attachProgram_error {mapFd : ℕ} (fresh : mapFd ∉ before)
    (fails : ¬ (answers.newProgram = none ∧ answers.attach = none)) :
    ∃ err, (attachProgram answers mapFd).run (insert mapFd before) = ((-1, -1, some err), before) := by
  cases loaded : answers.newProgram with
  | some err =>
    have failed : (create answers.allocator answers.newProgram).run (insert mapFd before) =
        (.error err, insert mapFd before) := by rw [loaded, create_error]
    exact ⟨err, (run_bind failed).trans (run_bind (close_insert fresh))⟩
  | none =>
    cases attached : answers.attach with
    | none => exact absurd ⟨loaded, attached⟩ fails
    | some err =>
      obtain ⟨bpfFd, bpfFresh, opened⟩ :=
        create_ok Errno answers.allocator (insert mapFd before)
      have other : mapFd ≠ bpfFd := fun same => bpfFresh (same ▸ Finset.mem_insert_self _ _)
      have bpfClosed : bpfFd ∉ before := fun inside => bpfFresh (Finset.mem_insert_of_mem inside)
      refine ⟨err, (run_bind (loaded ▸ opened)).trans ?_⟩
      simp only [attached]
      exact (run_bind (close_insert_insert fresh other)).trans (run_bind (close_insert bpfClosed))

/-- Two descriptors more, of the map and of the program, or none. -/
theorem attachTTLBPF_ok (before : Table) (attaches : Attaches answers) :
    ∃ mapFd bpfFd : ℕ, mapFd ∉ before ∧ bpfFd ∉ insert mapFd before ∧
      (attachTTLBPF answers).run before =
        ((↑mapFd, ↑bpfFd, none), insert bpfFd (insert mapFd before)) := by
  obtain ⟨made, loaded, attached⟩ := attaches
  obtain ⟨mapFd, mapFresh, map⟩ := newMapRetried_ok before made
  obtain ⟨bpfFd, bpfFresh, program⟩ :=
    create_ok Errno answers.allocator (insert mapFd before)
  refine ⟨mapFd, bpfFd, mapFresh, bpfFresh, (run_bind map).trans ((run_bind (loaded ▸ program)).trans ?_)⟩
  simp only [attached]
  rfl

theorem attachTTLBPF_error (before : Table) (fails : ¬ Attaches answers) :
    ∃ err, (attachTTLBPF answers).run before = ((-1, -1, some err), before) := by
  by_cases made : answers.newMap = none ∨ answers.newMapAgain = none
  · obtain ⟨mapFd, fresh, map⟩ := newMapRetried_ok before made
    obtain ⟨err, closed⟩ := attachProgram_error fresh fun attached => fails ⟨made, attached⟩
    exact ⟨err, (run_bind map).trans closed⟩
  · cases first : answers.newMap with
    | none => exact absurd (.inl first) made
    | some err =>
      cases second : answers.newMapAgain with
      | none => exact absurd (.inr second) made
      | some again => exact ⟨again, run_bind (newMapRetried_error first second)⟩

/-- The call ends with the timeout or with the connection. -/
def EndsEarly (answers : Answers) (dst : TCPAddr) (timeout : ℤ) : Prop :=
  timeoutSet answers timeout ≠ none ∨ answers.connect (sockaddrOf dst) ≠ none

instance decidableEndsEarly (answers : Answers) (dst : TCPAddr) (timeout : ℤ) :
    Decidable (EndsEarly answers dst timeout) :=
  inferInstanceAs (Decidable (_ ∨ _))

/-- Then the socket is all that is closed. -/
theorem dialTimeout_early (early : EndsEarly answers dst timeout) (fd : ℕ) (mapFd bpfFd : ℤ)
    (opened : Table) :
    ∃ err, (dialTimeout answers dst timeout fd mapFd bpfFd).run opened =
      (.error err, opened.erase fd) := by
  unfold dialTimeout
  cases set : timeoutSet answers timeout with
  | some err => exact ⟨err, run_bind (close_run fd)⟩
  | none =>
    cases connected : answers.connect (sockaddrOf dst) with
    | some err => exact ⟨err, run_bind (close_run fd)⟩
    | none => exact absurd early (by simp [EndsEarly, set, connected])

/-- Otherwise the socket makes room for its copy, once the filter is closed. -/
theorem dialTimeout_late (late : ¬ EndsEarly answers dst timeout) {fd : ℕ} (fresh : fd ∉ before)
    {mapFd bpfFd : ℤ} {opened : Table}
    (detached : (detachTTLBPF mapFd bpfFd).run opened = ((), insert fd before)) :
    KeepsDescriptors before ((dialTimeout answers dst timeout fd mapFd bpfFd).run opened) := by
  obtain ⟨set, connected⟩ : timeoutSet answers timeout = none ∧ answers.connect (sockaddrOf dst) = none := by
    simpa [EndsEarly] using late
  unfold dialTimeout
  simp only [set, connected]
  rw [run_bind detached]
  cases copied : answers.fileConn with
  | some err =>
    rw [run_bind (create_error err), run_bind (close_insert fresh)]
    rfl
  | none =>
    obtain ⟨c, cFresh, opened⟩ := create_ok Errno answers.allocator (insert fd before)
    have other : fd ≠ c := fun same => cFresh (same ▸ Finset.mem_insert_self _ _)
    rw [run_bind opened, run_bind (close_insert_insert fresh other)]
    exact ⟨c, rfl, fun inside => cFresh (Finset.mem_insert_of_mem inside), rfl⟩

theorem detachTTLBPF_ok {mapFd bpfFd : ℕ} {opened : Table} (mapFresh : mapFd ∉ opened)
    (bpfFresh : bpfFd ∉ insert mapFd opened) :
    (detachTTLBPF mapFd bpfFd).run (insert bpfFd (insert mapFd opened)) = ((), opened) :=
  (run_bind (close_insert bpfFresh)).trans (close_insert mapFresh)

/-- Without a filter there is nothing to close. -/
theorem detachTTLBPF_none (opened : Table) : (detachTTLBPF (-1) (-1)).run opened = ((), opened) :=
  (run_bind (close_negative (by decide))).trans (close_negative (by decide))

theorem magicTCPDialTimeoutTTL_run {opened attachedTo : Table} {fd mapFd bpfFd : ℤ}
    {err : Option Errno}
    (made : (create answers.allocator (answers.socket (domainOf dst))).run before = (.ok fd, opened))
    (attached : (attachTTLBPF answers).run opened = ((mapFd, bpfFd, err), attachedTo)) :
    (magicTCPDialTimeoutTTL answers dst timeout).run before =
      (dialTimeout answers dst timeout fd mapFd bpfFd).run attachedTo := by
  rw [magicTCPDialTimeoutTTL, run_bind made]
  dsimp only
  rw [run_bind attached]

/-- The descriptors of the filter are left behind when the socket alone is closed. -/
theorem insert_insert_erase_ne {fd mapFd : ℕ} (mapFresh : mapFd ∉ insert fd before) (bpfFd : ℕ) :
    (insert bpfFd (insert mapFd (insert fd before))).erase fd ≠ before := by
  intro same
  have left : mapFd ∈ (insert bpfFd (insert mapFd (insert fd before))).erase fd := by
    have other : mapFd ≠ fd := fun equal => mapFresh (equal ▸ Finset.mem_insert_self _ _)
    exact Finset.mem_erase.mpr ⟨other, Finset.mem_insert_of_mem (Finset.mem_insert_self _ _)⟩
  rw [same] at left
  exact mapFresh (Finset.mem_insert_of_mem left)

/-- The call leaks the descriptors of the filter if and only if it attaches one and ends early. -/
theorem magicTCPDialTimeoutTTL_keeps_iff (answers : Answers) (dst : TCPAddr) (timeout : ℤ)
    (before : Table) :
    KeepsDescriptors before ((magicTCPDialTimeoutTTL answers dst timeout).run before) ↔
      ¬ (answers.socket (domainOf dst) = none ∧ Attaches answers ∧
        EndsEarly answers dst timeout) := by
  cases socket : answers.socket (domainOf dst) with
  | some err =>
    have failed : (magicTCPDialTimeoutTTL answers dst timeout).run before = (.error err, before) := by
      rw [magicTCPDialTimeoutTTL, socket, run_bind (create_error err)]
      rfl
    rw [failed]
    simp [KeepsDescriptors]
  | none =>
    obtain ⟨fd, fresh, made⟩ := create_ok Errno answers.allocator before
    rw [← socket] at made
    -- The call goes on without a filter: its errors are dropped.
    by_cases attaches : Attaches answers
    · obtain ⟨mapFd, bpfFd, mapFresh, bpfFresh, attached⟩ :=
        attachTTLBPF_ok (insert fd before) attaches
      rw [magicTCPDialTimeoutTTL_run made attached]
      by_cases early : EndsEarly answers dst timeout
      -- The two returns close the socket, and leave the map and the program.
      · obtain ⟨err, left⟩ := dialTimeout_early early fd mapFd bpfFd
          (insert bpfFd (insert mapFd (insert fd before)))
        rw [left]
        exact iff_of_false (insert_insert_erase_ne mapFresh bpfFd)
          (not_not_intro ⟨rfl, attaches, early⟩)
      · exact iff_of_true (dialTimeout_late early fresh (detachTTLBPF_ok mapFresh bpfFresh))
          fun leaks => early leaks.2.2
    · obtain ⟨err, attached⟩ := attachTTLBPF_error (insert fd before) attaches
      rw [magicTCPDialTimeoutTTL_run made attached]
      refine iff_of_true ?_ fun leaks => attaches leaks.2.1
      by_cases early : EndsEarly answers dst timeout
      · obtain ⟨err, left⟩ := dialTimeout_early early fd (-1) (-1) (insert fd before)
        rw [left, Finset.erase_insert fresh]
        rfl
      · exact dialTimeout_late early fresh (detachTTLBPF_none _)

/-- Every call succeeds but for that to `connect`, which is refused. -/
def refused : Answers where
  allocator := .next
  socket := fun _ => none
  newMap := none
  newMapAgain := none
  newProgram := none
  attach := none
  setTimeout := fun _ => none
  connect := fun _ => some 111
  fileConn := none
  ttls := ∅
  order := ⟨AList.keys, fun _ => .refl _⟩

/-- The map and the program stay open when the connection is refused. -/
theorem magicTCPDialTimeoutTTL_refused :
    ¬ KeepsDescriptors {0, 1, 2}
      ((magicTCPDialTimeoutTTL refused ⟨[127, 0, 0, 1], 80⟩ 0).run {0, 1, 2}) := by
  intro keeps
  have left : ((magicTCPDialTimeoutTTL refused ⟨[127, 0, 0, 1], 80⟩ 0).run {0, 1, 2}).2 =
      {0, 1, 2, 4, 5} := by decide
  have same : ((magicTCPDialTimeoutTTL refused ⟨[127, 0, 0, 1], 80⟩ 0).run {0, 1, 2}).2 =
      {0, 1, 2} := keeps
  exact absurd (left.symm.trans same) (by decide)

end CloudflareBlog.Ebpf

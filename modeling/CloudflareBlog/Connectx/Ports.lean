import Mathlib.Data.Finset.Basic
import CloudflareBlog.Lib.CircularScan
import CloudflareBlog.Lib.Raising

/-!
# `_get_udp_port`

A port for a socket that has none: the ports of the ephemeral range are tried one after another from
a random one on, until a lookup finds no socket for the pair of addresses that the port would make.
Python's integers have no bounds.
-/

namespace CloudflareBlog.Connectx

open CloudflareBlog.Lib.Raising CloudflareBlog.Lib.CircularScan

/-- The exceptions that the program raises, or that pass through it. -/
inductive Exn where
  | osError (errno : Nat)
  | assertionError
  | valueError
  | structError
  | overflowError
  deriving DecidableEq

def eagain : Nat := 11

def eaddrinuse : Nat := 98

/-- The eight bytes of a socket's cookie. -/
abbrev Cookie := List (BitVec 8)

/-- `ephemeral_lo`, `ephemeral_hi` and `ephemeral_skip`. -/
structure Ephemeral where
  lo : Int
  hi : Int
  skip : Finset Int

section

variable {World : Type}

/-- The `while` loop.  Every round makes `off` larger by one, so `hi + 1 - lo` rounds are enough. -/
def portLoop (lookup : Int → Program World Exn (Option Cookie)) (ephemeral : Ephemeral)
    (start : Int) : Nat → Int → Program World Exn Int
  | 0, _ => throw (.osError eagain)
  | rounds + 1, off =>
    if off < ephemeral.hi + 1 - ephemeral.lo then
      let port := start + off
      let off := off + 1
      let port := if port > ephemeral.hi then port - (ephemeral.hi + 1) + ephemeral.lo else port
      if port ∈ ephemeral.skip then portLoop lookup ephemeral start rounds off
      else if ¬ port ≥ ephemeral.lo then throw .assertionError
      else if ¬ port ≤ ephemeral.hi then throw .assertionError
      else do
        match ← lookup port with
        | none => return port
        | some _ => portLoop lookup ephemeral start rounds off
    else throw (.osError eagain)

/-- `_get_udp_port`, on what it reads of the system. -/
def getUdpPort (readEphemeral : Program World Exn Ephemeral)
    (randint : (lo hi : Int) → Program World Exn Int)
    (lookup : Int → Program World Exn (Option Cookie)) : Program World Exn Int := do
  let ephemeral ← readEphemeral
  let start ← randint ephemeral.lo ephemeral.hi
  portLoop lookup ephemeral start (ephemeral.hi + 1 - ephemeral.lo).toNat 0

end

/-- A round with a port that is not reserved looks it up; the assertions hold. -/
theorem portLoop_succ {World : Type} (lookup : Int → Program World Exn (Option Cookie))
    {ephemeral : Ephemeral} {start off : Int} (low : ephemeral.lo ≤ start)
    (high : start ≤ ephemeral.hi) (nonnegative : 0 ≤ off)
    (inside : off < ephemeral.hi + 1 - ephemeral.lo) (rounds : Nat) :
    portLoop lookup ephemeral start (rounds + 1) off =
      let port := visit ephemeral.lo ephemeral.hi start off
      if port ∈ ephemeral.skip then portLoop lookup ephemeral start rounds (off + 1)
      else lookup port >>= fun c =>
        match c with
        | none => pure port
        | some _ => portLoop lookup ephemeral start rounds (off + 1) := by
  have bounds := visit_bounds low high nonnegative inside
  rw [portLoop, if_pos inside]
  change (if visit ephemeral.lo ephemeral.hi start off ∈ ephemeral.skip then _
    else if ¬ visit ephemeral.lo ephemeral.hi start off ≥ ephemeral.lo then _
    else if ¬ visit ephemeral.lo ephemeral.hi start off ≤ ephemeral.hi then _ else _) = _
  rw [if_neg (not_not_intro bounds.1), if_neg (not_not_intro bounds.2)]
  rfl

/-! ## A system that does not change -/

/-- A lookup that gives the same answer for a port at all times, and is recorded. -/
def fixedLookup (answer : Int → Option Cookie) (port : Int) :
    Program (List Int) Exn (Option Cookie) := do
  modify (· ++ [port])
  return answer port

/-- The port is in the range, not reserved, and no socket was found for it. -/
def Free (ephemeral : Ephemeral) (answer : Int → Option Cookie) (port : Int) : Prop :=
  (ephemeral.lo ≤ port ∧ port ≤ ephemeral.hi) ∧ port ∉ ephemeral.skip ∧ answer port = none

instance (ephemeral : Ephemeral) (answer : Int → Option Cookie) (port : Int) :
    Decidable (Free ephemeral answer port) := inferInstanceAs (Decidable (_ ∧ _ ∧ _))

/-- `_get_udp_port` with a random start: the port or the exception, and the ports that it looked up. -/
def search (ephemeral : Ephemeral) (answer : Int → Option Cookie) (start : Int) :
    Except Exn Int × List Int :=
  exec (getUdpPort (pure ephemeral) (fun _ _ => pure start) (fixedLookup answer)) []

/-- What a search is for, and what it must not do on the way. -/
structure Searches (ephemeral : Ephemeral) (answer : Int → Option Cookie)
    (run : Except Exn Int × List Int) : Prop where
  free : ∀ port, run.1 = .ok port → Free ephemeral answer port
  finds : (∃ port, Free ephemeral answer port) → ∃ port, run.1 = .ok port
  exhausted : run.1 = .error (.osError eagain) ↔ ¬ ∃ port, Free ephemeral answer port
  once : run.2.Nodup
  unreserved : ∀ port ∈ run.2, port ∉ ephemeral.skip
  asserted : run.1 ≠ .error .assertionError

/-! ## The loop -/

section

variable {ephemeral : Ephemeral} {answer : Int → Option Cookie} {start : Int}

theorem exec_fixedLookup (port : Int) (looked : List Int) :
    exec (fixedLookup answer port) looked = (.ok (answer port), looked ++ [port]) := rfl

/-- The loop returns the first free port of its round; the ports that it has looked up are some of
those that are not reserved, in their order. -/
theorem exec_portLoop (low : ephemeral.lo ≤ start) (high : start ≤ ephemeral.hi) {rounds : Nat}
    {off : Int} (nonnegative : 0 ≤ off) (round : off + rounds = ephemeral.hi + 1 - ephemeral.lo)
    (before : List Int) :
    ∃ looked, exec (portLoop (fixedLookup answer) ephemeral start rounds off) before =
        (match (circuit ephemeral.lo ephemeral.hi start off rounds).find?
            (fun port => decide (Free ephemeral answer port)) with
          | some port => .ok port
          | none => .error (.osError eagain), before ++ looked) ∧
      looked.Sublist ((circuit ephemeral.lo ephemeral.hi start off rounds).filter
        (fun port => decide (port ∉ ephemeral.skip))) := by
  induction rounds generalizing off before with
  | zero => exact ⟨[], by simp [portLoop, circuit], by simp⟩
  | succ rounds inductionHypothesis =>
    have inside : off < ephemeral.hi + 1 - ephemeral.lo := by omega
    have bounds := visit_bounds low high nonnegative inside
    have later := @inductionHypothesis (off + 1) (by omega) (by omega)
    rw [portLoop_succ _ low high nonnegative inside, circuit]
    simp only
    generalize visit ephemeral.lo ephemeral.hi start off = port at bounds ⊢
    by_cases reserved : port ∈ ephemeral.skip
    · -- a reserved port costs a round and no lookup
      obtain ⟨looked, run, sublist⟩ := later before
      have taken : ¬ Free ephemeral answer port := fun free => free.2.1 reserved
      refine ⟨looked, ?_, ?_⟩
      · rw [if_pos reserved, run, List.find?_cons_of_neg (by simpa using taken)]
      · rw [List.filter_cons_of_neg (by simpa using reserved)]
        exact sublist
    · rw [if_neg reserved, exec_bind_ok (exec_fixedLookup port before),
        List.filter_cons_of_pos (by simpa using reserved)]
      cases found : answer port with
      | none =>
        -- the first free port ends the circuit, and it was looked up last
        have free : Free ephemeral answer port := ⟨bounds, reserved, found⟩
        refine ⟨[port], ?_, List.Sublist.cons_cons _ (List.nil_sublist _)⟩
        rw [List.find?_cons_of_pos (by simpa using free)]
        rfl
      | some cookie =>
        obtain ⟨looked, run, sublist⟩ := later (before ++ [port])
        have taken : ¬ Free ephemeral answer port := fun free => by
          rw [Free, found] at free
          cases free.2.2
        refine ⟨port :: looked, ?_, sublist.cons_cons port⟩
        rw [List.find?_cons_of_neg (by simpa using taken), List.append_cons before port looked]
        exact run

/-- A search returns the first free port of the round. -/
theorem search_eq (low : ephemeral.lo ≤ start) (high : start ≤ ephemeral.hi) :
    ∃ looked, search ephemeral answer start =
        (match (fullRound ephemeral.lo ephemeral.hi start).find?
            (fun port => decide (Free ephemeral answer port)) with
          | some port => .ok port
          | none => .error (.osError eagain), looked) ∧
      looked.Sublist ((fullRound ephemeral.lo ephemeral.hi start).filter
        (fun port => decide (port ∉ ephemeral.skip))) := by
  have whole : 0 + ((ephemeral.hi + 1 - ephemeral.lo).toNat : Int) =
      ephemeral.hi + 1 - ephemeral.lo := by omega
  obtain ⟨looked, run, sublist⟩ := @exec_portLoop ephemeral answer start low high _ 0 (le_refl 0)
    whole []
  refine ⟨looked, ?_, sublist⟩
  rw [List.nil_append] at run
  exact run

theorem search_free (low : ephemeral.lo ≤ start) (high : start ≤ ephemeral.hi) {port : Int}
    (returned : (search ephemeral answer start).1 = .ok port) : Free ephemeral answer port := by
  obtain ⟨looked, run, -⟩ := @search_eq ephemeral answer start low high
  rw [run] at returned
  cases found : (fullRound ephemeral.lo ephemeral.hi start).find?
      (fun port => decide (Free ephemeral answer port)) with
  | none =>
    rw [found] at returned
    exact nomatch returned
  | some first =>
    rw [found] at returned
    cases returned
    simpa using List.find?_some found

theorem search_first (low : ephemeral.lo ≤ start) (high : start ≤ ephemeral.hi)
    (free : Free ephemeral answer start) : (search ephemeral answer start).1 = .ok start := by
  obtain ⟨looked, run, -⟩ := @search_eq ephemeral answer start low high
  obtain ⟨rounds, more⟩ : ∃ rounds, (ephemeral.hi + 1 - ephemeral.lo).toNat = rounds + 1 :=
    ⟨(ephemeral.hi - ephemeral.lo).toNat, by omega⟩
  have here : visit ephemeral.lo ephemeral.hi start 0 = start := by
    rw [visit, if_neg (by omega), Int.add_zero]
  rw [run, fullRound, more, circuit, here, List.find?_cons_of_pos (by simpa using free)]

/-- For every range, set of reserved ports, start and answers: a search returns a free port if there is
one and raises `EAGAIN` if there is none, looks up no port twice and no reserved port, and its assertions
hold. -/
theorem getUdpPort_searches (ephemeral : Ephemeral) (answer : Int → Option Cookie) (start : Int)
    (low : ephemeral.lo ≤ start) (high : start ≤ ephemeral.hi) :
    Searches ephemeral answer (search ephemeral answer start) := by
  have returnsFree {port : Int} := @search_free ephemeral answer start low high port
  obtain ⟨looked, run, sublist⟩ := @search_eq ephemeral answer start low high
  have distinct := (nodup_fullRound low high).filter
    (fun port => decide (port ∉ ephemeral.skip))
  have visited (port : Int) (free : Free ephemeral answer port) :
      port ∈ fullRound ephemeral.lo ephemeral.hi start :=
    (mem_fullRound low high).mpr free.1
  have unreserved : ∀ port ∈ looked, port ∉ ephemeral.skip := by
    intro port among
    have kept := (List.mem_filter.mp (sublist.subset among)).2
    simpa using kept
  rw [run] at returnsFree ⊢
  -- the first free port of the round, or none in the whole of it
  cases found : (fullRound ephemeral.lo ephemeral.hi start).find?
      (fun port => decide (Free ephemeral answer port)) with
  | some port =>
    rw [found] at returnsFree
    have free := returnsFree rfl
    constructor
    case free => exact fun _ => returnsFree
    case finds => exact fun _ => ⟨port, rfl⟩
    case exhausted => exact iff_of_false (fun raised => nomatch raised) fun none => none ⟨port, free⟩
    case once => exact distinct.sublist sublist
    case unreserved => exact unreserved
    case asserted => exact fun raised => nomatch raised
  | none =>
    have taken : ¬ ∃ port, Free ephemeral answer port := by
      rintro ⟨port, free⟩
      have := List.find?_eq_none.mp found port (visited port free)
      simp [free] at this
    constructor
    case free => exact fun _ returned => nomatch returned
    case finds => exact fun free => absurd free taken
    case exhausted => exact iff_of_true rfl taken
    case once => exact distinct.sublist sublist
    case unreserved => exact unreserved
    case asserted => exact fun raised => nomatch raised

end

/-- Three ports, of which the first is reserved and the last in use. -/
theorem getUdpPort_searches_three :
    Searches ⟨10, 12, {10}⟩ (fun port => if port = 12 then some [] else none)
      (search ⟨10, 12, {10}⟩ (fun port => if port = 12 then some [] else none) 12) :=
  getUdpPort_searches _ _ 12 (by decide) (by decide)

/-- From the last port on, the scan goes over the reserved one to the one in the middle. -/
example : search ⟨10, 12, {10}⟩ (fun port => if port = 12 then some [] else none) 12 =
    (.ok 11, [12, 11]) := by
  decide +kernel

end CloudflareBlog.Connectx

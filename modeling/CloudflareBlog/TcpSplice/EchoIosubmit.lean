import CloudflareBlog.TcpSplice.EchoNaive
import Mathlib.Logic.Function.Basic

/-!
# `echo-iosubmit`

One `io_submit` writes the bytes of the round before and reads new ones into the same buffer, one
`io_getevents` fetches both results.  The program looks at the result of the write only to see that
it is no error, and at the second event without asking whether there was one: the array of events is
zeroed, so a missing second event is the end of the stream.  A short write loses its rest, a missing
completion ends the connection with bytes unwritten, and the completion turns up in the next one.

`kept_of_complete` is the other side: where every `io_getevents` fetches both completions and every
write that is followed by a read writes all it was asked to, no byte is lost, over any number of
connections.  Within one of them less is enough, and `kept_iff` has the exact condition.
-/

namespace CloudflareBlog.TcpSplice.EchoIosubmit

open Lib.Buffer Lib.Driven
open EchoNaive (bufferSize)

/-! ## The completions -/

/-- The two elements of `cb`. -/
inductive Iocb where
  | pwrite
  | pread
  deriving DecidableEq, Repr

/-- `struct io_event`, as far as it is filled in. -/
structure IoEvent where
  /-- `none` in an event that nothing was stored into. -/
  obj : Option Iocb
  res : Int
  deriving DecidableEq, Repr

/-- `struct io_event events[2] = {{0}}`. -/
def zeroed : Nat → IoEvent := fun _ => ⟨none, 0⟩

/-- The loop of `io_getevents`, over the completions that the ring shows. -/
def reapLoop (maxNr : Nat) (i : Nat) (ring : List IoEvent) (events : Nat → IoEvent) :
    Nat × List IoEvent × (Nat → IoEvent) :=
  match ring with
  | [] => (i, [], events)
  | event :: rest =>
    if i < maxNr then reapLoop maxNr (i + 1) rest (Function.update events i event)
    else (i, ring, events)

/-- `io_getevents`, when it sees the first completions of the ring and the rest not yet.  An empty
ring is the kernel's to wait for, and comes back in the same way. -/
def ioGetevents (maxNr visible : Nat) (ring : List IoEvent) (events : Nat → IoEvent) :
    Nat × List IoEvent × (Nat → IoEvent) :=
  match reapLoop maxNr 0 (ring.take visible) events with
  | (i, rest, events) => (i, rest ++ ring.drop visible, events)

/-! ## The program -/

inductive Pc where
  /-- Before `net_accept`. -/
  | accept
  /-- Before `io_submit`. -/
  | submit
  /-- `break`, for the second event says 0. -/
  | eof
  /-- Any other `break`. -/
  | broken
  /-- `PFATAL`. -/
  | fatal
  deriving DecidableEq, Repr

structure State where
  pc : Pc
  /-- `cb[0].aio_nbytes`. -/
  aioNbytes : Nat
  buf : Nat → Byte
  /-- The completions of `ctx` that were not fetched yet. -/
  ring : List IoEvent
  /-- The events that the latest `io_getevents` fetched. -/
  fetched : List IoEvent
  /-- What the rounds of this connection read, the latest round set apart. -/
  earlier : List Byte
  latest : List Byte
  /-- What the rounds of this connection wrote. -/
  written : List Byte

/-- After `io_setup`. -/
def start : State := ⟨.accept, 0, fun _ => 0, [], [], [], [], []⟩

/-- What the kernel answers in one round. -/
structure Round where
  /-- `io_submit` returns 2. -/
  submitted : Bool
  pwrite : Int
  /-- The bytes of `pread`, or its negative result. -/
  pread : Except Int (List Byte)
  /-- How many completions `io_getevents` finds, nothing when it fails. -/
  visible : Option Nat

def Round.preadRes (round : Round) : Int :=
  match round.pread with
  | .ok data => data.length
  | .error res => res

/-- The bytes that `pread` stores. -/
def Round.data (round : Round) : List Byte :=
  match round.pread with
  | .ok data => data
  | .error _ => []

/-- The kernel writes and reads no more than it is asked to, and answers from the ring. -/
def Round.fits (s : State) (round : Round) : Bool :=
  round.pwrite ≤ s.aioNbytes &&
    (match round.pread with
      | .ok data => decide (data.length ≤ bufferSize)
      | .error res => decide (res < 0)) &&
    (match round.visible with
      | some visible => decide (1 ≤ visible ∧ visible ≤ s.ring.length + 2)
      | none => true)

/-- `io_submit`: the write first, from the bytes that the read then overwrites. -/
def ioSubmit (s : State) (round : Round) : State :=
  { s with
    buf := store s.buf 0 round.data
    ring := s.ring ++ [⟨some .pwrite, round.pwrite⟩, ⟨some .pread, round.preadRes⟩]
    earlier := s.earlier ++ s.latest
    latest := round.data
    written := s.written ++ (slice s.buf 0 s.aioNbytes).take round.pwrite.toNat }

/-- The checks behind `io_getevents`. -/
def inspect (s : State) (events : Nat → IoEvent) : State :=
  if (events 0).res < 0 then { s with pc := .broken }
  else if (events 1).res < 0 then { s with pc := .broken }
  else if (events 1).res = 0 then { s with pc := .eof }
  else { s with aioNbytes := (events 1).res.toNat }

def turn (s : State) (round : Round) : State :=
  if round.submitted then
    match round.visible with
    | none => { ioSubmit s round with pc := .fatal }
    | some visible =>
      match ioGetevents 2 visible (ioSubmit s round).ring zeroed with
      | (r, ring, events) =>
        inspect { ioSubmit s round with ring := ring, fetched := (List.range r).map events } events
  else { s with pc := .fatal }

inductive Input where
  /-- `net_accept`: a new connection, with whatever the stack holds in `buf`. -/
  | accept (buf : Nat → Byte)
  | round (round : Round)

/-- The loop of one connection. -/
def roundStep (s : State) (round : Round) : Option State :=
  if s.pc = .submit ∧ round.fits s then some (turn s round) else none

/-- A connection before its first round. -/
def opened (ring : List IoEvent) (buf : Nat → Byte) : State :=
  ⟨.submit, 0, buf, ring, [], [], [], []⟩

def step (s : State) : Input → Option State
  | .accept buf =>
    if s.pc = .accept ∨ s.pc = .eof ∨ s.pc = .broken then some (opened s.ring buf) else none
  | .round round => roundStep s round

/-! ## What an echo must not lose -/

/-- What earlier rounds read is written when the loop goes round and at the end of the stream, and the
end of the stream is what a read said. -/
def Kept (s : State) : Prop :=
  (s.pc = .submit ∨ s.pc = .eof → s.written = s.earlier) ∧
    (s.pc = .eof → ⟨some .pread, 0⟩ ∈ s.fetched)

/-- A write that succeeds is fetched together with the read, and if the read succeeds too, it wrote
all that it was asked to. -/
def Whole (s : State) (round : Round) : Prop :=
  round.submitted → ∀ visible, round.visible = some visible → 0 ≤ round.pwrite →
    2 ≤ visible ∧ (0 ≤ round.preadRes → round.pwrite = s.aioNbytes)

/-- `io_getevents` fetches both completions. -/
def Drains (round : Round) : Prop :=
  round.submitted → ∀ visible, round.visible = some visible → 2 ≤ visible

/-- Between two rounds no completion is left, and the bytes of the latest read are those that the next
write is asked for. -/
structure Echoes (s : State) : Prop where
  submit : s.pc = .submit →
    s.ring = [] ∧ s.written = s.earlier ∧ slice s.buf 0 s.aioNbytes = s.latest
  eof : s.pc = .eof → s.written = s.earlier ∧ ⟨some .pread, 0⟩ ∈ s.fetched

theorem Echoes.kept {s : State} (echoes : Echoes s) : Kept s := by
  refine ⟨fun place => ?_, fun place => (echoes.eof place).2⟩
  rcases place with submit | eof
  · exact (echoes.submit submit).2.1
  · exact (echoes.eof eof).1

theorem echoes_of_left {s : State} (left : s.pc = .broken ∨ s.pc = .fatal ∨ s.pc = .accept) :
    Echoes s := by
  constructor
  · intro place
    simp [place] at left
  · intro place
    simp [place] at left

theorem echoes_opened (buf : Nat → Byte) : Echoes (opened [] buf) :=
  ⟨fun _ => ⟨rfl, rfl, rfl⟩, nofun⟩

/-! ## A round -/

/-- Both completions of a round, fetched in the order of their submission. -/
theorem ioGetevents_both (first second : IoEvent) :
    ioGetevents 2 2 [first, second] zeroed =
      (2, [], Function.update (Function.update zeroed 0 first) 1 second) := rfl

/-- One completion only: the other stays in the ring, and its place in the array stays zero. -/
theorem ioGetevents_one (first second : IoEvent) :
    ioGetevents 2 1 [first, second] zeroed = (1, [second], Function.update zeroed 0 first) := rfl

section Round

variable {s : State} {round : Round}

/-- The events of a round, in the order of their submission. -/
def Round.events (round : Round) : List IoEvent :=
  [⟨some .pwrite, round.pwrite⟩, ⟨some .pread, round.preadRes⟩]

theorem turn_both (empty : s.ring = []) (submitted : round.submitted)
    (visible : round.visible = some 2) :
    turn s round =
      if round.pwrite < 0 then
        { ioSubmit s round with ring := [], fetched := round.events, pc := .broken }
      else if round.preadRes < 0 then
        { ioSubmit s round with ring := [], fetched := round.events, pc := .broken }
      else if round.preadRes = 0 then
        { ioSubmit s round with ring := [], fetched := round.events, pc := .eof }
      else
        { ioSubmit s round with
          ring := [], fetched := round.events, aioNbytes := round.preadRes.toNat } := by
  have ring : (ioSubmit s round).ring = round.events := by rw [ioSubmit, empty]; rfl
  rw [turn, if_pos submitted, visible]
  simp only [ring, Round.events, ioGetevents_both]
  rfl

theorem turn_one (empty : s.ring = []) (submitted : round.submitted)
    (visible : round.visible = some 1) :
    turn s round =
      { ioSubmit s round with
        ring := [⟨some .pread, round.preadRes⟩]
        fetched := [⟨some .pwrite, round.pwrite⟩]
        pc := if round.pwrite < 0 then .broken else .eof } := by
  have ring : (ioSubmit s round).ring = round.events := by rw [ioSubmit, empty]; rfl
  rw [turn, if_pos submitted, visible]
  simp only [ring, Round.events, ioGetevents_one, inspect]
  by_cases failed : round.pwrite < 0
  · simp [failed, List.range_succ]
  · simp [failed, zeroed, List.range_succ]

theorem length_data (fits : round.fits s) (read : 0 ≤ round.preadRes) :
    round.data.length = round.preadRes.toNat := by
  unfold Round.preadRes at read ⊢
  unfold Round.data
  unfold Round.fits at fits
  cases result : round.pread with
  | ok data => rfl
  | error res =>
    simp only [result, Bool.and_eq_true, decide_eq_true_eq] at fits read
    omega

/-- A write of all that was asked for catches up with the reads. -/
theorem written_ioSubmit (written : s.written = s.earlier)
    (pending : slice s.buf 0 s.aioNbytes = s.latest) (whole : round.pwrite = s.aioNbytes) :
    (ioSubmit s round).written = (ioSubmit s round).earlier := by
  have all : (slice s.buf 0 s.aioNbytes).take round.pwrite.toNat = s.latest := by
    rw [whole, Int.toNat_natCast, List.take_of_length_le (by simp), pending]
  simp only [ioSubmit, all, written]

end Round

/-! ## Runs -/

/-- What `io_getevents` finds, when the ring was empty before the round. -/
theorem visible_eq {s : State} {round : Round} {visible : Nat} (empty : s.ring = [])
    (fits : round.fits s) (found : round.visible = some visible) : visible = 1 ∨ visible = 2 := by
  simp only [Round.fits, found, empty, Bool.and_eq_true, decide_eq_true_eq, List.length_nil] at fits
  omega

theorem Echoes.turn {s : State} {round : Round} (echoes : Echoes s) (submit : s.pc = .submit)
    (fits : round.fits s) (whole : Whole s round) : Echoes (turn s round) := by
  by_cases submitted : round.submitted
  · obtain ⟨empty, written, pending⟩ := echoes.submit submit
    cases found : round.visible with
    | none =>
      rw [EchoIosubmit.turn, if_pos submitted, found]
      exact echoes_of_left (Or.inr (Or.inl rfl))
    | some visible =>
      rcases visible_eq empty fits found with rfl | rfl
      · -- the write alone was fetched, so it failed
        have failed : round.pwrite < 0 := by
          by_contra succeeded
          have both := (whole submitted 1 found (Int.not_lt.mp succeeded)).1
          omega
        rw [turn_one empty submitted found, if_pos failed]
        exact echoes_of_left (Or.inl rfl)
      · rw [turn_both empty submitted found]
        split_ifs with failed failedRead ended
        · exact echoes_of_left (Or.inl rfl)
        · exact echoes_of_left (Or.inl rfl)
        · -- the end of the stream: the read of the round before is written by now
          have all := (whole submitted 2 found (Int.not_lt.mp failed)).2 (Int.not_lt.mp failedRead)
          refine ⟨nofun, fun _ => ⟨written_ioSubmit written pending all, ?_⟩⟩
          simp [Round.events, ended]
        · have all := (whole submitted 2 found (Int.not_lt.mp failed)).2 (Int.not_lt.mp failedRead)
          refine ⟨fun _ => ⟨rfl, written_ioSubmit written pending all, ?_⟩, fun place => ?_⟩
          · show slice (store s.buf 0 round.data) 0 round.preadRes.toNat = round.data
            rw [← length_data fits (Int.not_lt.mp failedRead), slice_store]
          · exact absurd (submit.symm.trans place) nofun
  · rw [EchoIosubmit.turn, if_neg submitted]
    exact echoes_of_left (Or.inr (Or.inl rfl))

/-- A short write is missing from then on, and a missing completion ends the connection unread. -/
theorem Echoes.loses {s : State} {round : Round} (echoes : Echoes s) (submit : s.pc = .submit)
    (fits : round.fits s) (broken : ¬ Whole s round) : ¬ Kept (EchoIosubmit.turn s round) := by
  obtain ⟨empty, written, pending⟩ := echoes.submit submit
  simp only [Whole, not_forall] at broken
  obtain ⟨submitted, visible, found, succeeded, broken⟩ := broken
  intro kept
  rcases visible_eq empty fits found with rfl | rfl
  · rw [turn_one empty submitted found, if_neg (Int.not_lt.mpr succeeded)] at kept
    have fetched := kept.2 rfl
    simp at fetched
  · simp only [Nat.le_refl, true_and, not_forall] at broken
    obtain ⟨read, short⟩ := broken
    have caught : (ioSubmit s round).written = (ioSubmit s round).earlier := by
      rw [turn_both empty submitted found, if_neg (Int.not_lt.mpr succeeded),
        if_neg (Int.not_lt.mpr read)] at kept
      split_ifs at kept with ended
      · exact kept.1 (Or.inr rfl)
      · exact kept.1 (Or.inl submit)
    -- the bytes that the write left out are among those of the read before it
    have all : (slice s.buf 0 s.aioNbytes).take round.pwrite.toNat = slice s.buf 0 s.aioNbytes := by
      simpa [ioSubmit, written, ← pending] using caught
    have reached := congrArg List.length all
    simp only [List.length_take, length_slice] at reached
    simp only [Round.fits, Bool.and_eq_true, decide_eq_true_eq] at fits
    omega

/-- The condition on a run over any number of connections: each round is whole and fetches both of its
completions, so that the next connection finds none. -/
def Complete (s : State) : Input → Prop
  | .accept _ => True
  | .round round => Whole s round ∧ Drains round

theorem complete_round {s : State} {round : Round} (both : round.visible = some 2)
    (all : round.pwrite = s.aioNbytes) : Complete s (.round round) := by
  constructor
  · intro _ visible found _
    obtain rfl := Option.some.inj (both.symm.trans found)
    exact ⟨Nat.le_refl 2, fun _ => all⟩
  · intro _ visible found
    obtain rfl := Option.some.inj (both.symm.trans found)
    exact Nat.le_refl 2

theorem ring_turn {s : State} {round : Round} (empty : s.ring = []) (fits : round.fits s)
    (drains : Drains round) (alive : (turn s round).pc ≠ .fatal) : (turn s round).ring = [] := by
  by_cases submitted : round.submitted
  · cases found : round.visible with
    | none =>
      rw [turn, if_pos submitted, found] at alive
      exact absurd rfl alive
    | some visible =>
      obtain rfl : visible = 2 := by
        have least := drains submitted visible found
        rcases visible_eq empty fits found with one | two
        · omega
        · exact two
      rw [turn_both empty submitted found]
      split_ifs <;> rfl
  · rw [turn, if_neg submitted] at alive
    exact absurd rfl alive

/-- What holds between two steps of the program: the echo, and an empty ring. -/
structure Quiet (s : State) : Prop where
  echoes : Echoes s
  drained : s.pc ≠ .fatal → s.ring = []

theorem quiet_start : Quiet start :=
  ⟨echoes_of_left (Or.inr (Or.inr rfl)), fun _ => rfl⟩

theorem Quiet.step {s t : State} {input : Input} (quiet : Quiet s) (complete : Complete s input)
    (stepped : step s input = some t) : Quiet t := by
  cases input with
  | accept buf =>
    simp only [EchoIosubmit.step, Option.ite_none_right_eq_some, Option.some.injEq] at stepped
    obtain ⟨waits, rfl⟩ := stepped
    have empty : s.ring = [] := by
      refine quiet.drained fun place => ?_
      simp [place] at waits
    rw [empty]
    exact ⟨echoes_opened buf, fun _ => rfl⟩
  | round round =>
    simp only [EchoIosubmit.step, roundStep, Option.ite_none_right_eq_some,
      Option.some.injEq] at stepped
    obtain ⟨⟨submit, fits⟩, rfl⟩ := stepped
    have empty : s.ring = [] := (quiet.echoes.submit submit).1
    exact ⟨quiet.echoes.turn submit fits complete.1, ring_turn empty fits complete.2⟩

/-- Within one connection, with no completion left over from another, no byte is lost exactly in the
runs whose rounds are whole. -/
theorem kept_iff (buf : Nat → Byte) (rounds : List Round) :
    Always roundStep Kept (opened [] buf) rounds ↔
      EachStep roundStep Whole (opened [] buf) rounds := by
  refine always_iff_eachStep (fun _ => Echoes.kept) ?_ ?_ (echoes_opened buf)
  · intro s round t echoes whole stepped
    simp only [roundStep, Option.ite_none_right_eq_some, Option.some.injEq] at stepped
    obtain ⟨⟨submit, fits⟩, rfl⟩ := stepped
    exact echoes.turn submit fits whole
  · intro s round t echoes broken stepped
    simp only [roundStep, Option.ite_none_right_eq_some, Option.some.injEq] at stepped
    obtain ⟨⟨submit, fits⟩, rfl⟩ := stepped
    exact echoes.loses submit fits broken

/-- No byte is lost in a run, over any number of connections, whose rounds are whole and fetch both of
their completions. -/
theorem kept_of_complete (inputs : List Input) (complete : EachStep step Complete start inputs) :
    Always step Kept start inputs :=
  always_of_eachStep (fun _ quiet => Echoes.kept (Quiet.echoes quiet)) (fun _ _ _ => Quiet.step)
    quiet_start complete

/-- A connection that echoes one byte and is closed by the other side. -/
theorem kept_of_complete_one_byte :
    Always step Kept start
      [.accept fun _ => 0, .round ⟨true, 0, .ok [0x61], some 2⟩, .round ⟨true, 1, .ok [], some 2⟩] := by
  refine kept_of_complete _ ?_
  intro opened accepted
  obtain rfl := Option.some.inj accepted
  refine ⟨trivial, fun first turned => ?_⟩
  obtain rfl := Option.some.inj turned
  refine ⟨complete_round rfl rfl, fun second turned => ?_⟩
  obtain rfl := Option.some.inj turned
  exact ⟨complete_round rfl rfl, trivial⟩

/-- A write of two of three bytes goes unnoticed; and when only the completion of the write is there,
the connection ends as if the stream had. -/
theorem not_kept :
    (∃ inputs s, inputs.foldlM step start = some s ∧ s.pc = .submit ∧
      s.earlier = [0x61, 0x62, 0x63] ∧ s.written = [0x61, 0x62] ∧
      ¬ Always step Kept start inputs) ∧
    ∃ inputs s, inputs.foldlM step start = some s ∧ s.pc = .eof ∧
      s.latest = [0x61] ∧ s.written = [] ∧ s.fetched = [⟨some .pwrite, 0⟩] ∧
      ¬ Always step Kept start inputs := by
  constructor
  · refine ⟨[.accept fun _ => 0, .round ⟨true, 0, .ok [0x61, 0x62, 0x63], some 2⟩,
      .round ⟨true, 2, .ok [0x64], some 2⟩], _, rfl, rfl, rfl, rfl, fun always => ?_⟩
    have last := (((always.2 _ rfl).2 _ rfl).2 _ rfl).head
    exact absurd (last.1 (Or.inl rfl)) (by decide)
  · refine ⟨[.accept fun _ => 0, .round ⟨true, 0, .ok [0x61], some 1⟩], _, rfl, rfl, rfl, rfl, rfl,
      fun always => ?_⟩
    have last := ((always.2 _ rfl).2 _ rfl).head
    exact absurd (last.2 rfl) (by decide)

end CloudflareBlog.TcpSplice.EchoIosubmit

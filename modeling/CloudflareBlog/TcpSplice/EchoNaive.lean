import CloudflareBlog.Lib.Buffer
import CloudflareBlog.Lib.Driven

/-!
# `echo-naive`

The loop receives into a buffer and sends the buffer back.  When the send is interrupted it goes
round again, and round again is at the receive: the buffer is overwritten with its bytes unsent.
Nothing else loses a byte, so the echo is lossless in exactly the runs where no send is interrupted
(`lossless_iff`).
-/

namespace CloudflareBlog.TcpSplice.EchoNaive

open Lib.Buffer Lib.Driven

/-! ## The program -/

def bufferSize : Nat := 128 * 1024

/-- The values of `errno` that the loop tells apart. -/
inductive Errno where
  | eintr
  | econnreset
  | epipe
  /-- Any other. -/
  | other
  deriving DecidableEq, Repr

/-- Where the program is: the call it waits for, or how the loop ended. -/
inductive Pc where
  | recv
  | send
  | getsockopt
  /-- `break`, for `recv` returned 0. -/
  | eof
  /-- Any other `break`. -/
  | broken
  /-- `PFATAL`. -/
  | fatal
  deriving DecidableEq, Repr

/-- What a call comes back with. -/
inductive Outcome where
  /-- The bytes of `recv`, none of them at the end of the stream. -/
  | recv (n : Except Errno (List Byte))
  /-- The number of bytes that `send` took. -/
  | send (m : Except Errno Nat)
  /-- What `getsockopt(SO_ERROR)` stored in `err`, or nothing when it failed. -/
  | getsockopt (err : Option Errno)

structure State where
  pc : Pc
  /-- The first `n` bytes of `buf`. -/
  buf : List Byte
  /-- All bytes that `recv` delivered. -/
  received : List Byte
  /-- All bytes that `send` took. -/
  sent : List Byte
  deriving DecidableEq, Repr

def start : State := ⟨.recv, [], [], []⟩

/-- The code behind `recv`. -/
def afterRecv (s : State) : Except Errno (List Byte) → State
  | .error .eintr => s
  | .error .econnreset => { s with pc := .broken }
  | .error _ => { s with pc := .fatal }
  | .ok [] => { s with pc := .eof }
  | .ok data => { s with pc := .send, buf := data, received := s.received ++ data }

/-- The code behind `send`. -/
def afterSend (s : State) : Except Errno Nat → State
  -- `continue` is the way back to `recv`, here too
  | .error .eintr => { s with pc := .recv }
  | .error .econnreset => { s with pc := .broken }
  | .error .epipe => { s with pc := .broken }
  | .error .other => { s with pc := .fatal }
  | .ok m =>
    { s with
      pc := if m = 0 then .broken else if m ≠ s.buf.length then .getsockopt else .recv
      sent := s.sent ++ s.buf.take m }

/-- The code behind `getsockopt`. -/
def afterGetsockopt (s : State) : Option Errno → State
  | some .epipe => { s with pc := .broken }
  | some .econnreset => { s with pc := .broken }
  | _ => { s with pc := .fatal }

/-- The call that comes back with an outcome. -/
def Outcome.call : Outcome → Pc
  | .recv _ => .recv
  | .send _ => .send
  | .getsockopt _ => .getsockopt

/-- No call delivers or takes more bytes than it was asked to. -/
def Outcome.fits (s : State) : Outcome → Bool
  | .recv (.ok data) => data.length ≤ bufferSize
  | .send (.ok m) => m ≤ s.buf.length
  | _ => true

def after (s : State) : Outcome → State
  | .recv n => afterRecv s n
  | .send m => afterSend s m
  | .getsockopt err => afterGetsockopt s err

/-- The call that the program waits for comes back. -/
def step (s : State) (outcome : Outcome) : Option State :=
  if s.pc = outcome.call ∧ outcome.fits s then some (after s outcome) else none

theorem step_eq_some {s t : State} {outcome : Outcome} (stepped : step s outcome = some t) :
    s.pc = outcome.call ∧ outcome.fits s ∧ after s outcome = t := by
  unfold step at stepped
  split at stepped
  next waits => exact ⟨waits.1, waits.2, Option.some.inj stepped⟩
  next => cases stepped

/-! ## What an echo must not lose -/

/-- What was sent is a beginning of what was received, and all of it when the program waits for more
or has seen the end of the stream. -/
def Lossless (s : State) : Prop :=
  s.sent <+: s.received ∧ (s.pc = .recv ∨ s.pc = .eof → s.sent = s.received)

/-- `send` came back with `EINTR`. -/
def interrupted : Outcome → Prop
  | .send (.error .eintr) => True
  | _ => False

/-- What is received and not sent, at each place of the loop. -/
def Echoes (s : State) : Prop :=
  match s.pc with
  | .recv => s.received = s.sent
  | .send => s.received = s.sent ++ s.buf ∧ s.buf ≠ []
  | .eof => s.received = s.sent
  | _ => s.sent <+: s.received

theorem Echoes.lossless {s : State} (echoes : Echoes s) : Lossless s := by
  unfold Echoes at echoes
  cases place : s.pc with
  | recv =>
    rw [place] at echoes
    exact ⟨(Eq.symm echoes : s.sent = s.received) ▸ List.prefix_rfl, fun _ => Eq.symm echoes⟩
  | eof =>
    rw [place] at echoes
    exact ⟨(Eq.symm echoes : s.sent = s.received) ▸ List.prefix_rfl, fun _ => Eq.symm echoes⟩
  | send =>
    rw [place] at echoes
    exact ⟨⟨s.buf, echoes.1.symm⟩, fun h => by simp [place] at h⟩
  | getsockopt =>
    rw [place] at echoes
    exact ⟨echoes, fun h => by simp [place] at h⟩
  | broken =>
    rw [place] at echoes
    exact ⟨echoes, fun h => by simp [place] at h⟩
  | fatal =>
    rw [place] at echoes
    exact ⟨echoes, fun h => by simp [place] at h⟩

/-- Every way out of a call but one keeps the bytes together. -/
theorem Echoes.step {s t : State} {outcome : Outcome} (echoes : Echoes s)
    (smooth : ¬ interrupted outcome) (stepped : step s outcome = some t) : Echoes t := by
  obtain ⟨waits, fits, rfl⟩ := step_eq_some stepped
  unfold Echoes at echoes
  rw [waits] at echoes
  cases outcome with
  | recv n =>
    have same : s.received = s.sent := echoes
    match n with
    | .error .eintr => simpa [after, afterRecv, Echoes, waits, Outcome.call] using same
    | .error .econnreset => simp [after, afterRecv, Echoes, same]
    | .error .epipe => simp [after, afterRecv, Echoes, same]
    | .error .other => simp [after, afterRecv, Echoes, same]
    | .ok [] => simp [after, afterRecv, Echoes, same]
    | .ok (byte :: data) => simp [after, afterRecv, Echoes, same]
  | send m =>
    obtain ⟨pending, nonempty⟩ : s.received = s.sent ++ s.buf ∧ s.buf ≠ [] := echoes
    match m with
    -- the one result that leaves bytes behind and goes on
    | .error .eintr => exact absurd trivial smooth
    | .error .econnreset => simp [after, afterSend, Echoes, pending]
    | .error .epipe => simp [after, afterSend, Echoes, pending]
    | .error .other => simp [after, afterSend, Echoes, pending]
    | .ok taken =>
      have ordered : s.sent ++ s.buf.take taken <+: s.received := by
        rw [pending, List.prefix_append_right_inj]
        exact List.take_prefix taken s.buf
      by_cases none_taken : taken = 0
      · simpa [after, afterSend, Echoes, none_taken] using ordered
      · by_cases all : taken = s.buf.length
        · -- only a whole buffer goes back to `recv`
          simp [after, afterSend, Echoes, all, nonempty, pending]
        · simpa [after, afterSend, Echoes, none_taken, all] using ordered
  | getsockopt err =>
    have ordered : s.sent <+: s.received := echoes
    match err with
    | none => exact ordered
    | some .eintr => exact ordered
    | some .econnreset => exact ordered
    | some .epipe => exact ordered
    | some .other => exact ordered

/-- The interrupted send leaves its buffer behind at `recv`. -/
theorem Echoes.interrupted {s t : State} {outcome : Outcome} (echoes : Echoes s)
    (signal : interrupted outcome) (stepped : EchoNaive.step s outcome = some t) : ¬ Lossless t := by
  obtain ⟨waits, -, rfl⟩ := step_eq_some stepped
  cases outcome with
  | send m =>
    match m with
    | .error .eintr =>
      unfold Echoes at echoes
      rw [waits] at echoes
      obtain ⟨pending, nonempty⟩ : s.received = s.sent ++ s.buf ∧ s.buf ≠ [] := echoes
      intro lossless
      have same : s.sent = s.received := lossless.2 (Or.inl rfl)
      exact nonempty (List.self_eq_append_right.mp (same.trans pending))
  | recv n => exact signal.elim
  | getsockopt err => exact signal.elim

/-- The echo loses nothing in exactly the runs where no `send` is interrupted. -/
theorem lossless_iff (outcomes : List Outcome) :
    Always step Lossless start outcomes ↔
      EachStep step (fun _ outcome => ¬ interrupted outcome) start outcomes :=
  always_iff_eachStep (fun _ => Echoes.lossless) (fun _ _ _ => Echoes.step)
    (fun _ _ _ echoes signal => echoes.interrupted (not_not.mp signal)) rfl

/-- Two bytes come in, the first send is interrupted, and the second byte goes out alone. -/
theorem not_lossless :
    ∃ outcomes s, outcomes.foldlM step start = some s ∧ s.pc = .recv ∧
      s.received = [0x61, 0x62] ∧ s.sent = [0x62] ∧ ¬ Always step Lossless start outcomes := by
  refine ⟨[.recv (.ok [0x61]), .send (.error .eintr), .recv (.ok [0x62]), .send (.ok 1)],
    ⟨.recv, [0x62], [0x61, 0x62], [0x62]⟩, by decide, rfl, rfl, rfl, ?_⟩
  intro always
  have interrupted := (always.2 _ rfl).2 _ rfl
  exact absurd (interrupted.head.2 (Or.inl rfl)) (by decide)

end CloudflareBlog.TcpSplice.EchoNaive

import CloudflareBlog.IoSubmit.AioRing
import CloudflareBlog.Lib.Driven
import CloudflareBlog.Lib.Pieces
import CloudflareBlog.TcpSplice.EchoNaive

/-!
# `test-burst`

The program sends bursts of bytes and receives them back.  What it offers to a call is a list of
buffers, which `trunc_iov` cuts out of what is left of the burst, over the lengths of an earlier
call.  The number of buffers is computed in 64 bits and kept in an `int`: from 2^48 - 2^17 bytes on
there may be too few of them.  And where `sendmsg` is called again after `EINTR`, `recvmsg` is not
(`transfers_iff`).
-/

namespace CloudflareBlog.TcpSplice.TestBurst

open IoSubmit Lib.Driven Lib.Pieces
open EchoNaive (bufferSize)

/-! ## The lists of buffers -/

/-- The conversion of an `int` to `size_t`. -/
def toSize (value : Int) : Nat := (value % 2 ^ 64).toNat

/-- The loop of `trunc_iov` from `i` on, for so many rounds, on the lengths in the array.  It has no
result when it writes behind the end of the array. -/
def truncLoop (iovCnt bSz : Int) : Nat → Nat → Int → List Nat → Option (Int × List Nat)
  | 0, _, _, iov => some (iovCnt, iov)
  | rounds + 1, i, desired, iov =>
    let m := min desired bSz
    if i < iov.length then
      let iov := iov.set i (toSize m)
      let desired := desired - m
      if desired = 0 then some (i + 1, iov) else truncLoop iovCnt bSz rounds (i + 1) desired iov
    else none

/-- `trunc_iov`: its result, and the lengths that it leaves in the array. -/
def truncIov (iov : List Nat) (iovCnt bSz desired : Int) : Option (Int × List Nat) :=
  truncLoop iovCnt bSz iovCnt.toNat 0 desired iov

def iovCnt (burstSz : BitVec 64) : Int :=
  toInt32 ((burstSz / BitVec.ofNat 64 bufferSize + 1).toNat : Nat)

/-- `MIN(128*1024*1024, tx_bytes)`, and the same for `rx_bytes`. -/
def desired (bytes : BitVec 64) : Nat := min (128 * 1024 * 1024) bytes.toNat

/-- The number of bytes in the first `msg_iovlen` buffers. -/
def offered (iov : List Nat) (msgIovlen : Int) : Nat := (iov.take msgIovlen.toNat).sum

/-- What is offered for the bytes that are left, and the array behind `trunc_iov`. -/
def offer (burstSz bytes : BitVec 64) (iov : List Nat) : Option (Nat × List Nat) := do
  let (d, iov) ← truncIov iov (iovCnt burstSz) bufferSize (desired bytes)
  return (offered iov d, iov)

/-! ## The loops of `main` -/

/-- The values of `errno` that the loop tells apart. -/
inductive Errno where
  | eintr
  | econnreset
  | epipe
  | eagain
  /-- Any other. -/
  | other
  deriving DecidableEq, Repr

/-- What `sendmsg` or `recvmsg` returns, and `errno` behind it. -/
structure Answer where
  ret : Int
  errno : Errno
  deriving DecidableEq, Repr

/-- No more is transferred than was offered. -/
def Answer.Fits (answer : Answer) (offered : Nat) : Prop := -1 ≤ answer.ret ∧ answer.ret ≤ offered

instance decidableFits (answer : Answer) (offered : Nat) : Decidable (answer.Fits offered) :=
  inferInstanceAs (Decidable (_ ∧ _))

/-- An error that says more of the connection than that the call is to be made again. -/
def Answer.fails (answer : Answer) : Bool :=
  answer.ret < 0 ∧ answer.errno ≠ .eintr ∧ answer.errno ≠ .eagain

/-- Where the program is: the call it waits for, or how its last burst ended. -/
inductive Pc where
  /-- No burst has begun. -/
  | ready
  | sendmsg
  | recvmsg
  /-- The condition of the loop is false. -/
  | done
  | broken
  /-- `PFATAL`. -/
  | fatal
  deriving DecidableEq, Repr

structure State where
  pc : Pc
  /-- The bursts that have begun. -/
  burstI : Nat
  txBytes : BitVec 64
  rxBytes : BitVec 64
  txIov : List Nat
  rxIov : List Nat
  /-- All bytes of this burst that `sendmsg` took. -/
  sent : Nat
  /-- All bytes that `recvmsg` delivered during this burst. -/
  received : Nat
  /-- The connection has failed: a call said so, or the peer has closed it. -/
  failed : Bool
  deriving DecidableEq, Repr

/-- The arrays with their first lengths, if they have any elements: there are none of a length that
is not positive. -/
def start (burstSz : BitVec 64) : Option State :=
  if 0 < iovCnt burstSz then
    let iov := List.replicate (iovCnt burstSz).toNat bufferSize
    some {
      pc := .ready
      burstI := 0
      txBytes := 0
      rxBytes := 0
      txIov := iov
      rxIov := iov
      sent := 0
      received := 0
      failed := false }
  else none

/-- `while (tx_bytes || rx_bytes)`, and the call that comes first. -/
def State.again (s : State) : State :=
  { s with pc := if s.txBytes ≠ 0 then .sendmsg else if s.rxBytes ≠ 0 then .recvmsg else .done }

/-- `if (rx_bytes)`. -/
def State.behindSend (s : State) : State :=
  if s.rxBytes ≠ 0 then { s with pc := .recvmsg } else s.again

/-- The beginning of a burst, with nothing sent or received yet. -/
def State.nextBurst (burstSz : BitVec 64) (s : State) : State :=
  { s with
    burstI := s.burstI + 1
    txBytes := burstSz
    rxBytes := burstSz
    sent := 0
    received := 0 }.again

/-- The code behind `sendmsg`. -/
def afterSendmsg (s : State) (answer : Answer) : State :=
  let n := toInt32 answer.ret
  if n < 0 then
    match answer.errno with
    -- `continue`, and nothing is received in this round
    | .eintr => s.again
    | .econnreset => { s with pc := .broken }
    | .epipe => { s with pc := .broken }
    | .eagain => s.behindSend
    | .other => { s with pc := .fatal }
  else if n = 0 then { s with pc := .fatal }
  else { s with txBytes := s.txBytes - BitVec.ofInt 64 n }.behindSend

/-- The code behind `recvmsg`, which waits when nothing is left to be sent. -/
def afterRecvmsg (s : State) (answer : Answer) : State :=
  let dontwait : Bool := s.txBytes ≠ 0
  -- one branch for `EAGAIN`, and none for `EINTR`
  let n := toInt32 answer.ret
  if n < 0 then
    if dontwait ∧ answer.errno = .eagain then s.again else { s with pc := .fatal }
  else if n = 0 then { s with pc := .fatal }
  else { s with rxBytes := s.rxBytes - BitVec.ofInt 64 n }.again

/-- `sendmsg` with the list `txIov`, and what is to be known of it. -/
def State.send (s : State) (txIov : List Nat) (answer : Answer) : State :=
  { s with
    txIov := txIov
    sent := s.sent + answer.ret.toNat
    failed := s.failed || answer.fails }

/-- `recvmsg`, which returns zero when the peer has closed the connection. -/
def State.receive (s : State) (rxIov : List Nat) (answer : Answer) : State :=
  { s with
    rxIov := rxIov
    received := s.received + answer.ret.toNat
    failed := s.failed || answer.fails || decide (answer.ret = 0) }

inductive Input where
  /-- The next round of the `for` loop. -/
  | burst
  | sendmsg (answer : Answer)
  | recvmsg (answer : Answer)

/-- The program between two calls.  An `int` does not count more than 2^31 bursts. -/
def step (burstSz : BitVec 64) (burstCount : Int) (s : State) : Input → Option State
  | .burst =>
    if (s.pc = .ready ∨ s.pc = .done ∨ s.pc = .broken) ∧ s.burstI < 2 ^ 31 ∧ s.burstI < burstCount then
      some (s.nextBurst burstSz)
    else none
  | .sendmsg answer =>
    if s.pc = .sendmsg then do
      let (total, txIov) ← offer burstSz s.txBytes s.txIov
      if answer.Fits total then some (afterSendmsg (s.send txIov answer) answer) else none
    else none
  | .recvmsg answer =>
    if s.pc = .recvmsg then do
      let (total, rxIov) ← offer burstSz s.rxBytes s.rxIov
      if answer.Fits total then some (afterRecvmsg (s.receive rxIov answer) answer) else none
    else none

/-! ## Right lists and right accounts -/

/-- `trunc_iov` has filled the array for so many bytes, with no more buffers than a call takes. -/
structure Filled (iovCnt : Int) (desired : Nat) (d : Int) (iov : List Nat) : Prop where
  few : d ≤ min iovCnt 1024
  short : ∀ len ∈ iov.take d.toNat, len ≤ 128 * 1024
  total : (iov.take d.toNat).sum = desired

/-- It does so for all that can be left of the burst, whatever is in the array. -/
def Fills (burstSz : BitVec 64) : Prop :=
  ∀ r : BitVec 64, 0 < r → r ≤ burstSz → ∀ iov : List Nat, iov.length = (iovCnt burstSz).toNat →
    ∃ d after, truncIov iov (iovCnt burstSz) bufferSize (desired r) = some (d, after) ∧
      Filled (iovCnt burstSz) (desired r) d after

/-- What is left and what was transferred come to the burst, so that nothing has wrapped around, and
the loop is only over when all of it was sent and received, or the connection has failed. -/
structure Accounted (burstSz : BitVec 64) (s : State) : Prop where
  tx : s.pc ≠ .ready → s.txBytes.toNat + s.sent = burstSz.toNat
  rx : s.pc ≠ .ready → s.rxBytes.toNat + s.received = burstSz.toNat
  ended : s.pc = .done ∨ s.pc = .broken ∨ s.pc = .fatal →
    s.sent = burstSz.toNat ∧ s.received = burstSz.toNat ∨ s.failed

/-- The lists and the accounts are right along a run. -/
def Transfers (burstSz : BitVec 64) (burstCount : Int) (inputs : List Input) : Prop :=
  Fills burstSz ∧ ∀ s, start burstSz = some s →
    Always (step burstSz burstCount) (Accounted burstSz) s inputs

/-- The burst has less than 128 MiB, or the number of its buffers has 1024 at least and is positive in
the low 32 bits, which are all that is kept of it. -/
def Roomy (burstSz : BitVec 64) : Prop :=
  burstSz.toNat < 2 ^ 27 ∨ 1024 ≤ (burstSz.toNat / 2 ^ 17 + 1) % 2 ^ 32 ∧
    (burstSz.toNat / 2 ^ 17 + 1) % 2 ^ 32 < 2 ^ 31

/-- While the connection holds, `sendmsg` does not return zero, and `recvmsg` is neither interrupted
nor does it fail with `EAGAIN` when it waits. -/
def Untroubled (s : State) : Input → Prop
  | .burst => True
  | .sendmsg answer => s.failed ∨ answer.ret ≠ 0
  | .recvmsg answer => s.failed ∨
      (answer.ret < 0 → answer.errno ≠ .eintr ∧ (answer.errno = .eagain → s.txBytes ≠ 0))

/-! ## The lists -/

section Lists

variable {iov : List Nat} {size i rounds amount : Nat} {burstSz : BitVec 64}

theorem take_succ_set {length : Nat} (inside : i < iov.length) :
    (iov.set i length).take (i + 1) = iov.take i ++ [length] := by
  have before : (iov.take i).length = i := List.length_take_of_le (Nat.le_of_lt inside)
  rw [List.set_eq_take_append_cons_drop, if_pos inside, List.append_cons]
  exact List.take_left' (by rw [List.length_append, before, List.length_singleton])

/-- The rounds from `i` on put the pieces into the array, and leave what is before and behind. -/
theorem truncLoop_eq (small : size < 2 ^ 64) (fits : iov.length = i + rounds) :
    truncLoop (i + rounds : Nat) size rounds i amount iov =
      some (((i + (cut size rounds amount).length : Nat) : Int),
        iov.take i ++ cut size rounds amount ++
          iov.drop (i + (cut size rounds amount).length)) := by
  induction rounds generalizing i amount iov with
  | zero =>
    rw [cut, List.append_nil, List.length_nil, Nat.add_zero, List.take_append_drop]
    rfl
  | succ rounds inductionHypothesis =>
    have inside : i < iov.length := by omega
    have piece : toSize (min (amount : Int) size) = min amount size := by
      unfold toSize
      omega
    rw [truncLoop, if_pos inside, piece]
    obtain last | exceeds := le_or_gt amount size
    · have nothing : (amount : Int) - min (amount : Int) size = 0 := by omega
      rw [cut_of_le last, if_pos nothing, Nat.min_eq_left last, List.set_eq_take_append_cons_drop,
        if_pos inside, List.append_assoc]
      rfl
    · have rest : (amount : Int) - min (amount : Int) size = (amount - size : Nat) := by omega
      have some : ¬ ((amount - size : Nat) : Int) = 0 := by omega
      -- the next rounds find the lengths behind this one as stale as they were
      have later := @inductionHypothesis (iov.set i size) (i + 1) (amount - size)
        (by rw [List.length_set]; omega)
      rw [rest, if_neg some, Nat.min_eq_right (Nat.le_of_lt exceeds), cut_of_lt exceeds,
        List.length_cons, Nat.add_comm rounds 1, ← Nat.add_assoc, later, take_succ_set inside,
        List.drop_set_of_lt (by omega), List.append_assoc (iov.take i), List.singleton_append,
        Nat.add_assoc i 1, Nat.add_comm 1]

/-- The pieces are the first lengths of the array; the stale ones behind them are not offered. -/
theorem truncIov_eq (small : size < 2 ^ 64) :
    truncIov iov iov.length size amount =
      some (((cut size iov.length amount).length : Int),
        cut size iov.length amount ++ iov.drop (cut size iov.length amount).length) := by
  have loop := @truncLoop_eq iov size 0 iov.length amount small (Nat.zero_add iov.length).symm
  rw [Nat.zero_add, Nat.zero_add, List.take_zero, List.nil_append] at loop
  exact loop

theorem bufferSize_eq : bufferSize = 2 ^ 17 := rfl

theorem desired_le (bytes : BitVec 64) : desired bytes ≤ 2 ^ 27 ∧ desired bytes ≤ bytes.toNat :=
  ⟨Nat.min_le_left _ _, Nat.min_le_right _ _⟩

/-- What is offered is what is wanted, as far as there are buffers for it. -/
theorem offer_eq (positive : 0 < iovCnt burstSz) (length : iov.length = (iovCnt burstSz).toNat)
    (bytes : BitVec 64) :
    ∃ after, offer burstSz bytes iov =
        some (min (desired bytes) (iov.length * bufferSize), after) ∧
      after.length = iov.length := by
  have count : iovCnt burstSz = iov.length := by omega
  have pieces := length_cut_le bufferSize iov.length (desired bytes)
  refine ⟨cut bufferSize iov.length (desired bytes) ++
    iov.drop (cut bufferSize iov.length (desired bytes)).length, ?_, ?_⟩
  · rw [offer, count, truncIov_eq (by decide)]
    simp only [Option.bind_eq_bind, Option.bind_some, offered, Int.toNat_natCast, List.take_left,
      sum_cut]
    rfl
  · rw [List.length_append, List.length_drop]
    omega

/-- The division is exact in 64 bits; then the number is kept in 32. -/
theorem iovCnt_eq (burstSz : BitVec 64) :
    iovCnt burstSz = toInt32 ((burstSz.toNat / bufferSize + 1 : Nat) : Int) := by
  have small := burstSz.isLt
  have whole : (burstSz / BitVec.ofNat 64 bufferSize + 1).toNat = burstSz.toNat / bufferSize + 1 := by
    rw [BitVec.toNat_add, BitVec.toNat_udiv, bufferSize_eq]
    show (burstSz.toNat / 2 ^ 17 + 1) % 2 ^ 64 = burstSz.toNat / 2 ^ 17 + 1
    omega
  rw [iovCnt, whole]

theorem iovCnt_of_lt (small : burstSz.toNat < 2 ^ 27) :
    iovCnt burstSz = (burstSz.toNat / bufferSize + 1 : Nat) := by
  rw [iovCnt_eq, toInt32_of_lt] <;> rw [bufferSize_eq] <;> omega

theorem roomy_iff : Roomy burstSz ↔ burstSz.toNat < 2 ^ 27 ∨ 1024 ≤ iovCnt burstSz := by
  rw [Roomy, iovCnt_eq, bufferSize_eq, toInt32, Int.bmod_def]
  split <;> omega

/-- There is room for the bytes in the array, and 1024 buffers are enough for them. -/
theorem Roomy.room (roomy : Roomy burstSz) {r : BitVec 64} (within : r ≤ burstSz) :
    ∃ count : Nat, iovCnt burstSz = count ∧ 0 < count ∧ desired r ≤ count * bufferSize ∧
      (cut bufferSize count (desired r)).length ≤ 1024 := by
  obtain ⟨atMost, left⟩ := desired_le r
  have below : r.toNat ≤ burstSz.toNat := within
  obtain small | many := roomy_iff.mp roomy
  · refine ⟨_, iovCnt_of_lt small, Nat.succ_pos _, ?_, ?_⟩
    · rw [bufferSize_eq]
      omega
    · refine Nat.le_trans (length_cut_le _ _ _) ?_
      rw [bufferSize_eq]
      omega
  · obtain ⟨count, same⟩ := Int.eq_ofNat_of_zero_le (show 0 ≤ iovCnt burstSz by omega)
    rw [same] at many ⊢
    refine ⟨count, rfl, by omega, ?_, length_cut_le_of_le (by decide) ?_⟩
    · rw [bufferSize_eq]
      omega
    · rw [bufferSize_eq]
      omega

theorem fills_of_roomy (roomy : Roomy burstSz) : Fills burstSz := by
  intro r _ within iov length
  obtain ⟨count, isCount, positive, room, pieces⟩ := roomy.room within
  rw [isCount, Int.toNat_natCast] at length
  rw [isCount, ← length]
  rw [← length] at room pieces
  refine ⟨_, _, truncIov_eq (by decide), ⟨?_, fun len among => ?_, ?_⟩⟩
  · have rounds := length_cut_le bufferSize iov.length (desired r)
    omega
  · rw [Int.toNat_natCast, List.take_left] at among
    exact le_of_mem_cut among
  · rw [Int.toNat_natCast, List.take_left, sum_cut, Nat.min_eq_left room]

/-- With fewer buffers the first 128 MiB do not fit, or there is no buffer at all. -/
theorem roomy_of_fills (fills : Fills burstSz) : Roomy burstSz := by
  by_contra narrow
  obtain ⟨large, few⟩ : 2 ^ 27 ≤ burstSz.toNat ∧ iovCnt burstSz < 1024 := by
    rw [roomy_iff] at narrow
    omega
  -- 128 MiB are the most that is wanted at once, and no less than this burst has
  have within : (2 ^ 27 : BitVec 64) ≤ burstSz := large
  obtain ⟨d, after, returned, filled⟩ := fills (2 ^ 27) (by decide) within
    (List.replicate (iovCnt burstSz).toNat 0) List.length_replicate
  have wanted : desired (2 ^ 27) = 2 ^ 27 := by decide
  have total := filled.total
  rw [wanted] at total returned
  obtain none | some := le_or_gt (iovCnt burstSz) 0
  · have noRounds : (iovCnt burstSz).toNat = 0 := Int.toNat_of_nonpos none
    rw [noRounds, truncIov, noRounds] at returned
    obtain ⟨-, rfl⟩ := Prod.mk.inj (Option.some.inj returned)
    simp at total
  · obtain ⟨count, same⟩ := Int.eq_ofNat_of_zero_le (Int.le_of_lt some)
    have pieces := @truncIov_eq (List.replicate count 0) bufferSize (2 ^ 27) (by decide)
    rw [List.length_replicate] at pieces
    rw [same, Int.toNat_natCast, pieces] at returned
    obtain ⟨rfl, rfl⟩ := Prod.mk.inj (Option.some.inj returned)
    rw [Int.toNat_natCast, List.take_left, sum_cut, bufferSize_eq] at total
    omega

end Lists

/-! ## The accounts -/

section Accounts

variable {burstSz : BitVec 64} {burstCount : Int} {s t : State} {answer : Answer}

theorem toNat_sub_ofInt {bytes : BitVec 64} {n : Int} (low : 0 ≤ n) (high : n ≤ bytes.toNat) :
    (bytes - BitVec.ofInt 64 n).toNat + n.toNat = bytes.toNat := by
  obtain ⟨count, rfl⟩ := Int.eq_ofNat_of_zero_le low
  have small := bytes.isLt
  rw [BitVec.ofInt_natCast, BitVec.toNat_sub, BitVec.toNat_ofNat, Int.toNat_natCast]
  omega

/-- The counters of a burst, and the arrays, which keep their lengths. -/
structure Balanced (burstSz : BitVec 64) (s : State) : Prop where
  tx : s.txBytes.toNat + s.sent = burstSz.toNat
  rx : s.rxBytes.toNat + s.received = burstSz.toNat
  txLength : s.txIov.length = (iovCnt burstSz).toNat
  rxLength : s.rxIov.length = (iovCnt burstSz).toNat

structure Invariant (burstSz : BitVec 64) (s : State) : Prop where
  accounted : Accounted burstSz s
  txLength : s.txIov.length = (iovCnt burstSz).toNat
  rxLength : s.rxIov.length = (iovCnt burstSz).toNat
  sends : s.pc = .sendmsg → s.txBytes ≠ 0
  receives : s.pc = .recvmsg → s.rxBytes ≠ 0

theorem Invariant.balanced (invariant : Invariant burstSz s) (begun : s.pc ≠ .ready) :
    Balanced burstSz s :=
  ⟨invariant.accounted.tx begun, invariant.accounted.rx begun, invariant.txLength,
    invariant.rxLength⟩

theorem Balanced.sendmsg (balanced : Balanced burstSz s) (some : s.txBytes ≠ 0) :
    Invariant burstSz { s with pc := .sendmsg } :=
  ⟨⟨fun _ => balanced.tx, fun _ => balanced.rx, by simp⟩, balanced.txLength, balanced.rxLength,
    fun _ => some, by simp⟩

theorem Balanced.recvmsg (balanced : Balanced burstSz s) (some : s.rxBytes ≠ 0) :
    Invariant burstSz { s with pc := .recvmsg } :=
  ⟨⟨fun _ => balanced.tx, fun _ => balanced.rx, by simp⟩, balanced.txLength, balanced.rxLength,
    by simp, fun _ => some⟩

theorem Balanced.done (balanced : Balanced burstSz s) (noTx : s.txBytes = 0)
    (noRx : s.rxBytes = 0) : Invariant burstSz { s with pc := .done } := by
  have sent := balanced.tx
  have received := balanced.rx
  have nothing : (0 : BitVec 64).toNat = 0 := rfl
  rw [noTx, nothing, Nat.zero_add] at sent
  rw [noRx, nothing, Nat.zero_add] at received
  exact ⟨⟨fun _ => balanced.tx, fun _ => balanced.rx, fun _ => .inl ⟨sent, received⟩⟩,
    balanced.txLength, balanced.rxLength, by simp, by simp⟩

/-- The loop may be left when the connection has failed. -/
theorem Balanced.left (balanced : Balanced burstSz s) (failed : s.failed) {pc : Pc}
    (left : pc = .broken ∨ pc = .fatal) : Invariant burstSz { s with pc := pc } := by
  refine ⟨⟨fun _ => balanced.tx, fun _ => balanced.rx, fun _ => .inr failed⟩, balanced.txLength,
    balanced.rxLength, ?_, ?_⟩
  all_goals obtain rfl | rfl := left <;> simp

theorem Balanced.again (balanced : Balanced burstSz s) : Invariant burstSz s.again := by
  unfold State.again
  by_cases tx : s.txBytes = 0
  · rw [if_neg (not_not_intro tx)]
    by_cases rx : s.rxBytes = 0
    · rw [if_neg (not_not_intro rx)]
      exact balanced.done tx rx
    · rw [if_pos rx]
      exact balanced.recvmsg rx
  · rw [if_pos tx]
    exact balanced.sendmsg tx

theorem Balanced.behindSend (balanced : Balanced burstSz s) : Invariant burstSz s.behindSend := by
  unfold State.behindSend
  by_cases rx : s.rxBytes = 0
  · rw [if_neg (not_not_intro rx)]
    exact balanced.again
  · rw [if_pos rx]
    exact balanced.recvmsg rx

/-- A burst begins with the arrays as they are. -/
theorem Invariant.nextBurst (invariant : Invariant burstSz s) :
    Invariant burstSz (s.nextBurst burstSz) :=
  Balanced.again ⟨Nat.add_zero _, Nat.add_zero _, invariant.txLength, invariant.rxLength⟩

/-- What an answer says of so many bytes. -/
structure Transfer (answer : Answer) (bytes : BitVec 64) : Prop where
  low : -1 ≤ answer.ret
  high : answer.ret ≤ 2 ^ 27
  within : answer.ret ≤ bytes.toNat

theorem Transfer.toInt32_eq {bytes : BitVec 64} (transfer : Transfer answer bytes) :
    toInt32 answer.ret = answer.ret :=
  toInt32_of_lt (Int.le_trans (by decide) transfer.low) (Int.lt_of_le_of_lt transfer.high (by decide))

theorem step_burst (stepped : step burstSz burstCount s .burst = some t) :
    t = s.nextBurst burstSz := by
  rw [step, Option.ite_none_right_eq_some] at stepped
  exact (Option.some.inj stepped.2).symm

/-- Not more than the bytes that are left is offered for them, and the array keeps its length. -/
theorem offer_answered (positive : 0 < iovCnt burstSz) {iov : List Nat}
    (length : iov.length = (iovCnt burstSz).toNat) {bytes : BitVec 64} {next : List Nat → State}
    (stepped : (do
      let (total, after) ← offer burstSz bytes iov
      if answer.Fits total then some (next after) else none) = some t) :
    Transfer answer bytes ∧
      ∃ after : List Nat, after.length = (iovCnt burstSz).toNat ∧ t = next after := by
  obtain ⟨after, isOffer, kept⟩ := offer_eq positive length bytes
  rw [isOffer, Option.bind_eq_bind, Option.bind_some, Option.ite_none_right_eq_some] at stepped
  obtain ⟨⟨low, high⟩, stepped⟩ := stepped
  obtain ⟨atMost, left⟩ := desired_le bytes
  exact ⟨⟨low, by omega, by omega⟩, after, kept.trans length, (Option.some.inj stepped).symm⟩

theorem step_sendmsg (positive : 0 < iovCnt burstSz) (invariant : Invariant burstSz s)
    (stepped : step burstSz burstCount s (.sendmsg answer) = some t) :
    s.pc = .sendmsg ∧ Transfer answer s.txBytes ∧
      ∃ txIov : List Nat, txIov.length = (iovCnt burstSz).toNat ∧
        t = afterSendmsg (s.send txIov answer) answer := by
  rw [step, Option.ite_none_right_eq_some] at stepped
  exact ⟨stepped.1, offer_answered positive invariant.txLength stepped.2⟩

theorem step_recvmsg (positive : 0 < iovCnt burstSz) (invariant : Invariant burstSz s)
    (stepped : step burstSz burstCount s (.recvmsg answer) = some t) :
    s.pc = .recvmsg ∧ Transfer answer s.rxBytes ∧
      ∃ rxIov : List Nat, rxIov.length = (iovCnt burstSz).toNat ∧
        t = afterRecvmsg (s.receive rxIov answer) answer := by
  rw [step, Option.ite_none_right_eq_some] at stepped
  exact ⟨stepped.1, offer_answered positive invariant.rxLength stepped.2⟩

/-- A call to `sendmsg` that takes nothing leaves the counters as they are. -/
theorem Balanced.send (balanced : Balanced burstSz s) {txIov : List Nat}
    (length : txIov.length = (iovCnt burstSz).toNat) (nothing : answer.ret ≤ 0) :
    Balanced burstSz (s.send txIov answer) := by
  have noBytes : answer.ret.toNat = 0 := Int.toNat_of_nonpos nothing
  refine ⟨?_, balanced.rx, length, balanced.rxLength⟩
  rw [State.send, noBytes]
  exact balanced.tx

theorem Balanced.receive (balanced : Balanced burstSz s) {rxIov : List Nat}
    (length : rxIov.length = (iovCnt burstSz).toNat) (nothing : answer.ret ≤ 0) :
    Balanced burstSz (s.receive rxIov answer) := by
  have noBytes : answer.ret.toNat = 0 := Int.toNat_of_nonpos nothing
  refine ⟨balanced.tx, ?_, balanced.txLength, length⟩
  rw [State.receive, noBytes]
  exact balanced.rx

theorem send_failed_iff {txIov : List Nat} :
    (s.send txIov answer).failed ↔ s.failed ∨ answer.fails := Bool.or_eq_true_iff

theorem receive_failed_iff {rxIov : List Nat} :
    (s.receive rxIov answer).failed ↔ (s.failed ∨ answer.fails) ∨ answer.ret = 0 := by
  rw [State.receive, Bool.or_eq_true_iff, Bool.or_eq_true_iff, decide_eq_true_eq]

theorem fails_iff : answer.fails ↔
    answer.ret < 0 ∧ answer.errno ≠ .eintr ∧ answer.errno ≠ .eagain := decide_eq_true_iff

theorem Balanced.afterSendmsg (balanced : Balanced burstSz s) (transfer : Transfer answer s.txBytes)
    {txIov : List Nat} (length : txIov.length = (iovCnt burstSz).toNat)
    (untroubled : s.failed ∨ answer.ret ≠ 0) :
    Invariant burstSz (afterSendmsg (s.send txIov answer) answer) := by
  unfold TestBurst.afterSendmsg
  simp only [transfer.toInt32_eq]
  obtain error | zero | some := Int.lt_trichotomy answer.ret 0
  · have kept := balanced.send length (Int.le_of_lt error)
    have failed (noSignal : answer.errno ≠ .eintr) (noWait : answer.errno ≠ .eagain) :
        (s.send txIov answer).failed :=
      send_failed_iff.mpr (.inr (fails_iff.mpr ⟨error, noSignal, noWait⟩))
    rw [if_pos error]
    cases errno : answer.errno with
    | eintr => exact kept.again
    | econnreset => exact kept.left (failed (by simp [errno]) (by simp [errno])) (.inl rfl)
    | epipe => exact kept.left (failed (by simp [errno]) (by simp [errno])) (.inl rfl)
    | eagain => exact kept.behindSend
    | other => exact kept.left (failed (by simp [errno]) (by simp [errno])) (.inr rfl)
  · have kept := balanced.send length (Int.le_of_eq zero)
    have before : s.failed := untroubled.resolve_right (not_not_intro zero)
    rw [if_neg (by omega), if_pos zero]
    exact kept.left (send_failed_iff.mpr (.inl before)) (.inr rfl)
  · have spent := toNat_sub_ofInt (Int.le_of_lt some) transfer.within
    have tx := balanced.tx
    rw [if_neg (by omega), if_neg (by omega)]
    apply Balanced.behindSend
    refine ⟨?_, balanced.rx, length, balanced.rxLength⟩
    show (s.txBytes - BitVec.ofInt 64 answer.ret).toNat + (s.sent + answer.ret.toNat) = _
    omega

theorem Balanced.afterRecvmsg (balanced : Balanced burstSz s) (transfer : Transfer answer s.rxBytes)
    {rxIov : List Nat} (length : rxIov.length = (iovCnt burstSz).toNat)
    (untroubled : s.failed ∨
      (answer.ret < 0 → answer.errno ≠ .eintr ∧ (answer.errno = .eagain → s.txBytes ≠ 0))) :
    Invariant burstSz (afterRecvmsg (s.receive rxIov answer) answer) := by
  unfold TestBurst.afterRecvmsg
  simp only [transfer.toInt32_eq]
  obtain error | zero | some := Int.lt_trichotomy answer.ret 0
  · have kept := balanced.receive length (Int.le_of_lt error)
    have tx : (s.receive rxIov answer).txBytes = s.txBytes := rfl
    rw [if_pos error, tx]
    by_cases poll : decide (s.txBytes ≠ 0) ∧ answer.errno = .eagain
    · rw [if_pos poll]
      exact kept.again
    · -- the program gives up: then the error is one of the connection
      rw [if_neg poll]
      refine kept.left (receive_failed_iff.mpr (.inl ?_)) (.inr rfl)
      refine untroubled.imp_right fun sound => fails_iff.mpr ?_
      obtain ⟨noSignal, waits⟩ := sound error
      exact ⟨error, noSignal, fun again => poll ⟨decide_eq_true (waits again), again⟩⟩
  · have kept := balanced.receive length (Int.le_of_eq zero)
    rw [if_neg (by omega), if_pos zero]
    exact kept.left (receive_failed_iff.mpr (.inr zero)) (.inr rfl)
  · have spent := toNat_sub_ofInt (Int.le_of_lt some) transfer.within
    have rx := balanced.rx
    rw [if_neg (by omega), if_neg (by omega)]
    apply Balanced.again
    refine ⟨balanced.tx, ?_, balanced.txLength, length⟩
    show (s.rxBytes - BitVec.ofInt 64 answer.ret).toNat + (s.received + answer.ret.toNat) = _
    omega

theorem step_invariant (positive : 0 < iovCnt burstSz) {input : Input}
    (invariant : Invariant burstSz s) (untroubled : Untroubled s input)
    (stepped : step burstSz burstCount s input = some t) : Invariant burstSz t := by
  cases input with
  | burst =>
    rw [step_burst stepped]
    exact invariant.nextBurst
  | sendmsg answer =>
    obtain ⟨waits, transfer, txIov, length, rfl⟩ := step_sendmsg positive invariant stepped
    have begun : s.pc ≠ .ready := by simp [waits]
    exact (invariant.balanced begun).afterSendmsg transfer length untroubled
  | recvmsg answer =>
    obtain ⟨waits, transfer, rxIov, length, rfl⟩ := step_recvmsg positive invariant stepped
    have begun : s.pc ≠ .ready := by simp [waits]
    exact (invariant.balanced begun).afterRecvmsg transfer length untroubled

theorem not_accounted_fatal (sound : s.failed = false)
    (short : s.sent ≠ burstSz.toNat ∨ s.received ≠ burstSz.toNat) :
    ¬ Accounted burstSz { s with pc := .fatal } := by
  intro accounted
  obtain ⟨sent, received⟩ | failed := accounted.ended (.inr (.inr rfl))
  · exact short.elim (absurd sent) (absurd received)
  · rw [sound] at failed
    cases failed

/-- The program gives up with bytes left, and nothing is wrong with the connection. -/
theorem not_accounted_of_troubled (positive : 0 < iovCnt burstSz) {input : Input}
    (invariant : Invariant burstSz s) (troubled : ¬ Untroubled s input)
    (stepped : step burstSz burstCount s input = some t) : ¬ Accounted burstSz t := by
  cases input with
  | burst => exact absurd trivial troubled
  | sendmsg answer =>
    obtain ⟨waits, transfer, txIov, length, rfl⟩ := step_sendmsg positive invariant stepped
    obtain ⟨sound, zero⟩ := not_or.mp troubled
    rw [not_not] at zero
    have left := BitVec.toNat_pos_of_ne_zero (invariant.sends waits)
    have tx := invariant.accounted.tx (by simp [waits])
    unfold TestBurst.afterSendmsg
    simp only [transfer.toInt32_eq]
    rw [if_neg (by omega), if_pos zero]
    refine not_accounted_fatal ?_ (.inl ?_)
    · rw [← Bool.not_eq_true, send_failed_iff, fails_iff]
      exact not_or.mpr ⟨sound, fun fails => by omega⟩
    · show s.sent + answer.ret.toNat ≠ _
      omega
  | recvmsg answer =>
    obtain ⟨waits, transfer, rxIov, length, rfl⟩ := step_recvmsg positive invariant stepped
    obtain ⟨sound, error⟩ := not_or.mp troubled
    obtain ⟨error, temporary⟩ := Classical.not_imp.mp error
    have left := BitVec.toNat_pos_of_ne_zero (invariant.receives waits)
    have rx := invariant.accounted.rx (by simp [waits])
    have tx : (s.receive rxIov answer).txBytes = s.txBytes := rfl
    unfold TestBurst.afterRecvmsg
    simp only [transfer.toInt32_eq]
    have stops : ¬ (decide (s.txBytes ≠ 0) ∧ answer.errno = .eagain) := by
      rintro ⟨polls, again⟩
      exact temporary ⟨by simp [again], fun _ => of_decide_eq_true polls⟩
    rw [if_pos error, tx, if_neg stops]
    refine not_accounted_fatal ?_ (.inr ?_)
    · rw [← Bool.not_eq_true, receive_failed_iff, fails_iff]
      rintro ((before | ⟨-, noSignal, noWait⟩) | zero)
      · exact sound before
      · exact temporary ⟨noSignal, fun again => absurd again noWait⟩
      · omega
    · show s.received + answer.ret.toNat ≠ _
      omega

theorem start_eq_some (started : start burstSz = some s) :
    0 < iovCnt burstSz ∧ Invariant burstSz s := by
  rw [start, Option.ite_none_right_eq_some, Option.some.injEq] at started
  obtain ⟨positive, rfl⟩ := started
  refine ⟨positive, ⟨fun begun => absurd rfl begun, fun begun => absurd rfl begun, ?_⟩, ?_, ?_,
    ?_, ?_⟩ <;> simp

/-- The lists are right for the bursts for which the number of buffers fits, and the accounts along
the runs in which neither call gives up on a connection that holds. -/
theorem transfers_iff (burstSz : BitVec 64) (burstCount : Int) (inputs : List Input) :
    Transfers burstSz burstCount inputs ↔
      Roomy burstSz ∧ ∀ s, start burstSz = some s →
        EachStep (step burstSz burstCount) Untroubled s inputs := by
  refine and_congr ⟨roomy_of_fills, fills_of_roomy⟩ (forall_congr' fun s => ?_)
  refine forall_congr' fun started => ?_
  obtain ⟨positive, invariant⟩ := start_eq_some started
  exact always_iff_eachStep (fun _ => Invariant.accounted)
    (fun _ _ _ => step_invariant positive) (fun _ _ _ => not_accounted_of_troubled positive)
    invariant

/-- 2^49 bytes: 2^32 full buffers and one more, of which the `int` keeps the one. -/
def hugeBurst : BitVec 64 := 0x2000000000000

/-- A burst of one MiB is sent, and a signal comes while the program waits for it to come back. -/
def interruptedInputs : List Input :=
  [.burst, .sendmsg ⟨0x100000, .other⟩, .recvmsg ⟨-1, .eintr⟩]

/-- The states of this run, in which all buffers are full. -/
def interruptedState (pc : Pc) (burstI : Nat) (txBytes rxBytes : BitVec 64) (sent : Nat) : State where
  pc := pc
  burstI := burstI
  txBytes := txBytes
  rxBytes := rxBytes
  txIov := List.replicate 9 bufferSize
  rxIov := List.replicate 9 bufferSize
  sent := sent
  received := 0
  failed := false

/-- One buffer is offered of the huge burst where there should be 1024, and the loop for the other one
ends with nothing received. -/
theorem not_transfers_hugeBurst :
    truncIov [bufferSize] (iovCnt hugeBurst) bufferSize (desired hugeBurst) = some (1, [2 ^ 17]) ∧
      desired hugeBurst = 2 ^ 27 ∧ ¬ Transfers hugeBurst 1 [] ∧
      ¬ Transfers 0x100000 1 interruptedInputs := by
  refine ⟨by decide, by decide, fun transfers => ?_, fun transfers => ?_⟩
  · have narrow : ¬ (hugeBurst.toNat < 2 ^ 27 ∨ 1024 ≤ iovCnt hugeBurst) := by decide
    exact narrow (roomy_iff.mp (roomy_of_fills transfers.1))
  · have started : start 0x100000 = some (interruptedState .ready 0 0 0 0) := by decide
    have begins : step 0x100000 1 (interruptedState .ready 0 0 0 0) .burst =
        some (interruptedState .sendmsg 1 0x100000 0x100000 0) := by decide
    have sends : step 0x100000 1 (interruptedState .sendmsg 1 0x100000 0x100000 0)
        (.sendmsg ⟨0x100000, .other⟩) = some (interruptedState .recvmsg 1 0 0x100000 0x100000) := by
      decide
    have stops : step 0x100000 1 (interruptedState .recvmsg 1 0 0x100000 0x100000)
        (.recvmsg ⟨-1, .eintr⟩) = some (interruptedState .fatal 1 0 0x100000 0x100000) := by decide
    have along := transfers.2 _ started
    have last := (((along.2 _ begins).2 _ sends).2 _ stops).head
    obtain ⟨-, received⟩ | failed := last.ended (.inr (.inr rfl))
    · exact absurd received (by decide)
    · exact absurd failed (by decide)

end Accounts

end CloudflareBlog.TcpSplice.TestBurst

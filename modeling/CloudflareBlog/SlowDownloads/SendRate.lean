import CloudflareBlog.Lib.Driven
import Mathlib.Algebra.Order.Ring.Rat
import Mathlib.Tactic.Linarith

/-!
# `send_minimum_rate`

A connection whose timer has run out is closed unless the kernel drains its buffer fast enough.  The
two functions of the patch keep a sample of the buffer and of the wall clock; a run is any order of
their calls, with whatever the clock shows and the buffer has.  A client that is fast enough in real
time is kept as long as the clock shows no more time than has passed (`fast_kept`).
-/

namespace CloudflareBlog.SlowDownloads

open Lib.Driven

abbrev NgxMsec := BitVec 64

abbrev Size := BitVec 64

abbrev SSize := BitVec 64

/-- What the patch adds to a connection. -/
structure Connection where
  socketUnacknowledgedBytes : SSize
  lastSendRateTime : NgxMsec
  deriving DecidableEq, Repr

/-- `ngx_time_t`. -/
structure NgxTime where
  sec : BitVec 64
  msec : BitVec 64
  deriving DecidableEq, Repr

/-! ## The code -/

/-- The answer to `TIOCOUTQ`, or 0 when there is none. -/
def ngxTcpUnacknowledgedBytes (outq : Option (BitVec 32)) : BitVec 32 := outq.getD 0

def milliseconds (tp : NgxTime) : NgxMsec := tp.sec * 1000 + tp.msec

/-- `ngx_connection_sending_above_rate`: its result, and what it leaves in the connection. -/
def sendingAboveRate (c : Connection) (minimumRate : Size) (tp : NgxTime)
    (outq : Option (BitVec 32)) : Bool × Connection :=
  if minimumRate = 0 then (false, c)
  else
    let t1 := milliseconds tp
    let timeElapsed := t1 - c.lastSendRateTime
    if timeElapsed.toNat < 1000 then (true, c)
    else
      let newUnacknowledgedBytes := (ngxTcpUnacknowledgedBytes outq).signExtend 64
      let bytesSent := c.socketUnacknowledgedBytes - newUnacknowledgedBytes
      let c := { c with
        socketUnacknowledgedBytes := newUnacknowledgedBytes
        lastSendRateTime := t1 }
      -- More bytes than before are in the buffer, as they are at the first sample.
      if bytesSent.toInt < 0 then (true, c)
      else if bytesSent.toNat ≥ (timeElapsed * minimumRate).toNat / 1000 then (true, c)
      else (false, c)

/-- `ngx_connection_reset_send_rate`. -/
def resetSendRate (c : Connection) : Connection := { c with socketUnacknowledgedBytes := 0 }

/-! ## The runs -/

/-- A call, and what it meets. -/
inductive Call where
  | reset
  /-- A check when the clock shows `tp`, the kernel has `level` bytes in its buffer, which it tells or
  not, and so many milliseconds have really passed since the beginning. -/
  | check (tp : NgxTime) (level : Fin (2 ^ 31)) (readable : Bool) (now : ℚ)

/-- The connection, and what is to be known about the last sample that was recorded. -/
structure State where
  c : Connection
  level : ℕ
  now : ℚ
  /-- There was a reset since then, or there is no sample yet. -/
  reset : Bool
  /-- There was a check since the reset. -/
  checked : Bool
  /-- The last result. -/
  result : Bool

/-- A connection is cleared when it is taken. -/
def start : State := ⟨⟨0, 0⟩, 0, 0, true, false, true⟩

/-- The time since the last sample, as the code sees it. -/
def State.elapsed (s : State) (tp : NgxTime) : NgxMsec := milliseconds tp - s.c.lastSendRateTime

/-- The check records a sample. -/
def State.records (s : State) (tp : NgxTime) : Prop := 1000 ≤ (s.elapsed tp).toNat

instance decidableRecords (s : State) (tp : NgxTime) : Decidable (s.records tp) :=
  inferInstanceAs (Decidable (_ ≤ _))

def outq (level : Fin (2 ^ 31)) (readable : Bool) : Option (BitVec 32) :=
  if readable then some (BitVec.ofNat 32 level) else none

def step (minimumRate : Size) (s : State) : Call → Option State
  | .reset => some { s with c := resetSendRate s.c, reset := true, checked := false }
  | .check tp level readable now =>
    let (result, c) := sendingAboveRate s.c minimumRate tp (outq level readable)
    some {
      c := c
      level := if s.records tp then level else s.level
      now := if s.records tp then now else s.now
      reset := s.reset && !s.records tp
      checked := true
      result := result }

/-- The client is fast enough: from a sample to the next one without a reset between them it drains the
minimum rate in real time, and the buffer is not empty at the first check behind a reset. -/
def Fast (minimumRate : Size) (s : State) : Call → Prop
  | .reset => True
  | .check tp level _ now =>
    (s.records tp → ¬ s.reset →
      (minimumRate.toNat : ℚ) * (now - s.now) / 1000 ≤ (s.level : ℚ) - (level : ℕ)) ∧
    (s.reset → ¬ s.checked → (level : ℕ) ≠ 0)

/-- The check meets no trouble: a sample tells the level of the buffer, the clock shows no more time
since the last sample than has passed, and the buffer is not empty at the first sample behind a
reset. -/
def Steady (s : State) : Call → Prop
  | .reset => True
  | .check tp level readable now =>
    s.records tp → readable ∧
      if s.reset then (level : ℕ) ≠ 0 else ((s.elapsed tp).toNat : ℚ) ≤ now - s.now

/-! ## A check -/

variable {minimumRate : Size} {s : State} {tp : NgxTime} {level : Fin (2 ^ 31)} {now : ℚ}

theorem signExtend_level (level : Fin (2 ^ 31)) :
    (BitVec.ofNat 32 level).signExtend 64 = BitVec.ofNat 64 level := by
  have small := level.isLt
  have msb : (BitVec.ofNat 32 level).msb = false := by
    rw [BitVec.msb_eq_false_iff_two_mul_lt, BitVec.toNat_ofNat]
    omega
  rw [BitVec.signExtend_eq_setWidth_of_msb_false msb]
  apply BitVec.eq_of_toNat_eq
  rw [BitVec.toNat_setWidth, BitVec.toNat_ofNat, BitVec.toNat_ofNat]
  omega

theorem sendingAboveRate_early (positive : minimumRate ≠ 0) (early : ¬ s.records tp)
    (outq : Option (BitVec 32)) : sendingAboveRate s.c minimumRate tp outq = (true, s.c) := by
  rw [sendingAboveRate, if_neg positive]
  exact if_pos (Nat.not_le.mp early)

theorem toInt_levels {before level : ℕ} (small : before < 2 ^ 31) (also : level < 2 ^ 31) :
    (BitVec.ofNat 64 before - BitVec.ofNat 64 level).toInt = before - level := by
  rw [BitVec.toInt_eq_toNat_cond, BitVec.toNat_sub, BitVec.toNat_ofNat, BitVec.toNat_ofNat]
  split <;> omega

theorem toNat_levels {before level : ℕ} (small : before < 2 ^ 31) (drained : level ≤ before) :
    (BitVec.ofNat 64 before - BitVec.ofNat 64 level).toNat = before - level := by
  rw [BitVec.toNat_sub, BitVec.toNat_ofNat, BitVec.toNat_ofNat]
  omega

/-- A sample is kept, and the result is about the level before. -/
theorem sendingAboveRate_records (positive : minimumRate ≠ 0) (records : s.records tp) {before : ℕ}
    (small : before < 2 ^ 31) (stored : s.c.socketUnacknowledgedBytes = BitVec.ofNat 64 before)
    (enough : before < (level : ℕ) ∨
      ((s.elapsed tp) * minimumRate).toNat / 1000 ≤ before - (level : ℕ)) :
    sendingAboveRate s.c minimumRate tp (outq level true) =
      (true, ⟨BitVec.ofNat 64 level, milliseconds tp⟩) := by
  have read : (ngxTcpUnacknowledgedBytes (outq level true)).signExtend 64 = BitVec.ofNat 64 level :=
    signExtend_level level
  have late : ¬ (milliseconds tp - s.c.lastSendRateTime).toNat < 1000 := Nat.not_lt.mpr records
  rw [sendingAboveRate, if_neg positive]
  simp only [if_neg late, read, stored]
  rw [toInt_levels small level.isLt]
  by_cases grew : before < (level : ℕ)
  · exact if_pos (by omega)
  · have less : ((s.elapsed tp) * minimumRate).toNat / 1000 ≤ before - (level : ℕ) :=
      enough.resolve_left grew
    rw [toNat_levels small (Nat.not_lt.mp grew), if_neg (by omega)]
    exact if_pos less

/-- The product may wrap around, which makes the threshold less. -/
theorem threshold_le {elapsed : NgxMsec} {real : ℚ} {drained : ℕ} (shown : (elapsed.toNat : ℚ) ≤ real)
    (fast : (minimumRate.toNat : ℚ) * real / 1000 ≤ drained) :
    (elapsed * minimumRate).toNat / 1000 ≤ drained := by
  have wrapped : (elapsed * minimumRate).toNat ≤ elapsed.toNat * minimumRate.toNat := by
    rw [BitVec.toNat_mul]
    exact Nat.mod_le _ _
  have product : (minimumRate.toNat : ℚ) * elapsed.toNat ≤ 1000 * drained := by
    have rate : (0 : ℚ) ≤ minimumRate.toNat := Nat.cast_nonneg _
    have more := mul_le_mul_of_nonneg_left shown rate
    linarith
  have whole : minimumRate.toNat * elapsed.toNat ≤ 1000 * drained := by exact_mod_cast product
  apply Nat.div_le_of_le_mul
  calc (elapsed * minimumRate).toNat ≤ elapsed.toNat * minimumRate.toNat := wrapped
    _ = minimumRate.toNat * elapsed.toNat := Nat.mul_comm _ _
    _ ≤ 1000 * drained := whole

/-! ## The runs -/

/-- The connection has the level of the last sample, or nothing behind a reset. -/
structure Sampled (s : State) : Prop where
  small : s.level < 2 ^ 31
  stored : s.c.socketUnacknowledgedBytes = BitVec.ofNat 64 (if s.reset then 0 else s.level)
  result : s.result = true

theorem sampled_start : Sampled start := ⟨by decide, rfl, rfl⟩

/-- What the last sample has to say about a steady check of a fast client. -/
theorem enough_of_fast
    (drains : ¬ s.reset →
      (minimumRate.toNat : ℚ) * (now - s.now) / 1000 ≤ (s.level : ℚ) - (level : ℕ))
    (steady : if s.reset then (level : ℕ) ≠ 0 else ((s.elapsed tp).toNat : ℚ) ≤ now - s.now) :
    (if s.reset then 0 else s.level) < (level : ℕ) ∨
      (s.elapsed tp * minimumRate).toNat / 1000 ≤ (if s.reset then 0 else s.level) - (level : ℕ) := by
  cases reset : s.reset with
  | true =>
    rw [reset, if_pos rfl] at steady
    rw [if_pos rfl]
    exact .inl (Nat.pos_of_ne_zero steady)
  | false =>
    rw [reset, if_neg Bool.false_ne_true] at steady
    rw [if_neg Bool.false_ne_true]
    have fast := drains (by simp [reset])
    obtain grew | drained := Nat.lt_or_ge s.level (level : ℕ)
    · exact .inl grew
    · refine .inr (threshold_le steady ?_)
      rw [Nat.cast_sub drained]
      exact fast

theorem Sampled.step (positive : minimumRate ≠ 0) {call : Call} {t : State} (sampled : Sampled s)
    (met : Fast minimumRate s call ∧ Steady s call) (stepped : step minimumRate s call = some t) :
    Sampled t := by
  cases call with
  | reset =>
    obtain rfl : _ = t := Option.some.inj stepped
    exact ⟨sampled.small, rfl, sampled.result⟩
  | check tp level readable now =>
    -- A check that records nothing is also a result of true, and changes nothing.
    obtain ⟨⟨drains, -⟩, steady⟩ := met
    by_cases records : s.records tp
    · obtain ⟨read, rest⟩ := steady records
      have small : (if s.reset then 0 else s.level) < 2 ^ 31 := by
        split
        · decide
        · exact sampled.small
      have ran := sendingAboveRate_records positive records small sampled.stored
        (enough_of_fast (drains records) rest)
      rw [SlowDownloads.step, read, ran] at stepped
      obtain rfl : _ = t := Option.some.inj stepped
      refine ⟨?_, ?_, rfl⟩
      · simp only [if_pos records]
        exact level.isLt
      · simp only [records, if_true, decide_true, Bool.not_true, Bool.and_false, Bool.false_eq_true,
          if_false]
    · rw [SlowDownloads.step, sendingAboveRate_early positive records] at stepped
      obtain rfl : _ = t := Option.some.inj stepped
      refine ⟨?_, ?_, rfl⟩
      · simp only [if_neg records]
        exact sampled.small
      · simp only [records, if_false, decide_false, Bool.not_false, Bool.and_true]
        exact sampled.stored

/-- In every run of a client that is fast enough, in which each sample tells the level of the buffer,
the clock shows no more time between two samples than has passed, and the buffer is not empty at the
first sample behind a reset, the connection is kept. -/
theorem fast_kept (minimumRate : Size) (positive : minimumRate ≠ 0) (calls : List Call)
    (fast : EachStep (step minimumRate) (Fast minimumRate) start calls)
    (steady : EachStep (step minimumRate) Steady start calls) :
    Always (step minimumRate) (fun s => s.result = true) start calls :=
  always_of_eachStep (fun _ sampled => Sampled.result sampled)
    (fun _ _ _ sampled met stepped => sampled.step positive met stepped) sampled_start
    (fast.and steady)

/-- A sample of 100000 bytes when the clock shows five seconds. -/
def firstSample : Call := .check ⟨5, 0⟩ 100000 true 0

def sampledOnce : State := ⟨⟨100000, 5000⟩, 100000, 0, false, true, true⟩

theorem step_firstSample : step 1 start firstSample = some sampledOnce := rfl

/-- From there two seconds pass, and the buffer drains. -/
theorem fast_firstSample (sec : BitVec 64) :
    EachStep (step 1) (Fast 1) start [firstSample, .check ⟨sec, 0⟩ 0 true 2000] := by
  intro next stepped
  obtain rfl : sampledOnce = next := Option.some.inj (step_firstSample.symm.trans stepped)
  refine ⟨⟨fun _ fresh => absurd rfl fresh, fun _ _ => by decide⟩, fun last _ => ⟨?_, trivial⟩⟩
  refine ⟨fun _ _ => ?_, fun reset => absurd reset (by decide)⟩
  show ((1 : BitVec 64).toNat : ℚ) * (2000 - 0) / 1000 ≤ ((100000 : ℕ) : ℚ) - ((0 : ℕ) : ℚ)
  rw [show (1 : BitVec 64).toNat = 1 from rfl]
  norm_num

/-- The clock shows the two seconds. -/
theorem fast_kept_twoSeconds :
    Always (step 1) (fun s => s.result = true) start [firstSample, .check ⟨7, 0⟩ 0 true 2000] := by
  refine fast_kept 1 (by decide) _ (fast_firstSample 7) ?_
  intro next stepped
  obtain rfl : sampledOnce = next := Option.some.inj (step_firstSample.symm.trans stepped)
  refine ⟨fun _ => ⟨rfl, by decide⟩, fun last _ => ⟨fun _ => ⟨rfl, ?_⟩, trivial⟩⟩
  show (((sampledOnce.elapsed ⟨7, 0⟩).toNat : ℕ) : ℚ) ≤ 2000 - 0
  have shown : (sampledOnce.elapsed ⟨7, 0⟩).toNat = 2000 := by decide
  rw [shown]
  norm_num

/-- The clock has been put back by three seconds: the connection is closed for a rate of one byte in a
second. -/
theorem not_fast_kept_putBack :
    ¬ ∀ calls, EachStep (step 1) (Fast 1) start calls →
      Always (step 1) (fun s => s.result = true) start calls := by
  intro kept
  have along := (kept _ (fast_firstSample 4)).2 sampledOnce step_firstSample
  exact absurd (along.2 _ rfl).head (by decide)

end CloudflareBlog.SlowDownloads

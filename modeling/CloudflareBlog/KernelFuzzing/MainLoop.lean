import CloudflareBlog.KernelFuzzing.Coverage
import CloudflareBlog.KernelFuzzing.Decoding
import CloudflareBlog.KernelFuzzing.Siphash
import CloudflareBlog.Lib.Logged

/-!
# The main loop of `fuzznetlink`

The program plays a fork server for AFL without forking: it answers each request over the pipes with a
process id and then with a status, which says whether the kernel has complained in the meantime.  Every
test gets a socket, and now and then a network namespace of its own.
-/

namespace CloudflareBlog.KernelFuzzing

open Lib Lib.Logged
open Lib.Buffer (Byte)

abbrev U32 := BitVec 32

/-! ## What happens -/

inductive Event where
  /-- Four bytes written to and read from the pipes 199 and 198. -/
  | sent (word : U32)
  | got (word : U32)
  /-- `unshare`, and whether there was room for a new namespace. -/
  | newNetns (room : Bool)
  | kcovEnabled
  | kcovDisabled
  | opened (fd : Nat) (protocol : BitVec 32)
  | bound (fd : Nat) (nlGroups : BitVec 32)
  | sentMsg (fd : Nat) (payload : List Byte)
  | receivedMsg (fd : Nat)
  | closed (fd : Nat)
  | covered (area : Nat → Byte)
  /-- A line of the kernel's messages appended to the file of `--dmesg`. -/
  | copied (line : List Byte)

/-- `struct state`, but for what is printed only. -/
structure Options where
  oneRun : Nat
  noKcov : Nat
  netns : Int
  userDmesg : Bool

/-- The result of `unshare`. -/
inductive Unshared where
  | ok | noSpace | failed
  deriving DecidableEq, Repr

/-- What the system answers in one turn of the loop, if it is asked. -/
structure Answers where
  /-- The request of AFL, unless `read` gives anything but four bytes. -/
  control : Option U32
  pidTaken : Bool
  input : Option (List Byte)
  unshared : Unshared
  kcovEnable : Bool
  socket : Option Nat
  bind : Bool
  sendmsg : Bool
  kcovDisable : Bool
  trace : List (BitVec 64)
  /-- The shared area when the trace is recorded, which AFL may clear between the turns. -/
  area : Nat → Byte
  /-- What the reads of `/dev/kmsg` give: a line each. -/
  kmsg : List (List Byte)
  statusTaken : Bool

/-! ## The code -/

/-- `forksrv_cycle`; the result is not used. -/
def forksrvCycle (on : Bool) (childPid : U32) (answers : Answers) : Logged Event Unit :=
  if on then do
    let wasKilled ← orStop answers.control
    emit (.got wasKilled)
    ensure answers.pidTaken
    emit (.sent childPid)
  else pure ()

def forksrvStatus (on : Bool) (status : U32) (answers : Answers) : Logged Event Unit :=
  if on then do
    ensure answers.statusTaken
    emit (.sent status)
  else pure ()

def kcovEnable (options : Options) (answers : Answers) : Logged Event Unit :=
  whenever (options.noKcov = 0) do
    ensure answers.kcovEnable
    emit .kcovEnabled

def kcovDisable (options : Options) (answers : Answers) : Logged Event (List (BitVec 64)) :=
  if options.noKcov = 0 then do
    ensure answers.kcovDisable
    emit .kcovDisabled
    return answers.trace
  else pure []

/-- `netns_new`, without the interfaces that it sets up in the namespace. -/
def netnsNew (answers : Answers) : Logged Event Unit :=
  match answers.unshared with
  | .ok => emit (.newNetns true)
  | .noSpace => emit (.newNetns false)
  | .failed => stop

/-- From `socket` to `close`; each failure goes to the label `error`. -/
def netlink (operation : Operation) (answers : Answers) : Logged Event Unit :=
  match answers.socket with
  | none => pure ()
  | some fd => do
    emit (.opened fd operation.protocol)
    whenever answers.bind do
      emit (.bound fd operation.nlGroups)
      whenever answers.sendmsg do
        emit (.sentMsg fd operation.payload)
        emit (.receivedMsg fd)
    emit (.closed fd)

/-- `strstr` finds the text. -/
def strstr (haystack : List Byte) (needle : String) : Bool :=
  needle.toList.map (fun c => BitVec.ofNat 8 c.toNat) <:+: haystack

/-- The string in `buf` behind one `read`. -/
def kmsgString (line : List Byte) : List Byte := (line.take 8191).takeWhile (· ≠ 0)

def complains (line : List Byte) : Bool :=
  strstr (kmsgString line) "Call Trace" || strstr (kmsgString line) "RIP:" ||
    strstr (kmsgString line) "Code:"

/-- The loop over the kernel's messages, with the new value of `crashed`. -/
def readKmsg (userDmesg : Bool) : List (List Byte) → Nat → Logged Event Nat
  | [], crashed => pure crashed
  | line :: rest, crashed =>
    if line = [] then pure crashed
    else do
      whenever userDmesg (emit (.copied (line.take 8191)))
      readKmsg userDmesg rest (if complains line then crashed + 1 else crashed)

def crashStatus : U32 := 139

/-- What the turns hand on: `force_new_netns` and the buffer of the input. -/
structure Kept where
  forceNewNetns : Bool
  buf : Nat → Byte

/-- The condition of `netns_new`; `run_no` is an `int`. -/
def wantsNetns (options : Options) (runNo : BitVec 32) (forceNewNetns : Bool) : Bool :=
  (options.netns ≠ 0 && runNo.toInt.tmod options.netns = 0) || forceNewNetns

/-- A new namespace where it is time for it, and the new value of `force_new_netns`. -/
def renewNetns (options : Options) (runNo : BitVec 32) (forceNewNetns : Bool) (answers : Answers) :
    Logged Event Bool :=
  if wantsNetns options runNo forceNewNetns then do
    netnsNew answers
    return false
  else pure forceNewNetns

/-- One turn. -/
def turn (options : Options) (on : Bool) (childPid : U32) (runNo : BitVec 32) (kept : Kept)
    (answers : Answers) : Logged Event Kept := do
  forksrvCycle on childPid answers
  let input ← orStop answers.input
  let operation := attempted kept.buf input
  let forceNewNetns ← renewNetns options runNo kept.forceNewNetns answers
  kcovEnable options answers
  netlink operation answers
  let trace ← kcovDisable options answers
  let area ← orStop (coverLoop locHash trace 0 answers.area)
  emit (.covered area)
  let crashed ← readKmsg options.userDmesg answers.kmsg 0
  forksrvStatus on (if crashed ≠ 0 then crashStatus else 0) answers
  return ⟨if crashed ≠ 0 then true else forceNewNetns, filled kept.buf input⟩

inductive Ending where
  /-- The answers do not go on. -/
  | waiting
  /-- `PFATAL`. -/
  | fatal
  /-- The end of `main`. -/
  | done
  deriving DecidableEq, Repr

/-- The loop, with what happens in each turn. -/
def loop (options : Options) (on : Bool) (childPid : U32) :
    BitVec 32 → Kept → List Answers → List (List Event) × Ending
  | _, _, [] => ([], .waiting)
  | runNo, kept, answers :: rest =>
    let logged := turn options on childPid runNo kept answers
    match logged.value with
    | none => ([logged.events], .fatal)
    | some kept =>
      if options.oneRun ≠ 0 then ([logged.events], .done)
      else
        let later := loop options on childPid (runNo + 1) kept rest
        (logged.events :: later.1, later.2)

structure Run where
  hello : List Event
  turns : List (List Event)
  ending : Ending

/-- `forksrv_welcome`, which has to be taken too, and then the loop. -/
def main (options : Options) (on welcomeTaken : Bool) (childPid : U32) (buf : Nat → Byte)
    (answers : List Answers) : Run :=
  if on && !welcomeTaken then ⟨[], [], .fatal⟩
  else
    let later := loop options on childPid 0 ⟨true, buf⟩ answers
    ⟨if on then [.sent 0] else [], later.1, later.2⟩

def Run.events (run : Run) : List Event := run.hello ++ run.turns.flatten

/-! ## The pipes -/

inductive Message where
  | request (word : U32)
  | answer (word : U32)
  deriving DecidableEq, Repr

def onPipes : Event → Option Message
  | .got word => some (.request word)
  | .sent word => some (.answer word)
  | _ => none

/-- The kernel has complained, up to the first line that is empty. -/
def crashes (answers : Answers) : Bool := (answers.kmsg.takeWhile (· ≠ [])).any complains

/-- What goes over the pipes in one turn. -/
def exchange (on : Bool) (childPid : U32) (answers : Answers) : List Message :=
  match on, answers.control with
  | true, some word =>
    [.request word, .answer childPid, .answer (if crashes answers then crashStatus else 0)]
  | _, _ => []

section

variable {options : Options} {on : Bool} {childPid : U32} {answers : Answers}

theorem value_readKmsg (userDmesg : Bool) (lines : List (List Byte)) (crashed : Nat) :
    (readKmsg userDmesg lines crashed).value =
      some (crashed + (lines.takeWhile (· ≠ [])).countP complains) := by
  induction lines generalizing crashed with
  | nil => rfl
  | cons line rest inductionHypothesis =>
    by_cases empty : line = []
    · rw [readKmsg, if_pos empty, empty]
      rfl
    · have goes : (whenever userDmesg (emit (Event.copied (line.take 8191)))).value = some () :=
        value_whenever rfl
      rw [readKmsg, if_neg empty, value_bind, goes, Option.bind_some, inductionHypothesis,
        List.takeWhile_cons_of_pos (by simpa using empty), List.countP_cons]
      split
      · rw [Nat.add_assoc, Nat.add_comm 1]
      · rfl

theorem crashed_iff {userDmesg : Bool} {crashed : Nat}
    (value : (readKmsg userDmesg answers.kmsg 0).value = some crashed) :
    crashed ≠ 0 ↔ crashes answers = true := by
  rw [value_readKmsg, Nat.zero_add, Option.some.injEq] at value
  rw [← value, crashes, List.any_eq_true, Nat.ne_zero_iff_zero_lt, List.countP_pos_iff]

/-! ## One matter -/

variable {M : Type} {keep : Event → Option M}

/-- Neither about the pipes nor about the namespaces. -/
def Event.elsewhere : Event → Bool
  | .sent _ | .got _ | .newNetns _ => false
  | _ => true

def Apart (keep : Event → Option M) : Prop := ∀ event, event.elsewhere = true → keep event = none

theorem follows_kcovEnable (apart : Apart keep) (options : Options) (answers : Answers) :
    Follows keep [] (kcovEnable options answers) := by
  have enabled : Follows keep [] (ensure answers.kcovEnable >>= fun _ => emit .kcovEnabled) :=
    (Follows.ensure keep answers.kcovEnable).skip fun _ _ =>
      .emit (apart _ rfl)
  have either : Follows keep (if decide (options.noKcov = 0) = true then [] else [])
      (kcovEnable options answers) := .whenever enabled
  rwa [ite_self] at either

theorem follows_kcovDisable (apart : Apart keep) (options : Options) (answers : Answers) :
    Follows keep [] (kcovDisable options answers) := by
  rw [kcovDisable]
  split
  · exact (Follows.ensure keep answers.kcovDisable).skip fun _ _ =>
      (Follows.emit (apart _ rfl)).skip fun _ _ => .pure keep answers.trace
  · exact .pure keep []

theorem follows_netlink (apart : Apart keep) (operation : Operation) (answers : Answers) :
    Follows keep [] (netlink operation answers) := by
  have all : (netlink operation answers).events.all Event.elsewhere = true := by
    rw [netlink]
    cases answers.socket with
    | none => rfl
    | some fd => cases answers.bind <;> cases answers.sendmsg <;> rfl
  exact .of_nil fun event among => apart event (List.all_eq_true.mp all event among)

theorem follows_readKmsg (apart : Apart keep) (userDmesg : Bool) (lines : List (List Byte))
    (crashed : Nat) : Follows keep [] (readKmsg userDmesg lines crashed) := by
  induction lines generalizing crashed with
  | nil => exact .pure keep crashed
  | cons line rest inductionHypothesis =>
    rw [readKmsg]
    split
    · exact .pure keep crashed
    · have uncopied : keep (.copied (line.take 8191)) = none := apart _ rfl
      have copied : Follows keep (if userDmesg = true then [] else [])
          (whenever userDmesg (emit (.copied (line.take 8191)))) := .whenever (.emit uncopied)
      rw [ite_self] at copied
      exact copied.skip fun _ _ => inductionHypothesis _

theorem follows_turn (apart : Apart keep) {first second third : List M} {runNo : BitVec 32}
    {kept : Kept}
    (cycle : Follows keep first (forksrvCycle on childPid answers))
    (renewed : Follows keep second (renewNetns options runNo kept.forceNewNetns answers))
    (status : Follows keep third
      (forksrvStatus on (if crashes answers then crashStatus else 0) answers)) :
    Follows keep (first ++ (second ++ third)) (turn options on childPid runNo kept answers) := by
  refine cycle.bind fun _ _ => (Follows.orStop keep _).skip fun input _ => renewed.bind fun _ _ =>
    (follows_kcovEnable apart ..).skip fun _ _ => (follows_netlink apart ..).skip fun _ _ =>
    (follows_kcovDisable apart ..).skip fun _ _ => (Follows.orStop keep _).skip fun _ _ =>
    (Follows.emit (apart _ rfl)).skip fun _ _ =>
    (follows_readKmsg apart ..).skip fun crashed counted => ?_
  have same : (if crashed ≠ 0 then crashStatus else 0) = if crashes answers then crashStatus else 0 :=
    if_congr (crashed_iff counted) rfl rfl
  rw [same, ← List.append_nil third]
  exact status.bind fun _ _ => .pure keep _

/-! ## The pipes in one turn -/

theorem apart_onPipes : Apart onPipes := by
  intro event elsewhere
  cases event with
  | sent word => cases elsewhere
  | got word => cases elsewhere
  | _ => rfl

theorem follows_onPipes_renewNetns (options : Options) (runNo : BitVec 32) (forceNewNetns : Bool)
    (answers : Answers) : Follows onPipes [] (renewNetns options runNo forceNewNetns answers) := by
  have renewed : Follows onPipes [] (netnsNew answers) := by
    rw [netnsNew]
    split <;> exact .of_events rfl
  rw [renewNetns]
  split
  · exact renewed.skip fun _ _ => .pure onPipes false
  · exact .pure onPipes forceNewNetns

theorem follows_onPipes_forksrvCycle (childPid : U32) (answers : Answers) :
    Follows onPipes (match answers.control with
      | some word => [.request word, .answer childPid]
      | none => []) (forksrvCycle true childPid answers) := by
  rw [forksrvCycle, if_pos rfl]
  cases answers.control with
  | none => exact .of_events rfl
  | some word =>
    cases answers.pidTaken with
    | false => exact ⟨⟨[.answer childPid], rfl⟩, fun isSome => by cases isSome⟩
    | true => exact .of_events rfl

theorem follows_onPipes_forksrvStatus (status : U32) (answers : Answers) :
    Follows onPipes [.answer status] (forksrvStatus true status answers) := by
  rw [forksrvStatus, if_pos rfl]
  cases answers.statusTaken with
  | false => exact ⟨List.nil_prefix, fun isSome => by cases isSome⟩
  | true => exact .of_events rfl

theorem follows_onPipes_turn (options : Options) (on : Bool) (childPid : U32) (runNo : BitVec 32)
    (kept : Kept) (answers : Answers) :
    Follows onPipes (exchange on childPid answers)
      (turn options on childPid runNo kept answers) := by
  have renewed := follows_onPipes_renewNetns options runNo kept.forceNewNetns answers
  cases on with
  | false =>
    have status : Follows onPipes []
        (forksrvStatus false (if crashes answers then crashStatus else 0) answers) := .pure onPipes ()
    exact follows_turn apart_onPipes (.pure onPipes ()) renewed status
  | true =>
    have cycle := follows_onPipes_forksrvCycle childPid answers
    have status := follows_onPipes_forksrvStatus (if crashes answers then crashStatus else 0) answers
    cases asked : answers.control with
    | none =>
      have ended : (forksrvCycle true childPid answers).value = none := by
        rw [forksrvCycle, if_pos rfl, value_bind, value_orStop, asked]
        rfl
      rw [asked] at cycle
      simp only [exchange, asked]
      refine cycle.bind fun a has => ?_
      rw [ended] at has
      cases has
    | some word =>
      rw [asked] at cycle
      simp only [exchange, asked]
      exact follows_turn apart_onPipes cycle renewed status

/-! ## The runs -/

theorem loop_cons (runNo : BitVec 32) (kept : Kept) (answers : Answers) (rest : List Answers) :
    loop options on childPid runNo kept (answers :: rest) =
      match (turn options on childPid runNo kept answers).value with
      | none => ([(turn options on childPid runNo kept answers).events], .fatal)
      | some next =>
        if options.oneRun ≠ 0 then ([(turn options on childPid runNo kept answers).events], .done)
        else
          ((turn options on childPid runNo kept answers).events ::
            (loop options on childPid (runNo + 1) next rest).1,
           (loop options on childPid (runNo + 1) next rest).2) := rfl

/-- What every turn does in one matter. -/
theorem loop_follows {plan : Answers → List M} (runNo : BitVec 32) (kept : Kept) (given : List Answers)
    (follows : ∀ runNo kept answers,
      Follows keep (plan answers) (turn options on childPid runNo kept answers)) :
    (loop options on childPid runNo kept given).1.flatten.filterMap keep <+: given.flatMap plan ∧
      ((loop options on childPid runNo kept given).2 ≠ .fatal →
        (loop options on childPid runNo kept given).1.flatten.filterMap keep =
          (given.take (loop options on childPid runNo kept given).1.length).flatMap plan) := by
  induction given generalizing runNo kept with
  | nil => exact ⟨List.prefix_rfl, fun _ => rfl⟩
  | cons answers rest inductionHypothesis =>
    have here := follows runNo kept answers
    rw [loop_cons, List.flatMap_cons]
    cases has : (turn options on childPid runNo kept answers).value with
    | none =>
      rw [List.flatten_singleton]
      exact ⟨here.part.trans (List.prefix_append ..), fun notFatal => absurd rfl notFatal⟩
    | some next =>
      have done := here.whole (by rw [has]; rfl)
      dsimp only
      split
      · rw [List.flatten_singleton, done, List.length_singleton, List.take_succ_cons, List.take_zero,
          List.flatMap_singleton]
        exact ⟨List.prefix_append .., fun _ => rfl⟩
      · obtain ⟨part, whole⟩ := inductionHypothesis (runNo + 1) next
        rw [List.flatten_cons, List.filterMap_append, done, List.length_cons, List.take_succ_cons,
          List.flatMap_cons]
        exact ⟨(List.prefix_append_right_inj _).mpr part, fun notFatal => by rw [whole notFatal]⟩

/-- AFL gets the hello, and then each request is answered with the process id and with the status of
its own turn, in this order and before the next request is read; outside AFL the pipes are not touched. -/
theorem main_onPipes (options : Options) (on : Bool) (childPid : U32) (buf : Nat → Byte)
    (given : List Answers) :
    (main options on true childPid buf given).events.filterMap onPipes <+:
        (if on then [.answer 0] else []) ++ given.flatMap (exchange on childPid) ∧
      ((main options on true childPid buf given).ending ≠ .fatal →
        (main options on true childPid buf given).events.filterMap onPipes =
          (if on then [.answer 0] else []) ++
            (given.take (main options on true childPid buf given).turns.length).flatMap
              (exchange on childPid)) := by
  obtain ⟨part, whole⟩ := loop_follows 0 ⟨true, buf⟩ given (follows_onPipes_turn options on childPid)
  cases on with
  | false => exact ⟨part, whole⟩
  | true =>
    exact ⟨List.cons_prefix_cons.mpr ⟨rfl, part⟩, fun goes => congrArg (List.cons (Message.answer 0))
      (whole goes)⟩

/-! ## The namespaces -/

/-- A new namespace, and whether there was room for it. -/
def renewing : Event → Option Bool
  | .newNetns room => some room
  | _ => none

def renewal (wanted : Bool) (answers : Answers) : List Bool :=
  if wanted then [answers.unshared = .ok] else []

theorem apart_renewing : Apart renewing := by
  intro event elsewhere
  cases event with
  | newNetns room => cases elsewhere
  | _ => rfl

theorem follows_renewing_turn (options : Options) (on : Bool) (childPid : U32) (runNo : BitVec 32)
    (kept : Kept) (answers : Answers) :
    Follows renewing (renewal (wantsNetns options runNo kept.forceNewNetns) answers)
      (turn options on childPid runNo kept answers) := by
  have cycle : Follows renewing [] (forksrvCycle on childPid answers) := by
    refine .of_events ?_
    cases on with
    | false => rfl
    | true =>
      rw [forksrvCycle, if_pos rfl]
      cases answers.control with
      | none => rfl
      | some word => cases answers.pidTaken <;> rfl
  have renewed : Follows renewing (renewal (wantsNetns options runNo kept.forceNewNetns) answers)
      (renewNetns options runNo kept.forceNewNetns answers) := by
    rw [renewNetns, renewal]
    split
    · rw [netnsNew]
      cases answers.unshared with
      | failed => exact ⟨List.nil_prefix, fun isSome => by cases isSome⟩
      | _ => exact .of_events rfl
    · exact .pure renewing _
  have status : Follows renewing []
      (forksrvStatus on (if crashes answers then crashStatus else 0) answers) := by
    refine .of_events ?_
    cases on with
    | false => rfl
    | true =>
      rw [forksrvStatus, if_pos rfl]
      cases answers.statusTaken <;> rfl
  have whole := follows_turn apart_renewing cycle renewed status
  rwa [List.nil_append, List.append_nil] at whole

/-- What `force_new_netns` is in a turn. -/
def forced (first : Bool) (given : List Answers) : Nat → Bool
  | 0 => first
  | before + 1 => given[before]?.any crashes

theorem value_renewNetns {runNo : BitVec 32} {forceNewNetns left : Bool}
    (value : (renewNetns options runNo forceNewNetns answers).value = some left) : left = false := by
  rw [renewNetns] at value
  split at value
  · obtain ⟨_, _, last⟩ := (value_bind_eq_some_iff ..).mp value
    exact (Option.some.inj last).symm
  · rename_i notWanted
    have unforced : forceNewNetns = false := by
      cases forceNewNetns with
      | true => exact absurd (Bool.or_true _) notWanted
      | false => rfl
    rw [← Option.some.inj value, unforced]

/-- A turn that goes through hands on whether the kernel has complained. -/
theorem value_turn {runNo : BitVec 32} {kept next : Kept}
    (value : (turn options on childPid runNo kept answers).value = some next) :
    next.forceNewNetns = crashes answers := by
  obtain ⟨_, -, value⟩ := (value_bind_eq_some_iff ..).mp value
  obtain ⟨input, -, value⟩ := (value_bind_eq_some_iff ..).mp value
  obtain ⟨left, renewed, value⟩ := (value_bind_eq_some_iff ..).mp value
  obtain ⟨_, -, value⟩ := (value_bind_eq_some_iff ..).mp value
  obtain ⟨_, -, value⟩ := (value_bind_eq_some_iff ..).mp value
  obtain ⟨trace, -, value⟩ := (value_bind_eq_some_iff ..).mp value
  obtain ⟨area, -, value⟩ := (value_bind_eq_some_iff ..).mp value
  obtain ⟨_, -, value⟩ := (value_bind_eq_some_iff ..).mp value
  obtain ⟨crashed, counted, value⟩ := (value_bind_eq_some_iff ..).mp value
  obtain ⟨_, -, value⟩ := (value_bind_eq_some_iff ..).mp value
  rw [← Option.some.inj value, value_renewNetns renewed]
  have complained := crashed_iff counted
  split
  · exact (complained.mp ‹_›).symm
  · exact (Bool.eq_false_iff.mpr (mt complained.mpr ‹_›)).symm

theorem loop_turn {runNo : BitVec 32} {i : Nat} {kept : Kept} {given : List Answers}
    {events : List Event}
    (inTurn : (loop options on childPid runNo kept given).1[i]? = some events) :
    ∃ before answers,
      events = (turn options on childPid (runNo + BitVec.ofNat 32 i) before answers).events ∧
      before.forceNewNetns = forced kept.forceNewNetns given i ∧
      (i + 1 < (loop options on childPid runNo kept given).1.length ∨
          (loop options on childPid runNo kept given).2 ≠ .fatal →
        (turn options on childPid (runNo + BitVec.ofNat 32 i) before answers).value.isSome = true) := by
  induction given generalizing runNo kept i with
  | nil => cases inTurn
  | cons answers rest inductionHypothesis =>
    have first : runNo + BitVec.ofNat 32 0 = runNo := BitVec.add_zero runNo
    rw [loop_cons] at inTurn ⊢
    cases has : (turn options on childPid runNo kept answers).value with
    | none =>
      rw [has] at inTurn
      cases i with
      | zero =>
        rw [first]
        refine ⟨kept, answers, (Option.some.inj inTurn).symm, rfl, fun goes => ?_⟩
        obtain more | notFatal := goes
        · exact absurd more (Nat.lt_irrefl 1)
        · exact absurd rfl notFatal
      | succ i => cases inTurn
    | some next =>
      rw [has] at inTurn
      dsimp only at inTurn ⊢
      split at inTurn
      · rename_i oneRun
        rw [if_pos oneRun]
        cases i with
        | zero =>
          rw [first]
          exact ⟨kept, answers, (Option.some.inj inTurn).symm, rfl, fun _ => by rw [has]; rfl⟩
        | succ i => cases inTurn
      · rename_i moreRuns
        rw [if_neg moreRuns]
        cases i with
        | zero =>
          rw [first]
          exact ⟨kept, answers, (Option.some.inj inTurn).symm, rfl, fun _ => by rw [has]; rfl⟩
        | succ i =>
          have number : runNo + 1 + BitVec.ofNat 32 i = runNo + BitVec.ofNat 32 (i + 1) := by
            rw [BitVec.add_assoc, BitVec.add_comm 1, BitVec.ofNat_add]
            rfl
          obtain ⟨before, later, same, forced, goes⟩ := inductionHypothesis inTurn
          rw [number] at same goes
          refine ⟨before, later, same, ?_, fun whole => goes ?_⟩
          · rw [forced]
            cases i with
            | zero => exact value_turn has
            | succ i => rfl
          · exact whole.imp_left Nat.lt_of_succ_lt_succ

/-- It is the first turn, or the turn is one of those of `--netns`, or the kernel has complained in the
turn before. -/
def Due (options : Options) (given : List Answers) (i : Nat) : Prop :=
  i = 0 ∨ (options.netns ≠ 0 ∧ options.netns ∣ i) ∨
    ∃ before answers, i = before + 1 ∧ given[before]? = some answers ∧ crashes answers = true

theorem wantsNetns_iff (options : Options) (given : List Answers) {i : Nat} (few : i < 2 ^ 31) :
    wantsNetns options (BitVec.ofNat 32 i) (forced true given i) = true ↔ Due options given i := by
  have number : (BitVec.ofNat 32 i).toInt = i := by
    rw [BitVec.toInt_eq_toNat_of_lt]
    · rw [BitVec.toNat_ofNat, Nat.mod_eq_of_lt (by omega)]
    · rw [BitVec.toNat_ofNat, Nat.mod_eq_of_lt (by omega)]
      omega
  rw [wantsNetns, Bool.or_eq_true, Bool.and_eq_true, decide_eq_true_iff, decide_eq_true_iff, number,
    ← Int.dvd_iff_tmod_eq_zero, Due]
  cases i with
  | zero => simp [forced]
  | succ before => simp [forced, Option.any_eq_true]

/-- A turn moves to a new namespace once if it is due, and not at all otherwise, for as long as the
number of the turn is one that `run_no` can hold. -/
theorem main_renewing {options : Options} {on welcomeTaken : Bool} {childPid : U32}
    {buf : Nat → Byte} {given : List Answers} {i : Nat} {events : List Event} (few : i < 2 ^ 31)
    (inTurn : (main options on welcomeTaken childPid buf given).turns[i]? = some events) :
    (events.filterMap renewing ≠ [] → Due options given i) ∧
      (i + 1 < (main options on welcomeTaken childPid buf given).turns.length ∨
          (main options on welcomeTaken childPid buf given).ending ≠ .fatal →
        Due options given i → ∃ room, events.filterMap renewing = [room]) := by
  rw [main] at inTurn ⊢
  split at inTurn
  · cases inTurn
  · rename_i welcomed
    rw [if_neg welcomed]
    obtain ⟨before, answers, rfl, same, goes⟩ := loop_turn inTurn
    have follows := follows_renewing_turn options on childPid (0 + BitVec.ofNat 32 i) before
      answers
    have wanted := wantsNetns_iff options given few
    have start : 0 + BitVec.ofNat 32 i = BitVec.ofNat 32 i := BitVec.zero_add _
    rw [same, start] at follows
    rw [start] at goes ⊢
    refine ⟨fun some => ?_, fun whole due => ?_⟩
    · by_contra notDue
      rw [renewal, if_neg (mt wanted.mp notDue)] at follows
      exact some (List.prefix_nil.mp follows.part)
    · rw [renewal, if_pos (wanted.mpr due)] at follows
      exact ⟨_, follows.whole (goes whole)⟩

end

/-- A turn in which all goes well. -/
def quiet : Answers where
  control := some 0
  pidTaken := true
  input := some [4, 0, 0, 0, 1, 7]
  unshared := .ok
  kcovEnable := true
  socket := some 3
  bind := true
  sendmsg := true
  kcovDisable := true
  trace := []
  area := fun _ => 0
  kmsg := []
  statusTaken := true

def complaining : Answers := { quiet with kmsg := ["RIP:".toList.map (BitVec.ofNat 8 ·.toNat)] }

def quietRun : Run := main ⟨0, 0, 0, false⟩ true true 1234 (fun _ => 0) [complaining, quiet, quiet]

/-- Without `--netns` the turn behind the complaint moves to a new namespace, the next one does not. -/
theorem main_renewing_complaining :
    (∃ room, (quietRun.turns.getD 1 []).filterMap renewing = [room]) ∧
      (quietRun.turns.getD 2 []).filterMap renewing = [] := by
  have second : quietRun.turns[1]? = some (quietRun.turns.getD 1 []) := rfl
  have third : quietRun.turns[2]? = some (quietRun.turns.getD 2 []) := rfl
  have undue : ¬ Due ⟨0, 0, 0, false⟩ [complaining, quiet, quiet] 2 := by
    rw [← wantsNetns_iff _ _ (by decide)]
    decide
  refine ⟨(main_renewing (by decide) second).2 (.inl (by decide)) ?_, ?_⟩
  · exact .inr (.inr ⟨0, complaining, rfl, rfl, by decide⟩)
  · by_contra some
    exact undue ((main_renewing (by decide) third).1 some)

end CloudflareBlog.KernelFuzzing

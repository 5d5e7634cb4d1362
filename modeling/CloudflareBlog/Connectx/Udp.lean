import Mathlib.Logic.Function.Basic
import Mathlib.Logic.Relation

/-!
# `_connectx_udp`

Sockets that share a local address take turns at it with `SO_REUSEADDR` as a lock: a socket clears
its flag after `bind`, so no other can bind to the address until it sets the flag again.  But several
sockets may have bound before the first of them clears its flag, and then all of them are inside.
Which of them may connect is decided by a lookup: the kernel answers with a socket that is connected
to the remote address already, or else with the latest unconnected one on the local address.

The lookup is a request and a reply on a netlink socket, and the threads of a process share that
socket, the global `nl`.  Nothing in a reply is compared with the request, so a thread takes whatever
waits there first.

`Step` is one system call of one socket, or a look at a variable.  Sockets stand for their cookies, so
an answer is a socket or nothing.  As long as no socket takes the reply to another's request for its
own (`Owns`), no two connect the same pair of addresses (`four_tuples_distinct`): a socket whose
request was answered with itself is the latest unconnected one on its address (`Top`), nothing but
its own `connect` can change that while it holds the lock, and there is only one such socket.  Three
threads of one process are enough for two such connections otherwise (`four_tuples_shared`).
-/

namespace CloudflareBlog.Connectx

variable {Socket Address Process : Type*} [DecidableEq Socket] [DecidableEq Address]

/-! ## The program -/

/-- The netlink sockets that a process opens, in turn. -/
structure Netlink (Process : Type*) where
  process : Process
  number : Nat
  deriving DecidableEq

/-- Where a socket is in `_connectx_udp`, and in `_netlink_udp_lookup` for it. -/
inductive Pc (Socket Process : Type*) where
  /-- `getsockopt(SO_COOKIE)`. -/
  | getCookie
  /-- `setsockopt(SO_REUSEADDR, 1)`. -/
  | setReuse
  | bind
  /-- `setsockopt(SO_REUSEADDR, 0)`. -/
  | lock
  /-- `if nl == None`. -/
  | checkNl
  /-- `nl = socket.socket(...)`. -/
  | openNl
  /-- `nl.connect((0, 0))`. -/
  | connectNl
  /-- The look at `nl` in `nl.send(...)`. -/
  | send
  /-- The call of `send` on the netlink socket that `nl` was. -/
  | sending (n : Netlink Process)
  /-- The look at `nl` in `nl.recv(4096)`. -/
  | recv
  /-- The call of `recv` on the netlink socket that `nl` was. -/
  | receiving (n : Netlink Process)
  /-- `if c != cookie`. -/
  | check (c : Option Socket)
  /-- `connect(AF_UNSPEC)`. -/
  | dissolve
  /-- `setsockopt(SO_REUSEADDR, 1)` on the way to the exception. -/
  | unlockFailed
  | connect
  /-- `setsockopt(SO_REUSEADDR, 1)` on the way to `return True`. -/
  | unlock
  | returned
  /-- The exception of `bind`. -/
  | bindRaised
  /-- `OSError(EADDRINUSE)`. -/
  | raised
  deriving DecidableEq

/-- An answer of the kernel. -/
structure Reply (Socket : Type*) where
  /-- The socket whose lookup it answers, which the program does not look at. -/
  asker : Socket
  cookie : Option Socket

/-- The sockets, the processes and what the kernel knows of them. -/
structure State (Socket Process : Type*) where
  pc : Socket → Pc Socket Process
  /-- `SO_REUSEADDR`. -/
  reuse : Socket → Bool
  /-- The sockets that are bound, the latest first. -/
  bound : List Socket
  connected : Socket → Bool
  /-- The global variable of a process. -/
  nl : Process → Option (Netlink Process)
  /-- How many netlink sockets a process has opened. -/
  opened : Process → Nat
  /-- What waits on a netlink socket, the oldest first. -/
  replies : Netlink Process → List (Reply Socket)

namespace State

variable (state : State Socket Process) (s : Socket)

def goto (pc : Pc Socket Process) : State Socket Process :=
  { state with pc := Function.update state.pc s pc }

def setReuse (value : Bool) : State Socket Process :=
  { state with reuse := Function.update state.reuse s value }

def setConnected (value : Bool) : State Socket Process :=
  { state with connected := Function.update state.connected s value }

def addBound : State Socket Process := { state with bound := s :: state.bound }

def openNl [DecidableEq Process] (p : Process) : State Socket Process :=
  { state with
    nl := Function.update state.nl p (some ⟨p, state.opened p⟩)
    opened := Function.update state.opened p (state.opened p + 1) }

def setReplies [DecidableEq Process] (n : Netlink Process) (replies : List (Reply Socket)) :
    State Socket Process :=
  { state with replies := Function.update state.replies n replies }

variable {state s} {t : Socket} {pc : Pc Socket Process} {value : Bool}

@[simp] theorem goto_pc_self : (state.goto s pc).pc s = pc := Function.update_self ..

@[simp] theorem goto_reuse : (state.goto s pc).reuse = state.reuse := rfl

@[simp] theorem goto_bound : (state.goto s pc).bound = state.bound := rfl

@[simp] theorem goto_connected : (state.goto s pc).connected = state.connected := rfl

@[simp] theorem setReuse_self : (state.setReuse s value).reuse s = value :=
  Function.update_self ..

@[simp] theorem setReuse_bound : (state.setReuse s value).bound = state.bound := rfl

@[simp] theorem setReuse_connected : (state.setReuse s value).connected = state.connected := rfl

@[simp] theorem setConnected_self : (state.setConnected s value).connected s = value :=
  Function.update_self ..

@[simp] theorem setConnected_reuse : (state.setConnected s value).reuse = state.reuse := rfl

@[simp] theorem setConnected_bound : (state.setConnected s value).bound = state.bound := rfl

omit [DecidableEq Socket] in
@[simp] theorem addBound_bound : (state.addBound s).bound = s :: state.bound := rfl

omit [DecidableEq Socket] in
@[simp] theorem addBound_reuse : (state.addBound s).reuse = state.reuse := rfl

omit [DecidableEq Socket] in
@[simp] theorem addBound_connected : (state.addBound s).connected = state.connected := rfl

section Netlink

variable [DecidableEq Process] {p : Process} {n m : Netlink Process} {reply new : Reply Socket}
  {rest : List (Reply Socket)}

omit [DecidableEq Socket] in
@[simp] theorem openNl_bound : (state.openNl p).bound = state.bound := rfl

omit [DecidableEq Socket] in
@[simp] theorem openNl_reuse : (state.openNl p).reuse = state.reuse := rfl

omit [DecidableEq Socket] in
@[simp] theorem openNl_connected : (state.openNl p).connected = state.connected := rfl

omit [DecidableEq Socket] in
@[simp] theorem setReplies_bound : (state.setReplies n rest).bound = state.bound := rfl

omit [DecidableEq Socket] in
@[simp] theorem setReplies_reuse : (state.setReplies n rest).reuse = state.reuse := rfl

omit [DecidableEq Socket] in
@[simp] theorem setReplies_connected : (state.setReplies n rest).connected = state.connected := rfl

omit [DecidableEq Socket] in
theorem mem_setReplies_append :
    reply ∈ (state.setReplies n (state.replies n ++ [new])).replies m ↔
      reply ∈ state.replies m ∨ m = n ∧ reply = new := by
  by_cases same : m = n
  · subst same
    simp [setReplies]
  · simp [setReplies, same]

omit [DecidableEq Socket] in
theorem mem_of_mem_rest (oldest : state.replies n = new :: rest)
    (waits : reply ∈ (state.setReplies n rest).replies m) : reply ∈ state.replies m := by
  by_cases same : m = n
  · subst same
    rw [oldest]
    exact List.mem_cons_of_mem _ (by simpa [setReplies] using waits)
  · simpa [setReplies, same] using waits

end Netlink

end State

section

variable [DecidableEq Process] (localAddr remoteAddr : Socket → Address)
  (process : Socket → Process)

/-- `bind` succeeds: every other socket bound to the address has `SO_REUSEADDR`. -/
def BindAllowed (state : State Socket Process) (s : Socket) : Prop :=
  ∀ t ∈ state.bound, t ≠ s → localAddr t = localAddr s → state.reuse t = true

/-- A socket that is connected on the pair of addresses. -/
def ConnectedOn (state : State Socket Process) (here there : Address) (t : Socket) : Prop :=
  state.connected t = true ∧ localAddr t = here ∧ remoteAddr t = there

/-- The latest unconnected socket on an address. -/
def latestUnconnected (state : State Socket Process) (here : Address) : Option Socket :=
  state.bound.find? fun t => localAddr t = here && !state.connected t

/-- The netlink lookup for a pair of addresses answers `c`. -/
def Finds (state : State Socket Process) (here there : Address) (c : Option Socket) : Prop :=
  (∃ t, c = some t ∧ ConnectedOn localAddr remoteAddr state here there t) ∨
    (¬ ∃ t, ConnectedOn localAddr remoteAddr state here there t) ∧
      c = latestUnconnected localAddr state here

/-- One system call of the socket `s`, or its look at a variable or the answer.  The kernel answers a
request before `send` returns. -/
inductive Step (s : Socket) (state : State Socket Process) : State Socket Process → Prop
  | getCookie (here : state.pc s = .getCookie) : Step s state (state.goto s .setReuse)
  | setReuse (here : state.pc s = .setReuse) :
      Step s state ((state.setReuse s true).goto s .bind)
  | bind (here : state.pc s = .bind) (allowed : BindAllowed localAddr state s) :
      Step s state ((state.addBound s).goto s .lock)
  | bindFails (here : state.pc s = .bind) (refused : ¬ BindAllowed localAddr state s) :
      Step s state (state.goto s .bindRaised)
  | lock (here : state.pc s = .lock) : Step s state ((state.setReuse s false).goto s .checkNl)
  | noNl (here : state.pc s = .checkNl) (none : state.nl (process s) = none) :
      Step s state (state.goto s .openNl)
  | hasNl {n : Netlink Process} (here : state.pc s = .checkNl)
      (some : state.nl (process s) = some n) : Step s state (state.goto s .send)
  | openNl (here : state.pc s = .openNl) :
      Step s state ((state.openNl (process s)).goto s .connectNl)
  | connectNl (here : state.pc s = .connectNl) : Step s state (state.goto s .send)
  | send {n : Netlink Process} (here : state.pc s = .send)
      (is : state.nl (process s) = some n) : Step s state (state.goto s (.sending n))
  | sending {n : Netlink Process} {c : Option Socket} (here : state.pc s = .sending n)
      (answer : Finds localAddr remoteAddr state (localAddr s) (remoteAddr s) c) :
      Step s state ((state.setReplies n (state.replies n ++ [⟨s, c⟩])).goto s .recv)
  | recv {n : Netlink Process} (here : state.pc s = .recv)
      (is : state.nl (process s) = some n) : Step s state (state.goto s (.receiving n))
  | receiving {n : Netlink Process} {reply : Reply Socket} {rest : List (Reply Socket)}
      (here : state.pc s = .receiving n) (oldest : state.replies n = reply :: rest) :
      Step s state ((state.setReplies n rest).goto s (.check reply.cookie))
  | checkPasses (here : state.pc s = .check (some s)) : Step s state (state.goto s .connect)
  | checkFails {c : Option Socket} (here : state.pc s = .check c) (other : c ≠ some s) :
      Step s state (state.goto s .dissolve)
  | dissolve (here : state.pc s = .dissolve) :
      Step s state ((state.setConnected s false).goto s .unlockFailed)
  | unlockFailed (here : state.pc s = .unlockFailed) :
      Step s state ((state.setReuse s true).goto s .raised)
  | connect (here : state.pc s = .connect) :
      Step s state ((state.setConnected s true).goto s .unlock)
  | unlock (here : state.pc s = .unlock) :
      Step s state ((state.setReuse s true).goto s .returned)

/-- A step of some socket. -/
def AnyStep (state next : State Socket Process) : Prop :=
  ∃ s, Step localAddr remoteAddr process s state next

/-- The reply that `s` would receive is the one to its own request, if it names `s`. -/
def Owns (state : State Socket Process) (s : Socket) : Prop :=
  ∀ n reply rest, state.pc s = .receiving n → state.replies n = reply :: rest →
    reply.cookie = some s → reply.asker = s

/-- A step of some socket that does not take the reply to another for its own. -/
def OwnStep (state next : State Socket Process) : Prop :=
  ∃ s, Step localAddr remoteAddr process s state next ∧ Owns state s

end

/-- Before any socket has begun. -/
structure Initial (state : State Socket Process) : Prop where
  pc : ∀ s, state.pc s = .getCookie
  bound : state.bound = []
  connected : ∀ s, state.connected s = false
  nl : ∀ p, state.nl p = none
  replies : ∀ n, state.replies n = []

/-! ## The invariant -/

namespace Pc

variable (pc : Pc Socket Process)

/-- `bind` has succeeded. -/
def pastBind : Pc Socket Process → Bool
  | getCookie | setReuse | bind | bindRaised => false
  | lock | checkNl | openNl | connectNl | send | sending _ | recv | receiving _ | check _ | dissolve
    | unlockFailed | connect | unlock | returned | raised => true

/-- `SO_REUSEADDR` is cleared. -/
def locked : Pc Socket Process → Bool
  | checkNl | openNl | connectNl | send | sending _ | recv | receiving _ | check _ | dissolve
    | unlockFailed | connect | unlock => true
  | getCookie | setReuse | bind | lock | returned | bindRaised | raised => false

/-- The request has been sent. -/
def pastSend : Pc Socket Process → Bool
  | recv | receiving _ | check _ | dissolve | unlockFailed | connect | unlock | returned
    | raised => true
  | getCookie | setReuse | bind | lock | checkNl | openNl | connectNl | send | sending _
    | bindRaised => false

/-- The request has been sent, and no reply received. -/
def awaits : Pc Socket Process → Bool
  | recv | receiving _ => true
  | getCookie | setReuse | bind | lock | checkNl | openNl | connectNl | send | sending _ | check _
    | dissolve | unlockFailed | connect | unlock | returned | bindRaised | raised => false

/-- `connect` has been called. -/
def pastConnect : Pc Socket Process → Bool
  | unlock | returned => true
  | getCookie | setReuse | bind | lock | checkNl | openNl | connectNl | send | sending _ | recv
    | receiving _ | check _ | dissolve | unlockFailed | connect | bindRaised | raised => false

/-- The reply named the socket itself, and it has not connected yet. -/
def winning (s : Socket) : Pc Socket Process → Bool
  | check c => c = some s
  | connect => true
  | getCookie | setReuse | bind | lock | checkNl | openNl | connectNl | send | sending _ | recv
    | receiving _ | dissolve | unlockFailed | unlock | returned | bindRaised | raised => false

theorem locked_of_winning {s : Socket} {pc : Pc Socket Process} (wins : pc.winning s = true) :
    pc.locked = true := by
  cases pc with
  | check c => rfl
  | connect => rfl
  | _ => cases wins

omit [DecidableEq Socket] in
theorem locked_of_awaits {pc : Pc Socket Process} (awaits : pc.awaits = true) :
    pc.locked = true := by
  cases pc with
  | recv | receiving n => rfl
  | _ => cases awaits

omit [DecidableEq Socket] in
theorem pastBind_of_locked {pc : Pc Socket Process} (locks : pc.locked = true) :
    pc.pastBind = true := by
  cases pc with
  | getCookie | setReuse | bind | lock | returned | bindRaised | raised => cases locks
  | _ => rfl

end Pc

/-- The reply that names `s` is its own, and it has not connected yet. -/
def Wins (state : State Socket Process) (s : Socket) : Prop :=
  (state.pc s).winning s = true ∨
    (state.pc s).awaits = true ∧
      ∃ n, ∃ reply ∈ state.replies n, reply.asker = s ∧ reply.cookie = some s

theorem Wins.locked {state : State Socket Process} {s : Socket} (wins : Wins state s) :
    (state.pc s).locked = true := by
  obtain winning | ⟨awaits, -⟩ := wins
  · exact Pc.locked_of_winning winning
  · exact Pc.locked_of_awaits awaits

variable (localAddr remoteAddr : Socket → Address)

/-- No socket is connected on the addresses of `s`, and `s` is the latest unconnected socket on its
local address. -/
structure Top (state : State Socket Process) (s : Socket) : Prop where
  free : ¬ ∃ t, ConnectedOn localAddr remoteAddr state (localAddr s) (remoteAddr s) t
  latest : latestUnconnected localAddr state (localAddr s) = some s

structure Invariant (state : State Socket Process) : Prop where
  bound : ∀ s, (state.pc s).pastBind = true → s ∈ state.bound
  locked : ∀ s, (state.pc s).locked = true → state.reuse s = false
  connected : ∀ s, state.connected s = (state.pc s).pastConnect
  asked : ∀ n, ∀ reply ∈ state.replies n, (state.pc reply.asker).pastSend = true
  top : ∀ s, Wins state s → Top localAddr remoteAddr state s
  unique : ∀ s t, state.connected s = true → state.connected t = true →
    localAddr s = localAddr t → remoteAddr s = remoteAddr t → s = t

variable {localAddr remoteAddr} {state next : State Socket Process} {s t : Socket}

omit [DecidableEq Socket] in
theorem Top.unique (first : Top localAddr remoteAddr state s)
    (second : Top localAddr remoteAddr state t) (same : localAddr s = localAddr t) : s = t := by
  have latest := first.latest
  rw [same, second.latest] at latest
  exact (Option.some.inj latest).symm

omit [DecidableEq Socket] in
theorem Top.of_same (top : Top localAddr remoteAddr state s) (bound : next.bound = state.bound)
    (connected : next.connected = state.connected) : Top localAddr remoteAddr next s := by
  obtain ⟨free, latest⟩ := top
  constructor
  · rintro ⟨t, isConnected, addresses⟩
    exact free ⟨t, connected ▸ isConnected, addresses⟩
  · rw [latestUnconnected, bound, connected]
    exact latest

variable (localAddr remoteAddr s state next) in
/-- What a step of `s` may do without harm to the others: bind when that is allowed, become connected
when it is on top, and ask for itself. -/
structure Effect : Prop where
  others : ∀ t ≠ s, next.pc t = state.pc t ∧ next.reuse t = state.reuse t ∧
    next.connected t = state.connected t
  grows : next.bound = state.bound ∨
    next.bound = s :: state.bound ∧ BindAllowed localAddr state s
  joins : next.connected s = state.connected s ∨
    next.connected s = true ∧ Top localAddr remoteAddr state s
  stays : (state.pc s).pastSend = true → (next.pc s).pastSend = true
  asks : ∀ n, ∀ reply ∈ next.replies n,
    reply ∈ state.replies n ∨ reply.asker = s ∧ (next.pc s).pastSend = true

/-- The replies to the others are as they were. -/
theorem Effect.wins_before (effect : Effect localAddr remoteAddr state next s) (away : t ≠ s)
    (wins : Wins next t) : Wins state t := by
  rw [Wins, (effect.others t away).1] at wins
  obtain winning | ⟨awaits, n, reply, waits, own, names⟩ := wins
  · exact .inl winning
  · have before := (effect.asks n reply waits).resolve_right fun new => away (own.symm.trans new.1)
    exact .inr ⟨awaits, n, reply, before, own, names⟩

/-- The lock of `t` keeps others on its address from binding, and `s` cannot be on top as well. -/
theorem Effect.top_beside (effect : Effect localAddr remoteAddr state next s)
    (invariant : Invariant localAddr remoteAddr state) (away : t ≠ s)
    (sameAddr : localAddr s = localAddr t) (wins : Wins state t) :
    Top localAddr remoteAddr next t := by
  have top := invariant.top t wins
  have unchanged : next.bound = state.bound := by
    obtain same | ⟨-, allowed⟩ := effect.grows
    · exact same
    · have locks := wins.locked
      have reuses := allowed t (invariant.bound t (Pc.pastBind_of_locked locks)) away sameAddr.symm
      rw [invariant.locked t locks] at reuses
      cases reuses
  have connected : next.connected = state.connected := by
    funext u
    by_cases mover : u = s
    · subst mover
      obtain same | ⟨-, topMover⟩ := effect.joins
      · exact same
      · exact absurd (topMover.unique top sameAddr).symm away
    · exact (effect.others u mover).2.2
  exact top.of_same unchanged connected

/-- What `s` does on another address is not seen from that of `t`. -/
theorem Effect.top_apart (effect : Effect localAddr remoteAddr state next s)
    (top : Top localAddr remoteAddr state t) (otherAddr : localAddr s ≠ localAddr t) :
    Top localAddr remoteAddr next t := by
  have unseen : (fun u => localAddr u = localAddr t && !next.connected u) =
      fun u => localAddr u = localAddr t && !state.connected u := by
    funext u
    by_cases mover : u = s
    · subst mover
      simp [otherAddr]
    · rw [(effect.others u mover).2.2]
  constructor
  · rintro ⟨u, isConnected, onLocal, onRemote⟩
    have mover : u ≠ s := by
      rintro rfl
      exact otherAddr onLocal
    exact top.free ⟨u, (effect.others u mover).2.2 ▸ isConnected, onLocal, onRemote⟩
  · have latest := top.latest
    rw [latestUnconnected] at latest ⊢
    rw [unseen]
    obtain same | ⟨longer, -⟩ := effect.grows
    · rw [same]
      exact latest
    · rw [longer, List.find?_cons_of_neg (by simp [otherAddr])]
      exact latest

/-- A socket that joins is on top, so no other is connected on its addresses. -/
theorem Effect.alone (effect : Effect localAddr remoteAddr state next s)
    (invariant : Invariant localAddr remoteAddr state) (away : t ≠ s)
    (isConnected : next.connected t = true) (moverConnected : next.connected s = true)
    (sameLocal : localAddr s = localAddr t) : remoteAddr s ≠ remoteAddr t := by
  intro sameRemote
  have earlier : state.connected t = true := (effect.others t away).2.2 ▸ isConnected
  obtain same | ⟨-, top⟩ := effect.joins
  · rw [same] at moverConnected
    exact away (invariant.unique s t moverConnected earlier sameLocal sameRemote).symm
  · exact top.free ⟨t, earlier, sameLocal.symm, sameRemote.symm⟩

/-- After such a step the invariant holds if it does of what `s` itself has. -/
theorem Invariant.of_effect (invariant : Invariant localAddr remoteAddr state)
    (effect : Effect localAddr remoteAddr state next s)
    (boundHere : (next.pc s).pastBind = true → s ∈ next.bound)
    (lockedHere : (next.pc s).locked = true → next.reuse s = false)
    (connectedHere : next.connected s = (next.pc s).pastConnect)
    (topHere : Wins next s → Top localAddr remoteAddr next s) :
    Invariant localAddr remoteAddr next := by
  have others := effect.others
  constructor
  · intro t past
    by_cases here : t = s
    · subst here
      exact boundHere past
    · rw [(others t here).1] at past
      have before := invariant.bound t past
      obtain same | ⟨longer, -⟩ := effect.grows
      · rw [same]
        exact before
      · rw [longer]
        exact List.mem_cons_of_mem _ before
  · intro t locks
    by_cases here : t = s
    · subst here
      exact lockedHere locks
    · rw [(others t here).1] at locks
      rw [(others t here).2.1]
      exact invariant.locked t locks
  · intro t
    by_cases here : t = s
    · subst here
      exact connectedHere
    · rw [(others t here).1, (others t here).2.2]
      exact invariant.connected t
  · intro n reply waits
    obtain before | ⟨rfl, past⟩ := effect.asks n reply waits
    · have past := invariant.asked n reply before
      by_cases here : reply.asker = s
      · rw [here] at past ⊢
        exact effect.stays past
      · rw [(others _ here).1]
        exact past
    · exact past
  · intro t wins
    by_cases here : t = s
    · subst here
      exact topHere wins
    · have wins := effect.wins_before here wins
      by_cases sameAddr : localAddr s = localAddr t
      · exact effect.top_beside invariant here sameAddr wins
      · exact effect.top_apart (invariant.top t wins) sameAddr
  · intro t u connectedT connectedU sameLocal sameRemote
    by_cases first : t = s
    · subst first
      by_cases second : u = t
      · exact second.symm
      · exact absurd sameRemote (effect.alone invariant second connectedU connectedT sameLocal)
    · by_cases second : u = s
      · subst second
        exact absurd sameRemote.symm
          (effect.alone invariant first connectedT connectedU sameLocal.symm)
      · exact invariant.unique t u ((others t first).2.2 ▸ connectedT)
          ((others u second).2.2 ▸ connectedU) sameLocal sameRemote

/-- Between taking the lock and connecting a socket goes on as it is, and only who is on top has to be
seen. -/
theorem Invariant.of_inside (invariant : Invariant localAddr remoteAddr state)
    (effect : Effect localAddr remoteAddr state next s) (locks : (state.pc s).locked = true)
    (bound : next.bound = state.bound) (reuse : next.reuse = state.reuse)
    (connected : next.connected = state.connected)
    (past : (next.pc s).pastConnect = (state.pc s).pastConnect)
    (topHere : Wins next s → Top localAddr remoteAddr state s) :
    Invariant localAddr remoteAddr next := by
  refine invariant.of_effect effect (fun _ => ?_) (fun _ => ?_) ?_ fun wins => ?_
  · rw [bound]
    exact invariant.bound s (Pc.pastBind_of_locked locks)
  · rw [reuse]
    exact invariant.locked s locks
  · rw [connected, past]
    exact invariant.connected s
  · exact (topHere wins).of_same bound connected

theorem Initial.invariant (initial : Initial state) : Invariant localAddr remoteAddr state := by
  constructor
  · intro s past
    rw [initial.pc s] at past
    cases past
  · intro s locks
    rw [initial.pc s] at locks
    cases locks
  · intro s
    rw [initial.pc s, initial.connected s]
    rfl
  · intro n reply waits
    rw [initial.replies n] at waits
    cases waits
  · intro s wins
    have locks := wins.locked
    rw [initial.pc s] at locks
    cases locks
  · intro s t connected
    rw [initial.connected s] at connected
    cases connected

omit [DecidableEq Socket] in
/-- The lookup of an unconnected socket that is answered with the socket itself says that it is on
top. -/
theorem top_of_finds (unconnected : state.connected s = false)
    (answer : Finds localAddr remoteAddr state (localAddr s) (remoteAddr s) (some s)) :
    Top localAddr remoteAddr state s := by
  obtain ⟨t, same, isConnected, -⟩ | ⟨free, latest⟩ := answer
  · obtain rfl := Option.some.inj same
    rw [unconnected] at isConnected
    cases isConnected
  · exact ⟨free, latest.symm⟩

section Step

variable [DecidableEq Process] {process : Socket → Process}

theorem Step.others (step : Step localAddr remoteAddr process s state next) {t : Socket}
    (away : t ≠ s) :
    next.pc t = state.pc t ∧ next.reuse t = state.reuse t ∧
      next.connected t = state.connected t := by
  cases step <;> simp [State.goto, State.setReuse, State.setConnected, State.addBound,
    State.openNl, State.setReplies, away]

theorem Step.stays (step : Step localAddr remoteAddr process s state next)
    (past : (state.pc s).pastSend = true) : (next.pc s).pastSend = true := by
  cases step with
  | getCookie here | setReuse here | bind here _ | bindFails here _ | lock here | noNl here _
  | hasNl here _ | openNl here | connectNl here | send here _ | sending here _ =>
    rw [here] at past
    cases past
  | _ => simp [Pc.pastSend]

theorem Step.asks (step : Step localAddr remoteAddr process s state next) (m : Netlink Process)
    (reply : Reply Socket) (waits : reply ∈ next.replies m) :
    reply ∈ state.replies m ∨ reply.asker = s ∧ (next.pc s).pastSend = true := by
  cases step with
  | sending here answer =>
    obtain before | ⟨-, rfl⟩ := State.mem_setReplies_append.mp waits
    · exact .inl before
    · exact .inr ⟨rfl, by simp [Pc.pastSend]⟩
  | receiving here oldest => exact .inl (State.mem_of_mem_rest oldest waits)
  | _ => exact .inl waits

theorem Step.invariant (step : Step localAddr remoteAddr process s state next)
    (owns : Owns state s) (invariant : Invariant localAddr remoteAddr state) :
    Invariant localAddr remoteAddr next := by
  have others := fun t away => step.others (t := t) away
  have stays := step.stays
  have asks := step.asks
  have boundHere := invariant.bound s
  have lockedHere := invariant.locked s
  have connectedHere := invariant.connected s
  have topHere := invariant.top s
  -- no step touches another socket, so each case is about what `s` itself has afterwards
  cases step with
  | getCookie here | setReuse here | bindFails here _ =>
    rw [here] at connectedHere
    refine invariant.of_effect ⟨others, .inl rfl, .inl rfl, stays, asks⟩ ?_ ?_ ?_ ?_
    · simp [Pc.pastBind]
    · simp [Pc.locked]
    · simpa [Pc.pastConnect] using connectedHere
    · simp [Wins, Pc.winning, Pc.awaits]
  | bind here allowed =>
    rw [here] at connectedHere
    refine invariant.of_effect ⟨others, .inr ⟨rfl, allowed⟩, .inl rfl, stays, asks⟩ ?_ ?_ ?_ ?_
    · simp
    · simp [Pc.locked]
    · simpa [Pc.pastConnect] using connectedHere
    · simp [Wins, Pc.winning, Pc.awaits]
  | lock here | unlockFailed here | unlock here =>
    rw [here] at boundHere connectedHere
    refine invariant.of_effect ⟨others, .inl rfl, .inl rfl, stays, asks⟩ ?_ ?_ ?_ ?_
    · simpa [Pc.pastBind] using boundHere
    · simp [Pc.locked]
    · simpa [Pc.pastConnect] using connectedHere
    · simp [Wins, Pc.winning, Pc.awaits]
  | noNl here _ | hasNl here _ | openNl here | connectNl here | send here _ | checkFails here _ =>
    refine invariant.of_inside ⟨others, .inl rfl, .inl rfl, stays, asks⟩ (by rw [here]; rfl)
      rfl rfl rfl (by simp [here, Pc.pastConnect]) ?_
    simp [Wins, Pc.winning, Pc.awaits]
  | @sending n c here answer =>
    rw [here] at connectedHere
    refine invariant.of_inside ⟨others, .inl rfl, .inl rfl, stays, asks⟩ (by rw [here]; rfl)
      rfl rfl rfl (by simp [here, Pc.pastConnect]) ?_
    rintro (winning | ⟨-, m, reply, waits, own, names⟩)
    · simp [Pc.winning] at winning
    · obtain before | ⟨-, rfl⟩ := State.mem_setReplies_append.mp waits
      · -- no earlier request of `s` is waiting for its reply
        have past := invariant.asked m reply before
        rw [own, here] at past
        cases past
      · -- the kernel names `s` only if nobody is connected and `s` was bound last
        obtain rfl : c = some s := names
        exact top_of_finds connectedHere answer
  | recv here _ =>
    refine invariant.of_inside ⟨others, .inl rfl, .inl rfl, stays, asks⟩ (by rw [here]; rfl)
      rfl rfl rfl (by simp [here, Pc.pastConnect]) ?_
    rintro (winning | ⟨-, waiting⟩)
    · simp [Pc.winning] at winning
    · exact topHere (.inr ⟨by rw [here]; rfl, waiting⟩)
  | @receiving n reply rest here oldest =>
    refine invariant.of_inside ⟨others, .inl rfl, .inl rfl, stays, asks⟩ (by rw [here]; rfl)
      rfl rfl rfl (by simp [here, Pc.pastConnect]) ?_
    rintro (winning | ⟨awaits, -⟩)
    · -- a reply that names `s` is its own, and it has been on top since that was sent
      have names : reply.cookie = some s := by simpa [Pc.winning] using winning
      have own := owns n reply rest here oldest names
      have waits : reply ∈ state.replies n := by simp [oldest]
      exact topHere (.inr ⟨by rw [here]; rfl, n, reply, waits, own, names⟩)
    · simp [Pc.awaits] at awaits
  | checkPasses here =>
    refine invariant.of_inside ⟨others, .inl rfl, .inl rfl, stays, asks⟩ (by rw [here]; rfl)
      rfl rfl rfl (by simp [here, Pc.pastConnect]) fun _ => ?_
    exact topHere (.inl (by simp [here, Pc.winning]))
  | dissolve here =>
    rw [here] at boundHere lockedHere connectedHere
    refine invariant.of_effect ⟨others, .inl rfl, .inl ?_, stays, asks⟩ ?_ ?_ ?_ ?_
    · simpa [Pc.pastConnect] using connectedHere.symm
    · simpa [Pc.pastBind] using boundHere
    · simpa [Pc.locked] using lockedHere
    · simp [Pc.pastConnect]
    · simp [Wins, Pc.winning, Pc.awaits]
  | connect here =>
    rw [here] at boundHere lockedHere
    -- the check has passed and the lock is held, so `s` is still the one on top
    have top := topHere (.inl (by rw [here]; rfl))
    refine invariant.of_effect ⟨others, .inl rfl, .inr ⟨?_, top⟩, stays, asks⟩ ?_ ?_ ?_ ?_
    · simp
    · simpa [Pc.pastBind] using boundHere
    · simpa [Pc.locked] using lockedHere
    · simp [Pc.pastConnect]
    · simp [Wins, Pc.winning, Pc.awaits]

theorem Step.own (step : Step localAddr remoteAddr process s state next)
    (elsewhere : ∀ n, state.pc s ≠ .receiving n) :
    OwnStep localAddr remoteAddr process state next :=
  ⟨s, step, fun n _ _ here => absurd here (elsewhere n)⟩

/-! ## Runs -/

theorem reachable_invariant {start : State Socket Process} (initial : Initial start)
    (run : Relation.ReflTransGen (OwnStep localAddr remoteAddr process) start state) :
    Invariant localAddr remoteAddr state := by
  induction run with
  | refl => exact initial.invariant
  | tail _ step inductionHypothesis =>
    obtain ⟨s, step, owns⟩ := step
    exact step.invariant owns inductionHypothesis

end Step

/-- In whatever order the system calls come, no two sockets are connected on the same pair of
addresses, if none takes the reply to another for its own. -/
theorem four_tuples_distinct [DecidableEq Process] (localAddr remoteAddr : Socket → Address)
    (process : Socket → Process) (start state : State Socket Process) (initial : Initial start)
    (run : Relation.ReflTransGen (OwnStep localAddr remoteAddr process) start state) :
    ∀ s t, s ≠ t → ¬ (state.connected s = true ∧ state.connected t = true ∧
      localAddr s = localAddr t ∧ remoteAddr s = remoteAddr t) := by
  rintro s t different ⟨connectedS, connectedT, sameLocal, sameRemote⟩
  exact different ((reachable_invariant initial run).unique s t connectedS connectedT sameLocal
    sameRemote)

/-! ## Processes -/

section Processes

variable {process : Socket → Process}

/-- A process has only its own netlink sockets, and only its sockets ask there. -/
structure Private (process : Socket → Process) (state : State Socket Process) : Prop where
  nl : ∀ p n, state.nl p = some n → n.process = p
  calls : ∀ s n, state.pc s = .sending n ∨ state.pc s = .receiving n → n.process = process s
  replies : ∀ n, ∀ reply ∈ state.replies n, process reply.asker = n.process

omit [DecidableEq Socket] in
theorem Initial.isPrivate (initial : Initial state) : Private process state := by
  constructor
  · intro p n is
    rw [initial.nl p] at is
    cases is
  · intro s n call
    rw [initial.pc s] at call
    obtain call | call := call
    · cases call
    · cases call
  · intro n reply waits
    rw [initial.replies n] at waits
    cases waits

variable [DecidableEq Process]

theorem Step.isPrivate (step : Step localAddr remoteAddr process s state next)
    (isPrivate : Private process state) : Private process next := by
  obtain ⟨nl, calls, replies⟩ := isPrivate
  have callsHere := calls s
  refine ⟨?_, fun t n call => ?_, fun m reply waits => ?_⟩
  · cases step with
    | openNl here =>
      intro p n is
      by_cases own : p = process s
      · subst own
        simp only [State.goto, State.openNl, Function.update_self, Option.some.injEq] at is
        rw [← is]
      · exact nl p n (by simpa [State.goto, State.openNl, own] using is)
    | _ => exact nl
  · by_cases mover : t = s
    · subst mover
      cases step with
      | @send m here is =>
        obtain rfl : m = n := by simpa using call
        exact nl _ _ is
      | @recv m here is =>
        obtain rfl : m = n := by simpa using call
        exact nl _ _ is
      | _ => simp at call
    · rw [(step.others mover).1] at call
      exact calls t n call
  · cases step with
    | sending here answer =>
      obtain before | ⟨rfl, rfl⟩ := State.mem_setReplies_append.mp waits
      · exact replies m reply before
      · exact (callsHere _ (.inl here)).symm
    | receiving here oldest => exact replies m reply (State.mem_of_mem_rest oldest waits)
    | _ => exact replies m reply waits

/-- Every reply that waits for a process is one to a socket of its own. -/
theorem reachable_private {start : State Socket Process} (initial : Initial start)
    (run : Relation.ReflTransGen (AnyStep localAddr remoteAddr process) start state) :
    Private process state := by
  induction run with
  | refl => exact initial.isPrivate
  | tail _ step inductionHypothesis =>
    obtain ⟨s, step⟩ := step
    exact step.isPrivate inductionHypothesis

omit [DecidableEq Socket] [DecidableEq Process] in
theorem Private.owns (isPrivate : Private process state) (single : Function.Injective process) :
    Owns state s := by
  intro n reply rest here oldest _
  have waits : reply ∈ state.replies n := by simp [oldest]
  exact single ((isPrivate.replies n reply waits).trans (isPrivate.calls s n (.inr here)))

/-- Where every process has one socket only, no reply is taken for another. -/
theorem own_of_single {start : State Socket Process} (initial : Initial start)
    (single : Function.Injective process)
    (run : Relation.ReflTransGen (AnyStep localAddr remoteAddr process) start state) :
    Relation.ReflTransGen (OwnStep localAddr remoteAddr process) start state := by
  induction run with
  | refl => exact .refl
  | tail earlier step inductionHypothesis =>
    obtain ⟨s, step⟩ := step
    exact inductionHypothesis.tail ⟨s, step, (reachable_private initial earlier).owns single⟩

end Processes

/-! ## Three threads -/

/-- Three sockets of one process that have not begun. -/
def idle : State (Fin 3) Unit :=
  ⟨fun _ => .getCookie, fun _ => false, [], fun _ => false, fun _ => none, fun _ => 0, fun _ => []⟩

theorem initial_idle : Initial idle :=
  ⟨fun _ => rfl, rfl, fun _ => rfl, fun _ => rfl, fun _ => rfl⟩

def oneLocal (_ : Fin 3) : Nat := 0

/-- Sockets `0` and `1` are for one remote address, `2` is for another. -/
def twoRemotes (s : Fin 3) : Nat := if s = 2 then 2 else 1

/-- Both sockets bind before the first locks.  Each receives its own reply, and `1` connects. -/
theorem four_tuples_distinct_two :
    ∃ state, Relation.ReflTransGen (OwnStep oneLocal twoRemotes fun _ => ()) idle state ∧
      state.pc 0 = .dissolve ∧ state.connected 1 = true ∧ state.connected 0 ≠ true := by
  have own {s : Fin 3} {state next : State (Fin 3) Unit}
      (step : Step oneLocal twoRemotes (fun _ => ()) s state next)
      (elsewhere : ∀ n, state.pc s ≠ .receiving n) :
      OwnStep oneLocal twoRemotes (fun _ => ()) state next := step.own elsewhere
  have run : Relation.ReflTransGen (OwnStep oneLocal twoRemotes fun _ => ()) idle _ :=
    Relation.ReflTransGen.refl
      |>.tail (own (s := 0) (.getCookie rfl) (by rintro _ ⟨⟩))
      |>.tail (own (s := 0) (.setReuse rfl) nofun)
      |>.tail (own (s := 0) (.bind rfl (by unfold BindAllowed; decide)) nofun)
      |>.tail (own (s := 1) (.getCookie rfl) (by rintro _ ⟨⟩))
      |>.tail (own (s := 1) (.setReuse rfl) nofun)
      |>.tail (own (s := 1) (.bind rfl (by unfold BindAllowed; decide)) nofun)
      |>.tail (own (s := 1) (.lock rfl) nofun)
      |>.tail (own (s := 0) (.lock rfl) nofun)
      |>.tail (own (s := 1) (.noNl rfl rfl) nofun)
      |>.tail (own (s := 1) (.openNl rfl) nofun)
      |>.tail (own (s := 0) (.hasNl rfl rfl) nofun)
      |>.tail (own (s := 1) (.connectNl rfl) nofun)
      |>.tail (own (s := 1) (.send rfl rfl) nofun)
      |>.tail (own (s := 1) (.sending rfl (.inr ⟨by unfold ConnectedOn; decide, rfl⟩)) nofun)
      |>.tail (own (s := 1) (.recv rfl rfl) nofun)
      |>.tail ⟨1, .receiving rfl rfl, by rintro _ _ _ ⟨⟩ ⟨⟩ _; rfl⟩
      |>.tail (own (s := 1) (.checkPasses rfl) nofun)
      |>.tail (own (s := 1) (.connect rfl) nofun)
      -- the lookup of `0` finds the connection
      |>.tail (own (s := 0) (.send rfl rfl) nofun)
      |>.tail (own (s := 0) (.sending rfl (.inl ⟨1, rfl, rfl, rfl, rfl⟩)) nofun)
      |>.tail (own (s := 0) (.recv rfl rfl) nofun)
      |>.tail ⟨0, .receiving rfl rfl, by rintro _ _ _ ⟨⟩ ⟨⟩ _; rfl⟩
      |>.tail (own (s := 0) (.checkFails rfl (by decide)) nofun)
  refine ⟨_, run, rfl, rfl, fun connected => ?_⟩
  exact four_tuples_distinct _ _ _ idle _ initial_idle run 1 0 (by decide) ⟨rfl, connected, rfl, rfl⟩

/-- All bind before the first locks.  The lookup of socket `2` finds socket `0`, which takes that
reply for its own and connects, though socket `1` is connected on its addresses. -/
theorem four_tuples_shared :
    ¬ ∀ start state, Initial start →
      Relation.ReflTransGen (AnyStep oneLocal twoRemotes fun _ => ()) start state →
        ∀ s t, s ≠ t → ¬ (state.connected s = true ∧ state.connected t = true ∧
          oneLocal s = oneLocal t ∧ twoRemotes s = twoRemotes t) := by
  have run : Relation.ReflTransGen (AnyStep oneLocal twoRemotes fun _ => ()) idle _ :=
    Relation.ReflTransGen.refl
      |>.tail ⟨2, .getCookie rfl⟩ |>.tail ⟨2, .setReuse rfl⟩
      |>.tail ⟨2, .bind rfl (by unfold BindAllowed; decide)⟩
      |>.tail ⟨0, .getCookie rfl⟩ |>.tail ⟨0, .setReuse rfl⟩
      |>.tail ⟨0, .bind rfl (by unfold BindAllowed; decide)⟩
      |>.tail ⟨1, .getCookie rfl⟩ |>.tail ⟨1, .setReuse rfl⟩
      |>.tail ⟨1, .bind rfl (by unfold BindAllowed; decide)⟩
      |>.tail ⟨1, .lock rfl⟩ |>.tail ⟨1, .noNl rfl rfl⟩ |>.tail ⟨1, .openNl rfl⟩
      |>.tail ⟨1, .connectNl rfl⟩ |>.tail ⟨1, .send rfl rfl⟩
      |>.tail ⟨1, .sending rfl (.inr ⟨by unfold ConnectedOn; decide, rfl⟩)⟩
      |>.tail ⟨1, .recv rfl rfl⟩ |>.tail ⟨1, .receiving rfl rfl⟩
      |>.tail ⟨1, .checkPasses rfl⟩ |>.tail ⟨1, .connect rfl⟩
      -- `1` is connected, so `0` is the latest unconnected one for the lookup of `2`
      |>.tail ⟨2, .lock rfl⟩ |>.tail ⟨2, .hasNl rfl rfl⟩ |>.tail ⟨2, .send rfl rfl⟩
      |>.tail ⟨2, .sending rfl (.inr ⟨by unfold ConnectedOn; decide, rfl⟩)⟩
      |>.tail ⟨0, .lock rfl⟩ |>.tail ⟨0, .hasNl rfl rfl⟩ |>.tail ⟨0, .send rfl rfl⟩
      |>.tail ⟨0, .sending rfl (.inl ⟨1, rfl, rfl, rfl, rfl⟩)⟩
      |>.tail ⟨0, .recv rfl rfl⟩ |>.tail ⟨0, .receiving rfl rfl⟩
      |>.tail ⟨0, .checkPasses rfl⟩ |>.tail ⟨0, .connect rfl⟩
  intro distinct
  exact distinct idle _ initial_idle run 0 1 (by decide) ⟨rfl, rfl, rfl, rfl⟩

end CloudflareBlog.Connectx

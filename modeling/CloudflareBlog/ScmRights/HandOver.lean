import CloudflareBlog.Lib.Buffer
import CloudflareBlog.Lib.Dispatch
import CloudflareBlog.Lib.Driven

/-!
# Two servers for one port

The C server accepts all connections and looks at the first bytes of each.  It answers the client
itself, or it sends the descriptor over a unix socket to a second server, which answers in its
place.  `recv` with `MSG_PEEK` returns as soon as something has arrived, so what the server sees of
a word depends on the segments it came in: a client whose first segment is shorter than the word is
answered by the wrong server (`dispatched_iff`).
-/

namespace CloudflareBlog.ScmRights

open CloudflareBlog.Lib CloudflareBlog.Lib.Buffer CloudflareBlog.Lib.Dispatch

/-- A client: the segments in which its bytes come, and how many of them are there when the server
looks, which waits for the first byte. -/
structure Connection where
  segments : List (List Byte)
  arrived : Nat
  waited : segments.flatten ≠ [] → (segments.take arrived).flatten ≠ []

def Connection.stream (connection : Connection) : List Byte := connection.segments.flatten

/-- The receive queue when the server looks. -/
def Connection.queue (connection : Connection) : List Byte :=
  (connection.segments.take connection.arrived).flatten

/-- Which of the other calls in a round succeed. -/
structure Calls where
  connectUnix : Bool
  sendmsg : Bool
  send : Bool

/-! ## Messages between the servers -/

structure Cmsg where
  level : Nat
  type : Nat
  /-- The descriptors, as the connections they are open for. -/
  data : List Nat
  deriving DecidableEq

/-- What the second server gets from one unix socket; nothing, if the socket was closed first. -/
structure Message where
  iov : List Byte
  control : List Cmsg
  deriving DecidableEq

def solSocket : Nat := 1

def scmRights : Nat := 1

/-- `send_fd`, where it succeeds: the text ":)" and one descriptor. -/
def sendFd (fd : Nat) : Message :=
  { iov := [58, 41], control := [{ level := solSocket, type := scmRights, data := [fd] }] }

/-- `ReadFD` of the second server. -/
def readFD (message : Message) : Except String Nat :=
  match message.control with
  | [cmsg] =>
    if cmsg.level ≠ solSocket ∨ cmsg.type ≠ scmRights then .error "invalid argument"
    else
      match cmsg.data with
      | [fd] => .ok fd
      | _ => .error "invalid number of fds received"
  | _ => .error "invalid number of cmsgs received"

/-! ## The servers -/

inductive Server where
  | first
  | second
  deriving DecidableEq

structure State where
  firstRuns : Bool
  secondRuns : Bool
  /-- The connections that the first server has accepted. -/
  accepted : List Connection
  /-- The unix sockets that the second server has not looked at yet. -/
  waiting : List Message
  /-- The connections that were answered, and by which server. -/
  answered : List (Nat × Server)

def start : State where
  firstRuns := true
  secondRuns := true
  accepted := []
  waiting := []
  answered := []

/-- `recv` with `MSG_PEEK`, and the buffer behind it: -1 where `accept` had failed. -/
def recvPeek (connection : Option Connection) (len : Nat) : Int × List Byte :=
  match connection with
  | none => (-1, [])
  | some connection => ((connection.queue.take len).length, connection.queue.take len)

/-- One round of `main`, in which `accept` and the calls behind it have the given results. -/
def serve (connection : Option Connection) (calls : Calls) (state : State) : State :=
  let tcpConn := state.accepted.length
  let state := { state with accepted := state.accepted ++ connection.toList }
  let (n, buf) := recvPeek connection 4
  if n = 4 ∧ buf.getD 0 0 = 112 ∧ buf.getD 1 0 = 97 ∧ buf.getD 2 0 = 115 ∧ buf.getD 3 0 = 115 then
    if ¬calls.connectUnix then { state with firstRuns := false }
    else if ¬calls.sendmsg then
      -- The second server gets a socket that is closed, and nothing on it.
      { state with firstRuns := false, waiting := state.waiting ++ [⟨[], []⟩] }
    else { state with waiting := state.waiting ++ [sendFd tcpConn] }
  -- `send` fails on the descriptor -1 that a failed `accept` has left.
  else if connection.isNone ∨ ¬calls.send then { state with firstRuns := false }
  else { state with answered := state.answered ++ [(tcpConn, .first)] }

/-- One round of the second server, which does not survive a message without a descriptor. -/
def answerWaiting (message : Message) (rest : List Message) (state : State) : State :=
  match readFD message with
  | .error _ => { state with waiting := rest, secondRuns := false }
  | .ok fd => { state with waiting := rest, answered := state.answered ++ [(fd, .second)] }

inductive Input where
  | accept (connection : Option Connection) (calls : Calls)
  | acceptUnix

/-- The servers take their rounds in any order. -/
def step (state : State) : Input → Option State
  | .accept connection calls => if state.firstRuns then some (serve connection calls state) else none
  | .acceptUnix =>
    match state.waiting with
    | [] => none
    | message :: rest => if state.secondRuns then some (answerWaiting message rest state) else none

/-! ## Who handles a connection -/

/-- The word that calls for the second server. -/
def word : List Byte := [112, 97, 115, 115]

/-- The server that a client asks for. -/
def Connection.owner (connection : Connection) : Server :=
  if connection.stream.take 4 = word then .second else .first

/-- The connections whose descriptor is on its way to the second server. -/
def onTheWay (waiting : List Message) : List (Nat × Server) :=
  waiting.filterMap fun message => (readFD message).toOption.map fun fd => (fd, .second)

def State.taken (state : State) : List (Nat × Server) := state.answered ++ onTheWay state.waiting

/-- Each connection is handled by one of the servers: the second, if the client asks for it. -/
def Handled (state : State) : Prop :=
  ∀ tcpConn connection, state.accepted[tcpConn]? = some connection →
    (handlers state.taken tcpConn).length = 1 ∧
      (.second ∈ handlers state.taken tcpConn ↔ connection.stream.take 4 = word)

/-- The whole word is there when the server looks, if it is what the client begins with. -/
def WholeWord (connection : Connection) : Prop :=
  connection.stream.take 4 = word → 4 ≤ connection.queue.length

/-- The calls with which the connection is handed over or answered succeed. -/
def Succeeds (connection : Connection) (calls : Calls) : Prop :=
  if connection.stream.take 4 = word then calls.connectUnix ∧ calls.sendmsg else calls.send

/-- The rounds that treat their client right. -/
def Serves : Input → Prop
  | .accept (some connection) calls => WholeWord connection ∧ Succeeds connection calls
  | .accept none _ => True
  | .acceptUnix => True

/-! ## One round -/

/-- The comparison succeeds if and only if the word is there as a whole. -/
theorem peeked_iff (connection : Connection) :
    ((recvPeek (some connection) 4).1 = 4 ∧ (recvPeek (some connection) 4).2.getD 0 0 = 112 ∧
        (recvPeek (some connection) 4).2.getD 1 0 = 97 ∧
        (recvPeek (some connection) 4).2.getD 2 0 = 115 ∧
        (recvPeek (some connection) 4).2.getD 3 0 = 115) ↔
      4 ≤ connection.queue.length ∧ connection.stream.take 4 = word := by
  have stream : connection.stream =
      connection.queue ++ (connection.segments.drop connection.arrived).flatten := by
    rw [Connection.queue, ← List.flatten_append, List.take_append_drop]
    rfl
  rw [recvPeek, stream]
  rcases connection.queue with _ | ⟨a, _ | ⟨b, _ | ⟨c, _ | ⟨d, rest⟩⟩⟩⟩
  -- with fewer than four bytes, `n` is too small
  iterate 4 simp
  simp [word]

theorem onTheWay_sendFd (waiting : List Message) (fd : Nat) :
    onTheWay (waiting ++ [sendFd fd]) = onTheWay waiting ++ [(fd, .second)] :=
  List.filterMap_append

theorem onTheWay_closed (waiting : List Message) :
    onTheWay (waiting ++ [⟨[], []⟩]) = onTheWay waiting :=
  List.filterMap_append.trans (List.append_nil _)

/-- What a round adds to what is taken, by what the server sees and the calls that follow. -/
theorem serve_taken (connection : Connection) (calls : Calls) (state : State) :
    (serve (some connection) calls state).accepted = state.accepted ++ [connection] ∧
      (serve (some connection) calls state).taken =
        if 4 ≤ connection.queue.length ∧ connection.stream.take 4 = word then
          if calls.connectUnix ∧ calls.sendmsg then
            state.taken ++ [(state.accepted.length, .second)]
          else state.taken
        else if calls.send then
          state.answered ++ (state.accepted.length, .first) :: onTheWay state.waiting
        else state.taken := by
  rw [serve]
  simp only [peeked_iff]
  by_cases peeked : 4 ≤ connection.queue.length ∧ connection.stream.take 4 = word
  · simp only [if_pos peeked]
    cases connects : calls.connectUnix with
    | false => exact ⟨rfl, rfl⟩
    | true =>
      cases sends : calls.sendmsg with
      | false => exact ⟨rfl, congrArg (state.answered ++ ·) (onTheWay_closed state.waiting)⟩
      | true =>
        refine ⟨rfl, ?_⟩
        simp only [not_true_eq_false, if_false, and_self, if_true, State.taken, onTheWay_sendFd,
          List.append_assoc]
  · simp only [if_neg peeked]
    cases sends : calls.send with
    | false => exact ⟨rfl, rfl⟩
    | true => exact ⟨rfl, List.append_assoc _ _ _⟩

theorem serve_none (calls : Calls) (state : State) :
    serve none calls state = { state with firstRuns := false } := by
  rw [serve]
  simp [recvPeek]

/-- The second server takes what is on the way. -/
theorem answerWaiting_taken {state : State} {message : Message} {rest : List Message}
    (next : state.waiting = message :: rest) :
    (answerWaiting message rest state).accepted = state.accepted ∧
      (answerWaiting message rest state).taken = state.taken := by
  rw [State.taken, State.taken, next, onTheWay, onTheWay, List.filterMap_cons, answerWaiting]
  cases readFD message with
  | error => exact ⟨rfl, rfl⟩
  | ok fd => exact ⟨rfl, List.append_assoc _ _ _⟩

/-! ## All rounds -/

/-- The abstract view: every connection that was accepted is with the server its client asks for. -/
abbrev Dispatches (state : State) : Prop :=
  Dispatched Connection.owner state.accepted state.taken

theorem Handled.of_dispatches {state : State} (dispatches : Dispatches state) : Handled state := by
  intro tcpConn connection accepted
  rw [Dispatched.handlers_eq dispatches accepted, Connection.owner]
  refine ⟨rfl, ?_⟩
  by_cases asks : connection.stream.take 4 = word <;> simp [asks]

/-- Who handles the connection of a round, by what the server sees and the calls that follow. -/
theorem handlers_serve {connection : Connection} {calls : Calls} {state : State}
    (dispatches : Dispatches state) :
    handlers (serve (some connection) calls state).taken state.accepted.length =
      if 4 ≤ connection.queue.length ∧ connection.stream.take 4 = word then
        if calls.connectUnix ∧ calls.sendmsg then [.second] else []
      else if calls.send then [.first] else [] := by
  have untaken : handlers state.taken state.accepted.length = [] := dispatches.handlers_next
  rw [(serve_taken connection calls state).2]
  by_cases peeked : 4 ≤ connection.queue.length ∧ connection.stream.take 4 = word
  · rw [if_pos peeked, if_pos peeked]
    by_cases both : calls.connectUnix ∧ calls.sendmsg
    · rw [if_pos both, if_pos both]
      exact handlers_insert (by rw [List.append_nil, untaken]) _
    · rw [if_neg both, if_neg both, untaken]
  · rw [if_neg peeked, if_neg peeked]
    by_cases sends : calls.send
    · rw [if_pos sends, if_pos sends]
      exact handlers_insert untaken _
    · rw [if_neg sends, if_neg sends, untaken]

/-- A round that treats its client right keeps every connection where it belongs. -/
theorem serve_dispatches {connection : Connection} {calls : Calls} {state : State}
    (dispatches : Dispatches state) (whole : WholeWord connection)
    (succeeds : Succeeds connection calls) :
    Dispatches (serve (some connection) calls state) := by
  obtain ⟨accepted, taken⟩ := serve_taken connection calls state
  rw [Dispatches, accepted, taken]
  rw [Succeeds] at succeeds
  by_cases asks : connection.stream.take 4 = word
  · have owner : connection.owner = .second := if_pos asks
    rw [if_pos asks] at succeeds
    rw [if_pos ⟨whole asks, asks⟩, if_pos succeeds, ← owner]
    exact Dispatched.take (by rw [List.append_nil]; exact dispatches)
  · have owner : connection.owner = .first := if_neg asks
    rw [if_neg asks] at succeeds
    rw [if_neg fun peeked => asks peeked.2, if_pos succeeds, ← owner]
    exact Dispatched.take dispatches

/-- A round after which its connection is where it belongs has treated its client right. -/
theorem serves_of_handled {connection : Connection} {calls : Calls} {state : State}
    (dispatches : Dispatches state) (handled : Handled (serve (some connection) calls state)) :
    WholeWord connection ∧ Succeeds connection calls := by
  have number : (serve (some connection) calls state).accepted[state.accepted.length]? =
      some connection := by
    rw [(serve_taken connection calls state).1, List.getElem?_concat_length]
  obtain ⟨once, second⟩ := handled _ connection number
  rw [handlers_serve dispatches] at once second
  by_cases asks : connection.stream.take 4 = word
  · rw [Succeeds, if_pos asks]
    by_cases whole : 4 ≤ connection.queue.length
    · rw [if_pos ⟨whole, asks⟩] at once
      by_cases both : calls.connectUnix ∧ calls.sendmsg
      · exact ⟨fun _ => whole, both⟩
      · rw [if_neg both] at once
        cases once
    · -- the first server has answered, or nobody has
      have isSecond := second.mpr asks
      rw [if_neg fun peeked => whole peeked.1] at isSecond
      by_cases sends : calls.send <;> simp [sends] at isSecond
  · rw [Succeeds, if_neg asks]
    rw [if_neg fun peeked => asks peeked.2] at once
    by_cases sends : calls.send
    · exact ⟨fun is => absurd is asks, sends⟩
    · rw [if_neg sends] at once
      cases once

theorem step_dispatches {state next : State} {input : Input} (dispatches : Dispatches state)
    (serves : Serves input) (stepped : step state input = some next) : Dispatches next := by
  cases input with
  | accept connection calls =>
    rw [step, Option.ite_none_right_eq_some, Option.some.injEq] at stepped
    rw [← stepped.2]
    cases connection with
    | none =>
      rw [serve_none]
      exact dispatches
    | some connection => exact serve_dispatches dispatches serves.1 serves.2
  | acceptUnix =>
    rw [step] at stepped
    cases isWaiting : state.waiting with
    | nil =>
      rw [isWaiting] at stepped
      cases stepped
    | cons message rest =>
      rw [isWaiting] at stepped
      simp only [Option.ite_none_right_eq_some, Option.some.injEq] at stepped
      obtain ⟨accepted, taken⟩ := answerWaiting_taken isWaiting
      rw [← stepped.2, Dispatches, accepted, taken]
      exact dispatches

/-- In every run, all connections are handled as their clients ask if and only if the server sees
the whole word whenever it is there, and its other calls succeed. -/
theorem dispatched_iff (inputs : List Input) :
    Driven.Always step Handled start inputs ↔
      Driven.EachStep step (fun _ input => Serves input) start inputs := by
  -- A round is judged by the connection it has accepted, so that the first wrong round shows.
  refine Driven.always_iff_eachStep (fun s => Handled.of_dispatches)
    (fun s input t dispatches serves stepped => step_dispatches dispatches serves stepped)
    (fun s input t dispatches fails stepped handled => fails ?_) Dispatched.start
  cases input with
  | accept connection calls =>
    rw [step, Option.ite_none_right_eq_some, Option.some.injEq] at stepped
    cases connection with
    | none => exact trivial
    | some connection =>
      rw [← stepped.2] at handled
      exact serves_of_handled dispatches handled
  | acceptUnix => exact trivial

/-- "pass" in two segments, of which the second comes after the look. -/
def halves : Connection where
  segments := [[112, 97], [115, 115]]
  arrived := 1
  waited := fun _ => List.cons_ne_nil _ _

/-- The client that asks for the second server, but not at once, is answered by the first. -/
theorem not_dispatched_halves :
    ¬ Driven.Always step Handled start [.accept (some halves) ⟨true, true, true⟩] := by
  intro always
  obtain ⟨-, second⟩ := (always.2 _ rfl).head 0 halves rfl
  have isSecond := second.mpr rfl
  revert isSecond
  decide

end CloudflareBlog.ScmRights

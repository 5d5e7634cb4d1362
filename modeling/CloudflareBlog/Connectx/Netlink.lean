import CloudflareBlog.Connectx.Ephemeral
import CloudflareBlog.Lib.Checked
import CloudflareBlog.Lib.Code

/-!
# `_netlink_udp_lookup`

The program as a sequence of system calls.  A `System` answers each of them, by what has been called
before: with a value or with an exception.  Integers are in the order of a little-endian machine.
-/

namespace CloudflareBlog.Connectx

open CloudflareBlog.Lib.Raising CloudflareBlog.Lib.Checked
open CloudflareBlog.Lib.Memory (littleEndian)

abbrev Bytes := List (BitVec 8)

inductive Family where
  | inet
  | inet6
  deriving DecidableEq

def Family.number : Family → BitVec 8
  | .inet => 2
  | .inet6 => 10

/-- An address of a socket: the host and the port, and for IPv6 the flow and the scope behind them. -/
structure Addr where
  host : String
  port : Int
  more : List Int
  deriving DecidableEq

/-! ## The system -/

/-- The system calls of the program, those apart that set `SO_REUSEADDR`. -/
inductive Call where
  /-- `_get_src_route`, on a socket of its own. -/
  | routeSocket
  | routeSetReuse
  | routeConnect (remoteAddr : Addr)
  | routeName
  | routeClose
  /-- To open a file and to read it. -/
  | readFile (name : String)
  | randint (lo hi : Int)
  | nlSocket
  | nlConnect
  | nlSend (message : Bytes)
  | nlRecv (size : Nat)
  | getCookie
  | bind (localAddr : Addr)
  /-- `LIBC.connect` to `AF_UNSPEC`. -/
  | dissolve
  | connect (remoteAddr : Addr)

/-- What a system call returns. -/
abbrev Call.Reply : Call → Type
  | .routeName => Addr
  | .readFile _ => List Char
  | .randint _ _ => Int
  | .nlRecv _ => Bytes
  | .getCookie => Cookie
  | .dissolve => Int
  | .routeSocket | .routeSetReuse | .routeConnect _ | .routeClose | .nlSocket | .nlConnect
    | .nlSend _ | .bind _ | .connect _ => Unit

structure System where
  inetPton : Family → String → Except Exn Bytes
  reply : List Call → (call : Call) → Except Exn call.Reply

/-- The socket and the variables of the program. -/
structure Host where
  /-- `SO_REUSEADDR` of the socket. -/
  reuse : Bool
  /-- `nl` is a socket. -/
  nl : Bool
  ephemeral : Option Ephemeral
  /-- The calls so far. -/
  calls : List Call

def Host.record (host : Host) (call : Call) : Host := { host with calls := host.calls ++ [call] }

@[simp] theorem Host.record_reuse (host : Host) (call : Call) :
    (host.record call).reuse = host.reuse := rfl

def perform (system : System) (call : Call) : Program Host Exn call.Reply := do
  let host ← get
  modify fun host => host.record call
  ofExcept (system.reply host.calls call)

/-! ## The messages -/

def bigEndian (size : Nat) (value : BitVec (8 * size)) : Bytes := (littleEndian size value).reverse

def ofLittleEndian (bytes : Bytes) : Nat :=
  bytes.foldr (fun byte value => byte.toNat + 256 * value) 0

/-- `!H` of `struct.pack`. -/
def packPort (port : Int) : Except Exn Bytes :=
  if 0 ≤ port ∧ port < 2 ^ 16 then .ok (bigEndian 2 (BitVec.ofInt 16 port)) else .error .structError

/-- `16s` of `struct.pack`. -/
def packAddress (bytes : Bytes) : Bytes := bytes.take 16 ++ List.replicate (16 - bytes.length) 0

def htonl (value : Int) : Except Exn (BitVec 32) :=
  if 0 ≤ value ∧ value < 2 ^ 32
  then .ok (BitVec.ofNat 32 (ofLittleEndian (bigEndian 4 (BitVec.ofInt 32 value))))
  else .error .overflowError

def sockDiagByFamily : BitVec 16 := 20

def nlmsgError : BitVec 16 := 2

/-- `nl_msg`: the length, the type and the flags of the request. -/
def nlMsg : Bytes :=
  littleEndian 4 72 ++ littleEndian 2 sockDiagByFamily ++ littleEndian 2 1 ++ littleEndian 4 0 ++
    littleEndian 4 0

/-- `req_v2`: UDP sockets in state `TCP_ESTABLISHED`. -/
def reqV2 (family : Family) : Bytes :=
  [family.number, 17, 0, 0] ++ littleEndian 4 (1 <<< 1)

/-- `sock_id`, without a cookie. -/
def sockId (system : System) (family : Family) (localAddr remoteAddr : Addr) : Except Exn Bytes := do
  let iface := if family = .inet6 then remoteAddr.more.getD 1 0 else 0
  let dst ← system.inetPton family remoteAddr.host
  let src ← system.inetPton family localAddr.host
  let iface ← htonl iface
  let sport ← packPort remoteAddr.port
  let dport ← packPort localAddr.port
  return sport ++ dport ++ packAddress dst ++ packAddress src ++ bigEndian 4 iface ++
    List.replicate 8 (0xff : BitVec 8)

def request (system : System) (family : Family) (localAddr remoteAddr : Addr) : Except Exn Bytes :=
  (sockId system family localAddr remoteAddr).map fun sockId => nlMsg ++ reqV2 family ++ sockId

/-- The cookie in the answer of the kernel. -/
def response (b : Bytes) : Except Exn (Option Cookie) :=
  if b.length < 6 then .error .structError
  else
    let t := BitVec.ofNat 16 (ofLittleEndian ((b.drop 4).take 2))
    if t = sockDiagByFamily then
      if b.length < 68 then .error .structError else .ok (some ((b.drop 60).take 8))
    else if t = nlmsgError then
      if b.length < 20 then .error .structError else .ok none
    else .ok none

/-! ## The lookup -/

/-- `if nl == None`. -/
def openNetlink (system : System) : Program Host Exn Unit := do
  let host ← get
  if host.nl then return ()
  else do
    perform system .nlSocket
    modify fun host => { host with nl := true }
    perform system .nlConnect

/-- `_netlink_udp_lookup`, of which the callers use the cookie. -/
def netlinkUdpLookup (system : System) (family : Family) (localAddr remoteAddr : Addr) :
    Program Host Exn (Option Cookie) := do
  let message ← ofExcept (request system family localAddr remoteAddr)
  openNetlink system
  perform system (.nlSend message)
  let b ← perform system (.nlRecv 4096)
  ofExcept (response b)

/-! ## The request -/

@[simp] theorem bigEndian_length (size : Nat) (value : BitVec (8 * size)) :
    (bigEndian size value).length = size := by
  simp [bigEndian]

@[simp] theorem packAddress_length (bytes : Bytes) : (packAddress bytes).length = 16 := by
  simp only [packAddress, List.length_append, List.length_take, List.length_replicate]
  omega

theorem packPort_length {port : Int} {bytes : Bytes} (packed : packPort port = .ok bytes) :
    bytes.length = 2 := by
  rw [packPort] at packed
  split at packed
  case isTrue =>
    cases packed
    exact bigEndian_length 2 _
  case isFalse => exact nomatch packed

theorem sockId_length {system : System} {family : Family} {localAddr remoteAddr : Addr}
    {bytes : Bytes} (built : sockId system family localAddr remoteAddr = .ok bytes) :
    bytes.length = 48 := by
  obtain ⟨dst, -, built⟩ := bind_eq_ok.mp built
  obtain ⟨src, -, built⟩ := bind_eq_ok.mp built
  obtain ⟨iface, -, built⟩ := bind_eq_ok.mp built
  obtain ⟨sport, packedSport, built⟩ := bind_eq_ok.mp built
  obtain ⟨dport, packedDport, built⟩ := bind_eq_ok.mp built
  cases built
  simp [packPort_length packedSport, packPort_length packedDport]

theorem request_length {system : System} {family : Family} {localAddr remoteAddr : Addr}
    {message : Bytes} (built : request system family localAddr remoteAddr = .ok message) :
    message.length = ofLittleEndian (message.take 4) := by
  simp only [request] at built
  cases id : sockId system family localAddr remoteAddr with
  | error raised =>
    rw [id] at built
    exact nomatch built
  | ok bytes =>
    rw [id] at built
    cases built
    have length := sockId_length id
    have header : (nlMsg ++ reqV2 family ++ bytes).take 4 = littleEndian 4 72 := rfl
    rw [header]
    simp only [List.length_append, length, nlMsg, reqV2, Lib.Memory.length_littleEndian]
    rfl

/-! ## What a call changes -/

section

variable {system : System}

@[simp] theorem exec_perform (call : Call) (host : Host) :
    exec (perform system call) host = (system.reply host.calls call, host.record call) := by
  rw [perform, exec_bind_ok (exec_get host), exec_bind_ok (exec_modify _ host), exec_ofExcept]

theorem exec_perform_eq {call : Call} {host : Host} {answer : Except Exn call.Reply}
    (replied : system.reply host.calls call = answer) :
    exec (perform system call) host = (answer, host.record call) := by
  rw [exec_perform, replied]

variable {value : Bool}

theorem perform_keeps (call : Call) :
    Keeps (fun host => host.reuse = value) (perform system call) := by
  intro host set
  rw [exec_perform]
  exact set

theorem openNetlink_keeps : Keeps (fun host => host.reuse = value) (openNetlink system) := by
  refine .bind .get fun host => .ite (fun _ => .pure ()) fun _ => ?_
  exact .bind (perform_keeps _) fun _ => .bind (.modify fun _ set => set) fun _ => perform_keeps _

/-- A lookup does not touch the socket, whether it returns or raises. -/
theorem netlinkUdpLookup_keeps (family : Family) (localAddr remoteAddr : Addr) :
    Keeps (fun host => host.reuse = value)
      (netlinkUdpLookup system family localAddr remoteAddr) :=
  .bind (.ofExcept _) fun _ => .bind openNetlink_keeps fun _ => .bind (perform_keeps _) fun _ =>
    .bind (perform_keeps _) fun _ => .ofExcept _

/-! ## When a lookup raises -/

/-- The netlink socket is there, or can be opened. -/
def Opens (system : System) (host : Host) : Prop :=
  host.nl = true ∨ system.reply host.calls .nlSocket = .ok () ∧
    system.reply (host.calls ++ [.nlSocket]) .nlConnect = .ok ()

/-- The calls with which the netlink socket is there. -/
def openedCalls (host : Host) : List Call :=
  if host.nl = true then host.calls else host.calls ++ [.nlSocket, .nlConnect]

/-- The kernel is sent the message and answers with `b`. -/
structure Exchange (system : System) (family : Family) (localAddr remoteAddr : Addr) (host : Host)
    (message b : Bytes) : Prop where
  built : request system family localAddr remoteAddr = .ok message
  opens : Opens system host
  sent : system.reply (openedCalls host) (.nlSend message) = .ok ()
  received : system.reply (openedCalls host ++ [.nlSend message]) (.nlRecv 4096) = .ok b

/-- The calls up to the answer. -/
def exchangeCalls (host : Host) (message : Bytes) : List Call :=
  openedCalls host ++ [.nlSend message] ++ [.nlRecv 4096]

theorem Exchange.unique {family : Family} {localAddr remoteAddr : Addr} {host : Host}
    {message other b c : Bytes}
    (exchange : Exchange system family localAddr remoteAddr host message b)
    (again : Exchange system family localAddr remoteAddr host other c) :
    other = message ∧ c = b := by
  have same := again.built
  rw [exchange.built] at same
  cases same
  have answer := again.received
  rw [exchange.received] at answer
  cases answer
  exact ⟨rfl, rfl⟩

theorem exec_openNetlink {host : Host} (opens : Opens system host) :
    exec (openNetlink system) host =
      (.ok (), { host with nl := true, calls := openedCalls host }) := by
  rw [openNetlink, exec_bind_ok (exec_get host)]
  by_cases opened : host.nl = true
  · rw [if_pos opened, openedCalls, if_pos opened, ← opened]
    rfl
  · obtain ⟨socket, connect⟩ := opens.resolve_left opened
    rw [if_neg opened, openedCalls, if_neg opened, exec_bind_ok (exec_perform_eq socket),
      exec_bind_ok (exec_modify _ _), exec_perform_eq connect]
    simp [Host.record]

theorem openNetlink_raises {host : Host} (fails : ¬ Opens system host) :
    ∃ raised later, exec (openNetlink system) host = (.error raised, later) := by
  have closed : ¬ host.nl = true := fun opened => fails (.inl opened)
  rw [openNetlink, exec_bind_ok (exec_get host), if_neg closed]
  cases socket : system.reply host.calls .nlSocket with
  | error raised => exact ⟨raised, _, exec_bind_error (exec_perform_eq socket)⟩
  | ok opened =>
    rw [exec_bind_ok (exec_perform_eq socket), exec_bind_ok (exec_modify _ _)]
    cases connect : system.reply (host.calls ++ [.nlSocket]) .nlConnect with
    | error raised => exact ⟨raised, _, exec_perform_eq connect⟩
    | ok connected => exact absurd (.inr ⟨socket, connect⟩) fails

/-- After an exchange the lookup returns or raises as the answer can be read. -/
theorem exec_netlinkUdpLookup {family : Family} {localAddr remoteAddr : Addr} {host : Host}
    {message b : Bytes} (exchange : Exchange system family localAddr remoteAddr host message b) :
    exec (netlinkUdpLookup system family localAddr remoteAddr) host =
      (response b, { host with nl := true, calls := exchangeCalls host message }) := by
  rw [netlinkUdpLookup, exchange.built, exec_bind_ok (exec_ofExcept _ host),
    exec_bind_ok (exec_openNetlink exchange.opens), exec_bind_ok (exec_perform_eq exchange.sent),
    exec_bind_ok (exec_perform_eq exchange.received), exec_ofExcept]
  rfl

theorem netlinkUdpLookup_raises {family : Family} {localAddr remoteAddr : Addr} {host : Host}
    (silent : ¬ ∃ message b, Exchange system family localAddr remoteAddr host message b) :
    ∃ raised later, exec (netlinkUdpLookup system family localAddr remoteAddr) host =
      (.error raised, later) := by
  rw [netlinkUdpLookup]
  cases built : request system family localAddr remoteAddr with
  | error raised => exact ⟨raised, _, exec_bind_error (exec_ofExcept _ host)⟩
  | ok message =>
    rw [exec_bind_ok (exec_ofExcept _ host)]
    by_cases opens : Opens system host
    · rw [exec_bind_ok (exec_openNetlink opens)]
      cases sent : system.reply (openedCalls host) (.nlSend message) with
      | error raised => exact ⟨raised, _, exec_bind_error (exec_perform_eq sent)⟩
      | ok done =>
        rw [exec_bind_ok (exec_perform_eq sent)]
        cases received : system.reply (openedCalls host ++ [.nlSend message]) (.nlRecv 4096) with
        | error raised => exact ⟨raised, _, exec_bind_error (exec_perform_eq received)⟩
        | ok b => exact absurd ⟨message, b, built, opens, sent, received⟩ silent
    · obtain ⟨raised, later, ran⟩ := openNetlink_raises opens
      exact ⟨raised, later, exec_bind_error ran⟩

end

end CloudflareBlog.Connectx

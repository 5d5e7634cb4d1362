import CloudflareBlog.Lib.ByteOrder
import CloudflareBlog.Lib.Driven
import Mathlib.Logic.Function.Basic

/-!
# `connect4_prog`

UDP sockets with `SO_REUSEADDR` share a local address, and nothing in the kernel keeps two of them
from connecting to the same peer.  The program looks up the 4-tuple that a `connect` asks for, and
refuses it when the socket it finds is connected: the caller, it says, is not connected yet.  A caller
that connects again to its own peer is, and finds itself (`exact_iff`).
-/

namespace CloudflareBlog.Connectx.Connect4

open Lib Lib.Driven

/-! ## The program -/

def sockDgram : Nat := 2

def established : Nat := 1

def unconn : Nat := 7

structure BpfSock where
  srcIp4 : BitVec 32
  /-- In host byte order. -/
  srcPort : BitVec 16
  dstIp4 : BitVec 32
  /-- In network byte order. -/
  dstPort : BitVec 16
  state : Nat
  deriving DecidableEq

/-- `struct bpf_sock_addr`, with the port in network byte order. -/
structure BpfSockAddr where
  type : Nat
  userIp4 : BitVec 32
  userPort : BitVec 16
  sk : BpfSock

/-- `ipv4` of `struct bpf_sock_tuple`, in network byte order. -/
structure BpfSockTuple where
  saddr : BitVec 32
  daddr : BitVec 32
  sport : BitVec 16
  dport : BitVec 16

def bpfHtons (value : BitVec 16) : BitVec 16 := swap16 value

/-- `connect4_prog`: 0 is `EPERM`. -/
def connect4Prog (bpfSkLookupUdp : BpfSockTuple → Option BpfSock) (ctx : BpfSockAddr) : Nat :=
  if ctx.type ≠ sockDgram then 1
  else if ctx.sk.srcPort = 0 ∨ ctx.sk.srcIp4 = 0 then 1
  else if ctx.userPort = 0 ∨ ctx.userIp4 = 0 then 1
  else
    let tuple : BpfSockTuple :=
      ⟨ctx.userIp4, ctx.sk.srcIp4, ctx.userPort, bpfHtons ctx.sk.srcPort⟩
    match bpfSkLookupUdp tuple with
    | none => 1
    | some nsk => if nsk.state = 1 then 0 else 1

/-! ## The sockets -/

/-- A UDP socket: what the program sees, and which parts of its address `bind` fixed. -/
structure Sock extends BpfSock where
  ipBound : Bool
  portBound : Bool
  deriving DecidableEq

namespace Sock

/-- `socket`. -/
def fresh : Sock := ⟨⟨0, 0, 0, 0, unconn⟩, false, false⟩

/-- `bind`, when it gives the socket a port, or fails.  Every socket has `SO_REUSEADDR`, so that no
other stands in its way, but it must not have a port yet. -/
def bind (sock : Sock) (ip4 : BitVec 32) (port : BitVec 16) (given : Option (BitVec 16)) :
    Option Sock :=
  match given with
  | none => some sock
  | some given =>
    if sock.state = unconn ∧ sock.srcPort = 0 ∧ given ≠ 0 ∧ (port = 0 ∨ given = port) then
      some { sock with
        srcIp4 := ip4, srcPort := given
        ipBound := sock.ipBound || ip4 ≠ 0, portBound := sock.portBound || port ≠ 0 }
    else none

/-- `connect`, past the program.  A socket without a port gets one, unless there is none left (0); the
route gives the address of a socket that has none, and stands in for the address 0. -/
def connect (sock : Sock) (ip4 : BitVec 32) (port auto : BitVec 16)
    (route : Option (BitVec 32 × BitVec 32)) : Option Sock :=
  if sock.srcPort = 0 ∧ auto = 0 then some sock
  else
    let srcPort := if sock.srcPort = 0 then auto else sock.srcPort
    match route with
    | none => some { sock with srcPort := srcPort }
    | some (saddr, daddr) =>
      if saddr ≠ 0 ∧ daddr ≠ 0 then
        some { sock with
          srcIp4 := if sock.srcIp4 = 0 then saddr else sock.srcIp4
          srcPort := srcPort
          dstIp4 := if ip4 = 0 then daddr else ip4
          dstPort := port, state := established }
      else none

/-- `connect` to `AF_UNSPEC`. -/
def disconnect (sock : Sock) : Sock :=
  { sock with
    srcIp4 := if sock.ipBound then sock.srcIp4 else 0
    srcPort := if sock.portBound then sock.srcPort else 0
    dstIp4 := 0, dstPort := 0, state := unconn }

end Sock

abbrev Kernel (Socket : Type) := Socket → Option Sock

/-- The system calls, with what the kernel answers. -/
inductive Call (Socket : Type) where
  | socket (s : Socket)
  | bind (s : Socket) (ip4 : BitVec 32) (port : BitVec 16) (given : Option (BitVec 16))
  | connect (s : Socket) (ip4 : BitVec 32) (port auto : BitVec 16)
    (route : Option (BitVec 32 × BitVec 32))
  | disconnect (s : Socket)
  | close (s : Socket)

/-- `bpf_sk_lookup_udp`, in any state of the sockets. -/
abbrev Lookup (Socket : Type) := Kernel Socket → BpfSockTuple → Option Socket

section Step

variable {Socket : Type} (lookup : Lookup Socket)

/-- What the program says to a `connect` of a socket. -/
def verdict (kernel : Kernel Socket) (sock : Sock) (ip4 : BitVec 32) (port : BitVec 16) : Nat :=
  connect4Prog (fun tuple => ((lookup kernel tuple).bind kernel).map Sock.toBpfSock)
    ⟨sockDgram, ip4, port, sock.toBpfSock⟩

variable [DecidableEq Socket]

def step (kernel : Kernel Socket) : Call Socket → Option (Kernel Socket)
  | .socket s =>
    match kernel s with
    | none => some (Function.update kernel s (some .fresh))
    | some _ => none
  | .bind s ip4 port given =>
    match kernel s with
    | none => none
    | some sock => (sock.bind ip4 port given).map fun sock => Function.update kernel s (some sock)
  | .connect s ip4 port auto route =>
    match kernel s with
    | none => none
    | some sock =>
      if verdict lookup kernel sock ip4 port = 0 then some kernel
      else
        (sock.connect ip4 port auto route).map fun sock => Function.update kernel s (some sock)
  | .disconnect s =>
    match kernel s with
    | none => none
    | some sock => some (Function.update kernel s (some sock.disconnect))
  | .close s =>
    match kernel s with
    | none => none
    | some _ => some (Function.update kernel s none)

end Step

/-! ## The lookup -/

section Lookup

variable {Socket : Type} (kernel : Kernel Socket) (tuple : BpfSockTuple)

def ConnectedOn (t : Socket) : Prop :=
  ∃ sock ∈ kernel t, sock.dstIp4 = tuple.saddr ∧ sock.dstPort = tuple.sport ∧
    sock.srcIp4 = tuple.daddr ∧ bpfHtons sock.srcPort = tuple.dport

/-- The socket is on the local address, and has no remote one. -/
def UnconnectedOn (t : Socket) : Prop :=
  ∃ sock ∈ kernel t, sock.dstIp4 = 0 ∧
    sock.srcIp4 = tuple.daddr ∧ bpfHtons sock.srcPort = tuple.dport

/-- What the kernel finds: a socket that is connected on the 4-tuple, whichever of them it may be, or
else one that is unconnected. -/
inductive Finds : Option Socket → Prop where
  | connected (t : Socket) (exact : ConnectedOn kernel tuple t) : Finds (some t)
  | unconnected (t : Socket) (free : ∀ u, ¬ ConnectedOn kernel tuple u)
      (bound : UnconnectedOn kernel tuple t) : Finds (some t)
  | nothing (free : ∀ u, ¬ ConnectedOn kernel tuple u)
      (unbound : ∀ u, ¬ UnconnectedOn kernel tuple u) : Finds none

end Lookup

/-! ## Conflicts -/

section Conflicts

variable {Socket : Type} (lookup : Lookup Socket) (kernel : Kernel Socket)

/-- The socket `t` is connected on the 4-tuple that a `connect` of `sock` asks for. -/
def Occupies (sock : Sock) (ip4 : BitVec 32) (port : BitVec 16) (t : Socket) : Prop :=
  ∃ other ∈ kernel t, other.srcIp4 = sock.srcIp4 ∧ other.srcPort = sock.srcPort ∧
    other.dstIp4 = ip4 ∧ other.dstPort = port

/-- A `connect` of a socket with a full local address, to a full remote one. -/
structure Full (sock : Sock) (ip4 : BitVec 32) (port : BitVec 16) : Prop where
  srcIp4 : sock.srcIp4 ≠ 0
  srcPort : sock.srcPort ≠ 0
  userIp4 : ip4 ≠ 0
  userPort : port ≠ 0

/-- A `connect` is refused if and only if another socket is connected on the same 4-tuple, and not when
the socket itself is. -/
def Exact : Call Socket → Prop
  | .connect s ip4 port _ _ => ∀ sock ∈ kernel s, Full sock ip4 port →
    (verdict lookup kernel sock ip4 port = 0 ↔ ∃ t ≠ s, Occupies kernel sock ip4 port t) ∧
      (Occupies kernel sock ip4 port s → verdict lookup kernel sock ip4 port ≠ 0)
  | _ => True

/-- The call is no `connect` of a socket to the peer that it is connected to. -/
def Fresh : Call Socket → Prop
  | .connect s ip4 port _ _ => ∀ sock ∈ kernel s, Full sock ip4 port →
    ¬ Occupies kernel sock ip4 port s
  | _ => True

end Conflicts

/-! ## The state of a socket -/

/-- The state says whether the socket has a remote address. -/
inductive BpfSock.Consistent (sock : BpfSock) : Prop where
  | connected (state : sock.state = established) (remote : sock.dstIp4 ≠ 0)
  | unconnected (state : sock.state = unconn) (remote : sock.dstIp4 = 0)

namespace Sock

variable {sock next : Sock}

theorem consistent_fresh : fresh.Consistent := .unconnected rfl rfl

theorem consistent_disconnect : sock.disconnect.Consistent := .unconnected rfl rfl

theorem consistent_bind {ip4 : BitVec 32} {port : BitVec 16} {given : Option (BitVec 16)}
    (consistent : sock.Consistent) (bound : sock.bind ip4 port given = some next) :
    next.Consistent := by
  cases given with
  | none =>
    simp only [bind, Option.some.injEq] at bound
    rwa [← bound]
  | some given =>
    simp only [bind, Option.ite_none_right_eq_some, Option.some.injEq] at bound
    obtain ⟨-, rfl⟩ := bound
    cases consistent with
    | connected state remote => exact .connected state remote
    | unconnected state remote => exact .unconnected state remote

theorem consistent_connect {ip4 : BitVec 32} {port auto : BitVec 16}
    {route : Option (BitVec 32 × BitVec 32)} (consistent : sock.Consistent)
    (connected : sock.connect ip4 port auto route = some next) : next.Consistent := by
  unfold connect at connected
  simp only at connected
  split at connected
  case isTrue noPort =>
    cases connected
    exact consistent
  case isFalse hasPort =>
    cases route with
    | none =>
      cases connected
      cases consistent with
      | connected state remote => exact .connected state remote
      | unconnected state remote => exact .unconnected state remote
    | some route =>
      simp only [Option.ite_none_right_eq_some, Option.some.injEq] at connected
      obtain ⟨⟨-, daddr⟩, rfl⟩ := connected
      apply BpfSock.Consistent.connected rfl
      simp only
      split
      · exact daddr
      · assumption

end Sock

/-! ## Runs -/

section Runs

variable {Socket : Type} {lookup : Lookup Socket} {kernel next : Kernel Socket}

/-- What a call leaves of its socket. -/
inductive Change (lookup : Lookup Socket) (kernel : Kernel Socket) :
    Call Socket → Socket → Option Sock → Prop where
  | socket {s : Socket} : Change lookup kernel (.socket s) s (some .fresh)
  | bind {s : Socket} {sock changed : Sock} {ip4 : BitVec 32} {port : BitVec 16}
    {given : Option (BitVec 16)} (known : kernel s = some sock)
    (bound : sock.bind ip4 port given = some changed) :
    Change lookup kernel (.bind s ip4 port given) s (some changed)
  | connect {s : Socket} {sock changed : Sock} {ip4 : BitVec 32} {port auto : BitVec 16}
    {route : Option (BitVec 32 × BitVec 32)} (known : kernel s = some sock)
    (allowed : verdict lookup kernel sock ip4 port ≠ 0)
    (connected : sock.connect ip4 port auto route = some changed) :
    Change lookup kernel (.connect s ip4 port auto route) s (some changed)
  | disconnect {s : Socket} {sock : Sock} (known : kernel s = some sock) :
    Change lookup kernel (.disconnect s) s (some sock.disconnect)
  | close {s : Socket} : Change lookup kernel (.close s) s none

variable [DecidableEq Socket]

/-- A call changes no other socket, and nothing at all when the program refuses it. -/
theorem step_cases {call : Call Socket} (stepped : step lookup kernel call = some next) :
    next = kernel ∨ ∃ s changed, next = Function.update kernel s changed ∧
      Change lookup kernel call s changed := by
  cases call with
  | socket s =>
    simp only [step] at stepped
    split at stepped
    · cases stepped
      exact Or.inr ⟨s, _, rfl, .socket⟩
    · cases stepped
  | bind s ip4 port given =>
    simp only [step] at stepped
    split at stepped
    · cases stepped
    case h_2 sock known =>
      obtain ⟨changed, bound, rfl⟩ := Option.map_eq_some_iff.mp stepped
      exact Or.inr ⟨s, _, rfl, .bind known bound⟩
  | connect s ip4 port auto route =>
    simp only [step] at stepped
    split at stepped
    · cases stepped
    case h_2 sock known =>
      split at stepped
      -- the verdict is 0: the call fails and nothing changes
      case isTrue refused =>
        cases stepped
        exact Or.inl rfl
      case isFalse allowed =>
        obtain ⟨changed, connected, rfl⟩ := Option.map_eq_some_iff.mp stepped
        exact Or.inr ⟨s, _, rfl, .connect known allowed connected⟩
  | disconnect s =>
    simp only [step] at stepped
    split at stepped
    · cases stepped
    case h_2 sock known =>
      cases stepped
      exact Or.inr ⟨s, _, rfl, .disconnect known⟩
  | close s =>
    simp only [step] at stepped
    split at stepped
    · cases stepped
    · cases stepped
      exact Or.inr ⟨s, _, rfl, .close⟩

def Sound (kernel : Kernel Socket) : Prop := ∀ s, ∀ sock ∈ kernel s, sock.Consistent

def empty : Kernel Socket := fun _ => none

omit [DecidableEq Socket] in
theorem sound_empty : Sound (empty : Kernel Socket) := nofun

omit [DecidableEq Socket] in
theorem Sound.change (sound : Sound kernel) {call : Call Socket} {s : Socket}
    {changed : Option Sock} (change : Change lookup kernel call s changed) :
    ∀ sock ∈ changed, sock.Consistent := by
  intro sock isSock
  cases change with
  | socket =>
    cases isSock
    exact Sock.consistent_fresh
  | bind known bound =>
    cases isSock
    exact Sock.consistent_bind (sound s _ known) bound
  | connect known _ connected =>
    cases isSock
    exact Sock.consistent_connect (sound s _ known) connected
  | disconnect known =>
    cases isSock
    exact Sock.consistent_disconnect
  | close => cases isSock

theorem Sound.step (sound : Sound kernel) {call : Call Socket}
    (stepped : step lookup kernel call = some next) : Sound next := by
  obtain rfl | ⟨s, changed, rfl, change⟩ := step_cases stepped
  · exact sound
  · intro t sock known
    by_cases here : t = s
    · subst here
      rw [Function.update_self] at known
      exact sound.change change sock known
    · rw [Function.update_of_ne here] at known
      exact sound t sock known

/-! ## The verdict -/

def tupleOf (sock : Sock) (ip4 : BitVec 32) (port : BitVec 16) : BpfSockTuple :=
  ⟨ip4, sock.srcIp4, port, bpfHtons sock.srcPort⟩

omit [DecidableEq Socket] in
theorem connectedOn_tupleOf {sock : Sock} {ip4 : BitVec 32} {port : BitVec 16} {t : Socket} :
    ConnectedOn kernel (tupleOf sock ip4 port) t ↔ Occupies kernel sock ip4 port t := by
  have port_eq (other : Sock) :
      bpfHtons other.srcPort = bpfHtons sock.srcPort ↔ other.srcPort = sock.srcPort :=
    swap16_injective.eq_iff
  constructor
  · rintro ⟨other, known, dstIp4, dstPort, srcIp4, srcPort⟩
    exact ⟨other, known, srcIp4, (port_eq other).mp srcPort, dstIp4, dstPort⟩
  · rintro ⟨other, known, srcIp4, srcPort, dstIp4, dstPort⟩
    exact ⟨other, known, dstIp4, dstPort, srcIp4, (port_eq other).mpr srcPort⟩

omit [DecidableEq Socket] in
/-- Between full addresses the program asks for the state of the socket that is found. -/
theorem verdict_of_full {sock : Sock} {ip4 : BitVec 32} {port : BitVec 16}
    (full : Full sock ip4 port) :
    verdict lookup kernel sock ip4 port =
      match ((lookup kernel (tupleOf sock ip4 port)).bind kernel).map Sock.toBpfSock with
      | none => 1
      | some nsk => if nsk.state = 1 then 0 else 1 := by
  have here : ¬ (sock.srcPort = 0 ∨ sock.srcIp4 = 0) := not_or_intro full.srcPort full.srcIp4
  have there : ¬ (port = 0 ∨ ip4 = 0) := not_or_intro full.userPort full.userIp4
  rw [verdict, connect4Prog, if_neg (by simp), if_neg here, if_neg there]
  rfl

omit [DecidableEq Socket] in
/-- The program refuses a `connect` when any socket is on its 4-tuple, the caller included. -/
theorem verdict_eq_zero_iff (finds : ∀ tuple, Finds kernel tuple (lookup kernel tuple))
    (sound : Sound kernel) {sock : Sock} {ip4 : BitVec 32} {port : BitVec 16}
    (full : Full sock ip4 port) :
    verdict lookup kernel sock ip4 port = 0 ↔ ∃ t, Occupies kernel sock ip4 port t := by
  have found := finds (tupleOf sock ip4 port)
  simp only [verdict_of_full full, ← connectedOn_tupleOf]
  generalize lookup kernel (tupleOf sock ip4 port) = answer at found
  cases found with
  | connected t exact =>
    -- whoever it is, it has a remote address, so its state is `ESTABLISHED`
    apply iff_of_true _ ⟨t, exact⟩
    obtain ⟨other, known, remote, -⟩ := exact
    rw [Option.mem_def] at known
    have state : other.state = established := by
      cases sound t other known with
      | connected state _ => exact state
      | unconnected _ nothing => exact absurd (remote.symm.trans nothing) full.userIp4
    simp [known, state, established]
  | unconnected t free bound =>
    apply iff_of_false _ (not_exists.mpr free)
    obtain ⟨other, known, nothing, -⟩ := bound
    rw [Option.mem_def] at known
    have state : other.state = unconn := by
      cases sound t other known with
      | connected _ remote => exact absurd nothing remote
      | unconnected state _ => exact state
    simp [known, state, unconn]
  | nothing free _ =>
    exact iff_of_false (by simp) (not_exists.mpr free)

omit [DecidableEq Socket] in
/-- The program is exact where the caller is not connected to the peer already. -/
theorem exact_iff_fresh (finds : ∀ tuple, Finds kernel tuple (lookup kernel tuple))
    (sound : Sound kernel) (call : Call Socket) :
    Exact lookup kernel call ↔ Fresh kernel call := by
  cases call with
  | connect s ip4 port auto route =>
    apply forall₂_congr
    intro sock known
    apply forall_congr'
    intro full
    rw [verdict_eq_zero_iff finds sound full, ne_eq, verdict_eq_zero_iff finds sound full]
    constructor
    · -- a caller that is on the 4-tuple is among the sockets that refuse it
      intro exact itself
      exact exact.2 itself ⟨s, itself⟩
    · intro fresh
      refine ⟨⟨?_, fun ⟨t, _, occupies⟩ => ⟨t, occupies⟩⟩, fun itself => absurd itself fresh⟩
      rintro ⟨t, occupies⟩
      refine ⟨t, ?_, occupies⟩
      rintro rfl
      exact fresh occupies
  | socket s => exact Iff.rfl
  | bind s ip4 port given => exact Iff.rfl
  | disconnect s => exact Iff.rfl
  | close s => exact Iff.rfl

/-- For every run: each `connect` between full addresses is refused for the reason that it should be,
exactly when no such `connect` is to the peer that its socket is connected to. -/
theorem exact_iff (lookup : Lookup Socket)
    (finds : ∀ kernel tuple, Finds kernel tuple (lookup kernel tuple)) (calls : List (Call Socket)) :
    EachStep (step lookup) (Exact lookup) empty calls ↔ EachStep (step lookup) Fresh empty calls :=
  eachStep_congr (fun _ _ _ sound stepped => Sound.step sound stepped)
    (fun kernel call sound => exact_iff_fresh (finds kernel) sound call) sound_empty

/-! ## No conflicts -/

def Unique (kernel : Kernel Socket) : Prop :=
  ∀ s, ∀ sock ∈ kernel s, sock.dstIp4 ≠ 0 →
    ∀ t, Occupies kernel sock sock.dstIp4 sock.dstPort t → t = s

/-- The call is no `connect` without a full local address or to no full remote one. -/
def OnlyFull (kernel : Kernel Socket) : Call Socket → Prop
  | .connect s ip4 port _ _ => ∀ sock ∈ kernel s, Full sock ip4 port
  | _ => True

/-- A socket may change when it stays unconnected, or the same, or comes to a 4-tuple that no socket
is on. -/
theorem Unique.update (unique : Unique kernel) {s : Socket} {changed : Option Sock}
    (clear : ∀ sock ∈ changed, sock.dstIp4 = 0 ∨ kernel s = some sock ∨
      ∀ t, ¬ Occupies kernel sock sock.dstIp4 sock.dstPort t) :
    Unique (Function.update kernel s changed) := by
  intro u sock known remote t occupies
  obtain ⟨other, knownOther, srcIp4, srcPort, dstIp4, dstPort⟩ := occupies
  by_cases moved : u = s
  · -- the socket that changed, against one that did not
    subst moved
    rw [Function.update_self] at known
    by_cases same : t = u
    · exact same
    · rw [Function.update_of_ne same] at knownOther
      have occupies : Occupies kernel sock sock.dstIp4 sock.dstPort t :=
        ⟨other, knownOther, srcIp4, srcPort, dstIp4, dstPort⟩
      obtain unconnected | before | free := clear sock known
      · exact absurd unconnected remote
      · exact unique u sock before remote t occupies
      · exact absurd occupies (free t)
  · rw [Function.update_of_ne moved] at known
    by_cases here : t = s
    · -- the other way round
      subst here
      rw [Function.update_self] at knownOther
      obtain unconnected | before | free := clear other knownOther
      · exact absurd (dstIp4.symm.trans unconnected) remote
      · exact unique u sock known remote t ⟨other, before, srcIp4, srcPort, dstIp4, dstPort⟩
      · exact absurd ⟨sock, known, srcIp4.symm, srcPort.symm, dstIp4.symm, dstPort.symm⟩ (free u)
    · rw [Function.update_of_ne here] at knownOther
      exact unique u sock known remote t ⟨other, knownOther, srcIp4, srcPort, dstIp4, dstPort⟩

omit [DecidableEq Socket] in
/-- Between full addresses, `connect` fails or takes the 4-tuple that was looked up. -/
theorem connect_of_full {sock changed : Sock} {ip4 : BitVec 32} {port auto : BitVec 16}
    {route : Option (BitVec 32 × BitVec 32)} (full : Full sock ip4 port)
    (connected : sock.connect ip4 port auto route = some changed) :
    changed = sock ∨ changed = { sock with dstIp4 := ip4, dstPort := port, state := established } := by
  have hasPort : ¬ (sock.srcPort = 0 ∧ auto = 0) := fun none => full.srcPort none.1
  simp only [Sock.connect, if_neg hasPort, if_neg full.srcPort, if_neg full.srcIp4,
    if_neg full.userIp4] at connected
  cases route with
  | none =>
    cases connected
    exact Or.inl rfl
  | some route =>
    simp only [Option.ite_none_right_eq_some, Option.some.injEq] at connected
    exact Or.inr connected.2.symm

theorem Unique.step (finds : ∀ tuple, Finds kernel tuple (lookup kernel tuple))
    (sound : Sound kernel) (unique : Unique kernel) {call : Call Socket}
    (onlyFull : OnlyFull kernel call) (stepped : step lookup kernel call = some next) :
    Unique next := by
  obtain rfl | ⟨s, changed, rfl, change⟩ := step_cases stepped
  · exact unique
  · apply unique.update
    intro sock isSock
    cases change with
    | socket =>
      cases isSock
      exact Or.inl rfl
    | @bind _ before _ _ _ given known bound =>
      cases isSock
      cases given with
      | none =>
        cases bound
        exact Or.inr (Or.inl known)
      | some given =>
        -- a socket that has no port is not connected
        simp only [Sock.bind, Option.ite_none_right_eq_some, Option.some.injEq] at bound
        obtain ⟨⟨state, -⟩, rfl⟩ := bound
        cases sound s before known with
        | connected other _ => exact absurd (other.symm.trans state) (by decide)
        | unconnected _ nothing => exact Or.inl nothing
    | @connect _ before _ ip4 port _ _ known allowed connected =>
      cases isSock
      have full := onlyFull before known
      rw [ne_eq, verdict_eq_zero_iff finds sound full, not_exists] at allowed
      obtain rfl | rfl := connect_of_full full connected
      · exact Or.inr (Or.inl known)
      · exact Or.inr (Or.inr allowed)
    | disconnect known =>
      cases isSock
      exact Or.inl rfl
    | close => cases isSock

/-- What the program is for: when sockets connect between full addresses only, no two of them ever
share a 4-tuple. -/
theorem established_unique (lookup : Lookup Socket)
    (finds : ∀ kernel tuple, Finds kernel tuple (lookup kernel tuple)) (calls : List (Call Socket))
    (onlyFull : EachStep (step lookup) OnlyFull empty calls) :
    Always (step lookup) Unique empty calls := by
  have implies (kernel : Kernel Socket) (both : Sound kernel ∧ Unique kernel) : Unique kernel := both.2
  apply always_of_eachStep implies _ ⟨sound_empty, nofun⟩ onlyFull
  intro kernel call next both onlyFull stepped
  exact ⟨Sound.step both.1 stepped,
    Unique.step (finds kernel) both.1 both.2 onlyFull stepped⟩

end Runs

/-! ## A lookup -/

section Search

variable {Socket : Type}

instance (kernel : Kernel Socket) (tuple : BpfSockTuple) : DecidablePred (ConnectedOn kernel tuple) :=
  fun t => inferInstanceAs (Decidable (∃ sock ∈ kernel t, _))

instance (kernel : Kernel Socket) (tuple : BpfSockTuple) :
    DecidablePred (UnconnectedOn kernel tuple) :=
  fun t => inferInstanceAs (Decidable (∃ sock ∈ kernel t, _))

/-- The first socket that fits, of all that there are. -/
def search (sockets : List Socket) : Lookup Socket := fun kernel tuple =>
  (sockets.find? (ConnectedOn kernel tuple ·)).or (sockets.find? (UnconnectedOn kernel tuple ·))

theorem finds_search {sockets : List Socket} (all : ∀ s, s ∈ sockets) (kernel : Kernel Socket)
    (tuple : BpfSockTuple) : Finds kernel tuple (search sockets kernel tuple) := by
  unfold search
  cases connected : sockets.find? (ConnectedOn kernel tuple ·) with
  | some t =>
    have exact := List.find?_some connected
    exact .connected t (by simpa using exact)
  | none =>
    have free (u : Socket) : ¬ ConnectedOn kernel tuple u := by
      have absent := List.find?_eq_none.mp connected u (all u)
      simpa using absent
    rw [Option.none_or]
    cases unconnected : sockets.find? (UnconnectedOn kernel tuple ·) with
    | some t =>
      have bound := List.find?_some unconnected
      exact .unconnected t free (by simpa using bound)
    | none =>
      apply Finds.nothing free
      intro u
      have absent := List.find?_eq_none.mp unconnected u (all u)
      simpa using absent

end Search

/-- `127.0.0.1`. -/
def loopback : BitVec 32 := 0x0100007f

/-- The two sockets of `test_udp_overshadow`. -/
def overshadow : List (Call Bool) :=
  [.socket false, .bind false loopback 4444 (some 4444),
    .connect false loopback (bpfHtons 1111) 0 (some (loopback, loopback)),
    .socket true, .bind true loopback 4444 (some 4444),
    .connect true loopback (bpfHtons 1111) 0 (some (loopback, loopback))]

theorem fresh_of_unconnected {Socket : Type} {kernel : Kernel Socket} {s : Socket} {ip4 : BitVec 32}
    {port auto : BitVec 16} {route : Option (BitVec 32 × BitVec 32)}
    (unconnected : ∀ sock ∈ kernel s, sock.dstIp4 = 0) :
    Fresh kernel (.connect s ip4 port auto route) := by
  intro sock known full occupies
  obtain ⟨other, same, -, -, remote, -⟩ := occupies
  exact full.userIp4 (remote ▸ unconnected other same)

theorem exact_iff_overshadow :
    EachStep (step (search [false, true])) (Exact (search [false, true])) empty overshadow := by
  refine (exact_iff (search [false, true]) (finds_search (by decide)) overshadow).mpr ?_
  intro first stepped
  obtain rfl := Option.some.inj stepped
  refine ⟨trivial, fun second stepped => ?_⟩
  obtain rfl := Option.some.inj stepped
  refine ⟨trivial, fun third stepped => ?_⟩
  obtain rfl := Option.some.inj stepped
  refine ⟨fresh_of_unconnected (by decide), fun fourth stepped => ?_⟩
  obtain rfl := Option.some.inj stepped
  refine ⟨trivial, fun fifth stepped => ?_⟩
  obtain rfl := Option.some.inj stepped
  refine ⟨trivial, fun sixth stepped => ?_⟩
  exact ⟨fresh_of_unconnected (by decide), trivial⟩

/-- A socket that connects to the same peer twice. -/
def again : List (Call Bool) :=
  [.socket false, .bind false loopback 4444 (some 4444),
    .connect false loopback (bpfHtons 1111) 0 (some (loopback, loopback)),
    .connect false loopback (bpfHtons 1111) 0 (some (loopback, loopback))]

/-- There is no other socket, and the second `connect` is refused. -/
theorem not_exact :
    (∃ kernel, (again.take 3).foldlM (step (search [false, true])) empty = some kernel ∧
      kernel true = none ∧
      ∀ sock ∈ kernel false,
        verdict (search [false, true]) kernel sock loopback (bpfHtons 1111) = 0) ∧
      ¬ EachStep (step (search [false, true])) (Exact (search [false, true])) empty again := by
  constructor
  · exact ⟨_, rfl, rfl, by decide⟩
  · intro each
    obtain ⟨exact, -⟩ := (((each _ rfl).2 _ rfl).2 _ rfl).2 _ rfl
    obtain ⟨-, allowed⟩ := exact _ rfl ⟨by decide, by decide, by decide, by decide⟩
    exact allowed ⟨_, rfl, rfl, rfl, rfl, rfl⟩ (by decide)

end CloudflareBlog.Connectx.Connect4

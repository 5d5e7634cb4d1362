import CloudflareBlog.Connectx.Netlink

/-!
# `_connectx_udp`, exit by exit

One call of `_connectx_udp` with every exception that its system calls can raise, and what it leaves
in `SO_REUSEADDR`.  To set the option of an open socket does not fail.
-/

namespace CloudflareBlog.Connectx

open CloudflareBlog.Lib.Raising
open CloudflareBlog.Lib.Memory (littleEndian)

def wildcard : List String := ["0.0.0.0", "::"]

/-- `sd.setsockopt(SOL_SOCKET, SO_REUSEADDR, value)`. -/
def setReuse (value : Bool) : Program Host Exn Unit :=
  modify fun host => { host with reuse := value }

/-- `LIBC.connect` to `AF_UNSPEC`.  A failure is a result of -1, which is not looked at. -/
def dissolve : Program Host Exn Unit := modify fun host => host.record .dissolve

section

variable (system : System) (family : Family) (localAddr remoteAddr : Addr)

def getSrcRoute : Program Host Exn Addr := do
  perform system .routeSocket
  perform system .routeSetReuse
  perform system (.routeConnect remoteAddr)
  let localAddr ← perform system .routeName
  perform system .routeClose
  return localAddr

/-- `ephemeral_lo`, `ephemeral_hi` and `ephemeral_skip`, which are read once. -/
def ephemeralPorts : Program Host Exn Ephemeral := do
  let host ← get
  match host.ephemeral with
  | some ephemeral => return ephemeral
  | none => do
    let ephemeral ← readEphemeral
      (perform system (.readFile "/proc/sys/net/ipv4/ip_local_port_range"))
      (perform system (.readFile "/proc/sys/net/ipv4/ip_local_reserved_ports"))
    modify fun host => { host with ephemeral := some ephemeral }
    return ephemeral

/-- `random.randint`. -/
def randint (lo hi : Int) : Program Host Exn Int :=
  if hi < lo then throw .valueError else perform system (.randint lo hi)

/-- `_get_udp_port` of the system. -/
def udpPort : Program Host Exn Int :=
  getUdpPort (ephemeralPorts system) (randint system) fun port =>
    netlinkUdpLookup system family ⟨localAddr.host, port, []⟩ remoteAddr

/-- The address of the route in place of a wildcard. -/
def sourceAddr : Program Host Exn Addr :=
  if localAddr.host ∈ wildcard then do
    let port := localAddr.port
    let localAddr ← getSrcRoute system remoteAddr
    return { localAddr with port := port }
  else return localAddr

/-- A free port in place of 0. -/
def sourcePort : Program Host Exn Addr :=
  if localAddr.port = 0 then do
    let port ← udpPort system family localAddr remoteAddr
    return { localAddr with port := port }
  else return localAddr

/-- `_connectx_udp` up to the first change of the socket. -/
def prepare : Program Host Exn (Addr × Cookie) := do
  let localAddr ← sourceAddr system localAddr remoteAddr
  let localAddr ← sourcePort system family localAddr remoteAddr
  let cookie ← perform system .getCookie
  return (localAddr, cookie)

/-- `_connectx_udp` behind `bind`. -/
def critical (cookie : Cookie) : Program Host Exn Bool := do
  setReuse false
  let c ← netlinkUdpLookup system family localAddr remoteAddr
  if c ≠ some cookie then do
    dissolve
    setReuse true
    throw (.osError eaddrinuse)
  else do
    perform system (.connect remoteAddr)
    setReuse true
    return true

def connectxUdp : Program Host Exn Bool := do
  let (localAddr, cookie) ← prepare system family localAddr remoteAddr
  setReuse true
  perform system (.bind localAddr)
  critical system family localAddr remoteAddr cookie

end

/-! ## What happens before the first change -/

section

variable {system : System} {family : Family} {localAddr remoteAddr : Addr} {value : Bool}

theorem ephemeralPorts_keeps :
    Keeps (fun host => host.reuse = value) (ephemeralPorts system) := by
  refine .bind .get fun host => ?_
  cases host.ephemeral with
  | some ephemeral => exact .pure ephemeral
  | none =>
    refine .bind ?_ fun ephemeral => .bind (.modify fun _ set => set) fun _ => .pure ephemeral
    exact .bind (perform_keeps _) fun _ => .bind (.ofExcept _) fun _ => .bind (perform_keeps _)
      fun _ => .bind (.ofExcept _) fun _ => .pure _

theorem randint_keeps (lo hi : Int) :
    Keeps (fun host => host.reuse = value) (randint system lo hi) :=
  .ite (fun _ => .throw _) fun _ => perform_keeps _

theorem portLoop_keeps {property : Host → Prop} {lookup : Int → Program Host Exn (Option Cookie)}
    (keeps : ∀ port, Keeps property (lookup port)) (ephemeral : Ephemeral) (start : Int)
    (rounds : Nat) (off : Int) :
    Keeps property (portLoop lookup ephemeral start rounds off) := by
  induction rounds generalizing off with
  | zero => exact .throw _
  | succ rounds inductionHypothesis =>
    have later := inductionHypothesis (off + 1)
    refine .ite (fun _ => .ite (fun _ => later) fun _ => .ite (fun _ => .throw _) fun _ =>
      .ite (fun _ => .throw _) fun _ => .bind (keeps _) fun c => ?_) fun _ => .throw _
    cases c with
    | none => exact .pure _
    | some cookie => exact later

theorem udpPort_keeps :
    Keeps (fun host => host.reuse = value) (udpPort system family localAddr remoteAddr) :=
  .bind ephemeralPorts_keeps fun ephemeral => .bind (randint_keeps _ _) fun start =>
    portLoop_keeps (fun _ => netlinkUdpLookup_keeps _ _ _) ephemeral start _ 0

theorem getSrcRoute_keeps :
    Keeps (fun host => host.reuse = value) (getSrcRoute system remoteAddr) :=
  .bind (perform_keeps _) fun _ => .bind (perform_keeps _) fun _ => .bind (perform_keeps _)
    fun _ => .bind (perform_keeps _) fun _ => .bind (perform_keeps _) fun _ => .pure _

theorem sourceAddr_keeps :
    Keeps (fun host => host.reuse = value) (sourceAddr system localAddr remoteAddr) :=
  .ite (fun _ => .bind getSrcRoute_keeps fun _ => .pure _) fun _ => .pure _

theorem sourcePort_keeps :
    Keeps (fun host => host.reuse = value) (sourcePort system family localAddr remoteAddr) :=
  .ite (fun _ => .bind udpPort_keeps fun _ => .pure _) fun _ => .pure _

/-- Up to `setsockopt` the socket is not changed, whether the call gets there or raises. -/
theorem prepare_keeps :
    Keeps (fun host => host.reuse = value) (prepare system family localAddr remoteAddr) :=
  .bind sourceAddr_keeps fun _ => .bind sourcePort_keeps fun _ => .bind (perform_keeps _)
    fun _ => .pure _

end

/-! ## Where the lock stays -/

section

variable (system : System) (family : Family) (localAddr remoteAddr : Addr)

/-- The lookup does not get an answer that it can read, or the answer is the socket itself and `connect`
raises. -/
def Interrupted (cookie : Cookie) (host : Host) : Prop :=
  (¬ ∃ message b c, Exchange system family localAddr remoteAddr host message b ∧
    response b = .ok c) ∨
  ∃ message b raised, Exchange system family localAddr remoteAddr host message b ∧
    response b = .ok (some cookie) ∧
      system.reply (exchangeCalls host message) (.connect remoteAddr) = .error raised

/-- `bind` succeeds, and what follows it is interrupted. -/
def StaysLocked (host : Host) : Prop :=
  ∃ source cookie ready,
    exec (prepare system family localAddr remoteAddr) host = (.ok (source, cookie), ready) ∧
      system.reply ready.calls (.bind source) = .ok () ∧
      Interrupted system family source remoteAddr cookie
        { ready.record (.bind source) with reuse := false }

/-- The call raises before it has changed the socket, whose option is off. -/
def RaisesEarly (host : Host) : Prop :=
  host.reuse = false ∧ ∃ raised later,
    exec (prepare system family localAddr remoteAddr) host = (.error raised, later)

/-- What the call leaves in `SO_REUSEADDR`. -/
def reuseAfter (host : Host) : Bool :=
  (exec (connectxUdp system family localAddr remoteAddr) host).2.reuse

end

section

variable {system : System} {family : Family} {localAddr remoteAddr : Addr}

theorem exec_setReuse (value : Bool) (host : Host) :
    exec (setReuse value) host = (.ok (), { host with reuse := value }) := rfl

theorem interrupted_iff {cookie : Cookie} {host : Host} {message b : Bytes}
    (exchange : Exchange system family localAddr remoteAddr host message b) :
    Interrupted system family localAddr remoteAddr cookie host ↔
      (¬ ∃ c, response b = .ok c) ∨ response b = .ok (some cookie) ∧
        ∃ raised, system.reply (exchangeCalls host message) (.connect remoteAddr) =
          .error raised := by
  constructor
  · rintro (silent | ⟨other, b', raised, again, own, failed⟩)
    · exact .inl fun ⟨c, read⟩ => silent ⟨message, b, c, exchange, read⟩
    · obtain ⟨rfl, rfl⟩ := exchange.unique again
      exact .inr ⟨own, raised, failed⟩
  · rintro (unreadable | ⟨own, raised, failed⟩)
    · refine .inl fun ⟨other, b', c, again, read⟩ => unreadable ?_
      obtain ⟨rfl, rfl⟩ := exchange.unique again
      exact ⟨c, read⟩
    · exact .inr ⟨message, b, raised, exchange, own, failed⟩

/-- The lock is released exactly when nothing interrupts. -/
theorem critical_reuse (cookie : Cookie) (host : Host) :
    (exec (critical system family localAddr remoteAddr cookie) host).2.reuse = true ↔
      ¬ Interrupted system family localAddr remoteAddr cookie { host with reuse := false } := by
  rw [critical, exec_bind_ok (exec_setReuse false host)]
  generalize start : { host with reuse := false } = locked
  have off : locked.reuse = false := by rw [← start]
  by_cases answered : ∃ message b, Exchange system family localAddr remoteAddr locked message b
  · obtain ⟨message, b, exchange⟩ := answered
    have looked := exec_netlinkUdpLookup exchange
    rw [interrupted_iff exchange]
    cases answer : response b with
    | error raised =>
      -- the exception of the lookup is not caught, so the flag stays off
      rw [answer] at looked
      rw [exec_bind_error looked]
      simp [off]
    | ok c =>
      rw [answer] at looked
      rw [exec_bind_ok looked]
      by_cases own : c = some cookie
      · rw [if_neg (not_not_intro own)]
        cases connected : system.reply (exchangeCalls locked message) (.connect remoteAddr) with
        | error raised =>
          rw [exec_bind_error (exec_perform_eq connected)]
          simp [off, own]
        | ok done =>
          rw [exec_bind_ok (exec_perform_eq connected)]
          exact iff_of_true rfl (by simp)
      · -- another socket is found: the flag is set again on the way to the exception
        rw [if_pos own]
        exact iff_of_true rfl (by simp [own])
  · obtain ⟨raised, later, looked⟩ := netlinkUdpLookup_raises answered
    have kept : (exec (netlinkUdpLookup system family localAddr remoteAddr) locked).2.reuse = false :=
      netlinkUdpLookup_keeps family localAddr remoteAddr locked off
    rw [looked] at kept
    rw [exec_bind_error looked, kept]
    refine iff_of_false Bool.false_ne_true fun released => released (.inl ?_)
    exact fun ⟨message, b, c, exchange, _⟩ => answered ⟨message, b, exchange⟩

/-- The lock stays behind `bind` only. -/
theorem staysLocked_iff {host ready : Host} {source : Addr} {cookie : Cookie}
    (ran : exec (prepare system family localAddr remoteAddr) host = (.ok (source, cookie), ready)) :
    StaysLocked system family localAddr remoteAddr host ↔
      system.reply ready.calls (.bind source) = .ok () ∧
        Interrupted system family source remoteAddr cookie
          { ready.record (.bind source) with reuse := false } := by
  constructor
  · rintro ⟨_, _, _, other, locked⟩
    rw [ran] at other
    cases other
    exact locked
  · exact fun locked => ⟨source, cookie, ready, ran, locked⟩

theorem reuseAfter_early {host later : Host} {raised : Exn}
    (ran : exec (prepare system family localAddr remoteAddr) host = (.error raised, later)) :
    reuseAfter system family localAddr remoteAddr host = host.reuse := by
  have kept : (exec (prepare system family localAddr remoteAddr) host).2.reuse = host.reuse :=
    prepare_keeps host rfl
  rw [ran] at kept
  rw [reuseAfter, connectxUdp, exec_bind_error ran]
  exact kept

theorem reuseAfter_prepared {host ready : Host} {source : Addr} {cookie : Cookie}
    (ran : exec (prepare system family localAddr remoteAddr) host = (.ok (source, cookie), ready)) :
    reuseAfter system family localAddr remoteAddr host = true ↔
      ¬ StaysLocked system family localAddr remoteAddr host := by
  rw [staysLocked_iff ran, reuseAfter, connectxUdp, exec_bind_ok ran]
  change (exec (setReuse true >>= fun _ => perform system (.bind source) >>= fun _ =>
    critical system family source remoteAddr cookie) ready).2.reuse = true ↔ _
  rw [exec_bind_ok (exec_setReuse true ready)]
  have bound : exec (perform system (.bind source)) { ready with reuse := true } =
    (system.reply ready.calls (.bind source), _) := exec_perform _ _
  cases answer : system.reply ready.calls (.bind source) with
  | error raised =>
    -- not bound: the flag is still the one that was set before `bind`
    rw [answer] at bound
    rw [exec_bind_error bound]
    exact iff_of_true rfl fun locked => nomatch locked.1
  | ok done =>
    rw [answer] at bound
    rw [exec_bind_ok bound, critical_reuse, and_iff_right rfl]
    rfl

/-- The call leaves `SO_REUSEADDR` set exactly when it neither raises early nor stays locked. -/
theorem connectxUdp_releases_iff (host : Host) :
    reuseAfter system family localAddr remoteAddr host = true ↔
      ¬ RaisesEarly system family localAddr remoteAddr host ∧
        ¬ StaysLocked system family localAddr remoteAddr host := by
  cases ran : exec (prepare system family localAddr remoteAddr) host with
  | mk result ready =>
    cases result with
    | error raised =>
      have free : ¬ StaysLocked system family localAddr remoteAddr host := by
        rintro ⟨source, cookie, other, prepared, -⟩
        rw [ran] at prepared
        cases prepared
      have early : RaisesEarly system family localAddr remoteAddr host ↔ host.reuse = false :=
        ⟨fun early => early.1, fun off => ⟨off, raised, ready, ran⟩⟩
      rw [reuseAfter_early ran, and_iff_left free, early, Bool.not_eq_false]
    | ok prepared =>
      have notEarly : ¬ RaisesEarly system family localAddr remoteAddr host := by
        rintro ⟨-, raised, later, early⟩
        rw [ran] at early
        cases early
      rw [and_iff_right notEarly]
      exact reuseAfter_prepared ran

end

def eacces : Nat := 13

/-- A socket without `SO_BROADCAST` and with the cookie 1: the lookup finds it, and it must not connect
to a broadcast address. -/
def withoutBroadcast : System where
  inetPton _ host := .ok (if host = "192.0.2.1" then [192, 0, 2, 1] else [255, 255, 255, 255])
  reply _ call :=
    match call with
    | .getCookie => .ok (littleEndian 8 1)
    | .nlRecv _ => .ok (littleEndian 4 88 ++ littleEndian 2 sockDiagByFamily ++
        List.replicate 54 0 ++ littleEndian 8 1 ++ List.replicate 20 0)
    | .connect _ => .error (.osError eacces)
    | .routeName => .ok ⟨"192.0.2.1", 4000, []⟩
    | .readFile _ => .ok []
    | .randint lo _ => .ok lo
    | .dissolve => .ok 0
    | .routeSocket | .routeSetReuse | .routeConnect _ | .routeClose | .nlSocket | .nlConnect
      | .nlSend _ | .bind _ => .ok ()

/-- The exception of `connect` leaves the bound socket without `SO_REUSEADDR`. -/
theorem connectxUdp_not_released :
    (exec (connectxUdp withoutBroadcast .inet ⟨"192.0.2.1", 4000, []⟩ ⟨"255.255.255.255", 53, []⟩)
      ⟨true, false, none, []⟩).1 = .error (.osError eacces) ∧
    ¬ reuseAfter withoutBroadcast .inet ⟨"192.0.2.1", 4000, []⟩ ⟨"255.255.255.255", 53, []⟩
      ⟨true, false, none, []⟩ = true := by
  decide +kernel

end CloudflareBlog.Connectx

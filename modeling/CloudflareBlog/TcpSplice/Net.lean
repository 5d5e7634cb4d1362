import CloudflareBlog.Lib.ByteOrder
import CloudflareBlog.Lib.CString

/-!
# Addresses as text

`net_ntop` writes a socket address as `address:port`, an IPv6 address between brackets.
`net_parse_sockaddr` splits a text at its last colon, so that an IPv6 address needs no brackets, and
does not take them off: no text of an IPv6 address is accepted again (`roundTrip_iff`).
-/

namespace CloudflareBlog.TcpSplice.Net

open Lib.CString

/-! ## The code -/

/-- `struct in_addr` and `struct in6_addr`. -/
abbrev InAddr := BitVec 32
abbrev In6Addr := BitVec 128

/-- `struct sockaddr_storage`, by `ss_family`.  The ports are in network order. -/
inductive SockaddrStorage where
  | inet (sinAddr : InAddr) (sinPort : BitVec 16)
  | inet6 (sin6Addr : In6Addr) (sin6Port : BitVec 16)
  /-- All other families, 0 among them. -/
  | other
  deriving DecidableEq, Repr

/-- `inet_ntop`, in a buffer that is large enough, and `inet_pton`, `none` where it does not
return 1. -/
structure Inet where
  ntop : InAddr → List Char
  ntop6 : In6Addr → List Char
  pton : List Char → Option InAddr
  pton6 : List Char → Option In6Addr

/-- `inet_ntop` is `NULL` when the text does not fit. -/
def inetNtop (size : Nat) (text : List Char) : Option (List Char) :=
  if text.length < size then some text else none

/-- `htons`, on a machine with the low byte first. -/
def htons (value : BitVec 16) : BitVec 16 := Lib.swap16 value

def fatal {α : Type} (message : String) : Except String α :=
  .error ("[-] PROGRAM ABORT : " ++ message)

def pfatal {α : Type} (message : String) : Except String α :=
  .error ("[-] SYSTEM ERROR : " ++ message)

def inet6Addrstrlen : Nat := 46

section Code

variable (inet : Inet)

def netNtop (ss : SockaddrStorage) : Except String (List Char) :=
  match ss with
  | .inet sinAddr sinPort =>
    let port := (htons sinPort).toNat
    match inetNtop (inet6Addrstrlen + 1) (inet.ntop sinAddr) with
    | none => pfatal "inet_ntop()"
    | some s => .ok (snprintf (inet6Addrstrlen + 32) (s ++ ':' :: printInt port))
  | .inet6 sin6Addr sin6Port =>
    match inetNtop (inet6Addrstrlen + 1) (inet.ntop6 sin6Addr) with
    | none => pfatal "inet_ntop()"
    | some s =>
      let port := (htons sin6Port).toNat
      .ok (snprintf (inet6Addrstrlen + 32) ('[' :: s ++ ']' :: ':' :: printInt port))
  | .other => fatal ""

/-- `net_addr_from_name`, on a zeroed address. -/
def netAddrFromName (host : List Char) : Except String SockaddrStorage :=
  match inet.pton host with
  | some sinAddr => .ok (.inet sinAddr 0)
  | none =>
    match inet.pton6 host with
    | some sin6Addr => .ok (.inet6 sin6Addr 0)
    | none => pfatal ("inet_pton(" ++ String.ofList host ++ ")")

/-- `net_parse_sockaddr`.  It returns -1 whenever it returns. -/
def netParseSockaddr (addr : List Char) : Except String (SockaddrStorage × Int) :=
  match strrchr addr ':' with
  | none => fatal (String.ofList addr ++ " doesn't contain a port number.")
  | some colon =>
    let tail := addr.drop (colon + 1)
    if tail = [] then fatal (String.ofList addr ++ " doesn't contain a port number.")
    else
      let (port, endptr) := strtol tail
      if port < 0 ∨ port > 65535 ∨ endptr ≠ [] then
        fatal ("Invalid port number " ++ String.ofList tail)
      else do
        let addrLen := if colon > 254 then 254 else colon
        let ss ← netAddrFromName inet (addr.take addrLen)
        match ss with
        | .inet sinAddr _ => return (.inet sinAddr (htons (BitVec.ofInt 16 port)), -1)
        | .inet6 sin6Addr _ => return (.inet6 sin6Addr (htons (BitVec.ofInt 16 port)), -1)
        | .other => fatal ""

end Code

/-- What is printed for an address is accepted, and gives the address again. -/
def RoundTrip (inet : Inet) (ss : SockaddrStorage) : Prop :=
  ∃ text returned, netNtop inet ss = .ok text ∧ netParseSockaddr inet text = .ok (ss, returned)

/-! ## The library -/

/-- What is relied on for one address: `inet_pton` reads what `inet_ntop` writes, and it is no longer
than documented. -/
def Inet.Reads (inet : Inet) : SockaddrStorage → Prop
  | .inet sinAddr _ =>
    inet.pton (inet.ntop sinAddr) = some sinAddr ∧ (inet.ntop sinAddr).length < 16
  | .inet6 sin6Addr _ =>
    inet.pton6 (inet.ntop6 sin6Addr) = some sin6Addr ∧
      (inet.ntop6 sin6Addr).length < inet6Addrstrlen
  | .other => True

/-- The characters of addresses: digits, hexadecimal for IPv6, and what separates them. -/
def isAddressChar (c : Char) : Bool :=
  c.isDigit || ('a' ≤ c && c ≤ 'f') || ('A' ≤ c && c ≤ 'F') || c = ':' || c = '.'

/-- `inet_pton` accepts no other characters. -/
structure Inet.Strict (inet : Inet) : Prop where
  pton : ∀ text addr, inet.pton text = some addr → text.all isAddressChar
  pton6 : ∀ text addr, inet.pton6 text = some addr → text.all isAddressChar

/-! ## Reading -/

theorem htons_htons (value : BitVec 16) : htons (htons value) = value := Lib.swap16_swap16 value

def SockaddrStorage.withPort (port : BitVec 16) : SockaddrStorage → SockaddrStorage
  | .inet sinAddr _ => .inet sinAddr (htons port)
  | .inet6 sin6Addr _ => .inet6 sin6Addr (htons port)
  | .other => .other

variable {inet : Inet}

theorem netAddrFromName_ne_other (host : List Char) :
    netAddrFromName inet host ≠ .ok .other := by
  unfold netAddrFromName pfatal
  cases inet.pton host with
  | some _ => simp
  | none =>
    cases inet.pton6 host with
    | some _ => simp
    | none => simp

/-- A host and a port are split where they were put together. -/
theorem netParseSockaddr_append {host : List Char} (short : host.length ≤ 254) (port : BitVec 16) :
    netParseSockaddr inet (host ++ ':' :: printInt port.toNat) =
      (netAddrFromName inet host).map fun ss => (ss.withPort port, -1) := by
  have colon : strrchr (host ++ ':' :: printInt port.toNat) ':' = some host.length :=
    strrchr_append (not_mem_printInt rfl _) host
  have tail : (host ++ ':' :: printInt port.toNat).drop (host.length + 1) = printInt port.toNat := by
    simp
  have cut : (host ++ ':' :: printInt port.toNat).take
      (if host.length > 254 then 254 else host.length) = host := by
    rw [if_neg (Nat.not_lt.mpr short), List.take_left']
    rfl
  have read : strtol (printInt port.toNat) = ((port.toNat : Int), []) :=
    strtol_printInt (Nat.lt_trans port.isLt (by decide))
  have valid : ¬ ((port.toNat : Int) < 0 ∨ (port.toNat : Int) > 65535 ∨ ([] : List Char) ≠ []) := by
    have bound := port.isLt
    simp only [ne_eq, not_true, or_false]
    omega
  -- a port is below `2 ^ 16`, so `htons` cuts nothing off
  have kept : BitVec.ofInt 16 port.toNat = port := by simp
  simp only [netParseSockaddr, colon, tail, cut, read, if_neg (printInt_ne_nil _), if_neg valid, kept]
  cases named : netAddrFromName inet host with
  | error _ => rfl
  | ok ss =>
    cases ss with
    | inet _ _ => rfl
    | inet6 _ _ => rfl
    | other => exact absurd named (netAddrFromName_ne_other host)

/-- A bracket is no part of an address. -/
theorem netAddrFromName_bracket (strict : inet.Strict) (rest : List Char) :
    netAddrFromName inet ('[' :: rest) =
      pfatal ("inet_pton(" ++ String.ofList ('[' :: rest) ++ ")") := by
  have bracket : ('[' :: rest).all isAddressChar ≠ true := by
    rw [List.all_cons, show isAddressChar '[' = false by decide, Bool.false_and]
    exact Bool.false_ne_true
  have noInet : inet.pton ('[' :: rest) = none :=
    Option.eq_none_iff_forall_ne_some.mpr fun addr accepted =>
      bracket (strict.pton _ addr accepted)
  have noInet6 : inet.pton6 ('[' :: rest) = none :=
    Option.eq_none_iff_forall_ne_some.mpr fun addr accepted =>
      bracket (strict.pton6 _ addr accepted)
  simp only [netAddrFromName, noInet, noInet6]

/-! ## Printing -/

theorem length_port (port : BitVec 16) : (printInt port.toNat).length ≤ 5 :=
  length_printInt_le (by decide) (Nat.lt_trans port.isLt (by decide))

theorem inetNtop_of_lt {size : Nat} {text : List Char} (fits : text.length < size) :
    inetNtop size text = some text :=
  if_pos fits

theorem netNtop_inet {sinAddr : InAddr} (short : (inet.ntop sinAddr).length < 16)
    (sinPort : BitVec 16) :
    netNtop inet (.inet sinAddr sinPort) =
      .ok (inet.ntop sinAddr ++ ':' :: printInt (htons sinPort).toNat) := by
  have port := length_port (htons sinPort)
  have size : inet6Addrstrlen = 46 := rfl
  have written : inetNtop (inet6Addrstrlen + 1) (inet.ntop sinAddr) = some (inet.ntop sinAddr) :=
    inetNtop_of_lt (by omega)
  simp only [netNtop, written]
  rw [snprintf_of_lt]
  simp only [List.length_append, List.length_cons]
  omega

theorem netNtop_inet6 {sin6Addr : In6Addr}
    (short : (inet.ntop6 sin6Addr).length < inet6Addrstrlen) (sin6Port : BitVec 16) :
    netNtop inet (.inet6 sin6Addr sin6Port) =
      .ok (('[' :: inet.ntop6 sin6Addr ++ [']']) ++ ':' :: printInt (htons sin6Port).toNat) := by
  have port := length_port (htons sin6Port)
  have size : inet6Addrstrlen = 46 := rfl
  have written : inetNtop (inet6Addrstrlen + 1) (inet.ntop6 sin6Addr) =
      some (inet.ntop6 sin6Addr) :=
    inetNtop_of_lt (by omega)
  simp only [netNtop, written, List.append_assoc, List.cons_append, List.nil_append]
  rw [snprintf_of_lt]
  simp only [List.length_append, List.length_cons]
  omega

/-- An IPv6 address that was printed is refused. -/
theorem netParseSockaddr_inet6 (strict : inet.Strict) {sin6Addr : In6Addr}
    (short : (inet.ntop6 sin6Addr).length < inet6Addrstrlen) (port : BitVec 16) :
    netParseSockaddr inet (('[' :: inet.ntop6 sin6Addr ++ [']']) ++ ':' :: printInt port.toNat) =
      pfatal ("inet_pton(" ++ String.ofList ('[' :: inet.ntop6 sin6Addr ++ [']']) ++ ")") := by
  have fits : ('[' :: inet.ntop6 sin6Addr ++ [']']).length ≤ 254 := by
    simp only [List.length_append, List.length_cons, List.length_nil]
    unfold inet6Addrstrlen at short
    omega
  rw [netParseSockaddr_append fits, List.cons_append, netAddrFromName_bracket strict]
  rfl

/-- For every address and port: what is printed is read back exactly for the family `AF_INET`. -/
theorem roundTrip_iff (inet : Inet) (strict : inet.Strict) (ss : SockaddrStorage)
    (reads : inet.Reads ss) :
    RoundTrip inet ss ↔ ∃ sinAddr sinPort, ss = .inet sinAddr sinPort := by
  cases ss with
  | inet sinAddr sinPort =>
    obtain ⟨inverse, short⟩ := reads
    apply iff_of_true
    · refine ⟨_, -1, netNtop_inet short sinPort, ?_⟩
      rw [netParseSockaddr_append (by omega)]
      simp [netAddrFromName, inverse, Except.map, SockaddrStorage.withPort, htons_htons]
    · exact ⟨sinAddr, sinPort, rfl⟩
  | inet6 sin6Addr sin6Port =>
    obtain ⟨_, short⟩ := reads
    apply iff_of_false
    · -- the brackets are still around the host when it is split off
      rintro ⟨text, returned, printed, parsed⟩
      rw [netNtop_inet6 short] at printed
      cases printed
      rw [netParseSockaddr_inet6 strict short] at parsed
      cases parsed
    · simp
  | other =>
    apply iff_of_false
    · rintro ⟨text, returned, printed, _⟩
      cases printed
    · simp

/-- The loopback addresses. -/
def loopback : Inet where
  ntop addr := if addr = 0x0100007f then "127.0.0.1".toList else []
  ntop6 addr := if addr = 1 <<< 120 then "::1".toList else []
  pton text := if text = "127.0.0.1".toList then some 0x0100007f else none
  pton6 text := if text = "::1".toList then some (1 <<< 120) else none

theorem loopback_strict : loopback.Strict := by
  constructor
  · intro text addr accepted
    simp only [loopback, Option.ite_none_right_eq_some] at accepted
    rw [accepted.1]
    decide
  · intro text addr accepted
    simp only [loopback, Option.ite_none_right_eq_some] at accepted
    rw [accepted.1]
    decide

/-- `127.0.0.1:8080`. -/
theorem roundTrip_loopback : RoundTrip loopback (.inet 0x0100007f (htons 8080)) :=
  (roundTrip_iff loopback loopback_strict (.inet 0x0100007f (htons 8080))
    ⟨by decide, by decide⟩).mpr ⟨0x0100007f, htons 8080, rfl⟩

/-- `[::1]:8080` ends the program. -/
theorem not_roundTrip_loopback :
    loopback.Strict ∧ loopback.Reads (.inet6 (1 <<< 120) (htons 8080)) ∧
      netNtop loopback (.inet6 (1 <<< 120) (htons 8080)) = .ok "[::1]:8080".toList ∧
      netParseSockaddr loopback "[::1]:8080".toList = pfatal "inet_pton([::1])" ∧
      ¬ RoundTrip loopback (.inet6 (1 <<< 120) (htons 8080)) := by
  have printed : netNtop loopback (.inet6 (1 <<< 120) (htons 8080)) = .ok "[::1]:8080".toList := by
    decide
  have refused : netParseSockaddr loopback "[::1]:8080".toList = pfatal "inet_pton([::1])" := by
    decide
  refine ⟨loopback_strict, ⟨by decide, by decide⟩, printed, refused, ?_⟩
  rintro ⟨text, returned, same, parsed⟩
  rw [printed] at same
  cases same
  rw [refused] at parsed
  cases parsed

end CloudflareBlog.TcpSplice.Net

import CloudflareBlog.Lib.Buffer
import CloudflareBlog.Lib.ByteOrder

/-!
# Reading packets

Numbers at offsets of a packet.  A program that loads a number gets it in the order of the host, the
low byte first; the packet has it in the order of the network.  There is no number where the packet
has ended.
-/

namespace CloudflareBlog.Lib.Packet

open Buffer

def byteAt (packet : List Byte) (offset : Nat) : Option Byte := packet[offset]?

def load16 (packet : List Byte) (offset : Nat) : Option (BitVec 16) :=
  (byteAt packet offset).bind fun low => (byteAt packet (offset + 1)).map fun high => high ++ low

def load32 (packet : List Byte) (offset : Nat) : Option (BitVec 32) :=
  (load16 packet offset).bind fun low => (load16 packet (offset + 2)).map fun high => high ++ low

/-- The number as it was sent. -/
def network16 (packet : List Byte) (offset : Nat) : Option (BitVec 16) :=
  (byteAt packet offset).bind fun high => (byteAt packet (offset + 1)).map fun low => high ++ low

variable {packet : List Byte} {offset : Nat}

theorem exists_byteAt (inside : offset < packet.length) : ∃ byte, byteAt packet offset = some byte :=
  ⟨packet[offset], List.getElem?_eq_getElem inside⟩

theorem lt_of_byteAt {byte : Byte} (read : byteAt packet offset = some byte) :
    offset < packet.length :=
  (List.getElem?_eq_some_iff.mp read).1

theorem network16_of_bytes {high low : Byte} (first : byteAt packet offset = some high)
    (second : byteAt packet (offset + 1) = some low) :
    network16 packet offset = some (high ++ low) := by
  rw [network16, first, Option.bind_some, second, Option.map_some]

theorem bytes_of_network16 {value : BitVec 16} (read : network16 packet offset = some value) :
    ∃ high low, byteAt packet offset = some high ∧ byteAt packet (offset + 1) = some low ∧
      value = high ++ low := by
  obtain ⟨high, first, mapped⟩ := Option.bind_eq_some_iff.mp read
  obtain ⟨low, second, rfl⟩ := Option.map_eq_some_iff.mp mapped
  exact ⟨high, low, first, second, rfl⟩

theorem exists_network16 (inside : offset + 2 ≤ packet.length) :
    ∃ value, network16 packet offset = some value := by
  obtain ⟨high, first⟩ := exists_byteAt (show offset < packet.length by omega)
  obtain ⟨low, second⟩ := exists_byteAt (show offset + 1 < packet.length by omega)
  exact ⟨high ++ low, network16_of_bytes first second⟩

theorem length_of_network16 {value : BitVec 16} (read : network16 packet offset = some value) :
    offset + 2 ≤ packet.length := by
  obtain ⟨high, low, -, second, -⟩ := bytes_of_network16 read
  exact lt_of_byteAt second

/-- What is loaded is what was sent, in the other order. -/
theorem load16_of_network16 {value : BitVec 16} (read : network16 packet offset = some value) :
    load16 packet offset = some (swap16 value) := by
  obtain ⟨high, low, first, second, rfl⟩ := bytes_of_network16 read
  rw [load16, first, Option.bind_some, second, Option.map_some, swap16_append]

theorem load32_of_network16 {first second : BitVec 16} (high : network16 packet offset = some first)
    (low : network16 packet (offset + 2) = some second) :
    load32 packet offset = some (swap16 second ++ swap16 first) := by
  rw [load32, load16_of_network16 high, Option.bind_some, load16_of_network16 low, Option.map_some]

end CloudflareBlog.Lib.Packet

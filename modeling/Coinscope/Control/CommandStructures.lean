/-
# Control.CommandStructures -- the control channel on the wire

A control message is a version byte, a length and a type byte in front of `length`
bytes of payload; integers are in network byte order.  A payload is read through a
pointer, with no regard to where it ends, so it is memory here (`fetch`): the bytes
of the read buffer, and behind its allocation whatever the process has there.

* `controls` -- the framing of the channel.
* `CommandMsg` -- the fields `struct command_msg` names, at the offsets it gives them.
* `sockaddrToWire`, `wireToSockaddr` -- the 19-byte addresses of the channel.
-/
import Coinscope.Shared.LogFormat
import Coinscope.Theory.Framing

namespace Coinscope.Control

open Coinscope.Shared
open Coinscope.Theory.Bytes
open Coinscope.Theory.Framing

set_option autoImplicit false

/-! ## Constants -/

def COMMAND_GET_CXN : UInt8 := 1
def COMMAND_DISCONNECT : UInt8 := 2
def COMMAND_SEND_MSG : UInt8 := 3

def BROADCAST_TARGET : UInt32 := 0xFFFFFFFF

def BITCOIN_PACKED_MESSAGE : UInt8 := 1
def COMMAND : UInt8 := 2
def REGISTER : UInt8 := 3
def CONNECT : UInt8 := 4

def ADDR_FAMILY_IPV4 : UInt8 := 4
def ADDR_FAMILY_IPV6 : UInt8 := 6
def ADDR_FAMILY_ONION : UInt8 := 10

/-! ## Messages -/

/-- `sizeof(struct message)`. -/
def messageSize : Nat := 6

/-- `msg->version`. -/
def messageVersion (memory : List UInt8) : UInt8 := memory.getD 0 0

/-- `ntoh(msg->length)`. -/
def messageLength (memory : List UInt8) : Nat := ofBE (slice 1 4 memory)

/-- `msg->message_type`. -/
def messageType (memory : List UInt8) : UInt8 := memory.getD 5 0

/-- The payload the length field announces. -/
def messagePayload (memory : List UInt8) : List UInt8 :=
  slice messageSize (messageLength memory) memory

/-- The framing of the control channel. -/
def controls : Format UInt8 where
  header := messageSize
  header_pos := by decide
  bodyLength := messageLength

theorem controls_size (stream : List UInt8) :
    controls.size stream = messageSize + messageLength stream := by
  show messageSize + messageLength (stream.take messageSize) = _
  rw [messageLength, messageLength, slice_take _ (by decide)]

/-- The type and the payload of a frame. -/
def content (frame : List UInt8) : UInt8 × List UInt8 :=
  (messageType frame, frame.drop messageSize)

/-! ## Memory -/

/-- The byte at an offset from the start of a buffer; `beyond` is what lies behind
its allocation. -/
def peek (memory : List UInt8) (beyond : Nat → UInt8) (i : Nat) : UInt8 :=
  if inside : i < memory.length then memory.get ⟨i, inside⟩ else beyond (i - memory.length)

/-- `n` bytes at an offset from the start of a buffer. -/
def fetch (memory : List UInt8) (beyond : Nat → UInt8) (off n : Nat) : List UInt8 :=
  (List.range n).map fun i => peek memory beyond (off + i)

@[simp] theorem length_fetch (memory : List UInt8) (beyond : Nat → UInt8) (off n : Nat) :
    (fetch memory beyond off n).length = n := by simp [fetch]

/-- Inside the allocation the bytes are those of the buffer. -/
theorem fetch_inside {memory : List UInt8} {off n : Nat} (inside : off + n ≤ memory.length)
    (beyond : Nat → UInt8) : fetch memory beyond off n = slice off n memory := by
  apply List.ext_getElem
  · rw [length_fetch, slice_length inside]
  · intro i here _
    rw [length_fetch] at here
    have there : off + i < memory.length := by omega
    simp [fetch, slice, peek, there]

/-- `struct command_msg`, read at the payload of a message.  The targets are read one
by one, as many as `target_cnt` says. -/
structure CommandMsg where
  command : UInt8
  messageId : UInt32
  targets : List UInt32
  deriving DecidableEq

/-- A `uint32_t` in network byte order. -/
def fetch32 (memory : List UInt8) (beyond : Nat → UInt8) (off : Nat) : UInt32 :=
  UInt32.ofNat (ofBE (fetch memory beyond off 4))

/-- The command at the payload of the message in `memory`. -/
def commandMsg (memory : List UInt8) (beyond : Nat → UInt8) : CommandMsg where
  command := peek memory beyond messageSize
  messageId := fetch32 memory beyond (messageSize + 1)
  targets := (List.range (fetch32 memory beyond (messageSize + 5)).toNat).map fun i =>
    fetch32 memory beyond (messageSize + 9 + 4 * i)

/-! ## Addresses -/

/-- `struct wire_addr`. -/
structure WireAddr where
  family : UInt8
  addr : List UInt8
  port : List UInt8
  addrSize : addr.length = 16
  portSize : port.length = 2
  deriving DecidableEq

namespace WireAddr

/-- The 19 bytes of a `wire_addr`. -/
def bytes (a : WireAddr) : List UInt8 := a.family :: (a.addr ++ a.port)

theorem length_bytes (a : WireAddr) : a.bytes.length = 19 := by
  simp [bytes, a.addrSize, a.portSize]

/-- The address a buffer has at an offset. -/
def fetched (memory : List UInt8) (beyond : Nat → UInt8) (off : Nat) : WireAddr where
  family := peek memory beyond off
  addr := fetch memory beyond (off + 1) 16
  port := fetch memory beyond (off + 17) 2
  addrSize := length_fetch ..
  portSize := length_fetch ..

end WireAddr

/-- `sockaddr_to_wire(ss, wa)`. -/
def sockaddrToWire (ss : SockaddrStorage) : WireAddr :=
  if ss.family = AF_INET then
    { family := ADDR_FAMILY_IPV4, addr := ss.sinAddr ++ List.replicate 12 0, port := ss.port
      addrSize := by
        rw [List.length_append, SockaddrStorage.sinAddr, slice_length (by rw [ss.size]; decide),
          List.length_replicate]
      portSize := slice_length (by rw [ss.size]; decide) }
  else if ss.family = AF_INET6 then
    { family := ADDR_FAMILY_IPV6, addr := ss.sin6Addr, port := ss.port
      addrSize := slice_length (by rw [ss.size]; decide)
      portSize := slice_length (by rw [ss.size]; decide) }
  else
    { family := 0, addr := List.replicate 16 0, port := List.replicate 2 0
      addrSize := List.length_replicate ..
      portSize := List.length_replicate .. }

/-- `wire_to_sockaddr(wa, ss)`. -/
def wireToSockaddr (wa : WireAddr) : SockaddrStorage :=
  if wa.family = ADDR_FAMILY_IPV4 then
    { bytes := le 2 AF_INET ++ wa.port ++ wa.addr.take 4 ++ List.replicate 120 0
      size := by simp [wa.portSize, wa.addrSize] }
  else if wa.family = ADDR_FAMILY_IPV6 ∨ wa.family = ADDR_FAMILY_ONION then
    { bytes := le 2 AF_INET6 ++ wa.port ++ List.replicate 4 0 ++ wa.addr ++ List.replicate 104 0
      size := by simp [wa.portSize, wa.addrSize] }
  else { bytes := List.replicate 128 0, size := List.length_replicate .. }

/-- One `struct connection_info`, 42 bytes. -/
def connectionInfo (handleId : UInt32) (remote localAddr : SockaddrStorage) : List UInt8 :=
  be 4 handleId.toNat ++ (sockaddrToWire remote).bytes ++ (sockaddrToWire localAddr).bytes

theorem length_connectionInfo (handleId : UInt32) (remote localAddr : SockaddrStorage) :
    (connectionInfo handleId remote localAddr).length = 42 := by
  simp [connectionInfo, WireAddr.length_bytes]

/-! ## Texts -/

/-- A literal of the source. -/
def text (literal : String) : List UInt8 := ascii literal.toList

/-- An unsigned number through `operator<<`. -/
def decimal (n : Nat) : List UInt8 := ascii (Nat.toDigits 10 n)

/-- An unsigned number through `operator<<` behind `hex`. -/
def hexadecimal (n : Nat) : List UInt8 := ascii (Nat.toDigits 16 n)

/-- `operator<<` of a control message. -/
def showMessage (memory : List UInt8) : List UInt8 :=
  text "MSG \x7b length => " ++ decimal (messageLength memory) ++ text ", type => " ++
    decimal (messageType memory).toNat ++ text ", payload => ommitted\x7d"

/-- `operator<<` of a packed message. -/
def showPackedMessage (m : PackedMessage) : List UInt8 :=
  text "MSG \x7b length => " ++ decimal m.length ++ text ", magic => 0x" ++
    hexadecimal (ofLE (slice 0 4 m.buffer)) ++ text ", command => " ++ cString m.command ++
    text ", checksum => 0x" ++ hexadecimal (ofLE (slice 20 4 m.buffer)) ++
    text ", payload => ommitted\x7d"

end Coinscope.Control

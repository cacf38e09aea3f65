/-
# Clients.EasyMessages -- the messages of the C++ client library

`ctrl::easy` builds control messages for the C++ clients.  A message is a
`wrapped_buffer` that starts with a `struct message`; `serialize` sends as many bytes of
it as the header announces.

`connect_msg` copies two `sockaddr_in` into its payload, 32 bytes.  The connector takes
the payload for two `wire_addr`, 38 bytes, whose first byte is a family of the channel;
the first byte of a `sockaddr_in` is the low byte of `AF_INET`, which is none of these.

* `EasyMessage.serialize` -- what goes out.
* `content_commandMsg`, `content_connectMsg` -- what the connector finds in it.
* `connect_msg_elsewhere` -- where the connector connects to.
-/
import Coinscope.Attempts.RemoteAddresses

namespace Coinscope.Clients

open Coinscope.Shared
open Coinscope.Theory
open Coinscope.Theory.Bytes
open Coinscope.Control

set_option autoImplicit false

/-! ## Messages -/

/-- `class message`: its `buffer`. -/
structure EasyMessage where
  buffer : List UInt8

namespace EasyMessage

/-- `struct message` with these fields and this payload. -/
def layout (type : UInt8) (length : Nat) (payload : List UInt8) : List UInt8 :=
  [0] ++ be 4 length ++ [type] ++ payload

/-- `message(type, payload, payload_length)`. -/
def new (type : UInt8) (payload : List UInt8) : EasyMessage where
  buffer := WrappedBuffer.blit (WrappedBuffer.ofSize (messageSize + payload.length)) 0
    (layout type payload.length payload)

/-- `serialize()`, the bytes a client writes. -/
def serialize (m : EasyMessage) : List UInt8 :=
  m.buffer.take (messageLength m.buffer + messageSize)

/-- `memcpy(msg->payload + off, src, src.length)`. -/
def copied (m : EasyMessage) (off : Nat) (src : List UInt8) : EasyMessage :=
  ⟨WrappedBuffer.blit m.buffer (messageSize + off) src⟩

end EasyMessage

/-- `struct sockaddr_in`, 16 bytes. -/
structure SockaddrIn where
  bytes : List UInt8
  size : bytes.length = 16

namespace SockaddrIn

/-- `sin_family`, in host order. -/
def family (a : SockaddrIn) : Nat := ofLE (slice 0 2 a.bytes)

/-- `sin_port`, as it stands in memory. -/
def port (a : SockaddrIn) : List UInt8 := slice 2 2 a.bytes

/-- `sin_addr`. -/
def sinAddr (a : SockaddrIn) : List UInt8 := slice 4 4 a.bytes

@[simp] theorem length_port (a : SockaddrIn) : a.port.length = 2 :=
  slice_length (by rw [a.size]; decide)

@[simp] theorem length_sinAddr (a : SockaddrIn) : a.sinAddr.length = 4 :=
  slice_length (by rw [a.size]; decide)

end SockaddrIn

/-- `connect_msg(remote_addr, local_addr)`. -/
def connectMsg (remote localAddr : SockaddrIn) : EasyMessage :=
  ((EasyMessage.new CONNECT (List.replicate (16 * 2) 0)).copied 0 remote.bytes).copied 16
    localAddr.bytes

/-- `command_msg(command, message_id, targets)`.  The fields are written one by one into a
buffer of the size of all of them. -/
def commandMsg (command : UInt8) (messageId : UInt32) (targets : List UInt32) : EasyMessage where
  buffer := WrappedBuffer.blit (WrappedBuffer.ofSize (messageSize + 9 + 4 * targets.length)) 0
    (EasyMessage.layout COMMAND (9 + 4 * targets.length)
      (commandPayload command messageId targets))

/-! ## What the connector finds -/

namespace EasyMessage

theorem length_layout (type : UInt8) (length : Nat) (payload : List UInt8) :
    (layout type length payload).length = messageSize + payload.length := by
  simp [layout, messageSize]
  omega

theorem messageLength_layout (type : UInt8) (length : Nat) (payload rest : List UInt8) :
    messageLength (layout type length payload ++ rest) = length % 256 ^ 4 := by
  have field : slice 1 4 (layout type length payload ++ rest) = be 4 length := by
    rw [layout, List.append_assoc, List.append_assoc]
    exact slice_here rfl (length_be ..)
  rw [messageLength, field, ofBE_be]

theorem messageType_layout (type : UInt8) (length : Nat) (payload : List UInt8) :
    messageType (layout type length payload) = type := by
  simp [messageType, layout, be, le]

/-- A buffer that starts with a layout whose length field is right is sent as that layout. -/
theorem serialize_layout {m : EasyMessage} {type : UInt8} {payload : List UInt8}
    (rest : List UInt8) (small : payload.length < 2 ^ 32)
    (buffer : m.buffer = layout type payload.length payload ++ rest) :
    m.serialize = layout type payload.length payload := by
  have length : payload.length % 256 ^ 4 = payload.length := Nat.mod_eq_of_lt small
  rw [serialize, buffer, messageLength_layout, length, Nat.add_comm,
    ← length_layout type payload.length payload, List.take_left]

/-- A copy that starts and ends in the payload. -/
theorem copied_layout {m : EasyMessage} {type : UInt8} {length : Nat} {payload rest : List UInt8}
    (off : Nat) (src : List UInt8) (inside : off + src.length ≤ payload.length)
    (buffer : m.buffer = layout type length payload ++ rest) :
    (m.copied off src).buffer = layout type length (WrappedBuffer.blit payload off src) ++ rest := by
  have front : ([0] ++ be 4 length ++ [type]).length = messageSize := by simp [messageSize]
  have whole : m.buffer = [0] ++ be 4 length ++ [type] ++ (payload ++ rest) := by
    rw [buffer, layout, List.append_assoc]
  rw [copied, whole, WrappedBuffer.blit, WrappedBuffer.blit, layout, ← front, Nat.add_assoc,
    List.take_length_add_append, List.drop_length_add_append,
    List.take_append_of_le_length (by omega), List.drop_append_of_le_length inside]
  simp only [List.append_assoc]

theorem content_layout (type : UInt8) (length : Nat) (payload : List UInt8) :
    content (layout type length payload) = (type, payload) := by
  have front : ([0] ++ be 4 length ++ [type]).length = messageSize := by simp [messageSize]
  rw [content, messageType_layout, layout, ← front, List.drop_left]

end EasyMessage

theorem serialize_commandMsg (command : UInt8) (messageId : UInt32) {targets : List UInt32}
    (small : 9 + 4 * targets.length < 2 ^ 32) :
    (commandMsg command messageId targets).serialize =
      EasyMessage.layout COMMAND (9 + 4 * targets.length)
        (commandPayload command messageId targets) := by
  have size : (commandPayload command messageId targets).length = 9 + 4 * targets.length := by
    simp [commandPayload]
    omega
  have written : (commandMsg command messageId targets).buffer =
      EasyMessage.layout COMMAND (commandPayload command messageId targets).length
        (commandPayload command messageId targets) ++
      (WrappedBuffer.ofSize (messageSize + 9 + 4 * targets.length)).drop
        (messageSize + 9 + 4 * targets.length) := by
    rw [commandMsg, size, WrappedBuffer.blit, List.take_zero, List.nil_append, Nat.zero_add,
      EasyMessage.length_layout, size, Nat.add_assoc]
  rw [EasyMessage.serialize_layout _ (by rw [size]; exact small) written, size]

/-- The two addresses, one behind the other. -/
theorem serialize_connectMsg (remote localAddr : SockaddrIn) :
    (connectMsg remote localAddr).serialize =
      EasyMessage.layout CONNECT 32 (remote.bytes ++ localAddr.bytes) := by
  have size : (remote.bytes ++ localAddr.bytes).length = 32 := by
    rw [List.length_append, remote.size, localAddr.size]
  have zeros : (EasyMessage.new CONNECT (List.replicate (16 * 2) 0)).buffer =
      EasyMessage.layout CONNECT 32 (List.replicate 32 0) ++ [] := by decide
  have first := EasyMessage.copied_layout 0 remote.bytes
    (by rw [remote.size]; decide) zeros
  have half : WrappedBuffer.blit (List.replicate 32 0) 0 remote.bytes =
      remote.bytes ++ List.replicate 16 0 := by
    rw [WrappedBuffer.blit, remote.size]
    rfl
  rw [half] at first
  have second := EasyMessage.copied_layout 16 localAddr.bytes
    (by simp [remote.size, localAddr.size]) first
  have both : WrappedBuffer.blit (remote.bytes ++ List.replicate 16 0) 16 localAddr.bytes =
      remote.bytes ++ localAddr.bytes := by
    rw [WrappedBuffer.blit, localAddr.size, ← remote.size, List.take_left]
    simp [remote.size]
  rw [both, ← size] at second
  have sent := EasyMessage.serialize_layout _ (by rw [size]; decide) second
  rw [size] at sent
  exact sent

/-! ## CONNECT from the C++ library -/

/-- Exactly one connection attempt, to this address and port. -/
def ConnectsTo (started : List Started) (remote : SockaddrIn) : Prop :=
  ∃ target, started = [.direct target] ∧ target.family = AF_INET ∧
    target.sinAddr = remote.sinAddr ∧ target.port = remote.port

theorem length_zeros : (List.replicate 128 (0 : UInt8)).length = 128 := List.length_replicate ..

/-- The address all CONNECT messages of the library lead to. -/
def nowhere : SockaddrStorage := ⟨List.replicate 128 0, length_zeros⟩

/-- A `sockaddr_in` of an IPv4 address starts with the low byte of the family. -/
theorem SockaddrIn.first_byte {a : SockaddrIn} (inet : a.family = AF_INET) (rest : List UInt8) :
    (a.bytes ++ rest).getD 0 0 = 2 := by
  match bytes : a.bytes, a.size with
  | x :: y :: _, _ =>
      have value : x.toNat + 256 * y.toNat = 2 := by
        rw [family, bytes] at inet
        simpa [slice, ofLE, AF_INET] using inet
      have small : y.toNat < 256 := y.toNat_lt
      have byte : x.toNat = (2 : UInt8).toNat := by
        show x.toNat = 2
        omega
      exact UInt8.toNat_inj.1 byte

/-- Every CONNECT of the C++ library, handed to a control connection in any state of the
process: one attempt is made, to an address of zeros, and it never is the attempt asked
for. -/
theorem connect_msg_elsewhere (remote localAddr : SockaddrIn) (inet : remote.family = AF_INET)
    (g : Globals) (h : Handler)
    (ready : Ready h (content (connectMsg remote localAddr).serialize).1
      (content (connectMsg remote localAddr).serialize).2) :
    h.connectStarted g = [.direct nowhere] ∧ ¬ ConnectsTo (h.connectStarted g) remote := by
  rw [serialize_connectMsg, EasyMessage.content_layout] at ready
  change Ready h CONNECT (remote.bytes ++ localAddr.bytes) at ready
  have size : (remote.bytes ++ localAddr.bytes).length = 32 := by
    rw [List.length_append, remote.size, localAddr.size]
  have more : ¬ messageLength h.readQueue.buffer = 0 := by
    rw [ready.length]
    omega
  have family : ∀ beyond, (WireAddr.fetched h.readQueue.buffer beyond messageSize).family = 2 := by
    intro beyond
    have first := command_payloadAt ready beyond (by
      intro none_
      rw [none_] at size
      cases size)
    exact first.trans (remote.first_byte inet localAddr.bytes)
  have target : ∀ beyond,
      wireToSockaddr (WireAddr.fetched h.readQueue.buffer beyond messageSize) = nowhere := by
    intro beyond
    have four : ¬ (WireAddr.fetched h.readQueue.buffer beyond messageSize).family =
        ADDR_FAMILY_IPV4 := by rw [family]; decide
    have six : ¬ ((WireAddr.fetched h.readQueue.buffer beyond messageSize).family =
        ADDR_FAMILY_IPV6 ∨ (WireAddr.fetched h.readQueue.buffer beyond messageSize).family =
        ADDR_FAMILY_ONION) := by rw [family]; decide
    rw [wireToSockaddr, if_neg four, if_neg six]
    rfl
  have started : h.connectStarted g = [.direct nowhere] := by
    unfold Handler.connectStarted Handler.connectReading
    simp only [if_neg more, Access.value_bind, Access.value_pure, attemptReading_value, target,
      family, if_neg (show ¬ (2 : UInt8) = ADDR_FAMILY_ONION by decide)]
  refine ⟨started, ?_⟩
  rintro ⟨other, same, is, -⟩
  rw [started] at same
  injection same with same
  injection same with same
  rw [← same] at is
  exact absurd is (by decide)

/-- `1.2.3.4:8333`. -/
def someRemote : SockaddrIn := ⟨[2, 0, 0x20, 0x8d, 1, 2, 3, 4] ++ List.replicate 8 0, rfl⟩

/-- The message of the library for it. -/
def someConnectMsg : Chunk :=
  ⟨(connectMsg someRemote someRemote).serialize, by decide, by decide⟩

theorem someConnectMsg_ready :
    Ready (Handler.someMoment someGlobals someConnectMsg).2
      (content (connectMsg someRemote someRemote).serialize).1
      (content (connectMsg someRemote someRemote).serialize).2 :=
  Handler.someMoment_ready (by decide +kernel) (by decide +kernel) (by decide +kernel)

theorem connect_msg_elsewhere_inet :
    someRemote.family = AF_INET ∧
      ((Handler.someMoment someGlobals someConnectMsg).2.connectStarted someGlobals =
          [.direct nowhere] ∧
        ¬ ConnectsTo ((Handler.someMoment someGlobals someConnectMsg).2.connectStarted someGlobals)
          someRemote) :=
  ⟨by decide, connect_msg_elsewhere someRemote someRemote (by decide) someGlobals _
    someConnectMsg_ready⟩

/-- The message for `1.2.3.4:8333` starts an attempt whose socket address has no family. -/
theorem connect_msg_no_family :
    Ready (Handler.someMoment someGlobals someConnectMsg).2 CONNECT
        (someRemote.bytes ++ someRemote.bytes) ∧
      ¬ ConnectsTo ((Handler.someMoment someGlobals someConnectMsg).2.connectStarted someGlobals)
        someRemote := by
  refine ⟨Handler.someMoment_ready (by decide +kernel) (by decide +kernel) (by decide +kernel), ?_⟩
  rintro ⟨target, same, is, -⟩
  have zero : target.family = 0 := by
    have family : ((Handler.someMoment someGlobals someConnectMsg).2.connectStarted
        someGlobals).map (fun s => (Attempts.remoteOf s).family) = [0] := by decide +kernel
    rw [same] at family
    injection family
  rw [zero] at is
  exact absurd is (by decide)

end Coinscope.Clients

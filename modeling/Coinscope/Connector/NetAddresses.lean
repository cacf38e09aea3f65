/-
# Connector.NetAddresses -- addresses in messages

An address in a message is eight bytes of services, sixteen of address and two of port.
`set_address` writes the services and clears them again: its `bzero` starts at the services and
is as long as the services and half the address.  What it should clear behind that it leaves as
it was, and the code for IPv4 does not write over all of it.

The address message of the active pinger has room for the time twice.

* `netAddr` -- an address as it should stand in a message.
* `setAddress_inet_eq`, `setAddress_inet6_eq` -- what is left in the memory, byte for byte.
* `setAddress_agree_iff` -- when the memory shows.
* `never_canonical` -- no address is written as it should be.
-/
import Coinscope.Connector.VersionExchange

namespace Coinscope.Connector

open Coinscope.Shared
open Coinscope.Theory.Bytes

set_option autoImplicit false

/-- The services, the address in sixteen bytes and the port. -/
def netAddr (src : SockaddrStorage) : List UInt8 :=
  let addr :=
    if src.family = AF_INET then List.replicate 10 0 ++ [0xFF, 0xFF] ++ src.sinAddr
    else src.sin6Addr
  le 8 SERVICES ++ addr ++ src.port

/-! ## What is written -/

section Fields

variable (memory : NetAddrMemory) (src : SockaddrStorage)

/-- Of the cleared memory only the last ten bytes are left. -/
theorem cleared_eq : WrappedBuffer.blit (WrappedBuffer.blit memory.bytes 0 (le 8 SERVICES)) 0
    (List.replicate (26 - 8 - 2) 0) = List.replicate 16 0 ++ memory.bytes.drop 16 := by
  simp [WrappedBuffer.blit, List.drop_append]

theorem setAddress_inet_eq (inet : src.family = AF_INET) :
    setAddress memory src =
      List.replicate 16 0 ++ slice 16 2 memory.bytes ++ [0xFF, 0xFF] ++ src.sinAddr ++ src.port := by
  have size := memory.size
  have four := length_sinAddr src
  have two := length_port src
  have long : (List.replicate 16 0 ++ memory.bytes.drop 16).length = 26 := by simp [size]
  unfold setAddress
  simp only [if_pos inet]
  rw [cleared_eq]
  have marked : WrappedBuffer.blit (WrappedBuffer.blit (List.replicate 16 0 ++
      memory.bytes.drop 16) 18 [0xFF]) 19 [0xFF] =
      WrappedBuffer.blit (List.replicate 16 0 ++ memory.bytes.drop 16) 18 [0xFF, 0xFF] :=
    WrappedBuffer.blit_next (by omega) rfl
  have room : (WrappedBuffer.blit (List.replicate 16 0 ++ memory.bytes.drop 16) 18
      [0xFF, 0xFF]).length = 26 := by
    rw [WrappedBuffer.length_blit (by rw [long]; decide), long]
  rw [marked, WrappedBuffer.blit_next (by omega) (by rw [four]),
    WrappedBuffer.blit_next (by omega) (by rfl), WrappedBuffer.blit_end (by simp [size, four, two])]
  simp [slice]

theorem setAddress_inet6_eq (inet : src.family = AF_INET6) :
    setAddress memory src = List.replicate 8 0 ++ src.sin6Addr ++ src.port := by
  have size := memory.size
  have sixteen := length_sin6Addr src
  have two := length_port src
  have long : (List.replicate 16 0 ++ memory.bytes.drop 16).length = 26 := by simp [size]
  have other : ¬ src.family = AF_INET := by
    rw [inet]
    decide
  unfold setAddress
  simp only [if_neg other, if_pos inet]
  rw [cleared_eq, WrappedBuffer.blit_next (by omega) (by simp [sixteen]),
    WrappedBuffer.blit_end (by simp [size, sixteen, two])]
  simp

end Fields

/-- What the memory held before shows behind an IPv4 address, in the two bytes that are neither
cleared nor written, and nowhere else. -/
theorem setAddress_agree_iff (memory memory' : NetAddrMemory) {src : SockaddrStorage}
    (known : src.family = AF_INET ∨ src.family = AF_INET6) :
    setAddress memory src = setAddress memory' src ↔
      (src.family = AF_INET → slice 16 2 memory.bytes = slice 16 2 memory'.bytes) := by
  rcases known with inet | inet
  · rw [setAddress_inet_eq memory src inet, setAddress_inet_eq memory' src inet]
    simp [inet]
  · have other : src.family ≠ AF_INET := by
      rw [inet]
      decide
    rw [setAddress_inet6_eq memory src inet, setAddress_inet6_eq memory' src inet]
    simp [other]

/-! ## What should be written -/

/-- The services are never there. -/
theorem setAddress_services (memory : NetAddrMemory) {src : SockaddrStorage}
    (known : src.family = AF_INET ∨ src.family = AF_INET6) :
    slice 0 8 (setAddress memory src) = List.replicate 8 0 := by
  rcases known with inet | inet
  · rw [setAddress_inet_eq memory src inet]
    simp [slice]
  · rw [setAddress_inet6_eq memory src inet]
    simp [slice]

theorem netAddr_services (src : SockaddrStorage) : slice 0 8 (netAddr src) = le 8 SERVICES := by
  simp only [netAddr, List.append_assoc]
  rw [slice_append_left _ (by simp), slice, List.drop_zero, List.take_of_length_le (by simp)]

/-- The payload of a message whose length fits the header. -/
theorem payload_getMessage (cfg : Config) (command : List UInt8) {payload : List UInt8}
    (some_ : payload.length % 256 ^ 4 = payload.length) (positive : 0 < payload.length) :
    (getMessage cfg command payload).wire.drop packedSize = payload := by
  have copied : ¬ payload.length % 256 ^ 4 = 0 := by omega
  have counted : (getMessage cfg command payload).length = payload.length := by
    show packedLength (messageHeader cfg command payload ++ _) = _
    rw [packedLength_messageHeader, some_]
  rw [PackedMessage.wire, counted, List.drop_take, Nat.add_sub_cancel_left]
  show ((messageHeader cfg command payload ++ if _ then [] else payload).drop packedSize).take _ = _
  rw [if_neg copied, List.drop_left' (messageHeader_length ..), List.take_length]

theorem length_addrPayload (cfg : Config) (now : Nat) :
    (Handler.addrPayload cfg now).length = 35 := by
  simp [Handler.addrPayload, length_setAddress, toVarint]

/-- No address is written as it should be, whatever the memory held, and the address message of
the active pinger is four bytes too long. -/
theorem never_canonical (memory : NetAddrMemory) {src : SockaddrStorage}
    (known : src.family = AF_INET ∨ src.family = AF_INET6) (cfg : Config) (h : Handler) (now : Nat) :
    setAddress memory src ≠ netAddr src ∧
      ∃ m : PackedMessage,
        (h.activePingerCb cfg now).log = h.log ++ [.bitcoinMsg h.id true m] ∧
        m.wire.drop packedSize = Handler.addrPayload cfg now ∧
        ∀ entry : List UInt8, entry.length = 30 →
          m.wire.drop packedSize ≠ toVarint 1 ++ entry := by
  constructor
  · intro same
    have services := setAddress_services memory known
    rw [same, netAddr_services] at services
    exact absurd services (by decide)
  · have length := length_addrPayload cfg now
    have payload : (getMessage cfg (ascii ['a', 'd', 'd', 'r'])
        (Handler.addrPayload cfg now)).wire.drop packedSize = Handler.addrPayload cfg now :=
      payload_getMessage cfg _ (by rw [length]; decide) (by rw [length]; decide)
    refine ⟨_, Handler.appendedForWrite_log .., payload, ?_⟩
    intro entry size same
    rw [payload] at same
    have counted := congrArg List.length same
    simp [length, size, toVarint] at counted

/-- Memory that was not cleared. -/
def dirty : NetAddrMemory := ⟨List.replicate 26 0xAA, List.length_replicate ..⟩

/-- An IPv4 address, in memory that was not cleared. -/
theorem never_canonical_inet :
    someAddr.family = AF_INET ∧ setAddress dirty someAddr ≠ netAddr someAddr :=
  ⟨by decide, (never_canonical dirty (Or.inl (by decide)) someConfig
    (Handler.new someConfig someEnv 0 7 RECV_VERSION_INIT someAddr someAddr 0).1 0).1⟩

/-- In dirty memory the services are missing and two old bytes are in the middle of the address. -/
theorem address_leaks :
    setAddress dirty someAddr =
        [0, 0, 0, 0, 0, 0, 0, 0, 0, 0, 0, 0, 0, 0, 0, 0, 0xAA, 0xAA, 0xFF, 0xFF] ++
          someAddr.sinAddr ++ someAddr.port ∧
      setAddress dirty someAddr ≠ netAddr someAddr ∧
      setAddress dirty someAddr ≠
        setAddress ⟨List.replicate 26 0, List.length_replicate ..⟩ someAddr ∧
      (Handler.addrPayload someConfig 0).length = 35 := by
  refine ⟨by decide, by decide, by decide, by decide⟩

end Coinscope.Connector

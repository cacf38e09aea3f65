/-
# Shared.Bitcoin -- the messages of the peer-to-peer protocol

A `packed_message` is a 24-byte header (magic, command, length, checksum, all
little-endian) and `length` bytes of payload.  A `PackedMessage` is memory that
starts with one: the length its header announces lies inside the memory, which is
what every function taking a `const struct packed_message *` relies on.

* `getMessage`, `getVersion`, `setAddress` -- the messages the connector builds
  itself.  `setAddress` writes into the destination as it finds it, so memory that
  is not written shows through; that memory is an argument.
* `PackedMessage.wire` -- the bytes that are sent, logged or copied.
-/
import Coinscope.Shared.Socket
import Coinscope.Shared.WrappedBuffer
import Coinscope.Theory.Access

namespace Coinscope.Shared

open Coinscope.Theory
open Coinscope.Theory.Bytes

set_option autoImplicit false

/-- ASCII text as bytes. -/
def ascii (text : List Char) : List UInt8 := text.map fun c => UInt8.ofNat c.toNat

/-- The C string at the start of some memory. -/
def cString (memory : List UInt8) : List UInt8 := memory.takeWhile (· ≠ 0)

/-- A C string ends with the first NUL. -/
theorem cString_eq_iff {memory word : List UInt8} (letters : (0 : UInt8) ∉ word)
    (room : word.length < memory.length) :
    cString memory = word ↔ memory.take (word.length + 1) = word ++ [0] := by
  induction word generalizing memory with
  | nil =>
      obtain _ | ⟨first, rest⟩ := memory
      · cases room
      · by_cases zero : first = 0
        · simp [cString, zero]
        · simp [cString, zero]
  | cons letter word ih =>
      obtain _ | ⟨first, rest⟩ := memory
      · cases room
      · have tail : cString rest = word ↔ rest.take (word.length + 1) = word ++ [0] :=
          ih (fun member => letters (List.mem_cons_of_mem letter member))
            (Nat.lt_of_succ_lt_succ room)
        have nonzero : letter ≠ 0 := fun zero => letters (zero ▸ List.mem_cons_self)
        rw [List.length_cons, List.take_succ_cons, List.cons_append, List.cons.injEq, ← tail,
          cString, List.takeWhile_cons]
        by_cases zero : first = 0
        · simp [zero, nonzero.symm]
        · simp [zero, cString]

/-! ## Socket addresses -/

/-- `AF_INET`. -/
def AF_INET : Nat := 2

/-- `AF_INET6`. -/
def AF_INET6 : Nat := 10

/-- `struct sockaddr_storage`, 128 bytes. -/
structure SockaddrStorage where
  bytes : List UInt8
  size : bytes.length = 128
  deriving DecidableEq

namespace SockaddrStorage

/-- `ss_family`, in host order. -/
def family (a : SockaddrStorage) : Nat := ofLE (slice 0 2 a.bytes)

/-- `sin_port` and `sin6_port`, as they stand in memory. -/
def port (a : SockaddrStorage) : List UInt8 := slice 2 2 a.bytes

/-- `sin_addr`. -/
def sinAddr (a : SockaddrStorage) : List UInt8 := slice 4 4 a.bytes

/-- `sin6_addr`. -/
def sin6Addr (a : SockaddrStorage) : List UInt8 := slice 8 16 a.bytes

end SockaddrStorage

/-! ## Packed messages -/

/-- `sizeof(struct packed_message)`. -/
def packedSize : Nat := 24

/-- `m->length`. -/
def packedLength (memory : List UInt8) : Nat := ofLE (slice 16 4 memory)

/-- Memory a `const struct packed_message *` may point to. -/
structure PackedMessage where
  buffer : List UInt8
  whole : packedSize + packedLength buffer ≤ buffer.length
  deriving DecidableEq

namespace PackedMessage

/-- `m->length`. -/
def length (m : PackedMessage) : Nat := packedLength m.buffer

/-- `m->command`, with the memory behind it. -/
def command (m : PackedMessage) : List UInt8 := m.buffer.drop 4

/-- The header and `m->length` bytes of payload. -/
def wire (m : PackedMessage) : List UInt8 := m.buffer.take (packedSize + m.length)

theorem wire_length (m : PackedMessage) : m.wire.length = packedSize + m.length := by
  rw [wire, List.length_take]
  exact Nat.min_eq_left m.whole

theorem wire_pos (m : PackedMessage) : 0 < m.wire.length := by
  rw [wire_length]
  exact Nat.add_pos_left (by decide) _

end PackedMessage

/-! ## Configuration -/

/-- What the configuration file and the libraries fix for a run: the settings under
`connector`, `compute_checksum` (two rounds of SHA-256) and `strerror`. -/
structure Config where
  magic : Nat
  userAgent : List UInt8
  external : SockaddrStorage
  startHeight : Int
  pingFrequency : Int
  activePing : Bool
  computeChecksum : List UInt8 → Nat
  strerror : Errno → List UInt8

/-! ## Building messages -/

/-- `to_varint`. -/
def toVarint (val : Nat) : List UInt8 :=
  if val < 0xfd then le 1 val
  else if val ≤ 0xffff then 0xfd :: le 2 val
  else if val ≤ 0xffffffff then 0xfe :: le 4 val
  else 0xff :: le 8 val

/-- `get_varint_size`, by the first byte. -/
def getVarintSize (first : UInt8) : Nat :=
  if first < 0xfd then 1
  else if first = 0xfd then 3
  else if first = 0xfe then 5
  else 9

/-- `get_varint(buf, &outsize)`: the number and the size. -/
def getVarint (buf : Nat) : Access UInt8 (Nat × Nat) := do
  let first ← Access.cell buf
  if getVarintSize first = 1 then pure (first.toNat, 1)
  else do
    let bytes ← Access.cells (buf + 1) (getVarintSize first - 1)
    pure (ofLE bytes, getVarintSize first)

theorem getVarint_size (memory : Nat → UInt8) (buf : Nat) :
    ((getVarint buf).value memory).2 = getVarintSize (memory buf) := by
  rw [getVarint, Access.value_bind, Access.value_cell]
  split
  · rename_i one
    exact one.symm
  · rw [Access.value_bind]
    rfl

/-- What is read of a varint is its bytes. -/
theorem within_getVarint {memory : Nat → UInt8} {bound buf : Nat} :
    Access.Within memory bound (getVarint buf) ↔ buf + getVarintSize (memory buf) ≤ bound := by
  have positive : 0 < getVarintSize (memory buf) := by
    unfold getVarintSize
    split
    · decide
    · split
      · decide
      · split <;> decide
  rw [getVarint, Access.within_bind, Access.within_cell, Access.value_cell]
  split
  · rename_i one
    rw [one]
    exact ⟨fun both => both.1, fun inside => ⟨inside, Access.within_pure _ _ _⟩⟩
  · rename_i more
    rw [Access.within_bind, Access.within_cells]
    constructor
    · rintro ⟨-, few | inside, -⟩
      · omega
      · omega
    · intro inside
      exact ⟨by omega, Or.inr (by omega), Access.within_pure _ _ _⟩

/-- `var_string`. -/
def varString (input : List UInt8) : List UInt8 := toVarint input.length ++ input

/-- `struct inv_vector`. -/
structure InvVector where
  type : UInt32
  hash : List UInt8
  size : hash.length = 32

/-- `get_inv`. -/
def getInv (v : List InvVector) : List UInt8 :=
  toVarint v.length ++ v.flatMap fun i => le 4 i.type.toNat ++ i.hash

/-- `SERVICES`. -/
def SERVICES : Nat := 1

/-- `MAX_VERSION`. -/
def MAX_VERSION : Nat := 70002

/-- Memory of the size of a `version_packed_net_addr`, with whatever it held before. -/
structure NetAddrMemory where
  bytes : List UInt8
  size : bytes.length = 26

/-- `set_address(dest, src)`.  The `bzero` starts at `services` and is ten bytes
short of the structure. -/
def setAddress (dest : NetAddrMemory) (src : SockaddrStorage) : List UInt8 :=
  let withServices := WrappedBuffer.blit dest.bytes 0 (le 8 SERVICES)
  let cleared := WrappedBuffer.blit withServices 0 (List.replicate (26 - 8 - 2) 0)
  if src.family = AF_INET then
    let padded := WrappedBuffer.blit (WrappedBuffer.blit cleared 18 [0xFF]) 19 [0xFF]
    WrappedBuffer.blit (WrappedBuffer.blit padded 20 src.sinAddr) 24 src.port
  else if src.family = AF_INET6 then
    WrappedBuffer.blit (WrappedBuffer.blit cleared 8 src.sin6Addr) 24 src.port
  else cleared

/-- What `get_version` reads beside its arguments: the clock, a nonce, and the
memory its two addresses are written into. -/
structure VersionEnv where
  time : Nat
  nonce : Nat
  recvAddr : NetAddrMemory
  fromAddr : NetAddrMemory

/-- A 32-bit integer in two's complement, little-endian. -/
def le32 (n : Int) : List UInt8 := le 4 (n % 2 ^ 32).toNat

/-- Four bytes read as `int32_t`. -/
def ofLE32 (bytes : List UInt8) : Int :=
  if ofLE bytes < 2 ^ 31 then ofLE bytes else (ofLE bytes : Int) - 2 ^ 32

/-- `g_last_block` behind the test in `get_version`. -/
def loadedBlock (cfg : Config) (lastBlock : Int) : Int :=
  if lastBlock = 0 then cfg.startHeight else lastBlock

/-- `get_version(user_agent(), from, recv)`, the bytes of the combined structure. -/
def getVersion (cfg : Config) (env : VersionEnv) (lastBlock : Int)
    (fromAddr recvAddr : SockaddrStorage) : List UInt8 :=
  le 4 MAX_VERSION ++ le 8 SERVICES ++ le 8 env.time ++ setAddress env.recvAddr recvAddr ++
    setAddress env.fromAddr fromAddr ++ le 8 env.nonce ++ varString cfg.userAgent ++
    le32 (loadedBlock cfg lastBlock) ++ [1]

/-- `strncpy` into the zeroed 12-byte command. -/
def commandField (command : List UInt8) : List UInt8 :=
  command.take 12 ++ List.replicate (12 - command.length) 0

/-- The header `get_message` writes. -/
def messageHeader (cfg : Config) (command payload : List UInt8) : List UInt8 :=
  le 4 cfg.magic ++ commandField command ++ le 4 payload.length ++
    le 4 (if payload.length % 256 ^ 4 = 0 then 0xe2e0f65d else cfg.computeChecksum payload)

theorem messageHeader_length (cfg : Config) (command payload : List UInt8) :
    (messageHeader cfg command payload).length = packedSize := by
  simp [messageHeader, commandField, packedSize]
  omega

theorem packedLength_messageHeader (cfg : Config) (command payload rest : List UInt8) :
    packedLength (messageHeader cfg command payload ++ rest) = payload.length % 256 ^ 4 := by
  have before : (le 4 cfg.magic ++ commandField command).length = 16 := by
    simp [commandField]
    omega
  have field : slice 16 4 (messageHeader cfg command payload ++ rest) =
      le 4 payload.length := by
    rw [messageHeader, List.append_assoc, List.append_assoc,
      slice_append_right _ (Nat.le_of_eq before), before]
    simp [slice]
  rw [packedLength, field, ofLE_le]

/-- `get_message(command, payload, len)`.  The payload is copied when the truncated
length is not zero. -/
def getMessage (cfg : Config) (command payload : List UInt8) : PackedMessage where
  buffer := messageHeader cfg command payload ++
    if payload.length % 256 ^ 4 = 0 then [] else payload
  whole := by
    rw [packedLength_messageHeader, List.length_append, messageHeader_length]
    have small : payload.length % 256 ^ 4 ≤ payload.length := Nat.mod_le ..
    split
    · omega
    · omega

end Coinscope.Shared

/-
# Clients.LogDecoders -- reading BITCOIN records back

Three programs decode the records of `g_log<BITCOIN>`: the watcher library through
`struct bitcoin_log_format`, the console through offsets of its own, and the Python
library through `struct.unpack`.  All three take an address to be a `sockaddr_in`
of 16 bytes; the encoder writes a `sockaddr_storage` of 128.

* `delivered` -- a record as a consumer of the log server gets it.
* `RoundTrips` -- what the three decoders should return for it.
* `never_round_trips` -- the watcher's length assertion and its text cannot both be
  right, so no record survives.
-/
import Coinscope.LogServer.Collector
import Coinscope.Shared.LogFormat

namespace Coinscope.Clients

open Coinscope.Shared
open Coinscope.Theory.Bytes

set_option autoImplicit false

/-- What a socket address says: its family, port and address bytes. -/
structure Endpoint where
  family : Nat
  port : Nat
  addr : List UInt8
  deriving DecidableEq

namespace Endpoint

/-- Memory read as `struct sockaddr_in`. -/
def ofSockaddrIn (memory : List UInt8) : Endpoint :=
  ⟨ofLE (slice 0 2 memory), ofBE (slice 2 2 memory), slice 4 4 memory⟩

/-- Memory read as `struct sockaddr`, by its family, as `operator<<` does. -/
def ofSockaddr (memory : List UInt8) : Endpoint :=
  if ofLE (slice 0 2 memory) = AF_INET6 then
    ⟨AF_INET6, ofBE (slice 2 2 memory), slice 8 16 memory⟩
  else ofSockaddrIn memory

end Endpoint

/-- The fields of a BITCOIN record. -/
structure BitcoinLog where
  handleId : Nat
  updateType : Nat
  remote : Endpoint
  localAddr : Endpoint
  text : List UInt8
  deriving DecidableEq

/-! ## The decoders -/

/-- `sizeof(struct bitcoin_log_format)`. -/
def bitcoinLogFormatSize : Nat := 4 + 1 + 8 + 4 + 4 + 16 + 16 + 4

/-- `bcwatchers::buf2msg` on the first `cursor()` bytes of its buffer; `none` is a
failed assertion. -/
def buf2msg (memory : List UInt8) : Option BitcoinLog :=
  let textLen := ofBE (slice 53 4 memory)
  if slice 4 1 memory = [LogType.BITCOIN.byte] ∧ bitcoinLogFormatSize + textLen = memory.length then
    some
      { handleId := ofBE (slice 13 4 memory)
        updateType := ofBE (slice 17 4 memory)
        remote := Endpoint.ofSockaddrIn (slice 21 16 memory)
        localAddr := Endpoint.ofSockaddrIn (slice 37 16 memory)
        text := slice 57 textLen memory }
  else none

/-- What `print_message` of the console shows for a record of type BITCOIN.  The
text is printed as a C string, and left out when its length reads as zero. -/
def printMessage (memory : List UInt8) : BitcoinLog :=
  let msg := memory.drop 13
  let textLen := ofBE (slice (8 + 16 * 2) 4 msg)
  { handleId := ofBE (slice 0 4 msg)
    updateType := ofBE (slice 4 4 msg)
    remote := Endpoint.ofSockaddr (msg.drop 8)
    localAddr := Endpoint.ofSockaddr (msg.drop (8 + 16))
    text := if textLen ≠ 0 then cString (msg.drop (8 + 16 * 2 + 4)) else [] }

/-- `struct.unpack` of `w` bytes: the argument has to have exactly that many. -/
def unpack (w : Nat) (bytes : List UInt8) : Option (List UInt8) :=
  if bytes.length = w then some bytes else none

/-- `bitcoin_log.deserialize`, behind `log.deserialize_parts`; `none` is an
exception.  Without a text it builds the object with a `str`, which `repack` cannot
pack. -/
def deserialize (serialization : List UInt8) : Option BitcoinLog := do
  let rest := serialization.drop 13
  let ids ← unpack 8 (rest.take 8)
  let addrs ← unpack 32 (slice 8 32 rest)
  let len ← unpack 4 (slice 40 4 rest)
  let textLen := ofBE len
  if textLen > 0 then
    let text ← unpack textLen (rest.drop 44)
    some
      { handleId := ofBE (slice 0 4 ids)
        updateType := ofBE (slice 4 4 ids)
        remote := { Endpoint.ofSockaddrIn (slice 0 16 addrs) with family := AF_INET }
        localAddr := { Endpoint.ofSockaddrIn (slice 16 16 addrs) with family := AF_INET }
        text := text }
  else none

/-! ## The round trip -/

/-- The body of the frame in which the log server passes a BITCOIN record on. -/
def delivered (sourceId : UInt32) (time : UInt64) (updateType handleId : UInt32)
    (remote localAddr : SockaddrStorage) (text : List UInt8) : List UInt8 :=
  let content := bitcoinContent time updateType handleId remote localAddr text
  body (LogServer.frame ⟨content, content.length, sourceId⟩)

/-- The record that was logged. -/
def logged (updateType handleId : UInt32) (remote localAddr : SockaddrStorage)
    (text : List UInt8) : BitcoinLog where
  handleId := handleId.toNat
  updateType := updateType.toNat
  remote := Endpoint.ofSockaddr remote.bytes
  localAddr := Endpoint.ofSockaddr localAddr.bytes
  text := text

/-- All three decoders return the record that was logged. -/
structure RoundTrips (sourceId : UInt32) (time : UInt64) (updateType handleId : UInt32)
    (remote localAddr : SockaddrStorage) (text : List UInt8) : Prop where
  watcher : buf2msg (delivered sourceId time updateType handleId remote localAddr text) =
    some (logged updateType handleId remote localAddr text)
  console : printMessage (delivered sourceId time updateType handleId remote localAddr text) =
    { logged updateType handleId remote localAddr text with text := cString text }
  python : deserialize (delivered sourceId time updateType handleId remote localAddr text) =
    some (logged updateType handleId remote localAddr text)

theorem delivered_length (sourceId : UInt32) (time : UInt64) (updateType handleId : UInt32)
    (remote localAddr : SockaddrStorage) (text : List UInt8) :
    (delivered sourceId time updateType handleId remote localAddr text).length =
      281 + text.length := by
  have length := bitcoinContent_length time updateType handleId remote localAddr text
  simp only [delivered, body, LogServer.frame, List.length_drop, List.length_append, length_be,
    List.length_take, length, bitcoinLen, Nat.min_self]
  omega

/-- The watcher takes the text to end where the message ends. -/
theorem buf2msg_text_length {memory : List UInt8} {m : BitcoinLog}
    (decoded : buf2msg memory = some m) : bitcoinLogFormatSize + m.text.length = memory.length := by
  unfold buf2msg at decoded
  simp only at decoded
  split at decoded
  · rename_i asserted
    obtain rfl := Option.some.inj decoded
    have size : bitcoinLogFormatSize = 57 := rfl
    simp only
    rw [slice_length (by omega)]
    exact asserted.2
  · cases decoded

/-- No record comes back as it was logged: for the assertion the text would have to
be 224 bytes longer than it is. -/
theorem never_round_trips (sourceId : UInt32) (time : UInt64) (updateType handleId : UInt32)
    (remote localAddr : SockaddrStorage) (text : List UInt8) :
    ¬ RoundTrips sourceId time updateType handleId remote localAddr text := by
  intro trip
  have length := buf2msg_text_length trip.watcher
  rw [delivered_length] at length
  have size : bitcoinLogFormatSize = 57 := rfl
  have same : (logged updateType handleId remote localAddr text).text = text := rfl
  rw [same] at length
  omega

/-- `10.0.0.1:8333`, in a zeroed `sockaddr_storage`. -/
def tenNet : SockaddrStorage where
  bytes := le 2 AF_INET ++ be 2 8333 ++ [10, 0, 0, 1] ++ List.replicate 120 0
  size := by simp

/-- A disconnect of `10.0.0.1:8333` with a text: the watcher's assertion fails, the
console shows no local address and no text, the Python library raises. -/
theorem disconnect_lost :
    buf2msg (delivered 7 0 WRITE_DISCONNECT 3 tenNet tenNet [69, 0]) = none ∧
      (printMessage (delivered 7 0 WRITE_DISCONNECT 3 tenNet tenNet [69, 0])).localAddr =
        ⟨0, 0, [0, 0, 0, 0]⟩ ∧
      (printMessage (delivered 7 0 WRITE_DISCONNECT 3 tenNet tenNet [69, 0])).text = [] ∧
      deserialize (delivered 7 0 WRITE_DISCONNECT 3 tenNet tenNet [69, 0]) = none ∧
      ¬ RoundTrips 7 0 WRITE_DISCONNECT 3 tenNet tenNet [69, 0] := by
  refine ⟨by decide +kernel, by decide +kernel, by decide +kernel, by decide +kernel, ?_⟩
  intro trip
  exact absurd trip.watcher (by decide +kernel)

end Coinscope.Clients

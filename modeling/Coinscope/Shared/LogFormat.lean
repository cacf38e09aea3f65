/-
# Shared.LogFormat -- log records as they are emitted

Every record is a 32-bit big-endian length and that many bytes: a type byte, a
64-bit timestamp and the content of its type.  `LogCall` is one call of `g_log`
and `LogCall.record` the bytes it emits, written field by field from the three
versions of the template.

* `records` -- the wire format, as a `Format`.
* `LogCall.record_complete` -- what a call emits is one whole record, if its length
  fits the prefix.
-/
import Coinscope.Shared.Bitcoin
import Coinscope.Theory.Framing

namespace Coinscope.Shared

open Coinscope.Theory.Bytes
open Coinscope.Theory.Framing

set_option autoImplicit false

/-! ## The wire format -/

/-- A record on the wire: its length, big-endian, then its bytes. -/
def records : Format UInt8 where
  header := 4
  header_pos := by decide
  bodyLength := ofBE

/-- The bytes of a record behind its length. -/
def body (f : List UInt8) : List UInt8 := f.drop 4

theorem complete_record {header content : List UInt8} (four : header.length = 4)
    (announced : content.length = ofBE header) : records.Complete (header ++ content) := by
  have front : (header ++ content).take 4 = header := by
    rw [← four, List.take_left]
  constructor
  · show 4 ≤ (header ++ content).length
    rw [List.length_append]; omega
  · show (header ++ content).length = 4 + ofBE ((header ++ content).take 4)
    rw [front, List.length_append, four, announced]

theorem body_append {header : List UInt8} (four : header.length = 4) (content : List UInt8) :
    body (header ++ content) = content := by
  rw [body, ← four, List.drop_left]

/-! ## Types -/

/-- `enum log_type`. -/
inductive LogType where
  | DEBUG
  | CTRL
  | ERROR
  | BITCOIN
  | BITCOIN_MSG
  | CONNECTOR
  | CLIENT
  deriving DecidableEq, Repr

def LogType.byte : LogType → UInt8
  | DEBUG => 0x2
  | CTRL => 0x4
  | ERROR => 0x8
  | BITCOIN => 0x10
  | BITCOIN_MSG => 0x20
  | CONNECTOR => 0x40
  | CLIENT => 0x80

def CONNECT_SUCCESS : UInt32 := 0x1
def ACCEPT_SUCCESS : UInt32 := 0x2
def ORDERLY_DISCONNECT : UInt32 := 0x4
def WRITE_DISCONNECT : UInt32 := 0x8
def UNEXPECTED_ERROR : UInt32 := 0x10
def CONNECT_FAILURE : UInt32 := 0x20
def PEER_RESET : UInt32 := 0x40
def CONNECTOR_DISCONNECT : UInt32 := 0x80

/-! ## Records -/

/-- One call of `g_log`, without the clock it reads.  A text call has its arguments
already put through `operator<<`. -/
inductive LogCall where
  | bitcoin (updateType handleId : UInt32) (remote localAddr : SockaddrStorage)
      (text : List UInt8)
  | bitcoinMsg (id : UInt32) (isSender : Bool) (msg : PackedMessage)
  | text (kind : LogType) (val : List UInt8) (args : List (List UInt8))
  deriving DecidableEq

/-- `len` of `g_log<BITCOIN>`. -/
def bitcoinLen (textLen : Nat) : Nat := 1 + 8 + 4 + 4 + 2 * 128 + 4 + textLen

/-- What `g_log<BITCOIN>` copies behind the length, field after field. -/
def bitcoinContent (time : UInt64) (updateType handleId : UInt32)
    (remote localAddr : SockaddrStorage) (text : List UInt8) : List UInt8 :=
  [LogType.BITCOIN.byte] ++ be 8 time.toNat ++ be 4 handleId.toNat ++ be 4 updateType.toNat ++
    remote.bytes ++ localAddr.bytes ++ be 4 text.length ++ text

/-- `len` of `g_log<BITCOIN_MSG>`. -/
def bitcoinMsgLen (length : Nat) : Nat := 1 + 8 + 4 + 1 + packedSize + length

/-- What `g_log<BITCOIN_MSG>` copies behind the length. -/
def bitcoinMsgContent (time : UInt64) (id : UInt32) (isSender : Bool) (m : PackedMessage) :
    List UInt8 :=
  [LogType.BITCOIN_MSG.byte] ++ be 8 time.toNat ++ be 4 id.toNat ++
    [if isSender then 1 else 0] ++ m.wire

/-- The arguments of a text record: a blank behind each but the last, a NUL behind that. -/
def textArgs (val : List UInt8) : List (List UInt8) → List UInt8
  | [] => val ++ [0]
  | next :: args => val ++ ascii [' '] ++ textArgs next args

/-- What the generic `g_log` writes behind the length. -/
def textContent (time : UInt64) (kind : LogType) (val : List UInt8) (args : List (List UInt8)) :
    List UInt8 :=
  [kind.byte] ++ be 8 time.toNat ++ textArgs val args

namespace LogCall

/-- What the call emits behind the length. -/
def content (time : UInt64) : LogCall → List UInt8
  | .bitcoin updateType handleId remote localAddr note =>
      bitcoinContent time updateType handleId remote localAddr note
  | .bitcoinMsg id isSender msg => bitcoinMsgContent time id isSender msg
  | .text kind val args => textContent time kind val args

/-- The record the call emits; the prefix has room for 32 bits of the length. -/
def record (time : UInt64) (call : LogCall) : List UInt8 :=
  be 4 (call.content time).length ++ call.content time

/-- The length fits the prefix. -/
def Short (call : LogCall) : Prop := (call.content 0).length < 2 ^ 32

instance (call : LogCall) : Decidable call.Short := inferInstanceAs (Decidable (_ < _))

end LogCall

theorem bitcoinContent_length (time : UInt64) (updateType handleId : UInt32)
    (remote localAddr : SockaddrStorage) (text : List UInt8) :
    (bitcoinContent time updateType handleId remote localAddr text).length =
      bitcoinLen text.length := by
  simp [bitcoinContent, bitcoinLen, remote.size, localAddr.size]
  omega

theorem bitcoinMsgContent_length (time : UInt64) (id : UInt32) (isSender : Bool)
    (m : PackedMessage) :
    (bitcoinMsgContent time id isSender m).length = bitcoinMsgLen m.length := by
  simp [bitcoinMsgContent, bitcoinMsgLen, m.wire_length]
  omega

namespace LogCall

/-- The length of a record does not depend on the clock. -/
theorem content_length (time : UInt64) (call : LogCall) :
    (call.content time).length = (call.content 0).length := by
  cases call with
  | bitcoin updateType handleId remote localAddr text =>
      simp only [content, bitcoinContent_length]
  | bitcoinMsg id isSender msg => simp only [content, bitcoinMsgContent_length]
  | text kind val args => simp [content, textContent]

theorem record_complete (time : UInt64) {call : LogCall} (short : call.Short) :
    records.Complete (call.record time) := by
  have fits : (call.content time).length < 256 ^ 4 := by
    rw [content_length]
    exact short
  exact complete_record (length_be ..) (ofBE_be_of_lt fits).symm

end LogCall

end Coinscope.Shared

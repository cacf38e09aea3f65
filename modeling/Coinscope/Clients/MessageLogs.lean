/-
# Clients.MessageLogs -- BITCOIN_MSG records, from the connector to who reads them

`g_log<BITCOIN_MSG>` writes a record with the message in it, the log server takes the length off
and passes the record on with a length and a source of its own, and the readers take it apart:
those in C++ through `struct bitcoin_msg_log_format`, the Python library through
`struct.unpack`.  All of this is right as long as the lengths fit their 32 bits.  A message may
be of any length that does, and a record is longer than its message.

* `handed` -- what the log server takes a record for.
* `ofBitcoinMsgLogFormat`, `deserializeMsgLog` -- the two readers.
* `bitcoinMsg_round_trips` -- what they read is what was logged.
* `lengths_right_iff` -- the messages whose records have the right lengths.
-/
import Coinscope.Clients.LogDecoders

namespace Coinscope.Clients

open Coinscope.LogServer
open Coinscope.Shared
open Coinscope.Theory.Bytes

set_option autoImplicit false

/-! ## The readers -/

/-- The fields of a BITCOIN_MSG record. -/
structure MsgLog where
  sourceId : Nat
  logType : Nat
  timestamp : Nat
  handleId : Nat
  isSender : Bool
  bitcoinMsg : List UInt8
  deriving DecidableEq

/-- Memory read as `struct bitcoin_msg_log_format`, with the numbers out of network order.  The
message is as long as its header says. -/
def ofBitcoinMsgLogFormat (memory : List UInt8) : MsgLog where
  sourceId := ofBE (slice 0 4 memory)
  logType := ofBE (slice 4 1 memory)
  timestamp := ofBE (slice 5 8 memory)
  handleId := ofBE (slice 13 4 memory)
  isSender := decide (ofBE (slice 17 1 memory) ≠ 0)
  bitcoinMsg := slice 18 (packedSize + packedLength (memory.drop 18)) memory

/-- `log.deserialize_parts`; `none` is an exception. -/
def deserializeParts (serialization : List UInt8) : Option (Nat × Nat × Nat × List UInt8) := do
  let head ← unpack 13 (serialization.take 13)
  some (ofBE (slice 0 4 head), ofBE (slice 4 1 head), ofBE (slice 5 8 head),
    serialization.drop 13)

/-- `bitcoin_msg_log.deserialize`. -/
def deserializeMsg (sourceId timestamp : Nat) (rest : List UInt8) : Option MsgLog := do
  let head ← unpack 5 (rest.take 5)
  some
    { sourceId := sourceId
      logType := LogType.BITCOIN_MSG.byte.toNat
      timestamp := timestamp
      handleId := ofBE (slice 0 4 head)
      isSender := decide (ofBE (slice 4 1 head) ≠ 0)
      bitcoinMsg := rest.drop 5 }

/-- The two of them, where the type is that of a message. -/
def deserializeMsgLog (serialization : List UInt8) : Option MsgLog := do
  let (sourceId, logType, timestamp, rest) ← deserializeParts serialization
  if logType = LogType.BITCOIN_MSG.byte.toNat then deserializeMsg sourceId timestamp rest else none

theorem unpack_take {w : Nat} {bytes : List UInt8} (long : w ≤ bytes.length) :
    unpack w (bytes.take w) = some (bytes.take w) :=
  if_pos (by rw [List.length_take, Nat.min_eq_left long])

/-- Where there is enough to read, the two readers differ in the message only: the Python library
takes all that is left. -/
theorem deserializeMsgLog_of_long {memory : List UInt8} (long : 18 ≤ memory.length)
    (type : ofBE (slice 4 1 memory) = LogType.BITCOIN_MSG.byte.toNat) :
    deserializeMsgLog memory =
      some { ofBitcoinMsgLogFormat memory with bitcoinMsg := memory.drop 18 } := by
  have parts : deserializeParts memory = some (ofBE (slice 0 4 memory), ofBE (slice 4 1 memory),
      ofBE (slice 5 8 memory), memory.drop 13) := by
    rw [deserializeParts, unpack_take (by omega), Option.bind_eq_bind, Option.bind_some,
      slice_take _ (by omega), slice_take _ (by omega), slice_take _ (by omega)]
  have behind : ∀ off n, slice off n (memory.drop 13) = slice (13 + off) n memory := by
    intro off n
    rw [slice, slice, List.drop_drop]
  rw [deserializeMsgLog, parts, Option.bind_eq_bind, Option.bind_some]
  simp only [type, if_true]
  rw [deserializeMsg, unpack_take (by rw [List.length_drop]; omega), Option.bind_eq_bind,
    Option.bind_some, slice_take _ (by omega), slice_take _ (by omega), behind, behind,
    List.drop_drop, ofBitcoinMsgLogFormat, type]

/-! ## The round trip -/

/-- What `input_cxn` hands over for a record: the bytes behind the length, as many as the
length says. -/
def handed (sourceId : UInt32) (record : List UInt8) : SizedBuffer :=
  ⟨body record, ofBE (record.take 4), sourceId⟩

section RoundTrip

variable (sourceId : UInt32) (time : UInt64) (id : UInt32) (isSender : Bool) (m : PackedMessage)

/-- The record `g_log<BITCOIN_MSG>` emits. -/
def msgRecord : List UInt8 := (LogCall.bitcoinMsg id isSender m).record time

/-- What was logged. -/
def loggedMsg : MsgLog where
  sourceId := sourceId.toNat
  logType := LogType.BITCOIN_MSG.byte.toNat
  timestamp := time.toNat
  handleId := id.toNat
  isSender := isSender
  bitcoinMsg := m.wire

/-- What stands in front of the message. -/
def msgFront : List UInt8 :=
  be 4 sourceId.toNat ++ ([LogType.BITCOIN_MSG.byte] ++ (be 8 time.toNat ++ (be 4 id.toNat ++
    [if isSender then 1 else 0])))

theorem msgFront_length : (msgFront sourceId time id isSender).length = 18 := by
  simp [msgFront]

theorem body_msgRecord :
    body (msgRecord time id isSender m) = bitcoinMsgContent time id isSender m :=
  body_append (length_be ..) _

theorem take_msgRecord :
    (msgRecord time id isSender m).take 4 = be 4 (bitcoinMsgLen m.length) := by
  rw [msgRecord, LogCall.record, List.take_append_of_le_length (by simp),
    List.take_of_length_le (by simp), ← bitcoinMsgContent_length time id isSender m]
  rfl

variable {m} in
/-- The length in the header of the message is in the part of it that is logged. -/
theorem packedLength_wire : packedLength m.wire = m.length := by
  rw [PackedMessage.wire, packedLength, slice_take _ (by simp [packedSize]; omega)]
  rfl

/-- The fields in front of the message. -/
theorem msgFront_fields :
    slice 0 4 (msgFront sourceId time id isSender) = be 4 sourceId.toNat ∧
    slice 4 1 (msgFront sourceId time id isSender) = [LogType.BITCOIN_MSG.byte] ∧
    slice 5 8 (msgFront sourceId time id isSender) = be 8 time.toNat ∧
    slice 13 4 (msgFront sourceId time id isSender) = be 4 id.toNat ∧
    slice 17 1 (msgFront sourceId time id isSender) = [if isSender then 1 else 0] := by
  refine ⟨?_, ?_, ?_, ?_, ?_⟩ <;> 
    simp [msgFront, slice, List.drop_append, List.take_append, List.drop_eq_nil_of_le]

theorem ofBE_flag : decide (ofBE [if isSender then 1 else 0] ≠ 0) = isSender := by
  cases isSender <;> decide

theorem ofBitcoinMsgLogFormat_front :
    ofBitcoinMsgLogFormat (msgFront sourceId time id isSender ++ m.wire) =
      loggedMsg sourceId time id isSender m := by
  have front := msgFront_length sourceId time id isSender
  obtain ⟨source, type, timestamp, handle, flag⟩ := msgFront_fields sourceId time id isSender
  have left : ∀ off n, off + n ≤ 18 → slice off n (msgFront sourceId time id isSender ++ m.wire) =
      slice off n (msgFront sourceId time id isSender) := by
    intro off n inside
    exact slice_append_left _ (front ▸ inside)
  have msg : (msgFront sourceId time id isSender ++ m.wire).drop 18 = m.wire := by
    rw [← front, List.drop_left]
  rw [ofBitcoinMsgLogFormat, left 0 4 (by omega), left 4 1 (by omega), left 5 8 (by omega),
    left 13 4 (by omega), left 17 1 (by omega), source, type, timestamp, handle, flag, ofBE_flag,
    slice, msg, packedLength_wire, ← m.wire_length, List.take_length,
    ofBE_be_of_lt sourceId.toNat_lt, ofBE_be_of_lt time.toNat_lt, ofBE_be_of_lt id.toNat_lt]
  rfl

theorem deserializeMsgLog_front :
    deserializeMsgLog (msgFront sourceId time id isSender ++ m.wire) =
      some (loggedMsg sourceId time id isSender m) := by
  have front := msgFront_length sourceId time id isSender
  have msg : (msgFront sourceId time id isSender ++ m.wire).drop 18 = m.wire := by
    rw [← front, List.drop_left]
  have type : ofBE (slice 4 1 (msgFront sourceId time id isSender ++ m.wire)) =
      LogType.BITCOIN_MSG.byte.toNat :=
    congrArg MsgLog.logType (ofBitcoinMsgLogFormat_front sourceId time id isSender m)
  rw [deserializeMsgLog_of_long (by rw [List.length_append, front]; omega) type,
    ofBitcoinMsgLogFormat_front, msg]
  rfl

/-- The frame the log server makes of the record, as long as the length of the record fits the
prefix. -/
theorem frame_handed (fits : bitcoinMsgLen m.length < 2 ^ 32) :
    frame (handed sourceId (msgRecord time id isSender m)) =
      be 4 (bitcoinMsgLen m.length + 4) ++ (msgFront sourceId time id isSender ++ m.wire) := by
  have length := bitcoinMsgContent_length time id isSender m
  rw [frame, handed, body_msgRecord, take_msgRecord, ofBE_be_of_lt fits, ← length, List.take_length,
    List.append_assoc, bitcoinMsgContent, msgFront]
  simp only [List.append_assoc]

theorem msgRecord_complete (fits : bitcoinMsgLen m.length < 2 ^ 32) :
    records.Complete (msgRecord time id isSender m) := by
  apply LogCall.record_complete
  show (bitcoinMsgContent 0 id isSender m).length < 2 ^ 32
  rw [bitcoinMsgContent_length]
  exact fits

theorem frame_handed_complete (short : bitcoinMsgLen m.length < 2 ^ 32 - 4) :
    records.Complete (frame (handed sourceId (msgRecord time id isSender m))) := by
  rw [frame_handed _ _ _ _ _ (by omega)]
  apply complete_record (length_be ..)
  rw [ofBE_be_of_lt (show _ < 256 ^ 4 by omega), List.length_append, msgFront_length,
    m.wire_length, bitcoinMsgLen]
  omega

/-- A record that is shorter than `2 ^ 32 - 4` bytes is written by `io_cb` as one frame, and the
two readers find in it what was logged. -/
theorem bitcoinMsg_round_trips (h : OutputCxn)
    (short : (body (msgRecord time id isSender m)).length < 2 ^ 32 - 4) :
    ∃ f, (h.enqueue (handed sourceId (msgRecord time id isSender m))).writeQueue.pending =
        h.writeQueue.pending ++ f ∧
      records.Complete (msgRecord time id isSender m) ∧ records.Complete f ∧
      ofBitcoinMsgLogFormat (body f) = loggedMsg sourceId time id isSender m ∧
      deserializeMsgLog (body f) = some (loggedMsg sourceId time id isSender m) := by
  rw [body_msgRecord, bitcoinMsgContent_length] at short
  have fits : bitcoinMsgLen m.length < 2 ^ 32 := by omega
  refine ⟨_, OutputCxn.enqueue_pending h _, msgRecord_complete _ _ _ _ fits,
    frame_handed_complete _ _ _ _ _ short, ?_, ?_⟩
  · rw [frame_handed _ _ _ _ _ fits, body_append (length_be ..), ofBitcoinMsgLogFormat_front]
  · rw [frame_handed _ _ _ _ _ fits, body_append (length_be ..), deserializeMsgLog_front]

/-! ## Lengths -/

/-- The length in front of the record is that of the record, the one the log server writes is
four more, and who goes by them finds the next record behind this one. -/
structure LengthsRight : Prop where
  record : ofBE ((msgRecord time id isSender m).take 4) =
    (body (msgRecord time id isSender m)).length
  frame : ofBE ((frame (handed sourceId (msgRecord time id isSender m))).take 4) =
    (body (msgRecord time id isSender m)).length + 4
  sync : records.Complete (msgRecord time id isSender m) ∧
    records.Complete (LogServer.frame (handed sourceId (msgRecord time id isSender m)))

theorem body_msgRecord_length :
    (body (msgRecord time id isSender m)).length = 38 + m.length := by
  rw [body_msgRecord, bitcoinMsgContent_length]
  rfl

theorem ofBE_take_msgRecord :
    ofBE ((msgRecord time id isSender m).take 4) = (38 + m.length) % 2 ^ 32 := by
  rw [take_msgRecord, ofBE_be]
  rfl

theorem ofBE_take_frame (p : SizedBuffer) : ofBE ((frame p).take 4) = (p.len + 4) % 2 ^ 32 := by
  rw [frame, List.append_assoc, List.take_append_of_le_length (by simp),
    List.take_of_length_le (by simp), ofBE_be]
  rfl

theorem LengthsRight.short (right : LengthsRight sourceId time id isSender m) :
    m.length < 2 ^ 32 - 42 := by
  have record := right.record
  have frame := right.frame
  rw [ofBE_take_frame, handed, body_msgRecord_length, record, body_msgRecord_length] at frame
  have below := Nat.mod_lt (38 + m.length + 4) (show 0 < 2 ^ 32 by decide)
  omega

/-- The lengths are right exactly if the message leaves room for the 42 bytes in front of it. -/
theorem lengths_right_iff :
    LengthsRight sourceId time id isSender m ↔ m.length < 2 ^ 32 - 42 := by
  constructor
  · exact LengthsRight.short sourceId time id isSender m
  · intro short
    have size : bitcoinMsgLen m.length = 38 + m.length := rfl
    have record : ofBE ((msgRecord time id isSender m).take 4) =
        (body (msgRecord time id isSender m)).length := by
      rw [ofBE_take_msgRecord, body_msgRecord_length, Nat.mod_eq_of_lt (by omega)]
    refine ⟨record, ?_, msgRecord_complete _ _ _ _ (by omega),
      frame_handed_complete _ _ _ _ _ (by omega)⟩
    rw [ofBE_take_frame, handed, record, body_msgRecord_length]
    exact Nat.mod_eq_of_lt (show 38 + m.length + 4 < 2 ^ 32 by omega)

end RoundTrip

theorem packedLength_zeros (n : Nat) (rest : List UInt8) :
    packedLength (List.replicate 16 0 ++ (le 4 n ++ rest)) = n % 2 ^ 32 := by
  rw [packedLength, slice_append_right _ (by simp), slice_append_left _ (by simp),
    List.length_replicate, slice, Nat.sub_self, List.drop_zero, List.take_of_length_le (by simp),
    ofLE_le]
  rfl

theorem whole_zeros (n : Nat) :
    packedSize + packedLength (List.replicate 16 0 ++
        (le 4 n ++ List.replicate (4 + n % 2 ^ 32) 0)) ≤
      (List.replicate 16 (0 : UInt8) ++ (le 4 n ++ List.replicate (4 + n % 2 ^ 32) 0)).length := by
  rw [packedLength_zeros, packedSize, List.length_append, List.length_append, length_le,
    List.length_replicate, List.length_replicate]
  omega

/-- A message of zeros, of any length. -/
def zeros (n : Nat) : PackedMessage where
  buffer := List.replicate 16 0 ++ (le 4 n ++ List.replicate (4 + n % 2 ^ 32) 0)
  whole := whole_zeros n

theorem zeros_length (n : Nat) : (zeros n).length = n % 2 ^ 32 := packedLength_zeros n _

/-- A small message. -/
theorem bitcoinMsg_round_trips_small :
    ∃ f, ((OutputCxn.new 5 0xff).enqueue
          (handed 7 (msgRecord 1400000000 3 true (zeros 2)))).writeQueue.pending =
        (OutputCxn.new 5 0xff).writeQueue.pending ++ f ∧
      records.Complete (msgRecord 1400000000 3 true (zeros 2)) ∧ records.Complete f ∧
      ofBitcoinMsgLogFormat (body f) = loggedMsg 7 1400000000 3 true (zeros 2) ∧
      deserializeMsgLog (body f) = some (loggedMsg 7 1400000000 3 true (zeros 2)) :=
  bitcoinMsg_round_trips 7 1400000000 3 true (zeros 2) (OutputCxn.new 5 0xff) (by decide +kernel)

/-- A message that is 38 bytes short of `2 ^ 32` has a record with length zero. -/
theorem long_message_out_of_sync : ¬ LengthsRight 7 1400000000 3 false (zeros (2 ^ 32 - 38)) := by
  intro right
  have short := right.short
  rw [zeros_length] at short
  omega

end Coinscope.Clients

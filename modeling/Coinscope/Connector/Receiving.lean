/-
# Connector.Receiving -- what a handler has received

The receiving half of a handler is tied together by one invariant, `Sound`: the
bytes `recv` delivered are the messages passed to `handle_message_recv`, then what
the read queue holds, then what waits in its receive array; and the state word says
how far the message in the queue has come (`Phase`).

* `SameReads` -- steps that leave the receiving half alone: every append, the
  timers, the whole sending side.
* `Handler.Switched`, `Handler.Reading`, `Handler.Called` -- what the `switch`, the
  loop and the callback can do, each said once for all properties.
* `Handler.process_processed`, `Handler.doRead_read` -- the receiving side, one full
  buffer and then the loop.
* `Peer.run_sound` -- every handler, at every moment.
-/
import Coinscope.Connector.BitcoinHandler
import Coinscope.Theory.Framing
import Mathlib.Data.List.Infix

namespace Coinscope.Connector

open Coinscope.Shared
open Coinscope.Theory.Bytes
open Coinscope.Theory.Framing
open Coinscope.Theory.Runs

set_option autoImplicit false

/-! ## Flags -/

theorem or_and (x y z : UInt32) : (x ||| y) &&& z = (x &&& z) ||| (y &&& z) :=
  UInt32.toBitVec_inj.1 (by simp [BitVec.and_or_distrib_right])

theorem recv_receiving (s r : UInt32) :
    ((s &&& SEND_MASK) ||| r) &&& RECV_MASK = r &&& RECV_MASK := by
  have apart : SEND_MASK &&& RECV_MASK = 0 := by decide
  rw [or_and, UInt32.and_assoc, apart, UInt32.and_zero, UInt32.zero_or]

theorem recv_or_message (s : UInt32) : (s ||| SEND_MESSAGE) &&& RECV_MASK = s &&& RECV_MASK := by
  have apart : SEND_MESSAGE &&& RECV_MASK = 0 := by decide
  rw [or_and, apart, UInt32.or_zero]

theorem init_or_message (s : UInt32) :
    (s ||| SEND_MESSAGE) &&& SEND_VERSION_INIT = s &&& SEND_VERSION_INIT := by
  have apart : SEND_MESSAGE &&& SEND_VERSION_INIT = 0 := by decide
  rw [or_and, apart, UInt32.or_zero]

theorem init_receiving {s r : UInt32} (low : r &&& SEND_VERSION_INIT = 0) :
    ((s &&& SEND_MASK) ||| r) &&& SEND_VERSION_INIT = s &&& SEND_VERSION_INIT := by
  have inside : SEND_MASK &&& SEND_VERSION_INIT = SEND_VERSION_INIT := by decide
  rw [or_and, UInt32.and_assoc, inside, low, UInt32.or_zero]

theorem recv_recv (s : UInt32) : (s &&& RECV_MASK) &&& RECV_MASK = s &&& RECV_MASK := by
  rw [UInt32.and_assoc, UInt32.and_self]

theorem init_recv (s : UInt32) : (s &&& RECV_MASK) &&& SEND_VERSION_INIT = 0 := by
  have apart : RECV_MASK &&& SEND_VERSION_INIT = 0 := by decide
  rw [UInt32.and_assoc, apart, UInt32.and_zero]

theorem send_or_message (s : UInt32) : (s ||| SEND_MESSAGE) &&& SEND_MASK ≠ 0 := by
  have inside : SEND_MESSAGE &&& SEND_MASK = SEND_MESSAGE := by decide
  rw [or_and, inside]
  intro none_
  exact absurd (UInt32.or_eq_zero_iff.1 none_).2 (by decide)

theorem send_receiving {s r : UInt32} (low : r &&& SEND_MASK = 0) :
    ((s &&& SEND_MASK) ||| r) &&& SEND_MASK = s &&& SEND_MASK := by
  rw [or_and, UInt32.and_assoc, UInt32.and_self, low, UInt32.or_zero]

theorem send_send (s : UInt32) : (s &&& SEND_MASK) &&& SEND_MASK = s &&& SEND_MASK := by
  rw [UInt32.and_assoc, UInt32.and_self]

/-- The send half is exactly `SEND_VERSION_INIT` only if the flag is set. -/
theorem init_of_send {s : UInt32} (only : s &&& SEND_MASK = SEND_VERSION_INIT) :
    s &&& SEND_VERSION_INIT ≠ 0 := by
  have inside : SEND_MASK &&& SEND_VERSION_INIT = SEND_VERSION_INIT := by decide
  rw [← inside, ← UInt32.and_assoc, only]
  decide

/-! ## Messages -/

/-- The framing of the peer-to-peer protocol. -/
def messages : Format UInt8 where
  header := packedSize
  header_pos := by decide
  bodyLength := packedLength

theorem messages_size (stream : List UInt8) :
    messages.size stream = packedSize + packedLength stream := by
  show packedSize + packedLength (stream.take packedSize) = _
  rw [packedLength, packedLength, slice_take _ (by decide)]

/-- The messages passed to `handle_message_recv`, whose first statement logs them. -/
def received (log : List LogCall) : List (List UInt8) :=
  log.filterMap fun
    | .bitcoinMsg _ false m => some m.wire
    | .bitcoinMsg _ true _ => none
    | .bitcoin .. => none
    | .text .. => none

theorem received_append (a b : List LogCall) : received (a ++ b) = received a ++ received b :=
  List.filterMap_append

/-! ## The sending side leaves the receiving side alone -/

/-- Nothing the receiving side depends on differs. -/
structure SameReads (h h' : Handler) : Prop where
  readQueue : h'.readQueue = h.readQueue
  got : h'.got = h.got
  failed : h'.failed = h.failed
  recv : h'.state &&& RECV_MASK = h.state &&& RECV_MASK
  init : h'.state &&& SEND_VERSION_INIT = h.state &&& SEND_VERSION_INIT
  received : received h'.log = received h.log
  fd : h'.io.fd = h.io.fd
  writes : h.writeQueue.Valid → h'.writeQueue.Valid

namespace SameReads

theorem refl (h : Handler) : SameReads h h := ⟨rfl, rfl, rfl, rfl, rfl, rfl, rfl, fun valid => valid⟩

theorem trans {a b c : Handler} (first : SameReads a b) (second : SameReads b c) :
    SameReads a c where
  readQueue := second.readQueue.trans first.readQueue
  got := second.got.trans first.got
  failed := second.failed.trans first.failed
  recv := second.recv.trans first.recv
  init := second.init.trans first.init
  received := second.received.trans first.received
  fd := second.fd.trans first.fd
  writes := second.writes ∘ first.writes

end SameReads

namespace Handler

theorem ioSet_sameReads (h : Handler) (e : Events) : SameReads h (h.ioSet e) := by
  unfold ioSet
  split
  · exact ⟨rfl, rfl, rfl, rfl, rfl, rfl, rfl, fun valid => valid⟩
  · exact SameReads.refl h

theorem appendedForWrite_sameReads (h : Handler) (m : PackedMessage) {queue : WriteBuffer}
    (valid : h.writeQueue.Valid → queue.Valid) : SameReads h (h.appendedForWrite m queue) := by
  have logged : SameReads h { h.gLog (.bitcoinMsg h.id true m) with writeQueue := queue } :=
    ⟨rfl, rfl, rfl, rfl, rfl, by simp [gLog, received], rfl, valid⟩
  have flagged : ∀ k : Handler, SameReads k { k with state := k.state ||| SEND_MESSAGE } :=
    fun k => ⟨rfl, rfl, rfl, recv_or_message _, init_or_message _, rfl, rfl, fun valid => valid⟩
  unfold appendedForWrite
  simp only
  split
  · exact (logged.trans (ioSet_sameReads ..)).trans (flagged _)
  · exact logged.trans (flagged _)

theorem appendForWrite_sameReads (h : Handler) (m : PackedMessage) :
    SameReads h (h.appendForWrite m) :=
  h.appendedForWrite_sameReads m fun valid => valid.append m.wire_pos

theorem appendForWriteShared_sameReads (h : Handler) (m : PackedMessage) :
    SameReads h (h.appendForWriteShared m) :=
  h.appendedForWrite_sameReads m fun valid =>
    valid.appendShared (Nat.add_pos_left (by decide) _) m.whole

theorem startPingers_sameReads (cfg : Config) (h : Handler) : SameReads h (h.startPingers cfg) :=
  ⟨rfl, rfl, rfl, rfl, rfl, rfl, rfl, fun valid => valid⟩

/-- Handling a message logs it as received; the rest is the sending side. -/
theorem handleMessageRecv_sameReads (cfg : Config) (h : Handler) (lastBlock : Int)
    (m : PackedMessage) :
    SameReads (h.gLog (.bitcoinMsg h.id false m)) (h.handleMessageRecv cfg lastBlock m).1 := by
  have reacted := handleMessageRecv_reacted cfg h lastBlock m
  generalize (h.handleMessageRecv cfg lastBlock m).1 = h' at reacted ⊢
  cases reacted with
  | ping => exact appendForWriteShared_sameReads ..
  | getblocks => exact appendForWrite_sameReads ..
  | verack => exact startPingers_sameReads ..
  | unexpected =>
      exact ⟨rfl, rfl, rfl, rfl, rfl, by simp [gLog, received], rfl, fun valid => valid⟩
  | nothing => exact SameReads.refl _

end Handler

/-! ## The invariant -/

/-- How far the message in the read queue has come, by the receive half of the
state.  `done` are the messages handled before it. -/
inductive Phase (recv : UInt32) (q : ReadBuffer) (done : List (List UInt8)) : Prop where
  /-- Nothing is being received: the initial version is being written. -/
  | idle (state : recv = 0) (toRead : q.toRead = 0) (held : q.held = []) (unread : q.unread = [])
      (first : done = [])
  /-- A header, the first one or a later one. -/
  | header (state : recv = RECV_HEADER ∧ done ≠ [] ∨
        (recv = RECV_VERSION_INIT_HDR ∨ recv = RECV_VERSION_REPLY_HDR) ∧ done = [])
      (hungry : 0 < q.toRead) (count : q.held.length + q.toRead = packedSize)
  /-- The payload of a message behind the first. -/
  | payload (state : recv = RECV_PAYLOAD) (later : done ≠ []) (there : packedSize ≤ q.held.length)
      (count : q.held.length + q.toRead = packedSize + packedLength q.held) (hungry : 0 < q.toRead)
  /-- The payload of the first message, which may be missing. -/
  | version (state : recv = RECV_VERSION_INIT ∨ recv = RECV_VERSION_REPLY) (first : done = [])
      (there : packedSize ≤ q.held.length)
      (count : q.held.length + q.toRead = packedSize + packedLength q.held)
      (stuck : 0 < q.toRead ∨ packedLength q.held = 0)

/-- The part of the invariant that holds also between a full buffer and its
`switch`. -/
structure Kept (h : Handler) : Prop where
  reads : h.readQueue.Valid
  writes : h.writeQueue.Valid
  intact : h.failed = false
  complete : ∀ f ∈ received h.log, messages.Complete f
  nonzero : ∀ f ∈ (received h.log).head?, packedLength f ≠ 0
  whole : h.got = (received h.log).flatten ++ h.readQueue.held ++ h.readQueue.unread
  init : h.state &&& SEND_VERSION_INIT ≠ 0 → h.state &&& RECV_MASK = 0

structure Sound (h : Handler) : Prop extends Kept h where
  phase : Phase (h.state &&& RECV_MASK) h.readQueue (received h.log)

theorem Kept.transfer {h h' : Handler} (kept : Kept h) (same : SameReads h h') : Kept h' where
  reads := same.readQueue ▸ kept.reads
  writes := same.writes kept.writes
  intact := same.failed.trans kept.intact
  complete := same.received ▸ kept.complete
  nonzero := same.received ▸ kept.nonzero
  whole := by rw [same.got, same.received, same.readQueue]; exact kept.whole
  init := by rw [same.init, same.recv]; exact kept.init

theorem Sound.transfer {h h' : Handler} (sound : Sound h) (same : SameReads h h') : Sound h' :=
  ⟨sound.toKept.transfer same, by
    rw [same.recv, same.received, same.readQueue]
    exact sound.phase⟩

namespace Handler

theorem suicide_sound {h : Handler} (sound : Sound h) : Sound h.suicide :=
  ⟨⟨sound.reads, sound.writes, sound.intact, sound.complete, sound.nonzero, sound.whole,
    sound.init⟩, sound.phase⟩

/-- A BITCOIN record is no received message. -/
theorem gLogBitcoin_sound {h : Handler} (sound : Sound h) (updateType : UInt32)
    (text : List UInt8) : Sound (h.gLogBitcoin updateType text) :=
  sound.transfer ⟨rfl, rfl, rfl, rfl, rfl, by simp [gLogBitcoin, gLog, received], rfl, fun valid => valid⟩

end Handler

/-! ## A full buffer -/

/-- What is in the queue when the last byte wanted has come. -/
inductive FullPhase (recv : UInt32) (held : List UInt8) (done : List (List UInt8)) : Prop where
  | header (state : recv = RECV_HEADER ∧ done ≠ [] ∨
        (recv = RECV_VERSION_INIT_HDR ∨ recv = RECV_VERSION_REPLY_HDR) ∧ done = [])
      (count : held.length = packedSize)
  | payload (state : recv = RECV_PAYLOAD ∧ done ≠ [] ∨
        (recv = RECV_VERSION_INIT ∨ recv = RECV_VERSION_REPLY) ∧ done = [])
      (count : held.length = packedSize + packedLength held) (some_ : packedLength held ≠ 0)

/-- The length field of a message does not change behind its header. -/
theorem packedLength_append {held : List UInt8} (there : packedSize ≤ held.length)
    (more : List UInt8) : packedLength (held ++ more) = packedLength held := by
  have size : packedSize = 24 := rfl
  rw [packedLength, packedLength, slice_append_left _ (by omega)]

theorem Phase.full {recv : UInt32} {q q' : ReadBuffer} {done : List (List UInt8)}
    {bytes : List UInt8} (phase : Phase recv q done) (hungry : 0 < q.toRead)
    (length : bytes.length = q.toRead) (held : q'.held = q.held ++ bytes) :
    FullPhase recv q'.held done := by
  cases phase with
  | idle _ toRead => omega
  | header state _ count =>
      refine .header state ?_
      rw [held, List.length_append]
      omega
  | payload state later there count _ =>
      rw [held]
      refine .payload (Or.inl ⟨state, later⟩) ?_ ?_
      · rw [packedLength_append there, List.length_append]; omega
      · rw [packedLength_append there]; omega
  | version state first there count _ =>
      rw [held]
      refine .payload (Or.inr ⟨state, first⟩) ?_ ?_
      · rw [packedLength_append there, List.length_append]; omega
      · rw [packedLength_append there]; omega

/-- Fewer bytes than wanted leave the phase as it is. -/
theorem Phase.short {recv : UInt32} {q q' : ReadBuffer} {done : List (List UInt8)}
    {bytes : List UInt8} (phase : Phase recv q done) (less : bytes.length < q.toRead)
    (held : q'.held = q.held ++ bytes) (toRead : q'.toRead = q.toRead - bytes.length) :
    Phase recv q' done := by
  cases phase with
  | idle _ none_ => omega
  | header state _ count =>
      refine .header state (by omega) ?_
      rw [held, List.length_append]
      omega
  | payload state later there count _ =>
      refine .payload state later ?_ ?_ (by omega)
      · rw [held, List.length_append]; omega
      · rw [held, packedLength_append there, List.length_append]; omega
  | version state first there count _ =>
      refine .version state first ?_ ?_ (Or.inl (by omega))
      · rw [held, List.length_append]; omega
      · rw [held, packedLength_append there, List.length_append]; omega

theorem FullPhase.long {recv : UInt32} {held : List UInt8} {done : List (List UInt8)}
    (full : FullPhase recv held done) : packedSize ≤ held.length := by
  cases full with
  | header _ count => omega
  | payload _ count _ => omega

/-- The states a header is awaited in, against those a body is awaited in. -/
theorem FullPhase.at_header {recv : UInt32} {held : List UInt8} {done : List (List UInt8)}
    (full : FullPhase recv held done) (state : recv = RECV_HEADER ∨ recv = RECV_VERSION_INIT_HDR ∨
      recv = RECV_VERSION_REPLY_HDR) :
    held.length = packedSize ∧ (recv = RECV_HEADER ∧ done ≠ [] ∨ recv ≠ RECV_HEADER ∧ done = []) := by
  cases full with
  | header there count =>
      refine ⟨count, ?_⟩
      rcases there with ⟨here, later⟩ | ⟨here | here, first⟩
      · exact Or.inl ⟨here, later⟩
      · exact Or.inr ⟨by rw [here]; decide, first⟩
      · exact Or.inr ⟨by rw [here]; decide, first⟩
  | payload there _ _ =>
      exfalso
      rcases there with ⟨here, -⟩ | ⟨here | here, -⟩ <;> rw [here] at state <;>
        exact absurd state (by decide)

theorem FullPhase.at_body {recv : UInt32} {held : List UInt8} {done : List (List UInt8)}
    (full : FullPhase recv held done) (state : recv = RECV_PAYLOAD ∨ recv = RECV_VERSION_INIT ∨
      recv = RECV_VERSION_REPLY) :
    held.length = packedSize + packedLength held ∧ packedLength held ≠ 0 := by
  cases full with
  | header there _ =>
      exfalso
      rcases there with ⟨here, -⟩ | ⟨here | here, -⟩ <;> rw [here] at state <;>
        exact absurd state (by decide)
  | payload _ count some_ => exact ⟨count, some_⟩

namespace Handler

/-- With all of a message in the queue, the pointer into the buffer is good and the
message it points to is what the queue holds. -/
theorem message_of_held {h : Handler} (reads : h.readQueue.Valid)
    (count : h.readQueue.held.length = packedSize + packedLength h.readQueue.held) :
    ∃ m : PackedMessage, m.buffer = h.readQueue.buffer ∧ m.wire = h.readQueue.held ∧
      ∀ (lastBlock : Int) (k : PackedMessage → Handler × Int),
        h.withMessage lastBlock k = k m := by
  have size : packedSize = 24 := rfl
  have cursor := reads.held_length
  have inside := reads.cursor
  have same : packedLength h.readQueue.buffer = packedLength h.readQueue.held := by
    rw [packedLength, packedLength, ReadBuffer.held, slice_take _ (by omega)]
  have whole : packedSize + packedLength h.readQueue.buffer ≤ h.readQueue.buffer.length := by omega
  refine ⟨⟨h.readQueue.buffer, whole⟩, rfl, ?_, ?_⟩
  · rw [PackedMessage.wire, PackedMessage.length, same, ← count, cursor]
    rfl
  · intro lastBlock k
    simp only [withMessage, whole, dite_true]

/-- Behind a handled message: it is the last of the received ones, and the queue
is ready for a header. -/
structure Handled (h h' : Handler) : Prop where
  kept : Kept h'
  list : received h'.log = received h.log ++ [h.readQueue.held]
  held : h'.readQueue.held = []
  toRead : h'.readQueue.toRead = packedSize
  unread : h'.readQueue.unread = h.readQueue.unread
  got : h'.got = h.got
  recv : h'.state &&& RECV_MASK = h.state &&& RECV_MASK
  fd : h'.io.fd = h.io.fd

theorem handleMessage_handled {cfg : Config} {h : Handler} {lastBlock : Int} (kept : Kept h)
    (count : h.readQueue.held.length = packedSize + packedLength h.readQueue.held)
    (fresh : received h.log = [] → packedLength h.readQueue.held ≠ 0) :
    Handled h (h.handleMessage cfg lastBlock).1 := by
  obtain ⟨m, -, wire, run⟩ := message_of_held kept.reads count
  rw [handleMessage, run]
  have same := h.handleMessageRecv_sameReads cfg lastBlock m
  have logged : received (h.gLog (.bitcoinMsg h.id false m)).log =
      received h.log ++ [h.readQueue.held] := by
    rw [gLog, received_append, ← wire]
    rfl
  have list : received (h.handleMessageRecv cfg lastBlock m).1.log =
      received h.log ++ [h.readQueue.held] := same.received.trans logged
  have queue : (h.handleMessageRecv cfg lastBlock m).1.readQueue = h.readQueue := same.readQueue
  have got : (h.handleMessageRecv cfg lastBlock m).1.got = h.got := same.got
  refine ⟨⟨?_, same.writes kept.writes, same.failed.trans kept.intact, ?_, ?_, ?_, ?_⟩, list, ?_,
    rfl, ?_, got, same.recv, same.fd⟩
  · show (((h.handleMessageRecv cfg lastBlock m).1.readQueue.setCursor 0).setToRead _).Valid
    rw [queue]
    exact kept.reads.rewind.setToRead _
  · intro f member
    simp only [nextHeader, list] at member
    rcases List.mem_append.1 member with early | last
    · exact kept.complete f early
    · rw [List.mem_singleton.1 last]
      constructor
      · show packedSize ≤ _
        omega
      · rw [messages_size]
        exact count
  · intro f member
    simp only [nextHeader, list] at member
    cases before : received h.log with
    | nil =>
        rw [before] at member
        simp only [List.nil_append, List.head?_cons, Option.mem_some_iff] at member
        subst member
        exact fresh before
    | cons g rest =>
        rw [before] at member
        simp only [List.cons_append, List.head?_cons, Option.mem_some_iff] at member
        exact kept.nonzero f (by rw [before]; simpa using member)
  · simp only [nextHeader, list, queue]
    rw [got, kept.whole, List.flatten_append]
    simp
  · simp only [nextHeader]
    rw [same.init, same.recv]
    exact kept.init
  · simp only [nextHeader, queue, ReadBuffer.setToRead_held, ReadBuffer.setCursor_held]
  · simp only [nextHeader, queue, ReadBuffer.setToRead_unread, ReadBuffer.setCursor_unread]

/-- Moving on to another receive state. -/
theorem receiving_kept {h : Handler} (kept : Kept h) (busy : h.state &&& RECV_MASK ≠ 0)
    {r : UInt32} (low : r &&& SEND_VERSION_INIT = 0) : Kept (h.receiving r) := by
  refine ⟨kept.reads, kept.writes, kept.intact, kept.complete, kept.nonzero, kept.whole, ?_⟩
  intro flag
  simp only [receiving] at flag
  rw [init_receiving low] at flag
  exact absurd (kept.init flag) busy

/-- Asking the queue for the announced length. -/
theorem sized_kept {h : Handler} (kept : Kept h) : Kept h.sized :=
  ⟨kept.reads.setToRead _, kept.writes, kept.intact, kept.complete, kept.nonzero, kept.whole,
    kept.init⟩

/-- What the `switch` leaves. -/
structure Processed (h h' : Handler) : Prop where
  sound : Sound h'
  busy : h'.state &&& RECV_MASK ≠ 0
  fd : h'.io.fd = h.io.fd
  got : h'.got = h.got
  unread : h'.readQueue.unread = h.readQueue.unread
  list : received h.log <+: received h'.log

/-- A handled message, then waiting for a header in state `st`; in between only the
sending side was busy. -/
theorem Handled.processed {h h' k : Handler} (handled : Handled h h') (same : SameReads h' k)
    {st : UInt32} (recv : st &&& RECV_MASK = RECV_HEADER)
    (low : st &&& SEND_VERSION_INIT = 0) : Processed h { k with state := st } := by
  have kept := handled.kept.transfer same
  refine ⟨⟨⟨kept.reads, kept.writes, kept.intact, kept.complete, kept.nonzero, kept.whole, ?_⟩, ?_⟩,
    ?_, same.fd.trans handled.fd, same.got.trans handled.got, ?_, ?_⟩
  · intro flag
    exact absurd low flag
  · show Phase (st &&& RECV_MASK) k.readQueue (received k.log)
    rw [recv, same.received, same.readQueue, handled.list]
    refine .header (Or.inl ⟨rfl, by simp⟩) ?_ ?_
    · rw [handled.toRead]
      decide
    · rw [handled.held, handled.toRead]
      rfl
  · show st &&& RECV_MASK ≠ 0
    rw [recv]
    decide
  · show k.readQueue.unread = _
    rw [same.readQueue, handled.unread]
  · show received h.log <+: received k.log
    rw [same.received, handled.list]
    exact List.prefix_append ..

/-- A header with a body to come. -/
theorem sized_processed {h : Handler} (kept : Kept h) (busy : h.state &&& RECV_MASK ≠ 0)
    {r : UInt32} (inside : r &&& RECV_MASK = r) (low : r &&& SEND_VERSION_INIT = 0) (some_ : r ≠ 0)
    (phase : Phase r h.sized.readQueue (received h.log)) : Processed h (h.sized.receiving r) := by
  have recv : (h.sized.receiving r).state &&& RECV_MASK = r := by
    rw [receiving, recv_receiving, inside]
  refine ⟨⟨receiving_kept (sized_kept kept) busy low, ?_⟩, ?_, rfl, rfl, rfl, List.prefix_refl _⟩
  · rw [recv]
    exact phase
  · rw [recv]
    exact some_

/-- What the `switch` does with a full buffer, by the state it is reached in. -/
inductive Switched (cfg : Config) (env : VersionEnv) (h : Handler) (lastBlock : Int) :
    Handler → Prop
  /-- A header with a body to come, or the header of a version. -/
  | body {r : UInt32} (state : h.state &&& RECV_MASK = RECV_HEADER ∧ r = RECV_PAYLOAD ∧
          0 < packedLength h.readQueue.held ∨
        h.state &&& RECV_MASK = RECV_VERSION_INIT_HDR ∧ r = RECV_VERSION_INIT ∨
        h.state &&& RECV_MASK = RECV_VERSION_REPLY_HDR ∧ r = RECV_VERSION_REPLY) :
      Switched cfg env h lastBlock (h.sized.receiving r)
  /-- A header without a body. -/
  | empty (state : h.state &&& RECV_MASK = RECV_HEADER)
      (nothing : packedLength h.readQueue.held = 0) :
      Switched cfg env h lastBlock (h.sized.handleMessage cfg lastBlock).1
  /-- The rest of a message. -/
  | payload (state : h.state &&& RECV_MASK = RECV_PAYLOAD ∨
        h.state &&& RECV_MASK = RECV_VERSION_INIT) :
      Switched cfg env h lastBlock ((h.handleMessage cfg lastBlock).1.receiving RECV_HEADER)
  /-- The rest of a version that wants an answer. -/
  | reply (state : h.state &&& RECV_MASK = RECV_VERSION_REPLY) :
      Switched cfg env h lastBlock ((h.handleMessage cfg lastBlock).1.replyVersion cfg env
        (h.handleMessage cfg lastBlock).2)

/-- The announced length is asked for. -/
theorem sized_toRead {h : Handler} (kept : Kept h) (long : packedSize ≤ h.readQueue.held.length) :
    h.sized.readQueue.toRead = packedLength h.readQueue.held := by
  have size : packedSize = 24 := rfl
  have cursor := kept.reads.held_length
  show packedLength h.readQueue.buffer = _
  rw [packedLength, packedLength, ReadBuffer.held, slice_take _ (by omega)]

theorem process_switched (cfg : Config) (env : VersionEnv) {h : Handler} (lastBlock : Int)
    (kept : Kept h) (full : FullPhase (h.state &&& RECV_MASK) h.readQueue.held (received h.log)) :
    Switched cfg env h lastBlock (h.process cfg env lastBlock).1 := by
  have cursor := kept.reads.held_length
  have inside := kept.reads.cursor
  have long := full.long
  have room : ¬ h.readQueue.buffer.length < packedSize := by omega
  have asked := sized_toRead kept long
  cases full with
  | header state _ =>
      rcases state with ⟨recv, -⟩ | ⟨recv | recv, -⟩
      · by_cases some_ : 0 < packedLength h.readQueue.held
        · have result : (h.process cfg env lastBlock).1 = h.sized.receiving RECV_PAYLOAD := by
            simp [process, room, recv, ReadBuffer.hungry, asked, some_]
          rw [result]
          exact .body (Or.inl ⟨recv, rfl, some_⟩)
        · have result : h.process cfg env lastBlock = h.sized.handleMessage cfg lastBlock := by
            simp [process, room, recv, ReadBuffer.hungry, asked, some_]
          rw [result]
          exact .empty recv (by omega)
      · have result : (h.process cfg env lastBlock).1 = h.sized.receiving RECV_VERSION_INIT := by
          simp [process, room, recv, RECV_HEADER, RECV_PAYLOAD, RECV_VERSION_INIT_HDR]
        rw [result]
        exact .body (Or.inr (Or.inl ⟨recv, rfl⟩))
      · have result : (h.process cfg env lastBlock).1 = h.sized.receiving RECV_VERSION_REPLY := by
          simp [process, room, recv, RECV_HEADER, RECV_PAYLOAD, RECV_VERSION_INIT_HDR,
            RECV_VERSION_INIT, RECV_VERSION_REPLY_HDR]
        rw [result]
        exact .body (Or.inr (Or.inr ⟨recv, rfl⟩))
  | payload state _ _ =>
      rcases state with ⟨recv, -⟩ | ⟨recv | recv, -⟩
      · have result : (h.process cfg env lastBlock).1 =
            (h.handleMessage cfg lastBlock).1.receiving RECV_HEADER := by
          simp [process, room, recv, RECV_HEADER, RECV_PAYLOAD]
        rw [result]
        exact .payload (Or.inl recv)
      · have result : (h.process cfg env lastBlock).1 =
            (h.handleMessage cfg lastBlock).1.receiving RECV_HEADER := by
          simp [process, room, recv, RECV_HEADER, RECV_PAYLOAD, RECV_VERSION_INIT_HDR,
            RECV_VERSION_INIT]
        rw [result]
        exact .payload (Or.inr recv)
      · have result : (h.process cfg env lastBlock).1 =
            (h.handleMessage cfg lastBlock).1.replyVersion cfg env
              (h.handleMessage cfg lastBlock).2 := by
          simp [process, room, recv, RECV_HEADER, RECV_PAYLOAD, RECV_VERSION_INIT_HDR,
            RECV_VERSION_INIT, RECV_VERSION_REPLY_HDR, RECV_VERSION_REPLY]
        rw [result]
        exact .reply recv

/-- A header without a body is a message of its own. -/
theorem empty_handled (cfg : Config) {h : Handler} (lastBlock : Int) (kept : Kept h)
    (full : FullPhase (h.state &&& RECV_MASK) h.readQueue.held (received h.log))
    (recv : h.state &&& RECV_MASK = RECV_HEADER) (nothing : packedLength h.readQueue.held = 0) :
    h.readQueue.held.length = packedSize + packedLength h.readQueue.held ∧
      Handled h.sized (h.sized.handleMessage cfg lastBlock).1 := by
  obtain ⟨count, ⟨-, later⟩ | ⟨other, -⟩⟩ := full.at_header (Or.inl recv)
  · have whole : h.readQueue.held.length = packedSize + packedLength h.readQueue.held := by omega
    exact ⟨whole, handleMessage_handled (sized_kept kept) whole fun first => absurd first later⟩
  · exact absurd recv other

theorem body_handled (cfg : Config) {h : Handler} (lastBlock : Int) (kept : Kept h)
    (full : FullPhase (h.state &&& RECV_MASK) h.readQueue.held (received h.log))
    (state : h.state &&& RECV_MASK = RECV_PAYLOAD ∨ h.state &&& RECV_MASK = RECV_VERSION_INIT ∨
      h.state &&& RECV_MASK = RECV_VERSION_REPLY) :
    h.readQueue.held.length = packedSize + packedLength h.readQueue.held ∧
      Handled h (h.handleMessage cfg lastBlock).1 := by
  obtain ⟨count, some_⟩ := full.at_body state
  exact ⟨count, handleMessage_handled kept count fun _ => some_⟩

/-- The `switch`, for every state it is reached in. -/
theorem process_processed (cfg : Config) (env : VersionEnv) {h : Handler} (lastBlock : Int)
    (kept : Kept h) (full : FullPhase (h.state &&& RECV_MASK) h.readQueue.held (received h.log)) :
    Processed h (h.process cfg env lastBlock).1 := by
  have long := full.long
  have asked := sized_toRead kept long
  have still : h.sized.readQueue.held = h.readQueue.held := rfl
  have switched := process_switched cfg env lastBlock kept full
  generalize (h.process cfg env lastBlock).1 = h' at switched
  cases switched with
  | body state =>
      rcases state with ⟨recv, rfl, some_⟩ | ⟨recv, rfl⟩ | ⟨recv, rfl⟩
      · obtain ⟨count, ⟨-, later⟩ | ⟨other, -⟩⟩ := full.at_header (Or.inl recv)
        · refine sized_processed kept (by rw [recv]; decide) (by decide) (by decide) (by decide) ?_
          exact .payload rfl later long (by rw [still, asked]; omega) (by rw [asked]; exact some_)
        · exact absurd recv other
      · obtain ⟨count, ⟨here, -⟩ | ⟨-, first⟩⟩ := full.at_header (Or.inr (Or.inl recv))
        · rw [recv] at here
          exact absurd here (by decide)
        · refine sized_processed kept (by rw [recv]; decide) (by decide) (by decide) (by decide) ?_
          exact .version (Or.inl rfl) first long (by rw [still, asked]; omega) (by rw [still, asked]; omega)
      · obtain ⟨count, ⟨here, -⟩ | ⟨-, first⟩⟩ := full.at_header (Or.inr (Or.inr recv))
        · rw [recv] at here
          exact absurd here (by decide)
        · refine sized_processed kept (by rw [recv]; decide) (by decide) (by decide) (by decide) ?_
          exact .version (Or.inr rfl) first long (by rw [still, asked]; omega) (by rw [still, asked]; omega)
  | empty recv nothing =>
      obtain ⟨-, handled⟩ := empty_handled cfg lastBlock kept full recv nothing
      have back : (h.sized.handleMessage cfg lastBlock).1.state &&& RECV_MASK = RECV_HEADER :=
        handled.recv.trans recv
      have processed := handled.processed (SameReads.refl _) back (by
        by_contra flag
        have idle := handled.kept.init flag
        rw [back] at idle
        exact absurd idle (by decide))
      exact ⟨processed.sound, processed.busy, processed.fd, processed.got, processed.unread,
        processed.list⟩
  | payload state =>
      have busy : h.state &&& RECV_MASK ≠ 0 := by
        rcases state with recv | recv <;> rw [recv] <;> decide
      obtain ⟨-, handled⟩ := body_handled cfg lastBlock kept full (by
        rcases state with recv | recv
        · exact Or.inl recv
        · exact Or.inr (Or.inl recv))
      refine handled.processed (SameReads.refl _) (by rw [recv_receiving]; decide) ?_
      rw [init_receiving (by decide)]
      by_contra flag
      exact absurd (handled.kept.init flag) (handled.recv ▸ busy)
  | reply recv =>
      obtain ⟨-, handled⟩ := body_handled cfg lastBlock kept full (Or.inr (Or.inr recv))
      refine handled.processed ?_ (by decide) (by decide)
      exact ((appendForWrite_sameReads ..).trans (appendForWrite_sameReads ..)).trans
        (startPingers_sameReads ..)

/-! ## The loop -/

/-- Taking over what a loop around `do_read` of the queue collected. -/
def filled (h : Handler) (s : ReadStep) : Handler :=
  { h with readQueue := s.queue, got := h.got ++ s.got }

/-- The records `do_read` ends a connection with. -/
def HangUp (updateType : UInt32) : Prop :=
  updateType = ORDERLY_DISCONNECT ∨ updateType = PEER_RESET ∨ updateType = UNEXPECTED_ERROR

/-- The rounds of `do_read`, from the handler and the inbox it starts with to the
handler it leaves. -/
inductive Reading (cfg : Config) (env : VersionEnv) : Handler → List RecvResult → Handler → Prop
  /-- Nothing is wanted. -/
  | sated {h : Handler} {inbox : List RecvResult} (full : h.readQueue.toRead = 0) :
      Reading cfg env h inbox h
  /-- The kernel has no more for now. -/
  | blocked {h : Handler} {inbox : List RecvResult} {bytes : List UInt8}
      (valid : (h.readQueue.fill inbox).queue.Valid)
      (short : ReadBuffer.Short h.readQueue inbox (h.readQueue.fill inbox) bytes)
      (goesOn : hangsUp inbox = false) :
      Reading cfg env h inbox (h.filled (h.readQueue.fill inbox))
  /-- The connection is over. -/
  | ended {h : Handler} {inbox : List RecvResult} {bytes : List UInt8} (updateType : UInt32)
      (text : List UInt8) (valid : (h.readQueue.fill inbox).queue.Valid)
      (short : ReadBuffer.Short h.readQueue inbox (h.readQueue.fill inbox) bytes)
      (ends : hangsUp inbox = true) (hangUp : HangUp updateType) :
      Reading cfg env h inbox
        ((h.filled (h.readQueue.fill inbox)).gLogBitcoin updateType text).suicide
  /-- All that was wanted is there, and the loop goes round. -/
  | round {h : Handler} {inbox : List RecvResult} {bytes : List UInt8} (lastBlock : Int)
      {h' : Handler} (hungry : 0 < h.readQueue.toRead)
      (valid : (h.readQueue.fill inbox).queue.Valid)
      (full : ReadBuffer.Filled h.readQueue inbox (h.readQueue.fill inbox) bytes)
      (next : Reading cfg env ((h.filled (h.readQueue.fill inbox)).process cfg env lastBlock).1
        (h.readQueue.fill inbox).inbox h') :
      Reading cfg env h inbox h'

theorem filled_kept {h : Handler} (sound : Sound h) {s : ReadStep} {bytes : List UInt8}
    (valid : s.queue.Valid) (held : s.queue.held = h.readQueue.held ++ bytes)
    (conserved : h.readQueue.unread ++ s.got = bytes ++ s.queue.unread) : Kept (h.filled s) := by
  refine ⟨valid, sound.writes, sound.intact, sound.complete, sound.nonzero, ?_, sound.init⟩
  show h.got ++ s.got = (received h.log).flatten ++ s.queue.held ++ s.queue.unread
  rw [sound.whole, held, List.append_assoc, conserved]
  simp only [List.append_assoc]

/-- A queue filled up, and the `switch` behind it. -/
theorem round_processed (cfg : Config) (env : VersionEnv) (lastBlock : Int) {h : Handler}
    (sound : Sound h) (hungry : 0 < h.readQueue.toRead) {inbox : List RecvResult}
    {bytes : List UInt8} (valid : (h.readQueue.fill inbox).queue.Valid)
    (full : ReadBuffer.Filled h.readQueue inbox (h.readQueue.fill inbox) bytes) :
    Kept (h.filled (h.readQueue.fill inbox)) ∧
      FullPhase (h.state &&& RECV_MASK) (h.readQueue.fill inbox).queue.held (received h.log) ∧
      Processed (h.filled (h.readQueue.fill inbox))
        ((h.filled (h.readQueue.fill inbox)).process cfg env lastBlock).1 := by
  have kept := filled_kept sound valid full.held full.conserved
  have phase : FullPhase (h.state &&& RECV_MASK) (h.readQueue.fill inbox).queue.held
      (received h.log) := sound.phase.full hungry full.length full.held
  exact ⟨kept, phase, process_processed cfg env lastBlock kept phase⟩

/-- How the answer that ended a loop early ends `do_read`. -/
theorem hangsUp_of_short {q : ReadBuffer} {inbox : List RecvResult} {s : ReadStep}
    {bytes : List UInt8} (short : ReadBuffer.Short q inbox s bytes) :
    s.ret = .count 0 ∧ hangsUp inbox = true ∨
      ∃ e, s.ret = .fail e ∧ hangsUp inbox = decide (e ≠ .eagain ∧ e ≠ .eintr) := by
  obtain ⟨answers, rest, split, data, -, -, answer⟩ := short.took
  rw [split, data.hangsUp_append]
  cases rest with
  | nil =>
      rcases answer with ⟨here, -⟩ | ⟨e, here, ret⟩
      · cases here
      · cases here
        exact Or.inr ⟨.eagain, ret, by simp [hangsUp]⟩
  | cons r rest =>
      rcases answer with ⟨here, ret⟩ | ⟨e, here, ret⟩
      · rw [show r = .eof from here]
        exact Or.inl ⟨ret, rfl⟩
      · rw [show r = .err e from here]
        exact Or.inr ⟨e, ret, rfl⟩

theorem doReadAux_reading (cfg : Config) (env : VersionEnv) (fuel : Nat) {h : Handler}
    (lastBlock : Int) {inbox : List RecvResult} (sound : Sound h)
    (enough : h.readQueue.effort inbox < fuel) :
    Reading cfg env h inbox (doReadAux cfg env fuel h lastBlock inbox).1 := by
  induction fuel generalizing h lastBlock inbox with
  | zero => omega
  | succ fuel ih =>
      by_cases hungry : 0 < h.readQueue.toRead
      · obtain ⟨valid, ⟨bytes, full⟩ | ⟨bytes, short⟩⟩ := ReadBuffer.fill_cases sound.reads inbox
        · obtain ⟨-, -, processed⟩ :=
            round_processed cfg env lastBlock sound hungry valid full
          have light := full.lighter hungry
          have less : ((h.filled (h.readQueue.fill inbox)).process cfg env
              lastBlock).1.readQueue.effort (h.readQueue.fill inbox).inbox < fuel := by
            have same : (h.filled (h.readQueue.fill inbox)).readQueue =
              (h.readQueue.fill inbox).queue := rfl
            simp only [ReadBuffer.effort, processed.unread, same] at light enough ⊢
            omega
          have result : doReadAux cfg env (fuel + 1) h lastBlock inbox =
              doReadAux cfg env fuel ((h.filled (h.readQueue.fill inbox)).process cfg env lastBlock).1
                ((h.filled (h.readQueue.fill inbox)).process cfg env lastBlock).2
                (h.readQueue.fill inbox).inbox := by
            simp only [doReadAux, ReadBuffer.hungry, hungry, full.ret, decide_true, if_true]
            rfl
          rw [result]
          exact .round lastBlock hungry valid full (ih _ processed.sound less)
        · simp only [doReadAux, ReadBuffer.hungry, hungry, decide_true, if_true]
          rcases hangsUp_of_short short with ⟨ret, ends⟩ | ⟨e, ret, ends⟩
          · rw [ret]
            exact .ended ORDERLY_DISCONNECT [] valid short ends (Or.inl rfl)
          · rw [ret]
            cases e with
            | eagain => exact .blocked valid short ends
            | eintr => exact .blocked valid short ends
            | econnreset => exact .ended PEER_RESET [] valid short ends (Or.inr (Or.inl rfl))
            | ebadf => exact .ended UNEXPECTED_ERROR _ valid short ends (Or.inr (Or.inr rfl))
            | other code =>
                exact .ended UNEXPECTED_ERROR _ valid short (ends.trans (by simp))
                  (Or.inr (Or.inr rfl))
      · simp only [doReadAux, ReadBuffer.hungry, gt_iff_lt, hungry, decide_false,
          Bool.false_eq_true, if_false]
        exact .sated (by omega)

theorem doRead_reading (cfg : Config) (env : VersionEnv) {h : Handler} (lastBlock : Int)
    (inbox : List RecvResult) (sound : Sound h) :
    Reading cfg env h inbox (h.doRead cfg env lastBlock inbox).1 :=
  doReadAux_reading cfg env _ lastBlock sound (Nat.lt_add_one _)

/-- What `do_read` leaves.  A handler that still wants bytes has taken all the kernel
had for it. -/
structure Read (h h' : Handler) (inbox : List RecvResult) : Prop where
  sound : Sound h'
  busy : h'.state &&& RECV_MASK ≠ 0
  fd : h'.io.fd = h.io.fd ∨ h'.io.fd = -1
  list : received h.log <+: received h'.log
  got : h'.got <+: h.got ++ stream (leading inbox)
  drained : 0 < h'.readQueue.toRead →
    h'.readQueue.unread = [] ∧ h'.got = h.got ++ stream (leading inbox)

/-- The kernel had nothing more. -/
theorem filled_short {h : Handler} (sound : Sound h) (busy : h.state &&& RECV_MASK ≠ 0)
    {inbox : List RecvResult} {s : ReadStep} {bytes : List UInt8} (valid : s.queue.Valid)
    (short : ReadBuffer.Short h.readQueue inbox s bytes) : Read h (h.filled s) inbox := by
  have taken : (h.filled s).got = h.got ++ stream (leading inbox) := by
    rw [short.delivered]
    rfl
  have kept := filled_kept sound valid short.held (by rw [short.unread, List.append_nil]; exact short.conserved)
  refine ⟨⟨kept, sound.phase.short short.length short.held short.toRead⟩, busy, Or.inl rfl,
    List.prefix_refl _, ?_, fun _ => ⟨short.unread, taken⟩⟩
  rw [taken]

theorem Reading.read {cfg : Config} {env : VersionEnv} {h h' : Handler} {inbox : List RecvResult}
    (reading : Reading cfg env h inbox h') (sound : Sound h) (busy : h.state &&& RECV_MASK ≠ 0) :
    Read h h' inbox := by
  induction reading with
  | sated full =>
      exact ⟨sound, busy, Or.inl rfl, List.prefix_refl _, List.prefix_append .., by omega⟩
  | blocked valid short => exact filled_short sound busy valid short
  | ended updateType text valid short =>
      have read := filled_short sound busy valid short
      exact ⟨suicide_sound (gLogBitcoin_sound read.sound updateType text), read.busy, Or.inr rfl, by
        simpa [suicide, gLogBitcoin, gLog, received_append, received] using read.list, read.got,
        read.drained⟩
  | @round h inbox bytes lastBlock h' hungry valid full next ih =>
      obtain ⟨-, -, processed⟩ := round_processed cfg env lastBlock sound hungry valid full
      have later := ih processed.sound processed.busy
      have total : ((h.filled (h.readQueue.fill inbox)).process cfg env lastBlock).1.got ++
          stream (leading (h.readQueue.fill inbox).inbox) = h.got ++ stream (leading inbox) := by
        rw [processed.got, full.delivered, ← List.append_assoc]
        rfl
      refine ⟨later.sound, later.busy, ?_, processed.list.trans later.list, ?_, ?_⟩
      · rcases later.fd with same | gone
        · exact Or.inl (same.trans processed.fd)
        · exact Or.inr gone
      · rw [← total]
        exact later.got
      · intro more
        rw [← total]
        exact later.drained more

theorem doRead_read (cfg : Config) (env : VersionEnv) {h : Handler} (lastBlock : Int)
    (inbox : List RecvResult) (sound : Sound h) (busy : h.state &&& RECV_MASK ≠ 0) :
    Read h (h.doRead cfg env lastBlock inbox).1 inbox :=
  (doRead_reading cfg env lastBlock inbox sound).read sound busy

/-! ## Writing -/

/-- The queue after the loop around `do_write`. -/
theorem flushed_sound {h : Handler} (sound : Sound h) (outbox : List WriteResult) :
    Sound { h with
      writeQueue := (WriteBuffer.flush h.io.fd outbox h.writeQueue).queue
      sent := h.sent ++ (WriteBuffer.flush h.io.fd outbox h.writeQueue).put } :=
  sound.transfer ⟨rfl, rfl, rfl, rfl, rfl, rfl, rfl,
    fun valid => (WriteBuffer.flush_flushed h.io.fd outbox valid).valid⟩

/-- A drained queue: the initial version is out and its answer is awaited, or the
send half is cleared. -/
theorem drained_cases {h : Handler} (sound : Sound h) :
    (h.state &&& SEND_MASK = SEND_VERSION_INIT ∧ h.drained =
        { h with state := RECV_VERSION_INIT_HDR, readQueue := h.readQueue.setToRead packedSize }) ∨
      (h.state &&& SEND_MASK ≠ SEND_VERSION_INIT ∧
        h.drained = { h with state := h.state &&& RECV_MASK }) := by
  by_cases only : h.state &&& SEND_MASK = SEND_VERSION_INIT
  · left
    have none_ := sound.init (init_of_send only)
    have empty : h.readQueue.toRead = 0 := by
      have phase := sound.phase
      rw [none_] at phase
      cases phase with
      | idle _ toRead => exact toRead
      | header state => rcases state with ⟨here, -⟩ | ⟨here | here, -⟩ <;> exact absurd here (by decide)
      | payload state => exact absurd state (by decide)
      | version state => rcases state with here | here <;> exact absurd here (by decide)
    have clear : RECV_VERSION_INIT_HDR &&& RECV_MASK = RECV_VERSION_INIT_HDR := by decide
    exact ⟨only, by simp [drained, only, empty, clear]⟩
  · exact Or.inr ⟨only, by simp [drained, only]⟩

theorem drained_sound {h : Handler} (sound : Sound h) : Sound h.drained := by
  rcases drained_cases sound with ⟨only, result⟩ | ⟨-, result⟩
  · rw [result]
    have none_ := sound.init (init_of_send only)
    have low : RECV_VERSION_INIT_HDR &&& SEND_VERSION_INIT = 0 := by decide
    have inside : RECV_VERSION_INIT_HDR &&& RECV_MASK = RECV_VERSION_INIT_HDR := by decide
    refine ⟨⟨sound.reads.setToRead _, sound.writes, sound.intact, sound.complete, sound.nonzero,
      sound.whole, ?_⟩, ?_⟩
    · intro flag
      exact absurd low flag
    · have phase := sound.phase
      rw [none_] at phase
      cases phase with
      | idle _ _ held _ first =>
          refine .header (Or.inr ⟨Or.inl inside, first⟩) (by show 0 < packedSize; decide) ?_
          show h.readQueue.held.length + packedSize = packedSize
          rw [held]
          rfl
      | header state => rcases state with ⟨here, -⟩ | ⟨here | here, -⟩ <;> exact absurd here (by decide)
      | payload state => exact absurd state (by decide)
      | version state => rcases state with here | here <;> exact absurd here (by decide)
  · rw [result]
    refine ⟨⟨sound.reads, sound.writes, sound.intact, sound.complete, sound.nonzero, sound.whole,
      ?_⟩, ?_⟩
    · intro flag
      exact absurd (init_recv _) flag
    · show Phase ((h.state &&& RECV_MASK) &&& RECV_MASK) _ _
      rw [recv_recv]
      exact sound.phase

theorem doWrite_sound (cfg : Config) {h : Handler} (sound : Sound h) (outbox : List WriteResult) :
    Sound (h.doWrite cfg outbox) := by
  have flushed := flushed_sound sound outbox
  have done := drained_sound flushed
  unfold doWrite
  simp only
  split
  · split
    · exact done
    · exact flushed
  · split
    · exact done
    · exact flushed
  · exact suicide_sound (gLogBitcoin_sound flushed ..)
  · split
    · exact done
    · exact flushed

/-! ## Callbacks and commands -/

/-- What `io_cb` does with a handler that has its descriptor: it reads or not, writes or
not, and sets the watcher. -/
inductive Called (cfg : Config) (env : VersionEnv) (h : Handler) (lastBlock : Int)
    (revents : Events) (inbox : List RecvResult) (outbox : List WriteResult) (h' : Handler) :
    Prop where
  | halves (r w : Handler)
      (read : h.state &&& RECV_MASK ≠ 0 ∧ revents.read = true ∧
          r = (h.doRead cfg env lastBlock inbox).1 ∨
        ¬ (h.state &&& RECV_MASK ≠ 0 ∧ revents.read = true) ∧ r = h)
      (write : revents.write = true ∧ w = r.doWrite cfg outbox ∨ revents.write = false ∧ w = r)
      (set : h' = w.ioSet ⟨w.state &&& RECV_MASK ≠ 0, w.state &&& SEND_MASK ≠ 0⟩)

theorem ioCb_called (cfg : Config) (env : VersionEnv) {h : Handler} (live : h.io.fd ≠ -1)
    (lastBlock : Int) (revents : Events) (inbox : List RecvResult) (outbox : List WriteResult) :
    Called cfg env h lastBlock revents inbox outbox
      (h.ioCb cfg env lastBlock revents inbox outbox).1 := by
  rw [ioCb, if_neg live]
  by_cases ready : h.state &&& RECV_MASK ≠ 0 ∧ revents.read = true
  · rw [if_pos ready]
    refine .halves (h.doRead cfg env lastBlock inbox).1 _ (Or.inl ⟨ready.1, ready.2, rfl⟩) ?_ rfl
    cases revents.write with
    | true => exact Or.inl ⟨rfl, rfl⟩
    | false => exact Or.inr ⟨rfl, rfl⟩
  · rw [if_neg ready]
    refine .halves h _ (Or.inr ⟨ready, rfl⟩) ?_ rfl
    cases revents.write with
    | true => exact Or.inl ⟨rfl, rfl⟩
    | false => exact Or.inr ⟨rfl, rfl⟩

/-- What holds of a sound handler, is kept by each half of a callback and does not
depend on the watcher, is kept by the callback. -/
theorem ioCb_keeps (cfg : Config) (env : VersionEnv) {h : Handler} (sound : Sound h)
    (lastBlock : Int) (revents : Events) (inbox : List RecvResult) (outbox : List WriteResult)
    {P : Handler → Prop} (here : P h)
    (reads : h.state &&& RECV_MASK ≠ 0 → ∀ r, Read h r inbox → P r)
    (writes : ∀ r, Sound r → P r → P (r.doWrite cfg outbox))
    (watches : ∀ w e, P w → P (w.ioSet e)) :
    P (h.ioCb cfg env lastBlock revents inbox outbox).1 := by
  by_cases live : h.io.fd = -1
  · rw [ioCb, if_pos live]
    exact here
  · obtain ⟨r, w, read, write, set⟩ := ioCb_called cfg env live lastBlock revents inbox outbox
    have read : Sound r ∧ P r := by
      rcases read with ⟨busy, -, rfl⟩ | ⟨-, rfl⟩
      · have read := doRead_read cfg env lastBlock inbox sound busy
        exact ⟨read.sound, reads busy _ read⟩
      · exact ⟨sound, here⟩
    have written : P w := by
      rcases write with ⟨-, rfl⟩ | ⟨-, rfl⟩
      · exact writes r read.1 read.2
      · exact read.2
    rw [set]
    exact watches w _ written

theorem ioCb_sound (cfg : Config) (env : VersionEnv) {h : Handler} (sound : Sound h)
    (lastBlock : Int) (revents : Events) (inbox : List RecvResult) (outbox : List WriteResult) :
    Sound (h.ioCb cfg env lastBlock revents inbox outbox).1 :=
  ioCb_keeps cfg env sound lastBlock revents inbox outbox sound (fun _ _ read => read.sound)
    (fun _ sound _ => doWrite_sound cfg sound outbox)
    (fun _ _ sound => sound.transfer (ioSet_sameReads ..))

theorem disconnect_sound {h : Handler} (sound : Sound h) : Sound h.disconnect :=
  suicide_sound (gLogBitcoin_sound sound ..)

theorem pingerCb_sameReads (cfg : Config) (h : Handler) (due : Bool) (nonce : Nat) :
    SameReads h (h.pingerCb cfg due nonce) := by
  have armed : ∀ k : Handler, SameReads k { k with timer := true } :=
    fun k => ⟨rfl, rfl, rfl, rfl, rfl, rfl, rfl, fun valid => valid⟩
  unfold pingerCb
  simp only
  split
  · exact (appendForWrite_sameReads ..).trans (armed _)
  · exact armed h

theorem activePingerCb_sameReads (cfg : Config) (h : Handler) (now : Nat) :
    SameReads h (h.activePingerCb cfg now) :=
  (h.appendForWrite_sameReads _).trans
    ⟨rfl, rfl, rfl, rfl, rfl, rfl, rfl, fun valid => valid⟩

end Handler

/-! ## The bytes of two moments -/

/-- What a handler that wants bytes holds is the start of a message. -/
theorem Sound.incomplete {h : Handler} (sound : Sound h) (hungry : 0 < h.readQueue.toRead) :
    messages.Incomplete h.readQueue.held := by
  cases sound.phase with
  | idle _ full => omega
  | header _ _ count =>
      left
      show _ < packedSize
      omega
  | payload _ _ _ count _ =>
      right
      rw [messages_size]
      omega
  | version _ _ _ count _ =>
      right
      rw [messages_size]
      omega

/-- The messages handled between two moments are the frames of what was held at the
first and of the bytes received since, if all these bytes have been looked at. -/
theorem Sound.parse_since {h h' : Handler} (before : Sound h) (after : Sound h')
    (hungry : 0 < h'.readQueue.toRead) (dry : h'.readQueue.unread = [])
    {frames : List (List UInt8)} (list : received h'.log = received h.log ++ frames)
    {bytes : List UInt8} (got : h'.got = h.got ++ bytes) :
    messages.parse (h.readQueue.held ++ h.readQueue.unread ++ bytes) =
      (frames, h'.readQueue.held) := by
  have whole : h.readQueue.held ++ h.readQueue.unread ++ bytes =
      frames.flatten ++ h'.readQueue.held := by
    have now := after.whole
    rw [got, before.whole, dry, list, List.flatten_append] at now
    simpa [List.append_assoc] using now
  have complete : ∀ f ∈ frames, messages.Complete f := by
    intro f member
    refine after.complete f ?_
    rw [list]
    exact List.mem_append_right _ member
  rw [whole, messages.parse_flatten_append complete (after.incomplete hungry)]

/-! ## Every handler, at every moment -/

namespace Peer

theorem new_sound (cfg : Config) (env : VersionEnv) (lastBlock : Int) {fd : Nat} (isOpen : 0 < fd)
    (origin : Origin) (remote localAddr : SockaddrStorage) (id : UInt32) :
    Sound (new cfg env lastBlock fd origin remote localAddr id).handler := by
  have intact : decide (fd = 0) = false := by simp; omega
  cases origin with
  | connected =>
      refine ⟨⟨ReadBuffer.new_valid 0, ?_, intact, ?_, ?_, ?_, ?_⟩, ?_⟩
      · exact WriteBuffer.new_valid.append (PackedMessage.wire_pos _)
      · simp [new, Handler.new, Origin.state, Handler.gLogBitcoin, Handler.gLog, received]
      · simp [new, Handler.new, Origin.state, Handler.gLogBitcoin, Handler.gLog, received]
      · simp [new, Handler.new, Origin.state, Handler.gLogBitcoin, Handler.gLog, received]
      · intro _
        show SEND_VERSION_INIT &&& RECV_MASK = 0
        decide
      · exact .idle (by show SEND_VERSION_INIT &&& RECV_MASK = 0; decide) rfl rfl rfl
          (by simp [new, Handler.new, Origin.state, Handler.gLogBitcoin, Handler.gLog, received])
  | accepted =>
      have different : RECV_VERSION_REPLY_HDR ≠ SEND_VERSION_INIT := by decide
      have low : RECV_VERSION_REPLY_HDR &&& SEND_VERSION_INIT = 0 := by decide
      have inside : RECV_VERSION_REPLY_HDR &&& RECV_MASK = RECV_VERSION_REPLY_HDR := by decide
      have result : (new cfg env lastBlock fd .accepted remote localAddr id).handler =
          Handler.gLogBitcoin
            { readQueue := (ReadBuffer.new 0).setToRead packedSize, writeQueue := WriteBuffer.new
              remoteAddr := remote, localAddr := localAddr, state := RECV_VERSION_REPLY_HDR
              ioEvents := Events.READ, io := Io.startOn fd Events.READ
              timer := false, activePingTimer := false, id := id
              log := [], got := [], sent := [], failed := decide (fd = 0) } ACCEPT_SUCCESS [] := by
        simp [new, Handler.new, Origin.state, different]
      rw [result]
      apply Handler.gLogBitcoin_sound
      refine ⟨⟨(ReadBuffer.new_valid 0).setToRead _, WriteBuffer.new_valid, intact, by simp [received],
        by simp [received], by simp [received], ?_⟩, ?_⟩
      · intro flag
        exact absurd low flag
      · exact .header (Or.inr ⟨Or.inr inside, by simp [received]⟩)
          (by show 0 < packedSize; decide) (by simp)

theorem step_sound (cfg : Config) {p : Peer} (sound : Sound p.handler) (e : PeerEvent) :
    Sound (p.step cfg e).handler := by
  unfold step
  split
  · exact sound
  · cases e with
    | ioCb env lastBlock revents inbox outbox =>
        exact Handler.ioCb_sound cfg env sound lastBlock revents inbox outbox
    | send m =>
        simp only
        split
        · exact sound.transfer (Handler.appendForWriteShared_sameReads ..)
        · exact sound
    | disconnect =>
        simp only
        split
        · exact Handler.disconnect_sound sound
        · exact sound
    | pinger due nonce =>
        simp only
        split
        · exact sound.transfer (Handler.pingerCb_sameReads ..)
        · exact sound
    | activePinger now =>
        simp only
        split
        · exact sound.transfer (Handler.activePingerCb_sameReads ..)
        · exact sound
    | clearInactive =>
        simp only
        split <;> exact sound

theorem run_sound (cfg : Config) {p : Peer} (sound : Sound p.handler) (events : List PeerEvent) :
    Sound (run (step cfg) p events).handler :=
  run_keeps (P := fun p : Peer => Sound p.handler) (fun _ e here => step_sound cfg here e) sound
    events

end Peer

end Coinscope.Connector

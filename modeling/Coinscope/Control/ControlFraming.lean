/-
# Control.ControlFraming -- messages out of a control connection

The reading side of a control connection is never idle: it waits for a header or for
a payload, and always for at least one byte.  The writing side has its flag set
exactly while something is queued, and `io_cb` sets the watcher whenever the state
word has changed since the callback began, so the watcher follows the state.

* `Sound` -- the invariant: what was received is the messages taken in and what is
  held; what was sent and what is queued are the replies.
* `Handler.Reading`, `Handler.Called` -- the rounds of `do_read`, and the callback.
* `Handler.run_settled`, `Handler.run_parsed` -- every run of callbacks.
-/
import Coinscope.Control.CommandHandler
import Coinscope.Connector.Receiving

namespace Coinscope.Control

open Coinscope.Shared
open Coinscope.Theory.Bytes
open Coinscope.Theory.Framing
open Coinscope.Theory.Runs
open Coinscope.Connector (RECV_MASK RECV_HEADER RECV_PAYLOAD SEND_MASK SEND_MESSAGE
  recv_receiving recv_or_message recv_recv send_or_message send_receiving send_send)

set_option autoImplicit false

/-! ## The invariant -/

/-- What is being received, by the receive half of the state. -/
inductive Phase (recv : UInt32) (q : ReadBuffer) : Prop where
  | header (state : recv = RECV_HEADER) (hungry : 0 < q.toRead)
      (count : q.held.length + q.toRead = messageSize)
  | payload (state : recv = RECV_PAYLOAD) (hungry : 0 < q.toRead)
      (there : messageSize ≤ q.held.length)
      (count : q.held.length + q.toRead = messageSize + messageLength q.held)

/-- The part of the invariant that holds also behind a full buffer. -/
structure Kept (h : Handler) : Prop where
  reads : h.readQueue.Valid
  writes : h.writeQueue.Valid
  intact : h.failed = false
  whole : ∃ frames : List (List UInt8), (∀ f ∈ frames, controls.Complete f) ∧
    h.seen = frames.map content ∧
    h.got = frames.flatten ++ h.readQueue.held ++ h.readQueue.unread
  queued : h.sent ++ h.writeQueue.pending = h.replies.flatten
  sends : h.state &&& SEND_MASK ≠ 0 ↔ h.writeQueue.toWrite ≠ 0

structure Sound (h : Handler) : Prop extends Kept h where
  phase : Phase (h.state &&& RECV_MASK) h.readQueue

theorem Phase.hungry {recv : UInt32} {q : ReadBuffer} (phase : Phase recv q) : 0 < q.toRead := by
  cases phase with
  | header _ hungry => exact hungry
  | payload _ hungry => exact hungry

theorem Phase.busy {recv : UInt32} {q : ReadBuffer} (phase : Phase recv q) : recv ≠ 0 := by
  cases phase with
  | header state => rw [state]; decide
  | payload state => rw [state]; decide

theorem Phase.incomplete {recv : UInt32} {q : ReadBuffer} (phase : Phase recv q) :
    controls.Incomplete q.held := by
  cases phase with
  | header _ hungry count =>
      left
      show _ < messageSize
      omega
  | payload _ hungry _ count =>
      right
      rw [controls_size]
      omega

/-! ## Replies -/

/-- Nothing but the writing side and the state word differs, and these stay in step. -/
structure Replied (h h' : Handler) : Prop where
  readQueue : h'.readQueue = h.readQueue
  got : h'.got = h.got
  sent : h'.sent = h.sent
  seen : h'.seen = h.seen
  io : h'.io = h.io
  id : h'.id = h.id
  failed : h'.failed = h.failed
  writes : h.writeQueue.Valid → h'.writeQueue.Valid
  queued : h.sent ++ h.writeQueue.pending = h.replies.flatten →
    h'.sent ++ h'.writeQueue.pending = h'.replies.flatten
  sends : (h.state &&& SEND_MASK ≠ 0 ↔ h.writeQueue.toWrite ≠ 0) →
    (h'.state &&& SEND_MASK ≠ 0 ↔ h'.writeQueue.toWrite ≠ 0)

namespace Replied

theorem refl (h : Handler) : Replied h h :=
  ⟨rfl, rfl, rfl, rfl, rfl, rfl, rfl, fun valid => valid, fun queued => queued,
    fun sends => sends⟩

theorem trans {a b c : Handler} (first : Replied a b) (second : Replied b c) : Replied a c :=
  ⟨second.readQueue.trans first.readQueue, second.got.trans first.got,
    second.sent.trans first.sent, second.seen.trans first.seen, second.io.trans first.io,
    second.id.trans first.id, second.failed.trans first.failed, second.writes ∘ first.writes,
    second.queued ∘ first.queued, second.sends ∘ first.sends⟩

end Replied

namespace Handler

theorem reply_replied (h : Handler) {bytes : List UInt8} (some_ : 0 < bytes.length) :
    Replied h (h.reply bytes) := by
  refine ⟨rfl, rfl, rfl, rfl, rfl, rfl, rfl, fun valid => valid.append some_, ?_, ?_⟩
  · intro queued
    simp only [reply, WriteBuffer.append_pending, List.flatten_append, List.flatten_singleton]
    rw [← List.append_assoc, queued]
  · intro _
    have more : h.writeQueue.toWrite + bytes.length ≠ 0 := by omega
    exact ⟨fun _ => more, fun _ => send_or_message _⟩

theorem replyShared_replied (h : Handler) {bytes : List UInt8} (some_ : 0 < bytes.length) :
    Replied h (h.replyShared bytes) := by
  have room := le_allocatedFor bytes.length
  have inside : (WrappedBuffer.blit (WrappedBuffer.realloc bytes.length []) 0 bytes).length =
      allocatedFor bytes.length := by
    rw [WrappedBuffer.length_blit (by simpa using room), WrappedBuffer.length_realloc]
  have copied : (WrappedBuffer.blit (WrappedBuffer.realloc bytes.length []) 0 bytes).take
      bytes.length = bytes := by simp [WrappedBuffer.blit]
  refine ⟨rfl, rfl, rfl, rfl, rfl, rfl, rfl,
    fun valid => valid.appendShared some_ (by rw [inside]; exact room), ?_, ?_⟩
  · intro queued
    simp only [replyShared, WriteBuffer.appendShared_pending, copied, List.flatten_append,
      List.flatten_singleton]
    rw [← List.append_assoc, queued]
  · intro _
    have more : h.writeQueue.toWrite + bytes.length ≠ 0 := by omega
    exact ⟨fun _ => more, fun _ => send_or_message _⟩

/-- Changing the receive half of the state. -/
theorem state_replied (h : Handler) {s : UInt32} (same : s &&& SEND_MASK = h.state &&& SEND_MASK) :
    Replied h { h with state := s } := by
  refine ⟨rfl, rfl, rfl, rfl, rfl, rfl, rfl, fun valid => valid, fun queued => queued, ?_⟩
  intro sends
  rw [same]
  exact sends

theorem handleMessageRecv_replied (g : Globals) (h : Handler) (msg : CommandMsg) :
    Replied h (h.handleMessageRecv g msg).2 := by
  unfold handleMessageRecv
  split
  · exact replyShared_replied _ (by simp [Globals.connections])
  · split
    · exact Replied.refl h
    · split
      · exact Replied.refl h
      · exact Replied.refl h

theorem payloadSwitch_replied (cfg : Config) (g : Globals) (h : Handler) :
    Replied h (h.payloadSwitch cfg g).2 := by
  unfold payloadSwitch
  simp only
  split
  · exact reply_replied _ (by simp)
  · split
    · exact (handleMessageRecv_replied ..).trans (state_replied _ (send_send _))
    · split
      · exact Replied.refl h
      · exact Replied.refl h

/-- The registration id is nobody's business here. -/
theorem registerMe_replied (g : Globals) (h : Handler) : Replied h (h.registerMe g).2 := by
  have renamed : Replied h { h with regid := (outside g).nonce } :=
    ⟨rfl, rfl, rfl, rfl, rfl, rfl, rfl, fun valid => valid, fun queued => queued,
      fun sends => sends⟩
  exact renamed.trans (reply_replied _ (by simp))

end Handler

/-! ## A full buffer -/

/-- What is in the queue when the last byte wanted has come. -/
inductive FullPhase (recv : UInt32) (held : List UInt8) : Prop where
  | header (state : recv = RECV_HEADER) (count : held.length = messageSize)
  | payload (state : recv = RECV_PAYLOAD) (count : held.length = messageSize + messageLength held)

theorem messageLength_append {held : List UInt8} (there : messageSize ≤ held.length)
    (more : List UInt8) : messageLength (held ++ more) = messageLength held := by
  have size : messageSize = 6 := rfl
  rw [messageLength, messageLength, slice_append_left _ (by omega)]

theorem Phase.full {recv : UInt32} {q q' : ReadBuffer} {bytes : List UInt8} (phase : Phase recv q)
    (length : bytes.length = q.toRead) (held : q'.held = q.held ++ bytes) :
    FullPhase recv q'.held := by
  cases phase with
  | header state _ count =>
      refine .header state ?_
      rw [held, List.length_append]
      omega
  | payload state _ there count =>
      refine .payload state ?_
      rw [held, messageLength_append there, List.length_append]
      omega

/-- Fewer bytes than wanted leave the phase as it is. -/
theorem Phase.short {recv : UInt32} {q q' : ReadBuffer} {bytes : List UInt8} (phase : Phase recv q)
    (less : bytes.length < q.toRead) (held : q'.held = q.held ++ bytes)
    (toRead : q'.toRead = q.toRead - bytes.length) : Phase recv q' := by
  cases phase with
  | header state _ count =>
      refine .header state (by omega) ?_
      rw [held, List.length_append]
      omega
  | payload state _ there count =>
      refine .payload state (by omega) ?_ ?_
      · rw [held, List.length_append]; omega
      · rw [held, messageLength_append there, List.length_append]; omega

namespace Handler

theorem messageLength_buffer {h : Handler} (reads : h.readQueue.Valid)
    (long : messageSize ≤ h.readQueue.held.length) :
    messageLength h.readQueue.buffer = messageLength h.readQueue.held := by
  have size : messageSize = 6 := rfl
  have cursor := reads.held_length
  rw [messageLength, messageLength, ReadBuffer.held, slice_take _ (by omega)]

/-- What is taken in is the message the queue holds. -/
theorem content_held {h : Handler} (reads : h.readQueue.Valid)
    (count : h.readQueue.held.length = messageSize + messageLength h.readQueue.held) :
    content h.readQueue.held =
      (messageType h.readQueue.buffer, messagePayload h.readQueue.buffer) := by
  have size : messageSize = 6 := rfl
  have cursor := reads.held_length
  have kind : messageType h.readQueue.held = messageType h.readQueue.buffer := by
    have inside : 5 < h.readQueue.cursor := by omega
    simp [messageType, ReadBuffer.held, inside]
  have payload : h.readQueue.held.drop messageSize = messagePayload h.readQueue.buffer := by
    have length : messageLength h.readQueue.buffer = h.readQueue.cursor - messageSize := by
      rw [messageLength_buffer reads (by omega)]
      omega
    rw [messagePayload, length, slice, ReadBuffer.held, List.drop_take]
  rw [content, kind, payload]

/-- What the `switch` leaves. -/
structure Processed (h h' : Handler) : Prop where
  sound : Sound h'
  io : h'.io = h.io
  id : h'.id = h.id
  got : h'.got = h.got
  unread : h'.readQueue.unread = h.readQueue.unread

/-- A message taken in, then waiting for a header; in between there was at most a
reply. -/
theorem handled {h k : Handler} (kept : Kept h)
    (count : h.readQueue.held.length = messageSize + messageLength h.readQueue.held)
    (replied : Replied h.take k) {s : UInt32} (send : s &&& SEND_MASK = k.state &&& SEND_MASK)
    (recv : s &&& RECV_MASK = RECV_HEADER) : Processed h { k.nextMessage with state := s } := by
  obtain ⟨frames, complete, seen, got⟩ := kept.whole
  have queue : k.readQueue = h.readQueue := replied.readQueue
  refine ⟨⟨⟨?_, replied.writes kept.writes, replied.failed.trans kept.intact, ?_,
    replied.queued kept.queued, ?_⟩, ?_⟩, replied.io, replied.id, replied.got, ?_⟩
  · show ((k.readQueue.setCursor 0).setToRead messageSize).Valid
    rw [queue]
    exact kept.reads.rewind.setToRead _
  · refine ⟨frames ++ [h.readQueue.held], ?_, ?_, ?_⟩
    · intro f member
      rcases List.mem_append.1 member with early | last
      · exact complete f early
      · rw [List.mem_singleton.1 last]
        constructor
        · show messageSize ≤ _
          omega
        · rw [controls_size]
          exact count
    · show k.seen = _
      rw [replied.seen, List.map_append, List.map_singleton, content_held kept.reads count, ← seen]
      rfl
    · show k.got = _
      rw [replied.got]
      show h.got = _
      simp only [nextMessage, queue, ReadBuffer.setToRead_held, ReadBuffer.setCursor_held,
        ReadBuffer.setToRead_unread, ReadBuffer.setCursor_unread]
      rw [got, List.flatten_append]
      simp
  · show s &&& SEND_MASK ≠ 0 ↔ k.writeQueue.toWrite ≠ 0
    rw [send]
    exact replied.sends kept.sends
  · show Phase (s &&& RECV_MASK) _
    rw [recv]
    refine .header rfl (by show 0 < messageSize; decide) ?_
    simp [nextMessage]
  · simp only [nextMessage, queue, ReadBuffer.setToRead_unread, ReadBuffer.setCursor_unread]

/-- The length of the message is asked for. -/
theorem sized_kept {h : Handler} (kept : Kept h) (n : Nat) :
    Kept { h with readQueue := h.readQueue.setToRead n } :=
  ⟨kept.reads.setToRead _, kept.writes, kept.intact, kept.whole, kept.queued, kept.sends⟩

theorem receiveHeader_processed (g : Globals) {h : Handler} (kept : Kept h)
    (state : h.state &&& RECV_MASK = RECV_HEADER)
    (count : h.readQueue.held.length = messageSize) : Processed h (h.receiveHeader g).2 := by
  have length := messageLength_buffer kept.reads (Nat.le_of_eq count.symm)
  have sized := sized_kept kept (messageLength h.readQueue.buffer)
  unfold receiveHeader
  simp only
  split
  · rename_i empty
    have nothing : messageLength h.readQueue.held = 0 := by rw [← length]; exact empty
    have whole : h.readQueue.held.length = messageSize + messageLength h.readQueue.held := by omega
    have same : ∀ k : Handler, Replied ({ h with
        readQueue := h.readQueue.setToRead (messageLength h.readQueue.buffer) } : Handler).take k →
        k.state &&& RECV_MASK = RECV_HEADER → Processed h k.nextMessage := by
      intro k replied recv
      have done := handled sized whole replied rfl recv
      exact ⟨done.sound, done.io, done.id, done.got, done.unread⟩
    split
    · exact same _ (registerMe_replied ..) ((recv_or_message _).trans state)
    · exact same _ (Replied.refl _) state
  · rename_i more
    have recv : ((h.state &&& SEND_MASK) ||| RECV_PAYLOAD) &&& RECV_MASK = RECV_PAYLOAD := by
      rw [recv_receiving]
      decide
    refine ⟨⟨⟨sized.reads, sized.writes, sized.intact, sized.whole, sized.queued, ?_⟩, ?_⟩, rfl, rfl,
      rfl, rfl⟩
    · show ((h.state &&& SEND_MASK) ||| RECV_PAYLOAD) &&& SEND_MASK ≠ 0 ↔ _
      rw [send_receiving (by decide)]
      exact sized.sends
    · show Phase (((h.state &&& SEND_MASK) ||| RECV_PAYLOAD) &&& RECV_MASK) _
      rw [recv]
      refine .payload rfl (Nat.pos_of_ne_zero more) (Nat.le_of_eq count.symm) ?_
      show h.readQueue.held.length + messageLength h.readQueue.buffer = _
      rw [length, count]
      rfl

theorem receivePayload_processed (cfg : Config) (g : Globals) {h : Handler} (kept : Kept h)
    (count : h.readQueue.held.length = messageSize + messageLength h.readQueue.held) :
    Processed h (h.receivePayload cfg g).2 :=
  handled kept count (payloadSwitch_replied ..) (send_receiving (by decide))
    ((recv_receiving ..).trans (by decide))

theorem process_processed (cfg : Config) (g : Globals) {h : Handler} (kept : Kept h)
    (full : FullPhase (h.state &&& RECV_MASK) h.readQueue.held) :
    Processed h (h.process cfg g).2 := by
  cases full with
  | header state count =>
      rw [process, if_pos state]
      exact receiveHeader_processed g kept state count
  | payload state count =>
      have other : ¬ h.state &&& RECV_MASK = RECV_HEADER := by rw [state]; decide
      rw [process, if_neg other, if_pos state]
      exact receivePayload_processed cfg g kept count

/-! ## The loop -/

/-- Taking over what a loop around `do_read` of the queue collected. -/
def filled (h : Handler) (s : ReadStep) : Handler :=
  { h with readQueue := s.queue, got := h.got ++ s.got }

/-- The rounds of `do_read`, from the globals, the handler and the inbox it starts with
to the globals and the handler it leaves. -/
inductive Reading (cfg : Config) :
    Globals → Handler → List RecvResult → Globals → Handler → Prop
  /-- The kernel has no more for now. -/
  | blocked {g : Globals} {h : Handler} {inbox : List RecvResult} {bytes : List UInt8}
      (valid : (h.readQueue.fill inbox).queue.Valid)
      (short : ReadBuffer.Short h.readQueue inbox (h.readQueue.fill inbox) bytes) :
      Reading cfg g h inbox g (h.filled (h.readQueue.fill inbox))
  /-- The connection is over. -/
  | ended {g : Globals} {h : Handler} {inbox : List RecvResult} {bytes : List UInt8}
      (kind : LogType) (val : List UInt8) (args : List (List UInt8))
      (valid : (h.readQueue.fill inbox).queue.Valid)
      (short : ReadBuffer.Short h.readQueue inbox (h.readQueue.fill inbox) bytes) :
      Reading cfg g h inbox ((h.filled (h.readQueue.fill inbox)).suicide (g.gLog kind val args)).1
        ((h.filled (h.readQueue.fill inbox)).suicide (g.gLog kind val args)).2
  /-- All that was wanted is there, and the loop goes round. -/
  | round {g : Globals} {h : Handler} {inbox : List RecvResult} {bytes : List UInt8}
      {g' : Globals} {h' : Handler} (valid : (h.readQueue.fill inbox).queue.Valid)
      (full : ReadBuffer.Filled h.readQueue inbox (h.readQueue.fill inbox) bytes)
      (next : Reading cfg ((h.filled (h.readQueue.fill inbox)).process cfg g).1
        ((h.filled (h.readQueue.fill inbox)).process cfg g).2 (h.readQueue.fill inbox).inbox g' h') :
      Reading cfg g h inbox g' h'

theorem filled_kept {h : Handler} (kept : Kept h) {s : ReadStep} {bytes : List UInt8}
    (valid : s.queue.Valid) (held : s.queue.held = h.readQueue.held ++ bytes)
    (conserved : h.readQueue.unread ++ s.got = bytes ++ s.queue.unread) : Kept (h.filled s) := by
  obtain ⟨frames, complete, seen, got⟩ := kept.whole
  refine ⟨valid, kept.writes, kept.intact, ⟨frames, complete, seen, ?_⟩, kept.queued, kept.sends⟩
  show h.got ++ s.got = frames.flatten ++ s.queue.held ++ s.queue.unread
  rw [got, held, List.append_assoc, conserved]
  simp only [List.append_assoc]

/-- A queue filled up, and the `switch` behind it. -/
theorem round_processed (cfg : Config) (g : Globals) {h : Handler} (sound : Sound h)
    {inbox : List RecvResult} {bytes : List UInt8}
    (valid : (h.readQueue.fill inbox).queue.Valid)
    (full : ReadBuffer.Filled h.readQueue inbox (h.readQueue.fill inbox) bytes) :
    Processed (h.filled (h.readQueue.fill inbox))
      ((h.filled (h.readQueue.fill inbox)).process cfg g).2 :=
  process_processed cfg g (filled_kept sound.toKept valid full.held full.conserved)
    (sound.phase.full full.length full.held)

theorem doReadAux_reading (cfg : Config) (fuel : Nat) (g : Globals) {h : Handler}
    {inbox : List RecvResult} (sound : Sound h) (enough : h.readQueue.effort inbox < fuel) :
    Reading cfg g h inbox (doReadAux cfg fuel g h inbox).1 (doReadAux cfg fuel g h inbox).2 := by
  induction fuel generalizing g h inbox with
  | zero => omega
  | succ fuel ih =>
      have hungry := sound.phase.hungry
      obtain ⟨valid, ⟨bytes, full⟩ | ⟨bytes, short⟩⟩ := ReadBuffer.fill_cases sound.reads inbox
      · have processed := round_processed cfg g sound valid full
        have light := full.lighter hungry
        have less : ((h.filled (h.readQueue.fill inbox)).process cfg g).2.readQueue.effort
            (h.readQueue.fill inbox).inbox < fuel := by
          have same : (h.filled (h.readQueue.fill inbox)).readQueue =
            (h.readQueue.fill inbox).queue := rfl
          simp only [ReadBuffer.effort, processed.unread, same] at light enough ⊢
          omega
        have result : doReadAux cfg (fuel + 1) g h inbox =
            doReadAux cfg fuel ((h.filled (h.readQueue.fill inbox)).process cfg g).1
              ((h.filled (h.readQueue.fill inbox)).process cfg g).2
              (h.readQueue.fill inbox).inbox := by
          simp only [doReadAux, ReadBuffer.hungry, hungry, full.ret, decide_true, if_true]
          rfl
        rw [result]
        exact .round valid full (ih _ processed.sound less)
      · obtain ⟨answers, rest, -, -, -, -, ⟨-, ret⟩ | ⟨e, -, ret⟩⟩ := short.took
        · simp only [doReadAux, ReadBuffer.hungry, hungry, decide_true, if_true, ret]
          exact .ended .CTRL _ _ valid short
        · simp only [doReadAux, ReadBuffer.hungry, hungry, decide_true, if_true, ret]
          cases e with
          | eagain => exact .blocked valid short
          | eintr => exact .ended .ERROR _ _ valid short
          | econnreset => exact .ended .ERROR _ _ valid short
          | ebadf => exact .ended .ERROR _ _ valid short
          | other code => exact .ended .ERROR _ _ valid short

theorem doRead_reading (cfg : Config) (g : Globals) {h : Handler} (inbox : List RecvResult)
    (sound : Sound h) : Reading cfg g h inbox (h.doRead cfg g inbox).1 (h.doRead cfg g inbox).2 :=
  doReadAux_reading cfg _ g sound (Nat.lt_add_one _)

/-- The watcher is stopped, or as it was. -/
def SameWatcher (h h' : Handler) : Prop := h'.io = h.io ∨ h'.io.active = false

/-- What `do_read` leaves: everything the kernel had is taken in. -/
structure Read (h h' : Handler) (inbox : List RecvResult) : Prop where
  sound : Sound h'
  io : SameWatcher h h'
  id : h'.id = h.id
  unread : h'.readQueue.unread = []
  got : h'.got = h.got ++ stream (leading inbox)

theorem filled_short {h : Handler} (sound : Sound h) {inbox : List RecvResult} {s : ReadStep}
    {bytes : List UInt8} (valid : s.queue.Valid)
    (short : ReadBuffer.Short h.readQueue inbox s bytes) : Read h (h.filled s) inbox := by
  have kept := filled_kept sound.toKept valid short.held
    (by rw [short.unread, List.append_nil]; exact short.conserved)
  refine ⟨⟨kept, sound.phase.short short.length short.held short.toRead⟩, Or.inl rfl, rfl, short.unread,
    ?_⟩
  rw [short.delivered]
  rfl

theorem suicide_sound {h : Handler} (sound : Sound h) (g : Globals) : Sound (h.suicide g).2 :=
  ⟨⟨sound.reads, sound.writes, sound.intact, sound.whole, sound.queued, sound.sends⟩, sound.phase⟩

theorem Reading.read {cfg : Config} {g g' : Globals} {h h' : Handler} {inbox : List RecvResult}
    (reading : Reading cfg g h inbox g' h') (sound : Sound h) : Read h h' inbox := by
  induction reading with
  | blocked valid short => exact filled_short sound valid short
  | ended kind val args valid short =>
      have read := filled_short sound valid short
      exact ⟨suicide_sound read.sound _, Or.inr rfl, rfl, read.unread, read.got⟩
  | @round g h inbox bytes g' h' valid full next ih =>
      have processed := round_processed cfg g sound valid full
      have later := ih processed.sound
      refine ⟨later.sound, ?_, later.id.trans processed.id, later.unread, ?_⟩
      · rcases later.io with same | stopped
        · exact Or.inl (same.trans processed.io)
        · exact Or.inr stopped
      · rw [later.got, processed.got, full.delivered, ← List.append_assoc]
        rfl

/-! ## The callback -/

theorem doWrite_sound (cfg : Config) (g : Globals) {h : Handler} (sound : Sound h)
    (outbox : List WriteResult) : Sound (h.doWrite cfg g outbox).2 := by
  obtain ⟨valid, conserved, ended⟩ := WriteBuffer.flush_flushed h.io.fd outbox sound.writes
  unfold doWrite
  generalize WriteBuffer.flush h.io.fd outbox h.writeQueue = s at *
  have queued : (h.sent ++ s.put) ++ s.queue.pending = h.replies.flatten := by
    rw [List.append_assoc, conserved]
    exact sound.queued
  -- bytes left over were queued before, so the flag was set
  have flagged : s.queue.toWrite ≠ 0 → (h.state &&& SEND_MASK ≠ 0 ↔ s.queue.toWrite ≠ 0) := by
    intro more
    refine ⟨fun _ => more, fun _ => sound.sends.2 ?_⟩
    rw [sound.writes.count, ← conserved, List.length_append, ← valid.count]
    omega
  have kept : s.queue.toWrite ≠ 0 →
      Sound { h with writeQueue := s.queue, sent := h.sent ++ s.put } := fun more =>
    ⟨⟨sound.reads, valid, sound.intact, sound.whole, queued, flagged more⟩, sound.phase⟩
  have done : Sound (if s.queue.toWrite = 0 then
      { h with
        writeQueue := s.queue
        sent := h.sent ++ s.put
        state := h.state &&& ~~~SEND_MASK }
      else { h with writeQueue := s.queue, sent := h.sent ++ s.put }) := by
    split
    · rename_i empty
      have complement : ~~~SEND_MASK = RECV_MASK := by decide
      have apart : RECV_MASK &&& SEND_MASK = 0 := by decide
      refine ⟨⟨sound.reads, valid, sound.intact, sound.whole, queued, ?_⟩, ?_⟩
      · show (h.state &&& ~~~SEND_MASK) &&& SEND_MASK ≠ 0 ↔ s.queue.toWrite ≠ 0
        rw [complement, UInt32.and_assoc, apart, UInt32.and_zero]
        exact ⟨fun no => absurd rfl no, fun more => absurd empty more⟩
      · show Phase ((h.state &&& ~~~SEND_MASK) &&& RECV_MASK) h.readQueue
        rw [complement, recv_recv]
        exact sound.phase
    · rename_i more
      exact kept more
  have failed : ∀ e, s.ret = .fail e →
      Sound { h with writeQueue := s.queue, sent := h.sent ++ s.put } := by
    intro e ret
    rcases ended with ⟨fine, -⟩ | ⟨more, -⟩
    · rw [ret] at fine
      cases fine
    · exact kept (by omega)
  simp only
  split
  · exact done
  · rename_i e _ ret
    exact suicide_sound (failed e ret) _
  · exact done

theorem doWrite_io (cfg : Config) (g : Globals) (h : Handler) (outbox : List WriteResult) :
    SameWatcher h (h.doWrite cfg g outbox).2 := by
  unfold doWrite
  simp only
  split
  · split <;> exact Or.inl rfl
  · exact Or.inr rfl
  · split <;> exact Or.inl rfl

/-- `do_write` reads nothing. -/
theorem doWrite_reads (cfg : Config) (g : Globals) (h : Handler) (outbox : List WriteResult) :
    (h.doWrite cfg g outbox).2.got = h.got ∧
      (h.doWrite cfg g outbox).2.readQueue = h.readQueue ∧
      (h.doWrite cfg g outbox).2.id = h.id := by
  unfold doWrite
  simp only
  split
  · split <;> exact ⟨rfl, rfl, rfl⟩
  · exact ⟨rfl, rfl, rfl⟩
  · split <;> exact ⟨rfl, rfl, rfl⟩

/-- Between callbacks a started watcher waits for what the state word says. -/
def Watched (h : Handler) : Prop :=
  h.io.active = true → h.io.events = ⟨h.state &&& RECV_MASK ≠ 0, h.state &&& SEND_MASK ≠ 0⟩

/-- What holds between callbacks, and what a callback takes in. -/
structure Settled (h : Handler) : Prop where
  sound : Sound h
  dry : h.readQueue.unread = []
  watched : Watched h

theorem asserted_of_sound {h : Handler} (sound : Sound h) : h.asserted = h := by
  have hungry := sound.phase.hungry
  rw [asserted, if_pos ⟨by omega, sound.phase.busy⟩]

theorem SameWatcher.trans {a b c : Handler} (first : SameWatcher a b) (second : SameWatcher b c) :
    SameWatcher a c := by
  rcases second with same | stopped
  · rcases first with before | stopped
    · exact Or.inl (same.trans before)
    · exact Or.inr (by rw [same]; exact stopped)
  · exact Or.inr stopped

/-- The watcher at the end of a callback: set anew if the state has changed. -/
theorem watched_of_same {h w : Handler} (watched : Watched h) (same : SameWatcher h w) :
    Watched (if w.state ≠ h.state then
      { w with io := w.io.set ⟨w.state &&& RECV_MASK ≠ 0, w.state &&& SEND_MASK ≠ 0⟩ } else w) := by
  split
  · intro _
    rfl
  · rename_i unchanged
    intro started
    have state : w.state = h.state := not_not.1 unchanged
    rcases same with io | stopped
    · rw [io, state]
      exact watched (by rw [← io]; exact started)
    · rw [stopped] at started
      cases started

/-- What `io_cb` does: it reads or not, writes or not, and sets the watcher if the state
has changed in between. -/
inductive Called (cfg : Config) (g : Globals) (h : Handler) (revents : Events)
    (inbox : List RecvResult) (outbox : List WriteResult) : Globals × Handler → Prop
  | halves (r w : Globals × Handler)
      (read : h.state &&& RECV_MASK ≠ 0 ∧ revents.read = true ∧ r = h.doRead cfg g inbox ∨
        ¬ (h.state &&& RECV_MASK ≠ 0 ∧ revents.read = true) ∧ r = (g, h))
      (write : revents.write = true ∧ w = r.2.asserted.doWrite cfg r.1 outbox ∨
        revents.write = false ∧ w = (r.1, r.2.asserted)) :
      Called cfg g h revents inbox outbox (w.1, if w.2.state ≠ h.state then
        { w.2 with io := w.2.io.set ⟨w.2.state &&& RECV_MASK ≠ 0, w.2.state &&& SEND_MASK ≠ 0⟩ }
        else w.2)

theorem ioCb_called (cfg : Config) (g : Globals) (h : Handler) (revents : Events)
    (inbox : List RecvResult) (outbox : List WriteResult) :
    Called cfg g h revents inbox outbox (h.ioCb cfg g revents inbox outbox) := by
  obtain ⟨r, reading⟩ : ∃ r, r = if h.state &&& RECV_MASK ≠ 0 ∧ revents.read = true then
      h.doRead cfg g inbox else (g, h) := ⟨_, rfl⟩
  obtain ⟨w, writing⟩ : ∃ w, w = if revents.write then r.2.asserted.doWrite cfg r.1 outbox
      else (r.1, r.2.asserted) := ⟨_, rfl⟩
  have result : h.ioCb cfg g revents inbox outbox = (w.1, if w.2.state ≠ h.state then
      { w.2 with io := w.2.io.set ⟨w.2.state &&& RECV_MASK ≠ 0, w.2.state &&& SEND_MASK ≠ 0⟩ }
      else w.2) := by
    simp only [ioCb, ← reading, ← writing]
    split <;> rfl
  rw [result]
  refine .halves r w ?_ ?_
  · by_cases ready : h.state &&& RECV_MASK ≠ 0 ∧ revents.read = true
    · rw [if_pos ready] at reading
      exact Or.inl ⟨ready.1, ready.2, reading⟩
    · rw [if_neg ready] at reading
      exact Or.inr ⟨ready, reading⟩
  · cases ready : revents.write with
    | true =>
        rw [if_pos ready] at writing
        exact Or.inl ⟨rfl, writing⟩
    | false =>
        rw [if_neg (by rw [ready]; decide)] at writing
        exact Or.inr ⟨rfl, writing⟩

theorem ioCb_settled (cfg : Config) (g : Globals) {h : Handler} (settled : Settled h)
    (revents : Events) (inbox : List RecvResult) (outbox : List WriteResult) :
    Settled (h.ioCb cfg g revents inbox outbox).2 ∧
      (h.ioCb cfg g revents inbox outbox).2.id = h.id ∧
      (h.ioCb cfg g revents inbox outbox).2.got =
        h.got ++ if revents.read then stream (leading inbox) else [] := by
  have called := ioCb_called cfg g h revents inbox outbox
  generalize h.ioCb cfg g revents inbox outbox = result at called ⊢
  obtain ⟨r, w, read, write⟩ := called
  have taken : Sound r.2 ∧ SameWatcher h r.2 ∧ r.2.id = h.id ∧ r.2.readQueue.unread = [] ∧
      r.2.got = h.got ++ if revents.read then stream (leading inbox) else [] := by
    rcases read with ⟨-, readable, rfl⟩ | ⟨idle, rfl⟩
    · have read := (doRead_reading cfg g inbox settled.sound).read settled.sound
      rw [if_pos readable]
      exact ⟨read.sound, read.io, read.id, read.unread, read.got⟩
    · have unreadable : ¬ revents.read = true :=
        fun readable => idle ⟨settled.sound.phase.busy, readable⟩
      rw [if_neg unreadable, List.append_nil]
      exact ⟨settled.sound, Or.inl rfl, rfl, settled.dry, rfl⟩
  obtain ⟨sound, io, id, dry, got⟩ := taken
  rw [asserted_of_sound sound] at write
  have wrote : Sound w.2 ∧ SameWatcher h w.2 ∧ w.2.id = h.id ∧ w.2.readQueue.unread = [] ∧
      w.2.got = r.2.got := by
    rcases write with ⟨-, rfl⟩ | ⟨-, rfl⟩
    · obtain ⟨taken, queue, still⟩ := doWrite_reads cfg r.1 r.2 outbox
      exact ⟨doWrite_sound cfg r.1 sound outbox, io.trans (doWrite_io ..), still.trans id,
        by rw [queue]; exact dry, taken⟩
    · exact ⟨sound, io, id, dry, rfl⟩
  obtain ⟨written, watcher, same, clean, kept⟩ := wrote
  refine ⟨⟨?_, ?_, watched_of_same settled.watched watcher⟩, ?_, ?_⟩
  · simp only
    split
    · exact ⟨⟨written.reads, written.writes, written.intact, written.whole, written.queued,
        written.sends⟩, written.phase⟩
    · exact written
  · simp only
    split <;> exact clean
  · rw [← same]
    simp only
    split <;> rfl
  · rw [← got, ← kept]
    simp only
    split <;> rfl

theorem new_settled (fd : Nat) (id regid : UInt32) : Settled (new fd id regid) := by
  have low : RECV_HEADER &&& SEND_MASK = 0 := by decide
  have inside : RECV_HEADER &&& RECV_MASK = RECV_HEADER := by decide
  refine ⟨⟨⟨ReadBuffer.new_valid _, WriteBuffer.new_valid, rfl, ⟨[], by simp, rfl, rfl⟩, rfl, ?_⟩, ?_⟩,
    rfl, ?_⟩
  · exact ⟨fun flag => absurd low flag, fun more => absurd rfl more⟩
  · exact .header inside (by show 0 < messageSize; decide) (by show 0 + messageSize = _; simp)
  · intro _
    show Events.READ = ⟨decide (RECV_HEADER &&& RECV_MASK ≠ 0), decide (RECV_HEADER &&& SEND_MASK ≠ 0)⟩
    decide

end Handler

/-! ## Every run -/

/-- One callback: the globals as the other handlers have left them, what is ready, and
what the kernel will answer. -/
structure Callback where
  globals : Globals
  revents : Events
  inbox : List RecvResult
  outbox : List WriteResult

namespace Handler

/-- A callback reaches a handler while its watcher is started. -/
def step (cfg : Config) (h : Handler) (c : Callback) : Handler :=
  if h.io.active then (h.ioCb cfg c.globals c.revents c.inbox c.outbox).2 else h

/-- The bytes `recv` delivers during a run. -/
def deliveredTo (cfg : Config) : Handler → List Callback → List UInt8
  | _, [] => []
  | h, c :: rest =>
      (if h.io.active ∧ c.revents.read then stream (leading c.inbox) else []) ++
        deliveredTo cfg (h.step cfg c) rest

theorem run_settled (cfg : Config) {h : Handler} (settled : Settled h) (callbacks : List Callback) :
    Settled (run (step cfg) h callbacks) ∧
      (run (step cfg) h callbacks).got = h.got ++ deliveredTo cfg h callbacks := by
  induction callbacks generalizing h with
  | nil => exact ⟨settled, by simp [deliveredTo]⟩
  | cons c rest ih =>
      have next : Settled (h.step cfg c) ∧ (h.step cfg c).got =
          h.got ++ if h.io.active ∧ c.revents.read then stream (leading c.inbox) else [] := by
        unfold step
        split
        · rename_i started
          obtain ⟨later, -, got⟩ :=
            ioCb_settled cfg c.globals settled c.revents c.inbox c.outbox
          simp only [started, true_and]
          exact ⟨later, got⟩
        · rename_i stopped
          simp [stopped, settled]
      obtain ⟨later, got⟩ := ih next.1
      refine ⟨later, ?_⟩
      rw [run_cons, got, next.2, deliveredTo, List.append_assoc]

/-- The frames of the bytes delivered are the messages taken in, and the rest is held. -/
theorem run_parsed (cfg : Config) (fd : Nat) (id regid : UInt32) (callbacks : List Callback) :
    ∃ frames, controls.parse (deliveredTo cfg (new fd id regid) callbacks) =
        (frames, (run (step cfg) (new fd id regid) callbacks).readQueue.held) ∧
      (run (step cfg) (new fd id regid) callbacks).seen = frames.map content := by
  obtain ⟨settled, got⟩ := run_settled cfg (new_settled fd id regid) callbacks
  obtain ⟨frames, complete, seen, whole⟩ := settled.sound.whole
  refine ⟨frames, ?_, seen⟩
  have bytes : deliveredTo cfg (new fd id regid) callbacks =
      frames.flatten ++ (run (step cfg) (new fd id regid) callbacks).readQueue.held := by
    rw [whole, settled.dry, List.append_nil] at got
    exact got.symm
  rw [bytes]
  exact controls.parse_flatten_append complete settled.sound.phase.incomplete

end Handler

end Coinscope.Control

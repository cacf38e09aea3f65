/-
# Connector.Terminal -- the last record of a connection

The clients that follow the log take a BITCOIN record of a disconnect for the end of
its handle.  Two paths of the handler write on behind it.

When a callback finds the socket readable and writable, `io_cb` goes on to `do_write`
although `do_read` has just closed the descriptor; if anything is queued, the `write`
to descriptor -1 fails and a second disconnect is logged.  And `suicide` stops the
ping timer but not the active-ping timer, whose callback logs the address message it
appends to a handler nobody will write for.

* `Reading.outcome` -- what `do_read` logs, and when it ends the connection.
* `Reported` -- the steps that take neither path.
* `log_closed_iff` -- the log of a handler ends with its disconnect exactly in the runs
  of such steps.
-/
import Coinscope.Connector.Handshake
import Coinscope.Connector.PeerFraming

namespace Coinscope.Connector

open Coinscope.Shared
open Coinscope.Theory.Runs

set_option autoImplicit false

/-! ## Records -/

def terminalTypes : List UInt32 :=
  [ORDERLY_DISCONNECT, PEER_RESET, UNEXPECTED_ERROR, WRITE_DISCONNECT, CONNECTOR_DISCONNECT]

/-- A terminal BITCOIN record of the handle `id`. -/
def terminal (id : UInt32) : LogCall → Bool
  | .bitcoin updateType handleId .. => decide (handleId = id) && terminalTypes.contains updateType
  | .bitcoinMsg .. => false
  | .text .. => false

/-- A BITCOIN or a BITCOIN_MSG record of the handle `id`. -/
def names (id : UInt32) : LogCall → Bool
  | .bitcoin _ handleId .. => decide (handleId = id)
  | .bitcoinMsg handleId .. => decide (handleId = id)
  | .text .. => false

/-- Behind a terminal record of a handle there is no further record of it. -/
def Closed (id : UInt32) (log : List LogCall) : Prop :=
  log.Pairwise fun earlier later => terminal id earlier = true → names id later = false

instance (id : UInt32) (log : List LogCall) : Decidable (Closed id log) :=
  inferInstanceAs (Decidable (List.Pairwise _ _))

/-- As long as there is no terminal record, any record may follow. -/
theorem closed_of_open {id : UInt32} {log : List LogCall}
    (still : ∀ r ∈ log, terminal id r = false) (last : LogCall) : Closed id (log ++ [last]) := by
  have silent : ∀ r ∈ log, ∀ s, terminal id r = true → names id s = false := by
    intro r member s ends
    rw [still r member] at ends
    cases ends
  refine List.pairwise_append.2 ⟨?_, List.pairwise_singleton .., ?_⟩
  · exact List.pairwise_of_forall_mem_list fun r member s _ => silent r member s
  · intro r member s _
    exact silent r member s

/-- A record of the handle behind a terminal one. -/
theorem not_closed {id : UInt32} {log : List LogCall} {r s : LogCall} (member : r ∈ log)
    (ends : terminal id r = true) (again : names id s = true) : ¬ Closed id (log ++ [s]) := by
  intro closed
  have silent := (List.pairwise_append.1 closed).2.2 r member s (List.mem_singleton_self s) ends
  rw [again] at silent
  cases silent

/-! ## Steps that end nothing -/

/-- The handle and the descriptor are kept, and no terminal record is logged. -/
structure Talks (h h' : Handler) : Prop where
  id : h'.id = h.id
  fd : h'.io.fd = h.io.fd
  log : ∃ more, h'.log = h.log ++ more ∧ ∀ r ∈ more, terminal h.id r = false

namespace Talks

theorem quiet {h h' : Handler} (id : h'.id = h.id) (fd : h'.io.fd = h.io.fd)
    (log : h'.log = h.log) : Talks h h' := ⟨id, fd, [], by simp [log], by simp⟩

theorem refl (h : Handler) : Talks h h := quiet rfl rfl rfl

theorem trans {a b c : Handler} (first : Talks a b) (second : Talks b c) : Talks a c := by
  obtain ⟨early, here, calm⟩ := first.log
  obtain ⟨late, there, still⟩ := second.log
  refine ⟨second.id.trans first.id, second.fd.trans first.fd, early ++ late, ?_, ?_⟩
  · rw [there, here, List.append_assoc]
  · intro r member
    rcases List.mem_append.1 member with old | new
    · exact calm r old
    · rw [← first.id]
      exact still r new

end Talks

namespace Handler

theorem gLog_talks (h : Handler) {call : LogCall} (other : terminal h.id call = false) :
    Talks h (h.gLog call) := by
  refine ⟨rfl, rfl, [call], rfl, ?_⟩
  intro r member
  rw [List.mem_singleton.1 member]
  exact other

theorem ioSet_talks (h : Handler) (e : Events) : Talks h (h.ioSet e) := by
  unfold ioSet
  split <;> exact Talks.quiet rfl rfl rfl

theorem appendedForWrite_talks (h : Handler) (m : PackedMessage) (queue : WriteBuffer) :
    Talks h (h.appendedForWrite m queue) := by
  have logged : Talks h { h.gLog (.bitcoinMsg h.id true m) with writeQueue := queue } :=
    (h.gLog_talks rfl).trans (Talks.quiet rfl rfl rfl)
  unfold appendedForWrite
  simp only
  split
  · exact (logged.trans (ioSet_talks ..)).trans (Talks.quiet rfl rfl rfl)
  · exact logged.trans (Talks.quiet rfl rfl rfl)

theorem handleMessageRecv_talks (cfg : Config) (h : Handler) (lastBlock : Int) (m : PackedMessage) :
    Talks h (h.handleMessageRecv cfg lastBlock m).1 := by
  have logged : Talks h (h.gLog (.bitcoinMsg h.id false m)) := h.gLog_talks rfl
  have reacted := handleMessageRecv_reacted cfg h lastBlock m
  generalize (h.handleMessageRecv cfg lastBlock m).1 = h' at reacted ⊢
  cases reacted with
  | ping => exact logged.trans (appendedForWrite_talks ..)
  | getblocks => exact logged.trans (appendedForWrite_talks ..)
  | verack => exact logged.trans (Talks.quiet rfl rfl rfl)
  | unexpected => exact logged.trans (gLog_talks _ rfl)
  | nothing => exact logged

theorem handleMessage_talks (cfg : Config) (h : Handler) (lastBlock : Int) :
    Talks h (h.handleMessage cfg lastBlock).1 := by
  unfold handleMessage withMessage
  split
  · exact (handleMessageRecv_talks ..).trans (Talks.quiet rfl rfl rfl)
  · exact Talks.quiet rfl rfl rfl

theorem replyVersion_talks (cfg : Config) (env : VersionEnv) (h : Handler) (lastBlock : Int) :
    Talks h (h.replyVersion cfg env lastBlock) := by
  have queued : ∀ (k : Handler) (m : PackedMessage), Talks k (k.appendForWrite m) :=
    fun k m => appendedForWrite_talks k m _
  have pinging : ∀ k : Handler, Talks k
      { k.startPingers cfg with state := SEND_VERSION_REPLY ||| RECV_HEADER } :=
    fun k => Talks.quiet rfl rfl rfl
  unfold replyVersion
  exact ((queued h _).trans (queued _ _)).trans (pinging _)

theorem Switched.talks {cfg : Config} {env : VersionEnv} {h h' : Handler} {lastBlock : Int}
    (switched : Switched cfg env h lastBlock h') : Talks h h' := by
  have sized : Talks h h.sized := Talks.quiet rfl rfl rfl
  cases switched with
  | body => exact Talks.quiet rfl rfl rfl
  | empty => exact sized.trans (handleMessage_talks ..)
  | payload => exact (handleMessage_talks ..).trans (Talks.quiet rfl rfl rfl)
  | reply => exact (handleMessage_talks ..).trans (replyVersion_talks ..)

end Handler

/-! ## What is queued behind the messages read -/

/-- A message that is answered: a ping or a getblocks. -/
def asks (frame : List UInt8) : Bool :=
  decide (cString (frame.drop 4) = ascii ['p', 'i', 'n', 'g']) ||
    decide (cString (frame.drop 4) = ascii ['g', 'e', 't', 'b', 'l', 'o', 'c', 'k', 's'])

/-- The version of a peer that connected to us is awaited; it is answered whatever it is. -/
def replying (recv : UInt32) : Bool :=
  decide (recv = RECV_VERSION_REPLY_HDR ∨ recv = RECV_VERSION_REPLY)

/-- Whether any of the messages handled from a state on is answered. -/
def answered (recv : UInt32) (frames : List (List UInt8)) : Bool :=
  frames.any asks || (replying recv && !frames.isEmpty)

theorem answered_nil (recv : UInt32) : answered recv [] = false := by simp [answered]

theorem answered_append {recv next : UInt32} {a : List (List UInt8)}
    (later : replying next = (replying recv && a.isEmpty)) (b : List (List UInt8)) :
    answered recv (a ++ b) = (answered recv a || answered next b) := by
  cases a with
  | nil =>
      rw [List.isEmpty_nil, Bool.and_true] at later
      simp [answered, later]
  | cons f a =>
      rw [List.isEmpty_cons, Bool.and_false] at later
      simp only [answered, later, List.cons_append, List.any_cons, List.any_append,
        List.isEmpty_cons, Bool.not_false, Bool.and_true, Bool.false_and, Bool.or_false]
      cases asks f <;> cases a.any asks <;> cases replying recv <;> simp

/-- A short command reads the same in the message and in the memory it lies in. -/
theorem cString_wire (m : PackedMessage) (word : List UInt8) (short : word.length < 20) :
    cString (m.wire.drop 4) = word ↔ cString m.command = word := by
  have size : packedSize = 24 := rfl
  have cut : cString (m.wire.drop 4) = (cString m.command).take (packedSize + m.length - 4) := by
    rw [cString, cString, PackedMessage.wire, PackedMessage.command, List.drop_take,
      List.take_takeWhile]
  rw [cut]
  constructor
  · intro same
    have whole : (cString m.command).length ≤ packedSize + m.length - 4 := by
      by_contra long
      have length := congrArg List.length same
      rw [List.length_take] at length
      omega
    rw [← same, List.take_of_length_le whole]
  · intro same
    rw [same, List.take_of_length_le (by omega)]

namespace Handler

@[simp] theorem ioSet_writeQueue (h : Handler) (e : Events) :
    (h.ioSet e).writeQueue = h.writeQueue := by
  unfold ioSet
  split <;> rfl

@[simp] theorem appendedForWrite_writeQueue (h : Handler) (m : PackedMessage) (q : WriteBuffer) :
    (h.appendedForWrite m q).writeQueue = q := by
  unfold appendedForWrite
  simp only
  split
  · exact ioSet_writeQueue ..
  · rfl

theorem appendForWrite_toWrite (h : Handler) (m : PackedMessage) :
    (h.appendForWrite m).writeQueue.toWrite ≠ 0 := by
  have some_ := m.wire_pos
  simp only [appendForWrite, appendedForWrite_writeQueue, WriteBuffer.append]
  omega

theorem appendForWriteShared_toWrite (h : Handler) (m : PackedMessage) :
    (h.appendForWriteShared m).writeQueue.toWrite ≠ 0 := by
  have size : packedSize = 24 := rfl
  simp only [appendForWriteShared, appendedForWrite_writeQueue, WriteBuffer.appendShared]
  omega

theorem handleMessageRecv_toWrite (cfg : Config) (h : Handler) (lastBlock : Int)
    (m : PackedMessage) :
    (h.handleMessageRecv cfg lastBlock m).1.writeQueue.toWrite = 0 ↔
      h.writeQueue.toWrite = 0 ∧ asks m.wire = false := by
  have ping := cString_wire m (ascii ['p', 'i', 'n', 'g']) (by decide)
  have blocks := cString_wire m (ascii ['g', 'e', 't', 'b', 'l', 'o', 'c', 'k', 's']) (by decide)
  simp only [asks, ping, blocks, Bool.or_eq_false_iff, decide_eq_false_iff_not]
  have rest : ∀ k : Handler, k.writeQueue = h.writeQueue → Unasked m →
      (k.writeQueue.toWrite = 0 ↔ h.writeQueue.toWrite = 0 ∧ Unasked m) := by
    intro k same unasked
    rw [same]
    exact ⟨fun none_ => ⟨none_, unasked⟩, fun both => both.1⟩
  have reacted := handleMessageRecv_reacted cfg h lastBlock m
  generalize (h.handleMessageRecv cfg lastBlock m).1 = h' at reacted ⊢
  cases reacted with
  | ping asked =>
      exact ⟨fun none_ => absurd none_ (appendForWriteShared_toWrite _ _),
        fun both => absurd asked both.2.1⟩
  | getblocks asked =>
      exact ⟨fun none_ => absurd none_ (appendForWrite_toWrite _ _),
        fun both => absurd asked both.2.2⟩
  | verack unasked => exact rest _ rfl unasked
  | unexpected unasked => exact rest _ rfl unasked
  | nothing unasked => exact rest _ rfl unasked

/-- One handled message, and the queue behind it. -/
theorem handleMessage_toWrite (cfg : Config) {h : Handler} (lastBlock : Int) (kept : Kept h)
    (count : h.readQueue.held.length = packedSize + packedLength h.readQueue.held) :
    (h.handleMessage cfg lastBlock).1.writeQueue.toWrite = 0 ↔
      h.writeQueue.toWrite = 0 ∧ asks h.readQueue.held = false := by
  obtain ⟨m, -, wire, run⟩ := message_of_held kept.reads count
  rw [handleMessage, run, ← wire]
  exact handleMessageRecv_toWrite cfg h lastBlock m

/-- The messages handled on the way from one handler to another, and whether they left
something to write. -/
structure Answers (h h' : Handler) (frames : List (List UInt8)) : Prop where
  list : received h'.log = received h.log ++ frames
  queue : h'.writeQueue.toWrite = 0 ↔
    h.writeQueue.toWrite = 0 ∧ answered (h.state &&& RECV_MASK) frames = false

theorem Answers.trans {a b c : Handler} {early late : List (List UInt8)}
    (first : Answers a b early) (second : Answers b c late)
    (later : replying (b.state &&& RECV_MASK) =
      (replying (a.state &&& RECV_MASK) && early.isEmpty)) : Answers a c (early ++ late) := by
  constructor
  · rw [second.list, first.list, List.append_assoc]
  · rw [second.queue, first.queue, answered_append later, Bool.or_eq_false_iff, and_assoc]

theorem Switched.answers {cfg : Config} {env : VersionEnv} {h h' : Handler} {lastBlock : Int}
    (switched : Switched cfg env h lastBlock h') (kept : Kept h)
    (full : FullPhase (h.state &&& RECV_MASK) h.readQueue.held (received h.log)) :
    ∃ frames, Answers h h' frames ∧ replying (h'.state &&& RECV_MASK) =
      (replying (h.state &&& RECV_MASK) && frames.isEmpty) := by
  cases switched with
  | body state =>
      refine ⟨[], ⟨by simp [receiving, sized], by simp [receiving, sized, answered_nil]⟩, ?_⟩
      show replying (((h.state &&& SEND_MASK) ||| _) &&& RECV_MASK) = _
      rw [recv_receiving]
      rcases state with ⟨recv, rfl, -⟩ | ⟨recv, rfl⟩ | ⟨recv, rfl⟩ <;> rw [recv] <;> decide
  | empty recv nothing =>
      obtain ⟨whole, handled⟩ := empty_handled cfg lastBlock kept full recv nothing
      have back : (h.sized.handleMessage cfg lastBlock).1.state &&& RECV_MASK = RECV_HEADER :=
        handled.recv.trans recv
      refine ⟨[h.readQueue.held], ⟨handled.list, ?_⟩, ?_⟩
      · rw [handleMessage_toWrite cfg lastBlock (sized_kept kept) whole, recv]
        simp [answered, replying, RECV_HEADER, RECV_VERSION_REPLY_HDR, RECV_VERSION_REPLY, sized]
      · rw [back, recv]
        rfl
  | payload state =>
      obtain ⟨count, handled⟩ := body_handled cfg lastBlock kept full (by
        rcases state with recv | recv
        · exact Or.inl recv
        · exact Or.inr (Or.inl recv))
      have silent : replying (h.state &&& RECV_MASK) = false := by
        rcases state with recv | recv <;> rw [recv] <;> rfl
      refine ⟨[h.readQueue.held], ⟨handled.list, ?_⟩, ?_⟩
      · show (h.handleMessage cfg lastBlock).1.writeQueue.toWrite = 0 ↔ _
        rw [handleMessage_toWrite cfg lastBlock kept count]
        simp [answered, silent]
      · show replying (((_ : UInt32) ||| RECV_HEADER) &&& RECV_MASK) = _
        rw [recv_receiving, silent]
        rfl
  | reply recv =>
      obtain ⟨-, handled⟩ := body_handled cfg lastBlock kept full (Or.inr (Or.inr recv))
      have same : SameReads (h.handleMessage cfg lastBlock).1
          ((((h.handleMessage cfg lastBlock).1.appendForWrite (getMessage cfg
            (ascii ['v', 'e', 'r', 's', 'i', 'o', 'n']) (getVersion cfg env
              (h.handleMessage cfg lastBlock).2 (h.handleMessage cfg lastBlock).1.remoteAddr
              cfg.external))).appendForWrite
            (getMessage cfg (ascii ['v', 'e', 'r', 'a', 'c', 'k']) [])).startPingers cfg) :=
        ((appendForWrite_sameReads ..).trans (appendForWrite_sameReads ..)).trans
          (startPingers_sameReads ..)
      refine ⟨[h.readQueue.held], ⟨same.received.trans handled.list, ?_⟩, ?_⟩
      · have queued : ((h.handleMessage cfg lastBlock).1.replyVersion cfg env
            (h.handleMessage cfg lastBlock).2).writeQueue.toWrite ≠ 0 :=
          appendForWrite_toWrite _ _
        rw [recv]
        simp [answered, replying, queued]
      · have finished : replying ((SEND_VERSION_REPLY ||| RECV_HEADER) &&& RECV_MASK) = false := by
          decide
        rw [recv, List.isEmpty_cons, Bool.and_false]
        exact finished

theorem Reading.answers {cfg : Config} {env : VersionEnv} {h h' : Handler}
    {inbox : List RecvResult} (reading : Reading cfg env h inbox h') (sound : Sound h) :
    ∃ frames, Answers h h' frames := by
  induction reading with
  | sated => exact ⟨[], by simp, by simp [answered_nil]⟩
  | blocked => exact ⟨[], by simp [filled], by simp [filled, answered_nil]⟩
  | ended =>
      exact ⟨[], by simp [filled, suicide, gLogBitcoin, gLog, received],
        by simp [filled, suicide, gLogBitcoin, gLog, answered_nil]⟩
  | @round h inbox bytes lastBlock h' hungry valid full next ih =>
      obtain ⟨kept, phase, processed⟩ := round_processed cfg env lastBlock sound hungry valid full
      obtain ⟨early, first, later⟩ :=
        (process_switched cfg env lastBlock kept phase).answers kept phase
      obtain ⟨late, second⟩ := ih processed.sound
      have here : Answers h _ early := ⟨first.list, first.queue⟩
      exact ⟨early ++ late, here.trans second later⟩

/-- What `do_read` logs.  It ends the connection exactly if it comes to an answer that
does. -/
theorem Reading.outcome {cfg : Config} {env : VersionEnv} {h h' : Handler}
    {inbox : List RecvResult} (reading : Reading cfg env h inbox h') (sound : Sound h) :
    (Talks h h' ∧ ¬ (hangsUp inbox = true ∧ 0 < h'.readQueue.toRead)) ∨
      ∃ k updateType text, Talks h k ∧ HangUp updateType ∧
        h' = (k.gLogBitcoin updateType text).suicide ∧ hangsUp inbox = true ∧
        0 < h'.readQueue.toRead := by
  induction reading with
  | sated full => exact Or.inl ⟨Talks.refl _, by omega⟩
  | blocked valid short goesOn =>
      refine Or.inl ⟨Talks.quiet rfl rfl rfl, ?_⟩
      rw [goesOn]
      simp
  | ended updateType text valid short ends hangUp =>
      refine Or.inr ⟨filled _ _, updateType, text, Talks.quiet rfl rfl rfl, hangUp, rfl, ends, ?_⟩
      have toRead := short.toRead
      have less := short.length
      show 0 < (ReadBuffer.fill _ _).queue.toRead
      omega
  | @round h inbox bytes lastBlock h' hungry valid full next ih =>
      obtain ⟨kept, phase, processed⟩ := round_processed cfg env lastBlock sound hungry valid full
      obtain ⟨answers, split, data, -⟩ := full.took
      have same : hangsUp inbox = hangsUp (h.readQueue.fill inbox).inbox := by
        conv_lhs => rw [split]
        exact data.hangsUp_append _
      have now : Talks h ((h.filled (h.readQueue.fill inbox)).process cfg env lastBlock).1 :=
        Talks.trans (b := h.filled (h.readQueue.fill inbox)) (Talks.quiet rfl rfl rfl)
          (process_switched cfg env lastBlock kept phase).talks
      rw [same]
      rcases ih processed.sound with ⟨talks, goesOn⟩ | ⟨k, updateType, text, talks, rest⟩
      · exact Or.inl ⟨now.trans talks, goesOn⟩
      · exact Or.inr ⟨k, updateType, text, now.trans talks, rest⟩

/-! ## The callback -/

/-- A connection that is over: a terminal record is the last one. -/
structure Over (h h' : Handler) : Prop where
  id : h'.id = h.id
  fd : h'.io.fd = -1
  timer : h'.timer = false
  log : ∃ more last, h'.log = h.log ++ more ++ [last] ∧
    (∀ r ∈ more, terminal h.id r = false) ∧ terminal h.id last = true

/-- A record of the end, and the end. -/
theorem over_of_talks {h k : Handler} (talks : Talks h k) {updateType : UInt32}
    (ends : terminalTypes.contains updateType = true) (text : List UInt8) :
    Over h (k.gLogBitcoin updateType text).suicide := by
  obtain ⟨more, log, calm⟩ := talks.log
  refine ⟨talks.id, rfl, rfl, more, .bitcoin updateType k.id k.remoteAddr k.localAddr text, ?_, calm,
    ?_⟩
  · show k.log ++ _ = _
    rw [log]
  · rw [terminal, talks.id, ends]
    simp

theorem HangUp.ends {updateType : UInt32} (hangUp : HangUp updateType) :
    terminalTypes.contains updateType = true := by
  rcases hangUp with rfl | rfl | rfl <;> decide

/-- What `do_write` logs: nothing, or the end of the connection; a closed descriptor
always is the end. -/
theorem doWrite_outcome (cfg : Config) {h : Handler} (sound : Sound h) (outbox : List WriteResult) :
    (∃ st q failed w sent, h.doWrite cfg outbox = { h with
        state := st, readQueue := q, failed := failed, writeQueue := w, sent := sent } ∧
        (h.io.fd = -1 → h.writeQueue.toWrite = 0)) ∨
      (∃ w sent text, h.doWrite cfg outbox =
          (({ h with writeQueue := w, sent := sent } : Handler).gLogBitcoin WRITE_DISCONNECT
            text).suicide ∧ h.writeQueue.toWrite ≠ 0) := by
  have refused : h.io.fd = -1 → h.writeQueue.toWrite ≠ 0 →
      (WriteBuffer.flush h.io.fd outbox h.writeQueue).ret = .fail .ebadf := by
    intro gone more
    exact (WriteBuffer.flush_closed (by omega) outbox sound.writes more).1
  have entered : ∀ e, (WriteBuffer.flush h.io.fd outbox h.writeQueue).ret = .fail e →
      h.writeQueue.toWrite ≠ 0 := by
    intro e failed empty
    rw [WriteBuffer.flush_empty empty] at failed
    cases failed
  unfold doWrite
  generalize WriteBuffer.flush h.io.fd outbox h.writeQueue = s at *
  -- nothing is logged behind an answer that is no error
  have quiet : s.ret ≠ .fail .ebadf →
      ∃ st q failed w sent, (if s.queue.toWrite = 0 then
        ({ h with writeQueue := s.queue, sent := h.sent ++ s.put } : Handler).drained
        else { h with writeQueue := s.queue, sent := h.sent ++ s.put }) = { h with
          state := st, readQueue := q, failed := failed, writeQueue := w, sent := sent } ∧
        (h.io.fd = -1 → h.writeQueue.toWrite = 0) := by
    intro fine
    have linked : h.io.fd = -1 → h.writeQueue.toWrite = 0 := by
      intro gone
      by_contra more
      exact fine (refused gone more)
    split
    · rw [drained_frame]
      exact ⟨_, _, _, _, _, rfl, linked⟩
    · exact ⟨_, _, _, _, _, rfl, linked⟩
  simp only
  split
  · rename_i ret
    exact Or.inl (quiet (by rw [ret]; simp))
  · rename_i ret
    exact Or.inl (quiet (by rw [ret]; simp))
  · rename_i e _ _ ret
    exact Or.inr ⟨_, _, _, rfl, entered e ret⟩
  · rename_i ret
    exact Or.inl (quiet (by rw [ret]; simp))

/-- A callback that reads the end of the connection with something to write: queued
already, or the answer to a message it reads before the end. -/
def WritesOn (h : Handler) (revents : Events) (inbox : List RecvResult) : Prop :=
  h.state &&& RECV_MASK ≠ 0 ∧ revents.read = true ∧ revents.write = true ∧
    hangsUp inbox = true ∧ ¬ EmptyVersion (h.got ++ stream (leading inbox)) ∧
    (h.writeQueue.toWrite ≠ 0 ∨ answered (h.state &&& RECV_MASK) (messages.parse
      (h.readQueue.held ++ h.readQueue.unread ++ stream (leading inbox))).1 = true)

instance (h : Handler) (revents : Events) (inbox : List RecvResult) :
    Decidable (h.WritesOn revents inbox) := inferInstanceAs (Decidable (_ ∧ _))

/-- The reading half of a callback on an open connection. -/
theorem reading_outcome (cfg : Config) (env : VersionEnv) {h : Handler} (sound : Sound h)
    (lastBlock : Int) (inbox : List RecvResult) (busy : h.state &&& RECV_MASK ≠ 0) {r : Handler}
    (result : r = (h.doRead cfg env lastBlock inbox).1) :
    Sound r ∧
      ((Talks h r ∧
          ¬ (hangsUp inbox = true ∧ ¬ EmptyVersion (h.got ++ stream (leading inbox)))) ∨
        (Over h r ∧ hangsUp inbox = true ∧ ¬ EmptyVersion (h.got ++ stream (leading inbox)) ∧
          (r.writeQueue.toWrite ≠ 0 ↔ h.writeQueue.toWrite ≠ 0 ∨
            answered (h.state &&& RECV_MASK) (messages.parse
              (h.readQueue.held ++ h.readQueue.unread ++ stream (leading inbox))).1 = true))) := by
  have reading := doRead_reading cfg env lastBlock inbox sound
  rw [← result] at reading
  have read := reading.read sound busy
  have decided := read.wants_iff
  refine ⟨read.sound, ?_⟩
  rcases reading.outcome sound with ⟨talks, goesOn⟩ | ⟨k, updateType, text, talks, hangUp, last, ends,
    hungry⟩
  · rw [decided] at goesOn
    exact Or.inl ⟨talks, goesOn⟩
  · refine Or.inr ⟨?_, ends, decided.1 hungry, ?_⟩
    · rw [last]
      exact over_of_talks talks hangUp.ends text
    · obtain ⟨frames, answers⟩ := reading.answers sound
      obtain ⟨dry, got⟩ := read.drained hungry
      rw [sound.parse_since read.sound hungry dry answers.list got, Ne, answers.queue]
      by_cases empty : h.writeQueue.toWrite = 0 <;> simp [empty]

theorem doWrite_talks (cfg : Config) {h r : Handler} (sound : Sound r) (talks : Talks h r)
    (outbox : List WriteResult) : Talks h (r.doWrite cfg outbox) ∨ Over h (r.doWrite cfg outbox) := by
  rcases doWrite_outcome cfg sound outbox with ⟨st, q, failed, w, sent, result, -⟩ |
    ⟨w, sent, text, result, -⟩
  · rw [result]
    exact Or.inl (talks.trans (Talks.quiet rfl rfl rfl))
  · have flushed : Talks r { r with writeQueue := w, sent := sent } := Talks.quiet rfl rfl rfl
    have ends : terminalTypes.contains WRITE_DISCONNECT = true := by decide
    rw [result]
    exact Or.inr (over_of_talks (talks.trans flushed) ends text)

/-- Writing for a connection that is over: a second record if anything is queued. -/
theorem doWrite_over (cfg : Config) {h r : Handler} (sound : Sound r) (finished : Over h r)
    (outbox : List WriteResult) :
    (r.writeQueue.toWrite = 0 ∧ Over h (r.doWrite cfg outbox)) ∨
      (r.writeQueue.toWrite ≠ 0 ∧ ∃ last, (r.doWrite cfg outbox).log = r.log ++ [last] ∧
        names h.id last = true) := by
  rcases doWrite_outcome cfg sound outbox with ⟨st, q, failed, w, sent, result, empty⟩ |
    ⟨w, sent, text, result, more⟩
  · refine Or.inl ⟨empty finished.fd, ?_⟩
    rw [result]
    exact ⟨finished.id, finished.fd, finished.timer, finished.log⟩
  · refine Or.inr ⟨more, _, by rw [result]; rfl, ?_⟩
    show decide (r.id = h.id) = true
    rw [finished.id, decide_eq_true rfl]

/-- Setting the watcher logs nothing. -/
theorem ioSet_over {h k : Handler} (finished : Over h k) (e : Events) : Over h (k.ioSet e) := by
  unfold ioSet
  split
  · exact ⟨finished.id, finished.fd, finished.timer, finished.log⟩
  · exact finished

theorem ioSet_log (h : Handler) (e : Events) : (h.ioSet e).log = h.log := by
  unfold ioSet
  split <;> rfl

/-- A callback that does not write on leaves an open connection open or ends it with one
record; one that does writes a second record behind the end. -/
theorem ioCb_outcome (cfg : Config) (env : VersionEnv) {h : Handler} (sound : Sound h)
    (live : 0 ≤ h.io.fd) (lastBlock : Int) (revents : Events) (inbox : List RecvResult)
    (outbox : List WriteResult) {h' : Handler}
    (result : h' = (h.ioCb cfg env lastBlock revents inbox outbox).1) :
    (¬ h.WritesOn revents inbox ∧ (Talks h h' ∨ Over h h')) ∨
      (h.WritesOn revents inbox ∧ ∃ k last, Over h k ∧ h'.log = k.log ++ [last] ∧
        names h.id last = true) := by
  have linked : h.io.fd ≠ -1 := by omega
  have set : ∀ (k : Handler) (e : Events), Talks h k ∨ Over h k →
      Talks h (k.ioSet e) ∨ Over h (k.ioSet e) := by
    rintro k e (talks | finished)
    · exact Or.inl (talks.trans (ioSet_talks k e))
    · exact Or.inr (ioSet_over finished e)
  obtain ⟨r, w, read, write, final⟩ := ioCb_called cfg env linked lastBlock revents inbox outbox
  rw [← result] at final
  rcases read with ⟨busy, readable, rfl⟩ | ⟨idle, rfl⟩
  · obtain ⟨after, ⟨talks, goesOn⟩ | ⟨finished, ends, announced, queued⟩⟩ :=
      reading_outcome cfg env sound lastBlock inbox busy rfl
    · refine Or.inl ⟨fun on => goesOn ⟨on.2.2.2.1, on.2.2.2.2.1⟩, ?_⟩
      rw [final]
      rcases write with ⟨-, rfl⟩ | ⟨-, rfl⟩
      · exact set _ _ (doWrite_talks cfg after talks outbox)
      · exact set _ _ (Or.inl talks)
    · rcases write with ⟨writable, rfl⟩ | ⟨unwritable, rfl⟩
      · rcases doWrite_over cfg after finished outbox with ⟨empty, still⟩ | ⟨more, last, log, again⟩
        · refine Or.inl ⟨fun on => queued.2 on.2.2.2.2.2 empty, ?_⟩
          rw [final]
          exact set _ _ (Or.inr still)
        · refine Or.inr ⟨⟨busy, readable, writable, ends, announced, queued.1 more⟩, _, last, finished,
            ?_, again⟩
          rw [final, ioSet_log]
          exact log
      · refine Or.inl ⟨fun on => ?_, ?_⟩
        · have writable := on.2.2.1
          rw [unwritable] at writable
          cases writable
        · rw [final]
          exact set _ _ (Or.inr finished)
  · refine Or.inl ⟨fun on => idle ⟨on.1, on.2.1⟩, ?_⟩
    rw [final]
    rcases write with ⟨-, rfl⟩ | ⟨-, rfl⟩
    · exact set _ _ (doWrite_talks cfg sound (Talks.refl _) outbox)
    · exact set _ _ (Or.inl (Talks.refl _))

end Handler

/-! ## Every run -/

/-- The steps that take neither of the two paths: no callback writes on behind the end,
and the active-ping timer does not fire on a handler that is over. -/
def Reported (p : Peer) : PeerEvent → Prop
  | .ioCb _ _ revents inbox _ => p.active = true → ¬ p.handler.WritesOn revents inbox
  | .activePinger _ => p.deleted = false → p.handler.activePingTimer = true → p.active = true
  | _ => True

/-- Nothing terminal in the log of an open connection; the log of one that is over is
closed, and its ping timer is stopped. -/
structure Logged (id : UInt32) (p : Peer) : Prop where
  linked : Linked p
  same : p.handler.id = id
  closed : Closed id p.handler.log
  opened : 0 ≤ p.handler.io.fd → ∀ r ∈ p.handler.log, terminal id r = false
  finished : p.handler.io.fd = -1 →
    (∃ r ∈ p.handler.log, terminal id r = true) ∧ p.handler.timer = false

theorem logged_of_talks {id : UInt32} {p q : Peer} (logged : Logged id p) (linked : Linked q)
    (live : 0 ≤ p.handler.io.fd) (talks : Talks p.handler q.handler) : Logged id q := by
  obtain ⟨more, log, calm⟩ := talks.log
  have still : ∀ r ∈ q.handler.log, terminal id r = false := by
    intro r member
    rw [log] at member
    rcases List.mem_append.1 member with old | new
    · exact logged.opened live r old
    · rw [← logged.same]
      exact calm r new
  refine ⟨linked, talks.id.trans logged.same, ?_, fun _ => still, ?_⟩
  · exact List.pairwise_of_forall_mem_list fun r member s _ ends => by
      rw [still r member] at ends
      cases ends
  · intro gone
    have kept := talks.fd
    omega

theorem logged_of_over {id : UInt32} {p q : Peer} (logged : Logged id p) (linked : Linked q)
    (live : 0 ≤ p.handler.io.fd) (finished : Handler.Over p.handler q.handler) : Logged id q := by
  obtain ⟨more, last, log, calm, ends⟩ := finished.log
  rw [logged.same] at calm ends
  have still : ∀ r ∈ p.handler.log ++ more, terminal id r = false := by
    intro r member
    rcases List.mem_append.1 member with old | new
    · exact logged.opened live r old
    · exact calm r new
  refine ⟨linked, finished.id.trans logged.same, ?_, ?_, fun _ => ⟨⟨last, ?_, ends⟩, finished.timer⟩⟩
  · rw [log]
    exact closed_of_open still last
  · intro open_
    have gone := finished.fd
    omega
  · rw [log]
    exact List.mem_append_right _ (List.mem_singleton_self last)

theorem Handler.pingerCb_talks (cfg : Config) (h : Handler) (due : Bool) (nonce : Nat) :
    Talks h (h.pingerCb cfg due nonce) := by
  unfold pingerCb
  simp only
  split
  · exact (appendedForWrite_talks ..).trans (Talks.quiet rfl rfl rfl)
  · exact Talks.quiet rfl rfl rfl

theorem Handler.activePingerCb_talks (cfg : Config) (h : Handler) (now : Nat) :
    Talks h (h.activePingerCb cfg now) :=
  (appendedForWrite_talks ..).trans (Talks.quiet rfl rfl rfl)

theorem Handler.disconnect_over (h : Handler) : Over h h.disconnect :=
  over_of_talks (Talks.refl h) (by decide) []

/-- A message appended to a handler is logged. -/
theorem Handler.appendedForWrite_log (h : Handler) (m : PackedMessage) (queue : WriteBuffer) :
    (h.appendedForWrite m queue).log = h.log ++ [.bitcoinMsg h.id true m] := by
  unfold appendedForWrite
  simp only
  split
  · exact ioSet_log ..
  · rfl

/-- What an event does to a handler that has its descriptor. -/
theorem step_live (cfg : Config) {p : Peer} (linked : Linked p) (live : 0 ≤ p.handler.io.fd)
    (there : p.deleted = false) (e : PeerEvent) :
    (Reported p e ∧ (Talks p.handler (p.step cfg e).handler ∨
        Handler.Over p.handler (p.step cfg e).handler)) ∨
      (¬ Reported p e ∧ ∃ k last, Handler.Over p.handler k ∧
        (p.step cfg e).handler.log = k.log ++ [last] ∧ names p.handler.id last = true) := by
  have active : p.active = true := by simp [Peer.active, there, live]
  have present : ¬ p.deleted = true := by rw [there]; exact Bool.false_ne_true
  cases e with
  | ioCb env lastBlock revents inbox outbox =>
      simp only [Peer.step, if_neg present]
      rcases p.handler.ioCb_outcome cfg env linked.1 live lastBlock revents inbox outbox rfl with
        ⟨fine, outcome⟩ | ⟨on, outcome⟩
      · exact Or.inl ⟨fun _ => fine, outcome⟩
      · exact Or.inr ⟨fun fine => fine active on, outcome⟩
  | send m =>
      simp only [Peer.step, if_neg present, active, if_true]
      exact Or.inl ⟨trivial, Or.inl (Handler.appendedForWrite_talks ..)⟩
  | disconnect =>
      simp only [Peer.step, if_neg present, active, if_true]
      exact Or.inl ⟨trivial, Or.inr p.handler.disconnect_over⟩
  | pinger due nonce =>
      refine Or.inl ⟨trivial, Or.inl ?_⟩
      simp only [Peer.step, if_neg present]
      split
      · exact p.handler.pingerCb_talks cfg due nonce
      · exact Talks.refl _
  | activePinger now =>
      refine Or.inl ⟨fun _ _ => active, Or.inl ?_⟩
      simp only [Peer.step, if_neg present]
      split
      · exact p.handler.activePingerCb_talks cfg now
      · exact Talks.refl _
  | clearInactive =>
      simp only [Peer.step, if_neg present, active, if_true]
      exact Or.inl ⟨trivial, Or.inl (Talks.refl _)⟩

/-- Nothing reaches a deleted handler. -/
theorem reported_of_deleted {p : Peer} (deleted : p.deleted = true) (e : PeerEvent) :
    Reported p e := by
  have off : ¬ p.active = true := by simp [Peer.active, deleted]
  cases e with
  | ioCb => exact fun active => absurd active off
  | activePinger => exact fun there => absurd deleted (by rw [there]; exact Bool.false_ne_true)
  | send => trivial
  | disconnect => trivial
  | pinger => trivial
  | clearInactive => trivial

/-- What an event does to a handler that is over: only the timers can reach it. -/
theorem step_over (cfg : Config) {p : Peer} (gone : p.handler.io.fd = -1)
    (there : p.deleted = false) (e : PeerEvent) :
    (Reported p e ∧ Talks p.handler (p.step cfg e).handler ∧
        (p.handler.timer = false → (p.step cfg e).handler = p.handler)) ∨
      (¬ Reported p e ∧ ∃ m,
        (p.step cfg e).handler.log = p.handler.log ++ [.bitcoinMsg p.handler.id true m]) := by
  have off : ¬ p.active = true := by simp [Peer.active, gone]
  have present : ¬ p.deleted = true := by rw [there]; exact Bool.false_ne_true
  have idle : ∀ q : Peer, q.handler = p.handler → Talks p.handler q.handler ∧
      (p.handler.timer = false → q.handler = p.handler) := by
    intro q same
    rw [same]
    exact ⟨Talks.refl _, fun _ => rfl⟩
  cases e with
  | ioCb env lastBlock revents inbox outbox =>
      refine Or.inl ⟨fun active => absurd active off, idle _ ?_⟩
      simp only [Peer.step, if_neg present, Handler.ioCb, gone, if_true]
  | send m =>
      exact Or.inl ⟨trivial, idle _ (by simp only [Peer.step, if_neg present, if_neg off])⟩
  | disconnect =>
      exact Or.inl ⟨trivial, idle _ (by simp only [Peer.step, if_neg present, if_neg off])⟩
  | pinger due nonce =>
      refine Or.inl ⟨trivial, ?_⟩
      by_cases running : p.handler.timer = true
      · simp only [Peer.step, if_neg present, if_pos running]
        refine ⟨p.handler.pingerCb_talks cfg due nonce, fun stopped => ?_⟩
        rw [stopped] at running
        cases running
      · exact idle _ (by simp only [Peer.step, if_neg present, if_neg running])
  | activePinger now =>
      by_cases running : p.handler.activePingTimer = true
      · refine Or.inr ⟨fun fine => off (fine there running),
          getMessage cfg (ascii ['a', 'd', 'd', 'r'])
            (Handler.addrPayload cfg now), ?_⟩
        simp only [Peer.step, if_neg present, if_pos running]
        exact Handler.appendedForWrite_log ..
      · refine Or.inl ⟨fun _ on => absurd on running, idle _ ?_⟩
        simp only [Peer.step, if_neg present, if_neg running]
  | clearInactive =>
      exact Or.inl ⟨trivial, idle _ (by simp only [Peer.step, if_neg present, if_neg off])⟩

theorem Closed.initial {id : UInt32} {log more : List LogCall} (closed : Closed id (log ++ more)) :
    Closed id log := (List.pairwise_append.1 closed).1

/-- The log only grows. -/
theorem step_log (cfg : Config) {p : Peer} (linked : Linked p) (e : PeerEvent) :
    ∃ more, (p.step cfg e).handler.log = p.handler.log ++ more := by
  by_cases deleted : p.deleted = true
  · exact ⟨[], by simp [Peer.step, deleted]⟩
  · have there : p.deleted = false := by simpa using deleted
    rcases linked.2 with live | gone
    · rcases step_live cfg linked live there e with ⟨-, talks | finished⟩ | ⟨-, k, last, finished, log, -⟩
      · obtain ⟨more, log, -⟩ := talks.log
        exact ⟨more, log⟩
      · obtain ⟨more, last, log, -⟩ := finished.log
        exact ⟨more ++ [last], by rw [log, List.append_assoc]⟩
      · obtain ⟨more, first, before, -⟩ := finished.log
        exact ⟨more ++ [first] ++ [last], by rw [log, before]; simp⟩
    · rcases step_over cfg gone there e with ⟨-, talks, -⟩ | ⟨-, m, log⟩
      · obtain ⟨more, log, -⟩ := talks.log
        exact ⟨more, log⟩
      · exact ⟨_, log⟩

theorem step_logged (cfg : Config) {id : UInt32} {p : Peer} (logged : Logged id p) {e : PeerEvent}
    (ok : Reported p e) : Logged id (p.step cfg e) := by
  have linked := step_linked cfg logged.linked e
  by_cases deleted : p.deleted = true
  · have result : p.step cfg e = p := by simp [Peer.step, deleted]
    rw [result]
    exact logged
  · have there : p.deleted = false := by simpa using deleted
    rcases logged.linked.2 with live | gone
    · rcases step_live cfg logged.linked live there e with ⟨-, talks | finished⟩ | ⟨bad, -⟩
      · exact logged_of_talks logged linked live talks
      · exact logged_of_over logged linked live finished
      · exact absurd ok bad
    · rcases step_over cfg gone there e with ⟨-, -, same⟩ | ⟨bad, -⟩
      · have still := same (logged.finished gone).2
        exact ⟨linked, by rw [still]; exact logged.same, by rw [still]; exact logged.closed,
          by rw [still]; exact logged.opened, by rw [still]; exact logged.finished⟩
      · exact absurd ok bad

/-- A step that is not reported puts a record of the handle behind its end. -/
theorem step_unreported (cfg : Config) {id : UInt32} {p : Peer} (logged : Logged id p)
    {e : PeerEvent} (bad : ¬ Reported p e) : ¬ Closed id (p.step cfg e).handler.log := by
  have there : p.deleted = false := by
    by_contra deleted
    exact bad (reported_of_deleted (by simpa using deleted) e)
  rcases logged.linked.2 with live | gone
  · rcases step_live cfg logged.linked live there e with ⟨fine, -⟩ | ⟨-, k, last, finished, log, again⟩
    · exact absurd fine bad
    · obtain ⟨more, first, before, -, ends⟩ := finished.log
      rw [logged.same] at ends again
      rw [log]
      refine not_closed ?_ ends again
      rw [before]
      exact List.mem_append_right _ (List.mem_singleton_self first)
  · rcases step_over cfg gone there e with ⟨fine, -⟩ | ⟨-, m, log⟩
    · exact absurd fine bad
    · obtain ⟨⟨last, member, ends⟩, -⟩ := logged.finished gone
      rw [log]
      refine not_closed member ends ?_
      rw [names, logged.same, decide_eq_true rfl]

theorem new_logged (cfg : Config) (env : VersionEnv) (lastBlock : Int) {fd : Nat} (isOpen : 0 < fd)
    (origin : Peer.Origin) (remote localAddr : SockaddrStorage) (id : UInt32) :
    Logged id (Peer.new cfg env lastBlock fd origin remote localAddr id) := by
  have linked := new_linked cfg env lastBlock isOpen origin remote localAddr id
  have success : terminalTypes.contains CONNECT_SUCCESS = false := by decide
  have accepted : terminalTypes.contains ACCEPT_SUCCESS = false := by decide
  have calm : ∀ r ∈ (Peer.new cfg env lastBlock fd origin remote localAddr id).handler.log,
      terminal id r = false := by
    intro r member
    cases origin with
    | connected =>
        have log : r ∈ [LogCall.bitcoinMsg id true _] ++ [LogCall.bitcoin CONNECT_SUCCESS id remote
          localAddr []] := member
        simp only [List.cons_append, List.nil_append, List.mem_cons, List.not_mem_nil,
          or_false] at log
        rcases log with rfl | rfl
        · rfl
        · rw [terminal, success, Bool.and_false]
    | accepted =>
        have log : r ∈ [LogCall.bitcoin ACCEPT_SUCCESS id remote localAddr []] := member
        rw [List.mem_singleton.1 log, terminal, accepted, Bool.and_false]
  have fdThere : 0 ≤ (Peer.new cfg env lastBlock fd origin remote localAddr id).handler.io.fd := by
    cases origin with
    | connected => exact Int.natCast_nonneg fd
    | accepted => exact Int.natCast_nonneg fd
  refine ⟨linked, ?_, ?_, fun _ => calm, fun gone => ?_⟩
  · cases origin with
    | connected => rfl
    | accepted => rfl
  · exact List.pairwise_of_forall_mem_list fun r member s _ ends => by
      rw [calm r member] at ends
      cases ends
  · omega

/-- In every run, the log of a handler ends with its disconnect if and only if no
callback writes on behind the end it has read, and the active-ping timer never fires
on a handler that is over. -/
theorem log_closed_iff (cfg : Config) (env : VersionEnv) (lastBlock : Int) (fd : Nat)
    (isOpen : 0 < fd) (origin : Peer.Origin) (remote localAddr : SockaddrStorage) (id : UInt32)
    (events : List PeerEvent) :
    Closed id (run (Peer.step cfg) (Peer.new cfg env lastBlock fd origin remote localAddr id)
        events).handler.log ↔
      Along (Peer.step cfg) Reported (Peer.new cfg env lastBlock fd origin remote localAddr id)
        events := by
  refine run_iff_along (P := fun p : Peer => Closed id p.handler.log) (I := Logged id) (J := Linked)
    (fun p e linked => step_linked cfg linked e) (fun p logged => ⟨logged.closed, logged.linked⟩)
    (fun p e logged ok => step_logged cfg logged ok)
    (fun p e logged bad => step_unreported cfg logged bad) ?_
    (new_logged cfg env lastBlock isOpen origin remote localAddr id) events
  intro p e linked broken closed
  obtain ⟨more, log⟩ := step_log cfg linked e
  rw [log] at closed
  exact broken closed.initial

/-- Our version goes out, the peer resets the connection, and a command to disconnect
comes too late. -/
theorem log_closed_peer_reset :
    Closed 0 (run (Peer.step someConfig)
      (Peer.new someConfig someEnv 0 5 .connected someAddr someAddr 0)
      [.ioCb someEnv 0 Events.WRITE [] [.accept 500],
       .ioCb someEnv 0 Events.READ [.err .econnreset] [],
       .disconnect]).handler.log :=
  (log_closed_iff someConfig someEnv 0 5 (by decide) .connected someAddr someAddr 0
    [.ioCb someEnv 0 Events.WRITE [] [.accept 500],
     .ioCb someEnv 0 Events.READ [.err .econnreset] [], .disconnect]).2
    ⟨fun _ on => Bool.false_ne_true on.2.1, fun _ on => Bool.false_ne_true on.2.2.1, trivial,
      trivial⟩

/-- A message is queued when the peer closes: an orderly disconnect and a failed write
are both logged.  And a peer that has sent its version and closed is sent an address. -/
theorem logged_behind_the_end :
    ¬ Closed 0 (run (Peer.step someConfig)
        (Peer.new someConfig someEnv 0 5 .connected someAddr someAddr 0)
        [.ioCb someEnv 0 Events.WRITE [] [.accept 500],
         .send someVerack,
         .ioCb someEnv 0 ⟨true, true⟩ [.eof] []]).handler.log ∧
      ¬ Closed 0 (run (Peer.step someConfig)
        (Peer.new someConfig someEnv 0 5 .accepted someAddr someAddr 0)
        [.ioCb someEnv 0 Events.READ [.data shortVersion] [],
         .ioCb someEnv 0 Events.READ [.eof] [],
         .activePinger 1400000000]).handler.log := by
  decide +kernel

end Coinscope.Connector

/-
# Connector.Outgoing -- messages on their way out

A message to a peer is logged, appended to the write queue and flagged in the state word,
and the watcher is set to writing if it was not.  The callback flushes the queue and sets
the watcher from the state word again.  In between `do_read` changes the receive half of
the state, and in one place all of it.

* `appended` -- the messages given to `append_for_write`, in order.
* `Sending` -- the flag follows the queue, and nothing is lost or reordered.
* `Watching` -- between callbacks the watcher follows the state word.
* `outgoing_in_order` -- every run of an active handler.
-/
import Coinscope.Connector.PeerFraming

namespace Coinscope.Connector

open Coinscope.Shared
open Coinscope.Theory.Bytes
open Coinscope.Theory.Runs

set_option autoImplicit false

/-! ## The invariant -/

/-- The messages appended, each of which is logged as sent when it is. -/
def appended (log : List LogCall) : List PackedMessage :=
  log.filterMap fun
    | .bitcoinMsg _ true m => some m
    | .bitcoinMsg _ false _ => none
    | .bitcoin .. => none
    | .text .. => none

theorem appended_append (a b : List LogCall) : appended (a ++ b) = appended a ++ appended b :=
  List.filterMap_append

/-- The bytes of some messages, one behind the other. -/
def wires (messages : List PackedMessage) : List UInt8 := (messages.map PackedMessage.wire).flatten

theorem wires_append (a b : List PackedMessage) : wires (a ++ b) = wires a ++ wires b := by
  simp [wires]

/-- `io_events` is what the watcher waits for. -/
def Cached (h : Handler) : Prop := h.io.events = h.ioEvents

/-- A send flag is set exactly while bytes are queued, and what was written and what is
queued are the messages appended. -/
structure Sending (h : Handler) : Prop where
  writes : h.writeQueue.Valid
  flagged : h.state &&& SEND_MASK ≠ 0 ↔ h.writeQueue.toWrite ≠ 0
  queued : h.sent ++ h.writeQueue.pending = wires (appended h.log)
  cached : Cached h

/-- Nothing the sending side depends on differs. -/
structure SameWrites (h h' : Handler) : Prop where
  writeQueue : h'.writeQueue = h.writeQueue
  sent : h'.sent = h.sent
  send : h'.state &&& SEND_MASK = h.state &&& SEND_MASK
  appended : appended h'.log = appended h.log
  cached : Cached h → Cached h'

theorem Sending.transfer {h h' : Handler} (sending : Sending h) (same : SameWrites h h') :
    Sending h' where
  writes := same.writeQueue ▸ sending.writes
  flagged := by rw [same.send, same.writeQueue]; exact sending.flagged
  queued := by rw [same.sent, same.writeQueue, same.appended]; exact sending.queued
  cached := same.cached sending.cached

namespace Handler

theorem ioSet_sameWrites (h : Handler) (e : Events) : SameWrites h (h.ioSet e) := by
  unfold ioSet
  split
  · exact ⟨rfl, rfl, rfl, rfl, fun _ => rfl⟩
  · exact ⟨rfl, rfl, rfl, rfl, fun cached => cached⟩

theorem gLogBitcoin_sameWrites (h : Handler) (updateType : UInt32) (text : List UInt8) :
    SameWrites h (h.gLogBitcoin updateType text) :=
  ⟨rfl, rfl, rfl, by simp [gLogBitcoin, gLog, appended], fun cached => cached⟩

theorem receiving_sameWrites (h : Handler) {r : UInt32} (low : r &&& SEND_MASK = 0) :
    SameWrites h (h.receiving r) :=
  ⟨rfl, rfl, send_receiving low, rfl, fun cached => cached⟩

/-! ## Appending -/

/-- What `append_for_write` leaves of the sending side. -/
structure Appended (h : Handler) (m : PackedMessage) (queue : WriteBuffer) (h' : Handler) :
    Prop where
  writeQueue : h'.writeQueue = queue
  sent : h'.sent = h.sent
  state : h'.state = h.state ||| SEND_MESSAGE
  log : h'.log = h.log ++ [.bitcoinMsg h.id true m]
  cached : Cached h → Cached h'
  watching : h.state &&& SEND_MASK = 0 → h'.ioEvents = ⟨h.state &&& RECV_MASK ≠ 0, true⟩
  still : h.state &&& SEND_MASK ≠ 0 → h'.ioEvents = h.ioEvents
  fd : h'.io.fd = h.io.fd

theorem appendedForWrite_appended (h : Handler) (m : PackedMessage) (queue : WriteBuffer) :
    Appended h m queue (h.appendedForWrite m queue) := by
  unfold appendedForWrite ioSet
  simp only
  split
  · rename_i idle
    split
    · exact ⟨rfl, rfl, rfl, rfl, fun _ => rfl, fun _ => rfl, fun flag => absurd idle flag, rfl⟩
    · rename_i same
      exact ⟨rfl, rfl, rfl, rfl, fun cached => cached, fun _ => (not_not.1 same).symm,
        fun flag => absurd idle flag, rfl⟩
  · rename_i flag
    exact ⟨rfl, rfl, rfl, rfl, fun cached => cached, fun idle => absurd idle flag, fun _ => rfl,
      rfl⟩

/-- A message that goes into the queue. -/
theorem appendedForWrite_sending {h : Handler} (sending : Sending h) (m : PackedMessage)
    {queue : WriteBuffer} (valid : queue.Valid)
    (pending : queue.pending = h.writeQueue.pending ++ m.wire) :
    Sending (h.appendedForWrite m queue) := by
  have result := appendedForWrite_appended h m queue
  have more : queue.toWrite ≠ 0 := by
    have wire := m.wire_pos
    rw [valid.count, pending, List.length_append]
    omega
  refine ⟨?_, ?_, ?_, result.cached sending.cached⟩
  · rw [result.writeQueue]
    exact valid
  · rw [result.writeQueue, result.state]
    exact ⟨fun _ => more, fun _ => send_or_message _⟩
  · rw [result.writeQueue, result.sent, result.log, appended_append, wires_append, pending,
      ← List.append_assoc, sending.queued]
    simp [appended, wires]

theorem appendForWrite_sending {h : Handler} (sending : Sending h) (m : PackedMessage) :
    Sending (h.appendForWrite m) :=
  appendedForWrite_sending sending m (sending.writes.append m.wire_pos)
    (WriteBuffer.append_pending ..)

theorem appendForWriteShared_sending {h : Handler} (sending : Sending h) (m : PackedMessage) :
    Sending (h.appendForWriteShared m) :=
  appendedForWrite_sending sending m
    (sending.writes.appendShared (Nat.add_pos_left (by decide) _) m.whole)
    (WriteBuffer.appendShared_pending ..)

/-! ## Messages that are received -/

theorem handleMessageRecv_sending (cfg : Config) {h : Handler} (sending : Sending h)
    (lastBlock : Int) (m : PackedMessage) : Sending (h.handleMessageRecv cfg lastBlock m).1 := by
  have logged : Sending (h.gLog (.bitcoinMsg h.id false m)) :=
    sending.transfer ⟨rfl, rfl, rfl, by simp [gLog, appended], fun cached => cached⟩
  have reacted := handleMessageRecv_reacted cfg h lastBlock m
  generalize (h.handleMessageRecv cfg lastBlock m).1 = h' at reacted ⊢
  cases reacted with
  | ping => exact appendForWriteShared_sending logged _
  | getblocks => exact appendForWrite_sending logged _
  | verack => exact logged.transfer ⟨rfl, rfl, rfl, rfl, fun cached => cached⟩
  | unexpected => exact logged.transfer ⟨rfl, rfl, rfl, by simp [gLog, appended], fun cached => cached⟩
  | nothing => exact logged

theorem handleMessage_sending (cfg : Config) {h : Handler} (sending : Sending h)
    (lastBlock : Int) : Sending (h.handleMessage cfg lastBlock).1 := by
  unfold handleMessage withMessage
  split
  · exact (handleMessageRecv_sending cfg sending lastBlock _).transfer ⟨rfl, rfl, rfl, rfl, fun cached => cached⟩
  · exact sending.transfer ⟨rfl, rfl, rfl, rfl, fun cached => cached⟩

/-- The state word is overwritten behind two appends. -/
theorem replyVersion_sending (cfg : Config) (env : VersionEnv) {h : Handler} (sending : Sending h)
    (lastBlock : Int) : Sending (h.replyVersion cfg env lastBlock) := by
  have both := appendForWrite_sending (appendForWrite_sending sending
    (getMessage cfg (ascii ['v', 'e', 'r', 's', 'i', 'o', 'n'])
      (getVersion cfg env lastBlock h.remoteAddr cfg.external)))
    (getMessage cfg (ascii ['v', 'e', 'r', 'a', 'c', 'k']) [])
  have flag : (((h.appendForWrite (getMessage cfg (ascii ['v', 'e', 'r', 's', 'i', 'o', 'n'])
      (getVersion cfg env lastBlock h.remoteAddr cfg.external))).appendForWrite
      (getMessage cfg (ascii ['v', 'e', 'r', 'a', 'c', 'k']) [])).state &&& SEND_MASK) ≠ 0 := by
    rw [appendForWrite, (appendedForWrite_appended ..).state]
    exact send_or_message _
  refine ⟨both.writes, ⟨fun _ => both.flagged.1 flag, fun _ => ?_⟩, both.queued, both.cached⟩
  show (SEND_VERSION_REPLY ||| RECV_HEADER) &&& SEND_MASK ≠ 0
  decide

theorem Switched.sending {cfg : Config} {env : VersionEnv} {h h' : Handler} {lastBlock : Int}
    (switched : Switched cfg env h lastBlock h') (sending : Sending h) : Sending h' := by
  have sized : Sending h.sized := sending.transfer ⟨rfl, rfl, rfl, rfl, fun cached => cached⟩
  cases switched with
  | body state =>
      rcases state with ⟨-, rfl, -⟩ | ⟨-, rfl⟩ | ⟨-, rfl⟩
      · exact sized.transfer (receiving_sameWrites _ (by decide))
      · exact sized.transfer (receiving_sameWrites _ (by decide))
      · exact sized.transfer (receiving_sameWrites _ (by decide))
  | empty => exact handleMessage_sending cfg sized lastBlock
  | payload =>
      exact (handleMessage_sending cfg sending lastBlock).transfer
        (receiving_sameWrites _ (by decide))
  | reply => exact replyVersion_sending cfg env (handleMessage_sending cfg sending lastBlock) _

theorem Reading.sending {cfg : Config} {env : VersionEnv} {h h' : Handler}
    {inbox : List RecvResult} (reading : Reading cfg env h inbox h') (sound : Sound h)
    (sending : Sending h) : Sending h' := by
  induction reading with
  | sated => exact sending
  | blocked => exact sending.transfer ⟨rfl, rfl, rfl, rfl, fun cached => cached⟩
  | @ended h inbox bytes updateType text =>
      have logged : Sending ((h.filled (h.readQueue.fill inbox)).gLogBitcoin updateType text) :=
        sending.transfer ⟨rfl, rfl, rfl, by simp [gLogBitcoin, gLog, appended, filled],
          fun cached => cached⟩
      exact logged.transfer ⟨rfl, rfl, rfl, rfl, fun cached => cached⟩
  | @round h inbox bytes lastBlock h' hungry valid full next ih =>
      obtain ⟨kept, phase, processed⟩ :=
        round_processed cfg env lastBlock sound hungry valid full
      have switched := process_switched cfg env lastBlock kept phase
      have filled : Sending (h.filled (h.readQueue.fill inbox)) :=
        sending.transfer ⟨rfl, rfl, rfl, rfl, fun cached => cached⟩
      exact ih processed.sound (switched.sending filled)

/-! ## Flushing -/

/-- Behind a drained queue no send flag is left. -/
theorem drained_sending {h : Handler} (sound : Sound h) (empty : h.writeQueue.toWrite = 0)
    (queued : h.sent ++ h.writeQueue.pending = wires (appended h.log)) (cached : Cached h) :
    Sending h.drained := by
  have clear : ∀ s : UInt32, s &&& SEND_MASK = 0 →
      (s &&& SEND_MASK ≠ 0 ↔ h.writeQueue.toWrite ≠ 0) :=
    fun s none_ => ⟨fun flag => absurd none_ flag, fun more => absurd empty more⟩
  rcases drained_cases sound with ⟨-, result⟩ | ⟨-, result⟩
  · have none_ : RECV_VERSION_INIT_HDR &&& SEND_MASK = 0 := by decide
    rw [result]
    exact ⟨sound.writes, clear _ none_, queued, cached⟩
  · have apart : RECV_MASK &&& SEND_MASK = 0 := by decide
    have none_ : (h.state &&& RECV_MASK) &&& SEND_MASK = 0 := by
      rw [UInt32.and_assoc, apart, UInt32.and_zero]
    rw [result]
    exact ⟨sound.writes, clear _ none_, queued, cached⟩

theorem doWrite_sending (cfg : Config) {h : Handler} (sound : Sound h) (sending : Sending h)
    (outbox : List WriteResult) : Sending (h.doWrite cfg outbox) := by
  have flushed := flushed_sound sound outbox
  obtain ⟨valid, conserved, ended⟩ := WriteBuffer.flush_flushed h.io.fd outbox sending.writes
  unfold doWrite
  generalize WriteBuffer.flush h.io.fd outbox h.writeQueue = s at *
  have queued : (h.sent ++ s.put) ++ s.queue.pending = wires (appended h.log) := by
    rw [List.append_assoc, conserved]
    exact sending.queued
  -- bytes left over were queued before, so a flag is set
  have left : s.queue.toWrite ≠ 0 →
      Sending { h with writeQueue := s.queue, sent := h.sent ++ s.put } := by
    intro more
    refine ⟨valid, ⟨fun _ => more, fun _ => sending.flagged.2 ?_⟩, queued, sending.cached⟩
    rw [sending.writes.count, ← conserved, List.length_append, ← valid.count]
    omega
  have done : Sending (if s.queue.toWrite = 0 then
      ({ h with writeQueue := s.queue, sent := h.sent ++ s.put } : Handler).drained
      else { h with writeQueue := s.queue, sent := h.sent ++ s.put }) := by
    split
    · exact drained_sending flushed ‹_› queued sending.cached
    · exact left ‹_›
  simp only
  split
  · exact done
  · exact done
  · rename_i e _ _ ret
    rcases ended with ⟨fine, -⟩ | ⟨more, -⟩
    · rw [ret] at fine
      cases fine
    · exact ((left (by omega)).transfer (gLogBitcoin_sameWrites ..)).transfer ⟨rfl, rfl, rfl, rfl, fun cached => cached⟩
  · exact done

theorem ioCb_sending (cfg : Config) (env : VersionEnv) {h : Handler} (sound : Sound h)
    (sending : Sending h) (lastBlock : Int) (revents : Events) (inbox : List RecvResult)
    (outbox : List WriteResult) :
    Sending (h.ioCb cfg env lastBlock revents inbox outbox).1 := by
  by_cases live : h.io.fd = -1
  · rw [ioCb, if_pos live]
    exact sending
  · obtain ⟨r, w, read, write, set⟩ := ioCb_called cfg env live lastBlock revents inbox outbox
    have taken : Sound r ∧ Sending r := by
      rcases read with ⟨busy, -, rfl⟩ | ⟨-, rfl⟩
      · have reading := doRead_reading cfg env lastBlock inbox sound
        exact ⟨(reading.read sound busy).sound, reading.sending sound sending⟩
      · exact ⟨sound, sending⟩
    have written : Sending w := by
      rcases write with ⟨-, rfl⟩ | ⟨-, rfl⟩
      · exact doWrite_sending cfg taken.1 taken.2 outbox
      · exact taken.2
    rw [set]
    exact written.transfer (ioSet_sameWrites ..)

end Handler

/-! ## The watcher -/

/-- Between callbacks the watcher of a handler with a descriptor waits for what the state
word says. -/
def Watching (h : Handler) : Prop :=
  0 ≤ h.io.fd → h.ioEvents = ⟨h.state &&& RECV_MASK ≠ 0, h.state &&& SEND_MASK ≠ 0⟩

namespace Handler

/-- `io_set` at the end of a callback. -/
theorem ioSet_watching (h : Handler) :
    Watching (h.ioSet ⟨h.state &&& RECV_MASK ≠ 0, h.state &&& SEND_MASK ≠ 0⟩) := by
  unfold ioSet
  split
  · exact fun _ => rfl
  · rename_i same
    exact fun _ => (not_not.1 same).symm

theorem ioCb_watching (cfg : Config) (env : VersionEnv) {h : Handler} (watching : Watching h)
    (lastBlock : Int) (revents : Events) (inbox : List RecvResult) (outbox : List WriteResult) :
    Watching (h.ioCb cfg env lastBlock revents inbox outbox).1 := by
  by_cases live : h.io.fd = -1
  · rw [ioCb, if_pos live]
    exact watching
  · obtain ⟨r, w, -, -, set⟩ := ioCb_called cfg env live lastBlock revents inbox outbox
    rw [set]
    exact ioSet_watching w

/-- An append outside a callback wakes the watcher if no flag was set. -/
theorem appendedForWrite_watching {h : Handler} (watching : Watching h) (m : PackedMessage)
    (queue : WriteBuffer) : Watching (h.appendedForWrite m queue) := by
  have result := appendedForWrite_appended h m queue
  intro isOpen
  rw [result.fd] at isOpen
  rw [result.state, recv_or_message, decide_eq_true (send_or_message _)]
  by_cases idle : h.state &&& SEND_MASK = 0
  · exact result.watching idle
  · rw [result.still idle, watching isOpen, decide_eq_true idle]

end Handler

/-! ## Every run -/

/-- What holds of a handler between callbacks. -/
structure Outgoing (h : Handler) : Prop where
  sending : Sending h
  watching : Watching h

namespace Outgoing

theorem appendForWrite {h : Handler} (outgoing : Outgoing h) (m : PackedMessage) :
    Outgoing (h.appendForWrite m) :=
  ⟨Handler.appendForWrite_sending outgoing.sending m,
    Handler.appendedForWrite_watching outgoing.watching m _⟩

theorem appendForWriteShared {h : Handler} (outgoing : Outgoing h) (m : PackedMessage) :
    Outgoing (h.appendForWriteShared m) :=
  ⟨Handler.appendForWriteShared_sending outgoing.sending m,
    Handler.appendedForWrite_watching outgoing.watching m _⟩

end Outgoing

namespace Peer

theorem step_outgoing (cfg : Config) {p : Peer} (sound : Sound p.handler)
    (outgoing : Outgoing p.handler) (e : PeerEvent) : Outgoing (p.step cfg e).handler := by
  unfold step
  split
  · exact outgoing
  · cases e with
    | ioCb env lastBlock revents inbox outbox =>
        exact ⟨Handler.ioCb_sending cfg env sound outgoing.sending lastBlock revents inbox outbox,
          Handler.ioCb_watching cfg env outgoing.watching lastBlock revents inbox outbox⟩
    | send m =>
        simp only
        split
        · exact outgoing.appendForWriteShared m
        · exact outgoing
    | disconnect =>
        simp only
        split
        · refine ⟨(outgoing.sending.transfer (Handler.gLogBitcoin_sameWrites ..)).transfer
            ⟨rfl, rfl, rfl, rfl, fun cached => cached⟩, ?_⟩
          intro isOpen
          have gone : (0 : Int) ≤ -1 := isOpen
          omega
        · exact outgoing
    | pinger due nonce =>
        simp only
        split
        · unfold Handler.pingerCb
          simp only
          split
          · have sent := outgoing.appendForWrite
              (getMessage cfg (ascii ['p', 'i', 'n', 'g']) (le 8 nonce))
            exact ⟨sent.sending.transfer ⟨rfl, rfl, rfl, rfl, fun cached => cached⟩, sent.watching⟩
          · exact ⟨outgoing.sending.transfer ⟨rfl, rfl, rfl, rfl, fun cached => cached⟩,
              outgoing.watching⟩
        · exact outgoing
    | activePinger now =>
        simp only
        split
        · have sent := outgoing.appendForWrite
            (getMessage cfg (ascii ['a', 'd', 'd', 'r']) (Handler.addrPayload cfg now))
          exact ⟨sent.sending.transfer ⟨rfl, rfl, rfl, rfl, fun cached => cached⟩, sent.watching⟩
        · exact outgoing
    | clearInactive =>
        simp only
        split
        · exact outgoing
        · exact outgoing

theorem new_outgoing (cfg : Config) (env : VersionEnv) (lastBlock : Int) (fd : Nat)
    (origin : Origin) (remote localAddr : SockaddrStorage) (id : UInt32) :
    Outgoing (new cfg env lastBlock fd origin remote localAddr id).handler := by
  cases origin with
  | connected =>
      have some_ := PackedMessage.wire_pos
        (getMessage cfg (ascii ['v', 'e', 'r', 's', 'i', 'o', 'n'])
          (getVersion cfg env lastBlock cfg.external remote))
      have flag : SEND_VERSION_INIT &&& SEND_MASK ≠ 0 := by decide
      refine ⟨⟨WriteBuffer.new_valid.append some_, ⟨fun _ => ?_, fun _ => flag⟩, ?_, rfl⟩, fun _ => ?_⟩
      · show 0 + _ ≠ 0
        omega
      · show [] ++ (WriteBuffer.append _ _).pending = _
        rw [WriteBuffer.append_pending]
        simp [new, Handler.new, Origin.state, Handler.gLogBitcoin, Handler.gLog, appended, wires]
      · show Events.WRITE = ⟨decide (SEND_VERSION_INIT &&& RECV_MASK ≠ 0),
          decide (SEND_VERSION_INIT &&& SEND_MASK ≠ 0)⟩
        decide
  | accepted =>
      have clear : RECV_VERSION_REPLY_HDR &&& SEND_MASK = 0 := by decide
      have different : RECV_VERSION_REPLY_HDR ≠ SEND_VERSION_INIT := by decide
      have result : (new cfg env lastBlock fd .accepted remote localAddr id).handler =
          Handler.gLogBitcoin
            { readQueue := (ReadBuffer.new 0).setToRead packedSize, writeQueue := WriteBuffer.new
              remoteAddr := remote, localAddr := localAddr, state := RECV_VERSION_REPLY_HDR
              ioEvents := Events.READ, io := Io.startOn fd Events.READ
              timer := false, activePingTimer := false, id := id
              log := [], got := [], sent := [], failed := decide (fd = 0) } ACCEPT_SUCCESS [] := by
        simp [new, Handler.new, Origin.state, different]
      rw [result]
      refine ⟨Sending.transfer ?_ (Handler.gLogBitcoin_sameWrites ..), fun _ => ?_⟩
      · exact ⟨WriteBuffer.new_valid, ⟨fun flag => absurd clear flag, fun more => absurd rfl more⟩,
          rfl, rfl⟩
      · show Events.READ = ⟨decide (RECV_VERSION_REPLY_HDR &&& RECV_MASK ≠ 0),
          decide (RECV_VERSION_REPLY_HDR &&& SEND_MASK ≠ 0)⟩
        decide

theorem run_outgoing (cfg : Config) {p : Peer} (sound : Sound p.handler)
    (outgoing : Outgoing p.handler) (events : List PeerEvent) :
    Outgoing (run (step cfg) p events).handler :=
  (run_keeps (P := fun p : Peer => Sound p.handler ∧ Outgoing p.handler)
    (fun _ e here => ⟨step_sound cfg here.1 e, step_outgoing cfg here.1 here.2 e⟩)
    ⟨sound, outgoing⟩ events).2

end Peer

/-- In every run of an active handler: between callbacks a send flag is set, bytes are queued
and the watcher waits for writing all at the same time; it waits for reading exactly while
something is being received; it is set to what `io_events` remembers; and the bytes written
are the messages appended, in order, as far as they have gone. -/
theorem outgoing_in_order (cfg : Config) (env : VersionEnv) (lastBlock : Int) (fd : Nat)
    (isOpen : 0 < fd) (origin : Peer.Origin) (remote localAddr : SockaddrStorage) (id : UInt32)
    (events : List PeerEvent) (p : Peer)
    (reached : p = run (Peer.step cfg)
      (Peer.new cfg env lastBlock fd origin remote localAddr id) events)
    (active : p.active = true) :
    (p.handler.state &&& SEND_MASK ≠ 0 ↔ 0 < p.handler.writeQueue.toWrite) ∧
      (0 < p.handler.writeQueue.toWrite ↔ p.handler.ioEvents.write = true) ∧
      (p.handler.ioEvents.read = true ↔ p.handler.state &&& RECV_MASK ≠ 0) ∧
      p.handler.io.events = p.handler.ioEvents ∧
      p.handler.sent <+: wires (appended p.handler.log) := by
  have outgoing : Outgoing p.handler := by
    rw [reached]
    exact Peer.run_outgoing cfg (Peer.new_sound cfg env lastBlock isOpen origin remote localAddr id)
      (Peer.new_outgoing cfg env lastBlock fd origin remote localAddr id) events
  obtain ⟨sending, watching⟩ := outgoing
  have attached : 0 ≤ p.handler.io.fd := by
    simp only [Peer.active, Bool.and_eq_true, decide_eq_true_eq] at active
    exact active.2
  have flagged : p.handler.state &&& SEND_MASK ≠ 0 ↔ 0 < p.handler.writeQueue.toWrite := by
    rw [sending.flagged]
    omega
  rw [watching attached]
  refine ⟨flagged, ?_, ?_, ?_, ⟨_, sending.queued⟩⟩
  · rw [← flagged]
    exact decide_eq_true_iff.symm
  · exact decide_eq_true_iff
  · rw [← watching attached]
    exact sending.cached

/-- The version goes out in two pieces, and a message is appended in between. -/
theorem outgoing_in_order_two_pieces :
    (run (Peer.step someConfig)
      (Peer.new someConfig someEnv 0 5 .connected someAddr someAddr 3)
      [.ioCb someEnv 0 Events.WRITE [] [.accept 100], .send someVerack,
        .ioCb someEnv 0 Events.WRITE [] [.accept 13, .accept 10]]).handler.sent <+:
      wires [getMessage someConfig (ascii ['v', 'e', 'r', 's', 'i', 'o', 'n'])
        (getVersion someConfig someEnv 0 someAddr someAddr), someVerack] := by
  have order := (outgoing_in_order someConfig someEnv 0 5 (by decide) .connected someAddr someAddr 3
    [.ioCb someEnv 0 Events.WRITE [] [.accept 100], .send someVerack,
      .ioCb someEnv 0 Events.WRITE [] [.accept 13, .accept 10]] _ rfl (by decide +kernel)).2.2.2.2
  have messages : appended (run (Peer.step someConfig)
      (Peer.new someConfig someEnv 0 5 .connected someAddr someAddr 3)
      [.ioCb someEnv 0 Events.WRITE [] [.accept 100], .send someVerack,
        .ioCb someEnv 0 Events.WRITE [] [.accept 13, .accept 10]]).handler.log =
      [getMessage someConfig (ascii ['v', 'e', 'r', 's', 'i', 'o', 'n'])
        (getVersion someConfig someEnv 0 someAddr someAddr), someVerack] := by decide +kernel
  rw [messages] at order
  exact order

end Coinscope.Connector

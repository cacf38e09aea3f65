/-
# Connector.Answers -- a handler as a transducer

What a handler queues in a callback is decided by the messages it handles there: a ping comes
back with one letter changed, a getblocks gets an empty inv, and behind the first message of a
peer that connected to us stand our version and a verack.  Nothing else is queued, and nothing
is left out, however the bytes came and went.

* `answersTo` -- the answer to a message, on the wire.
* `Answered` -- what a part of a callback handles and what it queues for it.
* `ioCb_answered` -- a whole callback.
-/
import Coinscope.Connector.VersionExchange

namespace Coinscope.Connector

open Coinscope.Shared
open Coinscope.Theory.Bytes
open Coinscope.Theory.Runs

set_option autoImplicit false

/-! ## The answer to a message -/

/-- A ping with `command[1] = 'o'`. -/
def ponged (frame : List UInt8) : List UInt8 :=
  frame.take 5 ++ ascii ['o'] ++ frame.drop 6

/-- What `handle_message_recv` queues for a message. -/
def answersTo (cfg : Config) (frame : List UInt8) : List (List UInt8) :=
  if cString (frame.drop 4) = ascii ['p', 'i', 'n', 'g'] then [ponged frame]
  else if cString (frame.drop 4) = ascii ['g', 'e', 't', 'b', 'l', 'o', 'c', 'k', 's'] then
    [(getMessage cfg (ascii ['i', 'n', 'v']) (getInv [])).wire]
  else []

/-- The messages appended, on the wire. -/
def queuedWires (h : Handler) : List (List UInt8) := (appended h.log).map PackedMessage.wire

theorem wires_eq (h : Handler) : wires (appended h.log) = (queuedWires h).flatten := rfl

namespace Handler

/-- A pong on the wire is its ping but for one letter. -/
theorem wire_pong (m : PackedMessage) : (pong m).wire = ponged m.wire := by
  have wire := m.wire_length
  have size : packedSize = 24 := rfl
  have room := le_allocatedFor (packedSize + m.length)
  have length : (pong m).length = m.length := packedLength_pongBuffer m
  have copied : WrappedBuffer.blit (WrappedBuffer.ofSize (packedSize + m.length)) 0 m.wire =
      m.wire ++ (WrappedBuffer.ofSize (packedSize + m.length)).drop m.wire.length := by
    rw [WrappedBuffer.blit, List.take_zero, List.nil_append, Nat.zero_add]
  have whole : pongBuffer m = ponged m.wire ++
      (WrappedBuffer.ofSize (packedSize + m.length)).drop m.wire.length := by
    rw [pongBuffer, copied, WrappedBuffer.blit, ponged,
      List.take_append_of_le_length (by omega)]
    show _ ++ (m.wire ++ _).drop 6 = _
    rw [List.drop_append_of_le_length (by omega), List.append_assoc, List.append_assoc,
      List.append_assoc]
  rw [PackedMessage.wire, length]
  show (pongBuffer m).take (packedSize + m.length) = _
  rw [whole, List.take_left']
  simp [ponged, ascii]
  omega

/-- The answer, whatever state it is given in. -/
theorem handleMessageRecv_answers (cfg : Config) (h : Handler) (lastBlock : Int)
    (m : PackedMessage) :
    queuedWires (h.handleMessageRecv cfg lastBlock m).1 =
      queuedWires h ++ answersTo cfg m.wire := by
  have ping := cString_wire m (ascii ['p', 'i', 'n', 'g']) (by decide)
  have blocks :=
    cString_wire m (ascii ['g', 'e', 't', 'b', 'l', 'o', 'c', 'k', 's']) (by decide)
  have logged : appended (h.gLog (.bitcoinMsg h.id false m)).log = appended h.log := by
    simp [gLog, appended]
  have quiet : Unasked m → answersTo cfg m.wire = [] := by
    rintro ⟨noPing, noBlocks⟩
    rw [answersTo, if_neg (mt ping.1 noPing), if_neg (mt blocks.1 noBlocks)]
  have reacted := handleMessageRecv_reacted cfg h lastBlock m
  generalize (h.handleMessageRecv cfg lastBlock m).1 = h' at reacted ⊢
  cases reacted with
  | ping asked =>
      rw [queuedWires, appendForWriteShared, (appendedForWrite_appended ..).log, appended_append,
        logged, List.map_append, answersTo, if_pos (ping.2 asked), ← wire_pong]
      rfl
  | getblocks asked =>
      have other : ¬ cString (m.wire.drop 4) = ascii ['p', 'i', 'n', 'g'] := by
        intro both
        rw [blocks.2 asked] at both
        exact absurd both (by decide)
      rw [queuedWires, appendForWrite, (appendedForWrite_appended ..).log, appended_append,
        logged, List.map_append, answersTo, if_neg other, if_pos (blocks.2 asked)]
      rfl
  | verack unasked =>
      rw [quiet unasked, List.append_nil]
      exact congrArg (List.map PackedMessage.wire) logged
  | unexpected unasked =>
      rw [quiet unasked, List.append_nil, queuedWires, gLog, appended_append, logged]
      simp [appended, queuedWires]
  | nothing unasked =>
      rw [quiet unasked, List.append_nil]
      exact congrArg (List.map PackedMessage.wire) logged

theorem handleMessage_answers (cfg : Config) {h : Handler} (lastBlock : Int)
    (reads : h.readQueue.Valid)
    (count : h.readQueue.held.length = packedSize + packedLength h.readQueue.held) :
    queuedWires (h.handleMessage cfg lastBlock).1 =
      queuedWires h ++ answersTo cfg h.readQueue.held := by
  obtain ⟨m, -, wire, run⟩ := message_of_held reads count
  rw [handleMessage, run, ← wire]
  exact handleMessageRecv_answers cfg h lastBlock m

theorem replyVersion_answers (cfg : Config) (env : VersionEnv) (h : Handler) (lastBlock : Int) :
    queuedWires (h.replyVersion cfg env lastBlock) = queuedWires h ++
      [(versionMessage cfg env lastBlock h.remoteAddr cfg.external).wire,
        (verackMessage cfg).wire] := by
  rw [queuedWires, replyVersion_speaks, List.map_append]
  rfl

end Handler

/-! ## Answers are not answered -/

/-- A string starts its memory. -/
theorem take_of_cString {memory word : List UInt8} (same : cString memory = word) :
    memory.take word.length = word := by
  have front : word <+: memory := by
    rw [← same]
    exact List.takeWhile_prefix _
  exact (List.prefix_iff_eq_take.1 front).symm

/-- What the connector makes itself is not answered, if it starts with another letter than a
ping and a getblocks do. -/
theorem answersTo_getMessage (cfg cfg' : Config) (c : Char) (word : List Char)
    (payload : List UInt8) (noPing : ascii [c] ≠ ascii ['p']) (noBlocks : ascii [c] ≠ ascii ['g']) :
    answersTo cfg' (getMessage cfg (ascii (c :: word)) payload).wire = [] := by
  have command := command_getMessage cfg (ascii (c :: word)) payload
  have first : (getMessage cfg (ascii (c :: word)) payload).command.take 1 = ascii [c] := by
    have shorter := congrArg (List.take 1) command
    rw [List.take_take] at shorter
    exact shorter
  have other : ∀ (d : Char) (rest : List Char), (ascii (d :: rest)).length < 20 →
      ascii [c] ≠ ascii [d] → ¬ cString ((getMessage cfg (ascii (c :: word)) payload).wire.drop 4) =
        ascii (d :: rest) := by
    intro d rest short different same
    have start := take_of_cString ((cString_wire _ _ short).1 same)
    have letter := congrArg (List.take 1) start
    rw [List.take_take] at letter
    exact different (first.symm.trans letter)
  rw [answersTo, if_neg (other 'p' _ (by decide) noPing), if_neg (other 'g' _ (by decide) noBlocks)]

/-- A pong is not answered. -/
theorem answersTo_ponged (cfg : Config) {frame : List UInt8}
    (asked : cString (frame.drop 4) = ascii ['p', 'i', 'n', 'g']) :
    answersTo cfg (ponged frame) = [] := by
  have start := take_of_cString asked
  have long : 8 ≤ frame.length := by
    have length := congrArg List.length start
    simp [ascii] at length
    omega
  -- the letters of the command, by place
  have fourth : (ponged frame)[4]? = some 112 := by
    have here := congrArg (fun letters => letters[0]?) start
    have inside : 4 < frame.length := by omega
    simpa [ponged, ascii, List.getElem?_append, inside] using here
  have fifth : (ponged frame)[5]? = some 111 := by
    have five : (frame.take 5).length = 5 := by
      rw [List.length_take]
      omega
    rw [ponged, List.append_assoc, List.getElem?_append_right (by omega), five]
    rfl
  have other : ∀ word : List UInt8, (word[0]? = some 112 → word[1]? ≠ some 111) → 2 ≤ word.length →
      ¬ cString ((ponged frame).drop 4) = word := by
    intro word different two same
    have start := take_of_cString same
    have place : ∀ i, i < word.length → word[i]? = (ponged frame)[4 + i]? := by
      intro i inside
      rw [← start, List.getElem?_take_of_lt inside, List.getElem?_drop]
    exact different ((place 0 (by omega)).trans fourth) ((place 1 (by omega)).trans fifth)
  rw [answersTo, if_neg (other _ (by decide) (by decide)), if_neg (other _ (by decide) (by decide))]

/-- No answer asks for another. -/
theorem answersTo_answer (cfg cfg' : Config) (frame : List UInt8) :
    ∀ answer ∈ answersTo cfg frame, answersTo cfg' answer = [] := by
  intro answer member
  unfold answersTo at member
  split at member
  · rename_i asked
    rw [List.mem_singleton.1 member]
    exact answersTo_ponged cfg' asked
  · split at member
    · rw [List.mem_singleton.1 member]
      exact answersTo_getMessage cfg cfg' 'i' ['n', 'v'] _ (by decide) (by decide)
    · cases member

/-! ## Parts of a callback -/

/-- No timer runs that did not run before. -/
structure NoTimer (h h' : Handler) : Prop where
  timer : h'.timer = true → h.timer = true
  activePing : h'.activePingTimer = true → h.activePingTimer = true

theorem NoTimer.trans {a b c : Handler} (first : NoTimer a b) (second : NoTimer b c) :
    NoTimer a c :=
  ⟨fun on => first.timer (second.timer on), fun on => first.activePing (second.activePing on)⟩

/-- From one handler to the other messages were handled and answered, in order.  The first
message of a peer that connected to us is answered by our version and a verack too. -/
inductive Answered (cfg : Config) (env : VersionEnv) (h h' : Handler) : Prop where
  | handled (frames : List (List UInt8))
      (list : received h'.log = received h.log ++ frames)
      (queued : queuedWires h' = queuedWires h ++ frames.flatMap (answersTo cfg))
      (same : replying (h'.state &&& RECV_MASK) = replying (h.state &&& RECV_MASK))
      (waits : replying (h.state &&& RECV_MASK) = true → frames = [])
      (still : frames = [] → NoTimer h h')
  | replied (first : List UInt8) (rest : List (List UInt8)) (lastBlock : Int)
      (list : received h'.log = received h.log ++ first :: rest)
      (queued : queuedWires h' = queuedWires h ++ (answersTo cfg first ++
        [(versionMessage cfg env lastBlock h.remoteAddr cfg.external).wire,
          (verackMessage cfg).wire] ++ rest.flatMap (answersTo cfg)))
      (before : replying (h.state &&& RECV_MASK) = true)
      (after : replying (h'.state &&& RECV_MASK) = false)

namespace Answered

variable {cfg : Config} {env : VersionEnv}

/-- Nothing is handled and nothing queued. -/
theorem of_same {h h' : Handler} (list : received h'.log = received h.log)
    (queued : appended h'.log = appended h.log)
    (same : replying (h'.state &&& RECV_MASK) = replying (h.state &&& RECV_MASK))
    (still : NoTimer h h') : Answered cfg env h h' :=
  .handled [] (by rw [list, List.append_nil])
    (by rw [queuedWires, queued, List.flatMap_nil, List.append_nil]; rfl) same (fun _ => rfl)
    fun _ => still

theorem refl (h : Handler) : Answered cfg env h h :=
  of_same rfl rfl rfl ⟨fun on => on, fun on => on⟩

/-- One part of a callback after the other. -/
theorem trans {a b c : Handler} (first : Answered cfg env a b) (second : Answered cfg env b c)
    (remote : b.remoteAddr = a.remoteAddr) : Answered cfg env a c := by
  rcases first with ⟨frames, list, queued, same, waits, still⟩ |
      ⟨frame, frames, block, list, queued, before, after⟩
  · rcases second with ⟨frames', list', queued', same', waits', still'⟩ |
        ⟨frame', frames', block', list', queued', before', after'⟩
    · refine .handled (frames ++ frames') (by rw [list', list, List.append_assoc]) ?_
        (same'.trans same) ?_ ?_
      · rw [queued', queued, List.flatMap_append, List.append_assoc]
      · intro waiting
        rw [waits waiting, waits' (same.trans waiting), List.append_nil]
      · intro none_
        obtain ⟨left, right⟩ := List.append_eq_nil_iff.1 none_
        exact (still left).trans (still' right)
    · have waiting : replying (a.state &&& RECV_MASK) = true := same.symm.trans before'
      have none_ := waits waiting
      subst none_
      rw [List.flatMap_nil, List.append_nil] at queued
      rw [List.append_nil] at list
      refine .replied frame' frames' block' (by rw [list', list]) ?_ waiting after'
      rw [queued', queued, remote]
  · rcases second with ⟨frames', list', queued', same', -, -⟩ | ⟨_, _, _, _, _, again, _⟩
    · refine .replied frame (frames ++ frames') block (by rw [list', list]; simp) ?_ before
        (same'.trans after)
      rw [queued', queued, List.flatMap_append]
      simp
    · rw [after] at again
      cases again

end Answered

namespace Handler

/-- The `switch` of `do_read`. -/
theorem Switched.answered {cfg : Config} {env : VersionEnv} {h h' : Handler} {lastBlock : Int}
    (switched : Switched cfg env h lastBlock h') (kept : Kept h)
    (full : FullPhase (h.state &&& RECV_MASK) h.readQueue.held (received h.log)) :
    Answered cfg env h h' := by
  cases switched with
  | @body r state =>
      have recv' : (h.sized.receiving r).state &&& RECV_MASK = r &&& RECV_MASK :=
        recv_receiving ..
      refine .of_same rfl rfl ?_ ⟨fun on => on, fun on => on⟩
      rw [recv']
      rcases state with ⟨recv, rfl, -⟩ | ⟨recv, rfl⟩ | ⟨recv, rfl⟩ <;> rw [recv] <;> decide
  | empty recv nothing =>
      obtain ⟨count, handled⟩ := empty_handled cfg lastBlock kept full recv nothing
      have awake : replying (h.state &&& RECV_MASK) = false := by
        rw [recv]
        decide
      refine .handled [h.readQueue.held] handled.list ?_ ?_ ?_ nofun
      · rw [List.flatMap_singleton]
        exact handleMessage_answers cfg lastBlock (sized_kept kept).reads count
      · rw [handled.recv]
        rfl
      · intro waiting
        rw [awake] at waiting
        cases waiting
  | payload state =>
      obtain ⟨count, handled⟩ := body_handled cfg lastBlock kept full
        (state.elim Or.inl fun here => Or.inr (Or.inl here))
      have awake : replying (h.state &&& RECV_MASK) = false := by
        rcases state with recv | recv <;> rw [recv] <;> decide
      refine .handled [h.readQueue.held] handled.list ?_ ?_ ?_ nofun
      · rw [List.flatMap_singleton]
        exact handleMessage_answers cfg lastBlock kept.reads count
      · rw [awake, receiving, recv_receiving]
        decide
      · intro waiting
        rw [awake] at waiting
        cases waiting
  | reply recv =>
      obtain ⟨count, handled⟩ := body_handled cfg lastBlock kept full (Or.inr (Or.inr recv))
      have remote := (handleMessage_ends cfg h lastBlock).remoteAddr
      refine .replied h.readQueue.held [] (h.handleMessage cfg lastBlock).2 ?_ ?_ ?_ ?_
      · rw [← handled.list]
        exact (((appendForWrite_sameReads ..).trans (appendForWrite_sameReads ..)).trans
          (startPingers_sameReads cfg _)).received
      · rw [replyVersion_answers, remote, handleMessage_answers cfg lastBlock kept.reads count,
          List.flatMap_nil, List.append_nil, List.append_assoc]
      · rw [recv]
        decide
      · show replying ((SEND_VERSION_REPLY ||| RECV_HEADER) &&& RECV_MASK) = false
        decide

theorem Reading.answered {cfg : Config} {env : VersionEnv} {h h' : Handler}
    {inbox : List RecvResult} (reading : Reading cfg env h inbox h') (sound : Sound h) :
    Answered cfg env h h' := by
  induction reading with
  | sated => exact .refl _
  | blocked => exact .of_same rfl rfl rfl ⟨fun on => on, fun on => on⟩
  | ended =>
      refine .of_same ?_ ?_ rfl ⟨nofun, fun on => on⟩
      · simp [filled, suicide, gLogBitcoin, gLog, received]
      · simp [filled, suicide, gLogBitcoin, gLog, appended]
  | @round h inbox bytes lastBlock h' hungry valid full next ih =>
      obtain ⟨kept, phase, processed⟩ := round_processed cfg env lastBlock sound hungry valid full
      have first := (process_switched cfg env lastBlock kept phase).answered kept phase
      have filled : Answered cfg env h (h.filled (h.readQueue.fill inbox)) :=
        .of_same rfl rfl rfl ⟨fun on => on, fun on => on⟩
      have remote : ((h.filled (h.readQueue.fill inbox)).process cfg env lastBlock).1.remoteAddr =
          h.remoteAddr := (process_ends cfg env (h.filled _) lastBlock).remoteAddr
      exact (filled.trans first rfl).trans (ih processed.sound) remote

theorem ioSet_noTimer (h : Handler) (e : Events) : NoTimer h (h.ioSet e) := by
  unfold ioSet
  split <;> exact ⟨fun on => on, fun on => on⟩

theorem drained_noTimer (h : Handler) : NoTimer h h.drained := by
  rw [drained_frame]
  exact ⟨fun on => on, fun on => on⟩

theorem doWrite_noTimer (cfg : Config) (h : Handler) (outbox : List WriteResult) :
    NoTimer h (h.doWrite cfg outbox) := by
  unfold doWrite
  generalize WriteBuffer.flush h.io.fd outbox h.writeQueue = s
  have done : NoTimer h (if s.queue.toWrite = 0 then
      ({ h with writeQueue := s.queue, sent := h.sent ++ s.put } : Handler).drained
      else { h with writeQueue := s.queue, sent := h.sent ++ s.put }) := by
    split
    · have last := drained_noTimer { h with writeQueue := s.queue, sent := h.sent ++ s.put }
      exact ⟨last.timer, last.activePing⟩
    · exact ⟨fun on => on, fun on => on⟩
  simp only
  split
  · exact done
  · exact done
  · exact ⟨nofun, fun on => on⟩
  · exact done

/-- What a callback on the socket handles and what it queues for it. -/
theorem ioCb_answered (cfg : Config) (env : VersionEnv) {h : Handler} (sound : Sound h)
    (lastBlock : Int) (revents : Events) (inbox : List RecvResult) (outbox : List WriteResult) :
    Answered cfg env h (h.ioCb cfg env lastBlock revents inbox outbox).1 := by
  by_cases live : h.io.fd = -1
  · rw [ioCb, if_pos live]
    exact .refl h
  · obtain ⟨r, w, read, write, set⟩ := ioCb_called cfg env live lastBlock revents inbox outbox
    have taken : Sound r ∧ r.remoteAddr = h.remoteAddr ∧ Answered cfg env h r := by
      rcases read with ⟨busy, -, rfl⟩ | ⟨-, rfl⟩
      · have reading := doRead_reading cfg env lastBlock inbox sound
        exact ⟨(reading.read sound busy).sound, (doReadAux_ends ..).remoteAddr,
          reading.answered sound⟩
      · exact ⟨sound, rfl, .refl _⟩
    obtain ⟨sounder, remote, answered⟩ := taken
    have written : Answered cfg env r w := by
      rcases write with ⟨-, rfl⟩ | ⟨-, rfl⟩
      · obtain ⟨log, same, -⟩ := doWrite_silent cfg sounder outbox
        exact .of_same (doWrite_wrote cfg sounder outbox).list log same (doWrite_noTimer cfg r outbox)
      · exact .refl _
    have end_ := ioSet_sameReads w ⟨w.state &&& RECV_MASK ≠ 0, w.state &&& SEND_MASK ≠ 0⟩
    have queue := ioSet_sameWrites w ⟨w.state &&& RECV_MASK ≠ 0, w.state &&& SEND_MASK ≠ 0⟩
    have remote' : w.remoteAddr = h.remoteAddr := by
      rcases write with ⟨-, rfl⟩ | ⟨-, rfl⟩
      · exact (doWrite_ends cfg r outbox).remoteAddr.trans remote
      · exact remote
    rw [set]
    exact (answered.trans written remote).trans
      (.of_same end_.received queue.appended (by rw [end_.recv]) (ioSet_noTimer ..)) remote'

theorem handleMessage_sent (cfg : Config) (h : Handler) (lastBlock : Int) :
    (h.handleMessage cfg lastBlock).1.sent = h.sent := by
  unfold handleMessage withMessage
  split
  · rename_i whole
    have reacted := handleMessageRecv_reacted cfg h lastBlock ⟨h.readQueue.buffer, whole⟩
    show (h.handleMessageRecv cfg lastBlock ⟨h.readQueue.buffer, whole⟩).1.sent = _
    generalize (h.handleMessageRecv cfg lastBlock ⟨h.readQueue.buffer, whole⟩).1 = h' at reacted ⊢
    cases reacted with
    | ping => exact (appendedForWrite_appended ..).sent
    | getblocks => exact (appendedForWrite_appended ..).sent
    | verack => rfl
    | unexpected => rfl
    | nothing => rfl
  · rfl

theorem replyVersion_sent (cfg : Config) (env : VersionEnv) (h : Handler) (lastBlock : Int) :
    (h.replyVersion cfg env lastBlock).sent = h.sent := by
  show ((h.appendForWrite _).appendForWrite _).sent = _
  rw [appendForWrite, (appendedForWrite_appended ..).sent, appendForWrite,
    (appendedForWrite_appended ..).sent]

/-- Reading writes nothing. -/
theorem Reading.sent {cfg : Config} {env : VersionEnv} {h h' : Handler} {inbox : List RecvResult}
    (reading : Reading cfg env h inbox h') (sound : Sound h) : h'.sent = h.sent := by
  induction reading with
  | sated => rfl
  | blocked => rfl
  | ended => rfl
  | @round h inbox bytes lastBlock h' hungry valid full next ih =>
      obtain ⟨kept, phase, processed⟩ := round_processed cfg env lastBlock sound hungry valid full
      have switched := process_switched cfg env lastBlock kept phase
      have later := ih processed.sound
      rw [later]
      generalize ((h.filled (h.readQueue.fill inbox)).process cfg env lastBlock).1 = k at switched
      cases switched with
      | body => rfl
      | empty => exact handleMessage_sent ..
      | payload => exact handleMessage_sent ..
      | reply => exact (replyVersion_sent ..).trans (handleMessage_sent ..)

theorem doWrite_sent (cfg : Config) (h : Handler) (outbox : List WriteResult) :
    (h.doWrite cfg outbox).sent = h.sent ++ (WriteBuffer.flush h.io.fd outbox h.writeQueue).put := by
  unfold doWrite
  generalize WriteBuffer.flush h.io.fd outbox h.writeQueue = s
  have done : (if s.queue.toWrite = 0 then
      ({ h with writeQueue := s.queue, sent := h.sent ++ s.put } : Handler).drained
      else { h with writeQueue := s.queue, sent := h.sent ++ s.put }).sent = h.sent ++ s.put := by
    split
    · rw [drained_frame]
    · rfl
  simp only
  split
  · exact done
  · exact done
  · rfl
  · exact done

theorem ioCb_sent (cfg : Config) (env : VersionEnv) {h : Handler} (sound : Sound h)
    (lastBlock : Int) (revents : Events) (inbox : List RecvResult) (outbox : List WriteResult) :
    h.sent <+: (h.ioCb cfg env lastBlock revents inbox outbox).1.sent := by
  by_cases live : h.io.fd = -1
  · rw [ioCb, if_pos live]
  · obtain ⟨r, w, read, write, set⟩ := ioCb_called cfg env live lastBlock revents inbox outbox
    have taken : r.sent = h.sent := by
      rcases read with ⟨-, -, rfl⟩ | ⟨-, rfl⟩
      · exact (doRead_reading cfg env lastBlock inbox sound).sent sound
      · rfl
    rw [set, (ioSet_sameWrites ..).sent, ← taken]
    rcases write with ⟨-, rfl⟩ | ⟨-, rfl⟩
    · rw [doWrite_sent]
      exact List.prefix_append ..
    · exact List.prefix_refl _

end Handler

/-! ## Whole runs -/

/-- Every message handled has been answered; other messages may stand in between. -/
def Answering (cfg : Config) (h : Handler) : Prop :=
  ((received h.log).flatMap (answersTo cfg)).Sublist (queuedWires h)

theorem Answered.answering {cfg : Config} {env : VersionEnv} {h h' : Handler}
    (answered : Answered cfg env h h') (before : Answering cfg h) : Answering cfg h' := by
  unfold Answering at before ⊢
  rcases answered with ⟨frames, list, queued, -⟩ | ⟨first, rest, _, list, queued, -⟩
  · rw [list, queued, List.flatMap_append]
    exact before.append (List.Sublist.refl _)
  · rw [list, queued, List.flatMap_append, List.flatMap_cons]
    exact before.append ((List.sublist_append_left ..).append (List.Sublist.refl _))

/-- Commands and timers handle no message, and what they queue comes last. -/
structure Adds (h h' : Handler) (more : List (List UInt8)) : Prop where
  list : received h'.log = received h.log
  queued : queuedWires h' = queuedWires h ++ more
  recv : h'.state &&& RECV_MASK = h.state &&& RECV_MASK
  reads : h'.readQueue = h.readQueue
  sent : h'.sent = h.sent

theorem Adds.refl (h : Handler) : Adds h h [] := ⟨rfl, (List.append_nil _).symm, rfl, rfl, rfl⟩

theorem adds_of_appended {h h' : Handler} {m : PackedMessage} {queue : WriteBuffer}
    (same : SameReads h h') (appends : Handler.Appended h m queue h') : Adds h h' [m.wire] := by
  refine ⟨same.received, ?_, same.recv, same.readQueue, appends.sent⟩
  rw [queuedWires, appends.log, appended_append, List.map_append]
  rfl

theorem appendForWrite_adds (h : Handler) (m : PackedMessage) :
    Adds h (h.appendForWrite m) [m.wire] :=
  adds_of_appended (Handler.appendForWrite_sameReads h m) (Handler.appendedForWrite_appended ..)

theorem appendForWriteShared_adds (h : Handler) (m : PackedMessage) :
    Adds h (h.appendForWriteShared m) [m.wire] :=
  adds_of_appended (Handler.appendForWriteShared_sameReads h m)
    (Handler.appendedForWrite_appended ..)

theorem appendedForWrite_noTimer (h : Handler) (m : PackedMessage) (queue : WriteBuffer) :
    NoTimer h (h.appendedForWrite m queue) := by
  unfold Handler.appendedForWrite Handler.ioSet
  simp only
  split
  · split <;> exact ⟨fun on => on, fun on => on⟩
  · exact ⟨fun on => on, fun on => on⟩

namespace Peer

/-- Steps in which no command appends to a handler that has not queued its version, or whose
version is not out. -/
def Polite (p : Peer) (e : PeerEvent) : Prop :=
  ∀ m, e = .send m → p.active = true →
    p.handler.state &&& SEND_VERSION_INIT = 0 ∧ replying p.recv = false

/-- What the events beside the callback on the socket add, and whose doing it is. -/
structure Elsewhere (cfg : Config) (p : Peer) (e : PeerEvent) (more : List (List UInt8)) :
    Prop where
  adds : Adds p.handler (p.step cfg e).handler more
  noTimer : NoTimer p.handler (p.step cfg e).handler
  cause : more = [] ∨ p.handler.timer = true ∨ p.handler.activePingTimer = true ∨
    ∃ m, e = .send m ∧ p.active = true

theorem step_elsewhere (cfg : Config) (p : Peer) {e : PeerEvent}
    (other : ∀ env lastBlock revents inbox outbox, e ≠ .ioCb env lastBlock revents inbox outbox) :
    ∃ more, Elsewhere cfg p e more := by
  have idle : (p.step cfg e).handler = p.handler → ∃ more, Elsewhere cfg p e more := by
    intro same
    exact ⟨[], by rw [same]; exact .refl _, by rw [same]; exact ⟨fun on => on, fun on => on⟩,
      Or.inl rfl⟩
  by_cases deleted : p.deleted = true
  · exact idle (by simp [step, deleted])
  cases e with
  | ioCb env lastBlock revents inbox outbox => exact absurd rfl (other _ _ _ _ _)
  | send m =>
      by_cases active : p.active = true
      · have result : p.step cfg (.send m) =
            { p with handler := p.handler.appendForWriteShared m } := by
          simp [step, deleted, active]
        refine ⟨[m.wire], ?_, ?_, Or.inr (Or.inr (Or.inr ⟨m, rfl, active⟩))⟩
        · rw [result]
          exact appendForWriteShared_adds ..
        · rw [result]
          exact appendedForWrite_noTimer ..
      · exact idle (by simp [step, active])
  | disconnect =>
      by_cases active : p.active = true
      · have result : p.step cfg .disconnect = { p with handler := p.handler.disconnect } := by
          simp [step, deleted, active]
        refine ⟨[], ⟨?_, ?_, ?_, ?_, ?_⟩, ?_, Or.inl rfl⟩
        all_goals rw [result]
        · simp [Handler.disconnect, Handler.suicide, Handler.gLogBitcoin, Handler.gLog, received]
        · simp [Handler.disconnect, Handler.suicide, Handler.gLogBitcoin, Handler.gLog,
            queuedWires, appended]
        · rfl
        · rfl
        · rfl
        · refine ⟨fun on => ?_, fun on => on⟩
          cases on
      · exact idle (by simp [step, active])
  | pinger due nonce =>
      by_cases running : p.handler.timer = true
      · have result : p.step cfg (.pinger due nonce) =
            { p with handler := p.handler.pingerCb cfg due nonce } := by
          simp [step, deleted, running]
        cases due with
        | true =>
            have adds := appendForWrite_adds p.handler
              (getMessage cfg (ascii ['p', 'i', 'n', 'g']) (le 8 nonce))
            have still := appendedForWrite_noTimer p.handler
              (getMessage cfg (ascii ['p', 'i', 'n', 'g']) (le 8 nonce)) (p.handler.writeQueue.append
                (getMessage cfg (ascii ['p', 'i', 'n', 'g']) (le 8 nonce)).wire)
            refine ⟨[(getMessage cfg (ascii ['p', 'i', 'n', 'g']) (le 8 nonce)).wire], ?_, ?_,
              Or.inr (Or.inl running)⟩
            · rw [result]
              exact ⟨adds.list, adds.queued, adds.recv, adds.reads, adds.sent⟩
            · rw [result]
              exact ⟨fun _ => running, still.activePing⟩
        | false =>
            refine ⟨[], ?_, ?_, Or.inl rfl⟩
            · rw [result]
              exact ⟨rfl, (List.append_nil _).symm, rfl, rfl, rfl⟩
            · rw [result]
              exact ⟨fun _ => running, fun on => on⟩
      · exact idle (by simp [step, running])
  | activePinger now =>
      by_cases running : p.handler.activePingTimer = true
      · have result : p.step cfg (.activePinger now) =
            { p with handler := p.handler.activePingerCb cfg now } := by
          simp [step, deleted, running]
        have adds := appendForWrite_adds p.handler
          (getMessage cfg (ascii ['a', 'd', 'd', 'r']) (Handler.addrPayload cfg now))
        have still := appendedForWrite_noTimer p.handler
          (getMessage cfg (ascii ['a', 'd', 'd', 'r']) (Handler.addrPayload cfg now))
          (p.handler.writeQueue.append
            (getMessage cfg (ascii ['a', 'd', 'd', 'r']) (Handler.addrPayload cfg now)).wire)
        refine ⟨[(getMessage cfg (ascii ['a', 'd', 'd', 'r']) (Handler.addrPayload cfg now)).wire],
          ?_, ?_, Or.inr (Or.inr (Or.inl running))⟩
        · rw [result]
          exact ⟨adds.list, adds.queued, adds.recv, adds.reads, adds.sent⟩
        · rw [result]
          exact ⟨still.timer, fun _ => running⟩
      · exact idle (by simp [step, running])
  | clearInactive =>
      refine idle ?_
      simp only [step]
      split
      · rfl
      · split <;> rfl

/-- Nothing has been handled while the version of the peer is awaited. -/
theorem received_of_waiting {h : Handler} (sound : Sound h)
    (state : replying (h.state &&& RECV_MASK) = true) : received h.log = [] := by
  have waits := of_decide_eq_true state
  cases sound.phase with
  | idle recv => rcases waits with here | here <;> exact absurd (recv.symm.trans here) (by decide)
  | header recv =>
      rcases recv with ⟨recv, -⟩ | ⟨-, first⟩
      · rcases waits with here | here <;> exact absurd (recv.symm.trans here) (by decide)
      · exact first
  | payload recv => rcases waits with here | here <;> exact absurd (recv.symm.trans here) (by decide)
  | version _ first => exact first

/-- A step is a callback on the socket, or it adds to the queue. -/
theorem step_parts (cfg : Config) (p : Peer) (e : PeerEvent) :
    (∃ env lastBlock revents inbox outbox, (p.step cfg e).handler = p.handler ∨
        (p.step cfg e).handler = (p.handler.ioCb cfg env lastBlock revents inbox outbox).1) ∨
      ∃ more, Elsewhere cfg p e more := by
  by_cases read : ∃ env lastBlock revents inbox outbox,
      e = .ioCb env lastBlock revents inbox outbox
  · obtain ⟨env, lastBlock, revents, inbox, outbox, rfl⟩ := read
    refine Or.inl ⟨env, lastBlock, revents, inbox, outbox, ?_⟩
    unfold step
    split
    · exact Or.inl rfl
    · exact Or.inr rfl
  · right
    exact step_elsewhere cfg p fun env lastBlock revents inbox outbox same =>
      read ⟨env, lastBlock, revents, inbox, outbox, same⟩

/-- A callback answers what it handles. -/
theorem step_answered (cfg : Config) {p : Peer} (sound : Sound p.handler) (e : PeerEvent) :
    (∃ env, Answered cfg env p.handler (p.step cfg e).handler) ∨
      ∃ more, Elsewhere cfg p e more := by
  rcases step_parts cfg p e with ⟨env, lastBlock, revents, inbox, outbox, same | same⟩ | elsewhere
  · exact Or.inl ⟨env, by rw [same]; exact .refl _⟩
  · exact Or.inl ⟨env, by
      rw [same]
      exact Handler.ioCb_answered cfg env sound lastBlock revents inbox outbox⟩
  · exact Or.inr elsewhere

/-- A step leaves nothing in the receive array that the handler wants. -/
theorem step_dry (cfg : Config) {p : Peer} (sound : Sound p.handler) (dry : Dry p.handler.readQueue)
    (e : PeerEvent) : Dry (p.step cfg e).handler.readQueue := by
  rcases step_parts cfg p e with
    ⟨env, lastBlock, revents, inbox, outbox, same⟩ | ⟨more, elsewhere⟩
  · rcases same with same | same
    · rw [same]
      exact dry
    · rw [same]
      refine Handler.ioCb_keeps (P := fun h => Dry h.readQueue) cfg env sound lastBlock revents
        inbox outbox dry ?_ ?_ ?_
      · exact fun _ r read hungry => (read.drained hungry).1
      · exact fun r sounder dry => (Handler.doWrite_wrote cfg sounder outbox).dry dry
      · exact fun w e dry => Handler.ioSet_dry e dry
  · rw [elsewhere.adds.reads]
    exact dry

/-- What has been written stays written. -/
theorem step_sent (cfg : Config) {p : Peer} (sound : Sound p.handler) (e : PeerEvent) :
    p.handler.sent <+: (p.step cfg e).handler.sent := by
  rcases step_parts cfg p e with
    ⟨env, lastBlock, revents, inbox, outbox, same⟩ | ⟨more, elsewhere⟩
  · rcases same with same | same
    · rw [same]
    · rw [same]
      exact Handler.ioCb_sent cfg env sound lastBlock revents inbox outbox
  · rw [elsewhere.adds.sent]

/-- What has been queued stays queued. -/
theorem step_queued (cfg : Config) {p : Peer} (sound : Sound p.handler) (e : PeerEvent) :
    queuedWires p.handler <+: queuedWires (p.step cfg e).handler := by
  rcases step_answered cfg sound e with ⟨env, answered⟩ | ⟨more, elsewhere⟩
  · rcases answered with ⟨frames, -, queued, -⟩ | ⟨first, rest, block, -, queued, -⟩
    · rw [queued]
      exact List.prefix_append ..
    · rw [queued]
      exact List.prefix_append ..
  · rw [elsewhere.adds.queued]
    exact List.prefix_append ..

theorem step_answering (cfg : Config) {p : Peer} (sound : Sound p.handler)
    (before : Answering cfg p.handler) (e : PeerEvent) :
    Answering cfg (p.step cfg e).handler := by
  rcases step_answered cfg sound e with ⟨env, answered⟩ | ⟨more, elsewhere⟩
  · exact answered.answering before
  · unfold Answering
    rw [elsewhere.adds.list, elsewhere.adds.queued]
    exact before.trans (List.sublist_append_left ..)

/-- How a handler that accepted its connection starts: it says nothing before it has read the
version of its peer, and then its own version and a verack. -/
inductive Opening (cfg : Config) (h : Handler) : Prop where
  | waiting (state : replying (h.state &&& RECV_MASK) = true) (silent : queuedWires h = [])
      (timer : h.timer = false) (activePing : h.activePingTimer = false)
  | spoken (awake : replying (h.state &&& RECV_MASK) = false) (first : List UInt8)
      (rest : List (List UInt8)) (env : VersionEnv) (lastBlock : Int)
      (more : List (List UInt8)) (list : received h.log = first :: rest)
      (queued : queuedWires h = answersTo cfg first ++
        [(versionMessage cfg env lastBlock h.remoteAddr cfg.external).wire,
          (verackMessage cfg).wire] ++ more)

theorem step_opening (cfg : Config) {p : Peer} (sound : Sound p.handler)
    (opening : Opening cfg p.handler) {e : PeerEvent} (polite : Polite p e) :
    Opening cfg (p.step cfg e).handler := by
  have remote := (step_ends cfg p e).remoteAddr
  rcases step_answered cfg sound e with ⟨env, answered⟩ | ⟨more, adds, noTimer, cause⟩
  · rcases opening with ⟨state, silent, timer, activePing⟩ |
        ⟨awake, first, rest, env', block', more', list', queued'⟩
    · rcases answered with ⟨frames, list, queued, same, waits, still⟩ |
          ⟨first, rest, block, list, queued, before, after⟩
      · have none_ := waits state
        have unstarted := still none_
        subst none_
        rw [silent, List.flatMap_nil, List.append_nil] at queued
        refine .waiting (same.trans state) queued ?_ ?_
        · exact Bool.eq_false_iff.2 fun on => Bool.eq_false_iff.1 timer (unstarted.timer on)
        · exact Bool.eq_false_iff.2 fun on =>
            Bool.eq_false_iff.1 activePing (unstarted.activePing on)
      · refine .spoken after first rest env block (rest.flatMap (answersTo cfg)) ?_ ?_
        · rw [list, received_of_waiting sound state, List.nil_append]
        · rw [queued, silent, List.nil_append, remote]
    · rcases answered with ⟨frames, list, queued, same, -, -⟩ | ⟨_, _, _, _, _, before, _⟩
      · refine .spoken (same.trans awake) first (rest ++ frames) env' block'
          (more' ++ frames.flatMap (answersTo cfg)) ?_ ?_
        · rw [list, list', List.cons_append]
        · rw [queued, queued', remote, List.append_assoc]
      · rw [awake] at before
        cases before
  · rcases opening with ⟨state, silent, timer, activePing⟩ |
        ⟨awake, first, rest, env', block', more', list', queued'⟩
    · have none_ : more = [] := by
        rcases cause with none_ | on | on | ⟨m, send, active⟩
        · exact none_
        · rw [timer] at on
          cases on
        · rw [activePing] at on
          cases on
        · have awake := (polite m send active).2
          rw [recv, state] at awake
          cases awake
      rw [none_] at adds
      refine .waiting (by rw [adds.recv]; exact state) (by rw [adds.queued, silent]; rfl) ?_ ?_
      · exact Bool.eq_false_iff.2 fun on => Bool.eq_false_iff.1 timer (noTimer.timer on)
      · exact Bool.eq_false_iff.2 fun on => Bool.eq_false_iff.1 activePing (noTimer.activePing on)
    · refine .spoken (by rw [adds.recv]; exact awake) first rest env' block' (more' ++ more)
        (adds.list.trans list') ?_
      rw [adds.queued, queued', remote, List.append_assoc]

end Peer

end Coinscope.Connector

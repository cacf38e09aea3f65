/-
# Connector.Completion -- the handshake can always be completed

Whatever two connectors have done, as long as both ends are still up seven callbacks bring them
behind the handshake: each end writes out what it has queued and reads what it was sent, until
the answers to the answers are through, which nobody answers.

* `Goes` -- one end goes on, by a callback, with nothing lost.
* `Good.write`, `Good.read` -- an end can write out everything, and read everything.
* `handshake_completes` -- from any moment of any run.
-/
import Coinscope.Connector.TwoConnectors

namespace Coinscope.Connector

open Coinscope.Shared
open Coinscope.Theory.Bytes
open Coinscope.Theory.Runs

set_option autoImplicit false

namespace Handler

/-- What a callback leaves that writes out everything and reads nothing. -/
structure WroteAll (h h' : Handler) : Prop where
  empty : h'.writeQueue.toWrite = 0
  fd : h'.io.fd = h.io.fd
  got : h'.got = h.got
  log : h'.log = h.log

theorem exists_write (cfg : Config) (env : VersionEnv) (lastBlock : Int) {h : Handler}
    (writes : h.writeQueue.Valid) (isOpen : 0 ≤ h.io.fd) :
    ∃ outbox, WroteAll h (h.ioCb cfg env lastBlock Events.WRITE [] outbox).1 := by
  obtain ⟨outbox, ret, done⟩ := WriteBuffer.exists_flush isOpen writes
  refine ⟨outbox, ?_⟩
  have live : ¬ h.io.fd = -1 := by omega
  have written : (h.ioCb cfg env lastBlock Events.WRITE [] outbox).1 =
      (h.doWrite cfg outbox).ioSet ⟨(h.doWrite cfg outbox).state &&& RECV_MASK ≠ 0,
        (h.doWrite cfg outbox).state &&& SEND_MASK ≠ 0⟩ := by
    simp [ioCb, live, Events.WRITE]
  have drained : h.doWrite cfg outbox = ({ h with
      writeQueue := (WriteBuffer.flush h.io.fd outbox h.writeQueue).queue
      sent := h.sent ++ (WriteBuffer.flush h.io.fd outbox h.writeQueue).put } : Handler).drained := by
    unfold doWrite
    generalize WriteBuffer.flush h.io.fd outbox h.writeQueue = s at ret done ⊢
    simp only [ret, done, if_true]
  rw [written]
  refine ⟨?_, ?_, ?_, ?_⟩
  · rw [(ioSet_sameWrites ..).writeQueue, drained, drained_frame]
    exact done
  · rw [(ioSet_sameReads ..).fd, drained, drained_frame]
  · rw [(ioSet_sameReads ..).got, drained, drained_frame]
  · rw [ioSet_log, drained, drained_frame]

/-- What a callback leaves that reads some bytes and writes nothing. -/
structure ReadAll (h h' : Handler) (bytes : List UInt8) : Prop where
  fd : h'.io.fd = h.io.fd
  busy : h'.state &&& RECV_MASK ≠ 0
  front : h'.got <+: h.got ++ bytes
  all : 0 < h'.readQueue.toRead → h'.got = h.got ++ bytes
  sent : h'.sent = h.sent

theorem read_oneByOne (cfg : Config) (env : VersionEnv) (lastBlock : Int) {h : Handler}
    (sound : Sound h) (isOpen : 0 ≤ h.io.fd) (busy : h.state &&& RECV_MASK ≠ 0)
    (bytes : List UInt8) :
    ReadAll h (h.ioCb cfg env lastBlock Events.READ (oneByOne bytes) []).1 bytes := by
  have live : ¬ h.io.fd = -1 := by omega
  have result : (h.ioCb cfg env lastBlock Events.READ (oneByOne bytes) []).1 =
      (h.doRead cfg env lastBlock (oneByOne bytes)).1.ioSet
        ⟨(h.doRead cfg env lastBlock (oneByOne bytes)).1.state &&& RECV_MASK ≠ 0,
          (h.doRead cfg env lastBlock (oneByOne bytes)).1.state &&& SEND_MASK ≠ 0⟩ := by
    simp [ioCb, live, busy, Events.READ]
  have reading := doRead_reading cfg env lastBlock (oneByOne bytes) sound
  have read := reading.read sound busy
  have taken : stream (leading (oneByOne bytes)) = bytes := by
    rw [leading_oneByOne, stream_oneByOne]
  have kept : (h.doRead cfg env lastBlock (oneByOne bytes)).1.io.fd = h.io.fd := by
    rcases reading.outcome sound with ⟨talks, -⟩ | ⟨_, _, _, _, _, _, ends, _⟩
    · exact talks.fd
    · rw [hangsUp_oneByOne] at ends
      cases ends
  have same := ioSet_sameReads (h.doRead cfg env lastBlock (oneByOne bytes)).1
    ⟨(h.doRead cfg env lastBlock (oneByOne bytes)).1.state &&& RECV_MASK ≠ 0,
      (h.doRead cfg env lastBlock (oneByOne bytes)).1.state &&& SEND_MASK ≠ 0⟩
  rw [result]
  refine ⟨same.fd.trans kept, ?_, ?_, ?_, ?_⟩
  · rw [same.recv]
    exact read.busy
  · have front := read.got
    rw [taken] at front
    rw [same.got]
    exact front
  · rw [same.readQueue, same.got]
    intro wants
    rw [(read.drained wants).2, taken]
  · rw [(ioSet_sameWrites ..).sent]
    exact reading.sent sound

end Handler

/-- A callback on the socket. -/
def PeerEvent.OnSocket : PeerEvent → Prop
  | .ioCb .. => True
  | .send _ => False
  | .disconnect => False
  | .pinger .. => False
  | .activePinger _ => False
  | .clearInactive => False

/-! ## Answers to answers -/

/-- What an end queues for what it handles is answered by nobody. -/
theorem Answered.unanswered {cfg : Config} {env : VersionEnv} {h h' : Handler}
    (answered : Answered cfg env h h') (cfg' : Config) :
    ∃ more, queuedWires h' = queuedWires h ++ more ∧ more.flatMap (answersTo cfg') = [] := by
  have silent : ∀ frames : List (List UInt8),
      (frames.flatMap (answersTo cfg)).flatMap (answersTo cfg') = [] := by
    intro frames
    rw [List.flatMap_eq_nil_iff]
    intro answer member
    obtain ⟨frame, -, member⟩ := List.mem_flatMap.1 member
    exact answersTo_answer cfg cfg' frame answer member
  rcases answered with ⟨frames, -, queued, -⟩ | ⟨first, rest, block, -, queued, -⟩
  · exact ⟨_, queued, silent frames⟩
  · refine ⟨_, queued, ?_⟩
    have version : answersTo cfg' (versionMessage cfg env block h.remoteAddr cfg.external).wire =
        [] := answersTo_getMessage cfg cfg' 'v' _ _ (by decide) (by decide)
    have verack : answersTo cfg' (verackMessage cfg).wire = [] :=
      answersTo_getMessage cfg cfg' 'v' _ _ (by decide) (by decide)
    have first' := silent [first]
    rw [List.flatMap_singleton] at first'
    simp [List.flatMap_append, first', version, verack, silent rest]

/-- An end that has handled something before, and handles what nobody answers, queues
nothing. -/
theorem Answered.idle {cfg : Config} {env : VersionEnv} {h h' : Handler} (sound : Sound h)
    (answered : Answered cfg env h h') (before : received h.log ≠ []) {more : List (List UInt8)}
    (list : received h'.log = received h.log ++ more)
    (silent : more.flatMap (answersTo cfg) = []) : queuedWires h' = queuedWires h := by
  rcases answered with ⟨frames, list', queued, -⟩ | ⟨_, _, _, _, _, waiting, _⟩
  · have same : frames = more := List.append_cancel_left (list'.symm.trans list)
    rw [queued, same, silent, List.append_nil]
  · exact absurd (Peer.received_of_waiting sound waiting) before

/-- Nothing is left to write of a queue that did not grow. -/
theorem written_of_same {h h' : Handler} (sending : Sending h) (sending' : Sending h')
    (empty : h.writeQueue.toWrite = 0) (queued : queuedWires h' = queuedWires h)
    (sent : h'.sent = h.sent) : h'.writeQueue.toWrite = 0 := by
  have before := sending.queued
  have after := sending'.queued
  rw [sending.writes.toWrite_eq_zero.1 empty, List.append_nil, wires_eq] at before
  rw [sent, wires_eq, queued, ← before] at after
  exact sending'.writes.toWrite_eq_zero.2 (List.append_right_eq_self.1 after)

namespace Connection

/-! ## One callback -/

/-- Both ends have their descriptor. -/
def Up (s : Connection) : Prop := ∀ o, (s o).active = true

theorem up_iff {p : Peer} : p.active = true ↔ p.deleted = false ∧ 0 ≤ p.handler.io.fd := by
  simp [Peer.active]

/-- One end has had a callback, and both are still up. -/
structure Goes (cfg : Peer.Origin → Config) (s : Connection) (o : Peer.Origin) (s' : Connection) :
    Prop where
  event : ∃ e : PeerEvent, e.OnSocket ∧ Admitted cfg s (o, e) ∧ s' = step cfg s (o, e)
  up : s'.Up
  other : s' o.other = s o.other
  good : Good cfg s'

/-- Some callbacks later. -/
def Reaches (cfg : Peer.Origin → Config) (n : Nat) (s s' : Connection) : Prop :=
  ∃ events : List (Peer.Origin × PeerEvent), events.length = n ∧ (∀ e ∈ events, e.2.OnSocket) ∧
    Along (step cfg) (Admitted cfg) s events ∧ s' = run (step cfg) s events

section Both

variable {cfg : Peer.Origin → Config} {s s' s'' : Connection}

theorem Reaches.refl (cfg : Peer.Origin → Config) (s : Connection) : Reaches cfg 0 s s :=
  ⟨[], rfl, (fun _ member => by cases member), trivial, rfl⟩

theorem Goes.reaches {o : Peer.Origin} {n : Nat} (goes : Goes cfg s o s')
    (later : Reaches cfg n s' s'') : Reaches cfg (n + 1) s s'' := by
  obtain ⟨e, onSocket, admitted, rfl⟩ := goes.event
  obtain ⟨events, length, all, along, rfl⟩ := later
  refine ⟨(o, e) :: events, by rw [List.length_cons, length], ?_, ⟨admitted, along⟩, rfl⟩
  intro e' member
  rcases List.mem_cons.1 member with rfl | later
  · exact onSocket
  · exact all e' later

variable (cfg) in
theorem step_other (s : Connection) (o : Peer.Origin) (e : PeerEvent) :
    step cfg s (o, e) o.other = s o.other := if_neg (Peer.Origin.other_ne o)

variable (cfg) in
/-- A callback of an end, as it changes its handler. -/
theorem step_ioCb (up : s.Up) (o : Peer.Origin) (env : VersionEnv) (lastBlock : Int)
    (revents : Events) (inbox : List RecvResult) (outbox : List WriteResult) :
    step cfg s (o, .ioCb env lastBlock revents inbox outbox) o = { s o with
      handler := ((s o).handler.ioCb (cfg o) env lastBlock revents inbox outbox).1 } := by
  have there := (up_iff.1 (up o)).1
  rw [step, if_pos rfl, Peer.step, if_neg (by rw [there]; decide)]

/-- A callback that keeps the descriptor and reads no more than was written. -/
theorem goes_of_callback (good : Good cfg s) (up : s.Up) {o : Peer.Origin} {env : VersionEnv}
    {lastBlock : Int} {revents : Events} {inbox : List RecvResult} {outbox : List WriteResult}
    (fd : ((s o).handler.ioCb (cfg o) env lastBlock revents inbox outbox).1.io.fd =
      (s o).handler.io.fd)
    (got : ((s o).handler.ioCb (cfg o) env lastBlock revents inbox outbox).1.got <+:
      (s o.other).handler.sent) :
    Goes cfg s o (step cfg s (o, .ioCb env lastBlock revents inbox outbox)) := by
  have here := step_ioCb cfg up o env lastBlock revents inbox outbox
  have other := step_other cfg s o (.ioCb env lastBlock revents inbox outbox)
  have admitted : Admitted cfg s (o, .ioCb env lastBlock revents inbox outbox) := by
    refine ⟨?_, fun m no => by cases no⟩
    rw [Carried, other]
    show (step cfg s (o, .ioCb env lastBlock revents inbox outbox) o).handler.got <+: _
    rw [here]
    exact got
  have onSocket : (PeerEvent.ioCb env lastBlock revents inbox outbox).OnSocket := trivial
  refine ⟨⟨_, onSocket, admitted, rfl⟩, ?_, other, step_good good admitted⟩
  intro o'
  rcases Peer.Origin.eq_or_eq_other o' o with rfl | rfl
  · rw [here, up_iff]
    exact ⟨(up_iff.1 (up o')).1, by rw [fd]; exact (up_iff.1 (up o')).2⟩
  · rw [other]
    exact up o.other

/-- An end writes out all it has queued. -/
theorem Good.write (good : Good cfg s) (up : s.Up) (o : Peer.Origin) :
    ∃ s', Goes cfg s o s' ∧ Handler.WroteAll (s o).handler (s' o).handler := by
  obtain ⟨outbox, wrote⟩ := Handler.exists_write (cfg o) someEnv 0
    (good.fine o).sound.writes (up_iff.1 (up o)).2
  have goes := goes_of_callback good up wrote.fd (by rw [wrote.got]; exact good.carried o)
  refine ⟨_, goes, ?_⟩
  rw [step_ioCb cfg up]
  exact wrote

/-- What an end has that read everything it was sent. -/
structure Took (cfg : Config) (p p' : Peer) (sent : List UInt8) : Prop where
  got : p'.handler.got = sent
  sent : p'.handler.sent = p.handler.sent
  wants : 0 < p'.handler.readQueue.toRead
  answered : ∃ env, Answered cfg env p.handler p'.handler

/-- An end that has written everything reads all it was sent. -/
theorem Good.read (good : Good cfg s) (fits : ∀ o, versionSize (cfg o) < 2 ^ 32) (up : s.Up)
    {o : Peer.Origin} (empty : (s o).handler.writeQueue.toWrite = 0) :
    ∃ s', Goes cfg s o s' ∧ Took (cfg o) (s o) (s' o) (s o.other).handler.sent := by
  obtain ⟨bytes, whole⟩ := good.carried o
  have sound := (good.fine o).sound
  have read := Handler.read_oneByOne (cfg o) someEnv 0 sound (up_iff.1 (up o)).2
    (good.hungry fits empty).1 bytes
  have goes := goes_of_callback good up read.fd (by rw [← whole]; exact read.front)
  have here := step_ioCb cfg up o someEnv 0 Events.READ (oneByOne bytes) []
  refine ⟨_, goes, ?_⟩
  have later := goes.good
  have wants := (later.fine o).sound.wants_iff (by rw [here]; exact read.busy) (later.fine o).dry
  have more := wants.2 (later.announced fits o)
  rw [here] at more ⊢
  exact ⟨(read.all more).trans whole, read.sent, more,
    ⟨someEnv, Handler.ioCb_answered (cfg o) someEnv sound 0 Events.READ (oneByOne bytes) []⟩⟩

/-! ## Seven callbacks -/

/-- Both ends write, the one that accepted reads and writes, the other reads and writes, and
the first reads again. -/
theorem Good.completes (good : Good cfg s) (fits : ∀ o, versionSize (cfg o) < 2 ^ 32) (up : s.Up) :
    ∃ s', Reaches cfg 7 s s' ∧ s'.Up ∧ s'.Quiet ∧ s'.Settled cfg := by
  obtain ⟨s₁, goes₁, wrote₁⟩ := good.write up .connected
  obtain ⟨s₂, goes₂, wrote₂⟩ := goes₁.good.write goes₁.up .accepted
  obtain ⟨s₃, goes₃, took₃⟩ := goes₂.good.read fits goes₂.up wrote₂.empty
  obtain ⟨s₄, goes₄, wrote₄⟩ := goes₃.good.write goes₃.up .accepted
  have c₂ : s₂ .connected = s₁ .connected := goes₂.other
  have c₃ : s₃ .connected = s₁ .connected := (goes₃.other : s₃ .connected = _).trans c₂
  have c₄ : s₄ .connected = s₁ .connected := (goes₄.other : s₄ .connected = _).trans c₃
  have written₄ : (s₄ .connected).handler.writeQueue.toWrite = 0 := by
    rw [c₄]
    exact wrote₁.empty
  obtain ⟨s₅, goes₅, took₅⟩ := goes₄.good.read fits goes₄.up written₄
  obtain ⟨s₆, goes₆, wrote₆⟩ := goes₅.good.write goes₅.up .connected
  have a₅ : s₅ .accepted = s₄ .accepted := goes₅.other
  have a₆ : s₆ .accepted = s₄ .accepted := (goes₆.other : s₆ .accepted = _).trans a₅
  have written₆ : (s₆ .accepted).handler.writeQueue.toWrite = 0 := by
    rw [a₆]
    exact wrote₄.empty
  obtain ⟨s₇, goes₇, took₇⟩ := goes₆.good.read fits goes₆.up written₆
  have c₇ : s₇ .connected = s₆ .connected := goes₇.other
  -- what the end that accepted had handled when it wrote for the last time
  have sent₃ : (s₂ .connected).handler.sent = (s₃ .connected).handler.sent := by rw [c₂, c₃]
  have handled₆ : received (s₆ .accepted).handler.log = queuedWires (s₄ .connected).handler := by
    have all := (goes₃.good.taken took₃.wants
      (show (s₃ .connected).handler.writeQueue.toWrite = 0 by rw [c₃]; exact wrote₁.empty)
      (took₃.got.trans sent₃)).1
    rw [a₆, wrote₄.log, all, c₄]
    exact congrArg (fun p => queuedWires p.handler) c₃
  have before : received (s₆ .accepted).handler.log ≠ [] := by
    obtain ⟨_, _, _, _, starts⟩ := (goes₄.good.fine .connected).starts
    rw [handled₆, starts]
    exact List.cons_ne_nil _ _
  -- the last it reads are answers
  obtain ⟨env₅, answered₅⟩ := took₅.answered
  obtain ⟨more, queued₅, silent⟩ := answered₅.unanswered (cfg .accepted)
  have queued₇ : queuedWires (s₇ .connected).handler = queuedWires (s₄ .connected).handler ++ more := by
    rw [c₇, ← queued₅]
    exact congrArg (List.map PackedMessage.wire) (congrArg appended wrote₆.log)
  have written₇ : (s₇ .connected).handler.writeQueue.toWrite = 0 := by
    rw [c₇]
    exact wrote₆.empty
  have sent₇ : (s₆ .connected).handler.sent = (s₇ .connected).handler.sent := by rw [c₇]
  have handled₇ := (goes₇.good.taken took₇.wants written₇ (took₇.got.trans sent₇)).1
  obtain ⟨env₇, answered₇⟩ := took₇.answered
  have idle : queuedWires (s₇ .accepted).handler = queuedWires (s₆ .accepted).handler :=
    answered₇.idle (goes₆.good.fine .accepted).sound before
      (handled₇.trans (by rw [handled₆]; exact queued₇)) silent
  have quiet : s₇.Quiet := by
    intro o
    cases o with
    | connected =>
        refine ⟨?_, written₇⟩
        have got : (s₇ .connected).handler.got = (s₄ .accepted).handler.sent := by
          rw [c₇, wrote₆.got]
          exact took₅.got
        rw [got]
        exact ((congrArg (fun p => p.handler.sent) a₆).symm.trans took₇.sent.symm)
    | accepted =>
        refine ⟨took₇.got.trans sent₇, ?_⟩
        exact written_of_same (goes₆.good.fine .accepted).outgoing.sending
          (goes₇.good.fine .accepted).outgoing.sending written₆ idle took₇.sent
  have reaches := goes₁.reaches (goes₂.reaches (goes₃.reaches (goes₄.reaches (goes₅.reaches
    (goes₆.reaches (goes₇.reaches (Reaches.refl cfg s₇)))))))
  exact ⟨s₇, reaches, goes₇.up, quiet, goes₇.good.settled fits quiet⟩

end Both

end Connection

/-- From any moment of any run of two connectors on one connection at which both ends are up,
seven callbacks on their sockets take the two behind the handshake, with nothing left on the
way. -/
theorem handshake_completes (cfg : Peer.Origin → Config) (env : Peer.Origin → VersionEnv)
    (lastBlock : Peer.Origin → Int) (fd : Peer.Origin → Nat) (isOpen : ∀ o, 0 < fd o)
    (remote localAddr : Peer.Origin → SockaddrStorage) (id : Peer.Origin → UInt32)
    (fits : ∀ o, versionSize (cfg o) < 2 ^ 32) (events : List (Peer.Origin × PeerEvent))
    (s : Connection)
    (reached : s = run (Connection.step cfg)
      (Connection.start cfg env lastBlock fd remote localAddr id) events)
    (admitted : Along (Connection.step cfg) (Connection.Admitted cfg)
      (Connection.start cfg env lastBlock fd remote localAddr id) events) (up : s.Up) :
    ∃ later : List (Peer.Origin × PeerEvent), later.length = 7 ∧ (∀ e ∈ later, e.2.OnSocket) ∧
      Along (Connection.step cfg) (Connection.Admitted cfg) s later ∧
      (run (Connection.step cfg) s later).Up ∧ (run (Connection.step cfg) s later).Quiet ∧
      (run (Connection.step cfg) s later).Settled cfg := by
  have good : Connection.Good cfg s := by
    rw [reached]
    exact Connection.run_good
      (Connection.start_good cfg env lastBlock isOpen remote localAddr id) admitted
  obtain ⟨s', ⟨later, seven, onSocket, along, rfl⟩, up', quiet, settled⟩ := good.completes fits up
  exact ⟨later, seven, onSocket, along, up', quiet, settled⟩

/-- The end that accepted has read the version and written 60 bytes of its own, and its timer
has queued a ping behind the verack. -/
def someHalfway : List (Peer.Origin × PeerEvent) :=
  [(.connected, .ioCb someEnv 0 Events.WRITE [] [.accept 500]),
   (.accepted, .ioCb someEnv 0 Events.READ [.data someVersionFront] []),
   (.accepted, .ioCb someEnv 0 ⟨true, true⟩ [.data someVersionRest] [.accept 60]),
   (.accepted, .pinger true 7)]

/-- Where the two are then. -/
def someHalfwayConnection : Connection :=
  run (Connection.step fun _ => someConfig) someConnection someHalfway

/-- With a part of the version on the way, and the rest of it, the verack and the ping in the
queue. -/
theorem handshake_completes_halfway :
    ((someHalfwayConnection .accepted).handler.sent.length = 60 ∧
      (someHalfwayConnection .accepted).handler.writeQueue.toWrite = 109 ∧
      (someHalfwayConnection .connected).handler.got = []) ∧
    ∃ later : List (Peer.Origin × PeerEvent), later.length = 7 ∧ (∀ e ∈ later, e.2.OnSocket) ∧
      Along (Connection.step fun _ => someConfig) (Connection.Admitted fun _ => someConfig)
        someHalfwayConnection later ∧
      (run (Connection.step fun _ => someConfig) someHalfwayConnection later).Up ∧
      (run (Connection.step fun _ => someConfig) someHalfwayConnection later).Quiet ∧
      (run (Connection.step fun _ => someConfig) someHalfwayConnection later).Settled
        fun _ => someConfig := by
  refine ⟨⟨by decide +kernel, by decide +kernel, by decide +kernel⟩, ?_⟩
  refine handshake_completes (fun _ => someConfig) (fun _ => someEnv) (fun _ => 0) (fun _ => 5)
    (fun _ => by decide) (fun _ => someAddr) (fun _ => someAddr) (fun _ => 3)
    (fun _ => by decide +kernel) someHalfway someHalfwayConnection rfl ?_ ?_
  · refine ⟨⟨?_, fun _ no => by cases no⟩, ⟨?_, fun _ no => by cases no⟩,
      ⟨?_, fun _ no => by cases no⟩, ⟨?_, fun _ no => by cases no⟩, trivial⟩
    all_goals
      unfold Connection.Carried
      decide +kernel
  · intro o
    cases o with
    | connected => decide +kernel
    | accepted => decide +kernel

end Coinscope.Connector

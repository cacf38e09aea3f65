/-
# Connector.Handshake -- peers that are not heard

Two promises about the connection while versions are exchanged, and where the code
breaks them.

A handler that connected first writes its version and reads nothing; when the
version is out, `do_write` starts reading.  It recognises that moment by comparing
the whole send half of the state with `SEND_VERSION_INIT`, so a message appended
before the version is out hides it: the send half is cleared and nothing is ever
read (`abandoned_by_early_message`).  Without such a message no peer is abandoned
(`never_abandoned`).

A handler waiting for the peer's version asks for the announced length without
looking for zero, so an empty version leaves it asking for nothing
(`wedged_by_empty_version`); `do_read` returns hungry exactly if the first header
does not announce an empty message (`hungry_iff`).
-/
import Coinscope.Connector.Receiving

namespace Coinscope.Connector

open Coinscope.Shared
open Coinscope.Theory.Bytes
open Coinscope.Theory.Runs

set_option autoImplicit false

/-! ## Nobody is abandoned -/

/-- Our version is on its way out, nothing else queued and no timer running, or the
peer is being read. -/
def Heard (h : Handler) : Prop :=
  (h.state = SEND_VERSION_INIT ∧ 0 < h.writeQueue.toWrite ∧ h.timer = false ∧
    h.activePingTimer = false) ∨ h.state &&& RECV_MASK ≠ 0

namespace Handler

theorem doWrite_heard (cfg : Config) {h : Handler} (sound : Sound h) (heard : Heard h)
    (outbox : List WriteResult) : Heard (h.doWrite cfg outbox) := by
  have flushed := flushed_sound sound outbox
  have ended := (WriteBuffer.flush_flushed h.io.fd outbox sound.writes).ended
  unfold doWrite
  generalize WriteBuffer.flush h.io.fd outbox h.writeQueue = s at *
  -- what is left when nothing went wrong
  have done : Heard (if s.queue.toWrite = 0 then
      ({ h with writeQueue := s.queue, sent := h.sent ++ s.put } : Handler).drained
      else { h with writeQueue := s.queue, sent := h.sent ++ s.put }) := by
    split
    · right
      rcases drained_cases flushed with ⟨-, result⟩ | ⟨other, result⟩
      · rw [result]
        show RECV_VERSION_INIT_HDR &&& RECV_MASK ≠ 0
        decide
      · rw [result]
        show (h.state &&& RECV_MASK) &&& RECV_MASK ≠ 0
        rw [recv_recv]
        rcases heard with ⟨state, -⟩ | busy
        · have only : h.state &&& SEND_MASK = SEND_VERSION_INIT := by rw [state]; decide
          exact absurd only other
        · exact busy
    · rename_i more
      rcases heard with ⟨state, -, timers⟩ | busy
      · exact Or.inl ⟨state, Nat.pos_of_ne_zero more, timers⟩
      · exact Or.inr busy
  have killed : ∀ e, s.ret = .fail e → Heard (({ h with
      writeQueue := s.queue, sent := h.sent ++ s.put } : Handler).gLogBitcoin WRITE_DISCONNECT
        (cfg.strerror e ++ [0])).suicide := by
    intro e ret
    rcases heard with ⟨state, -, -, active⟩ | busy
    · rcases ended with ⟨fine, -⟩ | ⟨more, -⟩
      · rw [ret] at fine
        cases fine
      · exact Or.inl ⟨state, more, rfl, active⟩
    · exact Or.inr busy
  simp only
  split
  · exact done
  · exact done
  · rename_i e _ _ ret
    exact killed e ret
  · exact done

theorem ioCb_heard (cfg : Config) (env : VersionEnv) {h : Handler} (sound : Sound h)
    (heard : Heard h) (lastBlock : Int) (revents : Events) (inbox : List RecvResult)
    (outbox : List WriteResult) : Heard (h.ioCb cfg env lastBlock revents inbox outbox).1 := by
  refine ioCb_keeps cfg env sound lastBlock revents inbox outbox heard ?_ ?_ ?_
  · intro _ r read
    exact Or.inr read.busy
  · intro r sound heard
    exact doWrite_heard cfg sound heard outbox
  · intro w e here
    unfold ioSet
    split <;> exact here

end Handler

/-- Steps in which no command appends to a handler whose version is not out yet. -/
def VersionFirst (p : Peer) (e : PeerEvent) : Prop :=
  ∀ m, e = .send m → p.active = true → p.handler.state &&& SEND_VERSION_INIT = 0

/-- An append leaves a peer that is read as it is. -/
theorem heard_of_sameReads {h h' : Handler} (busy : h.state &&& RECV_MASK ≠ 0)
    (same : SameReads h h') : Heard h' := Or.inr (by rw [same.recv]; exact busy)

namespace Peer

theorem new_heard (cfg : Config) (env : VersionEnv) (lastBlock : Int) (fd : Nat) (origin : Origin)
    (remote localAddr : SockaddrStorage) (id : UInt32) :
    Heard (new cfg env lastBlock fd origin remote localAddr id).handler := by
  cases origin with
  | connected =>
      refine Or.inl ⟨rfl, ?_, rfl, rfl⟩
      show 0 < 0 + (PackedMessage.wire _).length
      rw [Nat.zero_add]
      exact PackedMessage.wire_pos _
  | accepted =>
      right
      show RECV_VERSION_REPLY_HDR &&& RECV_MASK ≠ 0
      decide

theorem step_heard (cfg : Config) {p : Peer} (sound : Sound p.handler) (heard : Heard p.handler)
    {e : PeerEvent} (ok : VersionFirst p e) : Heard (p.step cfg e).handler := by
  -- a running timer means that the peer has been heard already
  have timed : p.handler.timer = true ∨ p.handler.activePingTimer = true →
      p.handler.state &&& RECV_MASK ≠ 0 := by
    intro running
    rcases heard with ⟨-, -, off, activeOff⟩ | busy
    · rcases running with on | on
      · rw [off] at on; cases on
      · rw [activeOff] at on; cases on
    · exact busy
  unfold step
  split
  · exact heard
  · cases e with
    | ioCb env lastBlock revents inbox outbox =>
        exact Handler.ioCb_heard cfg env sound heard lastBlock revents inbox outbox
    | send m =>
        simp only
        split
        · rename_i active
          have out := ok m rfl active
          rcases heard with ⟨state, -⟩ | busy
          · rw [state] at out
            exact absurd out (by decide)
          · exact heard_of_sameReads busy (Handler.appendForWriteShared_sameReads ..)
        · exact heard
    | disconnect =>
        simp only
        split
        · rcases heard with ⟨state, more, -, off⟩ | busy
          · exact Or.inl ⟨state, more, rfl, off⟩
          · exact Or.inr busy
        · exact heard
    | pinger due nonce =>
        simp only
        split
        · rename_i on
          exact heard_of_sameReads (timed (Or.inl on)) (Handler.pingerCb_sameReads ..)
        · exact heard
    | activePinger now =>
        simp only
        split
        · rename_i on
          exact heard_of_sameReads (timed (Or.inr on)) (Handler.activePingerCb_sameReads ..)
        · exact heard
    | clearInactive =>
        simp only
        split <;> exact heard

end Peer

/-- In every run in which no command appends to a handler before its version is
out, an active handler is writing its version or reading from its peer. -/
theorem never_abandoned (cfg : Config) (env : VersionEnv) (lastBlock : Int) (fd : Nat)
    (isOpen : 0 < fd) (origin : Peer.Origin) (remote localAddr : SockaddrStorage) (id : UInt32)
    (events : List PeerEvent)
    (ok : Along (Peer.step cfg) VersionFirst
      (Peer.new cfg env lastBlock fd origin remote localAddr id) events) :
    ((run (Peer.step cfg) (Peer.new cfg env lastBlock fd origin remote localAddr id)
        events).handler.state &&& SEND_VERSION_INIT ≠ 0 ∧
      0 < (run (Peer.step cfg) (Peer.new cfg env lastBlock fd origin remote localAddr id)
        events).handler.writeQueue.toWrite) ∨
    (run (Peer.step cfg) (Peer.new cfg env lastBlock fd origin remote localAddr id)
      events).handler.state &&& RECV_MASK ≠ 0 := by
  have kept := run_invariant (P := fun p : Peer => Sound p.handler ∧ Heard p.handler)
    (fun p e here admitted =>
      ⟨Peer.step_sound cfg here.1 e, Peer.step_heard cfg here.1 here.2 admitted⟩)
    ⟨Peer.new_sound cfg env lastBlock isOpen origin remote localAddr id,
      Peer.new_heard cfg env lastBlock fd origin remote localAddr id⟩ ok
  rcases kept.2 with ⟨state, more, -⟩ | busy
  · left
    rw [state]
    exact ⟨by decide, more⟩
  · exact Or.inr busy

/-- Our version goes out in two writes and the peer is read. -/
theorem never_abandoned_two_writes :
    (run (Peer.step someConfig) (Peer.new someConfig someEnv 0 5 .connected someAddr someAddr 0)
        [.ioCb someEnv 0 Events.WRITE [] [.accept 50, .err .eagain],
         .ioCb someEnv 0 Events.WRITE [] [.accept 500]]).handler.state &&& RECV_MASK ≠ 0 := by
  have heard := never_abandoned someConfig someEnv 0 5 (by decide) .connected someAddr someAddr 0
    [.ioCb someEnv 0 Events.WRITE [] [.accept 50, .err .eagain],
     .ioCb someEnv 0 Events.WRITE [] [.accept 500]]
    ⟨fun _ other => (by cases other), fun _ other => (by cases other), trivial⟩
  exact heard.resolve_left (by decide +kernel)

/-- A message sent before the version is out: the peer is connected, nothing is left
to write, and neither half of the state has a flag. -/
theorem abandoned_by_early_message :
    (run (Peer.step someConfig) (Peer.new someConfig someEnv 0 5 .connected someAddr someAddr 0)
        [.send someVerack,
         .ioCb someEnv 0 Events.WRITE [] [.accept 500, .accept 500]]).active = true ∧
      (run (Peer.step someConfig) (Peer.new someConfig someEnv 0 5 .connected someAddr someAddr 0)
        [.send someVerack,
         .ioCb someEnv 0 Events.WRITE [] [.accept 500, .accept 500]]).handler.state = 0 := by
  decide +kernel

/-! ## Nobody is wedged -/

/-- The first frame handled has a payload, so the bytes received start with a header
that announces one. -/
theorem Sound.announced {h : Handler} (sound : Sound h) (later : received h.log ≠ []) :
    packedLength h.got ≠ 0 := by
  obtain ⟨f, rest, list⟩ := List.exists_cons_of_ne_nil later
  have long := (sound.complete f (by rw [list]; exact List.mem_cons_self)).1
  rw [sound.whole, list, List.flatten_cons, List.append_assoc, List.append_assoc,
    packedLength_append long]
  exact sound.nonzero f (by rw [list]; rfl)

/-- The first 24 bytes of a peer announce an empty message. -/
def EmptyVersion (bytes : List UInt8) : Prop :=
  packedSize ≤ bytes.length ∧ packedLength bytes = 0

instance (bytes : List UInt8) : Decidable (EmptyVersion bytes) :=
  inferInstanceAs (Decidable (_ ∧ _))

theorem EmptyVersion.append {bytes : List UInt8} (empty : EmptyVersion bytes) (more : List UInt8) :
    EmptyVersion (bytes ++ more) := by
  constructor
  · rw [List.length_append]
    exact Nat.le_add_right_of_le empty.1
  · rw [packedLength_append empty.1]
    exact empty.2

/-- A handler that is read and has used up its receive array wants bytes, unless its
peer started with an empty version. -/
theorem Sound.wants_iff {h : Handler} (sound : Sound h) (busy : h.state &&& RECV_MASK ≠ 0)
    (dry : 0 < h.readQueue.toRead → h.readQueue.unread = []) :
    0 < h.readQueue.toRead ↔ ¬ EmptyVersion h.got := by
  have whole := sound.whole
  cases sound.phase with
  | idle state => exact absurd state busy
  | header state hungry count =>
      refine ⟨fun _ => ?_, fun _ => hungry⟩
      rintro ⟨long, empty⟩
      rcases state with ⟨-, later⟩ | ⟨-, first⟩
      · exact sound.announced later empty
      · rw [whole, first, dry hungry] at long
        simp at long
        omega
  | payload state later there count hungry =>
      refine ⟨fun _ => ?_, fun _ => hungry⟩
      rintro ⟨-, empty⟩
      exact sound.announced later empty
  | version state first there count stuck =>
      have same : packedLength h.got = packedLength h.readQueue.held := by
        rw [whole, first, List.flatten_nil, List.nil_append, packedLength_append there]
      have long : packedSize ≤ h.got.length := by
        rw [whole, first, List.flatten_nil, List.nil_append, List.length_append]
        omega
      rw [EmptyVersion, same]
      constructor
      · intro hungry
        rintro ⟨-, empty⟩
        omega
      · intro announced
        rcases stuck with hungry | empty
        · exact hungry
        · exact absurd ⟨long, empty⟩ announced

/-- Whether the queue is hungry at the end of `do_read` is decided by what the kernel
has for it, and by what it had before. -/
theorem Handler.Read.wants_iff {h h' : Handler} {inbox : List RecvResult} (read : Read h h' inbox) :
    0 < h'.readQueue.toRead ↔ ¬ EmptyVersion (h.got ++ stream (leading inbox)) := by
  have wants := read.sound.wants_iff read.busy fun hungry => (read.drained hungry).1
  constructor
  · intro hungry
    rw [← (read.drained hungry).2]
    exact wants.1 hungry
  · intro announced
    refine wants.2 fun empty => announced ?_
    obtain ⟨more, total⟩ := read.got
    rw [← total]
    exact empty.append more

/-- Take any handler of any run that is being read, and any answers `recv` has for it.
When `do_read` returns, the read queue is hungry if and only if the bytes received from
this peer so far, followed by those `recv` has now, do not start with a header that
announces an empty message. -/
theorem hungry_iff (cfg : Config) (env : VersionEnv) (lastBlock : Int) (fd : Nat)
    (isOpen : 0 < fd) (origin : Peer.Origin) (remote localAddr : SockaddrStorage) (id : UInt32)
    (events : List PeerEvent) {h : Handler}
    (reached : h = (run (Peer.step cfg)
      (Peer.new cfg env lastBlock fd origin remote localAddr id) events).handler)
    (busy : h.state &&& RECV_MASK ≠ 0) (now : VersionEnv) (block : Int)
    (inbox : List RecvResult) :
    (h.doRead cfg now block inbox).1.readQueue.hungry = true ↔
      ¬ EmptyVersion (h.got ++ stream (leading inbox)) := by
  have sound := Peer.run_sound cfg
    (Peer.new_sound cfg env lastBlock isOpen origin remote localAddr id) events
  rw [← reached] at sound
  rw [ReadBuffer.hungry, decide_eq_true_iff]
  exact (Handler.doRead_read cfg now block inbox sound busy).wants_iff

/-- Half a header leaves the queue hungry. -/
theorem hungry_half_header :
    ((Peer.new someConfig someEnv 0 5 .accepted someAddr someAddr 0).handler.doRead someConfig
      someEnv 0 [.data ⟨List.replicate 12 0, by decide, by decide⟩]).1.readQueue.hungry = true :=
  (hungry_iff someConfig someEnv 0 5 (by decide) .accepted someAddr someAddr 0 [] rfl
    (by decide +kernel) someEnv 0 [.data ⟨List.replicate 12 0, by decide, by decide⟩]).2
    (by decide +kernel)

/-- The peer answers our version with a version of length zero: the connection is
up, and the read queue asks for nothing. -/
theorem wedged_by_empty_version :
    ((run (Peer.step someConfig) (Peer.new someConfig someEnv 0 5 .connected someAddr someAddr 0)
        [.ioCb someEnv 0 Events.WRITE [] [.accept 500]]).handler.doRead someConfig someEnv 0
          [.data ⟨List.replicate 24 0, by decide, by decide⟩]).1.io.fd = 5 ∧
      ((run (Peer.step someConfig) (Peer.new someConfig someEnv 0 5 .connected someAddr someAddr 0)
        [.ioCb someEnv 0 Events.WRITE [] [.accept 500]]).handler.doRead someConfig someEnv 0
          [.data ⟨List.replicate 24 0, by decide, by decide⟩]).1.readQueue.hungry = false := by
  decide +kernel

end Coinscope.Connector

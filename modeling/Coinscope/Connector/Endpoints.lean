/-
# Connector.Endpoints -- who a handler talks to

The id of a handler and its two addresses are set by the constructor.  Everything that
happens to the handler afterwards leaves them alone, so what is said about the addresses of
a new handler holds as long as it lives.

* `SameEnds` -- id and addresses are the same.
* `run_ends` -- over a whole life.
-/
import Coinscope.Connector.BitcoinHandler

namespace Coinscope.Connector

open Coinscope.Shared
open Coinscope.Theory.Runs

set_option autoImplicit false

/-- The same id and the same addresses. -/
structure SameEnds (h h' : Handler) : Prop where
  id : h'.id = h.id
  remoteAddr : h'.remoteAddr = h.remoteAddr
  localAddr : h'.localAddr = h.localAddr

namespace SameEnds

theorem refl (h : Handler) : SameEnds h h := ⟨rfl, rfl, rfl⟩

theorem trans {a b c : Handler} (first : SameEnds a b) (second : SameEnds b c) : SameEnds a c :=
  ⟨second.id.trans first.id, second.remoteAddr.trans first.remoteAddr,
    second.localAddr.trans first.localAddr⟩

end SameEnds

namespace Handler

theorem ioSet_ends (h : Handler) (e : Events) : SameEnds h (h.ioSet e) := by
  unfold ioSet
  split
  · exact ⟨rfl, rfl, rfl⟩
  · exact .refl h

theorem appendedForWrite_ends (h : Handler) (m : PackedMessage) (queue : WriteBuffer) :
    SameEnds h (h.appendedForWrite m queue) := by
  have logged : SameEnds h { h.gLog (.bitcoinMsg h.id true m) with writeQueue := queue } :=
    ⟨rfl, rfl, rfl⟩
  unfold appendedForWrite
  simp only
  split
  · exact (logged.trans (ioSet_ends ..)).trans ⟨rfl, rfl, rfl⟩
  · exact ⟨rfl, rfl, rfl⟩

theorem appendForWrite_ends (h : Handler) (m : PackedMessage) : SameEnds h (h.appendForWrite m) :=
  appendedForWrite_ends h m _

theorem receiving_ends (h : Handler) (r : UInt32) : SameEnds h (h.receiving r) := ⟨rfl, rfl, rfl⟩

theorem sized_ends (h : Handler) : SameEnds h h.sized := ⟨rfl, rfl, rfl⟩

theorem handleMessageRecv_ends (cfg : Config) (h : Handler) (lastBlock : Int) (m : PackedMessage) :
    SameEnds h (h.handleMessageRecv cfg lastBlock m).1 := by
  have logged : SameEnds h (h.gLog (.bitcoinMsg h.id false m)) := ⟨rfl, rfl, rfl⟩
  have reacted := handleMessageRecv_reacted cfg h lastBlock m
  generalize (h.handleMessageRecv cfg lastBlock m).1 = h' at reacted ⊢
  cases reacted with
  | ping => exact logged.trans (appendedForWrite_ends ..)
  | getblocks => exact logged.trans (appendForWrite_ends ..)
  | verack => exact ⟨rfl, rfl, rfl⟩
  | unexpected => exact ⟨rfl, rfl, rfl⟩
  | nothing => exact logged

theorem handleMessage_ends (cfg : Config) (h : Handler) (lastBlock : Int) :
    SameEnds h (h.handleMessage cfg lastBlock).1 := by
  unfold handleMessage withMessage
  split
  · exact (handleMessageRecv_ends ..).trans ⟨rfl, rfl, rfl⟩
  · exact ⟨rfl, rfl, rfl⟩

theorem replyVersion_ends (cfg : Config) (env : VersionEnv) (h : Handler) (lastBlock : Int) :
    SameEnds h (h.replyVersion cfg env lastBlock) := by
  have pinging : ∀ k : Handler, SameEnds k
      { k.startPingers cfg with state := SEND_VERSION_REPLY ||| RECV_HEADER } :=
    fun k => ⟨rfl, rfl, rfl⟩
  unfold replyVersion
  exact ((appendForWrite_ends h _).trans (appendForWrite_ends _ _)).trans (pinging _)

theorem process_ends (cfg : Config) (env : VersionEnv) (h : Handler) (lastBlock : Int) :
    SameEnds h (h.process cfg env lastBlock).1 := by
  have handled := handleMessage_ends cfg h lastBlock
  unfold process
  simp only
  split
  · exact ⟨rfl, rfl, rfl⟩
  split
  · split
    · exact (sized_ends h).trans (receiving_ends _ _)
    · exact (sized_ends h).trans (handleMessage_ends cfg h.sized lastBlock)
  split
  · exact handled.trans (receiving_ends _ _)
  split
  · exact (sized_ends h).trans (receiving_ends _ _)
  split
  · exact handled.trans (receiving_ends _ _)
  split
  · exact (sized_ends h).trans (receiving_ends _ _)
  split
  · exact handled.trans (replyVersion_ends cfg env _ _)
  · exact .refl h

theorem doReadAux_ends (cfg : Config) (env : VersionEnv) (fuel : Nat) (h : Handler)
    (lastBlock : Int) (inbox : List RecvResult) :
    SameEnds h (doReadAux cfg env fuel h lastBlock inbox).1 := by
  induction fuel generalizing h lastBlock inbox with
  | zero => exact .refl h
  | succ fuel ih =>
      have filled : SameEnds h { h with
          readQueue := (h.readQueue.fill inbox).queue
          got := h.got ++ (h.readQueue.fill inbox).got } := ⟨rfl, rfl, rfl⟩
      rw [doReadAux]
      split
      · simp only
        split
        · exact ⟨rfl, rfl, rfl⟩
        · exact ⟨rfl, rfl, rfl⟩
        · exact ⟨rfl, rfl, rfl⟩
        · exact ⟨rfl, rfl, rfl⟩
        · exact ⟨rfl, rfl, rfl⟩
        · exact (filled.trans (process_ends ..)).trans (ih ..)
      · exact .refl h

theorem drained_ends (h : Handler) : SameEnds h h.drained := by
  unfold drained
  simp only
  split
  · split
    · exact ⟨rfl, rfl, rfl⟩
    · exact ⟨rfl, rfl, rfl⟩
  · exact ⟨rfl, rfl, rfl⟩

theorem doWrite_ends (cfg : Config) (h : Handler) (outbox : List WriteResult) :
    SameEnds h (h.doWrite cfg outbox) := by
  have flushed : SameEnds h { h with
      writeQueue := (WriteBuffer.flush h.io.fd outbox h.writeQueue).queue
      sent := h.sent ++ (WriteBuffer.flush h.io.fd outbox h.writeQueue).put } := ⟨rfl, rfl, rfl⟩
  have done : ∀ k : Handler, SameEnds h k →
      SameEnds h (if k.writeQueue.toWrite = 0 then k.drained else k) := by
    intro k same
    split
    · exact same.trans (drained_ends k)
    · exact same
  unfold doWrite
  simp only
  split
  · exact done _ flushed
  · exact done _ flushed
  · exact ⟨rfl, rfl, rfl⟩
  · exact done _ flushed

theorem ioCb_ends (cfg : Config) (env : VersionEnv) (h : Handler) (lastBlock : Int)
    (revents : Events) (inbox : List RecvResult) (outbox : List WriteResult) :
    SameEnds h (h.ioCb cfg env lastBlock revents inbox outbox).1 := by
  have read : SameEnds h (if h.state &&& RECV_MASK ≠ 0 ∧ revents.read = true then
      h.doRead cfg env lastBlock inbox else (h, lastBlock)).1 := by
    split
    · exact doReadAux_ends ..
    · exact .refl h
  unfold ioCb
  split
  · exact .refl h
  · simp only
    split
    · exact (read.trans (doWrite_ends ..)).trans (ioSet_ends ..)
    · exact read.trans (ioSet_ends ..)

theorem pingerCb_ends (cfg : Config) (h : Handler) (due : Bool) (nonce : Nat) :
    SameEnds h (h.pingerCb cfg due nonce) := by
  unfold pingerCb
  simp only
  split
  · exact (appendedForWrite_ends ..).trans ⟨rfl, rfl, rfl⟩
  · exact ⟨rfl, rfl, rfl⟩

theorem new_ends (cfg : Config) (env : VersionEnv) (lastBlock : Int) (fd : Nat) (aState : UInt32)
    (remote localAddr : SockaddrStorage) (id : UInt32) :
    (new cfg env lastBlock fd aState remote localAddr id).1.id = id ∧
      (new cfg env lastBlock fd aState remote localAddr id).1.remoteAddr = remote ∧
      (new cfg env lastBlock fd aState remote localAddr id).1.localAddr = localAddr := by
  unfold new
  simp only
  split
  · exact ⟨rfl, rfl, rfl⟩
  · split
    · exact ⟨rfl, rfl, rfl⟩
    · exact ⟨rfl, rfl, rfl⟩

end Handler

theorem step_ends (cfg : Config) (p : Peer) (e : PeerEvent) :
    SameEnds p.handler (p.step cfg e).handler := by
  unfold Peer.step
  split
  · exact .refl _
  · cases e with
    | ioCb => exact Handler.ioCb_ends ..
    | send m =>
        simp only
        split
        · exact Handler.appendedForWrite_ends ..
        · exact .refl _
    | disconnect =>
        simp only
        split
        · exact ⟨rfl, rfl, rfl⟩
        · exact .refl _
    | pinger due nonce =>
        simp only
        split
        · exact Handler.pingerCb_ends ..
        · exact .refl _
    | activePinger now =>
        simp only
        split
        · exact (Handler.appendedForWrite_ends ..).trans ⟨rfl, rfl, rfl⟩
        · exact .refl _
    | clearInactive =>
        simp only
        split
        · exact .refl _
        · exact .refl _

/-- Whatever happens to a handler, its id and its addresses stay. -/
theorem run_ends (cfg : Config) (p : Peer) (events : List PeerEvent) :
    SameEnds p.handler (run (Peer.step cfg) p events).handler :=
  run_keeps (P := fun q => SameEnds p.handler q.handler)
    (fun q e same => same.trans (step_ends cfg q e)) (.refl _) events

end Coinscope.Connector

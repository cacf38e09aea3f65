/-
# Connector.PeerFraming -- messages out of the byte stream of a peer

Once the versions are exchanged, a handler alternates between headers and payloads
for the rest of its life.  From any moment at which it waits for a header with
nothing in its buffers, the messages it passes to `handle_message_recv` are the
parse of the bytes `recv` delivers from then on, however they are cut up and
whatever is written, appended or timed in between.

* `deliveredTo` -- the bytes the kernel hands to a handler during a run.
* `run_advances` -- they are all taken in.
* `framing_exact` -- and come out as the frames of the protocol, with the
  incomplete tail kept.
-/
import Coinscope.Connector.Receiving

namespace Coinscope.Connector

open Coinscope.Shared
open Coinscope.Theory.Framing
open Coinscope.Theory.Runs

set_option autoImplicit false

/-! ## What the other callbacks leave alone -/

/-- A queue that wants bytes has none waiting. -/
def Dry (q : ReadBuffer) : Prop := 0 < q.toRead → q.unread = []

namespace Handler

/-- A drained queue concerns the state and the read queue only. -/
theorem drained_frame (h : Handler) : h.drained =
    { h with
      state := h.drained.state
      readQueue := h.drained.readQueue
      failed := h.drained.failed } := by
  simp only [drained, abort]
  split
  · split <;> rfl
  · rfl

/-- What `do_write` has in common with doing nothing, for the receiving side. -/
structure Wrote (h h' : Handler) : Prop where
  list : received h'.log = received h.log
  got : h'.got = h.got
  fd : h'.io.fd = h.io.fd ∨ h'.io.fd = -1
  dry : Dry h.readQueue → Dry h'.readQueue

theorem drained_wrote {h : Handler} (sound : Sound h) : Wrote h h.drained := by
  refine ⟨?_, ?_, Or.inl ?_, ?_⟩
  · rw [drained_frame]
  · rw [drained_frame]
  · rw [drained_frame]
  intro dry
  rcases drained_cases sound with ⟨only, result⟩ | ⟨-, result⟩
  · intro _
    have phase := sound.phase
    rw [sound.init (init_of_send only)] at phase
    rw [result]
    cases phase with
    | idle _ _ _ unread => exact unread
    | header state => rcases state with ⟨here, -⟩ | ⟨here | here, -⟩ <;> exact absurd here (by decide)
    | payload state => exact absurd state (by decide)
    | version state => rcases state with here | here <;> exact absurd here (by decide)
  · rw [result]
    exact dry

theorem doWrite_wrote (cfg : Config) {h : Handler} (sound : Sound h) (outbox : List WriteResult) :
    Wrote h (h.doWrite cfg outbox) := by
  have done := drained_wrote (flushed_sound sound outbox)
  have idle : Wrote h { h with
      writeQueue := (WriteBuffer.flush h.io.fd outbox h.writeQueue).queue
      sent := h.sent ++ (WriteBuffer.flush h.io.fd outbox h.writeQueue).put } :=
    ⟨rfl, rfl, Or.inl rfl, fun dry => dry⟩
  have either : ∀ b : Prop, [Decidable b] → Wrote h (if b then
      ({ h with
        writeQueue := (WriteBuffer.flush h.io.fd outbox h.writeQueue).queue
        sent := h.sent ++ (WriteBuffer.flush h.io.fd outbox h.writeQueue).put } : Handler).drained
      else { h with
        writeQueue := (WriteBuffer.flush h.io.fd outbox h.writeQueue).queue
        sent := h.sent ++ (WriteBuffer.flush h.io.fd outbox h.writeQueue).put }) := by
    intro b _
    split
    · exact ⟨done.list, done.got, done.fd, done.dry⟩
    · exact idle
  unfold doWrite
  simp only
  split
  · exact either _
  · exact either _
  · refine ⟨?_, rfl, Or.inr rfl, fun dry => dry⟩
    simp [suicide, gLogBitcoin, gLog, received]
  · exact either _

theorem ioSet_dry {h : Handler} (e : Events) (dry : Dry h.readQueue) : Dry (h.ioSet e).readQueue := by
  rw [(h.ioSet_sameReads e).readQueue]
  exact dry

end Handler

/-! ## The bytes of a run -/

/-- The bytes an event makes available to an active handler. -/
def delivery : PeerEvent → List UInt8
  | .ioCb _ _ revents inbox _ => if revents.read then stream (leading inbox) else []
  | _ => []

/-- The bytes `recv` delivers to the handler during a run. -/
def deliveredTo (cfg : Config) : Peer → List PeerEvent → List UInt8
  | _, [] => []
  | p, e :: rest =>
      (if p.active then delivery e else []) ++ deliveredTo cfg (p.step cfg e) rest

/-- A handler past the handshake, with its buffers in order. -/
structure Steady (p : Peer) : Prop where
  sound : Sound p.handler
  dry : Dry p.handler.readQueue
  later : received p.handler.log ≠ []
  fd : 0 ≤ p.handler.io.fd ∨ p.handler.io.fd = -1

/-- Past the handshake a handler always wants bytes. -/
theorem Steady.hungry {h : Handler} (sound : Sound h) (later : received h.log ≠ []) :
    0 < h.readQueue.toRead ∧ h.state &&& RECV_MASK ≠ 0 := by
  cases sound.phase with
  | idle _ _ _ _ first => exact absurd first later
  | header state hungry _ =>
      refine ⟨hungry, ?_⟩
      rcases state with ⟨here, -⟩ | ⟨here | here, -⟩ <;> rw [here] <;> decide
  | payload state _ _ _ hungry =>
      refine ⟨hungry, ?_⟩
      rw [state]
      decide
  | version _ first => exact absurd first later

/-- What one event does to a steady handler. -/
structure Advances (cfg : Config) (p : Peer) (e : PeerEvent) : Prop where
  steady : Steady (p.step cfg e)
  list : received p.handler.log <+: received (p.step cfg e).handler.log
  got : (p.step cfg e).handler.got = p.handler.got ++ if p.active then delivery e else []

theorem advances_of_sameReads {cfg : Config} {p : Peer} {e : PeerEvent} (steady : Steady p)
    (same : SameReads p.handler (p.step cfg e).handler) (nothing : delivery e = []) :
    Advances cfg p e := by
  refine ⟨⟨steady.sound.transfer same, ?_, ?_, ?_⟩, ?_, ?_⟩
  · rw [same.readQueue]; exact steady.dry
  · rw [same.received]; exact steady.later
  · rw [same.fd]; exact steady.fd
  · rw [same.received]
  · rw [same.got, nothing]; simp

/-- The reading half of `io_cb`, for a steady handler with a descriptor. -/
theorem read_half (cfg : Config) (env : VersionEnv) {h k : Handler} (sound : Sound h)
    (dry : Dry h.readQueue) (later : received h.log ≠ []) (lastBlock : Int) (revents : Events)
    (inbox : List RecvResult)
    (read : h.state &&& RECV_MASK ≠ 0 ∧ revents.read = true ∧
        k = (h.doRead cfg env lastBlock inbox).1 ∨
      ¬ (h.state &&& RECV_MASK ≠ 0 ∧ revents.read = true) ∧ k = h) :
    Sound k ∧ Dry k.readQueue ∧ received h.log <+: received k.log ∧
      (k.io.fd = h.io.fd ∨ k.io.fd = -1) ∧
      k.got = h.got ++ if revents.read then stream (leading inbox) else [] := by
  obtain ⟨-, busy⟩ := Steady.hungry sound later
  rcases read with ⟨-, readable, result⟩ | ⟨idle, rfl⟩
  · have read := Handler.doRead_read cfg env lastBlock inbox sound busy
    rw [← result] at read
    have wants := (Steady.hungry read.sound (read.list.ne_nil later)).1
    refine ⟨read.sound, fun _ => (read.drained wants).1, read.list, read.fd, ?_⟩
    rw [(read.drained wants).2, if_pos readable]
  · have unreadable : ¬ revents.read = true := fun readable => idle ⟨busy, readable⟩
    exact ⟨sound, dry, List.prefix_refl _, Or.inl rfl, by simp [unreadable]⟩

theorem ioCb_advances {cfg : Config} {p : Peer} (steady : Steady p) (there : p.deleted = false)
    (env : VersionEnv) (lastBlock : Int) (revents : Events) (inbox : List RecvResult)
    (outbox : List WriteResult) : Advances cfg p (.ioCb env lastBlock revents inbox outbox) := by
  have result : p.step cfg (.ioCb env lastBlock revents inbox outbox) =
      { p with handler := (p.handler.ioCb cfg env lastBlock revents inbox outbox).1 } := by
    simp [Peer.step, there]
  rcases steady.fd with live | gone
  · have active : p.active = true := by simp [Peer.active, there, live]
    have linked : p.handler.io.fd ≠ -1 := by omega
    obtain ⟨r, k, read, write, final⟩ :=
      Handler.ioCb_called cfg env linked lastBlock revents inbox outbox
    obtain ⟨sound, dry, list, fd, got⟩ :=
      read_half cfg env steady.sound steady.dry steady.later lastBlock revents inbox read
    have wrote : Sound k ∧ Handler.Wrote r k := by
      rcases write with ⟨-, rfl⟩ | ⟨-, rfl⟩
      · exact ⟨Handler.doWrite_sound cfg sound outbox, Handler.doWrite_wrote cfg sound outbox⟩
      · exact ⟨sound, ⟨rfl, rfl, Or.inl rfl, fun dry => dry⟩⟩
    have same := k.ioSet_sameReads ⟨k.state &&& RECV_MASK ≠ 0, k.state &&& SEND_MASK ≠ 0⟩
    obtain ⟨written, wrote⟩ := wrote
    have longer : received p.handler.log <+: received k.log := by rw [wrote.list]; exact list
    refine ⟨⟨?_, ?_, ?_, ?_⟩, ?_, ?_⟩ <;> rw [result] <;> simp only [final]
    · exact written.transfer same
    · exact Handler.ioSet_dry _ (wrote.dry dry)
    · rw [same.received]
      exact longer.ne_nil steady.later
    · rw [same.fd]
      rcases wrote.fd with keep | dead
      · rcases fd with still | dead
        · rw [keep, still]
          exact steady.fd
        · rw [keep]
          exact Or.inr dead
      · exact Or.inr dead
    · rw [same.received]
      exact longer
    · rw [same.got, wrote.got, got, active]
      rfl
  · have inactive : p.active = false := by simp [Peer.active, gone]
    have idle : (p.handler.ioCb cfg env lastBlock revents inbox outbox).1 = p.handler := by
      simp [Handler.ioCb, gone]
    rw [idle] at result
    refine ⟨?_, ?_, ?_⟩ <;> rw [result]
    · exact ⟨steady.sound, steady.dry, steady.later, steady.fd⟩
    · rw [inactive]
      simp

theorem step_advances (cfg : Config) {p : Peer} (steady : Steady p) (e : PeerEvent) :
    Advances cfg p e := by
  by_cases gone : p.deleted = true
  · have result : p.step cfg e = p := by simp [Peer.step, gone]
    have inactive : p.active = false := by simp [Peer.active, gone]
    refine ⟨?_, ?_, ?_⟩ <;> rw [result]
    · exact steady
    · rw [inactive]
      simp
  · have there : p.deleted = false := by simpa using gone
    have same : ∀ h, SameReads p.handler h → ∀ b : Bool,
        SameReads p.handler (if b then { p with handler := h } else p : Peer).handler := by
      intro h here b
      cases b with
      | true => exact here
      | false => exact SameReads.refl _
    cases e with
    | ioCb env lastBlock revents inbox outbox =>
        exact ioCb_advances steady there env lastBlock revents inbox outbox
    | send m =>
        refine advances_of_sameReads steady ?_ rfl
        rw [Peer.step, if_neg gone]
        exact same _ (Handler.appendForWriteShared_sameReads ..) p.active
    | pinger due nonce =>
        refine advances_of_sameReads steady ?_ rfl
        rw [Peer.step, if_neg gone]
        exact same _ (Handler.pingerCb_sameReads ..) p.handler.timer
    | activePinger now =>
        refine advances_of_sameReads steady ?_ rfl
        rw [Peer.step, if_neg gone]
        exact same _ (Handler.activePingerCb_sameReads ..) p.handler.activePingTimer
    | clearInactive =>
        refine advances_of_sameReads steady ?_ rfl
        rw [Peer.step, if_neg gone]
        cases p.active with
        | true => exact SameReads.refl _
        | false => exact SameReads.refl _
    | disconnect =>
        have quiet : received p.handler.disconnect.log = received p.handler.log := by
          simp [Handler.disconnect, Handler.suicide, Handler.gLogBitcoin, Handler.gLog, received]
        by_cases active : p.active = true
        · have result : p.step cfg .disconnect = { p with handler := p.handler.disconnect } := by
            simp [Peer.step, there, active]
          refine ⟨?_, ?_, ?_⟩ <;> rw [result]
          · exact ⟨Handler.disconnect_sound steady.sound, steady.dry,
              by simpa only [quiet] using steady.later, Or.inr rfl⟩
          · rw [quiet]
          · simp [delivery, Handler.disconnect, Handler.suicide, Handler.gLogBitcoin, Handler.gLog]
        · have result : p.step cfg .disconnect = p := by simp [Peer.step, there, active]
          refine ⟨?_, ?_, ?_⟩ <;> rw [result]
          · exact steady
          · simp [delivery]

/-- A run of a steady handler takes in what is delivered, and its messages only
grow in number. -/
theorem run_advances (cfg : Config) {p : Peer} (steady : Steady p) (events : List PeerEvent) :
    Steady (run (Peer.step cfg) p events) ∧
      received p.handler.log <+: received (run (Peer.step cfg) p events).handler.log ∧
      (run (Peer.step cfg) p events).handler.got =
        p.handler.got ++ deliveredTo cfg p events := by
  induction events generalizing p with
  | nil => exact ⟨steady, List.prefix_refl _, by simp [deliveredTo]⟩
  | cons e rest ih =>
      have next := step_advances cfg steady e
      obtain ⟨last, list, got⟩ := ih next.steady
      refine ⟨last, next.list.trans list, ?_⟩
      rw [run_cons, got, next.got, deliveredTo, List.append_assoc]

/-! ## Every handler that waits for a header -/

/-- A descriptor is kept or given up. -/
theorem Handler.ioCb_fd (cfg : Config) (env : VersionEnv) {h : Handler} (sound : Sound h)
    (lastBlock : Int) (revents : Events) (inbox : List RecvResult) (outbox : List WriteResult) :
    (h.ioCb cfg env lastBlock revents inbox outbox).1.io.fd = h.io.fd ∨
      (h.ioCb cfg env lastBlock revents inbox outbox).1.io.fd = -1 := by
  refine ioCb_keeps (P := fun k => k.io.fd = h.io.fd ∨ k.io.fd = -1) cfg env sound lastBlock revents
    inbox outbox (Or.inl rfl) ?_ ?_ ?_
  · intro _ r read
    exact read.fd
  · intro r sound fd
    rcases (doWrite_wrote cfg sound outbox).fd with keep | gone
    · rw [keep]
      exact fd
    · exact Or.inr gone
  · intro w e fd
    rw [(ioSet_sameReads ..).fd]
    exact fd

/-- A handler has its descriptor, or -1 in its place. -/
def Linked (p : Peer) : Prop := Sound p.handler ∧ (0 ≤ p.handler.io.fd ∨ p.handler.io.fd = -1)

theorem step_linked (cfg : Config) {p : Peer} (linked : Linked p) (e : PeerEvent) :
    Linked (p.step cfg e) := by
  refine ⟨p.step_sound cfg linked.1 e, ?_⟩
  have kept : ∀ h : Handler, h.io.fd = p.handler.io.fd ∨ h.io.fd = -1 →
      0 ≤ h.io.fd ∨ h.io.fd = -1 := by
    rintro h (same | gone)
    · rw [same]
      exact linked.2
    · exact Or.inr gone
  unfold Peer.step
  split
  · exact linked.2
  · cases e with
    | ioCb env lastBlock revents inbox outbox =>
        exact kept _ (p.handler.ioCb_fd cfg env linked.1 lastBlock revents inbox outbox)
    | send m =>
        simp only
        split
        · exact kept _ (Or.inl (Handler.appendForWriteShared_sameReads ..).fd)
        · exact linked.2
    | disconnect =>
        simp only
        split
        · exact Or.inr rfl
        · exact linked.2
    | pinger due nonce =>
        simp only
        split
        · exact kept _ (Or.inl (Handler.pingerCb_sameReads ..).fd)
        · exact linked.2
    | activePinger now =>
        simp only
        split
        · exact kept _ (Or.inl (Handler.activePingerCb_sameReads ..).fd)
        · exact linked.2
    | clearInactive =>
        simp only
        split <;> exact linked.2

theorem new_linked (cfg : Config) (env : VersionEnv) (lastBlock : Int) {fd : Nat} (isOpen : 0 < fd)
    (origin : Peer.Origin) (remote localAddr : SockaddrStorage) (id : UInt32) :
    Linked (Peer.new cfg env lastBlock fd origin remote localAddr id) := by
  refine ⟨Peer.new_sound cfg env lastBlock isOpen origin remote localAddr id, Or.inl ?_⟩
  cases origin with
  | connected => exact Int.natCast_nonneg fd
  | accepted => exact Int.natCast_nonneg fd

/-- A version of one byte, as a peer sends it. -/
def shortVersion : Chunk where
  bytes := List.replicate 16 0 ++ [1, 0, 0, 0] ++ List.replicate 5 0
  nonempty := by decide
  fits := by decide

end Coinscope.Connector

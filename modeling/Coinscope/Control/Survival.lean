/-
# Control.Survival -- runs in which nothing undefined happens

The messages of a control connection are handled one after the other, so what comes behind a
message is handled only if the process outlives it.  It may not: a COMMAND is followed into
memory as far as its target count says, and a broadcast DISCONNECT steps from an erased
element.  `Contained` excludes exactly these two, so the framing of a connection can be
stated for the process as it is and not only for the bytes in its read buffer.

* `Contained`, `command_unharmed_iff` -- the COMMAND messages that are outlived.
* `Handler.moments_unharmed_iff` -- the rounds of one `do_read`.
* `control_framing_iff` -- every run of callbacks.
-/
import Coinscope.Control.CommandBounds

namespace Coinscope.Control

open Coinscope.Shared
open Coinscope.Theory
open Coinscope.Theory.Bytes
open Coinscope.Theory.Framing
open Coinscope.Theory.Runs
open Coinscope.Connector (RECV_MASK RECV_HEADER RECV_PAYLOAD)
open Std (TreeMap)

set_option autoImplicit false

/-! ## One COMMAND message -/

/-- The payload is empty; or it is no SEND_MSG and no DISCONNECT; or it is a SEND_MSG of a
message that is not registered; or its targets are all there, and it is no broadcast
DISCONNECT while anybody is active. -/
def Contained (own : UInt32) (payload : List UInt8) (g : Globals) : Prop :=
  payload = [] ∨
    (command payload ≠ COMMAND_SEND_MSG ∧ command payload ≠ COMMAND_DISCONNECT) ∨
    (command payload = COMMAND_SEND_MSG ∧ 5 ≤ payload.length ∧
      (g.tableOf own)[messageId payload]? = none) ∨
    (9 + 4 * targetCnt payload ≤ payload.length ∧
      ¬ (command payload = COMMAND_DISCONNECT ∧ targetsOf payload = [BROADCAST_TARGET] ∧
        g.activeHandlers.keys ≠ []))

instance (own : UInt32) (payload : List UInt8) (g : Globals) :
    Decidable (Contained own payload g) :=
  inferInstanceAs (Decidable (_ ∨ _))

/-- What acts on its targets only is contained. -/
theorem Harmless.contained {own : UInt32} {payload : List UInt8} {g : Globals}
    (harmless : Harmless own payload g) : Contained own payload g := by
  rcases harmless with none_ | other | missing | ⟨inside, nobody⟩ | ⟨well, fine⟩
  · exact Or.inl none_
  · exact Or.inr (Or.inl other)
  · exact Or.inr (Or.inr (Or.inl missing))
  · refine Or.inr (Or.inr (Or.inr ⟨inside, ?_⟩))
    rintro ⟨-, broadcast, active⟩
    apply active
    apply List.eq_nil_iff_forall_not_mem.2
    intro id member
    have there := TreeMap.isSome_getElem?_iff_mem.2 (TreeMap.mem_keys.1 member)
    rw [nobody id (by rw [copies, if_pos broadcast]; decide)] at there
    cases there
  · exact Or.inr (Or.inr (Or.inr ⟨well.inside, fun bad => fine ⟨bad.1, bad.2.1⟩⟩))

namespace Globals

theorem sendMsg_undefined (g : Globals) (id : UInt32) (msg : CommandMsg) :
    (g.sendMsg id msg).undefined = g.undefined := by
  unfold sendMsg
  simp only
  split
  · rfl
  · exact foreachHandlers_append_defined ..

/-- A DISCONNECT of all peers is outlived if there is none. -/
theorem disconnect_undefined_iff (g : Globals) (messageId : UInt32) (targets : List UInt32) :
    (g.disconnect ⟨COMMAND_DISCONNECT, messageId, targets⟩).undefined = false ↔
      g.undefined = false ∧
        ¬ (targets = [BROADCAST_TARGET] ∧ g.activeHandlers.keys ≠ []) := by
  by_cases broadcast : targets = [BROADCAST_TARGET]
  · subst broadcast
    rcases g.disconnect_broadcast messageId with
      ⟨nobody, -, result⟩ | ⟨id, rest, h, ids, -, -, result⟩
    · rw [result]
      exact ⟨fun defined => ⟨defined, fun both => both.2 nobody⟩, And.left⟩
    · rw [result, ids]
      exact ⟨nofun, fun fine => absurd ⟨rfl, List.cons_ne_nil _ _⟩ fine.2⟩
  · have same := ((g.gLog .DEBUG (text "disconnect command received")
      []).foreachHandlers_disconnected ⟨COMMAND_DISCONNECT, messageId, targets⟩ broadcast).2
    rw [disconnect, same]
    exact ⟨fun defined => ⟨defined, fun both => broadcast both.1⟩, And.left⟩

theorem register_undefined (g : Globals) (id regid : UInt32) (payload : List UInt8) :
    (g.register id regid payload).1.undefined = g.undefined := by
  unfold register
  split
  · simp only
    split <;> rfl
  · rfl

theorem connectHandler_undefined (cfg : Config) (out : Outside) (g : Globals) (fd : Nat)
    (remote : SockaddrStorage) : (g.connectHandler cfg out fd remote).undefined = g.undefined := by
  unfold connectHandler
  split
  · rfl
  · split
    · rfl
    · split <;> rfl

theorem torConnectHandler_undefined (cfg : Config) (out : Outside) (g : Globals)
    (remote : SockaddrStorage) (host : List UInt8) :
    (g.torConnectHandler cfg out remote host).undefined = g.undefined := by
  unfold torConnectHandler
  simp only
  split
  · rfl
  · split
    · rfl
    · split <;> rfl

theorem connect_undefined (cfg : Config) (out : Outside) (g : Globals) (regid : UInt32)
    (memory : List UInt8) : (g.connect cfg out regid memory).undefined = g.undefined := by
  unfold connect
  simp only
  split
  · split <;> exact torConnectHandler_undefined ..
  · split
    · rfl
    · exact connectHandler_undefined ..

end Globals

section Command

variable {h : Handler} {payload : List UInt8} (ready : Ready h COMMAND payload)
  (beyond : Nat → UInt8) (g : Globals)

include ready

/-- The command SEND_MSG. -/
theorem send_unharmed_iff (some_ : payload ≠ []) (kind : command payload = COMMAND_SEND_MSG) :
    Access.Within (payloadAt h.readQueue.buffer beyond) payload.length (g.sendReading h.id) ↔
      Contained h.id payload g := by
  have other : command payload ≠ COMMAND_DISCONNECT := by rw [kind]; decide
  by_cases five : 5 ≤ payload.length
  · cases found : (g.tableOf h.id)[messageId payload]? with
    | none =>
        obtain ⟨within, -⟩ := send_missing ready beyond g kind five found
        exact ⟨fun _ => Or.inr (Or.inr (Or.inl ⟨kind, five, found⟩)), fun _ => within⟩
    | some packed =>
        rw [send_within_iff ready beyond g five found]
        constructor
        · intro inside
          exact Or.inr (Or.inr (Or.inr ⟨inside, fun bad => other bad.1⟩))
        · rintro (none_ | ⟨no, -⟩ | ⟨-, -, missing⟩ | ⟨inside, -⟩)
          · exact absurd none_ some_
          · exact absurd kind no
          · rw [found] at missing
            cases missing
          · exact inside
  · constructor
    · intro within
      rw [Globals.sendReading, Access.within_bind, within_read32] at within
      omega
    · rintro (none_ | ⟨no, -⟩ | ⟨-, long, -⟩ | ⟨inside, -⟩)
      · exact absurd none_ some_
      · exact absurd kind no
      · exact absurd long five
      · omega

/-- The command DISCONNECT, as long as nothing undefined has happened before. -/
theorem disconnect_unharmed_iff (defined : g.undefined = false) (some_ : payload ≠ [])
    (kind : command payload = COMMAND_DISCONNECT) :
    Access.Within (payloadAt h.readQueue.buffer beyond) payload.length g.disconnectReading ∧
        (g.disconnect (commandMsg h.readQueue.buffer beyond)).undefined = false ↔
      Contained h.id payload g := by
  have other : ¬ COMMAND_DISCONNECT = COMMAND_SEND_MSG := by decide
  have left_ : Contained h.id payload g ↔ 9 + 4 * targetCnt payload ≤ payload.length ∧
      ¬ (targetsOf payload = [BROADCAST_TARGET] ∧ g.activeHandlers.keys ≠ []) := by
    simp [Contained, some_, kind, other]
  rw [left_, Globals.disconnectReading, Globals.foreachReading_within ready beyond]
  refine and_congr_right fun inside => ?_
  rw [commandMsg_inside ready beyond inside, kind, Globals.disconnect_undefined_iff]
  exact and_iff_right defined

/-- The `switch` of `handle_message_recv`. -/
theorem recv_unharmed_iff (defined : g.undefined = false) (some_ : payload ≠ []) :
    Access.Within (payloadAt h.readQueue.buffer beyond) payload.length (h.take.recvReading g) ∧
        (h.take.handleMessageRecv g (commandMsg h.readQueue.buffer beyond)).1.undefined = false ↔
      Contained h.id payload g := by
  have positive : 0 < payload.length := List.length_pos_iff.2 some_
  have first : payloadAt h.readQueue.buffer beyond 0 = command payload :=
    command_payloadAt ready beyond some_
  have read : (commandMsg h.readQueue.buffer beyond).command = command payload := first
  have pure_ : ∀ r : Globals × Handler, Access.Within (payloadAt h.readQueue.buffer beyond)
      payload.length (pure r : Access UInt8 (Globals × Handler)) := fun r => Access.within_pure _ _ _
  have others : command payload ≠ COMMAND_SEND_MSG → command payload ≠ COMMAND_DISCONNECT →
      Contained h.id payload g := fun send disconnect => Or.inr (Or.inl ⟨send, disconnect⟩)
  rw [Handler.recvReading, Access.within_bind, Access.within_cell, Access.value_cell, first,
    Handler.handleMessageRecv, read]
  simp only [positive, true_and]
  by_cases get : command payload = COMMAND_GET_CXN
  · simp only [if_pos get]
    exact ⟨fun _ => others (by rw [get]; decide) (by rw [get]; decide),
      fun _ => ⟨pure_ _, defined⟩⟩
  · simp only [if_neg get]
    by_cases send : command payload = COMMAND_SEND_MSG
    · simp only [if_pos send, Access.within_bind, pure_, and_true]
      rw [Globals.sendMsg_undefined, defined]
      exact (and_iff_left rfl).trans (send_unharmed_iff ready beyond g some_ send)
    · simp only [if_neg send]
      by_cases disconnect : command payload = COMMAND_DISCONNECT
      · simp only [if_pos disconnect, Access.within_bind, pure_, and_true]
        exact disconnect_unharmed_iff ready beyond g defined some_ disconnect
      · simp only [if_neg disconnect]
        exact ⟨fun _ => others send disconnect, fun _ => ⟨pure_ _, defined⟩⟩

end Command

/-! ## One message -/

namespace Handler

/-- The payload of the COMMAND message that is held as a whole, if one is. -/
def commandHeld (h : Handler) : Option (List UInt8) :=
  if h.readQueue.held.length = messageSize + messageLength h.readQueue.held ∧
      (content h.readQueue.held).1 = COMMAND then some (content h.readQueue.held).2
  else none

/-- A COMMAND message about to be handled is contained. -/
def Orderly (g : Globals) (h : Handler) : Prop :=
  ∀ payload ∈ h.commandHeld, Contained h.id payload g

instance (g : Globals) (h : Handler) : Decidable (h.Orderly g) :=
  inferInstanceAs (Decidable (∀ payload ∈ h.commandHeld, Contained h.id payload g))

/-- No byte outside of a COMMAND message is read, and nothing undefined has happened when the
message is handled. -/
def Unharmed (cfg : Config) (g : Globals) (h : Handler) : Prop :=
  (∀ payload ∈ h.commandHeld, ∀ off ∈ h.commandReads g, off < payload.length) ∧
    (h.process cfg g).1.undefined = false

theorem warnedHeader_undefined (g : Globals) (h : Handler) :
    (h.warnedHeader g).undefined = g.undefined := by
  unfold warnedHeader
  split <;> rfl

theorem registerMe_undefined (g : Globals) (h : Handler) :
    (h.registerMe g).1.undefined = g.undefined := rfl

theorem receiveHeader_undefined (g : Globals) (h : Handler) :
    (h.receiveHeader g).1.undefined = g.undefined := by
  have warned := h.warnedHeader_undefined g
  unfold receiveHeader
  simp only
  split
  · split
    · rw [registerMe_undefined]
      exact warned
    · exact warned
  · exact warned

/-- Nothing undefined happens while a message other than a COMMAND is handled. -/
theorem process_undefined (cfg : Config) (g : Globals) {h : Handler}
    (other : h.state &&& RECV_MASK = RECV_HEADER ∨ messageType h.readQueue.buffer ≠ COMMAND) :
    (h.process cfg g).1.undefined = g.undefined := by
  unfold process
  split
  · exact receiveHeader_undefined g h
  · rename_i waits
    split
    · have kind : ¬ messageType h.take.readQueue.buffer = COMMAND := other.resolve_left waits
      show (h.take.payloadSwitch cfg (h.warned g)).1.undefined = _
      rw [← h.warned_undefined g]
      unfold payloadSwitch
      simp only [if_neg kind]
      split
      · exact Globals.register_undefined ..
      · split
        · exact Globals.connect_undefined ..
        · rfl
    · rfl

end Handler

namespace Ready

variable {h : Handler} {kind : UInt8} {payload : List UInt8} (ready : Ready h kind payload)

include ready

theorem commandHeld_eq : h.commandHeld = if kind = COMMAND then some payload else none := by
  rw [Handler.commandHeld, ready.message]
  simp [ready.whole]

end Ready

/-- A COMMAND message is handled unharmed exactly if it is contained. -/
theorem command_unharmed_iff (cfg : Config) {g : Globals} (defined : g.undefined = false)
    {h : Handler} {payload : List UInt8} (ready : Ready h COMMAND payload) :
    h.Unharmed cfg g ↔ Contained h.id payload g := by
  simp only [Handler.Unharmed, ready.commandHeld_eq, if_true, Option.mem_def, Option.some.injEq,
    forall_eq']
  by_cases none_ : payload = []
  · have empty : messageLength h.readQueue.buffer = 0 := by rw [ready.length, none_]; rfl
    refine ⟨fun _ => Or.inl none_, fun _ => ⟨?_, ?_⟩⟩
    · intro off member
      rw [Handler.commandReads, Handler.processReading, if_pos empty] at member
      cases member
    · rw [Handler.process_undefined cfg g (Or.inl (ready.empty none_)), defined]
  · have more : ¬ messageLength h.readQueue.buffer = 0 := by
      rw [ready.length]
      exact fun zero => none_ (List.length_eq_zero_iff.1 zero)
    have same : Contained h.id payload (h.warned g) ↔ Contained h.id payload g := by
      simp only [Contained, Handler.warned_activeHandlers, Handler.warned_tableOf]
    rw [← same, ← recv_unharmed_iff ready (Handler.outside (h.warned g)).beyond (h.warned g)
      (by rw [h.warned_undefined, defined]) none_, ready.process_command none_,
      Handler.commanded_undefined, Handler.commandReads, Handler.processReading, if_neg more]
    refine and_congr_left fun _ => ?_
    show Access.Within _ _ _ ↔ _
    rw [Access.within_bind]
    exact ⟨fun both => both.1, fun within => ⟨within, Access.within_pure _ _ _⟩⟩

namespace Handler

/-- One round of `do_read`. -/
theorem round_unharmed_iff (cfg : Config) {g : Globals} (defined : g.undefined = false)
    {h : Handler} (sound : Sound h) {inbox : List RecvResult} {bytes : List UInt8}
    (valid : (h.readQueue.fill inbox).queue.Valid)
    (full : ReadBuffer.Filled h.readQueue inbox (h.readQueue.fill inbox) bytes) :
    (h.filled (h.readQueue.fill inbox)).Unharmed cfg g ↔
      (h.filled (h.readQueue.fill inbox)).Orderly g := by
  -- what is no COMMAND message is held by neither side
  have passed : (h.filled (h.readQueue.fill inbox)).commandHeld = none →
      ((h.filled (h.readQueue.fill inbox)).process cfg g).1.undefined = g.undefined →
      ((h.filled (h.readQueue.fill inbox)).Unharmed cfg g ↔
        (h.filled (h.readQueue.fill inbox)).Orderly g) := by
    intro none_ same
    simp only [Unharmed, Orderly, none_, same, defined]
    simp
  by_cases whole : (h.filled (h.readQueue.fill inbox)).readQueue.held.length =
      messageSize + messageLength (h.filled (h.readQueue.fill inbox)).readQueue.held
  · have ready := ready_of_filled sound valid full whole
    by_cases kind : (content (h.filled (h.readQueue.fill inbox)).readQueue.held).1 = COMMAND
    · rw [kind] at ready
      rw [command_unharmed_iff cfg defined ready, Orderly, ready.commandHeld_eq]
      simp
    · refine passed (by rw [ready.commandHeld_eq, if_neg kind]) (process_undefined cfg g (Or.inr ?_))
      rw [ready.type]
      exact kind
  · refine passed (if_neg fun both => whole both.1) (process_undefined cfg g (Or.inl ?_))
    cases sound.phase.full full.length full.held with
    | header state => exact state
    | payload _ count => exact absurd count whole

/-! ## One callback -/

/-- Every round of `do_read` is unharmed exactly if every one is orderly. -/
theorem momentsAux_unharmed_iff (cfg : Config) (fuel : Nat) {g : Globals}
    (defined : g.undefined = false) {h : Handler} {inbox : List RecvResult} (sound : Sound h) :
    (∀ moment ∈ momentsAux cfg fuel g h inbox, moment.2.Unharmed cfg moment.1) ↔
      ∀ moment ∈ momentsAux cfg fuel g h inbox, moment.2.Orderly moment.1 := by
  induction fuel generalizing g h inbox with
  | zero => simp [momentsAux]
  | succ fuel ih =>
      have hungry := sound.phase.hungry
      obtain ⟨valid, ⟨bytes, full⟩ | ⟨bytes, short⟩⟩ := ReadBuffer.fill_cases sound.reads inbox
      · have processed := round_processed cfg g sound valid full
        have first := round_unharmed_iff cfg defined sound valid full
        simp only [momentsAux, ReadBuffer.hungry, hungry, full.ret, decide_true, if_true,
          List.forall_mem_cons]
        rw [← first]
        -- behind an unharmed round nothing undefined has happened
        exact and_congr_right fun unharmed => ih unharmed.2 processed.sound
      · obtain ⟨answers, rest, -, -, -, -, ⟨-, ret⟩ | ⟨e, -, ret⟩⟩ := short.took
        · simp [momentsAux, ReadBuffer.hungry, hungry, ret]
        · simp [momentsAux, ReadBuffer.hungry, hungry, ret]

theorem moments_unharmed_iff (cfg : Config) {g : Globals} (defined : g.undefined = false)
    {h : Handler} (inbox : List RecvResult) (sound : Sound h) :
    (∀ moment ∈ h.moments cfg g inbox, moment.2.Unharmed cfg moment.1) ↔
      ∀ moment ∈ h.moments cfg g inbox, moment.2.Orderly moment.1 :=
  momentsAux_unharmed_iff cfg _ defined sound

theorem doReadAux_defined (cfg : Config) (fuel : Nat) {g : Globals} (defined : g.undefined = false)
    {h : Handler} {inbox : List RecvResult} (sound : Sound h)
    (unharmed : ∀ moment ∈ momentsAux cfg fuel g h inbox, moment.2.Unharmed cfg moment.1) :
    (doReadAux cfg fuel g h inbox).1.undefined = false := by
  induction fuel generalizing g h inbox with
  | zero => exact defined
  | succ fuel ih =>
      have hungry := sound.phase.hungry
      obtain ⟨valid, ⟨bytes, full⟩ | ⟨bytes, short⟩⟩ := ReadBuffer.fill_cases sound.reads inbox
      · have processed := round_processed cfg g sound valid full
        simp only [momentsAux, ReadBuffer.hungry, hungry, full.ret, decide_true, if_true,
          List.forall_mem_cons] at unharmed
        simp only [doReadAux, ReadBuffer.hungry, hungry, full.ret, decide_true, if_true]
        exact ih unharmed.1.2 processed.sound unharmed.2
      · obtain ⟨answers, rest, -, -, -, -, ⟨-, ret⟩ | ⟨e, -, ret⟩⟩ := short.took
        · simp only [doReadAux, ReadBuffer.hungry, hungry, decide_true, if_true, ret]
          exact defined
        · simp only [doReadAux, ReadBuffer.hungry, hungry, decide_true, if_true, ret]
          cases e <;> exact defined

theorem doWrite_undefined (cfg : Config) (g : Globals) (h : Handler) (outbox : List WriteResult) :
    (h.doWrite cfg g outbox).1.undefined = g.undefined := by
  unfold doWrite
  simp only
  split <;> rfl

end Handler

namespace Callback

/-- The states in which the callback comes to the `switch` of `do_read`. -/
def moments (cfg : Config) (h : Handler) (c : Callback) : List (Globals × Handler) :=
  if h.io.active = true ∧ h.state &&& RECV_MASK ≠ 0 ∧ c.revents.read = true then
    h.moments cfg c.globals c.inbox
  else []

/-- Every COMMAND message of the callback is contained. -/
def Orderly (cfg : Config) (h : Handler) (c : Callback) : Prop :=
  ∀ moment ∈ c.moments cfg h, moment.2.Orderly moment.1

instance (cfg : Config) (h : Handler) (c : Callback) : Decidable (c.Orderly cfg h) :=
  inferInstanceAs (Decidable (∀ moment ∈ c.moments cfg h, moment.2.Orderly moment.1))

/-- No message of the callback harms the process, and behind it nothing undefined has happened. -/
structure Unharmed (cfg : Config) (h : Handler) (c : Callback) : Prop where
  messages : ∀ moment ∈ c.moments cfg h, moment.2.Unharmed cfg moment.1
  defined : h.io.active = true →
    (h.ioCb cfg c.globals c.revents c.inbox c.outbox).1.undefined = false

theorem unharmed_iff (cfg : Config) {h : Handler} (sound : Sound h) {c : Callback}
    (defined : c.globals.undefined = false) : c.Unharmed cfg h ↔ c.Orderly cfg h := by
  have messages : (∀ moment ∈ c.moments cfg h, moment.2.Unharmed cfg moment.1) ↔
      c.Orderly cfg h := by
    unfold Orderly moments
    split
    · exact Handler.moments_unharmed_iff cfg defined c.inbox sound
    · simp
  rw [← messages]
  refine ⟨fun unharmed => unharmed.messages, fun unharmed => ⟨unharmed, fun started => ?_⟩⟩
  have called := Handler.ioCb_called cfg c.globals h c.revents c.inbox c.outbox
  generalize h.ioCb cfg c.globals c.revents c.inbox c.outbox = result at called ⊢
  obtain ⟨r, w, read, write⟩ := called
  have taken : r.1.undefined = false := by
    rcases read with ⟨receives, readable, rfl⟩ | ⟨-, rfl⟩
    · rw [moments, if_pos ⟨started, receives, readable⟩] at unharmed
      exact Handler.doReadAux_defined cfg _ defined sound unharmed
    · exact defined
  rcases write with ⟨-, rfl⟩ | ⟨-, rfl⟩
  · exact (Handler.doWrite_undefined ..).trans taken
  · exact taken

end Callback

/-! ## Every run -/

namespace Handler

/-- A run harms the process nowhere exactly if all its COMMAND messages are contained. -/
theorem run_unharmed_iff (cfg : Config) {h : Handler} (settled : Settled h)
    {callbacks : List Callback} (defined : ∀ c ∈ callbacks, c.globals.undefined = false) :
    Along (step cfg) (fun h c => c.Unharmed cfg h) h callbacks ↔
      Along (step cfg) (fun h c => c.Orderly cfg h) h callbacks := by
  induction callbacks generalizing h with
  | nil => exact Iff.rfl
  | cons c rest ih =>
      have next := (run_settled cfg settled [c]).1
      exact and_congr (Callback.unharmed_iff cfg settled.sound (defined c List.mem_cons_self))
        (ih next fun d member => defined d (List.mem_cons_of_mem _ member))

end Handler

/-- What is asked of a control connection that starts as `start`.  The process is there to handle
what is delivered; the messages taken in are the frames of the bytes delivered, in order, with the
incomplete tail held; the connection waits for at least one more byte and its assertions hold; the
bytes written are the replies in order, as far as they have been accepted; and while some are left
the watcher of a live connection waits for writing. -/
structure Framed (cfg : Config) (start : Handler) (callbacks : List Callback) (h : Handler) :
    Prop where
  unharmed : Along (Handler.step cfg) (fun h c => c.Unharmed cfg h) start callbacks
  frames : h.seen = (controls.parse (Handler.deliveredTo cfg start callbacks)).1.map content
  rest : h.readQueue.held = (controls.parse (Handler.deliveredTo cfg start callbacks)).2
  dry : h.readQueue.unread = []
  hungry : 0 < h.readQueue.toRead
  receives : h.state &&& RECV_MASK ≠ 0
  intact : h.failed = false
  replies : h.sent <+: h.replies.flatten
  writes : h.io.active = true → h.sent ≠ h.replies.flatten → h.io.events.write = true

/-- A REGISTER and a DISCONNECT of the peer 3, cut in the middle of the second header, with the
reply going out in between. -/
def someTwoPieces : List Callback :=
  [⟨somePeers, Events.READ, [.data ⟨[0, 0, 0, 0, 0, 3, 0, 0], by decide, by decide⟩], []⟩,
   ⟨somePeers, ⟨true, true⟩,
    [.data ⟨[0, 0, 13, 2] ++ commandPayload COMMAND_DISCONNECT 0 [3], by decide, by decide⟩,
      .err .eagain], [.accept 3]⟩]

/-- A DISCONNECT command with the broadcast target, and a REGISTER behind it. -/
def someBroadcastRegister : List Callback :=
  [⟨somePeers, Events.READ, [.data ⟨[0, 0, 0, 0, 13, 2] ++
      commandPayload COMMAND_DISCONNECT 0 [BROADCAST_TARGET] ++ [0, 0, 0, 0, 0, 3], by decide,
      by decide⟩], []⟩]

end Coinscope.Control

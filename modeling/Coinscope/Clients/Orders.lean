/-
# Clients.Orders -- from the timers of getaddr to the peers

`getaddr` registers a getaddr message, asks for the list of connections, and then writes its
orders: a SEND_MSG for the handles that are due, a DISCONNECT at the beginning of a round, and
between them the CONNECT messages of its `cxn_handler`s.  The connector reads the stream in
whatever pieces it comes, while other clients and the peers go on.

* `clientStream` -- all that `getaddr` writes.
* `Shown` -- the entry an order leaves in the history of the connector.
* `orders_carried_out` -- the commands of the connection are the orders, in order, each of them on
  the handlers it names and with the message that was registered.
-/
import Coinscope.Clients.CleanserPhase
import Coinscope.Clients.Polling
import Coinscope.Control.Turns

namespace Coinscope.Clients

open Coinscope.Shared
open Coinscope.Theory.Bytes
open Coinscope.Theory.Framing
open Coinscope.Theory.Histories
open Coinscope.Theory.Runs
open Coinscope.Control
open Std (TreeMap)

set_option autoImplicit false

/-! ## What is written -/

/-- `bitcoin::get_message("getaddr")`. -/
def getaddrMessage (cfg : Shared.Config) : PackedMessage :=
  getMessage cfg (ascii ['g', 'e', 't', 'a', 'd', 'd', 'r']) []

/-- What `register_getaddr` writes. -/
def registerGetaddr (cfg : Shared.Config) : List UInt8 :=
  (EasyMessage.new BITCOIN_PACKED_MESSAGE (getaddrMessage cfg).wire).serialize

/-- What `get_all_cxn_prefix` writes: all but the command is zero. -/
def getAllCxnPrefix : List UInt8 :=
  EasyMessage.layout COMMAND 9 (commandPayload COMMAND_GET_CXN 0 [])

namespace Order

def targets : Order → List UInt32
  | .sendMsg targets => targets
  | .disconnect targets => targets

def command : Order → UInt8
  | .sendMsg _ => COMMAND_SEND_MSG
  | .disconnect _ => COMMAND_DISCONNECT

/-- `g_msg_id` goes with the messages to send, zero with the handles to disconnect. -/
def messageId (msgId : UInt32) : Order → UInt32
  | .sendMsg _ => msgId
  | .disconnect _ => 0

/-- The `command_msg` of `send_getaddrs` and of `clock_cb`. -/
def message (msgId : UInt32) (o : Order) : EasyMessage :=
  commandMsg o.command (o.messageId msgId) o.targets

def payload (msgId : UInt32) (o : Order) : List UInt8 :=
  commandPayload o.command (o.messageId msgId) o.targets

/-- The length field of its message holds its length. -/
def Fits (o : Order) : Prop := 9 + 4 * o.targets.length < 2 ^ 32

end Order

/-- What is written to `g_control` behind the set-up. -/
inductive Written where
  | order (o : Order)
  | connect (remote localAddr : SockaddrIn)

namespace Written

def order? : Written → Option Order
  | .order o => some o
  | .connect _ _ => none

def bytes (msgId : UInt32) : Written → List UInt8
  | .order o => (o.message msgId).serialize
  | .connect remote localAddr => (connectMsg remote localAddr).serialize

/-- What the connector finds in it. -/
def content (msgId : UInt32) : Written → UInt8 × List UInt8
  | .order o => (COMMAND, o.payload msgId)
  | .connect remote localAddr => (CONNECT, remote.bytes ++ localAddr.bytes)

/-- The orders fit into their messages. -/
def Fits (w : Written) : Prop := ∀ o, w.order? = some o → o.Fits

end Written

/-- The messages `getaddr` writes, in order; `msgId` is the answer to the first of them. -/
def clientFrames (cfg : Shared.Config) (msgId : UInt32) (written : List Written) :
    List (List UInt8) :=
  registerGetaddr cfg :: getAllCxnPrefix :: written.map (Written.bytes msgId)

/-- All that `getaddr` writes. -/
def clientStream (cfg : Shared.Config) (msgId : UInt32) (written : List Written) : List UInt8 :=
  (clientFrames cfg msgId written).flatten

/-! ## What the connector finds -/

/-- A message without payload is its header. -/
theorem getaddrMessage_wire (cfg : Shared.Config) : (getaddrMessage cfg).wire =
    messageHeader cfg (ascii ['g', 'e', 't', 'a', 'd', 'd', 'r']) [] := by
  have length : (getaddrMessage cfg).length = 0 := packedLength_messageHeader ..
  rw [PackedMessage.wire, length, Nat.add_zero,
    ← messageHeader_length cfg (ascii ['g', 'e', 't', 'a', 'd', 'd', 'r']) []]
  exact List.take_left

theorem length_getaddrMessage (cfg : Shared.Config) : (getaddrMessage cfg).wire.length = 24 := by
  rw [getaddrMessage_wire, messageHeader_length]
  rfl

/-- The message is one the connector registers. -/
theorem getaddrMessage_fits (cfg : Shared.Config) : ¬ Rejected (getaddrMessage cfg).wire := by
  have length := length_getaddrMessage cfg
  have announced : packedLength (getaddrMessage cfg).wire = 0 := by
    rw [getaddrMessage_wire]
    have field := packedLength_messageHeader cfg (ascii ['g', 'e', 't', 'a', 'd', 'd', 'r']) [] []
    rwa [List.append_nil] at field
  have size : packedSize = 24 := rfl
  exact not_not.2 ⟨by omega, by omega⟩

theorem registerGetaddr_eq (cfg : Shared.Config) : registerGetaddr cfg =
    EasyMessage.layout BITCOIN_PACKED_MESSAGE (getaddrMessage cfg).wire.length
      (getaddrMessage cfg).wire := by
  have small : (getaddrMessage cfg).wire.length < 2 ^ 32 := by
    rw [length_getaddrMessage]
    decide
  have buffer : (EasyMessage.new BITCOIN_PACKED_MESSAGE (getaddrMessage cfg).wire).buffer =
      EasyMessage.layout BITCOIN_PACKED_MESSAGE (getaddrMessage cfg).wire.length
        (getaddrMessage cfg).wire ++
      (WrappedBuffer.ofSize (messageSize + (getaddrMessage cfg).wire.length)).drop
        (messageSize + (getaddrMessage cfg).wire.length) := by
    rw [EasyMessage.new, WrappedBuffer.blit, List.take_zero, List.nil_append, Nat.zero_add,
      EasyMessage.length_layout]
  exact EasyMessage.serialize_layout _ small buffer

theorem Written.complete {msgId : UInt32} {w : Written} (fits : w.Fits) :
    controls.Complete (w.bytes msgId) ∧ Control.content (w.bytes msgId) = w.content msgId := by
  cases w with
  | order o =>
      have small := fits o rfl
      have length := PythonCommand.length_commandPayload o.command (o.messageId msgId) o.targets
      have frame : (Written.order o).bytes msgId = EasyMessage.layout COMMAND
          (o.payload msgId).length (o.payload msgId) := by
        rw [Order.payload, length]
        exact serialize_commandMsg _ _ small
      rw [frame]
      refine ⟨layout_complete ?_, EasyMessage.content_layout ..⟩
      rw [Order.payload, length]
      exact small
  | connect remote localAddr =>
      have length : (remote.bytes ++ localAddr.bytes).length = 32 := by
        rw [List.length_append, remote.size, localAddr.size]
      have frame : (Written.connect remote localAddr).bytes msgId = EasyMessage.layout CONNECT
          (remote.bytes ++ localAddr.bytes).length (remote.bytes ++ localAddr.bytes) := by
        rw [length]
        exact serialize_connectMsg remote localAddr
      rw [frame]
      refine ⟨layout_complete ?_, EasyMessage.content_layout ..⟩
      rw [length]
      decide

/-- The stream is a sequence of whole messages. -/
theorem clientFrames_complete (cfg : Shared.Config) (msgId : UInt32) {written : List Written}
    (fits : ∀ w ∈ written, w.Fits) :
    ∀ f ∈ clientFrames cfg msgId written, controls.Complete f := by
  intro f member
  rcases List.mem_cons.1 member with rfl | member
  · rw [registerGetaddr_eq]
    refine layout_complete ?_
    rw [length_getaddrMessage]
    decide
  rcases List.mem_cons.1 member with rfl | member
  · have length : (commandPayload COMMAND_GET_CXN 0 []).length = 9 :=
      PythonCommand.length_commandPayload ..
    have small : (commandPayload COMMAND_GET_CXN 0 []).length < 2 ^ 32 := by
      rw [length]
      decide
    rw [getAllCxnPrefix, ← length]
    exact layout_complete small
  · obtain ⟨w, there, rfl⟩ := List.mem_map.1 member
    exact (Written.complete (fits w there)).1

theorem clientFrames_content (cfg : Shared.Config) (msgId : UInt32) {written : List Written}
    (fits : ∀ w ∈ written, w.Fits) : (clientFrames cfg msgId written).map Control.content =
      (BITCOIN_PACKED_MESSAGE, (getaddrMessage cfg).wire) ::
        (COMMAND, commandPayload COMMAND_GET_CXN 0 []) :: written.map (Written.content msgId) := by
  have first : Control.content (registerGetaddr cfg) =
      (BITCOIN_PACKED_MESSAGE, (getaddrMessage cfg).wire) := by
    rw [registerGetaddr_eq]
    exact EasyMessage.content_layout ..
  have second : Control.content getAllCxnPrefix =
      (COMMAND, commandPayload COMMAND_GET_CXN 0 []) := EasyMessage.content_layout ..
  rw [clientFrames, List.map_cons, List.map_cons, first, second, List.map_map]
  congr 2
  exact List.map_congr_left fun w there => (Written.complete (fits w there)).2

/-! ## The turns of the connection -/

/-- The entry of a connection that shows an order on the handlers: the command, and for a
DISCONNECT that the handlers it names are gone. -/
inductive Shown (c msgId : UInt32) (o : Order) : Served → Prop
  | of {before after : TreeMap UInt32 Connector.Handler}
      (dropped : Dropped (o.payload msgId) before after) :
      Shown c msgId o (.commanded c (o.payload msgId) before after)

theorem Order.payload_ne_nil (msgId : UInt32) (o : Order) : o.payload msgId ≠ [] := by
  intro none_
  have length := congrArg List.length none_
  rw [Order.payload, PythonCommand.length_commandPayload] at length
  simp at length

/-- The turn of an order. -/
theorem turned_order {c msgId : UInt32} {ordinary : Prop} {o : Order} {turn : Turn}
    (turned : Turned c ordinary turn) (holds : ordinary)
    (message : turn.message = (COMMAND, o.payload msgId)) :
    ∃ entry, turn.entries = [entry] ∧ Shown c msgId o entry := by
  have some_ := o.payload_ne_nil msgId
  have other : o.command ≠ COMMAND_GET_CXN := by
    cases o with
    | sendMsg targets => exact (by decide : COMMAND_SEND_MSG ≠ COMMAND_GET_CXN)
    | disconnect targets => exact (by decide : COMMAND_DISCONNECT ≠ COMMAND_GET_CXN)
  have renames : REGISTER ≠ COMMAND := by decide
  have registers : BITCOIN_PACKED_MESSAGE ≠ COMMAND := by decide
  cases turned with
  | renamed regid => exact absurd (congrArg Prod.fst message) renames
  | registered _ id given => exact absurd (congrArg Prod.fst message) registers
  | listed _ asked g =>
      cases message
      exact absurd asked other
  | commanded _ _ dropped =>
      cases message
      exact ⟨_, rfl, .of (dropped holds)⟩
  | passed register packed command =>
      cases message
      exact absurd ⟨rfl, some_⟩ command

/-- The turn of a CONNECT. -/
theorem turned_connect {c : UInt32} {ordinary : Prop} {payload : List UInt8} {turn : Turn}
    (turned : Turned c ordinary turn) (message : turn.message = (CONNECT, payload)) :
    turn.entries = [] := by
  have renames : REGISTER ≠ CONNECT := by decide
  have registers : BITCOIN_PACKED_MESSAGE ≠ CONNECT := by decide
  have commands : COMMAND ≠ CONNECT := by decide
  cases turned with
  | renamed regid => exact absurd (congrArg Prod.fst message) renames
  | registered some_ id given => exact absurd (congrArg Prod.fst message) registers
  | listed some_ asked g => exact absurd (congrArg Prod.fst message) commands
  | commanded some_ other dropped => exact absurd (congrArg Prod.fst message) commands
  | passed register packed command => rfl

/-- Behind the set-up the entries of the connection are those of the orders, in order. -/
theorem turned_written {c msgId : UInt32} {ordinary : Prop} {turns : List Turn}
    {written : List Written} (turned : ∀ turn ∈ turns, Turned c ordinary turn) (holds : ordinary)
    (messages : turns.map (·.message) = written.map (Written.content msgId)) :
    List.Forall₂ (Shown c msgId) (written.filterMap Written.order?)
      (turns.flatMap (·.entries)) := by
  induction written generalizing turns with
  | nil =>
      obtain rfl := List.map_eq_nil_iff.1 messages
      exact .nil
  | cons w rest ih =>
      cases turns with
      | nil => cases messages
      | cons turn later =>
          rw [List.map_cons, List.map_cons] at messages
          injection messages with first others
          have tail := ih (fun t member => turned t (List.mem_cons_of_mem _ member)) others
          have head := turned turn List.mem_cons_self
          rw [List.flatMap_cons]
          cases w with
          | order o =>
              obtain ⟨entry, one, shown⟩ := turned_order head holds first
              rw [one]
              exact .cons shown tail
          | connect remote localAddr =>
              rw [turned_connect head first]
              exact tail

/-- The turn of the registration; its answer tells the id. -/
theorem turned_registration {c msgId : UInt32} {ordinary : Prop} {cfg : Shared.Config} {turn : Turn}
    (turned : Turned c ordinary turn) (holds : ordinary)
    (message : turn.message = (BITCOIN_PACKED_MESSAGE, (getaddrMessage cfg).wire))
    {more : List UInt8} (answered : be 4 msgId.toNat <+: turn.answer ++ more) :
    turn.entries = [.registered c (getaddrMessage cfg).wire msgId] ∧ msgId ≠ 0 := by
  have renames : REGISTER ≠ BITCOIN_PACKED_MESSAGE := by decide
  have commands : COMMAND ≠ BITCOIN_PACKED_MESSAGE := by decide
  cases turned with
  | renamed regid => exact absurd (congrArg Prod.fst message) renames
  | registered some_ id given =>
      cases message
      have same : be 4 msgId.toNat = be 4 id.toNat :=
        (List.prefix_of_prefix_length_le answered (List.prefix_append ..) (by simp)).eq_of_length
          (by simp)
      have number := congrArg ofBE same
      rw [ofBE_be_of_lt msgId.toNat_lt, ofBE_be_of_lt id.toNat_lt] at number
      obtain rfl := UInt32.toNat_inj.1 number
      exact ⟨rfl, given holds (getaddrMessage_fits cfg)⟩
  | listed some_ asked g => exact absurd (congrArg Prod.fst message) commands
  | commanded some_ other dropped => exact absurd (congrArg Prod.fst message) commands
  | passed register packed command =>
      cases message
      refine absurd ⟨rfl, ?_⟩ packed
      intro none_
      have length := length_getaddrMessage cfg
      rw [none_] at length
      cases length

/-- The turn of the request for the connections. -/
theorem turned_listing {c : UInt32} {ordinary : Prop} {turn : Turn} (turned : Turned c ordinary turn)
    (message : turn.message = (COMMAND, commandPayload COMMAND_GET_CXN 0 [])) :
    ∃ handlers, turn.entries =
      [.commanded c (commandPayload COMMAND_GET_CXN 0 []) handlers handlers] := by
  have renames : REGISTER ≠ COMMAND := by decide
  have registers : BITCOIN_PACKED_MESSAGE ≠ COMMAND := by decide
  cases turned with
  | renamed regid => exact absurd (congrArg Prod.fst message) renames
  | registered some_ id given => exact absurd (congrArg Prod.fst message) registers
  | listed some_ asked g =>
      cases message
      exact ⟨_, rfl⟩
  | commanded some_ other dropped =>
      cases message
      exact absurd rfl other
  | passed register packed command =>
      cases message
      exact absurd ⟨rfl, by decide⟩ command

/-- A command to handlers, not a request for the list of them. -/
def toHandlers : Served → Bool
  | .commanded _ payload _ _ => Control.command payload != COMMAND_GET_CXN
  | .registered .. => false
  | .renamed _ => false

/-- The commands to handlers that came on a control connection. -/
def commandsOf (c : UInt32) (served : List Served) : List Served :=
  (ofConnection c served).filter toHandlers

theorem shown_commands {c msgId : UInt32} {orders : List Order} {entries : List Served}
    (shown : List.Forall₂ (Shown c msgId) orders entries) :
    entries.filter toHandlers = entries := by
  induction shown with
  | nil => rfl
  | @cons o entry orders entries first rest ih =>
      cases first with
      | of dropped =>
          rw [List.filter_cons_of_pos, ih]
          cases o with
          | sendMsg targets => rfl
          | disconnect targets => rfl

/-- What the connection has to show for a front of the stream: the registration, the request for the
list unless it is still to come, and a front of the orders. -/
structure Front (c msgId : UInt32) (cfg : Shared.Config) (part : List Written)
    (entries : List Served) : Prop where
  given : msgId ≠ 0
  split : ∃ setUp shown,
    entries = .registered c (getaddrMessage cfg).wire msgId :: (setUp ++ shown) ∧
    setUp.filter toHandlers = [] ∧
    List.Forall₂ (Shown c msgId) (part.filterMap Written.order?) shown

theorem front_of_turns {c msgId : UInt32} {ordinary : Prop} {cfg : Shared.Config}
    {written : List Written} {turns : List Turn} (turned : ∀ turn ∈ turns, Turned c ordinary turn)
    (holds : ordinary)
    (messages : turns.map (·.message) <+:
      (BITCOIN_PACKED_MESSAGE, (getaddrMessage cfg).wire) ::
        (COMMAND, commandPayload COMMAND_GET_CXN 0 []) :: written.map (Written.content msgId))
    (answered : be 4 msgId.toNat <+: turns.flatMap (·.answer)) :
    Front c msgId cfg (written.take (turns.length - 2)) (turns.flatMap (·.entries)) := by
  rcases turns with _ | ⟨first, _ | ⟨second, later⟩⟩
  · -- nothing is answered yet
    have length := answered.length_le
    simp at length
  · -- the registration
    have head := (List.cons_prefix_cons.1 messages).1
    obtain ⟨entry, given⟩ := turned_registration (turned first List.mem_cons_self) holds head
      (by rw [List.flatMap_cons] at answered; exact answered)
    refine ⟨given, [], [], ?_, rfl, ?_⟩
    · rw [List.flatMap_singleton, entry]
      rfl
    · exact .nil
  · -- the registration, the request for the list, and orders
    obtain ⟨head, tail⟩ := List.cons_prefix_cons.1 messages
    obtain ⟨next, others⟩ := List.cons_prefix_cons.1 tail
    obtain ⟨entry, given⟩ := turned_registration (turned first List.mem_cons_self) holds head
      (by rw [List.flatMap_cons] at answered; exact answered)
    obtain ⟨handlers, listing⟩ := turned_listing (turned second (by simp)) next
    have rest : later.map (·.message) =
        (written.take later.length).map (Written.content msgId) := by
      rw [List.map_take]
      have same := List.prefix_iff_eq_take.1 others
      rwa [List.length_map] at same
    refine ⟨given, [.commanded c (commandPayload COMMAND_GET_CXN 0 []) handlers handlers], _,
      ?_, rfl, turned_written (fun turn member => turned turn (by simp [member])) holds rest⟩
    rw [List.flatMap_cons, List.flatMap_cons, entry, listing]
    rfl

/-! ## Carrying out -/

/-- The entry of an order carried out: the message registered is appended for the handles to ask,
and those to disconnect are gone. -/
def CarriedOut (cfg : Shared.Config) : Order → Served → Prop
  | .sendMsg targets, .commanded _ _ before after =>
      Appended (getaddrMessage cfg).wire targets before after
  | .disconnect targets, .commanded _ _ before after => Disconnected targets before after
  | _, _ => False

/-- A registered message is what is sent. -/
theorem Shown.carriedOut {c msgId : UInt32} {cfg : Shared.Config} {o : Order} {entry : Served}
    (shown : Shown c msgId o entry) (given : msgId ≠ 0) {earlier : List Served}
    (registered : .registered c (getaddrMessage cfg).wire msgId ∈ earlier)
    (delivered : Delivered earlier entry) : CarriedOut cfg o entry := by
  cases shown with
  | of dropped =>
      cases o with
      | sendMsg targets =>
          refine (delivered msgId targets rfl).1 _ (List.mem_filterMap.2 ⟨_, registered, ?_⟩)
          exact if_neg given
      | disconnect targets => exact dropped 0 targets rfl

/-- The commands of the connection are the orders, carried out. -/
theorem Front.carriedOut {c msgId : UInt32} {cfg : Shared.Config} {part : List Written}
    {served : List Served} (front : Front c msgId cfg part (ofConnection c served))
    (delivered : Each Delivered served) :
    List.Forall₂ (CarriedOut cfg) (part.filterMap Written.order?) (commandsOf c served) := by
  obtain ⟨setUp, shown, entries, quiet, orders⟩ := front.split
  have commands : commandsOf c served = shown := by
    rw [commandsOf, entries, List.filter_cons_of_neg Bool.false_ne_true,
      List.filter_append, quiet,
      shown_commands orders]
    rfl
  rw [commands]
  refine (List.forall₂_iff_get.2 ⟨orders.length_eq, ?_⟩)
  intro i here there
  have listed : shown.get ⟨i, there⟩ ∈ shown := List.get_mem ..
  obtain ⟨s, t, split⟩ := List.append_of_mem listed
  have behind : ofConnection c served =
      (.registered c (getaddrMessage cfg).wire msgId :: (setUp ++ s)) ++
        shown.get ⟨i, there⟩ :: t := by
    rw [entries, List.cons_append, List.append_assoc, ← split]
  obtain ⟨earlier, kept, now⟩ := each_of_filter delivered _ behind
  refine (orders.get here there).carriedOut front.given ?_ now
  have member := List.mem_cons_self (a := Served.registered c (getaddrMessage cfg).wire msgId)
    (l := setUp ++ s)
  rw [← kept] at member
  exact (List.mem_filter.1 member).1

/-- A connection that takes in a part of the stream has taken in messages of it, from the first
on; the whole stream is all of them. -/
theorem frames_of_stream {h : Control.Handler} (settled : Control.Handler.Settled h)
    {frames : List (List UInt8)} (complete : ∀ f ∈ frames, controls.Complete f)
    (took : h.got <+: frames.flatten) :
    ∃ part, part <+: frames ∧ h.seen = part.map Control.content ∧
      (h.got = frames.flatten → part = frames) := by
  obtain ⟨part, whole, seen, got⟩ := settled.sound.whole
  rw [settled.dry, List.append_nil] at got
  have front : part.flatten <+: frames.flatten :=
    (List.prefix_append _ h.readQueue.held).trans (got ▸ took)
  refine ⟨part, ?_, seen, ?_⟩
  · have starts := controls.parse_starts whole front
    rwa [controls.parse_whole complete] at starts
  · intro all
    have parsed := controls.parse_flatten_append whole settled.sound.phase.incomplete
    rw [← got, all, controls.parse_whole complete] at parsed
    exact (congrArg Prod.fst parsed).symm

/-- Whatever happens on the other control connections and on the side of the peers, in a run without
a REGISTER message, with fewer than 2^32 - 1 registrations and connections, and in which nothing
undefined has happened: when a connection has taken in some of the stream of `getaddr` and
answered its registration, the commands to handlers that came on it are a front of the orders, in
order and each carried out; all of them once the stream is taken in.  What the timers pushed is
then with the peers, under way, or pending. -/
theorem orders_carried_out (cfg client : Shared.Config) (blacklist : SockaddrStorage → Bool)
    (tape : Nat → Outside) (events : List PlaneEvent) (p : Plane)
    (reached : p = run (Plane.step cfg) (Plane.start blacklist tape) events)
    (noRegister : ∀ connection, .renamed connection ∉ p.globals.served)
    (fewMessages : (registrations p.globals.served).length < 2 ^ 32 - 1)
    (fewConnections : p.accepted < 2 ^ 32 - 1) (defined : p.globals.undefined = false)
    (isBound : SockaddrIn → Bool) (now : Rat) (callbacks : List PollEvent) (w : Poller)
    (polled : w = run (Poller.step isBound) (Poller.start now) callbacks)
    (written : List Written) (ordered : written.filterMap Written.order? = w.orders)
    (fits : ∀ o ∈ w.orders, o.Fits)
    (k : Nat) (h : Control.Handler) (found : p.connections[k]? = some h) (msgId : UInt32)
    (took : h.got <+: clientStream client msgId written)
    (answered : be 4 msgId.toNat <+: h.sent) :
    ∃ done rest, w.orders = done ++ rest ∧
      List.Forall₂ (CarriedOut client) done (commandsOf h.id p.globals.served) ∧
      (h.got = clientStream client msgId written → rest = []) ∧
      done.flatMap Order.polls ++ rest.flatMap Order.polls ++ w.pending =
        w.acts.filterMap PollAct.pushed? := by
  have accounted : p.Accounted := by
    rw [reached]
    exact Plane.run_accounted cfg blacklist tape events
  have polling : w.Sound := by
    rw [polled]
    exact run_keeps (fun _ e sound => sound.step isBound e) (Poller.sound_start now) callbacks
  have few : p.accepted < 2 ^ 32 := by omega
  have modest : Modest p.globals.served := ⟨noRegister, by omega⟩
  have settled := accounted.consistent.settled k h found
  have whole : ∀ item ∈ written, item.Fits := by
    intro item member o is
    exact fits o (ordered ▸ List.mem_filterMap.2 ⟨item, member, is⟩)
  obtain ⟨part, front, seen, all⟩ :=
    frames_of_stream settled (clientFrames_complete client msgId whole) took
  obtain ⟨turns, turned, messages, replies, entries⟩ := accounted.turns few k h found
  have first : turns.map (·.message) <+:
      (clientFrames client msgId written).map Control.content := by
    rw [← messages, seen]
    exact front.map Control.content
  rw [clientFrames_content client msgId whole] at first
  have sent : be 4 msgId.toNat <+: turns.flatMap (·.answer) := by
    rw [← replies, ← settled.sound.queued]
    exact answered.trans (List.prefix_append ..)
  have shows := front_of_turns turned ⟨modest, defined⟩ first sent
  rw [← entries] at shows
  have split : w.orders = (written.take (turns.length - 2)).filterMap Written.order? ++
      (written.drop (turns.length - 2)).filterMap Written.order? := by
    rw [← List.filterMap_append, List.take_append_drop, ordered]
  have delivered := (accounted.consistent.tracked few modest).delivered
  refine ⟨_, _, split, shows.carriedOut delivered, ?_, ?_⟩
  · intro ended
    have length : turns.length = written.length + 2 := by
      have count := congrArg List.length messages
      rw [seen, all ended, List.length_map, List.length_map] at count
      rw [← count, clientFrames, List.length_cons, List.length_cons, List.length_map]
    rw [length, Nat.add_sub_cancel, List.drop_length]
    rfl
  · rw [← List.flatMap_append, ← split]
    exact polling.sent

/-- A handle of the first list is due after ten seconds, and pushed. -/
def somePolls : List PollEvent :=
  [.listed 0 3 someRemote someRemote, .clock 11, .hidTimer 3, .pusher]

/-- What goes out then, with the first message id. -/
def someOrders : Chunk :=
  ⟨clientStream Connector.someConfig 1 [.order (.sendMsg [3])], by decide +kernel,
    by decide +kernel⟩

/-- It comes in one piece, to a connector that has the handle. -/
def someCarried : Plane :=
  run (Plane.step Connector.someConfig) (Plane.start (fun _ => false) fun _ => someOutside)
    [.accept 6 5,
     .peers (TreeMap.insert ∅ 3 (Connector.Handler.new Connector.someConfig Connector.someEnv 0 5
        Connector.SEND_VERSION_INIT Connector.someAddr Connector.someAddr 3).1) [] 4 0
        (fun _ => false) [],
     .callback 0 Events.READ [.data someOrders, .err .eagain] [],
     .callback 0 Events.WRITE [] [.accept 4]]

/-- The getaddr is with the peer. -/
theorem orders_carried_out_once :
    List.Forall₂ (CarriedOut Connector.someConfig) [.sendMsg [3]]
        (commandsOf 0 someCarried.globals.served) := by
  have some_ : (someCarried.connections[0]?).isSome = true := by decide +kernel
  obtain ⟨h, found⟩ := Option.isSome_iff_exists.1 some_
  have part : (someCarried.connections[0]?).map (fun h => (h.got, h.sent, h.id)) =
      some (someOrders.bytes, be 4 1, 0) := by decide +kernel
  rw [found] at part
  injection part with part
  injection part with got part
  injection part with sent id
  have renamed : ∀ entry ∈ someCarried.globals.served,
      (match entry with | .renamed _ => false | _ => true) = true :=
    List.all_eq_true.1 (by decide +kernel)
  have orders : (run (Poller.step fun _ => false) (Poller.start 1) somePolls).orders =
      [.sendMsg [3]] := by decide +kernel
  have fits : ∀ o ∈ (run (Poller.step fun _ => false) (Poller.start 1) somePolls).orders,
      o.Fits := by
    rw [orders]
    intro o member
    rw [List.mem_singleton.1 member]
    exact (by decide : 9 + 4 * 1 < 2 ^ 32)
  obtain ⟨done, rest, split, carried, ended, -⟩ := orders_carried_out Connector.someConfig
    Connector.someConfig (fun _ => false) (fun _ => someOutside) _ someCarried rfl
    (fun connection member => absurd (renamed _ member) (by simp)) (by decide +kernel)
    (by decide +kernel) (by decide +kernel) (fun _ => false) 1 somePolls _ rfl [.order (.sendMsg [3])]
    (by rw [orders]; rfl) fits 0 h found 1 (by rw [got]; exact List.prefix_refl _)
    (by rw [sent]; exact List.prefix_refl _)
  rw [orders, ended got, List.append_nil] at split
  rw [← split, id] at carried
  exact carried

end Coinscope.Clients

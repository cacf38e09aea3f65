/-
# Control.Disconnection -- COMMAND_DISCONNECT on its targets

Listed targets are looked up one by one, and the handler found is erased from the
table before the next lookup.  A broadcast is a traversal of the very table its
callback erases from, so already the step behind the first handler starts from an
element that is no longer there.

* `Globals.visit_disconnect` -- the handlers behind a list of targets.
* `Globals.traverseCalls` -- the handlers a traversal calls its callback on.
* `broadcast_disconnect_iff` -- a broadcast disconnects everybody only if there is
  nobody.
-/
import Coinscope.Control.Delivery
import Coinscope.Control.Handling
import Coinscope.Theory.Tables

namespace Coinscope.Control

open Coinscope.Shared
open Coinscope.Theory
open Coinscope.Theory.Bytes
open Coinscope.Connector (SEND_MASK RECV_HEADER)
open Std (TreeMap)

set_option autoImplicit false

namespace Globals

/-! ## Listed targets -/

theorem disconnectOne_lookup (g : Globals) (id : UInt32) (h : Connector.Handler) (i : UInt32) :
    (g.disconnectOne id h).activeHandlers[i]? = if i = id then none else g.activeHandlers[i]? :=
  Tables.getElem?_erase ..

/-- Behind a list of targets the active handlers are the others. -/
theorem visit_disconnect (messageId : UInt32) (targets : List UInt32) (g : Globals) (i : UInt32) :
    (visit disconnectOne messageId targets g).activeHandlers[i]? =
      if i ∈ targets then none else g.activeHandlers[i]? := by
  induction targets generalizing g with
  | nil => rfl
  | cons target rest ih =>
      rw [visit]
      cases there : g.activeHandlers[target]? with
      | some h =>
          rw [ih, disconnectOne_lookup]
          by_cases here : i = target
          · simp [here]
          · simp [here]
      | none =>
          rw [ih]
          show (if i ∈ rest then none else g.activeHandlers[i]?) = _
          by_cases here : i = target
          · simp [here, there]
          · simp [here]

/-- Nothing undefined happens on the way along a list. -/
theorem visit_defined {f : Globals → UInt32 → Connector.Handler → Globals}
    (each : ∀ g id h, (f g id h).undefined = g.undefined) (messageId : UInt32)
    (targets : List UInt32) (g : Globals) :
    (visit f messageId targets g).undefined = g.undefined := by
  induction targets generalizing g with
  | nil => rfl
  | cons target rest ih =>
      rw [visit]
      split
      · rw [ih, each]
      · rw [ih]
        rfl

/-! ## Broadcasts -/

/-- The ids on whose handlers a traversal calls its callback, in order. -/
def traverseCalls (f : Globals → UInt32 → Connector.Handler → Globals) :
    List UInt32 → Globals → List UInt32
  | [], _ => []
  | id :: rest, g =>
      match g.activeHandlers[id]? with
      | none => []
      | some h =>
          let next := f g id h
          id :: if id ∈ next.activeHandlers then traverseCalls f rest next else []

/-- The first handler is erased, and the traversal goes on from there. -/
theorem traverse_disconnect {g : Globals} {id : UInt32} (rest : List UInt32)
    {h : Connector.Handler} (there : g.activeHandlers[id]? = some h) :
    traverse disconnectOne (id :: rest) g = { g.disconnectOne id h with undefined := true } ∧
      traverseCalls disconnectOne (id :: rest) g = [id] := by
  have gone : id ∉ (g.disconnectOne id h).activeHandlers := by
    rw [← TreeMap.isSome_getElem?_iff_mem, disconnectOne_lookup, if_pos rfl]
    decide
  constructor
  · simp only [traverse, there, if_neg gone]
  · simp only [traverseCalls, there, if_neg gone]

/-- The ids a DISCONNECT command with the broadcast target calls `disconnect()` on. -/
def broadcastCalls (g : Globals) : List UInt32 :=
  traverseCalls disconnectOne g.activeHandlers.keys
    (g.gLog .DEBUG (text "disconnect command received") [])

/-- The command DISCONNECT with the broadcast target. -/
theorem disconnect_broadcast (g : Globals) (messageId : UInt32) :
    (g.activeHandlers.keys = [] ∧ g.broadcastCalls = [] ∧
      g.disconnect ⟨COMMAND_DISCONNECT, messageId, [BROADCAST_TARGET]⟩ =
        g.gLog .DEBUG (text "disconnect command received") []) ∨
    ∃ id rest h, g.activeHandlers.keys = id :: rest ∧ g.activeHandlers[id]? = some h ∧
      g.broadcastCalls = [id] ∧
      g.disconnect ⟨COMMAND_DISCONNECT, messageId, [BROADCAST_TARGET]⟩ =
        { (g.gLog .DEBUG (text "disconnect command received") []).disconnectOne id h with
          undefined := true } := by
  have command : g.disconnect ⟨COMMAND_DISCONNECT, messageId, [BROADCAST_TARGET]⟩ =
      traverse disconnectOne g.activeHandlers.keys
        (g.gLog .DEBUG (text "disconnect command received") []) := by
    rw [disconnect, foreachHandlers, if_pos rfl]
    rfl
  cases ids : g.activeHandlers.keys with
  | nil =>
      rw [command, broadcastCalls, ids]
      exact Or.inl ⟨rfl, rfl, rfl⟩
  | cons id rest =>
      have member : id ∈ g.activeHandlers := TreeMap.mem_keys.1 (by rw [ids]; exact List.mem_cons_self)
      obtain ⟨h, found⟩ := Option.isSome_iff_exists.1 (TreeMap.isSome_getElem?_iff_mem.2 member)
      have there : (g.gLog .DEBUG (text "disconnect command received")
          []).activeHandlers[id]? = some h := found
      obtain ⟨result, calls⟩ := traverse_disconnect rest there
      rw [command, broadcastCalls, ids]
      exact Or.inr ⟨id, rest, h, rfl, found, calls, result⟩

end Globals

/-! ## The message -/

namespace Handler

/-- What is done with a COMMAND message behind its handling. -/
def commanded (h : Handler) (g : Globals) (r : Globals × Handler) : Globals × Handler :=
  let served := r.1.serve (.commanded h.id (messagePayload h.readQueue.buffer) g.activeHandlers
    r.1.activeHandlers)
  ({ served with clock := served.clock + 1 },
    { r.2.nextMessage with state := (r.2.state &&& SEND_MASK &&& SEND_MASK) ||| RECV_HEADER })

@[simp] theorem commanded_activeHandlers (h : Handler) (g : Globals) (r : Globals × Handler) :
    (h.commanded g r).1.activeHandlers = r.1.activeHandlers := rfl

@[simp] theorem commanded_inactiveHandlers (h : Handler) (g : Globals) (r : Globals × Handler) :
    (h.commanded g r).1.inactiveHandlers = r.1.inactiveHandlers := rfl

@[simp] theorem commanded_undefined (h : Handler) (g : Globals) (r : Globals × Handler) :
    (h.commanded g r).1.undefined = r.1.undefined := rfl

end Handler

/-- A COMMAND message with a payload is handled by `handle_message_recv`. -/
theorem Ready.process_command {h : Handler} {payload : List UInt8}
    (ready : Ready h COMMAND payload) (some_ : payload ≠ []) (cfg : Config) (g : Globals) :
    h.process cfg g = h.commanded (h.warned g) (h.take.handleMessageRecv (h.warned g)
      (commandMsg h.readQueue.buffer (Handler.outside (h.warned g)).beyond)) := by
  have kind : messageType h.take.readQueue.buffer = COMMAND := ready.type
  have other : ¬ messageType h.take.readQueue.buffer = BITCOIN_PACKED_MESSAGE := by
    rw [kind]
    decide
  rw [ready.process_payload cfg g some_]
  simp only [Handler.receivePayload, Handler.payloadSwitch, if_neg other, if_pos kind]
  rfl

/-- Every handler that was active is disconnected exactly once, none is active any more, and
nothing undefined has happened. -/
def DisconnectedAll (before : Globals) (calls : List UInt32) (after : Globals) : Prop :=
  (∀ id, calls.count id = if id ∈ before.activeHandlers then 1 else 0) ∧
    (∀ id : UInt32, after.activeHandlers[id]? = none) ∧ after.undefined = false

/-- A DISCONNECT command with the broadcast target disconnects every active handler
exactly once, leaves none and never steps from an erased element, exactly if there is
no active handler. -/
theorem broadcast_disconnect_iff (cfg : Config) (g : Globals) (defined : g.undefined = false)
    (h : Handler) (messageId : UInt32)
    (ready : Ready h COMMAND (commandPayload COMMAND_DISCONNECT messageId [BROADCAST_TARGET])) :
    DisconnectedAll g (h.warned g).broadcastCalls (h.process cfg g).1 ↔
      ∀ id : UInt32, g.activeHandlers[id]? = none := by
  have decoded := commandMsg_eq ready.inside ready.payload_eq (Handler.outside (h.warned g)).beyond
  have result : h.process cfg g = h.commanded (h.warned g) ((h.warned g).disconnect
      ⟨COMMAND_DISCONNECT, messageId, [BROADCAST_TARGET]⟩, h.take) := by
    rw [ready.process_command (by simp [commandPayload]), decoded]
    rfl
  rw [result]
  simp only [DisconnectedAll, Handler.commanded_activeHandlers, Handler.commanded_undefined]
  obtain ⟨none_, calls, same⟩ | ⟨id, rest, k, ids, found, calls, same⟩ :=
    (h.warned g).disconnect_broadcast messageId
  · have nobody : ∀ id : UInt32, g.activeHandlers[id]? = none := by
      intro id
      rw [← h.warned_activeHandlers g]
      apply TreeMap.getElem?_eq_none
      rw [← TreeMap.mem_keys, none_]
      exact List.not_mem_nil
    rw [same, calls]
    refine ⟨fun _ => nobody, fun _ => ⟨?_, ?_, ?_⟩⟩
    · intro id
      rw [if_neg, List.count_nil]
      rw [← TreeMap.isSome_getElem?_iff_mem, nobody id]
      decide
    · intro id
      show (h.warned g).activeHandlers[id]? = none
      rw [h.warned_activeHandlers, nobody id]
    · show (h.warned g).undefined = false
      rw [h.warned_undefined, defined]
  · rw [same]
    constructor
    · rintro ⟨-, -, broken⟩
      cases broken
    · intro nobody
      rw [h.warned_activeHandlers, nobody id] at found
      cases found

/-- Two peers, with the ids 3 and 4. -/
def somePeers : Globals :=
  let peer := fun id => (Connector.Handler.new Connector.someConfig Connector.someEnv 0 5
    Connector.SEND_VERSION_INIT Connector.someAddr Connector.someAddr id).1
  { someGlobals with activeHandlers := (TreeMap.insert ∅ 3 (peer 3)).insert 4 (peer 4) }

/-- A DISCONNECT command with the broadcast target. -/
def someBroadcast : Chunk :=
  ⟨[0, 0, 0, 0, 13, 2] ++ commandPayload COMMAND_DISCONNECT 0 [BROADCAST_TARGET], by decide,
    by decide⟩

/-- Without peers nothing is called and nothing goes wrong. -/
theorem broadcast_disconnect_iff_nobody :
    DisconnectedAll someGlobals
      ((Handler.someMoment someGlobals someBroadcast).2.warned someGlobals).broadcastCalls
      ((Handler.someMoment someGlobals someBroadcast).2.process Connector.someConfig
        someGlobals).1 := by
  have ready : Ready (Handler.someMoment someGlobals someBroadcast).2 COMMAND
      (commandPayload COMMAND_DISCONNECT 0 [BROADCAST_TARGET]) :=
    Handler.someMoment_ready (by decide +kernel) (by decide +kernel) (by decide +kernel)
  exact (broadcast_disconnect_iff Connector.someConfig someGlobals rfl _ 0 ready).2
    fun id => TreeMap.getElem?_emptyc

/-- With two peers only the first is disconnected, the second stays active, and the
traversal goes on from an element that is erased. -/
theorem broadcast_disconnect_two_peers :
    Ready (Handler.someMoment somePeers someBroadcast).2 COMMAND
        (commandPayload COMMAND_DISCONNECT 0 [BROADCAST_TARGET]) ∧
      ((Handler.someMoment somePeers someBroadcast).2.warned somePeers).broadcastCalls = [3] ∧
      (((Handler.someMoment somePeers someBroadcast).2.process Connector.someConfig
        somePeers).1.activeHandlers[(4 : UInt32)]?).isSome = true ∧
      ¬ DisconnectedAll somePeers
        ((Handler.someMoment somePeers someBroadcast).2.warned somePeers).broadcastCalls
        ((Handler.someMoment somePeers someBroadcast).2.process Connector.someConfig
          somePeers).1 := by
  refine ⟨Handler.someMoment_ready (by decide +kernel) (by decide +kernel) (by decide +kernel),
    by decide +kernel, by decide +kernel, ?_⟩
  rintro ⟨-, -, defined⟩
  exact absurd defined (by decide +kernel)

end Coinscope.Control

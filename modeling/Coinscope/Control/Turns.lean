/-
# Control.Turns -- what becomes of each message of a control connection

A control connection takes a message in, queues what it answers, and leaves entries in the
history of the process.  The three belong together: they are a turn, and the connection is at
any time the list of its turns, whatever the other connections and the peers do in between.

* `Turned` -- the turns there are.
* `Ordinary` -- up to where the ids are what they seem and nothing undefined has happened.
* `Handler.round_turn` -- a round of `do_read` adds a turn or nothing.
* `Plane.Accounted`, `Plane.run_accounted` -- every run of the control connections.
* `Globals.disconnect_defined` -- what a DISCONNECT leaves that is outlived.
-/
import Coinscope.Control.Disconnection
import Coinscope.Control.Registry
import Coinscope.Control.Replies

namespace Coinscope.Control

open Coinscope.Shared
open Coinscope.Theory
open Coinscope.Theory.Bytes
open Coinscope.Theory.Framing
open Coinscope.Theory.Histories
open Coinscope.Theory.Runs
open Coinscope.Connector (RECV_MASK RECV_HEADER RECV_PAYLOAD)
open Std (TreeMap)

set_option autoImplicit false

/-! ## Turns -/

/-- The connection an entry is about. -/
def Served.connection : Served → UInt32
  | .registered connection _ _ => connection
  | .commanded connection _ _ _ => connection
  | .renamed connection => connection

/-- The entries about a connection. -/
def ofConnection (c : UInt32) (served : List Served) : List Served :=
  served.filter fun entry => entry.connection == c

/-- A message, the bytes it is answered with, and the entries it leaves. -/
structure Turn where
  message : UInt8 × List UInt8
  answer : List UInt8
  entries : List Served

/-- The handlers behind a well-formed DISCONNECT command are those it does not name. -/
def Dropped (payload : List UInt8) (before after : TreeMap UInt32 Connector.Handler) : Prop :=
  ∀ messageId targets, payload = commandPayload COMMAND_DISCONNECT messageId targets →
    Disconnected targets before after

/-- No connection was renamed and no id used up so far, and nothing undefined has happened. -/
def Ordinary (g : Globals) : Prop := Modest g.served ∧ g.undefined = false

/-- The turns of the connection `c`; that a message of the right length gets an id other than
zero and that a DISCONNECT is carried out takes an `ordinary` run. -/
inductive Turned (c : UInt32) (ordinary : Prop) : Turn → Prop
  | renamed (regid : UInt32) :
      Turned c ordinary ⟨(REGISTER, []), be 4 regid.toNat, [.renamed c]⟩
  | registered {payload : List UInt8} (some_ : payload ≠ []) (id : UInt32)
      (given : ordinary → ¬ Rejected payload → id ≠ 0) :
      Turned c ordinary
        ⟨(BITCOIN_PACKED_MESSAGE, payload), be 4 id.toNat, [.registered c payload id]⟩
  | listed {payload : List UInt8} (some_ : payload ≠ [])
      (asked : command payload = COMMAND_GET_CXN) (g : Globals) :
      Turned c ordinary ⟨(COMMAND, payload), g.connections,
        [.commanded c payload g.activeHandlers g.activeHandlers]⟩
  | commanded {payload : List UInt8} (some_ : payload ≠ [])
      (other : command payload ≠ COMMAND_GET_CXN) {before after : TreeMap UInt32 Connector.Handler}
      (dropped : ordinary → Dropped payload before after) :
      Turned c ordinary ⟨(COMMAND, payload), [], [.commanded c payload before after]⟩
  | passed {kind : UInt8} {payload : List UInt8} (register : ¬ (kind = REGISTER ∧ payload = []))
      (packed : ¬ (kind = BITCOIN_PACKED_MESSAGE ∧ payload ≠ []))
      (command : ¬ (kind = COMMAND ∧ payload ≠ [])) :
      Turned c ordinary ⟨(kind, payload), [], []⟩

theorem Turned.mono {c : UInt32} {ordinary later : Prop} {turn : Turn}
    (turned : Turned c ordinary turn) (earlier : later → ordinary) : Turned c later turn := by
  cases turned with
  | renamed regid => exact .renamed regid
  | registered some_ id given => exact .registered some_ id (given ∘ earlier)
  | listed some_ asked g => exact .listed some_ asked g
  | commanded some_ other dropped => exact .commanded some_ other (dropped ∘ earlier)
  | passed register packed command => exact .passed register packed command

/-- The entries of a turn are about its connection. -/
theorem Turned.own {c : UInt32} {ordinary : Prop} {turn : Turn} (turned : Turned c ordinary turn) :
    ∀ entry ∈ turn.entries, entry.connection = c := by
  intro entry member
  cases turned with
  | passed => cases member
  | renamed => rw [List.mem_singleton.1 member]; rfl
  | registered => rw [List.mem_singleton.1 member]; rfl
  | listed => rw [List.mem_singleton.1 member]; rfl
  | commanded => rw [List.mem_singleton.1 member]; rfl

/-- Nothing happens, or a turn does; and what was undefined stays undefined. -/
structure Advances (g : Globals) (h : Handler) (g' : Globals) (h' : Handler) : Prop where
  defined : g'.undefined = false → g.undefined = false
  turn : (h'.seen = h.seen ∧ h'.replies = h.replies ∧ g'.served = g.served) ∨
    ∃ turn, Turned h.id (Ordinary g') turn ∧ h'.seen = h.seen ++ [turn.message] ∧
      h'.replies.flatten = h.replies.flatten ++ turn.answer ∧
      g'.served = g.served ++ turn.entries

/-! ## One message -/

/-- A DISCONNECT that is outlived leaves the handlers it does not name. -/
theorem Globals.disconnect_defined (g : Globals) (messageId : UInt32) (targets : List UInt32)
    (defined : (g.disconnect ⟨COMMAND_DISCONNECT, messageId, targets⟩).undefined = false) :
    g.undefined = false ∧ Disconnected targets g.activeHandlers
      (g.disconnect ⟨COMMAND_DISCONNECT, messageId, targets⟩).activeHandlers := by
  obtain ⟨before, outlived⟩ := (g.disconnect_undefined_iff messageId targets).1 defined
  refine ⟨before, ?_⟩
  by_cases broadcast : targets = [BROADCAST_TARGET]
  · have none_ : g.activeHandlers.keys = [] := not_not.1 fun some_ => outlived ⟨broadcast, some_⟩
    have nobody : ∀ i : UInt32, g.activeHandlers[i]? = none := by
      intro i
      apply TreeMap.getElem?_eq_none
      intro member
      rw [← TreeMap.mem_keys, none_] at member
      cases member
    obtain ⟨log, result⟩ := foreachHandlers_nobody disconnectOne
      (g.gLog .DEBUG (text "disconnect command received") [])
      ⟨COMMAND_DISCONNECT, messageId, targets⟩ fun i _ => nobody i
    intro i
    rw [disconnect, result]
    show g.activeHandlers[i]? = _
    rw [nobody i, ite_self]
  · exact ((g.gLog .DEBUG (text "disconnect command received") []).foreachHandlers_disconnected
      ⟨COMMAND_DISCONNECT, messageId, targets⟩ broadcast).1

namespace Handler

@[simp] theorem warned_served (g : Globals) (h : Handler) : (h.warned g).served = g.served := by
  unfold warned
  split <;> rfl

theorem warned_same (g : Globals) (h : Handler) : SameTables g (h.warned g) := by
  unfold warned
  split
  · exact g.gLog_same ..
  · exact SameTables.refl g

@[simp] theorem warnedHeader_served (g : Globals) (h : Handler) :
    (h.warnedHeader g).served = g.served := by
  unfold warnedHeader
  split <;> rfl

theorem handleMessageRecv_listed (g : Globals) (h : Handler) {msg : CommandMsg}
    (asked : msg.command = COMMAND_GET_CXN) :
    h.handleMessageRecv g msg =
      (g.gLog .CTRL (text "All connections requested") [decimal h.regid.toNat],
        h.replyShared g.connections) := by
  rw [handleMessageRecv, if_pos asked]

/-- The branch COMMAND, on a message that is in the read buffer as a whole. -/
theorem handleMessageRecv_dropped (g : Globals) (h : Handler) {memory : List UInt8}
    (inside : messageSize + messageLength memory ≤ memory.length) (beyond : Nat → UInt8)
    (defined : (h.handleMessageRecv g (commandMsg memory beyond)).1.undefined = false) :
    Dropped (messagePayload memory) g.activeHandlers
      (h.handleMessageRecv g (commandMsg memory beyond)).1.activeHandlers := by
  intro messageId targets payload
  have msg := commandMsg_eq inside payload beyond
  have get : COMMAND_DISCONNECT ≠ COMMAND_GET_CXN := by decide
  have send : COMMAND_DISCONNECT ≠ COMMAND_SEND_MSG := by decide
  rw [msg, handleMessageRecv, if_neg get, if_neg send, if_pos rfl] at defined ⊢
  exact (g.disconnect_defined messageId targets defined).2

/-- Nothing becomes defined. -/
theorem handleMessageRecv_defined (g : Globals) (h : Handler) (msg : CommandMsg)
    (defined : (h.handleMessageRecv g msg).1.undefined = false) : g.undefined = false := by
  unfold handleMessageRecv at defined
  split at defined
  · exact defined
  · split at defined
    · exact (Globals.sendMsg_undefined g h.id msg).symm.trans defined
    · split at defined
      · rename_i command
        have whole : msg = ⟨COMMAND_DISCONNECT, msg.messageId, msg.targets⟩ := by
          rw [← command]
        rw [whole] at defined
        exact (g.disconnect_defined msg.messageId msg.targets defined).1
      · exact defined

end Handler

namespace Ready

variable {h : Handler} {kind : UInt8} {payload : List UInt8} (ready : Ready h kind payload)

include ready

theorem advances {g g' : Globals} {h' : Handler} {answer : List UInt8} {entries : List Served}
    (turned : Turned h.id (Ordinary g') ⟨(kind, payload), answer, entries⟩)
    (defined : g'.undefined = false → g.undefined = false) (seen : h'.seen = h.take.seen)
    (replies : h'.replies.flatten = h.replies.flatten ++ answer)
    (served : g'.served = g.served ++ entries) : Advances g h g' h' :=
  ⟨defined, .inr ⟨_, turned, seen.trans ready.take_seen, replies, served⟩⟩

/-- A message without payload. -/
theorem empty_turn (cfg : Config) (g : Globals) (none_ : payload = []) :
    Advances g h (h.process cfg g).1 (h.process cfg g).2 := by
  have empty : messageLength h.readQueue.buffer = 0 := by rw [ready.length, none_]; rfl
  have defined : (h.process cfg g).1.undefined = false → g.undefined = false :=
    (h.process_undefined cfg g (Or.inl (ready.empty none_))).symm.trans
  rw [ready.process_empty cfg g none_] at defined ⊢
  by_cases register : kind = REGISTER
  · subst register none_
    apply ready.advances (.renamed (Handler.outside (h.warnedHeader g)).nonce) defined
    · simp only [Handler.receiveHeader, ReadBuffer.setToRead, empty, if_true, if_pos ready.type]
      rfl
    · simp only [Handler.receiveHeader, ReadBuffer.setToRead, empty, if_true, if_pos ready.type]
      exact List.flatten_append.trans (congrArg _ List.flatten_singleton)
    · simp only [Handler.receiveHeader, ReadBuffer.setToRead, empty, if_true, if_pos ready.type]
      exact congrArg (· ++ [Served.renamed h.id]) (Handler.warnedHeader_served g h)
  · have other : ¬ messageType h.readQueue.buffer = REGISTER := by rw [ready.type]; exact register
    have passed : Turned h.id (Ordinary (h.receiveHeader g).1) ⟨(kind, payload), [], []⟩ := .passed
      (fun both => register both.1) (fun both => both.2 none_) (fun both => both.2 none_)
    apply ready.advances passed defined
    · simp only [Handler.receiveHeader, ReadBuffer.setToRead, empty, if_true, if_neg other]
      rfl
    · simp only [Handler.receiveHeader, ReadBuffer.setToRead, empty, if_true, if_neg other,
        List.append_nil]
      rfl
    · simp only [Handler.receiveHeader, ReadBuffer.setToRead, empty, if_true, if_neg other,
        List.append_nil]
      exact Handler.warnedHeader_served g h

/-- A COMMAND. -/
theorem command_turn (cfg : Config) (g : Globals) (is : kind = COMMAND) (some_ : payload ≠ []) :
    Advances g h (h.process cfg g).1 (h.process cfg g).2 := by
  subst is
  have first : (commandMsg h.readQueue.buffer (Handler.outside (h.warned g)).beyond).command =
      command payload := command_payloadAt ready (Handler.outside (h.warned g)).beyond some_
  have dropped := h.take.handleMessageRecv_dropped (h.warned g) ready.inside
    (Handler.outside (h.warned g)).beyond
  rw [ready.payload_eq] at dropped
  rw [ready.process_command some_]
  generalize commandMsg h.readQueue.buffer (Handler.outside (h.warned g)).beyond = msg at *
  have same := (Handler.handleMessageRecv_same (h.warned g) h.take msg).served
  have entry : (h.commanded (h.warned g) (h.take.handleMessageRecv (h.warned g) msg)).1.served =
      g.served ++ [.commanded h.id payload (h.warned g).activeHandlers
        (h.take.handleMessageRecv (h.warned g) msg).1.activeHandlers] := by
    show (h.take.handleMessageRecv (h.warned g) msg).1.served ++
      [Served.commanded h.id (messagePayload h.readQueue.buffer) _ _] = _
    rw [same, ready.payload_eq, Handler.warned_served]
  have defined : (h.commanded (h.warned g) (h.take.handleMessageRecv (h.warned g) msg)).1.undefined =
      false → g.undefined = false := by
    rw [Handler.commanded_undefined, ← h.warned_undefined g]
    exact Handler.handleMessageRecv_defined (h.warned g) h.take msg
  by_cases asked : command payload = COMMAND_GET_CXN
  · have listed := h.take.handleMessageRecv_listed (h.warned g) (first.trans asked)
    apply ready.advances (.listed some_ asked (h.warned g)) defined
    · rw [listed]
      rfl
    · rw [listed]
      exact List.flatten_append.trans (congrArg _ List.flatten_singleton)
    · rw [entry, listed]
      rfl
  · have silent := h.take.handleMessageRecv_silent (h.warned g) (first ▸ asked)
    have carried : Ordinary (h.commanded (h.warned g) (h.take.handleMessageRecv (h.warned g) msg)).1 →
        Dropped payload (h.warned g).activeHandlers
          (h.take.handleMessageRecv (h.warned g) msg).1.activeHandlers := by
      intro ordinary
      have outlived := ordinary.2
      rw [Handler.commanded_undefined] at outlived
      exact dropped outlived
    apply ready.advances (.commanded some_ asked carried) defined
    · simp only [Handler.commanded, silent]
      rfl
    · simp only [Handler.commanded, silent, List.append_nil]
      rfl
    · exact entry

/-- A BITCOIN_PACKED_MESSAGE. -/
theorem packed_turn {alive : UInt32 → Prop} (cfg : Config) {g : Globals} (tracked : Tracked alive g)
    (is : kind = BITCOIN_PACKED_MESSAGE) (some_ : payload ≠ []) :
    Advances g h (h.process cfg g).1 (h.process cfg g).2 := by
  subst is
  have type : messageType h.take.readQueue.buffer = BITCOIN_PACKED_MESSAGE := ready.type
  have whole : messagePayload h.take.readQueue.buffer = payload := ready.payload_eq
  have other : messageType h.readQueue.buffer ≠ COMMAND := by rw [ready.type]; decide
  have defined : (h.process cfg g).1.undefined = false → g.undefined = false :=
    (h.process_undefined cfg g (Or.inr other)).symm.trans
  rw [ready.process_payload cfg g some_] at defined ⊢
  have served : (h.receivePayload cfg g).1.served = g.served ++
      [.registered h.id payload ((h.warned g).register h.id h.regid payload).2] := by
    simp only [Handler.receivePayload, Handler.payloadSwitch, if_pos type, whole]
    show (Globals.register _ _ _ _).1.served ++ [_] = _
    rw [Globals.register_served]
    exact congrArg (· ++ _) (h.warned_served g)
  -- the counter of the ids is not zero
  have given : Ordinary (h.receivePayload cfg g).1 → ¬ Rejected payload →
      ((h.warned g).register h.id h.regid payload).2 ≠ 0 := by
    intro ordinary fine
    have modest := ordinary.1
    rw [served, ← h.warned_served g] at modest
    have registry := tracked.transfer (h.warned_same g) modest.initial
    obtain ⟨long, fits⟩ := not_not.1 fine
    rw [(register_fits registry _ _ long fits).1]
    exact registry.nonzero
  have turned : Turned h.id (Ordinary (h.receivePayload cfg g).1)
      ⟨(BITCOIN_PACKED_MESSAGE, payload), _, _⟩ := .registered some_ _ given
  apply ready.advances turned defined
  · simp only [Handler.receivePayload, Handler.payloadSwitch, if_pos type]
    rfl
  · simp only [Handler.receivePayload, Handler.payloadSwitch, if_pos type, whole]
    exact List.flatten_append.trans (congrArg _ List.flatten_singleton)
  · exact served

/-- A whole message, whatever it is. -/
theorem turn {alive : UInt32 → Prop} (cfg : Config) {g : Globals} (tracked : Tracked alive g) :
    Advances g h (h.process cfg g).1 (h.process cfg g).2 := by
  by_cases none_ : payload = []
  · exact ready.empty_turn cfg g none_
  by_cases asked : kind = COMMAND
  · exact ready.command_turn cfg g asked none_
  by_cases packed : kind = BITCOIN_PACKED_MESSAGE
  · exact ready.packed_turn cfg tracked packed none_
  have type : messageType h.take.readQueue.buffer = kind := ready.type
  have other : (h.take.payloadSwitch cfg (h.warned g)).2 = h.take ∧
      (h.take.payloadSwitch cfg (h.warned g)).1.served = (h.warned g).served := by
    simp only [Handler.payloadSwitch, type, if_neg packed, if_neg asked]
    split
    · exact ⟨rfl, (Globals.connect_same ..).served⟩
    · exact ⟨rfl, rfl⟩
  have defined : (h.process cfg g).1.undefined = false → g.undefined = false :=
    (h.process_undefined cfg g (Or.inr (ready.type ▸ asked))).symm.trans
  rw [ready.process_payload cfg g none_] at defined ⊢
  have passed : Turned h.id (Ordinary (h.receivePayload cfg g).1) ⟨(kind, payload), [], []⟩ :=
    .passed (fun both => none_ both.2) (fun both => packed both.1) (fun both => asked both.1)
  apply ready.advances passed defined
  · show (h.take.payloadSwitch cfg (h.warned g)).2.seen = _
    rw [other.1]
  · show (h.take.payloadSwitch cfg (h.warned g)).2.replies.flatten = _
    rw [other.1, List.append_nil]
    rfl
  · show (h.take.payloadSwitch cfg (h.warned g)).1.served = _
    rw [other.2, h.warned_served, List.append_nil]

end Ready

/-! ## A callback -/

namespace Handler

/-- A header with a payload to come leaves no entry. -/
theorem receiveHeader_served (g : Globals) {h : Handler}
    (more : ¬ messageLength h.readQueue.buffer = 0) :
    (h.receiveHeader g).1.served = g.served := by
  unfold receiveHeader
  simp only
  split
  · rename_i none_
    exact absurd none_ more
  · exact h.warnedHeader_served g

/-- One round of `do_read`: a header, or a message and its turn. -/
theorem round_turn {alive : UInt32 → Prop} (cfg : Config) {g : Globals} {h : Handler}
    (sound : Sound h) (tracked : Tracked alive g) {inbox : List RecvResult} {bytes : List UInt8}
    (valid : (h.readQueue.fill inbox).queue.Valid)
    (full : ReadBuffer.Filled h.readQueue inbox (h.readQueue.fill inbox) bytes) :
    Advances g (h.filled (h.readQueue.fill inbox))
      ((h.filled (h.readQueue.fill inbox)).process cfg g).1
      ((h.filled (h.readQueue.fill inbox)).process cfg g).2 := by
  by_cases whole : (h.filled (h.readQueue.fill inbox)).readQueue.held.length =
      messageSize + messageLength (h.filled (h.readQueue.fill inbox)).readQueue.held
  · exact (ready_of_filled sound valid full whole).turn cfg tracked
  · cases sound.phase.full full.length full.held with
    | payload _ count => exact absurd count whole
    | header state count =>
        have kept := filled_kept sound.toKept valid full.held full.conserved
        have length := messageLength_buffer (h := h.filled (h.readQueue.fill inbox)) kept.reads
          (Nat.le_of_eq count.symm)
        have header : (h.filled (h.readQueue.fill inbox)).state &&& RECV_MASK = RECV_HEADER := state
        have more : ¬ messageLength (h.filled (h.readQueue.fill inbox)).readQueue.buffer = 0 := by
          rw [length]
          intro zero
          apply whole
          rw [zero]
          exact count
        rw [process, if_pos header]
        exact ⟨(receiveHeader_undefined g _).symm.trans, .inl ⟨(receiveHeader_sized g more).1,
          (receiveHeader_sized g more).2, receiveHeader_served g more⟩⟩

end Handler

/-- The connection is the list of its turns: the messages taken in, the bytes queued for them, and
the entries about it. -/
def Turns (g : Globals) (h : Handler) : Prop :=
  ∃ turns : List Turn, (∀ turn ∈ turns, Turned h.id (Ordinary g) turn) ∧
    h.seen = turns.map (·.message) ∧ h.replies.flatten = turns.flatMap (·.answer) ∧
    ofConnection h.id g.served = turns.flatMap (·.entries)

/-- More entries, all of them about the connection `c`; what was undefined stays undefined. -/
structure Grows (c : UInt32) (g g' : Globals) : Prop where
  defined : g'.undefined = false → g.undefined = false
  entries : ∃ more, g'.served = g.served ++ more ∧ ∀ entry ∈ more, entry.connection = c

theorem ofConnection_own {c : UInt32} {entries : List Served}
    (own : ∀ entry ∈ entries, entry.connection = c) : ofConnection c entries = entries := by
  refine List.filter_eq_self.2 fun entry member => ?_
  simp [own entry member]

theorem ofConnection_other {c c' : UInt32} (other : c' ≠ c) {entries : List Served}
    (own : ∀ entry ∈ entries, entry.connection = c') : ofConnection c entries = [] := by
  refine List.filter_eq_nil_iff.2 fun entry member => ?_
  simp [own entry member, other]

theorem ofConnection_append (c : UInt32) (a b : List Served) :
    ofConnection c (a ++ b) = ofConnection c a ++ ofConnection c b := List.filter_append ..

namespace Grows

theorem of_same (c : UInt32) {g g' : Globals} (served : g'.served = g.served)
    (undefined : g'.undefined = g.undefined) : Grows c g g' :=
  ⟨undefined.symm.trans, [], by rw [served, List.append_nil], List.forall_mem_nil _⟩

theorem refl (c : UInt32) (g : Globals) : Grows c g g := .of_same c rfl rfl

theorem trans {c : UInt32} {g₁ g₂ g₃ : Globals} (first : Grows c g₁ g₂) (second : Grows c g₂ g₃) :
    Grows c g₁ g₃ := by
  obtain ⟨more, served, own⟩ := first.entries
  obtain ⟨again, served', own'⟩ := second.entries
  refine ⟨first.defined ∘ second.defined, more ++ again, ?_, ?_⟩
  · rw [served', served, List.append_assoc]
  · intro entry member
    rcases List.mem_append.1 member with early | late
    · exact own entry early
    · exact own' entry late

/-- The entries about another connection are the same. -/
theorem other {c c' : UInt32} {g g' : Globals} (grows : Grows c g g') (apart : c ≠ c') :
    ofConnection c' g'.served = ofConnection c' g.served := by
  obtain ⟨more, served, own⟩ := grows.entries
  rw [served, ofConnection_append, ofConnection_other apart own, List.append_nil]

theorem ordinary {c : UInt32} {g g' : Globals} (grows : Grows c g g') (ordinary : Ordinary g') :
    Ordinary g := by
  obtain ⟨more, served, -⟩ := grows.entries
  have modest := ordinary.1
  rw [served] at modest
  exact ⟨modest.initial, grows.defined ordinary.2⟩

end Grows

theorem Turns.earlier {g g' : Globals} {h : Handler} (turns : Turns g h)
    (later : Ordinary g' → Ordinary g)
    (same : ofConnection h.id g'.served = ofConnection h.id g.served) : Turns g' h := by
  obtain ⟨list, each, seen, replies, entries⟩ := turns
  exact ⟨list, fun turn member => (each turn member).mono later, seen, replies,
    same.trans entries⟩

theorem Advances.grows {g g' : Globals} {h h' : Handler} (advances : Advances g h g' h') :
    Grows h.id g g' := by
  refine ⟨advances.defined, ?_⟩
  rcases advances.turn with ⟨-, -, same⟩ | ⟨turn, turned, -, -, served⟩
  · exact ⟨[], by rw [same, List.append_nil], List.forall_mem_nil _⟩
  · exact ⟨turn.entries, served, turned.own⟩

theorem Advances.turns {g g' : Globals} {h h' : Handler} (advances : Advances g h g' h')
    (id : h'.id = h.id) (turns : Turns g h) : Turns g' h' := by
  have earlier := advances.grows.ordinary
  obtain ⟨list, each, seen, replies, entries⟩ := turns
  rcases advances.turn with ⟨seen', replies', same⟩ | ⟨turn, turned, seen', replies', served⟩
  · refine ⟨list, ?_, seen'.trans seen, ?_, ?_⟩
    · intro other member
      rw [id]
      exact (each other member).mono earlier
    · rw [replies', replies]
    · rw [id, same, entries]
  · refine ⟨list ++ [turn], ?_, ?_, ?_, ?_⟩
    · intro other member
      rw [id]
      rcases List.mem_append.1 member with early | last
      · exact (each other early).mono earlier
      · rw [List.mem_singleton.1 last]
        exact turned
    · rw [seen', seen, List.map_append, List.map_singleton]
    · rw [replies', replies, List.flatMap_append, List.flatMap_singleton]
    · rw [id, served, ofConnection_append, entries, ofConnection_own turned.own,
        List.flatMap_append, List.flatMap_singleton]

namespace Handler

variable {alive : UInt32 → Prop}

theorem Reading.turns {cfg : Config} {g g' : Globals} {h h' : Handler} {inbox : List RecvResult}
    (reading : Reading cfg g h inbox g' h') (sound : Sound h) (lives : alive h.id)
    (tracked : Tracked alive g) (turns : Turns g h) : Grows h.id g g' ∧ Turns g' h' := by
  induction reading with
  | blocked valid short => exact ⟨.refl .., turns⟩
  | ended kind val args valid short => exact ⟨.of_same _ rfl rfl, turns⟩
  | @round g h inbox bytes g' h' valid full next ih =>
      have processed := round_processed cfg g sound valid full
      have kept := filled_kept sound.toKept valid full.held full.conserved
      have turn := round_turn cfg sound tracked valid full
      have id : ((h.filled (h.readQueue.fill inbox)).process cfg g).2.id = h.id := processed.id
      obtain ⟨grows, after⟩ := ih processed.sound (by rw [id]; exact lives)
        (process_tracked cfg tracked lives kept (sound.phase.full full.length full.held))
        (turn.turns processed.id turns)
      rw [id] at grows
      exact ⟨turn.grows.trans grows, after⟩

theorem doWrite_turns (cfg : Config) (g : Globals) (h : Handler) (outbox : List WriteResult)
    (turns : Turns g h) :
    Grows h.id g (h.doWrite cfg g outbox).1 ∧
      Turns (h.doWrite cfg g outbox).1 (h.doWrite cfg g outbox).2 := by
  obtain ⟨seen, replies⟩ := doWrite_answers cfg g h outbox
  have served := (doWrite_same cfg g h outbox).served
  have grows := Grows.of_same h.id served (doWrite_undefined cfg g h outbox)
  refine ⟨grows, ?_⟩
  have later := turns.earlier grows.ordinary (by rw [served])
  rw [Turns, seen, replies, (doWrite_reads cfg g h outbox).2.2]
  exact later

theorem ioCb_turns (cfg : Config) {g : Globals} {h : Handler} (settled : Settled h)
    (lives : alive h.id) (tracked : Tracked alive g) (turns : Turns g h) (revents : Events)
    (inbox : List RecvResult) (outbox : List WriteResult) :
    Grows h.id g (h.ioCb cfg g revents inbox outbox).1 ∧
      Turns (h.ioCb cfg g revents inbox outbox).1 (h.ioCb cfg g revents inbox outbox).2 := by
  have sound := settled.sound
  have called := ioCb_called cfg g h revents inbox outbox
  generalize h.ioCb cfg g revents inbox outbox = result at called ⊢
  obtain ⟨r, w, read, write⟩ := called
  have taken : Sound r.2 ∧ r.2.id = h.id ∧ Grows h.id g r.1 ∧ Turns r.1 r.2 := by
    rcases read with ⟨-, -, rfl⟩ | ⟨-, rfl⟩
    · have reading := doRead_reading cfg g inbox sound
      have read := reading.read sound
      exact ⟨read.sound, read.id, reading.turns sound lives tracked turns⟩
    · exact ⟨sound, rfl, .refl .., turns⟩
  rw [asserted_of_sound taken.1] at write
  obtain ⟨-, same, grown, after⟩ := taken
  have wrote : Grows h.id r.1 w.1 ∧ Turns w.1 w.2 := by
    rcases write with ⟨-, rfl⟩ | ⟨-, rfl⟩
    · rw [← same]
      exact doWrite_turns cfg r.1 r.2 outbox after
    · exact ⟨.refl .., after⟩
  refine ⟨grown.trans wrote.1, ?_⟩
  simp only
  split
  · exact wrote.2
  · exact wrote.2

end Handler

/-! ## The control connections -/

namespace Plane

/-- As long as the ids of the connections are distinct, every connection is the list of its turns,
and there are no entries about those to come. -/
structure Accounted (p : Plane) : Prop where
  consistent : Consistent p
  turns : p.accepted < 2 ^ 32 → ∀ (k : Nat) (h : Handler), p.connections[k]? = some h →
    Turns p.globals h
  unborn : p.accepted < 2 ^ 32 → ∀ c : UInt32, p.accepted ≤ c.toNat →
    ofConnection c p.globals.served = []

theorem start_accounted (blacklist : SockaddrStorage → Bool) (tape : Nat → Outside) :
    Accounted (start blacklist tape) := by
  refine ⟨start_consistent blacklist tape, ?_, fun _ _ _ => rfl⟩
  intro _ k h found
  rw [start, TreeMap.getElem?_emptyc] at found
  cases found

theorem Accounted.accept {p : Plane} (accounted : Accounted p) (fd : Nat) (regid : UInt32) :
    Accounted (p.accept fd regid) := by
  have consistent := accounted.consistent
  refine ⟨(consistent.opened fd regid).deleted, ?_, ?_⟩
  · intro few k h found
    have less : p.accepted < 2 ^ 32 := Nat.lt_of_succ_lt few
    rw [Plane.accept, deleteInactive, TreeMap.getElem?_filter'] at found
    rcases insert_cases (Option.filter_eq_some_iff.1 found).1 with ⟨rfl, rfl⟩ | old
    · -- nothing was said about the new connection yet
      refine ⟨[], List.forall_mem_nil _, rfl, rfl, ?_⟩
      refine accounted.unborn less _ (Nat.le_of_eq ?_)
      show p.accepted = p.idPool.toNat
      rw [consistent.pool, UInt32.toNat_ofNat_of_lt' less]
    · exact accounted.turns less k h old
  · intro few c later
    exact accounted.unborn (Nat.lt_of_succ_lt few) c (Nat.le_of_succ_le later)

theorem Accounted.callback {p : Plane} (accounted : Accounted p) (cfg : Config) (c : Nat)
    (revents : Events) (inbox : List RecvResult) (outbox : List WriteResult) :
    Accounted (p.callback cfg c revents inbox outbox) := by
  have consistent := accounted.consistent
  have after := consistent.callback cfg c revents inbox outbox
  revert after
  unfold Plane.callback
  split
  · exact fun _ => accounted
  · rename_i h here
    split
    · intro after
      have settled := consistent.settled c h here
      have grown : p.accepted < 2 ^ 32 →
          Grows h.id p.globals (h.ioCb cfg p.globals revents inbox outbox).1 ∧
          Turns (h.ioCb cfg p.globals revents inbox outbox).1
            (h.ioCb cfg p.globals revents inbox outbox).2 := fun few =>
        Handler.ioCb_turns cfg settled (Or.inl ⟨c, h, here, rfl⟩) (consistent.tracked few)
          (accounted.turns few c h here) revents inbox outbox
      refine ⟨after, ?_, ?_⟩
      · intro few k k' found
        by_cases same : k = c
        · subst same
          rw [Tables.getElem?_insert, if_pos rfl] at found
          cases found
          exact (grown few).2
        · -- the ids of two connections differ
          rw [Tables.getElem?_insert, if_neg same] at found
          have apart : h.id ≠ k'.id := by
            intro ids
            apply same
            rw [← consistent.toNat_id few found, ← ids, consistent.toNat_id few here]
          exact (accounted.turns few k k' found).earlier (grown few).1.ordinary
            ((grown few).1.other apart)
      · intro few i later
        have apart : h.id ≠ i := by
          rintro rfl
          have older := consistent.older c h here
          rw [consistent.toNat_id few here] at later
          exact Nat.lt_irrefl _ (Nat.lt_of_lt_of_le older later)
        exact ((grown few).1.other apart).trans (accounted.unborn few i later)
    · exact fun _ => accounted

theorem step_accounted (cfg : Config) (p : Plane) (e : PlaneEvent) (accounted : Accounted p) :
    Accounted (p.step cfg e) := by
  cases e with
  | accept fd regid => exact accounted.accept fd regid
  | callback c revents inbox outbox => exact accounted.callback cfg c revents inbox outbox
  | peers activeHandlers inactiveHandlers idPool lastBlock blacklist attempts =>
      exact ⟨step_consistent cfg p (.peers activeHandlers inactiveHandlers idPool lastBlock
        blacklist attempts) accounted.consistent, accounted.turns, accounted.unborn⟩

theorem run_accounted (cfg : Config) (blacklist : SockaddrStorage → Bool) (tape : Nat → Outside)
    (events : List PlaneEvent) : Accounted (run (Plane.step cfg) (start blacklist tape) events) :=
  run_keeps (step_accounted cfg) (start_accounted blacklist tape) events

end Plane

end Coinscope.Control

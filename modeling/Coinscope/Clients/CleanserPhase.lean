/-
# Clients.CleanserPhase -- a script and the connector

The sending steps of `cleanser_phase.py` take every squatter transaction and then the cleanser
transaction to the connector, once for every target.  What they send is a message to register,
each on a connection of its own; that a registered message is sent to a target takes a command
that refers to it by its id, on the connection it was registered on, and the script has none.

A run of the control plane in which the connections of the script deliver its frames, in
whatever pieces and in whatever order of the connections, leaves the handlers of the peers as
they were.

* `sendingSteps` -- the frames the script sends.
* `Executes` -- a run of the control plane that takes them in.
* `Reaches` -- the transactions are appended to the write queues of the targets.
* `cleanser_reaches_iff` -- that happens if there are no targets.
-/
import Coinscope.Clients.PythonCommands
import Coinscope.Connector.Outgoing
import Coinscope.Control.Changes
import Coinscope.Control.Registry
import Coinscope.Control.Replies

namespace Coinscope.Clients

open Coinscope.Shared
open Coinscope.Theory.Bytes
open Coinscope.Theory.Framing
open Coinscope.Theory.Runs
open Coinscope.Control
open Std (TreeMap)

set_option autoImplicit false

/-! ## The script -/

/-- An entry of `targets`. -/
structure Target where
  host : List Char
  port : Nat
  deriving DecidableEq

/-- `MAGIC`. -/
def MAGIC : Nat := 0x283F161C

/-- `struct.pack("<I", n)`; `none` is an exception. -/
def packLittle (n : Nat) : Option (List UInt8) := if n < 2 ^ 32 then some (le 4 n) else none

/-- `make_packed_message(command, payload)`. -/
def makePackedMessage (sha256 : List UInt8 → List UInt8) (command : List Char)
    (payload : List UInt8) : Option (List UInt8) := do
  let magicBytes ← packLittle MAGIC
  let cmdBytes := (ascii command ++ List.replicate (12 - command.length) 0).take 12
  let lengthBytes ← packLittle payload.length
  let checksum := (sha256 (sha256 payload)).take 4
  some (magicBytes ++ cmdBytes ++ lengthBytes ++ checksum ++ payload)

/-- `bitcoin_msg(payload).serialize()`. -/
def serializeBitcoinMsg (payload : List UInt8) : Option (List UInt8) := do
  let version ← packB 0
  let length ← packI payload.length
  let type ← packB BITCOIN_PACKED_MESSAGE.toNat
  some (version ++ length ++ type ++ payload)

/-- What is sent for a transaction. -/
def txFrame (sha256 : List UInt8 → List UInt8) (tx : List UInt8) : Option (List UInt8) :=
  (makePackedMessage sha256 ['t', 'x'] tx).bind serializeBitcoinMsg

/-- The frames of some calls of `send_to_connector`, up to the first exception. -/
def sentFrames : List (Option (List UInt8)) → List (List UInt8)
  | some frame :: rest => frame :: sentFrames rest
  | _ => []

/-- Steps 6 and 7 of `main`. -/
def sendingSteps (sha256 : List UInt8 → List UInt8) (targets : List Target)
    (squatters : List (List UInt8)) (cleanser : List UInt8) : List (List UInt8) :=
  sentFrames ((targets.flatMap fun _ => squatters.map (txFrame sha256)) ++
    targets.map fun _ => txFrame sha256 cleanser)

/-- A frame that registers a message. -/
def Registers (frame : List UInt8) : Prop :=
  controls.Complete frame ∧ (content frame).1 = BITCOIN_PACKED_MESSAGE

theorem layout_complete {type : UInt8} {payload : List UInt8} (small : payload.length < 2 ^ 32) :
    controls.Complete (EasyMessage.layout type payload.length payload) := by
  have length := EasyMessage.messageLength_layout type payload.length payload []
  rw [List.append_nil, Nat.mod_eq_of_lt (by omega)] at length
  constructor
  · show messageSize ≤ _
    rw [EasyMessage.length_layout]
    exact Nat.le_add_right ..
  · rw [controls_size, length, EasyMessage.length_layout]

theorem layout_registers {payload : List UInt8} (small : payload.length < 2 ^ 32) :
    Registers (EasyMessage.layout BITCOIN_PACKED_MESSAGE payload.length payload) :=
  ⟨layout_complete small, congrArg Prod.fst (EasyMessage.content_layout ..)⟩

theorem serializeBitcoinMsg_registration {payload frame : List UInt8}
    (sent : serializeBitcoinMsg payload = some frame) : Registers frame := by
  have zero : packB 0 = some [0] := rfl
  unfold serializeBitcoinMsg at sent
  by_cases small : payload.length < 2 ^ 32
  · have length : packI payload.length = some (be 4 payload.length) := if_pos small
    simp only [zero, length, packB_toNat, Option.bind_eq_bind, Option.bind_some] at sent
    obtain rfl : EasyMessage.layout BITCOIN_PACKED_MESSAGE payload.length payload = frame :=
      Option.some.inj sent
    exact layout_registers small
  · have long : packI payload.length = none := if_neg small
    simp only [zero, long, Option.bind_eq_bind, Option.bind_some, Option.bind_none] at sent
    cases sent

theorem txFrame_registration {sha256 : List UInt8 → List UInt8} {tx frame : List UInt8}
    (sent : txFrame sha256 tx = some frame) : Registers frame := by
  obtain ⟨packed, -, serialized⟩ := Option.bind_eq_some_iff.1 sent
  exact serializeBitcoinMsg_registration serialized

theorem mem_sentFrames {calls : List (Option (List UInt8))} {frame : List UInt8}
    (member : frame ∈ sentFrames calls) : some frame ∈ calls := by
  induction calls with
  | nil => cases member
  | cons call rest ih =>
      cases call with
      | none => cases member
      | some first =>
          rcases List.mem_cons.1 member with rfl | later
          · exact List.mem_cons_self
          · exact List.mem_cons_of_mem _ (ih later)

/-- Whatever the script sends registers a message. -/
theorem sendingSteps_registration {sha256 : List UInt8 → List UInt8} {targets : List Target}
    {squatters : List (List UInt8)} {cleanser frame : List UInt8}
    (member : frame ∈ sendingSteps sha256 targets squatters cleanser) : Registers frame := by
  have tx : ∃ tx, txFrame sha256 tx = some frame := by
    rcases List.mem_append.1 (mem_sentFrames member) with early | late
    · obtain ⟨-, -, listed⟩ := List.mem_flatMap.1 early
      obtain ⟨tx, -, sent⟩ := List.mem_map.1 listed
      exact ⟨tx, sent⟩
    · obtain ⟨-, -, sent⟩ := List.mem_map.1 late
      exact ⟨cleanser, sent⟩
  obtain ⟨tx, sent⟩ := tx
  exact txFrame_registration sent

/-! ## Connections that command nothing -/

/-- No message that was taken in is a command or an order to connect. -/
def Innocent (h : Control.Handler) : Prop := ∀ m ∈ h.seen, m.1 ≠ COMMAND ∧ m.1 ≠ CONNECT

/-- A connection that has taken in a part of a registration is innocent. -/
theorem innocent_of_registration {h : Control.Handler} (sound : Sound h)
    (dry : h.readQueue.unread = []) {frame : List UInt8} (registers : Registers frame)
    (before : h.got <+: frame) : Innocent h := by
  obtain ⟨frames, complete, seen, got⟩ := sound.whole
  rw [dry, List.append_nil] at got
  have front : frames.flatten <+: frame :=
    (List.prefix_append _ h.readQueue.held).trans (got ▸ before)
  intro m member
  rw [seen] at member
  obtain ⟨f, listed, rfl⟩ := List.mem_map.1 member
  obtain rfl := registers.1.only_frame controls complete front listed
  rw [registers.2]
  decide

/-- The `switch` of `do_read` touches the handlers of the peers for a command or an order to
connect only. -/
theorem process_untouched (cfg : Config) (g : Globals) (h : Control.Handler)
    (innocent : Innocent (h.process cfg g).2) :
    (h.process cfg g).1.activeHandlers = g.activeHandlers := by
  unfold Control.Handler.process at innocent ⊢
  split
  · exact (Control.Handler.receiveHeader_noted g h).activeHandlers
  · rename_i noHeader
    rw [if_neg noHeader] at innocent
    split
    · rename_i isPayload
      rw [if_pos isPayload] at innocent
      have kind : messageType h.readQueue.buffer ≠ COMMAND ∧
          messageType h.readQueue.buffer ≠ CONNECT := by
        apply innocent (messageType h.readQueue.buffer, messagePayload h.readQueue.buffer)
        show _ ∈ (h.take.payloadSwitch cfg (h.warned g)).2.seen
        rw [(Control.Handler.payloadSwitch_replied cfg (h.warned g) h.take).seen]
        exact List.mem_append_right _ (List.mem_singleton_self _)
      show (h.take.payloadSwitch cfg (h.warned g)).1.activeHandlers = _
      have same : h.take.readQueue = h.readQueue := rfl
      rw [Control.Handler.payloadSwitch]
      simp only [same, if_neg kind.1, if_neg kind.2]
      split
      · exact (Globals.register_noted ..).activeHandlers.trans (Control.Handler.warned_activeHandlers ..)
      · exact Control.Handler.warned_activeHandlers ..
    · rfl

theorem Innocent.earlier {h h' : Control.Handler} (innocent : Innocent h')
    (more : h.seen <+: h'.seen) : Innocent h :=
  fun m member => innocent m (more.subset member)

/-- So do the rounds of `do_read`. -/
theorem reading_untouched {cfg : Config} {g g' : Globals} {h h' : Control.Handler}
    {inbox : List RecvResult} (reading : Control.Handler.Reading cfg g h inbox g' h')
    (sound : Sound h) : h.seen <+: h'.seen ∧
      (Innocent h' → g'.activeHandlers = g.activeHandlers) := by
  induction reading with
  | blocked => exact ⟨List.prefix_refl _, fun _ => rfl⟩
  | ended => exact ⟨List.prefix_refl _, fun _ => rfl⟩
  | @round g h inbox bytes g' h' valid full next ih =>
      have processed := Control.Handler.round_processed cfg g sound valid full
      obtain ⟨later, untouched⟩ := ih processed.sound
      have first : h.seen <+: ((h.filled (h.readQueue.fill inbox)).process cfg g).2.seen := by
        rcases Control.Handler.round_adds cfg g sound valid full with ⟨same, -⟩ | ⟨m, -, -, more, -⟩
        · rw [same]
          exact List.prefix_refl _
        · rw [more]
          exact List.prefix_append ..
      refine ⟨first.trans later, ?_⟩
      intro innocent
      exact (untouched innocent).trans (process_untouched cfg g _ (innocent.earlier later))

theorem doWrite_untouched (cfg : Config) (g : Globals) (h : Control.Handler)
    (outbox : List WriteResult) : (h.doWrite cfg g outbox).1.activeHandlers = g.activeHandlers := by
  unfold Control.Handler.doWrite
  simp only
  split
  · rfl
  · rfl
  · rfl

/-- A callback of a connection that is innocent behind it. -/
theorem ioCb_untouched (cfg : Config) (g : Globals) {h : Control.Handler} (sound : Sound h)
    (revents : Events) (inbox : List RecvResult) (outbox : List WriteResult)
    (innocent : Innocent (h.ioCb cfg g revents inbox outbox).2) :
    (h.ioCb cfg g revents inbox outbox).1.activeHandlers = g.activeHandlers := by
  have called := Control.Handler.ioCb_called cfg g h revents inbox outbox
  generalize h.ioCb cfg g revents inbox outbox = result at called innocent ⊢
  obtain ⟨r, w, read, write⟩ := called
  have wrote : Innocent w.2 := by
    intro m member
    apply innocent m
    simp only
    split
    · exact member
    · exact member
  have asserted : r.2.asserted.seen = r.2.seen := by
    unfold Control.Handler.asserted
    split
    · rfl
    · rfl
  have kept : w.1.activeHandlers = r.1.activeHandlers ∧ Innocent r.2 := by
    rcases write with ⟨-, rfl⟩ | ⟨-, rfl⟩
    · refine ⟨doWrite_untouched .., wrote.earlier ?_⟩
      rw [(Control.Handler.doWrite_answers ..).1, asserted]
    · exact ⟨rfl, wrote.earlier (by rw [asserted])⟩
  refine kept.1.trans ?_
  rcases read with ⟨-, -, rfl⟩ | ⟨-, rfl⟩
  · exact (reading_untouched (Control.Handler.doRead_reading cfg g inbox sound) sound).2 kept.2
  · rfl

/-! ## Running the script -/

/-- The bytes that `recv` delivers to a connection during a run of the control plane. -/
def deliveredOn (cfg : Config) (k : Nat) : Plane → List PlaneEvent → List UInt8
  | _, [] => []
  | p, e :: rest =>
      (match e with
        | .callback c revents inbox _ =>
            if c = k ∧ (p.connections[c]?.any fun h => h.io.active) = true ∧ revents.read = true then
              stream (leading inbox)
            else []
        | _ => []) ++ deliveredOn cfg k (p.step cfg e) rest

/-- Every call of `send_to_connector` has a connection of its own, the next that is accepted, and
its frame is delivered there.  The run is one of the control connections only. -/
structure Executes (cfg : Config) (frames : List (List UInt8)) (p : Plane)
    (events : List PlaneEvent) : Prop where
  own : ∀ e ∈ events, match e with
    | .accept .. => True
    | .callback c .. => p.accepted ≤ c
    | .peers .. => False
  whole : ∀ i, deliveredOn cfg (p.accepted + i) p events = frames.getD i []

/-- What a connection has taken in. -/
def gotOn (p : Plane) (k : Nat) : List UInt8 := (p.connections[k]?.map fun h => h.got).getD []

theorem accept_connections (p : Plane) (fd : Nat) (regid : UInt32) (k : Nat) :
    (p.accept fd regid).connections[k]? =
      if k = p.accepted then some (Control.Handler.new fd p.idPool regid)
      else p.connections[k]?.filter fun h => h.io.active := by
  rw [Plane.accept, Plane.deleteInactive, TreeMap.getElem?_filter', Theory.Tables.getElem?_insert]
  split
  · rfl
  · rfl

theorem callback_connections (cfg : Config) {p : Plane} {c : Nat} {h : Control.Handler}
    (found : p.connections[c]? = some h) (active : h.io.active = true) (revents : Events)
    (inbox : List RecvResult) (outbox : List WriteResult) (k : Nat) :
    (p.callback cfg c revents inbox outbox).connections[k]? =
      if k = c then some (h.ioCb cfg p.globals revents inbox outbox).2 else p.connections[k]? := by
  rw [Plane.callback]
  simp only [found, if_pos active]
  exact Theory.Tables.getElem?_insert ..

theorem callback_accepted (cfg : Config) (p : Plane) (c : Nat) (revents : Events)
    (inbox : List RecvResult) (outbox : List WriteResult) :
    (p.callback cfg c revents inbox outbox).accepted = p.accepted := by
  unfold Plane.callback
  split
  · rfl
  · split
    · rfl
    · rfl

/-- A callback that finds no started watcher does nothing. -/
theorem callback_idle (cfg : Config) {p : Plane} {c : Nat}
    (idle : (p.connections[c]?.any fun h => h.io.active) = false) (revents : Events)
    (inbox : List RecvResult) (outbox : List WriteResult) :
    p.callback cfg c revents inbox outbox = p := by
  rw [Plane.callback]
  split
  · rfl
  · rename_i h found
    rw [found] at idle
    rw [if_neg (by simpa using idle)]

/-- Nothing is delivered to a connection that was deleted. -/
theorem deliveredOn_gone (cfg : Config) {k : Nat} (events : List PlaneEvent) {p : Plane}
    (accepted : k < p.accepted) (gone : p.connections[k]? = none) :
    deliveredOn cfg k p events = [] := by
  induction events generalizing p with
  | nil => rfl
  | cons e rest ih =>
      cases e with
      | accept fd regid =>
          refine ih (Nat.lt_succ_of_lt accepted) ?_
          show (p.accept fd regid).connections[k]? = none
          rw [accept_connections, if_neg (Nat.ne_of_lt accepted), gone]
          rfl
      | peers => exact ih accepted gone
      | callback c revents inbox outbox =>
          have other : ¬ (c = k ∧ (p.connections[c]?.any fun h => h.io.active) = true ∧
              revents.read = true) := by
            rintro ⟨rfl, active, -⟩
            rw [gone] at active
            cases active
          rw [deliveredOn, if_neg other, List.nil_append]
          show deliveredOn cfg k (p.callback cfg c revents inbox outbox) rest = []
          by_cases active : (p.connections[c]?.any fun h => h.io.active) = true
          · obtain ⟨h, found, started⟩ := (Option.any_eq_true _ _).1 active
            have another : k ≠ c := by
              rintro rfl
              rw [gone] at found
              cases found
            refine ih ?_ ?_
            · rw [callback_accepted]
              exact accepted
            · rw [callback_connections cfg found started, if_neg another, gone]
          · rw [callback_idle cfg (by simpa using active)]
            exact ih accepted gone

/-- The connections of the script, from `base` on, have taken in a part of what is delivered, and
that is a part of a registration. -/
def Scripted (cfg : Config) (base : Nat) (p : Plane) (events : List PlaneEvent) : Prop :=
  ∀ k, base ≤ k → ∃ frame, Registers frame ∧ gotOn p k ++ deliveredOn cfg k p events <+: frame

theorem gotOn_some {p : Plane} {k : Nat} {h : Control.Handler} (found : p.connections[k]? = some h) :
    gotOn p k = h.got := by rw [gotOn, found]; rfl

theorem gotOn_none {p : Plane} {k : Nat} (none_ : p.connections[k]? = none) : gotOn p k = [] := by
  rw [gotOn, none_]
  rfl

/-- A connection is accepted, and those that are over are deleted. -/
theorem Scripted.accept {cfg : Config} {base : Nat} {p : Plane} {fd : Nat} {regid : UInt32}
    {rest : List PlaneEvent} (consistent : p.Consistent)
    (scripted : Scripted cfg base p (.accept fd regid :: rest)) :
    Scripted cfg base (p.accept fd regid) rest := by
  intro k own
  obtain ⟨frame, registers, part⟩ := scripted k own
  refine ⟨frame, registers, ?_⟩
  have delivered : deliveredOn cfg k p (.accept fd regid :: rest) =
      deliveredOn cfg k (p.accept fd regid) rest := rfl
  rw [delivered] at part
  have connections := accept_connections p fd regid k
  by_cases new : k = p.accepted
  · -- the new connection has taken in nothing, and there was none before
    have before : p.connections[k]? = none := by
      cases found : p.connections[k]? with
      | none => rfl
      | some h => exact absurd (consistent.older k h found) (by omega)
    rw [if_pos new] at connections
    rw [gotOn_none before] at part
    rw [gotOn_some connections]
    exact part
  · rw [if_neg new] at connections
    cases found : p.connections[k]? with
    | none =>
        rw [found] at connections
        rw [gotOn_none connections, ← gotOn_none found]
        exact part
    | some h =>
        rw [found, Option.filter_some] at connections
        by_cases active : h.io.active = true
        · rw [if_pos active] at connections
          rw [gotOn_some connections, ← gotOn_some found]
          exact part
        · rw [if_neg active] at connections
          have older : k < (p.accept fd regid).accepted :=
            Nat.lt_succ_of_lt (consistent.older k h found)
          rw [gotOn_none connections, deliveredOn_gone cfg rest older connections]
          exact List.nil_prefix

/-- What a connection has taken in and what it is still to get are together what they were. -/
theorem callback_account {cfg : Config} {p : Plane} {c : Nat} {h : Control.Handler}
    (consistent : p.Consistent) (found : p.connections[c]? = some h)
    (started : h.io.active = true) (revents : Events) (inbox : List RecvResult)
    (outbox : List WriteResult) (rest : List PlaneEvent) (k : Nat) :
    gotOn p k ++ deliveredOn cfg k p (.callback c revents inbox outbox :: rest) =
      gotOn (p.callback cfg c revents inbox outbox) k ++
        deliveredOn cfg k (p.callback cfg c revents inbox outbox) rest := by
  have after := callback_connections cfg found started revents inbox outbox k
  by_cases same : k = c
  · subst same
    obtain ⟨-, -, got⟩ := Control.Handler.ioCb_settled cfg p.globals
      (consistent.settled k h found) revents inbox outbox
    have active : (p.connections[k]?.any fun h => h.io.active) = true := by
      rw [found]
      exact started
    rw [if_pos rfl] at after
    rw [gotOn_some found, gotOn_some after, got, List.append_assoc]
    congr 1
    show (if _ then _ else _) ++ _ = _
    simp only [true_and, active]
    rfl
  · rw [if_neg same] at after
    have still : gotOn (p.callback cfg c revents inbox outbox) k = gotOn p k := by
      rw [gotOn, after, gotOn]
    have other : ¬ (c = k ∧ (p.connections[c]?.any fun h => h.io.active) = true ∧
        revents.read = true) := fun all => same all.1.symm
    rw [still, deliveredOn, if_neg other, List.nil_append]
    rfl

/-- A callback of a connection of the script. -/
theorem Scripted.callback {cfg : Config} {base : Nat} {p : Plane} {c : Nat} {revents : Events}
    {inbox : List RecvResult} {outbox : List WriteResult} {rest : List PlaneEvent}
    (consistent : p.Consistent) (own : base ≤ c)
    (scripted : Scripted cfg base p (.callback c revents inbox outbox :: rest)) :
    (p.callback cfg c revents inbox outbox).globals.activeHandlers = p.globals.activeHandlers ∧
      Scripted cfg base (p.callback cfg c revents inbox outbox) rest := by
  by_cases active : (p.connections[c]?.any fun h => h.io.active) = true
  · obtain ⟨h, found, started⟩ := (Option.any_eq_true _ _).1 active
    have connections := callback_connections cfg found started revents inbox outbox
    obtain ⟨settled, -, -⟩ := Control.Handler.ioCb_settled cfg p.globals
      (consistent.settled c h found) revents inbox outbox
    have result : (p.callback cfg c revents inbox outbox).globals =
        (h.ioCb cfg p.globals revents inbox outbox).1 := by
      rw [Plane.callback]
      simp only [found, if_pos started]
    have next : Scripted cfg base (p.callback cfg c revents inbox outbox) rest := by
      intro k mine
      obtain ⟨frame, registers, part⟩ := scripted k mine
      rw [callback_account consistent found started] at part
      exact ⟨frame, registers, part⟩
    refine ⟨?_, next⟩
    obtain ⟨frame, registers, part⟩ := next c own
    have after := connections c
    rw [if_pos rfl] at after
    rw [gotOn_some after] at part
    rw [result]
    exact ioCb_untouched cfg p.globals (consistent.settled c h found).sound revents inbox outbox
      (innocent_of_registration settled.sound settled.dry registers
        ((List.prefix_append ..).trans part))
  · have idle := callback_idle cfg (by simpa using active) revents inbox outbox
    rw [idle]
    refine ⟨rfl, ?_⟩
    intro k mine
    obtain ⟨frame, registers, part⟩ := scripted k mine
    have other : ¬ (c = k ∧ (p.connections[c]?.any fun h => h.io.active) = true ∧
        revents.read = true) := fun all => active all.2.1
    rw [deliveredOn, if_neg other, List.nil_append] at part
    have same : p.step cfg (.callback c revents inbox outbox) = p := idle
    rw [same] at part
    exact ⟨frame, registers, part⟩

/-- Over a whole run of the script the handlers of the peers are left alone. -/
theorem Scripted.run {cfg : Config} {base : Nat} {events : List PlaneEvent} {p : Plane}
    (consistent : p.Consistent) (scripted : Scripted cfg base p events)
    (own : ∀ e ∈ events, match e with
      | .accept .. => True
      | .callback c .. => base ≤ c
      | .peers .. => False) :
    (run (Plane.step cfg) p events).globals.activeHandlers = p.globals.activeHandlers := by
  induction events generalizing p with
  | nil => rfl
  | cons e rest ih =>
      have mine := own e List.mem_cons_self
      have others : ∀ e ∈ rest, _ := fun e member => own e (List.mem_cons_of_mem _ member)
      have after := Plane.step_consistent cfg p e consistent
      cases e with
      | accept fd regid => exact ih after (scripted.accept consistent) others
      | callback c revents inbox outbox =>
          obtain ⟨untouched, next⟩ := scripted.callback consistent mine
          exact (ih after next others).trans untouched
      | peers => exact mine.elim

/-- Whatever list of registrations is sent, the handlers of the peers are left alone. -/
theorem Executes.untouched {cfg : Config} {frames : List (List UInt8)} {p : Plane}
    {events : List PlaneEvent} (consistent : p.Consistent)
    (registers : ∀ frame ∈ frames, Registers frame) (executes : Executes cfg frames p events) :
    (run (Plane.step cfg) p events).globals.activeHandlers = p.globals.activeHandlers := by
  have scripted : Scripted cfg p.accepted p events := by
    intro k own
    have before : p.connections[k]? = none := by
      cases found : p.connections[k]? with
      | none => rfl
      | some h => exact absurd (consistent.older k h found) (by omega)
    have delivered := executes.whole (k - p.accepted)
    rw [Nat.add_sub_cancel' own] at delivered
    rw [gotOn_none before, List.nil_append, delivered, List.getD_eq_getElem?_getD]
    cases listed : frames[k - p.accepted]? with
    | none =>
        have short : ([] : List UInt8).length < 2 ^ 32 := by decide
        exact ⟨_, layout_registers short, List.nil_prefix⟩
    | some frame =>
        exact ⟨frame, registers frame (List.mem_of_getElem? listed), List.prefix_refl _⟩
  exact scripted.run consistent executes.own

/-! ## Targets -/

/-- Between two states, the squatters and behind them the cleanser were appended to the write
queue of every target; `handlerOf` says which handler a target has. -/
def Reaches (sha256 : List UInt8 → List UInt8) (handlerOf : Target → UInt32)
    (targets : List Target) (squatters : List (List UInt8)) (cleanser : List UInt8)
    (before after : Globals) : Prop :=
  ∀ target ∈ targets, ∃ h h' messages,
    before.activeHandlers[handlerOf target]? = some h ∧
    after.activeHandlers[handlerOf target]? = some h' ∧
    Connector.appended h'.log = Connector.appended h.log ++ messages ∧
    ((squatters ++ [cleanser]).map (makePackedMessage sha256 ['t', 'x'])).Sublist
      (messages.map fun m => some m.wire)

/-- If the handlers stay as they are, no target is reached. -/
theorem not_reaches {sha256 : List UInt8 → List UInt8} {handlerOf : Target → UInt32}
    {targets : List Target} {squatters : List (List UInt8)} {cleanser : List UInt8}
    {before after : Globals} (same : after.activeHandlers = before.activeHandlers)
    {target : Target} (member : target ∈ targets) :
    ¬ Reaches sha256 handlerOf targets squatters cleanser before after := by
  intro reaches
  obtain ⟨h, h', messages, found, found', appended, sent⟩ := reaches target member
  rw [same, found] at found'
  cases found'
  have none_ : messages = [] := List.self_eq_append_right.1 appended
  rw [none_, List.map_nil, List.sublist_nil, List.map_append] at sent
  simp at sent

/-- From any state of the connector, and however the connections of the script are served, the
script reaches its targets exactly if there are none. -/
theorem cleanser_reaches_iff (cfg : Config) (blacklist : SockaddrStorage → Bool)
    (tape : Nat → Outside) (history : List PlaneEvent) (p : Plane)
    (reached : p = run (Plane.step cfg) (Plane.start blacklist tape) history)
    (sha256 : List UInt8 → List UInt8) (handlerOf : Target → UInt32) (targets : List Target)
    (squatters : List (List UInt8)) (cleanser : List UInt8) (events : List PlaneEvent)
    (executes : Executes cfg (sendingSteps sha256 targets squatters cleanser) p events) :
    Reaches sha256 handlerOf targets squatters cleanser p.globals
        (run (Plane.step cfg) p events).globals ↔
      targets = [] := by
  have consistent : p.Consistent := by
    rw [reached]
    exact run_keeps (Plane.step_consistent cfg) (Plane.start_consistent blacklist tape) history
  have untouched := executes.untouched consistent fun _ member => sendingSteps_registration member
  constructor
  · intro reaches
    cases targets with
    | nil => rfl
    | cons target rest => exact absurd reaches (not_reaches untouched List.mem_cons_self)
  · rintro rfl
    intro target member
    cases member

/-! ## One target -/

/-- SHA-256 of the bytes one and two, and of these. -/
def someSha256 (bytes : List UInt8) : List UInt8 :=
  if bytes = [1] then
    [75, 245, 18, 47, 52, 69, 84, 197, 59, 222, 46, 187, 140, 210, 183, 227, 209, 96, 10, 214, 49,
      195, 133, 165, 215, 204, 226, 60, 119, 133, 69, 154]
  else if bytes = [2] then
    [219, 193, 180, 201, 0, 255, 228, 141, 87, 91, 93, 165, 198, 56, 4, 1, 37, 246, 93, 176, 254,
      62, 36, 73, 75, 118, 234, 152, 100, 87, 217, 134]
  else if bytes.take 1 = [75] then
    [156, 18, 207, 220, 4, 199, 69, 132, 215, 135, 172, 61, 35, 119, 33, 50, 193, 133, 36, 188, 122,
      178, 141, 236, 66, 25, 184, 252, 91, 66, 95, 112]
  else
    [28, 195, 173, 234, 64, 235, 253, 148, 67, 58, 192, 4, 119, 125, 104, 21, 12, 206, 157, 180, 199,
      113, 188, 125, 225, 178, 151, 167, 183, 149, 187, 186]

/-- The one target, with the handler 0. -/
def someTarget : Target := ⟨['1', '0', '.', '0', '.', '0', '.', '1'], 8333⟩

/-- The two frames for one squatter `[1]` and the cleanser `[2]`. -/
def squatterFrame : List UInt8 :=
  [0, 0, 0, 0, 25, 1] ++ [0x1c, 0x16, 0x3f, 0x28, 116, 120, 0, 0, 0, 0, 0, 0, 0, 0, 0, 0] ++
    [1, 0, 0, 0, 156, 18, 207, 220, 1]

def cleanserFrame : List UInt8 :=
  [0, 0, 0, 0, 25, 1] ++ [0x1c, 0x16, 0x3f, 0x28, 116, 120, 0, 0, 0, 0, 0, 0, 0, 0, 0, 0] ++
    [1, 0, 0, 0, 28, 195, 173, 234, 2]

/-- A connector with one active handler. -/
def onePeer : List PlaneEvent :=
  [.peers ((∅ : TreeMap UInt32 Connector.Handler).insert 0 (Connector.Handler.new
    Connector.someConfig Connector.someEnv 0 9 Connector.RECV_VERSION_INIT Connector.someAddr
    Connector.someAddr 0).1) [] 1 0 (fun _ => false) []]

def somePlane : Plane :=
  run (Plane.step Connector.someConfig) (Plane.start (fun _ => false) fun _ => someOutside) onePeer

/-- Two connections, each with one frame and the end of the stream. -/
def twoConnections : List PlaneEvent :=
  [.accept 6 5, .callback 0 Events.READ [.data ⟨squatterFrame, by decide, by decide⟩, .eof] [],
    .accept 7 6, .callback 1 Events.READ [.data ⟨cleanserFrame, by decide, by decide⟩, .eof] []]

theorem deliveredOn_uncalled (cfg : Config) {k : Nat} {events : List PlaneEvent}
    (uncalled : ∀ e ∈ events, match e with
      | .callback c .. => c ≠ k
      | _ => True) (p : Plane) : deliveredOn cfg k p events = [] := by
  induction events generalizing p with
  | nil => rfl
  | cons e rest ih =>
      have here := uncalled e List.mem_cons_self
      have later := ih fun e member => uncalled e (List.mem_cons_of_mem _ member)
      cases e with
      | accept => exact later _
      | peers => exact later _
      | callback c revents inbox outbox =>
          rw [deliveredOn, if_neg (fun all => here all.1), List.nil_append]
          exact later _

theorem twoConnections_execute :
    Executes Connector.someConfig (sendingSteps someSha256 [someTarget] [[1]] [2]) somePlane
      twoConnections where
  own := by simp [twoConnections, somePlane, onePeer, Plane.step, Plane.start]
  whole := by
    have frames : sendingSteps someSha256 [someTarget] [[1]] [2] = [squatterFrame, cleanserFrame] := by
      decide +kernel
    have none_ : somePlane.accepted = 0 := rfl
    intro i
    rw [frames, none_, Nat.zero_add]
    match i with
    | 0 => decide +kernel
    | 1 => decide +kernel
    | i + 2 =>
        apply deliveredOn_uncalled
        simp [twoConnections]

/-- The script runs, and has not reached its only target. -/
theorem cleanser_reaches_one_target :
    Executes Connector.someConfig (sendingSteps someSha256 [someTarget] [[1]] [2]) somePlane
        twoConnections ∧
      (Reaches someSha256 (fun _ => 0) [someTarget] [[1]] [2] somePlane.globals
        (run (Plane.step Connector.someConfig) somePlane twoConnections).globals ↔
          [someTarget] = []) :=
  ⟨twoConnections_execute, cleanser_reaches_iff Connector.someConfig (fun _ => false)
    (fun _ => someOutside) onePeer somePlane rfl someSha256 (fun _ => 0) [someTarget] [[1]] [2]
    twoConnections twoConnections_execute⟩

/-- The target has an active handler, both frames arrive, and its write queue is as it was. -/
theorem cleanser_not_sent :
    0 ∈ somePlane.globals.activeHandlers ∧
      Executes Connector.someConfig (sendingSteps someSha256 [someTarget] [[1]] [2]) somePlane
        twoConnections ∧
      ¬ Reaches someSha256 (fun _ => 0) [someTarget] [[1]] [2] somePlane.globals
        (run (Plane.step Connector.someConfig) somePlane twoConnections).globals := by
  have active : 0 ∈ somePlane.globals.activeHandlers := by decide +kernel
  have consistent := run_keeps (Plane.step_consistent Connector.someConfig)
    (Plane.start_consistent (fun _ => false) fun _ => someOutside) onePeer
  have untouched := twoConnections_execute.untouched consistent
    fun _ member => sendingSteps_registration member
  have target : someTarget ∈ [someTarget] := List.mem_singleton_self _
  exact ⟨active, twoConnections_execute, not_reaches untouched target⟩

end Coinscope.Clients

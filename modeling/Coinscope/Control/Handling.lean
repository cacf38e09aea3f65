/-
# Control.Handling -- a message about to be handled

`do_read` comes to its `switch` once for every header and once for every payload.
`moments` are the states in which it does.  A message without payload is handled
behind its header, one with a payload behind the payload; in both cases the whole
message is held (`Ready`), and `process` goes to one of two functions.

* `Handler.moments` -- the states at the `switch`, in the order of a callback.
* `Ready` -- a whole message is held; `ready_of_moment` finds it in every callback.
* `Ready.process_empty`, `Ready.process_payload` -- what handles the message.
-/
import Coinscope.Control.ControlFraming

namespace Coinscope.Control

open Coinscope.Shared
open Coinscope.Theory.Bytes
open Coinscope.Theory.Framing
open Coinscope.Connector (RECV_MASK RECV_HEADER RECV_PAYLOAD)

set_option autoImplicit false

/-! ## Moments -/

namespace Handler

/-- The states in which the loop of `doReadAux` calls `process`. -/
def momentsAux (cfg : Config) :
    Nat → Globals → Handler → List RecvResult → List (Globals × Handler)
  | 0, _, _, _ => []
  | fuel + 1, g, h, inbox =>
      if h.readQueue.hungry then
        let s := h.readQueue.fill inbox
        let h := h.filled s
        match s.ret with
        | .count (_ + 1) =>
            let p := h.process cfg g
            (g, h) :: momentsAux cfg fuel p.1 p.2 s.inbox
        | _ => []
      else []

/-- The states in which `do_read` comes to its `switch`. -/
def moments (cfg : Config) (g : Globals) (h : Handler) (inbox : List RecvResult) :
    List (Globals × Handler) :=
  momentsAux cfg (h.readQueue.effort inbox + 1) g h inbox

/-! ## The version checks -/

/-- The globals behind the version check of `receive_header`. -/
def warnedHeader (g : Globals) (h : Handler) : Globals :=
  if messageVersion h.readQueue.buffer ≠ 0 then
    g.gLog .DEBUG (text "Warning: Unsupported version")
      [decimal (messageVersion h.readQueue.buffer).toNat]
  else g

/-- The globals behind the version check of `receive_payload`. -/
def warned (g : Globals) (h : Handler) : Globals :=
  if messageVersion h.readQueue.buffer ≠ 0 then
    g.gLog .DEBUG (text "Warning: unsupported version. Attempting to receive payload") []
  else g

@[simp] theorem warned_activeHandlers (g : Globals) (h : Handler) :
    (h.warned g).activeHandlers = g.activeHandlers := by
  unfold warned
  split <;> rfl

@[simp] theorem warned_inactiveHandlers (g : Globals) (h : Handler) :
    (h.warned g).inactiveHandlers = g.inactiveHandlers := by
  unfold warned
  split <;> rfl

@[simp] theorem warned_undefined (g : Globals) (h : Handler) :
    (h.warned g).undefined = g.undefined := by
  unfold warned
  split <;> rfl

@[simp] theorem warned_tableOf (g : Globals) (h : Handler) (c : UInt32) :
    (h.warned g).tableOf c = g.tableOf c := by
  unfold warned
  split <;> rfl

end Handler

/-! ## A whole message -/

/-- The message of this type and payload is held from its first byte to its last, and the
`switch` of `do_read` is next. -/
structure Ready (h : Handler) (kind : UInt8) (payload : List UInt8) : Prop where
  kept : Kept h
  whole : h.readQueue.held.length = messageSize + messageLength h.readQueue.held
  message : content h.readQueue.held = (kind, payload)
  empty : payload = [] → h.state &&& RECV_MASK = RECV_HEADER
  filled : payload ≠ [] → h.state &&& RECV_MASK = RECV_PAYLOAD

namespace Ready

variable {h : Handler} {kind : UInt8} {payload : List UInt8} (ready : Ready h kind payload)

include ready

theorem size : messageLength h.readQueue.held = payload.length := by
  have dropped : h.readQueue.held.drop messageSize = payload := congrArg Prod.snd ready.message
  have whole := ready.whole
  rw [← dropped, List.length_drop]
  omega

theorem length : messageLength h.readQueue.buffer = payload.length := by
  rw [Handler.messageLength_buffer ready.kept.reads (by rw [ready.whole]; omega), ready.size]

theorem type : messageType h.readQueue.buffer = kind := by
  have held := Handler.content_held ready.kept.reads ready.whole
  rw [ready.message] at held
  exact (congrArg Prod.fst held).symm

theorem payload_eq : messagePayload h.readQueue.buffer = payload := by
  have held := Handler.content_held ready.kept.reads ready.whole
  rw [ready.message] at held
  exact (congrArg Prod.snd held).symm

/-- The message lies inside the allocation of the read buffer. -/
theorem inside : messageSize + messageLength h.readQueue.buffer ≤ h.readQueue.buffer.length := by
  have cursor := ready.kept.reads.cursor
  have held := ready.kept.reads.held_length
  rw [ready.length]
  rw [ready.whole, ready.size] at held
  omega

/-- The length field has four bytes. -/
theorem small : payload.length < 2 ^ 32 := by
  have bound : messageLength h.readQueue.buffer < 256 ^ (slice 1 4 h.readQueue.buffer).length :=
    ofBE_lt _
  have four : (slice 1 4 h.readQueue.buffer).length = 4 := slice_length (by
    have inside := ready.inside
    have six : messageSize = 6 := rfl
    omega)
  rw [four, ready.length] at bound
  exact bound

/-- A message without payload is handled by `receive_header`. -/
theorem process_empty (cfg : Config) (g : Globals) (none_ : payload = []) :
    h.process cfg g = h.receiveHeader g := by
  rw [Handler.process, if_pos (ready.empty none_)]

/-- A message with a payload is handled by `receive_payload`. -/
theorem process_payload (cfg : Config) (g : Globals) (some_ : payload ≠ []) :
    h.process cfg g = h.receivePayload cfg g := by
  have other : ¬ h.state &&& RECV_MASK = RECV_HEADER := by rw [ready.filled some_]; decide
  rw [Handler.process, if_neg other, if_pos (ready.filled some_)]

end Ready

/-! ## Every callback -/

namespace Handler

/-- Behind a full buffer a whole message is `Ready`. -/
theorem ready_of_filled {h : Handler} (sound : Sound h) {inbox : List RecvResult}
    {bytes : List UInt8} (valid : (h.readQueue.fill inbox).queue.Valid)
    (full : ReadBuffer.Filled h.readQueue inbox (h.readQueue.fill inbox) bytes)
    (whole : (h.filled (h.readQueue.fill inbox)).readQueue.held.length =
      messageSize + messageLength (h.filled (h.readQueue.fill inbox)).readQueue.held) :
    Ready (h.filled (h.readQueue.fill inbox))
      (content (h.filled (h.readQueue.fill inbox)).readQueue.held).1
      (content (h.filled (h.readQueue.fill inbox)).readQueue.held).2 := by
  have held : (h.filled (h.readQueue.fill inbox)).readQueue.held = h.readQueue.held ++ bytes :=
    full.held
  have payload : (content (h.filled (h.readQueue.fill inbox)).readQueue.held).2.length =
      messageLength (h.filled (h.readQueue.fill inbox)).readQueue.held := by
    show (List.drop _ _).length = _
    rw [List.length_drop, whole]
    omega
  refine ⟨filled_kept sound.toKept valid full.held full.conserved, whole, rfl, ?_, ?_⟩
  · intro none_
    rw [none_] at payload
    cases sound.phase with
    | header state => exact state
    | payload _ hungry there count =>
        -- the payload waited for is not empty
        rw [held, messageLength_append there] at payload
        simp only [List.length_nil] at payload
        omega
  · intro some_
    cases sound.phase with
    | payload state => exact state
    | header _ _ count =>
        have length : (h.filled (h.readQueue.fill inbox)).readQueue.held.length = messageSize := by
          rw [held, List.length_append, full.length, count]
        exact absurd (List.length_eq_zero_iff.1 (by omega)) some_

/-- In every callback, the moments at which a whole message is held are `Ready`, and the
connection is the one the callback is for. -/
theorem ready_of_momentAux (cfg : Config) (fuel : Nat) {g g' : Globals} {h h' : Handler}
    {inbox : List RecvResult} (sound : Sound h)
    (moment : (g', h') ∈ momentsAux cfg fuel g h inbox)
    (whole : h'.readQueue.held.length = messageSize + messageLength h'.readQueue.held) :
    Ready h' (content h'.readQueue.held).1 (content h'.readQueue.held).2 ∧ h'.id = h.id := by
  induction fuel generalizing g h inbox with
  | zero => cases moment
  | succ fuel ih =>
      have hungry := sound.phase.hungry
      obtain ⟨valid, ⟨bytes, full⟩ | ⟨bytes, short⟩⟩ := ReadBuffer.fill_cases sound.reads inbox
      · have processed := round_processed cfg g sound valid full
        simp only [momentsAux, ReadBuffer.hungry, hungry, full.ret, decide_true, if_true] at moment
        rcases List.mem_cons.1 moment with now | later
        · cases now
          exact ⟨ready_of_filled sound valid full whole, rfl⟩
        · obtain ⟨ready, same⟩ := ih processed.sound later
          exact ⟨ready, same.trans processed.id⟩
      · obtain ⟨answers, rest, -, -, -, -, ⟨-, ret⟩ | ⟨e, -, ret⟩⟩ := short.took
        · simp [momentsAux, ReadBuffer.hungry, hungry, ret] at moment
        · simp [momentsAux, ReadBuffer.hungry, hungry, ret] at moment

theorem ready_of_moment (cfg : Config) {g g' : Globals} {h h' : Handler} {inbox : List RecvResult}
    (sound : Sound h) (moment : (g', h') ∈ moments cfg g h inbox)
    (whole : h'.readQueue.held.length = messageSize + messageLength h'.readQueue.held) :
    Ready h' (content h'.readQueue.held).1 (content h'.readQueue.held).2 ∧ h'.id = h.id :=
  ready_of_momentAux cfg _ sound moment whole

/-! ## A connection for worked messages -/

/-- The last moment of a new connection that gets these bytes in one piece. -/
def someMoment (g : Globals) (chunk : Chunk) : Globals × Handler :=
  (((new 6 0 5).moments Connector.someConfig g [.data chunk]).getLast?).getD (g, new 6 0 5)

theorem someMoment_ready {g : Globals} {chunk : Chunk} {kind : UInt8} {payload : List UInt8}
    (some_ : ((new 6 0 5).moments Connector.someConfig g [.data chunk]).isEmpty = false)
    (whole : (someMoment g chunk).2.readQueue.held.length =
      messageSize + messageLength (someMoment g chunk).2.readQueue.held)
    (message : content (someMoment g chunk).2.readQueue.held = (kind, payload)) :
    Ready (someMoment g chunk).2 kind payload := by
  have moment : someMoment g chunk ∈ (new 6 0 5).moments Connector.someConfig g [.data chunk] := by
    rw [someMoment]
    cases last : ((new 6 0 5).moments Connector.someConfig g [.data chunk]).getLast? with
    | none =>
        rw [List.getLast?_eq_none_iff.1 last] at some_
        cases some_
    | some moment => exact List.mem_of_getLast? last
  have ready : Ready (someMoment g chunk).2 (content (someMoment g chunk).2.readQueue.held).1
      (content (someMoment g chunk).2.readQueue.held).2 :=
    (ready_of_moment Connector.someConfig (new_settled 6 0 5).sound moment whole).1
  rw [message] at ready
  exact ready

end Handler

end Coinscope.Control

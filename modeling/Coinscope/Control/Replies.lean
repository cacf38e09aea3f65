/-
# Control.Replies -- one reply for each request

A client pairs replies with requests by their position in the stream.  `receive_header`
and `receive_payload` each answer some of the messages, and what they answer is a
function of the message and of the globals at the time (`Answered`).  It is what the
protocol asks for (`Expected`) unless the message is one of two kinds, and it is answered at
all if the process outlives what comes before it.

* `Answered`, `Handler.round_adds` -- what handling a message appends to the replies.
* `run_answered` -- every run: one answer for each message, in order.
* `Expected`, `replies_in_order` -- runs without the two kinds in which nothing undefined
  happens.
-/
import Coinscope.Control.Survival
import Mathlib.Data.List.Forall2

namespace Coinscope.Control

open Coinscope.Shared
open Coinscope.Theory.Bytes
open Coinscope.Theory.Framing
open Coinscope.Theory.Runs
open Coinscope.Connector (RECV_MASK RECV_HEADER RECV_PAYLOAD)

set_option autoImplicit false

/-! ## One message -/

/-- A payload that is not 24 bytes and the length they announce. -/
def Rejected (payload : List UInt8) : Prop :=
  ¬ (packedSize ≤ payload.length ∧ payload.length = packedSize + packedLength payload)

/-- The bytes the code sends for a message. -/
inductive Answered : UInt8 × List UInt8 → List UInt8 → Prop
  | renamed (regid : UInt32) : Answered (REGISTER, []) (be 4 regid.toNat)
  | registered {payload : List UInt8} (some_ : payload ≠ []) (id : UInt32)
      (zero : Rejected payload → id = 0) :
      Answered (BITCOIN_PACKED_MESSAGE, payload) (be 4 id.toNat)
  | listed {payload : List UInt8} (some_ : payload ≠ [])
      (asked : command payload = COMMAND_GET_CXN) (g : Globals) :
      Answered (COMMAND, payload) g.connections
  | silent {kind : UInt8} {payload : List UInt8}
      (register : ¬ (kind = REGISTER ∧ payload = []))
      (packed : ¬ (kind = BITCOIN_PACKED_MESSAGE ∧ payload ≠ []))
      (asked : ¬ (kind = COMMAND ∧ payload ≠ [] ∧ command payload = COMMAND_GET_CXN)) :
      Answered (kind, payload) []

/-- Nothing is taken in, or a message is and its answer queued. -/
def Adds (h h' : Handler) : Prop :=
  (h'.seen = h.seen ∧ h'.replies = h.replies) ∨
    ∃ message bytes, Answered message bytes ∧ h'.seen = h.seen ++ [message] ∧
      h'.replies.flatten = h.replies.flatten ++ bytes

theorem Globals.register_rejected (g : Globals) (id regid : UInt32) {payload : List UInt8}
    (rejected : Rejected payload) : (g.register id regid payload).2 = 0 := by
  rw [register, dif_neg rejected]

namespace Ready

variable {h : Handler} {kind : UInt8} {payload : List UInt8} (ready : Ready h kind payload)

include ready

theorem take_seen : h.take.seen = h.seen ++ [(kind, payload)] := by
  show h.seen ++ [(messageType h.readQueue.buffer, messagePayload h.readQueue.buffer)] = _
  rw [ready.type, ready.payload_eq]

theorem adds_reply {h' : Handler} {bytes : List UInt8} (answer : Answered (kind, payload) bytes)
    (seen : h'.seen = h.take.seen) (replies : h'.replies = h.take.replies ++ [bytes]) :
    Adds h h' := by
  refine .inr ⟨(kind, payload), bytes, answer, seen.trans ready.take_seen, ?_⟩
  rw [replies, List.flatten_append, List.flatten_singleton]
  rfl

theorem adds_nothing {h' : Handler} (answer : Answered (kind, payload) [])
    (seen : h'.seen = h.take.seen) (replies : h'.replies = h.take.replies) : Adds h h' := by
  refine .inr ⟨(kind, payload), [], answer, seen.trans ready.take_seen, ?_⟩
  rw [replies, List.append_nil]
  rfl

/-- A message without payload. -/
theorem empty_adds (cfg : Config) (g : Globals) (none_ : payload = []) :
    Adds h (h.process cfg g).2 := by
  have empty : messageLength h.readQueue.buffer = 0 := by rw [ready.length, none_]; rfl
  rw [ready.process_empty cfg g none_]
  by_cases register : kind = REGISTER
  · subst register none_
    apply ready.adds_reply (.renamed (Handler.outside (h.warnedHeader g)).nonce)
    · simp only [Handler.receiveHeader, ReadBuffer.setToRead, empty, if_true, if_pos ready.type]
      rfl
    · simp only [Handler.receiveHeader, ReadBuffer.setToRead, empty, if_true, if_pos ready.type]
      rfl
  · have other : ¬ messageType h.readQueue.buffer = REGISTER := by rw [ready.type]; exact register
    apply ready.adds_nothing (.silent (fun both => register both.1) (fun both => both.2 none_)
      (fun both => both.2.1 none_))
    · simp only [Handler.receiveHeader, ReadBuffer.setToRead, empty, if_true, if_neg other]
      rfl
    · simp only [Handler.receiveHeader, ReadBuffer.setToRead, empty, if_true, if_neg other]
      rfl

end Ready

/-- `handle_message_recv` answers GET_CXN only. -/
theorem Handler.handleMessageRecv_silent (g : Globals) (h : Handler) {msg : CommandMsg}
    (other : ¬ msg.command = COMMAND_GET_CXN) : (h.handleMessageRecv g msg).2 = h := by
  rw [handleMessageRecv, if_neg other]
  split
  · rfl
  · split <;> rfl

/-- A COMMAND. -/
theorem Ready.command_adds {h : Handler} {payload : List UInt8} (ready : Ready h COMMAND payload)
    (cfg : Config) (g : Globals) (some_ : payload ≠ []) : Adds h (h.process cfg g).2 := by
  have first : (commandMsg h.readQueue.buffer (Handler.outside (h.warned g)).beyond).command =
      command payload := command_payloadAt ready (Handler.outside (h.warned g)).beyond some_
  rw [ready.process_command some_]
  by_cases asked : command payload = COMMAND_GET_CXN
  · apply ready.adds_reply (.listed some_ asked (h.warned g))
    · simp only [Handler.commanded, Handler.handleMessageRecv, if_pos (first.trans asked)]
      rfl
    · simp only [Handler.commanded, Handler.handleMessageRecv, if_pos (first.trans asked)]
      rfl
  · have same := h.take.handleMessageRecv_silent (h.warned g) (first ▸ asked)
    apply ready.adds_nothing (.silent (fun both => some_ both.2)
      (fun both => absurd both.1 (by decide)) (fun both => asked both.2.2))
    · simp only [Handler.commanded, same]
      rfl
    · simp only [Handler.commanded, same]
      rfl

/-- A BITCOIN_PACKED_MESSAGE. -/
theorem Ready.packed_adds {h : Handler} {payload : List UInt8}
    (ready : Ready h BITCOIN_PACKED_MESSAGE payload) (cfg : Config) (g : Globals)
    (some_ : payload ≠ []) : Adds h (h.process cfg g).2 := by
  have type : messageType h.take.readQueue.buffer = BITCOIN_PACKED_MESSAGE := ready.type
  have whole : messagePayload h.take.readQueue.buffer = payload := ready.payload_eq
  rw [ready.process_payload cfg g some_]
  apply ready.adds_reply (.registered some_ ((h.warned g).register h.take.id h.take.regid payload).2
    (Globals.register_rejected _ _ _))
  · simp only [Handler.receivePayload, Handler.payloadSwitch, if_pos type]
    rfl
  · simp only [Handler.receivePayload, Handler.payloadSwitch, if_pos type, whole]
    rfl

/-- A message with a payload. -/
theorem Ready.payload_adds {h : Handler} {kind : UInt8} {payload : List UInt8}
    (ready : Ready h kind payload) (cfg : Config) (g : Globals) (some_ : payload ≠ []) :
    Adds h (h.process cfg g).2 := by
  by_cases asked : kind = COMMAND
  · subst asked
    exact ready.command_adds cfg g some_
  by_cases packed : kind = BITCOIN_PACKED_MESSAGE
  · subst packed
    exact ready.packed_adds cfg g some_
  have type : messageType h.take.readQueue.buffer = kind := ready.type
  have same : (h.take.payloadSwitch cfg (h.warned g)).2 = h.take := by
    simp only [Handler.payloadSwitch, type, if_neg packed, if_neg asked]
    split <;> rfl
  rw [ready.process_payload cfg g some_]
  apply ready.adds_nothing (.silent (fun both => some_ both.2) (fun both => packed both.1)
    (fun both => asked both.1))
  · show (h.take.payloadSwitch cfg (h.warned g)).2.seen = _
    rw [same]
  · show (h.take.payloadSwitch cfg (h.warned g)).2.replies = _
    rw [same]

/-! ## Every run -/

/-- The messages taken in so far, each with its answer, in order. -/
def Paired (h : Handler) : Prop :=
  ∃ answers, List.Forall₂ Answered h.seen answers ∧ h.replies.flatten = answers.flatten

theorem Adds.paired {h h' : Handler} (adds : Adds h h') (paired : Paired h) : Paired h' := by
  obtain ⟨answers, each, bytes⟩ := paired
  rcases adds with ⟨seen, replies⟩ | ⟨message, answer, answered, seen, replies⟩
  · exact ⟨answers, by rw [seen]; exact each, by rw [replies]; exact bytes⟩
  · refine ⟨answers ++ [answer], ?_, ?_⟩
    · rw [seen]
      exact List.rel_append each (.cons answered .nil)
    · rw [replies, bytes, List.flatten_append, List.flatten_singleton]

namespace Handler

/-- A header with a payload to come takes nothing in. -/
theorem receiveHeader_sized (g : Globals) {h : Handler}
    (more : ¬ messageLength h.readQueue.buffer = 0) :
    (h.receiveHeader g).2.seen = h.seen ∧ (h.receiveHeader g).2.replies = h.replies := by
  unfold receiveHeader
  simp only
  split
  · rename_i none_
    exact absurd none_ more
  · exact ⟨rfl, rfl⟩

/-- One round of `do_read`: a header, or a message and its answer. -/
theorem round_adds (cfg : Config) (g : Globals) {h : Handler} (sound : Sound h)
    {inbox : List RecvResult} {bytes : List UInt8}
    (valid : (h.readQueue.fill inbox).queue.Valid)
    (full : ReadBuffer.Filled h.readQueue inbox (h.readQueue.fill inbox) bytes) :
    Adds (h.filled (h.readQueue.fill inbox))
      ((h.filled (h.readQueue.fill inbox)).process cfg g).2 := by
  by_cases whole : (h.filled (h.readQueue.fill inbox)).readQueue.held.length =
      messageSize + messageLength (h.filled (h.readQueue.fill inbox)).readQueue.held
  · have ready := ready_of_filled sound valid full whole
    by_cases none_ : (content (h.filled (h.readQueue.fill inbox)).readQueue.held).2 = []
    · exact ready.empty_adds cfg g none_
    · exact ready.payload_adds cfg g none_
  · left
    cases sound.phase.full full.length full.held with
    | payload _ count => exact absurd count whole
    | header state count =>
        have kept := filled_kept sound.toKept valid full.held full.conserved
        have length := messageLength_buffer (h := h.filled (h.readQueue.fill inbox)) kept.reads
          (Nat.le_of_eq count.symm)
        have header : (h.filled (h.readQueue.fill inbox)).state &&& RECV_MASK = RECV_HEADER := state
        have more : ¬ messageLength (h.filled (h.readQueue.fill inbox)).readQueue.buffer = 0 := by
          rw [length]
          intro zero
          apply whole
          rw [zero]
          exact count
        rw [process, if_pos header]
        exact receiveHeader_sized g more

theorem Reading.paired {cfg : Config} {g g' : Globals} {h h' : Handler} {inbox : List RecvResult}
    (reading : Reading cfg g h inbox g' h') (sound : Sound h) (paired : Paired h) : Paired h' := by
  induction reading with
  | blocked valid short => exact paired
  | ended kind val args valid short => exact paired
  | @round g h inbox bytes g' h' valid full next ih =>
      have processed := round_processed cfg g sound valid full
      exact ih processed.sound ((round_adds cfg g sound valid full).paired paired)

theorem doWrite_answers (cfg : Config) (g : Globals) (h : Handler) (outbox : List WriteResult) :
    (h.doWrite cfg g outbox).2.seen = h.seen ∧
      (h.doWrite cfg g outbox).2.replies = h.replies := by
  unfold doWrite
  simp only
  split
  · split <;> exact ⟨rfl, rfl⟩
  · exact ⟨rfl, rfl⟩
  · split <;> exact ⟨rfl, rfl⟩

theorem ioCb_paired (cfg : Config) (g : Globals) {h : Handler} (sound : Sound h) (paired : Paired h)
    (revents : Events) (inbox : List RecvResult) (outbox : List WriteResult) :
    Paired (h.ioCb cfg g revents inbox outbox).2 := by
  have called := ioCb_called cfg g h revents inbox outbox
  generalize h.ioCb cfg g revents inbox outbox = result at called ⊢
  obtain ⟨r, w, read, write⟩ := called
  have taken : Sound r.2 ∧ Paired r.2 := by
    rcases read with ⟨-, -, rfl⟩ | ⟨-, rfl⟩
    · have reading := doRead_reading cfg g inbox sound
      exact ⟨(reading.read sound).sound, reading.paired sound paired⟩
    · exact ⟨sound, paired⟩
  rw [asserted_of_sound taken.1] at write
  have wrote : Paired w.2 := by
    rcases write with ⟨-, rfl⟩ | ⟨-, rfl⟩
    · obtain ⟨seen, replies⟩ := doWrite_answers cfg r.1 r.2 outbox
      rw [Paired, seen, replies]
      exact taken.2
    · exact taken.2
  simp only
  split
  · exact wrote
  · exact wrote

/-- In every run every message has its answer, in order. -/
theorem run_paired (cfg : Config) (fd : Nat) (id regid : UInt32) (callbacks : List Callback) :
    Paired (run (step cfg) (new fd id regid) callbacks) := by
  have keep : ∀ (h : Handler) (c : Callback), Settled h ∧ Paired h →
      Settled (h.step cfg c) ∧ Paired (h.step cfg c) := by
    rintro h c ⟨settled, paired⟩
    unfold step
    split
    · exact ⟨(ioCb_settled cfg c.globals settled c.revents c.inbox c.outbox).1,
        ioCb_paired cfg c.globals settled.sound paired c.revents c.inbox c.outbox⟩
    · exact ⟨settled, paired⟩
  exact (run_keeps keep ⟨new_settled fd id regid, [], .nil, rfl⟩ callbacks).2

end Handler

/-! ## What a client expects -/

/-- The reply a message calls for: four bytes for a REGISTER without payload, four bytes for
a message to register, zero if it is rejected, the table for a well-formed GET_CXN, and
nothing otherwise. -/
def Expected (message : UInt8 × List UInt8) (bytes : List UInt8) : Prop :=
  if message = (REGISTER, []) then ∃ regid : UInt32, bytes = be 4 regid.toNat
  else if message.1 = BITCOIN_PACKED_MESSAGE then
    ∃ id : UInt32, bytes = be 4 id.toNat ∧ (Rejected message.2 → id = 0)
  else if message.1 = COMMAND ∧ command message.2 = COMMAND_GET_CXN ∧ WellFormed message.2 then
    ∃ g : Globals, bytes = g.connections
  else bytes = []

/-- The message is no empty BITCOIN_PACKED_MESSAGE and no malformed GET_CXN. -/
def Answerable (message : UInt8 × List UInt8) : Prop :=
  message ≠ (BITCOIN_PACKED_MESSAGE, []) ∧
    (message.1 = COMMAND → command message.2 = COMMAND_GET_CXN → WellFormed message.2)

instance (message : UInt8 × List UInt8) : Decidable (Answerable message) :=
  inferInstanceAs (Decidable (_ ∧ _))

/-- A table is expected exactly for a well-formed GET_CXN. -/
theorem expected_table_iff {payload : List UInt8} (some_ : payload ≠ [])
    (asked : command payload = COMMAND_GET_CXN) (g : Globals) :
    Expected (COMMAND, payload) g.connections ↔ WellFormed payload := by
  have register : ¬ (COMMAND, payload) = (REGISTER, []) := fun no => some_ (congrArg Prod.snd no)
  have packed : ¬ COMMAND = BITCOIN_PACKED_MESSAGE := by decide
  constructor
  · intro expected
    by_contra malformed
    rw [Expected, if_neg register, if_neg packed, if_neg (fun all => malformed all.2.2)] at expected
    have length := congrArg List.length expected
    simp [Globals.connections] at length
  · intro formed
    rw [Expected, if_neg register, if_neg packed, if_pos ⟨rfl, asked, formed⟩]
    exact ⟨g, rfl⟩

/-- Nothing is expected for what the code passes over, but for the empty
BITCOIN_PACKED_MESSAGE. -/
theorem expected_nothing_iff {kind : UInt8} {payload : List UInt8}
    (register : ¬ (kind = REGISTER ∧ payload = []))
    (packed : ¬ (kind = BITCOIN_PACKED_MESSAGE ∧ payload ≠ []))
    (asked : ¬ (kind = COMMAND ∧ payload ≠ [] ∧ command payload = COMMAND_GET_CXN)) :
    Expected (kind, payload) [] ↔ (kind, payload) ≠ (BITCOIN_PACKED_MESSAGE, []) := by
  have other : ¬ (kind, payload) = (REGISTER, []) := fun no =>
    register ⟨congrArg Prod.fst no, congrArg Prod.snd no⟩
  constructor
  · intro expected no
    have is : kind = BITCOIN_PACKED_MESSAGE := congrArg Prod.fst no
    rw [Expected, if_neg other, if_pos is] at expected
    obtain ⟨id, bytes, -⟩ := expected
    have length := congrArg List.length bytes
    simp at length
  · intro whole
    have no_packed : ¬ kind = BITCOIN_PACKED_MESSAGE := by
      intro is
      have none_ : payload = [] := by
        by_contra some_
        exact packed ⟨is, some_⟩
      exact whole (by rw [is, none_])
    rw [Expected, if_neg other, if_neg no_packed, if_neg]
    rintro ⟨is, get, well⟩
    refine asked ⟨is, ?_, get⟩
    intro none_
    have inside := WellFormed.inside well
    simp only [none_, List.length_nil] at inside
    omega

/-- What is answered is what is expected, exactly for the answerable messages. -/
theorem expected_iff {message : UInt8 × List UInt8} {bytes : List UInt8}
    (answered : Answered message bytes) : Expected message bytes ↔ Answerable message := by
  cases answered with
  | renamed regid =>
      refine ⟨fun _ => ⟨by decide, fun no => absurd no (by decide)⟩, fun _ => ?_⟩
      rw [Expected, if_pos rfl]
      exact ⟨regid, rfl⟩
  | @registered payload some_ id zero =>
      have other : ¬ BITCOIN_PACKED_MESSAGE = COMMAND := by decide
      refine ⟨fun _ => ⟨fun no => some_ (congrArg Prod.snd no), fun is => absurd is other⟩,
        fun _ => ?_⟩
      rw [Expected, if_neg (fun no => some_ (congrArg Prod.snd no)), if_pos rfl]
      exact ⟨id, rfl, zero⟩
  | @listed payload some_ asked g =>
      rw [expected_table_iff some_ asked]
      constructor
      · intro formed
        exact ⟨fun no => some_ (congrArg Prod.snd no), fun _ _ => formed⟩
      · rintro ⟨-, formed⟩
        exact formed rfl asked
  | @silent kind payload register packed asked =>
      rw [expected_nothing_iff register packed asked]
      constructor
      · intro whole
        refine ⟨whole, fun is get => ?_⟩
        -- the first byte of nothing is no command
        have none_ : payload = [] := by
          by_contra some_
          exact asked ⟨is, some_, get⟩
        simp only [none_] at get
        exact absurd get (by decide)
      · rintro ⟨whole, -⟩
        exact whole

/-- A REGISTER, a message to register that is too short, a DISCONNECT of the peer 3 and a GET_CXN,
in two pieces. -/
def someRequests : List Callback :=
  [⟨somePeers, Events.READ,
    [.data ⟨[0, 0, 0, 0, 0, 3, 0, 0, 0, 0, 1, 1, 7, 0, 0], by decide, by decide⟩], []⟩,
   ⟨somePeers, ⟨true, true⟩,
    [.data ⟨[0, 0, 13, 2] ++ commandPayload COMMAND_DISCONNECT 0 [3] ++
      [0, 0, 0, 0, 9, 2, 1, 0, 0, 0, 0, 0, 0, 0, 0], by decide, by decide⟩], [.accept 3]⟩]

/-- A message to register without payload. -/
def someEmptyMessage : List Callback :=
  [⟨someGlobals, Events.READ, [.data ⟨[0, 0, 0, 0, 0, 1], by decide, by decide⟩], []⟩]

end Coinscope.Control

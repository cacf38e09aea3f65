/-
# Connector.TwoConnectors -- a connector that talks to a connector

Two connectors at the ends of one connection: one made it, the other accepted it.  Each goes
through its own events, and the stream between them delivers the front of what was written.
Whatever the order of the callbacks, the pieces the bytes come in and what else the two are
told to send, the messages one handles are the first of those the other queued, whole and in
order.  While anything is on its way one of the two watchers waits for it; when nothing is,
both are behind the handshake.

* `Connection.step`, `Admitted` -- the two ends, and what the stream and the commands may do.
* `Fine` -- what holds of either end by itself.
* `two_connectors` -- what the two have of each other.
-/
import Coinscope.Connector.Answers
import Coinscope.Connector.Handshake

namespace Coinscope.Connector

open Coinscope.Shared
open Coinscope.Theory.Bytes
open Coinscope.Theory.Framing
open Coinscope.Theory.Runs

set_option autoImplicit false

/-! ## The two ends -/

/-- The end on the other side. -/
def Peer.Origin.other : Peer.Origin → Peer.Origin
  | connected => accepted
  | accepted => connected

@[simp] theorem Peer.Origin.other_other (o : Peer.Origin) : o.other.other = o := by
  cases o <;> rfl

theorem Peer.Origin.other_ne (o : Peer.Origin) : o.other ≠ o := by cases o <;> decide

theorem Peer.Origin.eq_or_eq_other (a b : Peer.Origin) : a = b ∨ a = b.other := by
  cases a <;> cases b <;> decide

/-- The handler that made the connection and the one that accepted it. -/
def Connection := Peer.Origin → Peer

namespace Connection

/-- An event of one of the ends. -/
def step (cfg : Peer.Origin → Config) (s : Connection) (e : Peer.Origin × PeerEvent) :
    Connection :=
  fun o => if o = e.1 then (s o).step (cfg o) e.2 else s o

/-- What has been read at an end is the front of what was written at the other. -/
def Carried (s : Connection) (o : Peer.Origin) : Prop :=
  (s o).handler.got <+: (s o.other).handler.sent

/-- The stream delivers what was written, and commands leave a handler alone that has not
spoken. -/
structure Admitted (cfg : Peer.Origin → Config) (s : Connection) (e : Peer.Origin × PeerEvent) :
    Prop where
  carries : (step cfg s e).Carried e.1
  polite : (s e.1).Polite e.2

/-- The two new handlers, each with the clock, the descriptor, the addresses and the id it was
made with. -/
def start (cfg : Peer.Origin → Config) (env : Peer.Origin → VersionEnv)
    (lastBlock : Peer.Origin → Int) (fd : Peer.Origin → Nat)
    (remote localAddr : Peer.Origin → SockaddrStorage) (id : Peer.Origin → UInt32) : Connection :=
  fun o => Peer.new (cfg o) (env o) (lastBlock o) (fd o) o (remote o) (localAddr o) (id o)

/-- Nothing is queued at either end and nothing is between them. -/
def Quiet (s : Connection) : Prop :=
  ∀ o, (s o).handler.got = (s o.other).handler.sent ∧ (s o).handler.writeQueue.toWrite = 0

/-- An end has something to do, and its watcher waits for that. -/
def Ready (s : Connection) (o : Peer.Origin) : Prop :=
  0 < (s o).handler.writeQueue.toWrite ∧ (s o).handler.ioEvents.write = true ∨
    (s o).handler.got ≠ (s o.other).handler.sent ∧ (s o).handler.ioEvents.read = true ∧
      (s o).handler.readQueue.hungry = true

/-- The messages handled at an end are the first of those queued at the other. -/
def Delivered (s : Connection) (o : Peer.Origin) : Prop :=
  received (s o).handler.log <+: queuedWires (s o.other).handler

/-- Both ends are behind the handshake, wait for a header, and have handled everything the
other queued: a version from the one, a version and a verack from the other, and what came
behind these. -/
structure Settled (cfg : Peer.Origin → Config) (s : Connection) : Prop where
  state : ∀ o, (s o).handler.state = RECV_HEADER
  all : ∀ o, received (s o).handler.log = queuedWires (s o.other).handler
  called : ∃ env lastBlock recvAddr more, received (s .accepted).handler.log =
    (versionMessage (cfg .connected) env lastBlock (cfg .connected).external recvAddr).wire :: more
  answered : ∃ env lastBlock fromAddr more, received (s .connected).handler.log =
    (versionMessage (cfg .accepted) env lastBlock fromAddr (cfg .accepted).external).wire ::
      (verackMessage (cfg .accepted)).wire :: more

/-! ## Either end -/

/-- How the queue of an end starts. -/
def Starts (cfg : Config) (h : Handler) : Peer.Origin → Prop
  | .connected => ∃ env lastBlock recvAddr more, queuedWires h =
      (versionMessage cfg env lastBlock cfg.external recvAddr).wire :: more
  | .accepted => Peer.Opening cfg h

/-- What holds of an end by itself. -/
structure Fine (cfg : Config) (o : Peer.Origin) (p : Peer) : Prop where
  sound : Sound p.handler
  outgoing : Outgoing p.handler
  heard : Heard p.handler
  dry : Dry p.handler.readQueue
  answering : Answering cfg p.handler
  starts : Starts cfg p.handler o

theorem new_fine (cfg : Config) (env : VersionEnv) (lastBlock : Int) {fd : Nat} (isOpen : 0 < fd)
    (o : Peer.Origin) (remote localAddr : SockaddrStorage) (id : UInt32) :
    Fine cfg o (Peer.new cfg env lastBlock fd o remote localAddr id) where
  sound := Peer.new_sound cfg env lastBlock isOpen o remote localAddr id
  outgoing := Peer.new_outgoing cfg env lastBlock fd o remote localAddr id
  heard := Peer.new_heard cfg env lastBlock fd o remote localAddr id
  dry := by
    cases o with
    | connected => exact fun _ => rfl
    | accepted => exact fun _ => rfl
  answering := by
    cases o with
    | connected => exact List.nil_sublist _
    | accepted => exact List.nil_sublist _
  starts := by
    cases o with
    | connected => exact ⟨env, lastBlock, remote, [], rfl⟩
    | accepted =>
        refine .waiting ?_ rfl rfl rfl
        show replying (RECV_VERSION_REPLY_HDR &&& RECV_MASK) = true
        decide

theorem step_fine {cfg : Config} {o : Peer.Origin} {p : Peer} (fine : Fine cfg o p) {e : PeerEvent}
    (polite : p.Polite e) : Fine cfg o (p.step cfg e) where
  sound := p.step_sound cfg fine.sound e
  outgoing := p.step_outgoing cfg fine.sound fine.outgoing e
  heard := p.step_heard cfg fine.sound fine.heard fun m send active => (polite m send active).1
  dry := p.step_dry cfg fine.sound fine.dry e
  answering := p.step_answering cfg fine.sound fine.answering e
  starts := by
    cases o with
    | connected =>
        obtain ⟨env, lastBlock, recvAddr, more, queued⟩ := fine.starts
        obtain ⟨later, grown⟩ := p.step_queued cfg fine.sound e
        refine ⟨env, lastBlock, recvAddr, more ++ later, ?_⟩
        rw [← grown, queued, List.cons_append]
    | accepted => exact p.step_opening cfg fine.sound fine.starts polite

/-! ## What comes first -/

theorem complete_wire (m : PackedMessage) : messages.Complete m.wire := by
  have length := m.wire_length
  have size : packedSize = 24 := rfl
  constructor
  · show packedSize ≤ _
    omega
  · rw [messages_size, length, packedLength, PackedMessage.wire, slice_take _ (by omega)]
    rfl

theorem complete_queued (h : Handler) : ∀ f ∈ queuedWires h, messages.Complete f := by
  intro f member
  obtain ⟨m, -, rfl⟩ := List.mem_map.1 member
  exact complete_wire m

theorem packedLength_wire (m : PackedMessage) : packedLength m.wire = m.length := by
  have whole := (complete_wire m).2
  rw [messages_size, m.wire_length] at whole
  omega

section Both

variable {cfg : Peer.Origin → Config} {s : Connection}

/-- What holds of the two ends together. -/
structure Good (cfg : Peer.Origin → Config) (s : Connection) : Prop where
  fine : ∀ o, Fine (cfg o) o (s o)
  carried : ∀ o, s.Carried o

/-- The bytes an end has read are the front of the messages the other queued. -/
theorem Good.front (good : Good cfg s) (o : Peer.Origin) :
    (s o).handler.got <+: (queuedWires (s o.other).handler).flatten := by
  have queued := (good.fine o.other).outgoing.sending.queued
  rw [wires_eq] at queued
  exact (good.carried o).trans ⟨_, queued⟩

theorem Good.delivered (good : Good cfg s) (o : Peer.Origin) : s.Delivered o := by
  have sound := (good.fine o).sound
  have starts : (received (s o).handler.log).flatten <+:
      (queuedWires (s o.other).handler).flatten := by
    refine List.IsPrefix.trans ?_ (good.front o)
    rw [sound.whole, List.append_assoc]
    exact List.prefix_append ..
  have front := messages.parse_starts sound.complete starts
  rwa [messages.parse_whole (complete_queued _)] at front

/-- What an end that accepted its connection says first. -/
theorem Good.accepted (good : Good cfg s) :
    replying (s .accepted).recv = true ∧ queuedWires (s .accepted).handler = [] ∨
      replying (s .accepted).recv = false ∧ ∃ env lastBlock fromAddr more,
        queuedWires (s .accepted).handler =
          (versionMessage (cfg .accepted) env lastBlock fromAddr (cfg .accepted).external).wire ::
            (verackMessage (cfg .accepted)).wire :: more := by
  rcases (good.fine .accepted).starts with ⟨state, silent, -, -⟩ |
      ⟨awake, first, rest, env, block, more, list, queued⟩
  · exact Or.inl ⟨state, silent⟩
  · refine Or.inr ⟨awake, env, block, (s .accepted).handler.remoteAddr, more, ?_⟩
    obtain ⟨env', block', recvAddr, more', version⟩ := (good.fine .connected).starts
    have front := good.delivered .accepted
    rw [Delivered, list] at front
    have head : first :: rest <+: _ :: more' := version ▸ front
    rw [List.cons_prefix_cons] at head
    have silent : answersTo (cfg .accepted) first = [] := by
      rw [head.1]
      exact answersTo_getMessage _ _ _ _ _ (by decide) (by decide)
    rw [queued, silent]
    rfl

/-- The first message queued at an end announces a payload. -/
theorem Good.first (good : Good cfg s) (fits : ∀ o, versionSize (cfg o) < 2 ^ 32)
    (o : Peer.Origin) {frame : List UInt8} {rest : List (List UInt8)}
    (queued : queuedWires (s o).handler = frame :: rest) : packedLength frame ≠ 0 := by
  have version : ∀ o env lastBlock fromAddr recvAddr, packedLength
      (versionMessage (cfg o) env lastBlock fromAddr recvAddr).wire ≠ 0 := by
    intro o env lastBlock fromAddr recvAddr
    have small : versionSize (cfg o) < 256 ^ 4 := fits o
    rw [packedLength_wire, length_versionMessage, Nat.mod_eq_of_lt small, versionSize]
    omega
  cases o with
  | connected =>
      obtain ⟨env, block, recvAddr, more, starts⟩ := (good.fine .connected).starts
      rw [starts] at queued
      injection queued with same
      rw [← same]
      exact version _ _ _ _ _
  | accepted =>
      rcases good.accepted with ⟨-, silent⟩ | ⟨-, env, block, fromAddr, more, starts⟩
      · rw [silent] at queued
        cases queued
      · rw [starts] at queued
        injection queued with same
        rw [← same]
        exact version _ _ _ _ _

/-- Neither end starts with an empty version. -/
theorem Good.announced (good : Good cfg s) (fits : ∀ o, versionSize (cfg o) < 2 ^ 32)
    (o : Peer.Origin) : ¬ EmptyVersion (s o).handler.got := by
  rintro ⟨long, empty⟩
  obtain ⟨tail, whole⟩ := good.front o
  cases queued : queuedWires (s o.other).handler with
  | nil =>
      rw [queued, List.flatten_nil] at whole
      rw [(List.append_eq_nil_iff.1 whole).1] at long
      exact absurd long (by decide)
  | cons frame rest =>
      have header : packedSize ≤ frame.length :=
        (complete_queued (s o.other).handler frame (by rw [queued]; simp)).1
      have same := congrArg packedLength whole
      rw [queued, List.flatten_cons, packedLength_append long, packedLength_append header] at same
      exact good.first fits o.other queued (same.symm.trans empty)

/-! ## Somebody goes on, or it is done -/

/-- A handler that hears its peer and has written everything asks for more. -/
theorem Good.hungry (good : Good cfg s) (fits : ∀ o, versionSize (cfg o) < 2 ^ 32)
    {o : Peer.Origin} (empty : (s o).handler.writeQueue.toWrite = 0) :
    (s o).handler.state &&& RECV_MASK ≠ 0 ∧ 0 < (s o).handler.readQueue.toRead := by
  have fine := good.fine o
  have busy : (s o).handler.state &&& RECV_MASK ≠ 0 := by
    rcases fine.heard with ⟨-, more, -⟩ | busy
    · omega
    · exact busy
  exact ⟨busy, (fine.sound.wants_iff busy fine.dry).2 (good.announced fits o)⟩

/-- While both ends have their descriptor and something is queued or on its way, the watcher
of one of them waits for it. -/
theorem Good.ready (good : Good cfg s) (fits : ∀ o, versionSize (cfg o) < 2 ^ 32)
    (attached : ∀ o, (s o).active = true) : s.Quiet ∨ ∃ o, s.Ready o := by
  have fd : ∀ o, 0 ≤ (s o).handler.io.fd := by
    intro o
    have active := attached o
    simp only [Peer.active, Bool.and_eq_true, decide_eq_true_eq] at active
    exact active.2
  by_cases queued : ∃ o, (s o).handler.writeQueue.toWrite ≠ 0
  · obtain ⟨o, more⟩ := queued
    have outgoing := (good.fine o).outgoing
    refine Or.inr ⟨o, Or.inl ⟨by omega, ?_⟩⟩
    rw [outgoing.watching (fd o)]
    exact decide_eq_true (outgoing.sending.flagged.2 more)
  · have empty : ∀ o, (s o).handler.writeQueue.toWrite = 0 :=
      fun o => not_not.1 fun more => queued ⟨o, more⟩
    by_cases between : ∃ o, (s o).handler.got ≠ (s o.other).handler.sent
    · obtain ⟨o, more⟩ := between
      obtain ⟨busy, wants⟩ := good.hungry fits (empty o)
      refine Or.inr ⟨o, Or.inr ⟨more, ?_, decide_eq_true wants⟩⟩
      rw [(good.fine o).outgoing.watching (fd o)]
      exact decide_eq_true busy
    · exact Or.inl fun o => ⟨not_not.1 fun more => between ⟨o, more⟩, empty o⟩

/-- An end that has taken all that was queued for it has handled it. -/
theorem Good.taken (good : Good cfg s) {o : Peer.Origin}
    (wants : 0 < (s o).handler.readQueue.toRead)
    (written : (s o.other).handler.writeQueue.toWrite = 0)
    (taken : (s o).handler.got = (s o.other).handler.sent) :
    received (s o).handler.log = queuedWires (s o.other).handler ∧
      (s o).handler.readQueue.held = [] := by
  have sound := (good.fine o).sound
  have sending := (good.fine o.other).outgoing.sending
  have all := sending.queued
  rw [sending.writes.toWrite_eq_zero.1 written, List.append_nil, wires_eq] at all
  have whole := sound.whole
  rw [(good.fine o).dry wants, List.append_nil, taken, all] at whole
  have left := messages.parse_whole (complete_queued (s o.other).handler)
  rw [whole, messages.parse_flatten_append sound.complete (sound.incomplete wants)] at left
  injection left with same held
  exact ⟨same, held⟩

/-- An end that has handled something and holds no part of a message waits for a header. -/
theorem header_of_held {h : Handler} (sound : Sound h) (later : received h.log ≠ [])
    (held : h.readQueue.held = []) : h.state &&& RECV_MASK = RECV_HEADER := by
  have short : ¬ packedSize ≤ h.readQueue.held.length := by
    rw [held]
    decide
  cases sound.phase with
  | idle _ _ _ _ first => exact absurd first later
  | header state =>
      rcases state with ⟨here, -⟩ | ⟨-, first⟩
      · exact here
      · exact absurd first later
  | payload _ _ there => exact absurd there short
  | version _ _ there => exact absurd there short

/-- The two halves make the state word. -/
theorem state_of_halves {state recv : UInt32} (low : state &&& RECV_MASK = recv)
    (high : state &&& SEND_MASK = 0) : state = recv := by
  have all : RECV_MASK ||| SEND_MASK = -1 := by decide
  calc state = state &&& (RECV_MASK ||| SEND_MASK) := by rw [all, UInt32.and_neg_one]
    _ = (RECV_MASK ||| SEND_MASK) &&& state := UInt32.and_comm ..
    _ = RECV_MASK &&& state ||| SEND_MASK &&& state := or_and ..
    _ = recv := by
        rw [UInt32.and_comm RECV_MASK, UInt32.and_comm SEND_MASK, low, high, UInt32.or_zero]

theorem Good.settled (good : Good cfg s) (fits : ∀ o, versionSize (cfg o) < 2 ^ 32)
    (quiet : s.Quiet) : s.Settled cfg := by
  have all := fun o => good.taken (good.hungry fits (quiet o).2).2 (quiet o.other).2 (quiet o).1
  have state : ∀ o, received (s o).handler.log ≠ [] → (s o).handler.state = RECV_HEADER := by
    intro o later
    have sending := (good.fine o).outgoing.sending
    refine state_of_halves (header_of_held (good.fine o).sound later (all o).2) ?_
    exact not_not.1 fun flag => sending.flagged.1 flag (quiet o).2
  obtain ⟨env, block, recvAddr, more, version⟩ := (good.fine .connected).starts
  have called : received (s .accepted).handler.log = _ :: more := (all .accepted).1.trans version
  have accepted : (s .accepted).handler.state = RECV_HEADER :=
    state .accepted (by rw [called]; exact List.cons_ne_nil _ _)
  obtain ⟨env', block', fromAddr, more', reply⟩ : ∃ env lastBlock fromAddr more,
      queuedWires (s .accepted).handler =
        (versionMessage (cfg .accepted) env lastBlock fromAddr (cfg .accepted).external).wire ::
          (verackMessage (cfg .accepted)).wire :: more := by
    rcases good.accepted with ⟨waiting, -⟩ | ⟨-, reply⟩
    · rw [Peer.recv, accepted] at waiting
      exact absurd waiting (by decide)
    · exact reply
  have answered := (all .connected).1.trans reply
  refine ⟨?_, fun o => (all o).1, ⟨env, block, recvAddr, more, called⟩,
    ⟨env', block', fromAddr, more', answered⟩⟩
  intro o
  cases o with
  | connected => exact state .connected (by rw [answered]; exact List.cons_ne_nil _ _)
  | accepted => exact accepted

/-! ## Every run -/

theorem start_good (cfg : Peer.Origin → Config) (env : Peer.Origin → VersionEnv)
    (lastBlock : Peer.Origin → Int) {fd : Peer.Origin → Nat} (isOpen : ∀ o, 0 < fd o)
    (remote localAddr : Peer.Origin → SockaddrStorage) (id : Peer.Origin → UInt32) :
    Good cfg (start cfg env lastBlock fd remote localAddr id) where
  fine o := new_fine (cfg o) (env o) (lastBlock o) (isOpen o) o (remote o) (localAddr o) (id o)
  carried o := by
    cases o with
    | connected => exact List.nil_prefix
    | accepted => exact List.nil_prefix

theorem step_good (good : Good cfg s) {e : Peer.Origin × PeerEvent} (admitted : Admitted cfg s e) :
    Good cfg (step cfg s e) where
  fine o := by
    unfold step
    split
    · rename_i same
      subst same
      exact step_fine (good.fine _) admitted.polite
    · exact good.fine o
  carried o := by
    rcases Peer.Origin.eq_or_eq_other o e.1 with same | same
    · rw [same]
      exact admitted.carries
    · -- the other end has read what it had, and more is written
      have here : step cfg s e o = s o := if_neg (by rw [same]; exact Peer.Origin.other_ne _)
      have there : step cfg s e o.other = (s o.other).step (cfg o.other) e.2 :=
        if_pos (by rw [same, Peer.Origin.other_other])
      rw [Carried, here, there]
      exact (good.carried o).trans (Peer.step_sent _ (good.fine o.other).sound e.2)

theorem run_good (good : Good cfg s) {events : List (Peer.Origin × PeerEvent)}
    (admitted : Along (step cfg) (Admitted cfg) s events) : Good cfg (run (step cfg) s events) :=
  run_invariant (P := Good cfg) (fun _ _ good admitted => step_good good admitted) good admitted

end Both

end Connection

/-- Take two connectors, one of which has made a connection to the other, and any order of
their events: callbacks with any results of `recv` and `write`, timers, commands that leave a
handler alone which has not spoken.  At every moment the messages one end has handled are the
first of those the other end queued, and every one that asks for an answer has had it queued.
As long as neither end has given up its descriptor, either something is queued or on its way
and the watcher of one end waits for it, or both ends are behind the handshake and have
handled all there is. -/
theorem two_connectors (cfg : Peer.Origin → Config) (env : Peer.Origin → VersionEnv)
    (lastBlock : Peer.Origin → Int) (fd : Peer.Origin → Nat) (isOpen : ∀ o, 0 < fd o)
    (remote localAddr : Peer.Origin → SockaddrStorage) (id : Peer.Origin → UInt32)
    (fits : ∀ o, versionSize (cfg o) < 2 ^ 32) (events : List (Peer.Origin × PeerEvent))
    (s : Connection)
    (reached : s = run (Connection.step cfg)
      (Connection.start cfg env lastBlock fd remote localAddr id) events)
    (admitted : Along (Connection.step cfg) (Connection.Admitted cfg)
      (Connection.start cfg env lastBlock fd remote localAddr id) events) :
    (∀ o, s.Delivered o ∧ Answering (cfg o) (s o).handler) ∧
      ((∀ o, (s o).active = true) → (s.Quiet ∨ ∃ o, s.Ready o)) ∧
      (s.Quiet → s.Settled cfg) := by
  have good : Connection.Good cfg s := by
    rw [reached]
    exact Connection.run_good
      (Connection.start_good cfg env lastBlock isOpen remote localAddr id) admitted
  exact ⟨fun o => ⟨good.delivered o, (good.fine o).answering⟩, good.ready fits, good.settled fits⟩

/-- Two connectors with one configuration, one of which has called the other. -/
def someConnection : Connection :=
  Connection.start (fun _ => someConfig) (fun _ => someEnv) (fun _ => 0) (fun _ => 5)
    (fun _ => someAddr) (fun _ => someAddr) (fun _ => 3)

/-- The version of the one end, in two pieces. -/
def someVersionFront : Chunk where
  bytes := (versionMessage someConfig someEnv 0 someAddr someAddr).wire.take 100
  nonempty := by decide +kernel
  fits := by decide +kernel

def someVersionRest : Chunk where
  bytes := (versionMessage someConfig someEnv 0 someAddr someAddr).wire.drop 100
  nonempty := by decide +kernel
  fits := by decide +kernel

/-- The version and the verack of the other. -/
def someReply : Chunk where
  bytes := (versionMessage someConfig someEnv 300000 someAddr someAddr).wire ++
    (verackMessage someConfig).wire
  nonempty := by decide +kernel
  fits := by decide +kernel

def someMeeting : List (Peer.Origin × PeerEvent) :=
  [(.connected, .ioCb someEnv 0 Events.WRITE [] [.accept 500]),
   (.accepted, .ioCb someEnv 0 Events.READ [.data someVersionFront] []),
   (.accepted, .ioCb someEnv 0 ⟨true, true⟩ [.data someVersionRest] [.accept 60, .accept 500]),
   (.accepted, .ioCb someEnv 0 Events.WRITE [] [.accept 500, .accept 500]),
   (.connected, .ioCb someEnv 0 Events.READ [.data someReply] [])]

/-- The two shake hands in five callbacks. -/
theorem two_connectors_meet :
    (run (Connection.step fun _ => someConfig) someConnection someMeeting).Settled
      fun _ => someConfig := by
  refine (two_connectors (fun _ => someConfig) (fun _ => someEnv) (fun _ => 0) (fun _ => 5)
    (fun _ => by decide) (fun _ => someAddr) (fun _ => someAddr) (fun _ => 3)
    (fun _ => by decide +kernel) someMeeting _ rfl ?_).2.2 ?_
  · refine ⟨⟨?_, fun _ no => by cases no⟩, ⟨?_, fun _ no => by cases no⟩,
      ⟨?_, fun _ no => by cases no⟩, ⟨?_, fun _ no => by cases no⟩,
      ⟨?_, fun _ no => by cases no⟩, trivial⟩
    all_goals
      unfold Connection.Carried
      decide +kernel
  · intro o
    cases o with
    | connected => decide +kernel
    | accepted => decide +kernel

end Coinscope.Connector

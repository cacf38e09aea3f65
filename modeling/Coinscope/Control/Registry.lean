/-
# Control.Registry -- registered messages reach the handlers they are sent to

A control connection registers a message and gets an id; a later command of the same
connection names the id and a list of handlers.  The tables are kept by connection,
the ids are counted through the whole process, and neither counter wraps as long as
there are fewer than 2^32 - 1 registrations and connections.

* `registrations` -- the messages that got an id, as an observer saw them.
* `Delivered` -- what a send does, in terms of the registrations before it.
* `Registry` -- the invariant: the tables are the registrations of the connections that
  are not deleted.
* `delivered_exactly` -- every run without a REGISTER message.
-/
import Coinscope.Control.ControlFraming
import Coinscope.Control.ControlPlane
import Coinscope.Control.Delivery
import Coinscope.Theory.Histories

namespace Coinscope.Control

open Coinscope.Shared
open Coinscope.Theory.Bytes
open Coinscope.Theory.Histories
open Coinscope.Theory.Runs
open Coinscope.Connector (RECV_MASK RECV_HEADER RECV_PAYLOAD SEND_MASK)
open Std (TreeMap)

set_option autoImplicit false

/-! ## What an observer saw -/

/-- A message that got an id other than zero. -/
structure Registration where
  connection : UInt32
  id : UInt32
  payload : List UInt8
  deriving DecidableEq

/-- The registrations of a history. -/
def registrations (served : List Served) : List Registration :=
  served.filterMap fun
    | .registered connection payload id =>
        if id = 0 then none else some ⟨connection, id, payload⟩
    | .commanded .. => none
    | .renamed .. => none

theorem registrations_append (a b : List Served) :
    registrations (a ++ b) = registrations a ++ registrations b := List.filterMap_append

theorem registrations_registered {id : UInt32} (given : id ≠ 0) (connection : UInt32)
    (payload : List UInt8) :
    registrations [.registered connection payload id] = [⟨connection, id, payload⟩] := by
  simp [registrations, given]

/-- A well-formed SEND_MSG command: if its connection has registered the message, the
targets get the registered bytes; if not, no handler changes. -/
def Delivered (earlier : List Served) : Served → Prop
  | .commanded connection payload before after =>
      ∀ messageId targets, payload = commandPayload COMMAND_SEND_MSG messageId targets →
        (∀ bytes, ⟨connection, messageId, bytes⟩ ∈ registrations earlier →
          Appended bytes targets before after) ∧
        ((∀ bytes, ⟨connection, messageId, bytes⟩ ∉ registrations earlier) → after = before)
  | .registered .. => True
  | .renamed .. => True

/-- No REGISTER message so far, and fewer registrations than ids. -/
structure Modest (served : List Served) : Prop where
  noRegister : ∀ connection, .renamed connection ∉ served
  few : (registrations served).length + 1 < 2 ^ 32

theorem Modest.initial {served more : List Served} (modest : Modest (served ++ more)) :
    Modest served := by
  refine ⟨fun c member => modest.noRegister c (List.mem_append_left _ member), ?_⟩
  have few := modest.few
  rw [registrations_append, List.length_append] at few
  omega

/-! ## The invariant -/

/-- The ids are counted up from one; the tables hold registrations only, and all those of
the connections that are not deleted. -/
structure Registry (alive : UInt32 → Prop) (g : Globals) : Prop where
  counted : g.messageIds.toNat = (registrations g.served).length + 1
  numbered : (registrations g.served).map (fun r => r.id.toNat) =
    List.range' 1 (registrations g.served).length
  sized : ∀ r ∈ registrations g.served, r.payload.length = packedSize + packedLength r.payload
  stored : ∀ c m packed, (g.tableOf c)[m]? = some packed →
    ⟨c, m, packed.wire⟩ ∈ registrations g.served
  kept : ∀ r ∈ registrations g.served, alive r.connection →
    ∃ packed, (g.tableOf r.connection)[r.id]? = some packed ∧ packed.wire = r.payload
  delivered : Each Delivered g.served

namespace Registry

variable {alive : UInt32 → Prop} {g g' : Globals}

theorem transfer (registry : Registry alive g) (same : SameTables g g') : Registry alive g' where
  counted := by rw [same.messageIds, same.served]; exact registry.counted
  numbered := by rw [same.served]; exact registry.numbered
  sized := by rw [same.served]; exact registry.sized
  stored := by
    intro c m packed found
    rw [same.tables] at found
    rw [same.served]
    exact registry.stored c m packed found
  kept := by
    intro r member lives
    rw [same.served] at member
    rw [same.tables]
    exact registry.kept r member lives
  delivered := by rw [same.served]; exact registry.delivered

theorem mono (registry : Registry alive g) {fewer : UInt32 → Prop}
    (subset : ∀ c, fewer c → alive c) : Registry fewer g :=
  ⟨registry.counted, registry.numbered, registry.sized, registry.stored,
    fun r member lives => registry.kept r member (subset _ lives), registry.delivered⟩

/-- Every id given so far is below the counter. -/
theorem below (registry : Registry alive g) {r : Registration}
    (member : r ∈ registrations g.served) :
    1 ≤ r.id.toNat ∧ r.id.toNat < g.messageIds.toNat := by
  have counted := registry.counted
  have numbered : r.id.toNat ∈ List.range' 1 (registrations g.served).length := by
    rw [← registry.numbered]
    exact List.mem_map_of_mem member
  rw [List.mem_range'_1] at numbered
  omega

theorem nonzero (registry : Registry alive g) : g.messageIds ≠ 0 := by
  intro zero
  have counted := registry.counted
  rw [zero] at counted
  exact absurd counted (by simp)

/-- The next id is in no table. -/
theorem fresh (registry : Registry alive g) (c : UInt32) : g.messageIds ∉ g.tableOf c := by
  intro member
  obtain ⟨packed, found⟩ := Option.isSome_iff_exists.1 (TreeMap.isSome_getElem?_iff_mem.2 member)
  have given := registry.below (registry.stored c _ packed found)
  exact Nat.lt_irrefl _ given.2

/-- An entry that is no registration. -/
theorem serve (registry : Registry alive g) {entry : Served} (none_ : registrations [entry] = [])
    (now : Delivered g.served entry) : Registry alive (g.serve entry) := by
  have same : registrations (g.serve entry).served = registrations g.served := by
    rw [Globals.serve, registrations_append, none_, List.append_nil]
  refine ⟨?_, ?_, ?_, ?_, ?_, each_append_singleton registry.delivered now⟩
  · rw [same]; exact registry.counted
  · rw [same]; exact registry.numbered
  · rw [same]; exact registry.sized
  · rw [same]; exact registry.stored
  · rw [same]; exact registry.kept

end Registry

/-! ## Registering -/

/-- The tables with one more message, under the next id. -/
def Globals.withMessage (g : Globals) (id : UInt32) (m : PackedMessage) : Globals :=
  { g with
    messageIds := g.messageIds + 1
    messages := g.messages.insert id ((g.tableOf id).insertIfNew g.messageIds m) }

theorem Globals.withMessage_lookup {g : Globals} {id : UInt32} (fresh : g.messageIds ∉ g.tableOf id)
    (message : PackedMessage) (c m : UInt32) :
    ((g.withMessage id message).tableOf c)[m]? =
      if id = c ∧ g.messageIds = m then some message else (g.tableOf c)[m]? := by
  have table : (g.withMessage id message).tableOf c =
      if id = c then (g.tableOf id).insertIfNew g.messageIds message else g.tableOf c := by
    simp only [withMessage, tableOf, TreeMap.getElem?_insert, Std.LawfulEqCmp.compare_eq_iff_eq]
    split <;> rfl
  rw [table]
  by_cases connection : id = c
  · subst connection
    simp only [if_true, TreeMap.getElem?_insertIfNew, Std.LawfulEqCmp.compare_eq_iff_eq, fresh,
      not_false_eq_true, and_true, true_and]
  · simp only [connection, if_false, false_and]

/-- A message that passes the length check gets the next id. -/
theorem register_fits {alive : UInt32 → Prop} {g : Globals} (registry : Registry alive g)
    (id regid : UInt32) {payload : List UInt8} (long : packedSize ≤ payload.length)
    (fits : payload.length = packedSize + packedLength payload) :
    (g.register id regid payload).2 = g.messageIds ∧
      SameTables (g.withMessage id (Globals.registeredMsg payload fits))
        (g.register id regid payload).1 := by
  rw [Globals.register, dif_pos ⟨long, fits⟩]
  simp only [if_neg (registry.fresh id)]
  exact ⟨trivial, (Globals.gLog_same ..).trans (Globals.gLog_same ..)⟩

/-- The registrations with one more, under the next id. -/
theorem Registry.register {alive : UInt32 → Prop} {g g' : Globals} (registry : Registry alive g)
    (few : (registrations g.served).length + 2 < 2 ^ 32) (id : UInt32) {payload : List UInt8}
    (fits : payload.length = packedSize + packedLength payload)
    (same : SameTables (g.withMessage id (Globals.registeredMsg payload fits)) g') :
    Registry alive (g'.serve (.registered id payload g.messageIds)) := by
  have counted := registry.counted
  have news : registrations (g'.serve (.registered id payload g.messageIds)).served =
      registrations g.served ++ [⟨id, g.messageIds, payload⟩] := by
    rw [Globals.serve, same.served, registrations_append, registrations_registered registry.nonzero]
    rfl
  have lookup : ∀ c m, ((g'.serve (.registered id payload g.messageIds)).tableOf c)[m]? =
      if id = c ∧ g.messageIds = m then some (Globals.registeredMsg payload fits)
      else (g.tableOf c)[m]? := by
    intro c m
    rw [← Globals.withMessage_lookup (registry.fresh id), ← same.tables c]
    rfl
  refine ⟨?_, ?_, ?_, ?_, ?_, ?_⟩
  · rw [news, List.length_append, List.length_singleton]
    show g'.messageIds.toNat = _
    rw [same.messageIds]
    show (g.messageIds + 1).toNat = _
    rw [UInt32.toNat_add, counted]
    exact Nat.mod_eq_of_lt few
  · rw [news, List.map_append, registry.numbered, List.length_append, List.length_singleton,
      ← List.range'_append_1]
    simp [counted, Nat.add_comm]
  · rw [news]
    intro r member
    rcases List.mem_append.1 member with early | last
    · exact registry.sized r early
    · rw [List.mem_singleton.1 last]
      exact fits
  · intro c m packed found
    rw [news]
    rw [lookup] at found
    split at found
    · rename_i new
      obtain ⟨rfl, rfl⟩ := new
      cases found
      rw [Globals.registeredMsg_wire]
      exact List.mem_append_right _ List.mem_cons_self
    · exact List.mem_append_left _ (registry.stored c m packed found)
  · intro r member lives
    rw [news] at member
    rw [lookup]
    rcases List.mem_append.1 member with early | last
    · -- ids given earlier are smaller
      have other : ¬ (id = r.connection ∧ g.messageIds = r.id) := by
        rintro ⟨-, clash⟩
        have below := registry.below early
        rw [clash] at below
        omega
      rw [if_neg other]
      exact registry.kept r early lives
    · rw [List.mem_singleton.1 last, if_pos ⟨rfl, rfl⟩]
      exact ⟨_, rfl, Globals.registeredMsg_wire fits⟩
  · show Each Delivered (g'.served ++ [_])
    rw [same.served]
    exact each_append_singleton registry.delivered trivial

theorem Globals.register_served (g : Globals) (id regid : UInt32) (payload : List UInt8) :
    (g.register id regid payload).1.served = g.served := by
  unfold register
  split
  · simp only
    split <;> rfl
  · rfl

/-- The branch BITCOIN_PACKED_MESSAGE. -/
theorem Registry.registered {alive : UInt32 → Prop} {g : Globals} (registry : Registry alive g)
    (id regid : UInt32) (payload : List UInt8)
    (modest : Modest ((g.register id regid payload).1.serve
      (.registered id payload (g.register id regid payload).2)).served) :
    Registry alive ((g.register id regid payload).1.serve
      (.registered id payload (g.register id regid payload).2)) := by
  by_cases fits : packedSize ≤ payload.length ∧ payload.length = packedSize + packedLength payload
  · obtain ⟨result, same⟩ := register_fits registry id regid fits.1 fits.2
    have few := modest.few
    rw [result] at few ⊢
    refine registry.register ?_ id fits.2 same
    rw [Globals.serve, same.served, registrations_append, registrations_registered registry.nonzero,
      List.length_append, List.length_singleton] at few
    exact few
  · have result : g.register id regid payload =
        (g.gLog .ERROR (text "Attempted to register invalid message") [], 0) := by
      rw [Globals.register, dif_neg fits]
    rw [result]
    exact (registry.transfer (Globals.gLog_same ..)).serve rfl trivial

/-! ## Commands -/

/-- A send finds the message exactly if its connection has registered it. -/
theorem Registry.sent {alive : UInt32 → Prop} {g : Globals} (registry : Registry alive g)
    {c : UInt32} (lives : alive c) (msg : CommandMsg) :
    (∀ bytes, ⟨c, msg.messageId, bytes⟩ ∈ registrations g.served →
      Appended bytes msg.targets g.activeHandlers (g.sendMsg c msg).activeHandlers) ∧
    ((∀ bytes, ⟨c, msg.messageId, bytes⟩ ∉ registrations g.served) →
      (g.sendMsg c msg).activeHandlers = g.activeHandlers) := by
  have table := (g.opened_same c).tables c
  constructor
  · intro bytes member
    obtain ⟨packed, found, rfl⟩ := registry.kept _ member lives
    rw [Globals.sendMsg]
    simp only [table, found]
    exact foreachHandlers_appended { g with messages := g.messages.insertIfNew c ∅ } msg packed
  · intro unknown
    have missing : (g.tableOf c)[msg.messageId]? = none := by
      cases found : (g.tableOf c)[msg.messageId]? with
      | none => rfl
      | some packed => exact absurd (registry.stored c _ packed found) (unknown _)
    rw [Globals.sendMsg]
    simp only [table, missing]
    rfl

namespace Handler

theorem handleMessageRecv_same (g : Globals) (h : Handler) (msg : CommandMsg) :
    SameTables g (h.handleMessageRecv g msg).1 := by
  unfold handleMessageRecv
  split
  · exact g.gLog_same ..
  · split
    · exact g.sendMsg_same ..
    · split
      · exact g.disconnect_same ..
      · exact g.gLog_same ..

/-- The branch COMMAND, on a message that is in the read buffer as a whole. -/
theorem handleMessageRecv_delivered {alive : UInt32 → Prop} {g : Globals}
    (registry : Registry alive g) {h : Handler} (lives : alive h.id) {memory : List UInt8}
    (inside : messageSize + messageLength memory ≤ memory.length) (beyond : Nat → UInt8) :
    Delivered g.served (.commanded h.id (messagePayload memory) g.activeHandlers
      (h.handleMessageRecv g (commandMsg memory beyond)).1.activeHandlers) := by
  intro messageId targets payload
  have msg := commandMsg_eq inside payload beyond
  have other : COMMAND_SEND_MSG ≠ COMMAND_GET_CXN := by decide
  have branch : h.handleMessageRecv g (commandMsg memory beyond) =
      (g.sendMsg h.id ⟨COMMAND_SEND_MSG, messageId, targets⟩, h) := by
    rw [msg, handleMessageRecv, if_neg other, if_pos rfl]
  rw [branch]
  exact registry.sent lives ⟨COMMAND_SEND_MSG, messageId, targets⟩

end Handler

/-! ## A callback -/

/-- The invariant, as far as the history meets the assumptions. -/
def Tracked (alive : UInt32 → Prop) (g : Globals) : Prop := Modest g.served → Registry alive g

theorem Tracked.transfer {alive : UInt32 → Prop} {g g' : Globals} (tracked : Tracked alive g)
    (same : SameTables g g') : Tracked alive g' := by
  intro modest
  rw [same.served] at modest
  exact (tracked modest).transfer same

namespace Handler

variable {alive : UInt32 → Prop} {g : Globals} {h : Handler}

theorem payloadSwitch_tracked (cfg : Config) (tracked : Tracked alive g) (lives : alive h.id)
    (inside : messageSize + messageLength h.readQueue.buffer ≤ h.readQueue.buffer.length) :
    Tracked alive (h.payloadSwitch cfg g).1 := by
  unfold payloadSwitch
  simp only
  split
  · intro modest
    have before : Modest g.served := by
      have same : (g.register h.id h.regid (messagePayload h.readQueue.buffer)).1.served =
          g.served := Globals.register_served ..
      rw [Globals.serve, same] at modest
      exact modest.initial
    exact (tracked before).registered h.id h.regid _ modest
  · split
    · intro modest
      have same := handleMessageRecv_same g h (commandMsg h.readQueue.buffer (outside g).beyond)
      have registry := tracked (by
        rw [Globals.serve, same.served] at modest
        exact modest.initial)
      refine (registry.transfer same).serve rfl ?_
      rw [same.served]
      exact handleMessageRecv_delivered registry lives inside _
    · split
      · exact tracked.transfer (g.connect_same ..)
      · exact tracked.transfer (g.gLog_same ..)

theorem receivePayload_tracked (cfg : Config) (tracked : Tracked alive g) (lives : alive h.id)
    (inside : messageSize + messageLength h.readQueue.buffer ≤ h.readQueue.buffer.length) :
    Tracked alive (h.receivePayload cfg g).1 := by
  unfold receivePayload
  simp only
  refine (payloadSwitch_tracked cfg (h := h.take) ?_ lives inside).transfer
    (SameTables.of_messages rfl rfl rfl)
  split
  · exact tracked.transfer (g.gLog_same ..)
  · exact tracked

/-- A REGISTER message is none of the modest ones. -/
theorem receiveHeader_tracked (tracked : Tracked alive g) :
    Tracked alive (h.receiveHeader g).1 := by
  have warned : Tracked alive (if messageVersion h.readQueue.buffer ≠ 0 then
      g.gLog .DEBUG (text "Warning: Unsupported version")
        [decimal (messageVersion h.readQueue.buffer).toNat] else g) := by
    split
    · exact tracked.transfer (g.gLog_same ..)
    · exact tracked
  unfold receiveHeader
  simp only
  split
  · split
    · intro modest
      refine absurd ?_ (modest.noRegister h.id)
      exact List.mem_append_right _ List.mem_cons_self
    · exact warned.transfer (SameTables.of_messages rfl rfl rfl)
  · exact warned

theorem process_tracked (cfg : Config) (tracked : Tracked alive g) (lives : alive h.id)
    (kept : Kept h) (full : FullPhase (h.state &&& RECV_MASK) h.readQueue.held) :
    Tracked alive (h.process cfg g).1 := by
  cases full with
  | header state count =>
      rw [process, if_pos state]
      exact receiveHeader_tracked tracked
  | payload state count =>
      have other : ¬ h.state &&& RECV_MASK = RECV_HEADER := by rw [state]; decide
      have length := messageLength_buffer kept.reads (by omega)
      have inside : messageSize + messageLength h.readQueue.buffer ≤ h.readQueue.buffer.length := by
        rw [length, ← count, ReadBuffer.held, List.length_take]
        exact Nat.min_le_right ..
      rw [process, if_neg other, if_pos state]
      exact receivePayload_tracked cfg tracked lives inside

theorem Reading.tracked {cfg : Config} {g' : Globals} {h' : Handler} {inbox : List RecvResult}
    (reading : Reading cfg g h inbox g' h') (sound : Sound h) (lives : alive h.id)
    (tracked : Tracked alive g) : Tracked alive g' := by
  induction reading with
  | blocked valid short => exact tracked
  | @ended g h inbox bytes kind val args valid short =>
      exact (tracked.transfer (g.gLog_same kind val args)).transfer
        (SameTables.of_messages rfl rfl rfl)
  | @round g h inbox bytes g' h' valid full next ih =>
      have processed := round_processed cfg g sound valid full
      have kept := filled_kept sound.toKept valid full.held full.conserved
      refine ih processed.sound ?_ ?_
      · rw [processed.id]
        exact lives
      · exact process_tracked cfg tracked lives kept (sound.phase.full full.length full.held)

theorem doWrite_same (cfg : Config) (g : Globals) (h : Handler) (outbox : List WriteResult) :
    SameTables g (h.doWrite cfg g outbox).1 := by
  unfold doWrite
  simp only
  split
  · exact SameTables.refl g
  · exact SameTables.of_messages rfl rfl rfl
  · exact SameTables.refl g

theorem ioCb_tracked (cfg : Config) (settled : Settled h) (lives : alive h.id)
    (tracked : Tracked alive g) (revents : Events) (inbox : List RecvResult)
    (outbox : List WriteResult) : Tracked alive (h.ioCb cfg g revents inbox outbox).1 := by
  have sound := settled.sound
  have called := ioCb_called cfg g h revents inbox outbox
  generalize h.ioCb cfg g revents inbox outbox = result at called ⊢
  obtain ⟨r, w, read, write⟩ := called
  have taken : Tracked alive r.1 := by
    rcases read with ⟨-, -, rfl⟩ | ⟨-, rfl⟩
    · exact (doRead_reading cfg g inbox sound).tracked sound lives tracked
    · exact tracked
  rcases write with ⟨-, rfl⟩ | ⟨-, rfl⟩
  · exact taken.transfer (doWrite_same ..)
  · exact taken

end Handler

/-! ## The control connections -/

namespace Plane

/-- The id is one of a connection that is not deleted, or was not given yet. -/
def Alive (p : Plane) (c : UInt32) : Prop :=
  (∃ (k : Nat) (h : Handler), p.connections[k]? = some h ∧ h.id = c) ∨ p.accepted ≤ c.toNat

/-- The ids of the connections are counted up from zero, each connection is as its
callbacks leave it, and the tables are the registrations. -/
structure Consistent (p : Plane) : Prop where
  pool : p.idPool = UInt32.ofNat p.accepted
  older : ∀ (k : Nat) (h : Handler), p.connections[k]? = some h → k < p.accepted
  named : ∀ (k : Nat) (h : Handler), p.connections[k]? = some h → h.id = UInt32.ofNat k
  settled : ∀ (k : Nat) (h : Handler), p.connections[k]? = some h → Handler.Settled h
  tracked : p.accepted < 2 ^ 32 → Tracked p.Alive p.globals

theorem start_consistent (blacklist : SockaddrStorage → Bool) (tape : Nat → Outside) :
    Consistent (start blacklist tape) := by
  have nobody : ∀ (k : Nat) (h : Handler),
      (start blacklist tape).connections[k]? = some h → False := by
    intro k h found
    rw [start, TreeMap.getElem?_emptyc] at found
    cases found
  refine ⟨rfl, fun k h found => (nobody k h found).elim, fun k h found => (nobody k h found).elim,
    fun k h found => (nobody k h found).elim, ?_⟩
  intro _ _
  refine ⟨rfl, rfl, ?_, ?_, ?_, each_nil⟩
  · intro r member
    cases member
  · intro c m packed found
    simp [start, Globals.start, Globals.tableOf] at found
  · intro r member
    cases member

/-- The id of a connection gives it away. -/
theorem Consistent.toNat_id {p : Plane} (consistent : Consistent p) (few : p.accepted < 2 ^ 32)
    {k : Nat} {h : Handler} (found : p.connections[k]? = some h) : h.id.toNat = k := by
  have older := consistent.older k h found
  rw [consistent.named k h found]
  exact UInt32.toNat_ofNat_of_lt' (by show k < 2 ^ 32; omega)

/-- A connection found behind an insertion is the inserted one, or was there before. -/
theorem insert_cases {connections : TreeMap Nat Handler} {k k' : Nat} {h h' : Handler}
    (found : (connections.insert k h)[k']? = some h') :
    (k' = k ∧ h' = h) ∨ connections[k']? = some h' := by
  rw [TreeMap.getElem?_insert] at found
  split at found
  · rename_i same
    exact Or.inl ⟨(Std.LawfulEqCmp.compare_eq_iff_eq.1 same).symm, (Option.some.inj found).symm⟩
  · exact Or.inr found

/-- A new connection, before the old ones are deleted. -/
theorem Consistent.opened {p : Plane} (consistent : Consistent p) (fd : Nat) (regid : UInt32) :
    Consistent
      { globals := { p.globals with activeDescriptors := p.globals.activeDescriptors + 1 }
        connections := p.connections.insert p.accepted (Handler.new fd p.idPool regid)
        idPool := p.idPool + 1
        accepted := p.accepted + 1 } := by
  refine ⟨?_, ?_, ?_, ?_, ?_⟩
  · show p.idPool + 1 = _
    rw [consistent.pool, UInt32.ofNat_add]
    rfl
  · intro k h there
    show k < p.accepted + 1
    rcases insert_cases there with ⟨rfl, -⟩ | old
    · exact Nat.lt_add_one _
    · exact Nat.lt_succ_of_lt (consistent.older k h old)
  · intro k h there
    rcases insert_cases there with ⟨rfl, rfl⟩ | old
    · exact consistent.pool
    · exact consistent.named k h old
  · intro k h there
    rcases insert_cases there with ⟨rfl, rfl⟩ | old
    · exact Handler.new_settled ..
    · exact consistent.settled k h old
  · intro few modest
    have less : p.accepted < 2 ^ 32 := Nat.lt_of_succ_lt few
    have registry := consistent.tracked less modest
    refine (registry.mono ?_).transfer (SameTables.of_messages rfl rfl rfl)
    rintro c (⟨k, h, there, rfl⟩ | later)
    · rcases insert_cases there with ⟨rfl, rfl⟩ | old
      · right
        show p.accepted ≤ p.idPool.toNat
        rw [consistent.pool, UInt32.toNat_ofNat_of_lt' less]
      · exact Or.inl ⟨k, h, old, rfl⟩
    · right
      have : p.accepted + 1 ≤ c.toNat := later
      omega

/-- Erasing the tables of some connections. -/
theorem getElem?_eraseAll (handlers : List Handler)
    (table : TreeMap UInt32 (TreeMap UInt32 PackedMessage)) (c : UInt32) :
    (handlers.foldl (fun table h => table.erase h.id) table)[c]? =
      if ∃ h ∈ handlers, h.id = c then none else table[c]? := by
  induction handlers generalizing table with
  | nil => simp
  | cons h rest ih =>
      rw [List.foldl_cons, ih, TreeMap.getElem?_erase]
      by_cases later : ∃ k ∈ rest, k.id = c
      · obtain ⟨k, member, same⟩ := later
        rw [if_pos ⟨k, member, same⟩, if_pos ⟨k, List.mem_cons_of_mem _ member, same⟩]
      · rw [if_neg later]
        by_cases here : h.id = c
        · rw [if_pos (Std.LawfulEqCmp.compare_eq_iff_eq.2 here), if_pos ⟨h, List.mem_cons_self, here⟩]
        · rw [if_neg (fun equal => here (Std.LawfulEqCmp.compare_eq_iff_eq.1 equal)), if_neg]
          rintro ⟨k, member, same⟩
          rcases List.mem_cons.1 member with rfl | old
          · exact here same
          · exact later ⟨k, old, same⟩

theorem mem_inactive {p : Plane} {h : Handler} (member : h ∈ p.inactive) :
    h.io.active = false ∧ ∃ k : Nat, p.connections[k]? = some h := by
  obtain ⟨listed, stopped⟩ := List.mem_filter.1 member
  obtain ⟨⟨k, h'⟩, entry, rfl⟩ := List.mem_map.1 listed
  exact ⟨by simpa using stopped, k, TreeMap.mem_toList_iff_getElem?_eq_some.1 entry⟩

/-- Nothing that lives is deleted. -/
theorem Consistent.deleted {p : Plane} (consistent : Consistent p) :
    Consistent p.deleteInactive := by
  have found : ∀ (k : Nat) (h : Handler), p.deleteInactive.connections[k]? = some h →
      p.connections[k]? = some h ∧ h.io.active = true := by
    intro k h there
    rw [deleteInactive, TreeMap.getElem?_filter'] at there
    exact Option.filter_eq_some_iff.1 there
  refine ⟨consistent.pool, fun k h there => consistent.older k h (found k h there).1,
    fun k h there => consistent.named k h (found k h there).1,
    fun k h there => consistent.settled k h (found k h there).1, ?_⟩
  intro few modest
  have registry := consistent.tracked few modest
  have table : ∀ c, p.deleteInactive.globals.tableOf c =
      if ∃ h ∈ p.inactive, h.id = c then ∅ else p.globals.tableOf c := by
    intro c
    simp only [Globals.tableOf, deleteInactive, getElem?_eraseAll]
    split <;> rfl
  refine ⟨registry.counted, registry.numbered, registry.sized, ?_, ?_, registry.delivered⟩
  · intro c m packed there
    rw [table] at there
    split at there
    · simp at there
    · exact registry.stored c m packed there
  · intro r member lives
    have spared : ¬ ∃ h ∈ p.inactive, h.id = r.connection := by
      rintro ⟨h, finished, same⟩
      obtain ⟨stopped, k, old⟩ := mem_inactive finished
      have number := consistent.toNat_id few old
      rcases lives with ⟨k', h', there, same'⟩ | later
      · -- two connections with one id are one connection
        obtain ⟨still, started⟩ := found k' h' there
        have number' := consistent.toNat_id few still
        rw [same'] at number'
        rw [same] at number
        rw [← number', number, old] at still
        cases still
        rw [stopped] at started
        cases started
      · have older := consistent.older k h old
        rw [same] at number
        have : p.accepted ≤ r.connection.toNat := later
        omega
    rw [table, if_neg spared]
    refine registry.kept r member ?_
    rcases lives with ⟨k, h, there, same⟩ | later
    · exact Or.inl ⟨k, h, (found k h there).1, same⟩
    · exact Or.inr later

theorem Consistent.callback {p : Plane} (consistent : Consistent p) (cfg : Config) (k : Nat)
    (revents : Events) (inbox : List RecvResult) (outbox : List WriteResult) :
    Consistent (p.callback cfg k revents inbox outbox) := by
  unfold Plane.callback
  split
  · exact consistent
  · rename_i h here
    split
    · have settled := consistent.settled k h here
      obtain ⟨after, id, -⟩ := Handler.ioCb_settled cfg p.globals settled revents inbox outbox
      refine ⟨consistent.pool, ?_, ?_, ?_, ?_⟩
      · intro i k' there
        rcases insert_cases there with ⟨rfl, -⟩ | old
        · exact consistent.older i h here
        · exact consistent.older i k' old
      · intro i k' there
        rcases insert_cases there with ⟨rfl, rfl⟩ | old
        · rw [id]
          exact consistent.named i h here
        · exact consistent.named i k' old
      · intro i k' there
        rcases insert_cases there with ⟨rfl, rfl⟩ | old
        · exact after
        · exact consistent.settled i k' old
      · intro few modest
        have tracked := Handler.ioCb_tracked cfg settled (Or.inl ⟨k, h, here, rfl⟩)
          (consistent.tracked few) revents inbox outbox
        refine (tracked modest).mono ?_
        rintro c (⟨i, k', there, rfl⟩ | later)
        · rcases insert_cases there with ⟨rfl, rfl⟩ | old
          · exact Or.inl ⟨i, h, here, id.symm⟩
          · exact Or.inl ⟨i, k', old, rfl⟩
        · exact Or.inr later
    · exact consistent

theorem step_consistent (cfg : Config) (p : Plane) (e : PlaneEvent) (consistent : Consistent p) :
    Consistent (p.step cfg e) := by
  cases e with
  | accept fd regid => exact (consistent.opened fd regid).deleted
  | callback k revents inbox outbox => exact consistent.callback cfg k revents inbox outbox
  | peers =>
      refine ⟨consistent.pool, consistent.older, consistent.named, consistent.settled, ?_⟩
      intro few
      exact (consistent.tracked few).transfer (SameTables.of_messages rfl rfl rfl)

end Plane

/-- In every run of the control connections without a REGISTER message and with fewer
than 2^32 - 1 registrations and connections, the ids given are distinct and the bytes
registered are 24 and the announced length; every well-formed SEND_MSG command appends
the bytes its own connection registered under the id, once for every time a handler is
named, and changes no handler if there are none; and the ids by which the connections
are told apart are distinct. -/
theorem delivered_exactly (cfg : Config) (blacklist : SockaddrStorage → Bool)
    (tape : Nat → Outside) (events : List PlaneEvent) (p : Plane)
    (reached : p = run (Plane.step cfg) (Plane.start blacklist tape) events)
    (noRegister : ∀ connection, .renamed connection ∉ p.globals.served)
    (fewMessages : (registrations p.globals.served).length < 2 ^ 32 - 1)
    (fewConnections : p.accepted < 2 ^ 32 - 1) :
    ((registrations p.globals.served).map Registration.id).Nodup ∧
      (∀ r ∈ registrations p.globals.served,
        r.payload.length = packedSize + packedLength r.payload) ∧
      Each Delivered p.globals.served ∧
      (∀ (k : Nat) (h : Handler), p.connections[k]? = some h → h.id.toNat = k) := by
  have consistent : p.Consistent := by
    rw [reached]
    exact run_keeps (Plane.step_consistent cfg) (Plane.start_consistent blacklist tape) events
  have few : p.accepted < 2 ^ 32 := by omega
  have registry := consistent.tracked few ⟨noRegister, by omega⟩
  refine ⟨?_, registry.sized, registry.delivered, fun k h found => consistent.toNat_id few found⟩
  have distinct : (((registrations p.globals.served).map Registration.id).map
      UInt32.toNat).Nodup := by
    rw [List.map_map]
    show ((registrations p.globals.served).map fun r => r.id.toNat).Nodup
    rw [registry.numbered]
    exact List.nodup_range'
  exact List.Nodup.of_map _ distinct

/-- Two connections; the first registers an empty message, then both send it to a
handler, which the first one names twice. -/
def someSends : Plane :=
  run (Plane.step Connector.someConfig) (Plane.start (fun _ => false) fun _ => someOutside)
    [.accept 6 5, .accept 7 5,
     .callback 0 Events.READ
      [.data ⟨[0, 0, 0, 0, 24, 1] ++ List.replicate 24 0, by decide, by decide⟩] [],
     .peers (TreeMap.insert ∅ 3 (Connector.Handler.new Connector.someConfig Connector.someEnv 0 5
        Connector.SEND_VERSION_INIT Connector.someAddr Connector.someAddr 3).1) [] 4 0
        (fun _ => false) [],
     .callback 1 Events.READ [.data ⟨[0, 0, 0, 0, 13, 2] ++
        commandPayload COMMAND_SEND_MSG 1 [3], by decide, by decide⟩] [],
     .callback 0 Events.READ [.data ⟨[0, 0, 0, 0, 17, 2] ++
        commandPayload COMMAND_SEND_MSG 1 [3, 3], by decide, by decide⟩] []]

/-- Only the command of the first connection finds the message. -/
theorem delivered_exactly_two_connections :
    registrations someSends.globals.served = [⟨0, 1, List.replicate 24 0⟩] ∧
      Each Delivered someSends.globals.served ∧
      (someSends.globals.activeHandlers[(3 : UInt32)]?).map
        (fun h => h.writeQueue.pending.drop 113) = some (List.replicate 48 0) := by
  refine ⟨by decide +kernel, ?_, by decide +kernel⟩
  have renamed : ∀ entry ∈ someSends.globals.served,
      (match entry with | .renamed _ => false | _ => true) = true :=
    List.all_eq_true.1 (by decide +kernel)
  refine (delivered_exactly Connector.someConfig (fun _ => false) (fun _ => someOutside) _
    someSends rfl ?_ (by decide +kernel) (by decide +kernel)).2.2.1
  intro connection member
  exact absurd (renamed _ member) (by simp)

end Coinscope.Control

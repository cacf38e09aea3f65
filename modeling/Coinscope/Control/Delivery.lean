/-
# Control.Delivery -- commands on their targets

What COMMAND_SEND_MSG does to the table of active handlers: the handler of an id gets
the message as often as the id is among the targets, and once each if the only target
is the broadcast id.  The traversal for a broadcast is sound here because appending
erases nobody.

* `foreachHandlers_appended` -- the handlers behind a send.
* `commandMsg_eq` -- a well-formed payload is decoded into what it encodes, whatever
  lies behind it in memory.
* `SameTables` -- commands and connection attempts leave the registered messages alone.
-/
import Coinscope.Control.CommandHandler
import Mathlib.Logic.Function.Iterate
import Mathlib.Data.List.Nodup

namespace Coinscope.Control

open Coinscope.Shared
open Coinscope.Theory.Bytes
open Std (TreeMap)

set_option autoImplicit false

/-! ## Appending to the targets -/

/-- How often a command names a handler. -/
def copies (targets : List UInt32) (id : UInt32) : Nat :=
  if targets = [BROADCAST_TARGET] then 1 else targets.count id

/-- A message appended `n` times. -/
def appendTimes (packed : PackedMessage) (n : Nat) (h : Connector.Handler) : Connector.Handler :=
  (fun h => h.appendForWriteShared packed)^[n] h

theorem appendTimes_succ (packed : PackedMessage) (n : Nat) (h : Connector.Handler) :
    appendTimes packed (n + 1) h = appendTimes packed n (h.appendForWriteShared packed) := rfl

theorem appendForWriteShared_pending (h : Connector.Handler) (packed : PackedMessage) :
    (h.appendForWriteShared packed).writeQueue.pending = h.writeQueue.pending ++ packed.wire := by
  have queue : (h.appendForWriteShared packed).writeQueue =
      h.writeQueue.appendShared packed.buffer (packedSize + packed.length) := by
    unfold Connector.Handler.appendForWriteShared Connector.Handler.appendedForWrite
      Connector.Handler.ioSet
    simp only
    split
    · split <;> rfl
    · rfl
  rw [queue, WriteBuffer.appendShared_pending]
  rfl

theorem appendTimes_pending (packed : PackedMessage) (n : Nat) (h : Connector.Handler) :
    (appendTimes packed n h).writeQueue.pending =
      h.writeQueue.pending ++ (List.replicate n packed.wire).flatten := by
  induction n generalizing h with
  | zero => simp [appendTimes]
  | succ n ih =>
      rw [appendTimes_succ, ih, appendForWriteShared_pending, List.replicate_succ,
        List.flatten_cons, List.append_assoc]

namespace Globals

theorem append_lookup (packed : PackedMessage) (g : Globals) {id : UInt32} {h : Connector.Handler}
    (there : g.activeHandlers[id]? = some h) (i : UInt32) (n : Nat) :
    ((append packed g id h).activeHandlers[i]?).map (appendTimes packed n) =
      (g.activeHandlers[i]?).map (appendTimes packed (if id = i then n + 1 else n)) := by
  simp only [append, TreeMap.getElem?_insert, Std.LawfulEqCmp.compare_eq_iff_eq]
  split
  · rename_i same
    subst same
    rw [there]
    rfl
  · rfl

theorem visit_lookup (packed : PackedMessage) (messageId : UInt32) (targets : List UInt32)
    (g : Globals) (i : UInt32) :
    (visit (append packed) messageId targets g).activeHandlers[i]? =
      (g.activeHandlers[i]?).map (appendTimes packed (targets.count i)) := by
  induction targets generalizing g with
  | nil =>
      rw [visit, List.count_nil]
      exact Option.map_id'.symm
  | cons target rest ih =>
      rw [visit, List.count_cons]
      cases there : g.activeHandlers[target]? with
      | some h =>
          rw [ih, append_lookup packed g there]
          simp only [beq_iff_eq]
          split <;> rfl
      | none =>
          rw [ih]
          show (g.activeHandlers[i]?).map _ = _
          by_cases same : target = i
          · subst same
            rw [there]
            rfl
          · simp [same]

theorem traverse_lookup (packed : PackedMessage) (ids : List UInt32) (g : Globals)
    (there : ∀ id ∈ ids, id ∈ g.activeHandlers) (i : UInt32) :
    (traverse (append packed) ids g).activeHandlers[i]? =
        (g.activeHandlers[i]?).map (appendTimes packed (ids.count i)) ∧
      (traverse (append packed) ids g).undefined = g.undefined := by
  induction ids generalizing g with
  | nil =>
      refine ⟨?_, rfl⟩
      rw [traverse, List.count_nil]
      exact Option.map_id'.symm
  | cons id rest ih =>
      obtain ⟨h, found⟩ := Option.isSome_iff_exists.1
        (TreeMap.isSome_getElem?_iff_mem.2 (there id List.mem_cons_self))
      have stays : ∀ j ∈ g.activeHandlers, j ∈ (append packed g id h).activeHandlers := by
        intro j member
        exact TreeMap.mem_insert.2 (Or.inr member)
      have here := stays id (there id List.mem_cons_self)
      obtain ⟨lookup, defined⟩ := ih (append packed g id h) fun j member =>
        stays j (there j (List.mem_cons_of_mem _ member))
      simp only [traverse, found, if_pos here]
      refine ⟨?_, defined⟩
      rw [lookup, append_lookup packed g found, List.count_cons]
      simp only [beq_iff_eq]
      split <;> rfl

/-- A send reaches every target as often as the command names it, and nobody else. -/
theorem foreachHandlers_append (g : Globals) (msg : CommandMsg) (packed : PackedMessage)
    (i : UInt32) :
    (g.foreachHandlers msg (append packed)).activeHandlers[i]? =
      (g.activeHandlers[i]?).map (appendTimes packed (copies msg.targets i)) := by
  unfold foreachHandlers copies
  split
  · rw [(traverse_lookup packed _ g (fun id member => TreeMap.mem_keys.1 member) i).1]
    by_cases member : i ∈ g.activeHandlers
    · have distinct : g.activeHandlers.keys.Nodup :=
        g.activeHandlers.distinct_keys.imp fun apart same => apart (Std.LawfulEqCmp.compare_eq_iff_eq.2 same)
      have once : g.activeHandlers.keys.count i = 1 :=
        List.count_eq_one_of_mem distinct (TreeMap.mem_keys.2 member)
      rw [once]
    · have nobody : g.activeHandlers[i]? = none := TreeMap.getElem?_eq_none member
      rw [nobody]
      rfl
  · simp only
    rw [visit_lookup]
    split <;> rfl

end Globals

/-- Every active handler gets the bytes as often as it is named, and nobody else
changes. -/
def Appended (bytes : List UInt8) (targets : List UInt32)
    (before after : TreeMap UInt32 Connector.Handler) : Prop :=
  ∀ id : UInt32,
    (∀ h, before[id]? = some h → ∃ h', after[id]? = some h' ∧
      h'.writeQueue.pending = h.writeQueue.pending ++
        (List.replicate (copies targets id) bytes).flatten ∧
      (copies targets id = 0 → h' = h)) ∧
    (before[id]? = none → after[id]? = none)

theorem foreachHandlers_appended (g : Globals) (msg : CommandMsg) (packed : PackedMessage) :
    Appended packed.wire msg.targets g.activeHandlers
      (g.foreachHandlers msg (Globals.append packed)).activeHandlers := by
  intro id
  have lookup := g.foreachHandlers_append msg packed id
  constructor
  · intro h found
    rw [found] at lookup
    refine ⟨_, lookup, appendTimes_pending .., ?_⟩
    intro unnamed
    rw [unnamed]
    rfl
  · intro nobody
    rw [lookup, nobody]
    rfl

/-! ## Well-formed commands -/

/-- The payload of a well-formed COMMAND message. -/
def commandPayload (command : UInt8) (messageId : UInt32) (targets : List UInt32) : List UInt8 :=
  [command] ++ be 4 messageId.toNat ++ be 4 targets.length ++
    targets.flatMap fun target => be 4 target.toNat

theorem length_targets (targets : List UInt32) :
    (targets.flatMap fun target => be 4 target.toNat).length = 4 * targets.length := by
  induction targets with
  | nil => rfl
  | cons target rest ih =>
      rw [List.flatMap_cons, List.length_append, ih, length_be, List.length_cons]
      omega

theorem slice_be (n : Nat) : slice 0 4 (be 4 n) = be 4 n := by
  rw [slice, List.drop_zero, List.take_of_length_le (by simp)]

theorem slice_target (targets : List UInt32) {i : Nat} (inside : i < targets.length) :
    slice (4 * i) 4 (targets.flatMap fun target => be 4 target.toNat) =
      be 4 (targets.get ⟨i, inside⟩).toNat := by
  induction targets generalizing i with
  | nil => exact absurd inside (Nat.not_lt_zero i)
  | cons target rest ih =>
      rw [List.flatMap_cons]
      cases i with
      | zero =>
          rw [slice_append_left _ (by simp)]
          exact slice_be _
      | succ i =>
          rw [slice_append_right _ (by rw [length_be]; omega), length_be,
            show 4 * (i + 1) - 4 = 4 * i by omega]
          exact ih (Nat.lt_of_succ_lt_succ inside)

/-- A field inside the payload is read from the payload. -/
theorem fetch_payload {memory : List UInt8}
    (inside : messageSize + messageLength memory ≤ memory.length) (beyond : Nat → UInt8) {off n : Nat}
    (field : off + n ≤ messageLength memory) :
    fetch memory beyond (messageSize + off) n = slice off n (messagePayload memory) := by
  rw [fetch_inside (by omega), messagePayload, slice, slice, slice, List.drop_take, List.take_take,
    List.drop_drop, Nat.min_eq_left (by omega)]

theorem fetch32_be {memory : List UInt8} {beyond : Nat → UInt8} {off : Nat} {x : UInt32}
    (field : fetch memory beyond off 4 = be 4 x.toNat) : fetch32 memory beyond off = x := by
  rw [fetch32, field, ofBE_be_of_lt x.toNat_lt, UInt32.ofNat_toNat]

/-- A well-formed command is decoded into what it encodes, whatever lies behind it. -/
theorem commandMsg_eq {memory : List UInt8} {command : UInt8} {messageId : UInt32}
    {targets : List UInt32} (inside : messageSize + messageLength memory ≤ memory.length)
    (payload : messagePayload memory = commandPayload command messageId targets)
    (beyond : Nat → UInt8) : commandMsg memory beyond = ⟨command, messageId, targets⟩ := by
  have long : messageLength memory = 9 + 4 * targets.length := by
    have length := congrArg List.length payload
    rw [messagePayload, slice_length inside] at length
    simp only [commandPayload, List.length_append, List.length_cons, List.length_nil, length_be,
      length_targets] at length
    omega
  have small : messageLength memory < 256 ^ (slice 1 4 memory).length := ofBE_lt _
  have four : (slice 1 4 memory).length = 4 := slice_length (by
    have size : messageSize = 6 := rfl
    omega)
  rw [four] at small
  have few : targets.length < UInt32.size := by
    have size : UInt32.size = 256 ^ 4 := rfl
    omega
  have first : peek memory beyond messageSize = command := by
    have field : fetch memory beyond (messageSize + 0) 1 = slice 0 1 (messagePayload memory) :=
      fetch_payload inside beyond (by omega)
    rw [payload] at field
    have one : fetch memory beyond (messageSize + 0) 1 = [peek memory beyond messageSize] := by
      simp [fetch]
    rw [one] at field
    simpa [slice, commandPayload] using field
  have second : fetch32 memory beyond (messageSize + 1) = messageId := by
    apply fetch32_be
    rw [fetch_payload inside beyond (by omega), payload, commandPayload, slice_append_left _ (by simp),
      slice_append_left _ (by simp), slice_append_right _ (by simp)]
    exact slice_be _
  have third : fetch32 memory beyond (messageSize + 5) = UInt32.ofNat targets.length := by
    apply fetch32_be
    rw [fetch_payload inside beyond (by omega), payload, commandPayload, slice_append_left _ (by simp),
      slice_append_right _ (by simp), UInt32.toNat_ofNat_of_lt' few]
    exact slice_be _
  have rest : ∀ i, (here : i < targets.length) →
      fetch32 memory beyond (messageSize + 9 + 4 * i) = targets.get ⟨i, here⟩ := by
    intro i here
    apply fetch32_be
    rw [Nat.add_assoc, fetch_payload inside beyond (by omega), payload, commandPayload,
      slice_append_right _ (by simp)]
    simp only [List.length_append, List.length_cons, List.length_nil, length_be]
    rw [show 9 + 4 * i - (0 + 1 + 4 + 4) = 4 * i by omega]
    exact slice_target targets here
  rw [commandMsg, first, second, third, UInt32.toNat_ofNat_of_lt' few]
  congr 1
  apply List.ext_getElem
  · simp
  · intro i here there
    simp only [List.getElem_map, List.getElem_range]
    exact rest i there

/-! ## What leaves the registered messages alone -/

/-- The tables of registered messages and their counter are the same. -/
structure SameTables (g g' : Globals) : Prop where
  messageIds : g'.messageIds = g.messageIds
  served : g'.served = g.served
  tables : ∀ c, g'.tableOf c = g.tableOf c

namespace SameTables

theorem refl (g : Globals) : SameTables g g := ⟨rfl, rfl, fun _ => rfl⟩

theorem trans {a b c : Globals} (first : SameTables a b) (second : SameTables b c) :
    SameTables a c :=
  ⟨second.messageIds.trans first.messageIds, second.served.trans first.served,
    fun id => (second.tables id).trans (first.tables id)⟩

theorem of_messages {g g' : Globals} (ids : g'.messageIds = g.messageIds)
    (served : g'.served = g.served) (messages : g'.messages = g.messages) : SameTables g g' :=
  ⟨ids, served, fun c => by rw [Globals.tableOf, messages]; rfl⟩

end SameTables

namespace Globals

theorem gLog_same (g : Globals) (kind : LogType) (val : List UInt8) (args : List (List UInt8)) :
    SameTables g (g.gLog kind val args) := SameTables.of_messages rfl rfl rfl

theorem append_same (packed : PackedMessage) (g : Globals) (id : UInt32) (h : Connector.Handler) :
    SameTables g (append packed g id h) := SameTables.of_messages rfl rfl rfl

theorem disconnectOne_same (g : Globals) (id : UInt32) (h : Connector.Handler) :
    SameTables g (g.disconnectOne id h) := SameTables.of_messages rfl rfl rfl

section Commands

variable {f : Globals → UInt32 → Connector.Handler → Globals}
  (each : ∀ g id h, SameTables g (f g id h))

include each

theorem visit_same (messageId : UInt32) (targets : List UInt32) (g : Globals) :
    SameTables g (visit f messageId targets g) := by
  induction targets generalizing g with
  | nil => exact SameTables.refl g
  | cons target rest ih =>
      rw [visit]
      split
      · exact (each ..).trans (ih _)
      · exact (gLog_same ..).trans (ih _)

theorem traverse_same (ids : List UInt32) (g : Globals) : SameTables g (traverse f ids g) := by
  induction ids generalizing g with
  | nil => exact SameTables.refl g
  | cons id rest ih =>
      rw [traverse]
      split
      · exact SameTables.of_messages rfl rfl rfl
      · simp only
        split
        · exact (each ..).trans (ih _)
        · exact (each ..).trans (SameTables.of_messages rfl rfl rfl)

theorem foreachHandlers_same (g : Globals) (msg : CommandMsg) :
    SameTables g (g.foreachHandlers msg f) := by
  unfold foreachHandlers
  split
  · exact traverse_same each ..
  · simp only
    split
    · exact (gLog_same ..).trans (visit_same each ..)
    · exact visit_same each ..

end Commands

/-- An empty table put in place of none is no difference. -/
theorem opened_same (g : Globals) (id : UInt32) :
    SameTables g { g with messages := g.messages.insertIfNew id ∅ } := by
  refine ⟨rfl, rfl, fun c => ?_⟩
  simp only [tableOf, TreeMap.getElem?_insertIfNew]
  split
  · rename_i new
    have same : id = c := Std.LawfulEqCmp.compare_eq_iff_eq.1 new.1
    subst same
    rw [TreeMap.getElem?_eq_none new.2]
    rfl
  · rfl

theorem sendMsg_same (g : Globals) (id : UInt32) (msg : CommandMsg) :
    SameTables g (g.sendMsg id msg) := by
  unfold sendMsg
  simp only
  split
  · exact (opened_same g id).trans (gLog_same ..)
  · exact (opened_same g id).trans (foreachHandlers_same (append_same _) ..)

theorem disconnect_same (g : Globals) (msg : CommandMsg) : SameTables g (g.disconnect msg) :=
  (gLog_same ..).trans (foreachHandlers_same disconnectOne_same ..)

theorem connectHandler_same (cfg : Config) (out : Outside) (g : Globals) (fd : Nat)
    (remote : SockaddrStorage) : SameTables g (g.connectHandler cfg out fd remote) := by
  unfold connectHandler
  split
  · exact SameTables.of_messages rfl rfl rfl
  · split
    · exact SameTables.of_messages rfl rfl rfl
    · split <;> exact SameTables.of_messages rfl rfl rfl

theorem torConnectHandler_same (cfg : Config) (out : Outside) (g : Globals)
    (remote : SockaddrStorage) (onionHost : List UInt8) :
    SameTables g (g.torConnectHandler cfg out remote onionHost) := by
  unfold torConnectHandler
  simp only
  split
  · exact SameTables.of_messages rfl rfl rfl
  · split
    · exact SameTables.of_messages rfl rfl rfl
    · split <;> exact SameTables.of_messages rfl rfl rfl

theorem connect_same (cfg : Config) (out : Outside) (g : Globals) (regid : UInt32)
    (memory : List UInt8) : SameTables g (g.connect cfg out regid memory) := by
  unfold connect
  simp only
  split
  · split
    · exact (gLog_same ..).trans (torConnectHandler_same ..)
    · exact (gLog_same ..).trans (torConnectHandler_same ..)
  · split
    · exact (gLog_same ..).trans (gLog_same ..)
    · exact (gLog_same ..).trans (connectHandler_same ..)

end Globals

end Coinscope.Control

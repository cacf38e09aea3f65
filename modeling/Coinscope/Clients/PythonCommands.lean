/-
# Clients.PythonCommands -- commands of the Python client library

`command_msg` of the Python library packs a command the way the C++ library does, but for
the targets: they go through `socket.htonl` and then through a big-endian `pack`, and on a
little-endian host the two undo each other.  `deserialize` unpacks them big-endian and
leaves it at that.

A Python number is a `Nat`; `none` is an exception.

* `PythonCommand.new`, `PythonCommand.serialize`, `PythonCommand.deserialize` -- the class.
* `swapped` -- what `htonl` makes of a target; `serialize_new` -- the frame.
* `ActsOn` -- which handlers `foreach_handlers` goes through.
* `python_commands_iff` -- for which commands the two libraries and the connector agree.
-/
import Coinscope.Clients.EasyMessages
import Coinscope.Control.CommandBounds

namespace Coinscope.Clients

open Coinscope.Shared
open Coinscope.Theory.Bytes
open Coinscope.Control

set_option autoImplicit false

/-! ## `struct` and `socket` -/

/-- `pack('>B', n)`. -/
def packB (n : Nat) : Option (List UInt8) := if n < 2 ^ 8 then some (be 1 n) else none

/-- `pack('>I', n)`. -/
def packI (n : Nat) : Option (List UInt8) := if n < 2 ^ 32 then some (be 4 n) else none

/-- `pack('>...I', *ns)`. -/
def packIs (ns : List Nat) : Option (List UInt8) := (ns.mapM packI).map List.flatten

/-- `socket.htonl(n)` on a little-endian host. -/
def htonl (n : Nat) : Option Nat := if n < 2 ^ 32 then some (ofLE (be 4 n)) else none

/-- `unpack('>I' * n, data)`. -/
def unpackIs : Nat → List UInt8 → List Nat
  | 0, _ => []
  | n + 1, data => ofBE (data.take 4) :: unpackIs n (data.drop 4)

/-! ## `class command_msg` -/

structure PythonCommand where
  command : Nat
  messageId : Nat
  targets : List Nat
  payload : List UInt8
  deriving DecidableEq

namespace PythonCommand

/-- `repack()`. -/
def repack (command messageId : Nat) (targets : List Nat) : Option (List UInt8) :=
  if targets.length > 0 then do
    let tl ← targets.mapM htonl
    let front ← packB command
    let id ← packI messageId
    let count ← packI targets.length
    let packed ← packIs tl
    some (front ++ id ++ count ++ packed)
  else do
    let front ← packB command
    let id ← packI messageId
    let count ← packI 0
    some (front ++ id ++ count)

/-- `command_msg(command, message_id, targets_list)`. -/
def new (command messageId : Nat) (targets : List Nat) : Option PythonCommand := do
  let payload ← repack command messageId targets
  some ⟨command, messageId, targets, payload⟩

/-- `serialize()`. -/
def serialize (m : PythonCommand) : Option (List UInt8) := do
  let version ← packB 0
  let length ← packI m.payload.length
  let type ← packB COMMAND.toNat
  some (version ++ length ++ type ++ m.payload)

/-- `deserialize(serialization)`. -/
def deserialize (serialization : List UInt8) : Option PythonCommand :=
  if serialization.length < 6 then none
  else
    let version := ofBE (slice 0 1 serialization)
    let length := ofBE (slice 1 4 serialization)
    let type := ofBE (slice 5 1 serialization)
    let payload := serialization.drop 6
    if version ≠ 0 ∨ length ≠ payload.length ∨ type ≠ COMMAND.toNat then none
    else if payload.length < 9 ∨ (payload.length - 9) % 4 ≠ 0 then none
    else
      let ints := (payload.length - 9) / 4
      let targets := unpackIs ints (payload.drop 9)
      if ofBE (slice 5 4 payload) ≠ targets.length then none
      else new (ofBE (slice 0 1 payload)) (ofBE (slice 1 4 payload)) targets

end PythonCommand

/-! ## The frame -/

/-- What `htonl` makes of a target. -/
def swapped (target : UInt32) : UInt32 := UInt32.ofNat (ofLE (be 4 target.toNat))

theorem toNat_swapped (target : UInt32) : (swapped target).toNat = ofLE (be 4 target.toNat) := by
  have bound := ofLE_lt (be 4 target.toNat)
  rw [length_be] at bound
  exact UInt32.toNat_ofNat_of_lt' bound

theorem htonl_toNat (target : UInt32) : htonl target.toNat = some (swapped target).toNat := by
  rw [htonl, if_pos target.toNat_lt, toNat_swapped]

theorem mapM_htonl (targets : List UInt32) :
    (targets.map UInt32.toNat).mapM htonl = some ((targets.map swapped).map UInt32.toNat) := by
  induction targets with
  | nil => rfl
  | cons target rest ih => simp [List.mapM_cons, htonl_toNat, ih]

theorem packI_toNat (x : UInt32) : packI x.toNat = some (be 4 x.toNat) := if_pos x.toNat_lt

theorem packIs_toNat (targets : List UInt32) :
    packIs (targets.map UInt32.toNat) =
      some (targets.flatMap fun target => be 4 target.toNat) := by
  have all : (targets.map UInt32.toNat).mapM packI =
      some (targets.map fun target => be 4 target.toNat) := by
    induction targets with
    | nil => rfl
    | cons target rest ih => simp [List.mapM_cons, packI_toNat, ih]
  rw [packIs, all, Option.map_some, List.flatMap_def]

theorem packB_toNat (x : UInt8) : packB x.toNat = some [x] := by
  rw [packB, if_pos x.toNat_lt]
  simp [be, le]

namespace PythonCommand

/-- The payload is the one of a command for the swapped targets. -/
theorem repack_eq (command : UInt8) (messageId : UInt32) (targets : List UInt32) :
    repack command.toNat messageId.toNat (targets.map UInt32.toNat) =
      if targets.length < 2 ^ 32 then
        some (commandPayload command messageId (targets.map swapped))
      else none := by
  have count : packI (targets.map UInt32.toNat).length =
      if targets.length < 2 ^ 32 then some (be 4 targets.length) else none := by
    rw [List.length_map, packI]
  unfold repack
  by_cases none_ : targets = []
  · subst none_
    have zero : packI 0 = some (be 4 0) := rfl
    simp [packB_toNat, packI_toNat, zero, commandPayload]
  · have some_ : (targets.map UInt32.toNat).length > 0 := by
      rw [List.length_map]
      exact List.length_pos_iff.2 none_
    rw [if_pos some_, mapM_htonl, packB_toNat, packI_toNat, count]
    simp only [Option.bind_eq_bind, Option.bind_some, packIs_toNat]
    split
    · simp [commandPayload]
    · rfl

theorem length_commandPayload (command : UInt8) (messageId : UInt32) (targets : List UInt32) :
    (commandPayload command messageId targets).length = 9 + 4 * targets.length := by
  simp [commandPayload]
  omega

/-- What `command_msg(...).serialize()` returns. -/
theorem serialize_new (command : UInt8) (messageId : UInt32) (targets : List UInt32) :
    (new command.toNat messageId.toNat (targets.map UInt32.toNat)).bind serialize =
      if 9 + 4 * targets.length < 2 ^ 32 then
        some (EasyMessage.layout COMMAND (9 + 4 * targets.length)
          (commandPayload command messageId (targets.map swapped)))
      else none := by
  have size := length_commandPayload command messageId (targets.map swapped)
  rw [List.length_map] at size
  have zero : packB 0 = some [0] := rfl
  rw [new, repack_eq]
  by_cases small : 9 + 4 * targets.length < 2 ^ 32
  · have few : targets.length < 2 ^ 32 := by omega
    have length : packI (9 + 4 * targets.length) = some (be 4 (9 + 4 * targets.length)) :=
      if_pos small
    rw [if_pos small, if_pos few]
    simp [serialize, size, zero, length, packB_toNat, EasyMessage.layout]
  · have long : packI (9 + 4 * targets.length) = none := if_neg small
    rw [if_neg small]
    split
    · simp [serialize, size, zero, long]
    · rfl

theorem unpackIs_targets (targets : List UInt32) :
    unpackIs targets.length (targets.flatMap fun target => be 4 target.toNat) =
      targets.map UInt32.toNat := by
  induction targets with
  | nil => rfl
  | cons target rest ih =>
      have four : (be 4 target.toNat).length = 4 := length_be ..
      rw [List.length_cons, List.flatMap_cons, unpackIs, List.take_left' four,
        List.drop_left' four, ih, ofBE_be_of_lt target.toNat_lt, List.map_cons]

/-- Where the fields of a payload are. -/
theorem payload_fields (command : UInt8) (messageId : UInt32) (targets : List UInt32) :
    slice 0 1 (commandPayload command messageId targets) = [command] ∧
      slice 1 4 (commandPayload command messageId targets) = be 4 messageId.toNat ∧
      slice 5 4 (commandPayload command messageId targets) = be 4 targets.length ∧
      (commandPayload command messageId targets).drop 9 =
        targets.flatMap fun target => be 4 target.toNat := by
  refine ⟨rfl, ?_, slice_here (by simp) (length_be ..), List.drop_left' (by simp)⟩
  rw [commandPayload, List.append_assoc]
  exact slice_here rfl (length_be ..)

/-- A well-formed frame is taken apart into the numbers it has. -/
theorem deserialize_layout (command : UInt8) (messageId : UInt32) {targets : List UInt32}
    (small : 9 + 4 * targets.length < 2 ^ 32) :
    deserialize (EasyMessage.layout COMMAND (9 + 4 * targets.length)
        (commandPayload command messageId targets)) =
      some ⟨command.toNat, messageId.toNat, targets.map UInt32.toNat,
        commandPayload command messageId (targets.map swapped)⟩ := by
  have size := length_commandPayload command messageId targets
  obtain ⟨first, second, third, fourth⟩ := payload_fields command messageId targets
  generalize commandPayload command messageId targets = payload at size first second third fourth ⊢
  have rest : (EasyMessage.layout COMMAND (9 + 4 * targets.length) payload).drop 6 = payload :=
    congrArg Prod.snd (EasyMessage.content_layout COMMAND (9 + 4 * targets.length) payload)
  have length : ofBE (slice 1 4 (EasyMessage.layout COMMAND (9 + 4 * targets.length) payload)) =
      9 + 4 * targets.length := by
    have field := EasyMessage.messageLength_layout COMMAND (9 + 4 * targets.length) payload []
    rw [List.append_nil] at field
    exact field.trans (Nat.mod_eq_of_lt small)
  have long : ¬ (EasyMessage.layout COMMAND (9 + 4 * targets.length) payload).length < 6 := by
    rw [EasyMessage.length_layout]
    exact Nat.not_lt.2 (Nat.le_add_right ..)
  have version : ofBE (slice 0 1 (EasyMessage.layout COMMAND (9 + 4 * targets.length) payload)) = 0 :=
    rfl
  have type : ofBE (slice 5 1 (EasyMessage.layout COMMAND (9 + 4 * targets.length) payload)) =
      COMMAND.toNat := rfl
  have ints : (9 + 4 * targets.length - 9) / 4 = targets.length := by omega
  have even : ¬ (9 + 4 * targets.length < 9 ∨ (9 + 4 * targets.length - 9) % 4 ≠ 0) := by omega
  have count : ofBE (be 4 targets.length) = targets.length :=
    ofBE_be_of_lt (Nat.lt_of_le_of_lt (by omega) small)
  have one : ofBE [command] = command.toNat := rfl
  have id : ofBE (be 4 messageId.toNat) = messageId.toNat := ofBE_be_of_lt messageId.toNat_lt
  rw [deserialize, if_neg long]
  simp only [rest, length, version, type, size, ne_eq, not_true_eq_false, or_self, if_false]
  rw [if_neg even, ints, first, second, third, fourth, unpackIs_targets, count, one, id,
    List.length_map, if_neg (fun differ => differ rfl), new, repack_eq, if_pos (by omega)]
  rfl

end PythonCommand

/-! ## Agreement -/

/-- `foreach_handlers` goes through exactly these targets, whatever handlers there are: a
message is appended to each as often as it is listed, and those listed are disconnected.  A
DISCONNECT of all peers goes on from an entry it has erased. -/
structure ActsOn (msg : Control.CommandMsg) (targets : List UInt32) : Prop where
  sends : ∀ (g : Globals) (packed : PackedMessage), Appended packed.wire targets g.activeHandlers
    (g.foreachHandlers msg (Globals.append packed)).activeHandlers
  disconnects : targets ≠ [BROADCAST_TARGET] → ∀ g : Globals, Disconnected targets
    g.activeHandlers (g.foreachHandlers msg Globals.disconnectOne).activeHandlers

theorem actsOn_targets (msg : Control.CommandMsg) : ActsOn msg msg.targets where
  sends g packed := foreachHandlers_appended g msg packed
  disconnects listed g := (g.foreachHandlers_disconnected msg listed).1

/-- The frame of the Python library for a command is the one of the C++ library, the
connector reads this command off it wherever it holds the frame and acts on its targets, and
`deserialize` gives it back. -/
def CommandsAgree (command : UInt8) (messageId : UInt32) (targets : List UInt32) : Prop :=
  ∃ frame, (PythonCommand.new command.toNat messageId.toNat (targets.map UInt32.toNat)).bind
      PythonCommand.serialize = some frame ∧
    frame = (commandMsg command messageId targets).serialize ∧
    (∀ h beyond, Ready h (content frame).1 (content frame).2 →
      Control.commandMsg h.readQueue.buffer beyond = ⟨command, messageId, targets⟩ ∧
        ActsOn (Control.commandMsg h.readQueue.buffer beyond) targets) ∧
    ∃ m, PythonCommand.deserialize frame = some m ∧ m.command = command.toNat ∧
      m.messageId = messageId.toNat ∧ m.targets = targets.map UInt32.toNat

/-- The targets of a payload are determined by it. -/
theorem commandPayload_inj {command : UInt8} {messageId : UInt32} {a b : List UInt32}
    (length : a.length = b.length)
    (same : commandPayload command messageId a = commandPayload command messageId b) : a = b := by
  have targets := congrArg (List.drop 9) same
  rw [(PythonCommand.payload_fields ..).2.2.2, (PythonCommand.payload_fields ..).2.2.2] at targets
  have numbers := congrArg (unpackIs a.length) targets
  rw [PythonCommand.unpackIs_targets, length, PythonCommand.unpackIs_targets] at numbers
  exact List.map_injective_iff.2 (fun _ _ => UInt32.toNat_inj.1) numbers

/-- The two libraries and the connector agree on a command exactly if every target is its own
byte-swap and the length of the payload fits its field. -/
theorem python_commands_iff (command : UInt8) (messageId : UInt32) (targets : List UInt32) :
    CommandsAgree command messageId targets ↔
      (∀ target ∈ targets, swapped target = target) ∧ 9 + 4 * targets.length < 2 ^ 32 := by
  have frames := PythonCommand.serialize_new command messageId targets
  constructor
  · rintro ⟨frame, packed, same, -⟩
    rw [frames] at packed
    split at packed
    · rename_i small
      refine ⟨?_, small⟩
      cases packed
      rw [serialize_commandMsg command messageId small] at same
      have payload := congrArg (fun f => (content f).2) same
      simp only [EasyMessage.content_layout] at payload
      have fixed := commandPayload_inj (List.length_map ..) payload
      intro target member
      exact List.map_inj_left.1 (fixed.trans targets.map_id.symm) target member
    · cases packed
  · rintro ⟨fixed, small⟩
    have same : targets.map swapped = targets :=
      (List.map_inj_left.2 fixed).trans targets.map_id
    rw [if_pos small, same] at frames
    refine ⟨_, frames, (serialize_commandMsg command messageId small).symm, ?_, _,
      PythonCommand.deserialize_layout command messageId small, rfl, rfl, rfl⟩
    intro h beyond ready
    rw [EasyMessage.content_layout] at ready
    have read := commandMsg_eq ready.inside ready.payload_eq beyond
    refine ⟨read, ?_⟩
    rw [read]
    exact actsOn_targets _

/-- DISCONNECT of one peer whose id is no palindrome: the connector is told to disconnect
another one, and `deserialize` names that other one too. -/
theorem python_disconnect_swapped :
    ¬ CommandsAgree COMMAND_DISCONNECT 0 [5] ∧
      (PythonCommand.new 2 0 [5]).bind PythonCommand.serialize =
        some [0, 0, 0, 0, 13, 2, 2, 0, 0, 0, 0, 0, 0, 0, 1, 5, 0, 0, 0] ∧
      (commandMsg COMMAND_DISCONNECT 0 [5]).serialize =
        [0, 0, 0, 0, 13, 2, 2, 0, 0, 0, 0, 0, 0, 0, 1, 0, 0, 0, 5] ∧
      ((PythonCommand.deserialize [0, 0, 0, 0, 13, 2, 2, 0, 0, 0, 0, 0, 0, 0, 1, 5, 0, 0, 0]).map
        PythonCommand.targets) = some [0x05000000] := by
  have python : (PythonCommand.new 2 0 [5]).bind PythonCommand.serialize =
      some [0, 0, 0, 0, 13, 2, 2, 0, 0, 0, 0, 0, 0, 0, 1, 5, 0, 0, 0] := by decide
  have cpp : (commandMsg COMMAND_DISCONNECT 0 [5]).serialize =
      [0, 0, 0, 0, 13, 2, 2, 0, 0, 0, 0, 0, 0, 0, 1, 0, 0, 0, 5] := by decide
  refine ⟨?_, python, cpp, by decide⟩
  rintro ⟨frame, packed, same, -⟩
  rw [cpp] at same
  have differ := python.symm.trans packed
  rw [same] at differ
  exact absurd differ (by decide)

end Coinscope.Clients

/-
# Connector.MessageBounds -- what of a message is read

`handle_message_recv` gets a pointer to a header, with the payload behind it.  Its command is
twelve bytes that a peer has sent; nothing says that one of them is a NUL.  The function is
written once more, as a computation that reads the memory behind the pointer, so that the bytes
it reads are data; `recvReading_value` says that it computes what the model computes.

Two things go wrong.  The height of a version message is read five bytes from its end, which in
a short message is in the header.  And a command that starts with `ver` and goes on in no known
way is logged as a string, which ends with the first NUL, wherever that is.

* `Handler.recvReading` -- the reads, in the order of the source.
* `Interpreted` -- a message is taken for what its own bytes say.
* `interpreted_iff` -- which messages are.
-/
import Coinscope.Connector.Heights
import Coinscope.Control.CommandStructures
import Coinscope.Theory.Access

namespace Coinscope.Connector

open Coinscope.Shared
open Coinscope.Theory
open Coinscope.Theory.Bytes
open Coinscope.Control (peek fetch fetch_inside)

set_option autoImplicit false

/-! ## Reads -/

namespace Handler

/-- The header says how much there is to copy. -/
def copyReading : Access UInt8 (List UInt8) := do
  let length ← Access.cells 16 4
  Access.cells 0 (packedSize + ofLE length)

/-- `*((int32_t*) (msg->payload + msg->length - 5))`. -/
def blockReading : Access UInt8 Int := do
  let length ← Access.cells 16 4
  let bytes ← Access.cells (packedSize + ofLE length - 5) 4
  pure (ofLE32 bytes)

/-- `handle_message_recv(msg)`, where `msg` points to `m`.  A string that does not end in the
buffer is read on behind it. -/
def recvReading (cfg : Config) (h : Handler) (lastBlock : Int) (m : PackedMessage) :
    Access UInt8 (Handler × Int) := do
  let _ ← copyReading
  let h := h.gLog (.bitcoinMsg h.id false m)
  let isPing ← Access.agrees 4 (ascii ['p', 'i', 'n', 'g'] ++ [0])
  if isPing then do
    let _ ← copyReading
    pure (h.appendForWriteShared (pong m), lastBlock)
  else do
    let isGetblocks ← Access.agrees 4
      (ascii ['g', 'e', 't', 'b', 'l', 'o', 'c', 'k', 's'] ++ [0])
    if isGetblocks then
      pure (h.appendForWrite (getMessage cfg (ascii ['i', 'n', 'v']) (getInv [])), lastBlock)
    else do
      let isVer ← Access.agrees 4 (ascii ['v', 'e', 'r'])
      if isVer then do
        let letter ← Access.cells 7 1
        if letter = ascii ['a'] then pure (h.startPingers cfg, lastBlock)
        else if letter = ascii ['s'] then do
          let given ← blockReading
          pure (h, if given > lastBlock ∧ given - lastBlock ≤ 10 then given else lastBlock)
        else do
          let command ← Access.before 0 (m.buffer.length - 3) 4
          pure (h.gLog (.text .DEBUG (ascii ['U', 'n', 'e', 'x', 'p', 'e', 'c', 't', 'e', 'd', ' ',
            'c', 'o', 'm', 'm', 'a', 'n', 'd']) [command]), lastBlock)
      else pure (h, lastBlock)

end Handler

section Values

variable (m : PackedMessage) (beyond : Nat → UInt8)

/-- The cells of a message are its bytes. -/
theorem cells_message {off n : Nat} (inside : off + n ≤ packedSize + m.length) :
    (Access.cells off n).value (peek m.buffer beyond) = slice off n m.buffer := by
  have whole := m.whole
  have length : packedLength m.buffer = m.length := rfl
  rw [Access.value_cells]
  exact fetch_inside (by omega) beyond

theorem length_reading :
    ofLE ((Access.cells 16 4).value (peek m.buffer beyond)) = m.length := by
  rw [cells_message m beyond (by simp [packedSize]; omega)]
  rfl

theorem blockReading_value :
    Handler.blockReading.value (peek m.buffer beyond) = Handler.givenBlock m := by
  have size : packedSize = 24 := rfl
  rw [Handler.blockReading, Access.value_bind, length_reading, Access.value_bind,
    cells_message m beyond (by omega)]
  rfl

/-- A comparison of some bytes of the header. -/
theorem agrees_message {off : Nat} {expected : List UInt8} (inside : off + expected.length ≤ 24) :
    (Access.agrees off expected).value (peek m.buffer beyond) =
      decide (slice off expected.length m.buffer = expected) := by
  have same : (Access.cells off expected.length).value (peek m.buffer beyond) =
      slice off expected.length m.buffer := cells_message m beyond (by simp [packedSize]; omega)
  rw [Access.value_cells] at same
  rw [Access.value_agrees, same]

theorem length_command : 20 ≤ m.command.length := by
  have whole := m.whole
  have size : packedSize = 24 := rfl
  rw [PackedMessage.command, List.length_drop]
  omega

/-- `strcmp` with a word. -/
theorem strcmp_message {word : List UInt8} (letters : (0 : UInt8) ∉ word)
    (short : word.length < 20) :
    (Access.agrees 4 (word ++ [0])).value (peek m.buffer beyond) =
      decide (cString m.command = word) := by
  have long := length_command m
  rw [agrees_message m beyond (by rw [List.length_append, List.length_singleton]; omega)]
  congr 1
  rw [cString_eq_iff letters (by omega), List.length_append, List.length_singleton]
  rfl

end Values

/-- The comparisons of `handle_message_recv`. -/
theorem comparisons (m : PackedMessage) (beyond : Nat → UInt8) :
    (Access.agrees 4 (ascii ['p', 'i', 'n', 'g'] ++ [0])).value (peek m.buffer beyond) =
        decide (cString m.command = ascii ['p', 'i', 'n', 'g']) ∧
      (Access.agrees 4 (ascii ['g', 'e', 't', 'b', 'l', 'o', 'c', 'k', 's'] ++ [0])).value
          (peek m.buffer beyond) =
        decide (cString m.command = ascii ['g', 'e', 't', 'b', 'l', 'o', 'c', 'k', 's']) ∧
      (Access.agrees 4 (ascii ['v', 'e', 'r'])).value (peek m.buffer beyond) =
        decide (m.command.take 3 = ascii ['v', 'e', 'r']) ∧
      (Access.cells 7 1).value (peek m.buffer beyond) = slice 3 1 m.command := by
  refine ⟨strcmp_message m beyond (by decide) (by decide),
    strcmp_message m beyond (by decide) (by decide), agrees_message m beyond (by decide), ?_⟩
  rw [cells_message m beyond (by simp [packedSize]; omega), PackedMessage.command, slice, slice,
    List.drop_drop]

/-- A NUL behind some memory ends no string that would not end there. -/
theorem cString_nul (memory : List UInt8) : cString (memory ++ [0]) = cString memory := by
  induction memory with
  | nil => rfl
  | cons first rest ih =>
      unfold cString at ih ⊢
      rw [List.cons_append, List.takeWhile_cons, List.takeWhile_cons, ih]

/-- The reads are those of the model.  Its strings end where the buffer ends, so here the first
byte behind the buffer is a NUL. -/
theorem recvReading_value (cfg : Config) (h : Handler) (lastBlock : Int) (m : PackedMessage) :
    (h.recvReading cfg lastBlock m).value (peek m.buffer fun _ => 0) =
      h.handleMessageRecv cfg lastBlock m := by
  have whole := m.whole
  have size : packedSize = 24 := rfl
  have command : (Access.before 0 (m.buffer.length - 3) 4).value (peek m.buffer fun _ => 0) =
      cString m.command := by
    have split : m.buffer.length - 3 = m.buffer.length - 4 + 1 := by omega
    have inside : (List.range (m.buffer.length - 4)).map
        (fun i => peek m.buffer (fun _ => 0) (4 + i)) = m.command := by
      show fetch m.buffer _ 4 _ = _
      rw [fetch_inside (by omega), slice, PackedMessage.command, ← List.length_drop,
        List.take_length]
    have outside : peek m.buffer (fun _ => 0) (4 + (m.buffer.length - 4)) = 0 := by
      rw [peek, dif_neg (by omega)]
    rw [Access.value_before, split, List.range_succ, List.map_append, inside, List.map_singleton,
      outside]
    exact cString_nul m.command
  obtain ⟨ping, getblocks, ver, letter⟩ := comparisons m fun _ => 0
  rw [Handler.recvReading, Handler.handleMessageRecv]
  simp only [Access.value_bind, ping, decide_eq_true_eq]
  split
  · simp only [Access.value_bind, Access.value_pure]
  · simp only [Access.value_bind, getblocks, decide_eq_true_eq]
    split
    · rfl
    · simp only [Access.value_bind, ver, decide_eq_true_eq]
      split
      · simp only [Access.value_bind, letter]
        split
        · rfl
        · split
          · rw [Access.value_bind, blockReading_value, Access.value_pure]
          · rw [Access.value_bind, command, Access.value_pure]
      · rfl

/-! ## Bounds -/

/-- The command starts with `ver` and goes on in no known way. -/
def Unexpected (m : PackedMessage) : Prop :=
  m.command.take 3 = ascii ['v', 'e', 'r'] ∧ slice 3 1 m.command ≠ ascii ['a'] ∧
    slice 3 1 m.command ≠ ascii ['s']

instance (m : PackedMessage) : Decidable (Unexpected m) := inferInstanceAs (Decidable (_ ∧ _))

/-- The command starts with `vers`; the height of such a message is looked at. -/
def Announces (m : PackedMessage) : Prop :=
  m.command.take 3 = ascii ['v', 'e', 'r'] ∧ slice 3 1 m.command = ascii ['s']

instance (m : PackedMessage) : Decidable (Announces m) := inferInstanceAs (Decidable (_ ∧ _))

/-- Such a command is none of the two that are compared as a whole. -/
theorem ver_unasked {m : PackedMessage} (ver : m.command.take 3 = ascii ['v', 'e', 'r']) :
    Handler.Unasked m := by
  have other : ∀ word : List UInt8, (0 : UInt8) ∉ word → word.length < 20 →
      word.take 3 ≠ ascii ['v', 'e', 'r'] → 3 ≤ word.length → ¬ cString m.command = word := by
    intro word letters short differs three same
    have long := length_command m
    have front := congrArg (List.take 3) ((cString_eq_iff letters (by omega)).1 same)
    rw [List.take_take, Nat.min_eq_left (by omega), List.take_append_of_le_length three, ver]
      at front
    exact differs front.symm
  exact ⟨other _ (by decide) (by decide) (by decide) (by decide),
    other _ (by decide) (by decide) (by decide) (by decide)⟩

section Bounds

variable (m : PackedMessage) (beyond : Nat → UInt8)

theorem within_copyReading :
    Access.Within (peek m.buffer beyond) (packedSize + m.length) Handler.copyReading := by
  have size : packedSize = 24 := rfl
  rw [Handler.copyReading, Access.within_bind, length_reading, Access.within_cells,
    Access.within_cells]
  exact ⟨Or.inr (by omega), Or.inr (by omega)⟩

theorem within_blockReading :
    Access.Within (peek m.buffer beyond) (packedSize + m.length) Handler.blockReading := by
  have size : packedSize = 24 := rfl
  rw [Handler.blockReading, Access.within_bind, length_reading, Access.within_bind,
    Access.within_cells, Access.within_cells]
  exact ⟨Or.inr (by omega), Or.inr (by omega), Access.within_pure _ _ _⟩

theorem getElem?_wire {i : Nat} (inside : 4 + i < packedSize + m.length) :
    (m.wire.drop 4)[i]? = some (peek m.buffer beyond (4 + i)) := by
  have whole := m.whole
  have length : packedLength m.buffer = m.length := rfl
  have there : 4 + i < m.buffer.length := by omega
  rw [List.getElem?_drop, PackedMessage.wire, List.getElem?_take_of_lt inside, peek, dif_pos there,
    List.get_eq_getElem, List.getElem?_eq_getElem there]

/-- The command is read as a string inside the message exactly if it ends there. -/
theorem within_command :
    Access.Within (peek m.buffer beyond) (packedSize + m.length)
        (Access.before 0 (m.buffer.length - 3) 4) ↔
      (0 : UInt8) ∈ m.wire.drop 4 := by
  have whole := m.whole
  have length : packedLength m.buffer = m.length := rfl
  have size : packedSize = 24 := rfl
  rw [Access.within_before]
  constructor
  · rintro (none_ | outside | ⟨i, few, inside, found⟩)
    · omega
    · omega
    · exact List.mem_iff_getElem?.2 ⟨i, by rw [getElem?_wire m beyond inside, found]⟩
  · intro member
    obtain ⟨i, found⟩ := List.mem_iff_getElem?.1 member
    have inside := (List.getElem?_eq_some_iff.1 found).1
    rw [List.length_drop, m.wire_length] at inside
    rw [getElem?_wire m beyond (by omega)] at found
    exact Or.inr (Or.inr ⟨i, by omega, by omega, Option.some.inj found⟩)

/-- What is read lies in the message, but for a command that is logged and does not end there. -/
theorem within_recvReading (cfg : Config) (h : Handler) (lastBlock : Int) :
    Access.Within (peek m.buffer beyond) (packedSize + m.length) (h.recvReading cfg lastBlock m) ↔
      (Unexpected m → (0 : UInt8) ∈ m.wire.drop 4) := by
  have size : packedSize = 24 := rfl
  have copy := within_copyReading m beyond
  obtain ⟨ping, getblocks, ver, letter⟩ := comparisons m beyond
  have header : ∀ expected : List UInt8, expected.length ≤ 12 →
      Access.Within (peek m.buffer beyond) (packedSize + m.length) (Access.agrees 4 expected) :=
    fun expected short => Access.within_agrees (by omega)
  rw [Handler.recvReading, Access.within_bind]
  simp only
  rw [Access.within_bind, ping, iff_true_intro copy, iff_true_intro (header _ (by decide)),
    true_and, true_and]
  by_cases isPing : cString m.command = ascii ['p', 'i', 'n', 'g']
  · rw [decide_eq_true isPing, if_pos rfl, Access.within_bind]
    exact ⟨fun _ odd => absurd isPing (ver_unasked odd.1).1,
      fun _ => ⟨copy, Access.within_pure _ _ _⟩⟩
  rw [decide_eq_false isPing, if_neg (by decide), Access.within_bind, getblocks,
    iff_true_intro (header _ (by decide)), true_and]
  by_cases isBlocks : cString m.command = ascii ['g', 'e', 't', 'b', 'l', 'o', 'c', 'k', 's']
  · rw [decide_eq_true isBlocks, if_pos rfl]
    exact ⟨fun _ odd => absurd isBlocks (ver_unasked odd.1).2, fun _ => Access.within_pure _ _ _⟩
  rw [decide_eq_false isBlocks, if_neg (by decide), Access.within_bind, ver,
    iff_true_intro (header _ (by decide)), true_and]
  by_cases isVer : m.command.take 3 = ascii ['v', 'e', 'r']
  · rw [decide_eq_true isVer, if_pos rfl, Access.within_bind, letter, Access.within_cells,
      iff_true_intro (Or.inr (by omega) : 1 = 0 ∨ 7 + 1 ≤ packedSize + m.length), true_and]
    split
    · rename_i verack
      exact ⟨fun _ odd => absurd verack odd.2.1, fun _ => Access.within_pure _ _ _⟩
    · split
      · rename_i version
        rw [Access.within_bind]
        exact ⟨fun _ odd => absurd version odd.2.2,
          fun _ => ⟨within_blockReading m beyond, Access.within_pure _ _ _⟩⟩
      · rename_i noVerack noVersion
        rw [Access.within_bind, within_command m beyond]
        exact ⟨fun both _ => both.1,
          fun ends => ⟨ends ⟨isVer, noVerack, noVersion⟩, Access.within_pure _ _ _⟩⟩
  · rw [decide_eq_false isVer, if_neg (by decide)]
    exact ⟨fun _ odd => absurd odd.1 isVer, fun _ => Access.within_pure _ _ _⟩

end Bounds

/-! ## Heights -/

/-- The payload of a message. -/
def payload (m : PackedMessage) : List UInt8 := m.wire.drop packedSize

theorem length_payload (m : PackedMessage) : (payload m).length = m.length := by
  rw [payload, List.length_drop, m.wire_length, Nat.add_sub_cancel_left]

/-- In a message that is long enough the height is in the payload. -/
theorem givenBlock_payload {m : PackedMessage} (long : 5 ≤ m.length) :
    Handler.givenBlock m = ofLE32 (slice (m.length - 5) 4 (payload m)) := by
  have size : packedSize = 24 := rfl
  have there : packedSize + (m.length - 5) = packedSize + m.length - 5 := by omega
  rw [Handler.givenBlock, payload, slice, slice, List.drop_drop, there]
  exact congrArg ofLE32 (slice_take m.buffer (by omega)).symm

theorem ofLE32_inj {a b : List UInt8} (four : a.length = 4) (four' : b.length = 4)
    (same : ofLE32 a = ofLE32 b) : a = b := by
  apply ofLE_inj (four.trans four'.symm)
  have small := ofLE_lt a
  have small' := ofLE_lt b
  rw [four] at small
  rw [four'] at small'
  unfold ofLE32 at same
  split at same <;> split at same <;> omega

section Checksum

variable (m : PackedMessage)

/-- A byte of the checksum that a short message has among the four of its height. -/
def checksumByte : Nat := if m.length = 0 then 22 else 23

/-- The buffer with this byte changed. -/
def changedBuffer : List UInt8 :=
  WrappedBuffer.blit m.buffer (checksumByte m) ((slice (checksumByte m) 1 m.buffer).map (· + 1))

theorem checksumByte_bounds : 20 ≤ checksumByte m ∧ checksumByte m < 24 := by
  unfold checksumByte
  split
  · decide
  · decide

theorem length_changedByte :
    ((slice (checksumByte m) 1 m.buffer).map (· + 1)).length = 1 := by
  have bounds := checksumByte_bounds m
  have whole := m.whole
  have size : packedSize = 24 := rfl
  rw [List.length_map, slice_length (by omega)]

theorem packedLength_changed : packedLength (changedBuffer m) = m.length := by
  have bounds := checksumByte_bounds m
  have whole := m.whole
  have size : packedSize = 24 := rfl
  rw [packedLength, changedBuffer, WrappedBuffer.slice_blit_before _ (by omega) (by omega)]
  rfl

theorem length_changed : (changedBuffer m).length = m.buffer.length := by
  have bounds := checksumByte_bounds m
  have whole := m.whole
  have size : packedSize = 24 := rfl
  rw [changedBuffer, WrappedBuffer.length_blit (by rw [length_changedByte]; omega)]

theorem changed_whole :
    packedSize + packedLength (changedBuffer m) ≤ (changedBuffer m).length := by
  rw [packedLength_changed, length_changed]
  exact m.whole

/-- The message with this byte changed. -/
def changed : PackedMessage := ⟨changedBuffer m, changed_whole m⟩

theorem payload_changed : payload (changed m) = payload m := by
  have bounds := checksumByte_bounds m
  have whole := m.whole
  have size : packedSize = 24 := rfl
  have length : (changed m).length = m.length := packedLength_changed m
  have behind : (changedBuffer m).drop packedSize = m.buffer.drop packedSize :=
    WrappedBuffer.drop_blit (by omega) (by rw [length_changedByte]; omega)
  rw [payload, payload, PackedMessage.wire, PackedMessage.wire, List.drop_take, List.drop_take,
    length]
  exact congrArg _ behind

/-- A short message has a byte of its checksum in its height. -/
theorem givenBlock_changed (short : m.length < 5) :
    Handler.givenBlock (changed m) ≠ Handler.givenBlock m := by
  have bounds := checksumByte_bounds m
  have whole := m.whole
  have size : packedSize = 24 := rfl
  have packed : packedLength m.buffer = m.length := rfl
  have length : (changed m).length = m.length := packedLength_changed m
  have there : packedSize + m.length - 5 ≤ checksumByte m ∧
      checksumByte m + 1 ≤ packedSize + m.length - 5 + 4 := by
    unfold checksumByte
    split
    · omega
    · omega
  intro same
  rw [Handler.givenBlock, Handler.givenBlock, length] at same
  have bytes := ofLE32_inj
    (slice_length (by show _ ≤ (changedBuffer m).length; rw [length_changed]; omega))
    (slice_length (by omega)) same
  have one := congrArg (slice (checksumByte m - (packedSize + m.length - 5)) 1) bytes
  rw [slice_slice _ (by omega), slice_slice _ (by omega), Nat.add_sub_cancel' there.1] at one
  have new : slice (checksumByte m) 1 (changed m).buffer =
      (slice (checksumByte m) 1 m.buffer).map (· + 1) :=
    WrappedBuffer.slice_blit (by omega) (length_changedByte m)
  rw [new] at one
  have single : (slice (checksumByte m) 1 m.buffer).length = 1 := slice_length (by omega)
  obtain ⟨byte, only⟩ := List.length_eq_one_iff.1 single
  rw [only, List.map_singleton] at one
  have next : byte + 1 = byte := List.singleton_inj.1 one
  exact absurd next (by simp)

end Checksum

/-! ## Pongs -/

/-- The pong of a ping is the ping with another letter in its command. -/
theorem pong_wire {m : PackedMessage} (asked : cString m.command = ascii ['p', 'i', 'n', 'g']) :
    (Handler.pong m).wire = m.wire.take 4 ++ ascii ['p', 'o', 'n', 'g'] ++ m.wire.drop 8 := by
  have size : packedSize = 24 := rfl
  have room := le_allocatedFor (packedSize + m.length)
  have wire := m.wire_length
  have letters : (m.wire.drop 4).take 4 = ascii ['p', 'i', 'n', 'g'] := by
    have front := congrArg (List.take 4) ((cString_eq_iff (by decide)
      (by rw [List.length_drop, wire]; simp [ascii]; omega)).1
      ((cString_wire m _ (by decide)).2 asked))
    rw [List.take_take] at front
    exact front
  have parts : m.wire = m.wire.take 4 ++ ascii ['p'] ++ ascii ['i'] ++
      (ascii ['n', 'g'] ++ m.wire.drop 8) := by
    have split : m.wire = m.wire.take 4 ++ ((m.wire.drop 4).take 4 ++ m.wire.drop 8) := by
      conv_lhs => rw [← List.take_append_drop 4 m.wire, ← List.take_append_drop 4 (m.wire.drop 4),
        List.drop_drop]
    rw [letters] at split
    exact split.trans (by simp [ascii])
  have five : (m.wire.take 4 ++ ascii ['p']).length = 4 + 1 := by
    rw [List.length_append, List.length_take, wire]
    simp [ascii]
    omega
  have copied : WrappedBuffer.blit (WrappedBuffer.ofSize (packedSize + m.length)) 0 m.wire =
      m.wire ++ (WrappedBuffer.ofSize (packedSize + m.length)).drop m.wire.length := by
    simp [WrappedBuffer.blit]
  have buffer : (Handler.pong m).buffer = (m.wire.take 4 ++ ascii ['p', 'o', 'n', 'g'] ++
      m.wire.drop 8) ++ (WrappedBuffer.ofSize (packedSize + m.length)).drop m.wire.length := by
    show Handler.pongBuffer m = _
    rw [Handler.pongBuffer, copied]
    generalize (WrappedBuffer.ofSize (packedSize + m.length)).drop m.wire.length = rest
    conv_lhs => rw [parts, List.append_assoc _ (ascii ['n', 'g'] ++ _) rest]
    rw [WrappedBuffer.blit_middle five (by rfl)]
    simp [ascii]
  have length : (Handler.pong m).length = m.length := Handler.packedLength_pongBuffer m
  rw [PackedMessage.wire, length, buffer]
  apply List.take_left'
  rw [List.length_append, List.length_append, List.length_take, List.length_drop, wire]
  simp [ascii]
  omega

/-! ## Messages in their own bytes -/

/-- A received message is taken for what its own bytes say: nothing else is read, the height of
a version message depends on the payload only, a message too short to have one leaves
`g_last_block` as it was, and the pong is the ping with another command. -/
structure Interpreted (cfg : Config) (h : Handler) (lastBlock : Int) (m : PackedMessage)
    (beyond : Nat → UInt8) : Prop where
  bounded : Access.Within (peek m.buffer beyond) (packedSize + m.length)
    (h.recvReading cfg lastBlock m)
  height : Announces m → ∀ m' : PackedMessage, payload m' = payload m →
    Handler.givenBlock m' = Handler.givenBlock m
  short : Announces m → m.length < 5 → (h.handleMessageRecv cfg lastBlock m).2 = lastBlock
  pong : cString m.command = ascii ['p', 'i', 'n', 'g'] → ∃ p : PackedMessage,
    h.handleMessageRecv cfg lastBlock m =
        ((h.gLog (.bitcoinMsg h.id false m)).appendForWriteShared p, lastBlock) ∧
      p.wire = m.wire.take 4 ++ ascii ['p', 'o', 'n', 'g'] ++ m.wire.drop 8

/-- Every message is, but a version message with less than five bytes of payload, and a message
with an unexpected command and no NUL in it from there on. -/
theorem interpreted_iff (cfg : Config) (h : Handler) (lastBlock : Int) (m : PackedMessage)
    (beyond : Nat → UInt8) :
    Interpreted cfg h lastBlock m beyond ↔
      (Announces m → 5 ≤ m.length) ∧ (Unexpected m → (0 : UInt8) ∈ m.wire.drop 4) := by
  constructor
  · intro interpreted
    refine ⟨?_, (within_recvReading m beyond cfg h lastBlock).1 interpreted.bounded⟩
    intro announces
    by_contra few
    exact givenBlock_changed m (by omega)
      (interpreted.height announces (changed m) (payload_changed m))
  · rintro ⟨long, ends⟩
    refine ⟨(within_recvReading m beyond cfg h lastBlock).2 ends, ?_, ?_, ?_⟩
    · intro announces m' same
      have enough := long announces
      have length : m'.length = m.length := by
        rw [← length_payload, same, length_payload]
      rw [givenBlock_payload enough, givenBlock_payload (by omega), length, same]
    · intro announces few
      have enough := long announces
      omega
    · intro asked
      refine ⟨Handler.pong m, ?_, pong_wire asked⟩
      rw [Handler.handleMessageRecv, if_pos asked]

/-- A version message without a payload, whose checksum starts with a one. -/
def emptyVersionBuffer : List UInt8 :=
  le 4 someConfig.magic ++ commandField (ascii ['v', 'e', 'r', 's', 'i', 'o', 'n']) ++ le 4 0 ++
    [1, 0, 0, 0]

theorem emptyVersion_whole :
    packedSize + packedLength emptyVersionBuffer ≤ emptyVersionBuffer.length := by decide

def emptyVersion : PackedMessage := ⟨emptyVersionBuffer, emptyVersion_whole⟩

/-- A handler that waits for messages. -/
def waiting : Handler :=
  (Handler.new someConfig someEnv 250 7 RECV_VERSION_INIT someAddr someAddr 0).1

/-- Its checksum is taken for a height. -/
theorem empty_version_counts :
    Announces emptyVersion ∧ emptyVersion.length = 0 ∧
      (waiting.handleMessageRecv someConfig 250 emptyVersion).2 = 256 ∧
      ¬ Interpreted someConfig waiting 250 emptyVersion fun _ => 0 := by
  have announces : Announces emptyVersion := by decide
  have raised : (waiting.handleMessageRecv someConfig 250 emptyVersion).2 = 256 := by
    decide +kernel
  refine ⟨announces, by decide, raised, ?_⟩
  intro interpreted
  have same := interpreted.short announces (by decide)
  rw [raised] at same
  cases same

end Coinscope.Connector

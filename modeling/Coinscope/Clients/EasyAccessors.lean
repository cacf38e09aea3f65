/-
# Clients.EasyAccessors -- setters and getters of the C++ client library

A `connect_msg` has two addresses, a `command_msg` a command, an id and targets, and both have
setters and getters that know where in the payload these are.

The getter of the second address of a `connect_msg` takes the size of a pointer for the size of
an address, and so returns eight bytes of either address.  The setters of a `command_msg` write
in place or build a new message; that makes no difference to the message, nor to the copies and
serialisations that share its buffer.

* `Addresses` -- the addresses that were set last.
* `accessors_consistent_iff` -- when the getters of a `connect_msg` return them.
* `CommandMsg` -- a `command_msg` on the heap, with what was made of it.
* `CommandMsg.Shows` -- the invariant: it reads as a message built from the last values.
* `setters_commute` -- that holds after any setters.
-/
import Coinscope.Clients.EasyMessages
import Coinscope.Shared.CopyOnWrite

namespace Coinscope.Clients

open Coinscope.Shared
open Coinscope.Theory.Bytes
open Coinscope.Theory.SharedBlocks
open Coinscope.Control

set_option autoImplicit false

/-! ## Addresses -/

namespace EasyMessage

/-- `remote_addr()`. -/
def remoteAddr (m : EasyMessage) : List UInt8 := slice messageSize 16 m.buffer

/-- `remote_addr(new_remote)`. -/
def setRemoteAddr (m : EasyMessage) (a : SockaddrIn) : EasyMessage := m.copied 0 a.bytes

/-- `local_addr()`: the offset is `sizeof(sockaddr_in*)`. -/
def localAddr (m : EasyMessage) : List UInt8 := slice (messageSize + 8) 16 m.buffer

/-- `local_addr(new_local)`. -/
def setLocalAddr (m : EasyMessage) (a : SockaddrIn) : EasyMessage := m.copied 16 a.bytes

end EasyMessage

/-- A call of one of the setters. -/
inductive AddrSetter where
  | remote (a : SockaddrIn)
  | localAddr (a : SockaddrIn)

/-- The addresses that were set last. -/
structure Addresses where
  remote : SockaddrIn
  localAddr : SockaddrIn

def Addresses.set (a : Addresses) : AddrSetter → Addresses
  | .remote new => { a with remote := new }
  | .localAddr new => { a with localAddr := new }

def EasyMessage.setAddr (m : EasyMessage) : AddrSetter → EasyMessage
  | .remote new => m.setRemoteAddr new
  | .localAddr new => m.setLocalAddr new

/-- The addresses behind some calls. -/
def Addresses.after (first : Addresses) (sets : List AddrSetter) : Addresses :=
  sets.foldl Addresses.set first

/-- The message behind some calls. -/
def Addresses.message (first : Addresses) (sets : List AddrSetter) : EasyMessage :=
  sets.foldl EasyMessage.setAddr (connectMsg first.remote first.localAddr)

/-- The getters return what was set last, at every point of the sequence, and no setter changes
what the other getter returns. -/
structure AccessorsConsistent (first : Addresses) (sets : List AddrSetter) : Prop where
  remote : ∀ before after, sets = before ++ after →
    (first.message before).remoteAddr = (first.after before).remote.bytes
  localAddr : ∀ before after, sets = before ++ after →
    (first.message before).localAddr = (first.after before).localAddr.bytes
  setRemote : ∀ before new after, sets = before ++ .remote new :: after →
    (first.message (before ++ [.remote new])).localAddr = (first.message before).localAddr
  setLocal : ∀ before new after, sets = before ++ .localAddr new :: after →
    (first.message (before ++ [.localAddr new])).remoteAddr = (first.message before).remoteAddr

/-- The second half of the remote address and both halves of the local one are the same eight
bytes. -/
def Addresses.Alike (a : Addresses) : Prop :=
  a.remote.bytes.drop 8 = a.localAddr.bytes.take 8 ∧
    a.localAddr.bytes.drop 8 = a.localAddr.bytes.take 8

instance (a : Addresses) : Decidable a.Alike := inferInstanceAs (Decidable (_ ∧ _))

/-- The buffer of a message with these addresses. -/
def Addresses.bufferOf (a : Addresses) : List UInt8 :=
  EasyMessage.layout CONNECT 32 (a.remote.bytes ++ a.localAddr.bytes)

theorem Addresses.setAddr_bufferOf {m : EasyMessage} {a : Addresses} (same : m.buffer = a.bufferOf)
    (s : AddrSetter) : (m.setAddr s).buffer = (a.set s).bufferOf := by
  have whole : m.buffer =
      EasyMessage.layout CONNECT 32 (a.remote.bytes ++ a.localAddr.bytes) ++ [] := by
    rw [same, List.append_nil]
    rfl
  have remote := a.remote.size
  have localSize := a.localAddr.size
  cases s with
  | remote new =>
      have copied := EasyMessage.copied_layout 0 new.bytes
        (by rw [List.length_append, new.size]; omega) whole
      rw [List.append_nil] at copied
      refine copied.trans (congrArg (EasyMessage.layout CONNECT 32) ?_)
      have middle : WrappedBuffer.blit ([] ++ a.remote.bytes ++ a.localAddr.bytes) 0 new.bytes =
          [] ++ new.bytes ++ a.localAddr.bytes :=
        WrappedBuffer.blit_middle rfl (by rw [remote, new.size])
      exact middle
  | localAddr new =>
      have copied := EasyMessage.copied_layout 16 new.bytes
        (by rw [List.length_append, new.size]; omega) whole
      rw [List.append_nil] at copied
      refine copied.trans (congrArg (EasyMessage.layout CONNECT 32) ?_)
      rw [WrappedBuffer.blit_end (by rw [List.length_append, new.size]; omega),
        List.take_left' remote]
      rfl

/-- The constructor starts from zeros, and sets both. -/
theorem connectMsg_buffer (a : Addresses) :
    (connectMsg a.remote a.localAddr).buffer = a.bufferOf := by
  have zeros : (EasyMessage.new CONNECT (List.replicate (16 * 2) 0)).buffer =
      (⟨⟨List.replicate 16 0, rfl⟩, ⟨List.replicate 16 0, rfl⟩⟩ : Addresses).bufferOf := by
    decide
  have first := Addresses.setAddr_bufferOf zeros (.remote a.remote)
  exact Addresses.setAddr_bufferOf first (.localAddr a.localAddr)

theorem Addresses.message_buffer (first : Addresses) (sets : List AddrSetter) :
    (first.message sets).buffer = (first.after sets).bufferOf := by
  have run : ∀ (m : EasyMessage) (a : Addresses), m.buffer = a.bufferOf →
      (sets.foldl EasyMessage.setAddr m).buffer = (a.after sets).bufferOf := by
    induction sets with
    | nil =>
        intro m a same
        exact same
    | cons s rest ih =>
        intro m a same
        exact ih (m.setAddr s) (a.set s) (Addresses.setAddr_bufferOf same s)
  exact run _ _ (connectMsg_buffer first)

theorem remoteAddr_bufferOf {m : EasyMessage} {a : Addresses} (same : m.buffer = a.bufferOf) :
    m.remoteAddr = a.remote.bytes := by
  rw [EasyMessage.remoteAddr, same, Addresses.bufferOf, EasyMessage.layout, ← List.append_assoc]
  exact slice_here (by simp [messageSize]) a.remote.size

/-- What the other getter returns: the second half of the one, the first half of the other. -/
theorem localAddr_bufferOf {m : EasyMessage} {a : Addresses} (same : m.buffer = a.bufferOf) :
    m.localAddr = a.remote.bytes.drop 8 ++ a.localAddr.bytes.take 8 := by
  have front : ([0] ++ be 4 32 ++ [CONNECT]).length = messageSize := by decide
  have remote := a.remote.size
  rw [EasyMessage.localAddr, same, Addresses.bufferOf, EasyMessage.layout, slice, ← front,
    List.drop_length_add_append, List.drop_append_of_le_length (by omega), List.take_append,
    List.take_of_length_le (by rw [List.length_drop]; omega), List.length_drop, remote]

/-- It returns the local address if the three halves are alike. -/
theorem localAddr_eq_iff {m : EasyMessage} {a : Addresses} (same : m.buffer = a.bufferOf) :
    m.localAddr = a.localAddr.bytes ↔ a.Alike := by
  have half : (a.remote.bytes.drop 8).length = 8 := by
    rw [List.length_drop, a.remote.size]
  rw [localAddr_bufferOf same]
  constructor
  · intro equal
    have first := congrArg (List.take 8) equal
    have second := congrArg (List.drop 8) equal
    rw [List.take_left' half] at first
    rw [List.drop_left' half] at second
    exact ⟨first, second.symm⟩
  · rintro ⟨left, right⟩
    calc a.remote.bytes.drop 8 ++ a.localAddr.bytes.take 8
        = a.localAddr.bytes.take 8 ++ a.localAddr.bytes.drop 8 := by rw [left, right]
      _ = a.localAddr.bytes := List.take_append_drop 8 _

/-- The getters agree with the setters exactly if at every point of the sequence the addresses
that were set last are so alike that the offset does not matter. -/
theorem accessors_consistent_iff (first : Addresses) (sets : List AddrSetter) :
    AccessorsConsistent first sets ↔
      ∀ before after, sets = before ++ after → (first.after before).Alike := by
  constructor
  · intro consistent before after split
    exact (localAddr_eq_iff (first.message_buffer before)).1
      (consistent.localAddr before after split)
  · intro alike
    have remote : ∀ before, (first.message before).remoteAddr = (first.after before).remote.bytes :=
      fun before => remoteAddr_bufferOf (first.message_buffer before)
    have localAddr : ∀ before after, sets = before ++ after →
        (first.message before).localAddr = (first.after before).localAddr.bytes :=
      fun before after split =>
        (localAddr_eq_iff (first.message_buffer before)).2 (alike before after split)
    have next : ∀ before s, first.after (before ++ [s]) = (first.after before).set s :=
      fun before s => List.foldl_concat ..
    refine ⟨fun before _ _ => remote before, localAddr, ?_, ?_⟩
    · intro before new after split
      rw [localAddr before _ split, localAddr (before ++ [AddrSetter.remote new]) after (by simp [split]),
        next]
      rfl
    · intro before new after _
      rw [remote, remote, next]
      rfl

/-- The local address of a new message for `1.2.3.4:8333` is zeros and a part of it. -/
theorem local_addr_shifted : ¬ AccessorsConsistent ⟨someRemote, someRemote⟩ [] := by
  intro consistent
  exact absurd (consistent.localAddr [] [] rfl) (by decide)

/-! ## Commands -/

/-- What a `command_msg` is constructed from. -/
structure CommandValues where
  command : UInt8
  messageId : UInt32
  targets : List UInt32
  deriving DecidableEq

namespace CommandValues

/-- `hton` of the targets, one behind the other. -/
def wireTargets (v : CommandValues) : List UInt8 := v.targets.flatMap fun target => be 4 target.toNat

/-- The whole buffer of a new message. -/
def bufferOf (v : CommandValues) : List UInt8 := (commandMsg v.command v.messageId v.targets).buffer

/-- What `serialize` returns of it. -/
def serialOf (v : CommandValues) : List UInt8 :=
  (commandMsg v.command v.messageId v.targets).serialize

/-- `sizeof(ctrl::message) + sizeof(ctrl::command_msg) + 4 * target_cnt`. -/
def size (v : CommandValues) : Nat := messageSize + 9 + 4 * v.targets.length

/-- Behind the message, in a buffer of whole pages. -/
def slack (v : CommandValues) : List UInt8 := (WrappedBuffer.ofSize v.size).drop v.size

theorem length_wireTargets (v : CommandValues) : v.wireTargets.length = 4 * v.targets.length :=
  length_targets v.targets

/-- The buffer, field after field. -/
theorem bufferOf_eq (v : CommandValues) :
    v.bufferOf = [0] ++ be 4 (9 + 4 * v.targets.length) ++ [COMMAND] ++ [v.command] ++
      be 4 v.messageId.toNat ++ be 4 v.targets.length ++ v.wireTargets ++ v.slack := by
  have length : (EasyMessage.layout COMMAND (9 + 4 * v.targets.length)
      (commandPayload v.command v.messageId v.targets)).length = v.size := by
    rw [EasyMessage.length_layout, size, Nat.add_assoc]
    simp [commandPayload]
    omega
  rw [bufferOf, commandMsg, WrappedBuffer.blit, List.take_zero, List.nil_append, Nat.zero_add, length]
  simp only [EasyMessage.layout, commandPayload, List.append_assoc]
  rfl

theorem length_bufferOf (v : CommandValues) : v.bufferOf.length = allocatedFor v.size := by
  have inside := le_allocatedFor v.size
  rw [bufferOf_eq]
  simp [slack, length_wireTargets, size, messageSize] at inside ⊢
  omega

theorem size_le_length (v : CommandValues) : v.size ≤ v.bufferOf.length := by
  rw [length_bufferOf]
  exact le_allocatedFor v.size

/-! ### Fields -/

/-- What stands in front of the fields that can be set. -/
def head (v : CommandValues) : List UInt8 := [0] ++ be 4 (9 + 4 * v.targets.length) ++ [COMMAND]

/-- What stands in front of the targets. -/
def front (v : CommandValues) : List UInt8 :=
  v.head ++ [v.command] ++ be 4 v.messageId.toNat ++ be 4 v.targets.length

theorem length_head (v : CommandValues) : v.head.length = 6 := by
  simp [head]

theorem length_front (v : CommandValues) : v.front.length = 15 := by
  simp [front, length_head]

theorem at_command (v : CommandValues) : v.bufferOf = v.head ++ [v.command] ++
    (be 4 v.messageId.toNat ++ be 4 v.targets.length ++ v.wireTargets ++ v.slack) := by
  rw [bufferOf_eq, head]
  simp only [List.append_assoc]

theorem at_messageId (v : CommandValues) : v.bufferOf = (v.head ++ [v.command]) ++
    be 4 v.messageId.toNat ++ (be 4 v.targets.length ++ v.wireTargets ++ v.slack) := by
  rw [bufferOf_eq, head]
  simp only [List.append_assoc]

theorem at_targetCnt (v : CommandValues) : v.bufferOf =
    (v.head ++ [v.command] ++ be 4 v.messageId.toNat) ++ be 4 v.targets.length ++
      (v.wireTargets ++ v.slack) := by
  rw [bufferOf_eq, head]
  simp only [List.append_assoc]

theorem at_targets (v : CommandValues) : v.bufferOf = v.front ++ v.wireTargets ++ v.slack := by
  rw [bufferOf_eq, front, head]

/-! ### Setters in place -/

theorem blit_command (v : CommandValues) (c : UInt8) :
    WrappedBuffer.blit v.bufferOf 6 [c] = { v with command := c }.bufferOf := by
  rw [at_command, at_command, WrappedBuffer.blit_middle v.length_head (by simp)]
  rfl

theorem blit_messageId (v : CommandValues) (id : UInt32) :
    WrappedBuffer.blit v.bufferOf 7 (be 4 id.toNat) = { v with messageId := id }.bufferOf := by
  have before : (v.head ++ [v.command]).length = 7 := by simp [length_head]
  rw [at_messageId, at_messageId, WrappedBuffer.blit_middle before (by simp)]
  rfl

/-- As many targets as there were go where these were. -/
theorem blit_targets (v : CommandValues) {targets : List UInt32}
    (same : targets.length = v.targets.length) :
    WrappedBuffer.blit v.bufferOf 15 { v with targets := targets }.wireTargets =
      { v with targets := targets }.bufferOf := by
  have long : v.wireTargets.length = { v with targets := targets }.wireTargets.length := by
    rw [length_wireTargets, length_wireTargets, same]
  rw [at_targets, at_targets, WrappedBuffer.blit_middle v.length_front long]
  simp only [front, head, slack, size, same]

/-! ### Getters -/

/-- The fields of a buffer, as the getters read them. -/
def ofBuffer (buffer : List UInt8) : CommandValues where
  command := UInt8.ofNat (ofBE (slice 6 1 buffer))
  messageId := UInt32.ofNat (ofBE (slice 7 4 buffer))
  targets := (List.range (ofBE (slice 11 4 buffer))).map fun i =>
    UInt32.ofNat (ofBE (slice (15 + 4 * i) 4 buffer))

theorem target_cnt_bufferOf (v : CommandValues) (small : v.targets.length < 2 ^ 29) :
    ofBE (slice 11 4 v.bufferOf) = v.targets.length := by
  have field : slice 11 4 v.bufferOf = be 4 v.targets.length := by
    rw [at_targetCnt]
    exact slice_here (by simp [length_head]) (length_be ..)
  rw [field]
  exact ofBE_be_of_lt (show _ < 256 ^ 4 by omega)

theorem target_bufferOf (v : CommandValues) {i : Nat} (inside : i < v.targets.length) :
    slice (15 + 4 * i) 4 v.bufferOf = be 4 (v.targets.get ⟨i, inside⟩).toNat := by
  rw [at_targets, List.append_assoc, slice_append_right _ (by rw [length_front]; omega),
    length_front, Nat.add_sub_cancel_left, slice_append_left _ (by rw [length_wireTargets]; omega)]
  exact slice_target v.targets inside

theorem ofBuffer_bufferOf (v : CommandValues) (small : v.targets.length < 2 ^ 29) :
    ofBuffer v.bufferOf = v := by
  have command : slice 6 1 v.bufferOf = [v.command] := by
    rw [at_command]
    exact slice_here v.length_head rfl
  have messageId : slice 7 4 v.bufferOf = be 4 v.messageId.toNat := by
    rw [at_messageId]
    exact slice_here (by simp [length_head]) (length_be ..)
  have targets : ((List.range v.targets.length).map fun i =>
      UInt32.ofNat (ofBE (slice (15 + 4 * i) 4 v.bufferOf))) = v.targets := by
    apply List.ext_getElem
    · simp
    · intro i _ inside
      have word := (v.targets.get ⟨i, inside⟩).toNat_lt
      rw [List.getElem_map, List.getElem_range, target_bufferOf v inside,
        ofBE_be_of_lt (show _ < 256 ^ 4 from word), UInt32.ofNat_toNat]
      rfl
  have one : ofBE [v.command] = v.command.toNat := by simp [ofBE, ofLE]
  rw [ofBuffer, command, messageId, target_cnt_bufferOf v small, targets, one,
    ofBE_be_of_lt (show _ < 256 ^ 4 from v.messageId.toNat_lt), UInt32.ofNat_toNat,
    UInt8.ofNat_toNat]

end CommandValues

/-! ## Command messages on the heap -/

/-- `command_msg(command, message_id, targets)`: `message` copies the buffer it is given, and the
fields are written into the copy. -/
def newCommand (junk : Junk) (v : CommandValues) (m : Memory) : Except Fault (Wrapped × Memory) := do
  let (contents, m) ← Wrapped.new junk 1 v.size m
  let (buffer, m) ← contents.copy m
  let m ← contents.destroy m
  buffer.write junk 0 (EasyMessage.layout COMMAND (9 + 4 * v.targets.length)
    (commandPayload v.command v.messageId v.targets)) m

/-- `targets(targets, cnt)`.  The pointer is fetched first, which makes the buffer this message's
own; the targets are written through it, or a new message is assigned to this one. -/
def setTargets (junk : Junk) (targets : List UInt32) (w : Wrapped) (m : Memory) :
    Except Fault (Wrapped × Memory) := do
  let (w, m) ← w.write junk 0 [] m
  let bytes ← w.read m
  let new := { CommandValues.ofBuffer bytes with targets := targets }
  if targets.length = ofBE (slice 11 4 bytes) then w.write junk 15 new.wireTargets m
  else do
    let (newobj, m) ← newCommand junk new m
    let (other, m) ← newobj.copy m
    let (w, m) ← w.assign other m
    let m ← newobj.destroy m
    return (w, m)

/-- A copy of the message, or what `serialize` returned: a buffer, and how much of it to send. -/
structure Taken where
  buffer : Wrapped
  size : Option Nat

/-- How much of a buffer is meant. -/
def meant (size : Option Nat) (bytes : List UInt8) : List UInt8 :=
  match size with
  | none => bytes
  | some n => bytes.take n

/-- The bytes of it. -/
def Taken.bytes (t : Taken) (m : Memory) : Except Fault (List UInt8) := do
  let bytes ← t.buffer.read m
  return meant t.size bytes

/-- A `command_msg`, what was taken from it so far, and the heap. -/
structure CommandMsg where
  buffer : Wrapped
  taken : List Taken
  memory : Memory

/-- What is done with the message. -/
inductive CommandAct where
  | command (c : UInt8)
  | messageId (id : UInt32)
  | targets (targets : List UInt32)
  | copy
  | serialize

namespace CommandMsg

def new (junk : Junk) (v : CommandValues) : Except Fault CommandMsg := do
  let (buffer, m) ← newCommand junk v Heap.empty
  return ⟨buffer, [], m⟩

def step (junk : Junk) (s : CommandMsg) : CommandAct → Except Fault CommandMsg
  | .command c => do
      let (buffer, m) ← s.buffer.write junk 6 [c] s.memory
      return { s with buffer := buffer, memory := m }
  | .messageId id => do
      let (buffer, m) ← s.buffer.write junk 7 (be 4 id.toNat) s.memory
      return { s with buffer := buffer, memory := m }
  | .targets targets => do
      let (buffer, m) ← setTargets junk targets s.buffer s.memory
      return { s with buffer := buffer, memory := m }
  | .copy => do
      let (other, m) ← s.buffer.copy s.memory
      return { s with taken := s.taken ++ [⟨other, none⟩], memory := m }
  | .serialize => do
      let bytes ← s.buffer.read s.memory
      let (other, m) ← s.buffer.copy s.memory
      return { s with
        taken := s.taken ++ [⟨other, some (messageLength bytes + messageSize)⟩], memory := m }

/-- A new message, and what is done with it. -/
def run (junk : Junk) (v : CommandValues) (acts : List CommandAct) : Except Fault CommandMsg := do
  let s ← new junk v
  acts.foldlM (step junk) s

/-- The bytes of `serialize()`. -/
def serialized (s : CommandMsg) : Except Fault (List UInt8) := do
  let bytes ← s.buffer.read s.memory
  return bytes.take (messageLength bytes + messageSize)

/-- What the getters return. -/
def values (s : CommandMsg) : Except Fault CommandValues := do
  let bytes ← s.buffer.read s.memory
  return CommandValues.ofBuffer bytes

end CommandMsg

namespace CommandValues

/-- The values behind a setter. -/
def set (v : CommandValues) : CommandAct → CommandValues
  | .command c => { v with command := c }
  | .messageId id => { v with messageId := id }
  | .targets targets => { v with targets := targets }
  | .copy => v
  | .serialize => v

/-- The values that were set last. -/
def last (v : CommandValues) (acts : List CommandAct) : CommandValues := acts.foldl set v

/-- What is taken, from messages that are built when it is taken. -/
def takenFresh (v : CommandValues) : List CommandAct → List (List UInt8)
  | [] => []
  | .copy :: rest => v.bufferOf :: takenFresh v rest
  | .serialize :: rest => v.serialOf :: takenFresh v rest
  | act :: rest => takenFresh (v.set act) rest

end CommandValues

/-! ### The operations -/

section Operations

variable {m : Memory} {refs : Multiset (Ref Tag)} {r : Ref Tag} {v : CommandValues}

theorem newCommand_spec (junk : Junk) (owned : Owned Fits m refs) (v : CommandValues) :
    ∃ r m', newCommand junk v m = .ok (.of (some r), m') ∧ Has m m' refs (some r) v.bufferOf := by
  obtain ⟨o, m₁, made, has⟩ := Wrapped.new_spec junk owned v.size
  have large : 15 ≤ v.size := by
    rw [CommandValues.size, messageSize]
    omega
  have room := le_allocatedFor v.size
  cases o with
  | none =>
      have length := congrArg List.length has.value
      rw [WrappedBuffer.length_ofSize] at length
      simp only [Memory.value, List.length_nil] at length
      omega
  | some q =>
      obtain ⟨m₂, copied, twice, blocks⟩ := Wrapped.copy_spec has.owned
      obtain ⟨m₃, gone, once, keeps⟩ := Wrapped.destroy_spec twice
      have here : held (some q) ≤ held (some q) + refs := Multiset.le_add_right ..
      have contents : m₃.contents q = WrappedBuffer.ofSize v.size :=
        (value_keeps keeps here).trans ((value_of_blocks blocks (some q)).trans has.value)
      rw [held_some_add] at once
      have inside : 0 + (EasyMessage.layout COMMAND (9 + 4 * v.targets.length)
          (commandPayload v.command v.messageId v.targets)).length ≤ (m₃.contents q).length := by
        rw [contents, WrappedBuffer.length_ofSize, EasyMessage.length_layout]
        refine Nat.le_trans ?_ room
        simp [commandPayload, CommandValues.size]
        omega
      obtain ⟨r, m₄, written, last⟩ := Wrapped.write_spec junk once inside
      rw [contents] at last
      refine ⟨r, m₄, ?_, last.owned, ?_, last.value⟩
      · simp only [newCommand, made, copied, gone, written, bind, Except.bind]
      · have same : Keeps m₁ m₂ refs := fun _ _ => by rw [blocks]
        have dropped : Keeps m₂ m₃ refs := keeps.mono (Multiset.le_add_left ..)
        exact has.keeps.trans (same.trans (dropped.trans last.keeps))

/-- A setter that writes in place. -/
theorem write_values (junk : Junk) (owned : Owned Fits m (r ::ₘ refs))
    (reads : m.contents r = v.bufferOf) {off : Nat} {bytes : List UInt8} {new : CommandValues}
    (inside : off + bytes.length ≤ v.size)
    (becomes : WrappedBuffer.blit v.bufferOf off bytes = new.bufferOf) :
    ∃ r' m', (Wrapped.of (some r)).write junk off bytes m = .ok (.of (some r'), m') ∧
      Has m m' refs (some r') new.bufferOf := by
  have room : off + bytes.length ≤ (m.contents r).length := by
    rw [reads]
    exact Nat.le_trans inside v.size_le_length
  obtain ⟨r', m', written, has⟩ := Wrapped.write_spec junk owned room
  rw [reads, becomes] at has
  exact ⟨r', m', written, has⟩

/-- Both ways through `targets(targets, cnt)`. -/
theorem setTargets_spec (junk : Junk) (owned : Owned Fits m (r ::ₘ refs))
    (reads : m.contents r = v.bufferOf) (small : v.targets.length < 2 ^ 29)
    (targets : List UInt32) :
    ∃ r' m', setTargets junk targets (.of (some r)) m = .ok (.of (some r'), m') ∧
      Has m m' refs (some r') { v with targets := targets }.bufferOf := by
  have nothing : WrappedBuffer.blit v.bufferOf 0 [] = v.bufferOf := by simp [WrappedBuffer.blit]
  obtain ⟨q, m₁, own, has⟩ := write_values junk owned reads (by simp) nothing
  have read := Wrapped.read_eq has.owned
  rw [has.value] at read
  have alone := has.owned
  rw [held_some_add] at alone
  by_cases same : targets.length = v.targets.length
  · -- In place.
    have inside : 15 + { v with targets := targets }.wireTargets.length ≤ v.size := by
      rw [CommandValues.length_wireTargets, CommandValues.size, messageSize, same]
    obtain ⟨r', m₂, written, last⟩ :=
      write_values junk alone has.value inside (v.blit_targets same)
    refine ⟨r', m₂, ?_, last.owned, has.keeps.trans last.keeps, last.value⟩
    simp only [setTargets, own, read, bind, Except.bind, CommandValues.ofBuffer_bufferOf v small,
      CommandValues.target_cnt_bufferOf v small, if_pos same]
    exact written
  · -- A new message, of which this one gets a copy.
    obtain ⟨t, m₂, made, new⟩ := newCommand_spec junk alone { v with targets := targets }
    obtain ⟨m₃, copied, twice, blocks⟩ := Wrapped.copy_spec new.owned
    have apart : Owned Fits m₃ (held (some q) + (held (some t) + (held (some t) + refs))) := by
      rw [add_left_comm, add_left_comm (held (some q)), held_some_add q]
      exact twice
    obtain ⟨m₄, left, once, keeps⟩ := Wrapped.destroy_spec apart
    obtain ⟨m₅, gone, only, keeps'⟩ := Wrapped.destroy_spec once
    have less : refs ≤ q ::ₘ refs := Multiset.le_cons_self ..
    have inner : held (some t) + refs ≤ held (some t) + (held (some t) + refs) :=
      Multiset.le_add_left ..
    have keep : Keeps m₂ m₅ (held (some t) + refs) := by
      have same : Keeps m₂ m₃ (held (some t) + refs) := fun _ _ => by rw [blocks]
      exact same.trans ((keeps.mono inner).trans keeps')
    refine ⟨t, m₅, ?_, only, ?_, ?_⟩
    · simp only [setTargets, own, read, bind, Except.bind, pure, Except.pure,
        CommandValues.ofBuffer_bufferOf v small, CommandValues.target_cnt_bufferOf v small,
        if_neg same, made, copied, Wrapped.assign, left, gone]
    · have last : Keeps m₂ m₅ refs := keep.mono (Multiset.le_add_left ..)
      exact has.keeps.trans ((new.keeps.mono less).trans last)
    · exact (value_keeps keep (Multiset.le_add_right ..)).trans new.value

end Operations

/-! ### Runs -/

namespace CommandMsg

/-- Something that was taken: the block it holds, how much of it is meant, and the bytes it had. -/
structure Kept where
  ref : Ref Tag
  size : Option Nat
  bytes : List UInt8

def Kept.taken (k : Kept) : Taken := ⟨.of (some k.ref), k.size⟩

/-- The message has the buffer of a new one with these values, and what was taken has the bytes
it had. -/
def Shows (s : CommandMsg) (v : CommandValues) (bytes : List (List UInt8)) : Prop :=
  ∃ (r : Ref Tag) (shelf : List Kept), s.buffer = .of (some r) ∧ s.taken = shelf.map Kept.taken ∧
    Owned Fits s.memory (r ::ₘ (shelf.map Kept.ref : List (Ref Tag))) ∧
    s.memory.contents r = v.bufferOf ∧
    (∀ k ∈ shelf, meant k.size (s.memory.contents k.ref) = k.bytes) ∧ shelf.map Kept.bytes = bytes

variable {s : CommandMsg} {v : CommandValues} {bytes : List (List UInt8)}

/-- A setter changes the message, and nothing that was taken. -/
theorem Shows.setter {junk : Junk} {act : CommandAct} (showing : s.Shows v bytes)
    (set_ : ∀ r refs, s.buffer = .of (some r) → Owned Fits s.memory (r ::ₘ refs) →
      s.memory.contents r = v.bufferOf → ∃ r' m',
        s.step junk act = .ok { s with buffer := .of (some r'), memory := m' } ∧
          Has s.memory m' refs (some r') (v.set act).bufferOf) :
    ∃ s', s.step junk act = .ok s' ∧ s'.Shows (v.set act) bytes := by
  obtain ⟨r, shelf, buffer, taken, owned, contents, kept, same⟩ := showing
  obtain ⟨r', m', result, has⟩ := set_ r _ buffer owned contents
  refine ⟨_, result, r', shelf, rfl, taken, ?_, has.value, ?_, same⟩
  · have after := has.owned
    rw [held_some_add] at after
    exact after
  · intro k member
    have there : k.ref ∈ ((shelf.map Kept.ref : List (Ref Tag)) : Multiset (Ref Tag)) :=
      Multiset.mem_coe.2 (List.mem_map_of_mem member)
    show meant k.size (m'.contents k.ref) = k.bytes
    rw [contents_keeps has.keeps there]
    exact kept k member

/-- What is taken shares the block of the message. -/
theorem Shows.take (showing : s.Shows v bytes) (size : Option Nat) :
    ∃ m, s.buffer.copy s.memory = .ok (s.buffer, m) ∧
      Shows { s with taken := s.taken ++ [⟨s.buffer, size⟩], memory := m } v
        (bytes ++ [meant size v.bufferOf]) := by
  obtain ⟨r, shelf, buffer, taken, owned, contents, kept, same⟩ := showing
  rw [← held_some_add] at owned
  obtain ⟨m, copied, more, blocks⟩ := Wrapped.copy_spec owned
  have value : ∀ q, m.contents q = s.memory.contents q := fun q => value_of_blocks blocks (some q)
  refine ⟨m, by rw [buffer]; exact copied, r,
    shelf ++ [⟨r, size, meant size v.bufferOf⟩], buffer, ?_, ?_, (value r).trans contents, ?_, ?_⟩
  · show s.taken ++ [⟨s.buffer, size⟩] = _
    rw [taken, buffer, List.map_append]
    rfl
  · rw [held_some_add, held_some_add] at more
    show Owned Fits m (r ::ₘ _)
    rw [List.map_append, ← Multiset.coe_add, add_comm]
    exact more
  · intro k member
    show meant k.size (m.contents k.ref) = k.bytes
    rw [value]
    rcases List.mem_append.1 member with old | new
    · exact kept k old
    · rw [List.mem_singleton.1 new]
      show meant size (s.memory.contents r) = _
      rw [contents]
  · rw [List.map_append, same]
    rfl

theorem Shows.read (showing : s.Shows v bytes) : s.buffer.read s.memory = .ok v.bufferOf := by
  obtain ⟨r, shelf, buffer, -, owned, contents, -⟩ := showing
  rw [← held_some_add] at owned
  rw [buffer, Wrapped.read_eq owned, ← contents]
  rfl

/-- One act. -/
theorem Shows.step (junk : Junk) (showing : s.Shows v bytes) (small : v.targets.length < 2 ^ 29)
    (act : CommandAct) :
    ∃ s', s.step junk act = .ok s' ∧ s'.Shows (v.set act) (bytes ++ v.takenFresh [act]) := by
  cases act with
  | command c =>
      rw [show bytes ++ v.takenFresh [.command c] = bytes from List.append_nil bytes]
      refine showing.setter ?_
      intro r refs buffer owned contents
      obtain ⟨r', m', written, has⟩ := write_values junk owned contents
        (show 6 + 1 ≤ v.size by rw [CommandValues.size, messageSize]; omega) (v.blit_command c)
      refine ⟨r', m', ?_, has⟩
      simp only [CommandMsg.step, buffer, written, bind, Except.bind, pure, Except.pure]
  | messageId id =>
      rw [show bytes ++ v.takenFresh [.messageId id] = bytes from List.append_nil bytes]
      refine showing.setter ?_
      intro r refs buffer owned contents
      obtain ⟨r', m', written, has⟩ := write_values junk owned contents
        (show 7 + (be 4 id.toNat).length ≤ v.size by
          rw [CommandValues.size, messageSize, length_be]; omega) (v.blit_messageId id)
      refine ⟨r', m', ?_, has⟩
      simp only [CommandMsg.step, buffer, written, bind, Except.bind, pure, Except.pure]
  | targets targets =>
      rw [show bytes ++ v.takenFresh [.targets targets] = bytes from List.append_nil bytes]
      refine showing.setter ?_
      intro r refs buffer owned contents
      obtain ⟨r', m', result, has⟩ := setTargets_spec junk owned contents small targets
      refine ⟨r', m', ?_, has⟩
      simp only [CommandMsg.step, buffer, result, bind, Except.bind, pure, Except.pure]
  | copy =>
      obtain ⟨m, copied, after⟩ := showing.take none
      refine ⟨_, ?_, after⟩
      simp only [CommandMsg.step, copied, bind, Except.bind, pure, Except.pure]
  | serialize =>
      obtain ⟨m, copied, after⟩ := showing.take (some (messageLength v.bufferOf + messageSize))
      refine ⟨_, ?_, after⟩
      simp only [CommandMsg.step, showing.read, copied, bind, Except.bind, pure, Except.pure]

theorem few_set {v : CommandValues} {act : CommandAct} {rest : List CommandAct}
    (small : v.targets.length < 2 ^ 29)
    (few : ∀ targets, .targets targets ∈ act :: rest → targets.length < 2 ^ 29) :
    (v.set act).targets.length < 2 ^ 29 := by
  cases act with
  | targets targets => exact few targets List.mem_cons_self
  | command c => exact small
  | messageId id => exact small
  | copy => exact small
  | serialize => exact small

/-- A sequence of acts. -/
theorem Shows.acts (junk : Junk) (acts : List CommandAct) :
    ∀ (s : CommandMsg) (v : CommandValues) (bytes : List (List UInt8)), s.Shows v bytes →
      v.targets.length < 2 ^ 29 →
      (∀ targets, .targets targets ∈ acts → targets.length < 2 ^ 29) →
      ∃ s', acts.foldlM (CommandMsg.step junk) s = .ok s' ∧
        s'.Shows (v.last acts) (bytes ++ v.takenFresh acts) := by
  induction acts with
  | nil =>
      intro s v bytes showing _ _
      refine ⟨s, rfl, ?_⟩
      rw [CommandValues.takenFresh, List.append_nil]
      exact showing
  | cons act rest ih =>
      intro s v bytes showing small few
      obtain ⟨s₁, result, next⟩ := showing.step junk small act
      obtain ⟨s', results, last⟩ := ih s₁ (v.set act) _ next (few_set small few)
        fun targets member => few targets (List.mem_cons_of_mem act member)
      have first : v.takenFresh (act :: rest) = v.takenFresh [act] ++ (v.set act).takenFresh rest := by
        cases act <;> rfl
      refine ⟨s', ?_, ?_⟩
      · rw [List.foldlM_cons, result]
        exact results
      · rw [first, ← List.append_assoc]
        exact last

/-- The number of targets that were set last fits, too. -/
theorem few_last {v : CommandValues} {acts : List CommandAct} (small : v.targets.length < 2 ^ 29)
    (few : ∀ targets, .targets targets ∈ acts → targets.length < 2 ^ 29) :
    (v.last acts).targets.length < 2 ^ 29 := by
  induction acts generalizing v with
  | nil => exact small
  | cons act rest ih =>
      exact ih (few_set small few) fun targets member => few targets (List.mem_cons_of_mem act member)

theorem new_shows (junk : Junk) (v : CommandValues) :
    ∃ s, CommandMsg.new junk v = .ok s ∧ s.Shows v [] := by
  obtain ⟨r, m, made, has⟩ := newCommand_spec junk owned_empty v
  refine ⟨⟨.of (some r), [], m⟩, ?_, r, [], rfl, rfl, ?_, has.value, by simp, rfl⟩
  · simp only [CommandMsg.new, made, bind, Except.bind, pure, Except.pure]
  · have owned := has.owned
    rw [held_some_add] at owned
    exact owned

theorem run_shows (junk : Junk) {v : CommandValues} {acts : List CommandAct}
    (small : v.targets.length < 2 ^ 29)
    (few : ∀ targets, .targets targets ∈ acts → targets.length < 2 ^ 29) :
    ∃ s, run junk v acts = .ok s ∧ s.Shows (v.last acts) (v.takenFresh acts) := by
  obtain ⟨s₀, made, start⟩ := new_shows junk v
  obtain ⟨s, result, showing⟩ := Shows.acts junk acts s₀ v [] start small few
  refine ⟨s, ?_, showing⟩
  simp only [run, made, bind, Except.bind]
  exact result

theorem Shows.serialized (showing : s.Shows v bytes) : s.serialized = .ok v.serialOf := by
  simp only [CommandMsg.serialized, showing.read, bind, Except.bind, pure, Except.pure]
  rfl

theorem Shows.values (showing : s.Shows v bytes) (small : v.targets.length < 2 ^ 29) :
    s.values = .ok v := by
  simp only [CommandMsg.values, showing.read, bind, Except.bind, pure, Except.pure,
    CommandValues.ofBuffer_bufferOf v small]

theorem Shows.taken_bytes (showing : s.Shows v bytes) :
    s.taken.map (fun t => t.bytes s.memory) = bytes.map .ok := by
  obtain ⟨r, shelf, -, taken, owned, -, kept, rfl⟩ := showing
  rw [taken, List.map_map, List.map_map]
  apply List.map_congr_left
  intro k member
  have there : k.ref ∈ r ::ₘ ((shelf.map Kept.ref : List (Ref Tag)) : Multiset (Ref Tag)) :=
    Multiset.mem_cons_of_mem (Multiset.mem_coe.2 (List.mem_map_of_mem member))
  obtain ⟨others, split⟩ := Multiset.exists_cons_of_mem there
  rw [split, ← held_some_add] at owned
  show Taken.bytes ⟨.of (some k.ref), k.size⟩ s.memory = .ok k.bytes
  rw [← kept k member]
  simp only [Taken.bytes, Wrapped.read_eq owned, bind, Except.bind, pure, Except.pure]
  rfl

end CommandMsg

/-- After any setters a message cannot be told from a new one with the last values, and what was
taken from it on the way is what new messages would have given then. -/
theorem setters_commute (junk : Junk) (v : CommandValues) (acts : List CommandAct)
    (small : v.targets.length < 2 ^ 29)
    (few : ∀ targets, .targets targets ∈ acts → targets.length < 2 ^ 29) :
    ∃ s fresh, CommandMsg.run junk v acts = .ok s ∧
      CommandMsg.new junk (v.last acts) = .ok fresh ∧
      s.serialized = fresh.serialized ∧ s.serialized = .ok (v.last acts).serialOf ∧
      s.values = .ok (v.last acts) ∧
      s.taken.map (fun t => t.bytes s.memory) = (v.takenFresh acts).map .ok := by
  obtain ⟨s, result, showing⟩ := CommandMsg.run_shows junk small few
  obtain ⟨fresh, made, start⟩ := CommandMsg.new_shows junk (v.last acts)
  refine ⟨s, fresh, result, made, ?_, showing.serialized,
    showing.values (CommandMsg.few_last small few), showing.taken_bytes⟩
  rw [showing.serialized, start.serialized]

/-- A broadcast is copied, and then sent to two handles and to one. -/
def someActs : List CommandAct :=
  [.copy, .targets [5, 6], .serialize, .messageId 9, .targets [7, 8], .copy, .targets [1]]

theorem setters_commute_someActs :
    ∃ s fresh, CommandMsg.run (fun _ _ => 0xaa) ⟨3, 4, [BROADCAST_TARGET]⟩ someActs = .ok s ∧
      CommandMsg.new (fun _ _ => 0xaa) ⟨3, 9, [1]⟩ = .ok fresh ∧
      s.serialized = fresh.serialized ∧
      s.serialized = .ok (CommandValues.serialOf ⟨3, 9, [1]⟩) ∧
      s.values = .ok ⟨3, 9, [1]⟩ ∧
      s.taken.map (fun t => t.bytes s.memory) =
        (CommandValues.takenFresh ⟨3, 4, [BROADCAST_TARGET]⟩ someActs).map .ok := by
  refine setters_commute (fun _ _ => 0xaa) ⟨3, 4, [BROADCAST_TARGET]⟩ someActs (by decide) ?_
  intro targets member
  simp only [someActs, List.mem_cons, CommandAct.targets.injEq, reduceCtorEq, List.not_mem_nil,
    or_false, false_or] at member
  rcases member with rfl | rfl | rfl <;> decide

end Coinscope.Clients

/-
# Shared.WriteQueue -- the write queue over the heap

`WriteBuffer` has values for buffers.  A real `write_buffer` shares the buffers it is given with
whoever gave them, and lets them go when they are written.  Here the queue is on one heap with the
variables of a program, which may do whatever it likes with them while the queue has its share.

`do_write` returns what `write` returned in an `int`, and goes by that `int`: an answer of two
gigabytes or more is not noticed.  `do_write` of an empty queue, and an append of more than is
allocated, are asserted not to happen.  A queue has less than 2^64 bytes.

* `WriteQueue` -- the class.
* `Sender` -- a program and its queue, with what was appended and what was accepted.
* `SenderValues` -- the same with values, for which `WriteBuffer` is the queue.
* `Tracks` -- the one follows the other: every buffer in the queue has, on the heap, the bytes it
  was appended with.
* `queue_faithful` -- so the queue is a queue, whatever the program does.
-/
import Coinscope.Shared.ValueSemantics
import Coinscope.Shared.WriteBuffer

namespace Coinscope.Shared

open Coinscope.Theory.Bytes
open Coinscope.Theory.Runs
open Coinscope.Theory.SharedBlocks

set_option autoImplicit false

/-! ## The class -/

/-- `write_buffer::buffer_container`. -/
structure QueuedBuffer where
  cursor : Nat
  writable : Nat
  buffer : Wrapped
  deriving DecidableEq

/-- `class write_buffer`. -/
structure WriteQueue where
  toWrite : Nat
  buffers : List QueuedBuffer
  deriving DecidableEq

/-- What `do_write` returns, the bytes that were accepted, and the queue behind it. -/
structure Written where
  first : Int
  second : Bool
  put : List UInt8
  queue : WriteQueue

/-- `n` bytes from `const_ptr() + off` on. -/
def Wrapped.bytesAt (w : Wrapped) (off n : Nat) (m : Memory) : Except Fault (List UInt8) :=
  match w.buffer with
  | none => throw (.threw "Invalid buffer")
  | some h => m.load h.buffer off n

namespace WriteResult

/-- What `write` returns for so many bytes, in an `int`. -/
def toInt (answer : WriteResult) (offered : Nat) : Int :=
  match answer with
  | .accept n => Int.bmod (min n offered) (2 ^ 32)
  | .err _ => -1

/-- The bytes it accepts. -/
def put (answer : WriteResult) (offered : List UInt8) : List UInt8 :=
  match answer with
  | .accept n => offered.take n
  | .err _ => []

end WriteResult

namespace WriteQueue

def new : WriteQueue := ⟨0, []⟩

/-- `append(ptr, len)`: `buffer_container` copies what is there. -/
def append (junk : Junk) (bytes : List UInt8) (q : WriteQueue) (m : Memory) :
    Except Fault (WriteQueue × Memory) := do
  let (buffer, m) ← Wrapped.new junk 1 bytes.length m
  let (buffer, m) ← buffer.write junk 0 bytes m
  return (⟨q.toWrite + bytes.length, q.buffers ++ [⟨0, bytes.length, buffer⟩]⟩, m)

/-- `append(buf, len)`: `buffer_container` has a copy of `buf` for an argument, and copies that. -/
def appendShared (buf : Wrapped) (len : Nat) (q : WriteQueue) (m : Memory) :
    Except Fault (WriteQueue × Memory) :=
  if buf.allocated < len then throw .asserted
  else do
    let (b, m) ← buf.copy m
    let (buffer, m) ← b.copy m
    if buffer.allocated < len then throw .asserted
    let m ← b.destroy m
    return (⟨q.toWrite + len, q.buffers ++ [⟨0, len, buffer⟩]⟩, m)

/-- Behind `write`: the first buffer has been written up to its cursor. -/
def finish (toWrite : Nat) (curbuf : QueuedBuffer) (rest : List QueuedBuffer) (m : Memory) :
    Except Fault (WriteQueue × Memory) :=
  if curbuf.cursor = curbuf.writable then do
    let m ← curbuf.buffer.destroy m
    if toWrite = 0 ∨ rest ≠ [] then return (⟨toWrite, rest⟩, m) else throw .asserted
  else return (⟨toWrite, curbuf :: rest⟩, m)

/-- `do_write(fd, size)`, of which `size` is only tested. -/
def doWrite (size : Nat) (answer : WriteResult) (q : WriteQueue) (m : Memory) :
    Except Fault (Written × Memory) :=
  if size = 0 then throw .asserted
  else
    match q.buffers with
    | [] => throw .asserted
    | curbuf :: rest => do
        let minWrite := min q.toWrite (curbuf.writable - curbuf.cursor)
        let offered ← curbuf.buffer.bytesAt curbuf.cursor minWrite m
        let first := answer.toInt offered.length
        -- nothing is added of a result that is not positive
        let curbuf := { curbuf with cursor := curbuf.cursor + first.toNat }
        let (q, m) ← finish (q.toWrite - first.toNat) curbuf rest m
        return (⟨first, decide (q.toWrite = 0), answer.put offered, q⟩, m)

/-- `to_write()`. -/
def getToWrite (q : WriteQueue) : Except Fault Nat :=
  if q.toWrite = 0 ∨ q.buffers ≠ [] then return q.toWrite else throw .asserted

end WriteQueue

/-! ## A program and its queue -/

/-- A program with its variables, the queue, everything that was appended to it, as it was when it
was appended, and everything `write` has accepted. -/
structure Sender (V : Type) where
  program : Program V
  queue : WriteQueue
  appended : List UInt8
  accepted : List UInt8

/-- The program does something with its variables, or calls the queue.  Without a size it is
`do_write(fd)`. -/
inductive SenderAct (V : Type) where
  | op (op : Op V)
  | append (bytes : List UInt8)
  | appendShared (x : V) (len : Nat)
  | doWrite (size : Option Nat) (answer : WriteResult)
  deriving DecidableEq

namespace Sender

variable {V : Type} [DecidableEq V]

def start : Sender V := ⟨.start, .new, [], []⟩

def step (junk : Junk) (s : Sender V) : SenderAct V → Except Fault (Sender V)
  | .op op => do
      let program ← s.program.step junk op
      return { s with program := program }
  | .append bytes => do
      let (q, m) ← s.queue.append junk bytes s.program.memory
      return { s with
        program := { s.program with memory := m }
        queue := q
        appended := s.appended ++ bytes }
  | .appendShared x len => do
      let w ← s.program.get x
      let (q, m) ← s.queue.appendShared w len s.program.memory
      let bytes ← w.read s.program.memory
      return { s with
        program := { s.program with memory := m }
        queue := q
        appended := s.appended ++ bytes.take len }
  | .doWrite size answer => do
      let (r, m) ← s.queue.doWrite (size.getD s.queue.toWrite) answer s.program.memory
      return { s with
        program := { s.program with memory := m }
        queue := r.queue
        accepted := s.accepted ++ r.put }

def run (junk : Junk) (acts : List (SenderAct V)) : Except Fault (Sender V) :=
  acts.foldlM (step junk) start

/-- The bytes accepted are the first of those appended, `to_write()` passes its assertion and
returns how many are not yet accepted, and is zero exactly if there is no buffer. -/
structure Faithful (s : Sender V) : Prop where
  fifo : s.accepted <+: s.appended
  count : s.queue.getToWrite = .ok (s.appended.length - s.accepted.length)
  empty : s.queue.toWrite = 0 ↔ s.queue.buffers = []

end Sender

/-! ## With values -/

/-- The values of the variables, and the queue of values. -/
structure SenderValues (V : Type) where
  values : Values V
  queue : WriteBuffer

namespace SenderValues

variable {V : Type} [DecidableEq V]

def start : SenderValues V := ⟨fun _ => none, .new⟩

def step (v : SenderValues V) : SenderAct V → SenderValues V
  | .op op => { v with values := v.values.step op }
  | .append bytes => { v with queue := v.queue.append bytes }
  | .appendShared x len => { v with queue := v.queue.appendShared ((v.values x).getD []) len }
  | .doWrite _ answer => { v with queue := (v.queue.doWrite 0 [answer]).queue }

/-- Something is appended, and no more than is there; a `do_write` has something to write, is
given a size other than zero if it is given one, and `write` returns what an `int` can hold. -/
def Admissible (v : SenderValues V) : SenderAct V → Prop
  | .op op => v.values.Admissible op
  | .append bytes => bytes ≠ []
  | .appendShared x len => 0 < len ∧ ∃ old, v.values x = some old ∧ len ≤ old.length
  | .doWrite size answer =>
      v.queue.toWrite ≠ 0 ∧ size ≠ some 0 ∧ ∀ n, answer = .accept n → n < 2 ^ 31

end SenderValues

/-! ## Buffers in the queue -/

/-- A buffer in the queue, by what it holds on the heap. -/
structure Slot where
  cursor : Nat
  writable : Nat
  ref : Option (Ref Tag)

namespace Slot

def queued (s : Slot) : QueuedBuffer := ⟨s.cursor, s.writable, .of s.ref⟩

def view (m : Memory) (s : Slot) : BufferContainer := ⟨s.cursor, s.writable, m.value s.ref⟩

/-- What all of them hold. -/
def heldIn (slots : List Slot) : Multiset (Ref Tag) := (slots.map fun s => held s.ref).sum

@[simp] theorem heldIn_cons (s : Slot) (slots : List Slot) :
    heldIn (s :: slots) = held s.ref + heldIn slots := List.sum_cons

theorem heldIn_concat (slots : List Slot) (s : Slot) :
    heldIn (slots ++ [s]) = held s.ref + heldIn slots := by
  rw [heldIn, List.map_append, List.sum_append, List.map_singleton, List.sum_singleton, add_comm]
  rfl

theorem held_le {s : Slot} {slots : List Slot} (member : s ∈ slots) :
    held s.ref ≤ heldIn slots :=
  List.single_le_sum (fun _ _ => Multiset.zero_le _) _ (List.mem_map_of_mem member)

/-- What they hold has not changed, so they look the same. -/
theorem view_keeps {m m' : Memory} {slots : List Slot} (keeps : Keeps m m' (heldIn slots)) :
    slots.map (view m') = slots.map (view m) := by
  apply List.map_congr_left
  intro s member
  rw [view, view, value_keeps keeps (held_le member)]

/-- The slots behind a `do_write` that moved the cursor of the first by so much. -/
def advance (slot : Slot) (rest : List Slot) (n : Nat) : List Slot :=
  if slot.cursor + n = slot.writable then rest else { slot with cursor := slot.cursor + n } :: rest

/-- The queue of values behind it. -/
def accept (m : Memory) (slot : Slot) (rest : List Slot) (n : Nat) (w : WriteBuffer) :
    WriteBuffer :=
  w.accept (slot.view m) (rest.map (view m)) n

end Slot

/-! ## The calls -/

section Calls

variable {m : Memory} {refs : Multiset (Ref Tag)} {o : Option (Ref Tag)} {q : WriteQueue}

theorem bytesAt_of (owned : Owned Fits m (held o + refs)) {off n : Nat} (some_ : 0 < n)
    (inside : off + n ≤ (m.value o).length) :
    (Wrapped.of o).bytesAt off n m = .ok (slice off n (m.value o)) := by
  cases o with
  | none =>
      have nothing : (m.value none).length = 0 := rfl
      omega
  | some r =>
      rw [held_some_add] at owned
      have here : r ∈ r ::ₘ refs := Multiset.mem_cons_self ..
      have size := contents_length owned here
      have inside' : off + n ≤ (m.contents r).length := inside
      simp only [Wrapped.bytesAt, Wrapped.buffer_of, Option.map_some, Handle.of_buffer]
      exact load_slice owned here (by omega)

/-- A new buffer with these bytes in front. -/
theorem append_spec (junk : Junk) (owned : Owned Fits m refs) {bytes : List UInt8}
    (some_ : bytes ≠ []) :
    ∃ o m', q.append junk bytes m =
        .ok (⟨q.toWrite + bytes.length, q.buffers ++ [⟨0, bytes.length, .of o⟩]⟩, m') ∧
      Has m m' refs o (WrappedBuffer.blit (WrappedBuffer.ofSize bytes.length) 0 bytes) := by
  obtain ⟨o, m₁, made, has⟩ := Wrapped.new_spec junk owned bytes.length
  have room := le_allocatedFor bytes.length
  have positive := List.length_pos_iff.2 some_
  have length := congrArg List.length has.value
  rw [WrappedBuffer.length_ofSize] at length
  cases o with
  | none =>
      have nothing : (m₁.value none).length = 0 := rfl
      omega
  | some r =>
      have owned₁ := has.owned
      rw [held_some_add] at owned₁
      have value : m₁.contents r = WrappedBuffer.ofSize bytes.length := has.value
      obtain ⟨r', m₂, written, has'⟩ := Wrapped.write_spec junk owned₁
        (show 0 + bytes.length ≤ (m₁.contents r).length by
          rw [value, WrappedBuffer.length_ofSize]
          omega)
      rw [value] at has'
      refine ⟨some r', m₂, ?_, has'.owned, has.keeps.trans has'.keeps, has'.value⟩
      simp only [WriteQueue.append, made, written, bind, Except.bind, pure, Except.pure]

/-- One more holder of the buffer, after one that comes and goes. -/
theorem appendShared_spec (owned : Owned Fits m (held o + refs)) {len : Nat}
    (inside : len ≤ (m.value o).length) :
    ∃ m', q.appendShared (.of o) len m =
        .ok (⟨q.toWrite + len, q.buffers ++ [⟨0, len, .of o⟩]⟩, m') ∧
      Owned Fits m' (held o + (held o + refs)) ∧ Keeps m m' (held o + refs) := by
  obtain ⟨m₁, copied, two, blocks₁⟩ := Wrapped.copy_spec owned
  obtain ⟨m₂, copied', three, blocks₂⟩ := Wrapped.copy_spec two
  obtain ⟨m₃, gone, again, keeps⟩ := Wrapped.destroy_spec three
  have enough : ¬ (Wrapped.of o).allocated < len := by
    rw [Wrapped.allocated_of owned]
    omega
  refine ⟨m₃, ?_, again, ?_⟩
  · simp only [WriteQueue.appendShared, if_neg enough, copied, copied', gone, bind, Except.bind,
      pure, Except.pure]
  · have same : Keeps m m₂ (held o + refs) := fun r _ => by rw [blocks₂, blocks₁]
    exact same.trans (keeps.mono (Multiset.le_add_left ..))

/-- `do_write` with a buffer that has bytes to offer, up to the end of the call. -/
theorem doWrite_eq (owned : Owned Fits m (held o + refs)) {cursor writable : Nat}
    {rest : List QueuedBuffer} (first : q.buffers = ⟨cursor, writable, .of o⟩ :: rest)
    (live : cursor < writable ∧ writable ≤ (m.value o).length)
    (enough : writable - cursor ≤ q.toWrite) {size : Nat} (some_ : size ≠ 0)
    (answer : WriteResult) :
    q.doWrite size answer m = (do
      let moved := (answer.toInt (writable - cursor)).toNat
      let (q', m') ← WriteQueue.finish (q.toWrite - moved) ⟨cursor + moved, writable, .of o⟩ rest m
      return (⟨answer.toInt (writable - cursor), decide (q'.toWrite = 0),
        answer.put (slice cursor (writable - cursor) (m.value o)), q'⟩, m')) := by
  have loaded := bytesAt_of owned (show 0 < writable - cursor by omega)
    (show cursor + (writable - cursor) ≤ (m.value o).length by omega)
  have length : (slice cursor (writable - cursor) (m.value o)).length = writable - cursor :=
    slice_length (by omega)
  simp only [WriteQueue.doWrite, if_neg some_, first, Nat.min_eq_right enough, loaded, bind,
    Except.bind, length]

end Calls

/-- An `int` holds the number of bytes that were accepted. -/
theorem WriteResult.toNat_toInt {answer : WriteResult} (small : ∀ n, answer = .accept n → n < 2 ^ 31)
    (offered : List UInt8) :
    (answer.toInt offered.length).toNat = (answer.put offered).length := by
  cases answer with
  | err e => rfl
  | accept n =>
      have less := small n rfl
      have least : min n offered.length ≤ n := Nat.min_le_left ..
      rw [toInt, put, List.length_take, Int.bmod_eq_emod_of_lt (by omega)]
      omega

/-! ## Acts -/

section Acts

variable {V : Type} [DecidableEq V] [Fintype V]

/-- A sender on the heap does what the sender with values does, and what was appended is what was
accepted and what is pending. -/
structure Tracks (s : Sender V) (v : SenderValues V) (refs : V → Option (Option (Ref Tag)))
    (slots : List Slot) : Prop where
  refines : Refines s.program v.values refs (Slot.heldIn slots)
  buffers : s.queue.buffers = slots.map Slot.queued
  toWrite : s.queue.toWrite = v.queue.toWrite
  views : v.queue.buffers = slots.map (Slot.view s.program.memory)
  valid : v.queue.Valid
  fifo : s.appended = s.accepted ++ v.queue.pending

omit [DecidableEq V] in
theorem start_tracks : Tracks (Sender.start : Sender V) SenderValues.start (fun _ => none) [] where
  refines := start_refines
  buffers := rfl
  toWrite := rfl
  views := rfl
  valid := WriteBuffer.new_valid
  fifo := rfl

/-- The act is defined, and does what it does with values. -/
def Followed (junk : Junk) (s : Sender V) (v : SenderValues V) (act : SenderAct V) : Prop :=
  ∃ s' refs' slots', s.step junk act = .ok s' ∧ Tracks s' (v.step act) refs' slots'

namespace Tracks

variable {s : Sender V} {v : SenderValues V} {refs : V → Option (Option (Ref Tag))}
variable {slots : List Slot}

/-- Whatever the program does with its variables, the buffers in the queue are as they were. -/
theorem step_op (junk : Junk) (tracks : Tracks s v refs slots) {op : Op V}
    (admissible : v.Admissible (.op op)) : Followed junk s v (.op op) := by
  obtain ⟨program, refs', stepped, refines, keeps⟩ := tracks.refines.step_framed junk admissible
  refine ⟨{ s with program := program }, refs', slots, ?_, refines, tracks.buffers, tracks.toWrite,
    ?_, tracks.valid, tracks.fifo⟩
  · simp only [Sender.step, stepped, bind, Except.bind]
    rfl
  · rw [Slot.view_keeps keeps]
    exact tracks.views

/-- One more buffer, with these bytes in front. -/
theorem push (tracks : Tracks s v refs slots) {m : Memory} {o : Option (Ref Tag)}
    {buffer : List UInt8} {len : Nat}
    (owned : Owned Fits m (held o + (Slot.heldIn slots + total refs)))
    (keeps : Keeps s.program.memory m (Slot.heldIn slots + total refs))
    (value : m.value o = buffer) (some_ : 0 < len) (inside : len ≤ buffer.length) :
    Tracks ⟨{ s.program with memory := m },
        ⟨s.queue.toWrite + len, s.queue.buffers ++ [⟨0, len, .of o⟩]⟩,
        s.appended ++ buffer.take len, s.accepted⟩
      ⟨v.values, v.queue.appendShared buffer len⟩ refs (slots ++ [⟨0, len, o⟩]) where
  refines := by
    rw [← add_assoc, ← Slot.heldIn_concat slots ⟨0, len, o⟩] at owned
    exact tracks.refines.memory owned (keeps.mono (Multiset.le_add_left ..))
  buffers := by
    rw [List.map_append, ← tracks.buffers]
    rfl
  toWrite := congrArg (· + len) tracks.toWrite
  views := by
    have views := Slot.view_keeps (keeps.mono (Multiset.le_add_right ..))
    rw [List.map_append, views, ← tracks.views, List.map_singleton, Slot.view, value]
    rfl
  valid := tracks.valid.appendShared some_ inside
  fifo := by
    rw [WriteBuffer.appendShared_pending, ← List.append_assoc, ← tracks.fifo]

theorem step_append (junk : Junk) (tracks : Tracks s v refs slots) {bytes : List UInt8}
    (admissible : v.Admissible (.append bytes)) : Followed junk s v (.append bytes) := by
  obtain ⟨o, m, appended, has⟩ := append_spec (q := s.queue) junk tracks.refines.owned admissible
  have room := le_allocatedFor bytes.length
  have front : (WrappedBuffer.blit (WrappedBuffer.ofSize bytes.length) 0 bytes).take bytes.length =
      bytes := WrappedBuffer.slice_blit (Nat.zero_le _) rfl
  have next := tracks.push has.owned has.keeps has.value (List.length_pos_iff.2 admissible) (by
    rw [WrappedBuffer.length_blit (by rw [WrappedBuffer.length_ofSize]; omega),
      WrappedBuffer.length_ofSize]
    exact room)
  rw [front] at next
  refine ⟨_, refs, _, ?_, next⟩
  simp only [Sender.step, appended, bind, Except.bind]
  rfl

theorem step_appendShared (junk : Junk) (tracks : Tracks s v refs slots) {x : V} {len : Nat}
    (admissible : v.Admissible (.appendShared x len)) : Followed junk s v (.appendShared x len) := by
  obtain ⟨some_, old, there, inside⟩ := admissible
  obtain ⟨o, holds, got, value⟩ := tracks.refines.alive (by rw [there]; rfl)
  rw [there, Option.some.injEq] at value
  subst value
  have apart := tracks.refines.owned_apart holds
  obtain ⟨m, appended, owned, keeps⟩ := appendShared_spec (q := s.queue) apart inside
  have all : held o + (Slot.heldIn slots + others refs x) = Slot.heldIn slots + total refs := by
    rw [total_eq refs x, holds, add_left_comm]
    rfl
  rw [all] at owned keeps
  have kept : held o ≤ Slot.heldIn slots + total refs := by
    rw [← all]
    exact Multiset.le_add_right ..
  have next := tracks.push owned keeps (value_keeps keeps kept) some_ inside
  have stepped : v.step (.appendShared x len) =
      ⟨v.values, v.queue.appendShared (s.program.memory.value o) len⟩ := by
    rw [SenderValues.step, there]
    rfl
  rw [← stepped] at next
  refine ⟨_, refs, _, ?_, next⟩
  simp only [Sender.step, got, appended, Wrapped.read_eq apart, bind, Except.bind]
  rfl

omit [DecidableEq V] in
/-- What is known of the first buffer of a queue. -/
theorem first_live {slot : Slot} {rest : List Slot} (tracks : Tracks s v refs (slot :: rest)) :
    (slot.cursor < slot.writable ∧ slot.writable ≤ (s.program.memory.value slot.ref).length) ∧
      slot.writable - slot.cursor ≤ s.queue.toWrite := by
  have first : v.queue.buffers =
      slot.view s.program.memory :: rest.map (Slot.view s.program.memory) := tracks.views
  have live := tracks.valid.live _ (first ▸ List.mem_cons_self)
  have left : (slot.view s.program.memory).left.length = slot.writable - slot.cursor :=
    WriteBuffer.left_length live.2 live.1.le
  have count := tracks.valid.count
  rw [WriteBuffer.pending, first, List.flatMap_cons, List.length_append, left] at count
  refine ⟨live, ?_⟩
  rw [tracks.toWrite]
  omega

/-- The end of a `do_write` by which `n` bytes were accepted, of the queue of values too. -/
theorem finish {slot : Slot} {rest : List Slot} (tracks : Tracks s v refs (slot :: rest))
    {n : Nat} {put : List UInt8} (valid : (Slot.accept s.program.memory slot rest n v.queue).Valid)
    (conserved : put ++ (Slot.accept s.program.memory slot rest n v.queue).pending = v.queue.pending) :
    ∃ q m, WriteQueue.finish (s.queue.toWrite - n)
        ⟨slot.cursor + n, slot.writable, .of slot.ref⟩ (rest.map Slot.queued) s.program.memory =
        .ok (q, m) ∧
      Tracks ⟨{ s.program with memory := m }, q, s.appended, s.accepted ++ put⟩
        ⟨v.values, Slot.accept s.program.memory slot rest n v.queue⟩ refs (Slot.advance slot rest n) := by
  have owned := tracks.refines.owned
  rw [Slot.heldIn_cons, add_assoc] at owned
  have fifo : s.appended =
      s.accepted ++ put ++ (Slot.accept s.program.memory slot rest n v.queue).pending := by
    rw [tracks.fifo, List.append_assoc, conserved]
  have toWrite : s.queue.toWrite - n = v.queue.toWrite - n := by rw [tracks.toWrite]
  by_cases done : slot.cursor + n = slot.writable
  · have buffers : (Slot.accept s.program.memory slot rest n v.queue).buffers =
        rest.map (Slot.view s.program.memory) := if_pos done
    have more : s.queue.toWrite - n = 0 ∨ rest.map Slot.queued ≠ [] := by
      cases rest with
      | nil =>
          left
          rw [toWrite]
          exact valid.toWrite_eq_zero.2 (valid.pending_eq_nil.2 buffers)
      | cons next rest => exact Or.inr (List.cons_ne_nil _ _)
    obtain ⟨m, gone, owned', keeps⟩ := Wrapped.destroy_spec owned
    refine ⟨⟨s.queue.toWrite - n, rest.map Slot.queued⟩, m, ?_, ?_⟩
    · simp only [WriteQueue.finish, if_pos done, gone, bind, Except.bind, if_pos more]
      rfl
    · rw [Slot.advance, if_pos done]
      refine ⟨tracks.refines.memory owned' (keeps.mono (Multiset.le_add_left ..)), rfl, toWrite, ?_,
        valid, fifo⟩
      rw [Slot.view_keeps (keeps.mono (Multiset.le_add_right ..))]
      exact buffers
  · refine ⟨⟨s.queue.toWrite - n,
      ⟨slot.cursor + n, slot.writable, .of slot.ref⟩ :: rest.map Slot.queued⟩,
      s.program.memory, ?_, ?_⟩
    · simp only [WriteQueue.finish, if_neg done]
      rfl
    · rw [Slot.advance, if_neg done]
      refine ⟨tracks.refines.memory ?_ Keeps.rfl, rfl, toWrite, if_neg done, valid, fifo⟩
      rw [Slot.heldIn_cons, add_assoc]
      exact owned

omit [DecidableEq V] in
/-- The queue of values accepts the same bytes of the same buffer. -/
theorem doWrite_values {slot : Slot} {rest : List Slot} (tracks : Tracks s v refs (slot :: rest))
    (answer : WriteResult) :
    (v.queue.doWrite 0 [answer]).put = answer.put (slot.view s.program.memory).left ∧
      (v.queue.doWrite 0 [answer]).queue = Slot.accept s.program.memory slot rest
        (answer.put (slot.view s.program.memory).left).length v.queue := by
  have write : (Shared.write 0 (slot.view s.program.memory).left [answer]).2.1 =
      answer.put (slot.view s.program.memory).left := by
    cases answer <;> rfl
  rw [WriteBuffer.doWrite_eq_accept tracks.valid tracks.views 0 [answer], write]
  exact ⟨rfl, rfl⟩

theorem step_doWrite (junk : Junk) (tracks : Tracks s v refs slots) {size : Option Nat}
    {answer : WriteResult} (admissible : v.Admissible (.doWrite size answer)) :
    Followed junk s v (.doWrite size answer) := by
  obtain ⟨some_, asked, small⟩ := admissible
  cases slots with
  | nil =>
      have none_ := tracks.valid.pending_eq_nil.2 tracks.views
      exact absurd (tracks.valid.toWrite_eq_zero.2 none_) some_
  | cons slot rest =>
      obtain ⟨live, enough⟩ := tracks.first_live
      have size_ : size.getD s.queue.toWrite ≠ 0 := by
        cases size with
        | none => exact tracks.toWrite ▸ some_
        | some n => exact fun zero => asked (congrArg some zero)
      obtain ⟨after, conserved, -⟩ := WriteBuffer.doWrite_spec tracks.valid 0 [answer]
      obtain ⟨put, queue⟩ := tracks.doWrite_values answer
      rw [put, queue] at conserved
      rw [queue] at after
      obtain ⟨q, m, finished, next⟩ := tracks.finish after conserved
      have moved : (answer.toInt (slot.writable - slot.cursor)).toNat =
          (answer.put (slot.view s.program.memory).left).length := by
        have counted := WriteResult.toNat_toInt small (slot.view s.program.memory).left
        rw [WriteBuffer.left_length live.2 live.1.le] at counted
        exact counted
      have owned := tracks.refines.owned
      rw [Slot.heldIn_cons, add_assoc] at owned
      have called := doWrite_eq owned tracks.buffers live enough size_ answer
      rw [moved] at called
      rw [← queue] at next
      refine ⟨_, refs, _, ?_, next⟩
      simp only [Sender.step, called, finished, bind, Except.bind]
      rfl

/-- Every act does on the heap what it does with values. -/
theorem step (junk : Junk) (tracks : Tracks s v refs slots) {act : SenderAct V}
    (admissible : v.Admissible act) : Followed junk s v act := by
  cases act with
  | op op => exact tracks.step_op junk admissible
  | append bytes => exact tracks.step_append junk admissible
  | appendShared x len => exact tracks.step_appendShared junk admissible
  | doWrite size answer => exact tracks.step_doWrite junk admissible

/-- A whole run, act by act. -/
theorem runs (junk : Junk) (tracks : Tracks s v refs slots) (acts : List (SenderAct V))
    (admissible : Along SenderValues.step SenderValues.Admissible v acts) :
    ∃ s' refs' slots', acts.foldlM (Sender.step junk) s = .ok s' ∧
      Tracks s' (run SenderValues.step v acts) refs' slots' := by
  have follow : ∀ (s : Sender V) (v : SenderValues V) (act : SenderAct V),
      (∃ refs slots, Tracks s v refs slots) → v.Admissible act →
      ∃ s', s.step junk act = .ok s' ∧ ∃ refs' slots', Tracks s' (v.step act) refs' slots' := by
    rintro s v act ⟨refs, slots, tracks⟩ admissible
    obtain ⟨s', refs', slots', stepped, next⟩ := tracks.step junk admissible
    exact ⟨s', stepped, refs', slots', next⟩
  obtain ⟨s', ran, refs', slots', last⟩ :=
    run_simulates follow ⟨refs, slots, tracks⟩ acts admissible
  exact ⟨s', refs', slots', ran, last⟩

omit [DecidableEq V] in
/-- The queue of a sender is empty where the one of values is. -/
theorem buffers_eq_nil (tracks : Tracks s v refs slots) :
    s.queue.buffers = [] ↔ v.queue.buffers = [] := by
  rw [tracks.buffers, tracks.views, List.map_eq_nil_iff, List.map_eq_nil_iff]

omit [DecidableEq V] in
theorem faithful (tracks : Tracks s v refs slots) : s.Faithful := by
  have empty : s.queue.toWrite = 0 ↔ s.queue.buffers = [] := by
    rw [tracks.toWrite, tracks.valid.toWrite_eq_zero, tracks.valid.pending_eq_nil,
      tracks.buffers_eq_nil]
  refine ⟨⟨v.queue.pending, tracks.fifo.symm⟩, ?_, empty⟩
  have count : s.appended.length - s.accepted.length = s.queue.toWrite := by
    rw [tracks.fifo, List.length_append, Nat.add_sub_cancel_left, tracks.toWrite,
      tracks.valid.count]
  have passes : s.queue.toWrite = 0 ∨ s.queue.buffers ≠ [] := by
    rw [empty]
    exact Decidable.em _
  rw [WriteQueue.getToWrite, if_pos passes, count]
  rfl

/-- A count the `int` has no positive number for: the bytes are gone, and the queue still has
them. -/
theorem step_unnoticed (junk : Junk) {slot : Slot} {rest : List Slot}
    (tracks : Tracks s v refs (slot :: rest)) {answer : WriteResult}
    (lost : (answer.toInt (slot.writable - slot.cursor)).toNat = 0) :
    ∃ s', s.step junk (.doWrite none answer) = .ok s' ∧ s'.queue = s.queue ∧
      s'.appended = s.appended ∧
      s'.accepted = s.accepted ++ answer.put (slot.view s.program.memory).left := by
  obtain ⟨live, enough⟩ := tracks.first_live
  have owned := tracks.refines.owned
  rw [Slot.heldIn_cons, add_assoc] at owned
  have called := doWrite_eq owned tracks.buffers live enough
    (show s.queue.toWrite ≠ 0 by omega) answer
  have same : (⟨s.queue.toWrite, ⟨slot.cursor, slot.writable, .of slot.ref⟩ ::
      rest.map Slot.queued⟩ : WriteQueue) = s.queue := by
    have buffers := tracks.buffers
    rw [List.map_cons] at buffers
    rw [← Slot.queued, ← buffers]
  simp only [lost, Nat.sub_zero, Nat.add_zero, WriteQueue.finish, if_neg live.1.ne, same, bind,
    Except.bind, pure, Except.pure] at called
  refine ⟨⟨s.program, s.queue, s.appended, s.accepted ++ _⟩, ?_, rfl, rfl, rfl⟩
  simp only [Sender.step, Option.getD_none, called, bind, Except.bind, pure, Except.pure]
  rfl

end Tracks

/-- Whatever a program does with its buffers, before and after it appends them, and however much
of the queue `write` accepts each time: no assertion fails, the bytes come out in the order and
with the values they were appended with, and `to_write()` is how many are left. -/
theorem queue_faithful (junk : Junk) (acts : List (SenderAct V))
    (admissible : Along SenderValues.step SenderValues.Admissible SenderValues.start acts) :
    ∃ s : Sender V, Sender.run junk acts = .ok s ∧ s.Faithful := by
  obtain ⟨s, refs, slots, ran, tracks⟩ := start_tracks.runs junk acts admissible
  exact ⟨s, ran, tracks.faithful⟩

end Acts

/-- A buffer is appended and overwritten, bytes are appended, and written in pieces. -/
def someSends : List (SenderAct Unit) :=
  [.op (.sized () 3), .op (.write () 0 [1, 2, 3]), .appendShared () 2, .op (.write () 0 [9]),
    .append [7], .doWrite none (.accept 1), .doWrite (some 5) (.err .eagain),
    .doWrite none (.accept 5)]

theorem queue_faithful_someSends :
    ∃ s : Sender Unit, Sender.run (fun _ _ => 255) someSends = .ok s ∧ s.Faithful := by
  refine queue_faithful (fun _ _ => 255) someSends ⟨rfl, ⟨[0, 0, 0], rfl, by decide⟩,
    ⟨by decide, [1, 2, 3], rfl, by decide⟩, ⟨[1, 2, 3], rfl, by decide⟩, List.cons_ne_nil _ _,
    ⟨by decide, by decide, ?_⟩, ⟨by decide, by decide, ?_⟩, ⟨by decide, by decide, ?_⟩, trivial⟩
  · rintro n ⟨⟩
    decide
  · rintro n ⟨⟩
  · rintro n ⟨⟩
    decide

/-- So many bytes, accepted at once, stay in the queue. -/
theorem unfaithful_two_gigabytes (junk : Junk) {bytes : List UInt8}
    (length : bytes.length = 2 ^ 31) :
    ¬ ∃ s : Sender Unit, Sender.run junk [.append bytes, .doWrite none (.accept (2 ^ 31))] = .ok s ∧
      s.Faithful := by
  rintro ⟨s, ran, faithful⟩
  have some_ : bytes ≠ [] := List.ne_nil_of_length_pos (by omega)
  obtain ⟨s₁, refs, slots, stepped, tracks⟩ := start_tracks.step_append (V := Unit) junk some_
  cases slots with
  | nil => exact absurd tracks.views (List.cons_ne_nil _ _)
  | cons slot rest =>
      obtain ⟨same, -⟩ := List.cons.inj tracks.views
      have cursor : 0 = slot.cursor := congrArg BufferContainer.cursor same
      have writable : bytes.length = slot.writable := congrArg BufferContainer.writable same
      have offered : slot.writable - slot.cursor = 2 ^ 31 := by omega
      have lost : ((WriteResult.accept (2 ^ 31)).toInt (slot.writable - slot.cursor)).toNat = 0 := by
        rw [offered]
        decide
      obtain ⟨s₂, stepped', queue, appended, accepted⟩ := tracks.step_unnoticed junk lost
      rw [Sender.run, List.foldlM_cons, stepped] at ran
      have last : s₂ = s := by
        have two : Sender.step junk s₁ (.doWrite none (.accept (2 ^ 31))) >>= pure = .ok s := ran
        rw [stepped'] at two
        exact Except.ok.inj two
      -- `to_write()` is what it was, and there is less to write
      obtain ⟨live, -⟩ := tracks.first_live
      have left : (slot.view s₁.program.memory).left.length = slot.writable - slot.cursor :=
        WriteBuffer.left_length live.2 live.1.le
      have before := tracks.faithful.count
      have after := faithful.count
      rw [← last, queue, before, appended, accepted, List.length_append, WriteResult.put,
        List.length_take, left, offered, Nat.min_self, Except.ok.injEq] at after
      have pending : (SenderValues.step (V := Unit) .start (.append bytes)).queue.pending = bytes :=
        WriteBuffer.append_pending .new bytes
      have whole := congrArg List.length tracks.fifo
      rw [pending, List.length_append] at whole
      omega

/-- An empty queue is not written, no more is appended than there is, and a count that an `int`
cannot hold is lost. -/
theorem queue_asserts_and_overflows :
    (¬ ∃ s : Sender Unit, Sender.run (fun _ _ => 0) [.doWrite none (.err .eagain)] = .ok s ∧
        s.Faithful) ∧
      (¬ ∃ s : Sender Unit, Sender.run (fun _ _ => 0) [.op (.sized () 3), .appendShared () 4] =
        .ok s ∧ s.Faithful) ∧
      ¬ ∃ s : Sender Unit, Sender.run (fun _ _ => 0)
        [.append (List.replicate (2 ^ 31) 0), .doWrite none (.accept (2 ^ 31))] = .ok s ∧
          s.Faithful := by
  refine ⟨?_, ?_, unfaithful_two_gigabytes _ List.length_replicate⟩
  · rintro ⟨s, ran, -⟩
    have asserted : Sender.run (fun _ _ => 0) [.doWrite none (.err .eagain)] =
        (.error .asserted : Except Fault (Sender Unit)) := rfl
    cases asserted.symm.trans ran
  · rintro ⟨s, ran, -⟩
    have asserted : Sender.run (fun _ _ => 0) [.op (.sized () 3), .appendShared () 4] =
        (.error .asserted : Except Fault (Sender Unit)) := rfl
    cases asserted.symm.trans ran

end Coinscope.Shared

/-
# Shared.ReadQueue -- the read buffer over the heap

`ReadBuffer` has a value for its message buffer.  A real `read_buffer` hands out copies of it that
share the block, reallocates it in every `do_read`, within a block, into a new one or from `malloc`
to `mmap` and back, and writes to it behind `ptr()`.  Here it is on one heap with the variables of
a program, which extracts the buffer whenever it likes and does with its copies what it likes.

The callers rewind the cursor to 0 or leave it, and call `do_read` while the buffer is hungry; the
message they ask for fits a `size_t`.  Nothing else is assumed, least of all of `recv`.

* `ReadQueue` -- the class, with every copy checked.
* `Reader` -- a program and its read buffer, with what was received and what was moved.
* `ReaderValues` -- the same with values, for which `ReadBuffer` is the read buffer.
* `Follows` -- the one follows the other.
* `reads_lossless` -- so bytes are neither lost nor invented, whatever the program does.
-/
import Coinscope.Shared.ReadBuffer
import Coinscope.Shared.ValueSemantics

namespace Coinscope.Shared

open Coinscope.Theory.Bytes
open Coinscope.Theory.Runs
open Coinscope.Theory.SharedBlocks

set_option autoImplicit false

/-! ## The class -/

/-- `class read_buffer`.  `recvBuffer` is all of the array of 4096 bytes. -/
structure ReadQueue where
  cursor : Nat
  toRead : Nat
  buffer : Wrapped
  recvBuffer : List UInt8
  rbLoc : Nat
  rbSize : Nat
  deriving DecidableEq

/-- What `do_read` returns, the bytes `recv` delivered and those that were copied, and the buffer
behind it. -/
structure Reading where
  first : Int
  second : Bool
  got : List UInt8
  moved : List UInt8
  queue : ReadQueue

/-- What `recv` returns. -/
def RecvResult.toInt : RecvResult → Int
  | .data chunk => chunk.bytes.length
  | .eof => 0
  | .err _ => -1

namespace ReadQueue

/-- `read_buffer(to_read)`; nobody has written to the array. -/
def new (junk : Junk) (toRead : Nat) (m : Memory) : Except Fault (ReadQueue × Memory) := do
  let (buffer, m) ← Wrapped.new junk 1 (max toRead 1024) m
  return (⟨0, toRead, buffer, Memory.uninitialised junk m.next 0 4096, 0, 0⟩, m)

/-- `cursor(loc)`. -/
def setCursor (loc : Nat) (q : ReadQueue) : Except Fault ReadQueue :=
  if loc < q.buffer.allocated then return { q with cursor := loc } else throw .asserted

/-- `recv(fd, recv_buffer_.get(), 4096, 0)`, which is made when the array is used up. -/
def refill (answer : RecvResult) (q : ReadQueue) : Except Fault ReadQueue :=
  if q.rbSize ≤ q.rbLoc then
    if answer.bytes.length ≤ q.recvBuffer.length then
      return { q with
        rbLoc := 0
        rbSize := answer.bytes.length
        recvBuffer := WrappedBuffer.blit q.recvBuffer 0 answer.bytes }
    else throw .undefined
  else return q

/-- `n` bytes from `recv_buffer_.get() + rb_loc_` on. -/
def arrived (n : Nat) (q : ReadQueue) : Except Fault (List UInt8) :=
  if q.rbLoc + n ≤ q.recvBuffer.length then return slice q.rbLoc n q.recvBuffer
  else throw .undefined

/-- The end of `do_read`: only a positive count changes anything. -/
def finish (first : Int) (got moved : List UInt8) (q : ReadQueue) : Reading where
  first := first
  second := decide (q.toRead - first.toNat = 0)
  got := got
  moved := moved
  queue := { q with cursor := q.cursor + first.toNat, toRead := q.toRead - first.toNat }

/-- `do_read` behind the `recv`: what that returned goes back up, or the copy is made. -/
def deliver (junk : Junk) (size : Nat) (recvRet : Int) (got : List UInt8) (q : ReadQueue)
    (m : Memory) : Except Fault (Reading × Memory) :=
  if q.rbSize ≤ q.rbLoc then return (q.finish recvRet got [], m)
  else do
    let rd := min size (q.rbSize - q.rbLoc)
    let bytes ← q.arrived rd
    let (buffer, m) ← q.buffer.write junk q.cursor bytes m
    return (finish rd got bytes { q with buffer := buffer, rbLoc := q.rbLoc + rd }, m)

/-- `do_read(fd, size)`. -/
def doRead (junk : Junk) (size : Nat) (answer : RecvResult) (q : ReadQueue) (m : Memory) :
    Except Fault (Reading × Memory) :=
  if size > q.toRead then throw (.threw "size too large for do_read")
  else do
    let wanted := (q.cursor + size) % 2 ^ 64
    let (buffer, m) ← q.buffer.realloc junk 1 wanted m
    if buffer.allocated < wanted then throw .asserted
    let recvRet := if q.rbSize ≤ q.rbLoc then answer.toInt else 0
    let got := if q.rbSize ≤ q.rbLoc then answer.bytes else []
    let q ← refill answer { q with buffer := buffer }
    q.deliver junk size recvRet got m

/-- Received and not yet copied. -/
def unread (q : ReadQueue) : List UInt8 := slice q.rbLoc (q.rbSize - q.rbLoc) q.recvBuffer

end ReadQueue

/-! ## A program and its read buffer -/

/-- A program with its variables and its read buffer; everything `recv` delivered; what was moved
to the message buffer before the cursor was last set, and since then; and what the last `do_read`
returned. -/
structure Reader (V : Type) where
  program : Program V
  queue : ReadQueue
  received : List UInt8
  earlier : List UInt8
  message : List UInt8
  last : Option (Int × Bool)

/-- The program does something with its variables, or calls the read buffer.  Without a size it is
`do_read(fd)`; `extract` constructs a variable from `extract_buffer()`. -/
inductive ReaderAct (V : Type) where
  | op (op : Op V)
  | toRead (x : UInt64)
  | cursor (loc : UInt64)
  | extract (x : V)
  | doRead (size : Option UInt64) (answer : RecvResult)
  deriving DecidableEq

namespace Reader

variable {V : Type} [DecidableEq V]

/-- The read buffer is constructed by a program that has run for a while. -/
def start (junk : Junk) (before : List (Op V)) (toRead : UInt64) : Except Fault (Reader V) := do
  let program ← Program.run junk before
  let (q, m) ← ReadQueue.new junk toRead.toNat program.memory
  return ⟨{ program with memory := m }, q, [], [], [], none⟩

def step (junk : Junk) (s : Reader V) : ReaderAct V → Except Fault (Reader V)
  | .op op => do
      let program ← s.program.step junk op
      return { s with program := program }
  | .toRead x => return { s with queue := { s.queue with toRead := x.toNat } }
  | .cursor loc => do
      let q ← s.queue.setCursor loc.toNat
      return { s with queue := q, earlier := s.earlier ++ s.message, message := [] }
  | .extract x => do
      let (w, m) ← s.queue.buffer.copy s.program.memory
      let program ← s.program.construct x w m
      return { s with program := program }
  | .doRead size answer => do
      let asked := (size.map UInt64.toNat).getD s.queue.toRead
      let (r, m) ← s.queue.doRead junk asked answer s.program.memory
      return { s with
        program := { s.program with memory := m }
        queue := r.queue
        received := s.received ++ r.got
        message := s.message ++ r.moved
        last := some (r.first, r.second) }

def run (junk : Junk) (before : List (Op V)) (toRead : UInt64) (acts : List (ReaderAct V)) :
    Except Fault (Reader V) := do
  let s ← start junk before toRead
  acts.foldlM (step junk) s

/-- The positions are inside the array; what was moved and what is unread is what was received, in
order; the message buffer has below its cursor what was moved since the cursor was set; and
`do_read` returns 0 or less only when the array is used up. -/
structure Lossless (s : Reader V) : Prop where
  positions : s.queue.rbLoc ≤ s.queue.rbSize ∧ s.queue.rbSize ≤ 4096
  conserved : s.earlier ++ s.message ++ s.queue.unread = s.received
  kept : (s.queue.buffer.read s.program.memory).map (List.take s.queue.cursor) = .ok s.message
  dry : ∀ first second, s.last = some (first, second) → first ≤ 0 → s.queue.unread = []

end Reader

/-! ## With values -/

namespace ReadBuffer

variable {b : ReadBuffer} {size : Nat}

/-- What is wanted ends where it did. -/
theorem doReadOf_end (wanted : size ≤ b.toRead) (inbox : List RecvResult) :
    (b.doReadOf size inbox).queue.cursor + (b.doReadOf size inbox).queue.toRead =
      b.cursor + b.toRead := by
  have few : ((b.grow size).refill inbox).queue.rd size ≤ size := Nat.min_le_left ..
  simp only [doReadOf]
  split
  · simp [grow]
  · simp only [copyOut, refill_cursor, refill_toRead, grow]
    simp only [grow] at few
    omega

end ReadBuffer

/-- The values of the variables, and a read buffer with values. -/
structure ReaderValues (V : Type) where
  values : Values V
  queue : ReadBuffer

namespace ReaderValues

variable {V : Type} [DecidableEq V]

def start (before : List (Op V)) (toRead : UInt64) : ReaderValues V :=
  ⟨run Values.step (fun _ => none) before, .new toRead.toNat⟩

/-- How much a call asks for. -/
def asked (v : ReaderValues V) (size : Option UInt64) : Nat :=
  (size.map UInt64.toNat).getD v.queue.toRead

def step (v : ReaderValues V) : ReaderAct V → ReaderValues V
  | .op op => { v with values := v.values.step op }
  | .toRead x => { v with queue := v.queue.setToRead x.toNat }
  | .cursor loc => { v with queue := v.queue.setCursor loc.toNat }
  | .extract x => { v with values := Function.update v.values x (some v.queue.buffer) }
  | .doRead size answer => { v with queue := (v.queue.doReadOf (v.asked size) [answer]).queue }

/-- As the callers do: the cursor goes back to 0, the bytes wanted end within a `size_t`, and
`do_read` is called for something, and for no more than is wanted. -/
def Admissible (v : ReaderValues V) : ReaderAct V → Prop
  | .op op => v.values.Admissible op
  | .toRead x => v.queue.cursor + x.toNat < 2 ^ 64
  | .cursor loc => loc = 0
  | .extract x => v.values x = none
  | .doRead size _ => 0 < v.asked size ∧ v.asked size ≤ v.queue.toRead

end ReaderValues

/-! ## The calls -/

namespace ReadQueue

/-- A read buffer on the heap, which holds `o`, looks like one with values.  Of the array only what
has been received counts. -/
structure Shows (m : Memory) (o : Option (Ref Tag)) (q : ReadQueue) (b : ReadBuffer) : Prop where
  cursor : q.cursor = b.cursor
  toRead : q.toRead = b.toRead
  rbLoc : q.rbLoc = b.rbLoc
  rbSize : q.rbSize = b.rbSize
  buffer : q.buffer = .of o
  value : m.value o = b.buffer
  array : q.recvBuffer.length = 4096
  front : q.recvBuffer.take q.rbSize = b.recvBuffer.take b.rbSize

variable {m m' : Memory} {o o' : Option (Ref Tag)} {q : ReadQueue} {b : ReadBuffer}
variable {refs : Multiset (Ref Tag)}

theorem Shows.unread_eq (view : Shows m o q b) : q.unread = b.unread := by
  rw [unread, ReadBuffer.unread, slice, slice, ← List.drop_take, ← List.drop_take, view.front,
    view.rbLoc]

theorem Shows.used_iff (view : Shows m o q b) : q.rbSize ≤ q.rbLoc ↔ b.rbSize ≤ b.rbLoc := by
  rw [view.rbSize, view.rbLoc]

/-- The message buffer has another value, or is somewhere else. -/
theorem Shows.rebuffer (view : Shows m o q b) {bytes : List UInt8} (value : m'.value o' = bytes) :
    Shows m' o' { q with buffer := .of o' } { b with buffer := bytes } :=
  ⟨view.cursor, view.toRead, view.rbLoc, view.rbSize, rfl, value, view.array,
    view.front⟩

theorem new_spec (junk : Junk) (owned : Owned Fits m refs) (toRead : Nat) :
    ∃ q o m', new junk toRead m = .ok (q, m') ∧ Shows m' o q (.new toRead) ∧
      Owned Fits m' (held o + refs) ∧ Keeps m m' refs := by
  obtain ⟨o, m', made, has⟩ := Wrapped.new_spec junk owned (max toRead 1024)
  refine ⟨⟨0, toRead, .of o, Memory.uninitialised junk m'.next 0 4096, 0, 0⟩, o, m', ?_,
    ⟨rfl, rfl, rfl, rfl, rfl, has.value, ?_, ?_⟩, has.owned, has.keeps⟩
  · simp only [new, made, bind, Except.bind, pure, Except.pure]
  · simp [Memory.uninitialised]
  · simp [ReadBuffer.new]

theorem refill_spec (view : Shows m o q b) (answer : RecvResult) :
    ∃ q', q.refill answer = .ok q' ∧ Shows m o q' (b.refill [answer]).queue := by
  have fits := answer.length_bytes_le
  by_cases used : q.rbSize ≤ q.rbLoc
  · have room : answer.bytes.length ≤ q.recvBuffer.length := by rw [view.array]; exact fits
    have asked : b.refill [answer] =
        { queue := { b with
            rbLoc := 0
            rbSize := answer.bytes.length
            recvBuffer := answer.bytes ++ b.recvBuffer.drop answer.bytes.length }
          ret := answer.ret
          inbox := []
          got := answer.bytes } := if_pos (view.used_iff.1 used)
    have front : slice 0 answer.bytes.length (WrappedBuffer.blit q.recvBuffer 0 answer.bytes) =
        answer.bytes := WrappedBuffer.slice_blit (Nat.zero_le _) rfl
    refine ⟨{ q with
      rbLoc := 0
      rbSize := answer.bytes.length
      recvBuffer := WrappedBuffer.blit q.recvBuffer 0 answer.bytes }, ?_, ?_⟩
    · rw [refill, if_pos used, if_pos room]
      rfl
    · rw [asked]
      refine ⟨view.cursor, view.toRead, rfl, rfl, view.buffer, view.value, ?_, ?_⟩
      · rw [WrappedBuffer.length_blit (by omega)]
        exact view.array
      · rw [List.take_left]
        exact front
  · have same : (b.refill [answer]).queue = b := by
      rw [ReadBuffer.refill, if_neg (mt view.used_iff.2 used)]
    refine ⟨q, ?_, ?_⟩
    · rw [refill, if_neg used]
      rfl
    · rw [same]
      exact view

/-- What is copied is in the array, and it is what comes first of the unread bytes. -/
theorem arrived_eq (view : Shows m o q b) (valid : b.Valid) (size : Nat) :
    q.arrived (b.rd size) = .ok (b.unread.take size) := by
  have available : b.rd size ≤ b.rbSize - b.rbLoc := Nat.min_le_right ..
  have loc := valid.loc
  have small := valid.size
  have inside : q.rbLoc + b.rd size ≤ q.recvBuffer.length := by
    rw [view.array, view.rbLoc]
    omega
  have same : slice q.rbLoc (b.rd size) q.recvBuffer = b.unread.take size := by
    rw [← view.unread_eq, unread, slice, slice, List.take_take, view.rbSize, view.rbLoc]
    rfl
  rw [arrived, if_pos inside, same]
  rfl

/-- The copy to behind the cursor is inside the message buffer, whoever shares it. -/
theorem copy_spec (junk : Junk) (owned : Owned Fits m (held o + refs)) (view : Shows m o q b)
    (valid : b.Valid) {size : Nat} (room : b.cursor + size ≤ b.buffer.length) :
    ∃ r m', q.buffer.write junk q.cursor (b.unread.take size) m = .ok (.of (some r), m') ∧
      Has m m' refs (some r) (WrappedBuffer.blit b.buffer b.cursor (b.unread.take size)) := by
  have some_ := valid.room
  rw [← view.value] at room some_
  cases o with
  | none =>
      have nothing : (m.value none).length = 0 := rfl
      omega
  | some r =>
      rw [held_some_add] at owned
      have inside : b.cursor + (b.unread.take size).length ≤ (m.contents r).length := by
        have few : (b.unread.take size).length ≤ size := List.length_take_le ..
        have room' : b.cursor + size ≤ (m.contents r).length := room
        omega
      obtain ⟨r', m', written, has⟩ := Wrapped.write_spec junk owned inside
      rw [← view.value, view.buffer, view.cursor]
      exact ⟨r', m', written, has⟩

/-- What the `recv` of a call delivers. -/
theorem refill_got (b : ReadBuffer) (answer : RecvResult) :
    (b.refill [answer]).got = if b.rbSize ≤ b.rbLoc then answer.bytes else [] := by
  unfold ReadBuffer.refill
  split
  · rfl
  · rfl

/-- Where nothing is unread behind the `recv`, it delivered nothing. -/
theorem recvRet_nonpos {answer : RecvResult}
    (dry : (b.refill [answer]).queue.rbSize ≤ (b.refill [answer]).queue.rbLoc) :
    (if b.rbSize ≤ b.rbLoc then answer.toInt else 0) ≤ 0 := by
  split
  next used =>
    rw [ReadBuffer.refill, if_pos used] at dry
    cases answer with
    | data chunk =>
        have delivered := chunk.nonempty
        have none_ : chunk.bytes.length ≤ 0 := dry
        omega
    | eof => exact Int.le_refl 0
    | err e => exact Int.negSucc_le_zero 0
  next => exact Int.le_refl 0

theorem finish_nonpos {first : Int} (nothing : first ≤ 0) (got moved : List UInt8) (q : ReadQueue) :
    (q.finish first got moved).queue = q := by
  have zero : first.toNat = 0 := Int.toNat_of_nonpos nothing
  simp [finish, zero]

/-- The end of a call: nothing is unread, or what fits of it is copied. -/
theorem deliver_spec (junk : Junk) (owned : Owned Fits m (held o + refs)) (view : Shows m o q b)
    (valid : b.Valid) {size : Nat} (some_ : 0 < size) (room : b.cursor + size ≤ b.buffer.length)
    {recvRet : Int} (dry : b.rbSize ≤ b.rbLoc → recvRet ≤ 0) (got : List UInt8) :
    ∃ r o' m', q.deliver junk size recvRet got m = .ok (r, m') ∧
      Shows m' o' r.queue (if b.rbSize ≤ b.rbLoc then b else b.copyOut size) ∧
      Owned Fits m' (held o' + refs) ∧ Keeps m m' refs ∧ r.got = got ∧
      r.moved = b.unread.take size ∧ (r.first ≤ 0 → r.queue.unread = []) := by
  by_cases used : b.rbSize ≤ b.rbLoc
  · have empty := ReadBuffer.unread_of_used used
    have same := finish_nonpos (dry used) got [] q
    rw [if_pos used]
    refine ⟨q.finish recvRet got [], o, m, ?_, same.symm ▸ view, owned, Keeps.rfl, rfl, ?_, ?_⟩
    · rw [deliver, if_pos (view.used_iff.2 used)]
      rfl
    · rw [empty, List.take_nil]
      rfl
    · intro _
      rw [same, view.unread_eq, empty]
  · have more : ¬ q.rbSize ≤ q.rbLoc := mt view.used_iff.1 used
    have count : min size (q.rbSize - q.rbLoc) = b.rd size := by rw [view.rbSize, view.rbLoc]; rfl
    have positive : 0 < b.rd size := by
      simp only [ReadBuffer.rd]
      omega
    obtain ⟨r, m', written, has⟩ := copy_spec junk owned view valid room
    rw [if_neg used]
    refine ⟨finish (b.rd size) got (b.unread.take size)
      { q with buffer := .of (some r), rbLoc := q.rbLoc + b.rd size }, some r, m', ?_, ?_, has.owned,
      has.keeps, rfl, rfl, ?_⟩
    · simp only [deliver, if_neg more, count, arrived_eq view valid, written, bind, Except.bind]
      rfl
    · refine ⟨?_, ?_, ?_, view.rbSize, rfl, ?_, view.array, view.front⟩
      · simp [finish, ReadBuffer.copyOut, view.cursor]
      · simp [finish, ReadBuffer.copyOut, view.toRead]
      · simp [finish, ReadBuffer.copyOut, view.rbLoc]
      · rw [has.value, ReadBuffer.copyOut, ReadBuffer.copied]
    · intro nothing
      have counted : (b.rd size : Int) ≤ 0 := nothing
      omega

/-- One `do_read` on the heap does what it does with values, whichever way the message buffer is
reallocated, and tells by its count whether anything is unread. -/
theorem doRead_spec (junk : Junk) (owned : Owned Fits m (held o + refs)) (view : Shows m o q b)
    (valid : b.Valid) {size : Nat} (some_ : 0 < size) (wanted : size ≤ b.toRead)
    (fits : b.cursor + size < 2 ^ 64) (answer : RecvResult) :
    ∃ r o' m', q.doRead junk size answer m = .ok (r, m') ∧
      Shows m' o' r.queue (b.doReadOf size [answer]).queue ∧ Owned Fits m' (held o' + refs) ∧
      Keeps m m' refs ∧ r.got = (b.doReadOf size [answer]).got ∧
      r.moved = b.movedBy size [answer] ∧ (r.first ≤ 0 → r.queue.unread = []) := by
  have enough : ¬ size > q.toRead := by
    rw [view.toRead]
    omega
  have whole : (q.cursor + size) % 2 ^ 64 = b.cursor + size := by
    rw [view.cursor, Nat.mod_eq_of_lt fits]
  obtain ⟨o₁, m₁, reallocated, has⟩ := Wrapped.realloc_spec junk owned
    (show b.cursor + size ≠ 0 by omega)
  rw [view.value] at has
  have allocated : ¬ (Wrapped.of o₁).allocated < b.cursor + size := by
    have room := le_allocatedFor (b.cursor + size)
    rw [Wrapped.allocated_of has.owned, has.value, WrappedBuffer.length_realloc]
    omega
  have grown : Shows m₁ o₁ { q with buffer := .of o₁ } (b.grow size) := view.rebuffer has.value
  obtain ⟨q₂, refilled, view₂⟩ := refill_spec grown answer
  have filled := ReadBuffer.refill_valid (ReadBuffer.grow_valid valid some_) [answer]
  obtain ⟨r, o', m', delivered, shows_, owned', keeps, got, moved, dry⟩ := deliver_spec junk
    has.owned view₂ filled some_ (by simpa using ReadBuffer.grow_room b size) recvRet_nonpos
    ((b.grow size).refill [answer]).got
  have queue : (b.doReadOf size [answer]).queue =
      if ((b.grow size).refill [answer]).queue.rbSize ≤ ((b.grow size).refill [answer]).queue.rbLoc
      then ((b.grow size).refill [answer]).queue
      else ((b.grow size).refill [answer]).queue.copyOut size := by
    simp only [ReadBuffer.doReadOf]
    split <;> rfl
  have got' : (b.doReadOf size [answer]).got = ((b.grow size).refill [answer]).got := by
    simp only [ReadBuffer.doReadOf]
    split <;> rfl
  refine ⟨r, o', m', ?_, queue ▸ shows_, owned', has.keeps.trans keeps, got.trans got'.symm, moved,
    dry⟩
  rw [refill_got, ← grown.rbSize, ← grown.rbLoc] at delivered
  simp only [doRead, if_neg enough, whole, view.buffer, reallocated, bind, Except.bind,
    if_neg allocated, refilled]
  exact delivered

end ReadQueue

/-! ## Acts -/

section Acts

variable {V : Type} [DecidableEq V] [Fintype V]

/-- A reader on the heap does what the reader with values does, and the accounts are right. -/
structure Follows (s : Reader V) (v : ReaderValues V) (refs : V → Option (Option (Ref Tag)))
    (o : Option (Ref Tag)) : Prop where
  refines : Refines s.program v.values refs (held o)
  view : s.queue.Shows s.program.memory o v.queue
  valid : v.queue.Valid
  fits : v.queue.cursor + v.queue.toRead < 2 ^ 64
  kept : v.queue.held = s.message
  conserved : s.earlier ++ s.message ++ v.queue.unread = s.received
  dry : ∀ first second, s.last = some (first, second) → first ≤ 0 → v.queue.unread = []

/-- The act is defined, and does what it does with values. -/
def Advances (junk : Junk) (s : Reader V) (v : ReaderValues V) (act : ReaderAct V) : Prop :=
  ∃ s' refs' o', s.step junk act = .ok s' ∧ Follows s' (v.step act) refs' o'

theorem start_follows (junk : Junk) (before : List (Op V)) (toRead : UInt64)
    (admissible : Along Values.step Values.Admissible (fun _ => none) before) :
    ∃ s refs o, Reader.start junk before toRead = .ok s ∧
      Follows s (ReaderValues.start before toRead) refs o := by
  obtain ⟨program, refs, ran, refines⟩ := start_refines.runs junk before admissible
  obtain ⟨q, o, m, made, view, owned, keeps⟩ := ReadQueue.new_spec junk refines.owned toRead.toNat
  rw [zero_add] at owned keeps
  refine ⟨⟨{ program with memory := m }, q, [], [], [], none⟩, refs, o, ?_,
    refines.memory owned keeps, view, ReadBuffer.new_valid _, ?_, rfl, rfl, ?_⟩
  · have ran' : Program.run junk before = .ok program := ran
    simp only [Reader.start, ran', made, bind, Except.bind, pure, Except.pure]
  · show 0 + toRead.toNat < 2 ^ 64
    rw [Nat.zero_add]
    exact toRead.toNat_lt
  · rintro first second ⟨⟩

namespace Follows

variable {s : Reader V} {v : ReaderValues V} {refs : V → Option (Option (Ref Tag))}
variable {o : Option (Ref Tag)}

/-- Whatever the program does with its variables, its copies of the message buffer among them, the
message buffer is as it was. -/
theorem step_op (junk : Junk) (follows : Follows s v refs o) {op : Op V}
    (admissible : v.Admissible (.op op)) : Advances junk s v (.op op) := by
  obtain ⟨program, refs', stepped, refines, keeps⟩ := follows.refines.step_framed junk admissible
  have view := follows.view
  refine ⟨{ s with program := program }, refs', o, ?_, refines, ?_, follows.valid, follows.fits,
    follows.kept, follows.conserved, follows.dry⟩
  · simp only [Reader.step, stepped, bind, Except.bind]
    rfl
  · exact { view with value := (value_keeps keeps le_rfl).trans view.value }

theorem step_toRead (junk : Junk) (follows : Follows s v refs o) {x : UInt64}
    (admissible : v.Admissible (.toRead x)) : Advances junk s v (.toRead x) := by
  have view := follows.view
  exact ⟨{ s with queue := { s.queue with toRead := x.toNat } }, refs, o, rfl, follows.refines,
    { view with toRead := rfl }, follows.valid.setToRead _, admissible, follows.kept,
    follows.conserved, follows.dry⟩

theorem step_cursor (junk : Junk) (follows : Follows s v refs o) {loc : UInt64}
    (admissible : v.Admissible (.cursor loc)) : Advances junk s v (.cursor loc) := by
  have zero : loc = 0 := admissible
  subst zero
  have view := follows.view
  have room : 0 < s.queue.buffer.allocated := by
    rw [view.buffer, Wrapped.allocated_of follows.refines.owned, view.value]
    exact follows.valid.room
  have fits : 0 + v.queue.toRead < 2 ^ 64 := by
    have before := follows.fits
    omega
  refine ⟨{ s with
    queue := { s.queue with cursor := 0 }
    earlier := s.earlier ++ s.message
    message := [] }, refs, o, ?_, follows.refines, { view with cursor := rfl },
    follows.valid.rewind, fits, ReadBuffer.setCursor_held _, ?_, follows.dry⟩
  · simp only [Reader.step, ReadQueue.setCursor, UInt64.toNat_zero, if_pos room, bind, Except.bind]
    rfl
  · rw [List.append_nil]
    exact follows.conserved

/-- The program gets one more holder of the message buffer. -/
theorem step_extract (junk : Junk) (follows : Follows s v refs o) {x : V}
    (admissible : v.Admissible (.extract x)) : Advances junk s v (.extract x) := by
  have view := follows.view
  obtain ⟨m, copied, owned, blocks⟩ := Wrapped.copy_spec follows.refines.owned
  rw [← add_assoc] at owned
  have same := value_of_blocks blocks o
  have lent := follows.refines.memory owned fun _ _ => congrFun blocks _
  obtain ⟨made, next⟩ := lent.construct (follows.refines.dead admissible)
  rw [show m.value o = v.queue.buffer from same.trans view.value] at next
  refine ⟨{ s with program := s.program.set x (some (.of o)) m }, _, o, ?_, next,
    { view with value := same.trans view.value }, follows.valid, follows.fits, follows.kept,
    follows.conserved, follows.dry⟩
  have made' : s.program.construct x (.of o) m = .ok (s.program.set x (some (.of o)) m) := made
  simp only [Reader.step, view.buffer, copied, made', bind, Except.bind]
  rfl

theorem step_doRead (junk : Junk) (follows : Follows s v refs o) {size : Option UInt64}
    {answer : RecvResult} (admissible : v.Admissible (.doRead size answer)) :
    Advances junk s v (.doRead size answer) := by
  obtain ⟨some_, wanted⟩ := admissible
  have fits := follows.fits
  have asked : (size.map UInt64.toNat).getD s.queue.toRead = v.asked size := by
    rw [ReaderValues.asked, follows.view.toRead]
  obtain ⟨r, o', m, called, view, owned, keeps, got, moved, dry⟩ := ReadQueue.doRead_spec junk
    follows.refines.owned follows.view follows.valid some_ wanted (by omega) answer
  obtain ⟨held, conserved⟩ := ReadBuffer.doReadOf_moves follows.valid some_ [answer]
  refine ⟨⟨{ s.program with memory := m }, r.queue, s.received ++ r.got, s.earlier,
    s.message ++ r.moved, some (r.first, r.second)⟩, refs, o', ?_,
    follows.refines.memory owned keeps, view, ReadBuffer.doReadOf_valid follows.valid some_ _, ?_,
    ?_, ?_, ?_⟩
  · simp only [Reader.step, asked, called, bind, Except.bind]
    rfl
  · exact (ReadBuffer.doReadOf_end wanted [answer]).trans_lt fits
  · rw [← follows.kept, moved]
    exact held
  · show s.earlier ++ (s.message ++ r.moved) ++
      (v.queue.doReadOf (v.asked size) [answer]).queue.unread = s.received ++ r.got
    rw [moved, got, List.append_assoc, List.append_assoc, conserved, ← follows.conserved]
    simp only [List.append_assoc]
  · rintro first second ⟨⟩ nothing
    exact view.unread_eq.symm.trans (dry nothing)

/-- Every act does on the heap what it does with values. -/
theorem step (junk : Junk) (follows : Follows s v refs o) {act : ReaderAct V}
    (admissible : v.Admissible act) : Advances junk s v act := by
  cases act with
  | op op => exact follows.step_op junk admissible
  | toRead x => exact follows.step_toRead junk admissible
  | cursor loc => exact follows.step_cursor junk admissible
  | extract x => exact follows.step_extract junk admissible
  | doRead size answer => exact follows.step_doRead junk admissible

/-- A whole run, act by act. -/
theorem runs (junk : Junk) (follows : Follows s v refs o) (acts : List (ReaderAct V))
    (admissible : Along ReaderValues.step ReaderValues.Admissible v acts) :
    ∃ s' refs' o', acts.foldlM (Reader.step junk) s = .ok s' ∧
      Follows s' (run ReaderValues.step v acts) refs' o' := by
  have follow : ∀ (s : Reader V) (v : ReaderValues V) (act : ReaderAct V),
      (∃ refs o, Follows s v refs o) → v.Admissible act →
      ∃ s', s.step junk act = .ok s' ∧ ∃ refs' o', Follows s' (v.step act) refs' o' := by
    rintro s v act ⟨refs, o, follows⟩ admissible
    obtain ⟨s', refs', o', stepped, next⟩ := follows.step junk admissible
    exact ⟨s', stepped, refs', o', next⟩
  obtain ⟨s', ran, refs', o', last⟩ :=
    run_simulates follow ⟨refs, o, follows⟩ acts admissible
  exact ⟨s', refs', o', ran, last⟩

omit [DecidableEq V] in
theorem lossless (follows : Follows s v refs o) : s.Lossless := by
  have view := follows.view
  refine ⟨⟨?_, ?_⟩, ?_, ?_, ?_⟩
  · rw [view.rbLoc, view.rbSize]
    exact follows.valid.loc
  · rw [view.rbSize]
    exact follows.valid.size
  · rw [view.unread_eq]
    exact follows.conserved
  · rw [view.buffer, Wrapped.read_eq follows.refines.owned, view.value, view.cursor, ← follows.kept]
    rfl
  · intro first second returned nothing
    rw [view.unread_eq]
    exact follows.dry first second returned nothing

end Follows

/-- Whatever a program does with its buffers and those it extracts, and whatever `recv` answers: no
copy leaves its block and no assertion fails, the bytes come to the message buffer in the order
they were received, and those below the cursor stay. -/
theorem reads_lossless (junk : Junk) (before : List (Op V)) (toRead : UInt64)
    (acts : List (ReaderAct V))
    (admissible : Along Values.step Values.Admissible (fun _ => none) before)
    (called : Along ReaderValues.step ReaderValues.Admissible (.start before toRead) acts) :
    ∃ s : Reader V, Reader.run junk before toRead acts = .ok s ∧ s.Lossless := by
  obtain ⟨s, refs, o, started, follows⟩ := start_follows junk before toRead admissible
  obtain ⟨s', refs', o', ran, last⟩ := follows.runs junk acts called
  refine ⟨s', ?_, last.lossless⟩
  rw [Reader.run, started]
  exact ran

end Acts

/-- Five bytes, of which the message takes two at first and then three. -/
def fiveBytes : Chunk := ⟨[1, 2, 3, 4, 5], by decide, by decide⟩

/-- A message is read in two parts; its first part is extracted, and overwritten by the program. -/
def someReads : List (ReaderAct Bool) :=
  [.op (.sized false 3), .doRead none (.err .eagain), .doRead none (.data fiveBytes),
    .extract true, .op (.write true 0 [9]), .toRead 4, .doRead (some 3) .eof, .doRead none .eof,
    .cursor 0, .toRead 2]

theorem reads_lossless_someReads :
    ∃ s : Reader Bool, Reader.run (fun _ _ => 255) [.default true, .destroy true] 2 someReads =
        .ok s ∧ s.Lossless := by
  refine reads_lossless (fun _ _ => 255) [.default true, .destroy true] 2 someReads
    ⟨rfl, rfl, trivial⟩ ⟨rfl, ⟨by decide, by decide⟩, ⟨by decide, by decide⟩, rfl,
      ⟨_, rfl, by decide +kernel⟩, ?_, ⟨by decide +kernel, by decide +kernel⟩,
      ⟨by decide +kernel, by decide +kernel⟩, rfl, ?_, trivial⟩
  · show _ + _ < 2 ^ 64
    decide +kernel
  · show _ + _ < 2 ^ 64
    decide +kernel

end Coinscope.Shared

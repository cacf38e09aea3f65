/-
# Shared.ReadBuffer -- accumulating reads

A `read_buffer` collects `to_read` bytes behind its cursor.  It receives into a
4096-byte array of its own and copies from there, so a `recv` may deliver more
than is wanted and the surplus waits in the array (`unread`) for the next call.

`doRead_cases` is what one call can do.  Either it moves a non-empty prefix of
`unread` and of what it received to the end of `held`, or `unread` was empty, the
kernel delivered nothing, and only the answer is passed on.  Nothing is lost or
invented: `held` followed by `unread` grows by exactly the bytes received.
-/
import Coinscope.Shared.Socket
import Coinscope.Shared.WrappedBuffer

namespace Coinscope.Shared

open Coinscope.Theory.Bytes

set_option autoImplicit false

/-- `class read_buffer`.  `recvBuffer` is the part of the 4096-byte array that
has been received into so far. -/
structure ReadBuffer where
  cursor : Nat
  toRead : Nat
  buffer : List UInt8
  recvBuffer : List UInt8
  rbLoc : Nat
  rbSize : Nat
  deriving DecidableEq

/-- One `do_read`: the buffer after it, what it returned, the inbox behind it
and the bytes it took from the kernel. -/
structure ReadStep where
  queue : ReadBuffer
  ret : Ret
  inbox : List RecvResult
  got : List UInt8

namespace ReadBuffer

/-- `read_buffer(to_read)`. -/
def new (toRead : Nat) : ReadBuffer where
  cursor := 0
  toRead := toRead
  buffer := WrappedBuffer.ofSize (max toRead 1024)
  recvBuffer := []
  rbLoc := 0
  rbSize := 0

def hungry (b : ReadBuffer) : Bool := b.toRead > 0

/-- `to_read(x)`. -/
def setToRead (b : ReadBuffer) (x : Nat) : ReadBuffer := { b with toRead := x }

/-- `cursor(loc)`; it asserts `loc < buffer_.allocated()`. -/
def setCursor (b : ReadBuffer) (loc : Nat) : ReadBuffer := { b with cursor := loc }

/-- The `recv` of `do_read`: made only when the array is used up, into its start. -/
def refill (b : ReadBuffer) (inbox : List RecvResult) : ReadStep :=
  if b.rbSize ≤ b.rbLoc then
    let answer := recv inbox
    let got := answer.1.bytes
    { queue := { b with
        rbLoc := 0, rbSize := got.length, recvBuffer := got ++ b.recvBuffer.drop got.length }
      ret := answer.1.ret
      inbox := answer.2
      got := got }
  else { queue := b, ret := .count 0, inbox := inbox, got := [] }

/-- How many bytes one `do_read` copies. -/
def rd (b : ReadBuffer) (size : Nat) : Nat := min size (b.rbSize - b.rbLoc)

/-- The copy of `do_read`, from the array to behind the cursor. -/
def copyOut (b : ReadBuffer) (size : Nat) : ReadBuffer :=
  { b with
    buffer := WrappedBuffer.blit b.buffer b.cursor (slice b.rbLoc (b.rd size) b.recvBuffer)
    rbLoc := b.rbLoc + b.rd size
    cursor := b.cursor + b.rd size
    toRead := b.toRead - b.rd size }

/-- The reallocation in front of the `recv`. -/
def grow (b : ReadBuffer) (size : Nat) : ReadBuffer :=
  { b with buffer := WrappedBuffer.realloc (b.cursor + size) b.buffer }

/-- `do_read(fd)`, which is `do_read(fd, to_read_)`; the size check of the
two-argument form cannot fail there. -/
def doRead (b : ReadBuffer) (inbox : List RecvResult) : ReadStep :=
  let size := b.toRead
  let s := (b.grow size).refill inbox
  -- the `recv` failed or there was nothing: its result goes back up
  if s.queue.rbSize ≤ s.queue.rbLoc then s
  else { s with queue := s.queue.copyOut size, ret := .count (s.queue.rd size) }

/-- `do_read(fd, size)`, for no more than is wanted. -/
def doReadOf (b : ReadBuffer) (size : Nat) (inbox : List RecvResult) : ReadStep :=
  let s := (b.grow size).refill inbox
  if s.queue.rbSize ≤ s.queue.rbLoc then s
  else { s with queue := s.queue.copyOut size, ret := .count (s.queue.rd size) }

theorem doRead_eq_doReadOf (b : ReadBuffer) (inbox : List RecvResult) :
    b.doRead inbox = b.doReadOf b.toRead inbox := rfl

/-- The loop `while (r > 0 && hungry()) { r = do_read(fd).first; }` around every
`do_read`, entered with `r = 1`.  Every round takes an answer from the inbox or
a byte from the array, so the fuel suffices. -/
def fillAux : Nat → ReadBuffer → List RecvResult → ReadStep
  | 0, b, inbox => ⟨b, .count 1, inbox, []⟩
  | fuel + 1, b, inbox =>
      if b.hungry then
        let s := b.doRead inbox
        match s.ret with
        | .count (_ + 1) =>
            let t := fillAux fuel s.queue s.inbox
            { t with got := s.got ++ t.got }
        | _ => s
      else ⟨b, .count 1, inbox, []⟩

/-! ## What the buffer holds -/

/-- The accumulated bytes, below the cursor. -/
def held (b : ReadBuffer) : List UInt8 := b.buffer.take b.cursor

/-- Received and not yet copied. -/
def unread (b : ReadBuffer) : List UInt8 := slice b.rbLoc (b.rbSize - b.rbLoc) b.recvBuffer

/-- The bytes one call copies. -/
def movedBy (b : ReadBuffer) (size : Nat) (inbox : List RecvResult) : List UInt8 :=
  ((b.grow size).refill inbox).queue.unread.take size

/-- Rounds `fillAux` can make before it runs dry. -/
def effort (b : ReadBuffer) (inbox : List RecvResult) : Nat := weight inbox + b.unread.length

/-- Read until nothing more is wanted or the kernel has nothing more to give. -/
def fill (b : ReadBuffer) (inbox : List RecvResult) : ReadStep :=
  fillAux (b.effort inbox + 1) b inbox

/-- Positions stay inside what they index. -/
structure Valid (b : ReadBuffer) : Prop where
  loc : b.rbLoc ≤ b.rbSize
  size : b.rbSize ≤ 4096
  filled : b.rbSize ≤ b.recvBuffer.length
  cursor : b.cursor ≤ b.buffer.length
  room : 0 < b.buffer.length

theorem new_valid (n : Nat) : (new n).Valid where
  loc := Nat.le_refl 0
  size := Nat.zero_le _
  filled := Nat.zero_le _
  cursor := Nat.zero_le _
  room := by
    have := le_allocatedFor (max n 1024)
    simp only [new, WrappedBuffer.length_ofSize]
    omega

@[simp] theorem new_held (n : Nat) : (new n).held = [] := rfl
@[simp] theorem new_unread (n : Nat) : (new n).unread = [] := rfl
@[simp] theorem new_toRead (n : Nat) : (new n).toRead = n := rfl

@[simp] theorem setToRead_toRead (b : ReadBuffer) (n : Nat) : (b.setToRead n).toRead = n := rfl
@[simp] theorem setToRead_held (b : ReadBuffer) (n : Nat) : (b.setToRead n).held = b.held := rfl
@[simp] theorem setToRead_unread (b : ReadBuffer) (n : Nat) : (b.setToRead n).unread = b.unread := rfl
@[simp] theorem setCursor_toRead (b : ReadBuffer) (n : Nat) : (b.setCursor n).toRead = b.toRead := rfl
@[simp] theorem setCursor_held (b : ReadBuffer) : (b.setCursor 0).held = [] := by simp [held, setCursor]
@[simp] theorem setCursor_unread (b : ReadBuffer) (n : Nat) : (b.setCursor n).unread = b.unread := rfl

theorem Valid.setToRead {b : ReadBuffer} (valid : b.Valid) (n : Nat) : (b.setToRead n).Valid :=
  ⟨valid.loc, valid.size, valid.filled, valid.cursor, valid.room⟩

theorem Valid.rewind {b : ReadBuffer} (valid : b.Valid) : (b.setCursor 0).Valid :=
  ⟨valid.loc, valid.size, valid.filled, Nat.zero_le _, valid.room⟩

theorem Valid.held_length {b : ReadBuffer} (valid : b.Valid) : b.held.length = b.cursor := by
  have := valid.cursor
  simp [held]; omega

theorem Valid.unread_length {b : ReadBuffer} (valid : b.Valid) :
    b.unread.length = b.rbSize - b.rbLoc := by
  have := valid.loc
  have := valid.filled
  exact slice_length (by omega)

theorem unread_of_used {b : ReadBuffer} (used : b.rbSize ≤ b.rbLoc) : b.unread = [] := by
  simp [unread, slice, Nat.sub_eq_zero_of_le used]

/-! ## One call -/

/-- The call moved `bytes` from the received data to the end of `held`. -/
structure Moved (b : ReadBuffer) (inbox : List RecvResult) (s : ReadStep) (bytes : List UInt8) :
    Prop where
  some : 0 < bytes.length
  wanted : bytes.length ≤ b.toRead
  ret : s.ret = .count bytes.length
  held : s.queue.held = b.held ++ bytes
  toRead : s.queue.toRead = b.toRead - bytes.length
  conserved : b.unread ++ s.got = bytes ++ s.queue.unread
  took : ∃ answers, inbox = answers ++ s.inbox ∧ AllData answers ∧ s.got = stream answers
  lighter : s.queue.effort s.inbox < b.effort inbox

/-- Nothing was waiting and the kernel delivered nothing; its answer is returned. -/
structure Stopped (b : ReadBuffer) (inbox : List RecvResult) (s : ReadStep) : Prop where
  dry : b.unread = []
  got : s.got = []
  held : s.queue.held = b.held
  toRead : s.queue.toRead = b.toRead
  unread : s.queue.unread = []
  answer : (recv inbox).1 = .eof ∧ s.ret = .count 0 ∨
    ∃ e, (recv inbox).1 = .err e ∧ s.ret = .fail e
  inbox : s.inbox = (recv inbox).2

theorem refill_valid {b : ReadBuffer} (valid : b.Valid) (inbox : List RecvResult) :
    (b.refill inbox).queue.Valid := by
  unfold refill
  split
  · exact ⟨Nat.zero_le _, RecvResult.length_bytes_le _, by simp, valid.cursor, valid.room⟩
  · exact valid

@[simp] theorem refill_cursor (b : ReadBuffer) (inbox : List RecvResult) :
    (b.refill inbox).queue.cursor = b.cursor := by unfold refill; split <;> rfl

@[simp] theorem refill_toRead (b : ReadBuffer) (inbox : List RecvResult) :
    (b.refill inbox).queue.toRead = b.toRead := by unfold refill; split <;> rfl

@[simp] theorem refill_buffer (b : ReadBuffer) (inbox : List RecvResult) :
    (b.refill inbox).queue.buffer = b.buffer := by unfold refill; split <;> rfl

/-- A `recv` that delivered bytes took one answer; otherwise none was taken. -/
theorem refill_took {b : ReadBuffer} {inbox : List RecvResult}
    (more : (b.refill inbox).queue.rbLoc < (b.refill inbox).queue.rbSize) :
    ∃ answers, inbox = answers ++ (b.refill inbox).inbox ∧ AllData answers ∧
      (b.refill inbox).got = stream answers := by
  unfold refill at more ⊢
  split
  · rename_i asked
    rw [if_pos asked] at more
    cases inbox with
    | nil => simp [recv, RecvResult.bytes] at more
    | cons r rest =>
        cases r with
        | data chunk => exact ⟨[.data chunk], rfl, by simp [AllData], by simp [stream, recv]⟩
        | eof => simp [recv, RecvResult.bytes] at more
        | err e => simp [recv, RecvResult.bytes] at more
  · exact ⟨[], rfl, by simp [AllData], rfl⟩

/-- After the `recv` the waiting bytes are the old ones and the received ones. -/
theorem refill_unread (b : ReadBuffer) (inbox : List RecvResult) :
    (b.refill inbox).queue.unread = b.unread ++ (b.refill inbox).got := by
  unfold refill
  split
  · rename_i used
    rw [unread_of_used used]
    simp [unread, slice]
  · simp

theorem refill_weight (b : ReadBuffer) (inbox : List RecvResult) :
    (b.refill inbox).queue.effort (b.refill inbox).inbox ≤ b.effort inbox := by
  rw [effort, effort, refill_unread, List.length_append]
  unfold refill
  split
  · have := (recv_weight inbox).1
    simp only
    omega
  · simp

/-- The reallocation keeps the accumulated bytes and makes room for the wanted ones. -/
theorem grow_held {b : ReadBuffer} (valid : b.Valid) (size : Nat) : (b.grow size).held = b.held :=
  WrappedBuffer.take_realloc (Nat.le_add_right ..) valid.cursor

theorem grow_room (b : ReadBuffer) (size : Nat) :
    (b.grow size).cursor + size ≤ (b.grow size).buffer.length := by
  simp only [grow, WrappedBuffer.length_realloc]
  exact le_allocatedFor _

theorem grow_valid {b : ReadBuffer} (valid : b.Valid) {size : Nat} (positive : 0 < size) :
    (b.grow size).Valid := by
  have room := grow_room b size
  have same : (b.grow size).cursor = b.cursor := rfl
  exact ⟨valid.loc, valid.size, valid.filled, by omega, by omega⟩

theorem refill_grow_held {b : ReadBuffer} (valid : b.Valid) (size : Nat) (inbox : List RecvResult) :
    ((b.grow size).refill inbox).queue.held = b.held := by
  rw [← grow_held valid size]
  simp [held]

theorem copied (b : ReadBuffer) (size : Nat) :
    slice b.rbLoc (b.rd size) b.recvBuffer = b.unread.take size := by
  rw [unread, slice, slice, List.take_take, rd]

theorem Valid.copied_length {b : ReadBuffer} (valid : b.Valid) (size : Nat) :
    (b.unread.take size).length = b.rd size := by
  rw [List.length_take, valid.unread_length, rd]

theorem copyOut_held {b : ReadBuffer} (valid : b.Valid) (size : Nat) :
    (b.copyOut size).held = b.held ++ b.unread.take size := by
  have copy : (WrappedBuffer.blit b.buffer b.cursor (b.unread.take size)).take
      (b.cursor + (b.unread.take size).length) = b.buffer.take b.cursor ++ b.unread.take size :=
    WrappedBuffer.take_blit valid.cursor
  rw [valid.copied_length] at copy
  simpa only [held, copyOut, copied] using copy

theorem copyOut_unread (b : ReadBuffer) (size : Nat) :
    (b.copyOut size).unread = b.unread.drop size := by
  simp only [unread, copyOut, slice, List.drop_take, List.drop_drop, rd]
  by_cases less : size ≤ b.rbSize - b.rbLoc
  · rw [Nat.min_eq_left less]
    congr 1
    omega
  · rw [Nat.min_eq_right (by omega)]
    have : b.rbSize - (b.rbLoc + (b.rbSize - b.rbLoc)) = 0 := by omega
    have : b.rbSize - b.rbLoc - size = 0 := by omega
    simp [*]

theorem copyOut_valid {b : ReadBuffer} (valid : b.Valid) {size : Nat}
    (room : b.cursor + size ≤ b.buffer.length) : (b.copyOut size).Valid := by
  have available : b.rd size ≤ b.rbSize - b.rbLoc := Nat.min_le_right ..
  have wanted : b.rd size ≤ size := Nat.min_le_left ..
  have loc := valid.loc
  have inside : b.cursor + (b.unread.take size).length ≤ b.buffer.length := by
    rw [valid.copied_length]; omega
  have length : (b.copyOut size).buffer.length = b.buffer.length := by
    simp only [copyOut, copied]
    exact WrappedBuffer.length_blit inside
  refine ⟨?_, valid.size, valid.filled, ?_, ?_⟩
  · show b.rbLoc + b.rd size ≤ b.rbSize
    omega
  · rw [length]
    show b.cursor + b.rd size ≤ _
    omega
  · rw [length]
    exact valid.room

theorem doReadOf_valid {b : ReadBuffer} (valid : b.Valid) {size : Nat} (some_ : 0 < size)
    (inbox : List RecvResult) : (b.doReadOf size inbox).queue.Valid := by
  have filled := refill_valid (grow_valid valid some_) inbox
  simp only [doReadOf]
  split
  · exact filled
  · exact copyOut_valid filled (by simpa using grow_room b size)

theorem doRead_valid {b : ReadBuffer} (valid : b.Valid) (hungry : 0 < b.toRead)
    (inbox : List RecvResult) : (b.doRead inbox).queue.Valid := by
  rw [doRead_eq_doReadOf]
  exact doReadOf_valid valid hungry inbox

/-- What a call copies goes to the end of `held`, and is what comes first of the unread bytes and
of those `recv` delivers. -/
theorem doReadOf_moves {b : ReadBuffer} (valid : b.Valid) {size : Nat} (some_ : 0 < size)
    (inbox : List RecvResult) :
    (b.doReadOf size inbox).queue.held = b.held ++ b.movedBy size inbox ∧
      b.movedBy size inbox ++ (b.doReadOf size inbox).queue.unread =
        b.unread ++ (b.doReadOf size inbox).got := by
  have filled := refill_valid (grow_valid valid some_) inbox
  have sameHeld := refill_grow_held valid size inbox
  have waiting : ((b.grow size).refill inbox).queue.unread =
      b.unread ++ ((b.grow size).refill inbox).got := refill_unread (b.grow size) inbox
  simp only [doReadOf]
  split
  next used =>
    rw [movedBy, ← waiting, unread_of_used used, List.take_nil]
    exact ⟨by rw [sameHeld, List.append_nil], rfl⟩
  next more =>
    refine ⟨?_, ?_⟩
    · rw [copyOut_held filled, sameHeld, movedBy]
    · rw [copyOut_unread, movedBy, List.take_append_drop, waiting]

/-- What one `do_read` of a hungry buffer can do. -/
theorem doRead_cases {b : ReadBuffer} (valid : b.Valid) (hungry : 0 < b.toRead)
    (inbox : List RecvResult) :
    (∃ bytes, Moved b inbox (b.doRead inbox) bytes) ∨ Stopped b inbox (b.doRead inbox) := by
  have filled := refill_valid (grow_valid valid hungry) inbox
  have waiting : ((b.grow b.toRead).refill inbox).queue.unread =
      b.unread ++ ((b.grow b.toRead).refill inbox).got := refill_unread (b.grow b.toRead) inbox
  have sameHeld := refill_grow_held valid b.toRead inbox
  simp only [doRead]
  split
  · rename_i used
    right
    have empty := unread_of_used used
    obtain ⟨dry, got⟩ := List.append_eq_nil_iff.1 (waiting.symm.trans empty)
    have asked : b.rbSize ≤ b.rbLoc := by
      have := congrArg List.length dry
      rw [valid.unread_length, List.length_nil] at this
      omega
    have answered : (b.grow b.toRead).refill inbox =
        { queue := ((b.grow b.toRead).refill inbox).queue, ret := (recv inbox).1.ret
          inbox := (recv inbox).2, got := (recv inbox).1.bytes } := by
      simp [refill, grow, asked]
    have nothing : (recv inbox).1.bytes = [] := by rw [answered] at got; exact got
    refine ⟨dry, got, sameHeld, by simp [grow], empty, ?_, by rw [answered]⟩
    rw [answered]
    cases h : (recv inbox).1 with
    | data chunk =>
        rw [h] at nothing
        have := chunk.nonempty
        rw [show chunk.bytes = [] from nothing] at this
        exact absurd this (by simp)
    | eof => exact Or.inl ⟨rfl, rfl⟩
    | err e => exact Or.inr ⟨e, rfl, rfl⟩
  · rename_i more
    left
    have light := refill_weight (b.grow b.toRead) inbox
    have sameEffort : (b.grow b.toRead).effort inbox = b.effort inbox := rfl
    have taken := filled.copied_length b.toRead
    have positive : 0 < ((b.grow b.toRead).refill inbox).queue.rd b.toRead := by
      simp only [rd]; omega
    refine ⟨((b.grow b.toRead).refill inbox).queue.unread.take b.toRead, ?_⟩
    constructor
    · omega
    · rw [List.length_take]; omega
    · rw [taken]
    · rw [copyOut_held filled, sameHeld]
    · rw [taken]; simp [copyOut, grow]
    · rw [copyOut_unread, List.take_append_drop, waiting]
    · exact refill_took (by omega)
    · rw [List.length_take] at taken
      simp only [effort, copyOut_unread, List.length_drop] at light sameEffort ⊢
      omega

/-! ## The loop around it -/

/-- The loop collected exactly what was wanted. -/
structure Filled (b : ReadBuffer) (inbox : List RecvResult) (s : ReadStep) (bytes : List UInt8) :
    Prop where
  length : bytes.length = b.toRead
  ret : s.ret = .count 1
  held : s.queue.held = b.held ++ bytes
  toRead : s.queue.toRead = 0
  conserved : b.unread ++ s.got = bytes ++ s.queue.unread
  took : ∃ answers, inbox = answers ++ s.inbox ∧ AllData answers ∧ s.got = stream answers
  effort : s.queue.effort s.inbox ≤ b.effort inbox
  lighter : 0 < b.toRead → s.queue.effort s.inbox < b.effort inbox

/-- The kernel ran dry first: everything received is in `held`, and the answer
that ended the loop is returned. -/
structure Short (b : ReadBuffer) (inbox : List RecvResult) (s : ReadStep) (bytes : List UInt8) :
    Prop where
  length : bytes.length < b.toRead
  held : s.queue.held = b.held ++ bytes
  toRead : s.queue.toRead = b.toRead - bytes.length
  unread : s.queue.unread = []
  conserved : b.unread ++ s.got = bytes
  took : ∃ answers rest, inbox = answers ++ rest ∧ AllData answers ∧ s.got = stream answers ∧
    s.inbox = (recv rest).2 ∧ ((recv rest).1 = .eof ∧ s.ret = .count 0 ∨
      ∃ e, (recv rest).1 = .err e ∧ s.ret = .fail e)

/-- A loop that filled up has left the rest of the answers for later. -/
theorem Filled.delivered {b : ReadBuffer} {inbox : List RecvResult} {s : ReadStep}
    {bytes : List UInt8} (filled : Filled b inbox s bytes) :
    stream (leading inbox) = s.got ++ stream (leading s.inbox) := by
  obtain ⟨answers, split, data, got⟩ := filled.took
  have lead : leading inbox = answers ++ leading s.inbox := by
    rw [split]
    exact data.leading_append _
  rw [lead, stream_append, got]

/-- A loop that ran dry has taken all the kernel had. -/
theorem Short.delivered {b : ReadBuffer} {inbox : List RecvResult} {s : ReadStep}
    {bytes : List UInt8} (short : Short b inbox s bytes) : stream (leading inbox) = s.got := by
  obtain ⟨answers, rest, split, data, got, -, answer⟩ := short.took
  have finished : leading rest = [] := by
    cases rest with
    | nil => rfl
    | cons r rest =>
        rcases answer with ⟨here, -⟩ | ⟨e, here, -⟩
        · rw [show r = .eof from here]
          rfl
        · rw [show r = .err e from here]
          rfl
  rw [split, data.leading_append, finished, List.append_nil, got]

theorem filled_of_not_hungry {b : ReadBuffer} {inbox : List RecvResult} (full : b.toRead = 0) :
    Filled b inbox ⟨b, .count 1, inbox, []⟩ [] :=
  ⟨by simp [full], rfl, by simp, full, by simp, ⟨[], rfl, by simp [AllData], rfl⟩,
    Nat.le_refl _, by omega⟩

/-- A round of the loop followed by a loop that fills up is a loop that fills up. -/
theorem Moved.filled {b : ReadBuffer} {inbox : List RecvResult} {s t : ReadStep}
    {first rest : List UInt8} (moved : Moved b inbox s first)
    (filled : Filled s.queue s.inbox t rest) :
    Filled b inbox { t with got := s.got ++ t.got } (first ++ rest) := by
  have wanted := moved.wanted
  obtain ⟨early, inbox₁, data₁, got₁⟩ := moved.took
  obtain ⟨late, inbox₂, data₂, got₂⟩ := filled.took
  constructor
  · rw [List.length_append, filled.length, moved.toRead]; omega
  · exact filled.ret
  · rw [filled.held, moved.held, List.append_assoc]
  · exact filled.toRead
  · rw [← List.append_assoc, moved.conserved, List.append_assoc, filled.conserved,
      List.append_assoc]
  · exact ⟨early ++ late, by rw [inbox₁, inbox₂, List.append_assoc], data₁.append data₂,
      by rw [stream_append, got₁, got₂]⟩
  · exact le_trans filled.effort moved.lighter.le
  · exact fun _ => lt_of_le_of_lt filled.effort moved.lighter

theorem Moved.short {b : ReadBuffer} {inbox : List RecvResult} {s t : ReadStep}
    {first rest : List UInt8} (moved : Moved b inbox s first)
    (short : Short s.queue s.inbox t rest) :
    Short b inbox { t with got := s.got ++ t.got } (first ++ rest) := by
  obtain ⟨early, inbox₁, data₁, got₁⟩ := moved.took
  obtain ⟨late, last, inbox₂, data₂, got₂, answer⟩ := short.took
  have less := short.length
  rw [moved.toRead] at less
  constructor
  · rw [List.length_append]; omega
  · rw [short.held, moved.held, List.append_assoc]
  · rw [short.toRead, moved.toRead, List.length_append]; omega
  · exact short.unread
  · rw [← List.append_assoc, moved.conserved, List.append_assoc, short.conserved]
  · exact ⟨early ++ late, last, by rw [inbox₁, inbox₂, List.append_assoc], data₁.append data₂,
      by rw [stream_append, got₁, got₂], answer⟩

/-- A call that stops the loop in its first round. -/
theorem Stopped.short {b : ReadBuffer} {inbox : List RecvResult} {s : ReadStep}
    (stopped : Stopped b inbox s) (hungry : 0 < b.toRead) : Short b inbox s [] := by
  constructor
  · exact hungry
  · rw [stopped.held, List.append_nil]
  · rw [stopped.toRead, List.length_nil, Nat.sub_zero]
  · exact stopped.unread
  · rw [stopped.dry, stopped.got, List.append_nil]
  · exact ⟨[], inbox, rfl, by simp [AllData], stopped.got, stopped.inbox, stopped.answer⟩

theorem fillAux_cases {b : ReadBuffer} (valid : b.Valid) {inbox : List RecvResult} {fuel : Nat}
    (enough : b.effort inbox < fuel) :
    (fillAux fuel b inbox).queue.Valid ∧
      ((∃ bytes, Filled b inbox (fillAux fuel b inbox) bytes) ∨
        ∃ bytes, Short b inbox (fillAux fuel b inbox) bytes) := by
  induction fuel generalizing b inbox with
  | zero => omega
  | succ fuel ih =>
      by_cases hungry : 0 < b.toRead
      · have next := doRead_valid valid hungry inbox
        simp only [fillAux, ReadBuffer.hungry, hungry, decide_true, if_true]
        rcases doRead_cases valid hungry inbox with ⟨first, moved⟩ | stopped
        · have positive := moved.some
          have light := moved.lighter
          obtain ⟨n, hn⟩ : ∃ n, first.length = n + 1 := ⟨first.length - 1, by omega⟩
          simp only [moved.ret, hn]
          have less : (b.doRead inbox).queue.effort (b.doRead inbox).inbox < fuel := by omega
          obtain ⟨after, ⟨rest, filled⟩ | ⟨rest, short⟩⟩ := ih next less
          · exact ⟨after, Or.inl ⟨_, moved.filled filled⟩⟩
          · exact ⟨after, Or.inr ⟨_, moved.short short⟩⟩
        · rcases stopped.answer with ⟨-, ret⟩ | ⟨e, -, ret⟩
          · simp only [ret]
            exact ⟨next, Or.inr ⟨[], stopped.short hungry⟩⟩
          · simp only [ret]
            exact ⟨next, Or.inr ⟨[], stopped.short hungry⟩⟩
      · have full : b.toRead = 0 := by omega
        simp only [fillAux, ReadBuffer.hungry, full, gt_iff_lt, Nat.lt_irrefl, decide_false]
        exact ⟨valid, Or.inl ⟨[], filled_of_not_hungry full⟩⟩

/-- The loop ends: with everything wanted, or with an answer that is no data. -/
theorem fill_cases {b : ReadBuffer} (valid : b.Valid) (inbox : List RecvResult) :
    (b.fill inbox).queue.Valid ∧
      ((∃ bytes, Filled b inbox (b.fill inbox) bytes) ∨
        ∃ bytes, Short b inbox (b.fill inbox) bytes) :=
  fillAux_cases valid (Nat.lt_succ_self _)

end ReadBuffer

end Coinscope.Shared

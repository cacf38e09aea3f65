/-
# Shared.WriteBuffer -- the write queue

A `write_buffer` is a list of buffers, each with the part already written and
the part valid to write, and a running count of the bytes left.  `do_write`
offers the kernel what is left of the first buffer and drops the buffer when all
of it is accepted.

* `pending` -- the bytes appended and not yet accepted, in order.
* `doWrite_spec` -- the accepted bytes followed by what is pending afterwards are
  what was pending before, whatever the kernel answers.
* `Valid` -- the count is the length of `pending` and no buffer in the list is
  used up; appends of at least one byte and every `do_write` keep it.
-/
import Coinscope.Shared.Socket
import Coinscope.Shared.WrappedBuffer

namespace Coinscope.Shared

open Coinscope.Theory.Bytes

set_option autoImplicit false

/-- `write_buffer::buffer_container`. -/
structure BufferContainer where
  cursor : Nat
  writable : Nat
  buffer : List UInt8
  deriving DecidableEq

/-- The valid, not yet written bytes of one buffer. -/
def BufferContainer.left (c : BufferContainer) : List UInt8 :=
  slice c.cursor (c.writable - c.cursor) c.buffer

/-- `class write_buffer`. -/
structure WriteBuffer where
  toWrite : Nat
  buffers : List BufferContainer
  deriving DecidableEq

/-- One `do_write`: the queue after it, what it returned, the outbox behind it
and the bytes the kernel accepted. -/
structure WriteStep where
  queue : WriteBuffer
  ret : Ret
  outbox : List WriteResult
  put : List UInt8

namespace WriteBuffer

def new : WriteBuffer := ⟨0, []⟩

/-- `append(ptr, len)`: a copy of the `len` bytes at `ptr`. -/
def append (w : WriteBuffer) (bytes : List UInt8) : WriteBuffer where
  toWrite := w.toWrite + bytes.length
  buffers := w.buffers ++
    [⟨0, bytes.length, WrappedBuffer.blit (WrappedBuffer.ofSize bytes.length) 0 bytes⟩]

/-- `append(buf, len)`: a share of `buf`, of which the first `len` bytes count. -/
def appendShared (w : WriteBuffer) (buf : List UInt8) (len : Nat) : WriteBuffer where
  toWrite := w.toWrite + len
  buffers := w.buffers ++ [⟨0, len, buf⟩]

/-- `do_write(fd)`.  It asserts that there is something to write and a buffer to
write it from; without a buffer it does nothing here. -/
def doWrite (w : WriteBuffer) (fd : Int) (outbox : List WriteResult) : WriteStep :=
  match w.buffers with
  | [] => ⟨w, .count 0, outbox, []⟩
  | curbuf :: rest =>
      let minWrite := min w.toWrite (curbuf.writable - curbuf.cursor)
      let answer := Shared.write fd (slice curbuf.cursor minWrite curbuf.buffer) outbox
      let put := answer.2.1
      let curbuf := { curbuf with cursor := curbuf.cursor + put.length }
      { queue := ⟨w.toWrite - put.length,
          if curbuf.cursor = curbuf.writable then rest else curbuf :: rest⟩
        ret := answer.1
        outbox := answer.2.2
        put := put }

/-- The loop `while (to_write() && r > 0) { r = do_write(fd).first; }` around every
`do_write`, entered with `r = 1`.  Every round uses up an answer of the outbox. -/
def flush (fd : Int) : List WriteResult → WriteBuffer → WriteStep
  | [], w => if w.toWrite = 0 then ⟨w, .count 1, [], []⟩ else w.doWrite fd []
  | answer :: rest, w =>
      if w.toWrite = 0 then ⟨w, .count 1, answer :: rest, []⟩
      else
        let s := w.doWrite fd (answer :: rest)
        match s.ret with
        | .count (_ + 1) =>
            let t := flush fd rest s.queue
            { t with put := s.put ++ t.put }
        | _ => s

/-! ## What is left to write -/

def pending (w : WriteBuffer) : List UInt8 := w.buffers.flatMap BufferContainer.left

structure Valid (w : WriteBuffer) : Prop where
  count : w.toWrite = w.pending.length
  live : ∀ c ∈ w.buffers, c.cursor < c.writable ∧ c.writable ≤ c.buffer.length

theorem new_valid : new.Valid := ⟨rfl, by simp [new]⟩

@[simp] theorem new_pending : new.pending = [] := rfl

theorem left_length {c : BufferContainer} (inside : c.writable ≤ c.buffer.length)
    (started : c.cursor ≤ c.writable) : c.left.length = c.writable - c.cursor :=
  slice_length (by omega)

@[simp] theorem append_pending (w : WriteBuffer) (bytes : List UInt8) :
    (w.append bytes).pending = w.pending ++ bytes := by
  have copied : (WrappedBuffer.blit (WrappedBuffer.ofSize bytes.length) 0 bytes).take
      (0 + bytes.length) = (WrappedBuffer.ofSize bytes.length).take 0 ++ bytes :=
    WrappedBuffer.take_blit (Nat.zero_le _)
  simp only [Nat.zero_add, List.take_zero, List.nil_append] at copied
  simp [pending, append, BufferContainer.left, slice, copied]

@[simp] theorem appendShared_pending (w : WriteBuffer) (buf : List UInt8) (len : Nat) :
    (w.appendShared buf len).pending = w.pending ++ buf.take len := by
  simp [pending, appendShared, BufferContainer.left, slice]

theorem Valid.append {w : WriteBuffer} (valid : w.Valid) {bytes : List UInt8}
    (some_ : 0 < bytes.length) : (w.append bytes).Valid := by
  constructor
  · rw [append_pending, List.length_append, ← valid.count]
    rfl
  · intro c member
    rcases List.mem_append.1 member with old | new
    · exact valid.live c old
    · rw [List.mem_singleton] at new
      subst new
      have room := le_allocatedFor bytes.length
      refine ⟨some_, ?_⟩
      rw [WrappedBuffer.length_blit (by simpa using room)]
      simpa using room

theorem Valid.appendShared {w : WriteBuffer} (valid : w.Valid) {buf : List UInt8} {len : Nat}
    (some_ : 0 < len) (inside : len ≤ buf.length) : (w.appendShared buf len).Valid := by
  constructor
  · rw [appendShared_pending, List.length_append, List.length_take, ← valid.count,
      Nat.min_eq_left inside]
    rfl
  · intro c member
    rcases List.mem_append.1 member with old | new
    · exact valid.live c old
    · rw [List.mem_singleton] at new
      subst new
      exact ⟨some_, inside⟩

theorem Valid.toWrite_eq_zero {w : WriteBuffer} (valid : w.Valid) :
    w.toWrite = 0 ↔ w.pending = [] := by
  rw [valid.count, List.length_eq_zero_iff]

/-- Nothing is left exactly when no buffer is. -/
theorem Valid.pending_eq_nil {w : WriteBuffer} (valid : w.Valid) :
    w.pending = [] ↔ w.buffers = [] := by
  constructor
  · intro empty
    cases h : w.buffers with
    | nil => rfl
    | cons c rest =>
        have live := valid.live c (h ▸ List.mem_cons_self)
        have none_ : c.left = [] := by
          rw [pending, h, List.flatMap_cons] at empty
          exact (List.append_eq_nil_iff.1 empty).1
        have := left_length live.2 live.1.le
        rw [none_, List.length_nil] at this
        omega
  · intro none_
    rw [pending, none_]
    rfl

/-- Advancing a buffer by what was accepted of it leaves the rest. -/
theorem left_advance (c : BufferContainer) (n : Nat) :
    ({ c with cursor := c.cursor + n } : BufferContainer).left = c.left.drop n := by
  simp only [BufferContainer.left, slice, List.drop_take, List.drop_drop]
  rw [Nat.sub_sub]

/-- Accepting `n` bytes of the first buffer, which is dropped when they are the last. -/
def accept (w : WriteBuffer) (c : BufferContainer) (rest : List BufferContainer) (n : Nat) :
    WriteBuffer :=
  ⟨w.toWrite - n,
    if c.cursor + n = c.writable then rest else { c with cursor := c.cursor + n } :: rest⟩

theorem accept_pending {w : WriteBuffer} (valid : w.Valid) {c : BufferContainer}
    {rest : List BufferContainer} (first : w.buffers = c :: rest) (n : Nat) :
    c.left.take n ++ (w.accept c rest n).pending = w.pending := by
  have live := valid.live c (first ▸ List.mem_cons_self)
  have lengthLeft := left_length live.2 live.1.le
  have whole : w.pending = c.left ++ rest.flatMap BufferContainer.left := by
    rw [pending, first, List.flatMap_cons]
  rw [whole, pending, accept]
  by_cases done : c.cursor + n = c.writable
  · rw [if_pos done, List.take_of_length_le (by omega)]
  · rw [if_neg done, List.flatMap_cons, left_advance, ← List.append_assoc, List.take_append_drop]

theorem accept_valid {w : WriteBuffer} (valid : w.Valid) {c : BufferContainer}
    {rest : List BufferContainer} (first : w.buffers = c :: rest) {n : Nat}
    (offered : n ≤ c.left.length) : (w.accept c rest n).Valid := by
  have live := valid.live c (first ▸ List.mem_cons_self)
  have lengthLeft := left_length live.2 live.1.le
  have conserved := congrArg List.length (accept_pending valid first n)
  rw [List.length_append, List.length_take, Nat.min_eq_left offered, ← valid.count] at conserved
  constructor
  · show w.toWrite - n = _
    omega
  · intro d member
    simp only [accept] at member
    split at member
    · exact valid.live d (first ▸ List.mem_cons_of_mem _ member)
    · rcases List.mem_cons.1 member with rfl | later
      · exact ⟨by simp only; omega, live.2⟩
      · exact valid.live d (first ▸ List.mem_cons_of_mem _ later)

theorem doWrite_eq_accept {w : WriteBuffer} (valid : w.Valid) {c : BufferContainer}
    {rest : List BufferContainer} (first : w.buffers = c :: rest) (fd : Int)
    (outbox : List WriteResult) :
    w.doWrite fd outbox =
      { queue := w.accept c rest (Shared.write fd c.left outbox).2.1.length
        ret := (Shared.write fd c.left outbox).1
        outbox := (Shared.write fd c.left outbox).2.2
        put := (Shared.write fd c.left outbox).2.1 } := by
  have live := valid.live c (first ▸ List.mem_cons_self)
  have lengthLeft := left_length live.2 live.1.le
  have offered : slice c.cursor (min w.toWrite (c.writable - c.cursor)) c.buffer = c.left := by
    have enough : c.writable - c.cursor ≤ w.toWrite := by
      rw [valid.count, pending, first, List.flatMap_cons, List.length_append]; omega
    rw [Nat.min_eq_right enough, BufferContainer.left]
  simp only [doWrite, first, offered, accept]

/-- One `do_write`: the accepted bytes were the front of the queue. -/
theorem doWrite_spec {w : WriteBuffer} (valid : w.Valid) (fd : Int) (outbox : List WriteResult) :
    (w.doWrite fd outbox).queue.Valid ∧
      (w.doWrite fd outbox).put ++ (w.doWrite fd outbox).queue.pending = w.pending ∧
      ((w.doWrite fd outbox).ret = .count (w.doWrite fd outbox).put.length ∨
        ∃ e, (w.doWrite fd outbox).ret = .fail e ∧ (w.doWrite fd outbox).put = []) := by
  cases first : w.buffers with
  | nil => simp [doWrite, first, valid]
  | cons c rest =>
      rw [doWrite_eq_accept valid first]
      rcases Shared.write_spec fd c.left outbox with ⟨n, offered, ret, put⟩ | ⟨e, ret, put⟩
      · have length : (c.left.take n).length = n := by rw [List.length_take, Nat.min_eq_left offered]
        simp only [ret, put, length]
        exact ⟨accept_valid valid first offered, accept_pending valid first n, Or.inl trivial⟩
      · have pending := accept_pending valid first 0
        simp only [ret, put, List.length_nil]
        exact ⟨accept_valid valid first (Nat.zero_le _), by simpa using pending,
          Or.inr ⟨e, rfl, trivial⟩⟩

/-! ## The loop around it -/

/-- What the loop leaves: the queue is empty, or an answer that accepted nothing
ended it with bytes still queued. -/
structure Flushed (w : WriteBuffer) (s : WriteStep) : Prop where
  valid : s.queue.Valid
  conserved : s.put ++ s.queue.pending = w.pending
  ended : s.ret = .count 1 ∧ s.queue.toWrite = 0 ∨
    0 < s.queue.toWrite ∧ (s.ret = .count 0 ∨ ∃ e, s.ret = .fail e)

theorem flushed_of_empty {w : WriteBuffer} (valid : w.Valid) (empty : w.toWrite = 0)
    (outbox : List WriteResult) : Flushed w ⟨w, .count 1, outbox, []⟩ :=
  ⟨valid, rfl, Or.inl ⟨rfl, empty⟩⟩

/-- A `do_write` that accepts nothing ends the loop. -/
theorem doWrite_flushed {w : WriteBuffer} (valid : w.Valid) (more : w.toWrite ≠ 0) {fd : Int}
    {outbox : List WriteResult} (ended : ∀ n, (w.doWrite fd outbox).ret ≠ .count (n + 1)) :
    Flushed w (w.doWrite fd outbox) := by
  obtain ⟨after, conserved, accepted⟩ := doWrite_spec valid fd outbox
  have nothing : (w.doWrite fd outbox).put = [] := by
    rcases accepted with count | ⟨e, -, none_⟩
    · cases h : (w.doWrite fd outbox).put with
      | nil => rfl
      | cons b rest => exact absurd count (by rw [h]; exact ended rest.length)
    · exact none_
  have same : (w.doWrite fd outbox).queue.toWrite = w.toWrite := by
    rw [after.count, valid.count, ← conserved, nothing, List.nil_append]
  refine ⟨after, conserved, Or.inr ⟨by omega, ?_⟩⟩
  rcases accepted with count | ⟨e, fail, -⟩
  · rw [nothing] at count
    exact Or.inl count
  · exact Or.inr ⟨e, fail⟩

theorem flush_flushed (fd : Int) (outbox : List WriteResult) {w : WriteBuffer} (valid : w.Valid) :
    Flushed w (flush fd outbox w) := by
  induction outbox generalizing w with
  | nil =>
      by_cases empty : w.toWrite = 0
      · simp only [flush, empty, if_true]
        exact flushed_of_empty valid empty []
      · simp only [flush, empty, if_false]
        apply doWrite_flushed valid empty
        intro n
        cases first : w.buffers with
        | nil => simp [doWrite, first]
        | cons c rest =>
            rw [doWrite_eq_accept valid first]
            unfold Shared.write
            split <;> simp
  | cons answer rest ih =>
      by_cases empty : w.toWrite = 0
      · simp only [flush, empty, if_true]
        exact flushed_of_empty valid empty _
      · simp only [flush, empty, if_false]
        split
        · obtain ⟨after, conserved, -⟩ := doWrite_spec valid fd (answer :: rest)
          obtain ⟨final, later, ended⟩ := ih after
          exact ⟨final, by rw [List.append_assoc, later, conserved], ended⟩
        · rename_i other
          exact doWrite_flushed valid empty other

/-- With nothing to write the loop is not entered. -/
theorem flush_empty {w : WriteBuffer} (empty : w.toWrite = 0) (fd : Int)
    (outbox : List WriteResult) : flush fd outbox w = ⟨w, .count 1, outbox, []⟩ := by
  cases outbox with
  | nil => simp [flush, empty]
  | cons answer rest => simp [flush, empty]

/-- An open descriptor may take everything. -/
theorem exists_flush {fd : Int} (isOpen : 0 ≤ fd) {w : WriteBuffer} (valid : w.Valid) :
    ∃ outbox, (flush fd outbox w).ret = .count 1 ∧ (flush fd outbox w).queue.toWrite = 0 := by
  generalize bound : w.toWrite = n
  induction n using Nat.strongRecOn generalizing w with
  | ind n ih =>
      by_cases empty : w.toWrite = 0
      · exact ⟨[], by rw [flush_empty empty], by rw [flush_empty empty]; exact empty⟩
      · cases first : w.buffers with
        | nil => exact absurd ((valid.toWrite_eq_zero).2 ((valid.pending_eq_nil).2 first)) empty
        | cons c rest =>
            have live := valid.live c (first ▸ List.mem_cons_self)
            have some_ : 0 < c.left.length := by
              rw [left_length live.2 live.1.le]
              omega
            have step : ∀ outbox, w.doWrite fd (.accept c.left.length :: outbox) =
                ⟨w.accept c rest c.left.length, .count c.left.length, outbox, c.left⟩ := by
              intro outbox
              rw [doWrite_eq_accept valid first, Shared.write, if_neg (by omega)]
              simp
            have after := accept_valid valid first (Nat.le_refl _)
            have less : (w.accept c rest c.left.length).toWrite < n := by
              show w.toWrite - c.left.length < n
              omega
            obtain ⟨outbox, ret, done⟩ := ih _ less after rfl
            obtain ⟨k, count⟩ : ∃ k, c.left.length = k + 1 := ⟨c.left.length - 1, by omega⟩
            refine ⟨.accept c.left.length :: outbox, ?_, ?_⟩
            · simp only [flush, empty, if_false, step]
              rw [count] at ret ⊢
              exact ret
            · simp only [flush, empty, if_false, step]
              rw [count] at done ⊢
              exact done

/-- Every `write` to a closed descriptor fails, so the loop ends at once. -/
theorem flush_closed {fd : Int} (closed : fd < 0) (outbox : List WriteResult) {w : WriteBuffer}
    (valid : w.Valid) (more : w.toWrite ≠ 0) :
    (flush fd outbox w).ret = .fail .ebadf ∧ (flush fd outbox w).put = [] := by
  have refused : ∀ answers, (w.doWrite fd answers).ret = .fail .ebadf ∧
      (w.doWrite fd answers).put = [] := by
    intro answers
    cases first : w.buffers with
    | nil =>
        have none_ := (valid.pending_eq_nil).2 first
        exact absurd ((valid.toWrite_eq_zero).2 none_) more
    | cons c rest =>
        rw [doWrite_eq_accept valid first]
        simp [Shared.write, closed]
  cases outbox with
  | nil => simpa [flush, more] using refused []
  | cons answer rest =>
      obtain ⟨ret, put⟩ := refused (answer :: rest)
      simp [flush, more, ret, put]

end WriteBuffer

end Coinscope.Shared

/-
# Shared.CopyOnWrite -- `wrapped_buffer` over the heap

A `wrapped_buffer` has an `alloc_buffer`, an `mmap_buffer` or neither, and moves from the one to
the other where `realloc` crosses the threshold.  The two pointers are only ever moved and
swapped, so the buffer behind one has one owner and stands here in the place of the pointer.

* `Wrapped` -- the class.
* `Has` -- a variable holds this block now, or none, and has these bytes.
* `Wrapped.copy_spec`, `Wrapped.destroy_spec`, `Wrapped.new_spec`, `Wrapped.realloc_spec` and
  `Wrapped.write_spec` -- what an operation of one variable does; the bytes are those of the value
  model (`WrappedBuffer`).
-/
import Coinscope.Shared.CowHolders
import Mathlib.Algebra.Order.Group.Multiset

namespace Coinscope.Shared

open Coinscope.Theory.Bytes
open Coinscope.Theory.SharedBlocks

set_option autoImplicit false

/-! ## The class -/

/-- `class wrapped_buffer`. -/
structure Wrapped where
  mbuffer : Option Handle
  abuffer : Option Handle
  deriving DecidableEq

namespace Wrapped

/-- `wrapped_buffer()`, and what a move leaves. -/
def null : Wrapped := ⟨none, none⟩

/-- `wrapped_buffer(n)`. -/
def new (junk : Junk) (elt n : Nat) (m : Memory) : Except Fault (Wrapped × Memory) :=
  if n ≠ 0 then
    if n * elt > mmapThreshold then do
      let (h, m) ← MmapBuffer.new elt n m
      return (⟨some h, none⟩, m)
    else do
      let (h, m) ← AllocBuffer.new junk elt n m
      return (⟨none, some h⟩, m)
  else return (null, m)

/-- The copy constructor. -/
def copy (w : Wrapped) (m : Memory) : Except Fault (Wrapped × Memory) :=
  match w.mbuffer, w.abuffer with
  | some h, _ => do
      let (h, m) ← h.copy m
      return (⟨some h, none⟩, m)
  | none, some h => do
      let (h, m) ← h.copy m
      return (⟨none, some h⟩, m)
  | none, none => return (null, m)

/-- `delete` of a pointer to one of the two. -/
def delete (backing : Backing) (p : Option Handle) (m : Memory) : Except Fault Memory :=
  match p with
  | none => return m
  | some h => h.destroy backing m

/-- `~wrapped_buffer()`. -/
def destroy (w : Wrapped) (m : Memory) : Except Fault Memory := do
  let m ← delete .mmap w.mbuffer m
  delete .malloc w.abuffer m

/-- `operator=`, with its argument made by copying or moving: the two are swapped, and the
argument is destroyed. -/
def assign (w other : Wrapped) (m : Memory) : Except Fault (Wrapped × Memory) := do
  let m ← w.destroy m
  return (other, m)

/-- What `realloc` does to get from one of the two to the other: copy what fits from the old
buffer, and delete that. -/
def migrate (junk : Junk) (backing backing' : Backing) (old new : Handle) (m : Memory) :
    Except Fault (Handle × Memory) := do
  let toCopy := min new.allocated old.allocated
  let (new, m) ← new.ptr junk backing' m
  if old.buffer.isNone then throw (.threw "Invalid buffer")
  let m ← m.memcpy new.buffer old.buffer toCopy
  let m ← old.destroy backing m
  return (new, m)

/-- `realloc(n)`. -/
def realloc (junk : Junk) (elt n : Nat) (w : Wrapped) (m : Memory) :
    Except Fault (Wrapped × Memory) :=
  if n * elt > mmapThreshold then
    match w.mbuffer, w.abuffer with
    | some h, a => do
        let (h, m) ← MmapBuffer.realloc junk elt n h m
        return (⟨some h, a⟩, m)
    | none, some a => do
        let (h, m) ← MmapBuffer.new elt n m
        let (h, m) ← migrate junk .malloc .mmap a h m
        return (⟨some h, none⟩, m)
    | none, none => do
        let (h, m) ← MmapBuffer.new elt n m
        return (⟨some h, none⟩, m)
  else
    match w.mbuffer, w.abuffer with
    | some h, _ => do
        let (a, m) ← AllocBuffer.new junk elt n m
        let (a, m) ← migrate junk .mmap .malloc h a m
        return (⟨none, some a⟩, m)
    | none, some a => do
        let (a, m) ← AllocBuffer.realloc junk elt n a m
        return (⟨none, some a⟩, m)
    | none, none => do
        let (a, m) ← AllocBuffer.new junk elt n m
        return (⟨none, some a⟩, m)

/-- `ptr()`: the variable behind it, and the pointer. -/
def ptr (junk : Junk) (w : Wrapped) (m : Memory) :
    Except Fault (Wrapped × Option Nat × Memory) :=
  match w.mbuffer, w.abuffer with
  | some h, a => do
      let (h, m) ← h.ptr junk .mmap m
      return (⟨some h, a⟩, h.buffer, m)
  | none, some h => do
      let (h, m) ← h.ptr junk .malloc m
      return (⟨none, some h⟩, h.buffer, m)
  | none, none => throw (.threw "bad buffer")

/-- `memcpy(ptr() + off, bytes, bytes.length)`. -/
def write (junk : Junk) (off : Nat) (bytes : List UInt8) (w : Wrapped) (m : Memory) :
    Except Fault (Wrapped × Memory) := do
  let (w, p, m) ← w.ptr junk m
  let m ← m.store p off bytes
  return (w, m)

/-- The buffer there is. -/
def buffer (w : Wrapped) : Option Handle := w.mbuffer <|> w.abuffer

def allocated (w : Wrapped) : Nat :=
  match w.buffer with
  | none => 0
  | some h => h.allocated

/-- The `allocated()` bytes from `const_ptr()` on. -/
def read (w : Wrapped) (m : Memory) : Except Fault (List UInt8) :=
  match w.buffer with
  | none => return []
  | some h => m.load h.buffer 0 h.allocated

/-! ## What a variable holds -/

/-- The variable that holds a block, or none. -/
def of : Option (Ref Tag) → Wrapped
  | none => null
  | some r =>
      match r.tag.backing with
      | .mmap => ⟨some (Handle.of r), none⟩
      | .malloc => ⟨none, some (Handle.of r)⟩

@[simp] theorem of_none : of none = null := rfl

@[simp] theorem buffer_of (o : Option (Ref Tag)) : (of o).buffer = o.map Handle.of := by
  cases o with
  | none => rfl
  | some r =>
      unfold of
      cases kind : r.tag.backing with
      | malloc => simp [kind, buffer]
      | mmap => simp [kind, buffer]

end Wrapped

/-- The block a variable holds, as a multiset. -/
def held : Option (Ref Tag) → Multiset (Ref Tag)
  | none => 0
  | some r => {r}

/-- The value a variable has. -/
def Memory.value (m : Memory) : Option (Ref Tag) → List UInt8
  | none => []
  | some r => m.contents r

@[simp] theorem held_none : held none = 0 := rfl

@[simp] theorem held_some_add (r : Ref Tag) (refs : Multiset (Ref Tag)) :
    held (some r) + refs = r ::ₘ refs := Multiset.singleton_add ..

theorem value_keeps {m m' : Memory} {refs : Multiset (Ref Tag)} (keeps : Keeps m m' refs)
    {o : Option (Ref Tag)} (inside : held o ≤ refs) : m'.value o = m.value o := by
  cases o with
  | none => rfl
  | some r => exact contents_keeps keeps (Multiset.singleton_le.1 inside)

theorem value_of_blocks {m m' : Memory} (blocks : m'.blocks = m.blocks) (o : Option (Ref Tag)) :
    m'.value o = m.value o := by
  have keeps : Keeps m m' (held o) := fun _ _ => by rw [blocks]
  exact value_keeps keeps le_rfl

/-- A variable came to hold `o`, with these bytes; the other holders are as they were. -/
structure Has (m m' : Memory) (refs : Multiset (Ref Tag)) (o : Option (Ref Tag))
    (bytes : List UInt8) : Prop where
  owned : Owned Fits m' (held o + refs)
  keeps : Keeps m m' refs
  value : m'.value o = bytes

theorem Yields.has {m m' : Memory} {refs : Multiset (Ref Tag)} {r : Ref Tag} {backing : Backing}
    {bytes : List UInt8} (yields : Yields m m' refs r backing bytes) :
    Has m m' refs (some r) bytes :=
  ⟨by rw [held_some_add]; exact yields.owned, yields.keeps, yields.contents⟩

theorem Wrapped.of_malloc {r : Ref Tag} (kind : r.tag.backing = .malloc) :
    Wrapped.of (some r) = ⟨none, some (Handle.of r)⟩ := by
  simp only [Wrapped.of, kind]

theorem Wrapped.of_mmap {r : Ref Tag} (kind : r.tag.backing = .mmap) :
    Wrapped.of (some r) = ⟨some (Handle.of r), none⟩ := by
  simp only [Wrapped.of, kind]

/-! ## One operation of a variable -/

namespace Wrapped

variable {m : Memory} {refs : Multiset (Ref Tag)} {o : Option (Ref Tag)}

theorem copy_spec (owned : Owned Fits m (held o + refs)) :
    ∃ m', (of o).copy m = .ok (of o, m') ∧ Owned Fits m' (held o + (held o + refs)) ∧
      m'.blocks = m.blocks := by
  cases o with
  | none => exact ⟨m, rfl, by simpa using owned, rfl⟩
  | some r =>
      simp only [held_some_add] at owned ⊢
      obtain ⟨m', copied, more, blocks⟩ := Shared.copy_spec owned
      refine ⟨m', ?_, more, blocks⟩
      cases kind : r.tag.backing with
      | malloc => simp only [of_malloc kind, copy, copied, bind, Except.bind, pure, Except.pure]
      | mmap => simp only [of_mmap kind, copy, copied, bind, Except.bind, pure, Except.pure]

theorem destroy_spec (owned : Owned Fits m (held o + refs)) :
    ∃ m', (of o).destroy m = .ok m' ∧ Owned Fits m' refs ∧ Keeps m m' refs := by
  cases o with
  | none => exact ⟨m, rfl, by simpa using owned, Keeps.rfl⟩
  | some r =>
      rw [held_some_add] at owned
      obtain ⟨m', gone, rest, keeps⟩ := Shared.destroy_spec owned
      refine ⟨m', ?_, rest, keeps⟩
      cases kind : r.tag.backing with
      | malloc =>
          rw [kind] at gone
          simp only [of_malloc kind, destroy, delete, gone, bind, Except.bind, pure, Except.pure]
      | mmap =>
          rw [kind] at gone
          simp only [of_mmap kind, destroy, delete, gone, bind, Except.bind, pure, Except.pure]

/-- A new buffer of zeros, above the threshold in whole pages. -/
theorem new_spec (junk : Junk) (owned : Owned Fits m refs) (n : Nat) :
    ∃ o m', new junk 1 n m = .ok (of o, m') ∧ Has m m' refs o (WrappedBuffer.ofSize n) := by
  by_cases none_ : n = 0
  · refine ⟨none, m, ?_, by simpa using owned, Keeps.rfl, ?_⟩
    · simp only [new, none_, ne_eq, not_true_eq_false, if_false]
      rfl
    · rw [none_]
      rfl
  · by_cases large : n > mmapThreshold
    · obtain ⟨r, m', made, -, yields⟩ := MmapBuffer.new_spec owned none_
      refine ⟨some r, m', ?_, ?_⟩
      · simp only [new, none_, ne_eq, not_false_eq_true, if_true, Nat.mul_one, large, made, bind,
          Except.bind, pure, Except.pure, of_mmap yields.backing]
      · rw [WrappedBuffer.ofSize, allocatedFor, if_pos large]
        exact yields.has
    · obtain ⟨r, m', made, -, yields⟩ := AllocBuffer.new_spec junk owned none_
      refine ⟨some r, m', ?_, ?_⟩
      · simp only [new, none_, ne_eq, not_false_eq_true, if_true, Nat.mul_one, large, if_false, made,
          bind, Except.bind, pure, Except.pure, of_malloc yields.backing]
      · rw [WrappedBuffer.ofSize, allocatedFor, if_neg large]
        exact yields.has

/-- Across the threshold: what fits of the old bytes in a new block of zeros. -/
theorem migrate_spec (junk : Junk) {t r : Ref Tag} (owned : Owned Fits m (t ::ₘ r ::ₘ refs))
    {size : Nat} (zeros : m.contents t = List.replicate size 0) :
    ∃ t' m', migrate junk r.tag.backing t.tag.backing (Handle.of r) (Handle.of t) m =
        .ok (Handle.of t', m') ∧ Yields m m' refs t' t.tag.backing (resize size (m.contents r)) := by
  have less : refs ≤ r ::ₘ refs := Multiset.le_cons_self ..
  have here : r ∈ r ::ₘ refs := Multiset.mem_cons_self ..
  have length := contents_length owned (Multiset.mem_cons_of_mem here)
  have length' := contents_length owned (Multiset.mem_cons_self ..)
  rw [zeros, List.length_replicate] at length'
  obtain ⟨t', m₁, pointer, alone, first⟩ := ptr_spec junk owned
  have size' : t'.tag.size = size := by rw [first.size, zeros, List.length_replicate]
  obtain ⟨m₂, copied, second⟩ := memcpy_spec first.owned alone here
    (show min t.tag.size r.tag.size ≤ t'.tag.size by omega) (Nat.min_le_right ..)
  have swapped : Owned Fits m₂ (r ::ₘ t' ::ₘ refs) := by
    rw [Multiset.cons_swap]
    exact second.owned
  obtain ⟨m₃, gone, third, keeps⟩ := Shared.destroy_spec swapped
  refine ⟨t', m₃, ?_, third, ?_, first.backing, ?_⟩
  · simp only [migrate, pointer, bind, Except.bind, Handle.of_allocated, Handle.of_buffer,
      Option.isNone_some, Bool.false_eq_true, if_false, copied, gone, pure, Except.pure]
  · have earlier := (first.keeps.mono less).trans (second.keeps.mono less)
    exact earlier.trans (keeps.mono (Multiset.le_cons_self ..))
  · rw [contents_keeps keeps (Multiset.mem_cons_self ..), second.contents, first.contents, zeros,
      contents_keeps first.keeps here]
    exact blit_zeros (by rw [length, ← length'])

/-- `realloc(n)` of bytes, wherever they are and wherever they go. -/
theorem realloc_spec (junk : Junk) (owned : Owned Fits m (held o + refs)) {n : Nat}
    (some_ : n ≠ 0) :
    ∃ o' m', realloc junk 1 n (of o) m = .ok (of o', m') ∧
      Has m m' refs o' (WrappedBuffer.realloc n (m.value o)) := by
  cases o with
  | none =>
      rw [held_none, zero_add] at owned
      obtain ⟨o', m', made, has⟩ := new_spec junk owned n
      refine ⟨o', m', ?_, has.owned, has.keeps, has.value.trans ?_⟩
      · rw [← made]
        simp only [realloc, new, some_, ne_eq, not_false_eq_true, if_true, of_none, null]
      · simp [WrappedBuffer.ofSize, WrappedBuffer.realloc, Memory.value]
  | some r =>
      rw [held_some_add] at owned
      have same (size : Nat) (for_ : allocatedFor n = size) :
          WrappedBuffer.realloc n (m.value (some r)) = resize size (m.contents r) := by
        rw [← for_]
        rfl
      have less : refs ≤ r ::ₘ refs := Multiset.le_cons_self ..
      have here : r ∈ r ::ₘ refs := Multiset.mem_cons_self ..
      by_cases large : n > mmapThreshold
      · rw [same (roundToPage n) (if_pos large)]
        cases kind : r.tag.backing with
        | mmap =>
            obtain ⟨r', m', after, yields⟩ := MmapBuffer.realloc_spec junk owned kind some_
            refine ⟨some r', m', ?_, yields.has⟩
            simp only [realloc, Nat.mul_one, large, if_true, of_mmap kind, after, bind,
              Except.bind, pure, Except.pure, of_mmap yields.backing]
        | malloc =>
            obtain ⟨t, m₁, made, -, first⟩ := MmapBuffer.new_spec owned some_
            obtain ⟨t', m₂, after, second⟩ := migrate_spec junk first.owned first.contents
            rw [kind, first.backing] at after
            rw [first.backing, contents_keeps first.keeps here] at second
            refine ⟨some t', m₂, ?_, (Yields.of_eq (first.keeps.mono less) second rfl).has⟩
            simp only [realloc, Nat.mul_one, large, if_true, of_malloc kind, made, after, bind,
              Except.bind, pure, Except.pure, of_mmap second.backing]
      · rw [same n (if_neg large)]
        cases kind : r.tag.backing with
        | mmap =>
            obtain ⟨t, m₁, made, -, first⟩ := AllocBuffer.new_spec junk owned some_
            obtain ⟨t', m₂, after, second⟩ := migrate_spec junk first.owned first.contents
            rw [kind, first.backing] at after
            rw [first.backing, contents_keeps first.keeps here] at second
            refine ⟨some t', m₂, ?_, (Yields.of_eq (first.keeps.mono less) second rfl).has⟩
            simp only [realloc, Nat.mul_one, large, if_false, of_mmap kind, made, after, bind,
              Except.bind, pure, Except.pure, of_malloc second.backing]
        | malloc =>
            obtain ⟨r', m', after, yields⟩ := AllocBuffer.realloc_spec junk owned kind some_
            refine ⟨some r', m', ?_, yields.has⟩
            simp only [realloc, Nat.mul_one, large, if_false, of_malloc kind, after, bind,
              Except.bind, pure, Except.pure, of_malloc yields.backing]

/-- Writing through `ptr()`. -/
theorem write_spec (junk : Junk) {r : Ref Tag} (owned : Owned Fits m (r ::ₘ refs)) {off : Nat}
    {bytes : List UInt8} (inside : off + bytes.length ≤ (m.contents r).length) :
    ∃ r' m', write junk off bytes (of (some r)) m = .ok (of (some r'), m') ∧
      Has m m' refs (some r') (WrappedBuffer.blit (m.contents r) off bytes) := by
  obtain ⟨r', m₁, pointer, alone, first⟩ := ptr_spec junk owned
  have room : off + bytes.length ≤ r'.tag.size := by
    rw [first.size]
    exact inside
  obtain ⟨m₂, stored, second⟩ := store_spec first.owned alone room
  rw [first.contents] at second
  refine ⟨r', m₂, ?_, (Yields.of_eq first.keeps second rfl).has⟩
  cases kind : r.tag.backing with
  | malloc =>
      rw [kind] at pointer
      simp only [write, ptr, of_malloc kind, pointer, bind, Except.bind, pure, Except.pure,
        Handle.of_buffer, stored, of_malloc (first.backing.trans kind)]
  | mmap =>
      rw [kind] at pointer
      simp only [write, ptr, of_mmap kind, pointer, bind, Except.bind, pure, Except.pure,
        Handle.of_buffer, stored, of_mmap (first.backing.trans kind)]

/-- Reading through `const_ptr()`. -/
theorem read_eq (owned : Owned Fits m (held o + refs)) : (of o).read m = .ok (m.value o) := by
  cases o with
  | none => rfl
  | some r =>
      rw [held_some_add] at owned
      have here : r ∈ r ::ₘ refs := Multiset.mem_cons_self ..
      simp only [read, buffer_of, Option.map_some, Handle.of_buffer, Handle.of_allocated,
        load_held owned here (Nat.le_refl r.tag.size), Memory.value]
      rw [List.take_of_length_le (Nat.le_of_eq (contents_length owned here))]

theorem allocated_of (owned : Owned Fits m (held o + refs)) :
    (of o).allocated = (m.value o).length := by
  cases o with
  | none => rfl
  | some r =>
      rw [held_some_add] at owned
      simp only [allocated, buffer_of, Option.map_some, Handle.of_allocated, Memory.value,
        contents_length owned (Multiset.mem_cons_self ..)]

end Wrapped

end Coinscope.Shared

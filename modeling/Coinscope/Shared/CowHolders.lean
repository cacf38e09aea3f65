/-
# Shared.CowHolders -- what the buffers do to the blocks they hold

The operations of `alloc_buffer` and `mmap_buffer` over bytes, as rules about the multiset of
holders.  Each is defined where its buffer holds a block; it leaves a heap in which the counters
are right again, and the blocks of the other holders as they were.

* `Yields` -- the buffer holds this block now, with these bytes in it.
* `copy_spec`, `destroy_spec`, `ptr_spec`, `store_spec` -- one operation of a holder.
* `AllocBuffer.new_spec`, `MmapBuffer.new_spec` -- a new block of zeros.
* `AllocBuffer.realloc_spec`, `MmapBuffer.realloc_spec` -- on whichever branch, the bytes are cut
  off or filled up with zeros.
-/
import Coinscope.Shared.CowBuffers

namespace Coinscope.Shared

open Coinscope.Theory.Bytes
open Coinscope.Theory.SharedBlocks

set_option autoImplicit false

/-! ## Holders -/

/-- What the holders of a block know of it. -/
structure Tag where
  backing : Backing
  size : Nat
  deriving DecidableEq

def Fits (t : Tag) (b : Block) : Prop := b.backing = t.backing ∧ b.bytes.length = t.size

/-- The members of a buffer that holds a block. -/
def Handle.of (r : Ref Tag) : Handle := ⟨r.tag.size, some r.block, some r.counter⟩

@[simp] theorem Handle.of_allocated (r : Ref Tag) : (Handle.of r).allocated = r.tag.size := rfl
@[simp] theorem Handle.of_buffer (r : Ref Tag) : (Handle.of r).buffer = some r.block := rfl
@[simp] theorem Handle.of_refcount (r : Ref Tag) : (Handle.of r).refcount = some r.counter := rfl

/-- The bytes of a block. -/
def Memory.contents (m : Memory) (r : Ref Tag) : List UInt8 :=
  ((m.blocks r.block).map Block.bytes).getD []

/-- A buffer over `backing` came to hold `r`, with these bytes; the others are as they were. -/
structure Yields (m m' : Memory) (refs : Multiset (Ref Tag)) (r : Ref Tag) (backing : Backing)
    (bytes : List UInt8) : Prop where
  owned : Owned Fits m' (r ::ₘ refs)
  keeps : Keeps m m' refs
  backing : r.tag.backing = backing
  contents : m'.contents r = bytes

section Holders

variable {m m' : Memory} {refs : Multiset (Ref Tag)} {r : Ref Tag}

theorem contents_keeps (keeps : Keeps m m' refs) (here : r ∈ refs) :
    m'.contents r = m.contents r := by
  rw [Memory.contents, keeps r here, Memory.contents]

theorem contents_of {b : Block} (there : m.blocks r.block = some b) : m.contents r = b.bytes := by
  rw [Memory.contents, there]
  rfl

theorem block_eq (owned : Owned Fits m refs) (here : r ∈ refs) :
    m.blocks r.block = some ⟨r.tag.backing, m.contents r⟩ := by
  obtain ⟨⟨backing, bytes⟩, there, kind, -⟩ := owned.holds r here
  rw [there, contents_of there, ← show backing = r.tag.backing from kind]

theorem contents_length (owned : Owned Fits m refs) (here : r ∈ refs) :
    (m.contents r).length = r.tag.size := by
  obtain ⟨b, there, -, size⟩ := owned.holds r here
  rw [block_eq owned here, Option.some.injEq] at there
  rw [← there] at size
  exact size

theorem Yields.size {backing : Backing} {bytes : List UInt8}
    (yields : Yields m m' refs r backing bytes) : r.tag.size = bytes.length := by
  rw [← yields.contents, contents_length yields.owned (Multiset.mem_cons_self ..)]

theorem find_held (owned : Owned Fits m refs) (here : r ∈ refs) :
    m.find (some r.block) = .ok (r.block, ⟨r.tag.backing, m.contents r⟩) := by
  simp only [Memory.find, block_eq owned here]

theorem counter_held (owned : Owned Fits m refs) (here : r ∈ refs) :
    m.counter (some r.counter) = .ok (refs.count r) := by
  simp only [Memory.counter, Option.bind_some, owned.counted r here]

theorem setCounter_held (owned : Owned Fits m refs) (here : r ∈ refs) (n : Nat) :
    m.setCounter (some r.counter) n = .ok (m.setCount r.counter (some n)) := by
  simp only [Memory.setCounter, owned.counted r here, Option.isSome_some, if_true]

theorem load_slice (owned : Owned Fits m refs) (here : r ∈ refs) {off n : Nat}
    (inside : off + n ≤ r.tag.size) :
    m.load (some r.block) off n = .ok (slice off n (m.contents r)) := by
  have length := contents_length owned here
  have fits : off + n ≤ (m.contents r).length := by omega
  simp only [Memory.load, find_held owned here]
  show (if off + n ≤ (m.contents r).length then _ else _) = _
  rw [if_pos fits]
  rfl

theorem load_held (owned : Owned Fits m refs) (here : r ∈ refs) {n : Nat}
    (inside : n ≤ r.tag.size) :
    m.load (some r.block) 0 n = .ok ((m.contents r).take n) := by
  rw [load_slice owned here (by omega), slice, List.drop_zero]

/-- The only holder writes. -/
theorem store_spec (owned : Owned Fits m (r ::ₘ refs)) (alone : r ∉ refs) {off : Nat}
    {bytes : List UInt8} (inside : off + bytes.length ≤ r.tag.size) :
    ∃ m', m.store (some r.block) off bytes = .ok m' ∧
      Yields m m' refs r r.tag.backing (WrappedBuffer.blit (m.contents r) off bytes) := by
  have here : r ∈ r ::ₘ refs := Multiset.mem_cons_self ..
  have length := contents_length owned here
  rw [← length] at inside
  refine ⟨m.setBlock r.block (some ⟨r.tag.backing, WrappedBuffer.blit (m.contents r) off bytes⟩),
    ?_, ?_, ?_, rfl, ?_⟩
  · simp only [Memory.store, find_held owned here]
    show (if off + bytes.length ≤ (m.contents r).length then _ else _) = _
    rw [if_pos inside]
    rfl
  · refine owned.rehouse (a := r.block) (t := r.tag)
      (b := ⟨r.tag.backing, WrappedBuffer.blit (m.contents r) off bytes⟩) alone ⟨rfl, ?_⟩ (Or.inl rfl)
      ?_ rfl le_rfl (owned.below r here).1
    · rw [← length]
      exact WrappedBuffer.length_blit inside
    · rw [Function.update_idem]
      rfl
  · intro q member
    exact Function.update_of_ne (owned.block_ne alone member) ..
  · exact contents_of (Heap.setBlock_self ..)

/-! ## One operation of a holder -/

/-- A copy is one more holder, and nothing else changes. -/
theorem copy_spec (owned : Owned Fits m (r ::ₘ refs)) :
    ∃ m', (Handle.of r).copy m = .ok (Handle.of r, m') ∧ Owned Fits m' (r ::ₘ r ::ₘ refs) ∧
      m'.blocks = m.blocks := by
  have here : r ∈ r ::ₘ refs := Multiset.mem_cons_self ..
  refine ⟨_, ?_, owned.share, rfl⟩
  have count : (r ::ₘ refs).count r + 1 = refs.count r + 2 := by
    rw [Multiset.count_cons_self]
  simp only [Handle.copy, Handle.of, Option.isSome_some, if_true, counter_held owned here, bind,
    Except.bind, setCounter_held owned here, count]
  rfl

/-- A destroyed buffer is a holder less; the last one releases the block. -/
theorem destroy_spec (owned : Owned Fits m (r ::ₘ refs)) :
    ∃ m', (Handle.of r).destroy r.tag.backing m = .ok m' ∧ Owned Fits m' refs ∧
      Keeps m m' refs := by
  have here : r ∈ r ::ₘ refs := Multiset.mem_cons_self ..
  have count : (r ::ₘ refs).count r - 1 = refs.count r := by
    rw [Multiset.count_cons_self, Nat.add_sub_cancel]
  by_cases shared : r ∈ refs
  · refine ⟨_, ?_, owned.unshare shared, Keeps.rfl⟩
    have some_ : refs.count r ≠ 0 := Multiset.count_ne_zero.2 shared
    simp only [Handle.destroy, Handle.of, Option.isSome_some, if_true, counter_held owned here,
      bind, Except.bind, setCounter_held owned here, count, some_, if_false]
    rfl
  · refine ⟨_, ?_, owned.discard shared, ?_⟩
    · have none_ : refs.count r = 0 := Multiset.count_eq_zero.2 shared
      have block := block_eq owned here
      have length := contents_length owned here
      simp only [Handle.destroy, Handle.of, Option.isSome_some, if_true, counter_held owned here,
        bind, Except.bind, setCounter_held owned here, count, none_, Memory.deleteCounter,
        Heap.setCount_self, Heap.setCount_setCount]
      cases kind : r.tag.backing with
      | malloc =>
          rw [kind] at block
          simp only [Memory.free, Memory.find, Heap.setCount_blocks, block, bind, Except.bind, if_true]
          rfl
      | mmap =>
          rw [kind] at block
          simp only [Memory.munmap, Memory.find, Heap.setCount_blocks, block, length, bind,
            Except.bind, and_self, if_true]
          rfl
    · intro q member
      exact Function.update_of_ne (owned.block_ne shared member) ..

/-- Writing all of a block. -/
theorem store_all {a : Nat} {backing : Backing} {old bytes : List UInt8}
    (there : m.blocks a = some ⟨backing, old⟩) (length : bytes.length = old.length) :
    m.store (some a) 0 bytes = .ok (m.setBlock a (some ⟨backing, bytes⟩)) := by
  have inside : 0 + bytes.length ≤ old.length := by omega
  have whole : WrappedBuffer.blit old 0 bytes = bytes := WrappedBuffer.blit_end (by omega)
  simp only [Memory.store, Memory.find, there, bind, Except.bind]
  rw [if_pos inside, whole]
  rfl

theorem fresh_eq (junk : Junk) (backing : Backing) (n : Nat) (m : Memory) :
    ∃ old : List UInt8, old.length = n ∧ Handle.fresh junk backing n m = m.place ⟨backing, old⟩ := by
  cases backing with
  | malloc => exact ⟨_, by simp [Memory.uninitialised], rfl⟩
  | mmap => exact ⟨_, List.length_replicate, rfl⟩

/-- Copying all of a block to another. -/
theorem memcpy_all {a src n : Nat} {b : Block} {backing : Backing} {old : List UInt8}
    (into : m.blocks a = some ⟨backing, old⟩) (source : m.blocks src = some b)
    (whole : b.bytes.length = n) (length : old.length = n) :
    m.memcpy (some a) (some src) n = .ok (m.setBlock a (some ⟨backing, b.bytes⟩)) := by
  have read : m.load (some src) 0 n = .ok b.bytes := by
    have inside : 0 + n ≤ b.bytes.length := by omega
    simp only [Memory.load, Memory.find, source, bind, Except.bind]
    rw [if_pos inside, slice, List.drop_zero, List.take_of_length_le (by omega)]
    rfl
  simp only [Memory.memcpy, read, bind, Except.bind]
  exact store_all into (by omega)

/-- A new block and its counter, both at new addresses, have one holder. -/
theorem yields_new (owned : Owned Fits m refs) {a c : Nat} {backing : Backing} {bytes : List UInt8}
    (newBlock : m.next ≤ a) (newCounter : m.next ≤ c)
    (blocks : m'.blocks = Function.update m.blocks a (some ⟨backing, bytes⟩))
    (counts : m'.counts = Function.update m.counts c (some 1)) (inside : a < m'.next)
    (inside' : c < m'.next) :
    (⟨a, c, ⟨backing, bytes.length⟩⟩ : Ref Tag) ∉ refs ∧
      Yields m m' refs ⟨a, c, ⟨backing, bytes.length⟩⟩ backing bytes := by
  have free : ∀ q ∈ refs, q.block ≠ a := fun q member => (owned.fresh newBlock member).1
  have unused : ∀ q ∈ refs, q.counter ≠ c := fun q member => (owned.fresh newCounter member).2
  refine ⟨fun member => free _ member rfl, ?_, ?_, rfl, ?_⟩
  · exact owned.create free unused ⟨rfl, rfl⟩ blocks counts (by omega) ⟨inside, inside'⟩
  · intro q member
    rw [blocks, Function.update_of_ne (free q member)]
  · apply contents_of (b := ⟨backing, bytes⟩)
    rw [blocks, Function.update_self]

/-- `ptr()` of a shared block makes a new one with the same bytes. -/
theorem ptr_shared (junk : Junk) (owned : Owned Fits m (r ::ₘ refs)) (shared : r ∈ refs) :
    ∃ r' m', (Handle.of r).ptr junk r.tag.backing m = .ok (Handle.of r', m') ∧ r' ∉ refs ∧
      Yields m m' refs r' r.tag.backing (m.contents r) := by
  have here : r ∈ r ::ₘ refs := Multiset.mem_cons_self ..
  have count : (r ::ₘ refs).count r = refs.count r + 1 := Multiset.count_cons_self ..
  have several : refs.count r + 1 > 1 := by
    have := Multiset.count_pos.2 shared
    omega
  have length := contents_length owned here
  have below := owned.below r here
  obtain ⟨old, size, made⟩ := fresh_eq junk r.tag.backing r.tag.size m
  -- the memory with the new block, in front of the copy and at the end
  obtain ⟨placed, same⟩ : ∃ placed : Memory, placed = (m.place ⟨r.tag.backing, old⟩).2 := ⟨_, rfl⟩
  obtain ⟨last, behind⟩ : ∃ last : Memory, last =
      (((placed.setBlock m.next (some ⟨r.tag.backing, m.contents r⟩)).setCount r.counter
        (some (refs.count r))).placeCount 1).2 := ⟨_, rfl⟩
  have next : placed.next = m.next + 1 := by rw [same]; rfl
  have next' : last.next = m.next + 2 := by rw [behind, same]; rfl
  have source : placed.blocks r.block = some ⟨r.tag.backing, m.contents r⟩ := by
    have apart : r.block ≠ m.next := by omega
    rw [same, Heap.place_blocks, Function.update_of_ne apart, block_eq owned here]
  have into : placed.blocks m.next = some ⟨r.tag.backing, old⟩ := by
    rw [same, Heap.place_blocks, Function.update_self]
  have copied := memcpy_all into source length size
  have there : (placed.counts r.counter).isSome := by
    rw [same, Heap.place_counts, owned.counted r here]
    rfl
  have result : (Handle.of r).ptr junk r.tag.backing m =
      .ok (Handle.of ⟨m.next, m.next + 1, ⟨r.tag.backing, (m.contents r).length⟩⟩, last) := by
    simp only [Handle.ptr, Handle.of, Option.isNone_some, Bool.false_eq_true, if_false,
      counter_held owned here, bind, Except.bind, count, several, if_true, made, Heap.place_fst,
      ← same, copied, Memory.setCounter, Heap.setBlock, there, length, behind, ← next]
    rfl
  have blocks : last.blocks =
      Function.update m.blocks m.next (some ⟨r.tag.backing, m.contents r⟩) := by
    rw [behind, same]
    exact Function.update_idem ..
  have counts : last.counts = Function.update (m.setCount r.counter (some (refs.count r))).counts
      (m.next + 1) (some 1) := by
    rw [behind, same]
    rfl
  obtain ⟨new, yields⟩ := yields_new (owned.unshare shared) (Nat.le_refl m.next)
    (Nat.le_succ m.next) blocks counts (by omega) (by omega)
  exact ⟨_, _, result, new, yields.owned, yields.keeps, yields.backing, yields.contents⟩

theorem ptr_alone (junk : Junk) (owned : Owned Fits m (r ::ₘ refs)) (alone : r ∉ refs) :
    (Handle.of r).ptr junk r.tag.backing m = .ok (Handle.of r, m) := by
  have count : (r ::ₘ refs).count r = 1 := by
    rw [Multiset.count_cons_self, Multiset.count_eq_zero.2 alone]
  simp only [Handle.ptr, Handle.of, Option.isNone_some, Bool.false_eq_true, if_false,
    counter_held owned (Multiset.mem_cons_self ..), bind, Except.bind, count]
  rfl

/-- Behind `ptr()` nobody else holds the block, and it has the bytes it had. -/
theorem ptr_spec (junk : Junk) (owned : Owned Fits m (r ::ₘ refs)) :
    ∃ r' m', (Handle.of r).ptr junk r.tag.backing m = .ok (Handle.of r', m') ∧ r' ∉ refs ∧
      Yields m m' refs r' r.tag.backing (m.contents r) := by
  by_cases shared : r ∈ refs
  · exact ptr_shared junk owned shared
  · exact ⟨r, m, ptr_alone junk owned shared, shared, owned, Keeps.rfl, rfl, rfl⟩

theorem Yields.of_eq {last : Memory} {q : Ref Tag} {backing : Backing} {first second : List UInt8}
    (keeps : Keeps m m' refs) (yields : Yields m' last refs q backing first)
    (same : first = second) : Yields m last refs q backing second :=
  ⟨yields.owned, keeps.trans yields.keeps, yields.backing, yields.contents.trans same⟩

/-- The only holder of a block copies from the start of another. -/
theorem memcpy_spec (owned : Owned Fits m (r ::ₘ refs)) (alone : r ∉ refs) {q : Ref Tag}
    (there : q ∈ refs) {n : Nat} (inside : n ≤ r.tag.size) (inside' : n ≤ q.tag.size) :
    ∃ m', m.memcpy (some r.block) (some q.block) n = .ok m' ∧
      Yields m m' refs r r.tag.backing
        (WrappedBuffer.blit (m.contents r) 0 ((m.contents q).take n)) := by
  have member : q ∈ r ::ₘ refs := Multiset.mem_cons_of_mem there
  have few : 0 + ((m.contents q).take n).length ≤ r.tag.size := by
    rw [List.length_take]
    omega
  obtain ⟨m', stored, yields⟩ := store_spec owned alone few
  refine ⟨m', ?_, yields⟩
  simp only [Memory.memcpy, load_held owned member inside', bind, Except.bind]
  exact stored

/-- A holder of `r` with a new block `t` copies the start of the one to the other, and holds that
instead. -/
theorem become_spec (junk : Junk) {t : Ref Tag} (owned : Owned Fits m (t ::ₘ r ::ₘ refs))
    (same : t.tag.backing = r.tag.backing) {kept : Nat} (inside : kept ≤ t.tag.size)
    (inside' : kept ≤ r.tag.size) :
    ∃ t' m', (Handle.of r).become junk r.tag.backing kept (Handle.of t) m =
        .ok (Handle.of t', m') ∧
      Yields m m' refs t' r.tag.backing
        (WrappedBuffer.blit (m.contents t) 0 ((m.contents r).take kept)) := by
  have less : refs ≤ r ::ₘ refs := Multiset.le_cons_self ..
  have here : r ∈ r ::ₘ refs := Multiset.mem_cons_self ..
  have size := contents_length owned (Multiset.mem_cons_self ..)
  obtain ⟨t', m₁, pointer, alone, first⟩ := ptr_spec junk owned
  have size' := first.size
  obtain ⟨m₂, copied, second⟩ := memcpy_spec first.owned alone here (by omega) inside'
  rw [first.contents, contents_keeps first.keeps here] at second
  obtain ⟨m₃, shared, third, blocks⟩ := copy_spec second.owned
  have swapped : Owned Fits m₃ (r ::ₘ t' ::ₘ t' ::ₘ refs) := by
    rwa [Multiset.cons_swap r, Multiset.cons_swap r]
  obtain ⟨m₄, gone, fourth, keeps⟩ := destroy_spec swapped
  obtain ⟨m₅, over_, fifth, keeps'⟩ := destroy_spec fourth
  rw [same] at pointer
  rw [first.backing, same] at over_
  refine ⟨t', m₅, ?_, fifth, ?_, first.backing.trans same, ?_⟩
  · simp only [Handle.become, pointer, bind, Except.bind, Handle.of_buffer, copied, shared,
      Handle.assign, gone, pure, Except.pure, over_]
  · intro q member
    have kept₁ := first.keeps q (Multiset.mem_of_le less member)
    have kept₂ := second.keeps q (Multiset.mem_of_le less member)
    have kept₄ := keeps q (by simp [member])
    have kept₅ := keeps' q (by simp [member])
    rw [kept₅, kept₄, blocks, kept₂, kept₁]
  · have here' : t' ∈ t' ::ₘ refs := Multiset.mem_cons_self ..
    have here'' : t' ∈ t' ::ₘ t' ::ₘ refs := Multiset.mem_cons_self ..
    rw [contents_keeps keeps' here', contents_keeps keeps here'', ← second.contents,
      Memory.contents, blocks]
    rfl

end Holders

/-! ## Construction -/

section Construction

variable {m : Memory} {refs : Multiset (Ref Tag)}

/-- A new block of `n` elements. -/
theorem AllocBuffer.newElements_spec (junk : Junk) (elt : Nat) (owned : Owned Fits m refs) {n : Nat}
    (some_ : n ≠ 0) :
    ∃ r m', AllocBuffer.new junk elt n m = .ok (Handle.of r, m') ∧ r ∉ refs ∧
      Yields m m' refs r .malloc (List.replicate (n * elt) 0) := by
  obtain ⟨size, bytes⟩ : ∃ size, size = n * elt := ⟨_, rfl⟩
  obtain ⟨placed, same⟩ : ∃ placed : Memory,
    placed = (m.newCounter.2.place
      ⟨.malloc, Memory.uninitialised junk (m.next + 1) 0 size⟩).2 := ⟨_, rfl⟩
  have next : placed.next = m.next + 2 := by rw [same]; rfl
  have into : placed.blocks (m.next + 1) =
      some ⟨.malloc, Memory.uninitialised junk (m.next + 1) 0 size⟩ := by
    rw [same]
    exact Function.update_self ..
  have cleared : placed.memset (some (m.next + 1)) 0 size = .ok (placed.setBlock (m.next + 1)
      (some ⟨.malloc, List.replicate size 0⟩)) := store_all into (by simp [Memory.uninitialised])
  have blocks : (placed.setBlock (m.next + 1) (some ⟨.malloc, List.replicate size 0⟩)).blocks =
      Function.update m.blocks (m.next + 1) (some ⟨.malloc, List.replicate size 0⟩) := by
    rw [same]
    exact Function.update_idem ..
  have counts : (placed.setBlock (m.next + 1) (some ⟨.malloc, List.replicate size 0⟩)).counts =
      Function.update m.counts m.next (some 1) := by
    rw [same]
    rfl
  obtain ⟨new, yields⟩ := yields_new owned (Nat.le_succ m.next) (Nat.le_refl m.next) blocks counts
    (show _ < placed.next by omega) (show _ < placed.next by omega)
  rw [← bytes]
  refine ⟨_, _, ?_, new, yields⟩
  have made : m.newCounter.2.malloc junk size = (m.next + 1, placed) := by
    rw [same]
    rfl
  simp only [AllocBuffer.new, some_, ne_eq, not_false_eq_true, if_true, ← bytes, made, cleared,
    bind, Except.bind]
  simp only [Handle.of, List.length_replicate]
  rfl

theorem AllocBuffer.new_spec (junk : Junk) (owned : Owned Fits m refs) {n : Nat} (some_ : n ≠ 0) :
    ∃ r m', AllocBuffer.new junk 1 n m = .ok (Handle.of r, m') ∧ r ∉ refs ∧
      Yields m m' refs r .malloc (List.replicate n 0) := by
  simpa only [Nat.mul_one] using AllocBuffer.newElements_spec junk 1 owned some_

theorem MmapBuffer.new_spec (owned : Owned Fits m refs) {n : Nat} (some_ : n ≠ 0) :
    ∃ r m', MmapBuffer.new 1 n m = .ok (Handle.of r, m') ∧ r ∉ refs ∧
      Yields m m' refs r .mmap (List.replicate (roundToPage n) 0) := by
  obtain ⟨placed, same⟩ : ∃ placed : Memory,
    placed = (m.newCounter.2.mmap (roundToPage n)).2 := ⟨_, rfl⟩
  have next : placed.next = m.next + 2 := by rw [same]; rfl
  have blocks : placed.blocks = Function.update m.blocks (m.next + 1)
      (some ⟨.mmap, List.replicate (roundToPage n) 0⟩) := by
    rw [same]
    rfl
  have counts : placed.counts = Function.update m.counts m.next (some 1) := by
    rw [same]
    rfl
  obtain ⟨new, yields⟩ := yields_new owned (Nat.le_succ m.next) (Nat.le_refl m.next) blocks counts
    (by omega) (by omega)
  refine ⟨_, _, ?_, new, yields⟩
  have positive : n > 0 := Nat.pos_of_ne_zero some_
  simp only [MmapBuffer.new, positive, if_true, Nat.mul_one, same]
  simp only [Handle.of, List.length_replicate]
  rfl

end Construction

/-! ## Reallocation -/

section Reallocation

variable {m m' : Memory} {refs : Multiset (Ref Tag)} {r : Ref Tag}

/-- Cut off, or filled up with zeros. -/
def resize (n : Nat) (bytes : List UInt8) : List UInt8 :=
  bytes.take n ++ List.replicate (n - bytes.length) 0

@[simp] theorem length_resize (n : Nat) (bytes : List UInt8) : (resize n bytes).length = n := by
  simp only [resize, List.length_append, List.length_take, List.length_replicate]
  omega

theorem resize_same {n : Nat} {bytes : List UInt8} (length : bytes.length = n) :
    resize n bytes = bytes := by
  rw [resize, length, Nat.sub_self, List.take_of_length_le (by omega)]
  exact List.append_nil _

/-- Copying the start of something over zeros. -/
theorem blit_zeros {n kept : Nat} {bytes : List UInt8} (kept_ : kept = min n bytes.length) :
    WrappedBuffer.blit (List.replicate n 0) 0 (bytes.take kept) = resize n bytes := by
  have length : (bytes.take kept).length = kept := by
    rw [List.length_take]
    omega
  have front : bytes.take kept = bytes.take n := by
    rw [kept_]
    by_cases fewer : n ≤ bytes.length
    · rw [Nat.min_eq_left fewer]
    · rw [Nat.min_eq_right (by omega), List.take_length, List.take_of_length_le (by omega)]
  rw [WrappedBuffer.blit, length, Nat.zero_add, List.take_zero, List.nil_append,
    List.drop_replicate, front, resize]
  congr 2
  omega

/-- Zeros over zeros. -/
theorem blit_zeros_zeros {n kept : Nat} (inside : kept ≤ n) :
    WrappedBuffer.blit (List.replicate n 0) kept (List.replicate (n - kept) 0) =
      List.replicate n 0 := by
  rw [WrappedBuffer.blit_end (by simp only [List.length_replicate]; omega), List.take_replicate,
    Nat.min_eq_left inside, ← List.replicate_add]
  congr 1
  omega

/-- The only holder of a block has it moved, with these bytes in it. -/
theorem moved_spec (owned : Owned Fits m (r ::ₘ refs)) (alone : r ∉ refs) (backing : Backing)
    (bytes : List UInt8) :
    (⟨m.next, r.counter, ⟨backing, bytes.length⟩⟩ : Ref Tag) ∉ refs ∧
      Yields m ((m.setBlock r.block none).place ⟨backing, bytes⟩).2 refs
        ⟨m.next, r.counter, ⟨backing, bytes.length⟩⟩ backing bytes := by
  refine ⟨?_, ?_, ?_, rfl, ?_⟩
  · intro member
    exact (owned.fresh (Nat.le_refl m.next) (Multiset.mem_cons_of_mem member)).1 rfl
  · exact owned.rehouse (b := ⟨backing, bytes⟩) alone ⟨rfl, rfl⟩ (Or.inr le_rfl) rfl rfl
      (Nat.le_succ _) (Nat.lt_succ_self _)
  · intro q member
    have below := owned.below q (Multiset.mem_cons_of_mem member)
    have apart : q.block ≠ m.next := by omega
    rw [Heap.place_blocks]
    show Function.update (Function.update m.blocks r.block none) m.next _ q.block = _
    rw [Function.update_of_ne apart, Function.update_of_ne (owned.block_ne alone member)]
  · apply contents_of (b := ⟨backing, bytes⟩)
    exact Function.update_self ..

/-! ### `alloc_buffer` -/

/-- Sizes are in bytes and pointers advance in elements.  The zeros are put behind the old bytes
where the two are the same, or where there are no old bytes, or no zeros. -/
def ClearsInside (elt old size : Nat) : Prop := elt = 1 ∨ old = 0 ∨ size ≤ old

theorem ClearsInside.offset {elt old size : Nat} (clears : ClearsInside elt old size)
    (grown : old < size) : old * elt = old := by
  rcases clears with one | none_ | fewer
  · rw [one, Nat.mul_one]
  · rw [none_, Nat.zero_mul]
  · omega

namespace AllocBuffer

variable {elt n : Nat}

/-- `::realloc` of a held block moves it, with what fits of its bytes and a tail nobody wrote. -/
theorem realloc_moves (junk : Junk) (owned : Owned Fits m (r ::ₘ refs))
    (kind : r.tag.backing = .malloc) (some_ : n ≠ 0) :
    ∃ tail : List UInt8, tail.length = n - r.tag.size ∧
      m.realloc junk (some r.block) n = .ok (some m.next,
        ((m.setBlock r.block none).place ⟨.malloc, (m.contents r).take n ++ tail⟩).2) := by
  have here : r ∈ r ::ₘ refs := Multiset.mem_cons_self ..
  have length := contents_length owned here
  have block := find_held owned here
  rw [kind] at block
  refine ⟨Memory.uninitialised junk m.next ((m.contents r).take n).length
    (n - ((m.contents r).take n).length), ?_, ?_⟩
  · simp only [Memory.uninitialised, List.length_map, List.length_range, List.length_take]
    omega
  · simp only [Memory.realloc, some_, if_false, block, bind, Except.bind, if_true]
    rfl

/-- In place: what is kept moves along, and what is new of the block is cleared. -/
theorem reallocAlone_spec (junk : Junk) (owned : Owned Fits m (r ::ₘ refs)) (alone : r ∉ refs)
    (kind : r.tag.backing = .malloc) (some_ : n ≠ 0) (clears : ClearsInside elt r.tag.size n) :
    ∃ r' m', reallocAlone junk elt n (Handle.of r) m = .ok (Handle.of r', m') ∧
      Yields m m' refs r' .malloc (resize n (m.contents r)) := by
  have length := contents_length owned (Multiset.mem_cons_self ..)
  obtain ⟨tail, rest, called⟩ := realloc_moves junk owned kind some_
  have size : ((m.contents r).take n ++ tail).length = n := by
    rw [List.length_append, rest, List.length_take]
    omega
  obtain ⟨new, moved⟩ := moved_spec owned alone .malloc ((m.contents r).take n ++ tail)
  by_cases grown : n > r.tag.size
  · have kept : (m.contents r).take n = m.contents r := List.take_of_length_le (by omega)
    have room : r.tag.size + (List.replicate (n - r.tag.size) (0 : UInt8)).length ≤
        ((m.contents r).take n ++ tail).length := by
      rw [List.length_replicate]
      omega
    obtain ⟨last, cleared, yields⟩ := store_spec moved.owned new room
    refine ⟨_, last, ?_, Yields.of_eq moved.keeps yields ?_⟩
    · simp only [reallocAlone, called, bind, Except.bind, Option.isNone_some,
        Bool.false_eq_true, if_false, clearGrown, grown, if_true, Memory.memset,
        clears.offset grown, cleared, Handle.of, size]
      rfl
    · rw [moved.contents, WrappedBuffer.blit_end (by rw [List.length_replicate]; omega),
        kept, List.take_left' length, resize, kept, length]
  · refine ⟨_, _, ?_, Yields.of_eq Keeps.rfl moved ?_⟩
    · simp only [reallocAlone, called, bind, Except.bind, Option.isNone_some,
        Bool.false_eq_true, if_false, clearGrown, grown, Handle.of, size]
      rfl
    · have none_ : tail = [] := List.eq_nil_of_length_eq_zero (by omega)
      have fewer : n - (m.contents r).length = 0 := by omega
      rw [none_, resize, fewer]
      rfl

/-- The zeros of `tmp` are cleared once more. -/
theorem clearTail_spec (junk : Junk) {t : Ref Tag} (owned : Owned Fits m (t ::ₘ refs))
    (kind : t.tag.backing = .malloc) {kept : Nat} (inside : kept ≤ n)
    (clears : ClearsInside elt kept n) (zeros : m.contents t = List.replicate n 0) :
    ∃ t' m', clearTail junk elt kept (Handle.of t) m = .ok (Handle.of t', m') ∧
      Yields m m' refs t' .malloc (List.replicate n 0) := by
  have size : t.tag.size = n := by
    rw [← contents_length owned (Multiset.mem_cons_self ..), zeros, List.length_replicate]
  by_cases short : kept < n
  · obtain ⟨t', m₁, pointer, alone, first⟩ := ptr_spec junk owned
    rw [kind] at pointer first
    have size' : t'.tag.size = n := by rw [first.size, zeros, List.length_replicate]
    have room : kept + (List.replicate (n - kept) (0 : UInt8)).length ≤ t'.tag.size := by
      rw [List.length_replicate]
      omega
    obtain ⟨m₂, stored, second⟩ := store_spec first.owned alone room
    rw [first.backing] at second
    refine ⟨t', m₂, ?_, Yields.of_eq first.keeps second ?_⟩
    · simp only [clearTail, Handle.of_allocated, size, short, if_true, pointer, bind, Except.bind,
        Memory.memset, size', Handle.of_buffer, clears.offset short, stored]
      rfl
    · rw [first.contents, zeros]
      exact blit_zeros_zeros inside
  · refine ⟨t, m, ?_, owned, Keeps.rfl, kind, zeros⟩
    simp only [clearTail, Handle.of_allocated, size, short, if_false]
    rfl

/-- By a copy, for a block that is shared. -/
theorem reallocShared_spec (junk : Junk) (owned : Owned Fits m (r ::ₘ refs))
    (kind : r.tag.backing = .malloc) (some_ : n ≠ 0)
    (clears : ClearsInside elt r.tag.size (n * elt)) :
    ∃ r' m', reallocShared junk elt n (Handle.of r) m = .ok (Handle.of r', m') ∧
      Yields m m' refs r' .malloc (resize (n * elt) (m.contents r)) := by
  have here : r ∈ r ::ₘ refs := Multiset.mem_cons_self ..
  have less : refs ≤ r ::ₘ refs := Multiset.le_cons_self ..
  have length := contents_length owned here
  have clears' : ClearsInside elt (min (n * elt) r.tag.size) (n * elt) := by
    rcases clears with one | none_ | fewer
    · exact Or.inl one
    · exact Or.inr (Or.inl (by omega))
    · exact Or.inr (Or.inr (by omega))
  obtain ⟨t, m₁, made, -, first⟩ := newElements_spec junk elt owned some_
  have size : t.tag.size = n * elt := by rw [first.size, List.length_replicate]
  obtain ⟨t', m₂, cleared, second⟩ := clearTail_spec junk first.owned first.backing
    (Nat.min_le_left (n * elt) r.tag.size) clears' first.contents
  have keeps := first.keeps.trans second.keeps
  have size' : t'.tag.size = n * elt := by rw [second.size, List.length_replicate]
  have same : t'.tag.backing = r.tag.backing := second.backing.trans kind.symm
  obtain ⟨r', m₃, become, third⟩ := become_spec junk second.owned same
    (show min (n * elt) r.tag.size ≤ t'.tag.size by omega) (Nat.min_le_right ..)
  rw [kind] at become third
  refine ⟨r', m₃, ?_, Yields.of_eq (keeps.mono less) third ?_⟩
  · simp only [reallocShared, made, bind, Except.bind, Handle.of_allocated, size, cleared, become]
  · rw [second.contents, contents_keeps keeps here]
    exact blit_zeros (by rw [length])

/-- `realloc` of a buffer that holds a block, on whichever branch. -/
theorem reallocElements_spec (junk : Junk) (owned : Owned Fits m (r ::ₘ refs))
    (kind : r.tag.backing = .malloc) (some_ : n * elt ≠ 0)
    (clears : ClearsInside elt r.tag.size (n * elt)) :
    ∃ r' m', realloc junk elt n (Handle.of r) m = .ok (Handle.of r', m') ∧
      Yields m m' refs r' .malloc (resize (n * elt) (m.contents r)) := by
  have here : r ∈ r ::ₘ refs := Multiset.mem_cons_self ..
  have count : (r ::ₘ refs).count r = refs.count r + 1 := Multiset.count_cons_self ..
  by_cases already : n * elt = r.tag.size
  · refine ⟨r, m, ?_, owned, Keeps.rfl, kind, ?_⟩
    · simp only [realloc, Handle.of_allocated, already, if_true]
      rfl
    · rw [resize_same (by rw [contents_length owned here, already])]
  · have counter := counter_held owned here
    rw [count] at counter
    have same : counted (Handle.of r) m = (Handle.of r, m) := rfl
    by_cases shared : r ∈ refs
    · obtain ⟨r', m', after, yields⟩ := reallocShared_spec junk owned kind
        (Nat.ne_zero_of_mul_ne_zero_left some_) clears
      have size : r'.tag.size = n * elt := by rw [yields.size, length_resize]
      have several : refs.count r + 1 ≠ 1 := by
        have := Multiset.count_pos.2 shared
        omega
      refine ⟨r', m', ?_, yields⟩
      simp only [realloc, Handle.of_allocated, already, if_false, same, Handle.of_refcount,
        counter, bind, Except.bind, several, after, Handle.checked, size, if_true]
      rfl
    · obtain ⟨r', m', after, yields⟩ := reallocAlone_spec junk owned shared kind some_ clears
      have size : r'.tag.size = n * elt := by rw [yields.size, length_resize]
      have single : refs.count r = 0 := Multiset.count_eq_zero.2 shared
      refine ⟨r', m', ?_, yields⟩
      simp only [realloc, Handle.of_allocated, already, if_false, same, Handle.of_refcount,
        counter, bind, Except.bind, single, Nat.zero_add, if_true, after, Handle.checked, size]
      rfl

/-- `realloc` of a buffer of bytes. -/
theorem realloc_spec (junk : Junk) (owned : Owned Fits m (r ::ₘ refs))
    (kind : r.tag.backing = .malloc) (some_ : n ≠ 0) :
    ∃ r' m', realloc junk 1 n (Handle.of r) m = .ok (Handle.of r', m') ∧
      Yields m m' refs r' .malloc (resize n (m.contents r)) := by
  have bytes : n * 1 ≠ 0 := by rwa [Nat.mul_one]
  have spec := reallocElements_spec junk owned kind bytes (Or.inl rfl)
  rwa [Nat.mul_one] at spec

end AllocBuffer

/-! ### `mmap_buffer` -/

namespace MmapBuffer

theorem reallocAlone_spec (owned : Owned Fits m (r ::ₘ refs)) (alone : r ∉ refs)
    (kind : r.tag.backing = .mmap) (size : Nat) :
    ∃ r' m', reallocAlone size (Handle.of r) m = .ok (Handle.of r', m') ∧
      Yields m m' refs r' .mmap (resize size (m.contents r)) := by
  have here : r ∈ r ::ₘ refs := Multiset.mem_cons_self ..
  have length := contents_length owned here
  have block := find_held owned here
  rw [kind] at block
  obtain ⟨-, moved⟩ := moved_spec owned alone .mmap (resize size (m.contents r))
  refine ⟨_, _, ?_, moved⟩
  simp only [reallocAlone, Option.isNone_some, Bool.false_eq_true, if_false, Memory.mremap, block,
    bind, Except.bind, length, and_self, if_true, Handle.of, length_resize]
  rw [resize, length]
  rfl

theorem reallocShared_spec (junk : Junk) (owned : Owned Fits m (r ::ₘ refs))
    (kind : r.tag.backing = .mmap) {n : Nat} (some_ : n ≠ 0) :
    ∃ r' m', reallocShared junk 1 n (Handle.of r) m = .ok (Handle.of r', m') ∧
      Yields m m' refs r' .mmap (resize (roundToPage n) (m.contents r)) := by
  have here : r ∈ r ::ₘ refs := Multiset.mem_cons_self ..
  have length := contents_length owned here
  obtain ⟨t, m₁, made, -, first⟩ := new_spec owned some_
  have size : t.tag.size = roundToPage n := by rw [first.size, List.length_replicate]
  have same : t.tag.backing = r.tag.backing := first.backing.trans kind.symm
  have less : refs ≤ r ::ₘ refs := Multiset.le_cons_self ..
  obtain ⟨r', m₂, become, second⟩ := become_spec junk first.owned same
    (Nat.min_le_left t.tag.size r.tag.size) (Nat.min_le_right ..)
  rw [kind] at become second
  refine ⟨r', m₂, ?_, Yields.of_eq (first.keeps.mono less) second ?_⟩
  · simp only [reallocShared, made, bind, Except.bind, Handle.of_allocated, become]
  · rw [first.contents, contents_keeps first.keeps here]
    exact blit_zeros (by rw [length, size])

/-- `realloc` of a mapping of bytes. -/
theorem realloc_spec (junk : Junk) (owned : Owned Fits m (r ::ₘ refs))
    (kind : r.tag.backing = .mmap) {n : Nat} (some_ : n ≠ 0) :
    ∃ r' m', realloc junk 1 n (Handle.of r) m = .ok (Handle.of r', m') ∧
      Yields m m' refs r' .mmap (resize (roundToPage n) (m.contents r)) := by
  have here : r ∈ r ::ₘ refs := Multiset.mem_cons_self ..
  have count : (r ::ₘ refs).count r = refs.count r + 1 := Multiset.count_cons_self ..
  have enough : ¬ roundToPage n < n := Nat.not_lt.2 (le_roundToPage n)
  by_cases already : roundToPage n = r.tag.size
  · refine ⟨r, m, ?_, owned, Keeps.rfl, kind, ?_⟩
    · rw [already] at enough
      simp only [realloc, Nat.mul_one, Handle.of_allocated, already, enough, if_false, if_true]
      rfl
    · rw [resize_same (by rw [contents_length owned here, already])]
  · have counter := counter_held owned here
    rw [count] at counter
    by_cases shared : r ∈ refs
    · obtain ⟨r', m', after, yields⟩ := reallocShared_spec junk owned kind some_
      have size : r'.tag.size = roundToPage n := by rw [yields.size, length_resize]
      have several : refs.count r + 1 ≠ 1 := by
        have := Multiset.count_pos.2 shared
        omega
      refine ⟨r', m', ?_, yields⟩
      simp only [realloc, Nat.mul_one, enough, if_false, Handle.of_allocated, already, alone,
        Handle.of_refcount, Option.isNone_some, Bool.false_eq_true, counter, bind, Except.bind,
        several, decide_false, pure, Except.pure, after, Handle.checked, size, if_true]
    · obtain ⟨r', m', after, yields⟩ := reallocAlone_spec owned shared kind (roundToPage n)
      have size : r'.tag.size = roundToPage n := by rw [yields.size, length_resize]
      have single : refs.count r = 0 := Multiset.count_eq_zero.2 shared
      refine ⟨r', m', ?_, yields⟩
      simp only [realloc, Nat.mul_one, enough, if_false, Handle.of_allocated, already, alone,
        Handle.of_refcount, Option.isNone_some, Bool.false_eq_true, counter, bind, Except.bind,
        single, Nat.zero_add, decide_true, pure, Except.pure, if_true, after, Handle.checked, size]

end MmapBuffer

end Reallocation

end Coinscope.Shared

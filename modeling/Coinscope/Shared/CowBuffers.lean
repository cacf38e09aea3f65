/-
# Shared.CowBuffers -- `alloc_buffer` and `mmap_buffer`

The two buffers under `wrapped_buffer`, the one over `malloc` and the other over anonymous
mappings.  Both are three members: the size, where the block is, and where its reference count
is.  A copy shares the block and raises the count; `ptr()` makes a block of its own if the count
is above one, and `realloc` either changes the block in place or copies what it keeps.

Memory is a heap of blocks and counters.  Using one that is not there, or bytes that are not in
it, is undefined; a `malloc` block holds anything at all when it is new, a mapping zeros.  Sizes
are kept in bytes and pointers advance in elements, of `elt` bytes each.

* `Memory` -- the library functions the two classes call.
* `Handle.copy`, `Handle.destroy`, `Handle.ptr` -- what the classes share.
* `AllocBuffer`, `MmapBuffer` -- their constructors and `realloc`.
-/
import Coinscope.Shared.WrappedBuffer
import Coinscope.Theory.SharedBlocks

namespace Coinscope.Shared

open Coinscope.Theory.Bytes
open Coinscope.Theory.SharedBlocks

set_option autoImplicit false

/-! ## Memory -/

/-- Where a block comes from. -/
inductive Backing where
  | malloc
  | mmap
  deriving DecidableEq

structure Block where
  backing : Backing
  bytes : List UInt8
  deriving DecidableEq

abbrev Memory := Heap Block

/-- An operation does not return: it has no meaning, an assertion failed, or it threw. -/
inductive Fault where
  | undefined
  | asserted
  | threw (what : String)
  deriving DecidableEq

/-- What a new `malloc` block at an address holds, by offset. -/
abbrev Junk := Nat → Nat → UInt8

namespace Memory

/-- `n` bytes nobody has written, from an offset on. -/
def uninitialised (junk : Junk) (a off n : Nat) : List UInt8 :=
  (List.range n).map fun i => junk a (off + i)

def malloc (junk : Junk) (n : Nat) (m : Memory) : Nat × Memory :=
  m.place ⟨.malloc, uninitialised junk m.next 0 n⟩

/-- `mmap(NULL, n, PROT_READ | PROT_WRITE, MAP_PRIVATE | MAP_ANONYMOUS, -1, 0)`. -/
def mmap (n : Nat) (m : Memory) : Nat × Memory := m.place ⟨.mmap, List.replicate n 0⟩

/-- The block a pointer points to the start of. -/
def find (p : Option Nat) (m : Memory) : Except Fault (Nat × Block) :=
  match p with
  | none => .error .undefined
  | some a =>
      match m.blocks a with
      | none => .error .undefined
      | some b => .ok (a, b)

/-- Reading `n` bytes at an offset. -/
def load (p : Option Nat) (off n : Nat) (m : Memory) : Except Fault (List UInt8) := do
  let (_, b) ← m.find p
  if off + n ≤ b.bytes.length then return slice off n b.bytes else throw .undefined

/-- Writing bytes at an offset. -/
def store (p : Option Nat) (off : Nat) (bytes : List UInt8) (m : Memory) :
    Except Fault Memory := do
  let (a, b) ← m.find p
  if off + bytes.length ≤ b.bytes.length then
    return m.setBlock a (some { b with bytes := WrappedBuffer.blit b.bytes off bytes })
  else throw .undefined

/-- `memset(p + off, 0, n)`. -/
def memset (p : Option Nat) (off n : Nat) (m : Memory) : Except Fault Memory :=
  m.store p off (List.replicate n 0)

/-- `memcpy(dst, src, n)`. -/
def memcpy (dst src : Option Nat) (n : Nat) (m : Memory) : Except Fault Memory := do
  let bytes ← m.load src 0 n
  m.store dst 0 bytes

/-- `free(p)`. -/
def free (p : Option Nat) (m : Memory) : Except Fault Memory :=
  match p with
  | none => .ok m
  | some _ => do
      let (a, b) ← m.find p
      if b.backing = .malloc then return m.setBlock a none else throw .undefined

/-- `munmap(p, n)`, of all of a mapping. -/
def munmap (p : Option Nat) (n : Nat) (m : Memory) : Except Fault Memory := do
  let (a, b) ← m.find p
  if b.backing = .mmap ∧ b.bytes.length = n then return m.setBlock a none else throw .undefined

/-- `::realloc(p, n)`.  It may move the block; asked for nothing it frees it. -/
def realloc (junk : Junk) (p : Option Nat) (n : Nat) (m : Memory) :
    Except Fault (Option Nat × Memory) :=
  match p with
  | none =>
      let (a, m) := m.malloc junk n
      .ok (some a, m)
  | some _ => do
      if n = 0 then return (none, ← m.free p)
      let (a, b) ← m.find p
      let kept := b.bytes.take n
      let (new, moved) := (m.setBlock a none).place
        ⟨.malloc, kept ++ uninitialised junk m.next kept.length (n - kept.length)⟩
      if b.backing = .malloc then return (some new, moved) else throw .undefined

/-- `mremap(p, old, n, MREMAP_MAYMOVE)`; what is new of an anonymous mapping is zeros. -/
def mremap (p : Option Nat) (old n : Nat) (m : Memory) : Except Fault (Option Nat × Memory) := do
  let (a, b) ← m.find p
  let (new, moved) := (m.setBlock a none).place
    ⟨.mmap, b.bytes.take n ++ List.replicate (n - b.bytes.length) 0⟩
  if b.backing = .mmap ∧ b.bytes.length = old then return (some new, moved) else throw .undefined

/-- `new size_type(1)`. -/
def newCounter (m : Memory) : Nat × Memory := m.placeCount 1

/-- `*refcount_`. -/
def counter (p : Option Nat) (m : Memory) : Except Fault Nat :=
  match p.bind m.counts with
  | none => .error .undefined
  | some n => .ok n

/-- `*refcount_ = n`, for a counter that is there. -/
def setCounter (p : Option Nat) (n : Nat) (m : Memory) : Except Fault Memory :=
  match p with
  | none => .error .undefined
  | some c => if (m.counts c).isSome then .ok (m.setCount c (some n)) else .error .undefined

/-- `delete refcount_`. -/
def deleteCounter (p : Option Nat) (m : Memory) : Except Fault Memory :=
  match p with
  | none => .ok m
  | some c => if (m.counts c).isSome then .ok (m.setCount c none) else .error .undefined

end Memory

/-! ## The classes -/

/-- The members of `alloc_buffer` and of `mmap_buffer`. -/
structure Handle where
  allocated : Nat
  buffer : Option Nat
  refcount : Option Nat
  deriving DecidableEq

namespace Handle

/-- The copy constructors. -/
def copy (h : Handle) (m : Memory) : Except Fault (Handle × Memory) :=
  if h.refcount.isSome then do
    let n ← m.counter h.refcount
    return (h, ← m.setCounter h.refcount (n + 1))
  else return (h, m)

/-- The destructors. -/
def destroy (backing : Backing) (h : Handle) (m : Memory) : Except Fault Memory :=
  if h.refcount.isSome then do
    let n ← m.counter h.refcount
    let m ← m.setCounter h.refcount (n - 1)
    if n - 1 = 0 then
      let m ← m.deleteCounter h.refcount
      match backing with
      | .malloc => m.free h.buffer
      | .mmap => m.munmap h.buffer h.allocated
    else return m
  else return m

/-- `operator=`, with its argument made: they are swapped, and the argument destroyed. -/
def assign (backing : Backing) (h other : Handle) (m : Memory) : Except Fault (Handle × Memory) := do
  let m ← h.destroy backing m
  return (other, m)

/-- A block of the kind. -/
def fresh (junk : Junk) (backing : Backing) (n : Nat) (m : Memory) : Nat × Memory :=
  match backing with
  | .malloc => m.malloc junk n
  | .mmap => m.mmap n

/-- `ptr()`: the handle behind it, whose `buffer` it returns. -/
def ptr (junk : Junk) (backing : Backing) (h : Handle) (m : Memory) :
    Except Fault (Handle × Memory) :=
  if h.buffer.isNone then throw (.threw "Invalid buffer")
  else do
    let n ← m.counter h.refcount
    if n > 1 then
      let (newbuf, m) := fresh junk backing h.allocated m
      let m ← m.memcpy (some newbuf) h.buffer h.allocated
      let m ← m.setCounter h.refcount (n - 1)
      let (refcount, m) := m.newCounter
      return ({ h with buffer := some newbuf, refcount := some refcount }, m)
    else return (h, m)

/-- The end of both branches that copy: `memcpy(tmp.ptr(), buffer_, n); *this = tmp;`, and `tmp`
is destroyed. -/
def become (junk : Junk) (backing : Backing) (kept : Nat) (h tmp : Handle) (m : Memory) :
    Except Fault (Handle × Memory) := do
  let (tmp, m) ← tmp.ptr junk backing m
  let m ← m.memcpy tmp.buffer h.buffer kept
  let (other, m) ← tmp.copy m
  let (h, m) ← h.assign backing other m
  let m ← tmp.destroy backing m
  return (h, m)

/-- `assert(allocated_ == size)`, the last line of both. -/
def checked (h : Handle) (size : Nat) (m : Memory) : Except Fault (Handle × Memory) :=
  if h.allocated = size then return (h, m) else throw .asserted

end Handle

namespace AllocBuffer

variable (junk : Junk) (elt : Nat)

/-- `alloc_buffer(n)`. -/
def new (n : Nat) (m : Memory) : Except Fault (Handle × Memory) :=
  let allocated := n * elt
  if n ≠ 0 then do
    let (refcount, m) := m.newCounter
    let (buffer, m) := m.malloc junk allocated
    let m ← m.memset (some buffer) 0 allocated
    return (⟨allocated, some buffer, some refcount⟩, m)
  else return (⟨allocated, none, none⟩, m)

/-- `if (size > allocated_) memset(newbuf + allocated_, 0, size - allocated_)`. -/
def clearGrown (newbuf : Option Nat) (allocated size : Nat) (m : Memory) : Except Fault Memory :=
  if size > allocated then m.memset newbuf (allocated * elt) (size - allocated) else return m

/-- The branch of `realloc` for a block that is not shared. -/
def reallocAlone (size : Nat) (h : Handle) (m : Memory) : Except Fault (Handle × Memory) := do
  let (newbuf, m) ← m.realloc junk h.buffer size
  if newbuf.isNone then throw (.threw "realloc failure: ")
  let m ← clearGrown elt newbuf h.allocated size m
  return ({ h with buffer := newbuf, allocated := size }, m)

/-- `if (n < tmp.allocated_) memset(tmp.ptr() + n, 0, tmp.allocated_ - n)`. -/
def clearTail (kept : Nat) (tmp : Handle) (m : Memory) : Except Fault (Handle × Memory) :=
  if kept < tmp.allocated then do
    let (tmp, m) ← tmp.ptr junk .malloc m
    let m ← m.memset tmp.buffer (kept * elt) (tmp.allocated - kept)
    return (tmp, m)
  else return (tmp, m)

/-- The other branch, with its `tmp`. -/
def reallocShared (n : Nat) (h : Handle) (m : Memory) : Except Fault (Handle × Memory) := do
  let (tmp, m) ← new junk elt n m
  let kept := min tmp.allocated h.allocated
  let (tmp, m) ← clearTail junk elt kept tmp m
  h.become junk .malloc kept tmp m

/-- A handle without a block gets a counter. -/
def counted (h : Handle) (m : Memory) : Handle × Memory :=
  if h.refcount.isNone then
    let (refcount, m) := m.newCounter
    ({ h with refcount := some refcount }, m)
  else (h, m)

/-- `alloc_buffer::realloc(n)`. -/
def realloc (n : Nat) (h : Handle) (m : Memory) : Except Fault (Handle × Memory) :=
  let size := n * elt
  if size = h.allocated then return (h, m)
  else do
    let (h, m) := counted h m
    let count ← m.counter h.refcount
    let after ← if count = 1 then reallocAlone junk elt size h m else reallocShared junk elt n h m
    after.1.checked size after.2

end AllocBuffer

namespace MmapBuffer

variable (junk : Junk) (elt : Nat)

/-- `mmap_buffer(n)`. -/
def new (n : Nat) (m : Memory) : Except Fault (Handle × Memory) :=
  if n > 0 then
    let allocated := roundToPage (n * elt)
    let (refcount, m) := m.newCounter
    let (buffer, m) := m.mmap allocated
    return (⟨allocated, some buffer, some refcount⟩, m)
  else return (⟨0, none, none⟩, m)

/-- The branch of `realloc` for a block that is not shared, or not there. -/
def reallocAlone (size : Nat) (h : Handle) (m : Memory) : Except Fault (Handle × Memory) :=
  if h.refcount.isNone then
    let (buffer, m) := m.mmap size
    let (refcount, m) := m.newCounter
    return (⟨size, some buffer, some refcount⟩, m)
  else do
    let (newbuf, m) ← m.mremap h.buffer h.allocated size
    return ({ h with buffer := newbuf, allocated := size }, m)

def reallocShared (n : Nat) (h : Handle) (m : Memory) : Except Fault (Handle × Memory) := do
  let (tmp, m) ← new elt n m
  h.become junk .mmap (min tmp.allocated h.allocated) tmp m

/-- `!refcount_ || *refcount_ == 1`. -/
def alone (h : Handle) (m : Memory) : Except Fault Bool :=
  if h.refcount.isNone then return true
  else do
    let count ← m.counter h.refcount
    return decide (count = 1)

/-- `mmap_buffer::realloc(n)`. -/
def realloc (n : Nat) (h : Handle) (m : Memory) : Except Fault (Handle × Memory) :=
  let size := roundToPage (n * elt)
  if size < n * elt then throw .asserted
  else if size = h.allocated then return (h, m)
  else do
    let inPlace ← alone h m
    let after ← if inPlace then reallocAlone size h m else reallocShared junk elt n h m
    after.1.checked size after.2

end MmapBuffer

end Coinscope.Shared

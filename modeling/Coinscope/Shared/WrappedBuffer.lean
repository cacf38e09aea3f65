/-
# Shared.WrappedBuffer -- the value of a copy-on-write buffer

`wrapped_buffer<uint8_t>` keeps its bytes in a `malloc` block up to
`MMAP_THRESHOLD` bytes and in an anonymous mapping above it.  Copies share the
block until one of them is written through `ptr()` or reallocated.  This module
is the value a variable of that type has: its `allocated()` bytes, as a list.
`Shared.ValueSemantics` shows that variables of the class have these values.

`realloc` keeps what fits and fills up with zeros; above the threshold the size
is rounded up to a page (`allocatedFor`), so a buffer may hold more than was
asked for and every user keeps its own count of the bytes that matter.
-/
import Coinscope.Theory.Bytes

namespace Coinscope.Shared

open Coinscope.Theory.Bytes

set_option autoImplicit false

/-- `sysconf(_SC_PAGESIZE)`. -/
def pageSize : Nat := 4096

/-- `MMAP_THRESHOLD`. -/
def mmapThreshold : Nat := 50000

/-- `round_to_page`: up to a whole number of pages, and never zero. -/
def roundToPage (size : Nat) : Nat :=
  let lower := size / pageSize
  let size := if lower * pageSize < size then (lower + 1) * pageSize else size
  if size = 0 then pageSize else size

/-- `allocated()` of a buffer that was asked for `n` bytes. -/
def allocatedFor (n : Nat) : Nat := if n > mmapThreshold then roundToPage n else n

theorem le_roundToPage (size : Nat) : size ≤ roundToPage size := by
  have small : size % pageSize < pageSize := Nat.mod_lt _ (by decide)
  have parts : pageSize * (size / pageSize) + size % pageSize = size := Nat.div_add_mod ..
  simp only [roundToPage]
  split <;> split <;> simp only [pageSize] at * <;> omega

theorem le_allocatedFor (n : Nat) : n ≤ allocatedFor n := by
  unfold allocatedFor
  split
  · exact le_roundToPage n
  · exact Nat.le_refl n

namespace WrappedBuffer

/-- `wrapped_buffer(n)`: zero-filled. -/
def ofSize (n : Nat) : List UInt8 := List.replicate (allocatedFor n) 0

/-- `wrapped_buffer::realloc(n)`. -/
def realloc (n : Nat) (bytes : List UInt8) : List UInt8 :=
  bytes.take (allocatedFor n) ++ List.replicate (allocatedFor n - bytes.length) 0

/-- `memcpy(ptr() + at_, src, src.length)`. -/
def blit (bytes : List UInt8) (at_ : Nat) (src : List UInt8) : List UInt8 :=
  bytes.take at_ ++ src ++ bytes.drop (at_ + src.length)

@[simp] theorem length_ofSize (n : Nat) : (ofSize n).length = allocatedFor n := by
  simp [ofSize]

@[simp] theorem length_realloc (n : Nat) (bytes : List UInt8) :
    (realloc n bytes).length = allocatedFor n := by
  simp [realloc]; omega

theorem length_blit {bytes : List UInt8} {at_ : Nat} {src : List UInt8}
    (inside : at_ + src.length ≤ bytes.length) : (blit bytes at_ src).length = bytes.length := by
  simp [blit]; omega

/-- Growing or shrinking keeps every prefix that fits. -/
theorem take_realloc {n k : Nat} {bytes : List UInt8} (kept : k ≤ n) (there : k ≤ bytes.length) :
    (realloc n bytes).take k = bytes.take k := by
  have room := le_allocatedFor n
  have inside : k ≤ (bytes.take (allocatedFor n)).length := by simp; omega
  rw [realloc, List.take_append_of_le_length inside, List.take_take, Nat.min_eq_left (by omega)]

/-- A copy keeps what is below it and puts its bytes where it says. -/
theorem take_blit {bytes : List UInt8} {at_ : Nat} {src : List UInt8}
    (inside : at_ ≤ bytes.length) :
    (blit bytes at_ src).take (at_ + src.length) = bytes.take at_ ++ src := by
  have len : (bytes.take at_ ++ src).length = at_ + src.length := by simp; omega
  rw [blit, ← len, List.take_left]

/-- The bytes copied, where they were put. -/
theorem slice_blit {bytes : List UInt8} {at_ n : Nat} {src : List UInt8}
    (inside : at_ ≤ bytes.length) (whole : src.length = n) :
    slice at_ n (blit bytes at_ src) = src := by
  have before : (bytes.take at_).length = at_ := by rw [List.length_take, Nat.min_eq_left inside]
  rw [slice, blit, List.append_assoc, List.drop_left' before, List.take_left' whole]

/-- What lies behind a write is not touched. -/
theorem drop_blit {bytes : List UInt8} {at_ off : Nat} {src : List UInt8}
    (inside : at_ ≤ bytes.length) (behind : at_ + src.length ≤ off) :
    (blit bytes at_ src).drop off = bytes.drop off := by
  have before : (bytes.take at_).length = at_ := by rw [List.length_take]; omega
  rw [blit, List.drop_append, List.drop_eq_nil_of_le (by simp; omega), List.drop_drop]
  simp only [List.nil_append, List.length_append, before]
  congr 1
  omega

/-- Writing on where another write has ended. -/
theorem blit_next {bytes : List UInt8} {at_ next : Nat} {first second : List UInt8}
    (inside : at_ ≤ bytes.length) (behind : at_ + first.length = next) :
    blit (blit bytes at_ first) next second = blit bytes at_ (first ++ second) := by
  have whole : next + second.length = at_ + (first ++ second).length := by
    rw [List.length_append]
    omega
  rw [blit, drop_blit inside (by omega), whole, ← behind, take_blit inside, blit,
    List.append_assoc _ first]

/-- A write over as many bytes. -/
theorem blit_middle {a b c : List UInt8} {at_ : Nat} {src : List UInt8} (before : a.length = at_)
    (same : b.length = src.length) : blit (a ++ b ++ c) at_ src = a ++ src ++ c := by
  have front : (a ++ b).length = at_ + src.length := by rw [List.length_append]; omega
  rw [blit, List.drop_left' front, List.append_assoc a b, List.take_left' before]

/-- A write that reaches the end. -/
theorem blit_end {bytes : List UInt8} {at_ : Nat} {src : List UInt8}
    (whole : bytes.length ≤ at_ + src.length) : blit bytes at_ src = bytes.take at_ ++ src := by
  rw [blit, List.drop_eq_nil_of_le whole, List.append_nil]

/-- What lies in front of a copy is not touched. -/
theorem slice_blit_before {bytes : List UInt8} {at_ off n : Nat} (src : List UInt8)
    (inside : at_ ≤ bytes.length) (below : off + n ≤ at_) :
    slice off n (blit bytes at_ src) = slice off n bytes := by
  have before : (bytes.take at_).length = at_ := by rw [List.length_take, Nat.min_eq_left inside]
  rw [blit, List.append_assoc, slice_append_left _ (by rw [before]; exact below),
    slice_take _ below]

end WrappedBuffer

end Coinscope.Shared

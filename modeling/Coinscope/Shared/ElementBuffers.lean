/-
# Shared.ElementBuffers -- `alloc_buffer<T>::realloc` for the two `T` there are

`alloc_buffer` is instantiated for `uint8_t` and for `uint32_t`.  The count of elements is a
`size_type`, and so is its product with the size of one, which may wrap.  `allocated_` is in
bytes, but `newbuf + allocated_` and `tmp.ptr() + n` advance in elements: for `uint32_t` the
zeros of a block that grows are put four times too far out, in either branch.

* `Element` -- the two instantiations.
* `Element.new`, `Element.realloc` -- the constructor and `realloc` in machine sizes.
* `realloc_undefined` -- a block of wider elements that grows is written outside.
* `realloc_resizes_iff` -- which calls keep, clear and share as they should.
-/
import Coinscope.Shared.CopyOnWrite

namespace Coinscope.Shared

open Coinscope.Theory.Bytes
open Coinscope.Theory.SharedBlocks

set_option autoImplicit false

/-! ## The instantiations -/

/-- The types `alloc_buffer` is instantiated for. -/
inductive Element where
  | uint8
  | uint32
  deriving DecidableEq

namespace Element

/-- `sizeof(POD_T)`. -/
def sizeof : Element → Nat
  | .uint8 => 1
  | .uint32 => 4

/-- `new_elt_cnt * sizeof(POD_T)`, a `size_type`. -/
def bytes (T : Element) (n : UInt64) : Nat := n.toNat * T.sizeof % 2 ^ 64

variable (junk : Junk) (T : Element)

/-- `alloc_buffer<T>(n)`. -/
def new (n : UInt64) (m : Memory) : Except Fault (Handle × Memory) :=
  let allocated := T.bytes n
  if n ≠ 0 then do
    let (refcount, m) := m.newCounter
    let (buffer, m) := m.malloc junk allocated
    let m ← m.memset (some buffer) 0 allocated
    return (⟨allocated, some buffer, some refcount⟩, m)
  else return (⟨allocated, none, none⟩, m)

/-- The branch of `realloc` that copies. -/
def reallocShared (n : UInt64) (h : Handle) (m : Memory) : Except Fault (Handle × Memory) := do
  let (tmp, m) ← T.new junk n m
  let kept := min tmp.allocated h.allocated
  let (tmp, m) ← AllocBuffer.clearTail junk T.sizeof kept tmp m
  h.become junk .malloc kept tmp m

/-- `alloc_buffer<T>::realloc(n)`. -/
def realloc (n : UInt64) (h : Handle) (m : Memory) : Except Fault (Handle × Memory) :=
  let size := T.bytes n
  if size = h.allocated then return (h, m)
  else do
    let (h, m) := AllocBuffer.counted h m
    let count ← m.counter h.refcount
    let after ← if count = 1 then AllocBuffer.reallocAlone junk T.sizeof size h m
      else T.reallocShared junk n h m
    after.1.checked size after.2

/-! ## Sizes that fit -/

variable {junk} {T} {n : UInt64}

theorem sizeof_pos : 0 < T.sizeof := by
  cases T <;> decide

theorem bytes_eq (fits : n.toNat * T.sizeof < 2 ^ 64) : T.bytes n = n.toNat * T.sizeof :=
  Nat.mod_eq_of_lt fits

theorem new_eq (fits : n.toNat * T.sizeof < 2 ^ 64) (m : Memory) :
    T.new junk n m = AllocBuffer.new junk T.sizeof n.toNat m := by
  have none_ : n ≠ 0 ↔ n.toNat ≠ 0 := by
    rw [ne_eq, ← UInt64.toNat_inj]
    rfl
  simp only [new, AllocBuffer.new, bytes_eq fits, none_]

/-- Without a wrap it is `realloc` over numbers. -/
theorem realloc_eq (fits : n.toNat * T.sizeof < 2 ^ 64) (h : Handle) (m : Memory) :
    T.realloc junk n h m = AllocBuffer.realloc junk T.sizeof n.toNat h m := by
  simp only [realloc, AllocBuffer.realloc, reallocShared, AllocBuffer.reallocShared, bytes_eq fits,
    new_eq fits]

theorem bind_ok {α β : Type} {first : Except Fault α} {rest : α → Except Fault β} {result : β}
    (done : first >>= rest = .ok result) : ∃ made, first = .ok made ∧ rest made = .ok result := by
  cases first with
  | error fault => cases done
  | ok made => exact ⟨made, rfl, done⟩

theorem allocated_of_checked {h h' : Handle} {size : Nat} {m m' : Memory}
    (done : h.checked size m = .ok (h', m')) : h'.allocated = size := by
  simp only [Handle.checked] at done
  split at done
  next same =>
    cases done
    exact same
  next => cases done

/-- What comes back has the size in bytes that the machine computes, if anything does. -/
theorem allocated_of_realloc {h h' : Handle} {m m' : Memory}
    (done : T.realloc junk n h m = .ok (h', m')) : h'.allocated = T.bytes n := by
  simp only [realloc] at done
  split at done
  next same =>
    cases done
    exact same.symm
  next =>
    obtain ⟨count, -, done⟩ := bind_ok done
    split at done
    · obtain ⟨after, -, done⟩ := bind_ok done
      exact allocated_of_checked done
    · obtain ⟨after, -, done⟩ := bind_ok done
      exact allocated_of_checked done

end Element

/-! ## Outside the block -/

section Outside

variable {m : Memory} {refs : Multiset (Ref Tag)} {r : Ref Tag} {elt n : Nat}

theorem store_outside (owned : Owned Fits m refs) (here : r ∈ refs) {off : Nat}
    {bytes : List UInt8} (outside : r.tag.size < off + bytes.length) :
    m.store (some r.block) off bytes = .error .undefined := by
  have length := contents_length owned here
  simp only [Memory.store, find_held owned here]
  show (if off + bytes.length ≤ (m.contents r).length then _ else _) = _
  rw [if_neg (by omega)]
  rfl

/-- `n - old` zeros at element `old` do not end at byte `n`. -/
theorem clears_outside {old size : Nat} (wide : 1 < elt) (some_ : 0 < old) (grown : old < size) :
    size < old * elt + (List.replicate (size - old) (0 : UInt8)).length := by
  have far : old * 2 ≤ old * elt := Nat.mul_le_mul_left old wide
  rw [List.length_replicate]
  omega

namespace AllocBuffer

theorem reallocAlone_undefined (junk : Junk) (owned : Owned Fits m (r ::ₘ refs)) (alone : r ∉ refs)
    (kind : r.tag.backing = .malloc) (wide : 1 < elt) (old : 0 < r.tag.size)
    (grown : r.tag.size < n) :
    reallocAlone junk elt n (Handle.of r) m = .error .undefined := by
  have length := contents_length owned (Multiset.mem_cons_self ..)
  obtain ⟨tail, rest, called⟩ := realloc_moves junk owned kind (show n ≠ 0 by omega)
  have size : ((m.contents r).take n ++ tail).length = n := by
    rw [List.length_append, rest, List.length_take]
    omega
  obtain ⟨-, moved⟩ := moved_spec owned alone .malloc ((m.contents r).take n ++ tail)
  have outside : ((m.contents r).take n ++ tail).length <
      r.tag.size * elt + (List.replicate (n - r.tag.size) (0 : UInt8)).length := by
    rw [size]
    exact clears_outside wide old grown
  have cleared := store_outside moved.owned (Multiset.mem_cons_self ..) outside
  simp only [reallocAlone, Handle.of_buffer, called, bind, Except.bind, Option.isNone_some,
    Bool.false_eq_true, if_false, clearGrown, Handle.of_allocated, grown, if_true,
    Memory.memset, cleared]

theorem clearTail_undefined (junk : Junk) {t : Ref Tag} (owned : Owned Fits m (t ::ₘ refs))
    (kind : t.tag.backing = .malloc) (wide : 1 < elt) {kept : Nat} (old : 0 < kept)
    (short : kept < t.tag.size) :
    clearTail junk elt kept (Handle.of t) m = .error .undefined := by
  obtain ⟨t', m₁, pointer, -, first⟩ := ptr_spec junk owned
  rw [kind] at pointer
  have size : t'.tag.size = t.tag.size := by
    rw [first.size, contents_length owned (Multiset.mem_cons_self ..)]
  have outside : t'.tag.size <
      kept * elt + (List.replicate (t.tag.size - kept) (0 : UInt8)).length := by
    rw [size]
    exact clears_outside wide old short
  have cleared := store_outside first.owned (Multiset.mem_cons_self ..) outside
  simp only [clearTail, Handle.of_allocated, short, if_true, pointer, bind, Except.bind,
    Memory.memset, size, Handle.of_buffer, cleared]

theorem reallocShared_undefined (junk : Junk) (owned : Owned Fits m (r ::ₘ refs)) (wide : 1 < elt)
    (old : 0 < r.tag.size) (grown : r.tag.size < n * elt) :
    reallocShared junk elt n (Handle.of r) m = .error .undefined := by
  have some_ : n ≠ 0 := by
    rintro rfl
    omega
  obtain ⟨t, m₁, made, -, first⟩ := newElements_spec junk elt owned some_
  have size : t.tag.size = n * elt := by rw [first.size, List.length_replicate]
  have kept : min (n * elt) r.tag.size = r.tag.size := Nat.min_eq_right (Nat.le_of_lt grown)
  have cleared := clearTail_undefined junk first.owned first.backing wide old
    (show r.tag.size < t.tag.size by omega)
  simp only [reallocShared, made, bind, Except.bind, Handle.of_allocated, size, kept, cleared]

/-- Growing a block of elements wider than a byte writes outside of it, shared or not. -/
theorem realloc_undefined (junk : Junk) (owned : Owned Fits m (r ::ₘ refs))
    (kind : r.tag.backing = .malloc) (wide : 1 < elt) (old : 0 < r.tag.size)
    (grown : r.tag.size < n * elt) :
    realloc junk elt n (Handle.of r) m = .error .undefined := by
  have counter := counter_held owned (Multiset.mem_cons_self ..)
  have count : (r ::ₘ refs).count r = refs.count r + 1 := Multiset.count_cons_self ..
  rw [count] at counter
  have changed : n * elt ≠ r.tag.size := by omega
  have same : counted (Handle.of r) m = (Handle.of r, m) := rfl
  by_cases shared : r ∈ refs
  · have several : refs.count r + 1 ≠ 1 := by
      have := Multiset.count_pos.2 shared
      omega
    simp only [realloc, Handle.of_allocated, changed, if_false, same, Handle.of_refcount, counter,
      bind, Except.bind, several, reallocShared_undefined junk owned wide old grown]
  · have single : refs.count r = 0 := Multiset.count_eq_zero.2 shared
    simp only [realloc, Handle.of_allocated, changed, if_false, same, Handle.of_refcount, counter,
      bind, Except.bind, single, Nat.zero_add, if_true,
      reallocAlone_undefined junk owned shared kind wide old grown]

/-- A buffer without a block gets one as if it were new. -/
theorem realloc_none (junk : Junk) (some_ : n * elt ≠ 0) (m : Memory) :
    realloc junk elt n ⟨0, none, none⟩ m = new junk elt n m := by
  have elements : n ≠ 0 := Nat.ne_zero_of_mul_ne_zero_left some_
  have positive : n * elt > 0 := Nat.pos_of_ne_zero some_
  have one : m.newCounter.2.counter (some m.newCounter.1) = .ok 1 := by
    simp [Memory.counter, Memory.newCounter, Heap.placeCount]
  simp only [realloc, some_, if_false, counted, Option.isNone_none, if_true, one, bind, Except.bind,
    reallocAlone, Memory.realloc, Option.isNone_some, Bool.false_eq_true, clearGrown, positive,
    Nat.zero_mul, Nat.sub_zero, new, elements, ne_eq, not_false_eq_true]
  -- Both clear the same new block, and stop or go on behind it.
  cases Memory.memset _ _ _ _ with
  | error fault => rfl
  | ok cleared => simp [Handle.checked, pure, Except.pure]

end AllocBuffer

end Outside

/-! ## The calls that are right -/

/-- The members of an `alloc_buffer`, which may have no block. -/
def AllocBuffer.of : Option (Ref Tag) → Handle
  | none => ⟨0, none, none⟩
  | some r => Handle.of r

/-- What `realloc` is for: it returns, the buffer has as many bytes as the elements take, those it
had and zeros behind them, in a block of `malloc`, and the blocks of the other holders, which are
all the others there are, are as they were. -/
def Resizes (junk : Junk) (T : Element) (n : UInt64) (o : Option (Ref Tag)) (m : Memory)
    (refs : Multiset (Ref Tag)) : Prop :=
  ∃ r m', T.realloc junk n (AllocBuffer.of o) m = .ok (Handle.of r, m') ∧
    Yields m m' refs r .malloc (resize (n.toNat * T.sizeof) (m.value o))

section Calls

variable {junk : Junk} {T : Element} {n : UInt64} {o : Option (Ref Tag)} {m : Memory}
variable {refs : Multiset (Ref Tag)}

theorem fits_of_resizes (resizes : Resizes junk T n o m refs) : n.toNat * T.sizeof < 2 ^ 64 := by
  obtain ⟨r, m', done, yields⟩ := resizes
  have size : r.tag.size = n.toNat * T.sizeof := by rw [yields.size, length_resize]
  have wrapped : r.tag.size = n.toNat * T.sizeof % 2 ^ 64 := Element.allocated_of_realloc done
  have below : n.toNat * T.sizeof % 2 ^ 64 < 2 ^ 64 := Nat.mod_lt _ (by decide)
  omega

theorem resizes_of_clearsInside (owned : Owned Fits m (held o + refs))
    (kind : ∀ r ∈ o, r.tag.backing = .malloc) (some_ : n ≠ 0)
    (fits : n.toNat * T.sizeof < 2 ^ 64)
    (clears : ClearsInside T.sizeof (AllocBuffer.of o).allocated (n.toNat * T.sizeof)) :
    Resizes junk T n o m refs := by
  have elements : n.toNat ≠ 0 := fun zero => some_ (UInt64.toNat_inj.1 zero)
  have bytes : n.toNat * T.sizeof ≠ 0 := Nat.mul_ne_zero elements (Nat.ne_of_gt Element.sizeof_pos)
  rw [Resizes, Element.realloc_eq fits]
  cases o with
  | none =>
      rw [held_none, zero_add] at owned
      obtain ⟨r, m', made, -, yields⟩ := AllocBuffer.newElements_spec junk T.sizeof owned elements
      refine ⟨r, m', ?_, Yields.of_eq Keeps.rfl yields ?_⟩
      · rw [AllocBuffer.of, AllocBuffer.realloc_none junk bytes, made]
      · simp [resize, Memory.value]
  | some r =>
      rw [held_some_add] at owned
      exact AllocBuffer.reallocElements_spec junk owned (kind r rfl) bytes clears

theorem realloc_undefined_of_grown {r : Ref Tag} (owned : Owned Fits m (held (some r) + refs))
    (kind : r.tag.backing = .malloc) (fits : n.toNat * T.sizeof < 2 ^ 64) (wide : T ≠ .uint8)
    (old : r.tag.size ≠ 0) (grown : r.tag.size < n.toNat * T.sizeof) :
    T.realloc junk n (Handle.of r) m = .error .undefined := by
  have wider : 1 < T.sizeof := by
    cases T with
    | uint8 => exact absurd rfl wide
    | uint32 => decide
  rw [held_some_add] at owned
  rw [Element.realloc_eq fits]
  exact AllocBuffer.realloc_undefined junk owned kind wider (Nat.pos_of_ne_zero old) grown

/-- `realloc` does what it is for exactly when the size in bytes can be computed, and the elements
are bytes, or the buffer was empty, or it does not grow. -/
theorem realloc_resizes_iff (junk : Junk) (T : Element) (o : Option (Ref Tag)) (m : Memory)
    (refs : Multiset (Ref Tag)) (owned : Owned Fits m (held o + refs))
    (kind : ∀ r ∈ o, r.tag.backing = .malloc) (n : UInt64) (some_ : n ≠ 0) :
    Resizes junk T n o m refs ↔ n.toNat * T.sizeof < 2 ^ 64 ∧
      (T = .uint8 ∨ (AllocBuffer.of o).allocated = 0 ∨
        n.toNat * T.sizeof ≤ (AllocBuffer.of o).allocated) := by
  constructor
  · intro resizes
    have fits := fits_of_resizes resizes
    refine ⟨fits, ?_⟩
    by_contra grows
    obtain ⟨wide, old, grown⟩ : T ≠ .uint8 ∧ (AllocBuffer.of o).allocated ≠ 0 ∧
        ¬ n.toNat * T.sizeof ≤ (AllocBuffer.of o).allocated := by
      simpa only [not_or] using grows
    obtain ⟨r', m', done, -⟩ := resizes
    cases o with
    | none => exact old rfl
    | some r =>
        have stopped : T.realloc junk n (AllocBuffer.of (some r)) m = .error .undefined :=
          realloc_undefined_of_grown owned (kind r rfl) fits wide old (Nat.lt_of_not_le grown)
        rw [stopped] at done
        cases done
  · rintro ⟨fits, clears⟩
    apply resizes_of_clearsInside owned kind some_ fits
    rcases clears with bytes | empty | fewer
    · rw [bytes]
      exact Or.inl rfl
    · exact Or.inr (Or.inl empty)
    · exact Or.inr (Or.inr fewer)

end Calls

/-- The block of `alloc_buffer<uint32_t>(words)`, made where there was nothing. -/
def wordsRef (words : Nat) : Ref Tag := ⟨1, 0, ⟨.malloc, 4 * words⟩⟩

/-- The memory behind it, with so many buffers that share the block. -/
def wordsMemory (words holders : Nat) : Memory where
  blocks := Function.update (fun _ => none) 1 (some ⟨.malloc, List.replicate (4 * words) 0⟩)
  counts := Function.update (fun _ => none) 0 (some holders)
  next := 2

theorem wordsMemory_owned (words others : Nat) :
    Owned Fits (wordsMemory words (others + 1))
      (held (some (wordsRef words)) + Multiset.replicate others (wordsRef words)) := by
  rw [held_some_add, ← Multiset.replicate_succ]
  have only : ∀ r ∈ Multiset.replicate (others + 1) (wordsRef words), r = wordsRef words :=
    fun r member => Multiset.eq_of_mem_replicate member
  have here : wordsRef words ∈ Multiset.replicate (others + 1) (wordsRef words) :=
    Multiset.mem_replicate.2 ⟨Nat.succ_ne_zero others, rfl⟩
  have block : (wordsMemory words (others + 1)).blocks 1 =
      some ⟨.malloc, List.replicate (4 * words) 0⟩ := rfl
  refine ⟨?_, ?_, ?_, ?_, ?_, ?_⟩
  · intro r member q also _
    rw [only r member, only q also]
  · intro r member
    rw [only r member, Multiset.count_replicate_self]
    rfl
  · intro r member
    rw [only r member]
    exact ⟨_, block, rfl, List.length_replicate⟩
  · intro a free
    have other : a ≠ 1 := (free _ here).symm
    simp [wordsMemory, other]
  · intro c free
    have other : c ≠ 0 := (free _ here).symm
    simp [wordsMemory, other]
  · intro r member
    rw [only r member]
    exact ⟨Nat.one_lt_two, Nat.two_pos⟩

/-- One word grown to two, alone or shared: the zeros go to the bytes from 16 on, of 8. -/
theorem word_grows_outside :
    (Element.uint32.new (fun _ _ => 0) 1 Heap.empty).map Prod.fst =
        .ok (AllocBuffer.of (some (wordsRef 1))) ∧
      Owned Fits (wordsMemory 1 1) (held (some (wordsRef 1)) + 0) ∧
      Element.uint32.realloc (fun _ _ => 0) 2 (AllocBuffer.of (some (wordsRef 1)))
        (wordsMemory 1 1) = .error .undefined ∧
      ¬ Resizes (fun _ _ => 0) .uint32 2 (some (wordsRef 1)) (wordsMemory 1 1) 0 ∧
      Owned Fits (wordsMemory 1 2) (held (some (wordsRef 1)) + {wordsRef 1}) ∧
      Element.uint32.realloc (fun _ _ => 0) 2 (AllocBuffer.of (some (wordsRef 1)))
        (wordsMemory 1 2) = .error .undefined ∧
      ¬ Resizes (fun _ _ => 0) .uint32 2 (some (wordsRef 1)) (wordsMemory 1 2) {wordsRef 1} := by
  have alone : Element.uint32.realloc (fun _ _ => 0) 2 (AllocBuffer.of (some (wordsRef 1)))
      (wordsMemory 1 1) = .error .undefined := rfl
  have shared : Element.uint32.realloc (fun _ _ => 0) 2 (AllocBuffer.of (some (wordsRef 1)))
      (wordsMemory 1 2) = .error .undefined := rfl
  refine ⟨rfl, wordsMemory_owned 1 0, alone, ?_, wordsMemory_owned 1 1, shared, ?_⟩
  · rintro ⟨r, m', done, -⟩
    rw [alone] at done
    cases done
  · rintro ⟨r, m', done, -⟩
    rw [shared] at done
    cases done

/-- Two words shared by two buffers, the one cut to a word: as it should be. -/
theorem words_cut_resizes :
    Resizes (fun _ _ => 0) .uint32 1 (some (wordsRef 2)) (wordsMemory 2 2) {wordsRef 2} :=
  (realloc_resizes_iff (fun _ _ => 0) .uint32 (some (wordsRef 2)) (wordsMemory 2 2) {wordsRef 2}
    (wordsMemory_owned 2 1) (by simp [wordsRef]) 1 (by decide)).2
    ⟨by decide, Or.inr (Or.inr (by decide))⟩

end Coinscope.Shared

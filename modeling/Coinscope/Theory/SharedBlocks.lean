/-
# Theory.SharedBlocks -- blocks with reference counts

A heap of blocks, and of counters beside them.  Everybody who holds a block has a `Ref`: where
the block is, where its counter is, and what its holders know of it.  The holders are a multiset,
so a block that is shared is a reference that occurs more than once, and its counter has to say
how often.

`Owned` is the invariant, and it is kept by the five things a holder can do: make a block
(`Owned.create`), share it (`Owned.share`), let go of one that others hold (`Owned.unshare`), let
go of the last (`Owned.discard`), and change or move one that nobody else holds
(`Owned.rehouse`).  None of them touches the blocks of the others (`Keeps`).
-/
import Mathlib.Data.Multiset.Count

namespace Coinscope.Theory.SharedBlocks

set_option autoImplicit false

universe u v

/-- The blocks and counters that are there, by address; `next` is above all of them. -/
structure Heap (β : Type u) where
  blocks : Nat → Option β
  counts : Nat → Option Nat
  next : Nat

/-- What a holder of a block has. -/
structure Ref (α : Type v) where
  block : Nat
  counter : Nat
  tag : α
  deriving DecidableEq

namespace Heap

variable {β : Type u}

def empty : Heap β := ⟨fun _ => none, fun _ => none, 0⟩

def setBlock (heap : Heap β) (a : Nat) (b : Option β) : Heap β :=
  { heap with blocks := Function.update heap.blocks a b }

def setCount (heap : Heap β) (c : Nat) (n : Option Nat) : Heap β :=
  { heap with counts := Function.update heap.counts c n }

/-- A block nobody else has.  No address is used twice, so whoever still has one whose block is
gone is found out. -/
def place (heap : Heap β) (b : β) : Nat × Heap β :=
  (heap.next, { heap.setBlock heap.next (some b) with next := heap.next + 1 })

/-- A counter nobody else has. -/
def placeCount (heap : Heap β) (n : Nat) : Nat × Heap β :=
  (heap.next, { heap.setCount heap.next (some n) with next := heap.next + 1 })

@[simp] theorem setBlock_self (heap : Heap β) (a : Nat) (b : Option β) :
    (heap.setBlock a b).blocks a = b := Function.update_self ..

@[simp] theorem setCount_self (heap : Heap β) (c : Nat) (n : Option Nat) :
    (heap.setCount c n).counts c = n := Function.update_self ..

@[simp] theorem setCount_setCount (heap : Heap β) (c : Nat) (n k : Option Nat) :
    (heap.setCount c n).setCount c k = heap.setCount c k := by
  simp only [setCount, Function.update_idem]

@[simp] theorem setCount_blocks (heap : Heap β) (c : Nat) (n : Option Nat) :
    (heap.setCount c n).blocks = heap.blocks := rfl

@[simp] theorem place_fst (heap : Heap β) (b : β) : (heap.place b).1 = heap.next := rfl

@[simp] theorem place_blocks (heap : Heap β) (b : β) :
    (heap.place b).2.blocks = Function.update heap.blocks heap.next (some b) := rfl

@[simp] theorem place_counts (heap : Heap β) (b : β) : (heap.place b).2.counts = heap.counts := rfl

end Heap

section Sharing

variable {α : Type v} {β : Type u} [DecidableEq α] {fits : α → β → Prop}
variable {heap heap' : Heap β} {refs : Multiset (Ref α)} {r : Ref α}

/-- Every counter has the number of the holders of its block, who agree on it; and there are no
other blocks and no other counters. -/
structure Owned (fits : α → β → Prop) (heap : Heap β) (refs : Multiset (Ref α)) : Prop where
  agree : ∀ r ∈ refs, ∀ q ∈ refs, r.block = q.block ∨ r.counter = q.counter → r = q
  counted : ∀ r ∈ refs, heap.counts r.counter = some (refs.count r)
  holds : ∀ r ∈ refs, ∃ b, heap.blocks r.block = some b ∧ fits r.tag b
  noBlock : ∀ a, (∀ r ∈ refs, r.block ≠ a) → heap.blocks a = none
  noCount : ∀ c, (∀ r ∈ refs, r.counter ≠ c) → heap.counts c = none
  below : ∀ r ∈ refs, r.block < heap.next ∧ r.counter < heap.next

/-- These blocks are as they were. -/
def Keeps (heap heap' : Heap β) (refs : Multiset (Ref α)) : Prop :=
  ∀ r ∈ refs, heap'.blocks r.block = heap.blocks r.block

omit [DecidableEq α] in
theorem Keeps.rfl : Keeps heap heap refs := fun _ _ => Eq.refl _

omit [DecidableEq α] in
theorem Keeps.trans {last : Heap β} (first : Keeps heap heap' refs)
    (second : Keeps heap' last refs) : Keeps heap last refs :=
  fun r member => (second r member).trans (first r member)

omit [DecidableEq α] in
theorem Keeps.mono {fewer : Multiset (Ref α)} (keeps : Keeps heap heap' refs)
    (less : fewer ≤ refs) : Keeps heap heap' fewer :=
  fun r member => keeps r (Multiset.mem_of_le less member)

theorem owned_empty : Owned fits (Heap.empty : Heap β) (0 : Multiset (Ref α)) where
  agree := by simp
  counted := by simp
  holds := by simp
  noBlock := fun _ _ => rfl
  noCount := fun _ _ => rfl
  below := by simp

namespace Owned

/-- A block that only `r` holds is not the block of anybody else. -/
theorem block_ne (owned : Owned fits heap (r ::ₘ refs)) (alone : r ∉ refs) {q : Ref α}
    (member : q ∈ refs) : q.block ≠ r.block := by
  intro same
  have equal := owned.agree q (Multiset.mem_cons_of_mem member) r (Multiset.mem_cons_self ..)
    (Or.inl same)
  exact alone (equal ▸ member)

theorem counter_ne (owned : Owned fits heap refs) {q : Ref α} (here : r ∈ refs)
    (member : q ∈ refs) (other : q ≠ r) : q.counter ≠ r.counter :=
  fun same => other (owned.agree q member r here (Or.inr same))

/-- Sharing and letting go change only the count of the one reference. -/
theorem recount {more : Multiset (Ref α)} (owned : Owned fits heap refs) (here : r ∈ refs)
    (same : ∀ q, q ∈ more ↔ q ∈ refs) (others : ∀ q, q ≠ r → more.count q = refs.count q) :
    Owned fits (heap.setCount r.counter (some (more.count r))) more where
  agree := fun q member p other => owned.agree q ((same q).1 member) p ((same p).1 other)
  counted := by
    intro q member
    by_cases it : q = r
    · rw [it]
      exact Function.update_self ..
    · rw [others q it, ← owned.counted q ((same q).1 member)]
      exact Function.update_of_ne (owned.counter_ne here ((same q).1 member) it) ..
  holds := fun q member => owned.holds q ((same q).1 member)
  noBlock := fun a free => owned.noBlock a fun q member => free q ((same q).2 member)
  noCount := by
    intro c free
    have ne : c ≠ r.counter := fun it => free r ((same r).2 here) it.symm
    rw [← owned.noCount c fun q member => free q ((same q).2 member)]
    exact Function.update_of_ne ne ..
  below := fun q member => owned.below q ((same q).1 member)

/-- One more holder. -/
theorem share (owned : Owned fits heap (r ::ₘ refs)) :
    Owned fits (heap.setCount r.counter (some (refs.count r + 2))) (r ::ₘ r ::ₘ refs) := by
  have twice : (r ::ₘ r ::ₘ refs).count r = refs.count r + 2 := by simp
  rw [← twice]
  exact owned.recount (Multiset.mem_cons_self ..) (by simp)
    (fun q other => by simp [Multiset.count_cons_of_ne other])

/-- One holder less, of several. -/
theorem unshare (owned : Owned fits heap (r ::ₘ refs)) (shared : r ∈ refs) :
    Owned fits (heap.setCount r.counter (some (refs.count r))) refs :=
  owned.recount (Multiset.mem_cons_self ..) (by simp [shared])
    (fun q other => by simp [Multiset.count_cons_of_ne other])

/-- The last holder takes the block and its counter along. -/
theorem discard (owned : Owned fits heap (r ::ₘ refs)) (alone : r ∉ refs) :
    Owned fits ((heap.setCount r.counter none).setBlock r.block none) refs := by
  have there : ∀ q ∈ refs, q ∈ r ::ₘ refs := fun q member => Multiset.mem_cons_of_mem member
  have other : ∀ q ∈ refs, q ≠ r := fun q member it => alone (it ▸ member)
  have here : r ∈ r ::ₘ refs := Multiset.mem_cons_self ..
  refine ⟨fun q member p also => owned.agree q (there q member) p (there p also), ?_, ?_, ?_, ?_,
    fun q member => owned.below q (there q member)⟩
  · intro q member
    rw [← Multiset.count_cons_of_ne (other q member), ← owned.counted q (there q member)]
    exact Function.update_of_ne (owned.counter_ne here (there q member) (other q member)) ..
  · intro q member
    obtain ⟨b, at_, fine⟩ := owned.holds q (there q member)
    refine ⟨b, ?_, fine⟩
    rw [← at_]
    exact Function.update_of_ne (owned.block_ne alone member) ..
  · intro a free
    by_cases it : a = r.block
    · rw [it]
      exact Function.update_self ..
    · rw [← owned.noBlock a (by simpa using ⟨Ne.symm it, free⟩)]
      exact Function.update_of_ne it ..
  · intro c free
    by_cases it : c = r.counter
    · rw [it]
      exact Function.update_self ..
    · rw [← owned.noCount c (by simpa using ⟨Ne.symm it, free⟩)]
      exact Function.update_of_ne it ..

/-- A new block and a new counter, and one holder. -/
theorem create (owned : Owned fits heap refs) (free : ∀ q ∈ refs, q.block ≠ r.block)
    (unused : ∀ q ∈ refs, q.counter ≠ r.counter) {b : β} (fine : fits r.tag b)
    (blocks : heap'.blocks = Function.update heap.blocks r.block (some b))
    (counts : heap'.counts = Function.update heap.counts r.counter (some 1))
    (grown : heap.next ≤ heap'.next) (inside : r.block < heap'.next ∧ r.counter < heap'.next) :
    Owned fits heap' (r ::ₘ refs) where
  agree := by
    intro q member p also same
    rcases Multiset.mem_cons.1 member with rfl | old <;>
      rcases Multiset.mem_cons.1 also with rfl | old'
    · rfl
    · rcases same with block | counter
      · exact absurd block.symm (free p old')
      · exact absurd counter.symm (unused p old')
    · rcases same with block | counter
      · exact absurd block (free q old)
      · exact absurd counter (unused q old)
    · exact owned.agree q old p old' same
  counted := by
    intro q member
    rcases Multiset.mem_cons.1 member with rfl | old
    · have new : q ∉ refs := fun there => free q there rfl
      rw [counts, Function.update_self, Multiset.count_cons_self, Multiset.count_eq_zero.2 new]
    · have other : q ≠ r := fun it => free q old (by rw [it])
      rw [counts, Function.update_of_ne (unused q old), owned.counted q old,
        Multiset.count_cons_of_ne other]
  holds := by
    intro q member
    rcases Multiset.mem_cons.1 member with rfl | old
    · exact ⟨b, by rw [blocks, Function.update_self], fine⟩
    · rw [blocks, Function.update_of_ne (free q old)]
      exact owned.holds q old
  noBlock := by
    intro a other
    have old : ∀ q ∈ refs, q.block ≠ a := fun q member => other q (Multiset.mem_cons_of_mem member)
    rw [blocks, Function.update_of_ne (Ne.symm (other r (Multiset.mem_cons_self ..))),
      owned.noBlock a old]
  noCount := by
    intro c other
    have old : ∀ q ∈ refs, q.counter ≠ c :=
      fun q member => other q (Multiset.mem_cons_of_mem member)
    rw [counts, Function.update_of_ne (Ne.symm (other r (Multiset.mem_cons_self ..))),
      owned.noCount c old]
  below := by
    intro q member
    rcases Multiset.mem_cons.1 member with rfl | old
    · exact inside
    · have before := owned.below q old
      omega

/-- The only holder of a block puts another in its place, there or somewhere else. -/
theorem rehouse (owned : Owned fits heap (r ::ₘ refs)) (alone : r ∉ refs) {a : Nat} {t : α} {b : β}
    (fine : fits t b) (free : a = r.block ∨ heap.next ≤ a)
    (blocks : heap'.blocks =
      Function.update (Function.update heap.blocks r.block none) a (some b))
    (counts : heap'.counts = heap.counts) (grown : heap.next ≤ heap'.next) (inside : a < heap'.next) :
    Owned fits heap' (⟨a, r.counter, t⟩ ::ₘ refs) := by
  have here : r ∈ r ::ₘ refs := Multiset.mem_cons_self ..
  have before := owned.below r here
  have single := owned.counted r here
  rw [Multiset.count_cons_self, Multiset.count_eq_zero.2 alone] at single
  refine (owned.discard alone).create ?_ ?_ fine blocks ?_ grown ⟨inside, ?_⟩
  · intro q member same
    have old := owned.below q (Multiset.mem_cons_of_mem member)
    rcases free with it | new
    · exact owned.block_ne alone member (same.trans it)
    · have : q.block = a := same
      omega
  · intro q member
    have other : q ≠ r := fun it => alone (it ▸ member)
    exact owned.counter_ne (r := r) here (Multiset.mem_cons_of_mem member) other
  · -- the counter is taken away and put back
    rw [counts]
    show heap.counts = Function.update (Function.update heap.counts r.counter none) r.counter _
    rw [Function.update_idem, ← single, Function.update_eq_self]
  · show r.counter < _
    omega

/-- Nobody has anything at a new address. -/
theorem fresh (owned : Owned fits heap refs) {a : Nat} (new : heap.next ≤ a) {q : Ref α}
    (member : q ∈ refs) : q.block ≠ a ∧ q.counter ≠ a := by
  have before := owned.below q member
  omega

/-- A block is there exactly if somebody holds it. -/
theorem live_iff (owned : Owned fits heap refs) (a : Nat) :
    (heap.blocks a).isSome ↔ ∃ q ∈ refs, q.block = a := by
  constructor
  · intro live
    by_contra none_
    push Not at none_
    rw [owned.noBlock a none_] at live
    cases live
  · rintro ⟨q, member, rfl⟩
    obtain ⟨b, there, -⟩ := owned.holds q member
    rw [there]
    rfl

/-- And so is a counter. -/
theorem counter_iff (owned : Owned fits heap refs) (c : Nat) :
    (heap.counts c).isSome ↔ ∃ q ∈ refs, q.counter = c := by
  constructor
  · intro live
    by_contra none_
    push Not at none_
    rw [owned.noCount c none_] at live
    cases live
  · rintro ⟨q, member, rfl⟩
    rw [owned.counted q member]
    rfl

end Owned

end Sharing

end Coinscope.Theory.SharedBlocks

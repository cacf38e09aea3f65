/-
# Theory.Circle -- words in the order of their signed difference

The words of `w` bits lie on a circle.  A program that compares two of them by the sign of
their difference asks which way round the circle is shorter.  Words of one half of the circle
are compared as the distances from where the half begins; round the whole circle there is no
first word.

* `Behind` -- the difference, read as a signed number, is negative.
* `InHalf` -- all words of a set are in one half of the circle.
* `behind_total` -- of two words one is behind the other; both are, half a circle apart.
* `behind_iff_offset` -- within a half, `Behind` is the order of the distances.
* `inHalf_of_strictOrder` -- a set that `Behind` orders is in one half.
-/
import Mathlib.Data.BitVec
import Mathlib.Data.Fintype.Order
import Mathlib.Order.WellFounded

namespace Coinscope.Theory.Circle

set_option autoImplicit false

variable {w : Nat}

/-- `x` comes before `y`: from `x` it is the shorter way, upwards, to `y`. -/
def Behind (x y : BitVec w) : Prop := (x - y).toInt < 0

/-- The words are in the half of the circle that begins at some `base`. -/
def InHalf (words : Set (BitVec (w + 1))) : Prop :=
  ∃ base : BitVec (w + 1), ∀ x ∈ words, (x - base).toNat < 2 ^ w

theorem behind_iff (x y : BitVec (w + 1)) : Behind x y ↔ 2 ^ w ≤ (x - y).toNat := by
  rw [Behind, BitVec.toInt_neg_iff, Nat.pow_succ]
  omega

theorem behind_irrefl (x : BitVec (w + 1)) : ¬ Behind x x := by
  rw [behind_iff, BitVec.sub_self]
  simp

/-- The two differences of two words go round the whole circle, so one of them is at least
half of it. -/
theorem behind_total {x y : BitVec (w + 1)} (other : x ≠ y) : Behind x y ∨ Behind y x := by
  have whole : 2 ^ (w + 1) = 2 ^ w + 2 ^ w := by rw [Nat.pow_succ]; omega
  have apart : x.toNat ≠ y.toNat := fun same => other (BitVec.eq_of_toNat_eq same)
  rw [behind_iff, behind_iff]
  rcases Nat.lt_or_gt_of_ne apart with less | more
  · rw [BitVec.toNat_sub_of_lt less, BitVec.toNat_sub_of_le (Nat.le_of_lt less)]
    omega
  · rw [BitVec.toNat_sub_of_lt more, BitVec.toNat_sub_of_le (Nat.le_of_lt more)]
    omega

/-- Within a half of the circle words are compared by their distances from its beginning. -/
theorem behind_iff_offset {x y base : BitVec (w + 1)} (hx : (x - base).toNat < 2 ^ w)
    (hy : (y - base).toNat < 2 ^ w) :
    Behind x y ↔ (x - base).toNat < (y - base).toNat := by
  have whole : 2 ^ (w + 1) = 2 ^ w + 2 ^ w := by rw [Nat.pow_succ]; omega
  rw [behind_iff, ← sub_sub_sub_cancel_right x y base]
  rcases Nat.lt_or_ge (x - base).toNat (y - base).toNat with less | more
  · rw [BitVec.toNat_sub_of_lt less]
    omega
  · rw [BitVec.toNat_sub_of_le more]
    omega

/-- Where `Behind` is a strict order, there is a first word, and no other is half a circle or
more ahead of it, for that one would be behind it. -/
theorem inHalf_of_strictOrder {words : Set (BitVec (w + 1))}
    (order : IsStrictOrder words fun x y => Behind x.1 y.1) : InHalf words := by
  rcases words.eq_empty_or_nonempty with none_ | ⟨some_, there⟩
  · exact ⟨0, by simp [none_]⟩
  have finite : Finite words :=
    Finite.of_injective (fun x : words => x.1.toFin) fun x y same =>
      Subtype.ext (BitVec.toFin_inj.1 same)
  have founded : WellFounded fun x y : words => Behind x.1 y.1 :=
    Finite.wellFounded_of_trans_of_irrefl _
  obtain ⟨first, -, least⟩ := founded.has_min Set.univ ⟨⟨some_, there⟩, trivial⟩
  refine ⟨first.1, fun x member => ?_⟩
  have not_before : ¬ Behind x first.1 := least ⟨x, member⟩ trivial
  rw [behind_iff] at not_before
  omega

end Coinscope.Theory.Circle

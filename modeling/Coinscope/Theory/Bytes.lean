/-
# Theory.Bytes -- fixed-width integers as bytes, in both orders

Every format of the tree is a packed C structure: integers of a fixed width at
fixed offsets, little-endian where the host writes them raw and big-endian where
they pass through `htobe32` and its siblings.

* `le w n`, `be w n` -- the low `w` bytes of `n` in the two orders; `ofLE`, `ofBE`
  read them back, reduced modulo `256 ^ w` (`ofLE_le`, `ofBE_be`).
* `slice off n bytes` -- the `n` bytes at an offset, the field access of a packed
  structure; a slice of a concatenation falls in one part of it
  (`slice_append_left`, `slice_append_right`).
-/
import Mathlib.Data.List.Basic
import Mathlib.Tactic.Ring

namespace Coinscope.Theory.Bytes

set_option autoImplicit false

/-! ## The two byte orders -/

/-- The low `w` bytes of `n`, least significant first. -/
def le : Nat → Nat → List UInt8
  | 0, _ => []
  | w + 1, n => UInt8.ofNat n :: le w (n / 256)

/-- Bytes read least significant first. -/
def ofLE : List UInt8 → Nat
  | [] => 0
  | b :: rest => b.toNat + 256 * ofLE rest

/-- The low `w` bytes of `n`, most significant first. -/
def be (w n : Nat) : List UInt8 := (le w n).reverse

/-- Bytes read most significant first. -/
def ofBE (bytes : List UInt8) : Nat := ofLE bytes.reverse

@[simp] theorem length_le (w n : Nat) : (le w n).length = w := by
  induction w generalizing n with
  | zero => rfl
  | succ w ih => simp [le, ih]

@[simp] theorem length_be (w n : Nat) : (be w n).length = w := by
  simp [be]

theorem ofLE_lt (bytes : List UInt8) : ofLE bytes < 256 ^ bytes.length := by
  induction bytes with
  | nil => simp [ofLE]
  | cons b rest ih =>
      have low : b.toNat < 256 := b.toNat_lt
      simp only [ofLE, List.length_cons, Nat.pow_succ]
      omega

theorem ofBE_lt (bytes : List UInt8) : ofBE bytes < 256 ^ bytes.length := by
  simpa [ofBE] using ofLE_lt bytes.reverse

/-- Writing and reading back keeps exactly the low bytes. -/
theorem ofLE_le (w n : Nat) : ofLE (le w n) = n % 256 ^ w := by
  induction w generalizing n with
  | zero => simp [le, ofLE, Nat.mod_one]
  | succ w ih =>
      have low : (UInt8.ofNat n).toNat = n % 256 := UInt8.toNat_ofNat'
      simp only [le, ofLE, ih, low, Nat.pow_succ, Nat.mul_comm (256 ^ w) 256]
      exact (Nat.mod_mul).symm

/-- As many bytes that read as the same number are the same. -/
theorem ofLE_inj {a b : List UInt8} (long : a.length = b.length) (same : ofLE a = ofLE b) :
    a = b := by
  induction a generalizing b with
  | nil => exact (List.eq_nil_of_length_eq_zero long.symm).symm
  | cons x a ih =>
      cases b with
      | nil => cases long
      | cons y b =>
          have first : x.toNat < 256 := x.toNat_lt
          have second : y.toNat < 256 := y.toNat_lt
          simp only [ofLE] at same
          have low : x = y := UInt8.toNat_inj.1 (by omega)
          rw [low, ih (Nat.succ.inj long) (by omega)]

theorem ofBE_be (w n : Nat) : ofBE (be w n) = n % 256 ^ w := by
  simpa [ofBE, be] using ofLE_le w n

theorem ofBE_be_of_lt {w n : Nat} (fits : n < 256 ^ w) : ofBE (be w n) = n := by
  rw [ofBE_be, Nat.mod_eq_of_lt fits]

/-- Two bytes are the bytes of the number they make. -/
theorem be_ofBE_two {bytes : List UInt8} (two : bytes.length = 2) :
    [UInt8.ofNat (ofBE bytes >>> 8), UInt8.ofNat (ofBE bytes)] = bytes := by
  match bytes, two with
  | [a, b], _ =>
      have high : a.toNat < 256 := a.toNat_lt
      have low : b.toNat < 256 := b.toNat_lt
      have value : ofBE [a, b] = b.toNat + 256 * a.toNat := by simp [ofBE, ofLE]
      have first : UInt8.ofNat (ofBE [a, b] >>> 8) = a := by
        apply UInt8.toNat_inj.1
        rw [UInt8.toNat_ofNat', value, Nat.shiftRight_eq_div_pow]
        omega
      have second : UInt8.ofNat (ofBE [a, b]) = b := by
        apply UInt8.toNat_inj.1
        rw [UInt8.toNat_ofNat', value]
        omega
      rw [first, second]

/-! ## Fields of a packed structure -/

/-- The `n` bytes at offset `off`; short when the structure ends before them. -/
def slice (off n : Nat) (bytes : List UInt8) : List UInt8 := (bytes.drop off).take n

theorem slice_take {off n m : Nat} (bytes : List UInt8) (inside : off + n ≤ m) :
    slice off n (bytes.take m) = slice off n bytes := by
  simp only [slice, List.drop_take, List.take_take]
  rw [Nat.min_eq_left (by omega)]

theorem slice_append_left {off n : Nat} {a : List UInt8} (b : List UInt8)
    (inside : off + n ≤ a.length) : slice off n (a ++ b) = slice off n a := by
  simp only [slice, List.drop_append_of_le_length (show off ≤ a.length by omega)]
  exact List.take_append_of_le_length (by simp; omega)

theorem slice_append_right {off n : Nat} {a : List UInt8} (b : List UInt8)
    (past : a.length ≤ off) : slice off n (a ++ b) = slice (off - a.length) n b := by
  simp only [slice]
  rw [List.drop_append, List.drop_eq_nil_of_le past, List.nil_append]

theorem slice_slice {off n base w : Nat} (bytes : List UInt8) (inside : off + n ≤ w) :
    slice off n (slice base w bytes) = slice (base + off) n bytes := by
  rw [slice, slice, List.drop_take, List.take_take, Nat.min_eq_left (by omega), List.drop_drop]
  rfl

theorem slice_length {off n : Nat} {bytes : List UInt8} (inside : off + n ≤ bytes.length) :
    (slice off n bytes).length = n := by
  simp [slice]; omega

end Coinscope.Theory.Bytes

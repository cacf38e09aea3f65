/-
# Shared.Varint -- numbers of variable length, and what they announce

`to_varint` picks one of four widths by the value, `get_varint` by the first byte: itself a number
below 0xfd, a marker from there on.  A string and an inventory are a varint and as much as it
announces, so they can be told from whatever follows them.

Nothing in the repository reads a `var_string` or an inventory back; `readString` and `readInv`
state what it is to do so.

* `getVarint_toVarint` -- a varint is read back, from any memory it stands in.
* `length_toVarint_le` -- no varint with the same value is shorter.
* `varints_unambiguous` -- both, and what follows for strings and inventories.
-/
import Coinscope.Shared.Bitcoin

namespace Coinscope.Shared

open Coinscope.Theory
open Coinscope.Theory.Bytes

set_option autoImplicit false

/-! ## Numbers -/

section Numbers

variable {memory : Nat → UInt8} {buf v : Nat}

/-- A marker and a number of the width it stands for. -/
theorem getVarint_marked {marker : UInt8} {width : Nat} (size : getVarintSize marker = width + 1)
    (wide : 0 < width) (fits : v < 256 ^ width)
    (there : Access.Holds memory buf (marker :: le width v)) :
    (getVarint buf).value memory = (v, (marker :: le width v).length) := by
  obtain ⟨first, behind⟩ := Access.holds_cons.1 there
  have bytes : (Access.cells (buf + 1) width).value memory = le width v := by
    rw [Access.Holds, length_le] at behind
    exact behind
  rw [getVarint, Access.value_bind, Access.value_cell, first, size, if_neg (by omega),
    Access.value_bind, Nat.add_sub_cancel, bytes, Access.value_pure, ofLE_le,
    Nat.mod_eq_of_lt fits, List.length_cons, length_le]

/-- A number below 0xfd is its only byte. -/
theorem getVarint_plain (small : v < 0xfd) (there : Access.Holds memory buf (le 1 v)) :
    (getVarint buf).value memory = (v, 1) := by
  obtain ⟨first, -⟩ := Access.holds_cons.1 there
  have number : (memory buf).toNat = v := by
    rw [first, UInt8.toNat_ofNat']
    omega
  have one : getVarintSize (memory buf) = 1 := by
    rw [getVarintSize, if_pos (UInt8.lt_iff_toNat_lt.2 (by rw [number]; exact small))]
  rw [getVarint, Access.value_bind, Access.value_cell, if_pos one, Access.value_pure, number]

/-- A varint is read back, whatever follows it. -/
theorem getVarint_toVarint (small : v < 2 ^ 64) (there : Access.Holds memory buf (toVarint v)) :
    (getVarint buf).value memory = (v, (toVarint v).length) := by
  rw [toVarint] at there ⊢
  split
  next plain =>
    rw [if_pos plain] at there
    rw [getVarint_plain plain there, length_le]
  next more =>
    rw [if_neg more] at there
    split
    next two =>
      rw [if_pos two] at there
      exact getVarint_marked rfl (by decide) (by omega) there
    next more' =>
      rw [if_neg more'] at there
      split
      next four =>
        rw [if_pos four] at there
        exact getVarint_marked rfl (by decide) (by omega) there
      next more'' =>
        rw [if_neg more''] at there
        exact getVarint_marked rfl (by decide) small there

theorem length_toVarint (v : Nat) :
    (toVarint v).length =
      if v < 0xfd then 1 else if v ≤ 0xffff then 3 else if v ≤ 0xffffffff then 5 else 9 := by
  rw [toVarint]
  simp only [apply_ite List.length, List.length_cons, length_le]

/-- A varint of each size: what it says is less than what the next size is for. -/
theorem getVarint_bound (memory : Nat → UInt8) (buf : Nat) :
    let (value, size) := (getVarint buf).value memory
    size = 1 ∧ value < 0xfd ∨ size = 3 ∧ value ≤ 0xffff ∨ size = 5 ∧ value ≤ 0xffffffff ∨
      size = 9 := by
  have bytes (n : Nat) := ofLE_lt ((Access.cells (buf + 1) n).value memory)
  simp only [Access.length_value_cells] at bytes
  rw [getVarint, Access.value_bind, Access.value_cell]
  by_cases plain : memory buf < 0xfd
  · have one : getVarintSize (memory buf) = 1 := if_pos plain
    rw [if_pos one]
    exact Or.inl ⟨rfl, UInt8.lt_iff_toNat_lt.1 plain⟩
  · by_cases two : memory buf = 0xfd
    · rw [two]
      exact Or.inr (Or.inl ⟨rfl, Nat.le_of_lt_succ (bytes 2)⟩)
    · by_cases four : memory buf = 0xfe
      · rw [four]
        exact Or.inr (Or.inr (Or.inl ⟨rfl, Nat.le_of_lt_succ (bytes 4)⟩))
      · have nine : getVarintSize (memory buf) = 9 := by
          rw [getVarintSize, if_neg plain, if_neg two, if_neg four]
        rw [nine]
        exact Or.inr (Or.inr (Or.inr rfl))

/-- Whatever is read as a number is no shorter than its varint. -/
theorem length_toVarint_le (memory : Nat → UInt8) (buf : Nat) :
    (toVarint ((getVarint buf).value memory).1).length ≤ ((getVarint buf).value memory).2 := by
  have bound := getVarint_bound memory buf
  generalize (getVarint buf).value memory = read at bound ⊢
  obtain ⟨value, size⟩ := read
  dsimp only at bound ⊢
  rw [length_toVarint]
  split
  · omega
  · split
    · omega
    · split <;> omega

end Numbers

/-! ## Strings -/

/-- What reading a `var_string` is: the string, and the size of all of it. -/
def readString (buf : Nat) : Access UInt8 (List UInt8 × Nat) := do
  let varint ← getVarint buf
  let input ← Access.cells (buf + varint.2) varint.1
  pure (input, varint.2 + varint.1)

theorem readString_varString {input : List UInt8} (small : input.length < 2 ^ 64)
    {memory : Nat → UInt8} {buf : Nat} (there : Access.Holds memory buf (varString input)) :
    (readString buf).value memory = (input, (varString input).length) := by
  obtain ⟨varint, behind⟩ := Access.holds_append.1 there
  have bytes : (Access.cells (buf + (toVarint input.length).length) input.length).value memory =
      input := behind
  rw [readString, Access.value_bind, getVarint_toVarint small varint, Access.value_bind, bytes,
    Access.value_pure, varString, List.length_append]

/-! ## Inventories -/

namespace InvVector

/-- The 36 bytes of an entry. -/
def bytes (i : InvVector) : List UInt8 := le 4 i.type.toNat ++ i.hash

/-- An entry without its invariant. -/
def fields (i : InvVector) : UInt32 × List UInt8 := (i.type, i.hash)

theorem length_bytes (i : InvVector) : i.bytes.length = 36 := by
  rw [bytes, List.length_append, length_le, i.size]

theorem fields_injective : Function.Injective fields := by
  rintro ⟨type, hash, size⟩ ⟨type', hash', size'⟩ same
  obtain ⟨rfl, rfl⟩ := Prod.mk.inj same
  rfl

end InvVector

/-- Entries one behind the other. -/
def readEntries (off : Nat) : Nat → Access UInt8 (List (UInt32 × List UInt8))
  | 0 => pure []
  | n + 1 => do
      let type ← Access.cells off 4
      let hash ← Access.cells (off + 4) 32
      let rest ← readEntries (off + 36) n
      pure ((UInt32.ofNat (ofLE type), hash) :: rest)

/-- What reading an inventory is: the entries, and the size of all of it. -/
def readInv (buf : Nat) : Access UInt8 (List (UInt32 × List UInt8) × Nat) := do
  let varint ← getVarint buf
  let entries ← readEntries (buf + varint.2) varint.1
  pure (entries, varint.2 + 36 * varint.1)

/-- The entries are read back one by one. -/
theorem readEntries_flatMap (v : List InvVector) {memory : Nat → UInt8} {off : Nat}
    (there : Access.Holds memory off (v.flatMap InvVector.bytes)) :
    (readEntries off v.length).value memory = v.map InvVector.fields := by
  induction v generalizing off with
  | nil => rfl
  | cons i v ih =>
      rw [List.flatMap_cons, Access.holds_append, i.length_bytes, InvVector.bytes,
        Access.holds_append, length_le] at there
      obtain ⟨⟨type, hash⟩, behind⟩ := there
      have type' : (Access.cells off 4).value memory = le 4 i.type.toNat := by
        rw [Access.Holds, length_le] at type
        exact type
      have hash' : (Access.cells (off + 4) 32).value memory = i.hash := by
        rw [Access.Holds, i.size] at hash
        exact hash
      have number : UInt32.ofNat (ofLE (le 4 i.type.toNat)) = i.type := by
        have fits : i.type.toNat < 256 ^ 4 := i.type.toNat_lt
        rw [ofLE_le, Nat.mod_eq_of_lt fits, UInt32.ofNat_toNat]
      rw [List.length_cons, readEntries, Access.value_bind, Access.value_bind, Access.value_bind,
        type', hash', ih behind, number]
      rfl

theorem length_getInv (v : List InvVector) :
    (getInv v).length = (toVarint v.length).length + 36 * v.length := by
  rw [getInv, List.length_append]
  congr 1
  induction v with
  | nil => rfl
  | cons i v ih =>
      rw [List.flatMap_cons, List.length_append, ih, List.length_cons]
      have size : (le 4 i.type.toNat ++ i.hash).length = 36 := i.length_bytes
      omega

theorem readInv_getInv {v : List InvVector} (small : v.length < 2 ^ 64) {memory : Nat → UInt8}
    {buf : Nat} (there : Access.Holds memory buf (getInv v)) :
    (readInv buf).value memory = (v.map InvVector.fields, (getInv v).length) := by
  obtain ⟨varint, behind⟩ := Access.holds_append.1 there
  rw [readInv, Access.value_bind, getVarint_toVarint small varint, Access.value_bind,
    readEntries_flatMap v behind, Access.value_pure, length_getInv]

/-! ## All of it -/

/-- Varints are read back with the size their first byte stands for, and are as short as can be.
Strings and inventories are read back from any memory they stand in, so the bytes that follow
them do not matter.  The lengths are those of a `size_t`. -/
theorem varints_unambiguous :
    (∀ (v : UInt64) (memory : Nat → UInt8) (buf : Nat),
      Access.Holds memory buf (toVarint v.toNat) →
        (getVarint buf).value memory = (v.toNat, (toVarint v.toNat).length) ∧
          (toVarint v.toNat).length = getVarintSize (memory buf)) ∧
      (∀ (v : UInt64) (memory : Nat → UInt8) (buf : Nat),
        ((getVarint buf).value memory).1 = v.toNat →
          (toVarint v.toNat).length ≤ ((getVarint buf).value memory).2) ∧
      (∀ (input : List UInt8) (memory : Nat → UInt8) (buf : Nat), input.length < 2 ^ 64 →
        Access.Holds memory buf (varString input) →
          (readString buf).value memory = (input, (varString input).length)) ∧
      (∀ (v : List InvVector) (memory : Nat → UInt8) (buf : Nat), v.length < 2 ^ 64 →
        Access.Holds memory buf (getInv v) →
          (readInv buf).value memory = (v.map InvVector.fields, (getInv v).length)) ∧
      Access.SelfDelimiting (fun input => input.length < 2 ^ 64) varString ∧
      Access.SelfDelimiting (fun v => v.length < 2 ^ 64) getInv := by
  refine ⟨?_, ?_, ?_, ?_, ?_, ?_⟩
  · intro v memory buf there
    have read := getVarint_toVarint v.toNat_lt there
    refine ⟨read, ?_⟩
    rw [← getVarint_size, read]
  · intro v memory buf same
    rw [← same]
    exact length_toVarint_le memory buf
  · exact fun input memory buf small there => readString_varString small there
  · exact fun v memory buf small there => readInv_getInv small there
  · exact Access.selfDelimiting Function.injective_id fun memory input small there =>
      readString_varString small there
  · exact Access.selfDelimiting InvVector.fields_injective.list_map fun memory v small there =>
      readInv_getInv small there

/-- Two entries of an inventory. -/
def someInv : List InvVector :=
  [⟨1, List.replicate 32 5, rfl⟩, ⟨2, List.replicate 31 6 ++ [0], rfl⟩]

/-- A string of 300 characters has a varint of three bytes. -/
def someString : List UInt8 := List.replicate 300 65

/-- A number of five bytes, a string and an inventory, each with bytes behind it. -/
theorem varints_unambiguous_wide :
    (getVarint 0).value (Access.ofList ([0xfe, 0x70, 0x11, 1, 0] ++ [7, 7])) = (70000, 5) ∧
      (readString 0).value (Access.ofList (varString someString ++ [7])) =
        (someString, (varString someString).length) ∧
      (readInv 0).value (Access.ofList (getInv someInv ++ [7, 7])) =
        (someInv.map InvVector.fields, 73) := by
  obtain ⟨numbers, -, strings, inventories, -⟩ := varints_unambiguous
  exact ⟨(numbers 70000 _ 0 (Access.holds_ofList [0xfe, 0x70, 0x11, 1, 0] [7, 7])).1,
    strings someString _ 0 (by decide +kernel) (Access.holds_ofList (varString someString) [7]),
    inventories someInv _ 0 (by decide) (Access.holds_ofList (getInv someInv) [7, 7])⟩

end Coinscope.Shared

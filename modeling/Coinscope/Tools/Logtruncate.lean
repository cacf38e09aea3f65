/-
# Tools.Logtruncate -- cutting a log behind its last whole record

A crash can leave a log that ends in the middle of a record.  `logtruncate` reads the length of
one record after the other, seeks over the bytes behind it, and counts; where a length is not
all there, or a seek ends behind the end of the file, it stops and cuts the file off at the
count.

A file is its bytes, and a descriptor is a position in it.  `read` returns all the bytes it is
asked for that are there, and a position may lie behind the end.

* `readLength` -- the inner loop, which reads a length.
* `logtruncate` -- the program on a file.
* `truncates_exactly` -- what is left is the longest sequence of whole records.
-/
import Coinscope.Shared.LogFormat

namespace Coinscope.Tools

open Coinscope.Shared
open Coinscope.Theory.Bytes
open Coinscope.Theory.Framing

set_option autoImplicit false

/-! ## The program -/

/-- The inner loop: the position, `remaining`, the memory of `netlen`, and whether bytes were
stored in front of it. -/
structure LengthRead where
  pos : Nat
  remaining : Nat
  netlen : List UInt8
  stray : Bool
  deriving DecidableEq

namespace LengthRead

/-- `rd` bytes are stored at `buf + remaining - 4`. -/
def store (r : LengthRead) (bytes : List UInt8) : LengthRead where
  pos := r.pos + bytes.length
  remaining := r.remaining - bytes.length
  netlen := if r.remaining = 4 then WrappedBuffer.blit r.netlen 0 bytes else r.netlen
  stray := r.stray || decide (r.remaining ≠ 4)

/-- The loop; `none` is a loop that is not over yet. -/
def fill (file : List UInt8) : Nat → LengthRead → Option LengthRead
  | 0, _ => none
  | fuel + 1, r =>
      let bytes := slice r.pos r.remaining file
      if bytes.length = 0 then some r
      else if (r.store bytes).remaining > 0 then fill file fuel (r.store bytes)
      else some (r.store bytes)

end LengthRead

/-- Reading a length at a position.  Every round but the last takes a byte. -/
def readLength (file : List UInt8) (pos : Nat) : Option LengthRead :=
  LengthRead.fill file 5 ⟨pos, 4, List.replicate 4 0, false⟩

/-- How the program ends: at its assertion, in memory that is not its own, or with this file. -/
inductive Truncation where
  | asserted
  | astray
  | truncated (file : List UInt8)
  deriving DecidableEq

/-- The outer loop, with `size`; the sum of a length and its four bytes has 32 bits. -/
def countRecords (file : List UInt8) : Nat → Nat → Nat → Option (Except Truncation Nat)
  | 0, _, _ => none
  | fuel + 1, pos, size =>
      match readLength file pos with
      | none => none
      | some r =>
          if r.stray then some (.error .astray)
          else if r.remaining > 0 then some (.ok size)
          else
            let len := ofBE r.netlen
            let sought := r.pos + len
            if sought > file.length then some (.ok size)
            else if sought = size + (4 + len) % 2 ^ 32 then
              countRecords file fuel sought (size + (4 + len) % 2 ^ 32)
            else some (.error .asserted)

/-- `main`; `none` is a program that does not end. -/
def logtruncate (file : List UInt8) : Option Truncation :=
  match countRecords file (file.length + 1) 0 0 with
  | none => none
  | some (.error ending) => some ending
  | some (.ok size) => some (.truncated (if size < file.length then file.take size else file))

/-! ## Lengths -/

/-- Where there are four bytes, they are read in one round; where there are fewer, the next
round ends the loop before anything is stored out of place. -/
theorem readLength_eq (file : List UInt8) (pos : Nat) :
    readLength file pos = some
      { pos := pos + (slice pos 4 file).length
        remaining := 4 - (slice pos 4 file).length
        netlen := WrappedBuffer.blit (List.replicate 4 0) 0 (slice pos 4 file)
        stray := false } := by
  have few : (slice pos 4 file).length ≤ 4 := by
    rw [slice, List.length_take]
    omega
  have inside : (slice pos 4 file).length = min 4 (file.length - pos) := by
    rw [slice, List.length_take, List.length_drop]
  rw [readLength, LengthRead.fill]
  simp only
  by_cases none_ : (slice pos 4 file).length = 0
  · rw [if_pos none_, List.length_eq_zero_iff.1 none_]
    rfl
  · rw [if_neg none_]
    by_cases more : 4 - (slice pos 4 file).length > 0
    · -- the file is over
      have rest : slice (pos + (slice pos 4 file).length) (4 - (slice pos 4 file).length) file = [] := by
        rw [slice, List.drop_eq_nil_of_le (by omega), List.take_nil]
      simp only [LengthRead.store, if_pos more, LengthRead.fill, rest, List.length_nil, if_true]
      rfl
    · simp only [LengthRead.store, if_neg more, if_true]
      rfl

/-! ## Records -/

/-- The count goes on to the end of the last whole record. -/
theorem countRecords_eq {file : List UInt8} (small : file.length < 2 ^ 32) (fuel : Nat) {pos : Nat}
    (inside : pos ≤ file.length) (enough : file.length - pos < fuel) :
    countRecords file fuel pos pos =
      some (.ok (pos + (records.parse (file.drop pos)).1.flatten.length)) := by
  induction fuel generalizing pos with
  | zero => omega
  | succ fuel ih =>
      have front : slice pos 4 file = (file.drop pos).take 4 := rfl
      have rest : (file.drop pos).length = file.length - pos := List.length_drop
      have size : records.size (file.drop pos) = 4 + ofBE ((file.drop pos).take 4) := rfl
      rw [countRecords, readLength_eq]
      simp only [Bool.false_eq_true, if_false]
      by_cases short : file.length - pos < 4
      · -- the length itself is cut off
        have length : (slice pos 4 file).length = file.length - pos := by
          rw [front, List.length_take, rest, Nat.min_eq_right (by omega)]
        have incomplete : records.Incomplete (file.drop pos) := by
          left
          show _ < 4
          omega
        rw [if_pos (by omega), records.parse_incomplete incomplete]
        rfl
      · have four : (slice pos 4 file).length = 4 := by
          rw [front, List.length_take, rest, Nat.min_eq_left (by omega)]
        have netlen : WrappedBuffer.blit (List.replicate 4 0) 0 (slice pos 4 file) =
            (file.drop pos).take 4 := by
          rw [WrappedBuffer.blit_end (by rw [List.length_replicate, four])]
          rfl
        rw [four, netlen, if_neg (by decide)]
        by_cases past : pos + 4 + ofBE ((file.drop pos).take 4) > file.length
        · -- the body is cut off
          have incomplete : records.Incomplete (file.drop pos) := by
            right
            omega
          rw [if_pos past, records.parse_incomplete incomplete]
          rfl
        · have ready : ¬ records.Incomplete (file.drop pos) := by
            rintro (less | less)
            · have header : records.header = 4 := rfl
              omega
            · omega
          have sum : pos + 4 + ofBE ((file.drop pos).take 4) =
              pos + (4 + ofBE ((file.drop pos).take 4)) % 2 ^ 32 := by
            rw [Nat.mod_eq_of_lt (by omega)]
            omega
          rw [if_neg past, if_pos sum, ← sum, ih (by omega) (by omega), records.parse_ready ready,
            List.flatten_cons, List.length_append, List.length_take, List.drop_drop, size]
          have whole : min (4 + ofBE ((file.drop pos).take 4)) (file.drop pos).length =
              4 + ofBE ((file.drop pos).take 4) := Nat.min_eq_left (by omega)
          rw [whole, Nat.add_assoc pos 4, Nat.add_assoc pos (4 + _)]

/-- What `logtruncate` leaves. -/
theorem logtruncate_eq {file : List UInt8} (small : file.length < 2 ^ 32) :
    logtruncate file = some (.truncated (records.parse file).1.flatten) := by
  obtain ⟨-, -, whole⟩ := records.parse_spec file
  have count := countRecords_eq small (file.length + 1) (Nat.zero_le _) (Nat.lt_succ_self _)
  rw [List.drop_zero, Nat.zero_add] at count
  rw [logtruncate, count]
  simp only
  have kept : ((records.parse file).1.flatten ++ (records.parse file).2).take
      (records.parse file).1.flatten.length = (records.parse file).1.flatten := List.take_left
  rw [whole] at kept
  split
  · rw [kept]
  · rename_i all
    rw [← kept, List.take_of_length_le (by omega)]

/-! ## Every file -/

/-- The program ends, not at its assertion, and what it leaves of a file is the longest sequence
of whole records in front of it.  Run again it leaves this as it is, and so it does with every
log that is in order. -/
theorem truncates_exactly (file : List UInt8) (small : file.length < 2 ^ 32) :
    ∃ kept, logtruncate file = some (.truncated kept) ∧ records.Longest file kept ∧
      logtruncate kept = some (.truncated kept) ∧
      ∀ frames : List (List UInt8), (∀ f ∈ frames, records.Complete f) →
        file = frames.flatten → kept = file := by
  have longest := records.longest_parse file
  obtain ⟨complete, -, -⟩ := records.parse_spec file
  refine ⟨_, logtruncate_eq small, longest, ?_, ?_⟩
  · rw [logtruncate_eq (Nat.lt_of_le_of_lt longest.front.length_le small), records.parse_whole complete]
  · rintro frames all rfl
    rw [records.parse_whole all]

/-- A record of one byte, and two bytes of the next length. -/
theorem truncates_exactly_tail :
    logtruncate [0, 0, 0, 1, 7, 0, 0] = some (.truncated [0, 0, 0, 1, 7]) ∧
      ∃ kept, logtruncate [0, 0, 0, 1, 7, 0, 0] = some (.truncated kept) ∧
        records.Longest [0, 0, 0, 1, 7, 0, 0] kept :=
  ⟨by decide +kernel,
    (truncates_exactly [0, 0, 0, 1, 7, 0, 0] (by decide)).imp fun _ all => ⟨all.1, all.2.1⟩⟩

end Coinscope.Tools

/-
# LogClient.ConsoleFromFile -- printing a log, and the buffer it is read into

`console_from_file` reads the length of a record and then, with one call of `read`, the record.
A buffer that is too small for it is made larger first: twice the length, rounded up to pages.
The length is doubled in 32 bits and what is rounded goes back to 32 bits, so from half of the
32-bit range on the "larger" buffer is most often smaller than the record.

There is one call of `read` in a round of the loop, and what it answers is the input of the round.
Memory is never short: `malloc` and `realloc` return what was asked for.  What is printed is the
buffer; `print_message` itself is not modelled.

* `Block` -- the memory `buf` points to.
* `ConsoleFromFile.step` -- a round.
* `grown_ge_iff` -- the lengths the rule works for.
* `body_reads_fit_iff` -- the runs in which a record is never asked for past its buffer.
-/
import Coinscope.Theory.Bytes
import Coinscope.Theory.Runs

namespace Coinscope.LogClient

open Coinscope.Theory.Bytes
open Coinscope.Theory.Runs

set_option autoImplicit false

/-! ## The program -/

def PAGE_SIZE : UInt64 := 4096

def MULT : UInt64 := 10000

/-- What `malloc` and `realloc` return: its size, and the bytes at its front that have been
stored. -/
structure Block where
  size : Nat
  bytes : List UInt8
  fits : bytes.length ≤ size
  deriving DecidableEq

namespace Block

def malloc (size : UInt32) : Block where
  size := size.toNat
  bytes := []
  fits := Nat.zero_le _

/-- `realloc(block, size)`; for size 0 the block is freed. -/
def realloc (block : Block) (size : UInt32) : Block where
  size := size.toNat
  bytes := block.bytes.take size.toNat
  fits := by
    rw [List.length_take]
    exact Nat.min_le_left ..

/-- These bytes are stored at the front; `none` if they do not fit. -/
def store (block : Block) (bytes : List UInt8) : Option Block :=
  if room : bytes.length ≤ block.size then
    some
      { size := block.size
        bytes := bytes ++ block.bytes.drop bytes.length
        fits := by
          have := block.fits
          rw [List.length_append, List.length_drop]
          omega }
  else none

end Block

/-- A call of `read` for the body of a record. -/
structure BodyRead where
  toRead : UInt32
  size : Nat
  deriving DecidableEq

/-- Where the program is; behind a `read` past the buffer nothing is known of it. -/
inductive ConsolePlace where
  | loop
  | ended
  | astray
  deriving DecidableEq

/-- The variables of `main` and the rest of the file.  `bodyReads` are the calls of `read` for
bodies so far, with the size of `buf` at that time, and `printed` what was printed. -/
structure ConsoleFromFile where
  file : List UInt8
  readingLen : Bool
  toRead : UInt32
  bytesRead : UInt32
  bufSize : UInt32
  buf : Block
  place : ConsolePlace
  bodyReads : List BodyRead
  printed : List Block
  deriving DecidableEq

namespace ConsoleFromFile

/-- In front of the loop. -/
def start (file : List UInt8) : ConsoleFromFile where
  file := file
  readingLen := true
  toRead := 0
  bytesRead := 0
  bufSize := (PAGE_SIZE * MULT).toUInt32
  buf := Block.malloc (PAGE_SIZE * MULT).toUInt32
  place := .loop
  bodyReads := []
  printed := []

/-- `read(read_fd, buf, count)`: at most what was asked for and what is left of the file, and at
most what the answer allows, which is `none` for an error.  The first component is what it
returns, `none` for -1. -/
def read (s : ConsoleFromFile) (count : Nat) (answer : Option Nat) :
    Option Nat × ConsoleFromFile :=
  match answer with
  | none => (none, s)
  | some limit =>
      let bytes := s.file.take (min count limit)
      match s.buf.store bytes with
      | none => (some bytes.length, { s with place := .astray })
      | some buf => (some bytes.length, { s with file := s.file.drop bytes.length, buf := buf })

/-- `((to_read * 2) / PAGE_SIZE + 1) * PAGE_SIZE`, as it is stored. -/
def grown (toRead : UInt32) : UInt32 :=
  (((toRead * 2).toUInt64 / PAGE_SIZE + 1) * PAGE_SIZE).toUInt32

/-- The growth rule, in front of the `read` of a body. -/
def grow (s : ConsoleFromFile) : ConsoleFromFile :=
  if s.toRead > s.bufSize then
    { s with bufSize := grown s.toRead, buf := s.buf.realloc (grown s.toRead) }
  else s

/-- The length of the next record. -/
def readLen (s : ConsoleFromFile) (answer : Option Nat) : ConsoleFromFile :=
  let (result, s) := s.read 4 answer
  if s.place = .astray then s
  else if result ≠ some 4 then { s with place := .ended }
  else { s with toRead := UInt32.ofNat (ofBE (s.buf.bytes.take 4)), readingLen := false }

/-- Its body. -/
def readBody (s : ConsoleFromFile) (answer : Option Nat) : ConsoleFromFile :=
  let s := s.grow
  let s : ConsoleFromFile := { s with bodyReads := s.bodyReads ++ [⟨s.toRead, s.buf.size⟩] }
  let (result, s) := s.read s.toRead.toNat answer
  if s.place = .astray then s
  else
    -- -1 is stored in 32 bits as well
    let s : ConsoleFromFile := { s with bytesRead := result.elim 0xffffffff UInt32.ofNat }
    if s.bytesRead ≠ s.toRead then { s with place := .ended }
    else { s with printed := s.printed ++ [s.buf], readingLen := true }

/-- A round of the loop. -/
def step (s : ConsoleFromFile) (answer : Option Nat) : ConsoleFromFile :=
  if s.place ≠ .loop then s
  else if s.readingLen then s.readLen answer
  else s.readBody answer

/-! ## The growth rule -/

/-- The rule in numbers. -/
theorem toNat_grown (toRead : UInt32) :
    (grown toRead).toNat = (toRead.toNat * 2 % 2 ^ 32 / 4096 + 1) * 4096 % 2 ^ 32 := by
  have pages : (toRead.toNat * 2 % 2 ^ 32 / 4096 + 1) * 4096 < 2 ^ 64 := by omega
  rw [grown, UInt64.toNat_toUInt32, UInt64.toNat_mul, UInt64.toNat_add, UInt64.toNat_div,
    UInt32.toNat_toUInt64, UInt32.toNat_mul]
  show ((toRead.toNat * 2 % 2 ^ 32 / 4096 + 1) % 2 ^ 64 * 4096) % 2 ^ 64 % 2 ^ 32 = _
  rw [Nat.mod_eq_of_lt (by omega : toRead.toNat * 2 % 2 ^ 32 / 4096 + 1 < 2 ^ 64),
    Nat.mod_eq_of_lt pages]

/-- A buffer grown for a record holds it, but for lengths of at least `2 ^ 31 - 2048`.  The one
exception among these is `2 ^ 32 - 4096`: its double is short of four gigabytes by two pages. -/
theorem grown_ge_iff (toRead : UInt32) :
    toRead.toNat ≤ (grown toRead).toNat ↔
      toRead.toNat < 2 ^ 31 - 2048 ∨ toRead.toNat = 2 ^ 32 - 4096 := by
  have small := toRead.toNat_lt
  rw [toNat_grown]
  -- the double wraps from half of the range on
  by_cases wraps : toRead.toNat < 2 ^ 31
  · rw [Nat.mod_eq_of_lt (by omega : toRead.toNat * 2 < 2 ^ 32)]
    omega
  · have double : toRead.toNat * 2 % 2 ^ 32 = toRead.toNat * 2 - 2 ^ 32 := by omega
    rw [double]
    omega

/-! ## One round -/

/-- `buf_size` is the size of `buf`. -/
def Sized (s : ConsoleFromFile) : Prop := s.buf.size = s.bufSize.toNat

/-- No body was asked for past the buffer. -/
def Fits (s : ConsoleFromFile) : Prop := ∀ r ∈ s.bodyReads, r.toRead.toNat ≤ r.size

/-- The next round asks for a body. -/
def AsksBody (s : ConsoleFromFile) : Prop := s.place = .loop ∧ s.readingLen = false

/-- The buffer has room for the record, or can be grown for it. -/
def HasRoom (s : ConsoleFromFile) : Prop :=
  s.toRead ≤ s.bufSize ∨ s.toRead.toNat < 2 ^ 31 - 2048 ∨ s.toRead.toNat = 2 ^ 32 - 4096

instance (s : ConsoleFromFile) : Decidable s.AsksBody := inferInstanceAs (Decidable (_ ∧ _))

theorem store_size {block block' : Block} {bytes : List UInt8}
    (stored : block.store bytes = some block') : block'.size = block.size := by
  rw [Block.store] at stored
  split at stored
  · cases stored
    rfl
  · cases stored

/-- A `read` changes what is stored, and not how much there is room for. -/
theorem read_spec (s : ConsoleFromFile) (count : Nat) (answer : Option Nat) :
    ∃ file buf place, (s.read count answer).2 = { s with file := file, buf := buf, place := place } ∧
      buf.size = s.buf.size := by
  cases answer with
  | none => exact ⟨s.file, s.buf, s.place, rfl, rfl⟩
  | some limit =>
      rw [read]
      cases stored : s.buf.store (s.file.take (min count limit)) with
      | none => exact ⟨s.file, s.buf, .astray, rfl, rfl⟩
      | some buf => exact ⟨_, buf, s.place, rfl, store_size stored⟩

theorem Sized.grow {s : ConsoleFromFile} (sized : s.Sized) : s.grow.Sized := by
  rw [ConsoleFromFile.grow]
  split
  · rfl
  · exact sized

/-- After the growth rule there is room exactly if there was, or can be. -/
theorem grow_room_iff {s : ConsoleFromFile} (sized : s.Sized) :
    s.toRead.toNat ≤ s.grow.buf.size ↔ s.HasRoom := by
  have size : s.buf.size = s.bufSize.toNat := sized
  rw [ConsoleFromFile.grow, HasRoom]
  split
  next larger =>
    have more : ¬ s.toRead ≤ s.bufSize := UInt32.not_le.2 larger
    show s.toRead.toNat ≤ (grown s.toRead).toNat ↔ _
    rw [grown_ge_iff, or_iff_right more]
  next enough =>
    have fits : s.toRead ≤ s.bufSize := UInt32.not_lt.1 enough
    rw [size]
    exact iff_of_true (UInt32.le_iff_toNat_le.1 fits) (Or.inl fits)

/-- What a round asks for and how large the buffer is behind it, if it starts from `s` once the
growth rule has been applied. -/
structure After (s s' : ConsoleFromFile) (asked : List BodyRead) : Prop where
  bodyReads : s'.bodyReads = s.bodyReads ++ asked
  bufSize : s'.bufSize = s.bufSize
  size : s'.buf.size = s.buf.size

theorem readLen_after (s : ConsoleFromFile) (answer : Option Nat) :
    After s (s.readLen answer) [] := by
  obtain ⟨file, buf, place, same, size⟩ := s.read_spec 4 answer
  simp only [readLen, same]
  split
  · exact ⟨(List.append_nil _).symm, rfl, size⟩
  · split
    · exact ⟨(List.append_nil _).symm, rfl, size⟩
    · exact ⟨(List.append_nil _).symm, rfl, size⟩

theorem readBody_after (s : ConsoleFromFile) (answer : Option Nat) :
    After s.grow (s.readBody answer) [⟨s.toRead, s.grow.buf.size⟩] := by
  have asked : s.grow.toRead = s.toRead := by
    rw [ConsoleFromFile.grow]
    split <;> rfl
  obtain ⟨file, buf, place, same, size⟩ := read_spec
    { s.grow with bodyReads := s.grow.bodyReads ++ [⟨s.grow.toRead, s.grow.buf.size⟩] }
    s.grow.toRead.toNat answer
  simp only [readBody, same]
  rw [← asked]
  split
  · exact ⟨rfl, rfl, size⟩
  · split
    · exact ⟨rfl, rfl, size⟩
    · exact ⟨rfl, rfl, size⟩

theorem bodyReads_grow (s : ConsoleFromFile) : s.grow.bodyReads = s.bodyReads := by
  rw [ConsoleFromFile.grow]
  split <;> rfl

/-- A round that asks for a body adds one to the calls, any other none. -/
theorem bodyReads_step (s : ConsoleFromFile) (answer : Option Nat) :
    (s.step answer).bodyReads =
      s.bodyReads ++ if s.AsksBody then [⟨s.toRead, s.grow.buf.size⟩] else [] := by
  rw [step]
  split
  next other => rw [if_neg fun asks => other asks.1, List.append_nil]
  next here =>
    split
    next lens =>
      rw [if_neg fun asks => Bool.false_ne_true (asks.2.symm.trans lens)]
      exact (s.readLen_after answer).bodyReads
    next body =>
      rw [if_pos ⟨Decidable.not_not.1 here, Bool.eq_false_iff.2 body⟩,
        (s.readBody_after answer).bodyReads, bodyReads_grow]

theorem Sized.step {s : ConsoleFromFile} (sized : s.Sized) (answer : Option Nat) :
    (s.step answer).Sized := by
  have keep : ∀ {s s' : ConsoleFromFile} {asked}, s.Sized → After s s' asked → s'.Sized :=
    fun sized after => after.size.trans (sized.trans (by rw [after.bufSize]))
  rw [ConsoleFromFile.step]
  split
  · exact sized
  · split
    · exact keep sized (s.readLen_after answer)
    · exact keep sized.grow (s.readBody_after answer)

/-- A round keeps to the buffer exactly if it asks for no body, or has room for it. -/
theorem fits_step_iff {s : ConsoleFromFile} (sized : s.Sized) (answer : Option Nat) :
    (s.step answer).Fits ↔ s.Fits ∧ (s.AsksBody → s.HasRoom) := by
  rw [Fits, bodyReads_step, List.forall_mem_append]
  refine and_congr_right fun _ => ?_
  by_cases asks : s.AsksBody
  · rw [if_pos asks, List.forall_mem_singleton, grow_room_iff sized]
    exact ⟨fun room _ => room, fun room => room asks⟩
  · rw [if_neg asks]
    exact iff_of_true (fun r member => absurd member List.not_mem_nil) fun asks' => absurd asks' asks

end ConsoleFromFile

/-! ## Runs -/

/-- Whatever the file is and however it is read: no body is asked for past the buffer exactly if
there is room for the record at every round that asks for one. -/
theorem body_reads_fit_iff (file : List UInt8) (answers : List (Option Nat)) :
    (run ConsoleFromFile.step (ConsoleFromFile.start file) answers).Fits ↔
      Along ConsoleFromFile.step (fun s _ => s.AsksBody → s.HasRoom)
        (ConsoleFromFile.start file) answers := by
  refine run_iff_along (I := fun s => s.Fits ∧ s.Sized) (J := ConsoleFromFile.Sized)
    (fun s answer sized => sized.step answer) (fun s here => here)
    (fun s answer here room =>
      ⟨(ConsoleFromFile.fits_step_iff here.2 answer).2 ⟨here.1, room⟩, here.2.step answer⟩)
    (fun s answer here short fits => short ((ConsoleFromFile.fits_step_iff here.2 answer).1 fits).2)
    (fun s answer sized broken fits =>
      broken ((ConsoleFromFile.fits_step_iff sized answer).1 fits).1) ⟨?_, rfl⟩ answers
  exact fun r member => absurd member List.not_mem_nil

/-- A length of two gigabytes: the buffer shrinks to a page, and the record is read into it. -/
theorem page_for_two_gigabytes :
    (run ConsoleFromFile.step (ConsoleFromFile.start [0x80, 0, 0, 0]) [some 4, some 0]).bodyReads =
        [⟨0x80000000, 4096⟩] ∧
      ¬ (run ConsoleFromFile.step (ConsoleFromFile.start [0x80, 0, 0, 0]) [some 4, some 0]).Fits := by
  have calls : (run ConsoleFromFile.step (ConsoleFromFile.start [0x80, 0, 0, 0])
      [some 4, some 0]).bodyReads = [⟨0x80000000, 4096⟩] := by
    decide +kernel
  refine ⟨calls, ?_⟩
  rw [ConsoleFromFile.Fits, calls, List.forall_mem_singleton]
  decide

end Coinscope.LogClient

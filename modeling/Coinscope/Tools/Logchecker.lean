/-
# Tools.Logchecker -- checking a log

`logchecker` reads a log record by record and looks at the type of each, at its timestamp and,
in a BITCOIN_MSG record, at the command.  It has a list of types of its own, which has no CLIENT.
A timestamp is compared with the one before, with two minutes added to it; the sum has 64 bits.
Commands that are not printable are reported but do not count; the report has them up to the
next NUL.

A call of `read` may return fewer bytes than there are.  The memory behind the buffer, into which
the search for the end of a command may run, is a parameter.

* `validateRecord` -- one record, with the timestamp of the one before.
* `logchecker` -- the program on a file.
* `Produced` -- the records of a log as the system writes it.
* `logchecker_accepts_iff` -- which of these are accepted.
-/
import Coinscope.Shared.LogFormat
import Mathlib.Data.List.Chain

namespace Coinscope.Tools

open Coinscope.Shared
open Coinscope.Theory.Bytes

set_option autoImplicit false

/-! ## Records -/

/-- `isprint`. -/
def isPrint (c : UInt8) : Bool := decide (0x20 ≤ c ∧ c ≤ 0x7e)

/-- The search for the end of a command stops at this byte. -/
def stopsAt (c : UInt8) : Bool := c == 0 || !isPrint c

/-- The types that are listed. -/
def listedTypes : List UInt8 :=
  [LogType.DEBUG.byte, LogType.CTRL.byte, LogType.ERROR.byte, LogType.BITCOIN.byte,
    LogType.BITCOIN_MSG.byte, LogType.CONNECTOR.byte]

/-- `log->type`. -/
def recordType (memory : List UInt8) : List UInt8 := slice 4 1 memory

/-- `ntoh(log->timestamp)`. -/
def recordTime (memory : List UInt8) : Nat := ofBE (slice 5 8 memory)

/-- `timestamp` is before the last one, or more than three days behind it. -/
def jumped (lastTimestamp timestamp : UInt64) : Bool :=
  lastTimestamp != 0 &&
    (decide (timestamp < lastTimestamp) || decide (timestamp - lastTimestamp > 86300 * 3))

/-- `validate_record(buf)` on the memory from the record on: what it returns, and
`last_timestamp` behind it; `none` is a command that is followed out of the memory. -/
def validateRecord (lastTimestamp : UInt64) (memory : List UInt8) : Option (UInt32 × UInt64) :=
  let invalid := !(recordType memory).all fun t => listedTypes.contains t
  let timestamp := UInt64.ofNat (recordTime memory) + 120
  let rv := (if invalid then 1 else 0) ||| (if jumped lastTimestamp timestamp then 2 else 0)
  let lastTimestamp := timestamp - 120
  if recordType memory = [LogType.BITCOIN_MSG.byte] then
    match (memory.drop 22).find? stopsAt with
    | none => none
    | some c =>
        if c = 0 then some (rv, lastTimestamp)
        -- `cerr << msg->msg.command`
        else if 0 ∈ memory.drop 22 then some (rv ||| 4, lastTimestamp)
        else none
  else some (rv, lastTimestamp)

/-! ## The program -/

/-- The variables of `main`, the rest of the file, `last_timestamp`, how often `read` was
called, how many records were checked, and whether bytes were stored behind the buffer. -/
structure Checker where
  file : List UInt8
  buf : List UInt8
  remaining : Nat
  cursor : Nat
  readingLen : Bool
  lastTimestamp : UInt64
  reads : Nat
  checked : Nat
  astray : Bool

/-- How the program ends. -/
inductive CheckerExit where
  | status (rv : Nat)
  | segfault
  | astray
  deriving DecidableEq

namespace Checker

/-- `main` in front of its loop. -/
def start (file : List UInt8) : Checker :=
  ⟨file, WrappedBuffer.ofSize 4, 4, 0, true, 0, 0, 0, false⟩

/-- `rd` bytes are there. -/
def store (c : Checker) (bytes : List UInt8) : Checker :=
  { c with
    file := c.file.drop bytes.length
    buf := WrappedBuffer.blit c.buf c.cursor bytes
    remaining := c.remaining - bytes.length
    cursor := c.cursor + bytes.length
    astray := c.astray || decide (c.buf.length < c.cursor + bytes.length) }

/-- The inner loop.  A call of `read` returns at least one byte, if there is one and one is
asked for; `give` says how many more. -/
def fill (give : Nat → Nat) : Nat → Checker → Option Checker
  | 0, _ => none
  | fuel + 1, c =>
      let bytes := c.file.take (min c.remaining (give c.reads + 1))
      let c := { c with reads := c.reads + 1 }
      if bytes.length = 0 then some c
      else if (c.store bytes).remaining > 0 then fill give fuel (c.store bytes)
      else some (c.store bytes)

/-- The loop of `main`; `beyond` is the memory behind the buffer, record by record. -/
def check (give : Nat → Nat) (beyond : Nat → List UInt8) : Nat → Checker → Option CheckerExit
  | 0, _ => none
  | fuel + 1, c =>
      match c.fill give (c.remaining + 1) with
      | none => none
      | some c =>
          if c.astray then some .astray
          else if c.remaining > 0 then some (.status 0)
          else if c.readingLen then
            let netlen := ofBE (c.buf.take 4)
            check give beyond fuel
              { c with
                remaining := netlen, cursor := 0, buf := WrappedBuffer.realloc netlen c.buf,
                readingLen := false }
          else
            match validateRecord c.lastTimestamp (c.buf ++ beyond c.checked) with
            | none => some .segfault
            | some (rv, lastTimestamp) =>
                if rv &&& (1 ||| 2) ≠ 0 then some (.status 1)
                else check give beyond fuel
                  { c with
                    cursor := 0, readingLen := true, remaining := 4
                    lastTimestamp := lastTimestamp, checked := c.checked + 1 }

end Checker

/-- `main`.  Two rounds take at least the four bytes of a length, so the fuel suffices. -/
def logchecker (give : Nat → Nat) (beyond : Nat → List UInt8) (file : List UInt8) :
    Option CheckerExit :=
  (Checker.start file).check give beyond (file.length + 2)

/-! ## Reading -/

namespace Checker

/-- The inner loop takes what there is, however it comes. -/
theorem fill_eq (give : Nat → Nat) (fuel : Nat) {c : Checker} (enough : c.remaining < fuel)
    (room : c.cursor + c.remaining ≤ c.buf.length) (clean : c.astray = false) :
    ∃ reads, c.fill give fuel = some
      { c with
        file := c.file.drop c.remaining
        buf := WrappedBuffer.blit c.buf c.cursor (c.file.take c.remaining)
        remaining := c.remaining - c.file.length
        cursor := c.cursor + (c.file.take c.remaining).length
        reads := reads } := by
  induction fuel generalizing c with
  | zero => omega
  | succ fuel ih =>
      obtain ⟨file, buf, remaining, cursor, readingLen, last, reads, checked, astray⟩ := c
      simp only at enough room clean
      subst clean
      rw [fill]
      simp only
      by_cases none_ : (file.take (min remaining (give reads + 1))).length = 0
      · -- nothing is left, or nothing was asked for
        have ended : remaining = 0 ∨ file.length = 0 := by
          rw [List.length_take] at none_
          omega
        have taken : file.take remaining = [] := by
          apply List.length_eq_zero_iff.1
          rw [List.length_take]
          omega
        have kept : file.drop remaining = file := by
          rcases ended with zero | zero
          · rw [zero, List.drop_zero]
          · rw [List.length_eq_zero_iff.1 zero, List.drop_nil]
        have left_ : remaining - file.length = remaining := by omega
        refine ⟨reads + 1, ?_⟩
        rw [if_pos none_, taken, kept, left_]
        simp [WrappedBuffer.blit]
      · rw [if_neg none_]
        obtain ⟨n, size⟩ : ∃ n, n = min (min remaining (give reads + 1)) file.length := ⟨_, rfl⟩
        have positive : 0 < n := by
          rw [List.length_take] at none_
          omega
        have bytes : file.take (min remaining (give reads + 1)) = file.take n := by
          rw [size, List.take_eq_take_min]
        have length : (file.take n).length = n := by
          rw [List.length_take]
          omega
        have inside : decide (buf.length < cursor + n) = false := by
          apply decide_eq_false
          omega
        rw [bytes]
        simp only [store, length, inside, Bool.or_self]
        split
        · rename_i more
          have placed : (WrappedBuffer.blit buf cursor (file.take n)).length = buf.length :=
            WrappedBuffer.length_blit (by rw [length]; omega)
          obtain ⟨reads', rest⟩ := ih (c := ⟨file.drop n, WrappedBuffer.blit buf cursor (file.take n),
            remaining - n, cursor + n, readingLen, last, reads + 1, checked, false⟩)
            (by show remaining - n < fuel; omega)
            (by show cursor + n + (remaining - n) ≤ _; rw [placed]; omega) rfl
          refine ⟨reads', rest.trans ?_⟩
          have count : n + (remaining - n) = remaining := by omega
          have parts : file.take remaining = file.take n ++ (file.drop n).take (remaining - n) := by
            rw [← List.take_add, count]
          have less : remaining - n - (file.length - n) = remaining - file.length := by omega
          simp only [List.drop_drop, List.length_drop, count, less]
          rw [WrappedBuffer.blit_next (by omega) (by rw [length]), ← parts, parts,
            List.length_append, length, Nat.add_assoc]
        · rename_i whole
          have all : n = remaining := by omega
          have less : remaining - n = remaining - file.length := by omega
          refine ⟨reads + 1, ?_⟩
          rw [less, all]
          rw [all] at length
          rw [length]

end Checker

/-! ## One record -/

/-- The command of a BITCOIN_MSG record ends in the memory. -/
def SearchEnds (memory : List UInt8) : Prop :=
  recordType memory = [LogType.BITCOIN_MSG.byte] → 0 ∈ memory.drop 22

theorem recordTime_lt (memory : List UInt8) : recordTime memory < 2 ^ 64 := by
  have bound := ofBE_lt (slice 5 8 memory)
  have eight : (slice 5 8 memory).length ≤ 8 := by
    rw [slice, List.length_take]
    omega
  exact Nat.lt_of_lt_of_le bound (Nat.pow_le_pow_right (by decide) eight)

theorem record_append {body : List UInt8} (long : 13 ≤ body.length) (more : List UInt8) :
    recordType (body ++ more) = recordType body ∧ recordTime (body ++ more) = recordTime body := by
  rw [recordType, recordTime, slice_append_left _ (by omega), slice_append_left _ (by omega)]
  exact ⟨rfl, rfl⟩

/-- A time in the window is let through, unless the two minutes carry it over the end. -/
theorem jumped_iff {last : UInt64} {time : Nat} (small : time < 2 ^ 64)
    (window : last ≠ 0 → last.toNat ≤ time ∧ time ≤ last.toNat + 2 * 86400) :
    jumped last (UInt64.ofNat time + 120) = false ↔ last = 0 ∨ time + 120 < 2 ^ 64 := by
  by_cases zero : last = 0
  · simp [jumped, zero]
  · obtain ⟨low, high⟩ := window zero
    have sum : (UInt64.ofNat time + 120).toNat = (time + 120) % 2 ^ 64 := by
      rw [UInt64.toNat_add, UInt64.toNat_ofNat_of_lt' small]
      rfl
    by_cases fits : time + 120 < 2 ^ 64
    · rw [Nat.mod_eq_of_lt fits] at sum
      have notLess : ¬ UInt64.ofNat time + 120 < last := by
        rw [UInt64.lt_iff_toNat_lt, sum]
        omega
      have difference : (UInt64.ofNat time + 120 - last).toNat = time + 120 - last.toNat := by
        rw [UInt64.toNat_sub_of_le _ _ (UInt64.le_iff_toNat_le.2 (by rw [sum]; omega)), sum]
      have notFar : ¬ UInt64.ofNat time + 120 - last > 86300 * 3 := by
        rw [gt_iff_lt, UInt64.lt_iff_toNat_lt, difference]
        show ¬ 258900 < _
        omega
      rw [jumped, decide_eq_false notLess, decide_eq_false notFar, Bool.or_self, Bool.and_false]
      exact ⟨fun _ => Or.inr fits, fun _ => rfl⟩
    · have wrapped : (time + 120) % 2 ^ 64 = time + 120 - 2 ^ 64 := by omega
      have less : UInt64.ofNat time + 120 < last := by
        rw [UInt64.lt_iff_toNat_lt, sum, wrapped]
        omega
      have late : jumped last (UInt64.ofNat time + 120) = true := by
        rw [jumped, decide_eq_true less, Bool.true_or, Bool.and_true]
        exact bne_iff_ne.2 zero
      rw [late]
      constructor
      · intro no
        cases no
      · rintro (no | no)
        · exact absurd no zero
        · exact absurd no fits

/-- The types that are listed are all but CLIENT. -/
theorem listed_iff (t : LogType) : listedTypes.contains t.byte = true ↔ t ≠ .CLIENT := by
  cases t <;> decide

/-- Only the first two bits count. -/
theorem flags_iff (invalid late odd : Bool) :
    (((if invalid then 1 else 0) ||| (if late then 2 else 0) ||| (if odd then 4 else 0) : UInt32) &&&
      (1 ||| 2) = 0) ↔ invalid = false ∧ late = false := by
  cases invalid <;> cases late <;> cases odd <;> decide

/-- What becomes of a record in the window: it counts, unless its command does not end in the
memory, and it counts as valid unless it is a CLIENT record or its time is carried over the
end. -/
theorem validateRecord_iff {last : UInt64} {memory : List UInt8} {t : LogType}
    (typed : recordType memory = [t.byte])
    (window : last ≠ 0 → last.toNat ≤ recordTime memory ∧
      recordTime memory ≤ last.toNat + 2 * 86400) :
    (validateRecord last memory = none ∧ ¬ SearchEnds memory) ∨
      ∃ rv, validateRecord last memory = some (rv, UInt64.ofNat (recordTime memory)) ∧
        SearchEnds memory ∧ (rv &&& (1 ||| 2) = 0 ↔
          t ≠ .CLIENT ∧ (last = 0 ∨ recordTime memory + 120 < 2 ^ 64)) := by
  have restored : UInt64.ofNat (recordTime memory) + 120 - 120 = UInt64.ofNat (recordTime memory) := by
    simp
  have counts : ∀ odd : Bool, (((if !(recordType memory).all fun t => listedTypes.contains t then 1
      else 0) ||| (if jumped last (UInt64.ofNat (recordTime memory) + 120) then 2 else 0) |||
      (if odd then 4 else 0) : UInt32) &&& (1 ||| 2) = 0) ↔
        t ≠ .CLIENT ∧ (last = 0 ∨ recordTime memory + 120 < 2 ^ 64) := by
    intro odd
    rw [flags_iff, jumped_iff (recordTime_lt memory) window, typed, ← listed_iff]
    simp
  rw [validateRecord, restored]
  by_cases isMsg : recordType memory = [LogType.BITCOIN_MSG.byte]
  · rw [if_pos isMsg]
    cases found : (memory.drop 22).find? stopsAt with
    | none =>
        refine Or.inl ⟨rfl, fun ends => ?_⟩
        exact absurd (rfl : stopsAt 0 = true) (List.find?_eq_none.1 found 0 (ends isMsg))
    | some c =>
        by_cases zero : c = 0
        · have there : 0 ∈ memory.drop 22 := zero ▸ List.mem_of_find?_eq_some found
          have all := counts false
          simp only [Bool.false_eq_true, if_false, UInt32.or_zero] at all
          simp only [zero, if_true]
          exact Or.inr ⟨_, rfl, fun _ => there, all⟩
        · simp only [if_neg zero]
          -- the search stops here, the report goes on to the next NUL
          by_cases there : 0 ∈ memory.drop 22
          · rw [if_pos there]
            exact Or.inr ⟨_, rfl, fun _ => there, counts true⟩
          · rw [if_neg there]
            exact Or.inl ⟨rfl, fun ends => there (ends isMsg)⟩
  · rw [if_neg isMsg]
    refine Or.inr ⟨_, rfl, fun no => absurd no isMsg, ?_⟩
    have all := counts false
    simp only [Bool.false_eq_true, if_false, UInt32.or_zero] at all
    exact all

/-! ## One record after the other -/

/-- A log with these records. -/
def logFile (bodies : List (List UInt8)) : List UInt8 :=
  bodies.flatMap fun body => be 4 body.length ++ body

/-- The buffer with a record in it: its length is read into the buffer before. -/
def loaded (buf body : List UInt8) : List UInt8 :=
  WrappedBuffer.blit
    (WrappedBuffer.realloc body.length (WrappedBuffer.blit buf 0 (be 4 body.length))) 0 body

theorem loaded_eq (buf body : List UInt8) : ∃ rest, loaded buf body = body ++ rest :=
  ⟨_, by rw [loaded, WrappedBuffer.blit, List.take_zero, List.nil_append]⟩

theorem length_loaded (buf body : List UInt8) :
    (loaded buf body).length = allocatedFor body.length := by
  have room := le_allocatedFor body.length
  rw [loaded, WrappedBuffer.length_blit (by rw [WrappedBuffer.length_realloc]; omega),
    WrappedBuffer.length_realloc]

namespace Checker

/-- In front of a record. -/
structure Fresh (c : Checker) : Prop where
  room : 4 ≤ c.buf.length
  remaining : c.remaining = 4
  cursor : c.cursor = 0
  readingLen : c.readingLen = true
  clean : c.astray = false

/-- Behind a record. -/
def next (c : Checker) (body rest : List UInt8) (lastTimestamp : UInt64) (reads : Nat) : Checker :=
  ⟨rest, loaded c.buf body, 4, 0, true, lastTimestamp, reads, c.checked + 1, false⟩

theorem next_fresh (c : Checker) {body : List UInt8} (long : 13 ≤ body.length) (rest : List UInt8)
    (lastTimestamp : UInt64) (reads : Nat) : (c.next body rest lastTimestamp reads).Fresh := by
  have room := le_allocatedFor body.length
  refine ⟨?_, rfl, rfl, rfl, rfl⟩
  show 4 ≤ (loaded c.buf body).length
  rw [length_loaded]
  omega

/-- At the end of the file. -/
theorem check_end (give : Nat → Nat) (beyond : Nat → List UInt8) (fuel : Nat) {c : Checker}
    (fresh : c.Fresh) (nothing : c.file = []) :
    c.check give beyond (fuel + 1) = some (.status 0) := by
  obtain ⟨file, buf, remaining, cursor, readingLen, last, reads, checked, astray⟩ := c
  obtain ⟨room, rfl, rfl, rfl, rfl⟩ := fresh
  subst nothing
  obtain ⟨reads', filled⟩ := fill_eq give 5
    (c := ⟨[], buf, 4, 0, true, last, reads, checked, false⟩) (show 4 < 5 by decide)
    (by simpa using room) rfl
  rw [check, filled]
  rfl

/-- A record takes two rounds. -/
theorem check_record (give : Nat → Nat) (beyond : Nat → List UInt8) (fuel : Nat) {c : Checker}
    (fresh : c.Fresh) {body rest : List UInt8} (small : body.length < 2 ^ 32)
    (front : c.file = be 4 body.length ++ body ++ rest) : ∃ reads,
    c.check give beyond (fuel + 2) =
      match validateRecord c.lastTimestamp (loaded c.buf body ++ beyond c.checked) with
      | none => some .segfault
      | some (rv, lastTimestamp) =>
          if rv &&& (1 ||| 2) ≠ 0 then some (.status 1)
          else (c.next body rest lastTimestamp reads).check give beyond fuel := by
  obtain ⟨file, buf, remaining, cursor, readingLen, last, reads, checked, astray⟩ := c
  obtain ⟨room, rfl, rfl, rfl, rfl⟩ := fresh
  simp only at front room
  subst front
  have four : (be 4 body.length).length = 4 := length_be ..
  have allocated := le_allocatedFor body.length
  obtain ⟨reads', first⟩ := fill_eq give 5
    (c := ⟨be 4 body.length ++ body ++ rest, buf, 4, 0, true, last, reads, checked, false⟩)
    (show 4 < 5 by decide) (by simpa using room) rfl
  obtain ⟨reads'', second⟩ := fill_eq give (body.length + 1)
    (c := ⟨body ++ rest, WrappedBuffer.realloc body.length
        (WrappedBuffer.blit buf 0 (be 4 body.length)), body.length, 0, false, last, reads', checked,
        false⟩)
    (Nat.lt_succ_self _) (by simpa using allocated) rfl
  have header : (be 4 body.length ++ body ++ rest).take 4 = be 4 body.length := by
    rw [List.append_assoc, List.take_left' four]
  have behind : (be 4 body.length ++ body ++ rest).drop 4 = body ++ rest := by
    rw [List.append_assoc, List.drop_left' four]
  have netlen : ofBE ((WrappedBuffer.blit buf 0 (be 4 body.length)).take 4) = body.length := by
    rw [WrappedBuffer.blit, List.take_zero, List.nil_append, List.take_left' four]
    exact ofBE_be_of_lt small
  have whole : 4 - (be 4 body.length ++ body ++ rest).length = 0 := by
    rw [List.length_append, List.length_append, four]
    omega
  have all : body.length - (body ++ rest).length = 0 := by
    rw [List.length_append]
    omega
  simp only [header, behind, whole] at first
  simp only [List.take_left, List.drop_left, all] at second
  refine ⟨reads'', ?_⟩
  rw [check, first]
  simp only [Bool.false_eq_true, if_false, Nat.lt_irrefl, gt_iff_lt, if_true, netlen]
  rw [check, second]
  simp only [Bool.false_eq_true, if_false, Nat.lt_irrefl, gt_iff_lt]
  rfl

end Checker

/-! ## Logs of the system -/

/-- The time of a record is the one of the record before or up to two days later. -/
def Follows (earlier later : Nat) : Prop := earlier ≤ later ∧ later ≤ earlier + 2 * 86400

instance (earlier later : Nat) : Decidable (Follows earlier later) :=
  inferInstanceAs (Decidable (_ ∧ _))

/-- The records of a log as the system writes it: each has a header, one of the types, and a
time that follows the one before. -/
structure Produced (bodies : List (List UInt8)) : Prop where
  sized : ∀ body ∈ bodies, 13 ≤ body.length ∧ body.length < 2 ^ 32
  typed : ∀ body ∈ bodies, ∃ t : LogType, recordType body = [t.byte]
  steady : (bodies.map recordTime).IsChain Follows

/-- The records that count as valid, behind a record of this time. -/
def Passes : Nat → List (List UInt8) → Prop
  | _, [] => True
  | last, body :: rest =>
      recordType body ≠ [LogType.CLIENT.byte] ∧
        (last = 0 ∨ recordTime body + 120 < 2 ^ 64) ∧ Passes (recordTime body) rest

/-- The command of every BITCOIN_MSG record ends in the memory: the buffer, and what is behind
it. -/
def SearchesEnd (beyond : Nat → List UInt8) : Nat → List UInt8 → List (List UInt8) → Prop
  | _, _, [] => True
  | n, buf, body :: rest =>
      SearchEnds (loaded buf body ++ beyond n) ∧ SearchesEnd beyond (n + 1) (loaded buf body) rest

theorem byte_inj {t t' : LogType} (same : t.byte = t'.byte) : t = t' := by
  cases t <;> cases t' <;> first | rfl | exact absurd same (by decide)

theorem recordType_client {body : List UInt8} {t : LogType} (type : recordType body = [t.byte]) :
    recordType body ≠ [LogType.CLIENT.byte] ↔ t ≠ .CLIENT := by
  rw [type]
  constructor
  · rintro differ rfl
    exact differ rfl
  · intro differ same
    exact differ (byte_inj (List.singleton_inj.1 same))

/-- From any record on. -/
theorem check_accepts_iff (give : Nat → Nat) (beyond : Nat → List UInt8) {bodies : List (List UInt8)}
    (fuel : Nat) {c : Checker} (fresh : c.Fresh) (file : c.file = logFile bodies)
    (enough : 2 * bodies.length < fuel)
    (sized : ∀ body ∈ bodies, 13 ≤ body.length ∧ body.length < 2 ^ 32)
    (typed : ∀ body ∈ bodies, ∃ t : LogType, recordType body = [t.byte])
    (steady : (bodies.map recordTime).IsChain Follows)
    (first : ∀ body ∈ bodies.head?, c.lastTimestamp ≠ 0 →
      Follows c.lastTimestamp.toNat (recordTime body)) :
    c.check give beyond fuel = some (.status 0) ↔
      Passes c.lastTimestamp.toNat bodies ∧ SearchesEnd beyond c.checked c.buf bodies := by
  induction bodies generalizing c fuel with
  | nil =>
      obtain ⟨fuel, rfl⟩ : ∃ n, fuel = n + 1 := ⟨fuel - 1, by omega⟩
      rw [Checker.check_end give beyond fuel fresh file]
      exact ⟨fun _ => ⟨trivial, trivial⟩, fun _ => rfl⟩
  | cons body rest ih =>
      obtain ⟨fuel, rfl⟩ : ∃ n, fuel = n + 2 := ⟨fuel - 2, by rw [List.length_cons] at enough; omega⟩
      obtain ⟨long, small⟩ := sized body List.mem_cons_self
      obtain ⟨t, type⟩ := typed body List.mem_cons_self
      have front : c.file = be 4 body.length ++ body ++ logFile rest := by
        rw [file, logFile, List.flatMap_cons]
        rfl
      obtain ⟨reads, record⟩ := Checker.check_record give beyond fuel fresh small front
      obtain ⟨more, buffer⟩ := loaded_eq c.buf body
      obtain ⟨sameType, sameTime⟩ := record_append long (more ++ beyond c.checked)
      rw [← List.append_assoc, ← buffer] at sameType sameTime
      have zero : c.lastTimestamp = 0 ↔ c.lastTimestamp.toNat = 0 := by
        rw [← UInt64.toNat_inj]
        rfl
      rw [record, Passes, SearchesEnd, recordType_client type, ← zero]
      rcases validateRecord_iff (sameType.trans type) (by rw [sameTime]; exact first body rfl) with
        ⟨lost, runs⟩ | ⟨rv, result, ends, counts⟩
      · rw [lost]
        constructor
        · intro no
          cases no
        · rintro ⟨-, ends, -⟩
          exact absurd ends runs
      · rw [sameTime] at result counts
        rw [result]
        simp only
        by_cases valid : rv &&& (1 ||| 2) = 0
        · have restored : (UInt64.ofNat (recordTime body)).toNat = recordTime body :=
            UInt64.toNat_ofNat_of_lt' (recordTime_lt body)
          have later := ih fuel
            (c.next_fresh long (logFile rest) (UInt64.ofNat (recordTime body)) reads) rfl
            (by rw [List.length_cons] at enough; omega)
            (fun b member => sized b (List.mem_cons_of_mem _ member))
            (fun b member => typed b (List.mem_cons_of_mem _ member))
            steady.tail
            (by
              intro b head _
              show Follows (UInt64.ofNat (recordTime body)).toNat (recordTime b)
              rw [restored]
              obtain ⟨others, rfl⟩ : ∃ others, rest = b :: others := List.head?_eq_some_iff.1 head
              exact steady.rel)
          have passes : Passes (c.next body (logFile rest) (UInt64.ofNat (recordTime body))
              reads).lastTimestamp.toNat rest ↔ Passes (recordTime body) rest := by
            show Passes (UInt64.ofNat (recordTime body)).toNat rest ↔ _
            rw [restored]
          rw [if_neg (fun differ => differ valid), later, passes]
          obtain ⟨kind, time⟩ := counts.1 valid
          constructor
          · rintro ⟨all, searches⟩
            exact ⟨⟨kind, time, all⟩, ends, searches⟩
          · rintro ⟨⟨-, -, all⟩, -, searches⟩
            exact ⟨all, searches⟩
        · rw [if_pos valid]
          constructor
          · intro no
            cases no
          · rintro ⟨⟨kind, time, -⟩, -⟩
            exact absurd (counts.2 ⟨kind, time⟩) valid

/-- Behind the first record the time before makes no difference. -/
theorem passes_iff {bodies : List (List UInt8)} (last : Nat)
    (steady : (last :: bodies.map recordTime).IsChain Follows) :
    Passes last bodies ↔
      ∀ body ∈ bodies, recordType body ≠ [LogType.CLIENT.byte] ∧ recordTime body < 2 ^ 64 - 120 := by
  induction bodies generalizing last with
  | nil => simp [Passes]
  | cons body rest ih =>
      have follows : Follows last (recordTime body) := steady.rel
      have time : last = 0 ∨ recordTime body + 120 < 2 ^ 64 ↔ recordTime body < 2 ^ 64 - 120 := by
        unfold Follows at follows
        omega
      rw [Passes, time, ih (recordTime body) steady.tail, List.forall_mem_cons, and_assoc]

/-- A log as the system writes it is accepted exactly if it has no CLIENT record, no record
behind the first is in the last two minutes of time, and every command ends in the memory. -/
theorem logchecker_accepts_iff (give : Nat → Nat) (beyond : Nat → List UInt8)
    (bodies : List (List UInt8)) (produced : Produced bodies) :
    logchecker give beyond (logFile bodies) = some (.status 0) ↔
      (∀ body ∈ bodies, recordType body ≠ [LogType.CLIENT.byte]) ∧
        (∀ body ∈ bodies.tail, recordTime body < 2 ^ 64 - 120) ∧
        SearchesEnd beyond 0 (WrappedBuffer.ofSize 4) bodies := by
  have fresh : (Checker.start (logFile bodies)).Fresh := ⟨Nat.le_refl 4, rfl, rfl, rfl, rfl⟩
  have fuel : 2 * bodies.length < (logFile bodies).length + 2 := by
    have four : ∀ bodies : List (List UInt8), 4 * bodies.length ≤ (logFile bodies).length := by
      intro bodies
      induction bodies with
      | nil => exact Nat.zero_le _
      | cons body rest ih =>
          rw [logFile, List.flatMap_cons, List.length_append, List.length_append, length_be,
            List.length_cons]
          rw [logFile] at ih
          omega
    have enough := four bodies
    omega
  rw [logchecker, check_accepts_iff give beyond _ fresh rfl fuel produced.sized produced.typed
    produced.steady (fun _ _ no => absurd rfl no)]
  show Passes 0 bodies ∧ _ ↔ _
  rw [← and_assoc]
  apply and_congr_left
  intro _
  cases bodies with
  | nil => simp [Passes]
  | cons body rest =>
      rw [Passes, passes_iff (recordTime body) produced.steady, List.forall_mem_cons, List.tail_cons]
      constructor
      · rintro ⟨kind, -, all⟩
        exact ⟨⟨kind, fun b member => (all b member).1⟩, fun b member => (all b member).2⟩
      · rintro ⟨⟨kind, kinds⟩, times⟩
        exact ⟨kind, Or.inl rfl, fun b member => ⟨kinds b member, times b member⟩⟩

/-- A record with this type and time, and a byte of content. -/
def someRecord (t : LogType) (time : Nat) : List UInt8 := [0, 0, 0, 1] ++ [t.byte] ++ be 8 time ++ [0]

/-- A BITCOIN_MSG record whose command is one unprintable byte. -/
def someMessage (time : Nat) : List UInt8 :=
  [0, 0, 0, 1] ++ [LogType.BITCOIN_MSG.byte] ++ be 8 time ++ List.replicate 9 0 ++ [0x80] ++
    List.replicate 19 0

theorem someRecords_produced : Produced [someRecord .DEBUG 1400000000, someMessage 1400000060] where
  sized := by decide
  typed := by
    intro body member
    rcases List.mem_cons.1 member with rfl | other
    · exact ⟨.DEBUG, by decide⟩
    · rw [List.mem_singleton.1 other]
      exact ⟨.BITCOIN_MSG, by decide⟩
  steady := by decide

/-- A debug and a message record a minute apart. -/
theorem logchecker_accepts_two :
    Produced [someRecord .DEBUG 1400000000, someMessage 1400000060] ∧
      logchecker (fun _ => 4095) (fun _ => []) (logFile
        [someRecord .DEBUG 1400000000, someMessage 1400000060]) = some (.status 0) := by
  refine ⟨someRecords_produced, ?_⟩
  apply (logchecker_accepts_iff (fun _ => 4095) (fun _ => []) _ someRecords_produced).2
  refine ⟨by decide, by decide, ?_, ?_, trivial⟩
  · intro isMsg
    exact absurd isMsg (by decide)
  · intro _
    decide +kernel

/-- The clock record of a client: the only record, and not accepted. -/
theorem client_rejected :
    Produced [someRecord .CLIENT 1400000000] ∧
      logchecker (fun _ => 4095) (fun _ => []) (logFile [someRecord .CLIENT 1400000000]) =
        some (.status 1) := by
  refine ⟨⟨by decide, ?_, by decide⟩, by decide +kernel⟩
  intro body member
  rw [List.mem_singleton.1 member]
  exact ⟨.CLIENT, by decide⟩

end Coinscope.Tools

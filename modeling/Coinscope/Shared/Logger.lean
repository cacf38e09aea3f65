/-
# Shared.Logger -- coalescing records on their way to the log server

`g_log<BITCOIN>` and `g_log<BITCOIN_MSG>` collect records in `g_log_store` and hand
the store over when the next record does not fit; the text version of `g_log`
hands its record over at once, the store in front of it.  The log connection may
be lost and made again at any time; while it is missing, a full store and every
text record are dropped, but a store that is not full stays.

* `Logger` -- the three globals, with the connections that were lost.
* `Ledger` -- what the logger is for: which records each connection was given and
  which are waiting.  `Accounts` ties the two together, and `step_accounts` is the
  refinement: every event moves records in the ledger, whole and in order.
* `emission_in_order` -- the whole-run statement.
-/
import Coinscope.Shared.LogFormat
import Coinscope.Shared.WriteBuffer
import Coinscope.Theory.Runs

namespace Coinscope.Shared

open Coinscope.Theory.Bytes
open Coinscope.Theory.Runs

set_option autoImplicit false

/-! ## The log connection -/

/-- `class log_buffer`, with the bytes it was handed and those the kernel took. -/
structure LogBuffer where
  writeQueue : WriteBuffer
  io : Io
  handed : List UInt8
  sent : List UInt8

namespace LogBuffer

/-- `log_buffer(fd)`. -/
def new (fd : Int) : LogBuffer := ⟨WriteBuffer.new, Io.startOn fd Events.WRITE, [], []⟩

/-- `append(ptr, len)`. -/
def append (b : LogBuffer) (buf : List UInt8) (len : Nat) : LogBuffer :=
  { b with
    writeQueue := b.writeQueue.appendShared buf len
    io := if b.writeQueue.toWrite = 0 then b.io.set Events.WRITE else b.io
    handed := b.handed ++ buf.take len }

/-- `log_buffer::io_cb`; `none` when it has deleted itself. -/
def ioCb (b : LogBuffer) (outbox : List WriteResult) : Option LogBuffer :=
  let s := WriteBuffer.flush b.io.fd outbox b.writeQueue
  let b := { b with writeQueue := s.queue, sent := b.sent ++ s.put }
  let idle := if s.queue.toWrite = 0 then { b with io := b.io.set Events.none } else b
  match s.ret with
  | .fail .eagain | .fail .eintr => some idle
  | .fail _ => none
  | .count _ => some idle

end LogBuffer

/-! ## The globals -/

/-- `store_size`. -/
def storeSize : Nat := 4096

/-- `g_log_buffer`, `g_log_cursor` and `g_log_store`; `past` are the connections
that were lost, oldest first. -/
structure Logger where
  buffer : Option LogBuffer
  cursor : Nat
  store : List UInt8
  past : List LogBuffer

namespace Logger

def new : Logger := ⟨none, 0, WrappedBuffer.ofSize storeSize, []⟩

/-- `append_buf`; without a connection it only complains on the console. -/
def appendBuf (s : Logger) (buf : List UInt8) (len : Nat) : Logger :=
  { s with buffer := s.buffer.map fun b => b.append buf len }

/-- The capacity test of both buffered versions, with the hand-over behind it. -/
def reserve (s : Logger) (len : Nat) : Logger :=
  if len + 4 > s.store.length - s.cursor then
    let s := if s.cursor > 0 then s.appendBuf s.store s.cursor else s
    { s with cursor := 0, store := WrappedBuffer.ofSize (max storeSize (len + 4)) }
  else s

/-- The copies to `cur_ptr`, which are back to back, and the new cursor. -/
def put (s : Logger) (bytes : List UInt8) : Logger :=
  { s with store := WrappedBuffer.blit s.store s.cursor bytes, cursor := s.cursor + bytes.length }

/-- `g_log<BITCOIN>`. -/
def gLogBitcoin (s : Logger) (time : UInt64) (updateType handleId : UInt32)
    (remote localAddr : SockaddrStorage) (text : List UInt8) : Logger :=
  (s.reserve (bitcoinLen text.length)).put (be 4 (bitcoinLen text.length) ++
    bitcoinContent time updateType handleId remote localAddr text)

/-- `g_log<BITCOIN_MSG>`. -/
def gLogBitcoinMsg (s : Logger) (time : UInt64) (id : UInt32) (isSender : Bool)
    (m : PackedMessage) : Logger :=
  (s.reserve (bitcoinMsgLen m.length)).put (be 4 (bitcoinMsgLen m.length) ++
    bitcoinMsgContent time id isSender m)

/-- One copy of `g_log_inner`: room for it, then the bytes at `len`. -/
def extend (wbuf : List UInt8 × Nat) (str : List UInt8) : List UInt8 × Nat :=
  let room := if wbuf.1.length < wbuf.2 + str.length then
      WrappedBuffer.realloc (wbuf.2 + str.length) wbuf.1
    else wbuf.1
  (WrappedBuffer.blit room wbuf.2 str, wbuf.2 + str.length)

/-- `g_log_inner`, over the pair of `wbuf` and `len`. -/
def gLogInner (wbuf : List UInt8 × Nat) (val : List UInt8) : List (List UInt8) → List UInt8 × Nat
  | [] => extend wbuf (val ++ [0])
  | next :: args => gLogInner (extend wbuf (val ++ ascii [' '])) next args

/-- The buffer of a text record with its type and time; the length comes last. -/
def textStart (time : UInt64) (kind : LogType) : List UInt8 :=
  WrappedBuffer.blit (WrappedBuffer.blit (WrappedBuffer.ofSize 128) 4 [kind.byte]) 5
    (be 8 time.toNat)

/-- The generic `g_log`, for text. -/
def gLogText (s : Logger) (time : UInt64) (kind : LogType) (val : List UInt8)
    (args : List (List UInt8)) : Logger :=
  let inner := gLogInner (textStart time kind, 8 + 1 + 4) val args
  if s.buffer.isSome then
    let wbuf := WrappedBuffer.blit inner.1 0 (be 4 (inner.2 - 4))
    let s := if s.cursor > 0 then
        { s.appendBuf s.store s.cursor with cursor := 0, store := WrappedBuffer.ofSize 4096 }
      else s
    s.appendBuf wbuf inner.2
  else s

/-- One call of `g_log`, by its version. -/
def gLog (s : Logger) (time : UInt64) : LogCall → Logger
  | .bitcoin updateType handleId remote localAddr text =>
      s.gLogBitcoin time updateType handleId remote localAddr text
  | .bitcoinMsg id isSender msg => s.gLogBitcoinMsg time id isSender msg
  | .text kind val args => s.gLogText time kind val args

end Logger

/-- A call of `g_log` whose record has a length below `2 ^ 32`, an event on the log
connection, or the watchdog that makes a missing connection again. -/
inductive LogEvent where
  | log (time : UInt64) (call : LogCall) (short : call.Short)
  | ioCb (outbox : List WriteResult)
  | watch (fd : Option Nat)

namespace Logger

def step (s : Logger) : LogEvent → Logger
  | .log time call _ => s.gLog time call
  | .ioCb outbox =>
      match s.buffer with
      | none => s
      | some b =>
          match b.ioCb outbox with
          | some b => { s with buffer := some b }
          | none => { s with buffer := none, past := s.past ++ [b] }
  | .watch fd =>
      match s.buffer with
      | none => { s with buffer := fd.map fun fd => LogBuffer.new fd }
      | some _ => s

/-- The bytes waiting in the store. -/
def stored (s : Logger) : List UInt8 := s.store.take s.cursor

end Logger

/-- The records a run emits, in order. -/
def emitted (events : List LogEvent) : List (List UInt8) :=
  events.filterMap fun
    | .log time call _ => some (call.record time)
    | .ioCb _ => none
    | .watch _ => none

/-! ## The ledger -/

/-- Which records went where: to the connections that were lost, to the present
one, and to the store. -/
structure Ledger where
  past : List (List (List UInt8))
  current : Option (List (List UInt8))
  kept : List (List UInt8)

namespace Ledger

/-- All records accounted for, in order. -/
def all (l : Ledger) : List (List UInt8) := (l.past ++ l.current.toList).flatten ++ l.kept

/-- Records go to the connection, or nowhere. -/
def hand (l : Ledger) (rs : List (List UInt8)) : Ledger :=
  { l with current := l.current.map (· ++ rs) }

/-- The store goes to the connection, or nowhere. -/
def flush (l : Ledger) : Ledger := { l.hand l.kept with kept := [] }

def keep (l : Ledger) (r : List UInt8) : Ledger := { l with kept := l.kept ++ [r] }

/-- `l'` is `l` after these records were emitted: some may be dropped but none moves,
and while there is a connection none is dropped. -/
structure Moves (l l' : Ledger) (rs : List (List UInt8)) : Prop where
  sublist : l'.all.Sublist (l.all ++ rs)
  lossless : ∀ c c', l.current = some c → l'.current = some c' →
    c' ++ l'.kept = c ++ l.kept ++ rs

theorem Moves.refl (l : Ledger) : Moves l l [] := by
  refine ⟨by simp, ?_⟩
  intro c c' here there
  rw [here] at there
  cases there
  simp

theorem flush_all_sublist (l : Ledger) : l.flush.all.Sublist l.all := by
  cases h : l.current with
  | none => simp [flush, hand, all, h]
  | some c => simp [flush, hand, all, h]

theorem keep_moves (l : Ledger) (r : List UInt8) : Moves l (l.keep r) [r] := by
  refine ⟨by simp [keep, all], ?_⟩
  intro c c' here there
  cases here.symm.trans there
  simp [keep]

theorem flush_keep_moves (l : Ledger) (r : List UInt8) : Moves l (l.flush.keep r) [r] := by
  constructor
  · have first : (l.flush.keep r).all = l.flush.all ++ [r] := by simp [keep, all]
    rw [first]
    exact l.flush_all_sublist.append_right [r]
  · intro c c' here there
    simp only [flush, hand, keep, here, Option.map_some, Option.some.injEq] at there
    simp [flush, keep, ← there]

theorem flush_hand_moves {l : Ledger} {c : List (List UInt8)} (here : l.current = some c)
    (r : List UInt8) : Moves l (l.flush.hand [r]) [r] := by
  refine ⟨by simp [flush, hand, all, here], ?_⟩
  intro d c' there after
  simp only [flush, hand, there, Option.map_some, Option.some.injEq] at after
  simp [flush, hand, ← after]

/-- A text record without a connection. -/
theorem drop_moves {l : Ledger} (missing : l.current = none) (r : List UInt8) :
    Moves l l [r] := by
  refine ⟨List.sublist_append_left .., ?_⟩
  intro c c' here
  rw [missing] at here
  cases here

end Ledger

/-! ## The logger keeps the ledger -/

/-- Nothing handed to the connection is missing from its queue or the kernel. -/
structure LogBuffer.Valid (b : LogBuffer) : Prop where
  queue : b.writeQueue.Valid
  conserved : b.sent ++ b.writeQueue.pending = b.handed

theorem LogBuffer.new_valid (fd : Int) : (LogBuffer.new fd).Valid :=
  ⟨WriteBuffer.new_valid, rfl⟩

theorem LogBuffer.Valid.append {b : LogBuffer} (valid : b.Valid) {buf : List UInt8} {len : Nat}
    (some_ : 0 < len) (inside : len ≤ buf.length) : (b.append buf len).Valid := by
  refine ⟨valid.queue.appendShared some_ inside, ?_⟩
  simp [LogBuffer.append, ← valid.conserved]

theorem LogBuffer.ioCb_valid {b b' : LogBuffer} (valid : b.Valid) {outbox : List WriteResult}
    (alive : b.ioCb outbox = some b') : b'.Valid ∧ b'.handed = b.handed := by
  obtain ⟨queue, conserved, -⟩ := WriteBuffer.flush_flushed b.io.fd outbox valid.queue
  unfold ioCb at alive
  generalize WriteBuffer.flush b.io.fd outbox b.writeQueue = s at *
  have written : (b.sent ++ s.put) ++ s.queue.pending = b.handed := by
    rw [List.append_assoc, conserved, valid.conserved]
  have idle : ∀ c, some (if s.queue.toWrite = 0 then
      ({ b with writeQueue := s.queue, io := b.io.set Events.none, sent := b.sent ++ s.put } : LogBuffer)
      else { b with writeQueue := s.queue, sent := b.sent ++ s.put }) = some c →
      c.Valid ∧ c.handed = b.handed := by
    intro c here
    split at here
    · obtain rfl := Option.some.inj here
      exact ⟨⟨queue, written⟩, rfl⟩
    · obtain rfl := Option.some.inj here
      exact ⟨⟨queue, written⟩, rfl⟩
  simp only at alive
  split at alive
  · exact idle b' alive
  · exact idle b' alive
  · cases alive
  · exact idle b' alive

/-- The logger's bytes are the ledger's records. -/
structure Accounts (s : Logger) (l : Ledger) : Prop where
  past : s.past.map LogBuffer.handed = l.past.map List.flatten
  current : s.buffer.map LogBuffer.handed = l.current.map List.flatten
  kept : s.stored = l.kept.flatten
  inside : s.cursor ≤ s.store.length
  valid : ∀ b, s.buffer = some b → b.Valid

theorem new_accounts : Accounts Logger.new ⟨[], none, []⟩ :=
  ⟨rfl, rfl, rfl, Nat.zero_le _, by simp [Logger.new]⟩

namespace Accounts

variable {s : Logger} {l : Ledger}

/-- `append_buf` of whole records. -/
theorem hand (accounts : Accounts s l) {buf : List UInt8} {len : Nat} {rs : List (List UInt8)}
    (whole : buf.take len = rs.flatten) (some_ : 0 < len) (inside : len ≤ buf.length) :
    Accounts (s.appendBuf buf len) (l.hand rs) := by
  refine ⟨accounts.past, ?_, accounts.kept, accounts.inside, ?_⟩
  · have same := accounts.current
    cases here : s.buffer with
    | none =>
        rw [here, Option.map_none] at same
        have none_ : l.current = none := Option.map_eq_none_iff.1 same.symm
        simp [Logger.appendBuf, Ledger.hand, here, none_]
    | some b =>
        rw [here, Option.map_some] at same
        obtain ⟨c, there, flat⟩ := Option.map_eq_some_iff.1 same.symm
        simp [Logger.appendBuf, Ledger.hand, here, there, LogBuffer.append, flat, whole]
  · intro b here
    obtain ⟨a, there, rfl⟩ := Option.map_eq_some_iff.1 here
    exact (accounts.valid a there).append some_ inside

/-- The store is handed over, if there is anything in it, and a new one taken. -/
theorem flush (accounts : Accounts s l) (store : List UInt8) :
    Accounts { (if s.cursor > 0 then s.appendBuf s.store s.cursor else s) with
      cursor := 0, store := store } l.flush := by
  by_cases some_ : s.cursor > 0
  · rw [if_pos some_]
    have handed := accounts.hand accounts.kept some_ accounts.inside
    exact ⟨handed.past, handed.current, rfl, Nat.zero_le _, handed.valid⟩
  · have empty : l.kept.flatten = [] := by
      rw [← accounts.kept, Logger.stored, Nat.eq_zero_of_not_pos some_]
      rfl
    rw [if_neg some_]
    refine ⟨accounts.past, ?_, rfl, Nat.zero_le _, accounts.valid⟩
    rw [accounts.current]
    simp [Ledger.flush, Ledger.hand, empty, Function.comp_def]

/-- Copying a record that fits behind the cursor. -/
theorem put (accounts : Accounts s l) {bytes : List UInt8}
    (room : s.cursor + bytes.length ≤ s.store.length) : Accounts (s.put bytes) (l.keep bytes) := by
  refine ⟨accounts.past, accounts.current, ?_, ?_, accounts.valid⟩
  · have copied : (WrappedBuffer.blit s.store s.cursor bytes).take (s.cursor + bytes.length) =
        s.store.take s.cursor ++ bytes := WrappedBuffer.take_blit accounts.inside
    have stored := accounts.kept
    rw [Logger.stored] at stored
    simp [Logger.stored, Logger.put, Ledger.keep, copied, stored]
  · show s.cursor + bytes.length ≤ (WrappedBuffer.blit s.store s.cursor bytes).length
    rw [WrappedBuffer.length_blit room]
    exact room

/-- Both buffered versions: the record goes into the store, in front of which the
store may have been handed over. -/
theorem buffered (accounts : Accounts s l) {len : Nat} {bytes : List UInt8}
    (length : bytes.length = len + 4) :
    ∃ l', Accounts ((s.reserve len).put bytes) l' ∧ Ledger.Moves l l' [bytes] := by
  unfold Logger.reserve
  split
  · refine ⟨l.flush.keep bytes, (accounts.flush _).put ?_, l.flush_keep_moves bytes⟩
    have big := le_allocatedFor (max storeSize (len + 4))
    show 0 + bytes.length ≤ (WrappedBuffer.ofSize (max storeSize (len + 4))).length
    rw [WrappedBuffer.length_ofSize]
    omega
  · have inside := accounts.inside
    exact ⟨l.keep bytes, accounts.put (by omega), l.keep_moves bytes⟩

end Accounts

/-! ## Text records -/

namespace Logger

theorem extend_spec {wbuf : List UInt8 × Nat} (inside : wbuf.2 ≤ wbuf.1.length)
    (str : List UInt8) :
    (extend wbuf str).1.take (extend wbuf str).2 = wbuf.1.take wbuf.2 ++ str ∧
      (extend wbuf str).2 = wbuf.2 + str.length ∧
      (extend wbuf str).2 ≤ (extend wbuf str).1.length := by
  have room : ∃ buf, buf.take wbuf.2 = wbuf.1.take wbuf.2 ∧ wbuf.2 + str.length ≤ buf.length ∧
      extend wbuf str = (WrappedBuffer.blit buf wbuf.2 str, wbuf.2 + str.length) := by
    by_cases small : wbuf.1.length < wbuf.2 + str.length
    · refine ⟨WrappedBuffer.realloc (wbuf.2 + str.length) wbuf.1,
        WrappedBuffer.take_realloc (Nat.le_add_right ..) inside, ?_, by simp [extend, small]⟩
      rw [WrappedBuffer.length_realloc]
      exact le_allocatedFor _
    · exact ⟨wbuf.1, rfl, by omega, by simp [extend, small]⟩
  obtain ⟨buf, same, fits, result⟩ := room
  rw [result]
  refine ⟨?_, rfl, ?_⟩
  · rw [WrappedBuffer.take_blit (by omega), same]
  · rw [WrappedBuffer.length_blit fits]
    exact fits

/-- `g_log_inner` writes the arguments behind what is there. -/
theorem gLogInner_spec (args : List (List UInt8)) {wbuf : List UInt8 × Nat}
    (inside : wbuf.2 ≤ wbuf.1.length) (val : List UInt8) :
    (gLogInner wbuf val args).1.take (gLogInner wbuf val args).2 =
        wbuf.1.take wbuf.2 ++ textArgs val args ∧
      (gLogInner wbuf val args).2 = wbuf.2 + (textArgs val args).length ∧
      (gLogInner wbuf val args).2 ≤ (gLogInner wbuf val args).1.length := by
  induction args generalizing wbuf val with
  | nil => exact extend_spec inside (val ++ [0])
  | cons next args ih =>
      obtain ⟨bytes, count, fits⟩ := extend_spec inside (val ++ ascii [' '])
      obtain ⟨more, total, roomy⟩ := ih fits next
      have same : gLogInner wbuf val (next :: args) =
          gLogInner (extend wbuf (val ++ ascii [' '])) next args := rfl
      rw [same]
      refine ⟨?_, ?_, roomy⟩
      · rw [more, bytes, List.append_assoc]
        rfl
      · rw [total, count, textArgs, Nat.add_assoc, ← List.length_append]

theorem textStart_spec (time : UInt64) (kind : LogType) :
    (textStart time kind).length = 128 ∧
      (textStart time kind).take 13 = List.replicate 4 0 ++ [kind.byte] ++ be 8 time.toNat := by
  have zeros : (WrappedBuffer.ofSize 128).length = 128 ∧
      (WrappedBuffer.ofSize 128).take 4 = List.replicate 4 0 := by decide +kernel
  unfold textStart
  generalize WrappedBuffer.ofSize 128 = buf at zeros
  obtain ⟨length, front⟩ := zeros
  have typed : (WrappedBuffer.blit buf 4 [kind.byte]).take 5 = List.replicate 4 0 ++ [kind.byte] := by
    have copied : (WrappedBuffer.blit buf 4 [kind.byte]).take (4 + [kind.byte].length) = _ :=
      WrappedBuffer.take_blit (Nat.le_of_lt (by rw [length]; decide))
    rw [front] at copied
    exact copied
  have typedLength : (WrappedBuffer.blit buf 4 [kind.byte]).length = 128 := by
    rw [WrappedBuffer.length_blit (by simp [length]), length]
  constructor
  · rw [WrappedBuffer.length_blit (by simp [typedLength]), typedLength]
  · have stamped : (WrappedBuffer.blit (WrappedBuffer.blit buf 4 [kind.byte]) 5
        (be 8 time.toNat)).take (5 + (be 8 time.toNat).length) = _ :=
      WrappedBuffer.take_blit (Nat.le_of_lt (by rw [typedLength]; decide))
    rw [typed, length_be] at stamped
    exact stamped

/-- The finished buffer of a text record. -/
theorem textBuffer_spec (time : UInt64) (kind : LogType) (val : List UInt8)
    (args : List (List UInt8)) {inner : List UInt8 × Nat}
    (here : inner = gLogInner (textStart time kind, 8 + 1 + 4) val args) :
    (WrappedBuffer.blit inner.1 0 (be 4 (inner.2 - 4))).take inner.2 =
        (LogCall.text kind val args).record time ∧
      inner.2 ≤ (WrappedBuffer.blit inner.1 0 (be 4 (inner.2 - 4))).length ∧ 0 < inner.2 := by
  obtain ⟨startLength, start⟩ := textStart_spec time kind
  obtain ⟨bytes, count, fits⟩ := gLogInner_spec args
    (show (textStart time kind, 8 + 1 + 4).2 ≤ _ by simp only [startLength]; omega) val
  rw [← here] at bytes count fits
  replace bytes : inner.1.take inner.2 = List.replicate 4 0 ++
      ([kind.byte] ++ be 8 time.toNat ++ textArgs val args) := by
    rw [bytes]
    show (textStart time kind).take 13 ++ _ = _
    rw [start]
    simp only [List.append_assoc]
  have four : 4 ≤ inner.2 := by simp only [count]; omega
  have length : (be 4 (inner.2 - 4)).length = 4 := length_be ..
  have announced : inner.2 - 4 = (textContent time kind val args).length := by
    simp only [count, textContent, List.length_append, List.length_cons, List.length_nil, length_be]
    omega
  refine ⟨?_, ?_, by omega⟩
  · -- behind the length the buffer is as `g_log_inner` left it
    have behind : (inner.1.drop 4).take (inner.2 - 4) = textContent time kind val args := by
      rw [← List.drop_take, bytes]
      rfl
    rw [WrappedBuffer.blit, List.take_zero, List.nil_append, List.take_append, length,
      List.take_of_length_le (by omega), Nat.zero_add, behind, announced]
    rfl
  · rw [WrappedBuffer.length_blit (by rw [length]; omega)]
    exact fits

end Logger

/-- The text version: the store is handed over and the record behind it; without
a connection nothing happens. -/
theorem Accounts.text {s : Logger} {l : Ledger} (accounts : Accounts s l) (time : UInt64)
    (kind : LogType) (val : List UInt8) (args : List (List UInt8)) :
    ∃ l', Accounts (s.gLogText time kind val args) l' ∧
      Ledger.Moves l l' [(LogCall.text kind val args).record time] := by
  obtain ⟨record, fits, some_⟩ := Logger.textBuffer_spec time kind val args rfl
  unfold Logger.gLogText
  cases connected : s.buffer with
  | none =>
      have missing := accounts.current
      rw [connected, Option.map_none] at missing
      exact ⟨l, by simpa using accounts,
        Ledger.drop_moves (Option.map_eq_none_iff.1 missing.symm) _⟩
  | some b =>
      have same := accounts.current
      rw [connected, Option.map_some] at same
      obtain ⟨c, there, flat⟩ := Option.map_eq_some_iff.1 same.symm
      refine ⟨l.flush.hand [(LogCall.text kind val args).record time], ?_,
        Ledger.flush_hand_moves there _⟩
      simp only [Option.isSome_some, if_true]
      refine Accounts.hand ?_ (by simpa using record) some_ fits
      by_cases waiting : s.cursor > 0
      · have flushed := accounts.flush (WrappedBuffer.ofSize 4096)
        simpa only [waiting, if_true] using flushed
      · have flushed := accounts.flush s.store
        have same : ({ s with cursor := 0 } : Logger) = s := by
          rw [← Nat.eq_zero_of_not_pos waiting]
        simpa only [waiting, if_false, same] using flushed

/-! ## Runs -/

theorem Accounts.log {s : Logger} {l : Ledger} (accounts : Accounts s l) (time : UInt64)
    (call : LogCall) :
    ∃ l', Accounts (s.gLog time call) l' ∧ Ledger.Moves l l' [call.record time] := by
  cases call with
  | bitcoin updateType handleId remote localAddr text =>
      have length := bitcoinContent_length time updateType handleId remote localAddr text
      have record : (LogCall.bitcoin updateType handleId remote localAddr text).record time =
          be 4 (bitcoinLen text.length) ++
            bitcoinContent time updateType handleId remote localAddr text := by
        simp only [LogCall.record, LogCall.content, length]
      rw [record]
      exact accounts.buffered (by simp [length]; omega)
  | bitcoinMsg id isSender msg =>
      have length := bitcoinMsgContent_length time id isSender msg
      have record : (LogCall.bitcoinMsg id isSender msg).record time =
          be 4 (bitcoinMsgLen msg.length) ++ bitcoinMsgContent time id isSender msg := by
        simp only [LogCall.record, LogCall.content, length]
      rw [record]
      exact accounts.buffered (by simp [length]; omega)
  | text kind val args => exact accounts.text time kind val args

/-- A callback that loses the connection loses what it was given. -/
theorem Accounts.ioCb {s : Logger} {l : Ledger} (accounts : Accounts s l)
    (outbox : List WriteResult) :
    ∃ l', Accounts (s.step (.ioCb outbox)) l' ∧ Ledger.Moves l l' [] := by
  simp only [Logger.step]
  cases connected : s.buffer with
  | none => exact ⟨l, accounts, Ledger.Moves.refl l⟩
  | some b =>
      have same := accounts.current
      rw [connected, Option.map_some] at same
      obtain ⟨c, there, flat⟩ := Option.map_eq_some_iff.1 same.symm
      cases after : b.ioCb outbox with
      | some b' =>
          simp only [after]
          obtain ⟨valid, handed⟩ := LogBuffer.ioCb_valid (accounts.valid b connected) after
          refine ⟨l, ⟨accounts.past, ?_, accounts.kept, accounts.inside, ?_⟩,
            Ledger.Moves.refl l⟩
          · rw [there, Option.map_some, Option.map_some, handed, flat]
          · intro d here
            cases here
            exact valid
      | none =>
          simp only [after]
          refine ⟨⟨l.past ++ [c], none, l.kept⟩,
            ⟨by simp [accounts.past, flat], rfl, accounts.kept, accounts.inside, by simp⟩, ?_, ?_⟩
          · simp [Ledger.all, there]
          · intro d d' _ impossible
            cases impossible

/-- A new connection starts with nothing. -/
theorem Accounts.watch {s : Logger} {l : Ledger} (accounts : Accounts s l) (fd : Option Nat) :
    ∃ l', Accounts (s.step (.watch fd)) l' ∧ Ledger.Moves l l' [] := by
  simp only [Logger.step]
  cases connected : s.buffer with
  | some b => exact ⟨l, accounts, Ledger.Moves.refl l⟩
  | none =>
      have missing := accounts.current
      rw [connected, Option.map_none] at missing
      have none_ : l.current = none := Option.map_eq_none_iff.1 missing.symm
      refine ⟨{ l with current := fd.map fun _ => [] },
        ⟨accounts.past, ?_, accounts.kept, accounts.inside, ?_⟩, ?_, ?_⟩
      · cases fd with
        | none => rfl
        | some fd => rfl
      · intro b here
        obtain ⟨fd, -, rfl⟩ := Option.map_eq_some_iff.1 here
        exact LogBuffer.new_valid fd
      · cases fd with
        | none => simp [Ledger.all, none_]
        | some fd => simp [Ledger.all, none_]
      · intro c c' here
        rw [none_] at here
        cases here

/-- Every event moves records in the ledger. -/
theorem step_accounts {s : Logger} {l : Ledger} (accounts : Accounts s l) (e : LogEvent) :
    ∃ l', Accounts (s.step e) l' ∧ Ledger.Moves l l' (emitted [e]) := by
  cases e with
  | log time call short => exact accounts.log time call
  | ioCb outbox => exact accounts.ioCb outbox
  | watch fd => exact accounts.watch fd

theorem emitted_append (a b : List LogEvent) : emitted (a ++ b) = emitted a ++ emitted b :=
  List.filterMap_append

/-- A run, from any state whose ledger is `l`: nothing is reordered or repeated, and
while the connection stays nothing is lost. -/
theorem run_accounts {s : Logger} {l : Ledger} (accounts : Accounts s l) (events : List LogEvent) :
    ∃ l', Accounts (run Logger.step s events) l' ∧ l'.all.Sublist (l.all ++ emitted events) ∧
      (Along Logger.step (fun s e => (s.step e).buffer.isSome = true) s events →
        ∀ c, l.current = some c → ∃ c', l'.current = some c' ∧
          c' ++ l'.kept = c ++ l.kept ++ emitted events) := by
  induction events generalizing s l with
  | nil => exact ⟨l, accounts, by simp [emitted], fun _ c here => ⟨c, here, by simp [emitted]⟩⟩
  | cons e rest ih =>
      obtain ⟨mid, next, moves⟩ := step_accounts accounts e
      obtain ⟨l', last, sublist, lossless⟩ := ih next
      have split : emitted (e :: rest) = emitted [e] ++ emitted rest := emitted_append [e] rest
      refine ⟨l', last, ?_, ?_⟩
      · rw [split, ← List.append_assoc]
        exact sublist.trans (moves.sublist.append_right _)
      · intro stays c here
        obtain ⟨connected, later⟩ := stays
        obtain ⟨b, there⟩ := Option.isSome_iff_exists.1 connected
        have same := next.current
        rw [there, Option.map_some] at same
        obtain ⟨d, middle, -⟩ := Option.map_eq_some_iff.1 same.symm
        obtain ⟨c', final, whole⟩ := lossless later d middle
        refine ⟨c', final, ?_⟩
        rw [whole, moves.lossless c d here middle, split, List.append_assoc _ _ (emitted rest)]

theorem complete_of_emitted {events : List LogEvent} {r : List UInt8} (member : r ∈ emitted events) :
    records.Complete r := by
  obtain ⟨e, -, here⟩ := List.mem_filterMap.1 member
  cases e with
  | log time call short =>
      cases here
      exact LogCall.record_complete time short
  | ioCb outbox => cases here
  | watch fd => cases here

/-- At the end of any run every log connection, lost or present, was handed a
sequence of whole records, these sequences one after the other and then the
records in the store are a subsequence of what was emitted, and the cursor is
inside the store.  Over a last stretch of the run in which the connection stays,
what it was handed followed by the store has grown by exactly the records emitted
in the stretch. -/
theorem emission_in_order (before stretch : List LogEvent) :
    (∃ (given : List (List (List UInt8))) (kept : List (List UInt8)),
      ((run Logger.step Logger.new (before ++ stretch)).past ++
        (run Logger.step Logger.new (before ++ stretch)).buffer.toList).map LogBuffer.handed =
          given.map List.flatten ∧
      (run Logger.step Logger.new (before ++ stretch)).stored = kept.flatten ∧
      (given.flatten ++ kept).Sublist (emitted (before ++ stretch)) ∧
      ∀ r ∈ given.flatten ++ kept, records.Complete r) ∧
    (run Logger.step Logger.new (before ++ stretch)).cursor ≤
      (run Logger.step Logger.new (before ++ stretch)).store.length ∧
    (Along Logger.step (fun s e => (s.step e).buffer.isSome = true)
        (run Logger.step Logger.new before) stretch →
      ∀ b, (run Logger.step Logger.new before).buffer = some b →
        ∃ b', (run Logger.step Logger.new (before ++ stretch)).buffer = some b' ∧
          b'.handed ++ (run Logger.step Logger.new (before ++ stretch)).stored =
            b.handed ++ (run Logger.step Logger.new before).stored ++
              (emitted stretch).flatten) := by
  rw [run_append]
  obtain ⟨l, accounts, sublist, -⟩ := run_accounts new_accounts before
  generalize run Logger.step Logger.new before = s at accounts ⊢
  obtain ⟨l', after, later, lossless⟩ := run_accounts accounts stretch
  generalize run Logger.step s stretch = t at after ⊢
  have ordered : l'.all.Sublist (emitted (before ++ stretch)) := by
    rw [emitted_append]
    exact later.trans (sublist.append_right _)
  refine ⟨⟨l'.past ++ l'.current.toList, l'.kept, ?_, after.kept, ordered, ?_⟩, after.inside, ?_⟩
  · have current := congrArg Option.toList after.current
    rw [Option.toList_map, Option.toList_map] at current
    rw [List.map_append, List.map_append, after.past, current]
  · intro r member
    exact complete_of_emitted (ordered.mem member)
  · intro stays b here
    have same := accounts.current
    rw [here, Option.map_some] at same
    obtain ⟨c, there, flat⟩ := Option.map_eq_some_iff.1 same.symm
    obtain ⟨c', final, whole⟩ := lossless stays c there
    have last := after.current
    rw [final, Option.map_some] at last
    obtain ⟨b', ended, handed⟩ := Option.map_eq_some_iff.1 last
    refine ⟨b', ended, ?_⟩
    calc b'.handed ++ t.stored
        = (c' ++ l'.kept).flatten := by rw [handed, after.kept, List.flatten_append]
      _ = (c ++ l.kept ++ emitted stretch).flatten := by rw [whole]
      _ = b.handed ++ s.stored ++ (emitted stretch).flatten := by
          rw [List.flatten_append, List.flatten_append, flat, accounts.kept]

/-- Port 8333 of 10.0.0.1. -/
def someEndpoint : SockaddrStorage where
  bytes := le 2 2 ++ be 2 8333 ++ [10, 0, 0, 1] ++ List.replicate 120 0
  size := by decide +kernel

/-- A message of 24 + 4000 bytes. -/
def someLongMessage : PackedMessage where
  buffer := List.replicate 16 65 ++ le 4 4000 ++ List.replicate (4 + 4000) 0
  whole := by decide +kernel

/-- Two records for the store, a message it has no room for, a write that stops half way, a
text, and a record behind it. -/
def someCalls : List LogEvent :=
  [.log 1 (.bitcoin CONNECT_SUCCESS 7 someEndpoint someEndpoint (ascii ['o', 'k']))
     (by decide +kernel),
   .log 2 (.bitcoin ORDERLY_DISCONNECT 7 someEndpoint someEndpoint []) (by decide +kernel),
   .log 3 (.bitcoinMsg 7 false someLongMessage) (by decide +kernel),
   .ioCb [.accept 300, .err .eintr],
   .log 4 (.text .CTRL (ascii ['b']) [ascii ['c']]) (by decide +kernel),
   .log 5 (.bitcoin PEER_RESET 8 someEndpoint someEndpoint []) (by decide +kernel)]

/-- The first two are handed over together when the message comes, the message when the text
comes, and the last one is in the store. -/
theorem emission_in_order_coalesced :
    (run Logger.step Logger.new ([.watch (some 3)] ++ someCalls.take 2)).stored.length =
        283 + 281 ∧
      (run Logger.step Logger.new ([.watch (some 3)] ++ someCalls)).stored.length = 281 ∧
      ∃ b', (run Logger.step Logger.new ([.watch (some 3)] ++ someCalls)).buffer = some b' ∧
        b'.handed ++ (run Logger.step Logger.new ([.watch (some 3)] ++ someCalls)).stored =
          (emitted someCalls).flatten := by
  refine ⟨by decide +kernel, by decide +kernel, ?_⟩
  obtain ⟨-, -, lossless⟩ := emission_in_order [.watch (some 3)] someCalls
  exact lossless (by simp only [Along, someCalls]; decide +kernel) (LogBuffer.new 3) rfl

end Coinscope.Shared

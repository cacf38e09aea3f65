/-
# Shared.Socket -- the system calls and watchers the handlers use

The handlers see the network through non-blocking `recv` and `write` and through
libev watchers.  What the kernel will answer is an input of the model:

* an inbox is the list of answers the next `recv` calls get, oldest first; an
  empty inbox answers `EAGAIN`.  A successful `recv` asked for 4096 bytes
  delivers a `Chunk`, between one and 4096 of them;
* an outbox is the list of answers the next `write` calls get; each accepts some
  prefix of what is offered, or fails.  An empty outbox answers `EAGAIN`, and
  any `write` to descriptor `-1` answers `EBADF`.

`EWOULDBLOCK` is `EAGAIN` on the platform the sources are built for.
-/
import Coinscope.Theory.Bytes

namespace Coinscope.Shared

set_option autoImplicit false

/-- The values of `errno` the handlers distinguish. -/
inductive Errno where
  | eagain
  | eintr
  | econnreset
  | ebadf
  | other (code : Nat)
  deriving DecidableEq, Repr

/-- The bytes one successful `recv(fd, buf, 4096, 0)` delivers. -/
structure Chunk where
  bytes : List UInt8
  nonempty : 0 < bytes.length
  fits : bytes.length ≤ 4096
  deriving DecidableEq

/-- One answer of `recv`. -/
inductive RecvResult where
  | data (chunk : Chunk)
  | eof
  | err (e : Errno)
  deriving DecidableEq

/-- One answer of `write`: accept up to `n` of the offered bytes, or fail. -/
inductive WriteResult where
  | accept (n : Nat)
  | err (e : Errno)
  deriving DecidableEq

/-- What a read or write call returns: a count, or `-1` with `errno` set. -/
inductive Ret where
  | count (n : Nat)
  | fail (e : Errno)
  deriving DecidableEq, Repr

namespace RecvResult

/-- The bytes an answer delivers. -/
def bytes : RecvResult → List UInt8
  | .data chunk => chunk.bytes
  | .eof => []
  | .err _ => []

/-- What `recv` returns for this answer. -/
def ret : RecvResult → Ret
  | .data chunk => .count chunk.bytes.length
  | .eof => .count 0
  | .err e => .fail e

theorem length_bytes_le (r : RecvResult) : r.bytes.length ≤ 4096 := by
  cases r with
  | data chunk => exact chunk.fits
  | eof => exact Nat.zero_le _
  | err e => exact Nat.zero_le _

end RecvResult

/-- The answer the next `recv` gets, and the inbox behind it. -/
def recv : List RecvResult → RecvResult × List RecvResult
  | [] => (.err .eagain, [])
  | r :: rest => (r, rest)

/-- The bytes an inbox still delivers, in order. -/
def stream (inbox : List RecvResult) : List UInt8 := inbox.flatMap RecvResult.bytes

@[simp] theorem stream_nil : stream [] = [] := rfl

@[simp] theorem stream_cons (r : RecvResult) (rest : List RecvResult) :
    stream (r :: rest) = r.bytes ++ stream rest := rfl

theorem stream_append (a b : List RecvResult) : stream (a ++ b) = stream a ++ stream b := by
  simp [stream]

/-- Answers that all deliver bytes. -/
def AllData (answers : List RecvResult) : Prop := ∀ r ∈ answers, ∃ chunk, r = .data chunk

theorem AllData.append {a b : List RecvResult} (first : AllData a) (second : AllData b) :
    AllData (a ++ b) := by
  intro r member
  rcases List.mem_append.1 member with early | late
  · exact first r early
  · exact second r late

/-- The answers up to the first that delivers no bytes. -/
def leading : List RecvResult → List RecvResult
  | .data chunk :: rest => .data chunk :: leading rest
  | _ => []

theorem AllData.leading_append {a : List RecvResult} (data : AllData a) (b : List RecvResult) :
    leading (a ++ b) = a ++ leading b := by
  induction a with
  | nil => rfl
  | cons r a ih =>
      obtain ⟨chunk, rfl⟩ := data r List.mem_cons_self
      rw [List.cons_append, leading, ih fun s member => data s (List.mem_cons_of_mem _ member)]
      rfl

/-- Whether the first answer that delivers no bytes ends a connection: the end of
the stream, or an error other than `EAGAIN` and `EINTR`. -/
def hangsUp : List RecvResult → Bool
  | .data _ :: rest => hangsUp rest
  | .eof :: _ => true
  | .err e :: _ => decide (e ≠ .eagain ∧ e ≠ .eintr)
  | [] => false

theorem AllData.hangsUp_append {a : List RecvResult} (data : AllData a) (b : List RecvResult) :
    hangsUp (a ++ b) = hangsUp b := by
  induction a with
  | nil => rfl
  | cons r a ih =>
      obtain ⟨chunk, rfl⟩ := data r List.mem_cons_self
      exact ih fun s member => data s (List.mem_cons_of_mem _ member)

/-- Answers that deliver some bytes one at a time. -/
def oneByOne (bytes : List UInt8) : List RecvResult :=
  bytes.map fun b => .data ⟨[b], by simp, by simp⟩

theorem allData_oneByOne (bytes : List UInt8) : AllData (oneByOne bytes) := by
  intro r member
  obtain ⟨b, -, rfl⟩ := List.mem_map.1 member
  exact ⟨_, rfl⟩

theorem stream_oneByOne (bytes : List UInt8) : stream (oneByOne bytes) = bytes := by
  induction bytes with
  | nil => rfl
  | cons b rest ih => exact congrArg (b :: ·) ih

theorem leading_oneByOne (bytes : List UInt8) : leading (oneByOne bytes) = oneByOne bytes := by
  have all := (allData_oneByOne bytes).leading_append []
  simpa [leading] using all

theorem hangsUp_oneByOne (bytes : List UInt8) : hangsUp (oneByOne bytes) = false := by
  have all := (allData_oneByOne bytes).hangsUp_append []
  simpa [hangsUp] using all

/-- An upper bound on the reads an inbox can serve: one for every answer and one
for every byte. -/
def weight (inbox : List RecvResult) : Nat :=
  (inbox.map fun r => 1 + r.bytes.length).sum

theorem recv_weight (inbox : List RecvResult) :
    (recv inbox).1.bytes.length + weight (recv inbox).2 ≤ weight inbox ∧
      ((recv inbox).1.bytes ≠ [] →
        (recv inbox).1.bytes.length + weight (recv inbox).2 < weight inbox) := by
  cases inbox with
  | nil => simp [recv, weight, RecvResult.bytes]
  | cons r rest => simp [recv, weight]

/-- `write(fd, offered, offered.length)`: the return value, the accepted bytes,
and the outbox behind the answer. -/
def write (fd : Int) (offered : List UInt8) (outbox : List WriteResult) :
    Ret × List UInt8 × List WriteResult :=
  if fd < 0 then (.fail .ebadf, [], outbox)
  else
    match outbox with
    | [] => (.fail .eagain, [], [])
    | .err e :: rest => (.fail e, [], rest)
    | .accept n :: rest => (.count (min n offered.length), offered.take n, rest)

/-- What `write` accepts is the counted prefix of what it was offered. -/
theorem write_spec (fd : Int) (offered : List UInt8) (outbox : List WriteResult) :
    (∃ n, n ≤ offered.length ∧ (write fd offered outbox).1 = .count n ∧
        (write fd offered outbox).2.1 = offered.take n) ∨
      (∃ e, (write fd offered outbox).1 = .fail e ∧ (write fd offered outbox).2.1 = []) := by
  unfold write
  split
  · exact Or.inr ⟨_, rfl, rfl⟩
  · split
    · exact Or.inr ⟨_, rfl, rfl⟩
    · exact Or.inr ⟨_, rfl, rfl⟩
    · rename_i n rest
      refine Or.inl ⟨min n offered.length, Nat.min_le_right .., rfl, ?_⟩
      by_cases short : n ≤ offered.length
      · rw [Nat.min_eq_left short]
      · rw [Nat.min_eq_right (by omega), List.take_of_length_le (by omega), List.take_length]

/-- The interest bits `ev::READ` and `ev::WRITE`; both clear is `ev::NONE`. -/
structure Events where
  read : Bool
  write : Bool
  deriving DecidableEq, Repr

namespace Events

def none : Events := ⟨false, false⟩
def READ : Events := ⟨true, false⟩
def WRITE : Events := ⟨false, true⟩

/-- `a | b`. -/
def union (a b : Events) : Events := ⟨a.read || b.read, a.write || b.write⟩

end Events

/-- An `ev::io` watcher: its descriptor, the events it is set to and whether it
is started. -/
structure Io where
  fd : Int
  events : Events
  active : Bool
  deriving DecidableEq, Repr

namespace Io

/-- `io.set(fd, events)` on a watcher, then `io.start()`. -/
def startOn (fd : Int) (events : Events) : Io := ⟨fd, events, true⟩

/-- `io.set(events)`: libev stops, sets and restarts a started watcher. -/
def set (io : Io) (events : Events) : Io := { io with events := events }

def start (io : Io) : Io := { io with active := true }
def stop (io : Io) : Io := { io with active := false }

end Io

end Coinscope.Shared

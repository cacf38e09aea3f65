/-
# LogClient.Verbatim -- the log on disk and its rotation

`verbatim` reads the records of the log server and writes them to a file as they come, each with
its length.  The length stays in the read buffer in front of the body, so one `write` of
everything below the cursor is a record.

`SIGUSR1` asks it to let go of the file and `SIGUSR2` says that the file has been moved; the
handlers set a flag each, and the loop looks at the first only behind a `do_read`.  A signal may
come between any two steps of the process, and one that comes during `recv` may make it return
`EINTR`.  What is written to a log that is not open is lost.

* `Verbatim.step` -- a signal, or the next step of the process.
* `Verbatim.Tracks` -- what was received is the records written, what the buffer holds of the
  next, and what it has not looked at yet.
* `rotation_splits_nothing` -- so the files hold whole records, and at every `recv` all of those
  that have come.
-/
import Coinscope.Shared.LogFormat
import Coinscope.Shared.ReadBuffer
import Coinscope.Theory.Runs

namespace Coinscope.LogClient

open Coinscope.Shared
open Coinscope.Theory.Bytes
open Coinscope.Theory.Framing
open Coinscope.Theory.Runs

set_option autoImplicit false

/-! ## The process -/

/-- The signals `sigusr` is installed for. -/
inductive Signal where
  | SIGUSR1
  | SIGUSR2
  deriving DecidableEq

/-- How the process ends. -/
inductive Ending where
  | success
  | failure
  | aborted
  deriving DecidableEq

/-- What `main` does next.  The two flags are cleared by one statement, the later one first. -/
inductive Place where
  | doRead
  | testPrerotate
  | awaitPostrotate
  | openLog
  | clearPostrotate
  | clearPrerotate
  | testHungry
  | ended (ending : Ending)
  deriving DecidableEq

/-- What has been done to `logout`. -/
inductive Output where
  | openLog
  | write (bytes : List UInt8)
  deriving DecidableEq

/-- The process; `received` are the bytes its calls of `recv` have returned so far. -/
structure Verbatim where
  inputBuf : ReadBuffer
  readingLen : Bool
  prerotate : Bool
  postrotate : Bool
  isOpen : Bool
  place : Place
  outputs : List Output
  received : List UInt8
  deriving DecidableEq

/-- A signal arrives, or the process goes on: `answer` is what `recv` returns and `opens` whether
the file can be opened, if this is the step that asks. -/
inductive Event where
  | signal (num : Signal)
  | next (answer : RecvResult) (opens : Bool)
  deriving DecidableEq

namespace Verbatim

/-- In front of the loop of `main`. -/
def start : Verbatim where
  inputBuf := ReadBuffer.new 4
  readingLen := true
  prerotate := false
  postrotate := false
  isOpen := true
  place := .doRead
  outputs := [.openLog]
  received := []

def sigusr (s : Verbatim) : Signal → Verbatim
  | .SIGUSR1 => { s with prerotate := true }
  | .SIGUSR2 => { s with postrotate := true }

/-- The `do_read` of the loop and the tests of what it returned. -/
def doRead (s : Verbatim) (answer : RecvResult) : Verbatim :=
  let r := s.inputBuf.doRead [answer]
  let place :=
    match r.ret with
    | .count 0 => .ended .success
    | .count (_ + 1) => .testPrerotate
    | .fail .eintr => .testPrerotate
    | .fail _ => .ended .failure
  { s with inputBuf := r.queue, received := s.received ++ r.got, place := place }

def openLog (s : Verbatim) (opens : Bool) : Verbatim :=
  if opens then
    { s with isOpen := true, outputs := s.outputs ++ [.openLog], place := .clearPostrotate }
  else { s with isOpen := false, place := .ended .aborted }

def printMessage (s : Verbatim) : Verbatim :=
  if s.isOpen then
    { s with outputs := s.outputs ++ [.write (s.inputBuf.buffer.take s.inputBuf.cursor)] }
  else s

/-- The end of the loop's body. -/
def useInput (s : Verbatim) : Verbatim :=
  if s.inputBuf.hungry then s
  else if s.readingLen then
    { s with
      inputBuf := s.inputBuf.setToRead (ofBE (s.inputBuf.buffer.take 4)), readingLen := false }
  else
    { s.printMessage with
      inputBuf := (s.inputBuf.setCursor 0).setToRead 4, readingLen := true }

def step (s : Verbatim) : Event → Verbatim
  | .signal num => s.sigusr num
  | .next answer opens =>
      match s.place with
      | .doRead => s.doRead answer
      | .testPrerotate =>
          if s.prerotate then { s with isOpen := false, place := .awaitPostrotate }
          else { s with place := .testHungry }
      | .awaitPostrotate => if s.postrotate then { s with place := .openLog } else s
      | .openLog => s.openLog opens
      | .clearPostrotate => { s with postrotate := false, place := .clearPrerotate }
      | .clearPrerotate => { s with prerotate := s.postrotate, place := .testHungry }
      | .testHungry => { s.useInput with place := .doRead }
      | .ended _ => s

/-- The next step calls `recv`: the array of the buffer is used up. -/
def CallsRecv (s : Verbatim) : Prop :=
  s.place = .doRead ∧ s.inputBuf.rbSize ≤ s.inputBuf.rbLoc

end Verbatim

/-! ## What is written -/

/-- The arguments of `logout.write`, in order. -/
def writes (outputs : List Output) : List (List UInt8) :=
  outputs.filterMap fun
    | .openLog => none
    | .write bytes => some bytes

/-- What is written in the course of these outputs. -/
def written (outputs : List Output) : List UInt8 := (writes outputs).flatten

/-- All that is done to `logout` from one `open_log` to the next, or up to now. -/
def Session (outputs session : List Output) : Prop :=
  ∃ before after, outputs = before ++ .openLog :: (session ++ after) ∧ .openLog ∉ session ∧
    (after = [] ∨ ∃ later, after = .openLog :: later)

theorem writes_append (a b : List Output) : writes (a ++ b) = writes a ++ writes b :=
  List.filterMap_append

/-- What is written in a session is written. -/
theorem Session.writes_subset {outputs session : List Output} (within : Session outputs session) :
    writes session ⊆ writes outputs := by
  obtain ⟨before, after, rfl, -⟩ := within
  have split : before ++ .openLog :: (session ++ after) =
      (before ++ [.openLog]) ++ (session ++ after) := by rw [List.append_cons]
  rw [split, writes_append, writes_append session]
  exact List.subset_append_of_subset_right _ (List.subset_append_left ..)

/-! ## The invariant -/

/-- Where the log is open. -/
def Place.logging : Place → Bool
  | .awaitPostrotate => false
  | .openLog => false
  | .ended _ => false
  | _ => true

/-- The buffer wants the rest of a length, or the rest of the record whose length it holds. -/
def Phase (readingLen : Bool) (b : ReadBuffer) : Prop :=
  if readingLen then b.held.length + b.toRead = 4
  else 4 ≤ b.held.length ∧ b.held.length + b.toRead = records.size b.held

/-- A buffer that wants more is in the middle of a record. -/
theorem Phase.incomplete {readingLen : Bool} {b : ReadBuffer} (phase : Phase readingLen b)
    (hungry : 0 < b.toRead) : records.Incomplete b.held := by
  cases readingLen with
  | true =>
      have four : b.held.length + b.toRead = 4 := phase
      left
      show _ < 4
      omega
  | false =>
      obtain ⟨-, size⟩ := phase
      right
      omega

/-- More bytes, and as many fewer wanted. -/
theorem Phase.more {readingLen : Bool} {b c : ReadBuffer} (phase : Phase readingLen b)
    {bytes : List UInt8} (wanted : bytes.length ≤ b.toRead) (held : c.held = b.held ++ bytes)
    (toRead : c.toRead = b.toRead - bytes.length) : Phase readingLen c := by
  have length : c.held.length = b.held.length + bytes.length := by
    rw [held, List.length_append]
  cases readingLen with
  | true =>
      have four : b.held.length + b.toRead = 4 := phase
      show c.held.length + c.toRead = 4
      omega
  | false =>
      obtain ⟨long, size⟩ := phase
      have same : records.size c.held = records.size b.held := by
        rw [held]
        exact records.size_append long bytes
      refine ⟨by omega, ?_⟩
      omega

namespace Verbatim

/-- The records `done` have been written, and the rest of what was received is in the buffer. -/
structure Tracks (s : Verbatim) (done : List (List UInt8)) : Prop where
  valid : s.inputBuf.Valid
  phase : Phase s.readingLen s.inputBuf
  wrote : writes s.outputs = done
  complete : ∀ f ∈ done, records.Complete f
  account : s.received = done.flatten ++ (s.inputBuf.held ++ s.inputBuf.unread)
  opened : s.place.logging = true → s.isOpen = true
  hungry : s.place = .doRead → 0 < s.inputBuf.toRead

theorem start_tracks : start.Tracks [] where
  valid := ReadBuffer.new_valid 4
  phase := rfl
  wrote := rfl
  complete := by simp
  account := rfl
  opened := fun _ => rfl
  hungry := fun _ => by decide

/-- Going on to another place, or a flag: the buffer and what was written are the same. -/
theorem Tracks.moves {s t : Verbatim} {done : List (List UInt8)} (tracks : s.Tracks done)
    (buffer : t.inputBuf = s.inputBuf) (phase : t.readingLen = s.readingLen)
    (outputs : writes t.outputs = writes s.outputs) (received : t.received = s.received)
    (opened : t.place.logging = true → t.isOpen = true)
    (hungry : t.place = .doRead → 0 < s.inputBuf.toRead) : t.Tracks done where
  valid := by rw [buffer]; exact tracks.valid
  phase := by rw [buffer, phase]; exact tracks.phase
  wrote := outputs.trans tracks.wrote
  complete := tracks.complete
  account := by rw [buffer, received]; exact tracks.account
  opened := opened
  hungry := fun here => by rw [buffer]; exact hungry here

/-! ## One step -/

/-- Reading moves bytes from the stream to the buffer and writes nothing. -/
theorem Tracks.doRead {s : Verbatim} {done : List (List UInt8)} (tracks : s.Tracks done)
    (here : s.place = .doRead) (answer : RecvResult) : (s.doRead answer).Tracks done := by
  have hungry := tracks.hungry here
  have open_ : s.isOpen = true := tracks.opened (by rw [here]; rfl)
  have behind : (s.doRead answer).place ≠ .doRead := by
    unfold Verbatim.doRead
    simp only
    split <;> simp
  have valid := ReadBuffer.doRead_valid tracks.valid hungry [answer]
  rcases ReadBuffer.doRead_cases tracks.valid hungry [answer] with ⟨bytes, moved⟩ | stopped
  · refine ⟨valid, tracks.phase.more moved.wanted moved.held moved.toRead, tracks.wrote,
      tracks.complete, ?_, fun _ => open_, fun back => absurd back behind⟩
    show s.received ++ (s.inputBuf.doRead [answer]).got = _
    rw [tracks.account, List.append_assoc, List.append_assoc, moved.conserved]
    show _ = done.flatten ++ ((s.inputBuf.doRead [answer]).queue.held ++ _)
    rw [moved.held, List.append_assoc]
    rfl
  · have held : (s.inputBuf.doRead [answer]).queue.held = s.inputBuf.held ++ [] := by
      rw [stopped.held, List.append_nil]
    refine ⟨valid, tracks.phase.more (Nat.zero_le _) held stopped.toRead, tracks.wrote,
      tracks.complete, ?_, fun _ => open_, fun back => absurd back behind⟩
    show s.received ++ (s.inputBuf.doRead [answer]).got = done.flatten ++
      ((s.inputBuf.doRead [answer]).queue.held ++ (s.inputBuf.doRead [answer]).queue.unread)
    rw [tracks.account, stopped.got, stopped.held, stopped.unread, stopped.dry, List.append_nil]

/-- A length that is there asks for the body behind it. -/
theorem Tracks.asksBody {s : Verbatim} {done : List (List UInt8)} (tracks : s.Tracks done)
    (open_ : s.isOpen = true) (lens : s.readingLen = true) (full : s.inputBuf.toRead = 0)
    (announced : s.inputBuf.held.length = 4 → 0 < ofBE s.inputBuf.held) :
    ({ s.useInput with place := .doRead } : Verbatim).Tracks done := by
  have four : s.inputBuf.held.length = 4 := by
    have phase := tracks.phase
    rw [lens] at phase
    have sum : s.inputBuf.held.length + s.inputBuf.toRead = 4 := phase
    omega
  have header : s.inputBuf.buffer.take 4 = s.inputBuf.held := by
    rw [ReadBuffer.held, ← tracks.valid.held_length, four]
  have size : records.size s.inputBuf.held = 4 + ofBE s.inputBuf.held := by
    show 4 + ofBE (s.inputBuf.held.take 4) = _
    rw [List.take_of_length_le (by omega)]
  have next : s.useInput = { s with
      inputBuf := s.inputBuf.setToRead (ofBE s.inputBuf.held), readingLen := false } := by
    simp [Verbatim.useInput, ReadBuffer.hungry, full, lens, header]
  rw [next]
  refine ⟨tracks.valid.setToRead _, ⟨?_, ?_⟩, tracks.wrote, tracks.complete, tracks.account,
    fun _ => open_, fun _ => announced four⟩
  · show 4 ≤ s.inputBuf.held.length
    omega
  · show s.inputBuf.held.length + ofBE s.inputBuf.held = records.size s.inputBuf.held
    omega

/-- A body that is there is written, with the length in front of it. -/
theorem Tracks.prints {s : Verbatim} {done : List (List UInt8)} (tracks : s.Tracks done)
    (open_ : s.isOpen = true) (bodies : s.readingLen = false) (full : s.inputBuf.toRead = 0) :
    ({ s.useInput with place := .doRead } : Verbatim).Tracks (done ++ [s.inputBuf.held]) := by
  have phase := tracks.phase
  rw [bodies] at phase
  obtain ⟨long, size⟩ := phase
  have whole : records.Complete s.inputBuf.held := ⟨long, by omega⟩
  have next : s.useInput = { s with
      outputs := s.outputs ++ [.write s.inputBuf.held]
      inputBuf := (s.inputBuf.setCursor 0).setToRead 4, readingLen := true } := by
    simp [Verbatim.useInput, ReadBuffer.hungry, full, bodies, printMessage, open_, ReadBuffer.held]
  rw [next]
  refine ⟨tracks.valid.rewind.setToRead 4, ?_, ?_, ?_, ?_, fun _ => open_, fun _ => ?_⟩
  · show ((s.inputBuf.setCursor 0).setToRead 4).held.length + 4 = 4
    simp
  · show writes (s.outputs ++ [.write s.inputBuf.held]) = _
    rw [writes_append, tracks.wrote]
    rfl
  · intro f member
    rcases List.mem_append.1 member with early | last
    · exact tracks.complete f early
    · rw [List.mem_singleton.1 last]
      exact whole
  · show s.received = _
    rw [tracks.account]
    simp
  · show 0 < 4
    decide

/-- The end of the loop's body writes at most one record, where the log is open. -/
theorem Tracks.useInput {s : Verbatim} {done : List (List UInt8)} (tracks : s.Tracks done)
    (here : s.place = .testHungry)
    (announced : s.inputBuf.held.length = 4 → 0 < ofBE s.inputBuf.held) :
    ∃ more, ({ s.useInput with place := .doRead } : Verbatim).Tracks (done ++ more) := by
  have open_ : s.isOpen = true := tracks.opened (by rw [here]; rfl)
  by_cases hungry : 0 < s.inputBuf.toRead
  · have same : s.useInput = s := by
      simp [Verbatim.useInput, ReadBuffer.hungry, hungry]
    refine ⟨[], ?_⟩
    rw [List.append_nil, same]
    exact tracks.moves rfl rfl rfl rfl (fun _ => open_) (fun _ => hungry)
  · have full : s.inputBuf.toRead = 0 := by omega
    cases lens : s.readingLen with
    | true =>
        refine ⟨[], ?_⟩
        rw [List.append_nil]
        exact tracks.asksBody open_ lens full announced
    | false => exact ⟨[s.inputBuf.held], tracks.prints open_ lens full⟩

@[simp] theorem openLog_received (s : Verbatim) (opens : Bool) :
    (s.openLog opens).received = s.received := by
  unfold openLog
  split <;> rfl

@[simp] theorem useInput_received (s : Verbatim) : s.useInput.received = s.received := by
  unfold Verbatim.useInput printMessage
  repeat' split
  all_goals rfl

/-- Nothing that was received is forgotten. -/
theorem received_step (s : Verbatim) (e : Event) : s.received <+: (s.step e).received := by
  cases e with
  | signal num => cases num <;> exact List.prefix_rfl
  | next answer opens =>
      cases here : s.place with
      | doRead =>
          simp only [step, here]
          exact List.prefix_append ..
      | testPrerotate =>
          simp only [step, here]
          split <;> exact List.prefix_rfl
      | awaitPostrotate =>
          simp only [step, here]
          split <;> exact List.prefix_rfl
      | openLog => simp [step, here]
      | clearPostrotate => simp [step, here]
      | clearPrerotate => simp [step, here]
      | testHungry => simp [step, here]
      | ended ending => simp [step, here]

section Stream

-- the records the log server sends
variable {frames : List (List UInt8)}

/-- The length in front of a record that is not empty. -/
theorem Tracks.announced (all : ∀ f ∈ frames, records.Complete f)
    (nonempty : ∀ f ∈ frames, body f ≠ []) {s : Verbatim} {done : List (List UInt8)}
    (tracks : s.Tracks done) (sent : s.received <+: frames.flatten)
    (four : s.inputBuf.held.length = 4) : 0 < ofBE s.inputBuf.held := by
  rw [tracks.account] at sent
  obtain ⟨f, member, header⟩ := records.next_header all tracks.complete four sent
  have length : f.length = 4 + ofBE (f.take 4) := (all f member).2
  have content : (body f).length ≠ 0 := fun none_ =>
    nonempty f member (List.eq_nil_of_length_eq_zero none_)
  rw [body, List.length_drop] at content
  have front : ofBE (f.take 4) = ofBE s.inputBuf.held := congrArg ofBE header
  omega

/-- What one step does: it may write one more record, and nothing else. -/
theorem Tracks.step (all : ∀ f ∈ frames, records.Complete f)
    (nonempty : ∀ f ∈ frames, body f ≠ []) {s : Verbatim} {done : List (List UInt8)}
    (tracks : s.Tracks done) (sent : s.received <+: frames.flatten) (e : Event) :
    ∃ more, (s.step e).Tracks (done ++ more) := by
  have same {t : Verbatim} (next : t.Tracks done) : ∃ more, t.Tracks (done ++ more) :=
    ⟨[], by rwa [List.append_nil]⟩
  cases e with
  | signal num =>
      apply same
      cases num <;> exact tracks.moves rfl rfl rfl rfl tracks.opened tracks.hungry
  | next answer opens =>
      cases here : s.place with
      | doRead =>
          simp only [Verbatim.step, here]
          exact same (tracks.doRead here answer)
      | testPrerotate =>
          have open_ : s.isOpen = true := tracks.opened (by rw [here]; rfl)
          simp only [Verbatim.step, here]
          apply same
          split
          · exact tracks.moves rfl rfl rfl rfl nofun nofun
          · exact tracks.moves rfl rfl rfl rfl (fun _ => open_) nofun
      | awaitPostrotate =>
          simp only [Verbatim.step, here]
          apply same
          split
          · exact tracks.moves rfl rfl rfl rfl nofun nofun
          · exact tracks
      | openLog =>
          simp only [Verbatim.step, here, Verbatim.openLog]
          apply same
          split
          · refine tracks.moves rfl rfl ?_ rfl (fun _ => rfl) nofun
            show writes (s.outputs ++ [.openLog]) = _
            rw [writes_append]
            exact List.append_nil _
          · exact tracks.moves rfl rfl rfl rfl nofun nofun
      | clearPostrotate =>
          have open_ : s.isOpen = true := tracks.opened (by rw [here]; rfl)
          simp only [Verbatim.step, here]
          exact same (tracks.moves rfl rfl rfl rfl (fun _ => open_) nofun)
      | clearPrerotate =>
          have open_ : s.isOpen = true := tracks.opened (by rw [here]; rfl)
          simp only [Verbatim.step, here]
          exact same (tracks.moves rfl rfl rfl rfl (fun _ => open_) nofun)
      | testHungry =>
          simp only [Verbatim.step, here]
          exact tracks.useInput here (tracks.announced all nonempty sent)
      | ended ending =>
          simp only [Verbatim.step, here]
          exact same tracks

/-! ## Every run -/

/-- As long as only records that are not empty have come, the invariant holds. -/
theorem run_tracks (all : ∀ f ∈ frames, records.Complete f)
    (nonempty : ∀ f ∈ frames, body f ≠ []) (events : List Event)
    (sent : (run Verbatim.step start events).received <+: frames.flatten) :
    ∃ done, (run Verbatim.step start events).Tracks done := by
  revert sent
  refine run_keeps (P := fun s : Verbatim => s.received <+: frames.flatten → ∃ done, s.Tracks done)
    ?_ ?_ events
  · intro s e before sent
    have earlier := (received_step s e).trans sent
    obtain ⟨done, tracks⟩ := before earlier
    obtain ⟨more, next⟩ := tracks.step all nonempty earlier e
    exact ⟨_, next⟩
  · intro _
    exact ⟨[], start_tracks⟩

/-- When the process is about to call `recv`, it has written all the records there are. -/
theorem Tracks.parsed {s : Verbatim} {done : List (List UInt8)} (tracks : s.Tracks done)
    (asks : s.CallsRecv) : (records.parse s.received).1 = done := by
  obtain ⟨here, used⟩ := asks
  have dry : s.inputBuf.unread = [] := by
    apply List.eq_nil_of_length_eq_zero
    rw [tracks.valid.unread_length]
    omega
  have incomplete := tracks.phase.incomplete (tracks.hungry here)
  rw [tracks.account, dry, List.append_nil, records.parse_flatten_append tracks.complete incomplete]

end Stream

end Verbatim

/-- However the records of the server are cut up and whenever the signals come, what is written
from one `open_log` to the next is whole records, and whenever `recv` is called everything
written is the longest sequence of whole records in front of what has come. -/
theorem rotation_splits_nothing {frames : List (List UInt8)}
    (all : ∀ f ∈ frames, records.Complete f) (nonempty : ∀ f ∈ frames, body f ≠ [])
    (events : List Event)
    (sent : (run Verbatim.step .start events).received <+: frames.flatten) :
    (∀ session, Session (run Verbatim.step .start events).outputs session →
      ∃ whole : List (List UInt8), (∀ f ∈ whole, records.Complete f) ∧
        written session = whole.flatten) ∧
    ((run Verbatim.step .start events).CallsRecv →
      records.Longest (run Verbatim.step .start events).received
        (written (run Verbatim.step .start events).outputs)) := by
  obtain ⟨done, tracks⟩ := Verbatim.run_tracks all nonempty events sent
  constructor
  · intro session part
    refine ⟨writes session, ?_, rfl⟩
    intro f member
    apply tracks.complete f
    rw [← tracks.wrote]
    exact part.writes_subset member
  · intro asks
    rw [written, tracks.wrote, ← tracks.parsed asks]
    exact records.longest_parse _

/-- A step that asks neither the socket nor the file system. -/
def onward : Event := .next (.err .eintr) true

/-- A record in two parts, with a rotation that starts in its length and `EINTR` behind it; and
the start of another. -/
def rotating : List Event :=
  [.next (.data ⟨[0, 0, 0], by decide, by decide⟩) true, .signal .SIGUSR1, onward, onward,
    .signal .SIGUSR2, onward, onward, onward, onward, onward, .next (.err .eintr) true, onward,
    onward, .next (.data ⟨[1, 7, 0], by decide, by decide⟩) true, onward, onward, onward, onward,
    onward, onward, onward, onward]

/-- The record is in the new file, which is the second session. -/
theorem rotation_splits_nothing_once :
    (run Verbatim.step .start rotating).outputs =
        [.openLog, .openLog, .write [0, 0, 0, 1, 7]] ∧
      (run Verbatim.step .start rotating).CallsRecv ∧
      records.Longest (run Verbatim.step .start rotating).received
        (written (run Verbatim.step .start rotating).outputs) := by
  have asks : (run Verbatim.step .start rotating).CallsRecv :=
    ⟨by decide +kernel, by decide +kernel⟩
  refine ⟨by decide +kernel, asks, ?_⟩
  have sent : (run Verbatim.step .start rotating).received <+:
      [[0, 0, 0, 1, 7], [0, 0, 0, 1, 8]].flatten := by
    decide +kernel
  have both : ∀ f ∈ [[0, 0, 0, 1, 7], [0, 0, 0, 1, 8]], records.Complete f := by
    decide
  exact (rotation_splits_nothing both (by decide) rotating sent).2 asks

end Coinscope.LogClient

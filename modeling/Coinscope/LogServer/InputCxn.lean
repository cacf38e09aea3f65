/-
# LogServer.InputCxn -- log records off an input connection

An input connection reads a 4-byte big-endian length, then that many bytes, hands
them to `collector::append` with its own id, and starts over.  Both phases share
one `read_buffer` and the loop of `io_cb` runs only while that buffer is hungry.

A length of zero asks the buffer for nothing, so it is not hungry, the loop never
reaches the branch that would return to the header phase, and the connection
reads nothing ever again.

* `InputCxn.ioCbAux_cases` -- what one callback can do.
* `Connection.Tracks` -- the invariant of a run: what was taken from the kernel is
  the handed-over records, then the record in progress, then the unread bytes.
* `Connection.Tracks.settled` -- once nothing more is read, the records handed
  over are those in front of the first empty one.
* `ingested_iff` -- so nothing is withheld exactly if only empty records follow
  an empty one.
-/
import Coinscope.LogServer.Collector
import Coinscope.Shared.LogFormat
import Coinscope.Shared.ReadBuffer

namespace Coinscope.LogServer

open Coinscope.Shared
open Coinscope.Theory.Bytes
open Coinscope.Theory.Framing
open Coinscope.Theory.Runs

set_option autoImplicit false

/-! ## The handler -/

/-- `input_cxn::RECV_HEADER` and `input_cxn::RECV_LOG`. -/
inductive InputState where
  | RECV_HEADER
  | RECV_LOG
  deriving DecidableEq

/-- `class input_cxn::handler`. -/
structure InputCxn where
  readQueue : ReadBuffer
  state : InputState
  io : Io
  id : UInt32
  deriving DecidableEq

/-- A callback: the handler behind it (`none` once it has deleted itself), the
inbox behind it and the arguments of its calls to `collector::append`. -/
structure InputStep where
  handler : Option InputCxn
  inbox : List RecvResult
  appended : List SizedBuffer

namespace InputCxn

/-- `handler(fd)`; `id` is the second it was accepted in, unique by the loop there. -/
def new (fd : Int) (id : UInt32) : InputCxn where
  readQueue := ReadBuffer.new 4
  state := .RECV_HEADER
  io := Io.startOn fd Events.READ
  id := id

/-- The two branches behind a full buffer. -/
def process (h : InputCxn) : InputCxn × List SizedBuffer :=
  match h.state with
  | .RECV_HEADER =>
      let q := h.readQueue.setCursor 0
      ({ h with readQueue := q.setToRead (ofBE (q.buffer.take 4)), state := .RECV_LOG }, [])
  | .RECV_LOG =>
      ({ h with readQueue := (h.readQueue.setCursor 0).setToRead 4, state := .RECV_HEADER },
        [⟨h.readQueue.buffer, h.readQueue.cursor, h.id⟩])

/-- The outer loop of `io_cb`.  The inner one is `ReadBuffer.fill`: it is entered
hungry, so testing behind the first round or in front of it is the same. -/
def ioCbAux : Nat → InputCxn → List RecvResult → InputStep
  | 0, h, inbox => ⟨some h, inbox, []⟩
  | fuel + 1, h, inbox =>
      if h.readQueue.hungry then
        let s := h.readQueue.fill inbox
        let h := { h with readQueue := s.queue }
        let p := if s.queue.hungry then (h, []) else h.process
        match s.ret with
        | .fail .eagain | .fail .eintr => ⟨some p.1, s.inbox, p.2⟩
        | .fail _ => ⟨none, s.inbox, []⟩
        | .count 0 => ⟨none, s.inbox, []⟩
        | .count (_ + 1) =>
            let t := ioCbAux fuel p.1 s.inbox
            { t with appended := p.2 ++ t.appended }
      else ⟨some h, inbox, []⟩

/-- `input_cxn::handler::io_cb`.  Every round that goes on takes an answer from the
inbox or a byte from the receive array, so the fuel suffices. -/
def ioCb (h : InputCxn) (revents : Events) (inbox : List RecvResult) : InputStep :=
  if revents.read then ioCbAux (h.readQueue.effort inbox + 1) h inbox else ⟨some h, inbox, []⟩

end InputCxn

/-- The connection as the kernel and the collector see it. -/
structure Connection where
  handler : Option InputCxn
  inbox : List RecvResult
  appended : List SizedBuffer

/-- An answer becomes available to `recv`, or the event loop calls back. -/
inductive InputEvent where
  | arrive (answer : RecvResult)
  | ioCb (revents : Events)
  deriving DecidableEq

namespace Connection

def new (fd : Int) (id : UInt32) : Connection := ⟨some (InputCxn.new fd id), [], []⟩

def step (s : Connection) : InputEvent → Connection
  | .arrive answer => { s with inbox := s.inbox ++ [answer] }
  | .ioCb revents =>
      match s.handler with
      | none => s
      | some h =>
          let t := h.ioCb revents s.inbox
          ⟨t.handler, t.inbox, s.appended ++ t.appended⟩

end Connection

/-! ## Records on the wire -/

/-- What `collector::append` is told of a record: its bytes, their number, its source. -/
def SizedBuffer.view (p : SizedBuffer) : List UInt8 × Nat × UInt32 :=
  (p.buffer.take p.len, p.len, p.sourceId)

/-- What it should be told of the record `f` from source `id`. -/
def recordView (id : UInt32) (f : List UInt8) : List UInt8 × Nat × UInt32 :=
  (body f, (body f).length, id)

/-- `recv` answers behind which the handler is gone. -/
def final : RecvResult → Bool
  | .data _ => false
  | .eof => true
  | .err .eagain => false
  | .err .eintr => false
  | .err _ => true

/-- Answers that leave the handler alive. -/
def Quiet (answers : List RecvResult) : Prop := ∀ r ∈ answers, final r = false

theorem quiet_of_allData {answers : List RecvResult} (data : AllData answers) : Quiet answers := by
  intro r member
  obtain ⟨chunk, rfl⟩ := data r member
  rfl

theorem Quiet.append {a b : List RecvResult} (first : Quiet a) (second : Quiet b) :
    Quiet (a ++ b) := by
  intro r member
  rcases List.mem_append.1 member with early | late
  · exact first r early
  · exact second r late

theorem Quiet.takeWhile {used : List RecvResult} (quiet : Quiet used)
    (rest : List RecvResult) :
    (used ++ rest).takeWhile (fun r => !final r) = used ++ rest.takeWhile (fun r => !final r) :=
  List.takeWhile_append_of_pos (by simpa using fun r member => quiet r member)

/-- Two accounts of a stream in a row: what the first leaves over, the second starts with. -/
theorem flatten_chain {a b left rest : List UInt8} {first second : List (List UInt8)}
    (early : a = first.flatten ++ left) (late : left ++ b = second.flatten ++ rest) :
    a ++ b = (first ++ second).flatten ++ rest := by
  rw [early, List.append_assoc, late, List.flatten_append, List.append_assoc]

/-- These appends handed over exactly these records, none of them empty. -/
structure Handed (id : UInt32) (appended : List SizedBuffer) (done : List (List UInt8)) : Prop where
  views : appended.map SizedBuffer.view = done.map (recordView id)
  complete : ∀ f ∈ done, records.Complete f
  nonempty : ∀ f ∈ done, body f ≠ []

theorem Handed.nil (id : UInt32) : Handed id [] [] := ⟨rfl, by simp, by simp⟩

theorem Handed.append {id : UInt32} {a b : List SizedBuffer} {first second : List (List UInt8)}
    (early : Handed id a first) (late : Handed id b second) :
    Handed id (a ++ b) (first ++ second) := by
  refine ⟨by rw [List.map_append, List.map_append, early.views, late.views], ?_, ?_⟩
  · intro f member
    rcases List.mem_append.1 member with before | after
    · exact early.complete f before
    · exact late.complete f after
  · intro f member
    rcases List.mem_append.1 member with before | after
    · exact early.nonempty f before
    · exact late.nonempty f after

theorem Handed.takeWhile {id : UInt32} {appended : List SizedBuffer} {done : List (List UInt8)}
    (handed : Handed id appended done) (rest : List (List UInt8)) :
    (done ++ rest).takeWhile (fun f => body f ≠ []) =
      done ++ rest.takeWhile (fun f => body f ≠ []) :=
  List.takeWhile_append_of_pos (by simpa using handed.nonempty)

/-! ## One callback -/

namespace InputCxn

/-- `front` is what has come of the record in progress.  The second case includes
the stuck handler: an announced length of zero, and nothing to read. -/
def Phase (h : InputCxn) (front : List UInt8) : Prop :=
  (h.state = .RECV_HEADER ∧ front = h.readQueue.held ∧ 0 < h.readQueue.toRead ∧
    front.length + h.readQueue.toRead = 4) ∨
  (h.state = .RECV_LOG ∧ ∃ header, header.length = 4 ∧ front = header ++ h.readQueue.held ∧
    h.readQueue.held.length + h.readQueue.toRead = ofBE header ∧
    (0 < h.readQueue.toRead ∨ ofBE header = 0))

theorem new_phase (fd : Int) (id : UInt32) : (new fd id).Phase [] :=
  Or.inl ⟨rfl, rfl, by simp [new], by simp [new]⟩

/-- A hungry handler is in the middle of a record. -/
theorem Phase.incomplete {h : InputCxn} {front : List UInt8} (phase : h.Phase front)
    (hungry : 0 < h.readQueue.toRead) : records.Incomplete front := by
  rcases phase with ⟨-, -, -, short⟩ | ⟨-, header, four, rfl, announced, -⟩
  · exact Or.inl (by show front.length < 4; omega)
  · right
    have front : (header ++ h.readQueue.held).take 4 = header := by rw [← four, List.take_left]
    show _ < 4 + ofBE ((header ++ h.readQueue.held).take 4)
    rw [front, List.length_append]
    omega

/-- A handler that is not hungry is stuck behind an empty record. -/
theorem Phase.stuck {h : InputCxn} {front : List UInt8} (phase : h.Phase front)
    (full : h.readQueue.toRead = 0) : records.Complete front ∧ body front = [] := by
  rcases phase with ⟨-, -, hungry, -⟩ | ⟨-, header, four, rfl, announced, hungry | empty⟩
  · omega
  · omega
  · have none_ : h.readQueue.held = [] := List.eq_nil_of_length_eq_zero (by omega)
    rw [none_]
    exact ⟨complete_record four (by simp [empty]), body_append four []⟩

/-- Fewer bytes than wanted leave the handler in its phase. -/
theorem Phase.short {h : InputCxn} {front bytes : List UInt8} (phase : h.Phase front)
    {q : ReadBuffer} (less : bytes.length < h.readQueue.toRead)
    (held : q.held = h.readQueue.held ++ bytes)
    (toRead : q.toRead = h.readQueue.toRead - bytes.length) :
    ({ h with readQueue := q } : InputCxn).Phase (front ++ bytes) := by
  rcases phase with ⟨state, rfl, -, short⟩ | ⟨state, header, four, rfl, announced, -⟩
  · left
    refine ⟨state, held.symm, ?_, ?_⟩
    · show 0 < q.toRead
      omega
    · show _ + q.toRead = 4
      rw [List.length_append]; omega
  · right
    refine ⟨state, header, four, by rw [List.append_assoc, held], ?_, Or.inl ?_⟩
    · show q.held.length + q.toRead = ofBE header
      rw [held, List.length_append]; omega
    · show 0 < q.toRead
      omega

/-- The bytes wanted: a header starts a record, a body finishes one. -/
theorem Phase.process {h : InputCxn} {front bytes : List UInt8} (phase : h.Phase front)
    {q : ReadBuffer} (valid : q.Valid) (hungry : 0 < h.readQueue.toRead)
    (length : bytes.length = h.readQueue.toRead) (held : q.held = h.readQueue.held ++ bytes) :
    ∃ done rest, Handed h.id ({ h with readQueue := q } : InputCxn).process.2 done ∧
      ({ h with readQueue := q } : InputCxn).process.1.Phase rest ∧
      front ++ bytes = done.flatten ++ rest := by
  have cursor := valid.held_length
  rcases phase with ⟨state, rfl, -, short⟩ | ⟨state, header, four, rfl, announced, -⟩
  · refine ⟨[], h.readQueue.held ++ bytes, ?_, ?_, rfl⟩
    · simpa [InputCxn.process, state] using Handed.nil h.id
    · have four : (h.readQueue.held ++ bytes).length = 4 := by rw [List.length_append]; omega
      have whole : q.buffer.take 4 = h.readQueue.held ++ bytes := by
        rw [← held, ReadBuffer.held, ← cursor, held, four]
      right
      simp only [InputCxn.process, state]
      have wanted : ofBE ((q.setCursor 0).buffer.take 4) = ofBE (h.readQueue.held ++ bytes) :=
        congrArg ofBE whole
      rw [wanted]
      refine ⟨trivial, h.readQueue.held ++ bytes, four, by simp, by simp, ?_⟩
      rw [ReadBuffer.setToRead_toRead]
      omega
  · have full : (h.readQueue.held ++ bytes).length = ofBE header := by
      rw [List.length_append]; omega
    refine ⟨[header ++ (h.readQueue.held ++ bytes)], [], ?_, ?_, by simp⟩
    · simp only [InputCxn.process, state]
      refine ⟨?_, ?_, ?_⟩
      · have content : q.buffer.take q.cursor = h.readQueue.held ++ bytes := held
        rw [held] at cursor
        rw [← cursor] at content
        simp only [SizedBuffer.view, recordView, body_append four, ← cursor, content,
          List.map_cons, List.map_nil]
      · simpa using complete_record four full
      · have some_ : bytes ≠ [] := by
          intro none_
          rw [none_, List.length_nil] at length
          omega
        simp [body_append four, some_]
    · left
      simp only [InputCxn.process, state]
      exact ⟨trivial, by simp, by simp, by simp⟩

theorem process_valid {h : InputCxn} (valid : h.readQueue.Valid) :
    h.process.1.readQueue.Valid ∧ h.process.1.readQueue.unread = h.readQueue.unread ∧
      h.process.1.id = h.id := by
  unfold process
  split
  · exact ⟨valid.rewind.setToRead _, rfl, rfl⟩
  · exact ⟨valid.rewind.setToRead _, rfl, rfl⟩

/-- The callback leaves the handler alive.  `used` are the answers it took. -/
structure Alive (h h' : InputCxn) (front : List UInt8) (inbox : List RecvResult) (t : InputStep) :
    Prop where
  valid : h'.readQueue.Valid
  same : h'.id = h.id
  dry : 0 < h'.readQueue.toRead → h'.readQueue.unread = []
  eager : 0 < h.readQueue.toRead → h.readQueue.unread = [] → inbox ≠ [] → t.inbox ≠ inbox
  took : ∃ used done front', inbox = used ++ t.inbox ∧ Quiet used ∧
    h'.Phase front' ∧ Handed h.id t.appended done ∧
    front ++ h.readQueue.unread ++ stream used =
      done.flatten ++ front' ++ h'.readQueue.unread

/-- The callback deletes the handler on the answer `last`, all earlier ones read. -/
structure Dead (h : InputCxn) (front : List UInt8) (inbox : List RecvResult) (t : InputStep) :
    Prop where
  took : ∃ used last done tail, inbox = used ++ last :: t.inbox ∧ Quiet used ∧
    final last = true ∧ records.Incomplete tail ∧ Handed h.id t.appended done ∧
    front ++ h.readQueue.unread ++ stream used = done.flatten ++ tail

/-- Going on after a round that filled the buffer. -/
theorem Alive.after {h mid h' : InputCxn} {front rest : List UInt8} {inbox inbox' : List RecvResult}
    {appended : List SizedBuffer} {t : InputStep} {answers : List RecvResult}
    {first : List (List UInt8)} (same : mid.id = h.id) (split : inbox = answers ++ inbox')
    (data : AllData answers) (handed : Handed h.id appended first)
    (whole : front ++ h.readQueue.unread ++ stream answers =
      first.flatten ++ rest ++ mid.readQueue.unread)
    (moved : h.readQueue.unread = [] → answers ≠ []) (alive : Alive mid h' rest inbox' t) :
    Alive h h' front inbox { t with appended := appended ++ t.appended } := by
  obtain ⟨valid, id, dry, -, used, done, front', inside, quiet, phase, later, count⟩ := alive
  refine ⟨valid, id.trans same, dry, ?_, answers ++ used, first ++ done, front', ?_, ?_, phase,
    ?_, ?_⟩
  · intro _ empty _ unchanged
    rw [inside] at split
    have lengths := congrArg List.length split
    rw [← unchanged] at lengths
    simp only [List.length_append] at lengths
    exact moved empty (List.eq_nil_of_length_eq_zero (by omega))
  · rw [split, inside, List.append_assoc]
  · exact (quiet_of_allData data).append quiet
  · exact handed.append (same ▸ later)
  · rw [stream_append, ← List.append_assoc, List.append_assoc _ front']
    exact flatten_chain (by rw [whole, List.append_assoc]) (by rw [count, List.append_assoc])

theorem Dead.after {h mid : InputCxn} {front rest : List UInt8} {inbox inbox' : List RecvResult}
    {appended : List SizedBuffer} {t : InputStep} {answers : List RecvResult}
    {first : List (List UInt8)} (same : mid.id = h.id) (split : inbox = answers ++ inbox')
    (data : AllData answers) (handed : Handed h.id appended first)
    (whole : front ++ h.readQueue.unread ++ stream answers =
      first.flatten ++ rest ++ mid.readQueue.unread)
    (dead : Dead mid rest inbox' t) :
    Dead h front inbox { t with appended := appended ++ t.appended } := by
  obtain ⟨used, last, done, tail, inside, quiet, ended, incomplete, later, count⟩ := dead
  refine ⟨answers ++ used, last, first ++ done, tail, ?_, ?_, ended, incomplete, ?_, ?_⟩
  · rw [split, inside, List.append_assoc]
  · exact (quiet_of_allData data).append quiet
  · exact handed.append (same ▸ later)
  · rw [stream_append, ← List.append_assoc]
    exact flatten_chain (by rw [whole, List.append_assoc]) count

/-- A round that the kernel cut short, on an answer that leaves the handler alive. -/
theorem alive_of_short {h : InputCxn} {front bytes : List UInt8} {inbox : List RecvResult}
    {s : ReadStep} (phase : h.Phase front) (valid : s.queue.Valid)
    (short : ReadBuffer.Short h.readQueue inbox s bytes)
    (transient : s.ret = .fail .eagain ∨ s.ret = .fail .eintr) :
    Alive h { h with readQueue := s.queue } front inbox
      ⟨some { h with readQueue := s.queue }, s.inbox, []⟩ := by
  obtain ⟨answers, rest, split, data, got, behind, answer⟩ := short.took
  have quiet := quiet_of_allData data
  have spared : final (recv rest).1 = false := by
    rcases answer with ⟨-, ret⟩ | ⟨e, here, ret⟩
    · rcases transient with h | h <;> rw [h] at ret <;> cases ret
    · rw [here]
      rcases transient with h | h <;> rw [h] at ret <;> cases ret <;> rfl
  have nothing : (recv rest).1.bytes = [] := by
    rcases answer with ⟨here, -⟩ | ⟨e, here, -⟩ <;> rw [here] <;> rfl
  have whole : front ++ h.readQueue.unread ++ stream answers = front ++ bytes := by
    rw [List.append_assoc, ← got, short.conserved]
  have next := phase.short short.length short.held short.toRead
  refine ⟨valid, rfl, fun _ => short.unread, ?_, ?_⟩
  · intro _ _ some_ unchanged
    simp only [behind] at unchanged
    rw [split] at unchanged some_
    cases rest with
    | nil => exact some_ unchanged.symm
    | cons r rest =>
        have lengths := congrArg List.length unchanged
        simp only [recv, List.length_append, List.length_cons] at lengths
        omega
  cases rest with
  | nil =>
      refine ⟨answers, [], front ++ bytes, by rw [split, behind]; rfl, quiet, next, Handed.nil _, ?_⟩
      simp [whole, short.unread]
  | cons r rest =>
      refine ⟨answers ++ [r], [], front ++ bytes, by rw [split, behind]; simp [recv], ?_, next,
        Handed.nil _, ?_⟩
      · intro a member
        rcases List.mem_append.1 member with before | here
        · exact quiet a before
        · rw [List.mem_singleton.1 here]
          exact spared
      · have empty : stream [r] = [] := by simpa [recv] using nothing
        rw [stream_append, empty, List.append_nil, whole]
        simp [short.unread]

/-- A round that the kernel cut short, on an answer that is not transient. -/
theorem dead_of_short {h : InputCxn} {front bytes : List UInt8} {inbox : List RecvResult}
    {s : ReadStep} (phase : h.Phase front)
    (short : ReadBuffer.Short h.readQueue inbox s bytes)
    (fatal : s.ret ≠ .fail .eagain ∧ s.ret ≠ .fail .eintr) :
    Dead h front inbox ⟨none, s.inbox, []⟩ := by
  obtain ⟨answers, rest, split, data, got, behind, answer⟩ := short.took
  have ended : final (recv rest).1 = true := by
    rcases answer with ⟨here, -⟩ | ⟨e, here, ret⟩
    · rw [here]; rfl
    · rw [here]
      rw [ret] at fatal
      cases e <;> simp_all [final]
  have next := phase.short short.length short.held short.toRead
  have less := short.length
  have incomplete : records.Incomplete (front ++ bytes) :=
    next.incomplete (by show 0 < s.queue.toRead; rw [short.toRead]; omega)
  cases rest with
  | nil => exact absurd ended (by simp [recv, final])
  | cons r rest =>
      refine ⟨answers, r, [], front ++ bytes, by rw [split, behind]; rfl,
        quiet_of_allData data, ended, incomplete, Handed.nil _, ?_⟩
      rw [List.append_assoc, ← got, short.conserved]
      rfl

/-- What one run of the loop can do. -/
theorem ioCbAux_cases {fuel : Nat} {h : InputCxn} {front : List UInt8} {inbox : List RecvResult}
    (valid : h.readQueue.Valid) (phase : h.Phase front)
    (enough : h.readQueue.effort inbox < fuel) :
    (∃ h', (ioCbAux fuel h inbox).handler = some h' ∧
        Alive h h' front inbox (ioCbAux fuel h inbox)) ∨
      (ioCbAux fuel h inbox).handler = none ∧ Dead h front inbox (ioCbAux fuel h inbox) := by
  induction fuel generalizing h front inbox with
  | zero => omega
  | succ fuel ih =>
      by_cases hungry : 0 < h.readQueue.toRead
      · obtain ⟨after, ⟨bytes, filled⟩ | ⟨bytes, short⟩⟩ := ReadBuffer.fill_cases valid inbox
        · obtain ⟨answers, split, data, got⟩ := filled.took
          obtain ⟨first, rest, handed, next, whole⟩ :=
            phase.process after hungry filled.length filled.held
          obtain ⟨validNext, sameUnread, sameId⟩ :=
            process_valid (h := { h with readQueue := (h.readQueue.fill inbox).queue }) after
          have light := filled.lighter hungry
          have less : ({ h with readQueue := (h.readQueue.fill inbox).queue } :
              InputCxn).process.1.readQueue.effort (h.readQueue.fill inbox).inbox < fuel := by
            simp only [ReadBuffer.effort, sameUnread] at light enough ⊢
            omega
          have count : front ++ h.readQueue.unread ++ stream answers = first.flatten ++ rest ++
              ({ h with readQueue := (h.readQueue.fill inbox).queue } :
                InputCxn).process.1.readQueue.unread := by
            rw [List.append_assoc, ← got, filled.conserved, ← List.append_assoc, whole, sameUnread]
          have moved : h.readQueue.unread = [] → answers ≠ [] := by
            intro empty none_
            have nothing := filled.conserved
            rw [empty, got, none_, stream_nil] at nothing
            have length := filled.length
            rw [(List.append_eq_nil_iff.1 nothing.symm).1, List.length_nil] at length
            omega
          simp only [ioCbAux, ReadBuffer.hungry, hungry, filled.toRead, filled.ret, decide_true,
            if_true, gt_iff_lt, Nat.lt_irrefl, decide_false, Bool.false_eq_true, if_false]
          rcases ih validNext next less with ⟨h', here, alive⟩ | ⟨gone, dead⟩
          · exact Or.inl ⟨h', here, alive.after sameId split data handed count moved⟩
          · exact Or.inr ⟨gone, dead.after sameId split data handed count⟩
        · have wants : 0 < (h.readQueue.fill inbox).queue.toRead := by
            have := short.length
            rw [short.toRead]; omega
          have ended : (h.readQueue.fill inbox).ret = .count 0 ∨
              ∃ e, (h.readQueue.fill inbox).ret = .fail e := by
            obtain ⟨-, -, -, -, -, -, ⟨-, ret⟩ | ⟨e, -, ret⟩⟩ := short.took
            · exact Or.inl ret
            · exact Or.inr ⟨e, ret⟩
          have alive := alive_of_short phase after short
          have dead := dead_of_short phase short
          simp only [ioCbAux, ReadBuffer.hungry, hungry, wants, decide_true, if_true]
          rcases ended with ret | ⟨e, ret⟩
          · rw [ret] at dead ⊢
            exact Or.inr ⟨rfl, dead ⟨by simp, by simp⟩⟩
          · rw [ret] at alive dead ⊢
            cases e with
            | eagain => exact Or.inl ⟨_, rfl, alive (Or.inl rfl)⟩
            | eintr => exact Or.inl ⟨_, rfl, alive (Or.inr rfl)⟩
            | econnreset => exact Or.inr ⟨rfl, dead ⟨by simp, by simp⟩⟩
            | ebadf => exact Or.inr ⟨rfl, dead ⟨by simp, by simp⟩⟩
            | other code => exact Or.inr ⟨rfl, dead ⟨by simp, by simp⟩⟩
      · left
        refine ⟨h, by simp [ioCbAux, ReadBuffer.hungry, hungry], ?_⟩
        simp only [ioCbAux, ReadBuffer.hungry, gt_iff_lt, hungry, decide_false,
          Bool.false_eq_true, if_false]
        exact ⟨valid, rfl, fun more => absurd more hungry, fun more => absurd more hungry, [], [],
          front, rfl, by simp [Quiet], phase, Handed.nil _, by simp⟩

/-- A callback of a hungry handler takes an answer whenever there is one. -/
theorem ioCb_takes {h : InputCxn} {front : List UInt8} {inbox : List RecvResult}
    (valid : h.readQueue.Valid) (phase : h.Phase front) (hungry : 0 < h.readQueue.toRead)
    (dry : h.readQueue.unread = []) (some_ : inbox ≠ []) :
    (h.ioCb Events.READ inbox).inbox ≠ inbox := by
  show (ioCbAux (h.readQueue.effort inbox + 1) h inbox).inbox ≠ inbox
  rcases ioCbAux_cases valid phase (Nat.lt_add_one _) with ⟨h', -, alive⟩ | ⟨-, dead⟩
  · exact alive.eager hungry dry some_
  · intro same
    obtain ⟨used, last, -, -, split, -⟩ := dead
    have lengths := congrArg List.length split
    rw [same, List.length_append, List.length_cons] at lengths
    omega

end InputCxn

/-! ## Runs -/

/-- The answers that became available during a run. -/
def arrivals (events : List InputEvent) : List RecvResult :=
  events.filterMap fun
    | .arrive answer => some answer
    | .ioCb _ => none

/-- The byte stream of a connection: what arrives before it ends. -/
def received (arrived : List RecvResult) : List UInt8 :=
  stream (arrived.takeWhile fun r => !final r)

namespace Connection

/-- What was taken from the kernel is the handed-over records, the record in
progress and the unread bytes; or the connection has ended. -/
def Tracks (id : UInt32) (arrived : List RecvResult) (s : Connection) : Prop :=
  match s.handler with
  | some h => h.id = id ∧ h.readQueue.Valid ∧
      (0 < h.readQueue.toRead → h.readQueue.unread = []) ∧
      ∃ used done front, arrived = used ++ s.inbox ∧ Quiet used ∧
        h.Phase front ∧ Handed id s.appended done ∧
        stream used = done.flatten ++ front ++ h.readQueue.unread
  | none => ∃ used last rest done tail, arrived = used ++ last :: rest ∧
      Quiet used ∧ final last = true ∧ records.Incomplete tail ∧
      Handed id s.appended done ∧ stream used = done.flatten ++ tail

theorem new_tracks (fd : Int) (id : UInt32) : (new fd id).Tracks id [] :=
  ⟨rfl, ReadBuffer.new_valid 4, fun _ => rfl, [], [], [], rfl, by simp [Quiet],
    InputCxn.new_phase fd id, Handed.nil id, rfl⟩

theorem Tracks.arrive {id : UInt32} {arrived : List RecvResult} {s : Connection}
    (tracks : s.Tracks id arrived) (answer : RecvResult) :
    (s.step (.arrive answer)).Tracks id (arrived ++ [answer]) := by
  unfold Tracks at tracks ⊢
  simp only [step]
  cases live : s.handler with
  | some h =>
      rw [live] at tracks
      obtain ⟨same, valid, dry, used, done, front, split, rest⟩ := tracks
      exact ⟨same, valid, dry, used, done, front, by rw [split, List.append_assoc], rest⟩
  | none =>
      rw [live] at tracks
      obtain ⟨used, last, late, done, tail, split, rest⟩ := tracks
      exact ⟨used, last, late ++ [answer], done, tail, by rw [split]; simp, rest⟩

theorem Tracks.ioCb {id : UInt32} {arrived : List RecvResult} {s : Connection}
    (tracks : s.Tracks id arrived) (revents : Events) :
    (s.step (.ioCb revents)).Tracks id arrived := by
  cases live : s.handler with
  | none => simpa only [step, live] using tracks
  | some h =>
      unfold Tracks at tracks
      rw [live] at tracks
      obtain ⟨rfl, valid, dry, used, done, front, split, quiet, phase, handed, whole⟩ := tracks
      simp only [step, live, InputCxn.ioCb]
      by_cases readable : revents.read = true
      · simp only [readable, if_true]
        have cases := InputCxn.ioCbAux_cases valid phase
          (Nat.lt_add_one (h.readQueue.effort s.inbox))
        rcases cases with ⟨h', here, alive⟩ | ⟨gone, dead⟩
        · obtain ⟨valid', same, dry', -, more, later, front', inside, silent, phase', handed',
            count⟩ := alive
          simp only [Tracks, here]
          refine ⟨same, valid', dry', used ++ more, done ++ later, front', ?_, ?_, phase',
            handed.append handed', ?_⟩
          · rw [List.append_assoc, ← inside, split]
          · exact quiet.append silent
          · rw [List.append_assoc] at whole
            rw [stream_append, List.append_assoc _ front']
            exact flatten_chain whole (by rw [count, List.append_assoc])
        · obtain ⟨more, last, later, tail, inside, silent, ended, incomplete, handed', count⟩ := dead
          simp only [Tracks, gone]
          refine ⟨used ++ more, last,
            (InputCxn.ioCbAux (h.readQueue.effort s.inbox + 1) h s.inbox).inbox, done ++ later, tail, ?_, ?_, ended, incomplete,
            handed.append handed', ?_⟩
          · rw [List.append_assoc, ← inside, split]
          · exact quiet.append silent
          · rw [List.append_assoc] at whole
            rw [stream_append]
            exact flatten_chain whole count
      · simp only [readable, if_false, List.append_nil, Bool.false_eq_true]
        exact ⟨rfl, valid, dry, used, done, front, split, quiet, phase, handed, whole⟩

theorem run_tracks {id : UInt32} {s : Connection} {arrived : List RecvResult}
    (tracks : s.Tracks id arrived) (events : List InputEvent) :
    (run step s events).Tracks id (arrived ++ arrivals events) := by
  induction events generalizing s arrived with
  | nil => simpa [arrivals] using tracks
  | cons e rest ih =>
      rw [run_cons]
      cases e with
      | arrive answer => simpa [arrivals] using ih (tracks.arrive answer)
      | ioCb revents => simpa [arrivals] using ih (tracks.ioCb revents)

/-- The kernel has nothing left that another READ callback would take. -/
def Settled (s : Connection) : Prop := (s.step (.ioCb Events.READ)).inbox = s.inbox

instance (s : Connection) : Decidable s.Settled := inferInstanceAs (Decidable (_ = _))

/-- A READ callback leaves the inbox alone or takes answers off its front. -/
theorem Tracks.ioCb_inbox {id : UInt32} {arrived : List RecvResult} {s : Connection}
    (tracks : s.Tracks id arrived) :
    s.Settled ∨ (s.step (.ioCb Events.READ)).inbox.length < s.inbox.length := by
  unfold Tracks at tracks
  simp only [Settled, step]
  cases live : s.handler with
  | none => exact Or.inl rfl
  | some h =>
      rw [live] at tracks
      obtain ⟨-, valid, -, -, -, front, -, -, phase, -⟩ := tracks
      show (InputCxn.ioCbAux _ h s.inbox).inbox = _ ∨ (InputCxn.ioCbAux _ h s.inbox).inbox.length < _
      rcases InputCxn.ioCbAux_cases valid phase (Nat.lt_add_one _) with ⟨h', -, alive⟩ | ⟨-, dead⟩
      · obtain ⟨used, -, -, split, -⟩ := alive.took
        cases used with
        | nil => exact Or.inl split.symm
        | cons r used =>
            right
            have lengths := congrArg List.length split
            rw [List.length_append, List.length_cons] at lengths
            omega
      · obtain ⟨used, last, -, -, split, -⟩ := dead.took
        right
        have lengths := congrArg List.length split
        rw [List.length_append, List.length_cons] at lengths
        omega

theorem Tracks.settles {id : UInt32} {arrived : List RecvResult} {s : Connection}
    (tracks : s.Tracks id arrived) :
    ∃ n, (run step s (List.replicate n (.ioCb Events.READ))).Settled := by
  -- by the length of the inbox: a callback that takes nothing finds it settled
  induction size : s.inbox.length using Nat.strong_induction_on generalizing s with
  | _ size ih =>
      rcases tracks.ioCb_inbox with settled | shorter
      · exact ⟨0, settled⟩
      · obtain ⟨n, settled⟩ := ih _ (size ▸ shorter) (tracks.ioCb Events.READ) rfl
        exact ⟨n + 1, settled⟩

/-- Every run settles if the event loop calls back often enough. -/
theorem run_settles (fd : Int) (id : UInt32) (events : List InputEvent) :
    ∃ n, (run step (new fd id) (events ++ List.replicate n (.ioCb Events.READ))).Settled := by
  obtain ⟨n, settled⟩ := (run_tracks (new_tracks fd id) events).settles
  exact ⟨n, by rw [run_append]; exact settled⟩

/-- A settled connection has handed over the records in front of the first empty one. -/
theorem Tracks.settled {id : UInt32} {arrived : List RecvResult} {s : Connection}
    (tracks : s.Tracks id arrived) (settled : s.Settled) :
    s.appended.map SizedBuffer.view =
      ((records.parse (received arrived)).1.takeWhile fun f => body f ≠ []).map (recordView id) := by
  unfold Tracks at tracks
  cases live : s.handler with
  | none =>
      rw [live] at tracks
      obtain ⟨used, last, rest, done, tail, rfl, quiet, ended, incomplete, handed, whole⟩ := tracks
      have all : received (used ++ last :: rest) = done.flatten ++ tail := by
        rw [received, quiet.takeWhile]
        simp [ended, whole]
      have mine := handed.takeWhile []
      rw [List.append_nil] at mine
      rw [all, records.parse_flatten_append handed.complete incomplete, handed.views]
      simpa using congrArg (List.map (recordView id)) mine.symm
  | some h =>
      rw [live] at tracks
      obtain ⟨same, valid, dry, used, done, front, rfl, quiet, phase, handed, whole⟩ := tracks
      by_cases hungry : 0 < h.readQueue.toRead
      · -- a hungry handler settles only on an empty inbox
        have none_ : s.inbox = [] := by
          by_contra some_
          apply InputCxn.ioCb_takes valid phase hungry (dry hungry) some_
          simpa only [Settled, step, live] using settled
        have all : received (used ++ s.inbox) = done.flatten ++ front := by
          rw [received, quiet.takeWhile, none_, List.takeWhile_nil, List.append_nil, whole,
            dry hungry, List.append_nil]
        have mine := handed.takeWhile []
        rw [List.append_nil] at mine
        rw [all, records.parse_flatten_append handed.complete (phase.incomplete hungry),
          handed.views]
        simpa using congrArg (List.map (recordView id)) mine.symm
      · -- a stuck one has an empty record in hand, whatever is behind it
        obtain ⟨complete, empty⟩ := phase.stuck (by omega)
        generalize behind : h.readQueue.unread ++ stream (s.inbox.takeWhile fun r => !final r) = rest
        obtain ⟨later, tail, rejoined⟩ := records.parse_spec rest
        have all : received (used ++ s.inbox) =
            (done ++ front :: (records.parse rest).1).flatten ++ (records.parse rest).2 := by
          rw [received, quiet.takeWhile, stream_append, whole, List.append_assoc, behind,
            List.flatten_append, List.flatten_cons, List.append_assoc, List.append_assoc,
            List.append_assoc, rejoined]
        have frames : ∀ f ∈ done ++ front :: (records.parse rest).1, records.Complete f := by
          intro f member
          rcases List.mem_append.1 member with early | late
          · exact handed.complete f early
          · rcases List.mem_cons.1 late with rfl | last
            · exact complete
            · exact later f last
        rw [all, records.parse_flatten_append frames tail, handed.takeWhile, handed.views]
        simp [empty]

end Connection

/-- Stopping at the first symbol that fails `p` keeps all that meet it exactly when
none that meets it comes behind one that does not. -/
theorem takeWhile_eq_filter_iff {α : Type} (p : α → Bool) (l : List α) :
    l.takeWhile p = l.filter p ↔
      ∀ a e b, l = a ++ e :: b → p e = false → ∀ f ∈ b, p f = false := by
  induction l with
  | nil => simp
  | cons x l ih =>
      by_cases good : p x = true
      · rw [List.takeWhile_cons_of_pos good, List.filter_cons_of_pos good, List.cons_inj_right, ih]
        constructor
        · intro inner a e b split bad
          cases a with
          | nil =>
              cases split
              rw [good] at bad
              cases bad
          | cons y a =>
              cases split
              exact inner a e b rfl bad
        · intro outer a e b split bad
          exact outer (x :: a) e b (by rw [split]; rfl) bad
      · rw [List.takeWhile_cons_of_neg good, List.filter_cons_of_neg good]
        constructor
        · intro none_ a e b split bad f member
          have absent : ∀ y ∈ l, p y = false := by
            simpa [List.filter_eq_nil_iff] using none_.symm
          cases a with
          | nil =>
              cases split
              exact absent f member
          | cons y a =>
              cases split
              exact absent f (by simp [member])
        · intro outer
          have absent := outer [] x l rfl (by simpa using good)
          symm
          simpa [List.filter_eq_nil_iff] using absent

/-- What is kept by stopping early is the front of what is kept by leaving out. -/
theorem takeWhile_prefix_filter {α : Type} (p : α → Bool) (l : List α) :
    l.takeWhile p <+: l.filter p := by
  induction l with
  | nil => simp
  | cons x l ih =>
      by_cases good : p x = true
      · rw [List.takeWhile_cons_of_pos good, List.filter_cons_of_pos good]
        exact (List.prefix_cons_inj x).2 ih
      · rw [List.takeWhile_cons_of_neg good]
        exact List.nil_prefix

/-- Once a connection has settled, in any run, its non-empty records have been
handed over, each with its bytes, its length and the source id, in order, if and
only if none of them comes behind an empty one. -/
theorem ingested_iff (fd : Int) (id : UInt32) (events : List InputEvent)
    (settled : (run Connection.step (Connection.new fd id) events).Settled) :
    (run Connection.step (Connection.new fd id) events).appended.map SizedBuffer.view =
        ((records.parse (received (arrivals events))).1.filter fun f => body f ≠ []).map
          (recordView id) ↔
      ∀ before empty behind,
        (records.parse (received (arrivals events))).1 = before ++ empty :: behind →
        body empty = [] → ∀ f ∈ behind, body f = [] := by
  have tracks := Connection.run_tracks (Connection.new_tracks fd id) events
  rw [List.nil_append] at tracks
  rw [tracks.settled settled]
  generalize (records.parse (received (arrivals events))).1 = frames
  have criterion := takeWhile_eq_filter_iff (fun f : List UInt8 => decide (body f ≠ [])) frames
  simp only [ne_eq, decide_not, Bool.not_eq_false', decide_eq_true_eq] at criterion ⊢
  rw [← criterion]
  constructor
  · intro same
    have lengths := congrArg List.length same
    rw [List.length_map, List.length_map] at lengths
    exact (takeWhile_prefix_filter _ frames).eq_of_length lengths
  · intro same
    rw [same]

/-- Two records in three pieces, with an interrupted call in between. -/
theorem ingested_two_records :
    (run Connection.step (Connection.new 5 9)
        [.arrive (.data ⟨[0, 0, 0, 2, 7], by decide, by decide⟩), .ioCb Events.READ,
         .arrive (.err .eintr), .arrive (.data ⟨[8, 0, 0], by decide, by decide⟩),
         .ioCb Events.READ, .arrive (.data ⟨[0, 1, 6], by decide, by decide⟩),
         .ioCb Events.READ]).appended.map SizedBuffer.view = [([7, 8], 2, 9), ([6], 1, 9)] := by
  have settled : (run Connection.step (Connection.new 5 9)
        [.arrive (.data ⟨[0, 0, 0, 2, 7], by decide, by decide⟩), .ioCb Events.READ,
         .arrive (.err .eintr), .arrive (.data ⟨[8, 0, 0], by decide, by decide⟩),
         .ioCb Events.READ, .arrive (.data ⟨[0, 1, 6], by decide, by decide⟩),
         .ioCb Events.READ]).Settled := by decide +kernel
  refine ((ingested_iff 5 9 _ settled).2 ?_).trans (by decide +kernel)
  have frames : (records.parse (received (arrivals
        [.arrive (.data ⟨[0, 0, 0, 2, 7], by decide, by decide⟩), .ioCb Events.READ,
         .arrive (.err .eintr), .arrive (.data ⟨[8, 0, 0], by decide, by decide⟩),
         .ioCb Events.READ, .arrive (.data ⟨[0, 1, 6], by decide, by decide⟩),
         .ioCb Events.READ]))).1 = [[0, 0, 0, 2, 7, 8], [0, 0, 0, 1, 6]] := by decide +kernel
  rw [frames]
  intro before empty behind split none_
  have member : empty ∈ [[0, 0, 0, 2, 7, 8], [0, 0, 0, 1, (6 : UInt8)]] := by rw [split]; simp
  rcases List.mem_cons.1 member with rfl | last
  · simp [body] at none_
  · rw [List.mem_singleton.1 last] at none_
    simp [body] at none_

/-- An empty record and a record of one byte in one piece: the second is withheld. -/
theorem withheld_behind_empty_record :
    (run Connection.step (Connection.new 5 9)
        [.arrive (.data ⟨[0, 0, 0, 0, 0, 0, 0, 1, 65], by decide, by decide⟩),
         .ioCb Events.READ]).Settled ∧
      (run Connection.step (Connection.new 5 9)
        [.arrive (.data ⟨[0, 0, 0, 0, 0, 0, 0, 1, 65], by decide, by decide⟩),
         .ioCb Events.READ]).appended.map SizedBuffer.view = [] ∧
      ((records.parse (received (arrivals
        [.arrive (.data ⟨[0, 0, 0, 0, 0, 0, 0, 1, 65], by decide, by decide⟩),
         .ioCb Events.READ]))).1.filter fun f => body f ≠ []).map (recordView 9) =
        [([65], 1, 9)] := by
  decide +kernel

end Coinscope.LogServer

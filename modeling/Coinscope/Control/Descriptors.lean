/-
# Control.Descriptors -- the count of open control connections

`g_active_descriptors` goes up when a connection is accepted and down in `suicide`.  A
callback that finds the client gone calls `suicide` in its reading half and goes on to
its writing half, where a reply that is still queued meets a closed descriptor: the
write fails, and `suicide` counts the connection down once more.

* `ends` -- the answers of `recv` that end a control connection.
* `Handler.CountsTwice` -- the callbacks that count down twice.
* `Handler.ioCb_descriptors` -- the count and the watcher behind a callback.
* `descriptors_exact_iff` -- the runs in which the count is right.
-/
import Coinscope.Control.Changes
import Coinscope.Control.Registry
import Coinscope.Control.Isolation
import Coinscope.Control.Replies
import Coinscope.Theory.Tables

namespace Coinscope.Control

open Coinscope.Shared
open Coinscope.Theory.Bytes
open Coinscope.Theory.Framing
open Coinscope.Theory.Runs
open Coinscope.Theory.Tables
open Coinscope.Connector (RECV_MASK SEND_MASK)
open Std (TreeMap)

set_option autoImplicit false

/-! ## Messages leave the count alone -/

theorem Began.activeDescriptors {cfg : Config} {out : Outside} {g g' : Globals}
    {started : Started} (began : Began cfg out g started g') :
    g'.activeDescriptors = g.activeDescriptors := by
  cases began with
  | noSocket => rfl
  | blacklisted => rfl
  | instant => rfl
  | waits => rfl
  | refused => rfl
  | proxyWaits => rfl
  | proxyFailed => rfl

theorem Change.activeDescriptors {cfg : Config} {g g' : Globals} (change : Change cfg g g') :
    g'.activeDescriptors = g.activeDescriptors := by
  cases change with
  | noted noted => exact noted.activeDescriptors
  | appended => rfl
  | disconnected => rfl
  | begun began => exact began.activeDescriptors

namespace Handler

theorem process_activeDescriptors (cfg : Config) (g : Globals) (h : Handler) :
    (h.process cfg g).1.activeDescriptors = g.activeDescriptors := by
  refine Changes.keeps (P := fun k => k.activeDescriptors = g.activeDescriptors) ?_ rfl
    (process_changes cfg g h)
  intro a b same change
  rw [change.activeDescriptors, same]

/-! ## The reading half -/

/-- Messages are answered through the queue. -/
theorem process_sent (cfg : Config) (g : Globals) (h : Handler) :
    (h.process cfg g).2.sent = h.sent := by
  unfold process
  split
  · unfold receiveHeader
    simp only
    split
    · split <;> rfl
    · rfl
  · split
    · exact (payloadSwitch_replied cfg _ h.take).sent
    · rfl

end Handler

/-- Whether the first answer that delivers no bytes ends a control connection: the end of
the stream, or an error other than `EAGAIN`. -/
def ends : List RecvResult → Bool
  | .data _ :: rest => ends rest
  | .eof :: _ => true
  | .err e :: _ => decide (e ≠ .eagain)
  | [] => false

theorem ends_append {a : List RecvResult} (data : AllData a) (b : List RecvResult) :
    ends (a ++ b) = ends b := by
  induction a with
  | nil => rfl
  | cons r a ih =>
      obtain ⟨chunk, rfl⟩ := data r List.mem_cons_self
      exact ih fun s member => data s (List.mem_cons_of_mem _ member)

/-- The connection is over: its watcher is stopped and its descriptor gone. -/
def Handler.over (h : Handler) : Io := { h.io with fd := -1, active := false }

namespace Handler

/-- What `do_read` does to the watcher and the count. -/
theorem doReadAux_ends (cfg : Config) (fuel : Nat) (g : Globals) {h : Handler}
    {inbox : List RecvResult} (sound : Sound h) (enough : h.readQueue.effort inbox < fuel) :
    (doReadAux cfg fuel g h inbox).2.io = (if ends inbox then h.over else h.io) ∧
      (doReadAux cfg fuel g h inbox).1.activeDescriptors =
        g.activeDescriptors - (if ends inbox then 1 else 0) := by
  induction fuel generalizing g h inbox with
  | zero => omega
  | succ fuel ih =>
      have hungry := sound.phase.hungry
      obtain ⟨valid, ⟨bytes, full⟩ | ⟨bytes, short⟩⟩ := ReadBuffer.fill_cases sound.reads inbox
      · have processed := round_processed cfg g sound valid full
        have light := full.lighter hungry
        have less : ((h.filled (h.readQueue.fill inbox)).process cfg g).2.readQueue.effort
            (h.readQueue.fill inbox).inbox < fuel := by
          have same : (h.filled (h.readQueue.fill inbox)).readQueue =
            (h.readQueue.fill inbox).queue := rfl
          simp only [ReadBuffer.effort, processed.unread, same] at light enough ⊢
          omega
        have result : doReadAux cfg (fuel + 1) g h inbox =
            doReadAux cfg fuel ((h.filled (h.readQueue.fill inbox)).process cfg g).1
              ((h.filled (h.readQueue.fill inbox)).process cfg g).2
              (h.readQueue.fill inbox).inbox := by
          simp only [doReadAux, ReadBuffer.hungry, hungry, full.ret, decide_true, if_true]
          rfl
        obtain ⟨answers, split_, data, -⟩ := full.took
        have later : ends inbox = ends (h.readQueue.fill inbox).inbox := by
          conv_lhs => rw [split_]
          exact ends_append data _
        obtain ⟨io, count⟩ := ih ((h.filled (h.readQueue.fill inbox)).process cfg g).1
          processed.sound less
        rw [result, later, io, count, process_activeDescriptors, Handler.over, processed.io]
        exact ⟨rfl, rfl⟩
      · obtain ⟨answers, rest, split_, data, -, -, outcome⟩ := short.took
        have last : ends inbox = ends rest := by
          rw [split_]
          exact ends_append data _
        rw [last]
        cases rest with
        | nil =>
            rcases outcome with ⟨no, -⟩ | ⟨e, same, ret⟩
            · cases no
            · injection same with same
              subst same
              simp only [doReadAux, ReadBuffer.hungry, hungry, decide_true, if_true, ret, ends]
              exact ⟨rfl, by simp⟩
        | cons r rest =>
            rcases outcome with ⟨same, ret⟩ | ⟨e, same, ret⟩
            · have here : r = .eof := same
              subst here
              simp only [doReadAux, ReadBuffer.hungry, hungry, decide_true, if_true, ret, ends]
              exact ⟨rfl, rfl⟩
            · have here : r = .err e := same
              subst here
              simp only [doReadAux, ReadBuffer.hungry, hungry, decide_true, if_true, ret, ends]
              cases e with
              | eagain => exact ⟨rfl, by simp⟩
              | eintr => exact ⟨rfl, rfl⟩
              | econnreset => exact ⟨rfl, rfl⟩
              | ebadf => exact ⟨rfl, rfl⟩
              | other code => exact ⟨rfl, rfl⟩

theorem doRead_ends (cfg : Config) (g : Globals) {h : Handler} (inbox : List RecvResult)
    (sound : Sound h) :
    (h.doRead cfg g inbox).2.io = (if ends inbox then h.over else h.io) ∧
      (h.doRead cfg g inbox).1.activeDescriptors =
        g.activeDescriptors - (if ends inbox then 1 else 0) :=
  doReadAux_ends cfg _ g sound (Nat.lt_add_one _)

end Handler

/-! ## What is queued behind it -/

/-- The messages that are answered. -/
def Answers (message : UInt8 × List UInt8) : Prop :=
  message = (REGISTER, []) ∨ (message.1 = BITCOIN_PACKED_MESSAGE ∧ message.2 ≠ []) ∨
    (message.1 = COMMAND ∧ message.2 ≠ [] ∧ command message.2 = COMMAND_GET_CXN)

instance (message : UInt8 × List UInt8) : Decidable (Answers message) :=
  inferInstanceAs (Decidable (_ ∨ _))

theorem be_ne_nil (n : Nat) : be 4 n ≠ [] := by
  intro empty
  have length := congrArg List.length empty
  simp at length

/-- An answer has bytes exactly if the message is one of these. -/
theorem Answered.ne_nil_iff {message : UInt8 × List UInt8} {bytes : List UInt8}
    (answered : Answered message bytes) : bytes ≠ [] ↔ Answers message := by
  cases answered with
  | renamed regid => exact ⟨fun _ => Or.inl rfl, fun _ => be_ne_nil _⟩
  | registered some_ id _ =>
      exact ⟨fun _ => Or.inr (Or.inl ⟨rfl, some_⟩), fun _ => be_ne_nil _⟩
  | listed some_ asked g =>
      refine ⟨fun _ => Or.inr (Or.inr ⟨rfl, some_, asked⟩), fun _ empty => ?_⟩
      have length := congrArg List.length empty
      simp [Globals.connections] at length
  | silent register packed asked =>
      refine ⟨fun no => absurd rfl no, ?_⟩
      rintro (same | same | same)
      · exact absurd ⟨congrArg Prod.fst same, congrArg Prod.snd same⟩ register
      · exact absurd same packed
      · exact absurd same asked

/-- From one handler to the other messages were taken in and answered, and nothing sent. -/
structure Took (h h' : Handler) (new : List (UInt8 × List UInt8)) : Prop where
  seen : h'.seen = h.seen ++ new
  sent : h'.sent = h.sent
  replies : ∃ answers, List.Forall₂ Answered new answers ∧
    h'.replies.flatten = h.replies.flatten ++ answers.flatten

namespace Took

theorem nothing {h h' : Handler} (seen : h'.seen = h.seen) (sent : h'.sent = h.sent)
    (replies : h'.replies = h.replies) : Took h h' [] :=
  ⟨by rw [seen, List.append_nil], sent, [], .nil, by rw [replies]; simp⟩

theorem trans {a b c : Handler} {new new' : List (UInt8 × List UInt8)} (first : Took a b new)
    (second : Took b c new') : Took a c (new ++ new') := by
  obtain ⟨answers, each, bytes⟩ := first.replies
  obtain ⟨answers', each', bytes'⟩ := second.replies
  refine ⟨?_, second.sent.trans first.sent, answers ++ answers', List.rel_append each each', ?_⟩
  · rw [second.seen, first.seen, List.append_assoc]
  · rw [bytes', bytes, List.flatten_append, List.append_assoc]

/-- One round of `do_read`. -/
theorem of_adds {h h' : Handler} (adds : Adds h h') (sent : h'.sent = h.sent) :
    ∃ new, Took h h' new := by
  rcases adds with ⟨seen, replies⟩ | ⟨message, answer, answered, seen, replies⟩
  · exact ⟨[], nothing seen sent replies⟩
  · exact ⟨[message], seen, sent, [answer], .cons answered .nil, by
      rw [replies, List.flatten_singleton]⟩

end Took

/-- Some answer has bytes exactly if some message is answered. -/
theorem answers_flatten_ne_nil {new : List (UInt8 × List UInt8)} {answers : List (List UInt8)}
    (each : List.Forall₂ Answered new answers) :
    answers.flatten ≠ [] ↔ ∃ message ∈ new, Answers message := by
  induction each with
  | nil => simp
  | cons answered _ ih =>
      rw [List.flatten_cons, ne_eq, List.append_eq_nil_iff, not_and_or, ← ne_eq, ← ne_eq,
        answered.ne_nil_iff, ih]
      simp

namespace Handler

theorem Reading.took {cfg : Config} {g g' : Globals} {h h' : Handler} {inbox : List RecvResult}
    (reading : Reading cfg g h inbox g' h') (sound : Sound h) : ∃ new, Took h h' new := by
  induction reading with
  | blocked => exact ⟨[], .nothing rfl rfl rfl⟩
  | ended => exact ⟨[], .nothing rfl rfl rfl⟩
  | @round g h inbox bytes g' h' valid full next ih =>
      obtain ⟨new, first⟩ := Took.of_adds (round_adds cfg g sound valid full) (process_sent ..)
      obtain ⟨new', later⟩ := ih (round_processed cfg g sound valid full).sound
      have start : Took h (h.filled (h.readQueue.fill inbox)) [] := .nothing rfl rfl rfl
      exact ⟨_, (start.trans first).trans later⟩

/-- The frames that the bytes of the inbox complete. -/
def completed (h : Handler) (inbox : List RecvResult) : List (List UInt8) :=
  (controls.parse (h.readQueue.held ++ stream (leading inbox))).1

/-- The messages `do_read` takes in are the frames it completes. -/
theorem seen_completed {h h' : Handler} {inbox : List RecvResult} (settled : Settled h)
    (read : Read h h' inbox) : h'.seen = h.seen ++ (h.completed inbox).map content := by
  obtain ⟨frames, complete, seen, got⟩ := settled.sound.whole
  obtain ⟨frames', complete', seen', got'⟩ := read.sound.whole
  obtain ⟨fresh, tail, whole⟩ :=
    controls.parse_spec (h.readQueue.held ++ stream (leading inbox))
  rw [settled.dry, List.append_nil] at got
  rw [read.unread, List.append_nil, read.got, got, List.append_assoc, ← whole,
    ← List.append_assoc, ← List.flatten_append] at got'
  -- both sides cut the same bytes into complete frames and an incomplete tail
  have cut : ∀ f ∈ frames ++ h.completed inbox, controls.Complete f := by
    intro f member
    rcases List.mem_append.1 member with old | new
    · exact complete f old
    · exact fresh f new
  have first := controls.parse_flatten_append cut tail
  have second := controls.parse_flatten_append complete' read.sound.phase.incomplete
  rw [← got'] at second
  have same : frames ++ h.completed inbox = frames' :=
    congrArg Prod.fst (first.symm.trans second)
  rw [seen', ← same, List.map_append, ← seen]

/-- What is queued behind `do_read`: what was, and the answers. -/
theorem doRead_queued (cfg : Config) (g : Globals) {h : Handler} (settled : Settled h)
    (inbox : List RecvResult) :
    (h.doRead cfg g inbox).2.writeQueue.toWrite ≠ 0 ↔
      h.writeQueue.toWrite ≠ 0 ∨ ∃ f ∈ h.completed inbox, Answers (content f) := by
  have reading := doRead_reading cfg g inbox settled.sound
  have read := reading.read settled.sound
  obtain ⟨new, took⟩ := reading.took settled.sound
  obtain ⟨answers, each, replies⟩ := took.replies
  have messages : new = (h.completed inbox).map content := by
    have seen := seen_completed settled read
    rw [took.seen] at seen
    exact List.append_cancel_left seen
  have bytes : (h.doRead cfg g inbox).2.writeQueue.pending =
      h.writeQueue.pending ++ answers.flatten := by
    have queued := read.sound.queued
    rw [replies, ← settled.sound.queued, took.sent, List.append_assoc] at queued
    exact List.append_cancel_left queued
  rw [ne_eq, read.sound.writes.toWrite_eq_zero, bytes, List.append_eq_nil_iff, not_and_or,
    ← settled.sound.writes.toWrite_eq_zero, ← ne_eq, ← ne_eq, answers_flatten_ne_nil each,
    messages]
  simp

/-! ## Counting down -/

/-- The descriptor is open. -/
def isOpen (h : Handler) : Bool := decide (0 ≤ h.io.fd)

/-- A watcher is started exactly while its descriptor is open. -/
def Attached (h : Handler) : Prop := h.io.active = h.isOpen

/-- From one state to another the count goes down with the descriptor, and by `extra`. -/
structure Counted (r : Globals × Handler) (extra : Nat) (r' : Globals × Handler) : Prop where
  attached : Attached r'.2
  count : r'.1.activeDescriptors + extra + (if r.2.isOpen then 1 else 0) =
    r.1.activeDescriptors + (if r'.2.isOpen then 1 else 0)

theorem Counted.trans {a b c : Globals × Handler} {m n : Nat} (first : Counted a m b)
    (second : Counted b n c) : Counted a (m + n) c := by
  have early := first.count
  have late := second.count
  exact ⟨second.attached, by push_cast; omega⟩

/-- Nothing happens to the watcher and the count. -/
theorem counted_same {r r' : Globals × Handler} (attached : Attached r.2) (io : r'.2.io = r.2.io)
    (count : r'.1.activeDescriptors = r.1.activeDescriptors) : Counted r 0 r' := by
  have still : r'.2.isOpen = r.2.isOpen := by rw [isOpen, isOpen, io]
  exact ⟨by rw [Attached, still, io]; exact attached, by rw [still, count]; simp⟩

/-- `suicide` of a connection that is open, or was over already. -/
theorem counted_over (r r' : Globals × Handler) (io : r'.2.io = r.2.over)
    (count : r'.1.activeDescriptors = r.1.activeDescriptors - 1) :
    Counted r (if r.2.isOpen then 0 else 1) r' := by
  have shut : r'.2.isOpen = false := by
    rw [isOpen, io]
    rfl
  refine ⟨by rw [Attached, shut, io]; rfl, ?_⟩
  rw [shut, count]
  split <;> simp

/-- The reading half. -/
theorem doRead_counted (cfg : Config) (g : Globals) {h : Handler} (inbox : List RecvResult)
    (sound : Sound h) (attached : Attached h) (opened : h.isOpen = true) :
    Counted (g, h) 0 (h.doRead cfg g inbox) ∧
      (h.doRead cfg g inbox).2.isOpen = !ends inbox := by
  obtain ⟨io, count⟩ := doRead_ends cfg g inbox sound
  cases gone : ends inbox with
  | false =>
      rw [gone] at io count
      refine ⟨counted_same attached io (by rw [count]; simp), ?_⟩
      rw [isOpen, io]
      exact opened
  | true =>
      rw [gone] at io count
      have counted := counted_over (g, h) _ io count
      rw [if_pos opened] at counted
      refine ⟨counted, ?_⟩
      rw [isOpen, io]
      rfl

/-- The writing half: a closed descriptor counts down again if there is something to
write. -/
theorem doWrite_counted (cfg : Config) (g : Globals) {h : Handler} (writes : h.writeQueue.Valid)
    (attached : Attached h) (outbox : List WriteResult) :
    Counted (g, h) (if h.isOpen = false ∧ h.writeQueue.toWrite ≠ 0 then 1 else 0)
      (h.doWrite cfg g outbox) := by
  by_cases empty : h.writeQueue.toWrite = 0
  · rw [if_neg (fun both => both.2 empty)]
    apply counted_same attached
    · simp only [doWrite, WriteBuffer.flush_empty empty, empty, if_true]
    · simp only [doWrite, WriteBuffer.flush_empty empty, empty, if_true]
  · by_cases opened : h.isOpen = true
    · rw [if_neg (by simp [opened])]
      have counted := counted_over (g, h)
      simp only [opened, if_true] at counted
      unfold doWrite
      simp only
      split
      · apply counted_same attached
        · split <;> rfl
        · rfl
      · exact counted _ rfl rfl
      · apply counted_same attached
        · split <;> rfl
        · rfl
    · have closed : h.io.fd < 0 := by
        simp only [isOpen, decide_eq_true_eq] at opened
        omega
      obtain ⟨ret, -⟩ := WriteBuffer.flush_closed closed outbox writes empty
      rw [if_pos ⟨by simpa using opened, empty⟩]
      have counted := counted_over (g, h)
      simp only [opened] at counted
      simp only [doWrite, ret]
      exact counted _ rfl rfl

/-! ## The callback -/

/-- The client is gone in a callback that may write as well, and a reply is queued: it was
before, or the last messages of the client are answered. -/
def CountsTwice (h : Handler) (revents : Events) (inbox : List RecvResult) : Prop :=
  revents.read = true ∧ revents.write = true ∧ ends inbox = true ∧
    (h.writeQueue.toWrite ≠ 0 ∨ ∃ f ∈ h.completed inbox, Answers (content f))

instance (h : Handler) (revents : Events) (inbox : List RecvResult) :
    Decidable (h.CountsTwice revents inbox) := inferInstanceAs (Decidable (_ ∧ _))

/-- What a callback does to the count. -/
theorem ioCb_counted (cfg : Config) (g : Globals) {h : Handler} (settled : Settled h)
    (attached : Attached h) (opened : h.isOpen = true) (revents : Events)
    (inbox : List RecvResult) (outbox : List WriteResult) :
    Counted (g, h) (if h.CountsTwice revents inbox then 1 else 0)
      (h.ioCb cfg g revents inbox outbox) := by
  have called := ioCb_called cfg g h revents inbox outbox
  generalize h.ioCb cfg g revents inbox outbox = result at called ⊢
  obtain ⟨r, w, read, write⟩ := called
  -- the reading half leaves a sound connection, open unless the client is gone
  have taken : Sound r.2 ∧ Counted (g, h) 0 r ∧
      (r.2.isOpen = false ∧ r.2.writeQueue.toWrite ≠ 0 ↔ revents.read = true ∧ ends inbox = true ∧
        (h.writeQueue.toWrite ≠ 0 ∨ ∃ f ∈ h.completed inbox, Answers (content f))) := by
    rcases read with ⟨-, readable, rfl⟩ | ⟨idle, rfl⟩
    · obtain ⟨counted, still⟩ := doRead_counted cfg g inbox settled.sound attached opened
      refine ⟨((doRead_reading cfg g inbox settled.sound).read settled.sound).sound, counted, ?_⟩
      rw [still, doRead_queued cfg g settled inbox]
      simp [readable]
    · have unreadable : ¬ revents.read = true :=
        fun readable => idle ⟨settled.sound.phase.busy, readable⟩
      exact ⟨settled.sound, counted_same attached rfl rfl, by simp [unreadable, opened]⟩
  obtain ⟨sound, counted, shut⟩ := taken
  rw [asserted_of_sound sound] at write
  have wrote : Counted (g, h) (if h.CountsTwice revents inbox then 1 else 0) w := by
    rcases write with ⟨writable, rfl⟩ | ⟨quiet, rfl⟩
    · have all := counted.trans
        (doWrite_counted cfg r.1 sound.writes counted.attached outbox)
      have twice : h.CountsTwice revents inbox ↔
          r.2.isOpen = false ∧ r.2.writeQueue.toWrite ≠ 0 := by
        rw [shut, CountsTwice]
        simp [writable]
      simp only [twice]
      rw [Nat.zero_add] at all
      exact all
    · have once : ¬ h.CountsTwice revents inbox := by
        rintro ⟨-, writable, -⟩
        rw [quiet] at writable
        cases writable
      rw [if_neg once]
      exact counted
  by_cases changed : w.2.state ≠ h.state
  · rw [if_pos changed]
    exact ⟨wrote.attached, wrote.count⟩
  · rw [if_neg changed]
    exact wrote

end Handler

/-! ## Every run -/

namespace Plane

/-- The number of control connections with an open descriptor. -/
def openDescriptors (p : Plane) : Nat := count Handler.isOpen p.connections

/-- The event is no callback that counts its connection down twice. -/
def CountsOnce (p : Plane) : PlaneEvent → Prop
  | .callback k revents inbox _ => ∀ h, p.connections[k]? = some h → h.io.active = true →
      ¬ h.CountsTwice revents inbox
  | _ => True

/-- The connections are as their callbacks leave them, and the count is `n` too low. -/
structure Short (p : Plane) (n : Nat) : Prop where
  consistent : p.Consistent
  attached : ∀ (k : Nat) (h : Handler), p.connections[k]? = some h → h.Attached
  count : p.globals.activeDescriptors + n = p.openDescriptors

theorem Short.accepted {p : Plane} {n : Nat} (short : Short p n) (fd : Nat) (regid : UInt32) :
    Short (p.accept fd regid) n := by
  have consistent := (short.consistent.opened fd regid).deleted
  have attached : ∀ (k : Nat) (h : Handler),
      (p.connections.insert p.accepted (Handler.new fd p.idPool regid))[k]? = some h →
      h.Attached := by
    intro k h there
    rcases insert_cases there with ⟨-, rfl⟩ | old
    · simp [Handler.Attached, Handler.isOpen, Handler.new, Io.startOn]
    · exact short.attached k h old
  have fresh : p.connections[p.accepted]? = none := by
    cases found : p.connections[p.accepted]? with
    | none => rfl
    | some h => exact absurd (short.consistent.older _ h found) (Nat.lt_irrefl _)
  refine ⟨consistent, ?_, ?_⟩
  · intro k h there
    rw [accept, deleteInactive, TreeMap.getElem?_filter'] at there
    exact attached k h (Option.filter_eq_some_iff.1 there).1
  · -- the connections that are deleted have no descriptor
    have kept : (p.accept fd regid).openDescriptors = p.openDescriptors + 1 := by
      rw [openDescriptors, accept, deleteInactive, count_filter, count_insert_new fresh]
      · rfl
      · intro k h there opened
        rw [attached k h there]
        exact opened
    have count : (p.accept fd regid).globals.activeDescriptors =
        p.globals.activeDescriptors + 1 := rfl
    have before := short.count
    rw [kept, count]
    push_cast
    omega

theorem Short.calledBack {p : Plane} {n : Nat} (short : Short p n) (cfg : Config) (k : Nat)
    (revents : Events) (inbox : List RecvResult) (outbox : List WriteResult) :
    ∃ d, Short (p.callback cfg k revents inbox outbox) (n + d) ∧
      (d = 0 ↔ p.CountsOnce (.callback k revents inbox outbox)) := by
  have consistent := short.consistent.callback cfg k revents inbox outbox
  unfold callback at consistent ⊢
  cases here : p.connections[k]? with
  | none =>
      refine ⟨0, short, fun _ => ?_, fun _ => rfl⟩
      intro h found
      rw [here] at found
      cases found
  | some h =>
      rw [here] at consistent
      by_cases started : h.io.active = true
      · simp only [started, if_true] at consistent ⊢
        have attached := short.attached k h here
        have opened : h.isOpen = true := attached.symm.trans started
        have counted := Handler.ioCb_counted cfg p.globals (short.consistent.settled k h here)
          attached opened revents inbox outbox
        refine ⟨if h.CountsTwice revents inbox then 1 else 0, ⟨consistent, ?_, ?_⟩, ?_⟩
        · intro k' h' there
          rcases insert_cases there with ⟨-, rfl⟩ | old
          · exact counted.attached
          · exact short.attached k' h' old
        · have before := short.count
          have change := counted.count
          have traded : Theory.Tables.count Handler.isOpen (p.connections.insert k
              (h.ioCb cfg p.globals revents inbox outbox).2) + _ = _ := count_insert_over here _
          simp only [openDescriptors] at before ⊢
          simp only [opened, if_true] at change traded
          cases still : (h.ioCb cfg p.globals revents inbox outbox).2.isOpen with
          | false =>
              rw [still, if_neg Bool.false_ne_true] at change traded
              omega
          | true =>
              rw [still, if_pos rfl] at change traded
              omega
        · constructor
          · intro none_ h' found _
            rw [here] at found
            cases found
            intro twice
            rw [if_pos twice] at none_
            cases none_
          · intro once
            rw [if_neg (once h here started)]
      · simp only [started] at consistent ⊢
        refine ⟨0, short, fun _ => ?_, fun _ => rfl⟩
        intro h' found active
        rw [here] at found
        cases found
        exact absurd active started

theorem Short.step {p : Plane} {n : Nat} (cfg : Config) (e : PlaneEvent) (short : Short p n) :
    ∃ d, Short (p.step cfg e) (n + d) ∧ (d = 0 ↔ p.CountsOnce e) := by
  cases e with
  | accept fd regid => exact ⟨0, short.accepted fd regid, fun _ => trivial, fun _ => rfl⟩
  | callback k revents inbox outbox => exact short.calledBack cfg k revents inbox outbox
  | peers activeHandlers inactiveHandlers idPool lastBlock blacklist attempts =>
      refine ⟨0, ⟨?_, short.attached, short.count⟩, fun _ => trivial, fun _ => rfl⟩
      exact step_consistent cfg p
        (.peers activeHandlers inactiveHandlers idPool lastBlock blacklist attempts)
        short.consistent

end Plane

/-- In every run of the control connections, `g_active_descriptors` is the number of
connections with an open descriptor exactly if no callback of the run finds its client gone
while it may write and has a reply queued. -/
theorem descriptors_exact_iff (cfg : Config) (blacklist : SockaddrStorage → Bool)
    (tape : Nat → Outside) (events : List PlaneEvent) (p : Plane)
    (reached : p = run (Plane.step cfg) (Plane.start blacklist tape) events) :
    p.globals.activeDescriptors = p.openDescriptors ↔
      Along (Plane.step cfg) Plane.CountsOnce (Plane.start blacklist tape) events := by
  have start : Plane.Short (Plane.start blacklist tape) 0 := by
    refine ⟨Plane.start_consistent blacklist tape, ?_, rfl⟩
    intro k h found
    rw [Plane.start, TreeMap.getElem?_emptyc] at found
    cases found
  obtain ⟨d, short, exact_⟩ := run_counts (fun p e n here => here.step cfg e) start events
  rw [← reached] at short
  rw [← exact_]
  have count := short.count
  omega

/-- A client registers and is gone before the reply is written. -/
def someGone : List PlaneEvent :=
  [.accept 6 5, .callback 0 Events.READ Plane.someRegister [],
    .callback 0 ⟨true, true⟩ [.eof] []]

/-- The same, but the reply was written in between. -/
def someServed : List PlaneEvent :=
  [.accept 6 5, .callback 0 Events.READ Plane.someRegister [],
    .callback 0 Events.WRITE [] [.accept 4], .callback 0 ⟨true, true⟩ [.eof] []]

theorem descriptors_exact_iff_served :
    (run (Plane.step Connector.someConfig) (Plane.start (fun _ => false) fun _ => someOutside)
        someServed).globals.activeDescriptors = 0 ∧
      Along (Plane.step Connector.someConfig) Plane.CountsOnce
        (Plane.start (fun _ => false) fun _ => someOutside) someServed := by
  have zero : (run (Plane.step Connector.someConfig)
      (Plane.start (fun _ => false) fun _ => someOutside)
      someServed).globals.activeDescriptors = 0 := by decide +kernel
  refine ⟨zero, (descriptors_exact_iff Connector.someConfig (fun _ => false)
    (fun _ => someOutside) someServed _ rfl).1 ?_⟩
  rw [zero]
  decide +kernel

/-- With no connection open the count is below zero. -/
theorem descriptors_gone_negative :
    (run (Plane.step Connector.someConfig) (Plane.start (fun _ => false) fun _ => someOutside)
        someGone).openDescriptors = 0 ∧
      (run (Plane.step Connector.someConfig) (Plane.start (fun _ => false) fun _ => someOutside)
        someGone).globals.activeDescriptors = -1 := by
  decide +kernel

end Coinscope.Control

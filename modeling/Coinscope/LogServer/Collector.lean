/-
# LogServer.Collector -- records fanned out to the consumers that want them

`collector::append` puts a record on the queue of every output connection whose
interests meet the record's type byte, wakes that connection, and deletes the
connections whose queue has grown past `logger.max_buffer`.  An output connection
writes one record at a time: when its write queue is empty it pops the oldest
record, frames it with its length and source, and waits for the next WRITE event.

* `Consumer` -- an `output_cxn::handler`, the collector's queue for it, and what
  its socket has accepted.  The two exist together: the constructor registers
  the handler and the destructor retires it.
* `Consumer.remainder` -- what the consumer is owed: its write queue, then its
  queued records.
* `Consumer.ioCb_good`, `Consumer.offer_owed` -- a callback moves bytes from the
  remainder to the socket, an append extends the remainder by one frame.
* `delivered_in_order` -- the whole-run statement.
-/
import Coinscope.Shared.WriteBuffer
import Coinscope.Theory.Runs

namespace Coinscope.LogServer

open Coinscope.Shared
open Coinscope.Theory.Bytes
open Coinscope.Theory.Runs

set_option autoImplicit false

/-! ## Queues -/

/-- `struct sized_buffer`: the first `len` bytes of `buffer` are the record. -/
structure SizedBuffer where
  buffer : List UInt8
  len : Nat
  sourceId : UInt32
  deriving DecidableEq

/-- `struct sized_buffer_queue`, front of the deque first. -/
structure SizedBufferQueue where
  queue : List SizedBuffer
  totalSize : Nat
  deriving DecidableEq

namespace SizedBufferQueue

def new : SizedBufferQueue := ⟨[], 0⟩

/-- The two lines of `collector::append` that touch one queue. -/
def pushFront (q : SizedBufferQueue) (p : SizedBuffer) : SizedBufferQueue :=
  ⟨p :: q.queue, q.totalSize + p.len⟩

/-- `collector::pop`: the back of the deque, or the empty `sized_buffer()`. -/
def pop (q : SizedBufferQueue) : SizedBuffer × SizedBufferQueue :=
  match q.queue.getLast? with
  | some p => (p, ⟨q.queue.dropLast, q.totalSize - p.len⟩)
  | none => (⟨[], 0, 0⟩, q)

end SizedBufferQueue

/-! ## Output connections -/

/-- `class output_cxn::handler`. -/
structure OutputCxn where
  interests : UInt8
  events : Events
  writeQueue : WriteBuffer
  io : Io
  deriving DecidableEq

namespace OutputCxn

/-- `handler(fd, interests)`: registered for no event, and started. -/
def new (fd : Int) (interests : UInt8) : OutputCxn where
  interests := interests
  events := Events.none
  writeQueue := WriteBuffer.new
  io := Io.startOn fd Events.none

/-- `interested(x)`. -/
def interested (h : OutputCxn) (x : UInt8) : Bool := x &&& h.interests != 0

/-- `set_events(events)`. -/
def setEvents (h : OutputCxn) (events : Events) : OutputCxn :=
  if events ≠ h.events then { h with events := events, io := (h.io.set events).start } else h

/-- The three appends that frame a popped record. -/
def enqueue (h : OutputCxn) (p : SizedBuffer) : OutputCxn :=
  let withLen := h.writeQueue.append (be 4 (p.len + 4))
  let withId := withLen.append (be 4 p.sourceId.toNat)
  { h with writeQueue := withId.appendShared p.buffer p.len }

end OutputCxn

/-- An output connection, its queue in the collector, and the bytes the kernel
has accepted on its descriptor. -/
structure Consumer where
  handler : OutputCxn
  queue : SizedBufferQueue
  sent : List UInt8
  deriving DecidableEq

namespace Consumer

/-- `suicide()` followed by the `return` behind it; `none` is a deleted handler. -/
def suicide (k : Consumer) : Option Consumer := if k.handler.io.fd ≥ 0 then none else some k

/-- The end of `io_cb`: with nothing left to write, take the next record, or
stop the watcher when there is none. -/
def refill (k : Consumer) : Consumer :=
  if k.handler.writeQueue.toWrite = 0 then
    let popped := k.queue.pop
    if popped.1.len ≠ 0 then
      { k with handler := k.handler.enqueue popped.1, queue := popped.2 }
    else
      { k with
        handler := { k.handler with
          events := Events.none, io := (k.handler.io.set Events.none).stop }
        queue := popped.2 }
  else k

/-- `output_cxn::handler::io_cb`. -/
def ioCb (k : Consumer) (revents : Events) (outbox : List WriteResult) : Option Consumer :=
  if revents.write then
    let s := WriteBuffer.flush k.handler.io.fd outbox k.handler.writeQueue
    let k := { k with handler := { k.handler with writeQueue := s.queue }, sent := k.sent ++ s.put }
    match s.ret with
    | .fail .eagain | .fail .eintr => some k.refill
    | .fail _ => k.suicide
    | .count 0 => k.suicide
    | .count (_ + 1) => some k.refill
  else some k

/-- The body of the loop in `collector::append`, for one consumer. -/
def offer (k : Consumer) (p : SizedBuffer) : Consumer :=
  if k.handler.interested (p.buffer.headD 0) then
    { k with
      queue := k.queue.pushFront p
      handler := k.handler.setEvents (k.handler.events.union Events.WRITE) }
  else k

/-- Marked for deletion by `collector::append`: this record was queued for it and
its queue is now too long. -/
def morose (maxBuffer : Nat) (p : SizedBuffer) (k : Consumer) : Bool :=
  k.handler.interested (p.buffer.headD 0) && k.queue.totalSize > maxBuffer

end Consumer

/-! ## The server -/

/-- A record an input connection hands over: not empty, inside its buffer, and
short enough for its framed length to fit 32 bits. -/
structure Record where
  buffer : List UInt8
  len : Nat
  some : 0 < len
  inside : len ≤ buffer.length
  short : len < 2 ^ 32 - 4

/-- The consumers by the address of their handler. -/
structure Collector where
  queues : Std.TreeMap Nat Consumer

namespace Collector

def new : Collector := ⟨{}⟩

/-- `collector::append(data, len, source_id)`. -/
def append (maxBuffer : Nat) (s : Collector) (p : SizedBuffer) : Collector :=
  ⟨(s.queues.map fun _ k => k.offer p).filter fun _ k => !k.morose maxBuffer p⟩

end Collector

/-- What can happen to the log server, as far as its consumers see. -/
inductive Event where
  | append (record : Record) (sourceId : UInt32)
  | join (c : Nat) (fd : Nat) (interests : UInt8)
  | ioCb (c : Nat) (revents : Events) (outbox : List WriteResult)

def Record.toSized (r : Record) (sourceId : UInt32) : SizedBuffer := ⟨r.buffer, r.len, sourceId⟩

/-- One event.  A new handler never has the address of a live one. -/
def Collector.step (maxBuffer : Nat) (s : Collector) : Event → Collector
  | .append record sourceId => s.append maxBuffer (record.toSized sourceId)
  | .join c fd interests =>
      ⟨s.queues.insertIfNew c ⟨OutputCxn.new fd interests, SizedBufferQueue.new, []⟩⟩
  | .ioCb c revents outbox =>
      ⟨s.queues.alter c fun k => k.bind fun k => k.ioCb revents outbox⟩

/-! ## What a consumer is owed -/

/-- A record as it goes out: `be32(len + 4)`, `be32(source_id)`, the bytes. -/
def frame (p : SizedBuffer) : List UInt8 :=
  be 4 (p.len + 4) ++ be 4 p.sourceId.toNat ++ p.buffer.take p.len

namespace SizedBufferQueue

/-- The count is the sum of the queued lengths, and every entry is a record. -/
structure Valid (q : SizedBufferQueue) : Prop where
  total : q.totalSize = (q.queue.map SizedBuffer.len).sum
  records : ∀ p ∈ q.queue, 0 < p.len ∧ p.len ≤ p.buffer.length

/-- The queued records as they will go out, oldest first. -/
def outgoing (q : SizedBufferQueue) : List UInt8 := q.queue.reverse.flatMap frame

theorem new_valid : new.Valid := ⟨rfl, by simp [new]⟩

theorem Valid.pushFront {q : SizedBufferQueue} (valid : q.Valid) {p : SizedBuffer}
    (some_ : 0 < p.len) (inside : p.len ≤ p.buffer.length) : (q.pushFront p).Valid := by
  constructor
  · simp only [SizedBufferQueue.pushFront, List.map_cons, List.sum_cons, valid.total]
    omega
  · intro r member
    rcases List.mem_cons.1 member with rfl | older
    · exact ⟨some_, inside⟩
    · exact valid.records r older

theorem pushFront_outgoing (q : SizedBufferQueue) (p : SizedBuffer) :
    (q.pushFront p).outgoing = q.outgoing ++ frame p := by
  simp [outgoing, pushFront]

/-- Popping a valid queue: it was empty, or its oldest record comes off. -/
theorem Valid.pop_cases {q : SizedBufferQueue} (valid : q.Valid) :
    (q.pop = (⟨[], 0, 0⟩, q) ∧ q.outgoing = []) ∨
      (0 < q.pop.1.len ∧ q.pop.1.len ≤ q.pop.1.buffer.length ∧ q.pop.2.Valid ∧
        q.outgoing = frame q.pop.1 ++ q.pop.2.outgoing) := by
  rcases List.eq_nil_or_concat q.queue with empty | ⟨newer, oldest, split⟩
  · left
    simp [pop, outgoing, empty]
  · right
    have last : q.queue.getLast? = some oldest := by simp [split]
    have rest : q.queue.dropLast = newer := by simp [split]
    have oldestIsRecord := valid.records oldest (by simp [split])
    have total := valid.total
    simp only [split, List.concat_eq_append, List.map_append, List.sum_append, List.map_cons,
      List.map_nil, List.sum_cons, List.sum_nil] at total
    simp only [pop, last, rest]
    refine ⟨oldestIsRecord.1, oldestIsRecord.2, ⟨?_, ?_⟩, ?_⟩
    · simp only; omega
    · exact fun r member => valid.records r (by simp [split, member])
    · simp [outgoing, split]

end SizedBufferQueue

namespace OutputCxn

/-- The watcher follows `events`, and is running whenever it waits for WRITE. -/
structure Registered (h : OutputCxn) : Prop where
  same : h.io.events = h.events
  running : h.events.write = true → h.io.active = true

theorem new_registered (fd : Int) (interests : UInt8) : (new fd interests).Registered :=
  ⟨rfl, by simp [new, Events.none]⟩

theorem setEvents_registered {h : OutputCxn} (registered : h.Registered) (events : Events) :
    (h.setEvents events).Registered ∧ (h.setEvents events).events = events := by
  unfold setEvents
  split
  · exact ⟨⟨rfl, fun _ => rfl⟩, rfl⟩
  · rename_i same
    exact ⟨registered, by simpa using Eq.symm (not_not.1 same)⟩

@[simp] theorem setEvents_writeQueue (h : OutputCxn) (events : Events) :
    (h.setEvents events).writeQueue = h.writeQueue := by unfold setEvents; split <;> rfl

@[simp] theorem setEvents_interests (h : OutputCxn) (events : Events) :
    (h.setEvents events).interests = h.interests := by unfold setEvents; split <;> rfl

theorem enqueue_pending (h : OutputCxn) (p : SizedBuffer) :
    (h.enqueue p).writeQueue.pending = h.writeQueue.pending ++ frame p := by
  simp [enqueue, frame]

theorem enqueue_valid {h : OutputCxn} (valid : h.writeQueue.Valid) {p : SizedBuffer}
    (some_ : 0 < p.len) (inside : p.len ≤ p.buffer.length) : (h.enqueue p).writeQueue.Valid := by
  have withLen := valid.append (show 0 < (be 4 (p.len + 4)).length by simp)
  have withId := withLen.append (show 0 < (be 4 p.sourceId.toNat).length by simp)
  exact withId.appendShared some_ inside

end OutputCxn

namespace Consumer

/-- Bytes of the records queued for the consumer that its socket has not taken:
first what its write queue holds, then the collector's queue. -/
def remainder (k : Consumer) : List UInt8 := k.handler.writeQueue.pending ++ k.queue.outgoing

/-- Everything queued for the consumer so far. -/
def owed (k : Consumer) : List UInt8 := k.sent ++ k.remainder

structure Good (k : Consumer) : Prop where
  write : k.handler.writeQueue.Valid
  queue : k.queue.Valid
  registered : k.handler.Registered
  awake : k.remainder ≠ [] → k.handler.events.write = true

theorem new_good (fd : Int) (interests : UInt8) :
    Good ⟨OutputCxn.new fd interests, SizedBufferQueue.new, []⟩ where
  write := WriteBuffer.new_valid
  queue := SizedBufferQueue.new_valid
  registered := OutputCxn.new_registered fd interests
  awake := fun more => absurd rfl more

/-! ### One append -/

theorem offer_good {k : Consumer} (good : k.Good) {p : SizedBuffer} (some_ : 0 < p.len)
    (inside : p.len ≤ p.buffer.length) : (k.offer p).Good := by
  unfold offer
  split
  · obtain ⟨registered, now⟩ :=
      OutputCxn.setEvents_registered good.registered (k.handler.events.union Events.WRITE)
    refine ⟨by simpa using good.write, good.queue.pushFront some_ inside, registered, ?_⟩
    intro _
    show (k.handler.setEvents _).events.write = true
    rw [now]
    simp [Events.union, Events.WRITE]
  · exact good

@[simp] theorem offer_interests (k : Consumer) (p : SizedBuffer) :
    (k.offer p).handler.interests = k.handler.interests := by
  unfold offer; split <;> simp

/-- An append extends what is owed by the record's frame, if it is of interest. -/
theorem offer_owed (k : Consumer) (p : SizedBuffer) :
    (k.offer p).owed =
      k.owed ++ if k.handler.interested (p.buffer.headD 0) then frame p else [] := by
  unfold offer
  split
  · simp [owed, remainder, SizedBufferQueue.pushFront_outgoing]
  · simp

/-- The test behind the append, in terms of the consumer before it. -/
theorem morose_offer (maxBuffer : Nat) (k : Consumer) (p : SizedBuffer) :
    (k.offer p).morose maxBuffer p =
      (k.handler.interested (p.buffer.headD 0) && k.queue.totalSize + p.len > maxBuffer) := by
  by_cases interested : k.handler.interested (p.buffer.headD 0) = true
  · have same : (k.offer p).handler.interested (p.buffer.headD 0) = true := by
      rw [OutputCxn.interested, offer_interests]
      exact interested
    simp only [morose, same, interested]
    simp only [offer, interested, if_true, SizedBufferQueue.pushFront]
  · simp only [morose, offer, interested, if_false, Bool.false_eq_true]
    simp

/-! ### One callback -/

theorem refill_interests (k : Consumer) : k.refill.handler.interests = k.handler.interests := by
  unfold refill
  split
  · simp only
    split <;> rfl
  · rfl

/-- Taking the next record moves its frame within the remainder; the watcher is
stopped only when nothing remains. -/
theorem refill_good {k : Consumer} (write : k.handler.writeQueue.Valid) (queue : k.queue.Valid)
    (registered : k.handler.Registered) (awake : k.remainder ≠ [] → k.handler.events.write = true) :
    k.refill.Good ∧ k.refill.owed = k.owed := by
  by_cases empty : k.handler.writeQueue.toWrite = 0
  · have drained : k.handler.writeQueue.pending = [] := (write.toWrite_eq_zero).1 empty
    rcases queue.pop_cases with ⟨none_, outgoing⟩ | ⟨some_, inside, rest, outgoing⟩
    · have result : k.refill = { k with handler := { k.handler with
          events := Events.none, io := (k.handler.io.set Events.none).stop } } := by
        simp [refill, empty, none_]
      rw [result]
      refine ⟨⟨write, queue, ⟨rfl, by simp [Events.none]⟩, ?_⟩, rfl⟩
      intro more
      exact absurd (by simp [remainder, drained, outgoing]) more
    · have more : k.remainder ≠ [] := by
        have long : 0 < (frame k.queue.pop.1).length := by simp [frame]
        intro nothing
        rw [remainder, drained, List.nil_append, outgoing] at nothing
        rw [(List.append_eq_nil_iff.1 nothing).1] at long
        exact absurd long (by simp)
      have result : k.refill =
          { k with handler := k.handler.enqueue k.queue.pop.1, queue := k.queue.pop.2 } := by
        simp [refill, empty, Nat.ne_of_gt some_]
      rw [result]
      refine ⟨⟨OutputCxn.enqueue_valid write some_ inside, rest,
        ⟨registered.same, registered.running⟩, fun _ => awake more⟩, ?_⟩
      simp [owed, remainder, OutputCxn.enqueue_pending, drained, outgoing]
  · have result : k.refill = k := by simp [refill, empty]
    rw [result]
    exact ⟨⟨write, queue, registered, awake⟩, rfl⟩

/-- A callback that leaves the consumer alive moves bytes from the remainder to
the socket, and nothing else. -/
theorem ioCb_good {k k' : Consumer} (good : k.Good) {revents : Events} {outbox : List WriteResult}
    (alive : k.ioCb revents outbox = some k') :
    k'.Good ∧ k'.owed = k.owed ∧ k'.handler.interests = k.handler.interests := by
  unfold ioCb at alive
  split at alive
  · obtain ⟨valid, conserved, -⟩ :=
      WriteBuffer.flush_flushed k.handler.io.fd outbox good.write
    generalize WriteBuffer.flush k.handler.io.fd outbox k.handler.writeQueue = s at *
    -- the consumer right after the loop around `do_write`
    let mid : Consumer :=
      { k with handler := { k.handler with writeQueue := s.queue }, sent := k.sent ++ s.put }
    have owed : mid.owed = k.owed := by
      simp [mid, Consumer.owed, remainder, ← conserved]
    have awake : mid.remainder ≠ [] → mid.handler.events.write = true := by
      intro more
      apply good.awake
      intro nothing
      rw [remainder, ← conserved, List.append_assoc] at nothing
      exact more (List.append_eq_nil_iff.1 nothing).2
    have registered : mid.handler.Registered := ⟨good.registered.same, good.registered.running⟩
    have refilled : mid.refill.Good ∧ mid.refill.owed = k.owed ∧
        mid.refill.handler.interests = k.handler.interests := by
      obtain ⟨after, same⟩ := refill_good (k := mid) valid good.queue registered awake
      exact ⟨after, same.trans owed, refill_interests mid⟩
    have spared : mid.suicide = some k' → k'.Good ∧ k'.owed = k.owed ∧
        k'.handler.interests = k.handler.interests := by
      intro h
      unfold suicide at h
      split at h
      · cases h
      · obtain rfl := Option.some.inj h
        exact ⟨⟨valid, good.queue, registered, awake⟩, owed, rfl⟩
    simp only at alive
    split at alive
    · cases alive; exact refilled
    · cases alive; exact refilled
    · exact spared alive
    · exact spared alive
    · cases alive; exact refilled
  · cases alive
    exact ⟨good, rfl, rfl⟩

end Consumer

/-! ## Runs of the server -/

/-- The records among the events that a consumer with these interests wants, as
they go out. -/
def wanted (interests : UInt8) (events : List Event) : List UInt8 :=
  events.flatMap fun
    | .append record sourceId =>
        if record.buffer.headD 0 &&& interests != 0 then frame (record.toSized sourceId) else []
    | .join .. => []
    | .ioCb .. => []

theorem wanted_cons (interests : UInt8) (e : Event) (rest : List Event) :
    wanted interests (e :: rest) = wanted interests [e] ++ wanted interests rest := by
  simp [wanted]

namespace Collector

/-- Consumer `c` is there, in order, and has been queued exactly `expected`. -/
def Serves (s : Collector) (c : Nat) (interests : UInt8) (expected : List UInt8) : Prop :=
  ∃ k, s.queues[c]? = some k ∧ k.Good ∧ k.handler.interests = interests ∧ k.owed = expected

theorem append_getElem? (maxBuffer : Nat) (s : Collector) (p : SizedBuffer) (c : Nat) :
    (s.append maxBuffer p).queues[c]? =
      ((s.queues[c]?).map fun k => k.offer p).filter fun k => !k.morose maxBuffer p := by
  simp only [append]
  grind

theorem join_serves {maxBuffer : Nat} {s : Collector} {c fd : Nat} {interests : UInt8}
    (fresh : c ∉ s.queues) : (s.step maxBuffer (.join c fd interests)).Serves c interests [] := by
  refine ⟨_, ?_, Consumer.new_good fd interests, rfl, rfl⟩
  simp only [step]
  grind

/-- One event, as long as the consumer is still there behind it. -/
theorem step_serves {maxBuffer : Nat} {s : Collector} {c : Nat} {interests : UInt8}
    {expected : List UInt8} (serves : s.Serves c interests expected) (e : Event)
    (stays : c ∈ (s.step maxBuffer e).queues) :
    (s.step maxBuffer e).Serves c interests (expected ++ wanted interests [e]) := by
  obtain ⟨k, here, good, rfl, rfl⟩ := serves
  cases e with
  | append record sourceId =>
      refine ⟨k.offer (record.toSized sourceId), ?_,
        Consumer.offer_good good record.some record.inside, by simp, ?_⟩
      · have there := Std.TreeMap.isSome_getElem?_iff_mem.2 stays
        simp only [step, append_getElem?, here, Option.map_some] at there ⊢
        simpa [Option.filter_some] using there
      · rw [Consumer.offer_owed]
        simp [wanted, OutputCxn.interested, Record.toSized]
  | join d fd interests =>
      refine ⟨k, ?_, good, rfl, by simp [wanted]⟩
      simp only [step]
      grind
  | ioCb d revents outbox =>
      by_cases same : d = c
      · subst same
        have there := Std.TreeMap.isSome_getElem?_iff_mem.2 stays
        have after : (s.step maxBuffer (.ioCb d revents outbox)).queues[d]? =
            k.ioCb revents outbox := by
          simp only [step]
          grind
        rw [after, Option.isSome_iff_exists] at there
        obtain ⟨k', alive⟩ := there
        obtain ⟨good', owed, interests⟩ := Consumer.ioCb_good good alive
        exact ⟨k', after.trans alive, good', interests, by simp [wanted, owed]⟩
      · refine ⟨k, ?_, good, rfl, by simp [wanted]⟩
        simp only [step]
        grind

/-- A run in which the consumer is never removed queues it what it wants of the
run's records, in order. -/
theorem run_serves {maxBuffer : Nat} {s : Collector} {c : Nat} {interests : UInt8}
    {expected : List UInt8} (serves : s.Serves c interests expected) (events : List Event)
    (stays : Along (step maxBuffer) (fun s e => c ∈ (s.step maxBuffer e).queues) s events) :
    (run (step maxBuffer) s events).Serves c interests (expected ++ wanted interests events) := by
  induction events generalizing s expected with
  | nil => simpa [wanted] using serves
  | cons e rest ih =>
      rw [run_cons, wanted_cons, ← List.append_assoc]
      exact ih (step_serves serves e stays.1) stays.2

/-- `append` removes a consumer only when what it has queued for it, this record
included, is more than the limit. -/
theorem append_drops {maxBuffer : Nat} {s : Collector} {c : Nat} {k : Consumer}
    (here : s.queues[c]? = some k) (good : k.Good) (record : Record) (sourceId : UInt32)
    (dropped : c ∉ (s.step maxBuffer (.append record sourceId)).queues) :
    maxBuffer < ((k.queue.queue.map SizedBuffer.len).sum + record.len) := by
  have gone : (s.step maxBuffer (.append record sourceId)).queues[c]? = none := by
    simpa using dropped
  simp only [step, append_getElem?, here, Option.map_some, Option.filter_some] at gone
  have morose : (k.offer (record.toSized sourceId)).morose maxBuffer (record.toSized sourceId) := by
    by_contra content
    simp [content] at gone
  rw [Consumer.morose_offer, good.queue.total] at morose
  simpa [Record.toSized] using (Bool.and_eq_true_iff.1 morose).2

end Collector

open Collector in
/-- Take any run of the server in which `c` joins, not having been there, and is
not removed afterwards.  What its socket has accepted is a prefix of the frames
of the wanted records appended since, in order; the rest of them is its write
queue followed by its queue in the collector; while there is a rest the watcher
is running and set to WRITE; the queue's count is the sum of the queued lengths;
and the next append removes it only for a sum beyond the limit. -/
theorem delivered_in_order (maxBuffer : Nat) (before after : List Event) (c fd : Nat)
    (interests : UInt8) (fresh : c ∉ (run (step maxBuffer) Collector.new before).queues)
    (stays : Along (step maxBuffer) (fun s e => c ∈ (s.step maxBuffer e).queues)
      ((run (step maxBuffer) Collector.new before).step maxBuffer (.join c fd interests)) after) :
    ∃ k, (run (step maxBuffer) Collector.new
        (before ++ .join c fd interests :: after)).queues[c]? = some k ∧
      k.sent <+: wanted interests after ∧
      wanted interests after =
        k.sent ++ (k.handler.writeQueue.pending ++ k.queue.queue.reverse.flatMap frame) ∧
      (k.handler.writeQueue.pending ++ k.queue.queue.reverse.flatMap frame ≠ [] →
        k.handler.io.active = true ∧ k.handler.io.events.write = true) ∧
      k.queue.totalSize = (k.queue.queue.map SizedBuffer.len).sum ∧
      ∀ record sourceId,
        c ∉ ((run (step maxBuffer) Collector.new (before ++ .join c fd interests :: after)).step
          maxBuffer (.append record sourceId)).queues →
        maxBuffer < (k.queue.queue.map SizedBuffer.len).sum + record.len := by
  have whole : run (step maxBuffer) Collector.new (before ++ .join c fd interests :: after) =
      run (step maxBuffer) ((run (step maxBuffer) Collector.new before).step maxBuffer
        (.join c fd interests)) after := by
    rw [run_append, run_cons]
  rw [whole]
  obtain ⟨k, here, good, rfl, owed⟩ := run_serves (join_serves fresh) after stays
  rw [List.nil_append] at owed
  refine ⟨k, here, ⟨k.remainder, owed⟩, owed.symm, ?_, good.queue.total, ?_⟩
  · intro more
    have awake := good.awake more
    exact ⟨good.registered.running awake, good.registered.same ▸ awake⟩
  · intro record sourceId dropped
    exact append_drops here good record sourceId dropped

/-- Two records for consumer 7, the first out in two writes with the second
queued behind it. -/
theorem delivered_in_order_two_records :
    ∃ k, (run (Collector.step 100) Collector.new ([] ++ .join 7 5 3 ::
        [.append ⟨[2, 65, 66], 3, by decide, by decide, by decide⟩ 9,
         .append ⟨[4, 67], 2, by decide, by decide, by decide⟩ 9,
         .append ⟨[1, 68], 2, by decide, by decide, by decide⟩ 9,
         .ioCb 7 Events.WRITE [], .ioCb 7 Events.WRITE [.accept 4, .accept 3, .err .eintr]])).queues[7]? =
        some k ∧ k.sent <+: [0, 0, 0, 7, 0, 0, 0, 9, 2, 65, 66, 0, 0, 0, 6, 0, 0, 0, 9, 1, 68] ∧
      k.queue.totalSize = (k.queue.queue.map SizedBuffer.len).sum := by
  obtain ⟨k, here, front, -, -, total, -⟩ := delivered_in_order 100 []
    [.append ⟨[2, 65, 66], 3, by decide, by decide, by decide⟩ 9,
     .append ⟨[4, 67], 2, by decide, by decide, by decide⟩ 9,
     .append ⟨[1, 68], 2, by decide, by decide, by decide⟩ 9,
     .ioCb 7 Events.WRITE [], .ioCb 7 Events.WRITE [.accept 4, .accept 3, .err .eintr]]
    7 5 3 (by decide +kernel) (by simp only [Along]; decide +kernel)
  exact ⟨k, here, front, total⟩

end Coinscope.LogServer

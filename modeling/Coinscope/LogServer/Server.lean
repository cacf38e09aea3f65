/-
# LogServer.Server -- one loop for all that write and all that read

The log server accepts any number of processes that log and any number of clients that want to
see the records, and one event loop serves them all.  A callback of an input connection may hand
several records to the collector, each of which goes to every client that is interested.  Every
input connection gets an id that no other has had: `time(NULL)`, and a second later if that one is
taken.

* `Server.step` -- one callback.
* `Server.Sound` -- what the collector was given, source by source, is what the sources sent.
* `log_server_faithful` -- so is what every client gets.
-/
import Coinscope.LogServer.InputCxn
import Coinscope.Theory.Tables
import Mathlib.Data.List.Infix

namespace Coinscope.LogServer

open Coinscope.Shared
open Coinscope.Theory
open Coinscope.Theory.Bytes
open Coinscope.Theory.Framing
open Coinscope.Theory.Runs
open Std (TreeMap)

set_option autoImplicit false

/-! ## The server -/

/-- An input connection by its id, with everything that became available to its `recv`. -/
structure Source where
  id : UInt32
  arrived : List RecvResult
  connection : Connection

/-- `taken_ids`, the input connections by the order they were accepted in, the output connections
with their queues, and the arguments of `collector::append` so far. -/
structure Server where
  takenIds : List UInt32
  accepted : Nat
  sources : TreeMap Nat Source
  collector : Collector
  log : List SizedBuffer

/-- What can happen.  `readings` are what `time(NULL)` returns in the constructor of an input
connection, until one of them is free. -/
inductive ServerEvent where
  | accept (fd : Nat) (readings : List UInt32)
  | arrive (k : Nat) (answer : RecvResult)
  | input (k : Nat) (revents : Events)
  | join (c fd : Nat) (interests : UInt8)
  | output (c : Nat) (revents : Events) (outbox : List WriteResult)

namespace Server

def start : Server where
  takenIds := []
  accepted := 0
  sources := ∅
  collector := Collector.new
  log := []

/-- `input_cxn::handler(fd)`. -/
def accept (s : Server) (fd : Nat) (readings : List UInt32) : Server :=
  match readings.find? fun id => !s.takenIds.contains id with
  | none => s
  | some id =>
      { s with
        takenIds := id :: s.takenIds
        accepted := s.accepted + 1
        sources := s.sources.insert s.accepted ⟨id, [], Connection.new fd id⟩ }

/-- `input_cxn::handler::io_cb`, with the calls of `collector::append` it makes. -/
def input (maxBuffer : Nat) (s : Server) (k : Nat) (revents : Events) : Server :=
  match s.sources[k]? with
  | none => s
  | some source =>
      match source.connection.handler with
      | none => s
      | some h =>
          let t := h.ioCb revents source.connection.inbox
          { s with
            sources := s.sources.insert k { source with
              connection := ⟨t.handler, t.inbox, source.connection.appended ++ t.appended⟩ }
            collector := t.appended.foldl (Collector.append maxBuffer) s.collector
            log := s.log ++ t.appended }

/-- The kernel has something for an input connection. -/
def arrive (s : Server) (k : Nat) (answer : RecvResult) : Server :=
  match s.sources[k]? with
  | none => s
  | some source =>
      { s with sources := s.sources.insert k { source with
          arrived := source.arrived ++ [answer]
          connection := source.connection.step (.arrive answer) } }

def step (maxBuffer : Nat) (s : Server) : ServerEvent → Server
  | .accept fd readings => s.accept fd readings
  | .arrive k answer => s.arrive k answer
  | .input k revents => s.input maxBuffer k revents
  | .join c fd interests =>
      { s with collector := s.collector.step maxBuffer (.join c fd interests) }
  | .output c revents outbox =>
      { s with collector := s.collector.step maxBuffer (.ioCb c revents outbox) }

/-- The records of a source among the arguments of `collector::append`. -/
def logOf (s : Server) (id : UInt32) : List SizedBuffer :=
  s.log.filter fun p => p.sourceId == id

end Server

/-! ## The sources -/

/-- The records a byte stream brings: those in front of the first empty one. -/
def recordsOf (arrived : List RecvResult) : List (List UInt8) :=
  ((records.parse (received arrived)).1.takeWhile fun f => body f ≠ []).map body

/-- The bytes of a record in its buffer. -/
def SizedBuffer.bytes (p : SizedBuffer) : List UInt8 := p.buffer.take p.len

namespace Connection

variable {id : UInt32} {arrived : List RecvResult} {s : Connection}

/-- The records that were handed over, whatever has not been read yet. -/
theorem Tracks.handed (tracks : s.Tracks id arrived) : ∃ done, Handed id s.appended done ∧
    done <+: (records.parse (received arrived)).1.takeWhile fun f => body f ≠ [] := by
  have front : ∀ done : List (List UInt8), (∀ f ∈ done, records.Complete f) →
      (∀ f ∈ done, body f ≠ []) → done.flatten <+: received arrived →
      done <+: (records.parse (received arrived)).1.takeWhile fun f => body f ≠ [] := by
    intro done complete nonempty before
    obtain ⟨rest, parsed⟩ := records.parse_starts complete before
    rw [← parsed, List.takeWhile_append_of_pos (by simpa using nonempty)]
    exact List.prefix_append ..
  unfold Tracks at tracks
  cases live : s.handler with
  | none =>
      rw [live] at tracks
      obtain ⟨used, last, rest, done, tail, rfl, quiet, ended, -, handed, whole⟩ := tracks
      refine ⟨done, handed, front done handed.complete handed.nonempty ?_⟩
      rw [received, quiet.takeWhile, stream_append, whole, List.append_assoc]
      exact List.prefix_append ..
  | some h =>
      rw [live] at tracks
      obtain ⟨-, -, -, used, done, held, rfl, quiet, -, handed, whole⟩ := tracks
      refine ⟨done, handed, front done handed.complete handed.nonempty ?_⟩
      rw [received, quiet.takeWhile, stream_append, whole, List.append_assoc, List.append_assoc]
      exact List.prefix_append ..

end Connection

theorem Handed.bytes {id : UInt32} {appended : List SizedBuffer} {done : List (List UInt8)}
    (handed : Handed id appended done) : appended.map SizedBuffer.bytes = done.map body := by
  have first := congrArg (List.map Prod.fst) handed.views
  rw [List.map_map, List.map_map] at first
  exact first

/-- What was handed over is records of this source, none of them empty. -/
theorem Handed.sized {id : UInt32} {appended : List SizedBuffer} {done : List (List UInt8)}
    (handed : Handed id appended done) {p : SizedBuffer} (member : p ∈ appended) :
    p.sourceId = id ∧ 0 < p.len ∧ p.len ≤ p.buffer.length := by
  have there : p.view ∈ done.map (recordView id) := by
    rw [← handed.views]
    exact List.mem_map_of_mem member
  obtain ⟨f, inside, same⟩ := List.mem_map.1 there
  simp only [recordView, SizedBuffer.view, Prod.mk.injEq] at same
  obtain ⟨bytes, length, source⟩ := same
  have some_ : 0 < (body f).length := List.length_pos_iff.2 (handed.nonempty f inside)
  have counted := congrArg List.length bytes
  rw [List.length_take, length] at counted
  exact ⟨source.symm, by omega, by omega⟩

/-! ## The invariant -/

namespace Server

structure Sound (s : Server) : Prop where
  tracks : ∀ (k : Nat) (source : Source), s.sources[k]? = some source →
    source.connection.Tracks source.id source.arrived
  earlier : ∀ k : Nat, k ∈ s.sources → k < s.accepted
  taken : ∀ (k : Nat) (source : Source), s.sources[k]? = some source → source.id ∈ s.takenIds
  distinct : ∀ (k k' : Nat) (source source' : Source), s.sources[k]? = some source →
    s.sources[k']? = some source' → source.id = source'.id → k = k'
  logged : ∀ (k : Nat) (source : Source), s.sources[k]? = some source →
    s.logOf source.id = source.connection.appended
  known : ∀ p ∈ s.log, p.sourceId ∈ s.takenIds ∧ 0 < p.len ∧ p.len ≤ p.buffer.length

variable {s : Server} {maxBuffer : Nat}

theorem sound_start : start.Sound where
  tracks := by simp [start]
  earlier := by simp [start]
  taken := by simp [start]
  distinct := by simp [start]
  logged := by simp [start]
  known := by simp [start]

/-- What an id that was never taken has in the log. -/
theorem Sound.logOf_fresh (sound : s.Sound) {id : UInt32} (fresh : id ∉ s.takenIds) :
    s.logOf id = [] := by
  rw [logOf, List.filter_eq_nil_iff]
  intro p member same
  apply fresh
  rw [← eq_of_beq same]
  exact (sound.known p member).1

theorem Sound.accept (sound : s.Sound) (fd : Nat) (readings : List UInt32) :
    (s.accept fd readings).Sound := by
  unfold Server.accept
  split
  · exact sound
  rename_i id found
  have fresh : id ∉ s.takenIds := by
    have free := List.find?_some found
    simpa using free
  -- the new source is the one under the new number
  have cases : ∀ (k : Nat) (source : Source),
      (s.sources.insert s.accepted ⟨id, [], Connection.new fd id⟩)[k]? = some source →
      k = s.accepted ∧ source = ⟨id, [], Connection.new fd id⟩ ∨
        k ≠ s.accepted ∧ s.sources[k]? = some source := by
    intro k source there
    rw [Tables.getElem?_insert] at there
    split at there
    · cases there
      exact Or.inl ⟨‹_›, rfl⟩
    · exact Or.inr ⟨‹_›, there⟩
  refine ⟨?_, ?_, ?_, ?_, ?_, ?_⟩
  · intro k source there
    rcases cases k source there with ⟨-, rfl⟩ | ⟨-, old⟩
    · exact Connection.new_tracks fd id
    · exact sound.tracks k source old
  · intro k member
    rcases (Tables.mem_insert ..).1 member with rfl | old
    · exact Nat.lt_succ_self _
    · exact Nat.lt_succ_of_lt (sound.earlier k old)
  · intro k source there
    rcases cases k source there with ⟨-, rfl⟩ | ⟨-, old⟩
    · exact List.mem_cons_self
    · exact List.mem_cons_of_mem _ (sound.taken k source old)
  · intro k k' source source' there there' same
    rcases cases k source there with ⟨rfl, rfl⟩ | ⟨-, old⟩
    · rcases cases k' source' there' with ⟨rfl, -⟩ | ⟨-, old'⟩
      · rfl
      · have again : id = source'.id := same
        exact absurd (again ▸ sound.taken k' source' old') fresh
    · rcases cases k' source' there' with ⟨-, rfl⟩ | ⟨-, old'⟩
      · have again : source.id = id := same
        exact absurd (again ▸ sound.taken k source old) fresh
      · exact sound.distinct k k' source source' old old' same
  · intro k source there
    rcases cases k source there with ⟨-, rfl⟩ | ⟨-, old⟩
    · exact sound.logOf_fresh fresh
    · exact sound.logged k source old
  · intro p member
    obtain ⟨taken, sized⟩ := sound.known p member
    exact ⟨List.mem_cons_of_mem _ taken, sized⟩

/-- A source does something: it keeps its id, and what it logs is logged. -/
theorem Sound.update (sound : s.Sound) {k : Nat} {source : Source}
    (found : s.sources[k]? = some source) (source' : Source) (more : List SizedBuffer)
    (id : source'.id = source.id)
    (tracks : source'.connection.Tracks source'.id source'.arrived)
    (appended : source'.connection.appended = source.connection.appended ++ more)
    (mine : ∀ p ∈ more, p.sourceId = source.id ∧ 0 < p.len ∧ p.len ≤ p.buffer.length)
    {s' : Server} (takenIds : s'.takenIds = s.takenIds) (accepted : s'.accepted = s.accepted)
    (sources : s'.sources = s.sources.insert k source') (log : s'.log = s.log ++ more) :
    s'.Sound := by
  have cases : ∀ (k' : Nat) (other : Source), s'.sources[k']? = some other →
      k' = k ∧ other = source' ∨ k' ≠ k ∧ s.sources[k']? = some other := by
    intro k' other there
    rw [sources, Tables.getElem?_insert] at there
    split at there
    · cases there
      exact Or.inl ⟨‹_›, rfl⟩
    · exact Or.inr ⟨‹_›, there⟩
  refine ⟨?_, ?_, ?_, ?_, ?_, ?_⟩
  · intro k' other there
    rcases cases k' other there with ⟨-, rfl⟩ | ⟨-, old⟩
    · exact tracks
    · exact sound.tracks k' other old
  · intro k' member
    rw [accepted]
    rw [sources] at member
    rcases (Tables.mem_insert ..).1 member with rfl | old
    · apply sound.earlier
      rw [TreeMap.mem_iff_isSome_getElem?, found]
      rfl
    · exact sound.earlier k' old
  · intro k' other there
    rw [takenIds]
    rcases cases k' other there with ⟨-, rfl⟩ | ⟨-, old⟩
    · rw [id]
      exact sound.taken k source found
    · exact sound.taken k' other old
  · intro k₁ k₂ one two there there' same
    rcases cases k₁ one there with ⟨rfl, rfl⟩ | ⟨-, old⟩
    · rcases cases k₂ two there' with ⟨rfl, -⟩ | ⟨-, old'⟩
      · rfl
      · exact sound.distinct k₁ k₂ source two found old' (id ▸ same)
    · rcases cases k₂ two there' with ⟨rfl, rfl⟩ | ⟨-, old'⟩
      · exact sound.distinct k₁ k₂ one source old found (same.trans id)
      · exact sound.distinct k₁ k₂ one two old old' same
  · intro k' other there
    rw [logOf, log, List.filter_append]
    rcases cases k' other there with ⟨-, rfl⟩ | ⟨different, old⟩
    · rw [appended, ← sound.logged k source found, id, logOf]
      congr 1
      rw [List.filter_eq_self]
      intro p member
      exact beq_iff_eq.2 (mine p member).1
    · rw [← sound.logged k' other old, logOf]
      have none_ : more.filter (fun p => p.sourceId == other.id) = [] := by
        rw [List.filter_eq_nil_iff]
        intro p member same
        refine different (sound.distinct k' k other source old found ?_)
        rw [← eq_of_beq same, (mine p member).1]
      rw [none_, List.append_nil]
  · intro p member
    rw [log] at member
    rw [takenIds]
    rcases List.mem_append.1 member with old | new
    · exact sound.known p old
    · obtain ⟨mine, sized⟩ := mine p new
      rw [mine]
      exact ⟨sound.taken k source found, sized⟩

theorem Sound.input (sound : s.Sound) (k : Nat) (revents : Events) :
    (s.input maxBuffer k revents).Sound := by
  unfold Server.input
  split
  · exact sound
  rename_i source found
  split
  · exact sound
  rename_i h live
  have tracks := (sound.tracks k source found).ioCb revents
  have stepped : source.connection.step (.ioCb revents) =
      ⟨(h.ioCb revents source.connection.inbox).handler,
        (h.ioCb revents source.connection.inbox).inbox,
        source.connection.appended ++ (h.ioCb revents source.connection.inbox).appended⟩ := by
    simp only [Connection.step, live]
  rw [stepped] at tracks
  refine sound.update found
    ⟨source.id, source.arrived, ⟨(h.ioCb revents source.connection.inbox).handler,
      (h.ioCb revents source.connection.inbox).inbox,
      source.connection.appended ++ (h.ioCb revents source.connection.inbox).appended⟩⟩
    (h.ioCb revents source.connection.inbox).appended rfl tracks rfl ?_ rfl rfl rfl rfl
  obtain ⟨done, handed, -⟩ := tracks.handed
  intro p member
  exact handed.sized (List.mem_append_right _ member)

theorem Sound.arrive (sound : s.Sound) (k : Nat) (answer : RecvResult) :
    (s.arrive k answer).Sound := by
  unfold Server.arrive
  split
  · exact sound
  rename_i source found
  have tracks := (sound.tracks k source found).arrive answer
  exact sound.update found
    ⟨source.id, source.arrived ++ [answer], source.connection.step (.arrive answer)⟩ [] rfl tracks
    (List.append_nil _).symm (by simp) rfl rfl rfl (List.append_nil _).symm

theorem Sound.step (sound : s.Sound) (e : ServerEvent) : (s.step maxBuffer e).Sound := by
  cases e with
  | accept fd readings => exact sound.accept fd readings
  | arrive k answer => exact sound.arrive k answer
  | input k revents => exact sound.input k revents
  | join c fd interests =>
      exact ⟨sound.tracks, sound.earlier, sound.taken, sound.distinct, sound.logged, sound.known⟩
  | output c revents outbox =>
      exact ⟨sound.tracks, sound.earlier, sound.taken, sound.distinct, sound.logged, sound.known⟩

end Server

/-! ## The clients -/

/-- A client with these interests gets this record. -/
def wants (interests : UInt8) (p : SizedBuffer) : Bool := p.buffer.headD 0 &&& interests != 0

/-- What goes out to such a client. -/
def outgoing (interests : UInt8) (log : List SizedBuffer) : List UInt8 :=
  (log.filter (wants interests)).flatMap frame

namespace Collector

variable {maxBuffer : Nat} {s : Collector} {c : Nat} {interests : UInt8} {expected : List UInt8}

theorem append_serves (serves : s.Serves c interests expected) {p : SizedBuffer} (some_ : 0 < p.len)
    (inside : p.len ≤ p.buffer.length) (stays : c ∈ (s.append maxBuffer p).queues) :
    (s.append maxBuffer p).Serves c interests (expected ++ outgoing interests [p]) := by
  obtain ⟨k, here, good, rfl, rfl⟩ := serves
  refine ⟨k.offer p, ?_, Consumer.offer_good good some_ inside, by simp, ?_⟩
  · have there := TreeMap.isSome_getElem?_iff_mem.2 stays
    simp only [append_getElem?, here, Option.map_some] at there ⊢
    simpa [Option.filter_some] using there
  · rw [Consumer.offer_owed, outgoing]
    congr 1
    by_cases interested : k.handler.interested (p.buffer.headD 0) = true
    · have wanted : wants k.handler.interests p = true := interested
      rw [List.filter_cons_of_pos wanted, if_pos interested]
      simp
    · have unwanted : ¬ wants k.handler.interests p = true := interested
      rw [List.filter_cons_of_neg unwanted, if_neg interested]
      rfl

/-- `append` brings nobody back. -/
theorem mem_of_append {p : SizedBuffer} (there : c ∈ (s.append maxBuffer p).queues) :
    c ∈ s.queues := by
  rw [TreeMap.mem_iff_isSome_getElem?, append_getElem?] at there
  rw [TreeMap.mem_iff_isSome_getElem?]
  cases here : s.queues[c]? with
  | none =>
      rw [here] at there
      cases there
  | some k => rfl

theorem mem_of_appends {more : List SizedBuffer} {s : Collector}
    (there : c ∈ (more.foldl (append maxBuffer) s).queues) : c ∈ s.queues := by
  induction more generalizing s with
  | nil => exact there
  | cons p rest ih => exact mem_of_append (ih there)

/-- The records of one callback. -/
theorem appends_serves {more : List SizedBuffer} {s : Collector} {expected : List UInt8}
    (serves : s.Serves c interests expected) (sized : ∀ p ∈ more, 0 < p.len ∧ p.len ≤ p.buffer.length)
    (stays : c ∈ (more.foldl (append maxBuffer) s).queues) :
    (more.foldl (append maxBuffer) s).Serves c interests (expected ++ outgoing interests more) := by
  induction more generalizing s expected with
  | nil =>
      rw [outgoing, List.filter_nil, List.flatMap_nil, List.append_nil]
      exact serves
  | cons p rest ih =>
      obtain ⟨some_, inside⟩ := sized p List.mem_cons_self
      have first := append_serves serves some_ inside (mem_of_appends stays)
      have later := ih first (fun q member => sized q (List.mem_cons_of_mem _ member)) stays
      have whole : outgoing interests (p :: rest) =
          outgoing interests [p] ++ outgoing interests rest := by
        rw [outgoing, outgoing, outgoing, ← List.flatMap_append, ← List.filter_append]
        rfl
      rw [whole, ← List.append_assoc]
      exact later

end Collector

namespace Server

/-- Sources that come and answers that arrive are none of the collector's business. -/
theorem accept_rest (s : Server) (fd : Nat) (readings : List UInt32) :
    (s.accept fd readings).log = s.log ∧ (s.accept fd readings).collector = s.collector := by
  unfold accept
  split
  · exact ⟨rfl, rfl⟩
  · exact ⟨rfl, rfl⟩

theorem arrive_rest (s : Server) (k : Nat) (answer : RecvResult) :
    (s.arrive k answer).log = s.log ∧ (s.arrive k answer).collector = s.collector := by
  unfold arrive
  split
  · exact ⟨rfl, rfl⟩
  · exact ⟨rfl, rfl⟩

/-- What one callback adds to the log. -/
theorem step_log (maxBuffer c : Nat) (interests : UInt8) (s : Server) (e : ServerEvent) :
    ∃ more, (s.step maxBuffer e).log = s.log ++ more ∧
      ∀ {expected : List UInt8}, s.collector.Serves c interests expected →
        (∀ p ∈ more, 0 < p.len ∧ p.len ≤ p.buffer.length) →
        c ∈ (s.step maxBuffer e).collector.queues →
        (s.step maxBuffer e).collector.Serves c interests (expected ++ outgoing interests more) := by
  -- where nothing is logged
  have silent : ∀ s' : Server, s'.log = s.log →
      (∀ {expected : List UInt8}, s.collector.Serves c interests expected →
        c ∈ s'.collector.queues → s'.collector.Serves c interests expected) →
      ∃ more, s'.log = s.log ++ more ∧
        ∀ {expected : List UInt8}, s.collector.Serves c interests expected →
          (∀ p ∈ more, 0 < p.len ∧ p.len ≤ p.buffer.length) → c ∈ s'.collector.queues →
          s'.collector.Serves c interests (expected ++ outgoing interests more) := by
    intro s' log keeps
    refine ⟨[], by rw [log, List.append_nil], ?_⟩
    intro expected serves _ stays
    rw [outgoing, List.filter_nil, List.flatMap_nil, List.append_nil]
    exact keeps serves stays
  -- what goes on between the collector and its clients
  have events : ∀ e : Event, wanted interests [e] = [] →
      ∀ {expected : List UInt8}, s.collector.Serves c interests expected →
        c ∈ (s.collector.step maxBuffer e).queues →
        (s.collector.step maxBuffer e).Serves c interests expected := by
    intro e nothing expected serves stays
    have after := Collector.step_serves serves e stays
    rw [nothing, List.append_nil] at after
    exact after
  cases e with
  | accept fd readings =>
      obtain ⟨log, collector⟩ := s.accept_rest fd readings
      refine silent _ log ?_
      intro expected serves _
      show (s.accept fd readings).collector.Serves c interests expected
      rw [collector]
      exact serves
  | arrive k answer =>
      obtain ⟨log, collector⟩ := s.arrive_rest k answer
      refine silent _ log ?_
      intro expected serves _
      show (s.arrive k answer).collector.Serves c interests expected
      rw [collector]
      exact serves
  | input k revents =>
      simp only [step]
      unfold input
      split
      · exact silent s rfl fun serves _ => serves
      · split
        · exact silent s rfl fun serves _ => serves
        · exact ⟨_, rfl, fun serves sized stays => Collector.appends_serves serves sized stays⟩
  | join d fd interests' => exact silent _ rfl (events _ rfl)
  | output d revents outbox => exact silent _ rfl (events _ rfl)

/-- What a client is given in a run in which it is not removed. -/
theorem run_log (maxBuffer c : Nat) (interests : UInt8) {s : Server} (sound : s.Sound)
    (events : List ServerEvent) :
    ∃ more, (run (step maxBuffer) s events).log = s.log ++ more ∧
      ∀ {expected : List UInt8}, s.collector.Serves c interests expected →
        Along (step maxBuffer) (fun s e => c ∈ (s.step maxBuffer e).collector.queues) s events →
        (run (step maxBuffer) s events).collector.Serves c interests
          (expected ++ outgoing interests more) := by
  induction events generalizing s with
  | nil =>
      refine ⟨[], (List.append_nil _).symm, ?_⟩
      intro expected serves _
      rw [outgoing, List.filter_nil, List.flatMap_nil, List.append_nil]
      exact serves
  | cons e rest ih =>
      obtain ⟨first, grown, serves⟩ := step_log maxBuffer c interests s e
      have next : (s.step maxBuffer e).Sound := sound.step e
      obtain ⟨later, log, all⟩ := ih next
      refine ⟨first ++ later, by rw [run_cons, log, grown, List.append_assoc], ?_⟩
      intro expected before stays
      have sized : ∀ p ∈ first, 0 < p.len ∧ p.len ≤ p.buffer.length := by
        intro p member
        exact (next.known p (by rw [grown]; exact List.mem_append_right _ member)).2
      have last := all (serves before sized stays.1) stays.2
      rw [outgoing, List.filter_append, List.flatMap_append, ← List.append_assoc]
      exact last

end Server

/-! ## What a client makes of its bytes -/

/-- The source of a record, as a client finds it behind the length. -/
def frameSource (f : List UInt8) : UInt32 := UInt32.ofNat (ofBE (slice 4 4 f))

/-- The record behind it. -/
def framePayload (f : List UInt8) : List UInt8 := f.drop 8

/-- The records of a source among these bytes. -/
def gotFrom (id : UInt32) (bytes : List UInt8) : List (List UInt8) :=
  ((records.parse bytes).1.filter fun f => frameSource f == id).map framePayload

/-- A client with these interests gets a record of these bytes. -/
def wantsRecord (interests : UInt8) (r : List UInt8) : Bool := r.headD 0 &&& interests != 0

section Frames

variable {p : SizedBuffer}

theorem frame_complete (short : p.len + 4 < 2 ^ 32) (inside : p.len ≤ p.buffer.length) :
    records.Complete (frame p) := by
  rw [frame, List.append_assoc]
  apply complete_record (length_be ..)
  rw [ofBE_be_of_lt short, List.length_append, length_be, List.length_take, Nat.min_eq_left inside]
  omega

theorem frameSource_frame (p : SizedBuffer) : frameSource (frame p) = p.sourceId := by
  have field : slice 4 4 (frame p) = be 4 p.sourceId.toNat := by
    rw [frame, List.append_assoc, slice, List.drop_left' (length_be ..), List.take_left' (length_be ..)]
  rw [frameSource, field, ofBE_be_of_lt p.sourceId.toNat_lt, UInt32.ofNat_toNat]

theorem framePayload_frame (p : SizedBuffer) : framePayload (frame p) = p.bytes := by
  have front : (be 4 (p.len + 4) ++ be 4 p.sourceId.toNat).length = 8 := by
    rw [List.length_append, length_be, length_be]
  rw [framePayload, frame, ← front, List.drop_left]
  rfl

/-- The first byte of a record is the first byte of its buffer. -/
theorem wantsRecord_bytes (interests : UInt8) (some_ : 0 < p.len) :
    wantsRecord interests p.bytes = wants interests p := by
  rw [wantsRecord, wants, SizedBuffer.bytes]
  cases p.buffer with
  | nil => simp
  | cons first rest =>
      obtain ⟨n, more⟩ : ∃ n, p.len = n + 1 := ⟨p.len - 1, by omega⟩
      rw [more]
      rfl

end Frames

/-- A client that has got the front of what goes out to it has the front of every source's
records, and all of them if it has got everything. -/
theorem gotFrom_outgoing {interests : UInt8} {log : List SizedBuffer} {sent rest : List UInt8}
    (sized : ∀ p ∈ log, 0 < p.len ∧ p.len ≤ p.buffer.length) (short : ∀ p ∈ log, p.len + 4 < 2 ^ 32)
    (whole : sent ++ rest = outgoing interests log) (id : UInt32) :
    gotFrom id sent <+: ((log.filter fun p => p.sourceId == id).map SizedBuffer.bytes).filter
        (wantsRecord interests) ∧
      (rest = [] → gotFrom id sent =
        ((log.filter fun p => p.sourceId == id).map SizedBuffer.bytes).filter
          (wantsRecord interests)) := by
  have frames : outgoing interests log = ((log.filter (wants interests)).map frame).flatten := by
    rw [outgoing, List.flatMap_def]
  have complete : ∀ f ∈ (log.filter (wants interests)).map frame, records.Complete f := by
    intro f member
    obtain ⟨p, there, rfl⟩ := List.mem_map.1 member
    have inside := List.mem_of_mem_filter there
    exact frame_complete (short p inside) (sized p inside).2
  -- filtering and decoding the frames is filtering the records
  have decoded : (((log.filter (wants interests)).map frame).filter fun f =>
      frameSource f == id).map framePayload =
      ((log.filter fun p => p.sourceId == id).map SizedBuffer.bytes).filter
        (wantsRecord interests) := by
    rw [List.filter_map, List.map_map, List.filter_map, List.filter_filter, List.filter_filter]
    have payload : framePayload ∘ frame = SizedBuffer.bytes := by
      funext p
      exact framePayload_frame p
    rw [payload]
    congr 1
    apply List.filter_congr
    intro p member
    rw [Function.comp_apply, Function.comp_apply, frameSource_frame,
      wantsRecord_bytes interests (sized p member).1, Bool.and_comm]
  have front : (records.parse sent).1 <+: (log.filter (wants interests)).map frame := by
    obtain ⟨all, -, split⟩ := records.parse_spec sent
    have before : (records.parse sent).1.flatten <+:
        ((log.filter (wants interests)).map frame).flatten := by
      rw [← frames, ← whole]
      exact List.IsPrefix.trans ⟨_, split⟩ (List.prefix_append _ _)
    have starts := records.parse_starts all before
    rw [records.parse_whole complete] at starts
    exact starts
  rw [← decoded]
  refine ⟨(front.filter _).map _, ?_⟩
  rintro rfl
  rw [List.append_nil, frames] at whole
  rw [gotFrom, whole, records.parse_whole complete]

/-! ## Every run -/

namespace Server

/-- The records of a source that were sent since there was this log, as far as the client is
interested. -/
def dueFrom (s₀ : Server) (interests : UInt8) (source : Source) : List (List UInt8) :=
  ((recordsOf source.arrived).drop (s₀.logOf source.id).length).filter (wantsRecord interests)

variable {s s₀ : Server} {more : List SizedBuffer} {interests : UInt8}

/-- What was logged since is sized. -/
theorem Sound.sized (sound : s.Sound) (log : s.log = s₀.log ++ more) :
    ∀ p ∈ more, 0 < p.len ∧ p.len ≤ p.buffer.length := by
  intro p member
  exact (sound.known p (by rw [log]; exact List.mem_append_right _ member)).2

/-- What can be read of a source in the front of what went out. -/
theorem Sound.gotFrom_source (sound : s.Sound) (log : s.log = s₀.log ++ more)
    (short : ∀ p ∈ s.log, p.len + 4 < 2 ^ 32) {sent rest : List UInt8}
    (whole : sent ++ rest = outgoing interests more) {i : Nat} {source : Source}
    (found : s.sources[i]? = some source) :
    gotFrom source.id sent <+: s₀.dueFrom interests source ∧
      (source.connection.Settled → rest = [] →
        gotFrom source.id sent = s₀.dueFrom interests source) := by
  have since : more.filter (fun p => p.sourceId == source.id) =
      source.connection.appended.drop (s₀.logOf source.id).length := by
    rw [← sound.logged i source found, logOf, logOf, log, List.filter_append, List.drop_left]
  have few : ∀ p ∈ more, p.len + 4 < 2 ^ 32 := by
    intro p member
    exact short p (by rw [log]; exact List.mem_append_right _ member)
  have tracks := sound.tracks i source found
  obtain ⟨front, all⟩ := gotFrom_outgoing (sound.sized log) few whole source.id
  rw [since, List.map_drop] at front all
  obtain ⟨done, handed, starts⟩ := tracks.handed
  have came : source.connection.appended.map SizedBuffer.bytes <+: recordsOf source.arrived := by
    rw [handed.bytes]
    exact starts.map body
  refine ⟨front.trans ((came.drop _).filter _), ?_⟩
  intro settled taken
  have views := congrArg (List.map Prod.fst) (tracks.settled settled)
  rw [List.map_map, List.map_map] at views
  have everything : source.connection.appended.map SizedBuffer.bytes = recordsOf source.arrived :=
    views
  rw [all taken, everything, dueFrom]

/-- What a client was given that came and was not removed. -/
theorem client_given {maxBuffer c fd : Nat} {before after : List ServerEvent}
    (fresh : c ∉ (run (step maxBuffer) start before).collector.queues)
    (stays : Along (step maxBuffer) (fun s e => c ∈ (s.step maxBuffer e).collector.queues)
      ((run (step maxBuffer) start before).step maxBuffer (.join c fd interests)) after)
    (reached : s = run (step maxBuffer) start (before ++ .join c fd interests :: after)) :
    s.Sound ∧ ∃ k more, s.log = (run (step maxBuffer) start before).log ++ more ∧
      s.collector.queues[c]? = some k ∧ k.sent ++ k.remainder = outgoing interests more := by
  have first : (run (step maxBuffer) start before).Sound :=
    run_keeps (fun _ e sound => sound.step e) sound_start before
  rw [run_append, run_cons] at reached
  generalize run (step maxBuffer) start before = s₀ at *
  have joined : (s₀.step maxBuffer (.join c fd interests)).Sound := first.step _
  have sound : s.Sound := by
    rw [reached]
    exact run_keeps (fun _ e sound => sound.step e) joined after
  obtain ⟨more, grown, given⟩ := run_log maxBuffer c interests joined after
  have new : (s₀.collector.step maxBuffer (.join c fd interests)).Serves c interests [] :=
    Collector.join_serves fresh
  obtain ⟨k, here, -, -, owed⟩ := given new stays
  rw [← reached] at grown here
  refine ⟨sound, k, more, grown, here, ?_⟩
  rw [← Consumer.owed, owed, List.nil_append]

end Server

open Server in
/-- Take any run of the log server in which a client joins, not having been there, and is not
removed afterwards, and in which no record is so long that its frame's length does not fit.  No
two sources have the same id; and what the client can read of a source in the bytes its socket
has taken is, in order, the front of those records the source has sent since, up to its first empty
one, that the client is interested in: all of them, once there is nothing left to take from the
source and the client has taken everything. -/
theorem log_server_faithful (maxBuffer : Nat) (before after : List ServerEvent) (c fd : Nat)
    (interests : UInt8) (fresh : c ∉ (run (step maxBuffer) start before).collector.queues)
    (stays : Along (step maxBuffer) (fun s e => c ∈ (s.step maxBuffer e).collector.queues)
      ((run (step maxBuffer) start before).step maxBuffer (.join c fd interests)) after)
    (s : Server) (reached : s = run (step maxBuffer) start (before ++ .join c fd interests :: after))
    (short : ∀ p ∈ s.log, p.len + 4 < 2 ^ 32) :
    (∀ (i j : Nat) (a b : Source), s.sources[i]? = some a → s.sources[j]? = some b → a.id = b.id →
      i = j) ∧
      ∃ k, s.collector.queues[c]? = some k ∧
        ∀ (i : Nat) (source : Source), s.sources[i]? = some source →
          gotFrom source.id k.sent <+:
              (run (step maxBuffer) start before).dueFrom interests source ∧
            (source.connection.Settled → k.remainder = [] → gotFrom source.id k.sent =
              (run (step maxBuffer) start before).dueFrom interests source) := by
  obtain ⟨sound, k, more, log, here, whole⟩ := client_given fresh stays reached
  refine ⟨sound.distinct, k, here, ?_⟩
  intro i source found
  exact sound.gotFrom_source log short whole found

/-- Two processes that log in turns, and a client that has taken all of it. -/
def someTurns : List ServerEvent :=
  [.accept 5 [100], .accept 6 [100, 101],
   .arrive 0 (.data ⟨[0, 0, 0, 2, 2, 7, 0, 0], by decide, by decide⟩), .input 0 Events.READ,
   .arrive 1 (.data ⟨[0, 0, 0, 1, 4], by decide, by decide⟩), .input 1 Events.READ,
   .arrive 0 (.data ⟨[0, 1, 8], by decide, by decide⟩), .input 0 Events.READ,
   .output 9 Events.WRITE [], .output 9 Events.WRITE [.accept 3, .accept 99, .accept 99],
   .output 9 Events.WRITE [.accept 99, .accept 99, .accept 99],
   .output 9 Events.WRITE [.accept 99, .accept 99, .accept 99]]

theorem log_server_faithful_turns :
    ∃ k, (run (Server.step 1000) Server.start
        ([] ++ .join 9 7 0xff :: someTurns)).collector.queues[9]? = some k ∧
      gotFrom 100 k.sent <+: [[2, 7], [8]] := by
  have stays : Along (Server.step 1000)
      (fun s e => 9 ∈ (s.step 1000 e).collector.queues)
      ((run (Server.step 1000) Server.start []).step 1000 (.join 9 7 0xff)) someTurns := by
    simp only [someTurns, Along]
    decide +kernel
  obtain ⟨-, k, here, all⟩ := log_server_faithful 1000 [] someTurns 9 7 0xff (by decide) stays _ rfl
    (by decide +kernel)
  refine ⟨k, here, ?_⟩
  have source : ∃ a, (run (Server.step 1000) Server.start
      ([] ++ .join 9 7 0xff :: someTurns)).sources[0]? = some a ∧ a.id = 100 ∧
      recordsOf a.arrived = [[2, 7], [8]] := by
    refine ⟨_, rfl, ?_, ?_⟩
    · decide +kernel
    · decide +kernel
  obtain ⟨a, found, id, came⟩ := source
  have front := (all 0 a found).1
  rw [Server.dueFrom, id, came] at front
  exact front.trans (by decide)

end Coinscope.LogServer

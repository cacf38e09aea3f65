/-
# LogClient.Pipeline -- from a call of g_log to the file

A record of `g_log` is stored, written to the log server, read there, handed to the collector, put
in a frame with the id of its source, written to `verbatim`, read there, and written to the file of
the day.  Each of these is a process or a queue of its own with its own model; between them are
sockets, of which it is only used that what is read is the front of what was written.

* `Logger.given` -- what a log connection was given.
* `log_pipeline` -- what the files have of a process is the front of what it has logged.
-/
import Coinscope.LogClient.Verbatim
import Coinscope.LogServer.Server
import Coinscope.Shared.Logger
import Mathlib.Data.List.TakeWhile

namespace Coinscope.LogClient

open Coinscope.Shared
open Coinscope.LogServer
open Coinscope.Theory.Bytes
open Coinscope.Theory.Framing
open Coinscope.Theory.Runs

set_option autoImplicit false

/-! ## The process -/

/-- No record of `g_log` is empty: there is its type. -/
theorem body_of_emitted {events : List LogEvent} {r : List UInt8} (member : r ∈ emitted events) :
    body r ≠ [] := by
  obtain ⟨e, -, here⟩ := List.mem_filterMap.1 member
  cases e with
  | log time call short =>
      cases here
      rw [LogCall.record, body_append (length_be ..)]
      cases call with
      | bitcoin updateType handleId remote localAddr text =>
          simp [LogCall.content, bitcoinContent]
      | bitcoinMsg id isSender msg => simp [LogCall.content, bitcoinMsgContent]
      | text kind val args => simp [LogCall.content, textContent]
  | ioCb outbox => cases here
  | watch fd => cases here

/-- A log connection was given whole records, in order, and has sent the front of them. -/
theorem given_of_run (process : List LogEvent) {b : LogBuffer}
    (there : (run Logger.step Logger.new process).buffer = some b) :
    ∃ given : List (List UInt8), b.handed = given.flatten ∧ given.Sublist (emitted process) ∧
      b.sent <+: given.flatten := by
  obtain ⟨l, accounts, sublist, -⟩ := run_accounts new_accounts process
  have current := accounts.current
  rw [there, Option.map_some] at current
  obtain ⟨given, here, flat⟩ := Option.map_eq_some_iff.1 current.symm
  refine ⟨given, flat.symm, ?_, ?_⟩
  · have inside : given.Sublist l.all := by
      rw [Ledger.all, here, List.flatten_append]
      simp only [Option.toList_some, List.flatten_singleton]
      exact (List.sublist_append_right _ _).trans (List.sublist_append_left _ _)
    exact inside.trans sublist
  · rw [flat, ← (accounts.valid b there).conserved]
    exact List.prefix_append ..

/-- The records of a stream that is the front of whole records that are not empty. -/
theorem recordsOf_given {given : List (List UInt8)} (complete : ∀ r ∈ given, records.Complete r)
    (nonempty : ∀ r ∈ given, body r ≠ []) {arrived : List RecvResult}
    (wire : received arrived <+: given.flatten) :
    recordsOf arrived <+: given.map body ∧
      (received arrived = given.flatten → recordsOf arrived = given.map body) := by
  have front : (records.parse (received arrived)).1 <+: given := by
    obtain ⟨all, -, split⟩ := records.parse_spec (received arrived)
    have starts := records.parse_starts all (List.IsPrefix.trans ⟨_, split⟩ wire)
    rw [records.parse_whole complete] at starts
    exact starts
  have every : (records.parse (received arrived)).1.takeWhile (fun f => body f ≠ []) =
      (records.parse (received arrived)).1 := by
    rw [List.takeWhile_eq_self_iff]
    intro f member
    simpa using nonempty f (front.subset member)
  rw [recordsOf, every]
  refine ⟨front.map body, ?_⟩
  intro whole
  rw [whole, records.parse_whole complete]

/-! ## The writer -/

/-- The frames of a log are whole and not empty. -/
theorem frames_whole {interests : UInt8} {log : List SizedBuffer}
    (sized : ∀ p ∈ log, 0 < p.len ∧ p.len ≤ p.buffer.length) (short : ∀ p ∈ log, p.len + 4 < 2 ^ 32) :
    ∀ f ∈ (log.filter (wants interests)).map frame, records.Complete f ∧ body f ≠ [] := by
  intro f member
  obtain ⟨p, there, rfl⟩ := List.mem_map.1 member
  have inside := List.mem_of_mem_filter there
  refine ⟨frame_complete (short p inside) (sized p inside).2, ?_⟩
  rw [frame, List.append_assoc, body_append (length_be ..)]
  intro nothing
  have long := congrArg List.length nothing
  rw [List.length_append, length_be, List.length_nil] at long
  omega

/-- Whenever `recv` is called, the files have the records of what was received. -/
theorem gotFrom_written {frames : List (List UInt8)}
    (whole : ∀ f ∈ frames, records.Complete f ∧ body f ≠ []) (writer : List Event) {v : Verbatim}
    (reached : v = run Verbatim.step .start writer) (taken : v.received <+: frames.flatten)
    (asks : v.CallsRecv) (id : UInt32) : gotFrom id (written v.outputs) = gotFrom id v.received := by
  rw [reached] at taken asks ⊢
  obtain ⟨done, tracks⟩ := Verbatim.run_tracks (fun f member => (whole f member).1)
    (fun f member => (whole f member).2) writer taken
  have parsed := tracks.parsed asks
  rw [gotFrom, gotFrom, written, tracks.wrote, records.parse_whole tracks.complete, parsed]

/-! ## All of it -/

open Server in
/-- A process logs, in any way, and `b` is its log connection.  The log server runs, in any way, has
the other end of `b` as a source, and a client that came and stayed; and `verbatim` runs on the
other end of that, through any rotation.  No record is so long that its frame's length does not
fit.  Then what the files have of the process, whenever `verbatim` is about to call `recv`, is in
order the front of those records that the process has handed to the connection, but for the ones
from before the client came and those it is not interested in; and if nothing is on its way any
more, it is all of them. -/
theorem log_pipeline (process : List LogEvent) {b : LogBuffer}
    (there : (run Logger.step Logger.new process).buffer = some b)
    (maxBuffer : Nat) (before after : List ServerEvent) (c fd : Nat) (interests : UInt8)
    (fresh : c ∉ (run (step maxBuffer) start before).collector.queues)
    (stays : Along (step maxBuffer) (fun s e => c ∈ (s.step maxBuffer e).collector.queues)
      ((run (step maxBuffer) start before).step maxBuffer (.join c fd interests)) after)
    (s : Server) (served : s = run (step maxBuffer) start (before ++ .join c fd interests :: after))
    (short : ∀ p ∈ s.log, p.len + 4 < 2 ^ 32)
    {i : Nat} {source : Source} (found : s.sources[i]? = some source)
    (wire : received source.arrived <+: b.sent)
    {k : Consumer} (client : s.collector.queues[c]? = some k)
    (writer : List Event) (v : Verbatim) (wrote : v = run Verbatim.step .start writer)
    (taken : v.received <+: k.sent) (asks : v.CallsRecv) :
    ∃ given : List (List UInt8), b.handed = given.flatten ∧ given.Sublist (emitted process) ∧
      gotFrom source.id (written v.outputs) <+:
        ((given.map body).drop ((run (step maxBuffer) start before).logOf source.id).length).filter
          (wantsRecord interests) ∧
      (received source.arrived = b.handed → source.connection.Settled → k.remainder = [] →
        v.received = k.sent → gotFrom source.id (written v.outputs) =
          ((given.map body).drop
            ((run (step maxBuffer) start before).logOf source.id).length).filter
              (wantsRecord interests)) := by
  obtain ⟨given, handed, sublist, sent⟩ := given_of_run process there
  have complete : ∀ r ∈ given, records.Complete r := fun r member =>
    complete_of_emitted (sublist.subset member)
  have nonempty : ∀ r ∈ given, body r ≠ [] := fun r member =>
    body_of_emitted (sublist.subset member)
  obtain ⟨came, all⟩ := recordsOf_given complete nonempty (wire.trans sent)
  obtain ⟨sound, k', more, log, here, whole⟩ := client_given fresh stays served
  rw [client, Option.some.injEq] at here
  subst here
  have few : ∀ p ∈ more, p.len + 4 < 2 ^ 32 := by
    intro p member
    exact short p (by rw [log]; exact List.mem_append_right _ member)
  have frames : ∀ f ∈ (more.filter (wants interests)).map frame,
      records.Complete f ∧ body f ≠ [] := frames_whole (sound.sized log) few
  have flat : outgoing interests more = ((more.filter (wants interests)).map frame).flatten := by
    rw [outgoing, List.flatMap_def]
  obtain ⟨rest, split⟩ := taken
  have onward : v.received ++ (rest ++ k.remainder) = outgoing interests more := by
    rw [← List.append_assoc, split, whole]
  have files := gotFrom_written frames writer wrote
    (by rw [← flat, ← onward]; exact List.prefix_append ..) asks source.id
  obtain ⟨front, everything⟩ := sound.gotFrom_source log short onward found
  refine ⟨given, handed, sublist, ?_, ?_⟩
  · rw [files]
    exact front.trans ((came.drop _).filter _)
  · intro arrived settled none_ took
    have nothing : rest ++ k.remainder = [] := by
      rw [took] at split
      rw [none_, List.append_nil]
      exact List.append_right_eq_self.1 split
    rw [files, everything settled nothing, dueFrom, all (by rw [arrived, handed])]

/-- One record on its way. -/
def someProcess : List LogEvent :=
  [.watch (some 3), .log 1 (.text .DEBUG (ascii ['a']) []) (by decide), .ioCb [.accept 9, .accept 9]]

def someRecord : List UInt8 := [0, 0, 0, 11, 2, 0, 0, 0, 0, 0, 0, 0, 1, 97, 0]

def someService : List ServerEvent :=
  [.accept 5 [100],
   .arrive 0 (.data ⟨[0, 0, 0, 11, 2, 0, 0, 0, 0], by decide, by decide⟩), .input 0 Events.READ,
   .arrive 0 (.data ⟨[0, 0, 0, 1, 97, 0], by decide, by decide⟩), .input 0 Events.READ,
   .output 9 Events.WRITE [], .output 9 Events.WRITE [.accept 99, .accept 99, .accept 99]]

def someWriting : List Event :=
  [.next (.data ⟨[0, 0, 0, 15, 0, 0, 0, 100, 2, 0, 0, 0, 0, 0, 0, 0, 1, 97, 0], by decide,
    by decide⟩) true] ++ List.replicate 5 onward

theorem log_pipeline_once :
    gotFrom 100 (written (run Verbatim.step .start someWriting).outputs) <+:
      [[2, 0, 0, 0, 0, 0, 0, 0, 1, 97, 0]] := by
  have sent : (run Logger.step Logger.new someProcess).buffer.map (fun b => (b.sent, b.handed)) =
      some (someRecord, someRecord) := by
    decide +kernel
  obtain ⟨b, there, both⟩ := Option.map_eq_some_iff.1 sent
  obtain ⟨bytes, handed⟩ := Prod.mk.inj both
  have source : ∃ a, (run (Server.step 1000) Server.start
      ([] ++ .join 9 7 0xff :: someService)).sources[0]? = some a ∧ a.id = 100 ∧
      received a.arrived = someRecord :=
    ⟨_, rfl, by decide +kernel, by decide +kernel⟩
  obtain ⟨a, found, id, came⟩ := source
  have client : (run (Server.step 1000) Server.start
      ([] ++ .join 9 7 0xff :: someService)).collector.queues[9]?.map Consumer.sent =
      some (run Verbatim.step .start someWriting).received := by
    decide +kernel
  obtain ⟨k, here, taken⟩ := Option.map_eq_some_iff.1 client
  have stays : Along (Server.step 1000) (fun s e => 9 ∈ (s.step 1000 e).collector.queues)
      ((run (Server.step 1000) Server.start []).step 1000 (.join 9 7 0xff)) someService := by
    simp only [someService, Along]
    decide +kernel
  have asks : (run Verbatim.step .start someWriting).CallsRecv :=
    ⟨by decide +kernel, by decide +kernel⟩
  obtain ⟨given, flat, sublist, front, -⟩ := log_pipeline someProcess there 1000 [] someService 9 7 0xff
    (by decide) stays _ rfl (by decide +kernel) found (by rw [came, bytes]) here someWriting _ rfl
    (by rw [taken]) asks
  have only : given = [someRecord] := by
    have whole : records.parse given.flatten = (given, []) :=
      records.parse_whole fun r member => complete_of_emitted (sublist.subset member)
    rw [← flat, handed] at whole
    exact (congrArg Prod.fst whole).symm.trans (by decide +kernel)
  rw [id, only] at front
  exact front.trans (by decide)

end Coinscope.LogClient

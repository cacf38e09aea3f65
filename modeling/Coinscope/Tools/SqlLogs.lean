/-
# Tools.SqlLogs -- what was logged, in the database

Behind `g_log`, the log server and `verbatim` a record stands in a file with the id of its source
in front.  For a text and for a message of a peer the fields `verbatim2sql` unpacks are the ones
`g_log` was called with.  For a connection event they are not: `g_log<BITCOIN>` writes two
`sockaddr_storage` of 128 bytes, and the script takes two addresses of 16 bytes, the second of them
out of the zeroes behind the first.

* `Logged.record`, `Logged.entry` -- a call in the file, and what it means.
* `recordsOf_logFile` -- the records of such a file are the calls.
* `entryOf_record` -- what is unpacked is what was logged.
* `log_to_sql` -- a log without connection events is imported whole, one with them not at all.
-/
import Coinscope.LogServer.Collector
import Coinscope.Shared.LogFormat
import Coinscope.Tools.SqlImport

namespace Coinscope.Tools.Verbatim2sql

open Coinscope.LogServer
open Coinscope.Shared
open Coinscope.Theory.Bytes
open Coinscope.Theory.Runs

set_option autoImplicit false

/-! ## A log in a file -/

/-- A call of `g_log` in a process the log server has as a source. -/
structure Logged where
  source : UInt32
  time : UInt64
  call : LogCall

namespace Logged

/-- The record, as the log server has it in a buffer. -/
def toSized (l : Logged) : SizedBuffer :=
  ⟨l.call.content l.time, (l.call.content l.time).length, l.source⟩

/-- The record as it is in the file, without the length in front. -/
def record (l : Logged) : Record := be 4 l.source.toNat ++ l.call.content l.time

/-- The length fits the 32 bits in front. -/
def Short (l : Logged) : Prop := l.record.length < 2 ^ 32

/-- The generic `g_log` is not used with the types that have versions of their own. -/
def Proper (l : Logged) : Prop :=
  match l.call with
  | .text kind _ _ => kind ≠ .BITCOIN ∧ kind ≠ .BITCOIN_MSG
  | _ => True

/-- The time is one that an INTEGER of SQLite holds. -/
def Dated (l : Logged) : Prop := l.time.toNat < 2 ^ 63

/-- What a call means; the script leaves out the types it has no handler for. -/
def entry (l : Logged) : Option Entry :=
  match l.call with
  | .text kind val args =>
      if kind.byte.toNat ∈ textTypes then
        some (.text kind.byte.toNat l.time.toNat (textArgs val args))
      else none
  | .bitcoinMsg id isSender m =>
      some (.message l.time.toNat ⟨id.toNat, if isSender then 1 else 0,
        cString (m.command.take 12), slice packedSize m.length m.buffer⟩)
  | .bitcoin .. => none

/-- The remote address of a connection event. -/
def remote? (l : Logged) : Option SockaddrStorage :=
  match l.call with
  | .bitcoin _ _ remote _ _ => some remote
  | _ => none

end Logged

/-- An address as the kernel or `wire_to_sockaddr` fills it in: behind an IPv4 address there are
zeroes. -/
def Padded (a : SockaddrStorage) : Prop := a.family = AF_INET → slice 16 2 a.bytes = [0, 0]

/-- What `verbatim` writes for a log. -/
def logFile (log : List Logged) : List UInt8 := log.flatMap fun l => frame l.toSized

/-! ## Bytes at a place -/

section Places

variable {off n : Nat} {a b rest : List UInt8}

theorem slice_at (before : a.length = off) (here : b.length = n) :
    slice off n (a ++ (b ++ rest)) = b := by
  rw [slice, List.drop_left' before, List.take_left' here]

theorem unpackProlog_of_parts {source time : List UInt8} {type : UInt8} (four : source.length = 4)
    (eight : time.length = 8) :
    unpackProlog (source ++ ([type] ++ (time ++ rest))) =
      ⟨type.toNat, ofBE time, rest⟩ := by
  have typed : slice 4 1 (source ++ ([type] ++ (time ++ rest))) = [type] := slice_at four rfl
  have five : (source ++ [type]).length = 5 := by simp [four]
  have timed : slice 5 8 (source ++ ([type] ++ (time ++ rest))) = time := by
    rw [← List.append_assoc source [type]]
    exact slice_at five eight
  have thirteen : (source ++ ([type] ++ time)).length = 13 := by simp [four, eight]
  have behind : (source ++ ([type] ++ (time ++ rest))).drop 13 = rest := by
    have regroup : source ++ ([type] ++ (time ++ rest)) = (source ++ ([type] ++ time)) ++ rest := by
      simp
    rw [regroup, List.drop_left' thirteen]
  have one : ofBE [type] = type.toNat := by simp [ofBE, ofLE]
  rw [unpackProlog, typed, timed, behind, one]

end Places

/-! ## The records of the file -/

theorem frame_toSized (l : Logged) : frame l.toSized = be 4 l.record.length ++ l.record := by
  rw [frame, Logged.record, List.append_assoc, List.length_append, length_be]
  simp [Logged.toSized, Nat.add_comm]

theorem recordsOf_cons {r : Record} (some_ : r ≠ []) (short : r.length < 2 ^ 32)
    (file : List UInt8) : recordsOf (be 4 r.length ++ (r ++ file)) = r :: recordsOf file := by
  have four : (be 4 r.length).length = 4 := length_be ..
  have positive : 0 < r.length := List.length_pos_iff.2 some_
  have size : ofBE (be 4 r.length) = r.length := ofBE_be_of_lt short
  rw [recordsOf_eq, List.take_left' four, List.drop_left' four, size, if_neg, List.take_left,
    List.drop_left]
  rw [List.length_append, List.length_append, four]
  omega

theorem record_ne_nil (l : Logged) : l.record ≠ [] := by
  intro nothing
  have counted := congrArg List.length nothing
  rw [Logged.record, List.length_append, length_be, List.length_nil] at counted
  omega

theorem recordsOf_logFile {log : List Logged} (short : ∀ l ∈ log, l.Short) :
    recordsOf (logFile log) = log.map Logged.record := by
  induction log with
  | nil => rfl
  | cons l rest ih =>
      rw [logFile, List.flatMap_cons, frame_toSized, List.append_assoc,
        recordsOf_cons (record_ne_nil l) (short l List.mem_cons_self), List.map_cons]
      congr 1
      exact ih fun l' later => short l' (List.mem_cons_of_mem l later)

/-! ## What is unpacked -/

section Unpacked

variable (source : UInt32) (time : UInt64)

theorem unpackProlog_record (type : UInt8) (rest : List UInt8) :
    unpackProlog (be 4 source.toNat ++ ([type] ++ (be 8 time.toNat ++ rest))) =
      ⟨type.toNat, time.toNat, rest⟩ := by
  rw [unpackProlog_of_parts (length_be ..) (length_be ..), ofBE_be_of_lt time.toNat_lt]

theorem unpackProlog_text (kind : LogType) (val : List UInt8) (args : List (List UInt8)) :
    unpackProlog (Logged.record ⟨source, time, .text kind val args⟩) =
      ⟨kind.byte.toNat, time.toNat, textArgs val args⟩ := by
  simp only [Logged.record, LogCall.content, textContent, List.append_assoc]
  exact unpackProlog_record source time _ _

theorem unpackProlog_bitcoinMsg (id : UInt32) (isSender : Bool) (m : PackedMessage) :
    unpackProlog (Logged.record ⟨source, time, .bitcoinMsg id isSender m⟩) =
      ⟨32, time.toNat, be 4 id.toNat ++ ([if isSender then 1 else 0] ++ m.wire)⟩ := by
  simp only [Logged.record, LogCall.content, bitcoinMsgContent, List.append_assoc]
  exact unpackProlog_record source time _ _

theorem unpackProlog_bitcoin (updateType handleId : UInt32) (remote localAddr : SockaddrStorage)
    (text : List UInt8) :
    unpackProlog (Logged.record ⟨source, time, .bitcoin updateType handleId remote localAddr text⟩) =
      ⟨16, time.toNat, be 4 handleId.toNat ++ (be 4 updateType.toNat ++ (remote.bytes ++
        (localAddr.bytes ++ (be 4 text.length ++ text))))⟩ := by
  simp only [Logged.record, LogCall.content, bitcoinContent, List.append_assoc]
  exact unpackProlog_record source time _ _

end Unpacked

/-- The fields of a message are the ones `g_log` wrote. -/
theorem unpackMessage_wire (id : UInt32) (isSender : Bool) (m : PackedMessage) :
    unpackMessage (be 4 id.toNat ++ ([if isSender then 1 else 0] ++ m.wire)) =
      ⟨id.toNat, if isSender then 1 else 0, cString (m.command.take 12),
        slice packedSize m.length m.buffer⟩ := by
  have four : (be 4 id.toNat).length = 4 := length_be ..
  have handle : slice 0 4 (be 4 id.toNat ++ ([if isSender then 1 else 0] ++ m.wire)) =
      be 4 id.toNat := List.take_left' four
  have sender : slice 4 1 (be 4 id.toNat ++ ([if isSender then 1 else 0] ++ m.wire)) =
      [if isSender then 1 else 0] := slice_at four rfl
  have flag : ofBE [if isSender then (1 : UInt8) else 0] = if isSender then 1 else 0 := by
    cases isSender <;> rfl
  have five : (be 4 id.toNat ++ [if isSender then (1 : UInt8) else 0]).length = 5 := by simp
  have command : slice 9 12 (be 4 id.toNat ++ ([if isSender then 1 else 0] ++ m.wire)) =
      m.command.take 12 := by
    rw [← List.append_assoc, slice_append_right _ (by rw [five]; decide), five,
      PackedMessage.wire, slice_take _ (by rw [packedSize]; omega)]
    rfl
  have payload : (be 4 id.toNat ++ ([if isSender then 1 else 0] ++ m.wire)).drop 29 =
      slice packedSize m.length m.buffer := by
    rw [← List.append_assoc, List.drop_append, List.drop_eq_nil_of_le (by rw [five]; decide), five,
      List.nil_append, PackedMessage.wire, List.drop_take, slice, packedSize]
    congr 1
    omega
  rw [unpackMessage, handle, sender, command, payload, flag, ofBE_be_of_lt id.toNat_lt]

/-- What is unpacked is what was logged. -/
theorem entryOf_record {l : Logged} (proper : l.Proper) (quiet : l.remote? = none) :
    entryOf l.record = l.entry := by
  obtain ⟨source, time, call⟩ := l
  cases call with
  | bitcoin updateType handleId remote localAddr text => cases quiet
  | bitcoinMsg id isSender m =>
      rw [entryOf, unpackProlog_bitcoinMsg]
      dsimp only
      rw [if_neg (by decide), if_neg (by decide), if_pos rfl, unpackMessage_wire]
      rfl
  | text kind val args =>
      rw [entryOf, unpackProlog_text]
      obtain ⟨plain, plain'⟩ := proper
      by_cases handled : kind.byte.toNat ∈ textTypes
      · simp only [Logged.entry, if_pos handled]
      · cases kind <;> first | contradiction | rfl

/-- Every record has the fields of its type. -/
theorem legible_record {l : Logged} (proper : l.Proper) (dated : l.Dated) : Legible l.record := by
  obtain ⟨source, time, call⟩ := l
  cases call with
  | bitcoin updateType handleId remote localAddr text =>
      have long : (Logged.record ⟨source, time,
          .bitcoin updateType handleId remote localAddr text⟩).length = 4 + bitcoinLen text.length := by
        rw [Logged.record, List.length_append, length_be, LogCall.content, bitcoinContent_length]
      rw [Legible, unpackProlog_bitcoin, long, bitcoinLen]
      refine ⟨?_, dated, fun _ => ?_, fun _ => ?_⟩ <;> omega
  | bitcoinMsg id isSender m =>
      have long : (Logged.record ⟨source, time, .bitcoinMsg id isSender m⟩).length =
          4 + bitcoinMsgLen m.length := by
        rw [Logged.record, List.length_append, length_be, LogCall.content, bitcoinMsgContent_length]
      rw [Legible, unpackProlog_bitcoinMsg, long, bitcoinMsgLen, packedSize]
      refine ⟨?_, dated, fun event => ?_, fun _ => ?_⟩
      · omega
      · cases event
      · omega
  | text kind val args =>
      have long : 13 ≤ (Logged.record ⟨source, time, .text kind val args⟩).length := by
        rw [Logged.record, List.length_append, length_be, LogCall.content, textContent]
        simp only [List.length_append, List.length_singleton, length_be]
        omega
      rw [Legible, unpackProlog_text]
      obtain ⟨plain, plain'⟩ := proper
      refine ⟨long, dated, fun event => ?_, fun sent => ?_⟩
      · cases kind <;> first | contradiction | cases event
      · cases kind <;> first | contradiction | cases sent

/-! ## Connection events -/

/-- The addresses the script makes of a connection event: the remote one, and one out of what
stands behind it. -/
theorem unpackCxn_event (updateType handleId : UInt32) (remote : SockaddrStorage)
    (rest : List UInt8) :
    let cxn := unpackCxn (be 4 handleId.toNat ++ (be 4 updateType.toNat ++ (remote.bytes ++ rest)))
    cxn.remote.family = remote.family ∧ cxn.localAddr.family = ofLE (slice 16 2 remote.bytes) := by
  have front : (be 4 handleId.toNat ++ be 4 updateType.toNat).length = 8 := by simp
  have part (off : Nat) (inside : off + 16 ≤ 128) :
      slice (8 + off) 16 (be 4 handleId.toNat ++ (be 4 updateType.toNat ++ (remote.bytes ++ rest))) =
        slice off 16 remote.bytes := by
    rw [← List.append_assoc, slice_append_right _ (by rw [front]; omega), front,
      Nat.add_sub_cancel_left, slice_append_left _ (by rw [remote.size]; exact inside)]
  constructor
  · show ofLE (slice 0 2 (slice (8 + 0) 16 _)) = _
    rw [part 0 (by decide), slice_slice _ (by decide)]
    rfl
  · show ofLE (slice 0 2 (slice (8 + 16) 16 _)) = _
    rw [part 16 (by decide), slice_slice _ (by decide)]

/-- A key starts with the digits of the family. -/
theorem addrKey_ne {a c : Address} (two : a.family = 2) (zero : c.family = 0) :
    addrKey a ≠ addrKey c := by
  intro same
  have left : decimal 2 = ['2'] := rfl
  have right : decimal 0 = ['0'] := rfl
  rw [addrKey, addrKey, two, zero, left, right] at same
  simp at same

/-- The script dies at a connection event with a remote address as the connector has it. -/
theorem event_dies {l : Logged} {remote : SockaddrStorage} (event : l.remote? = some remote)
    (padded : Padded remote) (dated : l.Dated) :
    ∃ all : Set Address, Set.InjOn addrKey all ∧ ∀ d : Database, d.Ready true all →
      d.handleMessage true l.record = .error .died := by
  obtain ⟨source, time, call⟩ := l
  cases call with
  | bitcoinMsg id isSender m => cases event
  | text kind val args => cases event
  | bitcoin updateType handleId remote' localAddr text =>
      obtain rfl : remote' = remote := Option.some.inj event
      have legible : Legible (Logged.record
          ⟨source, time, .bitcoin updateType handleId remote' localAddr text⟩) :=
        legible_record trivial dated
      have prolog := unpackProlog_bitcoin source time updateType handleId remote' localAddr text
      have families := unpackCxn_event updateType handleId remote'
        (localAddr.bytes ++ (be 4 text.length ++ text))
      generalize cxnEq : unpackCxn (be 4 handleId.toNat ++ (be 4 updateType.toNat ++
        (remote'.bytes ++ (localAddr.bytes ++ (be 4 text.length ++ text))))) = cxn at families
      dsimp only at families
      obtain ⟨far_, near_⟩ := families
      -- the handler is called with `cxn`
      have handler (d : Database) (refused : d.db.refuses cxn = true) :
          d.handleMessage true (Logged.record
            ⟨source, time, .bitcoin updateType handleId remote' localAddr text⟩) =
              .error .died := by
        rw [Database.handleMessage, if_neg (not_not.2 legible), prolog]
        dsimp only
        rw [if_neg (by decide), if_pos rfl, Database.bitcoinHandler]
        dsimp only
        rw [cxnEq, refused]
        rfl
      by_cases inet : remote'.family = AF_INET
      · have two : cxn.remote.family = 2 := far_.trans inet
        have zero : cxn.localAddr.family = 0 := by
          rw [near_, padded inet]
          rfl
        have apart : Set.InjOn addrKey {cxn.remote, cxn.localAddr} := by
          rintro a (rfl | rfl) c (rfl | rfl) same
          · rfl
          · exact absurd same (addrKey_ne two zero)
          · exact absurd same.symm (addrKey_ne two zero)
          · rfl
        refine ⟨_, apart, fun d ready => handler d ?_⟩
        rw [Db.refuses_iff ready.addresses (ready.intact.families rfl) apart (Or.inl rfl)
          (Or.inr rfl)]
        intro admitted
        have known := admitted.2.1
        rw [zero] at known
        exact absurd known (by decide)
      · refine ⟨{cxn.remote}, Set.injOn_singleton .., fun d ready => handler d ?_⟩
        have strange : cxn.remote.family ∉ addrFamilies := by
          rw [far_]
          intro known
          exact inet (List.mem_singleton.1 known)
        have refused := (Db.violates_iff d.db ready.addresses (ready.intact.families rfl) rfl).2
          strange
        rw [Db.refuses, refused]
        rfl

/-! ## All of it -/

section Logs

variable {foreignKeys : Bool} {all : Set Address}

theorem type_of_quiet {l : Logged} (proper : l.Proper) (quiet : l.remote? = none) :
    (unpackProlog l.record).type ≠ 16 := by
  obtain ⟨source, time, call⟩ := l
  cases call with
  | bitcoin updateType handleId remote localAddr text => cases quiet
  | bitcoinMsg id isSender m =>
      rw [unpackProlog_bitcoinMsg]
      show 32 ≠ 16
      decide
  | text kind val args =>
      rw [unpackProlog_text]
      obtain ⟨plain, -⟩ := proper
      show kind.byte.toNat ≠ 16
      cases kind <;> first | contradiction | decide

/-- Records that are no connection events are taken. -/
theorem foldlM_quiet (apart : Set.InjOn addrKey all) {log : List Logged}
    (proper : ∀ l ∈ log, l.Proper) (dated : ∀ l ∈ log, l.Dated)
    (quiet : ∀ l ∈ log, l.remote? = none) {d : Database} (ready : d.Ready foreignKeys all) :
    ∃ d', (log.map Logged.record).foldlM (fun d r => d.handleMessage foreignKeys r) d = .ok d' ∧
      d'.Ready foreignKeys all ∧ d'.entries = d.entries ++ log.filterMap Logged.entry := by
  have legible : ∀ r ∈ log.map Logged.record, Legible r := by
    intro r member
    obtain ⟨l, inside, rfl⟩ := List.mem_map.1 member
    exact legible_record (proper l inside) (dated l inside)
  have named : ∀ r ∈ log.map Logged.record, ∀ a ∈ addressesOf r, a ∈ all := by
    intro r member a here
    obtain ⟨l, inside, rfl⟩ := List.mem_map.1 member
    rw [addressesOf, if_neg (type_of_quiet (proper l inside) (quiet l inside))] at here
    cases here
  have taken : ∀ r ∈ log.map Logged.record, ¬ Refused r := by
    intro r member refused
    obtain ⟨l, inside, rfl⟩ := List.mem_map.1 member
    exact type_of_quiet (proper l inside) (quiet l inside) refused.1
  obtain ⟨d', handled, ready', entries⟩ :=
    foldlM_ready apart _ d ready legible named fun _ => taken
  refine ⟨d', handled, ready', ?_⟩
  rw [entries, List.filterMap_map]
  congr 1
  exact List.filterMap_congr fun l inside => entryOf_record (proper l inside) (quiet l inside)

end Logs

/-- The script reads, with any calls of `read`, a file with a log of any processes, whose records
and times fit and whose generic calls have the generic types.  If the log has no connection event,
the database gets the texts and the messages of peers as they were logged, in order.  If it has
some, with remote addresses as the connector has them, and SQLite checks references, then nothing
is committed, whatever else is in the log. -/
theorem log_to_sql (foreignKeys : Bool) (before : Database) (stored : before.Stored foreignKeys)
    (log : List Logged) (short : ∀ l ∈ log, l.Short) (proper : ∀ l ∈ log, l.Proper)
    (dated : ∀ l ∈ log, l.Dated) (reads : List Nat) (enough : (logFile log).length < reads.length) :
    ((∀ l ∈ log, l.remote? = none) →
      ∃ after, run (Script.step foreignKeys) (.start before (logFile log)) reads =
          .committed after ∧
        after.Stored foreignKeys ∧ after.entries = before.entries ++ log.filterMap Logged.entry) ∧
    (foreignKeys = true → (∃ l ∈ log, l.remote? ≠ none) →
      (∀ l ∈ log, ∀ remote, l.remote? = some remote → Padded remote) →
      run (Script.step foreignKeys) (.start before (logFile log)) reads = .stopped .died) := by
  rw [run_start foreignKeys before _ reads enough, recordsOf_logFile short]
  constructor
  · intro quiet
    obtain ⟨d, handled, ready, entries⟩ := foldlM_quiet (Set.injOn_empty _) proper dated
      quiet (stored.ready ∅)
    obtain ⟨after, finished, stored', same⟩ := ready.finish
    exact ⟨after, by rw [handled]; exact finished, stored', same.trans entries⟩
  · rintro rfl ⟨l, member, event⟩ padded
    -- up to the first event everything is taken
    have loud : ∃ first, log.find? (fun l => l.remote?.isSome) = some first := by
      rw [← Option.isSome_iff_exists, List.find?_isSome]
      exact ⟨l, member, Option.isSome_iff_ne_none.2 event⟩
    obtain ⟨first, found⟩ := loud
    obtain ⟨here, pre, post, rfl, earlier⟩ := List.find?_eq_some_iff_append.1 found
    obtain ⟨remote, remoteEq⟩ := Option.isSome_iff_exists.1 here
    have inside : first ∈ pre ++ first :: post :=
      List.mem_append_right _ List.mem_cons_self
    obtain ⟨all, apart, dies⟩ := event_dies remoteEq (padded first inside remote remoteEq)
      (dated first inside)
    have quiet : ∀ l ∈ pre, l.remote? = none := by
      intro l before_
      simpa using earlier l before_
    obtain ⟨d, handled, ready, -⟩ := foldlM_quiet apart
      (fun l before_ => proper l (List.mem_append_left _ before_))
      (fun l before_ => dated l (List.mem_append_left _ before_)) quiet (stored.ready all)
    rw [List.map_append, List.map_cons, List.foldlM_append, handled]
    show closing (List.foldlM _ d (first.record :: post.map Logged.record)) = _
    rw [List.foldlM_cons, dies d ready]
    rfl

/-- The memory of a `verack`, whose length is zero. -/
def verackMemory : List UInt8 := be 4 7 ++ ascii ['v', 'e', 'r', 'a', 'c', 'k'] ++ be 14 0

theorem verackMemory_whole : packedSize + packedLength verackMemory ≤ verackMemory.length := by
  decide +kernel

/-- `0.0.0.0:0`. -/
def zeroInet : List UInt8 := [2, 0] ++ be 126 0

theorem zeroInet_length : zeroInet.length = 128 := by simp [zeroInet]

/-- A text of one process, and a message that another one has received. -/
def someLog : List Logged :=
  [⟨1, 5, .text .DEBUG (ascii ['h', 'i']) []⟩,
    ⟨2, 6, .bitcoinMsg 9 false ⟨verackMemory, verackMemory_whole⟩⟩]

/-- A connection to an IPv4 address. -/
def someEvent : Logged :=
  ⟨1, 7, .bitcoin CONNECT_SUCCESS 9 ⟨zeroInet, zeroInet_length⟩ ⟨zeroInet, zeroInet_length⟩ []⟩

/-- The log alone is imported, with the event behind it nothing is. -/
theorem log_to_sql_small :
    (∃ after, run (Script.step true) (.start emptyDatabase (logFile someLog))
        (List.replicate 99 9) = .committed after ∧
      after.entries = [.text 2 5 (ascii ['h', 'i', '\x00']),
        .message 6 ⟨9, 0, ascii ['v', 'e', 'r', 'a', 'c', 'k'], []⟩]) ∧
    run (Script.step true) (.start emptyDatabase (logFile (someLog ++ [someEvent])))
      (List.replicate 399 9) = .stopped .died := by
  have short : ∀ l ∈ someLog ++ [someEvent], l.record.length < 2 ^ 32 := by decide +kernel
  have proper : ∀ l ∈ someLog ++ [someEvent], l.Proper := by
    intro l member
    simp only [someLog, List.cons_append, List.nil_append, List.mem_cons, List.not_mem_nil,
      or_false] at member
    rcases member with rfl | rfl | rfl
    · exact ⟨by decide, by decide⟩
    · trivial
    · trivial
  have dated : ∀ l ∈ someLog ++ [someEvent], l.time.toNat < 2 ^ 63 := by decide
  constructor
  · obtain ⟨after, committed, -, entries⟩ := (log_to_sql true emptyDatabase
      (emptyDatabase_stored true) someLog (fun l member => short l (List.mem_append_left _ member))
      (fun l member => proper l (List.mem_append_left _ member))
      (fun l member => dated l (List.mem_append_left _ member)) (List.replicate 99 9)
      (by decide +kernel)).1 (by decide +kernel)
    refine ⟨after, committed, entries.trans ?_⟩
    decide +kernel
  · refine (log_to_sql true emptyDatabase (emptyDatabase_stored true) (someLog ++ [someEvent]) short
      proper dated (List.replicate 399 9) (by decide +kernel)).2 rfl ?_ ?_
    · exact ⟨someEvent, List.mem_append_right _ (List.mem_singleton_self _), by decide +kernel⟩
    · have padded : ∀ l ∈ someLog ++ [someEvent], ∀ remote ∈ l.remote?,
          slice 16 2 remote.bytes = [0, 0] := by decide +kernel
      intro l member remote event _
      exact padded l member remote event

end Coinscope.Tools.Verbatim2sql

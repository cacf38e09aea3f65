/-
# Attempts.Outcomes -- the record a connection attempt ends with

A client that asked for a connection learns from the log what became of it: one BITCOIN
record, CONNECT_SUCCESS or CONNECT_FAILURE, with the address it asked for.  The success is
logged by the constructor of the new handler, a failure by the attempt.  A direct attempt
logs every failure so, and an attempt through the proxy the failures of its constructor;
when the proxy hangs up or refuses later there is a text for the operator and no record.

* `Life` -- an attempt from its constructor on, with the calls of `g_log` made for it.
* `outcomes` -- the addresses in the records that end an attempt.
* `TorHandler.GivesUp`, `TorHandler.Ends` -- how a callback of a proxy attempt ends.
* `outcome_iff` -- the attempts that report exactly one outcome, when they are retired.
-/
import Coinscope.Attempts.ConnectHandlers

namespace Coinscope.Attempts

open Coinscope.Shared
open Coinscope.Theory.Bytes
open Coinscope.Theory.Runs
open Coinscope.Control (Globals Outside Attempt text torHost peek)
open Std (TreeMap)

set_option autoImplicit false

/-! ## Attempts of either kind -/

/-- A `connect_handler` or a `tor_connect_handler`. -/
inductive Object where
  | direct (h : ConnectHandler)
  | tor (h : TorHandler)

namespace Object

/-- The object a constructor leaves behind that has to wait. -/
def ofAttempt : Attempt → Object
  | .direct fd remote => .direct (.new fd remote)
  | .tor fd remote onionHost => .tor { TorHandler.new fd remote none with
      onionHost := onionHost.take 62
      hostFits := List.length_take_le .. }

/-- The watcher is started; else the object is in `g_inactive_connection_handlers` or in
`g_inactive_tor_handlers`. -/
def waiting : Object → Bool
  | direct h => h.io.active
  | tor h => h.io.active

/-- `io_cb` of either class. -/
def ioCb (cfg : Config) (o : Object) (c : Callback) : Globals × Object :=
  match o with
  | direct h => ((h.ioCb cfg c).1, .direct (h.ioCb cfg c).2)
  | tor h => ((h.ioCb cfg c).1, .tor (h.ioCb cfg c).2)

end Object

theorem torHost_length (remote : SockaddrStorage) (hostname : Option (List UInt8)) :
    (torHost remote hostname).length ≤ 62 := by
  cases hostname with
  | none => exact List.length_take_le ..
  | some name => exact List.length_take_le ..

theorem ofAttempt_tor (fd : Nat) (remote : SockaddrStorage) (hostname : Option (List UInt8)) :
    Object.ofAttempt (.tor fd remote (torHost remote hostname)) =
      .tor (TorHandler.new fd remote hostname) := by
  simp only [Object.ofAttempt, TorHandler.new,
    List.take_of_length_le (torHost_length remote hostname)]

/-- The arguments of a constructor. -/
inductive Made where
  | direct (fd : Nat) (remote : SockaddrStorage)
  | tor (remote : SockaddrStorage) (hostname : Option (List UInt8))

namespace Made

/-- `connect_handler(fd, remote_addr)` or `tor_connect_handler(onion_addr[, hostname])`. -/
def construct (cfg : Config) (out : Outside) (g : Globals) : Made → Globals
  | direct fd remote => g.connectHandler cfg out fd remote
  | tor remote hostname => g.torConnectHandler cfg out remote (torHost remote hostname)

def remote : Made → SockaddrStorage
  | direct _ remote => remote
  | tor remote _ => remote

end Made

/-! ## What is logged -/

/-- The process before a step, without its log and its handlers; what it has behind the step
is of the step.  No step of an attempt reads either. -/
def emptied (g : Globals) : Globals := { g with activeHandlers := ∅, log := [] }

/-- The calls of `g_log`, by the process and by the constructors of its handlers. -/
def loggedIn (g : Globals) : List LogCall :=
  g.log ++ g.activeHandlers.toList.flatMap fun entry => entry.2.log

/-- The addresses in CONNECT_SUCCESS and CONNECT_FAILURE records. -/
def outcomes (calls : List LogCall) : List SockaddrStorage :=
  calls.filterMap fun
    | .bitcoin updateType _ remote _ _ =>
        if updateType = CONNECT_SUCCESS ∨ updateType = CONNECT_FAILURE then some remote else none
    | .bitcoinMsg .. => none
    | .text .. => none

theorem outcomes_append (a b : List LogCall) : outcomes (a ++ b) = outcomes a ++ outcomes b :=
  List.filterMap_append

/-- A text is no record. -/
theorem loggedIn_gLog (g : Globals) (kind : LogType) (val : List UInt8)
    (args : List (List UInt8)) :
    outcomes (loggedIn (g.gLog kind val args)) = outcomes (loggedIn g) := by
  simp [loggedIn, Globals.gLog, outcomes]

/-- A success is logged by the handler that is made, whatever its id. -/
theorem loggedIn_setupHandler (cfg : Config) (out : Outside) {g : Globals} (fd : Nat)
    (remote : SockaddrStorage) (none_ : g.activeHandlers = ∅) :
    outcomes (loggedIn (g.setupHandler cfg out fd remote)) = outcomes g.log ++ [remote] := by
  have one : ∀ h : Connector.Handler,
      ((∅ : TreeMap UInt32 Connector.Handler).insertIfNew g.idPool h).toList = [(g.idPool, h)] := by
    intro h
    rfl
  unfold loggedIn Globals.setupHandler
  simp only [none_, one, outcomes_append]
  rfl

theorem loggedIn_connectFailure {g : Globals} (family : Nat) (remote : SockaddrStorage)
    (err : List UInt8) (none_ : g.activeHandlers = ∅) :
    outcomes (loggedIn (g.connectFailure family remote err)) = outcomes g.log ++ [remote] := by
  have nothing : (∅ : TreeMap UInt32 Connector.Handler).toList = [] := rfl
  simp only [loggedIn, Globals.connectFailure, none_, nothing, List.flatMap_nil, List.append_nil,
    outcomes_append]
  rfl

/-! ## How a callback ends -/

namespace TorHandler

/-- A step of the SOCKS5 client fails: `write` refuses part of the array with an error, or
`read` fails, or it finds the end, or the reply says no. -/
def GivesUp (h : TorHandler) (c : Callback) : Prop :=
  (∃ o, h.offer c = some o ∧ accepts c.outbox < o.buf.length ∧ refusal c.outbox ≠ .eagain) ∨
    ∃ size, h.wants c = some size ∧ (c.answer = .eof ∨ (∃ e, c.answer = .err e ∧ e ≠ .eagain) ∨
      ∃ chunk, c.answer = .data chunk ∧ ¬ Granted c (chunk.bytes.take size))

/-- The three ways a callback ends: the attempt goes on with its descriptor, it is given up
with a text and the descriptor closed, or a new handler has the descriptor. -/
inductive Ends (cfg : Config) (h : TorHandler) (c : Callback) : Globals × TorHandler → Prop
  | waits {h' : TorHandler} (goesOn : ¬ h.GivesUp c) (active : h'.io.active = true)
      (same : h'.fd = h.fd ∧ h'.closed = h.closed) : Ends cfg h c (c.globals, h')
  | gaveUp {h' : TorHandler} (val : List UInt8) (args : List (List UInt8))
      (gives : h.GivesUp c) (ended : h'.io.active = false) (closed : h'.closed = true) :
      Ends cfg h c (c.globals.gLog .ERROR val args, h')
  | connected {h' : TorHandler} (goesOn : ¬ h.GivesUp c) (ended : h'.io.active = false)
      (same : h'.closed = h.closed) :
      Ends cfg h c (c.globals.setupHandler cfg c.out h.fd.toNat h.remoteAddr, h')

/-- What is given up with an open descriptor is closed. -/
theorem advance_closed {h : TorHandler} (isOpen : 0 ≤ h.fd) : h.advance.closed = true := by
  simp [advance, isOpen]

theorem not_givesUp_of_quiet {h : TorHandler} {c : Callback} (quiet : h.offer c = none)
    (deaf : h.wants c = none) : ¬ h.GivesUp c := by
  rintro (⟨o, offered, -⟩ | ⟨size, wanted, -⟩)
  · rw [quiet] at offered
    cases offered
  · rw [deaf] at wanted
    cases wanted

/-- A callback that offers something gives up exactly if `write` fails it. -/
theorem givesUp_of_offer {h : TorHandler} {c : Callback} {o : Offer} (offered : h.offer c = some o) :
    h.GivesUp c ↔ accepts c.outbox < o.buf.length ∧ refusal c.outbox ≠ .eagain := by
  constructor
  · rintro (⟨o', offered', fails⟩ | ⟨size, wanted, -⟩)
    · rw [offered] at offered'
      cases offered'
      exact fails
    · rw [offer_of_wants wanted] at offered
      cases offered
  · exact fun fails => Or.inl ⟨o, offered, fails⟩

/-- A callback that reads gives up exactly if the answer is not what it waits for. -/
theorem givesUp_of_wants {h : TorHandler} {c : Callback} {size : Nat}
    (wanted : h.wants c = some size) :
    h.GivesUp c ↔ (c.answer = .eof ∨ (∃ e, c.answer = .err e ∧ e ≠ .eagain) ∨
      ∃ chunk, c.answer = .data chunk ∧ ¬ Granted c (chunk.bytes.take size)) := by
  constructor
  · rintro (⟨o, offered, -⟩ | ⟨size', wanted', fails⟩)
    · rw [offer_of_wants wanted] at offered
      cases offered
    · rw [wanted] at wanted'
      cases wanted'
      exact fails
  · exact fun fails => Or.inr ⟨size, wanted, fails⟩

theorem send_ends (cfg : Config) {c : Callback} {h : TorHandler} (isOpen : 0 ≤ h.fd)
    {o : Offer} (offered : h.offer c = some o) (failure : String) :
    Ends cfg h c (h.send cfg c.globals c.outbox o.buf failure o.next o.expected) := by
  have active : h.io.active = true := (offer_cases offered).1
  by_cases enough : o.buf.length ≤ accepts c.outbox
  · have all := sendLoop_full isOpen o.buf c.outbox (Nat.zero_le _) (by omega)
    have goesOn : ¬ h.GivesUp c := by
      rw [givesUp_of_offer offered]
      omega
    simp only [send, all, Nat.le_refl, if_true]
    exact .waits goesOn rfl ⟨rfl, rfl⟩
  · have part := sendLoop_short isOpen o.buf c.outbox (show 0 + accepts c.outbox < _ by omega)
    rw [Nat.zero_add] at part
    by_cases later : refusal c.outbox = .eagain
    · have goesOn : ¬ h.GivesUp c := by
        rw [givesUp_of_offer offered]
        exact fun fails => fails.2 later
      simp only [send, part, fatal, later, if_true, if_neg enough]
      exact .waits goesOn active ⟨rfl, rfl⟩
    · simp only [send, part, fatal, later, if_false]
      exact .gaveUp _ _ ((givesUp_of_offer offered).2 ⟨by omega, later⟩) rfl
        (advance_closed isOpen)

theorem recv_ends (cfg : Config) {c : Callback} {h : TorHandler} (isOpen : 0 ≤ h.fd) {size : Nat}
    (wanted : h.wants c = some size) (disconnected failure : String)
    {parse : TorHandler → UInt8 → UInt8 → Globals × TorHandler}
    (reply : ∀ chunk, c.answer = .data chunk → Ends cfg h c
      (parse (h.took (chunk.bytes.take size)) (peek (chunk.bytes.take size) c.out.beyond 0)
        (peek (chunk.bytes.take size) c.out.beyond 1))) :
    Ends cfg h c (h.recv cfg c.out c.globals c.answer size disconnected failure parse) := by
  have active : h.io.active = true := (wants_cases wanted).1
  cases answer : c.answer with
  | data chunk => exact reply chunk answer
  | eof =>
      exact .gaveUp _ _ ((givesUp_of_wants wanted).2 (Or.inl answer)) rfl (advance_closed isOpen)
  | err e =>
      by_cases later : e = .eagain
      · have goesOn : ¬ h.GivesUp c := by
          rw [givesUp_of_wants wanted, answer, later]
          rintro (no | ⟨e', same, other⟩ | ⟨chunk, no, -⟩)
          · cases no
          · cases same
            exact other rfl
          · cases no
        simp only [recv, fatal, later, if_true]
        exact .waits goesOn active ⟨rfl, rfl⟩
      · simp only [recv, fatal, later, if_false]
        exact .gaveUp _ _ ((givesUp_of_wants wanted).2 (Or.inr (Or.inl ⟨e, answer, later⟩))) rfl
          (advance_closed isOpen)

/-- A reply that says yes ends nothing by itself. -/
theorem not_givesUp_of_granted {h : TorHandler} {c : Callback} {size : Nat} {chunk : Chunk}
    (wanted : h.wants c = some size) (data : c.answer = .data chunk)
    (granted : Granted c (chunk.bytes.take size)) : ¬ h.GivesUp c := by
  rw [givesUp_of_wants wanted, data]
  rintro (no | ⟨e, no, -⟩ | ⟨chunk', same, refused⟩)
  · cases no
  · cases no
  · cases same
    exact refused granted

/-- Every callback of a proxy attempt that waits. -/
theorem ioCb_ends (cfg : Config) {h : TorHandler} (valid : h.Valid) (active : h.io.active = true)
    (c : Callback) : Ends cfg h c (h.ioCb cfg c) := by
  have isOpen := valid.isOpen active
  unfold ioCb
  rcases valid.working active with state | state | state | state
  · by_cases event : c.revents.write = true
    · have offered : h.offer c = some ⟨greeting, .TOR_RECV_GREETING, 2⟩ := by
        simp [offer, active, event, state]
      simp only [state, event, if_true, sendGreeting]
      exact send_ends cfg isOpen offered _
    · simp only [state, event]
      exact .waits (not_givesUp_of_quiet (by simp [offer, event]) (by simp [wants, state])) active
        ⟨rfl, rfl⟩
  · by_cases event : c.revents.read = true
    · have wanted : h.wants c = some 2 := by simp [wants, active, event, state]
      simp only [state, event, if_true, recvGreeting]
      refine recv_ends cfg isOpen wanted _ _ ?_
      intro chunk data
      split
      · exact .waits (not_givesUp_of_granted wanted data ‹_›) rfl ⟨rfl, rfl⟩
      · rename_i refused
        exact .gaveUp _ _ ((givesUp_of_wants wanted).2 (Or.inr (Or.inr ⟨chunk, data, refused⟩))) rfl
          (advance_closed isOpen)
    · simp only [state, event]
      exact .waits (not_givesUp_of_quiet (by simp [offer, state]) (by simp [wants, event])) active
        ⟨rfl, rfl⟩
  · by_cases event : c.revents.write = true
    · have offered : h.offer c =
          some ⟨h.connectBuffer (c.out.beyond 0), .TOR_RECV_CONNECT, 4⟩ := by
        simp [offer, active, event, state]
      simp only [state, event, if_true, sendConnect]
      exact send_ends cfg isOpen offered _
    · simp only [state, event]
      exact .waits (not_givesUp_of_quiet (by simp [offer, event]) (by simp [wants, state])) active
        ⟨rfl, rfl⟩
  · by_cases event : c.revents.read = true
    · have wanted : h.wants c = some 256 := by simp [wants, active, event, state]
      simp only [state, event, if_true, recvConnect]
      refine recv_ends cfg isOpen wanted _ _ ?_
      intro chunk data
      split
      · exact .connected (not_givesUp_of_granted wanted data ‹_›) rfl (Bool.or_false _)
      · rename_i refused
        exact .gaveUp _ _ ((givesUp_of_wants wanted).2 (Or.inr (Or.inr ⟨chunk, data, refused⟩))) rfl
          (advance_closed isOpen)
    · simp only [state, event]
      exact .waits (not_givesUp_of_quiet (by simp [offer, state]) (by simp [wants, event])) active
        ⟨rfl, rfl⟩

end TorHandler

/-! ## From the constructor to the end -/

/-- An attempt and the calls of `g_log` made for it.  Without an object it is retired. -/
structure Life where
  object : Option Object
  calls : List LogCall

namespace Life

/-- Behind the constructor. -/
def begin (cfg : Config) (out : Outside) (g : Globals) (made : Made) : Life where
  object := ((made.construct cfg out g).attempts.drop g.attempts.length).head?.map Object.ofAttempt
  calls := loggedIn (made.construct cfg out (emptied g))

/-- Behind a callback, which only an object that waits gets. -/
def step (cfg : Config) (life : Life) (c : Callback) : Life :=
  match life.object with
  | none => life
  | some o =>
      { object := if (o.ioCb cfg c).2.waiting then some (o.ioCb cfg c).2 else none
        calls := life.calls ++
          loggedIn (o.ioCb cfg { c with globals := emptied c.globals }).1 }

/-- A retired attempt has reported its address once, and one that waits has not yet. -/
def Reported (remote : SockaddrStorage) (life : Life) : Prop :=
  outcomes life.calls = if life.object.isNone then [remote] else []

/-- The callback does not give a proxy attempt up. -/
def Answered (life : Life) (c : Callback) : Prop :=
  ∀ h, life.object = some (.tor h) → ¬ h.GivesUp c

/-- An object that waits, for this address. -/
def Waits (remote : SockaddrStorage) : Object → Prop
  | .direct h => h.io.active = true ∧ h.remoteAddr = remote
  | .tor h => h.io.active = true ∧ h.remoteAddr = remote ∧ h.Valid

/-- The invariant of the attempts that report their outcome. -/
structure Orderly (remote : SockaddrStorage) (life : Life) : Prop where
  reported : life.Reported remote
  object : ∀ o, life.object = some o → Waits remote o

theorem orderly_retired {remote : SockaddrStorage} {calls : List LogCall}
    (one : outcomes calls = [remote]) : Orderly remote ⟨none, calls⟩ :=
  ⟨one, fun _ no => by cases no⟩

theorem orderly_waits {remote : SockaddrStorage} {o : Object} {calls : List LogCall}
    (none_ : outcomes calls = []) (waits : Waits remote o) : Orderly remote ⟨some o, calls⟩ :=
  ⟨none_, fun _ same => by cases same; exact waits⟩

/-- The constructors report what they end, and nothing else. -/
theorem begin_orderly (cfg : Config) (out : Outside) (g : Globals) (made : Made) :
    Orderly made.remote (begin cfg out g made) := by
  have nothing : outcomes (loggedIn (emptied g)) = [] := rfl
  cases made with
  | direct fd remote =>
      have same : (emptied g).blacklist = g.blacklist := rfl
      unfold begin Made.construct Globals.connectHandler
      simp only [same]
      split
      · rw [Globals.connectFailure, List.drop_length]
        exact orderly_retired (loggedIn_connectFailure _ _ _ rfl)
      · split
        · rw [Globals.setupHandler, Globals.gLog, List.drop_length]
          exact orderly_retired (loggedIn_setupHandler cfg out fd remote rfl)
        · split
          · rw [List.drop_left]
            exact orderly_waits nothing ⟨rfl, rfl⟩
          · rw [Globals.connectFailure, List.drop_length]
            exact orderly_retired (loggedIn_connectFailure _ _ _ rfl)
  | tor remote hostname =>
      have failed : ∀ what : List UInt8, Orderly remote
          ⟨(((((g.gLog .ERROR (text "Tor proxy connection failed") [what]).connectFailure AF_INET6
            remote what).attempts.drop g.attempts.length).head?.map Object.ofAttempt)),
            loggedIn (((emptied g).gLog .ERROR (text "Tor proxy connection failed")
              [what]).connectFailure AF_INET6 remote what)⟩ := by
        intro what
        rw [Globals.connectFailure, Globals.gLog, List.drop_length]
        exact orderly_retired (loggedIn_connectFailure _ _ _ rfl)
      have waits : ∀ fd : Nat, Orderly remote
          ⟨((g.attempts ++ [Attempt.tor fd remote (torHost remote hostname)]).drop
            g.attempts.length).head?.map Object.ofAttempt, loggedIn { emptied g with
              attempts := g.attempts ++ [.tor fd remote (torHost remote hostname)] }⟩ := by
        intro fd
        rw [List.drop_left]
        refine orderly_waits nothing ?_
        rw [ofAttempt_tor]
        exact ⟨rfl, rfl, TorHandler.new_valid fd remote hostname⟩
      unfold begin Made.construct Globals.torConnectHandler
      simp only
      split
      · exact failed _
      · split
        · exact waits _
        · split
          · exact waits _
          · exact failed _

theorem step_direct (cfg : Config) {h : ConnectHandler} (c : Callback) (calls : List LogCall) :
    step cfg ⟨some (.direct h), calls⟩ c =
      ⟨if (h.ioCb cfg c).2.io.active then some (.direct (h.ioCb cfg c).2) else none,
        calls ++ loggedIn (h.ioCb cfg { c with globals := emptied c.globals }).1⟩ := rfl

theorem step_tor (cfg : Config) {h : TorHandler} (c : Callback) (calls : List LogCall) :
    step cfg ⟨some (.tor h), calls⟩ c =
      ⟨if (h.ioCb cfg c).2.io.active then some (.tor (h.ioCb cfg c).2) else none,
        calls ++ loggedIn (h.ioCb cfg { c with globals := emptied c.globals }).1⟩ := rfl

/-- A direct attempt reports every end it comes to. -/
theorem direct_orderly (cfg : Config) {remote : SockaddrStorage} {h : ConnectHandler}
    {calls : List LogCall} (none_ : outcomes calls = []) (waits : Waits remote (.direct h))
    (c : Callback) : Orderly remote (step cfg ⟨some (.direct h), calls⟩ c) := by
  obtain ⟨active, address⟩ := waits
  have nothing : outcomes (loggedIn (emptied c.globals)) = [] := rfl
  rw [step_direct]
  unfold ConnectHandler.ioCb
  simp only
  split
  · refine orderly_retired ?_
    rw [outcomes_append, none_, loggedIn_setupHandler cfg c.out _ _ rfl, address]
    rfl
  · split
    · refine orderly_waits ?_ ⟨active, address⟩
      rw [outcomes_append, none_, nothing]
      rfl
    · refine orderly_retired ?_
      rw [outcomes_append, none_, loggedIn_connectFailure _ _ _ rfl, address]
      rfl

/-- The object behind a callback does not depend on what was logged before. -/
theorem ioCb_emptied (cfg : Config) (h : TorHandler) (c : Callback) :
    (h.ioCb cfg { c with globals := emptied c.globals }).2 = (h.ioCb cfg c).2 := by
  have send : ∀ (g : Globals) (buf : List UInt8) (failure : String) (next : TorState)
      (expected : Nat), (h.send cfg g c.outbox buf failure next expected).2 =
        (h.send cfg c.globals c.outbox buf failure next expected).2 := by
    intro g buf failure next expected
    unfold TorHandler.send
    simp only
    split
    · rfl
    · split
      · rfl
      · rfl
  unfold TorHandler.ioCb
  cases h.state with
  | TOR_CONNECT_PROXY =>
      simp only [TorHandler.proxyConnected]
      split <;> rfl
  | TOR_SEND_GREETING =>
      simp only
      split
      · exact send ..
      · rfl
  | TOR_RECV_GREETING =>
      simp only
      split
      · unfold TorHandler.recvGreeting TorHandler.recv
        split
        · simp only
          split <;> rfl
        · rfl
        · split <;> rfl
      · rfl
  | TOR_SEND_CONNECT =>
      simp only
      split
      · exact send ..
      · rfl
  | TOR_RECV_CONNECT =>
      simp only
      split
      · unfold TorHandler.recvConnect TorHandler.recv
        split
        · simp only
          split <;> rfl
        · rfl
        · split <;> rfl
      · rfl
  | TOR_HANDSHAKE_DONE => rfl

/-- What a callback does to a proxy attempt that waits: it is orderly still, or the callback
has given it up, and it is retired without a record. -/
theorem tor_orderly (cfg : Config) {remote : SockaddrStorage} {h : TorHandler}
    {calls : List LogCall} (none_ : outcomes calls = []) (waits : Waits remote (.tor h))
    (c : Callback) :
    ¬ h.GivesUp c ∧ Orderly remote (step cfg ⟨some (.tor h), calls⟩ c) ∨
      h.GivesUp c ∧ (step cfg ⟨some (.tor h), calls⟩ c).object = none ∧
        outcomes (step cfg ⟨some (.tor h), calls⟩ c).calls = [] := by
  obtain ⟨active, address, valid⟩ := waits
  have moves := TorHandler.step_moves cfg valid c
  rw [TorHandler.step, if_pos active] at moves
  have ends := TorHandler.ioCb_ends cfg valid active { c with globals := emptied c.globals }
  have same := ioCb_emptied cfg h c
  generalize logged : h.ioCb cfg { c with globals := emptied c.globals } = r at ends same
  rw [step_tor, ← same, logged]
  cases ends with
  | waits goesOn active =>
      left
      refine ⟨goesOn, ?_⟩
      rw [if_pos active]
      refine orderly_waits ?_ ⟨active, ?_, ?_⟩
      · rw [outcomes_append, none_]
        rfl
      · exact (same ▸ moves.same.1).trans address
      · exact same ▸ moves.valid valid
  | gaveUp val args gives ended =>
      right
      refine ⟨gives, ?_, ?_⟩
      · simp only [ended, Bool.false_eq_true, if_false]
      · show outcomes (calls ++ _) = []
        rw [outcomes_append, none_, loggedIn_gLog]
        rfl
  | connected goesOn ended =>
      left
      refine ⟨goesOn, ?_⟩
      simp only [ended, Bool.false_eq_true, if_false]
      refine orderly_retired ?_
      rw [outcomes_append, none_, loggedIn_setupHandler cfg c.out _ _ rfl, address]
      rfl

/-- An orderly attempt stays so exactly if the callback does not give it up; else it is
retired and has reported nothing. -/
theorem step_orderly (cfg : Config) {remote : SockaddrStorage} {life : Life}
    (orderly : Orderly remote life) (c : Callback) :
    life.Answered c ∧ Orderly remote (life.step cfg c) ∨
      ¬ life.Answered c ∧ (life.step cfg c).object = none ∧
        outcomes (life.step cfg c).calls = [] := by
  obtain ⟨object, calls⟩ := life
  cases object with
  | none => exact Or.inl ⟨fun _ no => (by cases no), orderly⟩
  | some o =>
      have none_ : outcomes calls = [] := orderly.reported
      have waits := orderly.object o rfl
      cases o with
      | direct h => exact Or.inl ⟨fun _ no => (by cases no), direct_orderly cfg none_ waits c⟩
      | tor h =>
          rcases tor_orderly cfg none_ waits c with ⟨goesOn, next⟩ | ⟨gives, ended⟩
          · exact Or.inl ⟨fun _ same => (by cases same; exact goesOn), next⟩
          · exact Or.inr ⟨fun answered => answered h rfl gives, ended⟩

end Life

/-- For every attempt, whatever the constructor and its callbacks meet: behind every
callback it has reported its address in exactly one record if it is retired, and in none if
it waits, exactly if no step of the SOCKS5 client has failed. -/
theorem outcome_iff (cfg : Config) (out : Outside) (g : Globals) (made : Made)
    (callbacks : List Callback) :
    (run (Life.step cfg) (Life.begin cfg out g made) callbacks).Reported made.remote ↔
      Along (Life.step cfg) Life.Answered (Life.begin cfg out g made) callbacks := by
  refine run_iff_along (I := Life.Orderly made.remote)
    (J := fun life => life.object = none ∨ Life.Orderly made.remote life) ?_ ?_ ?_ ?_ ?_
    (Life.begin_orderly cfg out g made) callbacks
  · rintro life c (retired | orderly)
    · left
      simp only [Life.step, retired]
    · rcases Life.step_orderly cfg orderly c with ⟨-, next⟩ | ⟨-, retired, -⟩
      · exact Or.inr next
      · exact Or.inl retired
  · exact fun life orderly => ⟨orderly.reported, Or.inr orderly⟩
  · intro life c orderly answered
    rcases Life.step_orderly cfg orderly c with ⟨-, next⟩ | ⟨not, -⟩
    · exact next
    · exact absurd answered not
  · intro life c orderly not
    rcases Life.step_orderly cfg orderly c with ⟨answered, -⟩ | ⟨-, retired, none_⟩
    · exact absurd answered not
    · intro reported
      rw [Life.Reported, retired, none_] at reported
      cases reported
  · rintro life c (retired | orderly) silent
    · have same : life.step cfg c = life := by simp only [Life.step, retired]
      rw [same]
      exact silent
    · exact absurd orderly.reported silent

/-- The proxy refuses the connection: there is a text, and no record. -/
def someRefusal : List Callback :=
  [.writable [.accept 3], .readable noAuthentication, .writable [.accept 100],
    .readable ⟨[5, 5, 0, 1, 0, 0, 0, 0, 0, 0], by decide, by decide⟩]

theorem refusal_unreported :
    (run (Life.step Connector.someConfig) (Life.begin Connector.someConfig Control.someOutside
        Control.someGlobals (.tor someOnion (some (text "expyuzz4wqqyqhjn")))) someRefusal).object.isNone =
          true ∧
      ¬ (run (Life.step Connector.someConfig) (Life.begin Connector.someConfig Control.someOutside
        Control.someGlobals (.tor someOnion (some (text "expyuzz4wqqyqhjn")))) someRefusal).Reported
          someOnion := by
  have retired : (run (Life.step Connector.someConfig) (Life.begin Connector.someConfig
      Control.someOutside Control.someGlobals (.tor someOnion (some (text "expyuzz4wqqyqhjn"))))
      someRefusal).object.isNone = true := by decide +kernel
  have silent : outcomes (run (Life.step Connector.someConfig) (Life.begin Connector.someConfig
      Control.someOutside Control.someGlobals (.tor someOnion (some (text "expyuzz4wqqyqhjn"))))
      someRefusal).calls = [] := by decide +kernel
  refine ⟨retired, ?_⟩
  rw [Life.Reported, retired, silent]
  intro no
  cases no

end Coinscope.Attempts

/-
# Process.Blacklist -- addresses that are not talked to

`g_blacklist` is asked when a peer is accepted and when a direct attempt is begun.  An
attempt that has to wait is not asked about again when it completes, and a SIGHUP in between
may have put its address on the list.

* `Process.Gated` -- no direct connection of this step is to an address on the list.
* `Process.Rechecked` -- no attempt that has waited completes to one.
* `blacklist_gates` -- the second is all the first needs.
-/
import Coinscope.Process.EventLoop
import Coinscope.Control.Disconnection
import Coinscope.Connector.VersionExchange

namespace Coinscope.Process

open Coinscope.Shared
open Coinscope.Control
open Coinscope.Attempts (Object ConnectHandler TorHandler)
open Coinscope.Theory
open Coinscope.Theory.Runs
open Std (TreeMap)

set_option autoImplicit false

/-- The callback is that of an attempt through the proxy. -/
def throughProxy (p : Process) : Event → Bool
  | .attempt k _ =>
      match p.pending[k]? with
      | some (.tor _) => true
      | _ => false
  | _ => false

/-- Every handler that `connect_handler` or `accept_handler` inserts in this step has an
address that is not on the list. -/
def Gated (cfg : Config) (p : Process) (e : Event) : Prop :=
  p.throughProxy e = false → ∀ (id : UInt32) (h : Connector.Handler),
    p.globals.activeHandlers[id]? = none →
    (p.step cfg e).globals.activeHandlers[id]? = some h →
    p.globals.blacklist h.remoteAddr = false

/-- A direct attempt that has waited does not complete while its address is on the list. -/
def Rechecked (p : Process) : Event → Prop
  | .attempt k c => ∀ h : ConnectHandler, p.pending[k]? = some (.direct h) → c.out.connect = none →
      p.globals.blacklist h.remoteAddr = false
  | _ => True

/-- No key is new. -/
def Fewer (g g' : Globals) : Prop :=
  ∀ id : UInt32, g.activeHandlers[id]? = none → g'.activeHandlers[id]? = none

theorem gated_of_fewer {cfg : Config} {p : Process} {e : Event}
    (fewer : Fewer p.globals (p.step cfg e).globals) : Gated cfg p e := by
  intro _ id h none_ there
  rw [fewer id none_] at there
  cases there

theorem fewer_of_eq {g g' : Globals} (same : g'.activeHandlers = g.activeHandlers) :
    Fewer g g' := by
  intro id none_
  rw [same, none_]

/-- A handler changes in its place. -/
theorem updated_fewer {g g' : Globals} {id : UInt32} {h : Connector.Handler}
    (found : g.activeHandlers[id]? = some h) (k : Connector.Handler)
    (same : g'.activeHandlers = g.activeHandlers.insert id k) : Fewer g g' := by
  intro i none_
  rw [same, TreeMap.getElem?_insert]
  split
  · rename_i equal
    rw [Std.LawfulEqCmp.compare_eq_iff_eq.1 equal, none_] at found
    cases found
  · exact none_

/-- The new entry of a table is the one that was put there. -/
theorem insertIfNew_new {table : TreeMap UInt32 Connector.Handler} {key id : UInt32}
    {k h : Connector.Handler} (none_ : table[id]? = none)
    (there : (table.insertIfNew key k)[id]? = some h) : h = k := by
  rw [TreeMap.getElem?_insertIfNew] at there
  split at there
  · cases there
    rfl
  · rw [none_] at there
    cases there

theorem setupHandler_new {cfg : Config} {out : Outside} {g : Globals} {fd : Nat}
    {remote : SockaddrStorage} {id : UInt32} {h : Connector.Handler}
    (none_ : g.activeHandlers[id]? = none)
    (there : (g.setupHandler cfg out fd remote).activeHandlers[id]? = some h) :
    h.remoteAddr = remote := by
  rw [insertIfNew_new none_ there]
  exact (Connector.Handler.new_ends ..).2.1

theorem accept_gated (cfg : Config) (p : Process) (a : Globals.Acceptance) :
    Gated cfg p (.accept a) := by
  intro _ id h none_ there
  simp only [step, withGlobals, Globals.acceptHandler] at there
  split at there
  · split at there
    · rw [none_] at there
      cases there
    · exact absurd (none_.symm.trans there) (by simp)
  · split at there
    · exact absurd (none_.symm.trans there) (by simp)
    · rename_i allowed
      rw [insertIfNew_new none_ there, (Connector.Handler.new_ends ..).2.1]
      simpa using allowed

theorem connect_gated (cfg : Config) (p : Process) (out : Outside) (started : Started) :
    Gated cfg p (.connect out started) := by
  intro _ id h none_ there
  have began := Globals.begin_began cfg out p.globals started
  have result : (p.step cfg (.connect out started)).globals =
      p.globals.begin cfg out started := rfl
  rw [result] at there
  generalize p.globals.begin cfg out started = g at began there
  cases began with
  | noSocket => exact absurd (none_.symm.trans there) (by simp)
  | blacklisted => exact absurd (none_.symm.trans there) (by simp)
  | instant socket allowed connected =>
      rw [setupHandler_new (g := p.globals.gLog _ _ _) none_ there]
      exact allowed
  | waits => exact absurd (none_.symm.trans there) (by simp)
  | refused => exact absurd (none_.symm.trans there) (by simp)
  | proxyWaits => exact absurd (none_.symm.trans there) (by simp)
  | proxyFailed => exact absurd (none_.symm.trans there) (by simp)

/-- A direct attempt that has waited inserts a handler only if it completes. -/
theorem attempt_gated (cfg : Config) (p : Process) (k : Nat) (c : Attempts.Callback)
    (rechecked : p.Rechecked (.attempt k c)) : Gated cfg p (.attempt k c) := by
  intro direct id h none_ there
  simp only [step] at there
  cases found : p.pending[k]? with
  | none =>
      rw [found] at there
      exact absurd (none_.symm.trans there) (by simp)
  | some o =>
      rw [found] at there
      cases o with
      | tor t => simp [throughProxy, found] at direct
      | direct d =>
          simp only [Object.ioCb, ConnectHandler.ioCb] at there
          split at there
          · rename_i connected
            rw [setupHandler_new none_ there]
            exact rechecked d found connected
          · split at there
            · exact absurd (none_.symm.trans there) (by simp)
            · exact absurd (none_.symm.trans there) (by simp)

theorem loadLines_active (lines : List BlacklistLine) (set : IpaddrSet) (g : Globals) :
    (loadLines lines set g).2.activeHandlers = g.activeHandlers := by
  induction lines generalizing set g with
  | nil => rfl
  | cons line rest ih =>
      cases line with
      | address entry inet => exact ih ..
      | invalid line => exact ih ..

/-- What a step may do that keeps the list shut. -/
theorem step_gated (cfg : Config) (p : Process) (e : Event) (rechecked : p.Rechecked e) :
    Gated cfg p e := by
  cases e with
  | accept a => exact accept_gated cfg p a
  | connect out started => exact connect_gated cfg p out started
  | attempt k c => exact attempt_gated cfg p k c rechecked
  | disconnect msg explicit =>
      apply gated_of_fewer
      intro id none_
      show (p.globals.disconnect msg).activeHandlers[id]? = none
      refine Globals.foreachHandlers_keeps (P := fun g => g.activeHandlers[id]? = none) ?_ ?_ ?_ msg
      · intro g g' here noted
        rw [noted.activeHandlers]
        exact here
      · intro g i h here _
        rw [Globals.disconnectOne_lookup]
        split
        · rfl
        · exact here
      · exact none_
  | send packed msg =>
      apply gated_of_fewer
      intro id none_
      refine Globals.foreachHandlers_keeps (P := fun g => g.activeHandlers[id]? = none) ?_ ?_
        none_ msg
      · intro g g' here noted
        rw [noted.activeHandlers]
        exact here
      · intro g i h here found
        exact updated_fewer found _ rfl id here
  | io id env revents inbox outbox =>
      apply gated_of_fewer
      simp only [step]
      split
      · exact fewer_of_eq rfl
      · rename_i h found
        intro i none_
        have still : (updated p.globals id (h.ioCb cfg env p.globals.lastBlock revents inbox
            outbox).1).activeHandlers[i]? = none := updated_fewer found _ rfl i none_
        simp only [withGlobals, called]
        cases (h.closes cfg env p.globals.lastBlock revents inbox outbox).length with
        | zero => exact still
        | succ deaths =>
            rw [Globals.buried_succ _ _ (by simp [updated])]
            show (TreeMap.erase _ id)[i]? = none
            rw [Tables.getElem?_erase]
            split
            · rfl
            · exact still
  | pinger id due nonce =>
      apply gated_of_fewer
      simp only [step]
      split
      · exact fewer_of_eq rfl
      · split
        · exact updated_fewer ‹_› _ rfl
        · exact fewer_of_eq rfl
  | activePinger id now =>
      apply gated_of_fewer
      simp only [step]
      split
      · exact fewer_of_eq rfl
      · split
        · exact updated_fewer ‹_› _ rfl
        · exact fewer_of_eq rfl
  | lateActivePinger k now =>
      apply gated_of_fewer
      simp only [step]
      split
      · exact fewer_of_eq rfl
      · split
        · exact fewer_of_eq rfl
        · exact fewer_of_eq rfl
  | reload file =>
      apply gated_of_fewer
      apply fewer_of_eq
      cases file with
      | none => rfl
      | some lines => exact loadLines_active lines [] p.globals

/-- In every run of the process, with any order of reloads, commands, completions and
accepts, in which no direct attempt that has waited completes while its address is on the
list: whenever a direct connection is entered into `g_active_handlers`, its address is not
on the list at that moment. -/
theorem blacklist_gates (cfg : Config) (tape : Nat → Outside) (events : List Event)
    (ok : Along (step cfg) Rechecked (start tape) events) :
    Along (step cfg) (Gated cfg) (start tape) events :=
  along_meets (I := fun _ => True) (fun p e _ rechecked => ⟨step_gated cfg p e rechecked, trivial⟩)
    trivial ok

/-- Answers of a kernel on which a connection has to wait. -/
def waitingOutside : Outside := { someOutside with connect := some (.other 115) }

/-- `10.0.0.1` on a line of its own. -/
def someLine : BlacklistLine := .address Connector.someAddr (Or.inl (by decide))

/-- `10.0.0.2` is listed, and a connection to `10.0.0.1` completes. -/
def someCompletion : List Event :=
  [.reload (some [.address Connector.otherAddr (Or.inl (by decide))]),
    .connect waitingOutside (.direct Connector.someAddr), .attempt 0 (.writable [])]

theorem blacklist_gates_completion :
    Along (step Connector.someConfig) (Gated Connector.someConfig)
      (start fun _ => someOutside) someCompletion := by
  refine blacklist_gates Connector.someConfig (fun _ => someOutside) someCompletion
    ⟨trivial, trivial, ?_, trivial⟩
  intro h found _
  have address : ∀ o : Object, ([Object.direct (ConnectHandler.new 9 Connector.someAddr)])[0]? =
      some o → o = .direct (.new 9 Connector.someAddr) := by
    intro o same
    cases same
    rfl
  cases address _ found
  decide +kernel

/-- The address is listed while the connection to it waits. -/
def someReload : List Event :=
  [.connect waitingOutside (.direct Connector.someAddr), .reload (some [someLine]),
    .attempt 0 (.writable [])]

/-- It completes, and the handler is entered. -/
theorem blacklisted_entered :
    ¬ Along (step Connector.someConfig) (Gated Connector.someConfig)
      (start fun _ => someOutside) someReload := by
  rintro ⟨-, -, gated, -⟩
  have entered : ((run (step Connector.someConfig) (start fun _ => someOutside)
      someReload).globals.activeHandlers[(0 : UInt32)]?).map (·.remoteAddr) =
        some Connector.someAddr := by decide +kernel
  obtain ⟨h, there, address⟩ := Option.map_eq_some_iff.1 entered
  have clear := gated (by decide +kernel) 0 h (by rfl) there
  rw [address] at clear
  revert clear
  decide +kernel

end Coinscope.Process

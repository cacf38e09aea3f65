/-
# Control.Changes -- what a control message can do to the process

A control message reaches the variables of the process through a few functions: texts are
logged and messages registered, a handler is given a message or told to disconnect, and a
connection attempt is begun.  `Change` lists these, and everything the `switch` of
`do_read` does is a sequence of them, so what holds of each holds of a message.

* `Began` -- how the constructor of an attempt can end.
* `Change`, `Changes` -- one change, and a sequence of them.
* `Handler.process_changes` -- a message is a sequence of changes.
* `Changes.keeps` -- what each change keeps, a sequence keeps.
-/
import Coinscope.Control.ConnectFrames
import Mathlib.Logic.Relation

namespace Coinscope.Control

open Coinscope.Shared
open Coinscope.Theory.Bytes
open Std (TreeMap)

set_option autoImplicit false

/-! ## Attempts -/

/-- Everything the constructor of an attempt can do. -/
inductive Began (cfg : Config) (out : Outside) (g : Globals) : Started → Globals → Prop
  | noSocket {remote : SockaddrStorage} {e : Errno} (socket : out.socket = .error e) :
      Began cfg out g (.direct remote) (g.gLog .ERROR (text "socket failure: " ++ cfg.strerror e)
        [text "(command_handler CONNECT)"])
  | blacklisted {remote : SockaddrStorage} {fd : Nat} (socket : out.socket = .ok fd)
      (listed : g.blacklist remote = true) :
      Began cfg out g (.direct remote)
        (g.connectFailure remote.family remote (text "BLACKLISTED"))
  | instant {remote : SockaddrStorage} {fd : Nat} (socket : out.socket = .ok fd)
      (allowed : g.blacklist remote = false) (connected : out.connect = none) :
      Began cfg out g (.direct remote)
        ((g.gLog .DEBUG (text "No need to do non-blocking connect, setup was instant")
          []).setupHandler cfg out fd remote)
  | waits {remote : SockaddrStorage} {fd : Nat} {e : Errno} (socket : out.socket = .ok fd)
      (allowed : g.blacklist remote = false) (connecting : out.connect = some e)
      (later : Globals.inProgress e = true) :
      Began cfg out g (.direct remote) { g with attempts := g.attempts ++ [.direct fd remote] }
  | refused {remote : SockaddrStorage} {fd : Nat} {e : Errno} (socket : out.socket = .ok fd)
      (allowed : g.blacklist remote = false) (connecting : out.connect = some e)
      (ended : Globals.inProgress e = false) :
      Began cfg out g (.direct remote) (g.connectFailure remote.family remote (cfg.strerror e))
  | proxyWaits {remote : SockaddrStorage} {hostname : Option (List UInt8)} {fd : Nat}
      (socket : out.socket = .ok fd)
      (connecting : ∀ e, out.connect = some e → Globals.inProgress e = true) :
      Began cfg out g (.tor remote hostname)
        { g with attempts := g.attempts ++ [.tor fd remote (torHost remote hostname)] }
  | proxyFailed {remote : SockaddrStorage} {hostname : Option (List UInt8)} (what : List UInt8)
      (ended : ∀ fd, out.socket = .ok fd →
        ∃ e, out.connect = some e ∧ Globals.inProgress e = false) :
      Began cfg out g (.tor remote hostname)
        ((g.gLog .ERROR (text "Tor proxy connection failed") [what]).connectFailure AF_INET6
          remote what)

namespace Globals

theorem connectHandler_began (cfg : Config) {out : Outside} (g : Globals) {fd : Nat}
    (remote : SockaddrStorage) (socket : out.socket = .ok fd) :
    Began cfg out g (.direct remote) (g.connectHandler cfg out fd remote) := by
  unfold connectHandler
  split
  · exact .blacklisted socket ‹_›
  · rename_i allowed
    have allowed : g.blacklist remote = false := by simpa using allowed
    split
    · exact .instant socket allowed ‹_›
    · rename_i e connecting
      split
      · exact .waits socket allowed connecting ‹_›
      · rename_i ended
        exact .refused socket allowed connecting (by simpa using ended)

theorem torConnectHandler_began (cfg : Config) (out : Outside) (g : Globals)
    (remote : SockaddrStorage) (hostname : Option (List UInt8)) :
    Began cfg out g (.tor remote hostname)
      (g.torConnectHandler cfg out remote (torHost remote hostname)) := by
  unfold torConnectHandler
  simp only
  split
  · rename_i e socket
    refine .proxyFailed _ ?_
    intro fd made
    rw [socket] at made
    cases made
  · rename_i fd socket
    split
    · rename_i connected
      refine .proxyWaits socket ?_
      intro e connecting
      rw [connected] at connecting
      cases connecting
    · rename_i e connecting
      split
      · rename_i later
        refine .proxyWaits socket ?_
        intro e' same
        rw [connecting] at same
        cases same
        exact later
      · rename_i ended
        exact .proxyFailed _ fun _ _ => ⟨e, connecting, by simpa using ended⟩

theorem begin_began (cfg : Config) (out : Outside) (g : Globals) (started : Started) :
    Began cfg out g started (g.begin cfg out started) := by
  cases started with
  | tor remote hostname => exact torConnectHandler_began ..
  | direct remote =>
      unfold begin
      simp only
      split
      · exact .noSocket ‹_›
      · exact connectHandler_began cfg g remote ‹_›

end Globals

/-! ## One change -/

/-- The variables the peers and the attempts use are as they were, and texts are all that
is logged. -/
structure Noted (g g' : Globals) : Prop where
  activeHandlers : g'.activeHandlers = g.activeHandlers
  inactiveHandlers : g'.inactiveHandlers = g.inactiveHandlers
  idPool : g'.idPool = g.idPool
  lastBlock : g'.lastBlock = g.lastBlock
  blacklist : g'.blacklist = g.blacklist
  attempts : g'.attempts = g.attempts
  activeDescriptors : g'.activeDescriptors = g.activeDescriptors
  tape : g'.tape = g.tape
  log : ∃ texts, g'.log = g.log ++ texts ∧
    ∀ call ∈ texts, ∃ kind val args, call = LogCall.text kind val args

namespace Noted

theorem refl (g : Globals) : Noted g g :=
  ⟨rfl, rfl, rfl, rfl, rfl, rfl, rfl, rfl, [], by simp, by simp⟩

theorem trans {a b c : Globals} (first : Noted a b) (second : Noted b c) : Noted a c := by
  obtain ⟨texts, log, plain⟩ := first.log
  obtain ⟨texts', log', plain'⟩ := second.log
  refine ⟨second.activeHandlers.trans first.activeHandlers,
    second.inactiveHandlers.trans first.inactiveHandlers, second.idPool.trans first.idPool,
    second.lastBlock.trans first.lastBlock, second.blacklist.trans first.blacklist,
    second.attempts.trans first.attempts, second.activeDescriptors.trans first.activeDescriptors,
    second.tape.trans first.tape, texts ++ texts', by rw [log', log, List.append_assoc], ?_⟩
  intro call member
  rcases List.mem_append.1 member with early | late
  · exact plain call early
  · exact plain' call late

theorem gLog (g : Globals) (kind : LogType) (val : List UInt8) (args : List (List UInt8)) :
    Noted g (g.gLog kind val args) :=
  ⟨rfl, rfl, rfl, rfl, rfl, rfl, rfl, rfl, [.text kind val args], rfl, by simp⟩

/-- The tables of messages, the clock and what the observer sees are not among them. -/
theorem of_tables {g g' : Globals} {messages : TreeMap UInt32 (TreeMap UInt32 PackedMessage)}
    {messageIds : UInt32} {served : List Served} {isUndefined : Bool} {clock : Nat}
    (same : g' = { g with
      messages := messages, messageIds := messageIds, served := served, undefined := isUndefined,
      clock := clock }) : Noted g g' := by
  subst same
  exact ⟨rfl, rfl, rfl, rfl, rfl, rfl, rfl, rfl, [], by simp, by simp⟩

end Noted

/-- What can happen to the variables of the process. -/
inductive Change (cfg : Config) (g : Globals) : Globals → Prop
  | noted {g' : Globals} (noted : Noted g g') : Change cfg g g'
  | appended (packed : PackedMessage) {id : UInt32} {h : Connector.Handler}
      (found : g.activeHandlers[id]? = some h) : Change cfg g (g.append packed id h)
  | disconnected {id : UInt32} {h : Connector.Handler} (found : g.activeHandlers[id]? = some h) :
      Change cfg g (g.disconnectOne id h)
  | begun {out : Outside} {started : Started} {g' : Globals}
      (began : Began cfg out g started g') : Change cfg g g'

/-- Changes one after the other. -/
def Changes (cfg : Config) : Globals → Globals → Prop := Relation.ReflTransGen (Change cfg)

namespace Changes

variable {cfg : Config}

theorem one {g g' : Globals} (change : Change cfg g g') : Changes cfg g g' :=
  Relation.ReflTransGen.single change

theorem noted {g g' : Globals} (noted : Noted g g') : Changes cfg g g' := one (.noted noted)

theorem trans {a b c : Globals} (first : Changes cfg a b) (second : Changes cfg b c) :
    Changes cfg a c := Relation.ReflTransGen.trans first second

/-- What every change keeps is kept. -/
theorem keeps {P : Globals → Prop} (keep : ∀ g g', P g → Change cfg g g' → P g') {g g' : Globals}
    (here : P g) (changes : Changes cfg g g') : P g' := by
  induction changes with
  | refl => exact here
  | tail _ change ih => exact keep _ _ ih change

end Changes

/-! ## Commands -/

namespace Globals

section Targets

variable {P : Globals → Prop} {f : Globals → UInt32 → Connector.Handler → Globals}
  (notes : ∀ g g', P g → Noted g g' → P g')
  (each : ∀ g id h, P g → g.activeHandlers[id]? = some h → P (f g id h))

include notes each

/-- What texts and the command on one handler keep, the command keeps on its targets. -/
theorem visit_keeps (messageId : UInt32) (targets : List UInt32) {g : Globals} (here : P g) :
    P (visit f messageId targets g) := by
  induction targets generalizing g with
  | nil => exact here
  | cons target rest ih =>
      rw [visit]
      split
      · rename_i h found
        exact ih (each g target h here found)
      · exact ih (notes _ _ here (Noted.gLog ..))

theorem traverse_keeps (ids : List UInt32) {g : Globals} (here : P g) : P (traverse f ids g) := by
  induction ids generalizing g with
  | nil => exact here
  | cons id rest ih =>
      rw [traverse]
      split
      · exact notes _ _ here (Noted.of_tables rfl)
      · rename_i h found
        have first := each g id h here found
        simp only
        split
        · exact ih first
        · exact notes _ _ first (Noted.of_tables rfl)

theorem foreachHandlers_keeps {g : Globals} (here : P g) (msg : CommandMsg) :
    P (g.foreachHandlers msg f) := by
  unfold foreachHandlers
  split
  · exact traverse_keeps notes each _ here
  · simp only
    split
    · exact visit_keeps notes each _ _ (notes _ _ here (Noted.gLog ..))
    · exact visit_keeps notes each _ _ here

end Targets

theorem foreachHandlers_changes {cfg : Config}
    {f : Globals → UInt32 → Connector.Handler → Globals}
    (each : ∀ g id h, g.activeHandlers[id]? = some h → Change cfg g (f g id h)) (g : Globals)
    (msg : CommandMsg) : Changes cfg g (g.foreachHandlers msg f) :=
  foreachHandlers_keeps (P := Changes cfg g)
    (fun _ _ so noted => so.trans (.noted noted))
    (fun _ _ _ so found => so.trans (.one (each _ _ _ found))) .refl msg

theorem register_noted (g : Globals) (id regid : UInt32) (payload : List UInt8) :
    Noted g (g.register id regid payload).1 := by
  unfold register
  split
  · rename_i fits
    have stored : Noted g { g with
        messageIds := g.messageIds + 1
        messages := g.messages.insert id
          ((g.tableOf id).insertIfNew g.messageIds (registeredMsg payload fits.2)) } :=
      Noted.of_tables rfl
    simp only
    split
    · exact (stored.trans (Noted.gLog ..)).trans (Noted.gLog ..)
    · exact (stored.trans (Noted.gLog ..)).trans (Noted.gLog ..)
  · exact Noted.gLog ..

theorem sendMsg_changes (cfg : Config) (g : Globals) (id : UInt32) (msg : CommandMsg) :
    Changes cfg g (g.sendMsg id msg) := by
  have made : Noted g { g with messages := g.messages.insertIfNew id ∅ } := Noted.of_tables rfl
  unfold sendMsg
  simp only
  split
  · exact .noted (made.trans (Noted.gLog ..))
  · rename_i packed _
    exact (Changes.noted made).trans
      (foreachHandlers_changes (fun _ _ _ found => .appended packed found) ..)

theorem disconnect_changes (cfg : Config) (g : Globals) (msg : CommandMsg) :
    Changes cfg g (g.disconnect msg) :=
  (Changes.noted (Noted.gLog ..)).trans
    (foreachHandlers_changes (fun _ _ _ found => .disconnected found) ..)

theorem connect_changes (cfg : Config) (out : Outside) (g : Globals) (regid : UInt32)
    (memory : List UInt8) : Changes cfg g (g.connect cfg out regid memory) := by
  rw [connect_begin]
  exact (Changes.noted (Noted.gLog ..)).trans (.one (.begun (begin_began ..)))

end Globals

/-! ## Messages -/

namespace Handler

theorem handleMessageRecv_changes (cfg : Config) (g : Globals) (h : Handler) (msg : CommandMsg) :
    Changes cfg g (h.handleMessageRecv g msg).1 := by
  unfold handleMessageRecv
  split
  · exact .noted (Noted.gLog ..)
  · split
    · exact Globals.sendMsg_changes ..
    · split
      · exact Globals.disconnect_changes ..
      · exact .noted (Noted.gLog ..)

theorem payloadSwitch_changes (cfg : Config) (g : Globals) (h : Handler) :
    Changes cfg g (h.payloadSwitch cfg g).1 := by
  unfold payloadSwitch
  simp only
  split
  · exact .noted ((Globals.register_noted ..).trans (Noted.of_tables rfl))
  · split
    · exact (handleMessageRecv_changes ..).trans (.noted (Noted.of_tables rfl))
    · split
      · exact Globals.connect_changes ..
      · exact .noted (Noted.gLog ..)

theorem registerMe_noted (g : Globals) (h : Handler) : Noted g (h.registerMe g).1 := by
  have logged := (Noted.gLog g .CTRL (text "UNREGISTERING") [decimal h.regid.toNat]).trans
    (Noted.gLog _ .CTRL (text "REGISTERING") [decimal (outside g).nonce.toNat])
  exact logged.trans (Noted.of_tables rfl)

theorem warnedHeader_noted (g : Globals) (h : Handler) : Noted g (h.warnedHeader g) := by
  unfold warnedHeader
  split
  · exact Noted.gLog ..
  · exact Noted.refl g

theorem warned_noted (g : Globals) (h : Handler) : Noted g (h.warned g) := by
  unfold warned
  split
  · exact Noted.gLog ..
  · exact Noted.refl g

theorem receiveHeader_noted (g : Globals) (h : Handler) : Noted g (h.receiveHeader g).1 := by
  have first := warnedHeader_noted g h
  unfold receiveHeader
  simp only
  split
  · split
    · exact (first.trans (registerMe_noted ..)).trans (Noted.of_tables rfl)
    · exact (first.trans (Noted.gLog ..)).trans (Noted.of_tables rfl)
  · exact first

/-- Behind the `switch` of `do_read` there is a sequence of changes. -/
theorem process_changes (cfg : Config) (g : Globals) (h : Handler) :
    Changes cfg g (h.process cfg g).1 := by
  unfold process
  split
  · exact .noted (receiveHeader_noted g h)
  · split
    · exact ((Changes.noted (warned_noted g h)).trans (payloadSwitch_changes cfg _ h.take)).trans
        (.noted (Noted.of_tables rfl))
    · exact .refl

end Handler

end Coinscope.Control

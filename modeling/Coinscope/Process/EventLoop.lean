/-
# Process.EventLoop -- the connector as one event loop

What happens in the connector happens in callbacks of one loop: a listener accepts, a client
has a command carried out, an attempt or a handler gets an event on its socket, a timer
fires, a signal has the blacklist read again.  `Process` is what these share, and a run of
the process is a list of such events, each with whatever the kernel answers.

The source closes descriptors and moves handlers between its two containers while a callback
runs.  `Handler.closes` and `Globals.buried` say how often and in which order.

* `IpaddrSet`, `Process.loadBlacklist` -- the blacklist.
* `Globals.acceptHandler` -- `accept_handler::io_cb`.
* `Handler.closes` -- the descriptors `io_cb` of a handler closes.
* `Process.step` -- one callback.
-/
import Coinscope.Attempts.Outcomes
import Coinscope.Control.Changes
import Coinscope.Connector.Terminal

namespace Coinscope

open Coinscope.Shared
open Std (TreeMap)

set_option autoImplicit false

/-! ## The blacklist -/

namespace Process

/-- `sockaddr_storage_eq`. -/
def sockaddrStorageEq (l r : SockaddrStorage) : Bool :=
  if l.family ≠ r.family then false
  else if l.family = AF_INET then decide (l.sinAddr = r.sinAddr)
  else if l.family = AF_INET6 then decide (l.sin6Addr = r.sin6Addr)
  else false

/-- `ipaddr_set`, in the order of the insertions. -/
abbrev IpaddrSet := List SockaddrStorage

/-- `set.count(addr) > 0`. -/
def IpaddrSet.has (set : IpaddrSet) (addr : SockaddrStorage) : Bool :=
  set.any fun entry => sockaddrStorageEq entry addr

/-- `set.insert(entry)`. -/
def IpaddrSet.add (set : IpaddrSet) (entry : SockaddrStorage) : IpaddrSet :=
  if set.has entry then set else set ++ [entry]

/-- A line of the blacklist file: what `inet_pton` makes of it, in the `sockaddr_storage` the
loop uses for every line. -/
inductive BlacklistLine where
  | address (entry : SockaddrStorage) (inet : entry.family = AF_INET ∨ entry.family = AF_INET6)
  | invalid (line : List UInt8)

end Process

/-! ## Callbacks of handlers -/

namespace Connector.Handler

/-- The descriptors the loop of `do_read` closes: `suicide()` closes the one the handler has. -/
def readClosesAux (cfg : Config) (env : VersionEnv) :
    Nat → Handler → Int → List RecvResult → List Int
  | 0, _, _, _ => []
  | fuel + 1, h, lastBlock, inbox =>
      if h.readQueue.hungry then
        let s := h.readQueue.fill inbox
        match s.ret with
        | .fail .eagain | .fail .eintr => []
        | .fail _ => [h.io.fd]
        | .count 0 => [h.io.fd]
        | .count (_ + 1) =>
            let p := (h.filled s).process cfg env lastBlock
            readClosesAux cfg env fuel p.1 p.2 s.inbox
      else []

/-- The descriptors `do_write` closes. -/
def writeCloses (h : Handler) (outbox : List WriteResult) : List Int :=
  match (WriteBuffer.flush h.io.fd outbox h.writeQueue).ret with
  | .fail .eagain | .fail .eintr => []
  | .fail _ => [h.io.fd]
  | .count _ => []

/-- The descriptors `io_cb` closes.  A handler that dies while it reads goes on to write, and
can die once more, without a descriptor. -/
def closes (cfg : Config) (env : VersionEnv) (h : Handler) (lastBlock : Int) (revents : Events)
    (inbox : List RecvResult) (outbox : List WriteResult) : List Int :=
  if h.io.fd = -1 then []
  else
    let reads := decide (h.state &&& RECV_MASK ≠ 0) && revents.read
    let r := if reads then (h.doRead cfg env lastBlock inbox).1 else h
    (if reads then readClosesAux cfg env (h.readQueue.effort inbox + 1) h lastBlock inbox
      else []) ++
      if revents.write then r.writeCloses outbox else []

end Connector.Handler

namespace Control.Globals

/-- What `suicide()` does to the containers, once for each time it is called: the handler
moves to `g_inactive_handlers`, which is cleared for it, unless it has moved already. -/
def buried (id : UInt32) (h : Connector.Handler) : Nat → Globals → Globals
  | 0, g => g
  | deaths + 1, g => buried id h deaths (if id ∈ g.activeHandlers then
      { g with
        activeHandlers := g.activeHandlers.erase id
        inactiveHandlers := [h] }
      else g)

/-- Nothing happens to a handler that has moved already. -/
theorem buried_gone {id : UInt32} (h : Connector.Handler) (deaths : Nat) {g : Globals}
    (gone : id ∉ g.activeHandlers) : buried id h deaths g = g := by
  induction deaths with
  | zero => rfl
  | succ deaths ih => rw [buried, if_neg gone, ih]

/-- However often a handler dies, it moves once. -/
theorem buried_succ {id : UInt32} (h : Connector.Handler) (deaths : Nat) {g : Globals}
    (there : id ∈ g.activeHandlers) : buried id h (deaths + 1) g =
      { g with activeHandlers := g.activeHandlers.erase id, inactiveHandlers := [h] } := by
  rw [buried, if_pos there]
  apply buried_gone
  simp

/-- The handlers `g_inactive_handlers.clear()` destroys meanwhile. -/
def cleared (id : UInt32) (h : Connector.Handler) : Nat → Globals → List Connector.Handler
  | 0, _ => []
  | deaths + 1, g => if id ∈ g.activeHandlers then
      g.inactiveHandlers ++ cleared id h deaths { g with
        activeHandlers := g.activeHandlers.erase id
        inactiveHandlers := [h] }
      else cleared id h deaths g

theorem cleared_gone {id : UInt32} (h : Connector.Handler) (deaths : Nat) {g : Globals}
    (gone : id ∉ g.activeHandlers) : cleared id h deaths g = [] := by
  induction deaths with
  | zero => rfl
  | succ deaths ih => rw [cleared, if_neg gone, ih]

theorem cleared_succ {id : UInt32} (h : Connector.Handler) (deaths : Nat) {g : Globals}
    (there : id ∈ g.activeHandlers) : cleared id h (deaths + 1) g = g.inactiveHandlers := by
  rw [cleared, if_pos there, cleared_gone, List.append_nil]
  simp

/-- What `Accept` gives: a descriptor with the address of the peer and how it is printed, or an
error. -/
structure Acceptance where
  answer : Except Errno Nat
  addr : SockaddrStorage
  printed : List UInt8
  localAddr : SockaddrStorage
  version : VersionEnv

/-- The errors `accept_handler::io_cb` says nothing about: `EAGAIN`, `EINTR` and
`ECONNABORTED`. -/
def passes (e : Errno) : Bool := decide (e = .eagain ∨ e = .eintr ∨ e = .other 103)

/-- The number of an error. -/
def code : Errno → Nat
  | .eagain => 11
  | .eintr => 4
  | .econnreset => 104
  | .ebadf => 9
  | .other code => code

/-- `bitcoin::accept_handler::io_cb`. -/
def acceptHandler (cfg : Config) (g : Globals) (a : Acceptance) : Globals :=
  match a.answer with
  | .error e =>
      if passes e then g
      else g.gLog .ERROR (text "accept failure: " ++ cfg.strerror e)
        [text "(bitcoin_handler)", decimal (code e)]
  | .ok fd =>
      if g.blacklist a.addr then
        g.gLog .ERROR (text "Blacklisted ip address attempted to connect") [a.printed]
      else
        let h := Connector.Handler.new cfg a.version g.lastBlock fd
          Connector.RECV_VERSION_REPLY_HDR a.addr a.localAddr g.idPool
        { g with
          activeHandlers := g.activeHandlers.insertIfNew g.idPool h.1
          inactiveHandlers := []
          idPool := g.idPool + 1
          lastBlock := h.2 }

end Control.Globals

open Coinscope.Control
open Coinscope.Attempts (Object)

/-! ## The process -/

/-- The variables of the process, and the attempts that wait. -/
structure Process where
  globals : Globals
  pending : List Object

namespace Process

/-- A callback of the event loop, or a command a control connection carries out. -/
inductive Event where
  | accept (a : Globals.Acceptance)
  | connect (out : Outside) (started : Started)
  | disconnect (msg : CommandMsg) (explicit : msg.targets ≠ [BROADCAST_TARGET])
  | send (packed : PackedMessage) (msg : CommandMsg)
  | attempt (k : Nat) (c : Attempts.Callback)
  | io (id : UInt32) (env : VersionEnv) (revents : Events) (inbox : List RecvResult)
      (outbox : List WriteResult)
  | pinger (id : UInt32) (due : Bool) (nonce : Nat)
  | activePinger (id : UInt32) (now : Nat)
  | lateActivePinger (k : Nat) (now : Nat)
  | reload (file : Option (List BlacklistLine))

/-- The process with these variables. -/
def withGlobals (p : Process) (g : Globals) : Process := { p with globals := g }

/-- The variables with a handler that has changed in its place. -/
def updated (g : Globals) (id : UInt32) (h : Connector.Handler) : Globals :=
  { g with activeHandlers := g.activeHandlers.insert id h }

/-- The variables behind `io_cb` of the handler of an id. -/
def called (cfg : Config) (g : Globals) (id : UInt32) (h : Connector.Handler) (env : VersionEnv)
    (revents : Events) (inbox : List RecvResult) (outbox : List WriteResult) : Globals :=
  let r := h.ioCb cfg env g.lastBlock revents inbox outbox
  (updated { g with lastBlock := r.2 } id r.1).buried id r.1
    (h.closes cfg env g.lastBlock revents inbox outbox).length

/-- The loop of `load_blacklist`, with the set it has so far. -/
def loadLines : List BlacklistLine → IpaddrSet → Globals → IpaddrSet × Globals
  | [], set, g => (set, g)
  | .address entry _ :: rest, set, g => loadLines rest (set.add entry) g
  | .invalid line :: rest, set, g => loadLines rest set
      (g.gLog .ERROR (text "Invalid blacklist entry (not IPv4 or IPv6)") [line])

/-- `load_blacklist()`.  A file that cannot be opened leaves the set alone. -/
def loadBlacklist (g : Globals) : Option (List BlacklistLine) → Globals
  | some lines =>
      let r := loadLines lines [] g
      { r.2.gLog .CONNECTOR (text "Loading blacklist, received")
        [decimal r.1.length, text "unique entries"] with blacklist := r.1.has }
  | none => g.gLog .ERROR (text "Could not open blacklist file") []

def start (tape : Nat → Outside) : Process where
  globals := Globals.start (IpaddrSet.has []) tape
  pending := []

def step (cfg : Config) (p : Process) : Event → Process
  | .accept a => p.withGlobals (p.globals.acceptHandler cfg a)
  | .connect out started =>
      let g := p.globals.begin cfg out started
      { globals := g
        pending := p.pending ++
          (g.attempts.drop p.globals.attempts.length).map Object.ofAttempt }
  | .disconnect msg _ => p.withGlobals (p.globals.disconnect msg)
  | .send packed msg => p.withGlobals (p.globals.foreachHandlers msg (Globals.append packed))
  | .attempt k c =>
      match p.pending[k]? with
      | none => p
      | some o =>
          let r := o.ioCb cfg { c with globals := p.globals }
          { globals := r.1
            pending := if r.2.waiting then p.pending.set k r.2 else p.pending.eraseIdx k }
  | .io id env revents inbox outbox =>
      match p.globals.activeHandlers[id]? with
      | none => p
      | some h => p.withGlobals (called cfg p.globals id h env revents inbox outbox)
  | .pinger id due nonce =>
      match p.globals.activeHandlers[id]? with
      | none => p
      | some h =>
          if h.timer then p.withGlobals (updated p.globals id (h.pingerCb cfg due nonce)) else p
  | .activePinger id now =>
      match p.globals.activeHandlers[id]? with
      | none => p
      | some h =>
          if h.activePingTimer then
            p.withGlobals (updated p.globals id (h.activePingerCb cfg now))
          else p
  -- `suicide()` does not stop the second timer
  | .lateActivePinger k now =>
      match p.globals.inactiveHandlers[k]? with
      | none => p
      | some h =>
          if h.activePingTimer then
            p.withGlobals { p.globals with
              inactiveHandlers := p.globals.inactiveHandlers.set k (h.activePingerCb cfg now) }
          else p
  | .reload file => p.withGlobals (loadBlacklist p.globals file)

end Process

end Coinscope

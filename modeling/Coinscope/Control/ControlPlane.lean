/-
# Control.ControlPlane -- the control connections of a process

The connector accepts control connections, runs their callbacks one at a time, and
deletes the handlers of those that are over when it accepts the next one.  What the
peers do in between reaches the control connections through the variables they share.

* `Plane.step` -- an accept, a callback, or anything on the peers' side.
-/
import Coinscope.Control.CommandHandler

namespace Coinscope.Control

open Coinscope.Shared
open Std (TreeMap)

set_option autoImplicit false

/-- The control connections that are not deleted, by the order they were accepted in,
and `handler::id_pool`. -/
structure Plane where
  globals : Globals
  connections : TreeMap Nat Handler
  idPool : UInt32
  accepted : Nat

/-- What happens to the control connections. -/
inductive PlaneEvent where
  | accept (fd : Nat) (regid : UInt32)
  | callback (connection : Nat) (revents : Events) (inbox : List RecvResult)
      (outbox : List WriteResult)
  | peers (activeHandlers : TreeMap UInt32 Connector.Handler)
      (inactiveHandlers : List Connector.Handler) (idPool : UInt32) (lastBlock : Int)
      (blacklist : SockaddrStorage → Bool) (attempts : List Attempt)

namespace Plane

def start (blacklist : SockaddrStorage → Bool) (tape : Nat → Outside) : Plane where
  globals := Globals.start blacklist tape
  connections := ∅
  idPool := 0
  accepted := 0

/-- The connections in `g_inactive_handlers`, where `suicide` puts them. -/
def inactive (p : Plane) : List Handler :=
  (p.connections.toList.map Prod.snd).filter fun h => !h.io.active

/-- The loop of `accept_handler::io_cb` that deletes `g_inactive_handlers`; the destructor
erases the messages of the connection. -/
def deleteInactive (p : Plane) : Plane :=
  { p with
    globals := { p.globals with
      messages := p.inactive.foldl (fun table h => table.erase h.id) p.globals.messages }
    connections := p.connections.filter fun _ h => h.io.active }

/-- `accept_handler::io_cb` behind a successful `Accept`. -/
def accept (p : Plane) (fd : Nat) (regid : UInt32) : Plane :=
  deleteInactive
    { globals := { p.globals with activeDescriptors := p.globals.activeDescriptors + 1 }
      connections := p.connections.insert p.accepted (Handler.new fd p.idPool regid)
      idPool := p.idPool + 1
      accepted := p.accepted + 1 }

/-- A callback reaches a connection while its watcher is started. -/
def callback (cfg : Config) (p : Plane) (k : Nat) (revents : Events) (inbox : List RecvResult)
    (outbox : List WriteResult) : Plane :=
  match p.connections[k]? with
  | none => p
  | some h =>
      if h.io.active then
        let r := h.ioCb cfg p.globals revents inbox outbox
        { p with globals := r.1, connections := p.connections.insert k r.2 }
      else p

def step (cfg : Config) (p : Plane) : PlaneEvent → Plane
  | .accept fd regid => p.accept fd regid
  | .callback k revents inbox outbox => p.callback cfg k revents inbox outbox
  | .peers activeHandlers inactiveHandlers idPool lastBlock blacklist attempts =>
      { p with globals := { p.globals with
          activeHandlers := activeHandlers
          inactiveHandlers := inactiveHandlers
          idPool := idPool
          lastBlock := lastBlock
          blacklist := blacklist
          attempts := attempts } }

end Plane

end Coinscope.Control

/-
# Control.Globals -- what the handlers of the connector share

The control connections work on the variables of the process: the table of active
peers, the table of registered messages, the id counters, the blacklist.  What comes
from outside while a control message is handled (random numbers, the answers of
`socket` and `connect`, memory that is not ours) is read off a tape, one entry a
message, so a run over every tape is a run with every answer.

* `Globals.foreachHandlers` -- a command on its targets.  A traversal of the table
  whose callback erases the element it stands on goes on from an erased element;
  `undefined` records that.
* `Globals.register`, `Globals.sendMsg`, `Globals.disconnect` -- messages and commands.
* `Globals.connect` -- the constructors behind CONNECT.
-/
import Coinscope.Connector.BitcoinHandler
import Coinscope.Control.CommandStructures

namespace Coinscope.Control

open Coinscope.Shared
open Coinscope.Theory.Bytes
open Coinscope.Connector (SEND_VERSION_INIT)
open Std (TreeMap)

set_option autoImplicit false

/-! ## State -/

/-- What the handling of one control message gets from outside. -/
structure Outside where
  nonce : UInt32
  beyond : Nat → UInt8
  socket : Except Errno Nat
  connect : Option Errno
  localAddr : SockaddrStorage
  version : VersionEnv

/-- A connection attempt that waits for its socket. -/
inductive Attempt where
  | direct (fd : Nat) (remote : SockaddrStorage)
  | tor (fd : Nat) (remote : SockaddrStorage) (onionHost : List UInt8)
  deriving DecidableEq

/-- What an observer sees of the messages the control connections handle: the id sent
back for a message to register, the handlers before and behind a command, a new
registration id. -/
inductive Served where
  | registered (connection : UInt32) (payload : List UInt8) (id : UInt32)
  | commanded (connection : UInt32) (payload : List UInt8)
      (before after : TreeMap UInt32 Connector.Handler)
  | renamed (connection : UInt32)

/-- The variables of the process, and what was `served` by it. -/
structure Globals where
  activeHandlers : TreeMap UInt32 Connector.Handler
  inactiveHandlers : List Connector.Handler
  idPool : UInt32
  lastBlock : Int
  blacklist : SockaddrStorage → Bool
  attempts : List Attempt
  messages : TreeMap UInt32 (TreeMap UInt32 PackedMessage)
  messageIds : UInt32
  activeDescriptors : Int
  log : List LogCall
  served : List Served
  undefined : Bool
  tape : Nat → Outside
  clock : Nat

namespace Globals

/-- The variables when the process starts. -/
def start (blacklist : SockaddrStorage → Bool) (tape : Nat → Outside) : Globals where
  activeHandlers := ∅
  inactiveHandlers := []
  idPool := 0
  lastBlock := 0
  blacklist := blacklist
  attempts := []
  messages := ∅
  messageIds := 1
  activeDescriptors := 0
  log := []
  served := []
  undefined := false
  tape := tape
  clock := 0

/-- `g_log<kind>(val, args...)`. -/
def gLog (g : Globals) (kind : LogType) (val : List UInt8) (args : List (List UInt8)) : Globals :=
  { g with log := g.log ++ [.text kind val args] }

/-- An entry of the observer. -/
def serve (g : Globals) (entry : Served) : Globals := { g with served := g.served ++ [entry] }

/-! ## Commands on handlers -/

/-- `for_each` over `g_active_handlers`, in the order of the ids.  The iterator moves on
from the element the callback was given, so that element has to be there still. -/
def traverse (f : Globals → UInt32 → Connector.Handler → Globals) : List UInt32 → Globals → Globals
  | [], g => g
  | id :: rest, g =>
      match g.activeHandlers[id]? with
      | none => { g with undefined := true }
      | some h =>
          let next := f g id h
          if id ∈ next.activeHandlers then traverse f rest next
          else { next with undefined := true }

/-- The listed targets, one after the other. -/
def visit (f : Globals → UInt32 → Connector.Handler → Globals) (messageId : UInt32) :
    List UInt32 → Globals → Globals
  | [], g => g
  | target :: rest, g =>
      match g.activeHandlers[target]? with
      | some h => visit f messageId rest (f g target h)
      | none => visit f messageId rest (g.gLog .DEBUG (text "Attempting to send command message")
          [decimal messageId.toNat, text "to non-existant target", decimal target.toNat])

/-- `foreach_handlers(msg, f)`. -/
def foreachHandlers (g : Globals) (msg : CommandMsg)
    (f : Globals → UInt32 → Connector.Handler → Globals) : Globals :=
  if msg.targets = [BROADCAST_TARGET] then traverse f g.activeHandlers.keys g
  else
    let g := if msg.targets.length > g.activeHandlers.size then
        g.gLog .DEBUG (text "Target count larger than all cxn")
          [decimal msg.targets.length, decimal g.activeHandlers.size]
      else g
    visit f msg.messageId msg.targets g

/-- `append_for_write(packed)` on the handler of an id. -/
def append (packed : PackedMessage) (g : Globals) (id : UInt32) (h : Connector.Handler) : Globals :=
  { g with activeHandlers := g.activeHandlers.insert id (h.appendForWriteShared packed) }

/-- `disconnect()` on the handler of an id, which moves it to `g_inactive_handlers` and
deletes the ones that were there. -/
def disconnectOne (g : Globals) (id : UInt32) (h : Connector.Handler) : Globals :=
  { g with
    activeHandlers := g.activeHandlers.erase id
    inactiveHandlers := [h.disconnect] }

/-! ## Registered messages -/

/-- `g_messages[id]`, which is put there if it is missing. -/
def tableOf (g : Globals) (id : UInt32) : TreeMap UInt32 PackedMessage :=
  (g.messages[id]?).getD ∅

/-- The buffer of `registered_msg`: the announced length, and a copy of the payload. -/
def registeredBuffer (payload : List UInt8) : List UInt8 :=
  WrappedBuffer.blit (WrappedBuffer.ofSize payload.length) 0 payload

theorem registeredBuffer_eq (payload : List UInt8) : registeredBuffer payload =
    payload ++ (WrappedBuffer.ofSize payload.length).drop payload.length := by
  simp [registeredBuffer, WrappedBuffer.blit]

theorem packedLength_registeredBuffer {payload : List UInt8} (long : packedSize ≤ payload.length) :
    packedLength (registeredBuffer payload) = packedLength payload := by
  have size : packedSize = 24 := rfl
  rw [registeredBuffer_eq, packedLength, packedLength, slice_append_left _ (by omega)]

/-- `registered_msg(messg)`. -/
def registeredMsg (payload : List UInt8)
    (fits : payload.length = packedSize + packedLength payload) : PackedMessage where
  buffer := registeredBuffer payload
  whole := by
    rw [packedLength_registeredBuffer (by omega), registeredBuffer_eq, List.length_append]
    omega

/-- What is registered is the payload. -/
theorem registeredMsg_wire {payload : List UInt8}
    (fits : payload.length = packedSize + packedLength payload) :
    (registeredMsg payload fits).wire = payload := by
  show (registeredBuffer payload).take (packedSize + packedLength (registeredBuffer payload)) = _
  rw [packedLength_registeredBuffer (by omega), ← fits, registeredBuffer_eq, List.take_left]

/-- The branch BITCOIN_PACKED_MESSAGE: the id that is sent back, zero if there is none. -/
def register (g : Globals) (id regid : UInt32) (payload : List UInt8) : Globals × UInt32 :=
  if fits : packedSize ≤ payload.length ∧ payload.length = packedSize + packedLength payload then
    let mid := g.messageIds
    let m := registeredMsg payload fits.2
    let table := g.tableOf id
    let next := { g with
      messageIds := mid + 1
      messages := g.messages.insert id (table.insertIfNew mid m) }
    let next := next.gLog .CTRL (text "Registering message ")
      [decimal regid.toNat, showPackedMessage m]
    if mid ∈ table then (next.gLog .ERROR (text "Duplicate id generated, surprising") [], 0)
    else
      (next.gLog .CTRL (text "message registered") [decimal regid.toNat, decimal mid.toNat], mid)
  else (g.gLog .ERROR (text "Attempted to register invalid message") [], 0)

/-- The command COMMAND_SEND_MSG of the connection `id`. -/
def sendMsg (g : Globals) (id : UInt32) (msg : CommandMsg) : Globals :=
  let g := { g with messages := g.messages.insertIfNew id ∅ }
  match (g.tableOf id)[msg.messageId]? with
  | none => g.gLog .ERROR (text "invalid message id") [decimal msg.messageId.toNat]
  | some packed => g.foreachHandlers msg (append packed)

/-- The command COMMAND_DISCONNECT. -/
def disconnect (g : Globals) (msg : CommandMsg) : Globals :=
  (g.gLog .DEBUG (text "disconnect command received") []).foreachHandlers msg disconnectOne

/-- The table COMMAND_GET_CXN sends. -/
def connections (g : Globals) : List UInt8 :=
  be 4 (42 * g.activeHandlers.size) ++ g.activeHandlers.toList.flatMap fun entry =>
    connectionInfo entry.1 entry.2.remoteAddr entry.2.localAddr

/-! ## Connection attempts -/

/-- `EINPROGRESS` or `EALREADY`. -/
def inProgress (e : Errno) : Bool := decide (e = .other 115 ∨ e = .other 114)

/-- A CONNECT_FAILURE record; the local address has nothing but the family. -/
def connectFailure (g : Globals) (family : Nat) (remote : SockaddrStorage) (err : List UInt8) :
    Globals :=
  { g with log := g.log ++ [.bitcoin CONNECT_FAILURE 0 remote
      ⟨le 2 family ++ List.replicate 126 0, by simp⟩ (err ++ [0])] }

/-- `connect_handler::setup_handler(fd)`. -/
def setupHandler (cfg : Config) (out : Outside) (g : Globals) (fd : Nat) (remote : SockaddrStorage) :
    Globals :=
  let h := Connector.Handler.new cfg out.version g.lastBlock fd SEND_VERSION_INIT remote
    out.localAddr g.idPool
  { g with
    activeHandlers := g.activeHandlers.insertIfNew g.idPool h.1
    idPool := g.idPool + 1
    lastBlock := h.2 }

/-- `connect_handler(fd, remote_addr)`. -/
def connectHandler (cfg : Config) (out : Outside) (g : Globals) (fd : Nat)
    (remote : SockaddrStorage) : Globals :=
  if g.blacklist remote then g.connectFailure remote.family remote (text "BLACKLISTED")
  else
    match out.connect with
    | none =>
        (g.gLog .DEBUG (text "No need to do non-blocking connect, setup was instant")
          []).setupHandler cfg out fd remote
    | some e =>
        if inProgress e then { g with attempts := g.attempts ++ [.direct fd remote] }
        else g.connectFailure remote.family remote (cfg.strerror e)

/-- `tor_connect_handler(onion_addr, ...)`, with the host name already made. -/
def torConnectHandler (cfg : Config) (out : Outside) (g : Globals) (remote : SockaddrStorage)
    (onionHost : List UInt8) : Globals :=
  let failed := fun what => (g.gLog .ERROR (text "Tor proxy connection failed")
    [what]).connectFailure AF_INET6 remote what
  match out.socket with
  | .error e => failed (text "socket failure: " ++ cfg.strerror e)
  | .ok fd =>
      match out.connect with
      | none => { g with attempts := g.attempts ++ [.tor fd remote onionHost] }
      | some e =>
          if inProgress e then { g with attempts := g.attempts ++ [.tor fd remote onionHost] }
          else failed (text "tor proxy connect failed")

/-- Two hexadecimal digits, as `%02x` prints them. -/
def hexByte (b : UInt8) : List UInt8 := (text "0" ++ hexadecimal b.toNat).reverse.take 2 |>.reverse

/-- What `snprintf(onion_host_, 63, "%s.onion", hostname)` leaves. -/
def onionHost (hostname : List UInt8) : List UInt8 := (hostname ++ text ".onion").take 62

/-- The branch CONNECT, on the payload at the start of the memory. -/
def connect (cfg : Config) (out : Outside) (g : Globals) (regid : UInt32) (memory : List UInt8) :
    Globals :=
  let remote := WireAddr.fetched memory out.beyond messageSize
  let ss := wireToSockaddr remote
  let g := g.gLog .CTRL (text "Attempting to connect to family")
    [decimal remote.family.toNat, text "for", decimal regid.toNat]
  if remote.family = ADDR_FAMILY_ONION then
    -- `uint32_t extra_len = ntoh(msg->length) - sizeof(struct connect_payload)`
    let extraLen := (UInt32.ofNat (messageLength memory) - 38).toNat
    if extraLen > 0 then
      g.torConnectHandler cfg out ss
        (onionHost (cString (fetch memory out.beyond (messageSize + 38) (min extraLen 63))))
    else g.torConnectHandler cfg out ss (onionHost (ss.sin6Addr.flatMap hexByte))
  else
    match out.socket with
    | .error e => g.gLog .ERROR (text "socket failure: " ++ cfg.strerror e)
        [text "(command_handler CONNECT)"]
    | .ok fd => g.connectHandler cfg out fd ss

end Globals

/-! ## A process for worked runs -/

/-- Answers of a kernel on which every connection succeeds at once. -/
def someOutside : Outside where
  nonce := 7
  beyond := fun _ => 0
  socket := .ok 9
  connect := none
  localAddr := Connector.someAddr
  version := Connector.someEnv

/-- A process that has just started. -/
def someGlobals : Globals := Globals.start (fun _ => false) fun _ => someOutside

end Coinscope.Control

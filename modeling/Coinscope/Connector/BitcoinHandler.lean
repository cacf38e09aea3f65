/-
# Connector.BitcoinHandler -- one connection to a peer

`bitcoin::handler` as the source has it: a read queue, a write queue, and a state
word whose low half says what is being received and whose high half what is being
sent.  A callback of the event loop is a function of the handler, of what the
kernel will answer, and of `g_last_block`; it returns the handler and the new
`g_last_block`.

Beside the members of the class a `Handler` records what an observer sees of it:
its calls of `g_log`, the bytes `recv` delivered and `write` accepted, and whether
one of its assertions failed.

* `Handler.doRead`, `Handler.doWrite`, `Handler.ioCb` -- the callback on the socket.
* `Handler.pingerCb`, `Handler.activePingerCb` -- the two timers.
* `Peer` -- the handler with its life cycle: active, then in `g_inactive_handlers`,
  then deleted.
-/
import Coinscope.Shared.LogFormat
import Coinscope.Shared.ReadBuffer
import Coinscope.Shared.WriteBuffer
import Coinscope.Theory.Runs

namespace Coinscope.Connector

open Coinscope.Shared
open Coinscope.Theory.Bytes

set_option autoImplicit false

/-! ## The state word -/

def RECV_MASK : UInt32 := 0x0000ffff
def RECV_HEADER : UInt32 := 0x1
def RECV_PAYLOAD : UInt32 := 0x2
def RECV_VERSION_INIT : UInt32 := 0x4
def RECV_VERSION_INIT_HDR : UInt32 := 0x8
def RECV_VERSION_REPLY_HDR : UInt32 := 0x10
def RECV_VERSION_REPLY : UInt32 := 0x20

def SEND_MASK : UInt32 := 0xffff0000
def SEND_MESSAGE : UInt32 := 0x10000
def SEND_VERSION_INIT : UInt32 := 0x20000
def SEND_VERSION_REPLY : UInt32 := 0x40000

/-! ## The handler -/

/-- `class bitcoin::handler`.  The timers are recorded as running or not; the time
of the last activity only decides when they fire. -/
structure Handler where
  readQueue : ReadBuffer
  writeQueue : WriteBuffer
  remoteAddr : SockaddrStorage
  localAddr : SockaddrStorage
  state : UInt32
  ioEvents : Events
  io : Io
  timer : Bool
  activePingTimer : Bool
  id : UInt32
  log : List LogCall
  got : List UInt8
  sent : List UInt8
  failed : Bool

namespace Handler

/-- A call of `g_log`. -/
def gLog (h : Handler) (call : LogCall) : Handler := { h with log := h.log ++ [call] }

/-- `g_log<BITCOIN>(update_type, id, remote_addr, local_addr, text, text_len)`. -/
def gLogBitcoin (h : Handler) (updateType : UInt32) (text : List UInt8) : Handler :=
  h.gLog (.bitcoin updateType h.id h.remoteAddr h.localAddr text)

/-- A failed assertion; nothing of the process is left behind it. -/
def abort (h : Handler) : Handler := { h with failed := true }

/-- `io_set(e)`. -/
def ioSet (h : Handler) (e : Events) : Handler :=
  if e ≠ h.ioEvents then { h with ioEvents := e, io := h.io.set e } else h

/-- What the three `append_for_write` do with the queue behind their append. -/
def appendedForWrite (h : Handler) (m : PackedMessage) (queue : WriteBuffer) : Handler :=
  let logged := { h.gLog (.bitcoinMsg h.id true m) with writeQueue := queue }
  let woken := if logged.state &&& SEND_MASK = 0 then
      logged.ioSet ⟨logged.state &&& RECV_MASK ≠ 0, true⟩
    else logged
  { woken with state := woken.state ||| SEND_MESSAGE }

/-- `append_for_write(const struct packed_message *)`, and through it the version
that takes a `unique_ptr`. -/
def appendForWrite (h : Handler) (m : PackedMessage) : Handler :=
  h.appendedForWrite m (h.writeQueue.append m.wire)

/-- `append_for_write(wrapped_buffer)`. -/
def appendForWriteShared (h : Handler) (m : PackedMessage) : Handler :=
  h.appendedForWrite m (h.writeQueue.appendShared m.buffer (packedSize + m.length))

/-- `handler(fd, a_state, a_remote_addr, a_local_addr)`, with the id it takes from
the pool. -/
def new (cfg : Config) (env : VersionEnv) (lastBlock : Int) (fd : Nat) (aState : UInt32)
    (remote localAddr : SockaddrStorage) (id : UInt32) : Handler × Int :=
  let h : Handler :=
    { readQueue := ReadBuffer.new 0, writeQueue := WriteBuffer.new
      remoteAddr := remote, localAddr := localAddr, state := aState
      ioEvents := Events.none, io := ⟨fd, Events.none, true⟩
      timer := false, activePingTimer := false, id := id
      log := [], got := [], sent := [], failed := decide (fd = 0) }
  if aState = SEND_VERSION_INIT then
    let m := getMessage cfg (ascii ['v', 'e', 'r', 's', 'i', 'o', 'n'])
      (getVersion cfg env lastBlock cfg.external remote)
    let queued := { h.gLog (.bitcoinMsg id true m) with
      ioEvents := Events.WRITE, io := Io.startOn fd Events.WRITE
      writeQueue := h.writeQueue.append m.wire }
    (queued.gLogBitcoin CONNECT_SUCCESS [], loadedBlock cfg lastBlock)
  else if aState = RECV_VERSION_REPLY_HDR then
    let waiting := { h with
      ioEvents := Events.READ, io := Io.startOn fd Events.READ
      readQueue := h.readQueue.setToRead packedSize }
    (waiting.gLogBitcoin ACCEPT_SUCCESS [], lastBlock)
  else (h, lastBlock)

/-- `start_pingers()`. -/
def startPingers (cfg : Config) (h : Handler) : Handler :=
  { h with
    timer := h.timer || decide (cfg.pingFrequency > 0)
    activePingTimer := h.activePingTimer || cfg.activePing }

/-- `suicide()`; without its descriptor a handler is in `g_inactive_handlers`. -/
def suicide (h : Handler) : Handler :=
  { h with timer := false, io := { h.io with fd := -1, active := false } }

/-- `disconnect()`. -/
def disconnect (h : Handler) : Handler := (h.gLogBitcoin CONNECTOR_DISCONNECT []).suicide

/-! ## Received messages -/

/-- The copy of a ping with `command[1] = 'o'`. -/
def pongBuffer (m : PackedMessage) : List UInt8 :=
  WrappedBuffer.blit
    (WrappedBuffer.blit (WrappedBuffer.ofSize (packedSize + m.length)) 0 m.wire) (4 + 1)
    (ascii ['o'])

theorem pongBuffer_length (m : PackedMessage) :
    (pongBuffer m).length = allocatedFor (packedSize + m.length) := by
  have room := le_allocatedFor (packedSize + m.length)
  have wire := m.wire_length
  have copied : (WrappedBuffer.blit (WrappedBuffer.ofSize (packedSize + m.length)) 0
      m.wire).length = allocatedFor (packedSize + m.length) := by
    rw [WrappedBuffer.length_blit (by simp [wire]; omega), WrappedBuffer.length_ofSize]
  have size : packedSize = 24 := rfl
  rw [pongBuffer, WrappedBuffer.length_blit (by simp [copied, ascii]; omega), copied]

/-- The length field is not touched. -/
theorem packedLength_pongBuffer (m : PackedMessage) : packedLength (pongBuffer m) = m.length := by
  have wire := m.wire_length
  have size : packedSize = 24 := rfl
  have room := le_allocatedFor (packedSize + m.length)
  have drop : (pongBuffer m).drop 16 = m.wire.drop 16 ++
      (WrappedBuffer.ofSize (packedSize + m.length)).drop m.wire.length := by
    have six : (WrappedBuffer.blit (WrappedBuffer.ofSize (packedSize + m.length)) 0 m.wire).take
        (4 + 1) ++ ascii ['o'] = m.wire.take 5 ++ ascii ['o'] := by
      simp only [WrappedBuffer.blit, List.take_zero, List.nil_append, Nat.zero_add]
      rw [List.take_append_of_le_length (by omega)]
    rw [pongBuffer, WrappedBuffer.blit, six, List.drop_append, List.drop_eq_nil_of_le (by
      simp [ascii]), List.nil_append, List.drop_drop]
    simp only [WrappedBuffer.blit, List.take_zero, List.nil_append, Nat.zero_add, ascii,
      List.map_cons, List.map_nil, List.length_append, List.length_take, List.length_cons,
      List.length_nil]
    rw [List.drop_append_of_le_length (by omega)]
    congr 2
    omega
  rw [packedLength, slice, drop, List.take_append_of_le_length (by simp; omega)]
  show ofLE (slice 16 4 m.wire) = _
  rw [PackedMessage.wire, slice_take _ (by omega)]
  rfl

/-- The answer to a ping. -/
def pong (m : PackedMessage) : PackedMessage where
  buffer := pongBuffer m
  whole := by
    rw [packedLength_pongBuffer, pongBuffer_length]
    exact le_allocatedFor _

/-- The block height a version message ends with, by the code's arithmetic. -/
def givenBlock (m : PackedMessage) : Int := ofLE32 (slice (packedSize + m.length - 5) 4 m.buffer)

/-- `handle_message_recv(msg)`. -/
def handleMessageRecv (cfg : Config) (h : Handler) (lastBlock : Int) (m : PackedMessage) :
    Handler × Int :=
  let h := h.gLog (.bitcoinMsg h.id false m)
  if cString m.command = ascii ['p', 'i', 'n', 'g'] then
    (h.appendForWriteShared (pong m), lastBlock)
  else if cString m.command = ascii ['g', 'e', 't', 'b', 'l', 'o', 'c', 'k', 's'] then
    (h.appendForWrite (getMessage cfg (ascii ['i', 'n', 'v']) (getInv [])), lastBlock)
  else if m.command.take 3 = ascii ['v', 'e', 'r'] then
    if slice 3 1 m.command = ascii ['a'] then (h.startPingers cfg, lastBlock)
    else if slice 3 1 m.command = ascii ['s'] then
      (h, if givenBlock m > lastBlock ∧ givenBlock m - lastBlock ≤ 10 then givenBlock m
        else lastBlock)
    else
      (h.gLog (.text .DEBUG (ascii ['U', 'n', 'e', 'x', 'p', 'e', 'c', 't', 'e', 'd', ' ',
        'c', 'o', 'm', 'm', 'a', 'n', 'd']) [cString m.command]), lastBlock)
  else (h, lastBlock)

/-- Neither a ping nor a getblocks, the two messages that are answered. -/
def Unasked (m : PackedMessage) : Prop :=
  ¬ cString m.command = ascii ['p', 'i', 'n', 'g'] ∧
    ¬ cString m.command = ascii ['g', 'e', 't', 'b', 'l', 'o', 'c', 'k', 's']

/-- Everything `handle_message_recv` can do to a handler that has logged the message. -/
inductive Reacted (cfg : Config) (m : PackedMessage) (h : Handler) : Handler → Prop where
  | ping (asked : cString m.command = ascii ['p', 'i', 'n', 'g']) :
      Reacted cfg m h (h.appendForWriteShared (pong m))
  | getblocks (asked : cString m.command = ascii ['g', 'e', 't', 'b', 'l', 'o', 'c', 'k', 's']) :
      Reacted cfg m h (h.appendForWrite (getMessage cfg (ascii ['i', 'n', 'v']) (getInv [])))
  | verack (unasked : Unasked m) : Reacted cfg m h (h.startPingers cfg)
  | unexpected (unasked : Unasked m) (val : List UInt8) (args : List (List UInt8)) :
      Reacted cfg m h (h.gLog (.text .DEBUG val args))
  | nothing (unasked : Unasked m) : Reacted cfg m h h

theorem handleMessageRecv_reacted (cfg : Config) (h : Handler) (lastBlock : Int)
    (m : PackedMessage) :
    Reacted cfg m (h.gLog (.bitcoinMsg h.id false m)) (h.handleMessageRecv cfg lastBlock m).1 := by
  unfold handleMessageRecv
  simp only
  split
  · exact .ping ‹_›
  · rename_i noPing
    split
    · exact .getblocks ‹_›
    · rename_i noBlocks
      split
      · split
        · exact .verack ⟨noPing, noBlocks⟩
        · split
          · exact .nothing ⟨noPing, noBlocks⟩
          · exact .unexpected ⟨noPing, noBlocks⟩ _ _
      · exact .nothing ⟨noPing, noBlocks⟩

/-- The message in the read buffer, for the branches whose assertion says that all
of it is there. -/
def withMessage (h : Handler) (lastBlock : Int) (k : PackedMessage → Handler × Int) :
    Handler × Int :=
  if whole : packedSize + packedLength h.readQueue.buffer ≤ h.readQueue.buffer.length then
    k ⟨h.readQueue.buffer, whole⟩
  else (h.abort, lastBlock)

/-- `cursor(0)` and `to_read(sizeof(struct packed_message))`. -/
def nextHeader (h : Handler) : Handler :=
  { h with readQueue := (h.readQueue.setCursor 0).setToRead packedSize }

/-- `to_read(msg->length)`. -/
def sized (h : Handler) : Handler :=
  { h with readQueue := h.readQueue.setToRead (packedLength h.readQueue.buffer) }

/-- `state = (state & SEND_MASK) | r`. -/
def receiving (h : Handler) (r : UInt32) : Handler :=
  { h with state := (h.state &&& SEND_MASK) ||| r }

/-- `handle_message_recv` on the message in the buffer, and on to the next header. -/
def handleMessage (cfg : Config) (h : Handler) (lastBlock : Int) : Handler × Int :=
  h.withMessage lastBlock fun m =>
    let r := h.handleMessageRecv cfg lastBlock m
    (r.1.nextHeader, r.2)

/-- The end of `RECV_VERSION_REPLY`: our version, a verack, and the pingers. -/
def replyVersion (cfg : Config) (env : VersionEnv) (h : Handler) (lastBlock : Int) : Handler :=
  let vmsg := getMessage cfg (ascii ['v', 'e', 'r', 's', 'i', 'o', 'n'])
    (getVersion cfg env lastBlock h.remoteAddr cfg.external)
  let verack := getMessage cfg (ascii ['v', 'e', 'r', 'a', 'c', 'k']) []
  { ((h.appendForWrite vmsg).appendForWrite verack).startPingers cfg with
    state := SEND_VERSION_REPLY ||| RECV_HEADER }

/-- The `switch` of `do_read` behind a full buffer. -/
def process (cfg : Config) (env : VersionEnv) (h : Handler) (lastBlock : Int) : Handler × Int :=
  let recv := h.state &&& RECV_MASK
  if h.readQueue.buffer.length < packedSize then (h.abort, lastBlock)
  else if recv = RECV_HEADER then
    if h.sized.readQueue.hungry then (h.sized.receiving RECV_PAYLOAD, lastBlock)
    else h.sized.handleMessage cfg lastBlock
  else if recv = RECV_PAYLOAD then
    let r := h.handleMessage cfg lastBlock
    (r.1.receiving RECV_HEADER, r.2)
  else if recv = RECV_VERSION_INIT_HDR then (h.sized.receiving RECV_VERSION_INIT, lastBlock)
  else if recv = RECV_VERSION_INIT then
    let r := h.handleMessage cfg lastBlock
    (r.1.receiving RECV_HEADER, r.2)
  else if recv = RECV_VERSION_REPLY_HDR then (h.sized.receiving RECV_VERSION_REPLY, lastBlock)
  else if recv = RECV_VERSION_REPLY then
    let r := h.handleMessage cfg lastBlock
    (r.1.replyVersion cfg env r.2, loadedBlock cfg r.2)
  else (h, lastBlock)

/-! ## The callback -/

/-- The outer loop of `do_read`; the inner one is `ReadBuffer.fill`. -/
def doReadAux (cfg : Config) (env : VersionEnv) :
    Nat → Handler → Int → List RecvResult → Handler × Int
  | 0, h, lastBlock, _ => (h, lastBlock)
  | fuel + 1, h, lastBlock, inbox =>
      if h.readQueue.hungry then
        let s := h.readQueue.fill inbox
        let h := { h with readQueue := s.queue, got := h.got ++ s.got }
        match s.ret with
        | .fail .eagain | .fail .eintr => (h, lastBlock)
        | .fail .econnreset => ((h.gLogBitcoin PEER_RESET []).suicide, lastBlock)
        | .fail e => ((h.gLogBitcoin UNEXPECTED_ERROR (cfg.strerror e ++ [0])).suicide, lastBlock)
        | .count 0 => ((h.gLogBitcoin ORDERLY_DISCONNECT []).suicide, lastBlock)
        | .count (_ + 1) =>
            let p := h.process cfg env lastBlock
            doReadAux cfg env fuel p.1 p.2 s.inbox
      else (h, lastBlock)

/-- `do_read`.  Every round takes an answer of the kernel or a byte of the receive
array, so the fuel suffices. -/
def doRead (cfg : Config) (env : VersionEnv) (h : Handler) (lastBlock : Int)
    (inbox : List RecvResult) : Handler × Int :=
  doReadAux cfg env (h.readQueue.effort inbox + 1) h lastBlock inbox

/-- The end of `do_write`, behind a drained queue. -/
def drained (h : Handler) : Handler :=
  let h := if h.state &&& SEND_MASK = SEND_VERSION_INIT then
      if h.readQueue.toRead = 0 then
        { h with state := RECV_VERSION_INIT_HDR, readQueue := h.readQueue.setToRead packedSize }
      else h.abort
    else h
  { h with state := h.state &&& RECV_MASK }

/-- `do_write`. -/
def doWrite (cfg : Config) (h : Handler) (outbox : List WriteResult) : Handler :=
  let s := WriteBuffer.flush h.io.fd outbox h.writeQueue
  let h := { h with writeQueue := s.queue, sent := h.sent ++ s.put }
  let done := if h.writeQueue.toWrite = 0 then h.drained else h
  match s.ret with
  | .fail .eagain | .fail .eintr => done
  | .fail e => (h.gLogBitcoin WRITE_DISCONNECT (cfg.strerror e ++ [0])).suicide
  | .count _ => done

/-- `io_cb`.  A handler without a descriptor is not active any more and returns. -/
def ioCb (cfg : Config) (env : VersionEnv) (h : Handler) (lastBlock : Int) (revents : Events)
    (inbox : List RecvResult) (outbox : List WriteResult) : Handler × Int :=
  if h.io.fd = -1 then (h, lastBlock)
  else
    let r := if h.state &&& RECV_MASK ≠ 0 ∧ revents.read = true then
        h.doRead cfg env lastBlock inbox
      else (h, lastBlock)
    let h := if revents.write then r.1.doWrite cfg outbox else r.1
    (h.ioSet ⟨h.state &&& RECV_MASK ≠ 0, h.state &&& SEND_MASK ≠ 0⟩, r.2)

/-! ## The timers -/

/-- `pinger_cb`; `due` is whether there was no activity for the whole interval. -/
def pingerCb (cfg : Config) (h : Handler) (due : Bool) (nonce : Nat) : Handler :=
  let h := if due then
      h.appendForWrite (getMessage cfg (ascii ['p', 'i', 'n', 'g']) (le 8 nonce))
    else h
  { h with timer := true }

/-- The static payload of `active_pinger_cb`: 35 zeroed bytes, the count and the
address written once and the time every time. -/
def addrPayload (cfg : Config) (now : Nat) : List UInt8 :=
  toVarint 1 ++ le 4 now ++
    setAddress ⟨List.replicate 26 0, List.length_replicate ..⟩ cfg.external ++ [0, 0, 0, 0]

/-- `active_pinger_cb`. -/
def activePingerCb (cfg : Config) (h : Handler) (now : Nat) : Handler :=
  { h.appendForWrite (getMessage cfg (ascii ['a', 'd', 'd', 'r']) (addrPayload cfg now)) with
    activePingTimer := true }

end Handler

/-! ## Life cycle -/

/-- A handler from its construction to its deletion. -/
structure Peer where
  handler : Handler
  deleted : Bool

/-- What can happen to a handler.  Other handlers come in through `g_last_block`
and by clearing `g_inactive_handlers`. -/
inductive PeerEvent where
  | ioCb (env : VersionEnv) (lastBlock : Int) (revents : Events) (inbox : List RecvResult)
      (outbox : List WriteResult)
  | send (m : PackedMessage)
  | disconnect
  | pinger (due : Bool) (nonce : Nat)
  | activePinger (now : Nat)
  | clearInactive

namespace Peer

/-- In `g_active_handlers`: every path that gives the descriptor up moves the
handler to `g_inactive_handlers`. -/
def active (p : Peer) : Bool := !p.deleted && decide (0 ≤ p.handler.io.fd)

/-- A timer fires only while it runs, commands reach active handlers only, and a
deleted handler's watchers are gone with it. -/
def step (cfg : Config) (p : Peer) (e : PeerEvent) : Peer :=
  if p.deleted then p
  else
    match e with
    | .ioCb env lastBlock revents inbox outbox =>
        { p with handler := (p.handler.ioCb cfg env lastBlock revents inbox outbox).1 }
    | .send m => if p.active then { p with handler := p.handler.appendForWriteShared m } else p
    | .disconnect => if p.active then { p with handler := p.handler.disconnect } else p
    | .pinger due nonce =>
        if p.handler.timer then { p with handler := p.handler.pingerCb cfg due nonce } else p
    | .activePinger now =>
        if p.handler.activePingTimer then { p with handler := p.handler.activePingerCb cfg now }
        else p
    | .clearInactive => if p.active then p else { p with deleted := true }

/-- A connection we made, or one we accepted. -/
inductive Origin where
  | connected
  | accepted
  deriving DecidableEq

/-- The state a handler is constructed with. -/
def Origin.state : Origin → UInt32
  | connected => SEND_VERSION_INIT
  | accepted => RECV_VERSION_REPLY_HDR

/-- A new handler. -/
def new (cfg : Config) (env : VersionEnv) (lastBlock : Int) (fd : Nat) (origin : Origin)
    (remote localAddr : SockaddrStorage) (id : UInt32) : Peer :=
  ⟨(Handler.new cfg env lastBlock fd origin.state remote localAddr id).1, false⟩

end Peer

/-! ## A configuration for worked runs -/

/-- `10.0.0.1:8333`, in a zeroed `sockaddr_storage`. -/
def someAddr : SockaddrStorage where
  bytes := [2, 0, 0x20, 0x8d, 10, 0, 0, 1] ++ List.replicate 120 0
  size := by rw [List.length_append, List.length_replicate]; rfl

/-- The clock and the nonce of a worked run, with zeroed memory. -/
def someEnv : VersionEnv where
  time := 1400000000
  nonce := 7
  recvAddr := ⟨List.replicate 26 0, List.length_replicate ..⟩
  fromAddr := ⟨List.replicate 26 0, List.length_replicate ..⟩

/-- A node at `someAddr` with the agent `/a/`.  The checksums are those of the
version and the addr message of `someEnv`. -/
def someConfig : Config where
  magic := 0xd9b4bef9
  userAgent := ascii ['/', 'a', '/']
  external := someAddr
  startHeight := 300000
  pingFrequency := 60
  activePing := true
  computeChecksum := fun payload => if payload.length = 35 then 3676772857 else 430902136
  strerror := fun _ => ascii ['E']

/-- A verack message. -/
def someVerack : PackedMessage := getMessage someConfig (ascii ['v', 'e', 'r', 'a', 'c', 'k']) []

end Coinscope.Connector

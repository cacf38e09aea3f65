/-
# Control.CommandHandler -- one control connection

`ctrl::handler` as the source has it.  Its state word has the bits of a
`bitcoin::handler`, of which it uses `RECV_HEADER`, `RECV_PAYLOAD` and
`SEND_MESSAGE`.  A callback is a function of the globals, the handler and what the
kernel will answer.

Beside the members of the class a `Handler` records what an observer sees: the
messages it took in (`seen`), the replies it queued, the bytes `recv` delivered and
`write` accepted, and whether one of its two assertions failed.

* `Handler.receiveHeader`, `Handler.receivePayload` -- one message.
* `Handler.doRead`, `Handler.doWrite`, `Handler.ioCb` -- the callback.
-/
import Coinscope.Control.Globals

namespace Coinscope.Control

open Coinscope.Shared
open Coinscope.Theory.Bytes
open Coinscope.Connector (RECV_MASK RECV_HEADER RECV_PAYLOAD SEND_MASK SEND_MESSAGE)

set_option autoImplicit false

/-- `class ctrl::handler`. -/
structure Handler where
  readQueue : ReadBuffer
  writeQueue : WriteBuffer
  state : UInt32
  id : UInt32
  regid : UInt32
  io : Io
  seen : List (UInt8 × List UInt8)
  replies : List (List UInt8)
  got : List UInt8
  sent : List UInt8
  failed : Bool

namespace Handler

/-- `handler(fd)`, with the id it takes from the pool and a random registration id. -/
def new (fd : Nat) (id regid : UInt32) : Handler where
  readQueue := ReadBuffer.new messageSize
  writeQueue := WriteBuffer.new
  state := RECV_HEADER
  id := id
  regid := regid
  io := Io.startOn fd Events.READ
  seen := []
  replies := []
  got := []
  sent := []
  failed := false

/-- A failed assertion. -/
def abort (h : Handler) : Handler := { h with failed := true }

/-- `write_queue.append(ptr, len)` and `state |= SEND_MESSAGE`. -/
def reply (h : Handler) (bytes : List UInt8) : Handler :=
  { h with
    writeQueue := h.writeQueue.append bytes
    state := h.state ||| SEND_MESSAGE
    replies := h.replies ++ [bytes] }

/-- `write_queue.append(buffer, len)` of a buffer filled with `len` bytes, and
`state |= SEND_MESSAGE`. -/
def replyShared (h : Handler) (bytes : List UInt8) : Handler :=
  { h with
    writeQueue := h.writeQueue.appendShared
      (WrappedBuffer.blit (WrappedBuffer.realloc bytes.length []) 0 bytes) bytes.length
    state := h.state ||| SEND_MESSAGE
    replies := h.replies ++ [bytes] }

/-- `handle_message_recv(msg)`. -/
def handleMessageRecv (g : Globals) (h : Handler) (msg : CommandMsg) : Globals × Handler :=
  if msg.command = COMMAND_GET_CXN then
    (g.gLog .CTRL (text "All connections requested") [decimal h.regid.toNat],
      h.replyShared g.connections)
  else if msg.command = COMMAND_SEND_MSG then (g.sendMsg h.id msg, h)
  else if msg.command = COMMAND_DISCONNECT then (g.disconnect msg, h)
  else (g.gLog .CTRL (text "UNKNOWN COMMAND_MSG COMMAND: ") [[msg.command]], h)

/-- What is outside while the next message is handled. -/
def outside (g : Globals) : Outside := g.tape g.clock

/-- The message in the read buffer is taken in. -/
def take (h : Handler) : Handler :=
  { h with seen := h.seen ++
      [(messageType h.readQueue.buffer, messagePayload h.readQueue.buffer)] }

/-- `cursor(0)` and `to_read(sizeof(struct message))`. -/
def nextMessage (h : Handler) : Handler :=
  { h with readQueue := (h.readQueue.setCursor 0).setToRead messageSize }

/-- The branch REGISTER of `receive_header`. -/
def registerMe (g : Globals) (h : Handler) : Globals × Handler :=
  let regid := (outside g).nonce
  let logged := (g.gLog .CTRL (text "UNREGISTERING") [decimal h.regid.toNat]).gLog .CTRL
    (text "REGISTERING") [decimal regid.toNat]
  (({ logged with messages := logged.messages.erase h.regid } : Globals).serve (.renamed h.id),
    ({ h with regid := regid } : Handler).reply (be 4 regid.toNat))

/-- `receive_header()`. -/
def receiveHeader (g : Globals) (h : Handler) : Globals × Handler :=
  let memory := h.readQueue.buffer
  let sized := { h with readQueue := h.readQueue.setToRead (messageLength memory) }
  let warned := if messageVersion memory ≠ 0 then
      g.gLog .DEBUG (text "Warning: Unsupported version") [decimal (messageVersion memory).toNat]
    else g
  if sized.readQueue.toRead = 0 then
    let r := if messageType memory = REGISTER then sized.take.registerMe warned
      -- the stream starts at the beginning of its initial text and overwrites it
      else (warned.gLog .CTRL (showMessage memory) [], sized.take)
    ({ r.1 with clock := r.1.clock + 1 }, r.2.nextMessage)
  else (warned, { sized with state := (sized.state &&& SEND_MASK) ||| RECV_PAYLOAD })

/-- The `switch` of `receive_payload`. -/
def payloadSwitch (cfg : Config) (g : Globals) (h : Handler) : Globals × Handler :=
  let memory := h.readQueue.buffer
  if messageType memory = BITCOIN_PACKED_MESSAGE then
    let r := g.register h.id h.regid (messagePayload memory)
    (r.1.serve (.registered h.id (messagePayload memory) r.2), h.reply (be 4 r.2.toNat))
  else if messageType memory = COMMAND then
    let r := h.handleMessageRecv g (commandMsg memory (outside g).beyond)
    (r.1.serve (.commanded h.id (messagePayload memory) g.activeHandlers r.1.activeHandlers),
      { r.2 with state := r.2.state &&& SEND_MASK })
  else if messageType memory = CONNECT then
    (g.connect cfg (outside g) h.regid memory, h)
  else
    (g.gLog .CTRL (text "unknown payload type") [decimal h.regid.toNat, showMessage memory], h)

/-- `receive_payload()`. -/
def receivePayload (cfg : Config) (g : Globals) (h : Handler) : Globals × Handler :=
  let memory := h.readQueue.buffer
  let warned := if messageVersion memory ≠ 0 then
      g.gLog .DEBUG (text "Warning: unsupported version. Attempting to receive payload") []
    else g
  let r := h.take.payloadSwitch cfg warned
  ({ r.1 with clock := r.1.clock + 1 },
    { r.2.nextMessage with state := (r.2.state &&& SEND_MASK) ||| RECV_HEADER })

/-- The `switch` of `do_read` behind a full buffer. -/
def process (cfg : Config) (g : Globals) (h : Handler) : Globals × Handler :=
  if h.state &&& RECV_MASK = RECV_HEADER then h.receiveHeader g
  else if h.state &&& RECV_MASK = RECV_PAYLOAD then h.receivePayload cfg g
  else (g, h)

/-- `suicide()`; the connections with a stopped watcher are `g_inactive_handlers`. -/
def suicide (g : Globals) (h : Handler) : Globals × Handler :=
  ({ g with activeDescriptors := g.activeDescriptors - 1 },
    { h with io := { h.io with fd := -1, active := false } })

/-- The outer loop of `do_read`; the inner one is `ReadBuffer.fill`. -/
def doReadAux (cfg : Config) :
    Nat → Globals → Handler → List RecvResult → Globals × Handler
  | 0, g, h, _ => (g, h)
  | fuel + 1, g, h, inbox =>
      if h.readQueue.hungry then
        let s := h.readQueue.fill inbox
        let h := { h with readQueue := s.queue, got := h.got ++ s.got }
        match s.ret with
        | .fail .eagain => (g, h)
        | .fail e => h.suicide (g.gLog .ERROR (cfg.strerror e) [text "(command_handler)"])
        | .count 0 => h.suicide (g.gLog .CTRL (text "Orderly disconnect") [decimal h.id.toNat])
        | .count (_ + 1) =>
            let p := h.process cfg g
            doReadAux cfg fuel p.1 p.2 s.inbox
      else (g, h)

/-- `do_read`.  Every round takes an answer of the kernel or a byte of the receive
array, so the fuel suffices. -/
def doRead (cfg : Config) (g : Globals) (h : Handler) (inbox : List RecvResult) :
    Globals × Handler :=
  doReadAux cfg (h.readQueue.effort inbox + 1) g h inbox

/-- `do_write`. -/
def doWrite (cfg : Config) (g : Globals) (h : Handler) (outbox : List WriteResult) :
    Globals × Handler :=
  let s := WriteBuffer.flush h.io.fd outbox h.writeQueue
  let h := { h with writeQueue := s.queue, sent := h.sent ++ s.put }
  let done := if h.writeQueue.toWrite = 0 then { h with state := h.state &&& ~~~SEND_MASK } else h
  match s.ret with
  | .fail .eagain => (g, done)
  | .fail e => h.suicide (g.gLog .ERROR (cfg.strerror e) [text "(command_handler)"])
  | .count _ => (g, done)

/-- The two assertions of `io_cb`. -/
def asserted (h : Handler) : Handler :=
  if h.readQueue.toRead ≠ 0 ∧ h.state &&& RECV_MASK ≠ 0 then h else h.abort

/-- `io_cb`. -/
def ioCb (cfg : Config) (g : Globals) (h : Handler) (revents : Events) (inbox : List RecvResult)
    (outbox : List WriteResult) : Globals × Handler :=
  let oldState := h.state
  let r := if h.state &&& RECV_MASK ≠ 0 ∧ revents.read = true then h.doRead cfg g inbox else (g, h)
  let r := (r.1, r.2.asserted)
  let r := if revents.write then r.2.doWrite cfg r.1 outbox else r
  if r.2.state ≠ oldState then
    (r.1, { r.2 with
      io := r.2.io.set ⟨r.2.state &&& RECV_MASK ≠ 0, r.2.state &&& SEND_MASK ≠ 0⟩ })
  else r

end Handler

end Coinscope.Control

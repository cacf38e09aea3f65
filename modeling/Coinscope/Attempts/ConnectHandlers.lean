/-
# Attempts.ConnectHandlers -- connection attempts that wait for their socket

A CONNECT message whose socket does not connect at once leaves an object behind that
waits for the event loop.  `connect_handler` asks `connect` again; `tor_connect_handler`
talks SOCKS5 with a proxy first.  Both end by giving their descriptor to a new
`bitcoin::handler`, or by closing it.

Between two callbacks of an attempt the rest of the process runs, so a callback comes
with the variables of the process at its time and returns them with the attempt.

* `ConnectHandler.ioCb` -- the callback of a direct attempt.
* `TorHandler.ioCb` -- the five states of the SOCKS5 client.
* `sendLoop_full`, `sendLoop_short` -- the loop around `write`, for every list of answers.
* `TorHandler.Moves`, `TorHandler.step_moves` -- what one callback can do.
-/
import Coinscope.Control.ConnectFrames

namespace Coinscope.Attempts

open Coinscope.Shared
open Coinscope.Theory.Bytes
open Coinscope.Theory.Runs
open Coinscope.Control (Globals Outside text decimal peek torHost)

set_option autoImplicit false

/-- What a callback finds: the variables of the process, and what the kernel answers.
Stack memory that was not written is read off `out.beyond`; `soError` is what `getsockopt`
returned and left. -/
structure Callback where
  globals : Globals
  out : Outside
  revents : Events
  outbox : List WriteResult
  answer : RecvResult
  soError : Bool × Option Errno

/-! ## Direct attempts -/

/-- `class connect_handler`, behind a constructor that has to wait. -/
structure ConnectHandler where
  remoteAddr : SockaddrStorage
  io : Io
  deriving DecidableEq

namespace ConnectHandler

def new (fd : Nat) (remote : SockaddrStorage) : ConnectHandler :=
  ⟨remote, Io.startOn fd Events.WRITE⟩

/-- `io.stop()` and `io.fd = -1`; the object is in `g_inactive_connection_handlers`. -/
def retired (h : ConnectHandler) : ConnectHandler :=
  { h with io := { h.io.stop with fd := -1 } }

/-- `connect_handler::io_cb`. -/
def ioCb (cfg : Config) (h : ConnectHandler) (c : Callback) : Globals × ConnectHandler :=
  match c.out.connect with
  | none => (c.globals.setupHandler cfg c.out h.io.fd.toNat h.remoteAddr, h.retired)
  | some e =>
      if Globals.inProgress e then (c.globals, h)
      else (c.globals.connectFailure h.remoteAddr.family h.remoteAddr (cfg.strerror e), h.retired)

/-- A callback comes while the watcher is started. -/
def step (cfg : Config) (h : ConnectHandler) (c : Callback) : ConnectHandler :=
  if h.io.active then (h.ioCb cfg c).2 else h

end ConnectHandler

/-! ## The SOCKS5 client -/

/-- `enum tor_state`. -/
inductive TorState where
  | TOR_CONNECT_PROXY
  | TOR_SEND_GREETING
  | TOR_RECV_GREETING
  | TOR_SEND_CONNECT
  | TOR_RECV_CONNECT
  | TOR_HANDSHAKE_DONE
  deriving DecidableEq, Repr

/-- `class tor_connect_handler`.  `onionHost` is what `snprintf` left of `onion_host_` in
front of the zeros.  Beside the members: the bytes `write` accepted, the bytes `read`
delivered and in how many calls, and what became of the descriptor. -/
structure TorHandler where
  remoteAddr : SockaddrStorage
  io : Io
  fd : Int
  state : TorState
  onionHost : List UInt8
  onionPort : Nat
  written : Nat
  toWrite : Nat
  sent : List UInt8
  taken : List UInt8
  reads : Nat
  handedOver : Bool
  closed : Bool
  hostFits : onionHost.length ≤ 62

/-- What a loop around `write` leaves: `written_`, the accepted bytes, and the error other
than `EAGAIN` that ended it. -/
structure Sending where
  written : Nat
  put : List UInt8
  error : Option Errno
  deriving DecidableEq

/-- The errors that end an attempt. -/
def fatal (e : Errno) : Option Errno := if e = .eagain then none else some e

/-- `while (written_ < to_write_)` around `write(fd_, buf + written_, to_write_ - written_)`. -/
def sendLoop (fd : Int) (buf : List UInt8) : List WriteResult → Nat → Sending
  | [], written =>
      if written < buf.length then
        match (write fd (buf.drop written) []).1 with
        | .count _ => ⟨written, [], none⟩
        | .fail e => ⟨written, [], fatal e⟩
      else ⟨written, [], none⟩
  | answer :: rest, written =>
      if written < buf.length then
        let w := write fd (buf.drop written) (answer :: rest)
        match w.1 with
        -- a count of zero leaves `written_` alone, and the loop goes on
        | .count n =>
            let s := sendLoop fd buf rest (written + n)
            { s with put := w.2.1 ++ s.put }
        | .fail e => ⟨written, [], fatal e⟩
      else ⟨written, [], none⟩

/-- The greeting: version 5, one method, no authentication. -/
def greeting : List UInt8 := [5, 1, 0]

namespace TorHandler

/-- `tor_connect_handler(onion_addr[, hostname])`, with the socket to the proxy. -/
def new (fd : Nat) (remote : SockaddrStorage) (hostname : Option (List UInt8)) : TorHandler where
  remoteAddr := remote
  io := Io.startOn fd Events.WRITE
  fd := fd
  state := .TOR_SEND_GREETING
  onionHost := torHost remote hostname
  onionPort := ofBE remote.port
  written := 0
  toWrite := 0
  sent := []
  taken := []
  reads := 0
  handedOver := false
  closed := false
  hostFits := by
    cases hostname with
    | none => exact List.length_take_le ..
    | some name => exact List.length_take_le ..

/-- `advance()`, behind which the object is in `g_inactive_tor_handlers`. -/
def advance (h : TorHandler) : TorHandler :=
  { h with
    io := h.io.stop
    fd := -1
    state := .TOR_CONNECT_PROXY
    closed := h.closed || decide (0 ≤ h.fd) }

/-- `strlen(onion_host_)` characters of `onion_host_`. -/
def host (h : TorHandler) : List UInt8 := cString h.onionHost

/-- The array `buf` of `send_connect`, `6 + hostlen + 2` bytes.  Its last byte is never
written. -/
def connectBuffer (h : TorHandler) (last : UInt8) : List UInt8 :=
  [5, 1, 0, 3, UInt8.ofNat h.host.length] ++ h.host ++
    [UInt8.ofNat (h.onionPort >>> 8), UInt8.ofNat h.onionPort] ++ [last]

/-- What `send_greeting` and `send_connect` do with their array. -/
def send (cfg : Config) (g : Globals) (h : TorHandler) (outbox : List WriteResult)
    (buf : List UInt8) (failure : String) (next : TorState) (expected : Nat) :
    Globals × TorHandler :=
  let s := sendLoop h.fd buf outbox 0
  let h := { h with written := s.written, toWrite := buf.length, sent := h.sent ++ s.put }
  match s.error with
  | some e => (g.gLog .ERROR (text failure) [cfg.strerror e], h.advance)
  | none =>
      if buf.length ≤ s.written then
        (g, { h with
          state := next, io := Io.startOn h.fd Events.READ, written := 0, toWrite := expected })
      else (g, h)

/-- `send_greeting()`. -/
def sendGreeting (cfg : Config) (g : Globals) (h : TorHandler) (outbox : List WriteResult) :
    Globals × TorHandler :=
  h.send cfg g outbox greeting "Tor greeting write failed" .TOR_RECV_GREETING 2

/-- `send_connect()`. -/
def sendConnect (cfg : Config) (out : Outside) (g : Globals) (h : TorHandler)
    (outbox : List WriteResult) : Globals × TorHandler :=
  h.send cfg g outbox (h.connectBuffer (out.beyond 0)) "Tor connect write failed"
    .TOR_RECV_CONNECT 4

/-- What `recv_greeting` and `recv_connect` do with one `read` of at most `size` bytes;
`parse` gets the first two bytes of the array, read or not. -/
def recv (cfg : Config) (out : Outside) (g : Globals) (h : TorHandler) (answer : RecvResult)
    (size : Nat) (disconnected failure : String)
    (parse : TorHandler → UInt8 → UInt8 → Globals × TorHandler) : Globals × TorHandler :=
  match answer with
  | .data chunk =>
      let buf := chunk.bytes.take size
      parse { h with taken := h.taken ++ buf, reads := h.reads + 1 } (peek buf out.beyond 0)
        (peek buf out.beyond 1)
  | .eof => (g.gLog .ERROR (text disconnected) [], h.advance)
  | .err e =>
      match fatal e with
      | some e => (g.gLog .ERROR (text failure) [cfg.strerror e], h.advance)
      | none => (g, h)

/-- `recv_greeting()`. -/
def recvGreeting (cfg : Config) (out : Outside) (g : Globals) (h : TorHandler)
    (answer : RecvResult) : Globals × TorHandler :=
  h.recv cfg out g answer 2 "Tor disconnected during greeting" "Tor greeting read error"
    fun h first second =>
      if first = 5 ∧ second = 0 then
        (g, { h with state := .TOR_SEND_CONNECT, io := Io.startOn h.fd Events.WRITE })
      else
        (g.gLog .ERROR (text "Tor SOCKS5 greeting rejected")
          [decimal first.toNat, decimal second.toNat], h.advance)

/-- The socket goes to a new handler, which `g_active_handlers` keeps. -/
def handOver (cfg : Config) (out : Outside) (g : Globals) (h : TorHandler) :
    Globals × TorHandler :=
  let h := { h with state := .TOR_HANDSHAKE_DONE, io := h.io.stop }
  -- `fd_ = -1` stands in front of `advance()`, which therefore closes nothing
  (g.setupHandler cfg out h.fd.toNat h.remoteAddr,
    { h with fd := -1, handedOver := true }.advance)

/-- `recv_connect()`. -/
def recvConnect (cfg : Config) (out : Outside) (g : Globals) (h : TorHandler)
    (answer : RecvResult) : Globals × TorHandler :=
  h.recv cfg out g answer 256 "Tor disconnected during connect reply" "Tor connect read error"
    fun h first second =>
      if first = 5 ∧ second = 0 then h.handOver cfg out g
      else (g.gLog .ERROR (text "Tor connect rejected, REP:") [decimal second.toNat], h.advance)

/-- The case TOR_CONNECT_PROXY.  If `getsockopt` fails `err` is what the stack had there. -/
def proxyConnected (cfg : Config) (g : Globals) (h : TorHandler) (soError : Bool × Option Errno) :
    Globals × TorHandler :=
  let waiting := fun state => { h with state := state, io := Io.startOn h.fd Events.WRITE }
  match soError with
  | (true, none) => (g, waiting .TOR_SEND_GREETING)
  | (false, none) => (g, waiting .TOR_CONNECT_PROXY)
  | (_, some e) => (g.gLog .ERROR (text "Tor proxy connect error") [cfg.strerror e], h.advance)

/-- `tor_connect_handler::io_cb`. -/
def ioCb (cfg : Config) (h : TorHandler) (c : Callback) : Globals × TorHandler :=
  match h.state with
  | .TOR_CONNECT_PROXY => h.proxyConnected cfg c.globals c.soError
  | .TOR_SEND_GREETING =>
      if c.revents.write then h.sendGreeting cfg c.globals c.outbox else (c.globals, h)
  | .TOR_RECV_GREETING =>
      if c.revents.read then h.recvGreeting cfg c.out c.globals c.answer else (c.globals, h)
  | .TOR_SEND_CONNECT =>
      if c.revents.write then h.sendConnect cfg c.out c.globals c.outbox else (c.globals, h)
  | .TOR_RECV_CONNECT =>
      if c.revents.read then h.recvConnect cfg c.out c.globals c.answer else (c.globals, h)
  | .TOR_HANDSHAKE_DONE => (c.globals, h)

/-- A callback comes while the watcher is started. -/
def step (cfg : Config) (h : TorHandler) (c : Callback) : TorHandler :=
  if h.io.active then (h.ioCb cfg c).2 else h

end TorHandler

/-! ## The loop around `write` -/

/-- The bytes a list of answers accepts in front of its first error. -/
def accepts : List WriteResult → Nat
  | .accept n :: rest => n + accepts rest
  | _ => 0

/-- The first error; answers that run out say `EAGAIN`. -/
def refusal : List WriteResult → Errno
  | .accept _ :: rest => refusal rest
  | .err e :: _ => e
  | [] => .eagain

@[simp] theorem accepts_nil : accepts [] = 0 := rfl

@[simp] theorem accepts_err (e : Errno) (rest : List WriteResult) :
    accepts (.err e :: rest) = 0 := rfl

@[simp] theorem accepts_accept (n : Nat) (rest : List WriteResult) :
    accepts (.accept n :: rest) = n + accepts rest := rfl

section Loop

variable {fd : Int} (isOpen : 0 ≤ fd) (buf : List UInt8)

include isOpen

/-- A round that `write` answers with a count. -/
theorem sendLoop_accept (n : Nat) (rest : List WriteResult) {written : Nat}
    (left : written < buf.length) : sendLoop fd buf (.accept n :: rest) written =
      { sendLoop fd buf rest (written + min n (buf.length - written)) with
        put := (buf.drop written).take n ++
          (sendLoop fd buf rest (written + min n (buf.length - written))).put } := by
  rw [sendLoop, if_pos left]
  simp only [write, if_neg (show ¬ fd < 0 by omega), List.length_drop]

/-- With enough accepted in front of the first error, everything is written. -/
theorem sendLoop_full (outbox : List WriteResult) {written : Nat} (inside : written ≤ buf.length)
    (enough : buf.length ≤ written + accepts outbox) :
    sendLoop fd buf outbox written = ⟨buf.length, buf.drop written, none⟩ := by
  induction outbox generalizing written with
  | nil =>
      have done : written = buf.length := Nat.le_antisymm inside enough
      rw [sendLoop, if_neg (by omega), done, List.drop_length]
  | cons answer rest ih =>
      by_cases left : written < buf.length
      · cases answer with
        | err e =>
            rw [accepts_err] at enough
            omega
        | accept n =>
            rw [accepts_accept] at enough
            rw [sendLoop_accept isOpen buf n rest left, ih (by omega) (by omega)]
            simp only
            rw [← List.drop_drop, ← List.length_drop, List.take_eq_take_min,
              List.take_append_drop]
      · have done : written = buf.length := by omega
        rw [sendLoop, if_neg left, done, List.drop_length]

/-- Else the loop writes what is accepted, and stops at the error. -/
theorem sendLoop_short (outbox : List WriteResult) {written : Nat}
    (short : written + accepts outbox < buf.length) :
    sendLoop fd buf outbox written =
      ⟨written + accepts outbox, (buf.drop written).take (accepts outbox),
        fatal (refusal outbox)⟩ := by
  induction outbox generalizing written with
  | nil =>
      rw [accepts_nil] at short
      rw [sendLoop, if_pos (by omega)]
      simp [write, show ¬ fd < 0 by omega, refusal]
  | cons answer rest ih =>
      cases answer with
      | err e =>
          rw [accepts_err] at short
          rw [sendLoop, if_pos (by omega)]
          simp [write, show ¬ fd < 0 by omega, refusal]
      | accept n =>
          rw [accepts_accept] at short
          rw [sendLoop_accept isOpen buf n rest (by omega), Nat.min_eq_left (by omega),
            ih (by omega), accepts_accept, Nat.add_assoc]
          simp only [refusal]
          rw [← List.drop_drop, ← List.take_add]

end Loop

/-! ## What a callback can do -/

/-- What a send state has to write, and where it goes behind that. -/
structure Offer where
  buf : List UInt8
  next : TorState
  expected : Nat

namespace TorHandler

/-- What the callback offers to `write`. -/
def offer (h : TorHandler) (c : Callback) : Option Offer :=
  if h.io.active = true ∧ c.revents.write = true then
    match h.state with
    | .TOR_SEND_GREETING => some ⟨greeting, .TOR_RECV_GREETING, 2⟩
    | .TOR_SEND_CONNECT => some ⟨h.connectBuffer (c.out.beyond 0), .TOR_RECV_CONNECT, 4⟩
    | _ => none
  else none

/-- The size of the array the callback reads into. -/
def wants (h : TorHandler) (c : Callback) : Option Nat :=
  if h.io.active = true ∧ c.revents.read = true then
    match h.state with
    | .TOR_RECV_GREETING => some 2
    | .TOR_RECV_CONNECT => some 256
    | _ => none
  else none

/-- Behind the loop around `write`. -/
def wrote (h : TorHandler) (size : Nat) (put : List UInt8) : TorHandler :=
  { h with written := put.length, toWrite := size, sent := h.sent ++ put }

/-- Behind an array that is written. -/
def entered (h : TorHandler) (next : TorState) (expected : Nat) : TorHandler :=
  { h with state := next, io := Io.startOn h.fd Events.READ, written := 0, toWrite := expected }

/-- Behind a successful `read`. -/
def took (h : TorHandler) (bytes : List UInt8) : TorHandler :=
  { h with taken := h.taken ++ bytes, reads := h.reads + 1 }

/-- Behind an accepted greeting. -/
def asking (h : TorHandler) : TorHandler :=
  { h with state := .TOR_SEND_CONNECT, io := Io.startOn h.fd Events.WRITE }

/-- Behind an accepted request: the descriptor is not ours any more. -/
def released (h : TorHandler) : TorHandler :=
  { h with io := h.io.stop, fd := -1, handedOver := true }.advance

/-- The first two bytes of an array say yes.  Where `read` delivered one byte the second is
what the stack had there. -/
def Granted (c : Callback) (bytes : List UInt8) : Prop :=
  peek bytes c.out.beyond 0 = 5 ∧ peek bytes c.out.beyond 1 = 0

/-- Everything one callback can do to an attempt. -/
inductive Moves (c : Callback) (h : TorHandler) : TorHandler → Prop where
  | idle (quiet : h.offer c = none) (deaf : ∀ chunk, c.answer = .data chunk → h.wants c = none) :
      Moves c h h
  | complete {o : Offer} (offered : h.offer c = some o) (enough : o.buf.length ≤ accepts c.outbox) :
      Moves c h ((h.wrote o.buf.length o.buf).entered o.next o.expected)
  | stalled {o : Offer} (offered : h.offer c = some o) (short : accepts c.outbox < o.buf.length)
      (later : refusal c.outbox = .eagain) :
      Moves c h (h.wrote o.buf.length (o.buf.take (accepts c.outbox)))
  | failed {o : Offer} (offered : h.offer c = some o) (short : accepts c.outbox < o.buf.length)
      (fatal : refusal c.outbox ≠ .eagain) :
      Moves c h (h.wrote o.buf.length (o.buf.take (accepts c.outbox))).advance
  | chosen {chunk : Chunk} (wanted : h.wants c = some 2) (data : c.answer = .data chunk)
      (granted : Granted c (chunk.bytes.take 2)) :
      Moves c h (h.took (chunk.bytes.take 2)).asking
  | connected {chunk : Chunk} (wanted : h.wants c = some 256) (data : c.answer = .data chunk)
      (granted : Granted c (chunk.bytes.take 256)) :
      Moves c h (h.took (chunk.bytes.take 256)).released
  | rejected {chunk : Chunk} {size : Nat} (wanted : h.wants c = some size)
      (data : c.answer = .data chunk) (refused : ¬ Granted c (chunk.bytes.take size)) :
      Moves c h (h.took (chunk.bytes.take size)).advance
  | lost {size : Nat} (wanted : h.wants c = some size) (none_ : ∀ chunk, c.answer ≠ .data chunk)
      (gone : c.answer ≠ .err .eagain) : Moves c h h.advance

/-- A started watcher has an open descriptor and one of the four working states. -/
structure Valid (h : TorHandler) : Prop where
  isOpen : h.io.active = true → 0 ≤ h.fd
  working : h.io.active = true →
    h.state = .TOR_SEND_GREETING ∨ h.state = .TOR_RECV_GREETING ∨
      h.state = .TOR_SEND_CONNECT ∨ h.state = .TOR_RECV_CONNECT
  finished : h.io.active = false → h.state = .TOR_CONNECT_PROXY

theorem new_valid (fd : Nat) (remote : SockaddrStorage) (hostname : Option (List UInt8)) :
    (new fd remote hostname).Valid :=
  ⟨fun _ => Int.natCast_nonneg fd, fun _ => Or.inl rfl, fun dead => by cases dead⟩

/-- Everything `send_greeting` and `send_connect` can do. -/
theorem send_moves (cfg : Config) (g : Globals) {c : Callback} {h : TorHandler} (isOpen : 0 ≤ h.fd)
    {o : Offer} (offered : h.offer c = some o) (failure : String) :
    Moves c h (h.send cfg g c.outbox o.buf failure o.next o.expected).2 := by
  by_cases enough : o.buf.length ≤ accepts c.outbox
  · have all := sendLoop_full isOpen o.buf c.outbox (Nat.zero_le _) (by omega)
    rw [List.drop_zero] at all
    have result : (h.send cfg g c.outbox o.buf failure o.next o.expected).2 =
        (h.wrote o.buf.length o.buf).entered o.next o.expected := by
      simp only [send, all, Nat.le_refl, if_true]
      rfl
    rw [result]
    exact .complete offered enough
  · have short : accepts c.outbox < o.buf.length := by omega
    have part : sendLoop h.fd o.buf c.outbox 0 = _ :=
      sendLoop_short isOpen o.buf c.outbox (by omega)
    rw [List.drop_zero, Nat.zero_add] at part
    have size : (o.buf.take (accepts c.outbox)).length = accepts c.outbox := by
      rw [List.length_take]
      omega
    by_cases later : refusal c.outbox = .eagain
    · have result : (h.send cfg g c.outbox o.buf failure o.next o.expected).2 =
          h.wrote o.buf.length (o.buf.take (accepts c.outbox)) := by
        simp only [send, part, fatal, later, if_true, if_neg enough, wrote, size]
      rw [result]
      exact .stalled offered short later
    · have result : (h.send cfg g c.outbox o.buf failure o.next o.expected).2 =
          (h.wrote o.buf.length (o.buf.take (accepts c.outbox))).advance := by
        simp only [send, part, fatal, later, if_false, wrote, size]
      rw [result]
      exact .failed offered short later

/-- Everything `recv_greeting` and `recv_connect` can do besides what they do with a reply. -/
theorem recv_moves (cfg : Config) (g : Globals) {c : Callback} {h : TorHandler} {size : Nat}
    (wanted : h.wants c = some size) (quiet : h.offer c = none) (disconnected failure : String)
    {parse : TorHandler → UInt8 → UInt8 → Globals × TorHandler}
    (reply : ∀ chunk, c.answer = .data chunk → Moves c h
      (parse (h.took (chunk.bytes.take size)) (peek (chunk.bytes.take size) c.out.beyond 0)
        (peek (chunk.bytes.take size) c.out.beyond 1)).2) :
    Moves c h (h.recv cfg c.out g c.answer size disconnected failure parse).2 := by
  cases answer : c.answer with
  | data chunk => exact reply chunk answer
  | eof =>
      refine .lost wanted ?_ ?_
      · intro chunk data
        rw [answer] at data
        cases data
      · rw [answer]
        intro no
        cases no
  | err e =>
      by_cases later : e = .eagain
      · subst later
        refine .idle quiet ?_
        intro chunk data
        rw [answer] at data
        cases data
      · simp only [recv, fatal, later, if_false]
        refine .lost wanted ?_ ?_
        · intro chunk data
          rw [answer] at data
          cases data
        · rw [answer]
          intro same
          injection same with same
          exact later same

/-- One callback does one of these. -/
theorem step_moves (cfg : Config) {h : TorHandler} (valid : h.Valid) (c : Callback) :
    Moves c h (h.step cfg c) := by
  unfold step
  by_cases active : h.io.active = true
  · rw [if_pos active]
    have isOpen := valid.isOpen active
    unfold ioCb
    rcases valid.working active with state | state | state | state
    · by_cases event : c.revents.write = true
      · have offered : h.offer c = some ⟨greeting, .TOR_RECV_GREETING, 2⟩ := by
          simp [offer, active, event, state]
        simp only [state, event, if_true, sendGreeting]
        exact send_moves cfg c.globals isOpen offered _
      · simp only [state, event]
        exact .idle (by simp [offer, event]) (fun _ _ => by simp [wants, state])
    · have quiet : h.offer c = none := by simp [offer, state]
      by_cases event : c.revents.read = true
      · have wanted : h.wants c = some 2 := by simp [wants, active, event, state]
        simp only [state, event, if_true, recvGreeting]
        refine recv_moves cfg c.globals wanted quiet _ _ ?_
        intro chunk data
        split
        · rename_i granted
          exact .chosen wanted data granted
        · rename_i refused
          exact .rejected wanted data refused
      · simp only [state, event]
        exact .idle quiet (fun _ _ => by simp [wants, event])
    · by_cases event : c.revents.write = true
      · have offered : h.offer c =
            some ⟨h.connectBuffer (c.out.beyond 0), .TOR_RECV_CONNECT, 4⟩ := by
          simp [offer, active, event, state]
        simp only [state, event, if_true, sendConnect]
        exact send_moves cfg c.globals isOpen offered _
      · simp only [state, event]
        exact .idle (by simp [offer, event]) (fun _ _ => by simp [wants, state])
    · have quiet : h.offer c = none := by simp [offer, state]
      by_cases event : c.revents.read = true
      · have wanted : h.wants c = some 256 := by simp [wants, active, event, state]
        simp only [state, event, if_true, recvConnect]
        refine recv_moves cfg c.globals wanted quiet _ _ ?_
        intro chunk data
        split
        · rename_i granted
          exact .connected wanted data granted
        · rename_i refused
          exact .rejected wanted data refused
      · simp only [state, event]
        exact .idle quiet (fun _ _ => by simp [wants, event])
  · rw [if_neg active]
    exact .idle (by simp [offer, active]) (fun _ _ => by simp [wants, active])

/-- Only the two send states offer anything. -/
theorem offer_cases {h : TorHandler} {c : Callback} {o : Offer} (offered : h.offer c = some o) :
    h.io.active = true ∧ c.revents.write = true ∧
      ((h.state = .TOR_SEND_GREETING ∧ o = ⟨greeting, .TOR_RECV_GREETING, 2⟩) ∨
        (h.state = .TOR_SEND_CONNECT ∧
          o = ⟨h.connectBuffer (c.out.beyond 0), .TOR_RECV_CONNECT, 4⟩)) := by
  unfold offer at offered
  split at offered
  · rename_i awake
    refine ⟨awake.1, awake.2, ?_⟩
    split at offered
    · rename_i state
      exact Or.inl ⟨state, (Option.some.inj offered).symm⟩
    · rename_i state
      exact Or.inr ⟨state, (Option.some.inj offered).symm⟩
    · cases offered
  · cases offered

/-- Only the two receive states read. -/
theorem wants_cases {h : TorHandler} {c : Callback} {size : Nat} (wanted : h.wants c = some size) :
    h.io.active = true ∧ c.revents.read = true ∧
      ((h.state = .TOR_RECV_GREETING ∧ size = 2) ∨
        (h.state = .TOR_RECV_CONNECT ∧ size = 256)) := by
  unfold wants at wanted
  split at wanted
  · rename_i awake
    refine ⟨awake.1, awake.2, ?_⟩
    split at wanted
    · rename_i state
      exact Or.inl ⟨state, (Option.some.inj wanted).symm⟩
    · rename_i state
      exact Or.inr ⟨state, (Option.some.inj wanted).symm⟩
    · cases wanted
  · cases wanted

/-- A callback that reads writes nothing. -/
theorem offer_of_wants {h : TorHandler} {c : Callback} {size : Nat}
    (wanted : h.wants c = some size) : h.offer c = none := by
  obtain ⟨-, -, ⟨state, -⟩ | ⟨state, -⟩⟩ := wants_cases wanted
  · simp [offer, state]
  · simp [offer, state]

theorem advance_valid (h : TorHandler) : h.advance.Valid :=
  ⟨fun live => (by cases live), fun live => (by cases live), fun _ => rfl⟩

theorem Moves.valid {c : Callback} {h h' : TorHandler} (moves : Moves c h h') (valid : h.Valid) :
    h'.Valid := by
  cases moves with
  | idle => exact valid
  | complete offered _ =>
      obtain ⟨active, -, offers⟩ := offer_cases offered
      refine ⟨fun _ => valid.isOpen active, fun _ => ?_, fun dead => by cases dead⟩
      rcases offers with ⟨-, rfl⟩ | ⟨-, rfl⟩
      · exact Or.inr (Or.inl rfl)
      · exact Or.inr (Or.inr (Or.inr rfl))
  | stalled => exact ⟨valid.isOpen, valid.working, valid.finished⟩
  | failed => exact advance_valid _
  | chosen wanted _ _ =>
      obtain ⟨active, -, -⟩ := wants_cases wanted
      exact ⟨fun _ => valid.isOpen active, fun _ => Or.inr (Or.inr (Or.inl rfl)),
        fun dead => by cases dead⟩
  | connected => exact advance_valid _
  | rejected => exact advance_valid _
  | lost => exact advance_valid _

/-- The target of an attempt stays what it is. -/
theorem Moves.same {c : Callback} {h h' : TorHandler} (moves : Moves c h h') :
    h'.remoteAddr = h.remoteAddr ∧ h'.onionHost = h.onionHost ∧ h'.onionPort = h.onionPort := by
  cases moves with
  | idle => exact ⟨rfl, rfl, rfl⟩
  | complete => exact ⟨rfl, rfl, rfl⟩
  | stalled => exact ⟨rfl, rfl, rfl⟩
  | failed => exact ⟨rfl, rfl, rfl⟩
  | chosen => exact ⟨rfl, rfl, rfl⟩
  | connected => exact ⟨rfl, rfl, rfl⟩
  | rejected => exact ⟨rfl, rfl, rfl⟩
  | lost => exact ⟨rfl, rfl, rfl⟩

theorem run_valid (cfg : Config) {h : TorHandler} (valid : h.Valid) (callbacks : List Callback) :
    (run (step cfg) h callbacks).Valid :=
  run_keeps (P := Valid) (fun _ c here => (step_moves cfg here c).valid here) valid callbacks

theorem run_same (cfg : Config) {h : TorHandler} (valid : h.Valid) (callbacks : List Callback) :
    (run (step cfg) h callbacks).remoteAddr = h.remoteAddr ∧
      (run (step cfg) h callbacks).onionHost = h.onionHost ∧
      (run (step cfg) h callbacks).onionPort = h.onionPort := by
  have keep : ∀ (k : TorHandler) (c : Callback),
      (k.Valid ∧ k.remoteAddr = h.remoteAddr ∧ k.onionHost = h.onionHost ∧
        k.onionPort = h.onionPort) →
      ((k.step cfg c).Valid ∧ (k.step cfg c).remoteAddr = h.remoteAddr ∧
        (k.step cfg c).onionHost = h.onionHost ∧ (k.step cfg c).onionPort = h.onionPort) := by
    rintro k c ⟨here, remote, host, port⟩
    have moves := step_moves cfg here c
    obtain ⟨remote', host', port'⟩ := moves.same
    exact ⟨moves.valid here, remote'.trans remote, host'.trans host, port'.trans port⟩
  exact (run_keeps keep ⟨valid, rfl, rfl, rfl⟩ callbacks).2

theorem send_handedOver (cfg : Config) (g : Globals) (h : TorHandler) (outbox : List WriteResult)
    (buf : List UInt8) (failure : String) (next : TorState) (expected : Nat) :
    (h.send cfg g outbox buf failure next expected).2.handedOver = h.handedOver := by
  unfold send
  simp only
  split
  · rfl
  · split
    · rfl
    · rfl

theorem recvGreeting_handedOver (cfg : Config) (out : Outside) (g : Globals) (h : TorHandler)
    (answer : RecvResult) : (h.recvGreeting cfg out g answer).2.handedOver = h.handedOver := by
  unfold recvGreeting recv
  split
  · simp only
    split <;> rfl
  · rfl
  · split <;> rfl

/-- `recv_connect` keeps the descriptor, or a new handler for the target has it. -/
theorem recvConnect_handsOver (cfg : Config) (out : Outside) (g : Globals) (h : TorHandler)
    (answer : RecvResult) :
    (h.recvConnect cfg out g answer).2.handedOver = h.handedOver ∨
      ((h.recvConnect cfg out g answer).1 = g.setupHandler cfg out h.fd.toNat h.remoteAddr ∧
        (h.recvConnect cfg out g answer).2.closed = h.closed) := by
  unfold recvConnect recv
  split
  · simp only
    split
    · exact .inr ⟨rfl, Bool.or_false _⟩
    · exact .inl rfl
  · exact .inl rfl
  · split <;> exact .inl rfl

/-- The descriptor changes hands in one place: a new handler for the target has it, and it
is not closed. -/
theorem ioCb_handsOver (cfg : Config) {h : TorHandler} {c : Callback} (kept : h.handedOver = false)
    (handed : (h.ioCb cfg c).2.handedOver = true) :
    (h.ioCb cfg c).1 = c.globals.setupHandler cfg c.out h.fd.toNat h.remoteAddr ∧
      (h.ioCb cfg c).2.closed = h.closed := by
  have given : (h.ioCb cfg c).2.handedOver = h.handedOver ∨
      ((h.ioCb cfg c).1 = c.globals.setupHandler cfg c.out h.fd.toNat h.remoteAddr ∧
        (h.ioCb cfg c).2.closed = h.closed) := by
    unfold ioCb
    cases h.state with
    | TOR_CONNECT_PROXY =>
        simp only [proxyConnected]
        split <;> exact .inl rfl
    | TOR_SEND_GREETING =>
        simp only
        split
        · exact .inl (send_handedOver ..)
        · exact .inl rfl
    | TOR_RECV_GREETING =>
        simp only
        split
        · exact .inl (recvGreeting_handedOver ..)
        · exact .inl rfl
    | TOR_SEND_CONNECT =>
        simp only
        split
        · exact .inl (send_handedOver ..)
        · exact .inl rfl
    | TOR_RECV_CONNECT =>
        simp only
        split
        · exact recvConnect_handsOver ..
        · exact .inl rfl
    | TOR_HANDSHAKE_DONE => exact .inl rfl
  rcases given with same | given
  · rw [same, kept] at handed
    cases handed
  · exact given

end TorHandler

/-! ## An attempt for worked runs -/

/-- An onion address with the port 8333. -/
def someOnion : SockaddrStorage where
  bytes := [10, 0, 0x20, 0x8d] ++ List.replicate 124 0
  size := by rw [List.length_append, List.length_replicate]; rfl

/-- A socket that can be written to. -/
def Callback.writable (outbox : List WriteResult) : Callback where
  globals := Control.someGlobals
  out := Control.someOutside
  revents := Events.WRITE
  outbox := outbox
  answer := .err .eagain
  soError := (true, none)

/-- A socket that can be read from. -/
def Callback.readable (chunk : Chunk) : Callback where
  globals := Control.someGlobals
  out := Control.someOutside
  revents := Events.READ
  outbox := []
  answer := .data chunk
  soError := (true, none)

/-- An attempt on descriptor 9. -/
def someTor : TorHandler := TorHandler.new 9 someOnion (some (text "expyuzz4wqqyqhjn"))

/-- The method reply of a proxy that asks for no authentication. -/
def noAuthentication : Chunk := ⟨[5, 0], by decide, by decide⟩

/-- The reply of a proxy that is connected, with an IPv4 address. -/
def someReply : Chunk := ⟨[5, 0, 0, 1, 10, 0, 0, 1, 0x20, 0x8d], by decide, by decide⟩

end Coinscope.Attempts

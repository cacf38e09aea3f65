/-
# Attempts.SocksRequests -- what the SOCKS5 client writes

Both send functions of `tor_connect_handler` build their array anew on every call and set
`written_` to zero in front of their loop.  What a call has written is forgotten by the
next one, and the array of `send_connect` is one byte longer than the request.

* `connectBuffer_request` -- the array is the request and one byte of stack.
* `socks_request_one_more` -- so a request that is written at once never ends where it should.
* `Stalls`, `socks_writes_iff` -- the proxy has one copy of everything exactly if no call
  was cut short.
-/
import Coinscope.Attempts.ConnectHandlers

namespace Coinscope.Attempts

open Coinscope.Shared
open Coinscope.Theory.Bytes
open Coinscope.Theory.Runs
open Coinscope.Control (Globals Outside text)

set_option autoImplicit false

/-! ## The request -/

/-- A CONNECT request for a host name and a port in network byte order. -/
def request (host port : List UInt8) : List UInt8 :=
  [5, 1, 0, 3, UInt8.ofNat host.length] ++ host ++ port

/-- The host an onion host name stands for. -/
def onion (hostname : List UInt8) : List UInt8 := hostname ++ text ".onion"

namespace TorHandler

theorem length_connectBuffer (h : TorHandler) (last : UInt8) :
    (h.connectBuffer last).length = 8 + h.host.length := by
  simp [connectBuffer]
  omega

/-- A host name of at most 56 bytes and without a zero is sent whole. -/
theorem host_eq_onion {h : TorHandler} {hostname : List UInt8} (short : hostname.length ≤ 56)
    (clean : (0 : UInt8) ∉ hostname) (printed : h.onionHost = Globals.onionHost hostname) :
    h.host = onion hostname := by
  have suffix : (text ".onion").length = 6 := by decide +kernel
  have all : Globals.onionHost hostname = onion hostname := by
    apply List.take_of_length_le
    rw [List.length_append, suffix]
    omega
  rw [host, printed, all, Control.cString_eq_self_iff, onion, List.mem_append]
  rintro (inside | inside)
  · exact clean inside
  · exact absurd inside (by decide +kernel)

/-- The array of `send_connect` is the request and one more byte. -/
theorem connectBuffer_request {h : TorHandler} (port : h.onionPort = ofBE h.remoteAddr.port)
    (last : UInt8) : h.connectBuffer last = request h.host h.remoteAddr.port ++ [last] := by
  have two : h.remoteAddr.port.length = 2 := slice_length (by rw [h.remoteAddr.size]; decide)
  rw [connectBuffer, port, be_ofBE_two two, request]

/-- Every array that is accepted at once is on the socket. -/
theorem step_complete (cfg : Config) {h : TorHandler} (valid : h.Valid) {c : Callback} {o : Offer}
    (offered : h.offer c = some o) (enough : o.buf.length ≤ accepts c.outbox) :
    (h.step cfg c).state = o.next ∧ (h.step cfg c).sent = h.sent ++ o.buf := by
  have moves := step_moves cfg valid c
  generalize h.step cfg c = h' at moves
  cases moves with
  | idle quiet _ =>
      rw [quiet] at offered
      cases offered
  | complete offered' _ =>
      rw [offered] at offered'
      cases offered'
      exact ⟨rfl, rfl⟩
  | stalled offered' short _ =>
      rw [offered] at offered'
      cases offered'
      omega
  | failed offered' short _ =>
      rw [offered] at offered'
      cases offered'
      omega
  | chosen wanted _ _ =>
      rw [offer_of_wants wanted] at offered
      cases offered
  | connected wanted _ _ =>
      rw [offer_of_wants wanted] at offered
      cases offered
  | rejected wanted _ _ =>
      rw [offer_of_wants wanted] at offered
      cases offered
  | lost wanted _ _ =>
      rw [offer_of_wants wanted] at offered
      cases offered

end TorHandler

open TorHandler

/-- Whatever the host name and the port, and however the attempt came to the request: a
request that is accepted at once has a byte of the stack behind it, which the proxy relays
to the peer in front of everything sent later. -/
theorem socks_request_one_more (cfg : Config) (fd : Nat) (remote : SockaddrStorage)
    (hostname : List UInt8) (short : hostname.length ≤ 56) (clean : (0 : UInt8) ∉ hostname)
    (callbacks : List Callback) (h : TorHandler)
    (reached : h = run (step cfg) (new fd remote (some hostname)) callbacks)
    (state : h.state = .TOR_SEND_CONNECT) (c : Callback) (event : c.revents.write = true)
    (everything : 8 + (onion hostname).length ≤ accepts c.outbox) :
    (h.step cfg c).state = .TOR_RECV_CONNECT ∧
      (h.step cfg c).sent =
        h.sent ++ (request (onion hostname) remote.port ++ [c.out.beyond 0]) ∧
      (h.step cfg c).sent ≠ h.sent ++ request (onion hostname) remote.port ∧
      ∀ later, ((h.step cfg c).sent ++ later).drop
        (h.sent ++ request (onion hostname) remote.port).length = c.out.beyond 0 :: later := by
  have fresh := new_valid fd remote (some hostname)
  have valid : h.Valid := reached ▸ run_valid cfg fresh callbacks
  obtain ⟨address, printed, port⟩ := run_same cfg fresh callbacks
  rw [← reached] at address printed port
  have active : h.io.active = true := by
    cases started : h.io.active with
    | true => rfl
    | false =>
        rw [valid.finished started] at state
        cases state
  have host : h.host = onion hostname := host_eq_onion short clean printed
  have offered : h.offer c = some ⟨h.connectBuffer (c.out.beyond 0), .TOR_RECV_CONNECT, 4⟩ := by
    simp [offer, active, event, state]
  have array : h.connectBuffer (c.out.beyond 0) =
      request (onion hostname) remote.port ++ [c.out.beyond 0] := by
    rw [connectBuffer_request (by rw [port, address]; rfl), host, address]
    rfl
  have enough : (h.connectBuffer (c.out.beyond 0)).length ≤ accepts c.outbox := by
    rw [length_connectBuffer, host]
    exact everything
  obtain ⟨next, sent⟩ := step_complete cfg valid offered enough
  simp only [array] at sent
  refine ⟨next, sent, ?_, ?_⟩
  · rw [sent]
    intro same
    have longer := congrArg List.length same
    simp only [List.length_append, List.length_cons, List.length_nil] at longer
    omega
  · intro later
    rw [sent, ← List.append_assoc, List.append_assoc, List.drop_left]
    rfl

/-- The greeting is written and answered. -/
def someGreeted : TorHandler :=
  run (step Connector.someConfig) someTor
    [.writable [.accept 3], .readable noAuthentication]

theorem socks_request_one_more_onion :
    (someGreeted.step Connector.someConfig (.writable [.accept 100])).state = .TOR_RECV_CONNECT ∧
      (someGreeted.step Connector.someConfig (.writable [.accept 100])).sent = someGreeted.sent ++
        (request (onion (text "expyuzz4wqqyqhjn")) someOnion.port ++ [0]) := by
  obtain ⟨state, sent, -, -⟩ := socks_request_one_more Connector.someConfig 9 someOnion
    (text "expyuzz4wqqyqhjn") (by decide +kernel) (by decide +kernel)
    [.writable [.accept 3], .readable noAuthentication] someGreeted rfl (by decide +kernel)
    (.writable [.accept 100]) rfl (by decide +kernel)
  exact ⟨state, sent⟩

/-- A request of 29 bytes is sent as 30. -/
theorem socks_request_not_exact :
    (request (onion (text "expyuzz4wqqyqhjn")) someOnion.port).length = 29 ∧
      (someGreeted.step Connector.someConfig (.writable [.accept 100])).sent.length =
        someGreeted.sent.length + 30 ∧
      (someGreeted.step Connector.someConfig (.writable [.accept 100])).sent ≠
        someGreeted.sent ++ request (onion (text "expyuzz4wqqyqhjn")) someOnion.port := by
  refine ⟨by decide +kernel, by decide +kernel, by decide +kernel⟩

/-! ## Copies -/

/-- A call is cut short: some bytes are accepted, not all of them, and then `EAGAIN`. -/
def Stalls (size : Nat) (outbox : List WriteResult) : Prop :=
  0 < accepts outbox ∧ accepts outbox < size ∧ refusal outbox = .eagain

instance (size : Nat) (outbox : List WriteResult) : Decidable (Stalls size outbox) :=
  inferInstanceAs (Decidable (_ ∧ _ ∧ _))

namespace TorHandler

/-- What the callback writes, if it writes, is not cut short. -/
def Unbroken (h : TorHandler) (c : Callback) : Prop :=
  ∀ o, h.offer c = some o → ¬ Stalls o.buf.length c.outbox

instance (h : TorHandler) (c : Callback) : Decidable (h.Unbroken c) :=
  inferInstanceAs (Decidable (∀ o ∈ h.offer c, ¬ Stalls o.buf.length c.outbox))

/-- The bytes one copy of everything up to this state has. -/
def due (h : TorHandler) : Option Nat :=
  match h.state with
  | .TOR_SEND_GREETING => some 0
  | .TOR_RECV_GREETING | .TOR_SEND_CONNECT => some greeting.length
  | .TOR_RECV_CONNECT => some (greeting.length + (8 + h.host.length))
  | _ => none

/-- So many bytes were written for nothing; if none, what was written is the beginning of
the greeting and the array behind it. -/
structure Sent (h : TorHandler) (wasted : Nat) : Prop where
  count : ∀ n, h.due = some n → h.sent.length = n + wasted
  initial : wasted = 0 → ∃ last, h.sent <+: greeting ++ h.connectBuffer last

theorem new_sent (fd : Nat) (remote : SockaddrStorage) (hostname : Option (List UInt8)) :
    (new fd remote hostname).Sent 0 where
  count n due := by
    cases due
    rfl
  initial _ := ⟨0, List.nil_prefix⟩

/-- A state has its own copy if nothing was wasted. -/
theorem Sent.eq_take {h : TorHandler} {n : Nat} (sent : h.Sent 0) (due : h.due = some n) :
    ∃ last, h.sent = (greeting ++ h.connectBuffer last).take n := by
  obtain ⟨last, initial⟩ := sent.initial rfl
  have size : h.sent.length = n := sent.count n due
  refine ⟨last, ?_⟩
  rw [← size]
  exact List.prefix_iff_eq_take.1 initial

/-- In a send state what is there and any part of what is offered is the beginning of one
copy of both. -/
theorem Sent.offered {h : TorHandler} {c : Callback} {o : Offer} (sent : h.Sent 0)
    (offered : h.offer c = some o) {part : List UInt8} (initial : part <+: o.buf) :
    ∃ last, h.sent ++ part <+: greeting ++ h.connectBuffer last := by
  obtain ⟨-, -, ⟨state, rfl⟩ | ⟨state, rfl⟩⟩ := offer_cases offered
  · obtain ⟨last, none_⟩ := sent.eq_take (n := 0) (by simp only [due, state])
    rw [List.take_zero] at none_
    rw [none_]
    exact ⟨last, initial.trans (List.prefix_append ..)⟩
  · obtain ⟨last, one⟩ := sent.eq_take (n := greeting.length) (by simp only [due, state])
    rw [List.take_left] at one
    rw [one]
    exact ⟨c.out.beyond 0, List.prefix_append_right_inj _ |>.2 initial⟩

theorem due_finished {h : TorHandler} (state : h.state = .TOR_CONNECT_PROXY) : h.due = none := by
  simp only [due, state]

/-- Behind an attempt that is over only the bytes count. -/
theorem Sent.advance {h : TorHandler} {wasted : Nat}
    (initial : wasted = 0 → ∃ last, h.sent <+: greeting ++ h.connectBuffer last) :
    h.advance.Sent wasted where
  count n due := by
    rw [due_finished rfl] at due
    cases due
  initial := initial

/-- An array that is written whole is one copy more. -/
theorem Sent.complete {h : TorHandler} {c : Callback} {o : Offer} {wasted : Nat}
    (sent : h.Sent wasted) (offered : h.offer c = some o) :
    ((h.wrote o.buf.length o.buf).entered o.next o.expected).Sent wasted := by
  refine ⟨?_, ?_⟩
  · intro n due'
    obtain ⟨-, -, ⟨state, rfl⟩ | ⟨state, rfl⟩⟩ := offer_cases offered
    · cases due'
      have size := sent.count 0 (by simp only [due, state])
      show (h.sent ++ greeting).length = _
      rw [List.length_append, size]
      omega
    · cases due'
      have size := sent.count greeting.length (by simp only [due, state])
      show (h.sent ++ h.connectBuffer (c.out.beyond 0)).length = _
      rw [List.length_append, size, length_connectBuffer]
      show _ = greeting.length + (8 + h.host.length) + wasted
      omega
  · rintro rfl
    exact sent.offered offered (List.prefix_refl _)

/-- The next call starts over, so all that a call that is cut short wrote is wasted. -/
theorem Sent.stalled {h : TorHandler} {c : Callback} {o : Offer} {wasted : Nat}
    (sent : h.Sent wasted) (offered : h.offer c = some o)
    (short : accepts c.outbox < o.buf.length) :
    (h.wrote o.buf.length (o.buf.take (accepts c.outbox))).Sent (wasted + accepts c.outbox) := by
  have size : (o.buf.take (accepts c.outbox)).length = accepts c.outbox := by
    rw [List.length_take]
    omega
  refine ⟨?_, ?_⟩
  · intro n due'
    show (h.sent ++ o.buf.take (accepts c.outbox)).length = _
    rw [List.length_append, size, sent.count n due']
    omega
  · intro none_
    obtain ⟨rfl, zero⟩ : wasted = 0 ∧ accepts c.outbox = 0 := by omega
    rw [zero]
    exact sent.offered offered (List.take_prefix ..)

theorem unbroken_of_quiet {h : TorHandler} {c : Callback} (quiet : h.offer c = none) :
    h.Unbroken c := by
  intro o offered
  rw [quiet] at offered
  cases offered

theorem unbroken_iff {h : TorHandler} {c : Callback} {o : Offer} (offered : h.offer c = some o) :
    h.Unbroken c ↔ ¬ Stalls o.buf.length c.outbox := by
  constructor
  · intro unbroken
    exact unbroken o offered
  · intro whole o' offered'
    rw [offered] at offered'
    cases offered'
    exact whole

/-- One callback wastes what it writes, or nothing; it wastes something exactly if it is
cut short. -/
theorem Moves.sent {c : Callback} {h h' : TorHandler} (moves : Moves c h h') {wasted : Nat}
    (sent : h.Sent wasted) : ∃ d, h'.Sent (wasted + d) ∧ (d = 0 ↔ h.Unbroken c) := by
  have nothing : ∀ k : TorHandler, k.Sent wasted → h.Unbroken c →
      ∃ d, k.Sent (wasted + d) ∧ (d = 0 ↔ h.Unbroken c) :=
    fun k sent' unbroken => ⟨0, sent', fun _ => unbroken, fun _ => rfl⟩
  cases moves with
  | idle quiet _ => exact nothing _ sent (unbroken_of_quiet quiet)
  | complete offered enough =>
      apply nothing _ (sent.complete offered)
      rw [unbroken_iff offered]
      rintro ⟨-, short, -⟩
      omega
  | stalled offered short later =>
      refine ⟨accepts c.outbox, sent.stalled offered short, ?_⟩
      rw [unbroken_iff offered]
      constructor
      · rintro zero ⟨some_, -, -⟩
        omega
      · intro whole
        by_cases zero : accepts c.outbox = 0
        · exact zero
        · exact absurd ⟨by omega, short, later⟩ whole
  | failed offered short fatal =>
      apply nothing
      · apply Sent.advance
        rintro rfl
        exact sent.offered offered (List.take_prefix ..)
      · rw [unbroken_iff offered]
        exact fun stalls => fatal stalls.2.2
  | chosen wanted _ _ =>
      apply nothing
      · refine ⟨?_, sent.initial⟩
        intro n due'
        obtain ⟨-, -, ⟨state, -⟩ | ⟨-, size⟩⟩ := wants_cases wanted
        · cases due'
          exact sent.count greeting.length (by simp only [due, state])
        · cases size
      · exact unbroken_of_quiet (offer_of_wants wanted)
  | connected wanted _ _ =>
      exact nothing _ (.advance sent.initial) (unbroken_of_quiet (offer_of_wants wanted))
  | rejected wanted _ _ =>
      exact nothing _ (.advance sent.initial) (unbroken_of_quiet (offer_of_wants wanted))
  | lost wanted _ _ =>
      exact nothing _ (.advance sent.initial) (unbroken_of_quiet (offer_of_wants wanted))

end TorHandler

/-- Over every run, with every list of answers to every `write`: in TOR_RECV_GREETING the
proxy has one copy of the greeting, and in TOR_RECV_CONNECT one copy of the greeting and one
of the array of `send_connect`, exactly if no call was cut short; and as long as none was, no
byte is sent a second time. -/
theorem socks_writes_iff (cfg : Config) (fd : Nat) (remote : SockaddrStorage)
    (hostname : Option (List UInt8)) (callbacks : List Callback) (h : TorHandler)
    (reached : h = run (step cfg) (new fd remote hostname) callbacks) :
    (h.state = .TOR_RECV_GREETING →
      (h.sent = greeting ↔ Along (step cfg) Unbroken (new fd remote hostname) callbacks)) ∧
    (h.state = .TOR_RECV_CONNECT →
      ((∃ last, h.sent = greeting ++ h.connectBuffer last) ↔
        Along (step cfg) Unbroken (new fd remote hostname) callbacks)) ∧
    (Along (step cfg) Unbroken (new fd remote hostname) callbacks →
      ∃ last, h.sent <+: greeting ++ h.connectBuffer last) := by
  have keep : ∀ (k : TorHandler) (c : Callback) (wasted : Nat), (k.Valid ∧ k.Sent wasted) →
      ∃ d, ((k.step cfg c).Valid ∧ (k.step cfg c).Sent (wasted + d)) ∧
        (d = 0 ↔ k.Unbroken c) := by
    rintro k c wasted ⟨valid, sent⟩
    have moves := step_moves cfg valid c
    obtain ⟨d, sent', unbroken⟩ := moves.sent sent
    exact ⟨d, ⟨moves.valid valid, sent'⟩, unbroken⟩
  obtain ⟨d, ⟨-, sent⟩, unbroken⟩ :=
    run_counts keep ⟨new_valid fd remote hostname, new_sent fd remote hostname⟩ callbacks
  rw [← reached, Nat.zero_add] at sent
  rw [← unbroken]
  refine ⟨?_, ?_, ?_⟩
  · intro state
    have due : h.due = some greeting.length := by simp only [due, state]
    constructor
    · intro one
      have size := sent.count _ due
      rw [one] at size
      omega
    · rintro rfl
      obtain ⟨last, one⟩ := sent.eq_take due
      rw [one, List.take_left]
  · intro state
    have due : h.due = some (greeting.length + (8 + h.host.length)) := by simp only [due, state]
    constructor
    · rintro ⟨last, one⟩
      have size := sent.count _ due
      rw [one, List.length_append, length_connectBuffer] at size
      omega
    · rintro rfl
      obtain ⟨last, one⟩ := sent.eq_take due
      refine ⟨last, ?_⟩
      rw [one, List.take_of_length_le]
      rw [List.length_append, length_connectBuffer]
  · rintro rfl
    exact sent.initial rfl

/-- Short writes and an `EAGAIN` in front of the first byte do no harm. -/
theorem socks_writes_iff_short :
    (run (step Connector.someConfig) someTor
      [.writable [], .writable [.accept 1, .accept 0, .accept 2], .readable noAuthentication,
        .writable [.accept 7, .accept 100]]).state = .TOR_RECV_CONNECT ∧
    ∃ last, (run (step Connector.someConfig) someTor
      [.writable [], .writable [.accept 1, .accept 0, .accept 2], .readable noAuthentication,
        .writable [.accept 7, .accept 100]]).sent = greeting ++ someTor.connectBuffer last := by
  have state : (run (step Connector.someConfig) someTor
      [.writable [], .writable [.accept 1, .accept 0, .accept 2], .readable noAuthentication,
        .writable [.accept 7, .accept 100]]).state = .TOR_RECV_CONNECT := by decide +kernel
  refine ⟨state, ?_⟩
  refine ((socks_writes_iff Connector.someConfig 9 someOnion (some (text "expyuzz4wqqyqhjn")) _ _
    rfl).2.1 state).2 ?_
  exact ⟨by decide +kernel, by decide +kernel, by decide +kernel, by decide +kernel, trivial⟩

/-- One byte, `EAGAIN`, and the next call starts over: 05 05 01 00. -/
theorem socks_greeting_twice :
    (run (step Connector.someConfig) someTor [.writable [.accept 1], .writable [.accept 3]]).state =
        .TOR_RECV_GREETING ∧
      (run (step Connector.someConfig) someTor
        [.writable [.accept 1], .writable [.accept 3]]).sent = [5, 5, 1, 0] := by
  decide +kernel

end Coinscope.Attempts

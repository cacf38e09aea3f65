/-
# Attempts.SocksReplies -- what the SOCKS5 client reads

The proxy answers with two bytes, then with a reply whose length depends on its address
type, and then relays what the peer sends.  `tor_connect_handler` gives each answer one
`read` and looks at two bytes of the array: what `read` did not deliver it takes from the
stack, and what it delivered beyond the reply is gone.

* `ProxyStream` -- what a proxy sends; `Split` -- how `read` cuts it up.
* `Phase`, `Moves.phase` -- where a run over the two stands.
* `socks_replies_iff` -- the splits that do no harm.
-/
import Coinscope.Attempts.ConnectHandlers

namespace Coinscope.Attempts

open Coinscope.Shared
open Coinscope.Theory.Bytes
open Coinscope.Theory.Runs
open Coinscope.Control (Globals Outside peek)

set_option autoImplicit false

/-! ## What the proxy sends -/

/-- The bound address of a reply, by address type. -/
inductive BoundAddr where
  | inet (addr : List UInt8) (size : addr.length = 4)
  | domain (name : List UInt8) (size : name.length < 256)
  | inet6 (addr : List UInt8) (size : addr.length = 16)

namespace BoundAddr

def atyp : BoundAddr → UInt8
  | inet .. => 1
  | domain .. => 3
  | inet6 .. => 4

def bytes : BoundAddr → List UInt8
  | inet addr _ => addr
  | domain name _ => UInt8.ofNat name.length :: name
  | inet6 addr _ => addr

end BoundAddr

/-- A method reply, a connect reply, and the bytes of the peer. -/
structure ProxyStream where
  version : UInt8
  method : UInt8
  code : UInt8
  reserved : UInt8
  bound : BoundAddr
  port : List UInt8
  portSize : port.length = 2
  peer : List UInt8

namespace ProxyStream

/-- The connect reply behind its first two bytes. -/
def tail (p : ProxyStream) : List UInt8 := [p.reserved, p.bound.atyp] ++ p.bound.bytes ++ p.port

/-- The connect reply. -/
def reply (p : ProxyStream) : List UInt8 := 5 :: p.code :: p.tail

/-- All of it. -/
def bytes (p : ProxyStream) : List UInt8 := p.version :: p.method :: (p.reply ++ p.peer)

/-- No authentication, and connected. -/
def Good (p : ProxyStream) : Prop := p.version = 5 ∧ p.method = 0 ∧ p.code = 0

end ProxyStream

/-- How `read` cuts a stream up: the bytes that the n-th call which gets any is given, and
what the stack has behind an array that got a single byte. -/
structure Split where
  count : Nat → Nat
  stack : Nat → UInt8

namespace Split

/-- What the first call takes of a stream. -/
def first (s : Split) (stream : List UInt8) : List UInt8 := (stream.take (s.count 0)).take 2

/-- What the second call takes behind that. -/
def second (s : Split) (stream : List UInt8) : List UInt8 :=
  ((stream.drop (s.first stream).length).take (s.count 1)).take 256

end Split

/-- The array starts with 05 00; a byte that was not read is the stack's. -/
def Yes (bytes : List UInt8) (stack : UInt8) : Prop := bytes.getD 0 0 = 5 ∧ bytes.getD 1 stack = 0

instance (bytes : List UInt8) (stack : UInt8) : Decidable (Yes bytes stack) :=
  inferInstanceAs (Decidable (_ ∧ _))

/-! ## A run over a stream -/

namespace TorHandler

/-- The connection to the proxy stays up, and `read` delivers the stream as the split has it. -/
structure Served (stream : List UInt8) (s : Split) (h : TorHandler) (c : Callback) : Prop where
  reads : c.answer = .err .eagain ∨ ∃ chunk, c.answer = .data chunk ∧
    chunk.bytes = (stream.drop h.taken.length).take (s.count h.reads) ∧
    c.out.beyond 0 = s.stack h.reads
  writes : refusal c.outbox = .eagain

theorem granted_iff {c : Callback} {bytes : List UInt8} (some_ : bytes ≠ []) :
    Granted c bytes ↔ Yes bytes (c.out.beyond 0) := by
  match bytes, some_ with
  | [a], _ => exact Iff.rfl
  | a :: b :: rest, _ =>
      simp [Granted, Yes, peek]

/-- Where a run over a stream stands. -/
inductive Phase (stream : List UInt8) (s : Split) (h : TorHandler) : Prop where
  | greeting (state : h.state = .TOR_SEND_GREETING ∨ h.state = .TOR_RECV_GREETING)
      (reads : h.reads = 0) (taken : h.taken = []) (kept : h.handedOver = false)
  | connecting (state : h.state = .TOR_SEND_CONNECT ∨ h.state = .TOR_RECV_CONNECT)
      (reads : h.reads = 1) (taken : h.taken = s.first stream) (some_ : s.first stream ≠ [])
      (yes : Yes (s.first stream) (s.stack 0)) (kept : h.handedOver = false)
  | refused (state : h.state = .TOR_CONNECT_PROXY) (some_ : s.first stream ≠ [])
      (no : ¬ Yes (s.first stream) (s.stack 0)) (kept : h.handedOver = false)
  | answered (state : h.state = .TOR_CONNECT_PROXY) (some_ : s.first stream ≠ [])
      (yes : Yes (s.first stream) (s.stack 0)) (more : s.second stream ≠ [])
      (taken : h.taken = s.first stream ++ s.second stream)
      (handed : h.handedOver = true ↔ Yes (s.second stream) (s.stack 1))

theorem take_chunk_ne_nil (chunk : Chunk) {size : Nat} (pos : 0 < size) :
    chunk.bytes.take size ≠ [] := by
  have := chunk.nonempty
  intro none_
  have zero := congrArg List.length none_
  rw [List.length_take, List.length_nil] at zero
  omega

theorem Served.delivered {stream : List UInt8} {s : Split} {h : TorHandler} {c : Callback}
    (served : Served stream s h c) {chunk : Chunk} (data : c.answer = .data chunk) :
    chunk.bytes = (stream.drop h.taken.length).take (s.count h.reads) ∧
      c.out.beyond 0 = s.stack h.reads := by
  rcases served.reads with nothing | ⟨chunk', data', delivered⟩
  · rw [data] at nothing
    cases nothing
  · rw [data] at data'
    cases data'
    exact delivered

section Phases

variable {stream : List UInt8} {s : Split} {h : TorHandler} {c : Callback}
  (phase : Phase stream s h)

include phase

/-- Up to the first answer nothing has been read. -/
theorem Phase.at_greeting (state : h.state = .TOR_SEND_GREETING ∨ h.state = .TOR_RECV_GREETING) :
    h.reads = 0 ∧ h.taken = [] ∧ h.handedOver = false := by
  cases phase with
  | greeting _ reads taken kept => exact ⟨reads, taken, kept⟩
  | connecting other =>
      rcases state with is | is <;> rw [is] at other <;> simp at other
  | refused other =>
      rw [other] at state
      simp at state
  | answered other =>
      rw [other] at state
      simp at state

/-- Up to the second one the first has been read and said yes. -/
theorem Phase.at_connect (state : h.state = .TOR_SEND_CONNECT ∨ h.state = .TOR_RECV_CONNECT) :
    h.reads = 1 ∧ h.taken = s.first stream ∧ s.first stream ≠ [] ∧
      Yes (s.first stream) (s.stack 0) ∧ h.handedOver = false := by
  cases phase with
  | greeting other =>
      rcases state with is | is <;> rw [is] at other <;> simp at other
  | connecting _ reads taken some_ yes kept => exact ⟨reads, taken, some_, yes, kept⟩
  | refused other =>
      rw [other] at state
      simp at state
  | answered other =>
      rw [other] at state
      simp at state

/-- A call in TOR_RECV_GREETING that gets bytes gets the first ones. -/
theorem Phase.reads_first (served : Served stream s h c) (state : h.state = .TOR_RECV_GREETING)
    {chunk : Chunk} (data : c.answer = .data chunk) :
    chunk.bytes.take 2 = s.first stream ∧ s.first stream ≠ [] ∧
      (Granted c (chunk.bytes.take 2) ↔ Yes (s.first stream) (s.stack 0)) := by
  obtain ⟨reads, taken, -⟩ := phase.at_greeting (Or.inr state)
  obtain ⟨bytes, stack⟩ := served.delivered data
  rw [reads] at bytes stack
  rw [taken, List.length_nil, List.drop_zero] at bytes
  have taken' : chunk.bytes.take 2 = s.first stream := by rw [bytes]; rfl
  have some_ : chunk.bytes.take 2 ≠ [] := take_chunk_ne_nil chunk (by decide)
  rw [granted_iff some_, stack, taken']
  exact ⟨rfl, taken' ▸ some_, Iff.rfl⟩

/-- A call in TOR_RECV_CONNECT that gets bytes gets those behind them. -/
theorem Phase.reads_second (served : Served stream s h c) (state : h.state = .TOR_RECV_CONNECT)
    {chunk : Chunk} (data : c.answer = .data chunk) :
    chunk.bytes.take 256 = s.second stream ∧ s.second stream ≠ [] ∧
      (Granted c (chunk.bytes.take 256) ↔ Yes (s.second stream) (s.stack 1)) := by
  obtain ⟨reads, taken, -⟩ := phase.at_connect (Or.inr state)
  obtain ⟨bytes, stack⟩ := served.delivered data
  rw [reads] at bytes stack
  rw [taken] at bytes
  have taken' : chunk.bytes.take 256 = s.second stream := by rw [bytes]; rfl
  have more : chunk.bytes.take 256 ≠ [] := take_chunk_ne_nil chunk (by decide)
  rw [granted_iff more, stack, taken']
  exact ⟨rfl, taken' ▸ more, Iff.rfl⟩

/-- An array that is written. -/
theorem Phase.entered {o : Offer} (offered : h.offer c = some o) {put : List UInt8} :
    Phase stream s ((h.wrote o.buf.length put).entered o.next o.expected) := by
  obtain ⟨-, -, ⟨state, rfl⟩ | ⟨state, rfl⟩⟩ := offer_cases offered
  · obtain ⟨reads, taken, kept⟩ := phase.at_greeting (Or.inl state)
    exact .greeting (Or.inr rfl) reads taken kept
  · obtain ⟨reads, taken, some_, yes, kept⟩ := phase.at_connect (Or.inl state)
    exact .connecting (Or.inr rfl) reads taken some_ yes kept

end Phases

theorem Phase.wrote {stream : List UInt8} {s : Split} {h : TorHandler} (phase : Phase stream s h)
    (size : Nat) (put : List UInt8) : Phase stream s (h.wrote size put) := by
  cases phase with
  | greeting state reads taken kept => exact .greeting state reads taken kept
  | connecting state reads taken some_ yes kept =>
      exact .connecting state reads taken some_ yes kept
  | refused state some_ no kept => exact .refused state some_ no kept
  | answered state some_ yes more taken handed =>
      exact .answered state some_ yes more taken handed

/-- One callback over the stream. -/
theorem Moves.phase {stream : List UInt8} {s : Split} {c : Callback} {h h' : TorHandler}
    (moves : Moves c h h') (served : Served stream s h c) (phase : Phase stream s h) :
    Phase stream s h' := by
  cases moves with
  | idle => exact phase
  | complete offered _ => exact phase.entered offered
  | stalled => exact phase.wrote _ _
  | failed _ _ fatal => exact absurd served.writes fatal
  | chosen wanted data granted =>
      obtain ⟨-, -, ⟨state, -⟩ | ⟨-, size⟩⟩ := wants_cases wanted
      · obtain ⟨reads, taken, kept⟩ := phase.at_greeting (Or.inr state)
        obtain ⟨first, some_, yes⟩ := phase.reads_first served state data
        refine .connecting (Or.inl rfl) ?_ ?_ some_ (yes.1 granted) kept
        · show h.reads + 1 = 1
          rw [reads]
        · show h.taken ++ _ = _
          rw [taken, first, List.nil_append]
      · cases size
  | connected wanted data granted =>
      obtain ⟨-, -, ⟨-, size⟩ | ⟨state, -⟩⟩ := wants_cases wanted
      · cases size
      · obtain ⟨-, taken, some_, yes, -⟩ := phase.at_connect (Or.inr state)
        obtain ⟨second, more, yes'⟩ := phase.reads_second served state data
        refine .answered rfl some_ yes more ?_ ⟨fun _ => yes'.1 granted, fun _ => rfl⟩
        show h.taken ++ _ = _
        rw [taken, second]
  | rejected wanted data no =>
      obtain ⟨-, -, ⟨state, rfl⟩ | ⟨state, rfl⟩⟩ := wants_cases wanted
      · obtain ⟨-, -, kept⟩ := phase.at_greeting (Or.inr state)
        obtain ⟨-, some_, yes⟩ := phase.reads_first served state data
        exact .refused rfl some_ (fun is => no (yes.2 is)) kept
      · obtain ⟨-, taken, some_, yes, kept⟩ := phase.at_connect (Or.inr state)
        obtain ⟨second, more, yes'⟩ := phase.reads_second served state data
        refine .answered rfl some_ yes more ?_ ⟨fun handed => ?_, fun is => absurd (yes'.2 is) no⟩
        · show h.taken ++ _ = _
          rw [taken, second]
        · have none_ : h.handedOver = true := handed
          rw [kept] at none_
          cases none_
  | lost _ none_ gone =>
      rcases served.reads with nothing | ⟨chunk, data, -⟩
      · exact absurd nothing gone
      · exact absurd data (none_ chunk)

theorem run_phase (cfg : Config) (fd : Nat) (remote : SockaddrStorage)
    (hostname : Option (List UInt8)) {stream : List UInt8} {s : Split} {callbacks : List Callback}
    (served : Along (step cfg) (Served stream s) (new fd remote hostname) callbacks) :
    Phase stream s (run (step cfg) (new fd remote hostname) callbacks) := by
  have both : ∀ (k : TorHandler) (c : Callback), (k.Valid ∧ Phase stream s k) →
      Served stream s k c → (k.step cfg c).Valid ∧ Phase stream s (k.step cfg c) := by
    rintro k c ⟨valid, phase⟩ here
    have moves := step_moves cfg valid c
    exact ⟨moves.valid valid, moves.phase here phase⟩
  exact (run_invariant both ⟨new_valid fd remote hostname,
    .greeting (Or.inl rfl) rfl rfl rfl⟩ served).2

end TorHandler

/-! ## Splits that do no harm -/

/-- The socket is handed over exactly if both replies say so, and what is left to read then
is what the peer sends. -/
def Parsed (p : ProxyStream) (h : TorHandler) : Prop :=
  (h.handedOver = true ↔ p.Good) ∧ (h.handedOver = true → p.bytes.drop h.taken.length = p.peer)

/-- For two good replies the calls get exactly the two replies.  For a connect reply that
says no, or a method reply 05 05, the stack does not make up a zero behind a single byte. -/
structure Harmless (p : ProxyStream) (s : Split) : Prop where
  good : p.Good → 2 ≤ s.count 0 ∧
    min (min (s.count 1) 256) (p.reply.length + p.peer.length) = p.reply.length
  code : p.version = 5 → p.method = 0 → p.code ≠ 0 → 2 ≤ s.count 0 → s.count 1 = 1 →
    s.stack 1 ≠ 0
  method : p.version = 5 → p.method = 5 → s.count 0 = 1 → s.stack 0 = 0 → s.count 1 = 1 →
    s.stack 1 ≠ 0

section Splits

variable (p : ProxyStream) (s : Split)

theorem length_reply_pos : 2 ≤ p.reply.length := by
  simp [ProxyStream.reply]

theorem first_one (one : s.count 0 = 1) : s.first p.bytes = [p.version] := by
  rw [Split.first, one]
  rfl

theorem first_two (two : 2 ≤ s.count 0) : s.first p.bytes = [p.version, p.method] := by
  rw [Split.first, List.take_take, Nat.min_eq_left two]
  rfl

theorem first_cases (some_ : s.first p.bytes ≠ []) : s.count 0 = 1 ∨ 2 ≤ s.count 0 := by
  by_cases zero : s.count 0 = 0
  · rw [Split.first, zero] at some_
    exact absurd rfl some_
  · omega

theorem second_cases (more : s.second p.bytes ≠ []) : s.count 1 = 1 ∨ 2 ≤ s.count 1 := by
  by_cases zero : s.count 1 = 0
  · rw [Split.second, zero] at more
    exact absurd rfl more
  · omega

/-- Behind one byte of the method reply: its other byte and the version of the reply are
taken for the head of the reply. -/
theorem yes_second_one (one : s.count 0 = 1) (more : s.second p.bytes ≠ []) :
    Yes (s.second p.bytes) (s.stack 1) ↔ p.method = 5 ∧ s.count 1 = 1 ∧ s.stack 1 = 0 := by
  have here : s.second p.bytes = ((p.method :: (p.reply ++ p.peer)).take (s.count 1)).take 256 := by
    rw [Split.second, first_one p s one]
    rfl
  rw [here]
  rcases second_cases p s more with single | several
  · rw [single]
    simp [Yes]
  · obtain ⟨n, count⟩ := Nat.exists_eq_add_of_le several
    rw [count, Nat.add_comm]
    simp [Yes, ProxyStream.reply]

/-- Behind both: the head of the reply, or its first byte and the stack. -/
theorem yes_second_two (two : 2 ≤ s.count 0) (more : s.second p.bytes ≠ []) :
    (s.second p.bytes).length = min (min (s.count 1) 256) (p.reply.length + p.peer.length) ∧
      (Yes (s.second p.bytes) (s.stack 1) ↔
        (s.count 1 = 1 ∧ s.stack 1 = 0) ∨ (2 ≤ s.count 1 ∧ p.code = 0)) := by
  have here : s.second p.bytes = ((p.reply ++ p.peer).take (s.count 1)).take 256 := by
    rw [Split.second, first_two p s two]
    rfl
  rw [here]
  constructor
  · rw [List.length_take, List.length_take, List.length_append]
    omega
  · rcases second_cases p s more with single | several
    · rw [single]
      simp [Yes, ProxyStream.reply]
    · obtain ⟨n, count⟩ := Nat.exists_eq_add_of_le several
      rw [count, Nat.add_comm]
      simp [Yes, ProxyStream.reply]

/-- What is left behind both replies is what the peer sends. -/
theorem drop_eq_peer_iff (n : Nat) (inside : n ≤ p.reply.length + p.peer.length) :
    p.bytes.drop (2 + n) = p.peer ↔ n = p.reply.length := by
  have here : p.bytes.drop (2 + n) = (p.reply ++ p.peer).drop n := by
    rw [Nat.add_comm]
    rfl
  rw [here]
  constructor
  · intro same
    have size := congrArg List.length same
    rw [List.length_drop, List.length_append] at size
    omega
  · rintro rfl
    exact List.drop_left

end Splits

namespace TorHandler

/-- Where nothing was handed over nothing should have been. -/
theorem parsed_of_kept {p : ProxyStream} {h : TorHandler} (kept : h.handedOver = false) :
    Parsed p h ↔ ¬ p.Good := by
  unfold Parsed
  rw [kept]
  simp

/-- A method reply that was refused. -/
theorem refused_iff {p : ProxyStream} {s : Split} {h : TorHandler} (some_ : s.first p.bytes ≠ [])
    (no : ¬ Yes (s.first p.bytes) (s.stack 0)) (kept : h.handedOver = false) :
    Parsed p h ↔ Harmless p s := by
  rw [parsed_of_kept kept]
  rcases first_cases p s some_ with one | two
  · rw [first_one p s one] at no
    constructor
    · intro bad
      refine ⟨fun good => absurd good bad, fun _ _ _ two => ?_, fun version _ _ zero => ?_⟩
      · omega
      · exact absurd ⟨version, zero⟩ no
    · intro harmless good
      have := (harmless.good good).1
      omega
  · rw [first_two p s two] at no
    have bad : ¬ p.Good := fun good => no ⟨good.1, good.2.1⟩
    refine ⟨fun _ => ⟨fun good => absurd good bad, fun version method => ?_, fun _ _ one => ?_⟩,
      fun _ => bad⟩
    · exact absurd ⟨version, method⟩ no
    · omega

/-- Half of a method reply that the stack made a yes. -/
theorem answered_half_iff {p : ProxyStream} {s : Split} {h : TorHandler} (one : s.count 0 = 1)
    (yes : Yes (s.first p.bytes) (s.stack 0)) (more : s.second p.bytes ≠ [])
    (handed : h.handedOver = true ↔ Yes (s.second p.bytes) (s.stack 1)) :
    Parsed p h ↔ Harmless p s := by
  rw [first_one p s one] at yes
  rw [yes_second_one p s one more] at handed
  -- the second call starts at the second byte of the method reply
  by_cases given : p.method = 5 ∧ s.count 1 = 1 ∧ s.stack 1 = 0
  · obtain ⟨method, single, zero⟩ := given
    constructor
    · intro parsed
      have good : p.Good := parsed.1.1 (handed.2 ⟨method, single, zero⟩)
      rw [good.2.1] at method
      exact absurd method (by decide)
    · intro harmless
      exact absurd zero (harmless.method yes.1 method one yes.2 single)
  · have kept : h.handedOver = false := by
      rw [← Bool.not_eq_true, handed]
      exact given
    rw [parsed_of_kept kept]
    constructor
    · intro bad
      refine ⟨fun good => absurd good bad, fun _ _ _ two => ?_, fun _ method _ _ single => ?_⟩
      · omega
      · exact fun zero => given ⟨method, single, zero⟩
    · intro harmless good
      have := (harmless.good good).1
      omega

/-- A method reply that was read whole and said yes. -/
theorem answered_whole_iff {p : ProxyStream} {s : Split} {h : TorHandler} (two : 2 ≤ s.count 0)
    (yes : Yes (s.first p.bytes) (s.stack 0)) (more : s.second p.bytes ≠ [])
    (taken : h.taken = s.first p.bytes ++ s.second p.bytes)
    (handed : h.handedOver = true ↔ Yes (s.second p.bytes) (s.stack 1)) :
    Parsed p h ↔ Harmless p s := by
  obtain ⟨size, yes'⟩ := yes_second_two p s two more
  rw [first_two p s two] at yes taken
  rw [yes'] at handed
  obtain ⟨version, method⟩ : p.version = 5 ∧ p.method = 0 := yes
  have long := length_reply_pos p
  by_cases code : p.code = 0
  · have good : p.Good := ⟨version, method, code⟩
    have left : p.bytes.drop h.taken.length = p.peer ↔
        min (min (s.count 1) 256) (p.reply.length + p.peer.length) = p.reply.length := by
      rw [taken, List.length_append, size]
      exact drop_eq_peer_iff p _ (Nat.min_le_right ..)
    constructor
    · intro parsed
      have rest := left.1 (parsed.2 (parsed.1.2 good))
      refine ⟨fun _ => ⟨two, rest⟩, fun _ _ no => absurd code no, fun _ five => ?_⟩
      rw [method] at five
      exact absurd five (by decide)
    · intro harmless
      have rest := (harmless.good good).2
      have there : h.handedOver = true := handed.2 (Or.inr ⟨by omega, code⟩)
      exact ⟨⟨fun _ => good, fun _ => there⟩, fun _ => left.2 rest⟩
  · have bad : ¬ p.Good := fun good => code good.2.2
    constructor
    · intro parsed
      refine ⟨fun good => absurd good bad, fun _ _ _ _ single zero => ?_, fun _ _ one => ?_⟩
      · exact bad (parsed.1.1 (handed.2 (Or.inl ⟨single, zero⟩)))
      · omega
    · intro harmless
      have kept : h.handedOver = false := by
        rw [← Bool.not_eq_true, handed]
        rintro (⟨single, zero⟩ | ⟨-, is⟩)
        · exact harmless.code version method code two single zero
        · exact code is
      exact (parsed_of_kept kept).2 bad

theorem Phase.parsed_iff {p : ProxyStream} {s : Split} {h : TorHandler}
    (phase : Phase p.bytes s h) (state : h.state = .TOR_CONNECT_PROXY) :
    Parsed p h ↔ Harmless p s := by
  cases phase with
  | greeting other =>
      rw [state] at other
      simp at other
  | connecting other =>
      rw [state] at other
      simp at other
  | refused _ some_ no kept => exact refused_iff some_ no kept
  | answered _ some_ yes more taken handed =>
      rcases first_cases p s some_ with one | two
      · exact answered_half_iff one yes more handed
      · exact answered_whole_iff two yes more taken handed

/-! ## Runs come to an end -/

/-- How many of the four working states are left. -/
def rank (h : TorHandler) : Nat :=
  match h.state with
  | .TOR_SEND_GREETING => 4
  | .TOR_RECV_GREETING => 3
  | .TOR_SEND_CONNECT => 2
  | .TOR_RECV_CONNECT => 1
  | _ => 0

/-- The callback writes all it has to write, or reads something. -/
def fruitful (h : TorHandler) (c : Callback) : Bool :=
  match h.offer c, h.wants c, c.answer with
  | some o, _, _ => decide (o.buf.length ≤ accepts c.outbox)
  | none, some _, .data _ => true
  | _, _, _ => false

theorem rank_of_offer {h : TorHandler} {c : Callback} {o : Offer} (offered : h.offer c = some o)
    (h' : TorHandler) (next : h'.state = o.next) : h'.rank < h.rank := by
  obtain ⟨-, -, ⟨state, rfl⟩ | ⟨state, rfl⟩⟩ := offer_cases offered
  · simp [rank, state, next]
  · simp [rank, state, next]

theorem rank_of_wants {h : TorHandler} {c : Callback} {size : Nat} (wanted : h.wants c = some size) :
    0 < h.rank ∧ (size = 2 → 2 < h.rank) := by
  obtain ⟨-, -, ⟨state, rfl⟩ | ⟨state, rfl⟩⟩ := wants_cases wanted
  · simp [rank, state]
  · simp [rank, state]

/-- A fruitful callback leaves a state for good, and no callback returns to one. -/
theorem Moves.rank {c : Callback} {h h' : TorHandler} (moves : Moves c h h') :
    h'.rank ≤ h.rank ∧ (h.fruitful c = true → h'.rank < h.rank) := by
  have strictly : ∀ k : TorHandler, k.rank < h.rank →
      k.rank ≤ h.rank ∧ (h.fruitful c = true → k.rank < h.rank) :=
    fun k lower => ⟨Nat.le_of_lt lower, fun _ => lower⟩
  cases moves with
  | idle quiet deaf =>
      refine ⟨Nat.le_refl _, fun fruitful_ => ?_⟩
      cases answer : c.answer with
      | data chunk => simp [fruitful, quiet, deaf chunk answer] at fruitful_
      | eof => simp [fruitful, quiet, answer] at fruitful_
      | err e => simp [fruitful, quiet, answer] at fruitful_
  | complete offered _ => exact strictly _ (rank_of_offer offered _ rfl)
  | stalled offered short _ =>
      refine ⟨Nat.le_refl _, fun fruitful_ => ?_⟩
      simp only [fruitful, offered, decide_eq_true_eq] at fruitful_
      omega
  | failed offered short _ =>
      refine ⟨Nat.zero_le _, fun fruitful_ => ?_⟩
      simp only [fruitful, offered, decide_eq_true_eq] at fruitful_
      omega
  | chosen wanted _ _ => exact strictly _ ((rank_of_wants wanted).2 rfl)
  | connected wanted _ _ => exact strictly _ (rank_of_wants wanted).1
  | rejected wanted _ _ => exact strictly _ (rank_of_wants wanted).1
  | lost wanted _ _ => exact strictly _ (rank_of_wants wanted).1

/-- Four fruitful callbacks end an attempt. -/
theorem run_finished (cfg : Config) {h : TorHandler} (valid : h.Valid) {callbacks : List Callback}
    (four : 4 ≤ tally (step cfg) fruitful h callbacks) :
    (run (step cfg) h callbacks).io.active = false := by
  have start : h.rank ≤ 4 := by
    unfold rank
    split <;> omega
  have keep : ∀ (k : TorHandler) (c : Callback), k.Valid → (k.step cfg c).Valid :=
    fun k c here => (step_moves cfg here c).valid here
  have down : ∀ (k : TorHandler) (c : Callback), k.Valid → (k.step cfg c).rank ≤ k.rank :=
    fun k c here => (step_moves cfg here c).rank.1
  have strictly : ∀ (k : TorHandler) (c : Callback), k.Valid → k.fruitful c = true →
      (k.step cfg c).rank < k.rank :=
    fun k c here => (step_moves cfg here c).rank.2
  have spent := run_ranked keep down strictly valid callbacks
  have zero : (run (step cfg) h callbacks).rank = 0 := by omega
  cases active : (run (step cfg) h callbacks).io.active with
  | false => rfl
  | true =>
      rcases (run_valid cfg valid callbacks).working active with is | is | is | is
      · simp [rank, is] at zero
      · simp [rank, is] at zero
      · simp [rank, is] at zero
      · simp [rank, is] at zero

end TorHandler

open TorHandler

/-- For every stream of a proxy, every way `read` cuts it up and every run over it: four
callbacks that write or read something end the run, and at its end the socket is with a new
handler exactly if both replies are good, with exactly the bytes of the peer left to read,
exactly if the split is harmless. -/
theorem socks_replies_iff (cfg : Config) (fd : Nat) (remote : SockaddrStorage)
    (hostname : Option (List UInt8)) (p : ProxyStream) (s : Split) (callbacks : List Callback)
    (h : TorHandler) (reached : h = run (step cfg) (new fd remote hostname) callbacks)
    (served : Along (step cfg) (Served p.bytes s) (new fd remote hostname) callbacks) :
    (4 ≤ tally (step cfg) fruitful (new fd remote hostname) callbacks → h.io.active = false) ∧
      (h.io.active = false → (Parsed p h ↔ Harmless p s)) := by
  have fresh := new_valid fd remote hostname
  subst reached
  refine ⟨fun four => run_finished cfg fresh four, fun finished => ?_⟩
  have state := (run_valid cfg fresh callbacks).finished finished
  exact (run_phase cfg fd remote hostname served).parsed_iff state

/-- A proxy that connects, and a peer that sends one byte. -/
def someProxy : ProxyStream where
  version := 5
  method := 0
  code := 0
  reserved := 0
  bound := .inet [10, 0, 0, 1] rfl
  port := [0x20, 0x8d]
  portSize := rfl
  peer := [0xf9]

/-- The connect reply and the byte behind it. -/
def someReplyAndMore : Chunk :=
  ⟨[5, 0, 0, 1, 10, 0, 0, 1, 0x20, 0x8d, 0xf9], by decide, by decide⟩

/-- A handshake that ends with this chunk. -/
def someHandshake (last : Chunk) : List Callback :=
  [.writable [.accept 3], .readable noAuthentication, .writable [.accept 100], .readable last]

/-- Two bytes, and then at most so many. -/
def someSplit (n : Nat) : Split := ⟨fun i => if i = 0 then 2 else n, fun _ => 0⟩

theorem socks_replies_iff_alone :
    Parsed someProxy (run (step Connector.someConfig) someTor (someHandshake someReply)) := by
  have served : Along (step Connector.someConfig) (Served someProxy.bytes (someSplit 10)) someTor
      (someHandshake someReply) := by
    refine ⟨⟨Or.inl rfl, rfl⟩, ⟨Or.inr ⟨_, rfl, by decide +kernel, rfl⟩, rfl⟩,
      ⟨Or.inl rfl, rfl⟩, ⟨Or.inr ⟨_, rfl, by decide +kernel, rfl⟩, rfl⟩, trivial⟩
  obtain ⟨ends, parsed⟩ := socks_replies_iff Connector.someConfig 9 someOnion _ someProxy
    (someSplit 10) (someHandshake someReply) _ rfl served
  refine (parsed (ends (by decide +kernel))).2 ⟨fun _ => ⟨?_, ?_⟩, fun _ _ no => ?_, fun _ five => ?_⟩
  · decide
  · decide +kernel
  · exact absurd rfl no
  · exact absurd five (by decide)

/-- One `read` that gets the reply and the first byte of the peer: the socket is handed over
and that byte is gone. -/
theorem socks_reply_swallows_peer :
    Along (step Connector.someConfig) (Served someProxy.bytes (someSplit 11)) someTor
        (someHandshake someReplyAndMore) ∧
      (run (step Connector.someConfig) someTor (someHandshake someReplyAndMore)).handedOver = true ∧
      someProxy.peer = [0xf9] ∧
      someProxy.bytes.drop (run (step Connector.someConfig) someTor
        (someHandshake someReplyAndMore)).taken.length = [] ∧
      ¬ Parsed someProxy (run (step Connector.someConfig) someTor
        (someHandshake someReplyAndMore)) := by
  have handed : (run (step Connector.someConfig) someTor
      (someHandshake someReplyAndMore)).handedOver = true := by decide +kernel
  have left : someProxy.bytes.drop (run (step Connector.someConfig) someTor
      (someHandshake someReplyAndMore)).taken.length = [] := by decide +kernel
  refine ⟨?_, handed, rfl, left, fun parsed => ?_⟩
  · refine ⟨⟨Or.inl rfl, rfl⟩, ⟨Or.inr ⟨_, rfl, by decide +kernel, rfl⟩, rfl⟩,
      ⟨Or.inl rfl, rfl⟩, ⟨Or.inr ⟨_, rfl, by decide +kernel, rfl⟩, rfl⟩, trivial⟩
  · have rest := parsed.2 handed
    rw [left] at rest
    cases rest

end Coinscope.Attempts

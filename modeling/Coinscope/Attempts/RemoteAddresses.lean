/-
# Attempts.RemoteAddresses -- the address of a CONNECT in the table of connections

An address comes in as a `wire_addr`, is kept as a `sockaddr_storage` by the attempt and by
the handler it ends in, and goes out as a `wire_addr` again when COMMAND_GET_CXN asks for
the table.

* `record`, `record_infix` -- the table, one record a handler.
* `Succeeds` -- the three ways an attempt ends in a handler.
* `connect_record_iff` -- which addresses come back as they went in.
-/
import Coinscope.Attempts.ConnectHandlers
import Coinscope.Connector.Endpoints

namespace Coinscope.Attempts

open Coinscope.Shared
open Coinscope.Theory
open Coinscope.Theory.Bytes
open Coinscope.Theory.Runs
open Coinscope.Control
open Coinscope.Connector (Peer PeerEvent)
open Std (TreeMap)

set_option autoImplicit false

/-! ## Records -/

/-- The record COMMAND_GET_CXN has for an id. -/
def record (g : Globals) (id : UInt32) : Option (List UInt8) :=
  (g.activeHandlers[id]?).map fun h => connectionInfo id h.remoteAddr h.localAddr

/-- The table is its length and the records in the order of the ids. -/
theorem connections_records (g : Globals) :
    g.connections = be 4 (42 * g.activeHandlers.size) ++
      g.activeHandlers.keys.flatMap fun id => (record g id).getD [] := by
  rw [Globals.connections, ← TreeMap.map_fst_toList_eq_keys, List.flatMap_map]
  congr 1
  apply List.flatMap_congr
  rintro ⟨id, h⟩ member
  rw [record, TreeMap.mem_toList_iff_getElem?_eq_some.1 member]
  rfl

/-- The record of a handler is a stretch of the table. -/
theorem record_infix {g : Globals} {id : UInt32} {bytes : List UInt8}
    (there : record g id = some bytes) : bytes <:+: g.connections := by
  have member : id ∈ g.activeHandlers.keys := by
    obtain ⟨h, found, -⟩ := Option.map_eq_some_iff.1 there
    rw [TreeMap.mem_keys, ← TreeMap.isSome_getElem?_iff_mem, found]
    rfl
  obtain ⟨front, behind, keys⟩ := List.append_of_mem member
  rw [connections_records, keys, List.flatMap_append, List.flatMap_cons, there, Option.getD_some,
    ← List.append_assoc]
  exact List.infix_append' ..

/-- Behind the id a record has the remote address. -/
theorem remote_connectionInfo (id : UInt32) (remote localAddr : SockaddrStorage) :
    slice 4 19 (connectionInfo id remote localAddr) = (sockaddrToWire remote).bytes :=
  slice_here (length_be ..) (WireAddr.length_bytes _)

theorem WireAddr.bytes_inj {a b : WireAddr} : a.bytes = b.bytes ↔ a = b := by
  constructor
  · intro same
    rw [WireAddr.bytes, WireAddr.bytes] at same
    injection same with family rest
    obtain ⟨addr, port⟩ := List.append_inj rest (by rw [a.addrSize, b.addrSize])
    exact WireAddr.ext family addr port
  · rintro rfl
    rfl

/-! ## Attempts that succeed -/

/-- The address an attempt is for. -/
def remoteOf : Started → SockaddrStorage
  | .direct remote => remote
  | .tor remote _ => remote

/-- An attempt that is begun in `g` ends in a handler: its id, and the variables of the process
at that time.  An id that is taken still ends the new handler at once. -/
inductive Succeeds (cfg : Config) (out : Outside) (g : Globals) : Started → Globals → UInt32 → Prop where
  | instant (fd : Nat) {remote : SockaddrStorage} (socket : out.socket = .ok fd)
      (allowed : g.blacklist remote = false) (connected : out.connect = none)
      (fresh : g.idPool ∉ g.activeHandlers) :
      Succeeds cfg out g (.direct remote) (Globals.begin cfg out g (.direct remote)) g.idPool
  | direct (fd : Nat) {remote : SockaddrStorage}
      (waits : (Globals.begin cfg out g (.direct remote)).attempts =
        g.attempts ++ [.direct fd remote])
      (callbacks : List Callback) (c : Callback)
      (waiting : (run (ConnectHandler.step cfg) (.new fd remote) callbacks).io.active = true)
      (connected : c.out.connect = none) (fresh : c.globals.idPool ∉ c.globals.activeHandlers) :
      Succeeds cfg out g (.direct remote)
        ((run (ConnectHandler.step cfg) (.new fd remote) callbacks).ioCb cfg c).1 c.globals.idPool
  | tor (fd : Nat) {remote : SockaddrStorage} {hostname : Option (List UInt8)}
      (waits : (Globals.begin cfg out g (.tor remote hostname)).attempts =
        g.attempts ++ [.tor fd remote (torHost remote hostname)])
      (callbacks : List Callback) (c : Callback)
      (waiting : (run (TorHandler.step cfg) (.new fd remote hostname) callbacks).handedOver = false)
      (handed : ((run (TorHandler.step cfg) (.new fd remote hostname) callbacks).ioCb cfg
        c).2.handedOver = true)
      (fresh : c.globals.idPool ∉ c.globals.activeHandlers) :
      Succeeds cfg out g (.tor remote hostname)
        ((run (TorHandler.step cfg) (.new fd remote hostname) callbacks).ioCb cfg c).1
        c.globals.idPool

theorem setupHandler_remote (cfg : Config) (out : Outside) {g : Globals} (fd : Nat)
    (remote : SockaddrStorage) (fresh : g.idPool ∉ g.activeHandlers) :
    ∃ k, (g.setupHandler cfg out fd remote).activeHandlers[g.idPool]? = some k ∧
      k.remoteAddr = remote := by
  refine ⟨_, ?_, (Connector.Handler.new_ends cfg out.version g.lastBlock fd
    Connector.SEND_VERSION_INIT remote out.localAddr g.idPool).2.1⟩
  show (g.activeHandlers.insertIfNew g.idPool _)[g.idPool]? = _
  rw [TreeMap.getElem?_insertIfNew, if_pos ⟨Std.ReflCmp.compare_self, fresh⟩]

theorem ConnectHandler.run_remote (cfg : Config) (h : ConnectHandler) (callbacks : List Callback) :
    (run (ConnectHandler.step cfg) h callbacks).remoteAddr = h.remoteAddr := by
  refine run_keeps (P := fun k : ConnectHandler => k.remoteAddr = h.remoteAddr) ?_ rfl callbacks
  intro k c same
  unfold ConnectHandler.step
  split
  · unfold ConnectHandler.ioCb
    split
    · exact same
    · split
      · exact same
      · exact same
  · exact same

/-- However an attempt succeeds, the handler has the address of the attempt. -/
theorem Succeeds.remote {cfg : Config} {out : Outside} {g later : Globals} {started : Started}
    {id : UInt32} (succeeds : Succeeds cfg out g started later id) :
    ∃ k, later.activeHandlers[id]? = some k ∧ k.remoteAddr = remoteOf started := by
  cases succeeds with
  -- the last step is `setup_handler` on the address of the attempt each time
  | @instant fd remote socket allowed connected fresh =>
      have begun : Globals.begin cfg out g (.direct remote) =
          (g.gLog .DEBUG (text "No need to do non-blocking connect, setup was instant")
            []).setupHandler cfg out fd remote := by
        simp only [Globals.begin, socket, Globals.connectHandler, allowed, connected]
        rfl
      rw [begun]
      exact setupHandler_remote cfg out fd remote fresh
  | @direct fd remote _ callbacks c _ connected fresh =>
      have same := ConnectHandler.run_remote cfg (.new fd remote) callbacks
      simp only [ConnectHandler.ioCb, connected, same]
      exact setupHandler_remote cfg c.out _ remote fresh
  | @tor fd remote hostname _ callbacks c waiting handed fresh =>
      obtain ⟨same, -, -⟩ :=
        TorHandler.run_same cfg (TorHandler.new_valid fd remote hostname) callbacks
      obtain ⟨setup, -⟩ := TorHandler.ioCb_handsOver cfg waiting handed
      rw [setup, same]
      exact setupHandler_remote cfg c.out _ remote fresh

/-! ## There and back -/

section Message

variable {h : Handler} {w : WireAddr} {rest : List UInt8}
  (ready : Ready h CONNECT (w.bytes ++ rest)) (both : 19 ≤ rest.length)

include ready both

/-- The address that is read is the one that was sent. -/
theorem fetched_connect (beyond : Nat → UInt8) :
    WireAddr.fetched h.readQueue.buffer beyond messageSize = w := by
  have size : (w.bytes ++ rest).length = 19 + rest.length := by
    rw [List.length_append, w.length_bytes]
  apply WireAddr.ext
  · exact family_connect ready beyond (by omega)
  · show fetch h.readQueue.buffer beyond (messageSize + 1) 16 = w.addr
    rw [fetch_payloadAt ready beyond (by omega), WireAddr.bytes]
    show slice 1 16 ([w.family] ++ (w.addr ++ w.port) ++ rest) = w.addr
    rw [← List.append_assoc, List.append_assoc]
    exact slice_here rfl w.addrSize
  · show fetch h.readQueue.buffer beyond (messageSize + 17) 2 = w.port
    rw [fetch_payloadAt ready beyond (by omega), WireAddr.bytes]
    show slice 17 2 ([w.family] ++ (w.addr ++ w.port) ++ rest) = w.port
    rw [← List.append_assoc]
    exact slice_here (by simp [w.addrSize]) w.portSize

/-- The attempt is for the address that was sent. -/
theorem connectStarted_message (g : Globals) :
    h.connectStarted g = [if w.family = ADDR_FAMILY_ONION then
        .tor (wireToSockaddr w)
          (if 19 < rest.length then some (cString (hostnameOf (w.bytes ++ rest))) else none)
      else .direct (wireToSockaddr w)] := by
  have size : (w.bytes ++ rest).length = 19 + rest.length := by
    rw [List.length_append, w.length_bytes]
  have long : 38 ≤ (w.bytes ++ rest).length := by omega
  have more : ¬ messageLength h.readQueue.buffer = 0 := by
    rw [ready.length]
    omega
  have extra : (w.bytes ++ rest).length - 38 > 0 ↔ 19 < rest.length := by omega
  unfold Handler.connectStarted Handler.connectReading
  simp only [if_neg more, Access.value_bind, Access.value_pure, attemptReading_value,
    fetched_connect ready both]
  simp only [ready.length, extraLen_connect ready long, hostname_connect ready _ long, extra]

theorem remoteOf_connectStarted {g : Globals} {started : Started}
    (made : started ∈ h.connectStarted g) : remoteOf started = wireToSockaddr w := by
  rw [connectStarted_message ready both, List.mem_singleton] at made
  rw [made]
  split
  · rfl
  · rfl

end Message

/-- A handler after what happened to it. -/
def lived (cfg : Config) (life : List PeerEvent) (k : Connector.Handler) : Connector.Handler :=
  (run (Peer.step cfg) ⟨k, false⟩ life).handler

/-- For every canonical address in a CONNECT message, in every state of the process, however
the attempt succeeds and however long the handler has lived when the table is asked for: its
record has the address that was sent exactly if it is no onion address. -/
theorem connect_record_iff (cfg : Config) (g : Globals) (h : Handler) (w : WireAddr)
    (rest : List UInt8) (ready : Ready h CONNECT (w.bytes ++ rest)) (both : 19 ≤ rest.length)
    (canonical : w.Canonical) (started : Started) (made : started ∈ h.connectStarted g)
    (out : Outside) (before later : Globals) (id : UInt32)
    (succeeds : Succeeds cfg out before started later id) (life : List PeerEvent) (now : Globals)
    (lives : now.activeHandlers[id]? = (later.activeHandlers[id]?).map (lived cfg life)) :
    (record now id).map (slice 4 19) = some w.bytes ↔ w.family ≠ ADDR_FAMILY_ONION := by
  obtain ⟨k, found, remote⟩ := succeeds.remote
  have same := (Connector.run_ends cfg ⟨k, false⟩ life).remoteAddr
  rw [remoteOf_connectStarted ready both made] at remote
  have address : (lived cfg life k).remoteAddr = wireToSockaddr w := same.trans remote
  rw [record, lives, found]
  simp only [Option.map_some, remote_connectionInfo, address, Option.some.injEq]
  rw [WireAddr.bytes_inj]
  exact sockaddrToWire_wireToSockaddr_iff canonical

/-- An IPv4 address. -/
def someInet : WireAddr := ⟨4, [1, 2, 3, 4] ++ List.replicate 12 0, [0, 0], rfl, rfl⟩

/-- The process with a handler for it. -/
def someConnected : Globals :=
  Globals.begin Connector.someConfig someOutside someGlobals (.direct (wireToSockaddr someInet))

/-- The table has it behind the id of the handler. -/
theorem connect_record_iff_inet :
    ∃ bytes, bytes <:+: someConnected.connections ∧ slice 4 19 bytes = someInet.bytes := by
  have ready : Ready (Handler.someMoment someGlobals someConnect).2 CONNECT
      (someInet.bytes ++ List.replicate 19 0) :=
    Handler.someMoment_ready (by decide +kernel) (by decide +kernel) (by decide +kernel)
  have made : .direct (wireToSockaddr someInet) ∈
      (Handler.someMoment someGlobals someConnect).2.connectStarted someGlobals := by
    rw [connectStarted_message ready (by decide)]
    exact List.mem_singleton.2 rfl
  have lives : someConnected.activeHandlers[(0 : UInt32)]? =
      (someConnected.activeHandlers[(0 : UInt32)]?).map (lived Connector.someConfig []) := by
    cases someConnected.activeHandlers[(0 : UInt32)]? with
    | none => rfl
    | some k => rfl
  have sent := (connect_record_iff Connector.someConfig someGlobals _ someInet _ ready (by decide)
    (Or.inl ⟨rfl, rfl⟩) _ made someOutside someGlobals someConnected 0
    (.instant 9 rfl rfl rfl (by decide)) [] someConnected lives).2 (by decide)
  obtain ⟨bytes, there, same⟩ := Option.map_eq_some_iff.1 sent
  exact ⟨bytes, record_infix there, same⟩

/-- An onion address. -/
def someOnionAddr : WireAddr := ⟨10, List.replicate 16 7, [0x4e, 0x20], rfl, rfl⟩

/-- A CONNECT to it. -/
def someOnionConnect : Chunk :=
  ⟨[0, 0, 0, 0, 38, 4] ++ (someOnionAddr.bytes ++ List.replicate 19 0), by decide, by decide⟩

/-- The proxy has been asked. -/
def someAsked : TorHandler :=
  run (TorHandler.step Connector.someConfig) (.new 9 (wireToSockaddr someOnionAddr) none)
    [.writable [.accept 3], .readable noAuthentication, .writable [.accept 100]]

/-- The record has the sixteen bytes and the port, and says that they are an IPv6 address. -/
theorem onion_record_inet6 :
    Ready (Handler.someMoment someGlobals someOnionConnect).2 CONNECT
        (someOnionAddr.bytes ++ List.replicate 19 0) ∧
      someOnionAddr.Canonical ∧
      .tor (wireToSockaddr someOnionAddr) none ∈
        (Handler.someMoment someGlobals someOnionConnect).2.connectStarted someGlobals ∧
      Succeeds Connector.someConfig someOutside someGlobals
        (.tor (wireToSockaddr someOnionAddr) none)
        (someAsked.ioCb Connector.someConfig (.readable someReply)).1 0 ∧
      (record (someAsked.ioCb Connector.someConfig (.readable someReply)).1 0).map (slice 4 19) =
        some ([6] ++ List.replicate 16 7 ++ [0x4e, 0x20]) ∧
      (record (someAsked.ioCb Connector.someConfig (.readable someReply)).1 0).map (slice 4 19) ≠
        some someOnionAddr.bytes := by
  have ready : Ready (Handler.someMoment someGlobals someOnionConnect).2 CONNECT
      (someOnionAddr.bytes ++ List.replicate 19 0) :=
    Handler.someMoment_ready (by decide +kernel) (by decide +kernel) (by decide +kernel)
  refine ⟨ready, Or.inr (Or.inr rfl), ?_, ?_, by decide +kernel, by decide +kernel⟩
  · rw [connectStarted_message ready (by decide)]
    exact List.mem_singleton.2 rfl
  · exact .tor 9 rfl _ (.readable someReply) (by decide +kernel) (by decide +kernel) (by decide)

end Coinscope.Attempts

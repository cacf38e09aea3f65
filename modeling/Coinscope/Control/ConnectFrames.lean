/-
# Control.ConnectFrames -- what a CONNECT message starts

The branch CONNECT follows a pointer to a 38-byte structure and, for an onion address,
takes what the message has behind it for a host name, after an unsigned subtraction.
As for commands, the branch is written once more as a computation that reads the
memory behind the pointer, and `process_connect` ties it to the model.

* `Started` -- the constructor that is called, with its arguments.
* `Handler.connectReading` -- the reads and the attempts of a CONNECT message.
* `Handler.connectAttempts` -- the attempts themselves, each with its socket and its host.
* `Faithful`, `connect_frames_iff` -- the attempt the message asks for, and when it is
  the one that is made.
-/
import Coinscope.Control.Addresses
import Coinscope.Control.CommandBounds
import Mathlib.Data.List.TakeWhile

namespace Coinscope.Control

open Coinscope.Shared
open Coinscope.Theory
open Coinscope.Theory.Bytes

set_option autoImplicit false

/-! ## Attempts -/

/-- A connection attempt: `connect_handler(fd, remote)`, with a socket of its own, or
`tor_connect_handler(remote[, hostname])`. -/
inductive Started where
  | direct (remote : SockaddrStorage)
  | tor (remote : SockaddrStorage) (hostname : Option (List UInt8))

/-- The host name a `tor_connect_handler` makes for itself. -/
def torHost (remote : SockaddrStorage) : Option (List UInt8) → List UInt8
  | some hostname => Globals.onionHost hostname
  | none => Globals.onionHost (remote.sin6Addr.flatMap Globals.hexByte)

/-- The attempt that is made on a socket. -/
def Started.attempt (fd : Nat) : Started → Attempt
  | .direct remote => .direct fd remote
  | .tor remote hostname => .tor fd remote (torHost remote hostname)

/-- What the constructor does. -/
def Globals.begin (cfg : Config) (out : Outside) (g : Globals) : Started → Globals
  | .tor remote hostname => g.torConnectHandler cfg out remote (torHost remote hostname)
  | .direct remote =>
      match out.socket with
      | .error e => g.gLog .ERROR (text "socket failure: " ++ cfg.strerror e)
          [text "(command_handler CONNECT)"]
      | .ok fd => g.connectHandler cfg out fd remote

/-! ## Reads -/

/-- A `wire_addr` of which only these bytes were looked at. -/
def WireAddr.partly (family : UInt8) (addr port : List UInt8) : WireAddr where
  family := family
  addr := (addr ++ List.replicate 16 0).take 16
  port := (port ++ List.replicate 2 0).take 2
  addrSize := by simp
  portSize := by simp

/-- `wire_to_sockaddr(payload->remote_addr, remote_ss)`. -/
def wireReading : Access UInt8 SockaddrStorage := do
  let family ← Access.cell 0
  if family = ADDR_FAMILY_IPV4 then do
    let addr ← Access.cells 1 4
    let port ← Access.cells 17 2
    pure (wireToSockaddr (.partly family addr port))
  else if family = ADDR_FAMILY_IPV6 ∨ family = ADDR_FAMILY_ONION then do
    let addr ← Access.cells 1 16
    let port ← Access.cells 17 2
    pure (wireToSockaddr (.partly family addr port))
  else pure (wireToSockaddr (.partly family [] []))

/-- The attempt of the branch CONNECT, for a message with so many bytes of payload. -/
def attemptReading (length : Nat) : Access UInt8 Started := do
  let remote ← wireReading
  let family ← Access.cell 0
  let extraLen := (UInt32.ofNat length - 38).toNat
  if family = ADDR_FAMILY_ONION then
    if extraLen > 0 then do
      let hostname ← Access.cells 38 (min extraLen 63)
      pure (.tor remote (some (cString hostname)))
    else pure (.tor remote none)
  else pure (.direct remote)

namespace Handler

/-- A CONNECT message from the `switch` of `do_read` on: the globals with what is logged
first, and the attempts that are then made. -/
def connectReading (g : Globals) (h : Handler) : Access UInt8 (Globals × List Started) :=
  let memory := h.readQueue.buffer
  if messageLength memory = 0 then pure ((h.warnedHeader g).gLog .CTRL (showMessage memory) [], [])
  else do
    let family ← Access.cell 0
    let started ← attemptReading (messageLength memory)
    pure ((h.warned g).gLog .CTRL (text "Attempting to connect to family")
      [decimal family.toNat, text "for", decimal h.regid.toNat], [started])

/-- The offsets into the payload that are read while a CONNECT message is handled. -/
def connectReads (g : Globals) (h : Handler) : List Nat :=
  (h.connectReading g).reads (payloadAt h.readQueue.buffer (outside (h.warned g)).beyond)

/-- The constructors that are called. -/
def connectStarted (g : Globals) (h : Handler) : List Started :=
  ((h.connectReading g).value (payloadAt h.readQueue.buffer (outside (h.warned g)).beyond)).2

/-- A socket can be made while the message is handled. -/
def Socketed (g : Globals) (h : Handler) : Prop := ∃ fd, (outside (h.warned g)).socket = .ok fd

/-- The attempts that are made.  Without a socket there is none: `connect_handler` is not
called, and `tor_connect_handler` gives up before it has one. -/
def connectAttempts (g : Globals) (h : Handler) : List Attempt :=
  match (outside (h.warned g)).socket with
  | .error _ => []
  | .ok fd => (h.connectStarted g).map (Started.attempt fd)

end Handler

/-! ## The reads belong to the model -/

section Values

variable (memory : List UInt8) (beyond : Nat → UInt8)

theorem partly_addr {n : Nat} (bytes : List UInt8) (size : bytes.length = n) (few : n ≤ 16) :
    ((bytes ++ List.replicate 16 0).take 16).take n = bytes := by
  rw [List.take_take, Nat.min_eq_left few, ← size, List.take_left]

/-- What is not looked at does not matter. -/
theorem wireToSockaddr_congr {a b : WireAddr} (family : a.family = b.family)
    (inet : a.family = ADDR_FAMILY_IPV4 → a.addr.take 4 = b.addr.take 4 ∧ a.port = b.port)
    (inet6 : a.family = ADDR_FAMILY_IPV6 ∨ a.family = ADDR_FAMILY_ONION →
      a.addr = b.addr ∧ a.port = b.port) : wireToSockaddr a = wireToSockaddr b := by
  unfold wireToSockaddr
  rw [← family]
  split
  · rename_i is
    simp only [(inet is).1, (inet is).2]
  · split
    · rename_i is
      simp only [(inet6 is).1, (inet6 is).2]
    · rfl

theorem wireReading_value :
    wireReading.value (payloadAt memory beyond) =
      wireToSockaddr (WireAddr.fetched memory beyond messageSize) := by
  have family : payloadAt memory beyond 0 = (WireAddr.fetched memory beyond messageSize).family := rfl
  have port : ((fetch memory beyond (messageSize + 17) 2) ++ List.replicate 2 0).take 2 =
      (WireAddr.fetched memory beyond messageSize).port :=
    List.take_left' (length_fetch ..)
  simp only [wireReading, Access.value_bind, Access.value_cell, family]
  split
  · rename_i inet
    simp only [Access.value_bind, Access.value_pure, value_cells_payloadAt]
    refine wireToSockaddr_congr ?_ ?_ ?_
    · rfl
    · intro _
      refine ⟨?_, port⟩
      rw [WireAddr.partly, partly_addr _ (length_fetch ..) (by decide)]
      simp [WireAddr.fetched, fetch, ← List.map_take, List.take_range]
    · intro inet6
      have : (WireAddr.fetched memory beyond messageSize).family = ADDR_FAMILY_IPV6 ∨
        (WireAddr.fetched memory beyond messageSize).family = ADDR_FAMILY_ONION := inet6
      rw [inet] at this
      exact absurd this (by decide)
  · split
    · simp only [Access.value_bind, Access.value_pure, value_cells_payloadAt]
      have addr : (fetch memory beyond (messageSize + 1) 16 ++ List.replicate 16 0).take 16 =
          (WireAddr.fetched memory beyond messageSize).addr :=
        List.take_left' (length_fetch ..)
      refine wireToSockaddr_congr ?_ ?_ ?_
      · rfl
      · intro _
        exact ⟨congrArg (List.take 4) addr, port⟩
      · intro _
        exact ⟨addr, port⟩
    · rename_i inet inet6
      rw [Access.value_pure]
      refine wireToSockaddr_congr ?_ ?_ ?_
      · rfl
      · intro is
        exact absurd is inet
      · intro is
        exact absurd is inet6

theorem attemptReading_value :
    (attemptReading (messageLength memory)).value (payloadAt memory beyond) =
      if (WireAddr.fetched memory beyond messageSize).family = ADDR_FAMILY_ONION then
        .tor (wireToSockaddr (WireAddr.fetched memory beyond messageSize))
          (if (UInt32.ofNat (messageLength memory) - 38).toNat > 0 then
            some (cString (fetch memory beyond (messageSize + 38)
              (min (UInt32.ofNat (messageLength memory) - 38).toNat 63)))
          else none)
      else .direct (wireToSockaddr (WireAddr.fetched memory beyond messageSize)) := by
  have family : payloadAt memory beyond 0 = (WireAddr.fetched memory beyond messageSize).family := rfl
  simp only [attemptReading, Access.value_bind, Access.value_cell, wireReading_value, family]
  split
  · split
    · simp only [Access.value_bind, Access.value_pure, value_cells_payloadAt]
    · rfl
  · rfl

/-- The branch CONNECT makes the attempt that was read. -/
theorem connect_begin (cfg : Config) (out : Outside) (g : Globals) (regid : UInt32) :
    g.connect cfg out regid memory =
      Globals.begin cfg out (g.gLog .CTRL (text "Attempting to connect to family")
        [decimal (payloadAt memory out.beyond 0).toNat, text "for", decimal regid.toNat])
        ((attemptReading (messageLength memory)).value (payloadAt memory out.beyond)) := by
  rw [attemptReading_value]
  unfold Globals.connect
  simp only
  split
  · split
    · rfl
    · rfl
  · rfl

end Values

/-- A message is handled; the next one gets the next entry of the tape. -/
def Globals.tick (g : Globals) : Globals := { g with clock := g.clock + 1 }

/-- A CONNECT message logs, makes the attempts that were read, and is done. -/
theorem Ready.process_connect {h : Handler} {payload : List UInt8}
    (ready : Ready h CONNECT payload) (cfg : Config) (g : Globals) :
    (h.process cfg g).1 =
      let read := (h.connectReading g).value
        (payloadAt h.readQueue.buffer (Handler.outside (h.warned g)).beyond)
      (read.2.foldl (Globals.begin cfg (Handler.outside (h.warned g))) read.1).tick := by
  unfold Handler.connectReading
  simp only
  by_cases none_ : payload = []
  · have empty : messageLength h.readQueue.buffer = 0 := by rw [ready.length, none_]; rfl
    have other : ¬ messageType h.readQueue.buffer = REGISTER := by rw [ready.type]; decide
    rw [if_pos empty, Access.value_pure, ready.process_empty cfg g none_]
    simp only [Handler.receiveHeader, ReadBuffer.setToRead, empty, if_true, if_neg other]
    rfl
  · have more : ¬ messageLength h.readQueue.buffer = 0 := by
      rw [ready.length]
      exact fun zero => none_ (List.length_eq_zero_iff.1 zero)
    have kind : messageType h.take.readQueue.buffer = CONNECT := ready.type
    have packed : ¬ messageType h.take.readQueue.buffer = BITCOIN_PACKED_MESSAGE := by
      rw [kind]
      decide
    have command : ¬ messageType h.take.readQueue.buffer = COMMAND := by
      rw [kind]
      decide
    rw [if_neg more, ready.process_payload cfg g none_]
    simp only [Handler.receivePayload, Handler.payloadSwitch, if_neg packed, if_neg command,
      if_pos kind, Access.value_bind, Access.value_pure, Access.value_cell]
    show ((h.warned g).connect cfg (Handler.outside (h.warned g)) h.regid
      h.readQueue.buffer).tick = _
    rw [connect_begin]
    rfl

/-- What waits behind the constructor: nothing new, or its attempt; its attempt, if the socket is
still connecting and the address is allowed. -/
theorem Globals.begin_attempts (cfg : Config) (out : Outside) (g : Globals) (started : Started) :
    (∀ e, out.socket = .error e → (g.begin cfg out started).attempts = g.attempts) ∧
      ∀ fd, out.socket = .ok fd →
        ((g.begin cfg out started).attempts = g.attempts ∨
          (g.begin cfg out started).attempts = g.attempts ++ [started.attempt fd]) ∧
        ((∀ remote, started = .direct remote → g.blacklist remote = false) →
          (∃ e, out.connect = some e ∧ inProgress e = true) →
            (g.begin cfg out started).attempts = g.attempts ++ [started.attempt fd]) := by
  cases started with
  | direct remote =>
      refine ⟨?_, ?_⟩
      · intro e none_
        simp only [begin, none_]
        rfl
      · intro fd made
        simp only [begin, made, connectHandler]
        refine ⟨?_, ?_⟩
        · split
          · exact Or.inl rfl
          · split
            · exact Or.inl rfl
            · split
              · exact Or.inr rfl
              · exact Or.inl rfl
        · rintro allowed ⟨e, connecting, later⟩
          rw [if_neg (by simp [allowed remote rfl]), connecting]
          simp only [later, if_true]
          rfl
  | tor remote hostname =>
      refine ⟨?_, ?_⟩
      · intro e none_
        simp only [begin, torConnectHandler, none_]
        rfl
      · intro fd made
        simp only [begin, torConnectHandler, made]
        refine ⟨?_, ?_⟩
        · split
          · exact Or.inr rfl
          · split
            · exact Or.inr rfl
            · exact Or.inl rfl
        · rintro - ⟨e, connecting, later⟩
          simp only [connecting, later, if_true]
          rfl

/-- Behind a CONNECT message nothing new waits, or its attempts; these wait if the sockets are still
connecting and the addresses are allowed. -/
theorem Ready.attempts_connect {h : Handler} {payload : List UInt8}
    (ready : Ready h CONNECT payload) (cfg : Config) (g : Globals) :
    ((h.process cfg g).1.attempts = g.attempts ∨
      (h.process cfg g).1.attempts = g.attempts ++ h.connectAttempts g) ∧
    ((∀ fd remote, .direct fd remote ∈ h.connectAttempts g → g.blacklist remote = false) →
      (∃ e, (Handler.outside (h.warned g)).connect = some e ∧ Globals.inProgress e = true) →
        (h.process cfg g).1.attempts = g.attempts ++ h.connectAttempts g) := by
  have warned : (h.warned g).attempts = g.attempts ∧ (h.warned g).blacklist = g.blacklist := by
    unfold Handler.warned
    split <;> exact ⟨rfl, rfl⟩
  have warnedHeader : (h.warnedHeader g).attempts = g.attempts := by
    unfold Handler.warnedHeader
    split <;> rfl
  rw [ready.process_connect cfg g]
  unfold Handler.connectAttempts Handler.connectStarted Handler.connectReading
  simp only
  by_cases empty : messageLength h.readQueue.buffer = 0
  · simp only [if_pos empty, Access.value_pure, List.map_nil, List.foldl_nil]
    refine ⟨Or.inl warnedHeader, fun _ _ => ?_⟩
    split
    · rw [List.append_nil]
      exact warnedHeader
    · rw [List.append_nil]
      exact warnedHeader
  · simp only [if_neg empty, Access.value_bind, Access.value_pure, List.foldl_cons, List.foldl_nil,
      Globals.tick, List.map_cons, List.map_nil]
    obtain ⟨noSocket, socket⟩ := Globals.begin_attempts cfg (Handler.outside (h.warned g))
      ((h.warned g).gLog .CTRL (text "Attempting to connect to family")
        [decimal ((Access.cell 0).value (payloadAt h.readQueue.buffer
          (Handler.outside (h.warned g)).beyond)).toNat, text "for", decimal h.regid.toNat])
      ((attemptReading (messageLength h.readQueue.buffer)).value
        (payloadAt h.readQueue.buffer (Handler.outside (h.warned g)).beyond))
    have before : ∀ more : List Attempt, ((h.warned g).gLog .CTRL
        (text "Attempting to connect to family") [decimal ((Access.cell 0).value (payloadAt
          h.readQueue.buffer (Handler.outside (h.warned g)).beyond)).toNat, text "for",
          decimal h.regid.toNat]).attempts ++ more = g.attempts ++ more :=
      fun more => congrArg (· ++ more) warned.1
    split
    · rename_i e none_
      have same := (noSocket e none_).trans warned.1
      exact ⟨Or.inl same, fun _ _ => same.trans (List.append_nil _).symm⟩
    · rename_i fd made
      obtain ⟨either, waits⟩ := socket fd made
      refine ⟨?_, ?_⟩
      · rcases either with same | more
        · exact Or.inl (same.trans warned.1)
        · exact Or.inr (more.trans (before _))
      · intro allowed connecting
        refine (waits ?_ connecting).trans (before _)
        intro remote is
        show (h.warned g).blacklist remote = false
        rw [warned.2]
        exact allowed fd remote (by rw [is]; exact List.mem_singleton.2 rfl)

/-! ## What a message asks for -/

/-- The family of the remote address. -/
def remoteFamily (payload : List UInt8) : UInt8 := payload.getD 0 0

/-- One of the three families. -/
def Known (family : UInt8) : Prop :=
  family = ADDR_FAMILY_IPV4 ∨ family = ADDR_FAMILY_IPV6 ∨ family = ADDR_FAMILY_ONION

/-- The host name behind the addresses. -/
def hostnameOf (payload : List UInt8) : List UInt8 := (payload.drop 38).take 63

/-- The address and the port a payload encodes. -/
def Addressed (payload : List UInt8) (remote : SockaddrStorage) : Prop :=
  remote.port = slice 17 2 payload ∧
    if remoteFamily payload = ADDR_FAMILY_IPV4 then
      remote.family = AF_INET ∧ remote.sinAddr = slice 1 4 payload
    else remote.family = AF_INET6 ∧ remote.sin6Addr = slice 1 16 payload

/-- The host a payload names: the name behind the addresses, or the digits of the address. -/
def hostAsked (payload : List UInt8) : List UInt8 :=
  (if 38 < payload.length then hostnameOf payload
    else (slice 1 16 payload).flatMap Globals.hexByte) ++ text ".onion"

/-- The attempt a payload asks for. -/
def Asked (payload : List UInt8) (attempt : Attempt) : Prop :=
  ∃ fd remote, Addressed payload remote ∧
    attempt = if remoteFamily payload = ADDR_FAMILY_ONION then .tor fd remote (hostAsked payload)
      else .direct fd remote

/-- A payload with both addresses and a known family starts exactly the attempt it asks for,
any other none, and no byte outside the payload is read. -/
def Faithful (payload : List UInt8) (reads : List Nat) (attempts : List Attempt) : Prop :=
  (∀ off ∈ reads, off < payload.length) ∧
    (38 ≤ payload.length ∧ Known (remoteFamily payload) →
      ∃ attempt, Asked payload attempt ∧ attempts = [attempt]) ∧
    (¬ (38 ≤ payload.length ∧ Known (remoteFamily payload)) → attempts = [])

/-- The payload is empty; or there is a socket, both addresses are there, the family is known, and
the host name of an onion address has no zero and at most 56 bytes; or there is no socket, an
address is not there or the family unknown, and what is read of a known one is there. -/
def Decodable (socketed : Prop) (payload : List UInt8) : Prop :=
  payload = [] ∨
    (socketed ∧ 38 ≤ payload.length ∧ Known (remoteFamily payload) ∧
      (remoteFamily payload = ADDR_FAMILY_ONION →
        (0 : UInt8) ∉ hostnameOf payload ∧ (hostnameOf payload).length ≤ 56)) ∨
    (¬ socketed ∧ ¬ (38 ≤ payload.length ∧ Known (remoteFamily payload)) ∧
      (Known (remoteFamily payload) →
        19 ≤ payload.length ∧ remoteFamily payload ≠ ADDR_FAMILY_ONION))

/-! ## Host names -/

theorem cString_eq_self_iff (bytes : List UInt8) : cString bytes = bytes ↔ (0 : UInt8) ∉ bytes := by
  rw [cString, List.takeWhile_eq_self_iff]
  constructor
  · intro all member
    exact absurd (all 0 member) (by decide)
  · intro none_ b member
    apply decide_eq_true
    rintro rfl
    exact none_ member

/-- A name survives `onion_host_` if it ends nowhere in between and there is room for it. -/
theorem onionHost_cString_iff (name : List UInt8) :
    Globals.onionHost (cString name) = name ++ text ".onion" ↔
      (0 : UInt8) ∉ name ∧ name.length ≤ 56 := by
  have six : (text ".onion").length = 6 := rfl
  have shorter : (cString name).length ≤ name.length := (List.takeWhile_sublist _).length_le
  constructor
  · intro same
    have length := congrArg List.length same
    rw [Globals.onionHost, List.length_take, List.length_append, List.length_append, six] at length
    have room : name.length ≤ 56 := by omega
    rw [Globals.onionHost, List.take_of_length_le (by rw [List.length_append, six]; omega)] at same
    exact ⟨(cString_eq_self_iff name).1 (List.append_cancel_right same), room⟩
  · rintro ⟨clean, room⟩
    rw [(cString_eq_self_iff name).2 clean, Globals.onionHost,
      List.take_of_length_le (by rw [List.length_append, six]; omega)]

/-- The digits of an address always have room. -/
theorem onionHost_digits {addr : List UInt8} (size : addr.length ≤ 16) :
    Globals.onionHost (addr.flatMap Globals.hexByte) =
      addr.flatMap Globals.hexByte ++ text ".onion" := by
  have two : ∀ b, (Globals.hexByte b).length ≤ 2 := by
    intro b
    simp only [Globals.hexByte, List.length_reverse, List.length_take]
    exact Nat.min_le_left ..
  have digits : ∀ bytes : List UInt8, (bytes.flatMap Globals.hexByte).length ≤ 2 * bytes.length := by
    intro bytes
    induction bytes with
    | nil => exact Nat.le_refl _
    | cons b rest ih =>
        have first := two b
        rw [List.flatMap_cons, List.length_append, List.length_cons]
        omega
  have six : (text ".onion").length = 6 := rfl
  have all := digits addr
  exact List.take_of_length_le (by rw [List.length_append, six]; omega)

section Payload

variable {h : Handler} {payload : List UInt8} (ready : Ready h CONNECT payload)
  (beyond : Nat → UInt8)

include ready

/-! ## What is read -/

section Reads

variable (some_ : payload ≠ [])

include some_

/-- Of a known address the port is read last. -/
theorem wireReading_within_iff :
    Access.Within (payloadAt h.readQueue.buffer beyond) payload.length wireReading ↔
      (Known (remoteFamily payload) → 19 ≤ payload.length) := by
  have positive : 0 < payload.length := List.length_pos_iff.2 some_
  have first : payloadAt h.readQueue.buffer beyond 0 = remoteFamily payload :=
    command_payloadAt ready beyond some_
  have pure_ : ∀ r : SockaddrStorage, Access.Within (payloadAt h.readQueue.buffer beyond)
      payload.length (pure r : Access UInt8 SockaddrStorage) := fun r => Access.within_pure _ _ r
  rw [wireReading, Access.within_bind, Access.within_cell, Access.value_cell, first]
  simp only [positive, true_and]
  by_cases inet : remoteFamily payload = ADDR_FAMILY_IPV4
  · have known : Known (remoteFamily payload) := Or.inl inet
    simp only [if_pos inet, Access.within_bind, Access.within_cells, pure_, known, and_true,
      true_implies]
    omega
  · rw [if_neg inet]
    by_cases inet6 : remoteFamily payload = ADDR_FAMILY_IPV6 ∨
        remoteFamily payload = ADDR_FAMILY_ONION
    · have known : Known (remoteFamily payload) := Or.inr inet6
      simp only [if_pos inet6, Access.within_bind, Access.within_cells, pure_, known, and_true,
        true_implies]
      omega
    · rw [if_neg inet6]
      exact ⟨fun _ known => absurd (known.resolve_left inet) inet6, fun _ => pure_ _⟩

/-- Of an onion address all is read, and where less than both addresses is there the subtraction
wraps. -/
theorem attemptReading_within_iff :
    Access.Within (payloadAt h.readQueue.buffer beyond) payload.length
        (attemptReading payload.length) ↔
      (Known (remoteFamily payload) → 19 ≤ payload.length) ∧
        (remoteFamily payload = ADDR_FAMILY_ONION → 38 ≤ payload.length) := by
  have small := ready.small
  have positive : 0 < payload.length := List.length_pos_iff.2 some_
  have first : payloadAt h.readQueue.buffer beyond 0 = remoteFamily payload :=
    command_payloadAt ready beyond some_
  have pure_ : ∀ r : Started, Access.Within (payloadAt h.readQueue.buffer beyond)
      payload.length (pure r : Access UInt8 Started) := fun r => Access.within_pure _ _ r
  have extra : (UInt32.ofNat payload.length - 38).toNat =
      (2 ^ 32 - 38 + payload.length) % 2 ^ 32 := by
    rw [UInt32.toNat_sub, UInt32.toNat_ofNat_of_lt' small]
    rfl
  rw [attemptReading, Access.within_bind, Access.within_bind, Access.within_cell,
    Access.value_cell, first, wireReading_within_iff ready beyond some_]
  refine and_congr_right fun _ => ?_
  simp only [positive, true_and, extra]
  by_cases onion : remoteFamily payload = ADDR_FAMILY_ONION
  · rw [if_pos onion]
    simp only [onion, true_implies]
    by_cases more : (2 ^ 32 - 38 + payload.length) % 2 ^ 32 > 0
    · rw [if_pos more, Access.within_bind, Access.within_cells]
      simp only [pure_, and_true]
      omega
    · rw [if_neg more]
      simp only [pure_, true_iff]
      omega
  · rw [if_neg onion]
    exact ⟨fun _ is => absurd is onion, fun _ => pure_ _⟩

end Reads

/-! ## What is started -/

variable (long : 38 ≤ payload.length)

include long

theorem family_connect :
    (WireAddr.fetched h.readQueue.buffer beyond messageSize).family = remoteFamily payload := by
  apply command_payloadAt ready beyond
  rintro rfl
  simp at long

/-- The address that is connected to is the one in the payload. -/
theorem addressed_connect (known : Known (remoteFamily payload)) :
    Addressed payload (wireToSockaddr (WireAddr.fetched h.readQueue.buffer beyond messageSize)) := by
  have family := family_connect ready beyond long
  have addr : (WireAddr.fetched h.readQueue.buffer beyond messageSize).addr = slice 1 16 payload :=
    fetch_payloadAt ready beyond (by omega)
  have port : (WireAddr.fetched h.readQueue.buffer beyond messageSize).port = slice 17 2 payload :=
    fetch_payloadAt ready beyond (by omega)
  unfold Addressed
  split
  · rename_i inet
    obtain ⟨kind, ports, address⟩ := wireToSockaddr_inet (family.trans inet)
    refine ⟨ports.trans port, kind, ?_⟩
    rw [address, addr, slice, slice, List.take_take]
    rfl
  · rename_i other
    obtain ⟨kind, ports, address⟩ :=
      wireToSockaddr_inet6 (by rw [family]; exact known.resolve_left other)
    exact ⟨ports.trans port, kind, address.trans addr⟩

theorem extraLen_connect : (UInt32.ofNat payload.length - 38).toNat = payload.length - 38 := by
  have small := ready.small
  rw [UInt32.toNat_sub_of_le]
  · rw [UInt32.toNat_ofNat_of_lt' small]
    rfl
  · rw [UInt32.le_iff_toNat_le, UInt32.toNat_ofNat_of_lt' small]
    exact long

theorem hostname_connect : fetch h.readQueue.buffer beyond (messageSize + 38)
    (min (payload.length - 38) 63) = hostnameOf payload := by
  rw [fetch_payloadAt ready beyond (by omega), slice, hostnameOf]
  by_cases short : payload.length - 38 ≤ 63
  · rw [Nat.min_eq_left short, List.take_of_length_le (by rw [List.length_drop]),
      List.take_of_length_le (by rw [List.length_drop]; exact short)]
  · rw [Nat.min_eq_right (by omega)]

/-- The attempt that is made is the one asked for, unless a zero ends the host name or there is no
room for it. -/
theorem asked_iff (known : Known (remoteFamily payload)) (fd : Nat) :
    Asked payload (((attemptReading (messageLength h.readQueue.buffer)).value
        (payloadAt h.readQueue.buffer beyond)).attempt fd) ↔
      (remoteFamily payload = ADDR_FAMILY_ONION →
        (0 : UInt8) ∉ hostnameOf payload ∧ (hostnameOf payload).length ≤ 56) := by
  have addressed := addressed_connect ready beyond long known
  rw [attemptReading_value, family_connect ready beyond long, ready.length,
    extraLen_connect ready long, hostname_connect ready beyond long]
  by_cases onion : remoteFamily payload = ADDR_FAMILY_ONION
  · rw [if_pos onion]
    by_cases extra : 38 < payload.length
    · have asked : hostAsked payload = hostnameOf payload ++ text ".onion" := by
        rw [hostAsked, if_pos extra]
      rw [if_pos (by omega), ← onionHost_cString_iff]
      constructor
      · rintro ⟨fd', remote, -, same⟩ _
        rw [if_pos onion, asked] at same
        injection same with _ _ host
      · intro fits
        refine ⟨fd, _, addressed, ?_⟩
        rw [if_pos onion, asked, Started.attempt, torHost, fits onion]
    · have none_ : hostnameOf payload = [] := by
        rw [hostnameOf, List.drop_eq_nil_of_le (by omega), List.take_nil]
      have addr : (wireToSockaddr (WireAddr.fetched h.readQueue.buffer beyond
          messageSize)).sin6Addr = slice 1 16 payload := by
        have parts := addressed.2
        rw [if_neg (by rw [onion]; decide)] at parts
        exact parts.2
      rw [if_neg (by omega), none_]
      refine ⟨fun _ _ => ⟨List.not_mem_nil, Nat.zero_le _⟩, fun _ => ⟨fd, _, addressed, ?_⟩⟩
      rw [if_pos onion, Started.attempt, torHost, addr, hostAsked, if_neg extra,
        onionHost_digits (by rw [slice_length (by omega)])]
  · rw [if_neg onion]
    refine ⟨fun _ is => absurd is onion, fun _ => ⟨fd, _, addressed, ?_⟩⟩
    rw [if_neg onion, Started.attempt]

end Payload

section Message

variable {h : Handler} {payload : List UInt8} (ready : Ready h CONNECT payload) (g : Globals)

include ready

/-- Without payload nothing is started and nothing read. -/
theorem connect_nothing (none_ : payload = []) :
    h.connectReads g = [] ∧ h.connectStarted g = [] := by
  have empty : messageLength h.readQueue.buffer = 0 := by rw [ready.length, none_]; rfl
  unfold Handler.connectReads Handler.connectStarted Handler.connectReading
  simp only [if_pos empty]
  exact ⟨rfl, rfl⟩

/-- With one the branch is taken once. -/
theorem connect_once (some_ : payload ≠ []) :
    ((∀ off ∈ h.connectReads g, off < payload.length) ↔
      (Known (remoteFamily payload) → 19 ≤ payload.length) ∧
        (remoteFamily payload = ADDR_FAMILY_ONION → 38 ≤ payload.length)) ∧
    h.connectStarted g = [(attemptReading (messageLength h.readQueue.buffer)).value
      (payloadAt h.readQueue.buffer (Handler.outside (h.warned g)).beyond)] := by
  have positive : 0 < payload.length := List.length_pos_iff.2 some_
  have more : ¬ messageLength h.readQueue.buffer = 0 := by
    rw [ready.length]
    omega
  unfold Handler.connectReads Handler.connectStarted Handler.connectReading
  simp only [if_neg more, Access.value_bind, Access.value_pure, and_true]
  show Access.Within _ _ _ ↔ _
  rw [Access.within_bind, Access.within_bind, Access.within_cell, ready.length,
    attemptReading_within_iff ready _ some_]
  exact ⟨fun all => all.2.1, fun all => ⟨positive, all, Access.within_pure _ _ _⟩⟩

end Message

/-- Every CONNECT message starts exactly the attempt its payload asks for, or none if the
payload is too short or of no known family, and reads no byte outside the payload, exactly
if it is decodable. -/
theorem connect_frames_iff (g : Globals) (h : Handler) (payload : List UInt8)
    (ready : Ready h CONNECT payload) :
    Faithful payload (h.connectReads g) (h.connectAttempts g) ↔
      Decodable (h.Socketed g) payload := by
  by_cases none_ : payload = []
  · obtain ⟨reads, started⟩ := connect_nothing ready g none_
    have attempts : h.connectAttempts g = [] := by
      rw [Handler.connectAttempts, started]
      split <;> rfl
    refine ⟨fun _ => Or.inl none_, fun _ => ⟨?_, ?_, fun _ => attempts⟩⟩
    · rw [reads]
      exact List.forall_mem_nil _
    · rintro ⟨long, -⟩
      rw [none_] at long
      cases long
  obtain ⟨reads, started⟩ := connect_once ready g none_
  rw [Faithful, reads]
  by_cases proper : 38 ≤ payload.length ∧ Known (remoteFamily payload)
  · obtain ⟨long, known⟩ := proper
    cases socket : (Handler.outside (h.warned g)).socket with
    | error e =>
        have attempts : h.connectAttempts g = [] := by rw [Handler.connectAttempts, socket]
        rw [attempts]
        constructor
        · rintro ⟨-, one, -⟩
          obtain ⟨attempt, -, no⟩ := one ⟨long, known⟩
          cases no
        · rintro (no | ⟨⟨fd, made⟩, -⟩ | ⟨-, no, -⟩)
          · exact absurd no none_
          · rw [socket] at made
            cases made
          · exact absurd ⟨long, known⟩ no
    | ok fd =>
        have attempts : h.connectAttempts g = [((attemptReading (messageLength
            h.readQueue.buffer)).value (payloadAt h.readQueue.buffer
              (Handler.outside (h.warned g)).beyond)).attempt fd] := by
          rw [Handler.connectAttempts, socket, started]
          rfl
        have asked := asked_iff ready (Handler.outside (h.warned g)).beyond long known fd
        rw [attempts]
        constructor
        · rintro ⟨-, one, -⟩
          obtain ⟨attempt, is, same⟩ := one ⟨long, known⟩
          injection same with same
          rw [← same] at is
          exact Or.inr (Or.inl ⟨⟨fd, socket⟩, long, known, asked.1 is⟩)
        · rintro (no | ⟨-, -, -, fits⟩ | ⟨no, -⟩)
          · exact absurd no none_
          · exact ⟨⟨fun _ => by omega, fun _ => long⟩, fun _ => ⟨_, asked.2 fits, rfl⟩,
              fun no => absurd ⟨long, known⟩ no⟩
          · exact absurd ⟨fd, socket⟩ no
  · cases socket : (Handler.outside (h.warned g)).socket with
    | error e =>
        have attempts : h.connectAttempts g = [] := by rw [Handler.connectAttempts, socket]
        have without : ¬ h.Socketed g := by
          rintro ⟨fd, made⟩
          rw [socket] at made
          cases made
        rw [attempts]
        constructor
        · rintro ⟨⟨port, all⟩, -⟩
          refine Or.inr (Or.inr ⟨without, proper, fun known => ⟨port known, fun onion => ?_⟩⟩)
          exact proper ⟨all onion, known⟩
        · rintro (no | ⟨made, -⟩ | ⟨-, -, read⟩)
          · exact absurd no none_
          · exact absurd made without
          · refine ⟨⟨fun known => (read known).1, fun onion => ?_⟩, fun no => absurd no proper,
              fun _ => rfl⟩
            exact absurd onion (read (Or.inr (Or.inr onion))).2
    | ok fd =>
        have attempts : h.connectAttempts g ≠ [] := by
          rw [Handler.connectAttempts, socket, started]
          simp
        constructor
        · rintro ⟨-, -, no⟩
          exact absurd (no proper) attempts
        · rintro (no | ⟨-, long, known, -⟩ | ⟨no, -⟩)
          · exact absurd no none_
          · exact absurd ⟨long, known⟩ proper
          · exact absurd ⟨fd, socket⟩ no

/-- A CONNECT to an IPv4 address. -/
def someConnect : Chunk :=
  ⟨[0, 0, 0, 0, 38, 4] ++ ([4, 1, 2, 3, 4] ++ List.replicate 33 0), by decide, by decide⟩

/-- The payload of a CONNECT to an onion address, with its host name behind the addresses. -/
def someNamed : List UInt8 := [10] ++ List.replicate 16 0 ++ [32, 141] ++ List.replicate 19 0 ++
  text "expyuzz4wqqyqhjn"

/-- A CONNECT to it. -/
def someNamedConnect : Chunk := ⟨[0, 0, 0, 0, 54, 4] ++ someNamed, by decide, by decide⟩

theorem connect_frames_iff_named :
    Faithful someNamed
      ((Handler.someMoment someGlobals someNamedConnect).2.connectReads someGlobals)
      ((Handler.someMoment someGlobals someNamedConnect).2.connectAttempts someGlobals) := by
  have ready : Ready (Handler.someMoment someGlobals someNamedConnect).2 CONNECT someNamed :=
    Handler.someMoment_ready (by decide +kernel) (by decide +kernel) (by decide +kernel)
  exact (connect_frames_iff someGlobals _ _ ready).2 (Or.inr (Or.inl ⟨⟨9, by decide +kernel⟩,
    by decide, Or.inr (Or.inr rfl), fun _ => ⟨by decide +kernel, by decide +kernel⟩⟩))

/-- A CONNECT whose payload is the family byte of an onion address. -/
def someShortConnect : Chunk := ⟨[0, 0, 0, 0, 1, 4, 10], by decide, by decide⟩

/-- The rest of the address and 63 bytes of a host name are read behind the payload, and an
attempt to connect there is made. -/
theorem short_connect_reads_on :
    Ready (Handler.someMoment someGlobals someShortConnect).2 CONNECT [10] ∧
      ¬ Faithful [10] ((Handler.someMoment someGlobals someShortConnect).2.connectReads someGlobals)
        ((Handler.someMoment someGlobals someShortConnect).2.connectAttempts someGlobals) ∧
      100 ∈ (Handler.someMoment someGlobals someShortConnect).2.connectReads someGlobals ∧
      ((Handler.someMoment someGlobals someShortConnect).2.process Connector.someConfig
        someGlobals).1.attempts.length = 1 := by
  have outside : 100 ∈ (Handler.someMoment someGlobals someShortConnect).2.connectReads
      someGlobals := by decide +kernel
  refine ⟨Handler.someMoment_ready (by decide +kernel) (by decide +kernel) (by decide +kernel), ?_,
    outside, by decide +kernel⟩
  rintro ⟨inside, -⟩
  exact absurd (inside 100 outside) (by decide)

end Coinscope.Control

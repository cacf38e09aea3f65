/-
# Clients.PythonConnect -- CONNECT from the Python client library

`connect_msg` of the Python library packs two hosts with `make_wire_addr` and takes them apart
with `parse_wire_addr`.  An onion name does not fit the sixteen bytes of an address: these are
left zero and the name goes behind the two addresses.  The accessors and `deserialize` do not look
there.  They take the zeros for the address, and an onion name comes back as zeros.

A host is text in UTF-8 without NULs, a Python number is a `Nat`, `none` is an exception.

* `NamedInet` -- `Inet`, for which a name is not an address.
* `PythonConnect` -- the class.
* `Packs` -- what comes back for a host.
* `connect_round_trips_iff` -- the remote hosts that come back.
-/
import Coinscope.Clients.ConnectionList
import Coinscope.Clients.PythonCommands
import Mathlib.Data.List.Infix

namespace Coinscope.Clients

open Coinscope.Shared
open Coinscope.Theory.Bytes
open Coinscope.Control

set_option autoImplicit false

/-! ## `class connect_msg` -/

/-- `host.replace('.onion', '')`, from the left; the fuel is the length of the host. -/
def replaceOnion : Nat → List UInt8 → List UInt8
  | 0, host => host
  | _ + 1, [] => []
  | fuel + 1, c :: rest =>
      if text ".onion" <+: c :: rest then replaceOnion fuel (rest.drop 5)
      else c :: replaceOnion fuel rest

/-- The payload; version and type are constants. -/
structure PythonConnect where
  payload : List UInt8
  deriving DecidableEq

namespace PythonConnect

/-- `connect_msg(remote_host, remote_port, local_host, local_port)`. -/
def new (i : Inet) (remoteHost : List UInt8) (remotePort : Nat) (localHost : List UInt8)
    (localPort : Nat) : PythonConnect :=
  let payload := makeWireAddr i remoteHost remotePort ++ makeWireAddr i localHost localPort
  if text ".onion" <:+: remoteHost then
    ⟨payload ++ replaceOnion remoteHost.length remoteHost⟩
  else ⟨payload⟩

/-- `serialize()`. -/
def serialize (m : PythonConnect) : Option (List UInt8) := do
  let version ← packB 0
  let length ← packI m.payload.length
  let type ← packB CONNECT.toNat
  some (version ++ length ++ type ++ m.payload)

/-- `deserialize(serialization)`. -/
def deserialize (i : Inet) (serialization : List UInt8) : Option PythonConnect :=
  if serialization.length < 6 then none
  else
    let version := ofBE (slice 0 1 serialization)
    let length := ofBE (slice 1 4 serialization)
    let type := ofBE (slice 5 1 serialization)
    let payload := serialization.drop 6
    if version ≠ 0 ∨ length ≠ payload.length ∨ type ≠ CONNECT.toNat then none
    else if payload.length < 38 then none
    else do
      let (rHost, rPort) ← parseWireAddr i (slice 0 19 payload)
      let (lHost, lPort) ← parseWireAddr i (slice 19 19 payload)
      some (new i rHost rPort lHost lPort)

/-- `remote_addr` and `remote_port`. -/
def remote (i : Inet) (m : PythonConnect) : Option (List UInt8 × Nat) :=
  parseWireAddr i (slice 0 19 m.payload)

/-- `local_addr` and `local_port`. -/
def localAddr (i : Inet) (m : PythonConnect) : Option (List UInt8 × Nat) :=
  parseWireAddr i (slice 19 19 m.payload)

end PythonConnect

/-! ## Hosts -/

/-- An onion name is not an address: `inet_pton` takes digits, dots and colons only. -/
structure NamedInet extends Inet where
  names : ∀ host : List UInt8, text ".onion" <:+: host →
    pton AF_INET host = none ∧ pton AF_INET6 host = none

/-- A dotted IPv4 address, as `inet_ntop` prints it. -/
def Dotted (i : Inet) (host : List UInt8) : Prop :=
  ∃ addr : List UInt8, addr.length = 4 ∧ host = i.ntop AF_INET addr

/-- A canonical IPv6 address, as `inet_ntop` prints it. -/
def CanonicalInet6 (i : Inet) (host : List UInt8) : Prop :=
  ∃ addr : List UInt8, addr.length = 16 ∧ host = i.ntop AF_INET6 addr

/-- What comes back for any onion name. -/
def zeroName : List UInt8 := List.replicate 32 48 ++ text ".onion"

/-- A host and a port are packed in 19 bytes, and this host is read from them. -/
structure Packs (i : Inet) (host : List UInt8) (port : Nat) (back : List UInt8) : Prop where
  size : (makeWireAddr i host port).length = 19
  read : parseWireAddr i (makeWireAddr i host port) = some (back, port)

/-- The port behind sixteen bytes, as in a `wire_addr`. -/
def wireOf (family : UInt8) (addr : List UInt8) (sixteen : addr.length = 16) (port : Nat) :
    WireAddr where
  family := family
  addr := addr
  port := [UInt8.ofNat (port >>> 8), UInt8.ofNat port]
  addrSize := sixteen
  portSize := rfl

/-- The host of these sixteen bytes. -/
def readHost (i : Inet) (family : UInt8) (addr : List UInt8) : Option (List UInt8) :=
  if family = ADDR_FAMILY_IPV4 then some (i.ntop AF_INET (addr.take 4))
  else if family = ADDR_FAMILY_IPV6 then some (i.ntop AF_INET6 addr)
  else if family = ADDR_FAMILY_ONION then some (addr.flatMap Globals.hexByte ++ text ".onion")
  else none

theorem ofBE_wireOf {family : UInt8} {addr : List UInt8} {sixteen : addr.length = 16} {port : Nat}
    (small : port < 65536) : ofBE (wireOf family addr sixteen port).port = port := by
  have two : (wireOf family addr sixteen port).port = be 2 port := by
    show [UInt8.ofNat (port >>> 8), UInt8.ofNat port] = be 2 port
    rw [Nat.shiftRight_eq_div_pow]
    rfl
  rw [two]
  exact ofBE_be_of_lt small

section Hosts

variable {host : List UInt8} {port : Nat} (small : port < 65536)

include small

theorem packs_of_wireOf {i : Inet} (family : UInt8) {addr back : List UInt8}
    (sixteen : addr.length = 16)
    (made : makeWireAddr i host port = (wireOf family addr sixteen port).bytes)
    (read : readHost i family addr = some back) : Packs i host port back := by
  refine ⟨by rw [made, WireAddr.length_bytes], ?_⟩
  have fields : parseWireAddr i (wireOf family addr sixteen port).bytes =
      (readHost i family addr).map fun back => (back, port) := by
    rw [parseWireAddr_bytes, ofBE_wireOf small, readHost]
    simp only [wireOf, apply_ite (Option.map _), Option.map_some, Option.map_none]
    rfl
  rw [made, fields, read]
  rfl

/-- A dotted address is read as it is. -/
theorem Dotted.packs {i : Inet} (dotted : Dotted i host) : Packs i host port host := by
  obtain ⟨addr, four, rfl⟩ := dotted
  have sixteen : (addr ++ List.replicate 12 0).length = 16 := by simp [four]
  refine packs_of_wireOf small ADDR_FAMILY_IPV4 sixteen ?_ ?_
  · rw [makeWireAddr, i.inet addr four]
    rfl
  · rw [readHost, if_pos rfl, List.take_left' four]

/-- So is an IPv6 address. -/
theorem CanonicalInet6.packs {i : Inet} (canonical : CanonicalInet6 i host) :
    Packs i host port host := by
  obtain ⟨addr, sixteen, rfl⟩ := canonical
  refine packs_of_wireOf small ADDR_FAMILY_IPV6 sixteen ?_ ?_
  · rw [makeWireAddr, i.apart addr sixteen, i.inet6 addr sixteen]
    rfl
  · rw [readHost, if_neg (by decide), if_pos rfl]

/-- A name is read as zeros. -/
theorem packs_onion (i : NamedInet) (onion : text ".onion" <:+: host) :
    Packs i.toInet host port zeroName := by
  obtain ⟨inet, inet6⟩ := i.names host onion
  refine packs_of_wireOf small ADDR_FAMILY_ONION
    (List.length_replicate (n := 16) (a := (0 : UInt8))) ?_ ?_
  · rw [makeWireAddr, inet, inet6]
    rfl
  · have zeros : (List.replicate 16 (0 : UInt8)).flatMap Globals.hexByte ++ text ".onion" =
        zeroName := by
      decide +kernel
    rw [readHost, if_neg (by decide), if_neg (by decide), if_pos rfl, zeros]

end Hosts

/-! ## The message -/

namespace PythonConnect

section Accessors

variable {i : Inet} {remoteHost localHost : List UInt8} {remotePort localPort : Nat}

/-- The name behind the two addresses. -/
def nameOf (host : List UInt8) : List UInt8 :=
  if text ".onion" <:+: host then replaceOnion host.length host else []

theorem payload_new : (new i remoteHost remotePort localHost localPort).payload =
    makeWireAddr i remoteHost remotePort ++ makeWireAddr i localHost localPort ++
      nameOf remoteHost := by
  rw [new, nameOf]
  split
  · rfl
  · exact (List.append_nil _).symm

variable {remoteBack localBack : List UInt8} (remoteKnown : Packs i remoteHost remotePort remoteBack)

include remoteKnown

/-- The accessors look at the two addresses only. -/
theorem remote_new :
    (new i remoteHost remotePort localHost localPort).remote i = some (remoteBack, remotePort) := by
  rw [remote, payload_new, List.append_assoc, slice, List.drop_zero,
    List.take_left' remoteKnown.size, remoteKnown.read]

variable (localKnown : Packs i localHost localPort localBack)

include localKnown

theorem localAddr_new :
    (new i remoteHost remotePort localHost localPort).localAddr i = some (localBack, localPort) := by
  rw [localAddr, payload_new, slice_here remoteKnown.size localKnown.size, localKnown.read]

theorem length_payload_new : (new i remoteHost remotePort localHost localPort).payload.length =
    38 + (nameOf remoteHost).length := by
  rw [payload_new, List.length_append, List.length_append, remoteKnown.size, localKnown.size]

end Accessors

theorem serialize_eq {m : PythonConnect} (small : m.payload.length < 2 ^ 32) :
    m.serialize = some (EasyMessage.layout CONNECT m.payload.length m.payload) := by
  have zero : packB 0 = some [0] := rfl
  have length : packI m.payload.length = some (be 4 m.payload.length) := if_pos small
  simp only [serialize, zero, length, packB_toNat, Option.bind_eq_bind, Option.bind_some,
    EasyMessage.layout]

/-- `deserialize` makes a new message of what the accessors return. -/
theorem deserialize_layout {i : Inet} {payload : List UInt8} (small : payload.length < 2 ^ 32)
    (long : 38 ≤ payload.length) {rHost lHost : List UInt8} {rPort lPort : Nat}
    (remote : parseWireAddr i (slice 0 19 payload) = some (rHost, rPort))
    (localAddr : parseWireAddr i (slice 19 19 payload) = some (lHost, lPort)) :
    deserialize i (EasyMessage.layout CONNECT payload.length payload) =
      some (new i rHost rPort lHost lPort) := by
  have rest : (EasyMessage.layout CONNECT payload.length payload).drop 6 = payload :=
    congrArg Prod.snd (EasyMessage.content_layout CONNECT payload.length payload)
  have length : ofBE (slice 1 4 (EasyMessage.layout CONNECT payload.length payload)) =
      payload.length := by
    have field := EasyMessage.messageLength_layout CONNECT payload.length payload []
    rw [List.append_nil] at field
    exact field.trans (Nat.mod_eq_of_lt small)
  have header : ¬ (EasyMessage.layout CONNECT payload.length payload).length < 6 := by
    rw [EasyMessage.length_layout]
    exact Nat.not_lt.2 (Nat.le_add_right ..)
  have version : ofBE (slice 0 1 (EasyMessage.layout CONNECT payload.length payload)) = 0 := rfl
  have type : ofBE (slice 5 1 (EasyMessage.layout CONNECT payload.length payload)) =
      CONNECT.toNat := rfl
  rw [deserialize, if_neg header]
  simp only [rest, length, version, type, ne_eq, not_true_eq_false, or_self, if_false]
  rw [if_neg (by omega), remote, localAddr]
  rfl

/-- A message comes back with what the accessors return, as the same bytes, and the remote address
is the one it was made with. -/
def RoundTrips (i : Inet) (remoteHost : List UInt8) (remotePort : Nat) (localHost : List UInt8)
    (localPort : Nat) : Prop :=
  let m := new i remoteHost remotePort localHost localPort
  ∃ bytes m' remote localAddr, m.serialize = some bytes ∧ deserialize i bytes = some m' ∧
    m.remote i = some remote ∧ m'.remote i = some remote ∧
    m.localAddr i = some localAddr ∧ m'.localAddr i = some localAddr ∧
    m'.serialize = some bytes ∧ remote.1 = remoteHost

/-- Where hosts are read as they are, the message comes back. -/
theorem roundTrips_of_packs {i : Inet} {remoteHost localHost : List UInt8}
    {remotePort localPort : Nat} (remoteKnown : Packs i remoteHost remotePort remoteHost)
    (localKnown : Packs i localHost localPort localHost)
    (short : (nameOf remoteHost).length < 2 ^ 31) :
    RoundTrips i remoteHost remotePort localHost localPort := by
  have length := length_payload_new remoteKnown localKnown
  have small : (new i remoteHost remotePort localHost localPort).payload.length < 2 ^ 32 := by
    omega
  have remote : (new i remoteHost remotePort localHost localPort).remote i =
      some (remoteHost, remotePort) := remote_new remoteKnown
  have localAddr := localAddr_new remoteKnown localKnown
  exact ⟨_, _, _, _, serialize_eq small, deserialize_layout small (by omega) remote localAddr,
    remote, remote, localAddr, localAddr, serialize_eq small, rfl⟩

/-- Nothing stands behind the addresses for a host that is one. -/
theorem nameOf_address {i : NamedInet} {host : List UInt8}
    (address : Dotted i.toInet host ∨ CanonicalInet6 i.toInet host) : nameOf host = [] := by
  refine if_neg fun onion => ?_
  obtain ⟨inet, inet6⟩ := i.names host onion
  rcases address with ⟨addr, four, rfl⟩ | ⟨addr, sixteen, rfl⟩
  · cases (i.inet addr four).symm.trans inet
  · cases (i.inet6 addr sixteen).symm.trans inet6

theorem nameOf_zeroName : (nameOf zeroName).length < 2 ^ 31 := by
  decide +kernel

end PythonConnect

/-- A message comes back exactly if its remote host is an address, or the one name that stands for
all names. -/
theorem connect_round_trips_iff (i : NamedInet) (remoteHost : List UInt8) (remotePort : Nat)
    (localHost : List UInt8) (localPort : Nat)
    (remote : Dotted i.toInet remoteHost ∨ CanonicalInet6 i.toInet remoteHost ∨
      text ".onion" <:+ remoteHost)
    (localAddr : Dotted i.toInet localHost) (smallRemote : remotePort < 65536)
    (smallLocal : localPort < 65536) :
    PythonConnect.RoundTrips i.toInet remoteHost remotePort localHost localPort ↔
      ¬ text ".onion" <:+ remoteHost ∨ remoteHost = zeroName := by
  have localKnown := localAddr.packs smallLocal
  constructor
  · rintro ⟨bytes, m', remote', -, -, -, got, -, -, -, -, same⟩
    by_cases onion : text ".onion" <:+ remoteHost
    · right
      have zeros := packs_onion smallRemote i onion.isInfix
      rw [PythonConnect.remote_new zeros] at got
      rw [← same, ← Option.some.inj got]
    · exact Or.inl onion
  · rintro (address | rfl)
    · have known : Packs i.toInet remoteHost remotePort remoteHost ∧
          PythonConnect.nameOf remoteHost = [] := by
        rcases remote with dotted | canonical | onion
        · exact ⟨dotted.packs smallRemote, PythonConnect.nameOf_address (Or.inl dotted)⟩
        · exact ⟨canonical.packs smallRemote, PythonConnect.nameOf_address (Or.inr canonical)⟩
        · exact absurd onion address
      refine PythonConnect.roundTrips_of_packs known.1 localKnown ?_
      rw [known.2]
      exact Nat.two_pow_pos 31
    · have onion : text ".onion" <:+: zeroName := (List.suffix_append ..).isInfix
      exact PythonConnect.roundTrips_of_packs (packs_onion smallRemote i onion) localKnown
        PythonConnect.nameOf_zeroName

/-- No `o` is in a printed address. -/
theorem not_mem_plainNtop (family : Nat) (addr : List UInt8) :
    (111 : UInt8) ∉ plainNtop family addr := by
  rw [plainNtop]
  split
  · refine not_mem_intercalate (by decide) fun part member => ?_
    obtain ⟨b, -, rfl⟩ := List.mem_map.1 member
    exact (not_mem_digits (by decide) (by decide) b.toNat).2.2
  · refine not_mem_intercalate (by decide) fun part member => ?_
    obtain ⟨n, -, rfl⟩ := List.mem_map.1 member
    exact (not_mem_digits (by decide) (by decide) n).2.2

/-- `plainInet`, with names refused. -/
def namedInet : NamedInet where
  ntop := plainNtop
  pton family host := if 111 ∈ host then none else plainPton family host
  inet addr four := (if_neg (not_mem_plainNtop _ _)).trans (plainInet.inet addr four)
  inet6 addr sixteen := (if_neg (not_mem_plainNtop _ _)).trans (plainInet.inet6 addr sixteen)
  apart addr sixteen := (if_neg (not_mem_plainNtop _ _)).trans (plainInet.apart addr sixteen)
  names host onion := by
    have member : (111 : UInt8) ∈ host := onion.subset (by decide)
    exact ⟨if_pos member, if_pos member⟩

/-- An IPv6 address comes back from `10.0.0.1`. -/
theorem connect_round_trips_iff_inet6 :
    PythonConnect.RoundTrips namedInet.toInet (text "2001:db8:1:2:3:4:5:6") 8333 (text "10.0.0.1")
      0 := by
  refine (connect_round_trips_iff namedInet _ _ _ _ (Or.inr (Or.inl ?_)) ?_ (by decide)
    (by decide)).2 (Or.inl (by decide))
  · exact ⟨[0x20, 1, 0xd, 0xb8, 0, 1, 0, 2, 0, 3, 0, 4, 0, 5, 0, 6], rfl, by decide +kernel⟩
  · exact ⟨[10, 0, 0, 1], rfl, by decide +kernel⟩

/-- An onion name does not: `remote_addr` is zeros. -/
theorem onion_name_lost :
    (text ".onion" <:+ text "expyuzz4wqqyqhjn.onion" ∧
      Dotted namedInet.toInet (text "10.0.0.1")) ∧
      ¬ PythonConnect.RoundTrips namedInet.toInet (text "expyuzz4wqqyqhjn.onion") 8333
        (text "10.0.0.1") 0 := by
  have onion : text ".onion" <:+ text "expyuzz4wqqyqhjn.onion" := by decide
  refine ⟨⟨onion, [10, 0, 0, 1], rfl, by decide +kernel⟩, ?_⟩
  rintro ⟨bytes, m', remote, -, -, -, got, -, -, -, -, same⟩
  have zeros : Packs namedInet.toInet (text "expyuzz4wqqyqhjn.onion") 8333 zeroName :=
    packs_onion (by decide) namedInet onion.isInfix
  rw [PythonConnect.remote_new zeros] at got
  rw [← Option.some.inj got] at same
  exact absurd same (by decide +kernel)

end Coinscope.Clients

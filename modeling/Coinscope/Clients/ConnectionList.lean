/-
# Clients.ConnectionList -- reading the table of connections back

COMMAND_GET_CXN answers with a length and one 42-byte record for every active handler.
The C++ clients read the length and then record after record (`get_all_cxn`); the Python
library takes a record apart (`connection_info.deserialize`), prints the two addresses,
parses what it printed, and takes the result apart again when it is asked for a field.

The connector computes the length in a `uint32_t`.

* `Inet` -- `inet_ntop` and `inet_pton`, and what the library relies on.
* `getAllCxn`, `ConnectionInfo.deserialize` -- the two readers.
* `deserialize_connectionInfo` -- a record comes back as the handler it was made for.
* `connection_list_iff` -- when the whole table does.
-/
import Coinscope.Control.Globals
import Coinscope.Control.Addresses

namespace Coinscope.Clients

open Coinscope.Shared
open Coinscope.Theory.Bytes
open Coinscope.Control
open Std (TreeMap)

set_option autoImplicit false

/-! ## The C++ clients -/

/-- The loop of `get_all_cxn`; `none` is an exception. -/
def recordLoop (len : Nat) (stream : List UInt8) : Option (List (List UInt8)) :=
  if len > 0 then
    if stream.length < 42 then none
    else do
      let rest ← recordLoop (len - 42) (stream.drop 42)
      some (stream.take 42 :: rest)
  else some []
termination_by len

/-- `get_all_cxn`, on what the socket delivers behind the command; the records are what the
callback is called with.  The assertion compares a quotient of doubles with one of integers:
they are the same exactly for multiples. -/
def getAllCxn (stream : List UInt8) : Option (List (List UInt8)) :=
  if stream = [] then some []
  else if stream.length < 4 then none
  else
    let len := ofBE (stream.take 4)
    if len % 42 ≠ 0 then none
    else if len / 42 = 0 then some []
    else recordLoop len (stream.drop 4)

/-! ## The Python library -/

/-- `socket.inet_ntop` and `socket.inet_pton` by family; `none` is `socket.error`.  What was
printed is parsed as what it was, and an IPv6 address is never printed as an IPv4 address. -/
structure Inet where
  ntop : Nat → List UInt8 → List UInt8
  pton : Nat → List UInt8 → Option (List UInt8)
  inet : ∀ addr : List UInt8, addr.length = 4 → pton AF_INET (ntop AF_INET addr) = some addr
  inet6 : ∀ addr : List UInt8, addr.length = 16 → pton AF_INET6 (ntop AF_INET6 addr) = some addr
  apart : ∀ addr : List UInt8, addr.length = 16 → pton AF_INET (ntop AF_INET6 addr) = none

/-- `make_wire_addr(host, port)`. -/
def makeWireAddr (i : Inet) (host : List UInt8) (port : Nat) : List UInt8 :=
  let front := match i.pton AF_INET host with
    | some packed => ADDR_FAMILY_IPV4 :: (packed ++ List.replicate 12 0)
    | none =>
        match i.pton AF_INET6 host with
        | some packed => ADDR_FAMILY_IPV6 :: packed
        | none => ADDR_FAMILY_ONION :: List.replicate 16 0
  front ++ [UInt8.ofNat (port >>> 8), UInt8.ofNat port]

/-- `parse_wire_addr(data)`; `none` is an exception. -/
def parseWireAddr (i : Inet) (data : List UInt8) : Option (List UInt8 × Nat) :=
  match data[0]?, data[17]?, data[18]? with
  | some fam, some high, some low =>
      let port := (high.toNat <<< 8) ||| low.toNat
      let addrBytes := slice 1 16 data
      if fam = ADDR_FAMILY_IPV4 then some (i.ntop AF_INET (addrBytes.take 4), port)
      else if fam = ADDR_FAMILY_IPV6 then some (i.ntop AF_INET6 (addrBytes.take 16), port)
      else if fam = ADDR_FAMILY_ONION then
        some ((addrBytes.take 16).flatMap Globals.hexByte ++ text ".onion", port)
      else none
  | _, _, _ => none

/-- `class connection_info`. -/
structure ConnectionInfo where
  handleId : Nat
  payload : List UInt8
  deriving DecidableEq

/-- What the attributes of a `connection_info` say. -/
structure Entry where
  handleId : Nat
  remoteAddr : List UInt8
  remotePort : Nat
  localAddr : List UInt8
  localPort : Nat
  deriving DecidableEq

namespace ConnectionInfo

/-- `connection_info(handle_id, remote_host, remote_port, local_host, local_port)`. -/
def new (i : Inet) (handleId : Nat) (remoteHost : List UInt8) (remotePort : Nat)
    (localHost : List UInt8) (localPort : Nat) : ConnectionInfo :=
  ⟨handleId, makeWireAddr i remoteHost remotePort ++ makeWireAddr i localHost localPort⟩

/-- `connection_info.deserialize(serialization)`; `none` is an exception. -/
def deserialize (i : Inet) (serialization : List UInt8) : Option ConnectionInfo := do
  if (serialization.take 4).length ≠ 4 then none
  else
    let wireData := serialization.drop 4
    if wireData.length < 38 then none
    else
      let remote ← parseWireAddr i (slice 0 19 wireData)
      let localAddr ← parseWireAddr i (slice 19 19 wireData)
      some (new i (ofBE (serialization.take 4)) remote.1 remote.2 localAddr.1 localAddr.2)

/-- The properties `remote_addr`, `remote_port`, `local_addr` and `local_port`. -/
def entry (i : Inet) (c : ConnectionInfo) : Option Entry := do
  let remote ← parseWireAddr i (slice 0 19 c.payload)
  let localAddr ← parseWireAddr i (slice 19 19 c.payload)
  some ⟨c.handleId, remote.1, remote.2, localAddr.1, localAddr.2⟩

end ConnectionInfo

/-- Both readers, one behind the other. -/
def decode (i : Inet) (stream : List UInt8) : Option (List Entry) := do
  let records ← getAllCxn stream
  records.mapM fun record => (ConnectionInfo.deserialize i record).bind (ConnectionInfo.entry i)

/-! ## What should be read -/

/-- An IPv4 or an IPv6 address. -/
def Internet (ss : SockaddrStorage) : Prop := ss.family = AF_INET ∨ ss.family = AF_INET6

/-- The address in print. -/
def hostOf (i : Inet) (ss : SockaddrStorage) : List UInt8 :=
  if ss.family = AF_INET then i.ntop AF_INET ss.sinAddr else i.ntop AF_INET6 ss.sin6Addr

/-- What there is to say about a handler. -/
def entryOf (i : Inet) (id : UInt32) (h : Connector.Handler) : Entry where
  handleId := id.toNat
  remoteAddr := hostOf i h.remoteAddr
  remotePort := ofBE h.remoteAddr.port
  localAddr := hostOf i h.localAddr
  localPort := ofBE h.localAddr.port

/-- One entry for every active handler, in the order of the ids. -/
def listing (i : Inet) (g : Globals) : List Entry :=
  g.activeHandlers.toList.map fun entry => entryOf i entry.1 entry.2

/-! ## One record -/

theorem length_port (ss : SockaddrStorage) : ss.port.length = 2 :=
  slice_length (by rw [ss.size]; decide)

theorem length_sinAddr (ss : SockaddrStorage) : ss.sinAddr.length = 4 :=
  slice_length (by rw [ss.size]; decide)

/-- The fields of a `wire_addr`, as `parse_wire_addr` finds them. -/
theorem parseWireAddr_bytes (i : Inet) (wa : WireAddr) :
    parseWireAddr i wa.bytes =
      if wa.family = ADDR_FAMILY_IPV4 then some (i.ntop AF_INET (wa.addr.take 4), ofBE wa.port)
      else if wa.family = ADDR_FAMILY_IPV6 then some (i.ntop AF_INET6 wa.addr, ofBE wa.port)
      else if wa.family = ADDR_FAMILY_ONION then
        some (wa.addr.flatMap Globals.hexByte ++ text ".onion", ofBE wa.port)
      else none := by
  obtain ⟨family, addr, port, addrSize, portSize⟩ := wa
  match port, portSize with
  | [high, low], _ =>
      have whole : addr.take 16 = addr := List.take_of_length_le (by omega)
      have middle : slice 1 16 (family :: (addr ++ [high, low])) = addr := by
        show (addr ++ [high, low]).take 16 = addr
        exact List.take_left' addrSize
      have seventeen : (family :: (addr ++ [high, low]))[17]? = some high := by
        rw [List.getElem?_cons_succ, List.getElem?_append_right (by omega), addrSize]
        rfl
      have eighteen : (family :: (addr ++ [high, low]))[18]? = some low := by
        rw [List.getElem?_cons_succ, List.getElem?_append_right (by omega), addrSize]
        rfl
      have number : (high.toNat <<< 8) ||| low.toNat = ofBE [high, low] := by
        rw [← Nat.shiftLeft_add_eq_or_of_lt low.toNat_lt, Nat.shiftLeft_eq]
        simp [ofBE, ofLE]
        omega
      simp only [WireAddr.bytes, parseWireAddr, List.getElem?_cons_zero, seventeen, eighteen,
        middle, number, whole]

/-- An address is read as it is. -/
theorem parseWireAddr_sockaddr (i : Inet) {ss : SockaddrStorage} (internet : Internet ss) :
    parseWireAddr i (sockaddrToWire ss).bytes = some (hostOf i ss, ofBE ss.port) := by
  rw [parseWireAddr_bytes, hostOf]
  rcases internet with inet | inet6
  · simp only [sockaddrToWire, inet, if_true]
    rw [List.take_left' (length_sinAddr ss)]
  · have other : ¬ AF_INET6 = AF_INET := by decide
    have other' : ¬ ADDR_FAMILY_IPV6 = ADDR_FAMILY_IPV4 := by decide
    simp only [sockaddrToWire, inet6, if_neg other, if_true, if_neg other']

/-- What is printed is packed as it was. -/
theorem makeWireAddr_hostOf (i : Inet) {ss : SockaddrStorage} (internet : Internet ss) :
    makeWireAddr i (hostOf i ss) (ofBE ss.port) = (sockaddrToWire ss).bytes := by
  have sixteen : ss.sin6Addr.length = 16 := slice_length (by rw [ss.size]; decide)
  rw [makeWireAddr, be_ofBE_two (length_port ss), hostOf, sockaddrToWire]
  rcases internet with inet | inet6
  · simp only [inet, if_true, i.inet _ (length_sinAddr ss)]
    rfl
  · have other : ¬ ss.family = AF_INET := by rw [inet6]; decide
    simp only [if_neg other, if_pos inet6, i.apart _ sixteen, i.inet6 _ sixteen]
    rfl

theorem slice_remote (a b : WireAddr) : slice 0 19 (a.bytes ++ b.bytes) = a.bytes :=
  List.take_left' a.length_bytes

theorem slice_local (a b : WireAddr) : slice 19 19 (a.bytes ++ b.bytes) = b.bytes := by
  have first := a.length_bytes
  have second := b.length_bytes
  rw [slice, List.drop_left' first, List.take_of_length_le (by omega)]

section Record

variable (i : Inet) {remote localAddr : SockaddrStorage} (remoteKnown : Internet remote)
  (localKnown : Internet localAddr)

include remoteKnown localKnown

/-- The object has the id and the two addresses as they were sent. -/
theorem deserialize_connectionInfo (id : UInt32) :
    ConnectionInfo.deserialize i (connectionInfo id remote localAddr) =
      some ⟨id.toNat, (sockaddrToWire remote).bytes ++ (sockaddrToWire localAddr).bytes⟩ := by
  have four : (be 4 id.toNat).length = 4 := length_be ..
  have number : ofBE (be 4 id.toNat) = id.toNat := ofBE_be_of_lt id.toNat_lt
  have long : ¬ ((sockaddrToWire remote).bytes ++ (sockaddrToWire localAddr).bytes).length < 38 := by
    rw [List.length_append, WireAddr.length_bytes, WireAddr.length_bytes]
    decide
  unfold ConnectionInfo.deserialize connectionInfo
  rw [List.append_assoc, List.take_left' four, List.drop_left' four, if_neg (by simp), number]
  simp only [if_neg long, slice_remote, slice_local, parseWireAddr_sockaddr i remoteKnown,
    parseWireAddr_sockaddr i localKnown, Option.bind_eq_bind, Option.bind_some, ConnectionInfo.new,
    makeWireAddr_hostOf i remoteKnown, makeWireAddr_hostOf i localKnown]

/-- Its attributes are the printed addresses and the ports. -/
theorem entry_payload (handleId : Nat) :
    ConnectionInfo.entry i
      ⟨handleId, (sockaddrToWire remote).bytes ++ (sockaddrToWire localAddr).bytes⟩ =
      some ⟨handleId, hostOf i remote, ofBE remote.port, hostOf i localAddr,
        ofBE localAddr.port⟩ := by
  simp only [ConnectionInfo.entry, slice_remote, slice_local, parseWireAddr_sockaddr i remoteKnown,
    parseWireAddr_sockaddr i localKnown, Option.bind_eq_bind, Option.bind_some]

end Record

/-! ## The table -/

/-- As many records as are announced are read, and nothing behind them. -/
theorem recordLoop_flatten (records : List (List UInt8)) (size : ∀ r ∈ records, r.length = 42) :
    recordLoop (42 * records.length) records.flatten = some records := by
  induction records with
  | nil =>
      rw [recordLoop]
      rfl
  | cons r records ih =>
      have here : r.length = 42 := size r List.mem_cons_self
      have later := ih fun s member => size s (List.mem_cons_of_mem _ member)
      have less : 42 * (records.length + 1) - 42 = 42 * records.length := by omega
      rw [recordLoop, List.length_cons, List.flatten_cons, if_pos (by omega),
        if_neg (by rw [List.length_append]; omega), List.take_left' here, List.drop_left' here, less,
        later]
      rfl

/-- However much there is to read, the number of records is the announced one. -/
theorem length_of_recordLoop {len : Nat} {stream : List UInt8} {records : List (List UInt8)}
    (read : recordLoop len stream = some records) (multiple : len % 42 = 0) :
    42 * records.length = len := by
  induction len using Nat.strongRecOn generalizing stream records with
  | ind len ih =>
      rw [recordLoop] at read
      split at read
      · split at read
        · cases read
        · rename_i positive _
          obtain ⟨rest, later, last⟩ := Option.bind_eq_some_iff.1 read
          cases last
          have behind := ih (len - 42) (by omega) later (by omega)
          rw [List.length_cons]
          omega
      · cases read
        rw [List.length_nil]
        omega

section Table

variable {header : List UInt8} (four : header.length = 4)

include four

theorem getAllCxn_header (stream : List UInt8) :
    getAllCxn (header ++ stream) =
      if ofBE header % 42 ≠ 0 then none
      else if ofBE header / 42 = 0 then some []
      else recordLoop (ofBE header) stream := by
  have some_ : header ++ stream ≠ [] := by
    intro none_
    have size := congrArg List.length none_
    rw [List.length_append, List.length_nil] at size
    omega
  have long : ¬ (header ++ stream).length < 4 := by
    rw [List.length_append]
    omega
  unfold getAllCxn
  rw [if_neg some_, if_neg long, List.take_left' four, List.drop_left' four]

theorem getAllCxn_flatten {records : List (List UInt8)} (size : ∀ r ∈ records, r.length = 42)
    (announced : ofBE header = 42 * records.length) :
    getAllCxn (header ++ records.flatten) = some records := by
  rw [getAllCxn_header four, announced, if_neg (by omega)]
  split
  · have none_ : records.length = 0 := by omega
    rw [List.length_eq_zero_iff.1 none_]
  · exact recordLoop_flatten records size

theorem length_of_getAllCxn {stream : List UInt8} {records : List (List UInt8)}
    (read : getAllCxn (header ++ stream) = some records) : 42 * records.length = ofBE header := by
  rw [getAllCxn_header four] at read
  split at read
  · cases read
  · split at read
    · cases read
      rw [List.length_nil]
      omega
    · exact length_of_recordLoop read (by omega)

end Table

theorem mapM_of_forall {α β : Type} {f : α → Option β} {result : α → β} {l : List α}
    (each : ∀ x ∈ l, f x = some (result x)) : l.mapM f = some (l.map result) := by
  induction l with
  | nil => rfl
  | cons x l ih =>
      have later := ih fun y member => each y (List.mem_cons_of_mem _ member)
      rw [List.mapM_cons, each x List.mem_cons_self, later]
      rfl

theorem length_of_mapM {α β : Type} {f : α → Option β} {l : List α} {results : List β}
    (all : l.mapM f = some results) : results.length = l.length := by
  induction l generalizing results with
  | nil =>
      cases all
      rfl
  | cons x l ih =>
      rw [List.mapM_cons] at all
      obtain ⟨first, -, rest⟩ := Option.bind_eq_some_iff.1 all
      obtain ⟨others, later, last⟩ := Option.bind_eq_some_iff.1 rest
      cases last
      rw [List.length_cons, List.length_cons, ih later]

/-- The records of the table. -/
def recordsOf (g : Globals) : List (List UInt8) :=
  g.activeHandlers.toList.map fun entry =>
    connectionInfo entry.1 entry.2.remoteAddr entry.2.localAddr

theorem connections_eq (g : Globals) :
    g.connections = be 4 (42 * g.activeHandlers.size) ++ (recordsOf g).flatten := by
  rw [Globals.connections, recordsOf, List.flatMap_def]

theorem length_recordsOf (g : Globals) : (recordsOf g).length = g.activeHandlers.size := by
  rw [recordsOf, List.length_map, TreeMap.length_toList]

theorem size_recordsOf (g : Globals) : ∀ r ∈ recordsOf g, r.length = 42 := by
  intro r member
  obtain ⟨entry, -, rfl⟩ := List.mem_map.1 member
  exact length_connectionInfo ..

/-- The table has a record of 42 bytes for every active handler behind their length, and is
read as one entry for every active handler, in the order of the ids. -/
structure Lists (i : Inet) (g : Globals) : Prop where
  framed : ∃ records : List (List UInt8), records.length = g.activeHandlers.size ∧
    (∀ r ∈ records, r.length = 42) ∧
    g.connections = be 4 (42 * g.activeHandlers.size) ++ records.flatten
  decoded : decode i g.connections = some (listing i g)
  ascending : ((listing i g).map Entry.handleId).Pairwise (· < ·)

theorem listing_ascending (i : Inet) (g : Globals) :
    ((listing i g).map Entry.handleId).Pairwise (· < ·) := by
  rw [listing, List.map_map, List.pairwise_map]
  refine g.activeHandlers.ordered_keys_toList.imp ?_
  intro a b before
  exact UInt32.lt_iff_toNat_lt.1 (Std.compare_eq_lt.1 before)

/-- For every set of active handlers with IPv4 and IPv6 addresses the table is framed and read
as it should be exactly if its length fits the length field. -/
theorem connection_list_iff (i : Inet) (g : Globals)
    (internet : ∀ entry ∈ g.activeHandlers.toList,
      Internet entry.2.remoteAddr ∧ Internet entry.2.localAddr) :
    Lists i g ↔ 42 * g.activeHandlers.size < 2 ^ 32 := by
  have four : (be 4 (42 * g.activeHandlers.size)).length = 4 := length_be ..
  have announced := ofBE_be 4 (42 * g.activeHandlers.size)
  constructor
  · intro lists
    -- the length field alone says how many records are read, whatever is behind it
    have decoded := lists.decoded
    rw [connections_eq] at decoded
    obtain ⟨records, read, entries⟩ := Option.bind_eq_some_iff.1 decoded
    have count := length_of_getAllCxn four read
    have all : (listing i g).length = records.length := length_of_mapM entries
    rw [listing, List.length_map, TreeMap.length_toList] at all
    rw [announced, ← all] at count
    have small : 42 * g.activeHandlers.size % 256 ^ 4 < 256 ^ 4 := Nat.mod_lt _ (by decide)
    omega
  · intro fits
    refine ⟨⟨recordsOf g, length_recordsOf g, size_recordsOf g, connections_eq g⟩, ?_,
      listing_ascending i g⟩
    have read : getAllCxn g.connections = some (recordsOf g) := by
      rw [connections_eq]
      apply getAllCxn_flatten four (size_recordsOf g)
      rw [announced, length_recordsOf, Nat.mod_eq_of_lt (by omega)]
    rw [decode, read]
    show (recordsOf g).mapM _ = _
    rw [recordsOf, List.mapM_map]
    apply mapM_of_forall
    intro entry member
    obtain ⟨remote, localAddr⟩ := internet entry member
    show (ConnectionInfo.deserialize i _).bind _ = _
    rw [deserialize_connectionInfo i remote localAddr, Option.bind_some,
      entry_payload i remote localAddr]
    rfl

/-! ## Addresses in print, for worked tables -/

/-- The value of a digit. -/
def digitValue (c : UInt8) : Nat := if c ≤ 57 then c.toNat - 48 else c.toNat - 87

/-- The number some digits make. -/
def number (base : Nat) (digits : List UInt8) : Nat :=
  digits.foldl (fun n c => base * n + digitValue c) 0

theorem digitChar_spec : ∀ d < 16,
    digitValue (UInt8.ofNat (Nat.digitChar d).toNat) = d ∧
      UInt8.ofNat (Nat.digitChar d).toNat ≠ 46 ∧ UInt8.ofNat (Nat.digitChar d).toNat ≠ 58 ∧
      UInt8.ofNat (Nat.digitChar d).toNat ≠ 111 := by
  decide

section Digits

variable {base : Nat} (least : 1 < base)

include least

/-- A printed number is read back. -/
theorem number_digits (most : base ≤ 16) (n : Nat) :
    number base (ascii (Nat.toDigits base n)) = n := by
  induction n using Nat.strongRecOn with
  | ind n ih =>
      by_cases small : n < base
      · rw [Nat.toDigits_of_lt_base small]
        simp [number, ascii, (digitChar_spec n (by omega)).1]
      · have last := Nat.mod_lt n (show base > 0 by omega)
        rw [Nat.toDigits_of_base_le least (by omega), ascii, List.map_append, number,
          List.foldl_append]
        show base * number base (ascii (Nat.toDigits base (n / base))) + digitValue _ = n
        rw [ih (n / base) (Nat.div_lt_self (by omega) least), (digitChar_spec _ (by omega)).1]
        exact Nat.div_add_mod n base

/-- It is made of digits. -/
theorem digit_of_mem {n : Nat} {c : UInt8} (member : c ∈ ascii (Nat.toDigits base n)) :
    ∃ d < base, c = UInt8.ofNat (Nat.digitChar d).toNat := by
  induction n using Nat.strongRecOn with
  | ind n ih =>
      by_cases small : n < base
      · rw [Nat.toDigits_of_lt_base small] at member
        exact ⟨n, small, List.mem_singleton.1 member⟩
      · rw [Nat.toDigits_of_base_le least (by omega), ascii, List.map_append,
          List.mem_append] at member
        rcases member with front | last
        · exact ih (n / base) (Nat.div_lt_self (by omega) least) front
        · exact ⟨n % base, Nat.mod_lt n (by omega), List.mem_singleton.1 last⟩

end Digits

/-- No dot, colon or `o` is in a printed number. -/
theorem not_mem_digits {base : Nat} (least : 1 < base) (most : base ≤ 16) (n : Nat) :
    (46 : UInt8) ∉ ascii (Nat.toDigits base n) ∧ (58 : UInt8) ∉ ascii (Nat.toDigits base n) ∧
      (111 : UInt8) ∉ ascii (Nat.toDigits base n) := by
  refine ⟨fun member => ?_, fun member => ?_, fun member => ?_⟩
  · obtain ⟨d, small, same⟩ := digit_of_mem least member
    exact (digitChar_spec d (by omega)).2.1 same.symm
  · obtain ⟨d, small, same⟩ := digit_of_mem least member
    exact (digitChar_spec d (by omega)).2.2.1 same.symm
  · obtain ⟨d, small, same⟩ := digit_of_mem least member
    exact (digitChar_spec d (by omega)).2.2.2 same.symm

/-- What is in neither the separator nor a part is not in the whole. -/
theorem not_mem_intercalate {separator c : UInt8} (other : c ≠ separator)
    {parts : List (List UInt8)} (clean : ∀ part ∈ parts, c ∉ part) :
    c ∉ [separator].intercalate parts := by
  induction parts with
  | nil => simp
  | cons part rest ih =>
      have here := clean part List.mem_cons_self
      have behind := ih fun p member => clean p (List.mem_cons_of_mem _ member)
      by_cases last : rest = []
      · rw [last, List.intercalate_singleton]
        exact here
      · rw [List.intercalate_cons_of_ne_nil last, List.mem_append, List.mem_append,
          List.mem_singleton]
        exact fun member => member.elim (fun front => front.elim here other) behind

/-- Sixteen-bit groups in network byte order. -/
def groups : List UInt8 → List Nat
  | high :: low :: rest => ofBE [high, low] :: groups rest
  | _ => []

/-- Four numbers and dots; eight hexadecimal numbers and colons, with no zeros left out. -/
def plainNtop (family : Nat) (addr : List UInt8) : List UInt8 :=
  if family = AF_INET then [46].intercalate (addr.map fun b => decimal b.toNat)
  else [58].intercalate ((groups addr).map hexadecimal)

def plainPton (family : Nat) (host : List UInt8) : Option (List UInt8) :=
  if family = AF_INET then
    if (host.splitOn 46).length = 4 then
      some ((host.splitOn 46).map fun part => UInt8.ofNat (number 10 part))
    else none
  else if (host.splitOn 58).length = 8 then
    some ((host.splitOn 58).flatMap fun part => be 2 (number 16 part))
  else none

theorem splitOn_parts {separator : UInt8} {α : Type} (values : List α) (digits : α → List UInt8)
    (some_ : values ≠ []) (clean : ∀ v ∈ values, separator ∉ digits v) :
    ([separator].intercalate (values.map digits)).splitOn separator = values.map digits := by
  apply List.splitOn_intercalate
  · intro part member
    obtain ⟨v, known, rfl⟩ := List.mem_map.1 member
    exact clean v known
  · intro none_
    exact some_ (List.map_eq_nil_iff.1 none_)

theorem be_groups (addr : List UInt8) (even : addr.length % 2 = 0) :
    (groups addr).flatMap (be 2) = addr ∧ 2 * (groups addr).length = addr.length := by
  match addr, even with
  | [], _ => exact ⟨rfl, rfl⟩
  | [a], odd => cases odd
  | high :: low :: rest, even =>
      obtain ⟨behind, count⟩ := be_groups rest (by
        rw [List.length_cons, List.length_cons] at even
        omega)
      have front : be 2 (ofBE [high, low]) = [high, low] := by
        have two : [UInt8.ofNat (ofBE [high, low] >>> 8), UInt8.ofNat (ofBE [high, low])] =
            [high, low] := be_ofBE_two rfl
        rw [Nat.shiftRight_eq_div_pow] at two
        exact two
      refine ⟨?_, ?_⟩
      · rw [groups, List.flatMap_cons, front, behind]
        rfl
      · rw [groups, List.length_cons, List.length_cons, List.length_cons]
        omega

theorem groups_ne_nil {addr : List UInt8} (sixteen : addr.length = 16) : groups addr ≠ [] := by
  have count := (be_groups addr (by omega)).2
  intro none_
  rw [none_, List.length_nil] at count
  omega

theorem splitOn_inet {addr : List UInt8} (four : addr.length = 4) :
    (plainNtop AF_INET addr).splitOn 46 = addr.map fun b => decimal b.toNat := by
  refine splitOn_parts addr (fun b => decimal b.toNat) ?_ ?_
  · rintro rfl
    cases four
  · exact fun b _ => (not_mem_digits (by decide) (by decide) b.toNat).1

theorem splitOn_inet6 {addr : List UInt8} (sixteen : addr.length = 16) :
    (plainNtop AF_INET6 addr).splitOn 58 = (groups addr).map hexadecimal :=
  splitOn_parts (groups addr) hexadecimal (groups_ne_nil sixteen)
    fun n _ => (not_mem_digits (by decide) (by decide) n).2.1

/-- No dot is in an address that has colons. -/
theorem splitOn_apart (addr : List UInt8) :
    (plainNtop AF_INET6 addr).splitOn 46 = [plainNtop AF_INET6 addr] := by
  apply List.splitOn_eq_singleton
  refine not_mem_intercalate (by decide) fun part member => ?_
  obtain ⟨n, -, rfl⟩ := List.mem_map.1 member
  exact (not_mem_digits (by decide) (by decide) n).1

/-- Addresses without a zero in them are printed like this. -/
def plainInet : Inet where
  ntop := plainNtop
  pton := plainPton
  inet addr four := by
    rw [plainPton, if_pos rfl, splitOn_inet four, if_pos (by rw [List.length_map, four]), List.map_map]
    congr 1
    conv_rhs => rw [← List.map_id addr]
    apply List.map_congr_left
    intro b _
    show UInt8.ofNat (number 10 (decimal b.toNat)) = b
    rw [decimal, number_digits (by decide) (by decide) b.toNat, UInt8.ofNat_toNat]
  inet6 addr sixteen := by
    obtain ⟨bytes, count⟩ := be_groups addr (by omega)
    rw [plainPton, if_neg (by decide), splitOn_inet6 sixteen,
      if_pos (by rw [List.length_map]; omega), List.flatMap_map]
    congr 1
    conv_rhs => rw [← bytes]
    apply List.flatMap_congr
    intro n _
    rw [hexadecimal, number_digits (by decide) (by decide) n]
  apart addr _ := by
    rw [plainPton, if_pos rfl, splitOn_apart]
    rfl

/-- A handler for these addresses. -/
def someHandler (remote localAddr : SockaddrStorage) (id : UInt32) : Connector.Handler :=
  (Connector.Handler.new Connector.someConfig Connector.someEnv 0 9 Connector.SEND_VERSION_INIT
    remote localAddr id).1

/-- `2001:db8:1:2:3:4:5:6`, port 8333. -/
def someInet6 : SockaddrStorage where
  bytes := [10, 0, 0x20, 0x8d, 0, 0, 0, 0] ++
    [0x20, 1, 0xd, 0xb8, 0, 1, 0, 2, 0, 3, 0, 4, 0, 5, 0, 6] ++ List.replicate 104 0
  size := by rw [List.length_append, List.length_replicate]; rfl

/-- Two handlers, one of each family. -/
def someTable : Globals :=
  { someGlobals with
    activeHandlers := (TreeMap.empty.insert 7 (someHandler someInet6 Connector.someAddr 7)).insert 3
      (someHandler Connector.someAddr Connector.someAddr 3) }

theorem connection_list_iff_two :
    Lists plainInet someTable ∧
      (listing plainInet someTable).map Entry.remoteAddr =
        [text "10.0.0.1", text "2001:db8:1:2:3:4:5:6"] := by
  refine ⟨(connection_list_iff plainInet someTable ?_).2 (by decide +kernel), by decide +kernel⟩
  intro entry member
  have all : ∀ entry ∈ someTable.activeHandlers.toList,
      (entry.2.remoteAddr.family = AF_INET ∨ entry.2.remoteAddr.family = AF_INET6) ∧
        (entry.2.localAddr.family = AF_INET ∨ entry.2.localAddr.family = AF_INET6) := by
    decide +kernel
  exact all entry member

/-- So many handlers. -/
def manyHandlers : Nat → TreeMap UInt32 Connector.Handler
  | 0 => ∅
  | n + 1 => (manyHandlers n).insert (UInt32.ofNat n)
      (someHandler Connector.someAddr Connector.someAddr (UInt32.ofNat n))

theorem mem_manyHandlers {n : Nat} (few : n ≤ 2 ^ 32) {id : UInt32} (member : id ∈ manyHandlers n) :
    id.toNat < n := by
  induction n with
  | zero => exact absurd member TreeMap.not_mem_emptyc
  | succ n ih =>
      rcases TreeMap.mem_insert.1 member with same | earlier
      · have small : n < UInt32.size := few
        rw [← Std.LawfulEqCmp.eq_of_compare same, UInt32.toNat_ofNat_of_lt' small]
        omega
      · have below := ih (by omega) earlier
        omega

theorem size_manyHandlers {n : Nat} (few : n ≤ 2 ^ 32) : (manyHandlers n).size = n := by
  induction n with
  | zero => exact TreeMap.size_emptyc
  | succ n ih =>
      have small : n < UInt32.size := few
      have fresh : UInt32.ofNat n ∉ manyHandlers n := by
        intro member
        have below := mem_manyHandlers (by omega) member
        rw [UInt32.toNat_ofNat_of_lt' small] at below
        omega
      have absent : (manyHandlers n).contains (UInt32.ofNat n) = false := by
        rw [← Bool.not_eq_true, TreeMap.contains_iff_mem]
        exact fresh
      rw [manyHandlers, TreeMap.size_insert, absent, ih (by omega)]
      rfl

theorem someHandler_internet (id : UInt32) :
    Internet (someHandler Connector.someAddr Connector.someAddr id).remoteAddr ∧
      Internet (someHandler Connector.someAddr Connector.someAddr id).localAddr := by
  have known : Internet Connector.someAddr := Or.inl (by decide)
  exact ⟨known, known⟩

theorem manyHandlers_internet {n : Nat} {entry : UInt32 × Connector.Handler}
    (member : entry ∈ (manyHandlers n).toList) :
    Internet entry.2.remoteAddr ∧ Internet entry.2.localAddr := by
  have found := TreeMap.mem_toList_iff_getElem?_eq_some.1 member
  induction n with
  | zero => simp [manyHandlers] at found
  | succ n ih =>
      rw [manyHandlers, TreeMap.getElem?_insert] at found
      split at found
      · rw [← Option.some.inj found]
        exact someHandler_internet _
      · exact ih (TreeMap.mem_toList_iff_getElem?_eq_some.2 found) found

/-- A process with so many handlers. -/
def manyTable (n : Nat) : Globals := { someGlobals with activeHandlers := manyHandlers n }

/-- 102261127 records have 4294967334 bytes; the length field says 38, and the client's
assertion fails. -/
theorem connection_list_wraps :
    (manyTable 102261127).activeHandlers.size = 102261127 ∧
      (∀ entry ∈ (manyTable 102261127).activeHandlers.toList,
        Internet entry.2.remoteAddr ∧ Internet entry.2.localAddr) ∧
      getAllCxn (manyTable 102261127).connections = none ∧
      ¬ Lists plainInet (manyTable 102261127) := by
  have size : (manyTable 102261127).activeHandlers.size = 102261127 :=
    size_manyHandlers (by decide)
  have read : getAllCxn (manyTable 102261127).connections = none := by
    rw [connections_eq, getAllCxn_header (length_be ..), ofBE_be, size]
    rfl
  refine ⟨size, fun entry member => manyHandlers_internet member, read, fun lists => ?_⟩
  have decoded := lists.decoded
  rw [decode, read] at decoded
  cases decoded

end Coinscope.Clients

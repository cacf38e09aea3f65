/-
# Clients.Harvest -- addresses from addr messages

`bc_msg_handler` takes the addresses out of every addr message a peer has sent.  The message
starts with a varint, which announces how many entries of 30 bytes follow.  The loop over the
entries stands inside another loop over the entries, and neither asks how long the payload is.

The handling of a record is a computation that reads the record, so that the bytes it reads are
data.  Which entries were looked at, and for which of them `do_sample` was called, is recorded
with the tables.

* `harvest` -- the two loops.
* `Fair` -- one decision for each entry, and no byte behind the payload.
* `harvest_fair_iff` -- for which messages that is so.
-/
import Coinscope.Clients.Getaddr
import Coinscope.Clients.LogDecoders
import Coinscope.Connector.Terminal

namespace Coinscope.Clients

open Coinscope.Shared
open Coinscope.Theory
open Coinscope.Theory.Bytes
open Coinscope.Theory.Histories
open Coinscope.Control (peek)
open Std (TreeMap)

set_option autoImplicit false

/-! ## Sampling -/

/-- `is_private`, for an address as it stands in memory. -/
def isPrivate (ip : UInt32) : Bool :=
  let masked (mask : UInt32) : UInt32 := mask &&& ip
  let second (byte : UInt32) : UInt32 := byte <<< 8
  masked 0x000000FF == 10 || masked 0x000000FF == 127 ||
    masked 0x0000FFFF == (192 ||| second 168) || masked 0x0000F0FF == (172 ||| second 16)

/-- What the two generators give, by how often `do_sample` was called before. -/
structure Chance where
  coin : Nat → Bool
  choice : Nat → Nat

/-- The tables, the entries that were looked at, and those `do_sample` was called for. -/
structure Harvest where
  getaddr : Getaddr
  considered : List Nat
  draws : List Nat

namespace Harvest

/-- `do_sample()`, for an entry. -/
def doSample (chance : Chance) (h : Harvest) (i : Nat) : Bool × Harvest :=
  (if h.getaddr.knownAddrs.size < 1000 then true else chance.coin h.draws.length,
    { h with draws := h.draws ++ [i] })

/-- An address that is not known gets an entry in both tables. -/
def learn (now : Rat) (chance : Chance) (remote : SockaddrIn) (h : Harvest) : Harvest :=
  if remote.key ∈ h.getaddr.knownAddrs then h
  else
    let handler := CxnHandler.new now (chance.choice h.draws.length) remote .DISCONNECTED
    { h with getaddr := { h.getaddr with
        knownAddrs := h.getaddr.knownAddrs.insert remote.key noHandle
        cxns := h.getaddr.cxns.insertIfNew remote.key handler } }

end Harvest

theorem length_toInsert (addr port : List UInt8) :
    (([2, 0] ++ port ++ addr ++ List.replicate 16 0).take 16).length = 16 := by
  simp
  omega

/-- `to_insert`: the family, the port and the address, and zeros. -/
def toInsert (addr port : List UInt8) : SockaddrIn :=
  ⟨([2, 0] ++ port ++ addr ++ List.replicate 16 0).take 16, length_toInsert addr port⟩

/-! ## The loops -/

/-- `sizeof(struct full_packed_net_addr)`. -/
def fullPackedNetAddrSize : Nat := 4 + 26

/-- Where the address of an entry is. -/
def entryAt (addrs i : Nat) : Nat := addrs + fullPackedNetAddrSize * i + 24

/-- The body of the loops; `addrs` is where the entries start. -/
def harvestEntry (now : Rat) (chance : Chance) (addrs : Nat) (h : Harvest) (i : Nat) :
    Access UInt8 Harvest := do
  let number ← Access.cells (entryAt addrs i) 4
  let h := { h with considered := h.considered ++ [i] }
  if isPrivate (UInt32.ofNat (ofLE number)) then pure h
  else
    let sample := h.doSample chance i
    if sample.1 then do
      let addr ← Access.cells (entryAt addrs i) 4
      let port ← Access.cells (entryAt addrs i + 4) 2
      pure (sample.2.learn now chance (toInsert addr port))
    else pure sample.2

/-- The inner loop. -/
def harvestAll (now : Rat) (chance : Chance) (addrs entries : Nat) (h : Harvest) :
    Access UInt8 Harvest :=
  (List.range entries).foldlM (harvestEntry now chance addrs) h

/-- The part under `HARVEST_CXN`, on a payload that starts at `payload`. -/
def harvest (now : Rat) (chance : Chance) (payload : Nat) (h : Harvest) : Access UInt8 Harvest := do
  let varint ← getVarint payload
  (List.range varint.1).foldlM
    (fun h _ => harvestAll now chance (payload + varint.2) varint.1 h) h

/-- Where the payload of the message is in a record. -/
def payloadOffset : Nat := 13 + 4 + 1 + packedSize

/-- The sender of an addr message is asked again later, if it is known. -/
def Getaddr.heardFrom (g : Getaddr) (now : Rat) (hid : UInt32) : Getaddr :=
  match g.knownHids[hid]? with
  | none => { g with notes := g.notes ++ [.unknownHid hid] }
  | some h => { g with knownHids := g.knownHids.insert hid (h.enqueue now) }

/-- What `io_cb` does with a record. -/
def handleRecord (now : Rat) (chance : Chance) (g : Getaddr) : Access UInt8 Harvest := do
  let isSender ← Access.cell 17
  if isSender ≠ 0 then pure ⟨g, [], []⟩
  else do
    let isAddr ← Access.agrees 22 (ascii ['a', 'd', 'd', 'r'] ++ [0])
    if isAddr then do
      let id ← Access.cells 13 4
      harvest now chance payloadOffset ⟨g.heardFrom now (UInt32.ofNat (ofBE id)), [], []⟩
    else pure ⟨g, [], []⟩

/-! ## What the loops look at -/

section Loops

variable (now : Rat) (chance : Chance) (memory : Nat → UInt8) (addrs : Nat)

/-- The address of an entry. -/
def addressOf (i : Nat) : UInt32 :=
  UInt32.ofNat (ofLE ((Access.cells (entryAt addrs i) 4).value memory))

theorem learn_lists (remote : SockaddrIn) (h : Harvest) :
    (h.learn now chance remote).considered = h.considered ∧
      (h.learn now chance remote).draws = h.draws := by
  unfold Harvest.learn
  split
  · exact ⟨rfl, rfl⟩
  · exact ⟨rfl, rfl⟩

/-- An entry is looked at, and drawn for if its address is not private. -/
theorem harvestEntry_lists (h : Harvest) (i : Nat) :
    ((harvestEntry now chance addrs h i).value memory).considered = h.considered ++ [i] ∧
      ((harvestEntry now chance addrs h i).value memory).draws =
        h.draws ++ if isPrivate (addressOf memory addrs i) then [] else [i] := by
  rw [harvestEntry, Access.value_bind]
  by_cases hidden : isPrivate (addressOf memory addrs i) = true
  · rw [if_pos hidden]
    simp only [addressOf] at hidden
    rw [if_pos hidden, List.append_nil]
    exact ⟨rfl, rfl⟩
  · rw [if_neg hidden]
    simp only [addressOf] at hidden
    rw [if_neg hidden]
    simp only
    split
    · rw [Access.value_bind, Access.value_bind, Access.value_pure]
      exact learn_lists ..
    · exact ⟨rfl, rfl⟩

theorem harvestAll_lists (entries : Nat) (h : Harvest) :
    ((harvestAll now chance addrs entries h).value memory).considered =
        h.considered ++ (List.range entries).flatMap (fun i => [i]) ∧
      ((harvestAll now chance addrs entries h).value memory).draws =
        h.draws ++ (List.range entries).flatMap fun i =>
          if isPrivate (addressOf memory addrs i) then [] else [i] := by
  rw [harvestAll, Access.value_foldlM]
  exact ⟨foldl_appends (fun h i => (harvestEntry_lists now chance memory addrs h i).1) _ h,
    foldl_appends (fun h i => (harvestEntry_lists now chance memory addrs h i).2) _ h⟩

end Loops

/-- Every entry is looked at as often as there are entries. -/
theorem harvest_considered (now : Rat) (chance : Chance) (memory : Nat → UInt8) (payload : Nat)
    (h : Harvest) :
    ((harvest now chance payload h).value memory).considered = h.considered ++
      (List.range ((getVarint payload).value memory).1).flatMap fun _ =>
        (List.range ((getVarint payload).value memory).1).flatMap fun i => [i] := by
  rw [harvest, Access.value_bind, Access.value_foldlM]
  exact foldl_appends (fun h _ => (harvestAll_lists now chance memory _ _ h).1) _ h

/-! ## Fairness -/

/-- What is announced at a payload: the number of entries, and the size of the varint. -/
def announced (memory : Nat → UInt8) : Nat × Nat := (getVarint payloadOffset).value memory

/-- The address of an entry of a record. -/
def address (memory : Nat → UInt8) (i : Nat) : UInt32 :=
  addressOf memory (payloadOffset + (announced memory).2) i

/-- The payload of a record that ends at `bound` has this entry, and it is not private. -/
def Public (memory : Nat → UInt8) (bound i : Nat) : Prop :=
  i < (announced memory).1 ∧
    payloadOffset + (announced memory).2 + fullPackedNetAddrSize * (i + 1) ≤ bound ∧
    isPrivate (address memory i) = false

instance (memory : Nat → UInt8) (bound i : Nat) : Decidable (Public memory bound i) :=
  inferInstanceAs (Decidable (_ ∧ _))

/-- A record that ends at `bound` is handled as it should be: each entry is looked at at most
once, there is one decision for each public entry, and nothing is read behind the payload. -/
structure Fair (now : Rat) (chance : Chance) (g : Getaddr) (memory : Nat → UInt8) (bound : Nat) :
    Prop where
  once : ∀ i, ((handleRecord now chance g).value memory).considered.count i ≤ 1
  decided : ∀ i, ((handleRecord now chance g).value memory).draws.count i =
    if Public memory bound i then 1 else 0
  bounded : Access.Within memory bound (handleRecord now chance g)

/-- No entry is announced, or one, which is there, or is private and there but for its port. -/
def Single (memory : Nat → UInt8) (bound : Nat) : Prop :=
  (announced memory).1 = 0 ∧ payloadOffset + (announced memory).2 ≤ bound ∨
    (announced memory).1 = 1 ∧
      (payloadOffset + (announced memory).2 + fullPackedNetAddrSize ≤ bound ∨
        payloadOffset + (announced memory).2 + 28 ≤ bound ∧ isPrivate (address memory 0) = true)

/-! ## One entry -/

section Entry

variable {memory : Nat → UInt8} (bound : Nat) (now : Rat) (chance : Chance) (h : Harvest)

/-- What is read of an entry: its address, and the port behind it if it is sampled. -/
theorem within_harvestEntry (addrs i : Nat) :
    Access.Within memory bound (harvestEntry now chance addrs h i) ↔
      entryAt addrs i + 4 ≤ bound ∧ (isPrivate (addressOf memory addrs i) = false →
        (({ h with considered := h.considered ++ [i] } : Harvest).doSample chance i).1 = true →
          entryAt addrs i + 6 ≤ bound) := by
  have four : Access.Within memory bound (Access.cells (entryAt addrs i) 4) ↔
      entryAt addrs i + 4 ≤ bound := by
    rw [Access.within_cells]
    omega
  rw [harvestEntry, Access.within_bind, four]
  apply and_congr_right
  intro inside
  show Access.Within memory bound (if isPrivate (addressOf memory addrs i) then _ else _) ↔ _
  by_cases hidden : isPrivate (addressOf memory addrs i) = true
  · rw [if_pos hidden, hidden]
    exact ⟨(fun _ no => by cases no), fun _ => Access.within_pure _ _ _⟩
  · rw [if_neg hidden]
    have shown : isPrivate (addressOf memory addrs i) = false := by simpa using hidden
    simp only
    split
    · rename_i sampled
      rw [Access.within_bind, Access.within_bind, four, Access.within_cells]
      constructor
      · rintro ⟨-, few | port, -⟩ _ _
        · cases few
        · omega
      · intro all
        have port := all shown sampled
        exact ⟨inside, Or.inr (by omega), Access.within_pure _ _ _⟩
    · rename_i skipped
      exact ⟨fun _ _ sampled => absurd sampled skipped, fun _ => Access.within_pure _ _ _⟩

/-- Without entries only the varint is read. -/
theorem harvest_none {payload : Nat} (none_ : ((getVarint payload).value memory).1 = 0) :
    (harvest now chance payload h).value memory = h ∧
      (Access.Within memory bound (harvest now chance payload h) ↔
        payload + ((getVarint payload).value memory).2 ≤ bound) := by
  rw [getVarint_size, harvest, Access.value_bind, Access.within_bind, within_getVarint, none_]
  exact ⟨rfl, fun both => both.1, fun inside => ⟨inside, Access.within_pure _ _ _⟩⟩

/-- With one entry the two loops are as good as one. -/
theorem harvest_one {payload : Nat} (one : ((getVarint payload).value memory).1 = 1) :
    (harvest now chance payload h).value memory =
        (harvestEntry now chance (payload + ((getVarint payload).value memory).2) h 0).value memory ∧
      (Access.Within memory bound (harvest now chance payload h) ↔
        payload + ((getVarint payload).value memory).2 ≤ bound ∧
          Access.Within memory bound
            (harvestEntry now chance (payload + ((getVarint payload).value memory).2) h 0)) := by
  have loop : ∀ h' : Harvest, (harvestAll now chance
      (payload + ((getVarint payload).value memory).2) 1 h') =
      harvestEntry now chance (payload + ((getVarint payload).value memory).2) h' 0 >>= pure :=
    fun _ => rfl
  have twice : ∀ body : Harvest → Nat → Access UInt8 Harvest,
      (List.range 1).foldlM body h = body h 0 >>= pure := fun _ => rfl
  rw [harvest, Access.value_bind, Access.within_bind, within_getVarint, one, twice, loop,
    Access.value_bind, Access.value_bind, Access.within_bind, Access.within_bind, getVarint_size]
  refine ⟨rfl, ?_⟩
  constructor
  · rintro ⟨varint, ⟨entry, -⟩, -⟩
    exact ⟨varint, entry⟩
  · rintro ⟨varint, entry⟩
    exact ⟨varint, ⟨entry, Access.within_pure _ _ _⟩, Access.within_pure _ _ _⟩

/-- With more of them every one is looked at more than once. -/
theorem harvest_more {payload : Nat} (more : 2 ≤ ((getVarint payload).value memory).1) :
    2 ≤ ((harvest now chance payload h).value memory).considered.count 0 := by
  have single : ∀ n : Nat, (List.range n).flatMap (fun i => [i]) = List.range n := by simp
  have first : (List.range ((getVarint payload).value memory).1).count 0 = 1 :=
    List.count_eq_one_of_mem List.nodup_range (List.mem_range.2 (by omega))
  rw [harvest_considered, List.count_append, single, List.count_flatMap, Function.comp_def, first,
    List.map_const', List.length_range, List.sum_replicate_nat, Nat.mul_one]
  exact Nat.le_add_left_of_le more

end Entry

section Record

variable {memory : Nat → UInt8} {bound : Nat} (now : Rat) (chance : Chance) (g : Getaddr)

/-- Behind the header of an addr message the payload is harvested. -/
theorem handleRecord_addr (received : memory 17 = 0)
    (isAddr : (Access.agrees 22 (ascii ['a', 'd', 'd', 'r'] ++ [0])).value memory = true)
    (header : payloadOffset ≤ bound) : ∃ g' : Getaddr,
    (handleRecord now chance g).value memory =
        (harvest now chance payloadOffset ⟨g', [], []⟩).value memory ∧
      (Access.Within memory bound (handleRecord now chance g) ↔
        Access.Within memory bound (harvest now chance payloadOffset ⟨g', [], []⟩)) := by
  have size : payloadOffset = 42 := rfl
  refine ⟨g.heardFrom now (UInt32.ofNat (ofBE ((Access.cells 13 4).value memory))), ?_, ?_⟩
  · rw [handleRecord, Access.value_bind, Access.value_cell, received, if_neg (by decide),
      Access.value_bind, isAddr, if_pos rfl, Access.value_bind]
  · rw [handleRecord, Access.within_bind, Access.within_cell, Access.value_cell, received,
      if_neg (by decide), Access.within_bind, isAddr, if_pos rfl, Access.within_bind,
      Access.within_cells]
    constructor
    · rintro ⟨-, -, -, rest⟩
      exact rest
    · intro rest
      refine ⟨by omega, Access.within_agrees ?_, Or.inr (by omega), rest⟩
      show 22 + 5 ≤ bound
      omega

variable (received : memory 17 = 0)
  (isAddr : (Access.agrees 22 (ascii ['a', 'd', 'd', 'r'] ++ [0])).value memory = true)
  (header : payloadOffset ≤ bound)

include received isAddr header

theorem fair_none (none_ : (announced memory).1 = 0) :
    Fair now chance g memory bound ↔ payloadOffset + (announced memory).2 ≤ bound := by
  obtain ⟨g', value, within⟩ := handleRecord_addr now chance g received isAddr header
  have result := harvest_none bound now chance ⟨g', [], []⟩ none_
  constructor
  · intro fair
    exact result.2.1 (within.1 fair.bounded)
  · intro varint
    refine ⟨?_, ?_, within.2 (result.2.2 varint)⟩
    · intro i
      rw [value, result.1]
      exact Nat.zero_le 1
    · intro i
      have noPublic : ¬ Public memory bound i := by
        rintro ⟨inside, -⟩
        omega
      rw [value, result.1, if_neg noPublic]
      rfl

omit received isAddr header in
theorem public_one (one : (announced memory).1 = 1) (i : Nat) :
    Public memory bound i ↔
      i = 0 ∧ payloadOffset + (announced memory).2 + fullPackedNetAddrSize ≤ bound ∧
        isPrivate (address memory 0) = false := by
  rw [Public, one, Nat.lt_one_iff]
  apply and_congr_right
  rintro rfl
  rw [Nat.zero_add, Nat.mul_one]

theorem fair_one (one : (announced memory).1 = 1) :
    Fair now chance g memory bound ↔
      payloadOffset + (announced memory).2 + fullPackedNetAddrSize ≤ bound ∨
        payloadOffset + (announced memory).2 + 28 ≤ bound ∧ isPrivate (address memory 0) = true := by
  obtain ⟨g', value, within⟩ := handleRecord_addr now chance g received isAddr header
  obtain ⟨value', within'⟩ := harvest_one bound now chance ⟨g', [], []⟩ one
  obtain ⟨considered, draws⟩ := harvestEntry_lists now chance memory
    (payloadOffset + (announced memory).2) ⟨g', [], []⟩ 0
  have result : (handleRecord now chance g).value memory = (harvestEntry now chance
      (payloadOffset + (announced memory).2) ⟨g', [], []⟩ 0).value memory := value.trans value'
  have reads : Access.Within memory bound (handleRecord now chance g) ↔
      payloadOffset + (announced memory).2 ≤ bound ∧
        entryAt (payloadOffset + (announced memory).2) 0 + 4 ≤ bound ∧
          (isPrivate (address memory 0) = false →
            ((⟨g', [0], []⟩ : Harvest).doSample chance 0).1 = true →
              entryAt (payloadOffset + (announced memory).2) 0 + 6 ≤ bound) :=
    (within.trans within').trans
      (and_congr_right fun _ => within_harvestEntry bound now chance ⟨g', [], []⟩ _ 0)
  have entry : entryAt (payloadOffset + (announced memory).2) 0 =
      payloadOffset + (announced memory).2 + 24 := rfl
  have size : fullPackedNetAddrSize = 30 := rfl
  have once : ∀ i, ((handleRecord now chance g).value memory).considered.count i ≤ 1 := by
    intro i
    rw [result, considered]
    exact List.count_le_length
  have drawn : ((handleRecord now chance g).value memory).draws =
      if isPrivate (address memory 0) then [] else [0] := by
    rw [result, draws, List.nil_append]
    rfl
  by_cases hidden : isPrivate (address memory 0) = true
  · have nothing : ∀ i, ((handleRecord now chance g).value memory).draws.count i =
        if Public memory bound i then 1 else 0 := by
      intro i
      rw [drawn, if_pos hidden, if_neg]
      · rfl
      · rw [public_one one, hidden]
        rintro ⟨-, -, no⟩
        cases no
    constructor
    · intro fair
      have bounded := (reads.1 fair.bounded).2.1
      exact Or.inr ⟨by omega, hidden⟩
    · intro inside
      refine ⟨once, nothing, reads.2 ⟨by omega, by omega, ?_⟩⟩
      intro shown
      exact absurd (hidden.symm.trans shown) (by decide)
  · have shown : isPrivate (address memory 0) = false := by simpa using hidden
    rw [if_neg hidden] at drawn
    constructor
    · intro fair
      left
      by_contra outside
      have decided := fair.decided 0
      rw [drawn, if_neg (by rw [public_one one]; exact fun all => outside all.2.1)] at decided
      cases decided
    · rintro (inside | ⟨-, no⟩)
      · refine ⟨once, ?_, reads.2 ⟨by omega, by omega, fun _ _ => by omega⟩⟩
        intro i
        rw [drawn]
        by_cases zero : i = 0
        · rw [zero, if_pos ((public_one one 0).2 ⟨rfl, inside, shown⟩)]
          rfl
        · rw [if_neg (fun all => zero ((public_one one i).1 all).1), List.count_eq_zero]
          exact fun member => zero (List.mem_singleton.1 member)
      · exact absurd no hidden

theorem fair_more (more : 2 ≤ (announced memory).1) : ¬ Fair now chance g memory bound := by
  obtain ⟨g', value, -⟩ := handleRecord_addr now chance g received isAddr header
  have often := harvest_more now chance ⟨g', [], []⟩ more
  intro fair
  have once := fair.once 0
  rw [value] at once
  omega

/-- Which records are handled as they should be. -/
theorem fair_iff_single : Fair now chance g memory bound ↔ Single memory bound := by
  rcases Nat.lt_or_ge (announced memory).1 2 with few | more
  · rcases Nat.lt_or_ge (announced memory).1 1 with zero | positive
    · have none_ : (announced memory).1 = 0 := by omega
      rw [fair_none now chance g received isAddr header none_, Single, none_]
      simp
    · have one : (announced memory).1 = 1 := by omega
      rw [fair_one now chance g received isAddr header one, Single, one]
      simp
  · constructor
    · intro fair
      exact absurd fair (fair_more now chance g received isAddr header more)
    · rintro (⟨none_, -⟩ | ⟨one, -⟩)
      · omega
      · omega

end Record

/-! ## Logged messages -/

/-- The body of the frame in which the log server passes a received message on. -/
def deliveredMsg (sourceId : UInt32) (time : UInt64) (id : UInt32) (m : PackedMessage) :
    List UInt8 :=
  let content := bitcoinMsgContent time id false m
  body (LogServer.frame ⟨content, content.length, sourceId⟩)

/-- The message stands behind the sender, the type, the time, the handle and the direction. -/
theorem deliveredMsg_eq (sourceId : UInt32) (time : UInt64) (id : UInt32) (m : PackedMessage) :
    ∃ before : List UInt8, before.length = 17 ∧
      deliveredMsg sourceId time id m = before ++ [0] ++ m.wire := by
  refine ⟨be 4 sourceId.toNat ++ ([LogType.BITCOIN_MSG.byte] ++ be 8 time.toNat ++ be 4 id.toNat),
    by simp, ?_⟩
  rw [deliveredMsg, LogServer.frame, List.append_assoc, body_append (length_be _ _),
    List.take_length, bitcoinMsgContent]
  simp

theorem deliveredMsg_length (sourceId : UInt32) (time : UInt64) (id : UInt32) (m : PackedMessage) :
    (deliveredMsg sourceId time id m).length = payloadOffset + m.length := by
  obtain ⟨before, size, record⟩ := deliveredMsg_eq sourceId time id m
  have offset : payloadOffset = 18 + packedSize := rfl
  rw [record, List.length_append, List.length_append, size, m.wire_length, List.length_singleton]
  omega

section Logged

variable (sourceId : UInt32) (time : UInt64) (id : UInt32) (m : PackedMessage)
  (beyond : Nat → UInt8)

theorem delivered_received : peek (deliveredMsg sourceId time id m) beyond 17 = 0 := by
  obtain ⟨before, size, record⟩ := deliveredMsg_eq sourceId time id m
  have inside : 17 < (before ++ [0] ++ m.wire).length := by simp [size]
  rw [record, peek, dif_pos inside]
  simp [← size]

theorem delivered_command (isAddr : cString m.command = ascii ['a', 'd', 'd', 'r']) :
    (Access.agrees 22 (ascii ['a', 'd', 'd', 'r'] ++ [0])).value
      (peek (deliveredMsg sourceId time id m) beyond) = true := by
  obtain ⟨before, size, record⟩ := deliveredMsg_eq sourceId time id m
  have header : packedSize = 24 := rfl
  have wire := m.wire_length
  have letters : (m.wire.drop 4).take 5 = ascii ['a', 'd', 'd', 'r'] ++ [0] :=
    (cString_eq_iff (by decide) (by rw [List.length_drop]; simp [ascii]; omega)).1
      ((Connector.cString_wire m _ (by decide)).2 isAddr)
  have front : (before ++ [0]).length = 18 := by simp [size]
  have fetched : Control.fetch (deliveredMsg sourceId time id m) beyond 22 5 =
      ascii ['a', 'd', 'd', 'r'] ++ [0] := by
    rw [Control.fetch_inside (by rw [deliveredMsg_length]; simp [payloadOffset, packedSize]; omega),
      record, slice_append_right _ (by omega), front]
    exact letters
  rw [Access.value_agrees]
  exact decide_eq_true fetched

end Logged

/-- A logged addr message is harvested as it should be exactly if it announces no entry or one,
and has what it announces: from two entries on every entry is looked at as often as there are
entries, and what is announced but missing is read behind the payload. -/
theorem harvest_fair_iff (now : Rat) (chance : Chance) (g : Getaddr) (sourceId : UInt32)
    (time : UInt64) (id : UInt32) (m : PackedMessage)
    (isAddr : cString m.command = ascii ['a', 'd', 'd', 'r']) (beyond : Nat → UInt8) :
    Fair now chance g (peek (deliveredMsg sourceId time id m) beyond)
        (deliveredMsg sourceId time id m).length ↔
      Single (peek (deliveredMsg sourceId time id m) beyond)
        (deliveredMsg sourceId time id m).length := by
  refine fair_iff_single now chance g (delivered_received sourceId time id m beyond)
    (delivered_command sourceId time id m beyond isAddr) ?_
  rw [deliveredMsg_length]
  exact Nat.le_add_right _ _

/-- An addr message that announces `count` entries, with these. -/
def addrBuffer (count : UInt8) (entries : List UInt8) : List UInt8 :=
  [0xf9, 0xbe, 0xb4, 0xd9] ++ (ascii ['a', 'd', 'd', 'r'] ++ List.replicate 8 0) ++
    le 4 (1 + entries.length) ++ [0, 0, 0, 0] ++ [count] ++ entries

/-- The entry for `8.8.8.n:8333`. -/
def eightNet (n : UInt8) : List UInt8 :=
  List.replicate 22 0 ++ [0xff, 0xff, 8, 8, 8, n, 0x20, 0x8d]

theorem addrBuffer_whole (count : UInt8) {entries : List UInt8} (small : entries.length < 2 ^ 16) :
    packedSize + packedLength (addrBuffer count entries) ≤ (addrBuffer count entries).length := by
  have field : slice 16 4 (addrBuffer count entries) = le 4 (1 + entries.length) := by
    rw [addrBuffer, List.append_assoc, List.append_assoc]
    exact Control.slice_here (by simp [ascii]) (length_le ..)
  rw [packedLength, field, ofLE_le, Nat.mod_eq_of_lt (by omega)]
  simp [addrBuffer, ascii, packedSize]
  omega

def oneEntry : PackedMessage := ⟨addrBuffer 1 (eightNet 8), addrBuffer_whole 1 (by decide)⟩

def twoEntries : PackedMessage :=
  ⟨addrBuffer 2 (eightNet 8 ++ eightNet 9), addrBuffer_whole 2 (by decide)⟩

/-- One entry that is there is sampled once. -/
theorem one_entry_fair :
    cString oneEntry.command = ascii ['a', 'd', 'd', 'r'] ∧
      Fair 1 ⟨fun _ => false, fun _ => 0⟩ Getaddr.start
        (peek (deliveredMsg 5 0 3 oneEntry) fun _ => 0xaa) (deliveredMsg 5 0 3 oneEntry).length :=
  ⟨by decide, (harvest_fair_iff 1 _ _ 5 0 3 oneEntry (by decide) fun _ => 0xaa).2
    (Or.inr ⟨by decide +kernel, Or.inl (by decide +kernel)⟩)⟩

/-- Two entries that are there are looked at twice each, with four draws. -/
theorem two_entries_twice :
    cString twoEntries.command = ascii ['a', 'd', 'd', 'r'] ∧
      ((handleRecord 1 ⟨fun _ => false, fun _ => 0⟩ Getaddr.start).value
        (peek (deliveredMsg 5 0 3 twoEntries) fun _ => 0xaa)).considered = [0, 1, 0, 1] ∧
      ((handleRecord 1 ⟨fun _ => false, fun _ => 0⟩ Getaddr.start).value
        (peek (deliveredMsg 5 0 3 twoEntries) fun _ => 0xaa)).draws = [0, 1, 0, 1] ∧
      ¬ Fair 1 ⟨fun _ => false, fun _ => 0⟩ Getaddr.start
        (peek (deliveredMsg 5 0 3 twoEntries) fun _ => 0xaa)
        (deliveredMsg 5 0 3 twoEntries).length := by
  have considered : ((handleRecord 1 ⟨fun _ => false, fun _ => 0⟩ Getaddr.start).value
      (peek (deliveredMsg 5 0 3 twoEntries) fun _ => 0xaa)).considered = [0, 1, 0, 1] := by
    decide +kernel
  refine ⟨by decide, considered, by decide +kernel, ?_⟩
  intro fair
  have once := fair.once 0
  rw [considered] at once
  exact absurd once (by decide)

end Coinscope.Clients

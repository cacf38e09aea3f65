/-
# Clients.Getaddr -- who is connected, as getaddr sees it

`getaddr` follows the connector through the BITCOIN records the log server passes on.  It
keeps the handles it takes to be connected in `g_known_hids`, and for every address it has ever
seen a handle in `g_known_addrs`, which is `~0` while there is no connection.

The records name a handle and an address, and both callbacks trust the name.  Two connections
may have one address, and a record about a failed attempt names handle 0, which is the name of
the first connection too.

* `Getaddr.onConnect`, `Getaddr.onDisconnect` -- the two callbacks of the watcher.
* `Watched.step` -- a connector that hands out handles, and its records.
* `Watched.Tracks` -- the tables say who is connected.
* `live_connections_iff` -- the runs in which they always do.
-/
import Coinscope.Clients.CxnHandler
import Coinscope.Connector.Terminal
import Coinscope.Theory.Tables

namespace Coinscope.Clients

open Coinscope.Shared
open Coinscope.Theory
open Coinscope.Theory.Bytes
open Coinscope.Theory.Runs
open Std (TreeMap)

set_option autoImplicit false

/-! ## Addresses as keys -/

/-- What `sockaddr_keyeq` compares: the port and the address, which are next to each other. -/
def SockaddrIn.key (a : SockaddrIn) : Nat := ofLE (slice 2 6 a.bytes)

/-! ## The tables -/

/-- `class hid_handler`. -/
structure HidHandler where
  hid : UInt32
  remote : SockaddrIn
  localAddr : SockaddrIn
  timer : Option Rat
  lastEnqueue : Rat
  getaddrSeq : UInt32
  getaddrCnt : Nat

/-- `enqueue()`. -/
def HidHandler.enqueue (now : Rat) (h : HidHandler) : HidHandler :=
  { h with
    lastEnqueue := now
    timer := if h.timer.isSome then h.timer else some (now + 10) }

/-- What `getaddr` logs for itself. -/
inductive GetaddrNote where
  | hidAgain (hid : UInt32)
  | unknownDisconnect (remote : SockaddrIn)
  | unknownHid (hid : UInt32)

/-- The global variables of `getaddr`. -/
structure Getaddr where
  currentGetaddr : UInt32
  getaddrStart : Rat
  knownAddrs : TreeMap Nat UInt32
  knownHids : TreeMap UInt32 HidHandler
  cxns : TreeMap Nat CxnHandler
  notes : List GetaddrNote

/-- `~0` as a handle. -/
def noHandle : UInt32 := 0xffffffff

/-- A BITCOIN record in host order, `bc_channel_msg`. -/
structure ChannelMsg where
  handleId : UInt32
  updateType : UInt32
  remote : SockaddrIn
  localAddr : SockaddrIn

namespace Getaddr

def start : Getaddr where
  currentGetaddr := 1
  getaddrStart := 0
  knownAddrs := ∅
  knownHids := ∅
  cxns := ∅
  notes := []

/-- `hid_handler(hid, remote, local)`.  Connections of the first ten minutes of a round are part
of it. -/
def newHid (g : Getaddr) (now : Rat) (hid : UInt32) (remote localAddr : SockaddrIn) : HidHandler :=
  let h : HidHandler :=
    { hid := hid, remote := remote, localAddr := localAddr, timer := none, lastEnqueue := 0
      getaddrSeq := g.currentGetaddr, getaddrCnt := 0 }
  if now - g.getaddrStart < 600 then h.enqueue now else h

/-- The address has a `cxn_handler` with this state: a new one, or the one that is there. -/
def tellCxn (g : Getaddr) (now : Rat) (choice : Nat) (remote : SockaddrIn) (s : CxnState) : Getaddr :=
  match g.cxns[remote.key]? with
  | none => { g with cxns := g.cxns.insert remote.key (CxnHandler.new now choice remote s) }
  | some h => { g with cxns := g.cxns.insert remote.key (h.notified now choice s) }

/-- The callback for connections. -/
def onConnect (g : Getaddr) (now : Rat) (choice : Nat) (msg : ChannelMsg) : Getaddr :=
  let g := { g with knownAddrs := g.knownAddrs.insert msg.remote.key msg.handleId }
  let g := g.tellCxn now choice msg.remote .CONNECTED
  let g := if msg.handleId ∈ g.knownHids then
      { g with
        knownHids := g.knownHids.erase msg.handleId
        notes := g.notes ++ [.hidAgain msg.handleId] }
    else g
  let handler := g.newHid now msg.handleId msg.remote msg.localAddr
  { g with knownHids := g.knownHids.insert msg.handleId handler }

/-- The callback for everything else. -/
def onDisconnect (g : Getaddr) (now : Rat) (choice : Nat) (msg : ChannelMsg) : Getaddr :=
  let g := { g with knownAddrs := g.knownAddrs.insert msg.remote.key noHandle }
  let g := if g.cxns[msg.remote.key]?.isNone then
      { g with notes := g.notes ++ [.unknownDisconnect msg.remote] }
    else g
  let g := g.tellCxn now choice msg.remote .DISCONNECTED
  { g with knownHids := g.knownHids.erase msg.handleId }

/-- `ev_handler::io_cb` behind `buf2msg`. -/
def deliver (g : Getaddr) (now : Rat) (choice : Nat) (msg : ChannelMsg) : Getaddr :=
  if msg.updateType &&& (CONNECT_SUCCESS ||| ACCEPT_SUCCESS) ≠ 0 then g.onConnect now choice msg
  else g.onDisconnect now choice msg

end Getaddr

/-! ## The connector's side -/

/-- A connection: its two addresses. -/
structure Link where
  remote : SockaddrIn
  localAddr : SockaddrIn

/-- `getaddr`, the connections there are, the handles that were given out, and the addresses
that were named. -/
structure Watched where
  getaddr : Getaddr
  live : TreeMap UInt32 Link
  handed : Nat
  seen : List SockaddrIn

/-- What happens in the connector: a connection is made or accepted, a connection ends, an
attempt fails.  The rest is the clock and the chance `getaddr` hears of it with. -/
inductive ConnectorEvent where
  | success (accepted : Bool) (link : Link) (now : Rat) (choice : Nat)
  | terminal (hid : UInt32) (updateType : UInt32) (now : Rat) (choice : Nat)
  | failure (link : Link) (now : Rat) (choice : Nat)

namespace Watched

def start : Watched := ⟨Getaddr.start, ∅, 0, []⟩

/-- The record of an event is delivered. -/
def heard (w : Watched) (now : Rat) (choice : Nat) (hid updateType : UInt32) (link : Link) :
    Watched :=
  { w with
    getaddr := w.getaddr.deliver now choice ⟨hid, updateType, link.remote, link.localAddr⟩
    seen := w.seen ++ [link.remote] }

/-- Handles are counted up from 0 and given out once; only a connection that is there can end;
a record about a failed attempt has 0 for its handle. -/
def step (w : Watched) : ConnectorEvent → Watched
  | .success accepted link now choice =>
      if w.handed < 2 ^ 32 then
        let hid := UInt32.ofNat w.handed
        let w := { w with live := w.live.insert hid link, handed := w.handed + 1 }
        w.heard now choice hid (if accepted then ACCEPT_SUCCESS else CONNECT_SUCCESS) link
      else w
  | .terminal hid updateType now choice =>
      match w.live[hid]? with
      | none => w
      | some link =>
          if updateType ∈ Connector.terminalTypes then
            { w with live := w.live.erase hid }.heard now choice hid updateType link
          else w
  | .failure link now choice => w.heard now choice 0 CONNECT_FAILURE link

/-- Some connection is to this address. -/
def Connected (live : TreeMap UInt32 Link) (key : Nat) : Prop :=
  ∃ (hid : UInt32) (link : Link), live[hid]? = some link ∧ link.remote.key = key

/-- The tables say who is connected. -/
structure Tracks (w : Watched) : Prop where
  hids : ∀ hid : UInt32, hid ∈ w.getaddr.knownHids ↔ hid ∈ w.live
  addrs : ∀ a ∈ w.seen, ∃ hid : UInt32, w.getaddr.knownAddrs[a.key]? = some hid ∧
    (hid ≠ noHandle ↔ Connected w.live a.key)

/-- An event that does not mislead `getaddr`. -/
def Clear (w : Watched) : ConnectorEvent → Prop
  | .success .. => w.handed ≠ 2 ^ 32 - 1
  | .terminal hid updateType _ _ => updateType ∈ Connector.terminalTypes →
      ∀ (link : Link) (hid' : UInt32) (link' : Link), w.live[hid]? = some link → hid' ≠ hid →
        w.live[hid']? = some link' → link'.remote.key ≠ link.remote.key
  | .failure link _ _ => 0 ∉ w.live ∧ ¬ Connected w.live link.remote.key

end Watched

/-! ## One event -/

namespace Getaddr

theorem tellCxn_tables (g : Getaddr) (now : Rat) (choice : Nat) (remote : SockaddrIn)
    (s : CxnState) :
    (g.tellCxn now choice remote s).knownAddrs = g.knownAddrs ∧
      (g.tellCxn now choice remote s).knownHids = g.knownHids := by
  unfold tellCxn
  split
  · exact ⟨rfl, rfl⟩
  · exact ⟨rfl, rfl⟩

theorem onConnect_tables (g : Getaddr) (now : Rat) (choice : Nat) (msg : ChannelMsg) :
    (g.onConnect now choice msg).knownAddrs = g.knownAddrs.insert msg.remote.key msg.handleId ∧
      ∀ hid : UInt32, hid ∈ (g.onConnect now choice msg).knownHids ↔
        hid = msg.handleId ∨ hid ∈ g.knownHids := by
  obtain ⟨addrs, hids⟩ := tellCxn_tables
    { g with knownAddrs := g.knownAddrs.insert msg.remote.key msg.handleId } now choice msg.remote
    .CONNECTED
  unfold onConnect
  simp only [hids]
  split
  · refine ⟨addrs, ?_⟩
    intro hid
    rw [Tables.mem_insert, Tables.mem_erase]
    tauto
  · refine ⟨addrs, ?_⟩
    intro hid
    rw [Tables.mem_insert, hids]

theorem onDisconnect_tables (g : Getaddr) (now : Rat) (choice : Nat) (msg : ChannelMsg) :
    (g.onDisconnect now choice msg).knownAddrs = g.knownAddrs.insert msg.remote.key noHandle ∧
      ∀ hid : UInt32, hid ∈ (g.onDisconnect now choice msg).knownHids ↔
        hid ≠ msg.handleId ∧ hid ∈ g.knownHids := by
  unfold onDisconnect
  simp only
  split
  · obtain ⟨addrs, hids⟩ := tellCxn_tables
      { g with
        knownAddrs := g.knownAddrs.insert msg.remote.key noHandle
        notes := g.notes ++ [.unknownDisconnect msg.remote] } now choice msg.remote .DISCONNECTED
    refine ⟨addrs, ?_⟩
    intro hid
    rw [Tables.mem_erase, hids]
  · obtain ⟨addrs, hids⟩ := tellCxn_tables
      { g with knownAddrs := g.knownAddrs.insert msg.remote.key noHandle } now choice msg.remote
      .DISCONNECTED
    refine ⟨addrs, ?_⟩
    intro hid
    rw [Tables.mem_erase, hids]

end Getaddr

namespace Watched

/-- What a record does to the tables, by what it puts there. -/
theorem tracks_iff {w w' : Watched} (tracks : w.Tracks) {remote : SockaddrIn} {hid : UInt32}
    (addrs : w'.getaddr.knownAddrs = w.getaddr.knownAddrs.insert remote.key hid)
    (seen : w'.seen = w.seen ++ [remote])
    (others : ∀ key, key ≠ remote.key → (Connected w'.live key ↔ Connected w.live key)) :
    w'.Tracks ↔ (∀ i : UInt32, i ∈ w'.getaddr.knownHids ↔ i ∈ w'.live) ∧
      (hid ≠ noHandle ↔ Connected w'.live remote.key) := by
  have last : remote ∈ w'.seen := by
    rw [seen]
    exact List.mem_append_right _ (List.mem_singleton.2 rfl)
  constructor
  · intro tracks'
    obtain ⟨hid', found, known⟩ := tracks'.addrs remote last
    rw [addrs, Tables.getElem?_insert, if_pos rfl] at found
    cases found
    exact ⟨tracks'.hids, known⟩
  · rintro ⟨hids, known⟩
    refine ⟨hids, ?_⟩
    intro a member
    rw [addrs, Tables.getElem?_insert]
    by_cases same : a.key = remote.key
    · rw [if_pos same, same]
      exact ⟨hid, rfl, known⟩
    · rw [if_neg same, others _ same]
      rw [seen, List.mem_append, List.mem_singleton] at member
      rcases member with old | rfl
      · exact tracks.addrs a old
      · exact absurd rfl same

section Heard

variable {w w₀ : Watched} (tracks : w.Tracks) (getaddr : w₀.getaddr = w.getaddr)
  (seen : w₀.seen = w.seen) (now : Rat) (choice : Nat) {hid updateType : UInt32} {link : Link}
  (others : ∀ key, key ≠ link.remote.key → (Connected w₀.live key ↔ Connected w.live key))

include tracks getaddr seen others

/-- A record about a connection, which is there. -/
theorem heard_connect (connect : updateType &&& (CONNECT_SUCCESS ||| ACCEPT_SUCCESS) ≠ 0)
    (more : ∀ i : UInt32, i ∈ w₀.live ↔ i = hid ∨ i ∈ w.live)
    (there : Connected w₀.live link.remote.key) :
    (w₀.heard now choice hid updateType link).Tracks ↔ hid ≠ noHandle := by
  have tables := w.getaddr.onConnect_tables now choice ⟨hid, updateType, link.remote, link.localAddr⟩
  have result : (w₀.heard now choice hid updateType link).getaddr =
      w.getaddr.onConnect now choice ⟨hid, updateType, link.remote, link.localAddr⟩ := by
    rw [← getaddr]
    exact if_pos connect
  have effect : (w₀.heard now choice hid updateType link).Tracks ↔ _ :=
    tracks_iff tracks (by rw [result]; exact tables.1) (congrArg (· ++ [link.remote]) seen) others
  rw [effect, result]
  constructor
  · rintro ⟨-, known⟩
    exact known.2 there
  · intro real
    refine ⟨?_, fun _ => there, fun _ => real⟩
    intro i
    rw [tables.2 i, tracks.hids i]
    exact (more i).symm

/-- A record about an end or a failure. -/
theorem heard_disconnect (end_ : updateType &&& (CONNECT_SUCCESS ||| ACCEPT_SUCCESS) = 0) :
    (w₀.heard now choice hid updateType link).Tracks ↔
      (∀ i : UInt32, i ∈ w₀.live ↔ i ≠ hid ∧ i ∈ w.live) ∧
        ¬ Connected w₀.live link.remote.key := by
  have tables := w.getaddr.onDisconnect_tables now choice
    ⟨hid, updateType, link.remote, link.localAddr⟩
  have result : (w₀.heard now choice hid updateType link).getaddr =
      w.getaddr.onDisconnect now choice ⟨hid, updateType, link.remote, link.localAddr⟩ := by
    rw [← getaddr]
    exact if_neg (not_not.2 end_)
  have effect : (w₀.heard now choice hid updateType link).Tracks ↔ _ :=
    tracks_iff tracks (by rw [result]; exact tables.1) (congrArg (· ++ [link.remote]) seen) others
  rw [effect, result]
  apply and_congr
  · apply forall_congr'
    intro i
    rw [tables.2 i, tracks.hids i]
    exact iff_comm
  · exact ⟨fun known there => known.2 there rfl, fun gone => ⟨fun no => absurd rfl no, gone.elim⟩⟩

end Heard

/-! ## Every run -/

/-- Handles that were given out are below the count. -/
def Counted (w : Watched) : Prop := ∀ hid : UInt32, hid ∈ w.live → hid.toNat < w.handed

theorem Counted.step {w : Watched} (counted : w.Counted) (e : ConnectorEvent) :
    (w.step e).Counted := by
  cases e with
  | success accepted link now choice =>
      rw [Watched.step]
      split
      · rename_i room
        intro hid member
        rcases (Tables.mem_insert ..).1 member with rfl | old
        · show (UInt32.ofNat w.handed).toNat < w.handed + 1
          rw [UInt32.toNat_ofNat_of_lt' room]
          exact Nat.lt_succ_self _
        · exact Nat.lt_succ_of_lt (counted hid old)
      · exact counted
  | terminal hid updateType now choice =>
      rw [Watched.step]
      split
      · exact counted
      · split
        · intro hid' member
          exact counted hid' ((Tables.mem_erase ..).1 member).2
        · exact counted
  | failure link now choice => exact counted

theorem success_tracks_iff {w : Watched} (counted : w.Counted) (tracks : w.Tracks)
    (accepted : Bool) (link : Link) (now : Rat) (choice : Nat) :
    (w.step (.success accepted link now choice)).Tracks ↔
      w.Clear (.success accepted link now choice) := by
  rw [Watched.step]
  split
  · rename_i room
    have fresh : UInt32.ofNat w.handed ∉ w.live := by
      intro member
      have below := counted _ member
      rw [UInt32.toNat_ofNat_of_lt' room] at below
      exact Nat.lt_irrefl _ below
    have last : UInt32.ofNat w.handed ≠ noHandle ↔ w.handed ≠ 2 ^ 32 - 1 := by
      rw [ne_eq, ← UInt32.toNat_inj, UInt32.toNat_ofNat_of_lt' room]
      rfl
    have connect : (if accepted then ACCEPT_SUCCESS else CONNECT_SUCCESS) &&&
        (CONNECT_SUCCESS ||| ACCEPT_SUCCESS) ≠ 0 := by cases accepted <;> decide
    rw [Clear, ← last]
    refine heard_connect tracks ?_ ?_ now choice ?_ connect ?_ ?_
    · rfl
    · rfl
    · intro key other
      constructor
      · rintro ⟨hid, link', found, same⟩
        rw [Tables.getElem?_insert] at found
        split at found
        · cases found
          exact absurd same.symm other
        · exact ⟨hid, link', found, same⟩
      · rintro ⟨hid, link', found, same⟩
        refine ⟨hid, link', ?_, same⟩
        rw [Tables.getElem?_insert, if_neg, found]
        rintro rfl
        exact fresh (TreeMap.isSome_getElem?_iff_mem.1 (by rw [found]; rfl))
    · intro i
      exact Tables.mem_insert ..
    · exact ⟨_, link, by rw [Tables.getElem?_insert, if_pos rfl], rfl⟩
  · rename_i full
    refine ⟨fun _ => ?_, fun _ => tracks⟩
    rw [Clear]
    omega

theorem terminal_tracks_iff {w : Watched} (tracks : w.Tracks) (hid updateType : UInt32) (now : Rat)
    (choice : Nat) :
    (w.step (.terminal hid updateType now choice)).Tracks ↔
      w.Clear (.terminal hid updateType now choice) := by
  rw [Watched.step, Clear]
  split
  · rename_i none_
    refine ⟨fun _ _ link hid' link' found => ?_, fun _ => tracks⟩
    rw [none_] at found
    cases found
  · rename_i link found
    split
    · rename_i ends
      have end_ : updateType &&& (CONNECT_SUCCESS ||| ACCEPT_SUCCESS) = 0 := by
        simp only [Connector.terminalTypes, List.mem_cons, List.not_mem_nil, or_false] at ends
        rcases ends with rfl | rfl | rfl | rfl | rfl <;> decide
      have effect : (heard { w with live := w.live.erase hid } now choice hid updateType link).Tracks ↔
          _ := heard_disconnect tracks ?_ ?_ now choice ?_ end_
      · rw [effect]
        constructor
        · rintro ⟨-, gone⟩ _ link₁ hid' link' found₁ other found' same
          rw [found] at found₁
          cases found₁
          exact gone ⟨hid', link', by rw [Tables.getElem?_erase, if_neg other, found'], same⟩
        · intro clear
          refine ⟨fun i => Tables.mem_erase .., ?_⟩
          rintro ⟨hid', link', found', same⟩
          rw [Tables.getElem?_erase] at found'
          split at found'
          · cases found'
          · exact clear ends link hid' link' found ‹_› found' same
      · rfl
      · rfl
      · intro key other
        constructor
        · rintro ⟨hid', link', found', same⟩
          rw [Tables.getElem?_erase] at found'
          split at found'
          · cases found'
          · exact ⟨hid', link', found', same⟩
        · rintro ⟨hid', link', found', same⟩
          refine ⟨hid', link', ?_, same⟩
          rw [Tables.getElem?_erase, if_neg, found']
          rintro rfl
          rw [found] at found'
          cases found'
          exact other same.symm
    · rename_i other
      exact ⟨fun _ ends => absurd ends other, fun _ => tracks⟩

theorem failure_tracks_iff {w : Watched} (tracks : w.Tracks) (link : Link) (now : Rat)
    (choice : Nat) :
    (w.step (.failure link now choice)).Tracks ↔ w.Clear (.failure link now choice) := by
  have effect : (w.heard now choice 0 CONNECT_FAILURE link).Tracks ↔ _ :=
    heard_disconnect tracks rfl rfl now choice (fun _ _ => Iff.rfl) (by decide)
  rw [Watched.step, Clear, effect]
  apply and_congr_left
  intro _
  constructor
  · intro same member
    exact ((same 0).1 member).1 rfl
  · intro absent i
    refine ⟨fun member => ⟨?_, member⟩, fun both => both.2⟩
    rintro rfl
    exact absent member

theorem tracks_step_iff (w : Watched) (e : ConnectorEvent) (counted : w.Counted)
    (tracks : w.Tracks) : (w.step e).Tracks ↔ w.Clear e := by
  cases e with
  | success accepted link now choice =>
      exact success_tracks_iff counted tracks accepted link now choice
  | terminal hid updateType now choice => exact terminal_tracks_iff tracks hid updateType now choice
  | failure link now choice => exact failure_tracks_iff tracks link now choice

theorem start_tracks : start.Tracks where
  hids := fun _ => ⟨fun no => absurd no TreeMap.not_mem_emptyc, fun no => absurd no TreeMap.not_mem_emptyc⟩
  addrs := fun _ no => absurd no List.not_mem_nil

end Watched

/-- The tables say who is connected at every moment of a run, exactly if no event of it is one
that misleads them. -/
theorem live_connections_iff (events : List ConnectorEvent) :
    (∀ before after, events = before ++ after → (run Watched.step Watched.start before).Tracks) ↔
      Along Watched.step Watched.Clear Watched.start events :=
  always_iff_along (fun _ e counted => Watched.Counted.step counted e) Watched.tracks_step_iff
    (fun _ no => absurd no TreeMap.not_mem_emptyc) Watched.start_tracks events

/-- A connection from `0.0.0.0:0`, which is as good as any. -/
def someLink : Link := ⟨CxnHandler.localAddr, CxnHandler.localAddr⟩

/-- Two connections to one address, the first of which ends. -/
def firstEnds : List ConnectorEvent :=
  [.success true someLink 1 0, .success true someLink 2 0, .terminal 0 ORDERLY_DISCONNECT 3 0]

/-- The second is there, and its address is taken to be without a connection. -/
theorem second_forgotten : ¬ (run Watched.step Watched.start firstEnds).Tracks := by
  intro tracks
  have seen : CxnHandler.localAddr ∈ (run Watched.step Watched.start firstEnds).seen :=
    List.mem_cons_self
  obtain ⟨hid, found, known⟩ := tracks.addrs _ seen
  have lost : (run Watched.step Watched.start firstEnds).getaddr.knownAddrs[
      CxnHandler.localAddr.key]? = some noHandle := by decide +kernel
  have there : ((run Watched.step Watched.start firstEnds).live[(1 : UInt32)]?).map
      (fun link => link.remote.key) = some CxnHandler.localAddr.key := by decide +kernel
  obtain ⟨link, live, same⟩ := Option.map_eq_some_iff.1 there
  rw [lost] at found
  cases found
  exact known.2 ⟨1, link, live, same⟩ rfl

end Coinscope.Clients

/-
# Clients.AddressBook -- an attempt for every address

`getaddr` learns addresses from three sides: the list of connections it asks for, the records of
the connector, and the addr messages of the peers.  Whichever it is, the address goes into
`g_known_addrs` and gets a `cxn_handler` in `g_cxns`, which from then on is told what becomes of
the connection, and is never removed.

* `Booked` -- the two tables have the same addresses, and each handler is for its address.
* `address_book` -- in every run of the program.
-/
import Coinscope.Clients.Polling

namespace Coinscope.Clients

open Coinscope.Shared
open Coinscope.Theory
open Coinscope.Theory.Runs
open Std (TreeMap)

set_option autoImplicit false

/-! ## What a handler writes -/

/-- A handler writes this frame and no other. -/
def CxnHandler.Writes (frame : List UInt8) (h : CxnHandler) : Prop :=
  h.sers = frame ∧ ∀ time bytes, .wrote time bytes ∈ h.trace → bytes = frame

namespace CxnHandler

variable {frame : List UInt8} {h : CxnHandler} (now : Rat) (choice : Nat)

theorem Writes.moveTo (writes : h.Writes frame) (s : CxnState) : (h.moveTo s).Writes frame := by
  refine ⟨writes.1, ?_⟩
  intro time bytes member
  rcases List.mem_append.1 member with old | new
  · exact writes.2 time bytes old
  · cases List.mem_singleton.1 new

theorem Writes.write (writes : h.Writes frame) : (h.write now).Writes frame := by
  refine ⟨writes.1, ?_⟩
  intro time bytes member
  rcases List.mem_append.1 member with old | new
  · exact writes.2 time bytes old
  · cases List.mem_singleton.1 new
    exact writes.1

theorem Writes.expirePending (writes : h.Writes frame) : (h.expirePending now).Writes frame := by
  unfold CxnHandler.expirePending
  split
  · simp only
    split
    · split
      · exact Writes.moveTo ⟨writes.1, writes.2⟩ .DISCONNECTED
      · exact writes
    · exact writes
  · exact writes

theorem Writes.attend (writes : h.Writes frame) : (h.attend now choice).Writes frame := by
  unfold CxnHandler.attend
  split
  · split
    · split
      · exact writes
      · exact writes
    · unfold unwound
      split
      · exact writes
      · exact writes
    · exact (writes.moveTo .CONNECTING).write now
  · exact writes

theorem Writes.timerCb (writes : h.Writes frame) : (h.timerCb now choice).Writes frame :=
  (writes.expirePending now).attend now choice

theorem Writes.expired (writes : h.Writes frame) : (h.expired now choice).Writes frame := by
  unfold CxnHandler.expired
  split
  · exact Writes.timerCb now choice ⟨writes.1, writes.2⟩
  · exact writes

theorem Writes.notified (writes : h.Writes frame) (s : CxnState) :
    (h.notified now choice s).Writes frame := by
  have told : ∀ time bytes, CxnAct.wrote time bytes ∈ h.trace ++ [CxnAct.told s] →
      bytes = frame := by
    intro time bytes member
    rcases List.mem_append.1 member with old | new
    · exact writes.2 time bytes old
    · cases List.mem_singleton.1 new
  unfold CxnHandler.notified
  simp only
  split
  · exact ⟨writes.1, told⟩
  · exact ⟨writes.1, told⟩

theorem new_writes (remote : SockaddrIn) (s : CxnState) :
    (CxnHandler.new now choice remote s).Writes (connectMsg remote localAddr).serialize :=
  Writes.timerCb now choice ⟨rfl, fun _ _ member => by cases member⟩

end CxnHandler

/-! ## The tables -/

/-- The handler of an address: between two callbacks, and writing to ask for that address. -/
def Serves (key : Nat) (h : CxnHandler) : Prop :=
  h.Sound ∧ ∃ remote : SockaddrIn, remote.key = key ∧
    h.Writes (connectMsg remote CxnHandler.localAddr).serialize

/-- The two tables have the same addresses, and each handler is for its address. -/
structure Booked (g : Getaddr) : Prop where
  both : ∀ key, key ∈ g.knownAddrs ↔ key ∈ g.cxns
  serves : ∀ (key : Nat) (h : CxnHandler), g.cxns[key]? = some h → Serves key h

section Serves

variable {now : Rat} (positive : 0 < now) (choice : Nat)

include positive in
theorem serves_new (remote : SockaddrIn) {s : CxnState} (other : s ≠ .CONNECTING) :
    Serves remote.key (CxnHandler.new now choice remote s) :=
  ⟨CxnHandler.new_sound positive choice remote other, remote, rfl,
    CxnHandler.new_writes now choice remote s⟩

include positive in
theorem Serves.expired {key : Nat} {h : CxnHandler} (serves : Serves key h) :
    Serves key (h.expired now choice) := by
  obtain ⟨sound, remote, same, writes⟩ := serves
  exact ⟨sound.expired positive choice, remote, same, writes.expired now choice⟩

theorem Serves.notified {key : Nat} {h : CxnHandler} (serves : Serves key h) (now : Rat)
    {s : CxnState} (other : s ≠ .CONNECTING) : Serves key (h.notified now choice s) := by
  obtain ⟨sound, remote, same, writes⟩ := serves
  exact ⟨sound.notified now choice other, remote, same, writes.notified now choice s⟩

end Serves

namespace Booked

variable {g g' : Getaddr}

/-- Handles and rounds are of no account here. -/
theorem congr (booked : Booked g) (addrs : g'.knownAddrs = g.knownAddrs) (cxns : g'.cxns = g.cxns) :
    Booked g' := by
  refine ⟨?_, ?_⟩
  · intro key
    rw [addrs, cxns]
    exact booked.both key
  · rw [cxns]
    exact booked.serves

/-- An address comes, or comes again. -/
theorem grow (booked : Booked g) (key : Nat)
    (addrs : ∀ key', key' ∈ g'.knownAddrs ↔ key' = key ∨ key' ∈ g.knownAddrs)
    (cxns : ∀ key', key' ∈ g'.cxns ↔ key' = key ∨ key' ∈ g.cxns)
    (serves : ∀ (key' : Nat) (h : CxnHandler), g'.cxns[key']? = some h →
      Serves key' h ∨ g.cxns[key']? = some h) : Booked g' := by
  refine ⟨?_, ?_⟩
  · intro key'
    rw [addrs, cxns, booked.both]
  · intro key' h found
    rcases serves key' h found with new | old
    · exact new
    · exact booked.serves key' h old

theorem insert (booked : Booked g) {key : Nat} {hid : UInt32} {h : CxnHandler} (serves : Serves key h)
    (addrs : g'.knownAddrs = g.knownAddrs.insert key hid) (cxns : g'.cxns = g.cxns.insert key h) :
    Booked g' := by
  refine booked.grow key ?_ ?_ ?_
  · intro key'
    rw [addrs, Tables.mem_insert]
  · intro key'
    rw [cxns, Tables.mem_insert]
  · intro key' h' found
    rw [cxns, Tables.getElem?_insert] at found
    split at found
    · cases found
      rw [‹key' = key›]
      exact Or.inl serves
    · exact Or.inr found

theorem insertIfNew (booked : Booked g) {key : Nat} {h : CxnHandler} (serves : Serves key h)
    (addrs : ∀ key', key' ∈ g'.knownAddrs ↔ key' = key ∨ key' ∈ g.knownAddrs)
    (cxns : g'.cxns = g.cxns.insertIfNew key h) : Booked g' := by
  refine booked.grow key addrs ?_ ?_
  · intro key'
    rw [cxns, TreeMap.mem_insertIfNew, Std.LawfulEqCmp.compare_eq_iff_eq, eq_comm]
  · intro key' h' found
    rw [cxns, TreeMap.getElem?_insertIfNew] at found
    split at found
    · rename_i new
      cases found
      rw [← Std.LawfulEqCmp.compare_eq_iff_eq.1 new.1]
      exact Or.inl serves
    · exact Or.inr found

/-- The two callbacks of the watcher, as far as the addresses go. -/
theorem tellCxn (booked : Booked g) {now : Rat} (positive : 0 < now) (choice : Nat)
    {remote : SockaddrIn} {hid : UInt32} {s : CxnState} (other : s ≠ .CONNECTING)
    (addrs : g'.knownAddrs = g.knownAddrs.insert remote.key hid) (cxns : g'.cxns = g.cxns) :
    Booked (g'.tellCxn now choice remote s) := by
  unfold Getaddr.tellCxn
  split
  · exact booked.insert (serves_new positive choice remote other) addrs (by rw [← cxns])
  · rename_i h found
    rw [cxns] at found
    exact booked.insert ((booked.serves _ h found).notified choice now other) addrs (by rw [← cxns])

theorem onConnect (booked : Booked g) {now : Rat} (positive : 0 < now) (choice : Nat)
    (msg : ChannelMsg) : Booked (g.onConnect now choice msg) := by
  have told : Booked (Getaddr.tellCxn
      { g with knownAddrs := g.knownAddrs.insert msg.remote.key msg.handleId } now choice
      msg.remote .CONNECTED) :=
    booked.tellCxn positive choice (by decide) rfl rfl
  unfold Getaddr.onConnect
  simp only
  split
  · exact told.congr rfl rfl
  · exact told.congr rfl rfl

theorem onDisconnect (booked : Booked g) {now : Rat} (positive : 0 < now) (choice : Nat)
    (msg : ChannelMsg) : Booked (g.onDisconnect now choice msg) := by
  unfold Getaddr.onDisconnect
  simp only
  have told : ∀ notes, Booked (Getaddr.tellCxn
      { g with knownAddrs := g.knownAddrs.insert msg.remote.key noHandle, notes := notes } now choice
      msg.remote .DISCONNECTED) :=
    fun _ => booked.tellCxn positive choice (by decide) rfl rfl
  split
  · exact (told _).congr rfl rfl
  · exact (told g.notes).congr rfl rfl

/-! ## Harvesting -/

variable {now : Rat} (positive : 0 < now) (chance : Chance) (memory : Nat → UInt8)

include positive

theorem learn {h : Harvest} (booked : Booked h.getaddr) (remote : SockaddrIn) :
    Booked (h.learn now chance remote).getaddr := by
  unfold Harvest.learn
  split
  · exact booked
  · refine booked.insertIfNew (serves_new positive _ remote (by decide)) ?_ rfl
    intro key
    exact Tables.mem_insert ..

theorem harvestEntry {h : Harvest} (booked : Booked h.getaddr) (addrs i : Nat) :
    Booked ((harvestEntry now chance addrs h i).value memory).getaddr := by
  rw [Clients.harvestEntry, Access.value_bind]
  simp only
  split
  · exact booked
  · split
    · rw [Access.value_bind, Access.value_bind, Access.value_pure]
      exact learn positive chance (by exact booked) _
    · exact booked

omit positive in
theorem foldlM {body : Harvest → Nat → Access UInt8 Harvest}
    (each : ∀ h i, Booked h.getaddr → Booked ((body h i).value memory).getaddr) (list : List Nat)
    {h : Harvest} (booked : Booked h.getaddr) :
    Booked ((list.foldlM body h).value memory).getaddr := by
  induction list generalizing h with
  | nil => exact booked
  | cons i rest ih =>
      rw [List.foldlM_cons, Access.value_bind]
      exact ih (each h i booked)

theorem handleRecord (booked : Booked g) :
    Booked ((handleRecord now chance g).value memory).getaddr := by
  have heard : ∀ hid : UInt32, Booked (g.heardFrom now hid) := by
    intro hid
    unfold Getaddr.heardFrom
    split
    · exact booked.congr rfl rfl
    · exact booked.congr rfl rfl
  rw [Clients.handleRecord, Access.value_bind]
  split
  · exact booked
  · rw [Access.value_bind]
    split
    · rw [Access.value_bind, harvest, Access.value_bind]
      refine foldlM memory ?_ _ (heard _)
      intro h _ before
      exact foldlM memory (fun _ i there => harvestEntry positive chance memory there _ i) _ before
    · exact booked

end Booked

/-! ## Every run -/

namespace Poller

/-- The invariant of a run. -/
def Kept (w : Poller) : Prop := 0 < w.now ∧ Booked w.getaddr

theorem Kept.step {w : Poller} (kept : w.Kept) (isBound : SockaddrIn → Bool) (e : PollEvent) :
    (w.step isBound e).Kept := by
  obtain ⟨positive, booked⟩ := kept
  cases e with
  | listed choice hid remote localAddr =>
      refine ⟨positive, booked.insertIfNew (serves_new positive choice remote (by decide)) ?_ rfl⟩
      intro key
      show key ∈ w.getaddr.knownAddrs.insertIfNew remote.key hid ↔ _
      rw [TreeMap.mem_insertIfNew, Std.LawfulEqCmp.compare_eq_iff_eq, eq_comm]
  | record choice msg =>
      refine ⟨positive, ?_⟩
      show Booked (w.getaddr.deliver w.now choice msg)
      unfold Getaddr.deliver
      split
      · exact booked.onConnect positive choice msg
      · exact booked.onDisconnect positive choice msg
  | message chance memory => exact ⟨positive, booked.handleRecord positive chance memory⟩
  | hidTimer hid =>
      rcases hidTimer_cases w hid with same | ⟨h, -, -, outcome⟩
      · rw [Poller.step, same]
        exact ⟨positive, booked⟩
      · rw [Poller.step]
        rcases outcome with ⟨-, -, stepped⟩ | ⟨-, -, stepped⟩ | ⟨-, stepped⟩
        · rw [stepped]
          exact ⟨positive, booked.congr rfl rfl⟩
        · rw [stepped]
          exact ⟨positive, booked.congr rfl rfl⟩
        · rw [stepped]
          exact ⟨positive, booked.congr rfl rfl⟩
  | cxnTimer key choice =>
      rw [Poller.step]
      split
      · exact ⟨positive, booked⟩
      · rename_i h found
        refine ⟨positive, ?_, ?_⟩
        · intro key'
          show key' ∈ w.getaddr.knownAddrs ↔ key' ∈ w.getaddr.cxns.insert key _
          rw [Tables.mem_insert, booked.both]
          constructor
          · exact Or.inr
          · rintro (rfl | old)
            · rw [TreeMap.mem_iff_isSome_getElem?, found]
              rfl
            · exact old
        · intro key' h' there
          rw [Tables.getElem?_insert] at there
          split at there
          · cases there
            rw [‹key' = key›]
            exact (booked.serves key h found).expired positive choice
          · exact booked.serves key' h' there
  | pusher => exact ⟨positive, booked⟩
  | periodic => exact ⟨positive, booked.congr rfl rfl⟩
  | clock now =>
      rw [Poller.step]
      split
      · exact ⟨lt_of_lt_of_le positive ‹_›, booked⟩
      · exact ⟨positive, booked⟩

end Poller

/-- In every run of the program an address is known exactly if it has a handler, the handler
writes nothing but CONNECT messages for its address, and it neither stalls nor hurries. -/
theorem address_book (isBound : SockaddrIn → Bool) {now : Rat} (positive : 0 < now)
    (events : List PollEvent) (w : Poller)
    (reached : w = run (Poller.step isBound) (Poller.start now) events) :
    (∀ key, key ∈ w.getaddr.knownAddrs ↔ key ∈ w.getaddr.cxns) ∧
      ∀ (key : Nat) (h : CxnHandler), w.getaddr.cxns[key]? = some h →
        h.Steady ∧ ∃ remote : SockaddrIn, remote.key = key ∧ ∀ time frame,
          .wrote time frame ∈ h.trace →
            frame = (connectMsg remote CxnHandler.localAddr).serialize := by
  have empty : Booked Getaddr.start := by
    refine ⟨?_, ?_⟩
    · intro key
      simp [Getaddr.start]
    · intro key h found
      rw [Getaddr.start, TreeMap.getElem?_emptyc] at found
      cases found
  have kept : w.Kept := by
    rw [reached]
    exact run_keeps (fun _ e kept => kept.step isBound e) ⟨positive, empty⟩ events
  refine ⟨kept.2.both, ?_⟩
  intro key h found
  obtain ⟨sound, remote, same, -, writes⟩ := kept.2.serves key h found
  exact ⟨sound.steady, remote, same, writes⟩

/-- A peer connects, is lost, and is tried again. -/
def someTrial : List PollEvent :=
  [.record 0 ⟨7, CONNECT_SUCCESS, someRemote, someRemote⟩,
   .record 0 ⟨7, PEER_RESET, someRemote, someRemote⟩, .cxnTimer someRemote.key 0]

theorem address_book_trial :
    ((run (Poller.step fun _ => false) (Poller.start 1000)
        someTrial).getaddr.cxns[someRemote.key]?.map (·.trace.length)) = some 3 ∧
      ∀ key, key ∈ (run (Poller.step fun _ => false) (Poller.start 1000) someTrial).getaddr.knownAddrs ↔
        key ∈ (run (Poller.step fun _ => false) (Poller.start 1000) someTrial).getaddr.cxns :=
  ⟨by decide +kernel, (address_book (fun _ => false) (by decide +kernel) someTrial _ rfl).1⟩

end Coinscope.Clients

/-
# Clients.Polling -- when getaddr asks a peer again

Every handle has a `hid_handler` with one timer.  An addr message from the peer (`enqueue`) starts
the timer or, if it runs, moves the time it is about; when it expires and nothing has come for
ten seconds, the handle is put on `g_pending_getaddrs`, at most 24 times in a round.  Every two
seconds `getaddr_pusher` sends what is pending, and `clock_cb` starts a new round and drops the
connections that were made from here.

The callbacks share the global variables, so the program is one machine: every callback is an
event, and the events come in any order.

* `HidHandler.timerCb`, `HidHandler.setSequence`, `Poller.push`, `Poller.clockCb` -- the callbacks.
* `Poller.Sound` -- what is true between two callbacks.
* `polling_paced` -- ten seconds of silence before every getaddr, 24 of them in a round, and none
  of them lost.
-/
import Coinscope.Clients.Harvest

namespace Coinscope.Clients

open Coinscope.Shared
open Coinscope.Theory
open Coinscope.Theory.Bytes
open Coinscope.Theory.Histories
open Coinscope.Theory.Runs
open Coinscope.Control (COMMAND_SEND_MSG COMMAND_DISCONNECT)
open Std (TreeMap)

set_option autoImplicit false

/-! ## The callbacks -/

def GETADDR_LIMIT : Nat := 24

namespace HidHandler

/-- `timer_cb`; whether the handle is to be pushed. -/
def timerCb (now : Rat) (current : UInt32) (h : HidHandler) : Bool × HidHandler :=
  let after := 10 + h.lastEnqueue - now
  if after ≤ 0 then
    if h.getaddrSeq = current ∧ h.getaddrCnt < GETADDR_LIMIT then
      (true, { h with getaddrCnt := h.getaddrCnt + 1 })
    else (false, h)
  else (false, { h with timer := some (now + after) })

/-- `set_sequence(s)`. -/
def setSequence (s : UInt32) (h : HidHandler) : HidHandler :=
  if s ≠ h.getaddrSeq then { h with getaddrSeq := s, getaddrCnt := 0 } else h

end HidHandler

/-- What an observer sees of the polling: a handler is made for a handle, its `enqueue` is called,
its timer expires behind the waiting period, a new round begins. -/
inductive PollAct where
  | opened (hid : UInt32)
  | asked (hid : UInt32) (time : Rat)
  | pushed (hid : UInt32) (time : Rat)
  | skipped (hid : UInt32) (time : Rat)
  | round
  deriving DecidableEq

/-- What is written to `g_control` beside CONNECT messages. -/
inductive Order where
  | sendMsg (targets : List UInt32)
  | disconnect (targets : List UInt32)
  deriving DecidableEq

/-- The handles a command asks for addresses. -/
def Order.polls : Order → List UInt32
  | .sendMsg targets => targets
  | .disconnect _ => []

/-- The program: the clock, the global variables, what was written, and what was seen. -/
structure Poller where
  now : Rat
  getaddr : Getaddr
  pending : List UInt32
  orders : List Order
  acts : List PollAct

/-- The sender of an addr message, by the bytes of the record. -/
def addrSender (memory : Nat → UInt8) : Option UInt32 :=
  if memory 17 ≠ 0 then none
  else if (Access.agrees 22 (ascii ['a', 'd', 'd', 'r'] ++ [0])).value memory then
    some (UInt32.ofNat (ofBE ((Access.cells 13 4).value memory)))
  else none

/-- A connection of the list that `main` asks for. -/
def Getaddr.listed (g : Getaddr) (now : Rat) (choice : Nat) (hid : UInt32)
    (remote localAddr : SockaddrIn) : Getaddr :=
  { g with
    knownAddrs := g.knownAddrs.insertIfNew remote.key hid
    cxns := g.cxns.insertIfNew remote.key (CxnHandler.new now choice remote .CONNECTED)
    knownHids := g.knownHids.insertIfNew hid (g.newHid now hid remote localAddr) }

namespace Poller

variable (isBound : SockaddrIn → Bool)

def start (now : Rat) : Poller := ⟨now, Getaddr.start, [], [], []⟩

/-- A handler is made; in the first ten minutes of a round its constructor calls `enqueue`. -/
def opening (w : Poller) (hid : UInt32) : List PollAct :=
  .opened hid :: if w.now - w.getaddr.getaddrStart < 600 then [.asked hid w.now] else []

/-- The timer of a handler has expired; it does not repeat. -/
def hidTimer (w : Poller) (hid : UInt32) : Poller :=
  match w.getaddr.knownHids[hid]? with
  | none => w
  | some h =>
      if h.timer.isSome then
        let result := { h with timer := none }.timerCb w.now w.getaddr.currentGetaddr
        let w := { w with getaddr := { w.getaddr with
          knownHids := w.getaddr.knownHids.insert hid result.2 } }
        if result.1 then
          { w with pending := w.pending ++ [h.hid], acts := w.acts ++ [.pushed hid w.now] }
        else if result.2.timer.isSome then w
        else { w with acts := w.acts ++ [.skipped hid w.now] }
      else w

/-- `getaddr_pusher::timer_cb` with `send_getaddrs`. -/
def push (w : Poller) : Poller :=
  let orders := if w.pending.length = 0 then w.orders else w.orders ++ [.sendMsg w.pending]
  { w with orders := orders, pending := [] }

/-- `clock_cb`.  `isBound` is what `g_bound_addrs`, which is filled before the loop starts, is
asked for. -/
def clockCb (w : Poller) : Poller :=
  let current := w.getaddr.currentGetaddr + 1
  let hids := w.getaddr.knownHids.map fun _ h => h.setSequence current
  let outbound := (hids.toList.filter fun entry => !isBound entry.2.localAddr).map fun entry => entry.1
  { w with
    getaddr := { w.getaddr with
      currentGetaddr := current, getaddrStart := w.now, knownHids := hids }
    orders := if outbound.length ≠ 0 then w.orders ++ [.disconnect outbound] else w.orders
    acts := w.acts ++ [.round] }

end Poller

/-- What can happen: a connection of the initial list, a record from the channel `bitcoin`, one
from the channel `bitcoin_msg`, and the timers; the loop may call a timer back before or after
`ev::now` says that it is due. -/
inductive PollEvent where
  | listed (choice : Nat) (hid : UInt32) (remote localAddr : SockaddrIn)
  | record (choice : Nat) (msg : ChannelMsg)
  | message (chance : Chance) (memory : Nat → UInt8)
  | hidTimer (hid : UInt32)
  | cxnTimer (key choice : Nat)
  | pusher
  | periodic
  | clock (now : Rat)

namespace Poller

variable (isBound : SockaddrIn → Bool)

/-- The sender of an addr message is asked again, if it is known. -/
def asking (w : Poller) (memory : Nat → UInt8) : List PollAct :=
  match addrSender memory with
  | none => []
  | some hid => if hid ∈ w.getaddr.knownHids then [.asked hid w.now] else []

/-- A callback. -/
def step (w : Poller) : PollEvent → Poller
  | .listed choice hid remote localAddr =>
      { w with
        getaddr := w.getaddr.listed w.now choice hid remote localAddr
        acts := if hid ∈ w.getaddr.knownHids then w.acts else w.acts ++ w.opening hid }
  | .record choice msg =>
      { w with
        getaddr := w.getaddr.deliver w.now choice msg
        acts := if msg.updateType &&& (CONNECT_SUCCESS ||| ACCEPT_SUCCESS) ≠ 0 then
            w.acts ++ w.opening msg.handleId
          else w.acts }
  | .message chance memory =>
      { w with
        getaddr := ((handleRecord w.now chance w.getaddr).value memory).getaddr
        acts := w.acts ++ w.asking memory }
  | .hidTimer hid => w.hidTimer hid
  | .cxnTimer key choice =>
      match w.getaddr.cxns[key]? with
      | none => w
      | some h => { w with getaddr := { w.getaddr with
          cxns := w.getaddr.cxns.insert key (h.expired w.now choice) } }
  | .pusher => w.push
  | .periodic => w.clockCb isBound
  | .clock now => if w.now ≤ now then { w with now := now } else w

end Poller

/-! ## Reading the acts -/

namespace PollAct

/-- Nothing here is later than `now`. -/
def By (now : Rat) : PollAct → Prop
  | .asked _ time => time ≤ now
  | .pushed _ time => time ≤ now
  | .skipped _ time => time ≤ now
  | _ => True

/-- The handle of an act, unless it is about all of them. -/
def hid? : PollAct → Option UInt32
  | .opened hid => some hid
  | .asked hid _ => some hid
  | .pushed hid _ => some hid
  | .skipped hid _ => some hid
  | .round => none

def pushed? : PollAct → Option UInt32
  | .pushed hid _ => some hid
  | _ => none

theorem By.mono {now later : Rat} {act : PollAct} (past : act.By now) (le : now ≤ later) :
    act.By later := by
  cases act with
  | opened hid => trivial
  | asked hid time => exact le_trans past le
  | pushed hid time => exact le_trans past le
  | skipped hid time => exact le_trans past le
  | round => trivial

end PollAct

/-- Since when a handle waits to be pushed, with one more act about it. -/
def noteAsked (asked : Option Rat) : PollAct → Option Rat
  | .asked _ time => some time
  | .round => asked
  | _ => none

/-- How often it was pushed in this round, with one more act about it. -/
def noteSpent (spent : Nat) : PollAct → Nat
  | .pushed _ _ => spent + 1
  | .opened _ => 0
  | .round => 0
  | _ => spent

/-- The acts that concern a handle. -/
def concerns (hid : UInt32) (act : PollAct) : Bool := act.hid? == some hid || act.hid? == none

/-- The time of the last `enqueue` of a handle that nothing has come of yet. -/
def waiting (hid : UInt32) (acts : List PollAct) : Option Rat :=
  (acts.filter (concerns hid)).foldl noteAsked none

/-- How often a handle was pushed since its handler was made or the round began. -/
def spent (hid : UInt32) (acts : List PollAct) : Nat :=
  (acts.filter (concerns hid)).foldl noteSpent 0

theorem waiting_append (hid : UInt32) (acts : List PollAct) (act : PollAct) :
    waiting hid (acts ++ [act]) =
      if concerns hid act then noteAsked (waiting hid acts) act else waiting hid acts := by
  rw [waiting, waiting, List.filter_append, List.foldl_append]
  split
  · rw [List.filter_cons_of_pos ‹_›]
    rfl
  · rw [List.filter_cons_of_neg ‹_›]
    rfl

theorem spent_append (hid : UInt32) (acts : List PollAct) (act : PollAct) :
    spent hid (acts ++ [act]) =
      if concerns hid act then noteSpent (spent hid acts) act else spent hid acts := by
  rw [spent, spent, List.filter_append, List.foldl_append]
  split
  · rw [List.filter_cons_of_pos ‹_›]
    rfl
  · rw [List.filter_cons_of_neg ‹_›]
    rfl

theorem concerns_iff {hid other : UInt32} {act : PollAct} (about : act.hid? = some other) :
    concerns hid act = true ↔ other = hid := by
  simp [concerns, about]

/-- The time a handle waits since is the time of its last `enqueue`, and nothing has come of it. -/
theorem waiting_split {hid : UInt32} {acts : List PollAct} {since : Rat}
    (waits : waiting hid acts = some since) :
    ∃ earlier later, acts = earlier ++ .asked hid since :: later ∧
      ∀ act ∈ later, act.hid? ≠ some hid := by
  induction acts using List.reverseRecOn with
  | nil => cases waits
  | append_singleton front act ih =>
      rw [waiting_append] at waits
      -- an act that leaves `waiting` as it is comes to the later ones
      have keep : act.hid? ≠ some hid → waiting hid front = some since →
          ∃ earlier later, front ++ [act] = earlier ++ .asked hid since :: later ∧
            ∀ act ∈ later, act.hid? ≠ some hid := by
        intro other before
        obtain ⟨earlier, later, rfl, none_⟩ := ih before
        refine ⟨earlier, later ++ [act], by simp, ?_⟩
        intro act' member
        rcases List.mem_append.1 member with old | new
        · exact none_ act' old
        · rw [List.mem_singleton.1 new]
          exact other
      split at waits
      · rename_i mine
        cases act with
        | asked hid' time =>
            cases waits
            rw [(concerns_iff rfl).1 mine]
            exact ⟨front, [], rfl, fun _ member => by cases member⟩
        | round => exact keep nofun waits
        | opened hid' => cases waits
        | pushed hid' time => cases waits
        | skipped hid' time => cases waits
      · rename_i other
        refine keep ?_ waits
        intro about
        exact other ((concerns_iff about).2 rfl)

/-- What an act may be behind others. -/
def Pollable (before : List PollAct) : PollAct → Prop
  | .asked _ time => ∀ act ∈ before, act.By time
  | .pushed hid time => (∀ act ∈ before, act.By time) ∧ spent hid before < GETADDR_LIMIT ∧
      ∃ since, waiting hid before = some since ∧ since + 10 ≤ time
  | .skipped hid time => (∀ act ∈ before, act.By time) ∧ spent hid before = GETADDR_LIMIT ∧
      ∃ since, waiting hid before = some since ∧ since + 10 ≤ time
  | _ => True

/-! ## The invariant -/

/-- A handler is as the acts say. -/
structure Fits (current : UInt32) (acts : List PollAct) (hid : UInt32) (h : HidHandler) : Prop where
  name : h.hid = hid
  sequence : h.getaddrSeq = current
  count : h.getaddrCnt = spent hid acts
  few : h.getaddrCnt ≤ GETADDR_LIMIT
  idle : waiting hid acts = none → h.timer = none
  armed : ∀ since, waiting hid acts = some since →
    h.lastEnqueue = since ∧ ∃ due, h.timer = some due ∧ due ≤ since + 10

structure Poller.Sound (w : Poller) : Prop where
  fits : ∀ (hid : UInt32) (h : HidHandler), w.getaddr.knownHids[hid]? = some h →
    Fits w.getaddr.currentGetaddr w.acts hid h
  pollable : Each Pollable w.acts
  past : ∀ act ∈ w.acts, act.By w.now
  sent : w.orders.flatMap Order.polls ++ w.pending = w.acts.filterMap PollAct.pushed?

namespace Fits

variable {current : UInt32} {acts : List PollAct} {hid : UInt32} {h : HidHandler}

/-- What is done with other handles. -/
theorem other (fits : Fits current acts hid h) {act : PollAct} {hid' : UInt32}
    (about : act.hid? = some hid') (different : hid' ≠ hid) :
    Fits current (acts ++ [act]) hid h := by
  have unconcerned : ¬ concerns hid act = true := by
    rw [concerns_iff about]
    exact different
  have same : waiting hid (acts ++ [act]) = waiting hid acts ∧
      spent hid (acts ++ [act]) = spent hid acts := by
    rw [waiting_append, spent_append, if_neg unconcerned, if_neg unconcerned]
    exact ⟨rfl, rfl⟩
  refine ⟨fits.name, fits.sequence, ?_, fits.few, ?_, ?_⟩
  · rw [same.2]
    exact fits.count
  · rw [same.1]
    exact fits.idle
  · rw [same.1]
    exact fits.armed

theorem concerned (acts : List PollAct) (act : PollAct) (about : act.hid? = some hid) :
    waiting hid (acts ++ [act]) = noteAsked (waiting hid acts) act ∧
      spent hid (acts ++ [act]) = noteSpent (spent hid acts) act := by
  have mine : concerns hid act = true := (concerns_iff about).2 rfl
  rw [waiting_append, spent_append, if_pos mine, if_pos mine]
  exact ⟨rfl, rfl⟩

/-- `enqueue()`, at a time that is not before what happened. -/
theorem enqueue (fits : Fits current acts hid h) {now : Rat}
    (past : ∀ since, waiting hid acts = some since → since ≤ now) :
    Fits current (acts ++ [.asked hid now]) hid (h.enqueue now) := by
  obtain ⟨waits, pushes⟩ := concerned acts (.asked hid now) rfl
  refine ⟨fits.name, fits.sequence, ?_, fits.few, ?_, ?_⟩
  · rw [pushes]
    exact fits.count
  · rw [waits]
    intro none_
    cases none_
  · rw [waits]
    rintro since ⟨⟩
    refine ⟨rfl, ?_⟩
    rw [HidHandler.enqueue]
    cases known : waiting hid acts with
    | none =>
        rw [fits.idle known]
        exact ⟨now + 10, rfl, le_refl _⟩
    | some since =>
        -- the timer runs and is not set again
        obtain ⟨-, due, timer, soon⟩ := fits.armed since known
        have later := past since known
        rw [timer]
        exact ⟨due, rfl, by linarith⟩

/-- `set_sequence` in a new round. -/
theorem setSequence (fits : Fits current acts hid h) :
    Fits (current + 1) (acts ++ [.round]) hid (h.setSequence (current + 1)) := by
  have mine : concerns hid .round = true := by
    rw [concerns]
    simp [PollAct.hid?]
  have waits : waiting hid (acts ++ [.round]) = waiting hid acts := by
    rw [waiting_append, if_pos mine]
    rfl
  have pushes : spent hid (acts ++ [.round]) = 0 := by
    rw [spent_append, if_pos mine]
    rfl
  have new : current + 1 ≠ h.getaddrSeq := by
    rw [fits.sequence]
    intro same
    have numbers := congrArg UInt32.toNat same
    rw [UInt32.toNat_add] at numbers
    have bound := current.toNat_lt
    have one : (1 : UInt32).toNat = 1 := rfl
    omega
  rw [HidHandler.setSequence, if_pos new]
  refine ⟨fits.name, rfl, pushes.symm, Nat.zero_le _, ?_, ?_⟩
  · rw [waits]
    exact fits.idle
  · rw [waits]
    exact fits.armed

end Fits

/-! ## What the callbacks do to the handlers -/

namespace Getaddr

variable (g : Getaddr) (now : Rat) (choice : Nat)

theorem newHid_congr {g g' : Getaddr} (current : g'.currentGetaddr = g.currentGetaddr)
    (began : g'.getaddrStart = g.getaddrStart) (hid : UInt32) (remote localAddr : SockaddrIn) :
    g'.newHid now hid remote localAddr = g.newHid now hid remote localAddr := by
  rw [newHid, newHid, current, began]

theorem tellCxn_round (remote : SockaddrIn) (s : CxnState) :
    (g.tellCxn now choice remote s).currentGetaddr = g.currentGetaddr ∧
      (g.tellCxn now choice remote s).getaddrStart = g.getaddrStart := by
  unfold tellCxn
  split
  · exact ⟨rfl, rfl⟩
  · exact ⟨rfl, rfl⟩

/-- A new handler is put in the place of whatever was there. -/
theorem onConnect_handlers (msg : ChannelMsg) :
    (g.onConnect now choice msg).currentGetaddr = g.currentGetaddr ∧
      ∀ hid : UInt32, (g.onConnect now choice msg).knownHids[hid]? =
        if hid = msg.handleId then some (g.newHid now msg.handleId msg.remote msg.localAddr)
        else g.knownHids[hid]? := by
  have hids := (tellCxn_tables { g with
    knownAddrs := g.knownAddrs.insert msg.remote.key msg.handleId } now choice msg.remote
    .CONNECTED).2
  obtain ⟨current, began⟩ := tellCxn_round { g with
    knownAddrs := g.knownAddrs.insert msg.remote.key msg.handleId } now choice msg.remote .CONNECTED
  unfold onConnect
  simp only [hids]
  split
  · refine ⟨current, ?_⟩
    intro hid
    rw [Tables.getElem?_insert, Tables.getElem?_erase]
    split
    · exact congrArg some (newHid_congr now (by exact current) (by exact began) _ _ _)
    · rfl
  · refine ⟨current, ?_⟩
    intro hid
    rw [Tables.getElem?_insert, hids]
    split
    · exact congrArg some (newHid_congr now current began _ _ _)
    · rfl

theorem onDisconnect_handlers (msg : ChannelMsg) :
    (g.onDisconnect now choice msg).currentGetaddr = g.currentGetaddr ∧
      ∀ hid : UInt32, (g.onDisconnect now choice msg).knownHids[hid]? =
        if hid = msg.handleId then none else g.knownHids[hid]? := by
  unfold onDisconnect
  simp only
  split
  · refine ⟨(tellCxn_round ..).1, ?_⟩
    intro hid
    rw [Tables.getElem?_erase, (tellCxn_tables ..).2]
  · refine ⟨(tellCxn_round ..).1, ?_⟩
    intro hid
    rw [Tables.getElem?_erase, (tellCxn_tables ..).2]

end Getaddr

/-- The handlers and the round are the same. -/
def SameHandlers (g g' : Getaddr) : Prop :=
  g'.knownHids = g.knownHids ∧ g'.currentGetaddr = g.currentGetaddr

theorem SameHandlers.refl (g : Getaddr) : SameHandlers g g := ⟨rfl, rfl⟩

theorem SameHandlers.trans {a b c : Getaddr} (first : SameHandlers a b) (second : SameHandlers b c) :
    SameHandlers a c :=
  ⟨second.1.trans first.1, second.2.trans first.2⟩

section Harvesting

variable (now : Rat) (chance : Chance) (memory : Nat → UInt8)

theorem learn_handlers (remote : SockaddrIn) (h : Harvest) :
    SameHandlers h.getaddr (h.learn now chance remote).getaddr := by
  unfold Harvest.learn
  split
  · exact SameHandlers.refl _
  · exact ⟨rfl, rfl⟩

theorem harvestEntry_handlers (addrs : Nat) (h : Harvest) (i : Nat) :
    SameHandlers h.getaddr ((harvestEntry now chance addrs h i).value memory).getaddr := by
  rw [harvestEntry, Access.value_bind]
  simp only
  have sampled : SameHandlers h.getaddr
      (({ h with considered := h.considered ++ [i] } : Harvest).doSample chance i).2.getaddr :=
    ⟨rfl, rfl⟩
  split
  · exact ⟨rfl, rfl⟩
  · split
    · rw [Access.value_bind, Access.value_bind, Access.value_pure]
      exact sampled.trans (learn_handlers now chance _ _)
    · exact sampled

/-- A loop whose body leaves the handlers alone. -/
theorem foldlM_handlers {body : Harvest → Nat → Access UInt8 Harvest}
    (each : ∀ h i, SameHandlers h.getaddr ((body h i).value memory).getaddr) (list : List Nat)
    (h : Harvest) : SameHandlers h.getaddr ((list.foldlM body h).value memory).getaddr := by
  induction list generalizing h with
  | nil => exact SameHandlers.refl _
  | cons i rest ih =>
      rw [List.foldlM_cons, Access.value_bind]
      exact (each h i).trans (ih _)

theorem harvest_handlers (payload : Nat) (h : Harvest) :
    SameHandlers h.getaddr ((harvest now chance payload h).value memory).getaddr := by
  rw [harvest, Access.value_bind]
  apply foldlM_handlers
  intro h _
  exact foldlM_handlers memory (harvestEntry_handlers now chance memory _) _ h

/-- A record concerns the handler of the sender of an addr message, and no other. -/
theorem handleRecord_handlers (g : Getaddr) :
    ((handleRecord now chance g).value memory).getaddr.currentGetaddr = g.currentGetaddr ∧
      ∀ hid : UInt32, ((handleRecord now chance g).value memory).getaddr.knownHids[hid]? =
        if addrSender memory = some hid then g.knownHids[hid]?.map (HidHandler.enqueue now)
        else g.knownHids[hid]? := by
  rw [handleRecord, addrSender, Access.value_bind, Access.value_cell]
  split
  · exact ⟨rfl, fun _ => rfl⟩
  · rw [Access.value_bind]
    split
    · rw [Access.value_bind]
      obtain ⟨hids, current⟩ := harvest_handlers now chance memory payloadOffset
        ⟨g.heardFrom now (UInt32.ofNat (ofBE ((Access.cells 13 4).value memory))), [], []⟩
      rw [hids, current]
      generalize UInt32.ofNat (ofBE ((Access.cells 13 4).value memory)) = sender
      simp only [Getaddr.heardFrom, Option.some.injEq]
      split
      · rename_i unknown
        refine ⟨rfl, ?_⟩
        intro hid
        split
        · rename_i same
          rw [← same, unknown]
          rfl
        · rfl
      · rename_i h known
        refine ⟨rfl, ?_⟩
        intro hid
        simp only
        rw [Tables.getElem?_insert]
        by_cases same : hid = sender
        · rw [if_pos same, if_pos same.symm, same, known]
          rfl
        · rw [if_neg same, if_neg (Ne.symm same)]
    · exact ⟨rfl, fun _ => rfl⟩

end Harvesting

/-! ## One callback -/

namespace Poller

variable {w : Poller} (isBound : SockaddrIn → Bool)

theorem Sound.since_past (sound : w.Sound) {hid : UInt32} {since : Rat}
    (waits : waiting hid w.acts = some since) : since ≤ w.now := by
  obtain ⟨earlier, later, acts, -⟩ := waiting_split waits
  refine sound.past (.asked hid since) ?_
  rw [acts]
  exact List.mem_append_right _ List.mem_cons_self

theorem sound_start (now : Rat) : (start now).Sound where
  fits := by
    intro hid h found
    rw [start, Getaddr.start, TreeMap.getElem?_emptyc] at found
    cases found
  pollable := each_nil
  past := by
    intro act member
    cases member
  sent := rfl

/-- One more act that pushes nothing, and handlers that fit it. -/
theorem Sound.act {w' : Poller} (sound : w.Sound) (act : PollAct) (acts : w'.acts = w.acts ++ [act])
    (fits : ∀ (hid : UInt32) (h : HidHandler), w'.getaddr.knownHids[hid]? = some h →
      Fits w'.getaddr.currentGetaddr (w.acts ++ [act]) hid h)
    (pollable : Pollable w.acts act) (past : act.By w.now) (now : w'.now = w.now)
    (sent : w'.orders.flatMap Order.polls ++ w'.pending =
      w.orders.flatMap Order.polls ++ w.pending ++ act.pushed?.toList) : w'.Sound := by
  refine ⟨?_, ?_, ?_, ?_⟩
  · rw [acts]
    exact fits
  · rw [acts]
    exact each_append_singleton sound.pollable pollable
  · rw [acts, now]
    intro act' member
    rcases List.mem_append.1 member with old | new
    · exact sound.past act' old
    · rw [List.mem_singleton.1 new]
      exact past
  · rw [sent, acts, sound.sent, List.filterMap_append]
    rfl

/-- A new handler, with the acts of its constructor. -/
theorem Sound.opened {w' : Poller} (sound : w.Sound) (hid : UInt32) (remote localAddr : SockaddrIn)
    (acts : w'.acts = w.acts ++ w.opening hid)
    (current : w'.getaddr.currentGetaddr = w.getaddr.currentGetaddr)
    (rest : w'.now = w.now ∧ w'.orders = w.orders ∧ w'.pending = w.pending)
    (hids : ∀ (hid' : UInt32) (h : HidHandler), w'.getaddr.knownHids[hid']? = some h →
      hid' = hid ∧ h = w.getaddr.newHid w.now hid remote localAddr ∨
        hid' ≠ hid ∧ w.getaddr.knownHids[hid']? = some h) : w'.Sound := by
  obtain ⟨now, orders, pending⟩ := rest
  have fresh : Fits w.getaddr.currentGetaddr (w.acts ++ [.opened hid]) hid
      { hid := hid, remote := remote, localAddr := localAddr, timer := none, lastEnqueue := 0
        getaddrSeq := w.getaddr.currentGetaddr, getaddrCnt := 0 } := by
    obtain ⟨waits, pushes⟩ := Fits.concerned w.acts (.opened hid) rfl
    refine ⟨rfl, rfl, by rw [pushes]; rfl, Nat.zero_le _, fun _ => rfl, ?_⟩
    rw [waits]
    intro since impossible
    cases impossible
  have others : ∀ (hid' : UInt32) (h : HidHandler), hid' ≠ hid →
      w.getaddr.knownHids[hid']? = some h →
      Fits w.getaddr.currentGetaddr (w.acts ++ [.opened hid]) hid' h := by
    intro hid' h different found
    exact (sound.fits hid' h found).other rfl (Ne.symm different)
  by_cases early : w.now - w.getaddr.getaddrStart < 600
  · -- the constructor calls `enqueue`
    have first : Sound { w with
        acts := w.acts ++ [.opened hid], getaddr := { w.getaddr with knownHids := ∅ } } := by
      refine sound.act (.opened hid) rfl ?_ trivial trivial rfl (List.append_nil _).symm
      intro hid' h found
      rw [TreeMap.getElem?_emptyc] at found
      cases found
    refine first.act (.asked hid w.now) ?_ ?_ first.past (le_refl _) now ?_
    · rw [acts, opening, if_pos early, List.append_assoc]
      rfl
    · intro hid' h found
      rw [current]
      rcases hids hid' h found with ⟨rfl, rfl⟩ | ⟨different, known⟩
      · rw [Getaddr.newHid, if_pos early]
        apply fresh.enqueue
        intro since waits
        exact first.since_past waits
      · exact (others hid' h different known).other rfl (Ne.symm different)
    · rw [orders, pending]
      exact (List.append_nil _).symm
  · refine sound.act (.opened hid) ?_ ?_ trivial trivial now ?_
    · rw [acts, opening, if_neg early]
    · intro hid' h found
      rw [current]
      rcases hids hid' h found with ⟨rfl, rfl⟩ | ⟨different, known⟩
      · rw [Getaddr.newHid, if_neg early]
        exact fresh
      · exact others hid' h different known
    · rw [orders, pending]
      exact (List.append_nil _).symm

/-- Where handlers only go, and the rest is as it was. -/
theorem Sound.same {w' : Poller} (sound : w.Sound) (acts : w'.acts = w.acts)
    (current : w'.getaddr.currentGetaddr = w.getaddr.currentGetaddr) (now : w.now ≤ w'.now)
    (sent : w'.orders.flatMap Order.polls ++ w'.pending = w.orders.flatMap Order.polls ++ w.pending)
    (hids : ∀ (hid : UInt32) (h : HidHandler), w'.getaddr.knownHids[hid]? = some h →
      w.getaddr.knownHids[hid]? = some h) : w'.Sound := by
  refine ⟨?_, ?_, ?_, ?_⟩
  · intro hid h found
    rw [current, acts]
    exact sound.fits hid h (hids hid h found)
  · rw [acts]
    exact sound.pollable
  · rw [acts]
    intro act member
    exact (sound.past act member).mono now
  · rw [sent, acts]
    exact sound.sent

theorem Sound.listed (sound : w.Sound) (choice : Nat) (hid : UInt32) (remote localAddr : SockaddrIn) :
    (w.step isBound (.listed choice hid remote localAddr)).Sound := by
  by_cases known : hid ∈ w.getaddr.knownHids
  · refine sound.same (if_pos known) rfl (le_refl _) rfl ?_
    intro hid' h found
    simp only [step, Getaddr.listed, TreeMap.getElem?_insertIfNew, known, not_true_eq_false,
      and_false, if_false] at found
    exact found
  · refine sound.opened hid remote localAddr (if_neg known) rfl ⟨rfl, rfl, rfl⟩ ?_
    intro hid' h found
    simp only [step, Getaddr.listed, TreeMap.getElem?_insertIfNew, known, not_false_eq_true,
      and_true, Std.LawfulEqCmp.compare_eq_iff_eq] at found
    split at found
    · rename_i same
      cases found
      exact Or.inl ⟨same.symm, rfl⟩
    · rename_i different
      exact Or.inr ⟨Ne.symm different, found⟩

theorem Sound.record (sound : w.Sound) (choice : Nat) (msg : ChannelMsg) :
    (w.step isBound (.record choice msg)).Sound := by
  by_cases connected : msg.updateType &&& (CONNECT_SUCCESS ||| ACCEPT_SUCCESS) ≠ 0
  · obtain ⟨current, hids⟩ := w.getaddr.onConnect_handlers w.now choice msg
    have stepped : (w.step isBound (.record choice msg)).getaddr =
        w.getaddr.onConnect w.now choice msg := if_pos connected
    refine sound.opened msg.handleId msg.remote msg.localAddr (if_pos connected)
      (by rw [stepped, current]) ⟨rfl, rfl, rfl⟩ ?_
    intro hid h found
    rw [stepped, hids] at found
    split at found
    · cases found
      exact Or.inl ⟨‹_›, rfl⟩
    · exact Or.inr ⟨‹_›, found⟩
  · obtain ⟨current, hids⟩ := w.getaddr.onDisconnect_handlers w.now choice msg
    have stepped : (w.step isBound (.record choice msg)).getaddr =
        w.getaddr.onDisconnect w.now choice msg := if_neg connected
    refine sound.same (if_neg connected) (by rw [stepped, current]) (le_refl _) rfl ?_
    intro hid h found
    rw [stepped, hids] at found
    split at found
    · cases found
    · exact found

theorem Sound.message (sound : w.Sound) (chance : Chance) (memory : Nat → UInt8) :
    (w.step isBound (.message chance memory)).Sound := by
  obtain ⟨current, hids⟩ := handleRecord_handlers w.now chance memory w.getaddr
  -- the record asks a handle that is known, or it is none of the handlers' business
  by_cases asks : ∃ sender, addrSender memory = some sender ∧ sender ∈ w.getaddr.knownHids
  · obtain ⟨sender, sent, known⟩ := asks
    have acts : w.asking memory = [.asked sender w.now] := by
      rw [asking, sent]
      exact if_pos known
    refine sound.act (.asked sender w.now) (by rw [step, acts]) ?_ sound.past (le_refl _)
      rfl (List.append_nil _).symm
    intro hid h found
    rw [step, hids, sent] at found
    rw [step, current]
    by_cases same : sender = hid
    · subst same
      rw [if_pos rfl, Option.map_eq_some_iff] at found
      obtain ⟨h', there, rfl⟩ := found
      exact (sound.fits sender h' there).enqueue fun _ waits => sound.since_past waits
    · rw [if_neg (by simpa using same)] at found
      exact (sound.fits hid h found).other rfl same
  · have acts : w.asking memory = [] := by
      rw [asking]
      split
      · rfl
      · rename_i sender sent
        exact if_neg fun known => asks ⟨sender, sent, known⟩
    refine sound.same (by rw [step, acts, List.append_nil]) current (le_refl _) rfl ?_
    intro hid h found
    rw [step, hids] at found
    split at found
    · rename_i sent
      rw [Option.map_eq_some_iff] at found
      obtain ⟨h', there, -⟩ := found
      refine absurd ⟨hid, sent, ?_⟩ asks
      rw [TreeMap.mem_iff_isSome_getElem?, there]
      rfl
    · exact found

theorem Sound.pushing (sound : w.Sound) : w.push.Sound := by
  refine sound.same rfl rfl (le_refl _) ?_ fun _ _ found => found
  unfold push
  simp only [List.append_nil]
  split
  · rename_i nothing
    rw [List.length_eq_zero_iff.1 nothing, List.append_nil]
  · rw [List.flatMap_append, List.flatMap_singleton]
    rfl

theorem Sound.clockCb (sound : w.Sound) : (w.clockCb isBound).Sound := by
  refine sound.act .round rfl ?_ trivial trivial rfl ?_
  · intro hid h found
    simp only [Poller.clockCb, TreeMap.getElem?_map, Option.map_eq_some_iff] at found
    obtain ⟨h', there, rfl⟩ := found
    exact (sound.fits hid h' there).setSequence
  · unfold Poller.clockCb
    simp only
    split
    · rw [List.flatMap_append, List.flatMap_singleton]
      simp [Order.polls, PollAct.pushed?]
    · exact (List.append_nil _).symm

/-- A handle gets this handler. -/
def put (w : Poller) (hid : UInt32) (h : HidHandler) : Poller :=
  { w with getaddr := { w.getaddr with knownHids := w.getaddr.knownHids.insert hid h } }

/-- What can come of an expired timer: the handle is pushed, or passed over, or the timer is set
again. -/
theorem hidTimer_cases (w : Poller) (hid : UInt32) :
    w.hidTimer hid = w ∨ ∃ h, w.getaddr.knownHids[hid]? = some h ∧ h.timer.isSome = true ∧
      (h.lastEnqueue + 10 ≤ w.now ∧ h.getaddrCnt < GETADDR_LIMIT ∧
          w.hidTimer hid =
            { w.put hid { h with timer := none, getaddrCnt := h.getaddrCnt + 1 } with
              pending := w.pending ++ [h.hid], acts := w.acts ++ [.pushed hid w.now] } ∨
        h.lastEnqueue + 10 ≤ w.now ∧
          ¬ (h.getaddrSeq = w.getaddr.currentGetaddr ∧ h.getaddrCnt < GETADDR_LIMIT) ∧
          w.hidTimer hid =
            { w.put hid { h with timer := none } with acts := w.acts ++ [.skipped hid w.now] } ∨
        w.now < h.lastEnqueue + 10 ∧
          w.hidTimer hid = w.put hid { h with timer := some (h.lastEnqueue + 10) }) := by
  unfold hidTimer
  split
  · exact Or.inl rfl
  rename_i h found
  split
  · rename_i running
    refine Or.inr ⟨h, found, running, ?_⟩
    simp only [HidHandler.timerCb]
    by_cases late : 10 + h.lastEnqueue - w.now ≤ 0
    · rw [if_pos late]
      have due : h.lastEnqueue + 10 ≤ w.now := by linarith
      by_cases asks : h.getaddrSeq = w.getaddr.currentGetaddr ∧ h.getaddrCnt < GETADDR_LIMIT
      · rw [if_pos asks]
        exact Or.inl ⟨due, asks.2, rfl⟩
      · rw [if_neg asks]
        exact Or.inr (Or.inl ⟨due, asks, rfl⟩)
    · rw [if_neg late]
      have again : w.now + (10 + h.lastEnqueue - w.now) = h.lastEnqueue + 10 := by ring
      refine Or.inr (Or.inr ⟨by linarith, ?_⟩)
      rw [again]
      rfl
  · exact Or.inl rfl

/-- The handlers behind an act about one of them. -/
theorem Sound.fits_put (sound : w.Sound) {hid : UInt32} {h : HidHandler} {act : PollAct}
    (about : act.hid? = some hid)
    (mine : Fits w.getaddr.currentGetaddr (w.acts ++ [act]) hid h) (hid' : UInt32) (g : HidHandler)
    (there : (w.put hid h).getaddr.knownHids[hid']? = some g) :
    Fits w.getaddr.currentGetaddr (w.acts ++ [act]) hid' g := by
  rw [put, Tables.getElem?_insert] at there
  split at there
  · rename_i same
    cases there
    rw [same]
    exact mine
  · rename_i different
    exact (sound.fits hid' g there).other about (Ne.symm different)

/-- The timer of a handler expires. -/
theorem Sound.hidTimer (sound : w.Sound) (hid : UInt32) : (w.hidTimer hid).Sound := by
  rcases hidTimer_cases w hid with same | ⟨h, found, running, outcome⟩
  · rw [same]
    exact sound
  have fits := sound.fits hid h found
  obtain ⟨since, waits⟩ : ∃ since, waiting hid w.acts = some since := by
    rw [← Option.isSome_iff_exists, Option.isSome_iff_ne_none]
    intro idle
    rw [fits.idle idle] at running
    cases running
  obtain ⟨last, -⟩ := fits.armed since waits
  rw [last] at outcome
  rcases outcome with ⟨due, less, stepped⟩ | ⟨due, over_, stepped⟩ | ⟨early, stepped⟩
  · rw [stepped]
    refine sound.act (.pushed hid w.now) rfl (sound.fits_put rfl ?_) ?_ (le_refl _) rfl ?_
    · obtain ⟨idle, pushes⟩ := Fits.concerned w.acts (.pushed hid w.now) rfl
      refine ⟨fits.name, fits.sequence, ?_, less, fun _ => rfl, ?_⟩
      · rw [pushes]
        exact congrArg (· + 1) fits.count
      · rw [idle]
        intro since impossible
        cases impossible
    · refine ⟨sound.past, ?_, since, waits, due⟩
      rw [← fits.count]
      exact less
    · simp [PollAct.pushed?, fits.name, put]
  · rw [stepped]
    have full : spent hid w.acts = GETADDR_LIMIT := by
      have most := fits.few
      rw [fits.sequence, fits.count] at over_
      rw [fits.count] at most
      have least : ¬ spent hid w.acts < GETADDR_LIMIT := fun less => over_ ⟨rfl, less⟩
      omega
    refine sound.act (.skipped hid w.now) rfl (sound.fits_put rfl ?_)
      ⟨sound.past, full, since, waits, due⟩ (le_refl _) rfl (List.append_nil _).symm
    obtain ⟨idle, pushes⟩ := Fits.concerned w.acts (.skipped hid w.now) rfl
    refine ⟨fits.name, fits.sequence, ?_, fits.few, fun _ => rfl, ?_⟩
    · rw [pushes]
      exact fits.count
    · rw [idle]
      intro since impossible
      cases impossible
  · -- something came in between: the timer is set again
    rw [stepped]
    refine ⟨?_, sound.pollable, sound.past, sound.sent⟩
    intro hid' g there
    rw [put, Tables.getElem?_insert] at there
    split at there
    · rename_i same
      cases there
      rw [same]
      refine ⟨fits.name, fits.sequence, fits.count, fits.few, ?_, ?_⟩
      · intro idle
        cases waits.symm.trans idle
      · intro since' again
        cases waits.symm.trans again
        exact ⟨rfl, _, rfl, le_refl _⟩
    · exact sound.fits hid' g there

theorem Sound.step (sound : w.Sound) (e : PollEvent) : (w.step isBound e).Sound := by
  cases e with
  | listed choice hid remote localAddr => exact sound.listed isBound choice hid remote localAddr
  | record choice msg => exact sound.record isBound choice msg
  | message chance memory => exact sound.message isBound chance memory
  | hidTimer hid => exact sound.hidTimer hid
  | cxnTimer key choice =>
      rw [Poller.step]
      split
      · exact sound
      · exact sound.same rfl rfl (le_refl _) rfl fun _ _ found => found
  | pusher => exact sound.pushing
  | periodic => exact sound.clockCb isBound
  | clock now =>
      rw [Poller.step]
      split
      · exact sound.same rfl rfl ‹_› rfl fun _ _ found => found
      · exact sound

end Poller

/-! ## What the acts tell -/

/-- How often a handle was pushed. -/
def pushes (hid : UInt32) (acts : List PollAct) : Nat :=
  (acts.filterMap PollAct.pushed?).count hid

theorem pushes_append (hid : UInt32) (acts : List PollAct) (act : PollAct) :
    pushes hid (acts ++ [act]) = pushes hid acts + if act.pushed? = some hid then 1 else 0 := by
  rw [pushes, pushes, List.filterMap_append, List.count_append]
  congr 1
  cases act with
  | pushed hid' time =>
      simp [PollAct.pushed?, List.count_singleton]
  | opened hid' => rfl
  | asked hid' time => rfl
  | skipped hid' time => rfl
  | round => rfl

/-- In a stretch of one round and one handler the count goes up with every push, and stops at the
limit. -/
theorem pushes_stretch {before stretch : List PollAct} {hid : UInt32}
    (pollable : Each Pollable (before ++ stretch)) (oneRound : .round ∉ stretch)
    (oneHandler : .opened hid ∉ stretch) :
    spent hid (before ++ stretch) = spent hid before + pushes hid stretch ∧
      pushes hid stretch ≤ GETADDR_LIMIT := by
  induction stretch using List.reverseRecOn with
  | nil => exact ⟨by rw [List.append_nil]; rfl, Nat.zero_le _⟩
  | append_singleton front act ih =>
      have shorter : Each Pollable (before ++ front) := by
        intro first entry rest split
        refine pollable first entry (rest ++ [act]) ?_
        rw [← List.append_assoc, split]
        simp
      obtain ⟨count, few⟩ := ih shorter (fun member => oneRound (List.mem_append_left _ member))
        (fun member => oneHandler (List.mem_append_left _ member))
      rw [← List.append_assoc, spent_append, pushes_append]
      by_cases mine : concerns hid act = true
      · rw [if_pos mine]
        cases act with
        | pushed hid' time =>
            have same : hid' = hid := (concerns_iff rfl).1 mine
            subst same
            obtain ⟨-, less, -⟩ := pollable (before ++ front) (.pushed hid' time) [] (by simp)
            have one : (PollAct.pushed hid' time).pushed? = some hid' := rfl
            rw [if_pos one]
            refine ⟨?_, ?_⟩
            · have up : noteSpent (spent hid' (before ++ front)) (.pushed hid' time) =
                  spent hid' (before ++ front) + 1 := rfl
              rw [up, count, Nat.add_assoc]
            · rw [count] at less
              exact Nat.lt_of_le_of_lt (Nat.le_add_left _ _) less
        | opened hid' =>
            have same : hid' = hid := (concerns_iff rfl).1 mine
            subst same
            exact absurd (List.mem_append_right _ (List.mem_singleton.2 rfl)) oneHandler
        | round => exact absurd (List.mem_append_right _ (List.mem_singleton.2 rfl)) oneRound
        | asked hid' time => exact ⟨count, few⟩
        | skipped hid' time => exact ⟨count, few⟩
      · have notPushed : act.pushed? ≠ some hid := by
          intro same
          cases act with
          | pushed hid' time =>
              cases same
              exact mine ((concerns_iff rfl).2 rfl)
          | opened hid' => cases same
          | asked hid' time => cases same
          | skipped hid' time => cases same
          | round => cases same
        rw [if_neg mine, if_neg notPushed]
        exact ⟨count, few⟩

/-- The polling, as a peer and the connector see it. -/
structure Poller.Paced (w : Poller) : Prop where
  /-- No getaddr goes to a handle within ten seconds of an addr message from it. -/
  quiet : ∀ before hid time between time' after,
    w.acts = before ++ .asked hid time :: between ++ .pushed hid time' :: after →
      time + 10 ≤ time'
  /-- Every getaddr answers an addr message or a new connection of its own. -/
  answers : ∀ before hid time after, w.acts = before ++ .pushed hid time :: after →
    ∃ earlier since later, before = earlier ++ .asked hid since :: later ∧
      ∀ act ∈ later, act.hid? ≠ some hid
  apart : ∀ before hid time between time' after,
    w.acts = before ++ .pushed hid time :: between ++ .pushed hid time' :: after →
      time + 10 ≤ time'
  few : ∀ before stretch after hid, w.acts = before ++ stretch ++ after → .round ∉ stretch →
    .opened hid ∉ stretch → pushes hid stretch ≤ GETADDR_LIMIT
  /-- A handle is passed over only if it had its share of the round. -/
  share : ∀ before hid time after, w.acts = before ++ .skipped hid time :: after →
    spent hid before = GETADDR_LIMIT
  /-- As long as something has to come of an `enqueue`, the timer runs. -/
  armed : ∀ (hid : UInt32) (h : HidHandler), w.getaddr.knownHids[hid]? = some h → ∀ since,
    waiting hid w.acts = some since → ∃ due, h.timer = some due ∧ due ≤ since + 10
  /-- What is pushed is sent once, in order, or pending. -/
  sent : w.orders.flatMap Order.polls ++ w.pending = w.acts.filterMap PollAct.pushed?

/-- What a handle did before it was pushed is not later than its last `enqueue`. -/
theorem Poller.Sound.by_since {w : Poller} (sound : w.Sound) {before after : List PollAct}
    {hid : UInt32} {time : Rat} (split : w.acts = before ++ .pushed hid time :: after)
    (act : PollAct) (member : act ∈ before) (about : act.hid? = some hid) :
    ∃ since, act.By since ∧ since + 10 ≤ time := by
  obtain ⟨-, -, since, waits, due⟩ := sound.pollable _ (.pushed hid time) after split
  obtain ⟨earlier, later, rfl, none_⟩ := waiting_split waits
  refine ⟨since, ?_, due⟩
  rcases List.mem_append.1 member with old | new
  · have ordered := sound.pollable earlier (.asked hid since)
      (later ++ .pushed hid time :: after) (by rw [split]; simp)
    exact ordered _ old
  · rcases List.mem_cons.1 new with rfl | later
    · exact le_refl since
    · exact absurd about (none_ _ later)

theorem Poller.Sound.paced {w : Poller} (sound : w.Sound) : w.Paced where
  quiet := by
    intro before hid time between time' after split
    obtain ⟨since, late, due⟩ :=
      sound.by_since split (.asked hid time) (by simp) rfl
    have ordered : time ≤ since := late
    linarith
  answers := by
    intro before hid time after split
    obtain ⟨-, -, since, waits, -⟩ := sound.pollable _ (.pushed hid time) after split
    obtain ⟨earlier, later, same, none_⟩ := waiting_split waits
    exact ⟨earlier, since, later, same, none_⟩
  apart := by
    intro before hid time between time' after split
    obtain ⟨since, late, due⟩ :=
      sound.by_since split (.pushed hid time) (by simp) rfl
    have ordered : time ≤ since := late
    linarith
  few := by
    intro before stretch after hid split oneRound oneHandler
    have pollable : Each Pollable (before ++ stretch) := by
      intro first entry rest front
      refine sound.pollable first entry (rest ++ after) ?_
      rw [split, front]
      simp
    exact (pushes_stretch pollable oneRound oneHandler).2
  share := by
    intro before hid time after split
    exact (sound.pollable before (.skipped hid time) after split).2.1
  armed := by
    intro hid h found since waits
    exact ((sound.fits hid h found).armed since waits).2
  sent := sound.sent

/-- However records and messages come, timers expire and the clock goes on: ten seconds of silence
before every getaddr, at most 24 of them to a handler in a round, none without a reason, and each of
them is sent once. -/
theorem polling_paced (isBound : SockaddrIn → Bool) (now : Rat) (events : List PollEvent) :
    (run (Poller.step isBound) (Poller.start now) events).Paced := by
  have sound : (run (Poller.step isBound) (Poller.start now) events).Sound :=
    run_keeps (fun _ e sound => sound.step isBound e) (Poller.sound_start now) events
  exact sound.paced

end Coinscope.Clients

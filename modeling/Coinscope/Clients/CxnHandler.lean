/-
# Clients.CxnHandler -- reconnecting to an address

`getaddr` keeps a `cxn_handler` for every address it has heard of.  One timer serves three
purposes: to wait before the next attempt, to give an attempt up after fifteen minutes, and
to forget failures one by one while the connection is there.

Beside the members of the class a `CxnHandler` records what an observer sees of it: the values
its state goes through, the frames it writes with the time it writes them, and the
notifications it gets.

* `CxnHandler.timerCb`, `CxnHandler.notified` -- `timer_cb` and `state(State)`.
* `CxnHandler.Sound` -- the joint invariant of state, pending time, timer and writes.
* `reconnection_steady` -- attempts are neither forgotten nor made in a hurry.
-/
import Coinscope.Clients.EasyMessages
import Coinscope.Theory.Histories
import Coinscope.Theory.Runs
import Mathlib.Algebra.Order.Field.Rat
import Mathlib.Tactic.Linarith

namespace Coinscope.Clients

open Coinscope.Theory.Histories
open Coinscope.Theory.Runs

set_option autoImplicit false

/-! ## The handler -/

/-- `cxn_handler::State`. -/
inductive CxnState where
  | DISCONNECTED
  | CONNECTING
  | CONNECTED
  deriving DecidableEq

/-- What an observer sees. -/
inductive CxnAct where
  | moved (old new : CxnState)
  | wrote (time : Rat) (frame : List UInt8)
  | told (s : CxnState)
  deriving DecidableEq

/-- `class cxn_handler`.  Of the timer it is recorded when it expires, if it is active; an
`ev::tstamp` is a rational number, so sums and differences are exact. -/
structure CxnHandler where
  state : CxnState
  pendingTime : Rat
  consecutiveFails : Nat
  sers : List UInt8
  timer : Option Rat
  trace : List CxnAct
  failed : Bool

namespace CxnHandler

/-- `state_ = s` in a callback of the timer. -/
def moveTo (s : CxnState) (h : CxnHandler) : CxnHandler :=
  { h with state := s, trace := h.trace ++ [.moved h.state s] }

/-- `do_write(g_control, sers.first.const_ptr(), sers.second)`. -/
def write (now : Rat) (h : CxnHandler) : CxnHandler :=
  { h with trace := h.trace ++ [.wrote now h.sers] }

/-- `timer.set(after); timer.start();`. -/
def setTimer (now after : Rat) (h : CxnHandler) : CxnHandler := { h with timer := some (now + after) }

/-- `set_reconnect_timer`.  Every value from zero to `consecutive_fails` is drawn for some
`choice`. -/
def setReconnectTimer (now : Rat) (choice : Nat) (h : CxnHandler) : CxnHandler :=
  h.setTimer now (5 * (2 ^ (choice % (h.consecutiveFails + 1)) - 1))

/-- The first half of `timer_cb`: an attempt that is pending for too long is given up. -/
def expirePending (now : Rat) (h : CxnHandler) : CxnHandler :=
  if h.pendingTime > 0 then
    let after := (h.pendingTime + 60 * 15) - now
    if after < 0 then
      let h := { h with pendingTime := 0 }
      if h.state = .CONNECTING then h.moveTo .DISCONNECTED else h
    else h.setTimer now after
  else h

/-- The branch CONNECTED of `timer_cb`: failures are forgotten one by one. -/
def unwound (now : Rat) (h : CxnHandler) : CxnHandler :=
  if h.consecutiveFails ≠ 0 then
    { h with consecutiveFails := h.consecutiveFails - 1 }.setTimer now 10
  else h

/-- The branch DISCONNECTED of `timer_cb`: an attempt. -/
def attempted (now : Rat) (choice : Nat) (h : CxnHandler) : CxnHandler :=
  let h := (h.moveTo .CONNECTING).write now
  { h with
    pendingTime := now
    consecutiveFails := min 14 (h.consecutiveFails + 1) }.setReconnectTimer now choice

/-- The second half of `timer_cb`: what is to be done while nothing is pending. -/
def attend (now : Rat) (choice : Nat) (h : CxnHandler) : CxnHandler :=
  if h.pendingTime = 0 then
    match h.state with
    | .CONNECTING => if h.timer.isSome then h else { h with failed := true }
    | .CONNECTED => h.unwound now
    | .DISCONNECTED => h.attempted now choice
  else h

/-- `timer_cb`. -/
def timerCb (now : Rat) (choice : Nat) (h : CxnHandler) : CxnHandler :=
  (h.expirePending now).attend now choice

/-- `state(s)`, the setter. -/
def notified (now : Rat) (choice : Nat) (s : CxnState) (h : CxnHandler) : CxnHandler :=
  let h := { h with state := s, trace := h.trace ++ [CxnAct.told s] }
  let h := if s = .DISCONNECTED ∧ h.timer = none then h.setReconnectTimer now choice else h
  { h with pendingTime := 0 }

theorem length_localAddr : (List.replicate 16 (0 : UInt8)).length = 16 := List.length_replicate ..

/-- The zeroed `local_addr` of the constructor. -/
def localAddr : SockaddrIn := ⟨List.replicate 16 0, length_localAddr⟩

/-- `cxn_handler(remote, s)`, which ends with a call of `timer_cb`. -/
def new (now : Rat) (choice : Nat) (remote : SockaddrIn) (s : CxnState) : CxnHandler :=
  timerCb now choice
    { state := s, pendingTime := 0, consecutiveFails := 0
      sers := (connectMsg remote localAddr).serialize
      timer := none, trace := [], failed := false }

/-- The timer expires; it does not repeat, so it is inactive when `timer_cb` is called. -/
def expired (now : Rat) (choice : Nat) (h : CxnHandler) : CxnHandler :=
  if h.timer.isSome then { h with timer := none }.timerCb now choice else h

end CxnHandler

/-! ## Runs -/

/-- A handler and the clock. -/
structure CxnWorld where
  now : Rat
  handler : CxnHandler

/-- What can happen to a handler.  The loop may call a timer back before or after the clock of
`ev::now` says that it is due, so an active timer may expire at any time. -/
inductive CxnEvent where
  | expire (choice : Nat)
  | connected (choice : Nat)
  | disconnected (choice : Nat)
  | clock (now : Rat)
  deriving DecidableEq

namespace CxnWorld

/-- A step; the clock does not go back. -/
def step (w : CxnWorld) : CxnEvent → CxnWorld
  | .expire choice => { w with handler := w.handler.expired w.now choice }
  | .connected choice => { w with handler := w.handler.notified w.now choice .CONNECTED }
  | .disconnected choice => { w with handler := w.handler.notified w.now choice .DISCONNECTED }
  | .clock now => if w.now ≤ now then { w with now := now } else w

def new (now : Rat) (choice : Nat) (remote : SockaddrIn) (s : CxnState) : CxnWorld :=
  ⟨now, CxnHandler.new now choice remote s⟩

end CxnWorld

/-! ## Writes -/

/-- The times of the writes since the last notification, with one more act. -/
def noteWrite (times : List Rat) : CxnAct → List Rat
  | .moved _ _ => times
  | .wrote time _ => times ++ [time]
  | .told _ => []

/-- The times of the writes since the last notification. -/
def recentWrites (trace : List CxnAct) : List Rat := trace.foldl noteWrite []

theorem recentWrites_append (trace : List CxnAct) (act : CxnAct) :
    recentWrites (trace ++ [act]) = noteWrite (recentWrites trace) act := by
  rw [recentWrites, List.foldl_append]
  rfl

/-- A write is remembered until there is a notification. -/
theorem mem_foldl_noteWrite {time : Rat} {acts : List CxnAct} {times : List Rat}
    (there : time ∈ times) (untold : ∀ s, .told s ∉ acts) : time ∈ acts.foldl noteWrite times := by
  induction acts generalizing times with
  | nil => exact there
  | cons act rest ih =>
      have later : ∀ s, .told s ∉ rest := fun s member => untold s (List.mem_cons_of_mem _ member)
      cases act with
      | moved old new => exact ih there later
      | wrote time' frame => exact ih (List.mem_append_left _ there) later
      | told s => exact absurd List.mem_cons_self (untold s)

theorem mem_recentWrites {before acts : List CxnAct} {time : Rat} {frame : List UInt8}
    (untold : ∀ s, .told s ∉ acts) : time ∈ recentWrites (before ++ .wrote time frame :: acts) := by
  rw [recentWrites, List.foldl_append, List.foldl_cons]
  exact mem_foldl_noteWrite (List.mem_append_right _ List.mem_cons_self) untold

/-- What an act may be behind others: a frame is written when the state has just left
DISCONNECTED for CONNECTING, and fifteen minutes behind every recent one. -/
def Due (before : List CxnAct) : CxnAct → Prop
  | .wrote time _ =>
      (∃ earlier, before = earlier ++ [.moved .DISCONNECTED .CONNECTING]) ∧
        ∀ recent ∈ recentWrites before, recent + 60 * 15 ≤ time
  | _ => True

/-! ## The invariant -/

namespace CxnHandler

/-- What holds in a callback too, where the timer may be inactive. -/
structure Loose (h : CxnHandler) : Prop where
  pending : h.state = .CONNECTING → 0 < h.pendingTime
  idle : h.state ≠ .CONNECTING → h.pendingTime = 0 ∧ recentWrites h.trace = []
  recent : ∀ time ∈ recentWrites h.trace, time ≤ h.pendingTime
  few : h.consecutiveFails ≤ 14
  fine : h.failed = false
  due : Each Due h.trace

/-- A handler between two callbacks. -/
structure Sound (h : CxnHandler) : Prop extends Loose h where
  armed : h.state ≠ .CONNECTED → h.timer ≠ none

theorem attend_disconnected {now : Rat} {choice : Nat} {h : CxnHandler}
    (idle : h.pendingTime = 0) (state : h.state = .DISCONNECTED) :
    h.attend now choice = h.attempted now choice := by
  rw [attend, if_pos idle, state]

theorem attend_connected {now : Rat} {choice : Nat} {h : CxnHandler}
    (idle : h.pendingTime = 0) (state : h.state = .CONNECTED) :
    h.attend now choice = h.unwound now := by
  rw [attend, if_pos idle, state]

theorem attend_pending {now : Rat} {choice : Nat} {h : CxnHandler} (pending : h.pendingTime ≠ 0) :
    h.attend now choice = h := by
  rw [attend, if_neg pending]

/-- An attempt fifteen minutes behind the last ones. -/
theorem attempted_sound {now : Rat} (positive : 0 < now) (choice : Nat) {h : CxnHandler}
    (state : h.state = .DISCONNECTED) (fine : h.failed = false) (due : Each Due h.trace)
    (old : ∀ time ∈ recentWrites h.trace, time + 60 * 15 ≤ now) :
    (h.attempted now choice).Sound := by
  have trace : (h.attempted now choice).trace =
      h.trace ++ [.moved .DISCONNECTED .CONNECTING] ++ [.wrote now h.sers] := by
    rw [← state]
    rfl
  have moved : recentWrites (h.trace ++ [.moved .DISCONNECTED .CONNECTING]) =
      recentWrites h.trace := recentWrites_append ..
  have writes : recentWrites (h.attempted now choice).trace = recentWrites h.trace ++ [now] := by
    rw [trace, recentWrites_append, moved]
    rfl
  refine ⟨⟨fun _ => positive, ?_, ?_, Nat.min_le_left .., fine, ?_⟩, ?_⟩
  · intro other
    exact absurd rfl other
  · intro time member
    rw [writes, List.mem_append, List.mem_singleton] at member
    show time ≤ now
    rcases member with earlier | rfl
    · have spaced := old time earlier
      linarith
    · exact le_refl _
  · rw [trace]
    refine each_append_singleton (each_append_singleton due trivial) ⟨⟨_, rfl⟩, ?_⟩
    rw [moved]
    exact old
  · intro _ none_
    cases none_

/-- Failures that are forgotten. -/
theorem Loose.unwound (now : Rat) {h : CxnHandler} (loose : h.Loose) (state : h.state = .CONNECTED) :
    (h.unwound now).Sound := by
  rw [CxnHandler.unwound]
  split
  · exact ⟨⟨loose.pending, loose.idle, loose.recent, le_trans (Nat.sub_le ..) loose.few, loose.fine,
      loose.due⟩, fun other => absurd state other⟩
  · exact ⟨loose, fun other => absurd state other⟩

/-- `timer_cb`, called with the timer inactive or active. -/
theorem Loose.timerCb {now : Rat} (positive : 0 < now) (choice : Nat) {h : CxnHandler}
    (loose : h.Loose) : (h.timerCb now choice).Sound := by
  cases state : h.state with
  | DISCONNECTED =>
      obtain ⟨pending, none_⟩ := loose.idle (by rw [state]; decide)
      rw [CxnHandler.timerCb, expirePending, if_neg (by rw [pending]; exact lt_irrefl 0),
        attend_disconnected pending state]
      refine attempted_sound positive choice state loose.fine loose.due ?_
      rw [none_]
      exact fun _ member => absurd member List.not_mem_nil
  | CONNECTED =>
      have pending := (loose.idle (by rw [state]; decide)).1
      rw [CxnHandler.timerCb, expirePending, if_neg (by rw [pending]; exact lt_irrefl 0),
        attend_connected pending state]
      exact loose.unwound now state
  | CONNECTING =>
      have pending := loose.pending state
      rw [CxnHandler.timerCb, expirePending, if_pos pending]
      by_cases late : h.pendingTime + 60 * 15 - now < 0
      · -- given up, and tried again at once
        have given : { h with pendingTime := 0 }.state = .CONNECTING := state
        simp only [if_pos late, if_pos given]
        rw [attend_disconnected rfl rfl]
        refine attempted_sound positive choice rfl loose.fine
          (each_append_singleton loose.due trivial) ?_
        intro time member
        have recent : time ≤ h.pendingTime := by
          apply loose.recent
          rw [moveTo, recentWrites_append] at member
          exact member
        linarith
      · simp only [if_neg late]
        have running : (h.setTimer now (h.pendingTime + 60 * 15 - now)).pendingTime ≠ 0 :=
          ne_of_gt pending
        rw [attend_pending running]
        exact ⟨⟨loose.pending, loose.idle, loose.recent, loose.few, loose.fine, loose.due⟩,
          fun _ none_ => by cases none_⟩

/-- `state(s)`, with one of the two values it is called with. -/
theorem Sound.notified {h : CxnHandler} (sound : h.Sound) (now : Rat) (choice : Nat) {s : CxnState}
    (other : s ≠ .CONNECTING) : (h.notified now choice s).Sound := by
  -- whatever the timer is set to, the rest is the same
  have told : ∀ timer, (s ≠ .CONNECTED → timer ≠ none) →
      Sound { h with
        state := s, trace := h.trace ++ [CxnAct.told s], timer := timer, pendingTime := 0 } := by
    intro timer armed
    have none_ : recentWrites (h.trace ++ [.told s]) = [] := recentWrites_append ..
    refine ⟨⟨fun connecting => absurd connecting other, fun _ => ⟨rfl, none_⟩, ?_, sound.few,
      sound.fine, each_append_singleton sound.due trivial⟩, armed⟩
    rw [none_]
    exact fun _ member => absurd member List.not_mem_nil
  rw [CxnHandler.notified]
  simp only
  split
  · exact told _ fun _ none_ => by cases none_
  · rename_i running
    refine told _ ?_
    intro notConnected none_
    cases s with
    | DISCONNECTED => exact running ⟨rfl, none_⟩
    | CONNECTING => exact other rfl
    | CONNECTED => exact notConnected rfl

theorem new_sound {now : Rat} (positive : 0 < now) (choice : Nat) (remote : SockaddrIn)
    {s : CxnState} (other : s ≠ .CONNECTING) : (new now choice remote s).Sound :=
  Loose.timerCb positive choice
    ⟨fun connecting => absurd connecting other, fun _ => ⟨rfl, rfl⟩,
      fun _ member => absurd member List.not_mem_nil, Nat.zero_le _, rfl, each_nil⟩

theorem Sound.expired {now : Rat} (positive : 0 < now) (choice : Nat) {h : CxnHandler}
    (sound : h.Sound) : (h.expired now choice).Sound := by
  rw [CxnHandler.expired]
  split
  · exact Loose.timerCb positive choice
      ⟨sound.pending, sound.idle, sound.recent, sound.few, sound.fine, sound.due⟩
  · exact sound

end CxnHandler

/-! ## Every run -/

namespace CxnWorld

/-- The invariant of a run. -/
def Sound (w : CxnWorld) : Prop := 0 < w.now ∧ w.handler.Sound

theorem Sound.step {w : CxnWorld} (sound : w.Sound) (e : CxnEvent) : (w.step e).Sound := by
  obtain ⟨positive, handler⟩ := sound
  cases e with
  | expire choice => exact ⟨positive, handler.expired positive choice⟩
  | connected choice => exact ⟨positive, handler.notified w.now choice (by decide)⟩
  | disconnected choice => exact ⟨positive, handler.notified w.now choice (by decide)⟩
  | clock now =>
      rw [CxnWorld.step]
      split
      · rename_i later
        exact ⟨lt_of_lt_of_le positive later, handler⟩
      · exact ⟨positive, handler⟩

end CxnWorld

/-- What a handler is between two callbacks, as far as others can tell. -/
structure CxnHandler.Steady (h : CxnHandler) : Prop where
  armed : h.state ≠ .CONNECTED → h.timer ≠ none
  pending : h.state = .CONNECTING → 0 < h.pendingTime
  fine : h.failed = false
  few : h.consecutiveFails ≤ 14
  leaving : ∀ before time frame after, h.trace = before ++ .wrote time frame :: after →
    ∃ earlier, before = earlier ++ [.moved .DISCONNECTED .CONNECTING]
  apart : ∀ before time frame between time' frame' after,
    h.trace = before ++ .wrote time frame :: between ++ .wrote time' frame' :: after →
    (∀ s, .told s ∉ between) → time + 60 * 15 ≤ time'

theorem CxnHandler.Sound.steady {h : CxnHandler} (sound : h.Sound) : h.Steady where
  armed := sound.armed
  pending := sound.pending
  fine := sound.fine
  few := sound.few
  leaving := by
    intro before time frame after split
    exact (sound.due before (.wrote time frame) after split).1
  apart := by
    intro before time frame between time' frame' after split untold
    exact (sound.due _ (.wrote time' frame') after split).2 time (mem_recentWrites untold)

/-- However timers expire, notifications come and the clock goes on, a handler that is not
connected has its timer running, and no two attempts without a notification between them are
less than fifteen minutes apart. -/
theorem reconnection_steady (remote : SockaddrIn) {s : CxnState} (other : s ≠ .CONNECTING)
    {now : Rat} (positive : 0 < now) (choice : Nat) (events : List CxnEvent) :
    (run CxnWorld.step (CxnWorld.new now choice remote s) events).handler.Steady := by
  have sound : (run CxnWorld.step (CxnWorld.new now choice remote s) events).Sound :=
    run_keeps (fun _ e sound => sound.step e)
      ⟨positive, CxnHandler.new_sound positive choice remote other⟩ events
  exact sound.2.steady

/-- An attempt that nobody answers is made again: behind fifteen minutes, not before. -/
theorem reconnection_steady_again :
    (run CxnWorld.step (CxnWorld.new 1000 0 CxnHandler.localAddr .DISCONNECTED)
        [.clock 1500, .expire 0, .clock 1901, .expire 1]).handler.trace.length = 5 ∧
      (run CxnWorld.step (CxnWorld.new 1000 0 CxnHandler.localAddr .DISCONNECTED)
        [.clock 1500, .expire 0, .clock 1901, .expire 1]).handler.Steady :=
  ⟨by decide +kernel, reconnection_steady CxnHandler.localAddr (by decide) (by decide +kernel) 0 _⟩

end Coinscope.Clients

/-
# Control.Isolation -- REGISTER and the messages of others

`g_messages` is keyed by the id of a connection: that is where messages are put, looked
up, and erased from when the connection is deleted.  REGISTER erases by the random
registration id instead.

* `Isolated` -- what REGISTER is for: the own messages go, all others stay.
* `register_isolated_iff` -- when that happens, in every reachable state.
-/
import Coinscope.Control.Handling
import Coinscope.Control.Registry

namespace Coinscope.Control

open Coinscope.Shared
open Coinscope.Theory.Bytes
open Coinscope.Theory.Runs
open Std (TreeMap)

set_option autoImplicit false

/-! ## One REGISTER -/

namespace Globals

theorem tableOf_erased (g g' : Globals) (key c : UInt32)
    (erased : g'.messages = g.messages.erase key) :
    g'.tableOf c = if key = c then ∅ else g.tableOf c := by
  simp only [tableOf, erased, TreeMap.getElem?_erase, Std.LawfulEqCmp.compare_eq_iff_eq]
  split <;> rfl

end Globals

namespace Ready

variable {h : Handler} (ready : Ready h REGISTER [])

include ready

/-- REGISTER erases the table of the registration id the connection had. -/
theorem register_messages (cfg : Config) (g : Globals) :
    (h.process cfg g).1.messages = g.messages.erase h.regid := by
  rw [ready.process_empty cfg g rfl]
  have none_ : messageLength h.readQueue.buffer = 0 := ready.length
  simp only [Handler.receiveHeader, ReadBuffer.setToRead, none_, if_true, if_pos ready.type,
    Handler.registerMe]
  split <;> rfl

theorem register_tableOf (cfg : Config) (g : Globals) (c : UInt32) :
    (h.process cfg g).1.tableOf c = if h.regid = c then ∅ else g.tableOf c :=
  Globals.tableOf_erased g _ h.regid c (ready.register_messages cfg g)

end Ready

/-! ## Connections -/

namespace Plane

/-- Nothing is registered under an id. -/
def Bare (g : Globals) (c : UInt32) : Prop := ∀ m : UInt32, (g.tableOf c)[m]? = none

/-- The messages of the connection `k`, whose id is `own`, are gone, and those of every
other connection are what they were. -/
def Isolated (p : Plane) (k : Nat) (own : UInt32) (before after : Globals) : Prop :=
  Bare after own ∧
    ∀ (k' : Nat) (other : Handler), k' ≠ k → p.connections[k']? = some other →
      ∀ m : UInt32, (after.tableOf other.id)[m]? = (before.tableOf other.id)[m]?

/-- The registration id of the connection `k` is its id, or it has registered nothing; and
nobody else with that id has. -/
def Matching (p : Plane) (k : Nat) (h : Handler) (g : Globals) : Prop :=
  (h.regid = h.id ∨ Bare g h.id) ∧
    ∀ (k' : Nat) (other : Handler), k' ≠ k → p.connections[k']? = some other →
      other.id = h.regid → Bare g other.id

theorem bare_register_iff {h : Handler} (ready : Ready h REGISTER []) (cfg : Config) (g : Globals) :
    Bare (h.process cfg g).1 h.id ↔ h.regid = h.id ∨ Bare g h.id := by
  rw [Bare, ready.register_tableOf cfg g]
  by_cases same : h.regid = h.id
  · rw [if_pos same]
    exact ⟨fun _ => Or.inl same, fun _ _ => TreeMap.getElem?_emptyc⟩
  · rw [if_neg same]
    exact ⟨Or.inr, fun either => either.resolve_left same⟩

/-- What a REGISTER does to the messages under another connection's id. -/
theorem kept_register_iff {h : Handler} (ready : Ready h REGISTER []) (cfg : Config) (g : Globals)
    (c : UInt32) :
    (∀ m : UInt32, ((h.process cfg g).1.tableOf c)[m]? = (g.tableOf c)[m]?) ↔
      (c = h.regid → Bare g c) := by
  rw [ready.register_tableOf cfg g]
  by_cases same : h.regid = c
  · rw [if_pos same]
    constructor
    · intro kept _ m
      rw [← kept m, TreeMap.getElem?_emptyc]
    · intro bare m
      rw [bare same.symm m, TreeMap.getElem?_emptyc]
  · rw [if_neg same]
    exact ⟨fun _ named => absurd named.symm same, fun _ _ => rfl⟩

theorem isolated_register_iff (p : Plane) (k : Nat) {h : Handler} (ready : Ready h REGISTER [])
    (cfg : Config) (g : Globals) :
    p.Isolated k h.id g (h.process cfg g).1 ↔ p.Matching k h g := by
  apply and_congr (bare_register_iff ready cfg g)
  constructor
  · intro kept k' other apart found
    exact (kept_register_iff ready cfg g other.id).1 (kept k' other apart found)
  · intro bare k' other apart found
    exact (kept_register_iff ready cfg g other.id).2 (bare k' other apart found)

/-- In every run, whenever a callback of a connection comes to handle a REGISTER: the
connection's own messages are erased and those of every other connection kept, exactly
if its registration id is its id or it has none, and the registration id is the id of
nobody else with messages. -/
theorem register_isolated_iff (cfg : Config) (blacklist : SockaddrStorage → Bool)
    (tape : Nat → Outside) (events : List PlaneEvent) (p : Plane)
    (reached : p = run (Plane.step cfg) (Plane.start blacklist tape) events) (k : Nat)
    (opened : Handler) (found : p.connections[k]? = some opened) (inbox : List RecvResult)
    (g : Globals) (h : Handler) (moment : (g, h) ∈ opened.moments cfg p.globals inbox)
    (complete : controls.Complete h.readQueue.held)
    (request : content h.readQueue.held = (REGISTER, [])) :
    p.Isolated k h.id g (h.process cfg g).1 ↔ p.Matching k h g := by
  have consistent : p.Consistent := by
    rw [reached]
    exact run_keeps (Plane.step_consistent cfg) (Plane.start_consistent blacklist tape) events
  have whole : h.readQueue.held.length = messageSize + messageLength h.readQueue.held := by
    rw [complete.2, controls_size]
  obtain ⟨ready, -⟩ := Handler.ready_of_moment cfg (consistent.settled k opened found).sound
    moment whole
  rw [request] at ready
  exact p.isolated_register_iff k ready cfg g

/-! ## Two connections -/

/-- A message to register, 24 zeros. -/
def someZeros : Chunk := ⟨[0, 0, 0, 0, 24] ++ 1 :: List.replicate 24 0, by decide, by decide⟩

/-- Two connections that have registered it; the first has the registration id `regid`. -/
def someRegistrations (regid : UInt32) : Plane :=
  run (Plane.step Connector.someConfig) (Plane.start (fun _ => false) fun _ => someOutside)
    [.accept 6 regid, .accept 7 9, .callback 0 Events.READ [.data someZeros] [],
     .callback 1 Events.READ [.data someZeros] []]

/-- The header of a REGISTER. -/
def someRegister : List RecvResult := [.data ⟨[0, 0, 0, 0, 0, 3], by decide, by decide⟩]

/-- The first of the connections. -/
def someRegistrant (regid : UInt32) : Handler :=
  (someRegistrations regid).connections.getD 0 (Handler.new 6 0 regid)

/-- The state in which it comes to handle the REGISTER. -/
def someRenaming (regid : UInt32) : Globals × Handler :=
  (((someRegistrant regid).moments Connector.someConfig (someRegistrations regid).globals
    someRegister).head?).getD ((someRegistrations regid).globals, someRegistrant regid)

theorem someRegistrant_found {regid : UInt32}
    (there : ((someRegistrations regid).connections[0]?).isSome = true) :
    (someRegistrations regid).connections[0]? = some (someRegistrant regid) := by
  obtain ⟨h, here⟩ := Option.isSome_iff_exists.1 there
  rw [someRegistrant, TreeMap.getD_eq_getD_getElem?, here]
  rfl

theorem someRenaming_moment {regid : UInt32}
    (some_ : ((someRegistrant regid).moments Connector.someConfig
      (someRegistrations regid).globals someRegister).isEmpty = false) :
    someRenaming regid ∈ (someRegistrant regid).moments Connector.someConfig
      (someRegistrations regid).globals someRegister := by
  rw [someRenaming]
  cases moments : (someRegistrant regid).moments Connector.someConfig
      (someRegistrations regid).globals someRegister with
  | nil =>
      rw [moments] at some_
      cases some_
  | cons first rest => exact List.mem_cons_self

/-- With the registration id 0, which is its id, the first connection loses its message and
the second one keeps its own. -/
theorem register_isolated_iff_same_id :
    (someRegistrations 0).Isolated 0 0 (someRenaming 0).1
      ((someRenaming 0).2.process Connector.someConfig (someRenaming 0).1).1 := by
  have id : (someRenaming 0).2.id = 0 := by decide +kernel
  have regid : (someRenaming 0).2.regid = 0 := by decide +kernel
  have accepted : (someRegistrations 0).accepted = 2 := by decide +kernel
  have consistent : (someRegistrations 0).Consistent :=
    run_keeps (Plane.step_consistent _) (Plane.start_consistent ..) _
  have isolated := (register_isolated_iff Connector.someConfig (fun _ => false)
    (fun _ => someOutside) _ (someRegistrations 0) rfl 0 (someRegistrant 0)
    (someRegistrant_found (by decide +kernel)) someRegister (someRenaming 0).1 (someRenaming 0).2
    (someRenaming_moment (by decide +kernel)) ⟨by decide +kernel, by decide +kernel⟩
    (by decide +kernel)).2
  rw [id] at isolated
  refine isolated ⟨Or.inl (regid.trans id.symm), ?_⟩
  intro k' other apart found named
  have number := consistent.toNat_id (by rw [accepted]; decide) found
  rw [named, regid] at number
  exact absurd number.symm apart

/-- With the registration id 1, which is the id of the second connection, the first one
keeps its message and the second one loses its own. -/
theorem register_erases_other_table :
    someRenaming 1 ∈ (someRegistrant 1).moments Connector.someConfig
        (someRegistrations 1).globals someRegister ∧
      (someRenaming 1).2.readQueue.held = [0, 0, 0, 0, 0, REGISTER] ∧
      ¬ (someRegistrations 1).Isolated 0 (someRenaming 1).2.id (someRenaming 1).1
        ((someRenaming 1).2.process Connector.someConfig (someRenaming 1).1).1 ∧
      ((someRenaming 1).1.tableOf 1).size = 1 ∧
      (((someRenaming 1).2.process Connector.someConfig (someRenaming 1).1).1.tableOf 1).size
        = 0 := by
  have id : (someRenaming 1).2.id = 0 := by decide +kernel
  refine ⟨someRenaming_moment (by decide +kernel), by decide +kernel, ?_, by decide +kernel,
    by decide +kernel⟩
  rintro ⟨gone, -⟩
  rw [id] at gone
  have still : ((((someRenaming 1).2.process Connector.someConfig
      (someRenaming 1).1).1.tableOf 0)[(1 : UInt32)]?).isSome = true := by decide +kernel
  rw [gone 1] at still
  cases still

end Plane

end Coinscope.Control

/-
# Process.Ownership -- who closes a descriptor

A descriptor obtained for a bitcoin connection belongs to the attempt that waits on it, then
to the handler the attempt hands it to, or to a handler from the start.  Handlers are in
`g_active_handlers` while they have one, and in `g_inactive_handlers` until somebody else
clears that.  The code says none of this; it is kept by where each `close`, each `fd = -1`
and each move stands.

`Books` goes with a run of the process and writes down every descriptor that is obtained and
every call of `close`.

* `Connector.Handler.closes_cases` -- what a callback closes, once or twice.
* `Filed`, `Moved` -- the two containers, and what a callback does to them.
* `Books.Proper` -- the invariant: every descriptor that is open has one holder.
* `ownership` -- it holds in every run.
-/
import Coinscope.Process.EventLoop
import Coinscope.Connector.Endpoints
import Coinscope.Theory.Tables

namespace Coinscope

open Coinscope.Shared
open Coinscope.Theory
open Coinscope.Theory.Runs
open Std (TreeMap)

set_option autoImplicit false

/-! ## Callbacks of handlers -/

namespace Connector.Handler

theorem process_talks (cfg : Config) (env : VersionEnv) (h : Handler) (lastBlock : Int) :
    Talks h (h.process cfg env lastBlock).1 := by
  have handled := handleMessage_talks cfg h lastBlock
  have sized : Talks h h.sized := Talks.quiet rfl rfl rfl
  have moved : ∀ (k : Handler) (r : UInt32), Talks k (k.receiving r) :=
    fun k r => Talks.quiet rfl rfl rfl
  unfold process
  simp only
  split
  · exact Talks.quiet rfl rfl rfl
  split
  · split
    · exact sized.trans (moved _ _)
    · exact sized.trans (handleMessage_talks cfg h.sized lastBlock)
  split
  · exact handled.trans (moved _ _)
  split
  · exact sized.trans (moved _ _)
  split
  · exact handled.trans (moved _ _)
  split
  · exact sized.trans (moved _ _)
  split
  · exact handled.trans (replyVersion_talks cfg env _ _)
  · exact Talks.refl h

/-- `do_read` closes nothing and keeps the descriptor, or closes it and is without one. -/
theorem readCloses_cases (cfg : Config) (env : VersionEnv) (fuel : Nat) (h : Handler)
    (lastBlock : Int) (inbox : List RecvResult) :
    ((doReadAux cfg env fuel h lastBlock inbox).1.io.fd = h.io.fd ∧
        readClosesAux cfg env fuel h lastBlock inbox = []) ∨
      ((doReadAux cfg env fuel h lastBlock inbox).1.io.fd = -1 ∧
        readClosesAux cfg env fuel h lastBlock inbox = [h.io.fd]) := by
  induction fuel generalizing h lastBlock inbox with
  | zero => exact Or.inl ⟨rfl, rfl⟩
  | succ fuel ih =>
      rw [doReadAux, readClosesAux]
      split
      · simp only
        generalize h.readQueue.fill inbox = s
        cases s.ret with
        | fail e =>
            cases e with
            | eagain => exact Or.inl ⟨rfl, rfl⟩
            | eintr => exact Or.inl ⟨rfl, rfl⟩
            | econnreset => exact Or.inr ⟨rfl, rfl⟩
            | ebadf => exact Or.inr ⟨rfl, rfl⟩
            | other code => exact Or.inr ⟨rfl, rfl⟩
        | count n =>
            cases n with
            | zero => exact Or.inr ⟨rfl, rfl⟩
            | succ n =>
                have same : ((h.filled s).process cfg env lastBlock).1.io.fd = h.io.fd :=
                  (process_talks cfg env (h.filled s) lastBlock).fd
                rcases ih ((h.filled s).process cfg env lastBlock).1
                  ((h.filled s).process cfg env lastBlock).2 s.inbox with
                  ⟨fd, none_⟩ | ⟨fd, one⟩
                · exact Or.inl ⟨fd.trans same, none_⟩
                · exact Or.inr ⟨fd, one.trans (by rw [same])⟩
      · exact Or.inl ⟨rfl, rfl⟩

theorem drained_fd (h : Handler) : h.drained.io.fd = h.io.fd := by
  unfold drained
  simp only
  split
  · split
    · rfl
    · rfl
  · rfl

theorem writeCloses_cases (cfg : Config) (h : Handler) (outbox : List WriteResult) :
    ((h.doWrite cfg outbox).io.fd = h.io.fd ∧ h.writeCloses outbox = []) ∨
      ((h.doWrite cfg outbox).io.fd = -1 ∧ h.writeCloses outbox = [h.io.fd]) := by
  unfold doWrite writeCloses
  generalize WriteBuffer.flush h.io.fd outbox h.writeQueue = s
  have done : (if s.queue.toWrite = 0 then
      ({ h with writeQueue := s.queue, sent := h.sent ++ s.put } : Handler).drained
      else { h with writeQueue := s.queue, sent := h.sent ++ s.put }).io.fd = h.io.fd := by
    split
    · exact drained_fd _
    · rfl
  simp only
  cases s.ret with
  | count n => exact Or.inl ⟨done, rfl⟩
  | fail e =>
      cases e with
      | eagain => exact Or.inl ⟨done, rfl⟩
      | eintr => exact Or.inl ⟨done, rfl⟩
      | econnreset => exact Or.inr ⟨rfl, rfl⟩
      | ebadf => exact Or.inr ⟨rfl, rfl⟩
      | other code => exact Or.inr ⟨rfl, rfl⟩

/-- A callback keeps the descriptor and closes nothing, or it closes the descriptor, and a
second time there is none to close. -/
theorem closes_cases (cfg : Config) (env : VersionEnv) {h : Handler} (live : h.io.fd ≠ -1)
    (lastBlock : Int) (revents : Events) (inbox : List RecvResult) (outbox : List WriteResult) :
    ((h.ioCb cfg env lastBlock revents inbox outbox).1.io.fd = h.io.fd ∧
        h.closes cfg env lastBlock revents inbox outbox = []) ∨
      ((h.ioCb cfg env lastBlock revents inbox outbox).1.io.fd = -1 ∧
        (h.closes cfg env lastBlock revents inbox outbox = [h.io.fd] ∨
          h.closes cfg env lastBlock revents inbox outbox = [h.io.fd, -1])) := by
  -- the writing half, from whatever the reading half leaves
  have wrote : ∀ r : Handler,
      (((if revents.write then r.doWrite cfg outbox else r).ioSet
          ⟨(if revents.write then r.doWrite cfg outbox else r).state &&& RECV_MASK ≠ 0,
            (if revents.write then r.doWrite cfg outbox else r).state &&& SEND_MASK ≠ 0⟩).io.fd =
          r.io.fd ∧ (if revents.write then r.writeCloses outbox else []) = []) ∨
      (((if revents.write then r.doWrite cfg outbox else r).ioSet
          ⟨(if revents.write then r.doWrite cfg outbox else r).state &&& RECV_MASK ≠ 0,
            (if revents.write then r.doWrite cfg outbox else r).state &&& SEND_MASK ≠ 0⟩).io.fd =
          -1 ∧ (if revents.write then r.writeCloses outbox else []) = [r.io.fd]) := by
    intro r
    rw [(ioSet_talks ..).fd]
    cases revents.write with
    | false => exact Or.inl ⟨rfl, rfl⟩
    | true => exact writeCloses_cases cfg r outbox
  rw [ioCb, closes, if_neg live, if_neg live]
  by_cases ready : h.state &&& RECV_MASK ≠ 0 ∧ revents.read = true
  · have reads : (decide (h.state &&& RECV_MASK ≠ 0) && revents.read) = true := by
      simp [ready]
    simp only [if_pos ready, reads, if_true]
    rcases readCloses_cases cfg env (h.readQueue.effort inbox + 1) h lastBlock inbox with
      ⟨fd, none_⟩ | ⟨fd, one⟩
    · rw [none_, List.nil_append]
      rcases wrote (h.doRead cfg env lastBlock inbox).1 with ⟨fd', none_'⟩ | ⟨fd', one'⟩
      · exact Or.inl ⟨fd'.trans fd, none_'⟩
      · exact Or.inr ⟨fd', Or.inl (one'.trans (by rw [doRead, fd]))⟩
    · right
      rw [one]
      rcases wrote (h.doRead cfg env lastBlock inbox).1 with ⟨fd', none_'⟩ | ⟨fd', one'⟩
      · exact ⟨fd'.trans fd, Or.inl (by rw [none_']; rfl)⟩
      · exact ⟨fd', Or.inr (by rw [one', doRead, fd]; rfl)⟩
  · have idle : (decide (h.state &&& RECV_MASK ≠ 0) && revents.read) = false := by
      simpa [not_and_or] using ready
    simp only [if_neg ready, idle, Bool.false_eq_true, if_false, List.nil_append]
    rcases wrote h with ⟨fd, none_⟩ | ⟨fd, one⟩
    · exact Or.inl ⟨fd, none_⟩
    · exact Or.inr ⟨fd, Or.inl one⟩

end Connector.Handler

namespace Process

open Coinscope.Control
open Coinscope.Attempts (Object ConnectHandler TorHandler)

/-! ## What is done to descriptors and handlers -/

/-- Who calls `close`. -/
inductive Closer where
  /-- The function that has just obtained the descriptor. -/
  | obtainer
  /-- The attempt at a place among those that wait. -/
  | attempt (k : Nat)
  | handler (id : UInt32)

/-- A call of `close`, or the end of a handler in `g_inactive_handlers.clear()` while a
callback or a method of the handler `running` is on the stack. -/
inductive Deed where
  | close (who : Closer) (fd : Int)
  | destroy (running : Option UInt32) (id : UInt32)

namespace Deed

def closed : Deed → Option Int
  | close _ fd => some fd
  | destroy .. => none

def destroyed : Deed → Option UInt32
  | close .. => none
  | destroy _ id => some id

end Deed

/-- The descriptors that are closed. -/
def closedBy (deeds : List Deed) : List Int := deeds.filterMap Deed.closed

/-- The handlers that are destroyed. -/
def destroyedBy (deeds : List Deed) : List UInt32 := deeds.filterMap Deed.destroyed

/-- `g_inactive_handlers.clear()`; the destructor of a handler that still has a descriptor
closes it. -/
def clear (running : Option UInt32) (inactive : List Connector.Handler) : List Deed :=
  inactive.flatMap fun h =>
    .destroy running h.id :: if 0 ≤ h.io.fd then [.close (.handler h.id) h.io.fd] else []

/-- What `disconnect()` does on the listed targets, one after the other. -/
def visited : List UInt32 → TreeMap UInt32 Connector.Handler → List Connector.Handler → List Deed
  | [], _, _ => []
  | target :: rest, active, inactive =>
      match active[target]? with
      | none => visited rest active inactive
      | some h => .close (.handler target) h.io.fd :: (clear (some target) inactive ++
          visited rest (active.erase target) [h.disconnect])

/-- The descriptor that a callback obtains. -/
def obtains : Event → List Int
  | .accept a =>
      match a.answer with
      | .ok fd => [(fd : Int)]
      | .error _ => []
  | .connect out _ =>
      match out.socket with
      | .ok fd => [(fd : Int)]
      | .error _ => []
  | _ => []

/-- `connect` fails for good. -/
def refused (out : Outside) : Bool :=
  match out.connect with
  | none => false
  | some e => !Globals.inProgress e

/-- The calls of `close` and the ends of handlers in a callback. -/
def deeds (cfg : Config) (p : Process) : Event → List Deed
  | .accept a =>
      match a.answer with
      | .error _ => []
      | .ok fd =>
          if p.globals.blacklist a.addr then [.close .obtainer fd]
          else clear none p.globals.inactiveHandlers
  | .connect out started =>
      match out.socket with
      | .error _ => []
      | .ok fd =>
          match started with
          | .direct remote =>
              if p.globals.blacklist remote || refused out then [.close .obtainer fd] else []
          | .tor _ _ => if refused out then [.close .obtainer fd] else []
  | .disconnect msg _ => visited msg.targets p.globals.activeHandlers p.globals.inactiveHandlers
  | .attempt k c =>
      match p.pending[k]? with
      | none => []
      | some (.direct h) => if refused c.out then [.close (.attempt k) h.io.fd] else []
      -- the descriptor is closed in `advance()`, which finds it there once
      | some (.tor h) =>
          if (h.ioCb cfg { c with globals := p.globals }).2.closed && !h.closed then
            [.close (.attempt k) h.fd]
          else []
  | .io id env revents inbox outbox =>
      match p.globals.activeHandlers[id]? with
      | none => []
      | some h =>
          let g := p.globals
          let k := (h.ioCb cfg env g.lastBlock revents inbox outbox).1
          let fds := h.closes cfg env g.lastBlock revents inbox outbox
          fds.map (.close (.handler id)) ++
            clear (some id) ((updated g id k).cleared id k fds.length)
  | _ => []

/-! ## The two containers -/

/-- In how many places a handler with this id is. -/
def places (g : Globals) (id : UInt32) : Nat :=
  (if id ∈ g.activeHandlers then 1 else 0) + (g.inactiveHandlers.map (·.id)).count id

/-- The handlers are where they belong: with a descriptor in `g_active_handlers` under their
ids, without one in `g_inactive_handlers`, and none twice. -/
structure Filed (g : Globals) : Prop where
  active : ∀ (id : UInt32) (h : Connector.Handler), g.activeHandlers[id]? = some h →
    h.id = id ∧ 0 ≤ h.io.fd
  inactive : ∀ h ∈ g.inactiveHandlers, h.io.fd = -1
  once : ∀ id, places g id ≤ 1

/-- How many handlers have this descriptor. -/
def held (g : Globals) (fd : Int) : Nat :=
  Tables.count (fun h : Connector.Handler => decide (h.io.fd = fd)) g.activeHandlers

/-- From one moment to the next the handlers stay filed.  They give up what the deeds close
and take the descriptors `takes`; the deeds destroy some, and those of `born` are new. -/
structure Moved (g g' : Globals) (deeds : List Deed) (takes : List Int) (born : List UInt32) :
    Prop where
  filed : Filed g'
  held : ∀ fd, 0 ≤ fd → held g' fd + (closedBy deeds).count fd = held g fd + takes.count fd
  places : ∀ id, places g' id + (destroyedBy deeds).count id = places g id + born.count id
  pool : g'.idPool = g.idPool + UInt32.ofNat born.length

theorem closedBy_append (a b : List Deed) : closedBy (a ++ b) = closedBy a ++ closedBy b :=
  List.filterMap_append

theorem destroyedBy_append (a b : List Deed) :
    destroyedBy (a ++ b) = destroyedBy a ++ destroyedBy b :=
  List.filterMap_append

/-- Handlers without a descriptor close nothing when they are destroyed. -/
theorem closedBy_clear (running : Option UInt32) {inactive : List Connector.Handler}
    (dead : ∀ h ∈ inactive, h.io.fd = -1) : closedBy (clear running inactive) = [] := by
  induction inactive with
  | nil => rfl
  | cons h rest ih =>
      have here := dead h List.mem_cons_self
      rw [clear, List.flatMap_cons, closedBy_append, here]
      exact ih fun k member => dead k (List.mem_cons_of_mem _ member)

theorem destroyedBy_clear (running : Option UInt32) (inactive : List Connector.Handler) :
    destroyedBy (clear running inactive) = inactive.map (·.id) := by
  induction inactive with
  | nil => rfl
  | cons h rest ih =>
      rw [clear, List.flatMap_cons, destroyedBy_append, List.map_cons]
      have here : destroyedBy (.destroy running h.id ::
          if 0 ≤ h.io.fd then [.close (.handler h.id) h.io.fd] else []) = [h.id] := by
        split
        · rfl
        · rfl
      rw [here, List.singleton_append]
      exact congrArg _ ih

namespace Moved

/-- What does not concern the handlers. -/
theorem same {g g' : Globals} (filed : Filed g) (active : g'.activeHandlers = g.activeHandlers)
    (inactive : g'.inactiveHandlers = g.inactiveHandlers) (pool : g'.idPool = g.idPool) :
    Moved g g' [] [] [] := by
  have here : ∀ id, Process.places g' id = Process.places g id := by
    intro id
    rw [Process.places, Process.places, active, inactive]
  refine ⟨⟨?_, ?_, ?_⟩, fun fd _ => ?_, fun id => ?_, ?_⟩
  · rw [active]
    exact filed.active
  · rw [inactive]
    exact filed.inactive
  · intro id
    rw [here]
    exact filed.once id
  · rw [Process.held, Process.held, active]
    rfl
  · rw [here]
    rfl
  · rw [pool]
    exact (UInt32.add_zero _).symm

theorem noted {g g' : Globals} (filed : Filed g) (noted : Noted g g') : Moved g g' [] [] [] :=
  same filed noted.activeHandlers noted.inactiveHandlers noted.idPool

theorem trans {a b c : Globals} {early late : List Deed} {takes : List Int} {born : List UInt32}
    (first : Moved a b early [] []) (second : Moved b c late takes born) :
    Moved a c (early ++ late) takes born := by
  refine ⟨second.filed, fun fd open_ => ?_, fun id => ?_, ?_⟩
  · have one := first.held fd open_
    have two := second.held fd open_
    rw [closedBy_append, List.count_append]
    rw [List.count_nil] at one
    omega
  · have one := first.places id
    have two := second.places id
    rw [destroyedBy_append, List.count_append]
    rw [List.count_nil] at one
    omega
  · rw [second.pool, first.pool]
    exact congrArg (· + _) (UInt32.add_zero _)

end Moved

/-- Writing over an entry leaves the keys alone. -/
theorem mem_insert_over {table : TreeMap UInt32 Connector.Handler} {id i : UInt32}
    {h k : Connector.Handler} (found : table[id]? = some h) :
    i ∈ table.insert id k ↔ i ∈ table := by
  rw [TreeMap.mem_insert, Std.LawfulEqCmp.compare_eq_iff_eq]
  refine ⟨?_, Or.inr⟩
  rintro (rfl | there)
  · exact TreeMap.mem_iff_isSome_getElem?.2 (by rw [found]; rfl)
  · exact there

/-- A handler that keeps its id and its descriptor changes in its place. -/
theorem Filed.update {g g' : Globals} (filed : Filed g) {id : UInt32} {h k : Connector.Handler}
    (found : g.activeHandlers[id]? = some h) (name : k.id = h.id) (fd : k.io.fd = h.io.fd)
    (active : g'.activeHandlers = g.activeHandlers.insert id k)
    (inactive : g'.inactiveHandlers = g.inactiveHandlers) (pool : g'.idPool = g.idPool) :
    Moved g g' [] [] [] := by
  have here : ∀ i, places g' i = places g i := by
    intro i
    simp only [places, active, inactive, mem_insert_over found]
  refine ⟨⟨?_, ?_, ?_⟩, fun d _ => ?_, fun i => ?_, ?_⟩
  · intro i j there
    rw [active, TreeMap.getElem?_insert] at there
    split at there
    · rename_i equal
      cases there
      rw [← Std.LawfulEqCmp.compare_eq_iff_eq.1 equal, name, fd]
      exact filed.active id h found
    · exact filed.active i j there
  · rw [inactive]
    exact filed.inactive
  · intro i
    rw [here]
    exact filed.once i
  · have traded : Tables.count (fun h : Connector.Handler => decide (h.io.fd = d))
        (g.activeHandlers.insert id k) + _ = _ := Tables.count_insert_over found k
    simp only [fd] at traded
    rw [held, active]
    exact Nat.add_right_cancel traded
  · rw [here]
    rfl
  · rw [pool]
    exact (UInt32.add_zero _).symm

theorem closedBy_map (who : Closer) (fds : List Int) : closedBy (fds.map (.close who)) = fds := by
  rw [closedBy, List.filterMap_map]
  exact List.filterMap_some

theorem destroyedBy_map (who : Closer) (fds : List Int) :
    destroyedBy (fds.map (.close who)) = [] := by
  rw [destroyedBy, List.filterMap_map]
  exact List.filterMap_none _

/-- Tables with the same entries count the same. -/
theorem held_congr {g' : Globals} {table : TreeMap UInt32 Connector.Handler}
    (same : ∀ i : UInt32, g'.activeHandlers[i]? = table[i]?) (fd : Int) :
    held g' fd = Tables.count (fun h : Connector.Handler => decide (h.io.fd = fd)) table := by
  rw [held, Tables.count, (TreeMap.Equiv.of_forall_constGet?_eq same).toList_eq, Tables.count]

/-- A handler without its descriptor moves to the other container, which is cleared for it. -/
theorem Filed.bury {g g' : Globals} (filed : Filed g) {id : UInt32} {h k : Connector.Handler}
    (found : g.activeHandlers[id]? = some h) (name : k.id = h.id) (dead : k.io.fd = -1)
    (active : ∀ i : UInt32, g'.activeHandlers[i]? = if i = id then none else g.activeHandlers[i]?)
    (inactive : g'.inactiveHandlers = [k]) (pool : g'.idPool = g.idPool)
    {fds : List Int} (closes : fds = [h.io.fd] ∨ fds = [h.io.fd, -1]) :
    Moved g g' (fds.map (.close (.handler id)) ++ clear (some id) g.inactiveHandlers) [] [] := by
  obtain ⟨here, isOpen⟩ := filed.active id h found
  have member : id ∈ g.activeHandlers := TreeMap.mem_iff_isSome_getElem?.2 (by rw [found]; rfl)
  have keys : ∀ i, i ∈ g'.activeHandlers ↔ i ≠ id ∧ i ∈ g.activeHandlers := by
    intro i
    rw [TreeMap.mem_iff_isSome_getElem?, TreeMap.mem_iff_isSome_getElem?, active]
    by_cases same : i = id
    · simp [same]
    · simp [same]
  have placed : ∀ i, places g' i + (g.inactiveHandlers.map (·.id)).count i = places g i := by
    intro i
    rw [places, places, inactive]
    simp only [List.map_cons, List.map_nil, List.count_singleton, name, here, beq_iff_eq, keys]
    by_cases same : i = id
    · simp [same, member]
    · simp [same, Ne.symm same]
  refine ⟨⟨?_, ?_, ?_⟩, fun d open_ => ?_, fun i => ?_, ?_⟩
  · intro i j there
    rw [active] at there
    split at there
    · cases there
    · exact filed.active i j there
  · intro j there
    rw [inactive, List.mem_singleton] at there
    rw [there]
    exact dead
  · intro i
    have before := filed.once i
    have now := placed i
    omega
  · have erased : ∀ i : UInt32, g'.activeHandlers[i]? = (g.activeHandlers.erase id)[i]? := by
      intro i
      rw [active, Tables.getElem?_erase]
    have counted : held g' d + (if decide (h.io.fd = d) then 1 else 0) = held g d := by
      rw [held_congr erased d]
      exact Tables.count_erase found
    have once : fds.count d = if h.io.fd = d then 1 else 0 := by
      rcases closes with rfl | rfl
      · simp only [List.count_singleton, beq_iff_eq]
      · rw [List.count_cons, List.count_singleton]
        simp only [beq_iff_eq]
        split
        · omega
        · omega
    rw [closedBy_append, closedBy_map, closedBy_clear _ filed.inactive, List.append_nil, once,
      List.count_nil]
    simp only [decide_eq_true_eq] at counted
    exact counted
  · rw [destroyedBy_append, destroyedBy_map, destroyedBy_clear, List.nil_append]
    exact placed i
  · rw [pool]
    exact (UInt32.add_zero _).symm

/-- A new handler takes the next id. -/
theorem Filed.add {g g' : Globals} (filed : Filed g) (fresh : places g g.idPool = 0)
    {h : Connector.Handler} {fd : Nat} (name : h.id = g.idPool) (open_ : h.io.fd = fd)
    (active : g'.activeHandlers = g.activeHandlers.insertIfNew g.idPool h)
    (pool : g'.idPool = g.idPool + 1) {deeds : List Deed} (closes : closedBy deeds = [])
    (dead : ∀ k ∈ g'.inactiveHandlers, k ∈ g.inactiveHandlers)
    (inactive : ∀ i, (g'.inactiveHandlers.map (·.id)).count i + (destroyedBy deeds).count i =
      (g.inactiveHandlers.map (·.id)).count i) : Moved g g' deeds [(fd : Int)] [g.idPool] := by
  have absent : g.idPool ∉ g.activeHandlers := by
    intro there
    rw [places, if_pos there] at fresh
    omega
  have lookup : ∀ i : UInt32, g'.activeHandlers[i]? =
      (g.activeHandlers.insert g.idPool h)[i]? := by
    intro i
    rw [active, TreeMap.getElem?_insertIfNew, TreeMap.getElem?_insert]
    simp only [Std.LawfulEqCmp.compare_eq_iff_eq]
    by_cases same : g.idPool = i
    · rw [if_pos ⟨same, absent⟩, if_pos same]
    · rw [if_neg (fun both => same both.1), if_neg same]
  have placed : ∀ i, places g' i + (destroyedBy deeds).count i =
      places g i + [g.idPool].count i := by
    intro i
    have rest := inactive i
    have keys : i ∈ g'.activeHandlers ↔ g.idPool = i ∨ i ∈ g.activeHandlers := by
      rw [TreeMap.mem_iff_isSome_getElem?, lookup, ← TreeMap.mem_iff_isSome_getElem?,
        TreeMap.mem_insert, Std.LawfulEqCmp.compare_eq_iff_eq]
    rw [places, places]
    simp only [List.count_singleton, beq_iff_eq, keys]
    by_cases same : g.idPool = i
    · rw [if_pos (Or.inl same), if_pos same, if_neg (by rw [← same]; exact absent)]
      omega
    · simp only [same, false_or, if_false]
      omega
  refine ⟨⟨?_, fun k there => filed.inactive k (dead k there), ?_⟩, fun d _ => ?_, placed, pool⟩
  · intro i k there
    rw [lookup, TreeMap.getElem?_insert] at there
    split at there
    · rename_i same
      cases there
      rw [← Std.LawfulEqCmp.compare_eq_iff_eq.1 same, open_]
      exact ⟨name, Int.natCast_nonneg fd⟩
    · exact filed.active i k there
  · intro i
    have before := filed.once i
    have now := placed i
    rw [List.count_singleton] at now
    by_cases same : g.idPool = i
    · subst same
      simp only [beq_self_eq_true, if_true] at now
      omega
    · simp only [beq_iff_eq, same, if_false] at now
      omega
  · have none_ : g.activeHandlers[g.idPool]? = none := TreeMap.getElem?_eq_none absent
    rw [held_congr lookup d, Tables.count_insert_new none_, closes, List.count_nil,
      List.count_singleton, open_]
    simp only [decide_eq_true_eq, beq_iff_eq]
    rfl

/-! ## Commands -/

theorem disconnectOne_moved {g : Globals} (filed : Filed g) {id : UInt32} {h : Connector.Handler}
    (found : g.activeHandlers[id]? = some h) : Moved g (g.disconnectOne id h)
      (.close (.handler id) h.io.fd :: clear (some id) g.inactiveHandlers) [] [] :=
  filed.bury (k := h.disconnect) found rfl rfl (fun _ => Globals.disconnectOne_lookup ..) rfl rfl
    (Or.inl rfl)

/-- The listed targets, one after the other. -/
theorem visit_moved {g : Globals} (filed : Filed g) (messageId : UInt32) (targets : List UInt32) :
    Moved g (Globals.visit Globals.disconnectOne messageId targets g)
      (visited targets g.activeHandlers g.inactiveHandlers) [] [] := by
  induction targets generalizing g with
  | nil => exact Moved.same filed rfl rfl rfl
  | cons target rest ih =>
      rw [Globals.visit, visited]
      cases found : g.activeHandlers[target]? with
      | some h =>
          have first := disconnectOne_moved filed found
          exact first.trans (ih first.filed)
      | none =>
          have noted := Moved.noted filed (Noted.gLog g .DEBUG
            (text "Attempting to send command message")
            [decimal messageId.toNat, text "to non-existant target", decimal target.toNat])
          exact noted.trans (ih noted.filed)

/-- COMMAND_DISCONNECT with targets of its own. -/
theorem disconnect_moved {g : Globals} (filed : Filed g) {msg : CommandMsg}
    (explicit : msg.targets ≠ [BROADCAST_TARGET]) : Moved g (g.disconnect msg)
      (visited msg.targets g.activeHandlers g.inactiveHandlers) [] [] := by
  have each : ∀ g' : Globals, Noted g g' →
      Moved g (Globals.visit Globals.disconnectOne msg.messageId msg.targets g')
        (visited msg.targets g.activeHandlers g.inactiveHandlers) [] [] := by
    intro g' noted
    have first := Moved.noted filed noted
    have later := visit_moved first.filed msg.messageId msg.targets
    rw [noted.activeHandlers, noted.inactiveHandlers] at later
    exact first.trans later
  unfold Globals.disconnect Globals.foreachHandlers
  rw [if_neg explicit]
  simp only
  split
  · exact each _ ((Noted.gLog ..).trans (Noted.gLog ..))
  · exact each _ (Noted.gLog ..)

/-- A message is queued for the targets. -/
theorem send_moved {g : Globals} (filed : Filed g) (packed : PackedMessage) (msg : CommandMsg) :
    Moved g (g.foreachHandlers msg (Globals.append packed)) [] [] [] := by
  have whole := Globals.foreachHandlers_keeps (P := fun g' => Moved g g' [] [] [])
    (f := Globals.append packed) ?_ ?_ (Moved.same filed rfl rfl rfl) msg
  · exact whole
  · intro a b here noted
    exact here.trans (Moved.noted here.filed noted)
  · intro a id h here found
    have talks := Connector.Handler.appendedForWrite_talks h packed
      (h.writeQueue.appendShared packed.buffer (packedSize + packed.length))
    exact here.trans (here.filed.update found talks.id talks.fd rfl rfl rfl)

/-! ## Callbacks -/

theorem new_fd (cfg : Config) (env : VersionEnv) (lastBlock : Int) (fd : Nat) (aState : UInt32)
    (remote localAddr : SockaddrStorage) (id : UInt32) :
    (Connector.Handler.new cfg env lastBlock fd aState remote localAddr id).1.io.fd = fd := by
  unfold Connector.Handler.new
  simp only
  split
  · rfl
  · split
    · rfl
    · rfl

theorem setupHandler_moved (cfg : Config) (out : Outside) {g : Globals} (filed : Filed g)
    (fresh : places g g.idPool = 0) (fd : Nat) (remote : SockaddrStorage) :
    Moved g (g.setupHandler cfg out fd remote) [] [(fd : Int)] [g.idPool] :=
  filed.add fresh (Connector.Handler.new_ends ..).1 (new_fd ..) rfl rfl rfl (fun _ there => there)
    (fun _ => rfl)

/-- A callback of a handler leaves it where it is, or moves it. -/
theorem called_moved (cfg : Config) {g : Globals} (filed : Filed g) {id : UInt32}
    {h : Connector.Handler} (found : g.activeHandlers[id]? = some h) (env : VersionEnv)
    (revents : Events) (inbox : List RecvResult) (outbox : List WriteResult) :
    Moved g (called cfg g id h env revents inbox outbox)
      ((h.closes cfg env g.lastBlock revents inbox outbox).map (.close (.handler id)) ++
        clear (some id) ((updated g id (h.ioCb cfg env g.lastBlock revents inbox outbox).1).cleared
          id (h.ioCb cfg env g.lastBlock revents inbox outbox).1
          (h.closes cfg env g.lastBlock revents inbox outbox).length)) [] [] := by
  obtain ⟨-, isOpen⟩ := filed.active id h found
  have name := (Connector.Handler.ioCb_ends cfg env h g.lastBlock revents inbox outbox).id
  have cases_ := Connector.Handler.closes_cases cfg env (h := h) (by omega) g.lastBlock revents inbox
    outbox
  unfold called
  generalize h.ioCb cfg env g.lastBlock revents inbox outbox = r at name cases_ ⊢
  generalize h.closes cfg env g.lastBlock revents inbox outbox = fds at cases_ ⊢
  rcases cases_ with ⟨fd, rfl⟩ | ⟨dead, closes⟩
  · exact filed.update found name fd rfl rfl rfl
  · have some_ : ∃ n, fds.length = n + 1 := by
      rcases closes with rfl | rfl
      · exact ⟨0, rfl⟩
      · exact ⟨1, rfl⟩
    obtain ⟨n, length⟩ := some_
    have there : ∀ g' : Globals, id ∈ (updated g' id r.1).activeHandlers := by
      intro g'
      simp [updated]
    simp only [length]
    rw [Globals.buried_succ _ _ (there _), Globals.cleared_succ _ _ (there _)]
    refine filed.bury found name dead ?_ ?_ ?_ closes
    · intro i
      show ((g.activeHandlers.insert id r.1).erase id)[i]? = _
      rw [Tables.getElem?_erase, TreeMap.getElem?_insert]
      simp only [Std.LawfulEqCmp.compare_eq_iff_eq]
      by_cases same : i = id
      · rw [if_pos same, if_pos same]
      · rw [if_neg same, if_neg same, if_neg (Ne.symm same)]
    · rfl
    · rfl

/-- A timer of a handler. -/
theorem updated_moved {g : Globals} (filed : Filed g) {id : UInt32} {h k : Connector.Handler}
    (found : g.activeHandlers[id]? = some h) (talks : Connector.Talks h k) :
    Moved g (updated g id k) [] [] [] :=
  filed.update found talks.id talks.fd rfl rfl rfl

/-- The second timer of a handler that is gone. -/
theorem late_moved (cfg : Config) {g : Globals} (filed : Filed g) {k : Nat} {h : Connector.Handler}
    (found : g.inactiveHandlers[k]? = some h) (now : Nat) :
    Moved g { g with inactiveHandlers := g.inactiveHandlers.set k (h.activePingerCb cfg now) }
      [] [] [] := by
  have talks := Connector.Handler.activePingerCb_talks cfg h now
  obtain ⟨inside, rfl⟩ := List.getElem?_eq_some_iff.1 found
  have names : (g.inactiveHandlers.set k (g.inactiveHandlers[k].activePingerCb cfg now)).map (·.id) =
      g.inactiveHandlers.map (·.id) := by
    rw [List.map_set, talks.id, ← List.map_set, List.set_getElem_self]
  have here : ∀ i, places { g with
      inactiveHandlers :=
        g.inactiveHandlers.set k (g.inactiveHandlers[k].activePingerCb cfg now) } i =
      places g i := by
    intro i
    rw [places, places, names]
  refine ⟨⟨filed.active, ?_, ?_⟩, fun _ _ => rfl, ?_, (UInt32.add_zero _).symm⟩
  · intro j member
    rcases List.mem_or_eq_of_mem_set member with old | rfl
    · exact filed.inactive j old
    · rw [talks.fd]
      exact filed.inactive _ (List.getElem_mem inside)
  · intro i
    rw [here]
    exact filed.once i
  · intro i
    rw [here]
    rfl

/-- Reading the blacklist logs the lines that are no address. -/
theorem loadLines_noted (lines : List BlacklistLine) (set : IpaddrSet) (g : Globals) :
    Noted g (loadLines lines set g).2 := by
  induction lines generalizing set g with
  | nil => exact Noted.refl g
  | cons line rest ih =>
      cases line with
      | address entry inet => exact ih ..
      | invalid line => exact (Noted.gLog ..).trans (ih ..)

/-! ## One step -/

/-- The descriptor of an attempt that waits. -/
def descriptor : Object → Int
  | .direct h => h.io.fd
  | .tor h => h.fd

/-- An attempt that waits has a descriptor. -/
def Holds : Object → Prop
  | .direct h => h.io.active = true ∧ 0 ≤ h.io.fd
  | .tor h => h.Valid ∧ h.io.active = true ∧ h.closed = false

/-- How many attempts and handlers have this descriptor. -/
def holders (p : Process) (fd : Int) : Nat :=
  p.pending.countP (fun o => decide (descriptor o = fd)) + held p.globals fd

/-- A descriptor is closed by whoever has it, and no handler is destroyed in its own
callback. -/
def Careful (p : Process) (e : Event) : Deed → Prop
  | .close .obtainer fd => 0 ≤ fd → fd ∈ obtains e
  | .close (.attempt k) fd => 0 ≤ fd → (p.pending[k]?).map descriptor = some fd
  | .close (.handler id) fd => 0 ≤ fd → (p.globals.activeHandlers[id]?).map (·.io.fd) = some fd
  | .destroy running id => running ≠ some id

/-- What a step does to the process, where it obtains, hands over, closes and destroys.
`born` are the handlers it makes. -/
structure Balanced (cfg : Config) (p : Process) (e : Event) (born : List UInt32) : Prop where
  filed : Filed (p.step cfg e).globals
  waiting : ∀ o ∈ (p.step cfg e).pending, Holds o
  holders : ∀ fd, 0 ≤ fd → (p.step cfg e).holders fd + (closedBy (p.deeds cfg e)).count fd =
    p.holders fd + (obtains e).count fd
  places : ∀ id, places (p.step cfg e).globals id + (destroyedBy (p.deeds cfg e)).count id =
    places p.globals id + born.count id
  pool : (p.step cfg e).globals.idPool = p.globals.idPool + UInt32.ofNat born.length
  careful : ∀ d ∈ p.deeds cfg e, Careful p e d

/-- Handlers without a descriptor are destroyed, other than the one that runs. -/
theorem clear_careful {p : Process} {e : Event} {running : Option UInt32}
    {inactive : List Connector.Handler} (dead : ∀ h ∈ inactive, h.io.fd = -1)
    (others : ∀ h ∈ inactive, running ≠ some h.id) : ∀ d ∈ clear running inactive, Careful p e d := by
  intro d member
  obtain ⟨h, there, of⟩ := List.mem_flatMap.1 member
  rw [dead h there, if_neg (by decide), List.mem_singleton] at of
  rw [of]
  exact others h there

theorem visited_careful {p : Process} {e : Event} (targets : List UInt32)
    {active : TreeMap UInt32 Connector.Handler} {inactive : List Connector.Handler}
    (old : ∀ (id : UInt32) (h : Connector.Handler), active[id]? = some h →
      h.id = id ∧ p.globals.activeHandlers[id]? = some h)
    (dead : ∀ h ∈ inactive, h.io.fd = -1 ∧ h.id ∉ active) :
    ∀ d ∈ visited targets active inactive, Careful p e d := by
  induction targets generalizing active inactive with
  | nil =>
      intro d member
      cases member
  | cons target rest ih =>
      intro d member
      rw [visited] at member
      cases found : active[target]? with
      | none =>
          rw [found] at member
          exact ih old dead d member
      | some h =>
          obtain ⟨name, there⟩ := old target h found
          rw [found] at member
          rcases List.mem_cons.1 member with rfl | member
          · intro _
            rw [there]
            rfl
          rcases List.mem_append.1 member with cleared | later
          · refine clear_careful (fun k inside => (dead k inside).1) ?_ d cleared
            intro k inside same
            apply (dead k inside).2
            rw [← Option.some.inj same, TreeMap.mem_iff_isSome_getElem?, found]
            rfl
          · refine ih ?_ ?_ d later
            · intro i k here
              rw [Tables.getElem?_erase] at here
              split at here
              · cases here
              · exact old i k here
            · intro k inside
              rw [List.mem_singleton] at inside
              rw [inside]
              refine ⟨rfl, ?_⟩
              show h.id ∉ active.erase target
              rw [name, TreeMap.mem_iff_isSome_getElem?, Tables.getElem?_erase, if_pos rfl]
              exact Bool.false_ne_true

/-- No id is in both containers. -/
theorem Filed.apart {g : Globals} (filed : Filed g) {h : Connector.Handler}
    (member : h ∈ g.inactiveHandlers) : h.id ∉ g.activeHandlers := by
  intro there
  have once := filed.once h.id
  have some_ : 0 < (g.inactiveHandlers.map (·.id)).count h.id :=
    List.count_pos_iff.2 (List.mem_map_of_mem member)
  rw [places, if_pos there] at once
  omega

/-- A handler that dies has those destroyed that were gone before. -/
theorem cleared_among {g : Globals} {id : UInt32} {h k : Connector.Handler} {deaths : Nat}
    (there : k ∈ (updated g id h).cleared id h deaths) : k ∈ g.inactiveHandlers := by
  cases deaths with
  | zero => cases there
  | succ deaths =>
      rw [Globals.cleared_succ _ _ (by simp [updated])] at there
      exact there

section Step

variable (cfg : Config) {p : Process}

/-- A step is balanced if the deeds, what is obtained and what changes hands explain what
the attempts that wait have. -/
theorem balanced_of_parts {e : Event} {g : Globals} {pending : List Object} {mine : List Deed}
    {takes : List Int} {born : List UInt32} (result : p.step cfg e = ⟨g, pending⟩)
    (moved : Moved p.globals g mine takes born) (waits : ∀ o ∈ pending, Holds o)
    (traded : ∀ fd, 0 ≤ fd →
      pending.countP (fun o => decide (descriptor o = fd)) + takes.count fd +
          (closedBy (p.deeds cfg e)).count fd =
        p.pending.countP (fun o => decide (descriptor o = fd)) + (closedBy mine).count fd +
          (obtains e).count fd)
    (gone : destroyedBy (p.deeds cfg e) = destroyedBy mine)
    (careful : ∀ d ∈ p.deeds cfg e, Careful p e d) : Balanced cfg p e born := by
  refine ⟨?_, ?_, ?_, ?_, ?_, careful⟩
  · rw [result]
    exact moved.filed
  · rw [result]
    exact waits
  · intro fd open_
    have here := moved.held fd open_
    have there := traded fd open_
    rw [result, holders, holders]
    show pending.countP _ + Process.held g fd + _ = _
    omega
  · rw [result, gone]
    exact moved.places
  · rw [result]
    exact moved.pool

variable (waiting : ∀ o ∈ p.pending, Holds o)

include waiting

/-- A step that concerns nothing but the handlers. -/
theorem balanced_of_moved {e : Event} {g : Globals} (result : p.step cfg e = p.withGlobals g)
    (none_ : obtains e = []) (moved : Moved p.globals g (p.deeds cfg e) [] [])
    (careful : ∀ d ∈ p.deeds cfg e, Careful p e d) : Balanced cfg p e [] := by
  refine balanced_of_parts cfg result moved waiting ?_ rfl careful
  intro fd _
  rw [none_]
  rfl

/-- A step that does nothing to the handlers. -/
theorem balanced_of_same {e : Event} {g : Globals} (result : p.step cfg e = p.withGlobals g)
    (none_ : obtains e = []) (idle : p.deeds cfg e = []) (moved : Moved p.globals g [] [] []) :
    Balanced cfg p e [] := by
  refine balanced_of_moved cfg waiting result none_ (by rw [idle]; exact moved) ?_
  rw [idle]
  intro d member
  cases member

/-- Whoever gives up at once closes what it has just obtained. -/
theorem failed_balanced {out : Outside} {started : Started} {g : Globals} {fd : Nat}
    (socket : out.socket = .ok fd)
    (result : p.step cfg (.connect out started) = ⟨g, p.pending⟩)
    (moved : Moved p.globals g [] [] [])
    (closes : p.deeds cfg (.connect out started) = [.close .obtainer fd]) :
    Balanced cfg p (.connect out started) [] := by
  have obtained : obtains (.connect out started) = [(fd : Int)] := by simp only [obtains, socket]
  refine balanced_of_parts cfg result moved waiting ?_ (by rw [closes]; rfl) ?_
  · intro _ _
    rw [closes, obtained]
    rfl
  · rw [closes]
    intro d member
    rw [List.mem_singleton.1 member]
    intro _
    rw [obtained]
    exact List.mem_singleton_self _

/-- An attempt that has to wait takes the descriptor. -/
theorem waits_balanced {out : Outside} {started : Started} {g : Globals} {fd : Nat} {o : Object}
    (socket : out.socket = .ok fd) (holds : Holds o) (has : descriptor o = fd)
    (result : p.step cfg (.connect out started) = ⟨g, p.pending ++ [o]⟩)
    (moved : Moved p.globals g [] [] []) (idle : p.deeds cfg (.connect out started) = []) :
    Balanced cfg p (.connect out started) [] := by
  have obtained : obtains (.connect out started) = [(fd : Int)] := by simp only [obtains, socket]
  refine balanced_of_parts cfg result moved ?_ ?_ (by rw [idle]) ?_
  · intro o' member
    rcases List.mem_append.1 member with old | new
    · exact waiting o' old
    · rw [List.mem_singleton.1 new]
      exact holds
  · intro d _
    rw [idle, obtained, List.countP_append, List.countP_singleton, List.count_singleton, has]
    simp only [decide_eq_true_eq, beq_iff_eq]
    rfl
  · rw [idle]
    intro d member
    cases member

/-- An attempt that ends is no longer among those that wait. -/
theorem ends_balanced {k : Nat} {c : Attempts.Callback} {o : Object} {g : Globals}
    {takes : List Int} {born : List UInt32} (found : p.pending[k]? = some o)
    (result : p.step cfg (.attempt k c) = ⟨g, p.pending.eraseIdx k⟩)
    (moved : Moved p.globals g [] takes born)
    (once : p.deeds cfg (.attempt k c) = [] ∧ takes = [descriptor o] ∨
      p.deeds cfg (.attempt k c) = [.close (.attempt k) (descriptor o)] ∧ takes = []) :
    Balanced cfg p (.attempt k c) born := by
  refine balanced_of_parts cfg result moved ?_ ?_ ?_ ?_
  · intro o' member
    exact waiting o' (List.mem_of_mem_eraseIdx member)
  · intro fd _
    have dropped := Tables.countP_eraseIdx (fun o => decide (descriptor o = fd)) found
    have counted : [descriptor o].count fd = if descriptor o = fd then 1 else 0 := by
      rw [List.count_singleton]
      simp only [beq_iff_eq]
    simp only [decide_eq_true_eq] at dropped
    rw [← dropped, ← counted]
    rcases once with ⟨idle, rfl⟩ | ⟨closes, rfl⟩
    · rw [idle]
      rfl
    · rw [closes]
      rfl
  · rcases once with ⟨idle, -⟩ | ⟨closes, -⟩
    · rw [idle]
    · rw [closes]
      rfl
  · intro d member
    rcases once with ⟨idle, -⟩ | ⟨closes, -⟩
    · rw [idle] at member
      cases member
    · rw [closes, List.mem_singleton] at member
      rw [member]
      intro _
      rw [found]
      rfl

/-- An attempt that goes on has what it had. -/
theorem goes_on_balanced {k : Nat} {c : Attempts.Callback} {o o' : Object}
    (found : p.pending[k]? = some o) (holds : Holds o') (same : descriptor o' = descriptor o)
    (result : p.step cfg (.attempt k c) = ⟨p.globals, p.pending.set k o'⟩)
    (moved : Moved p.globals p.globals [] [] []) (idle : p.deeds cfg (.attempt k c) = []) :
    Balanced cfg p (.attempt k c) [] := by
  refine balanced_of_parts cfg result moved ?_ ?_ (by rw [idle]) ?_
  · intro a member
    rcases List.mem_or_eq_of_mem_set member with old | rfl
    · exact waiting a old
    · exact holds
  · intro fd _
    have traded := Tables.countP_set_over (fun o => decide (descriptor o = fd)) found o'
    rw [same] at traded
    rw [idle, Nat.add_right_cancel traded]
    rfl
  · rw [idle]
    intro d member
    cases member

variable (filed : Filed p.globals)

include filed

theorem disconnect_balanced (msg : CommandMsg) (explicit : msg.targets ≠ [BROADCAST_TARGET]) :
    Balanced cfg p (.disconnect msg explicit) [] := by
  refine balanced_of_moved cfg waiting rfl rfl (disconnect_moved filed explicit) ?_
  refine visited_careful msg.targets ?_ ?_
  · intro id h found
    exact ⟨(filed.active id h found).1, found⟩
  · intro h member
    exact ⟨filed.inactive h member, filed.apart member⟩

theorem io_balanced (id : UInt32) (env : VersionEnv) (revents : Events) (inbox : List RecvResult)
    (outbox : List WriteResult) : Balanced cfg p (.io id env revents inbox outbox) [] := by
  cases found : p.globals.activeHandlers[id]? with
  | none =>
      exact balanced_of_same cfg waiting (g := p.globals) (by simp only [step, found]; rfl) rfl
        (by simp only [deeds, found]) (Moved.same filed rfl rfl rfl)
  | some h =>
      have result : p.step cfg (.io id env revents inbox outbox) =
          p.withGlobals (called cfg p.globals id h env revents inbox outbox) := by
        simp only [step, found]
      have moved := called_moved cfg filed found env revents inbox outbox
      obtain ⟨name, isOpen⟩ := filed.active id h found
      refine balanced_of_moved cfg waiting result rfl (by simp only [deeds, found]; exact moved) ?_
      intro d member
      simp only [deeds, found] at member
      rcases List.mem_append.1 member with closed | cleared
      · obtain ⟨fd, among, rfl⟩ := List.mem_map.1 closed
        intro open_
        have same : fd = h.io.fd := by
          rcases Connector.Handler.closes_cases cfg env (h := h) (by omega) p.globals.lastBlock
            revents inbox outbox with ⟨-, none_⟩ | ⟨-, one | two⟩
          · rw [none_] at among
            cases among
          · rw [one] at among
            exact List.mem_singleton.1 among
          · rw [two] at among
            rcases List.mem_cons.1 among with same | rest
            · exact same
            · rw [List.mem_singleton.1 rest] at open_
              omega
        rw [found, same]
        rfl
      · refine clear_careful (fun k there => filed.inactive k (cleared_among there)) ?_ d cleared
        intro k there same
        apply filed.apart (cleared_among there)
        rw [← Option.some.inj same, TreeMap.mem_iff_isSome_getElem?, found]
        rfl

/-- The timers of the handlers. -/
theorem timer_balanced {e : Event} {id : UInt32} {k : Connector.Handler → Connector.Handler}
    {on : Connector.Handler → Bool} (talks : ∀ h, Connector.Talks h (k h)) (none_ : obtains e = [])
    (idle : p.deeds cfg e = [])
    (result : p.step cfg e =
      match p.globals.activeHandlers[id]? with
      | none => p
      | some h => if on h then p.withGlobals (updated p.globals id (k h)) else p) :
    Balanced cfg p e [] := by
  cases found : p.globals.activeHandlers[id]? with
  | none =>
      rw [found] at result
      exact balanced_of_same cfg waiting result none_ idle (Moved.same filed rfl rfl rfl)
  | some h =>
      rw [found] at result
      cases runs : on h with
      | false =>
          simp only [runs] at result
          exact balanced_of_same cfg waiting result none_ idle (Moved.same filed rfl rfl rfl)
      | true =>
          simp only [runs, if_true] at result
          exact balanced_of_same cfg waiting result none_ idle (updated_moved filed found (talks h))

theorem late_balanced (k now : Nat) : Balanced cfg p (.lateActivePinger k now) [] := by
  have still : Moved p.globals p.globals [] [] [] := Moved.same filed rfl rfl rfl
  cases found : p.globals.inactiveHandlers[k]? with
  | none =>
      exact balanced_of_same cfg waiting (g := p.globals) (by simp only [step, found]; rfl) rfl rfl
        still
  | some h =>
      cases runs : h.activePingTimer with
      | false =>
          exact balanced_of_same cfg waiting (g := p.globals)
            (by simp only [step, found, runs]; rfl) rfl rfl still
      | true =>
          exact balanced_of_same cfg waiting (by simp only [step, found, runs, if_true]) rfl rfl
            (late_moved cfg filed found now)

theorem reload_balanced (file : Option (List BlacklistLine)) :
    Balanced cfg p (.reload file) [] := by
  refine balanced_of_same cfg waiting rfl rfl rfl ?_
  cases file with
  | none => exact Moved.noted filed (Noted.gLog ..)
  | some lines =>
      have noted := loadLines_noted lines [] p.globals
      exact Moved.same filed noted.activeHandlers noted.inactiveHandlers noted.idPool

variable (fresh : places p.globals p.globals.idPool = 0)

include fresh

theorem accept_balanced (a : Globals.Acceptance) :
    ∃ born, (born = [] ∨ born = [p.globals.idPool]) ∧ Balanced cfg p (.accept a) born := by
  have result : p.step cfg (.accept a) = ⟨p.globals.acceptHandler cfg a, p.pending⟩ := rfl
  unfold Globals.acceptHandler at result
  cases answer : a.answer with
  | error e =>
      rw [answer] at result
      refine ⟨[], Or.inl rfl, balanced_of_same cfg waiting result (by simp [obtains, answer])
        (by simp [deeds, answer]) ?_⟩
      simp only
      split
      · exact Moved.same filed rfl rfl rfl
      · exact Moved.noted filed (Noted.gLog ..)
  | ok fd =>
      rw [answer] at result
      have obtained : obtains (.accept a) = [(fd : Int)] := by simp only [obtains, answer]
      by_cases listed : p.globals.blacklist a.addr = true
      · have closes : p.deeds cfg (.accept a) = [.close .obtainer fd] := by
          simp only [deeds, answer, if_pos listed]
        simp only [if_pos listed] at result
        refine ⟨[], Or.inl rfl, balanced_of_parts cfg result (Moved.noted filed (Noted.gLog ..))
          waiting ?_ (by rw [closes]; rfl) ?_⟩
        · intro _ _
          rw [closes, obtained]
          rfl
        · rw [closes]
          intro d member
          rw [List.mem_singleton.1 member]
          intro _
          rw [obtained]
          exact List.mem_singleton_self _
      · have clears : p.deeds cfg (.accept a) = clear none p.globals.inactiveHandlers := by
          simp only [deeds, answer, if_neg listed]
        simp only [if_neg listed] at result
        refine ⟨[p.globals.idPool], Or.inr rfl, balanced_of_parts cfg result
          (filed.add fresh (Connector.Handler.new_ends ..).1 (new_fd ..) rfl rfl
            (closedBy_clear none filed.inactive) ?_ ?_) waiting ?_ (by rw [clears]) ?_⟩
        · intro k there
          cases there
        · intro i
          rw [destroyedBy_clear]
          exact Nat.zero_add _
        · intro d _
          rw [clears, obtained]
          omega
        · rw [clears]
          exact clear_careful filed.inactive fun _ _ => by simp

theorem connect_balanced (out : Outside) (started : Started) :
    ∃ born, (born = [] ∨ born = [p.globals.idPool]) ∧ Balanced cfg p (.connect out started) born := by
  have began := Globals.begin_began cfg out p.globals started
  have result : p.step cfg (.connect out started) = ⟨p.globals.begin cfg out started, p.pending ++
      ((p.globals.begin cfg out started).attempts.drop p.globals.attempts.length).map
        Object.ofAttempt⟩ := rfl
  generalize p.globals.begin cfg out started = g at began result
  -- the attempts are those that wait behind the callback
  have none_ : g.attempts = p.globals.attempts →
      p.step cfg (.connect out started) = ⟨g, p.pending⟩ := by
    intro same
    rw [result, same, List.drop_length, List.map_nil, List.append_nil]
  have one : ∀ a, g.attempts = p.globals.attempts ++ [a] →
      p.step cfg (.connect out started) = ⟨g, p.pending ++ [Object.ofAttempt a]⟩ := by
    intro a more
    rw [result, more, List.drop_left, List.map_singleton]
  cases began with
  | noSocket socket =>
      exact ⟨[], Or.inl rfl, balanced_of_same cfg waiting (none_ rfl) (by simp only [obtains, socket])
        (by simp only [deeds, socket]) (Moved.noted filed (Noted.gLog ..))⟩
  | blacklisted socket listed =>
      exact ⟨[], Or.inl rfl, failed_balanced cfg waiting socket (none_ rfl)
        (Moved.same filed rfl rfl rfl) (by simp [deeds, socket, listed])⟩
  | refused socket allowed connecting ended =>
      exact ⟨[], Or.inl rfl, failed_balanced cfg waiting socket (none_ rfl)
        (Moved.same filed rfl rfl rfl) (by simp [deeds, socket, allowed, refused, connecting, ended])⟩
  | @instant remote fd socket allowed connected =>
      have idle : p.deeds cfg (.connect out (.direct remote)) = [] := by
        simp [deeds, socket, allowed, refused, connected]
      have noted := Moved.noted filed (Noted.gLog p.globals .DEBUG
        (text "No need to do non-blocking connect, setup was instant") [])
      have moved := noted.trans (setupHandler_moved cfg out noted.filed fresh fd remote)
      refine ⟨[p.globals.idPool], Or.inr rfl, balanced_of_parts cfg (none_ rfl) moved waiting ?_
        (by rw [idle]; rfl) ?_⟩
      · intro d _
        simp only [idle, obtains, socket]
        rfl
      · rw [idle]
        intro d member
        cases member
  | @waits remote fd e socket allowed connecting later =>
      have holds : Holds (.direct (.new fd remote)) := ⟨rfl, Int.natCast_nonneg fd⟩
      exact ⟨[], Or.inl rfl, waits_balanced cfg waiting socket holds rfl (one _ rfl)
        (Moved.same filed rfl rfl rfl)
        (by simp [deeds, socket, allowed, refused, connecting, later])⟩
  | @proxyWaits remote hostname fd socket connecting =>
      have idle : refused out = false := by
        unfold refused
        split
        · rfl
        · rename_i e some_
          rw [connecting e some_]
          rfl
      have waiter := one _ rfl
      rw [Attempts.ofAttempt_tor] at waiter
      have holds : Holds (.tor (.new fd remote hostname)) :=
        ⟨TorHandler.new_valid fd remote hostname, rfl, rfl⟩
      exact ⟨[], Or.inl rfl, waits_balanced cfg waiting socket holds rfl waiter
        (Moved.same filed rfl rfl rfl) (by simp [deeds, socket, idle])⟩
  | proxyFailed what ended =>
      cases socket : out.socket with
      | error e =>
          exact ⟨[], Or.inl rfl, balanced_of_same cfg waiting (none_ rfl)
            (by simp only [obtains, socket]) (by simp only [deeds, socket])
            (Moved.same filed rfl rfl rfl)⟩
      | ok fd =>
          obtain ⟨e, connecting, done⟩ := ended fd socket
          exact ⟨[], Or.inl rfl, failed_balanced cfg waiting socket (none_ rfl)
            (Moved.same filed rfl rfl rfl) (by simp [deeds, socket, refused, connecting, done])⟩

theorem direct_balanced {k : Nat} (c : Attempts.Callback) {h : ConnectHandler}
    (found : p.pending[k]? = some (.direct h)) :
    ∃ born, (born = [] ∨ born = [p.globals.idPool]) ∧ Balanced cfg p (.attempt k c) born := by
  have holds : Holds (.direct h) := waiting _ (List.mem_of_getElem? found)
  have active : h.io.active = true := holds.1
  have isOpen : 0 ≤ h.io.fd := holds.2
  have result : p.step cfg (.attempt k c) =
      ⟨(h.ioCb cfg { c with globals := p.globals }).1,
        if (h.ioCb cfg { c with globals := p.globals }).2.io.active then
          p.pending.set k (.direct (h.ioCb cfg { c with globals := p.globals }).2)
        else p.pending.eraseIdx k⟩ := by
    simp only [step, found]
    rfl
  simp only [ConnectHandler.ioCb] at result
  cases connecting : c.out.connect with
  | none =>
      simp only [connecting] at result
      have moved := setupHandler_moved cfg c.out filed fresh h.io.fd.toNat h.remoteAddr
      rw [Int.toNat_of_nonneg isOpen] at moved
      exact ⟨_, Or.inr rfl, ends_balanced cfg waiting found result moved
        (Or.inl ⟨by simp [deeds, found, refused, connecting], rfl⟩)⟩
  | some e =>
      simp only [connecting] at result
      cases later : Globals.inProgress e with
      | true =>
          simp only [later, if_true, active] at result
          exact ⟨[], Or.inl rfl, goes_on_balanced cfg waiting found holds rfl result
            (Moved.same filed rfl rfl rfl) (by simp [deeds, found, refused, connecting, later])⟩
      | false =>
          simp only [later, Bool.false_eq_true, if_false] at result
          exact ⟨[], Or.inl rfl, ends_balanced cfg waiting found result
            (Moved.same filed rfl rfl rfl)
            (Or.inr ⟨by simp [deeds, found, refused, connecting, later, descriptor], rfl⟩)⟩

theorem tor_balanced {k : Nat} (c : Attempts.Callback) {h : TorHandler}
    (found : p.pending[k]? = some (.tor h)) :
    ∃ born, (born = [] ∨ born = [p.globals.idPool]) ∧ Balanced cfg p (.attempt k c) born := by
  obtain ⟨valid, active, isOpen⟩ := waiting _ (List.mem_of_getElem? found)
  have result : p.step cfg (.attempt k c) =
      ⟨(h.ioCb cfg { c with globals := p.globals }).1,
        if (h.ioCb cfg { c with globals := p.globals }).2.io.active then
          p.pending.set k (.tor (h.ioCb cfg { c with globals := p.globals }).2)
        else p.pending.eraseIdx k⟩ := by
    simp only [step, found]
    rfl
  have done : p.deeds cfg (.attempt k c) =
      if (h.ioCb cfg { c with globals := p.globals }).2.closed && !h.closed then
        [.close (.attempt k) h.fd] else [] := by
    simp only [deeds, found]
  have ends := TorHandler.ioCb_ends cfg valid active { c with globals := p.globals }
  have moves := (TorHandler.step_moves cfg valid { c with globals := p.globals }).valid valid
  rw [TorHandler.step, if_pos active] at moves
  generalize h.ioCb cfg { c with globals := p.globals } = r at result done ends moves
  cases ends with
  | @waits h' _ active' same =>
      simp only [active', if_true] at result
      have holds : Holds (.tor h') := ⟨moves, active', same.2.trans isOpen⟩
      exact ⟨[], Or.inl rfl, goes_on_balanced cfg waiting found holds same.1 result
        (Moved.same filed rfl rfl rfl)
        (by rw [done, same.2, isOpen]; rfl)⟩
  | gaveUp val args _ ended closed =>
      simp only [ended, Bool.false_eq_true, if_false] at result
      exact ⟨[], Or.inl rfl, ends_balanced cfg waiting found result
        (Moved.noted filed (Noted.gLog ..)) (Or.inr ⟨by rw [done, closed, isOpen]; rfl, rfl⟩)⟩
  | connected _ ended same =>
      simp only [ended, Bool.false_eq_true, if_false] at result
      have moved := setupHandler_moved cfg c.out filed fresh h.fd.toNat h.remoteAddr
      rw [Int.toNat_of_nonneg (valid.isOpen active)] at moved
      exact ⟨_, Or.inr rfl, ends_balanced cfg waiting found result moved
        (Or.inl ⟨by rw [done, same, isOpen]; rfl, rfl⟩)⟩

theorem attempt_balanced (k : Nat) (c : Attempts.Callback) :
    ∃ born, (born = [] ∨ born = [p.globals.idPool]) ∧ Balanced cfg p (.attempt k c) born := by
  cases found : p.pending[k]? with
  | none =>
      exact ⟨[], Or.inl rfl, balanced_of_same cfg waiting (g := p.globals)
        (by simp only [step, found]; rfl) rfl (by simp only [deeds, found])
        (Moved.same filed rfl rfl rfl)⟩
  | some o =>
      cases o with
      | direct h => exact direct_balanced cfg waiting filed fresh c found
      | tor h => exact tor_balanced cfg waiting filed fresh c found

/-- Every step. -/
theorem step_balanced (e : Event) :
    ∃ born, (born = [] ∨ born = [p.globals.idPool]) ∧ Balanced cfg p e born := by
  cases e with
  | accept a => exact accept_balanced cfg waiting filed fresh a
  | connect out started => exact connect_balanced cfg waiting filed fresh out started
  | attempt k c => exact attempt_balanced cfg waiting filed fresh k c
  | disconnect msg explicit =>
      exact ⟨[], Or.inl rfl, disconnect_balanced cfg waiting filed msg explicit⟩
  | send packed msg =>
      exact ⟨[], Or.inl rfl, balanced_of_same cfg waiting rfl rfl rfl (send_moved filed packed msg)⟩
  | io id env revents inbox outbox =>
      exact ⟨[], Or.inl rfl, io_balanced cfg waiting filed id env revents inbox outbox⟩
  | pinger id due nonce =>
      exact ⟨[], Or.inl rfl, timer_balanced cfg waiting filed
        (fun h => Connector.Handler.pingerCb_talks cfg h due nonce) rfl rfl rfl⟩
  | activePinger id now =>
      exact ⟨[], Or.inl rfl, timer_balanced cfg waiting filed
        (fun h => Connector.Handler.activePingerCb_talks cfg h now) rfl rfl rfl⟩
  | lateActivePinger k now => exact ⟨[], Or.inl rfl, late_balanced cfg waiting filed k now⟩
  | reload file => exact ⟨[], Or.inl rfl, reload_balanced cfg waiting filed file⟩

end Step

/-! ## Runs -/

/-- A descriptor is obtained at a time. -/
theorem obtains_count (e : Event) (fd : Int) : (obtains e).count fd ≤ 1 := by
  have one : ∀ n : Int, [n].count fd ≤ 1 := by
    intro n
    rw [List.count_singleton]
    split
    · exact Nat.le_refl 1
    · exact Nat.zero_le 1
  cases e with
  | accept a =>
      rw [obtains]
      split
      · exact one _
      · exact Nat.zero_le 1
  | connect out started =>
      rw [obtains]
      split
      · exact one _
      · exact Nat.zero_le 1
  | _ => exact Nat.zero_le 1

/-- The process, with every descriptor obtained for a connection and every argument of
`close` so far, the handlers that were destroyed, and how many were made. -/
structure Books where
  process : Process
  obtained : List Int
  closed : List Int
  destroyed : List UInt32
  made : Nat

namespace Books

def start (tape : Nat → Outside) : Books where
  process := Process.start tape
  obtained := []
  closed := []
  destroyed := []
  made := 0

/-- A handler is made where the pool of ids moves. -/
def step (cfg : Config) (b : Books) (e : Event) : Books where
  process := b.process.step cfg e
  obtained := b.obtained ++ obtains e
  closed := b.closed ++ closedBy (b.process.deeds cfg e)
  destroyed := b.destroyed ++ destroyedBy (b.process.deeds cfg e)
  made := if (b.process.step cfg e).globals.idPool = b.process.globals.idPool then b.made
    else b.made + 1

/-- The kernel gives out no descriptor that is still open, and fewer than `2 ^ 32` handlers
have been made. -/
def Admitted (cfg : Config) (b : Books) (e : Event) : Prop :=
  (∀ fd ∈ obtains e, b.obtained.count fd = b.closed.count fd) ∧ (b.step cfg e).made < 2 ^ 32

instance (cfg : Config) (b : Books) (e : Event) : Decidable (b.Admitted cfg e) :=
  inferInstanceAs (Decidable (_ ∧ _))

/-- Every handler that was made is in one container or destroyed, with a descriptor exactly
in `g_active_handlers`; every descriptor has at most one holder, which is an attempt that
waits or an active handler, and as often as it was obtained it was closed, but for the
holder it has. -/
structure Proper (b : Books) : Prop where
  filed : Filed b.process.globals
  made : b.process.globals.idPool.toNat = b.made
  placed : ∀ id, places b.process.globals id + b.destroyed.count id =
    if id.toNat < b.made then 1 else 0
  waiting : ∀ o ∈ b.process.pending, Holds o
  one : ∀ fd, 0 ≤ fd → b.process.holders fd ≤ 1
  account : ∀ fd, 0 ≤ fd → b.obtained.count fd = b.process.holders fd + b.closed.count fd

theorem start_proper (tape : Nat → Outside) : (start tape).Proper where
  filed := ⟨(fun _ _ none_ => by cases none_), (fun _ none_ => by cases none_),
    fun _ => Nat.zero_le 1⟩
  made := rfl
  placed := fun _ => rfl
  waiting := fun _ none_ => by cases none_
  one := fun _ _ => Nat.zero_le 1
  account := fun _ _ => rfl

/-- The next id is in no container. -/
theorem Proper.fresh {b : Books} (proper : b.Proper) :
    places b.process.globals b.process.globals.idPool = 0 := by
  have none_ := proper.placed b.process.globals.idPool
  rw [proper.made, if_neg (Nat.lt_irrefl _)] at none_
  omega

/-- What a balanced step does to the number of handlers. -/
theorem step_made {cfg : Config} {b : Books} {e : Event} {born : List UInt32}
    (proper : b.Proper) (few : (b.step cfg e).made < 2 ^ 32)
    (kinds : born = [] ∨ born = [b.process.globals.idPool])
    (pool : (b.process.step cfg e).globals.idPool =
      b.process.globals.idPool + UInt32.ofNat born.length) :
    (b.process.step cfg e).globals.idPool.toNat = (b.step cfg e).made ∧
      ∀ id : UInt32, (if id.toNat < b.made then 1 else 0) + born.count id =
        if id.toNat < (b.step cfg e).made then 1 else 0 := by
  have number := proper.made
  have moves : (b.step cfg e).made =
      if (b.process.step cfg e).globals.idPool = b.process.globals.idPool then b.made
      else b.made + 1 := rfl
  generalize (b.step cfg e).made = total at few moves ⊢
  rcases kinds with rfl | rfl
  · have same : (b.process.step cfg e).globals.idPool = b.process.globals.idPool :=
      pool.trans (UInt32.add_zero _)
    rw [if_pos same] at moves
    rw [moves, same]
    exact ⟨number, fun _ => rfl⟩
  · have next : (b.process.step cfg e).globals.idPool = b.process.globals.idPool + 1 := pool
    have other : (b.process.step cfg e).globals.idPool ≠ b.process.globals.idPool := by
      rw [next]
      simp
    rw [if_neg other] at moves
    rw [moves] at few ⊢
    refine ⟨?_, ?_⟩
    · rw [next, UInt32.toNat_add, number]
      exact Nat.mod_eq_of_lt few
    · intro id
      rw [List.count_singleton]
      by_cases same : b.process.globals.idPool = id
      · subst same
        simp [number]
      · have apart : id.toNat ≠ b.made := by
          intro equal
          exact same (UInt32.toNat_inj.1 (number.trans equal.symm))
        simp only [beq_iff_eq, same, if_false]
        split
        · rw [if_pos (by omega)]
        · rw [if_neg (by omega)]

/-- One callback. -/
theorem step_proper {cfg : Config} {b : Books} {e : Event} (proper : b.Proper)
    (admitted : b.Admitted cfg e) :
    (∀ d ∈ b.process.deeds cfg e, Careful b.process e d) ∧ (b.step cfg e).Proper := by
  obtain ⟨born, kinds, balanced⟩ :=
    step_balanced cfg proper.waiting proper.filed proper.fresh e
  obtain ⟨made, counted⟩ := step_made proper admitted.2 kinds balanced.pool
  refine ⟨balanced.careful, balanced.filed, made, ?_, balanced.waiting, ?_, ?_⟩
  · intro id
    have before := proper.placed id
    have now := balanced.places id
    rw [← counted id, ← before]
    show places (b.process.step cfg e).globals id + (b.destroyed ++ _).count id = _
    rw [List.count_append]
    omega
  · intro fd isOpen
    have before := proper.one fd isOpen
    have now := balanced.holders fd isOpen
    show (b.process.step cfg e).holders fd ≤ 1
    have one := obtains_count e fd
    by_cases obtained : fd ∈ obtains e
    · -- what the kernel gives out has been closed as often as it was obtained
      have account := proper.account fd isOpen
      have closed := admitted.1 fd obtained
      omega
    · rw [List.count_eq_zero.2 obtained] at now
      omega
  · intro fd isOpen
    have before := proper.account fd isOpen
    have now := balanced.holders fd isOpen
    show (b.obtained ++ _).count fd = (b.process.step cfg e).holders fd + (b.closed ++ _).count fd
    rw [List.count_append, List.count_append]
    omega

end Books

/-- Every run of accepts, commands with their own targets, attempts, events on the sockets of
handlers, timers and reloads, in which fewer than `2 ^ 32` handlers are made and the kernel
gives out no descriptor that is open: behind every callback the handlers and descriptors are
where they belong, and in every callback what is closed is closed by its owner, and no
handler is destroyed that runs. -/
theorem ownership (cfg : Config) (tape : Nat → Outside) (events : List Event)
    (ok : Along (Books.step cfg) (Books.Admitted cfg) (Books.start tape) events) :
    (run (Books.step cfg) (Books.start tape) events).Proper ∧
      Along (Books.step cfg) (fun b e => ∀ d ∈ b.process.deeds cfg e, Careful b.process e d)
        (Books.start tape) events := by
  refine ⟨?_, ?_⟩
  · exact run_invariant (P := Books.Proper) (fun _ _ proper admitted => (Books.step_proper proper admitted).2)
      (Books.start_proper tape) ok
  · exact along_meets (fun _ _ proper admitted => Books.step_proper proper admitted)
      (Books.start_proper tape) ok

/-- A connection that has to wait, completes and is disconnected; the next one gets the same
descriptor and the peer hangs up on it. -/
def someReuse : List Event :=
  [.connect { someOutside with connect := some (.other 115) } (.direct Connector.someAddr),
    .attempt 0 (.writable []),
    .disconnect ⟨COMMAND_DISCONNECT, 0, [0]⟩ (by decide),
    .connect someOutside (.direct Connector.someAddr),
    .io 1 Connector.someEnv ⟨false, true⟩ [] [.accept 113],
    .io 1 Connector.someEnv ⟨true, false⟩ [.eof] []]

/-- Descriptor 9 was obtained twice and closed twice, and nobody has it. -/
theorem ownership_reuse :
    (run (Books.step Connector.someConfig) (Books.start fun _ => someOutside) someReuse).Proper ∧
      (run (Books.step Connector.someConfig) (Books.start fun _ => someOutside)
        someReuse).closed = [9, 9] := by
  refine ⟨(ownership Connector.someConfig (fun _ => someOutside) someReuse ?_).1, ?_⟩
  · exact ⟨by decide +kernel, by decide +kernel, by decide +kernel, by decide +kernel,
      by decide +kernel, by decide +kernel, trivial⟩
  · decide +kernel

end Process

end Coinscope

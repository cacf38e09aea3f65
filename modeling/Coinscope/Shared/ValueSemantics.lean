/-
# Shared.ValueSemantics -- copy-on-write buffers cannot be told from values

A program has any finite set of `wrapped_buffer<uint8_t>` variables.  It constructs, copies,
moves, assigns, reallocates, writes to and destroys them, in any order.  Its variables share
blocks on one heap, its assignments swap with an argument that was copied or moved; and still
every variable reads as if it had a value of its own.

* `Program.step` -- the operations over the heap.
* `Values.step` -- the same on values, where a copy copies all bytes.
* `Refines` -- every variable has its value, and the holders on the heap are the variables and
  the temporaries of the operation.
* `Counted` -- the reference counts are the numbers of variables, which agree, and the heap has
  nothing that no variable holds.
* `value_semantics` -- every admissible sequence of operations is defined, reads as the values do,
  and leaves the heap counted.
-/
import Coinscope.Shared.CopyOnWrite
import Coinscope.Theory.Runs
import Mathlib.Algebra.BigOperators.Group.Finset.Piecewise
import Mathlib.Algebra.Order.BigOperators.Group.Finset
import Mathlib.Data.Fintype.Basic

namespace Coinscope.Shared

open Coinscope.Theory.Runs
open Coinscope.Theory.SharedBlocks

set_option autoImplicit false

/-! ## Programs -/

/-- An operation on variables; `copy` and `move` construct the first from the second. -/
inductive Op (V : Type) where
  | default (x : V)
  | sized (x : V) (n : Nat)
  | copy (x y : V)
  | move (x y : V)
  | assign (x y : V)
  | moveAssign (x y : V)
  | realloc (x : V) (n : Nat)
  | write (x : V) (off : Nat) (bytes : List UInt8)
  | destroy (x : V)
  deriving DecidableEq

/-- The variables that are alive, and the heap. -/
structure Program (V : Type) where
  vars : V → Option Wrapped
  memory : Memory

namespace Program

variable {V : Type} [DecidableEq V]

def start : Program V := ⟨fun _ => none, Heap.empty⟩

/-- A variable that is alive. -/
def get (s : Program V) (x : V) : Except Fault Wrapped :=
  match s.vars x with
  | none => .error .undefined
  | some w => .ok w

def set (s : Program V) (x : V) (w : Option Wrapped) (m : Memory) : Program V :=
  ⟨Function.update s.vars x w, m⟩

@[simp] theorem set_vars (s : Program V) (x : V) (w : Option Wrapped) (m : Memory) :
    (s.set x w m).vars = Function.update s.vars x w := rfl

/-- A variable that was not alive is. -/
def construct (s : Program V) (x : V) (w : Wrapped) (m : Memory) : Except Fault (Program V) :=
  match s.vars x with
  | none => .ok (s.set x (some w) m)
  | some _ => .error .undefined

/-- One operation.  A write throws before it does anything, if it does. -/
def step (junk : Junk) (s : Program V) : Op V → Except Fault (Program V)
  | .default x => s.construct x .null s.memory
  | .sized x n => do
      let (w, m) ← Wrapped.new junk 1 n s.memory
      s.construct x w m
  | .copy x y => do
      let w ← s.get y
      let (other, m) ← w.copy s.memory
      s.construct x other m
  | .move x y => do
      let w ← s.get y
      let s := s.set y (some .null) s.memory
      s.construct x w s.memory
  | .assign x y => do
      let w ← s.get y
      let (other, m) ← w.copy s.memory
      let cur ← s.get x
      let (w, m) ← cur.assign other m
      return s.set x (some w) m
  | .moveAssign x y => do
      let other ← s.get y
      let s := s.set y (some .null) s.memory
      let cur ← s.get x
      let (w, m) ← cur.assign other s.memory
      return s.set x (some w) m
  | .realloc x n => do
      let w ← s.get x
      let (w, m) ← w.realloc junk 1 n s.memory
      return s.set x (some w) m
  | .write x off bytes => do
      let w ← s.get x
      match w.write junk off bytes s.memory with
      | .ok (w, m) => return s.set x (some w) m
      | .error (.threw _) => return s
      | .error fault => throw fault
  | .destroy x => do
      let w ← s.get x
      let m ← w.destroy s.memory
      return s.set x none m

def run (junk : Junk) (ops : List (Op V)) : Except Fault (Program V) :=
  ops.foldlM (step junk) start

/-- What a program reads of a variable that is alive. -/
def read (s : Program V) (x : V) : Except Fault (Option (List UInt8)) :=
  match s.vars x with
  | none => return none
  | some w => (w.read s.memory).map some

def allocated (s : Program V) (x : V) : Option Nat := (s.vars x).map Wrapped.allocated

/-- The buffer of a variable, if it is alive and has one. -/
def buffer (s : Program V) (x : V) : Option Handle := (s.vars x).bind Wrapped.buffer

/-- The variables that hold a block. -/
def holders [Fintype V] (s : Program V) (a : Nat) : Finset V :=
  Finset.univ.filter fun x => (s.buffer x).bind Handle.buffer = some a

end Program

/-! ## Values -/

/-- The value of each variable that is alive. -/
abbrev Values (V : Type) := V → Option (List UInt8)

/-- `n` bytes, above the threshold in whole pages. -/
def wholePages (n : Nat) : Nat :=
  if n ≤ mmapThreshold then n else (n + pageSize - 1) / pageSize * pageSize

namespace Values

variable {V : Type} [DecidableEq V]

def step (s : Values V) : Op V → Values V
  | .default x => Function.update s x (some [])
  | .sized x n => Function.update s x (some (List.replicate (wholePages n) 0))
  | .copy x y => Function.update s x (s y)
  | .move x y => Function.update (Function.update s y (some [])) x (s y)
  | .assign x y => Function.update s x (s y)
  | .moveAssign x y => Function.update (Function.update s y (some [])) x (s y)
  | .realloc x n => Function.update s x ((s x).map (resize (wholePages n)))
  | .write x off bytes => Function.update s x ((s x).map (WrappedBuffer.blit · off bytes))
  | .destroy x => Function.update s x none

/-- Variables are constructed once and used while they are alive; `realloc` is asked for something
and a write is inside `allocated()`. -/
def Admissible (s : Values V) : Op V → Prop
  | .default x => s x = none
  | .sized x _ => s x = none
  | .copy x y => s x = none ∧ (s y).isSome
  | .move x y => s x = none ∧ (s y).isSome
  | .assign x y => (s x).isSome ∧ (s y).isSome
  | .moveAssign x y => (s x).isSome ∧ (s y).isSome
  | .realloc x n => (s x).isSome ∧ n ≠ 0
  | .write x off bytes => ∃ old, s x = some old ∧ off + bytes.length ≤ old.length
  | .destroy x => (s x).isSome

end Values

theorem allocatedFor_eq (n : Nat) : allocatedFor n = wholePages n := by
  unfold allocatedFor wholePages
  by_cases large : n > mmapThreshold
  · have rounded : (if n / pageSize * pageSize < n then (n / pageSize + 1) * pageSize else n) =
        (n + pageSize - 1) / pageSize * pageSize := by
      by_cases cut : n / pageSize * pageSize < n
      · rw [if_pos cut]
        simp only [pageSize] at *
        omega
      · rw [if_neg cut]
        simp only [pageSize] at *
        omega
    have some_ : (n + pageSize - 1) / pageSize * pageSize ≠ 0 := by
      simp only [pageSize, mmapThreshold] at *
      omega
    rw [if_pos large, if_neg (by omega), roundToPage]
    simp only [rounded, some_, if_false]
  · rw [if_neg large, if_pos (by omega)]

/-! ## Holders -/

section Refinement

variable {V : Type} [DecidableEq V] [Fintype V]

/-- What a variable holds that may not be alive. -/
def heldBy : Option (Option (Ref Tag)) → Multiset (Ref Tag)
  | none => 0
  | some o => held o

/-- What all variables hold. -/
def total (refs : V → Option (Option (Ref Tag))) : Multiset (Ref Tag) := ∑ v, heldBy (refs v)

/-- What the variables but one hold. -/
def others (refs : V → Option (Option (Ref Tag))) (x : V) : Multiset (Ref Tag) :=
  ∑ v ∈ Finset.univ \ {x}, heldBy (refs v)

theorem total_update (refs : V → Option (Option (Ref Tag))) (x : V) (o : Option (Option (Ref Tag))) :
    total (Function.update refs x o) = heldBy o + others refs x := by
  have each : (fun v => heldBy (Function.update refs x o v)) =
      Function.update (fun v => heldBy (refs v)) x (heldBy o) := by
    funext v
    exact Function.apply_update (fun _ => heldBy) refs x o v
  rw [total, each, Finset.sum_update_of_mem (Finset.mem_univ x), others]

theorem total_eq (refs : V → Option (Option (Ref Tag))) (x : V) :
    total refs = heldBy (refs x) + others refs x := by
  rw [← total_update, Function.update_eq_self]

theorem heldBy_le_others (refs : V → Option (Option (Ref Tag))) {x v : V} (other : v ≠ x) :
    heldBy (refs v) ≤ others refs x :=
  Finset.single_le_sum (f := fun v => heldBy (refs v)) (fun _ _ => Multiset.zero_le _)
    (by simpa using other)

/-- The variables hold `refs`, the operation holds `temps` besides, and every variable has its
value. -/
structure Refines (s : Program V) (values : Values V) (refs : V → Option (Option (Ref Tag)))
    (temps : Multiset (Ref Tag)) : Prop where
  vars : ∀ v, s.vars v = (refs v).map Wrapped.of
  owned : Owned Fits s.memory (temps + total refs)
  values : ∀ v, values v = (refs v).map s.memory.value

/-- One variable comes to hold something else, and the blocks of the others are as they were. -/
theorem Refines.set {s : Program V} {values : Values V} {refs : V → Option (Option (Ref Tag))}
    {temps temps' : Multiset (Ref Tag)} (refines : Refines s values refs temps) (x : V)
    (o : Option (Option (Ref Tag))) {m : Memory}
    (owned : Owned Fits m (temps' + (heldBy o + others refs x)))
    (keeps : Keeps s.memory m (others refs x)) :
    Refines (s.set x (o.map Wrapped.of) m) (Function.update values x (o.map m.value))
      (Function.update refs x o) temps' where
  vars := by
    intro v
    by_cases it : v = x
    · rw [it, Program.set_vars, Function.update_self, Function.update_self]
    · rw [Program.set_vars, Function.update_of_ne it, Function.update_of_ne it, refines.vars]
  owned := by
    rw [total_update]
    exact owned
  values := by
    intro v
    by_cases it : v = x
    · rw [it, Function.update_self, Function.update_self]
      rfl
    · rw [Function.update_of_ne it, Function.update_of_ne it, refines.values]
      cases there : refs v with
      | none => rfl
      | some p =>
          have inside : held p ≤ others refs x := by
            have less := heldBy_le_others refs it
            rwa [there] at less
          exact congrArg some (value_keeps keeps inside).symm

/-! ## Parts of an operation -/

namespace Refines

variable {s : Program V} {values : Values V} {refs : V → Option (Option (Ref Tag))}
variable {temps : Multiset (Ref Tag)} {x : V} {o : Option (Ref Tag)}

omit [DecidableEq V] in
theorem alive (refines : Refines s values refs temps) (there : (values x).isSome) :
    ∃ o, refs x = some o ∧ s.get x = .ok (.of o) ∧ values x = some (s.memory.value o) := by
  have value := refines.values x
  have var := refines.vars x
  cases held : refs x with
  | none =>
      rw [value, held] at there
      cases there
  | some o =>
      rw [held] at value var
      exact ⟨o, rfl, by simp only [Program.get, var, Option.map_some], value⟩

omit [DecidableEq V] in
theorem dead (refines : Refines s values refs temps) (gone : values x = none) : refs x = none := by
  rw [refines.values x] at gone
  exact Option.map_eq_none_iff.1 gone

/-- What a variable that is alive holds, apart from the rest. -/
theorem owned_apart (refines : Refines s values refs temps) (there : refs x = some o) :
    Owned Fits s.memory (held o + (temps + others refs x)) := by
  have owned := refines.owned
  rw [total_eq refs x, there, add_left_comm] at owned
  exact owned

/-- The operation makes something for itself, or copies what a variable holds. -/
theorem memory {temps' : Multiset (Ref Tag)} (refines : Refines s values refs temps) {m : Memory}
    (owned : Owned Fits m (temps' + total refs)) (keeps : Keeps s.memory m (total refs)) :
    Refines { s with memory := m } values refs temps' where
  vars := refines.vars
  owned := owned
  values := by
    intro v
    rw [refines.values v]
    cases there : refs v with
    | none => rfl
    | some p =>
        have inside : held p ≤ total refs := by
          rw [total_eq refs v, there]
          exact Multiset.le_add_right ..
        exact congrArg some (value_keeps keeps inside).symm

/-- A copy of a variable. -/
theorem lend (refines : Refines s values refs temps) (there : refs x = some o) :
    ∃ m, (Wrapped.of o).copy s.memory = .ok (.of o, m) ∧
      Refines { s with memory := m } values refs (held o + temps) ∧ m.blocks = s.memory.blocks := by
  obtain ⟨m, copied, owned, blocks⟩ := Wrapped.copy_spec (refines.owned_apart there)
  refine ⟨m, copied, refines.memory ?_ ?_, blocks⟩
  · rw [add_assoc, total_eq refs x, there, add_left_comm temps]
    exact owned
  · intro r _
    rw [blocks]

/-- A variable is moved from. -/
theorem moveOut (refines : Refines s values refs temps) (there : refs x = some o) :
    Refines (s.set x (some .null) s.memory) (Function.update values x (some []))
      (Function.update refs x (some none)) (held o + temps) := by
  refine refines.set x (some none) ?_ Keeps.rfl
  show Owned Fits s.memory (held o + temps + (0 + others refs x))
  rw [zero_add, add_assoc]
  exact refines.owned_apart there

/-- A new variable takes what the operation holds. -/
theorem construct (refines : Refines s values refs (held o + temps)) (gone : refs x = none) :
    s.construct x (.of o) s.memory = .ok (s.set x (some (.of o)) s.memory) ∧
      Refines (s.set x (some (.of o)) s.memory)
        (Function.update values x (some (s.memory.value o))) (Function.update refs x (some o))
        temps := by
  have var := refines.vars x
  rw [gone] at var
  refine ⟨by simp only [Program.construct, var, Option.map_none], ?_⟩
  refine refines.set x (some o) ?_ Keeps.rfl
  have owned := refines.owned
  rw [total_eq refs x, gone] at owned
  show Owned Fits s.memory (temps + (held o + others refs x))
  rw [add_left_comm, ← add_assoc, ← zero_add (others refs x)]
  exact owned

/-- The assignment: a variable takes what the operation holds, and what it held is let go. -/
theorem replace (refines : Refines s values refs (held o + temps)) {c : Option (Ref Tag)}
    (there : refs x = some c) :
    ∃ m, (Wrapped.of c).destroy s.memory = .ok m ∧
      Refines (s.set x (some (.of o)) m) (Function.update values x (some (s.memory.value o)))
        (Function.update refs x (some o)) temps ∧ Keeps s.memory m temps := by
  obtain ⟨m, gone, owned, keeps⟩ := Wrapped.destroy_spec (refines.owned_apart there)
  have inside : held o ≤ held o + temps + others refs x := by
    rw [add_assoc]
    exact Multiset.le_add_right ..
  have apart : temps ≤ held o + temps + others refs x := by
    rw [add_right_comm]
    exact Multiset.le_add_left ..
  refine ⟨m, gone, ?_, keeps.mono apart⟩
  rw [← value_keeps keeps inside]
  refine refines.set x (some o) ?_ (keeps.mono (Multiset.le_add_left ..))
  show Owned Fits m (temps + (held o + others refs x))
  rw [add_left_comm, ← add_assoc]
  exact owned

/-- A variable is changed in place. -/
theorem change (refines : Refines s values refs temps) {m : Memory} {bytes : List UInt8}
    (has : Has s.memory m (temps + others refs x) o bytes) :
    Refines (s.set x (some (.of o)) m) (Function.update values x (some bytes))
      (Function.update refs x (some o)) temps := by
  rw [← has.value]
  refine refines.set x (some o) ?_ (has.keeps.mono (Multiset.le_add_left ..))
  show Owned Fits m (temps + (held o + others refs x))
  rw [add_left_comm]
  exact has.owned

/-! ## Operations -/

/-- The operation is defined, and does to the variables what it does to their values. -/
def Simulated (junk : Junk) (s : Program V) (values : Values V) (op : Op V) : Prop :=
  ∃ s' refs', s.step junk op = .ok s' ∧ Refines s' (values.step op) refs' 0

/-- The same next to other holders, whose blocks are as they were. -/
def Framed (junk : Junk) (s : Program V) (values : Values V) (temps : Multiset (Ref Tag))
    (op : Op V) : Prop :=
  ∃ s' refs', s.step junk op = .ok s' ∧ Refines s' (values.step op) refs' temps ∧
    Keeps s.memory s'.memory temps

theorem step_default (junk : Junk) (refines : Refines s values refs temps)
    (admissible : values.Admissible (.default x)) :
    Framed junk s values temps (.default x) := by
  have started : Refines s values refs (held none + temps) := by
    rw [held_none, zero_add]
    exact refines
  obtain ⟨made, next⟩ := started.construct (refines.dead admissible)
  exact ⟨_, _, made, next, Keeps.rfl⟩

theorem step_sized (junk : Junk) (refines : Refines s values refs temps) {n : Nat}
    (admissible : values.Admissible (.sized x n)) :
    Framed junk s values temps (.sized x n) := by
  obtain ⟨o, m, built, has⟩ := Wrapped.new_spec junk refines.owned n
  have owned := has.owned
  rw [← add_assoc] at owned
  have lent := refines.memory owned (has.keeps.mono (Multiset.le_add_left ..))
  obtain ⟨made, next⟩ := lent.construct (refines.dead admissible)
  refine ⟨s.set x (some (.of o)) m, Function.update refs x (some o), ?_, ?_,
    has.keeps.mono (Multiset.le_add_right ..)⟩
  · simp only [Program.step, built, bind, Except.bind]
    exact made
  · have value : m.value o = List.replicate (wholePages n) 0 := by
      rw [has.value, WrappedBuffer.ofSize, allocatedFor_eq]
    simp only [Values.step, ← value]
    exact next

theorem step_copy (junk : Junk) (refines : Refines s values refs temps) {y : V}
    (admissible : values.Admissible (.copy x y)) :
    Framed junk s values temps (.copy x y) := by
  obtain ⟨gone, there⟩ := admissible
  obtain ⟨o, holds, got, value⟩ := refines.alive there
  obtain ⟨m, copied, lent, blocks⟩ := refines.lend holds
  obtain ⟨made, next⟩ := lent.construct (refines.dead gone)
  refine ⟨s.set x (some (.of o)) m, Function.update refs x (some o), ?_, ?_,
    fun _ _ => congrFun blocks _⟩
  · simp only [Program.step, got, copied, bind, Except.bind]
    exact made
  · simp only [Values.step, value, ← value_of_blocks blocks o]
    exact next

theorem step_move (junk : Junk) (refines : Refines s values refs temps) {y : V}
    (admissible : values.Admissible (.move x y)) :
    Framed junk s values temps (.move x y) := by
  obtain ⟨gone, there⟩ := admissible
  obtain ⟨o, holds, got, value⟩ := refines.alive there
  have apart : x ≠ y := by
    rintro rfl
    rw [gone] at there
    cases there
  have lent := refines.moveOut holds
  have still : Function.update refs y (some none) x = none := by
    rw [Function.update_of_ne apart, refines.dead gone]
  obtain ⟨made, next⟩ := lent.construct still
  refine ⟨(s.set y (some .null) s.memory).set x (some (.of o)) s.memory,
    Function.update (Function.update refs y (some none)) x (some o), ?_, ?_, Keeps.rfl⟩
  · simp only [Program.step, got, bind, Except.bind]
    exact made
  · simp only [Values.step, value]
    exact next

theorem step_assign (junk : Junk) (refines : Refines s values refs temps) {y : V}
    (admissible : values.Admissible (.assign x y)) :
    Framed junk s values temps (.assign x y) := by
  obtain ⟨thereX, thereY⟩ := admissible
  obtain ⟨o, holds, got, value⟩ := refines.alive thereY
  obtain ⟨c, holdsX, gotX, -⟩ := refines.alive thereX
  obtain ⟨m, copied, lent, blocks⟩ := refines.lend holds
  obtain ⟨m', gone, next, keeps⟩ := lent.replace holdsX
  have first : Keeps s.memory m temps := fun _ _ => congrFun blocks _
  refine ⟨s.set x (some (.of o)) m', Function.update refs x (some o), ?_, ?_, first.trans keeps⟩
  · simp only [Program.step, got, gotX, copied, Wrapped.assign, bind, Except.bind]
    simp only [gone, pure, Except.pure]
  · simp only [Values.step, value, ← value_of_blocks blocks o]
    exact next

theorem step_moveAssign (junk : Junk) (refines : Refines s values refs temps) {y : V}
    (admissible : values.Admissible (.moveAssign x y)) :
    Framed junk s values temps (.moveAssign x y) := by
  obtain ⟨thereX, thereY⟩ := admissible
  obtain ⟨o, holds, got, value⟩ := refines.alive thereY
  have lent := refines.moveOut holds
  have thereX' : (Function.update values y (some []) x).isSome := by
    by_cases it : x = y
    · rw [it, Function.update_self]
      rfl
    · rw [Function.update_of_ne it]
      exact thereX
  obtain ⟨c, holdsX, gotX, -⟩ := lent.alive thereX'
  obtain ⟨m, gone, next, keeps⟩ := lent.replace holdsX
  refine ⟨(s.set y (some .null) s.memory).set x (some (.of o)) m,
    Function.update (Function.update refs y (some none)) x (some o), ?_, ?_, keeps⟩
  · simp only [Program.step, got, gotX, Wrapped.assign, bind, Except.bind]
    simp only [gone, pure, Except.pure]
  · simp only [Values.step, value]
    exact next

theorem step_realloc (junk : Junk) (refines : Refines s values refs temps) {n : Nat}
    (admissible : values.Admissible (.realloc x n)) :
    Framed junk s values temps (.realloc x n) := by
  obtain ⟨there, some_⟩ := admissible
  obtain ⟨o, holds, got, value⟩ := refines.alive there
  obtain ⟨o', m, done, has⟩ := Wrapped.realloc_spec junk (refines.owned_apart holds) some_
  refine ⟨s.set x (some (.of o')) m, Function.update refs x (some o'), ?_, ?_,
    has.keeps.mono (Multiset.le_add_right ..)⟩
  · simp only [Program.step, got, done, bind, Except.bind, pure, Except.pure]
  · have same : resize (wholePages n) (s.memory.value o) =
        WrappedBuffer.realloc n (s.memory.value o) := by
      rw [← allocatedFor_eq]
      rfl
    simp only [Values.step, value, Option.map_some, same]
    exact refines.change has

theorem step_write (junk : Junk) (refines : Refines s values refs temps) {off : Nat}
    {bytes : List UInt8} (admissible : values.Admissible (.write x off bytes)) :
    Framed junk s values temps (.write x off bytes) := by
  obtain ⟨old, value, inside⟩ := admissible
  obtain ⟨o, holds, got, value'⟩ := refines.alive (by rw [value]; rfl)
  rw [value, Option.some.injEq] at value'
  cases o with
  | none =>
      -- nothing is allocated, so nothing is written and `ptr()` throws
      have empty : old = [] := value'
      rw [empty, List.length_nil] at inside
      have nothing : bytes = [] := List.eq_nil_of_length_eq_zero (by omega)
      refine ⟨s, refs, ?_, ?_, Keeps.rfl⟩
      · simp only [Program.step, got, bind, Except.bind]
        rfl
      · have same : values.step (.write x off bytes) = values := by
          simp only [Values.step, value, Option.map_some, empty, nothing]
          rw [show WrappedBuffer.blit [] off [] = [] by simp [WrappedBuffer.blit], ← empty,
            ← value, Function.update_eq_self]
        rw [same]
        exact refines
  | some r =>
      have owned := refines.owned_apart holds
      rw [held_some_add] at owned
      rw [value'] at inside
      obtain ⟨r', m, done, has⟩ := Wrapped.write_spec junk owned inside
      refine ⟨s.set x (some (.of (some r'))) m, Function.update refs x (some (some r')), ?_, ?_,
        has.keeps.mono (Multiset.le_add_right ..)⟩
      · simp only [Program.step, got, done, bind, Except.bind, pure, Except.pure]
      · simp only [Values.step, value, value', Option.map_some]
        exact refines.change has

theorem step_destroy (junk : Junk) (refines : Refines s values refs temps)
    (admissible : values.Admissible (.destroy x)) :
    Framed junk s values temps (.destroy x) := by
  obtain ⟨o, holds, got, -⟩ := refines.alive admissible
  obtain ⟨m, gone, owned, keeps⟩ := Wrapped.destroy_spec (refines.owned_apart holds)
  refine ⟨_, _, ?_, refines.set x none ?_ (keeps.mono (Multiset.le_add_left ..)),
    keeps.mono (Multiset.le_add_right ..)⟩
  · simp only [Program.step, got, gone, bind, Except.bind]
    rfl
  · show Owned Fits m (temps + (0 + others refs x))
    rw [zero_add]
    exact owned

/-- Every operation on the heap does to the variables what it does to their values, and nothing to
what others hold. -/
theorem step_framed (junk : Junk) (refines : Refines s values refs temps) {op : Op V}
    (admissible : values.Admissible op) : Framed junk s values temps op := by
  cases op with
  | default x => exact refines.step_default junk admissible
  | sized x n => exact refines.step_sized junk admissible
  | copy x y => exact refines.step_copy junk admissible
  | move x y => exact refines.step_move junk admissible
  | assign x y => exact refines.step_assign junk admissible
  | moveAssign x y => exact refines.step_moveAssign junk admissible
  | realloc x n => exact refines.step_realloc junk admissible
  | write x off bytes => exact refines.step_write junk admissible
  | destroy x => exact refines.step_destroy junk admissible

theorem step (junk : Junk) (refines : Refines s values refs 0) {op : Op V}
    (admissible : values.Admissible op) : Simulated junk s values op := by
  obtain ⟨s', refs', stepped, next, -⟩ := refines.step_framed junk admissible
  exact ⟨s', refs', stepped, next⟩

end Refines

/-! ## Counts -/

/-- The reference counts are the numbers of variables, and what no variable holds is not there. -/
structure Counted (s : Program V) : Prop where
  count : ∀ x h, s.buffer x = some h → ∃ a c, h.buffer = some a ∧ h.refcount = some c ∧
    s.memory.counts c = some (s.holders a).card
  size : ∀ x h a, s.buffer x = some h → h.buffer = some a →
    ∃ b, s.memory.blocks a = some b ∧ b.bytes.length = h.allocated
  agree : ∀ x y h k, s.buffer x = some h → s.buffer y = some k → h.buffer = k.buffer → h = k
  released : ∀ a, (s.memory.blocks a).isSome ↔ (s.holders a).card ≠ 0
  deleted : ∀ c, (s.memory.counts c).isSome ↔ ∃ x h, s.buffer x = some h ∧ h.refcount = some c

omit [DecidableEq V] in
theorem mem_total {refs : V → Option (Option (Ref Tag))} {r : Ref Tag} :
    r ∈ total refs ↔ ∃ x, refs x = some (some r) := by
  rw [total, Multiset.mem_sum]
  constructor
  · rintro ⟨x, -, member⟩
    refine ⟨x, ?_⟩
    cases there : refs x with
    | none => rw [there] at member; cases Multiset.notMem_zero _ member
    | some o =>
        cases o with
        | none => rw [there] at member; cases Multiset.notMem_zero _ member
        | some q =>
            rw [there] at member
            rw [Multiset.mem_singleton.1 member]
  · rintro ⟨x, there⟩
    exact ⟨x, Finset.mem_univ x, by rw [there]; exact Multiset.mem_singleton_self r⟩

omit [DecidableEq V] in
theorem count_total (refs : V → Option (Option (Ref Tag))) (r : Ref Tag) :
    (total refs).count r = (Finset.univ.filter fun x => refs x = some (some r)).card := by
  rw [total, Multiset.count_sum', Finset.card_filter]
  apply Finset.sum_congr rfl
  intro x _
  cases refs x with
  | none => rfl
  | some o =>
      cases o with
      | none => rfl
      | some q =>
          by_cases it : q = r
          · simp [heldBy, held, it]
          · simp [heldBy, held, it, Ne.symm it]

omit [DecidableEq V] in
theorem Refines.buffer_eq {s : Program V} {values : Values V}
    {refs : V → Option (Option (Ref Tag))} {temps : Multiset (Ref Tag)}
    (refines : Refines s values refs temps) {x : V} {h : Handle} :
    s.buffer x = some h ↔ ∃ r, refs x = some (some r) ∧ h = Handle.of r := by
  rw [Program.buffer, refines.vars x]
  cases refs x with
  | none => simp
  | some o =>
      rw [Option.map_some, Option.bind_some, Wrapped.buffer_of]
      cases o with
      | none => simp
      | some r => simp [eq_comm]

omit [DecidableEq V] in
/-- The holders of a block are the variables whose reference it is. -/
theorem Refines.holders_card {s : Program V} {values : Values V}
    {refs : V → Option (Option (Ref Tag))} (refines : Refines s values refs 0) {r : Ref Tag}
    (here : r ∈ total refs) : (s.holders r.block).card = (total refs).count r := by
  have owned := refines.owned
  rw [zero_add] at owned
  rw [count_total]
  congr 1
  apply Finset.filter_congr
  intro x _
  constructor
  · intro holds
    obtain ⟨h, buffer, block⟩ := Option.bind_eq_some_iff.1 holds
    obtain ⟨q, there, rfl⟩ := refines.buffer_eq.1 buffer
    have same : q.block = r.block := Option.some.inj block
    rw [there, owned.agree q (mem_total.2 ⟨x, there⟩) r here (Or.inl same)]
  · intro there
    rw [refines.buffer_eq.2 ⟨r, there, rfl⟩]
    rfl

omit [DecidableEq V] in
theorem Refines.counted {s : Program V} {values : Values V}
    {refs : V → Option (Option (Ref Tag))} (refines : Refines s values refs 0) : Counted s := by
  have owned := refines.owned
  rw [zero_add] at owned
  refine ⟨?_, ?_, ?_, ?_, ?_⟩
  · intro x h buffer
    obtain ⟨r, there, rfl⟩ := refines.buffer_eq.1 buffer
    have here := mem_total.2 ⟨x, there⟩
    refine ⟨r.block, r.counter, rfl, rfl, ?_⟩
    rw [owned.counted r here, refines.holders_card here]
  · intro x h a buffer block
    obtain ⟨r, there, rfl⟩ := refines.buffer_eq.1 buffer
    have here := mem_total.2 ⟨x, there⟩
    have same : r.block = a := Option.some.inj block
    refine ⟨_, by rw [← same]; exact block_eq owned here, contents_length owned here⟩
  · intro x y h k buffer buffer' block
    obtain ⟨r, there, rfl⟩ := refines.buffer_eq.1 buffer
    obtain ⟨q, there', rfl⟩ := refines.buffer_eq.1 buffer'
    have same : r.block = q.block := Option.some.inj block
    rw [owned.agree r (mem_total.2 ⟨x, there⟩) q (mem_total.2 ⟨y, there'⟩) (Or.inl same)]
  · intro a
    rw [owned.live_iff]
    constructor
    · rintro ⟨r, here, rfl⟩
      rw [refines.holders_card here]
      exact Multiset.count_ne_zero.2 here
    · intro some_
      obtain ⟨x, member⟩ := Finset.card_ne_zero.1 some_
      obtain ⟨h, buffer, block⟩ := Option.bind_eq_some_iff.1 (Finset.mem_filter.1 member).2
      obtain ⟨r, there, rfl⟩ := refines.buffer_eq.1 buffer
      exact ⟨r, mem_total.2 ⟨x, there⟩, Option.some.inj block⟩
  · intro c
    rw [owned.counter_iff]
    constructor
    · rintro ⟨r, here, rfl⟩
      obtain ⟨x, there⟩ := mem_total.1 here
      exact ⟨x, _, refines.buffer_eq.2 ⟨r, there, rfl⟩, rfl⟩
    · rintro ⟨x, h, buffer, counter⟩
      obtain ⟨r, there, rfl⟩ := refines.buffer_eq.1 buffer
      exact ⟨r, mem_total.2 ⟨x, there⟩, Option.some.inj counter⟩

theorem Refines.read_eq {s : Program V} {values : Values V}
    {refs : V → Option (Option (Ref Tag))} (refines : Refines s values refs 0) (x : V) :
    s.read x = .ok (values x) ∧ s.allocated x = (values x).map List.length := by
  rw [Program.read, Program.allocated, refines.vars x, refines.values x]
  cases there : refs x with
  | none => exact ⟨rfl, rfl⟩
  | some o =>
      have owned := refines.owned_apart there
      rw [Option.map_some, Option.map_some, Option.map_some, Option.map_some]
      simp only [Wrapped.read_eq owned, Wrapped.allocated_of owned, and_true]
      rfl

/-! ## Every program -/

omit [DecidableEq V] in
theorem start_refines : Refines (Program.start : Program V) (fun _ => none) (fun _ => none) 0 where
  vars := fun _ => rfl
  owned := by
    have none_ : total (fun _ : V => (none : Option (Option (Ref Tag)))) = 0 :=
      Finset.sum_eq_zero fun _ _ => rfl
    rw [none_, zero_add]
    exact owned_empty
  values := fun _ => rfl

/-- A whole run, operation by operation. -/
theorem Refines.runs (junk : Junk) {s : Program V} {values : Values V}
    {refs : V → Option (Option (Ref Tag))} (refines : Refines s values refs 0) (ops : List (Op V))
    (admissible : Along Values.step Values.Admissible values ops) :
    ∃ s' refs', ops.foldlM (Program.step junk) s = .ok s' ∧
      Refines s' (run Values.step values ops) refs' 0 := by
  have follow : ∀ (s : Program V) (values : Values V) (op : Op V),
      (∃ refs, Refines s values refs 0) → values.Admissible op →
      ∃ s', s.step junk op = .ok s' ∧ ∃ refs', Refines s' (values.step op) refs' 0 := by
    rintro s values op ⟨refs, refines⟩ admissible
    obtain ⟨s', refs', stepped, next⟩ := refines.step junk admissible
    exact ⟨s', stepped, refs', next⟩
  obtain ⟨s', ran, refs', last⟩ := run_simulates follow ⟨refs, refines⟩ ops admissible
  exact ⟨s', refs', ran, last⟩

/-- Whatever a program does with its variables, it is defined and every variable reads as its
value, with as many bytes; and the blocks are counted. -/
theorem value_semantics (junk : Junk) (ops : List (Op V))
    (admissible : Along Values.step Values.Admissible (fun _ => none) ops) :
    ∃ s : Program V, Program.run junk ops = .ok s ∧
      (∀ x, s.read x = .ok (run Values.step (fun _ => none) ops x)) ∧
      (∀ x, s.allocated x = (run Values.step (fun _ => none) ops x).map List.length) ∧
      Counted s := by
  obtain ⟨s, refs, ran, refines⟩ := start_refines.runs junk ops admissible
  exact ⟨s, ran, fun x => (refines.read_eq x).1, fun x => (refines.read_eq x).2, refines.counted⟩

end Refinement

/-- A buffer is copied, written to while it is shared, and its copy grows. -/
def sharing : List (Op Bool) :=
  [.sized false 3, .write false 0 [1, 2], .copy true false, .write false 0 [9], .realloc true 5]

theorem value_semantics_shared :
    ∃ s : Program Bool, Program.run (fun _ _ => 255) sharing = .ok s ∧
      s.read false = .ok (some [9, 2, 0]) ∧ s.read true = .ok (some [1, 2, 0, 0, 0]) ∧
      Counted s := by
  have admissible : Along Values.step Values.Admissible (fun _ => none) sharing :=
    ⟨rfl, ⟨[0, 0, 0], rfl, by decide⟩, ⟨rfl, rfl⟩, ⟨[1, 2, 0], rfl, by decide⟩,
      ⟨rfl, by decide⟩, trivial⟩
  obtain ⟨s, ran, reads, -, counted⟩ :=
    value_semantics (fun _ _ => 255) sharing admissible
  exact ⟨s, ran, reads false, reads true, counted⟩

end Coinscope.Shared

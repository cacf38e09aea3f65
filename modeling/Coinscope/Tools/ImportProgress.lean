/-
# Tools.ImportProgress -- the children do not wait for each other for ever

The children of an import take the semaphores one at a time: a child that holds one of the first
four has only the way to its `unlock` in front of it, and the fifth one, which keeps their number
down, is given back by the parent for every child that has ended.  So whoever waits, waits for
somebody who can go on.

* `Child.work`, `Import.work` -- the steps that are left at most.
* `Import.Locked` -- which semaphores are taken, and by whom.
* `import_progress` -- one child at a time, somebody can always go on, and every child is waited
  for in the end.
-/
import Coinscope.Tools.Verbatim2pg
import Coinscope.Theory.Runs
import Coinscope.Theory.Tables

namespace Coinscope.Tools

open Coinscope.Theory
open Coinscope.Theory.Runs

set_option autoImplicit false

/-! ## What is left to do -/

namespace Child

/-- The steps a child has left at most, with the one of its parent. -/
def work (c : Child) : Nat :=
  c.todo.length * (c.records.length + 1) + c.left.length + if c.reaped then 0 else 1

/-- The child is between the `lock` and the `unlock` of a semaphore. -/
def holdsSem (n : Nat) (c : Child) : Bool := decide (holding c.todo = some n)

/-- The child has passed `lock(4)`, or left, and its parent has not waited for it. -/
def inside (c : Child) : Bool := decide (c.todo ≠ childMain) && !c.reaped

end Child

namespace Import

def work (s : Import) : Nat := (s.children.map Child.work).sum

/-- Which semaphores are taken. -/
structure Locked (cpus : Nat) (s : Import) : Prop where
  places : ∀ c ∈ s.children, c.todo ∈ childMain.tails
  rest : ∀ c ∈ s.children, c.left.length ≤ c.records.length
  ended : ∀ c ∈ s.children, c.reaped = true → c.todo = []
  one : ∀ n < 4, s.sems n + s.children.countP (Child.holdsSem n) = 1
  throttle : cpus ≤ s.sems 4 + s.children.countP Child.inside

end Import

/-! ## Places in `child_main` -/

/-- What a `lock` is followed by. -/
theorem lock_place : ∀ t ∈ childMain.tails, ∀ n, t.head? = some (.lock n) →
    n = 4 ∧ t = childMain ∧ holding t.tail = none ∨
      n < 4 ∧ t ≠ childMain ∧ holding t.tail = some n := by
  have all : ∀ t ∈ childMain.tails, ∀ op ∈ t.head?, ∀ n ∈ (match op with
      | .lock n => some n
      | _ => none), n = 4 ∧ t = childMain ∧ holding t.tail = none ∨
        n < 4 ∧ t ≠ childMain ∧ holding t.tail = some n := by decide
  intro t place n head
  exact all t place _ head n rfl

theorem unlock_place : ∀ t ∈ childMain.tails, ∀ n, t.head? = some (.unlock n) →
    n < 4 ∧ holding t.tail = none := by
  have all : ∀ t ∈ childMain.tails, ∀ op ∈ t.head?, ∀ n ∈ (match op with
      | .unlock n => some n
      | _ => none), n < 4 ∧ holding t.tail = none := by decide
  intro t place n head
  exact all t place _ head n rfl

/-- A child that has done something is not at the beginning any more. -/
theorem tail_place : ∀ t ∈ childMain.tails, t.tail ≠ childMain ∧ t.tail ∈ childMain.tails := by
  decide

theorem holding_none_at_lock (n : Nat) (rest : List Op) : holding (.lock n :: rest) = none := rfl

/-- Who holds a semaphore is not about to take one. -/
theorem holding_ready {t : List Op} {n : Nat} (holds : holding t = some n) :
    t ≠ [] ∧ ∀ m, t.head? ≠ some (.lock m) := by
  cases t with
  | nil => cases holds
  | cons op rest =>
      refine ⟨List.cons_ne_nil _ _, ?_⟩
      rintro m head
      cases head
      cases holds

/-! ## One step -/

/-- What the subroutines leave alone. -/
theorem Child.handleMessage_place {pass : Pass} {r : Record} {c c' : Child}
    (result : c.handleMessage pass r = some c') :
    c'.todo = c.todo ∧ c'.records = c.records ∧ c'.reaped = c.reaped := by
  have called : ∀ h : Handler, (c.call r h).todo = c.todo ∧ (c.call r h).records = c.records ∧
      (c.call r h).reaped = c.reaped := by
    intro h
    cases h <;> exact ⟨rfl, rfl, rfl⟩
  rw [handleMessage] at result
  split at result
  · cases result
    exact ⟨rfl, rfl, rfl⟩
  · rename_i h _
    simp only at result
    generalize (if (c.call r h).consecutiveInvalids = c.consecutiveInvalids then 0
      else (c.call r h).consecutiveInvalids) = invalids at result
    split at result
    · cases result
    · cases result
      exact called h

namespace Import

/-- What a child can do, by what it has left to do. -/
inductive Move (s s' : Import) (c c' : Child) : Prop where
  | lock (n : Nat) (todo : c.todo = .lock n :: c'.todo) (free : s.sems n ≠ 0)
      (left : c'.left = c.left) (sems : s'.sems = Function.update s.sems n (s.sems n - 1))
  | unlock (n : Nat) (todo : c.todo = .unlock n :: c'.todo) (left : c'.left = c.left)
      (sems : s'.sems = Function.update s.sems n (s.sems n + 1))
  | pass (pass : Pass) (todo : c.todo = .doPass pass :: c'.todo) (left : c'.left = c.records)
      (sems : s'.sems = s.sems)
  | record (pass : Pass) (rest : List Op) (todo : c.todo = .doPass pass :: rest)
      (same : c'.todo = c.todo) (left : c'.left.length < c.left.length) (sems : s'.sems = s.sems)
  | jump (q : Sequence) (todo : c.todo = .nextval q :: c'.todo ∨ c.todo = .setval q :: c'.todo)
      (left : c'.left = c.left) (sems : s'.sems = s.sems)
  | quit (todo : c'.todo = []) (left : c'.left = c.left)
      (sems : s'.sems = match holding c.todo with
        | none => s.sems
        | some n => Function.update s.sems n (s.sems n + 1))

/-- A child waits for a semaphore, or has nothing left to do. -/
def Waits (s : Import) (c : Child) : Prop :=
  c.todo = [] ∨ ∃ n rest, c.todo = .lock n :: rest ∧ s.sems n = 0

variable {s : Import} {k : Nat} {c : Child}

theorem quit_move (s : Import) (k : Nat) (c : Child) :
    (s.quit k c).children = s.children.set k { c with todo := [], dead := true } ∧
      Move s (s.quit k c) c { c with todo := [], dead := true } := by
  unfold quit
  simp only
  cases held : holding c.todo with
  | none =>
      refine ⟨rfl, .quit rfl rfl ?_⟩
      rw [held]
      rfl
  | some n =>
      refine ⟨rfl, .quit rfl rfl ?_⟩
      rw [held]
      rfl

/-- The next step of a child, if it does not wait. -/
theorem advance_cases (s : Import) (k : Nat) (c : Child) :
    s.Waits c ∧ s.advance k c = s ∨ ¬ s.Waits c ∧ ∃ c', (s.advance k c).children = s.children.set k c' ∧
      c'.records = c.records ∧ c'.reaped = c.reaped ∧ Move s (s.advance k c) c c' := by
  have ready : ∀ {op : Op} {rest : List Op}, c.todo = op :: rest →
      (∀ n, op = .lock n → s.sems n ≠ 0) → ¬ s.Waits c := by
    intro op rest todo free waits
    rcases waits with none_ | ⟨n, rest', locked, taken⟩
    · rw [todo] at none_
      cases none_
    · rw [todo] at locked
      cases locked
      exact free n rfl taken
  unfold advance
  split
  · rename_i none_
    exact Or.inl ⟨Or.inl none_, rfl⟩
  · rename_i n rest todo
    split
    · rename_i taken
      exact Or.inl ⟨Or.inr ⟨n, rest, todo, taken⟩, rfl⟩
    · rename_i free
      refine Or.inr ⟨ready todo ?_, { c with todo := rest }, rfl, rfl, rfl,
        .lock n todo free rfl rfl⟩
      rintro m ⟨⟩
      exact free
  · rename_i n rest todo
    exact Or.inr ⟨ready todo nofun, { c with todo := rest }, rfl, rfl, rfl,
      .unlock n todo rfl rfl⟩
  · rename_i pass rest todo
    refine Or.inr ⟨ready todo nofun, ?_⟩
    split
    · exact ⟨{ c with todo := rest, left := c.records }, rfl, rfl, rfl, .pass pass todo rfl rfl⟩
    · rename_i r left more
      split
      · obtain ⟨children, move⟩ := quit_move s k c
        exact ⟨_, children, rfl, rfl, move⟩
      · rename_i c' handled
        obtain ⟨same, records, reaped⟩ := Child.handleMessage_place handled
        refine ⟨{ c' with left := left }, rfl, records, reaped, .record pass rest todo same ?_ rfl⟩
        rw [more]
        exact Nat.lt_succ_self _
  · rename_i q rest todo
    exact Or.inr ⟨ready todo nofun, _, rfl, rfl, rfl, .jump q (Or.inl todo) rfl rfl⟩
  · rename_i q rest todo
    refine Or.inr ⟨ready todo nofun, ?_⟩
    split
    · exact ⟨{ c with todo := rest }, rfl, rfl, rfl, .jump q (Or.inr todo) rfl rfl⟩
    · exact ⟨_, rfl, rfl, rfl, .jump q (Or.inr todo) rfl rfl⟩

/-! ## Less and less to do -/

theorem Move.work {s' : Import} {c' : Child} (move : Move s s' c c')
    (rest : c.left.length ≤ c.records.length) (records : c'.records = c.records)
    (reaped : c'.reaped = c.reaped) : c'.work < c.work ∨ c.todo = [] := by
  have length : ∀ {op : Op}, c.todo = op :: c'.todo → c.todo.length = c'.todo.length + 1 := by
    intro op todo
    rw [todo, List.length_cons]
  unfold Child.work
  rw [records, reaped]
  cases move with
  | lock n todo _ left =>
      left
      rw [length todo, left, Nat.succ_mul]
      omega
  | unlock n todo left =>
      left
      rw [length todo, left, Nat.succ_mul]
      omega
  | pass pass todo left =>
      left
      rw [length todo, left, Nat.succ_mul]
      omega
  | record pass rest todo same less =>
      left
      rw [same]
      omega
  | jump q todo left =>
      left
      have popped : c.todo.length = c'.todo.length + 1 := by
        rcases todo with todo | todo
        · exact length todo
        · exact length todo
      rw [popped, left, Nat.succ_mul]
      omega
  | quit none_ left =>
      cases todo : c.todo with
      | nil => exact Or.inr rfl
      | cons op more =>
          left
          rw [none_, left, List.length_cons, Nat.succ_mul]
          simp only [List.length_nil, Nat.zero_mul]
          omega

/-! ## The semaphores -/

section Replace

variable {cpus : Nat} {s' : Import} {c' : Child}

/-- One child takes a step. -/
theorem Locked.replace (locked : s.Locked cpus) (found : s.children[k]? = some c)
    (children : s'.children = s.children.set k c') (place : c'.todo ∈ childMain.tails)
    (rest : c'.left.length ≤ c'.records.length) (ended : c'.reaped = true → c'.todo = [])
    (sems : ∀ n < 4, s'.sems n + (if c'.holdsSem n then 1 else 0) =
      s.sems n + if c.holdsSem n then 1 else 0)
    (throttle : s.sems 4 + (if c.inside then 1 else 0) ≤
      s'.sems 4 + if c'.inside then 1 else 0) : s'.Locked cpus := by
  have each : ∀ {P : Child → Prop}, (∀ d ∈ s.children, P d) → P c' → ∀ d ∈ s'.children, P d := by
    intro P all new d member
    rw [children] at member
    rcases List.mem_or_eq_of_mem_set member with old | rfl
    · exact all d old
    · exact new
  refine ⟨each locked.places place, each locked.rest rest, each locked.ended ended, ?_, ?_⟩
  · intro n small
    have counted := Tables.countP_set_over (Child.holdsSem n) found c'
    have before := locked.one n small
    have here := sems n small
    rw [children]
    omega
  · have counted := Tables.countP_set_over Child.inside found c'
    have before := locked.throttle
    rw [children]
    omega

/-- Which semaphores a child holds before and behind a step. -/
theorem Move.sems (move : Move s s' c c') (place : c.todo ∈ childMain.tails) (n : Nat) (small : n < 4) :
    s'.sems n + (if c'.holdsSem n then 1 else 0) = s.sems n + if c.holdsSem n then 1 else 0 := by
  -- a semaphore is taken, given back, or not touched
  have same : s'.sems = s.sems → holding c'.todo = holding c.todo →
      s'.sems n + (if c'.holdsSem n then 1 else 0) = s.sems n + if c.holdsSem n then 1 else 0 := by
    intro sems held
    rw [sems, Child.holdsSem, Child.holdsSem, held]
  cases move with
  | lock m todo free _ sems =>
      have next : holding c'.todo = if m = 4 then none else some m := by
        rcases lock_place c.todo place m (by rw [todo]; rfl) with ⟨four, -, none_⟩ | ⟨less, -, held⟩
        · rw [todo] at none_
          rw [if_pos four]
          exact none_
        · rw [todo] at held
          rw [if_neg (by omega)]
          exact held
      rw [sems, Child.holdsSem, Child.holdsSem, next, todo, holding_none_at_lock]
      by_cases mine : n = m
      · have notFour : m ≠ 4 := by omega
        rw [mine, Function.update_self, if_neg notFour]
        simp
        omega
      · rw [Function.update_of_ne mine]
        have other : (if m = 4 then none else some m) ≠ some n := by
          split
          · exact nofun
          · exact fun eq => mine (Option.some.inj eq).symm
        simp [other]
  | unlock m todo _ sems =>
      obtain ⟨-, none_⟩ := unlock_place c.todo place m (by rw [todo]; rfl)
      rw [todo] at none_
      have held : holding c.todo = some m := by
        rw [todo]
        rfl
      have next : holding c'.todo = none := none_
      rw [sems, Child.holdsSem, Child.holdsSem, held, next]
      by_cases mine : n = m
      · rw [mine, Function.update_self]
        simp
      · rw [Function.update_of_ne mine]
        simp [Ne.symm mine]
  | pass pass todo _ sems => exact same sems (by rw [todo]; rfl)
  | record pass rest todo same' _ sems => exact same sems (by rw [same'])
  | jump q todo _ sems =>
      refine same sems ?_
      rcases todo with todo | todo
      · rw [todo]
        rfl
      · rw [todo]
        rfl
  | quit none_ _ sems =>
      rw [sems, Child.holdsSem, Child.holdsSem, none_]
      cases held : holding c.todo with
      | none => rfl
      | some m =>
          simp only
          by_cases mine : n = m
          · rw [mine, Function.update_self]
            simp [holding]
          · rw [Function.update_of_ne mine]
            simp [holding, Ne.symm mine]

/-- A child that has taken the fifth semaphore, or left, counts until its parent has waited for
it. -/
theorem Move.throttle (move : Move s s' c c') (place : c.todo ∈ childMain.tails)
    (reaped : c'.reaped = c.reaped) (running : c.reaped = false) :
    s.sems 4 + (if c.inside then 1 else 0) ≤ s'.sems 4 + if c'.inside then 1 else 0 := by
  have popped : ∀ {op : Op}, c.todo = op :: c'.todo → c'.inside = true := by
    intro op todo
    have later := (tail_place c.todo place).1
    rw [todo] at later
    simp only [Child.inside, reaped, running]
    simpa using later
  -- the first three semaphores and the fourth are another matter
  have one : (if c.inside then 1 else 0) ≤ 1 := by split <;> omega
  cases move with
  | lock m todo free _ sems =>
      rw [popped todo, if_pos rfl, sems]
      rcases lock_place c.todo place m (by rw [todo]; rfl) with ⟨rfl, first, -⟩ | ⟨less, -, -⟩
      · rw [Function.update_self, Child.inside, first]
        simp
        omega
      · rw [Function.update_of_ne (by omega)]
        omega
  | unlock m todo _ sems =>
      obtain ⟨less, -⟩ := unlock_place c.todo place m (by rw [todo]; rfl)
      rw [popped todo, if_pos rfl, sems, Function.update_of_ne (by omega)]
      omega
  | pass pass todo _ sems =>
      rw [popped todo, if_pos rfl, sems]
      omega
  | record pass rest todo same _ sems =>
      rw [sems, Child.inside, Child.inside, same, reaped]
  | jump q todo _ sems =>
      have here : c'.inside = true := by
        rcases todo with todo | todo
        · exact popped todo
        · exact popped todo
      rw [here, if_pos rfl, sems]
      omega
  | quit none_ _ sems =>
      have here : c'.inside = true := by
        rw [Child.inside, none_, reaped, running]
        decide
      have more : s.sems 4 ≤ s'.sems 4 := by
        rw [sems]
        split
        · exact Nat.le_refl _
        · rename_i m _
          by_cases four : 4 = m
          · rw [← four, Function.update_self]
            omega
          · rw [Function.update_of_ne four]
      rw [here, if_pos rfl]
      omega

end Replace

/-! ## Every run -/

/-- The state of a step at this place. -/
theorem step_run {k : Nat} {c : Child} (found : s.children[k]? = some c) :
    s.step (.run k) = s.advance k c := by
  rw [step, found]

theorem step_reap {k : Nat} {c : Child} (found : s.children[k]? = some c) :
    s.step (.reap k) =
      if c.todo = [] ∧ c.reaped = false then (s.withChild k { c with reaped := true }).up 4 else s := by
  rw [step, found]

theorem work_set {s' : Import} {c' : Child} (found : s.children[k]? = some c)
    (children : s'.children = s.children.set k c') : s'.work + c.work = s.work + c'.work := by
  rw [work, work, children]
  exact Tables.sum_set_over Child.work found c'

variable {cpus : Nat}

/-- What a child does keeps the semaphores in order, and leaves less to do. -/
theorem Locked.moved {s' : Import} {c' : Child} (locked : s.Locked cpus)
    (found : s.children[k]? = some c) (children : s'.children = s.children.set k c')
    (records : c'.records = c.records) (reaped : c'.reaped = c.reaped) (move : Move s s' c c')
    (running : c.reaped = false) : s'.Locked cpus := by
  have member := List.mem_of_getElem? found
  have place := locked.places c member
  have tailed : ∀ {op : Op}, c.todo = op :: c'.todo → c'.todo ∈ childMain.tails := by
    intro op todo
    have later := (tail_place c.todo place).2
    rw [todo] at later
    exact later
  have rest := locked.rest c member
  refine locked.replace found children ?_ ?_ ?_ (move.sems place) (move.throttle place reaped running)
  · cases move with
    | lock _ todo => exact tailed todo
    | unlock _ todo => exact tailed todo
    | pass _ todo => exact tailed todo
    | record _ _ _ same =>
        rw [same]
        exact place
    | jump _ todo =>
        rcases todo with todo | todo
        · exact tailed todo
        · exact tailed todo
    | quit none_ =>
        rw [none_]
        decide
  · rw [records]
    cases move with
    | lock _ _ _ left => rw [left]; exact rest
    | unlock _ _ left => rw [left]; exact rest
    | pass _ _ left => rw [left]
    | record _ _ _ _ less => omega
    | jump _ _ left => rw [left]; exact rest
    | quit _ left => rw [left]; exact rest
  · intro over_
    rw [reaped, running] at over_
    cases over_

/-- A child that was waited for does nothing any more. -/
theorem Locked.quits_ended (locked : s.Locked cpus) (found : s.children[k]? = some c)
    (reaped : c.reaped = true) : (s.quit k c).Locked cpus ∧ (s.quit k c).work = s.work := by
  have member := List.mem_of_getElem? found
  have none_ := locked.ended c member reaped
  obtain ⟨children, -⟩ := quit_move s k c
  have sems : (s.quit k c).sems = s.sems := by
    rw [quit, none_]
    rfl
  have place : [] ∈ childMain.tails := by decide
  refine ⟨locked.replace found children place (locked.rest c member) (fun _ => rfl) ?_ ?_, ?_⟩
  · intro n _
    rw [sems, Child.holdsSem, Child.holdsSem, none_]
  · rw [sems, Child.inside, Child.inside, none_, reaped]
  · have less := work_set found children
    rw [Child.work, Child.work, none_] at less
    simp only at less
    omega

theorem Locked.step (locked : s.Locked cpus) (e : Event) :
    (s.step e).Locked cpus ∧ (s.step e).work ≤ s.work := by
  have nothing : s.Locked cpus ∧ s.work ≤ s.work := ⟨locked, Nat.le_refl _⟩
  cases e with
  | run k =>
      cases found : s.children[k]? with
      | none =>
          rw [Import.step, found]
          exact nothing
      | some c =>
          have member := List.mem_of_getElem? found
          rw [step_run found]
          rcases advance_cases s k c with ⟨-, same⟩ | ⟨ready, c', children, records, reaped, move⟩
          · rw [same]
            exact nothing
          · have running : c.reaped = false := by
              by_contra over_
              exact ready (Or.inl (locked.ended c member (by simpa using over_)))
            refine ⟨locked.moved found children records reaped move running, ?_⟩
            have total := work_set found children
            rcases move.work (locked.rest c member) records reaped with less | none_
            · omega
            · exact absurd (Or.inl none_) ready
  | quit k =>
      cases found : s.children[k]? with
      | none =>
          rw [Import.step, found]
          exact nothing
      | some c =>
          have member := List.mem_of_getElem? found
          have stepped : s.step (.quit k) = s.quit k c := by
            rw [Import.step, found]
          rw [stepped]
          by_cases running : c.reaped = false
          · obtain ⟨children, move⟩ := quit_move s k c
            refine ⟨locked.moved found children rfl rfl move running, ?_⟩
            have total := work_set found children
            rcases move.work (locked.rest c member) rfl rfl with less | none_
            · omega
            · rw [Child.work, Child.work, none_] at total
              simp only at total
              omega
          · obtain ⟨kept, same⟩ := locked.quits_ended found (by simpa using running)
            exact ⟨kept, Nat.le_of_eq same⟩
  | reap k =>
      cases found : s.children[k]? with
      | none =>
          rw [Import.step, found]
          exact nothing
      | some c =>
          have member := List.mem_of_getElem? found
          rw [step_reap found]
          split
          · rename_i over_
            obtain ⟨none_, running⟩ := over_
            have children : ((s.withChild k { c with reaped := true }).up 4).children =
                s.children.set k { c with reaped := true } := rfl
            have sems : ((s.withChild k { c with reaped := true }).up 4).sems =
                Function.update s.sems 4 (s.sems 4 + 1) := rfl
            refine ⟨locked.replace found children (locked.places c member) (locked.rest c member)
              (fun _ => none_) ?_ ?_, ?_⟩
            · intro n small
              rw [sems, Function.update_of_ne (by omega)]
              rfl
            · rw [sems, Function.update_self, Child.inside, Child.inside, running]
              simp
              split <;> omega
            · have total := work_set found children
              rw [Child.work, Child.work, running] at total
              simp only [if_true, Bool.false_eq_true, if_false] at total
              omega
          · exact nothing

theorem start_locked (files : List (List UInt8)) (cpus : Nat) (seqs : Sequence → Nat) :
    (start files cpus seqs).Locked cpus := by
  have new : ∀ c ∈ (start files cpus seqs).children, ∃ file, c = Child.new file := by
    intro c member
    obtain ⟨file, -, rfl⟩ := List.mem_map.1 member
    exact ⟨file, rfl⟩
  refine ⟨?_, ?_, ?_, ?_, ?_⟩
  · intro c member
    obtain ⟨file, rfl⟩ := new c member
    show childMain ∈ childMain.tails
    decide
  · intro c member
    obtain ⟨file, rfl⟩ := new c member
    exact Nat.le_refl _
  · intro c member over_
    obtain ⟨file, rfl⟩ := new c member
    cases over_
  · intro n small
    have none_ : (start files cpus seqs).children.countP (Child.holdsSem n) = 0 := by
      rw [List.countP_eq_zero]
      intro c member
      obtain ⟨file, rfl⟩ := new c member
      have idle : holding childMain = none := rfl
      simp [Child.holdsSem, Child.new, idle]
    rw [none_]
    show (if n = 4 then cpus else 1) + 0 = 1
    rw [if_neg (by omega)]
  · exact Nat.le_add_right _ _

/-! ## Nobody waits for ever -/

/-- A child that does not wait goes on. -/
theorem Locked.ready (locked : s.Locked cpus) (found : s.children[k]? = some c)
    (ready : ¬ s.Waits c) : (s.step (.run k)).work < s.work := by
  have member := List.mem_of_getElem? found
  rw [step_run found]
  rcases advance_cases s k c with ⟨waits, -⟩ | ⟨-, c', children, records, reaped, move⟩
  · exact absurd waits ready
  · have total := work_set found children
    rcases move.work (locked.rest c member) records reaped with less | none_
    · omega
    · exact absurd (Or.inl none_) ready

/-- Who has nothing left to do is waited for. -/
theorem reap_ready (found : s.children[k]? = some c) (none_ : c.todo = [])
    (running : c.reaped = false) : (s.step (.reap k)).work < s.work := by
  rw [step_reap found, if_pos ⟨none_, running⟩]
  have total : ((s.withChild k { c with reaped := true }).up 4).work + c.work =
      s.work + Child.work { c with reaped := true } := work_set found rfl
  rw [Child.work, Child.work, running] at total
  simp only [if_true, Bool.false_eq_true, if_false] at total
  omega

/-- Who holds one of the first four semaphores goes on. -/
theorem Locked.holder (locked : s.Locked cpus) {n : Nat} (small : n < 4) (taken : s.sems n = 0) :
    ∃ k, (s.step (.run k)).work < s.work := by
  have count := locked.one n small
  have some_ : 0 < s.children.countP (Child.holdsSem n) := by omega
  obtain ⟨c, member, holds⟩ := List.countP_pos_iff.1 some_
  obtain ⟨k, found⟩ := List.getElem?_of_mem member
  obtain ⟨more, noLock⟩ := holding_ready (of_decide_eq_true holds)
  refine ⟨k, locked.ready found ?_⟩
  rintro (none_ | ⟨m, rest, todo, -⟩)
  · exact more none_
  · exact noLock m (by rw [todo]; rfl)

/-- As long as a child was not waited for, somebody can go on. -/
theorem Locked.progress (locked : s.Locked cpus) (some_ : 0 < cpus)
    (left : ¬ ∀ c ∈ s.children, c.reaped = true) :
    ∃ k, (s.step (.run k)).work < s.work ∨ (s.step (.reap k)).work < s.work := by
  -- a child that is past the fifth semaphore waits for one of the others at most
  have inside : ∀ c ∈ s.children, c.inside = true →
      ∃ k, (s.step (.run k)).work < s.work ∨ (s.step (.reap k)).work < s.work := by
    intro c member here
    rw [Child.inside, Bool.and_eq_true, decide_eq_true_eq, Bool.not_eq_true'] at here
    obtain ⟨past, running⟩ := here
    obtain ⟨k, found⟩ := List.getElem?_of_mem member
    by_cases waits : s.Waits c
    · rcases waits with none_ | ⟨n, rest, todo, taken⟩
      · exact ⟨k, Or.inr (reap_ready found none_ running)⟩
      · have place := lock_place c.todo (locked.places c member) n (by rw [todo]; rfl)
        rcases place with ⟨-, first, -⟩ | ⟨small, -, -⟩
        · exact absurd first past
        · obtain ⟨k', moves⟩ := locked.holder small taken
          exact ⟨k', Or.inl moves⟩
    · exact ⟨k, Or.inl (locked.ready found waits)⟩
  by_cases anybody : ∃ c ∈ s.children, c.inside = true
  · obtain ⟨c, member, here⟩ := anybody
    exact inside c member here
  · -- nobody is, so the fifth semaphore is free
    have nobody : s.children.countP Child.inside = 0 := by
      rw [List.countP_eq_zero]
      intro c member here
      exact anybody ⟨c, member, here⟩
    have free := locked.throttle
    rw [nobody] at free
    push Not at left
    obtain ⟨c, member, running⟩ := left
    obtain ⟨k, found⟩ := List.getElem?_of_mem member
    refine ⟨k, Or.inl (locked.ready found ?_)⟩
    have outside : c.todo = childMain := by
      by_contra past
      refine anybody ⟨c, member, ?_⟩
      simp [Child.inside, past, running]
    rintro (none_ | ⟨n, rest, todo, taken⟩)
    · rw [outside] at none_
      cases none_
    · rw [outside] at todo
      cases todo
      omega

end Import

/-- The event is not the death of a child. -/
def Event.regular : Event → Prop
  | .quit _ => False
  | _ => True

/-- In every interleaving of any number of children, which may die or exit at any time: at most one
of them is between the `lock` and the `unlock` of a semaphore; the steps that do anything are not
more than the files have work for; and whatever happened, the import can be brought to its end by
steps of the children and waits alone, so nobody waits for ever.  A child may still die in such a
step of what its file has. -/
theorem import_progress (files : List (List UInt8)) {cpus : Nat} (some_ : 0 < cpus)
    (seqs : Sequence → Nat) (events : List Event) (s : Import)
    (reached : s = run Import.step (Import.start files cpus seqs) events) :
    (∀ n < 4, s.children.countP (Child.holdsSem n) ≤ 1) ∧
      s.work + tally Import.step (fun s e => decide ((s.step e).work < s.work))
        (Import.start files cpus seqs) events ≤ (Import.start files cpus seqs).work ∧
      ((∃ c ∈ s.children, c.reaped = false) →
        ∃ k, (s.step (.run k)).work < s.work ∨ (s.step (.reap k)).work < s.work) ∧
      ∃ more, more.length ≤ s.work ∧ (∀ e ∈ more, e.regular) ∧
        ∀ c ∈ (run Import.step s more).children, c.reaped = true := by
  have locked : s.Locked cpus := by
    rw [reached]
    exact run_keeps (fun _ e locked => (locked.step e).1) (Import.start_locked files cpus seqs) events
  refine ⟨?_, ?_, ?_, ?_⟩
  · intro n small
    have one := locked.one n small
    omega
  · rw [reached]
    exact run_ranked (I := Import.Locked cpus) (fun _ e locked => (locked.step e).1)
      (fun _ e locked => (locked.step e).2) (fun _ _ _ less => of_decide_eq_true less)
      (Import.start_locked files cpus seqs) events
  · rintro ⟨c, member, running⟩
    apply locked.progress some_
    intro all
    rw [all c member] at running
    cases running
  · refine run_finishes (I := Import.Locked cpus) (G := fun s => ∀ c ∈ s.children, c.reaped = true)
      (fun _ e locked => (locked.step e).1) ?_ locked
    intro s locked left
    obtain ⟨k, runs | reaps⟩ := locked.progress some_ left
    · exact ⟨.run k, trivial, runs⟩
    · exact ⟨.reap k, trivial, reaps⟩

/-- Two children and one processor: the second one waits until the first has been waited for. -/
theorem import_progress_two :
    ∃ more, more.length ≤ (run Import.step (Import.start [[], []] 1 fun _ => 1)
        [.run 0, .run 1, .run 0]).work ∧ (∀ e ∈ more, Event.regular e) ∧
      ∀ c ∈ (run Import.step (run Import.step (Import.start [[], []] 1 fun _ => 1)
        [.run 0, .run 1, .run 0]) more).children, c.reaped = true :=
  (import_progress [[], []] (by decide) (fun _ => 1) [.run 0, .run 1, .run 0] _ rfl).2.2.2

end Coinscope.Tools

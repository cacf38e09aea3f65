/-
# Theory.Access -- what a computation reads

A computation over a memory is a tree: it is done, or it reads the cell at an offset
and goes on with what it found there.  The offsets it reads on a given memory are then
data.

* `Access.value`, `Access.reads` -- the result, and the offsets read to get it.
* `Access.Within` -- every offset read is below a bound; one rule for each constructor.
* `Access.cells` -- cells in a row.
* `Access.agrees` -- cells compared one by one, up to the first that differs.
* `Access.before` -- cells up to the first that is the last.
* `Access.value_foldlM` -- a loop.
* `Access.Holds`, `Access.selfDelimiting` -- what is read back from any memory it stands in can be
  told from what follows it.
-/
import Mathlib.Data.List.Basic

namespace Coinscope.Theory

set_option autoImplicit false

/-- A computation that reads cells of type `β`. -/
inductive Access (β α : Type) where
  | done (result : α)
  | read (offset : Nat) (next : β → Access β α)

namespace Access

variable {β α γ : Type}

def bind : Access β α → (α → Access β γ) → Access β γ
  | .done result, f => f result
  | .read offset next, f => .read offset fun cell => (next cell).bind f

instance : Monad (Access β) where
  pure := .done
  bind := bind

/-- The result on a memory. -/
def value (memory : Nat → β) : Access β α → α
  | .done result => result
  | .read offset next => (next (memory offset)).value memory

/-- The offsets read on a memory, in order. -/
def reads (memory : Nat → β) : Access β α → List Nat
  | .done _ => []
  | .read offset next => offset :: (next (memory offset)).reads memory

@[simp] theorem value_pure (memory : Nat → β) (result : α) :
    (pure result : Access β α).value memory = result := rfl

@[simp] theorem reads_pure (memory : Nat → β) (result : α) :
    (pure result : Access β α).reads memory = [] := rfl

@[simp] theorem value_bind (memory : Nat → β) (x : Access β α) (f : α → Access β γ) :
    (x >>= f).value memory = (f (x.value memory)).value memory := by
  induction x with
  | done result => rfl
  | read offset next ih => exact ih (memory offset)

@[simp] theorem reads_bind (memory : Nat → β) (x : Access β α) (f : α → Access β γ) :
    (x >>= f).reads memory = x.reads memory ++ (f (x.value memory)).reads memory := by
  induction x with
  | done result => rfl
  | read offset next ih => exact congrArg (offset :: ·) (ih (memory offset))

/-! ## Cells in a row -/

/-- The cell at an offset. -/
def cell (offset : Nat) : Access β β := .read offset .done

/-- `n` cells from an offset on. -/
def cells (offset : Nat) : Nat → Access β (List β)
  | 0 => pure []
  | n + 1 => do
      let first ← cell offset
      let rest ← cells (offset + 1) n
      pure (first :: rest)

@[simp] theorem value_cell (memory : Nat → β) (offset : Nat) :
    (cell offset).value memory = memory offset := rfl

@[simp] theorem reads_cell (memory : Nat → β) (offset : Nat) :
    (cell offset).reads memory = [offset] := rfl

theorem value_cells (memory : Nat → β) (offset n : Nat) :
    (cells offset n).value memory = (List.range n).map fun i => memory (offset + i) := by
  induction n generalizing offset with
  | zero => rfl
  | succ n ih =>
      have shift : (List.range n).map (fun i => memory (offset + 1 + i)) =
          (List.range n).map (fun i => memory (offset + (i + 1))) := by
        apply List.map_congr_left
        intro i _
        rw [Nat.add_assoc, Nat.add_comm 1 i]
      simp only [cells, value_bind, value_cell, value_pure, ih, shift, List.range_succ_eq_map,
        List.map_cons, List.map_map, Nat.add_zero]
      rfl

theorem reads_cells (memory : Nat → β) (offset n : Nat) :
    (cells offset n).reads memory = List.range' offset n := by
  induction n generalizing offset with
  | zero => rfl
  | succ n ih =>
      simp only [cells, reads_bind, reads_cell, reads_pure, ih, List.append_nil, List.range'_succ,
        List.singleton_append]

/-- The cells from an offset on are these; nothing is read behind one that differs. -/
def agrees [DecidableEq β] (offset : Nat) : List β → Access β Bool
  | [] => pure true
  | expected :: rest => do
      let found ← cell offset
      if found = expected then agrees (offset + 1) rest else pure false

theorem value_agrees [DecidableEq β] (memory : Nat → β) (offset : Nat) (expected : List β) :
    (agrees offset expected).value memory =
      decide ((List.range expected.length).map (fun i => memory (offset + i)) = expected) := by
  induction expected generalizing offset with
  | nil => rfl
  | cons first rest ih =>
      have shift : (List.range rest.length).map (fun i => memory (offset + (i + 1))) =
          (List.range rest.length).map (fun i => memory (offset + 1 + i)) := by
        apply List.map_congr_left
        intro i _
        rw [Nat.add_right_comm, Nat.add_assoc]
      rw [agrees, value_bind, value_cell, List.length_cons, List.range_succ_eq_map, List.map_cons,
        List.map_map, Function.comp_def, shift]
      by_cases same : memory offset = first
      · simp [same, ih]
      · simp [same]

/-- The cells from an offset on that stand before the first `last`, at most `fuel` of them. -/
def before [DecidableEq β] (last : β) : Nat → Nat → Access β (List β)
  | 0, _ => pure []
  | fuel + 1, offset => do
      let found ← cell offset
      if found = last then pure []
      else do
        let rest ← before last fuel (offset + 1)
        pure (found :: rest)

theorem value_before [DecidableEq β] (memory : Nat → β) (last : β) (fuel offset : Nat) :
    (before last fuel offset).value memory =
      ((List.range fuel).map fun i => memory (offset + i)).takeWhile (· ≠ last) := by
  induction fuel generalizing offset with
  | zero => rfl
  | succ fuel ih =>
      have shift : (List.range fuel).map (fun i => memory (offset + (i + 1))) =
          (List.range fuel).map (fun i => memory (offset + 1 + i)) := by
        apply List.map_congr_left
        intro i _
        rw [Nat.add_right_comm, Nat.add_assoc]
      rw [before, value_bind, value_cell, List.range_succ_eq_map, List.map_cons, List.map_map,
        Function.comp_def, shift]
      by_cases same : memory offset = last
      · simp [same]
      · simp [same, ih]

/-! ## Loops -/

theorem value_foldlM {ι : Type} (memory : Nat → β) (body : α → ι → Access β α) (list : List ι)
    (start : α) :
    (list.foldlM body start).value memory =
      list.foldl (fun s i => (body s i).value memory) start := by
  induction list generalizing start with
  | nil => rfl
  | cons i rest ih => rw [List.foldlM_cons, value_bind, ih, List.foldl_cons]

/-! ## Bounds -/

/-- Every offset read is below the bound. -/
def Within (memory : Nat → β) (bound : Nat) (x : Access β α) : Prop :=
  ∀ offset ∈ x.reads memory, offset < bound

theorem within_pure (memory : Nat → β) (bound : Nat) (result : α) :
    Within memory bound (pure result : Access β α) := by
  rintro offset member
  cases member

theorem within_bind {memory : Nat → β} {bound : Nat} {x : Access β α} {f : α → Access β γ} :
    Within memory bound (x >>= f) ↔
      Within memory bound x ∧ Within memory bound (f (x.value memory)) := by
  simp only [Within, reads_bind, List.mem_append]
  constructor
  · intro all
    exact ⟨fun o here => all o (Or.inl here), fun o here => all o (Or.inr here)⟩
  · rintro ⟨first, second⟩ o (here | here)
    · exact first o here
    · exact second o here

theorem within_cell {memory : Nat → β} {bound offset : Nat} :
    Within memory bound (cell offset) ↔ offset < bound := by
  simp [Within]

theorem within_cells {memory : Nat → β} {bound offset n : Nat} :
    Within memory bound (cells offset n) ↔ n = 0 ∨ offset + n ≤ bound := by
  simp only [Within, reads_cells, List.mem_range'_1]
  constructor
  · intro all
    cases n with
    | zero => exact Or.inl rfl
    | succ n =>
        right
        have last := all (offset + n) ⟨by omega, by omega⟩
        omega
  · rintro (rfl | inside) o ⟨low, high⟩
    · omega
    · omega

theorem within_agrees [DecidableEq β] {memory : Nat → β} {bound offset : Nat} {expected : List β}
    (inside : offset + expected.length ≤ bound) : Within memory bound (agrees offset expected) := by
  induction expected generalizing offset with
  | nil => exact within_pure _ _ _
  | cons first rest ih =>
      rw [List.length_cons] at inside
      refine within_bind.2 ⟨within_cell.2 (by omega), ?_⟩
      split
      · exact ih (by omega)
      · exact within_pure _ _ _

/-- The search stays below the bound if it finds the last cell there, or gives up. -/
theorem within_before [DecidableEq β] {memory : Nat → β} {bound : Nat} {last : β}
    {fuel offset : Nat} :
    Within memory bound (before last fuel offset) ↔
      fuel = 0 ∨ offset + fuel ≤ bound ∨
        ∃ i, i < fuel ∧ offset + i < bound ∧ memory (offset + i) = last := by
  induction fuel generalizing offset with
  | zero => simp [before, within_pure]
  | succ fuel ih =>
      rw [before, within_bind, within_cell, value_cell]
      by_cases same : memory offset = last
      · rw [if_pos same]
        constructor
        · rintro ⟨inside, -⟩
          exact Or.inr (Or.inr ⟨0, by omega, by omega, same⟩)
        · rintro (no | inside | ⟨i, _, inside, -⟩)
          · omega
          · exact ⟨by omega, within_pure _ _ _⟩
          · exact ⟨by omega, within_pure _ _ _⟩
      · rw [if_neg same, within_bind, ih]
        constructor
        · rintro ⟨inside, none_ | rest | ⟨i, few, there, found⟩, -⟩
          · exact Or.inr (Or.inl (by omega))
          · exact Or.inr (Or.inl (by omega))
          · refine Or.inr (Or.inr ⟨i + 1, by omega, by omega, ?_⟩)
            rw [← found, Nat.add_right_comm, Nat.add_assoc]
        · rintro (no | inside | ⟨i, few, there, found⟩)
          · omega
          · exact ⟨by omega, Or.inr (Or.inl (by omega)), within_pure _ _ _⟩
          · cases i with
            | zero => exact absurd found same
            | succ i =>
                refine ⟨by omega, Or.inr (Or.inr ⟨i, by omega, by omega, ?_⟩), within_pure _ _ _⟩
                rw [← found, Nat.add_right_comm, Nat.add_assoc]

/-! ## What stands in a memory -/

/-- The cells from an offset on are these. -/
def Holds (memory : Nat → β) (offset : Nat) (list : List β) : Prop :=
  (cells offset list.length).value memory = list

@[simp] theorem length_value_cells (memory : Nat → β) (offset n : Nat) :
    ((cells offset n).value memory).length = n := by
  rw [value_cells, List.length_map, List.length_range]

theorem value_cells_add (memory : Nat → β) (offset m n : Nat) :
    (cells offset (m + n)).value memory =
      (cells offset m).value memory ++ (cells (offset + m) n).value memory := by
  rw [value_cells, value_cells, value_cells, List.range_add, List.map_append, List.map_map]
  simp only [Function.comp_def, Nat.add_assoc]

theorem holds_append {memory : Nat → β} {offset : Nat} {a b : List β} :
    Holds memory offset (a ++ b) ↔ Holds memory offset a ∧ Holds memory (offset + a.length) b := by
  rw [Holds, Holds, Holds, List.length_append, value_cells_add]
  constructor
  · exact fun same => List.append_inj same (length_value_cells ..)
  · rintro ⟨front, behind⟩
    rw [front, behind]

theorem holds_cons {memory : Nat → β} {offset : Nat} {first : β} {rest : List β} :
    Holds memory offset (first :: rest) ↔
      memory offset = first ∧ Holds memory (offset + 1) rest := by
  have one : Holds memory offset [first] ↔ memory offset = first := by
    rw [Holds, List.length_singleton, value_cells]
    simp
  rw [← List.singleton_append, holds_append, one, List.length_singleton]

/-- A list as a memory. -/
def ofList [Inhabited β] (list : List β) (offset : Nat) : β := list.getD offset default

theorem holds_ofList [Inhabited β] (front behind : List β) :
    Holds (ofList (front ++ behind)) 0 front := by
  rw [Holds, value_cells]
  apply List.ext_getElem
  · rw [List.length_map, List.length_range]
  · intro i inside inside'
    simp [ofList, List.getElem?_append_left inside', List.getElem?_eq_getElem inside']

/-- Codes that can be split off the front of whatever follows them. -/
def SelfDelimiting (ok : α → Prop) (encode : α → List β) : Prop :=
  ∀ a b rest rest', ok a → ok b → encode a ++ rest = encode b ++ rest' → a = b ∧ rest = rest'

/-- A code that is read back, with its length, from any memory it stands in is self-delimiting. -/
theorem selfDelimiting [Inhabited β] {ok : α → Prop} {encode : α → List β}
    {decode : Access β (γ × Nat)} {view : α → γ} (faithful : Function.Injective view)
    (back : ∀ memory a, ok a → Holds memory 0 (encode a) →
      decode.value memory = (view a, (encode a).length)) :
    SelfDelimiting ok encode := by
  intro a b rest rest' okA okB same
  have first := back _ a okA (holds_ofList (encode a) rest)
  rw [same, back _ b okB (holds_ofList (encode b) rest')] at first
  obtain rfl := faithful (congrArg Prod.fst first)
  exact ⟨rfl, List.append_cancel_left same⟩

end Access

end Coinscope.Theory

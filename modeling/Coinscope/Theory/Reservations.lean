/-
# Theory.Reservations -- ranges out of a counter

Processes that share a counter take numbers from it in ranges: one number is drawn, and who
draws it may move the counter on while nobody else can.  What keeps the ranges apart is that
the counter is behind all of them.

* `Issued` -- the ranges that are handed out, and the counter behind them.
* `Issued.draw`, `Issued.extend` -- the two steps.
* `nodup_of_issued` -- holders that stay in their ranges use no number twice.
-/
import Mathlib.Data.List.Nodup

namespace Coinscope.Theory.Reservations

set_option autoImplicit false

universe u

variable {ι : Type u}

/-- The ranges `[first, behind)` of the holders are in front of the counter, and apart. -/
structure Issued (range : ι → Option (Nat × Nat)) (next : Nat) : Prop where
  below : ∀ i first behind, range i = some (first, behind) → first < behind ∧ behind ≤ next
  apart : ∀ i j first behind first' behind', i ≠ j → range i = some (first, behind) →
    range j = some (first', behind') → behind ≤ first' ∨ behind' ≤ first

theorem issued_none (next : Nat) : Issued (fun _ : ι => none) next where
  below := by
    intro i first behind none_
    cases none_
  apart := by
    intro i j first behind first' behind' _ none_
    cases none_

variable {range range' : ι → Option (Nat × Nat)} {next : Nat}

/-- A holder whose range ends in front of a new counter, where the others end in front of
its range, keeps them apart. -/
theorem Issued.place (issued : Issued range next) {i : ι} {first behind : Nat}
    (proper : first < behind) (here : range' i = some (first, behind))
    (others : ∀ j, j ≠ i → range' j = range j)
    (front : ∀ j first' behind', j ≠ i → range j = some (first', behind') → behind' ≤ first) :
    Issued range' behind := by
  have earlier : ∀ j first' behind', j ≠ i → range' j = some (first', behind') →
      first' < behind' ∧ behind' ≤ first := by
    intro j first' behind' other there
    rw [others j other] at there
    exact ⟨(issued.below j first' behind' there).1, front j first' behind' other there⟩
  refine ⟨?_, ?_⟩
  · intro j first' behind' there
    by_cases same : j = i
    · rw [same, here] at there
      cases there
      exact ⟨proper, Nat.le_refl _⟩
    · obtain ⟨proper', inFront⟩ := earlier j first' behind' same there
      omega
  · intro j k first' behind' first'' behind'' different one two
    by_cases left : j = i
    · have right : k ≠ i := fun same => different (left.trans same.symm)
      rw [left, here] at one
      cases one
      exact Or.inr (earlier k first'' behind'' right two).2
    · by_cases right : k = i
      · rw [right, here] at two
        cases two
        exact Or.inl (earlier j first' behind' left one).2
      · rw [others j left] at one
        rw [others k right] at two
        exact issued.apart j k first' behind' first'' behind'' different one two

/-- A number is drawn. -/
theorem Issued.draw (issued : Issued range next) {i : ι} (here : range' i = some (next, next + 1))
    (others : ∀ j, j ≠ i → range' j = range j) : Issued range' (next + 1) :=
  issued.place (Nat.lt_succ_self next) here others
    fun j first behind _ there => (issued.below j first behind there).2

/-- The holder of the number drawn last takes `more` numbers behind it. -/
theorem Issued.extend {first : Nat} (issued : Issued range (first + 1)) {i : ι} (more : Nat)
    (last : range i = some (first, first + 1)) (here : range' i = some (first, first + more + 1))
    (others : ∀ j, j ≠ i → range' j = range j) : Issued range' (first + more + 1) := by
  refine issued.place (by omega) here others ?_
  intro j first' behind' other there
  have inFront := issued.below j first' behind' there
  rcases issued.apart j i first' behind' first (first + 1) other there last with left | right
  · exact left
  · omega

/-- What the holders at the places of a list use of their ranges has no number twice. -/
theorem nodup_of_issued {α : Type u} {list : List α} {range : α → Option (Nat × Nat)}
    {used : α → List Nat} (issued : Issued (fun n : Nat => (list[n]?).bind range) next)
    (once : ∀ a ∈ list, (used a).Nodup)
    (inside : ∀ a ∈ list, ∀ n ∈ used a, ∃ first behind, range a = some (first, behind) ∧
      first ≤ n ∧ n < behind) : (list.flatMap used).Nodup := by
  rw [List.nodup_flatMap]
  refine ⟨once, ?_⟩
  rw [List.pairwise_iff_getElem]
  intro i j before within order
  apply List.disjoint_left.2
  intro n left right
  obtain ⟨first, behind, one, lower, upper⟩ := inside _ (List.getElem_mem before) n left
  obtain ⟨first', behind', two, lower', upper'⟩ := inside _ (List.getElem_mem within) n right
  have apart := issued.apart i j first behind first' behind' (Nat.ne_of_lt order)
    (by simp only [List.getElem?_eq_getElem before, Option.bind_some, one])
    (by simp only [List.getElem?_eq_getElem within, Option.bind_some, two])
  omega

end Coinscope.Theory.Reservations

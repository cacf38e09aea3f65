/-
# Theory.Caches -- a cache in front of a lookup

A lookup finds the entry of a value in a store, and adds one where there is none.  A cache in
front of it keeps what was found under a key of the value, and asks the store for new keys
only.  What it answers is the entry of the first value that had the key, so it is right for
all values exactly if no two of them share a key.

* `Lawful` -- what a lookup has to do.
* `cached`, `answers` -- the lookup behind a cache, once and for a sequence of values.
* `Remembers` -- the invariant: what is in the cache is the entry of an earlier value.
* `answers_right_iff` -- the sequences that are answered right.
-/
import Mathlib.Data.Set.Function
import Mathlib.Logic.Function.Basic

namespace Coinscope.Theory.Caches

set_option autoImplicit false

universe u v w x

variable {σ : Type u} {α : Type v} {β : Type w} {κ : Type x}

/-- A lookup that returns the entry of the value, loses no other and gives no two values one
entry. -/
structure Lawful (fetch : σ → α → Option (β × σ)) (Entry : σ → α → β → Prop) : Prop where
  finds : ∀ s a, ∃ b s', fetch s a = some (b, s') ∧ Entry s' a b
  keeps : ∀ s a b s', fetch s a = some (b, s') → ∀ c d, Entry s c d → Entry s' c d
  identifies : ∀ s a a' b, Entry s a b → Entry s a' b → a = a'

/-- A store with a cache in front of it. -/
structure Cached (σ : Type u) (κ : Type x) (β : Type w) where
  store : σ
  cache : κ → Option β

section Lookup

variable [DecidableEq κ] (fetch : σ → α → Option (β × σ)) (key : α → κ)

/-- The lookup behind the cache. -/
def cached (s : Cached σ κ β) (a : α) : Option (β × Cached σ κ β) :=
  match s.cache (key a) with
  | some b => some (b, s)
  | none =>
      match fetch s.store a with
      | some (b, store) =>
          some (b, { store := store, cache := Function.update s.cache (key a) (some b) })
      | none => none

/-- A value that was asked for, what came back, and the store then. -/
structure Answer (α : Type v) (β : Type w) (σ : Type u) where
  value : α
  answer : β
  store : σ

/-- The answers to a sequence of values. -/
def answers : Cached σ κ β → List α → Option (List (Answer α β σ))
  | _, [] => some []
  | s, a :: rest =>
      match cached fetch key s a with
      | some (b, s') => (answers s' rest).map (⟨a, b, s'.store⟩ :: ·)
      | none => none

end Lookup

/-- The cache holds entries of earlier values, and one for each of their keys. -/
structure Remembers (key : α → κ) (Entry : σ → α → β → Prop) (s : Cached σ κ β)
    (earlier : List α) : Prop where
  entry : ∀ k b, s.cache k = some b → ∃ a ∈ earlier, key a = k ∧ Entry s.store a b
  known : ∀ a ∈ earlier, s.cache (key a) ≠ none

variable {fetch : σ → α → Option (β × σ)} {key : α → κ} {Entry : σ → α → β → Prop}
  {s : Cached σ κ β} {earlier : List α} {a : α} {b : β}

theorem remembers_nothing (store : σ) :
    Remembers key Entry { store := store, cache := fun _ => none } [] := by
  refine ⟨?_, ?_⟩
  · intro k b found
    cases found
  · intro a member
    cases member

/-- A value whose key is known adds nothing. -/
theorem Remembers.hit (remembers : Remembers key Entry s earlier)
    (found : s.cache (key a) = some b) : Remembers key Entry s (a :: earlier) := by
  refine ⟨?_, ?_⟩
  · intro k c kept
    obtain ⟨first, there, same, entry⟩ := remembers.entry k c kept
    exact ⟨first, List.mem_cons_of_mem a there, same, entry⟩
  · intro c member
    rcases List.mem_cons.1 member with rfl | there
    · rw [found]
      exact Option.some_ne_none b
    · exact remembers.known c there

/-- A value with a new key has its entry kept. -/
theorem Remembers.miss [DecidableEq κ] (lawful : Lawful fetch Entry)
    (remembers : Remembers key Entry s earlier) {store : σ}
    (found : fetch s.store a = some (b, store)) (entry : Entry store a b) :
    Remembers key Entry
      { store := store, cache := Function.update s.cache (key a) (some b) } (a :: earlier) := by
  refine ⟨?_, ?_⟩
  · intro k c kept
    dsimp only at kept ⊢
    by_cases here : k = key a
    · rw [here, Function.update_self] at kept
      cases kept
      exact ⟨a, List.mem_cons_self, here.symm, entry⟩
    · rw [Function.update_of_ne here] at kept
      obtain ⟨first, there, same, old⟩ := remembers.entry k c kept
      exact ⟨first, List.mem_cons_of_mem a there, same,
        lawful.keeps s.store a b store found first c old⟩
  · intro c member
    dsimp only
    by_cases here : key c = key a
    · rw [here, Function.update_self]
      exact Option.some_ne_none b
    · rw [Function.update_of_ne here]
      rcases List.mem_cons.1 member with rfl | there
      · exact absurd rfl here
      · exact remembers.known c there

/-- A kept entry is right for a value exactly if the value is the one it was kept for. -/
theorem Remembers.right_of_hit (lawful : Lawful fetch Entry)
    (remembers : Remembers key Entry s earlier) (apart : Set.InjOn key {c | c ∈ earlier})
    (found : s.cache (key a) = some b) :
    Entry s.store a b ↔ Set.InjOn key {c | c ∈ a :: earlier} := by
  obtain ⟨first, there, same, entry⟩ := remembers.entry (key a) b found
  constructor
  · intro right
    have again : a = first := lawful.identifies s.store a first b right entry
    have inside : {c | c ∈ a :: earlier} ⊆ {c | c ∈ earlier} := by
      intro c member
      rcases List.mem_cons.1 member with rfl | later
      · exact again ▸ there
      · exact later
    exact apart.mono inside
  · intro separate
    have again : first = a :=
      separate (List.mem_cons_of_mem a there) List.mem_cons_self same
    exact again ▸ entry

/-- A value with a new key shares it with no earlier one. -/
theorem Remembers.apart_of_miss (remembers : Remembers key Entry s earlier)
    (apart : Set.InjOn key {c | c ∈ earlier}) (new : s.cache (key a) = none) :
    Set.InjOn key {c | c ∈ a :: earlier} := by
  have other : ∀ c ∈ earlier, key c ≠ key a := by
    intro c there same
    exact remembers.known c there (same ▸ new)
  intro c left d right same
  rcases List.mem_cons.1 left with rfl | inC <;> rcases List.mem_cons.1 right with rfl | inD
  · rfl
  · exact absurd same.symm (other d inD)
  · exact absurd same (other c inC)
  · exact apart inC inD same

variable [DecidableEq κ]

/-- One more value. -/
theorem cached_spec (lawful : Lawful fetch Entry) (remembers : Remembers key Entry s earlier)
    (a : α) :
    ∃ b s', cached fetch key s a = some (b, s') ∧ Remembers key Entry s' (a :: earlier) ∧
      (Set.InjOn key {c | c ∈ earlier} →
        (Entry s'.store a b ↔ Set.InjOn key {c | c ∈ a :: earlier})) := by
  cases hit : s.cache (key a) with
  | some b =>
      refine ⟨b, s, by simp only [cached, hit], remembers.hit hit, ?_⟩
      intro apart
      exact remembers.right_of_hit lawful apart hit
  | none =>
      obtain ⟨b, store, found, entry⟩ := lawful.finds s.store a
      refine ⟨b, _, by simp only [cached, hit, found], remembers.miss lawful found entry, ?_⟩
      intro apart
      exact iff_of_true entry (remembers.apart_of_miss apart hit)

/-- A sequence of values behind earlier ones. -/
theorem answers_spec (lawful : Lawful fetch Entry) (calls : List α) :
    ∀ (s : Cached σ κ β) (earlier : List α), Remembers key Entry s earlier →
      ∃ list, answers fetch key s calls = some list ∧ list.map Answer.value = calls ∧
        (Set.InjOn key {c | c ∈ earlier} →
          ((∀ x ∈ list, Entry x.store x.value x.answer) ↔
            Set.InjOn key {c | c ∈ earlier ∨ c ∈ calls})) := by
  induction calls with
  | nil =>
      intro s earlier _
      refine ⟨[], rfl, rfl, ?_⟩
      intro apart
      exact iff_of_true (by simp) (by simpa using apart)
  | cons a rest ih =>
      intro s earlier remembers
      obtain ⟨b, s', step, remembers', right⟩ := cached_spec lawful remembers a
      obtain ⟨more, result, values, rights⟩ := ih s' (a :: earlier) remembers'
      refine ⟨⟨a, b, s'.store⟩ :: more, by simp [answers, step, result], by simp [values], ?_⟩
      intro apart
      have regroup : {c | c ∈ earlier ∨ c ∈ a :: rest} = {c | c ∈ a :: earlier ∨ c ∈ rest} := by
        ext c
        simp only [Set.mem_ofPred_eq, List.mem_cons]
        exact or_left_comm.trans or_assoc.symm
      rw [regroup, List.forall_mem_cons]
      by_cases apart' : Set.InjOn key {c | c ∈ a :: earlier}
      · rw [rights apart']
        exact and_iff_right ((right apart).2 apart')
      · -- The answer is wrong, and the two values with one key are among the calls.
        refine iff_of_false ?_ ?_
        · intro all
          exact apart' ((right apart).1 all.1)
        · intro separate
          exact apart' (separate.mono fun c member => Or.inl member)

/-- Behind an empty cache every value is answered with its entry exactly if no two of them
share a key. -/
theorem answers_right_iff (lawful : Lawful fetch Entry) (key : α → κ) (store : σ)
    (calls : List α) :
    ∃ list, answers fetch key { store := store, cache := fun _ => none } calls = some list ∧
      list.map Answer.value = calls ∧
      ((∀ x ∈ list, Entry x.store x.value x.answer) ↔ Set.InjOn key {c | c ∈ calls}) := by
  have empty : Remembers key Entry { store := store, cache := fun _ => none } [] :=
    remembers_nothing store
  obtain ⟨list, result, values, right⟩ := answers_spec lawful calls _ [] empty
  refine ⟨list, result, values, ?_⟩
  simpa using right (by simp)

end Coinscope.Theory.Caches

/-
# Theory.Tables -- counting the entries of a table

A process that keeps its objects in a table by key counts those in some state.  An
insertion under a new key counts one entry more, one over an old entry trades it for
the new one, an erasure counts one less, and dropping entries that do not count changes
nothing.

* `count` -- the entries that meet a test.
* `count_insert_new`, `count_insert_over`, `count_erase`, `count_filter` -- the updates.
* `getElem?_insert`, `getElem?_erase`, `mem_insert`, `mem_erase` -- what is there behind them.
* `countP_eraseIdx`, `countP_set_over`, `sum_set_over` -- the same for a list by position.
* `find?_key_some`, `exists_find?_key`, `find?_key_iff` -- searching a list by key.
* `find?_append_other`, `find?_append_new` -- searching it behind an insertion.
-/
import Std.Data.TreeMap.Lemmas
import Mathlib.Algebra.GroupWithZero.Nat
import Mathlib.Data.List.Nodup
import Mathlib.Data.List.Perm.Basic

namespace Coinscope.Theory.Tables

open Std (TreeMap)

set_option autoImplicit false

universe u v

variable {α : Type u} {β : Type v} [Ord α] [Std.TransOrd α] [Std.LawfulEqOrd α]

/-- How many entries of the table meet the test. -/
def count (test : β → Bool) (table : TreeMap α β) : Nat :=
  table.toList.countP fun entry => test entry.2

omit [Std.TransOrd α] [Std.LawfulEqOrd α] in
@[simp] theorem count_empty (test : β → Bool) : count test (∅ : TreeMap α β) = 0 := by
  rfl

variable {test : β → Bool} {table : TreeMap α β} {k : α}

/-- An insertion counts the new entry and those under the other keys. -/
theorem count_insert [DecidableEq α] (test : β → Bool) (table : TreeMap α β) (k : α) (v : β) :
    count test (table.insert k v) =
      (table.toList.filter fun entry => decide (k ≠ entry.1)).countP (fun entry => test entry.2) +
        (if test v then 1 else 0) := by
  have same := (TreeMap.toList_insert_perm (t := table) (k := k) (v := v)).countP_eq
    (fun entry : α × β => test entry.2)
  rw [count, same, List.countP_cons]
  congr 2
  apply List.filter_congr
  intro entry _
  simp

theorem count_insert_new (fresh : table[k]? = none) (v : β) :
    count test (table.insert k v) = count test table + (if test v then 1 else 0) := by
  classical
  rw [count_insert, count]
  congr 1
  rw [List.filter_eq_self.2]
  intro entry member
  rw [decide_eq_true_eq]
  rintro rfl
  rw [TreeMap.mem_toList_iff_getElem?_eq_some.1 member] at fresh
  cases fresh

theorem count_insert_over {u : β} (found : table[k]? = some u) (v : β) :
    count test (table.insert k v) + (if test u then 1 else 0) =
      count test table + (if test v then 1 else 0) := by
  classical
  -- writing the old entry again changes nothing, and counts it
  have again : count test (table.insert k u) = count test table := by
    have same : (table.insert k u).Equiv table := by
      apply TreeMap.Equiv.of_forall_constGet?_eq
      intro k'
      rw [TreeMap.getElem?_insert]
      split
      · rename_i equal
        rw [← Std.LawfulEqCmp.compare_eq_iff_eq.1 equal, found]
      · rfl
    rw [count, count, same.toList_eq]
  rw [count_insert] at again ⊢
  omega

/-- Behind an erasure the other entries are there. -/
theorem getElem?_erase [DecidableEq α] (table : TreeMap α β) (k i : α) :
    (table.erase k)[i]? = if i = k then none else table[i]? := by
  simp only [TreeMap.getElem?_erase, Std.LawfulEqCmp.compare_eq_iff_eq]
  by_cases same : k = i
  · rw [if_pos same, if_pos same.symm]
  · rw [if_neg same, if_neg (Ne.symm same)]

/-- Behind an insertion the entry is there, and the others are. -/
theorem getElem?_insert [DecidableEq α] (table : TreeMap α β) (k i : α) (v : β) :
    (table.insert k v)[i]? = if i = k then some v else table[i]? := by
  simp only [TreeMap.getElem?_insert, Std.LawfulEqCmp.compare_eq_iff_eq]
  by_cases same : k = i
  · rw [if_pos same, if_pos same.symm]
  · rw [if_neg same, if_neg (Ne.symm same)]

theorem mem_insert (table : TreeMap α β) (k i : α) (v : β) :
    i ∈ table.insert k v ↔ i = k ∨ i ∈ table := by
  rw [TreeMap.mem_insert, Std.LawfulEqCmp.compare_eq_iff_eq, eq_comm]

theorem mem_erase (table : TreeMap α β) (k i : α) : i ∈ table.erase k ↔ i ≠ k ∧ i ∈ table := by
  rw [TreeMap.mem_erase, ne_eq, Std.LawfulEqCmp.compare_eq_iff_eq, eq_comm]

/-- An erasure counts one entry less, if that one counted. -/
theorem count_erase {u : β} (found : table[k]? = some u) :
    count test (table.erase k) + (if test u then 1 else 0) = count test table := by
  classical
  have fresh : (table.erase k)[k]? = none := by rw [getElem?_erase, if_pos rfl]
  have again : ((table.erase k).insert k u).Equiv table := by
    apply TreeMap.Equiv.of_forall_constGet?_eq
    intro i
    rw [TreeMap.getElem?_insert]
    split
    · rename_i equal
      rw [← Std.LawfulEqCmp.compare_eq_iff_eq.1 equal, found]
    · rename_i other
      rw [getElem?_erase, if_neg]
      rintro rfl
      exact other Std.ReflCmp.compare_self
  rw [← count_insert_new fresh u, count, count, again.toList_eq]

theorem count_filter {keep : α → β → Bool}
    (kept : ∀ k v, table[k]? = some v → test v = true → keep k v = true) :
    count test (table.filter keep) = count test table := by
  rw [count, count, TreeMap.toList_filter, List.countP_filter]
  apply List.countP_congr
  intro entry member
  have there := TreeMap.mem_toList_iff_getElem?_eq_some.1 member
  simp only [Bool.and_eq_true]
  exact ⟨fun both => both.1, fun counts => ⟨counts, kept _ _ there counts⟩⟩

/-! ## Lists by position -/

section Lists

variable {γ : Type u} {list : List γ} {n : Nat} {a : γ}

/-- Dropping an entry of a list counts one less, if that one counted. -/
theorem countP_eraseIdx (counts : γ → Bool) (found : list[n]? = some a) :
    (list.eraseIdx n).countP counts + (if counts a then 1 else 0) = list.countP counts := by
  obtain ⟨inside, rfl⟩ := List.getElem?_eq_some_iff.1 found
  rw [← (List.getElem_cons_eraseIdx_perm inside).countP_eq counts, List.countP_cons]

/-- Writing over an entry trades it for the new one. -/
theorem countP_set_over (counts : γ → Bool) (found : list[n]? = some a) (b : γ) :
    (list.set n b).countP counts + (if counts a then 1 else 0) =
      list.countP counts + (if counts b then 1 else 0) := by
  obtain ⟨inside, -⟩ := List.getElem?_eq_some_iff.1 found
  have dropped := countP_eraseIdx counts found
  rw [(List.set_perm_cons_eraseIdx inside b).countP_eq counts, List.countP_cons]
  omega

/-- The same for a sum. -/
theorem sum_set_over (size : γ → Nat) (found : list[n]? = some a) (b : γ) :
    ((list.set n b).map size).sum + size a = (list.map size).sum + size b := by
  obtain ⟨inside, rfl⟩ := List.getElem?_eq_some_iff.1 found
  have before := ((List.getElem_cons_eraseIdx_perm inside).map size).sum_nat
  have behind := ((List.set_perm_cons_eraseIdx inside b).map size).sum_nat
  rw [List.map_cons, List.sum_cons] at before behind
  omega

end Lists

/-! ## Lists by key -/

section Keys

variable {γ : Type u} {κ : Type v} [DecidableEq κ] {key : γ → κ} {list : List γ} {k : κ} {r : γ}

theorem find?_key_some (found : list.find? (fun row => decide (key row = k)) = some r) :
    r ∈ list ∧ key r = k :=
  ⟨List.mem_of_find?_eq_some found, of_decide_eq_true (List.find?_some found :)⟩

theorem exists_find?_key (key : γ → κ) (member : r ∈ list) :
    ∃ first, list.find? (fun row => decide (key row = key r)) = some first := by
  apply Option.isSome_iff_exists.1
  rw [List.find?_isSome]
  exact ⟨r, member, decide_eq_true rfl⟩

/-- Where no two rows have the same key, the row that is found is the one that has it. -/
theorem find?_key_iff (nodup : (list.map key).Nodup) :
    list.find? (fun row => decide (key row = k)) = some r ↔ r ∈ list ∧ key r = k := by
  constructor
  · exact find?_key_some
  · rintro ⟨member, rfl⟩
    obtain ⟨first, found⟩ := exists_find?_key key member
    obtain ⟨there, same⟩ := find?_key_some found
    rw [found, List.inj_on_of_nodup_map nodup there member same]

/-- Rows with other keys that are added behind are not found. -/
theorem find?_append_other {more : List γ} (other : ∀ r ∈ more, key r ≠ k) :
    (list ++ more).find? (fun row => decide (key row = k)) =
      list.find? fun row => decide (key row = k) := by
  have nothing : more.find? (fun row => decide (key row = k)) = none := by
    rw [List.find?_eq_none]
    intro r member
    simpa using other r member
  rw [List.find?_append, nothing, Option.or_none]

variable (key r) in
/-- The first row with a new key is the one that is found. -/
theorem find?_append_new (fresh : ∀ old ∈ list, key old ≠ key r) :
    (list ++ [r]).find? (fun row => decide (key row = key r)) = some r := by
  have nothing : list.find? (fun row => decide (key row = key r)) = none := by
    rw [List.find?_eq_none]
    intro old member
    simpa using fresh old member
  rw [List.find?_append, nothing]
  simp

end Keys

end Coinscope.Theory.Tables

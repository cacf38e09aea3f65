/-
# Theory.Histories -- what was known when something happened

A history lists what happened, oldest first.  `Each S` says that every entry met `S`
against the entries before it, which is how "a later request finds what was stored
earlier" is written about a system that goes on.

* `each_append_singleton` -- one more entry has to be checked against what there was.
* `each_of_filter` -- what is known of an entry in a part of the history.
* `foldl_appends` -- what a loop writes to a history, from what its body writes.
-/

namespace Coinscope.Theory.Histories

set_option autoImplicit false

universe u

variable {α : Type u} {S : List α → α → Prop}

/-- Every entry meets `S` against the entries before it. -/
def Each (S : List α → α → Prop) (history : List α) : Prop :=
  ∀ before entry after, history = before ++ entry :: after → S before entry

theorem each_nil : Each S [] := by
  intro before entry after split
  exact absurd split.symm (List.append_ne_nil_of_right_ne_nil _ (List.cons_ne_nil _ _))

theorem each_append_singleton {history : List α} {last : α} (each : Each S history)
    (now : S history last) : Each S (history ++ [last]) := by
  intro before entry after split
  -- the entry is the last one, or it was in the history already
  rcases List.eq_nil_or_concat after with rfl | ⟨rest, final, rfl⟩
  · obtain ⟨rfl, same⟩ := List.append_inj' split rfl
    cases same
    exact now
  · have shorter : history ++ [last] = (before ++ entry :: rest) ++ [final] := by
      rw [split]
      simp
    obtain ⟨old, -⟩ := List.append_inj' shorter rfl
    exact each before entry rest old

/-- An entry of a part of the history met `S` against what was before it in the whole. -/
theorem each_of_filter {history : List α} (each : Each S history) (keep : α → Bool)
    {before after : List α} {entry : α}
    (split : history.filter keep = before ++ entry :: after) :
    ∃ earlier, earlier.filter keep = before ∧ S earlier entry := by
  obtain ⟨front, back, rfl, kept, rest⟩ := List.filter_eq_append_iff.1 split
  obtain ⟨skipped, later, rfl, passed, -, -⟩ := List.filter_eq_cons_iff.1 rest
  refine ⟨front ++ skipped, ?_, each (front ++ skipped) entry later (by simp)⟩
  rw [List.filter_append, kept, List.filter_eq_nil_iff.2 passed, List.append_nil]

theorem foldl_appends {σ ι : Type u} {body : σ → ι → σ} {history : σ → List α} {part : ι → List α}
    (each : ∀ s i, history (body s i) = history s ++ part i) (list : List ι) (s : σ) :
    history (list.foldl body s) = history s ++ list.flatMap part := by
  induction list generalizing s with
  | nil => simp
  | cons i rest ih => rw [List.foldl_cons, ih, each, List.flatMap_cons, List.append_assoc]

end Coinscope.Theory.Histories

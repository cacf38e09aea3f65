/-
# Theory.Runs -- runs of an event-driven machine

An event loop calls one handler at a time, so a process is a state and a total
`step` per event, and its runs are the event lists.  `Along` restricts a run to
events that meet a condition in the state they arrive in; it is how a statement
about "every run in which no event does X" is written.

* `run_invariant` -- what every admitted step keeps, every admitted run keeps.
* `run_simulates` -- a machine that may fail follows the admitted runs of one that does not.
* `run_iff_along` -- where the other steps break a property for good, the runs that
  keep it are exactly the admitted ones.
* `always_iff_along` -- the same for a property of every state on the way.
* `run_counts` -- a count that exactly the other steps raise is zero at the end of exactly
  the admitted runs.
* `run_ranked` -- a rank that some steps lower bounds how many of these a run has.
* `run_finishes` -- where some step lowers the rank until a goal is reached, it can be reached.
* `run_append` -- runs compose, so a statement about the end of every run is a
  statement about every state on the way.
-/

namespace Coinscope.Theory.Runs

set_option autoImplicit false

universe u v w

variable {σ : Type u} {ε : Type v} (step : σ → ε → σ)

/-- The state after the events, oldest first. -/
def run (s : σ) (events : List ε) : σ := events.foldl step s

/-- Every event meets `ok` in the state it arrives in. -/
def Along (ok : σ → ε → Prop) : σ → List ε → Prop
  | _, [] => True
  | s, e :: rest => ok s e ∧ Along ok (step s e) rest

@[simp] theorem run_nil (s : σ) : run step s [] = s := rfl

@[simp] theorem run_cons (s : σ) (e : ε) (rest : List ε) :
    run step s (e :: rest) = run step (step s e) rest := rfl

theorem run_append (s : σ) (a b : List ε) : run step s (a ++ b) = run step (run step s a) b :=
  List.foldl_append

variable {step}

theorem along_of_forall {ok : σ → ε → Prop} (always : ∀ s e, ok s e) :
    ∀ (s : σ) (events : List ε), Along step ok s events
  | _, [] => trivial
  | s, e :: rest => ⟨always s e, along_of_forall always (step s e) rest⟩

/-- What every admitted step keeps holds at the end of every admitted run. -/
theorem run_invariant {P : σ → Prop} {ok : σ → ε → Prop}
    (keep : ∀ s e, P s → ok s e → P (step s e)) {s : σ} {events : List ε} (start : P s)
    (admitted : Along step ok s events) : P (run step s events) := by
  induction events generalizing s with
  | nil => exact start
  | cons e rest ih => exact ih (keep s e start admitted.1) admitted.2

/-- Where an invariant makes every admitted step meet a second condition, an admitted run
meets it at every step. -/
theorem along_meets {I : σ → Prop} {ok meets : σ → ε → Prop}
    (keep : ∀ s e, I s → ok s e → meets s e ∧ I (step s e)) {s : σ} {events : List ε} (start : I s)
    (admitted : Along step ok s events) : Along step meets s events := by
  induction events generalizing s with
  | nil => trivial
  | cons e rest ih =>
      obtain ⟨here, next⟩ := keep s e start admitted.1
      exact ⟨here, ih next admitted.2⟩

/-- The unrestricted form: every step keeps it, so every run keeps it. -/
theorem run_keeps {P : σ → Prop} (keep : ∀ s e, P s → P (step s e)) {s : σ} (start : P s)
    (events : List ε) : P (run step s events) := by
  have admitted : Along step (fun _ _ => True) s events :=
    along_of_forall (fun _ _ => trivial) s events
  exact run_invariant (fun s e here _ => keep s e here) start admitted

/-- A machine whose steps may fail follows one whose steps do not: if it follows every admitted
step, it follows every admitted run. -/
theorem run_simulates {τ φ : Type w} {stepE : τ → ε → Except φ τ} {R : τ → σ → Prop}
    {ok : σ → ε → Prop}
    (follow : ∀ t s e, R t s → ok s e → ∃ t', stepE t e = .ok t' ∧ R t' (step s e))
    {t : τ} {s : σ} (start : R t s) (events : List ε) (admitted : Along step ok s events) :
    ∃ t', events.foldlM stepE t = .ok t' ∧ R t' (run step s events) := by
  induction events generalizing t s with
  | nil => exact ⟨t, rfl, start⟩
  | cons e rest ih =>
      obtain ⟨t₁, stepped, next⟩ := follow t s e start admitted.1
      obtain ⟨t₂, ran, last⟩ := ih next admitted.2
      refine ⟨t₂, ?_, last⟩
      rw [List.foldlM_cons, stepped]
      exact ran

/-- Where a step that is not admitted breaks `P` for good, a run keeps `P` exactly if
every step is admitted.  `I` is what admitted steps keep, `J` what every step keeps. -/
theorem run_iff_along {P I J : σ → Prop} {ok : σ → ε → Prop}
    (always : ∀ s e, J s → J (step s e)) (holds : ∀ s, I s → P s ∧ J s)
    (keep : ∀ s e, I s → ok s e → I (step s e))
    (breaks : ∀ s e, I s → ¬ ok s e → ¬ P (step s e))
    (forGood : ∀ s e, J s → ¬ P s → ¬ P (step s e)) {s : σ} (start : I s) (events : List ε) :
    P (run step s events) ↔ Along step ok s events := by
  induction events generalizing s with
  | nil => exact ⟨fun _ => trivial, fun _ => (holds s start).1⟩
  | cons e rest ih =>
      by_cases admitted : ok s e
      · rw [run_cons, ih (keep s e start admitted)]
        exact ⟨fun later => ⟨admitted, later⟩, fun all => all.2⟩
      · have broken := run_keeps (P := fun s => J s ∧ ¬ P s)
          (fun s e here => ⟨always s e here.1, forGood s e here.1 here.2⟩)
          ⟨always s e (holds s start).2, breaks s e start admitted⟩ rest
        exact ⟨fun fine => absurd fine broken.2, fun all => absurd all.1 admitted⟩

/-- Where exactly the admitted steps keep `P`, it holds in every state on the way exactly if
every step is admitted.  `I` is what every step keeps. -/
theorem always_iff_along {P I : σ → Prop} {ok : σ → ε → Prop} (always : ∀ s e, I s → I (step s e))
    (keep : ∀ s e, I s → P s → (P (step s e) ↔ ok s e)) {s : σ} (start : I s) (holds : P s)
    (events : List ε) :
    (∀ before after, events = before ++ after → P (run step s before)) ↔
      Along step ok s events := by
  induction events generalizing s with
  | nil =>
      refine ⟨fun _ => trivial, ?_⟩
      intro _ before after split
      rw [(List.append_eq_nil_iff.1 split.symm).1]
      exact holds
  | cons e rest ih =>
      constructor
      · intro all
        have next : P (step s e) := all [e] rest rfl
        refine ⟨(keep s e start holds).1 next, (ih (always s e start) next).1 ?_⟩
        intro before after split
        exact all (e :: before) after (by rw [split]; rfl)
      · rintro ⟨first, later⟩ before after split
        have next := (keep s e start holds).2 first
        cases before with
        | nil => exact holds
        | cons e' before =>
            rw [List.cons_append, List.cons.injEq] at split
            rw [← split.1, run_cons]
            exact (ih (always s e start) next).2 later before after split.2

/-- Where every step raises a count by something, by nothing exactly if it is admitted, a
run raises it by nothing exactly if all of it is admitted. -/
theorem run_counts {P : σ → Nat → Prop} {ok : σ → ε → Prop}
    (keep : ∀ s e n, P s n → ∃ d, P (step s e) (n + d) ∧ (d = 0 ↔ ok s e)) {s : σ} {n : Nat}
    (start : P s n) (events : List ε) :
    ∃ d, P (run step s events) (n + d) ∧ (d = 0 ↔ Along step ok s events) := by
  induction events generalizing s n with
  | nil => exact ⟨0, start, fun _ => trivial, fun _ => rfl⟩
  | cons e rest ih =>
      obtain ⟨d, next, first⟩ := keep s e n start
      obtain ⟨d', last, others⟩ := ih next
      refine ⟨d + d', by rw [← Nat.add_assoc]; exact last, ?_⟩
      rw [Along, ← first, ← others]
      omega

variable (step) in
/-- How many events meet `counts` in the state they arrive in. -/
def tally (counts : σ → ε → Bool) : σ → List ε → Nat
  | _, [] => 0
  | s, e :: rest => (if counts s e then 1 else 0) + tally counts (step s e) rest

/-- Where no step raises a rank and every counted one lowers it, what is left of the rank and
the counted steps are at most the rank at the start. -/
theorem run_ranked {I : σ → Prop} {rank : σ → Nat} {counts : σ → ε → Bool}
    (keep : ∀ s e, I s → I (step s e)) (down : ∀ s e, I s → rank (step s e) ≤ rank s)
    (strictly : ∀ s e, I s → counts s e = true → rank (step s e) < rank s) {s : σ} (start : I s)
    (events : List ε) : rank (run step s events) + tally step counts s events ≤ rank s := by
  induction events generalizing s with
  | nil => exact Nat.le_refl _
  | cons e rest ih =>
      have later := ih (keep s e start)
      have first := down s e start
      rw [run_cons, tally]
      split
      · have lower := strictly s e start ‹_›
        omega
      · omega

/-- Where a rank can be lowered by an event of a kind as long as a goal is not reached, the goal
is reached by no more of them than the rank. -/
theorem run_finishes {I G : σ → Prop} {K : ε → Prop} {rank : σ → Nat}
    (keep : ∀ s e, I s → I (step s e))
    (lower : ∀ s, I s → ¬ G s → ∃ e, K e ∧ rank (step s e) < rank s) {s : σ} (start : I s) :
    ∃ events, events.length ≤ rank s ∧ (∀ e ∈ events, K e) ∧ G (run step s events) := by
  generalize bound : rank s = n
  induction n using Nat.strongRecOn generalizing s with
  | ind n ih =>
      by_cases there : G s
      · exact ⟨[], Nat.zero_le _, (fun _ member => by cases member), there⟩
      · obtain ⟨e, right, less⟩ := lower s start there
        rw [bound] at less
        obtain ⟨rest, few, all, reached⟩ := ih _ less (keep s e start) rfl
        refine ⟨e :: rest, by rw [List.length_cons]; omega, ?_, reached⟩
        intro e' member
        rcases List.mem_cons.1 member with rfl | later
        · exact right
        · exact all e' later

end Coinscope.Theory.Runs

/-
# Theory.Framing -- streams of frames with a fixed-size header

A `Format` says how long a header is and how many further symbols a header
announces.  A stream is then a sequence of complete frames followed by an
incomplete tail, and that reading is unique: `parse_flatten_append` computes it
from any such decomposition, so a receiver that keeps "what arrived is what I
handed on followed by what I hold" has parsed the stream however it was cut up.

* `parse` -- the frames of a stream and the tail that is left (`parse_spec`).
* `parse_starts` -- no other complete frames are in front of a stream.
* `Longest` -- the longest part in front that is complete frames (`longest_parse`).
-/
import Mathlib.Data.List.Basic
import Mathlib.Data.Nat.Basic

namespace Coinscope.Theory.Framing

set_option autoImplicit false

universe u

/-- A header of `header` symbols announces the length of the body behind it. -/
structure Format (β : Type u) where
  header : Nat
  header_pos : 0 < header
  bodyLength : List β → Nat

namespace Format

variable {β : Type u} (F : Format β)

/-- The length of the frame a stream starts with, once its header is there. -/
def size (stream : List β) : Nat := F.header + F.bodyLength (stream.take F.header)

/-- One frame, header and body, and nothing behind it. -/
def Complete (frame : List β) : Prop :=
  F.header ≤ frame.length ∧ frame.length = F.size frame

instance (frame : List β) : Decidable (F.Complete frame) := inferInstanceAs (Decidable (_ ∧ _))

/-- Too short for its header, or for the body its header announces. -/
def Incomplete (tail : List β) : Prop :=
  tail.length < F.header ∨ tail.length < F.size tail

instance (tail : List β) : Decidable (F.Incomplete tail) := inferInstanceAs (Decidable (_ ∨ _))

/-- Cut frames off the front while a complete one is there.  The fuel is the
length of the stream; every frame is at least a header long, so it suffices. -/
def parseAux : Nat → List β → List (List β) × List β
  | 0, stream => ([], stream)
  | fuel + 1, stream =>
      if F.Incomplete stream then ([], stream)
      else
        let rest := parseAux fuel (stream.drop (F.size stream))
        (stream.take (F.size stream) :: rest.1, rest.2)

/-- The frames of a stream, and the incomplete tail behind them. -/
def parse (stream : List β) : List (List β) × List β := F.parseAux stream.length stream

/-! ## The parse is unique -/

/-- The header alone says how long a frame is. -/
theorem size_append {stream : List β} (long : F.header ≤ stream.length) (rest : List β) :
    F.size (stream ++ rest) = F.size stream := by
  rw [size, size, List.take_append_of_le_length long]

theorem Complete.size_append {frame : List β} (complete : F.Complete frame) (rest : List β) :
    F.size (frame ++ rest) = frame.length := by
  rw [F.size_append complete.1, complete.2]

theorem Complete.not_incomplete {frame : List β} (complete : F.Complete frame) (rest : List β) :
    ¬ F.Incomplete (frame ++ rest) := by
  have atFrame := complete.size_append F rest
  have long := complete.1
  simp only [Incomplete, List.length_append, atFrame]
  omega

theorem incomplete_nil : F.Incomplete [] := Or.inl F.header_pos

theorem parseAux_flatten_append :
    ∀ (frames : List (List β)) (tail : List β) (fuel : Nat), (∀ f ∈ frames, F.Complete f) →
      F.Incomplete tail → (frames.flatten ++ tail).length ≤ fuel →
      F.parseAux fuel (frames.flatten ++ tail) = (frames, tail)
  | [], tail, 0, _, _, _ => by simp [parseAux]
  | [], tail, fuel + 1, _, incomplete, _ => by simp [parseAux, incomplete]
  | frame :: frames, tail, fuel, complete, incomplete, enough => by
      have here : F.Complete frame := complete frame List.mem_cons_self
      have positive : 0 < frame.length := Nat.lt_of_lt_of_le F.header_pos here.1
      simp only [List.flatten_cons, List.append_assoc, List.length_append] at enough ⊢
      obtain ⟨fuel, rfl⟩ : ∃ n, fuel = n + 1 := ⟨fuel - 1, by omega⟩
      have ih := parseAux_flatten_append frames tail fuel
        (fun f member => complete f (List.mem_cons_of_mem _ member)) incomplete
        (by simp only [List.length_append]; omega)
      simp only [parseAux, here.not_incomplete F, if_false, here.size_append F, List.drop_left,
        List.take_left, ih]

/-- Any decomposition into complete frames and an incomplete tail is the parse. -/
theorem parse_flatten_append {frames : List (List β)} {tail : List β}
    (complete : ∀ f ∈ frames, F.Complete f) (incomplete : F.Incomplete tail) :
    F.parse (frames.flatten ++ tail) = (frames, tail) :=
  F.parseAux_flatten_append frames tail _ complete incomplete le_rfl

theorem complete_take_size {stream : List β} (ready : ¬ F.Incomplete stream) :
    F.Complete (stream.take (F.size stream)) := by
  simp only [Incomplete, not_or, Nat.not_lt] at ready
  have headerInside : F.header ≤ F.size stream := Nat.le_add_right ..
  have sameHeader : (stream.take (F.size stream)).take F.header = stream.take F.header := by
    rw [List.take_take, Nat.min_eq_left headerInside]
  constructor
  · rw [List.length_take]; omega
  · rw [List.length_take, Nat.min_eq_left ready.2]
    exact congrArg (fun h => F.header + F.bodyLength h) sameHeader.symm

theorem parseAux_spec (fuel : Nat) (stream : List β) (enough : stream.length ≤ fuel) :
    (∀ f ∈ (F.parseAux fuel stream).1, F.Complete f) ∧ F.Incomplete (F.parseAux fuel stream).2 ∧
      (F.parseAux fuel stream).1.flatten ++ (F.parseAux fuel stream).2 = stream := by
  induction fuel generalizing stream with
  | zero =>
      have empty : stream = [] := List.eq_nil_of_length_eq_zero (Nat.le_zero.1 enough)
      subst empty
      exact ⟨by simp [parseAux], F.incomplete_nil, rfl⟩
  | succ fuel ih =>
      by_cases incomplete : F.Incomplete stream
      · simp [parseAux, incomplete]
      · have frame := F.complete_take_size incomplete
        have positive := F.header_pos
        have shorter : (stream.drop (F.size stream)).length ≤ fuel := by
          have : F.header ≤ F.size stream := Nat.le_add_right ..
          rw [List.length_drop]; omega
        obtain ⟨complete, tail, whole⟩ := ih _ shorter
        simp only [parseAux, incomplete, if_false]
        refine ⟨?_, tail, ?_⟩
        · intro f member
          rcases List.mem_cons.1 member with rfl | later
          · exact frame
          · exact complete f later
        · rw [List.flatten_cons, List.append_assoc, whole, List.take_append_drop]

/-- What `parse` returns is complete frames, an incomplete tail, and the stream. -/
theorem parse_spec (stream : List β) :
    (∀ f ∈ (F.parse stream).1, F.Complete f) ∧ F.Incomplete (F.parse stream).2 ∧
      (F.parse stream).1.flatten ++ (F.parse stream).2 = stream :=
  F.parseAux_spec _ stream le_rfl

/-! ## Prefixes -/

/-- Complete frames in front of a stream are cut off one by one. -/
theorem parse_append {frames : List (List β)} (complete : ∀ f ∈ frames, F.Complete f)
    (rest : List β) :
    F.parse (frames.flatten ++ rest) = (frames ++ (F.parse rest).1, (F.parse rest).2) := by
  obtain ⟨more, incomplete, whole⟩ := F.parse_spec rest
  have all : ∀ f ∈ frames ++ (F.parse rest).1, F.Complete f := by
    intro f member
    rcases List.mem_append.1 member with early | late
    · exact complete f early
    · exact more f late
  have cut := F.parse_flatten_append all incomplete
  rw [List.flatten_append, List.append_assoc, whole] at cut
  exact cut

theorem parse_incomplete {stream : List β} (incomplete : F.Incomplete stream) :
    F.parse stream = ([], stream) := by
  have none_ : ∀ f ∈ ([] : List (List β)), F.Complete f := by simp
  exact F.parse_flatten_append none_ incomplete

/-- A stream with a complete frame in front. -/
theorem parse_ready {stream : List β} (ready : ¬ F.Incomplete stream) :
    F.parse stream = (stream.take (F.size stream) :: (F.parse (stream.drop (F.size stream))).1,
      (F.parse (stream.drop (F.size stream))).2) := by
  have first : ∀ f ∈ [stream.take (F.size stream)], F.Complete f := by
    intro f member
    rw [List.mem_singleton.1 member]
    exact F.complete_take_size ready
  have cut := F.parse_append first (stream.drop (F.size stream))
  rw [List.flatten_singleton, List.take_append_drop] at cut
  exact cut

/-- However a stream starts with complete frames, they are the first of its parse. -/
theorem parse_starts {frames : List (List β)} (complete : ∀ f ∈ frames, F.Complete f)
    {stream : List β} (before : frames.flatten <+: stream) : frames <+: (F.parse stream).1 := by
  obtain ⟨rest, rfl⟩ := before
  rw [F.parse_append complete]
  exact List.prefix_append ..

theorem parse_whole {frames : List (List β)} (complete : ∀ f ∈ frames, F.Complete f) :
    F.parse frames.flatten = (frames, []) := by
  have cut := F.parse_flatten_append complete F.incomplete_nil
  rw [List.append_nil] at cut
  exact cut

/-- In a stream of complete frames, a header behind some of them is that of another. -/
theorem next_header {frames done : List (List β)} (all : ∀ f ∈ frames, F.Complete f)
    (complete : ∀ f ∈ done, F.Complete f) {header rest : List β}
    (length : header.length = F.header)
    (before : done.flatten ++ (header ++ rest) <+: frames.flatten) :
    ∃ f ∈ frames, f.take F.header = header := by
  have first : done.flatten <+: frames.flatten := (List.prefix_append ..).trans before
  obtain ⟨more, rfl⟩ : done <+: frames := by
    have starts := F.parse_starts complete first
    rwa [F.parse_whole all] at starts
  rw [List.flatten_append, List.prefix_append_right_inj] at before
  have positive := F.header_pos
  cases more with
  | nil =>
      have none_ := List.prefix_nil.1 before
      rw [(List.append_eq_nil_iff.1 none_).1, List.length_nil] at length
      omega
  | cons f more =>
      have long : F.header ≤ f.length := (all f (by simp)).1
      refine ⟨f, by simp, ?_⟩
      have same := (List.prefix_append header rest).trans before
      rw [List.prefix_iff_eq_take, length, List.flatten_cons,
        List.take_append_of_le_length long] at same
      exact same.symm

/-- The longest part in front of a stream that is a sequence of complete frames. -/
structure Longest (stream kept : List β) : Prop where
  whole : ∃ frames : List (List β), (∀ f ∈ frames, F.Complete f) ∧ kept = frames.flatten
  front : kept <+: stream
  longest : ∀ frames : List (List β), (∀ f ∈ frames, F.Complete f) →
    frames.flatten <+: stream → frames.flatten <+: kept

theorem longest_parse (stream : List β) : F.Longest stream (F.parse stream).1.flatten := by
  obtain ⟨complete, -, whole⟩ := F.parse_spec stream
  refine ⟨⟨_, complete, rfl⟩, ⟨_, whole⟩, ?_⟩
  intro frames all before
  obtain ⟨rest, parsed⟩ := F.parse_starts all before
  rw [← parsed, List.flatten_append]
  exact List.prefix_append ..

/-- A frame starts with no other frame. -/
theorem Complete.only_frame {frame : List β} (whole : F.Complete frame) {frames : List (List β)}
    (complete : ∀ f ∈ frames, F.Complete f) (before : frames.flatten <+: frame) {f : List β}
    (member : f ∈ frames) : f = frame := by
  have single : F.parse frame = ([frame], []) := by
    have alone : ∀ f ∈ [frame], F.Complete f := by simpa using whole
    have cut := F.parse_whole alone
    rwa [List.flatten_singleton] at cut
  have first := F.parse_starts complete before
  rw [single] at first
  exact List.mem_singleton.1 (first.subset member)

end Format

end Coinscope.Theory.Framing

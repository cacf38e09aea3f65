/-
# Tools.MessageIds -- ids of imported messages

Pass 0 counts the rows a child will need ids for, and `jump_sequence` reserves one id more
than it is told.  Pass 0 counts BITCOIN and BITCOIN_MSG records; pass 2 takes an id for these
and for every CONNECTOR record too.  The id too many covers one of them.  From the second on,
the ids a child writes are those of the child that comes next.

* `Child.Read` -- what one record does in one pass.
* `Child.Tracks` -- a child on its way through `child_main`.
* `Import.Orderly` -- the invariant of the import, for each of the three sequences.
* `message_ids_unique` -- the ids of files with at most one CONNECTOR record each.
-/
import Coinscope.Tools.Verbatim2pg
import Coinscope.Theory.Reservations
import Coinscope.Theory.Runs
import Coinscope.Theory.Tables
import Mathlib.Data.List.Infix

namespace Coinscope.Tools

open Coinscope.Theory
open Coinscope.Theory.Runs
open Coinscope.Theory.Reservations

set_option autoImplicit false

/-! ## Records -/

/-- The types that are counted for a sequence. -/
def countsType : Sequence → UInt8 → Bool
  | .messages, t => decide (t = 16 ∨ t = 32)
  | .bitcoinCxnMessages, t => decide (t = 16)
  | .bitcoinMessages, t => decide (t = 32)

/-- The types pass 2 takes an id for. -/
def usesType : Sequence → UInt8 → Bool
  | .messages, t => decide (t = 16 ∨ t = 32 ∨ t = 64)
  | .bitcoinCxnMessages, t => decide (t = 16)
  | .bitcoinMessages, t => decide (t = 32)

def counted (q : Sequence) (r : Record) : Bool := r.type.any (countsType q)

def uses (q : Sequence) (r : Record) : Bool := r.type.any (usesType q)

/-- The pass that counts. -/
def passOf : Sequence → Pass
  | .messages => .zero
  | .bitcoinCxnMessages => .one
  | .bitcoinMessages => .one

/-- The semaphore around `jump_sequence`. -/
def semOf : Sequence → Nat
  | .messages => 2
  | .bitcoinCxnMessages => 3
  | .bitcoinMessages => 3

/-- `$g_consecutive_invalids` behind a record.  Types that are not in the tables do not
touch it. -/
def invalidsAfter (invalids : Nat) (r : Record) : Nat :=
  if (r.type.bind pass0Handlers).isNone then invalids
  else if r.type = some 32 ∧ r.invalid = true then invalids + 1
  else 0

/-- A fourth malformed message in a row. -/
def malformed : Nat → List Record → Bool
  | _, [] => false
  | invalids, r :: rest =>
      decide (3 < invalidsAfter invalids r) || malformed (invalidsAfter invalids r) rest

/-- How many CONNECTOR records there are. -/
def connectors (records : List Record) : Nat :=
  records.countP fun r => decide (r.type = some 64)

/-- The file can be imported without harm: it has at most one CONNECTOR record, or the child
dies of malformed messages before pass 2. -/
def Fits (records : List Record) : Prop :=
  connectors records ≤ 1 ∨ malformed 0 (records ++ records) = true

/-- The ids that pass 2 takes are as many as were counted, and one more at most; or there is no
pass 2. -/
def Suffices (q : Sequence) (records : List Record) : Prop :=
  records.countP (uses q) ≤ records.countP (counted q) + 1 ∨
    malformed 0 (records ++ records) = true

namespace Handler

/-- The sequence a subroutine counts for. -/
def counts : Handler → Sequence → Bool
  | .pass0BitcoinHandler, .messages => true
  | .pass0BitcoinMsgHandler, .messages => true
  | .pass1BitcoinHandler, .bitcoinCxnMessages => true
  | .pass1BitcoinMsgHandler, .bitcoinMessages => true
  | _, _ => false

/-- The sequences a subroutine takes an id from. -/
def takes : Handler → Sequence → Bool
  | .pass2AsText, .messages => true
  | .pass2BitcoinHandler, .messages => true
  | .pass2BitcoinHandler, .bitcoinCxnMessages => true
  | .pass2BitcoinMsgHandler, .messages => true
  | .pass2BitcoinMsgHandler, .bitcoinMessages => true
  | _, _ => false

/-- A subroutine that looks at the command. -/
def judges : Handler → Bool
  | .pass0BitcoinMsgHandler => true
  | .pass1BitcoinMsgHandler => true
  | .pass2BitcoinMsgHandler => true
  | _ => false

/-- A subroutine is the one of a pass for a type. -/
structure Fulfils (pass : Pass) (t : UInt8) (h : Handler) : Prop where
  known : (pass0Handlers t).isSome = true
  counts : ∀ q, h.counts q = (decide (pass = passOf q) && countsType q t)
  takes : ∀ q, h.takes q = (decide (pass = .two) && usesType q t)
  judges : h.judges = decide (t = 32)

/-- The three tables have the same types. -/
theorem handlersOf_cases (pass : Pass) (t : UInt8) :
    (handlersOf pass t = none ∧ pass0Handlers t = none ∧
      ∀ q, countsType q t = false ∧ usesType q t = false) ∨
    ∃ h, handlersOf pass t = some h ∧ Fulfils pass t h := by
  by_cases listed : t ∈ [2, 4, 8, 16, 32, 64]
  · right
    simp only [List.mem_cons, List.not_mem_nil, or_false] at listed
    rcases listed with rfl | rfl | rfl | rfl | rfl | rfl <;> cases pass <;>
      exact ⟨_, rfl, by decide, (fun q => by cases q <;> decide), (fun q => by cases q <;> decide),
        by decide⟩
  · left
    simp only [List.mem_cons, List.not_mem_nil, or_false, not_or] at listed
    obtain ⟨two, four, eight, bitcoin, msg, connector⟩ := listed
    refine ⟨?_, ?_, ?_⟩
    · cases pass <;>
        simp [handlersOf, pass0Handlers, pass1Handlers, pass2Handlers, two, four, eight, bitcoin,
          msg, connector]
    · simp [pass0Handlers, two, four, eight, bitcoin, msg, connector]
    · intro q
      cases q <;> simp [countsType, usesType, bitcoin, msg, connector]

end Handler

namespace Child

/-- What a record does in a pass. -/
structure Read (pass : Pass) (r : Record) (c c' : Child) : Prop where
  records : c'.records = c.records
  todo : c'.todo = c.todo
  dead : c'.dead = c.dead
  range : c'.range = c.range
  invalids : c'.consecutiveInvalids = invalidsAfter c.consecutiveInvalids r
  few : c.consecutiveInvalids ≤ 3 → c'.consecutiveInvalids ≤ 3
  rows : ∀ q, c'.rows q = c.rows q + if pass = passOf q ∧ counted q r = true then 1 else 0
  next : ∀ q, c'.next q = c.next q + if pass = .two ∧ uses q r = true then 1 else 0
  written : ∀ q, c'.written q =
    c.written q ++ if pass = .two ∧ uses q r = true then [c.next q] else []

/-- What a subroutine does. -/
theorem call_spec (c : Child) (r : Record) (h : Handler) :
    (c.call r h).records = c.records ∧ (c.call r h).todo = c.todo ∧
      (c.call r h).dead = c.dead ∧ (c.call r h).range = c.range ∧
      (c.call r h).consecutiveInvalids =
        c.consecutiveInvalids + (if h.judges && r.invalid then 1 else 0) ∧
      ∀ q, (c.call r h).rows q = c.rows q + (if h.counts q then 1 else 0) ∧
        (c.call r h).next q = c.next q + (if h.takes q then 1 else 0) ∧
        (c.call r h).written q = c.written q ++ if h.takes q then [c.next q] else [] := by
  cases h <;> refine ⟨rfl, rfl, rfl, rfl, rfl, ?_⟩ <;> intro q <;> cases q <;>
    simp [call, pass2Prolog, take, count, getCommandId, Handler.counts, Handler.takes]

/-- A type that is in no table is passed over. -/
theorem read_unknown {pass : Pass} {r : Record} {c c' : Child}
    (result : c.handleMessage pass r = some c') (none_ : r.type.bind (handlersOf pass) = none)
    (unknown : r.type.bind pass0Handlers = none)
    (idle : ∀ q, counted q r = false ∧ uses q r = false) : Read pass r c c' := by
  rw [handleMessage, none_] at result
  cases result
  refine ⟨rfl, rfl, rfl, rfl, ?_, fun few => few, ?_, ?_, ?_⟩
  · rw [invalidsAfter, unknown]
    rfl
  · intro q
    simp [(idle q).1]
  · intro q
    simp [(idle q).2]
  · intro q
    simp [(idle q).2]

/-- `handle_message`, as far as it does not die. -/
theorem handleMessage_read {pass : Pass} {r : Record} {c c' : Child}
    (result : c.handleMessage pass r = some c') : Read pass r c c' := by
  cases type : r.type with
  | none =>
      exact read_unknown result (by rw [type]; rfl) (by rw [type]; rfl)
        (by simp [counted, uses, type])
  | some t =>
      rcases Handler.handlersOf_cases pass t with ⟨none_, unknown, idle⟩ | ⟨h, found, fulfils⟩
      · exact read_unknown result (by rw [type]; exact none_) (by rw [type]; exact unknown)
          (by simpa [counted, uses, type] using idle)
      · obtain ⟨records, todo, dead, range, invalids, sequences⟩ := c.call_spec r h
        have counts : ∀ q, h.counts q = (decide (pass = passOf q) && counted q r) := by
          intro q
          rw [fulfils.counts, counted, type]
          rfl
        have takes : ∀ q, h.takes q = (decide (pass = .two) && uses q r) := by
          intro q
          rw [fulfils.takes, uses, type]
          rfl
        have known : (r.type.bind pass0Handlers).isNone = false := by
          rw [type, ← Option.not_isSome]
          simpa using fulfils.known
        have after : (if (c.call r h).consecutiveInvalids = c.consecutiveInvalids then 0
            else (c.call r h).consecutiveInvalids) = invalidsAfter c.consecutiveInvalids r := by
          rw [invalids, fulfils.judges, invalidsAfter, known, type]
          by_cases bad : t = 32 ∧ r.invalid = true
          · simp [bad]
          · have fine : (decide (t = 32) && r.invalid) = false := by
              simpa [not_and_or] using bad
            simp [fine, bad]
        have bound : r.type.bind (handlersOf pass) = some h := by
          rw [type]
          exact found
        rw [handleMessage, bound] at result
        simp only [after] at result
        by_cases many : 3 < invalidsAfter c.consecutiveInvalids r
        · rw [if_pos many] at result
          cases result
        · rw [if_neg many] at result
          cases result
          refine ⟨records, todo, dead, range, rfl, fun _ => Nat.le_of_not_lt many, ?_, ?_, ?_⟩
          · intro q
            rw [(sequences q).1, counts]
            simp only [Bool.and_eq_true, decide_eq_true_eq]
          · intro q
            rw [(sequences q).2.1, takes]
            simp only [Bool.and_eq_true, decide_eq_true_eq]
          · intro q
            rw [(sequences q).2.2, takes]
            simp only [Bool.and_eq_true, decide_eq_true_eq]

end Child

/-! ## The way through `child_main` -/

instance {P : Sequence → Prop} [DecidablePred P] : Decidable (∀ q, P q) :=
  decidable_of_iff (P .messages ∧ P .bitcoinCxnMessages ∧ P .bitcoinMessages)
    ⟨fun all q => match q with
      | .messages => all.1
      | .bitcoinCxnMessages => all.2.1
      | .bitcoinMessages => all.2.2,
      fun all => ⟨all _, all _, all _⟩⟩

/-- What is behind a place of `child_main`. -/
def Ordered : List Op → Prop
  | [] => True
  | .lock n :: rest => holding rest = if n = 4 then none else some n
  | .unlock _ :: rest => holding rest = none
  | .doPass .zero :: rest => .doPass .zero ∉ rest ∧ ∀ q, .nextval q ∈ rest
  | .doPass .one :: rest => .doPass .one ∉ rest ∧ .doPass .zero ∉ rest ∧ ∀ q, .nextval q ∈ rest
  | .doPass .two :: rest => rest = []
  | .nextval q :: rest =>
      holding rest = some (semOf q) ∧ rest.head? = some (.setval q) ∧ .nextval q ∉ rest
  | .setval q :: rest => holding rest = some (semOf q) ∧ .nextval q ∉ rest ∧ .setval q ∉ rest ∧
      .doPass .two ∈ rest

instance : DecidablePred Ordered
  | [] => inferInstanceAs (Decidable True)
  | .lock _ :: _ => inferInstanceAs (Decidable (_ = _))
  | .unlock _ :: _ => inferInstanceAs (Decidable (_ = _))
  | .doPass .zero :: _ => inferInstanceAs (Decidable (_ ∧ _))
  | .doPass .one :: _ => inferInstanceAs (Decidable (_ ∧ _))
  | .doPass .two :: rest => inferInstanceAs (Decidable (rest = []))
  | .nextval _ :: _ => inferInstanceAs (Decidable (_ ∧ _))
  | .setval _ :: _ => inferInstanceAs (Decidable (_ ∧ _))

theorem ordered : ∀ t ∈ childMain.tails, Ordered t := by decide

/-- Pass 2 comes last. -/
theorem two_last : ∀ t ∈ childMain.tails,
    t = [] ∨ t = [.doPass .two] ∨ .doPass .two ∈ t ∧ t.head? ≠ some (.doPass .two) := by decide

/-- Nothing comes between the two statements of `jump_sequence`. -/
theorem setval_behind : ∀ t ∈ childMain.tails, ∀ q, t.tail.head? = some (.setval q) →
    t.head? = some (.nextval q) := by decide

theorem passOf_ne_two (q : Sequence) : passOf q ≠ .two := by
  cases q <;> exact fun same => by cases same

namespace Child

/-- What a pass has still to read. -/
def ahead (c : Child) (pass : Pass) : List Record :=
  if c.todo.head? = some (.doPass pass) then c.left
  else if .doPass pass ∈ c.todo then c.records
  else []

/-- A child that has not died: the counts are those of the records it has read, and so are
the ids it has taken, which are the first ones of the range it has reserved. -/
structure Tracks (q : Sequence) (c : Child) : Prop where
  place : c.todo ∈ childMain.tails
  rewound : (∀ pass, c.todo.head? ≠ some (.doPass pass)) → c.left = c.records
  few : c.consecutiveInvalids ≤ 3
  sane : malformed 0 (c.records ++ c.records) =
    malformed c.consecutiveInvalids (c.ahead .zero ++ c.ahead .one)
  rows : c.rows q + (c.ahead (passOf q)).countP (counted q) = c.records.countP (counted q)
  used : (c.written q).length + (c.ahead .two).countP (uses q) = c.records.countP (uses q)
  undrawn : .nextval q ∈ c.todo → c.range q = none
  drawn : .nextval q ∉ c.todo → ∃ first,
    c.range q = some (first, first + (if .setval q ∈ c.todo then 0 else c.rows q) + 1) ∧
      c.next q = first + (c.written q).length ∧
      c.written q = List.range' first (c.written q).length

/-- Passing on from what is no pass leaves the passes alone. -/
theorem ahead_pop {c c' : Child} {op : Op} {rest : List Op} (todo : c.todo = op :: rest)
    (other : ∀ pass, op ≠ .doPass pass) (rewound : c.left = c.records) (todo' : c'.todo = rest)
    (left : c'.left = c.left) (records : c'.records = c.records) (pass : Pass) :
    c'.ahead pass = c.ahead pass := by
  have apart : (.doPass pass : Op) ≠ op := fun same => other pass same.symm
  rw [ahead, ahead, todo, todo', left, records, rewound]
  simp only [List.head?_cons, Option.some.injEq, apart.symm, if_false, List.mem_cons, apart,
    false_or]
  by_cases next : rest.head? = some (.doPass pass)
  · rw [if_pos next, if_pos (List.mem_of_mem_head? next)]
  · rw [if_neg next]

/-- A place behind a place. -/
theorem place_pop {op : Op} {rest : List Op} (place : op :: rest ∈ childMain.tails) :
    rest ∈ childMain.tails := by
  rw [List.mem_tails] at place ⊢
  exact (List.suffix_cons op rest).trans place

/-- What concerns a sequence is as it was. -/
structure Kept (q : Sequence) (c c' : Child) : Prop where
  records : c'.records = c.records
  left : c'.left = c.left
  invalids : c'.consecutiveInvalids = c.consecutiveInvalids
  rows : c'.rows q = c.rows q
  written : c'.written q = c.written q

/-- Behind a statement that is no pass, if the range is as it has to be. -/
theorem Tracks.pop {q : Sequence} {c c' : Child} (tracks : c.Tracks q) {op : Op} {rest : List Op}
    (todo : c.todo = op :: rest) (other : ∀ pass, op ≠ .doPass pass) (todo' : c'.todo = rest)
    (kept : Kept q c c') (undrawn : .nextval q ∈ rest → c'.range q = none)
    (drawn : .nextval q ∉ rest → ∃ first,
      c'.range q = some (first, first + (if .setval q ∈ rest then 0 else c.rows q) + 1) ∧
        c'.next q = first + (c.written q).length ∧
        c.written q = List.range' first (c.written q).length) : c'.Tracks q := by
  have head : ∀ pass, c.todo.head? ≠ some (.doPass pass) := by
    intro pass same
    rw [todo] at same
    exact other pass (Option.some.inj same)
  have rewound := tracks.rewound head
  have ahead := ahead_pop todo other rewound todo' kept.left kept.records
  have place := tracks.place
  rw [todo] at place
  refine ⟨?_, ?_, ?_, ?_, ?_, ?_, ?_, ?_⟩
  · rw [todo']
    exact place_pop place
  · intro _
    rw [kept.left, kept.records]
    exact rewound
  · rw [kept.invalids]
    exact tracks.few
  · rw [kept.records, kept.invalids, ahead, ahead]
    exact tracks.sane
  · rw [kept.rows, kept.records, ahead]
    exact tracks.rows
  · rw [kept.written, kept.records, ahead]
    exact tracks.used
  · rw [todo']
    exact undrawn
  · rw [todo', kept.rows, kept.written]
    exact drawn

/-- A statement that does not concern the sequence. -/
theorem Tracks.pass {q : Sequence} {c c' : Child} (tracks : c.Tracks q) {op : Op} {rest : List Op}
    (todo : c.todo = op :: rest) (other : ∀ pass, op ≠ .doPass pass) (notNext : op ≠ .nextval q)
    (notSet : op ≠ .setval q) (todo' : c'.todo = rest) (kept : Kept q c c')
    (next : c'.next q = c.next q) (range : c'.range q = c.range q) : c'.Tracks q := by
  have nextval : .nextval q ∈ c.todo ↔ .nextval q ∈ rest := by
    rw [todo, List.mem_cons]
    exact ⟨fun member => member.resolve_left notNext.symm, Or.inr⟩
  have setval : .setval q ∈ c.todo ↔ .setval q ∈ rest := by
    rw [todo, List.mem_cons]
    exact ⟨fun member => member.resolve_left notSet.symm, Or.inr⟩
  have undrawn := tracks.undrawn
  have drawn := tracks.drawn
  simp only [nextval, setval] at undrawn drawn
  refine tracks.pop todo other todo' kept ?_ ?_
  · rw [range]
    exact undrawn
  · rw [range, next]
    exact drawn

/-- Before pass 2 nothing is written. -/
theorem Tracks.unwritten {q : Sequence} {c : Child} (tracks : c.Tracks q)
    (later : c.todo.head? ≠ some (.doPass .two)) (member : .doPass .two ∈ c.todo) :
    c.written q = [] := by
  have used := tracks.used
  rw [ahead, if_neg later, if_pos member] at used
  exact List.eq_nil_of_length_eq_zero (by omega)

/-- `nextval`. -/
theorem Tracks.nextval {q : Sequence} {c c' : Child} (tracks : c.Tracks q) {rest : List Op}
    (todo : c.todo = .nextval q :: rest) (todo' : c'.todo = rest) (kept : Kept q c c') {n : Nat}
    (next : c'.next q = n) (range : c'.range q = some (n, n + 1)) : c'.Tracks q := by
  have place := tracks.place
  rw [todo] at place
  obtain ⟨-, head, gone⟩ := ordered _ place
  have behind := ordered _ (place_pop place)
  have setval : .setval q ∈ rest := List.mem_of_mem_head? head
  have last : .doPass .two ∈ rest := by
    cases rest with
    | nil => cases setval
    | cons op rest =>
        cases head
        exact List.mem_cons_of_mem _ behind.2.2.2
  have empty : c.written q = [] := by
    refine tracks.unwritten ?_ ?_
    · rw [todo]
      exact fun same => by cases same
    · rw [todo]
      exact List.mem_cons_of_mem _ last
  refine tracks.pop todo (fun _ same => by cases same) todo' kept (fun again => absurd again gone) ?_
  intro _
  refine ⟨n, ?_, ?_, ?_⟩
  · rw [if_pos setval, range, Nat.add_zero]
  · rw [next, empty]
    rfl
  · rw [empty]
    rfl

/-- In front of `setval` the id that was drawn is the one that comes next. -/
theorem Tracks.number {q : Sequence} {c : Child} (tracks : c.Tracks q) {rest : List Op}
    (todo : c.todo = .setval q :: rest) :
    c.written q = [] ∧ c.range q = some (c.next q, c.next q + 1) := by
  have place := tracks.place
  rw [todo] at place
  obtain ⟨-, gone, -, last⟩ := ordered _ place
  have empty : c.written q = [] := by
    refine tracks.unwritten ?_ ?_
    · rw [todo]
      exact fun same => by cases same
    · rw [todo]
      exact List.mem_cons_of_mem _ last
  have undrawn : .nextval q ∉ c.todo := by simpa [todo] using gone
  obtain ⟨first, range, next, -⟩ := tracks.drawn undrawn
  rw [empty, List.length_nil, Nat.add_zero] at next
  rw [if_pos (by rw [todo]; exact List.mem_cons_self), Nat.add_zero] at range
  rw [next]
  exact ⟨empty, range⟩

/-- `setval`, or nothing where nothing was counted. -/
theorem Tracks.setval {q : Sequence} {c c' : Child} (tracks : c.Tracks q) {rest : List Op}
    (todo : c.todo = .setval q :: rest) (todo' : c'.todo = rest) (kept : Kept q c c')
    (next : c'.next q = c.next q)
    (range : c'.range q = some (c.next q, c.next q + c.rows q + 1)) : c'.Tracks q := by
  have place := tracks.place
  rw [todo] at place
  obtain ⟨-, gone, done, -⟩ := ordered _ place
  have empty := (tracks.number todo).1
  refine tracks.pop todo (fun _ same => by cases same) todo' kept (fun again => absurd again gone) ?_
  intro _
  refine ⟨c.next q, ?_, ?_, ?_⟩
  · rw [if_neg done, range]
  · rw [next, empty]
    rfl
  · rw [empty]
    rfl

/-- What an end or a round of a pass means for the other passes. -/
theorem ahead_other {c c' : Child} {pass pass' : Pass} {rest : List Op}
    (todo : c.todo = .doPass pass :: rest) (other : pass' ≠ pass)
    (records : c'.records = c.records) (next : c'.todo = c.todo ∨ c'.todo = rest ∧
      c'.left = c.records) : c'.ahead pass' = c.ahead pass' := by
  have apart : (.doPass pass : Op) ≠ .doPass pass' := fun same => other (Op.doPass.inj same).symm
  have here : c.ahead pass' = if .doPass pass' ∈ rest then c.records else [] := by
    rw [ahead, todo]
    simp [apart, apart.symm]
  rcases next with same | ⟨popped, left⟩
  · rw [ahead, ahead, same, todo, records]
    simp [apart]
  · rw [here, ahead, popped, left, records]
    by_cases first : rest.head? = some (.doPass pass')
    · rw [if_pos first, if_pos (List.mem_of_mem_head? first)]
    · rw [if_neg first]

/-- A pass is over. -/
theorem Tracks.passEnd {q : Sequence} {c c' : Child} (tracks : c.Tracks q) {pass : Pass}
    {rest : List Op} (todo : c.todo = .doPass pass :: rest) (empty : c.left = [])
    (todo' : c'.todo = rest) (left : c'.left = c.records) (records : c'.records = c.records)
    (invalids : c'.consecutiveInvalids = c.consecutiveInvalids) (rows : c'.rows q = c.rows q)
    (written : c'.written q = c.written q) (next : c'.next q = c.next q)
    (range : c'.range q = c.range q) : c'.Tracks q := by
  have place := tracks.place
  rw [todo] at place
  have once : .doPass pass ∉ rest := by
    have here := ordered _ place
    cases pass with
    | zero => exact here.1
    | one => exact here.1
    | two =>
        rw [show rest = [] from here]
        exact List.not_mem_nil
  have ahead : ∀ pass', c'.ahead pass' = c.ahead pass' := by
    intro pass'
    by_cases same : pass' = pass
    · subst same
      have head : rest.head? ≠ some (.doPass pass') :=
        fun first => once (List.mem_of_mem_head? first)
      rw [Child.ahead, Child.ahead, todo, todo', empty, if_neg head, if_neg once]
      simp
    · exact ahead_other todo same records (Or.inr ⟨todo', left⟩)
  have nextval : .nextval q ∈ c.todo ↔ .nextval q ∈ rest := by simp [todo]
  have setval : .setval q ∈ c.todo ↔ .setval q ∈ rest := by simp [todo]
  have undrawn := tracks.undrawn
  have drawn := tracks.drawn
  simp only [nextval, setval] at undrawn drawn
  refine ⟨?_, ?_, ?_, ?_, ?_, ?_, ?_, ?_⟩
  · rw [todo']
    exact place_pop place
  · intro _
    rw [left, records]
  · rw [invalids]
    exact tracks.few
  · rw [records, invalids, ahead, ahead]
    exact tracks.sane
  · rw [rows, records, ahead]
    exact tracks.rows
  · rw [written, records, ahead]
    exact tracks.used
  · rw [todo', range]
    exact undrawn
  · rw [todo', range, rows, next, written]
    exact drawn

/-- A record that does not kill the child is one the rest is judged behind. -/
theorem malformed_cons {invalids : Nat} {r : Record} {rest : List Record}
    (few : invalidsAfter invalids r ≤ 3) :
    malformed invalids (r :: rest) = malformed (invalidsAfter invalids r) rest := by
  rw [malformed, decide_eq_false (Nat.not_lt.2 few), Bool.false_or]

/-- A record of a pass. -/
theorem Tracks.read {q : Sequence} {c c' : Child} (tracks : c.Tracks q) {pass : Pass} {r : Record}
    {rest : List Op} {left : List Record} (todo : c.todo = .doPass pass :: rest)
    (here : c.left = r :: left) (read : Read pass r c c') (left' : c'.left = left) :
    c'.Tracks q := by
  have few := read.few tracks.few
  have mine : c.ahead pass = r :: left := by
    rw [ahead, todo, if_pos (by rfl), here]
  have next : c'.ahead pass = left := by
    rw [ahead, read.todo, todo, if_pos (by rfl), left']
  have others : ∀ pass', pass' ≠ pass → c'.ahead pass' = c.ahead pass' := by
    intro pass' other
    exact ahead_other todo other read.records (Or.inl read.todo)
  have few' : invalidsAfter c.consecutiveInvalids r ≤ 3 := by
    rw [← read.invalids]
    exact few
  have place := tracks.place
  rw [todo] at place
  have here' := ordered _ place
  have absent : ∀ pass', pass' ≠ pass → .doPass pass' ∉ rest → c.ahead pass' = [] := by
    intro pass' other gone
    have apart : (.doPass pass : Op) ≠ .doPass pass' := fun same => other (Op.doPass.inj same).symm
    rw [ahead, todo]
    simp [apart, apart.symm, gone]
  refine ⟨?_, ?_, few, ?_, ?_, ?_, ?_, ?_⟩
  · rw [read.todo]
    exact tracks.place
  · intro head
    exact absurd (show c'.todo.head? = some (.doPass pass) by rw [read.todo, todo]; rfl) (head pass)
  · rw [read.records, read.invalids, tracks.sane]
    cases pass with
    | zero =>
        rw [mine, next, others .one (by decide), List.cons_append]
        exact malformed_cons few'
    | one =>
        rw [mine, next, others .zero (by decide), absent .zero (by decide) here'.2.1]
        exact malformed_cons few'
    | two =>
        have last : rest = [] := here'
        rw [others .zero (by decide), others .one (by decide),
          absent .zero (by decide) (by rw [last]; exact List.not_mem_nil),
          absent .one (by decide) (by rw [last]; exact List.not_mem_nil)]
        rfl
  · rw [read.records, read.rows, ← tracks.rows]
    by_cases mine' : pass = passOf q
    · subst mine'
      rw [mine, next, List.countP_cons]
      simp only [true_and]
      omega
    · rw [others _ (Ne.symm mine')]
      simp [mine']
  · rw [read.records, read.written, ← tracks.used, List.length_append]
    by_cases mine' : pass = .two
    · subst mine'
      rw [mine, next, List.countP_cons]
      simp only [true_and]
      split
      · rw [List.length_singleton]
        omega
      · rw [List.length_nil]
        omega
    · rw [others _ (Ne.symm mine')]
      simp [mine']
  · rw [read.todo, read.range]
    exact tracks.undrawn
  · intro gone
    rw [read.todo] at gone
    obtain ⟨first, range, number, ids⟩ := tracks.drawn gone
    have two : pass = .two := by
      rw [todo] at gone
      cases pass with
      | zero => exact absurd (List.mem_cons_of_mem _ (here'.2 q)) gone
      | one => exact absurd (List.mem_cons_of_mem _ (here'.2.2 q)) gone
      | two => rfl
    subst two
    refine ⟨first, ?_, ?_, ?_⟩
    · rw [read.range, read.todo, read.rows, range]
      simp [(passOf_ne_two q).symm]
    · rw [read.next, read.written, number, List.length_append]
      simp only [true_and]
      split
      · rw [List.length_singleton]
        omega
      · rw [List.length_nil]
        omega
    · rw [read.written]
      simp only [true_and]
      split
      · rw [List.length_append, List.length_singleton, List.range'_concat, ← ids, number,
          Nat.one_mul]
      · rw [List.append_nil]
        exact ids

/-- What is written is in the range that is reserved. -/
structure Inside (q : Sequence) (c : Child) : Prop where
  nothing : c.range q = none → c.written q = []
  ids : ∀ first behind, c.range q = some (first, behind) →
    c.written q = List.range' first (c.written q).length ∧
      first + (c.written q).length ≤ behind

/-- In pass 2 everything is counted, and the file is not one to die of. -/
theorem Tracks.bounded {q : Sequence} {c : Child} (tracks : c.Tracks q)
    (suffices_ : Suffices q c.records) (late : c.todo = [] ∨ c.todo = [.doPass .two]) :
    (c.written q).length ≤ c.rows q + 1 := by
  have behind : ∀ pass, pass ≠ .two → c.ahead pass = [] := by
    intro pass other
    rcases late with todo | todo
    · simp [ahead, todo]
    · simp [ahead, todo, other, other.symm]
  have rows := tracks.rows
  have used := tracks.used
  rw [behind _ (passOf_ne_two q), List.countP_nil] at rows
  rcases suffices_ with enough | bad
  · omega
  · rw [tracks.sane, behind .zero (by decide), behind .one (by decide)] at bad
    cases bad

theorem Tracks.inside {q : Sequence} {c : Child} (tracks : c.Tracks q)
    (suffices_ : Suffices q c.records) : c.Inside q := by
  have passes := two_last _ tracks.place
  by_cases undrawn : .nextval q ∈ c.todo
  · have none_ := tracks.undrawn undrawn
    have empty : c.written q = [] := by
      rcases passes with done | last | ⟨member, head⟩
      · rw [done] at undrawn
        cases undrawn
      · rw [last] at undrawn
        simp at undrawn
      · exact tracks.unwritten head member
    refine ⟨fun _ => empty, ?_⟩
    intro first behind some_
    rw [none_] at some_
    cases some_
  · obtain ⟨first, range, -, ids⟩ := tracks.drawn undrawn
    refine ⟨?_, ?_⟩
    · intro none_
      rw [range] at none_
      cases none_
    · intro first' behind same
      rw [range] at same
      cases same
      refine ⟨ids, ?_⟩
      have late : c.todo = [] ∨ c.todo = [.doPass .two] →
          first + (c.written q).length ≤
            first + (if .setval q ∈ c.todo then 0 else c.rows q) + 1 := by
        intro todo
        have few := tracks.bounded suffices_ todo
        have gone : .setval q ∉ c.todo := by
          rcases todo with todo | todo
          · simp [todo]
          · simp [todo]
        rw [if_neg gone]
        omega
      rcases passes with done | last | ⟨member, head⟩
      · exact late (Or.inl done)
      · exact late (Or.inr last)
      · rw [tracks.unwritten head member, List.length_nil]
        omega

/-- A child as it is between two steps. -/
structure Good (q : Sequence) (c : Child) : Prop where
  tracks : c.dead = false → c.Tracks q
  gone : c.dead = true → c.todo = []
  inside : c.Inside q
  enough : Suffices q c.records

theorem good_of_tracks {q : Sequence} {c : Child} (tracks : c.Tracks q) (alive : c.dead = false)
    (enough : Suffices q c.records) : c.Good q := by
  refine ⟨fun _ => tracks, ?_, tracks.inside enough, enough⟩
  intro dead
  rw [alive] at dead
  cases dead

/-- Who has something left to do is alive. -/
theorem Good.alive {q : Sequence} {c : Child} (good : c.Good q) {op : Op} {rest : List Op}
    (todo : c.todo = op :: rest) : c.dead = false := by
  cases dead : c.dead with
  | false => rfl
  | true =>
      rw [good.gone dead] at todo
      cases todo

/-- A child on its way is good again behind a step that leaves it alive. -/
theorem Good.follow {q : Sequence} {c c' : Child} (good : c.Good q) {op : Op} {rest : List Op}
    (todo : c.todo = op :: rest) (dead : c'.dead = c.dead) (records : c'.records = c.records)
    (tracks : c'.Tracks q) : c'.Good q := by
  refine good_of_tracks tracks (dead.trans (good.alive todo)) ?_
  rw [records]
  exact good.enough

theorem Good.quit {q : Sequence} {c : Child} (good : c.Good q) :
    Good q { c with todo := [], dead := true } :=
  ⟨(fun no => by cases no), fun _ => rfl, ⟨good.inside.nothing, good.inside.ids⟩, good.enough⟩

theorem Good.reaped {q : Sequence} {c : Child} (good : c.Good q) :
    Good q { c with reaped := true } := by
  refine ⟨?_, good.gone, ⟨good.inside.nothing, good.inside.ids⟩, good.enough⟩
  intro alive
  obtain ⟨place, rewound, few, sane, rows, used, undrawn, drawn⟩ := good.tracks alive
  exact ⟨place, rewound, few, sane, rows, used, undrawn, drawn⟩

/-- The child is in the `eval` block around `jump_sequence`. -/
def holds (q : Sequence) (c : Child) : Bool := decide (holding c.todo = some (semOf q))

end Child

/-! ## The import -/

namespace Import

/-- The children are as they have to be, one of them at most is where the sequence is moved
on, and the ranges they have reserved are apart. -/
structure Orderly (q : Sequence) (s : Import) : Prop where
  children : ∀ c ∈ s.children, c.Good q
  locks : s.sems (semOf q) + s.children.countP (Child.holds q) = 1
  issued : Issued (fun k : Nat => (s.children[k]?).bind fun c => c.range q) (s.seqs q)
  last : ∀ c ∈ s.children, c.todo.head? = some (.setval q) →
    ∃ first, c.range q = some (first, first + 1) ∧ s.seqs q = first + 1

/-- The ranges behind a step of one child. -/
theorem ranges_set {list : List Child} {k : Nat} {c : Child} (found : list[k]? = some c)
    (c' : Child) (q : Sequence) :
    (((list.set k c')[k]?).bind fun c => c.range q) = c'.range q ∧
      ∀ i : Nat, i ≠ k → (((list.set k c')[i]?).bind fun c => c.range q) =
        (list[i]?).bind fun c => c.range q := by
  obtain ⟨inside, -⟩ := List.getElem?_eq_some_iff.1 found
  refine ⟨?_, ?_⟩
  · rw [List.getElem?_set_self inside]
    rfl
  · intro i other
    rw [List.getElem?_set_ne (Ne.symm other)]

section Replace

variable {q : Sequence} {s s' : Import} (orderly : s.Orderly q) {k : Nat} {c c' : Child}
  (found : s.children[k]? = some c) (children : s'.children = s.children.set k c')
  (good : c'.Good q)
  (locks : s'.sems (semOf q) + (if c'.holds q then 1 else 0) =
    s.sems (semOf q) + if c.holds q then 1 else 0)

include orderly found children good locks

/-- One child takes a step, and the ranges are apart as before. -/
theorem Orderly.replace
    (issued : Issued (fun k : Nat => (s'.children[k]?).bind fun c => c.range q) (s'.seqs q))
    (last : ∀ c ∈ s'.children, c.todo.head? = some (.setval q) →
      ∃ first, c.range q = some (first, first + 1) ∧ s'.seqs q = first + 1) : s'.Orderly q := by
  refine ⟨?_, ?_, issued, last⟩
  · intro d member
    rw [children] at member
    rcases List.mem_or_eq_of_mem_set member with old | rfl
    · exact orderly.children d old
    · exact good
  · have counted := Tables.countP_set_over (Child.holds q) found c'
    have before := orderly.locks
    rw [children]
    omega

/-- One child takes a step that does not concern the sequence. -/
theorem Orderly.keep (range : c'.range q = c.range q) (seqs : s'.seqs q = s.seqs q)
    (later : c'.todo.head? ≠ some (.setval q)) : s'.Orderly q := by
  refine orderly.replace found children good locks ?_ ?_
  · obtain ⟨here, others⟩ := ranges_set found c' q
    rw [← children] at here others
    have same : (fun i : Nat => (s'.children[i]?).bind fun c => c.range q) =
        fun i : Nat => (s.children[i]?).bind fun c => c.range q := by
      funext i
      by_cases mine : i = k
      · rw [mine, here, range, found]
        rfl
      · exact others i mine
    rw [same, seqs]
    exact orderly.issued
  · intro d member head
    rw [children] at member
    rw [seqs]
    rcases List.mem_or_eq_of_mem_set member with old | rfl
    · exact orderly.last d old head
    · exact absurd head later

end Replace

/-- Whoever is about to move a sequence on is in the `eval` block. -/
theorem holds_of_setval {q : Sequence} {c : Child} (good : c.Good q)
    (head : c.todo.head? = some (.setval q)) : c.holds q = true := by
  cases todo : c.todo with
  | nil =>
      rw [todo] at head
      cases head
  | cons op rest =>
      have place := (good.tracks (good.alive todo)).place
      rw [todo] at head place
      cases head
      exact decide_eq_true (by rw [todo]; exact (ordered _ place).1)

section Alone

variable {q : Sequence} {s s' : Import} (orderly : s.Orderly q) {k : Nat} {c c' : Child}
  (found : s.children[k]? = some c) (mine : c.holds q = true)
  (children : s'.children = s.children.set k c')

include orderly found mine

/-- One child is in the `eval` block at a time. -/
theorem Orderly.alone {i : Nat} {d : Child} (other : i ≠ k) (there : s.children[i]? = some d) :
    d.holds q = false := by
  have counted := Tables.countP_eraseIdx (Child.holds q) found
  have before := orderly.locks
  rw [mine, if_pos rfl] at counted
  have nobody : (s.children.eraseIdx k).countP (Child.holds q) = 0 := by omega
  have member : d ∈ s.children.eraseIdx k := List.mem_eraseIdx_iff_getElem?.2 ⟨i, other, there⟩
  simpa using List.countP_eq_zero.1 nobody d member

include children

/-- While a child is there, nobody else is about to move the sequence on. -/
theorem Orderly.last_of (last : c'.todo.head? = some (.setval q) →
      ∃ first, c'.range q = some (first, first + 1) ∧ s'.seqs q = first + 1) :
    ∀ d ∈ s'.children, d.todo.head? = some (.setval q) →
      ∃ first, d.range q = some (first, first + 1) ∧ s'.seqs q = first + 1 := by
  intro d member head
  rw [children] at member
  obtain ⟨i, there⟩ := List.mem_iff_getElem?.1 member
  rw [List.getElem?_set] at there
  split at there
  · split at there
    · cases there
      exact last head
    · cases there
  · rename_i other
    have idle := orderly.alone found mine (Ne.symm other) there
    rw [holds_of_setval (orderly.children d (List.mem_of_getElem? there)) head] at idle
    cases idle

end Alone

section Step

variable {q : Sequence} {s : Import} (orderly : s.Orderly q) {k : Nat} {c : Child}
  (found : s.children[k]? = some c)

include orderly found

theorem Orderly.good : c.Good q := orderly.children c (List.mem_of_getElem? found)

/-- A child with something left to do is on its way. -/
theorem Orderly.way {op : Op} {rest : List Op} (todo : c.todo = op :: rest) :
    c.Tracks q ∧ op :: rest ∈ childMain.tails := by
  have good := orderly.good found
  have tracks := good.tracks (good.alive todo)
  have place := tracks.place
  rw [todo] at place
  exact ⟨tracks, place⟩

/-- Behind anything but a `nextval` there is no `setval`. -/
theorem Orderly.later {op : Op} {rest : List Op} (todo : c.todo = op :: rest)
    (other : op ≠ .nextval q) : rest.head? ≠ some (.setval q) := by
  intro head
  have before := setval_behind _ (orderly.way found todo).2 q head
  exact other (Option.some.inj before)

/-- A child that dies or leaves. -/
theorem Orderly.quits : (s.quit k c).Orderly q := by
  have good := (orderly.good found).quit
  cases held : holding c.todo with
  | none =>
      have result : s.quit k c = s.withChild k { c with todo := [], dead := true } := by
        simp only [quit, held]
      rw [result]
      refine orderly.keep found rfl good ?_ rfl rfl (fun head => by cases head)
      simp [Child.holds, held, holding, withChild]
  | some n =>
      have result : s.quit k c = (s.withChild k { c with todo := [], dead := true }).up n := by
        simp only [quit, held]
      rw [result]
      refine orderly.keep found rfl good ?_ rfl rfl (fun head => by cases head)
      by_cases mine : n = semOf q
      · subst mine
        simp [Child.holds, held, holding, withChild, up]
      · have other : semOf q ≠ n := Ne.symm mine
        simp [Child.holds, held, holding, withChild, up, mine, other]

/-- `lock`, which may have to wait. -/
theorem Orderly.locked {n : Nat} {rest : List Op} (todo : c.todo = .lock n :: rest)
    (free : s.sems n ≠ 0) :
    ({ s.withChild k { c with todo := rest } with
      sems := Function.update s.sems n (s.sems n - 1) } : Import).Orderly q := by
  obtain ⟨tracks, place⟩ := orderly.way found todo
  have inner : holding rest = if n = 4 then none else some n := ordered _ place
  have tracks' : Child.Tracks q { c with todo := rest } :=
    tracks.pass todo (fun _ same => by cases same) (fun same => by cases same)
      (fun same => by cases same) rfl ⟨rfl, rfl, rfl, rfl, rfl⟩ rfl rfl
  refine orderly.keep found rfl ((orderly.good found).follow todo rfl rfl tracks') ?_ rfl
    rfl ?_
  · have outer : c.holds q = false := by simp [Child.holds, todo, holding]
    have four : semOf q ≠ 4 := by cases q <;> decide
    rw [outer]
    by_cases mine : n = semOf q
    · subst mine
      have holds : Child.holds q { c with todo := rest } = true := by
        simp [Child.holds, inner, four]
      rw [holds]
      simp only [Function.update_self]
      simp only [Bool.false_eq_true, if_false, if_true]
      omega
    · have holds : Child.holds q { c with todo := rest } = false := by
        by_cases last : n = 4
        · simp [Child.holds, inner, last]
        · simp [Child.holds, inner, last, mine]
      rw [holds]
      simp only [Function.update_of_ne (Ne.symm mine)]
  · exact orderly.later found todo (fun same => by cases same)

/-- `unlock`. -/
theorem Orderly.unlocked {n : Nat} {rest : List Op} (todo : c.todo = .unlock n :: rest) :
    ((s.withChild k { c with todo := rest }).up n).Orderly q := by
  obtain ⟨tracks, place⟩ := orderly.way found todo
  have outside : holding rest = none := ordered _ place
  have tracks' : Child.Tracks q { c with todo := rest } :=
    tracks.pass todo (fun _ same => by cases same) (fun same => by cases same)
      (fun same => by cases same) rfl ⟨rfl, rfl, rfl, rfl, rfl⟩ rfl rfl
  refine orderly.keep found rfl ((orderly.good found).follow todo rfl rfl tracks') ?_ rfl
    rfl ?_
  · by_cases mine : n = semOf q
    · subst mine
      simp [Child.holds, todo, holding, outside, up, withChild]
    · have other : semOf q ≠ n := Ne.symm mine
      simp [Child.holds, todo, holding, outside, up, withChild, mine, other]
  · exact orderly.later found todo (fun same => by cases same)

/-- A pass is through. -/
theorem Orderly.passed {pass : Pass} {rest : List Op} (todo : c.todo = .doPass pass :: rest)
    (empty : c.left = []) :
    (s.withChild k { c with todo := rest, left := c.records }).Orderly q := by
  obtain ⟨tracks, -⟩ := orderly.way found todo
  have tracks' : Child.Tracks q { c with todo := rest, left := c.records } :=
    tracks.passEnd todo empty rfl rfl rfl rfl rfl rfl rfl rfl
  refine orderly.keep found rfl ((orderly.good found).follow todo rfl rfl tracks') ?_ rfl
    rfl ?_
  · simp [Child.holds, todo, holding, withChild]
  · exact orderly.later found todo (fun same => by cases same)

/-- A record is handled. -/
theorem Orderly.handled {pass : Pass} {r : Record} {left : List Record} {rest : List Op}
    (todo : c.todo = .doPass pass :: rest) (here : c.left = r :: left) {c' : Child}
    (result : c.handleMessage pass r = some c') :
    (s.withChild k { c' with left := left }).Orderly q := by
  obtain ⟨tracks, -⟩ := orderly.way found todo
  obtain ⟨records, todo', dead, range, invalids, few, rows, next, written⟩ :=
    Child.handleMessage_read result
  have read : Child.Read pass r c { c' with left := left } :=
    ⟨records, todo', dead, range, invalids, few, rows, next, written⟩
  have tracks' : Child.Tracks q { c' with left := left } := tracks.read todo here read rfl
  refine orderly.keep found rfl ((orderly.good found).follow todo dead records tracks') ?_
    (by rw [range]) rfl ?_
  · simp [Child.holds, todo', withChild]
  · show c'.todo.head? ≠ _
    rw [todo', todo]
    exact fun same => by cases same

/-- `nextval`. -/
theorem Orderly.drawn {q' : Sequence} {rest : List Op} (todo : c.todo = .nextval q' :: rest) :
    ({ s.withChild k { c with
        todo := rest
        next := Function.update c.next q' (s.seqs q')
        range := Function.update c.range q' (some (s.seqs q', s.seqs q' + 1)) } with
      seqs := Function.update s.seqs q' (s.seqs q' + 1) } : Import).Orderly q := by
  obtain ⟨tracks, place⟩ := orderly.way found todo
  by_cases mine : q' = q
  · subst mine
    have inner : holding rest = some (semOf q') := (ordered _ place).1
    have tracks' : Child.Tracks q' { c with
        todo := rest
        next := Function.update c.next q' (s.seqs q')
        range := Function.update c.range q' (some (s.seqs q', s.seqs q' + 1)) } :=
      tracks.nextval todo rfl ⟨rfl, rfl, rfl, rfl, rfl⟩ (Function.update_self ..)
        (Function.update_self ..)
    have holds : c.holds q' = true := by simp [Child.holds, todo, holding, inner]
    refine orderly.replace found rfl ((orderly.good found).follow todo rfl rfl tracks')
      ?_ ?_ ?_
    · simp [Child.holds, todo, holding, withChild]
    · obtain ⟨here, others⟩ := ranges_set found _ q'
      simp only [Function.update_self]
      exact orderly.issued.draw (here.trans (Function.update_self ..)) others
    · refine orderly.last_of found holds rfl ?_
      intro _
      exact ⟨s.seqs q', Function.update_self .., Function.update_self ..⟩
  · have other : q ≠ q' := Ne.symm mine
    have tracks' : Child.Tracks q { c with
        todo := rest
        next := Function.update c.next q' (s.seqs q')
        range := Function.update c.range q' (some (s.seqs q', s.seqs q' + 1)) } :=
      tracks.pass todo (fun _ same => by cases same) (fun same => mine (Op.nextval.inj same))
        (fun same => by cases same) rfl ⟨rfl, rfl, rfl, rfl, rfl⟩ (Function.update_of_ne other ..)
        (Function.update_of_ne other ..)
    refine orderly.keep found rfl ((orderly.good found).follow todo rfl rfl tracks') ?_
      (Function.update_of_ne other ..) (Function.update_of_ne other ..) ?_
    · simp [Child.holds, todo, holding, withChild]
    · exact orderly.later found todo (fun same => mine (Op.nextval.inj same))

/-- `setval`, where nothing was counted. -/
theorem Orderly.unset {q' : Sequence} {rest : List Op} (todo : c.todo = .setval q' :: rest)
    (zero : c.rows q' = 0) : (s.withChild k { c with todo := rest }).Orderly q := by
  obtain ⟨tracks, -⟩ := orderly.way found todo
  have tracks' : Child.Tracks q { c with todo := rest } := by
    by_cases mine : q' = q
    · subst mine
      refine tracks.setval todo rfl ⟨rfl, rfl, rfl, rfl, rfl⟩ rfl ?_
      rw [zero]
      exact (tracks.number todo).2
    · exact tracks.pass todo (fun _ same => by cases same) (fun same => by cases same)
        (fun same => mine (Op.setval.inj same)) rfl ⟨rfl, rfl, rfl, rfl, rfl⟩ rfl rfl
  refine orderly.keep found rfl ((orderly.good found).follow todo rfl rfl tracks') ?_ rfl
    rfl ?_
  · simp [Child.holds, todo, holding, withChild]
  · exact orderly.later found todo (fun same => by cases same)

/-- `setval`. -/
theorem Orderly.set {q' : Sequence} {rest : List Op} (todo : c.todo = .setval q' :: rest) :
    ({ s.withChild k { c with
        todo := rest
        range := Function.update c.range q' (some (c.next q', c.next q' + c.rows q' + 1)) } with
      seqs := Function.update s.seqs q' (c.next q' + c.rows q' + 1) } : Import).Orderly q := by
  obtain ⟨tracks, place⟩ := orderly.way found todo
  have behind := orderly.later found todo (fun same => by cases same)
  by_cases mine : q' = q
  · subst mine
    have inner : holding rest = some (semOf q') := (ordered _ place).1
    have range := (tracks.number todo).2
    obtain ⟨first, range', seqs⟩ := orderly.last c (List.mem_of_getElem? found)
      (by rw [todo]; rfl)
    rw [range] at range'
    cases range'
    have tracks' : Child.Tracks q' { c with
        todo := rest
        range := Function.update c.range q' (some (c.next q', c.next q' + c.rows q' + 1)) } :=
      tracks.setval todo rfl ⟨rfl, rfl, rfl, rfl, rfl⟩ rfl (Function.update_self ..)
    have holds : c.holds q' = true := by simp [Child.holds, todo, holding, inner]
    refine orderly.replace found rfl ((orderly.good found).follow todo rfl rfl tracks')
      ?_ ?_ ?_
    · simp [Child.holds, todo, holding, withChild]
    · obtain ⟨here, others⟩ := ranges_set found _ q'
      have issued := orderly.issued
      rw [seqs] at issued
      simp only [Function.update_self]
      refine issued.extend _ ?_ (here.trans (Function.update_self ..)) others
      rw [found]
      exact range
    · exact orderly.last_of found holds rfl fun head => absurd head behind
  · have other : q ≠ q' := Ne.symm mine
    have tracks' : Child.Tracks q { c with
        todo := rest
        range := Function.update c.range q' (some (c.next q', c.next q' + c.rows q' + 1)) } :=
      tracks.pass todo (fun _ same => by cases same) (fun same => by cases same)
        (fun same => mine (Op.setval.inj same)) rfl ⟨rfl, rfl, rfl, rfl, rfl⟩ rfl
        (Function.update_of_ne other ..)
    refine orderly.keep found rfl ((orderly.good found).follow todo rfl rfl tracks') ?_
      (Function.update_of_ne other ..) (Function.update_of_ne other ..) behind
    simp [Child.holds, todo, holding, withChild]

/-- A step of a child. -/
theorem Orderly.advances : (s.advance k c).Orderly q := by
  unfold advance
  cases todo : c.todo with
  | nil => exact orderly
  | cons op rest =>
      cases op with
      | lock n =>
          simp only
          split
          · exact orderly
          · exact orderly.locked found todo ‹_›
      | unlock n => exact orderly.unlocked found todo
      | doPass pass =>
          simp only
          cases here : c.left with
          | nil => exact orderly.passed found todo here
          | cons r left =>
              simp only
              cases result : c.handleMessage pass r with
              | none => exact orderly.quits found
              | some c' => exact orderly.handled found todo here result
      | nextval q' => exact orderly.drawn found todo
      | setval q' =>
          simp only
          split
          · exact orderly.unset found todo ‹_›
          · exact orderly.set found todo

end Step

/-- Every step. -/
theorem Orderly.step {q : Sequence} {s : Import} (orderly : s.Orderly q) (e : Event) :
    (s.step e).Orderly q := by
  cases e with
  | run k =>
      simp only [Import.step]
      split
      · exact orderly
      · exact orderly.advances ‹_›
  | quit k =>
      simp only [Import.step]
      split
      · exact orderly
      · exact orderly.quits ‹_›
  | reap k =>
      simp only [Import.step]
      split
      · exact orderly
      · rename_i c found
        split
        · rename_i finished
          refine orderly.keep found rfl (orderly.good found).reaped ?_ rfl rfl ?_
          · have four : semOf q ≠ 4 := by cases q <;> decide
            simp [up, withChild, four, Child.holds]
          · show c.todo.head? ≠ _
            rw [finished.1]
            exact fun same => by cases same
        · exact orderly

/-- A child that was forked. -/
theorem new_tracks (q : Sequence) (file : List UInt8) : (Child.new file).Tracks q := by
  have whole : ∀ pass, (Child.new file).ahead pass = recordsOf file := by
    intro pass
    cases pass <;> rfl
  refine ⟨(List.mem_tails _ _).2 (List.suffix_refl _), fun _ => rfl, Nat.zero_le 3, ?_, ?_, ?_,
    fun _ => rfl, ?_⟩
  · rw [whole, whole]
    rfl
  · rw [whole]
    exact Nat.zero_add _
  · rw [whole]
    exact Nat.zero_add _
  · intro gone
    have member : .nextval q ∈ childMain := by cases q <;> decide
    exact absurd member gone

theorem start_orderly {q : Sequence} {files : List (List UInt8)} (cpus : Nat)
    (seqs : Sequence → Nat) (enough : ∀ file ∈ files, Suffices q (recordsOf file)) :
    (start files cpus seqs).Orderly q := by
  have child : ∀ c ∈ (start files cpus seqs).children, ∃ file ∈ files, c = Child.new file := by
    intro c member
    obtain ⟨file, there, rfl⟩ := List.mem_map.1 member
    exact ⟨file, there, rfl⟩
  refine ⟨?_, ?_, ?_, ?_⟩
  · intro c member
    obtain ⟨file, there, rfl⟩ := child c member
    exact Child.good_of_tracks (new_tracks q file) rfl (enough file there)
  · have nobody : (start files cpus seqs).children.countP (Child.holds q) = 0 := by
      rw [List.countP_eq_zero]
      intro c member
      obtain ⟨file, -, rfl⟩ := child c member
      exact Bool.false_ne_true
    have free : (start files cpus seqs).sems (semOf q) = 1 := by
      cases q <;> rfl
    rw [nobody, free]
  · have none_ : (fun k : Nat => ((start files cpus seqs).children[k]?).bind fun c => c.range q) =
        fun _ => none := by
      funext k
      cases found : (start files cpus seqs).children[k]? with
      | none => rfl
      | some c =>
          obtain ⟨file, -, rfl⟩ := child c (List.mem_of_getElem? found)
          rfl
    rw [none_]
    exact issued_none _
  · intro c member head
    obtain ⟨file, -, rfl⟩ := child c member
    cases head

/-- Where the children stay in their ranges, no id is written twice. -/
theorem Orderly.unique {q : Sequence} {s : Import} (orderly : s.Orderly q) :
    (s.ids q).Nodup ∧ ∀ c ∈ s.children, ∀ id ∈ c.written q,
      ∃ first behind, c.range q = some (first, behind) ∧ first ≤ id ∧ id < behind := by
  have inside : ∀ c ∈ s.children, ∀ id ∈ c.written q,
      ∃ first behind, c.range q = some (first, behind) ∧ first ≤ id ∧ id < behind := by
    intro c member id written
    have stays := (orderly.children c member).inside
    cases range : c.range q with
    | none =>
        rw [stays.nothing range] at written
        cases written
    | some pair =>
        obtain ⟨first, behind⟩ := pair
        obtain ⟨ids, fits⟩ := stays.ids first behind range
        rw [ids, List.mem_range'_1] at written
        exact ⟨first, behind, rfl, written.1, by omega⟩
  refine ⟨nodup_of_issued orderly.issued ?_ inside, inside⟩
  intro c member
  have stays := (orderly.children c member).inside
  cases range : c.range q with
  | none =>
      rw [stays.nothing range]
      exact List.nodup_nil
  | some pair =>
      rw [(stays.ids pair.1 pair.2 range).1]
      exact List.nodup_range'

end Import

/-- Pass 2 takes an id for what is counted, and for every CONNECTOR record. -/
theorem countP_uses (records : List Record) : records.countP (uses .messages) =
    records.countP (counted .messages) + connectors records := by
  rw [connectors]
  induction records with
  | nil => rfl
  | cons r rest ih =>
      have one : (if uses .messages r = true then 1 else 0) =
          (if counted .messages r = true then 1 else 0) +
            if decide (r.type = some 64) = true then 1 else 0 := by
        cases type : r.type with
        | none => simp [uses, counted, type]
        | some t =>
            by_cases connector : t = 64
            · subst connector
              simp [uses, counted, type, usesType, countsType]
            · simp [uses, counted, type, usesType, countsType, connector]
      rw [List.countP_cons, List.countP_cons, List.countP_cons, one, ih]
      omega

theorem suffices_of_fits {records : List Record} (fits : Fits records) :
    Suffices .messages records := by
  rcases fits with few | bad
  · left
    rw [countP_uses]
    omega
  · exact Or.inr bad

/-- In every interleaving of the imports of files that have at most one CONNECTOR record, or
enough malformed messages that the child dies first, no message id is written twice, and
every import stays in the range it has reserved. -/
theorem message_ids_unique (files : List (List UInt8)) (cpus : Nat) (seqs : Sequence → Nat)
    (fits : ∀ file ∈ files, Fits (recordsOf file)) (events : List Event) :
    ((run Import.step (Import.start files cpus seqs) events).ids .messages).Nodup ∧
      ∀ c ∈ (run Import.step (Import.start files cpus seqs) events).children,
        ∀ id ∈ c.written .messages, ∃ first behind,
          c.range .messages = some (first, behind) ∧ first ≤ id ∧ id < behind := by
  apply Import.Orderly.unique
  exact run_keeps (fun _ e orderly => orderly.step e)
    (Import.start_orderly cpus seqs fun file member => suffices_of_fits (fits file member)) events

/-- The ids of the other two tables are counted by the same types that take them. -/
theorem row_ids_unique {q : Sequence} (other : q ≠ .messages) (files : List (List UInt8))
    (cpus : Nat) (seqs : Sequence → Nat) (events : List Event) :
    ((run Import.step (Import.start files cpus seqs) events).ids q).Nodup := by
  have enough : ∀ records, Suffices q records := by
    intro records
    left
    cases q with
    | messages => exact absurd rfl other
    | bitcoinCxnMessages => exact Nat.le_succ _
    | bitcoinMessages => exact Nat.le_succ _
  have orderly : (run Import.step (Import.start files cpus seqs) events).Orderly q :=
    run_keeps (fun _ e orderly => orderly.step e)
      (Import.start_orderly cpus seqs fun _ _ => enough _) events
  exact orderly.unique.1

/-- A CONNECTOR record, with its length: from source 1, with the text `up`. -/
def someConnector : List UInt8 :=
  [0, 0, 0, 16, 0, 0, 0, 1, 64, 0, 0, 0, 0, 83, 0, 0, 0, 117, 112, 0]

/-- One child after the other. -/
def inTurn : List Event := List.replicate 30 (.run 0) ++ List.replicate 30 (.run 1)

theorem message_ids_unique_two :
    ((run Import.step (Import.start [someConnector, someConnector] 2 fun _ => 1)
      inTurn).ids .messages).Nodup := by
  refine (message_ids_unique [someConnector, someConnector] 2 (fun _ => 1) ?_ inTurn).1
  intro file member
  left
  have same : file = someConnector := by simpa using member
  rw [same]
  decide

/-- The first file has two of them, and the second id is the one the second child gets. -/
theorem message_id_twice :
    ¬ ((run Import.step (Import.start [someConnector ++ someConnector, someConnector] 2 fun _ => 1)
      inTurn).ids .messages).Nodup := by
  decide +kernel

end Coinscope.Tools

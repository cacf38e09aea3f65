/-
# Tools.SqlImport -- a verbatim file as a database

`main` of verbatim2sql reads a length and that many bytes in turn, with as many calls of `read` as
it takes, and gives each record to `handle_message`.  A call that returns nothing ends the loop: at
the end of the file, where `read` fails, and behind a length of zero, since then nothing is asked
for.  The indices are made and the transaction is committed behind the loop, so a script that dies
leaves the database as it was.

* `Script.step` -- one call of `read`.
* `run_reads` -- the calls, however they cut the file, hand on the records of `recordsOf`.
* `Database.Stored` -- what holds of a database between two runs of the script.
* `sql_import` -- what is in the database behind a run.
-/
import Coinscope.Theory.Runs
import Coinscope.Tools.SqlRecords

namespace Coinscope.Tools.Verbatim2sql

open Coinscope.Shared
open Coinscope.Theory.Bytes
open Coinscope.Theory.Runs

set_option autoImplicit false

/-! ## The loop -/

/-- The variables of the loop, and what of the file is still to be read.  `$has_read` is the length
of `cur`. -/
structure Reading where
  rest : List UInt8
  readingLen : Bool
  toRead : Nat
  cur : List UInt8
  database : Database

inductive Script where
  | reading (s : Reading)
  | committed (d : Database)
  | stopped (why : Stop)

/-- The statements of `$indices`.  They fail where two rows have one text, or two texts belong to
one message. -/
def createIndices (d : Database) : Option Database :=
  if unique : (d.db.tables.textStrings.rows.map Prod.snd).Nodup ∧
      (d.textMessages.map Prod.fst).Nodup then
    some { d with db := { d.db with tables := { d.db.tables with
      textStrings := { d.db.tables.textStrings with unique := true, values := fun _ => unique.1 } } } }
  else none

/-- Behind the loop. -/
def finish (d : Database) : Script :=
  match createIndices d with
  | some d => .committed d
  | none => .stopped .died

/-- `read` has returned some bytes. -/
def Reading.arrived (foreignKeys : Bool) (s : Reading) (got : List UInt8) : Script :=
  let s := { s with
    rest := s.rest.drop got.length
    toRead := s.toRead - got.length
    cur := s.cur ++ got }
  if s.toRead ≠ 0 then .reading s
  else if s.readingLen then
    .reading { s with readingLen := false, toRead := ofBE s.cur, cur := [] }
  else
    match s.database.handleMessage foreignKeys s.cur with
    | .ok d => .reading { s with readingLen := true, toRead := 4, cur := [], database := d }
    | .error why => .stopped why

/-- One turn of the loop, with a `read` that returns `most + 1` bytes at most. -/
def Script.step (foreignKeys : Bool) (script : Script) (most : Nat) : Script :=
  match script with
  | .reading s =>
      let got := s.rest.take (min s.toRead (most + 1))
      if got = [] then finish s.database else s.arrived foreignKeys got
  | .committed d => .committed d
  | .stopped why => .stopped why

/-- In front of the loop: the hashes are empty. -/
def Script.start (before : Database) (file : List UInt8) : Script :=
  .reading
    { rest := file, readingLen := true, toRead := 4, cur := [],
      database := { before with db := Db.opened before.db.tables } }

/-! ## The records of a file -/

theorem recordsAux_fuel (fuel : Nat) : ∀ (fuel' : Nat) (file : List UInt8), file.length ≤ fuel →
    file.length ≤ fuel' → recordsAux fuel file = recordsAux fuel' file := by
  induction fuel with
  | zero =>
      intro fuel' file short _
      obtain rfl := List.length_eq_zero_iff.1 (Nat.le_zero.1 short)
      cases fuel' <;> simp [recordsAux]
  | succ fuel ih =>
      intro fuel' file short short'
      cases fuel' with
      | zero =>
          obtain rfl := List.length_eq_zero_iff.1 (Nat.le_zero.1 short')
          simp [recordsAux]
      | succ fuel' =>
          simp only [recordsAux]
          split
          · rfl
          · rename_i whole
            rw [not_or, not_or, Nat.not_lt, Nat.not_lt] at whole
            have left : ((file.drop 4).drop (ofBE (file.take 4))).length + 4 ≤ file.length := by
              rw [List.length_drop, List.length_drop]
              omega
            rw [ih fuel' _ (by omega) (by omega)]

/-- What the loop finds at the front of a file. -/
theorem recordsOf_eq (file : List UInt8) :
    recordsOf file =
      if file.length < 4 ∨ ofBE (file.take 4) = 0 ∨
          (file.drop 4).length < ofBE (file.take 4) then []
      else (file.drop 4).take (ofBE (file.take 4)) ::
        recordsOf ((file.drop 4).drop (ofBE (file.take 4))) := by
  rw [recordsOf, recordsAux_fuel _ (file.length + 1) file (Nat.le_refl _) (Nat.le_succ _),
    recordsAux]
  split
  · rfl
  · rw [recordsOf, recordsAux_fuel file.length _ _ ?_ (Nat.le_refl _)]
    rw [List.length_drop, List.length_drop]
    omega

/-- The records that are still to be handled. -/
def Reading.left (s : Reading) : List Record :=
  let size := s.cur.length + s.toRead
  if s.readingLen then recordsOf (s.cur ++ s.rest)
  else if size = 0 ∨ (s.cur ++ s.rest).length < size then []
  else (s.cur ++ s.rest).take size :: recordsOf ((s.cur ++ s.rest).drop size)

/-- Between two calls of `read`. -/
def Reading.Fine (s : Reading) : Prop :=
  if s.readingLen then s.cur.length + s.toRead = 4 ∧ 0 < s.toRead
  else s.toRead = 0 → s.cur = []

/-- Nothing is read: at the end of the file, or where nothing is asked for. -/
theorem Reading.left_of_nothing {s : Reading} (fine : s.Fine) {most : Nat}
    (nothing : s.rest.take (min s.toRead (most + 1)) = []) : s.left = [] := by
  have stuck : s.toRead = 0 ∨ s.rest = [] := by
    rcases List.take_eq_nil_iff.1 nothing with zero | empty
    · exact Or.inl (by omega)
    · exact Or.inr empty
  rw [left]
  rw [Fine] at fine
  by_cases header : s.readingLen = true
  · rw [if_pos header] at fine ⊢
    obtain zero | empty := stuck
    · omega
    · rw [empty, List.append_nil, recordsOf_eq, if_pos (Or.inl (by omega))]
  · rw [if_neg header] at fine ⊢
    refine if_pos ?_
    obtain zero | empty := stuck
    · exact Or.inl (by rw [fine zero, zero]; rfl)
    · by_cases zero : s.toRead = 0
      · exact Or.inl (by rw [fine zero, zero]; rfl)
      · rw [empty, List.append_nil]
        exact Or.inr (by omega)

/-- Something is read: the records are the same, or the first one of them is handled. -/
theorem Reading.arrived_spec {foreignKeys : Bool} {s : Reading} (fine : s.Fine) {got more : List UInt8}
    (rest : s.rest = got ++ more) (some_ : got ≠ []) (fits : got.length ≤ s.toRead) :
    (∃ s' : Reading, s.arrived foreignKeys got = .reading s' ∧ s'.Fine ∧ s'.rest = more ∧
        s'.database = s.database ∧ s'.left = s.left) ∨
      ∃ r records, s.left = r :: records ∧
        ((∃ d, s.database.handleMessage foreignKeys r = .ok d ∧
            ∃ s' : Reading, s.arrived foreignKeys got = .reading s' ∧ s'.Fine ∧ s'.rest = more ∧
              s'.database = d ∧ s'.left = records) ∨
          ∃ why, s.database.handleMessage foreignKeys r = .error why ∧
            s.arrived foreignKeys got = .stopped why) := by
  have positive : 0 < got.length := List.length_pos_iff.2 some_
  have behind : s.rest.drop got.length = more := by rw [rest, List.drop_left]
  have whole : s.cur ++ s.rest = (s.cur ++ got) ++ more := by rw [rest, List.append_assoc]
  rw [arrived]
  dsimp only
  rw [behind]
  rw [Fine] at fine
  by_cases asked : s.toRead - got.length ≠ 0
  · -- a part of what was asked for
    rw [if_pos asked]
    refine Or.inl ⟨_, rfl, ?_, rfl, rfl, ?_⟩
    · rw [Fine]
      dsimp only
      split
      · rename_i header
        rw [if_pos header] at fine
        rw [List.length_append]
        omega
      · exact fun zero => absurd zero asked
    · have sizes : (s.cur ++ got).length + (s.toRead - got.length) = s.cur.length + s.toRead := by
        rw [List.length_append]
        omega
      rw [left, left]
      dsimp only
      rw [sizes, whole]
  · have all : got.length = s.toRead := by omega
    rw [if_neg asked]
    by_cases header : s.readingLen = true
    · -- the length
      rw [if_pos header] at fine ⊢
      have four : (s.cur ++ got).length = 4 := by
        rw [List.length_append, all]
        exact fine.1
      refine Or.inl ⟨_, rfl, ?_, rfl, rfl, ?_⟩
      · exact fun _ => rfl
      · have front : (s.cur ++ got ++ more).take 4 = s.cur ++ got := by rw [← four, List.take_left]
        have after : (s.cur ++ got ++ more).drop 4 = more := by rw [← four, List.drop_left]
        have long : ¬ (s.cur ++ got ++ more).length < 4 := by
          rw [List.length_append, four]
          omega
        rw [left, left, if_pos header, whole, recordsOf_eq (s.cur ++ got ++ more), front, after]
        simp only [long, false_or, Bool.false_eq_true, if_false, List.length_nil, Nat.zero_add,
          List.nil_append]
    · -- the record
      rw [if_neg header] at fine ⊢
      have size : (s.cur ++ got).length = s.cur.length + s.toRead := by
        rw [List.length_append, all]
      have here : s.left = (s.cur ++ got) :: recordsOf more := by
        rw [left]
        rw [if_neg header, whole, ← size, if_neg, List.take_left, List.drop_left]
        rw [List.length_append, List.length_append]
        omega
      refine Or.inr ⟨_, _, here, ?_⟩
      cases handled : s.database.handleMessage foreignKeys (s.cur ++ got) with
      | ok d =>
          refine Or.inl ⟨d, rfl, _, rfl, ?_, rfl, rfl, ?_⟩
          · exact ⟨rfl, Nat.zero_lt_succ 3⟩
          · rfl
      | error why => exact Or.inr ⟨why, rfl, rfl⟩

/-- How a run ends whose records are handled so. -/
def closing : Except Stop Database → Script
  | .ok d => finish d
  | .error why => .stopped why

def Script.Over : Script → Prop
  | .reading _ => False
  | .committed _ => True
  | .stopped _ => True

theorem over_finish (d : Database) : (finish d).Over := by
  rw [finish]
  split <;> trivial

theorem run_over {foreignKeys : Bool} {script : Script} (over_ : script.Over) (reads : List Nat) :
    run (Script.step foreignKeys) script reads = script := by
  induction reads with
  | nil => rfl
  | cons most rest ih =>
      cases script with
      | reading s => cases over_
      | committed d => exact ih
      | stopped why => exact ih

/-- Enough calls of `read`, however much each of them returns, hand on the records in order. -/
theorem run_reads (foreignKeys : Bool) (reads : List Nat) : ∀ s : Reading, s.Fine →
    s.rest.length < reads.length →
    run (Script.step foreignKeys) (.reading s) reads =
      closing (s.left.foldlM (fun d r => d.handleMessage foreignKeys r) s.database) := by
  induction reads with
  | nil =>
      intro s _ enough
      exact absurd enough (Nat.not_lt_zero _)
  | cons most reads ih =>
      intro s fine enough
      rw [run_cons, Script.step]
      by_cases nothing : s.rest.take (min s.toRead (most + 1)) = []
      · rw [if_pos nothing, s.left_of_nothing fine nothing]
        exact run_over (over_finish s.database) reads
      · rw [if_neg nothing]
        have fits : (s.rest.take (min s.toRead (most + 1))).length ≤ s.toRead := by
          rw [List.length_take]
          omega
        have positive := List.length_pos_iff.2 nothing
        have split_ := (List.take_append_drop (min s.toRead (most + 1)) s.rest).symm
        have fewer : (s.rest.drop (min s.toRead (most + 1))).length < reads.length := by
          have counted := congrArg List.length split_
          rw [List.length_append] at counted
          rw [List.length_cons] at enough
          omega
        rcases Reading.arrived_spec fine split_ nothing fits with
          ⟨s', went, fine', more, same, left⟩ | ⟨r, records, left, ⟨d, handled, s', went, fine', more,
            database, left'⟩ | ⟨why, handled, went⟩⟩
        · rw [went, ih s' fine' (more ▸ fewer), left, same]
        · rw [went, ih s' fine' (more ▸ fewer), left, List.foldlM_cons, handled, left', database]
          rfl
        · have over_ : (Script.stopped why).Over := trivial
          rw [went, run_over over_, left, List.foldlM_cons, handled]
          rfl

/-! ## Databases between runs -/

/-- A database no script is at work on: new, or behind a run of the script. -/
structure Database.Stored (foreignKeys : Bool) (d : Database) : Prop where
  intact : d.Intact foreignKeys
  distinct : (d.db.tables.textStrings.rows.map Prod.snd).Nodup
  new : d.db.tables.textStrings.unique = false → d.db.tables.textStrings.rows = []
  constraint : d.db.tables.addresses.unique = true

namespace Database

variable {foreignKeys : Bool} {all : Set Address} {d : Database}

theorem Stored.ready (stored : d.Stored foreignKeys) (all : Set Address) :
    ({ d with db := Db.opened d.db.tables } : Database).Ready foreignKeys all where
  intact := ⟨stored.intact.textMessages, stored.intact.once, stored.intact.cxns,
    stored.intact.cxnTexts, stored.intact.bitcoinMessages, stored.intact.payloads,
    stored.intact.families⟩
  texts := by
    refine ⟨?_, stored.distinct, ?_⟩
    · intro text _ id found
      cases found
    · intro open_ row member
      have nothing : d.db.tables.textStrings.rows = [] := stored.new open_
      have inside : row ∈ d.db.tables.textStrings.rows := member
      rw [nothing] at inside
      cases inside
  addresses := by
    refine ⟨?_, d.db.tables.addresses.values stored.constraint, ?_⟩
    · intro a _ id found
      cases found
    · intro open_
      have closed : d.db.tables.addresses.unique = false := open_
      rw [stored.constraint] at closed
      cases closed
  constraint := stored.constraint

/-- The indices are made, and what is committed can be worked on by the next script. -/
theorem Ready.finish (ready : d.Ready foreignKeys all) :
    ∃ after, Verbatim2sql.finish d = .committed after ∧ after.Stored foreignKeys ∧
      after.entries = d.entries := by
  have unique : (d.db.tables.textStrings.rows.map Prod.snd).Nodup ∧
      (d.textMessages.map Prod.fst).Nodup := ⟨ready.texts.distinct, ready.intact.once⟩
  rw [Verbatim2sql.finish, createIndices, dif_pos unique]
  refine ⟨_, rfl, ⟨?_, ready.texts.distinct, ?_, ready.constraint⟩, rfl⟩
  · exact ⟨ready.intact.textMessages, ready.intact.once, ready.intact.cxns, ready.intact.cxnTexts,
      ready.intact.bitcoinMessages, ready.intact.payloads, ready.intact.families⟩
  · intro open_
    cases open_

end Database

section Files

variable {foreignKeys : Bool} {all : Set Address}

/-- Records that are taken, one behind the other. -/
theorem foldlM_ready (apart : Set.InjOn addrKey all) (records : List Record) :
    ∀ d : Database, d.Ready foreignKeys all → (∀ r ∈ records, Legible r) →
      (∀ r ∈ records, ∀ a ∈ addressesOf r, a ∈ all) →
      (foreignKeys = true → ∀ r ∈ records, ¬ Refused r) →
      ∃ d', records.foldlM (fun d r => d.handleMessage foreignKeys r) d = .ok d' ∧
        d'.Ready foreignKeys all ∧ d'.entries = d.entries ++ records.filterMap entryOf := by
  induction records with
  | nil =>
      intro d ready _ _ _
      exact ⟨d, rfl, ready, (List.append_nil _).symm⟩
  | cons r rest ih =>
      intro d ready legible named taken
      obtain ⟨d₁, handled, ready₁, entries₁⟩ := Database.handleMessage_ready ready apart
        (legible r List.mem_cons_self) (named r List.mem_cons_self)
        fun checked => taken checked r List.mem_cons_self
      obtain ⟨d₂, more, ready₂, entries₂⟩ := ih d₁ ready₁
        (fun r' later => legible r' (List.mem_cons_of_mem r later))
        (fun r' later => named r' (List.mem_cons_of_mem r later))
        (fun checked r' later => taken checked r' (List.mem_cons_of_mem r later))
      refine ⟨d₂, ?_, ready₂, ?_⟩
      · rw [List.foldlM_cons, handled]
        exact more
      · rw [entries₂, entries₁, List.append_assoc]
        congr 1
        cases said : entryOf r <;> simp [said]

/-- Records in front of one that is refused. -/
theorem foldlM_refused (apart : Set.InjOn addrKey all) (records : List Record) :
    ∀ d : Database, d.Ready true all → (∀ r ∈ records, Legible r) →
      (∀ r ∈ records, ∀ a ∈ addressesOf r, a ∈ all) → (∃ r ∈ records, Refused r) →
      records.foldlM (fun d r => d.handleMessage true r) d = .error .died := by
  induction records with
  | nil =>
      rintro d - - - ⟨r, member, -⟩
      cases member
  | cons r rest ih =>
      intro d ready legible named somewhere
      by_cases here : Refused r
      · rw [List.foldlM_cons, Database.handleMessage_refused ready apart
          (legible r List.mem_cons_self) (named r List.mem_cons_self) here]
        rfl
      · obtain ⟨d₁, handled, ready₁, -⟩ := Database.handleMessage_ready ready apart
          (legible r List.mem_cons_self) (named r List.mem_cons_self) fun _ => here
        obtain ⟨r', member, refused⟩ := somewhere
        have later : r' ∈ rest := by
          rcases List.mem_cons.1 member with rfl | later
          · exact absurd refused here
          · exact later
        rw [List.foldlM_cons, handled]
        exact ih d₁ ready₁ (fun r' later => legible r' (List.mem_cons_of_mem r later))
          (fun r' later => named r' (List.mem_cons_of_mem r later)) ⟨r', later, refused⟩

end Files

theorem run_start (foreignKeys : Bool) (before : Database) (file : List UInt8) (reads : List Nat)
    (enough : file.length < reads.length) :
    run (Script.step foreignKeys) (.start before file) reads =
      closing ((recordsOf file).foldlM (fun d r => d.handleMessage foreignKeys r)
        { before with db := Db.opened before.db.tables }) :=
  run_reads foreignKeys reads _ ⟨rfl, Nat.zero_lt_succ 3⟩ enough

/-- A file whose records have all their fields and timestamps below 2^63, and whose addresses have
different keys, is read from a database no script is at work on, with any calls of `read`.  If
SQLite takes all of its connection events, then the database has, behind the entries it had, what
the records of the file say, in order, and is fit for the next run.  If not, and references are
checked, the script dies and commits nothing. -/
theorem sql_import (foreignKeys : Bool) (before : Database) (stored : before.Stored foreignKeys)
    (file : List UInt8) (legible : ∀ r ∈ recordsOf file, Legible r)
    (apart : Set.InjOn addrKey {a | ∃ r ∈ recordsOf file, a ∈ addressesOf r})
    (reads : List Nat) (enough : file.length < reads.length) :
    ((foreignKeys = true → ∀ r ∈ recordsOf file, ¬ Refused r) →
      ∃ after, run (Script.step foreignKeys) (.start before file) reads = .committed after ∧
        after.Stored foreignKeys ∧
        after.entries = before.entries ++ (recordsOf file).filterMap entryOf) ∧
    (foreignKeys = true → (∃ r ∈ recordsOf file, Refused r) →
      run (Script.step foreignKeys) (.start before file) reads = .stopped .died) := by
  have named : ∀ r ∈ recordsOf file, ∀ a ∈ addressesOf r,
      a ∈ {a | ∃ r ∈ recordsOf file, a ∈ addressesOf r} := fun r member a inside =>
    ⟨r, member, inside⟩
  have ready := stored.ready {a | ∃ r ∈ recordsOf file, a ∈ addressesOf r}
  rw [run_start foreignKeys before file reads enough]
  constructor
  · intro taken
    obtain ⟨d, handled, ready', entries⟩ := foldlM_ready apart _ _ ready legible named taken
    obtain ⟨after, finished, stored', same⟩ := ready'.finish
    exact ⟨after, by rw [handled]; exact finished, stored', same.trans entries⟩
  · rintro rfl refused
    rw [foldlM_refused apart _ _ ready legible named refused]
    rfl

/-- A database without a row. -/
def emptyDatabase : Database where
  db := Db.opened noTables
  textMessages := []
  bitcoinMessages := []
  bitcoinMessagePayloads := []

theorem emptyDatabase_stored (foreignKeys : Bool) : emptyDatabase.Stored foreignKeys := by
  refine ⟨⟨?_, List.nodup_nil, ?_, ?_, ?_, ?_, ?_⟩, List.nodup_nil, fun _ => rfl, rfl⟩
  · exact List.forall_mem_nil _
  · exact List.forall_mem_nil _
  · exact List.forall_mem_nil _
  · exact List.forall_mem_nil _
  · exact List.forall_mem_nil _
  · exact fun _ => List.forall_mem_nil _

/-- A text, and a connection from 10.0.0.1:1 to 10.0.0.2:2 in the sixteen bytes for each address
that the script unpacks. -/
def someRecords : List Record :=
  [be 4 1 ++ [2] ++ be 8 5 ++ ascii ['h', 'i', '\x00'],
    be 4 1 ++ [16] ++ be 8 6 ++ (be 4 9 ++ be 4 1 ++ ([2, 0, 0, 2, 10, 0, 0, 2] ++ be 8 0) ++
      ([2, 0, 0, 1, 10, 0, 0, 1] ++ be 8 0) ++ be 4 1 ++ [0])]

def someVerbatimFile : List UInt8 := someRecords.flatMap fun r => be 4 r.length ++ r

/-- A file with a text and a connection, and thirty bytes at most in a call of `read`. -/
theorem sql_import_small :
    ∃ after, run (Script.step true) (.start emptyDatabase someVerbatimFile)
        (List.replicate 85 29) = .committed after ∧
      after.entries = [.text 2 5 (ascii ['h', 'i', '\x00']),
        .cxn 6 ⟨9, 1, ⟨2, 0x0a000002, 2⟩, ⟨2, 0x0a000001, 1⟩, []⟩] := by
  have apart : ∀ a ∈ (recordsOf someVerbatimFile).flatMap addressesOf,
      ∀ c ∈ (recordsOf someVerbatimFile).flatMap addressesOf, addrKey a = addrKey c → a = c := by
    decide +kernel
  obtain ⟨after, committed, -, entries⟩ := (sql_import true emptyDatabase
    (emptyDatabase_stored true) someVerbatimFile (by decide +kernel)
    (fun a left c right same => apart a (List.mem_flatMap.2 left) c (List.mem_flatMap.2 right) same)
    (List.replicate 85 29) (by decide +kernel)).1 fun _ => by decide +kernel
  refine ⟨after, committed, entries.trans ?_⟩
  decide +kernel

end Coinscope.Tools.Verbatim2sql

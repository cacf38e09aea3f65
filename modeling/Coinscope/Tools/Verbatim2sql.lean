/-
# Tools.Verbatim2sql -- ids of addresses and texts in SQLite

`verbatim2sql.pl` writes a verbatim stream to an SQLite database.  Addresses and texts have
tables of their own, and the script keeps the ids it has seen in hashes.  The key of a text is
the text.  The key of an address is its three numbers in decimal, one behind the other with
nothing between them, so `1.1.1.1:18333` and `10.10.10.11:8333` have one key.

* `Table` -- a table with a primary key, and with a UNIQUE constraint where it has one.
* `Db.getAddrId`, `Db.getTextId` -- the two subroutines; `Db.bitcoinHandler` calls them.
* `addrIds_right_iff` -- the sequences of addresses for which all ids are right.
-/
import Coinscope.Shared.Bitcoin
import Coinscope.Theory.Caches
import Coinscope.Theory.Tables

namespace Coinscope.Tools.Verbatim2sql

open Coinscope.Shared
open Coinscope.Theory.Bytes
open Coinscope.Theory.Caches
open Coinscope.Theory.Tables

set_option autoImplicit false

/-! ## Tables -/

section Rows

variable {α : Type} [DecidableEq α]

/-- The rows of a table with an `id INTEGER PRIMARY KEY`, oldest first.  `unique` is whether
there is a UNIQUE constraint over the other columns. -/
structure Table (α : Type) where
  rows : List (Nat × α)
  unique : Bool
  ids : (rows.map Prod.fst).Nodup
  values : unique = true → (rows.map Prod.snd).Nodup

/-- The rowid SQLite gives a new row: one more than the largest one. -/
def newRowid (rows : List (Nat × α)) : Nat := (rows.map Prod.fst).foldr max 0 + 1

omit [DecidableEq α] in
theorem lt_newRowid {rows : List (Nat × α)} {row : Nat × α} (member : row ∈ rows) :
    row.1 < newRowid rows := by
  induction rows with
  | nil => cases member
  | cons first rest ih =>
      simp only [newRowid, List.map_cons, List.foldr_cons] at ih ⊢
      rcases List.mem_cons.1 member with rfl | later
      · omega
      · have below := ih later
        omega

omit [DecidableEq α] in
theorem ids_append (t : Table α) (a : α) :
    ((t.rows ++ [(newRowid t.rows, a)]).map Prod.fst).Nodup := by
  rw [List.map_append, List.nodup_append]
  refine ⟨t.ids, List.nodup_singleton _, ?_⟩
  intro id old new fresh same
  obtain ⟨row, member, rfl⟩ := List.mem_map.1 old
  obtain rfl := List.mem_singleton.1 fresh
  exact Nat.ne_of_lt (lt_newRowid member) same

namespace Table

def holds (t : Table α) (a : α) : Bool := t.rows.any fun row => decide (row.2 = a)

theorem values_append {t : Table α} {a : α} (new : ¬ (t.unique = true ∧ t.holds a = true)) :
    t.unique = true → ((t.rows ++ [(newRowid t.rows, a)]).map Prod.snd).Nodup := by
  intro unique
  rw [List.map_append, List.nodup_append]
  refine ⟨t.values unique, List.nodup_singleton _, ?_⟩
  intro value old value' last same
  obtain ⟨row, member, rfl⟩ := List.mem_map.1 old
  obtain rfl := List.mem_singleton.1 last
  apply new
  refine ⟨unique, ?_⟩
  rw [holds, List.any_eq_true]
  exact ⟨row, member, decide_eq_true same⟩

/-- `insert or ignore into ...`. -/
def insertOrIgnore (t : Table α) (a : α) : Table α :=
  if h : t.unique = true ∧ t.holds a = true then t
  else
    { rows := t.rows ++ [(newRowid t.rows, a)]
      unique := t.unique
      ids := ids_append t a
      values := values_append h }

/-- The first row of `select id from ... where ...`. -/
def select (t : Table α) (a : α) : Option Nat :=
  (t.rows.find? fun row => decide (row.2 = a)).map Prod.fst

/-- The two statements behind a miss.  The script dies where `fetch` returns no row. -/
def rowId (t : Table α) (a : α) : Option (Nat × Table α) :=
  let t := t.insertOrIgnore a
  match t.select a with
  | some id => some (id, t)
  | none => none

theorem mem_of_select {t : Table α} {a : α} {id : Nat} (found : t.select a = some id) :
    (id, a) ∈ t.rows := by
  obtain ⟨row, first, rfl⟩ := Option.map_eq_some_iff.1 found
  obtain ⟨member, rfl⟩ := find?_key_some first
  exact member

theorem exists_select {t : Table α} {a : α} {id : Nat} (member : (id, a) ∈ t.rows) :
    ∃ first, t.select a = some first := by
  obtain ⟨row, first⟩ := exists_find?_key Prod.snd member
  exact ⟨row.1, Option.map_eq_some_iff.2 ⟨row, first, rfl⟩⟩

omit [DecidableEq α] in
/-- No two values have a row with the same id. -/
theorem value_of_id {t : Table α} {a a' : α} {id : Nat} (left : (id, a) ∈ t.rows)
    (right : (id, a') ∈ t.rows) : a = a' :=
  congrArg Prod.snd (List.inj_on_of_nodup_map t.ids left right rfl)

/-- Behind the insertion there is a row. -/
theorem select_insertOrIgnore (t : Table α) (a : α) :
    ∃ id, (t.insertOrIgnore a).select a = some id := by
  rw [insertOrIgnore]
  split
  · rename_i there
    obtain ⟨row, member, value⟩ := List.any_eq_true.1 there.2
    have here : (row.1, a) ∈ t.rows := by
      rw [← of_decide_eq_true value]
      exact member
    exact exists_select here
  · exact exists_select (List.mem_append_right _ (List.mem_singleton.2 rfl))

theorem select_keeps (t : Table α) (a c : α) (id : Nat) (found : t.select c = some id) :
    (t.insertOrIgnore a).select c = some id := by
  rw [insertOrIgnore]
  split
  · exact found
  · rw [select, Option.map_eq_some_iff] at found ⊢
    obtain ⟨row, first, rfl⟩ := found
    exact ⟨row, by rw [List.find?_append, first]; rfl, rfl⟩

theorem lawful_rowId :
    Lawful (fun (t : Table α) a => t.rowId a) fun t a id => t.select a = some id where
  finds := by
    intro t a
    obtain ⟨id, found⟩ := select_insertOrIgnore t a
    exact ⟨id, t.insertOrIgnore a, by simp only [rowId, found], found⟩
  keeps := by
    intro t a id t' result c d found
    obtain ⟨first, selected⟩ := select_insertOrIgnore t a
    simp only [rowId, selected, Option.some.injEq, Prod.mk.injEq] at result
    rw [← result.2]
    exact select_keeps t a c d found
  identifies := by
    intro t a a' id left right
    exact value_of_id (mem_of_select left) (mem_of_select right)

end Table

end Rows

/-! ## Addresses and texts -/

/-- A row of `addresses`, without its id. -/
structure Address where
  family : Nat
  address : Nat
  port : Nat
  deriving DecidableEq, Repr

/-- A number in a string. -/
def decimal (n : Nat) : List Char := Nat.toDigits 10 n

/-- `$_[0] . $_[1] . $_[2]`. -/
def addrKey (a : Address) : List Char := decimal a.family ++ decimal a.address ++ decimal a.port

/-- A row of `bitcoin_cxn_messages`, without its id. -/
structure CxnRow where
  messageId : Nat
  cxnTypeId : Nat
  handleId : Nat
  remoteId : Nat
  localId : Nat
  deriving DecidableEq

/-- The tables the handlers write to.  `messages` and `bitcoin_cxn_messages` have ids of their
own too. -/
structure Tables where
  messages : List (Nat × Nat × Nat)
  textStrings : Table (List UInt8)
  addresses : Table Address
  bitcoinCxnMessages : List (Nat × CxnRow)
  cxnTextMap : List (Nat × Nat)

/-- The database, `%g_textid_cache` and `%g_addrid_cache`. -/
structure Db where
  tables : Tables
  gTextidCache : List UInt8 → Option Nat
  gAddridCache : List Char → Option Nat

namespace Db

/-- The script starts with empty hashes, on the database as it is. -/
def opened (tables : Tables) : Db :=
  { tables := tables, gTextidCache := fun _ => none, gAddridCache := fun _ => none }

/-- `insert_prolog`; `last_insert_rowid` is the id of the new row.  The column `timestamp` is an
INTEGER, and below 2^63 it holds what is inserted. -/
def insertProlog (db : Db) (type timestamp : Nat) : Nat × Db :=
  let mid := newRowid db.tables.messages
  (mid, { db with
    tables := { db.tables with messages := db.tables.messages ++ [(mid, type, timestamp)] } })

/-- `get_text_id`. -/
def getTextId (db : Db) (text : List UInt8) : Option (Nat × Db) :=
  match cached Table.rowId (fun text => text) ⟨db.tables.textStrings, db.gTextidCache⟩ text with
  | some (id, after) =>
      some (id, { db with
        tables := { db.tables with textStrings := after.store }, gTextidCache := after.cache })
  | none => none

/-- `get_addr_id`. -/
def getAddrId (db : Db) (a : Address) : Option (Nat × Db) :=
  match cached Table.rowId addrKey ⟨db.tables.addresses, db.gAddridCache⟩ a with
  | some (id, after) =>
      some (id, { db with
        tables := { db.tables with addresses := after.store }, gAddridCache := after.cache })
  | none => none

/-- The insertion into `bitcoin_cxn_messages`.  The message is a new one, so its UNIQUE
constraint is met. -/
def insertCxn (db : Db) (row : CxnRow) : Nat × Db :=
  let bId := newRowid db.tables.bitcoinCxnMessages
  (bId, { db with
    tables := { db.tables with
      bitcoinCxnMessages := db.tables.bitcoinCxnMessages ++ [(bId, row)] } })

end Db

/-- What `bitcoin_handler` unpacks. -/
structure Cxn where
  handleId : Nat
  updateType : Nat
  remote : Address
  localAddr : Address
  text : List UInt8

/-- `vnNa[8]`, in the order `get_addr_id` has its arguments. -/
def unpackAddr (bytes : List UInt8) : Address where
  family := ofLE (slice 0 2 bytes)
  address := ofBE (slice 4 4 bytes)
  port := ofBE (slice 2 2 bytes)

/-- `unpack("NN${addr_pack}${addr_pack}NZ*", $rest)`, of a record that has all the fields. -/
def unpackCxn (rest : List UInt8) : Cxn where
  handleId := ofBE (slice 0 4 rest)
  updateType := ofBE (slice 4 4 rest)
  remote := unpackAddr (slice 8 16 rest)
  localAddr := unpackAddr (slice 24 16 rest)
  text := cString (rest.drop 44)

namespace Db

/-- `bitcoin_handler`, on what stands behind the prolog of a record. -/
def bitcoinHandler (db : Db) (type timestamp : Nat) (rest : List UInt8) : Option Db := do
  let cxn := unpackCxn rest
  let (mid, db) := db.insertProlog type timestamp
  let (remoteId, db) ← db.getAddrId cxn.remote
  let (localId, db) ← db.getAddrId cxn.localAddr
  let (bId, db) := db.insertCxn ⟨mid, cxn.updateType, cxn.handleId, remoteId, localId⟩
  if cxn.text = [] then some db
  else
    let (textId, db) ← db.getTextId cxn.text
    some { db with
      tables := { db.tables with cxnTextMap := db.tables.cxnTextMap ++ [(bId, textId)] } }

/-- A sequence of calls of `get_addr_id`: the ids, each with the table behind its call. -/
def addrIds : Db → List Address → Option (List (Answer Address Nat (Table Address)))
  | _, [] => some []
  | db, a :: rest =>
      match db.getAddrId a with
      | some (id, db') => (addrIds db' rest).map (⟨a, id, db'.tables.addresses⟩ :: ·)
      | none => none

/-- Every call returns the id of the row with its family, address and port, which is the one
the database finds. -/
def AddrIdsRight (db : Db) (calls : List Address) : Prop :=
  ∃ ids, db.addrIds calls = some ids ∧ ids.map Answer.value = calls ∧
    ∀ x ∈ ids, (x.answer, x.value) ∈ x.store.rows ∧ x.store.select x.value = some x.answer

theorem addrIds_eq (calls : List Address) :
    ∀ db : Db, db.addrIds calls =
      answers Table.rowId addrKey ⟨db.tables.addresses, db.gAddridCache⟩ calls := by
  induction calls with
  | nil =>
      intro db
      rfl
  | cons a rest ih =>
      intro db
      simp only [addrIds, answers, getAddrId]
      cases cached Table.rowId addrKey ⟨db.tables.addresses, db.gAddridCache⟩ a with
      | none => rfl
      | some result =>
          simp only [ih]

/-- `get_addr_id` is the two statements behind a cache. -/
theorem addrIdsRight_iff_injOn (tables : Tables) (calls : List Address) :
    (opened tables).AddrIdsRight calls ↔ Set.InjOn addrKey {a | a ∈ calls} := by
  obtain ⟨ids, result, values, right⟩ :=
    answers_right_iff Table.lawful_rowId addrKey tables.addresses calls
  rw [← right, AddrIdsRight, addrIds_eq]
  constructor
  · rintro ⟨ids', result', -, all⟩ x member
    obtain rfl : ids' = ids := Option.some.inj (result'.symm.trans result)
    exact (all x member).2
  · intro all
    refine ⟨ids, result, values, ?_⟩
    intro x member
    exact ⟨Table.mem_of_select (all x member), all x member⟩

/-- From empty hashes all ids are right exactly if no two addresses of the sequence have the
same digits one behind the other. -/
theorem addrIds_right_iff (tables : Tables) (calls : List Address) :
    (opened tables).AddrIdsRight calls ↔
      ∀ a ∈ calls, ∀ c ∈ calls, addrKey a = addrKey c → a = c := by
  rw [addrIdsRight_iff_injOn]
  constructor
  · intro apart a inA c inC same
    exact apart inA inC same
  · intro apart a inA c inC same
    exact apart a inA c inC same

end Db

/-- A new database. -/
def noTables : Tables where
  messages := []
  textStrings := ⟨[], false, List.nodup_nil, fun _ => List.nodup_nil⟩
  addresses := ⟨[], true, List.nodup_nil, fun _ => List.nodup_nil⟩
  bitcoinCxnMessages := []
  cxnTextMap := []

/-- After `1.1.1.1:18333` the id of `10.10.10.11:8333` is wrong. -/
theorem addrIds_wrong_digits :
    ¬ (Db.opened noTables).AddrIdsRight [⟨2, 0x01010101, 18333⟩, ⟨2, 0x0a0a0a0b, 8333⟩] := by
  rw [Db.addrIdsRight_iff_injOn]
  intro apart
  have same : addrKey ⟨2, 0x01010101, 18333⟩ = addrKey ⟨2, 0x0a0a0a0b, 8333⟩ := by
    decide +kernel
  have equal := apart (by simp) (by simp) same
  exact absurd equal (by decide)

end Coinscope.Tools.Verbatim2sql

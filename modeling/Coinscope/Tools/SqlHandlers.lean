/-
# Tools.SqlHandlers -- what verbatim2sql makes of a record

A record of a verbatim stream becomes a row of `messages`, and rows of other tables that refer to
it.  SQLite gives the ids, and checks that what a new row refers to is there.

* `Database` -- all tables, over the ones of `Db`.
* `Database.handleMessage` -- the handlers, and the table of them.
* `entryOf`, `Database.entries` -- what a record says, and what can be read back.
* `Table.Kept` -- a hash in front of a table, and what a lookup leaves of both.
* `Database.Intact` -- every reference leads to a row.
* `Grown.entries` -- a new message adds an entry, and changes none.
-/
import Coinscope.Tools.Verbatim2pg
import Coinscope.Tools.Verbatim2sql

namespace Coinscope.Tools.Verbatim2sql

open Coinscope.Shared
open Coinscope.Theory
open Coinscope.Theory.Bytes
open Coinscope.Theory.Caches
open Coinscope.Theory.Tables

set_option autoImplicit false

/-! ## The handlers -/

/-- A row of `bitcoin_messages`, without its id. -/
structure MessageRow where
  messageId : Nat
  handleId : Nat
  isSender : Nat
  command : List UInt8
  deriving DecidableEq

/-- The database, with the tables `Db` does not have. -/
structure Database where
  db : Db
  textMessages : List (Nat × Nat)
  bitcoinMessages : List (Nat × MessageRow)
  bitcoinMessagePayloads : List (Nat × List UInt8)

/-- The ids `get_handle` puts into `addr_families`. -/
def addrFamilies : List Nat := [2]

/-- The ids `get_handle` puts into `bitcoin_cxn_types`. -/
def bitcoinCxnTypes : List Nat := [1, 2, 4, 8, 16, 32, 64]

/-- The types with the handler `as_text`. -/
def textTypes : List Nat := [2, 4, 8]

/-- `unpack("NCQ>a*", $_[0])`, of a record that has all the fields.  The id of the source is not
used. -/
structure Prolog where
  type : Nat
  timestamp : Nat
  rest : List UInt8

def unpackProlog (r : Record) : Prolog where
  type := ofBE (slice 4 1 r)
  timestamp := ofBE (slice 5 8 r)
  rest := r.drop 13

/-- What `bitcoin_msg_handler` unpacks and writes. -/
structure Message where
  handleId : Nat
  isSender : Nat
  command : List UInt8
  payload : List UInt8
  deriving DecidableEq

/-- `unpack("NCVZ[12]VVa*", $rest)`, of a record that has all the fields. -/
def unpackMessage (rest : List UInt8) : Message where
  handleId := ofBE (slice 0 4 rest)
  isSender := ofBE (slice 4 1 rest)
  command := cString (slice 9 12 rest)
  payload := rest.drop 29

/-- A record that has all the fields its handler unpacks, and a timestamp that an INTEGER of
SQLite holds. -/
def Legible (r : Record) : Prop :=
  13 ≤ r.length ∧ (unpackProlog r).timestamp < 2 ^ 63 ∧
    ((unpackProlog r).type = 16 → 13 + 44 ≤ r.length) ∧
    ((unpackProlog r).type = 32 → 13 + 29 ≤ r.length)

instance (r : Record) : Decidable (Legible r) := inferInstanceAs (Decidable (_ ∧ _ ∧ _ ∧ _))

/-- Ways a message is not handled: the script dies, or the record is not `Legible` and the model
does not follow.  Where a field is missing `unpack` shifts the others, and a greater timestamp is
stored as a REAL. -/
inductive Stop where
  | died
  | illegible
  deriving DecidableEq

/-- Whether `get_addr_id` adds a row with a family that is not there. -/
def Db.violates (db : Db) (a : Address) : Bool :=
  (db.gAddridCache (addrKey a)).isNone &&
    !(db.tables.addresses.unique && db.tables.addresses.holds a) && !addrFamilies.contains a.family

/-- Whether one of the insertions of `bitcoin_handler` refers to a row that is not there. -/
def Db.refuses (db : Db) (cxn : Cxn) : Bool :=
  db.violates cxn.remote || !bitcoinCxnTypes.contains cxn.updateType ||
    match db.getAddrId cxn.remote with
    | some (_, db) => db.violates cxn.localAddr
    | none => false

namespace Database

/-- `as_text`.  The message is new, so the UNIQUE index is met. -/
def asText (d : Database) (p : Prolog) : Except Stop Database :=
  let (mid, db) := d.db.insertProlog p.type p.timestamp
  if p.rest = [] then .ok { d with db := db }
  else
    match db.getTextId p.rest with
    | some (textId, db) => .ok { d with db := db, textMessages := d.textMessages ++ [(mid, textId)] }
    | none => .error .died

/-- `bitcoin_handler`.  SQLite checks references if it is told to. -/
def bitcoinHandler (foreignKeys : Bool) (d : Database) (p : Prolog) : Except Stop Database :=
  if foreignKeys && d.db.refuses (unpackCxn p.rest) then .error .died
  else
    match d.db.bitcoinHandler p.type p.timestamp p.rest with
    | some db => .ok { d with db := db }
    | none => .error .died

/-- `bitcoin_msg_handler`. -/
def bitcoinMsgHandler (d : Database) (p : Prolog) : Database :=
  let m := unpackMessage p.rest
  let (mid, db) := d.db.insertProlog p.type p.timestamp
  let btMid := newRowid d.bitcoinMessages
  { d with
    db := db
    bitcoinMessages := d.bitcoinMessages ++ [(btMid, ⟨mid, m.handleId, m.isSender, m.command⟩)]
    bitcoinMessagePayloads :=
      if m.payload = [] then d.bitcoinMessagePayloads
      else d.bitcoinMessagePayloads ++ [(btMid, m.payload)] }

/-- `handle_message`, with `%handlers`.  Other types are only reported. -/
def handleMessage (foreignKeys : Bool) (d : Database) (r : Record) : Except Stop Database :=
  let p := unpackProlog r
  if ¬ Legible r then .error .illegible
  else if p.type ∈ textTypes then d.asText p
  else if p.type = 16 then d.bitcoinHandler foreignKeys p
  else if p.type = 32 then .ok (d.bitcoinMsgHandler p)
  else .ok d

end Database

/-! ## What a record says, and what is read back -/

deriving instance DecidableEq for Cxn

inductive Entry where
  | text (type timestamp : Nat) (text : List UInt8)
  | cxn (timestamp : Nat) (cxn : Cxn)
  | message (timestamp : Nat) (message : Message)
  deriving DecidableEq

def entryOf (r : Record) : Option Entry :=
  let p := unpackProlog r
  if p.type ∈ textTypes then some (.text p.type p.timestamp p.rest)
  else if p.type = 16 then some (.cxn p.timestamp (unpackCxn p.rest))
  else if p.type = 32 then some (.message p.timestamp (unpackMessage p.rest))
  else none

/-- The value of the row with an id. -/
def Table.value {α : Type} (t : Table α) (id : Nat) : Option α :=
  (t.rows.find? fun row => decide (row.1 = id)).map Prod.snd

/-- The text that a row with a key leads to; without a row it is empty. -/
def textAt (texts : Table (List UInt8)) (rows : List (Nat × Nat)) (id : Nat) : List UInt8 :=
  ((rows.find? fun row => decide (row.1 = id)).bind fun row => texts.value row.2).getD []

namespace Database

/-- The text of a message. -/
def textOf (d : Database) (mid : Nat) : List UInt8 :=
  textAt d.db.tables.textStrings d.textMessages mid

/-- The text of a connection event. -/
def cxnTextOf (d : Database) (bId : Nat) : List UInt8 :=
  textAt d.db.tables.textStrings d.db.tables.cxnTextMap bId

/-- The payload of a message of a peer. -/
def payloadOf (d : Database) (btMid : Nat) : List UInt8 :=
  ((d.bitcoinMessagePayloads.find? fun row => decide (row.1 = btMid)).map Prod.snd).getD []

/-- The connection event of a message. -/
def cxnAt (d : Database) (mid : Nat) : Option Cxn := do
  let row ← d.db.tables.bitcoinCxnMessages.find? fun row => decide (row.2.messageId = mid)
  let remote ← d.db.tables.addresses.value row.2.remoteId
  let localAddr ← d.db.tables.addresses.value row.2.localId
  some ⟨row.2.handleId, row.2.cxnTypeId, remote, localAddr, d.cxnTextOf row.1⟩

/-- The message of a peer that belongs to a message. -/
def messageAt (d : Database) (mid : Nat) : Option Message := do
  let row ← d.bitcoinMessages.find? fun row => decide (row.2.messageId = mid)
  some ⟨row.2.handleId, row.2.isSender, row.2.command, d.payloadOf row.1⟩

/-- What the rows that refer to a row of `messages` say. -/
def entryAt (d : Database) (m : Nat × Nat × Nat) : Option Entry :=
  if m.2.1 ∈ textTypes then some (.text m.2.1 m.2.2 (d.textOf m.1))
  else if m.2.1 = 16 then (d.cxnAt m.1).map (.cxn m.2.2)
  else if m.2.1 = 32 then (d.messageAt m.1).map (.message m.2.2)
  else none

/-- Everything that is in the database, by the ids of `messages`. -/
def entries (d : Database) : List Entry := d.db.tables.messages.filterMap d.entryAt

end Database

/-! ## Tables that grow -/

section Rows

variable {α κ : Type}

/-- The ids of the rows. -/
def idsOf (rows : List (Nat × α)) : List Nat := rows.map Prod.fst

theorem mem_idsOf {rows : List (Nat × α)} {row : Nat × α} (member : row ∈ rows) :
    row.1 ∈ idsOf rows := List.mem_map_of_mem member

theorem idsOf_mono {rows more : List (Nat × α)} (front : rows <+: more) {id : Nat}
    (there : id ∈ idsOf rows) : id ∈ idsOf more := (front.map Prod.fst).subset there

theorem ne_newRowid {rows : List (Nat × α)} {id : Nat} (there : id ∈ idsOf rows) :
    id ≠ newRowid rows := by
  obtain ⟨row, member, rfl⟩ := List.mem_map.1 there
  exact Nat.ne_of_lt (lt_newRowid member)

/-- Nothing is added, or one row is. -/
def Gains (P : α → Prop) (old new : List α) : Prop := new = old ∨ ∃ r, P r ∧ new = old ++ [r]

theorem Gains.front {P : α → Prop} {old new : List α} (gains : Gains P old new) :
    old <+: new := by
  rcases gains with rfl | ⟨r, -, rfl⟩
  · exact List.prefix_refl _
  · exact List.prefix_append ..

theorem Gains.cases {P : α → Prop} {old new : List α} (gains : Gains P old new) {r : α}
    (member : r ∈ new) : r ∈ old ∨ P r := by
  rcases gains with rfl | ⟨r', holds, rfl⟩
  · exact Or.inl member
  · rcases List.mem_append.1 member with before | last
    · exact Or.inl before
    · exact Or.inr (List.mem_singleton.1 last ▸ holds)

theorem Gains.find?_other [DecidableEq κ] {P : α → Prop} {old new : List α}
    (gains : Gains P old new) {key : α → κ} {k : κ} (other : ∀ r, P r → key r ≠ k) :
    (new.find? fun row => decide (key row = k)) = old.find? fun row => decide (key row = k) := by
  rcases gains with rfl | ⟨r, holds, rfl⟩
  · rfl
  · refine find?_append_other ?_
    intro r' last
    obtain rfl := List.mem_singleton.1 last
    exact other r' holds

theorem find?_fresh [DecidableEq κ] {rows : List α} {key : α → κ} {k : κ}
    (fresh : ∀ row ∈ rows, key row ≠ k) :
    (rows.find? fun row => decide (key row = k)) = none := by
  rw [List.find?_eq_none]
  intro row member
  simpa using fresh row member

namespace Table

theorem value_of_mem {t : Table α} {a : α} {id : Nat} (member : (id, a) ∈ t.rows) :
    t.value id = some a := by
  rw [value, (find?_key_iff t.ids).2 ⟨member, rfl⟩, Option.map_some]

theorem value_grown {t t' : Table α} (front : t.rows <+: t'.rows) {id : Nat}
    (there : id ∈ idsOf t.rows) : t'.value id = t.value id := by
  obtain ⟨⟨id', a⟩, member, rfl⟩ := List.mem_map.1 there
  rw [value_of_mem member, value_of_mem (front.subset member)]

variable [DecidableEq α]

theorem rows_insertOrIgnore (t : Table α) (a : α) :
    (t.holds a = true ∧ t.insertOrIgnore a = t) ∨
      ((t.unique = false ∨ t.holds a = false) ∧
        (t.insertOrIgnore a).rows = t.rows ++ [(newRowid t.rows, a)]) := by
  rw [insertOrIgnore]
  split
  · rename_i there
    exact Or.inl ⟨there.2, rfl⟩
  · rename_i new
    refine Or.inr ⟨?_, rfl⟩
    simpa [Classical.or_iff_not_imp_left] using new

theorem unique_insertOrIgnore (t : Table α) (a : α) :
    (t.insertOrIgnore a).unique = t.unique := by
  rw [insertOrIgnore]
  split <;> rfl

theorem not_holds {t : Table α} {a : α} (absent : t.holds a = false) : a ∉ t.rows.map Prod.snd := by
  intro member
  obtain ⟨row, there, rfl⟩ := List.mem_map.1 member
  rw [holds, List.any_eq_false] at absent
  exact absent row there (decide_eq_true rfl)

/-- What is in a cache is right for the values that are asked for, and no value has two rows. -/
structure Kept (key : α → κ) (all : Set α) (s : Cached (Table α) κ Nat) : Prop where
  right : ∀ a ∈ all, ∀ id, s.cache (key a) = some id → (id, a) ∈ s.store.rows
  distinct : (s.store.rows.map Prod.snd).Nodup
  known : s.store.unique = false → ∀ row ∈ s.store.rows, s.cache (key row.2) ≠ none

variable [DecidableEq κ] {key : α → κ} {all : Set α} {s : Cached (Table α) κ Nat}

/-- The id of a value, from the cache or the table. -/
theorem Kept.cached (kept : Kept key all s) (apart : Set.InjOn key all) {a : α}
    (member : a ∈ all) :
    ∃ id s', Caches.cached rowId key s a = some (id, s') ∧ Kept key all s' ∧
      (id, a) ∈ s'.store.rows ∧ s'.store.unique = s.store.unique ∧
      Gains (fun row => row.2 = a) s.store.rows s'.store.rows := by
  cases hit : s.cache (key a) with
  | some id =>
      exact ⟨id, s, by simp only [Caches.cached, hit], kept, kept.right a member id hit, rfl,
        Or.inl rfl⟩
  | none =>
      obtain ⟨id, found⟩ := select_insertOrIgnore s.store a
      have there := mem_of_select found
      have gains : Gains (fun row => row.2 = a) s.store.rows (s.store.insertOrIgnore a).rows := by
        rcases rows_insertOrIgnore s.store a with ⟨-, same⟩ | ⟨-, added⟩
        · exact Or.inl (congrArg Table.rows same)
        · exact Or.inr ⟨_, rfl, added⟩
      refine ⟨id, ⟨s.store.insertOrIgnore a, Function.update s.cache (key a) (some id)⟩,
        by simp only [Caches.cached, hit, rowId, found], ⟨?_, ?_, ?_⟩, there,
        unique_insertOrIgnore .., gains⟩
      · intro c inside id' remembered
        by_cases same : key c = key a
        · obtain rfl := apart inside member same
          simp only [Function.update_self, Option.some.injEq] at remembered
          exact remembered ▸ there
        · simp only [Function.update_of_ne same] at remembered
          exact gains.front.subset (kept.right c inside id' remembered)
      · rcases rows_insertOrIgnore s.store a with ⟨-, same⟩ | ⟨new, added⟩
        · simp only [same]
          exact kept.distinct
        · have absent : a ∉ s.store.rows.map Prod.snd := by
            rcases new with open_ | absent
            · -- without the constraint each value that has a row is in the cache
              intro inside
              obtain ⟨row, inRows, rfl⟩ := List.mem_map.1 inside
              exact kept.known open_ row inRows hit
            · exact not_holds absent
          simp only [added, List.map_append, List.map_cons, List.map_nil]
          rw [← List.concat_eq_append]
          exact kept.distinct.concat absent
      · intro open_ row inside
        dsimp only at open_ inside ⊢
        rw [unique_insertOrIgnore] at open_
        by_cases same : key row.2 = key a
        · rw [same, Function.update_self]
          exact Option.some_ne_none id
        · rw [Function.update_of_ne same]
          rcases gains.cases inside with old | new
          · exact kept.known open_ row old
          · exact absurd (congrArg key new) same

end Table

end Rows

section Texts

variable {texts texts' : Table (List UInt8)} {rows rows' : List (Nat × Nat)} {id : Nat}

/-- The text of an older row stays. -/
theorem textAt_grown {P : Nat × Nat → Prop} (front : texts.rows <+: texts'.rows)
    (gains : Gains P rows rows') (leads : ∀ row ∈ rows, row.2 ∈ idsOf texts.rows)
    (other : ∀ row, P row → row.1 ≠ id) : textAt texts' rows' id = textAt texts rows id := by
  rw [textAt, textAt, gains.find?_other other]
  cases found : rows.find? fun row => decide (row.1 = id) with
  | none => rfl
  | some row =>
      have inside := leads row (find?_key_some found).1
      rw [Option.bind_some, Option.bind_some, Table.value_grown front inside]

theorem textAt_none (fresh : ∀ row ∈ rows, row.1 ≠ id) : textAt texts rows id = [] := by
  rw [textAt, find?_fresh fresh]
  rfl

theorem textAt_new {textId : Nat} {text : List UInt8} (fresh : ∀ row ∈ rows, row.1 ≠ id)
    (there : (textId, text) ∈ texts.rows) : textAt texts (rows ++ [(id, textId)]) id = text := by
  have found : ((rows ++ [(id, textId)]).find? fun row => decide (row.1 = id)) =
      some (id, textId) := find?_append_new Prod.fst (id, textId) fresh
  rw [textAt, found, Option.bind_some, Table.value_of_mem there, Option.getD_some]

end Texts

/-! ## References -/

namespace Database

/-- Every reference leads to a row, and a message has at most one text.  SQLite has kept the
families in order if it was told to. -/
structure Intact (foreignKeys : Bool) (d : Database) : Prop where
  textMessages : ∀ row ∈ d.textMessages,
    row.1 ∈ idsOf d.db.tables.messages ∧ row.2 ∈ idsOf d.db.tables.textStrings.rows
  once : (d.textMessages.map Prod.fst).Nodup
  cxns : ∀ row ∈ d.db.tables.bitcoinCxnMessages,
    row.2.messageId ∈ idsOf d.db.tables.messages ∧
      row.2.remoteId ∈ idsOf d.db.tables.addresses.rows ∧
      row.2.localId ∈ idsOf d.db.tables.addresses.rows
  cxnTexts : ∀ row ∈ d.db.tables.cxnTextMap,
    row.1 ∈ idsOf d.db.tables.bitcoinCxnMessages ∧ row.2 ∈ idsOf d.db.tables.textStrings.rows
  bitcoinMessages : ∀ row ∈ d.bitcoinMessages, row.2.messageId ∈ idsOf d.db.tables.messages
  payloads : ∀ row ∈ d.bitcoinMessagePayloads, row.1 ∈ idsOf d.bitcoinMessages
  families : foreignKeys = true →
    ∀ row ∈ d.db.tables.addresses.rows, row.2.family ∈ addrFamilies

/-- A row `m` of `messages` was added, and rows that refer to it. -/
structure Grown (d d' : Database) (m : Nat × Nat × Nat) : Prop where
  messages : d'.db.tables.messages = d.db.tables.messages ++ [m]
  fresh : m.1 = newRowid d.db.tables.messages
  texts : d.db.tables.textStrings.rows <+: d'.db.tables.textStrings.rows
  addresses : d.db.tables.addresses.rows <+: d'.db.tables.addresses.rows
  textMessages : Gains
    (fun row => row.1 = m.1 ∧ row.2 ∈ idsOf d'.db.tables.textStrings.rows)
    d.textMessages d'.textMessages
  cxns : Gains
    (fun row => row.1 = newRowid d.db.tables.bitcoinCxnMessages ∧ row.2.messageId = m.1 ∧
      row.2.remoteId ∈ idsOf d'.db.tables.addresses.rows ∧
      row.2.localId ∈ idsOf d'.db.tables.addresses.rows)
    d.db.tables.bitcoinCxnMessages d'.db.tables.bitcoinCxnMessages
  cxnTexts : Gains
    (fun row => row.1 = newRowid d.db.tables.bitcoinCxnMessages ∧
      row.1 ∈ idsOf d'.db.tables.bitcoinCxnMessages ∧
      row.2 ∈ idsOf d'.db.tables.textStrings.rows)
    d.db.tables.cxnTextMap d'.db.tables.cxnTextMap
  bitcoinMessages : Gains
    (fun row => row.1 = newRowid d.bitcoinMessages ∧ row.2.messageId = m.1)
    d.bitcoinMessages d'.bitcoinMessages
  payloads : Gains
    (fun row => row.1 = newRowid d.bitcoinMessages ∧ row.1 ∈ idsOf d'.bitcoinMessages)
    d.bitcoinMessagePayloads d'.bitcoinMessagePayloads

variable {foreignKeys : Bool} {d d' : Database} {m : Nat × Nat × Nat}

namespace Grown

theorem messages_front (grown : Grown d d' m) : d.db.tables.messages <+: d'.db.tables.messages :=
  ⟨[m], grown.messages.symm⟩

theorem mem_new (grown : Grown d d' m) : m.1 ∈ idsOf d'.db.tables.messages := by
  apply mem_idsOf
  rw [grown.messages]
  exact List.mem_append_right _ (List.mem_singleton_self m)

theorem ne_new (grown : Grown d d' m) {id : Nat} (there : id ∈ idsOf d.db.tables.messages) :
    m.1 ≠ id := by
  rw [grown.fresh]
  exact (ne_newRowid there).symm

/-- References still lead to rows. -/
theorem intact (grown : Grown d d' m) (intact : d.Intact foreignKeys)
    (families : foreignKeys = true →
      ∀ row ∈ d'.db.tables.addresses.rows, row.2.family ∈ addrFamilies) :
    d'.Intact foreignKeys where
  textMessages := by
    intro row member
    rcases grown.textMessages.cases member with before | ⟨here, there⟩
    · obtain ⟨message, text⟩ := intact.textMessages row before
      exact ⟨idsOf_mono grown.messages_front message, idsOf_mono grown.texts text⟩
    · exact ⟨here ▸ grown.mem_new, there⟩
  once := by
    rcases grown.textMessages with same | ⟨row, ⟨here, -⟩, added⟩
    · exact same ▸ intact.once
    · have absent : row.1 ∉ d.textMessages.map Prod.fst := by
        intro inside
        obtain ⟨old, member, same⟩ := List.mem_map.1 inside
        exact grown.ne_new (intact.textMessages old member).1 (here.symm.trans same.symm)
      rw [added, List.map_append, List.map_cons, List.map_nil, ← List.concat_eq_append]
      exact intact.once.concat absent
  cxns := by
    intro row member
    rcases grown.cxns.cases member with before | ⟨-, here, remote, localAddr⟩
    · obtain ⟨message, remote, localAddr⟩ := intact.cxns row before
      exact ⟨idsOf_mono grown.messages_front message, idsOf_mono grown.addresses remote,
        idsOf_mono grown.addresses localAddr⟩
    · exact ⟨here ▸ grown.mem_new, remote, localAddr⟩
  cxnTexts := by
    intro row member
    rcases grown.cxnTexts.cases member with before | ⟨-, there⟩
    · obtain ⟨cxn, text⟩ := intact.cxnTexts row before
      exact ⟨idsOf_mono grown.cxns.front cxn, idsOf_mono grown.texts text⟩
    · exact there
  bitcoinMessages := by
    intro row member
    rcases grown.bitcoinMessages.cases member with before | ⟨-, here⟩
    · exact idsOf_mono grown.messages_front (intact.bitcoinMessages row before)
    · exact here ▸ grown.mem_new
  payloads := by
    intro row member
    rcases grown.payloads.cases member with before | ⟨-, there⟩
    · exact idsOf_mono grown.bitcoinMessages.front (intact.payloads row before)
    · exact there
  families := families

/-! What can be read back of the older messages stays. -/

theorem textOf_old (grown : Grown d d' m) (intact : d.Intact foreignKeys) {id : Nat}
    (there : id ∈ idsOf d.db.tables.messages) : d'.textOf id = d.textOf id :=
  textAt_grown grown.texts grown.textMessages (fun row member => (intact.textMessages row member).2)
    fun _ new => new.1 ▸ grown.ne_new there

theorem cxnTextOf_old (grown : Grown d d' m) (intact : d.Intact foreignKeys) {bId : Nat}
    (there : bId ∈ idsOf d.db.tables.bitcoinCxnMessages) : d'.cxnTextOf bId = d.cxnTextOf bId :=
  textAt_grown grown.texts grown.cxnTexts (fun row member => (intact.cxnTexts row member).2)
    fun _ new => new.1 ▸ (ne_newRowid there).symm

theorem payloadOf_old (grown : Grown d d' m) {btMid : Nat}
    (there : btMid ∈ idsOf d.bitcoinMessages) : d'.payloadOf btMid = d.payloadOf btMid := by
  rw [payloadOf, payloadOf,
    grown.payloads.find?_other fun row new => new.1 ▸ (ne_newRowid there).symm]

theorem cxnAt_old (grown : Grown d d' m) (intact : d.Intact foreignKeys) {id : Nat}
    (there : id ∈ idsOf d.db.tables.messages) : d'.cxnAt id = d.cxnAt id := by
  rw [cxnAt, cxnAt, grown.cxns.find?_other fun row new => new.2.1 ▸ grown.ne_new there]
  cases found : d.db.tables.bitcoinCxnMessages.find? fun row => decide (row.2.messageId = id) with
  | none => rfl
  | some row =>
      have inside := (find?_key_some found).1
      obtain ⟨-, remote, localAddr⟩ := intact.cxns row inside
      simp only [Option.bind_eq_bind, Option.bind_some, Table.value_grown grown.addresses remote,
        Table.value_grown grown.addresses localAddr,
        grown.cxnTextOf_old intact (mem_idsOf inside)]

theorem messageAt_old (grown : Grown d d' m) {id : Nat}
    (there : id ∈ idsOf d.db.tables.messages) : d'.messageAt id = d.messageAt id := by
  rw [messageAt, messageAt,
    grown.bitcoinMessages.find?_other fun row new => new.2 ▸ grown.ne_new there]
  cases found : d.bitcoinMessages.find? fun row => decide (row.2.messageId = id) with
  | none => rfl
  | some row =>
      have inside := (find?_key_some found).1
      simp only [Option.bind_eq_bind, Option.bind_some, grown.payloadOf_old (mem_idsOf inside)]

theorem entryAt_old (grown : Grown d d' m) (intact : d.Intact foreignKeys) {old : Nat × Nat × Nat}
    (member : old ∈ d.db.tables.messages) : d'.entryAt old = d.entryAt old := by
  have there := mem_idsOf member
  rw [entryAt, entryAt, grown.textOf_old intact there, grown.cxnAt_old intact there,
    grown.messageAt_old there]

/-- One more entry, behind those that were there. -/
theorem entries (grown : Grown d d' m) (intact : d.Intact foreignKeys) :
    d'.entries = d.entries ++ (d'.entryAt m).toList := by
  rw [Database.entries, Database.entries, grown.messages, List.filterMap_append]
  have before : d.db.tables.messages.filterMap d'.entryAt =
      d.db.tables.messages.filterMap d.entryAt :=
    List.filterMap_congr fun old member => grown.entryAt_old intact member
  rw [before]
  cases last : d'.entryAt m with
  | none => simp [last]
  | some entry => simp [last]

end Grown

end Database

end Coinscope.Tools.Verbatim2sql

/-
# Tools.SqlRecords -- one record in the database

Every handler of verbatim2sql adds a row to `messages` and rows that refer to it, so that what the
record says can be read back.  Only connection events can fail: SQLite knows one family of
addresses and seven kinds of events, and where it checks references it refuses the others.

* `Admitted`, `refuses_iff` -- the connection events SQLite takes.
* `Database.Ready` -- what holds between two records.
* `handleMessage_ready`, `handleMessage_refused` -- what one record does.
-/
import Coinscope.Tools.SqlHandlers

namespace Coinscope.Tools.Verbatim2sql

open Coinscope.Shared
open Coinscope.Theory
open Coinscope.Theory.Bytes
open Coinscope.Theory.Caches
open Coinscope.Theory.Tables

set_option autoImplicit false

/-! ## One record -/

/-- What refers to the rows of `get_handle`. -/
def Admitted (cxn : Cxn) : Prop :=
  cxn.remote.family ∈ addrFamilies ∧ cxn.localAddr.family ∈ addrFamilies ∧
    cxn.updateType ∈ bitcoinCxnTypes

instance (cxn : Cxn) : Decidable (Admitted cxn) := inferInstanceAs (Decidable (_ ∧ _ ∧ _))

namespace Db

/-- A lookup of a text changes the table of texts and its hash. -/
def withTexts (db : Db) (texts : Table (List UInt8)) (cache : List UInt8 → Option Nat) : Db :=
  { db with tables := { db.tables with textStrings := texts }, gTextidCache := cache }

/-- A lookup of an address changes the table of addresses and its hash. -/
def withAddresses (db : Db) (addresses : Table Address) (cache : List Char → Option Nat) : Db :=
  { db with tables := { db.tables with addresses := addresses }, gAddridCache := cache }

variable {db : Db} {all : Set Address} {a : Address}

variable (db) in
theorem getTextId_kept
    (kept : Table.Kept (fun text => text) Set.univ ⟨db.tables.textStrings, db.gTextidCache⟩)
    (text : List UInt8) :
    ∃ id texts cache, db.getTextId text = some (id, db.withTexts texts cache) ∧
      Table.Kept (fun text => text) Set.univ ⟨texts, cache⟩ ∧ (id, text) ∈ texts.rows ∧
      db.tables.textStrings.rows <+: texts.rows := by
  obtain ⟨id, after, found, kept', there, -, gains⟩ :=
    kept.cached (fun _ _ _ _ same => same) (Set.mem_univ text)
  exact ⟨id, after.store, after.cache, by simp only [getTextId, found, withTexts], kept', there,
    gains.front⟩

variable (db) in
theorem getAddrId_kept (kept : Table.Kept addrKey all ⟨db.tables.addresses, db.gAddridCache⟩)
    (apart : Set.InjOn addrKey all) (member : a ∈ all) :
    ∃ id addresses cache, db.getAddrId a = some (id, db.withAddresses addresses cache) ∧
      Table.Kept addrKey all ⟨addresses, cache⟩ ∧ (id, a) ∈ addresses.rows ∧
      addresses.unique = db.tables.addresses.unique ∧
      Gains (fun row => row.2 = a) db.tables.addresses.rows addresses.rows := by
  obtain ⟨id, after, found, kept', there, unique, gains⟩ := kept.cached apart member
  exact ⟨id, after.store, after.cache, by simp only [getAddrId, found, withAddresses], kept', there,
    unique, gains⟩

variable (db) in
/-- A row is refused for its family alone: one that is in the table or in the hash has a family
that is there. -/
theorem violates_iff (kept : Table.Kept addrKey all ⟨db.tables.addresses, db.gAddridCache⟩)
    (families : ∀ row ∈ db.tables.addresses.rows, row.2.family ∈ addrFamilies) (member : a ∈ all) :
    db.violates a = true ↔ a.family ∉ addrFamilies := by
  constructor
  · intro refused
    simp only [violates, Bool.and_eq_true, Bool.not_eq_true', List.contains_eq_mem,
      decide_eq_false_iff_not] at refused
    exact refused.2
  · intro strange
    have absent : ∀ row ∈ db.tables.addresses.rows, row.2 ≠ a := by
      intro row inside same
      exact strange (same ▸ families row inside)
    have missed : db.gAddridCache (addrKey a) = none := by
      cases hit : db.gAddridCache (addrKey a) with
      | none => rfl
      | some id => exact absurd rfl (absent (id, a) (kept.right a member id hit))
    have new : db.tables.addresses.holds a = false := by
      rw [Table.holds, List.any_eq_false]
      intro row inside
      simpa using absent row inside
    simp [violates, missed, new, strange]

theorem refuses_iff (kept : Table.Kept addrKey all ⟨db.tables.addresses, db.gAddridCache⟩)
    (families : ∀ row ∈ db.tables.addresses.rows, row.2.family ∈ addrFamilies)
    (apart : Set.InjOn addrKey all) {cxn : Cxn} (remote : cxn.remote ∈ all)
    (localAddr : cxn.localAddr ∈ all) : db.refuses cxn = true ↔ ¬ Admitted cxn := by
  obtain ⟨id, addresses, cache, found, kept', -, -, gains⟩ := getAddrId_kept db kept apart remote
  by_cases known : cxn.remote.family ∈ addrFamilies
  · have families' : ∀ row ∈ addresses.rows, row.2.family ∈ addrFamilies := by
      intro row inside
      rcases gains.cases inside with before | new
      · exact families row before
      · exact new ▸ known
    have second := violates_iff (db.withAddresses addresses cache) kept' families' localAddr
    have first : db.violates cxn.remote = false := by
      rw [← Bool.not_eq_true, violates_iff db kept families remote]
      exact not_not.2 known
    rw [Admitted, not_and_or, not_and_or]
    simp only [refuses, found, first, Bool.false_or, Bool.or_eq_true, Bool.not_eq_true',
      List.contains_eq_mem, decide_eq_false_iff_not, second]
    tauto
  · have first := (violates_iff db kept families remote).2 known
    refine iff_of_true ?_ fun admitted => known admitted.1
    simp [refuses, first]

end Db

namespace Database

/-- What holds between two messages of a run, where `all` are the addresses of the file: the
references are in order, and so are the hashes. -/
structure Ready (foreignKeys : Bool) (all : Set Address) (d : Database) : Prop where
  intact : d.Intact foreignKeys
  texts : Table.Kept (fun text => text) Set.univ ⟨d.db.tables.textStrings, d.db.gTextidCache⟩
  addresses : Table.Kept addrKey all ⟨d.db.tables.addresses, d.db.gAddridCache⟩
  constraint : d.db.tables.addresses.unique = true

variable {foreignKeys : Bool} {all : Set Address} {d : Database}

/-! No row refers to an id that is still to be given. -/

theorem Intact.fresh_text (intact : d.Intact foreignKeys) :
    ∀ row ∈ d.textMessages, row.1 ≠ newRowid d.db.tables.messages :=
  fun row member => ne_newRowid (intact.textMessages row member).1

theorem Intact.fresh_cxn (intact : d.Intact foreignKeys) :
    ∀ row ∈ d.db.tables.bitcoinCxnMessages, row.2.messageId ≠ newRowid d.db.tables.messages :=
  fun row member => ne_newRowid (intact.cxns row member).1

theorem Intact.fresh_cxnText (intact : d.Intact foreignKeys) :
    ∀ row ∈ d.db.tables.cxnTextMap, row.1 ≠ newRowid d.db.tables.bitcoinCxnMessages :=
  fun row member => ne_newRowid (intact.cxnTexts row member).1

theorem Intact.fresh_message (intact : d.Intact foreignKeys) :
    ∀ row ∈ d.bitcoinMessages, row.2.messageId ≠ newRowid d.db.tables.messages :=
  fun row member => ne_newRowid (intact.bitcoinMessages row member)

theorem Intact.fresh_payload (intact : d.Intact foreignKeys) :
    ∀ row ∈ d.bitcoinMessagePayloads, row.1 ≠ newRowid d.bitcoinMessages :=
  fun row member => ne_newRowid (intact.payloads row member)

/-- The row a message gets, with its type and its time. -/
def messageRow (d : Database) (p : Prolog) : Nat × Nat × Nat :=
  (newRowid d.db.tables.messages, p.type, p.timestamp)

theorem entryAt_text {d' : Database} {p : Prolog} (kind : p.type ∈ textTypes) {text : List UInt8}
    (here : d'.textOf (d.messageRow p).1 = text) :
    d'.entryAt (d.messageRow p) = some (.text p.type p.timestamp text) := by
  have textual : (d.messageRow p).2.1 ∈ textTypes := kind
  rw [entryAt, if_pos textual, here]
  rfl

theorem entryAt_cxn {d' : Database} {p : Prolog} (kind : p.type = 16) {cxn : Cxn}
    (here : d'.cxnAt (d.messageRow p).1 = some cxn) :
    d'.entryAt (d.messageRow p) = some (.cxn p.timestamp cxn) := by
  have event : (d.messageRow p).2.1 = 16 := kind
  rw [entryAt, if_neg (by rw [event]; decide), if_pos event, here]
  rfl

theorem entryAt_message {d' : Database} {p : Prolog} (kind : p.type = 32) {message : Message}
    (here : d'.messageAt (d.messageRow p).1 = some message) :
    d'.entryAt (d.messageRow p) = some (.message p.timestamp message) := by
  have sent : (d.messageRow p).2.1 = 32 := kind
  rw [entryAt, if_neg (by rw [sent]; decide), if_neg (by rw [sent]; decide), if_pos sent, here]
  rfl

/-- A record of text. -/
theorem asText_ready (ready : d.Ready foreignKeys all) {p : Prolog} (kind : p.type ∈ textTypes) :
    ∃ d', d.asText p = .ok d' ∧ Grown d d' (d.messageRow p) ∧ d'.Ready foreignKeys all ∧
      d'.entryAt (d.messageRow p) = some (.text p.type p.timestamp p.rest) := by
  by_cases empty : p.rest = []
  · let d' : Database := { d with db := (d.db.insertProlog p.type p.timestamp).2 }
    have grown : Grown d d' (d.messageRow p) :=
      { messages := rfl, fresh := rfl, texts := List.prefix_refl _,
        addresses := List.prefix_refl _, textMessages := Or.inl rfl, cxns := Or.inl rfl,
        cxnTexts := Or.inl rfl, bitcoinMessages := Or.inl rfl, payloads := Or.inl rfl }
    refine ⟨d', by simp only [asText, empty, if_true]; rfl, grown,
      ⟨grown.intact ready.intact ready.intact.families, ready.texts, ready.addresses,
        ready.constraint⟩, ?_⟩
    have nothing : d'.textOf (d.messageRow p).1 = [] := textAt_none ready.intact.fresh_text
    rw [entryAt_text kind nothing, empty]
  · obtain ⟨id, texts, cache, found, kept, there, front⟩ :=
      Db.getTextId_kept (d.db.insertProlog p.type p.timestamp).2 ready.texts p.rest
    let d' : Database :=
      { d with
        db := (d.db.insertProlog p.type p.timestamp).2.withTexts texts cache
        textMessages := d.textMessages ++ [(newRowid d.db.tables.messages, id)] }
    have grown : Grown d d' (d.messageRow p) :=
      { messages := rfl, fresh := rfl, texts := front,
        addresses := List.prefix_refl _,
        textMessages := Or.inr ⟨_, ⟨rfl, mem_idsOf there⟩, rfl⟩, cxns := Or.inl rfl,
        cxnTexts := Or.inl rfl, bitcoinMessages := Or.inl rfl, payloads := Or.inl rfl }
    refine ⟨d', by simp only [asText, empty, if_false, found]; rfl, grown,
      ⟨grown.intact ready.intact ready.intact.families, kept, ready.addresses,
        ready.constraint⟩, ?_⟩
    have here : d'.textOf (d.messageRow p).1 = p.rest :=
      textAt_new ready.intact.fresh_text there
    exact entryAt_text kind here

/-- A record of a message of a peer. -/
theorem bitcoinMsgHandler_ready (ready : d.Ready foreignKeys all) {p : Prolog}
    (kind : p.type = 32) :
    Grown d (d.bitcoinMsgHandler p) (d.messageRow p) ∧
      (d.bitcoinMsgHandler p).Ready foreignKeys all ∧
      (d.bitcoinMsgHandler p).entryAt (d.messageRow p) =
        some (.message p.timestamp (unpackMessage p.rest)) := by
  have payloads : Gains
      (fun row => row.1 = newRowid d.bitcoinMessages ∧
        row.1 ∈ idsOf (d.bitcoinMsgHandler p).bitcoinMessages)
      d.bitcoinMessagePayloads (d.bitcoinMsgHandler p).bitcoinMessagePayloads := by
    have new : newRowid d.bitcoinMessages ∈ idsOf (d.bitcoinMsgHandler p).bitcoinMessages :=
      mem_idsOf (List.mem_append_right _ (List.mem_singleton_self _))
    by_cases empty : (unpackMessage p.rest).payload = []
    · exact Or.inl (by simp only [bitcoinMsgHandler, empty, if_true])
    · exact Or.inr ⟨(newRowid d.bitcoinMessages, (unpackMessage p.rest).payload), ⟨rfl, new⟩,
        by simp only [bitcoinMsgHandler, empty, if_false]⟩
  have grown : Grown d (d.bitcoinMsgHandler p) (d.messageRow p) :=
    { messages := rfl, fresh := rfl, texts := List.prefix_refl _, addresses := List.prefix_refl _,
      textMessages := Or.inl rfl, cxns := Or.inl rfl, cxnTexts := Or.inl rfl,
      bitcoinMessages := Or.inr ⟨_, ⟨rfl, rfl⟩, rfl⟩, payloads := payloads }
  refine ⟨grown, ⟨grown.intact ready.intact ready.intact.families, ready.texts,
    ready.addresses, ready.constraint⟩, ?_⟩
  have payload : (d.bitcoinMsgHandler p).payloadOf (newRowid d.bitcoinMessages) =
      (unpackMessage p.rest).payload := by
    by_cases empty : (unpackMessage p.rest).payload = []
    · have nothing := find?_fresh ready.intact.fresh_payload
      simp only [payloadOf, bitcoinMsgHandler, empty, if_true, nothing]
      rfl
    · have found : ((d.bitcoinMessagePayloads ++
          [(newRowid d.bitcoinMessages, (unpackMessage p.rest).payload)]).find? fun row =>
            decide (row.1 = newRowid d.bitcoinMessages)) =
          some (newRowid d.bitcoinMessages, (unpackMessage p.rest).payload) :=
        find?_append_new Prod.fst (newRowid d.bitcoinMessages, (unpackMessage p.rest).payload)
          ready.intact.fresh_payload
      simp only [payloadOf, bitcoinMsgHandler, empty, if_false, found]
      rfl
  have sent : (d.bitcoinMsgHandler p).messageAt (d.messageRow p).1 =
      some (unpackMessage p.rest) := by
    let new : Nat × MessageRow := (newRowid d.bitcoinMessages, ⟨newRowid d.db.tables.messages,
      (unpackMessage p.rest).handleId, (unpackMessage p.rest).isSender,
      (unpackMessage p.rest).command⟩)
    have found : ((d.bitcoinMsgHandler p).bitcoinMessages.find? fun row =>
        decide (row.2.messageId = (d.messageRow p).1)) = some new :=
      find?_append_new (fun row : Nat × MessageRow => row.2.messageId) new
        ready.intact.fresh_message
    have carried : (d.bitcoinMsgHandler p).payloadOf new.1 = (unpackMessage p.rest).payload :=
      payload
    rw [messageAt, found]
    simp only [Option.bind_eq_bind, Option.bind_some, carried]
    rfl
  exact entryAt_message kind sent

/-- What `bitcoin_handler` has once it knows the ids of the two addresses. -/
def eventOf (d : Database) (cxn : Cxn) (remoteId localId : Nat) : CxnRow :=
  ⟨newRowid d.db.tables.messages, cxn.updateType, cxn.handleId, remoteId, localId⟩

theorem cxnAt_new {d' : Database} {bId mid : Nat} {row : CxnRow} {remote localAddr : Address}
    (events : d'.db.tables.bitcoinCxnMessages = d.db.tables.bitcoinCxnMessages ++ [(bId, row)])
    (fresh : ∀ old ∈ d.db.tables.bitcoinCxnMessages, old.2.messageId ≠ mid)
    (here : row.messageId = mid) (there : (row.remoteId, remote) ∈ d'.db.tables.addresses.rows)
    (near_ : (row.localId, localAddr) ∈ d'.db.tables.addresses.rows) :
    d'.cxnAt mid =
      some ⟨row.handleId, row.cxnTypeId, remote, localAddr, d'.cxnTextOf bId⟩ := by
  subst here
  have found : ((d.db.tables.bitcoinCxnMessages ++ [(bId, row)]).find? fun old =>
      decide (old.2.messageId = row.messageId)) = some (bId, row) :=
    find?_append_new (fun old : Nat × CxnRow => old.2.messageId) (bId, row) fresh
  rw [cxnAt, events, found]
  simp only [Option.bind_eq_bind, Option.bind_some, Table.value_of_mem there,
    Table.value_of_mem near_]

section Computed

variable {p : Prolog} {db₁ db₂ : Db} {remoteId localId : Nat}

theorem bitcoinHandler_silent
    (passes : (foreignKeys && d.db.refuses (unpackCxn p.rest)) = false)
    (remote : (d.db.insertProlog p.type p.timestamp).2.getAddrId (unpackCxn p.rest).remote =
      some (remoteId, db₁))
    (localAddr : db₁.getAddrId (unpackCxn p.rest).localAddr = some (localId, db₂))
    (empty : (unpackCxn p.rest).text = []) :
    d.bitcoinHandler foreignKeys p =
      .ok { d with db := (db₂.insertCxn (eventOf d (unpackCxn p.rest) remoteId localId)).2 } := by
  have computed : d.db.bitcoinHandler p.type p.timestamp p.rest =
      some (db₂.insertCxn (eventOf d (unpackCxn p.rest) remoteId localId)).2 := by
    show Option.bind ((d.db.insertProlog p.type p.timestamp).2.getAddrId _) _ = _
    rw [remote]
    show Option.bind (db₁.getAddrId _) _ = _
    rw [localAddr]
    exact if_pos empty
  rw [bitcoinHandler, if_neg (by rw [passes]; decide), computed]

theorem bitcoinHandler_texted {db₃ : Db} {textId : Nat}
    (passes : (foreignKeys && d.db.refuses (unpackCxn p.rest)) = false)
    (remote : (d.db.insertProlog p.type p.timestamp).2.getAddrId (unpackCxn p.rest).remote =
      some (remoteId, db₁))
    (localAddr : db₁.getAddrId (unpackCxn p.rest).localAddr = some (localId, db₂))
    (text : (unpackCxn p.rest).text ≠ [])
    (kept : (db₂.insertCxn (eventOf d (unpackCxn p.rest) remoteId localId)).2.getTextId
      (unpackCxn p.rest).text = some (textId, db₃)) :
    d.bitcoinHandler foreignKeys p =
      .ok { d with db := { db₃ with
        tables := { db₃.tables with
          cxnTextMap := db₃.tables.cxnTextMap ++
            [(newRowid db₂.tables.bitcoinCxnMessages, textId)] } } } := by
  have computed : d.db.bitcoinHandler p.type p.timestamp p.rest =
      some { db₃ with
        tables := { db₃.tables with
          cxnTextMap := db₃.tables.cxnTextMap ++
            [(newRowid db₂.tables.bitcoinCxnMessages, textId)] } } := by
    show Option.bind ((d.db.insertProlog p.type p.timestamp).2.getAddrId _) _ = _
    rw [remote]
    show Option.bind (db₁.getAddrId _) _ = _
    rw [localAddr]
    refine (if_neg text).trans ?_
    show Option.bind ((db₂.insertCxn (eventOf d (unpackCxn p.rest) remoteId localId)).2.getTextId _)
      _ = _
    rw [kept]
    rfl
  rw [bitcoinHandler, if_neg (by rw [passes]; decide), computed]

end Computed

/-- A record of a connection event whose families and type are known, if that is checked. -/
theorem bitcoinHandler_ready (ready : d.Ready foreignKeys all) (apart : Set.InjOn addrKey all)
    {p : Prolog} (kind : p.type = 16) (remote : (unpackCxn p.rest).remote ∈ all)
    (localAddr : (unpackCxn p.rest).localAddr ∈ all)
    (admitted : foreignKeys = true → Admitted (unpackCxn p.rest)) :
    ∃ d', d.bitcoinHandler foreignKeys p = .ok d' ∧ Grown d d' (d.messageRow p) ∧
      d'.Ready foreignKeys all ∧
      d'.entryAt (d.messageRow p) = some (.cxn p.timestamp (unpackCxn p.rest)) := by
  have passes : (foreignKeys && d.db.refuses (unpackCxn p.rest)) = false := by
    cases foreignKeys with
    | false => rfl
    | true =>
        rw [Bool.true_and, ← Bool.not_eq_true,
          Db.refuses_iff ready.addresses (ready.intact.families rfl) apart remote localAddr]
        exact not_not.2 (admitted rfl)
  let db₀ := (d.db.insertProlog p.type p.timestamp).2
  obtain ⟨remoteId, t₁, c₁, found₁, kept₁, there₁, unique₁, gains₁⟩ :=
    Db.getAddrId_kept db₀ ready.addresses apart remote
  obtain ⟨localId, t₂, c₂, found₂, kept₂, there₂, unique₂, gains₂⟩ :=
    Db.getAddrId_kept (db₀.withAddresses t₁ c₁) kept₁ apart localAddr
  have constraint : t₂.unique = true := (unique₂.trans unique₁).trans ready.constraint
  have known : foreignKeys = true → ∀ row ∈ t₂.rows, row.2.family ∈ addrFamilies := by
    intro checked row inside
    rcases gains₂.cases inside with before | new
    · rcases gains₁.cases before with old | new
      · exact ready.intact.families checked row old
      · exact new ▸ (admitted checked).1
    · exact new ▸ (admitted checked).2.1
  have far_ : (remoteId, (unpackCxn p.rest).remote) ∈ t₂.rows := gains₂.front.subset there₁
  have front : d.db.tables.addresses.rows <+: t₂.rows := gains₁.front.trans gains₂.front
  let row := d.eventOf (unpackCxn p.rest) remoteId localId
  let db₃ := ((db₀.withAddresses t₁ c₁).withAddresses t₂ c₂).insertCxn row
  have cxns : Gains (fun row => row.1 = newRowid d.db.tables.bitcoinCxnMessages ∧
      row.2.messageId = (d.messageRow p).1 ∧ row.2.remoteId ∈ idsOf t₂.rows ∧
      row.2.localId ∈ idsOf t₂.rows)
      d.db.tables.bitcoinCxnMessages db₃.2.tables.bitcoinCxnMessages :=
    Or.inr ⟨(db₃.1, row), ⟨rfl, rfl, mem_idsOf far_, mem_idsOf there₂⟩, rfl⟩
  by_cases empty : (unpackCxn p.rest).text = []
  · let d' : Database := { d with db := db₃.2 }
    have grown : Grown d d' (d.messageRow p) :=
      { messages := rfl, fresh := rfl, texts := List.prefix_refl _, addresses := front,
        textMessages := Or.inl rfl, cxns := cxns, cxnTexts := Or.inl rfl,
        bitcoinMessages := Or.inl rfl, payloads := Or.inl rfl }
    have text : d'.cxnTextOf db₃.1 = (unpackCxn p.rest).text := by
      rw [empty]
      exact textAt_none ready.intact.fresh_cxnText
    have here : d'.cxnAt (d.messageRow p).1 = some (unpackCxn p.rest) := by
      have read : d'.cxnAt (d.messageRow p).1 = some ⟨_, _, _, _, d'.cxnTextOf db₃.1⟩ :=
        cxnAt_new rfl ready.intact.fresh_cxn rfl far_ there₂
      rw [read, text]
      rfl
    exact ⟨d', bitcoinHandler_silent passes found₁ found₂ empty, grown,
      ⟨grown.intact ready.intact known, ready.texts, kept₂, constraint⟩, entryAt_cxn kind here⟩
  · obtain ⟨textId, texts, cache, found₃, kept₃, there₃, front₃⟩ :=
      Db.getTextId_kept db₃.2 ready.texts (unpackCxn p.rest).text
    let db₄ := db₃.2.withTexts texts cache
    let d' : Database :=
      { d with db := { db₄ with
          tables := { db₄.tables with
            cxnTextMap := db₄.tables.cxnTextMap ++ [(db₃.1, textId)] } } }
    have added : (db₃.1, row) ∈ d'.db.tables.bitcoinCxnMessages :=
      List.mem_append_right _ (List.mem_singleton_self _)
    have grown : Grown d d' (d.messageRow p) :=
      { messages := rfl, fresh := rfl, texts := front₃, addresses := front,
        textMessages := Or.inl rfl, cxns := cxns,
        cxnTexts := Or.inr ⟨(db₃.1, textId), ⟨rfl, mem_idsOf added, mem_idsOf there₃⟩, rfl⟩,
        bitcoinMessages := Or.inl rfl, payloads := Or.inl rfl }
    have text : d'.cxnTextOf db₃.1 = (unpackCxn p.rest).text :=
      textAt_new ready.intact.fresh_cxnText there₃
    have here : d'.cxnAt (d.messageRow p).1 = some (unpackCxn p.rest) := by
      have read : d'.cxnAt (d.messageRow p).1 = some ⟨_, _, _, _, d'.cxnTextOf db₃.1⟩ :=
        cxnAt_new rfl ready.intact.fresh_cxn rfl far_ there₂
      rw [read, text]
      rfl
    exact ⟨d', bitcoinHandler_texted passes found₁ found₂ empty found₃, grown,
      ⟨grown.intact ready.intact known, kept₃, kept₂, constraint⟩, entryAt_cxn kind here⟩

/-- A record of a connection event that is refused. -/
theorem bitcoinHandler_refused (ready : d.Ready true all) (apart : Set.InjOn addrKey all)
    {p : Prolog} (remote : (unpackCxn p.rest).remote ∈ all)
    (localAddr : (unpackCxn p.rest).localAddr ∈ all) (not_ : ¬ Admitted (unpackCxn p.rest)) :
    d.bitcoinHandler true p = .error .died := by
  have refused := (Db.refuses_iff ready.addresses (ready.intact.families rfl) apart remote
    localAddr).2 not_
  rw [bitcoinHandler, Bool.true_and, if_pos refused]

end Database

/-! ## All kinds -/

/-- The addresses of a record. -/
def addressesOf (r : Record) : List Address :=
  if (unpackProlog r).type = 16 then
    [(unpackCxn (unpackProlog r).rest).remote, (unpackCxn (unpackProlog r).rest).localAddr]
  else []

/-- A connection event that SQLite does not take, if it checks. -/
def Refused (r : Record) : Prop :=
  (unpackProlog r).type = 16 ∧ ¬ Admitted (unpackCxn (unpackProlog r).rest)

instance (r : Record) : Decidable (Refused r) := inferInstanceAs (Decidable (_ ∧ _))

namespace Database

variable {foreignKeys : Bool} {all : Set Address} {d : Database} {r : Record}

theorem named_of_event (kind : (unpackProlog r).type = 16) (named : ∀ a ∈ addressesOf r, a ∈ all) :
    (unpackCxn (unpackProlog r).rest).remote ∈ all ∧
      (unpackCxn (unpackProlog r).rest).localAddr ∈ all := by
  rw [addressesOf, if_pos kind] at named
  exact ⟨named _ List.mem_cons_self, named _ (List.mem_cons_of_mem _ List.mem_cons_self)⟩

/-- A record that is taken adds its entry. -/
theorem handleMessage_ready (ready : d.Ready foreignKeys all) (apart : Set.InjOn addrKey all)
    (legible : Legible r) (named : ∀ a ∈ addressesOf r, a ∈ all)
    (taken : foreignKeys = true → ¬ Refused r) :
    ∃ d', d.handleMessage foreignKeys r = .ok d' ∧ d'.Ready foreignKeys all ∧
      d'.entries = d.entries ++ (entryOf r).toList := by
  rw [handleMessage, entryOf, if_neg (not_not.2 legible)]
  by_cases text : (unpackProlog r).type ∈ textTypes
  · obtain ⟨d', handled, grown, ready', last⟩ := asText_ready ready text
    rw [if_pos text, if_pos text]
    exact ⟨d', handled, ready', by rw [grown.entries ready.intact, last]⟩
  · rw [if_neg text, if_neg text]
    by_cases event : (unpackProlog r).type = 16
    · have admitted : foreignKeys = true → Admitted (unpackCxn (unpackProlog r).rest) := by
        intro checked
        by_contra not_
        exact taken checked ⟨event, not_⟩
      obtain ⟨remote, localAddr⟩ := named_of_event event named
      obtain ⟨d', handled, grown, ready', last⟩ :=
        bitcoinHandler_ready ready apart event remote localAddr admitted
      rw [if_pos event, if_pos event]
      exact ⟨d', handled, ready', by rw [grown.entries ready.intact, last]⟩
    · rw [if_neg event, if_neg event]
      by_cases sent : (unpackProlog r).type = 32
      · obtain ⟨grown, ready', last⟩ := bitcoinMsgHandler_ready ready sent
        rw [if_pos sent, if_pos sent]
        exact ⟨_, rfl, ready', by rw [grown.entries ready.intact, last]⟩
      · rw [if_neg sent, if_neg sent]
        exact ⟨d, rfl, ready, (List.append_nil _).symm⟩

/-- At a record that is refused the script dies. -/
theorem handleMessage_refused (ready : d.Ready true all) (apart : Set.InjOn addrKey all)
    (legible : Legible r) (named : ∀ a ∈ addressesOf r, a ∈ all) (refused : Refused r) :
    d.handleMessage true r = .error .died := by
  obtain ⟨remote, localAddr⟩ := named_of_event refused.1 named
  have text : (unpackProlog r).type ∉ textTypes := by
    rw [refused.1]
    decide
  rw [handleMessage, if_neg (not_not.2 legible), if_neg text, if_pos refused.1]
  exact bitcoinHandler_refused ready apart remote localAddr refused.2

end Database

end Coinscope.Tools.Verbatim2sql

/-
# Control.CommandBounds -- what a COMMAND message reads

`handle_message_recv` follows a pointer to the payload and never asks how long the
payload is.  Here the function is written once more, line by line, as a computation
that reads the memory behind the pointer, so that the bytes it reads are data;
`processReading_value` says that it computes what the model computes.

* `Globals.foreachReading`, `Handler.recvReading` -- the reads, in the order of the
  source.
* `InBounds` -- a command on exactly its targets, or on nobody, and no read outside.
* `command_bounds_iff` -- when that is so.
-/
import Coinscope.Control.Disconnection
import Coinscope.Theory.Access

namespace Coinscope.Control

open Coinscope.Shared
open Coinscope.Theory
open Coinscope.Theory.Bytes
open Std (TreeMap)

set_option autoImplicit false

/-! ## Reads -/

/-- The memory behind the pointer to a payload. -/
def payloadAt (memory : List UInt8) (beyond : Nat → UInt8) (i : Nat) : UInt8 :=
  peek memory beyond (messageSize + i)

/-- A `uint32_t` in network byte order. -/
def read32 (off : Nat) : Access UInt8 UInt32 := do
  let bytes ← Access.cells off 4
  pure (UInt32.ofNat (ofBE bytes))

theorem value_cells_payloadAt (memory : List UInt8) (beyond : Nat → UInt8) (off n : Nat) :
    (Access.cells off n).value (payloadAt memory beyond) =
      fetch memory beyond (messageSize + off) n := by
  rw [Access.value_cells]
  apply List.map_congr_left
  intro i _
  show peek memory beyond (messageSize + (off + i)) = _
  rw [Nat.add_assoc]

@[simp] theorem value_read32 (memory : List UInt8) (beyond : Nat → UInt8) (off : Nat) :
    (read32 off).value (payloadAt memory beyond) = fetch32 memory beyond (messageSize + off) := by
  simp only [read32, Access.value_bind, Access.value_pure, value_cells_payloadAt, fetch32]

theorem within_read32 {at_ : Nat → UInt8} {bound off : Nat} :
    Access.Within at_ bound (read32 off) ↔ off + 4 ≤ bound := by
  simp only [read32, Access.within_bind, Access.within_cells]
  constructor
  · rintro ⟨none_ | inside, -⟩
    · cases none_
    · exact inside
  · intro inside
    exact ⟨Or.inr inside, Access.within_pure _ _ _⟩

namespace Globals

section Foreach

variable (f : Globals → UInt32 → Connector.Handler → Globals)

/-- The loop of `foreach_handlers`, with `n` targets to go from the `i`-th on. -/
def visitReading : Nat → Nat → Globals → Access UInt8 Globals
  | 0, _, g => pure g
  | n + 1, i, g => do
      let target ← read32 (9 + 4 * i)
      match g.activeHandlers[target]? with
      | some h => visitReading n (i + 1) (f g target h)
      | none => do
          let messageId ← read32 1
          visitReading n (i + 1) (g.gLog .DEBUG (text "Attempting to send command message")
            [decimal messageId.toNat, text "to non-existant target", decimal target.toNat])

/-- `target_cnt == 1 && msg->targets[0] == BROADCAST_TARGET`. -/
def broadcastReading (targetCnt : UInt32) : Access UInt8 Bool :=
  if targetCnt = 1 then do
    let target ← read32 9
    pure (target == BROADCAST_TARGET)
  else pure false

/-- `foreach_handlers(msg, f)`. -/
def foreachReading (g : Globals) : Access UInt8 Globals := do
  let targetCnt ← read32 5
  let broadcast ← broadcastReading targetCnt
  let counted := if targetCnt.toNat > g.activeHandlers.size then
      g.gLog .DEBUG (text "Target count larger than all cxn")
        [decimal targetCnt.toNat, decimal g.activeHandlers.size]
    else g
  if broadcast = true then pure (traverse f g.activeHandlers.keys g)
  else visitReading f targetCnt.toNat 0 counted

end Foreach

/-- The branch COMMAND_SEND_MSG. -/
def sendReading (g : Globals) (id : UInt32) : Access UInt8 Globals := do
  let messageId ← read32 1
  let g := { g with messages := g.messages.insertIfNew id ∅ }
  match (g.tableOf id)[messageId]? with
  | none => pure (g.gLog .ERROR (text "invalid message id") [decimal messageId.toNat])
  | some packed => foreachReading (append packed) g

/-- The branch COMMAND_DISCONNECT. -/
def disconnectReading (g : Globals) : Access UInt8 Globals :=
  foreachReading disconnectOne (g.gLog .DEBUG (text "disconnect command received") [])

end Globals

namespace Handler

/-- `handle_message_recv(msg)`. -/
def recvReading (g : Globals) (h : Handler) : Access UInt8 (Globals × Handler) := do
  let command ← Access.cell 0
  if command = COMMAND_GET_CXN then
    pure (g.gLog .CTRL (text "All connections requested") [decimal h.regid.toNat],
      h.replyShared g.connections)
  else if command = COMMAND_SEND_MSG then do
    let g ← g.sendReading h.id
    pure (g, h)
  else if command = COMMAND_DISCONNECT then do
    let g ← g.disconnectReading
    pure (g, h)
  else pure (g.gLog .CTRL (text "UNKNOWN COMMAND_MSG COMMAND: ") [[command]], h)

/-- A COMMAND message from the `switch` of `do_read` on.  Without a payload it ends in
`receive_header`, which follows no pointer to one. -/
def processReading (g : Globals) (h : Handler) : Access UInt8 (Globals × Handler) :=
  if messageLength h.readQueue.buffer = 0 then pure (h.receiveHeader g)
  else do
    let r ← h.take.recvReading (h.warned g)
    pure (h.commanded (h.warned g) r)

/-- The offsets into the payload that are read while a COMMAND message is handled. -/
def commandReads (g : Globals) (h : Handler) : List Nat :=
  (h.processReading g).reads (payloadAt h.readQueue.buffer (outside (h.warned g)).beyond)

end Handler

/-! ## The reads belong to the model -/

section Values

variable (memory : List UInt8) (beyond : Nat → UInt8)

theorem Globals.visitReading_value (f : Globals → UInt32 → Connector.Handler → Globals)
    (n i : Nat) (g : Globals) :
    (visitReading f n i g).value (payloadAt memory beyond) =
      visit f (fetch32 memory beyond (messageSize + 1))
        ((List.range n).map fun j => fetch32 memory beyond (messageSize + 9 + 4 * (i + j))) g := by
  induction n generalizing i g with
  | zero => rfl
  | succ n ih =>
      have shift : (List.range n).map
            ((fun j => fetch32 memory beyond (messageSize + 9 + 4 * (i + j))) ∘ Nat.succ) =
          (List.range n).map fun j => fetch32 memory beyond (messageSize + 9 + 4 * (i + 1 + j)) := by
        apply List.map_congr_left
        intro j _
        show fetch32 memory beyond (messageSize + 9 + 4 * (i + (j + 1))) = _
        rw [show i + (j + 1) = i + 1 + j by omega]
      simp only [visitReading, Access.value_bind, value_read32, ← Nat.add_assoc,
        List.range_succ_eq_map, List.map_cons, List.map_map, shift, Nat.add_zero, visit]
      cases g.activeHandlers[fetch32 memory beyond (messageSize + 9 + 4 * i)]? with
      | some h => exact ih ..
      | none =>
          simp only [Access.value_bind, value_read32]
          exact ih ..

theorem Globals.broadcastReading_value :
    (broadcastReading (fetch32 memory beyond (messageSize + 5))).value (payloadAt memory beyond) =
      decide ((commandMsg memory beyond).targets = [BROADCAST_TARGET]) := by
  unfold broadcastReading
  split
  · rename_i one
    have targets : (commandMsg memory beyond).targets =
        [fetch32 memory beyond (messageSize + 9)] := by
      simp only [commandMsg, one]
      rfl
    rw [targets]
    simp only [Access.value_bind, Access.value_pure, value_read32, List.cons.injEq, and_true]
    rfl
  · rename_i many
    symm
    rw [Access.value_pure, decide_eq_false_iff_not]
    intro broadcast
    have length := congrArg List.length broadcast
    simp only [commandMsg, List.length_map, List.length_range, List.length_singleton] at length
    exact many (UInt32.toNat_inj.1 length)

theorem Globals.foreachReading_value (f : Globals → UInt32 → Connector.Handler → Globals)
    (g : Globals) :
    (g.foreachReading f).value (payloadAt memory beyond) =
      g.foreachHandlers (commandMsg memory beyond) f := by
  have count : (commandMsg memory beyond).targets.length =
      (fetch32 memory beyond (messageSize + 5)).toNat := by
    simp [commandMsg]
  have listed : (List.range (fetch32 memory beyond (messageSize + 5)).toNat).map
      (fun j => fetch32 memory beyond (messageSize + 9 + 4 * (0 + j))) =
        (commandMsg memory beyond).targets := by
    simp [commandMsg]
  simp only [foreachReading, Access.value_bind, value_read32, broadcastReading_value,
    decide_eq_true_eq, foreachHandlers]
  split
  · rfl
  · rw [visitReading_value, listed, count]
    rfl

theorem Globals.sendReading_value (g : Globals) (id : UInt32) :
    (g.sendReading id).value (payloadAt memory beyond) =
      g.sendMsg id (commandMsg memory beyond) := by
  simp only [sendReading, sendMsg, Access.value_bind, value_read32]
  show _ = match (tableOf _ id)[fetch32 memory beyond (messageSize + 1)]? with
    | none => _
    | some packed => _
  split
  · rfl
  · exact foreachReading_value memory beyond _ _

theorem Handler.recvReading_value (g : Globals) (h : Handler) :
    (h.recvReading g).value (payloadAt memory beyond) =
      h.handleMessageRecv g (commandMsg memory beyond) := by
  have first : payloadAt memory beyond 0 = (commandMsg memory beyond).command := rfl
  simp only [recvReading, handleMessageRecv, Access.value_bind, Access.value_cell, first]
  split
  · rfl
  · split
    · simp only [Access.value_bind, Access.value_pure, Globals.sendReading_value]
    · split
      · simp only [Access.value_bind, Access.value_pure, Globals.disconnectReading,
          Globals.foreachReading_value]
        rfl
      · rfl

end Values

/-- What the line-by-line function computes is what the model computes. -/
theorem Ready.processReading_value {h : Handler} {payload : List UInt8}
    (ready : Ready h COMMAND payload) (cfg : Config) (g : Globals) :
    (h.processReading g).value
        (payloadAt h.readQueue.buffer (Handler.outside (h.warned g)).beyond) = h.process cfg g := by
  unfold Handler.processReading
  by_cases none_ : payload = []
  · rw [if_pos (by rw [ready.length, none_]; rfl), Access.value_pure, ready.process_empty cfg g none_]
  · have more : ¬ messageLength h.readQueue.buffer = 0 := by
      rw [ready.length]
      exact fun zero => none_ (List.length_eq_zero_iff.1 zero)
    rw [if_neg more, Access.value_bind, Access.value_pure, Handler.recvReading_value,
      ready.process_command none_]

/-! ## Fields of a payload -/

/-- The bytes at `msg->command`. -/
def command (payload : List UInt8) : UInt8 := payload.getD 0 0

def messageId (payload : List UInt8) : UInt32 := UInt32.ofNat (ofBE (slice 1 4 payload))

def targetCnt (payload : List UInt8) : Nat := ofBE (slice 5 4 payload)

def targetsOf (payload : List UInt8) : List UInt32 :=
  (List.range (targetCnt payload)).map fun i => UInt32.ofNat (ofBE (slice (9 + 4 * i) 4 payload))

/-- The payload has the length its target count asks for. -/
def WellFormed (payload : List UInt8) : Prop := payload.length = 9 + 4 * targetCnt payload

instance (payload : List UInt8) : Decidable (WellFormed payload) :=
  inferInstanceAs (Decidable (payload.length = 9 + 4 * targetCnt payload))

theorem targetCnt_lt {payload : List UInt8} (header : 9 ≤ payload.length) :
    targetCnt payload < 2 ^ 32 := by
  have bound := ofBE_lt (slice 5 4 payload)
  rw [slice_length (by omega)] at bound
  exact bound

theorem Globals.visitReading_within (f : Globals → UInt32 → Connector.Handler → Globals)
    {at_ : Nat → UInt8} {bound : Nat} (header : 9 ≤ bound) (n i : Nat) (g : Globals) :
    Access.Within at_ bound (visitReading f n i g) ↔ n = 0 ∨ 9 + 4 * (i + n) ≤ bound := by
  induction n generalizing i g with
  | zero => exact ⟨fun _ => Or.inl rfl, fun _ => Access.within_pure _ _ _⟩
  | succ n ih =>
      have rest : ∀ x : Access UInt8 Globals, (Access.Within at_ bound x ↔
          n = 0 ∨ 9 + 4 * (i + 1 + n) ≤ bound) →
          (Access.Within at_ bound (read32 (9 + 4 * i)) ∧ Access.Within at_ bound x ↔
            n + 1 = 0 ∨ 9 + 4 * (i + (n + 1)) ≤ bound) := by
        intro x later
        rw [within_read32, later]
        omega
      rw [visitReading, Access.within_bind]
      apply rest
      cases g.activeHandlers[(read32 (9 + 4 * i)).value at_]? with
      | some k => exact ih ..
      | none =>
          rw [Access.within_bind, within_read32]
          exact ⟨fun both => (ih ..).1 both.2, fun inside => ⟨by omega, (ih ..).2 inside⟩⟩

section Payload

variable {h : Handler} {kind : UInt8} {payload : List UInt8} (ready : Ready h kind payload)
  (beyond : Nat → UInt8)

include ready

theorem fetch_payloadAt {off n : Nat} (inside : off + n ≤ payload.length) :
    fetch h.readQueue.buffer beyond (messageSize + off) n = slice off n payload := by
  rw [fetch_payload ready.inside beyond (by rw [ready.length]; exact inside), ready.payload_eq]

theorem fetch32_payloadAt {off : Nat} (inside : off + 4 ≤ payload.length) :
    fetch32 h.readQueue.buffer beyond (messageSize + off) =
      UInt32.ofNat (ofBE (slice off 4 payload)) := by
  rw [fetch32, fetch_payloadAt ready beyond inside]

theorem command_payloadAt (some_ : payload ≠ []) :
    payloadAt h.readQueue.buffer beyond 0 = command payload := by
  have positive : 0 < payload.length := List.length_pos_iff.2 some_
  have field : fetch h.readQueue.buffer beyond (messageSize + 0) 1 = slice 0 1 payload :=
    fetch_payloadAt ready beyond (by omega)
  have one : fetch h.readQueue.buffer beyond (messageSize + 0) 1 =
      [payloadAt h.readQueue.buffer beyond 0] := by simp [fetch, payloadAt]
  rw [one, slice, List.drop_zero] at field
  cases payload with
  | nil => exact absurd rfl some_
  | cons first rest => simpa [command] using field

theorem targetCnt_payloadAt (header : 9 ≤ payload.length) :
    (fetch32 h.readQueue.buffer beyond (messageSize + 5)).toNat = targetCnt payload := by
  rw [fetch32_payloadAt ready beyond (by omega)]
  exact UInt32.toNat_ofNat_of_lt' (targetCnt_lt header)

/-- A command whose targets lie inside the payload is decoded from the payload alone. -/
theorem commandMsg_inside (inside : 9 + 4 * targetCnt payload ≤ payload.length) :
    commandMsg h.readQueue.buffer beyond =
      ⟨command payload, messageId payload, targetsOf payload⟩ := by
  have some_ : payload ≠ [] := by
    rintro rfl
    simp at inside
  have first : peek h.readQueue.buffer beyond messageSize = command payload :=
    command_payloadAt ready beyond some_
  rw [commandMsg, first, fetch32_payloadAt ready beyond (by omega),
    targetCnt_payloadAt ready beyond (by omega)]
  congr 1
  apply List.map_congr_left
  intro i member
  have listed := List.mem_range.1 member
  rw [Nat.add_assoc, fetch32_payloadAt ready beyond (by omega)]

/-- The targets are read to the last one, whatever they are. -/
theorem Globals.foreachReading_within (f : Globals → UInt32 → Connector.Handler → Globals)
    (g : Globals) :
    Access.Within (payloadAt h.readQueue.buffer beyond) payload.length (g.foreachReading f) ↔
      9 + 4 * targetCnt payload ≤ payload.length := by
  by_cases header : 9 ≤ payload.length
  · have count := targetCnt_payloadAt ready beyond header
    simp only [foreachReading, Access.within_bind, within_read32, value_read32,
      broadcastReading_value, decide_eq_true_eq]
    have shown : Access.Within (payloadAt h.readQueue.buffer beyond) payload.length
        (broadcastReading (fetch32 h.readQueue.buffer beyond (messageSize + 5))) ↔
          (targetCnt payload = 1 → 13 ≤ payload.length) := by
      rw [broadcastReading, ← count]
      split
      · rename_i one
        rw [one, Access.within_bind, within_read32]
        exact ⟨fun both _ => both.1, fun inside => ⟨inside rfl, Access.within_pure _ _ _⟩⟩
      · rename_i many
        refine ⟨fun _ one => absurd (UInt32.toNat_inj.1 one) many, fun _ => Access.within_pure _ _ _⟩
    rw [shown]
    split
    · rename_i broadcast
      have one : targetCnt payload = 1 := by
        have length := congrArg List.length broadcast
        simp only [commandMsg, List.length_map, List.length_range, List.length_singleton] at length
        omega
      constructor
      · rintro ⟨-, inside, -⟩
        have := inside one
        omega
      · intro inside
        exact ⟨by omega, fun _ => by omega, Access.within_pure _ _ _⟩
    · rw [visitReading_within f header, count]
      omega
  · constructor
    · intro within
      rw [foreachReading, Access.within_bind, within_read32] at within
      omega
    · intro inside
      omega

end Payload

/-! ## What a command does -/

/-- No handler is touched. -/
structure Untouched (before after : Globals) : Prop where
  active : ∀ id : UInt32, after.activeHandlers[id]? = before.activeHandlers[id]?
  inactive : after.inactiveHandlers = before.inactiveHandlers
  undefined : after.undefined = before.undefined

/-- The named handlers are active no more, and nobody else changes. -/
def Disconnected (targets : List UInt32) (before after : TreeMap UInt32 Connector.Handler) : Prop :=
  ∀ id : UInt32, after[id]? = if copies targets id = 0 then before[id]? else none

/-- The command of a payload on exactly its targets: a message the connection registered is
appended, handlers are disconnected, and no other command touches any. -/
def Applied (own : UInt32) (payload : List UInt8) (before after : Globals) : Prop :=
  if command payload = COMMAND_SEND_MSG then
    match (before.tableOf own)[messageId payload]? with
    | some packed =>
        Appended packed.wire (targetsOf payload) before.activeHandlers after.activeHandlers ∧
          after.undefined = before.undefined
    | none => Untouched before after
  else if command payload = COMMAND_DISCONNECT then
    Disconnected (targetsOf payload) before.activeHandlers after.activeHandlers ∧
      after.undefined = before.undefined
  else Untouched before after

/-- None of the targets is active. -/
def Nobody (targets : List UInt32) (g : Globals) : Prop :=
  ∀ id : UInt32, copies targets id ≠ 0 → g.activeHandlers[id]? = none

namespace Globals

theorem visit_nobody (f : Globals → UInt32 → Connector.Handler → Globals) (messageId : UInt32)
    (targets : List UInt32) (g : Globals)
    (nobody : ∀ target ∈ targets, g.activeHandlers[target]? = none) :
    ∃ log, visit f messageId targets g = { g with log := log } := by
  induction targets generalizing g with
  | nil => exact ⟨g.log, rfl⟩
  | cons target rest ih =>
      rw [visit, nobody target List.mem_cons_self]
      exact ih _ fun t member => nobody t (List.mem_cons_of_mem _ member)

/-- A command whose targets are not active leaves nothing but lines in the log. -/
theorem foreachHandlers_nobody (f : Globals → UInt32 → Connector.Handler → Globals)
    (g : Globals) (msg : CommandMsg) (nobody : Nobody msg.targets g) :
    ∃ log, g.foreachHandlers msg f = { g with log := log } := by
  unfold foreachHandlers
  split
  · rename_i broadcast
    have none_ : g.activeHandlers.keys = [] := by
      apply List.eq_nil_iff_forall_not_mem.2
      intro id member
      have active := TreeMap.isSome_getElem?_iff_mem.2 (TreeMap.mem_keys.1 member)
      rw [nobody id (by rw [copies, if_pos broadcast]; decide)] at active
      cases active
    rw [none_]
    exact ⟨g.log, rfl⟩
  · rename_i listed
    have each : ∀ target ∈ msg.targets, g.activeHandlers[target]? = none := by
      intro target member
      apply nobody
      rw [copies, if_neg listed]
      exact Nat.pos_iff_ne_zero.1 (List.count_pos_iff.2 member)
    simp only
    split
    · exact visit_nobody f _ _ (g.gLog ..) each
    · exact visit_nobody f _ _ g each

theorem foreachHandlers_append_defined (g : Globals) (msg : CommandMsg) (packed : PackedMessage) :
    (g.foreachHandlers msg (append packed)).undefined = g.undefined := by
  unfold foreachHandlers
  split
  · exact (traverse_lookup packed _ g (fun id member => TreeMap.mem_keys.1 member) 0).2
  · have each : ∀ g id h, (append packed g id h).undefined = g.undefined := fun _ _ _ => rfl
    simp only
    rw [visit_defined each]
    split <;> rfl

theorem foreachHandlers_disconnected (g : Globals) (msg : CommandMsg)
    (listed : msg.targets ≠ [BROADCAST_TARGET]) :
    Disconnected msg.targets g.activeHandlers (g.foreachHandlers msg disconnectOne).activeHandlers ∧
      (g.foreachHandlers msg disconnectOne).undefined = g.undefined := by
  rw [foreachHandlers, if_neg listed]
  refine ⟨fun id => ?_, ?_⟩
  · have same : ∀ k : Globals, k.activeHandlers = g.activeHandlers →
        (visit disconnectOne msg.messageId msg.targets k).activeHandlers[id]? =
          if copies msg.targets id = 0 then g.activeHandlers[id]? else none := by
      intro k active
      rw [visit_disconnect, active, copies, if_neg listed]
      by_cases member : id ∈ msg.targets
      · rw [if_pos member, if_neg (Nat.pos_iff_ne_zero.1 (List.count_pos_iff.2 member))]
      · rw [if_neg member, if_pos (List.count_eq_zero.2 member)]
    apply same
    split <;> rfl
  · have each : ∀ g id h, (disconnectOne g id h).undefined = g.undefined := fun _ _ _ => rfl
    simp only
    rw [visit_defined each]
    split <;> rfl

end Globals

theorem untouched_of_log {g : Globals} {after : Globals} (log : ∃ log, after = { g with log := log }) :
    Untouched g after := by
  obtain ⟨log, rfl⟩ := log
  exact ⟨fun _ => rfl, rfl, rfl⟩

theorem Untouched.trans {a b c : Globals} (first : Untouched a b) (second : Untouched b c) :
    Untouched a c :=
  ⟨fun id => (second.active id).trans (first.active id), second.inactive.trans first.inactive,
    second.undefined.trans first.undefined⟩

/-- A handler that is appended to is touched. -/
theorem nobody_of_appended {targets : List UInt32} {packed : PackedMessage} {before after : Globals}
    (appended : Appended packed.wire targets before.activeHandlers after.activeHandlers)
    (untouched : Untouched before after) : Nobody targets before := by
  intro id named
  cases found : before.activeHandlers[id]? with
  | none => rfl
  | some h =>
      obtain ⟨h', there, longer, -⟩ := (appended id).1 h found
      rw [untouched.active id, found] at there
      cases there
      have positive := packed.wire_pos
      have length := congrArg List.length longer
      obtain ⟨n, times⟩ := Nat.exists_eq_succ_of_ne_zero named
      rw [times, List.replicate_succ, List.flatten_cons, List.length_append,
        List.length_append] at length
      omega

/-- So is one that is disconnected. -/
theorem nobody_of_disconnected {targets : List UInt32} {before after : Globals}
    (disconnected : Disconnected targets before.activeHandlers after.activeHandlers)
    (untouched : Untouched before after) : Nobody targets before := by
  intro id named
  rw [← untouched.active id, disconnected id, if_neg named]

/-! ## The bounds -/

/-- A command acts on exactly its targets if it is well formed and on nobody if not, and no
byte outside the payload is read. -/
def InBounds (own : UInt32) (payload : List UInt8) (reads : List Nat) (before after : Globals) :
    Prop :=
  (∀ off ∈ reads, off < payload.length) ∧
    (WellFormed payload → Applied own payload before after) ∧
    (¬ WellFormed payload → Untouched before after)

/-- The payload is empty; or it is no SEND_MSG and no DISCONNECT; or it is a SEND_MSG of a
message that is not registered; or its targets are all there and none is active; or it is
well formed, and no broadcast DISCONNECT. -/
def Harmless (own : UInt32) (payload : List UInt8) (g : Globals) : Prop :=
  payload = [] ∨
    (command payload ≠ COMMAND_SEND_MSG ∧ command payload ≠ COMMAND_DISCONNECT) ∨
    (command payload = COMMAND_SEND_MSG ∧ 5 ≤ payload.length ∧
      (g.tableOf own)[messageId payload]? = none) ∨
    (9 + 4 * targetCnt payload ≤ payload.length ∧ Nobody (targetsOf payload) g) ∨
    (WellFormed payload ∧
      ¬ (command payload = COMMAND_DISCONNECT ∧ targetsOf payload = [BROADCAST_TARGET]))

/-- A command that is read inside and acts on its targets: what is left of the bounds. -/
theorem targeted_iff {inside formed nobody applied untouched : Prop} (fits : formed → inside)
    (acts : inside → applied) (touches : inside → (untouched ↔ nobody)) :
    (inside ∧ (formed → applied) ∧ (¬ formed → untouched)) ↔ (inside ∧ nobody) ∨ formed := by
  constructor
  · rintro ⟨within, -, spared⟩
    by_cases well : formed
    · exact Or.inr well
    · exact Or.inl ⟨within, (touches within).1 (spared well)⟩
  · rintro (⟨within, none_⟩ | well)
    · exact ⟨within, fun _ => acts within, fun _ => (touches within).2 none_⟩
    · exact ⟨fits well, fun _ => acts (fits well), fun ill => absurd well ill⟩

theorem WellFormed.inside {payload : List UInt8} (formed : WellFormed payload) :
    9 + 4 * targetCnt payload ≤ payload.length := Nat.le_of_eq formed.symm

/-- A command other than the two touches nobody. -/
theorem other_bounds {own : UInt32} {payload : List UInt8} {g after : Globals}
    (send : command payload ≠ COMMAND_SEND_MSG) (disconnect : command payload ≠ COMMAND_DISCONNECT)
    (same : Untouched g after) :
    (WellFormed payload → Applied own payload g after) ∧ (¬ WellFormed payload → Untouched g after) := by
  refine ⟨fun _ => ?_, fun _ => same⟩
  rw [Applied, if_neg send, if_neg disconnect]
  exact same

section Commands

variable {h : Handler} {payload : List UInt8} (ready : Ready h COMMAND payload)
  (beyond : Nat → UInt8) (g : Globals)

include ready

section Send

variable (kind : command payload = COMMAND_SEND_MSG)

include kind

omit ready in
/-- What is left of the condition for a SEND_MSG. -/
theorem harmless_send_iff (some_ : payload ≠ []) :
    Harmless h.id payload g ↔
      (5 ≤ payload.length ∧ (g.tableOf h.id)[messageId payload]? = none) ∨
        (9 + 4 * targetCnt payload ≤ payload.length ∧ Nobody (targetsOf payload) g) ∨
        WellFormed payload := by
  have other : command payload ≠ COMMAND_DISCONNECT := by rw [kind]; decide
  constructor
  · rintro (none_ | ⟨no, -⟩ | ⟨-, missing⟩ | both | ⟨well, -⟩)
    · exact absurd none_ some_
    · exact absurd kind no
    · exact Or.inl missing
    · exact Or.inr (Or.inl both)
    · exact Or.inr (Or.inr well)
  · rintro (missing | both | well)
    · exact Or.inr (Or.inr (Or.inl ⟨kind, missing⟩))
    · exact Or.inr (Or.inr (Or.inr (Or.inl both)))
    · exact Or.inr (Or.inr (Or.inr (Or.inr ⟨well, fun bad => other bad.1⟩)))

/-- A message that is not registered: only its id is read, and nobody is touched. -/
theorem send_missing (five : 5 ≤ payload.length)
    (missing : (g.tableOf h.id)[messageId payload]? = none) :
    Access.Within (payloadAt h.readQueue.buffer beyond) payload.length (g.sendReading h.id) ∧
      Untouched g (g.sendMsg h.id (commandMsg h.readQueue.buffer beyond)) ∧
      Applied h.id payload g (g.sendMsg h.id (commandMsg h.readQueue.buffer beyond)) := by
  have opened := (g.opened_same h.id).tables h.id
  have id : fetch32 h.readQueue.buffer beyond (messageSize + 1) = messageId payload :=
    fetch32_payloadAt ready beyond five
  have asked : (commandMsg h.readQueue.buffer beyond).messageId = messageId payload := id
  have untouched : Untouched g (g.sendMsg h.id (commandMsg h.readQueue.buffer beyond)) := by
    simp only [Globals.sendMsg, asked, opened, missing]
    exact ⟨fun _ => rfl, rfl, rfl⟩
  refine ⟨?_, untouched, ?_⟩
  · rw [Globals.sendReading, Access.within_bind, within_read32, value_read32, id]
    refine ⟨five, ?_⟩
    simp only [opened, missing]
    exact Access.within_pure _ _ _
  · rw [Applied, if_pos kind, missing]
    exact untouched

section Registered

variable (five : 5 ≤ payload.length) {packed : PackedMessage}
  (found : (g.tableOf h.id)[messageId payload]? = some packed)

include five found

omit kind in
/-- A registered message: the count and the targets are read too. -/
theorem send_within_iff :
    Access.Within (payloadAt h.readQueue.buffer beyond) payload.length (g.sendReading h.id) ↔
      9 + 4 * targetCnt payload ≤ payload.length := by
  have opened := (g.opened_same h.id).tables h.id
  have id : fetch32 h.readQueue.buffer beyond (messageSize + 1) = messageId payload :=
    fetch32_payloadAt ready beyond five
  rw [Globals.sendReading, Access.within_bind, within_read32, value_read32, id]
  simp only [opened, found]
  rw [Globals.foreachReading_within ready beyond]
  exact ⟨fun both => both.2, fun inside => ⟨by omega, inside⟩⟩

/-- With all targets there it is appended to exactly these. -/
theorem send_acts (inside : 9 + 4 * targetCnt payload ≤ payload.length) :
    Applied h.id payload g (g.sendMsg h.id (commandMsg h.readQueue.buffer beyond)) ∧
      (Untouched g (g.sendMsg h.id (commandMsg h.readQueue.buffer beyond)) ↔
        Nobody (targetsOf payload) g) := by
  have opened := (g.opened_same h.id).tables h.id
  have asked : (commandMsg h.readQueue.buffer beyond).messageId = messageId payload :=
    fetch32_payloadAt ready beyond five
  have effect : g.sendMsg h.id (commandMsg h.readQueue.buffer beyond) =
      Globals.foreachHandlers { g with messages := g.messages.insertIfNew h.id ∅ }
        ⟨command payload, messageId payload, targetsOf payload⟩ (Globals.append packed) := by
    simp only [Globals.sendMsg, asked, opened, found]
    rw [commandMsg_inside ready beyond inside]
  have appended : Appended packed.wire (targetsOf payload) g.activeHandlers
      (g.sendMsg h.id (commandMsg h.readQueue.buffer beyond)).activeHandlers := by
    rw [effect]
    exact foreachHandlers_appended { g with messages := g.messages.insertIfNew h.id ∅ } _ packed
  constructor
  · rw [Applied, if_pos kind, found]
    refine ⟨appended, ?_⟩
    rw [effect]
    exact Globals.foreachHandlers_append_defined ..
  · refine ⟨nobody_of_appended appended, fun none_ => ?_⟩
    have same : Untouched g { g with messages := g.messages.insertIfNew h.id ∅ } :=
      ⟨fun _ => rfl, rfl, rfl⟩
    rw [effect]
    exact same.trans (untouched_of_log (Globals.foreachHandlers_nobody _ _ _ none_))

end Registered

/-- The command SEND_MSG. -/
theorem send_bounds_iff (some_ : payload ≠ []) :
    (Access.Within (payloadAt h.readQueue.buffer beyond) payload.length (g.sendReading h.id) ∧
        (WellFormed payload → Applied h.id payload g
          (g.sendMsg h.id (commandMsg h.readQueue.buffer beyond))) ∧
        (¬ WellFormed payload → Untouched g
          (g.sendMsg h.id (commandMsg h.readQueue.buffer beyond)))) ↔
      Harmless h.id payload g := by
  rw [harmless_send_iff g kind some_]
  by_cases five : 5 ≤ payload.length
  · cases found : (g.tableOf h.id)[messageId payload]? with
    | none =>
        obtain ⟨within, untouched, applied⟩ := send_missing ready beyond g kind five found
        exact ⟨fun _ => Or.inl ⟨five, rfl⟩, fun _ => ⟨within, fun _ => applied, fun _ => untouched⟩⟩
    | some packed =>
        have acts := fun inside => (send_acts ready beyond g kind five found inside).1
        have touches := fun inside => (send_acts ready beyond g kind five found inside).2
        rw [send_within_iff ready beyond g five found,
          targeted_iff WellFormed.inside acts touches]
        constructor
        · exact Or.inr
        · rintro (⟨-, none_⟩ | done)
          · cases none_
          · exact done
  · constructor
    · rintro ⟨within, -⟩
      rw [Globals.sendReading, Access.within_bind, within_read32] at within
      omega
    · rintro (⟨long, -⟩ | ⟨inside, -⟩ | well)
      · exact absurd long five
      · omega
      · have inside := well.inside
        omega

end Send

section Disconnect

variable (kind : command payload = COMMAND_DISCONNECT)

include kind

omit ready in
/-- What is left of the condition for a DISCONNECT. -/
theorem harmless_disconnect_iff (some_ : payload ≠ []) :
    Harmless h.id payload g ↔
      (9 + 4 * targetCnt payload ≤ payload.length ∧ Nobody (targetsOf payload) g) ∨
        (WellFormed payload ∧ targetsOf payload ≠ [BROADCAST_TARGET]) := by
  have other : command payload ≠ COMMAND_SEND_MSG := by rw [kind]; decide
  constructor
  · rintro (none_ | ⟨-, no⟩ | ⟨send, -⟩ | both | ⟨well, fine⟩)
    · exact absurd none_ some_
    · exact absurd kind no
    · exact absurd send other
    · exact Or.inl both
    · exact Or.inr ⟨well, fun broadcast => fine ⟨kind, broadcast⟩⟩
  · rintro (both | ⟨well, fine⟩)
    · exact Or.inr (Or.inr (Or.inr (Or.inl both)))
    · exact Or.inr (Or.inr (Or.inr (Or.inr ⟨well, fun bad => fine bad.2⟩)))

omit ready in
theorem applied_disconnect (after : Globals) :
    Applied h.id payload g after ↔
      Disconnected (targetsOf payload) g.activeHandlers after.activeHandlers ∧
        after.undefined = g.undefined := by
  have other : command payload ≠ COMMAND_SEND_MSG := by rw [kind]; decide
  rw [Applied, if_neg other, if_pos kind]

section Inside

variable (inside : 9 + 4 * targetCnt payload ≤ payload.length)

include inside

omit kind in
theorem disconnect_untouched (none_ : Nobody (targetsOf payload) g) :
    Untouched g (g.disconnect (commandMsg h.readQueue.buffer beyond)) := by
  have logged : Untouched g (g.gLog .DEBUG (text "disconnect command received") []) :=
    ⟨fun _ => rfl, rfl, rfl⟩
  rw [commandMsg_inside ready beyond inside]
  exact logged.trans (untouched_of_log (Globals.foreachHandlers_nobody _ _ _ none_))

/-- A broadcast with anybody active steps from an erased element. -/
theorem nobody_of_broadcast (defined : g.undefined = false)
    (broadcast : targetsOf payload = [BROADCAST_TARGET])
    (same : (g.disconnect (commandMsg h.readQueue.buffer beyond)).undefined = g.undefined) :
    Nobody (targetsOf payload) g := by
  intro id _
  rw [commandMsg_inside ready beyond inside, broadcast, kind] at same
  obtain ⟨none_, -, -⟩ | ⟨first, rest, k, -, -, -, result⟩ :=
    g.disconnect_broadcast (messageId payload)
  · apply TreeMap.getElem?_eq_none
    rw [← TreeMap.mem_keys, none_]
    exact List.not_mem_nil
  · rw [result, defined] at same
    cases same

omit kind in
theorem disconnect_listed (listed : targetsOf payload ≠ [BROADCAST_TARGET]) :
    Disconnected (targetsOf payload) g.activeHandlers
        (g.disconnect (commandMsg h.readQueue.buffer beyond)).activeHandlers ∧
      (g.disconnect (commandMsg h.readQueue.buffer beyond)).undefined = g.undefined := by
  rw [commandMsg_inside ready beyond inside]
  exact Globals.foreachHandlers_disconnected
    (g.gLog .DEBUG (text "disconnect command received") []) _ listed

end Inside

omit ready kind in
/-- Where nobody is named nothing has to happen. -/
theorem disconnected_of_untouched {after : Globals} {targets : List UInt32}
    (same : Untouched g after) (none_ : Nobody targets g) :
    Disconnected targets g.activeHandlers after.activeHandlers := by
  intro id
  rw [same.active id]
  split
  · rfl
  · rename_i named
    exact none_ id named

/-- The command DISCONNECT, as long as nothing undefined has happened before. -/
theorem disconnect_bounds_iff (defined : g.undefined = false) (some_ : payload ≠ []) :
    (Access.Within (payloadAt h.readQueue.buffer beyond) payload.length g.disconnectReading ∧
        (WellFormed payload → Applied h.id payload g
          (g.disconnect (commandMsg h.readQueue.buffer beyond))) ∧
        (¬ WellFormed payload → Untouched g
          (g.disconnect (commandMsg h.readQueue.buffer beyond)))) ↔
      Harmless h.id payload g := by
  have applied := applied_disconnect (h := h) g kind
    (g.disconnect (commandMsg h.readQueue.buffer beyond))
  rw [Globals.disconnectReading, Globals.foreachReading_within ready beyond,
    harmless_disconnect_iff g kind some_, applied]
  by_cases broadcast : targetsOf payload = [BROADCAST_TARGET]
  · constructor
    · rintro ⟨inside, acts, spared⟩
      refine Or.inl ⟨inside, nobody_of_broadcast ready beyond g kind inside defined broadcast ?_⟩
      by_cases well : WellFormed payload
      · exact (acts well).2
      · exact (spared well).undefined
    · rintro (⟨inside, none_⟩ | ⟨-, fine⟩)
      · have untouched := disconnect_untouched ready beyond g inside none_
        exact ⟨inside, fun _ => ⟨disconnected_of_untouched g untouched none_, untouched.undefined⟩,
          fun _ => untouched⟩
      · exact absurd broadcast fine
  · have gone := fun inside => disconnect_listed ready beyond g inside broadcast
    rw [targeted_iff WellFormed.inside gone fun inside =>
      ⟨nobody_of_disconnected (gone inside).1, disconnect_untouched ready beyond g inside⟩]
    simp only [broadcast, ne_eq, not_false_eq_true, and_true]

end Disconnect

theorem recv_bounds_iff (defined : g.undefined = false) (some_ : payload ≠ []) :
    (Access.Within (payloadAt h.readQueue.buffer beyond) payload.length (h.take.recvReading g) ∧
        (WellFormed payload → Applied h.id payload g
          (h.take.handleMessageRecv g (commandMsg h.readQueue.buffer beyond)).1) ∧
        (¬ WellFormed payload → Untouched g
          (h.take.handleMessageRecv g (commandMsg h.readQueue.buffer beyond)).1)) ↔
      Harmless h.id payload g := by
  have positive : 0 < payload.length := List.length_pos_iff.2 some_
  have first : payloadAt h.readQueue.buffer beyond 0 = command payload :=
    command_payloadAt ready beyond some_
  have read : (commandMsg h.readQueue.buffer beyond).command = command payload := first
  rw [Handler.recvReading, Access.within_bind, Access.within_cell, Access.value_cell, first,
    Handler.handleMessageRecv, read]
  simp only [positive, true_and]
  have pure_ : ∀ r : Globals × Handler, Access.Within (payloadAt h.readQueue.buffer beyond)
      payload.length (pure r : Access UInt8 (Globals × Handler)) := fun r => Access.within_pure _ _ _
  by_cases get : command payload = COMMAND_GET_CXN
  · have send : command payload ≠ COMMAND_SEND_MSG := by rw [get]; decide
    have disconnect : command payload ≠ COMMAND_DISCONNECT := by rw [get]; decide
    simp only [if_pos get]
    exact ⟨fun _ => Or.inr (Or.inl ⟨send, disconnect⟩),
      fun _ => ⟨pure_ _, other_bounds send disconnect ⟨fun _ => rfl, rfl, rfl⟩⟩⟩
  · simp only [if_neg get]
    by_cases send : command payload = COMMAND_SEND_MSG
    · simp only [if_pos send, Access.within_bind, pure_, and_true]
      exact send_bounds_iff ready beyond g send some_
    · simp only [if_neg send]
      by_cases disconnect : command payload = COMMAND_DISCONNECT
      · simp only [if_pos disconnect, Access.within_bind, pure_, and_true]
        exact disconnect_bounds_iff ready beyond g disconnect defined some_
      · simp only [if_neg disconnect]
        exact ⟨fun _ => Or.inr (Or.inl ⟨send, disconnect⟩),
          fun _ => ⟨pure_ _, other_bounds send disconnect ⟨fun _ => rfl, rfl, rfl⟩⟩⟩

end Commands

/-- Warning of a version and closing the message are nobody's business. -/
theorem untouched_commanded (g : Globals) (h : Handler) (r : Globals × Handler) :
    Untouched g (h.commanded (h.warned g) r).1 ↔ Untouched (h.warned g) r.1 := by
  constructor
  · rintro ⟨active, inactive, undefined⟩
    exact ⟨by simpa using active, by simpa using inactive, by simpa using undefined⟩
  · rintro ⟨active, inactive, undefined⟩
    exact ⟨by simpa using active, by simpa using inactive, by simpa using undefined⟩

theorem applied_commanded (own : UInt32) (payload : List UInt8) (g : Globals) (h : Handler)
    (r : Globals × Handler) :
    Applied own payload g (h.commanded (h.warned g) r).1 ↔
      Applied own payload (h.warned g) r.1 := by
  simp only [Applied, untouched_commanded, Handler.warned_tableOf, Handler.warned_activeHandlers,
    Handler.warned_undefined, Handler.commanded_activeHandlers, Handler.commanded_undefined]

theorem Harmless.warned (own : UInt32) (payload : List UInt8) (g : Globals) (h : Handler) :
    Harmless own payload (h.warned g) ↔ Harmless own payload g := by
  simp only [Harmless, Nobody, Handler.warned_activeHandlers, Handler.warned_tableOf]

/-- Every COMMAND message acts on exactly the targets its payload lists if the payload is
well formed and on nobody if not, and reads no byte outside the payload, exactly if it is
harmless. -/
theorem command_bounds_iff (cfg : Config) (g : Globals) (defined : g.undefined = false)
    (h : Handler) (payload : List UInt8) (ready : Ready h COMMAND payload) :
    InBounds h.id payload (h.commandReads g) g (h.process cfg g).1 ↔ Harmless h.id payload g := by
  by_cases none_ : payload = []
  · refine ⟨fun _ => Or.inl none_, fun _ => ?_⟩
    have empty : messageLength h.readQueue.buffer = 0 := by rw [ready.length, none_]; rfl
    have other : ¬ messageType h.readQueue.buffer = REGISTER := by rw [ready.type]; decide
    refine ⟨?_, ?_, ?_⟩
    · intro off member
      rw [Handler.commandReads, Handler.processReading, if_pos empty] at member
      cases member
    · intro formed
      have inside := formed.inside
      rw [none_] at inside
      simp at inside
    · intro _
      rw [ready.process_empty cfg g none_]
      simp only [Handler.receiveHeader, ReadBuffer.setToRead, empty, if_true, if_neg other]
      split <;> exact ⟨fun _ => rfl, rfl, rfl⟩
  · have more : ¬ messageLength h.readQueue.buffer = 0 := by
      rw [ready.length]
      exact fun zero => none_ (List.length_eq_zero_iff.1 zero)
    rw [← Harmless.warned h.id payload g h, ← recv_bounds_iff ready
      (Handler.outside (h.warned g)).beyond (h.warned g) (by rw [h.warned_undefined, defined]) none_]
    rw [InBounds, ready.process_command none_, Handler.commandReads, Handler.processReading,
      if_neg more]
    apply and_congr
    · show Access.Within _ _ _ ↔ _
      rw [Access.within_bind]
      exact ⟨fun both => both.1, fun within => ⟨within, Access.within_pure _ _ _⟩⟩
    · rw [applied_commanded, untouched_commanded]

/-- A well-formed DISCONNECT of the peer 3. -/
def someDisconnect : Chunk :=
  ⟨[0, 0, 0, 0, 13, 2] ++ commandPayload COMMAND_DISCONNECT 0 [3], by decide, by decide⟩

theorem command_bounds_iff_one_target :
    InBounds 0 (commandPayload COMMAND_DISCONNECT 0 [3])
      ((Handler.someMoment somePeers someDisconnect).2.commandReads somePeers) somePeers
      ((Handler.someMoment somePeers someDisconnect).2.process Connector.someConfig
        somePeers).1 := by
  have ready : Ready (Handler.someMoment somePeers someDisconnect).2 COMMAND
      (commandPayload COMMAND_DISCONNECT 0 [3]) :=
    Handler.someMoment_ready (by decide +kernel) (by decide +kernel) (by decide +kernel)
  have id : (Handler.someMoment somePeers someDisconnect).2.id = 0 := by decide +kernel
  have bounds := (command_bounds_iff Connector.someConfig somePeers rfl _ _ ready).2
    (Or.inr (Or.inr (Or.inr (Or.inr ⟨by decide +kernel, by decide +kernel⟩))))
  rw [id] at bounds
  exact bounds

/-- A DISCONNECT that announces a target and ends in front of it. -/
def someShortDisconnect : Chunk :=
  ⟨[0, 0, 0, 0, 9, 2] ++ [2, 0, 0, 0, 0, 0, 0, 0, 1], by decide, by decide⟩

/-- The two peers, in a process that has the number 3 behind its read buffer. -/
def someStrayPeers : Globals :=
  { somePeers with
    tape := fun _ => { someOutside with beyond := fun i => if i = 3 then 3 else 0 } }

/-- The target is read behind the payload, and the peer it happens to name is
disconnected. -/
theorem short_disconnect_hits_peer :
    Ready (Handler.someMoment someStrayPeers someShortDisconnect).2 COMMAND
        [2, 0, 0, 0, 0, 0, 0, 0, 1] ∧
      ¬ InBounds 0 [2, 0, 0, 0, 0, 0, 0, 0, 1]
        ((Handler.someMoment someStrayPeers someShortDisconnect).2.commandReads someStrayPeers)
        someStrayPeers ((Handler.someMoment someStrayPeers someShortDisconnect).2.process
          Connector.someConfig someStrayPeers).1 ∧
      9 ∈ (Handler.someMoment someStrayPeers someShortDisconnect).2.commandReads someStrayPeers ∧
      (someStrayPeers.activeHandlers[(3 : UInt32)]?).isSome = true ∧
      (((Handler.someMoment someStrayPeers someShortDisconnect).2.process Connector.someConfig
        someStrayPeers).1.activeHandlers[(3 : UInt32)]?).isSome = false := by
  have outside : 9 ∈ (Handler.someMoment someStrayPeers someShortDisconnect).2.commandReads
      someStrayPeers := by decide +kernel
  refine ⟨Handler.someMoment_ready (by decide +kernel) (by decide +kernel) (by decide +kernel), ?_,
    outside, by decide +kernel, by decide +kernel⟩
  rintro ⟨inside, -⟩
  exact absurd (inside 9 outside) (by decide)

end Coinscope.Control

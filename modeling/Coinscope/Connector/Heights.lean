/-
# Connector.Heights -- the chain height the connector advertises

`g_last_block` is zero until `get_version` loads the configured height into it, and
`handle_message_recv` raises it by at most ten whenever a peer announces more.  The second
does not look whether the first has happened: while the variable is still zero, a peer that
connects to us and announces a height between one and ten has it taken for the height of
the chain, and `get_version` then finds it set.

* `Network` -- the handlers of a process with the variable they share.
* `Handler.blocks` -- the values the variable takes during a callback.
* `Climb`, `Level` -- how it moves, and where it stands between two callbacks.
* `heights_sane` -- the runs in which the height is as configured or higher.
-/
import Coinscope.Connector.VersionExchange

namespace Coinscope.Connector

open Coinscope.Shared
open Coinscope.Theory.Bytes
open Coinscope.Theory.Runs

set_option autoImplicit false

/-! ## Announced heights -/

/-- The message is one whose height is looked at. -/
def announces (frame : List UInt8) : Bool :=
  decide (slice 4 4 frame = ascii ['v', 'e', 'r', 's'])

/-- The height a message announces: four bytes, five from its end. -/
def announced (frame : List UInt8) : Int := ofLE32 (slice (frame.length - 5) 4 frame)

theorem announced_wire (m : PackedMessage) : announced m.wire = Handler.givenBlock m := by
  have size : packedSize = 24 := rfl
  rw [announced, Handler.givenBlock, m.wire_length, PackedMessage.wire, slice_take _ (by omega)]

theorem ofLE32_lt {bytes : List UInt8} (short : bytes.length ≤ 4) : ofLE32 bytes < 2 ^ 31 := by
  have bound := ofLE_lt bytes
  have power : 256 ^ bytes.length ≤ 256 ^ 4 := Nat.pow_le_pow_right (by decide) short
  unfold ofLE32
  split
  · omega
  · omega

/-- A height that fits its 32 bits reads back. -/
theorem ofLE32_le32 {n : Int} (positive : 0 ≤ n) (fits : n < 2 ^ 31) : ofLE32 (le32 n) = n := by
  have same : ofLE (le32 n) = n.toNat := by
    rw [le32, ofLE_le]
    omega
  rw [ofLE32, same, if_pos (by omega)]
  omega

theorem announced_lt (frame : List UInt8) : announced frame < 2 ^ 31 := by
  apply ofLE32_lt
  rw [slice, List.length_take]
  omega

/-- The height in a version message we make, if its length field covers the message. -/
theorem givenBlock_versionMessage {cfg : Config} (env : VersionEnv) {lastBlock : Int}
    (fromAddr recvAddr : SockaddrStorage) (covered : versionSize cfg < 2 ^ 32)
    (positive : 0 ≤ loadedBlock cfg lastBlock) (fits : loadedBlock cfg lastBlock < 2 ^ 31) :
    Handler.givenBlock (versionMessage cfg env lastBlock fromAddr recvAddr) =
      loadedBlock cfg lastBlock := by
  have size : packedSize = 24 := rfl
  have whole := length_getVersion cfg env lastBlock fromAddr recvAddr
  have length : (versionMessage cfg env lastBlock fromAddr recvAddr).length =
      versionSize cfg := by
    rw [length_versionMessage, Nat.mod_eq_of_lt (by omega)]
  have long : 85 ≤ versionSize cfg := Nat.le_add_right ..
  have some_ : ¬ (getVersion cfg env lastBlock fromAddr recvAddr).length % 256 ^ 4 = 0 := by
    rw [whole]
    omega
  have field : slice (versionSize cfg - 5) 4 (getVersion cfg env lastBlock fromAddr recvAddr) =
      le32 (loadedBlock cfg lastBlock) := by
    have parts : getVersion cfg env lastBlock fromAddr recvAddr =
        (le 4 MAX_VERSION ++ le 8 SERVICES ++ le 8 env.time ++ setAddress env.recvAddr recvAddr ++
          setAddress env.fromAddr fromAddr ++ le 8 env.nonce ++ varString cfg.userAgent) ++
          (le32 (loadedBlock cfg lastBlock) ++ [1]) := by
      simp [getVersion]
    have before : (le 4 MAX_VERSION ++ le 8 SERVICES ++ le 8 env.time ++
        setAddress env.recvAddr recvAddr ++ setAddress env.fromAddr fromAddr ++
        le 8 env.nonce ++ varString cfg.userAgent).length = versionSize cfg - 5 := by
      simp [length_setAddress, versionSize]
      omega
    rw [parts, slice_append_right _ (by omega), before, Nat.sub_self, slice, List.drop_zero,
      List.take_left' (by simp [le32])]
  have read : slice (packedSize + versionSize cfg - 5) 4
      (versionMessage cfg env lastBlock fromAddr recvAddr).buffer =
        le32 (loadedBlock cfg lastBlock) := by
    show slice _ 4 (messageHeader cfg _ _ ++ if _ then [] else _) = _
    rw [if_neg some_, slice_append_right _ (by rw [messageHeader_length]; omega),
      messageHeader_length,
      show packedSize + versionSize cfg - 5 - packedSize = versionSize cfg - 5 by omega, field]
  rw [Handler.givenBlock, length, read, ofLE32_le32 positive fits]

/-! ## One message -/

/-- What a message that is handled can do to the height. -/
def Raises (a b : Int) : Prop := b = a ∨ a < b ∧ b - a ≤ 10 ∧ b < 2 ^ 31

namespace Handler

/-- Only a message that announces more changes the height, and to what it announces. -/
theorem handleMessageRecv_block (cfg : Config) (h : Handler) (lastBlock : Int)
    (m : PackedMessage) :
    (h.handleMessageRecv cfg lastBlock m).2 = lastBlock ∨
      announces m.wire = true ∧ lastBlock < announced m.wire ∧
        announced m.wire - lastBlock ≤ 10 ∧
        (h.handleMessageRecv cfg lastBlock m).2 = announced m.wire := by
  have size : packedSize = 24 := rfl
  unfold handleMessageRecv
  simp only
  split
  · exact Or.inl rfl
  · split
    · exact Or.inl rfl
    · split
      · rename_i ver
        split
        · exact Or.inl rfl
        · split
          · rename_i s
            split
            · rename_i more
              refine Or.inr ⟨?_, ?_⟩
              · rw [announces, decide_eq_true_iff, PackedMessage.wire, slice_take _ (by omega)]
                show m.command.take (3 + 1) = _
                rw [List.take_add, ver]
                exact congrArg (ascii ['v', 'e', 'r'] ++ ·) s
              · rw [announced_wire]
                exact ⟨more.1, more.2, rfl⟩
            · exact Or.inl rfl
          · exact Or.inl rfl
      · exact Or.inl rfl

theorem handleMessage_raises (cfg : Config) (h : Handler) (lastBlock : Int) :
    Raises lastBlock (h.handleMessage cfg lastBlock).2 := by
  unfold handleMessage withMessage
  split
  · rename_i whole
    rcases h.handleMessageRecv_block cfg lastBlock ⟨h.readQueue.buffer, whole⟩ with
      same | ⟨-, more, near, result⟩
    · exact Or.inl same
    · refine Or.inr ?_
      show _ < (h.handleMessageRecv cfg lastBlock ⟨h.readQueue.buffer, whole⟩).2 ∧ _
      rw [result]
      exact ⟨more, near, announced_lt _⟩
  · exact Or.inl rfl

/-! ## One round of `do_read` -/

/-- The values `g_last_block` takes in the `switch`: behind the message that was handled, and
behind the `get_version` of an answer. -/
def roundBlocks (cfg : Config) (env : VersionEnv) (h : Handler) (lastBlock : Int) : List Int :=
  if h.state &&& RECV_MASK = RECV_VERSION_REPLY then
    [(h.handleMessage cfg lastBlock).2, (h.process cfg env lastBlock).2]
  else [(h.process cfg env lastBlock).2]

theorem process_reply_header (cfg : Config) (env : VersionEnv) {h : Handler} (lastBlock : Int)
    (room : ¬ h.readQueue.buffer.length < packedSize)
    (recv : h.state &&& RECV_MASK = RECV_VERSION_REPLY_HDR) :
    h.process cfg env lastBlock = (h.sized.receiving RECV_VERSION_REPLY, lastBlock) := by
  simp [process, room, recv, RECV_HEADER, RECV_PAYLOAD, RECV_VERSION_INIT_HDR, RECV_VERSION_INIT,
    RECV_VERSION_REPLY_HDR]

theorem process_reply (cfg : Config) (env : VersionEnv) {h : Handler} (lastBlock : Int)
    (room : ¬ h.readQueue.buffer.length < packedSize)
    (recv : h.state &&& RECV_MASK = RECV_VERSION_REPLY) :
    h.process cfg env lastBlock =
      ((h.handleMessage cfg lastBlock).1.replyVersion cfg env (h.handleMessage cfg lastBlock).2,
        loadedBlock cfg (h.handleMessage cfg lastBlock).2) := by
  simp [process, room, recv, RECV_HEADER, RECV_PAYLOAD, RECV_VERSION_INIT_HDR, RECV_VERSION_INIT,
    RECV_VERSION_REPLY_HDR, RECV_VERSION_REPLY]

theorem process_raises (cfg : Config) (env : VersionEnv) (h : Handler) (lastBlock : Int)
    (other : h.state &&& RECV_MASK ≠ RECV_VERSION_REPLY) :
    Raises lastBlock (h.process cfg env lastBlock).2 := by
  unfold process
  simp only
  split
  · exact Or.inl rfl
  · split
    · split
      · exact Or.inl rfl
      · exact handleMessage_raises ..
    · split
      · exact handleMessage_raises ..
      · split
        · exact Or.inl rfl
        · split
          · exact handleMessage_raises ..
          · split
            · exact Or.inl rfl
            · exact Or.inl rfl

end Handler

/-- The values of `g_last_block` on the way from one to another: none lower than the one
before, and none by more than ten above it and the configured height. -/
inductive Climb (cfg : Config) : Int → List Int → Int → Prop
  | stay (a : Int) : Climb cfg a [] a
  | up {a b c : Int} {rest : List Int} (higher : a ≤ b) (near : b ≤ max a cfg.startHeight + 10)
      (next : Climb cfg b rest c) : Climb cfg a (b :: rest) c

theorem Climb.append {cfg : Config} {a b c : Int} {first second : List Int}
    (early : Climb cfg a first b) (late : Climb cfg b second c) :
    Climb cfg a (first ++ second) c := by
  induction early with
  | stay => exact late
  | up higher near _ ih => exact .up higher near (ih late)

theorem Climb.le {cfg : Config} {a b : Int} {trace : List Int} (climb : Climb cfg a trace b) :
    a ≤ b := by
  induction climb with
  | stay => exact Int.le_refl _
  | up higher _ _ ih => exact Int.le_trans higher ih

/-- A first message for whose height the configured one is given up. -/
def Low (cfg : Config) (frame : List UInt8) : Prop :=
  packedLength frame ≠ 0 ∧ announces frame = true ∧ 0 < announced frame ∧
    announced frame ≤ 10 ∧ announced frame < cfg.startHeight

/-- The height is the configured one or higher, or not loaded yet; then no version was
handled so far. -/
structure Level (cfg : Config) (recv : UInt32) (lastBlock : Int) : Prop where
  positive : 0 ≤ lastBlock
  fits : lastBlock < 2 ^ 31
  loaded : cfg.startHeight ≤ lastBlock ∨ lastBlock = 0 ∧ replying recv = true

/-- What a part of a callback does to the height and to the versions sent. -/
structure Rose (cfg : Config) (h : Handler) (lastBlock : Int) (trace : List Int) (h' : Handler)
    (lastBlock' : Int) : Prop where
  climb : Climb cfg lastBlock trace lastBlock'
  level : Level cfg (h'.state &&& RECV_MASK) lastBlock'
  said : ∃ new, appended h'.log = appended h.log ++ new ∧
    ∀ m ∈ new, isVersion m = true → cfg.startHeight ≤ Handler.givenBlock m

theorem Rose.trans {cfg : Config} {a b c : Handler} {x y z : Int} {first second : List Int}
    (early : Rose cfg a x first b y) (late : Rose cfg b y second c z) :
    Rose cfg a x (first ++ second) c z := by
  obtain ⟨new, log, high⟩ := early.said
  obtain ⟨new', log', high'⟩ := late.said
  refine ⟨early.climb.append late.climb, late.level, new ++ new', ?_, ?_⟩
  · rw [log', log, List.append_assoc]
  · intro m member
    rcases List.mem_append.1 member with here | here
    · exact high m here
    · exact high' m here

theorem no_version_of_handshakes {new : List PackedMessage} (none_ : handshakes new = [])
    {m : PackedMessage} (member : m ∈ new) : isVersion m = false := by
  have refused := List.filter_eq_nil_iff.1 none_ m member
  cases version : isVersion m with
  | false => rfl
  | true =>
      rw [version, Bool.true_or] at refused
      exact absurd rfl refused

/-- A part that leaves the receive state, the height and the handshake alone. -/
theorem Rose.quiet {cfg : Config} {h h' : Handler} {lastBlock : Int}
    (level : Level cfg (h.state &&& RECV_MASK) lastBlock)
    (recv : replying (h'.state &&& RECV_MASK) = replying (h.state &&& RECV_MASK))
    {new : List PackedMessage} (log : appended h'.log = appended h.log ++ new)
    (none_ : handshakes new = []) : Rose cfg h lastBlock [] h' lastBlock := by
  refine ⟨.stay lastBlock, ⟨level.positive, level.fits, by rw [recv]; exact level.loaded⟩, new, log,
    ?_⟩
  intro m member version
  rw [no_version_of_handshakes none_ member] at version
  cases version

theorem Rose.same {cfg : Config} {h h' : Handler} {lastBlock : Int}
    (level : Level cfg (h.state &&& RECV_MASK) lastBlock) (state : h'.state = h.state)
    (log : appended h'.log = appended h.log) : Rose cfg h lastBlock [] h' lastBlock :=
  Rose.quiet level (by rw [state]) (by rw [log, List.append_nil]) rfl

section Rounds

variable {cfg : Config} (positive : 0 < cfg.startHeight) (fits : cfg.startHeight < 2 ^ 31)
  (covered : versionSize cfg < 2 ^ 32)

include positive fits

/-- A loaded height that a message raises is still one. -/
theorem Raises.level {a b : Int} (raises : Raises a b) (loaded : cfg.startHeight ≤ a)
    (small : a < 2 ^ 31) (recv : UInt32) : Climb cfg a [b] b ∧ Level cfg recv b := by
  rcases raises with rfl | ⟨more, near, bound⟩
  · exact ⟨.up (Int.le_refl _) (by omega) (.stay _), ⟨by omega, small, Or.inl loaded⟩⟩
  · exact ⟨.up (by omega) (by omega) (.stay _), ⟨by omega, bound, Or.inl (by omega)⟩⟩

include covered

/-- Our answer carries the configured height or a higher one, and so does the variable. -/
theorem reply_high (env : VersionEnv) {a : Int} (fromAddr recvAddr : SockaddrStorage)
    (small : a < 2 ^ 31) (loaded : cfg.startHeight ≤ a ∨ a = 0) :
    cfg.startHeight ≤ loadedBlock cfg a ∧ loadedBlock cfg a < 2 ^ 31 ∧
      cfg.startHeight ≤ Handler.givenBlock (versionMessage cfg env a fromAddr recvAddr) := by
  have high : cfg.startHeight ≤ loadedBlock cfg a ∧ loadedBlock cfg a < 2 ^ 31 := by
    unfold loadedBlock
    split
    · exact ⟨Int.le_refl _, fits⟩
    · omega
  refine ⟨high.1, high.2, ?_⟩
  rw [givenBlock_versionMessage env fromAddr recvAddr covered (by omega) high.2]
  exact high.1

/-- The version of the peer, and our answer to it. -/
theorem process_reply_rose (env : VersionEnv) {h : Handler} {lastBlock : Int} (kept : Kept h)
    (full : FullPhase (h.state &&& RECV_MASK) h.readQueue.held (received h.log))
    (level : Level cfg (h.state &&& RECV_MASK) lastBlock)
    (recv : h.state &&& RECV_MASK = RECV_VERSION_REPLY)
    (fine : lastBlock = 0 → ¬ Low cfg h.readQueue.held) :
    Rose cfg h lastBlock (h.roundBlocks cfg env lastBlock) (h.process cfg env lastBlock).1
      (h.process cfg env lastBlock).2 := by
  have room : ¬ h.readQueue.buffer.length < packedSize := by
    have cursor := kept.reads.held_length
    have inside := kept.reads.cursor
    have long := full.long
    omega
  obtain ⟨whole, some_⟩ := full.at_body (Or.inr (Or.inr recv))
  obtain ⟨m, -, wire, run⟩ := Handler.message_of_held kept.reads whole
  obtain ⟨new, log, none_⟩ := Handler.handleMessage_speaks cfg h lastBlock
  have handled : (h.handleMessage cfg lastBlock).2 = (h.handleMessageRecv cfg lastBlock m).2 := by
    rw [Handler.handleMessage, run]
  -- the height behind the message: still not loaded, or as high as it must be
  have high : lastBlock ≤ (h.handleMessage cfg lastBlock).2 ∧
      (h.handleMessage cfg lastBlock).2 ≤ max lastBlock cfg.startHeight + 10 ∧
      (h.handleMessage cfg lastBlock).2 < 2 ^ 31 ∧
      (cfg.startHeight ≤ (h.handleMessage cfg lastBlock).2 ∨
        (h.handleMessage cfg lastBlock).2 = 0) := by
    have start := level.positive
    have small := level.fits
    rw [handled]
    rcases h.handleMessageRecv_block cfg lastBlock m with same | ⟨version, more, near, result⟩
    · rw [same]
      refine ⟨by omega, by omega, small, ?_⟩
      rcases level.loaded with loaded | ⟨zero, -⟩
      · exact Or.inl loaded
      · exact Or.inr zero
    · have bound := announced_lt m.wire
      rw [result]
      refine ⟨by omega, by omega, bound, Or.inl ?_⟩
      rcases level.loaded with loaded | ⟨zero, -⟩
      · omega
      · by_contra low
        rw [wire] at version more near low
        exact fine zero ⟨some_, version, by omega, by omega, by omega⟩
  obtain ⟨higher, near, small, loaded⟩ := high
  obtain ⟨enough, bound, answer⟩ := reply_high positive fits covered env
    (h.handleMessage cfg lastBlock).1.remoteAddr cfg.external small loaded
  rw [Handler.roundBlocks, if_pos recv, Handler.process_reply cfg env lastBlock room recv]
  refine ⟨.up higher near (.up ?_ ?_ (.stay _)), ⟨by omega, bound, Or.inl enough⟩, _,
    by rw [Handler.replyVersion_speaks, log, List.append_assoc], ?_⟩
  · unfold loadedBlock
    split
    · omega
    · exact Int.le_refl _
  · unfold loadedBlock
    split
    · omega
    · omega
  · intro m member version
    rcases List.mem_append.1 member with here | here
    · rw [no_version_of_handshakes none_ here] at version
      cases version
    · rcases List.mem_cons.1 here with rfl | here
      · exact answer
      · rw [List.mem_singleton.1 here, isVersion, verackMessage, hasCommand_getMessage] at version
        exact absurd version (by decide)

theorem process_rose (env : VersionEnv) {h : Handler} {lastBlock : Int} (kept : Kept h)
    (full : FullPhase (h.state &&& RECV_MASK) h.readQueue.held (received h.log))
    (level : Level cfg (h.state &&& RECV_MASK) lastBlock)
    (fine : lastBlock = 0 → h.state &&& RECV_MASK = RECV_VERSION_REPLY →
      ¬ Low cfg h.readQueue.held) :
    Rose cfg h lastBlock (h.roundBlocks cfg env lastBlock) (h.process cfg env lastBlock).1
      (h.process cfg env lastBlock).2 := by
  by_cases recv : h.state &&& RECV_MASK = RECV_VERSION_REPLY
  · exact process_reply_rose positive fits covered env kept full level recv fun zero =>
      fine zero recv
  · by_cases header : h.state &&& RECV_MASK = RECV_VERSION_REPLY_HDR
    · have room : ¬ h.readQueue.buffer.length < packedSize := by
        have cursor := kept.reads.held_length
        have inside := kept.reads.cursor
        have long := full.long
        omega
      have next : (h.sized.receiving RECV_VERSION_REPLY).state &&& RECV_MASK =
          RECV_VERSION_REPLY := (recv_receiving ..).trans (by decide)
      rw [Handler.roundBlocks, if_neg recv,
        Handler.process_reply_header cfg env lastBlock room header]
      have quiet : Rose cfg h lastBlock [] (h.sized.receiving RECV_VERSION_REPLY) lastBlock := by
        refine Rose.quiet level ?_ (List.append_nil _).symm rfl
        rw [next, header]
        decide
      exact ⟨.up (Int.le_refl _) (by omega) (.stay _), quiet.level, quiet.said⟩
    · have silent : replying (h.state &&& RECV_MASK) = false := by
        simp [replying, recv, header]
      have loaded : cfg.startHeight ≤ lastBlock := by
        rcases level.loaded with loaded | ⟨-, awaiting⟩
        · exact loaded
        · rw [silent] at awaiting
          cases awaiting
      obtain ⟨climb, level'⟩ := Raises.level positive fits
        (h.process_raises cfg env lastBlock recv) loaded level.fits
          ((h.process cfg env lastBlock).1.state &&& RECV_MASK)
      rw [Handler.roundBlocks, if_neg recv]
      refine ⟨climb, level', ?_⟩
      rcases ((Handler.process_switched cfg env lastBlock kept full).spoke kept full).1 with
        ⟨new, log, none_, -⟩ | ⟨_, _, _, _, before, _⟩
      · refine ⟨new, log, fun m member version => ?_⟩
        rw [no_version_of_handshakes none_ member] at version
        cases version
      · rw [silent] at before
        cases before

end Rounds

/-! ## A callback -/

namespace Handler

/-- The values `g_last_block` takes in the loop of `do_read`. -/
def blocksAux (cfg : Config) (env : VersionEnv) :
    Nat → Handler → Int → List RecvResult → List Int
  | 0, _, _, _ => []
  | fuel + 1, h, lastBlock, inbox =>
      if h.readQueue.hungry then
        let s := h.readQueue.fill inbox
        match s.ret with
        | .fail _ => []
        | .count 0 => []
        | .count (_ + 1) =>
            let full := h.filled s
            let p := full.process cfg env lastBlock
            full.roundBlocks cfg env lastBlock ++ blocksAux cfg env fuel p.1 p.2 s.inbox
      else []

/-- The values `g_last_block` takes in `io_cb`. -/
def blocks (cfg : Config) (env : VersionEnv) (h : Handler) (lastBlock : Int) (revents : Events)
    (inbox : List RecvResult) : List Int :=
  if h.io.fd = -1 then []
  else if h.state &&& RECV_MASK ≠ 0 ∧ revents.read = true then
    blocksAux cfg env (h.readQueue.effort inbox + 1) h lastBlock inbox
  else []

end Handler

/-- The bytes do not start with a whole message of a height too low. -/
def Unlowered (cfg : Config) (bytes : List UInt8) : Prop :=
  ∀ frame, messages.Complete frame → frame <+: bytes → ¬ Low cfg frame

section Callbacks

variable {cfg : Config} (positive : 0 < cfg.startHeight) (fits : cfg.startHeight < 2 ^ 31)
  (covered : versionSize cfg < 2 ^ 32)

include positive fits covered

theorem doReadAux_rose (env : VersionEnv) (fuel : Nat) {h : Handler} {lastBlock : Int}
    {inbox : List RecvResult} (sound : Sound h)
    (level : Level cfg (h.state &&& RECV_MASK) lastBlock)
    (fine : lastBlock = 0 → Unlowered cfg (h.got ++ stream (leading inbox))) :
    Rose cfg h lastBlock (Handler.blocksAux cfg env fuel h lastBlock inbox)
      (Handler.doReadAux cfg env fuel h lastBlock inbox).1
      (Handler.doReadAux cfg env fuel h lastBlock inbox).2 := by
  induction fuel generalizing h lastBlock inbox with
  | zero => exact Rose.same level rfl rfl
  | succ fuel ih =>
      rw [Handler.doReadAux, Handler.blocksAux]
      by_cases hungry : 0 < h.readQueue.toRead
      · have wants : h.readQueue.hungry = true := by simp [ReadBuffer.hungry, hungry]
        rw [if_pos wants, if_pos wants]
        simp only
        obtain ⟨valid, ⟨bytes, full⟩ | ⟨bytes, short⟩⟩ := ReadBuffer.fill_cases sound.reads inbox
        · obtain ⟨kept, phase, processed⟩ :=
            Handler.round_processed cfg env lastBlock sound hungry valid full
          have total : (h.filled (h.readQueue.fill inbox)).got ++
              stream (leading (h.readQueue.fill inbox).inbox) =
                h.got ++ stream (leading inbox) := by
            rw [full.delivered, ← List.append_assoc]
            rfl
          have first : lastBlock = 0 → (h.filled (h.readQueue.fill inbox)).state &&& RECV_MASK =
              RECV_VERSION_REPLY →
              ¬ Low cfg (h.filled (h.readQueue.fill inbox)).readQueue.held := by
            intro zero recv
            obtain ⟨whole, -⟩ := phase.at_body (Or.inr (Or.inr recv))
            have none_ : received h.log = [] := by
              cases phase with
              | header state =>
                  exfalso
                  rcases state with ⟨here, -⟩ | ⟨here | here, -⟩ <;>
                    exact absurd (here.symm.trans recv) (by decide)
              | payload state =>
                  rcases state with ⟨here, -⟩ | ⟨-, none_⟩
                  · exact absurd (here.symm.trans recv) (by decide)
                  · exact none_
            have got : (h.filled (h.readQueue.fill inbox)).got =
                (h.filled (h.readQueue.fill inbox)).readQueue.held ++
                  (h.filled (h.readQueue.fill inbox)).readQueue.unread := by
              rw [kept.whole]
              show (received h.log).flatten ++ _ ++ _ = _
              rw [none_]
              rfl
            apply fine zero
            · exact ⟨phase.long, by rw [messages_size]; exact whole⟩
            · rw [← total, got, List.append_assoc]
              exact List.prefix_append ..
          have round := process_rose positive fits covered env kept phase level first
          have next := ih processed.sound round.level (by
            intro zero
            rw [processed.got, total]
            apply fine
            have low := round.climb.le
            have start := level.positive
            omega)
          rw [full.ret]
          have begun : Rose cfg h lastBlock ((h.filled (h.readQueue.fill inbox)).roundBlocks cfg
              env lastBlock) ((h.filled (h.readQueue.fill inbox)).process cfg env lastBlock).1
              ((h.filled (h.readQueue.fill inbox)).process cfg env lastBlock).2 :=
            ⟨round.climb, round.level, round.said⟩
          exact begun.trans next
        · have ends : ∀ (updateType : UInt32) (text : List UInt8), Rose cfg h lastBlock []
              ((h.filled (h.readQueue.fill inbox)).gLogBitcoin updateType text).suicide
              lastBlock := by
            intro updateType text
            apply Rose.same level
            · rfl
            · simp [Handler.filled, Handler.suicide, Handler.gLogBitcoin, Handler.gLog, appended]
          rcases Handler.hangsUp_of_short short with ⟨ret, -⟩ | ⟨e, ret, -⟩
          · rw [ret]
            exact ends ORDERLY_DISCONNECT []
          · rw [ret]
            cases e with
            | eagain => exact Rose.same level rfl rfl
            | eintr => exact Rose.same level rfl rfl
            | econnreset => exact ends PEER_RESET []
            | ebadf => exact ends UNEXPECTED_ERROR _
            | other code => exact ends UNEXPECTED_ERROR _
      · have sated : ¬ h.readQueue.hungry = true := by simp [ReadBuffer.hungry, hungry]
        rw [if_neg sated, if_neg sated]
        exact Rose.same level rfl rfl

omit positive fits covered in
theorem doWrite_rose {h : Handler} {lastBlock : Int} (sound : Sound h)
    (level : Level cfg (h.state &&& RECV_MASK) lastBlock) (outbox : List WriteResult) :
    Rose cfg h lastBlock [] (h.doWrite cfg outbox) lastBlock := by
  obtain ⟨log, same, -⟩ := Handler.doWrite_silent cfg sound outbox
  exact Rose.quiet level same (by rw [log, List.append_nil]) rfl

theorem ioCb_rose (env : VersionEnv) {h : Handler} {lastBlock : Int} (sound : Sound h)
    (level : Level cfg (h.state &&& RECV_MASK) lastBlock) (revents : Events)
    (inbox : List RecvResult) (outbox : List WriteResult)
    (fine : lastBlock = 0 → h.io.fd ≠ -1 → revents.read = true →
      Unlowered cfg (h.got ++ stream (leading inbox))) :
    Rose cfg h lastBlock (h.blocks cfg env lastBlock revents inbox)
      (h.ioCb cfg env lastBlock revents inbox outbox).1
      (h.ioCb cfg env lastBlock revents inbox outbox).2 := by
  rw [Handler.blocks, Handler.ioCb]
  by_cases live : h.io.fd = -1
  · rw [if_pos live, if_pos live]
    exact Rose.same level rfl rfl
  · rw [if_neg live, if_neg live]
    have written : ∀ {k : Handler} {height : Int}, Sound k →
        Level cfg (k.state &&& RECV_MASK) height →
        Rose cfg k height [] ((if revents.write then k.doWrite cfg outbox else k).ioSet
          ⟨(if revents.write then k.doWrite cfg outbox else k).state &&& RECV_MASK ≠ 0,
            (if revents.write then k.doWrite cfg outbox else k).state &&& SEND_MASK ≠ 0⟩)
          height := by
      intro k height sound level
      have first : Rose cfg k height [] (if revents.write then k.doWrite cfg outbox else k)
          height := by
        split
        · exact doWrite_rose sound level outbox
        · exact Rose.same level rfl rfl
      generalize (if revents.write then k.doWrite cfg outbox else k) = w at first ⊢
      have log := (w.ioSet_sameWrites ⟨w.state &&& RECV_MASK ≠ 0, w.state &&& SEND_MASK ≠ 0⟩).appended
      refine first.trans (Rose.quiet first.level ?_ (by rw [log, List.append_nil]) rfl)
      rw [(Handler.ioSet_sameReads ..).recv]
    by_cases ready : h.state &&& RECV_MASK ≠ 0 ∧ revents.read = true
    · rw [if_pos ready, if_pos ready]
      have read := doReadAux_rose positive fits covered env (h.readQueue.effort inbox + 1) sound
        level fun zero => fine zero live ready.2
      have sounder := (Handler.doRead_read cfg env lastBlock inbox sound ready.1).sound
      have both := read.trans (written sounder read.level)
      rw [List.append_nil] at both
      exact both
    · rw [if_neg ready, if_neg ready]
      exact written sound level

end Callbacks

/-! ## All connections of a process -/

/-- The handlers of a process and `g_last_block`. -/
structure Network where
  lastBlock : Int
  peers : List Peer

/-- A connection is made or accepted, or something happens to one of them. -/
inductive NetworkEvent where
  | opened (origin : Peer.Origin) (env : VersionEnv) (fd : Nat) (isOpen : 0 < fd)
      (remote localAddr : SockaddrStorage) (id : UInt32)
  | peer (k : Nat) (e : PeerEvent)

/-- The event as it happens at a value of `g_last_block`. -/
def PeerEvent.at (lastBlock : Int) : PeerEvent → PeerEvent
  | .ioCb env _ revents inbox outbox => .ioCb env lastBlock revents inbox outbox
  | e => e

/-- `g_last_block` behind an event of a handler. -/
def Peer.height (cfg : Config) (p : Peer) (lastBlock : Int) : PeerEvent → Int
  | .ioCb env _ revents inbox outbox =>
      if p.deleted then lastBlock
      else (p.handler.ioCb cfg env lastBlock revents inbox outbox).2
  | _ => lastBlock

/-- The values it takes on the way. -/
def Peer.blocks (cfg : Config) (p : Peer) (lastBlock : Int) : PeerEvent → List Int
  | .ioCb env _ revents inbox _ =>
      if p.deleted then [] else p.handler.blocks cfg env lastBlock revents inbox
  | _ => []

namespace Network

/-- No connection yet, and `g_last_block` as it is initialised. -/
def initial : Network := ⟨0, []⟩

def step (cfg : Config) (n : Network) : NetworkEvent → Network
  | .opened origin env fd _ remote localAddr id =>
      ⟨(Handler.new cfg env n.lastBlock fd origin.state remote localAddr id).2,
        n.peers ++ [Peer.new cfg env n.lastBlock fd origin remote localAddr id]⟩
  | .peer k e =>
      match n.peers[k]? with
      | none => n
      | some p =>
          ⟨p.height cfg n.lastBlock e, n.peers.set k (p.step cfg (e.at n.lastBlock))⟩

/-- The version messages a handler sends in a step, beside those of commands. -/
def versions (cfg : Config) (n : Network) : NetworkEvent → List PackedMessage
  | .opened origin env fd _ remote localAddr id =>
      (appended (Peer.new cfg env n.lastBlock fd origin remote localAddr id).handler.log).filter
        isVersion
  | .peer k e =>
      match n.peers[k]? with
      | none => []
      | some p => (p.owned cfg (e.at n.lastBlock)).filter isVersion

/-- The values `g_last_block` takes in a step. -/
def blocks (cfg : Config) (n : Network) : NetworkEvent → List Int
  | .opened origin env fd _ remote localAddr id =>
      [(Handler.new cfg env n.lastBlock fd origin.state remote localAddr id).2]
  | .peer k e =>
      match n.peers[k]? with
      | none => []
      | some p => p.blocks cfg n.lastBlock e

/-- Every version sent carries the configured height or a higher one, and `g_last_block`
moves as it may. -/
def Sane (cfg : Config) (n : Network) (e : NetworkEvent) : Prop :=
  (∀ m ∈ n.versions cfg e, cfg.startHeight ≤ Handler.givenBlock m) ∧
    Climb cfg n.lastBlock (n.blocks cfg e) (n.step cfg e).lastBlock

/-- While the height is not loaded, no peer that is read starts with a whole message of a
height too low. -/
def Unlowers (cfg : Config) (n : Network) : NetworkEvent → Prop
  | .peer k (.ioCb _ _ revents inbox _) => n.lastBlock = 0 → ∀ p, n.peers[k]? = some p →
      p.deleted = false → p.handler.io.fd ≠ -1 → revents.read = true →
      Unlowered cfg (p.handler.got ++ stream (leading inbox))
  | _ => True

/-- The height between two callbacks, and every handler as it must be. -/
structure Settled (cfg : Config) (n : Network) : Prop where
  positive : 0 ≤ n.lastBlock
  fits : n.lastBlock < 2 ^ 31
  loaded : cfg.startHeight ≤ n.lastBlock ∨ n.lastBlock = 0
  sound : ∀ p ∈ n.peers, Sound p.handler
  level : ∀ p ∈ n.peers, Level cfg p.recv n.lastBlock

end Network

/-- A handler that waited keeps its level when another callback has raised the height. -/
theorem Level.raise {cfg : Config} {recv recv' : UInt32} {a b : Int} (level : Level cfg recv a)
    (higher : a ≤ b) (other : Level cfg recv' b) : Level cfg recv b := by
  refine ⟨other.positive, other.fits, ?_⟩
  rcases level.loaded with loaded | ⟨zero, awaiting⟩
  · exact Or.inl (by omega)
  · rcases other.loaded with loaded | ⟨still, -⟩
    · exact Or.inl loaded
    · exact Or.inr ⟨still, awaiting⟩

section Runs

variable {cfg : Config} (positive : 0 < cfg.startHeight) (fits : cfg.startHeight < 2 ^ 31)
  (covered : versionSize cfg < 2 ^ 32)

include positive fits covered

/-- One event of one handler: what it sends, how the height moves, and its own level. -/
theorem peer_rose {p : Peer} {lastBlock : Int} (sound : Sound p.handler)
    (level : Level cfg p.recv lastBlock) (e : PeerEvent)
    (fine : ∀ env last revents inbox outbox, e = .ioCb env last revents inbox outbox →
      lastBlock = 0 → p.deleted = false → p.handler.io.fd ≠ -1 → revents.read = true →
      Unlowered cfg (p.handler.got ++ stream (leading inbox))) :
    (∀ m ∈ p.owned cfg (e.at lastBlock), isVersion m = true →
        cfg.startHeight ≤ Handler.givenBlock m) ∧
      Climb cfg lastBlock (p.blocks cfg lastBlock e) (p.height cfg lastBlock e) ∧
      Level cfg (p.step cfg (e.at lastBlock)).recv (p.height cfg lastBlock e) := by
  by_cases read : ∃ env last revents inbox outbox, e = .ioCb env last revents inbox outbox
  · obtain ⟨env, last, revents, inbox, outbox, rfl⟩ := read
    by_cases deleted : p.deleted = true
    · have same : p.step cfg (.ioCb env lastBlock revents inbox outbox) = p := by
        simp [Peer.step, deleted]
      refine ⟨?_, ?_, ?_⟩
      · intro m member
        simp [PeerEvent.at, Peer.owned, same] at member
      · simp only [Peer.blocks, Peer.height, deleted, if_true]
        exact .stay lastBlock
      · simp only [PeerEvent.at, Peer.height, deleted, if_true, same]
        exact level
    · have result : p.step cfg (.ioCb env lastBlock revents inbox outbox) = { p with
          handler := (p.handler.ioCb cfg env lastBlock revents inbox outbox).1 } := by
        simp [Peer.step, deleted]
      have rose := ioCb_rose positive fits covered env sound level revents inbox outbox
        fun zero => fine _ _ _ _ _ rfl zero (by simpa using deleted)
      obtain ⟨new, log, high⟩ := rose.said
      have own : p.owned cfg (.ioCb env lastBlock revents inbox outbox) = new :=
        Peer.owned_of_log _ (by rw [result]; exact log) (by intro m no; cases no)
      simp only [PeerEvent.at, Peer.blocks, Peer.height, deleted, own, result]
      exact ⟨high, rose.climb, rose.level⟩
  · have other : ∀ env last revents inbox outbox, e ≠ .ioCb env last revents inbox outbox :=
      fun env last revents inbox outbox same => read ⟨env, last, revents, inbox, outbox, same⟩
    have unchanged : e.at lastBlock = e ∧ p.blocks cfg lastBlock e = [] ∧
        p.height cfg lastBlock e = lastBlock := by
      cases e with
      | ioCb env last revents inbox outbox => exact absurd rfl (other _ _ _ _ _)
      | send => exact ⟨rfl, rfl, rfl⟩
      | disconnect => exact ⟨rfl, rfl, rfl⟩
      | pinger => exact ⟨rfl, rfl, rfl⟩
      | activePinger => exact ⟨rfl, rfl, rfl⟩
      | clearInactive => exact ⟨rfl, rfl, rfl⟩
    obtain ⟨at_, none_, same⟩ := unchanged
    rw [at_, none_, same, Peer.step_recv cfg p other]
    refine ⟨?_, .stay lastBlock, level⟩
    intro m member version
    rw [no_version_of_handshakes (Peer.owned_silent cfg p other) member] at version
    cases version

/-- A new connection. -/
theorem opened_settled {n : Network} (settled : n.Settled cfg) (origin : Peer.Origin)
    (env : VersionEnv) (fd : Nat) (isOpen : 0 < fd) (remote localAddr : SockaddrStorage)
    (id : UInt32) :
    n.Sane cfg (.opened origin env fd isOpen remote localAddr id) ∧
      (n.step cfg (.opened origin env fd isOpen remote localAddr id)).Settled cfg := by
  have fresh := Peer.new_sound cfg env n.lastBlock isOpen origin remote localAddr id
  have sound : ∀ p ∈ (n.step cfg (.opened origin env fd isOpen remote localAddr id)).peers,
      Sound p.handler := by
    intro p member
    rcases List.mem_append.1 member with here | here
    · exact settled.sound p here
    · rw [List.mem_singleton.1 here]
      exact fresh
  cases origin with
  | connected =>
      have result : (Handler.new cfg env n.lastBlock fd Peer.Origin.connected.state remote
          localAddr id).2 = loadedBlock cfg n.lastBlock := rfl
      obtain ⟨high, small, version⟩ := reply_high positive fits covered env cfg.external remote
        settled.fits settled.loaded
      have level : ∀ recv, Level cfg recv (loadedBlock cfg n.lastBlock) :=
        fun recv => ⟨by omega, small, Or.inl high⟩
      refine ⟨⟨?_, ?_⟩, by show 0 ≤ loadedBlock cfg n.lastBlock; omega, small, Or.inl high, sound,
        fun p _ => level p.recv⟩
      · intro m member
        have only : m ∈ [versionMessage cfg env n.lastBlock cfg.external remote] :=
          (List.mem_filter.1 member).1
        rw [List.mem_singleton.1 only]
        exact version
      · show Climb cfg n.lastBlock [loadedBlock cfg n.lastBlock] (loadedBlock cfg n.lastBlock)
        have start := settled.positive
        refine .up ?_ ?_ (.stay _)
        · unfold loadedBlock
          split
          · omega
          · exact Int.le_refl _
        · unfold loadedBlock
          split
          · omega
          · omega
  | accepted =>
      refine ⟨⟨?_, ?_⟩, settled.positive, settled.fits, settled.loaded, sound, ?_⟩
      · intro m member
        exact absurd (List.mem_filter.1 member).1 (by
          show m ∉ ([] : List PackedMessage)
          exact List.not_mem_nil)
      · show Climb cfg n.lastBlock [n.lastBlock] n.lastBlock
        exact .up (Int.le_refl _) (by omega) (.stay _)
      · intro p member
        rcases List.mem_append.1 member with here | here
        · exact settled.level p here
        · refine ⟨settled.positive, settled.fits, ?_⟩
          rcases settled.loaded with loaded | zero
          · exact Or.inl loaded
          · refine Or.inr ⟨zero, ?_⟩
            rw [List.mem_singleton.1 here]
            show replying (RECV_VERSION_REPLY_HDR &&& RECV_MASK) = true
            decide

theorem step_settled {n : Network} (settled : n.Settled cfg) (e : NetworkEvent)
    (fine : n.Unlowers cfg e) : n.Sane cfg e ∧ (n.step cfg e).Settled cfg := by
  cases e with
  | opened origin env fd isOpen remote localAddr id =>
      exact opened_settled positive fits covered settled origin env fd isOpen remote localAddr id
  | peer k e =>
      cases there : n.peers[k]? with
      | none =>
          have same : n.step cfg (.peer k e) = n := by simp [Network.step, there]
          refine ⟨⟨?_, ?_⟩, by rw [same]; exact settled⟩
          · intro m member
            simp [Network.versions, there] at member
          · rw [same]
            simp only [Network.blocks, there]
            exact .stay _
      | some p =>
          have member := List.mem_of_getElem? there
          have level := settled.level p member
          obtain ⟨high, climb, level'⟩ := peer_rose positive fits covered
            (settled.sound p member) level e (by
              rintro env last revents inbox outbox rfl zero
              exact fine zero p there)
          have result : n.step cfg (.peer k e) = ⟨p.height cfg n.lastBlock e,
              n.peers.set k (p.step cfg (e.at n.lastBlock))⟩ := by simp [Network.step, there]
          refine ⟨⟨?_, ?_⟩, ?_⟩
          · intro m sent
            simp only [Network.versions, there] at sent
            exact high m (List.mem_filter.1 sent).1 (List.mem_filter.1 sent).2
          · rw [result]
            simp only [Network.blocks, there]
            exact climb
          · rw [result]
            refine ⟨level'.positive, level'.fits, ?_, ?_, ?_⟩
            · rcases level'.loaded with loaded | ⟨zero, -⟩
              · exact Or.inl loaded
              · exact Or.inr zero
            · intro q here
              rcases List.mem_or_eq_of_mem_set here with old | rfl
              · exact settled.sound q old
              · exact Peer.step_sound cfg (settled.sound p member) _
            · intro q here
              rcases List.mem_or_eq_of_mem_set here with old | rfl
              · exact (settled.level q old).raise climb.le level'
              · exact level'

end Runs

/-- Take any run of incoming and outgoing connections in which, as long as no version was
sent, no peer starts with a version of a height between one and ten below the configured
one.  Then in every step every version sent carries the configured height or a higher one,
`g_last_block` does not decrease, and no message raises it by more than ten above its value
and the configured height. -/
theorem heights_sane (cfg : Config) (positive : 0 < cfg.startHeight)
    (fits : cfg.startHeight < 2 ^ 31) (covered : versionSize cfg < 2 ^ 32)
    (events : List NetworkEvent)
    (ok : Along (Network.step cfg) (Network.Unlowers cfg) Network.initial events) :
    Along (Network.step cfg) (Network.Sane cfg) Network.initial events := by
  refine along_meets (I := Network.Settled cfg)
    (fun n e settled fine => step_settled positive fits covered settled e fine) ?_ ok
  exact ⟨Int.le_refl _, by decide, Or.inr rfl, fun _ no => absurd no List.not_mem_nil,
    fun _ no => absurd no List.not_mem_nil⟩

/-- The version of a node at `otherAddr` whose chain has this height. -/
def versionAt (height : Int) : PackedMessage :=
  versionMessage someConfig someEnv height otherAddr someAddr

def highVersion : Chunk := ⟨(versionAt 300007).wire, by decide +kernel, by decide +kernel⟩

def lowVersion : Chunk := ⟨(versionAt 5).wire, by decide +kernel, by decide +kernel⟩

/-- We connect to a node that is seven blocks ahead of the configured height. -/
def someClimb : List NetworkEvent :=
  [.opened .connected someEnv 5 (by decide) otherAddr someAddr 3,
    .peer 0 (.ioCb someEnv 0 Events.WRITE [] [.accept 200]),
    .peer 0 (.ioCb someEnv 0 Events.READ [.data highVersion] [])]

theorem heights_sane_ahead :
    (run (Network.step someConfig) Network.initial someClimb).lastBlock = 300007 ∧
      Along (Network.step someConfig) (Network.Sane someConfig) Network.initial someClimb := by
  refine ⟨by decide +kernel, ?_⟩
  refine heights_sane someConfig (by decide) (by decide) (by decide +kernel) someClimb ?_
  refine ⟨trivial, ?_, ?_, trivial⟩
  · intro zero
    exact absurd zero (by decide +kernel)
  · intro zero
    exact absurd zero (by decide +kernel)

/-- The first connection of a process is an incoming one, from a node with five blocks. -/
def someFall : List NetworkEvent :=
  [.opened .accepted someEnv 5 (by decide) otherAddr someAddr 3,
    .peer 0 (.ioCb someEnv 0 Events.READ [.data lowVersion] [])]

/-- It is answered with a height of five instead of 300000. -/
theorem height_taken_over :
    ¬ Along (Network.step someConfig) (Network.Sane someConfig) Network.initial someFall := by
  rintro ⟨-, ⟨high, -⟩, -⟩
  have sent : (Network.versions someConfig (Network.step someConfig Network.initial
      (.opened .accepted someEnv 5 (by decide) otherAddr someAddr 3))
      (.peer 0 (.ioCb someEnv 0 Events.READ [.data lowVersion] []))).map Handler.givenBlock =
        [5] := by decide +kernel
  have member : (5 : Int) ∈ [5] := List.mem_singleton_self 5
  rw [← sent] at member
  obtain ⟨m, there, five⟩ := List.mem_map.1 member
  have enough := high m there
  rw [five] at enough
  exact absurd enough (by decide)

end Coinscope.Connector
